import Gallery.Controllers.Server
import Gallery.Pages.LastComments
import Gallery.Pages.Listing
import Gallery.Pages.LiveTable

/-!
# The cached fragments

The templates of the listings and of a picture's page wrap parts of themselves in
`cache`. A fragment is found by its key alone, and nothing expires it: the sweeper
that would is not registered. An HTML fragment is modelled by the values its template
writes; two visits give the same HTML when all these agree.

A listing's key is the list of its pictures' keys, so a listing of one picture has the
key of that picture's page.

## Main definitions

* `Language.t` — the texts of the locale files
* `Visit` — a request for a page
* `render_menu`, `render_pictures`, `render_picture` — the bodies of the fragments
* `Visit.fragments` — the fragments of a page, with their keys
* `Admin.update_picture`, `Admin.update_category` — the admin edits
* `fragmentCache` — visits and writes over one cache
-/

namespace Gallery

open Store Rails App Semantics

/-! ### Texts -/

/-- The keys of the texts in the fragments. -/
inductive TextKey
  | application_title
  | application_last_comments
  | views_users_online
  | comments_title
  | comments_posted
  | comments_ago
  | comments_sender
  | pagination_first
  | pagination_previous
  | pagination_next
  | pagination_last
deriving DecidableEq, Repr

/-- `t`, from `en.yml` and `de.yml` -/
def Language.t : Language → TextKey → String
  | .en, .application_title => "Gallery"
  | .en, .application_last_comments => "Last comments"
  | .en, .views_users_online => "Users online :"
  | .en, .comments_title => "Title :"
  | .en, .comments_posted => "Posted"
  | .en, .comments_ago => "ago"
  | .en, .comments_sender => "Sender :"
  | .en, .pagination_first => "&laquo; First"
  | .en, .pagination_previous => "&lsaquo; Prev"
  | .en, .pagination_next => "Next &rsaquo;"
  | .en, .pagination_last => "Last &raquo;"
  | .de, .application_title => "Galerie"
  | .de, .application_last_comments => "Neueste Kommentare"
  | .de, .views_users_online => "Benutzer online :"
  | .de, .comments_title => "Titel :"
  | .de, .comments_posted => "Geschrieben"
  | .de, .comments_ago => "zuvor"
  | .de, .comments_sender => "Absender :"
  | .de, .pagination_first => "&laquo; Erste"
  | .de, .pagination_previous => "&lsaquo; Früher"
  | .de, .pagination_next => "Nächste &rsaquo;"
  | .de, .pagination_last => "Letzte &raquo;"

/-- What the pages get from outside the repository: how the database compares texts and
arranges rows that its `ORDER BY` leaves open, and how Rails puts an age into words. -/
structure Site where
  collation : Collation
  ilike : String → String → Bool
  arrange_pictures : Listing → List (Row Picture)
  pictures_answer : ∀ l : Listing, l.order.Answers l.rows (arrange_pictures l)
  /-- `order('created_at DESC')` -/
  arrange_comments : List (Row Comment) → List (Row Comment)
  comments_answer : ∀ rows,
    (RowOrder.ascending.comap fun c : Row Comment => c.val.created_at).flip.Answers rows
      (arrange_comments rows)
  /-- `order("email DESC")`, on keys and e-mails -/
  arrange_users : List (Id × String) → List (Id × String)
  users_answer : ∀ rows,
    (collation.comap fun u : Id × String => u.2).flip.Answers rows (arrange_users rows)
  /-- `Category.all` -/
  arrange_categories : List (Row Category) → List (Row Category)
  categories_answer : ∀ rows, RowOrder.any.Answers rows (arrange_categories rows)
  time_ago_in_words : Language → Time → Time → String

/-! ### Visits -/

/-- The parameters of the search form and of a sort link. -/
structure SearchParams where
  title_cont : Option String
  s : Option SortBy
deriving DecidableEq, Repr

/-- A request for a listing: `index`, or `select` with the name of a category. Pages are
counted from 0. -/
structure ListingRequest where
  category : Option String
  q : Option SearchParams
  id : Option SearchParams
  page : ℕ
deriving DecidableEq, Repr

/-- The pages with fragments. -/
inductive View
  | listing (r : ListingRequest)
  | show (id : Id) (page : ℕ)
deriving DecidableEq, Repr

/-- A request for a page: the session's user, CSRF token and language, and the clock. -/
structure Visit where
  session : Option Id
  token : String
  language : Language
  url : String
  now : Time
  view : View
deriving DecidableEq, Repr

/-- The visit as a request to the server. -/
def Visit.request (v : Visit) : Request := ⟨v.session, v.url, v.now, .pictures_view⟩

variable (site : Site)

namespace ListingRequest

/-- The parameters `@search` is made of: `params[:q]` in `index`, `params[:id]` in `select`. -/
def search (r : ListingRequest) : Option SearchParams :=
  match r.category with
  | none => r.q
  | some _ => r.id

/-- `@pictures` before it is cut into pages. -/
def listing (db : Database) (r : ListingRequest) : Listing :=
  let search (p : SearchParams) : Search := Search.ofForm site.ilike p.title_cont p.s
  let params : ListingParams := ⟨r.q.map search, r.id.map search⟩
  match r.category with
  | none => PicturesController.index site.collation db params
  | some name =>
    PicturesController.select site.collation db
      (db.categories.rows.find? fun c => c.val.name = name) params

/-- `@pictures` -/
def pictures (db : Database) (r : ListingRequest) : List (Row Picture) :=
  Store.page Picture.perPage r.page (site.arrange_pictures (r.listing site db))

/-- `@pictures.total_pages` -/
def total_pages (db : Database) (r : ListingRequest) : ℕ :=
  pageCount Picture.perPage (r.listing site db).rows.length

end ListingRequest

/-! ### The bodies -/

/-- The search form and the links to the categories. -/
structure MenuHtml where
  authenticity_token : String
  title_cont : Option String
  categories : List (Id × String)
deriving DecidableEq, Repr

/-- What `paginate` writes when there is more than one page: its labels, the page, the
number of pages, and what its links are made of. -/
structure Pagination (Links : Type) where
  labels : List String
  page : ℕ
  total_pages : ℕ
  links : Links
deriving DecidableEq, Repr

/-- `paginate` -/
def paginate {Links : Type} (language : Language) (page total_pages : ℕ) (links : Links) :
    Option (Pagination Links) :=
  if 1 < total_pages then
    some ⟨[language.t .pagination_first, language.t .pagination_previous,
      language.t .pagination_next, language.t .pagination_last], page, total_pages, links⟩
  else none

/-- What `sort_link` reads: the URL's category, the conditions of `params[:q]`, and the
sort of `@search`. -/
structure SortLinks where
  category : Option String
  title_cont : Option String
  sort : Option SortBy
deriving DecidableEq, Repr

structure PicturesHtml where
  title : String
  sort_links : SortLinks
  /-- The links repeat all parameters of the request. -/
  pagination : Option (Pagination (Option String × Option SearchParams × Option SearchParams))
  pictures : List (Id × String × String)
deriving DecidableEq, Repr

/-- A row of the comment table. -/
structure CommentHtml where
  posted : String
  time_ago : String
  ago : String
  sender : String
  email : String
  body : String
deriving DecidableEq, Repr

structure PictureHtml where
  last_comments_title : String
  last_comments : List LastComment
  /-- The heading and the users, if there are any. -/
  online_users : Option (String × List (Id × String))
  id : Id
  filename : String
  likes : ℕ
  title_label : String
  title : String
  authenticity_token : String
  comments : List CommentHtml
  pagination : Option (Pagination Id)
deriving DecidableEq, Repr

/-- The text in the search form; ransack builds no condition from a blank one. -/
def ListingRequest.title_cont (r : ListingRequest) : Option String :=
  (r.search.bind (·.title_cont)).filter fun t => !blank? t

def ListingRequest.sort_links (r : ListingRequest) : SortLinks :=
  ⟨r.category, r.q.bind (·.title_cont), r.search.bind (·.s)⟩

/-- `@categories`, as the menu shows them. -/
def menu_categories (db : Database) : List (Id × String) :=
  (site.arrange_categories db.categories.rows).map fun c => (c.id, c.val.name)

/-- The body of `cache "menu"`. -/
def render_menu (db : Database) (v : Visit) (r : ListingRequest) : MenuHtml where
  authenticity_token := v.token
  title_cont := r.title_cont
  categories := menu_categories site db

/-- The body of `cache @pictures`. -/
def render_pictures (db : Database) (v : Visit) (r : ListingRequest) : PicturesHtml where
  title := v.language.t .application_title
  sort_links := r.sort_links
  pagination := paginate v.language r.page (r.total_pages site db) (r.category, r.q, r.id)
  pictures := (r.pictures site db).map fun p => (p.id, p.val.filename, p.val.title)

/-- Somebody else has sent a request within the last five minutes. -/
def Visit.online (v : Visit) (u r : Row User) : Bool :=
  r.id ≠ u.id && r.val.last_request_at.any fun t => v.now < t + 300

/-- `@users` -/
def online_users (db : Database) (v : Visit) : List (Id × String) :=
  match current_user db v.session with
  | none => []
  | some u =>
    site.arrange_users ((db.users.rows.filter (v.online u)).map fun r => (r.id, r.val.email))

/-- A row of the partial `comments/_comment`. -/
def CommentHtml.render (db : Database) (v : Visit) (c : Row Comment) :
    Except Failure CommentHtml :=
  match (db.users.find? c.val.user_id).map (·.val.email) with
  | some email => .ok
    { posted := v.language.t .comments_posted
      time_ago := site.time_ago_in_words v.language c.val.created_at v.now
      ago := v.language.t .comments_ago
      sender := v.language.t .comments_sender
      email := email
      body := c.val.body }
  | none => .error .NoMethodError

/-- `@comments` -/
def page_comments (db : Database) (id : Id) (k : ℕ) : List (Row Comment) :=
  Store.page Comment.perPage k (site.arrange_comments (Comment.ofPicture db.comments id))

/-- `@picture.likes.length` -/
def likes_length (db : Database) (id : Id) : ℕ :=
  db.likes.rows.countP fun l => l.val.picture_id = id

/-- The body of `cache @picture`. -/
def render_picture (db : Database) (v : Visit) (p : Row Picture) (k : ℕ) :
    Except Failure PictureHtml := do
  let last_comments ← render_last_comments db
  let comments ← (page_comments site db p.id k).mapM (CommentHtml.render site db v)
  let users := online_users site db v
  return {
    last_comments_title := v.language.t .application_last_comments
    last_comments := last_comments
    online_users := if users.isEmpty then none else some (v.language.t .views_users_online, users)
    id := p.id
    filename := p.val.filename
    likes := likes_length db p.id
    title_label := v.language.t .comments_title
    title := p.val.title
    authenticity_token := v.token
    comments := comments
    pagination := paginate v.language k
      (pageCount Comment.perPage (Comment.ofPicture db.comments p.id).length) p.id }

/-! ### Admin edits -/

/-- The record with the attributes of the form assigned and saved; one that has not
changed is not saved. A chosen file counts as a change. -/
def Picture.edit (p : Picture) (params : PictureParams) (now : Time) : Picture :=
  -- the mounted uploader marks the column as changed whenever a file is assigned
  if params.title.all (· = p.title) && params.filename.isNone then p
  else ⟨params.title.getD p.title, params.filename.getD p.filename, p.created_at, now⟩

/-- `categories=` of a stored picture: the rows of the join table that have to go, and
those that have to come. -/
def Database.replaceCategories (db : Database) (id : Id) (category_ids : List Id) : Database :=
  let stays := db.picture_categories.rows.filter fun pc => pc.val.picture_id = id
  let t := db.picture_categories.delete fun pc =>
    pc.val.picture_id = id && pc.val.category_id ∉ category_ids &&
      db.categories.Has pc.val.category_id
  { db with
    picture_categories :=
      (category_ids.filter fun c => !stays.any fun pc => pc.val.category_id = c).foldl
        (fun t c => t.insert ⟨id, c⟩) t }

/-- The admin `update` action of a picture. -/
def Admin.update_picture (id : Id) (params : PictureParams) (now : Time) : App Response := do
  let db ← database
  match db.pictures.find? id with
  | none => raise .RecordNotFound
  | some picture =>
    let _ ← findAll db.categories params.category_ids
    let edited := picture.val.edit params now
    if Picture.valid (some edited.title) (some edited.filename) then
      if fitsString edited.filename then
        write fun db =>
          { db.replaceCategories id params.category_ids with
            pictures := db.pictures.update fun p => if p.id = id then edited else p.val }
        return .redirect
      else raise .StatementInvalid
    else return .page

/-- The admin `update` action of a category. -/
def Admin.update_category (id : Id) (name : Option String) : App Response := do
  match (← database).categories.find? id with
  | none => raise .RecordNotFound
  | some category =>
    let name := name.getD category.val.name
    if blank? name then return .page
    else if fitsString name then
      write fun db =>
        { db with
          categories := db.categories.update fun c => if c.id = id then ⟨name⟩ else c.val }
      return .redirect
    else raise .StatementInvalid

inductive Edit
  | picture (id : Id) (params : PictureParams)
  | category (id : Id) (name : Option String)
deriving DecidableEq, Repr

/-- The admin `update` action. -/
def Edit.run (now : Time) : Edit → App Response
  | .picture id params => Admin.update_picture id params now
  | .category id name => Admin.update_category id name

/-- A request that edits. -/
structure EditRequest where
  session : Option Id
  url : String
  now : Time
  edit : Edit
deriving DecidableEq, Repr

/-- The edit as the filters see it. -/
def EditRequest.request (r : EditRequest) : Request := ⟨r.session, r.url, r.now, .devise_view⟩

/-- The filters in front of ActiveAdmin's pages, then the edit. -/
def EditRequest.run (r : EditRequest) : App Response := do
  let _ ← r.request.run
  r.edit.run r.now

/-! ### The cache -/

/-- The keys of the fragments: a constant, and lists of pictures' own keys, their ids and
`updated_at`. -/
inductive FragmentKey
  | menu
  | pictures (keys : List (Id × Time))
deriving DecidableEq, Repr

inductive Html
  | menu (html : MenuHtml)
  | pictures (html : PicturesHtml)
  | picture (html : PictureHtml)
deriving DecidableEq, Repr

/-- `cache_key` -/
def Picture.cache_key (p : Row Picture) : Id × Time := (p.id, p.val.updated_at)

/-- The fragments of a page, in the order in which the template comes to them. A listing
starts with the box of last comments, which may fail; a picture that is not there
redirects. -/
def Visit.fragments (v : Visit) (db : Database) : List (FragmentKey × Except Failure Html) :=
  match v.view with
  | .listing r =>
    -- `_last_comments` stands in front of the fragments
    match render_last_comments db with
    | .ok _ =>
      [(.menu, .ok (.menu (render_menu site db v r))),
        (.pictures ((r.pictures site db).map Picture.cache_key),
          .ok (.pictures (render_pictures site db v r)))]
    | .error _ => []
  | .show id k =>
    match db.pictures.find? id with
    | some p =>
      [(.pictures [Picture.cache_key p], (render_picture site db v p k).map .picture)]
    | none => []

/-- A stored fragment, with the visit that filled it and the database it saw. -/
structure Stored where
  html : Html
  visit : Visit
  db : Database

/-- What is found under a key. -/
abbrev FragmentStore := FragmentKey → Option Stored

/-- The world, the cache, and what has been served: the HTML, and what rendering it afresh
would have given. -/
structure CacheState where
  world : World
  cache : FragmentStore
  served : List (Html × Except Failure Html)

/-- `cache key do .. end`: a stored fragment is served as it is; another one is rendered,
stored and served. -/
def CacheState.serve (v : Visit) (s : CacheState)
    (fragment : FragmentKey × Except Failure Html) : CacheState :=
  match s.cache fragment.1, fragment.2 with
  | some stored, fresh => { s with served := s.served ++ [(stored.html, fresh)] }
  | none, .ok html =>
    { s with
      cache := Function.update s.cache fragment.1 (some ⟨html, v, s.world.db⟩)
      served := s.served ++ [(html, .ok html)] }
  | none, .error _ => s

/-- The requests that write, apart from edits. -/
def Route.writes : Route → Bool
  | .pictures_like .. | .categories_subscribe _ | .comments_create .. => true
  | .admin_pictures_create .. | .admin_parser_create_picture .. => true
  | .admin_pictures_destroy _ | .admin_categories_create _ | .admin_categories_destroy _ => true
  | _ => false

inductive CacheStep
  /-- A page; nothing is served if the filters in front of the action fail. -/
  | visit (v : Visit)
  /-- A like, a comment, a subscription, an admin creation or deletion. -/
  | request (r : Request)
  | edit (r : EditRequest)

/-- Visits and writes over one cache, from an empty one. -/
def fragmentCache : System CacheState CacheStep where
  init s := (∀ key, s.cache key = none) ∧ s.served = []
  step s
    | .visit v =>
      match Action.exec v.request.run s.world with
      | (.ok _, w) =>
        some ((v.fragments site w.db).foldl (CacheState.serve v) { s with world := w })
      | (.error _, w) => some { s with world := w }
    | .request r =>
      if r.route.writes then some { s with world := (Action.exec r.run s.world).2 } else none
    | .edit r => some { s with world := (Action.exec r.run s.world).2 }

end Gallery
