import Gallery.Controllers.Server
import Gallery.Store.Share

/-!
# The gallery of one user

What the gallery is to one user: the catalogue the administrators have put up, and what the
user holds in it. Both are machines of their own. The catalogue moves when an administrator
does something; the holdings move when the user does, and when an administrator removes the
user or a picture. No other request of anybody appears in them.

The model keeps neither keys of the user's rows nor the time a picture was last touched,
which a comment of anybody changes.

## Main definitions

* `Catalogue`, `Catalogue.step` — the pictures and categories
* `Holdings`, `Holdings.step` — whether the user is a member, and the user's likes,
  subscriptions, comments and messages
* `Database.catalogue`, `Database.holdings` — the two parts of a database
-/

namespace Gallery

open Store Rails

/-- The routes of the admin pages. -/
def Route.admin : Route → Bool
  | .admin_users_destroy _ => true
  | .admin_pictures_destroy _ => true
  | .admin_categories_destroy _ => true
  | .admin_pictures_create .. => true
  | .admin_parser_create_picture .. => true
  | .admin_categories_create _ => true
  | _ => false

/-- The routes that write what belongs to the user of the session. -/
def Route.personal : Route → Bool
  | .pictures_like _ none => true
  | .categories_subscribe _ => true
  | .comments_create .. => true
  | .messages_create .. => true
  | .registrations_destroy => true
  | _ => false

/-! ### The catalogue -/

/-- A picture as it was put up. -/
structure Exhibit where
  title : String
  filename : String
  created_at : Time
deriving DecidableEq, Repr

structure Catalogue where
  pictures : Table Exhibit
  categories : Table Category
  picture_categories : Table PictureCategory

namespace Catalogue

variable (c : Catalogue)

/-- A picture that is not valid, or does not fit, is not put up. -/
def create_picture (title filename : Option String) (category_ids : List Id) (now : Time) :
    Catalogue :=
  match title, filename with
  | some t, some f =>
    if Picture.valid (some t) (some f) && fitsString f then
      { c with
        pictures := c.pictures.insert ⟨t, f, now⟩
        picture_categories :=
          category_ids.foldl (fun t i => t.insert ⟨c.pictures.next, i⟩) c.picture_categories }
    else c
  | _, _ => c

def create_category (name : Option String) : Catalogue :=
  match name with
  | some n =>
    if !blank? n && fitsString n then { c with categories := c.categories.insert ⟨n⟩ } else c
  | none => c

/-- What a request does to the catalogue. -/
def step (r : Request) : Catalogue :=
  match r.route with
  | .admin_pictures_create p _ =>
    if p.category_ids.all fun i => c.categories.Has i then
      c.create_picture p.title p.filename p.category_ids r.now
    else c
  | .admin_parser_create_picture file_addr filename categories =>
    c.create_picture (some file_addr) filename
      ((c.categories.rows.filter fun k => k.val.name ∈ categories).map (·.id)) r.now
  | .admin_categories_create name => c.create_category name
  | .admin_pictures_destroy i =>
    if c.pictures.Has i then { c with pictures := c.pictures.delete fun p => p.id = i } else c
  | .admin_categories_destroy i =>
    if c.categories.Has i then { c with categories := c.categories.delete fun k => k.id = i }
    else c
  | _ => c

end Catalogue

/-! ### The holdings of a user -/

@[ext]
structure Holdings where
  member : Bool
  likes : List Like
  user_categories : List UserCategory
  comments : List Comment
  messages : List Message
deriving DecidableEq, Repr

namespace Holdings

variable (h : Holdings) (u : Id)

/-- The account goes, with likes and comments; subscriptions and messages stay. -/
def leave : Holdings :=
  if h.member then { h with member := false, likes := [], comments := [] } else h

/-- A picture goes, with its likes and comments. -/
def lose (p : Id) : Holdings :=
  { h with
    likes := h.likes.filter fun l => l.picture_id ≠ p
    comments := h.comments.filter fun c => c.picture_id ≠ p }

def like (pic_id : Option String) : Holdings :=
  if h.likes.any fun l => whereInteger pic_id = some l.picture_id then
    match pic_id.bind parseInteger with
    | some p => { h with likes := h.likes.filter fun l => l.picture_id ≠ p }
    | none => h
  else
    match assignInteger pic_id with
    | some p => if fitsInteger p then { h with likes := h.likes ++ [⟨u, p⟩] } else h
    | none => h

def subscribe (cat_id : Option String) : Holdings :=
  if h.user_categories.any fun s => whereInteger cat_id = some s.category_id then
    { h with
      user_categories := h.user_categories.filter fun s =>
        whereInteger cat_id ≠ some s.category_id }
  else
    match assignInteger cat_id with
    | some c =>
      if fitsInteger c then { h with user_categories := h.user_categories ++ [⟨u, c⟩] } else h
    | none => h

def comment (c : Catalogue) (picture_id : String) (body : Option String) (now : Time) :
    Holdings :=
  match body with
  | some b =>
    if c.pictures.Has (to_i picture_id) && Comment.validBody (some b) then
      { h with comments := h.comments ++ [⟨u, to_i picture_id, b, now⟩] }
    else h
  | none => h

def message (receiver_id text : Option String) : Holdings :=
  match assignInteger receiver_id, text with
  | some i, some t =>
    if Message.valid (some u) (some i) (some t) && fitsInteger i && fitsString t then
      { h with messages := h.messages ++ [⟨u, i, t⟩] }
    else h
  | _, _ => h

/-- What the user does. -/
def act (c : Catalogue) (route : Route) (now : Time) : Holdings :=
  match route with
  | .pictures_like pic_id none => h.like u pic_id
  | .categories_subscribe cat_id => h.subscribe u cat_id
  | .comments_create picture_id body => h.comment u c picture_id body now
  | .messages_create receiver_id text _ => h.message u receiver_id text
  | .registrations_destroy => h.leave
  | _ => h

/-- What a request does to the holdings, given the catalogue it meets. -/
def step (c : Catalogue) (r : Request) : Holdings :=
  match r.route with
  | .admin_users_destroy i => if i = u then h.leave else h
  | .admin_pictures_destroy p => if c.pictures.Has p then h.lose p else h
  | route =>
    if r.session = some u && h.member && (!route.tracked || fitsString r.url) then
      h.act u c route r.now
    else h

end Holdings

/-- Catalogue and holdings together. -/
structure Personal where
  catalogue : Catalogue
  holdings : Holdings

def Personal.step (u : Id) (p : Personal) (r : Request) : Personal :=
  ⟨p.catalogue.step r, p.holdings.step u p.catalogue r⟩

/-! ### The two parts of a database -/

namespace Database

def catalogue (db : Database) : Catalogue where
  pictures := db.pictures.update fun p => ⟨p.val.title, p.val.filename, p.val.created_at⟩
  categories := db.categories
  picture_categories := db.picture_categories

def holdings (db : Database) (u : Id) : Holdings where
  member := db.users.Has u
  likes := db.likes.values fun l => l.user_id = u
  user_categories := db.user_categories.values fun s => s.user_id = u
  comments := db.comments.values fun c => c.user_id = u
  messages := db.messages.values fun m => m.sender_id = u

def personal (db : Database) (u : Id) : Personal := ⟨db.catalogue, db.holdings u⟩

end Database

/-- The requests that can show in the gallery of a user: the user's own and the
administrators'. -/
def Concerns (u : Id) (r : Request) : Bool := r.route.admin || r.session = some u

/-- The tracking filter cannot stop a request of an administrator: nobody is signed in as a
user beside, or the URL can be stored. -/
def Request.Unhindered (r : Request) : Prop :=
  r.route.admin = true → r.session = none ∨ fitsString r.url = true

instance (r : Request) : Decidable r.Unhindered :=
  inferInstanceAs (Decidable (r.route.admin = true → _ ∨ _))

end Gallery
