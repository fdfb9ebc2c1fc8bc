import Gallery.Pages.Fragments
import Gallery.Store.Versioned
import Mathlib.Data.List.Infix
import Mathlib.Data.String.Basic

/-!
# When a cached fragment is as good as a fresh one

The keys leave out most of what the fragments read: the language, the session's token,
the search, the page number, the likes, the last comments, who is online, and which
template filled the entry. A visit is served what it would be rendered afresh as long as
it agrees on these with the visit that filled the cache. What the keys do mention, the
picture's own columns and its comments, stays right as long as nothing is written to a
picture in a second in which it has been cached already.

## Main definitions

* `Visit.SeesAs` — two visits agree on what a fragment reads beyond its key
* `CacheStep.Transparent` — the steps, in a given state, that serve nothing stale
* `Current` — the invariant: the cache holds renderings whose pictures are not outdated

## Main results

* `Current.fresh` — a fragment found in the cache is the one rendered afresh
* `advances_request`, `advances_edit` — what the writes do to the cached pictures
* `fragments_transparent` — runs of such steps serve fresh fragments
-/

namespace Gallery

open Store Rails App Semantics

variable {site : Site} {cache : FragmentStore} {db db' : Database} {v : Visit}

/-! ### What a visit has to share with the one before it -/

/-- What the menu reads: the session, the search parameters and the categories. -/
structure MenuAlike (v v₀ : Visit) (r r₀ : ListingRequest) (db db₀ : Database) : Prop where
  token : v.token = v₀.token
  /-- The requests search for the same text, if not for a blank one. -/
  text : ∀ t, blank? t = false →
    (r.search.bind (·.title_cont) = some t ↔ r₀.search.bind (·.title_cont) = some t)
  categories : db.categories.rows = db₀.categories.rows

/-- What a listing reads beyond its pictures: the session, the parameters, and how many
pictures there are on all pages. -/
structure ListingAlike (site : Site) (v v₀ : Visit) (r r₀ : ListingRequest) (db db₀ : Database) :
    Prop where
  language : v.language = v₀.language
  category : r.category = r₀.category
  text : r.q.bind (·.title_cont) = r₀.q.bind (·.title_cont)
  sort : r.search.bind (·.s) = r₀.search.bind (·.s)
  /-- There is one page only, or the requests are the same and so is the number of pages. -/
  pages : (r.listing site db).rows.length ≤ Picture.perPage ∧
      (r₀.listing site db₀).rows.length ≤ Picture.perPage ∨
    r = r₀ ∧ r.total_pages site db = r₀.total_pages site db₀

/-- The user is somebody else the visitor meets online. -/
def Visit.meets (v : Visit) (db : Database) (i : Id) : Bool :=
  (current_user db v.session).any fun u => db.users.rows.any fun r => r.id = i && v.online u r

/-- What the page of a picture reads beyond the picture and its comments: the session, the
clock, the likes, the users and the last comments. -/
structure PageAlike (site : Site) (v v₀ : Visit) (id : Id) (k k₀ : ℕ) (db db₀ : Database) :
    Prop where
  language : v.language = v₀.language
  token : v.token = v₀.token
  /-- The same page of the comments is asked for; or there is one page only, and both visits
  ask for it or both for one behind it. -/
  page : k = k₀ ∨ (Comment.ofPicture db.comments id).length ≤ Comment.perPage ∧
    (Comment.ofPicture db.comments id = [] ∨ (k = 0 ↔ k₀ = 0))
  /-- Rails puts the ages of the comments into the same words. -/
  clock : ∀ c ∈ page_comments site db id k,
    site.time_ago_in_words v.language c.val.created_at v.now =
      site.time_ago_in_words v.language c.val.created_at v₀.now
  likes : db.likes.rows.countP (fun l => l.val.picture_id = id) =
    db₀.likes.rows.countP fun l => l.val.picture_id = id
  online : ∀ i, v.meets db i = v₀.meets db₀ i
  last_comments : (Comment.last_comments db.comments).map
      (fun c => (c.val.picture_id, c.val.body)) =
    (Comment.last_comments db₀.comments).map fun c => (c.val.picture_id, c.val.body)
  last_pictures : ∀ c ∈ Comment.last_comments db.comments, db.pictures.Has c.val.picture_id

/-- A visit, over the database it finds, agrees with the visit that stored a fragment on
what the body reads beyond the key. -/
def Visit.SeesAs (site : Site) (v : Visit) (db : Database) (key : FragmentKey) (stored : Stored) :
    Prop :=
  match key, v.view, stored.visit.view with
  | .menu, .listing r, .listing r₀ => MenuAlike v stored.visit r r₀ db stored.db
  | .pictures _, .listing r, .listing r₀ => ListingAlike site v stored.visit r r₀ db stored.db
  | .pictures _, .show id k, .show _ k₀ => PageAlike site v stored.visit id k k₀ db stored.db
  | _, _, _ => False

/-! ### The steps that serve nothing stale -/

/-- No fragment mentions the picture under this time. -/
def FragmentStore.Unmentioned (cache : FragmentStore) (i : Id) (t : Time) : Prop :=
  ∀ keys stored, cache (.pictures keys) = some stored → (i, t) ∉ keys

/-- A comment on a picture at this time outdates nothing: the picture's page has not been
cached under it, and neither has a listing, unless it is the time the picture has. -/
structure FragmentStore.MayComment (cache : FragmentStore) (p : Row Picture) (now : Time) :
    Prop where
  page : ∀ stored k, cache (.pictures [(p.id, now)]) = some stored →
    stored.visit.view ≠ .show p.id k
  listings : p.val.updated_at = now ∨ cache.Unmentioned p.id now

/-- A request outdates nothing: a comment it stores comes in time. -/
def Request.InTime (r : Request) (cache : FragmentStore) (db : Database) : Prop :=
  match r.route with
  | .comments_create picture_id body =>
    r.trackable db → (r.user db).isSome → Comment.validBody body →
      ∀ p, db.pictures.find? (to_i picture_id) = some p → cache.MayComment p r.now
  | _ => True

/-- An edit outdates nothing: if it changes a picture, then under a time that no fragment
mentions the picture with. -/
def EditRequest.InTime (r : EditRequest) (cache : FragmentStore) (db : Database) : Prop :=
  match r.edit with
  | .picture id params =>
    r.request.trackable db → (∀ c ∈ params.category_ids, db.categories.Has c) →
      ∀ p, db.pictures.find? id = some p →
        Picture.valid (some (p.val.edit params r.now).title)
            (some (p.val.edit params r.now).filename) →
          fitsString (p.val.edit params r.now).filename →
            p.val.edit params r.now = p.val ∨ cache.Unmentioned id r.now
  | .category .. => True

/-- The steps that serve nothing stale, and outdate nothing. -/
def CacheStep.Transparent (site : Site) (s : CacheState) : CacheStep → Prop
  | .visit v =>
    v.request.trackable s.world.db →
      let db := v.request.enter s.world.db
      ∀ fragment ∈ v.fragments site db, ∀ stored, s.cache fragment.1 = some stored →
        v.SeesAs site db fragment.1 stored
  | .request r => r.InTime s.cache s.world.db
  | .edit r => r.InTime s.cache s.world.db

/-! ### What the cache records of pictures -/

/-- What a listing shows of a picture, under the time of its last change. -/
def Database.labels (db : Database) (i : Id) : Option (Time × String × String) :=
  (db.pictures.find? i).map fun p => (p.val.updated_at, p.val.filename, p.val.title)

/-- The comments of a picture, under the time of its last change. -/
def Database.thread (db : Database) (i : Id) : Option (Time × List (Row Comment)) :=
  (db.pictures.find? i).map fun p => (p.val.updated_at, Comment.ofPicture db.comments i)

/-- Who has an account, with the e-mails. -/
def Database.accounts (db : Database) : List (Id × String) :=
  db.users.rows.map fun r => (r.id, r.val.email)

/-- The labels some fragment was made of. -/
def FragmentStore.Labels (cache : FragmentStore) (i : Id) (t : Time) (c : String × String) : Prop :=
  ∃ keys stored, cache (.pictures keys) = some stored ∧ (i, t) ∈ keys ∧
    stored.db.labels i = some (t, c)

/-- The comments the cached page of a picture was made of. -/
def FragmentStore.Threads (cache : FragmentStore) (i : Id) (t : Time) (c : List (Row Comment)) :
    Prop :=
  ∃ stored k, cache (.pictures [(i, t)]) = some stored ∧ stored.visit.view = .show i k ∧
    stored.db.thread i = some (t, c)

/-- What the cache holds was rendered by the visit that stored it, and as far as the keys
go it is not outdated. -/
structure Current (site : Site) (cache : FragmentStore) (db : Database) : Prop where
  rendered : ∀ key stored, cache key = some stored →
    (key, .ok stored.html) ∈ stored.visit.fragments site stored.db
  next : ∀ key stored, cache key = some stored → stored.db.pictures.next ≤ db.pictures.next
  accounts : ∀ key stored, cache key = some stored → stored.db.accounts = db.accounts
  labels : Faithful cache.Labels db.labels
  threads : Faithful cache.Threads db.thread

theorem labels_of_find? {i : Id} {p : Row Picture} (h : db.pictures.find? i = some p) :
    db.labels i = some (p.val.updated_at, p.val.filename, p.val.title) := by
  rw [Database.labels, h]
  rfl

theorem thread_of_find? {i : Id} {p : Row Picture} (h : db.pictures.find? i = some p) :
    db.thread i = some (p.val.updated_at, Comment.ofPicture db.comments i) := by
  rw [Database.thread, h]
  rfl

/-! ### Serving from the cache -/

/-- The fragments of a listing. -/
theorem mem_fragments_listing {r : ListingRequest} {key : FragmentKey} {x : Except Failure Html}
    (hview : v.view = .listing r) (h : (key, x) ∈ v.fragments site db) :
    key = .menu ∧ x = .ok (.menu (render_menu site db v r)) ∨
      key = .pictures ((r.pictures site db).map Picture.cache_key) ∧
        x = .ok (.pictures (render_pictures site db v r)) := by
  simp only [Visit.fragments, hview] at h
  split at h
  · simpa using h
  · simp at h

/-- The fragment of a picture's page. -/
theorem mem_fragments_show {i : Id} {k : ℕ} {key : FragmentKey} {x : Except Failure Html}
    (hview : v.view = .show i k) (h : (key, x) ∈ v.fragments site db) :
    ∃ p, db.pictures.find? i = some p ∧ key = .pictures [Picture.cache_key p] ∧
      x = (render_picture site db v p k).map .picture := by
  simp only [Visit.fragments, hview] at h
  split at h
  · next p hp => exact ⟨p, hp, by simpa using h⟩
  · simp at h

theorem mem_of_mem_search {l : Listing} {q : Option Search} {p : Row Picture}
    (h : p ∈ (l.search site.collation q).rows) : p ∈ l.rows := by
  cases q with
  | none => exact h
  | some q =>
    obtain ⟨p', hp', hmem⟩ := List.mem_flatMap.mp h
    rwa [(List.mem_replicate.mp hmem).2]

theorem mem_of_mem_category {category : Option (Row Category)} {p : Row Picture}
    (h : p ∈ (Category.pictures db category).rows) : p ∈ db.pictures.rows := by
  obtain ⟨pc, -, hp⟩ := List.mem_filterMap.mp h
  exact (Table.find?_eq_some_iff.mp (Option.ite_none_right_eq_some.mp hp).2).1

/-- A listing shows pictures that are there. -/
theorem mem_pictures {r : ListingRequest} {p : Row Picture} (h : p ∈ r.pictures site db) :
    p ∈ db.pictures.rows := by
  have hlisted : p ∈ (r.listing site db).rows :=
    (site.pictures_answer _).1.mem_iff.mp (List.mem_of_mem_drop (List.mem_of_mem_take h))
  unfold ListingRequest.listing at hlisted
  split at hlisted
  · exact mem_of_mem_search (l := (Picture.scoped db).order_by _) hlisted
  · exact mem_of_mem_category (mem_of_mem_search hlisted)

theorem menu_fresh {v₀ : Visit} {r r₀ : ListingRequest} {db₀ : Database}
    (h : MenuAlike v v₀ r r₀ db db₀) :
    render_menu site db v r = render_menu site db₀ v₀ r₀ := by
  have htext : r.title_cont = r₀.title_cont := by
    refine Option.ext fun t => ?_
    simp only [ListingRequest.title_cont, Option.filter_eq_some_iff, Bool.not_eq_true']
    exact and_congr_left fun hblank => h.text t hblank
  simp only [render_menu, menu_categories, h.token, htext, h.categories]

/-- Without other pages there are no links to them. -/
theorem paginate_single {Links : Type} {language : Language} {k total : ℕ} {links : Links}
    (h : total ≤ 1) : paginate language k total links = none := by
  rw [paginate, if_neg (by omega)]

theorem pageCount_le_one {size n : ℕ} (h : n ≤ size) : pageCount size n ≤ 1 := by
  rcases Nat.eq_zero_or_pos size with rfl | hsize
  · simp [pageCount]
  · have hlt : (n + size - 1) / size < 2 := (Nat.div_lt_iff_lt_mul hsize).mpr (by omega)
    rw [pageCount]
    omega

/-- All rows are on the first page. -/
theorem page_single {α : Type} {size k : ℕ} {answer : List α} (h : answer.length ≤ size) :
    Store.page size k answer = if k = 0 then answer else [] := by
  unfold Store.page
  split
  · next hk =>
    subst hk
    rw [Nat.mul_zero, List.drop_zero, List.take_of_length_le h]
  · next hk =>
    have hbehind : answer.length ≤ size * k := h.trans (Nat.le_mul_of_pos_right size (by omega))
    rw [List.drop_of_length_le hbehind, List.take_nil]

theorem listing_fresh {v₀ : Visit} {r r₀ : ListingRequest} {db₀ : Database}
    (h : ListingAlike site v v₀ r r₀ db db₀)
    (hkeys : (r.pictures site db).map Picture.cache_key =
      (r₀.pictures site db₀).map Picture.cache_key)
    (hlabels : ∀ p ∈ r.pictures site db, db₀.labels p.id = db.labels p.id) :
    render_pictures site db v r = render_pictures site db₀ v₀ r₀ := by
  have hpagination :
      paginate v.language r.page (r.total_pages site db) (r.category, r.q, r.id) =
        paginate v₀.language r₀.page (r₀.total_pages site db₀) (r₀.category, r₀.q, r₀.id) := by
    rcases h.pages with ⟨hfew, hfew₀⟩ | ⟨rfl, htotal⟩
    · rw [ListingRequest.total_pages, ListingRequest.total_pages,
        paginate_single (pageCount_le_one hfew), paginate_single (pageCount_le_one hfew₀)]
    · rw [h.language, htotal]
  -- entries with the same key have the same labels, so the rows look the same
  have hpictures : (r.pictures site db).map (fun p => (p.id, p.val.filename, p.val.title)) =
      (r₀.pictures site db₀).map fun p => (p.id, p.val.filename, p.val.title) := by
    refine map_eq_of_keys hkeys fun p hp p₀ hp₀ hkey => ?_
    have hid : p.id = p₀.id := congrArg Prod.fst hkey
    have hold := labels_of_find? (Table.find?_eq_some_iff.mpr ⟨mem_pictures hp₀, rfl⟩)
    have hnew := labels_of_find? (Table.find?_eq_some_iff.mpr ⟨mem_pictures hp, rfl⟩)
    rw [← hlabels p hp, hid, hold] at hnew
    simp only [Option.some.injEq, Prod.mk.injEq] at hnew ⊢
    exact ⟨hid, hnew.2.1.symm, hnew.2.2.symm⟩
  rw [render_pictures, render_pictures, hpagination, hpictures, ListingRequest.sort_links,
    ListingRequest.sort_links, h.category, h.text, h.sort, h.language]

/-- The box of last comments, as far as the pictures are there. -/
theorem LastComment.render_of_has {c : Row Comment} (h : db.pictures.Has c.val.picture_id) :
    LastComment.render db c = .ok ⟨truncate c.val.body 30, c.val.picture_id⟩ := by
  obtain ⟨p, hp⟩ := Table.has_iff_exists_find?.mp h
  simp only [LastComment.render, hp, (Table.find?_eq_some_iff.mp hp).2]

theorem render_last_comments_of_has
    (h : ∀ c ∈ Comment.last_comments db.comments, db.pictures.Has c.val.picture_id) :
    render_last_comments db = .ok (((Comment.last_comments db.comments).map
      fun c => (c.val.picture_id, c.val.body)).map fun x => ⟨truncate x.2 30, x.1⟩) := by
  rw [List.map_map]
  exact mapM_eq_ok fun c hc => LastComment.render_of_has (h c hc)

/-- A box that could be rendered has all its pictures. -/
theorem has_of_render_last_comments {box : List LastComment} (h : render_last_comments db = .ok box)
    {c : Row Comment} (hc : c ∈ Comment.last_comments db.comments) :
    db.pictures.Has c.val.picture_id := by
  obtain ⟨b, hb⟩ := ok_of_mapM h c hc
  unfold LastComment.render at hb
  split at hb
  · next p hp => exact Table.has_of_find?_eq_some hp
  · contradiction

/-- The e-mails are those of the accounts. -/
theorem email_of_accounts (db : Database) (i : Id) :
    (db.users.find? i).map (·.val.email) =
      (db.accounts.find? fun x => x.1 = i).map Prod.snd := by
  rw [Database.accounts, List.find?_map, Option.map_map]
  rfl

theorem render_comment_alike {v₀ : Visit} {db₀ : Database} {c : Row Comment}
    (hlanguage : v.language = v₀.language) (haccounts : db₀.accounts = db.accounts)
    (hage : site.time_ago_in_words v.language c.val.created_at v.now =
      site.time_ago_in_words v.language c.val.created_at v₀.now) :
    CommentHtml.render site db v c = CommentHtml.render site db₀ v₀ c := by
  rw [CommentHtml.render, CommentHtml.render, email_of_accounts, email_of_accounts, haccounts, hage,
    hlanguage]

/-- The users the visitor meets, among the accounts. -/
theorem online_users_eq (site : Site) (db : Database) (v : Visit) :
    online_users site db v =
      site.arrange_users (db.accounts.filter fun x => v.meets db x.1) := by
  unfold online_users
  cases hu : current_user db v.session with
  | none =>
    have hnone : (db.accounts.filter fun x => v.meets db x.1) = [] :=
      List.filter_eq_nil_iff.mpr fun x _ => by simp [Visit.meets, hu]
    have hperm := (site.users_answer []).1
    rw [hnone, hperm.eq_nil]
  | some u =>
    have hmeets : ∀ r ∈ db.users.rows, v.meets db r.id = v.online u r := by
      intro r hr
      rw [Visit.meets, hu, Option.any_some, Bool.eq_iff_iff, List.any_eq_true]
      constructor
      · rintro ⟨r', hr', hmatch⟩
        obtain ⟨hid, honline⟩ := Bool.and_eq_true_iff.mp hmatch
        rwa [Table.eq_of_id_eq hr' hr (of_decide_eq_true hid)] at honline
      · exact fun honline => ⟨r, hr, by simp [honline]⟩
    dsimp only
    rw [Database.accounts, List.filter_map]
    congr 2
    exact List.filter_congr fun r hr => (hmeets r hr).symm

theorem page_fresh {v₀ : Visit} {p p₀ : Row Picture} {k k₀ : ℕ} {db₀ : Database}
    (h : PageAlike site v v₀ p.id k k₀ db db₀) (hid : p.id = p₀.id)
    (hfilename : p.val.filename = p₀.val.filename) (htitle : p.val.title = p₀.val.title)
    (hcomments : Comment.ofPicture db₀.comments p.id = Comment.ofPicture db.comments p.id)
    (haccounts : db₀.accounts = db.accounts)
    (hbox : ∃ box, render_last_comments db₀ = .ok box) :
    render_picture site db v p k = render_picture site db₀ v₀ p₀ k₀ := by
  -- the box depends on no picture but on those of the last comments
  have hlast : render_last_comments db = render_last_comments db₀ := by
    obtain ⟨box, hbox⟩ := hbox
    rw [render_last_comments_of_has h.last_pictures, h.last_comments]
    exact (render_last_comments_of_has fun c hc => has_of_render_last_comments hbox hc).symm
  have hpage : page_comments site db₀ p.id k₀ = page_comments site db p.id k := by
    have hsame : page_comments site db₀ p.id k₀ = page_comments site db p.id k₀ := by
      simp only [page_comments, hcomments]
    rcases h.page with rfl | ⟨hfew, hpages⟩
    · exact hsame
    · have hperm := (site.comments_answer (Comment.ofPicture db.comments p.id)).1
      rw [hsame, page_comments, page_comments, page_single (hperm.length_eq.trans_le hfew),
        page_single (hperm.length_eq.trans_le hfew)]
      rcases hpages with hnone | hpages
      · rw [hnone] at hperm ⊢
        simp [hperm.eq_nil]
      · simp only [hpages]
  have hrows : (page_comments site db p.id k).mapM (CommentHtml.render site db v) =
      (page_comments site db₀ p.id k₀).mapM (CommentHtml.render site db₀ v₀) := by
    rw [hpage]
    exact mapM_congr fun c hc => render_comment_alike h.language haccounts (h.clock c hc)
  -- the key fixes the number of comments, and with it that of pages
  have hpagination : ∀ i : Id, paginate v.language k
        (pageCount Comment.perPage (Comment.ofPicture db.comments p.id).length) i =
      paginate v₀.language k₀
        (pageCount Comment.perPage (Comment.ofPicture db₀.comments p.id).length) i := by
    intro i
    rw [hcomments, h.language]
    rcases h.page with rfl | ⟨hfew, -⟩
    · rfl
    · rw [paginate_single (pageCount_le_one hfew), paginate_single (pageCount_le_one hfew)]
  have honline : online_users site db v = online_users site db₀ v₀ := by
    rw [online_users_eq, online_users_eq, haccounts]
    simp only [h.online]
  have hlikes : likes_length db p.id = likes_length db₀ p.id := h.likes
  rw [render_picture, render_picture, ← hid, hlast, hrows]
  simp only [hpagination]
  rw [honline, hlikes, h.token, h.language, hfilename, htitle]

namespace Current

variable {stored : Stored}

/-- A picture that still has the time it was cached under has the labels it was cached
with. -/
theorem labels_eq (h : Current site cache db) {keys : List (Id × Time)} {i : Id}
    {p p₀ : Row Picture} (hcache : cache (.pictures keys) = some stored)
    (hp : db.pictures.find? i = some p) (hp₀ : stored.db.pictures.find? i = some p₀)
    (hkey : (i, p₀.val.updated_at) ∈ keys) (htime : p.val.updated_at = p₀.val.updated_at) :
    stored.db.labels i = db.labels i := by
  have hold := labels_of_find? hp₀
  have hnew := labels_of_find? hp
  rw [htime] at hnew
  rw [hold, hnew, h.labels i _ _ _ ⟨keys, stored, hcache, hkey, hold⟩ hnew]

/-- It has the comments it was cached with, too, if its page was cached. -/
theorem comments_eq (h : Current site cache db) {i : Id} {k : ℕ} {p p₀ : Row Picture}
    (hcache : cache (.pictures [(i, p₀.val.updated_at)]) = some stored)
    (hview : stored.visit.view = .show i k)
    (hp : db.pictures.find? i = some p) (hp₀ : stored.db.pictures.find? i = some p₀)
    (htime : p.val.updated_at = p₀.val.updated_at) :
    Comment.ofPicture stored.db.comments i = Comment.ofPicture db.comments i := by
  have hnew := thread_of_find? hp
  rw [htime] at hnew
  exact (h.threads i _ _ _ ⟨stored, k, hcache, hview, thread_of_find? hp₀⟩ hnew).symm

/-- A listing found in the cache. -/
theorem listing_fresh (h : Current site cache db) {r r₀ : ListingRequest}
    (hcache : cache (.pictures ((r.pictures site db).map Picture.cache_key)) = some stored)
    (hkeys : (r.pictures site db).map Picture.cache_key =
      (r₀.pictures site stored.db).map Picture.cache_key)
    (halike : ListingAlike site v stored.visit r r₀ db stored.db) :
    render_pictures site db v r = render_pictures site stored.db stored.visit r₀ := by
  refine Gallery.listing_fresh halike hkeys fun p hp => ?_
  have hmem : Picture.cache_key p ∈ (r.pictures site db).map Picture.cache_key :=
    List.mem_map_of_mem hp
  rw [hkeys] at hmem
  obtain ⟨p₀, hp₀, hkey⟩ := List.mem_map.mp hmem
  have hid : p₀.id = p.id := congrArg Prod.fst hkey
  have htime : p₀.val.updated_at = p.val.updated_at := congrArg Prod.snd hkey
  refine h.labels_eq hcache (Table.find?_eq_some_iff.mpr ⟨mem_pictures hp, rfl⟩)
    (Table.find?_eq_some_iff.mpr ⟨mem_pictures hp₀, hid⟩) ?_ htime.symm
  rw [htime]
  exact List.mem_map_of_mem hp

/-- The page of a picture found in the cache. -/
theorem page_fresh (h : Current site cache db) {i j : Id} {k k₀ : ℕ} {p p₀ : Row Picture}
    {html : Html} (hcache : cache (.pictures [Picture.cache_key p]) = some stored)
    (hview : stored.visit.view = .show j k₀)
    (hp : db.pictures.find? i = some p) (hp₀ : stored.db.pictures.find? j = some p₀)
    (hkey : Picture.cache_key p = Picture.cache_key p₀)
    (hrendered : (render_picture site stored.db stored.visit p₀ k₀).map .picture = .ok html)
    (halike : PageAlike site v stored.visit i k k₀ db stored.db) :
    render_picture site db v p k = render_picture site stored.db stored.visit p₀ k₀ := by
  have hid : p.id = p₀.id := congrArg Prod.fst hkey
  have htime : p.val.updated_at = p₀.val.updated_at := congrArg Prod.snd hkey
  obtain rfl : p.id = i := (Table.find?_eq_some_iff.mp hp).2
  obtain rfl : p.id = j := hid.trans (Table.find?_eq_some_iff.mp hp₀).2
  rw [Picture.cache_key, htime] at hcache
  have hlabels := h.labels_eq hcache hp hp₀ List.mem_cons_self htime
  rw [labels_of_find? hp, labels_of_find? hp₀] at hlabels
  simp only [Option.some.injEq, Prod.mk.injEq] at hlabels
  refine Gallery.page_fresh halike hid hlabels.2.1.symm hlabels.2.2.symm
    (h.comments_eq hcache hview hp hp₀ htime) (h.accounts _ _ hcache) ?_
  -- the box is the first thing the body renders
  cases hbox : render_last_comments stored.db with
  | ok box => exact ⟨box, rfl⟩
  | error e => simp [render_picture, hbox, bind, Except.bind, Except.map] at hrendered

/-- A fragment found in the cache is the one rendered afresh. -/
theorem fresh (h : Current site cache db) {key : FragmentKey} {fresh : Except Failure Html}
    (hcache : cache key = some stored) (hfragment : (key, fresh) ∈ v.fragments site db)
    (hsees : v.SeesAs site db key stored) : fresh = .ok stored.html := by
  have hrendered := h.rendered key stored hcache
  -- a listing's fragment and that of a picture's page never agree
  rcases hview : v.view with r | ⟨i, k⟩ <;> rcases hview₀ : stored.visit.view with r₀ | ⟨j, k₀⟩ <;>
    simp only [Visit.SeesAs, hview, hview₀] at hsees
  · rcases mem_fragments_listing hview hfragment with ⟨rfl, rfl⟩ | ⟨rfl, rfl⟩
    · have hhtml : stored.html = .menu (render_menu site stored.db stored.visit r₀) := by
        simpa using mem_fragments_listing hview₀ hrendered
      rw [hhtml, menu_fresh hsees]
    · obtain ⟨hkeys, hhtml⟩ := (mem_fragments_listing hview₀ hrendered).resolve_left (by simp)
      rw [hhtml, h.listing_fresh hcache (by simpa using hkeys) hsees]
  · obtain ⟨p, hp, rfl, rfl⟩ := mem_fragments_show hview hfragment
    obtain ⟨p₀, hp₀, hkey, hhtml⟩ := mem_fragments_show hview₀ hrendered
    rw [h.page_fresh hcache hview₀ hp hp₀ (by simpa using hkey) hhtml.symm hsees, hhtml]

end Current

/-! ### Storing a fragment -/

theorem stored_update {key key' : FragmentKey} {new stored : Stored}
    (h : Function.update cache key (some new) key' = some stored) :
    new = stored ∨ cache key' = some stored := by
  by_cases hkey : key' = key
  · subst hkey
    exact .inl (by simpa using h)
  · exact .inr (by simpa [hkey] using h)

/-- A fragment just rendered. -/
theorem Current.store (h : Current site cache db) {key : FragmentKey} {html : Html}
    (hfragment : (key, .ok html) ∈ v.fragments site db) :
    Current site (Function.update cache key (some ⟨html, v, db⟩)) db where
  rendered key' stored hstored := by
    by_cases hkey : key' = key
    · subst hkey
      obtain rfl : ⟨html, v, db⟩ = stored := by simpa using hstored
      exact hfragment
    · exact h.rendered key' stored (by simpa [hkey] using hstored)
  next key' stored hstored := by
    rcases stored_update hstored with rfl | hstored
    · exact le_rfl
    · exact h.next key' stored hstored
  accounts key' stored hstored := by
    rcases stored_update hstored with rfl | hstored
    · rfl
    · exact h.accounts key' stored hstored
  -- what the new entry records is what the database holds
  labels := by
    apply h.labels.record
    rintro i t c ⟨keys, stored, hstored, hkey, hlabels⟩
    rcases stored_update hstored with rfl | hstored
    · exact .inr hlabels
    · exact .inl ⟨keys, stored, hstored, hkey, hlabels⟩
  threads := by
    apply h.threads.record
    rintro i t c ⟨stored, k, hstored, hview, hthread⟩
    rcases stored_update hstored with rfl | hstored
    · exact .inr hthread
    · exact .inl ⟨stored, k, hstored, hview, hthread⟩

/-- The cache is right, and whatever has been served was fresh. -/
structure Transparent (site : Site) (s : CacheState) : Prop where
  current : Current site s.cache s.world.db
  served : ∀ served ∈ s.served, served.2 = .ok served.1

theorem serve_world (s : CacheState) (fragment : FragmentKey × Except Failure Html) :
    (CacheState.serve v s fragment).world = s.world := by
  unfold CacheState.serve
  split <;> rfl

theorem serve_cache {s : CacheState} {fragment : FragmentKey × Except Failure Html}
    {key : FragmentKey} (hkey : key ≠ fragment.1) :
    (CacheState.serve v s fragment).cache key = s.cache key := by
  unfold CacheState.serve
  split
  · rfl
  · simp [hkey]
  · rfl

theorem Transparent.serve {s : CacheState} (h : Transparent site s)
    {fragment : FragmentKey × Except Failure Html}
    (hfragment : fragment ∈ v.fragments site s.world.db)
    (hsees : ∀ stored, s.cache fragment.1 = some stored →
      v.SeesAs site s.world.db fragment.1 stored) :
    Transparent site (CacheState.serve v s fragment) := by
  obtain ⟨key, result⟩ := fragment
  unfold CacheState.serve
  split
  -- a hit: the entry is fresh; a miss: it is rendered; a failure serves nothing
  · next stored hcache =>
    refine ⟨h.current, fun served hserved => ?_⟩
    rcases List.mem_append.mp hserved with hserved | hserved
    · exact h.served served hserved
    · rw [List.mem_singleton.mp hserved]
      exact h.current.fresh hcache hfragment (hsees stored hcache)
  · next html _ hresult =>
    obtain rfl : result = .ok html := hresult
    refine ⟨h.current.store hfragment, fun served hserved => ?_⟩
    rcases List.mem_append.mp hserved with hserved | hserved
    · exact h.served served hserved
    · rw [List.mem_singleton.mp hserved]
  · exact h

/-- The fragments of one page have different keys. -/
theorem fragments_nodup : ((v.fragments site db).map Prod.fst).Nodup := by
  unfold Visit.fragments
  split
  · split <;> simp
  · split <;> simp

/-- A page that is put together from several fragments. -/
theorem Transparent.serve_all {fragments : List (FragmentKey × Except Failure Html)}
    {s : CacheState} (h : Transparent site s)
    (hfragments : ∀ fragment ∈ fragments, fragment ∈ v.fragments site s.world.db)
    (hnodup : (fragments.map Prod.fst).Nodup)
    (hsees : ∀ fragment ∈ fragments, ∀ stored, s.cache fragment.1 = some stored →
      v.SeesAs site s.world.db fragment.1 stored) :
    Transparent site (fragments.foldl (CacheState.serve v) s) := by
  induction fragments generalizing s with
  | nil => exact h
  | cons fragment fragments ih =>
    rw [List.map_cons, List.nodup_cons] at hnodup
    have hfirst := h.serve (hfragments fragment List.mem_cons_self)
      (hsees fragment List.mem_cons_self)
    apply ih hfirst
    · intro f hf
      rw [serve_world]
      exact hfragments f (List.mem_cons_of_mem _ hf)
    · exact hnodup.2
    · intro f hf stored hstored
      rw [serve_world]
      -- what is stored for the first fragment is under another key
      have hkey : f.1 ≠ fragment.1 := fun hkey => hnodup.1 (hkey ▸ List.mem_map_of_mem hf)
      rw [serve_cache hkey] at hstored
      exact hsees f (List.mem_cons_of_mem _ hf) stored hstored

/-! ### What writes do to the cached pictures -/

/-- A write that outdates nothing the cache records. -/
structure Advances (cache : FragmentStore) (old new : Database) : Prop where
  next : old.pictures.next ≤ new.pictures.next
  accounts : new.accounts = old.accounts
  labels : Supersedes cache.Labels old.labels new.labels
  threads : Supersedes cache.Threads old.thread new.thread

theorem Current.advance (h : Current site cache db) (hnew : Advances cache db db') :
    Current site cache db' where
  rendered := h.rendered
  next key stored hstored := (h.next key stored hstored).trans hnew.next
  accounts key stored hstored := (h.accounts key stored hstored).trans hnew.accounts.symm
  labels := h.labels.change hnew.labels
  threads := h.threads.change hnew.threads

theorem Advances.trans {db'' : Database} (h : Advances cache db db')
    (h' : Advances cache db' db'') : Advances cache db db'' where
  next := h.next.trans h'.next
  accounts := h'.accounts.trans h.accounts
  labels := h.labels.trans h'.labels
  threads := h.threads.trans h'.threads

/-- Writes to the other tables. -/
theorem Advances.of_eq (hpictures : db'.pictures = db.pictures)
    (hcomments : db'.comments = db.comments) (haccounts : db'.accounts = db.accounts) :
    Advances cache db db' where
  next := by rw [hpictures]
  accounts := haccounts
  labels := .of_eq <| by
    funext i
    rw [Database.labels, Database.labels, hpictures]
  threads := .of_eq <| by
    funext i
    rw [Database.thread, Database.thread, hpictures, hcomments]

theorem accounts_stamp (db : Database) (u : Id) (now : Time) :
    (db.stamp u now).accounts = db.accounts := by
  rw [Database.accounts, Database.accounts, Database.stamp, Table.rows_update, List.map_map]
  refine List.map_congr_left fun r _ => ?_
  dsimp only [Function.comp_apply]
  split <;> rfl

/-- The filters write nothing that the key or the body of a fragment is made of, but for
the time of the request. -/
theorem enter_unseen (r : Request) (db : Database) :
    (r.enter db).pictures = db.pictures ∧ (r.enter db).comments = db.comments ∧
      (r.enter db).categories = db.categories ∧ (r.enter db).accounts = db.accounts := by
  refine Request.enter_rule
    (P := fun d => d.pictures = db.pictures ∧ d.comments = db.comments ∧
      d.categories = db.categories ∧ d.accounts = db.accounts)
    ⟨rfl, rfl, rfl, rfl⟩ (fun _ _ _ _ => ⟨rfl, rfl, rfl, rfl⟩) (fun _ _ => ⟨rfl, rfl, rfl, rfl⟩) ?_
  rintro d u ⟨hpictures, hcomments, hcategories, haccounts⟩
  exact ⟨hpictures, hcomments, hcategories, (accounts_stamp d u r.now).trans haccounts⟩

theorem advances_enter (r : Request) (db : Database) : Advances cache db (r.enter db) := by
  obtain ⟨hpictures, hcomments, -, haccounts⟩ := enter_unseen r db
  exact .of_eq hpictures hcomments haccounts

theorem unmentioned_labels {i : Id} {t : Time} (h : cache.Unmentioned i t) (c : String × String) :
    ¬ cache.Labels i t c := by
  rintro ⟨keys, stored, hstored, hkey, -⟩
  exact h keys stored hstored hkey

theorem unmentioned_threads {i : Id} {t : Time} (h : cache.Unmentioned i t)
    (c : List (Row Comment)) : ¬ cache.Threads i t c := by
  rintro ⟨stored, k, hstored, -⟩
  exact h _ stored hstored List.mem_cons_self

/-- A write to the columns of one picture, which also gives it a new time. -/
theorem find?_update_of_ne {f : Row Picture → Picture} {i k : Id} (hk : k ≠ i)
    (hf : ∀ p : Row Picture, p.id ≠ i → f p = p.val) :
    (db.pictures.update f).find? k = db.pictures.find? k := by
  rw [Table.find?_update]
  cases hp : db.pictures.find? k with
  | none => rfl
  | some p =>
    have hid : p.id = k := (Table.find?_eq_some_iff.mp hp).2
    rw [Option.map_some, hf p (hid ▸ hk)]

theorem ofPicture_insert_of_ne {comments : Table Comment} {c : Comment} {i : Id}
    (h : c.picture_id ≠ i) :
    Comment.ofPicture (comments.insert c) i = Comment.ofPicture comments i := by
  rw [Comment.ofPicture, Table.rows_insert, List.filter_append]
  simp [Comment.ofPicture, h]

theorem advances_comment {u : Id} {b : String} {now : Time} {p : Row Picture}
    (hp : db.pictures.find? p.id = some p) (h : cache.MayComment p now) :
    Advances cache db (db.addComment u p.id b now) where
  next := le_rfl
  accounts := rfl
  labels := by
    refine Supersedes.at p.id (fun k hk => .inr ?_) fun t c hc => ?_
    · simp only [Database.labels, Database.addComment, Database.touch]
      rw [find?_update_of_ne hk fun q hq => if_neg (by simpa using hq)]
    · simp only [Database.labels, Database.addComment, Database.touch, Table.find?_update, hp,
        Option.map_some, List.mem_singleton, ite_true, Option.some.injEq, Prod.mk.injEq] at hc ⊢
      obtain ⟨rfl, rfl⟩ := hc
      -- the touch keeps the labels, and may give them a time under which nothing is recorded
      rcases h.listings with htime | hunmentioned
      · exact .inl ⟨htime, rfl⟩
      · exact .inr (unmentioned_labels hunmentioned)
  threads := by
    refine Supersedes.at p.id (fun k hk => .inr ?_) fun t c hc => .inr ?_
    · simp only [Database.thread, Database.addComment, Database.touch]
      rw [find?_update_of_ne hk fun q hq => if_neg (by simpa using hq),
        ofPicture_insert_of_ne hk.symm]
    · simp only [Database.thread, Database.addComment, Database.touch, Table.find?_update, hp,
        Option.map_some, List.mem_singleton, ite_true, Option.some.injEq, Prod.mk.injEq] at hc
      obtain ⟨rfl, rfl⟩ := hc
      -- only the page of the picture records its comments
      rintro c' ⟨stored, k, hstored, hview, -⟩
      exact h.page stored k hstored hview

/-- Recorded pictures have been in the database. -/
theorem Current.lt_next (h : Current site cache db) {i : Id} {t : Time} {c : String × String}
    (hlabels : cache.Labels i t c) : i < db.pictures.next := by
  obtain ⟨keys, stored, hstored, -, hlabels⟩ := hlabels
  obtain ⟨p, hp, -⟩ := Option.map_eq_some_iff.mp hlabels
  exact (Table.has_of_find?_eq_some hp).bounds.2.trans_le (h.next _ stored hstored)

theorem Current.thread_lt_next (h : Current site cache db) {i : Id} {t : Time}
    {c : List (Row Comment)} (hthread : cache.Threads i t c) : i < db.pictures.next := by
  obtain ⟨stored, k, hstored, -, hthread⟩ := hthread
  obtain ⟨p, hp, -⟩ := Option.map_eq_some_iff.mp hthread
  exact (Table.has_of_find?_eq_some hp).bounds.2.trans_le (h.next _ stored hstored)

/-- A new picture has an id that no key mentions. -/
theorem advances_create (h : Current site cache db) (t f : String) (ids : List Id) (now : Time) :
    Advances cache db (db.addPicture t f ids now) where
  next := by simp [Database.addPicture, Table.insert]
  accounts := rfl
  labels := by
    refine Supersedes.at db.pictures.next (fun k hk => .inr ?_) fun _ _ _ => .inr fun c' hc' => ?_
    · simp only [Database.labels, Database.addPicture, Table.find?_insert_of_ne _ hk]
    · exact lt_irrefl _ (h.lt_next hc')
  threads := by
    refine Supersedes.at db.pictures.next (fun k hk => .inr ?_) fun _ _ _ => .inr fun c' hc' => ?_
    · simp only [Database.thread, Database.addPicture, Table.find?_insert_of_ne _ hk]
    · exact lt_irrefl _ (h.thread_lt_next hc')

/-- The comments that go with a picture are the picture's own, and touch no other. -/
theorem find?_destroyPicture_of_ne {i k : Id} (now : Time) (hk : k ≠ i) :
    (db.destroyPicture i now).pictures.find? k = db.pictures.find? k := by
  refine (Table.find?_delete_of_ne hk).trans (find?_update_of_ne hk fun q hq => if_neg ?_)
  -- the comments that go touch the pictures they are on, which is this one
  intro hmem
  obtain ⟨c, hc, hid⟩ := List.mem_map.mp hmem
  exact hq (hid.symm.trans (by simpa using (List.mem_filter.mp hc).2))

theorem ofPicture_destroyPicture_of_ne {i k : Id} (now : Time) (hk : k ≠ i) :
    Comment.ofPicture (db.destroyPicture i now).comments k = Comment.ofPicture db.comments k := by
  change ((db.comments.rows.filter _).filter _) = _
  rw [List.filter_filter]
  refine List.filter_congr fun c _ => ?_
  by_cases hc : c.val.picture_id = k
  · simp [hc, hk]
  · simp [hc]

theorem advances_destroy (i : Id) (now : Time) : Advances cache db (db.destroyPicture i now) where
  next := le_rfl
  accounts := rfl
  labels := by
    refine Supersedes.at i (fun k hk => .inr ?_) fun t c hc => ?_
    · rw [Database.labels, find?_destroyPicture_of_ne now hk, Database.labels]
    · simp [Database.labels, Database.destroyPicture] at hc
  threads := by
    refine Supersedes.at i (fun k hk => .inr ?_) fun t c hc => ?_
    · rw [Database.thread, find?_destroyPicture_of_ne now hk, ofPicture_destroyPicture_of_ne now hk,
        Database.thread]
    · simp [Database.thread, Database.destroyPicture] at hc

/-- The database after an edit of a picture. -/
theorem advances_edit_picture {i : Id} {p : Row Picture} {edited : Picture} {now : Time}
    (hp : db.pictures.find? i = some p) (hpictures : db'.pictures =
      db.pictures.update fun q => if q.id = i then edited else q.val)
    (hcomments : db'.comments = db.comments) (haccounts : db'.accounts = db.accounts)
    (h : edited = p.val ∨ edited.updated_at = now ∧ cache.Unmentioned i now) :
    Advances cache db db' where
  next := by rw [hpictures]; rfl
  accounts := haccounts
  labels := by
    refine Supersedes.at i (fun k hk => .inr ?_) fun t c hc => ?_
    · rw [Database.labels, hpictures, find?_update_of_ne hk fun q hq => if_neg hq, Database.labels]
    · have hid : p.id = i := (Table.find?_eq_some_iff.mp hp).2
      simp only [Database.labels, hpictures, Table.find?_update, hp, Option.map_some, hid, ite_true,
        Option.some.injEq, Prod.mk.injEq] at hc ⊢
      obtain ⟨rfl, rfl⟩ := hc
      rcases h with rfl | ⟨htime, hunmentioned⟩
      · exact .inl ⟨rfl, rfl⟩
      · exact .inr (unmentioned_labels (htime ▸ hunmentioned))
  threads := by
    refine Supersedes.at i (fun k hk => .inr ?_) fun t c hc => ?_
    · rw [Database.thread, hpictures, hcomments, find?_update_of_ne hk fun q hq => if_neg hq,
        Database.thread]
    · have hid : p.id = i := (Table.find?_eq_some_iff.mp hp).2
      simp only [Database.thread, hpictures, hcomments, Table.find?_update, hp, Option.map_some,
        hid, ite_true, Option.some.injEq, Prod.mk.injEq] at hc ⊢
      obtain ⟨rfl, rfl⟩ := hc
      rcases h with rfl | ⟨htime, hunmentioned⟩
      · exact .inl ⟨rfl, rfl⟩
      · exact .inr (unmentioned_threads (htime ▸ hunmentioned))

/-- The requests that write, one outcome after the other. -/
theorem advances_outcome {now : Time} {w w' : World} {route : Route} {user : Option (Row User)}
    {res : Except Raised Response} (h : Current site cache w.db) (hwrites : route.writes)
    (hcomment : ∀ picture_id body, route = .comments_create picture_id body → user.isSome →
      Comment.validBody body → ∀ p, w.db.pictures.find? (to_i picture_id) = some p →
        cache.MayComment p now)
    (houtcome : Outcome now w route user res w') : Advances cache w.db w'.db := by
  cases houtcome with
  | quiet _ _ hdb => exact .of_eq (by rw [hdb]) (by rw [hdb]) (by rw [hdb])
  | like_created | like_destroyed | subscribed | unsubscribed => exact .of_eq rfl rfl rfl
  | commented hp hbody hdb =>
    obtain ⟨hmem, hid⟩ := Table.find?_eq_some_iff.mp hp
    rw [hdb]
    exact advances_comment (Table.find?_eq_some_iff.mpr ⟨hmem, rfl⟩)
      (hcomment _ _ rfl rfl hbody _ hp)
  | picture_destroyed => exact advances_destroy _ _
  | category_destroyed | category_created => exact .of_eq rfl rfl rfl
  | picture_created _ _ _ hdb =>
    rw [hdb]
    exact advances_create h _ _ _ _
  | messaged | signed_up | not_signed_up | signed_in | not_signed_in | signed_out
  | facebook_known | facebook_tracked | facebook_stored | cancelled | user_destroyed =>
    contradiction

theorem advances_request {r : Request} {w : World} (h : Current site cache w.db)
    (hwrites : r.route.writes) (hr : r.InTime cache w.db) :
    Advances cache w.db (Action.exec r.run w).2.db := by
  rcases run_cases r w with ⟨-, hrun⟩ | ⟨htrackable, houtcome⟩
  · rw [hrun]
    exact .of_eq rfl rfl rfl
  · have henter : Advances cache w.db (r.enter w.db) := advances_enter r w.db
    refine henter.trans (advances_outcome (w := { w with db := r.enter w.db }) (h.advance henter)
      hwrites ?_ houtcome)
    intro picture_id body hroute huser hbody p hp
    rw [Request.InTime, hroute] at hr
    exact hr htrackable huser hbody p ((enter_unseen r w.db).1 ▸ hp)

/-- An admin edit of a picture either writes nothing or saves the picture. -/
theorem update_picture_cases (i : Id) (params : PictureParams) (now : Time) (w : World) :
    (Action.exec (Admin.update_picture i params now) w).2 = w ∨
      ∃ p, w.db.pictures.find? i = some p ∧ (∀ c ∈ params.category_ids, w.db.categories.Has c) ∧
        Picture.valid (some (p.val.edit params now).title)
          (some (p.val.edit params now).filename) ∧
        fitsString (p.val.edit params now).filename ∧
        (Action.exec (Admin.update_picture i params now) w).2.db =
          { w.db.replaceCategories i params.category_ids with
            pictures := w.db.pictures.update fun q =>
              if q.id = i then p.val.edit params now else q.val } := by
  simp only [Admin.update_picture, Action.exec_bind, exec_database]
  cases hp : w.db.pictures.find? i with
  | none => exact .inl rfl
  | some p =>
    simp only [Action.exec_bind, exec_findAll]
    by_cases hids : params.category_ids.all fun c => w.db.categories.Has c
    · simp only [hids, ite_true, Action.exec_ite, Action.exec_bind, exec_write, Action.exec_pure,
        exec_raise]
      -- saved; refused by PostgreSQL; refused by the validations
      split_ifs with hvalid hfits
      · exact .inr ⟨p, rfl, by simpa using hids, hvalid, hfits, rfl⟩
      · exact .inl rfl
      · exact .inl rfl
    · simp only [hids, Bool.false_eq_true, ite_false]
      exact .inl trivial

/-- An admin edit of a category writes no more than the categories. -/
theorem update_category_cases (i : Id) (name : Option String) (w : World) :
    ∃ categories, (Action.exec (Admin.update_category i name) w).2.db =
      { w.db with categories := categories } := by
  simp only [Admin.update_category, Action.exec_bind, exec_database]
  cases w.db.categories.find? i with
  | none => exact ⟨_, rfl⟩
  | some c =>
    simp only [Action.exec_ite, Action.exec_bind, exec_write, Action.exec_pure, exec_raise]
    split_ifs <;> exact ⟨_, rfl⟩

theorem edit_cases (p : Picture) (params : PictureParams) (now : Time) :
    p.edit params now = p ∨ (p.edit params now).updated_at = now := by
  unfold Picture.edit
  split
  · exact .inl rfl
  · exact .inr rfl

/-- An edit is its filters followed by its action. -/
theorem exec_edit (r : EditRequest) (w : World) :
    (Action.exec r.run w).2 = if r.request.trackable w.db then
      (Action.exec (r.edit.run r.now) { w with db := r.request.enter w.db }).2 else w := by
  rw [EditRequest.run, Action.exec_bind, exec_run]
  by_cases htrackable : r.request.trackable w.db
  · simp only [htrackable, ite_true]
    rfl
  · simp only [htrackable, Bool.false_eq_true, ite_false]

theorem advances_edit {r : EditRequest} {w : World} (hr : r.InTime cache w.db) :
    Advances cache w.db (Action.exec r.run w).2.db := by
  rw [exec_edit]
  split_ifs with htrackable
  · apply (advances_enter r.request w.db).trans
    obtain ⟨hpictures, -, hcategories, -⟩ := enter_unseen r.request w.db
    unfold EditRequest.InTime at hr
    rcases hedit : r.edit with ⟨i, params⟩ | ⟨i, name⟩ <;> simp only [hedit] at hr
    · rcases update_picture_cases i params r.now { w with db := r.request.enter w.db } with
        hsame | ⟨p, hp, hids, hvalid, hfits, hdb⟩
      · simp only [Edit.run, hsame]
        exact .of_eq rfl rfl rfl
      · -- the edit is saved, so it comes in time unless it changes nothing
        simp only [hpictures, hcategories] at hp hids
        have hintime := hr htrackable hids p hp hvalid hfits
        have hchange : p.val.edit params r.now = p.val ∨
            (p.val.edit params r.now).updated_at = r.now ∧ cache.Unmentioned i r.now := by
          rcases edit_cases p.val params r.now with hsame | htime
          · exact .inl hsame
          · exact hintime.imp_right fun hunmentioned => ⟨htime, hunmentioned⟩
        exact advances_edit_picture (hpictures ▸ hp) (by rw [Edit.run, hdb])
          (by rw [Edit.run, hdb]; rfl) (by rw [Edit.run, hdb]; rfl) hchange
    · obtain ⟨categories, hdb⟩ := update_category_cases i name { w with db := r.request.enter w.db }
      exact .of_eq (by rw [Edit.run, hdb]) (by rw [Edit.run, hdb]) (by rw [Edit.run, hdb]; rfl)
  · exact .of_eq rfl rfl rfl

/-! ### Runs -/

theorem exec_visit (v : Visit) (w : World) :
    Action.exec v.request.run w = if v.request.trackable w.db then
        (.ok .page, { w with db := v.request.enter w.db })
      else (.error ⟨.StatementInvalid, true⟩, w) :=
  exec_run v.request w

theorem transparent_step {s t : CacheState} {a : CacheStep} (h : Transparent site s)
    (ha : a.Transparent site s) (hstep : (fragmentCache site).step s a = some t) :
    Transparent site t := by
  cases a with
  | visit v =>
    simp only [fragmentCache, exec_visit] at hstep
    by_cases htrackable : v.request.trackable s.world.db
    · simp only [htrackable, ite_true, Option.some.injEq] at hstep
      -- the filters first, then one fragment after the other
      have hentered : Transparent site
          { s with world := { s.world with db := v.request.enter s.world.db } } :=
        ⟨h.current.advance (advances_enter _ _), h.served⟩
      rw [← hstep]
      exact hentered.serve_all (fun _ hfragment => hfragment) fragments_nodup (ha htrackable)
    · simp only [htrackable, Bool.false_eq_true, ite_false, Option.some.injEq] at hstep
      exact hstep ▸ h
  | request r =>
    obtain ⟨hwrites, ht⟩ := Option.ite_none_right_eq_some.mp hstep
    rw [← Option.some.inj ht]
    exact ⟨h.current.advance (advances_request h.current hwrites ha), h.served⟩
  | edit r =>
    rw [← Option.some.inj hstep]
    exact ⟨h.current.advance (advances_edit ha), h.served⟩

/-- An empty cache. -/
theorem current_empty (hcache : ∀ key, cache key = none) : Current site cache db where
  rendered key stored hstored := by simp [hcache] at hstored
  next key stored hstored := by simp [hcache] at hstored
  accounts key stored hstored := by simp [hcache] at hstored
  labels := by
    rintro i t c c' ⟨keys, stored, hstored, -⟩
    simp [hcache] at hstored
  threads := by
    rintro i t c c' ⟨stored, k, hstored, -⟩
    simp [hcache] at hstored

/-- A database that keeps rows that compare equal in the order of their keys, and
`time_ago_in_words` for ages that round to 0 minutes. -/
def Site.sample : Site where
  collation := .ascending
  ilike text title := decide (text.toList <:+: title.toList)
  arrange_pictures l := l.order.sort l.rows
  pictures_answer l := l.order.answers_sort l.rows
  arrange_comments := RowOrder.sort _
  comments_answer := RowOrder.answers_sort _
  arrange_users := RowOrder.sort _
  users_answer := RowOrder.answers_sort _
  arrange_categories := RowOrder.sort _
  categories_answer := RowOrder.answers_sort _
  time_ago_in_words language _ _ := match language with
    | .en => "less than a minute"
    | .de => "weniger als eine Minute"

/-- Nobody has visited the gallery yet. -/
def CacheState.sample : CacheState := ⟨.ofDatabase .sample, fun _ => none, []⟩

/-- Somebody who is not signed in, on the front page. -/
def Visit.sample : Visit :=
  ⟨none, "token", .en, "http://gallery/", 0, .listing ⟨none, none, none, 0⟩⟩

theorem init_cache_sample : (fragmentCache .sample).init .sample := ⟨fun _ => rfl, rfl⟩

end Gallery
