import Gallery.Controllers.Server
import Gallery.Store.ForeignKey

/-!
# Dangling references

The schema declares no foreign keys, so that a stored id names a row is up to
the code: to the look-ups before an insert, and to the `dependent` options at a
destroy. Some inserts take an id from the client unchecked, and some
associations have no `dependent` option. `KeepsReferences` lists, request by
request, when nothing goes wrong.

## Main definitions

* `References` — every stored id names a row
* `Route.KeepsReferences`, `KeepsReferences` — the requests, in a given state, that
  leave none dangling

## Main results

* `references_outcome` — what each outcome needs to keep the references
* `references_of_reachableWithin` — runs of such requests leave no reference dangling
-/

namespace Gallery

open Store Rails App Semantics

/-- The row an event points at exists. -/
def Database.Names (db : Database) (eventable_type : String) (eventable_id : Id) : Prop :=
  eventable_type = "Comment" ∧ db.comments.Has eventable_id ∨
    eventable_type = "Like" ∧ db.likes.Has eventable_id ∨
    eventable_type = "Url" ∧ db.urls.Has eventable_id ∨
    eventable_type = "User" ∧ db.users.Has eventable_id

/-- Every id stored in the database names a row. -/
structure References (db : Database) : Prop where
  comment_user : Refs db.comments Comment.user_id db.users
  comment_picture : Refs db.comments Comment.picture_id db.pictures
  like_user : Refs db.likes Like.user_id db.users
  like_picture : Refs db.likes Like.picture_id db.pictures
  category_picture : Refs db.picture_categories PictureCategory.picture_id db.pictures
  category_category : Refs db.picture_categories PictureCategory.category_id db.categories
  subscription_user : Refs db.user_categories UserCategory.user_id db.users
  subscription_category : Refs db.user_categories UserCategory.category_id db.categories
  message_sender : Refs db.messages Message.sender_id db.users
  message_receiver : Refs db.messages Message.receiver_id db.users
  event_user : Refs db.events Event.user_id db.users
  eventable : ∀ e ∈ db.events.rows, db.Names e.val.eventable_type e.val.eventable_id

namespace Database

variable {db db' : Database}

/-- Nothing but a like of the user, or the user as an object of events, depends
on the user through an event, and nothing else depends on the user. -/
structure UserUnreferenced (db : Database) (i : Id) : Prop where
  subscriptions : ∀ s ∈ db.user_categories.rows, s.val.user_id ≠ i
  messages : ∀ m ∈ db.messages.rows, m.val.sender_id ≠ i ∧ m.val.receiver_id ≠ i
  events : ∀ e ∈ db.events.rows, e.val.user_id = i →
    e.val.eventable_type = "User" ∧ e.val.eventable_id = i ∨
      e.val.eventable_type = "Like" ∧
        ∃ l ∈ db.likes.rows, l.val.user_id = i ∧ l.id = e.val.eventable_id
  comments : ∀ e ∈ db.events.rows, e.val.eventable_type = "Comment" →
    ∀ c ∈ db.comments.rows, c.id = e.val.eventable_id → c.val.user_id ≠ i

/-- The picture is in no category, and no event is about one of its comments. -/
structure PictureUnreferenced (db : Database) (i : Id) : Prop where
  categories : ∀ c ∈ db.picture_categories.rows, c.val.picture_id ≠ i
  comments : ∀ e ∈ db.events.rows, e.val.eventable_type = "Comment" →
    ∀ c ∈ db.comments.rows, c.id = e.val.eventable_id → c.val.picture_id ≠ i

/-- The category has neither pictures nor subscribers. -/
structure CategoryUnreferenced (db : Database) (i : Id) : Prop where
  pictures : ∀ c ∈ db.picture_categories.rows, c.val.category_id ≠ i
  subscriptions : ∀ s ∈ db.user_categories.rows, s.val.category_id ≠ i

end Database

/-- What a request of `user` must not do to the database it finds, for no
reference to be left dangling: store an id the client made up, or destroy a row
that something without a `dependent` option refers to. Destroying a user also
leaves the event about the request itself, if it is the user's own. -/
def Route.KeepsReferences (route : Route) (user : Option (Row User)) (db : Database) : Prop :=
  match route with
  | .pictures_like pic_id none =>
    user.isSome → ∀ p, assignInteger pic_id = some p → fitsInteger p → db.pictures.Has p
  | .categories_subscribe cat_id =>
    user.isSome → ∀ c, assignInteger cat_id = some c → fitsInteger c → db.categories.Has c
  | .messages_create receiver_id text _ =>
    user.isSome → present? text → text.all fitsString →
      ∀ u, assignInteger receiver_id = some u → fitsInteger u → db.users.Has u
  | .registrations_destroy => user = none
  | .admin_users_destroy i => db.UserUnreferenced i ∧ ∀ u, user = some u → u.id ≠ i
  | .admin_pictures_destroy i => db.PictureUnreferenced i
  | .admin_categories_destroy i => db.CategoryUnreferenced i
  | _ => True

/-- A request that, in the state it finds, leaves no reference dangling. One that
fails in the tracking filter does nothing. -/
def KeepsReferences (w : World) (r : Request) : Prop :=
  r.trackable w.db = true → r.route.KeepsReferences (r.user w.db) w.db

/-! ### One kind of write after the other -/

section Writes

variable {db db' : Database} {now : Time}

theorem Database.Names.mono {type : String} {i : Id} (h : db.Names type i)
    (hcomments : db.comments.Has i → db'.comments.Has i)
    (hlikes : db.likes.Has i → db'.likes.Has i) (hurls : db.urls.Has i → db'.urls.Has i)
    (husers : db.users.Has i → db'.users.Has i) : db'.Names type i := by
  rcases h with ⟨rfl, h⟩ | ⟨rfl, h⟩ | ⟨rfl, h⟩ | ⟨rfl, h⟩
  · exact .inl ⟨rfl, hcomments h⟩
  · exact .inr (.inl ⟨rfl, hlikes h⟩)
  · exact .inr (.inr (.inl ⟨rfl, hurls h⟩))
  · exact .inr (.inr (.inr ⟨rfl, husers h⟩))

/-- Storing an event, once the row it points at and its user exist. -/
theorem References.insert_event {i u : Id} {type : String} (h : References db)
    (hnames : db.Names type i) (huser : db.users.Has u) :
    References { db with events := db.events.insert ⟨i, type, u, now⟩ } where
  __ := h
  event_user := h.event_user.insert huser
  eventable := by
    intro e he
    rcases List.mem_append.mp he with he | he
    · exact h.eventable e he
    · rwa [List.mem_singleton.mp he]

/-- Destroying comments is safe as long as no event is about one of them. -/
theorem References.destroyComments {p : Row Comment → Bool} (h : References db)
    (hevents : ∀ e ∈ db.events.rows, e.val.eventable_type = "Comment" →
      ∀ c ∈ db.comments.rows, c.id = e.val.eventable_id → p c = false) :
    References (db.destroyComments p now) where
  __ := h
  comment_user := h.comment_user.delete p
  comment_picture := (h.comment_picture.delete p).update_target _
  like_picture := h.like_picture.update_target _
  category_picture := h.category_picture.update_target _
  eventable := by
    intro e he
    by_cases htype : e.val.eventable_type = "Comment"
    · rcases h.eventable e he with ⟨-, c, hc, hid⟩ | ⟨htype', -⟩ | ⟨htype', -⟩ | ⟨htype', -⟩
      · exact .inl ⟨htype, Table.has_delete p |>.mpr ⟨c, hc, hevents e he htype c hc hid, hid⟩⟩
      all_goals exact absurd (htype.symm.trans htype') (by decide)
    · rcases h.eventable e he with ⟨htype', -⟩ | hother
      · exact absurd htype' htype
      · exact .inr hother

/-- Destroying likes is safe: their events go with them. -/
theorem References.destroyLikes {p : Row Like → Bool} (h : References db) :
    References (db.destroyLikes p) where
  __ := h
  like_user := h.like_user.delete p
  like_picture := h.like_picture.delete p
  event_user := h.event_user.delete _
  eventable := by
    intro e he
    obtain ⟨he, hkept⟩ := List.mem_filter.mp he
    rcases h.eventable e he with hc | ⟨htype, l, hl, hid⟩ | hother
    · exact .inl hc
    · refine .inr (.inl ⟨htype, (Table.has_delete p).mpr ⟨l, hl, ?_, hid⟩⟩)
      by_contra hp
      have hany : (db.likes.rows.filter p).any fun l => l.id = e.val.eventable_id :=
        List.any_eq_true.mpr ⟨l, List.mem_filter.mpr ⟨hl, by simpa using hp⟩, by simpa using hid⟩
      simp [htype, hany] at hkept
    · exact .inr (.inr hother)

theorem References.destroyUser {i : Id} (h : References db) (hi : db.UserUnreferenced i) :
    References (db.destroyUser i now) := by
  have hcomments : References (db.destroyComments (fun c => c.val.user_id = i) now) :=
    h.destroyComments fun e he htype c hc hid => by simpa using hi.comments e he htype c hc hid
  have hlikes := hcomments.destroyLikes (p := fun l => l.val.user_id = i)
  -- Of the events only those about the user itself can still carry the user's id.
  have hevent : ∀ e ∈ ((db.destroyComments (fun c => c.val.user_id = i) now).destroyLikes
      fun l => l.val.user_id = i).events.rows, e.val.user_id = i →
        e.val.eventable_type = "User" ∧ e.val.eventable_id = i := by
    intro e he huser
    obtain ⟨he, hkept⟩ := List.mem_filter.mp he
    rcases hi.events e he huser with hself | ⟨htype, l, hl, hlike, hid⟩
    · exact hself
    · have hany : (db.likes.rows.filter fun l => l.val.user_id = i).any
          fun l => l.id = e.val.eventable_id :=
        List.any_eq_true.mpr ⟨l, List.mem_filter.mpr ⟨hl, by simpa using hlike⟩, by simpa using hid⟩
      exact absurd hkept (by simpa [htype, Database.destroyComments, Database.touch] using hany)
  exact
    { hlikes with
      comment_user := hlikes.comment_user.delete_target fun c hc => by
        simpa using (List.mem_filter.mp hc).2
      like_user := hlikes.like_user.delete_target fun l hl => by
        simpa using (List.mem_filter.mp hl).2
      subscription_user := hlikes.subscription_user.delete_target hi.subscriptions
      message_sender := hlikes.message_sender.delete_target fun m hm => (hi.messages m hm).1
      message_receiver := hlikes.message_receiver.delete_target fun m hm => (hi.messages m hm).2
      event_user := (hlikes.event_user.delete _).delete_target fun e he huser => by
        obtain ⟨he, hkept⟩ := List.mem_filter.mp he
        simp [hevent e he huser] at hkept
      eventable := by
        intro e he
        obtain ⟨he, hkept⟩ := List.mem_filter.mp he
        rcases hlikes.eventable e he with hc | hl | hu | ⟨htype, hu⟩
        · exact .inl hc
        · exact .inr (.inl hl)
        · exact .inr (.inr (.inl hu))
        · refine .inr (.inr (.inr ⟨htype, Table.has_delete_id i |>.mpr ⟨hu, ?_⟩⟩))
          simpa [htype] using hkept }

theorem References.destroyPicture {i : Id} (h : References db) (hi : db.PictureUnreferenced i) :
    References (db.destroyPicture i now) := by
  have hcomments : References (db.destroyComments (fun c => c.val.picture_id = i) now) :=
    h.destroyComments fun e he htype c hc hid => by simpa using hi.comments e he htype c hc hid
  have hlikes := hcomments.destroyLikes (p := fun l => l.val.picture_id = i)
  exact
    { hlikes with
      comment_picture := hlikes.comment_picture.delete_target fun c hc => by
        simpa using (List.mem_filter.mp hc).2
      like_picture := hlikes.like_picture.delete_target fun l hl => by
        simpa using (List.mem_filter.mp hl).2
      category_picture := hlikes.category_picture.delete_target hi.categories }

theorem References.destroyCategory {i : Id} (h : References db) (hi : db.CategoryUnreferenced i) :
    References (db.destroyCategory i) where
  __ := h
  category_category := h.category_category.delete_target hi.pictures
  subscription_category := h.subscription_category.delete_target hi.subscriptions

/-- New rows in the tables that are referred to. -/
theorem References.insert_user (h : References db) (u : User) :
    References { db with users := db.users.insert u } where
  __ := h
  comment_user := h.comment_user.insert_target u
  like_user := h.like_user.insert_target u
  subscription_user := h.subscription_user.insert_target u
  message_sender := h.message_sender.insert_target u
  message_receiver := h.message_receiver.insert_target u
  event_user := h.event_user.insert_target u
  eventable e he := (h.eventable e he).mono id id id fun hu => by simpa using .inl hu

theorem References.addLike {u p : Id} (h : References db) (hu : db.users.Has u)
    (hp : db.pictures.Has p) : References (db.addLike u p now) := by
  have hlike : References { db with likes := db.likes.insert ⟨u, p⟩ } :=
    { h with
      like_user := h.like_user.insert hu
      like_picture := h.like_picture.insert hp
      eventable := fun e he => (h.eventable e he).mono id (fun hl => by simpa using .inl hl) id id }
  exact hlike.insert_event (.inr (.inl ⟨rfl, by simp⟩)) hu

theorem References.addComment {u p : Id} {b : String} (h : References db) (hu : db.users.Has u)
    (hp : db.pictures.Has p) : References (db.addComment u p b now) := by
  have hcomment : References { db.touch [p] now with
      comments := db.comments.insert ⟨u, p, b, now⟩ } :=
    { h with
      comment_user := h.comment_user.insert hu
      comment_picture := (h.comment_picture.insert hp).update_target _
      like_picture := h.like_picture.update_target _
      category_picture := h.category_picture.update_target _
      eventable := fun e he => (h.eventable e he).mono (fun hc => by simpa using .inl hc) id id id }
  exact hcomment.insert_event (.inl ⟨rfl, by simp⟩) hu

theorem References.addPicture {t f : String} {ids : List Id} (h : References db)
    (hids : ∀ c ∈ ids, db.categories.Has c) : References (db.addPicture t f ids now) where
  __ := h
  comment_picture := h.comment_picture.insert_target _
  like_picture := h.like_picture.insert_target _
  category_picture := (h.category_picture.insert_target _).foldl_insert ids fun _ _ => by simp
  category_category := h.category_category.foldl_insert ids hids

/-- Users may change as long as none of them goes. -/
theorem References.update_users (h : References db) (f : Row User → User) :
    References { db with users := db.users.update f } where
  __ := h
  comment_user := h.comment_user.update_target _
  like_user := h.like_user.update_target _
  subscription_user := h.subscription_user.update_target _
  message_sender := h.message_sender.update_target _
  message_receiver := h.message_receiver.update_target _
  event_user := h.event_user.update_target _
  eventable e he := (h.eventable e he).mono id id id (Table.has_update f).mpr

end Writes

/-! ### A whole request -/

theorem References.enter {db : Database} (r : Request) (h : References db) :
    References (r.enter db) := by
  refine Request.enter_rule h (fun u hu row hrow => ?_) (fun u hu => ?_)
    fun _ _ h => h.update_users _
  · exact h.insert_event (.inr (.inr (.inl ⟨rfl, .intro hrow⟩))) (.intro (Request.mem_of_user hu))
  · have hurl : References { db with urls := db.urls.insert ⟨r.url⟩ } :=
      { h with
        eventable := fun e he =>
          (h.eventable e he).mono id id (fun hu => by simpa using .inl hu) id }
    exact hurl.insert_event (.inr (.inr (.inl ⟨rfl, by simp⟩))) (.intro (Request.mem_of_user hu))

/-- The filters add no row under a key that was there. -/
theorem enter_has {db : Database} (r : Request) (i : Id) :
    ((r.enter db).users.Has i ↔ db.users.Has i) ∧
      (r.enter db).pictures = db.pictures ∧ (r.enter db).categories = db.categories := by
  refine Request.enter_rule
    (P := fun db' => (db'.users.Has i ↔ db.users.Has i) ∧ db'.pictures = db.pictures ∧
      db'.categories = db.categories) ⟨.rfl, rfl, rfl⟩ (fun _ _ _ _ => ⟨.rfl, rfl, rfl⟩)
    (fun _ _ => ⟨.rfl, rfl, rfl⟩) ?_
  rintro db' u ⟨husers, hother⟩
  exact ⟨by simpa [Database.stamp] using husers, hother⟩

/-- The event the filters add is about a URL, and its user is the session's. -/
theorem Database.UserUnreferenced.enter {db : Database} {r : Request} {i : Id}
    (h : db.UserUnreferenced i) (hsession : ∀ u, r.user db = some u → u.id ≠ i) :
    (r.enter db).UserUnreferenced i := by
  have hinsert : ∀ u, r.user db = some u → ∀ j, ∀ e ∈ db.events.rows ++ [⟨db.events.next,
      ⟨j, "Url", u.id, r.now⟩⟩], (e.val.user_id = i → e.val.eventable_type = "User" ∧
        e.val.eventable_id = i ∨ e.val.eventable_type = "Like" ∧
          ∃ l ∈ db.likes.rows, l.val.user_id = i ∧ l.id = e.val.eventable_id) ∧
      (e.val.eventable_type = "Comment" →
        ∀ c ∈ db.comments.rows, c.id = e.val.eventable_id → c.val.user_id ≠ i) := by
    intro u hu j e he
    rcases List.mem_append.mp he with he | he
    · exact ⟨h.events e he, h.comments e he⟩
    · rw [List.mem_singleton.mp he]
      exact ⟨fun huser => absurd huser (hsession u hu), fun htype => absurd htype (by simp)⟩
  refine Request.enter_rule (P := (·.UserUnreferenced i)) h (fun u hu row _ => ?_)
    (fun u hu => ?_) fun _ _ h => ⟨h.1, h.2, h.3, h.4⟩
  · exact ⟨h.1, h.2, fun e he => (hinsert u hu _ e he).1, fun e he => (hinsert u hu _ e he).2⟩
  · exact ⟨h.1, h.2, fun e he => (hinsert u hu _ e he).1, fun e he => (hinsert u hu _ e he).2⟩

theorem Database.PictureUnreferenced.enter {db : Database} {i : Id} (r : Request)
    (h : db.PictureUnreferenced i) : (r.enter db).PictureUnreferenced i := by
  have hinsert : ∀ j u, ∀ e ∈ db.events.rows ++ [⟨db.events.next, ⟨j, "Url", u, r.now⟩⟩],
      e.val.eventable_type = "Comment" →
        ∀ c ∈ db.comments.rows, c.id = e.val.eventable_id → c.val.picture_id ≠ i := by
    intro j u e he htype
    rcases List.mem_append.mp he with he | he
    · exact h.comments e he htype
    · rw [List.mem_singleton.mp he] at htype
      exact absurd htype (by simp)
  exact Request.enter_rule (P := (·.PictureUnreferenced i)) h
    (fun u _ row _ => ⟨h.1, hinsert row.id u.id⟩) (fun u _ => ⟨h.1, hinsert _ u.id⟩)
    fun _ _ h => ⟨h.1, h.2⟩

theorem Database.CategoryUnreferenced.enter {db : Database} {i : Id} (r : Request)
    (h : db.CategoryUnreferenced i) : (r.enter db).CategoryUnreferenced i :=
  Request.enter_rule (P := (·.CategoryUnreferenced i)) h (fun _ _ _ _ => ⟨h.1, h.2⟩)
    (fun _ _ => ⟨h.1, h.2⟩) fun _ _ h => ⟨h.1, h.2⟩

/-- The condition on a request survives its filters. -/
theorem Route.KeepsReferences.enter {db : Database} (r : Request)
    (h : r.route.KeepsReferences (r.user db) db) :
    r.route.KeepsReferences (r.user db) (r.enter db) := by
  obtain ⟨husers, hpictures, hcategories⟩ :
      (∀ i, (r.enter db).users.Has i ↔ db.users.Has i) ∧
        (r.enter db).pictures = db.pictures ∧ (r.enter db).categories = db.categories :=
    ⟨fun i => (enter_has r i).1, (enter_has r 0).2⟩
  unfold Route.KeepsReferences at h ⊢
  split at h
  · rwa [hpictures]
  · rwa [hcategories]
  · simpa only [husers] using h
  · exact h
  · exact ⟨h.1.enter h.2, h.2⟩
  · exact Database.PictureUnreferenced.enter r h
  · exact Database.CategoryUnreferenced.enter r h
  · trivial

/-- What each outcome needs to leave no reference dangling. -/
theorem references_outcome {now : Time} {w w' : World} {route : Route} {user : Option (Row User)}
    {res : Except Raised Response} (ho : Outcome now w route user res w') (h : References w.db)
    (huser : ∀ u, user = some u → w.db.users.Has u.id)
    (hkeeps : route.KeepsReferences user w.db) : References w'.db := by
  cases ho with
  | quiet _ _ hdb => rwa [hdb]
  | like_created hp hfits => exact h.addLike (huser _ rfl) (hkeeps rfl _ hp hfits)
  | like_destroyed => exact h.destroyLikes
  | subscribed hc hfits =>
    exact { h with
      subscription_user := h.subscription_user.insert (huser _ rfl)
      subscription_category := h.subscription_category.insert (hkeeps rfl _ hc hfits) }
  | unsubscribed =>
    exact { h with
      subscription_user := h.subscription_user.delete _
      subscription_category := h.subscription_category.delete _ }
  | commented hp _ hdb =>
    rw [hdb]
    exact h.addComment (huser _ rfl) (.intro (Table.find?_eq_some_iff.mp hp).1)
  -- the receiver is the one id that comes unchecked from the form
  | @messaged u receiver_id _ r t _ _ hr hvalid hfits hdb =>
    obtain ⟨hr', ht⟩ := Bool.and_eq_true_iff.mp hfits
    have hreceiver : w.db.users.Has r := hkeeps rfl (by simpa [Message.valid] using hvalid)
      (by simpa using ht) r hr hr'
    rw [hdb]
    exact { h with
      message_sender := h.message_sender.insert (huser _ rfl)
      message_receiver := h.message_receiver.insert hreceiver }
  | signed_up => exact h.insert_user _
  | facebook_stored => exact h.insert_user _
  | signed_in | facebook_tracked => exact h.update_users _
  -- the event about the request itself would be left dangling
  | cancelled => exact absurd hkeeps (by simp [Route.KeepsReferences])
  | user_destroyed => exact h.destroyUser hkeeps.1
  | picture_destroyed => exact h.destroyPicture hkeeps
  | category_destroyed => exact h.destroyCategory hkeeps
  | picture_created _ _ hids hdb =>
    rw [hdb]
    exact h.addPicture hids
  | category_created =>
    exact { h with
      category_category := h.category_category.insert_target _
      subscription_category := h.subscription_category.insert_target _ }
  | not_signed_up | not_signed_in | signed_out | facebook_known => exact h

theorem references_run (r : Request) (w : World) (h : References w.db)
    (hkeeps : KeepsReferences w r) : References (Action.exec r.run w).2.db := by
  rcases run_cases r w with ⟨-, hrun⟩ | ⟨htrackable, ho⟩
  · rwa [hrun]
  · refine references_outcome ho (h.enter r) (fun u hu => ?_) (Route.KeepsReferences.enter r
      (hkeeps htrackable))
    exact (enter_has r u.id).1.mpr (.intro (Request.mem_of_user hu))

/-- From a state without dangling references, runs of requests that each keep
the references reach only states without dangling references. -/
theorem references_of_reachableWithin (w : World)
    (h : (server fun w => References w.db).ReachableWithin KeepsReferences w) :
    References w.db := by
  refine System.ReachableWithin.invariant (P := fun w => References w.db) h
    (fun w (h : References w.db) => h) ?_
  intro w r w' h hkeeps hstep
  rw [← server_step.mp hstep]
  exact references_run r w h hkeeps

theorem references_sample : References .sample := by
  constructor <;> simp [Database.sample, Database.empty, Refs]

/-- A like, and the destruction of the other user. -/
theorem references_of_reachableWithin_like :
    References (World.after (.ofDatabase .sample)
      [.by 1 (.pictures_like (some "1") none), .by 1 (.admin_users_destroy 2)]).db := by
  have hinit : (server fun w => References w.db).ReachableWithin KeepsReferences
      (.ofDatabase .sample) := .init references_sample
  refine references_of_reachableWithin _ (.step (.step hinit ?_ (server_step.mpr rfl)) ?_
    (server_step.mpr rfl))
  · intro _ _ p hp _
    obtain rfl : p = 1 := by simpa using hp.symm.trans (by decide : _ = some (1 : ℤ))
    decide
  · intro _
    exact ⟨⟨by decide, by decide, by decide, by decide⟩, by decide⟩

/-- A user subscribes to a category and is destroyed: the subscription stays. -/
theorem subscription_left_dangling :
    ∃ w, (server fun w => References w.db).Reachable w ∧ ¬ References w.db := by
  refine ⟨_, reachable_after (w := .ofDatabase .sample) references_sample
    [.by 2 (.categories_subscribe (some "1")),
      ⟨none, "http://gallery/", 0, .admin_users_destroy 2⟩], fun h => ?_⟩
  exact absurd (h.subscription_user ⟨1, 2, 1⟩ (by decide)) (by decide)

end Gallery
