import Gallery.Rails.Numerals
import Gallery.Store.Toggle
import Gallery.Theorems.LikeEvents
import Gallery.Theorems.References

/-!
# Liking and subscribing as toggles

A like request looks the like up by `to_i`, stores it by the cast of an attribute
and removes it by the quoted literal; only on a literal that PostgreSQL reads do
the three agree. A subscribe request removes what it looked up, and goes wrong
only where nothing can be stored. Neither asks whether anything was stored before
it answers.

## Main definitions

* `LikeLaw`, `SubscribeLaw` — what the answers say is so, and twice is nothing
* `Toggles` — rows are unique, and belong to users who are there

## Main results

* `toggles_of_reachable` — the invariant of requests handled one at a time
* `likeLaw_iff`, `subscribeLaw_iff` — on which parameters the laws hold
* `toggle_law` — both together
-/

namespace Gallery

open Store Rails App Semantics

/-! ### What the laws speak of -/

namespace Database

variable (db : Database) (u : Id) (pic_id cat_id : Option String)

/-- The user has a like on the picture that the parameter names. -/
def HasLike : Prop :=
  ∃ l ∈ db.likes.vals, l.user_id = u ∧ whereInteger pic_id = some l.picture_id

/-- The number of users who hold a like on the picture. -/
def likers : ℕ :=
  db.users.rows.countP fun u => db.likes.vals.any fun l =>
    whereInteger pic_id = some l.picture_id && decide (l.user_id = u.id)

/-- The user has subscribed to the category that the parameter names. -/
def HasSubscription : Prop :=
  ∃ s ∈ db.user_categories.vals, s.user_id = u ∧ whereInteger cat_id = some s.category_id

/-- The events of type `Like`: whose they are, and the like they are about. -/
def likedEvents : List (Id × Option Like) :=
  (db.events.rows.filter fun e => e.val.eventable_type = "Like").map fun e =>
    (e.val.user_id, (db.likes.find? e.val.eventable_id).map Row.val)

end Database

/-- The same likes, `Like` events and subscriptions, but for keys and times. -/
structure SameToggles (db db' : Database) : Prop where
  likes : db'.likes.vals.Perm db.likes.vals
  events : db'.likedEvents.Perm db.likedEvents
  subscriptions : db'.user_categories.vals.Perm db.user_categories.vals

namespace Request

/-- How a request ends. -/
def result (r : Request) (w : World) : Except Raised Response := (Action.exec r.run w).1

/-- The world a request leaves. -/
def leaves (r : Request) (w : World) : World := (Action.exec r.run w).2

/-- A like request of user `u`. -/
def likes (u : Id) (url : String) (pic_id check : Option String) (now : Time) : Request :=
  ⟨some u, url, now, .pictures_like pic_id check⟩

/-- A subscribe request of user `u`. -/
def subscribes (u : Id) (url : String) (cat_id : Option String) (now : Time) : Request :=
  ⟨some u, url, now, .categories_subscribe cat_id⟩

/-- One request after another completes too, and together they changed nothing. -/
def Undone (r r' : Request) (w : World) : Prop :=
  (∃ a, r.result w = .ok a) ∧ (∃ a, r'.result (r.leaves w) = .ok a) ∧
    SameToggles w.db (r'.leaves (r.leaves w)).db

end Request

/-- The toggle law of `like`, for one value of `pic_id`. -/
structure LikeLaw (w : World) (u : Id) (url url' : String) (pic_id : Option String) : Prop where
  undone : ∀ now now', (Request.likes u url pic_id none now).Undone
    (Request.likes u url' pic_id none now') w
  honest : ∀ check now like all_likes,
    (Request.likes u url pic_id check now).result w = .ok (.like like all_likes) →
      (like = 1 ↔ ((Request.likes u url pic_id check now).leaves w).db.HasLike u pic_id) ∧
        all_likes = ((Request.likes u url pic_id check now).leaves w).db.likers pic_id
  check : ∀ check now,
    ((Request.likes u url pic_id (some check) now).leaves w).db.likes = w.db.likes ∧
      ((Request.likes u url pic_id (some check) now).leaves w).db.likedEvents = w.db.likedEvents

/-- The toggle law of `subscribe`, for one value of `cat_id`. -/
structure SubscribeLaw (w : World) (u : Id) (url url' : String) (cat_id : Option String) :
    Prop where
  undone : ∀ now now', (Request.subscribes u url cat_id now).Undone
    (Request.subscribes u url' cat_id now') w
  honest : ∀ now res,
    (Request.subscribes u url cat_id now).result w = .ok (.subscribe res) →
      (res = some 1 ↔ ((Request.subscribes u url cat_id now).leaves w).db.HasSubscription u cat_id)

/-! ### The invariant -/

/-- One like per user and picture, one subscription per user and category, the users
of the likes are there, and the `Like` events mirror the likes. -/
structure Toggles (db : Database) : Prop where
  likes : db.likes.vals.Nodup
  subscriptions : db.user_categories.vals.Nodup
  liker : Refs db.likes Like.user_id db.users
  mirror : Mirror db

namespace Toggles

variable {db : Database} {now : Time}

/-- Writes to the other tables keep the invariant. -/
theorem of_eq {db' : Database} (h : Toggles db) (hlikes : db'.likes = db.likes)
    (hsubscriptions : db'.user_categories = db.user_categories)
    (husers : ∀ i, db.users.Has i → db'.users.Has i) (hmirror : Mirror db') : Toggles db' where
  likes := hlikes ▸ h.likes
  subscriptions := hsubscriptions ▸ h.subscriptions
  liker := by
    rw [hlikes]
    exact fun l hl => husers _ (h.liker l hl)
  mirror := hmirror

theorem addLike {u p : Id} (h : Toggles db) (hu : db.users.Has u)
    (hnew : ∀ l ∈ db.likes.rows, ¬ (l.val.user_id = u ∧ l.val.picture_id = p)) :
    Toggles (db.addLike u p now) where
  likes := by
    refine Table.nodup_insert h.likes fun hmem => ?_
    obtain ⟨l, hl, hval⟩ := Table.mem_vals.mp hmem
    exact hnew l hl (by simp [hval])
  subscriptions := h.subscriptions
  liker := h.liker.insert hu
  mirror := mirror_addLike h.mirror

theorem destroyLikes {p : Row Like → Bool} (h : Toggles db) : Toggles (db.destroyLikes p) where
  likes := Table.nodup_delete h.likes p
  subscriptions := h.subscriptions
  liker := h.liker.delete p
  mirror := mirror_destroyLikes h.mirror

theorem destroyUser {i : Id} (h : Toggles db) : Toggles (db.destroyUser i now) where
  likes := Table.nodup_delete h.likes _
  subscriptions := h.subscriptions
  liker := by
    refine (h.liker.delete _).delete_target fun l hl => ?_
    simpa using (List.mem_filter.mp hl).2
  mirror := mirror_destroyUser h.mirror

theorem destroyPicture {i : Id} (h : Toggles db) : Toggles (db.destroyPicture i now) where
  likes := Table.nodup_delete h.likes _
  subscriptions := h.subscriptions
  liker := h.liker.delete _
  mirror := mirror_destroyPicture h.mirror

theorem enter (h : Toggles db) (r : Request) : Toggles (r.enter db) := by
  refine Request.enter_rule h (fun u _ row _ => ?_) (fun u _ => ?_) fun db u h => ?_
  · exact h.of_eq rfl rfl (fun _ h => h) (mirror_insert_event h.mirror (by decide))
  · exact h.of_eq rfl rfl (fun _ h => h) (mirror_insert_event h.mirror (by decide))
  · exact h.of_eq rfl rfl (fun i hi => (Table.has_update _).mpr hi) h.mirror

/-- Every action keeps the invariant; a signed-in user is there. -/
theorem outcome {w w' : World} {route : Route} {user : Option (Row User)}
    {res : Except Raised Response} (ho : Outcome now w route user res w') (h : Toggles w.db)
    (huser : ∀ u, user = some u → w.db.users.Has u.id) : Toggles w'.db := by
  -- likes and their events have been shown to go together
  have hmirror : Mirror w'.db := mirror_outcome ho h.mirror
  cases ho with
  | like_created _ _ hnew => exact h.addLike (huser _ rfl) hnew
  | like_destroyed => exact h.destroyLikes
  | subscribed _ _ hnew =>
    refine { h with subscriptions := Table.nodup_insert h.subscriptions fun hmem => ?_ }
    obtain ⟨s, hs, hval⟩ := Table.mem_vals.mp hmem
    exact hnew s hs (by simp [hval])
  | unsubscribed => exact { h with subscriptions := Table.nodup_delete h.subscriptions _ }
  | commented _ _ hdb =>
    rw [hdb] at hmirror ⊢
    exact h.of_eq rfl rfl (fun _ h => h) hmirror
  | cancelled => exact h.destroyUser
  | user_destroyed => exact h.destroyUser
  | picture_destroyed => exact h.destroyPicture
  | quiet _ _ hdb => rwa [hdb]
  | messaged _ _ _ hdb =>
    rw [hdb] at hmirror ⊢
    exact h.of_eq rfl rfl (fun _ h => h) hmirror
  | picture_created _ _ _ hdb =>
    rw [hdb] at hmirror ⊢
    exact h.of_eq rfl rfl (fun _ h => h) hmirror
  | signed_up | facebook_stored =>
    exact h.of_eq rfl rfl (fun _ h => (Table.has_insert _).mpr (.inl h)) hmirror
  | category_destroyed | category_created =>
    exact h.of_eq rfl rfl (fun _ h => h) hmirror
  | signed_in | facebook_tracked =>
    exact h.of_eq rfl rfl (fun _ h => (Table.has_update _).mpr h) hmirror
  | not_signed_up | not_signed_in | signed_out | facebook_known => exact h

end Toggles
/-- Nobody has liked or subscribed to anything yet. -/
def NoToggles (w : World) : Prop := NoLikes w ∧ w.db.user_categories.rows = []

theorem toggles_leaves {w : World} (h : Toggles w.db) (r : Request) : Toggles (r.leaves w).db := by
  unfold Request.leaves
  rcases run_cases r w with ⟨-, hrun⟩ | ⟨-, ho⟩
  · rwa [hrun]
  · refine Toggles.outcome ho (h.enter r) fun u hu => (enter_has r u.id).1.mpr ?_
    exact .intro (Request.mem_of_user hu)

theorem toggles_of_reachable {w : World} (h : (server NoToggles).Reachable w) : Toggles w.db := by
  refine System.Reachable.invariant (P := fun w => Toggles w.db) h ?_ ?_
  · rintro w ⟨hlikes, hsubscriptions⟩
    refine ⟨?_, ?_, ?_, mirror_of_reachable (.init hlikes)⟩
    · simp [Table.vals, hlikes.1]
    · simp [Table.vals, hsubscriptions]
    · simp [Refs, hlikes.1]
  · intro w r w' h hstep
    rw [← server_step.mp hstep]
    exact toggles_leaves h r

/-! ### Reading the tables -/

section Tables

variable {db db' : Database} {pic_id : Option String}

/-- The number that `like` answers with. -/
def Database.all_likes (db : Database) (pic_id : Option String) : ℕ :=
  db.likes.rows.countP fun l => whereInteger pic_id = some l.val.picture_id

/-- The likes of a picture are as many as the users who like it. -/
theorem Toggles.all_likes_eq (h : Toggles db) (pic_id : Option String) :
    db.all_likes pic_id = db.likers pic_id := by
  have hdistinct : ((db.likes.vals.filter fun l => whereInteger pic_id = some l.picture_id).map
      Like.user_id).Nodup := by
    refine (h.likes.filter _).map_on fun l hl l' hl' huser => ?_
    have hp : whereInteger pic_id = some l.picture_id := by simpa using (List.mem_filter.mp hl).2
    have hp' : whereInteger pic_id = some l'.picture_id := by simpa using (List.mem_filter.mp hl').2
    obtain ⟨user, picture⟩ := l
    obtain ⟨user', picture'⟩ := l'
    obtain rfl : picture = picture' := Option.some.inj (hp.symm.trans hp')
    obtain rfl : user = user' := huser
    rfl
  have hcount := Table.length_eq_of_keyed h.liker _ hdistinct
  rw [Table.vals, List.countP_map] at hcount
  exact hcount

/-- By the mirror, the `Like` events are about the likes that are there. -/
theorem Mirror.likedEvents_eq (h : Mirror db) :
    db.likedEvents = db.likes.vals.map fun l => (l.user_id, some l) := by
  have hevents : db.likedEvents = db.likeEvents.map fun k =>
      (k.2, (db.likes.find? k.1).map Row.val) := by
    simp [Database.likedEvents, Database.likeEvents, Function.comp_def]
  rw [hevents, h, Database.likeKeys, Table.vals, List.map_map, List.map_map]
  refine List.map_congr_left fun l hl => ?_
  have hfind : db.likes.find? l.id = some l := Table.find?_eq_some_iff.mpr ⟨hl, rfl⟩
  simp [hfind]

/-- The likes and the subscriptions are all there is to compare. -/
theorem SameToggles.of_vals (h : Toggles db) (h' : Toggles db')
    (hlikes : db'.likes.vals.Perm db.likes.vals)
    (hsubscriptions : db'.user_categories.vals.Perm db.user_categories.vals) :
    SameToggles db db' where
  likes := hlikes
  events := by
    rw [h.mirror.likedEvents_eq, h'.mirror.likedEvents_eq]
    exact hlikes.map _
  subscriptions := hsubscriptions

end Tables

/-! ### One action -/

section Actions

variable {w : World} {u : Row User} {now : Time}

/-- `like` when there is no like yet. The validation finds none either. -/
theorem exec_like_set {pic_id : Option String}
    (hstatus : PicturesController.status w.db u pic_id = false) :
    Action.exec (PicturesController.like u pic_id none now) w = match assignInteger pic_id with
      | none => (.ok (.like 1 (w.db.all_likes pic_id)), w)
      | some p =>
        if fitsInteger p then
          (.ok (.like 1 ((w.db.addLike u.id p now).all_likes pic_id)),
            { w with db := w.db.addLike u.id p now })
        else (.error ⟨.StatementInvalid, false⟩, w) := by
  simp only [PicturesController.like, Action.exec_bind, exec_database, hstatus, Option.isSome_none,
    Bool.false_eq_true, if_false, exec_set_like]
  cases hp : assignInteger pic_id with
  | none => simp only [Action.exec_pure, Database.all_likes]
  | some p =>
    have hnone : (w.db.likes.rows.any fun l => l.val.user_id = u.id && l.val.picture_id = p) =
        false := by
      rw [← hstatus, PicturesController.status, whereInteger_of_assignInteger hp]
      simp [eq_comm]
    simp only [hnone, Bool.false_eq_true, if_false]
    split_ifs <;> simp only [Action.exec_pure, Database.all_likes]

/-- `like` when there is one. -/
theorem exec_like_unset {s : String}
    (hstatus : PicturesController.status w.db u (some s) = true) :
    Action.exec (PicturesController.like u (some s) none now) w = match parseInteger s with
      | none => (.error ⟨.StatementInvalid, false⟩, w)
      | some p =>
        let db := w.db.destroyLikes fun l => l.val.user_id = u.id && l.val.picture_id = p
        (.ok (.like (3 / 10) (db.all_likes (some s))), { w with db := db }) := by
  simp only [PicturesController.like, Action.exec_bind, exec_database, hstatus, Option.isSome_none,
    Bool.false_eq_true, if_false, if_true, PicturesController.unset_like, Option.map_some]
  cases parseInteger s with
  | none => simp only [exec_raise]
  | some p => simp only [Action.exec_bind, exec_write, Action.exec_pure, Database.all_likes]

theorem exec_like_check (pic_id : Option String) (check : String) :
    Action.exec (PicturesController.like u pic_id (some check) now) w =
      (.ok (.like (if PicturesController.status w.db u pic_id then 1 else 3 / 10)
        (w.db.all_likes pic_id)), w) := by
  simp only [PicturesController.like, Action.exec_bind, exec_database, Option.isSome_some, if_true,
    Action.exec_pure, Database.all_likes]

/-- `subscribe` when there is no subscription yet. The validation finds none either. -/
theorem exec_subscribe_set {cat_id : Option String}
    (hsub : CategoriesController.current_sub w.db u cat_id = false) :
    Action.exec (CategoriesController.subscribe u cat_id) w = match assignInteger cat_id with
      | none => (.ok (.subscribe (some 1)), w)
      | some c =>
        if fitsInteger c then
          (.ok (.subscribe (some 1)),
            { w with
              db := { w.db with user_categories := w.db.user_categories.insert ⟨u.id, c⟩ } })
        else (.error ⟨.StatementInvalid, false⟩, w) := by
  simp only [CategoriesController.subscribe, Action.exec_bind, exec_database, hsub,
    Bool.false_eq_true, if_false, exec_userCategory_create]
  cases hc : assignInteger cat_id with
  | none => simp only [Action.exec_pure]
  | some c =>
    have hnone : (w.db.user_categories.rows.any fun s =>
        s.val.user_id = u.id && s.val.category_id = c) = false := by
      rw [← hsub, CategoriesController.current_sub, whereInteger_of_assignInteger hc]
      simp [eq_comm]
    simp only [hnone, Bool.false_eq_true, if_false]
    split_ifs <;> simp only [Action.exec_pure]

/-- `subscribe` when there is one. -/
theorem exec_subscribe_unset {cat_id : Option String}
    (hsub : CategoriesController.current_sub w.db u cat_id = true) :
    Action.exec (CategoriesController.subscribe u cat_id) w =
      (.ok (.subscribe none),
        { w with
          db := { w.db with
            user_categories := w.db.user_categories.delete fun s =>
              s.val.user_id = u.id && whereInteger cat_id = some s.val.category_id } }) := by
  simp only [CategoriesController.subscribe, Action.exec_bind, exec_database, hsub, if_true,
    exec_write, Action.exec_pure]

end Actions

/-! ### One request -/

/-- The users and the URLs a later request will ask for. -/
structure SameVisitors (db db' : Database) : Prop where
  users : ∀ i, db'.users.Has i ↔ db.users.Has i
  urls : ∀ url, db'.canTrack url = db.canTrack url

section Requests

variable {w : World} {i : Id} {url : String} {now : Time}

theorem enter_toggles (r : Request) (db : Database) :
    (r.enter db).likes = db.likes ∧ (r.enter db).user_categories = db.user_categories :=
  Request.enter_rule
    (P := fun db' => db'.likes = db.likes ∧ db'.user_categories = db.user_categories)
    ⟨rfl, rfl⟩ (fun _ _ _ _ => ⟨rfl, rfl⟩) (fun _ _ => ⟨rfl, rfl⟩) fun _ _ h => h

/-- Once a URL is stored, no other URL has become known. -/
theorem canTrack_track {db : Database} (h : db.canTrack url) (u : Id) (url' : String) :
    (db.track url u now).canTrack url' = db.canTrack url' := by
  rcases Option.eq_none_or_eq_some (db.url? url) with hurl | ⟨row, hurl⟩
  · have hfits : fitsString url := by simpa [Database.canTrack, hurl] using h
    by_cases hsame : url = url'
    · subst hsame
      simp [Database.canTrack, hfits]
    · have hstored : (db.track url u now).urls = db.urls.insert ⟨url⟩ := by
        simp [Database.track, hurl]
      have hother : (db.track url u now).url? url' = db.url? url' := by
        rw [Database.url?, hstored]
        simp [Database.url?, List.find?_append, hsame]
      rw [Database.canTrack, hother, Database.canTrack]
  · have hsame : (db.track url u now).urls = db.urls := by simp [Database.track, hurl]
    rw [Database.canTrack, Database.canTrack, Database.url?, hsame, Database.url?]

theorem sameVisitors_enter {r : Request} {db : Database} (h : r.trackable db) :
    SameVisitors db (r.enter db) where
  users i := (enter_has r i).1
  urls url := by
    have htracked : (r.tracked db).canTrack url = db.canTrack url := by
      unfold Request.tracked
      unfold Request.trackable at h
      split at h
      · exact canTrack_track h _ url
      · rfl
    rw [← htracked]
    unfold Request.enter
    split <;> rfl

/-- Likes and subscriptions are no matter of users and URLs. -/
theorem sameVisitors_leaves {r : Request} (hroute : (∃ p c, r.route = .pictures_like p c) ∨
    ∃ c, r.route = .categories_subscribe c) (w : World) : SameVisitors w.db (r.leaves w).db := by
  unfold Request.leaves
  rcases run_cases r w with ⟨-, hrun⟩ | ⟨htrack, ho⟩
  · rw [hrun]
    exact ⟨fun _ => .rfl, fun _ => rfl⟩
  have hframe : ∀ user res w', Outcome r.now { w with db := r.enter w.db } r.route user res w' →
      w'.db.users = (r.enter w.db).users ∧ w'.db.urls = (r.enter w.db).urls := by
    intro user res w' ho
    rcases hroute with ⟨p, c, hroute⟩ | ⟨c, hroute⟩
    all_goals
      rw [hroute] at ho
      cases ho with
      | picture_created _ _ _ hdb => rw [hdb]; exact ⟨rfl, rfl⟩
      | quiet _ _ hdb => rw [hdb]; exact ⟨rfl, rfl⟩
      | _ => exact ⟨rfl, rfl⟩
  obtain ⟨husers, hurls⟩ := hframe _ _ _ ho
  obtain ⟨henter, henter'⟩ := sameVisitors_enter htrack
  refine ⟨fun i => by rw [husers]; exact henter i, fun url => ?_⟩
  rw [← henter' url, Database.canTrack, Database.canTrack, Database.url?, Database.url?, hurls]

/-- Behind the filters a like request is its action. -/
theorem exec_likes {u : Row User} (hu : w.db.users.find? i = some u) (h : w.db.canTrack url)
    (pic_id check : Option String) :
    Action.exec (Request.likes i url pic_id check now).run w =
      Action.exec (PicturesController.like u pic_id check now)
        { w with db := (Request.likes i url pic_id check now).enter w.db } := by
  have huser : (Request.likes i url pic_id check now).user w.db = some u := hu
  have htrack : (Request.likes i url pic_id check now).trackable w.db = true := by
    rw [Request.trackable, huser]
    exact h
  rw [exec_run, if_pos htrack, huser]
  simp [Request.likes, Route.run, authenticate]

/-- Behind the filters a subscribe request is its action. -/
theorem exec_subscribes {u : Row User} (hu : w.db.users.find? i = some u) (h : w.db.canTrack url)
    (cat_id : Option String) :
    Action.exec (Request.subscribes i url cat_id now).run w =
      Action.exec (CategoriesController.subscribe u cat_id)
        { w with db := (Request.subscribes i url cat_id now).enter w.db } := by
  have huser : (Request.subscribes i url cat_id now).user w.db = some u := hu
  have htrack : (Request.subscribes i url cat_id now).trackable w.db = true := by
    rw [Request.trackable, huser]
    exact h
  rw [exec_run, if_pos htrack, huser]
  simp [Request.subscribes, Route.run, authenticate]

end Requests

/-! ### The law of liking -/

section Likes

variable {w : World} {i : Id} {url url' : String} {s : String} {p : Id} {pic_id : Option String}

theorem status_iff {db : Database} {u : Row User} :
    PicturesController.status db u pic_id = true ↔ db.HasLike u.id pic_id := by
  simp [PicturesController.status, Database.HasLike, Table.vals]

theorem hasLike_iff {db : Database} (hp : whereInteger pic_id = some p) :
    db.HasLike i pic_id ↔ (⟨i, p⟩ : Like) ∈ db.likes.vals := by
  constructor
  · rintro ⟨⟨user, picture⟩, hl, rfl, hpicture⟩
    obtain rfl : p = picture := Option.some.inj (hp.symm.trans hpicture)
    exact hl
  · exact fun hl => ⟨_, hl, rfl, hp⟩

/-- On a literal that PostgreSQL reads, a like request toggles the like. -/
theorem likes_toggle (hi : w.db.users.Has i) (h : w.db.canTrack url) (hp : parseInteger s = some p)
    (now : Time) :
    let r := Request.likes i url (some s) none now
    r.result w = .ok (.like (if (⟨i, p⟩ : Like) ∈ w.db.likes.vals then 3 / 10 else 1)
        ((r.leaves w).db.all_likes (some s))) ∧
      (r.leaves w).db.likes = w.db.likes.toggle ⟨i, p⟩ ∧
      (r.leaves w).db.user_categories = w.db.user_categories := by
  intro r
  obtain ⟨u, hu⟩ := Table.has_iff_exists_find?.mp hi
  obtain rfl : u.id = i := (Table.find?_eq_some_iff.mp hu).2
  obtain ⟨hlikes, hsubscriptions⟩ := enter_toggles r w.db
  -- on a literal that PostgreSQL reads, `to_i` and the cast agree with it
  have hwhere : whereInteger (some s) = some p := congrArg some (to_i_of_parseInteger hp)
  have hstatus : PicturesController.status (r.enter w.db) u (some s) = true ↔
      (⟨u.id, p⟩ : Like) ∈ w.db.likes.vals := by
    rw [status_iff, hasLike_iff hwhere, hlikes]
  unfold Request.result Request.leaves
  rw [exec_likes hu h]
  by_cases hmem : (⟨u.id, p⟩ : Like) ∈ w.db.likes.vals
  · rw [exec_like_unset (hstatus.mpr hmem), hp, Table.toggle_of_mem hmem, if_pos hmem]
    refine ⟨rfl, ?_, hsubscriptions⟩
    -- removing the like by its columns is removing it by its value
    have hpred : (fun l : Row Like => decide (l.val = ⟨u.id, p⟩)) =
        fun l => l.val.user_id = u.id && l.val.picture_id = p := by
      funext ⟨_, user, picture⟩
      simp
    rw [← hlikes, hpred]
    rfl
  · rw [exec_like_set (Bool.eq_false_iff.mpr (mt hstatus.mp hmem)),
      assignInteger_of_parseInteger hp, Table.toggle_of_notMem hmem, if_neg hmem]
    simp only [fitsInteger_of_parseInteger hp, if_true]
    exact ⟨trivial, congrArg (fun t : Table Like => t.insert ⟨u.id, p⟩) hlikes, hsubscriptions⟩

theorem likeLaw_of_parses (h : Toggles w.db) (hi : w.db.users.Has i) (hurl : w.db.canTrack url)
    (hurl' : w.db.canTrack url') (hp : parseInteger s = some p) :
    LikeLaw w i url url' (some s) where
  undone now now' := by
    let r := Request.likes i url (some s) none now
    obtain ⟨hresult, hlikes, hsubscriptions⟩ := likes_toggle hi hurl hp now
    -- the first request leaves the user and the URL to the second
    obtain ⟨husers, hurls⟩ := sameVisitors_leaves (r := r) (.inl ⟨_, _, rfl⟩) w
    obtain ⟨hresult', hlikes', hsubscriptions'⟩ :=
      likes_toggle (w := r.leaves w) ((husers i).mpr hi) ((hurls url').trans hurl') hp now'
    refine ⟨⟨_, hresult⟩, ⟨_, hresult'⟩,
      .of_vals h (toggles_leaves (toggles_leaves h r) _) ?_ ?_⟩
    · rw [hlikes', hlikes]
      exact Table.toggle_toggle h.likes
    · rw [hsubscriptions', hsubscriptions]
  honest check now like all_likes hanswer := by
    have hwhere : whereInteger (some s) = some p := congrArg some (to_i_of_parseInteger hp)
    -- the answer counts likes, the law counts users: one like for each
    have hafter := toggles_leaves h (.likes i url (some s) check now)
    rw [hasLike_iff hwhere, ← hafter.all_likes_eq]
    cases check with
    | none =>
      obtain ⟨hresult, hlikes, -⟩ := likes_toggle hi hurl hp now
      rw [hresult] at hanswer
      obtain ⟨rfl, rfl⟩ := Response.like.inj (Except.ok.inj hanswer)
      rw [hlikes, Table.mem_toggle]
      refine ⟨?_, rfl⟩
      split_ifs with hmem
      · simp only [hmem, not_true_eq_false, iff_false]
        norm_num
      · simp [hmem]
    | some check =>
      obtain ⟨u, hu⟩ := Table.has_iff_exists_find?.mp hi
      obtain rfl : u.id = i := (Table.find?_eq_some_iff.mp hu).2
      unfold Request.result Request.leaves at *
      rw [exec_likes hu hurl, exec_like_check] at *
      obtain ⟨rfl, rfl⟩ := Response.like.inj (Except.ok.inj hanswer)
      refine ⟨?_, rfl⟩
      rw [← hasLike_iff hwhere, ← status_iff]
      split_ifs with hstatus
      · simp [hstatus]
      · simp only [hstatus]
        norm_num
  check check now := by
    obtain ⟨u, hu⟩ := Table.has_iff_exists_find?.mp hi
    have hafter := toggles_leaves h (.likes i url (some s) (some check) now)
    have hlikes : ((Request.likes i url (some s) (some check) now).leaves w).db.likes =
        w.db.likes := by
      rw [Request.leaves, exec_likes hu hurl, exec_like_check]
      exact (enter_toggles _ w.db).1
    refine ⟨hlikes, ?_⟩
    rw [hafter.mirror.likedEvents_eq, h.mirror.likedEvents_eq, hlikes]

/-- A tracked request that completes had a URL the log could store. -/
theorem canTrack_of_ok {r : Request} {a : Response} (hi : w.db.users.Has i)
    (hsession : r.session = some i) (htracked : r.route.tracked = true)
    (h : r.result w = .ok a) : w.db.canTrack r.url := by
  obtain ⟨u, hu⟩ := Table.has_iff_exists_find?.mp hi
  have huser : r.user w.db = some u := by
    rw [Request.user, hsession]
    exact hu
  have htrackable : r.trackable w.db = w.db.canTrack r.url := by
    rw [Request.trackable, htracked, huser]
  by_contra hurl
  rw [Request.result, exec_run, htrackable, if_neg hurl] at h
  cases h

/-- A parameter for which the law holds is a literal that PostgreSQL reads. -/
theorem parses_of_likeLaw (hi : w.db.users.Has i) (h : LikeLaw w i url url' pic_id) :
    (pic_id.bind parseInteger).isSome := by
  obtain ⟨⟨a, hfirst⟩, ⟨a', hsecond⟩, -⟩ := h.undone 0 0
  by_contra hparse
  let r := Request.likes i url pic_id none 0
  obtain ⟨u, hu⟩ := Table.has_iff_exists_find?.mp hi
  obtain rfl : u.id = i := (Table.find?_eq_some_iff.mp hu).2
  have hurl : w.db.canTrack url := canTrack_of_ok hi rfl rfl hfirst
  have hrun : Action.exec r.run w = Action.exec (PicturesController.like u pic_id none 0)
      { w with db := r.enter w.db } := exec_likes hu hurl pic_id none
  -- there is nothing that could be removed by such a literal
  have hunset : ∀ (v : Row User) (w' : World), PicturesController.status w'.db v pic_id = true →
      Action.exec (PicturesController.like v pic_id none 0) w' =
        (.error ⟨.StatementInvalid, false⟩, w') := by
    intro v w' hstatus
    cases pic_id with
    | none => simp [PicturesController.status, whereInteger] at hstatus
    | some s =>
      have hnone : parseInteger s = none := by simpa using hparse
      rw [exec_like_unset hstatus, hnone]
  by_cases hstatus : PicturesController.status (r.enter w.db) u pic_id = true
  · rw [Request.result, hrun, hunset u _ hstatus] at hfirst
    cases hfirst
  have hset := @exec_like_set { w with db := r.enter w.db } u 0 pic_id
    (Bool.eq_false_iff.mpr hstatus)
  cases hp : assignInteger pic_id with
  | none =>
    -- refused by the validation, and answered with a 1
    rw [hp] at hset
    have hresult : r.result w = .ok (.like 1 ((r.enter w.db).all_likes pic_id)) := by
      rw [Request.result, hrun, hset]
    have hleaves : (r.leaves w).db = r.enter w.db := by rw [Request.leaves, hrun, hset]
    have hliked := (h.honest none 0 _ _ hresult).1.mp rfl
    rw [hleaves] at hliked
    exact hstatus (status_iff.mpr hliked)
  | some p =>
    rw [hp] at hset
    by_cases hfits : fitsInteger p
    · -- stored, and not removed again
      simp only [hfits, if_true] at hset
      let r' := Request.likes u.id url' pic_id none 0
      have hleaves : (r.leaves w).db = (r.enter w.db).addLike u.id p 0 := by
        rw [Request.leaves, hrun, hset]
      have hi' : (r.leaves w).db.users.Has u.id :=
        ((sameVisitors_leaves (r := r) (.inl ⟨_, _, rfl⟩) w).users u.id).mpr hi
      have hurl' : (r.leaves w).db.canTrack url' := canTrack_of_ok hi' rfl rfl hsecond
      obtain ⟨v, hv⟩ := Table.has_iff_exists_find?.mp hi'
      have hid : v.id = u.id := (Table.find?_eq_some_iff.mp hv).2
      have hstatus' : PicturesController.status (r'.enter (r.leaves w).db) v pic_id = true := by
        rw [status_iff, hid, hasLike_iff (whereInteger_of_assignInteger hp),
          (enter_toggles r' _).1, hleaves]
        simp [Database.addLike]
      rw [Request.result, exec_likes hv hurl', hunset v _ hstatus'] at hsecond
      cases hsecond
    -- refused by PostgreSQL
    · simp only [hfits, Bool.false_eq_true, if_false] at hset
      rw [Request.result, hrun, hset] at hfirst
      cases hfirst

/-- The law of liking holds on the literals that PostgreSQL reads, where the requests
can be logged, and nowhere else. -/
theorem likeLaw_iff (h : Toggles w.db) (hi : w.db.users.Has i) :
    LikeLaw w i url url' pic_id ↔
      (pic_id.bind parseInteger).isSome ∧ w.db.canTrack url ∧ w.db.canTrack url' := by
  constructor
  · intro hlaw
    obtain ⟨⟨a, hfirst⟩, ⟨a', hsecond⟩, -⟩ := hlaw.undone 0 0
    let r := Request.likes i url pic_id none 0
    obtain ⟨husers, hurls⟩ := sameVisitors_leaves (r := r) (.inl ⟨_, _, rfl⟩) w
    have hurl' := canTrack_of_ok ((husers i).mpr hi) rfl rfl hsecond
    exact ⟨parses_of_likeLaw hi hlaw, canTrack_of_ok hi rfl rfl hfirst,
      (hurls url').symm.trans hurl'⟩
  · rintro ⟨hparse, hurl, hurl'⟩
    obtain ⟨p, hp⟩ := Option.isSome_iff_exists.mp hparse
    obtain ⟨s, rfl, hp⟩ := Option.bind_eq_some_iff.mp hp
    exact likeLaw_of_parses h hi hurl hurl' hp

end Likes

/-! ### The law of subscribing -/

section Subscriptions

variable {w : World} {i : Id} {url url' : String} {c : Id} {cat_id : Option String}

theorem current_sub_iff {db : Database} {u : Row User} :
    CategoriesController.current_sub db u cat_id = true ↔ db.HasSubscription u.id cat_id := by
  simp [CategoriesController.current_sub, Database.HasSubscription, Table.vals]

theorem hasSubscription_iff {db : Database} (hc : whereInteger cat_id = some c) :
    db.HasSubscription i cat_id ↔ (⟨i, c⟩ : UserCategory) ∈ db.user_categories.vals := by
  constructor
  · rintro ⟨⟨user, category⟩, hs, rfl, hcategory⟩
    obtain rfl : c = category := Option.some.inj (hc.symm.trans hcategory)
    exact hs
  · exact fun hs => ⟨_, hs, rfl, hc⟩

/-- Where something can be stored, a subscribe request toggles the subscription. -/
theorem subscribes_toggle (hi : w.db.users.Has i) (h : w.db.canTrack url)
    (hc : assignInteger cat_id = some c) (hfits : fitsInteger c) (now : Time) :
    let r := Request.subscribes i url cat_id now
    r.result w = .ok (.subscribe
        (if (⟨i, c⟩ : UserCategory) ∈ w.db.user_categories.vals then none else some 1)) ∧
      (r.leaves w).db.user_categories = w.db.user_categories.toggle ⟨i, c⟩ ∧
      (r.leaves w).db.likes = w.db.likes := by
  intro r
  obtain ⟨u, hu⟩ := Table.has_iff_exists_find?.mp hi
  obtain rfl : u.id = i := (Table.find?_eq_some_iff.mp hu).2
  obtain ⟨hlikes, hsubscriptions⟩ := enter_toggles r w.db
  -- the parameter is looked up as it is stored
  have hwhere := whereInteger_of_assignInteger hc
  have hsub : CategoriesController.current_sub (r.enter w.db) u cat_id = true ↔
      (⟨u.id, c⟩ : UserCategory) ∈ w.db.user_categories.vals := by
    rw [current_sub_iff, hasSubscription_iff hwhere, hsubscriptions]
  unfold Request.result Request.leaves
  rw [exec_subscribes hu h]
  by_cases hmem : (⟨u.id, c⟩ : UserCategory) ∈ w.db.user_categories.vals
  · rw [exec_subscribe_unset (hsub.mpr hmem), Table.toggle_of_mem hmem, if_pos hmem]
    refine ⟨rfl, ?_, hlikes⟩
    have hpred : (fun s : Row UserCategory => decide (s.val = ⟨u.id, c⟩)) =
        fun s => s.val.user_id = u.id && whereInteger cat_id = some s.val.category_id := by
      funext ⟨_, user, category⟩
      simp [hwhere, eq_comm]
    rw [← hsubscriptions, hpred]
  · rw [exec_subscribe_set (Bool.eq_false_iff.mpr (mt hsub.mp hmem)), hc,
      Table.toggle_of_notMem hmem, if_neg hmem]
    simp only [hfits, if_true]
    exact ⟨trivial, congrArg (fun t : Table UserCategory => t.insert ⟨u.id, c⟩) hsubscriptions,
      hlikes⟩

theorem subscribeLaw_of_assigns (h : Toggles w.db) (hi : w.db.users.Has i)
    (hurl : w.db.canTrack url) (hurl' : w.db.canTrack url') (hc : assignInteger cat_id = some c)
    (hfits : fitsInteger c) : SubscribeLaw w i url url' cat_id where
  undone now now' := by
    let r := Request.subscribes i url cat_id now
    obtain ⟨hresult, hsubscriptions, hlikes⟩ := subscribes_toggle hi hurl hc hfits now
    obtain ⟨husers, hurls⟩ := sameVisitors_leaves (r := r) (.inr ⟨_, rfl⟩) w
    obtain ⟨hresult', hsubscriptions', hlikes'⟩ := subscribes_toggle (w := r.leaves w)
      ((husers i).mpr hi) ((hurls url').trans hurl') hc hfits now'
    refine ⟨⟨_, hresult⟩, ⟨_, hresult'⟩,
      .of_vals h (toggles_leaves (toggles_leaves h r) _) ?_ ?_⟩
    · rw [hlikes', hlikes]
    · rw [hsubscriptions', hsubscriptions]
      exact Table.toggle_toggle h.subscriptions
  honest now res hanswer := by
    obtain ⟨hresult, hsubscriptions, -⟩ := subscribes_toggle hi hurl hc hfits now
    rw [hresult] at hanswer
    obtain rfl := Response.subscribe.inj (Except.ok.inj hanswer)
    rw [hasSubscription_iff (whereInteger_of_assignInteger hc), hsubscriptions, Table.mem_toggle]
    split_ifs with hmem <;> simp [hmem]

/-- A parameter for which the law holds can be stored. -/
theorem assigns_of_subscribeLaw (hi : w.db.users.Has i) (h : SubscribeLaw w i url url' cat_id) :
    (assignInteger cat_id).any fitsInteger := by
  obtain ⟨⟨a, hfirst⟩, ⟨a', hsecond⟩, hsame⟩ := h.undone 0 0
  by_contra hassign
  let r := Request.subscribes i url cat_id 0
  obtain ⟨u, hu⟩ := Table.has_iff_exists_find?.mp hi
  obtain rfl : u.id = i := (Table.find?_eq_some_iff.mp hu).2
  have hurl : w.db.canTrack url := canTrack_of_ok hi rfl rfl hfirst
  have hrun : Action.exec r.run w = Action.exec (CategoriesController.subscribe u cat_id)
      { w with db := r.enter w.db } := exec_subscribes hu hurl cat_id
  -- nothing is ever stored for such a parameter
  have hset : ∀ (v : Row User) (w' : World),
      CategoriesController.current_sub w'.db v cat_id = false →
        Action.exec (CategoriesController.subscribe v cat_id) w' = (.ok (.subscribe (some 1)), w') ∨
          Action.exec (CategoriesController.subscribe v cat_id) w' =
            (.error ⟨.StatementInvalid, false⟩, w') := by
    intro v w' hsub
    rw [exec_subscribe_set hsub]
    cases hc : assignInteger cat_id with
    | none => exact .inl rfl
    | some c =>
      have hfits : ¬ fitsInteger c := by simpa [hc] using hassign
      exact .inr (if_neg hfits)
  rcases Bool.eq_false_or_eq_true (CategoriesController.current_sub (r.enter w.db) u cat_id)
    with hsub | hsub
  · -- the first request has removed what the second does not store again
    let r' := Request.subscribes u.id url' cat_id 0
    have hleaves : (r.leaves w).db.user_categories = (r.enter w.db).user_categories.delete fun s =>
        s.val.user_id = u.id && whereInteger cat_id = some s.val.category_id := by
      rw [Request.leaves, hrun, exec_subscribe_unset hsub]
    have hi' : (r.leaves w).db.users.Has u.id :=
      ((sameVisitors_leaves (r := r) (.inr ⟨_, rfl⟩) w).users u.id).mpr hi
    have hurl' : (r.leaves w).db.canTrack url' := canTrack_of_ok hi' rfl rfl hsecond
    obtain ⟨v, hv⟩ := Table.has_iff_exists_find?.mp hi'
    have hid : v.id = u.id := (Table.find?_eq_some_iff.mp hv).2
    have hgone : ¬ (r'.enter (r.leaves w).db).HasSubscription u.id cat_id := by
      rintro ⟨s, hs, huser, hcategory⟩
      rw [(enter_toggles r' _).2, hleaves] at hs
      obtain ⟨row, hrow, rfl⟩ := Table.mem_vals.mp hs
      have hkept := (List.mem_filter.mp hrow).2
      simp [huser, hcategory] at hkept
    have hrun' : Action.exec r'.run (r.leaves w) =
        Action.exec (CategoriesController.subscribe v cat_id)
          { (r.leaves w) with db := r'.enter (r.leaves w).db } := exec_subscribes hv hurl' cat_id
    have hsub' : CategoriesController.current_sub (r'.enter (r.leaves w).db) v cat_id = false := by
      rw [Bool.eq_false_iff, Ne, current_sub_iff, hid]
      exact hgone
    rcases hset v { (r.leaves w) with db := r'.enter (r.leaves w).db } hsub' with hok | herror
    · obtain ⟨s, hs, huser, hcategory⟩ := current_sub_iff.mp hsub
      rw [(enter_toggles r _).2, ← hsame.subscriptions.mem_iff, Request.leaves, hrun', hok] at hs
      exact hgone ⟨s, hs, huser, hcategory⟩
    · rw [Request.result, hrun', herror] at hsecond
      cases hsecond
  · rcases hset u { w with db := r.enter w.db } hsub with hok | herror
    · have hresult : r.result w = .ok (.subscribe (some 1)) := by rw [Request.result, hrun, hok]
      have hleaves : (r.leaves w).db = r.enter w.db := by rw [Request.leaves, hrun, hok]
      have hsubscribed := (h.honest 0 _ hresult).mp rfl
      rw [hleaves, ← current_sub_iff, hsub] at hsubscribed
      cases hsubscribed
    · rw [Request.result, hrun, herror] at hfirst
      cases hfirst

/-- The law of subscribing holds on the parameters that can be stored, where the
requests can be logged, and nowhere else. -/
theorem subscribeLaw_iff (h : Toggles w.db) (hi : w.db.users.Has i) :
    SubscribeLaw w i url url' cat_id ↔
      (assignInteger cat_id).any fitsInteger ∧ w.db.canTrack url ∧ w.db.canTrack url' := by
  constructor
  · intro hlaw
    obtain ⟨⟨a, hfirst⟩, ⟨a', hsecond⟩, -⟩ := hlaw.undone 0 0
    let r := Request.subscribes i url cat_id 0
    obtain ⟨husers, hurls⟩ := sameVisitors_leaves (r := r) (.inr ⟨_, rfl⟩) w
    have hurl' := canTrack_of_ok ((husers i).mpr hi) rfl rfl hsecond
    exact ⟨assigns_of_subscribeLaw hi hlaw, canTrack_of_ok hi rfl rfl hfirst,
      (hurls url').symm.trans hurl'⟩
  · rintro ⟨hassign, hurl, hurl'⟩
    obtain ⟨c, hc, hfits⟩ := (Option.any_eq_true _ _).mp hassign
    exact subscribeLaw_of_assigns h hi hurl hurl' hc hfits

end Subscriptions

/-- In every state reached by requests handled one at a time, for every user and every
parameter: the toggle laws hold exactly on the literals that PostgreSQL reads, for
`like`, and on what can be stored, for `subscribe`, as long as the requests themselves
can be logged. -/
theorem toggle_law (w : World) (h : (server NoToggles).Reachable w) (i : Id)
    (hi : w.db.users.Has i) (url url' : String) :
    (∀ pic_id, LikeLaw w i url url' pic_id ↔
      (pic_id.bind parseInteger).isSome ∧ w.db.canTrack url ∧ w.db.canTrack url') ∧
    ∀ cat_id, SubscribeLaw w i url url' cat_id ↔
      (assignInteger cat_id).any fitsInteger ∧ w.db.canTrack url ∧ w.db.canTrack url' :=
  ⟨fun _ => likeLaw_iff (toggles_of_reachable h) hi,
    fun _ => subscribeLaw_iff (toggles_of_reachable h) hi⟩

theorem noToggles_sample : NoToggles (.ofDatabase .sample) := by
  refine ⟨⟨rfl, ?_⟩, rfl⟩
  simp [World.ofDatabase, Database.sample, Database.empty]

/-- The page's own ids. -/
theorem toggle_law_page :
    LikeLaw (.ofDatabase .sample) 1 "/pictures/like" "/pictures/like" (some "1") ∧
      SubscribeLaw (.ofDatabase .sample) 1 "/categories/subscribe" "/categories/subscribe"
        (some "1") := by
  have hreach : (server NoToggles).Reachable (.ofDatabase .sample) := .init noToggles_sample
  exact ⟨((toggle_law _ hreach 1 (by decide) _ _).1 _).mpr (by decide),
    ((toggle_law _ hreach 1 (by decide) _ _).2 _).mpr (by decide)⟩

/-- A request without an id is answered with a 1; `12 pictures` is liked once and
cannot be unliked. -/
theorem unread_ids_break_toggles :
    (server NoToggles).Reachable (.ofDatabase .sample) ∧
      ¬ LikeLaw (.ofDatabase .sample) 1 "/pictures/like" "/pictures/like" none ∧
      ¬ LikeLaw (.ofDatabase .sample) 1 "/pictures/like" "/pictures/like" (some "12 pictures") ∧
      ¬ SubscribeLaw (.ofDatabase .sample) 1 "/categories/subscribe" "/categories/subscribe"
        none := by
  have htoggles : Toggles (World.ofDatabase .sample).db :=
    toggles_of_reachable (.init noToggles_sample)
  refine ⟨.init noToggles_sample, ?_, ?_, ?_⟩
  · rw [likeLaw_iff htoggles (by decide)]
    decide
  · rw [likeLaw_iff htoggles (by decide)]
    decide
  · rw [subscribeLaw_iff htoggles (by decide)]
    decide

end Gallery
