import Gallery.Controllers.Server
import Gallery.Semantics.Relational
import Gallery.Store.Related

/-!
# Requests in worlds that look alike

Two worlds look alike to a user `c` when they differ at most in the messages, in
the OAuth columns of other users and in what has been pushed and mailed. A
request that sends no chat message handles them alike: it ends the same way,
triggers the same pushes and leaves worlds that look alike.

## Main definitions

* `User.Alike`, `Database.Alike`, `World.Alike` — what may differ
* `World.InStep` — worlds that look alike, and pushes that are the same from some point on

## Main results

* `coupled_route` — what two runs of one action have in common
* `alike_enter` — what the filters leave
-/

namespace Gallery

open Store Rails App Semantics Action

/-- Two rows of one user that differ at most in the OAuth columns, and not at all if
the user is `c`. -/
structure User.Alike (c : Id) (u u' : Row User) : Prop where
  rest : u' = ⟨u.id, { u.val with
    oauth_token := u'.val.oauth_token
    oauth_expires_at := u'.val.oauth_expires_at }⟩
  own : u.id = c → u' = u

namespace User.Alike

variable {c : Id} {u u' : Row User}

theorem refl (u : Row User) : User.Alike c u u := ⟨rfl, fun _ => rfl⟩

theorem id_eq (h : User.Alike c u u') : u.id = u'.id := (congrArg Row.id h.rest).symm

theorem email (h : User.Alike c u u') : u.val.email = u'.val.email :=
  (congrArg (fun r : Row User => r.val.email) h.rest).symm

theorem uid (h : User.Alike c u u') : u.val.uid = u'.val.uid :=
  (congrArg (fun r : Row User => r.val.uid) h.rest).symm

end User.Alike

/-- Databases that differ at most in the messages and in the OAuth columns of users
other than `c`. -/
structure Database.Alike (c : Id) (db db' : Database) : Prop where
  users : db.users.Related (User.Alike c) db'.users
  rest : db' = { db with users := db'.users, messages := db'.messages }

/-- Worlds that differ at most in such columns and in what has been pushed and mailed. -/
structure World.Alike (c : Id) (w w' : World) : Prop where
  db : w.db.Alike c w'.db
  signed : w'.signed = w.signed

/-- Worlds that look alike, in which the same has been pushed after `P` and `P'`. -/
structure World.InStep (c : Id) (P P' : List Push) (w w' : World) : Prop where
  alike : w.Alike c w'
  pushes : ∃ new, w.pushes = P ++ new ∧ w'.pushes = P' ++ new

section

variable {c : Id} {P P' : List Push} {α β : Type} {Q : α → β → Prop}

/-- An action that ends the same way and pushes the same in worlds that look alike. -/
abbrev Discreet (c : Id) (P P' : List Push) {α : Type} (m : App α) : Prop :=
  Coupled (World.InStep c P P') Eq m m

theorem Database.Alike.refl (db : Database) : db.Alike c db :=
  ⟨.refl User.Alike.refl _, rfl⟩

/-- A write looks alike when it does on a database with other users and messages. -/
theorem Database.Alike.write {f : Database → Database}
    (hf : ∀ db us ms, db.users.Related (User.Alike c) us →
      (f db).Alike c (f { db with users := us, messages := ms })) {db db' : Database}
    (h : db.Alike c db') : (f db).Alike c (f db') := by
  rw [h.rest]
  exact hf db db'.users db'.messages h.users

/-- An action that starts by reading the database. -/
theorem coupled_database {f : Database → App α} {f' : Database → App β}
    (h : ∀ db us ms, db.users.Related (User.Alike c) us →
      Coupled (World.InStep c P P') Q (f db) (f' { db with users := us, messages := ms })) :
    Coupled (World.InStep c P P') Q (database >>= f) (database >>= f') := by
  refine Coupled.bind (Q := Database.Alike c) (fun w w' hw => ⟨hw.alike.db, hw⟩) ?_
  intro db db' hdb
  rw [hdb.rest]
  exact h db db'.users db'.messages hdb.users

/-- A write that looks alike. -/
theorem coupled_write {f : Database → Database}
    (h : ∀ db us ms, db.users.Related (User.Alike c) us →
      (f db).Alike c (f { db with users := us, messages := ms })) :
    Discreet c P P' (write f) :=
  .modify fun _ _ hw => ⟨⟨.write h hw.alike.db, hw.alike.signed⟩, hw.pushes⟩

/-- A write of other tables. -/
theorem coupled_write_same {f : Database → Database}
    (husers : ∀ db, (f db).users = db.users)
    (hrest : ∀ db us ms, f { db with users := us, messages := ms } =
      { f db with users := us, messages := ms }) :
    Discreet c P P' (write f) :=
  coupled_write fun db us ms hus => by
    rw [hrest db us ms]
    exact ⟨(husers db).symm ▸ hus, rfl⟩

/-- Such a write, and the value the action returns after it. -/
theorem coupled_write_return {f : Database → Database} {a : α}
    (husers : ∀ db, (f db).users = db.users)
    (hrest : ∀ db us ms, f { db with users := us, messages := ms } =
      { f db with users := us, messages := ms }) :
    Discreet c P P' (do write f; return a) :=
  .seq (coupled_write_same husers hrest) fun _ => .pure rfl

theorem coupled_trigger (p : Push) :
    Discreet c P P' (trigger p) :=
  .modify fun w w' ⟨halike, new, hnew, hnew'⟩ =>
    ⟨⟨halike.db, halike.signed⟩, new ++ [p], by simp [hnew], by simp [hnew']⟩

theorem coupled_raise (e : Failure) :
    Coupled (World.InStep c P P') Q (raise e : App α) (raise e) := .throw _

/-- Marking the exceptions changes nothing. -/
theorem coupled_logging {m : App α} {m' : App β} (h : Coupled (World.InStep c P P') Q m m') :
    Coupled (World.InStep c P P') Q (logging m) (logging m') := by
  intro w w' hw
  obtain ⟨hend, hstate⟩ := h w w' hw
  rw [exec_logging, exec_logging]
  rcases hrun : exec m w with ⟨e | a, t⟩ <;> rcases hrun' : exec m' w' with ⟨e' | b, t'⟩ <;>
    rw [hrun, hrun'] at hend hstate
  · obtain rfl : e = e' := hend
    exact ⟨rfl, hstate⟩
  · exact hend.elim
  · exact hend.elim
  · exact ⟨hend, hstate⟩

/-- A condition both runs answer the same way. -/
theorem coupled_ite {p p' : Prop} [Decidable p] [Decidable p'] {m n : App α} {m' n' : App β}
    (hp : p ↔ p') (hm : Coupled (World.InStep c P P') Q m m')
    (hn : Coupled (World.InStep c P P') Q n n') :
    Coupled (World.InStep c P P') Q (if p then m else n) (if p' then m' else n') := by
  by_cases h : p
  · rwa [if_pos h, if_pos (hp.mp h)]
  · rwa [if_neg h, if_neg (mt hp.mpr h)]

/-! ### The audit log -/

theorem coupled_save (eventable : Option Eventable) (user_id : Option Id) (now : Time) :
    Discreet c P P' (Event.save eventable user_id now) := by
  rcases eventable with _ | ⟨cls, _ | i⟩ <;> rcases user_id with _ | u <;>
    first
    | exact .pure rfl
    | exact coupled_write_same (fun _ => rfl) fun _ _ _ => rfl

theorem coupled_tracking {type : Notification} {now : Time}
    (h : ∀ payload, Discreet c P P' (instrument type payload now)) (payload : Payload) :
    Discreet c P P' (tracking true type (pure payload) now) :=
  coupled_logging (.seq (.pure rfl) h)

theorem coupled_tracking_sessions_create (u : Option Id) (now : Time) :
    Discreet c P P' (tracking true .sessions_create (pure [(.sym "user_id", .id u)]) now) := by
  intro w w' hw
  rw [exec_tracking_sessions_create, exec_tracking_sessions_create]
  exact ⟨rfl, hw⟩

/-! ### Creating records -/

theorem coupled_like_create (u p : Option Id) :
    Discreet c P P' (Like.create u p) := by
  refine coupled_database fun db us ms hus => ?_
  rcases u with _ | u
  · exact .pure rfl
  rcases p with _ | p
  · exact .pure rfl
  refine coupled_ite Iff.rfl (.pure rfl) (coupled_ite Iff.rfl ?_ (coupled_raise _))
  exact coupled_write_return (fun _ => rfl) fun _ _ _ => rfl

theorem coupled_userCategory_create (u p : Option Id) :
    Discreet c P P' (UserCategory.create u p) := by
  refine coupled_database fun db us ms hus => ?_
  rcases u with _ | u
  · exact .pure rfl
  rcases p with _ | p
  · exact .pure rfl
  refine coupled_ite Iff.rfl (.pure rfl) (coupled_ite Iff.rfl ?_ (coupled_raise _))
  exact coupled_write_return (fun _ => rfl) fun _ _ _ => rfl

theorem coupled_comment_create (u p : Id) (body : Option String) (now : Time) :
    Discreet c P P' (Comment.create u p body now) := by
  refine coupled_database fun db us ms hus => ?_
  rcases body with _ | b
  · exact .pure rfl
  refine coupled_ite Iff.rfl ?_ (.pure rfl)
  exact coupled_write_return (fun _ => rfl) fun _ _ _ => rfl

theorem coupled_category_create (name : Option String) :
    Discreet c P P' (Category.create name) := by
  refine coupled_database fun db us ms hus => ?_
  rcases name with _ | n
  · exact .pure rfl
  refine coupled_ite Iff.rfl (.pure rfl) (coupled_ite Iff.rfl ?_ (coupled_raise _))
  exact coupled_write_return (fun _ => rfl) fun _ _ _ => rfl

theorem coupled_picture_create (title filename : Option String) (ids : List Id) (now : Time) :
    Discreet c P P' (Picture.create title filename ids now) := by
  refine coupled_database fun db us ms hus => ?_
  rcases title with _ | t
  · exact .pure rfl
  rcases filename with _ | f
  · exact .pure rfl
  refine coupled_ite Iff.rfl (coupled_ite Iff.rfl ?_ (coupled_raise _)) (.pure rfl)
  exact coupled_write_return (fun _ => rfl) fun _ _ _ => rfl

/-! ### One action after the other -/

theorem coupled_unset_like (u : Row User) (pic_id : Option String) :
    Discreet c P P' (PicturesController.unset_like u pic_id) := by
  unfold PicturesController.unset_like
  rcases pic_id.map parseInteger with _ | _ | p
  · exact .pure rfl
  · exact coupled_raise _
  · exact coupled_write_return (fun _ => rfl) fun _ _ _ => rfl

theorem coupled_set_like (u : Row User) (pic_id : Option String) (now : Time) :
    Discreet c P P' (PicturesController.set_like u pic_id now) :=
  .seq (coupled_like_create _ _) fun _ =>
    .seq (coupled_tracking (fun _ => coupled_save _ _ _) _) fun _ => .pure rfl

theorem coupled_like (u : Row User) (pic_id check : Option String) (now : Time) :
    Discreet c P P' (PicturesController.like u pic_id check now) := by
  have hcount : ∀ json : ℚ, Discreet c P P' (do
        let db ← database
        return Response.like json
          (db.likes.rows.countP fun l => whereInteger pic_id = some l.val.picture_id)) :=
    fun _ => coupled_database fun _ _ _ _ => .pure rfl
  refine coupled_database fun db us ms hus => coupled_ite Iff.rfl ?_ (coupled_ite Iff.rfl ?_ ?_)
  · exact .seq (.pure rfl) hcount
  · exact .seq (coupled_unset_like u pic_id) hcount
  · exact .seq (coupled_set_like u pic_id now) hcount

theorem coupled_subscribe (u : Row User) (cat_id : Option String) :
    Discreet c P P' (CategoriesController.subscribe u cat_id) := by
  refine coupled_database fun db us ms hus => coupled_ite Iff.rfl ?_ ?_
  · exact coupled_write_return (fun _ => rfl) fun _ _ _ => rfl
  · exact .seq (coupled_userCategory_create _ _) fun _ => .pure rfl

theorem coupled_comment (u : Row User) (picture_id : String) (body : Option String)
    (now : Time) :
    Discreet c P P' (CommentsController.create u picture_id body now) := by
  refine coupled_database fun db us ms hus => ?_
  dsimp only
  cases db.pictures.find? (to_i picture_id) with
  | none => exact coupled_raise _
  | some picture =>
    refine .seq (coupled_comment_create _ _ _ _) fun comment => ?_
    cases comment with
    | none => exact .pure rfl
    | some comment =>
      have hannounce : Discreet c P P' (CommentsController.announce u comment now) :=
        .seq (coupled_tracking (fun _ => coupled_save _ _ _) _) fun _ => coupled_trigger _
      exact .seq hannounce fun _ => .pure rfl

theorem storable_eq {us us' : Table User} (hus : us.Related (User.Alike c) us') (u : User) :
    User.storable us u = User.storable us' u := by
  unfold User.storable
  rw [hus.any fun r s h => by rw [h.email]]

theorem coupled_insertUser (u : User) :
    Discreet c P P' (insertUser u) := by
  refine coupled_database fun db us ms hus => coupled_ite (by rw [storable_eq hus]) ?_
    (coupled_raise _)
  refine .seq (coupled_write fun db us ms hus => ⟨hus.insert ?_, rfl⟩) fun _ => .pure hus.next
  exact hus.next ▸ User.Alike.refl _

theorem coupled_registration (params : AccountParams) (captcha validatable : Bool)
    (digest : String) (now : Time) :
    Discreet c P P' (RegistrationsController.create params captcha validatable digest now) :=
  coupled_ite Iff.rfl
    (.seq (coupled_insertUser _) fun _ =>
      .seq (coupled_tracking_sessions_create _ _) fun _ => .pure rfl)
    (.pure rfl)

/-- The rows a session names in worlds that look alike. -/
theorem alike_current_user {db db' : Database} (h : db.Alike c db') (session : Option Id) :
    Option.Rel (User.Alike c) (current_user db session) (current_user db' session) := by
  cases session with
  | none => exact .none
  | some i =>
    rcases h.users.find? (fun _ _ h => h.id_eq) (i := i) with ⟨hu, hu'⟩ | ⟨u, u', hu, hu', halike⟩
    · simp only [current_user, Option.bind_some, hu, hu']
      exact .none
    · simp only [current_user, Option.bind_some, hu, hu']
      exact .some halike

/-- A change of one user that leaves the OAuth columns alone. -/
theorem alike_update {f : User → User} (hf : ∀ v token expires_at,
      f { v with oauth_token := token, oauth_expires_at := expires_at } =
        { f v with oauth_token := token, oauth_expires_at := expires_at })
    {us us' : Table User} (hus : us.Related (User.Alike c) us') (u : Id) :
    (us.update fun r => if r.id = u then f r.val else r.val).Related (User.Alike c)
      (us'.update fun r => if r.id = u then f r.val else r.val) := by
  refine hus.update fun r s hrs => ?_
  obtain ⟨i, v⟩ := s
  obtain ⟨hrest, hown⟩ := hrs
  injection hrest with hid hv
  subst hid
  by_cases hid : r.id = u
  · simp only [hid, ite_true]
    have hfv : f v = { f r.val with
        oauth_token := v.oauth_token
        oauth_expires_at := v.oauth_expires_at } := by
      rw [← hf, ← hv]
    refine ⟨?_, fun hc => ?_⟩
    · rw [hfv]
    · rw [← hown (hid.trans hc)]
  · simp only [hid, ite_false]
    exact ⟨by rw [hv], hown⟩

theorem coupled_update_tracked_fields (u : Id) (now : Time) :
    Discreet c P P' (write (·.update_tracked_fields u now)) :=
  coupled_write fun _ _ _ hus =>
    ⟨alike_update (f := fun v => { v with updated_at := now }) (fun _ _ _ => rfl) hus u, rfl⟩

theorem coupled_sign_in (authenticated : Option Id) (now : Time) :
    Discreet c P P' (SessionsController.create authenticated now) := by
  refine coupled_database fun db us ms hus => ?_
  have halike := alike_current_user
    (⟨hus, rfl⟩ : db.Alike c { db with users := us, messages := ms })
    authenticated
  generalize current_user db authenticated = user at halike
  generalize current_user { db with users := us, messages := ms } authenticated = user' at halike
  cases halike with
  | none => exact coupled_raise _
  | some hu =>
    rw [hu.rest]
    exact .seq (coupled_update_tracked_fields _ _) fun _ =>
      .seq (coupled_tracking_sessions_create _ _) fun _ => .pure rfl

theorem coupled_sign_out (now : Time) :
    Discreet c P P' (SessionsController.destroy now) :=
  .seq (coupled_logging (.seq (coupled_raise _) fun _ => .pure rfl)) fun _ => .pure rfl

theorem coupled_admin_destroy {present : Database → Bool} {destroy : Database → Database}
    (hpresent : ∀ db us ms, db.users.Related (User.Alike c) us →
      present db = present { db with users := us, messages := ms })
    (hdestroy : ∀ db us ms, db.users.Related (User.Alike c) us →
      (destroy db).Alike c (destroy { db with users := us, messages := ms })) :
    Discreet c P P' (Admin.destroy present destroy) :=
  coupled_database fun db us ms hus =>
    coupled_ite (by rw [hpresent db us ms hus])
      (.seq (coupled_write hdestroy) fun _ => .pure rfl) (coupled_raise _)

theorem alike_destroyUser (i : Id) (now : Time) (db : Database) (us : Table User)
    (ms : Table Message) (hus : db.users.Related (User.Alike c) us) :
    (db.destroyUser i now).Alike c
      (Database.destroyUser { db with users := us, messages := ms } i now) :=
  ⟨hus.delete fun r s h => by rw [h.id_eq], rfl⟩

theorem coupled_findAll {α : Type} (t : Table α) (ids : List Id) :
    Discreet c P P' (findAll t ids) :=
  coupled_ite Iff.rfl (.pure rfl) (coupled_raise _)

theorem coupled_findAll_users {us us' : Table User} (hus : us.Related (User.Alike c) us')
    (ids : List Id) :
    Coupled (World.InStep c P P') (List.Forall₂ (User.Alike c)) (findAll us ids)
      (findAll us' ids) := by
  refine coupled_ite ?_ (.pure (hus.filter fun r s h => by rw [h.id_eq])) (coupled_raise _)
  simp only [hus.has fun _ _ h => h.id_eq]

theorem coupled_category_email (recipients categories : List String) :
    Discreet c P P' (UserMailer.category_email recipients categories) :=
  coupled_ite Iff.rfl (coupled_raise _)
    (.modify fun _ _ hw => ⟨⟨hw.alike.db, hw.alike.signed⟩, hw.pushes⟩)

theorem coupled_mail_subscribers (cat_id : List Id) :
    Discreet c P P' (Admin.mail_subscribers cat_id) := by
  refine coupled_database fun db us ms hus => .seq (coupled_findAll _ _) fun categories => ?_
  refine .bind (coupled_findAll_users hus _) fun rs ss hrs => ?_
  rw [Table.map_eq_of_forall₂ hrs fun _ _ h => h.email]
  exact coupled_category_email _ _

theorem coupled_create_picture (p : PictureParams) (show_ids : Option (List Id)) (now : Time) :
    Discreet c P P' (Admin.create_picture p show_ids now) := by
  refine coupled_database fun db us ms hus => .seq (coupled_findAll _ _) fun _ => ?_
  refine .seq (coupled_picture_create _ _ _ _) fun picture => ?_
  cases picture with
  | none => exact .pure rfl
  | some picture =>
    cases show_ids with
    | none => exact coupled_raise _
    | some cat_id => exact .seq (coupled_mail_subscribers cat_id) fun _ => .pure rfl

theorem coupled_parser_page (file_addr : String) (filename : Option String)
    (categories : List String) (now : Time) :
    Discreet c P P' (Parser.create_picture file_addr filename categories now) := by
  refine coupled_database fun db us ms hus =>
    .seq (coupled_picture_create _ _ _ _) fun picture => ?_
  cases picture with
  | none => exact coupled_raise _
  | some picture => exact .pure rfl

theorem coupled_admin_category (name : Option String) :
    Discreet c P P' (Admin.create_category name) := by
  refine .seq (coupled_category_create name) fun category => ?_
  cases category with
  | none => exact .pure rfl
  | some category => exact .pure rfl

/-- An action that asks for a signed-in user and does not look at the OAuth columns. -/
theorem coupled_authenticated {f : Row User → App Response} {user user' : Option (Row User)}
    (hu : Option.Rel (User.Alike c) user user')
    (hf : ∀ (u : Row User) token expires_at, f ⟨u.id, { u.val with
      oauth_token := token, oauth_expires_at := expires_at }⟩ = f u)
    (h : ∀ u, Discreet c P P' (f u)) :
    Coupled (World.InStep c P P') Eq (do f (← authenticate user))
      (do f (← authenticate user')) := by
  cases hu with
  | none => exact .bind (coupled_raise _ : Coupled _ Eq _ _) fun _ _ h' => h' ▸ h _
  | @some u u' hu =>
    have hsame : f u' = f u := (congrArg f hu.rest).trans (hf u _ _)
    change Coupled _ Eq (f u) (f u')
    exact hsame ▸ h u

theorem coupled_auth {user user' : Option (Row User)} (hu : Option.Rel (User.Alike c) user user')
    (channel_name : String) :
    Coupled (World.InStep c P P') Eq (PusherController.auth user channel_name)
      (PusherController.auth user' channel_name) := by
  cases hu with
  | none => exact .pure rfl
  | some hu =>
    refine .seq (.modify fun w w' hw => ⟨⟨hw.alike.db, ?_⟩, hw.pushes⟩) fun _ => .pure rfl
    simp only [hw.alike.signed, hu.id_eq]

/-- The routes of chat messages and of the OmniAuth callback, whose parameters may
differ between two runs. -/
def Route.secret : Route → Bool
  | .messages_create .. => true
  | .sessions_facebook .. => true
  | _ => false

/-- What two runs of one action have in common. -/
theorem coupled_route {route : Route} (hroute : route.secret = false)
    {user user' : Option (Row User)} (hu : Option.Rel (User.Alike c) user user') (now : Time) :
    Coupled (World.InStep c P P') Eq (route.run user now) (route.run user' now) := by
  cases route with
  -- the two routes that carry secrets
  | messages_create receiver_id text event_name => cases hroute
  | sessions_facebook auth tracked digest pick => cases hroute
  | pictures_view => exact .pure rfl
  | devise_view => exact .pure rfl
  | categories_check_subscribe =>
    exact coupled_authenticated hu (fun _ _ _ => rfl) fun _ => .pure rfl
  | pictures_like pic_id check =>
    exact coupled_authenticated hu (fun _ _ _ => rfl) fun u => coupled_like u pic_id check now
  | categories_subscribe cat_id =>
    exact coupled_authenticated hu (fun _ _ _ => rfl) fun u => coupled_subscribe u cat_id
  | comments_create picture_id body =>
    exact coupled_authenticated hu (fun _ _ _ => rfl) fun u => coupled_comment u picture_id body now
  | pusher_auth channel_name => exact coupled_auth hu channel_name
  | registrations_create params captcha validatable digest =>
    exact coupled_registration params captcha validatable digest now
  | registrations_destroy =>
    exact coupled_authenticated hu (fun _ _ _ => rfl) fun u =>
      .seq (coupled_write (alike_destroyUser u.id now)) fun _ => .pure rfl
  | sessions_create authenticated => exact coupled_sign_in authenticated now
  | sessions_destroy => exact coupled_sign_out now
  | admin_users_destroy i =>
    exact coupled_admin_destroy (fun _ _ _ hus => by simp only [hus.has fun _ _ h => h.id_eq])
      (alike_destroyUser i now)
  | admin_pictures_destroy i =>
    exact coupled_admin_destroy (fun _ _ _ _ => rfl) fun _ _ _ hus => ⟨hus, rfl⟩
  | admin_categories_destroy i =>
    exact coupled_admin_destroy (fun _ _ _ _ => rfl) fun _ _ _ hus => ⟨hus, rfl⟩
  | admin_pictures_create p show_ids => exact coupled_create_picture p show_ids now
  | admin_parser_create_picture file_addr filename categories =>
    exact coupled_parser_page file_addr filename categories now
  | admin_categories_create name => exact coupled_admin_category name

/-! ### The OmniAuth callback -/

/-- Callbacks that differ at most in the token and in when it expires, which both
runs can store or neither. -/
def Auth.alike (auth auth' : Auth) : Bool :=
  auth' = { auth with token := auth'.token, expires_at := auth'.expires_at } &&
    auth.expires_at.isSome = auth'.expires_at.isSome &&
    auth.token.all fitsString = auth'.token.all fitsString

/-- The row a callback stores. -/
def Auth.row (auth : Auth) (digest : String) (now : Time) : User :=
  (auth.fill fun _ => digest).toUser now

/-- The callback stores its row. -/
def Auth.stores (auth : Auth) (tracked : Bool) (digest : String) (now : Time)
    (users : Table User) : Bool :=
  (users.rows.find? fun u => u.val.uid = auth.uid).isNone && !auth.expires_at.isNone &&
    ((auth.fill fun _ => digest).valid? true || tracked) &&
    (auth.fill fun _ => digest).email.isSome && User.storable users (auth.row digest now)

theorem exec_facebook_world (auth : Auth) (tracked : Bool) (digest : String) (pick : Id)
    (now : Time) (w : World) :
    (Action.exec (SessionsController.facebook auth tracked digest pick now) w).2 =
      match User.find_by_uid w.db.users auth.uid pick with
      | some u => if tracked then { w with db := w.db.update_tracked_fields u.id now } else w
      | none =>
        if auth.stores tracked digest now w.db.users then
          { w with db := { w.db with users := w.db.users.insert (auth.row digest now) } }
        else w := by
  simp only [SessionsController.facebook, SessionsController.find_or_create_by_uid,
    Action.exec_bind, exec_database, Auth.stores, Auth.row]
  rcases Option.eq_none_or_eq_some (User.find_by_uid w.db.users auth.uid pick) with hu | ⟨u, hu⟩
  · have hnone : (w.db.users.rows.find? fun u => u.val.uid = auth.uid) = none := by
      simpa using find_by_uid_eq_none_iff.mp hu
    simp only [hu, hnone, Action.exec_ite, Action.exec_bind, exec_insertUser, Action.exec_pure,
      exec_raise]
    generalize auth.fill (fun _ => digest) = account
    by_cases hexpires : auth.expires_at.isNone
    · simp [hexpires]
    by_cases hsave : account.valid? true || tracked
    · by_cases hemail : account.email.isSome
      · by_cases hstorable : User.storable w.db.users (account.toUser now) <;>
          simp [hexpires, hsave, hemail, hstorable, exec_tracking_sessions_create]
      · simp [hexpires, hsave, hemail]
    · simp [hexpires, hsave, exec_tracking_sessions_create]
  · cases tracked <;> simp [hu, exec_tracking_sessions_create]

/-- The rows that two look-ups by the uid find in worlds that look alike. -/
theorem alike_find_by_uid {us us' : Table User} (hus : us.Related (User.Alike c) us')
    (uid : Option String) (pick : Id) : Option.Rel (User.Alike c)
      (User.find_by_uid us uid pick) (User.find_by_uid us' uid pick) := by
  have hfind := hus.find (p := fun u => decide (u.val.uid = uid))
    (q := fun u => decide (u.val.uid = uid)) fun r s h => by rw [h.uid]
  have hpick := hus.find (p := fun u => decide (u.id = pick) && decide (u.val.uid = uid))
    (q := fun u => decide (u.id = pick) && decide (u.val.uid = uid))
    fun r s h => by rw [h.uid, h.id_eq]
  unfold User.find_by_uid
  rcases hpick with ⟨hu, hu'⟩ | ⟨u, u', hu, hu', halike⟩
  · rw [hu, hu', Option.none_or, Option.none_or]
    rcases hfind with ⟨hv, hv'⟩ | ⟨v, v', hv, hv', halike⟩
    · rw [hv, hv']
      exact .none
    · rw [hv, hv']
      exact .some halike
  · rw [hu, hu', Option.some_or, Option.some_or]
    exact .some halike

/-- Both runs store the callback's row, or neither does. -/
theorem inStep_facebook {auth auth' : Auth} {w w' : World} (hw : World.InStep c P P' w w')
    (hauth : auth.alike auth') (hc : auth' = auth ∨ w.db.users.next ≠ c) (tracked : Bool)
    (digest : String) (pick : Id) (now : Time) :
    World.InStep c P P'
      (Action.exec (SessionsController.facebook auth tracked digest pick now) w).2
      (Action.exec (SessionsController.facebook auth' tracked digest pick now) w').2 := by
  simp only [Auth.alike, Bool.and_eq_true, decide_eq_true_eq] at hauth
  obtain ⟨⟨hrest, hexpires⟩, htoken⟩ := hauth
  have hus := hw.alike.db.users
  -- what decides whether a row is stored is the same in both runs
  have hstorable : User.storable w.db.users (auth.row digest now) =
      User.storable w'.db.users (auth'.row digest now) := by
    rw [storable_eq hus, hrest]
    simp only [User.storable, Auth.row, Account.toUser, Auth.fill, Account.assignPassword, htoken]
  have hstores : auth.stores tracked digest now w.db.users =
      auth'.stores tracked digest now w'.db.users := by
    have hfind : (w.db.users.rows.find? fun u => u.val.uid = auth.uid).isNone =
        (w'.db.users.rows.find? fun u => u.val.uid = auth'.uid).isNone := by
      rw [show auth'.uid = auth.uid by rw [hrest]]
      have hfind := hus.find (p := fun u => decide (u.val.uid = auth.uid))
        (q := fun u => decide (u.val.uid = auth.uid)) fun r s h => by rw [h.uid]
      rcases hfind with ⟨hu, hu'⟩ | ⟨u, u', hu, hu', -⟩
      · rw [hu, hu']
      · rw [hu, hu']
        rfl
    have hnone : auth.expires_at.isNone = auth'.expires_at.isNone := by
      rw [← Option.not_isSome, ← Option.not_isSome, hexpires]
    simp only [Auth.stores, hfind, hstorable, hnone]
    rw [hrest]
    rfl
  -- the tokens may differ, unless the new row is the observer's own
  have hrow : User.Alike c ⟨w.db.users.next, auth.row digest now⟩
      ⟨w'.db.users.next, auth'.row digest now⟩ := by
    refine ⟨?_, fun hown => ?_⟩
    · rw [← hus.next, hrest]
      rfl
    · rcases hc with rfl | hc
      · rw [← hus.next]
      · exact absurd hown hc
  rw [exec_facebook_world, exec_facebook_world, ← hstores]
  have hfound := alike_find_by_uid hus auth.uid pick
  rw [show auth'.uid = auth.uid by rw [hrest]]
  generalize User.find_by_uid w.db.users auth.uid pick = found at hfound
  generalize User.find_by_uid w'.db.users auth.uid pick = found' at hfound
  cases hfound with
  | none =>
    dsimp only
    split_ifs
    · refine ⟨⟨⟨hus.insert hrow, ?_⟩, hw.alike.signed⟩, hw.pushes⟩
      rw [hw.alike.db.rest]
    · exact hw
  | @some u u' halike =>
    dsimp only
    split_ifs
    · rw [← halike.id_eq]
      refine ⟨⟨.write (f := (·.update_tracked_fields u.id now)) (fun _ _ _ hus => ⟨?_, rfl⟩)
        hw.alike.db, hw.alike.signed⟩, hw.pushes⟩
      exact alike_update (f := fun v => { v with updated_at := now }) (fun _ _ _ => rfl) hus u.id
    · exact hw

/-! ### Chat messages -/

/-- `Message.create` stores a message with these parameters, and the action pushes it. -/
def Message.stores (receiver_id text : Option String) : Bool :=
  match assignInteger receiver_id, text with
  | some r, some t => present? (some t) && fitsInteger r && fitsString t
  | _, _ => false

/-- The push of a stored message. -/
def MessagesController.push (u : Row User) (receiver_id text event_name : Option String) : Push :=
  ⟨"private-channel", event_name.getD "", .message (text.getD "") (User.toJson u) receiver_id⟩

/-- A message request writes messages and, if it stores one, pushes it. -/
theorem exec_message_world (u : Row User) (receiver_id text event_name : Option String)
    (w : World) :
    ∃ ms, (Action.exec (MessagesController.create (some u) receiver_id text event_name) w).2 =
      { w with
        db := { w.db with messages := ms }
        pushes := w.pushes ++ if Message.stores receiver_id text then
          [MessagesController.push u receiver_id text event_name] else [] } := by
  rcases hr : assignInteger receiver_id with _ | r
  · exact ⟨w.db.messages, by simp [MessagesController.create, Message.create, hr, Message.stores]⟩
  rcases text with _ | t
  · exact ⟨w.db.messages, by simp [MessagesController.create, Message.create, hr, Message.stores]⟩
  -- valid and within the columns: stored and pushed; otherwise neither
  by_cases hvalid : Message.valid (some u.id) (some r) (some t)
  · have hpresent : present? (some t) := by simpa [Message.valid] using hvalid
    by_cases hfits : fitsInteger r && fitsString t
    · refine ⟨w.db.messages.insert ⟨u.id, r, t⟩, ?_⟩
      simp only [Bool.and_eq_true] at hfits
      simp [MessagesController.create, Message.create, hr, Message.stores, hvalid, hpresent, hfits,
        MessagesController.push]
    · refine ⟨w.db.messages, ?_⟩
      simp only [MessagesController.create, Message.create, hr, Message.stores, hvalid, hpresent,
        Action.exec_bind, exec_raise, hfits, ite_true, Bool.true_and,
        Bool.false_eq_true, ite_false, List.append_nil]
  · have hblank : present? (some t) = false := by simpa [Message.valid] using hvalid
    exact ⟨w.db.messages, by
      simp [MessagesController.create, Message.create, hr, Message.stores, hvalid, hblank]⟩

/-! ### The filters -/

theorem alike_track (url : String) (u : Id) (now : Time) {db db' : Database}
    (h : db.Alike c db') : (db.track url u now).Alike c (db'.track url u now) := by
  refine Database.Alike.write (f := fun db => db.track url u now) (fun db us ms hus => ?_) h
  have hurl : Database.url? { db with users := us, messages := ms } url = db.url? url := rfl
  simp only [Database.track, hurl]
  cases db.url? url with
  | none => exact ⟨hus, rfl⟩
  | some r => exact ⟨hus, rfl⟩

theorem alike_stamp (u : Id) (now : Time) {db db' : Database} (h : db.Alike c db') :
    (db.stamp u now).Alike c (db'.stamp u now) := by
  refine Database.Alike.write (f := fun db => db.stamp u now) (fun _ _ _ hus => ⟨?_, rfl⟩) h
  exact alike_update (f := fun v => { v with last_request_at := some now, updated_at := now })
    (fun _ _ _ => rfl) hus u

/-- The filters let both runs through or neither. -/
theorem trackable_eq {r r' : Request} {db db' : Database} (h : db.Alike c db')
    (hsession : r'.session = r.session) (hurl : r'.url = r.url)
    (htracked : r'.route.tracked = r.route.tracked) : r'.trackable db' = r.trackable db := by
  have hu := alike_current_user h r.session
  simp only [Request.trackable, Request.user, hsession, hurl, htracked]
  have hcan : db'.canTrack r.url = db.canTrack r.url := by
    rw [h.rest]
    rfl
  generalize current_user db r.session = user at hu
  generalize current_user db' r.session = user' at hu
  cases hu with
  | none => rcases r.route.tracked <;> rfl
  | some hu => rcases r.route.tracked <;> simp only [hcan]

theorem alike_enter {r r' : Request} {db db' : Database} (h : db.Alike c db')
    (hsession : r'.session = r.session) (hurl : r'.url = r.url) (hnow : r'.now = r.now)
    (htracked : r'.route.tracked = r.route.tracked)
    (hpictures : r'.route.pictures = r.route.pictures) :
    (r.enter db).Alike c (r'.enter db') := by
  have hu := alike_current_user h r.session
  simp only [Request.enter, Request.tracked, Request.user, hsession, hurl, hnow, htracked,
    hpictures]
  generalize current_user db r.session = user at hu
  generalize current_user db' r.session = user' at hu
  cases hu with
  | none => rcases r.route.tracked <;> rcases r.route.pictures <;> exact h
  | @some u u' hu =>
    rcases r.route.tracked with _ | _ <;> rcases r.route.pictures with _ | _ <;>
      simp only [← hu.id_eq]
    · exact h
    · exact alike_stamp u.id r.now h
    · exact alike_track r.url u.id r.now h
    · exact alike_stamp u.id r.now (alike_track r.url u.id r.now h)

end

end Gallery
