import Gallery.Controllers.Requests

/-!
# What a request can do

`Outcome` lists, with the conditions under which each happens, everything an
action can do to the database. `run_outcome` says that the list is complete;
results about runs are case analyses over it and never unfold an action again.

## Main results

* `run_outcome` — every action ends in one of the listed outcomes
-/

namespace Gallery

open Store Rails App Semantics

namespace Database

/-- A stored like together with its event. -/
def addLike (db : Database) (u p : Id) (now : Time) : Database :=
  { db with
    likes := db.likes.insert ⟨u, p⟩
    events := db.events.insert ⟨db.likes.next, "Like", u, now⟩ }

/-- A stored comment together with its event; the picture is touched. -/
def addComment (db : Database) (u p : Id) (body : String) (now : Time) : Database :=
  { db.touch [p] now with
    comments := db.comments.insert ⟨u, p, body, now⟩
    events := db.events.insert ⟨db.comments.next, "Comment", u, now⟩ }

/-- A stored picture together with its categories. -/
def addPicture (db : Database) (title filename : String) (category_ids : List Id) (now : Time) :
    Database :=
  { db with
    pictures := db.pictures.insert ⟨title, filename, now, now⟩
    picture_categories :=
      category_ids.foldl (fun t c => t.insert ⟨db.pictures.next, c⟩) db.picture_categories }

/-- The time of the last request of a user. -/
def stamp (db : Database) (u : Id) (now : Time) : Database :=
  { db with
    users := db.users.update fun r =>
      if r.id = u then { r.val with last_request_at := some now, updated_at := now } else r.val }

end Database

/-- The result is not an exception raised while the audit log was written. -/
def Unlogged {α : Type} (res : Except Raised α) : Prop := ∀ e, res = .error e → e.logging = false

@[simp] theorem unlogged_ok {α : Type} (a : α) : Unlogged (.ok a) := by simp [Unlogged]

@[simp] theorem unlogged_error {α : Type} (e : Failure) :
    Unlogged (.error ⟨e, false⟩ : Except Raised α) := by simp [Unlogged]

/-- The routes that sign somebody in or out. -/
def Route.session : Route → Bool
  | .registrations_create .. => true
  | .sessions_create _ => true
  | .sessions_destroy => true
  | .sessions_facebook .. => true
  | _ => false

/-- The ways an action can end: its result, and the world it leaves. -/
inductive Outcome (now : Time) (w : World) :
    Route → Option (Row User) → Except Raised Response → World → Prop
  /-- A page, a refused record, a rejected statement. -/
  | quiet {route : Route} {user : Option (Row User)} {res : Except Raised Response} {w' : World}
      (hroute : route.session = false) (hres : Unlogged res) (hdb : w'.db = w.db) :
      Outcome now w route user res w'
  | like_created {u : Row User} {pic_id : Option String} {p : Id} {a : Response}
      (hp : assignInteger pic_id = some p) (hfits : fitsInteger p)
      (hnew : ∀ l ∈ w.db.likes.rows, ¬ (l.val.user_id = u.id ∧ l.val.picture_id = p)) :
      Outcome now w (.pictures_like pic_id none) (some u) (.ok a)
        { w with db := w.db.addLike u.id p now }
  | like_destroyed {u : Row User} {s : String} {p : Id} {a : Response}
      (hp : parseInteger s = some p)
      (hliked : ∃ l ∈ w.db.likes.rows, l.val.user_id = u.id ∧ l.val.picture_id = to_i s) :
      Outcome now w (.pictures_like (some s) none) (some u) (.ok a)
        { w with db := w.db.destroyLikes fun l => l.val.user_id = u.id && l.val.picture_id = p }
  | subscribed {u : Row User} {cat_id : Option String} {c : Id} {a : Response}
      (hc : assignInteger cat_id = some c) (hfits : fitsInteger c)
      (hnew : ∀ s ∈ w.db.user_categories.rows,
        ¬ (s.val.user_id = u.id ∧ s.val.category_id = c)) :
      Outcome now w (.categories_subscribe cat_id) (some u) (.ok a)
        { w with db := { w.db with user_categories := w.db.user_categories.insert ⟨u.id, c⟩ } }
  | unsubscribed {u : Row User} {cat_id : Option String} {a : Response}
      (hsub : ∃ s ∈ w.db.user_categories.rows,
        s.val.user_id = u.id ∧ whereInteger cat_id = some s.val.category_id) :
      Outcome now w (.categories_subscribe cat_id) (some u) (.ok a)
        { w with
          db := { w.db with
            user_categories := w.db.user_categories.delete fun s =>
              s.val.user_id = u.id && whereInteger cat_id = some s.val.category_id } }
  | commented {u : Row User} {picture_id b : String} {p : Row Picture} {a : Response} {w' : World}
      (hp : w.db.pictures.find? (to_i picture_id) = some p)
      (hbody : Comment.validBody (some b)) (hdb : w'.db = w.db.addComment u.id p.id b now) :
      Outcome now w (.comments_create picture_id (some b)) (some u) (.ok a) w'
  | messaged {u : Row User} {receiver_id event_name : Option String} {r : Id} {t : String}
      {a : Response} {w' : World}
      (hr : assignInteger receiver_id = some r)
      (hvalid : Message.valid (some u.id) (some r) (some t))
      (hfits : fitsInteger r && fitsString t)
      (hdb : w'.db = { w.db with messages := w.db.messages.insert ⟨u.id, r, t⟩ }) :
      Outcome now w (.messages_create receiver_id (some t) event_name) (some u) (.ok a) w'
  | signed_up {user : Option (Row User)} {params : AccountParams} {captcha validatable : Bool}
      {digest : String} {u : User} (hstorable : User.storable w.db.users u) :
      Outcome now w (.registrations_create params captcha validatable digest) user
        (.ok .redirect) { w with db := { w.db with users := w.db.users.insert u } }
  | not_signed_up {user : Option (Row User)} {params : AccountParams} {captcha validatable : Bool}
      {digest : String} {res : Except Raised Response} (hres : Unlogged res)
      (hredirect : res ≠ .ok .redirect) :
      Outcome now w (.registrations_create params captcha validatable digest) user res w
  | signed_in {user : Option (Row User)} {authenticated : Option Id} {u : Row User}
      (hu : current_user w.db authenticated = some u) :
      Outcome now w (.sessions_create authenticated) user (.ok .redirect)
        { w with db := w.db.update_tracked_fields u.id now }
  | not_signed_in {user : Option (Row User)} {authenticated : Option Id}
      (hu : current_user w.db authenticated = none) :
      Outcome now w (.sessions_create authenticated) user (.error ⟨.Unauthenticated, false⟩) w
  | signed_out {user : Option (Row User)} :
      Outcome now w .sessions_destroy user (.error ⟨.NoMethodError, true⟩) w
  | facebook_known {user : Option (Row User)} {auth : Auth} {tracked : Bool} {digest : String}
      {pick : Id} {res : Except Raised Response} (hres : Unlogged res) :
      Outcome now w (.sessions_facebook auth tracked digest pick) user res w
  | facebook_tracked {user : Option (Row User)} {auth : Auth} {digest : String} {pick : Id}
      {u : Row User} (hu : User.find_by_uid w.db.users auth.uid pick = some u) :
      Outcome now w (.sessions_facebook auth true digest pick) user (.ok .redirect)
        { w with db := w.db.update_tracked_fields u.id now }
  | facebook_stored {user : Option (Row User)} {auth : Auth} {tracked : Bool} {digest : String}
      {pick : Id} {u : User} (hstorable : User.storable w.db.users u) (huid : u.uid = auth.uid)
      (hnew : ∀ r ∈ w.db.users.rows, r.val.uid ≠ auth.uid) :
      Outcome now w (.sessions_facebook auth tracked digest pick) user (.ok .redirect)
        { w with db := { w.db with users := w.db.users.insert u } }
  | cancelled {u : Row User} :
      Outcome now w .registrations_destroy (some u) (.ok .redirect)
        { w with db := w.db.destroyUser u.id now }
  | user_destroyed {user : Option (Row User)} {i : Id} (hi : w.db.users.Has i) :
      Outcome now w (.admin_users_destroy i) user (.ok .redirect)
        { w with db := w.db.destroyUser i now }
  | picture_destroyed {user : Option (Row User)} {i : Id} (hi : w.db.pictures.Has i) :
      Outcome now w (.admin_pictures_destroy i) user (.ok .redirect)
        { w with db := w.db.destroyPicture i now }
  | category_destroyed {user : Option (Row User)} {i : Id} (hi : w.db.categories.Has i) :
      Outcome now w (.admin_categories_destroy i) user (.ok .redirect)
        { w with db := w.db.destroyCategory i }
  | picture_created {route : Route} {user : Option (Row User)} {res : Except Raised Response}
      {t f : String} {ids : List Id} {w' : World} (hroute : route.session = false)
      (hres : Unlogged res) (hids : ∀ c ∈ ids, w.db.categories.Has c)
      (hdb : w'.db = w.db.addPicture t f ids now) :
      Outcome now w route user res w'
  | category_created {user : Option (Row User)} {n : String} :
      Outcome now w (.admin_categories_create (some n)) user (.ok .redirect)
        { w with db := { w.db with categories := w.db.categories.insert ⟨n⟩ } }

/-! ### Running the statements of an action -/

variable {now : Time} {w : World}

theorem exec_like_create (u : Id) (p : Option Id) (w : World) :
    Action.exec (Like.create (some u) p) w = match p with
      | none => (.ok none, w)
      | some p =>
        if w.db.likes.rows.any fun l => l.val.user_id = u && l.val.picture_id = p then
          (.ok none, w)
        else if fitsInteger p then
          (.ok (some w.db.likes.next),
            { w with db := { w.db with likes := w.db.likes.insert ⟨u, p⟩ } })
        else (.error ⟨.StatementInvalid, false⟩, w) := by
  cases p with
  | none => rfl
  | some p =>
    simp only [Like.create, Action.exec_bind, exec_database, Action.exec_ite, Action.exec_pure,
      exec_write, exec_raise]

theorem exec_userCategory_create (u : Id) (c : Option Id) (w : World) :
    Action.exec (UserCategory.create (some u) c) w = match c with
      | none => (.ok none, w)
      | some c =>
        if w.db.user_categories.rows.any fun s => s.val.user_id = u && s.val.category_id = c then
          (.ok none, w)
        else if fitsInteger c then
          (.ok (some w.db.user_categories.next),
            { w with db := { w.db with user_categories := w.db.user_categories.insert ⟨u, c⟩ } })
        else (.error ⟨.StatementInvalid, false⟩, w) := by
  cases c with
  | none => rfl
  | some c =>
    simp only [UserCategory.create, Action.exec_bind, exec_database, Action.exec_ite,
      Action.exec_pure, exec_write, exec_raise]

theorem exec_picture_create (t f : Option String) (ids : List Id) (w : World) :
    Action.exec (Picture.create t f ids now) w = match t, f with
      | some t, some f =>
        if Picture.valid (some t) (some f) then
          if fitsString f then
            (.ok (some w.db.pictures.next), { w with db := w.db.addPicture t f ids now })
          else (.error ⟨.StatementInvalid, false⟩, w)
        else (.ok none, w)
      | _, _ => (.ok none, w) := by
  rcases t with _ | t <;> rcases f with _ | f <;> try rfl
  simp only [Picture.create, Action.exec_bind, exec_database, Action.exec_ite,
      Action.exec_pure, exec_write, exec_raise, Database.addPicture]

theorem exec_set_like (u : Row User) (pic_id : Option String) (w : World) :
    Action.exec (PicturesController.set_like u pic_id now) w = match assignInteger pic_id with
      | none => (.ok 1, w)
      | some p =>
        if w.db.likes.rows.any fun l => l.val.user_id = u.id && l.val.picture_id = p then (.ok 1, w)
        else if fitsInteger p then (.ok 1, { w with db := w.db.addLike u.id p now })
        else (.error ⟨.StatementInvalid, false⟩, w) := by
  simp only [PicturesController.set_like, Action.exec_bind, exec_like_create]
  cases assignInteger pic_id with
  | none => simp only [exec_tracking_like, Database.logged_unsaved, Action.exec_pure]
  | some p =>
    dsimp only
    split_ifs <;>
      simp only [exec_tracking_like, Database.logged_unsaved, Database.logged_some,
        Action.exec_pure, Database.addLike]

/-! ### One action after the other -/

theorem like_outcome (u : Row User) (pic_id check : Option String) :
    Outcome now w (.pictures_like pic_id check) (some u)
      (Action.exec (PicturesController.like u pic_id check now) w).1
      (Action.exec (PicturesController.like u pic_id check now) w).2 := by
  simp only [PicturesController.like, Action.exec_bind, exec_database, Action.exec_ite]
  -- with a `check` parameter nothing is written
  cases check with
  | none =>
    by_cases hs : PicturesController.status w.db u pic_id
    · simp only [hs]
      cases pic_id with
      | none => exact .quiet rfl (by simp [PicturesController.unset_like]) rfl
      | some s =>
        cases h : parseInteger s with
        | none =>
          simp only [PicturesController.unset_like, Option.map_some, h]
          exact .quiet rfl (by simp) rfl
        | some p =>
          simp only [PicturesController.unset_like, Option.map_some, h]
          refine .like_destroyed h ?_
          simpa [PicturesController.status, whereInteger, @eq_comm _ (to_i s)] using hs
    · simp only [hs, Bool.false_eq_true, Option.isSome_none, ite_false, exec_set_like]
      cases h : assignInteger pic_id with
      | none => exact .quiet rfl (by simp) rfl
      | some p =>
        dsimp only
        split_ifs with hnew hfits
        · exact .quiet rfl (by simp) rfl
        · exact .like_created h hfits (by simpa using hnew)
        · exact .quiet rfl (by simp) rfl
  | some c => exact .quiet rfl (by simp) rfl

theorem subscribe_outcome (u : Row User) (cat_id : Option String) :
    Outcome now w (.categories_subscribe cat_id) (some u)
      (Action.exec (CategoriesController.subscribe u cat_id) w).1
      (Action.exec (CategoriesController.subscribe u cat_id) w).2 := by
  simp only [CategoriesController.subscribe, Action.exec_bind, exec_database, Action.exec_ite,
    exec_write, exec_userCategory_create, Action.exec_pure]
  by_cases hs : CategoriesController.current_sub w.db u cat_id
  · simp only [hs, ite_true]
    exact .unsubscribed (by simpa [CategoriesController.current_sub] using hs)
  · simp only [hs, Bool.false_eq_true, ite_false]
    cases h : assignInteger cat_id with
    | none => exact .quiet rfl (by simp) rfl
    | some c =>
      dsimp only
      split_ifs with hnew hfits
      · exact .quiet rfl (by simp) rfl
      · exact .subscribed h hfits (by simpa using hnew)
      · exact .quiet rfl (by simp) rfl

theorem comment_outcome (u : Row User) (picture_id : String) (body : Option String) :
    Outcome now w (.comments_create picture_id body) (some u)
      (Action.exec (CommentsController.create u picture_id body now) w).1
      (Action.exec (CommentsController.create u picture_id body now) w).2 := by
  simp only [CommentsController.create, Action.exec_bind, exec_database]
  cases hp : w.db.pictures.find? (to_i picture_id) with
  | none => exact .quiet rfl (by simp) rfl
  | some p =>
    cases body with
    | none => exact .quiet rfl (by simp [Comment.create]) rfl
    | some b =>
      by_cases hbody : Comment.validBody (some b)
      · simp only [Comment.create, Action.exec_bind, exec_database, hbody, ite_true, exec_write,
          Action.exec_pure, CommentsController.announce, exec_tracking_comment, exec_trigger]
        exact .commented hp hbody rfl
      · simp only [Comment.create, Action.exec_bind, exec_database, hbody, Bool.false_eq_true,
          ite_false, Action.exec_pure]
        exact .quiet rfl (by simp) rfl

theorem message_outcome (u : Option (Row User)) (receiver_id text event_name : Option String) :
    Outcome now w (.messages_create receiver_id text event_name) u
      (Action.exec (MessagesController.create u receiver_id text event_name) w).1
      (Action.exec (MessagesController.create u receiver_id text event_name) w).2 := by
  cases u with
  | none => exact .quiet rfl (by simp [MessagesController.create]) rfl
  | some u =>
    cases hr : assignInteger receiver_id with
    | none =>
      exact .quiet rfl (by simp [MessagesController.create, Message.create, hr])
        (by simp [MessagesController.create, Message.create, hr])
    | some r =>
      cases text with
      | none =>
        exact .quiet rfl (by simp [MessagesController.create, Message.create, hr])
          (by simp [MessagesController.create, Message.create, hr])
      | some t =>
        simp only [MessagesController.create, Message.create, hr, Action.exec_bind,
          Action.exec_ite, Action.exec_pure, exec_write, exec_raise]
        by_cases hv : Message.valid (some u.id) (some r) (some t)
        · by_cases hf : fitsInteger r && fitsString t
          · simp only [hv, hf, ite_true, exec_trigger]
            exact .messaged hr hv hf rfl
          · simp only [hv, hf, ite_true, Bool.false_eq_true, ite_false]
            exact .quiet rfl (by simp) rfl
        · simp only [hv, Bool.false_eq_true, ite_false]
          exact .quiet rfl (by simp) rfl

theorem exec_insertUser (u : User) (w : World) :
    Action.exec (insertUser u) w =
      if User.storable w.db.users u then
        (.ok w.db.users.next, { w with db := { w.db with users := w.db.users.insert u } })
      else (.error ⟨.StatementInvalid, false⟩, w) := by
  simp only [insertUser, Action.exec_bind, exec_database, Action.exec_ite, exec_write,
    Action.exec_pure, exec_raise]

theorem registration_outcome (user : Option (Row User)) (params : AccountParams)
    (captcha validatable : Bool) (digest : String) :
    Outcome now w (.registrations_create params captcha validatable digest) user
      (Action.exec (RegistrationsController.create params captcha validatable digest now) w).1
      (Action.exec (RegistrationsController.create params captcha validatable digest now) w).2 := by
  simp only [RegistrationsController.create, Action.exec_ite, Action.exec_bind, exec_insertUser,
    Action.exec_pure]
  split_ifs with hvalid hstorable
  · simp only [exec_tracking_sessions_create]
    exact .signed_up hstorable
  · exact .not_signed_up (by simp) (by simp)
  · exact .not_signed_up (by simp) (by simp)

theorem sign_in_outcome (user : Option (Row User)) (authenticated : Option Id) :
    Outcome now w (.sessions_create authenticated) user
      (Action.exec (SessionsController.create authenticated now) w).1
      (Action.exec (SessionsController.create authenticated now) w).2 := by
  simp only [SessionsController.create, Action.exec_bind, exec_database]
  cases hu : current_user w.db authenticated with
  | none => exact .not_signed_in hu
  | some u =>
    simp only [Action.exec_bind, exec_write, exec_tracking_sessions_create, Action.exec_pure]
    exact .signed_in hu

/-- The bookkeeping of a sign-in neither adds nor removes users. -/
@[simp] theorem has_update_tracked_fields {db : Database} {u i : Id} :
    (db.update_tracked_fields u now).users.Has i ↔ db.users.Has i := Table.has_update _

theorem find_by_uid_eq_none_iff {users : Table User} {uid : Option String} {pick : Id} :
    User.find_by_uid users uid pick = none ↔ ∀ u ∈ users.rows, u.val.uid ≠ uid := by
  simp only [User.find_by_uid, Option.or_eq_none_iff, List.find?_eq_none, Bool.and_eq_true,
    decide_eq_true_eq]
  exact ⟨fun h => h.2, fun h => ⟨fun u hu hpick => h u hu hpick.2, h⟩⟩

theorem mem_of_find_by_uid {users : Table User} {uid : Option String} {pick : Id} {u : Row User}
    (h : User.find_by_uid users uid pick = some u) : u ∈ users.rows ∧ u.val.uid = uid := by
  rcases Option.or_eq_some_iff.mp h with h | ⟨-, h⟩
  · have hmatches := List.find?_some h
    simp only [Bool.and_eq_true, decide_eq_true_eq] at hmatches
    exact ⟨List.mem_of_find?_eq_some h, hmatches.2⟩
  · exact ⟨List.mem_of_find?_eq_some h, by simpa using List.find?_some h⟩

theorem facebook_outcome (user : Option (Row User)) (auth : Auth) (tracked : Bool)
    (digest : String) (pick : Id) :
    Outcome now w (.sessions_facebook auth tracked digest pick) user
      (Action.exec (SessionsController.facebook auth tracked digest pick now) w).1
      (Action.exec (SessionsController.facebook auth tracked digest pick now) w).2 := by
  simp only [SessionsController.facebook, SessionsController.find_or_create_by_uid,
    Action.exec_bind, exec_database]
  rcases Option.eq_none_or_eq_some (User.find_by_uid w.db.users auth.uid pick) with hu | ⟨u, hu⟩
  · simp only [hu, Action.exec_ite, Action.exec_bind, exec_insertUser, Action.exec_pure,
      exec_raise]
    split_ifs with hexpires hsave hemail hstorable
    · exact .facebook_known (by simp)
    · simp only [exec_tracking_sessions_create]
      exact .facebook_stored hstorable rfl (find_by_uid_eq_none_iff.mp hu)
    · exact .facebook_known (by simp)
    · exact .facebook_known (by simp)
    · simp only [exec_tracking_sessions_create]
      exact .facebook_known (by simp)
  · simp only [hu, Action.exec_bind, Action.exec_ite, exec_write, Action.exec_pure]
    cases tracked with
    | true =>
      simp only [if_true, exec_tracking_sessions_create]
      exact .facebook_tracked hu
    | false =>
      simp only [Bool.false_eq_true, if_false, exec_tracking_sessions_create]
      exact .facebook_known (by simp)

theorem exec_admin_destroy (present : Database → Bool) (destroy : Database → Database)
    (w : World) :
    Action.exec (Admin.destroy present destroy) w =
      if present w.db then (.ok .redirect, { w with db := destroy w.db })
      else (.error ⟨.RecordNotFound, false⟩, w) := by
  simp only [Admin.destroy, Action.exec_bind, exec_database, Action.exec_ite, exec_write,
    Action.exec_pure, exec_raise]

theorem exec_findAll {α : Type} (t : Table α) (ids : List Id) (w : World) :
    Action.exec (findAll t ids) w =
      if ids.all fun i => t.Has i then (.ok (t.rows.filter fun r => r.id ∈ ids), w)
      else (.error ⟨.RecordNotFound, false⟩, w) := by
  simp only [findAll, Action.exec_ite, Action.exec_pure, exec_raise]

theorem exec_category_email (recipients categories : List String) (w : World) :
    Action.exec (UserMailer.category_email recipients categories) w =
      if recipients.isEmpty then (.error ⟨.NoRecipient, false⟩, w)
      else (.ok (), { w with mails := w.mails ++ [⟨recipients, categories⟩] }) := by
  simp only [UserMailer.category_email, Action.exec_ite, exec_raise, Action.exec_modify]

/-- The mailing reads the database and never writes it. -/
theorem mail_subscribers_db (cat_id : List Id) (w : World) :
    (Action.exec (Admin.mail_subscribers cat_id) w).2.db = w.db ∧
      Unlogged (Action.exec (Admin.mail_subscribers cat_id) w).1 := by
  simp only [Admin.mail_subscribers, Action.exec_bind, exec_database, exec_findAll,
    exec_category_email]
  split_ifs
  · dsimp only
    split_ifs <;> simp
  · simp
  · simp
  · simp

theorem admin_picture_outcome (user : Option (Row User)) (p : PictureParams)
    (show_ids : Option (List Id)) :
    Outcome now w (.admin_pictures_create p show_ids) user
      (Action.exec (Admin.create_picture p show_ids now) w).1
      (Action.exec (Admin.create_picture p show_ids now) w).2 := by
  obtain ⟨title, filename, ids⟩ := p
  simp only [Admin.create_picture, Action.exec_bind, exec_database, exec_findAll]
  split_ifs with hids
  · have hids : ∀ c ∈ ids, w.db.categories.Has c := by simpa using hids
    rcases title with _ | t
    · exact .quiet rfl (by simp [exec_picture_create]) rfl
    rcases filename with _ | f
    · exact .quiet rfl (by simp [exec_picture_create]) rfl
    simp only [exec_picture_create]
    split_ifs with hvalid hfits
    -- the picture is stored before `params[:show]` is asked for its ids
    · cases show_ids with
      | none => exact .picture_created rfl (by simp) hids rfl
      | some cat_id =>
        have hmail := mail_subscribers_db cat_id { w with db := w.db.addPicture t f ids now }
        simp only [Action.exec_bind]
        rcases hrun : Action.exec (Admin.mail_subscribers cat_id)
          { w with db := w.db.addPicture t f ids now } with ⟨e | _, w'⟩ <;> rw [hrun] at hmail
        · exact .picture_created rfl (by simpa [Unlogged] using hmail.2) hids hmail.1
        · exact .picture_created rfl (by simp) hids hmail.1
    · exact .quiet rfl (by simp) rfl
    · exact .quiet rfl (by simp) rfl
  · exact .quiet rfl (by simp) rfl

theorem parser_outcome (user : Option (Row User)) (file_addr : String) (filename : Option String)
    (categories : List String) :
    Outcome now w (.admin_parser_create_picture file_addr filename categories) user
      (Action.exec (Parser.create_picture file_addr filename categories now) w).1
      (Action.exec (Parser.create_picture file_addr filename categories now) w).2 := by
  simp only [Parser.create_picture, Action.exec_bind, exec_database, exec_picture_create]
  cases filename with
  | none => exact .quiet rfl (by simp) rfl
  | some f =>
    dsimp only
    split_ifs with hvalid hfits
    · refine .picture_created rfl (by simp) ?_ rfl
      intro c hc
      obtain ⟨r, hr, rfl⟩ := List.mem_map.mp hc
      exact .intro (List.mem_of_mem_filter hr)
    · exact .quiet rfl (by simp) rfl
    · exact .quiet rfl (by simp) rfl

theorem admin_category_outcome (user : Option (Row User)) (name : Option String) :
    Outcome now w (.admin_categories_create name) user
      (Action.exec (Admin.create_category name) w).1
      (Action.exec (Admin.create_category name) w).2 := by
  cases name with
  | none =>
    exact .quiet rfl (by simp [Admin.create_category, Category.create])
      (by simp [Admin.create_category, Category.create])
  | some n =>
    simp only [Admin.create_category, Category.create, Action.exec_bind, exec_database,
      Action.exec_ite, Action.exec_pure, exec_write, exec_raise]
    split_ifs with hblank hfits
    · exact .quiet rfl (by simp) rfl
    · exact .category_created
    · exact .quiet rfl (by simp) rfl

/-- An action that asks for a signed-in user. -/
theorem authenticated_outcome {route : Route} {action : Row User → App Response}
    (hroute : route.session = false) (user : Option (Row User))
    (h : ∀ u, Outcome now w route (some u) (Action.exec (action u) w).1
      (Action.exec (action u) w).2) :
    Outcome now w route user
      (Action.exec (do action (← authenticate user)) w).1
      (Action.exec (do action (← authenticate user)) w).2 := by
  cases user with
  | none => exact .quiet hroute (by simp [authenticate]) rfl
  | some u => exact h u

/-- The list of outcomes is complete. -/
theorem run_outcome (route : Route) (user : Option (Row User)) (now : Time) (w : World) :
    Outcome now w route user (Action.exec (route.run user now) w).1
      (Action.exec (route.run user now) w).2 := by
  cases route with
  | pictures_view => exact .quiet rfl (by simp [Route.run]) rfl
  | devise_view => exact .quiet rfl (by simp [Route.run]) rfl
  | categories_check_subscribe =>
    exact authenticated_outcome rfl user fun u => .quiet rfl (by simp) rfl
  -- actions behind `authenticate_user!`
  | pictures_like pic_id check =>
    exact authenticated_outcome rfl user fun u => like_outcome u pic_id check
  | categories_subscribe cat_id =>
    exact authenticated_outcome rfl user fun u => subscribe_outcome u cat_id
  | comments_create picture_id body =>
    exact authenticated_outcome rfl user fun u => comment_outcome u picture_id body
  | messages_create receiver_id text event_name =>
    exact message_outcome user receiver_id text event_name
  | pusher_auth channel_name =>
    cases user with
    | none => exact .quiet rfl (by simp [Route.run, PusherController.auth]) rfl
    | some u => exact .quiet rfl (by simp [Route.run, PusherController.auth]) rfl
  | registrations_create params captcha validatable digest =>
    exact registration_outcome user params captcha validatable digest
  | registrations_destroy =>
    cases user with
    | none => exact .quiet rfl (by simp [Route.run, authenticate]) rfl
    | some u => exact .cancelled
  | sessions_create authenticated => exact sign_in_outcome user authenticated
  | sessions_destroy =>
    simp only [Route.run, SessionsController.destroy, Action.exec_bind,
      exec_tracking_sessions_destroy]
    exact .signed_out
  | sessions_facebook auth tracked digest pick =>
    exact facebook_outcome user auth tracked digest pick
  | admin_users_destroy i =>
    simp only [Route.run, exec_admin_destroy]
    split_ifs with hi
    · exact .user_destroyed (by simpa using hi)
    · exact .quiet rfl (by simp) rfl
  | admin_pictures_destroy i =>
    simp only [Route.run, exec_admin_destroy]
    split_ifs with hi
    · exact .picture_destroyed (by simpa using hi)
    · exact .quiet rfl (by simp) rfl
  | admin_categories_destroy i =>
    simp only [Route.run, exec_admin_destroy]
    split_ifs with hi
    · exact .category_destroyed (by simpa using hi)
    · exact .quiet rfl (by simp) rfl
  | admin_pictures_create p show_ids => exact admin_picture_outcome user p show_ids
  | admin_parser_create_picture file_addr filename categories =>
    exact parser_outcome user file_addr filename categories
  | admin_categories_create name => exact admin_category_outcome user name

end Gallery
