import Gallery.Controllers.Personal
import Gallery.Semantics.Frame
import Gallery.Semantics.Projection
import Gallery.Theorems.ChatHistory
import Gallery.Theorems.Ownership

/-!
# What others do does not show

Users meet in comments, likes counted together, the online list and the chat. What the
administrators have put up, and what one user holds in it, are the same whatever the other
users do: two runs with the same requests of the administrators, and of the user, leave the
same catalogue and the same holdings.

## Main results

* `catalogue_projection` — the catalogue is a machine of its own
* `catalogue_noninterference` — users cannot change the catalogue
* `holdings_projection` — catalogue and holdings of a user are a machine of their own
* `personal_noninterference` — users cannot change each other's holdings
-/

namespace Gallery

open Store Rails App Semantics

/-! ### The catalogue -/

section Catalogue

variable {db : Database} {w : World} {now : Time}

theorem catalogue_touch (ids : List Id) : (db.touch ids now).catalogue = db.catalogue := by
  have hpictures : (db.touch ids now).pictures.update
      (fun p => (⟨p.val.title, p.val.filename, p.val.created_at⟩ : Exhibit)) =
        db.pictures.update fun p => ⟨p.val.title, p.val.filename, p.val.created_at⟩ :=
    Table.update_update fun p => by split <;> rfl
  rw [Database.catalogue, hpictures]
  rfl

theorem catalogue_destroyComments (q : Row Comment → Bool) :
    (db.destroyComments q now).catalogue = db.catalogue :=
  (catalogue_touch _).trans rfl

theorem catalogue_destroyUser (u : Id) : (db.destroyUser u now).catalogue = db.catalogue :=
  (catalogue_destroyComments _).trans rfl

theorem catalogue_addComment (u p : Id) (b : String) :
    (db.addComment u p b now).catalogue = db.catalogue :=
  (catalogue_touch _).trans rfl

/-- The filters write nothing of the catalogue. -/
theorem catalogue_enter (r : Request) (db : Database) :
    (r.enter db).catalogue = db.catalogue :=
  Request.enter_rule (P := fun db' => db'.catalogue = db.catalogue) rfl
    (fun _ _ _ _ => rfl) (fun _ _ => rfl) fun _ _ h => h

@[simp] theorem has_catalogue (i : Id) : db.catalogue.pictures.Has i ↔ db.pictures.Has i :=
  Table.has_update _

theorem catalogue_like (u : Row User) (pic_id check : Option String) :
    (Action.exec (PicturesController.like u pic_id check now) w).2.db.catalogue =
      w.db.catalogue := by
  cases check with
  | some check => rw [exec_like_check]
  | none =>
    cases hstatus : PicturesController.status w.db u pic_id with
    | false =>
      rw [exec_like_set hstatus]
      cases assignInteger pic_id with
      | none => rfl
      | some p =>
        dsimp only
        split_ifs <;> rfl
    | true =>
      cases pic_id with
      | none => simp [PicturesController.status, whereInteger] at hstatus
      | some s =>
        rw [exec_like_unset hstatus]
        cases parseInteger s <;> rfl

theorem catalogue_subscribe (u : Row User) (cat_id : Option String) :
    (Action.exec (CategoriesController.subscribe u cat_id) w).2.db.catalogue =
      w.db.catalogue := by
  cases hsub : CategoriesController.current_sub w.db u cat_id with
  | true =>
    rw [exec_subscribe_unset hsub]
    rfl
  | false =>
    rw [exec_subscribe_set hsub]
    cases assignInteger cat_id with
    | none => rfl
    | some c =>
      dsimp only
      split_ifs <;> rfl

/-- What creating a comment leaves. -/
theorem comments_create_db (u : Row User) (picture_id : String) (body : Option String) :
    (Action.exec (CommentsController.create u picture_id body now) w).2.db = match body with
      | some b =>
        if w.db.pictures.Has (to_i picture_id) && Comment.validBody (some b) then
          w.db.addComment u.id (to_i picture_id) b now
        else w.db
      | none => w.db := by
  simp only [CommentsController.create, Action.exec_bind, exec_database]
  cases hp : w.db.pictures.find? (to_i picture_id) with
  | none =>
    have hhas : ¬ w.db.pictures.Has (to_i picture_id) := by
      simp [Table.has_iff_exists_find?, hp]
    cases body <;> simp [hhas]
  | some p =>
    have hhas : w.db.pictures.Has (to_i picture_id) := Table.has_of_find?_eq_some hp
    have hid : p.id = to_i picture_id := (Table.find?_eq_some_iff.mp hp).2
    cases body with
    | none => rfl
    | some b =>
      dsimp only
      by_cases hbody : Comment.validBody (some b)
      · rw [if_pos (by simp [hhas, hbody]), ← hid]
        simp only [Comment.create, Action.exec_bind, exec_database, hbody, ite_true, exec_write,
          Action.exec_pure, CommentsController.announce, exec_tracking_comment, exec_trigger]
        rfl
      · rw [if_neg (by simp [hbody])]
        simp only [Comment.create, Action.exec_bind, exec_database, hbody, Bool.false_eq_true,
          ite_false, Action.exec_pure]

/-- A message is written to its own table. -/
theorem messages_create_db (u : Row User) (receiver_id text event_name : Option String) :
    let run := Action.exec (MessagesController.create (some u) receiver_id text event_name) w
    run.2.db = { w.db with messages := run.2.db.messages } := by
  obtain ⟨ms, hworld⟩ := exec_message_world u receiver_id text event_name w
  dsimp only
  rw [hworld]

/-- A comment touches its picture, which the catalogue does not show. -/
theorem catalogue_comment (u : Row User) (picture_id : String) (body : Option String) :
    (Action.exec (CommentsController.create u picture_id body now) w).2.db.catalogue =
      w.db.catalogue := by
  rw [comments_create_db]
  cases body with
  | none => rfl
  | some b =>
    dsimp only
    split_ifs
    · exact catalogue_addComment _ _ _
    · rfl

/-- Outside the admin pages nothing is put up. -/
theorem catalogue_route {route : Route} (hroute : route.admin = false) (user : Option (Row User)) :
    (Action.exec (route.run user now) w).2.db.catalogue = w.db.catalogue := by
  have hauthenticate : ∀ action : Row User → App Response,
      (∀ u, (Action.exec (action u) w).2.db.catalogue = w.db.catalogue) →
        (Action.exec (do action (← authenticate user)) w).2.db.catalogue = w.db.catalogue := by
    intro action haction
    cases user with
    | none => rfl
    | some u => exact haction u
  cases route with
  | pictures_view | devise_view => rfl
  | categories_check_subscribe => exact hauthenticate _ fun _ => rfl
  | pictures_like pic_id check => exact hauthenticate _ fun u => catalogue_like u pic_id check
  | categories_subscribe cat_id => exact hauthenticate _ fun u => catalogue_subscribe u cat_id
  | comments_create picture_id body =>
    exact hauthenticate _ fun u => catalogue_comment u picture_id body
  | messages_create receiver_id text event_name =>
    cases user with
    | none => rfl
    | some u =>
      rw [Route.run, messages_create_db]
      rfl
  | pusher_auth channel_name => cases user <;> rfl
  | registrations_create params captcha validatable digest =>
    simp only [Route.run, RegistrationsController.create, Action.exec_ite, Action.exec_bind,
      exec_insertUser, Action.exec_pure]
    split_ifs
    · simp only [exec_tracking_sessions_create]
      rfl
    · rfl
    · rfl
  | registrations_destroy => exact hauthenticate _ fun u => catalogue_destroyUser u.id
  | sessions_create authenticated =>
    simp only [Route.run, SessionsController.create, Action.exec_bind, exec_database]
    cases current_user w.db authenticated with
    | none => rfl
    | some u =>
      simp only [Action.exec_bind, exec_write, exec_tracking_sessions_create, Action.exec_pure]
      rfl
  | sessions_destroy =>
    simp only [Route.run, SessionsController.destroy, Action.exec_bind,
      exec_tracking_sessions_destroy]
  | sessions_facebook auth tracked digest pick =>
    rw [Route.run, exec_facebook_world]
    cases User.find_by_uid w.db.users auth.uid pick <;> dsimp only <;> split_ifs <;> rfl
  | admin_users_destroy | admin_pictures_destroy | admin_categories_destroy
  | admin_pictures_create | admin_parser_create_picture | admin_categories_create => cases hroute

theorem catalogue_addPicture (t f : String) (ids : List Id) :
    (db.addPicture t f ids now).catalogue =
      { db.catalogue with
        pictures := db.catalogue.pictures.insert ⟨t, f, now⟩
        picture_categories := ids.foldl
          (fun t i => t.insert ⟨db.catalogue.pictures.next, i⟩) db.picture_categories } := by
  have hpictures := Table.update_insert (t := db.pictures)
    (fun p => (⟨p.val.title, p.val.filename, p.val.created_at⟩ : Exhibit)) ⟨t, f, now, now⟩
  rw [Database.catalogue, Database.addPicture, hpictures]
  rfl

theorem catalogue_create_picture (t f : Option String) (ids : List Id) :
    (Action.exec (Picture.create t f ids now) w).2.db.catalogue =
      w.db.catalogue.create_picture t f ids now := by
  rw [exec_picture_create]
  rcases t with _ | t <;> rcases f with _ | f <;> try rfl
  simp only [Catalogue.create_picture, Bool.and_eq_true, ite_and]
  split_ifs
  · exact catalogue_addPicture t f ids
  · rfl
  · rfl

/-- The mailing that follows writes nothing. -/
theorem catalogue_admin_picture (p : PictureParams) (show_ids : Option (List Id)) :
    (Action.exec (Admin.create_picture p show_ids now) w).2.db.catalogue =
      if p.category_ids.all fun i => w.db.categories.Has i then
        w.db.catalogue.create_picture p.title p.filename p.category_ids now
      else w.db.catalogue := by
  have hmail : ∀ cat_id, Action.Leaves (fun w => w.db.catalogue) (Admin.mail_subscribers cat_id) :=
    fun cat_id w => congrArg Database.catalogue (mail_subscribers_db cat_id w).1
  unfold Admin.create_picture
  rw [Action.exec_bind, exec_database]
  dsimp only
  rw [Action.exec_bind, exec_findAll]
  split_ifs
  · rw [← catalogue_create_picture]
    refine Action.Leaves.part_bind (fun w : World => w.db.catalogue) (fun id => ?_) w
    rcases id with _ | id
    · exact .pure _
    · cases show_ids with
      | none => exact .throw _
      | some cat_id => exact .bind (hmail cat_id) fun _ => .pure _
  · rfl

theorem catalogue_parser_page (file_addr : String) (filename : Option String)
    (categories : List String) :
    (Action.exec (Parser.create_picture file_addr filename categories now) w).2.db.catalogue =
      w.db.catalogue.create_picture (some file_addr) filename
        ((w.db.categories.rows.filter fun k => k.val.name ∈ categories).map (·.id)) now := by
  rw [Parser.create_picture, Action.exec_bind, exec_database, ← catalogue_create_picture]
  refine Action.Leaves.part_bind (fun w : World => w.db.catalogue) (fun id => ?_) w
  rcases id with _ | id
  · exact .throw _
  · exact .pure _

theorem catalogue_admin_category (name : Option String) :
    (Action.exec (Admin.create_category name) w).2.db.catalogue =
      w.db.catalogue.create_category name := by
  cases name with
  | none => rfl
  | some n =>
    simp only [Admin.create_category, Category.create, Catalogue.create_category,
      Action.exec_bind, exec_database, Action.exec_ite, Action.exec_pure, exec_write, exec_raise]
    by_cases hblank : blank? n
    · simp [hblank]
    · by_cases hfits : fitsString n <;> simp [hblank, hfits, Database.catalogue]

theorem catalogue_destroyPicture (i : Id) :
    (db.destroyPicture i now).catalogue =
      { db.catalogue with pictures := db.catalogue.pictures.delete fun p => p.id = i } := by
  let cleared := db.destroyComments (fun c => c.val.picture_id = i) now
  have hcleared : cleared.catalogue = db.catalogue := catalogue_destroyComments _
  have hpictures := Table.update_delete (t := cleared.pictures)
    (fun p => (⟨p.val.title, p.val.filename, p.val.created_at⟩ : Exhibit)) (fun j => j = i)
  rw [← hcleared]
  simpa [Database.catalogue, Database.destroyPicture, Database.destroyLikes, cleared]
    using hpictures

/-- What an administrator does shows in the catalogue. -/
theorem catalogue_admin {r : Request} (hroute : r.route.admin = true) (user : Option (Row User)) :
    (Action.exec (r.route.run user r.now) w).2.db.catalogue = w.db.catalogue.step r := by
  obtain ⟨session, url, now, route⟩ := r
  cases route with
  | admin_pictures_create p show_ids => exact catalogue_admin_picture p show_ids
  | admin_parser_create_picture file_addr filename categories =>
    exact catalogue_parser_page file_addr filename categories
  | admin_categories_create name => exact catalogue_admin_category name
  | admin_users_destroy i =>
    rw [Route.run, exec_admin_destroy]
    split_ifs
    · exact catalogue_destroyUser i
    · rfl
  | admin_pictures_destroy i =>
    simp only [Route.run, exec_admin_destroy, Catalogue.step, has_catalogue, decide_eq_true_eq]
    split_ifs
    · exact catalogue_destroyPicture i
    · rfl
  | admin_categories_destroy i =>
    simp only [Route.run, exec_admin_destroy, Catalogue.step, decide_eq_true_eq]
    split_ifs <;> first | rfl | contradiction
  | _ => cases hroute

/-- The tracking filter does not stop what cannot be hindered. -/
theorem trackable_of_unhindered {r : Request} (h : r.Unhindered) (hroute : r.route.admin = true)
    (db : Database) : r.trackable db = true := by
  unfold Request.trackable
  split
  · next u _ hu =>
    rcases h hroute with hsession | hurl
    · simp [Request.user, current_user, hsession] at hu
    · simp [Database.canTrack, hurl]
  · rfl

theorem Catalogue.step_of_not_admin {r : Request} (h : r.route.admin = false) (c : Catalogue) :
    c.step r = c := by
  obtain ⟨session, url, now, route⟩ := r
  cases route <;> first | rfl | cases h

/-- The catalogue after one request. -/
theorem catalogue_leaves {r : Request} (h : r.Unhindered) (w : World) :
    (r.leaves w).db.catalogue = w.db.catalogue.step r := by
  rw [Request.leaves, exec_run]
  cases hroute : r.route.admin with
  | true =>
    rw [if_pos (trackable_of_unhindered h hroute w.db), catalogue_admin hroute, catalogue_enter]
  | false =>
    rw [Catalogue.step_of_not_admin hroute]
    split_ifs
    · rw [catalogue_route hroute, catalogue_enter]
    · rfl

theorem catalogue_projection :
    Projection (fun w r => Request.leaves r w) (fun w => w.db.catalogue) Catalogue.step
      (fun _ => True) Request.Unhindered where
  keeps _ _ _ _ := trivial
  commutes w _ _ h := catalogue_leaves h w

end Catalogue

/-- Whatever else goes on, the catalogue is that of the administrators' requests. -/
theorem catalogue_noninterference (w w' : World) (rs rs' : List Request)
    (h : ∀ r ∈ rs, r.Unhindered) (h' : ∀ r ∈ rs', r.Unhindered)
    (hsame : w.db.catalogue = w'.db.catalogue)
    (hagree : rs.filter (fun r => r.route.admin) = rs'.filter fun r => r.route.admin) :
    (w.after rs).db.catalogue = (w'.after rs').db.catalogue :=
  catalogue_projection.noninterference (fun c _ => (Catalogue.step_of_not_admin · c)) trivial
    trivial h h' hsame hagree

/-! ### The holdings of a user -/

section Holdings

variable {db : Database} {w w' : World} {u : Id} {now : Time}

theorem holdings_destroyUser_of_ne {v : Id} (h : v ≠ u) :
    (db.destroyUser v now).holdings u = db.holdings u := by
  have hlikes : (db.likes.delete fun l => l.val.user_id = v).values (fun l => l.user_id = u) =
      db.likes.values fun l => l.user_id = u :=
    Table.values_delete_of_not fun l _ hl => by
      have hl : l.val.user_id = u := by simpa using hl
      simp [hl, h.symm]
  have hcomments : (db.comments.delete fun c => c.val.user_id = v).values (fun c => c.user_id = u) =
      db.comments.values fun c => c.user_id = u :=
    Table.values_delete_of_not fun c _ hc => by
      have hc : c.val.user_id = u := by simpa using hc
      simp [hc, h.symm]
  have hmember : (db.users.delete fun r => r.id = v).Has u ↔ db.users.Has u := by
    simp [h.symm]
  simp [Database.holdings, Database.destroyUser, Database.destroyLikes, Database.destroyComments,
    Database.touch, hlikes, hcomments, hmember]

theorem holdings_destroyUser (h : db.users.Has u) :
    (db.destroyUser u now).holdings u = (db.holdings u).leave := by
  have hlikes : (db.likes.delete fun l => l.val.user_id = u).values (fun l => l.user_id = u) =
      (db.likes.values fun l => l.user_id = u).filter fun _ => false :=
    Table.values_delete fun l hl => by simpa using hl
  have hcomments : (db.comments.delete fun c => c.val.user_id = u).values (fun c => c.user_id = u) =
      (db.comments.values fun c => c.user_id = u).filter fun _ => false :=
    Table.values_delete fun c hc => by simpa using hc
  simp [Database.holdings, Database.destroyUser, Database.destroyLikes, Database.destroyComments,
    Database.touch, hlikes, hcomments, Holdings.leave, h]

theorem holdings_destroyPicture (p : Id) :
    (db.destroyPicture p now).holdings u = (db.holdings u).lose p := by
  have hlikes : (db.likes.delete fun l => l.val.picture_id = p).values (fun l => l.user_id = u) =
      (db.likes.values fun l => l.user_id = u).filter fun l => l.picture_id ≠ p :=
    Table.values_delete fun l _ => by simp
  have hcomments : (db.comments.delete fun c => c.val.picture_id = p).values
      (fun c => c.user_id = u) =
        (db.comments.values fun c => c.user_id = u).filter fun c => c.picture_id ≠ p :=
    Table.values_delete fun c _ => by simp
  simp [Database.holdings, Database.destroyPicture, Database.destroyLikes,
    Database.destroyComments, Database.touch, hlikes, hcomments, Holdings.lose]

/-- The filters write nothing that a user holds. -/
theorem holdings_enter (r : Request) (db : Database) : (r.enter db).holdings u = db.holdings u := by
  refine Request.enter_rule (P := fun db' => db'.holdings u = db.holdings u) rfl
    (fun _ _ _ _ => rfl) (fun _ _ => rfl) fun db' v h => ?_
  rw [← h]
  simp [Database.holdings, Database.stamp]

/-- What is not done by the user, nor to the user or a picture, does not show. -/
theorem holdings_outcome {route : Route} {user : Option (Row User)}
    {res : Except Raised Response} (ho : Outcome now w route user res w')
    (hu : u < w.db.users.next)
    (hother : route.personal = true → ∀ v, user = some v → v.id ≠ u)
    (huser : route ≠ .admin_users_destroy u) (hpicture : ∀ p, route ≠ .admin_pictures_destroy p) :
    w'.db.holdings u = w.db.holdings u := by
  cases ho with
  | quiet _ _ hdb => rw [hdb]
  | like_created =>
    rw [Database.holdings, Database.addLike,
      Table.values_insert_of_not (by simp [hother rfl _ rfl])]
    rfl
  | @like_destroyed v _ p =>
    have hlikes : (w.db.likes.delete fun l => l.val.user_id = v.id && l.val.picture_id = p).values
        (fun l => l.user_id = u) = w.db.likes.values fun l => l.user_id = u :=
      Table.values_delete_of_not fun l _ hl => by
        have hl : l.val.user_id = u := by simpa using hl
        simp [hl, (hother rfl _ rfl).symm]
    simp [Database.holdings, Database.destroyLikes, hlikes]
  | subscribed => simp [Database.holdings, Table.values_insert_of_not, hother rfl _ rfl]
  | @unsubscribed v cat_id =>
    have hsubscriptions : (w.db.user_categories.delete fun s =>
        s.val.user_id = v.id && whereInteger cat_id = some s.val.category_id).values
          (fun s => s.user_id = u) = w.db.user_categories.values fun s => s.user_id = u :=
      Table.values_delete_of_not fun s _ hs => by
        have hs : s.val.user_id = u := by simpa using hs
        simp [hs, (hother rfl _ rfl).symm]
    simp [Database.holdings, hsubscriptions]
  | commented _ _ hdb =>
    rw [hdb]
    simp [Database.holdings, Database.addComment, Database.touch, Table.values_insert_of_not,
      hother rfl _ rfl]
  | messaged _ _ _ hdb =>
    rw [hdb]
    simp [Database.holdings, Table.values_insert_of_not, hother rfl _ rfl]
  | signed_up | facebook_stored => simp [Database.holdings, hu.ne]
  | cancelled => exact holdings_destroyUser_of_ne (hother rfl _ rfl)
  | user_destroyed => exact holdings_destroyUser_of_ne fun hi => huser (hi ▸ rfl)
  | picture_destroyed => exact absurd rfl (hpicture _)
  | picture_created _ _ _ hdb => rw [hdb]; rfl
  | category_destroyed | category_created => rfl
  -- the bookkeeping of a sign-in changes a row, and nobody's membership
  | signed_in | facebook_tracked =>
    simp only [Database.holdings, has_update_tracked_fields]
    rfl
  | not_signed_up | not_signed_in | signed_out | facebook_known => rfl

theorem holdings_like (v : Row User) (pic_id : Option String) :
    (Action.exec (PicturesController.like v pic_id none now) w).2.db.holdings v.id =
      (w.db.holdings v.id).like v.id pic_id := by
  have hstatus : ((w.db.holdings v.id).likes.any fun l => whereInteger pic_id = some l.picture_id) =
      PicturesController.status w.db v pic_id := Table.any_values _
  rw [Holdings.like, hstatus]
  cases hliked : PicturesController.status w.db v pic_id with
  | true =>
    rw [if_pos rfl]
    cases pic_id with
    | none => simp [PicturesController.status, whereInteger] at hliked
    | some s =>
      rw [exec_like_unset hliked, Option.bind_some]
      cases parseInteger s with
      | none => rfl
      | some p =>
        have hlikes : (w.db.likes.delete fun l =>
            l.val.user_id = v.id && l.val.picture_id = p).values (fun l => l.user_id = v.id) =
              (w.db.likes.values fun l => l.user_id = v.id).filter fun l => l.picture_id ≠ p :=
          Table.values_delete fun l hl => by
            have hl : l.val.user_id = v.id := by simpa using hl
            simp [hl]
        simp only [Database.holdings, Database.destroyLikes, hlikes]
        rfl
  | false =>
    rw [if_neg Bool.false_ne_true, exec_like_set hliked]
    cases assignInteger pic_id with
    | none => rfl
    | some p =>
      dsimp only
      split_ifs
      · rw [Database.holdings, Database.addLike, Table.values_insert (by simp)]
        rfl
      · rfl

theorem holdings_subscribe (v : Row User) (cat_id : Option String) :
    (Action.exec (CategoriesController.subscribe v cat_id) w).2.db.holdings v.id =
      (w.db.holdings v.id).subscribe v.id cat_id := by
  have hsub : ((w.db.holdings v.id).user_categories.any fun s =>
      whereInteger cat_id = some s.category_id) = CategoriesController.current_sub w.db v cat_id :=
    Table.any_values _
  rw [Holdings.subscribe, hsub]
  cases hsubscribed : CategoriesController.current_sub w.db v cat_id with
  | true =>
    have hsubscriptions : (w.db.user_categories.delete fun s =>
        s.val.user_id = v.id && whereInteger cat_id = some s.val.category_id).values
          (fun s => s.user_id = v.id) =
            (w.db.user_categories.values fun s => s.user_id = v.id).filter fun s =>
              whereInteger cat_id ≠ some s.category_id :=
      Table.values_delete fun s hs => by
        have hs : s.val.user_id = v.id := by simpa using hs
        simp [hs]
    rw [if_pos rfl, exec_subscribe_unset hsubscribed]
    simp only [Database.holdings, hsubscriptions]
  | false =>
    rw [if_neg Bool.false_ne_true, exec_subscribe_set hsubscribed]
    cases assignInteger cat_id with
    | none => rfl
    | some c =>
      dsimp only
      split_ifs
      · rw [Database.holdings, Table.values_insert (by simp)]
        rfl
      · rfl

theorem holdings_comment (v : Row User) (picture_id : String) (body : Option String) :
    (Action.exec (CommentsController.create v picture_id body now) w).2.db.holdings v.id =
      (w.db.holdings v.id).comment v.id w.db.catalogue picture_id body now := by
  rw [comments_create_db]
  cases body with
  | none => rfl
  | some b =>
    simp only [Holdings.comment, has_catalogue]
    split_ifs
    · rw [Database.holdings, Database.addComment, Database.touch, Table.values_insert (by simp)]
      simp [Database.holdings]
    · rfl

theorem holdings_message (v : Row User) (receiver_id text event_name : Option String) :
    (Action.exec (MessagesController.create (some v) receiver_id text event_name) w).2.db.holdings
        v.id = (w.db.holdings v.id).message v.id receiver_id text := by
  rw [messages_create_db, messages_create]
  unfold Holdings.message
  cases assignInteger receiver_id with
  | none => rfl
  | some i =>
    cases text with
    | none => rfl
    | some t =>
      dsimp only
      split_ifs
      · simp [Database.holdings, Table.values_insert]
      · rfl

/-- Outside the admin pages only the user's own requests count, if they pass the filters. -/
theorem Holdings.step_of_not_admin {r : Request} (hr : r.route.admin = false) (c : Catalogue)
    (h : Holdings) :
    h.step u c r =
      if r.session = some u && h.member && (!r.route.tracked || fitsString r.url) then
        h.act u c r.route r.now
      else h := by
  obtain ⟨session, url, now, route⟩ := r
  cases route <;> first | rfl | cases hr

theorem Holdings.step_of_not_concerns {r : Request} (hr : Concerns u r = false) (c : Catalogue)
    (h : Holdings) : h.step u c r = h := by
  obtain ⟨hadmin, hsession⟩ : r.route.admin = false ∧ r.session ≠ some u := by
    simpa [Concerns] using hr
  simp [Holdings.step_of_not_admin hadmin, hsession]

/-- Every URL that is stored fits its column. -/
def Database.UrlsFit (db : Database) : Prop := ∀ r ∈ db.urls.rows, fitsString r.val.url = true

theorem Database.urlsFit_iff : db.UrlsFit ↔ ∀ url, db.canTrack url = fitsString url := by
  constructor
  · intro h url
    rcases Option.eq_none_or_eq_some (db.url? url) with hurl | ⟨row, hurl⟩
    · simp [Database.canTrack, hurl]
    · have hrow : row.val.url = url := by simpa using List.find?_some hurl
      have hfits : fitsString url := hrow ▸ h row (mem_of_url? hurl)
      simp [Database.canTrack, hurl, hfits]
  · intro h row hrow
    rw [← h, Database.canTrack, Bool.or_eq_true]
    exact .inl (List.find?_isSome.mpr ⟨row, hrow, by simp⟩)

theorem Route.personal_of_admin {route : Route} (h : route.admin = true) :
    route.personal = false := by
  cases route <;> first | rfl | cases h

/-- What an administrator does to the holdings of a user. -/
theorem holdings_admin {r : Request} (hroute : r.route.admin = true) (hu : u < w.db.users.next)
    (user : Option (Row User)) :
    (Action.exec (r.route.run user r.now) w).2.db.holdings u =
      (w.db.holdings u).step u w.db.catalogue r := by
  have hrest := holdings_outcome (run_outcome r.route user r.now w) hu fun hpersonal =>
    absurd hpersonal (by simp [Route.personal_of_admin hroute])
  obtain ⟨session, url, now, route⟩ := r
  cases route with
  | admin_users_destroy i =>
    by_cases hi : i = u
    · subst hi
      simp only [Route.run, exec_admin_destroy, Holdings.step, if_true, decide_eq_true_eq]
      split_ifs with hhas
      · exact holdings_destroyUser hhas
      · simp [Holdings.leave, Database.holdings, hhas]
    · exact (hrest (by simpa using hi) (by simp)).trans (if_neg hi).symm
  | admin_pictures_destroy p =>
    simp only [Route.run, exec_admin_destroy, Holdings.step, has_catalogue, decide_eq_true_eq]
    split_ifs
    · exact holdings_destroyPicture p
    · rfl
  | admin_categories_destroy | admin_pictures_create | admin_parser_create_picture
  | admin_categories_create => exact (hrest (by simp) (by simp)).trans (ite_self _).symm
  | _ => cases hroute

/-- What the user does. -/
theorem holdings_own {v : Row User} {route : Route} (hroute : route.admin = false)
    (hv : w.db.users.Has v.id) :
    (Action.exec (route.run (some v) now) w).2.db.holdings v.id =
      (w.db.holdings v.id).act v.id w.db.catalogue route now := by
  by_cases hpersonal : route.personal = true
  · cases route with
    | pictures_like pic_id check =>
      cases check with
      | none => exact holdings_like v pic_id
      | some check => cases hpersonal
    | categories_subscribe cat_id => exact holdings_subscribe v cat_id
    | comments_create picture_id body => exact holdings_comment v picture_id body
    | messages_create receiver_id text event_name =>
      exact holdings_message v receiver_id text event_name
    | registrations_destroy => exact holdings_destroyUser hv
    | _ => cases hpersonal
  · have hsame := holdings_outcome (run_outcome route (some v) now w) hv.bounds.2
      (fun h => absurd h hpersonal) (fun h => by simp [h, Route.admin] at hroute)
      fun p h => by simp [h, Route.admin] at hroute
    rw [hsame]
    cases route with
    | pictures_like pic_id check =>
      cases check with
      | none => exact absurd rfl hpersonal
      | some check => rfl
    | categories_subscribe | comments_create | messages_create | registrations_destroy =>
      exact absurd rfl hpersonal
    | _ => rfl

theorem current_user_of_not_has {r : Request} (hsession : r.session = some u)
    (hu : ¬ db.users.Has u) : r.user db = none := by
  rw [Request.user, hsession]
  exact Option.eq_none_iff_forall_ne_some.mpr fun v hv => hu (Table.has_of_find?_eq_some hv)

/-- Somebody else's request. -/
theorem holdings_others {r : Request} (hroute : r.route.admin = false) (hu : u < w.db.users.next)
    (h : ∀ v, r.user w.db = some v → v.id ≠ u) :
    (r.leaves w).db.holdings u = w.db.holdings u := by
  unfold Request.leaves
  rcases run_cases r w with ⟨-, hrun⟩ | ⟨-, ho⟩
  · rw [hrun]
  · rw [← holdings_enter r w.db]
    refine holdings_outcome ho (hu.trans_eq (enter_users_next r w.db).symm) (fun _ => h)
      (fun hdestroy => ?_) fun p hdestroy => ?_
    · simp [hdestroy, Route.admin] at hroute
    · simp [hdestroy, Route.admin] at hroute

/-- The holdings after one request. -/
theorem holdings_leaves {r : Request} (h : r.Unhindered) (hu : u < w.db.users.next)
    (hurls : w.db.UrlsFit) :
    (r.leaves w).db.holdings u = (w.db.holdings u).step u w.db.catalogue r := by
  have henter : ∀ w', w' = { w with db := r.enter w.db } →
      w'.db.holdings u = w.db.holdings u ∧ w'.db.catalogue = w.db.catalogue ∧
        u < w'.db.users.next := by
    rintro _ rfl
    exact ⟨holdings_enter r w.db, catalogue_enter r w.db,
      hu.trans_eq (enter_users_next r w.db).symm⟩
  cases hroute : r.route.admin with
  | true =>
    obtain ⟨hholdings, hcatalogue, hnext⟩ := henter _ rfl
    rw [Request.leaves, exec_run, if_pos (trackable_of_unhindered h hroute w.db),
      holdings_admin hroute hnext, hholdings, hcatalogue]
  | false =>
    rw [Holdings.step_of_not_admin hroute]
    by_cases hsession : r.session = some u
    swap
    · rw [if_neg (by simp [hsession])]
      exact holdings_others hroute hu fun v hv => ne_of_user hsession hv
    by_cases hmember : w.db.users.Has u
    swap
    -- the session of a user who is gone
    · rw [if_neg (by simp [Database.holdings, hmember])]
      refine holdings_others hroute hu fun v hv => ?_
      rw [current_user_of_not_has hsession hmember] at hv
      cases hv
    obtain ⟨v, hv⟩ := Table.has_iff_exists_find?.mp hmember
    obtain rfl : v.id = u := (Table.find?_eq_some_iff.mp hv).2
    have huser : r.user w.db = some v := by
      rw [Request.user, hsession]
      exact hv
    have htrackable : r.trackable w.db = (!r.route.tracked || fitsString r.url) := by
      cases htracked : r.route.tracked <;>
        simp [Request.trackable, htracked, huser, Database.urlsFit_iff.mp hurls]
    have hthere : (decide (r.session = some v.id) && (w.db.holdings v.id).member) = true := by
      simp [hsession, Database.holdings, hmember]
    obtain ⟨hholdings, hcatalogue, hnext⟩ := henter _ rfl
    rw [Request.leaves, exec_run, htrackable, hthere, Bool.true_and]
    split_ifs
    · rw [huser, holdings_own hroute ((enter_has r v.id).1.mpr hmember), hholdings, hcatalogue]
    · rfl

theorem urls_outcome {route : Route} {user : Option (Row User)} {res : Except Raised Response}
    (ho : Outcome now w route user res w') : w'.db.urls = w.db.urls := by
  cases ho with
  | quiet _ _ hdb | messaged _ _ _ hdb => rw [hdb]
  | commented _ _ hdb | picture_created _ _ _ hdb =>
    rw [hdb]
    rfl
  | _ => rfl

/-- The URL of a request is stored only if it fits. -/
theorem urlsFit_leaves (r : Request) (h : w.db.UrlsFit) : (r.leaves w).db.UrlsFit := by
  unfold Request.leaves
  rcases run_cases r w with ⟨-, hrun⟩ | ⟨htrackable, ho⟩
  · rwa [hrun]
  · have henter : (r.enter w.db).UrlsFit := Database.urlsFit_iff.mpr fun url => by
      rw [(sameVisitors_enter htrackable).urls, Database.urlsFit_iff.mp h]
    intro row hrow
    exact henter row (urls_outcome ho ▸ hrow)

end Holdings

/-! ### Catalogue and holdings -/

/-- The user has an account or had one, and the stored URLs fit. -/
structure Registered (u : Id) (w : World) : Prop where
  user : u < w.db.users.next
  urls : w.db.UrlsFit

theorem personal_projection (u : Id) :
    Projection (fun w r => Request.leaves r w) (fun w => w.db.personal u) (Personal.step u)
      (Registered u) Request.Unhindered where
  keeps _ _ h _ := ⟨h.user.trans_le (users_later _ _).next, urlsFit_leaves _ h.urls⟩
  commutes w _ h hr :=
    congrArg₂ Personal.mk (catalogue_leaves hr w) (holdings_leaves hr h.user h.urls)

/-- Whatever the other users do, what a user holds is that of the user's own requests and
the administrators'. -/
theorem personal_noninterference (u : Id) (w w' : World) (rs rs' : List Request)
    (hw : Registered u w) (hw' : Registered u w') (h : ∀ r ∈ rs, r.Unhindered)
    (h' : ∀ r ∈ rs', r.Unhindered) (hsame : w.db.personal u = w'.db.personal u)
    (hagree : rs.filter (Concerns u) = rs'.filter (Concerns u)) :
    (w.after rs).db.personal u = (w'.after rs').db.personal u := by
  refine (personal_projection u).noninterference (fun p r hr => ?_) hw hw' h h' hsame hagree
  obtain ⟨hadmin, -⟩ : r.route.admin = false ∧ r.session ≠ some u := by simpa [Concerns] using hr
  rw [Personal.step, Catalogue.step_of_not_admin hadmin, Holdings.step_of_not_concerns hr]

/-! ### A concrete run -/

/-- The second user signs in, comments and likes while an administrator puts a picture up and
the first user likes it. -/
def Request.crowd : List Request :=
  [⟨none, "http://gallery/users/sign_in", 0, .sessions_create (some 2)⟩,
    ⟨none, "http://gallery/admin/pictures", 1,
      .admin_pictures_create ⟨some "Tower", some "tower.jpg", [1]⟩ none⟩,
    .by 2 (.comments_create "2" (some "What a tower")),
    .by 1 (.pictures_like (some "2") none),
    .by 2 (.pictures_like (some "2") none)]

theorem registered_sample : Registered 1 (.ofDatabase .sample) where
  user := by decide
  urls := by simp [Database.UrlsFit, World.ofDatabase, Database.sample, Database.empty]

theorem catalogue_noninterference_crowd :
    let w := World.ofDatabase .sample
    let rs := Request.crowd
    let rs' := rs.filter fun r => r.route.admin
    (w.after rs).db.catalogue.pictures.rows.length = 2 ∧
      (w.after rs).db.catalogue = (w.after rs').db.catalogue :=
  ⟨by decide, catalogue_noninterference _ _ _ _ (by decide) (by decide) rfl (by decide)⟩

theorem personal_noninterference_crowd :
    let w := World.ofDatabase .sample
    let rs := Request.crowd
    let rs' := rs.filter (Concerns 1)
    (w.after rs).db.likes.rows.length = 2 ∧ ((w.after rs).db.holdings 1).likes = [⟨1, 2⟩] ∧
      (w.after rs).db.personal 1 = (w.after rs').db.personal 1 :=
  ⟨by decide, by decide, personal_noninterference 1 _ _ _ _ registered_sample registered_sample
    (by decide) (by decide) rfl (by decide)⟩

end Gallery
