import Gallery.Controllers.Server

/-!
# Mailing the subscribers of a new picture

The admin `create` action reads the ticked categories from `params[:show]`,
while the form of the resource submits them under `params[:picture]`: with the
form, the request raises once the picture has been stored. Given the ids, the
mailing itself is right as long as no subscription dangles and there is
somebody to write to.

## Main definitions

* `MailsSubscribers` — what a new picture's mailing is for
* `Admin.form` — the request the form submits

## Main results

* `mail_subscribers_of_references` — the mailing, given the ids of the categories
* `form_never_mails` — a picture stored through the form ends the request in an exception
-/

namespace Gallery

open Store Rails App Semantics

namespace Database

/-- The users subscribed to one of the categories. -/
def subscribers (db : Database) (cat_ids : List Id) : List (Row User) :=
  db.users.rows.filter fun u =>
    db.user_categories.rows.any fun s => s.val.user_id = u.id && s.val.category_id ∈ cat_ids

/-- Those of the categories that an existing user is subscribed to. -/
def subscribed (db : Database) (cat_ids : List Id) : List (Row Category) :=
  db.categories.rows.filter fun c =>
    c.id ∈ cat_ids && db.user_categories.rows.any fun s =>
      s.val.category_id = c.id && db.users.Has s.val.user_id

end Database

/-- The mailing of a new picture in the categories `cat_ids`: the request
completes, one mail goes to the subscribers and names their categories, and
none goes out when there are no subscribers. -/
structure MailsSubscribers (w : World) (cat_ids : List Id) (completes : Bool) (w' : World) :
    Prop where
  completes : completes = true
  silent : w.db.subscribers cat_ids = [] → w'.mails = w.mails
  mailed : w.db.subscribers cat_ids ≠ [] → ∃ mail, w'.mails = w.mails ++ [mail] ∧
    mail.recipients.Perm ((w.db.subscribers cat_ids).map (·.val.email)) ∧
    mail.subject.Perm ((w.db.subscribed cat_ids).map (·.val.name))

/-! ### The mailing itself -/

section Mailing

variable {w : World} {cat_ids : List Id}

theorem findAll_users_eq_subscribers (db : Database) (cat_ids : List Id) :
    (db.users.rows.filter fun u => u.id ∈
      (db.user_categories.rows.filter fun s => s.val.category_id ∈ cat_ids).map (·.val.user_id)) =
      db.subscribers cat_ids := by
  refine List.filter_congr fun u _ => ?_
  rw [Bool.eq_iff_iff]
  simp only [List.mem_map, List.mem_filter, decide_eq_true_eq, List.any_eq_true, Bool.and_eq_true]
  exact ⟨fun ⟨s, ⟨hs, hc⟩, hu⟩ => ⟨s, hs, hu, hc⟩, fun ⟨s, hs, hu, hc⟩ => ⟨s, ⟨hs, hc⟩, hu⟩⟩

/-- Without dangling subscriptions, looking up the subscribed categories finds
those with an existing subscriber. -/
theorem findAll_categories_eq_subscribed {db : Database}
    (husers : ∀ s ∈ db.user_categories.rows, s.val.category_id ∈ cat_ids →
      db.users.Has s.val.user_id) :
    (db.categories.rows.filter fun c => c.id ∈
      (db.user_categories.rows.filter fun s =>
        s.val.category_id ∈ cat_ids).map (·.val.category_id)) = db.subscribed cat_ids := by
  refine List.filter_congr fun c _ => ?_
  rw [Bool.eq_iff_iff]
  simp only [List.mem_map, List.mem_filter, decide_eq_true_eq, List.any_eq_true, Bool.and_eq_true]
  constructor
  · rintro ⟨s, ⟨hs, hc⟩, hid⟩
    exact ⟨hid ▸ hc, s, hs, hid, husers s hs hc⟩
  · rintro ⟨hc, s, hs, hid, -⟩
    exact ⟨s, ⟨hs, hid ▸ hc⟩, hid⟩

/-- Given the ids of the ticked categories, the mailing does what it is for if
their subscriptions name existing rows and somebody is subscribed. -/
theorem mail_subscribers_of_references
    (husers : ∀ s ∈ w.db.user_categories.rows, s.val.category_id ∈ cat_ids →
      w.db.users.Has s.val.user_id)
    (hcategories : ∀ c ∈ cat_ids, w.db.categories.Has c)
    (hsome : w.db.subscribers cat_ids ≠ []) :
    MailsSubscribers w cat_ids (Action.exec (Admin.mail_subscribers cat_ids) w).1.toBool
      (Action.exec (Admin.mail_subscribers cat_ids) w).2 := by
  -- `find` raises when a single row is missing, so all of them have to be there
  have hc : ((w.db.user_categories.rows.filter fun s => s.val.category_id ∈ cat_ids).map
      (·.val.category_id)).all (fun i => w.db.categories.Has i) := by
    rw [List.all_eq_true]
    intro c hc
    obtain ⟨s, hs, rfl⟩ := List.mem_map.mp hc
    have hs : s.val.category_id ∈ cat_ids := by simpa using (List.mem_filter.mp hs).2
    simpa using hcategories _ hs
  have hu : ((w.db.user_categories.rows.filter fun s => s.val.category_id ∈ cat_ids).map
      (·.val.user_id)).all (fun i => w.db.users.Has i) := by
    rw [List.all_eq_true]
    intro u hu
    obtain ⟨s, hs, rfl⟩ := List.mem_map.mp hu
    obtain ⟨hs, hc⟩ := List.mem_filter.mp hs
    simpa using husers s hs (by simpa using hc)
  have hrecipients : ((w.db.subscribers cat_ids).map (·.val.email)).isEmpty = false := by
    simpa [List.isEmpty_eq_false_iff] using hsome
  have hrun : Action.exec (Admin.mail_subscribers cat_ids) w =
      (.ok (), { w with mails := w.mails ++ [⟨(w.db.subscribers cat_ids).map (·.val.email),
        (w.db.subscribed cat_ids).map (·.val.name)⟩] }) := by
    simp only [Admin.mail_subscribers, Action.exec_bind, exec_database, exec_findAll, hc, hu,
      ite_true, exec_category_email, findAll_users_eq_subscribers,
      findAll_categories_eq_subscribed husers, hrecipients, Bool.false_eq_true, ite_false]
  rw [hrun]
  exact ⟨rfl, fun h => absurd h hsome, fun _ => ⟨_, rfl, .refl _, .refl _⟩⟩

end Mailing

/-! ### Through the form -/

/-- What the form of the resource submits: everything under `params[:picture]`. -/
def Admin.form (p : PictureParams) : Route := .admin_pictures_create p none

/-- Through the form the action either stores no picture, or stores it and raises. -/
theorem exec_form (p : PictureParams) (now : Time) (w : World) :
    (Action.exec (Admin.create_picture p none now) w).2.db.pictures.rows = w.db.pictures.rows ∨
      ∃ db, Action.exec (Admin.create_picture p none now) w =
        (.error ⟨.NoMethodError, false⟩, { w with db := db }) := by
  obtain ⟨title, filename, ids⟩ := p
  simp only [Admin.create_picture, Action.exec_bind, exec_database, exec_findAll]
  split_ifs with hids
  · rcases title with _ | t
    · exact .inl (by simp [exec_picture_create])
    rcases filename with _ | f
    · exact .inl (by simp [exec_picture_create])
    simp only [exec_picture_create]
    split_ifs with hvalid hfits
    · exact .inr ⟨_, rfl⟩
    · exact .inl rfl
    · exact .inl rfl
  · exact .inl rfl

/-- Whatever the state, a request that stores a picture through the form ends in
an exception and sends no mail, so it never does what the mailing is for. -/
theorem form_never_mails (w : World) (r : Request) (p : PictureParams)
    (hroute : r.route = Admin.form p)
    (hstored : (Action.exec r.run w).2.db.pictures.rows ≠ w.db.pictures.rows) :
    (Action.exec r.run w).1 = .error ⟨.NoMethodError, false⟩ ∧
      (Action.exec r.run w).2.mails = w.mails ∧
      ¬ MailsSubscribers w p.category_ids (Action.exec r.run w).1.toBool
        (Action.exec r.run w).2 := by
  have hpictures : (r.enter w.db).pictures = w.db.pictures :=
    Request.enter_rule (P := fun db => db.pictures = w.db.pictures) rfl (fun _ _ _ _ => rfl)
      (fun _ _ => rfl) fun _ _ h => h
  rw [exec_run] at hstored ⊢
  split_ifs at hstored ⊢ with htrackable
  · simp only [hroute, Admin.form, Route.run] at hstored ⊢
    rcases exec_form p r.now { w with db := r.enter w.db } with hnone | ⟨db, hrun⟩
    · exact absurd (hnone.trans (by rw [hpictures])) hstored
    · rw [hrun]
      exact ⟨rfl, rfl, fun h => by simpa [Except.toBool] using h.completes⟩
  · exact absurd rfl hstored

/-- A picture stored through the form in the only category. -/
def Admin.bridge : Request :=
  .by 2 (Admin.form ⟨some "Bridge at night", some "night.jpg", [1]⟩)

/-- The sample gallery once Ada has subscribed to its category. -/
def World.subscribed : World :=
  .ofDatabase { Database.sample with user_categories := Table.empty.insert ⟨1, 1⟩ }

theorem form_never_mails_bridge :
    World.subscribed.db.subscribers [1] ≠ [] ∧
      (Action.exec Admin.bridge.run World.subscribed).1 = .error ⟨.NoMethodError, false⟩ ∧
      (Action.exec Admin.bridge.run World.subscribed).2.mails = World.subscribed.mails ∧
      ¬ MailsSubscribers World.subscribed [1]
        (Action.exec Admin.bridge.run World.subscribed).1.toBool
        (Action.exec Admin.bridge.run World.subscribed).2 :=
  ⟨by decide, form_never_mails World.subscribed Admin.bridge
    ⟨some "Bridge at night", some "night.jpg", [1]⟩ rfl (by decide)⟩

/-- The picture is stored, its subscriber is not written to, and the request fails. -/
theorem subscriber_not_mailed :
    (Action.exec Admin.bridge.run World.subscribed).2.db.pictures.Has 2 ∧
      ¬ MailsSubscribers World.subscribed [1]
        (Action.exec Admin.bridge.run World.subscribed).1.toBool
        (Action.exec Admin.bridge.run World.subscribed).2 := by
  refine ⟨by decide, fun h => ?_⟩
  exact absurd h.completes (by decide)

end Gallery
