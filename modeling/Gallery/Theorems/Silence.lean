import Gallery.Theorems.Mailing
import Gallery.Theorems.Ownership

/-!
# A cancelled account silences its categories

Subscriptions outlive their user, and the mailing looks up every subscriber of the ticked
categories before it writes to anybody. The key of a user who is gone is never given out
again, and only its owner could remove the subscription, so nothing brings the mailing back:
once a subscriber of a category has cancelled the account or has been destroyed, no new
picture of the category is ever mailed to the others.

## Main definitions

* `Database.Dangles` — a subscription to the category names a user who is gone

## Main results

* `mail_subscribers_of_dangles` — the mailing raises
* `dangles_leaves` — no request removes the subscription
* `silenced_for_good` — from the end of the account on, in every run
-/

namespace Gallery

open Store Rails App Semantics

/-- A subscription to the category is left of a user who is gone. -/
def Database.Dangles (db : Database) (c : Id) : Prop :=
  ∃ s ∈ db.user_categories.rows, s.val.category_id = c ∧ s.val.user_id < db.users.next ∧
    ¬ db.users.Has s.val.user_id

section

variable {db db' : Database} {w w' : World} {u c : Id} {now : Time}

theorem Database.Dangles.later (h : db.Dangles c)
    (hrows : ∀ s ∈ db.user_categories.rows, ¬ db.users.Has s.val.user_id →
      s ∈ db'.user_categories.rows)
    (husers : db.users.Later db'.users) : db'.Dangles c := by
  obtain ⟨s, hs, hc, hnext, hgone⟩ := h
  exact ⟨s, hrows s hs hgone, hc, hnext.trans_le husers.next,
    fun hhas => hgone (husers.has _ hnext hhas)⟩

/-- Only a user who is there removes subscriptions, and only those of that user. -/
theorem dangles_outcome {route : Route} {user : Option (Row User)}
    {res : Except Raised Response} (ho : Outcome now w route user res w')
    (huser : ∀ v, user = some v → w.db.users.Has v.id) (h : w.db.Dangles c) :
    w'.db.Dangles c := by
  refine h.later (fun s hs hgone => ?_) (users_later_outcome ho)
  cases ho with
  | @unsubscribed v =>
    have hne : s.val.user_id ≠ v.id := by
      intro hid
      rw [hid] at hgone
      exact hgone (huser v rfl)
    exact List.mem_filter.mpr ⟨hs, by simp [hne]⟩
  | subscribed => exact List.mem_append_left _ hs
  | quiet _ _ hdb | messaged _ _ _ hdb => rwa [hdb]
  | commented _ _ hdb | picture_created _ _ _ hdb =>
    rw [hdb]
    exact hs
  | _ => exact hs

theorem dangles_enter (r : Request) (h : db.Dangles c) : (r.enter db).Dangles c := by
  refine h.later (fun s hs _ => ?_) ⟨(enter_users_next r db).ge, fun i _ => (enter_has r i).1.mp⟩
  rwa [(enter_toggles r db).2]

theorem dangles_leaves (r : Request) (h : w.db.Dangles c) : (r.leaves w).db.Dangles c := by
  unfold Request.leaves
  rcases run_cases r w with ⟨-, hrun⟩ | ⟨-, ho⟩
  · rwa [hrun]
  · refine dangles_outcome ho (fun v hv => ?_) (dangles_enter r h)
    exact (enter_has r v.id).1.mpr (.intro (Request.mem_of_user hv))

/-- The mailing looks for the user who is gone. -/
theorem mail_subscribers_of_dangles {cat_ids : List Id} (h : w.db.Dangles c) (hc : c ∈ cat_ids) :
    Action.exec (Admin.mail_subscribers cat_ids) w = (.error ⟨.RecordNotFound, false⟩, w) := by
  obtain ⟨s, hs, rfl, -, hgone⟩ := h
  have husers : ¬ ((w.db.user_categories.rows.filter fun s => s.val.category_id ∈ cat_ids).map
      (·.val.user_id)).all (fun i => w.db.users.Has i) := by
    rw [List.all_eq_true]
    intro hall
    have hmem : s.val.user_id ∈ (w.db.user_categories.rows.filter fun s =>
        s.val.category_id ∈ cat_ids).map (·.val.user_id) :=
      List.mem_map_of_mem (List.mem_filter.mpr ⟨hs, by simpa using hc⟩)
    exact hgone (by simpa using hall _ hmem)
  simp only [Admin.mail_subscribers, Action.exec_bind, exec_database, exec_findAll, husers,
    Bool.false_eq_true, ite_false]
  split_ifs <;> rfl

/-- The picture may be stored, and then the request fails. -/
theorem create_picture_of_dangles {p : PictureParams} {cat_ids : List Id} (h : w.db.Dangles c)
    (hc : c ∈ cat_ids) :
    (Action.exec (Admin.create_picture p (some cat_ids) now) w).1 ≠ .ok .redirect ∧
      (Action.exec (Admin.create_picture p (some cat_ids) now) w).2.mails = w.mails := by
  obtain ⟨title, filename, ids⟩ := p
  simp only [Admin.create_picture, Action.exec_bind, exec_database, exec_findAll]
  split_ifs
  swap
  · exact ⟨by simp, rfl⟩
  rcases title with _ | t
  · exact ⟨by simp [exec_picture_create], by simp [exec_picture_create]⟩
  rcases filename with _ | f
  · exact ⟨by simp [exec_picture_create], by simp [exec_picture_create]⟩
  simp only [exec_picture_create]
  split_ifs
  · -- storing the picture changes neither subscriptions nor users
    have hstored : (w.db.addPicture t f ids now).Dangles c := h
    simp only [Action.exec_bind, mail_subscribers_of_dangles
      (w := { w with db := w.db.addPicture t f ids now }) hstored hc]
    exact ⟨by simp, trivial⟩
  · exact ⟨by simp, rfl⟩
  · exact ⟨by simp, rfl⟩

/-- A subscriber's account comes to its end. -/
theorem dangles_of_destroyed {r : Request}
    (hsub : (⟨u, c⟩ : UserCategory) ∈ w.db.user_categories.vals)
    (hr : r.route = .admin_users_destroy u ∨ r.route = .registrations_destroy ∧ r.session = some u)
    (hdone : r.result w = .ok .redirect) : (r.leaves w).db.Dangles c := by
  have hdestroyed : ∃ db : Database, db.user_categories = w.db.user_categories ∧ db.users.Has u ∧
      (r.leaves w).db = db.destroyUser u r.now := by
    refine ⟨r.enter w.db, (enter_toggles r w.db).2, ?_⟩
    rw [Request.result, exec_run] at hdone
    rw [Request.leaves, exec_run]
    split_ifs at hdone ⊢
    rcases hr with hr | ⟨hr, hsession⟩
    · rw [hr] at hdone ⊢
      simp only [Route.run, exec_admin_destroy, decide_eq_true_eq] at hdone ⊢
      split_ifs at hdone ⊢ with hhas
      exact ⟨hhas, rfl⟩
    · cases huser : r.user w.db with
      | none =>
        rw [hr, huser] at hdone
        cases hdone
      | some v =>
        obtain rfl : v.id = u := by
          rw [Request.user, hsession] at huser
          exact (Table.find?_eq_some_iff.mp huser).2
        rw [hr]
        exact ⟨(enter_has r v.id).1.mpr (.intro (Request.mem_of_user huser)), rfl⟩
  obtain ⟨db, hsame, hhas, hdb⟩ := hdestroyed
  obtain ⟨s, hs, hval⟩ := Table.mem_vals.mp hsub
  rw [hdb]
  refine ⟨s, ?_, by rw [hval], ?_, ?_⟩
  · rw [← hsame] at hs
    exact hs
  · rw [hval]
    exact hhas.bounds.2
  · rw [hval]
    simp [Database.destroyUser]

end

/-- From the end of a subscriber's account on, whatever happens, no picture that is put up for
the category is mailed to anybody. -/
theorem silenced_for_good (w : World) (u c : Id)
    (hsub : (⟨u, c⟩ : UserCategory) ∈ w.db.user_categories.vals) (r : Request)
    (hr : r.route = .admin_users_destroy u ∨ r.route = .registrations_destroy ∧ r.session = some u)
    (hdone : r.result w = .ok .redirect) (w' : World)
    (hrun : (server fun s => s = r.leaves w).Reachable w') (r' : Request) (p : PictureParams)
    (cat_ids : List Id) (hr' : r'.route = .admin_pictures_create p (some cat_ids))
    (hc : c ∈ cat_ids) :
    r'.result w' ≠ .ok .redirect ∧ (r'.leaves w').mails = w'.mails := by
  have hdangles : w'.db.Dangles c := by
    refine System.Reachable.invariant (P := fun w => w.db.Dangles c) hrun ?_ ?_
    · rintro _ rfl
      exact dangles_of_destroyed hsub hr hdone
    · rintro w r w' h hstep
      rw [← server_step.mp hstep]
      exact dangles_leaves r h
  rw [Request.result, Request.leaves, exec_run]
  split_ifs
  · rw [hr']
    exact create_picture_of_dangles (w := { w' with db := r'.enter w'.db })
      (dangles_enter r' hdangles) hc
  · exact ⟨by simp, rfl⟩

/-- Ada and Bob subscribe and Ada cancels the account; Bob likes a picture, a new picture is
stored, and Bob is not written to. -/
theorem silenced_for_good_bob :
    let w := (World.ofDatabase .sample).after
      [.by 1 (.categories_subscribe (some "1")), .by 2 (.categories_subscribe (some "1"))]
    let r := Request.by 1 .registrations_destroy
    let like := Request.by 2 (.pictures_like (some "1") none)
    let r' : Request := ⟨none, "http://gallery/admin/pictures", 1,
      .admin_pictures_create ⟨some "Tower", some "tower.jpg", [1]⟩ (some [1])⟩
    let w' := like.leaves (r.leaves w)
    w'.db.likes.rows.length = 1 ∧ (r'.leaves w').db.pictures.Has 2 ∧
      (r'.leaves w).mails.length = 1 ∧ r'.result w' ≠ .ok .redirect ∧
      (r'.leaves w').mails = w'.mails :=
  ⟨by decide, by decide, by decide, silenced_for_good _ 1 1 (by decide)
    (.by 1 .registrations_destroy) (.inr ⟨rfl, rfl⟩) (by decide) _
    ((System.Reachable.init rfl).step (server_step.mpr
      (show (Request.by 2 (.pictures_like (some "1") none)).leaves _ = _ from rfl)))
    _ _ [1] rfl (by decide)⟩

end Gallery
