import Gallery.Theorems.Noninterference

/-!
# Requests that fail

Nothing rolls back a request that ends in an exception, but almost every action raises before
it writes: apart from the record of the visit, a failed request leaves nothing behind. The
exception is the admin form of a picture, which stores the picture and raises when the mailing
fails. All other failed requests of a run might as well not have been made, as far as the
catalogue and the holdings of any user go.

## Main results

* `personal_failed` — one request that fails
* `failures_leave_nothing` — a run without its failures
-/

namespace Gallery

open Store Rails App Semantics

section

variable {w w' : World} {u : Id} {now : Time}

/-- The request ends in an exception, and is not one for a new picture. -/
def Request.fails (w : World) (r : Request) : Bool :=
  match r.result w, r.route with
  | .ok _, _ => false
  | .error _, .admin_pictures_create _ _ => false
  | .error _, _ => true

theorem Request.fails_iff {r : Request} : r.fails w = true ↔
    (∃ e, r.result w = .error e) ∧ ∀ p show_ids, r.route ≠ .admin_pictures_create p show_ids := by
  unfold Request.fails
  split
  · next h => simp [h]
  · next h hroute => simp [h, hroute]
  · next h hroute => exact iff_of_true rfl ⟨⟨_, h⟩, hroute⟩

/-- What is put up by an action that raises. -/
theorem catalogue_failed {route : Route} {user : Option (Row User)} {e : Raised}
    (h : (Action.exec (route.run user now) w).1 = .error e)
    (hroute : ∀ p show_ids, route ≠ .admin_pictures_create p show_ids) :
    (Action.exec (route.run user now) w).2.db.catalogue = w.db.catalogue := by
  cases hadmin : route.admin with
  | false => exact catalogue_route hadmin user
  | true =>
    cases route with
    | admin_pictures_create p show_ids => exact absurd rfl (hroute p show_ids)
    | admin_parser_create_picture file_addr filename categories =>
      simp only [Route.run, Parser.create_picture, Action.exec_bind, exec_database,
        exec_picture_create] at h ⊢
      cases filename with
      | none => rfl
      | some f =>
        dsimp only at h ⊢
        split_ifs at h ⊢
        -- the stored picture is answered
        · cases h
        · rfl
        · rfl
    | admin_categories_create name =>
      cases name with
      | none => rfl
      | some n =>
        simp only [Route.run, Admin.create_category, Category.create, Action.exec_bind,
          exec_database, Action.exec_ite, Action.exec_pure, exec_write, exec_raise] at h ⊢
        split_ifs at h ⊢
        · rfl
        · cases h
        · rfl
    | admin_users_destroy i | admin_pictures_destroy i | admin_categories_destroy i =>
      rw [Route.run, exec_admin_destroy] at h ⊢
      split_ifs at h ⊢
      rfl
    | _ => cases hadmin

/-- An action that raises has stored nothing for the user. -/
theorem holdings_failed {route : Route} {user : Option (Row User)} {e : Raised}
    (ho : Outcome now w route user (.error e) w') : w'.db.holdings u = w.db.holdings u := by
  cases ho with
  | quiet _ _ hdb => rw [hdb]
  | picture_created _ _ _ hdb =>
    rw [hdb]
    rfl
  | not_signed_up | not_signed_in | signed_out | facebook_known => rfl

/-- A request that fails changes neither the catalogue nor what anybody holds. -/
theorem personal_failed {r : Request} (h : r.fails w = true) :
    (r.leaves w).db.personal u = w.db.personal u := by
  obtain ⟨⟨e, herror⟩, hroute⟩ := Request.fails_iff.mp h
  have hcases := run_cases r w
  rw [show (Action.exec r.run w).1 = .error e from herror] at hcases
  rw [Request.leaves]
  rcases hcases with ⟨-, hrun⟩ | ⟨htrackable, ho⟩
  · rw [hrun]
  · have hholdings := (holdings_failed (u := u) ho).trans (holdings_enter r w.db)
    rw [Request.result, exec_run, if_pos htrackable] at herror
    have hcatalogue := (catalogue_failed herror hroute).trans (catalogue_enter r w.db)
    rw [exec_run, if_pos htrackable] at hholdings ⊢
    exact congrArg₂ Personal.mk hcatalogue hholdings

end

/-- A run, and the run without the requests that failed in it, leave the same catalogue and the
same holdings. -/
theorem failures_leave_nothing (u : Id) (w : World) (rs : List Request) (hw : Registered u w)
    (h : ∀ r ∈ rs, r.Unhindered) :
    (w.after (effective (fun w r => r.leaves w) Request.fails w rs)).db.personal u =
      (w.after rs).db.personal u :=
  (personal_projection u).view_effective (fun _ _ _ _ => personal_failed) hw h

/-- A parameter that is no number, a picture that is not there and a sign-out fail on the way. -/
theorem failures_leave_nothing_mixed :
    let w := World.ofDatabase .sample
    let rs := [Request.by 1 (.pictures_like (some "1") none), .by 1 .sessions_destroy,
      .by 1 (.comments_create "7" (some "Where is it?")), .by 1 (.pictures_like (some "1x") none),
      .by 1 (.comments_create "1" (some "Here it is"))]
    let rs' := effective (fun w r => r.leaves w) Request.fails w rs
    rs'.length = 2 ∧ ((w.after rs).db.holdings 1).comments.length = 1 ∧
      (w.after rs').db.personal 1 = (w.after rs).db.personal 1 :=
  ⟨by decide, by decide, failures_leave_nothing 1 _ _ registered_sample (by decide)⟩

end Gallery
