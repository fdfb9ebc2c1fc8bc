import Gallery.Semantics.Runs
import Gallery.Theorems.Buttons

/-!
# Likes and subscriptions by counting

Like and subscribe requests turn what they find into its opposite, whatever it is and however
the user got there. So nothing is needed of a run but a number: a user likes a picture after
the run exactly if an even number of requests for it have completed and the user liked it
before, or an odd number and the user did not. What a request names is what Rails reads into
its parameter, numerals with other text behind them included.

## Main definitions

* `Mark` — a like or a subscription, on or off for each user
* `Mark.turns` — a request for it that completes

## Main results

* `mark_leaves` — one request turns the mark or leaves it
* `marks_by_parity` — runs
-/

namespace Gallery

open Store Rails App Semantics

/-- What a user can turn on and off. -/
inductive Mark
  | like (picture_id : Id)
  | subscription (category_id : Id)
deriving DecidableEq, Repr

namespace Mark

/-- The row it is about. -/
def target : Mark → Id
  | like p => p
  | subscription c => c

/-- It is on for the user. -/
def IsSet (u : Id) (db : Database) : Mark → Prop
  | like p => (⟨u, p⟩ : Like) ∈ db.likes.vals
  | subscription c => (⟨u, c⟩ : UserCategory) ∈ db.user_categories.vals

instance (u : Id) (db : Database) : DecidablePred (IsSet u db)
  | like p => inferInstanceAs (Decidable ((⟨u, p⟩ : Like) ∈ db.likes.vals))
  | subscription c =>
    inferInstanceAs (Decidable ((⟨u, c⟩ : UserCategory) ∈ db.user_categories.vals))

/-- The action turns it. -/
def turnedBy (route : Route) : Mark → Bool
  | like p =>
    match route with
    | .pictures_like pic_id none => assignInteger pic_id = some p
    | _ => false
  | subscription c =>
    match route with
    | .categories_subscribe cat_id => assignInteger cat_id = some c
    | _ => false

theorem turnedBy_like {route : Route} {p : Id} : (like p).turnedBy route = true ↔
    ∃ pic_id, route = .pictures_like pic_id none ∧ assignInteger pic_id = some p := by
  constructor
  · intro h
    dsimp only [turnedBy] at h
    split at h
    · exact ⟨_, rfl, by simpa using h⟩
    · cases h
  · rintro ⟨pic_id, rfl, hp⟩
    simp [turnedBy, hp]

theorem turnedBy_subscription {route : Route} {c : Id} : (subscription c).turnedBy route = true ↔
    ∃ cat_id, route = .categories_subscribe cat_id ∧ assignInteger cat_id = some c := by
  constructor
  · intro h
    dsimp only [turnedBy] at h
    split at h
    · exact ⟨_, rfl, by simpa using h⟩
    · cases h
  · rintro ⟨cat_id, rfl, hc⟩
    simp [turnedBy, hc]

/-- The request of the user turns it, and completes. -/
def turns (u : Id) (m : Mark) (w : World) (r : Request) : Bool :=
  r.session = some u && m.turnedBy r.route && (r.result w).isOk

/-- The request takes it away with the user or the picture. A subscription stays. -/
def clearedBy (u : Id) (r : Request) : Mark → Bool
  | like p =>
    match r.route with
    | .registrations_destroy => r.session = some u
    | .admin_users_destroy i => i = u
    | .admin_pictures_destroy i => i = p
    | _ => false
  | subscription _ => false

end Mark

section Requests

variable {w w' : World} {u q : Id} {m : Mark}

/-! ### The user's own requests -/

/-- A like request that names a picture fails and changes no like, or it toggles the like. -/
theorem likes_cases {pic_id : Option String} (hq : assignInteger pic_id = some q) (u : Id)
    (url : String) (now : Time) (w : World) :
    let r := Request.likes u url pic_id none now
    ((∃ e, r.result w = .error e) ∧ (r.leaves w).db.likes = w.db.likes) ∨
      (∃ a, r.result w = .ok a) ∧ (r.leaves w).db.likes = w.db.likes.toggle ⟨u, q⟩ := by
  intro r
  by_cases hu : w.db.users.Has u
  swap
  · have hrun : Action.exec r.run w = _ := exec_unauthenticated rfl hu rfl
    rw [Request.result, Request.leaves, hrun]
    exact .inl ⟨⟨_, rfl⟩, rfl⟩
  by_cases hurl : w.db.canTrack url
  swap
  · have hrun : Action.exec r.run w = _ := exec_untrackable rfl hu rfl hurl
    rw [Request.result, Request.leaves, hrun]
    exact .inl ⟨⟨_, rfl⟩, rfl⟩
  obtain ⟨s, rfl⟩ : ∃ s, pic_id = some s := by
    obtain ⟨s, hs, -⟩ := Option.map_eq_some_iff.mp hq
    exact ⟨s, (Option.filter_eq_some_iff.mp hs).1⟩
  cases hparse : parseInteger s with
  | some p =>
    obtain rfl : p = q := Option.some.inj ((assignInteger_of_parseInteger hparse).symm.trans hq)
    obtain ⟨hresult, hlikes, -⟩ := likes_toggle hu hurl hparse now
    exact .inr ⟨⟨_, hresult⟩, hlikes⟩
  | none =>
    -- a numeral with text behind it can be stored but not removed
    obtain ⟨row, hrow⟩ := Table.has_iff_exists_find?.mp hu
    obtain rfl : row.id = u := (Table.find?_eq_some_iff.mp hrow).2
    have hsame : (r.enter w.db).likes = w.db.likes := (enter_toggles r w.db).1
    rw [Request.result, Request.leaves, exec_likes hrow hurl]
    cases hstatus : PicturesController.status (r.enter w.db) row (some s) with
    | true =>
      rw [exec_like_unset hstatus, hparse]
      exact .inl ⟨⟨_, rfl⟩, hsame⟩
    | false =>
      rw [exec_like_set hstatus, hq]
      dsimp only
      split_ifs
      · have hnot : (⟨row.id, q⟩ : Like) ∉ w.db.likes.vals := by
          rw [← hsame, ← hasLike_iff (whereInteger_of_assignInteger hq), ← status_iff, hstatus]
          exact Bool.false_ne_true
        rw [Table.toggle_of_notMem hnot, ← hsame]
        exact .inr ⟨⟨_, rfl⟩, rfl⟩
      · exact .inl ⟨⟨_, rfl⟩, hsame⟩

/-! ### All other requests -/

/-- What is not turned and not cleared stays as it is. -/
theorem mark_outcome {r : Request} {user : Option (Row User)} {res : Except Raised Response}
    (ho : Outcome r.now w r.route user res w') (hm : m.target ≠ 0)
    (hsession : ∀ v, user = some v → r.session = some v.id)
    (hturned : r.session = some u → m.turnedBy r.route = false)
    (hcleared : m.clearedBy u r = false) : m.IsSet u w'.db ↔ m.IsSet u w.db := by
  obtain ⟨session, url, now, route⟩ := r
  dsimp only [Mark.target, Mark.clearedBy] at ho hm hsession hturned hcleared
  cases m with
  | like p =>
    cases ho with
    | @like_created v pic_id q _ hq _ _ =>
      have hne : (⟨u, p⟩ : Like) ≠ ⟨v.id, q⟩ := by
        rintro ⟨⟩
        simpa [Mark.turnedBy, hq] using hturned (hsession v rfl)
      simp [Mark.IsSet, Database.addLike, hne]
    | @like_destroyed v s q _ hq _ =>
      have hne : v.id = u → q ≠ p := by
        rintro rfl rfl
        simpa [Mark.turnedBy, assignInteger_of_parseInteger hq] using hturned (hsession v rfl)
      refine Table.mem_vals_delete_of_not fun l _ hl => ?_
      by_cases hv : v.id = u
      · simp [hl, (hne hv).symm]
      · simp [hl, Ne.symm hv]
    | @cancelled v =>
      have hv : u ≠ v.id := by simpa [hsession v rfl, eq_comm] using hcleared
      exact Table.mem_vals_delete_of_not fun l _ hl => by simp [hl, hv]
    | @user_destroyed _ i =>
      have hi : u ≠ i := by simpa [eq_comm] using hcleared
      exact Table.mem_vals_delete_of_not fun l _ hl => by simp [hl, hi]
    | @picture_destroyed _ i =>
      have hi : p ≠ i := by simpa [eq_comm] using hcleared
      exact Table.mem_vals_delete_of_not fun l _ hl => by simp [hl, hi]
    | quiet _ _ hdb => rw [hdb]
    | messaged _ _ _ hdb | commented _ _ hdb | picture_created _ _ _ hdb =>
      rw [hdb]
      rfl
    | _ => rfl
  | subscription c =>
    cases ho with
    | @subscribed v cat_id d _ hd _ _ =>
      have hne : (⟨u, c⟩ : UserCategory) ≠ ⟨v.id, d⟩ := by
        rintro ⟨⟩
        simpa [Mark.turnedBy, hd] using hturned (hsession v rfl)
      simp [Mark.IsSet, hne]
    | @unsubscribed v cat_id _ _ =>
      have hne : v.id = u → whereInteger cat_id ≠ some c := by
        rintro rfl hc
        simpa [Mark.turnedBy, assignInteger_of_whereInteger hc hm] using hturned (hsession v rfl)
      refine Table.mem_vals_delete_of_not fun s _ hs => ?_
      by_cases hv : v.id = u
      · simp [hs, hne hv]
      · simp [hs, Ne.symm hv]
    | quiet _ _ hdb => rw [hdb]
    | messaged _ _ _ hdb | commented _ _ hdb | picture_created _ _ _ hdb =>
      rw [hdb]
      rfl
    | _ => rfl

theorem mark_enter (u : Id) (m : Mark) (r : Request) (db : Database) :
    m.IsSet u (r.enter db) ↔ m.IsSet u db := by
  obtain ⟨hlikes, hsubscriptions⟩ := enter_toggles r db
  cases m with
  | like p => simp only [Mark.IsSet, hlikes]
  | subscription c => simp only [Mark.IsSet, hsubscriptions]

/-- A request of the user that names the row. -/
theorem mark_turned (w : World) {r : Request} (hsession : r.session = some u)
    (hturned : m.turnedBy r.route = true) :
    m.IsSet u (r.leaves w).db ↔ (m.IsSet u w.db ↔ m.turns u w r = false) := by
  obtain ⟨session, url, now, route⟩ := r
  obtain rfl : session = some u := hsession
  have hturns : m.turns u w ⟨some u, url, now, route⟩ =
      (Request.result ⟨some u, url, now, route⟩ w).isOk := by
    simp [Mark.turns, hturned]
  rw [hturns]
  cases m with
  | like p =>
    obtain ⟨pic_id, rfl, hp⟩ := Mark.turnedBy_like.mp hturned
    rcases likes_cases hp u url now w with ⟨⟨e, hresult⟩, hlikes⟩ | ⟨⟨a, hresult⟩, hlikes⟩
    · rw [Request.likes] at hresult hlikes
      simp [Mark.IsSet, hresult, hlikes, Except.isOk, Except.toBool]
    · rw [Request.likes] at hresult hlikes
      simp [Mark.IsSet, hresult, hlikes, Table.mem_toggle, Except.isOk, Except.toBool]
  | subscription c =>
    obtain ⟨cat_id, rfl, hc⟩ := Mark.turnedBy_subscription.mp hturned
    rcases subscribes_cases hc u url now w with ⟨⟨e, hresult⟩, hsame⟩ | ⟨hresult, htoggle⟩
    · rw [Request.subscribes] at hresult hsame
      simp [Mark.IsSet, hresult, hsame, Except.isOk, Except.toBool]
    · rw [Request.subscribes] at hresult htoggle
      simp [Mark.IsSet, hresult, htoggle, Table.mem_toggle, Except.isOk, Except.toBool]

/-- One request turns the mark or leaves it. -/
theorem mark_leaves (hm : m.target ≠ 0) (w : World) {r : Request} (hr : m.clearedBy u r = false) :
    m.IsSet u (r.leaves w).db ↔ (m.IsSet u w.db ↔ m.turns u w r = false) := by
  by_cases hown : r.session = some u ∧ m.turnedBy r.route = true
  · exact mark_turned w hown.1 hown.2
  have hnot : r.session = some u → m.turnedBy r.route = false := by simpa using hown
  have hfalse : m.turns u w r = false := by
    by_cases hsession : r.session = some u
    · simp [Mark.turns, hnot hsession]
    · simp [Mark.turns, hsession]
  rw [hfalse, iff_true_right rfl]
  unfold Request.leaves
  rcases run_cases r w with ⟨-, hrun⟩ | ⟨-, ho⟩
  · rw [hrun]
  · rw [mark_outcome ho hm (fun v => Request.session_of_user) hnot hr, mark_enter]

end Requests

/-! ### Runs -/

/-- A user holds a like or a subscription after a run exactly as the number of the user's
completed requests for it says: as before if it is even, the other way round if it is odd. -/
theorem marks_by_parity (u : Id) (m : Mark) (hm : m.target ≠ 0) (w : World) (rs : List Request)
    (hrs : ∀ r ∈ rs, m.clearedBy u r = false) :
    m.IsSet u (w.after rs).db ↔ (m.IsSet u w.db ↔
      Even (effective (fun w r => r.leaves w) (fun w r => !m.turns u w r) w rs).length) :=
  @parity World Request (fun w r => r.leaves w) (fun w => m.IsSet u w.db) (m.turns u) w rs
    fun w r hr => mark_leaves hm w (hrs r hr)

/-- Three requests for the picture complete; the last one of the user fails. -/
theorem marks_by_parity_thrice :
    let w := World.ofDatabase .sample
    let rs := [Request.by 1 (.pictures_like (some "1") none), .by 1 (.comments_create "1" none),
      .by 1 (.pictures_like (some "1") none), .by 1 (.categories_subscribe (some "1")),
      .by 2 (.pictures_like (some "1") none), .by 1 (.pictures_like (some "1 or 2") none),
      .by 1 (.pictures_like (some "1 or 2") none)]
    let m := Mark.like 1
    m.IsSet 1 (w.after rs).db ∧ (m.IsSet 1 (w.after rs).db ↔ (m.IsSet 1 w.db ↔
      Even (effective (fun w r => r.leaves w) (fun w r => !m.turns 1 w r) w rs).length)) :=
  ⟨by decide, marks_by_parity 1 (.like 1) (by decide) _ _ (by decide)⟩

end Gallery
