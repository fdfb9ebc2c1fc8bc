import Gallery.Controllers.Statements
import Gallery.Store.Reservation

/-!
# Natural keys under concurrency

No table has a unique index on its natural key, so that a key has at most one
row rests on the look-ups. It holds as long as no request makes its last
look-up for a key while another one stands between its own and its `COMMIT`;
when two requests overlap there, the key gets two rows.

## Main definitions

* `Apart` — a statement that is no last look-up inside another request's window

## Main results

* `exclusive_issue` — what one statement keeps
* `natural_keys_unique` — runs of such statements have one row per key
-/

namespace Gallery

open Store Rails Semantics

/-- A last look-up that finds nothing does so while no other request stands
between its look-up and its `COMMIT` for the same key. -/
def Apart (s : Requests) : Statement → Prop
  | .arrive .. => True
  | .issue i => ∀ key, (s.phase i).lastLookUp = some key → s.db.count key = 0 →
      ∀ j, j ≠ i → (s.phase j).holds ≠ some key

section Counts

variable {db : Database}

/-- A new row adds one to its own key. -/
theorem count_add (key k : NaturalKey) :
    (db.add key).count k = db.count k + if k = key then 1 else 0 := by
  cases key <;> cases k <;>
    simp only [Database.add, Database.count, Table.rows_insert, List.countP_append,
      List.countP_singleton, NaturalKey.like.injEq, NaturalKey.subscription.injEq,
      NaturalKey.url.injEq, Bool.and_eq_true, decide_eq_true_eq, reduceCtorEq, ite_false,
      add_zero] <;>
    grind

/-- Deleting rows never adds to a key. -/
theorem count_delete_likes (p : Row Like → Bool) (k : NaturalKey) :
    ({ db with likes := db.likes.delete p } : Database).count k ≤ db.count k := by
  cases k with
  | like u i => exact List.filter_sublist.countP_le
  | subscription u c => exact le_rfl
  | url s => exact le_rfl

theorem count_delete_subscriptions (p : Row UserCategory → Bool) (k : NaturalKey) :
    ({ db with user_categories := db.user_categories.delete p } : Database).count k ≤
      db.count k := by
  cases k with
  | like u i => exact le_rfl
  | subscription u c => exact List.filter_sublist.countP_le
  | url s => exact le_rfl

end Counts

/-- The keys held by the requests. -/
def Requests.holds (s : Requests) (i : ℕ) : Option NaturalKey := (s.phase i).holds

/-- When one request moves on, only the key it holds changes. -/
theorem holds_update (s : Requests) (db : Database) (i : ℕ) (phase : Phase) :
    Requests.holds ⟨db, Function.update s.phase i phase⟩ =
      Function.update s.holds i phase.holds := by
  funext j
  by_cases hj : j = i
  · simp [Requests.holds, hj]
  · simp [Requests.holds, hj]

/-- A statement that is no last look-up either leaves its request without a key
and adds no row, or passes the key it holds on, or commits it. -/
inductive Quiet (db : Database) (phase : Phase) : Database × Phase → Prop
  | lets_go {db' : Database} {phase' : Phase} (hphase : phase'.holds = none)
      (hle : ∀ k, db'.count k ≤ db.count k) : Quiet db phase (db', phase')
  | goes_on {phase' : Phase} (hphase : phase'.holds = phase.holds) : Quiet db phase (db, phase')
  | commits {key : NaturalKey} {phase' : Phase} (hkey : phase.holds = some key)
      (hphase : phase'.holds = none) : Quiet db phase (db.add key, phase')

theorem holds_afterLike (db : Database) (u : Id) (pic_id : Option String) :
    (Job.afterLike db u pic_id).holds = none := by
  unfold Job.afterLike
  split <;> split <;> rfl

theorem holds_afterSubscribe (db : Database) (u : Id) (cat_id : Option String) :
    (Job.afterSubscribe db u cat_id).holds = none := by
  unfold Job.afterSubscribe
  split <;> split <;> rfl

theorem quiet_issue (db : Database) (phase : Phase) (h : phase.lastLookUp = none) :
    Quiet db phase (phase.issue db) := by
  cases phase with
  | find_url | validate => simp [Phase.lastLookUp] at h
  | idle | done => exact .goes_on rfl
  | insert_url url job =>
    rw [Phase.issue]
    split
    · exact .goes_on rfl
    · exact .lets_go rfl fun _ => le_rfl
  | insert key =>
    rw [Phase.issue]
    split
    · exact .goes_on rfl
    · exact .lets_go rfl fun _ => le_rfl
  | commit_url url job => exact .commits rfl rfl
  | commit key => exact .commits rfl rfl
  -- the action proper may still remove rows, which frees their keys
  | look_up job =>
    cases job with
    | like u pic_id => exact .lets_go (holds_afterLike db u pic_id) fun _ => le_rfl
    | subscribe u cat_id => exact .lets_go (holds_afterSubscribe db u cat_id) fun _ => le_rfl
    | view => exact .goes_on rfl
  | select_likes u p => exact .goes_on rfl
  | delete_likes ids =>
    cases ids with
    | nil => exact .goes_on rfl
    | cons id ids => exact .lets_go rfl (count_delete_likes _)
  | delete_subscriptions u c => exact .lets_go rfl (count_delete_subscriptions _)

/-- A last look-up changes no row, and takes the key exactly if it finds nothing. -/
theorem issue_lastLookUp (db : Database) {phase : Phase} {key : NaturalKey}
    (h : phase.lastLookUp = some key) :
    (phase.issue db).1 = db ∧
      (phase.issue db).2.holds = if db.count key = 0 then some key else none := by
  cases phase with
  | find_url url job =>
    obtain rfl := Option.some.inj h
    rw [Phase.issue]
    split <;> exact ⟨rfl, rfl⟩
  | validate k =>
    obtain rfl := Option.some.inj h
    rw [Phase.issue]
    split <;> exact ⟨rfl, rfl⟩
  | _ => simp [Phase.lastLookUp] at h

/-- What one statement keeps. -/
theorem exclusive_issue {s : Requests} {i : ℕ} (h : Exclusive s.db.count s.holds)
    (hapart : Apart s (.issue i)) :
    Exclusive ((s.phase i).issue s.db).1.count
      (Function.update s.holds i ((s.phase i).issue s.db).2.holds) := by
  cases hlast : (s.phase i).lastLookUp with
  | none =>
    have hquiet := quiet_issue s.db (s.phase i) hlast
    generalize (s.phase i).issue s.db = issued at hquiet ⊢
    cases hquiet with
    | lets_go hphase hle => simpa only [hphase] using (h.shrink hle).release i
    | goes_on hphase =>
      have hself : Function.update s.holds i (s.phase i).holds = s.holds :=
        Function.update_eq_self i s.holds
      simpa only [hphase, hself] using h
    | commits hkey hphase => simpa only [hphase] using h.publish (p := i) hkey (count_add _)
  | some key =>
    obtain ⟨hdb, hholds⟩ := issue_lastLookUp s.db hlast
    rw [hdb, hholds]
    split_ifs with hcount
    · exact h.reserve hcount (hapart key hlast hcount)
    · exact h.release i

/-- In every state of a run whose last look-ups stay apart, each natural key has
at most one row. -/
theorem natural_keys_unique (s : Requests) (h : statements.ReachableWithin Apart s)
    (key : NaturalKey) : s.db.count key ≤ 1 := by
  suffices hexclusive : Exclusive s.db.count s.holds from hexclusive.unique key
  refine System.ReachableWithin.invariant (P := fun s => Exclusive s.db.count s.holds) h ?_ ?_
  · rintro s ⟨hunique, hidle⟩
    exact .idle hunique fun i => by simp [Requests.holds, hidle i, Phase.holds]
  · intro s label t hs hapart hstep
    cases label with
    | arrive i url job =>
      obtain ⟨hidle, ht⟩ := Option.ite_none_right_eq_some.mp hstep
      rw [← Option.some.inj ht, holds_update]
      exact hs.release i
    | issue i =>
      rw [← Option.some.inj hstep, holds_update]
      exact exclusive_issue hs hapart

/-! ### When two requests overlap -/

/-- A request about to commit its row. -/
theorem committed_of_issue {s : Requests} {i : ℕ} {key : NaturalKey} {phase : Phase}
    (hs : statements.Reachable s) (hissue : (s.phase i).issue s.db = (s.db.add key, phase)) :
    ∃ t, statements.Reachable t ∧ t.db.count key = s.db.count key + 1 ∧
      ∀ j, j ≠ i → t.holds j = s.holds j := by
  refine ⟨_, hs.step (a := .issue i) rfl, ?_, fun j hj => ?_⟩
  · simp [hissue, count_add]
  · rw [holds_update, Function.update_of_ne hj]

/-- A request about to insert its row. -/
theorem committed_of_insert {s : Requests} {i : ℕ} {key : NaturalKey} {phase phase' : Phase}
    (hs : statements.Reachable s) (hinsert : (s.phase i).issue s.db = (s.db, phase))
    (hcommit : phase.issue s.db = (s.db.add key, phase')) :
    ∃ t, statements.Reachable t ∧ t.db.count key = s.db.count key + 1 ∧
      ∀ j, j ≠ i → t.holds j = s.holds j := by
  have hstep : statements.step s (.issue i) =
      some ⟨s.db, Function.update s.phase i phase⟩ := by
    simp [statements, hinsert]
  obtain ⟨t, ht, hcount, hother⟩ := committed_of_issue (i := i) (hs.step hstep)
    (by simpa using hcommit)
  refine ⟨t, ht, hcount, fun j hj => ?_⟩
  rw [hother j hj, holds_update, Function.update_of_ne hj]

/-- A request that holds a key PostgreSQL accepts can run on to its `COMMIT`. -/
theorem exists_committed {s : Requests} {i : ℕ} {key : NaturalKey} (hs : statements.Reachable s)
    (hi : s.holds i = some key) (hkey : key.storable) :
    ∃ t, statements.Reachable t ∧ t.db.count key = s.db.count key + 1 ∧
      ∀ j, j ≠ i → t.holds j = s.holds j := by
  unfold Requests.holds at hi
  cases hphase : s.phase i with
  | insert_url url job =>
    obtain rfl : NaturalKey.url url = key := by simpa [hphase, Phase.holds] using hi
    exact committed_of_insert hs (by simp only [hphase, Phase.issue, hkey, ite_true]; rfl) rfl
  | insert k =>
    obtain rfl : k = key := by simpa [hphase, Phase.holds] using hi
    exact committed_of_insert hs (by simp only [hphase, Phase.issue, hkey, ite_true]; rfl) rfl
  | commit_url url job =>
    obtain rfl : NaturalKey.url url = key := by simpa [hphase, Phase.holds] using hi
    exact committed_of_issue hs (by rw [hphase]; rfl)
  | commit k =>
    obtain rfl : k = key := by simpa [hphase, Phase.holds] using hi
    exact committed_of_issue hs (by rw [hphase]; rfl)
  | _ => simp [hphase, Phase.holds] at hi

/-- Two requests inside their windows for one key that PostgreSQL accepts can both commit:
staying apart cannot be given up. -/
theorem exists_duplicate {s : Requests} {i j : ℕ} {key : NaturalKey} (hs : statements.Reachable s)
    (hij : i ≠ j) (hi : s.holds i = some key) (hj : s.holds j = some key) (hkey : key.storable) :
    ∃ t, statements.Reachable t ∧ 2 ≤ t.db.count key := by
  obtain ⟨t, ht, hcount, hother⟩ := exists_committed hs hi hkey
  obtain ⟨u, hu, hcount', -⟩ := exists_committed ht ((hother j hij.symm).trans hj) hkey
  exact ⟨u, hu, by omega⟩

/-! ### Concrete interleavings -/

/-- One user, one picture, and no request yet. -/
def Requests.sample : Requests where
  db := { Database.empty with pictures := Table.empty.insert ⟨"Bridge", "bridge.jpg", 0, 0⟩ }
  phase := fun _ => .idle

theorem sample_init : statements.init .sample := by
  refine ⟨fun key => ?_, fun _ => rfl⟩
  cases key <;> simp [Requests.sample, Database.count, Database.empty]

/-- A request stays apart if the one other that runs does not hold its key. -/
theorem apart_of_two {s : Requests} {i j : ℕ}
    (hidle : ∀ k, k ≠ i → k ≠ j → s.phase k = .idle)
    (hother : (s.phase j).holds = none ∨ (s.phase j).holds ≠ (s.phase i).lastLookUp) :
    Apart s (.issue i) := by
  intro key hkey _ k hk
  by_cases hkj : k = j
  · subst hkj
    rcases hother with hnone | hne
    · simp [hnone]
    · exact hkey ▸ hne
  · simp [hidle k hk hkj, Phase.holds]

/-- Two page views whose URLs are new, statement by statement in turn. -/
theorem natural_keys_unique_view :
    ∃ s : Requests, s.db.count (.url "/pictures/1") = 1 ∧ s.db.count (.url "/pictures/2") = 1 ∧
      ∀ key, s.db.count key ≤ 1 := by
  refine ⟨_, ?_, ?_, fun key => natural_keys_unique _
    (.step (a := .issue 1) (.step (a := .issue 0) (.step (a := .issue 1) (.step (a := .issue 0)
      (.step (a := .issue 1) (.step (a := .issue 0)
        (.step (a := .arrive 1 "/pictures/2" .view) (.step (a := .arrive 0 "/pictures/1" .view)
          (.init sample_init) trivial rfl) trivial rfl)
        (apart_of_two (j := 1) ?_ ?_) rfl) (apart_of_two (j := 0) ?_ ?_) rfl)
      (apart_of_two (j := 1) ?_ ?_) rfl) (apart_of_two (j := 0) ?_ ?_) rfl)
      (apart_of_two (j := 1) ?_ ?_) rfl) (apart_of_two (j := 0) ?_ ?_) rfl) key⟩
  · decide
  · decide
  all_goals first | decide | (intro k hk hk'; simp [Requests.sample, hk, hk'])

/-- Two likes of one user for one picture: both requests look up and validate
before either commits. -/
theorem two_likes_for_one_picture :
    ∃ s : Requests, statements.Reachable s ∧ s.db.count (.like 1 1) = 2 :=
  ⟨_, System.Reachable.replay (.init sample_init) (rfl : statements.replay .sample
    [.arrive 0 "/like" (.like 1 (some "1")), .arrive 1 "/like" (.like 1 (some "1")),
      .issue 0, .issue 0, .issue 0, .issue 1,
      .issue 0, .issue 1, .issue 0, .issue 1,
      .issue 0, .issue 0, .issue 1, .issue 1] = some _), by decide⟩

end Gallery
