import Gallery.Controllers.Destruction
import Gallery.Pages.LastComments
import Gallery.Store.Custody

/-!
# Comments without a picture or a user

A destruction deletes the comments it has selected, and a creation inserts a
comment for a picture and a user it has looked up before. No comment is orphaned
as long as nobody looks up what is being destroyed, and nobody selects the
comments of what a creation has looked up.

## Main definitions

* `Undisturbed` — a statement that keeps to this

## Main results

* `kept_issue` — what one statement keeps
* `no_orphans` — runs of such statements have no orphan, so every page renders
* `exists_orphan` — a creation and a destruction that overlap can leave one
-/

namespace Gallery

open Store Rails Semantics

namespace Destruction

/-- A comment's owner is looked up only while nobody is about to delete it, and the
comments of an owner are selected only while no request holds the owner. -/
def Undisturbed (s : Requests) : Statement → Prop
  | .arrive .. => True
  | .issue i _ =>
    (∀ o, (s.phase i).looksUp s.db = some o →
      ∀ j selected, (s.phase j).dooms ≠ some (o, selected)) ∧
    ∀ o, (s.phase i).selects = some o → ∀ j, o ∉ (s.phase j).holds s.db

/-- The comment with id `c` refers to the owner. -/
def Refers (db : Database) (c : Id) (o : Owner) : Prop :=
  ∃ r ∈ db.comments.rows, r.id = c ∧ o.owns r.val

namespace Requests

def Holds (s : Requests) (i : ℕ) (o : Owner) : Prop := o ∈ (s.phase i).holds s.db

def Dooms (s : Requests) (i : ℕ) (o : Owner) (cs : Set Id) : Prop :=
  ∃ selected, (s.phase i).dooms = some (o, selected) ∧ cs = {c | c ∈ selected}

/-- The owners, the comments and the requests are in custody. -/
def Kept (s : Requests) : Prop :=
  Custody (fun o : Owner => o.Present s.db) (Refers s.db) s.Holds s.Dooms

end Requests

variable {s : Requests} {db' : Database} {i : ℕ} {now : Time}

/-! ### What the requests hold -/

theorem holds_mono {db : Database} (h : ∀ p, db'.pictures.Has p → db.pictures.Has p)
    (phase : Phase) : phase.holds db' ⊆ phase.holds db := by
  cases phase with
  | find_picture u p body =>
    simp only [Phase.holds]
    split_ifs with h' h''
    · exact List.Subset.refl _
    · exact absurd ⟨h _ h'.1, h'.2⟩ h''
    · exact List.nil_subset _
    · exact List.Subset.refl _
  | _ => exact List.Subset.refl _

/-- A request that goes on holds no more than before, apart from what it has just
looked up. -/
theorem holds_update {phase : Phase} {j : ℕ} {o : Owner}
    (hpictures : ∀ p, db'.pictures.Has p → s.db.pictures.Has p)
    (h : Requests.Holds ⟨db', Function.update s.phase i phase⟩ j o) :
    s.Holds j o ∨ o ∈ phase.holds db' := by
  rcases eq_or_ne j i with rfl | hj
  · exact .inr (by simpa [Requests.Holds] using h)
  · refine .inl (holds_mono hpictures _ ?_)
    simpa [Requests.Holds, Function.update_of_ne hj] using h

theorem dooms_update {phase : Phase} {j : ℕ} {o : Owner} {cs : Set Id}
    (h : Requests.Dooms ⟨db', Function.update s.phase i phase⟩ j o cs) :
    s.Dooms j o cs ∨ ∃ selected, phase.dooms = some (o, selected) ∧ cs = {c | c ∈ selected} := by
  rcases eq_or_ne j i with rfl | hj
  · exact .inr (by simpa [Requests.Dooms] using h)
  · exact .inl (by simpa [Requests.Dooms, Function.update_of_ne hj] using h)

/-- A request that takes hold of nothing new leaves everything in custody. -/
theorem kept_release {phase : Phase}
    (h : Custody (fun o : Owner => o.Present db') (Refers db') s.Holds s.Dooms)
    (hpictures : ∀ p, db'.pictures.Has p → s.db.pictures.Has p)
    (hholds : phase.holds db' ⊆ (s.phase i).holds s.db)
    (hdooms : phase.dooms = none ∨ phase.dooms = (s.phase i).dooms) :
    Requests.Kept ⟨db', Function.update s.phase i phase⟩ := by
  refine h.release (fun j o hj => ?_) fun j o cs hj => ?_
  · rcases eq_or_ne j i with rfl | hne
    · exact hholds (by simpa [Requests.Holds] using hj)
    · apply holds_mono hpictures
      simpa [Requests.Holds, Function.update_of_ne hne] using hj
  · rcases eq_or_ne j i with rfl | hne
    · obtain ⟨selected, hsome, rfl⟩ : ∃ selected, phase.dooms = some (o, selected) ∧
          cs = {c | c ∈ selected} := by simpa [Requests.Dooms] using hj
      rcases hdooms with hnone | heq
      · rw [hnone] at hsome
        cases hsome
      · exact ⟨selected, heq ▸ hsome, rfl⟩
    · simpa [Requests.Dooms, Function.update_of_ne hne] using hj

/-! ### What a commit does to the tables -/

/-- The new comment refers to its own picture and user. -/
theorem refers_insert {db : Database} {comment : Comment} {ids : List Id} {c : Id} {o : Owner}
    (h : Refers { db.touch ids now with comments := db.comments.insert comment } c o) :
    Refers db c o ∨ o ∈ [.user comment.user_id, .picture comment.picture_id] := by
  obtain ⟨r, hr, hid, howns⟩ := h
  rcases List.mem_append.mp hr with hr | hr
  · exact .inl ⟨r, hr, hid, howns⟩
  · obtain rfl := List.mem_singleton.mp hr
    right
    cases o with
    | picture p => simpa [Owner.owns, eq_comm] using howns
    | user u => simpa [Owner.owns, eq_comm] using howns

theorem present_touch {db : Database} {ids : List Id} {comments : Table Comment} {o : Owner} :
    o.Present { db.touch ids now with comments := comments } ↔ o.Present db := by
  cases o with
  | picture p => exact Table.has_update _
  | user u => exact Iff.rfl

section Remove

variable {db : Database} {o o' : Owner} {selected : List Id}

theorem present_remove (h : o'.Present db) (hne : o' ≠ o) :
    o'.Present (o.remove (db.destroyComments (fun c => c.id ∈ selected) now)) := by
  cases o <;> cases o' <;>
    simp_all [Owner.remove, Owner.Present, Database.destroyComments, Database.touch]

theorem refers_remove {c : Id}
    (h : Refers (o.remove (db.destroyComments (fun c => c.id ∈ selected) now)) c o') :
    Refers db c o' ∧ c ∉ {c | c ∈ selected} := by
  have hcomments : (o.remove (db.destroyComments (fun c => c.id ∈ selected) now)).comments =
      db.comments.delete fun c => c.id ∈ selected := by cases o <;> rfl
  obtain ⟨r, hr, rfl, howns⟩ := h
  rw [hcomments, Table.rows_delete] at hr
  obtain ⟨hr, hkept⟩ := List.mem_filter.mp hr
  exact ⟨⟨r, hr, rfl, howns⟩, by simpa using hkept⟩

theorem pictures_remove {p : Id}
    (h : (o.remove (db.destroyComments (fun c => c.id ∈ selected) now)).pictures.Has p) :
    db.pictures.Has p := by
  cases o with
  | picture q =>
    rw [Owner.remove, Table.has_delete_id] at h
    simpa [Database.destroyComments, Database.touch] using h.1
  | user u => simpa [Owner.remove, Database.destroyComments, Database.touch] using h

end Remove

/-! ### One statement -/

/-- An owner that has been looked up is held from now on. -/
theorem kept_look_up {phase : Phase} {o : Owner} (h : s.Kept) (hpresent : o.Present s.db)
    (hfree : ∀ j selected, (s.phase j).dooms ≠ some (o, selected))
    (hholds : ∀ o' ∈ phase.holds s.db, o' ∈ (s.phase i).holds s.db ∨ o' = o)
    (hdooms : phase.dooms = none) :
    Requests.Kept { s with phase := Function.update s.phase i phase } := by
  have hlook : Custody (fun o : Owner => o.Present s.db) (Refers s.db)
      (Requests.Holds { s with phase := Function.update s.phase i phase }) s.Dooms := by
    refine Custody.look_up h hpresent (fun j cs ⟨selected, hj, _⟩ => hfree j selected hj) ?_
    intro j o' hj
    rcases eq_or_ne j i with rfl | hne
    · exact hholds o' (by simpa [Requests.Holds] using hj)
    · exact .inl (by simpa [Requests.Holds, Function.update_of_ne hne] using hj)
  refine hlook.release (fun _ _ hj => hj) fun j o' cs hj => ?_
  rcases dooms_update hj with hj | ⟨selected, hsome, _⟩
  · exact hj
  · rw [hdooms] at hsome
    cases hsome

/-- An owner nobody holds may have its comments selected. -/
theorem kept_select {o : Owner} (h : s.Kept) (hfree : ∀ j, o ∉ (s.phase j).holds s.db)
    {selected : List Id}
    (hselected : selected = (s.db.comments.rows.filter fun c => o.owns c.val).map (·.id)) :
    Requests.Kept
      { s with phase := Function.update s.phase i (.delete_comments o selected selected) } := by
  have hselect : Custody (fun o : Owner => o.Present s.db) (Refers s.db) s.Holds
      (Requests.Dooms
        { s with phase := Function.update s.phase i (.delete_comments o selected selected) }) := by
    have hall : ∀ c, Refers s.db c o → c ∈ {c | c ∈ selected} := by
      rintro c ⟨r, hr, rfl, howns⟩
      rw [hselected]
      exact List.mem_map_of_mem (List.mem_filter.mpr ⟨hr, by simpa using howns⟩)
    refine Custody.select h hfree hall fun j o' cs hj => ?_
    rcases dooms_update hj with hj | ⟨selected', hsome, rfl⟩
    · exact .inl hj
    · obtain ⟨rfl, rfl⟩ : o = o' ∧ selected = selected' := by
        simpa [Phase.dooms] using hsome
      exact .inr ⟨rfl, rfl⟩
  refine hselect.release (fun j o' hj => ?_) fun _ _ _ hj => hj
  rcases holds_update (fun _ hp => hp) hj with hj | hj
  · exact hj
  · simp [Phase.holds] at hj

/-- Without a picture or with a body the model refuses, nothing will be stored. -/
theorem issue_find_picture_done {db : Database} {u : Id} {p : String} {body : Option String}
    (h : ¬ (db.pictures.Has (to_i p) ∧ Comment.validBody body)) :
    (Phase.find_picture u p body).issue db now = (db, .done) := by
  unfold Phase.issue
  by_cases hpicture : db.pictures.Has (to_i p)
  · cases body with
    | none => simp [hpicture]
    | some b => simp [hpicture, show Comment.validBody (some b) = false by simpa [hpicture] using h]
  · simp [hpicture]

/-- What one statement keeps. -/
theorem kept_issue (h : s.Kept) (hundisturbed : Undisturbed s (.issue i now)) :
    Requests.Kept ⟨((s.phase i).issue s.db now).1,
      Function.update s.phase i ((s.phase i).issue s.db now).2⟩ := by
  obtain ⟨hlooksUp, hselects⟩ := hundisturbed
  have hdone : Requests.Kept { s with phase := Function.update s.phase i .done } :=
    kept_release h (fun _ hp => hp) (List.nil_subset _) (.inl rfl)
  cases hphase : s.phase i with
  | idle => exact kept_release h (fun _ hp => hp) (List.nil_subset _) (.inl rfl)
  | done => exact hdone
  -- a comment that will be stored takes hold of its user, and then of its picture
  | find_user u p body =>
    rw [Phase.issue]
    split_ifs with hu
    · by_cases hvalid : s.db.pictures.Has (to_i p) ∧ Comment.validBody body
      · refine kept_look_up h (o := .user u) hu (hlooksUp _ ?_) ?_ rfl
        · simp [hphase, Phase.looksUp, hu, hvalid]
        · simp [Phase.holds, hvalid]
      · exact kept_release h (fun _ hp => hp) (by simp [Phase.holds, hvalid]) (.inl rfl)
    · exact hdone
  | find_picture u p body =>
    by_cases hp : s.db.pictures.Has (to_i p) ∧ Comment.validBody body
    · obtain ⟨hpicture, hvalid⟩ := hp
      cases body with
      | none => cases hvalid
      | some b =>
        simp only [Phase.issue, hpicture, hvalid, ite_true]
        refine kept_look_up h (o := .picture (to_i p)) hpicture (hlooksUp _ ?_) ?_ rfl
        · simp [hphase, Phase.looksUp, hpicture, hvalid]
        · simp [hphase, Phase.holds, hpicture, hvalid]
    · rw [issue_find_picture_done hp]
      exact hdone
  | insert u p b =>
    exact kept_release h (fun _ hp => hp) (by rw [hphase]; exact List.Subset.refl _) (.inl rfl)
  -- it becomes visible while both are held
  | commit_comment u p b =>
    refine kept_release (Custody.publish h (p := i) (fun o => present_touch.mpr) fun c o hc => ?_)
      (fun q hq => ?_) (List.nil_subset _) (.inl rfl)
    · exact (refers_insert hc).imp_right fun ho => by
        simpa [Requests.Holds, hphase, Phase.holds] using ho
    · exact (Table.has_update _).mp hq
  | find_owner o =>
    rw [Phase.issue]
    split_ifs with ho
    · exact kept_release h (fun _ hp => hp) (List.nil_subset _) (.inl rfl)
    · exact hdone
  -- a destroy dooms its owner and removes it together with the comments it selected
  | select_comments o => exact kept_select h (hselects o (by rw [hphase]; rfl)) rfl
  | delete_comments o selected left =>
    cases left with
    | nil => exact kept_release h (fun _ hp => hp) (List.nil_subset _) (.inr (by rw [hphase]; rfl))
    | cons c left =>
      exact kept_release h (fun _ hp => hp) (List.nil_subset _) (.inr (by rw [hphase]; rfl))
  | delete_owner o selected =>
    exact kept_release h (fun _ hp => hp) (List.nil_subset _) (.inr (by rw [hphase]; rfl))
  | commit_destroy o selected =>
    have hdoomed : s.Dooms i o {c | c ∈ selected} := ⟨selected, by rw [hphase]; rfl, rfl⟩
    exact kept_release
      (Custody.remove h hdoomed (fun o' => present_remove) fun c o' => refers_remove)
      (fun p => pictures_remove) (List.nil_subset _) (.inl rfl)

/-- In every state of a run whose statements keep out of each other's way, every
comment has its picture and its user, and both partials render. -/
theorem no_orphans (s : Requests) (h : statements.ReachableWithin Undisturbed s) :
    Unorphaned s.db ∧ (∃ box, render_last_comments s.db = .ok box) ∧
      ∀ comments, (∀ c ∈ comments, c ∈ s.db.comments.rows) →
        ∃ table, render_comments s.db comments = .ok table := by
  have hkept : s.Kept := by
    refine System.ReachableWithin.invariant (P := Requests.Kept) h ?_ ?_
    · rintro s ⟨hunorphaned, hidle⟩
      -- at the start nobody holds or dooms anything
      refine Custody.idle (fun c o ⟨r, hr, _, howns⟩ => ?_) (fun j o hj => ?_) fun j o cs hj => ?_
      · cases o with
        | picture p =>
          obtain rfl : r.val.picture_id = p := by simpa [Owner.owns] using howns
          exact (hunorphaned r hr).1
        | user u =>
          obtain rfl : r.val.user_id = u := by simpa [Owner.owns] using howns
          exact (hunorphaned r hr).2
      · simp [Requests.Holds, hidle j, Phase.holds] at hj
      · simp [Requests.Dooms, hidle j, Phase.dooms] at hj
    · intro s label t hs hundisturbed hstep
      cases label with
      | arrive j job =>
        obtain ⟨hidle, ht⟩ := Option.ite_none_right_eq_some.mp hstep
        rw [← Option.some.inj ht]
        refine kept_release hs (fun _ hp => hp) ?_ (.inl ?_)
        · cases job <;> exact List.nil_subset _
        · cases job <;> rfl
      | issue j now =>
        rw [← Option.some.inj hstep]
        exact kept_issue hs hundisturbed
  have hunorphaned : Unorphaned s.db := fun r hr =>
    ⟨hkept.closed r.id (.picture r.val.picture_id) ⟨r, hr, rfl, by simp [Owner.owns]⟩,
      hkept.closed r.id (.user r.val.user_id) ⟨r, hr, rfl, by simp [Owner.owns]⟩⟩
  exact ⟨hunorphaned, render_last_comments_ok fun c hc => (hunorphaned c hc).1,
    fun comments hcomments => render_comments_ok (fun c hc => (hunorphaned c hc).2) hcomments⟩

/-! ### When a creation and a destruction overlap -/

/-- Request `j` can run on, alone, until the owner is gone. -/
def CanRemove (s : Requests) (j : ℕ) (o : Owner) : Prop :=
  ∃ t, statements.Reachable t ∧ ¬ o.Present t.db ∧ ∀ k, k ≠ j → t.phase k = s.phase k

theorem canRemove_of_issue {j : ℕ} {o : Owner}
    (h : CanRemove ⟨((s.phase j).issue s.db 0).1,
      Function.update s.phase j ((s.phase j).issue s.db 0).2⟩ j o) : CanRemove s j o := by
  obtain ⟨t, ht, hgone, hother⟩ := h
  exact ⟨t, ht, hgone, fun k hk => (hother k hk).trans (Function.update_of_ne hk _ _)⟩

theorem canRemove_of_commit_destroy {j : ℕ} {o : Owner} {selected : List Id}
    (hs : statements.Reachable s) (hj : s.phase j = .commit_destroy o selected) :
    CanRemove s j o := by
  refine ⟨_, hs.step (a := .issue j 0) rfl, ?_, fun k hk => Function.update_of_ne hk _ _⟩
  rw [hj]
  cases o <;> simp [Phase.issue, Owner.remove, Owner.Present]

theorem canRemove_of_delete_owner {j : ℕ} {o : Owner} {selected : List Id}
    (hs : statements.Reachable s) (hj : s.phase j = .delete_owner o selected) :
    CanRemove s j o :=
  canRemove_of_issue (canRemove_of_commit_destroy (hs.step (a := .issue j 0) rfl)
    (by rw [hj]; exact Function.update_self ..))

/-- One statement for each selected comment, before the owner's own row goes. -/
theorem canRemove_of_delete_comments {j : ℕ} {o : Owner} {selected left : List Id}
    (hs : statements.Reachable s) (hj : s.phase j = .delete_comments o selected left) :
    CanRemove s j o := by
  induction left generalizing s with
  | nil =>
    exact canRemove_of_issue (canRemove_of_delete_owner (hs.step (a := .issue j 0) rfl)
      (by rw [hj]; exact Function.update_self ..))
  | cons c left ih =>
    exact canRemove_of_issue (ih (hs.step (a := .issue j 0) rfl)
      (by rw [hj]; exact Function.update_self ..))

/-- A destruction that has selected its comments can run on to its `COMMIT`. -/
theorem canRemove_of_dooms {j : ℕ} {o : Owner} {selected : List Id}
    (hs : statements.Reachable s) (hj : (s.phase j).dooms = some (o, selected)) :
    CanRemove s j o := by
  cases hphase : s.phase j with
  | delete_comments o' selected' left =>
    obtain ⟨rfl, rfl⟩ : o' = o ∧ selected' = selected := by simpa [hphase, Phase.dooms] using hj
    exact canRemove_of_delete_comments hs hphase
  | delete_owner o' selected' =>
    obtain ⟨rfl, rfl⟩ : o' = o ∧ selected' = selected := by simpa [hphase, Phase.dooms] using hj
    exact canRemove_of_delete_owner hs hphase
  | commit_destroy o' selected' =>
    obtain ⟨rfl, rfl⟩ : o' = o ∧ selected' = selected := by simpa [hphase, Phase.dooms] using hj
    exact canRemove_of_commit_destroy hs hphase
  | _ => simp [hphase, Phase.dooms] at hj

/-- A creation about to insert its comment, and a destruction of its picture or user
past its selection: both can finish, and the comment is orphaned. -/
theorem exists_orphan {s : Requests} {i j : ℕ} {u p : Id} {b : String} {o : Owner}
    {selected : List Id} (hs : statements.Reachable s) (hi : s.phase i = .insert u p b)
    (ho : o = .user u ∨ o = .picture p) (hj : (s.phase j).dooms = some (o, selected)) :
    ∃ t, statements.Reachable t ∧ ¬ Unorphaned t.db := by
  have hij : i ≠ j := by
    rintro rfl
    simp [hi, Phase.dooms] at hj
  obtain ⟨t, ht, hgone, hother⟩ := canRemove_of_dooms hs hj
  have hinsert : t.phase i = .insert u p b := by rw [hother i hij, hi]
  refine ⟨_, (ht.step (a := .issue i 0) rfl).step (a := .issue i 0) rfl,
    fun hunorphaned => hgone ?_⟩
  obtain ⟨hpicture, huser⟩ := hunorphaned ⟨t.db.comments.next, ⟨u, p, b, 0⟩⟩
    (by simp [hinsert, Phase.issue])
  rcases ho with rfl | rfl
  · simpa [hinsert, Phase.issue, Database.touch, Owner.Present] using huser
  · simpa [hinsert, Phase.issue, Database.touch, Owner.Present] using hpicture

/-! ### Concrete interleavings -/

/-- One user, two pictures, and no request yet. -/
def Requests.sample : Requests where
  db := { Database.empty with
    users := Table.empty.insert
      ⟨"ann@example.com", "", none, none, none, none, none, none, 0, 0⟩
    pictures := (Table.empty.insert ⟨"Bridge", "bridge.jpg", 0, 0⟩).insert
      ⟨"River", "river.jpg", 0, 0⟩ }
  phase := fun _ => .idle

theorem sample_init : statements.init .sample :=
  ⟨fun c hc => by simp [Requests.sample, Database.empty] at hc, fun _ => rfl⟩

/-- With two requests, it is enough to look at these. -/
theorem undisturbed_of_two {s : Requests} {i j : ℕ} {now : Time}
    (hidle : ∀ k, k ≠ i → k ≠ j → s.phase k = .idle)
    (hlooks : ∀ o ∈ (s.phase i).looksUp s.db, ∀ k ∈ [i, j],
      (s.phase k).dooms.map Prod.fst ≠ some o)
    (hselects : ∀ o ∈ (s.phase i).selects, ∀ k ∈ [i, j], o ∉ (s.phase k).holds s.db) :
    Undisturbed s (.issue i now) := by
  have hcases : ∀ k, k ∈ [i, j] ∨ s.phase k = .idle := by
    intro k
    by_cases hk : k ∈ [i, j]
    · exact .inl hk
    · simp only [List.mem_cons, List.not_mem_nil, or_false, not_or] at hk
      exact .inr (hidle k hk.1 hk.2)
  refine ⟨fun o ho k selected hdooms => ?_, fun o ho k => ?_⟩
  · rcases hcases k with hk | hk
    · exact hlooks o ho k hk (by rw [hdooms]; rfl)
    · simp [hk, Phase.dooms] at hdooms
  · rcases hcases k with hk | hk
    · exact hselects o ho k hk
    · simp [hk, Phase.holds]

/-- A comment is created while another picture is destroyed. -/
theorem no_orphans_one :
    ∃ s : Requests, s.db.comments.rows.length = 1 ∧ ¬ s.db.pictures.Has 2 ∧ Unorphaned s.db ∧
      (∃ box, render_last_comments s.db = .ok box) ∧
      ∀ comments, (∀ c ∈ comments, c ∈ s.db.comments.rows) →
        ∃ table, render_comments s.db comments = .ok table := by
  refine ⟨_, ?_, ?_, no_orphans _
    (.step (a := .issue 1 9) (.step (a := .issue 1 9) (.step (a := .issue 0 9)
      (.step (a := .issue 1 9) (.step (a := .issue 0 9) (.step (a := .issue 1 9)
        (.step (a := .issue 0 9) (.step (a := .issue 1 9) (.step (a := .issue 0 9)
          (.step (a := .arrive 1 (.destroy (.picture 2)))
            (.step (a := .arrive 0 (.create 1 "1" (some "Nice"))) (.init sample_init)
              trivial rfl) trivial rfl)
          (undisturbed_of_two (j := 1) ?_ ?_ ?_) rfl) (undisturbed_of_two (j := 0) ?_ ?_ ?_) rfl)
        (undisturbed_of_two (j := 1) ?_ ?_ ?_) rfl) (undisturbed_of_two (j := 0) ?_ ?_ ?_) rfl)
      (undisturbed_of_two (j := 1) ?_ ?_ ?_) rfl) (undisturbed_of_two (j := 0) ?_ ?_ ?_) rfl)
      (undisturbed_of_two (j := 1) ?_ ?_ ?_) rfl) (undisturbed_of_two (j := 0) ?_ ?_ ?_) rfl)
      (undisturbed_of_two (j := 0) ?_ ?_ ?_) rfl)⟩
  · decide
  · decide
  all_goals first
    | decide
    | (intro k hk hk'; simp [Requests.sample, hk, hk'])

/-- The picture is found, then destroyed, and then the comment is stored. -/
theorem comment_outlives_picture :
    ∃ s : Requests, statements.Reachable s ∧ ¬ Unorphaned s.db ∧
      render_last_comments s.db = .error .NoMethodError := by
  refine ⟨_, System.Reachable.replay (.init sample_init) (rfl : statements.replay .sample
    [.arrive 0 (.create 1 "1" (some "Nice")), .issue 0 1, .issue 0 1,
      .arrive 1 (.destroy (.picture 1)), .issue 1 2, .issue 1 2, .issue 1 2, .issue 1 2, .issue 1 2,
      .issue 0 3, .issue 0 3] = some _), ?_, ?_⟩
  · intro hunorphaned
    have hpicture := (hunorphaned ⟨1, ⟨1, 1, "Nice", 3⟩⟩ (by decide)).1
    revert hpicture
    decide
  · decide

end Destruction

end Gallery
