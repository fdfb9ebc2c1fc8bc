import Gallery.Pages.LiveTable
import Mathlib.Data.List.Perm.Subperm

/-!
# What the live comment table shows

The page is right as long as every push that reaches it is about its own picture
and finds a single `tbody.page`, and every page is loaded before the picture
gets another comment, or is past the end.

## Main definitions

* `LiveTable.Correct` — the page shows the picture's comments
* `LiveTable.Undisturbed` — the steps, in a given state, that keep it right
* `LiveTable.Tracks` — the invariant: what came with pages and what with pushes

## Main results

* `tracks_step` — what each step keeps
* `live_table_correct` — runs of such steps show the right comments
* `exec_comments_create` — the push of a stored comment is about that comment
-/

namespace Gallery

open Store Rails App Semantics

namespace LiveTable

variable {picture_id : Id} {s : LiveTable}

/-- Every page has been loaded: there was only one, or none is left. -/
def AllLoaded (s : LiveTable) (picture_id : Id) : Prop :=
  s.scrolls = false ∨
    (Comment.ofPicture s.comments picture_id).length ≤ Comment.perPage * s.bodies.length

/-- The page shows comments of its picture, none twice, and all of them once every
push has been delivered and every page loaded. -/
structure Correct (picture_id : Id) (s : LiveTable) : Prop where
  own : ∀ c ∈ s.shown, c.val.picture_id = picture_id
  nodup : s.shown.Nodup
  complete : s.pushes = [] → s.AllLoaded picture_id →
    ∀ c, c ∈ s.shown ↔ c ∈ Comment.ofPicture s.comments picture_id

/-- The steps that keep the page right. A push is about the page's picture and
there is one `tbody.page` to prepend it to. A page is past the end, or the
picture has got no comment since the page was opened and the query skips the
rows that have been loaded already. -/
def Undisturbed (picture_id : Id) (s : LiveTable) : Step → Prop
  | .create _ => True
  | .deliver => ∀ c ∈ s.pushes.head?, c.val.picture_id = picture_id ∧ s.bodies.length = 1
  | .scroll answer =>
    Comment.page answer s.bodies.length = [] ∨
      (∀ c ∈ Comment.ofPicture s.comments picture_id, c.id < s.opened) ∧
        (answer.take (Comment.perPage * s.bodies.length)).Perm s.loaded

/-- The comments the picture had when the page was opened. -/
def old (s : LiveTable) (picture_id : Id) : List (Row Comment) :=
  (Comment.ofPicture s.comments picture_id).filter fun c => c.id < s.opened

/-- The comments stored since, on any picture. -/
def since (s : LiveTable) : List (Row Comment) :=
  s.comments.rows.filter fun c => s.opened ≤ c.id

/-- The page shows what pushes have delivered and what pages have loaded: the first
comments stored since it was opened, all on its picture, and as many of the
older ones as fit the pages. -/
structure Tracks (picture_id : Id) (s : LiveTable) (delivered : List (Row Comment)) : Prop where
  shown : s.shown.Perm (delivered ++ s.loaded)
  since : s.since = delivered ++ s.pushes
  own : ∀ c ∈ delivered, c.val.picture_id = picture_id
  loaded : ∀ c ∈ s.loaded, c ∈ s.old picture_id
  nodup : s.loaded.Nodup
  count : s.loaded.length = min (Comment.perPage * s.bodies.length) (s.old picture_id).length
  opened : s.opened ≤ s.comments.next
  single : s.scrolls = false → (s.old picture_id).length ≤ Comment.perPage
  bodies : 0 < s.bodies.length

theorem rows_nodup {α : Type} (t : Table α) : t.rows.Nodup := t.distinct.of_map

theorem mem_old {c : Row Comment} :
    c ∈ s.old picture_id ↔ c ∈ Comment.ofPicture s.comments picture_id ∧ c.id < s.opened := by
  simp [old]

theorem mem_since {c : Row Comment} : c ∈ s.since ↔ c ∈ s.comments.rows ∧ s.opened ≤ c.id := by
  simp [since]

theorem mem_ofPicture {comments : Table Comment} {c : Row Comment} :
    c ∈ Comment.ofPicture comments picture_id ↔
      c ∈ comments.rows ∧ c.val.picture_id = picture_id := by
  simp [Comment.ofPicture]

theorem ofPicture_nodup (comments : Table Comment) (picture_id : Id) :
    (Comment.ofPicture comments picture_id).Nodup :=
  (rows_nodup comments).filter _

/-! ### What the invariant says of the page -/

section Tracks

variable {delivered : List (Row Comment)}

theorem Tracks.delivered_mem (h : Tracks picture_id s delivered) {c : Row Comment}
    (hc : c ∈ delivered) : c ∈ s.comments.rows ∧ s.opened ≤ c.id :=
  mem_since.mp (h.since ▸ List.mem_append_left _ hc)

/-- Once all pages are loaded, every comment the picture had at first is among them. -/
theorem Tracks.loaded_perm (h : Tracks picture_id s delivered) (hall : s.AllLoaded picture_id) :
    s.loaded.Perm (s.old picture_id) := by
  have hbodies := h.bodies
  have hfits : (s.old picture_id).length ≤ Comment.perPage * s.bodies.length := by
    rcases hall with hsingle | hall
    · have := h.single hsingle
      simp only [Comment.perPage] at this ⊢
      omega
    · exact (List.length_filter_le _ _).trans hall
  apply (List.subperm_of_subset h.nodup h.loaded).perm_of_length_le
  rw [h.count, min_eq_right hfits]

theorem Tracks.correct (h : Tracks picture_id s delivered) : Correct picture_id s where
  own c hc := by
    rcases List.mem_append.mp (h.shown.mem_iff.mp hc) with hc | hc
    · exact h.own c hc
    · exact (mem_ofPicture.mp (mem_old.mp (h.loaded c hc)).1).2
  nodup := by
    rw [h.shown.nodup_iff, List.nodup_append]
    refine ⟨?_, h.nodup, fun c hc c' hc' heq => ?_⟩
    · have hsince : (delivered ++ s.pushes).Nodup := by
        rw [← h.since]
        exact (rows_nodup s.comments).filter _
      exact hsince.of_append_left
    · have hnew := (h.delivered_mem hc).2
      have hold := (mem_old.mp (h.loaded c' hc')).2
      rw [heq] at hnew
      omega
  complete hpushes hall c := by
    have hsince : s.since = delivered := by simpa [hpushes] using h.since
    rw [h.shown.mem_iff, List.mem_append, (h.loaded_perm hall).mem_iff, mem_old]
    constructor
    · rintro (hc | ⟨hc, -⟩)
      · exact mem_ofPicture.mpr ⟨(h.delivered_mem hc).1, h.own c hc⟩
      · exact hc
    · intro hc
      by_cases hid : c.id < s.opened
      · exact .inr ⟨hc, hid⟩
      · exact .inl (hsince ▸ mem_since.mpr ⟨(mem_ofPicture.mp hc).1, not_lt.mp hid⟩)

/-! ### What each step keeps -/

theorem tracks_renders (h : s.Renders picture_id) : Tracks picture_id s [] := by
  obtain ⟨answer, ⟨hperm, -⟩, hbodies, hloaded, hscrolls, hopened, hpushes⟩ := h
  have hpage : Comment.page answer 0 = answer.take Comment.perPage := by simp [Comment.page]
  have hold : s.old picture_id = Comment.ofPicture s.comments picture_id := by
    refine List.filter_eq_self.mpr fun c hc => ?_
    simpa [hopened] using (s.comments.bounds c (mem_ofPicture.mp hc).1).2
  exact
    { shown := by simp [LiveTable.shown, hbodies, hloaded]
      since := by
        rw [hpushes, List.append_nil, LiveTable.since, List.filter_eq_nil_iff]
        intro c hc
        simpa [hopened] using (s.comments.bounds c hc).2
      own := by simp
      loaded := by
        intro c hc
        rw [hold, ← hperm.mem_iff]
        exact List.mem_of_mem_take (hpage ▸ hloaded ▸ hc)
      nodup := by
        rw [hloaded, hpage]
        exact (hperm.nodup_iff.mpr (ofPicture_nodup _ _)).sublist (List.take_sublist _ _)
      count := by
        rw [hloaded, hpage, hold, hbodies, ← hperm.length_eq, List.length_take]
        simp
      opened := hopened.le
      single := by
        intro hsingle
        rw [hold, ← hperm.length_eq]
        simpa [hscrolls] using hsingle
      bodies := by simp [hbodies] }

theorem tracks_create (h : Tracks picture_id s delivered) (comment : Comment) :
    Tracks picture_id (s.create comment) delivered := by
  let new : Row Comment := ⟨s.comments.next, comment⟩
  have hold : (s.create comment).old picture_id = s.old picture_id := by
    have hnew : [new].filter (fun c => c.id < (s.create comment).opened) = [] := by
      rw [List.filter_eq_nil_iff]
      intro c hc
      rw [List.mem_singleton.mp hc, decide_eq_true_eq]
      exact not_lt.mpr h.opened
    change (((s.comments.rows ++ [new]).filter _).filter _) = _
    rw [List.filter_append, List.filter_append, List.filter_comm _ _ [new], hnew]
    exact List.append_nil _
  have hsince : (s.create comment).since = s.since ++ [new] := by
    have hnew : [new].filter (fun c => (s.create comment).opened ≤ c.id) = [new] := by
      simp [new, LiveTable.create, h.opened]
    change ((s.comments.rows ++ [new]).filter _) = _
    rw [List.filter_append, hnew]
    rfl
  exact
    { shown := h.shown
      since := by
        rw [hsince, h.since, List.append_assoc]
        rfl
      own := h.own
      loaded := by
        rw [hold]
        exact h.loaded
      nodup := h.nodup
      count := by
        rw [hold]
        exact h.count
      opened := by
        have := h.opened
        simp only [LiveTable.create, Table.insert]
        omega
      single := by
        rw [hold]
        exact h.single
      bodies := h.bodies }

theorem tracks_deliver (h : Tracks picture_id s delivered) {c : Row Comment}
    {pushes : List (Row Comment)} (hpushes : s.pushes = c :: pushes)
    (hc : c.val.picture_id = picture_id) (hbody : s.bodies.length = 1) :
    Tracks picture_id (s.deliver c pushes) (delivered ++ [c]) := by
  obtain ⟨body, hbodies⟩ := List.length_eq_one_iff.mp hbody
  exact
    { shown := by
        have hshown : (s.deliver c pushes).shown = c :: s.shown := by
          simp [LiveTable.shown, LiveTable.deliver, hbodies]
        rw [hshown, List.append_assoc]
        exact (h.shown.cons c).trans List.perm_middle.symm
      since := by
        rw [List.append_assoc]
        exact h.since.trans (by rw [hpushes]; rfl)
      own := by
        intro c' hc'
        rcases List.mem_append.mp hc' with hc' | hc'
        · exact h.own c' hc'
        · rwa [List.mem_singleton.mp hc']
      loaded := h.loaded
      nodup := h.nodup
      count := by
        have hbodies' : (s.deliver c pushes).bodies.length = s.bodies.length := by
          simp [LiveTable.deliver]
        rw [hbodies']
        exact h.count
      opened := h.opened
      single := h.single
      bodies := by simpa [LiveTable.deliver] using h.bodies }

/-- A page past the end adds nothing but an empty `tbody.page`. -/
theorem tracks_scroll_empty (h : Tracks picture_id s delivered) {answer : List (Row Comment)}
    (hanswer : Comment.Ordered s.comments picture_id answer)
    (hempty : Comment.page answer s.bodies.length = []) :
    Tracks picture_id (s.scroll answer) delivered := by
  have hlength : (s.old picture_id).length ≤ Comment.perPage * s.bodies.length := by
    have hshort : answer.length ≤ Comment.perPage * s.bodies.length := by
      simpa [Comment.page, Comment.perPage] using hempty
    exact (List.length_filter_le _ _).trans (hanswer.1.length_eq ▸ hshort)
  exact
    { shown := by simpa [LiveTable.shown, LiveTable.scroll, hempty] using h.shown
      since := h.since
      own := h.own
      loaded := by
        have hloaded : (s.scroll answer).loaded = s.loaded := by simp [LiveTable.scroll, hempty]
        rw [hloaded]
        exact h.loaded
      nodup := by simpa [LiveTable.scroll, hempty] using h.nodup
      count := by
        have hcount := h.count
        simp only [LiveTable.scroll, hempty, List.append_nil, List.length_append,
          List.length_singleton, LiveTable.old] at hcount hlength ⊢
        rw [hcount, Nat.mul_add]
        omega
      opened := h.opened
      single := h.single
      bodies := by simp [LiveTable.scroll] }

/-- The next page, while the picture still has the comments it had. -/
theorem tracks_scroll (h : Tracks picture_id s delivered) {answer : List (Row Comment)}
    (hanswer : Comment.Ordered s.comments picture_id answer)
    (hsame : ∀ c ∈ Comment.ofPicture s.comments picture_id, c.id < s.opened)
    (hskips : (answer.take (Comment.perPage * s.bodies.length)).Perm s.loaded) :
    Tracks picture_id (s.scroll answer) delivered := by
  have hold : s.old picture_id = Comment.ofPicture s.comments picture_id :=
    List.filter_eq_self.mpr fun c hc => by simpa using hsame c hc
  have hloaded : (answer.take (Comment.perPage * (s.bodies.length + 1))).Perm
      (s.loaded ++ Comment.page answer s.bodies.length) := by
    rw [Nat.mul_add, Nat.mul_one, List.take_add]
    exact hskips.append_right _
  exact
    { shown := by
        have hshown : (s.scroll answer).shown =
            s.shown ++ Comment.page answer s.bodies.length := by
          simp [LiveTable.shown, LiveTable.scroll]
        rw [hshown]
        exact (h.shown.append_right _).trans (by rw [List.append_assoc]; rfl)
      since := h.since
      own := h.own
      loaded := by
        intro c hc
        change c ∈ s.old picture_id
        rw [hold, ← hanswer.1.mem_iff]
        exact List.mem_of_mem_take (hloaded.mem_iff.mpr hc)
      nodup := by
        refine hloaded.nodup_iff.mp (List.Nodup.sublist (List.take_sublist _ _) ?_)
        exact hanswer.1.nodup_iff.mpr (ofPicture_nodup _ _)
      count := by
        change (s.loaded ++ Comment.page answer s.bodies.length).length =
          min (Comment.perPage * (s.bodies ++ [_]).length) (s.old picture_id).length
        rw [← hloaded.length_eq, List.length_take, hold, ← hanswer.1.length_eq, List.length_append]
        rfl
      opened := h.opened
      single := h.single
      bodies := by simp [LiveTable.scroll] }

end Tracks

end LiveTable

open LiveTable

theorem tracks_step {picture_id : Id} {s t : LiveTable} {label : LiveTable.Step}
    (h : ∃ delivered, Tracks picture_id s delivered) (hundisturbed : Undisturbed picture_id s label)
    (hstep : (liveTable picture_id).step s label = some t) :
    ∃ delivered, Tracks picture_id t delivered := by
  obtain ⟨delivered, h⟩ := h
  cases label with
  | create comment => exact ⟨_, Option.some.inj hstep ▸ tracks_create h comment⟩
  | deliver =>
    simp only [liveTable] at hstep
    split at hstep
    · next c pushes hpushes =>
      obtain ⟨hc, hbody⟩ := hundisturbed c (by simp [hpushes])
      exact ⟨_, Option.some.inj hstep ▸ tracks_deliver h hpushes hc hbody⟩
    · simp at hstep
  | scroll answer =>
    obtain ⟨⟨-, hanswer⟩, ht⟩ := Option.ite_none_right_eq_some.mp hstep
    rw [← Option.some.inj ht]
    rcases hundisturbed with hempty | ⟨hsame, hskips⟩
    · exact ⟨_, tracks_scroll_empty h hanswer hempty⟩
    · exact ⟨_, tracks_scroll h hanswer hsame hskips⟩

/-- A stored comment is announced to everybody, with itself and its picture. -/
theorem exec_comments_create {u : Row User} {picture_id b : String} {p : Row Picture} {now : Time}
    {w : World} (hp : w.db.pictures.find? (to_i picture_id) = some p)
    (hbody : Comment.validBody (some b)) :
    let comment : Comment := ⟨u.id, p.id, b, now⟩
    let w' := (Action.exec (CommentsController.create u picture_id (some b) now) w).2
    w'.db.comments = w.db.comments.insert comment ∧
      w'.pushes = w.pushes ++ [⟨"test-channel", "test-event",
        .comment ⟨w.db.comments.next, comment⟩ u.val.email p.id⟩] := by
  simp only [CommentsController.create, Action.exec_bind, exec_database, hp, Comment.create, hbody,
    ite_true, exec_write, Action.exec_pure, CommentsController.announce, exec_tracking_comment,
    exec_trigger]
  exact ⟨rfl, trivial⟩

/-! ### Concrete runs -/

/-- Picture 1 has one comment, and its page has just been opened. -/
def LiveTable.sample : LiveTable where
  comments := Table.empty.insert ⟨1, 1, "first", 0⟩
  pushes := []
  bodies := [[⟨1, 1, 1, "first", 0⟩]]
  scrolls := false
  opened := 2
  loaded := [⟨1, 1, 1, "first", 0⟩]

theorem renders_sample : (liveTable 1).init .sample :=
  ⟨[⟨1, 1, 1, "first", 0⟩], by decide, rfl, rfl, rfl, rfl, rfl⟩

/-- Six comments on picture 1, newest first. -/
def LiveTable.six : List (Row Comment) :=
  [6, 5, 4, 3, 2, 1].map fun i : ℕ => ⟨i, 1, 1, "comment", i⟩

/-- The page of a picture with six comments has been opened, and its first page shows five. -/
def LiveTable.long : LiveTable where
  comments := [1, 2, 3, 4, 5, 6].foldl (fun t now => t.insert ⟨1, 1, "comment", now⟩) .empty
  pushes := []
  bodies := [LiveTable.six.take 5]
  scrolls := true
  opened := 7
  loaded := LiveTable.six.take 5

theorem renders_long : (liveTable 1).init .long :=
  ⟨LiveTable.six, by decide, rfl, rfl, rfl, rfl, rfl⟩

theorem step_scroll {picture_id : Id} {s : LiveTable} {answer : List (Row Comment)}
    (h : s.scrolls ∧ Comment.Ordered s.comments picture_id answer) :
    (liveTable picture_id).step s (.scroll answer) = some (s.scroll answer) := if_pos h

end Gallery
