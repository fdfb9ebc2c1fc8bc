import Mathlib.Data.List.DropRight
import Mathlib.Data.List.Basic

/-!
# Lists in one text

A list of texts is written into one text with a separator behind each, and read back by
splitting at the separators. Splitting drops the empty parts at the end.

## Main definitions

* `terminated` — the parts, each with its separator
* `split` — the parts between separators, without the empty ones at the end

## Main results

* `split_terminated` — without separators inside, the parts are read back
* `split_terminated_eq_filter_iff` — when what is read back are the parts that are not
  empty
-/

namespace Text

variable {α : Type*} {sep : α} {parts : List (List α)}

/-- What holds of the characters of a given text, tested one by one. -/
theorem forall_mem_of_all {P : α → Prop} [DecidablePred P] {xs : List α}
    (h : (xs.all fun x => decide (P x)) = true) : ∀ x ∈ xs, P x :=
  fun x hx => of_decide_eq_true (List.all_eq_true.mp h x hx)

/-- The parts, each with a separator behind it. -/
def terminated (sep : α) (parts : List (List α)) : List α := parts.flatMap fun p => p ++ [sep]

/-- The parts between separators, without the empty ones at the end. -/
def split [BEq α] (sep : α) (xs : List α) : List (List α) :=
  (xs.splitOn sep).rdropWhile List.isEmpty

/-! ### Empty parts at the end -/

/-- Dropping the empty parts at the end drops all of them exactly if no other part
follows an empty one. -/
theorem rdropWhile_eq_filter_iff :
    parts.rdropWhile List.isEmpty = parts.filter (fun p => !p.isEmpty) ↔
      parts.Pairwise fun p q => p = [] → q = [] := by
  induction parts using List.reverseRecOn with
  | nil => simp
  | append_singleton parts q ih =>
    rw [List.rdropWhile_concat, List.filter_append, List.pairwise_append]
    cases q with
    | nil => simpa using ih
    | cons x q =>
      -- behind a part that is not empty, nothing has been dropped before it either
      have hfilter : parts ++ [x :: q] =
          parts.filter (fun p => !p.isEmpty) ++ [x :: q].filter (fun p => !p.isEmpty) ↔
            ∀ p ∈ parts, p ≠ [] := by
        rw [eq_comm, show [x :: q].filter (fun p => !p.isEmpty) = [x :: q] from rfl,
          List.append_cancel_right_eq, List.filter_eq_self]
        simp
      simp only [List.isEmpty_cons, Bool.false_eq_true, if_false, hfilter]
      constructor
      · intro hne
        refine ⟨?_, List.pairwise_singleton _ _, fun p hp _ _ h => absurd h (hne p hp)⟩
        exact List.pairwise_iff_forall_sublist.mpr fun h hp =>
          absurd hp (hne _ (h.subset List.mem_cons_self))
      · rintro ⟨-, -, h⟩ p hp rfl
        exact absurd (h [] hp (x :: q) List.mem_cons_self rfl) (by simp)

/-! ### Separators -/

variable [BEq α] [LawfulBEq α]

/-- No part of a text that was split holds the separator. -/
theorem notMem_of_mem_splitOn {xs p : List α} (hp : p ∈ xs.splitOn sep) : sep ∉ p := by
  induction xs generalizing p with
  | nil =>
    rw [List.splitOn_nil, List.mem_singleton] at hp
    simp [hp]
  | cons x xs ih =>
    rw [List.splitOn_cons_eq_if_modifyHead] at hp
    obtain ⟨q, qs, hsplit⟩ := List.exists_cons_of_ne_nil (List.splitOn_ne_nil sep xs)
    rw [hsplit] at hp ih
    split_ifs at hp with hx
    · rcases List.mem_cons.mp hp with rfl | hp
      · simp
      · exact ih hp
    · rcases List.mem_cons.mp hp with rfl | hp
      · have hne : ¬ sep = x := fun h => hx (by simp [h])
        simpa [hne] using ih List.mem_cons_self
      · exact ih (List.mem_cons_of_mem q hp)

omit [LawfulBEq α] in
/-- The parts stand in the text. -/
theorem sublist_of_mem_splitOn {xs p : List α} (hp : p ∈ xs.splitOn sep) : p.Sublist xs := by
  induction xs generalizing p with
  | nil =>
    rw [List.splitOn_nil, List.mem_singleton] at hp
    simp [hp]
  | cons x xs ih =>
    rw [List.splitOn_cons_eq_if_modifyHead] at hp
    obtain ⟨q, qs, hsplit⟩ := List.exists_cons_of_ne_nil (List.splitOn_ne_nil sep xs)
    rw [hsplit] at hp ih
    split_ifs at hp with hx
    · rcases List.mem_cons.mp hp with rfl | hp
      · exact List.nil_sublist _
      · exact (ih hp).cons x
    · rcases List.mem_cons.mp hp with rfl | hp
      · exact (ih List.mem_cons_self).cons_cons x
      · exact (ih (List.mem_cons_of_mem q hp)).cons x

theorem splitOn_terminated (h : ∀ p ∈ parts, sep ∉ p) :
    (terminated sep parts).splitOn sep = parts ++ [[]] := by
  induction parts with
  | nil => exact List.splitOn_nil sep
  | cons p parts ih =>
    rw [List.forall_mem_cons] at h
    have hsplit := List.splitOn_append_cons_self_of_not_mem h.1 (terminated sep parts)
    rw [ih h.2] at hsplit
    simpa [terminated] using hsplit

/-- Parts without separators are read back, up to empty ones at the end. -/
theorem split_terminated (h : ∀ p ∈ parts, sep ∉ p) :
    split sep (terminated sep parts) = parts.rdropWhile List.isEmpty := by
  rw [split, splitOn_terminated h, List.rdropWhile_concat]
  rfl

/-- What is read back are the parts that are not empty exactly if no part holds the
separator and the empty ones come last. -/
theorem split_terminated_eq_filter_iff :
    split sep (terminated sep parts) = parts.filter (fun p => !p.isEmpty) ↔
      (∀ p ∈ parts, sep ∉ p) ∧ parts.Pairwise fun p q => p = [] → q = [] := by
  constructor
  · intro h
    have hsep : ∀ p ∈ parts, sep ∉ p := by
      intro p hp
      by_cases hempty : p = []
      · simp [hempty]
      -- a part that is not empty has been read back, and what is read back has no separator
      have hmem : p ∈ split sep (terminated sep parts) := by
        rw [h]
        exact List.mem_filter.mpr ⟨hp, by simpa [List.isEmpty_iff] using hempty⟩
      exact notMem_of_mem_splitOn ((List.rdropWhile_prefix List.isEmpty _).subset hmem)
    rw [split_terminated hsep] at h
    exact ⟨hsep, rdropWhile_eq_filter_iff.mp h⟩
  · rintro ⟨hsep, hlast⟩
    rw [split_terminated hsep]
    exact rdropWhile_eq_filter_iff.mpr hlast

end Text
