import Gallery.Store.ForeignKey
import Mathlib.Data.List.Perm.Lattice

/-!
# Toggling a row

A table that holds each value at most once is a set of values. Toggling a value
removes its row if there is one and stores one otherwise. Toggling twice leaves
the set as it was; the row may have a new key.

## Main definitions

* `Table.vals` — the values of a table
* `Table.toggle` — removes or stores a value

## Main results

* `Table.mem_toggle` — the value is there afterwards exactly if it was not before
* `Table.toggle_toggle` — twice is nothing
* `Table.length_eq_of_keyed` — counting rows by the rows they refer to
-/

namespace Store

namespace Table

variable {α β : Type*} {t : Table α} {s : Table β} {a : α}

/-- The values of a table, in insertion order. -/
def vals (t : Table α) : List α := t.rows.map Row.val

@[simp] theorem vals_insert (a : α) : (t.insert a).vals = t.vals ++ [a] := by
  simp [vals]

theorem vals_delete (p : α → Bool) :
    (t.delete fun r => p r.val).vals = t.vals.filter fun a => !p a := by
  simp [vals, List.filter_map, Function.comp_def]

theorem mem_vals : a ∈ t.vals ↔ ∃ r ∈ t.rows, r.val = a := List.mem_map

/-- Deleting rows with other values. -/
theorem mem_vals_delete_of_not {q : Row α → Bool} (h : ∀ r ∈ t.rows, r.val = a → q r = false) :
    a ∈ (t.delete q).vals ↔ a ∈ t.vals := by
  rw [mem_vals, mem_vals]
  refine exists_congr fun r => and_congr_left fun hr => ?_
  rw [rows_delete, List.mem_filter, and_iff_left_iff_imp]
  exact fun hmem => by simp [h r hmem hr]

/-- A new value keeps the values distinct. -/
theorem nodup_insert (h : t.vals.Nodup) (ha : a ∉ t.vals) : (t.insert a).vals.Nodup := by
  rw [vals_insert]
  exact h.append (List.nodup_singleton a) (by simpa using ha)

theorem nodup_delete (h : t.vals.Nodup) (p : Row α → Bool) : (t.delete p).vals.Nodup :=
  (List.filter_sublist.map _).nodup h

variable [DecidableEq α]

/-- Removes the rows with a value, or stores one. -/
def toggle (t : Table α) (a : α) : Table α :=
  if a ∈ t.vals then t.delete fun r => r.val = a else t.insert a

theorem toggle_of_mem (h : a ∈ t.vals) : t.toggle a = t.delete fun r => r.val = a := if_pos h

theorem toggle_of_notMem (h : a ∉ t.vals) : t.toggle a = t.insert a := if_neg h

theorem vals_delete_eq (a : α) :
    (t.delete fun r => r.val = a).vals = t.vals.filter fun b => !decide (b = a) :=
  vals_delete fun b => decide (b = a)

theorem mem_toggle : a ∈ (t.toggle a).vals ↔ a ∉ t.vals := by
  by_cases h : a ∈ t.vals
  · rw [toggle_of_mem h, vals_delete_eq]
    simp [h]
  · rw [toggle_of_notMem h, vals_insert]
    simp [h]

theorem mem_toggle_of_ne {b : α} (h : b ≠ a) : b ∈ (t.toggle a).vals ↔ b ∈ t.vals := by
  by_cases ha : a ∈ t.vals
  · rw [toggle_of_mem ha, vals_delete_eq]
    simp [h]
  · rw [toggle_of_notMem ha, vals_insert]
    simp [h]

/-- Toggling twice restores the values. -/
theorem toggle_toggle (h : t.vals.Nodup) : ((t.toggle a).toggle a).vals.Perm t.vals := by
  by_cases ha : a ∈ t.vals
  · have hgone : a ∉ (t.toggle a).vals := fun hmem => mem_toggle.mp hmem ha
    have herase : (t.toggle a).vals = t.vals.erase a := by
      rw [toggle_of_mem ha, vals_delete_eq, h.erase_eq_filter]
      exact List.filter_congr fun b _ => by simp [bne, BEq.beq]
    rw [toggle_of_notMem hgone, vals_insert, herase]
    exact (List.perm_append_comm).trans (List.perm_cons_erase ha).symm
  · have hthere : a ∈ (t.toggle a).vals := mem_toggle.mpr ha
    have hself : t.vals.filter (fun b => !decide (b = a)) = t.vals := by
      refine List.filter_eq_self.mpr fun b hb => ?_
      have hne : b ≠ a := fun hba => ha (hba ▸ hb)
      simp [hne]
    rw [toggle_of_mem hthere, vals_delete_eq, toggle_of_notMem ha, vals_insert, List.filter_append,
      hself]
    simp

omit [DecidableEq α] in
/-- Values that refer to different rows are as many as the rows they refer to. -/
theorem length_eq_of_keyed {key : α → ℤ} (h : Refs t key s) (p : α → Bool)
    (hinj : ((t.vals.filter p).map key).Nodup) :
    t.vals.countP p = s.rows.countP fun r => t.vals.any fun a => p a && decide (key a = r.id) := by
  have hids : ((s.rows.filter fun r => t.vals.any fun a => p a && decide (key a = r.id)).map
      Row.id).Nodup := (List.filter_sublist.map _).nodup s.distinct
  have hsame : ∀ i, i ∈ (t.vals.filter p).map key ↔
      i ∈ (s.rows.filter fun r => t.vals.any fun a => p a && decide (key a = r.id)).map Row.id := by
    intro i
    simp only [List.mem_map, List.mem_filter, List.any_eq_true, Bool.and_eq_true, decide_eq_true_eq]
    constructor
    · rintro ⟨a, ⟨ha, hp⟩, rfl⟩
      obtain ⟨r, hr, rfl⟩ := mem_vals.mp ha
      obtain ⟨b, hb, hid⟩ := h r hr
      exact ⟨b, ⟨hb, r.val, ha, hp, hid.symm⟩, hid⟩
    · rintro ⟨b, ⟨-, a, ha, hp, hkey⟩, rfl⟩
      exact ⟨a, ⟨ha, hp⟩, hkey⟩
  have hlength := ((List.perm_ext_iff_of_nodup hinj hids).mpr hsame).length_eq
  rwa [List.length_map, List.length_map, ← List.countP_eq_length_filter,
    ← List.countP_eq_length_filter] at hlength

end Table

end Store
