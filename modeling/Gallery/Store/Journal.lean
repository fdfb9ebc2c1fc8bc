import Gallery.Store.Table

/-!
# A journal of a table

Whenever a row is stored, a copy of it is written to a journal; rows are deleted, but never
rewritten. From the moment the journal was opened on it tells every row exactly once, in
the order of the keys, and the table is what is left of it.

## Main definitions

* `Table.Journal` — a journal that was opened when the next key was `first`

## Main results

* `Journal.opened`, `Journal.insert`, `Journal.delete` — how the journal is kept
-/

namespace Store

namespace Table

variable {α : Type*} {t : Table α} {first : ℤ} {journal : List (Row α)} {r : Row α}

/-- The journal has the keys handed out since it was opened, in order, and holds the rows
of the table that have been stored since. -/
structure Journal (first : ℤ) (t : Table α) (journal : List (Row α)) : Prop where
  keys : journal.map Row.id = (List.range journal.length).map fun n : ℕ => first + n
  next : t.next = first + journal.length
  rows : (t.rows.filter fun r => first ≤ r.id).Sublist journal

namespace Journal

theorem opened (t : Table α) : Journal t.next t [] where
  keys := rfl
  next := by simp
  rows := by
    have hold : ∀ r ∈ t.rows, ¬ t.next ≤ r.id := fun r hr => not_le.mpr (t.bounds r hr).2
    simpa [List.filter_eq_nil_iff] using hold

theorem insert (h : Journal first t journal) (a : α) :
    Journal first (t.insert a) (journal ++ [⟨t.next, a⟩]) where
  keys := by
    rw [List.map_append, h.keys, List.length_append, List.length_singleton, List.range_succ,
      List.map_append, List.map_singleton, List.map_singleton, h.next]
  next := by
    change t.next + 1 = _
    rw [h.next, List.length_append, List.length_singleton]
    push_cast
    omega
  rows := by
    have hnew : first ≤ t.next := by
      rw [h.next]
      omega
    have hrow : [(⟨t.next, a⟩ : Row α)].filter (fun r => first ≤ r.id) = [⟨t.next, a⟩] := by
      simp [hnew]
    rw [rows_insert, List.filter_append, hrow]
    exact h.rows.append (.refl _)

theorem delete (h : Journal first t journal) (p : Row α → Bool) :
    Journal first (t.delete p) journal where
  keys := h.keys
  next := h.next
  rows := by
    refine List.Sublist.trans ?_ h.rows
    exact (List.filter_sublist).filter _

end Journal

end Table

end Store
