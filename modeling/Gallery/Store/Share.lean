import Gallery.Store.Table

/-!
# The rows of one owner

A table holds the rows of many owners. What is written for the others leaves the rows of
one of them as they are, keys included; this is the frame rule of the three kinds of write.

## Main definitions

* `Table.share` — the rows whose columns satisfy a predicate
* `Table.values` — their columns

## Main results

* `share_insert_of_not`, `share_delete_of_not` — writes for others
* `share_insert` — a row of one's own comes last
* `values_delete` — what is left of one's own
-/

namespace Store

namespace Table

variable {α : Type*} {t : Table α} {p : α → Bool} {q : Row α → Bool} {a : α} {r : Row α}

/-- The rows whose columns satisfy `p`, in insertion order. -/
def share (t : Table α) (p : α → Bool) : List (Row α) := t.rows.filter fun r => p r.val

theorem mem_share : r ∈ t.share p ↔ r ∈ t.rows ∧ p r.val := List.mem_filter

theorem share_insert (h : p a = true) : (t.insert a).share p = t.share p ++ [⟨t.next, a⟩] := by
  simp [share, List.filter_append, h]

/-- A row of somebody else comes. -/
theorem share_insert_of_not (h : p a = false) : (t.insert a).share p = t.share p := by
  simp [share, List.filter_append, h]

/-- Rows of others go. -/
theorem share_delete_of_not (h : ∀ r ∈ t.rows, p r.val = true → q r = false) :
    (t.delete q).share p = t.share p := by
  rw [share, rows_delete, List.filter_filter]
  refine List.filter_congr fun r hr => ?_
  by_cases hp : p r.val
  · simp [hp, h r hr hp]
  · simp [hp]

/-- The columns of the rows of one owner, whatever their keys. -/
def values (t : Table α) (p : α → Bool) : List α := (t.share p).map Row.val

theorem any_values (f : α → Bool) :
    (t.values p).any f = t.rows.any fun r => p r.val && f r.val := by
  rw [values, share, List.any_map, List.any_filter]
  rfl

theorem values_insert (h : p a = true) : (t.insert a).values p = t.values p ++ [a] := by
  simp [values, share_insert h]

theorem values_insert_of_not (h : p a = false) : (t.insert a).values p = t.values p := by
  rw [values, share_insert_of_not h, values]

theorem values_delete_of_not (h : ∀ r ∈ t.rows, p r.val = true → q r = false) :
    (t.delete q).values p = t.values p := by
  rw [values, share_delete_of_not h, values]

/-- Rows go that the owner can tell by their columns. -/
theorem values_delete {kept : α → Bool} (h : ∀ r, p r.val = true → (!q r) = kept r.val) :
    (t.delete q).values p = (t.values p).filter kept := by
  rw [values, share, rows_delete, List.filter_filter, values, share, List.filter_map,
    List.filter_filter]
  congr 1
  refine List.filter_congr fun r _ => ?_
  by_cases hp : p r.val
  · simp [hp, h r hp]
  · simp [hp]

end Table

end Store
