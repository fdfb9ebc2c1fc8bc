import Gallery.Store.Table

/-!
# Rows found or stored by a name

`find_or_create` looks for a row with a name and stores one if there is none. However often
and in whatever order names are asked for, each gets one row, in the order in which they
first come; the rows that are there already stay as they are.

## Main definitions

* `intern` — the names known once one more has been asked for
* `Table.names`, `Table.named` — the names of the rows, and the row found under a name
* `Table.findOrInsert` — the row with a name, and the table that has it

## Main results

* `mem_foldl_intern`, `nodup_foldl_intern` — the names after many requests
* `names_findOrInsert`, `mem_findOrInsert`, `find?_findOrInsert` — what one request does to
  a table
-/

namespace Store

section Names

variable {β : Type*} [DecidableEq β] {b c : β} {names bs : List β}

/-- The names known once `b` has been asked for. -/
def intern (names : List β) (b : β) : List β := if b ∈ names then names else names ++ [b]

@[simp] theorem mem_intern : c ∈ intern names b ↔ c ∈ names ∨ c = b := by
  unfold intern
  split
  · next hb =>
    constructor
    · exact .inl
    · rintro (hc | rfl)
      · exact hc
      · exact hb
  · simp

theorem nodup_intern (h : names.Nodup) : (intern names b).Nodup := by
  unfold intern
  split
  · exact h
  · next hb =>
    refine List.nodup_append.mpr ⟨h, List.nodup_singleton b, fun c hc d hd => ?_⟩
    rw [List.mem_singleton.mp hd]
    exact fun heq => hb (heq ▸ hc)

/-- After many requests the names are those known before and those asked for. -/
theorem mem_foldl_intern : c ∈ bs.foldl intern names ↔ c ∈ names ∨ c ∈ bs := by
  induction bs generalizing names with
  | nil => simp
  | cons b bs ih => rw [List.foldl_cons, ih, mem_intern, List.mem_cons, or_assoc]

theorem nodup_foldl_intern (h : names.Nodup) : (bs.foldl intern names).Nodup := by
  induction bs generalizing names with
  | nil => exact h
  | cons b bs ih => exact ih (nodup_intern h)

/-- Asking for what is known adds nothing. -/
theorem foldl_intern_of_subset (h : ∀ b ∈ bs, b ∈ names) : bs.foldl intern names = names := by
  induction bs with
  | nil => rfl
  | cons b bs ih =>
    rw [List.foldl_cons, intern, if_pos (h b List.mem_cons_self)]
    exact ih fun c hc => h c (List.mem_cons_of_mem b hc)

end Names

namespace Table

variable {α β : Type*} [DecidableEq β] {t : Table α} {name : α → β} {a : α} {r : Row α} {i : ℤ}

/-- The names of the rows. -/
def names (t : Table α) (name : α → β) : List β := t.rows.map fun r => name r.val

/-- The row found under a name. -/
def named (t : Table α) (name : α → β) (b : β) : Option (Row α) :=
  t.rows.find? fun r => name r.val = b

/-- The row with the name of `a`, which is stored if there is none, and the table then. -/
def findOrInsert (t : Table α) (name : α → β) (a : α) : Row α × Table α :=
  match t.named name (name a) with
  | some r => (r, t)
  | none => (⟨t.next, a⟩, t.insert a)

theorem findOrInsert_of_some (h : t.named name (name a) = some r) :
    t.findOrInsert name a = (r, t) := by
  rw [findOrInsert, h]

theorem findOrInsert_of_none (h : t.named name (name a) = none) :
    t.findOrInsert name a = (⟨t.next, a⟩, t.insert a) := by
  rw [findOrInsert, h]

theorem named_eq_none_iff {b : β} : t.named name b = none ↔ b ∉ t.names name := by
  simp [named, names, List.find?_eq_none]

/-- The row is there, and has the name. -/
theorem findOrInsert_mem (t : Table α) (name : α → β) (a : α) :
    (t.findOrInsert name a).1 ∈ (t.findOrInsert name a).2.rows ∧
      name (t.findOrInsert name a).1.val = name a := by
  rcases Option.eq_none_or_eq_some (t.named name (name a)) with h | ⟨r, h⟩
  · simp [findOrInsert_of_none h]
  · rw [findOrInsert_of_some h]
    exact ⟨List.mem_of_find?_eq_some h, by simpa using List.find?_some h⟩

theorem names_findOrInsert :
    (t.findOrInsert name a).2.names name = intern (t.names name) (name a) := by
  rcases Option.eq_none_or_eq_some (t.named name (name a)) with h | ⟨r, h⟩
  · rw [findOrInsert_of_none h, intern, if_neg (named_eq_none_iff.mp h)]
    simp [names]
  · have hmem : name a ∈ t.names name := by
      by_contra hnot
      rw [named_eq_none_iff.mpr hnot] at h
      cases h
    rw [findOrInsert_of_some h, intern, if_pos hmem]

/-- A row afterwards was there before, or it is the one that had to be stored. -/
theorem mem_findOrInsert (h : r ∈ (t.findOrInsert name a).2.rows) :
    r ∈ t.rows ∨ r = ⟨t.next, a⟩ ∧ name a ∉ t.names name := by
  rcases Option.eq_none_or_eq_some (t.named name (name a)) with hname | ⟨s, hname⟩
  · rw [findOrInsert_of_none hname, rows_insert, List.mem_append, List.mem_singleton] at h
    exact h.imp_right fun hr => ⟨hr, named_eq_none_iff.mp hname⟩
  · rw [findOrInsert_of_some hname] at h
    exact .inl h

theorem later_findOrInsert : t.Later (t.findOrInsert name a).2 := by
  rcases Option.eq_none_or_eq_some (t.named name (name a)) with hname | ⟨s, hname⟩
  · rw [findOrInsert_of_none hname]
    exact later_insert a
  · rw [findOrInsert_of_some hname]
    exact .refl t

/-- The rows that were there are found as before. -/
theorem find?_findOrInsert (h : t.Has i) :
    (t.findOrInsert name a).2.find? i = t.find? i := by
  rcases Option.eq_none_or_eq_some (t.named name (name a)) with hname | ⟨r, hname⟩
  · rw [findOrInsert_of_none hname]
    exact find?_insert_of_ne a h.bounds.2.ne
  · rw [findOrInsert_of_some hname]

end Table

end Store
