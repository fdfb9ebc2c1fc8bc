import Mathlib.Data.Int.Basic
import Mathlib.Data.List.Nodup
import Mathlib.Tactic.Linarith

/-!
# Tables with a serial key

A table is the list of its rows in insertion order together with the value the
key sequence hands out next. That keys are positive, below the sequence value
and pairwise distinct is part of the type, so a table with a repeated or a
reused key cannot be built.

## Main definitions

* `Row`, `Table` — keyed rows and tables of them
* `Table.insert`, `Table.delete`, `Table.update` — the three kinds of write
* `Table.find?`, `Table.Has` — looking a key up

## Main results

* `Table.find?_eq_some_iff` — a key names at most one row
* `Table.has_insert`, `Table.has_delete`, `Table.has_update` — which keys are
  present after a write
* `Table.Later` — no write brings a key back
-/

namespace Store

/-- A stored row: its key and its columns. -/
structure Row (α : Type*) where
  id : ℤ
  val : α
deriving DecidableEq, Repr

/-- A table whose keys come from a sequence. -/
@[ext]
structure Table (α : Type*) where
  rows : List (Row α)
  next : ℤ
  next_pos : 0 < next
  bounds : ∀ r ∈ rows, 0 < r.id ∧ r.id < next
  distinct : (rows.map Row.id).Nodup

namespace Table

variable {α β : Type*} {t : Table α} {r r' : Row α} {i : ℤ}

/-- The table just created. -/
def empty : Table α where
  rows := []
  next := 1
  next_pos := by norm_num
  bounds := by simp
  distinct := List.nodup_nil

instance : Inhabited (Table α) := ⟨empty⟩

/-- Two rows with one key are one row. -/
theorem eq_of_id_eq (hr : r ∈ t.rows) (hr' : r' ∈ t.rows) (h : r.id = r'.id) : r = r' :=
  List.inj_on_of_nodup_map t.distinct hr hr' h

/-- Appends a row under the next key of the sequence. -/
def insert (t : Table α) (a : α) : Table α where
  rows := t.rows ++ [⟨t.next, a⟩]
  next := t.next + 1
  next_pos := by linarith [t.next_pos]
  bounds := by
    intro r hr
    have hpos := t.next_pos
    rcases List.mem_append.mp hr with hr | hr
    · have := t.bounds r hr
      omega
    · obtain rfl := List.mem_singleton.mp hr
      exact ⟨hpos, by simp⟩
  distinct := by
    rw [List.map_append, List.nodup_append]
    refine ⟨t.distinct, by simp, ?_⟩
    intro i hi j hj
    obtain ⟨r, hr, rfl⟩ := List.mem_map.mp hi
    have hlt := (t.bounds r hr).2
    have hj : j = t.next := by simpa using hj
    omega

/-- Removes the rows that satisfy `p`. -/
def delete (t : Table α) (p : Row α → Bool) : Table α where
  rows := t.rows.filter fun r => !p r
  next := t.next
  next_pos := t.next_pos
  bounds := fun r hr => t.bounds r (List.mem_of_mem_filter hr)
  distinct := (List.filter_sublist.map _).nodup t.distinct

/-- Rewrites the columns of every row, leaving the keys alone. -/
def update (t : Table α) (f : Row α → β) : Table β where
  rows := t.rows.map fun r => ⟨r.id, f r⟩
  next := t.next
  next_pos := t.next_pos
  bounds := by
    intro r hr
    obtain ⟨r₀, hr₀, rfl⟩ := List.mem_map.mp hr
    exact t.bounds r₀ hr₀
  distinct := by
    have hids : (t.rows.map fun r => (⟨r.id, f r⟩ : Row β)).map Row.id = t.rows.map Row.id := by
      simp [List.map_map, Function.comp_def]
    rw [hids]
    exact t.distinct

/-- An insertion that is refused uses up its key all the same. -/
def refuse (t : Table α) : Table α where
  rows := t.rows
  next := t.next + 1
  next_pos := by linarith [t.next_pos]
  bounds := fun r hr => ⟨(t.bounds r hr).1, (t.bounds r hr).2.trans (lt_add_one t.next)⟩
  distinct := t.distinct

/-- The row stored under a key. -/
def find? (t : Table α) (i : ℤ) : Option (Row α) := t.rows.find? fun r => r.id = i

/-- Some row is stored under the key. -/
def Has (t : Table α) (i : ℤ) : Prop := ∃ r ∈ t.rows, r.id = i

instance (t : Table α) (i : ℤ) : Decidable (t.Has i) :=
  inferInstanceAs (Decidable (∃ r ∈ t.rows, r.id = i))

@[simp] theorem rows_empty : (empty : Table α).rows = [] := rfl

@[simp] theorem rows_insert (a : α) : (t.insert a).rows = t.rows ++ [⟨t.next, a⟩] := rfl

@[simp] theorem rows_delete (p : Row α → Bool) :
    (t.delete p).rows = t.rows.filter fun r => !p r := rfl

@[simp] theorem rows_refuse : t.refuse.rows = t.rows := rfl

@[simp] theorem rows_update (f : Row α → β) :
    (t.update f).rows = t.rows.map fun r => ⟨r.id, f r⟩ := rfl

theorem Has.intro (hr : r ∈ t.rows) : t.Has r.id := ⟨r, hr, rfl⟩

theorem Has.bounds (h : t.Has i) : 0 < i ∧ i < t.next := by
  obtain ⟨r, hr, rfl⟩ := h
  exact t.bounds r hr

@[simp] theorem has_insert (a : α) : (t.insert a).Has i ↔ t.Has i ∨ i = t.next := by
  simp [Has, or_and_right, exists_or, eq_comm]

theorem has_delete (p : Row α → Bool) :
    (t.delete p).Has i ↔ ∃ r ∈ t.rows, p r = false ∧ r.id = i := by
  simp [Has, and_assoc]

/-- Deleting by key removes that key and no other. -/
@[simp] theorem has_delete_id (j : ℤ) :
    (t.delete fun r => r.id = j).Has i ↔ t.Has i ∧ i ≠ j := by
  rw [has_delete]
  constructor
  · rintro ⟨r, hr, hne, rfl⟩
    exact ⟨.intro hr, by simpa using hne⟩
  · rintro ⟨⟨r, hr, rfl⟩, hne⟩
    exact ⟨r, hr, by simpa using hne, rfl⟩

@[simp] theorem has_update (f : Row α → β) : (t.update f).Has i ↔ t.Has i := by
  simp [Has]

/-- A key names at most one row, so looking it up finds that row. -/
theorem find?_eq_some_iff : t.find? i = some r ↔ r ∈ t.rows ∧ r.id = i := by
  constructor
  · intro h
    exact ⟨List.mem_of_find?_eq_some h, by simpa using List.find?_some h⟩
  · rintro ⟨hr, rfl⟩
    obtain ⟨r', hr'⟩ := Option.isSome_iff_exists.mp
      (List.find?_isSome (p := fun s => decide (s.id = r.id)).mpr ⟨r, hr, by simp⟩)
    have hid : r'.id = r.id := by simpa using List.find?_some hr'
    rw [find?, hr', eq_of_id_eq (List.mem_of_find?_eq_some hr') hr hid]

theorem has_of_find?_eq_some (h : t.find? i = some r) : t.Has i := by
  obtain ⟨hr, rfl⟩ := find?_eq_some_iff.mp h
  exact .intro hr

theorem has_iff_exists_find? : t.Has i ↔ ∃ r, t.find? i = some r := by
  constructor
  · rintro ⟨r, hr, rfl⟩
    exact ⟨r, find?_eq_some_iff.mpr ⟨hr, rfl⟩⟩
  · rintro ⟨r, h⟩
    exact has_of_find?_eq_some h

@[simp] theorem find?_update (f : Row α → β) :
    (t.update f).find? i = (t.find? i).map fun r => ⟨r.id, f r⟩ := by
  rw [find?, find?, rows_update, List.find?_map]
  rfl

theorem find?_insert_of_ne (a : α) (h : i ≠ t.next) : (t.insert a).find? i = t.find? i := by
  have hnew : ([⟨t.next, a⟩] : List (Row α)).find? (fun r => r.id = i) = none := by
    simp [h.symm]
  rw [find?, find?, rows_insert, List.find?_append, hnew, Option.or_none]

@[simp] theorem find?_delete_self : (t.delete fun r => r.id = i).find? i = none := by
  simp [find?]

theorem find?_delete_of_ne {j : ℤ} (h : i ≠ j) :
    (t.delete fun r => r.id = j).find? i = t.find? i := by
  rw [find?, find?, rows_delete, List.find?_filter]
  congr 1
  funext r
  by_cases hr : r.id = i
  · simp [hr, h]
  · simp [hr]

/-! ### Some of the columns -/

theorem update_insert (f : Row α → β) (a : α) :
    (t.insert a).update f = (t.update f).insert (f ⟨t.next, a⟩) :=
  Table.ext (by simp [update]) rfl

/-- Rows are removed by their keys. -/
theorem update_delete (f : Row α → β) (p : ℤ → Bool) :
    (t.delete fun r => p r.id).update f = (t.update f).delete fun r => p r.id :=
  Table.ext (by simp [List.filter_map, Function.comp_def]) rfl

/-- Columns that `f` does not read are rewritten. -/
theorem update_update {f : Row α → β} {g : Row α → α} (h : ∀ r, f ⟨r.id, g r⟩ = f r) :
    (t.update g).update f = t.update f :=
  Table.ext (by simp [Function.comp_def, h]) rfl

/-! ### Later states of a table -/

/-- Keys that were handed out and are gone do not come back. -/
structure Later (t t' : Table α) : Prop where
  next : t.next ≤ t'.next
  has : ∀ i < t.next, t'.Has i → t.Has i

theorem Later.refl (t : Table α) : t.Later t := ⟨le_rfl, fun _ _ h => h⟩

theorem Later.trans {t' t'' : Table α} (h : t.Later t') (h' : t'.Later t'') : t.Later t'' where
  next := h.next.trans h'.next
  has i hi hhas := h.has i hi (h'.has i (hi.trans_le h.next) hhas)

theorem later_insert (a : α) : t.Later (t.insert a) where
  next := Int.le.intro 1 rfl
  has i hi hhas := by
    rcases (has_insert a).mp hhas with hhas | rfl
    · exact hhas
    · exact absurd hi (lt_irrefl _)

theorem later_delete (p : Row α → Bool) : t.Later (t.delete p) where
  next := le_rfl
  has i _ hhas := by
    obtain ⟨r, hr, -, rfl⟩ := (has_delete p).mp hhas
    exact .intro hr

theorem later_update (f : Row α → α) : t.Later (t.update f) where
  next := le_rfl
  has _ _ hhas := (has_update f).mp hhas

end Table

end Store
