import Gallery.Store.Table
import Mathlib.Data.List.Forall2

/-!
# Tables related row by row

Two tables whose rows correspond, in order and under the same keys. What a write
or a query does to one of them it does to the other, as long as the write or the
query treats corresponding rows alike.

## Main definitions

* `Table.Related` — the rows of two tables correspond

## Main results

* `Related.insert`, `Related.delete`, `Related.update` — the writes keep it
* `Related.find`, `Related.any`, `Related.has` — the queries answer alike
-/

namespace Store

namespace Table

variable {α β γ : Type*} {R : Row α → Row β → Prop} {t : Table α} {t' : Table β}

/-- The rows of the tables correspond, and the next key is the same. -/
structure Related (R : Row α → Row β → Prop) (t : Table α) (t' : Table β) : Prop where
  next : t.next = t'.next
  rows : List.Forall₂ R t.rows t'.rows

/-- A search of corresponding rows finds corresponding rows, or none on either side. -/
theorem find?_forall₂ {p : Row α → Bool} {q : Row β → Bool} {rs : List (Row α)}
    {ss : List (Row β)} (h : List.Forall₂ R rs ss) (hpq : ∀ r s, R r s → p r = q s) :
    (rs.find? p = none ∧ ss.find? q = none) ∨
      ∃ r s, rs.find? p = some r ∧ ss.find? q = some s ∧ R r s := by
  induction h with
  | nil => exact .inl ⟨rfl, rfl⟩
  | @cons r s _ _ hrs _ ih =>
    rcases Bool.eq_false_or_eq_true (p r) with hp | hp
    · exact .inr ⟨r, s, List.find?_cons_of_pos hp, List.find?_cons_of_pos (hpq r s hrs ▸ hp), hrs⟩
    · rw [List.find?_cons_of_neg (by simp [hp]),
        List.find?_cons_of_neg (by simp [← hpq r s hrs, hp])]
      exact ih

/-- Columns that agree on corresponding rows are the same lists. -/
theorem map_eq_of_forall₂ {δ : Type*} {rs : List (Row α)} {ss : List (Row β)} {f : Row α → δ}
    {g : Row β → δ} (h : List.Forall₂ R rs ss) (hfg : ∀ r s, R r s → f r = g s) :
    rs.map f = ss.map g := by
  induction h with
  | nil => rfl
  | cons hrs _ ih => rw [List.map_cons, List.map_cons, hfg _ _ hrs, ih]

namespace Related

theorem refl {R : Row α → Row α → Prop} (h : ∀ r, R r r) (t : Table α) : t.Related R t :=
  ⟨rfl, List.forall₂_same.mpr fun r _ => h r⟩

theorem insert (h : t.Related R t') {a : α} {b : β} (hab : R ⟨t.next, a⟩ ⟨t'.next, b⟩) :
    (t.insert a).Related R (t'.insert b) :=
  ⟨congrArg (· + 1) h.next, List.rel_append h.rows (.cons hab .nil)⟩

/-- Rows that correspond are kept or removed together. -/
theorem filter {p : Row α → Bool} {q : Row β → Bool} (h : t.Related R t')
    (hpq : ∀ r s, R r s → p r = q s) : List.Forall₂ R (t.rows.filter p) (t'.rows.filter q) :=
  List.rel_filter (fun r s hrs => by simp [hpq r s hrs]) h.rows

theorem delete {p : Row α → Bool} {q : Row β → Bool} (h : t.Related R t')
    (hpq : ∀ r s, R r s → p r = q s) : (t.delete p).Related R (t'.delete q) :=
  ⟨h.next, h.filter fun r s hrs => by rw [hpq r s hrs]⟩

theorem update {R' : Row γ → Row γ → Prop} {f : Row α → γ} {g : Row β → γ} (h : t.Related R t')
    (hfg : ∀ r s, R r s → R' ⟨r.id, f r⟩ ⟨s.id, g s⟩) : (t.update f).Related R' (t'.update g) :=
  ⟨h.next, List.rel_map (fun _ _ hrs => hfg _ _ hrs) h.rows⟩

/-- A search finds corresponding rows, or none in either table. -/
theorem find {p : Row α → Bool} {q : Row β → Bool} (h : t.Related R t')
    (hpq : ∀ r s, R r s → p r = q s) :
    (t.rows.find? p = none ∧ t'.rows.find? q = none) ∨
      ∃ r s, t.rows.find? p = some r ∧ t'.rows.find? q = some s ∧ R r s :=
  find?_forall₂ h.rows hpq

theorem any {p : Row α → Bool} {q : Row β → Bool} (h : t.Related R t')
    (hpq : ∀ r s, R r s → p r = q s) : t.rows.any p = t'.rows.any q := by
  have hfind := h.find hpq
  rw [Bool.eq_iff_iff, List.any_eq_true, List.any_eq_true, ← List.find?_isSome,
    ← List.find?_isSome]
  rcases hfind with ⟨hr, hs⟩ | ⟨r, s, hr, hs, -⟩ <;> simp [hr, hs]

variable {i : ℤ}

theorem find? (h : t.Related R t') (hid : ∀ r s, R r s → r.id = s.id) :
    (t.find? i = none ∧ t'.find? i = none) ∨
      ∃ r s, t.find? i = some r ∧ t'.find? i = some s ∧ R r s :=
  h.find fun r s hrs => by rw [hid r s hrs]

theorem has (h : t.Related R t') (hid : ∀ r s, R r s → r.id = s.id) : t.Has i ↔ t'.Has i := by
  rw [has_iff_exists_find?, has_iff_exists_find?]
  rcases h.find? hid (i := i) with ⟨hr, hs⟩ | ⟨r, s, hr, hs, -⟩
  · simp [hr, hs]
  · simp [hr, hs]

end Related

end Table

end Store
