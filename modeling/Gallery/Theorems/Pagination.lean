import Gallery.Pages.Listing
import Mathlib.Data.List.Lex

/-!
# What the pages of a listing show

The listings order by columns in which pictures may agree, and nothing breaks the
ties. The pages show every picture once exactly if no picture is listed twice and
the pictures that agree are on one page anyway.

## Main results

* `Listing.partitioned_iff` — when the pages of a listing partition it
* `pages_partition` — the same for `index` and `select`
* `sort_by_title_loses_pictures` — pictures of one title
-/

namespace Gallery

open Store Rails

variable {collation : Collation} {db : Database} {rows : List (Row Picture)}

/-- How many rows a search leaves of a picture; without parameters one. -/
def Search.hitsOf (q : Option Search) (p : Row Picture) : ℕ := q.elim 1 fun q => q.hits p

/-- The pages of a listing, whatever it lists. -/
theorem Listing.partitioned_iff (l : Listing) :
    l.Partitioned ↔ l.rows.Nodup ∧ l.order.NoStraddle Picture.perPage l.rows :=
  pages_partition_iff (by decide)

theorem count_flatMap_replicate (hits : Row Picture → ℕ) (p : Row Picture) :
    (rows.flatMap fun p => List.replicate (hits p) p).count p = rows.count p * hits p := by
  induction rows with
  | nil => simp
  | cons q rows ih =>
    rw [List.flatMap_cons, List.count_append, ih]
    by_cases hq : q = p
    · subst hq
      rw [List.count_replicate_self, List.count_cons_self, Nat.add_one_mul, Nat.add_comm]
    · rw [List.count_replicate, List.count_cons_of_ne hq]
      simp [hq]

/-- A search multiplies. -/
theorem count_search (l : Listing) (q : Option Search) (p : Row Picture) :
    (l.search collation q).rows.count p = l.rows.count p * Search.hitsOf q p := by
  cases q with
  | none => exact (Nat.mul_one _).symm
  | some q => exact count_flatMap_replicate q.hits p

/-- Nothing is listed twice. -/
theorem nodup_search_iff (l : Listing) (q : Option Search) :
    (l.search collation q).rows.Nodup ↔
      ∀ p ∈ l.rows, l.rows.count p * Search.hitsOf q p ≤ 1 := by
  rw [List.nodup_iff_count_le_one]
  constructor
  · exact fun h p _ => count_search l q p ▸ h p
  · intro h p
    rw [count_search]
    by_cases hp : p ∈ l.rows
    · exact h p hp
    · simp [List.count_eq_zero.mpr hp]

/-- The table has every picture once. -/
theorem count_pictures {p : Row Picture} (hp : p ∈ db.pictures.rows) :
    db.pictures.rows.count p = 1 :=
  List.count_eq_one_of_mem db.pictures.distinct.of_map hp

/-- The pages of the two listings show every picture in scope once, whatever the
answers, exactly if no picture is listed twice — by the search or by the join table —
and no pictures on different pages compare equal. -/
theorem pages_partition (collation : Collation) (db : Database) (params : ListingParams) :
    ((PicturesController.index collation db params).Partitioned ↔
      (∀ p ∈ db.pictures.rows, Search.hitsOf params.q p ≤ 1) ∧
        (PicturesController.index collation db params).order.NoStraddle Picture.perPage
          (PicturesController.index collation db params).rows) ∧
    ∀ category,
      ((PicturesController.select collation db category params).Partitioned ↔
        (∀ p ∈ (Category.pictures db category).rows,
          (Category.pictures db category).rows.count p * Search.hitsOf params.id p ≤ 1) ∧
        (PicturesController.select collation db category params).order.NoStraddle Picture.perPage
          (PicturesController.select collation db category params).rows) := by
  constructor
  · rw [Listing.partitioned_iff, PicturesController.index, nodup_search_iff]
    refine and_congr_left' (forall₂_congr fun p hp => ?_)
    rw [Listing.order_by, Picture.scoped, count_pictures hp, Nat.one_mul]
  · intro category
    rw [Listing.partitioned_iff, PicturesController.select]
    exact and_congr_left' (nodup_search_iff _ params.id)

/-- Six pictures of one title, stored one after the other. -/
def Database.bridges : Database :=
  { Database.empty with
    pictures := [0, 1, 2, 3, 4, 5].foldl
      (fun t now => t.insert ⟨"Bridge", "bridge.jpg", now, now⟩) .empty }

/-- The collation `C`: texts compared character by character. -/
def Collation.C : Collation := RowOrder.ascending.comap fun s => s.toList.map Char.toNat

/-- The link that sorts by title. -/
def Search.byTitle : Search := .ofForm (fun _ _ => true) none (some ⟨.title, false⟩)

/-- Nothing says which of them is on the second page once they are sorted by title. -/
theorem sort_by_title_loses_pictures :
    ¬ (PicturesController.index .C .bridges ⟨some .byTitle, none⟩).Partitioned := by
  rw [(pages_partition .C .bridges ⟨some .byTitle, none⟩).1]
  decide

end Gallery
