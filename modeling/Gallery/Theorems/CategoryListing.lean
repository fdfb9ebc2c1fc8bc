import Gallery.Theorems.Pagination

/-!
# The listing of a category and the index

The links and the form of a listing page send their parameters as `q`. The index
searches by them; the listing of a category searches by `params[:id]`, which they
never send, and always orders by the time of creation. So the two agree where
neither the text nor the sort makes a difference.

## Main definitions

* `Picture.belongs` — a picture is in a category
* `CategoryAgrees` — the listing shows what the index shows of the category

## Main results

* `category_listing_iff` — for which parameters they agree
* `release_date_sort_ignored` — a sort link of the listing page
-/

namespace Gallery

open Store Rails

/-- The picture is in the category. -/
def Picture.belongs (db : Database) (c : Row Category) (p : Row Picture) : Bool :=
  db.picture_categories.rows.any fun pc => pc.val.picture_id = p.id && pc.val.category_id = c.id

/-- The parameters that the links and the form of a listing page send. -/
def ListingParams.ofForm (ilike : String → String → Bool) (title_cont : Option String)
    (s : Option SortBy) : ListingParams := ⟨some (Search.ofForm ilike title_cont s), none⟩

/-- The title has the text that was searched for, if there was one. -/
def Picture.matches (ilike : String → String → Bool) (title_cont : Option String)
    (p : Row Picture) : Bool := title_cont.all fun t => blank? t || ilike t p.val.title

/-- Over all its pages the listing of a category shows the pictures that the index shows
and that belong to the category, in an order in which the index might show them. The
listing finds the category by its name. -/
def CategoryAgrees (collation : Collation) (db : Database) (c : Row Category)
    (params : ListingParams) : Prop :=
  ∀ found ∈ db.categories.rows, found.val.name = c.val.name → ∀ listed shown,
    (PicturesController.select collation db (some found) params).order.Answers
      (PicturesController.select collation db (some found) params).rows listed →
    (PicturesController.index collation db params).order.Answers
      (PicturesController.index collation db params).rows shown →
    listed.Perm (shown.filter (Picture.belongs db c)) ∧
      listed.Pairwise fun x y => (PicturesController.index collation db params).order.le x y

variable {collation : Collation} {db : Database} {c : Row Category}
variable {ilike : String → String → Bool} {title_cont : Option String} {s : Option SortBy}

/-! ### The two queries -/

theorem mem_category_pictures {p : Row Picture} :
    p ∈ (Category.pictures db (some c)).rows ↔
      p ∈ db.pictures.rows ∧ Picture.belongs db c p := by
  simp only [Category.pictures, List.mem_filterMap, Option.any_some, decide_eq_true_eq,
    Picture.belongs, List.any_eq_true, Bool.and_eq_true, Option.ite_none_right_eq_some,
    Table.find?_eq_some_iff]
  constructor
  · rintro ⟨pc, hpc, hc, hp, hid⟩
    exact ⟨hp, pc, hpc, hid.symm, hc⟩
  · rintro ⟨hp, pc, hpc, hid, hc⟩
    exact ⟨pc, hpc, hc, hp, hid.symm⟩

/-- The listing of a category is the same for all parameters. -/
theorem select_ofForm :
    PicturesController.select collation db (some c) (.ofForm ilike title_cont s) =
      ⟨(Category.pictures db (some c)).rows, created_at_desc collation⟩ := by
  simp [PicturesController.select, ListingParams.ofForm, Listing.search, Listing.order_by,
    Category.pictures]

theorem flatMap_replicate_ite (rows : List (Row Picture)) (p : Row Picture → Bool) :
    (rows.flatMap fun r => List.replicate (if p r then 1 else 0) r) = rows.filter p := by
  induction rows with
  | nil => rfl
  | cons r rows ih =>
    rw [List.flatMap_cons, ih, List.filter_cons]
    split_ifs <;> rfl

/-- The index follows them. -/
theorem index_rows :
    (PicturesController.index collation db (.ofForm ilike title_cont s)).rows =
      db.pictures.rows.filter (Picture.matches ilike title_cont) :=
  flatMap_replicate_ite db.pictures.rows (Picture.matches ilike title_cont)

theorem index_order :
    (PicturesController.index collation db (.ofForm ilike title_cont s)).order =
      s.elim (created_at_desc collation) (SortBy.order collation) := by
  cases s with
  | none => exact RowOrder.any_lex _
  | some s => exact RowOrder.lex_any _

theorem created_at_desc_le {x y : Row Picture} :
    (created_at_desc collation).le x y ↔ y.val.created_at ≤ x.val.created_at := by
  simp [created_at_desc, SortBy.order, RowOrder.flip, SortColumn.order, RowOrder.comap,
    RowOrder.ascending]

/-- An answer to the index, as far as the category goes. -/
theorem perm_filter_shown {shown : List (Row Picture)}
    (h : (PicturesController.index collation db (.ofForm ilike title_cont s)).order.Answers
      (PicturesController.index collation db (.ofForm ilike title_cont s)).rows shown) :
    (shown.filter (Picture.belongs db c)).Perm
      (db.pictures.rows.filter fun p =>
        Picture.belongs db c p && Picture.matches ilike title_cont p) := by
  have hperm := h.1.filter (Picture.belongs db c)
  rwa [index_rows, List.filter_filter] at hperm

/-! ### Where they agree -/

/-- The listing and the index compared as queries: the same pictures, and the one order
refining the other. -/
theorem categoryAgrees_iff :
    CategoryAgrees collation db c (.ofForm ilike title_cont s) ↔
      ∀ found ∈ db.categories.rows, found.val.name = c.val.name →
        (Category.pictures db (some found)).rows.Perm (db.pictures.rows.filter fun p =>
          Picture.belongs db c p && Picture.matches ilike title_cont p) ∧
        ∀ x ∈ (Category.pictures db (some found)).rows,
          ∀ y ∈ (Category.pictures db (some found)).rows, (created_at_desc collation).le x y →
            (s.elim (created_at_desc collation) (SortBy.order collation)).le x y := by
  have horder : (PicturesController.index collation db (.ofForm ilike title_cont s)).order =
      s.elim (created_at_desc collation) (SortBy.order collation) := index_order
  refine forall₂_congr fun found _ => imp_congr_right fun _ => ?_
  rw [select_ofForm, ← forall_answers_pairwise_iff, ← horder]
  -- some answers to both queries, to read the rows off them
  constructor
  · intro h
    obtain ⟨shown, hshown⟩ := RowOrder.exists_answers
      (PicturesController.index collation db (.ofForm ilike title_cont s)).order
      (PicturesController.index collation db (.ofForm ilike title_cont s)).rows
    obtain ⟨listed, hlisted⟩ :=
      (created_at_desc collation).exists_answers (Category.pictures db (some found)).rows
    refine ⟨hlisted.1.symm.trans ?_, fun listed hlisted => (h listed shown hlisted hshown).2⟩
    exact (h listed shown hlisted hshown).1.trans (perm_filter_shown hshown)
  · rintro ⟨hperm, hsorted⟩ listed shown hlisted hshown
    refine ⟨?_, hsorted listed hlisted⟩
    exact (hlisted.1.trans hperm).trans (perm_filter_shown hshown).symm

/-- The pictures of one category are those of another that have the text, once each. -/
theorem category_pictures_perm_iff {found : Row Category} :
    (Category.pictures db (some found)).rows.Perm (db.pictures.rows.filter fun p =>
        Picture.belongs db c p && Picture.matches ilike title_cont p) ↔
      (Category.pictures db (some found)).rows.Nodup ∧
        ∀ p ∈ db.pictures.rows, Picture.belongs db found p =
          (Picture.belongs db c p && Picture.matches ilike title_cont p) := by
  have hnodup : (db.pictures.rows.filter fun p =>
      Picture.belongs db c p && Picture.matches ilike title_cont p).Nodup :=
    db.pictures.distinct.of_map.filter _
  have hmem : ∀ p, (p ∈ (Category.pictures db (some found)).rows ↔
      p ∈ db.pictures.rows.filter fun p =>
        Picture.belongs db c p && Picture.matches ilike title_cont p) ↔
      (p ∈ db.pictures.rows → Picture.belongs db found p =
        (Picture.belongs db c p && Picture.matches ilike title_cont p)) := by
    intro p
    rw [mem_category_pictures, List.mem_filter, and_congr_right_iff]
    exact imp_congr_right fun _ => Bool.eq_iff_iff.symm
  -- both sides are without repetition, so only membership counts
  constructor
  · intro hperm
    exact ⟨hperm.nodup_iff.mpr hnodup, fun p => (hmem p).mp hperm.mem_iff⟩
  · rintro ⟨hnodup', hsame⟩
    exact (List.perm_ext_iff_of_nodup hnodup' hnodup).mpr fun p => (hmem p).mpr (hsame p)

/-- The listing of a category agrees with the index exactly if every category of its name
has its pictures, each once in the join table, if all of them have the text that is
searched for, and if newer pictures come first in the order that is asked for. -/
theorem category_listing_iff (collation : Collation) (ilike : String → String → Bool)
    (db : Database) {c : Row Category} (hc : c ∈ db.categories.rows) (title_cont : Option String)
    (s : Option SortBy) :
    CategoryAgrees collation db c (.ofForm ilike title_cont s) ↔
      (∀ found ∈ db.categories.rows, found.val.name = c.val.name →
        (Category.pictures db (some found)).rows.Nodup ∧
          ∀ p ∈ db.pictures.rows, Picture.belongs db found p = Picture.belongs db c p) ∧
      (∀ p ∈ db.pictures.rows, Picture.belongs db c p → Picture.matches ilike title_cont p) ∧
      ∀ x ∈ db.pictures.rows, Picture.belongs db c x →
        ∀ y ∈ db.pictures.rows, Picture.belongs db c y →
          y.val.created_at ≤ x.val.created_at →
            ∀ sort ∈ s, (SortBy.order collation sort).le x y := by
  rw [categoryAgrees_iff]
  constructor
  · intro h
    have hpictures := fun found hfound hname =>
      category_pictures_perm_iff.mp (h found hfound hname).1
    -- the category itself is one that its name may find
    have hmatches : ∀ p ∈ db.pictures.rows, Picture.belongs db c p →
        Picture.matches ilike title_cont p := by
      intro p hp hbelongs
      have hself := (hpictures c hc rfl).2 p hp
      rw [hbelongs, Bool.true_and] at hself
      exact hself.symm
    refine ⟨fun found hfound hname => ⟨(hpictures found hfound hname).1, fun p hp => ?_⟩,
      hmatches, ?_⟩
    · rw [(hpictures found hfound hname).2 p hp]
      by_cases hbelongs : Picture.belongs db c p
      · simp [hbelongs, hmatches p hp hbelongs]
      · simp [hbelongs]
    · intro x hx hbx y hy hby hle sort hsort
      obtain rfl : s = some sort := hsort
      exact (h c hc rfl).2 x (mem_category_pictures.mpr ⟨hx, hbx⟩) y
        (mem_category_pictures.mpr ⟨hy, hby⟩) (created_at_desc_le.mpr hle)
  · rintro ⟨hsame, hmatches, hsorted⟩ found hfound hname
    obtain ⟨hnodup, hbelongs⟩ := hsame found hfound hname
    refine ⟨category_pictures_perm_iff.mpr ⟨hnodup, fun p hp => ?_⟩, fun x hx y hy hle => ?_⟩
    · rw [hbelongs p hp]
      by_cases hc' : Picture.belongs db c p
      · simp [hc', hmatches p hp hc']
      · simp [hc']
    -- without a sort the index orders as the listing does
    · cases s with
      | none => exact hle
      | some sort =>
        obtain ⟨hx, hbx⟩ := mem_category_pictures.mp hx
        obtain ⟨hy, hby⟩ := mem_category_pictures.mp hy
        rw [hbelongs x hx] at hbx
        rw [hbelongs y hy] at hby
        exact hsorted x hx hbx y hy hby (created_at_desc_le.mp hle) sort rfl

/-! ### Concrete pictures -/

/-- A category with two pictures, the newer one first in the alphabet. -/
def Database.towns : Database :=
  { Database.empty with
    pictures := (Table.empty.insert ⟨"Bridge", "bridge.jpg", 0, 0⟩).insert
      ⟨"Alley", "alley.jpg", 1, 1⟩
    categories := Table.empty.insert ⟨"Towns"⟩
    picture_categories := (Table.empty.insert ⟨1, 1⟩).insert ⟨2, 1⟩ }

/-- A sort by title that the order of creation happens to follow. -/
theorem category_listing_towns :
    CategoryAgrees .C .towns ⟨1, ⟨"Towns"⟩⟩
      (.ofForm (fun _ _ => true) none (some ⟨.title, false⟩)) :=
  (category_listing_iff .C (fun _ _ => true) .towns (by decide) none (some ⟨.title, false⟩)).mpr
    (by decide)

/-- The link "Release Date" asks for the oldest first, and the listing does not listen. -/
theorem release_date_sort_ignored :
    ¬ CategoryAgrees .C .towns ⟨1, ⟨"Towns"⟩⟩
      (.ofForm (fun _ _ => true) none (some ⟨.created_at, false⟩)) := by
  rw [category_listing_iff .C (fun _ _ => true) .towns (by decide) none]
  decide

end Gallery
