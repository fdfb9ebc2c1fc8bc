import Gallery.Pages.Menu

/-!
# Which links of the menu work

The name of a category stands in the path of its link as it is. So the link of a name that
divides or ends a path, that a browser cleans, or that reads as an escape leads elsewhere;
and of several categories with one name, the link of each leads to any of them.

## Main results

* `select_params`, `exists_part` — what a path of `select` looks like
* `plain_of_follow`, `follow_of_plain` — the names that come through
* `menu_link_iff` — the links that work
-/

namespace Gallery

open Store Rails Text Text.Uri Text.Percent Text.Navigation

variable {page : Reference} {name : List Char} {params : Params} {path : List Char}

/-! ### The route -/

/-- A path that leads to `select` without a page has three pieces, the last of which holds
the category. -/
theorem select_params (h : recognize pictures_routes path = some (.select, params))
    (hpage : params.lookup "page" = none) :
    ∃ a b x, pieces path = [a, b, x] ∧
      params.lookup "category" = some (decode (cut '.' x).1) := by
  obtain ⟨pattern, hmem, hmatch⟩ := exists_of_recognize h
  obtain ⟨tail, htail, rfl⟩ : ∃ tail, tail ∈ [[.dynamic "category"],
      [.dynamic "category", .dynamic "page"]] ∧
      pattern = .static "pictures".toList :: .static "category".toList :: tail := by
    simpa [pictures_routes, or_and_right, exists_or] using hmem
  obtain ⟨next, rest, rfl⟩ : ∃ next rest, tail = next :: rest := by
    simp only [List.mem_cons, List.not_mem_nil, or_false] at htail
    rcases htail with rfl | rfl <;> exact ⟨_, _, rfl⟩
  obtain ⟨a, xs, p, q, hpieces, ha, hmatch', rfl⟩ := matchPath_cons hmatch
  obtain ⟨b, ys, p', q', rfl, hb, hmatch'', rfl⟩ := matchPath_cons hmatch'
  obtain ⟨-, rfl⟩ := match_static ha
  obtain ⟨-, rfl⟩ := match_static hb
  simp only [List.mem_cons, List.cons.injEq, List.not_mem_nil, or_false] at htail
  rcases htail with ⟨rfl, rfl⟩ | ⟨rfl, rfl⟩
  · obtain ⟨x, rfl, hx⟩ := matchPath_singleton hmatch''
    obtain ⟨rest, rfl⟩ := matchLast_dynamic hx
    exact ⟨a, b, x, hpieces, List.lookup_cons_self⟩
  · obtain ⟨x, zs, r, r', rfl, hx, hlast, rfl⟩ := matchPath_cons hmatch''
    obtain ⟨y, rfl, hy⟩ := matchPath_singleton hlast
    obtain rfl := match_dynamic hx
    obtain ⟨rest, rfl⟩ := matchLast_dynamic hy
    -- the fourth piece would be the page
    cases hpage

/-- A path with a plain value behind the two names leads to `select`. -/
theorem select_of_pieces {x : List Char}
    (hpieces : pieces path = ["pictures".toList, "category".toList, x]) (hx : isValue x) :
    recognize pictures_routes path = some (.select, [("category", decode x)]) := by
  have hdot : '.' ∉ x := by
    rw [isValue, Bool.and_eq_true, List.all_eq_true] at hx
    intro hmem
    exact absurd (hx.2 '.' hmem) (by decide)
  have hcut : cut '.' x = (x, none) := by
    simpa using cut_led hdot none
  have hlast : (Segment.dynamic "category").matchLast x = some [("category", decode x)] := by
    unfold Segment.matchLast
    rw [hcut]
    exact if_pos hx
  have hmatch : matchPath [.static "pictures".toList, .static "category".toList,
      .dynamic "category"] (pieces path) = some [("category", decode x)] := by
    rw [hpieces]
    simp [matchPath, Segment.match, hlast]
  -- the route for one picture has two pieces
  have hshow : matchPath [.static "pictures".toList, .dynamic "id"] (pieces path) = none := by
    rw [hpieces]
    rfl
  simp only [recognize, pictures_routes, List.findSome?_cons, hshow, hmatch, Option.map_none,
    Option.map_some]

/-! ### Names -/

/-- What is behind the two names of a path of `select` has been behind those of the link. -/
theorem exists_third {a b x c d : List Char} {xs : List (List Char)}
    (h : [a, b, x].Sublist ([c, d] ++ xs)) : x ∈ xs := by
  obtain ⟨front, back, hsplit, hfront, hback⟩ := List.sublist_append_iff.mp h
  have hlength := hfront.length_le
  refine hback.subset ?_
  match front, hsplit with
  | [], hsplit =>
    rw [List.nil_append] at hsplit
    simp [← hsplit]
  | [_], hsplit =>
    obtain ⟨-, hsplit⟩ := List.cons.inj hsplit
    simp [← show _ = back from hsplit]
  | [_, _], hsplit =>
    obtain ⟨-, hsplit⟩ := List.cons.inj hsplit
    obtain ⟨-, hsplit⟩ := List.cons.inj hsplit
    simp [← show _ = back from hsplit]
  | _ :: _ :: _ :: _, _ =>
    simp at hlength

/-- The path a browser asks for, in pieces. -/
theorem requestPath_category_link (page : Reference) (name : String) :
    requestPath page (category_link name) = encode pathEscapes (removeDotSegments
      ("/pictures/category".toList ++ '/' ::
        (cut '?' (cut '#' ((cleanEnd name.toList).map slash)).1).1)) := by
  have hfront : ∀ c ∈ "/pictures/category/".toList, ¬ c ≤ ' ' ∧ c ∉ ['?', '#', '\\'] :=
    forall_mem_of_all (by decide)
  exact requestPath_rooted page (by decide) hfront name.toList

/-- The category that `select` is asked for is read from a part of the cleaned name without
dots, slashes, and what ends a path. -/
theorem exists_part {name : String}
    (h : follow page (category_link name) = some (.select, params))
    (hpage : params.lookup "page" = none) :
    ∃ y, y.Sublist (cleanEnd name.toList) ∧ (∀ c ∈ y, c ∉ ['/', '\\', '.', '?', '#']) ∧
      params.lookup "category" = some (decode y) := by
  obtain ⟨a, b, x, hpieces, hvalue⟩ := select_params h hpage
  generalize hm : (cut '?' (cut '#' ((cleanEnd name.toList).map slash)).1).1 = m at *
  rw [requestPath_category_link, hm, pieces_encode (by decide)] at hpieces
  -- the third piece of the path is the encoding of a piece behind the names
  obtain ⟨a', xs, hpath, -, hxs⟩ := List.map_eq_cons_iff.mp hpieces
  obtain ⟨b', ys, rfl, -, hys⟩ := List.map_eq_cons_iff.mp hxs
  obtain ⟨k, zs, rfl, rfl, hzs⟩ := List.map_eq_cons_iff.mp hys
  obtain rfl := List.map_eq_nil_iff.mp hzs
  have hsublist : [a', b', k].Sublist (["pictures".toList, "category".toList] ++ pieces m) := by
    have hremoved := @pieces_removeDotSegments ("/pictures/category".toList ++ '/' :: m) rfl
    rw [hpath, pieces_append] at hremoved
    exact hremoved
  obtain ⟨hkm, hslash⟩ := mem_pieces (exists_third hsublist)
  -- the category is what stands before its first dot
  have hyk : (cut '.' k).1.Sublist k := cut_sublist '.' k
  rw [cut_encode (by decide) (by decide), decode_encode pathEscapes_encodes] at hvalue
  have hmslash : m.Sublist ((cleanEnd name.toList).map slash) := by
    rw [← hm]
    exact (cut_sublist _ _).trans (cut_sublist _ _)
  obtain ⟨hclean, hback⟩ := sublist_of_map_slash ((hyk.trans hkm).trans hmslash)
    fun hmem => hslash (hyk.subset hmem)
  refine ⟨_, hclean, fun c hc hmem => ?_, hvalue⟩
  have hcm : c ∈ m := hkm.subset (hyk.subset hc)
  simp only [List.mem_cons, List.not_mem_nil, or_false] at hmem
  rcases hmem with rfl | rfl | rfl | rfl | rfl
  · exact hslash (hyk.subset hc)
  · exact hback hc
  · exact notMem_cut '.' k hc
  · exact notMem_cut_cut (hm ▸ hcm) (by decide)
  · exact notMem_cut_cut (hm ▸ hcm) (by decide)

/-- A name that comes through is plain: reading adds nothing, so nothing has been lost on
the way. -/
theorem plain_of_follow {name : String}
    (h : follow page (category_link name) = some (.select, params))
    (hcategory : params.lookup "category" = some (utf8 name.toList))
    (hpage : params.lookup "page" = none) : PlainName name.toList := by
  obtain ⟨y, hclean, hchars, hvalue⟩ := exists_part h hpage
  rw [hcategory, Option.some.injEq] at hvalue
  obtain ⟨hle, heq⟩ := length_utf8_of_sublist (hclean.trans (cleanEnd_sublist _))
  obtain ⟨hdecode, hescape⟩ := length_decode_le y
  rw [← hvalue] at hdecode hescape
  have hname : y = name.toList := heq hdecode
  rw [← hname] at hclean ⊢
  have hcleaned : cleanEnd y = y := (cleanEnd_sublist y).antisymm hclean
  obtain ⟨htabs, hlast⟩ := cleanEnd_eq_self_iff.mp hcleaned
  refine ⟨fun c hc hmem => ?_, hlast, hescape hle⟩
  rcases List.mem_append.mp (show c ∈ ['/', '\\', '.', '?', '#'] ++ ['\t', '\n', '\r'] from hmem)
    with hmem | hmem
  · exact hchars c hc hmem
  · exact htabs c hc hmem

/-- A plain name comes through. -/
theorem follow_of_plain (page : Reference) {name : String} (hne : name.toList ≠ [])
    (h : PlainName name.toList) :
    follow page (category_link name) =
      some (.select, [("category", utf8 name.toList)]) := by
  have hchars : ∀ c ∈ ['/', '\\', '.', '?', '#', '\t', '\n', '\r'], c ∉ name.toList :=
    fun c hc hmem => h.chars c hmem hc
  have hcleaned : cleanEnd name.toList = name.toList := by
    refine cleanEnd_eq_self_iff.mpr ⟨fun c hc hmem => h.chars c hc ?_, h.last⟩
    exact List.mem_of_mem_drop (i := 5) hmem
  have hcut : (cut '?' (cut '#' name.toList).1).1 = name.toList := by
    have hhash : cut '#' name.toList = (name.toList, none) := by
      simpa using cut_led (hchars '#' (by decide)) none
    have hmark : cut '?' name.toList = (name.toList, none) := by
      simpa using cut_led (hchars '?' (by decide)) none
    rw [hhash, hmark]
  have hpieces : pieces ("/pictures/category".toList ++ '/' :: name.toList) =
      ["pictures".toList, "category".toList, name.toList] := by
    rw [pieces_append, pieces_of_notMem hne (hchars '/' (by decide))]
    rfl
  have hdots : removeDotSegments ("/pictures/category".toList ++ '/' :: name.toList) =
      "/pictures/category".toList ++ '/' :: name.toList := by
    rw [removeDotSegments_eq_self_iff (by intro c hc; exact (Option.some.inj hc).symm)]
    intro segment hsegment hdot
    rw [List.splitOn_append_cons_self, List.splitOn_eq_singleton (hchars '/' (by decide)),
      List.mem_append, List.mem_singleton] at hsegment
    rcases hsegment with hfront | rfl
    · exact (by decide : NoDots "/pictures/category".toList) segment hfront hdot
    · refine hchars '.' (by decide) ?_
      rcases hdot with hdot | hdot <;> simp [hdot]
  have hrequest : pieces (requestPath page (category_link name)) =
      ["pictures".toList, "category".toList, encode pathEscapes name.toList] := by
    rw [requestPath_category_link, hcleaned, map_slash (hchars '\\' (by decide)), hcut, hdots,
      pieces_encode (by decide), hpieces]
    rfl
  have hvalue : isValue (encode pathEscapes name.toList) := by
    rw [isValue, Bool.and_eq_true, encode_isEmpty, List.all_eq_true]
    refine ⟨by simpa using hne, fun c hc => decide_eq_true fun hmem => ?_⟩
    have hplain : ∀ c ∈ ['/', '.', '?'], (c ≠ '%' ∧ Text.Json.hexValue c = none) ∧
        c ∈ ['/', '\\', '.', '?', '#', '\t', '\n', '\r'] := forall_mem_of_all (by decide)
    exact notMem_encode (hplain c hmem).1 (hchars c (hplain c hmem).2) hc
  rw [follow, select_of_pieces hrequest hvalue, decode_encode pathEscapes_encodes,
    decode_eq_utf8 h.escape]

/-! ### Categories with one name -/

variable {categories : Table Category} {c : Row Category}

/-- A picture in one category and in no other. -/
def oneIn (categories : Table Category) (c : Row Category) : Database :=
  { Database.empty with
    categories := categories
    pictures := Table.empty.insert ⟨"Sea", "sea.jpg", 0, 0⟩
    picture_categories := Table.empty.insert ⟨1, c.id⟩ }

/-- What a category with the same name lists is what the category has only if it is the
same one. -/
theorem eq_of_pictures {r : Row Category} (hr : r ∈ categories.rows) (hc : c ∈ categories.rows)
    (h : (Category.pictures (oneIn categories c) (some r)).rows.Perm
      (Category.pictures (oneIn categories c) (some c)).rows) : r = c := by
  refine Table.eq_of_id_eq hr hc ?_
  by_contra hne
  have hnone : (Category.pictures (oneIn categories c) (some r)).rows = [] := by
    simp [Category.pictures, oneIn, Ne.symm hne]
  have hone : (Category.pictures (oneIn categories c) (some c)).rows ≠ [] := by
    simp [Category.pictures, oneIn, Table.find?, Table.empty]
  rw [hnone] at h
  exact hone h.nil_eq.symm

theorem select_rows (collation : Collation) (db : Database) (found : Option (Row Category)) :
    (PicturesController.select collation db found ⟨none, none⟩).rows =
      (Category.pictures db found).rows := rfl

/-- The link that the menu shows for a category works exactly if the name is plain and no
other category has it. -/
theorem menu_link_iff (page : Reference) (hcategories : ∀ r ∈ categories.rows, ¬ blank? r.val.name)
    (hc : c ∈ categories.rows) :
    LinkWorks page categories c ↔
      PlainName c.val.name.toList ∧ ∀ r ∈ categories.rows, r.val.name = c.val.name → r = c := by
  constructor
  · rintro ⟨params, hfollow, hcategory, hpage, hlists⟩
    refine ⟨plain_of_follow hfollow hcategory hpage, fun r hr hname => ?_⟩
    have hfinds : Category.FindsByName categories (utf8 c.val.name.toList) (some r) :=
      ⟨hr, by rw [hname]⟩
    have hperm := hlists (oneIn categories c) rfl (some r) hfinds .any
    exact eq_of_pictures hr hc hperm
  · rintro ⟨hplain, hunique⟩
    have hne : c.val.name.toList ≠ [] := by
      intro hnil
      exact hcategories c hc (by simp [blank?, hnil])
    refine ⟨_, follow_of_plain page hne hplain, List.lookup_cons_self, rfl, ?_⟩
    intro db _ found hfound collation
    cases found with
    | none => exact absurd rfl (hfound c hc)
    | some r =>
      obtain ⟨hr, hname⟩ := hfound
      have hsame : r.val.name = c.val.name := String.toList_inj.mp (utf8_injective hname)
      rw [hunique r hr hsame, select_rows]

/-! ### Concrete links -/

/-- The front page. -/
def frontPage : Reference := ⟨some "http".toList, some "localhost".toList, ['/'], none, none⟩

/-- A category of towns. -/
theorem menu_link_towns : LinkWorks frontPage (Table.empty.insert ⟨"Towns"⟩) ⟨1, ⟨"Towns"⟩⟩ :=
  (menu_link_iff frontPage (by decide) (by decide)).mpr
    ⟨⟨forall_mem_of_all (by decide), by rintro _ ⟨⟩; decide, by decide⟩, by decide⟩

/-- What follows a dot is taken for a format, what follows a slash for a page, and an
escape is read. -/
theorem dotted_name_cut_off :
    (¬ ∀ page categories c, (∀ r ∈ categories.rows, ¬ blank? r.val.name) →
        c ∈ categories.rows → LinkWorks page categories c) ∧
      follow frontPage (category_link "St. Gallen") =
        some (.select, [("category", utf8 "St".toList), ("format", utf8 " Gallen".toList)]) ∧
      follow frontPage (category_link "Sea/Beach") =
        some (.select, [("category", utf8 "Sea".toList), ("page", utf8 "Beach".toList)]) ∧
      follow frontPage (category_link "50%25") =
        some (.select, [("category", utf8 "50%".toList)]) := by
  have hdotted : follow frontPage (category_link "St. Gallen") =
      some (.select, [("category", utf8 "St".toList), ("format", utf8 " Gallen".toList)]) := by
    decide
  refine ⟨fun h => ?_, hdotted, by decide, by decide⟩
  obtain ⟨params, hfollow, hcategory, -, -⟩ :=
    h frontPage (Table.empty.insert ⟨"St. Gallen"⟩) ⟨1, ⟨"St. Gallen"⟩⟩ (by decide) (by decide)
  obtain ⟨-, rfl⟩ := Prod.mk.inj (Option.some.inj (hdotted.symm.trans hfollow))
  exact absurd hcategory (by decide)

end Gallery
