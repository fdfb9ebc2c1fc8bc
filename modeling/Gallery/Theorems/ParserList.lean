import Gallery.Pages.Parser
import Gallery.Pages.LastComments

/-!
# Which documents the parser page lists

The page offers one box for each image with a source as long as no image lacks its
`src`, no `src` holds a comma, and the empty ones come last.

## Main definitions

* `Offered` — the page offers the images of a document
* `Listable` — the documents of which it does

## Main results

* `parser_img` — what the controller hands to the view
* `parser_lists_iff` — the page offers the images exactly of these documents
-/

namespace Gallery

open Text

/-- The sources that are not empty, in document order. -/
def sources (srcs : List (Option (List Char))) : List (List Char) :=
  (srcs.filterMap id).filter fun src => !src.isEmpty

/-- The page completes, with one box for each image that has a source, in document order
and built from that source. -/
def Offered (paths : AssetPaths) (db : Database) (page : PageUrl)
    (srcs : List (Option (List Char))) : Prop :=
  ∃ boxes, Parser.index paths db page srcs = .ok boxes ∧ boxes.map ImageBox.img = sources srcs

/-- The documents in which every image has a `src`, none of them with a comma, the empty
ones come last, and what looks like a URL without being one is a compiled asset. -/
structure Listable (paths : AssetPaths) (srcs : List (Option (List Char))) : Prop where
  present : ∀ src ∈ srcs, src.isSome
  comma : ∀ src, some src ∈ srcs → ',' ∉ src
  empty : srcs.Pairwise fun src src' => src = some [] → src' = some []
  compiled : ∀ src, some src ∈ srcs → matches_http src → ¬ is_uri src →
    ∃ path, paths.image_path src = .ok path

variable {paths : AssetPaths} {db : Database} {page : PageUrl}

/-! ### The controller -/

/-- The sources, when none is missing. -/
theorem exists_parts {srcs : List (Option (List Char))} (h : ∀ src ∈ srcs, src.isSome) :
    ∃ parts, srcs = List.map some parts := by
  induction srcs with
  | nil => exact ⟨[], rfl⟩
  | cons src srcs ih =>
    rw [List.forall_mem_cons] at h
    obtain ⟨part, rfl⟩ := Option.isSome_iff_exists.mp h.1
    obtain ⟨parts, rfl⟩ := ih h.2
    exact ⟨part :: parts, rfl⟩

theorem foldlM_append (parts : List (List Char)) (img : List Char) :
    (parts.map some).foldlM Parser.append img = .ok (img ++ terminated ',' parts) := by
  induction parts generalizing img with
  | nil => simp [terminated, pure, Except.pure]
  | cons src parts ih =>
    rw [List.map_cons, List.foldlM_cons]
    simp [Parser.append, bind, Except.bind, ih, terminated]

theorem foldlM_append_none {srcs : List (Option (List Char))} (h : none ∈ srcs)
    (img img' : List Char) : srcs.foldlM Parser.append img ≠ .ok img' := by
  induction srcs generalizing img with
  | nil => cases h
  | cons src srcs ih =>
    rw [List.foldlM_cons]
    cases src with
    | none => nofun
    | some src => exact ih (by simpa using h) _

/-- The controller hands the sources on with commas, unless one is missing. -/
theorem parser_img_eq_ok_iff {srcs : List (Option (List Char))} {img : List Char} :
    Parser.img srcs = .ok img ↔ ∃ parts, srcs = parts.map some ∧ img = terminated ',' parts := by
  constructor
  · intro h
    have hpresent : ∀ src ∈ srcs, src.isSome := by
      intro src hsrc
      cases src with
      | none => exact absurd h (foldlM_append_none hsrc [] img)
      | some src => rfl
    obtain ⟨parts, rfl⟩ := exists_parts hpresent
    rw [Parser.img, foldlM_append] at h
    exact ⟨parts, rfl, (Except.ok.inj h).symm⟩
  · rintro ⟨parts, rfl, rfl⟩
    exact foldlM_append parts []

/-! ### The view -/

/-- A box is built from its part, if the part has an address. -/
theorem build_ok_iff {categories : List String} {img : List Char} {box : ImageBox} :
    ImageBox.build paths page categories img = .ok box ↔
      ∃ src, ImageBox.address paths page img = .ok src ∧ box = ⟨img, src, categories⟩ := by
  unfold ImageBox.build
  cases ImageBox.address paths page img with
  | error e => simp [bind, Except.bind]
  | ok src => simp [bind, Except.bind, pure, Except.pure, eq_comm]

/-- Every part has an address, unless it looks like a URL and is none. -/
theorem address_ok_iff {img : List Char} :
    (∃ src, ImageBox.address paths page img = .ok src) ↔
      (matches_http img → ¬ is_uri img → ∃ path, paths.image_path img = .ok path) := by
  unfold ImageBox.address
  by_cases hhttp : matches_http img
  · by_cases huri : is_uri img
    · simp [hhttp, huri, paths.uri img huri]
    · simp [hhttp, huri]
  · simp [hhttp, paths.uri _ (is_uri_url page img)]

/-- The view offers a box for each part, in their order, exactly if all have addresses. -/
theorem build_all_iff {categories : List String} {parts imgs : List (List Char)} :
    (∃ boxes, parts.mapM (ImageBox.build paths page categories) = .ok boxes ∧
        boxes.map ImageBox.img = imgs) ↔
      parts = imgs ∧ ∀ img ∈ parts, ∃ src, ImageBox.address paths page img = .ok src := by
  constructor
  · rintro ⟨boxes, hboxes, rfl⟩
    refine ⟨?_, fun img himg => ?_⟩
    · rw [← List.forall₂_eq_eq_eq, List.forall₂_map_right_iff]
      refine (mapM_eq_ok_iff.mp hboxes).imp fun img box hbox => ?_
      obtain ⟨src, -, rfl⟩ := build_ok_iff.mp hbox
      rfl
    · obtain ⟨box, hbox⟩ := ok_of_mapM hboxes img himg
      obtain ⟨src, hsrc, -⟩ := build_ok_iff.mp hbox
      exact ⟨src, hsrc⟩
  · rintro ⟨rfl, haddress⟩
    obtain ⟨boxes, hboxes, himgs⟩ := mapM_ok_forall₂
      (f := ImageBox.build paths page categories) (R := fun img box => box.img = img)
      fun img (himg : img ∈ parts) => by
        obtain ⟨src, hsrc⟩ := haddress img himg
        exact ⟨_, build_ok_iff.mpr ⟨src, hsrc, rfl⟩, rfl⟩
    refine ⟨boxes, hboxes, ?_⟩
    rw [← List.forall₂_eq_eq_eq, List.forall₂_map_left_iff]
    exact himgs.flip

/-! ### Controller and view -/

theorem sources_map_some (parts : List (List Char)) :
    sources (parts.map some) = parts.filter fun src => !src.isEmpty := by
  simp [sources, List.filterMap_map]

/-- What the page offers of the sources that are there. -/
theorem offered_iff {parts : List (List Char)} :
    Offered paths db page (parts.map some) ↔
      split ',' (terminated ',' parts) = parts.filter (fun src => !src.isEmpty) ∧
        ∀ img ∈ split ',' (terminated ',' parts),
          ∃ src, ImageBox.address paths page img = .ok src := by
  rw [Offered, Parser.index, parser_img_eq_ok_iff.mpr ⟨parts, rfl, rfl⟩, sources_map_some]
  exact build_all_iff

/-- The conditions on a document, for the sources that are there. -/
theorem listable_iff {parts : List (List Char)} :
    Listable paths (parts.map some) ↔
      ((∀ src ∈ parts, ',' ∉ src) ∧ parts.Pairwise fun src src' => src = [] → src' = []) ∧
        ∀ src ∈ parts, matches_http src → ¬ is_uri src →
          ∃ path, paths.image_path src = .ok path := by
  constructor
  · intro h
    refine ⟨⟨fun src hsrc => h.comma src (List.mem_map_of_mem hsrc), ?_⟩,
      fun src hsrc => h.compiled src (List.mem_map_of_mem hsrc)⟩
    simpa [List.pairwise_map] using h.empty
  · rintro ⟨⟨hcomma, hempty⟩, hcompiled⟩
    exact
      { present := by simp
        comma := by simpa using hcomma
        empty := by simpa [List.pairwise_map] using hempty
        compiled := by simpa using hcompiled }

/-- The page offers the images of a document exactly if none lacks its source, no source
holds a comma, the empty ones come last, and what looks like a URL without being one is a
compiled asset. -/
theorem parser_lists_iff (paths : AssetPaths) (db : Database) (page : PageUrl)
    (srcs : List (Option (List Char))) :
    Offered paths db page srcs ↔ Listable paths srcs := by
  by_cases hpresent : ∀ src ∈ srcs, src.isSome
  · obtain ⟨parts, rfl⟩ := exists_parts hpresent
    rw [offered_iff, listable_iff, split_terminated_eq_filter_iff]
    refine and_congr_right fun hparts => ?_
    rw [split_terminated_eq_filter_iff.mpr hparts]
    constructor
    · intro haddress src hsrc hhttp
      -- an empty source does not look like a URL
      have hne : src ≠ [] := by
        rintro rfl
        cases hhttp
      exact address_ok_iff.mp (haddress src (by simp [hsrc, hne])) hhttp
    · intro hcompiled img himg
      exact address_ok_iff.mpr (hcompiled img (List.mem_of_mem_filter himg))
  · refine iff_of_false ?_ fun h => hpresent h.present
    rintro ⟨boxes, hboxes, -⟩
    refine hpresent ?_
    rw [Parser.index] at hboxes
    cases himg : Parser.img srcs with
    | error e =>
      rw [himg] at hboxes
      cases hboxes
    | ok img =>
      obtain ⟨parts, rfl, -⟩ := parser_img_eq_ok_iff.mp himg
      simp

/-! ### Concrete documents -/

/-- Outside production, an asset need not have been compiled. -/
def AssetPaths.development : AssetPaths where
  image_path source :=
    .ok (if is_uri source ∨ source.head? = some '/' then source else "/assets/".toList ++ source)
  uri source h := by simp [h]
  site source path h _ hpath := by
    obtain rfl := Except.ok.inj hpath
    split_ifs with hrooted
    · exact hrooted.resolve_left h
    · rfl

/-- The page at `http://example.com/`. -/
def PageUrl.sample : PageUrl where
  scheme := .http
  host := "example.com".toList
  port := none
  path := ['/']
  query := none
  fragment := none
  host_plain := forall_mem_of_all (by decide)
  path_rooted c hc := (Option.some.inj hc).symm

/-- An image whose address has a comma, as those of many image servers do, becomes two
boxes; and an image without a source makes the page raise. -/
theorem comma_splits_source :
    (¬ ∀ paths db page srcs, Offered paths db page srcs) ∧
      ¬ Offered .development .empty .sample [some "/w_100,h_100/a.png".toList] ∧
      ¬ Offered .development .empty .sample [some "/a.png".toList, none] := by
  have hcomma : ¬ Offered .development .empty .sample [some "/w_100,h_100/a.png".toList] := by
    intro h
    change Offered _ _ _ (["/w_100,h_100/a.png".toList].map some) at h
    exact absurd (offered_iff.mp h).1 (by decide)
  refine ⟨fun h => hcomma (h _ _ _ _), hcomma, ?_⟩
  rintro ⟨boxes, hboxes, -⟩
  have hraises : Parser.index .development .empty .sample [some "/a.png".toList, none] =
      .error .TypeError := rfl
  rw [hraises] at hboxes
  cases hboxes

end Gallery
