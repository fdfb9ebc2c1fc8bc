import Gallery.Theorems.ParserList

/-!
# The addresses on the parser page

The view puts scheme and host of the page in front of a source that does not begin with
`htt`. That is how a reference resolves whose path is rooted, on a page without a port;
what begins with `htt` resolves to itself if it has a scheme of small letters and an
authority. No other address is that of the image.

## Main definitions

* `resolution` — what a reference on the page leads to
* `Direct` — the references whose address is right

## Main results

* `address_resolves_iff` — the addresses that are the resolution
-/

namespace Gallery

open Text Text.Uri

/-- What a reference on the page leads to. -/
def resolution (page : PageUrl) (s : List Char) : List Char :=
  (page.reference.resolve (parse s)).recompose

/-- A reference with a rooted path alone, or, on a page without one, with no path at all. -/
structure FromRoot (page : PageUrl) (r : Reference) : Prop where
  scheme : r.scheme = none
  authority : r.authority = none
  path : r.path.head? = some '/' ∨
    r.path = [] ∧ page.path = [] ∧ (r.query.isSome ∨ page.query = none)

/-- What begins with `htt` is a URL for Rails; other references start from the root of a
page that names no port. -/
def Direct (page : PageUrl) (s : List Char) : Prop :=
  if matches_http s then is_uri s = true else page.port = none ∧ FromRoot page (parse s)

variable {paths : AssetPaths} {page : PageUrl} {s : List Char}

theorem WebScheme.name_plain (w : WebScheme) :
    w.name ≠ [] ∧ ∀ c ∈ w.name, c ∉ [':', '/', '?', '#'] := by
  cases w <;> exact ⟨by decide, forall_mem_of_all (by decide)⟩

theorem WebScheme.name_http (w : WebScheme) : "htt".toList <+: w.name := by
  cases w <;> decide

theorem isSchemeChar_plain {c : Char} (h : isSchemeChar c) : c ∉ [':', '/', '?', '#'] := by
  intro hc
  simp only [List.mem_cons, List.not_mem_nil, or_false] at hc
  rcases hc with rfl | rfl | rfl | rfl <;> revert h <;> decide

theorem PageUrl.url_eq (page : PageUrl) :
    page.url = page.scheme.name ++ ':' :: '/' :: '/' :: page.host := by
  simp [PageUrl.url]

/-- The resolution has a scheme: that of the reference, or else that of the page. -/
theorem exists_resolution (page : PageUrl) (s : List Char) :
    ∃ x rest, resolution page s = x ++ ':' :: rest ∧ x ≠ [] ∧ '/' ∉ x ∧ ':' ∉ x ∧
      ∀ y ∈ (parse s).scheme, y = x := by
  have hscheme : ∃ x, (page.reference.resolve (parse s)).scheme = some x ∧ x ≠ [] ∧ '/' ∉ x ∧
      ':' ∉ x ∧ ∀ y ∈ (parse s).scheme, y = x := by
    cases hx : (parse s).scheme with
    | some x =>
      obtain ⟨hne, hslash, hcolon⟩ := scheme_plain hx
      refine ⟨x, ?_, hne, hslash, hcolon, fun y hy => (Option.some.inj hy).symm⟩
      rw [Reference.resolve_of_scheme (by simp [hx])]
      exact hx
    | none =>
      obtain ⟨hne, hplain⟩ := page.scheme.name_plain
      refine ⟨page.scheme.name, ?_, hne, fun h => hplain _ h (by decide),
        fun h => hplain _ h (by decide), by simp⟩
      simp only [Reference.resolve, hx, Option.isSome_none, Bool.false_eq_true, if_false]
      split_ifs <;> rfl
  obtain ⟨x, hx, hplain⟩ := hscheme
  obtain ⟨rest, hrest⟩ := Reference.recompose_of_scheme hx
  exact ⟨x, rest, hrest, hplain⟩

/-! ### Sources that begin with `htt` -/

/-- A URL resolves to itself, without its dot segments. -/
theorem resolution_of_uri (page : PageUrl) (hline : '\n' ∉ s) (hhttp : matches_http s)
    (huri : is_uri s) :
    (s = resolution page s ↔ NoDots (parse s).path) ∧
      ∀ here : Reference, here.resolve (parse s) = page.reference.resolve (parse s) := by
  rw [matches_http, matchesLine_of_notMem hline, List.isPrefixOf_iff_prefix] at hhttp
  obtain ⟨x, rest, hs, hx, hchars⟩ := exists_scheme hline hhttp huri
  obtain ⟨hscheme, hauthority⟩ :=
    parse_absolute hx (fun c hc => isSchemeChar_plain (hchars c hc)) rest
  rw [← hs] at hscheme hauthority
  obtain ⟨a, ha⟩ := Option.isSome_iff_exists.mp hauthority
  have hresolve : ∀ base : Reference, base.resolve (parse s) =
      { parse s with path := removeDotSegments (parse s).path } := fun base =>
    Reference.resolve_of_scheme (by simp [hscheme])
  refine ⟨?_, fun here => by rw [hresolve, hresolve]⟩
  rw [resolution, hresolve, ← removeDotSegments_eq_self_iff (rooted_of_authority ha).2, eq_comm,
    eq_comm (a := removeDotSegments _), ← Reference.recompose_eq_iff, recompose_parse]
  exact eq_comm

/-- What begins with `htt` and is no URL becomes a path of the gallery. -/
theorem address_of_not_uri (hline : '\n' ∉ s) (hhttp : matches_http s) (huri : ¬ is_uri s) :
    ImageBox.address paths page s ≠ .ok (resolution page s) := by
  intro h
  rw [ImageBox.address, if_pos hhttp] at h
  have hrooted := paths.site s _ huri hline h
  obtain ⟨x, rest, hx, hne, hslash, -, -⟩ := exists_resolution page s
  obtain ⟨c, x, rfl⟩ := List.exists_cons_of_ne_nil hne
  rw [hx] at hrooted
  obtain rfl : c = '/' := Option.some.inj hrooted
  exact hslash List.mem_cons_self

/-! ### Other sources -/

/-- A reference with a scheme of its own, which does not begin with `htt`. -/
theorem address_of_scheme (hhttp : ¬ "htt".toList <+: s) (hscheme : (parse s).scheme.isSome) :
    page.url ++ s ≠ resolution page s := by
  intro h
  obtain ⟨y, hy⟩ := Option.isSome_iff_exists.mp hscheme
  obtain ⟨x, rest, hx, -, -, hcolon, hyx⟩ := exists_resolution page s
  obtain ⟨-, hplain⟩ := page.scheme.name_plain
  -- up to the first colon, the two are the schemes of the page and of the reference
  have hcut := congrArg (fun t => (cut ':' t).1) (h.trans hx)
  have hleft : cut ':' (page.url ++ s) =
      (page.scheme.name, some ('/' :: '/' :: page.host ++ s)) := by
    rw [page.url_eq, List.append_assoc]
    exact cut_led (fun hc => hplain _ hc (by decide)) (some _)
  have hright : cut ':' (x ++ ':' :: rest) = (x, some rest) := cut_led hcolon (some rest)
  simp only [hleft, hright] at hcut
  obtain ⟨tail, htail⟩ := Reference.recompose_of_scheme hy
  rw [recompose_parse, hyx y hy, ← hcut] at htail
  rw [htail] at hhttp
  exact hhttp (page.scheme.name_http.trans (List.prefix_append _ _))

/-- A reference with an authority of its own. -/
theorem address_of_authority (hscheme : (parse s).scheme = none)
    (hauthority : (parse s).authority.isSome) : page.url ++ s ≠ resolution page s := by
  intro h
  obtain ⟨a, ha⟩ := Option.isSome_iff_exists.mp hauthority
  have hshorter := length_removeDotSegments_le (rooted_of_authority ha).2
  have hresolution : resolution page s = page.scheme.name ++ ':' :: '/' :: '/' :: (a ++
      removeDotSegments (parse s).path ++ led ['?'] (parse s).query ++
        led ['#'] (parse s).fragment) := by
    simp [resolution, Reference.resolve, hscheme, ha, Reference.recompose, PageUrl.reference]
  have hs : s = '/' :: '/' :: (a ++ (parse s).path ++ led ['?'] (parse s).query ++
      led ['#'] (parse s).fragment) := by
    conv_lhs => rw [← recompose_parse s]
    simp [Reference.recompose, hscheme, ha]
  have hlength := congrArg List.length h
  rw [hresolution] at hlength
  have hlengths := congrArg List.length hs
  simp only [page.url_eq, List.length_append, List.length_cons] at hlength hlengths
  omega

/-- A reference that has neither: the page's URL and the resolution differ in what follows
the host. -/
theorem address_eq_iff (hscheme : (parse s).scheme = none)
    (hauthority : (parse s).authority = none) :
    page.url ++ s = resolution page s ↔
      (parse s).path ++ led ['?'] (parse s).query = led [':'] page.port ++
        (page.reference.resolve (parse s)).path ++
          led ['?'] (page.reference.resolve (parse s)).query := by
  have hs : s = (parse s).path ++ led ['?'] (parse s).query ++ led ['#'] (parse s).fragment := by
    conv_lhs => rw [← recompose_parse s]
    simp [Reference.recompose, hscheme, hauthority]
  have hresolution : resolution page s = page.url ++ (led [':'] page.port ++
      (page.reference.resolve (parse s)).path ++
        led ['?'] (page.reference.resolve (parse s)).query) ++ led ['#'] (parse s).fragment := by
    have hfields : (page.reference.resolve (parse s)).scheme = some page.scheme.name ∧
        (page.reference.resolve (parse s)).authority = some (page.host ++ led [':'] page.port) ∧
        (page.reference.resolve (parse s)).fragment = (parse s).fragment := by
      simp only [Reference.resolve, hscheme, hauthority, Option.isSome_none, Bool.false_eq_true,
        if_false]
      split_ifs <;> exact ⟨rfl, rfl, rfl⟩
    obtain ⟨hscheme', hauthority', hfragment'⟩ := hfields
    rw [resolution, Reference.recompose, hscheme', hauthority', hfragment', page.url_eq]
    simp only [schemePart_some, led_some, List.append_assoc, List.cons_append, List.nil_append]
  have hurl : page.url ++ s = page.url ++
      ((parse s).path ++ led ['?'] (parse s).query) ++ led ['#'] (parse s).fragment := by
    conv_lhs => rw [hs]
    simp only [List.append_assoc]
  rw [hresolution, hurl, List.append_cancel_right_eq, List.append_cancel_left_eq]

/-- A rooted reference. -/
theorem address_of_rooted (hscheme : (parse s).scheme = none)
    (hauthority : (parse s).authority = none) (hpath : (parse s).path.head? = some '/') :
    page.url ++ s = resolution page s ↔ page.port = none ∧ NoDots (parse s).path := by
  have hrooted : ∀ c ∈ (parse s).path.head?, c = '/' := by
    rw [hpath]
    exact fun c hc => (Option.some.inj hc).symm
  rw [address_eq_iff hscheme hauthority, Reference.resolve_of_rooted _ hscheme hauthority hpath,
    ← removeDotSegments_eq_self_iff hrooted, List.append_cancel_right_eq]
  cases hport : page.port with
  | none => simp [eq_comm]
  | some port =>
    -- the port would have to begin with a slash
    refine iff_of_false (fun h => ?_) (by simp)
    rw [h] at hpath
    simp at hpath

/-- A reference without a path. -/
theorem address_of_empty (hscheme : (parse s).scheme = none)
    (hauthority : (parse s).authority = none) (hpath : (parse s).path = []) :
    page.url ++ s = resolution page s ↔
      page.port = none ∧ page.path = [] ∧ ((parse s).query.isSome ∨ page.query = none) := by
  have hresolve : page.reference.resolve (parse s) =
      { page.reference with
        query := (parse s).query.or page.query
        fragment := (parse s).fragment } := by
    simp [Reference.resolve, hscheme, hauthority, hpath, PageUrl.reference]
  rw [address_eq_iff hscheme hauthority, hresolve, hpath, List.nil_append]
  have hport : page.port = none ↔ led [':'] page.port = [] := by
    cases page.port <;> simp
  rw [hport]
  constructor
  · intro h
    have hlength := congrArg List.length h
    simp only [List.length_append, PageUrl.reference] at hlength
    cases hquery : (parse s).query with
    | some q =>
      rw [hquery, Option.some_or] at hlength
      exact ⟨List.length_eq_zero_iff.mp (by omega), List.length_eq_zero_iff.mp (by omega),
        .inl rfl⟩
    | none =>
      rw [hquery, Option.none_or, led_none, List.length_nil] at hlength
      refine ⟨List.length_eq_zero_iff.mp (by omega), List.length_eq_zero_iff.mp (by omega),
        .inr ?_⟩
      cases hpage : page.query with
      | none => rfl
      | some q => simp [hpage] at hlength
  · rintro ⟨hport, hpage, hquery⟩
    rw [hport, PageUrl.reference]
    simp only [hpage, List.nil_append]
    rcases hquery with hquery | hquery
    · obtain ⟨q, hq⟩ := Option.isSome_iff_exists.mp hquery
      rw [hq, Option.some_or]
    · rw [hquery, Option.or_none]

/-- A reference to the directory of the page. -/
theorem address_of_relative (hvalid : (parse s).Valid) (hscheme : (parse s).scheme = none)
    (hauthority : (parse s).authority = none) (hne : (parse s).path ≠ [])
    (hpath : (parse s).path.head? ≠ some '/') : page.url ++ s ≠ resolution page s := by
  rw [Ne, address_eq_iff hscheme hauthority]
  obtain ⟨c, path, hcons⟩ := List.exists_cons_of_ne_nil hne
  have hresolve : (page.reference.resolve (parse s)).path =
      removeDotSegments (merge page.reference (parse s).path) := by
    simp [Reference.resolve, hscheme, hauthority, hne, hpath]
  have hbase : (merge page.reference (parse s).path).head? = some '/' :=
    head?_merge rfl page.path_rooted (parse s).path
  have hmerge := head?_removeDotSegments hbase
  obtain ⟨tail, htail⟩ := List.head?_eq_some_iff.mp hmerge
  rw [hresolve, htail, hcons]
  intro h
  cases hport : page.port with
  | none =>
    rw [hport] at h
    obtain rfl : c = '/' := (List.cons.inj h).1
    rw [hcons] at hpath
    exact hpath rfl
  | some port =>
    rw [hport] at h
    obtain rfl : c = ':' := (List.cons.inj h).1
    -- the first segment of such a path has no colon
    refine hvalid.noscheme hscheme hauthority ?_
    rw [hcons]
    exact List.mem_cons_self

/-- The address of a direct reference that is no URL: its text as a reference, and where
that leads from any base. -/
theorem parse_address (hscheme : (parse s).scheme = none) (hauthority : (parse s).authority = none)
    (hrooted : ∀ c ∈ (parse s).path.head?, c = '/') (here : Reference) :
    here.resolve (parse (page.url ++ s)) =
      ⟨some page.scheme.name, some page.host, removeDotSegments (parse s).path, (parse s).query,
        (parse s).fragment⟩ := by
  have hs : page.url ++ s = (Reference.mk (some page.scheme.name) (some page.host) (parse s).path
      (parse s).query (parse s).fragment).recompose := by
    conv_lhs => rw [← recompose_parse s]
    simp [Reference.recompose, hscheme, hauthority, page.url_eq]
  obtain ⟨hname, hplain⟩ := page.scheme.name_plain
  rw [hs, parse_recompose hname hplain page.host_plain (fun c hc => notMem_path hc) hrooted
    fun y hy => notMem_query hy]
  exact Reference.resolve_of_scheme rfl

/-- From any base it leads to the resolution. -/
theorem resolve_of_direct (here : Reference) (hport : page.port = none)
    (h : FromRoot page (parse s)) :
    here.resolve (parse (page.url ++ s)) = page.reference.resolve (parse s) := by
  obtain ⟨hscheme, hauthority, hpath⟩ := h
  have hrooted : ∀ c ∈ (parse s).path.head?, c = '/' := by
    intro c hc
    rcases hpath with hslash | ⟨hempty, -⟩
    · rw [hslash] at hc
      exact (Option.some.inj hc).symm
    · rw [hempty] at hc
      cases hc
  rw [parse_address hscheme hauthority hrooted]
  rcases hpath with hslash | ⟨hempty, hpage, hquery⟩
  · rw [Reference.resolve_of_rooted _ hscheme hauthority hslash]
    simp [PageUrl.reference, hport]
  · have hor : (parse s).query.or page.query = (parse s).query := by
      rcases hquery with hquery | hquery
      · obtain ⟨q, hq⟩ := Option.isSome_iff_exists.mp hquery
        rw [hq, Option.some_or]
      · rw [hquery, Option.or_none]
    simp [Reference.resolve, hscheme, hauthority, hempty, PageUrl.reference, hport, hpage, hor]

/-- For a reference that does not begin with `htt`, the five cases. -/
theorem address_of_not_http (hvalid : (parse s).Valid) (hhttp : ¬ "htt".toList <+: s) :
    page.url ++ s = resolution page s ↔
      (page.port = none ∧ FromRoot page (parse s)) ∧ NoDots (parse s).path := by
  have hfields : FromRoot page (parse s) ↔ (parse s).scheme = none ∧
      (parse s).authority = none ∧ ((parse s).path.head? = some '/' ∨
        (parse s).path = [] ∧ page.path = [] ∧ ((parse s).query.isSome ∨ page.query = none)) :=
    ⟨fun h => ⟨h.scheme, h.authority, h.path⟩, fun ⟨hs, ha, hp⟩ => ⟨hs, ha, hp⟩⟩
  rw [hfields]
  cases hscheme : (parse s).scheme with
  | some x => exact iff_of_false (address_of_scheme hhttp (by simp [hscheme])) (by simp)
  | none =>
  cases hauthority : (parse s).authority with
  | some a => exact iff_of_false (address_of_authority hscheme (by simp [hauthority])) (by simp)
  | none =>
  by_cases hempty : (parse s).path = []
  · rw [address_of_empty hscheme hauthority hempty, hempty]
    simp [noDots_nil]
  by_cases hslash : (parse s).path.head? = some '/'
  · rw [address_of_rooted hscheme hauthority hslash]
    simp [hslash]
  · exact iff_of_false (address_of_relative hvalid hscheme hauthority hempty hslash)
      (by simp [hempty, hslash])

/-! ### All sources -/

/-- For every valid reference, the address of its box is its resolution exactly if it is
direct and has no dot segments; and if it is direct, the address, resolved in its turn from
whatever page shows the box, leads where the reference does in any case. -/
theorem address_resolves_iff (paths : AssetPaths) (page : PageUrl) {s : List Char}
    (hvalid : (parse s).Valid) :
    (ImageBox.address paths page s = .ok (resolution page s) ↔
        Direct page s ∧ NoDots (parse s).path) ∧
      (Direct page s → ∃ src, ImageBox.address paths page s = .ok src ∧
        ∀ here : Reference, here.resolve (parse src) = page.reference.resolve (parse s)) := by
  have hline : '\n' ∉ s := recompose_parse s ▸ hvalid.notMem_newline
  by_cases hhttp : matches_http s
  · rw [Direct, if_pos hhttp]
    by_cases huri : is_uri s
    · have haddress : ImageBox.address paths page s = .ok s := by
        rw [ImageBox.address, if_pos hhttp, paths.uri s huri]
      obtain ⟨hiff, hcurrent⟩ := resolution_of_uri page hline hhttp huri
      rw [haddress, Except.ok.injEq, hiff]
      exact ⟨(and_iff_right huri).symm, fun _ => ⟨s, rfl, hcurrent⟩⟩
    · exact ⟨iff_of_false (address_of_not_uri hline hhttp huri) fun h => huri h.1,
        fun h => absurd h huri⟩
  · have haddress : ImageBox.address paths page s = .ok (page.url ++ s) := by
      rw [ImageBox.address, if_neg hhttp, paths.uri _ (is_uri_url page s)]
    rw [Direct, if_neg hhttp, haddress, Except.ok.injEq]
    rw [matches_http, matchesLine_of_notMem hline, List.isPrefixOf_iff_prefix] at hhttp
    exact ⟨address_of_not_http hvalid hhttp, fun ⟨hport, hroot⟩ =>
      ⟨_, rfl, fun here => resolve_of_direct here hport hroot⟩⟩

/-! ### Concrete addresses -/

/-- The page at `http://localhost:3000/gallery/index.html`. -/
def PageUrl.local : PageUrl where
  scheme := .http
  host := "localhost".toList
  port := some "3000".toList
  path := "/gallery/index.html".toList
  query := none
  fragment := none
  host_plain := forall_mem_of_all (by decide)
  path_rooted c hc := (Option.some.inj hc).symm

theorem valid_rooted : (parse "/a.png".toList).Valid where
  scheme := by decide
  authority := by decide
  path := by decide
  query := by decide
  fragment := by decide
  noscheme := by decide

/-- A rooted reference on a page without a port. -/
theorem address_resolves_rooted :
    ImageBox.address .development .sample "/a.png".toList =
        .ok (resolution .sample "/a.png".toList) ∧
      ∃ src, ImageBox.address .development .sample "/a.png".toList = .ok src ∧
        ∀ here : Reference, here.resolve (parse src) =
          PageUrl.sample.reference.resolve (parse "/a.png".toList) := by
  have hdirect : Direct .sample "/a.png".toList := by
    rw [Direct, if_neg (by decide)]
    exact ⟨rfl, by decide, by decide, .inl (by decide)⟩
  obtain ⟨haddress, hcurrent⟩ := address_resolves_iff .development .sample valid_rooted
  exact ⟨haddress.mpr ⟨hdirect, by decide⟩, hcurrent hdirect⟩

/-- The port of the page is lost, a relative path is glued to the host, and a reference
with a host of its own is taken for a path. -/
theorem address_loses_port :
    (¬ ∀ paths page s, (parse s).Valid → ',' ∉ s →
        ImageBox.address paths page s = .ok (resolution page s)) ∧
      ImageBox.address .development .local "/a.png".toList =
        .ok "http://localhost/a.png".toList ∧
      resolution .local "/a.png".toList = "http://localhost:3000/a.png".toList ∧
      ImageBox.address .development .local "a.png".toList =
        .ok "http://localhosta.png".toList ∧
      resolution .local "a.png".toList = "http://localhost:3000/gallery/a.png".toList ∧
      ImageBox.address .development .sample "//cdn.com/a.png".toList =
        .ok "http://example.com//cdn.com/a.png".toList ∧
      resolution .sample "//cdn.com/a.png".toList = "http://cdn.com/a.png".toList := by
  have hport : ImageBox.address .development .local "/a.png".toList =
      .ok "http://localhost/a.png".toList := rfl
  have hresolution : resolution .local "/a.png".toList =
      "http://localhost:3000/a.png".toList := by decide
  refine ⟨fun h => ?_, hport, hresolution, rfl, by decide, rfl, by decide⟩
  have hresolves := h .development .local "/a.png".toList valid_rooted (by decide)
  rw [hport, hresolution] at hresolves
  exact absurd (Except.ok.inj hresolves) (by decide)

end Gallery
