import Gallery.Model.World
import Gallery.Text.Uri

/-!
# The parser page

An admin names a page of the web, and the parser page offers the images of that page to
be stored. The controller writes the `src` of every image into one text with commas, the
view splits it and gives each part an address: the part itself if it seems to be a URL,
otherwise what stands in front of the path in the URL of the page, and the part.

Texts are lists of characters. What Rails does to find an asset is a parameter.

## Main definitions

* `PageUrl`, `PageUrl.url` — the URL of the page, and what the controller keeps of it
* `matches_http`, `is_uri` — the view's test, and the one of Rails' asset helpers
* `AssetPaths` — `image_path`
* `Parser.img`, `ImageBox.build`, `Parser.index` — controller and view
-/

namespace Gallery

open Text Text.Uri

/-- The URLs that are fetched as web pages; `ftp`, which `open` fetches too, is left out. -/
inductive WebScheme
  | http
  | https
deriving DecidableEq, Repr

def WebScheme.name : WebScheme → List Char
  | http => "http".toList
  | https => "https".toList

/-- The URL of a web page, as `URI.parse` takes it apart. It has no user information:
`open` does not fetch such a URL. -/
structure PageUrl where
  scheme : WebScheme
  host : List Char
  port : Option (List Char)
  path : List Char
  query : Option (List Char)
  fragment : Option (List Char)
  host_plain : ∀ c ∈ host, c ∉ ['/', '?', '#']
  path_rooted : ∀ c ∈ path.head?, c = '/'

/-- The URL as a base for references. -/
def PageUrl.reference (u : PageUrl) : Reference :=
  ⟨some u.scheme.name, some (u.host ++ led [':'] u.port), u.path, u.query, u.fragment⟩

/-- `url.scheme+"://"+url.host` -/
def PageUrl.url (u : PageUrl) : List Char := u.scheme.name ++ "://".toList ++ u.host

/-! ### Patterns -/

/-- The test succeeds right behind a line break. -/
def matchesBelow (test : List Char → Bool) : List Char → Bool
  | [] => false
  | c :: s => (c = '\n' && test s) || matchesBelow test s

/-- A pattern that begins with `^` matches where a line begins. -/
def matchesLine (test : List Char → Bool) (s : List Char) : Bool := test s || matchesBelow test s

/-- `img.match(/^http*/)`: the star is for the `p` alone. -/
def matches_http (img : List Char) : Bool := matchesLine "htt".toList.isPrefixOf img

/-- `[-a-z]` -/
def isSchemeChar (c : Char) : Bool := c = '-' || ('a' ≤ c && c ≤ 'z')

/-- `%r{^[-a-z]+://|^(?:cid|data):|^//}`, by which the asset helpers know a URL. -/
def is_uri (source : List Char) : Bool :=
  matchesLine (fun s =>
    (!(s.takeWhile isSchemeChar).isEmpty && "://".toList.isPrefixOf (s.dropWhile isSchemeChar)) ||
      "cid:".toList.isPrefixOf s || "data:".toList.isPrefixOf s || "//".toList.isPrefixOf s) source

/-- `image_path` of a gallery without an asset host: it leaves a URL alone and makes any
other source a path of the site, or raises when no such asset has been compiled. -/
structure AssetPaths where
  image_path : List Char → Except Failure (List Char)
  uri : ∀ source, is_uri source → image_path source = .ok source
  site : ∀ source path, ¬ is_uri source → '\n' ∉ source → image_path source = .ok path →
    path.head? = some '/'

/-! ### The page -/

/-- `@img << link['src']` and `@img << ','`: a missing `src` is `nil`, which cannot be
appended to a string. -/
def Parser.append (img : List Char) : Option (List Char) → Except Failure (List Char)
  | some src => .ok (img ++ src ++ [','])
  | none => .error .TypeError

/-- What `@img` becomes. -/
def Parser.img (srcs : List (Option (List Char))) : Except Failure (List Char) :=
  srcs.foldlM Parser.append []

/-- A box: the part it is built from, the address of its image, and its check boxes. -/
structure ImageBox where
  img : List Char
  src : List Char
  categories : List String
deriving DecidableEq, Repr

/-- The address the view gives to the image of a part. -/
def ImageBox.address (paths : AssetPaths) (page : PageUrl) (img : List Char) :
    Except Failure (List Char) :=
  paths.image_path (if matches_http img then img else page.url ++ img)

def ImageBox.build (paths : AssetPaths) (page : PageUrl) (categories : List String)
    (img : List Char) : Except Failure ImageBox := do
  let src ← ImageBox.address paths page img
  return ⟨img, src, categories⟩

/-- The page for a fetched document, given by the `src` of each of its images. -/
def Parser.index (paths : AssetPaths) (db : Database) (page : PageUrl)
    (srcs : List (Option (List Char))) : Except Failure (List ImageBox) := do
  let img ← Parser.img srcs
  (split ',' img).mapM (ImageBox.build paths page (db.categories.rows.map (·.val.name)))

/-! ### Patterns on one line -/

variable {test : List Char → Bool} {s : List Char}

theorem matchesBelow_of_notMem (h : '\n' ∉ s) : matchesBelow test s = false := by
  induction s with
  | nil => rfl
  | cons c s ih =>
    rw [List.mem_cons, not_or] at h
    rw [matchesBelow, ih h.2, Bool.or_false, Bool.and_eq_false_iff]
    exact .inl (decide_eq_false (Ne.symm h.1))

theorem matchesLine_of_notMem (h : '\n' ∉ s) : matchesLine test s = test s := by
  rw [matchesLine, matchesBelow_of_notMem h, Bool.or_false]

/-- What the controller keeps of a URL makes everything behind it a URL. -/
theorem is_uri_url (page : PageUrl) (s : List Char) : is_uri (page.url ++ s) := by
  rw [is_uri, matchesLine, PageUrl.url]
  cases page.scheme <;> rfl

/-- A URL that begins with `htt` has a scheme and an authority. -/
theorem exists_scheme (hline : '\n' ∉ s) (hhttp : "htt".toList <+: s) (huri : is_uri s) :
    ∃ x rest, s = x ++ ':' :: '/' :: '/' :: rest ∧ x ≠ [] ∧ ∀ c ∈ x, isSchemeChar c := by
  rw [is_uri, matchesLine_of_notMem hline] at huri
  -- the other patterns do not begin with an `h`
  have hothers : "cid:".toList.isPrefixOf s = false ∧ "data:".toList.isPrefixOf s = false ∧
      "//".toList.isPrefixOf s = false := by
    obtain ⟨t, rfl⟩ := hhttp
    exact ⟨rfl, rfl, rfl⟩
  simp only [hothers, Bool.or_false, Bool.and_eq_true, Bool.not_eq_true',
    List.isEmpty_eq_false_iff, List.isPrefixOf_iff_prefix] at huri
  obtain ⟨hne, rest, hrest⟩ := huri
  refine ⟨s.takeWhile isSchemeChar, rest, ?_, hne, fun c hc => List.mem_takeWhile_imp hc⟩
  calc s = s.takeWhile isSchemeChar ++ s.dropWhile isSchemeChar :=
        List.takeWhile_append_dropWhile.symm
    _ = s.takeWhile isSchemeChar ++ ':' :: '/' :: '/' :: rest := by rw [← hrest]; rfl

end Gallery
