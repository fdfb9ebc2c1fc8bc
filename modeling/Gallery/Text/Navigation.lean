import Gallery.Text.Percent
import Gallery.Text.Uri

/-!
# Links and routes

A browser follows a link: it cleans its text, resolves it, and asks for the path with the
characters encoded that have no place in one. A router splits that path at its slashes and
compares the pieces with patterns, whose dynamic segments it reads back.

## Main definitions

* `clean`, `requestPath` — the text of a link, and the path a browser asks for
* `pieces` — what stands between the slashes of a path
* `Segment`, `Segment.matchLast`, `matchPath` — patterns with an optional format at the end
* `recognize` — the first pattern of a table that matches

## Main results

* `exists_of_recognize`, `matchPath_cons`, `matchPath_singleton` — what a path looks like
  that was recognized
* `pieces_removeDotSegments`, `pieces_encode` — the pieces of a path that a browser asks for
* `requestPath_rooted` — links of the site
-/

namespace Text.Navigation

open Uri Percent

/-! ### Browsers -/

/-- White space and control characters at the ends, tabs and line breaks everywhere. -/
def clean (href : List Char) : List Char :=
  ((href.dropWhile fun c => c ≤ ' ').rdropWhile fun c => c ≤ ' ').filter fun c =>
    c ∉ ['\t', '\n', '\r']

/-- A backslash is a slash. -/
def slash (c : Char) : Char := if c = '\\' then '/' else c

/-- The characters that a browser encodes in a path. Whether `^` is one of them depends on the
version; here it is. -/
def pathEscapes (c : Char) : Bool :=
  c ≤ ' ' || '~' < c || "\"#<>?^`\x7b\x7d".toList.contains c

/-- The path that is asked for when a link is followed. Browsers take a segment `%2e` for a dot
as well, which is left out here. -/
def requestPath (base : Reference) (href : List Char) : List Char :=
  encode pathEscapes (base.resolve (parse ((clean href).map slash))).path

/-! ### Routers -/

/-- What stands between the slashes of a path; slashes at its end or next to each other do
not count. -/
def pieces (path : List Char) : List (List Char) :=
  (path.splitOn '/').filter fun x => !x.isEmpty

/-- A part of a pattern: a name, or a parameter. -/
inductive Segment
  | static (name : List Char)
  | dynamic (key : String)
deriving DecidableEq, Repr

/-- Parameters read from a path, as the octets of their values. -/
abbrev Params := List (String × List UInt8)

/-- One or more characters other than `/`, `.` and `?`. -/
def isValue (x : List Char) : Bool := !x.isEmpty && x.all fun c => c ∉ ['/', '.', '?']

/-- A piece that other pieces follow. -/
def Segment.match : Segment → List Char → Option Params
  | static name, x => if x = name then some [] else none
  | dynamic key, x => if isValue x then some [(key, decode x)] else none

/-- The last piece, which may have a format behind it. -/
def Segment.matchLast (segment : Segment) (x : List Char) : Option Params :=
  match cut '.' x with
  | (x, none) => segment.match x
  | (x, some format) => do
    if isValue format then return (← segment.match x) ++ [("format", decode format)] else none

/-- The parameters of a path that matches a pattern. -/
def matchPath : List Segment → List (List Char) → Option Params
  | [], [] => some []
  | [segment], [x] => segment.matchLast x
  | segment :: pattern, x :: xs => do return (← segment.match x) ++ (← matchPath pattern xs)
  | _, _ => none

/-- The first route of a table that a path matches, with its parameters. -/
def recognize {α : Type*} (routes : List (List Segment × α)) (path : List Char) :
    Option (α × Params) :=
  routes.findSome? fun (pattern, action) =>
    (matchPath pattern (pieces path)).map fun params => (action, params)

/-! ### Patterns -/

section Patterns

variable {segment next : Segment} {pattern : List Segment} {xs : List (List Char)}
variable {x name : List Char} {key : String} {params : Params}

theorem match_static (h : (Segment.static name).match x = some params) :
    x = name ∧ params = [] := by
  rw [Segment.match] at h
  split_ifs at h with hx
  exact ⟨hx, (Option.some.inj h).symm⟩

theorem match_dynamic (h : (Segment.dynamic key).match x = some params) :
    params = [(key, decode x)] := by
  rw [Segment.match] at h
  split_ifs at h with hx
  exact (Option.some.inj h).symm

/-- The value of a parameter at the end stands before the first dot. -/
theorem matchLast_dynamic (h : (Segment.dynamic key).matchLast x = some params) :
    ∃ rest, params = (key, decode (cut '.' x).1) :: rest := by
  unfold Segment.matchLast at h
  split at h
  · next y hcut =>
    rw [hcut]
    exact ⟨[], match_dynamic h⟩
  · next y format hcut =>
    rw [hcut]
    split_ifs at h
    obtain ⟨p, hp, h⟩ := Option.bind_eq_some_iff.mp h
    obtain rfl := match_dynamic hp
    exact ⟨_, (Option.some.inj h).symm⟩

theorem matchPath_cons (h : matchPath (segment :: next :: pattern) xs = some params) :
    ∃ x rest p q, xs = x :: rest ∧ segment.match x = some p ∧
      matchPath (next :: pattern) rest = some q ∧ params = p ++ q := by
  cases xs with
  | nil => cases h
  | cons x rest =>
    obtain ⟨p, hp, h⟩ := Option.bind_eq_some_iff.mp h
    obtain ⟨q, hq, h⟩ := Option.bind_eq_some_iff.mp h
    exact ⟨x, rest, p, q, rfl, hp, hq, (Option.some.inj h).symm⟩

theorem matchPath_singleton (h : matchPath [segment] xs = some params) :
    ∃ x, xs = [x] ∧ segment.matchLast x = some params := by
  match xs with
  | [] => cases h
  | [x] => exact ⟨x, rfl, h⟩
  | x :: y :: rest =>
    obtain ⟨p, hp, h⟩ := Option.bind_eq_some_iff.mp h
    obtain ⟨q, hq, h⟩ := Option.bind_eq_some_iff.mp h
    cases hq

theorem exists_of_recognize {α : Type*} {routes : List (List Segment × α)} {action : α}
    {path : List Char} (h : recognize routes path = some (action, params)) :
    ∃ pattern, (pattern, action) ∈ routes ∧ matchPath pattern (pieces path) = some params := by
  obtain ⟨⟨pattern, action'⟩, hmem, h⟩ := List.exists_of_findSome?_eq_some h
  obtain ⟨params', hparams, heq⟩ := Option.map_eq_some_iff.mp h
  obtain ⟨rfl, rfl⟩ := Prod.mk.inj heq
  exact ⟨pattern, hmem, hparams⟩

end Patterns

/-! ### Paths and their pieces -/

variable {path x s t : List Char} {above input : List (List Char)}

/-- What removing dot segments leaves, apart from empty segments, has been there before. -/
theorem removeDots_slashed_eq (h : above ++ input ≠ []) : ∃ kept, kept ≠ [] ∧
    removeDots (slashed above) input = slashed kept ∧
    (kept.filter fun x => !x.isEmpty).Sublist ((above ++ input).filter fun x => !x.isEmpty) := by
  induction input generalizing above with
  | nil => exact ⟨above, by simpa using h, rfl, by simp⟩
  | cons segment input ih =>
    have hdropLast : (slashed above).dropLast = slashed above.dropLast :=
      (List.map_dropLast ..).symm
    have hempty : ∀ above : List (List Char),
        slashed above ++ [['/']] = slashed (above ++ [[]]) := fun above => by simp [slashed]
    have hlast : ∀ above : List (List Char), ((above ++ [[]]).filter fun x => !x.isEmpty) =
        above.filter fun x => !x.isEmpty := fun above => by simp
    rw [removeDots_cons]
    split_ifs with hdot hnil hdots hnil
    · refine ⟨above ++ [[]], by simp, hempty above, ?_⟩
      rw [hlast]
      exact (List.sublist_append_left _ _).filter _
    · obtain ⟨kept, hne, hkept, hsublist⟩ := @ih above (by simp [hnil])
      refine ⟨kept, hne, hkept, hsublist.trans ?_⟩
      exact ((List.Sublist.refl above).append (List.sublist_cons_self _ _)).filter _
    · refine ⟨above.dropLast ++ [[]], by simp, by rw [hdropLast, hempty], ?_⟩
      rw [hlast]
      exact ((List.dropLast_sublist _).trans (List.sublist_append_left _ _)).filter _
    · rw [hdropLast]
      obtain ⟨kept, hne, hkept, hsublist⟩ := @ih above.dropLast (by simp [hnil])
      refine ⟨kept, hne, hkept, hsublist.trans ?_⟩
      exact ((List.dropLast_sublist _).append (List.sublist_cons_self _ _)).filter _
    · have hsnoc : slashed above ++ ['/' :: segment] = slashed (above ++ [segment]) := by
        simp [slashed]
      rw [hsnoc]
      obtain ⟨kept, hne, hkept, hsublist⟩ := @ih (above ++ [segment]) (by simp)
      exact ⟨kept, hne, hkept, by simpa using hsublist⟩

/-- Removing dot segments removes pieces. -/
theorem pieces_removeDotSegments (h : path.head? = some '/') :
    (pieces (removeDotSegments path)).Sublist (pieces path) := by
  obtain ⟨segments, hne, hsplit, -, hremove⟩ := exists_segments h
  obtain ⟨kept, hkept, heq, hsublist⟩ := @removeDots_slashed_eq [] segments hne
  have hpieces : pieces path = segments.filter fun x => !x.isEmpty := by
    rw [pieces, hsplit]
    rfl
  have hplain : ∀ x ∈ kept, '/' ∉ x := by
    intro x hx hslash
    have hmem : x ∈ segments.filter fun x => !x.isEmpty :=
      hsublist.subset (List.mem_filter.mpr ⟨hx, by cases x <;> simp_all⟩)
    have hsegment : x ∈ path.splitOn '/' := by
      rw [hsplit]
      exact List.mem_cons_of_mem _ (List.mem_of_mem_filter hmem)
    exact notMem_of_mem_splitOn hsegment hslash
  have hkeptpieces : pieces (removeDotSegments path) = kept.filter fun x => !x.isEmpty := by
    have hslashes : ('/' :: ['/'].intercalate kept).splitOn '/' =
        [] :: (['/'].intercalate kept).splitOn '/' := List.splitOn_append_cons_self [] _
    rw [hremove, show removeDots [] segments = slashed kept from heq, flatten_slashed hkept,
      pieces, hslashes, List.splitOn_intercalate '/' hplain hkept]
    rfl
  rwa [hkeptpieces, hpieces]

/-- The pieces on both sides of a slash. -/
theorem pieces_append (s t : List Char) : pieces (s ++ '/' :: t) = pieces s ++ pieces t := by
  rw [pieces, List.splitOn_append_cons_self, List.filter_append]
  rfl

theorem pieces_of_notMem (hne : x ≠ []) (h : '/' ∉ x) : pieces x = [x] := by
  rw [pieces, List.splitOn_eq_singleton h]
  simp [hne]

theorem mem_pieces (h : x ∈ pieces path) : x.Sublist path ∧ '/' ∉ x :=
  ⟨sublist_of_mem_splitOn (List.mem_of_mem_filter h),
    notMem_of_mem_splitOn (List.mem_of_mem_filter h)⟩

/-! ### Encoded paths -/

section Encode

variable {escapes : Char → Bool}

theorem encode_intercalate (h : ¬ escapes '/') (kept : List (List Char)) :
    encode escapes (['/'].intercalate kept) = ['/'].intercalate (kept.map (encode escapes)) := by
  have hslash : encodeChar escapes '/' = ['/'] := if_neg h
  induction kept with
  | nil => rfl
  | cons x kept ih =>
    cases kept with
    | nil => simp
    | cons y kept =>
      rw [List.intercalate_cons_cons, List.map_cons, List.map_cons, List.intercalate_cons_cons,
        ← List.map_cons, ← ih, encode, List.flatMap_append, List.flatMap_append]
      simp [hslash, encode]

theorem notMem_encode {c : Char} (hc : c ≠ '%' ∧ Json.hexValue c = none) (h : c ∉ s) :
    c ∉ encode escapes s := by
  intro hmem
  rcases mem_encode hmem with hs | hpercent | hdigit
  · exact h hs
  · exact hc.1 hpercent
  · rw [hc.2] at hdigit
    cases hdigit

theorem encode_isEmpty (s : List Char) : (encode escapes s).isEmpty = s.isEmpty := by
  cases s with
  | nil => rfl
  | cons c s =>
    rw [encode_cons, encodeChar]
    split_ifs with hc
    · obtain ⟨rest, hrest⟩ := exists_escape hc
      rw [encodeChar, if_pos hc] at hrest
      rw [hrest]
      rfl
    · rfl

/-- An encoded path has the pieces encoded. -/
theorem pieces_encode (h : ¬ escapes '/') (path : List Char) :
    pieces (encode escapes path) = (pieces path).map (encode escapes) := by
  have hplain : ∀ x ∈ (path.splitOn '/').map (encode escapes), '/' ∉ x := by
    intro x hx
    obtain ⟨y, hy, rfl⟩ := List.mem_map.mp hx
    exact notMem_encode (by decide) (notMem_of_mem_splitOn hy)
  have hne : (path.splitOn '/').map (encode escapes) ≠ [] := by
    simp
  have hsplit : (encode escapes path).splitOn '/' = (path.splitOn '/').map (encode escapes) := by
    have hpath : ['/'].intercalate (path.splitOn '/') = path := List.intercalate_splitOn '/'
    conv_lhs => rw [← hpath, encode_intercalate h]
    exact List.splitOn_intercalate '/' hplain hne
  rw [pieces, hsplit, List.filter_map, pieces]
  congr 2
  funext x
  exact congrArg not (encode_isEmpty x)

/-- Nor does encoding move the first dot. -/
theorem cut_encode {c : Char} (hc : c ≠ '%' ∧ Json.hexValue c = none) (hescapes : ¬ escapes c)
    (s : List Char) : (cut c (encode escapes s)).1 = encode escapes (cut c s).1 := by
  induction s with
  | nil => rfl
  | cons d s ih =>
    rw [encode_cons, cut]
    by_cases hd : d = c
    · subst hd
      rw [encodeChar, if_neg hescapes, List.singleton_append, cut, if_pos rfl, if_pos rfl]
      rfl
    · have hnotMem : c ∉ encodeChar escapes d := by
        have hsingle : c ∉ encode escapes [d] := notMem_encode hc (by simpa using Ne.symm hd)
        rwa [encode_cons, encode, List.flatMap_nil, List.append_nil] at hsingle
      rw [cut_append_of_notMem hnotMem, if_neg hd, ih, encode_cons]

end Encode

/-! ### Followed links -/

section Links

variable {front : List Char} {c d : Char}

theorem rdropWhile_append {p : Char → Bool} (hp : ∀ c ∈ front, p c = false)
    (s : List Char) : (front ++ s).rdropWhile p = front ++ s.rdropWhile p := by
  induction s using List.reverseRecOn with
  | nil =>
    rw [List.append_nil, List.rdropWhile_nil, List.append_nil, List.rdropWhile_eq_self_iff]
    intro hne
    simp [hp _ (List.getLast_mem hne)]
  | append_singleton s c ih =>
    rw [← List.append_assoc, List.rdropWhile_concat, List.rdropWhile_concat, ih]
    split_ifs <;> simp

/-- What a browser leaves of what stands behind a clean text. -/
def cleanEnd (s : List Char) : List Char :=
  (s.rdropWhile fun c => c ≤ ' ').filter fun c => c ∉ ['\t', '\n', '\r']

theorem cleanEnd_sublist (s : List Char) : (cleanEnd s).Sublist s :=
  List.filter_sublist.trans (List.rdropWhile_prefix _ _).sublist

theorem cleanEnd_eq_self_iff : cleanEnd s = s ↔
    (∀ c ∈ s, c ∉ ['\t', '\n', '\r']) ∧ ∀ c ∈ s.getLast?, ¬ c ≤ ' ' := by
  have hlast : (s.rdropWhile fun c => c ≤ ' ') = s ↔ ∀ c ∈ s.getLast?, ¬ c ≤ ' ' := by
    rw [List.rdropWhile_eq_self_iff]
    cases hs : s.getLast? with
    | none => simp [List.getLast?_eq_none_iff.mp hs]
    | some c =>
      obtain ⟨front, rfl⟩ := List.getLast?_eq_some_iff.mp hs
      simp
  have hfilter : (s.filter fun c => c ∉ ['\t', '\n', '\r']) = s ↔
      ∀ c ∈ s, c ∉ ['\t', '\n', '\r'] := by
    simp only [List.filter_eq_self, decide_eq_true_eq]
  rw [← hlast, ← hfilter]
  constructor
  · intro h
    have hdrop : (s.rdropWhile fun c => c ≤ ' ') = s := by
      refine (List.rdropWhile_prefix _ _).sublist.antisymm ?_
      conv_lhs => rw [← h]
      exact List.filter_sublist
    rw [cleanEnd, hdrop] at h
    exact ⟨h, hdrop⟩
  · rintro ⟨hfilter, hdrop⟩
    rw [cleanEnd, hdrop, hfilter]

theorem clean_append (hne : front ≠ []) (hfront : ∀ c ∈ front, ¬ c ≤ ' ') (s : List Char) :
    clean (front ++ s) = front ++ cleanEnd s := by
  have hp : ∀ c ∈ front, decide (c ≤ ' ') = false := fun c hc => decide_eq_false (hfront c hc)
  have hfilter : front.filter (fun c => c ∉ ['\t', '\n', '\r']) = front := by
    rw [List.filter_eq_self]
    intro c hc
    refine decide_eq_true fun hmem => hfront c hc ?_
    exact forall_mem_of_all (P := (· ≤ ' ')) (by decide) c hmem
  obtain ⟨d, rest, rfl⟩ := List.exists_cons_of_ne_nil hne
  rw [clean, List.cons_append, List.dropWhile_cons_of_neg (by simp [hp d List.mem_cons_self]),
    ← List.cons_append, rdropWhile_append hp, List.filter_append, hfilter, cleanEnd]

theorem pathEscapes_encodes : Encodes pathEscapes := by
  intro c hc
  simp only [pathEscapes, Bool.or_eq_true, decide_eq_true_eq, List.contains_iff_mem] at hc
  rcases hc with (hlow | hhigh) | hmem
  · have hlt : ∀ d : Char, ' ' < d → ¬ d ≤ c := fun d hd h =>
      lt_irrefl _ (hd.trans_le (h.trans hlow))
    refine ⟨fun h => hlt '%' (by decide) h.ge, ?_⟩
    rw [Json.hexValue, if_neg fun h => hlt _ (by decide) h.1, if_neg fun h => hlt _ (by decide) h.1,
      if_neg fun h => hlt _ (by decide) h.1]
  · have hlt : ∀ d : Char, d ≤ '~' → ¬ c ≤ d := fun d hd h =>
      lt_irrefl _ (hhigh.trans_le (h.trans hd))
    refine ⟨fun h => hlt '%' (by decide) h.le, ?_⟩
    rw [Json.hexValue, if_neg fun h => hlt _ (by decide) h.2, if_neg fun h => hlt _ (by decide) h.2,
      if_neg fun h => hlt _ (by decide) h.2]
  · exact forall_mem_of_all (P := fun c => c ≠ '%' ∧ Json.hexValue c = none) (by decide) c hmem

theorem map_slash (h : '\\' ∉ s) : s.map slash = s := by
  conv_rhs => rw [← List.map_id s]
  apply List.map_congr_left
  intro c hc
  have hne : c ≠ '\\' := fun heq => h (heq ▸ hc)
  exact if_neg hne

/-- What holds no slash after that held neither before. -/
theorem sublist_of_map_slash (h : t.Sublist (s.map slash)) (hslash : '/' ∉ t) :
    t.Sublist s ∧ '\\' ∉ t := by
  obtain ⟨u, hu, rfl⟩ := List.sublist_map_iff.mp h
  have hback : '\\' ∉ u := fun hmem => hslash (List.mem_map.mpr ⟨'\\', hmem, by decide⟩)
  rw [map_slash hback]
  exact ⟨hu, hback⟩

/-- The path that is asked for when a link of the site is followed: what stands behind its
first part has been cleaned, cut off, freed of dot segments and encoded. -/
theorem requestPath_rooted (base : Reference) (hd : d ≠ '/')
    (hfront : ∀ c ∈ '/' :: d :: front, ¬ c ≤ ' ' ∧ c ∉ ['?', '#', '\\']) (s : List Char) :
    requestPath base ('/' :: d :: front ++ s) =
      encode pathEscapes (removeDotSegments ('/' :: d :: front ++
        (cut '?' (cut '#' ((cleanEnd s).map slash)).1).1)) := by
  have hslash : ('/' :: d :: front).map slash = '/' :: d :: front :=
    map_slash fun h => (hfront _ h).2 (by decide)
  have hplain : ∀ c ∈ '/' :: d :: front, c ∉ ['?', '#'] := by
    intro c hc hmem
    exact (hfront c hc).2 (List.mem_of_mem_take (i := 2) hmem)
  obtain ⟨hscheme, hauthority, hpath⟩ := parse_rooted hd hplain ((cleanEnd s).map slash)
  rw [requestPath, clean_append (List.cons_ne_nil _ _) fun c hc => (hfront c hc).1,
    List.map_append, hslash,
    Reference.resolve_of_rooted base hscheme hauthority (by rw [hpath]; rfl), hpath]

end Links

end Text.Navigation
