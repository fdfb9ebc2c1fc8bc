import Gallery.Text.Split

/-!
# References and their resolution

A URI reference in its components, how it is read and written, and how it is resolved
against a base: RFC 3986, sections 3 to 5 and appendix B. Texts are lists of characters.

## Main definitions

* `Reference`, `parse`, `Reference.recompose` — components, read and written
* `Reference.Valid` — the characters the grammar allows in each component
* `removeDotSegments` — the segments `.` and `..` taken out of a path
* `Reference.resolve` — a reference seen from a base

## Main results

* `recompose_parse`, `parse_recompose` — reading and writing are inverse
* `removeDotSegments_eq_self_iff`, `length_removeDotSegments_le` — rooted paths
* `Reference.Valid.notMem_newline` — a valid reference is one line
-/

namespace Text.Uri

/-! ### Components -/

structure Reference where
  scheme : Option (List Char)
  authority : Option (List Char)
  path : List Char
  query : Option (List Char)
  fragment : Option (List Char)
deriving DecidableEq, Repr

/-- A component with the delimiter in front of it, if it is there. -/
def led (delimiter : List Char) (component : Option (List Char)) : List Char :=
  component.elim [] fun x => delimiter ++ x

/-- A scheme with its colon, if it is there. -/
def schemePart (scheme : Option (List Char)) : List Char := scheme.elim [] fun x => x ++ [':']

/-- Section 5.3: the components put together. -/
def Reference.recompose (r : Reference) : List Char :=
  schemePart r.scheme ++ led ['/', '/'] r.authority ++ r.path ++ led ['?'] r.query ++
    led ['#'] r.fragment

/-- What stands before the first `c`, and what follows it. -/
def cut (c : Char) : List Char → List Char × Option (List Char)
  | [] => ([], none)
  | d :: s => if d = c then ([], some s) else (d :: (cut c s).1, (cut c s).2)

/-- The scheme, and what follows its colon. -/
def cutScheme (s : List Char) : Option (List Char) × List Char :=
  match cut ':' s with
  | (x, some rest) => if x ≠ [] ∧ '/' ∉ x then (some x, rest) else (none, s)
  | _ => (none, s)

/-- The authority behind two slashes, and the path. -/
def cutAuthority : List Char → Option (List Char) × List Char
  | '/' :: '/' :: rest => (some (rest.takeWhile (· ≠ '/')), rest.dropWhile (· ≠ '/'))
  | s => (none, s)

/-- Appendix B: the components of a text. -/
def parse (s : List Char) : Reference :=
  let (s, fragment) := cut '#' s
  let (s, query) := cut '?' s
  let (scheme, s) := cutScheme s
  let (authority, path) := cutAuthority s
  ⟨scheme, authority, path, query, fragment⟩

/-! ### The grammar -/

def isHexDigit (c : Char) : Bool :=
  c.isDigit || ('a' ≤ c && c ≤ 'f') || ('A' ≤ c && c ≤ 'F')

/-- `unreserved`, `sub-delims`, `:` and `@` -/
def isPchar (c : Char) : Bool :=
  c.isAlphanum || "-._~!$&'()*+,;=:@".toList.contains c

/-- The characters all satisfy `ok`, or stand in a percent-encoded octet. -/
def encoded (ok : Char → Bool) : List Char → Bool
  | [] => true
  | '%' :: a :: b :: rest => isHexDigit a && isHexDigit b && encoded ok rest
  | c :: rest => ok c && encoded ok rest

/-- `ALPHA *( ALPHA / DIGIT / "+" / "-" / "." )` -/
def validScheme (x : List Char) : Bool :=
  x.head?.any Char.isAlpha && x.all fun c => c.isAlphanum || "+-.".toList.contains c

/-- The grammar of `URI-reference`, as far as the characters of each component go: what
the authority consists of is not looked at. -/
structure Reference.Valid (r : Reference) : Prop where
  scheme : r.scheme.all validScheme
  authority : r.authority.all (encoded fun c => isPchar c || c = '[' || c = ']')
  path : encoded (fun c => isPchar c || c = '/') r.path
  query : r.query.all (encoded fun c => isPchar c || c = '/' || c = '?')
  fragment : r.fragment.all (encoded fun c => isPchar c || c = '/' || c = '?')
  /-- `path-noscheme` -/
  noscheme : r.scheme = none → r.authority = none → ':' ∉ r.path.takeWhile (· ≠ '/')

/-! ### Resolution -/

/-- Section 5.2.4 behind the first segment. Each segment of the input has a slash in
front, and so have those of the output, apart perhaps from the first. -/
def removeDots (output : List (List Char)) : List (List Char) → List (List Char)
  | [] => output
  | [segment] =>
    if segment = ['.'] then output ++ [['/']]
    else if segment = ['.', '.'] then output.dropLast ++ [['/']]
    else output ++ ['/' :: segment]
  | segment :: input =>
    if segment = ['.'] then removeDots output input
    else if segment = ['.', '.'] then removeDots output.dropLast input
    else removeDots (output ++ ['/' :: segment]) input

/-- Section 5.2.4 on the segments of a path: dots in front of it, then the rest. -/
def removeLeadingDots : List (List Char) → List (List Char)
  | [] => []
  | first :: input =>
    if first = ['.'] ∨ first = ['.', '.'] then removeLeadingDots input
    else if first = [] then removeDots [] input
    else removeDots [first] input

/-- Section 5.2.4. -/
def removeDotSegments (path : List Char) : List Char :=
  (removeLeadingDots (path.splitOn '/')).flatten

example : removeDotSegments "/a/b/c/./../../g".toList = "/a/g".toList ∧
    removeDotSegments "mid/content=5/../6".toList = "mid/6".toList := by decide

/-- Section 5.2.3: the path in place of the last segment of the base. -/
def merge (base : Reference) (path : List Char) : List Char :=
  if base.authority.isSome ∧ base.path = [] then '/' :: path
  else base.path.rdropWhile (· ≠ '/') ++ path

/-- Section 5.2.2, the strict algorithm. -/
def Reference.resolve (base r : Reference) : Reference :=
  if r.scheme.isSome then { r with path := removeDotSegments r.path }
  else if r.authority.isSome then
    { r with scheme := base.scheme, path := removeDotSegments r.path }
  else if r.path = [] then
    { base with query := r.query.or base.query, fragment := r.fragment }
  else
    { base with
      path := removeDotSegments (if r.path.head? = some '/' then r.path else merge base r.path)
      query := r.query
      fragment := r.fragment }

/-! ### Reading and writing -/

@[simp] theorem led_none (delimiter : List Char) : led delimiter none = [] := rfl

@[simp] theorem led_some (delimiter x : List Char) :
    led delimiter (some x) = delimiter ++ x := rfl

@[simp] theorem schemePart_none : schemePart none = [] := rfl

@[simp] theorem schemePart_some (x : List Char) : schemePart (some x) = x ++ [':'] := rfl

theorem cut_append (c : Char) (s : List Char) : (cut c s).1 ++ led [c] (cut c s).2 = s := by
  induction s with
  | nil => rfl
  | cons d s ih =>
    rw [cut]
    split_ifs with hd
    · rw [hd]
      rfl
    · exact congrArg (List.cons d) ih

theorem cut_led {c : Char} {x : List Char} (h : c ∉ x) (y : Option (List Char)) :
    cut c (x ++ led [c] y) = (x, y) := by
  induction x with
  | nil => cases y <;> simp [cut]
  | cons d x ih =>
    rw [List.mem_cons, not_or] at h
    rw [List.cons_append, cut, if_neg (Ne.symm h.1), ih h.2]

theorem cut_append_of_notMem {c : Char} {x : List Char} (h : c ∉ x) (s : List Char) :
    cut c (x ++ s) = (x ++ (cut c s).1, (cut c s).2) := by
  induction x with
  | nil => rfl
  | cons d x ih =>
    rw [List.mem_cons, not_or] at h
    rw [List.cons_append, cut, if_neg (Ne.symm h.1), ih h.2]
    rfl

theorem notMem_cut (c : Char) (s : List Char) : c ∉ (cut c s).1 := by
  induction s with
  | nil => exact List.not_mem_nil
  | cons d s ih =>
    rw [cut]
    split_ifs with hd
    · exact List.not_mem_nil
    · exact List.not_mem_cons_of_ne_of_not_mem (Ne.symm hd) ih

theorem cut_sublist (c : Char) (s : List Char) : (cut c s).1.Sublist s := by
  conv_rhs => rw [← cut_append c s]
  exact List.sublist_append_left _ _

theorem mem_of_mem_cut {c d : Char} {s : List Char} (h : d ∈ (cut c s).1) : d ∈ s :=
  (cut_sublist c s).subset h

theorem cutScheme_append (s : List Char) : schemePart (cutScheme s).1 ++ (cutScheme s).2 = s := by
  have hs := cut_append ':' s
  unfold cutScheme
  split
  · next x rest hcut =>
    rw [hcut] at hs
    split_ifs
    · simpa using hs
    · rfl
  · rfl

theorem cutAuthority_append (s : List Char) :
    led ['/', '/'] (cutAuthority s).1 ++ (cutAuthority s).2 = s := by
  unfold cutAuthority
  split
  · simp [List.takeWhile_append_dropWhile]
  · rfl

/-- Writing what was read gives the text back. -/
theorem recompose_parse (s : List Char) : (parse s).recompose = s := by
  calc (parse s).recompose
      = (schemePart (cutScheme (cut '?' (cut '#' s).1).1).1 ++
          (led ['/', '/'] (cutAuthority (cutScheme (cut '?' (cut '#' s).1).1).2).1 ++
            (cutAuthority (cutScheme (cut '?' (cut '#' s).1).1).2).2)) ++
          led ['?'] (cut '?' (cut '#' s).1).2 ++ led ['#'] (cut '#' s).2 := by
        simp only [parse, Reference.recompose, List.append_assoc]
    _ = (cut '?' (cut '#' s).1).1 ++ led ['?'] (cut '?' (cut '#' s).1).2 ++
          led ['#'] (cut '#' s).2 := by rw [cutAuthority_append, cutScheme_append]
    _ = s := by rw [cut_append, cut_append]

theorem cutScheme_colon {x : List Char} (hx : x ≠ []) (hcolon : ':' ∉ x) (hslash : '/' ∉ x)
    (rest : List Char) : cutScheme (x ++ ':' :: rest) = (some x, rest) := by
  have hcut : cut ':' (x ++ ':' :: rest) = (x, some rest) := cut_led hcolon (some rest)
  simp [cutScheme, hcut, hx, hslash]

/-- Without a scheme in front there is none to be read. -/
theorem cutScheme_slash (rest : List Char) : cutScheme ('/' :: rest) = (none, '/' :: rest) := by
  have hcut : cut ':' ('/' :: rest) = ('/' :: (cut ':' rest).1, (cut ':' rest).2) := by
    rw [cut, if_neg (by decide)]
  unfold cutScheme
  split
  · next x rest' h =>
    obtain rfl : '/' :: (cut ':' rest).1 = x := congrArg Prod.fst (hcut.symm.trans h)
    simp
  · rfl

theorem cutAuthority_slashes {a p : List Char} (ha : '/' ∉ a) (hp : ∀ c ∈ p.head?, c = '/') :
    cutAuthority ('/' :: '/' :: (a ++ p)) = (some a, p) := by
  have hall : ∀ c ∈ a, decide (c ≠ '/') = true := fun c hc =>
    decide_eq_true fun h => ha (h ▸ hc)
  -- the path is empty, or its slash ends the authority
  have htake : p.takeWhile (fun c => decide (c ≠ '/')) = [] := by
    cases p with
    | nil => rfl
    | cons c p => simp [hp c rfl]
  have hdrop : p.dropWhile (fun c => decide (c ≠ '/')) = p := by
    cases p with
    | nil => rfl
    | cons c p => simp [hp c rfl]
  rw [cutAuthority, List.takeWhile_append_of_pos hall, List.dropWhile_append_of_pos hall, htake,
    hdrop, List.append_nil]

/-- Reading back a reference that has a scheme and an authority. -/
theorem parse_recompose {x a p : List Char} {q f : Option (List Char)} (hx : x ≠ [])
    (hscheme : ∀ c ∈ x, c ∉ [':', '/', '?', '#']) (ha : ∀ c ∈ a, c ∉ ['/', '?', '#'])
    (hp : ∀ c ∈ p, c ∉ ['?', '#']) (hrooted : ∀ c ∈ p.head?, c = '/')
    (hq : ∀ y ∈ q, '#' ∉ y) :
    parse (Reference.mk (some x) (some a) p q f).recompose = ⟨some x, some a, p, q, f⟩ := by
  have hbody : ∀ c ∈ x ++ ':' :: '/' :: '/' :: (a ++ p), c ∉ ['?', '#'] := by
    intro c hc
    simp only [List.mem_append, List.mem_cons] at hc
    rcases hc with hc | rfl | rfl | rfl | hc | hc
    · exact fun h => hscheme c hc (by simp_all)
    · decide
    · decide
    · decide
    · exact fun h => ha c hc (by simp_all)
    · exact hp c hc
  have hhash : '#' ∉ x ++ ':' :: '/' :: '/' :: (a ++ p) ++ led ['?'] q := by
    rw [List.mem_append, not_or]
    refine ⟨fun h => hbody _ h (by decide), ?_⟩
    cases q with
    | none => exact List.not_mem_nil
    | some y => simpa using hq y rfl
  have hmark : '?' ∉ x ++ ':' :: '/' :: '/' :: (a ++ p) := fun h => hbody _ h (by decide)
  have htext : (Reference.mk (some x) (some a) p q f).recompose =
      x ++ ':' :: '/' :: '/' :: (a ++ p) ++ led ['?'] q ++ led ['#'] f := by
    simp [Reference.recompose]
  rw [htext, parse, cut_led hhash f]
  dsimp only
  rw [cut_led hmark q]
  dsimp only
  rw [cutScheme_colon hx (fun h => hscheme _ h (by decide)) (fun h => hscheme _ h (by decide))]
  dsimp only
  rw [cutAuthority_slashes (fun h => ha _ h (by decide)) hrooted]

/-! ### What was read -/

variable {s : List Char} {c : Char}

theorem mem_of_mem_cutScheme (h : c ∈ (cutScheme s).2) : c ∈ s := by
  rw [← cutScheme_append s]
  exact List.mem_append_right _ h

theorem mem_of_mem_cutAuthority (h : c ∈ (cutAuthority s).2) : c ∈ s := by
  rw [← cutAuthority_append s]
  exact List.mem_append_right _ h

theorem notMem_cut_cut (h : c ∈ (cut '?' (cut '#' s).1).1) : c ∉ ['?', '#'] := by
  intro hc
  rcases List.mem_pair.mp hc with rfl | rfl
  · exact notMem_cut _ _ h
  · exact notMem_cut _ _ (mem_of_mem_cut h)

/-- A path ends before the first `?` or `#`. -/
theorem notMem_path (h : c ∈ (parse s).path) : c ∉ ['?', '#'] :=
  notMem_cut_cut (mem_of_mem_cutScheme (mem_of_mem_cutAuthority h))

theorem notMem_query {y : List Char} (h : y ∈ (parse s).query) : '#' ∉ y := by
  intro hy
  refine notMem_cut '#' s ?_
  rw [← cut_append '?' (cut '#' s).1, show (cut '?' (cut '#' s).1).2 = some y from h]
  simp [hy]

/-- Behind an authority the path is rooted or empty. -/
theorem rooted_of_authority {a : List Char} (h : a ∈ (parse s).authority) :
    '/' ∉ a ∧ ∀ c ∈ (parse s).path.head?, c = '/' := by
  have hcut : ∀ t : List Char, a ∈ (cutAuthority t).1 →
      '/' ∉ a ∧ ∀ c ∈ (cutAuthority t).2.head?, c = '/' := by
    intro t ha
    unfold cutAuthority at ha ⊢
    split at ha
    · next rest =>
      obtain rfl := Option.some.inj ha
      refine ⟨fun hslash => by simpa using List.mem_takeWhile_imp hslash, fun c hc => ?_⟩
      dsimp only at hc
      have hne : rest.dropWhile (· ≠ '/') ≠ [] := by
        intro hnil
        rw [hnil] at hc
        cases hc
      have hhead := List.head_dropWhile_not (· ≠ '/') hne
      rw [List.head?_eq_some_head hne] at hc
      obtain rfl := Option.some.inj hc
      simpa using hhead
    · cases ha
  exact hcut _ h

/-- A scheme is not empty and ends before the first colon or slash. -/
theorem scheme_plain {x : List Char} (h : x ∈ (parse s).scheme) : x ≠ [] ∧ '/' ∉ x ∧ ':' ∉ x := by
  have hcut : ∀ t : List Char, x ∈ (cutScheme t).1 → x ≠ [] ∧ '/' ∉ x ∧ ':' ∉ x := by
    intro t hx
    have hcolon := notMem_cut ':' t
    unfold cutScheme at hx
    split at hx
    · next y rest hy =>
      split_ifs at hx with hplain
      · obtain rfl := Option.some.inj hx
        rw [hy] at hcolon
        exact ⟨hplain.1, hplain.2, hcolon⟩
      · cases hx
    · cases hx
  exact hcut _ h

/-- A text that begins with a scheme and two slashes. -/
theorem parse_absolute {x : List Char} (hx : x ≠ [])
    (hplain : ∀ c ∈ x, c ∉ [':', '/', '?', '#']) (rest : List Char) :
    (parse (x ++ ':' :: '/' :: '/' :: rest)).scheme = some x ∧
      (parse (x ++ ':' :: '/' :: '/' :: rest)).authority.isSome := by
  have hfront : ∀ c ∈ x ++ [':', '/', '/'], c ∉ ['?', '#'] := by
    intro c hc
    rcases List.mem_append.mp hc with hc | hc
    · exact fun h => hplain c hc (by simp_all)
    · exact forall_mem_of_all (P := (· ∉ ['?', '#'])) (by decide) c hc
  have hcut : ∀ c ∈ ['?', '#'], ∀ t : List Char,
      (cut c (x ++ ':' :: '/' :: '/' :: t)).1 = x ++ ':' :: '/' :: '/' :: (cut c t).1 := by
    intro c hc t
    have happend := cut_append_of_notMem (fun h => hfront c h hc) t
    simpa using congrArg Prod.fst happend
  simp only [parse, hcut '#' (by decide), hcut '?' (by decide),
    cutScheme_colon hx (fun h => hplain _ h (by decide)) (fun h => hplain _ h (by decide)),
    true_and]
  rfl

/-- A text that begins with a slash which is not one of two. -/
theorem parse_rooted {front : List Char} {d : Char} (hd : d ≠ '/')
    (hplain : ∀ c ∈ '/' :: d :: front, c ∉ ['?', '#']) (s : List Char) :
    (parse ('/' :: d :: front ++ s)).scheme = none ∧
      (parse ('/' :: d :: front ++ s)).authority = none ∧
      (parse ('/' :: d :: front ++ s)).path =
        '/' :: d :: front ++ (cut '?' (cut '#' s).1).1 := by
  have hcut : ∀ c ∈ ['?', '#'], ∀ t : List Char,
      (cut c ('/' :: d :: front ++ t)).1 = '/' :: d :: front ++ (cut c t).1 := by
    intro c hc t
    rw [cut_append_of_notMem fun h => hplain c h hc]
  have hauthority : ∀ t : List Char, cutAuthority ('/' :: d :: t) = (none, '/' :: d :: t) := by
    intro t
    unfold cutAuthority
    split
    · next rest heq => exact absurd (List.cons.inj (List.cons.inj heq).2).1 hd
    · rfl
  simp only [parse, hcut '#' (by decide), hcut '?' (by decide)]
  simp only [List.cons_append, cutScheme_slash, hauthority, and_self]

/-! ### Dot segments -/

/-- A segment that resolution takes out. -/
def IsDot (segment : List Char) : Prop := segment = ['.'] ∨ segment = ['.', '.']

instance (segment : List Char) : Decidable (IsDot segment) :=
  inferInstanceAs (Decidable (_ ∨ _))

/-- No segment of the path is one of those. -/
def NoDots (path : List Char) : Prop := ∀ segment ∈ path.splitOn '/', ¬ IsDot segment

instance (path : List Char) : Decidable (NoDots path) :=
  inferInstanceAs (Decidable (∀ segment ∈ path.splitOn '/', ¬ IsDot segment))

/-- Segments with their slashes. -/
def slashed (segments : List (List Char)) : List (List Char) := segments.map ('/' :: ·)

variable {output input : List (List Char)}

/-- The three things the algorithm does with a segment that another one follows, and with
the last one. -/
theorem removeDots_cons (segment : List Char) (input : List (List Char)) :
    removeDots output (segment :: input) =
      if segment = ['.'] then
        if input = [] then output ++ [['/']] else removeDots output input
      else if segment = ['.', '.'] then
        if input = [] then output.dropLast ++ [['/']] else removeDots output.dropLast input
      else removeDots (output ++ ['/' :: segment]) input := by
  cases input with
  | nil => simp [removeDots]
  | cons next input => simp [removeDots]

/-- Other segments go through. -/
theorem removeDots_of_noDots (h : ∀ segment ∈ input, ¬ IsDot segment) :
    removeDots output input = output ++ slashed input := by
  induction input generalizing output with
  | nil => simp [removeDots, slashed]
  | cons segment input ih =>
    rw [List.forall_mem_cons, IsDot, not_or] at h
    rw [removeDots_cons, if_neg h.1.1, if_neg h.1.2, ih h.2]
    simp [slashed]

/-- How many characters the segments have together. -/
def size (segments : List (List Char)) : ℕ := segments.flatten.length

@[simp] theorem size_nil : size [] = 0 := rfl

@[simp] theorem size_cons (x : List Char) (xs : List (List Char)) :
    size (x :: xs) = x.length + size xs := by simp [size]

@[simp] theorem size_append (xs ys : List (List Char)) : size (xs ++ ys) = size xs + size ys := by
  simp [size]

@[simp] theorem slashed_nil : slashed [] = [] := rfl

@[simp] theorem slashed_cons (x : List Char) (xs : List (List Char)) :
    slashed (x :: xs) = ('/' :: x) :: slashed xs := rfl

theorem size_dropLast_le (xs : List (List Char)) : size xs.dropLast ≤ size xs := by
  induction xs using List.reverseRecOn with
  | nil => rfl
  | append_singleton xs x _ =>
    rw [List.dropLast_concat, size_append]
    exact Nat.le_add_right _ _

/-- A dot segment shortens the path. -/
theorem size_removeDots (output input : List (List Char)) :
    size (removeDots output input) ≤ size output + size (slashed input) ∧
      ((∃ segment ∈ input, IsDot segment) →
        size (removeDots output input) < size output + size (slashed input)) := by
  induction input generalizing output with
  | nil => simp [removeDots]
  | cons segment input ih =>
    have hdrop := size_dropLast_le output
    rw [removeDots_cons]
    split_ifs with hdot hlast hdots hlast
    · subst hdot hlast
      simp
    · have hrest := (ih output).1
      subst hdot
      simp only [slashed_cons, size_cons, List.length_cons]
      exact ⟨by omega, fun _ => by omega⟩
    · subst hdots hlast
      simp only [slashed_cons, slashed_nil, size_append, size_cons, size_nil, List.length_cons,
        List.length_nil]
      exact ⟨by omega, fun _ => by omega⟩
    · have hrest := (ih output.dropLast).1
      subst hdots
      simp only [slashed_cons, size_cons, List.length_cons]
      exact ⟨by omega, fun _ => by omega⟩
    · obtain ⟨hle, hlt⟩ := ih (output ++ ['/' :: segment])
      simp only [slashed_cons, size_append, size_cons, size_nil] at hle hlt ⊢
      refine ⟨by omega, ?_⟩
      rintro ⟨t, ht, htdot⟩
      rcases List.mem_cons.mp ht with rfl | ht
      · exact absurd htdot (not_or.mpr ⟨hdot, hdots⟩)
      · have := hlt ⟨t, ht, htdot⟩
        omega

/-- The output never ends empty, and its segments have their slashes. -/
theorem removeDots_slashed (houtput : ∀ x ∈ output, x.head? = some '/') (hinput : input ≠ []) :
    removeDots output input ≠ [] ∧ ∀ x ∈ removeDots output input, x.head? = some '/' := by
  induction input generalizing output with
  | nil => exact absurd rfl hinput
  | cons segment input ih =>
    have hdrop : ∀ x ∈ output.dropLast, x.head? = some '/' := fun x hx =>
      houtput x ((List.dropLast_sublist output).subset hx)
    have hsnoc : ∀ {output : List (List Char)} {y : List Char},
        (∀ x ∈ output, x.head? = some '/') → y.head? = some '/' →
          ∀ x ∈ output ++ [y], x.head? = some '/' := by
      intro output y houtput hy x hx
      rcases List.mem_append.mp hx with hx | hx
      · exact houtput x hx
      · rwa [List.mem_singleton.mp hx]
    rw [removeDots_cons]
    split_ifs with hdot hlast hdots hlast
    · exact ⟨by simp, hsnoc houtput rfl⟩
    · exact ih houtput hlast
    · exact ⟨by simp, hsnoc hdrop rfl⟩
    · exact ih hdrop hlast
    · cases input with
      | nil => exact ⟨by simp [removeDots], by simpa [removeDots] using hsnoc houtput rfl⟩
      | cons next input => exact ih (hsnoc houtput rfl) (List.cons_ne_nil _ _)

variable {path : List Char}

theorem flatten_slashed {segments : List (List Char)} (h : segments ≠ []) :
    (slashed segments).flatten = '/' :: ['/'].intercalate segments := by
  induction segments with
  | nil => exact absurd rfl h
  | cons x segments ih =>
    cases segments with
    | nil => simp
    | cons y segments => simp_all [List.intercalate_cons_cons]

/-- The segments of a rooted path. -/
theorem exists_segments (h : path.head? = some '/') :
    ∃ segments, segments ≠ [] ∧ path.splitOn '/' = [] :: segments ∧
      path = (slashed segments).flatten ∧
      removeDotSegments path = (removeDots [] segments).flatten := by
  obtain ⟨rest, rfl⟩ := List.head?_eq_some_iff.mp h
  have hsplit : ('/' :: rest).splitOn '/' = [] :: rest.splitOn '/' :=
    List.splitOn_append_cons_self [] rest
  refine ⟨rest.splitOn '/', List.splitOn_ne_nil '/' rest, hsplit, ?_, ?_⟩
  · rw [flatten_slashed (List.splitOn_ne_nil '/' rest), List.intercalate_splitOn]
  · rw [removeDotSegments, hsplit, removeLeadingDots, if_neg (by decide), if_pos rfl]

@[simp] theorem removeDotSegments_nil : removeDotSegments [] = [] := by decide

theorem noDots_nil : NoDots [] := by decide

/-- A rooted path stays rooted. -/
theorem head?_removeDotSegments (h : path.head? = some '/') :
    (removeDotSegments path).head? = some '/' := by
  obtain ⟨segments, hne, -, -, hremove⟩ := exists_segments h
  obtain ⟨houtput, hslashed⟩ := removeDots_slashed (List.forall_mem_nil _) hne
  obtain ⟨x, xs, hx⟩ := List.exists_cons_of_ne_nil houtput
  have hhead : x.head? = some '/' := hslashed x (by rw [hx]; exact List.mem_cons_self)
  obtain ⟨y, rfl⟩ := List.head?_eq_some_iff.mp hhead
  rw [hremove, hx]
  rfl

/-- A rooted path without dot segments is left alone, and any other gets shorter. -/
theorem removeDotSegments_cases (h : path.head? = some '/') :
    (NoDots path ∧ removeDotSegments path = path) ∨
      (¬ NoDots path ∧ (removeDotSegments path).length < path.length) := by
  obtain ⟨segments, -, hsplit, hpath, hremove⟩ := exists_segments h
  have hdots : NoDots path ↔ ∀ segment ∈ segments, ¬ IsDot segment := by
    rw [NoDots, hsplit, List.forall_mem_cons]
    exact and_iff_right (by decide)
  by_cases hnone : ∀ segment ∈ segments, ¬ IsDot segment
  · refine .inl ⟨hdots.mpr hnone, ?_⟩
    rw [hremove, removeDots_of_noDots hnone, List.nil_append]
    exact hpath.symm
  · refine .inr ⟨mt hdots.mp hnone, ?_⟩
    have hshorter := (size_removeDots [] segments).2 (by simpa using hnone)
    rw [size_nil, Nat.zero_add] at hshorter
    calc (removeDotSegments path).length
        = size (removeDots [] segments) := by rw [hremove, size]
      _ < size (slashed segments) := hshorter
      _ = path.length := (congrArg List.length hpath).symm

/-- The same for a path that may be empty. -/
theorem removeDotSegments_eq_self_iff (h : ∀ c ∈ path.head?, c = '/') :
    removeDotSegments path = path ↔ NoDots path := by
  cases path with
  | nil => exact iff_of_true removeDotSegments_nil noDots_nil
  | cons c path =>
    have hhead : (c :: path).head? = some '/' := congrArg some (h c rfl)
    rcases removeDotSegments_cases hhead with ⟨hdots, heq⟩ | ⟨hdots, hlt⟩
    · exact iff_of_true heq hdots
    · exact iff_of_false (fun heq => absurd (congrArg List.length heq) hlt.ne) hdots

theorem length_removeDotSegments_le (h : ∀ c ∈ path.head?, c = '/') :
    (removeDotSegments path).length ≤ path.length := by
  cases path with
  | nil => exact le_rfl
  | cons c path =>
    have hhead : (c :: path).head? = some '/' := congrArg some (h c rfl)
    rcases removeDotSegments_cases hhead with ⟨-, heq⟩ | ⟨-, hlt⟩
    · exact (congrArg List.length heq).le
    · exact hlt.le

/-! ### Bases and valid references -/

/-- A reference with a scheme is the same from every base. -/
theorem Reference.resolve_of_scheme {base r : Reference} (h : r.scheme.isSome) :
    base.resolve r = { r with path := removeDotSegments r.path } := if_pos h

/-- A rooted reference keeps its path, from every base. -/
theorem Reference.resolve_of_rooted (base : Reference) {r : Reference} (hscheme : r.scheme = none)
    (hauthority : r.authority = none) (hpath : r.path.head? = some '/') :
    base.resolve r =
      { base with path := removeDotSegments r.path, query := r.query, fragment := r.fragment } := by
  have hne : r.path ≠ [] := by
    intro hnil
    rw [hnil] at hpath
    cases hpath
  simp [Reference.resolve, hscheme, hauthority, hne, hpath]

theorem Reference.recompose_of_scheme {r : Reference} {x : List Char} (h : r.scheme = some x) :
    ∃ rest, r.recompose = x ++ ':' :: rest := by
  refine ⟨led ['/', '/'] r.authority ++ r.path ++ led ['?'] r.query ++ led ['#'] r.fragment, ?_⟩
  simp [Reference.recompose, h]

/-- Two references that differ in their paths only. -/
theorem Reference.recompose_eq_iff (r : Reference) (path : List Char) :
    r.recompose = { r with path := path }.recompose ↔ r.path = path := by
  simp [Reference.recompose]

/-- A path seen from a base whose path is rooted or empty is rooted. -/
theorem head?_merge {base : Reference} (hauthority : base.authority.isSome)
    (hpath : ∀ c ∈ base.path.head?, c = '/') (path : List Char) :
    (merge base path).head? = some '/' := by
  unfold merge
  split_ifs with hempty
  · rfl
  · have hne : base.path ≠ [] := fun h => hempty ⟨hauthority, h⟩
    obtain ⟨d, rest, hbase⟩ := List.exists_cons_of_ne_nil hne
    obtain rfl : d = '/' := hpath d (by rw [hbase]; rfl)
    -- the first slash is not dropped, so there is a last one
    have hdir : base.path.rdropWhile (fun c => decide (c ≠ '/')) ≠ [] := by
      intro hnil
      have hall := List.rdropWhile_eq_nil_iff.mp hnil '/' (by rw [hbase]; exact List.mem_cons_self)
      simp at hall
    have hprefix := List.rdropWhile_prefix (fun c => decide (c ≠ '/')) base.path
    obtain ⟨e, dir, hdir⟩ := List.exists_cons_of_ne_nil hdir
    rw [hdir, hbase] at hprefix
    obtain ⟨rfl, -⟩ := List.cons_prefix_cons.mp hprefix
    rw [hdir]
    rfl

/-- What may stand in an encoded component. -/
theorem mem_encoded {ok : Char → Bool} {x : List Char} (h : encoded ok x) (hc : c ∈ x) :
    ok c ∨ c = '%' ∨ isHexDigit c := by
  fun_induction encoded ok x with
  | case1 => cases hc
  | case2 a b rest ih =>
    simp only [Bool.and_eq_true] at h
    rcases List.mem_cons.mp hc with rfl | hc
    · exact .inr (.inl rfl)
    rcases List.mem_cons.mp hc with rfl | hc
    · exact .inr (.inr h.1.1)
    rcases List.mem_cons.mp hc with rfl | hc
    · exact .inr (.inr h.1.2)
    · exact ih h.2 hc
  | case3 d rest _ ih =>
    rw [Bool.and_eq_true] at h
    rcases List.mem_cons.mp hc with rfl | hc
    · exact .inl h.1
    · exact ih h.2 hc

theorem notMem_newline_encoded {ok : Char → Bool} {x : List Char} (h : encoded ok x)
    (hok : ok '\n' = false) : '\n' ∉ x := by
  intro hc
  rcases mem_encoded h hc with hc | hc | hc
  · rw [hok] at hc
    cases hc
  · exact absurd hc (by decide)
  · exact absurd hc (by decide)

/-- A valid reference is one line. -/
theorem Reference.Valid.notMem_newline {r : Reference} (h : r.Valid) : '\n' ∉ r.recompose := by
  have hled : ∀ {delimiter : List Char} {x : Option (List Char)} {ok : Char → Bool},
      '\n' ∉ delimiter → ok '\n' = false → x.all (encoded ok) → '\n' ∉ led delimiter x := by
    intro delimiter x ok hdelimiter hok hx
    cases x with
    | none => exact List.not_mem_nil
    | some x =>
      rw [led_some, List.mem_append, not_or]
      exact ⟨hdelimiter, notMem_newline_encoded hx hok⟩
  have hscheme : '\n' ∉ schemePart r.scheme := by
    cases hx : r.scheme with
    | none => exact List.not_mem_nil
    | some x =>
      have hvalid := h.scheme
      rw [hx, Option.all_some, validScheme, Bool.and_eq_true] at hvalid
      rw [schemePart_some, List.mem_append, not_or]
      exact ⟨fun hc => absurd (List.all_eq_true.mp hvalid.2 '\n' hc) (by decide), by decide⟩
  simp only [Reference.recompose, List.mem_append, not_or]
  exact ⟨⟨⟨⟨hscheme, hled (by decide) (by decide) h.authority⟩,
    notMem_newline_encoded h.path (by decide)⟩, hled (by decide) (by decide) h.query⟩,
    hled (by decide) (by decide) h.fragment⟩

end Text.Uri
