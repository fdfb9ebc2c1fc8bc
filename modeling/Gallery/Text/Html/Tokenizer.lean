import Gallery.Text.Utf16
import Mathlib.Algebra.GroupWithZero.Nat
import Mathlib.Data.List.MinMax

/-!
# HTML as a stream of tokens

The tokenizer of the HTML standard on a list of code units, as far as it can be
said without the tree: characters, character references, tags and comments. A
tag or a comment is known by its raw text. What the tree builder makes a
tokenizer do inside `script`, `style` and the like is left out.

## Main definitions

* `References` — the table of named character references
* `step`, `tokens` — the tokenizer

## Main results

* `length_step_le` — a step leaves no more of the input than it was given
-/

namespace Text.Html

def isAlpha (u : ℕ) : Bool := (65 ≤ u && u ≤ 90) || (97 ≤ u && u ≤ 122)

def isDigit (u : ℕ) : Bool := 48 ≤ u && u ≤ 57

def isHexDigit (u : ℕ) : Bool := isDigit u || (65 ≤ u && u ≤ 70) || (97 ≤ u && u ≤ 102)

def isSpace (u : ℕ) : Bool := u = 0x09 || u = 0x0a || u = 0x0c || u = 0x0d || u = 0x20

/-- The units of a piece of source text. -/
def ascii (s : String) : List ℕ := utf16 s.toList

/-- Named character references: names without the `&`, with or without a `;`, and
what they stand for. -/
structure References where
  table : List (List ℕ × List ℕ)
  name_ne_nil : ∀ e ∈ table, e.1 ≠ []
  /-- Names have letters, digits and a semicolon at most. -/
  name_units : ∀ e ∈ table, ∀ u ∈ e.1, isAlpha u ∨ isDigit u ∨ u = 0x3b
  /-- No reference is shorter than what it stands for. -/
  value_le : ∀ e ∈ table, e.2.length ≤ e.1.length

inductive Token
  | char (u : ℕ)
  | tag (raw : List ℕ)
  | endTag (raw : List ℕ)
  | comment (raw : List ℕ)
deriving DecidableEq, Repr

/-! ### Tags -/

/-- Where in a tag the tokenizer stands. -/
inductive TagState
  | name
  | beforeAttr
  | attrName
  | afterAttr
  | beforeValue
  | doubleQuoted
  | singleQuoted
  | unquoted
  | afterQuoted
  | selfClosing
deriving DecidableEq, Repr

namespace TagState

/-- The state after one more unit; `none` closes the tag. -/
def next (u : ℕ) : TagState → Option TagState
  | name =>
    if isSpace u then some beforeAttr
    else if u = 0x2f then some selfClosing
    else if u = 0x3e then none
    else some name
  | beforeAttr =>
    if isSpace u then some beforeAttr
    else if u = 0x2f then some selfClosing
    else if u = 0x3e then none
    else some attrName
  | attrName =>
    if isSpace u then some afterAttr
    else if u = 0x2f then some selfClosing
    else if u = 0x3e then none
    else if u = 0x3d then some beforeValue
    else some attrName
  | afterAttr =>
    if isSpace u then some afterAttr
    else if u = 0x2f then some selfClosing
    else if u = 0x3e then none
    else if u = 0x3d then some beforeValue
    else some attrName
  | beforeValue =>
    if isSpace u then some beforeValue
    else if u = 0x22 then some doubleQuoted
    else if u = 0x27 then some singleQuoted
    else if u = 0x3e then none
    else some unquoted
  | doubleQuoted => if u = 0x22 then some afterQuoted else some doubleQuoted
  | singleQuoted => if u = 0x27 then some afterQuoted else some singleQuoted
  | unquoted =>
    if isSpace u then some beforeAttr
    else if u = 0x3e then none
    else some unquoted
  | afterQuoted =>
    if isSpace u then some beforeAttr
    else if u = 0x2f then some selfClosing
    else if u = 0x3e then none
    else some attrName
  | selfClosing =>
    if u = 0x3e then none
    else if isSpace u then some beforeAttr
    else if u = 0x2f then some selfClosing
    else some attrName

end TagState

/-- The rest of a tag up to its `>`, and what follows; `none` at the end of input. -/
def scanTag : TagState → List ℕ → Option (List ℕ × List ℕ)
  | _, [] => none
  | s, u :: us =>
    match s.next u with
    | none => some ([], us)
    | some s => (scanTag s us).map fun (raw, rest) => (u :: raw, rest)

/-! ### Comments -/

/-- A bogus comment ends at the first `>`. -/
def scanBogus : List ℕ → List ℕ × List ℕ
  | [] => ([], [])
  | u :: us => if u = 0x3e then ([u], us) else ((u :: (scanBogus us).1), (scanBogus us).2)

/-- A comment ends at the first `-->` or `--!>`. -/
def scanComment : List ℕ → List ℕ × List ℕ
  | 0x2d :: 0x2d :: 0x3e :: us => ([0x2d, 0x2d, 0x3e], us)
  | 0x2d :: 0x2d :: 0x21 :: 0x3e :: us => ([0x2d, 0x2d, 0x21, 0x3e], us)
  | u :: us => ((u :: (scanComment us).1), (scanComment us).2)
  | [] => ([], [])

/-- What follows `<!--`, `<!` or `<?`. -/
def markupDeclaration : List ℕ → List ℕ × List ℕ
  | 0x2d :: 0x2d :: 0x3e :: us => ([0x2d, 0x2d, 0x3e], us)
  | 0x2d :: 0x2d :: 0x2d :: 0x3e :: us => ([0x2d, 0x2d, 0x2d, 0x3e], us)
  | 0x2d :: 0x2d :: us => ((0x2d :: 0x2d :: (scanComment us).1), (scanComment us).2)
  | us => scanBogus us

/-! ### Character references -/

/-- What the standard puts for a number in a reference: windows-1252 for the C1
controls, U+FFFD for what is no character. -/
def referenced (n : ℕ) : List ℕ :=
  if n = 0 ∨ 0x10ffff < n ∨ (0xd800 ≤ n ∧ n ≤ 0xdfff) then [0xfffd]
  else match [(0x80, 0x20ac), (0x82, 0x201a), (0x83, 0x0192), (0x84, 0x201e), (0x85, 0x2026),
      (0x86, 0x2020), (0x87, 0x2021), (0x88, 0x02c6), (0x89, 0x2030), (0x8a, 0x0160),
      (0x8b, 0x2039), (0x8c, 0x0152), (0x8e, 0x017d), (0x91, 0x2018), (0x92, 0x2019),
      (0x93, 0x201c), (0x94, 0x201d), (0x95, 0x2022), (0x96, 0x2013), (0x97, 0x2014),
      (0x98, 0x02dc), (0x99, 0x2122), (0x9a, 0x0161), (0x9b, 0x203a), (0x9c, 0x0153),
      (0x9e, 0x017e), (0x9f, 0x0178)].lookup n with
    | some m => [m]
    | none => units (Char.ofNat n)

/-- The value of a digit in either base. -/
def digitValue (u : ℕ) : ℕ :=
  if isDigit u then u - 48 else if 97 ≤ u then u - 87 else u - 55

def number (base : ℕ) (ds : List ℕ) : ℕ := ds.foldl (fun n u => base * n + digitValue u) 0

/-- Digits and the semicolon that may follow them. -/
def numeric (base : ℕ) (isDigit : ℕ → Bool) (us : List ℕ) :
    List ℕ × List ℕ :=
  let rest := us.dropWhile isDigit
  (referenced (number base (us.takeWhile isDigit)),
    if rest.head? = some 0x3b then rest.tail else rest)

/-- The longest name of the table the input begins with. -/
def References.longest (refs : References) (us : List ℕ) :
    Option (List ℕ × List ℕ) :=
  (refs.table.filter fun e => e.1.isPrefixOf us).argmax fun e => e.1.length

/-- What stands behind an `&` is a character reference. -/
def refers (refs : References) : List ℕ → Bool
  | 0x23 :: x :: us => if x = 0x78 ∨ x = 0x58 then us.head?.any isHexDigit else isDigit x
  | us => refs.table.any fun e => e.1.isPrefixOf us

/-- The value of a character reference and what follows it. -/
def reference (refs : References) : List ℕ → Option (List ℕ × List ℕ)
  | 0x23 :: x :: us =>
    if x = 0x78 ∨ x = 0x58 then
      if us.head?.any isHexDigit then some (numeric 16 isHexDigit us) else none
    else if isDigit x then some (numeric 10 isDigit (x :: us)) else none
  | us => (refs.longest us).map fun e => (e.2, us.drop e.1.length)

/-! ### The tokenizer -/

/-- What stands behind a `<` begins a tag or a comment. -/
def opensMarkup : List ℕ → Bool
  | [] => false
  | 0x2f :: us => !us.isEmpty
  | u :: _ => isAlpha u || u = 0x21 || u = 0x3f

/-- A tag or a comment behind its `<`, and what follows it; no token for `</>` and for
a tag the input ends in. -/
def markup : List ℕ → List Token × List ℕ
  | 0x2f :: us =>
    if us.head?.any isAlpha then
      match scanTag .name us with
      | some (raw, rest) => ([.endTag raw], rest)
      | none => ([], [])
    else if us.head? = some 0x3e then ([], us.tail)
    else ([.comment (0x3c :: 0x2f :: (scanBogus us).1)], (scanBogus us).2)
  | 0x21 :: us => ([.comment (0x3c :: 0x21 :: (markupDeclaration us).1)], (markupDeclaration us).2)
  | 0x3f :: us => ([.comment (0x3c :: 0x3f :: (scanBogus us).1)], (scanBogus us).2)
  | us =>
    match scanTag .name us with
    | some (raw, rest) => ([.tag raw], rest)
    | none => ([], [])

/-- The tokens from one place between two tokens to the next, and what follows. The
tree builder drops a `NUL`. -/
def step (refs : References) (u : ℕ) (us : List ℕ) : List Token × List ℕ :=
  if u = 0x3c && opensMarkup us then markup us
  else if u = 0x26 && refers refs us then
    match reference refs us with
    | some (value, rest) => (value.map .char, rest)
    | none => ([.char u], us)
  else if u = 0x0d then ([.char 0x0a], if us.head? = some 0x0a then us.tail else us)
  else if u = 0 then ([], us)
  else ([.char u], us)

/-! ### Lengths -/

theorem length_scanTag {s : TagState} {us raw rest : List ℕ}
    (h : scanTag s us = some (raw, rest)) : raw.length + rest.length + 1 = us.length := by
  induction us generalizing s raw with
  | nil => simp [scanTag] at h
  | cons u us ih =>
    rw [scanTag] at h
    split at h
    · obtain ⟨rfl, rfl⟩ : [] = raw ∧ us = rest := by simpa using h
      simp
    · obtain ⟨⟨raw', rest'⟩, hscan, heq⟩ := Option.map_eq_some_iff.mp h
      obtain ⟨rfl, rfl⟩ := Prod.mk.inj heq
      have hlength := ih hscan
      simp only [List.length_cons]
      omega

theorem length_scanBogus (us : List ℕ) :
    (scanBogus us).1.length + (scanBogus us).2.length = us.length := by
  induction us with
  | nil => rfl
  | cons u us ih =>
    rw [scanBogus]
    split
    · simp [add_comm]
    · simp only [List.length_cons]
      omega

theorem length_scanComment (us : List ℕ) :
    (scanComment us).1.length + (scanComment us).2.length = us.length := by
  fun_induction scanComment us with
  | case1 us => simp; omega
  | case2 us => simp; omega
  | case3 u us _ _ ih =>
    simp only [List.length_cons]
    omega
  | case4 => rfl

theorem length_markupDeclaration (us : List ℕ) :
    (markupDeclaration us).1.length + (markupDeclaration us).2.length = us.length := by
  unfold markupDeclaration
  split
  · simp; omega
  · simp; omega
  · next us _ _ =>
    have hlength := length_scanComment us
    simp only [List.length_cons]
    omega
  · exact length_scanBogus _

theorem length_referenced (n : ℕ) : (referenced n).length ≤ 2 := by
  unfold referenced
  split
  · simp
  · split
    · simp
    · exact length_units_le _

theorem length_numeric (base : ℕ) {digit : ℕ → Bool} {us : List ℕ}
    (h : us.head?.any digit) :
    (numeric base digit us).1.length + (numeric base digit us).2.length ≤ us.length + 1 := by
  cases us with
  | nil => simp at h
  | cons u us =>
    have hu : digit u := by simpa using h
    have hvalue := length_referenced (number base ((u :: us).takeWhile digit))
    have hdrop : ((u :: us).dropWhile digit).length ≤ us.length := by
      rw [List.dropWhile_cons_of_pos hu]
      exact (List.dropWhile_suffix digit).length_le
    simp only [numeric, List.length_cons]
    split
    · have htail : (List.tail ((u :: us).dropWhile digit)).length ≤ us.length := by
        rw [List.length_tail]
        omega
      omega
    · omega

theorem length_reference {refs : References} {us value rest : List ℕ}
    (h : reference refs us = some (value, rest)) : value.length + rest.length ≤ us.length := by
  unfold reference at h
  split at h
  · next x us =>
    split_ifs at h with hx hhex hdigit
    · have hnumeric := length_numeric 16 hhex
      rw [Option.some.inj h] at hnumeric
      simp only [List.length_cons] at hnumeric ⊢
      omega
    -- no `x` behind the `#`, so the digits are decimal
    · have hhead : (x :: us).head?.any isDigit := hdigit
      have hnumeric := length_numeric 10 hhead
      rw [Option.some.inj h] at hnumeric
      exact hnumeric
  -- a named reference: no value is longer than its name
  · obtain ⟨e, he, heq⟩ := Option.map_eq_some_iff.mp h
    obtain ⟨rfl, rfl⟩ := Prod.mk.inj heq
    have hmem : e ∈ refs.table.filter fun e => e.1.isPrefixOf us := List.argmax_mem he
    obtain ⟨htable, hprefix⟩ := List.mem_filter.mp hmem
    have hvalue := refs.value_le e htable
    have hname := (List.isPrefixOf_iff_prefix.mp hprefix).length_le
    simp only [List.length_drop]
    omega

theorem length_markup_le (us : List ℕ) : (markup us).2.length ≤ us.length := by
  unfold markup
  split
  · next us =>
    split
    · split
      · next hscan =>
        have hlength := length_scanTag hscan
        simp only [List.length_cons]
        omega
      · simp
    · split
      · simp
        omega
      · have hlength := length_scanBogus us
        simp only [List.length_cons]
        omega
  · next us =>
    have hlength := length_markupDeclaration us
    simp only [List.length_cons]
    omega
  · next us =>
    have hlength := length_scanBogus us
    simp only [List.length_cons]
    omega
  · split
    · next hscan =>
      have hlength := length_scanTag hscan
      dsimp only
      omega
    · simp

theorem length_step_le (refs : References) (u : ℕ) (us : List ℕ) :
    (step refs u us).2.length ≤ us.length := by
  unfold step
  split_ifs
  · exact length_markup_le us
  · split
    · next href =>
      have hlength := length_reference href
      dsimp only
      omega
    · exact le_rfl
  · simp
  · exact le_rfl
  · exact le_rfl
  · exact le_rfl

/-- The token stream of an input. -/
def tokens (refs : References) : List ℕ → List Token
  | [] => []
  | u :: us => (step refs u us).1 ++ tokens refs (step refs u us).2
termination_by us => us.length
decreasing_by exact Nat.lt_succ_of_le (length_step_le refs u us)

section Stream

variable {refs : References}

@[simp] theorem tokens_nil : tokens refs [] = [] := by rw [tokens]

theorem tokens_cons (u : ℕ) (us : List ℕ) :
    tokens refs (u :: us) = (step refs u us).1 ++ tokens refs (step refs u us).2 := by
  rw [tokens]

end Stream

end Text.Html
