import Gallery.Text.Utf16
import Mathlib.Tactic.IntervalCases

/-!
# JSON string literals

Between its quotes a JSON string literal has characters that stand for
themselves and escape sequences. `parse` reads a literal into a JavaScript
string. A `Writer` writes literals character by character so that reading gives
the character back; an `Encoder` moreover leaves plain characters alone, escapes
all others by a backslash, and writes no character of markup.

## Main definitions

* `unescape`, `parse` — reading a literal
* `Writer`, `Writer.encode` — writing one
* `Encoder` — writing one without characters of markup
* `standard` — the encoder with the short escapes and `\uXXXX` for the rest

## Main results

* `Writer.parse_encode` — a text that has been encoded is read back
* `Encoder.escaped_eq_iff` — only plain texts look the same when escaped
-/

namespace Text.Json

/-! ### Reading -/

/-- The value of a hexadecimal digit. -/
def hexValue (c : Char) : Option ℕ :=
  if '0' ≤ c ∧ c ≤ '9' then some (c.toNat - '0'.toNat)
  else if 'a' ≤ c ∧ c ≤ 'f' then some (c.toNat - 'a'.toNat + 10)
  else if 'A' ≤ c ∧ c ≤ 'F' then some (c.toNat - 'A'.toNat + 10)
  else none

/-- The code unit four hexadecimal digits name. -/
def hex4 (a b c d : Char) : Option ℕ := do
  return (← hexValue a) * 0x1000 + (← hexValue b) * 0x100 + (← hexValue c) * 0x10 + (← hexValue d)

/-- The code unit that a backslash and one more character name. -/
def shortEscape (c : Char) : Option ℕ :=
  if c = '"' ∨ c = '\\' ∨ c = '/' then some c.toNat
  else if c = 'b' then some 0x08
  else if c = 'f' then some 0x0c
  else if c = 'n' then some 0x0a
  else if c = 'r' then some 0x0d
  else if c = 't' then some 0x09
  else none

/-- Reads what stands between the quotes; `none` if it is no literal. -/
def unescape : List Char → Option (List ℕ)
  | [] => some []
  | c :: cs =>
    if c = '\\' then
      match cs with
      | 'u' :: h₁ :: h₂ :: h₃ :: h₄ :: rest => do return (← hex4 h₁ h₂ h₃ h₄) :: (← unescape rest)
      | e :: rest => do return (← shortEscape e) :: (← unescape rest)
      | [] => none
    else if c = '"' ∨ c.toNat < 0x20 then none
    else do return units c ++ (← unescape cs)

/-- Reads a literal with its quotes into a JavaScript string. -/
def parse : List Char → Option (List ℕ)
  | '"' :: cs => if cs.getLast? = some '"' then unescape cs.dropLast else none
  | _ => none

/-! ### Writing -/

/-- The characters that stand for themselves in every literal an encoder writes:
printable ASCII without the quote, the backslash and the characters of markup. -/
def isPlain (c : Char) : Bool :=
  0x20 ≤ c.toNat && c.toNat ≤ 0x7f && c ∉ ['"', '\\', '<', '>', '&']

theorem unescape_plain {c : Char} (h : isPlain c) (cs : List Char) :
    unescape (c :: cs) = (unescape cs).map (units c ++ ·) := by
  simp only [isPlain, Bool.and_eq_true, decide_eq_true_eq, List.mem_cons, List.not_mem_nil,
    or_false, not_or] at h
  obtain ⟨⟨hlow, -⟩, hquote, hbackslash, -⟩ := h
  have hinside : ¬ (c = '"' ∨ c.toNat < 0x20) := by
    rintro (h | h)
    · exact hquote h
    · omega
  conv_lhs => unfold unescape
  simp only [if_neg hbackslash, if_neg hinside]
  cases unescape cs <;> rfl

/-- A way of writing texts between quotes, character by character. -/
structure Writer where
  escape : Char → List Char
  /-- What is written for a character reads as that character. -/
  reads : ∀ c cs, unescape (escape c ++ cs) = (unescape cs).map (units c ++ ·)

namespace Writer

variable (W : Writer)

/-- What is written between the quotes. -/
def escaped (text : List Char) : List Char := text.flatMap W.escape

def encode (text : List Char) : List Char := '"' :: W.escaped text ++ ['"']

theorem unescape_escaped (text : List Char) : unescape (W.escaped text) = some (utf16 text) := by
  induction text with
  | nil => rfl
  | cons c cs ih =>
    have hreads := W.reads c (W.escaped cs)
    rw [ih] at hreads
    exact hreads

/-- A text that has been encoded is read back. -/
theorem parse_encode (text : List Char) : parse (W.encode text) = some (utf16 text) := by
  have hlast : (W.escaped text ++ ['"']).getLast? = some '"' := by simp
  rw [encode, List.cons_append, parse, if_pos hlast, List.dropLast_concat]
  exact W.unescape_escaped text

end Writer

/-- A writer that escapes whatever is not plain, and nothing else. -/
structure Encoder extends Writer where
  /-- Plain characters stay. -/
  plain : ∀ c, isPlain c → escape c = [c]
  /-- All others are escaped by a backslash. -/
  special : ∀ c, isPlain c = false → ∃ e es, escape c = '\\' :: e :: es
  /-- Nothing that is written is a control character or a character of markup. -/
  safe : ∀ c, ∀ d ∈ escape c, 0x20 ≤ d.toNat ∧ d ≠ '<' ∧ d ≠ '&'

namespace Encoder

variable (E : Encoder)

theorem length_escape (c : Char) : 1 ≤ (E.escape c).length := by
  rcases Bool.eq_false_or_eq_true (isPlain c) with h | h
  · simp [E.plain c h]
  · obtain ⟨e, es, hescape⟩ := E.special c h
    simp [hescape]

theorem length_le_escaped (text : List Char) : text.length ≤ (E.escaped text).length := by
  induction text with
  | nil => exact le_rfl
  | cons c cs ih =>
    have hpos := E.length_escape c
    simp only [Writer.escaped, List.flatMap_cons, List.length_append, List.length_cons] at ih ⊢
    omega

/-- Only plain texts look the same when escaped. -/
theorem escaped_eq_iff (text : List Char) : E.escaped text = text ↔ ∀ c ∈ text, isPlain c := by
  induction text with
  | nil => simp [Writer.escaped]
  | cons c cs ih =>
    rw [List.forall_mem_cons, ← ih]
    rcases Bool.eq_false_or_eq_true (isPlain c) with h | h
    · simp [Writer.escaped, E.plain c h, h]
    · -- an escape sequence makes the text longer
      obtain ⟨e, es, hescape⟩ := E.special c h
      have hle := E.length_le_escaped cs
      constructor
      · intro heq
        have hlength := congrArg List.length heq
        simp only [Writer.escaped, List.flatMap_cons, hescape, List.length_append,
          List.length_cons] at hlength hle
        omega
      · rintro ⟨hplain, -⟩
        rw [h] at hplain
        cases hplain

end Encoder

/-! ### The standard encoder -/

/-- A hexadecimal digit. -/
def hexDigit (n : ℕ) : Char := if n < 10 then Char.ofNat (48 + n) else Char.ofNat (87 + n)

/-- `\uXXXX` -/
def unicodeEscape (u : ℕ) : List Char :=
  ['\\', 'u', hexDigit (u / 0x1000), hexDigit (u / 0x100 % 0x10), hexDigit (u / 0x10 % 0x10),
    hexDigit (u % 0x10)]

theorem hexValue_hexDigit {n : ℕ} (h : n < 16) : hexValue (hexDigit n) = some n := by
  interval_cases n <;> decide

theorem unescape_unicodeEscape {u : ℕ} (h : u < 0x10000) (cs : List Char) :
    unescape (unicodeEscape u ++ cs) = (unescape cs).map (u :: ·) := by
  have hvalue : hex4 (hexDigit (u / 0x1000)) (hexDigit (u / 0x100 % 0x10))
      (hexDigit (u / 0x10 % 0x10)) (hexDigit (u % 0x10)) = some u := by
    simp only [hex4, hexValue_hexDigit (show u / 0x1000 < 16 by omega),
      hexValue_hexDigit (show u / 0x100 % 0x10 < 16 by omega),
      hexValue_hexDigit (show u / 0x10 % 0x10 < 16 by omega),
      hexValue_hexDigit (show u % 0x10 < 16 by omega), Option.pure_def, Option.bind_eq_bind,
      Option.bind_some, Option.some.injEq]
    omega
  simp only [unicodeEscape, List.cons_append, List.nil_append]
  conv_lhs => unfold unescape
  simp only [ite_true, hvalue]
  cases unescape cs <;> rfl

/-- The escape sequence with one letter that a character has. -/
def shortFor (c : Char) : Option Char :=
  if c = '"' then some '"'
  else if c = '\\' then some '\\'
  else if c.toNat = 0x08 then some 'b'
  else if c.toNat = 0x0c then some 'f'
  else if c.toNat = 0x0a then some 'n'
  else if c.toNat = 0x0d then some 'r'
  else if c.toNat = 0x09 then some 't'
  else none

/-- What the standard encoder writes for a character. -/
def standardEscape (c : Char) : List Char :=
  if isPlain c then [c]
  else match shortFor c with
    | some e => ['\\', e]
    | none => (units c).flatMap unicodeEscape

theorem hexDigit_safe {n : ℕ} (h : n < 16) :
    0x20 ≤ (hexDigit n).toNat ∧ hexDigit n ≠ '<' ∧ hexDigit n ≠ '&' := by
  interval_cases n <;> decide

theorem unicodeEscape_safe {u : ℕ} (h : u < 0x10000) {d : Char} (hd : d ∈ unicodeEscape u) :
    0x20 ≤ d.toNat ∧ d ≠ '<' ∧ d ≠ '&' := by
  simp only [unicodeEscape, List.mem_cons, List.not_mem_nil, or_false] at hd
  rcases hd with rfl | rfl | rfl | rfl | rfl | rfl
  · decide
  · decide
  all_goals exact hexDigit_safe (by omega)

theorem shortFor_safe {c e : Char} (h : shortFor c = some e) :
    0x20 ≤ e.toNat ∧ e ≠ '<' ∧ e ≠ '&' := by
  unfold shortFor at h
  split_ifs at h <;> obtain rfl := Option.some.inj h <;> decide

theorem unescape_short {c e : Char} (h : shortFor c = some e) (cs : List Char) :
    unescape ('\\' :: e :: cs) = (unescape cs).map (units c ++ ·) := by
  have hread : shortEscape e = some c.toNat ∧ e ≠ 'u' ∧ c.toNat < 0x10000 := by
    unfold shortFor at h
    split_ifs at h <;> obtain rfl := Option.some.inj h <;> simp_all [shortEscape]
  obtain ⟨hshort, hu, hplane⟩ := hread
  conv_lhs => unfold unescape
  simp only [ite_true, units_of_lt hplane]
  split
  · next heq => exact absurd (List.cons.inj heq).1 hu
  · next heq =>
    obtain ⟨rfl, rfl⟩ := List.cons.inj heq
    rw [hshort]
    cases unescape cs <;> rfl
  · next heq => cases heq

theorem unescape_unicodeEscapes {us : List ℕ} (h : ∀ u ∈ us, u < 0x10000) (cs : List Char) :
    unescape (us.flatMap unicodeEscape ++ cs) = (unescape cs).map (us ++ ·) := by
  induction us with
  | nil => simp
  | cons u us ih =>
    rw [List.forall_mem_cons] at h
    rw [List.flatMap_cons, List.append_assoc, unescape_unicodeEscape h.1, ih h.2, Option.map_map]
    rfl

/-- Short escapes where there are any, and `\uXXXX` for the other characters that
are not plain. -/
def standard : Encoder where
  escape := standardEscape
  plain c h := if_pos h
  special c h := by
    rw [standardEscape, if_neg (by simp [h])]
    rcases Option.eq_none_or_eq_some (shortFor c) with hnone | ⟨e, he⟩
    · simp only [hnone]
      -- a character has at least one code unit
      rcases hunits : units c with _ | ⟨u, us⟩
      · have hpos := length_units_pos c
        simp [hunits] at hpos
      · exact ⟨'u', _, rfl⟩
    · exact ⟨e, [], by simp only [he]⟩
  reads c cs := by
    rw [standardEscape]
    split_ifs with h
    · exact unescape_plain h cs
    rcases Option.eq_none_or_eq_some (shortFor c) with hnone | ⟨e, he⟩
    · simp only [hnone]
      exact unescape_unicodeEscapes (fun u hu => lt_of_mem_units hu) cs
    · simp only [he]
      exact unescape_short he cs
  safe c d hd := by
    rw [standardEscape] at hd
    split_ifs at hd with h
    · obtain rfl := List.mem_singleton.mp hd
      simp only [isPlain, Bool.and_eq_true, decide_eq_true_eq, List.mem_cons, List.not_mem_nil,
        or_false, not_or] at h
      exact ⟨h.1.1, h.2.2.2.1, h.2.2.2.2.2⟩
    rcases Option.eq_none_or_eq_some (shortFor c) with hnone | ⟨e, he⟩
    · simp only [hnone] at hd
      obtain ⟨u, hu, hd⟩ := List.mem_flatMap.mp hd
      exact unicodeEscape_safe (lt_of_mem_units hu) hd
    · simp only [he, List.mem_cons, List.not_mem_nil, or_false] at hd
      rcases hd with rfl | rfl
      · decide
      · exact shortFor_safe he

end Text.Json
