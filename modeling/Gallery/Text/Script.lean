import Mathlib.Data.List.Basic
import Mathlib.Data.List.Sort
import Mathlib.Data.Fin.Basic
import Mathlib.Data.Sym.Sym2
import Mathlib.Order.Fin.Basic

/-!
# Numbers and strings of scripts

A script holds an id as a number or as a string of digits, and its operations turn the one
into the other. Numbers are doubles; here they are the integers from 0 to 2^53, on which
doubles are exact. A reading is `none` where the script has `NaN` or a number beyond these;
of strings only those of digits, and the empty one, are read.

## Main definitions

* `Exact`, `Primitive` — numbers, and values that are numbers or strings
* `Primitive.toNumber`, `Primitive.parseInt`, `Primitive.toString` — the conversions
* `mathMax`, `mathMin`, `sortNumeric`, `join` — operations that use them
* `Primitive.Holds` — a value that stands for an integer

## Main results

* `min_max_eq_iff` — pairs of numbers
* `Primitive.Holds.toNumber_eq`, `Primitive.Holds.parseInt_eq` — its readings
* `join_sortNumeric` — two integers sorted and joined
* `separated_inj` — numerals with a separator between them
-/

namespace Text.Script

/-- The integers that a double holds exactly, from 0 on. -/
abbrev Exact := Fin (2 ^ 53 + 1)

inductive Primitive
  | number (n : Exact)
  | string (s : List Char)
deriving DecidableEq, Repr

/-- A decimal numeral. -/
def digits (n : ℕ) : List Char := Nat.toDigits 10 n

/-- The integer that a string of digits stands for. -/
def readDecimal (s : List Char) : Option Exact :=
  if s ≠ [] ∧ s.all Char.isDigit then
    if h : Nat.ofDigitChars 10 s 0 < 2 ^ 53 + 1 then some ⟨_, h⟩ else none
  else none

namespace Primitive

protected def toString : Primitive → List Char
  | number n => digits n
  | string s => s

/-- What arithmetic makes of a value; the empty string is 0. -/
def toNumber : Primitive → Option Exact
  | number n => some n
  | string s => if s = [] then some 0 else readDecimal s

/-- `parseInt` -/
def parseInt (v : Primitive) : Option Exact := readDecimal v.toString

/-- The value stands for an integer, as a number or as a string. -/
def Holds (v : Primitive) (n : Exact) : Prop := v = number n ∨ v = string (digits n)

end Primitive

/-- `Math.max` -/
def mathMax (x y : Primitive) : Option Exact := do return max (← x.toNumber) (← y.toNumber)

/-- `Math.min` -/
def mathMin (x y : Primitive) : Option Exact := do return min (← x.toNumber) (← y.toNumber)

/-- `sort (a, b) -> a - b`, which is stable. -/
def sortNumeric (xs : List Primitive) : Option (List Primitive) := do
  let ns ← xs.mapM Primitive.toNumber
  return ((xs.zip ns).insertionSort fun p q => ((p.2 : ℕ) : ℤ) - (q.2 : ℕ) ≤ 0).map Prod.fst

/-- `join` -/
def join (sep : List Char) (xs : List Primitive) : List Char :=
  sep.intercalate (xs.map Primitive.toString)

/-! ### Numerals -/

variable {m n : ℕ}

theorem digits_injective : Function.Injective digits := by
  intro m n h
  calc
    m = Nat.ofDigitChars 10 (digits m) 0 := Nat.ofDigitChars_ten_toDigits.symm
    _ = Nat.ofDigitChars 10 (digits n) 0 := by rw [h]
    _ = n := Nat.ofDigitChars_ten_toDigits

theorem isDigit_of_mem_digits {c : Char} (h : c ∈ digits n) : c.isDigit :=
  Nat.isDigit_of_mem_toDigits (by decide) (by decide) h

theorem digits_ne_nil (n : ℕ) : digits n ≠ [] := Nat.toDigits_ne_nil

/-- Two numerals are read off a text in which another character separates them. -/
theorem separated_inj {sep : Char} (hsep : sep.isDigit = false) {m n m' n' : ℕ} :
    digits m ++ sep :: digits n = digits m' ++ sep :: digits n' ↔ m = m' ∧ n = n' := by
  have hnotMem : ∀ k, sep ∉ digits k := by
    intro k hmem
    rw [isDigit_of_mem_digits hmem] at hsep
    cases hsep
  constructor
  · intro h
    rw [List.append_cons_inj_of_notMem (hnotMem m) (hnotMem n)] at h
    exact ⟨digits_injective h.1, digits_injective h.2.2⟩
  · rintro ⟨rfl, rfl⟩
    rfl

/-- The smaller and the larger of two say which two they are, but not in which order. -/
theorem min_max_eq_iff {α : Type*} [LinearOrder α] {a b c d : α} :
    min a b = min c d ∧ max a b = max c d ↔ s(a, b) = s(c, d) := by
  rw [Sym2.eq_iff]
  constructor
  · rintro ⟨hmin, hmax⟩
    rcases le_total a b with hab | hab <;> rcases le_total c d with hcd | hcd <;>
      simp only [min_eq_left, min_eq_right, max_eq_left, max_eq_right, hab, hcd] at hmin hmax <;>
      simp [hmin, hmax]
  · rintro (⟨rfl, rfl⟩ | ⟨rfl, rfl⟩)
    · exact ⟨rfl, rfl⟩
    · exact ⟨min_comm _ _, max_comm _ _⟩

theorem readDecimal_digits (n : Exact) : readDecimal (digits n) = some n := by
  have hdigits : (digits n).all Char.isDigit :=
    List.all_eq_true.mpr fun c hc => isDigit_of_mem_digits hc
  have hvalue : Nat.ofDigitChars 10 (digits n) 0 = n := Nat.ofDigitChars_ten_toDigits
  rw [readDecimal, if_pos ⟨digits_ne_nil n, hdigits⟩, dif_pos (by rw [hvalue]; exact n.isLt)]
  exact congrArg some (Fin.ext hvalue)

/-! ### Values that stand for integers -/

namespace Primitive.Holds

variable {x y : Primitive} {m n : Exact}

theorem toString_eq (h : x.Holds n) : x.toString = digits n := by
  rcases h with rfl | rfl <;> rfl

theorem toNumber_eq (h : x.Holds n) : x.toNumber = some n := by
  rcases h with rfl | rfl
  · rfl
  · rw [toNumber, if_neg (digits_ne_nil n), readDecimal_digits]

theorem parseInt_eq (h : x.Holds n) : x.parseInt = some n := by
  rw [parseInt, h.toString_eq, readDecimal_digits]

theorem mathMax_eq (hx : x.Holds m) (hy : y.Holds n) : mathMax x y = some (max m n) := by
  simp [mathMax, hx.toNumber_eq, hy.toNumber_eq]

theorem mathMin_eq (hx : x.Holds m) (hy : y.Holds n) : mathMin x y = some (min m n) := by
  simp [mathMin, hx.toNumber_eq, hy.toNumber_eq]

end Primitive.Holds

/-- Two integers sorted and joined: the smaller one comes first. -/
theorem join_sortNumeric {x y : Primitive} {m n : Exact} (hx : x.Holds m) (hy : y.Holds n)
    (sep : List Char) : (sortNumeric [x, y]).map (join sep) =
      some (digits (min m n : Exact) ++ sep ++ digits (max m n : Exact)) := by
  have hsort : sortNumeric [x, y] = some (if m ≤ n then [x, y] else [y, x]) := by
    have hle : ((m : ℕ) : ℤ) - (n : ℕ) ≤ 0 ↔ m ≤ n := by
      rw [Fin.le_def]
      omega
    simp only [sortNumeric, List.mapM_cons, List.mapM_nil, hx.toNumber_eq, hy.toNumber_eq,
      Option.pure_def, Option.bind_eq_bind, Option.bind_some, List.zip_cons_cons,
      List.zip_nil_right, List.insertionSort_cons, List.insertionSort_nil, List.orderedInsert, hle]
    split_ifs <;> rfl
  rw [hsort, Option.map_some, Option.some.injEq, join]
  split_ifs with hle
  · simp [hx.toString_eq, hy.toString_eq, min_eq_left hle, max_eq_right hle]
  · have hge := (not_le.mp hle).le
    simp [hx.toString_eq, hy.toString_eq, min_eq_right hge, max_eq_left hge]

end Text.Script
