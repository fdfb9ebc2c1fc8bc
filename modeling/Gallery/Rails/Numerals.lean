import Gallery.Rails.Values
import Mathlib.Data.List.TakeWhile

/-!
# The three readings of an id

On a string that PostgreSQL takes for an integer the hash condition, the
attribute and the quoted literal agree.

## Main results

* `whereInteger_of_assignInteger` — the first two agree on what is not blank
* `to_i_of_parseInteger`, `assignInteger_of_parseInteger` — the other two readings
* `fitsInteger_of_parseInteger` — a literal that is read is in range
* `to_i_toString`, `parseInteger_toString`, `assignInteger_toString` — an id written into a
  page reads back
-/

namespace Gallery.Rails

variable {s : String} {p : ℤ}

/-- What an attribute holds is what a hash condition would compare with. -/
theorem whereInteger_of_assignInteger {param : Option String} (h : assignInteger param = some p) :
    whereInteger param = some p := by
  obtain ⟨s, hs, hp⟩ := Option.map_eq_some_iff.mp h
  obtain ⟨rfl, -⟩ := Option.filter_eq_some_iff.mp hs
  exact congrArg some hp

theorem not_isDigit_of_isAsciiSpace {c : Char} (h : isAsciiSpace c) :
    c.isDigit = false ∧ c ≠ '_' ∧ c ≠ 'd' ∧ c ≠ 'D' := by
  have hspace : c.toNat = 0x20 ∨ 9 ≤ c.toNat ∧ c.toNat ≤ 13 := by simpa [isAsciiSpace] using h
  refine ⟨?_, ?_, ?_, ?_⟩
  · have hzero : '0'.toNat = 48 := rfl
    rw [Bool.eq_false_iff, Ne, Char.isDigit_iff_toNat]
    omega
  all_goals
    rintro rfl
    revert hspace
    decide

/-- Digits are read up to white space. -/
theorem scanDigits_append {ds sp : List Char} (hd : ∀ c ∈ ds, c.isDigit)
    (hsp : ∀ c ∈ sp, isAsciiSpace c) (n : ℕ) : scanDigits n (ds ++ sp) = scanDigits n ds := by
  induction ds generalizing n with
  | nil =>
    cases sp with
    | nil => rfl
    | cons c sp =>
      obtain ⟨hdigit, hunderscore, -, -⟩ :=
        not_isDigit_of_isAsciiSpace (hsp c List.mem_cons_self)
      simp [scanDigits, hdigit, hunderscore]
  | cons c ds ih =>
    rw [List.forall_mem_cons] at hd
    simp only [List.cons_append, scanDigits, hd.1, if_true]
    exact ih hd.2 _

/-- Trimming at the end leaves white space behind. -/
theorem exists_trimmed (cs : List Char) :
    ∃ sp, cs = (cs.reverse.dropWhile isAsciiSpace).reverse ++ sp ∧ ∀ c ∈ sp, isAsciiSpace c := by
  refine ⟨(cs.reverse.takeWhile isAsciiSpace).reverse, ?_, fun c hc => ?_⟩
  · rw [← List.reverse_append, List.takeWhile_append_dropWhile, List.reverse_reverse]
  · exact List.mem_takeWhile_imp (List.mem_reverse.mp hc)

/-- What a literal that PostgreSQL reads looks like behind its sign. -/
theorem exists_digits (h : parseInteger s = some p) :
    ∃ ds sp, (scanSign (s.toList.dropWhile isAsciiSpace)).2 = ds ++ sp ∧ ds ≠ [] ∧
      (∀ c ∈ ds, c.isDigit) ∧ (∀ c ∈ sp, isAsciiSpace c) ∧
      (scanSign (s.toList.dropWhile isAsciiSpace)).1 * scanDigits 0 ds = p ∧ fitsInteger p := by
  unfold parseInteger at h
  obtain ⟨sp, hcs, hsp⟩ := exists_trimmed (scanSign (s.toList.dropWhile isAsciiSpace)).2
  obtain ⟨hcond, hvalue⟩ := Option.ite_none_right_eq_some.mp h
  simp only [Bool.and_eq_true, Bool.not_eq_true', List.isEmpty_eq_false_iff, List.all_eq_true]
    at hcond
  obtain ⟨⟨hne, hdigits⟩, hfits⟩ := hcond
  have hvalue := Option.some.inj hvalue
  exact ⟨_, sp, hcs, hne, hdigits, hsp, hvalue, hvalue ▸ hfits⟩

theorem fitsInteger_of_parseInteger (h : parseInteger s = some p) : fitsInteger p := by
  obtain ⟨ds, sp, -, -, -, -, -, hfits⟩ := exists_digits h
  exact hfits

theorem to_i_of_parseInteger (h : parseInteger s = some p) : to_i s = p := by
  obtain ⟨ds, sp, hcs, hne, hdigits, hsp, hvalue, -⟩ := exists_digits h
  obtain ⟨d, ds, rfl⟩ := List.exists_cons_of_ne_nil hne
  have hd : d.isDigit := hdigits d List.mem_cons_self
  have hbase : ∀ c ∈ ds ++ sp, c ≠ 'd' ∧ c ≠ 'D' := by
    intro c hc
    rcases List.mem_append.mp hc with hc | hc
    · have hdigit := hdigits c (List.mem_cons_of_mem d hc)
      constructor <;> rintro rfl <;> revert hdigit <;> decide
    · exact (not_isDigit_of_isAsciiSpace (hsp c hc)).2.2
  -- the spaces behind the digits stop `to_i`
  have hscan : scanDigits 0 (d :: (ds ++ sp)) = scanDigits 0 (d :: ds) :=
    scanDigits_append hdigits hsp 0
  unfold to_i
  generalize scanSign (s.toList.dropWhile isAsciiSpace) = numeral at hcs hvalue ⊢
  obtain ⟨sign, cs⟩ := numeral
  obtain rfl : cs = d :: (ds ++ sp) := hcs
  -- no base prefix can follow the first digit
  cases hrest : ds ++ sp with
  | nil =>
    rw [hrest] at hscan
    simp [hd, hscan, hvalue]
  | cons c rest =>
    obtain ⟨hlower, hupper⟩ := hbase c (by simp [hrest])
    rw [hrest] at hscan
    simp [hd, hscan, hvalue, hlower, hupper]

theorem mem_of_mem_scanSign {c : Char} {cs : List Char} (h : c ∈ (scanSign cs).2) : c ∈ cs := by
  unfold scanSign at h
  split at h
  · exact List.mem_cons_of_mem _ h
  · exact List.mem_cons_of_mem _ h
  · exact h

/-- A digit is not white space. -/
theorem isSpace_of_isDigit {d : Char} (hd : d.isDigit) : isSpace d = false := by
  have hzero : '0'.toNat = 48 := rfl
  have hnine : '9'.toNat = 57 := rfl
  have hrange := Char.isDigit_iff_toNat.mp hd
  refine Bool.eq_false_iff.mpr fun hspace => ?_
  simp only [isSpace, Bool.or_eq_true, Bool.and_eq_true, decide_eq_true_eq] at hspace
  omega

/-- Digits are not blank. -/
theorem not_blank_of_parseInteger (h : parseInteger s = some p) : blank? s = false := by
  obtain ⟨ds, sp, hcs, hne, hdigits, -, -, -⟩ := exists_digits h
  obtain ⟨d, ds, rfl⟩ := List.exists_cons_of_ne_nil hne
  have hd : d.isDigit := hdigits d List.mem_cons_self
  have hnotSpace : isSpace d = false := isSpace_of_isDigit hd
  have hmem : d ∈ s.toList := by
    refine (List.dropWhile_suffix isAsciiSpace).subset (mem_of_mem_scanSign ?_)
    rw [hcs]
    exact List.mem_append_left sp List.mem_cons_self
  exact List.all_eq_false.mpr ⟨d, hmem, by simp [hnotSpace]⟩

/-- A blank string has no numeral. -/
theorem to_i_of_blank (h : blank? s = true) : to_i s = 0 := by
  have hblank : ∀ c ∈ (scanSign (s.toList.dropWhile isAsciiSpace)).2, c.isDigit = false := by
    intro c hc
    have hspace := List.all_eq_true.mp h c
      ((List.dropWhile_suffix isAsciiSpace).subset (mem_of_mem_scanSign hc))
    refine Bool.eq_false_iff.mpr fun hd => ?_
    simp [isSpace_of_isDigit hd] at hspace
  unfold to_i
  generalize scanSign (s.toList.dropWhile isAsciiSpace) = scanned at hblank ⊢
  obtain ⟨sign, cs⟩ := scanned
  dsimp only at hblank ⊢
  -- a base prefix starts with a digit too
  split
  · simp [Char.isDigit] at hblank
  · simp [Char.isDigit] at hblank
  · cases cs with
    | nil => rfl
    | cons c cs => simp [hblank c List.mem_cons_self]

/-- What a hash condition compares with can also be assigned, but for the `0` of a blank
string. -/
theorem assignInteger_of_whereInteger {param : Option String} (h : whereInteger param = some p)
    (hp : p ≠ 0) : assignInteger param = some p := by
  obtain ⟨s, rfl, rfl⟩ := Option.map_eq_some_iff.mp h
  have hblank : blank? s = false := Bool.eq_false_iff.mpr fun h => hp (to_i_of_blank h)
  simp [assignInteger, Option.filter_some, hblank]

theorem assignInteger_of_parseInteger (h : parseInteger s = some p) :
    assignInteger (some s) = some p := by
  have hblank := not_blank_of_parseInteger h
  rw [assignInteger, Option.filter_some, if_pos (by rw [hblank]; rfl), Option.map_some,
    to_i_of_parseInteger h]

/-! ### Numerals that Ruby writes -/

/-- Digits are read from the left. -/
theorem scanDigits_eq_ofDigitChars {cs : List Char} (h : ∀ c ∈ cs, c.isDigit) (n : ℕ) :
    scanDigits n cs = Nat.ofDigitChars 10 cs n := by
  induction cs generalizing n with
  | nil => simp [scanDigits]
  | cons c cs ih =>
    rw [List.forall_mem_cons] at h
    rw [scanDigits, if_pos h.1, ih h.2, Nat.ofDigitChars_cons]

/-- The characters of a numeral: a minus sign if need be, and digits. -/
theorem toList_toString (p : ℤ) :
    (toString p).toList = (if p < 0 then ['-'] else []) ++ Nat.toDigits 10 p.natAbs := by
  cases p with
  | ofNat m => simp [toString, Int.repr, Nat.repr]
  | negSucc m => simp [toString, Int.repr, Nat.repr, Int.negSucc_lt_zero]

theorem isAsciiSpace_of_isDigit {c : Char} (h : c.isDigit) : isAsciiSpace c = false := by
  refine Bool.eq_false_iff.mpr fun hspace => ?_
  simp [(not_isDigit_of_isAsciiSpace hspace).1] at h

theorem isDigit_of_mem_toDigits {c : Char} {n : ℕ} (h : c ∈ Nat.toDigits 10 n) : c.isDigit :=
  Nat.isDigit_of_mem_toDigits (by decide) (by decide) h

/-- The sign and the digits of a numeral. -/
theorem scanSign_toString (p : ℤ) : scanSign ((toString p).toList.dropWhile isAsciiSpace) =
    (if p < 0 then -1 else 1, Nat.toDigits 10 p.natAbs) := by
  obtain ⟨d, ds, hds⟩ := List.exists_cons_of_ne_nil (Nat.toDigits_ne_nil (b := 10) (n := p.natAbs))
  have hd : d.isDigit := isDigit_of_mem_toDigits (hds ▸ List.mem_cons_self)
  rw [toList_toString, hds]
  split_ifs
  · rfl
  · have hsign : d ≠ '-' ∧ d ≠ '+' := by
      constructor <;> rintro rfl <;> revert hd <;> decide
    simp only [List.nil_append, List.dropWhile_cons, isAsciiSpace_of_isDigit hd,
      Bool.false_eq_true, if_false]
    simp [scanSign, hsign]

theorem sign_mul_scanDigits (p : ℤ) :
    (if p < 0 then -1 else 1) * (scanDigits 0 (Nat.toDigits 10 p.natAbs) : ℤ) = p := by
  rw [scanDigits_eq_ofDigitChars fun c hc => isDigit_of_mem_toDigits hc,
    Nat.ofDigitChars_ten_toDigits]
  split_ifs <;> omega

/-- PostgreSQL reads an id in range back from its numeral. -/
theorem parseInteger_toString (h : fitsInteger p) : parseInteger (toString p) = some p := by
  have hdigits : ∀ c ∈ (Nat.toDigits 10 p.natAbs), c.isDigit := fun c hc =>
    isDigit_of_mem_toDigits hc
  have htrim : ((Nat.toDigits 10 p.natAbs).reverse.dropWhile isAsciiSpace).reverse =
      Nat.toDigits 10 p.natAbs := by
    rw [List.dropWhile_eq_self_iff.mpr, List.reverse_reverse]
    intro hlen
    rw [isAsciiSpace_of_isDigit (hdigits _ (List.mem_reverse.mp (List.getElem_mem hlen)))]
    exact Bool.false_ne_true
  unfold parseInteger
  rw [scanSign_toString]
  simp only [htrim, sign_mul_scanDigits, h, Bool.and_true]
  rw [if_pos]
  simpa [Nat.toDigits_ne_nil] using hdigits

/-- Ruby reads any id back. -/
theorem to_i_toString (p : ℤ) : to_i (toString p) = p := by
  obtain ⟨d, ds, hds⟩ := List.exists_cons_of_ne_nil (Nat.toDigits_ne_nil (b := 10) (n := p.natAbs))
  have hdigits : ∀ c ∈ d :: ds, c.isDigit := fun c hc => isDigit_of_mem_toDigits (hds ▸ hc)
  have hd := hdigits d List.mem_cons_self
  have hvalue := sign_mul_scanDigits p
  unfold to_i
  rw [scanSign_toString]
  rw [hds] at hvalue ⊢
  -- no base prefix can follow the first digit
  cases ds with
  | nil => simp [hd, hvalue]
  | cons c cs =>
    have hc := hdigits c (by simp)
    have hbase : c ≠ 'd' ∧ c ≠ 'D' := by
      constructor <;> rintro rfl <;> revert hc <;> decide
    simp [hd, hvalue, hbase]

/-- An id that a page holds is the value an attribute takes from it. -/
theorem assignInteger_toString (p : ℤ) : assignInteger (some (toString p)) = some p := by
  obtain ⟨d, hd⟩ := List.exists_mem_of_ne_nil _ (Nat.toDigits_ne_nil (b := 10) (n := p.natAbs))
  have hdigit := isDigit_of_mem_toDigits hd
  have hblank : blank? (toString p) = false := by
    refine List.all_eq_false.mpr ⟨d, ?_, by simp [isSpace_of_isDigit hdigit]⟩
    rw [toList_toString]
    exact List.mem_append_right _ hd
  rw [assignInteger, Option.filter_some, if_pos (by rw [hblank]; rfl), Option.map_some,
    to_i_toString]

end Gallery.Rails
