import Gallery.Text.Json

/-!
# Percent-encoding

Characters that have no place in a URL are written as the octets of their UTF-8 encoding,
each as a percent sign with two hexadecimal digits. Reading replaces what looks like such
an octet, whether it was written so or has stood in the text before.

## Main definitions

* `utf8` — the octets of a text
* `encode` — the characters of a set written as octets
* `decode` — the octets read back
* `hasEscape` — a percent sign before two hexadecimal digits

## Main results

* `utf8_injective` — texts with the same octets
* `decode_encode` — encoding makes no difference for the reader
* `decode_eq_utf8`, `length_decode_le` — which texts are read as they are
-/

namespace Text.Percent

open Json (hexValue)

/-- The octets of a text. -/
def utf8 (s : List Char) : List UInt8 := s.flatMap String.utf8EncodeChar

/-! ### Octets -/

def hexUpper (n : ℕ) : Char := if n < 10 then Char.ofNat (48 + n) else Char.ofNat (55 + n)

/-- An octet as it is written. -/
def escape (o : UInt8) : List Char := ['%', hexUpper (o.toNat / 16), hexUpper (o.toNat % 16)]

/-- The octet that the digits behind a percent sign stand for. -/
def octet : List Char → Option UInt8
  | a :: b :: _ => do return UInt8.ofNat ((← hexValue a) * 16 + (← hexValue b))
  | _ => none

def encodeChar (escapes : Char → Bool) (c : Char) : List Char :=
  if escapes c then (String.utf8EncodeChar c).flatMap escape else [c]

/-- The characters of the set are written as octets. -/
def encode (escapes : Char → Bool) (s : List Char) : List Char := s.flatMap (encodeChar escapes)

/-- Octets are read, other characters stay. -/
def decode : List Char → List UInt8
  | [] => []
  | '%' :: a :: b :: s =>
    match octet [a, b] with
    | some o => o :: decode s
    | none => String.utf8EncodeChar '%' ++ decode (a :: b :: s)
  | c :: s => String.utf8EncodeChar c ++ decode s

/-- Somewhere a percent sign stands before two hexadecimal digits. -/
def hasEscape : List Char → Bool
  | [] => false
  | c :: s => (c = '%' && (octet s).isSome) || hasEscape s

example : decode "M%C3%BCnchen 100%".toList = utf8 "München 100%".toList := by decide

variable {c : Char} {s t : List Char} {escapes : Char → Bool}

/-! ### Texts and their octets -/

@[simp] theorem utf8_nil : utf8 [] = [] := rfl

@[simp] theorem utf8_cons (c : Char) (s : List Char) :
    utf8 (c :: s) = String.utf8EncodeChar c ++ utf8 s := rfl

theorem utf8_injective : Function.Injective utf8 := by
  intro s t h
  have hbytes : s.utf8Encode = t.utf8Encode := congrArg List.toByteArray h
  have hdecode := congrArg ByteArray.utf8Decode? hbytes
  rw [List.utf8Decode?_utf8Encode, List.utf8Decode?_utf8Encode] at hdecode
  exact congrArg Array.toList (Option.some.inj hdecode)

theorem length_utf8EncodeChar_pos (c : Char) : 0 < (String.utf8EncodeChar c).length :=
  List.length_pos_of_ne_nil String.utf8EncodeChar_ne_nil

/-- A text has at least as many octets as one that is left when characters are dropped, and
as many only if that is the text itself. -/
theorem length_utf8_of_sublist (h : t.Sublist s) :
    (utf8 t).length ≤ (utf8 s).length ∧ ((utf8 s).length ≤ (utf8 t).length → t = s) := by
  induction h with
  | slnil => exact ⟨le_rfl, fun _ => rfl⟩
  | cons c _ ih =>
    have hpos := length_utf8EncodeChar_pos c
    simp only [utf8_cons, List.length_append]
    exact ⟨by omega, fun hle => by omega⟩
  | cons_cons c _ ih =>
    simp only [utf8_cons, List.length_append]
    refine ⟨by omega, fun hle => ?_⟩
    rw [ih.2 (by omega)]

/-! ### Reading -/

@[simp] theorem decode_nil : decode [] = [] := rfl

theorem decode_cons (h : c ≠ '%') (s : List Char) :
    decode (c :: s) = String.utf8EncodeChar c ++ decode s := by
  rw [decode]
  intro a b t hc
  exact absurd hc h

/-- The two things that happen to a percent sign. -/
theorem decode_percent (s : List Char) :
    decode ('%' :: s) = match octet s with
      | some o => o :: decode (s.drop 2)
      | none => String.utf8EncodeChar '%' ++ decode s := by
  match s with
  | [] => rfl
  | [a] => rfl
  | a :: b :: s => rfl

/-- Two digits make an octet. -/
theorem exists_digits {o : UInt8} (h : octet s = some o) : ∃ a b t, s = a :: b :: t := by
  match s with
  | [] => cases h
  | [a] => cases h
  | a :: b :: t => exact ⟨a, b, t, rfl⟩

/-- Reading never adds an octet, and each escape costs some. -/
theorem length_decode_le (s : List Char) :
    (decode s).length ≤ (utf8 s).length ∧
      ((utf8 s).length ≤ (decode s).length → hasEscape s = false) := by
  induction hn : s.length using Nat.strong_induction_on generalizing s with
  | _ n ih =>
  subst hn
  cases s with
  | nil => exact ⟨le_rfl, fun _ => rfl⟩
  | cons c s =>
    have hrest := ih s.length (by simp) s rfl
    by_cases hc : c = '%'
    · subst hc
      rw [decode_percent]
      cases ho : octet s with
      | none =>
        simp only [utf8_cons, List.length_append, hasEscape, ho]
        exact ⟨by omega, fun hle => by simpa using hrest.2 (by omega)⟩
      | some o =>
        obtain ⟨a, b, t, rfl⟩ := exists_digits ho
        have hdrop := (ih t.length (by simp; omega) t rfl).1
        have ha := length_utf8EncodeChar_pos a
        have hb := length_utf8EncodeChar_pos b
        simp only [utf8_cons, List.length_append, List.length_cons, List.drop_succ_cons,
          List.drop_zero]
        have hpercent := length_utf8EncodeChar_pos '%'
        exact ⟨by omega, fun hle => by omega⟩
    · rw [decode_cons hc]
      simp only [utf8_cons, List.length_append, hasEscape, hc]
      exact ⟨by omega, fun hle => by simpa using hrest.2 (by omega)⟩

/-- Without an escape, nothing is read but the text itself. -/
theorem decode_eq_utf8 (h : hasEscape s = false) : decode s = utf8 s := by
  induction s with
  | nil => rfl
  | cons c s ih =>
    rw [hasEscape, Bool.or_eq_false_iff, Bool.and_eq_false_iff] at h
    rw [utf8_cons, ← ih h.2]
    by_cases hc : c = '%'
    · subst hc
      have ho : octet s = none := by simpa using h.1
      rw [decode_percent, ho]
    · exact decode_cons hc s

/-! ### Writing and reading -/

theorem hexValue_hexUpper {n : ℕ} (h : n < 16) : hexValue (hexUpper n) = some n := by
  interval_cases n <;> decide

theorem decode_escape (o : UInt8) (s : List Char) : decode (escape o ++ s) = o :: decode s := by
  have hlt := o.toNat_lt
  have ho : octet (hexUpper (o.toNat / 16) :: hexUpper (o.toNat % 16) :: s) = some o := by
    simp only [octet, hexValue_hexUpper (show o.toNat / 16 < 16 by omega),
      hexValue_hexUpper (show o.toNat % 16 < 16 by omega), Option.pure_def, Option.bind_eq_bind,
      Option.bind_some, Nat.div_add_mod', UInt8.ofNat_toNat]
  rw [escape, List.cons_append, decode_percent, List.cons_append, List.cons_append,
    List.nil_append, ho]
  rfl

theorem decode_escapes (os : List UInt8) (s : List Char) :
    decode (os.flatMap escape ++ s) = os ++ decode s := by
  induction os with
  | nil => rfl
  | cons o os ih => rw [List.flatMap_cons, List.append_assoc, decode_escape, ih, List.cons_append]

theorem encode_cons (c : Char) (s : List Char) :
    encode escapes (c :: s) = encodeChar escapes c ++ encode escapes s := rfl

/-- An encoded text consists of characters of the text, percent signs and digits. -/
theorem mem_encode (h : c ∈ encode escapes s) : c ∈ s ∨ c = '%' ∨ (hexValue c).isSome := by
  obtain ⟨d, hd, hc⟩ := List.mem_flatMap.mp h
  rw [encodeChar] at hc
  split_ifs at hc
  · obtain ⟨o, -, ho⟩ := List.mem_flatMap.mp hc
    have hlt := o.toNat_lt
    simp only [escape, List.mem_cons, List.not_mem_nil, or_false] at ho
    rcases ho with rfl | rfl | rfl
    · exact .inr (.inl rfl)
    · exact .inr (.inr (by rw [hexValue_hexUpper (by omega)]; rfl))
    · exact .inr (.inr (by rw [hexValue_hexUpper (by omega)]; rfl))
  · rw [List.mem_singleton.mp hc]
    exact .inl hd

/-- A set that can be encoded: neither percent signs nor digits are in it. -/
def Encodes (escapes : Char → Bool) : Prop :=
  ∀ c, escapes c → c ≠ '%' ∧ hexValue c = none

theorem octet_of_first {a : Char} (h : hexValue a = none) (s : List Char) :
    octet (a :: s) = none := by
  cases s with
  | nil => rfl
  | cons b s => simp [octet, h]

theorem octet_of_second {a b : Char} (h : hexValue b = none) (s : List Char) :
    octet (a :: b :: s) = none := by
  cases ha : hexValue a <;> simp [octet, ha, h]

/-- A character of the set becomes a percent sign with something behind it. -/
theorem exists_escape (h : escapes c) : ∃ rest, encodeChar escapes c = '%' :: rest := by
  rw [encodeChar, if_pos h]
  obtain ⟨o, os, hos⟩ := List.exists_cons_of_ne_nil (String.utf8EncodeChar_ne_nil (c := c))
  rw [hos]
  exact ⟨_, rfl⟩

/-- A text begins with two digits exactly if it does so once encoded. -/
theorem octet_encode (h : Encodes escapes) (s : List Char) :
    octet (encode escapes s) = octet s := by
  have hpercent : hexValue '%' = none := by decide
  cases s with
  | nil => rfl
  | cons a s =>
    rw [encode_cons]
    by_cases ha : escapes a
    · obtain ⟨rest, hrest⟩ := exists_escape ha
      rw [hrest, octet_of_first (h a ha).2]
      exact octet_of_first hpercent _
    · rw [encodeChar, if_neg ha, List.singleton_append]
      cases s with
      | nil => rfl
      | cons b s =>
        rw [encode_cons]
        by_cases hb : escapes b
        · obtain ⟨rest, hrest⟩ := exists_escape hb
          rw [hrest, octet_of_second (h b hb).2]
          exact octet_of_second hpercent _
        · rw [encodeChar, if_neg hb]
          rfl

/-- A reader finds the same octets in the encoded text. -/
theorem decode_encode (h : Encodes escapes) (s : List Char) :
    decode (encode escapes s) = decode s := by
  induction hn : s.length using Nat.strong_induction_on generalizing s with
  | _ n ih =>
  subst hn
  cases s with
  | nil => rfl
  | cons c s =>
    have hrest := ih s.length (by simp) s rfl
    rw [encode_cons]
    by_cases hescapes : escapes c
    · rw [encodeChar, if_pos hescapes, decode_escapes, hrest, decode_cons (h c hescapes).1]
    rw [encodeChar, if_neg hescapes, List.singleton_append]
    by_cases hc : c = '%'
    · subst hc
      rw [decode_percent, decode_percent, octet_encode h]
      cases ho : octet s with
      | none => exact congrArg _ hrest
      | some o =>
        -- the digits are not in the set
        obtain ⟨a, b, t, rfl⟩ := exists_digits ho
        have hdigits : ¬ escapes a ∧ ¬ escapes b := by
          refine ⟨fun ha => ?_, fun hb => ?_⟩
          · rw [octet_of_first (h a ha).2] at ho
            cases ho
          · rw [octet_of_second (h b hb).2] at ho
            cases ho
        have ht := ih t.length (by simp; omega) t rfl
        simp [encode_cons, encodeChar, hdigits, ht]
    · rw [decode_cons hc, decode_cons hc, hrest]

end Text.Percent
