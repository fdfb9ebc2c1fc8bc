import Mathlib.Data.Char
import Mathlib.Data.List.Basic

/-!
# Texts as UTF-16

A text is a list of characters; a JavaScript string is the list of its UTF-16
code units, of which a character outside the basic plane has two.

## Main definitions

* `units`, `utf16` — the code units of a character and of a text

## Main results

* `utf16_injective` — different texts are different strings
* `utf16_take_iff` — the beginnings of equal lengths agree in the basic plane alone
-/

namespace Text

/-- The UTF-16 code units of a character. -/
def units (c : Char) : List ℕ :=
  if c.toNat < 0x10000 then [c.toNat]
  else [0xd800 + (c.toNat - 0x10000) / 0x400, 0xdc00 + (c.toNat - 0x10000) % 0x400]

/-- The UTF-16 code units of a text. -/
def utf16 (cs : List Char) : List ℕ := cs.flatMap units

@[simp] theorem utf16_nil : utf16 [] = [] := rfl

@[simp] theorem utf16_cons (c : Char) (cs : List Char) :
    utf16 (c :: cs) = units c ++ utf16 cs := rfl

@[simp] theorem utf16_append (cs ds : List Char) : utf16 (cs ++ ds) = utf16 cs ++ utf16 ds :=
  List.flatMap_append

/-- Characters are no surrogates and end at `0x10ffff`. -/
theorem toNat_valid (c : Char) : c.toNat < 0xd800 ∨ 0xdfff < c.toNat ∧ c.toNat < 0x110000 :=
  c.valid

theorem units_of_lt {c : Char} (h : c.toNat < 0x10000) : units c = [c.toNat] := if_pos h

theorem length_units_pos (c : Char) : 0 < (units c).length := by
  unfold units
  split <;> simp

theorem length_units_le (c : Char) : (units c).length ≤ 2 := by
  unfold units
  split <;> simp

/-- A code unit is its character or a surrogate. -/
theorem eq_or_le_of_mem_units {c : Char} {u : ℕ} (hu : u ∈ units c) : u = c.toNat ∨ 0xd800 ≤ u := by
  unfold units at hu
  split at hu
  · exact .inl (List.mem_singleton.mp hu)
  · simp only [List.mem_cons, List.not_mem_nil, or_false] at hu
    right
    omega

/-- Every code unit has 16 bits. -/
theorem lt_of_mem_units {c : Char} {u : ℕ} (hu : u ∈ units c) : u < 0x10000 := by
  have hvalid := toNat_valid c
  unfold units at hu
  split at hu
  · obtain rfl := List.mem_singleton.mp hu
    assumption
  · simp only [List.mem_cons, List.not_mem_nil, or_false] at hu
    omega

/-- The first character can be read off the code units. -/
theorem units_append_inj {c d : Char} {us vs : List ℕ} (h : units c ++ us = units d ++ vs) :
    c = d ∧ us = vs := by
  have hc := toNat_valid c
  have hd := toNat_valid d
  unfold units at h
  split_ifs at h <;>
    simp only [List.cons_append, List.nil_append, List.cons.injEq] at h
  · exact ⟨Char.toNat_inj.mp h.1, h.2⟩
  -- a character of the basic plane is no surrogate
  · omega
  · omega
  · obtain ⟨hhigh, hlow, hrest⟩ := h
    exact ⟨Char.toNat_inj.mp (by omega), hrest⟩

theorem utf16_injective : Function.Injective utf16 := by
  intro cs ds h
  induction cs generalizing ds with
  | nil =>
    cases ds with
    | nil => rfl
    | cons d ds =>
      have hlength := congrArg List.length h
      have hpos := length_units_pos d
      simp only [utf16_nil, utf16_cons, List.length_nil, List.length_append] at hlength
      omega
  | cons c cs ih =>
    cases ds with
    | nil =>
      have hlength := congrArg List.length h
      have hpos := length_units_pos c
      simp only [utf16_nil, utf16_cons, List.length_nil, List.length_append] at hlength
      omega
    | cons d ds =>
      obtain ⟨rfl, hrest⟩ := units_append_inj h
      rw [ih hrest]

theorem length_le_length_utf16 (cs : List Char) : cs.length ≤ (utf16 cs).length := by
  induction cs with
  | nil => exact le_rfl
  | cons c cs ih =>
    have hpos := length_units_pos c
    rw [utf16_cons, List.length_append, List.length_cons]
    omega

/-- As many characters as code units are the same beginning of a text exactly if they are in
the basic plane. -/
theorem utf16_take_iff {cs : List Char} {n : ℕ} (hn : n ≤ cs.length) :
    utf16 (cs.take n) = (utf16 cs).take n ↔ ∀ c ∈ cs.take n, c.toNat < 0x10000 := by
  induction cs generalizing n with
  | nil => simp
  | cons c cs ih =>
    cases n with
    | zero => simp
    | succ n =>
      have hn : n ≤ cs.length := Nat.le_of_succ_le_succ hn
      rw [List.take_succ_cons, List.forall_mem_cons, utf16_cons, utf16_cons]
      by_cases hc : c.toNat < 0x10000
      · rw [units_of_lt hc, ← ih hn]
        simp [hc]
      -- a surrogate pair makes the first text longer
      · refine iff_of_false (fun h => ?_) fun h => hc h.1
        have htake := length_le_length_utf16 (cs.take n)
        have hlength := congrArg List.length h
        have hpair : (units c).length = 2 := by simp [units, hc]
        simp only [List.length_append, List.length_take, hpair] at hlength htake
        omega

end Text
