import Gallery.Text.Html.Tokenizer

/-!
# Texts without markup

A text in an HTML input is itself when nothing in it begins a tag, a comment or
a character reference and nothing in it is replaced or dropped. Conversely, a
text in front of a tag whose tokens are its own characters is such a text: every
other way through it leaves fewer characters.

## Main definitions

* `Unmarked`, `Inert` — a text without markup, and without units the browser replaces
* `Boundary` — a unit at which no markup goes on
* `leading` — the characters in front of the first tag

## Main results

* `tokens_inert` — an inert text is its own characters
* `leading_tokens_le` — no text gives more characters than it has
* `inert_of_tokens` — a text that is its own characters is inert
-/

namespace Text.Html

variable {refs : References}

/-- The units that open markup behind a `<`, unless the input ends there. -/
def Opens (v : ℕ) : Prop := isAlpha v ∨ v ∈ [0x2f, 0x21, 0x3f]

/-- Nothing in the text begins a tag, a comment or a character reference. -/
def Unmarked (refs : References) : List ℕ → Prop
  | [] => True
  | u :: us =>
    (u = 0x3c → ∀ v ∈ us.head?, ¬ Opens v) ∧ (u = 0x26 → refers refs us = false) ∧ Unmarked refs us

/-- No markup, and no unit the browser replaces or drops. -/
structure Inert (refs : References) (e : List ℕ) : Prop where
  unmarked : Unmarked refs e
  kept : ∀ u ∈ e, u ≠ 0 ∧ u ≠ 0x0d

/-- A unit at which no tag, comment or character reference can go on. -/
def Boundary (p : ℕ) : Prop :=
  ¬ isAlpha p ∧ ¬ isDigit p ∧ p ∉ [0x2f, 0x21, 0x3f, 0x23, 0x3b]

instance (p : ℕ) : Decidable (Boundary p) := by unfold Boundary; infer_instance

variable {p u : ℕ} {us rest : List ℕ}

theorem opens_of_boundary (hp : Boundary p) : ¬ Opens p := by
  rintro (halpha | hother)
  · exact hp.1 halpha
  · apply hp.2.2
    simp only [List.mem_cons, List.not_mem_nil, or_false] at hother ⊢
    omega

theorem isPrefixOf_append_of_notMem {name : List ℕ} (hp : p ∉ name) :
    name.isPrefixOf (us ++ p :: rest) = name.isPrefixOf us := by
  induction name generalizing us with
  | nil => simp
  | cons v name ih =>
    rw [List.mem_cons, not_or] at hp
    cases us with
    | nil => simp [List.isPrefixOf, Ne.symm hp.1]
    | cons u us => simp [List.isPrefixOf, ih hp.2]

theorem not_isHexDigit (hp : Boundary p) : isHexDigit p = false := by
  obtain ⟨halpha, hdigit, -⟩ := hp
  refine Bool.eq_false_iff.mpr fun hhex => ?_
  simp only [isHexDigit, isAlpha, Bool.or_eq_true, Bool.and_eq_true, decide_eq_true_eq]
    at hhex halpha
  rcases hhex with (hhex | hhex) | hhex
  · exact hdigit hhex
  · omega
  · omega

/-- Without a `#` only a name can make a reference. -/
theorem refers_of_ne_hash (hu : u ≠ 0x23) :
    refers refs (u :: us) = refs.table.any fun e => e.1.isPrefixOf (u :: us) := by
  rw [refers]
  rintro x us' heq
  exact hu (List.cons.inj heq).1

/-- A `#` alone is no reference. -/
theorem refers_hash : refers refs [0x23] = false := by
  rw [refers, List.any_eq_false]
  · intro e he hprefix
    obtain ⟨v, name, hname⟩ := List.exists_cons_of_ne_nil (refs.name_ne_nil e he)
    rw [hname, List.isPrefixOf, Bool.and_eq_true, beq_iff_eq] at hprefix
    have hv : v = 0x23 := hprefix.1
    have hunits := refs.name_units e he v (by simp [hname])
    simp [hv, isAlpha, isDigit] at hunits
  · rintro x us' heq
    cases heq

/-- What stands behind a boundary takes no part in a character reference. -/
theorem refers_append (hp : Boundary p) : refers refs (us ++ p :: rest) = refers refs us := by
  obtain ⟨halpha, hdigit, hother⟩ := id hp
  simp only [List.mem_cons, List.not_mem_nil, or_false, not_or] at hother
  -- the boundary is no unit of a name, so it completes none
  have hname : ∀ us : List ℕ, (refs.table.any fun e => e.1.isPrefixOf (us ++ p :: rest)) =
      refs.table.any fun e => e.1.isPrefixOf us := by
    intro us
    rw [Bool.eq_iff_iff, List.any_eq_true, List.any_eq_true]
    refine exists_congr fun e => and_congr_right fun he => ?_
    rw [isPrefixOf_append_of_notMem fun hmem => ?_]
    rcases refs.name_units e he p hmem with h | h | h
    · exact halpha h
    · exact hdigit h
    · exact hother.2.2.2.2 h
  -- a numeric reference is decided by the two units behind `#`
  cases us with
  | nil =>
    rw [List.nil_append, refers_of_ne_hash hother.2.2.2.1]
    exact hname []
  | cons u us =>
    by_cases hu : u = 0x23
    · subst hu
      cases us with
      | nil =>
        have hx : ¬ (p = 0x78 ∨ p = 0x58) := by
          rintro (rfl | rfl) <;> exact halpha rfl
        rw [refers_hash]
        simp [refers, hx, hdigit]
      | cons x us =>
        cases us with
        | nil => simp [refers, not_isHexDigit hp]
        | cons v us => simp [refers]
    · rw [List.cons_append, refers_of_ne_hash hu, refers_of_ne_hash hu]
      exact hname (u :: us)

theorem exists_reference (h : refers refs us) :
    ∃ value rest, reference refs us = some (value, rest) := by
  unfold refers at h
  split at h
  · next x us =>
    split_ifs at h with hx
    · exact ⟨_, _, by rw [reference, if_pos hx, if_pos h]⟩
    · exact ⟨_, _, by rw [reference, if_neg hx, if_pos h]⟩
  · next hhash =>
    obtain ⟨e, he, hprefix⟩ := List.any_eq_true.mp h
    have hne : refs.longest us ≠ none := by
      rw [References.longest, Ne, List.argmax_eq_none]
      exact List.ne_nil_of_mem (List.mem_filter.mpr ⟨he, hprefix⟩)
    obtain ⟨best, hbest⟩ := Option.ne_none_iff_exists'.mp hne
    refine ⟨best.2, us.drop best.1.length, ?_⟩
    rw [reference, hbest]
    · rfl
    · exact hhash

theorem opensMarkup_of_not_opens {v : ℕ} (hv : ¬ Opens v) (us : List ℕ) :
    opensMarkup (v :: us) = false := by
  simp only [Opens, List.mem_cons, List.not_mem_nil, or_false, not_or] at hv
  unfold opensMarkup
  split
  · next heq => cases heq
  · next heq => exact absurd (List.cons.inj heq).1 hv.2.1
  · next heq =>
    obtain ⟨rfl, rfl⟩ := List.cons.inj heq
    simp [hv]

theorem opensMarkup_of_opens {v : ℕ} (hv : Opens v) (hus : us ≠ []) :
    opensMarkup (v :: us) = true := by
  simp only [Opens, List.mem_cons, List.not_mem_nil, or_false] at hv
  unfold opensMarkup
  split
  · next heq => cases heq
  · next heq =>
    obtain ⟨-, rfl⟩ := List.cons.inj heq
    simpa using hus
  · next hslash heq =>
    obtain ⟨rfl, rfl⟩ := List.cons.inj heq
    have hne : v ≠ 0x2f := hslash
    simpa [hne, or_assoc] using hv

/-- A unit that is itself. -/
def Literal (refs : References) (u : ℕ) (us : List ℕ) : Prop :=
  u ≠ 0 ∧ u ≠ 0x0d ∧ (u = 0x3c → opensMarkup us = false) ∧ (u = 0x26 → refers refs us = false)

theorem step_literal (h : Literal refs u us) : step refs u us = ([.char u], us) := by
  obtain ⟨hnul, hcr, hopen, hrefers⟩ := h
  have hmarkup : ¬ (u = 0x3c && opensMarkup us) = true := by
    simp only [Bool.and_eq_true, decide_eq_true_eq, not_and]
    exact fun hu => by simp [hopen hu]
  have hreference : ¬ (u = 0x26 && refers refs us) = true := by
    simp only [Bool.and_eq_true, decide_eq_true_eq, not_and]
    exact fun hu => by simp [hrefers hu]
  rw [step, if_neg hmarkup, if_neg hreference, if_neg hcr, if_neg hnul]

/-- A unit of a text without markup, in front of a boundary, is itself unless the
browser replaces or drops it. -/
theorem literal_of_unmarked {e : List ℕ} (h : Unmarked refs (u :: e)) (hp : Boundary p)
    (hkept : u ≠ 0 ∧ u ≠ 0x0d) : Literal refs u (e ++ p :: rest) := by
  obtain ⟨hopen, hrefers, -⟩ := h
  refine ⟨hkept.1, hkept.2, fun hu => ?_, fun hu => (refers_append hp).trans (hrefers hu)⟩
  cases e with
  | nil =>
    exact opensMarkup_of_not_opens (opens_of_boundary hp) rest
  | cons v e => exact opensMarkup_of_not_opens (hopen hu v rfl) _

/-- An inert text, in front of a boundary, is its own characters. -/
theorem tokens_inert {e : List ℕ} (h : Inert refs e) (hp : Boundary p) :
    tokens refs (e ++ p :: rest) = e.map .char ++ tokens refs (p :: rest) := by
  obtain ⟨hunmarked, hkept⟩ := h
  induction e with
  | nil => rfl
  | cons u e ih =>
    rw [List.forall_mem_cons] at hkept
    have hliteral : Literal refs u (e ++ p :: rest) := literal_of_unmarked hunmarked hp hkept.1
    rw [List.cons_append, tokens_cons, step_literal hliteral, ih hunmarked.2.2 hkept.2]
    rfl

/-! ### Counting characters

Only a literal unit gives a character of its own: a character reference gives fewer than it
takes, and behind a tag the count is over. So what comes out in front of a tag has as many
characters as went in only if everything was literal.
-/

def Token.isChar : Token → Bool
  | char _ => true
  | _ => false

/-- The number of characters in front of the first tag or comment. -/
def leading (ts : List Token) : ℕ := (ts.takeWhile Token.isChar).length

@[simp] theorem leading_nil : leading [] = 0 := rfl

@[simp] theorem leading_char (u : ℕ) (ts : List Token) :
    leading (.char u :: ts) = leading ts + 1 := rfl

theorem leading_of_not_isChar {t : Token} (ht : t.isChar = false) (ts : List Token) :
    leading (t :: ts) = 0 := by
  simp [leading, ht]

@[simp] theorem leading_chars (e : List ℕ) (ts : List Token) :
    leading (e.map .char ++ ts) = e.length + leading ts := by
  induction e with
  | nil => simp
  | cons u e ih =>
    rw [List.map_cons, List.cons_append, leading_char, ih, List.length_cons]
    omega

/-- Behind a `<` comes a tag or a comment, or nothing: no token for `</>`, and none at all
for a tag that the input ends in. -/
theorem markup_cases (us : List ℕ) :
    (∃ t rest, markup us = ([t], rest) ∧ t.isChar = false) ∨ markup us = ([], []) ∨
      ∃ us', us = 0x2f :: 0x3e :: us' ∧ markup us = ([], us') := by
  unfold markup
  split
  · next us =>
    split
    · split
      · exact .inl ⟨_, _, rfl, rfl⟩
      · exact .inr (.inl rfl)
    · split
      · next hclose =>
        obtain ⟨us', rfl⟩ := List.head?_eq_some_iff.mp hclose
        exact .inr (.inr ⟨us', rfl, rfl⟩)
      · exact .inl ⟨_, _, rfl, rfl⟩
  · exact .inl ⟨_, _, rfl, rfl⟩
  · exact .inl ⟨_, _, rfl, rfl⟩
  · split
    · exact .inl ⟨_, _, rfl, rfl⟩
    · exact .inr (.inl rfl)

/-- Digits end in front of a boundary. -/
theorem numeric_append {base : ℕ} {digit : ℕ → Bool} (hdigit : digit p = false) (hp : p ≠ 0x3b) :
    numeric base digit (us ++ p :: rest) =
      ((numeric base digit us).1, (numeric base digit us).2 ++ p :: rest) := by
  have hp' : ¬ digit p = true := by simp [hdigit]
  have hdigits : ∀ us : List ℕ, (us ++ p :: rest).takeWhile digit = us.takeWhile digit := by
    intro us
    induction us with
    | nil => exact List.takeWhile_cons_of_neg hp'
    | cons u us ih => cases hu : digit u <;> simp [hu, ih]
  have hrest : ∀ us : List ℕ,
      (us ++ p :: rest).dropWhile digit = us.dropWhile digit ++ p :: rest := by
    intro us
    induction us with
    | nil => exact List.dropWhile_cons_of_neg hp'
    | cons u us ih => cases hu : digit u <;> simp [hu, ih]
  simp only [numeric, hrest, hdigits]
  cases us.dropWhile digit with
  | nil => simp [hp]
  | cons v vs =>
    by_cases hv : v = 0x3b <;> simp [hv]

theorem longest_append (hp : Boundary p) : refs.longest (us ++ p :: rest) = refs.longest us := by
  obtain ⟨halpha, hdigit, hother⟩ := hp
  simp only [List.mem_cons, List.not_mem_nil, or_false, not_or] at hother
  have hnames : (refs.table.filter fun e => e.1.isPrefixOf (us ++ p :: rest)) =
      refs.table.filter fun e => e.1.isPrefixOf us := by
    refine List.filter_congr fun e he => isPrefixOf_append_of_notMem fun hmem => ?_
    rcases refs.name_units e he p hmem with h | h | h
    · exact halpha h
    · exact hdigit h
    · exact hother.2.2.2.2 h
  rw [References.longest, hnames, References.longest]

theorem reference_of_ne_hash (hu : u ≠ 0x23) :
    reference refs (u :: us) =
      (refs.longest (u :: us)).map fun e => (e.2, (u :: us).drop e.1.length) := by
  rw [reference]
  rintro x us' heq
  exact hu (List.cons.inj heq).1

/-- The value of a reference is settled in front of a boundary. -/
theorem reference_append (hp : Boundary p) {value left : List ℕ}
    (h : reference refs us = some (value, left)) :
    reference refs (us ++ p :: rest) = some (value, left ++ p :: rest) := by
  obtain ⟨halpha, hdigit, hother⟩ := id hp
  simp only [List.mem_cons, List.not_mem_nil, or_false, not_or] at hother
  have hnumeric : ∀ base digit us, digit p = false → numeric base digit us = (value, left) →
      numeric base digit (us ++ p :: rest) = (value, left ++ p :: rest) := by
    intro base digit us hp hus
    rw [numeric_append hp hother.2.2.2.2, hus]
  unfold reference at h
  split at h
  · next x us =>
    split_ifs at h with hx hhex hx'
    · rw [List.cons_append, List.cons_append, reference, if_pos hx, if_pos ?_]
      · exact congrArg some (hnumeric _ _ _ (not_isHexDigit hp) (Option.some.inj h))
      · cases us with
        | nil => cases hhex
        | cons v us => exact hhex
    · rw [List.cons_append, List.cons_append, reference, if_neg hx, if_pos hx']
      exact congrArg some (hnumeric _ _ (x :: us) (by simpa using hdigit) (Option.some.inj h))
  -- no name is longer than the text
  · next hhash =>
    obtain ⟨e, he, heq⟩ := Option.map_eq_some_iff.mp h
    obtain ⟨rfl, rfl⟩ := Prod.mk.inj heq
    have hprefix : e.1 <+: us := by
      have hmem : e ∈ refs.table.filter fun e => e.1.isPrefixOf us := List.argmax_mem he
      exact List.isPrefixOf_iff_prefix.mp (List.mem_filter.mp hmem).2
    have hname : e.1 ≠ [] :=
      refs.name_ne_nil e (List.mem_filter.mp (List.argmax_mem he)).1
    cases us with
    | nil => exact absurd (List.prefix_nil.mp hprefix) hname
    | cons u us =>
      have hu : u ≠ 0x23 := by
        rintro rfl
        obtain ⟨v, name, hv⟩ := List.exists_cons_of_ne_nil hname
        rw [hv, List.cons_prefix_cons] at hprefix
        have hmem := (List.mem_filter.mp (List.argmax_mem he)).1
        have hunits := refs.name_units e hmem v (by simp [hv])
        have hhash := hprefix.1
        simp [hhash, isAlpha, isDigit] at hunits
      rw [List.cons_append, reference_of_ne_hash hu, ← List.cons_append, longest_append hp, he,
        Option.map_some, List.drop_append_of_le_length hprefix.length_le]

section Leading

variable {e r : List ℕ}

/-- The step at a unit that is not literal. -/
theorem leading_cons_le (hliteral : ¬ Literal refs u (e ++ 0x3c :: r)) (hcr : u ≠ 0x0d)
    (ih : ∀ e', e'.length ≤ e.length →
      leading (tokens refs (e' ++ 0x3c :: r)) ≤ e'.length) :
    leading (tokens refs (u :: e ++ 0x3c :: r)) ≤ e.length := by
  have hboundary : Boundary 0x3c := by decide
  rw [List.cons_append, tokens_cons]
  by_cases hopen : u = 0x3c ∧ opensMarkup (e ++ 0x3c :: r)
  · rw [step, if_pos (by simpa using hopen)]
    rcases markup_cases (e ++ 0x3c :: r) with ⟨t, rest, hmarkup, ht⟩ | hmarkup | ⟨us', hus, hmarkup⟩
    · rw [hmarkup, List.singleton_append, leading_of_not_isChar ht]
      exact Nat.zero_le _
    · rw [hmarkup, tokens_nil, List.append_nil, leading_nil]
      exact Nat.zero_le _
    -- `</>` is inside the text, since it does not begin as the rest does
    · obtain ⟨e', rfl, rfl⟩ : ∃ e', e = 0x2f :: 0x3e :: e' ∧ us' = e' ++ 0x3c :: r := by
        match e, hus with
        | [], hus => cases hus
        | [_], hus => simp at hus
        | _ :: _ :: e', hus =>
          simp only [List.cons_append, List.cons.injEq] at hus
          exact ⟨e', by rw [hus.1, hus.2.1], hus.2.2.symm⟩
      rw [hmarkup, List.nil_append]
      exact (ih e' (by simp only [List.length_cons]; omega)).trans
        (by simp only [List.length_cons]; omega)
  have hclosed : ¬ (u = 0x3c && opensMarkup (e ++ 0x3c :: r)) = true := by simpa using hopen
  by_cases hrefers : u = 0x26 ∧ refers refs (e ++ 0x3c :: r)
  · rw [step, if_neg hclosed, if_pos (by simpa using hrefers)]
    obtain ⟨value, rest, href⟩ := exists_reference ((refers_append hboundary) ▸ hrefers.2)
    have hlength := length_reference href
    rw [reference_append hboundary href]
    dsimp only
    have hrest := ih rest (by omega)
    rw [leading_chars]
    omega
  have hplain : ¬ (u = 0x26 && refers refs (e ++ 0x3c :: r)) = true := by simpa using hrefers
  have hnul : u = 0 := by
    by_contra hnul
    exact hliteral ⟨hnul, hcr, fun hu => by simpa [hu] using hopen,
      fun hu => by simpa [hu] using hrefers⟩
  rw [step, if_neg hclosed, if_neg hplain, if_neg hcr, if_pos hnul, List.nil_append]
  exact ih e le_rfl

/-- In front of a tag a text gives at most as many characters as it has. -/
theorem leading_tokens_le (hr : leading (tokens refs (0x3c :: r)) = 0) (e : List ℕ) :
    leading (tokens refs (e ++ 0x3c :: r)) ≤ e.length := by
  induction hn : e.length using Nat.strong_induction_on generalizing e with
  | _ n ih =>
    subst hn
    cases e with
    | nil => exact hr.le
    | cons u e =>
      have hshorter : ∀ e', e'.length ≤ e.length →
          leading (tokens refs (e' ++ 0x3c :: r)) ≤ e'.length :=
        fun e' he' => ih e'.length (Nat.lt_succ_of_le he') e' rfl
      by_cases hliteral : Literal refs u (e ++ 0x3c :: r)
      · rw [List.cons_append, tokens_cons, step_literal hliteral, List.singleton_append,
          leading_char, List.length_cons]
        exact Nat.succ_le_succ (hshorter e le_rfl)
      by_cases hcr : u = 0x0d
      -- a carriage return takes a line feed along
      · subst hcr
        rw [List.cons_append, tokens_cons, step, if_neg (by simp), if_neg (by simp), if_pos rfl,
          List.singleton_append, leading_char, List.length_cons]
        refine Nat.succ_le_succ ?_
        split
        · next hfeed =>
          cases e with
          | nil => simp at hfeed
          | cons v e => exact (hshorter e (Nat.le_succ _)).trans (Nat.le_succ _)
        · exact hshorter e le_rfl
      · exact (leading_cons_le hliteral hcr hshorter).trans (Nat.le_succ _)

/-- A text that is its own characters in front of a tag is inert. -/
theorem inert_of_tokens {ts : List Token} (hr : leading (tokens refs (0x3c :: r)) = 0)
    (h : tokens refs (e ++ 0x3c :: r) = e.map .char ++ ts) : Inert refs e := by
  induction e with
  | nil => exact ⟨trivial, by simp⟩
  | cons u e ih =>
    have hboundary : Boundary 0x3c := by decide
    by_cases hliteral : Literal refs u (e ++ 0x3c :: r)
    · rw [List.cons_append, tokens_cons, step_literal hliteral] at h
      obtain ⟨hnul, hcr, hopen, hrefers⟩ := hliteral
      obtain ⟨hunmarked, hkept⟩ := ih (by simpa using h)
      refine ⟨⟨fun hu v hv hopens => ?_, fun hu => ?_, hunmarked⟩,
        List.forall_mem_cons.mpr ⟨⟨hnul, hcr⟩, hkept⟩⟩
      · obtain ⟨e', rfl⟩ := List.head?_eq_some_iff.mp (Option.mem_def.mp hv)
        have hclosed := hopen hu
        rw [List.cons_append, opensMarkup_of_opens hopens (by simp)] at hclosed
        cases hclosed
      · exact (refers_append hboundary).symm.trans (hrefers hu)
    by_cases hcr : u = 0x0d
    · subst hcr
      rw [List.cons_append, tokens_cons, step, if_neg (by simp), if_neg (by simp), if_pos rfl] at h
      exact absurd (Token.char.inj (List.cons.inj h).1) (by decide)
    -- the unit is dropped or makes a tag, and then there are too few characters
    · have hle := leading_cons_le hliteral hcr fun e' _ => leading_tokens_le hr e'
      rw [h, leading_chars, List.length_cons] at hle
      omega

end Leading

/-- A reference stays one when more input follows. -/
theorem refers_of_append (h : refers refs us) (rest : List ℕ) : refers refs (us ++ rest) := by
  have hname : ∀ us : List ℕ, (refs.table.any fun e => e.1.isPrefixOf us) →
      refs.table.any fun e => e.1.isPrefixOf (us ++ rest) := by
    intro us hus
    obtain ⟨e, he, hprefix⟩ := List.any_eq_true.mp hus
    refine List.any_eq_true.mpr ⟨e, he, List.isPrefixOf_iff_prefix.mpr ?_⟩
    exact (List.isPrefixOf_iff_prefix.mp hprefix).trans (List.prefix_append us rest)
  -- more text behind a reference leaves it one
  cases us with
  | nil =>
    obtain ⟨e, he, hprefix⟩ := List.any_eq_true.mp h
    exact absurd (List.prefix_nil.mp (List.isPrefixOf_iff_prefix.mp hprefix))
      (refs.name_ne_nil e he)
  | cons u us =>
    by_cases hu : u = 0x23
    · subst hu
      cases us with
      | nil =>
        rw [refers_hash] at h
        cases h
      | cons x us =>
        simp only [List.cons_append, refers] at h ⊢
        split_ifs at h ⊢
        · cases us with
          | nil => cases h
          | cons v us => exact h
        · exact h
    · rw [refers_of_ne_hash hu] at h
      rw [List.cons_append, refers_of_ne_hash hu]
      exact hname (u :: us) h

/-- What stands before the end of a text without markup has none. -/
theorem Unmarked.take {e : List ℕ} (h : Unmarked refs e) (n : ℕ) : Unmarked refs (e.take n) := by
  induction e generalizing n with
  | nil => simpa using h
  | cons u e ih =>
    cases n with
    | zero => trivial
    | succ n =>
      obtain ⟨hopen, hrefers, he⟩ := h
      refine ⟨fun hu v hv => hopen hu v ?_, fun hu => ?_, ih he n⟩
      · cases e with
        | nil => simp at hv
        | cons w e =>
          cases n with
          | zero => simp at hv
          | succ n => simpa using hv
      · refine Bool.eq_false_iff.mpr fun hr => ?_
        have hwhole := refers_of_append hr (e.drop n)
        rw [List.take_append_drop, hrefers hu] at hwhole
        cases hwhole

theorem Unmarked.append {e : List ℕ} (h : Unmarked refs e) (hp : Boundary p)
    (hrest : Unmarked refs (p :: rest)) : Unmarked refs (e ++ p :: rest) := by
  induction e with
  | nil => exact hrest
  | cons u e ih =>
    obtain ⟨hopen, hrefers, he⟩ := h
    refine ⟨fun hu v hv => ?_, fun hu => (refers_append hp).trans (hrefers hu), ih he⟩
    cases e with
    | nil =>
      obtain rfl : p = v := by simpa using hv
      exact opens_of_boundary hp
    | cons w e => exact hopen hu v (by simpa using hv)

/-- A text may go on at a boundary. -/
theorem Inert.append {e : List ℕ} (h : Inert refs e) (hp : Boundary p)
    (hrest : Inert refs (p :: rest)) : Inert refs (e ++ p :: rest) :=
  ⟨h.unmarked.append hp hrest.unmarked, fun u hu => (List.mem_append.mp hu).elim (h.kept u)
    (hrest.kept u)⟩

theorem Inert.take {e : List ℕ} (h : Inert refs e) (n : ℕ) : Inert refs (e.take n) :=
  ⟨h.unmarked.take n, fun u hu => h.kept u (List.mem_of_mem_take hu)⟩

theorem inert_of_plain {e : List ℕ} (h : ∀ u ∈ e, u ≠ 0 ∧ u ≠ 0x0d ∧ u ≠ 0x3c ∧ u ≠ 0x26) :
    Inert refs e := by
  refine ⟨?_, fun u hu => ⟨(h u hu).1, (h u hu).2.1⟩⟩
  induction e with
  | nil => trivial
  | cons u e ih =>
    rw [List.forall_mem_cons] at h
    obtain ⟨⟨-, -, hlt, hamp⟩, he⟩ := h
    exact ⟨fun hu => absurd hu hlt, fun hu => absurd hu hamp, ih he⟩

end Text.Html
