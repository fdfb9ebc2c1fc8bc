import Gallery.Text.Html.Inert

/-!
# Inserting a text between fixed pieces

A page inserts a text between tags and texts of its own. `Surroundings` are such
pieces. Those that are well-formed are closed in themselves, so that they parse alike
whatever stands between them; a text or an attribute value that comes from elsewhere need
not be.

## Main definitions

* `Piece`, `Surroundings` — the HTML around an inserted text
* `Surroundings.Shows` — the whole parses to the surroundings and the text

## Main results

* `Surroundings.shows_self_iff` — a text shows as itself exactly if it is inert
* `Surroundings.shows_text_iff`, `Surroundings.shows_quoted_iff` — what a text and an
  attribute value in front of it must be like
-/

namespace Text.Html

/-- A piece of the HTML around an inserted text. -/
inductive Piece
  | tag (raw : List ℕ)
  | endTag (raw : List ℕ)
  | text (s : List ℕ)
  /-- A tag that ends in an attribute with the value in single quotes. -/
  | quoted (opening value : List ℕ)
deriving DecidableEq, Repr

namespace Piece

def units : Piece → List ℕ
  | tag raw => 0x3c :: raw ++ [0x3e]
  | endTag raw => 0x3c :: 0x2f :: raw ++ [0x3e]
  | text s => s
  | quoted opening value => 0x3c :: (opening ++ value ++ [0x27]) ++ [0x3e]

def tokens : Piece → List Token
  | tag raw => [.tag raw]
  | endTag raw => [.endTag raw]
  | text s => s.map .char
  | quoted opening value => [.tag (opening ++ value ++ [0x27])]

/-- The raw text of a tag that a `>` closes, and nothing before it. -/
def closes (raw : List ℕ) : Bool :=
  raw.head?.any isAlpha &&
    (raw.foldlM (fun s u => TagState.next u s) TagState.name).any fun s => s.next 0x3e = none

/-- The beginning of a tag up to an opening single quote. -/
def quotes (opening : List ℕ) : Bool :=
  opening.head?.any isAlpha &&
    opening.foldlM (fun s u => TagState.next u s) TagState.name = some .singleQuoted

/-- The piece parses to itself, whatever follows. -/
def wellFormed : Piece → Bool
  | tag raw => closes raw
  | endTag raw => closes raw
  | text s => s.all fun u => u ∉ [0, 0x0d, 0x3c, 0x26]
  | quoted _ _ => false

/-- An attribute value keeps within its quotes. -/
def kept : Piece → Bool
  | quoted _ value => 0x27 ∉ value
  | _ => true

end Piece

/-- Pieces around an inserted text. Those behind it are well-formed. -/
structure Surroundings where
  before : List Piece
  after : List Piece
  after_wellFormed : ∀ p ∈ after, p.wellFormed

namespace Surroundings

variable (s : Surroundings) {refs : References}

/-- The HTML with something inserted. -/
def html (inserted : List ℕ) : List ℕ :=
  s.before.flatMap Piece.units ++ inserted ++ s.after.flatMap Piece.units

/-- The HTML parses to the surroundings with the text between them, and every attribute
value in front keeps within its quotes. -/
def Shows (refs : References) (inserted text : List ℕ) : Prop :=
  (∀ p ∈ s.before, p.kept) ∧
    tokens refs (s.html inserted) =
      s.before.flatMap Piece.tokens ++ text.map .char ++ s.after.flatMap Piece.tokens

/-- The same, without some pieces in front. -/
def behind (before : List Piece) : Surroundings := { s with before := before }

end Surroundings

section Pieces

variable {refs : References}

theorem scanTag_closes {s : TagState} {raw rest : List ℕ}
    (h : (raw.foldlM (fun s u => TagState.next u s) s).any fun s => s.next 0x3e = none) :
    scanTag s (raw ++ 0x3e :: rest) = some (raw, rest) := by
  induction raw generalizing s with
  | nil =>
    have hclose : s.next 0x3e = none := by simpa using h
    rw [List.nil_append, scanTag, hclose]
  | cons u raw ih =>
    rw [List.foldlM_cons] at h
    cases hnext : s.next u with
    | none =>
      rw [hnext] at h
      cases h
    | some s' =>
      rw [hnext] at h
      rw [List.cons_append, scanTag, hnext]
      simp only [ih h, Option.map_some]

theorem step_open (h : opensMarkup us) : step refs 0x3c us = markup us := by
  rw [step, if_pos (by simpa using h)]

theorem markup_alpha {v : ℕ} (hv : isAlpha v) {raw rest : List ℕ}
    (h : scanTag .name (v :: us) = some (raw, rest)) : markup (v :: us) = ([.tag raw], rest) := by
  unfold markup
  split
  · next heq =>
    rw [(List.cons.inj heq).1] at hv
    cases hv
  · next heq =>
    rw [(List.cons.inj heq).1] at hv
    cases hv
  · next heq =>
    rw [(List.cons.inj heq).1] at hv
    cases hv
  · simp only [h]

theorem tokens_tag {raw : List ℕ} (h : Piece.closes raw) (rest : List ℕ) :
    tokens refs (0x3c :: (raw ++ 0x3e :: rest)) = .tag raw :: tokens refs rest := by
  obtain ⟨halpha, hclose⟩ := Bool.and_eq_true_iff.mp h
  cases raw with
  | nil => cases halpha
  | cons v raw =>
    have hv : isAlpha v := by simpa using halpha
    have hscan : scanTag .name (v :: (raw ++ 0x3e :: rest)) = some (v :: raw, rest) :=
      scanTag_closes hclose
    have hopens : opensMarkup ((v :: raw) ++ 0x3e :: rest) :=
      opensMarkup_of_opens (.inl hv) (by simp)
    rw [tokens_cons, step_open hopens, List.cons_append, markup_alpha hv hscan]
    rfl

theorem tokens_endTag {raw : List ℕ} (h : Piece.closes raw) (rest : List ℕ) :
    tokens refs (0x3c :: 0x2f :: (raw ++ 0x3e :: rest)) = .endTag raw :: tokens refs rest := by
  obtain ⟨halpha, hclose⟩ := Bool.and_eq_true_iff.mp h
  have hhead : (raw ++ 0x3e :: rest).head?.any isAlpha := by
    cases raw with
    | nil => cases halpha
    | cons v raw => exact halpha
  have hscan : scanTag .name (raw ++ 0x3e :: rest) = some (raw, rest) := scanTag_closes hclose
  have hopens : opensMarkup (0x2f :: (raw ++ 0x3e :: rest)) :=
    opensMarkup_of_opens (.inr (by simp)) (by simp)
  rw [tokens_cons, step_open hopens, markup]
  simp only [hhead, ite_true, hscan]
  rfl

/-- A well-formed piece parses to its tokens, whatever follows. -/
theorem tokens_piece {p : Piece} (h : p.wellFormed) (rest : List ℕ) :
    tokens refs (p.units ++ rest) = p.tokens ++ tokens refs rest := by
  cases p with
  | tag raw => simpa [Piece.units, Piece.tokens] using tokens_tag h rest
  | endTag raw => simpa [Piece.units, Piece.tokens] using tokens_endTag h rest
  | text s =>
    induction s with
    | nil => rfl
    | cons u s ih =>
      simp only [Piece.wellFormed, List.all_cons, Bool.and_eq_true, decide_eq_true_eq,
        List.mem_cons, List.not_mem_nil, or_false, not_or] at h ih
      obtain ⟨⟨hnul, hcr, hlt, hamp⟩, hs⟩ := h
      have hliteral : Literal refs u (s ++ rest) :=
        ⟨hnul, hcr, fun hu => absurd hu hlt, fun hu => absurd hu hamp⟩
      have hrest := ih hs
      simp only [Piece.units, Piece.tokens] at hrest ⊢
      rw [List.cons_append, tokens_cons, step_literal hliteral, hrest]
      rfl
  | quoted opening value => cases h

theorem tokens_pieces (refs : References) {ps : List Piece} (h : ∀ p ∈ ps, p.wellFormed)
    (rest : List ℕ) :
    tokens refs (ps.flatMap Piece.units ++ rest) =
      ps.flatMap Piece.tokens ++ tokens refs rest := by
  induction ps with
  | nil => rfl
  | cons p ps ih =>
    rw [List.forall_mem_cons] at h
    rw [List.flatMap_cons, List.append_assoc, tokens_piece h.1, ih h.2, List.flatMap_cons,
      List.append_assoc]

theorem Piece.kept_of_wellFormed {p : Piece} (h : p.wellFormed) : p.kept := by
  cases p with
  | quoted opening value => cases h
  | _ => rfl

/-- Where a tag comes first there is no character in front of it. -/
theorem leading_tag {r : List ℕ} {t : Token} {ts : List Token} (ht : t.isChar = false)
    (h : tokens refs (0x3c :: r) = t :: ts) : leading (tokens refs (0x3c :: r)) = 0 := by
  rw [h, leading_of_not_isChar ht]

end Pieces

/-! ### Attributes in quotes -/

/-- A value in single quotes stays inside them. -/
theorem foldlM_singleQuoted {value : List ℕ} (h : 0x27 ∉ value) :
    value.foldlM (fun s u => TagState.next u s) TagState.singleQuoted = some .singleQuoted := by
  induction value with
  | nil => rfl
  | cons u value ih =>
    rw [List.mem_cons, not_or] at h
    rw [List.foldlM_cons, TagState.next, if_neg (Ne.symm h.1)]
    exact ih h.2

theorem foldlM_doubleQuoted {value : List ℕ} (h : 0x22 ∉ value) :
    value.foldlM (fun s u => TagState.next u s) TagState.doubleQuoted = some .doubleQuoted := by
  induction value with
  | nil => rfl
  | cons u value ih =>
    rw [List.mem_cons, not_or] at h
    rw [List.foldlM_cons, TagState.next, if_neg (Ne.symm h.1)]
    exact ih h.2

/-- A tag with an attribute value in quotes. -/
theorem closes_of_quoted {opening value closing : List ℕ} {quoted : TagState}
    (halpha : opening.head?.any isAlpha)
    (hopening : opening.foldlM (fun s u => TagState.next u s) .name = some quoted)
    (hvalue : value.foldlM (fun s u => TagState.next u s) quoted = some quoted)
    (hclosing : (closing.foldlM (fun s u => TagState.next u s) quoted).any
      fun s => s.next 0x3e = none) :
    Piece.closes (opening ++ value ++ closing) := by
  have hhead : (opening ++ value ++ closing).head? = opening.head? := by
    cases opening with
    | nil => cases halpha
    | cons u opening => rfl
  rw [Piece.closes, hhead, halpha, List.foldlM_append, List.foldlM_append, hopening]
  simpa [hvalue] using hclosing

/-! ### What shows -/

namespace Surroundings

variable {s : Surroundings} {refs : References} {inserted text : List ℕ}

/-- Well-formed pieces in front make no difference. -/
theorem shows_behind_iff {ps qs : List Piece} (hps : ∀ p ∈ ps, p.wellFormed)
    (hs : s.before = ps ++ qs) :
    s.Shows refs inserted text ↔ (s.behind qs).Shows refs inserted text := by
  have hkept : (∀ p ∈ s.before, p.kept) ↔ ∀ p ∈ qs, p.kept := by
    rw [hs, List.forall_mem_append]
    exact and_iff_right fun p hp => Piece.kept_of_wellFormed (hps p hp)
  have hhtml : s.html inserted = ps.flatMap Piece.units ++ (s.behind qs).html inserted := by
    simp [html, behind, hs]
  have htokens : s.before.flatMap Piece.tokens ++ text.map .char ++ s.after.flatMap Piece.tokens =
      ps.flatMap Piece.tokens ++ ((s.behind qs).before.flatMap Piece.tokens ++
        text.map .char ++ (s.behind qs).after.flatMap Piece.tokens) := by
    simp [behind, hs]
  rw [Shows, Shows, hkept, hhtml, htokens, tokens_pieces refs hps]
  exact and_congr_right fun _ => List.append_right_inj _

/-- With nothing in front, only what follows can spoil a text. -/
theorem shows_iff (hs : s.before = []) :
    s.Shows refs inserted text ↔
      tokens refs (inserted ++ s.after.flatMap Piece.units) =
        text.map .char ++ s.after.flatMap Piece.tokens := by
  simp [Shows, html, hs]

/-- A tag behind the text begins with a `<`, and shows as itself. -/
theorem after_tag (refs : References) {raw : List ℕ} {ps : List Piece}
    (h : s.after = .endTag raw :: ps ∨ s.after = .tag raw :: ps) :
    ∃ r, s.after.flatMap Piece.units = 0x3c :: r ∧
      tokens refs (0x3c :: r) = s.after.flatMap Piece.tokens ∧
        leading (tokens refs (0x3c :: r)) = 0 := by
  have hafter : tokens refs (s.after.flatMap Piece.units) = s.after.flatMap Piece.tokens := by
    simpa using tokens_pieces refs s.after_wellFormed []
  rcases h with h | h
  · rw [h] at hafter ⊢
    exact ⟨_, rfl, hafter, leading_tag rfl hafter⟩
  · rw [h] at hafter ⊢
    exact ⟨_, rfl, hafter, leading_tag rfl hafter⟩

/-- A text that is inserted as it is parses to itself exactly if it is inert. -/
theorem shows_self_iff (hs : s.before = []) {raw : List ℕ} {ps : List Piece}
    (hafter : s.after = .endTag raw :: ps ∨ s.after = .tag raw :: ps) :
    s.Shows refs text text ↔ Inert refs text := by
  obtain ⟨r, hunits, htokens, hleading⟩ := after_tag refs hafter
  rw [shows_iff hs, hunits, ← htokens]
  exact ⟨inert_of_tokens hleading, fun h => tokens_inert h (by decide)⟩

/-- What the whole parses to determines the text. -/
theorem Shows.unique {text' : List ℕ} (h : s.Shows refs inserted text)
    (h' : s.Shows refs inserted text') : text = text' := by
  have htokens := h.2.symm.trans h'.2
  rw [List.append_assoc, List.append_assoc] at htokens
  have hchars : text.map Token.char = text'.map Token.char :=
    List.append_cancel_right (List.append_cancel_left htokens)
  exact List.map_injective_iff.mpr (fun _ _ => Token.char.inj) hchars

/-- A text from elsewhere, in front of an end tag. -/
theorem shows_text_iff {e raw : List ℕ} {qs : List Piece} (hraw : Piece.closes raw)
    (hs : s.before = .text e :: .endTag raw :: qs) :
    s.Shows refs inserted text ↔
      Inert refs e ∧ (s.behind (.endTag raw :: qs)).Shows refs inserted text := by
  obtain ⟨r, hr⟩ : ∃ r, (s.behind (.endTag raw :: qs)).html inserted = 0x3c :: r := ⟨_, rfl⟩
  have hhtml : s.html inserted = e ++ 0x3c :: r := by
    rw [← hr]
    simp [html, behind, hs, Piece.units]
  have hleading : leading (tokens refs (0x3c :: r)) = 0 := by
    refine leading_tag rfl (?_ : _ = .endTag raw ::
      tokens refs (qs.flatMap Piece.units ++ inserted ++ s.after.flatMap Piece.units))
    rw [← hr, ← tokens_endTag hraw]
    simp [html, behind, Piece.units]
  have htokens : s.before.flatMap Piece.tokens ++ text.map .char ++ s.after.flatMap Piece.tokens =
      e.map .char ++ ((s.behind (.endTag raw :: qs)).before.flatMap Piece.tokens ++
        text.map .char ++ (s.behind (.endTag raw :: qs)).after.flatMap Piece.tokens) := by
    simp [behind, hs, Piece.tokens]
  have hkept : (∀ p ∈ s.before, p.kept) ↔ ∀ p ∈ (s.behind (.endTag raw :: qs)).before, p.kept := by
    simp [behind, hs, Piece.kept]
  rw [Shows, Shows, hkept, hhtml, hr, htokens]
  constructor
  · rintro ⟨hquotes, h⟩
    have hinert := inert_of_tokens hleading h
    rw [tokens_inert hinert (by decide)] at h
    exact ⟨hinert, hquotes, List.append_cancel_left h⟩
  · rintro ⟨hinert, hquotes, h⟩
    exact ⟨hquotes, by rw [tokens_inert hinert (by decide), h]⟩

/-- An attribute value from elsewhere. -/
theorem shows_quoted_iff {opening value : List ℕ} {qs : List Piece}
    (hopening : Piece.quotes opening) (hs : s.before = .quoted opening value :: qs) :
    s.Shows refs inserted text ↔ 0x27 ∉ value ∧ (s.behind qs).Shows refs inserted text := by
  have hkept : (∀ p ∈ s.before, p.kept) ↔ 0x27 ∉ value ∧ ∀ p ∈ (s.behind qs).before, p.kept := by
    simp [behind, hs, Piece.kept]
  rw [Shows, Shows, hkept, and_assoc]
  refine and_congr_right fun hvalue => and_congr_right fun _ => ?_
  have hcloses : Piece.closes (opening ++ value ++ [0x27]) := by
    obtain ⟨halpha, hquotes⟩ := Bool.and_eq_true_iff.mp hopening
    exact closes_of_quoted halpha (of_decide_eq_true hquotes) (foldlM_singleQuoted hvalue)
      (by decide)
  have hhtml : s.html inserted =
      0x3c :: ((opening ++ value ++ [0x27]) ++ 0x3e :: (s.behind qs).html inserted) := by
    simp [html, behind, hs, Piece.units]
  rw [hhtml, tokens_tag hcloses]
  simp [behind, hs, Piece.tokens]

end Surroundings

/-! ### Escaping -/

/-- The quote characters and the characters of markup. -/
def specials : List ℕ := [0x26, 0x3c, 0x3e, 0x22, 0x27]

/-- A way of escaping the special characters so that they read as themselves. -/
structure Escaper (refs : References) where
  escape : ℕ → List ℕ
  plain : ∀ u, u ∉ specials → escape u = [u]
  reads : ∀ u ∈ specials, ∀ us, tokens refs (escape u ++ us) = .char u :: tokens refs us

def Escaper.escaped {refs : References} (esc : Escaper refs) (text : List ℕ) : List ℕ :=
  text.flatMap esc.escape

/-- Whatever is no special character stays, and is itself unless the browser
replaces or drops it. -/
theorem Escaper.tokens_escape {refs : References} (esc : Escaper refs) {u : ℕ}
    (hu : u ≠ 0 ∧ u ≠ 0x0d) (us : List ℕ) :
    tokens refs (esc.escape u ++ us) = .char u :: tokens refs us := by
  by_cases hspecial : u ∈ specials
  · exact esc.reads u hspecial us
  · have hliteral : Literal refs u us := by
      refine ⟨hu.1, hu.2, fun h => absurd ?_ hspecial, fun h => absurd ?_ hspecial⟩
      · simp [h, specials]
      · simp [h, specials]
    rw [esc.plain u hspecial, List.singleton_append, tokens_cons, step_literal hliteral]
    rfl

/-- An escaped text shows as the text. -/
theorem Surroundings.shows_escaped {s : Surroundings} {refs : References} (esc : Escaper refs)
    {text : List ℕ} (hs : s.before = []) (h : ∀ u ∈ text, u ≠ 0 ∧ u ≠ 0x0d) :
    s.Shows refs (esc.escaped text) text := by
  have hrest : tokens refs (s.after.flatMap Piece.units) = s.after.flatMap Piece.tokens := by
    simpa using tokens_pieces refs s.after_wellFormed []
  rw [Surroundings.shows_iff hs]
  induction text with
  | nil => exact hrest
  | cons u text ih =>
    rw [List.forall_mem_cons] at h
    rw [Escaper.escaped, List.flatMap_cons, List.append_assoc, esc.tokens_escape h.1]
    exact congrArg (List.cons _) (ih h.2)

/-- Only a line feed is escaped as one. -/
theorem Escaper.eq_of_head_escape {refs : References} (esc : Escaper refs) {u : ℕ} {us : List ℕ}
    (h : (esc.escape u ++ us).head? = some 0x0a) : u = 0x0a := by
  by_cases hspecial : u ∈ specials
  · obtain ⟨vs, hvs⟩ := List.head?_eq_some_iff.mp h
    have hreads := esc.reads u hspecial us
    have hliteral : Literal refs 0x0a vs := by
      refine ⟨by decide, by decide, fun h => ?_, fun h => ?_⟩ <;> cases h
    rw [hvs, tokens_cons, step_literal hliteral] at hreads
    exact (Token.char.inj (List.cons.inj hreads).1).symm
  · rw [esc.plain u hspecial] at h
    simpa using h

theorem step_nul (refs : References) (us : List ℕ) : step refs 0 us = ([], us) := by
  rw [step, if_neg (by simp), if_neg (by simp), if_neg (by simp), if_pos rfl]

theorem step_cr (refs : References) (us : List ℕ) :
    step refs 0x0d us = ([.char 0x0a], if us.head? = some 0x0a then us.tail else us) := by
  rw [step, if_neg (by simp), if_neg (by simp), if_pos rfl]

/-- A text without markup parses alike, escaped and as it is. -/
theorem Escaper.tokens_escaped {refs : References} (esc : Escaper refs) {e rest : List ℕ} {p : ℕ}
    (h : Unmarked refs e) (hp : Boundary p) :
    tokens refs (esc.escaped e ++ p :: rest) = tokens refs (e ++ p :: rest) := by
  -- a carriage return may take the line feed behind it along
  induction hn : e.length using Nat.strong_induction_on generalizing e with
  | _ n ih =>
    have hescaped : ∀ u us, esc.escaped (u :: us) = esc.escape u ++ esc.escaped us := fun _ _ => rfl
    cases e with
    | nil => rfl
    | cons u e =>
      have hrest := ih e.length (by simp only [List.length_cons] at hn; omega) h.2.2 rfl
      rw [hescaped, List.append_assoc, List.cons_append]
      by_cases hkept : u ≠ 0 ∧ u ≠ 0x0d
      · have hliteral : Literal refs u (e ++ p :: rest) := literal_of_unmarked h hp hkept
        rw [esc.tokens_escape hkept, tokens_cons, step_literal hliteral, hrest]
        rfl
      -- the two units that the tokenizer itself replaces
      obtain rfl | rfl : u = 0 ∨ u = 0x0d := by omega
      · rw [esc.plain 0 (by decide), List.singleton_append, tokens_cons, step_nul, tokens_cons,
          step_nul, hrest]
      rw [esc.plain 0x0d (by decide), List.singleton_append, tokens_cons, step_cr, tokens_cons,
        step_cr]
      apply congrArg (List.cons _)
      cases e with
      | nil => rfl
      | cons v e =>
        by_cases hv : v = 0x0a
        · subst hv
          have htail := ih e.length (by simp only [List.length_cons] at hn; omega) h.2.2.2.2 rfl
          simpa [hescaped, esc.plain 0x0a (by decide)] using htail
        · have hhead : ¬ (esc.escaped (v :: e) ++ p :: rest).head? = some 0x0a := by
            rw [hescaped, List.append_assoc]
            exact fun h => hv (esc.eq_of_head_escape h)
          rw [if_neg hhead, if_neg (by simpa using hv)]
          exact hrest

/-- The references an escaper of markup needs, with and without their semicolons. -/
def References.basic : References where
  table := [(ascii "amp;", [0x26]), (ascii "lt;", [0x3c]), (ascii "gt;", [0x3e]),
    (ascii "quot;", [0x22]), (ascii "amp", [0x26]), (ascii "lt", [0x3c]), (ascii "gt", [0x3e]),
    (ascii "quot", [0x22])]
  name_ne_nil := by decide
  name_units := by decide
  value_le := by decide

/-- `ERB::Util.html_escape` -/
def Escaper.html_escape : Escaper .basic where
  escape u :=
    if u = 0x26 then ascii "&amp;"
    else if u = 0x3c then ascii "&lt;"
    else if u = 0x3e then ascii "&gt;"
    else if u = 0x22 then ascii "&quot;"
    else if u = 0x27 then ascii "&#x27;"
    else [u]
  plain u hu := by
    simp only [specials, List.mem_cons, List.not_mem_nil, or_false, not_or] at hu
    simp [hu]
  reads u hu us := by
    simp only [specials, List.mem_cons, List.not_mem_nil, or_false] at hu
    rcases hu with rfl | rfl | rfl | rfl | rfl <;> exact tokens_cons _ _

end Text.Html
