import Gallery.Theorems.LiveText

/-!
# User text as markup

The partials escape, so every body shows as itself there, up to the characters a
browser never keeps. The scripts do not: a body shows as itself exactly if it is
inert, and so is the address in front of it. A pushed message cannot be markup, since
`to_json` has escaped it, but for the same reason it shows as itself only if it is
plain, and in the notification, which keeps the quotes, never.

## Main results

* `comment_places` — the bodies that every place shows
* `message_place` — the texts that a place shows
* `user_text` — both together
-/

namespace Gallery

open Rails
open Text (utf16 utf16_injective)
open Text.Html
open Text.Json (Writer Encoder isPlain standard)

variable {refs : Text.Html.References}

/-! ### Units of texts -/

/-- Truncating puts in nothing but dots. -/
theorem mem_utf16_truncate {body : String} {length u : ℕ}
    (h : u ∈ utf16 (truncate body length).toList) : u ∈ utf16 body.toList ∨ u = 0x2e := by
  unfold truncate at h
  split at h
  · rw [String.toList_append, String.toList_ofList, Text.utf16_append, List.mem_append] at h
    rcases h with h | h
    · obtain ⟨c, hc, hu⟩ := List.mem_flatMap.mp h
      exact .inl (List.mem_flatMap.mpr ⟨c, List.mem_of_mem_take hc, hu⟩)
    · right
      have hdots : utf16 "...".toList = [0x2e, 0x2e, 0x2e] := by decide
      rw [hdots] at h
      simpa using h
  · exact .inl h

/-- A JSON encoder writes no unit of markup. -/
theorem plain_escaped (E : Encoder) (text : List Char) :
    ∀ u ∈ utf16 (E.escaped text), u ≠ 0 ∧ u ≠ 0x0d ∧ u ≠ 0x3c ∧ u ≠ 0x26 := by
  intro u hu
  obtain ⟨d, hd, hu⟩ := List.mem_flatMap.mp hu
  obtain ⟨c, -, hd⟩ := List.mem_flatMap.mp hd
  obtain ⟨hcontrol, hlt, hamp⟩ := E.safe c d hd
  rcases Text.eq_or_le_of_mem_units hu with rfl | hsurrogate
  · refine ⟨by omega, by omega, fun h => hlt ?_, fun h => hamp ?_⟩
    · exact Char.toNat_inj.mp h
    · exact Char.toNat_inj.mp h
  · omega

/-- Nor are the quotes of a literal markup. -/
theorem plain_encode (E : Encoder) (text : List Char) :
    ∀ u ∈ utf16 (E.encode text), u ≠ 0 ∧ u ≠ 0x0d ∧ u ≠ 0x3c ∧ u ≠ 0x26 := by
  have hquote : Text.units '"' = [0x22] := by decide
  intro u hu
  simp only [Writer.encode, Text.utf16_cons, Text.utf16_append, Text.utf16_nil, hquote,
    List.mem_append, List.mem_cons, List.not_mem_nil, or_false] at hu
  rcases hu with (rfl | hu) | rfl
  · decide
  · exact plain_escaped E text u hu
  · decide

/-! ### Comments -/

section Comments

/-- The pieces in front of the row's address. -/
def CommentPlace.row_lead (b : Beside) : List Piece :=
  [.tag (ascii "tr class = 'comment'"), .tag (ascii "td"), .tag (ascii "h6"),
    .text (ascii " "), .text b.language.javatime, .endTag (ascii "h6"), .endTag (ascii "td"),
    .tag (ascii "td")]

theorem row_lead_wellFormed (b : Beside) : ∀ p ∈ CommentPlace.row_lead b, p.wellFormed := by
  simp only [CommentPlace.row_lead, List.forall_mem_cons, List.not_mem_nil, false_implies,
    implies_true, and_true]
  exact ⟨by decide, by decide, by decide, by decide, b.language.javatime_wellFormed, by decide,
    by decide, by decide⟩

variable {esc : Escaper refs} {b : Beside} {body : String}

/-- A place without an address depends on the text alone. -/
theorem comment_shows_iff {place : CommentPlace} (h : place ≠ .row) {inserted text : List ℕ} :
    (place.surroundings b).Shows refs inserted text ↔
      ((place.surroundings b).behind []).Shows refs inserted text :=
  Surroundings.shows_behind_iff (place.before_wellFormed b h) (List.append_nil _).symm

/-- The row shows a body as itself exactly if address and body are inert. -/
theorem row_shows_iff :
    (CommentPlace.row.surroundings b).Shows refs (utf16 body.toList) (utf16 body.toList) ↔
      Inert refs b.email ∧ Inert refs (utf16 body.toList) := by
  have hbehind : ∀ p ∈ [Piece.endTag (ascii "br"), .endTag (ascii "td"), .tag (ascii "td")],
      p.wellFormed := by decide
  rw [Surroundings.shows_behind_iff (row_lead_wellFormed b) rfl,
    Surroundings.shows_text_iff (by decide) rfl,
    Surroundings.shows_behind_iff hbehind (List.append_nil _).symm,
    Surroundings.shows_self_iff rfl (.inl rfl)]

/-- Dots go on no markup. -/
theorem inert_append_dots {e : List ℕ} (h : Inert refs e) : Inert refs (e ++ ascii "...") := by
  have hdots : ascii "..." = [0x2e, 0x2e, 0x2e] := by decide
  rw [hdots]
  exact h.append (by decide) (inert_of_plain (by decide))

/-- Every place shows a body as it should exactly if body and address are inert, and the
script cuts the body where the server does. -/
theorem comment_places (esc : Escaper refs) (b : Beside) (body : String) :
    (∀ place : CommentPlace,
      (place.surroundings b).Shows refs (place.inserted esc body) (place.shown body)) ↔
    Inert refs (utf16 body.toList) ∧ Inert refs b.email ∧ Cut body := by
  have hbox : Inert refs (utf16 body.toList) →
      (CommentPlace.box.surroundings b).Shows refs
        ((utf16 body.toList).take 27 ++ ascii "...") ((utf16 body.toList).take 27 ++ ascii "...") :=
    fun hbody => (comment_shows_iff (by decide)).mpr
      ((Surroundings.shows_self_iff rfl (.inl rfl)).mpr (inert_append_dots (hbody.take 27)))
  constructor
  · intro h
    obtain ⟨hemail, hbody⟩ := row_shows_iff.mp (h .row)
    exact ⟨hbody, hemail, cut_iff.mp ((hbox hbody).unique (h .box))⟩
  · rintro ⟨hbody, hemail, hcut⟩ place
    cases place with
    | box =>
      have hshown := hbox hbody
      nth_rewrite 2 [cut_iff.mpr hcut] at hshown
      exact hshown
    | empty_box =>
      exact (comment_shows_iff (by decide)).mpr
        ((Surroundings.shows_self_iff rfl (.inl rfl)).mpr hbody)
    | row => exact row_shows_iff.mpr ⟨hemail, hbody⟩
    | server_box =>
      refine (comment_shows_iff (by decide)).mpr
        (Surroundings.shows_escaped esc rfl fun u hu => ?_)
      rcases mem_utf16_truncate hu with hu | rfl
      · exact hbody.kept u hu
      · decide
    | server_row =>
      exact (comment_shows_iff (by decide)).mpr (Surroundings.shows_escaped esc rfl hbody.kept)

end Comments

/-! ### Messages -/

section Messages

/-- What an address must be like that stands in front of a message. -/
def MessagePlace.Carries (refs : Text.Html.References) (email : List ℕ) : MessagePlace → Prop
  | notification | pushed_first => Inert refs email
  | pushed | loaded_opponent => 0x27 ∉ email
  | echoed | loaded_me => True

/-- What a text must be like. -/
def MessagePlace.Renders (refs : Text.Html.References) (text : String) : MessagePlace → Prop
  | notification => False
  | pushed | pushed_first => ∀ c ∈ text.toList, isPlain c
  | echoed | loaded_me | loaded_opponent => Inert refs (utf16 text.toList)

variable {b : Beside} {inserted shown : List ℕ}

/-- A place shows what is inserted if it could do so without the address in front, and the
address does no harm. -/
theorem message_shows_iff (place : MessagePlace) :
    (place.surroundings b).Shows refs inserted shown ↔
      place.Carries refs b.email ∧
        ((place.surroundings b).behind []).Shows refs inserted shown := by
  have hopen : ∀ p ∈ [Piece.tag (ascii "p class='messages_show_all'"), .tag (ascii "span")],
      p.wellFormed := by decide
  have hspan : ∀ p ∈ [Piece.endTag (ascii "span")], p.wellFormed := by decide
  -- one's own lines have no address
  have hme : ∀ p ∈ MessagePlace.echoed.before b, p.wellFormed := by
    simp only [MessagePlace.before]
    decide
  have hopponent : ∀ p ∈ [Piece.text (ascii "Opponent"), .endTag (ascii "a"),
      .endTag (ascii "span")], p.wellFormed := by decide
  cases place with
  | notification =>
    have hlead : ∀ p ∈ [Piece.tag (ascii "p class='incomming_notification'"),
        .text (ascii "New message from :")], p.wellFormed := by decide
    have hbr : ∀ p ∈ [Piece.endTag (ascii "br")], p.wellFormed := by decide
    rw [Surroundings.shows_behind_iff hlead rfl, Surroundings.shows_text_iff (by decide) rfl,
      Surroundings.shows_behind_iff hbr (List.append_nil _).symm]
    rfl
  | pushed_first =>
    rw [Surroundings.shows_behind_iff hopen rfl, Surroundings.shows_text_iff (by decide) rfl,
      Surroundings.shows_behind_iff hspan (List.append_nil _).symm]
    rfl
  | pushed | loaded_opponent =>
    rw [Surroundings.shows_behind_iff hopen rfl, Surroundings.shows_quoted_iff (by decide) rfl,
      Surroundings.shows_behind_iff hopponent (List.append_nil _).symm]
    rfl
  | echoed | loaded_me =>
    rw [Surroundings.shows_behind_iff hme (List.append_nil _).symm]
    exact (and_iff_right trivial).symm

/-- Behind the address, a place shows a message as it should exactly if the text allows it. -/
theorem message_text_iff (to_json : Encoder) (pusher : Writer) (text : String)
    (place : MessagePlace) :
    ((place.surroundings b).behind []).Shows refs (place.inserted to_json pusher text)
        (utf16 text.toList) ↔
      place.Renders refs text := by
  cases place with
  | notification =>
    -- with its quotes the literal is longer than the text
    refine iff_of_false (fun h => ?_) not_false
    rw [MessagePlace.inserted, received_eq, Option.getD_some] at h
    have hinert : Inert refs _ := inert_of_plain (plain_encode to_json text.toList)
    have hself := (Surroundings.shows_self_iff
      (s := (MessagePlace.notification.surroundings b).behind []) rfl (.inr rfl)).mpr hinert
    have hsame := utf16_injective (h.unique hself)
    have hlength := congrArg List.length hsame
    have hle := to_json.length_le_escaped text.toList
    simp only [Writer.encode, List.length_cons, List.length_append, List.length_nil] at hlength
    omega
  | pushed | pushed_first =>
    have hinert : Inert refs _ := inert_of_plain (plain_escaped to_json text.toList)
    have hself := (Surroundings.shows_self_iff (s := (MessagePlace.pushed.surroundings b).behind [])
      rfl (.inl rfl)).mpr hinert
    rw [MessagePlace.inserted, pushed_eq, Option.getD_some, MessagePlace.Renders,
      ← to_json.escaped_eq_iff]
    constructor
    · exact fun h => utf16_injective (hself.unique h)
    · intro hplain
      nth_rewrite 2 [hplain] at hself
      exact hself
  | echoed => exact Surroundings.shows_self_iff rfl (.inl rfl)
  | loaded_me | loaded_opponent =>
    rw [MessagePlace.inserted, loaded_eq]
    exact Surroundings.shows_self_iff rfl (.inl rfl)

/-- A place shows a message as it should exactly if address and text allow it. -/
theorem message_place (to_json : Encoder) (pusher : Writer) (b : Beside) (text : String)
    (place : MessagePlace) :
    (place.surroundings b).Shows refs (place.inserted to_json pusher text) (utf16 text.toList) ↔
      place.Carries refs b.email ∧ place.Renders refs text := by
  rw [message_shows_iff, message_text_iff]

end Messages

/-- User text shows as itself exactly if it and the address in front of it are inert and, as
a comment, is cut alike or, as a message, is plain where it is pushed; in the notification it
never does. -/
theorem user_text (refs : Text.Html.References) (esc : Escaper refs) (to_json : Encoder)
    (pusher : Writer) (b : Beside) :
    (∀ body : String,
      (∀ place : CommentPlace,
        (place.surroundings b).Shows refs (place.inserted esc body) (place.shown body)) ↔
      Inert refs (utf16 body.toList) ∧ Inert refs b.email ∧ Cut body) ∧
    ∀ (text : String) (place : MessagePlace),
      (place.surroundings b).Shows refs (place.inserted to_json pusher text)
        (utf16 text.toList) ↔
      place.Carries refs b.email ∧ place.Renders refs text :=
  ⟨comment_places esc b, message_place to_json pusher b⟩

/-! ### Concrete texts -/

/-- Picture 1, an e-mail address, and an English page. -/
def Beside.sample : Beside where
  picture := 1
  email := ascii "ada@example.com"
  language := .en

/-- A comment of 34 characters without markup, and a message without markup. -/
theorem user_text_long :
    (∀ place : CommentPlace, (place.surroundings .sample).Shows .basic
      (place.inserted .html_escape "the picture I would have taken too")
      (place.shown "the picture I would have taken too")) ∧
    ∀ place : MessagePlace, place ≠ .notification → (place.surroundings .sample).Shows .basic
      (place.inserted standard standard.toWriter "hello") (utf16 "hello".toList) := by
  obtain ⟨hcomment, hmessage⟩ :=
    user_text .basic .html_escape standard standard.toWriter .sample
  have hbasic : (("the picture I would have taken too".toList.take 27).all fun c =>
      c.toNat < 0x10000) = true := by decide
  have hemail : Inert .basic Beside.sample.email := inert_of_plain (by decide)
  have hplain : ∀ c ∈ "hello".toList, isPlain c := List.all_eq_true.mp (by decide)
  have hhello : Inert .basic (utf16 "hello".toList) := inert_of_plain (by decide)
  refine ⟨(hcomment _).mpr ⟨inert_of_plain (by decide), hemail, .inl ⟨by decide, fun c hc => ?_⟩⟩,
    fun place hplace => (hmessage _ place).mpr ?_⟩
  · exact of_decide_eq_true (List.all_eq_true.mp hbasic c hc)
  · cases place with
    | notification => exact absurd rfl hplace
    | pushed => exact ⟨show 0x27 ∉ Beside.sample.email by decide, hplain⟩
    | pushed_first => exact ⟨hemail, hplain⟩
    | echoed | loaded_me => exact ⟨trivial, hhello⟩
    | loaded_opponent => exact ⟨show 0x27 ∉ Beside.sample.email by decide, hhello⟩

/-- A comment the model accepts whose tags become elements. -/
theorem comment_becomes_markup :
    Comment.validBody (some "<b>hi</b>") ∧
      ¬ ∀ place : CommentPlace, (place.surroundings .sample).Shows .basic
        (place.inserted .html_escape "<b>hi</b>") (place.shown "<b>hi</b>") := by
  refine ⟨by decide, fun h => ?_⟩
  obtain ⟨hinert, -⟩ := (comment_places .html_escape .sample "<b>hi</b>").mp h
  exact hinert.unmarked.1 (by decide) 0x62 (by decide) (.inl (by decide))

end Gallery
