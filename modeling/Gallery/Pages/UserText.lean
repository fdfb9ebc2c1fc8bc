import Gallery.Pages.LastComments
import Gallery.Text.Html.Surroundings
import Gallery.Text.Json
import Gallery.Pages.Chat

/-!
# Where comments and messages are put into a page

Every place with the HTML around it, the string that is inserted there, and the
text that is meant to show. The scripts concatenate strings; the HAML partials
escape. An e-mail address may stand in front of the text, and it is not escaped by
the scripts either.

## Main definitions

* `CommentPlace`, `MessagePlace` — the places
* `Cut` — the bodies that the script cuts where the server does
* `MessageText.echoed`, `MessageText.loaded`, `MessageText.pushed` — a message's ways
  into a window
-/

namespace Gallery

open Rails
open Text (utf16)
open Text.Html
open Text.Json (Writer Encoder parse)

/-! ### The three ways of a message -/

namespace MessageText

/-- JavaScript's `slice(1,-1)`. -/
def slice (s : List ℕ) : List ℕ := (s.drop 1).dropLast

/-- What `send_message` appends to the sender's window. -/
def echoed (text : String) : List ℕ := utf16 text.toList

/-- `l.text` in `get_chat_messages`: the message rendered as JSON and read. -/
def loaded (to_json : Encoder) (text : String) : Option (List ℕ) :=
  parse (to_json.encode text.toList)

/-- `response.message`, where the server triggers `message.text.to_json` and `pusher`
encodes the payload. -/
def received (to_json : Encoder) (pusher : Writer) (text : String) : Option (List ℕ) :=
  parse (pusher.encode (to_json.encode text.toList))

/-- `response.message.slice(1,-1)` -/
def pushed (to_json : Encoder) (pusher : Writer) (text : String) : Option (List ℕ) :=
  (received to_json pusher text).map slice

end MessageText

/-! ### What else stands there -/

/-- The key of a picture in a link. -/
def digits (n : ℕ) : List ℕ := utf16 (Nat.toDigits 10 n)

theorem isDigit_of_mem_digits {n u : ℕ} (h : u ∈ digits n) : isDigit u := by
  obtain ⟨c, hc, hu⟩ := List.mem_flatMap.mp h
  have hdigit : c.isDigit := Nat.isDigit_of_mem_toDigits (by decide) (by decide) hc
  have hrange : 48 ≤ c.toNat ∧ c.toNat ≤ 57 := by
    simpa [Char.isDigit, UInt32.le_iff_toNat_le] using hdigit
  rw [Text.units_of_lt (by omega), List.mem_singleton] at hu
  simp [isDigit, hu, hrange]

/-- `t('comments.javatime', {count: 1})` -/
def Language.javatime : Language → List ℕ
  | .en => ascii "Posted less than one minute ago"
  | .de => ascii "weniger als eine Minute"

theorem Language.javatime_wellFormed (l : Language) : (Piece.text l.javatime).wellFormed := by
  cases l <;> decide

/-- What a page shows beside the texts: the picture a link leads to, an e-mail
address, and the language of the page. Devise takes any address with one `@` in it. -/
structure Beside where
  picture : ℕ
  email : List ℕ
  language : Language

namespace Beside

variable (b : Beside)

/-- `'/pictures/ID '` and the like. -/
theorem quoted_digits {opening closing : List ℕ} (halpha : opening.head?.any isAlpha)
    (hopening : opening.foldlM (fun s u => TagState.next u s) .name = some .singleQuoted)
    (hclosing : (closing.foldlM (fun s u => TagState.next u s) .singleQuoted).any
      fun s => s.next 0x3e = none) :
    Piece.closes (opening ++ digits b.picture ++ closing) := by
  refine closes_of_quoted halpha hopening (foldlM_singleQuoted fun h => ?_) hclosing
  exact absurd (isDigit_of_mem_digits h) (by decide)

/-- `"/pictures/ID"` -/
theorem double_quoted_digits :
    Piece.closes (ascii "a href=\"/pictures/" ++ digits b.picture ++ ascii "\"") := by
  refine closes_of_quoted (by decide) (by decide) (foldlM_doubleQuoted fun h => ?_) (by decide)
  exact absurd (isDigit_of_mem_digits h) (by decide)

end Beside

/-! ### Comments -/

/-- Where a comment's body stands. -/
inductive CommentPlace
  /-- `test-event`, when the box has an entry -/
  | box
  /-- `test-event`, when the box is empty -/
  | empty_box
  /-- `test-event`, the row of the comment table -/
  | row
  /-- `_last_comments.haml` -/
  | server_box
  /-- `comments/_comment.html.haml` -/
  | server_row
deriving DecidableEq, Repr

namespace CommentPlace

/-- The pieces in front of the body. -/
def before (b : Beside) : CommentPlace → List Piece
  | box => [.tag (ascii "p class='last_comments'"),
      .tag (ascii "a href='/pictures/" ++ digits b.picture ++ ascii " '")]
  | empty_box => [.tag (ascii "p class='last_comments'"),
      .tag (ascii "a href=' " ++ digits b.picture ++ ascii " '")]
  | row => [.tag (ascii "tr class = 'comment'"), .tag (ascii "td"), .tag (ascii "h6"),
      .text (ascii " "), .text b.language.javatime, .endTag (ascii "h6"), .endTag (ascii "td"),
      .tag (ascii "td"), .text b.email, .endTag (ascii "br"), .endTag (ascii "td"),
      .tag (ascii "td")]
  | server_box => [.tag (ascii "p class='last_comments'"), .text (ascii "\n"),
      .tag (ascii "a href=\"/pictures/" ++ digits b.picture ++ ascii "\"")]
  | server_row => [.tag (ascii "td"), .text (ascii "\n")]

/-- The pieces behind it. -/
def after : CommentPlace → List Piece
  | box | empty_box => [.endTag (ascii "a"), .endTag (ascii "p")]
  | row => [.endTag (ascii "td"), .endTag (ascii "tr")]
  | server_box => [.endTag (ascii "a"), .text (ascii "\n"), .endTag (ascii "p")]
  | server_row => [.text (ascii "\n"), .endTag (ascii "td")]

/-- Only the row shows an address in front of the body. -/
theorem before_wellFormed (b : Beside) {place : CommentPlace} (h : place ≠ row) :
    ∀ p ∈ place.before b, p.wellFormed := by
  cases place with
  | box =>
    simp only [before, List.forall_mem_cons, List.not_mem_nil, false_implies, implies_true,
      and_true]
    exact ⟨by decide, b.quoted_digits (by decide) (by decide) (by decide)⟩
  | empty_box =>
    simp only [before, List.forall_mem_cons, List.not_mem_nil, false_implies, implies_true,
      and_true]
    exact ⟨by decide, b.quoted_digits (by decide) (by decide) (by decide)⟩
  | row => exact absurd rfl h
  | server_box =>
    simp only [before, List.forall_mem_cons, List.not_mem_nil, false_implies, implies_true,
      and_true]
    exact ⟨by decide, by decide, b.double_quoted_digits⟩
  | server_row => simp only [before]; decide

def surroundings (b : Beside) (place : CommentPlace) : Surroundings where
  before := place.before b
  after := place.after
  after_wellFormed := by cases place <;> decide

/-- The text that is meant to show: the body, or in a box that has entries what the server
makes of it, `truncate(30)`. -/
def shown (body : String) : CommentPlace → List ℕ
  | box | server_box => utf16 (truncate body 30).toList
  | empty_box | row | server_row => utf16 body.toList

/-- What is put there: `response.comment.body` and its `substring(0,27)+"..."` as they are,
and the texts of the partials escaped. -/
def inserted {refs : Text.Html.References} (esc : Escaper refs) (body : String) :
    CommentPlace → List ℕ
  | box => (utf16 body.toList).take 27 ++ ascii "..."
  | empty_box | row => utf16 body.toList
  | server_box => esc.escaped (utf16 (truncate body 30).toList)
  | server_row => esc.escaped (utf16 body.toList)

end CommentPlace

/-- The first 27 code units and three dots are what `truncate(30)` shows: they are the first
27 of more than 30 characters, or all there is. -/
def Cut (body : String) : Prop :=
  30 < body.length ∧ (∀ c ∈ body.toList.take 27, c.toNat < 0x10000) ∨
    body.length ≤ 30 ∧ (utf16 body.toList).drop 27 = ascii "..."

/-- Where the script cuts a body and where the server does. -/
theorem cut_iff {body : String} :
    (utf16 body.toList).take 27 ++ ascii "..." = utf16 (truncate body 30).toList ↔ Cut body := by
  unfold Cut truncate
  split
  · next hlong =>
    have hlength : 27 ≤ body.toList.length := by
      rw [String.length_toList]
      omega
    have hdots : utf16 "...".toList = ascii "..." := rfl
    rw [String.toList_append, String.toList_ofList, Text.utf16_append, hdots, List.append_left_inj,
      eq_comm, Text.utf16_take_iff hlength]
    simp [hlong]
  · next hshort =>
    have hsplit : (utf16 body.toList).take 27 ++ ascii "..." = utf16 body.toList ↔
        ascii "..." = (utf16 body.toList).drop 27 := by
      nth_rewrite 2 [← List.take_append_drop 27 (utf16 body.toList)]
      exact List.append_right_inj _
    rw [hsplit, eq_comm]
    simp [hshort, Nat.le_of_not_lt hshort]

/-! ### Messages -/

/-- Where a message's text stands. -/
inductive MessagePlace
  /-- `pri-event`, the notification -/
  | notification
  /-- `pri-event`, when the receiver has a window -/
  | pushed
  /-- `pri-event`, when the handler has just clicked one open -/
  | pushed_first
  /-- `send_message` -/
  | echoed
  /-- `get_chat_messages`, one's own message -/
  | loaded_me
  /-- `get_chat_messages`, the opponent's message -/
  | loaded_opponent
deriving DecidableEq, Repr

namespace MessagePlace

/-- The pieces in front of the text. -/
def before (b : Beside) : MessagePlace → List Piece
  | notification => [.tag (ascii "p class='incomming_notification'"),
      .text (ascii "New message from :"), .text b.email, .endTag (ascii "br")]
  | pushed | loaded_opponent => [.tag (ascii "p class='messages_show_all'"), .tag (ascii "span"),
      .quoted (ascii "a href='#' title='") b.email, .text (ascii "Opponent"),
      .endTag (ascii "a"), .endTag (ascii "span")]
  | pushed_first => [.tag (ascii "p class='messages_show_all'"), .tag (ascii "span"),
      .text b.email, .endTag (ascii "span")]
  | echoed | loaded_me => [.tag (ascii "p class='messages_show_all'"), .tag (ascii "span"),
      .text (ascii "Me"), .endTag (ascii "span")]

/-- The pieces behind it. -/
def after : MessagePlace → List Piece
  | notification => [.tag (ascii "p")]
  | _ => [.endTag (ascii "p")]

def surroundings (b : Beside) (place : MessagePlace) : Surroundings where
  before := place.before b
  after := place.after
  after_wellFormed := by cases place <;> decide

/-- What is put there. The notification keeps the quotes of the JSON literal. -/
def inserted (to_json : Encoder) (pusher : Writer) (text : String) : MessagePlace → List ℕ
  | notification => (MessageText.received to_json pusher text).getD []
  | pushed | pushed_first => (MessageText.pushed to_json pusher text).getD []
  | echoed => MessageText.echoed text
  | loaded_me | loaded_opponent => (MessageText.loaded to_json text).getD []

end MessagePlace

end Gallery
