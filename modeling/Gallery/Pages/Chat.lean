import Gallery.Controllers.Server
import Mathlib.Logic.Function.Basic

/-!
# A chat between two users

Two users who list each other as online. A message reaches a chat window in three
ways: the sender's script echoes it, the history response carries what was
stored when the server answered, and a push brings it to the receiver, whose
handler first opens a window if there is none, which asks for the history.

Requests, responses and pushes may overtake each other: which one is handled
next is the label's choice, and so is the order of the rows in a history
response, since the query has no `order`.

## Main definitions

* `Message.chat_messages`, `PicturesController.chat_messages` — the history query
* `Chat`, `Window` — the messages, the two windows and what is in flight
* `chat` — the steps of the users, the server and the network
-/

namespace Gallery

open Store Rails App Semantics

/-- `PicturesController#chat_messages` -/
def Message.chat_messages (messages : Table Message) (current_user opponent_id : Id) :
    List (Row Message) :=
  messages.rows.filter fun m =>
    m.val.sender_id ∈ [current_user, opponent_id] && m.val.receiver_id ∈ [current_user, opponent_id]

/-- `PicturesController#chat_messages` for a signed-in user, whose query has no order. The
parameter is quoted into the SQL text; when it is missing, the lists hold a `NULL`, which
equals nothing. -/
def PicturesController.chat_messages (db : Database) (current_user : Id)
    (opponent_id : Option String) : Except Failure (List (Row Message)) :=
  match opponent_id.map parseInteger with
  | some (some o) => .ok (Message.chat_messages db.messages current_user o)
  | some none => .error .StatementInvalid
  | none => .ok (Message.chat_messages db.messages current_user current_user)

/-- The two users of a conversation. -/
inductive Party
  | first
  | second
deriving DecidableEq, Repr

def Party.other : Party → Party
  | first => second
  | second => first

@[simp] theorem Party.other_other (p : Party) : p.other.other = p := by cases p <;> rfl

@[simp] theorem Party.other_ne (p : Party) : p.other ≠ p := by cases p <;> decide

@[simp] theorem Party.ne_other (p : Party) : p ≠ p.other := by cases p <;> decide

theorem Party.eq_other_of_ne {p q : Party} (h : q ≠ p) : q = p.other := by
  cases p <;> cases q <;> simp_all [Party.other]

/-- A line of a window: `Me` or the opponent, and the text. -/
structure Line where
  me : Bool
  text : String
deriving DecidableEq, Repr

/-- How far the history of a window has come. -/
inductive History
  | requested
  | answered (rows : List (Row Message))
  | loaded
deriving DecidableEq, Repr

/-- A chat window. It asks for its history once, when it is created. -/
structure Window where
  lines : List Line
  history : History
deriving DecidableEq, Repr

/-- The two users' ids, and the text between the quotes of `text.to_json`. -/
structure Chat.Setting where
  user : Party → Id
  to_json : String → String

/-- The stored messages, the windows, the send requests in flight by sender, and
the pushes in flight by receiver. -/
structure Chat where
  messages : Table Message
  windows : Party → Option Window
  sends : Party → List String
  pushes : Party → List String

namespace Chat

variable (g : Setting) (s : Chat)

/-- The line `get_chat_messages` shows for a row. -/
def line (p : Party) (m : Row Message) : Line := ⟨m.val.sender_id ≠ g.user p.other, m.val.text⟩

/-- `MessagesController#create` stores the text. -/
def accepts (p : Party) (text : String) : Bool :=
  Message.valid (some (g.user p)) (some (g.user p.other)) (some text) && fitsString text

/-- The click on the other's name: a window that is there is shown. -/
def openWindow (p : Party) : Chat :=
  match s.windows p with
  | some _ => s
  | none => { s with windows := Function.update s.windows p (some ⟨[], .requested⟩) }

/-- `send_message`: the request, and the echo at once. -/
def send (p : Party) (w : Window) (text : String) : Chat :=
  { s with
    windows := Function.update s.windows p (some { w with lines := w.lines ++ [⟨true, text⟩] })
    sends := Function.update s.sends p (s.sends p ++ [text]) }

/-- The server handles a send request: it stores the message and pushes it, or
refuses it. -/
def serveSend (p : Party) (i : ℕ) (text : String) : Chat :=
  let s := { s with sends := Function.update s.sends p ((s.sends p).eraseIdx i) }
  if accepts g p text then
    { s with
      messages := s.messages.insert ⟨g.user p, g.user p.other, text⟩
      pushes := Function.update s.pushes p.other (s.pushes p.other ++ [text]) }
  else s

/-- The receiver's `pri-event` handler: without a window it clicks one open first. -/
def deliverPush (p : Party) (i : ℕ) (text : String) : Chat :=
  let s := openWindow { s with pushes := Function.update s.pushes p ((s.pushes p).eraseIdx i) } p
  match s.windows p with
  | some w =>
    { s with
      windows := Function.update s.windows p
        (some { w with lines := w.lines ++ [⟨false, g.to_json text⟩] }) }
  | none => s

end Chat

/-- The steps of a chat. -/
inductive Chat.Step
  | openWindow (p : Party)
  | send (p : Party) (text : String)
  /-- The server handles the `i`-th send request of a user. -/
  | serveSend (p : Party) (i : ℕ)
  /-- The `i`-th push on its way to a user arrives. -/
  | deliverPush (p : Party) (i : ℕ)
  /-- The server answers the history request of a user with these rows. -/
  | serveHistory (p : Party) (rows : List (Row Message))
  | deliverHistory (p : Party)

/-- A chat, from the moment both users have loaded their pages, with any messages
stored already. -/
def chat (g : Chat.Setting) : System Chat Chat.Step where
  init s :=
    g.user .first ≠ g.user .second ∧
      s.windows = (fun _ => none) ∧ s.sends = (fun _ => []) ∧ s.pushes = fun _ => []
  step s
    | .openWindow p => some (s.openWindow p)
    -- `if text.length >= 1`
    | .send p text =>
      match s.windows p with
      | some w => if 1 ≤ text.length then some (s.send p w text) else some s
      | none => none
    | .serveSend p i => ((s.sends p)[i]?).map fun text => s.serveSend g p i text
    | .deliverPush p i => ((s.pushes p)[i]?).map fun text => s.deliverPush g p i text
    | .serveHistory p rows =>
      match s.windows p with
      | some ⟨lines, .requested⟩ =>
        -- the query has no order
        if rows.Perm (Message.chat_messages s.messages (g.user p) (g.user p.other)) then
          some { s with windows := Function.update s.windows p (some ⟨lines, .answered rows⟩) }
        else none
      | _ => none
    | .deliverHistory p =>
      match s.windows p with
      | some ⟨lines, .answered rows⟩ =>
        some { s with
          windows := Function.update s.windows p
            (some ⟨lines ++ rows.map (Chat.line g p), .loaded⟩) }
      | _ => none

end Gallery
