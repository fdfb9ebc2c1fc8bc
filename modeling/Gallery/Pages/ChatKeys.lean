import Gallery.Text.Script

/-!
# The keys of conversations

The script names the events and the windows of a conversation by the ids of its two users,
the smaller one first, with an `i` between them. It computes that key in five places, from
`Math.min` and `Math.max` or by sorting, and from ids that are numbers or strings.

## Main definitions

* `min_max`, `sort_join` — the two ways to a key
* `KeyPlace`, `KeyPlace.key` — the five places
* `send_message`, `PriEvent` — the event that a message becomes
* `ChatPage`, `ChatPage.displays` — how often a page displays a message
* `conversation` — the key of two users
-/

namespace Gallery

open Text Text.Script

/-! ### The places -/

/-- `min+'i'+max` -/
def min_max (current_user_id id : Primitive) : Option (List Char) := do
  let max ← mathMax current_user_id id
  let min ← mathMin current_user_id id
  return digits min ++ 'i' :: digits max

/-- `a.sort (a, b) -> a - b` and `a.join('i')` -/
def sort_join (a b : Primitive) : Option (List Char) := (sortNumeric [a, b]).map (join ['i'])

/-- Where the script computes a key from the user's id and another one. -/
inductive KeyPlace
  | send_message
  | bind
  | create_chat
  | show_private_chat
  | pri_event
deriving DecidableEq, Repr

/-- What follows `pri-event` or `chat_id` there. -/
def KeyPlace.key : KeyPlace → Primitive → Primitive → Option (List Char)
  | send_message, current_user_id, opponent_id => min_max current_user_id opponent_id
  | bind, current_user_id, value_id => min_max current_user_id value_id
  | create_chat, current_user_id, opponent_id => min_max current_user_id opponent_id
  | show_private_chat, current_user_id, target_id => sort_join current_user_id target_id
  | pri_event, current_user_id, user_id => do
    sort_join (.number (← current_user_id.parseInt)) (.number (← user_id.parseInt))

/-! ### Messages -/

/-- What Pusher brings to the pages: the parameters of the request, and the sender as JSON. -/
structure PriEvent where
  event_name : List Char
  receiver_id : Primitive
  user_id : Primitive
deriving DecidableEq, Repr

/-- The event that the server triggers for a message from the window of an opponent. -/
def send_message (current_user : Exact) (current_user_id opponent_id : Primitive) :
    Option PriEvent := do
  let key ← KeyPlace.send_message.key current_user_id opponent_id
  return ⟨"pri-event".toList ++ key, .string opponent_id.toString, .number current_user⟩

/-- A page: `gon.current_user || ''`, and the ids of the users it lists. -/
structure ChatPage where
  current_user_id : Primitive
  show_private_chat : List Primitive

/-- `==` between two results of `parseInt`, of which `NaN` equals nothing. -/
def sameInt (x y : Primitive) : Bool :=
  match x.parseInt, y.parseInt with
  | some m, some n => m = n
  | _, _ => false

namespace ChatPage

/-- The listed users for whom the page has bound a handler to the event. -/
def bound (page : ChatPage) (event_name : List Char) : List Primitive :=
  page.show_private_chat.filter fun id =>
    (KeyPlace.bind.key page.current_user_id id).map ("pri-event".toList ++ ·) = some event_name

/-- How many of the handlers get past their test for the receiver. -/
def displays (page : ChatPage) (e : PriEvent) : ℕ :=
  (page.bound e.event_name).countP fun _ => sameInt page.current_user_id e.receiver_id

/-- The page of a user, or of nobody, that lists these users. -/
structure Shows (page : ChatPage) (user : Option Exact) (ids : List Exact) : Prop where
  signed_in : ∀ u ∈ user, page.current_user_id.Holds u
  signed_out : user = none → page.current_user_id = .string []
  listed : List.Forall₂ Primitive.Holds page.show_private_chat ids

end ChatPage

/-! ### The key of two users -/

def conversation (a b : Exact) : List Char :=
  digits (min a b : Exact) ++ 'i' :: digits (max a b : Exact)

variable {a b c d : Exact} {x y : Primitive}

/-- Different pairs have different keys. -/
theorem conversation_eq_iff : conversation a b = conversation c d ↔ s(a, b) = s(c, d) := by
  rw [conversation, conversation, separated_inj (by decide), Fin.val_inj, Fin.val_inj,
    min_max_eq_iff]

/-- Every place computes the key of the two users. -/
theorem KeyPlace.key_eq (place : KeyPlace) (hx : x.Holds a) (hy : y.Holds b) :
    place.key x y = some (conversation a b) := by
  have hmin_max : min_max x y = some (conversation a b) := by
    simp [min_max, hx.mathMax_eq hy, hx.mathMin_eq hy, conversation]
  have hsort_join : ∀ {x y : Primitive}, x.Holds a → y.Holds b →
      sort_join x y = some (conversation a b) := by
    intro x y hx hy
    rw [sort_join, join_sortNumeric hx hy, conversation, List.append_assoc, List.singleton_append]
  cases place with
  | send_message => exact hmin_max
  | bind => exact hmin_max
  | create_chat => exact hmin_max
  | show_private_chat => exact hsort_join hx hy
  | pri_event =>
    simp only [key, hx.parseInt_eq, hy.parseInt_eq, Option.bind_eq_bind, Option.bind_some]
    exact hsort_join (.inl rfl) (.inl rfl)

end Gallery
