import Gallery.Semantics.Listeners
import Gallery.Semantics.Transition

/-!
# Chat windows and requests

Each send from a chat window binds two handlers to the document, which stay bound. They
run for every request of the page, whoever has started it: when one starts, the window's
input is emptied and its button waits; when one completes, the button is ready again.

## Main definitions

* `ChatWindow`, `ChatWindow.wait`, `ChatWindow.ready` — a window, and what the handlers do
* `ChatWindows`, `ChatWindows.ajax`, `ChatWindows.complete` — the windows of a page, and
  its requests
* `chatWindows` — typing, sending, other requests and completions
* `ChatWindows.Harmless` — the steps that leave the other windows alone
-/

namespace Gallery

open Semantics

/-- A window: what has been typed, the text of the button, and whether it is disabled. -/
structure ChatWindow where
  input : String
  button : String
  disabled : Bool
deriving DecidableEq, Repr

namespace ChatWindow

/-- As `create_chat` writes it. -/
def created : ChatWindow := ⟨"", "Send", false⟩

/-- The handler of `ajaxSend`. -/
def wait (v : ChatWindow) : ChatWindow :=
  { v with disabled := true, button := "Wait..", input := "" }

/-- The handler of `ajaxComplete`. -/
def ready (v : ChatWindow) : ChatWindow := { v with button := "Send", disabled := false }

end ChatWindow

/-- A request: a send from a window, or one of the other requests of the page. -/
inductive AjaxRequest (W : Type*)
  | send (w : W)
  | other
deriving DecidableEq, Repr

/-- The windows that have been opened, the windows whose handlers are bound, once for each
send, and the requests in flight. -/
structure ChatWindows (W : Type*) where
  windows : W → Option ChatWindow
  bound : List W
  inflight : List (AjaxRequest W)

/-- What happens on the page. -/
inductive WindowStep (W : Type*)
  /-- The click on a user's name: the window is there, or is created and asks for its
  history. -/
  | open_window (w : W)
  | type (w : W) (text : String)
  /-- The click on the button. -/
  | send_message (w : W)
  /-- A like, a subscription, or any other request. -/
  | ajax
  /-- The `i`-th request in flight completes. -/
  | complete (i : ℕ)
deriving DecidableEq, Repr

variable {W : Type*} [DecidableEq W]

namespace ChatWindows

/-- `$.ajax` triggers `ajaxSend`. -/
def ajax (s : ChatWindows W) (r : AjaxRequest W) : ChatWindows W :=
  { s with
    windows := notify (Option.map .wait) s.bound s.windows
    inflight := s.inflight ++ [r] }

/-- The end of a request triggers `ajaxComplete`. -/
def complete (s : ChatWindows W) (i : ℕ) : ChatWindows W :=
  { s with
    windows := notify (Option.map .ready) s.bound s.windows
    inflight := s.inflight.eraseIdx i }

def set (s : ChatWindows W) (w : W) (v : ChatWindow) : ChatWindows W :=
  { s with windows := Function.update s.windows w (some v) }

def bind (s : ChatWindows W) (w : W) : ChatWindows W := { s with bound := s.bound ++ [w] }

end ChatWindows

/-- A page from the moment it has loaded: no windows, no handlers, and perhaps requests
that the page itself has started. -/
def chatWindows (W : Type*) [DecidableEq W] : System (ChatWindows W) (WindowStep W) where
  init s := s.windows = (fun _ => none) ∧ s.bound = [] ∧ ∀ r ∈ s.inflight, r = .other
  step s
    | .open_window w =>
      match s.windows w with
      | some _ => some s
      | none => some ((s.set w .created).ajax .other)
    | .type w text => (s.windows w).map fun v => s.set w { v with input := text }
    | .send_message w =>
      match s.windows w with
      | some v =>
        -- a disabled button takes no clicks
        if v.disabled then none
        -- `if text.length >= 1`
        else if 1 ≤ v.input.length then some ((s.bind w).ajax (.send w))
        else some s
      | none => none
    | .ajax => some (s.ajax .other)
    | .complete i => (s.inflight[i]?).map fun _ => s.complete i

/-- The window a step is about: where somebody clicks or types, or from which the request
that completes has been sent. -/
def WindowStep.owner (s : ChatWindows W) : WindowStep W → Option W
  | open_window w => some w
  | type w _ => some w
  | send_message w => some w
  | ajax => none
  | complete i =>
    match s.inflight[i]? with
    | some (.send w) => some w
    | _ => none

namespace ChatWindows

variable (s : ChatWindows W)

/-- Every other window that has sent something waits for its own send, and nothing has
been typed into it since. -/
def AllWait (r : AjaxRequest W) : Prop :=
  ∀ w ∈ s.bound, r ≠ .send w → .send w ∈ s.inflight ∧ ∀ v ∈ s.windows w, v.input = ""

/-- No other window that has sent something waits for its own send. -/
def NoneWaits (r : AjaxRequest W) : Prop :=
  ∀ w ∈ s.bound, r ≠ .send w → .send w ∉ s.inflight

/-- Requests start while all other windows that have sent something wait, and complete
while none of them does. -/
def Harmless : WindowStep W → Prop
  | .open_window w => s.windows w = none → s.AllWait .other
  | .type _ _ => True
  | .send_message w => (∃ v ∈ s.windows w, 1 ≤ v.input.length) → s.AllWait (.send w)
  | .ajax => s.AllWait .other
  | .complete i => ∀ r ∈ s.inflight[i]?, s.NoneWaits r

end ChatWindows

end Gallery
