import Gallery.Semantics.Transition
import Mathlib.Data.List.Perm.Basic

/-!
# A view kept by replies

A client sends requests to a server and updates a view from the replies. Requests are
under way for any time and reach the server in any order; so do the replies on their way
back; and the server's state also changes for other reasons. When the replies are applied
in the order in which the server gave them, or when their order makes no difference, what
the view will be once they have all arrived is always in the relation to the server's state
that each single reply brings about.

## Main definitions

* `Service` — what the server does with a request, and the client with a reply
* `Exchange`, `exchange` — the messages under way, and the steps
* `Exchange.settled` — the view once all replies under way have arrived
* `InOrder`, `AnyOrder` — how replies arrive

## Main results

* `exchange_invariant`, `exchange_invariant_of_comm` — the rules for relations between view
  and server
-/

namespace Semantics

/-- A server that answers requests, and a client that applies the replies to its view. A
view may be one from which a request cannot be sent any more. -/
structure Service (State View Request Reply Event : Type*) where
  handle : State → Request → State × Reply
  apply : View → Reply → View
  sends : View → Request → Bool
  /-- A change of the server's state that the client has no part in. -/
  elsewhere : State → Event → State

/-- The server, the view, and what is under way between them, the earliest first; and the
requests the server has handled so far. -/
structure Exchange (State View Request Reply : Type*) where
  server : State
  view : View
  sent : List Request
  replies : List Reply
  handled : List Request

inductive ExchangeStep (Request Event : Type*)
  | send (q : Request)
  /-- One of the requests under way reaches the server. -/
  | handle (i : ℕ)
  /-- One of the replies under way reaches the client. -/
  | deliver (i : ℕ)
  | elsewhere (e : Event)

variable {State View Request Reply Event : Type*}

/-- The exchange of a service. -/
def exchange (S : Service State View Request Reply Event)
    (init : Exchange State View Request Reply → Prop) :
    System (Exchange State View Request Reply) (ExchangeStep Request Event) where
  init := init
  step s
    | .send q => if S.sends s.view q then some { s with sent := s.sent ++ [q] } else none
    | .handle i => s.sent[i]?.map fun q =>
      { s with
        server := (S.handle s.server q).1
        sent := s.sent.eraseIdx i
        replies := s.replies ++ [(S.handle s.server q).2]
        handled := s.handled ++ [q] }
    | .deliver i => s.replies[i]?.map fun a =>
      { s with view := S.apply s.view a, replies := s.replies.eraseIdx i }
    | .elsewhere e => some { s with server := S.elsewhere s.server e }

/-- The view once all replies under way have arrived. -/
def Exchange.settled (S : Service State View Request Reply Event)
    (s : Exchange State View Request Reply) : View := s.replies.foldl S.apply s.view

/-- Replies arrive in the order in which the server gave them, and what happens elsewhere
meets a condition. -/
def InOrder (cond : State → Event → Prop) (s : Exchange State View Request Reply) :
    ExchangeStep Request Event → Prop
  | .deliver i => i = 0
  | .elsewhere e => cond s.server e
  | _ => True

/-- Replies arrive in any order, and what happens elsewhere meets a condition. -/
def AnyOrder (cond : State → Event → Prop) (s : Exchange State View Request Reply) :
    ExchangeStep Request Event → Prop
  | .elsewhere e => cond s.server e
  | _ => True

variable {S : Service State View Request Reply Event} {s : Exchange State View Request Reply}
variable {init : Exchange State View Request Reply → Prop} {cond : State → Event → Prop}
variable {R : List Request → View → State → Prop}

theorem Exchange.settled_of_quiet (h : s.replies = []) : s.settled S = s.view := by
  simp [settled, h]

/-- A relation between the requests handled, the view and the server that each request
brings about and that nothing elsewhere disturbs holds of the settled view throughout, if
the replies are delivered in an order that makes no difference to it. -/
theorem exchange_invariant_of
    {allowed : Exchange State View Request Reply → ExchangeStep Request Event → Prop}
    (h : (exchange S init).ReachableWithin allowed s)
    (hinit : ∀ s, init s → R s.handled (s.settled S) s.server)
    (hhandle : ∀ handled view state q, R handled view state →
      R (handled ++ [q]) (S.apply view (S.handle state q).2) (S.handle state q).1)
    (hdeliver : ∀ s i a, allowed s (.deliver i) → s.replies[i]? = some a →
      (s.replies.eraseIdx i).foldl S.apply (S.apply s.view a) = s.settled S)
    (helsewhere : ∀ s e, allowed s (.elsewhere e) → ∀ handled view, R handled view s.server →
      R handled view (S.elsewhere s.server e)) :
    R s.handled (s.settled S) s.server := by
  refine System.ReachableWithin.invariant
    (P := fun s => R s.handled (s.settled S) s.server) h (fun s hs => hinit s hs) ?_
  intro s a t hs hallowed hstep
  cases a with
  | send q =>
    obtain ⟨-, rfl⟩ : S.sends s.view q ∧ { s with sent := s.sent ++ [q] } = t := by
      simpa [exchange] using hstep
    exact hs
  | handle i =>
    obtain ⟨q, -, rfl⟩ := Option.map_eq_some_iff.mp hstep
    simpa [Exchange.settled, List.foldl_append] using hhandle _ _ _ q hs
  | deliver i =>
    obtain ⟨a, ha, rfl⟩ := Option.map_eq_some_iff.mp hstep
    have hsettled := hdeliver s i a hallowed ha
    rw [← hsettled] at hs
    exact hs
  | elsewhere e =>
    obtain rfl := Option.some.inj hstep
    exact helsewhere s e hallowed _ _ hs

/-- Replies that are applied in the order in which the server gave them. -/
theorem exchange_invariant (h : (exchange S init).ReachableWithin (InOrder cond) s)
    (hinit : ∀ s, init s → R s.handled (s.settled S) s.server)
    (hhandle : ∀ handled view state q, R handled view state →
      R (handled ++ [q]) (S.apply view (S.handle state q).2) (S.handle state q).1)
    (helsewhere : ∀ handled view state e, cond state e → R handled view state →
      R handled view (S.elsewhere state e)) :
    R s.handled (s.settled S) s.server := by
  refine exchange_invariant_of h hinit hhandle ?_ fun s e hcond handled view hs =>
    helsewhere handled view s.server e hcond hs
  intro s i a hi ha
  -- the first reply is the one that settling applies first
  obtain rfl : i = 0 := hi
  cases hreplies : s.replies with
  | nil => simp [hreplies] at ha
  | cons b replies =>
    obtain rfl : b = a := by simpa [hreplies] using ha
    simp [Exchange.settled, hreplies]

/-- Replies that commute, in whatever order they arrive. -/
theorem exchange_invariant_of_comm (h : (exchange S init).ReachableWithin (AnyOrder cond) s)
    (hcomm : ∀ view a b, S.apply (S.apply view a) b = S.apply (S.apply view b) a)
    (hinit : ∀ s, init s → R s.handled (s.settled S) s.server)
    (hhandle : ∀ handled view state q, R handled view state →
      R (handled ++ [q]) (S.apply view (S.handle state q).2) (S.handle state q).1)
    (helsewhere : ∀ handled view state e, cond state e → R handled view state →
      R handled view (S.elsewhere state e)) :
    R s.handled (s.settled S) s.server := by
  refine exchange_invariant_of h hinit hhandle ?_ fun s e hcond handled view hs =>
    helsewhere handled view s.server e hcond hs
  intro s i a _ ha
  obtain ⟨hi, rfl⟩ := List.getElem?_eq_some_iff.mp ha
  have hperm : (s.replies[i] :: s.replies.eraseIdx i).Perm s.replies :=
    List.getElem_cons_eraseIdx_perm hi
  exact hperm.foldl_eq' (fun a _ b _ view => hcomm view a b) s.view

end Semantics
