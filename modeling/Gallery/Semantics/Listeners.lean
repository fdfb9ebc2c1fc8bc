import Mathlib.Logic.Function.Basic
import Mathlib.Tactic.SplitIfs

/-!
# Listeners

A handler that has been bound for several owners runs once for each of them whenever its
event occurs, and again for an owner that has bound it again. It changes the owner's part
of the state.

## Main definitions

* `notify` — an event, as the handlers of its owners handle it

## Main results

* `notify_apply` — what an event does when a handler that runs twice does what it does once
* `notify_apply_eq_iff` — when it leaves the part of an owner alone
-/

namespace Semantics

variable {ι β : Type*} [DecidableEq ι] {h : β → β} {owners : List ι} {f : ι → β} {i : ι}

/-- The handlers run in the order in which they have been bound. -/
def notify (h : β → β) (owners : List ι) (f : ι → β) : ι → β :=
  owners.foldl (fun f i => Function.update f i (h (f i))) f

@[simp] theorem notify_nil (h : β → β) (f : ι → β) : notify h [] f = f := rfl

theorem notify_cons (h : β → β) (i : ι) (owners : List ι) (f : ι → β) :
    notify h (i :: owners) f = notify h owners (Function.update f i (h (f i))) := rfl

theorem notify_of_notMem (hi : i ∉ owners) : notify h owners f i = f i := by
  induction owners generalizing f with
  | nil => rfl
  | cons j owners ih =>
    rw [List.mem_cons, not_or] at hi
    rw [notify_cons, ih hi.2, Function.update_of_ne hi.1]

theorem notify_of_mem (hh : ∀ x, h (h x) = h x) (hi : i ∈ owners) :
    notify h owners f i = h (f i) := by
  induction owners generalizing f with
  | nil => cases hi
  | cons j owners ih =>
    rw [notify_cons]
    by_cases hmem : i ∈ owners
    · rw [ih hmem]
      by_cases hij : i = j
      · rw [hij, Function.update_self, hh]
      · rw [Function.update_of_ne hij]
    · obtain rfl : i = j := (List.mem_cons.mp hi).resolve_right hmem
      rw [notify_of_notMem hmem, Function.update_self]

/-- Each owner's part is handled once. -/
theorem notify_apply (hh : ∀ x, h (h x) = h x) (owners : List ι) (f : ι → β) (i : ι) :
    notify h owners f i = if i ∈ owners then h (f i) else f i := by
  split_ifs with hi
  · exact notify_of_mem hh hi
  · exact notify_of_notMem hi

/-- An event leaves alone what no handler changes. -/
theorem notify_apply_eq_iff (hh : ∀ x, h (h x) = h x) (owners : List ι) (f : ι → β) (i : ι) :
    notify h owners f i = f i ↔ (i ∈ owners → h (f i) = f i) := by
  rw [notify_apply hh]
  split_ifs with hi
  · exact ⟨fun heq _ => heq, fun heq => heq hi⟩
  · exact iff_of_true rfl fun hmem => absurd hmem hi

end Semantics
