import Mathlib.Logic.Basic
import Mathlib.Data.List.Basic

/-!
# Guarded transition systems

A system is a predicate on initial states and a guarded, executable step
function: `step s a` is `some t` when label `a` is enabled in state `s`, and
`none` otherwise. Choices a program does not make itself (which request comes
next, which message is delivered, what a third party answers) are part of the
label, so one function serves nondeterministic systems too.

## Main definitions

* `System.ReachableWithin` — the states at the end of runs all of whose steps
  meet a condition on the state before the step and the label
* `System.Reachable` — the states at the end of arbitrary runs
* `System.replay` — executes a list of labels

## Main results

* `ReachableWithin.invariant` — the invariant rule
* `ReachableWithin.replay` — replaying labels from a reachable state stays reachable
-/

namespace Semantics

/-- A transition system with a guarded step function. -/
structure System (State Label : Type*) where
  init : State → Prop
  step : State → Label → Option State

namespace System

variable {State Label : Type*} {S : System State Label}
variable {cond : State → Label → Prop} {P : State → Prop} {s t : State}

/-- States reached by a run in which every step meets `cond` in the state it is
taken from. -/
inductive ReachableWithin (S : System State Label) (cond : State → Label → Prop) :
    State → Prop
  | init {s : State} : S.init s → ReachableWithin S cond s
  | step {s t : State} {a : Label} :
      ReachableWithin S cond s → cond s a → S.step s a = some t → ReachableWithin S cond t

/-- States reached by any run. -/
def Reachable (S : System State Label) : State → Prop :=
  S.ReachableWithin fun _ _ => True

/-- The invariant rule: what holds initially and is kept by every admitted step
holds in every state reached. -/
theorem ReachableWithin.invariant (h : S.ReachableWithin cond s)
    (hinit : ∀ s, S.init s → P s)
    (hstep : ∀ s a t, P s → cond s a → S.step s a = some t → P t) : P s := by
  induction h with
  | init h => exact hinit _ h
  | step _ hc hs ih => exact hstep _ _ _ ih hc hs

theorem Reachable.init (h : S.init s) : S.Reachable s :=
  ReachableWithin.init h

theorem Reachable.step {a : Label} (h : S.Reachable s) (hs : S.step s a = some t) :
    S.Reachable t :=
  ReachableWithin.step h trivial hs

/-- The invariant rule for unrestricted runs. -/
theorem Reachable.invariant (h : S.Reachable s) (hinit : ∀ s, S.init s → P s)
    (hstep : ∀ s a t, P s → S.step s a = some t → P t) : P s :=
  ReachableWithin.invariant h hinit fun s a t hP _ hs => hstep s a t hP hs

/-- Executes the labels in order; `none` if one of them is not enabled. -/
def replay (S : System State Label) (s : State) (labels : List Label) : Option State :=
  labels.foldlM S.step s

theorem ReachableWithin.replay {labels : List Label} (h : S.ReachableWithin cond s)
    (hcond : ∀ a ∈ labels, ∀ s, cond s a) (hr : S.replay s labels = some t) :
    S.ReachableWithin cond t := by
  induction labels generalizing s with
  | nil => obtain rfl : s = t := by simpa [System.replay] using hr
           exact h
  | cons a labels ih =>
    simp only [System.replay, List.foldlM_cons, Option.bind_eq_bind, Option.bind_eq_some_iff] at hr
    obtain ⟨u, hu, hrest⟩ := hr
    exact ih (h.step (hcond a List.mem_cons_self s) hu)
      (fun b hb => hcond b (List.mem_cons_of_mem a hb)) hrest

theorem Reachable.replay {labels : List Label} (h : S.Reachable s)
    (hr : S.replay s labels = some t) : S.Reachable t :=
  ReachableWithin.replay h (fun _ _ _ => trivial) hr

end System

end Semantics
