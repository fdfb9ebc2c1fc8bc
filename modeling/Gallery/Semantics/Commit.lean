import Gallery.Semantics.Transition
import Mathlib.Logic.Function.Basic

/-!
# Programs that take effect with their last statement

Any number of processes run programs over shared data, a statement at a time in any order.
Suppose that the statements of a program only look until the last one, and that the last one
either fails and leaves nothing, or does what the whole program would do if it ran there and
then. The programs that do not fail might then as well have run one at a time, in the order of
their last statements.

What is compared is a view of the data, since there may be parts that nobody sees and that
come out differently (the numbers a sequence has handed out). The conditions may rest on an
invariant of the data and on what a process knows from its look-ups; neither may be spoilt by
the other processes.

## Main definitions

* `Program` — the statements of a program, and the whole of it at once
* `Program.interleaved` — processes statement by statement, next to the whole programs
* `CommitsLast` — the discipline

## Main results

* `CommitsLast.serial` — the two data look the same in every run
-/

namespace Semantics

/-- What a statement does to the data and to the process that issues it, and what the
program would do at once from where the process is. -/
structure Program (Data Phase : Type*) where
  idle : Phase
  issue : Data → Phase → Data × Phase
  finished : Phase → Bool
  failed : Phase → Bool
  at_once : Data → Phase → Data

/-- The shared data, where each process stands, and the data of the programs that are over and
have not failed, run one at a time. -/
structure Interleaved (Data Phase : Type*) where
  data : Data
  phase : ℕ → Phase
  serial : Data

/-- A process starts, or issues its next statement. -/
inductive Turn (Phase : Type*)
  | start (process : ℕ) (phase : Phase)
  | issue (process : ℕ)
deriving DecidableEq, Repr

variable {Data View Phase : Type*} {P : Program Data Phase}

/-- The program is over with this statement, and has not failed. -/
def Program.commits (P : Program Data Phase) (phase : Phase) : Bool :=
  P.finished phase && !P.failed phase

/-- A whole program is run on the second data when the last statement is issued. -/
def Program.interleaved [DecidableEq Phase] (P : Program Data Phase) (init : Data → Prop) :
    System (Interleaved Data Phase) (Turn Phase) where
  init s := init s.data ∧ s.serial = s.data ∧ ∀ i, s.phase i = P.idle
  step s
    | .start i phase =>
      if s.phase i = P.idle then some { s with phase := Function.update s.phase i phase } else none
    | .issue i =>
      if P.finished (s.phase i) then none
      else
        let next := P.issue s.data (s.phase i)
        some
          { data := next.1
            phase := Function.update s.phase i next.2
            serial := if P.commits next.2 then P.at_once s.serial (s.phase i) else s.serial }

/-- Under an invariant of the data and of each process, the last statement is the program. -/
structure CommitsLast (P : Program Data Phase) (view : Data → View) (good : Data → Prop)
    (sound : Data → Phase → Prop) : Prop where
  idle : ∀ d, sound d P.idle
  data : ∀ d phase, good d → sound d phase → good (P.issue d phase).1
  phase : ∀ d phase, good d → sound d phase → sound (P.issue d phase).1 (P.issue d phase).2
  others : ∀ d phase other, good d → sound d phase → sound d other →
    sound (P.issue d phase).1 other
  looks : ∀ d phase, good d → sound d phase → P.commits (P.issue d phase).2 = false →
    view (P.issue d phase).1 = view d
  commits : ∀ d d' phase, good d → sound d phase → view d = view d' →
    P.finished phase = false → P.commits (P.issue d phase).2 = true →
    view (P.issue d phase).1 = view (P.at_once d' phase)

variable {view : Data → View} {good init : Data → Prop} {sound : Data → Phase → Prop}
variable {s t : Interleaved Data Phase}

/-- The two data look the same, and the invariants hold. -/
structure Interleaved.Agrees (view : Data → View) (good : Data → Prop)
    (sound : Data → Phase → Prop) (s : Interleaved Data Phase) : Prop where
  same : view s.data = view s.serial
  good : good s.data
  sound : ∀ i, sound s.data (s.phase i)

theorem Interleaved.Agrees.start (hs : s.Agrees view good sound) {i : ℕ} {phase : Phase}
    (hphase : sound s.data phase) :
    Agrees view good sound { s with phase := Function.update s.phase i phase } where
  same := hs.same
  good := hs.good
  sound j := by
    by_cases hj : j = i
    · subst hj
      simpa using hphase
    · simpa [Function.update_of_ne hj] using hs.sound j

namespace CommitsLast

variable [DecidableEq Phase] {cond : Interleaved Data Phase → Turn Phase → Prop}

theorem agrees_issue (h : CommitsLast P view good sound) (hs : s.Agrees view good sound) {i : ℕ}
    (hstep : (P.interleaved init).step s (.issue i) = some t) : t.Agrees view good sound := by
  obtain ⟨hrunning, ht⟩ := Option.ite_none_left_eq_some.mp hstep
  obtain rfl := Option.some.inj ht
  have hi := hs.sound i
  refine ⟨?_, h.data _ _ hs.good hi, fun j => ?_⟩
  · dsimp only
    cases hlast : P.commits (P.issue s.data (s.phase i)).2 with
    | false => simpa [h.looks _ _ hs.good hi hlast] using hs.same
    | true => simpa using h.commits _ _ _ hs.good hi hs.same (by simpa using hrunning) hlast
  · dsimp only
    by_cases hj : j = i
    · subst hj
      simpa using h.phase _ _ hs.good hi
    · simpa [Function.update_of_ne hj] using h.others _ _ _ hs.good hi (hs.sound j)

/-- However the statements are interleaved, the data look like those of the whole programs run
one at a time, and the invariants hold. -/
theorem serial (h : CommitsLast P view good sound)
    (hrun : (P.interleaved init).ReachableWithin cond s) (hinit : ∀ d, init d → good d)
    (hstart : ∀ s i phase, cond s (.start i phase) → good s.data → sound s.data phase) :
    s.Agrees view good sound := by
  refine hrun.invariant ?_ ?_
  · rintro s ⟨hdata, hserial, hidle⟩
    exact ⟨congrArg view hserial.symm, hinit _ hdata, fun i => hidle i ▸ h.idle s.data⟩
  · intro s a t hs hcond hstep
    cases a with
    | start i phase =>
      obtain ⟨-, ht⟩ := Option.ite_none_right_eq_some.mp hstep
      obtain rfl := Option.some.inj ht
      exact hs.start (hstart s i phase hcond hs.good)
    | issue i => exact h.agrees_issue hs hstep

end CommitsLast

end Semantics
