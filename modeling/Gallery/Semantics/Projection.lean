import Mathlib.Data.List.Basic

/-!
# What one observer sees of a machine

Many parties put inputs into a machine, and an observer sees a part of its state. The part
may be a machine of its own, which moves from what the observer saw to what the observer
sees without looking at the rest. Inputs at which that machine stands still are hidden from
the observer: two runs that differ in hidden inputs alone look the same.

## Main definitions

* `Projection` — the visible part of a machine is a machine
* `effective` — the inputs of a run without those that did nothing

## Main results

* `Projection.view_foldl` — the visible part of a run is a run of the visible part
* `Projection.noninterference` — hidden inputs do not show
* `Projection.view_effective` — inputs that showed nothing may be left out
-/

namespace Semantics

variable {State View Input : Type*}

/-- What `view` shows of the machine `step` is the machine `next`, in the states that meet
`inv` and for the inputs that are `admitted`. -/
structure Projection (step : State → Input → State) (view : State → View)
    (next : View → Input → View) (inv : State → Prop) (admitted : Input → Prop) : Prop where
  keeps : ∀ s i, inv s → admitted i → inv (step s i)
  commutes : ∀ s i, inv s → admitted i → view (step s i) = next (view s) i

/-- Inputs at which a machine stands still may be left out. -/
theorem foldl_filter_of_still {next : View → Input → View} {visible : Input → Bool}
    (hstill : ∀ v i, visible i = false → next v i = v) (v : View) (inputs : List Input) :
    inputs.foldl next v = (inputs.filter visible).foldl next v := by
  induction inputs generalizing v with
  | nil => rfl
  | cons i inputs ih =>
    rw [List.foldl_cons, ih]
    by_cases h : visible i
    · rw [List.filter_cons_of_pos h, List.foldl_cons]
    · rw [List.filter_cons_of_neg h, hstill v i (by simpa using h)]

namespace Projection

variable {step : State → Input → State} {view : State → View} {next : View → Input → View}
variable {inv : State → Prop} {admitted : Input → Prop} {visible : Input → Bool}
variable {s s' : State} {inputs inputs' : List Input}

theorem view_foldl (h : Projection step view next inv admitted) (hinv : inv s)
    (hadmitted : ∀ i ∈ inputs, admitted i) :
    view (inputs.foldl step s) = inputs.foldl next (view s) := by
  induction inputs generalizing s with
  | nil => rfl
  | cons i inputs ih =>
    have hi : admitted i := hadmitted i List.mem_cons_self
    have hrest := ih (h.keeps s i hinv hi) fun j hj => hadmitted j (List.mem_cons_of_mem i hj)
    rw [List.foldl_cons, hrest, h.commutes s i hinv hi, List.foldl_cons]

/-- Two runs with the same visible inputs look the same. -/
theorem noninterference (h : Projection step view next inv admitted)
    (hstill : ∀ v i, visible i = false → next v i = v) (hinv : inv s) (hinv' : inv s')
    (hadmitted : ∀ i ∈ inputs, admitted i) (hadmitted' : ∀ i ∈ inputs', admitted i)
    (hview : view s = view s') (hagree : inputs.filter visible = inputs'.filter visible) :
    view (inputs.foldl step s) = view (inputs'.foldl step s') := by
  rw [h.view_foldl hinv hadmitted, h.view_foldl hinv' hadmitted', hview,
    foldl_filter_of_still hstill, hagree, ← foldl_filter_of_still hstill]

end Projection

/-- The inputs of a run, without those that were `idle` in the state they met. -/
def effective (step : State → Input → State) (idle : State → Input → Bool) :
    State → List Input → List Input
  | _, [] => []
  | s, i :: inputs =>
    if idle s i then effective step idle (step s i) inputs
    else i :: effective step idle (step s i) inputs

theorem mem_of_mem_effective {step : State → Input → State} {idle : State → Input → Bool}
    {s : State} {inputs : List Input} {i : Input} (h : i ∈ effective step idle s inputs) :
    i ∈ inputs := by
  induction inputs generalizing s with
  | nil => exact h
  | cons j inputs ih =>
    rw [effective] at h
    split_ifs at h
    · exact List.mem_cons_of_mem j (ih h)
    · rcases List.mem_cons.mp h with rfl | h
      · exact List.mem_cons_self
      · exact List.mem_cons_of_mem j (ih h)

/-- Leaving out inputs that did not show changes what later inputs meet, but not what the
observer sees. -/
theorem Projection.view_effective {step : State → Input → State} {view : State → View}
    {next : View → Input → View} {inv : State → Prop} {admitted : Input → Prop}
    {idle : State → Input → Bool} {s : State} {inputs : List Input}
    (h : Projection step view next inv admitted)
    (hidle : ∀ s i, inv s → admitted i → idle s i = true → view (step s i) = view s)
    (hinv : inv s) (hadmitted : ∀ i ∈ inputs, admitted i) :
    view ((effective step idle s inputs).foldl step s) = view (inputs.foldl step s) := by
  rw [h.view_foldl hinv fun i hi => hadmitted i (mem_of_mem_effective hi),
    h.view_foldl hinv hadmitted]
  induction inputs generalizing s with
  | nil => rfl
  | cons i inputs ih =>
    have hi : admitted i := hadmitted i List.mem_cons_self
    have hrest := ih (h.keeps s i hinv hi) fun j hj => hadmitted j (List.mem_cons_of_mem i hj)
    rw [h.commutes s i hinv hi] at hrest
    rw [effective, List.foldl_cons]
    split_ifs with hstill
    · rw [← hrest, ← h.commutes s i hinv hi, hidle s i hinv hi hstill]
    · exact hrest

end Semantics
