import Gallery.Semantics.Projection
import Mathlib.Algebra.Group.Nat.Even

/-!
# What the inputs of a run account for

Two ways of reading the state at the end of a run off the inputs that led to it. Items that
are only ever put into a state by an input are traced to the input that put them there. A
fact that some inputs turn into its opposite, and no other input affects, depends on the
parity of the number of these inputs.

## Main definitions

* `MadeIn` — an item was made by an input of a run

## Main results

* `origin` — every item of the last state is old or was made in the run
* `parity` — a fact after a run, by the number of inputs that turned it
-/

namespace Semantics

variable {State Input Item : Type*} {step : State → Input → State}

section Origin

variable {made : State → Input → Item → Prop} {has : State → Item → Prop}
variable {s : State} {inputs : List Input} {x : Item}

/-- One of the inputs made the item, in the state that the inputs before it had led to. -/
def MadeIn (step : State → Input → State) (made : State → Input → Item → Prop) (s : State)
    (inputs : List Input) (x : Item) : Prop :=
  ∃ before i after, inputs = before ++ i :: after ∧ made (before.foldl step s) i x

theorem MadeIn.cons {i : Input} (h : MadeIn step made (step s i) inputs x) :
    MadeIn step made s (i :: inputs) x := by
  obtain ⟨before, j, after, rfl, hmade⟩ := h
  exact ⟨i :: before, j, after, rfl, hmade⟩

/-- What is there after a run was there before it or was made by one of its inputs. -/
theorem origin (h : ∀ s i x, has (step s i) x → has s x ∨ made s i x)
    (hx : has (inputs.foldl step s) x) : has s x ∨ MadeIn step made s inputs x := by
  induction inputs generalizing s with
  | nil => exact .inl hx
  | cons i inputs ih =>
    rcases ih hx with hold | hmade
    · exact (h s i x hold).imp_right fun hmade => ⟨[], i, inputs, rfl, hmade⟩
    · exact .inr hmade.cons

end Origin

section Parity

variable {has : State → Prop} {turns : State → Input → Bool} {s : State} {inputs : List Input}

/-- A fact that the inputs which `turn` it negate and all others leave alone. -/
theorem parity (h : ∀ s, ∀ i ∈ inputs, has (step s i) ↔ (has s ↔ turns s i = false)) :
    has (inputs.foldl step s) ↔
      (has s ↔ Even (effective step (fun s i => !turns s i) s inputs).length) := by
  induction inputs generalizing s with
  | nil => simp [effective]
  | cons i inputs ih =>
    have hstep := h s i List.mem_cons_self
    rw [List.foldl_cons, ih fun s j hj => h s j (List.mem_cons_of_mem i hj), hstep, effective]
    cases hturns : turns s i with
    | false => simp
    | true =>
      simp only [Bool.not_true, Bool.true_eq_false, Bool.false_eq_true, iff_false, if_false,
        List.length_cons, Nat.even_add_one]
      exact not_iff_comm.trans iff_comm

end Parity

end Semantics
