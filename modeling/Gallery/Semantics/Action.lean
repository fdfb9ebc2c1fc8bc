import Mathlib.Logic.Basic

/-!
# Programs that keep their writes when they fail

A program over a state `σ` either returns a value or raises an error, and in
both cases leaves a state behind: what was written before the error stays
written. This is `ExceptT` over `StateM`; the module gives its execution
function and the equations that run a program statement by statement.
-/

namespace Semantics

/-- A program over `σ` that may raise an `ε`; a raise does not undo earlier writes. -/
abbrev Action (ε σ α : Type) := ExceptT ε (StateM σ) α

namespace Action

variable {ε σ α β : Type}

/-- Runs a program: its value or error, and the state it leaves. -/
def exec (m : Action ε σ α) (s : σ) : Except ε α × σ := StateT.run (ExceptT.run m) s

@[simp] theorem exec_pure (a : α) (s : σ) : exec (pure a : Action ε σ α) s = (.ok a, s) := rfl

@[simp] theorem exec_modify (f : σ → σ) (s : σ) :
    exec (modify f : Action ε σ PUnit) s = (.ok ⟨⟩, f s) := rfl

/-- What a sequence does once its first part has been run. -/
@[simp] theorem exec_bind (m : Action ε σ α) (f : α → Action ε σ β) (s : σ) :
    exec (m >>= f) s = match exec m s with
      | (.ok a, t) => exec (f a) t
      | (.error e, t) => (.error e, t) := by
  unfold exec
  simp only [bind, ExceptT.run, ExceptT.bind, ExceptT.mk, StateT.run, StateT.bind]
  rcases m s with ⟨_ | _, _⟩ <;> rfl

@[simp] theorem exec_map (f : α → β) (m : Action ε σ α) (s : σ) :
    exec (f <$> m) s = match exec m s with
      | (.ok a, t) => (.ok (f a), t)
      | (.error e, t) => (.error e, t) := by
  unfold exec
  simp only [Functor.map, ExceptT.run, ExceptT.map, ExceptT.mk, StateT.run, bind, StateT.bind]
  rcases m s with ⟨_ | _, _⟩ <;> rfl

theorem exec_ite (c : Prop) [Decidable c] (m n : Action ε σ α) (s : σ) :
    exec (if c then m else n) s = if c then exec m s else exec n s := by
  split <;> rfl

end Action

end Semantics
