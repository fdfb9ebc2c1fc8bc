import Gallery.Semantics.Action

/-!
# Two runs of a program

Relational Hoare logic for programs that keep their writes when they fail. Two
programs are coupled by a relation on states when from related states they
return related values, or raise the same error, and leave related states.

## Main definitions

* `Action.SameEnd` — both return related values or raise the same error
* `Action.Coupled` — two programs, run from related states

## Main results

* `Coupled.bind`, `Coupled.seq` — sequences of coupled programs are coupled
-/

namespace Semantics

namespace Action

variable {ε σ α β γ δ : Type} {R : σ → σ → Prop} {Q : α → β → Prop}

/-- Both results are values related by `Q`, or both are the same error. -/
def SameEnd (Q : α → β → Prop) : Except ε α → Except ε β → Prop
  | .ok a, .ok b => Q a b
  | .error e, .error e' => e = e'
  | _, _ => False

/-- From states related by `R` the programs end the same way, in states related by `R`. -/
def Coupled (R : σ → σ → Prop) (Q : α → β → Prop) (m : Action ε σ α) (m' : Action ε σ β) : Prop :=
  ∀ s s', R s s' →
    SameEnd Q (exec m s).1 (exec m' s').1 ∧ R (exec m s).2 (exec m' s').2

namespace Coupled

theorem pure {a : α} {b : β} (h : Q a b) :
    Coupled R Q (pure a : Action ε σ α) (pure b) := fun _ _ hs => ⟨h, hs⟩

theorem throw (e : ε) : Coupled R Q (throw e : Action ε σ α) (throw e) :=
  fun _ _ hs => ⟨rfl, hs⟩

/-- Reading the state. -/
theorem get : Coupled R R (get : Action ε σ σ) get := fun _ _ hs => ⟨hs, hs⟩

/-- A pair of writes that keeps the relation. -/
theorem modify {f f' : σ → σ} (h : ∀ s s', R s s' → R (f s) (f' s')) :
    Coupled R Eq (modify f : Action ε σ PUnit) (modify f') := fun _ _ hs => ⟨rfl, h _ _ hs⟩

/-- A sequence is coupled when its parts are, the second for all related values of the first. -/
theorem bind {m : Action ε σ α} {m' : Action ε σ β} {f : α → Action ε σ γ} {f' : β → Action ε σ δ}
    {Q' : γ → δ → Prop} (hm : Coupled R Q m m') (hf : ∀ a b, Q a b → Coupled R Q' (f a) (f' b)) :
    Coupled R Q' (m >>= f) (m' >>= f') := by
  intro s s' hs
  obtain ⟨hend, hstate⟩ := hm s s' hs
  rw [exec_bind, exec_bind]
  rcases hrun : exec m s with ⟨e | a, t⟩ <;> rcases hrun' : exec m' s' with ⟨e' | b, t'⟩ <;>
    rw [hrun, hrun'] at hend hstate
  · exact ⟨hend, hstate⟩
  · exact hend.elim
  · exact hend.elim
  · exact hf a b hend t t' hstate

/-- The rule of sequences for values that are equal. -/
theorem seq {m m' : Action ε σ α} {f : α → Action ε σ γ} {f' : α → Action ε σ δ}
    {Q' : γ → δ → Prop} (hm : Coupled R Eq m m') (hf : ∀ a, Coupled R Q' (f a) (f' a)) :
    Coupled R Q' (m >>= f) (m' >>= f') := hm.bind fun a _ h => h ▸ hf a

end Coupled

end Action

end Semantics
