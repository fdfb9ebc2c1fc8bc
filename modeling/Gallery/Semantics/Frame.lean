import Gallery.Semantics.Action

/-!
# What a program leaves alone

A program leaves a part of the state alone when that part is the same after every run of
it, whether the run returns or raises an error.

## Main definitions

* `Action.Leaves` — a program leaves a part of the state alone

## Main results

* `Leaves.bind` — a sequence leaves alone what its parts leave alone
* `Leaves.modify` — a write to another part
-/

namespace Semantics

namespace Action

variable {ε σ τ α β : Type} {part : σ → τ}

/-- The part of the state is the same after every run. -/
def Leaves (part : σ → τ) (m : Action ε σ α) : Prop := ∀ s, part (exec m s).2 = part s

namespace Leaves

theorem pure (a : α) : Leaves part (pure a : Action ε σ α) := fun _ => rfl

theorem throw (e : ε) : Leaves part (throw e : Action ε σ α) := fun _ => rfl

theorem get : Leaves part (get : Action ε σ σ) := fun _ => rfl

theorem modify {f : σ → σ} (h : ∀ s, part (f s) = part s) :
    Leaves part (modify f : Action ε σ PUnit) := h

/-- What comes afterwards does not change the part. -/
theorem part_bind (part : σ → τ) {m : Action ε σ α} {f : α → Action ε σ β}
    (hf : ∀ a, Leaves part (f a)) (s : σ) :
    part (exec (m >>= f) s).2 = part (exec m s).2 := by
  rw [exec_bind]
  rcases exec m s with ⟨e | a, t⟩
  · rfl
  · exact hf a t

theorem bind {m : Action ε σ α} {f : α → Action ε σ β} (hm : Leaves part m)
    (hf : ∀ a, Leaves part (f a)) : Leaves part (m >>= f) :=
  fun s => (part_bind part hf s).trans (hm s)

theorem ite {c : Prop} [Decidable c] {m n : Action ε σ α} (hm : Leaves part m)
    (hn : Leaves part n) : Leaves part (if c then m else n) := by
  split
  · exact hm
  · exact hn

/-- Rewriting an error. -/
theorem tryCatch {m : Action ε σ α} {f : ε → ε} (hm : Leaves part m) :
    Leaves part (MonadExcept.tryCatch m fun e => MonadExcept.throw (f e) : Action ε σ α) := by
  intro s
  have hms := hm s
  unfold exec at hms ⊢
  simp only [MonadExcept.tryCatch, tryCatchThe, MonadExceptOf.tryCatch, ExceptT.tryCatch,
    ExceptT.run, ExceptT.mk, StateT.run, Bind.bind, StateT.bind] at hms ⊢
  rcases hrun : m s with ⟨_ | _, _⟩ <;> rw [hrun] at hms <;> exact hms

end Leaves

end Action

end Semantics
