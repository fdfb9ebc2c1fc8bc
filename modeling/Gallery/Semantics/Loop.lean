import Gallery.Semantics.Action

/-!
# Loops over a list

The rule for a loop whose body always returns: a relation between what has been done and
the state, which the body carries from one element to the next, holds in the end of
everything.

## Main results

* `Action.exec_forM` — the rule
* `Action.exec_adapt` — a program whose errors are wrapped
-/

namespace Semantics

namespace Action

variable {ε ε' σ ι α : Type}

/-- If the body returns and adds its element to what has been done, then the loop returns and
has done everything. -/
theorem exec_forM (P : List ι → σ → Prop) {body : ι → Action ε σ PUnit} {xs : List ι} {s : σ}
    (h : P [] s) (hbody : ∀ done x s, x ∈ xs → P done s →
      ∃ t, exec (body x) s = (.ok ⟨⟩, t) ∧ P (done ++ [x]) t) :
    ∃ t, exec (xs.forM body) s = (.ok ⟨⟩, t) ∧ P xs t := by
  -- from the middle of the loop on
  suffices hrest : ∀ done s, P done s → (∀ done x s, x ∈ xs → P done s →
      ∃ t, exec (body x) s = (.ok ⟨⟩, t) ∧ P (done ++ [x]) t) →
        ∃ t, exec (xs.forM body) s = (.ok ⟨⟩, t) ∧ P (done ++ xs) t from hrest [] s h hbody
  clear h hbody s
  induction xs with
  | nil => exact fun done s h _ => ⟨s, rfl, by simpa using h⟩
  | cons x xs ih =>
    intro done s h hbody
    obtain ⟨s', hx, hs'⟩ := hbody done x s List.mem_cons_self h
    obtain ⟨t, hxs, ht⟩ := ih (done ++ [x]) s' hs' fun done y s hy =>
      hbody done y s (List.mem_cons_of_mem x hy)
    refine ⟨t, ?_, by simpa using ht⟩
    change exec (body x >>= fun _ => xs.forM body) s = _
    rw [exec_bind, hx]
    exact hxs

theorem exec_adapt (f : ε → ε') (m : Action ε σ α) (s : σ) :
    exec (ExceptT.adapt f m) s = ((exec m s).1.mapError f, (exec m s).2) := rfl

end Action

end Semantics
