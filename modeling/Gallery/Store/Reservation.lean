import Mathlib.Data.List.Basic
import Mathlib.Logic.Function.Basic

/-!
# Reserving a key before publishing it

Processes that look a key up, find nothing and insert it later: between the
look-up and the moment its row becomes visible a process holds the key.
`Exclusive` is the discipline under which no key is ever published twice: at
most one row per key, a key that is held has none, and nobody else holds it.

## Main results

* `Exclusive.reserve` — taking a key that is absent and that nobody holds
* `Exclusive.publish` — the row becomes visible and the key is given up
* `Exclusive.release`, `Exclusive.shrink` — giving a key up, losing rows
-/

namespace Store

variable {Key Process : Type*} {count count' : Key → ℕ} {holds : Process → Option Key}
variable {p : Process} {k : Key}

/-- At most one row per key; a held key has none, and has one holder. -/
structure Exclusive (count : Key → ℕ) (holds : Process → Option Key) : Prop where
  unique : ∀ k, count k ≤ 1
  absent : ∀ p k, holds p = some k → count k = 0
  alone : ∀ p q k, holds p = some k → holds q = some k → p = q

namespace Exclusive

theorem idle (hunique : ∀ k, count k ≤ 1) (hidle : ∀ p, holds p = none) :
    Exclusive count holds where
  unique := hunique
  absent p k hk := by simp [hidle p] at hk
  alone p q k hk := by simp [hidle p] at hk

/-- Rows may go at any time. -/
theorem shrink (h : Exclusive count holds) (hle : ∀ k, count' k ≤ count k) :
    Exclusive count' holds where
  unique k := Nat.le_trans (hle k) (h.unique k)
  absent p k hk := Nat.le_zero.mp (h.absent p k hk ▸ hle k)
  alone := h.alone

variable [DecidableEq Process]

/-- A process may give its key up. -/
theorem release (h : Exclusive count holds) (p : Process) :
    Exclusive count (Function.update holds p none) := by
  have hkeep : ∀ q k, Function.update holds p none q = some k → holds q = some k := by
    intro q k hq
    by_cases hqp : q = p
    · simp [hqp] at hq
    · rwa [Function.update_of_ne hqp] at hq
  exact ⟨h.unique, fun q k hq => h.absent q k (hkeep q k hq),
    fun q q' k hq hq' => h.alone q q' k (hkeep q k hq) (hkeep q' k hq')⟩

/-- A process may take a key that has no row and that nobody else holds. -/
theorem reserve (h : Exclusive count holds) (hk : count k = 0)
    (hfree : ∀ q, q ≠ p → holds q ≠ some k) :
    Exclusive count (Function.update holds p (some k)) := by
  refine ⟨h.unique, fun q j hq => ?_, fun q q' j hq hq' => ?_⟩
  · by_cases hqp : q = p
    · obtain rfl : k = j := by simpa [hqp] using hq
      exact hk
    · rw [Function.update_of_ne hqp] at hq
      exact h.absent q j hq
  · by_cases hqp : q = p <;> by_cases hqp' : q' = p
    · rw [hqp, hqp']
    · obtain rfl : k = j := by simpa [hqp] using hq
      rw [Function.update_of_ne hqp'] at hq'
      exact absurd hq' (hfree q' hqp')
    · obtain rfl : k = j := by simpa [hqp'] using hq'
      rw [Function.update_of_ne hqp] at hq
      exact absurd hq (hfree q hqp)
    · rw [Function.update_of_ne hqp] at hq
      rw [Function.update_of_ne hqp'] at hq'
      exact h.alone q q' j hq hq'

/-- The holder of a key may make its row visible and give the key up. -/
theorem publish [DecidableEq Key] (h : Exclusive count holds) (hp : holds p = some k)
    (hcount : ∀ j, count' j = count j + if j = k then 1 else 0) :
    Exclusive count' (Function.update holds p none) := by
  have hother : ∀ q j, Function.update holds p none q = some j → holds q = some j ∧ j ≠ k := by
    intro q j hq
    by_cases hqp : q = p
    · simp [hqp] at hq
    · rw [Function.update_of_ne hqp] at hq
      exact ⟨hq, fun hj => hqp (h.alone q p k (hj ▸ hq) hp)⟩
  refine ⟨fun j => ?_, fun q j hq => ?_, fun q q' j hq hq' => ?_⟩
  · rw [hcount]
    by_cases hj : j = k
    · have := h.absent p k hp
      simp [hj, this]
    · simpa [hj] using h.unique j
  · obtain ⟨hq, hj⟩ := hother q j hq
    simpa [hcount, hj] using h.absent q j hq
  · exact h.alone q q' j (hother q j hq).1 (hother q' j hq').1

end Exclusive

end Store
