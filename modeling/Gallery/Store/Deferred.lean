import Mathlib

/-!
# Changes that take effect later

Processes decide to add or to remove a key at one moment, and do so at a later one.
`now` is the set of keys as it stands and `later` the set in which every decision has
taken effect at once; a process that has decided and not yet acted owes the change of
its key. `Deferred` says that the two sets differ in exactly the keys owed, each of
which has one debtor, so that they are equal when nobody owes anything.

## Main results

* `Deferred.promise` — a process decides
* `Deferred.keep` — a process does what it has decided
-/

namespace Store

variable {Key Process : Type*} {now later : Set Key} {owes : Process → Option Key}
variable {p : Process} {k : Key}

/-- The sets agree on the keys nobody owes, and differ in those that are owed; a key is
owed by one process. -/
structure Deferred (now later : Set Key) (owes : Process → Option Key) : Prop where
  settled : ∀ k, (∀ p, owes p ≠ some k) → (k ∈ now ↔ k ∈ later)
  owed : ∀ p k, owes p = some k → (k ∈ now ↔ k ∉ later)
  alone : ∀ p q k, owes p = some k → owes q = some k → p = q

theorem mem_symmDiff_self {s : Set Key} : k ∈ symmDiff s {k} ↔ k ∉ s := by
  simp [Set.mem_symmDiff]

theorem mem_symmDiff_of_ne {s : Set Key} {j : Key} (h : j ≠ k) :
    j ∈ symmDiff s {k} ↔ j ∈ s := by
  simp [Set.mem_symmDiff, h]

namespace Deferred

theorem idle (hidle : ∀ p, owes p = none) : Deferred now now owes where
  settled _ _ := Iff.rfl
  owed p k hk := by simp [hidle p] at hk
  alone p q k hk := by simp [hidle p] at hk

variable [DecidableEq Process]

/-- A process decides to change a key that nobody owes. -/
theorem promise (h : Deferred now later owes) (hp : owes p = none) (hfree : ∀ q, owes q ≠ some k) :
    Deferred now (symmDiff later {k}) (Function.update owes p (some k)) := by
  have hother : ∀ q j, Function.update owes p (some k) q = some j →
      q = p ∧ j = k ∨ q ≠ p ∧ j ≠ k ∧ owes q = some j := by
    intro q j hq
    by_cases hqp : q = p
    · obtain rfl : k = j := by simpa [hqp] using hq
      exact .inl ⟨hqp, rfl⟩
    · rw [Function.update_of_ne hqp] at hq
      exact .inr ⟨hqp, fun hj => hfree q (hj ▸ hq), hq⟩
  refine ⟨fun j hj => ?_, fun q j hq => ?_, fun q q' j hq hq' => ?_⟩
  · have hjk : j ≠ k := fun hjk => hj p (by simp [hjk])
    rw [mem_symmDiff_of_ne hjk]
    refine h.settled j fun q hq => ?_
    by_cases hqp : q = p
    · rw [hqp, hp] at hq
      cases hq
    · exact hj q (by rwa [Function.update_of_ne hqp])
  · rcases hother q j hq with ⟨-, rfl⟩ | ⟨-, hjk, hq⟩
    · rw [mem_symmDiff_self, not_not]
      exact h.settled j hfree
    · rw [mem_symmDiff_of_ne hjk]
      exact h.owed q j hq
  · rcases hother q j hq with ⟨rfl, rfl⟩ | ⟨-, hjk, hq⟩ <;>
      rcases hother q' j hq' with ⟨rfl, hjk'⟩ | ⟨-, hjk', hq'⟩
    · rfl
    · exact absurd rfl hjk'
    · exact absurd hjk' hjk
    · exact h.alone q q' j hq hq'

/-- A process makes the change it owes. -/
theorem keep (h : Deferred now later owes) (hp : owes p = some k) :
    Deferred (symmDiff now {k}) later (Function.update owes p none) := by
  have hother : ∀ q j, Function.update owes p none q = some j → owes q = some j ∧ j ≠ k := by
    intro q j hq
    by_cases hqp : q = p
    · simp [hqp] at hq
    · rw [Function.update_of_ne hqp] at hq
      exact ⟨hq, fun hj => hqp (h.alone q p k (hj ▸ hq) hp)⟩
  refine ⟨fun j hj => ?_, fun q j hq => ?_, fun q q' j hq hq' => ?_⟩
  · by_cases hjk : j = k
    · rw [hjk, mem_symmDiff_self, h.owed p k hp, not_not]
    · rw [mem_symmDiff_of_ne hjk]
      refine h.settled j fun q hq => ?_
      have hqp : q ≠ p := fun hqp => hjk (Option.some.inj (hq.symm.trans (hqp ▸ hp)))
      exact hj q (by rwa [Function.update_of_ne hqp])
  · obtain ⟨hq, hjk⟩ := hother q j hq
    rw [mem_symmDiff_of_ne hjk]
    exact h.owed q j hq
  · exact h.alone q q' j (hother q j hq).1 (hother q' j hq').1

end Deferred

end Store
