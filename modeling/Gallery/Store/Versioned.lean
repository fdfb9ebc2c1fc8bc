import Mathlib.Data.List.Basic

/-!
# Contents recorded under versions

A cache whose entries never expire is keyed by what identifies a row and by a version of
it. What has been recorded stays right as long as a row whose content changes gets a
version that nothing is recorded under.

## Main definitions

* `Faithful` — what is recorded is what the rows hold
* `Supersedes` — a change that leaves no record behind

## Main results

* `Faithful.change`, `Faithful.record` — what keeps the records faithful
* `map_eq_of_keys` — lists whose keys agree, entry by entry
-/

namespace Store

variable {K V C : Type*} {recorded recorded' : K → V → C → Prop} {old new : K → Option (V × C)}

/-- Where a row still has the version it was recorded under, it still holds what was
recorded. -/
def Faithful (recorded : K → V → C → Prop) (now : K → Option (V × C)) : Prop :=
  ∀ k v c c', recorded k v c → now k = some (v, c') → c' = c

/-- Every row is gone, holds what it held under the version it had, or has a version that
nothing is recorded under. -/
def Supersedes (recorded : K → V → C → Prop) (old new : K → Option (V × C)) : Prop :=
  ∀ k v c, new k = some (v, c) → old k = some (v, c) ∨ ∀ c', ¬ recorded k v c'

theorem Faithful.change (h : Faithful recorded old) (hnew : Supersedes recorded old new) :
    Faithful recorded new := by
  intro k v c c' hrecorded hk
  rcases hnew k v c' hk with hold | hunrecorded
  · exact h k v c c' hrecorded hold
  · exact absurd hrecorded (hunrecorded c)

/-- Recording what rows hold now. -/
theorem Faithful.record (h : Faithful recorded old)
    (hrecord : ∀ k v c, recorded' k v c → recorded k v c ∨ old k = some (v, c)) :
    Faithful recorded' old := by
  intro k v c c' hrecorded hk
  rcases hrecord k v c hrecorded with hbefore | hnow
  · exact h k v c c' hbefore hk
  · rw [hnow] at hk
    exact (Prod.mk.inj (Option.some.inj hk)).2.symm

theorem Supersedes.of_eq (h : new = old) : Supersedes recorded old new :=
  fun _ _ _ hk => .inl (h ▸ hk)

theorem Supersedes.trans {newer : K → Option (V × C)} (h : Supersedes recorded old new)
    (h' : Supersedes recorded new newer) : Supersedes recorded old newer := by
  intro k v c hk
  rcases h' k v c hk with hnew | hunrecorded
  · exact h k v c hnew
  · exact .inr hunrecorded

/-- One row changes, and the others stay or go. -/
theorem Supersedes.at (k₀ : K) (hothers : ∀ k, k ≠ k₀ → new k = none ∨ new k = old k)
    (h : ∀ v c, new k₀ = some (v, c) → old k₀ = some (v, c) ∨ ∀ c', ¬ recorded k₀ v c') :
    Supersedes recorded old new := by
  intro k v c hk
  by_cases hkey : k = k₀
  · subst hkey
    exact h v c hk
  · rcases hothers k hkey with hgone | hsame
    · rw [hgone] at hk
      contradiction
    · exact .inl (hsame ▸ hk)

/-- Two lists have the same keys, and entries with the same key look the same: the lists
look the same. -/
theorem map_eq_of_keys {α β γ : Type*} {key : α → β} {f : α → γ} {xs ys : List α}
    (hkeys : xs.map key = ys.map key) (h : ∀ x ∈ xs, ∀ y ∈ ys, key x = key y → f x = f y) :
    xs.map f = ys.map f := by
  induction xs generalizing ys with
  | nil =>
    obtain rfl : ys = [] := by simpa using hkeys.symm
    rfl
  | cons x xs ih =>
    -- the lists have the same length, as their keys do
    cases ys with
    | nil => simp at hkeys
    | cons y ys =>
      simp only [List.map_cons, List.cons.injEq] at hkeys ⊢
      constructor
      · exact h x List.mem_cons_self y List.mem_cons_self hkeys.1
      · exact ih hkeys.2 fun x hx y hy =>
          h x (List.mem_cons_of_mem _ hx) y (List.mem_cons_of_mem _ hy)

end Store
