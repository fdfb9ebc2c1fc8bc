import Mathlib.Data.Set.Basic

/-!
# Owners deleted together with what they own

Children refer to owners. A process that adds a child looks its owners up first
and holds them until the child becomes visible; a process that deletes an owner
first selects the children it is going to delete with it. `Custody` is the
discipline under which no child ever refers to an owner that is gone: what is
held is present, what is doomed has all its children selected, and nothing is
held and doomed at once.

## Main results

* `Custody.look_up` — taking hold of an owner that nobody is deleting
* `Custody.publish` — a child of owners one holds becomes visible
* `Custody.select` — dooming an owner that nobody holds
* `Custody.remove` — a doomed owner goes with the selected children
-/

namespace Store

variable {Owner Child Process : Type*}
variable {present present' : Owner → Prop} {refers refers' : Child → Owner → Prop}
variable {holds holds' : Process → Owner → Prop} {dooms dooms' : Process → Owner → Set Child → Prop}
variable {p : Process} {o : Owner} {cs : Set Child}

/-- Children have their owners; held owners are there; a doomed owner has no child
outside the selection; no owner is both held and doomed. -/
structure Custody (present : Owner → Prop) (refers : Child → Owner → Prop)
    (holds : Process → Owner → Prop) (dooms : Process → Owner → Set Child → Prop) : Prop where
  closed : ∀ c o, refers c o → present o
  held : ∀ p o, holds p o → present o
  selected : ∀ p o cs, dooms p o cs → ∀ c, refers c o → c ∈ cs
  apart : ∀ p q o cs, holds p o → ¬ dooms q o cs

namespace Custody

theorem idle (hclosed : ∀ c o, refers c o → present o) (hholds : ∀ p o, ¬ holds p o)
    (hdooms : ∀ p o cs, ¬ dooms p o cs) : Custody present refers holds dooms where
  closed := hclosed
  held p o h := absurd h (hholds p o)
  selected p o cs h := absurd h (hdooms p o cs)
  apart p _ o _ h := absurd h (hholds p o)

/-- Holds and selections may be given up at any time. -/
theorem release (h : Custody present refers holds dooms) (hholds : ∀ q o', holds' q o' → holds q o')
    (hdooms : ∀ q o' cs', dooms' q o' cs' → dooms q o' cs') :
    Custody present refers holds' dooms' where
  closed := h.closed
  held q o' hq := h.held q o' (hholds q o' hq)
  selected q o' cs' hq := h.selected q o' cs' (hdooms q o' cs' hq)
  apart q q' o' cs' hq hq' := h.apart q q' o' cs' (hholds q o' hq) (hdooms q' o' cs' hq')

/-- A process may take hold of an owner that is there and not doomed. -/
theorem look_up (h : Custody present refers holds dooms) (hpresent : present o)
    (hfree : ∀ q cs, ¬ dooms q o cs) (hholds : ∀ q o', holds' q o' → holds q o' ∨ o' = o) :
    Custody present refers holds' dooms where
  closed := h.closed
  held q o' hq := by
    rcases hholds q o' hq with hq | rfl
    · exact h.held q o' hq
    · exact hpresent
  selected := h.selected
  apart q q' o' cs' hq hq' := by
    rcases hholds q o' hq with hq | rfl
    · exact h.apart q q' o' cs' hq hq'
    · exact hfree q' cs' hq'

/-- A process may make a child of owners it holds visible. -/
theorem publish (h : Custody present refers holds dooms) (hpresent : ∀ o', present o' → present' o')
    (hrefers : ∀ c o', refers' c o' → refers c o' ∨ holds p o') :
    Custody present' refers' holds dooms where
  closed c o' hc := by
    rcases hrefers c o' hc with hc | hp
    · exact hpresent o' (h.closed c o' hc)
    · exact hpresent o' (h.held p o' hp)
  held q o' hq := hpresent o' (h.held q o' hq)
  selected q o' cs' hq c hc := by
    rcases hrefers c o' hc with hc | hp
    · exact h.selected q o' cs' hq c hc
    · exact absurd hq (h.apart p q o' cs' hp)
  apart := h.apart

/-- A process may doom an owner nobody holds, with all its children selected. -/
theorem select (h : Custody present refers holds dooms) (hfree : ∀ q, ¬ holds q o)
    (hall : ∀ c, refers c o → c ∈ cs)
    (hdooms : ∀ q o' cs', dooms' q o' cs' → dooms q o' cs' ∨ (o' = o ∧ cs' = cs)) :
    Custody present refers holds dooms' where
  closed := h.closed
  held := h.held
  selected q o' cs' hq c hc := by
    rcases hdooms q o' cs' hq with hq | ⟨rfl, rfl⟩
    · exact h.selected q o' cs' hq c hc
    · exact hall c hc
  apart q q' o' cs' hq hq' := by
    rcases hdooms q' o' cs' hq' with hq' | ⟨rfl, rfl⟩
    · exact h.apart q q' o' cs' hq hq'
    · exact hfree q hq

/-- A doomed owner may go together with the selected children. -/
theorem remove (h : Custody present refers holds dooms) (hdoomed : dooms p o cs)
    (hpresent : ∀ o', present o' → o' ≠ o → present' o')
    (hrefers : ∀ c o', refers' c o' → refers c o' ∧ c ∉ cs) :
    Custody present' refers' holds dooms where
  closed c o' hc := by
    obtain ⟨hc, hcs⟩ := hrefers c o' hc
    exact hpresent o' (h.closed c o' hc) fun heq => hcs (h.selected p o cs hdoomed c (heq ▸ hc))
  held q o' hq := hpresent o' (h.held q o' hq) fun heq => h.apart q p o cs (heq ▸ hq) hdoomed
  selected q o' cs' hq c hc := h.selected q o' cs' hq c (hrefers c o' hc).1
  apart := h.apart

end Custody

end Store
