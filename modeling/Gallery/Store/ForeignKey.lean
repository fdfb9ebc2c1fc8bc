import Gallery.Store.Table

/-!
# Foreign keys

`Refs t key s` says that the key column `key` of every row of `t` names a row of
`s`. The module gives the rule for each kind of write to either table.

## Main results

* `Refs.insert`, `Refs.delete`, `Refs.insert_target`, `Refs.update_target` —
  writes that keep the references
* `Refs.delete_target` — deleting from the table referred to needs a reason
-/

namespace Store

variable {α β γ : Type*} {t : Table α} {s : Table β} {key : α → ℤ}

/-- Every key in the column `key` of `t` names a row of `s`. -/
def Refs (t : Table α) (key : α → ℤ) (s : Table β) : Prop := ∀ r ∈ t.rows, s.Has (key r.val)

namespace Refs

@[simp] theorem empty : Refs (.empty : Table α) key s := by simp [Refs]

theorem insert {a : α} (h : Refs t key s) (ha : s.Has (key a)) : Refs (t.insert a) key s := by
  intro r hr
  rcases List.mem_append.mp hr with hr | hr
  · exact h r hr
  · rwa [List.mem_singleton.mp hr]

theorem delete (h : Refs t key s) (p : Row α → Bool) : Refs (t.delete p) key s :=
  fun r hr => h r (List.mem_of_mem_filter hr)

theorem update (h : Refs t key s) {f : Row α → α} (hf : ∀ r, key (f r) = key r.val) :
    Refs (t.update f) key s := by
  intro r hr
  obtain ⟨r₀, hr₀, rfl⟩ := List.mem_map.mp hr
  simpa only [hf] using h r₀ hr₀

theorem insert_target (h : Refs t key s) (b : β) : Refs t key (s.insert b) :=
  fun r hr => by simpa using .inl (h r hr)

theorem update_target (h : Refs t key s) (f : Row β → γ) : Refs t key (s.update f) :=
  fun r hr => by simpa using h r hr

/-- A row may go when nothing in the column names it. -/
theorem delete_target {j : ℤ} (h : Refs t key s) (hj : ∀ r ∈ t.rows, key r.val ≠ j) :
    Refs t key (s.delete fun b => b.id = j) :=
  fun r hr => by simpa using ⟨h r hr, hj r hr⟩

/-- Inserting a batch of rows whose keys all name rows. -/
theorem foldl_insert {ι : Type*} {f : ι → α} (l : List ι) (h : Refs t key s)
    (hf : ∀ i ∈ l, s.Has (key (f i))) : Refs (l.foldl (fun t i => t.insert (f i)) t) key s := by
  induction l generalizing t with
  | nil => exact h
  | cons i l ih =>
    exact ih (h.insert (hf i List.mem_cons_self)) fun j hj => hf j (List.mem_cons_of_mem _ hj)

end Refs

end Store
