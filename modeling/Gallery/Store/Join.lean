import Gallery.Store.Table

/-!
# Tables joined through a third

A join table has a row for each pair of a row on the left and a row on the right. When a new
row comes on the left together with its links, it comes last in what is joined to each key
it is linked to, and nothing else changes, provided that no link refers to a key before the
key has been handed out.

## Main definitions

* `Table.joined` — the rows on the left that are joined to a key on the right
* `Links` — the links refer to keys that have been handed out

## Main results

* `Links.joined_insert` — a new row with its links
* `Links.joined_eq_nil` — a key that has not been handed out
* `Links.insert`, `Links.later` — how the condition is kept
-/

namespace Store

variable {α β γ : Type*} {links : Table γ} {left right : γ → ℤ} {t : Table α} {s s' : Table β}
variable {entry : ℤ → γ} {a : α} {i : ℤ}

/-- The rows of `t` that `links` joins to a key, in the order of the links. -/
def Table.joined (links : Table γ) (left right : γ → ℤ) (t : Table α) (i : ℤ) : List α :=
  (links.rows.filterMap fun l => if right l.val = i then t.find? (left l.val) else none).map Row.val

/-- An entry for each key. -/
def Table.insertAll (links : Table γ) (entry : ℤ → γ) (ids : List ℤ) : Table γ :=
  ids.foldl (fun links i => links.insert (entry i)) links

/-- The links refer to keys that have been handed out. -/
structure Links (links : Table γ) (left right : γ → ℤ) (t : Table α) (s : Table β) : Prop where
  left : ∀ l ∈ links.rows, left l.val < t.next
  right : ∀ l ∈ links.rows, right l.val < s.next

/-- What is joined to a key when only some of the columns are shown. -/
theorem Table.joined_update {δ : Type*} (f : Row α → δ) :
    links.joined left right (t.update f) i = (links.rows.filterMap fun l =>
      if right l.val = i then t.find? (left l.val) else none).map f := by
  rw [Table.joined, List.map_filterMap, List.map_filterMap]
  refine List.filterMap_congr fun l _ => ?_
  by_cases hl : right l.val = i
  · simp [hl, Function.comp_def]
  · simp [hl]

/-- A row that can be found is joined to each key as often as there is a link. -/
theorem Table.joined_insertAll {r : Row α} (hr : t.find? r.id = some r)
    (hleft : ∀ c, left (entry c) = r.id) (hright : ∀ c, right (entry c) = c) (ids : List ℤ) :
    (links.insertAll entry ids).joined left right t i =
      links.joined left right t i ++ List.replicate (ids.count i) r.val := by
  induction ids generalizing links with
  | nil => simp [Table.insertAll]
  | cons c ids ih =>
    have hfirst : (links.insert (entry c)).joined left right t i =
        links.joined left right t i ++ if c = i then [r.val] else [] := by
      by_cases hc : c = i
      · simp [Table.joined, hleft, hright, hr, hc]
      · simp [Table.joined, hright, hc]
    rw [Table.insertAll, List.foldl_cons, ← Table.insertAll, ih, hfirst, List.append_assoc,
      List.count_cons]
    by_cases hc : c = i
    · simp [hc, List.replicate_succ]
    · simp [hc]

/-- The key of a row is one of those selected by a predicate at most once. -/
theorem Table.count_ids {r : Row α} (hr : r ∈ t.rows) (p : Row α → Bool) :
    ((t.rows.filter p).map Row.id).count r.id = if p r then 1 else 0 := by
  have hnodup : ((t.rows.filter p).map Row.id).Nodup :=
    (List.filter_sublist.map _).nodup t.distinct
  by_cases hp : p r
  · rw [if_pos hp]
    exact List.count_eq_one_of_mem hnodup (List.mem_map_of_mem (List.mem_filter.mpr ⟨hr, hp⟩))
  · rw [if_neg hp]
    refine List.count_eq_zero_of_not_mem fun hmem => hp ?_
    obtain ⟨r', hr', hid⟩ := List.mem_map.mp hmem
    obtain ⟨hr', hp'⟩ := List.mem_filter.mp hr'
    rwa [Table.eq_of_id_eq hr' hr hid] at hp'

namespace Links

/-- Nothing is joined to a key that has not been handed out. -/
theorem joined_eq_nil (h : Links links left right t s) (hi : s.next ≤ i) :
    links.joined left right t i = [] := by
  have hnone : ∀ l ∈ links.rows,
      (if right l.val = i then t.find? (left l.val) else none) = none := fun l hl =>
    if_neg ((h.right l hl).trans_le hi).ne
  simp [Table.joined, List.filterMap_eq_nil_iff.mpr hnone]

/-- A new row with its links comes last. -/
theorem joined_insert (h : Links links left right t s) (a : α) (entry : ℤ → γ)
    (hleft : ∀ c, left (entry c) = t.next) (hright : ∀ c, right (entry c) = c) (ids : List ℤ)
    (i : ℤ) :
    (links.insertAll entry ids).joined left right (t.insert a) i =
      links.joined left right t i ++ List.replicate (ids.count i) a := by
  have hnew : (t.insert a).find? t.next = some ⟨t.next, a⟩ :=
    Table.find?_eq_some_iff.mpr ⟨by simp, rfl⟩
  have hold : links.joined left right (t.insert a) i = links.joined left right t i := by
    refine congrArg (List.map Row.val) (List.filterMap_congr fun l hl => ?_)
    rw [Table.find?_insert_of_ne a (h.left l hl).ne]
  rw [Table.joined_insertAll (r := ⟨t.next, a⟩) hnew hleft hright, hold]

/-- The new links refer to the new row, and to keys there are. -/
theorem insert (h : Links links left right t s) (entry : ℤ → γ)
    (hleft : ∀ c, left (entry c) = t.next) (hright : ∀ c, right (entry c) = c) {ids : List ℤ}
    (hids : ∀ c ∈ ids, s.Has c) :
    Links (links.insertAll entry ids) left right (t.insert a) s := by
  have hmem : ∀ l ∈ (links.insertAll entry ids).rows,
      l ∈ links.rows ∨ ∃ c ∈ ids, l.val = entry c := by
    clear h hids
    induction ids generalizing links with
    | nil => exact fun l hl => .inl hl
    | cons c ids ih =>
      intro l hl
      rcases ih l hl with hl | ⟨d, hd, hval⟩
      · rcases List.mem_append.mp hl with hl | hl
        · exact .inl hl
        · rw [List.mem_singleton.mp hl]
          exact .inr ⟨c, List.mem_cons_self, rfl⟩
      · exact .inr ⟨d, List.mem_cons_of_mem c hd, hval⟩
  constructor
  · intro l hl
    change _ < t.next + 1
    rcases hmem l hl with hl | ⟨c, -, hval⟩
    · exact Int.lt_add_one_of_le (h.left l hl).le
    · rw [hval, hleft]
      exact Int.lt_succ _
  · intro l hl
    rcases hmem l hl with hl | ⟨c, hc, hval⟩
    · exact h.right l hl
    · rw [hval, hright]
      exact (hids c hc).bounds.2

/-- On the right anything may happen but a key handed out twice. -/
theorem later (h : Links links left right t s) (hs : s.Later s') : Links links left right t s' :=
  ⟨h.left, fun l hl => (h.right l hl).trans_le hs.next⟩

end Links

end Store
