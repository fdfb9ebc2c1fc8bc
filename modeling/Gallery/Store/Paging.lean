import Mathlib.Algebra.BigOperators.Group.List.Basic
import Mathlib.Algebra.GroupWithZero.Nat
import Mathlib.Data.List.Dedup
import Mathlib.Data.List.Perm.Basic
import Mathlib.Data.List.Sort
import Mathlib.Order.Defs.LinearOrder

/-!
# Ordered queries and their pages

An `ORDER BY` clause compares any two rows, but need not tell them apart: the
answers to a query are all sorted arrangements of its rows, and two queries for
two pages may be answered by different ones. A row is then shown on no page, or
on two, as soon as rows that compare equal lie on both sides of the end of a page.

## Main definitions

* `RowOrder` — what an `ORDER BY` clause compares by; `RowOrder.lex` for two keys
* `RowOrder.Answers`, `RowOrder.sort` — the answers to a query, and one to compute with
* `page` — `LIMIT` and `OFFSET`
* `RowOrder.NoStraddle` — rows that compare equal are on one page

## Main results

* `RowOrder.Answers.before_le`, `RowOrder.Answers.lt_upTo` — where a row stands in an answer
* `forall_answers_pairwise_iff` — when every answer to one query is in another order too
* `pages_partition_iff` — when the pages show every row once, whatever the answers
-/

namespace Store

/-- A total preorder on rows. -/
@[ext]
structure RowOrder (α : Type*) where
  le : α → α → Bool
  total : ∀ x y, (le x y || le y x) = true
  trans : ∀ x y z, le x y = true → le y z = true → le x z = true

namespace RowOrder

variable {α β : Type*}

/-- No `ORDER BY`. -/
def any : RowOrder α where
  le _ _ := true
  total _ _ := rfl
  trans _ _ _ _ _ := rfl

/-- In ascending order. -/
def ascending [LinearOrder α] : RowOrder α where
  le x y := x ≤ y
  total x y := by simpa using le_total x y
  trans x y z hxy hyz := by
    rw [decide_eq_true_eq] at *
    exact hxy.trans hyz

/-- By a column. -/
def comap (r : RowOrder β) (f : α → β) : RowOrder α where
  le x y := r.le (f x) (f y)
  total x y := r.total (f x) (f y)
  trans x y z := r.trans (f x) (f y) (f z)

/-- `DESC` -/
def flip (r : RowOrder α) : RowOrder α where
  le x y := r.le y x
  total x y := r.total y x
  trans x y z hxy hyz := r.trans z y x hyz hxy

/-- Two keys, the second for the ties of the first. -/
def lex (r s : RowOrder α) : RowOrder α where
  le x y := r.le x y && (!r.le y x || s.le x y)
  total x y := by
    have hr := r.total x y
    have hs := s.total x y
    cases hxy : r.le x y <;> cases hyx : r.le y x <;> simp_all
  trans x y z := by
    have hzyx := r.trans z x y
    have hyxz := r.trans y z x
    have hr := r.trans x y z
    have hs := s.trans x y z
    simp only [Bool.and_eq_true, Bool.or_eq_true, Bool.not_eq_true']
    rintro ⟨hxy, hxy'⟩ ⟨hyz, hyz'⟩
    refine ⟨hr hxy hyz, ?_⟩
    rcases Bool.eq_false_or_eq_true (r.le z x) with hzx | hzx
    · right
      refine hs ?_ ?_
      · exact hxy'.resolve_left (by simp [hyxz hyz hzx])
      · exact hyz'.resolve_left (by simp [hzyx hzx hxy])
    · exact .inl hzx

@[simp] theorem any_lex (r : RowOrder α) : any.lex r = r := by
  ext x y
  simp [lex, any]

@[simp] theorem lex_any (r : RowOrder α) : r.lex any = r := by
  ext x y
  simp [lex, any]

/-- An answer to a query: its rows, arranged in order. -/
def Answers (r : RowOrder α) (rows answer : List α) : Prop :=
  answer.Perm rows ∧ answer.Pairwise fun x y => r.le x y

/-- An answer that can be computed. -/
def sort (r : RowOrder α) (rows : List α) : List α := rows.insertionSort fun x y => r.le x y

theorem answers_sort (r : RowOrder α) (rows : List α) : r.Answers rows (r.sort rows) := by
  have : Std.Total fun x y => r.le x y = true := ⟨fun x y => by simpa using r.total x y⟩
  have : IsTrans α fun x y => r.le x y = true := ⟨r.trans⟩
  exact ⟨List.perm_insertionSort _ rows, List.pairwise_insertionSort _ rows⟩

theorem exists_answers (r : RowOrder α) (rows : List α) : ∃ answer, r.Answers rows answer :=
  ⟨r.sort rows, r.answers_sort rows⟩

/-- The number of rows that must come before a row. -/
def before (r : RowOrder α) (rows : List α) (x : α) : ℕ := rows.countP fun y => !r.le x y

/-- The number of rows that may come before a row, and itself. -/
def upTo (r : RowOrder α) (rows : List α) (x : α) : ℕ := rows.countP fun y => r.le y x

/-- Rows that compare equal are on one page. -/
def NoStraddle (r : RowOrder α) (size : ℕ) (rows : List α) : Prop :=
  ∀ x ∈ rows, r.before rows x / size = (r.upTo rows x - 1) / size

instance (r : RowOrder α) (size : ℕ) (rows : List α) : Decidable (r.NoStraddle size rows) :=
  inferInstanceAs (Decidable (∀ x ∈ rows, _))

end RowOrder

variable {α : Type*}

/-- `LIMIT size OFFSET size * k` -/
def page (size k : ℕ) (answer : List α) : List α := (answer.drop (size * k)).take size

/-- The first pages, each from the answer to its own query. -/
def pages (size count : ℕ) (answers : ℕ → List α) : List α :=
  (List.range count).flatMap fun k => page size k (answers k)

/-- The number of pages of so many rows. -/
def pageCount (size rows : ℕ) : ℕ := (rows + size - 1) / size

/-! ### Counting along a list -/

/-- What no entry from a position on satisfies is counted before it. -/
theorem countP_le {p : α → Bool} {xs : List α} {i : ℕ}
    (h : ∀ j (hj : j < xs.length), i ≤ j → p xs[j] = false) : xs.countP p ≤ i := by
  have hrest : (xs.drop i).countP p = 0 := by
    refine List.countP_eq_zero.mpr fun x hx => ?_
    obtain ⟨j, hj, rfl⟩ := List.mem_iff_getElem.mp hx
    rw [List.length_drop] at hj
    rw [List.getElem_drop, h (i + j) (by omega) (by omega)]
    simp
  have hsplit := congrArg (List.countP p) (List.take_append_drop i xs)
  have hle := List.countP_le_length (p := p) (l := xs.take i)
  rw [List.countP_append] at hsplit
  rw [List.length_take] at hle
  omega

/-- What every entry up to a position satisfies is counted that far. -/
theorem lt_countP {p : α → Bool} {xs : List α} {i : ℕ} (hi : i < xs.length)
    (h : ∀ j (hj : j < xs.length), j ≤ i → p xs[j] = true) : i < xs.countP p := by
  have hfirst : (xs.take (i + 1)).countP p = (xs.take (i + 1)).length := by
    refine List.countP_eq_length.mpr fun x hx => ?_
    obtain ⟨j, hj, rfl⟩ := List.mem_iff_getElem.mp hx
    rw [List.length_take] at hj
    rw [List.getElem_take]
    exact h j (by omega) (by omega)
  have hsplit := congrArg (List.countP p) (List.take_append_drop (i + 1) xs)
  rw [List.countP_append, hfirst, List.length_take] at hsplit
  omega

/-! ### Where a row stands in an answer -/

namespace RowOrder.Answers

variable {r : RowOrder α} {rows answer : List α} {i j : ℕ} {x : α}

theorem le_getElem (h : r.Answers rows answer) (hij : i ≤ j) (hj : j < answer.length) :
    r.le answer[i] answer[j] := by
  rcases Nat.eq_or_lt_of_le hij with rfl | hlt
  · simpa using r.total answer[i] answer[i]
  · exact List.pairwise_iff_getElem.mp h.2 i j (by omega) hj hlt

theorem before_eq (h : r.Answers rows answer) (x : α) : r.before answer x = r.before rows x :=
  h.1.countP_eq _

theorem upTo_eq (h : r.Answers rows answer) (x : α) : r.upTo answer x = r.upTo rows x :=
  h.1.countP_eq _

theorem before_le (h : r.Answers rows answer) (hi : i < answer.length) :
    r.before rows answer[i] ≤ i := by
  rw [← h.before_eq]
  refine countP_le fun j hj hij => ?_
  simp [h.le_getElem hij hj]

theorem lt_upTo (h : r.Answers rows answer) (hi : i < answer.length) :
    i < r.upTo rows answer[i] := by
  rw [← h.upTo_eq]
  exact lt_countP hi fun j hj hji => h.le_getElem hji hi

/-- Between these two positions everything compares equal. -/
theorem le_of_before_le (h : r.Answers rows answer) (hi : i < answer.length)
    (hx : r.before rows x ≤ i) : r.le x answer[i] := by
  by_contra hnot
  have hlt : i < r.before answer x := by
    refine lt_countP hi fun j hj hji => ?_
    rw [Bool.not_eq_true', Bool.eq_false_iff]
    exact fun hle => hnot (r.trans _ _ _ hle (h.le_getElem hji hi))
  rw [h.before_eq] at hlt
  omega

theorem le_of_lt_upTo (h : r.Answers rows answer) (hi : i < answer.length)
    (hx : i < r.upTo rows x) : r.le answer[i] x := by
  by_contra hnot
  have hle : r.upTo answer x ≤ i := by
    refine countP_le fun j hj hij => ?_
    rw [Bool.eq_false_iff]
    exact fun hle => hnot (r.trans _ _ _ (h.le_getElem hij hj) hle)
  rw [h.upTo_eq] at hle
  omega

end RowOrder.Answers

/-! ### Comparing two orders -/

section Refinement

variable [DecidableEq α] {r s : RowOrder α} {rows answer : List α}

/-- One row first, the others as they come. -/
def RowOrder.first (x : α) : RowOrder α where
  le y z := y = x || z ≠ x
  total y z := by by_cases hy : y = x <;> simp [hy]
  trans y z z' := by
    simp only [Bool.or_eq_true, decide_eq_true_eq]
    rintro (rfl | hz) h
    · exact .inl rfl
    · exact .inr (h.resolve_left hz)

omit [DecidableEq α] in
/-- Breaking ties leaves an answer an answer. -/
theorem RowOrder.Answers.of_lex (h : (r.lex s).Answers rows answer) : r.Answers rows answer :=
  ⟨h.1, h.2.imp fun hxy => (Bool.and_eq_true_iff.mp hxy).1⟩

/-- Rows may come in any order in which they are allowed to. -/
theorem exists_answers_pairwise {x y : α} (hx : x ∈ rows) (hy : y ∈ rows) (hne : x ≠ y)
    (hxy : r.le x y) :
    ∃ answer, r.Answers rows answer ∧
      ∀ s : α → α → Prop, answer.Pairwise s → s x y := by
  obtain ⟨answer, hanswer⟩ := (r.lex (RowOrder.first x)).exists_answers rows
  refine ⟨answer, hanswer.of_lex, fun s hs => ?_⟩
  obtain ⟨i, hi, hix⟩ := List.mem_iff_getElem.mp (hanswer.1.mem_iff.mpr hx)
  obtain ⟨j, hj, hjy⟩ := List.mem_iff_getElem.mp (hanswer.1.mem_iff.mpr hy)
  rcases Nat.lt_trichotomy i j with hij | rfl | hji
  · exact hix ▸ hjy ▸ List.pairwise_iff_getElem.mp hs i j hi hj hij
  · exact absurd (hix.symm.trans hjy) hne
  · have hyx := List.pairwise_iff_getElem.mp hanswer.2 j i hj hi hji
    rw [hix, hjy] at hyx
    simp [RowOrder.lex, RowOrder.first, hxy, hne.symm] at hyx

/-- Every answer in one order is in the other exactly if the one refines the other. -/
theorem forall_answers_pairwise_iff :
    (∀ answer, r.Answers rows answer → answer.Pairwise fun x y => s.le x y) ↔
      ∀ x ∈ rows, ∀ y ∈ rows, r.le x y → s.le x y := by
  constructor
  · intro h x hx y hy hxy
    by_cases hne : x = y
    · subst hne
      simpa using s.total x x
    · obtain ⟨answer, hanswer, hpair⟩ := exists_answers_pairwise hx hy hne hxy
      exact hpair (fun x y => s.le x y) (h answer hanswer)
  · intro h answer hanswer
    refine hanswer.2.imp_of_mem fun hx hy hxy => ?_
    exact h _ (hanswer.1.mem_iff.mp hx) _ (hanswer.1.mem_iff.mp hy) hxy

end Refinement

/-! ### Pages -/

section Pages

variable {size : ℕ} {answer : List α} {answers answers' : ℕ → List α}

theorem lt_pageCount {i n : ℕ} (hsize : 0 < size) (hi : i < n) : i / size < pageCount size n := by
  rw [pageCount, Nat.div_lt_iff_lt_mul hsize]
  have hdiv := Nat.div_add_mod (n + size - 1) size
  have hmod := Nat.mod_lt (n + size - 1) hsize
  rw [Nat.mul_comm] at hdiv
  omega

theorem le_mul_pageCount (hsize : 0 < size) (n : ℕ) : n ≤ size * pageCount size n := by
  have hdiv := Nat.div_add_mod (n + size - 1) size
  have hmod := Nat.mod_lt (n + size - 1) hsize
  rw [pageCount]
  omega

/-- The pages of one answer, one after the other. -/
theorem pages_const (size count : ℕ) (answer : List α) :
    pages size count (fun _ => answer) = answer.take (size * count) := by
  induction count with
  | zero => simp [pages]
  | succ count ih =>
    rw [pages] at ih
    rw [pages, List.range_succ, List.flatMap_append, ih, Nat.mul_succ, List.take_add]
    simp [page]

variable {x : α}

theorem mem_page {k : ℕ} (h : x ∈ page size k answer) :
    ∃ i, ∃ hi : i < answer.length, answer[i] = x ∧ size * k ≤ i ∧ i < size * k + size := by
  obtain ⟨j, hj, rfl⟩ := List.mem_iff_getElem.mp h
  simp only [page, List.length_take, List.length_drop] at hj
  refine ⟨size * k + j, by omega, ?_, by omega, by omega⟩
  simp [page]

theorem getElem_mem_page {i k : ℕ} (hi : i < answer.length) (hle : size * k ≤ i)
    (hlt : i < size * k + size) : answer[i] ∈ page size k answer := by
  refine List.mem_iff_getElem.mpr ⟨i - size * k, ?_, ?_⟩
  · simp only [page, List.length_take, List.length_drop]
    omega
  · simp [page, Nat.add_sub_cancel' hle]

/-- A row on two pages is there twice. -/
theorem not_nodup_of_mem_page {count k l : ℕ} (hkl : k < l) (hl : l < count)
    (hk : x ∈ page size k (answers k)) (hl' : x ∈ page size l (answers l)) :
    ¬ (pages size count answers).Nodup := by
  intro hnodup
  have hdisjoint := List.pairwise_iff_getElem.mp (List.nodup_flatMap.mp hnodup).2 k l
    (by simpa using Nat.lt_trans hkl hl) (by simpa using hl) hkl
  simp only [Function.onFun, List.getElem_range] at hdisjoint
  exact hdisjoint hk hl'

variable {r : RowOrder α} {rows : List α}

/-- Two neighbours that compare equal may change places. -/
theorem RowOrder.Answers.swap {xs ys : List α} {y z : α} (h : r.Answers rows (xs ++ y :: z :: ys))
    (hzy : r.le z y) : r.Answers rows (xs ++ z :: y :: ys) := by
  obtain ⟨hperm, hsorted⟩ := h
  refine ⟨((List.Perm.swap y z ys).append_left xs).trans hperm, ?_⟩
  simp only [List.pairwise_append, List.pairwise_cons, List.forall_mem_cons] at hsorted ⊢
  obtain ⟨hxs, ⟨⟨-, hy⟩, hz, hys⟩, hcross⟩ := hsorted
  exact ⟨hxs, ⟨⟨hzy, hz⟩, hy, hys⟩,
    fun a ha => ⟨(hcross a ha).2.1, (hcross a ha).1, (hcross a ha).2.2⟩⟩

/-- Equal rows on both sides of the end of a page can be shown so that one of them is
on both pages. -/
theorem exists_pages_not_nodup (hsize : 0 < size) (h : ¬ r.NoStraddle size rows) :
    ∃ answers : ℕ → List α, (∀ k, r.Answers rows (answers k)) ∧
      ¬ (pages size (pageCount size rows.length) answers).Nodup := by
  simp only [RowOrder.NoStraddle, not_forall] at h
  obtain ⟨x, hx, hne⟩ := h
  obtain ⟨answer, hanswer⟩ := r.exists_answers rows
  obtain ⟨i, hi, hix⟩ := List.mem_iff_getElem.mp (hanswer.1.mem_iff.mpr hx)
  have hbefore : r.before rows x ≤ i := hix ▸ hanswer.before_le hi
  have hupTo : i < r.upTo rows x := hix ▸ hanswer.lt_upTo hi
  have hlength : answer.length = rows.length := hanswer.1.length_eq
  have hrows : r.upTo rows x ≤ rows.length := List.countP_le_length
  -- the end of a page lies between the first and the last row that compare equal to `x`
  have hlt : r.before rows x / size < (r.upTo rows x - 1) / size :=
    Nat.lt_of_le_of_ne (Nat.div_le_div_right (by omega)) hne
  obtain ⟨k, hk⟩ : ∃ k, (r.upTo rows x - 1) / size = k + 1 :=
    Nat.exists_eq_succ_of_ne_zero (Nat.ne_of_gt (Nat.zero_lt_of_lt hlt))
  have hend : size * (k + 1) ≤ r.upTo rows x - 1 := by
    rw [← hk]
    exact Nat.mul_div_le _ size
  have hstart : r.before rows x < size * (k + 1) := by
    rw [Nat.mul_comm, ← Nat.div_lt_iff_lt_mul hsize, ← hk]
    exact hlt
  obtain ⟨c, hc⟩ : ∃ c, size * (k + 1) = c + 1 := ⟨size * (k + 1) - 1, by omega⟩
  have hc' : c + 1 < answer.length := by omega
  have hsplit : answer = answer.take c ++ answer[c] :: answer[c + 1] :: answer.drop (c + 2) := by
    conv_lhs => rw [← List.take_append_drop c answer]
    rw [List.drop_eq_getElem_cons (by omega), List.drop_eq_getElem_cons hc']
  have htie : r.le answer[c + 1] answer[c] :=
    r.trans _ x _ (hanswer.le_of_lt_upTo hc' (by omega)) (hanswer.le_of_before_le _ (by omega))
  -- the rows on both sides of the end may change places, as they compare equal
  let swapped := answer.take c ++ answer[c + 1] :: answer[c] :: answer.drop (c + 2)
  have hswapped : r.Answers rows swapped := (hsplit ▸ hanswer).swap htie
  have hend' : swapped[c + 1]? = some answer[c] := by
    have htake : (answer.take c).length = c := List.length_take_of_le (by omega)
    simp [swapped, htake]
  obtain ⟨hlast, hget⟩ := List.getElem?_eq_some_iff.mp hend'
  -- page `k` and page `k + 1` come from different arrangements
  refine ⟨fun l => if l = k + 1 then swapped else answer, fun l => ?_,
    not_nodup_of_mem_page (x := answer[c]) (l := k + 1) (Nat.lt_succ_self k) ?_ ?_ ?_⟩
  · dsimp only
    split_ifs
    · exact hswapped
    · exact hanswer
  · rw [← hk]
    exact lt_pageCount hsize (by omega)
  · rw [if_neg (by omega)]
    rw [Nat.mul_succ] at hc
    exact getElem_mem_page (by omega) (by omega) (by omega)
  · rw [if_pos rfl, ← hget]
    exact getElem_mem_page hlast (by omega) (by omega)

variable [DecidableEq α]

/-- When all places of a row are on one page, it is there as often as in the answer. -/
theorem count_page {q : ℕ} (hsize : 0 < size)
    (h : ∀ i (hi : i < answer.length), answer[i] = x → i / size = q) (k : ℕ) :
    (page size k answer).count x = if k = q then answer.count x else 0 := by
  split_ifs with hk
  · subst hk
    -- all occurrences are on page `q`: none before it, and none after it
    have hbefore : (answer.take (size * k)).count x = 0 := by
      refine List.count_eq_zero.mpr fun hx => ?_
      obtain ⟨i, hi, hix⟩ := List.mem_iff_getElem.mp hx
      rw [List.length_take] at hi
      rw [List.getElem_take] at hix
      have hpage := h i (by omega) hix
      have hlt : i / size < k := (Nat.div_lt_iff_lt_mul hsize).mpr (by rw [Nat.mul_comm]; omega)
      omega
    have hafter : ((answer.drop (size * k)).drop size).count x = 0 := by
      refine List.count_eq_zero.mpr fun hx => ?_
      obtain ⟨i, hi, hix⟩ := List.mem_iff_getElem.mp hx
      simp only [List.length_drop] at hi
      simp only [List.getElem_drop] at hix
      have hpage := h (size * k + (size + i)) (by omega) (by simpa [Nat.add_assoc] using hix)
      have hlt : k + 1 ≤ (size * k + (size + i)) / size :=
        (Nat.le_div_iff_mul_le hsize).mpr (by rw [Nat.add_one_mul, Nat.mul_comm k]; omega)
      omega
    have hsplit := congrArg (List.count x) (List.take_append_drop (size * k) answer)
    have hsplit' := congrArg (List.count x) (List.take_append_drop size (answer.drop (size * k)))
    rw [List.count_append] at hsplit hsplit'
    rw [page]
    omega
  · refine List.count_eq_zero.mpr fun hx => hk ?_
    obtain ⟨i, hi, hix, hle, hlt⟩ := mem_page hx
    rw [← h i hi hix, eq_comm, Nat.div_eq_iff hsize]
    rw [Nat.mul_comm] at hle hlt
    omega

theorem sum_range_ite (count q c : ℕ) :
    ((List.range count).map fun k => if k = q then c else 0).sum = if q < count then c else 0 := by
  induction count with
  | zero => simp
  | succ count ih =>
    rw [List.range_succ, List.map_append, List.sum_append, ih]
    simp only [List.map_singleton, List.sum_singleton]
    split_ifs <;> omega

/-- Where a row stands decides its page, if equal rows stand on one page. -/
theorem pages_perm (hsize : 0 < size) (h : r.NoStraddle size rows)
    (hanswers : ∀ k, r.Answers rows (answers k)) :
    (pages size (pageCount size rows.length) answers).Perm rows := by
  refine List.perm_iff_count.mpr fun x => ?_
  rw [pages, List.count_flatMap]
  by_cases hx : x ∈ rows
  -- in every answer the row stands on one and the same page
  · have hplace : ∀ k i (hi : i < (answers k).length), (answers k)[i] = x →
        i / size = r.before rows x / size := by
      rintro k i hi rfl
      have hbefore := Nat.div_le_div_right (c := size) ((hanswers k).before_le hi)
      have hupTo := (hanswers k).lt_upTo hi
      have hafter : i / size ≤ (r.upTo rows (answers k)[i] - 1) / size :=
        Nat.div_le_div_right (by omega)
      have hsame := h _ hx
      omega
    have hcount : (List.count x ∘ fun k => page size k (answers k)) =
        fun k => if k = r.before rows x / size then rows.count x else 0 := by
      funext k
      rw [Function.comp_apply, count_page hsize (hplace k), (hanswers k).1.count_eq]
    obtain ⟨i, hi, hix⟩ := List.mem_iff_getElem.mp ((hanswers 0).1.mem_iff.mpr hx)
    have hpage : r.before rows x / size < pageCount size rows.length := by
      rw [← hplace 0 i hi hix]
      exact lt_pageCount hsize ((hanswers 0).1.length_eq ▸ hi)
    rw [hcount, sum_range_ite, if_pos hpage]
  · rw [List.count_eq_zero.mpr hx, List.sum_eq_zero]
    intro n hn
    obtain ⟨k, -, rfl⟩ := List.mem_map.mp hn
    refine List.count_eq_zero.mpr fun hmem => hx ?_
    obtain ⟨i, hi, rfl, -⟩ := mem_page hmem
    exact (hanswers k).1.mem_iff.mp (List.getElem_mem hi)

/-- Whatever the answers to the queries, the pages show every row once, exactly if no
row is listed twice and no rows that compare equal are on different pages. -/
theorem pages_partition_iff (hsize : 0 < size) :
    (∀ answers : ℕ → List α, (∀ k, r.Answers rows (answers k)) →
      (pages size (pageCount size rows.length) answers).Perm rows.dedup) ↔
    rows.Nodup ∧ r.NoStraddle size rows := by
  constructor
  · intro h
    have hnodup : rows.Nodup := by
      obtain ⟨answer, hanswer⟩ := r.exists_answers rows
      have hall := h (fun _ => answer) fun _ => hanswer
      rw [pages_const, List.take_of_length_le] at hall
      · exact (hanswer.1.symm.trans hall).nodup_iff.mpr rows.nodup_dedup
      · rw [hanswer.1.length_eq]
        exact le_mul_pageCount hsize rows.length
    refine ⟨hnodup, ?_⟩
    by_contra hstraddle
    obtain ⟨answers, hanswers, htwice⟩ := exists_pages_not_nodup hsize hstraddle
    exact htwice ((h answers hanswers).nodup_iff.mpr rows.nodup_dedup)
  · rintro ⟨hnodup, hstraddle⟩ answers hanswers
    rw [hnodup.dedup]
    exact pages_perm hsize hstraddle hanswers

end Pages

end Store
