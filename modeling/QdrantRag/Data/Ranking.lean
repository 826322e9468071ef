import Mathlib.Algebra.BigOperators.Group.List.Basic
import Mathlib.Algebra.Order.Ring.Rat
import Mathlib.Data.List.Dedup
import Mathlib.Data.List.Sort
import Mathlib.Data.Prod.Lex

/-! # Rankings

The best elements of a list by a score (`best`), ties being broken by a fixed order, the union of
several lists (`union`), and the reciprocal ranks that a fusion sums (`reciprocalRank`, `rrf`).
Scores and ties tell elements apart, so a ranking does not depend on the order of what is ranked
(`best_congr`), and a limit that is not reached drops nothing (`best_perm_of_length_le`). -/

namespace Ranking

variable {α τ : Type}

/-! ## Sorting by a key -/

section Sorted
variable {κ : Type} [LinearOrder κ] {key : α → κ} {l l' : List α}

/-- The elements in the order of their keys. -/
def sorted (key : α → κ) (l : List α) : List α := l.insertionSort fun a b => key a ≤ key b

theorem sorted_perm : (sorted key l).Perm l := List.perm_insertionSort _ l

theorem pairwise_sorted : (sorted key l).Pairwise fun a b => key a ≤ key b := by
  have htotal : Std.Total fun a b : α => key a ≤ key b := ⟨fun a b => le_total (key a) (key b)⟩
  have htrans : IsTrans α fun a b => key a ≤ key b := ⟨fun _ _ _ => le_trans⟩
  exact List.pairwise_insertionSort _ l

/-- Where keys tell elements apart the order of the list does not matter. -/
theorem sorted_congr (hkey : ∀ a ∈ l, ∀ b ∈ l, key a = key b → a = b) (h : l.Perm l') :
    sorted key l = sorted key l' := by
  apply ((sorted_perm.trans h).trans sorted_perm.symm).eq_of_pairwise _ pairwise_sorted
    pairwise_sorted
  intro a b ha hb hab hba
  exact hkey a (sorted_perm.mem_iff.mp ha) b (h.symm.mem_iff.mp (sorted_perm.mem_iff.mp hb))
    (le_antisymm hab hba)

end Sorted

/-! ## The best by a score -/

section Best
variable [LinearOrder τ] {tie : α → τ} {score score' : α → Option Rat} {n : Nat} {l l' : List α}

/-- The elements that have a score, with it. -/
def scored (score : α → Option Rat) (l : List α) : List (α × Rat) :=
  l.filterMap fun a => (score a).map (a, ·)

/-- Higher scores come first, and among equal ones the fixed order decides. -/
def rankKey (tie : α → τ) (x : α × Rat) : Ratᵒᵈ ×ₗ τ := toLex (OrderDual.toDual x.2, tie x.1)

/-- The best `n` elements, with their scores. -/
def best (tie : α → τ) (n : Nat) (score : α → Option Rat) (l : List α) : List (α × Rat) :=
  (sorted (rankKey tie) (scored score l)).take n

theorem mem_scored {x : α × Rat} : x ∈ scored score l ↔ x.1 ∈ l ∧ score x.1 = some x.2 := by
  unfold scored
  rw [List.mem_filterMap]
  constructor
  · rintro ⟨a, ha, h⟩
    obtain ⟨r, hr, rfl⟩ := Option.map_eq_some_iff.mp h
    exact ⟨ha, hr⟩
  · rintro ⟨ha, hr⟩
    exact ⟨x.1, ha, by rw [hr]; rfl⟩

theorem mem_of_mem_best {x : α × Rat} (h : x ∈ best tie n score l) :
    x.1 ∈ l ∧ score x.1 = some x.2 :=
  mem_scored.mp (sorted_perm.mem_iff.mp (List.mem_of_mem_take h))

theorem length_best_le : (best tie n score l).length ≤ n := by
  unfold best
  rw [List.length_take]
  exact min_le_left _ _

/-- Ranking permuted lists, or with the same scores, gives the same. -/
theorem best_congr (htie : ∀ a ∈ l, ∀ b ∈ l, tie a = tie b → a = b) (h : l.Perm l')
    (hscore : ∀ a ∈ l, score a = score' a) : best tie n score l = best tie n score' l' := by
  have hsame : scored score l = scored score' l :=
    List.filterMap_congr fun a ha => by rw [hscore a ha]
  unfold best
  rw [hsame]
  congr 1
  apply sorted_congr _ (h.filterMap _)
  intro x hx y hy hkey
  have hpair := toLex.injective hkey
  have hfst : x.1 = y.1 :=
    htie _ (mem_scored.mp hx).1 _ (mem_scored.mp hy).1 (Prod.mk.inj hpair).2
  exact Prod.ext hfst (OrderDual.toDual.injective (Prod.mk.inj hpair).1)

/-- A limit that is not reached drops nothing. -/
theorem best_perm_of_length_le (hl : l.length ≤ n) :
    (best tie n score l).Perm (scored score l) := by
  have hlength : (sorted (rankKey tie) (scored score l)).length ≤ n := by
    rw [sorted_perm.length_eq]
    exact (List.length_filterMap_le _ _).trans hl
  unfold best
  rw [List.take_of_length_le hlength]
  exact sorted_perm

theorem map_fst_scored_sublist : ((scored score l).map Prod.fst).Sublist l := by
  induction l with
  | nil => exact .slnil
  | cons a l ih =>
    unfold scored at ih ⊢
    cases hr : score a with
    | none =>
      rw [List.filterMap_cons_none (by rw [hr]; rfl)]
      exact ih.cons a
    | some r =>
      rw [List.filterMap_cons_some (b := (a, r)) (by rw [hr]; rfl)]
      exact ih.cons_cons a

/-- Different elements are ranked once each. -/
theorem nodup_best (h : l.Nodup) : ((best tie n score l).map Prod.fst).Nodup := by
  have hscored : ((scored score l).map Prod.fst).Nodup := h.sublist map_fst_scored_sublist
  have hsorted : (sorted (rankKey tie) (scored score l)).Perm (scored score l) := sorted_perm
  exact ((hsorted.map Prod.fst).nodup_iff.mpr hscored).sublist
    ((List.take_sublist _ _).map Prod.fst)

/-- What has a score and is not among the best `n` comes after `n` others. -/
theorem best_precedes {x : α × Rat} (hx : x ∈ scored score l) (h : x ∉ best tie n score l) :
    (best tie n score l).length = n ∧
      ∀ y ∈ best tie n score l, rankKey tie y ≤ rankKey tie x := by
  have hsplit : best tie n score l ++ (sorted (rankKey tie) (scored score l)).drop n =
      sorted (rankKey tie) (scored score l) := List.take_append_drop _ _
  have hdrop : x ∈ (sorted (rankKey tie) (scored score l)).drop n := by
    have hmem : x ∈ sorted (rankKey tie) (scored score l) := sorted_perm.mem_iff.mpr hx
    rw [← hsplit] at hmem
    exact (List.mem_append.mp hmem).resolve_left h
  constructor
  · have hlong := List.length_pos_of_mem hdrop
    rw [List.length_drop] at hlong
    rw [best, List.length_take]
    omega
  · intro y hy
    have hpair : (sorted (rankKey tie) (scored score l)).Pairwise fun a b =>
        rankKey tie a ≤ rankKey tie b := pairwise_sorted
    rw [← hsplit] at hpair
    exact (List.pairwise_append.mp hpair).2.2 y hy x hdrop

theorem le_of_rankKey_le {x y : α × Rat} (h : rankKey tie y ≤ rankKey tie x) : x.2 ≤ y.2 := by
  rcases Prod.Lex.toLex_le_toLex.mp h with hlt | ⟨heq, -⟩
  · exact le_of_lt hlt
  · exact (OrderDual.toDual.injective heq).ge

/-- A ranking that is not full leaves out nothing that has a score. -/
theorem map_fst_best_perm (hl : l.length ≤ n) (hscore : ∀ a ∈ l, score a ≠ none) :
    ((best tie n score l).map Prod.fst).Perm l := by
  refine ((best_perm_of_length_le hl).map Prod.fst).trans (List.Perm.of_eq ?_)
  apply map_fst_scored_sublist.eq_of_length
  have hlength : (scored score l).length = l.length := by
    rw [scored, List.length_filterMap_eq_countP, List.countP_eq_length]
    intro a ha
    cases hr : score a with
    | none => exact absurd hr (hscore a ha)
    | some r => rfl
  rw [List.length_map, hlength]

/-- What is ranked by a score that all elements have. -/
theorem map_fst_scored {f : α → Rat} : (scored (fun a => some (f a)) l).map Prod.fst = l := by
  unfold scored
  rw [List.map_filterMap]
  exact List.filterMap_some

end Best

/-! ## Unions -/

section Union
variable [DecidableEq α] {ls ls' : List (List α)} {a : α}

/-- The elements of the lists, each once. -/
def union (ls : List (List α)) : List α := ls.flatten.dedup

theorem mem_union : a ∈ union ls ↔ ∃ l ∈ ls, a ∈ l := by
  unfold union
  rw [List.mem_dedup, List.mem_flatten]

theorem nodup_union : (union ls).Nodup := List.nodup_dedup _

/-- Lists with the same members have the same union. -/
theorem union_perm (h : ∀ a, (∃ l ∈ ls, a ∈ l) ↔ ∃ l ∈ ls', a ∈ l) :
    (union ls).Perm (union ls') := by
  rw [List.perm_ext_iff_of_nodup nodup_union nodup_union]
  intro a
  rw [mem_union, mem_union]
  exact h a

theorem length_union_le : (union ls).length ≤ ls.flatten.length := (List.dedup_sublist _).length_le

end Union

/-! ## Reciprocal ranks -/

section Fusion
variable [DecidableEq α] {k : Rat} {l : List α} {ls ls' : List (List α)} {a : α}

/-- What a list adds to the score of `a`: nothing where `a` is not in it. -/
def reciprocalRank (k : Rat) (l : List α) (a : α) : Rat :=
  if a ∈ l then 1 / (k + l.idxOf a) else 0

/-- The score of `a` over several lists. -/
def rrf (k : Rat) (ls : List (List α)) (a : α) : Rat := (ls.map (reciprocalRank k · a)).sum

theorem rrf_append : rrf k (ls ++ ls') a = rrf k ls a + rrf k ls' a := by
  unfold rrf
  rw [List.map_append, List.sum_append]

/-- A list given `n` times counts `n` times. -/
theorem rrf_replicate (n : Nat) : rrf k (List.replicate n l) a = n * reciprocalRank k l a := by
  unfold rrf
  rw [List.map_replicate, List.sum_replicate, nsmul_eq_mul]

end Fusion

end Ranking
