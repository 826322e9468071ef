import Mathlib.Data.List.Chain

/-! # Greedy grouping

A list cut into groups from the left: an element joins the group before it where `merges` says so
of that group as it stands, and opens a group of its own otherwise. -/

namespace List

variable {α : Type} {merges : List α → α → Prop} {l g : List α} {groups : List (List α)} {x : α}

/-- The groups into which `l` is cut. -/
structure Grouping (merges : List α → α → Prop) (l : List α) (groups : List (List α)) : Prop where
  flatten : groups.flatten = l
  ne_nil : ∀ g ∈ groups, g ≠ []
  merged : ∀ g ∈ groups, ∀ pre x, pre ++ [x] <+: g → pre ≠ [] → merges pre x
  opened : groups.IsChain fun g g' => ∀ x ∈ g'.head?, ¬ merges g x

namespace Grouping

theorem nil : Grouping merges [] [] := ⟨rfl, nofun, nofun, .nil⟩

/-- A group of one has no merged element. -/
theorem not_prefix_singleton {pre : List α} {y : α} (h : pre ++ [y] <+: [x]) : pre = [] := by
  have hlength := h.length_le
  rw [length_append] at hlength
  exact length_eq_zero_iff.mp (by simp only [length_singleton] at hlength; omega)

/-- The element opens a group. -/
theorem snoc (h : Grouping merges l groups)
    (hx : ∀ g ∈ groups.getLast?, ¬ merges g x) : Grouping merges (l ++ [x]) (groups ++ [[x]]) where
  flatten := by rw [flatten_append, h.flatten, flatten_singleton]
  ne_nil g hg := by
    rcases mem_append.mp hg with hg | hg
    · exact h.ne_nil g hg
    · rw [mem_singleton.mp hg]
      exact cons_ne_nil _ _
  merged g hg pre y hpre hne := by
    rcases mem_append.mp hg with hg | hg
    · exact h.merged g hg pre y hpre hne
    · rw [mem_singleton.mp hg] at hpre
      exact absurd (not_prefix_singleton hpre) hne
  opened := by
    refine isChain_append.mpr ⟨h.opened, .singleton _, fun g hg g' hg' y hy => ?_⟩
    obtain rfl := Option.some.inj hg'
    obtain rfl := Option.some.inj hy
    exact hx g hg

/-- The element joins the last group. -/
theorem join (h : Grouping merges l (groups ++ [g])) (hx : merges g x) :
    Grouping merges (l ++ [x]) (groups ++ [g ++ [x]]) where
  flatten := by
    rw [← h.flatten, flatten_append, flatten_append, flatten_singleton, flatten_singleton,
      append_assoc]
  ne_nil g' hg' := by
    rcases mem_append.mp hg' with hg' | hg'
    · exact h.ne_nil g' (mem_append_left _ hg')
    · rw [mem_singleton.mp hg']
      exact append_ne_nil_of_right_ne_nil _ (cons_ne_nil _ _)
  merged g' hg' pre y hpre hne := by
    rcases mem_append.mp hg' with hg' | hg'
    · exact h.merged g' (mem_append_left _ hg') pre y hpre hne
    · -- either within the old group, or the whole of the new one
      rw [mem_singleton.mp hg'] at hpre
      rcases prefix_concat_iff.mp hpre with heq | hpre
      · obtain ⟨rfl, hy⟩ := append_inj' heq rfl
        obtain rfl := singleton_inj.mp hy
        exact hx
      · exact h.merged g (mem_append_right _ (mem_singleton_self g)) pre y hpre hne
  opened := by
    have hg : g ≠ [] := h.ne_nil g (mem_append_right _ (mem_singleton_self g))
    obtain ⟨hinit, -, hlast⟩ := isChain_append.mp h.opened
    refine isChain_append.mpr ⟨hinit, .singleton _, fun g₀ hg₀ g' hg' y hy => ?_⟩
    obtain rfl := Option.some.inj hg'
    rw [head?_append_of_ne_nil _ hg] at hy
    exact hlast g₀ hg₀ g rfl y hy

theorem subset (h : Grouping merges l groups) (hg : g ∈ groups) : g ⊆ l := fun _ hy =>
  h.flatten ▸ mem_flatten.mpr ⟨g, hg, hy⟩

/-- What stands behind the first element of a group was merged into it. -/
theorem merged_of_mem_tail (h : Grouping merges l groups) (hg : g ∈ groups) (hx : x ∈ g.tail) :
    ∃ pre, merges pre x := by
  obtain ⟨pre, post, hsplit⟩ := append_of_mem hx
  cases g with
  | nil => cases hx
  | cons y ys =>
    have hsplit : ys = pre ++ x :: post := hsplit
    refine ⟨y :: pre, h.merged _ hg _ x ?_ (cons_ne_nil _ _)⟩
    rw [hsplit]
    exact ⟨post, by simp⟩

end Grouping

end List
