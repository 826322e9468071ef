import Mathlib.Algebra.Order.Monoid.Defs
import Mathlib.Algebra.Order.Group.Nat
import Mathlib.Algebra.BigOperators.Group.List.Basic
import Mathlib.Algebra.Order.Monoid.Unbundled.Pow
import QdrantRag.Effect.Turns

/-! # What a program costs

`Prog.Within cost p b`: whatever comes back, the calls of the program `p` cost `b` at most, in any
ordered monoid. One rule for each way programs are put together. The bound is one on every run,
alone (`Within.run`) or among other threads (`Pool.spent_le`), so a program whose number of calls is
bounded is done after that many turns of its own (`Pool.done_of_turns`). -/

namespace Effect

variable {Op : Type} {Ans : Op → Type} {ε α β χ σ ι M : Type} [AddCommMonoid M] [PartialOrder M]
  {cost : Op → M} {a b b' : M}

namespace Prog

/-- The calls of the program cost `b` at most. -/
def Within (cost : Op → M) : Prog Ans ε α → M → Prop
  | .pure _, b | .throw _, b => 0 ≤ b
  | .call o k, b => ∃ b', 0 ≤ b' ∧ cost o + b' ≤ b ∧ ∀ r, (k r).Within cost b'

section Rules
variable {p : Prog Ans ε α}

theorem within_pure {x : α} (h : 0 ≤ b) : (Prog.pure x : Prog Ans ε α).Within cost b := h

theorem within_return {x : α} (h : 0 ≤ b) : (Pure.pure x : Prog Ans ε α).Within cost b := h

theorem within_throw {e : ε} (h : 0 ≤ b) : (Prog.throw e : Prog Ans ε α).Within cost b := h

theorem within_ofExcept {x : Except ε α} (h : 0 ≤ b) :
    (ofExcept x : Prog Ans ε α).Within cost b := by
  cases x with
  | ok a => exact h
  | error e => exact h

theorem within_perform {o : Op} : (perform o : Prog Ans ε (Ans o)).Within cost (cost o) := by
  refine ⟨0, le_rfl, (add_zero _).le, fun r => ?_⟩
  cases r with
  | ok a => exact le_refl 0
  | error e => exact le_refl 0

theorem Within.mono (h : p.Within cost b) (hb : b ≤ b') : p.Within cost b' := by
  cases p with
  | pure x => exact le_trans h hb
  | throw e => exact le_trans h hb
  | call o k =>
    obtain ⟨c, h0, hc, hk⟩ := h
    exact ⟨c, h0, hc.trans hb, hk⟩

theorem Within.ite {c : Prop} [Decidable c] {p q : Prog Ans ε α} (hp : p.Within cost b)
    (hq : q.Within cost b) : (if c then p else q).Within cost b := by
  split
  · exact hp
  · exact hq

/-- A bound in one measure is one in a coarser measure. -/
theorem Within.map {N : Type} [AddCommMonoid N] [PartialOrder N] (f : M →+ N) (hf : Monotone f)
    (h : p.Within cost b) : p.Within (fun o => f (cost o)) (f b) := by
  have hnonneg {c : M} (hc : 0 ≤ c) : 0 ≤ f c := f.map_zero ▸ hf hc
  induction p generalizing b with
  | pure x => exact hnonneg h
  | throw e => exact hnonneg h
  | call o k ih =>
    obtain ⟨c, h0, hc, hk⟩ := h
    refine ⟨f c, hnonneg h0, ?_, fun r => ih r (hk r)⟩
    rw [← f.map_add]
    exact hf hc

section Sums
variable [IsOrderedAddMonoid M]

theorem Within.bind {p : Prog Ans ε β} {f : β → Prog Ans ε α} (hp : p.Within cost a)
    (hf : ∀ x, (f x).Within cost b) (hb : 0 ≤ b) : (p >>= f).Within cost (a + b) := by
  change (p.bind f).Within cost (a + b)
  induction p generalizing a with
  | pure x => exact (hf x).mono (le_add_of_nonneg_left hp)
  | throw e => exact add_nonneg hp hb
  | call o k ih =>
    obtain ⟨c, h0, hc, hk⟩ := hp
    refine ⟨c + b, add_nonneg h0 hb, ?_, fun r => ih r (hk r)⟩
    rw [← add_assoc]
    exact add_le_add_left hc b

theorem Within.tryCatch {h : ε → Prog Ans ε α} (hp : p.Within cost a)
    (hh : ∀ e, (h e).Within cost b) (hb : 0 ≤ b) : (p.tryCatch h).Within cost (a + b) := by
  induction p generalizing a with
  | pure x => exact add_nonneg hp hb
  | throw e => exact (hh e).mono (le_add_of_nonneg_left hp)
  | call o k ih =>
    obtain ⟨c, h0, hc, hk⟩ := hp
    refine ⟨c + b, add_nonneg h0 hb, ?_, fun r => ih r (hk r)⟩
    rw [← add_assoc]
    exact add_le_add_left hc b

theorem Within.tryFinally {q : Prog Ans ε Unit} (hp : p.Within cost a) (hq : q.Within cost b)
    (hb : 0 ≤ b) : (p.tryFinally q).Within cost (a + b) := by
  have hend {k : Prog Ans ε α} {a : M} (ha : 0 ≤ a) (hk : k.Within cost 0) :
      (q >>= fun _ => k).Within cost (a + b) := by
    refine (hq.bind (fun _ => hk) le_rfl).mono ?_
    rw [add_zero]
    exact le_add_of_nonneg_left ha
  induction p generalizing a with
  | pure x => exact hend hp (within_pure le_rfl)
  | throw e => exact hend hp (within_throw le_rfl)
  | call o k ih =>
    obtain ⟨c, h0, hc, hk⟩ := hp
    refine ⟨c + b, add_nonneg h0 hb, ?_, fun r => ih r (hk r)⟩
    rw [← add_assoc]
    exact add_le_add_left hc b

theorem Within.each {f : β → Prog Ans ε Unit} {l : List β} (h : ∀ x, (f x).Within cost b)
    (hb : 0 ≤ b) : (Prog.each f l).Within cost (l.length • b) := by
  induction l with
  | nil =>
    rw [List.length_nil, zero_nsmul]
    exact within_pure le_rfl
  | cons x l ih =>
    rw [List.length_cons, succ_nsmul']
    exact (h x).bind (fun _ => ih) (nsmul_nonneg hb _)

/-- A run costs no more than its program. -/
theorem Within.run {exec : Exec Ans ε χ σ} {plan : Nat → χ} {s : σ} (h : p.Within cost b) :
    ((p.run exec plan s).trace.map (cost ·.op)).sum ≤ b := by
  induction p generalizing plan s b with
  | pure x => exact h
  | throw e => exact h
  | call o k ih =>
    obtain ⟨c, h0, hc, hk⟩ := h
    simp only [Prog.run, List.map_cons, List.sum_cons]
    exact (add_le_add_right (ih _ (hk _)) _).trans hc

end Sums

end Rules

end Prog

namespace Pool

variable [IsOrderedAddMonoid M] [DecidableEq ι] {exec : ι → Exec Ans ε χ σ}
  {p : Pool ι Ans ε α χ σ} {i : ι}

/-- What the calls of thread `i` have cost. -/
def spent (cost : Op → M) (p : Pool ι Ans ε α χ σ) (i : ι) : M :=
  ((p.log.filter (·.1 = i)).map (cost ·.2.op)).sum

/-- What a thread has spent and what it may still spend. -/
def Affords (cost : Op → M) (p : Pool ι Ans ε α χ σ) (i : ι) (b : M) : Prop :=
  ∃ rest, 0 ≤ rest ∧ spent cost p i + rest ≤ b ∧ (p.threads i).Within cost rest

theorem Affords.step (h : Affords cost p i b) (j : ι) (c : χ) :
    Affords cost (p.step exec j c) i b := by
  obtain ⟨rest, h0, hrest, hi⟩ := h
  rcases p.step_cases exec j c with hp | ⟨o, k, ho, hp⟩
  · rw [hp]
    exact ⟨rest, h0, hrest, hi⟩
  · rw [hp]
    by_cases hj : j = i
    · subst hj
      rw [ho] at hi
      obtain ⟨rest', h0', hle, hk⟩ := hi
      refine ⟨rest', h0', ?_, ?_⟩
      · have hspent : spent cost ⟨(exec j o c p.state).2, Function.update p.threads j
            (k (exec j o c p.state).1), (j, ⟨o, c, p.state⟩) :: p.log⟩ j =
            spent cost p j + cost o := by
          simp only [spent, List.filter_cons, decide_true, if_true, List.map_cons, List.sum_cons]
          exact add_comm _ _
        rw [hspent, add_assoc]
        exact (add_le_add_right hle _).trans hrest
      · simpa using hk _
    · refine ⟨rest, h0, ?_, ?_⟩
      · have hspent : spent cost ⟨(exec j o c p.state).2, Function.update p.threads j
            (k (exec j o c p.state).1), (j, ⟨o, c, p.state⟩) :: p.log⟩ i = spent cost p i := by
          simp only [spent, List.filter_cons, hj, decide_false, Bool.false_eq_true, if_false]
        rw [hspent]
        exact hrest
      · simpa [Ne.symm hj] using hi

theorem Affords.run (h : Affords cost p i b) (sched : List (ι × χ)) :
    Affords cost (p.run exec sched) i b := by
  induction sched generalizing p with
  | nil => exact h
  | cons e sched ih => exact ih (h.step _ _)

omit [IsOrderedAddMonoid M] in
theorem affords_start {s : σ} {threads : ι → Prog Ans ε α} (h : (threads i).Within cost b)
    (hb : 0 ≤ b) : Affords cost (start s threads : Pool ι Ans ε α χ σ) i b :=
  ⟨b, hb, (zero_add b).le, h⟩

/-- Among other threads a thread costs no more than its program. -/
theorem spent_le {s : σ} {threads : ι → Prog Ans ε α} (h : (threads i).Within cost b)
    (hb : 0 ≤ b) (sched : List (ι × χ)) :
    spent cost ((start s threads).run exec sched) i ≤ b := by
  have hstart : Affords cost (start s threads : Pool ι Ans ε α χ σ) i b := affords_start h hb
  have hend : Affords cost ((start s threads).run exec sched) i b := hstart.run sched
  obtain ⟨rest, h0, hrest, -⟩ := hend
  exact (le_add_of_nonneg_right h0).trans hrest

omit [IsOrderedAddMonoid M] in
theorem spent_one : spent (fun _ => 1) p i = p.made i := by
  rw [spent, made, List.countP_eq_length_filter]
  simp

/-- A program that makes at most `n` calls is done after `n` turns. -/
theorem done_of_turns {s : σ} {threads : ι → Prog Ans ε α} {n : Nat}
    (h : (threads i).Within (fun _ => 1) n) {sched : List (ι × χ)}
    (hturns : n ≤ sched.countP (·.1 = i)) :
    ¬ (((start s threads).run exec sched).threads i).Calls := by
  intro hcalls
  have hstart : Affords (fun _ => 1) (start s threads : Pool ι Ans ε α χ σ) i n :=
    affords_start h n.zero_le
  have hend : Affords (fun _ => 1) ((start s threads).run exec sched) i n := hstart.run sched
  obtain ⟨rest, -, hrest, hwithin⟩ := hend
  obtain ⟨o, k, ho⟩ := Prog.calls_iff.mp hcalls
  rw [ho] at hwithin
  obtain ⟨rest', -, hle, -⟩ := hwithin
  have hmade : ((start s threads).run exec sched).made i = 0 + sched.countP (·.1 = i) :=
    made_of_calls sched hcalls
  rw [spent_one] at hrest
  have hone : 1 + rest' ≤ rest := hle
  omega

end Pool

end Effect
