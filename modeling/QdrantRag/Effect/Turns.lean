import QdrantRag.Effect.Only
import QdrantRag.Effect.Sim

/-! # The turns of a thread

A thread that is not done has made a call each time it was its turn (`Pool.made_of_calls`), so a
bound on its calls is one on the turns after which it is done. A thread that is done stays so. -/

namespace Effect

variable {Op : Type} {Ans : Op → Type} {ε α χ σ ι : Type} [DecidableEq ι]
  {exec : ι → Exec Ans ε χ σ} {p : Pool ι Ans ε α χ σ}

/-- The program makes another call. -/
def Prog.Calls : Prog Ans ε α → Prop
  | .call .. => True
  | _ => False

theorem Prog.calls_iff {q : Prog Ans ε α} : q.Calls ↔ ∃ o k, q = .call o k := by
  cases q with
  | pure a => exact ⟨False.elim, fun ⟨_, _, h⟩ => nomatch h⟩
  | throw e => exact ⟨False.elim, fun ⟨_, _, h⟩ => nomatch h⟩
  | call o k => exact ⟨fun _ => ⟨o, k, rfl⟩, fun _ => trivial⟩

namespace Pool

/-- The calls thread `i` has made. -/
def made (p : Pool ι Ans ε α χ σ) (i : ι) : Nat := p.log.countP (·.1 = i)

theorem step_of_done {i : ι} (c : χ) (h : ¬ (p.threads i).Calls) : p.step exec i c = p := by
  rcases p.step_cases exec i c with hp | ⟨o, k, ho, -⟩
  · exact hp
  · rw [ho] at h
    exact absurd trivial h

theorem threads_step_of_ne {i j : ι} (c : χ) (h : j ≠ i) :
    (p.step exec i c).threads j = p.threads j := by
  rcases p.step_cases exec i c with hp | ⟨o, k, -, hp⟩
  · rw [hp]
  · rw [hp]
    exact Function.update_of_ne h _ _

/-- A thread that is done stays as it is. -/
theorem threads_of_done {i : ι} (l : List (ι × χ)) (h : ¬ (p.threads i).Calls) :
    (p.run exec l).threads i = p.threads i := by
  induction l generalizing p with
  | nil => rfl
  | cons e l ih =>
    obtain ⟨j, c⟩ := e
    have hstep : (p.step exec j c).threads i = p.threads i := by
      by_cases hj : i = j
      · subst hj
        rw [step_of_done c h]
      · exact threads_step_of_ne c hj
    exact (ih (hstep ▸ h)).trans hstep

/-- What every call keeps, a run keeps. -/
theorem run_state (I : σ → Prop) (hstep : ∀ i o c s, I s → I (exec i o c s).2)
    (l : List (ι × χ)) (h : I p.state) : I (p.run exec l).state := by
  induction l generalizing p with
  | nil => exact h
  | cons e l ih =>
    obtain ⟨i, c⟩ := e
    refine ih ?_
    rcases p.step_cases exec i c with hp | ⟨o, k, -, hp⟩
    · rw [hp]
      exact h
    · rw [hp]
      exact hstep i o c p.state h

/-- The calls of a run are operations of what each thread may call. -/
theorem log_only {S : ι → Op → Prop} (l : List (ι × χ)) (h : ∀ i, (p.threads i).Only (S i))
    (hlog : ∀ e ∈ p.log, S e.1 e.2.op) : ∀ e ∈ (p.run exec l).log, S e.1 e.2.op := by
  induction l generalizing p with
  | nil => exact hlog
  | cons turn l ih =>
    obtain ⟨i, c⟩ := turn
    have hstep : (∀ j, ((p.step exec i c).threads j).Only (S j)) ∧
        ∀ e ∈ (p.step exec i c).log, S e.1 e.2.op := by
      rcases p.step_cases exec i c with hp | ⟨o, k, ho, hp⟩
      · rw [hp]
        exact ⟨h, hlog⟩
      · have hcall : (Prog.call o k).Only (S i) := ho ▸ h i
        rw [hp]
        constructor
        · intro j
          by_cases hj : j = i
          · subst hj
            simpa using hcall.2 _
          · simpa [Function.update_of_ne hj] using h j
        · intro e he
          rcases List.mem_cons.mp he with rfl | he
          · exact hcall.1
          · exact hlog e he
    exact ih hstep.1 hstep.2

/-- A thread that has no turn stays as it is. -/
theorem threads_of_idle {i : ι} {l : List (ι × χ)} (h : ∀ e ∈ l, e.1 ≠ i) :
    (p.run exec l).threads i = p.threads i := by
  induction l generalizing p with
  | nil => rfl
  | cons e l ih =>
    obtain ⟨j, c⟩ := e
    exact (ih fun e he => h e (List.mem_cons_of_mem _ he)).trans
      (threads_step_of_ne c (h (j, c) List.mem_cons_self).symm)

theorem made_step {i : ι} (c : χ) (j : ι) (h : (p.threads j).Calls) :
    (p.step exec j c).made i = p.made i + if j = i then 1 else 0 := by
  obtain ⟨o, k, hj⟩ := Prog.calls_iff.mp h
  have hstep : p.step exec j c =
      ⟨(exec j o c p.state).2, Function.update p.threads j (k (exec j o c p.state).1),
        (j, ⟨o, c, p.state⟩) :: p.log⟩ := by
    unfold step
    rw [hj]
  rw [hstep]
  simp [made, List.countP_cons]

/-- A thread that is not done has made a call at each of its turns. -/
theorem made_of_calls {i : ι} (l : List (ι × χ)) (h : ((p.run exec l).threads i).Calls) :
    (p.run exec l).made i = p.made i + l.countP (·.1 = i) := by
  induction l generalizing p with
  | nil => rfl
  | cons e l ih =>
    obtain ⟨j, c⟩ := e
    refine (ih h).trans ?_
    rw [List.countP_cons]
    by_cases hj : j = i
    · subst hj
      have hcalls : (p.threads j).Calls := by
        by_contra hdone
        rw [threads_of_done _ hdone] at h
        exact hdone h
      rw [made_step c j hcalls]
      simp only [if_true, decide_true]
      omega
    · have hmade : (p.step exec j c).made i = p.made i := by
        rcases p.step_cases exec j c with hp | ⟨o, k, ho, hp⟩
        · rw [hp]
        · rw [hp]
          simp [made, hj]
      rw [hmade]
      simp [hj]

/-- A run whose choices `clean` would not have changed. -/
theorem run_limit {clean : Op → χ → χ} {l : List (ι × χ)}
    (h : ∀ e ∈ l, ∀ o, clean o e.2 = e.2) :
    p.run (fun i => Exec.limit clean (exec i)) l = p.run exec l := by
  induction l generalizing p with
  | nil => rfl
  | cons e l ih =>
    obtain ⟨i, c⟩ := e
    have hstep : p.step (fun i => Exec.limit clean (exec i)) i c = p.step exec i c := by
      unfold step Exec.limit
      simp only [h (i, c) List.mem_cons_self]
    rw [run, hstep]
    exact ih fun e he => h e (List.mem_cons_of_mem _ he)

end Pool

end Effect
