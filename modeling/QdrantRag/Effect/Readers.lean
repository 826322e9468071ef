import QdrantRag.Effect.Turns

/-! # Threads that only read

A pool of writers `ι` and readers `κ`, where no operation a reader makes changes the state. The
writers go on as if the readers were not there (`Pool.left_run`), and what a reader sees is the
state at one of its own turns (`Pool.pre_of_mem`), so a result that is right for the state it saw
is right for a moment of the run (`Pool.observed`). -/

namespace Effect

variable {Op : Type} {Ans : Op → Type} {ε α χ σ ι κ : Type}

namespace Pool

/-- The turns of the threads on the left. -/
def leftTurns : List ((ι ⊕ κ) × χ) → List (ι × χ)
  | [] => []
  | (.inl i, c) :: sched => (i, c) :: leftTurns sched
  | (.inr _, _) :: sched => leftTurns sched

/-- The calls of the threads on the left. -/
def leftLog : List ((ι ⊕ κ) × Event Op χ σ) → List (ι × Event Op χ σ)
  | [] => []
  | (.inl i, ev) :: log => (i, ev) :: leftLog log
  | (.inr _, _) :: log => leftLog log

/-- The pool without the threads on the right. -/
def left (p : Pool (ι ⊕ κ) Ans ε α χ σ) : Pool ι Ans ε α χ σ :=
  ⟨p.state, fun i => p.threads (.inl i), leftLog p.log⟩

theorem leftTurns_append (l l' : List ((ι ⊕ κ) × χ)) :
    leftTurns (l ++ l') = leftTurns l ++ leftTurns l' := by
  induction l with
  | nil => rfl
  | cons e l ih =>
    obtain ⟨i | j, c⟩ := e
    · exact congrArg ((i, c) :: ·) ih
    · exact ih

section Erase
variable [DecidableEq ι] [DecidableEq κ] {exec : ι ⊕ κ → Exec Ans ε χ σ} {S : κ → Op → Prop}
  {p : Pool (ι ⊕ κ) Ans ε α χ σ}

/-- A step of a writer is its step in the pool of the writers. -/
theorem left_step_inl (i : ι) (c : χ) :
    (p.step exec (.inl i) c).left = p.left.step (fun i => exec (.inl i)) i c := by
  cases hi : p.threads (.inl i) with
  | call o k =>
    have hthreads : (fun j => Function.update p.threads (.inl i)
          (k (exec (.inl i) o c p.state).1) (.inl j)) =
        Function.update (fun j => p.threads (.inl j)) i (k (exec (.inl i) o c p.state).1) := by
      funext j
      by_cases hj : j = i
      · subst hj
        rw [Function.update_self, Function.update_self]
      · rw [Function.update_of_ne hj, Function.update_of_ne fun h => hj (Sum.inl.inj h)]
    simp only [step, left, hi, leftLog, hthreads]
  | pure a => simp only [step, left, hi]
  | throw e => simp only [step, left, hi]

/-- A step of a reader is none in the pool of the writers. -/
theorem left_step_inr (hread : ∀ j o c s, S j o → (exec (.inr j) o c s).2 = s) {j : κ}
    (h : (p.threads (.inr j)).Only (S j)) (c : χ) : (p.step exec (.inr j) c).left = p.left := by
  rcases p.step_cases exec (.inr j) c with hp | ⟨o, k, ho, hp⟩
  · rw [hp]
  · rw [ho] at h
    rw [hp]
    simp only [left, leftLog, hread j o c p.state h.1]
    congr 1

theorem only_step {j : κ} (h : (p.threads (.inr j)).Only (S j)) (i : ι ⊕ κ) (c : χ) :
    ((p.step exec i c).threads (.inr j)).Only (S j) := by
  rcases p.step_cases exec i c with hp | ⟨o, k, ho, hp⟩
  · rw [hp]
    exact h
  · rw [hp]
    by_cases hi : Sum.inr j = i
    · subst hi
      rw [ho] at h
      simpa using h.2 _
    · simpa [hi] using h

/-- **Readers do not show.** The state, the writers and their calls are those of a run of the
writers alone, each at its turns. -/
theorem left_run (hread : ∀ j o c s, S j o → (exec (.inr j) o c s).2 = s)
    (h : ∀ j, (p.threads (.inr j)).Only (S j)) (sched : List ((ι ⊕ κ) × χ)) :
    (p.run exec sched).left = p.left.run (fun i => exec (.inl i)) (leftTurns sched) := by
  induction sched generalizing p with
  | nil => rfl
  | cons e sched ih =>
    obtain ⟨i | j, c⟩ := e
    · refine (ih fun j => only_step (h j) _ c).trans ?_
      rw [left_step_inl]
      rfl
    · refine (ih fun j => only_step (h j) _ c).trans ?_
      rw [left_step_inr hread (h j)]
      rfl

end Erase

section Moments
variable [DecidableEq ι] {exec : ι → Exec Ans ε χ σ} {p : Pool ι Ans ε α χ σ}

/-- A call met the state of the moment at which its thread, which was not done, had the turn. -/
theorem pre_of_mem {sched : List (ι × χ)} {i : ι} {ev : Event Op χ σ}
    (h : (i, ev) ∈ (p.run exec sched).log) : (i, ev) ∈ p.log ∨
      ∃ n, sched[n]? = some (i, ev.choice) ∧ ev.pre = (p.run exec (sched.take n)).state ∧
        ((p.run exec (sched.take n)).threads i).Calls := by
  induction sched generalizing p with
  | nil => exact .inl h
  | cons e sched ih =>
    obtain ⟨j, c⟩ := e
    rcases ih h with h | ⟨n, hn, hpre⟩
    · rcases p.step_cases exec j c with hp | ⟨o, k, ho, hp⟩
      · rw [hp] at h
        exact .inl h
      · rw [hp] at h
        rcases List.mem_cons.mp h with h | h
        · cases h
          exact .inr ⟨0, rfl, rfl, Prog.calls_iff.mpr ⟨o, k, ho⟩⟩
        · exact .inl h
    · exact .inr ⟨n + 1, hn, hpre⟩

end Moments

section Observe
variable [DecidableEq ι] {exec : ι → Exec Ans ε χ σ} {threads : ι → Prog Ans ε α} {s : σ}

/-- The state a thread has last seen: that of the call, or the one before. -/
def Sees (φ : Option σ) (ev : Event Op χ σ) (φ' : Option σ) : Prop := φ' = φ ∨ φ' = some ev.pre

theorem sim_sees (p : Prog Ans ε α) (exec : Exec Ans ε χ σ) (φ : Option σ) :
    p.Sim exec Sees (fun _ _ => True) (fun _ _ => True) φ := by
  induction p generalizing φ with
  | pure a => trivial
  | throw e => trivial
  | call o k ih =>
    intro c t
    exact ⟨φ, .inl rfl, ih _ φ⟩

/-- The states seen are those of calls made. -/
def Seen (log : List (ι × Event Op χ σ)) (_ : σ) (φ : ι → Option σ) : Prop :=
  ∀ i t, φ i = some t → ∃ ev, (i, ev) ∈ log ∧ ev.pre = t

theorem Seen.step {log : List (ι × Event Op χ σ)} {φ : ι → Option σ} {i : ι} {ev : Event Op χ σ}
    {φ' : Option σ} (h : Seen log s φ) (hs : Sees (φ i) ev φ') (s' : σ) :
    Seen ((i, ev) :: log) s' (Function.update φ i φ') := by
  have hold : ∀ j t, φ j = some t → ∃ ev', (j, ev') ∈ (i, ev) :: log ∧ ev'.pre = t := by
    intro j t ht
    obtain ⟨ev', hm, hpre⟩ := h j t ht
    exact ⟨ev', List.mem_cons_of_mem _ hm, hpre⟩
  intro j t ht
  by_cases hj : j = i
  · subst hj
    rw [Function.update_self] at ht
    rcases hs with rfl | rfl
    · exact hold j t ht
    · exact ⟨ev, List.mem_cons_self, Option.some.inj ht⟩
  · rw [Function.update_of_ne hj] at ht
    exact hold j t ht

/-- **What a thread saw is what there was.** A thread that returns a value related to the state it
has seen returns one related to the state of the run at one of the turns it used. -/
theorem observed {R : σ → α → Prop} {i : ι} (hsim : (threads i).Sim (exec i) Sees
      (fun φ a => ∃ t, φ = some t ∧ R t a) (fun _ _ => True) none)
    {sched : List (ι × χ)} {a : α} (ha : ((start s threads).run exec sched).threads i = .pure a) :
    ∃ n c, sched[n]? = some (i, c) ∧ (((start s threads).run exec (sched.take n)).threads i).Calls ∧
      R ((start s threads).run exec (sched.take n)).state a := by
  have hstart : Holds exec (fun _ => Sees) (fun j φ a => j = i → ∃ t, φ = some t ∧ R t a)
      (fun _ _ _ => True) Seen (start s threads) fun _ => none := by
    refine ⟨fun _ _ h => (by cases h), fun j => ?_⟩
    by_cases hj : j = i
    · subst hj
      exact hsim.mono (fun _ _ h _ => h) fun _ _ => id
    · exact (sim_sees _ _ _).mono (fun _ _ _ h => absurd h hj) fun _ _ => id
  obtain ⟨φ, hφ⟩ := run_rule (fun h hs _ => h.step hs _) hstart sched (Obeys.trivial _)
  have hi := hφ.sim i
  rw [ha] at hi
  obtain ⟨t, ht, hR⟩ := hi rfl
  obtain ⟨ev, hev, rfl⟩ := hφ.inv i t ht
  rcases pre_of_mem hev with h | ⟨n, hn, hpre, hcalls⟩
  · cases h
  · exact ⟨n, ev.choice, hn, hcalls, hpre ▸ hR⟩

end Observe

end Pool

end Effect
