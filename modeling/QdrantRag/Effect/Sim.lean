import QdrantRag.Effect.Prog

/-! # Phases of a program

`Prog.Sim step ok err p φ`: the program `p`, being in phase `φ`, makes only calls that `step`
allows, each taking it to a next phase, returns only where `ok` holds and raises only where `err`
does. No assumption is made on the state between two calls, so a simulation shown once serves a
program that runs alone (`Prog.run_rule`) and one among others (`Pool.run_rule`): in both an
invariant of the state and the phases has to be shown for one step only. -/

namespace Effect

variable {Op : Type} {Ans : Op → Type} {ε α β χ σ P : Type}

namespace Prog

section Rules
variable (exec : Exec Ans ε χ σ) (step : P → Event Op χ σ → P → Prop)

/-- The phases `step` simulate the program. -/
def Sim (ok : P → α → Prop) (err : P → ε → Prop) : Prog Ans ε α → P → Prop
  | .pure a, φ => ok φ a
  | .throw e, φ => err φ e
  | .call o k, φ => ∀ c s, ∃ φ', step φ ⟨o, c, s⟩ φ' ∧ (k (exec o c s).1).Sim ok err φ'

variable {exec step} {ok ok' : P → α → Prop} {err err' : P → ε → Prop} {φ : P}

@[simp] theorem sim_pure {a : α} : Sim exec step ok err (.pure a) φ ↔ ok φ a := .rfl

@[simp] theorem sim_throw {e : ε} : Sim exec step ok err (.throw e) φ ↔ err φ e := .rfl

theorem sim_call {o : Op} {k : Except ε (Ans o) → Prog Ans ε α} :
    Sim exec step ok err (.call o k) φ ↔
      ∀ c s, ∃ φ', step φ ⟨o, c, s⟩ φ' ∧ Sim exec step ok err (k (exec o c s).1) φ' := .rfl

theorem Sim.mono {p : Prog Ans ε α} (h : Sim exec step ok err p φ)
    (hok : ∀ φ a, ok φ a → ok' φ a) (herr : ∀ φ e, err φ e → err' φ e) :
    Sim exec step ok' err' p φ := by
  induction p generalizing φ with
  | pure a => exact hok _ _ h
  | throw e => exact herr _ _ h
  | call o k ih =>
    intro c s
    obtain ⟨φ', hs, hk⟩ := h c s
    exact ⟨φ', hs, ih _ hk⟩

theorem sim_bind {p : Prog Ans ε β} {f : β → Prog Ans ε α} :
    Sim exec step ok err (p.bind f) φ ↔
      Sim exec step (fun φ b => Sim exec step ok err (f b) φ) err p φ := by
  induction p generalizing φ with
  | pure a => rfl
  | throw e => rfl
  | call o k ih => simp only [bind, sim_call, ih]

@[simp] theorem sim_do {p : Prog Ans ε β} {f : β → Prog Ans ε α} :
    Sim exec step ok err (p >>= f) φ ↔
      Sim exec step (fun φ b => Sim exec step ok err (f b) φ) err p φ := sim_bind

@[simp] theorem sim_return {a : α} :
    Sim exec step ok err (Pure.pure a : Prog Ans ε α) φ ↔ ok φ a := .rfl

@[simp] theorem sim_tryCatch {p : Prog Ans ε α} {h : ε → Prog Ans ε α} :
    Sim exec step ok err (p.tryCatch h) φ ↔
      Sim exec step ok (fun φ e => Sim exec step ok err (h e) φ) p φ := by
  induction p generalizing φ with
  | pure a => rfl
  | throw e => rfl
  | call o k ih => simp only [tryCatch, sim_call, ih]

@[simp] theorem sim_tryFinally {p : Prog Ans ε α} {q : Prog Ans ε Unit} :
    Sim exec step ok err (p.tryFinally q) φ ↔
      Sim exec step (fun φ a => Sim exec step (fun φ _ => ok φ a) err q φ)
        (fun φ e => Sim exec step (fun φ _ => err φ e) err q φ) p φ := by
  induction p generalizing φ with
  | pure a => exact sim_bind
  | throw e => exact sim_bind
  | call o k ih => simp only [tryFinally, sim_call, ih]

@[simp] theorem sim_ofExcept {x : Except ε α} :
    Sim exec step ok err (ofExcept x) φ ↔
      (∀ a, x = .ok a → ok φ a) ∧ ∀ e, x = .error e → err φ e := by
  cases x <;> simp [ofExcept]

/-- A single call. -/
theorem sim_perform {o : Op} {ok : P → Ans o → Prop} :
    Sim exec step ok err (perform o) φ ↔ ∀ c s, ∃ φ', step φ ⟨o, c, s⟩ φ' ∧
      match (exec o c s).1 with
      | .ok a => ok φ' a
      | .error e => err φ' e := by
  simp only [perform, sim_call]
  refine forall_congr' fun c => forall_congr' fun s => exists_congr fun φ' => ?_
  cases (exec o c s).1 <;> rfl

theorem Sim.ite {c : Prop} [Decidable c] {p q : Prog Ans ε α}
    (ht : c → Sim exec step ok err p φ) (he : ¬ c → Sim exec step ok err q φ) :
    Sim exec step ok err (if c then p else q) φ := by
  split
  · exact ht ‹_›
  · exact he ‹_›

/-- A loop whose body keeps the phase. -/
theorem Sim.each {f : β → Prog Ans ε Unit} {l : List β} {err : P → ε → Prop}
    (h : ∀ b ∈ l, Sim exec step (fun φ' _ => φ' = φ) err (f b) φ) :
    Sim exec step (fun φ' _ => φ' = φ) err (Prog.each f l) φ := by
  induction l with
  | nil => rfl
  | cons b l ih =>
    refine sim_bind.mpr ((h b List.mem_cons_self).mono ?_ fun _ _ => id)
    rintro _ _ rfl
    exact ih fun b hb => h b (List.mem_cons_of_mem _ hb)

end Rules

section Run
variable {exec : Exec Ans ε χ σ} {step : P → Event Op χ σ → P → Prop} {ok : P → α → Prop}
  {err : P → ε → Prop} {p : Prog Ans ε α} {s : σ} {φ : P}

theorem run_rule_from (I : List (Event Op χ σ) → σ → P → Prop) (good : Event Op χ σ → Prop)
    (hstep : ∀ tr ev φ φ', I tr ev.pre φ → step φ ev φ' → good ev →
      I (tr ++ [ev]) (ev.post exec) φ')
    {plan : Nat → χ} {tr : List (Event Op χ σ)} (hI : I tr s φ)
    (hgood : ∀ ev ∈ (p.run exec plan s).trace, good ev) (hsim : Sim exec step ok err p φ) :
    ∃ φ', I (tr ++ (p.run exec plan s).trace) (p.run exec plan s).state φ' ∧
      match (p.run exec plan s).reply with
      | .ok a => ok φ' a
      | .error e => err φ' e := by
  induction p generalizing plan tr s φ with
  | pure a => exact ⟨φ, by simpa [run] using hI, hsim⟩
  | throw e => exact ⟨φ, by simpa [run] using hI, hsim⟩
  | call o k ih =>
    obtain ⟨φ', hs, hk⟩ := hsim (plan 0) s
    have hev := hstep _ _ _ _ hI hs (hgood _ List.mem_cons_self)
    obtain ⟨ψ, hψ, hr⟩ := ih _ hev (fun ev hm => hgood ev (List.mem_cons_of_mem _ hm)) hk
    rw [List.append_assoc] at hψ
    exact ⟨ψ, hψ, hr⟩

/-- **The invariant rule of a program run alone.** What holds of the calls made, the state and the
phase at the start, and is kept by every step whose call `good` allows, holds at the end. -/
theorem run_rule (I : List (Event Op χ σ) → σ → P → Prop) (good : Event Op χ σ → Prop)
    (hstep : ∀ tr ev φ φ', I tr ev.pre φ → step φ ev φ' → good ev →
      I (tr ++ [ev]) (ev.post exec) φ')
    (plan : Nat → χ) (hI : I [] s φ) (hgood : ∀ ev ∈ (p.run exec plan s).trace, good ev)
    (hsim : Sim exec step ok err p φ) :
    ∃ φ', I (p.run exec plan s).trace (p.run exec plan s).state φ' ∧
      match (p.run exec plan s).reply with
      | .ok a => ok φ' a
      | .error e => err φ' e :=
  run_rule_from I good hstep hI hgood hsim

end Run

end Prog

namespace Pool

variable {ι : Type} [DecidableEq ι] (exec : ι → Exec Ans ε χ σ)

theorem step_cases (p : Pool ι Ans ε α χ σ) (i : ι) (c : χ) :
    p.step exec i c = p ∨ ∃ o k, p.threads i = .call o k ∧ p.step exec i c =
      ⟨(exec i o c p.state).2, Function.update p.threads i (k (exec i o c p.state).1),
        (i, ⟨o, c, p.state⟩) :: p.log⟩ := by
  unfold step
  split
  · next o k h => exact .inr ⟨o, k, h, rfl⟩
  · exact .inl rfl

theorem step_congr {exec exec' : ι → Exec Ans ε χ σ} {p : Pool ι Ans ε α χ σ} {i : ι} {c : χ}
    (h : ∀ o, exec i o c p.state = exec' i o c p.state) : p.step exec i c = p.step exec' i c := by
  unfold step
  cases p.threads i with
  | call o k => simp only [h]
  | pure a => rfl
  | throw e => rfl

/-- Two meanings of the calls that agree in every state that runs come to. -/
theorem run_congr {exec exec' : ι → Exec Ans ε χ σ} {p : Pool ι Ans ε α χ σ} (I : σ → Prop)
    (hI : ∀ sched, I (p.run exec sched).state)
    (h : ∀ i o c s, I s → exec i o c s = exec' i o c s) (sched : List (ι × χ)) :
    p.run exec sched = p.run exec' sched := by
  induction sched generalizing p with
  | nil => rfl
  | cons e sched ih =>
    obtain ⟨i, c⟩ := e
    have hstep : p.step exec i c = p.step exec' i c := step_congr fun o => h i o c _ (hI [])
    rw [run, run, ← hstep]
    exact ih fun l => hI ((i, c) :: l)

/-- The log only grows. -/
theorem log_suffix (p : Pool ι Ans ε α χ σ) (l : List (ι × χ)) :
    ∃ new, (p.run exec l).log = new ++ p.log := by
  induction l generalizing p with
  | nil => exact ⟨[], rfl⟩
  | cons e l ih =>
    obtain ⟨i, c⟩ := e
    obtain ⟨new, h⟩ := ih (p.step exec i c)
    rcases p.step_cases exec i c with h' | ⟨o, k, _, h'⟩
    · exact ⟨new, h.trans (by rw [h'])⟩
    · exact ⟨new ++ [(i, ⟨o, c, p.state⟩)], h.trans (by rw [h']; simp)⟩

end Pool

theorem Obeys.of_append {ι : Type} {guard : List (ι × Event Op χ σ) → ι → Event Op χ σ → Prop}
    {new log : List (ι × Event Op χ σ)} (h : Obeys guard (new ++ log)) : Obeys guard log := by
  induction new with
  | nil => exact h
  | cons e new ih => exact ih h.2

theorem Obeys.and {ι : Type} {guard guard' : List (ι × Event Op χ σ) → ι → Event Op χ σ → Prop}
    {log : List (ι × Event Op χ σ)} (h : Obeys guard log) (h' : Obeys guard' log) :
    Obeys (fun log i ev => guard log i ev ∧ guard' log i ev) log := by
  induction log with
  | nil => exact True.intro
  | cons _ _ ih => exact ⟨⟨h.1, h'.1⟩, ih h.2 h'.2⟩

section Underway
variable {ι τ : Type} [DecidableEq ι] {opens : ι → Event Op χ σ → Option τ}
  {closes : ι → Event Op χ σ → Bool} {log : List (ι × Event Op χ σ)} {i j : ι}
  {ev : Event Op χ σ} {t : τ}

theorem mem_underway_of_opens (h : opens i ev = some t) :
    (i, t) ∈ underway opens closes ((i, ev) :: log) := by
  rw [underway, h]
  exact List.mem_cons_self

/-- What is under way stays so, unless its own thread ends it. -/
theorem mem_underway_cons (h : (j, t) ∈ underway opens closes log)
    (hc : j = i → closes i ev = false) : (j, t) ∈ underway opens closes ((i, ev) :: log) := by
  rw [underway]
  split
  · exact List.mem_cons_of_mem _ h
  · split
    · next hclose =>
      refine List.mem_filter.mpr ⟨h, decide_eq_true fun he => ?_⟩
      rw [hc he] at hclose
      cases hclose
    · exact h

end Underway

/-- A guard that allows everything. -/
theorem Obeys.trivial {ι : Type} (log : List (ι × Event Op χ σ)) :
    Obeys (fun _ _ _ => True) log := by
  induction log with
  | nil => exact True.intro
  | cons _ _ ih => exact ⟨True.intro, ih⟩

namespace Pool

variable {ι : Type} [DecidableEq ι] {exec : ι → Exec Ans ε χ σ}
  {step : ι → P → Event Op χ σ → P → Prop} {ok : ι → P → α → Prop} {err : ι → P → ε → Prop}
  {guard : List (ι × Event Op χ σ) → ι → Event Op χ σ → Prop}

/-- A pool whose threads are in the phases `φ`, with the invariant `I`. -/
structure Holds (exec : ι → Exec Ans ε χ σ) (step : ι → P → Event Op χ σ → P → Prop)
    (ok : ι → P → α → Prop) (err : ι → P → ε → Prop)
    (I : List (ι × Event Op χ σ) → σ → (ι → P) → Prop) (p : Pool ι Ans ε α χ σ) (φ : ι → P) :
    Prop where
  inv : I p.log p.state φ
  sim : ∀ i, (p.threads i).Sim (exec i) (step i) (ok i) (err i) (φ i)

/-- The next step of a thread, as a step of its phases. -/
theorem Holds.step_cases {I : List (ι × Event Op χ σ) → σ → (ι → P) → Prop}
    {p : Pool ι Ans ε α χ σ} {φ : ι → P} (hp : Holds exec step ok err I p φ) (i : ι) (c : χ) :
    p.step exec i c = p ∨ ∃ ev φ', step i (φ i) ev φ' ∧ ev.pre = p.state ∧
      (p.step exec i c).state = ev.post (exec i) := by
  rcases p.step_cases exec i c with h | ⟨o, k, ho, h⟩
  · exact .inl h
  · have hs := hp.sim i
    rw [ho] at hs
    obtain ⟨φ', hφ, -⟩ := hs c p.state
    exact .inr ⟨_, φ', hφ, rfl, by rw [h]; rfl⟩

/-- **The invariant rule of an interleaved run.** What holds of the log, the state and the phases
of all threads at the start, and is kept by every step of one thread that the guard allows, holds
at every moment of every run whose log obeys the guard. -/
theorem run_rule {I : List (ι × Event Op χ σ) → σ → (ι → P) → Prop}
    (hstep : ∀ {log φ i ev φ'}, I log ev.pre φ → step i (φ i) ev φ' → guard log i ev →
      I ((i, ev) :: log) (ev.post (exec i)) (Function.update φ i φ'))
    {p : Pool ι Ans ε α χ σ} {φ : ι → P} (hp : Holds exec step ok err I p φ)
    (sched : List (ι × χ)) (hguard : Obeys guard (p.run exec sched).log) :
    ∃ φ', Holds exec step ok err I (p.run exec sched) φ' := by
  induction sched generalizing p φ with
  | nil => exact ⟨φ, hp⟩
  | cons e sched ih =>
    obtain ⟨i, c⟩ := e
    rcases p.step_cases exec i c with h | ⟨o, k, ho, h⟩
    · rw [run, h] at hguard ⊢
      exact ih hp hguard
    · obtain ⟨new, hnew⟩ := (p.step exec i c).log_suffix exec sched
      have hg : guard p.log i ⟨o, c, p.state⟩ := by
        rw [run, hnew, h] at hguard
        exact hguard.of_append.1
      have hs := hp.sim i
      rw [ho] at hs
      obtain ⟨φ', hφ, hk⟩ := hs c p.state
      have hp' : Holds exec step ok err I (p.step exec i c) (Function.update φ i φ') := by
        rw [h]
        refine ⟨hstep hp.inv hφ hg, fun j => ?_⟩
        by_cases hj : j = i
        · subst hj
          simpa using hk
        · simpa [hj] using hp.sim j
      exact ih hp' hguard

end Pool

end Effect
