import QdrantRag.Effect.Prog

/-! # The calls of a program

`Prog.Only S p`: the program `p` makes only operations of `S`, whatever comes back, and
`Prog.Yields P p`: it returns only values of `P`. A run then keeps
every property of states that calls of `S` keep (`Only.run_state`), so what a program does not touch
is shown without following it. `Exec.limit` restricts the environment to some of its choices; a run
in which it made no other is the same under the restriction (`Prog.run_limit`). -/

namespace Effect

variable {Op : Type} {Ans : Op → Type} {ε α β χ σ : Type}

namespace Prog

/-- The program makes only operations of `S`. -/
def Only (S : Op → Prop) : Prog Ans ε α → Prop
  | .pure _ | .throw _ => True
  | .call o k => S o ∧ ∀ r, (k r).Only S

section Rules
variable {S S' : Op → Prop} {p : Prog Ans ε α}

theorem Only.mono (h : ∀ o, S o → S' o) (hp : p.Only S) : p.Only S' := by
  induction p with
  | pure a => trivial
  | throw e => trivial
  | call o k ih => exact ⟨h o hp.1, fun r => ih r (hp.2 r)⟩

theorem only_perform {o : Op} (h : S o) : (perform o : Prog Ans ε (Ans o)).Only S := by
  refine ⟨h, fun r => ?_⟩
  cases r <;> trivial

theorem only_ofExcept (x : Except ε α) : (ofExcept x : Prog Ans ε α).Only S := by
  cases x <;> trivial

/-- A program that goes on with a value only where there is one. -/
theorem only_ofExcept_bind {x : Except ε β} {f : β → Prog Ans ε α}
    (h : ∀ b, x = .ok b → (f b).Only S) : (ofExcept x >>= f).Only S := by
  cases x with
  | error e => trivial
  | ok b => exact h b rfl

theorem Only.bind {p : Prog Ans ε β} {f : β → Prog Ans ε α} (hp : p.Only S)
    (hf : ∀ b, (f b).Only S) : (p >>= f).Only S := by
  change (p.bind f).Only S
  induction p with
  | pure b => exact hf b
  | throw e => trivial
  | call o k ih => exact ⟨hp.1, fun r => ih r (hp.2 r)⟩

theorem Only.tryCatch {h : ε → Prog Ans ε α} (hp : p.Only S) (hh : ∀ e, (h e).Only S) :
    (p.tryCatch h).Only S := by
  induction p with
  | pure a => trivial
  | throw e => exact hh e
  | call o k ih => exact ⟨hp.1, fun r => ih r (hp.2 r)⟩

theorem Only.tryFinally {q : Prog Ans ε Unit} (hp : p.Only S) (hq : q.Only S) :
    (p.tryFinally q).Only S := by
  induction p with
  | pure a => exact hq.bind fun _ => trivial
  | throw e => exact hq.bind fun _ => trivial
  | call o k ih => exact ⟨hp.1, fun r => ih r (hp.2 r)⟩

theorem Only.each {f : β → Prog Ans ε Unit} {l : List β} (h : ∀ b ∈ l, (f b).Only S) :
    (Prog.each f l).Only S := by
  induction l with
  | nil => trivial
  | cons b l ih =>
    apply Only.bind (h b List.mem_cons_self)
    intro _
    exact ih fun b hb => h b (List.mem_cons_of_mem _ hb)

theorem Only.ite {c : Prop} [Decidable c] {p q : Prog Ans ε α} (ht : c → p.Only S)
    (he : ¬ c → q.Only S) : (if c then p else q).Only S := by
  split
  · exact ht ‹_›
  · exact he ‹_›

end Rules

/-- What the program returns, whatever comes back, is in `P`. -/
def Yields (P : α → Prop) : Prog Ans ε α → Prop
  | .pure a => P a
  | .throw _ => True
  | .call _ k => ∀ r, (k r).Yields P

section Yields
variable {S : Op → Prop} {P : α → Prop} {p : Prog Ans ε α}

theorem yields_bind {p : Prog Ans ε β} {f : β → Prog Ans ε α} (hf : ∀ b, (f b).Yields P) :
    (p >>= f).Yields P := by
  change (p.bind f).Yields P
  induction p with
  | pure b => exact hf b
  | throw e => trivial
  | call o k ih => exact fun r => ih r

theorem yields_ofExcept_bind {x : Except ε β} {f : β → Prog Ans ε α}
    (h : ∀ b, x = .ok b → (f b).Yields P) : (ofExcept x >>= f).Yields P := by
  cases x with
  | error e => trivial
  | ok b => exact h b rfl

theorem Yields.tryCatch {h : ε → Prog Ans ε α} (hp : p.Yields P) (hh : ∀ e, (h e).Yields P) :
    (p.tryCatch h).Yields P := by
  induction p with
  | pure a => exact hp
  | throw e => exact hh e
  | call o k ih => exact fun r => ih r (hp r)

/-- What follows is checked for what the program can return. -/
theorem Only.bind_yields {p : Prog Ans ε β} {Q : β → Prop} {f : β → Prog Ans ε α} (hp : p.Only S)
    (hy : p.Yields Q) (hf : ∀ b, Q b → (f b).Only S) : (p >>= f).Only S := by
  change (p.bind f).Only S
  induction p with
  | pure b => exact hf b hy
  | throw e => trivial
  | call o k ih => exact ⟨hp.1, fun r => ih r (hp.2 r) (hy r)⟩

end Yields

section Run
variable {S : Op → Prop} {p : Prog Ans ε α} {exec : Exec Ans ε χ σ} {plan : Nat → χ} {s : σ}

/-- The calls of a run are operations of `S`. -/
theorem Only.run_trace (h : p.Only S) : ∀ ev ∈ (p.run exec plan s).trace, S ev.op := by
  induction p generalizing plan s with
  | pure a => exact fun _ h => nomatch h
  | throw e => exact fun _ h => nomatch h
  | call o k ih =>
    intro ev hev
    rcases List.mem_cons.mp hev with rfl | hev
    · exact h.1
    · exact ih _ (h.2 _) ev hev

/-- What every operation of `S` keeps, a run keeps. -/
theorem Only.run_state (I : σ → Prop) (hstep : ∀ o c s, S o → I s → I (exec o c s).2)
    (h : p.Only S) (h0 : I s) : I (p.run exec plan s).state := by
  induction p generalizing plan s with
  | pure a => exact h0
  | throw e => exact h0
  | call o k ih => exact ih _ (h.2 _) (hstep o (plan 0) s h.1 h0)

end Run

end Prog

/-! ## Restricting the environment -/

/-- The environment's choices, put through `clean` first. -/
def Exec.limit (clean : Op → χ → χ) (exec : Exec Ans ε χ σ) : Exec Ans ε χ σ :=
  fun o c s => exec o (clean o c) s

/-- The choices of a run are those of its plan. -/
theorem Prog.choice_of_mem {exec : Exec Ans ε χ σ} {p : Prog Ans ε α} {plan : Nat → χ} {s : σ}
    {ev : Event Op χ σ} (h : ev ∈ (p.run exec plan s).trace) : ∃ n, ev.choice = plan n := by
  induction p generalizing plan s with
  | pure a => cases h
  | throw e => cases h
  | call o k ih =>
    rcases List.mem_cons.mp h with rfl | h
    · exact ⟨0, rfl⟩
    · obtain ⟨n, hn⟩ := ih _ h
      exact ⟨n + 1, hn⟩

/-- A run in which `clean` would have changed no choice. -/
theorem Prog.run_limit {clean : Op → χ → χ} {exec : Exec Ans ε χ σ} {p : Prog Ans ε α}
    {plan : Nat → χ} {s : σ}
    (h : ∀ ev ∈ (p.run exec plan s).trace, clean ev.op ev.choice = ev.choice) :
    p.run (Exec.limit clean exec) plan s = p.run exec plan s := by
  induction p generalizing plan s with
  | pure a => rfl
  | throw e => rfl
  | call o k ih =>
    have h0 : clean o (plan 0) = plan 0 := h _ List.mem_cons_self
    have hrest := ih (exec o (plan 0) s).1 fun ev hev => h ev (List.mem_cons_of_mem _ hev)
    simp only [Prog.run, Exec.limit, h0]
    exact congrArg (fun r => (⟨r.reply, r.state, _ :: r.trace⟩ : Prog.Outcome Op ε α χ σ)) hrest

end Effect
