import QdrantRag.Effect.Only

/-! # Two runs of a program

A program run from two states the environment cannot be told apart by replies the same.
`Blind S Rel p` says what is to be checked of the program: it makes only operations of `S`, and goes
on alike after answers that `Rel` relates; `Blind.run` lifts a relation of states that `S` keeps to
whole runs. -/

namespace Effect

variable {Op : Type} {Ans : Op → Type} {ε α β χ σ : Type}

/-- A call failed alike from both states, or was given related answers, and left related states. -/
def Matches (Rel : (o : Op) → Ans o → Ans o → Prop) (R : σ → σ → Prop) (o : Op)
    (r r' : Except ε (Ans o) × σ) : Prop :=
  R r.2 r'.2 ∧ ((∃ e, r.1 = .error e ∧ r'.1 = .error e) ∨
    ∃ a a', r.1 = .ok a ∧ r'.1 = .ok a' ∧ Rel o a a')

namespace Prog

/-- The program makes only operations of `S`, and goes on alike after related answers. -/
def Blind (S : Op → Prop) (Rel : (o : Op) → Ans o → Ans o → Prop) : Prog Ans ε α → Prop
  | .pure _ | .throw _ => True
  | .call o k => S o ∧ (∀ e, (k (.error e)).Blind S Rel) ∧
      ∀ a a', Rel o a a' → k (.ok a) = k (.ok a') ∧ (k (.ok a)).Blind S Rel

variable {S : Op → Prop} {Rel : (o : Op) → Ans o → Ans o → Prop} {p : Prog Ans ε α}

/-- Equal answers are followed alike. -/
theorem Only.blind (h : p.Only S) : p.Blind S fun _ => Eq := by
  induction p with
  | pure a => trivial
  | throw e => trivial
  | call o k ih =>
    refine ⟨h.1, fun e => ih _ (h.2 _), fun a a' ha => ?_⟩
    subst ha
    exact ⟨rfl, ih _ (h.2 _)⟩

theorem Blind.mono {S' : Op → Prop} {Rel' : (o : Op) → Ans o → Ans o → Prop}
    (h : p.Blind S Rel) (hS : ∀ o, S o → S' o)
    (hRel : ∀ o, S o → ∀ a a', Rel' o a a' → Rel o a a') : p.Blind S' Rel' := by
  induction p with
  | pure a => trivial
  | throw e => trivial
  | call o k ih =>
    refine ⟨hS o h.1, fun e => ih _ (h.2.1 e), fun a a' ha => ?_⟩
    obtain ⟨he, hk⟩ := h.2.2 a a' (hRel o h.1 a a' ha)
    exact ⟨he, ih _ hk⟩

theorem blind_ofExcept_bind {x : Except ε β} {f : β → Prog Ans ε α}
    (h : ∀ b, x = .ok b → (f b).Blind S Rel) : (ofExcept x >>= f).Blind S Rel := by
  cases x with
  | error e => trivial
  | ok b => exact h b rfl

/-- A call whose answer matters only up to `Rel` to what follows. -/
theorem blind_perform_bind {o : Op} {f : Ans o → Prog Ans ε α} (ho : S o)
    (h : ∀ a a', Rel o a a' → f a = f a' ∧ (f a).Blind S Rel) :
    (perform o >>= f).Blind S Rel := ⟨ho, fun _ => trivial, h⟩

theorem Blind.bind {p : Prog Ans ε β} {f : β → Prog Ans ε α} (hp : p.Blind S Rel)
    (hf : ∀ b, (f b).Blind S Rel) : (p >>= f).Blind S Rel := by
  change (p.bind f).Blind S Rel
  induction p with
  | pure b => exact hf b
  | throw e => trivial
  | call o k ih =>
    refine ⟨hp.1, fun e => ih _ (hp.2.1 e), fun a a' ha => ?_⟩
    obtain ⟨he, hk⟩ := hp.2.2 a a' ha
    exact ⟨congrArg (·.bind f) he, ih _ hk⟩

theorem Blind.tryFinally {q : Prog Ans ε Unit} (hp : p.Blind S Rel) (hq : q.Blind S Rel) :
    (p.tryFinally q).Blind S Rel := by
  induction p with
  | pure a => exact hq.bind fun _ => trivial
  | throw e => exact hq.bind fun _ => trivial
  | call o k ih =>
    refine ⟨hp.1, fun e => ih _ (hp.2.1 e), fun a a' ha => ?_⟩
    obtain ⟨he, hk⟩ := hp.2.2 a a' ha
    exact ⟨congrArg (·.tryFinally q) he, ih _ hk⟩

section Run
variable {exec : Exec Ans ε χ σ} {R : σ → σ → Prop}

/-- Two runs under the same plan from related states. -/
theorem Blind.run (hexec : ∀ o c s s', S o → R s s' → Matches Rel R o (exec o c s) (exec o c s'))
    (h : p.Blind S Rel) {plan : Nat → χ} {s s' : σ} (hs : R s s') :
    (p.run exec plan s).reply = (p.run exec plan s').reply ∧
      R (p.run exec plan s).state (p.run exec plan s').state := by
  induction p generalizing plan s s' with
  | pure a => exact ⟨rfl, hs⟩
  | throw e => exact ⟨rfl, hs⟩
  | call o k ih =>
    obtain ⟨hR, ⟨e, he, he'⟩ | ⟨a, a', ha, ha', hRel⟩⟩ := hexec o (plan 0) s s' h.1 hs
    · simp only [Prog.run, he, he']
      exact ih _ (h.2.1 e) hR
    · obtain ⟨hk, hblind⟩ := h.2.2 a a' hRel
      simp only [Prog.run, ha, ha', ← hk]
      exact ih _ hblind hR

end Run

end Prog

end Effect
