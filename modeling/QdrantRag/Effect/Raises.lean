import QdrantRag.Effect.Prog

/-! # What programs raise

`Prog.Raises S F P p`: the program `p` makes only operations of `S`, and as long as these fail only
with exceptions of `F`, it raises only exceptions of `P`. One rule for each way programs are put
together. -/

namespace Effect.Prog

variable {Op : Type} {Ans : Op → Type} {ε α β : Type}

def Raises (S : Op → Prop) (F P : ε → Prop) : Prog Ans ε α → Prop
  | .pure _ => True
  | .throw e => P e
  | .call o k => S o ∧ (∀ a, (k (.ok a)).Raises S F P) ∧ ∀ e, F e → (k (.error e)).Raises S F P

section Rules
variable {S : Op → Prop} {F P P' : ε → Prop}

theorem raises_return {a : α} : (Pure.pure a : Prog Ans ε α).Raises S F P := trivial

theorem raises_throw {e : ε} (h : P e) : (Prog.throw e : Prog Ans ε α).Raises S F P := h

theorem raises_perform {o : Op} (ho : S o) (h : ∀ e, F e → P e) :
    (perform o : Prog Ans ε (Ans o)).Raises S F P := ⟨ho, fun _ => trivial, h⟩

theorem raises_ofExcept {x : Except ε α} (h : ∀ e, x = .error e → P e) :
    (ofExcept x : Prog Ans ε α).Raises S F P := by
  cases x with
  | ok a => trivial
  | error e => exact h e rfl

theorem Raises.bind {p : Prog Ans ε β} {f : β → Prog Ans ε α} (hp : p.Raises S F P)
    (hf : ∀ b, (f b).Raises S F P) : (p >>= f).Raises S F P := by
  change (p.bind f).Raises S F P
  induction p with
  | pure b => exact hf b
  | throw e => exact hp
  | call o k ih => exact ⟨hp.1, fun a => ih _ (hp.2.1 a), fun e he => ih _ (hp.2.2 e he)⟩

theorem Raises.tryCatch {p : Prog Ans ε α} {h : ε → Prog Ans ε α} (hp : p.Raises S F P')
    (hh : ∀ e, P' e → (h e).Raises S F P) : (p.tryCatch h).Raises S F P := by
  induction p with
  | pure a => trivial
  | throw e => exact hh e hp
  | call o k ih => exact ⟨hp.1, fun a => ih _ (hp.2.1 a), fun e he => ih _ (hp.2.2 e he)⟩

theorem Raises.each {f : β → Prog Ans ε Unit} {l : List β} (h : ∀ b, (f b).Raises S F P) :
    (Prog.each f l).Raises S F P := by
  induction l with
  | nil => trivial
  | cons b l ih => exact Raises.bind (h b) fun _ => ih

theorem Raises.ite {c : Prop} [Decidable c] {p q : Prog Ans ε α} (ht : p.Raises S F P)
    (he : q.Raises S F P) : (if c then p else q).Raises S F P := by
  split
  · exact ht
  · exact he

end Rules

end Effect.Prog
