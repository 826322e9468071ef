import QdrantRag.Effect.Prog

/-! # Programs under way

`Prog.Comes exec p s cs q t`: from `s` the program `p` has come to `q` in the state `t`, by calls at
which the environment chose `cs`. A run that begins with these choices goes on from there
(`Comes.run`). -/

namespace Effect.Prog

variable {Op : Type} {Ans : Op → Type} {ε α β γ χ σ : Type}

inductive Comes (exec : Exec Ans ε χ σ) (p : Prog Ans ε α) (s : σ) :
    List χ → Prog Ans ε α → σ → Prop
  | start : Comes exec p s [] p s
  | call {cs : List χ} {o : Op} {k : Except ε (Ans o) → Prog Ans ε α} {t : σ}
      (h : Comes exec p s cs (.call o k) t) (c : χ) :
      Comes exec p s (cs ++ [c]) (k (exec o c t).1) (exec o c t).2

theorem Comes.run {exec : Exec Ans ε χ σ} {p q : Prog Ans ε α} {s t : σ} {cs : List χ}
    {plan : Nat → χ} (h : Comes exec p s cs q t) (hplan : ∀ n c, cs[n]? = some c → plan n = c) :
    (p.run exec plan s).reply = (q.run exec (fun n => plan (n + cs.length)) t).reply ∧
      (p.run exec plan s).state = (q.run exec (fun n => plan (n + cs.length)) t).state := by
  induction h with
  | start => exact ⟨rfl, rfl⟩
  | @call cs o k t _ c ih =>
    have hbefore (n : Nat) (c' : χ) (hn : cs[n]? = some c') : plan n = c' := by
      apply hplan
      rw [List.getElem?_append_left (List.getElem?_eq_some_iff.mp hn).1]
      exact hn
    have hlast : plan (0 + cs.length) = c := by
      apply hplan
      rw [Nat.zero_add, List.getElem?_concat_length]
    have hshift : (fun n => plan (n + 1 + cs.length)) = fun n => plan (n + (cs ++ [c]).length) := by
      funext n
      rw [List.length_append, List.length_singleton, Nat.add_assoc, Nat.add_comm 1]
    have hrun := ih hbefore
    simp only [Prog.run, hlast, hshift] at hrun
    exact hrun

theorem bind_assoc {p : Prog Ans ε α} {f : α → Prog Ans ε β} {g : β → Prog Ans ε γ} :
    p >>= f >>= g = p >>= fun a => f a >>= g := by
  change (p.bind f).bind g = p.bind fun a => (f a).bind g
  induction p with
  | pure a => rfl
  | throw e => rfl
  | call o k ih => exact congrArg (Prog.call o) (funext fun r => ih r)

/-- What a program returns may be passed on before its `finally` or behind it. -/
theorem tryFinally_map {p : Prog Ans ε α} {q : Prog Ans ε Unit} {f : α → β} :
    (p.tryFinally q >>= fun a => Pure.pure (f a)) =
      (p >>= fun a => Pure.pure (f a)).tryFinally q := by
  change (p.tryFinally q).bind (fun a => .pure (f a)) = (p.bind fun a => .pure (f a)).tryFinally q
  induction p with
  | pure a => exact bind_assoc (p := q) (f := fun _ => .pure a) (g := fun a => .pure (f a))
  | throw e => exact bind_assoc (p := q) (f := fun _ => .throw e) (g := fun a => .pure (f a))
  | call o k ih => exact congrArg (Prog.call o) (funext fun r => ih r)

end Effect.Prog
