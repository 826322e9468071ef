import QdrantRag.Effect.Prog

/-! # Programs that return

`Prog.Returns exec c p s a s'`: run from `s`, the environment choosing `c` at every call, the
program `p` returns `a` and leaves `s'`. One rule for each way programs are put together.
`Prog.Stops` says the same of any reply. -/

namespace Effect.Prog

variable {Op : Type} {Ans : Op → Type} {ε α β χ σ : Type} {exec : Exec Ans ε χ σ} {c : χ}
  {s s' s'' : σ}

/-- The program returns `a` and leaves `s'`. -/
def Returns (exec : Exec Ans ε χ σ) (c : χ) (p : Prog Ans ε α) (s : σ) (a : α) (s' : σ) : Prop :=
  (p.run exec (fun _ => c) s).reply = .ok a ∧ (p.run exec (fun _ => c) s).state = s'

theorem returns_pure {a : α} : Returns exec c (.pure a) s a s := ⟨rfl, rfl⟩

theorem returns_call {o : Op} {k : Except ε (Ans o) → Prog Ans ε α} {a : α} :
    Returns exec c (.call o k) s a s' ↔
      Returns exec c (k (exec o c s).1) (exec o c s).2 a s' := .rfl

theorem returns_perform {o : Op} {a : Ans o} (h : exec o c s = (.ok a, s')) :
    Returns exec c (perform o) s a s' := by
  rw [perform, returns_call, h]
  exact returns_pure

theorem Returns.bind {p : Prog Ans ε β} {f : β → Prog Ans ε α} {b : β} {a : α}
    (hp : Returns exec c p s b s') (hf : Returns exec c (f b) s' a s'') :
    Returns exec c (p >>= f) s a s'' := by
  change Returns exec c (p.bind f) s a s''
  induction p generalizing s with
  | pure b' =>
    obtain ⟨hb, rfl⟩ := hp
    cases hb
    exact hf
  | throw e => cases hp.1
  | call o k ih => exact ih _ hp

theorem Returns.tryCatch {p : Prog Ans ε α} {h : ε → Prog Ans ε α} {a : α}
    (hp : Returns exec c p s a s') : Returns exec c (p.tryCatch h) s a s' := by
  induction p generalizing s with
  | pure b => exact hp
  | throw e => cases hp.1
  | call o k ih => exact ih _ hp

theorem Returns.tryFinally {p : Prog Ans ε α} {q : Prog Ans ε Unit} {a : α}
    (hp : Returns exec c p s a s') (hq : Returns exec c q s' () s'') :
    Returns exec c (p.tryFinally q) s a s'' := by
  induction p generalizing s with
  | pure b =>
    obtain ⟨hb, rfl⟩ := hp
    cases hb
    exact Returns.bind hq returns_pure
  | throw e => cases hp.1
  | call o k ih => exact ih _ hp

/-- A program goes on where the one before it returned. -/
theorem Returns.reply_bind {p : Prog Ans ε β} {f : β → Prog Ans ε α} {b : β}
    (hp : Returns exec c p s b s') :
    ((p >>= f).run exec (fun _ => c) s).reply = ((f b).run exec (fun _ => c) s').reply := by
  change ((p.bind f).run exec (fun _ => c) s).reply = _
  induction p generalizing s with
  | pure b' =>
    obtain ⟨hb, rfl⟩ := hp
    cases hb
    rfl
  | throw e => cases hp.1
  | call o k ih => exact ih _ hp

theorem reply_bind_of_error {p : Prog Ans ε β} {f : β → Prog Ans ε α} {plan : Nat → χ} {e : ε}
    (h : (p.run exec plan s).reply = .error e) : ((p >>= f).run exec plan s).reply = .error e := by
  change ((p.bind f).run exec plan s).reply = _
  induction p generalizing plan s with
  | pure b => cases h
  | throw e' => exact congrArg Except.error (Except.error.inj h)
  | call o k ih => exact ih _ h

/-- A `finally` that returns leaves the reply as it is. -/
theorem reply_tryFinally {p : Prog Ans ε α} {q : Prog Ans ε Unit}
    (hq : ∀ t, ∃ t', Returns exec c q t () t') :
    ((p.tryFinally q).run exec (fun _ => c) s).reply = (p.run exec (fun _ => c) s).reply := by
  induction p generalizing s with
  | pure a =>
    obtain ⟨t', ht'⟩ := hq s
    exact ht'.reply_bind
  | throw e =>
    obtain ⟨t', ht'⟩ := hq s
    exact ht'.reply_bind
  | call o k ih => exact ih _

theorem returns_ofExcept {x : Except ε α} {a : α} (h : x = .ok a) :
    Returns exec c (ofExcept x) s a s := by
  subst h
  exact returns_pure

/-- A loop whose body returns and keeps `I`. -/
theorem returns_each {f : β → Prog Ans ε Unit} (I : σ → Prop) {l : List β}
    (h : ∀ b ∈ l, ∀ s, I s → ∃ s', Returns exec c (f b) s () s' ∧ I s') (hI : I s) :
    ∃ s', Returns exec c (each f l) s () s' ∧ I s' := by
  induction l generalizing s with
  | nil => exact ⟨s, returns_pure, hI⟩
  | cons b l ih =>
    obtain ⟨s₁, hb, h₁⟩ := h b List.mem_cons_self s hI
    obtain ⟨s₂, hl, h₂⟩ := ih (fun b hb => h b (List.mem_cons_of_mem _ hb)) h₁
    exact ⟨s₂, hb.bind hl, h₂⟩

/-! ## Any reply -/

/-- The program replies `r` and leaves `s'`. -/
def Stops (exec : Exec Ans ε χ σ) (c : χ) (p : Prog Ans ε α) (s : σ) (r : Except ε α) (s' : σ) :
    Prop :=
  (p.run exec (fun _ => c) s).reply = r ∧ (p.run exec (fun _ => c) s).state = s'

theorem Returns.stops {p : Prog Ans ε α} {a : α} (h : Returns exec c p s a s') :
    Stops exec c p s (.ok a) s' := h

theorem stops_throw {e : ε} : Stops exec c (.throw e : Prog Ans ε α) s (.error e) s := ⟨rfl, rfl⟩

theorem stops_perform {o : Op} {e : ε} (h : exec o c s = (.error e, s')) :
    Stops exec c (perform o) s (.error e) s' := by
  unfold Stops
  rw [run_perform_of_error h]
  exact ⟨rfl, rfl⟩

/-- A program goes on where the one before it returned. -/
theorem Returns.stops_bind {p : Prog Ans ε β} {f : β → Prog Ans ε α} {b : β} {r : Except ε α}
    (hp : Returns exec c p s b s') (hf : Stops exec c (f b) s' r s'') :
    Stops exec c (p >>= f) s r s'' := by
  change Stops exec c (p.bind f) s r s''
  induction p generalizing s with
  | pure b' =>
    obtain ⟨hb, rfl⟩ := hp
    cases hb
    exact hf
  | throw e => cases hp.1
  | call o k ih => exact ih _ hp

theorem Stops.bind_error {p : Prog Ans ε β} {f : β → Prog Ans ε α} {e : ε}
    (hp : Stops exec c p s (.error e) s') : Stops exec c (p >>= f) s (.error e) s' := by
  change Stops exec c (p.bind f) s (.error e) s'
  induction p generalizing s with
  | pure b => cases hp.1
  | throw e' => exact ⟨congrArg Except.error (Except.error.inj hp.1), hp.2⟩
  | call o k ih => exact ih _ hp

theorem Stops.map {p : Prog Ans ε β} {r : Except ε β} (f : β → α) (h : Stops exec c p s r s') :
    Stops exec c (p >>= fun b => Pure.pure (f b)) s (r.map f) s' := by
  cases r with
  | ok b => exact Returns.stops_bind h returns_pure
  | error e => exact h.bind_error

/-- The handler runs on where the program raised. -/
theorem Stops.tryCatch_error {p : Prog Ans ε α} {h : ε → Prog Ans ε α} {e : ε} {r : Except ε α}
    (hp : Stops exec c p s (.error e) s') (hh : Stops exec c (h e) s' r s'') :
    Stops exec c (p.tryCatch h) s r s'' := by
  induction p generalizing s with
  | pure a => cases hp.1
  | throw e' =>
    obtain ⟨he, rfl⟩ := hp
    cases he
    exact hh
  | call o k ih => exact ih _ hp

theorem Stops.tryFinally {p : Prog Ans ε α} {q : Prog Ans ε Unit} {r : Except ε α}
    (hp : Stops exec c p s r s') (hq : Returns exec c q s' () s'') :
    Stops exec c (p.tryFinally q) s r s'' := by
  induction p generalizing s with
  | pure a =>
    obtain ⟨rfl, rfl⟩ := hp
    exact hq.stops_bind returns_pure
  | throw e =>
    obtain ⟨rfl, rfl⟩ := hp
    exact hq.stops_bind stops_throw
  | call o k ih => exact ih _ hp

end Effect.Prog
