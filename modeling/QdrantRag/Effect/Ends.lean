import QdrantRag.Effect.Prog

/-! # Pre- and postconditions

`Prog.Ends exec G p s post`: whatever choices in `G` the environment makes, the run of the program
`p` from `s` ends as `post` says, of the calls made, the reply and the state left. One rule for each
way programs are put together; `Ends.run` leads back to runs. -/

namespace Effect.Prog

variable {Op : Type} {Ans : Op → Type} {ε α β χ σ : Type}

/-- What is said of the end of a run. -/
abbrev Post (Op ε α χ σ : Type) := List (Event Op χ σ) → Except ε α → σ → Prop

section Rules
variable (exec : Exec Ans ε χ σ) (G : χ → Prop)

def Ends : Prog Ans ε α → σ → Post Op ε α χ σ → Prop
  | .pure a, s, post => post [] (.ok a) s
  | .throw e, s, post => post [] (.error e) s
  | .call o k, s, post =>
    ∀ c, G c → (k (exec o c s).1).Ends (exec o c s).2 fun tr => post (⟨o, c, s⟩ :: tr)

/-- The condition under which `f` goes on to end as `post` says, after the calls `tr`. -/
def Next (f : β → Prog Ans ε α) (post : Post Op ε α χ σ) : Post Op ε β χ σ
  | tr, .ok b, s => (f b).Ends exec G s fun tr' => post (tr ++ tr')
  | tr, .error e, s => post tr (.error e) s

/-- The condition under which the handler `h` goes on to end as `post` says, after the calls
`tr`. -/
def Handle (h : ε → Prog Ans ε α) (post : Post Op ε α χ σ) : Post Op ε α χ σ
  | tr, .ok a, s => post tr (.ok a) s
  | tr, .error e, s => (h e).Ends exec G s fun tr' => post (tr ++ tr')

variable {exec G} {s : σ} {post post' : Post Op ε α χ σ}

@[simp] theorem next_ok {f : β → Prog Ans ε α} {tr : List (Event Op χ σ)} {b : β} :
    Next exec G f post tr (.ok b) s ↔ (f b).Ends exec G s fun tr' => post (tr ++ tr') := .rfl

@[simp] theorem next_error {f : β → Prog Ans ε α} {tr : List (Event Op χ σ)} {e : ε} :
    Next exec G f post tr (.error e) s ↔ post tr (.error e) s := .rfl

@[simp] theorem handle_ok {h : ε → Prog Ans ε α} {tr : List (Event Op χ σ)} {a : α} :
    Handle exec G h post tr (.ok a) s ↔ post tr (.ok a) s := .rfl

@[simp] theorem handle_error {h : ε → Prog Ans ε α} {tr : List (Event Op χ σ)} {e : ε} :
    Handle exec G h post tr (.error e) s ↔ (h e).Ends exec G s fun tr' => post (tr ++ tr') := .rfl

theorem Ends.run {p : Prog Ans ε α} (h : p.Ends exec G s post) {plan : Nat → χ}
    (hplan : ∀ n, G (plan n)) :
    post (p.run exec plan s).trace (p.run exec plan s).reply (p.run exec plan s).state := by
  induction p generalizing s plan post with
  | pure a => exact h
  | throw e => exact h
  | call o k ih => exact ih _ (h _ (hplan 0)) fun n => hplan (n + 1)

theorem Ends.mono {p : Prog Ans ε α} (h : p.Ends exec G s post)
    (hpost : ∀ tr r s, post tr r s → post' tr r s) : p.Ends exec G s post' := by
  induction p generalizing s post post' with
  | pure a => exact hpost _ _ _ h
  | throw e => exact hpost _ _ _ h
  | call o k ih => exact fun c hc => ih _ (h c hc) fun tr => hpost (_ :: tr)

@[simp] theorem ends_pure {a : α} : (Prog.pure a : Prog Ans ε α).Ends exec G s post ↔
    post [] (.ok a) s := .rfl

@[simp] theorem ends_return {a : α} : (Pure.pure a : Prog Ans ε α).Ends exec G s post ↔
    post [] (.ok a) s := .rfl

@[simp] theorem ends_throw {e : ε} : (Prog.throw e : Prog Ans ε α).Ends exec G s post ↔
    post [] (.error e) s := .rfl

theorem ends_perform {o : Op} {post : Post Op ε (Ans o) χ σ} :
    (perform o : Prog Ans ε (Ans o)).Ends exec G s post ↔
      ∀ c, G c → post [⟨o, c, s⟩] (exec o c s).1 (exec o c s).2 := by
  unfold perform
  refine forall_congr' fun c => imp_congr_right fun _ => ?_
  cases (exec o c s).1 <;> rfl

theorem ends_ofExcept {x : Except ε α} : (ofExcept x : Prog Ans ε α).Ends exec G s post ↔
    post [] x s := by
  cases x <;> rfl

theorem ends_ofExcept_bind {x : Except ε β} {b : β} {f : β → Prog Ans ε α} (h : x = .ok b) :
    (ofExcept x >>= f).Ends exec G s post ↔ (f b).Ends exec G s post := by
  rw [h]
  rfl

theorem ends_bind {p : Prog Ans ε β} {f : β → Prog Ans ε α} :
    (p >>= f).Ends exec G s post ↔ p.Ends exec G s (Next exec G f post) := by
  change (p.bind f).Ends exec G s post ↔ _
  induction p generalizing s post with
  | pure b => rfl
  | throw e => rfl
  | call o k ih =>
    refine forall_congr' fun c => imp_congr_right fun _ => (ih _).trans ?_
    have hnext : Next exec G f (fun tr => post (⟨o, c, s⟩ :: tr)) =
        fun tr => Next exec G f post (⟨o, c, s⟩ :: tr) := by
      funext tr r s'
      cases r <;> rfl
    rw [hnext]

theorem ends_tryCatch {p : Prog Ans ε α} {h : ε → Prog Ans ε α} :
    (p.tryCatch h).Ends exec G s post ↔ p.Ends exec G s (Handle exec G h post) := by
  induction p generalizing s post with
  | pure a => rfl
  | throw e => rfl
  | call o k ih =>
    refine forall_congr' fun c => imp_congr_right fun _ => (ih _).trans ?_
    have hhandle : Handle exec G h (fun tr => post (⟨o, c, s⟩ :: tr)) =
        fun tr => Handle exec G h post (⟨o, c, s⟩ :: tr) := by
      funext tr r s'
      cases r <;> rfl
    rw [hhandle]

theorem ends_attempt {p : Prog Ans ε α} {post : Post Op ε (Except ε α) χ σ} :
    p.attempt.Ends exec G s post ↔ p.Ends exec G s fun tr r => post tr (.ok r) := by
  rw [attempt, ends_tryCatch]
  change (p >>= fun a => Pure.pure (Except.ok a)).Ends exec G s _ ↔ _
  rw [ends_bind]
  have hpost (tr : List (Event Op χ σ)) (r : Except ε α) (s' : σ) :
      Next exec G (fun a => Pure.pure (Except.ok a))
        (Handle exec G (fun e => .pure (Except.error e)) post) tr r s' ↔ post tr (.ok r) s' := by
    cases r with
    | ok a => simp
    | error e => simp
  constructor <;> refine fun h => h.mono fun tr r s' hr => ?_
  · exact (hpost tr r s').mp hr
  · exact (hpost tr r s').mpr hr

/-- A program ends as one of its runs. -/
theorem ends_self (p : Prog Ans ε α) (plan : Nat → χ) :
    p.Ends exec G s fun tr r s' => ∃ plan, p.run exec plan s = ⟨r, s', tr⟩ := by
  induction p generalizing s with
  | pure a => exact ⟨plan, rfl⟩
  | throw e => exact ⟨plan, rfl⟩
  | call o k ih =>
    intro c _
    refine (ih _).mono fun tr r s' ⟨plan', hrun⟩ => ⟨fun | 0 => c | n + 1 => plan' n, ?_⟩
    simp only [Prog.run, hrun]

theorem ends_tryFinally {p : Prog Ans ε α} {q : Prog Ans ε Unit} :
    (p.tryFinally q).Ends exec G s post ↔ p.Ends exec G s fun tr r s' =>
      q.Ends exec G s' fun tr' rq => post (tr ++ tr') (rq.bind fun _ => r) := by
  have hend (r : Except ε α) (p : Prog Ans ε α) (hp : ∀ s post, p.Ends exec G s post ↔ post [] r s)
      (s : σ) (post : Post Op ε α χ σ) : (q >>= fun _ => p).Ends exec G s post ↔
        q.Ends exec G s fun tr rq => post tr (rq.bind fun _ => r) := by
    rw [ends_bind]
    constructor <;> refine fun h => h.mono fun tr rq s' hrq => ?_
    · cases rq with
      | ok u =>
        rw [next_ok, hp, List.append_nil] at hrq
        exact hrq
      | error e => exact hrq
    · cases rq with
      | ok u =>
        rw [next_ok, hp, List.append_nil]
        exact hrq
      | error e => exact hrq
  induction p generalizing s post with
  | pure a => exact hend (.ok a) (.pure a) (fun _ _ => .rfl) s post
  | throw e => exact hend (.error e) (.throw e) (fun _ _ => .rfl) s post
  | call o k ih => exact forall_congr' fun c => imp_congr_right fun _ => ih _

/-- A loop whose body keeps `I`, of the calls made since it began, and ends it as `post` says where
it raises. -/
theorem ends_each {f : β → Prog Ans ε Unit} (I : List (Event Op χ σ) → σ → Prop) {l : List β}
    {post : Post Op ε Unit χ σ}
    (hbody : ∀ b ∈ l, ∀ tr s, I tr s → (f b).Ends exec G s fun tr' r s' =>
      match r with
      | .ok () => I (tr ++ tr') s'
      | .error e => post (tr ++ tr') (.error e) s')
    (hend : ∀ tr s, I tr s → post tr (.ok ()) s) (hI : I [] s) :
    (each f l).Ends exec G s post := by
  have hloop {tr : List (Event Op χ σ)} {s : σ} (hI : I tr s) :
      (each f l).Ends exec G s fun tr' => post (tr ++ tr') := by
    induction l generalizing tr s with
    | nil =>
      change post (tr ++ []) (.ok ()) s
      rw [List.append_nil]
      exact hend tr s hI
    | cons b l ih =>
      apply ends_bind.mpr
      refine (hbody b List.mem_cons_self tr s hI).mono fun tr' r s' hr => ?_
      cases r with
      | error e => exact hr
      | ok u =>
        refine (ih (fun b hb => hbody b (List.mem_cons_of_mem _ hb)) hr).mono fun tr'' r s h => ?_
        rwa [List.append_assoc] at h
  exact hloop hI

end Rules

end Effect.Prog
