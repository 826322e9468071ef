import Mathlib.Logic.Function.Basic

/-! # Programs that make calls

A `Prog` is a program over an interface: it returns, raises, or makes one of the operations `Op`
and goes on with what came back, an answer or an exception. One definition of a program is then
run in two ways: alone (`Prog.run`), and step by step among others on a shared state
(`Pool.run`). In both the environment makes a choice at every call (`χ`: whether it is served,
fails before it took effect, or fails after), and the calls made are kept as `Event`s. -/

namespace Effect

/-- Programs with answers `Ans o` to the operations, exceptions `ε` and results `α`. -/
inductive Prog {Op : Type} (Ans : Op → Type) (ε α : Type) : Type
  | pure (a : α)
  | throw (e : ε)
  | call (o : Op) (k : Except ε (Ans o) → Prog Ans ε α)

/-- A call as it was made: the operation, the environment's choice and the state it met. -/
structure Event (Op χ σ : Type) where
  op : Op
  choice : χ
  pre : σ

/-- How calls are executed: the outcome the caller sees and the state it leaves. -/
abbrev Exec {Op : Type} (Ans : Op → Type) (ε χ σ : Type) :=
  (o : Op) → χ → σ → Except ε (Ans o) × σ

variable {Op : Type} {Ans : Op → Type} {ε α β χ σ : Type}

namespace Prog

def bind : Prog Ans ε α → (α → Prog Ans ε β) → Prog Ans ε β
  | .pure a, f => f a
  | .throw e, _ => .throw e
  | .call o k, f => .call o fun r => (k r).bind f

instance : Monad (Prog Ans ε) where
  pure := .pure
  bind := .bind

/-- Make a call and raise what it raises. -/
def perform (o : Op) : Prog Ans ε (Ans o) :=
  .call o fun
    | .ok a => .pure a
    | .error e => .throw e

def ofExcept : Except ε α → Prog Ans ε α
  | .ok a => .pure a
  | .error e => .throw e

/-- `try p except e: h e`. -/
def tryCatch : Prog Ans ε α → (ε → Prog Ans ε α) → Prog Ans ε α
  | .pure a, _ => .pure a
  | .throw e, h => h e
  | .call o k, h => .call o fun r => (k r).tryCatch h

/-- `try p finally q`. An exception of `q` takes the place of the outcome of `p`. -/
def tryFinally : Prog Ans ε α → Prog Ans ε Unit → Prog Ans ε α
  | .pure a, q => q.bind fun _ => .pure a
  | .throw e, q => q.bind fun _ => .throw e
  | .call o k, q => .call o fun r => (k r).tryFinally q

/-- How `p` ends, as a value. -/
def attempt (p : Prog Ans ε α) : Prog Ans ε (Except ε α) :=
  (p.bind fun a => .pure (.ok a)).tryCatch fun e => .pure (.error e)

/-- Run `f` on each element in turn. -/
def each (f : β → Prog Ans ε Unit) : List β → Prog Ans ε Unit
  | [] => .pure ()
  | b :: bs => (f b).bind fun _ => each f bs

/-- What a run leaves behind. -/
structure Outcome (Op ε α χ σ : Type) where
  reply : Except ε α
  state : σ
  trace : List (Event Op χ σ)

/-- Run a program alone, the environment choosing `plan n` at the `n`-th call. -/
def run (exec : Exec Ans ε χ σ) : Prog Ans ε α → (Nat → χ) → σ → Outcome Op ε α χ σ
  | .pure a, _, s => ⟨.ok a, s, []⟩
  | .throw e, _, s => ⟨.error e, s, []⟩
  | .call o k, plan, s =>
    let r := exec o (plan 0) s
    let rest := (k r.1).run exec (fun n => plan (n + 1)) r.2
    ⟨rest.reply, rest.state, ⟨o, plan 0, s⟩ :: rest.trace⟩

section Run
variable {exec : Exec Ans ε χ σ} {plan : Nat → χ} {s s' : σ} {tr : List (Event Op χ σ)}

theorem run_perform_of_ok {o : Op} {a : Ans o} (h : exec o (plan 0) s = (.ok a, s')) :
    (perform o : Prog Ans ε (Ans o)).run exec plan s = ⟨.ok a, s', [⟨o, plan 0, s⟩]⟩ := by
  simp only [perform, run, h]

theorem run_perform_of_error {o : Op} {e : ε} (h : exec o (plan 0) s = (.error e, s')) :
    (perform o : Prog Ans ε (Ans o)).run exec plan s = ⟨.error e, s', [⟨o, plan 0, s⟩]⟩ := by
  simp only [perform, run, h]

theorem run_bind (p : Prog Ans ε β) (f : β → Prog Ans ε α) :
    (p >>= f).run exec plan s =
      let r := p.run exec plan s
      match r.reply with
      | .ok b =>
        let rest := (f b).run exec (fun n => plan (n + r.trace.length)) r.state
        ⟨rest.reply, rest.state, r.trace ++ rest.trace⟩
      | .error e => ⟨.error e, r.state, r.trace⟩ := by
  change (p.bind f).run exec plan s = _
  induction p generalizing plan s with
  | pure b => rfl
  | throw e => rfl
  | call o k ih =>
    simp only [bind, run, ih]
    cases ((k (exec o (plan 0) s).1).run exec (fun n => plan (n + 1)) (exec o (plan 0) s).2).reply
    · rfl
    · rfl

/-- A program goes on where the one before it returned. -/
theorem run_bind_of_ok {p : Prog Ans ε β} {f : β → Prog Ans ε α} {b : β}
    (h : p.run exec plan s = ⟨.ok b, s', tr⟩) :
    let rest := (f b).run exec (fun n => plan (n + tr.length)) s'
    (p >>= f).run exec plan s = ⟨rest.reply, rest.state, tr ++ rest.trace⟩ := by
  rw [run_bind, h]

theorem run_bind_of_error {p : Prog Ans ε β} {f : β → Prog Ans ε α} {e : ε}
    (h : p.run exec plan s = ⟨.error e, s', tr⟩) :
    (p >>= f).run exec plan s = ⟨.error e, s', tr⟩ := by
  rw [run_bind, h]

theorem run_tryCatch (p : Prog Ans ε α) (g : ε → Prog Ans ε α) :
    (p.tryCatch g).run exec plan s =
      let r := p.run exec plan s
      match r.reply with
      | .ok a => ⟨.ok a, r.state, r.trace⟩
      | .error e =>
        let rest := (g e).run exec (fun n => plan (n + r.trace.length)) r.state
        ⟨rest.reply, rest.state, r.trace ++ rest.trace⟩ := by
  induction p generalizing plan s with
  | pure a => rfl
  | throw e => rfl
  | call o k ih =>
    simp only [tryCatch, run, ih]
    cases ((k (exec o (plan 0) s).1).run exec (fun n => plan (n + 1)) (exec o (plan 0) s).2).reply
    · rfl
    · rfl

theorem run_tryCatch_of_ok {p : Prog Ans ε α} {g : ε → Prog Ans ε α} {a : α}
    (h : p.run exec plan s = ⟨.ok a, s', tr⟩) :
    (p.tryCatch g).run exec plan s = ⟨.ok a, s', tr⟩ := by
  rw [run_tryCatch, h]

/-- The handler runs on where the program raised. -/
theorem run_tryCatch_of_error {p : Prog Ans ε α} {g : ε → Prog Ans ε α} {e : ε}
    (h : p.run exec plan s = ⟨.error e, s', tr⟩) :
    let rest := (g e).run exec (fun n => plan (n + tr.length)) s'
    (p.tryCatch g).run exec plan s = ⟨rest.reply, rest.state, tr ++ rest.trace⟩ := by
  rw [run_tryCatch, h]

/-- Programs that go on alike where the one before them returned. -/
theorem run_bind_congr {p : Prog Ans ε β} {f g : β → Prog Ans ε α}
    (h : ∀ b s' tr, p.run exec plan s = ⟨.ok b, s', tr⟩ →
      (f b).run exec (fun n => plan (n + tr.length)) s' =
        (g b).run exec (fun n => plan (n + tr.length)) s') :
    (p >>= f).run exec plan s = (p >>= g).run exec plan s := by
  cases hp : p.run exec plan s with
  | mk reply s' tr =>
    cases reply with
    | ok b =>
      rw [run_bind_of_ok hp, run_bind_of_ok hp]
      simp only [h b s' tr hp]
    | error e => rw [run_bind_of_error hp, run_bind_of_error hp]

/-- The `finally` of a program runs where the program ended. -/
theorem run_tryFinally {p : Prog Ans ε α} {q : Prog Ans ε Unit} {r : Except ε α}
    (h : p.run exec plan s = ⟨r, s', tr⟩) :
    let rest := q.run exec (fun n => plan (n + tr.length)) s'
    (p.tryFinally q).run exec plan s =
      ⟨rest.reply.bind fun _ => r, rest.state, tr ++ rest.trace⟩ := by
  have hend (r : Except ε α) (s : σ) (plan : Nat → χ) (k : Prog Ans ε α)
      (hk : ∀ plan s, k.run exec plan s = ⟨r, s, []⟩) :
      (q >>= fun _ => k).run exec plan s = ⟨(q.run exec plan s).reply.bind fun _ => r,
        (q.run exec plan s).state, (q.run exec plan s).trace⟩ := by
    cases hq : q.run exec plan s with
    | mk reply s' tr =>
      cases reply with
      | ok u =>
        rw [run_bind_of_ok hq, hk]
        simp only [List.append_nil]
        rfl
      | error e =>
        rw [run_bind_of_error hq]
        rfl
  induction p generalizing plan s tr with
  | pure a =>
    cases h
    exact hend _ _ _ (.pure a) fun _ _ => rfl
  | throw e =>
    cases h
    exact hend _ _ _ (.throw e) fun _ _ => rfl
  | call o k ih =>
    simp only [run] at h
    cases hrest : (k (exec o (plan 0) s).1).run exec (fun n => plan (n + 1))
        (exec o (plan 0) s).2 with
    | mk reply state trace =>
      rw [hrest] at h
      cases h
      simp only [tryFinally, run]
      rw [ih _ hrest]
      rfl

theorem run_tryFinally_congr {p p' : Prog Ans ε α} {q : Prog Ans ε Unit}
    (h : p.run exec plan s = p'.run exec plan s) :
    (p.tryFinally q).run exec plan s = (p'.tryFinally q).run exec plan s := by
  rw [run_tryFinally (q := q) (r := (p.run exec plan s).reply) rfl,
    run_tryFinally (q := q) (r := (p.run exec plan s).reply) h.symm]

end Run

/-- Passing on the result through a function. -/
theorem run_map {exec : Exec Ans ε χ σ} {p : Prog Ans ε α} {plan : Nat → χ} {s : σ} (f : α → β) :
    (p >>= fun a => Pure.pure (f a)).run exec plan s =
      ⟨(p.run exec plan s).reply.map f, (p.run exec plan s).state, (p.run exec plan s).trace⟩ := by
  change (p.bind fun a => .pure (f a)).run exec plan s = _
  induction p generalizing plan s with
  | pure a => rfl
  | throw e => rfl
  | call o k ih => simp only [bind, run, ih]

/-- Turning every exception into a result. -/
theorem run_rescue {exec : Exec Ans ε χ σ} {p : Prog Ans ε α} {plan : Nat → χ} {s : σ}
    {h : ε → Prog Ans ε α} (g : ε → α) (hg : ∀ e, h e = .pure (g e)) :
    (p.tryCatch h).run exec plan s =
      ⟨.ok (match (p.run exec plan s).reply with
        | .ok a => a
        | .error e => g e), (p.run exec plan s).state, (p.run exec plan s).trace⟩ := by
  induction p generalizing plan s with
  | pure a => rfl
  | throw e =>
    simp only [tryCatch, hg]
    rfl
  | call o k ih => simp only [tryCatch, run, ih]

end Prog

namespace Event

/-- The state the call leaves. -/
def post (exec : Exec Ans ε χ σ) (ev : Event Op χ σ) : σ := (exec ev.op ev.choice ev.pre).2

/-- The caller saw an answer. -/
def ok (exec : Exec Ans ε χ σ) (ev : Event Op χ σ) : Bool := (exec ev.op ev.choice ev.pre).1.isOk

/-- The caller saw the exception `e`. -/
def Failed (exec : Exec Ans ε χ σ) (ev : Event Op χ σ) (e : ε) : Prop :=
  (exec ev.op ev.choice ev.pre).1 = .error e

end Event

/-- Programs under way on one state, and the calls they made so far, newest first. -/
structure Pool (ι : Type) {Op : Type} (Ans : Op → Type) (ε α χ σ : Type) where
  state : σ
  threads : ι → Prog Ans ε α
  log : List (ι × Event Op χ σ)

namespace Pool

variable {ι : Type} [DecidableEq ι] (exec : ι → Exec Ans ε χ σ)

/-- Thread `i` makes its next call. A thread that is done stays as it is. -/
def step (p : Pool ι Ans ε α χ σ) (i : ι) (c : χ) : Pool ι Ans ε α χ σ :=
  match p.threads i with
  | .call o k =>
    let r := exec i o c p.state
    ⟨r.2, Function.update p.threads i (k r.1), (i, ⟨o, c, p.state⟩) :: p.log⟩
  | _ => p

/-- Run a schedule: which thread makes the next call, and the environment's choice for it. -/
def run (p : Pool ι Ans ε α χ σ) : List (ι × χ) → Pool ι Ans ε α χ σ
  | [] => p
  | (i, c) :: rest => (p.step exec i c).run rest

theorem run_append (p : Pool ι Ans ε α χ σ) (l l' : List (ι × χ)) :
    p.run exec (l ++ l') = (p.run exec l).run exec l' := by
  induction l generalizing p with
  | nil => rfl
  | cons e l ih => exact ih _

/-- The programs `threads` before their first call. -/
def start (s : σ) (threads : ι → Prog Ans ε α) : Pool ι Ans ε α χ σ := ⟨s, threads, []⟩

end Pool

/-- Every call of the log was made when `guard` allowed it, given the calls before it. -/
def Obeys {ι : Type} (guard : List (ι × Event Op χ σ) → ι → Event Op χ σ → Prop) :
    List (ι × Event Op χ σ) → Prop
  | [] => True
  | (i, ev) :: log => guard log i ev ∧ Obeys guard log

instance Obeys.decidable {ι : Type} (guard : List (ι × Event Op χ σ) → ι → Event Op χ σ → Prop)
    [∀ log i ev, Decidable (guard log i ev)] : (log : List (ι × Event Op χ σ)) →
    Decidable (Obeys guard log)
  | [] => isTrue trivial
  | (i, ev) :: log =>
    have := Obeys.decidable guard log
    inferInstanceAs (Decidable (guard log i ev ∧ Obeys guard log))

/-- What threads have begun and not ended: `opens` says what a call begins, `closes` whether it ends
all its thread began. -/
def underway {ι τ : Type} [DecidableEq ι] (opens : ι → Event Op χ σ → Option τ)
    (closes : ι → Event Op χ σ → Bool) : List (ι × Event Op χ σ) → List (ι × τ)
  | [] => []
  | (i, ev) :: log =>
    match opens i ev with
    | some t => (i, t) :: underway opens closes log
    | none =>
      if closes i ev then (underway opens closes log).filter (·.1 ≠ i)
      else underway opens closes log

end Effect
