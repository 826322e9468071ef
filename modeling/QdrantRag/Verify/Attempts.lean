import Mathlib.Algebra.Order.Ring.Abs
import Mathlib.Data.Rat.Lemmas
import Mathlib.Tactic.Linarith
import Mathlib.Tactic.Ring
import QdrantRag.Verify.Retry
import QdrantRag.Verify.Sample
import QdrantRag.Verify.Writes

/-! # The law of retries

What `with_retry` makes of the outcomes of the function it wraps, whatever these are
(`RetryLaw`), and of the two wrapped functions of which one calls the other. -/

namespace QdrantRag
open Keyed Effect Effect.Prog

variable {α χ σ : Type}

/-- The outcome is a transient exception. -/
def TransientRaise (r : Except Exc α) : Prop := ∃ e, r = .error e ∧ isTransient e = true

/-! ## Attempts -/

section Attempts
variable (ex : Exec Ans Exc χ σ) (fn : Program α)

/-- The choices of the environment after an attempt and the sleep behind it. -/
def later (plan : Nat → χ) (s : σ) : Nat → χ :=
  fun n => plan (n + ((fn.run ex plan s).trace.length + 1))

/-- The `k`-th attempt, where all those before it are slept on. -/
def attempt : Nat → (Nat → χ) → σ → Outcome Op Exc α χ σ
  | 0, plan, s => fn.run ex plan s
  | k + 1, plan, s => attempt k (later ex fn plan s) (fn.run ex plan s).state

/-- The calls of the attempts up to the `k`-th, with one sleep between two of them. -/
def attemptsTrace : (sleeps : Nat → Rat) → Nat → (Nat → χ) → σ → List (Event Op χ σ)
  | _, 0, plan, s => (fn.run ex plan s).trace
  | sleeps, k + 1, plan, s =>
    let o := fn.run ex plan s
    o.trace ++ ⟨.sleep (sleeps 0), plan o.trace.length, o.state⟩ ::
      attemptsTrace (fun i => sleeps (i + 1)) k (later ex fn plan s) o.state

/-- The run `o` of a loop with `remaining` of its `attempts` to go makes the attempts up to the
`last`-th. It ends with what that one returns or raises, the first outcome that is not a transient
exception; or it raises `QdrantConnectionError`, as all outcomes are transient exceptions. -/
structure RetryLaw (attempts remaining : Nat) (sleeps : Nat → Rat) (plan : Nat → χ) (s : σ)
    (o : Outcome Op Exc α χ σ) (last : Nat) : Prop where
  last_lt : last < remaining
  transient : ∀ j < last, TransientRaise (attempt ex fn j plan s).reply
  trace_eq : o.trace = attemptsTrace ex fn sleeps last plan s
  state_eq : o.state = (attempt ex fn last plan s).state
  reply :
    (¬ TransientRaise (attempt ex fn last plan s).reply ∧
      o.reply = (attempt ex fn last plan s).reply) ∨
    (last + 1 = remaining ∧ ∃ e, (attempt ex fn last plan s).reply = .error e ∧
      isTransient e = true ∧ o.reply = .error (.qdrantConnection attempts (some e)))

/-- How long a loop with `remaining` of its `attempts` to go sleeps after its `i`-th attempt. -/
def sleepsOf (env : Env) (attempts remaining : Nat) (backoff delay : Rat) (i : Nat) : Rat :=
  delay * backoff ^ i * (1 + env.uniform (attempts - remaining + i))

variable {ex fn} {env : Env} {attempts : Nat} {backoff : Rat}

theorem sleepsOf_succ {remaining : Nat} (hle : remaining + 1 ≤ attempts) (delay : Rat) (i : Nat) :
    sleepsOf env attempts (remaining + 1) backoff delay (i + 1) =
      sleepsOf env attempts remaining backoff (delay * backoff) i := by
  have hdraw : attempts - (remaining + 1) + (i + 1) = attempts - remaining + i := by omega
  unfold sleepsOf
  rw [hdraw, pow_succ']
  ring

theorem sleepsOf_zero {remaining : Nat} (delay : Rat) :
    sleepsOf env attempts remaining backoff delay 0 =
      delay * (1 + env.uniform (attempts - remaining)) := by
  unfold sleepsOf
  rw [pow_zero, mul_one, Nat.add_zero]

/-- An outcome that is not a transient exception is that of the loop. -/
theorem run_retryLoop_ends {plan : Nat → χ} {s : σ}
    (h : ¬ TransientRaise (fn.run ex plan s).reply) (remaining : Nat) (delay : Rat)
    (exc : Option Exc) :
    (retryLoop env attempts backoff fn (remaining + 1) delay exc).run ex plan s =
      fn.run ex plan s := by
  rw [retryLoop]
  cases hrun : fn.run ex plan s with
  | mk reply t tr =>
    cases reply with
    | ok a => rw [run_tryCatch_of_ok hrun]
    | error e =>
      have ht : isTransient e = false := by
        rw [hrun] at h
        rw [← Bool.not_eq_true]
        exact fun ht => h ⟨e, rfl, ht⟩
      rw [run_tryCatch_of_error hrun, if_pos ht]
      simp only [run, List.append_nil]

/-- The last attempt is not slept on. -/
theorem run_retryLoop_last {plan : Nat → χ} {s : σ} {e : Exc}
    (h : (fn.run ex plan s).reply = .error e) (ht : isTransient e = true) (delay : Rat)
    (exc : Option Exc) :
    (retryLoop env attempts backoff fn 1 delay exc).run ex plan s =
      { fn.run ex plan s with reply := .error (.qdrantConnection attempts (some e)) } := by
  rw [retryLoop]
  cases hrun : fn.run ex plan s with
  | mk reply t tr =>
    rw [hrun] at h
    subst h
    rw [run_tryCatch_of_error hrun, if_neg (ne_false_of_eq_true ht), if_pos rfl]
    simp only [run, List.append_nil]

/-- After a transient exception the loop sleeps and goes on. -/
theorem run_retryLoop_again (hsleep : ∀ t c s, ex (.sleep t) c s = (.ok (), s)) {plan : Nat → χ}
    {s : σ} {e : Exc} (h : (fn.run ex plan s).reply = .error e) (ht : isTransient e = true)
    {remaining : Nat} (hremaining : remaining ≠ 0) (delay : Rat) (exc : Option Exc) :
    let o := fn.run ex plan s
    let rest := (retryLoop env attempts backoff fn remaining (delay * backoff) (some e)).run ex
      (later ex fn plan s) o.state
    (retryLoop env attempts backoff fn (remaining + 1) delay exc).run ex plan s =
      ⟨rest.reply, rest.state, o.trace ++ ⟨.sleep (delay * (1 + env.uniform
        (attempts - (remaining + 1)))), plan o.trace.length, o.state⟩ :: rest.trace⟩ := by
  intro o rest
  rw [retryLoop]
  cases hrun : fn.run ex plan s with
  | mk reply t tr =>
    have hlater : later ex fn plan s = fun n => plan (n + (tr.length + 1)) := by
      unfold later
      rw [hrun]
    let sleep := delay * (1 + env.uniform (attempts - (remaining + 1)))
    have hslept : (call (.sleep sleep)).run ex (fun n => plan (n + tr.length)) t =
        ⟨.ok (), t, [⟨.sleep sleep, plan (0 + tr.length), t⟩]⟩ := run_perform_of_ok (hsleep _ _ _)
    simp only [rest, o, hlater, hrun]
    rw [hrun] at h
    subst h
    rw [run_tryCatch_of_error hrun, if_neg (ne_false_of_eq_true ht), if_neg hremaining,
      run_bind_of_ok hslept]
    simp only [Nat.zero_add, List.length_singleton, List.singleton_append, Nat.add_assoc,
      Nat.add_comm 1]
    rfl

theorem retryLoop_law (hsleep : ∀ t c s, ex (.sleep t) c s = (.ok (), s)) {remaining : Nat}
    (hpos : 0 < remaining) (hle : remaining ≤ attempts) (delay : Rat) (exc : Option Exc)
    (plan : Nat → χ) (s : σ) :
    ∃ last, RetryLaw ex fn attempts remaining (sleepsOf env attempts remaining backoff delay) plan s
      ((retryLoop env attempts backoff fn remaining delay exc).run ex plan s) last := by
  induction remaining generalizing delay exc plan s with
  | zero => omega
  | succ remaining ih =>
    by_cases h : TransientRaise (fn.run ex plan s).reply
    · obtain ⟨e, he, ht⟩ := h
      by_cases hlast : remaining = 0
      · subst hlast
        rw [run_retryLoop_last he ht]
        exact ⟨0, hpos, nofun, rfl, rfl, .inr ⟨rfl, e, he, ht, rfl⟩⟩
      · rw [run_retryLoop_again hsleep he ht hlast]
        obtain ⟨last, hlaw⟩ := ih (by omega) (by omega) (delay * backoff) (some e)
          (later ex fn plan s) (fn.run ex plan s).state
        refine ⟨last + 1, Nat.succ_lt_succ hlaw.last_lt, fun j hj => ?_, ?_, hlaw.state_eq, ?_⟩
        · cases j with
          | zero => exact ⟨e, he, ht⟩
          | succ j => exact hlaw.transient j (Nat.lt_of_succ_lt_succ hj)
        · simp only [attemptsTrace]
          rw [hlaw.trace_eq, sleepsOf_zero]
          simp only [sleepsOf_succ hle]
        · rcases hlaw.reply with hreply | ⟨hall, hreply⟩
          · exact .inl hreply
          · exact .inr ⟨congrArg (· + 1) hall, hreply⟩
    · rw [run_retryLoop_ends h]
      exact ⟨0, hpos, nofun, rfl, rfl, .inl ⟨h, rfl⟩⟩

/-- The loop raises an exception of its own exactly where all attempts end with a transient one. -/
theorem RetryLaw.exhausted_iff {remaining : Nat} {sleeps : Nat → Rat} {plan : Nat → χ} {s : σ}
    {o : Outcome Op Exc α χ σ} {last : Nat}
    (h : RetryLaw ex fn attempts remaining sleeps plan s o last) :
    (∀ j < remaining, TransientRaise (attempt ex fn j plan s).reply) ↔
      ∃ e, (attempt ex fn last plan s).reply = .error e ∧
        o.reply = .error (.qdrantConnection attempts (some e)) := by
  constructor
  · intro hall
    rcases h.reply with ⟨hnot, -⟩ | ⟨-, e, he, -, hreply⟩
    · exact absurd (hall last h.last_lt) hnot
    · exact ⟨e, he, hreply⟩
  · rintro ⟨e, he, hreply⟩ j hj
    rcases h.reply with ⟨-, hsame⟩ | ⟨hlast, e', he', ht, -⟩
    · -- an exception is not the one that quotes it
      rw [he, hreply, Except.error.injEq] at hsame
      have hsize := congrArg sizeOf hsame
      simp at hsize
      omega
    · rcases Nat.lt_succ_iff_lt_or_eq.mp (hlast ▸ hj) with hlt | rfl
      · exact h.transient j hlt
      · exact ⟨e', he', ht⟩

theorem abs_sleepsOf_sub_le (huniform : ∀ n, |env.uniform n| ≤ 1 / 5) (remaining : Nat)
    (delay : Rat) (i : Nat) :
    |sleepsOf env attempts remaining backoff delay i - delay * backoff ^ i| ≤
      |delay * backoff ^ i| / 5 := by
  have hjitter : sleepsOf env attempts remaining backoff delay i - delay * backoff ^ i =
      delay * backoff ^ i * env.uniform (attempts - remaining + i) := by
    unfold sleepsOf
    ring
  rw [hjitter, abs_mul]
  have hmul := mul_le_mul_of_nonneg_left (huniform (attempts - remaining + i))
    (abs_nonneg (delay * backoff ^ i))
  linarith

end Attempts

/-! ## Collections are created at most three times -/

def Op.creates : Op → Bool
  | .createCollection .. => true
  | _ => false

/-- How many of the calls create a collection. -/
def creations (tr : List (Event Op χ σ)) : Nat := tr.countP fun ev => ev.op.creates

@[simp] theorem creations_append (tr tr' : List (Event Op χ σ)) :
    creations (tr ++ tr') = creations tr + creations tr' := List.countP_append

/-- A server on which the collection `name` stays once it is `there`, and which says so. -/
structure Lasting (ex : Exec Ans Exc χ σ) (name : String) (there : σ → Prop) : Prop where
  stays : ∀ o c s, there s → there (ex o c s).2
  seen : ∀ c s, there s → (ex (.collectionExists name) c s).1 ≠ .ok false
  created : ∀ params c s, (ex (.createCollection name params) c s).1 = .ok () →
    there (ex (.createCollection name params) c s).2
  conflict : ∀ params c s msg,
    (ex (.createCollection name params) c s).1 = .error (.unexpectedResponse 409 msg) →
      there (ex (.createCollection name params) c s).2

/-- The body that `get_or_create_collection` wraps. -/
def provisionAttempt (env : Env) (tenant_id bot_id : String) : Program String := do
  let name ← ofExcept (collectionName tenant_id bot_id)
  let exists_ : Bool ← call (.collectionExists name)
  if exists_ then checkedName name
  else (createCollectionForBot env tenant_id bot_id).tryCatch (onUnexpectedResponse name)

theorem getOrCreateCollection_eq (env : Env) (T B : String) :
    getOrCreateCollection env T B = withRetry env (provisionAttempt env T B) := rfl

section Creations
variable {ex : Exec Ans Exc χ σ} {env : Env} {T B name : String} {there : σ → Prop} {s : σ}

/-- Any choice of the environment. -/
def anyChoice (_ : χ) : Prop := True

theorem ends_checkedName (hstays : ∀ o c s, there s → there (ex o c s).2) :
    (checkedName name).Ends ex anyChoice s fun tr _ s' =>
      creations tr = 0 ∧ (there s → there s') := by
  unfold checkedName compareSchema
  apply ends_bind.mpr
  apply ends_bind.mpr
  apply ends_perform.mpr
  intro c _
  have hafter := hstays (.getCollection name) c s
  cases (ex (.getCollection name) c s).1 with
  | error e => exact ⟨rfl, hafter⟩
  | ok actual =>
    rw [next_ok, ends_ofExcept]
    cases schemaDiff actual with
    | error e => exact ⟨rfl, hafter⟩
    | ok diff =>
      rw [next_ok]
      split <;> exact ⟨rfl, hafter⟩

/-- An attempt of the inner wrapper creates once. Where it ends with a conflict the collection is
there. -/
theorem ends_createAttempt (hname : collectionName T B = .ok name) (hl : Lasting ex name there) :
    (do let name ← ofExcept (collectionName T B)
        call (.createCollection name expectedParams)
        each (fun ix => call (.createPayloadIndex name ix.1 ix.2)) payloadIndexes
        return name : Program String).Ends ex anyChoice s fun tr r s' =>
      creations tr ≤ 1 ∧ ∀ msg, r = .error (.unexpectedResponse 409 msg) → there s' := by
  apply (ends_ofExcept_bind hname).mpr
  apply ends_bind.mpr
  apply ends_perform.mpr
  intro c _
  cases hcreate : (ex (.createCollection name expectedParams) c s).1 with
  | error e =>
    refine ⟨le_rfl, fun msg hmsg => ?_⟩
    cases hmsg
    exact hl.conflict _ c s msg hcreate
  | ok u =>
    rw [next_ok]
    apply ends_bind.mpr
    apply ends_each fun tr s => creations tr = 0 ∧ there s
    · intro ix _ tr s hI
      apply ends_perform.mpr
      intro c _
      have hcount : creations (tr ++ [⟨.createPayloadIndex name ix.1 ix.2, c, s⟩]) = 0 := by
        rw [creations_append, hI.1]
        rfl
      have hafter := hl.stays (.createPayloadIndex name ix.1 ix.2) c s hI.2
      cases (ex (.createPayloadIndex name ix.1 ix.2) c s).1 with
      | error e =>
        refine ⟨?_, fun _ _ => hafter⟩
        rw [creations_append, hcount]
        exact le_rfl
      | ok u => exact ⟨hcount, hafter⟩
    · intro tr s hI
      rw [next_ok, ends_return, List.append_nil]
      refine ⟨?_, nofun⟩
      rw [creations_append, hI.1]
      exact le_rfl
    · exact ⟨rfl, hl.created _ c s hcreate⟩

/-- The inner wrapper creates at most three times, and raises nothing that is tried again. -/
theorem ends_createCollectionForBot (hname : collectionName T B = .ok name)
    (hsleep : ∀ t c s, ex (.sleep t) c s = (.ok (), s)) (hl : Lasting ex name there) :
    (createCollectionForBot env T B).Ends ex anyChoice s fun tr r s' =>
      creations tr ≤ 3 ∧ ∀ e, r = .error e → isTransient e = false ∧
        ∀ msg, e = .unexpectedResponse 409 msg → there s' := by
  apply ends_retryLoop (fun m tr _ => creations tr + m ≤ 3) hsleep _ (by omega) (le_refl 3)
  intro m tr s hI
  refine (ends_createAttempt hname hl).mono fun tr' r s' ⟨hcount, hconflict⟩ => ?_
  have hle : creations (tr ++ tr') + m ≤ 3 := by
    rw [creations_append]
    omega
  cases r with
  | ok a => exact ⟨by omega, nofun⟩
  | error e =>
    dsimp only
    split
    · next ht =>
      refine ⟨by omega, fun e' he => ?_⟩
      cases he
      exact ⟨ht, fun msg hmsg => hconflict msg (by rw [hmsg])⟩
    · split
      · refine ⟨by omega, fun e' he => ?_⟩
        cases he
        exact ⟨rfl, nofun⟩
      · intro t c
        rw [creations_append]
        exact hle

/-- An attempt of the outer wrapper creates nothing; or it does where the collection was not there,
and is tried again only where it is by then. -/
theorem ends_provisionAttempt (hname : collectionName T B = .ok name)
    (hsleep : ∀ t c s, ex (.sleep t) c s = (.ok (), s)) (hl : Lasting ex name there) :
    (provisionAttempt env T B).Ends ex anyChoice s fun tr r s' => (there s → there s') ∧
      (creations tr = 0 ∨ creations tr ≤ 3 ∧ ¬ there s ∧ (TransientRaise r → there s')) := by
  unfold provisionAttempt
  apply (ends_ofExcept_bind hname).mpr
  apply ends_bind.mpr
  apply ends_perform.mpr
  intro c _
  have hafter := hl.stays (.collectionExists name) c s
  cases hexists : (ex (.collectionExists name) c s).1 with
  | error e => exact ⟨hafter, .inl rfl⟩
  | ok exists_ =>
    rw [next_ok]
    cases exists_ with
    | true =>
      rw [if_pos rfl]
      refine (ends_checkedName hl.stays).mono fun tr r s' ⟨hcount, hthere⟩ => ?_
      exact ⟨hthere ∘ hafter, .inl (by rw [creations_append, hcount]; rfl)⟩
    | false =>
      have hnot : ¬ there s := fun h => hl.seen c s h hexists
      rw [if_neg nofun]
      apply ends_tryCatch.mpr
      refine (ends_createCollectionForBot hname hsleep hl).mono fun tr r s' ⟨hcount, hraise⟩ => ?_
      have hle {tr' : List (Event Op χ σ)} (h : creations tr' = 0) :
          creations ([⟨.collectionExists name, c, s⟩] ++ (tr ++ tr')) ≤ 3 := by
        rw [creations_append, creations_append, h]
        change 0 + creations tr ≤ 3
        omega
      have hstops {r : Except Exc String} {s' : σ} (hr : ¬ TransientRaise r) :
          (there s → there s') ∧ (creations ([⟨.collectionExists name, c, s⟩] ++ (tr ++ []))
            = 0 ∨ creations ([⟨.collectionExists name, c, s⟩] ++ (tr ++ [])) ≤ 3 ∧
              ¬ there s ∧ (TransientRaise r → there s')) :=
        ⟨fun h => absurd h hnot, .inr ⟨hle rfl, hnot, fun h => absurd h hr⟩⟩
      cases r with
      | ok a =>
        rw [handle_ok]
        have h := @hstops (.ok a) s' nofun
        rwa [List.append_nil] at h
      | error e =>
        obtain ⟨ht, hconflict⟩ := hraise e rfl
        rw [handle_error]
        unfold onUnexpectedResponse
        split
        · split
          · next hstatus =>
            subst hstatus
            refine (ends_checkedName hl.stays).mono fun tr' r s'' ⟨hcount, hthere⟩ => ?_
            exact ⟨fun h => absurd h hnot, .inr ⟨hle hcount, hnot, fun _ =>
              hthere (hconflict _ rfl)⟩⟩
          · exact hstops fun ⟨e, he, ht⟩ => by cases he; cases ht
        · refine hstops fun ⟨e', he, ht'⟩ => ?_
          cases he
          rw [ht] at ht'
          cases ht'

/-- Collections are created at most three times, both wrappers taken together. -/
theorem ends_getOrCreateCollection (hname : collectionName T B = .ok name)
    (hsleep : ∀ t c s, ex (.sleep t) c s = (.ok (), s)) (hl : Lasting ex name there) :
    (getOrCreateCollection env T B).Ends ex anyChoice s fun tr _ _ => creations tr ≤ 3 := by
  rw [getOrCreateCollection_eq]
  apply ends_retryLoop (fun _ tr s => creations tr = 0 ∨ creations tr ≤ 3 ∧ there s) hsleep _
    (by omega) (.inl rfl)
  intro m tr s hI
  refine (ends_provisionAttempt hname hsleep hl).mono fun tr' r s' ⟨hstays, hattempt⟩ => ?_
  have hle : creations (tr ++ tr') ≤ 3 := by
    rw [creations_append]
    rcases hI with h | ⟨h, hthere⟩ <;> rcases hattempt with h' | ⟨h', hnot, -⟩
    · omega
    · omega
    · omega
    · exact absurd hthere hnot
  cases r with
  | ok a => exact hle
  | error e =>
    dsimp only
    split
    · exact hle
    · next ht =>
      split
      · exact hle
      · intro t c
        rw [creations_append]
        change creations (tr ++ tr') = 0 ∨ creations (tr ++ tr') ≤ 3 ∧ there s'
        rcases hI with h | ⟨h, hthere⟩
        · rcases hattempt with h' | ⟨-, -, hthere'⟩
          · left
            rw [creations_append, h, h']
          · exact .inr ⟨hle, hthere' ⟨e, rfl, by simpa using ht⟩⟩
        · exact .inr ⟨hle, hstays hthere⟩

/-- Where the inner wrapper raises that its attempts are used up, the outer one raises it too, in
whatever attempt it is. -/
theorem exhausted_not_retried (hname : collectionName T B = .ok name) {plan : Nat → χ} {n : Nat}
    {last : Option Exc} (hexists : (ex (.collectionExists name) (plan 0) s).1 = .ok false)
    (remaining : Nat) (delay : Rat) (exc : Option Exc) :
    let inner := (createCollectionForBot env T B).run ex (fun n => plan (n + 1))
      (ex (.collectionExists name) (plan 0) s).2
    inner.reply = .error (.qdrantConnection n last) →
      (retryLoop env 3 2 (provisionAttempt env T B) (remaining + 1) delay exc).run ex plan s =
        { inner with trace := ⟨.collectionExists name, plan 0, s⟩ :: inner.trace } := by
  intro inner hinner
  have hprog : provisionAttempt env T B = (call (.collectionExists name) >>= fun exists_ : Bool =>
      if exists_ then checkedName name
      else (createCollectionForBot env T B).tryCatch (onUnexpectedResponse name)) := by
    unfold provisionAttempt
    rw [hname]
    rfl
  have hlook : (call (.collectionExists name)).run ex plan s =
      ⟨.ok false, (ex (.collectionExists name) (plan 0) s).2,
        [⟨.collectionExists name, plan 0, s⟩]⟩ := run_perform_of_ok (Prod.ext hexists rfl)
  have hrun : (provisionAttempt env T B).run ex plan s =
      { inner with trace := ⟨.collectionExists name, plan 0, s⟩ :: inner.trace } := by
    have hcatch : ((createCollectionForBot env T B).tryCatch (onUnexpectedResponse name)).run ex
        (fun n => plan (n + 1)) (ex (.collectionExists name) (plan 0) s).2 = inner := by
      cases hi : inner with
      | mk reply s' tr =>
        rw [hi] at hinner
        subst hinner
        rw [run_tryCatch_of_error hi]
        simp only [onUnexpectedResponse, run, List.append_nil]
    rw [hprog, run_bind_of_ok hlook]
    simp only [Bool.false_eq_true, if_false, List.length_singleton, hcatch]
    rfl
  rw [run_retryLoop_ends, hrun]
  rw [hrun]
  rintro ⟨e, he, ht⟩
  rw [hinner] at he
  cases he
  cases ht

end Creations

/-- A conflict is reported only for a collection that is there. -/
def Fault.truthful : Op → Fault → Fault
  | .createCollection .., .before (.unexpectedResponse 409 _) => .none
  | _, c => c

/-- The server of the model is one on which collections last. -/
theorem lasting_exec (env : Env) (i : Nat) (name : String) :
    Lasting (Exec.limit Fault.truthful (exec env i)) name (World.HasCollection · name) where
  stays o c s h := exec_grows.collections name h
  seen c s h hfalse := by
    have hanswer : (exec env i (.collectionExists name) c s).1 = .ok false := by
      cases c <;> exact hfalse
    exact absurd ((serve_collectionExists (serve_of_answer rfl hanswer)).mpr h) nofun
  created params c s h := serve_createCollection (serve_of_answer rfl h)
  conflict params c s msg h := by
    by_cases hthere : s.HasCollection name
    · exact exec_grows.collections name hthere
    · -- the call is served, or fails with something else
      have hnone : s.collections.find? name = none := by simpa [World.HasCollection] using hthere
      have hserve : serve env i (.createCollection name params) s =
          .ok ((), { s with collections := s.collections.put ⟨name, params, [], .empty⟩ }) := by
        simp only [serve, hnone]
      unfold Exec.limit at h ⊢
      cases c with
      | none =>
        have hexec : exec env i (.createCollection name params) .none s = _ := exec_none hserve
        change (exec env i (.createCollection name params) .none s).1 = _ at h
        rw [hexec] at h
        cases h
      | before e =>
        unfold Fault.truthful at h
        split at h
        · have hexec : exec env i (.createCollection name params) .none s = _ := exec_none hserve
          rw [hexec] at h
          cases h
        · next hno =>
          cases h
          exact absurd rfl (hno _ _ msg rfl)
      | after e =>
        have hstate : (exec env i (.createCollection name params) (.after e) s).2 =
            { s with collections := s.collections.put ⟨name, params, [], .empty⟩ } := by
          unfold exec
          rw [hserve]
          rfl
        change World.HasCollection (exec env i (.createCollection name params) (.after e) s).2 name
        rw [hstate]
        exact World.hasCollection_iff.mpr ⟨_, Table.find?_put_self⟩

/-! ## The theorem -/

/-- **The law of retries**, whatever the outcomes of the wrapped function; and of the two wrapped
functions around the creation of a collection, the outer one does not try again what the inner one
gave up, and both make three calls to create it at most. -/
theorem retry_law (env : Env) (huniform : ∀ n, |env.uniform n| ≤ 1 / 5)
    (ex : Exec Ans Exc χ σ) (hsleep : ∀ t c s, ex (.sleep t) c s = (.ok (), s)) :
    (∀ (α : Type) (fn : Program α) (attempts : Nat) (initial_delay backoff : Rat) (plan : Nat → χ)
      (s : σ), 1 ≤ attempts → ∃ sleeps last,
        let o := (retryLoop env attempts backoff fn attempts initial_delay none).run ex plan s
        RetryLaw ex fn attempts attempts sleeps plan s o last ∧
          ((∀ j < attempts, TransientRaise (attempt ex fn j plan s).reply) ↔
            ∃ e, (attempt ex fn last plan s).reply = .error e ∧
              o.reply = .error (.qdrantConnection attempts (some e))) ∧
          ∀ i, |sleeps i - initial_delay * backoff ^ i| ≤ |initial_delay * backoff ^ i| / 5) ∧
    ∀ T B name : String, collectionName T B = .ok name →
      (∀ (plan : Nat → χ) (s : σ) (remaining : Nat) (delay : Rat) (exc : Option Exc) (n : Nat)
        (last : Option Exc), (ex (.collectionExists name) (plan 0) s).1 = .ok false →
          let inner := (createCollectionForBot env T B).run ex (fun n => plan (n + 1))
            (ex (.collectionExists name) (plan 0) s).2
          inner.reply = .error (.qdrantConnection n last) →
            (retryLoop env 3 2 (provisionAttempt env T B) (remaining + 1) delay exc).run ex plan s =
              { inner with trace := ⟨.collectionExists name, plan 0, s⟩ :: inner.trace }) ∧
      ∀ there : σ → Prop, Lasting ex name there → ∀ (plan : Nat → χ) (s : σ),
        creations ((getOrCreateCollection env T B).run ex plan s).trace ≤ 3 := by
  refine ⟨fun α fn attempts initial_delay backoff plan s hpos => ?_, fun T B name hname => ⟨?_, ?_⟩⟩
  · obtain ⟨last, hlaw⟩ := retryLoop_law hsleep hpos (le_refl attempts) initial_delay none plan s
    exact ⟨_, last, hlaw, hlaw.exhausted_iff, abs_sleepsOf_sub_le huniform attempts initial_delay⟩
  · intro plan s remaining delay exc n last hexists
    exact exhausted_not_retried hname hexists remaining delay exc
  · intro there hl plan s
    exact (ends_getOrCreateCollection hname hsleep hl).run fun _ => trivial

/-- Qdrant answers the first call and is out of reach for the others. -/
def Sample.unreachable : Nat → Fault := fun n =>
  if n = 0 then .none else .before (.rpcError (some .unavailable) "unavailable")

theorem retry_law_acme :
    (∃ sleeps last, RetryLaw (Exec.limit Fault.truthful (exec Sample.env 0))
      (call (.collectionExists Sample.support)) 3 3 sleeps Sample.unreachable World.empty
      ((retryLoop Sample.env 3 2 (call (.collectionExists Sample.support)) 3 (1 / 2) none).run
        (Exec.limit Fault.truthful (exec Sample.env 0)) Sample.unreachable World.empty) last) ∧
    (∃ last, ((retryLoop Sample.env 3 2 (provisionAttempt Sample.env "acme" "support") 3 (1 / 2)
      none).run (Exec.limit Fault.truthful (exec Sample.env 0)) Sample.unreachable
        World.empty).reply = .error (.qdrantConnection 3 last)) ∧
    creations ((getOrCreateCollection Sample.env "acme" "support").run
      (Exec.limit Fault.truthful (exec Sample.env 0)) Sample.unreachable
        World.empty).trace ≤ 3 := by
  have hname : collectionName "acme" "support" = .ok Sample.support :=
    collectionName_eq_ok.mpr ⟨by decide, by decide, rfl⟩
  have hlaw := retry_law Sample.env (fun _ => by rw [Sample.env, abs_zero]; norm_num)
    (Exec.limit Fault.truthful (exec Sample.env 0)) fun _ _ _ => rfl
  obtain ⟨hexhausted, hcount⟩ := hlaw.2 "acme" "support" _ hname
  refine ⟨?_, ?_, hcount _ (lasting_exec _ _ _) _ _⟩
  · obtain ⟨sleeps, last, h, -⟩ := hlaw.1 _ (call (.collectionExists Sample.support)) 3 (1 / 2) 2
      Sample.unreachable World.empty (by omega)
    exact ⟨sleeps, last, h⟩
  · have h := hexhausted Sample.unreachable World.empty 2 (1 / 2) none 3 _ rfl rfl
    exact ⟨_, congrArg Outcome.reply h⟩

end QdrantRag
