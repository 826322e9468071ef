import Mathlib.Algebra.Order.Monoid.Prod
import Mathlib.Tactic.Linarith
import QdrantRag.Effect.Cost
import QdrantRag.Verify.Serial
import QdrantRag.Verify.Snapshots

/-! # How long a request can take

Every loop of a request is bounded: the polls of its lock by the deadline, the attempts of
`with_retry` by three, the indexes of a collection by their number. So a request makes a bounded
number of calls and sleeps a bounded time, whatever fails and whatever other requests do
(`requests_end`). -/

namespace QdrantRag
open Effect Effect.Prog Effect.Pool

variable {env : Env} {α : Type} {fn : Program α} {n : Nat} {q : Rat}

/-- The draws of `random.uniform(-0.2, 0.2)`. -/
def Env.Jitters (env : Env) : Prop := ∀ n, -(1 / 5) ≤ env.uniform n ∧ env.uniform n ≤ 1 / 5

/-- How long the call sleeps. -/
def Op.seconds : Op → Rat
  | .sleep t => t
  | _ => 0

/-- A call, and how long it sleeps. -/
def Op.effort (o : Op) : Nat × Rat := (1, o.seconds)

/-- The program makes at most `n` calls, and sleeps at most `q` seconds. -/
abbrev Takes (p : Program α) (n : Nat) (q : Rat) : Prop := p.Within Op.effort (n, q)

/-! ## Parts of programs -/

theorem effort_nonneg (n : Nat) (hq : 0 ≤ q) : (0 : Nat × Rat) ≤ (n, q) := ⟨n.zero_le, hq⟩

theorem Takes.mono {p : Program α} {m : Nat} {r : Rat} (h : Takes p n q) (hn : n ≤ m)
    (hq : q ≤ r) : Takes p m r := Within.mono h ⟨hn, hq⟩

theorem takes_ofExcept (x : Except Exc α) : Takes (ofExcept x) 0 0 := within_ofExcept le_rfl

/-- A call that does not sleep. -/
theorem takes_call {o : Op} (h : o.seconds = 0) : Takes (call o) 1 0 := by
  refine Within.mono within_perform ?_
  rw [Op.effort, h]

section Rules
variable {β : Type} {p : Program α} {m : Nat} {r : Rat}

theorem Takes.bind {f : α → Program β} (hp : Takes p n q) (hf : ∀ a, Takes (f a) m r)
    (hr : 0 ≤ r) : Takes (p >>= f) (n + m) (q + r) :=
  Within.bind hp hf (effort_nonneg m hr)

theorem Takes.tryCatch {h : Exc → Program α} (hp : Takes p n q) (hh : ∀ e, Takes (h e) m r)
    (hr : 0 ≤ r) : Takes (p.tryCatch h) (n + m) (q + r) :=
  Within.tryCatch hp hh (effort_nonneg m hr)

/-- What raises another exception makes no call. -/
theorem Takes.rethrow {h : Exc → Program α} (hp : Takes p n q) (hh : ∀ e, Takes (h e) 0 0) :
    Takes (p.tryCatch h) n q := by
  refine (hp.tryCatch hh le_rfl).mono (Nat.add_zero n).le ?_
  rw [add_zero]

end Rules

theorem takes_onQdrantError {msg : String} {details : List (String × PyValue)} (e : Exc) :
    Takes (onQdrantError msg details e : Program α) 0 0 :=
  Within.ite (within_throw le_rfl) (within_throw le_rfl)

/-! ## Retries -/

/-- An attempt, and where it fails for the moment a pause and what is left of the loop. -/
theorem takes_retryLoop {attempts remaining m : Nat} {backoff delay t r : Rat} {last : Option Exc}
    (hfn : Takes fn n q)
    (hsleep : delay * (1 + env.uniform (attempts - (remaining + 1))) ≤ t) (ht : 0 ≤ t) (hr : 0 ≤ r)
    (hrest : remaining ≠ 0 → ∀ exc,
      Takes (retryLoop env attempts backoff fn remaining (delay * backoff) (some exc)) m r) :
    Takes (retryLoop env attempts backoff fn (remaining + 1) delay last) (n + (1 + m))
      (q + (t + r)) := by
  rw [retryLoop]
  refine hfn.tryCatch (fun exc => ?_) (add_nonneg ht hr)
  have hthrow (e : Exc) : Takes (.throw e : Program α) (1 + m) (t + r) :=
    within_throw (effort_nonneg _ (add_nonneg ht hr))
  split
  · exact hthrow _
  · split
    · exact hthrow _
    · next hremaining =>
      refine Takes.bind ?_ (fun _ => hrest hremaining exc) hr
      exact Within.mono within_perform ⟨le_rfl, hsleep⟩

/-- Three attempts, with pauses of at most 0.6 s and 1.2 s between them. -/
theorem takes_withRetry (henv : env.Jitters) (hfn : Takes fn n q) (hq : 0 ≤ q) :
    Takes (withRetry env fn) (3 * n + 2) (3 * q + 9 / 5) := by
  have hsleep (k : Nat) {delay : Rat} (hdelay : 0 ≤ delay) :
      delay * (1 + env.uniform k) ≤ delay * (6 / 5) := by
    apply mul_le_mul_of_nonneg_left _ hdelay
    linarith [(henv k).2]
  have hlast (delay : Rat) (last : Option Exc) (hdelay : 0 ≤ delay) :
      Takes (retryLoop env 3 2 fn 1 delay last) n q := by
    rw [retryLoop]
    refine hfn.rethrow fun exc => ?_
    split
    · exact within_throw le_rfl
    · rw [if_pos rfl]
      exact within_throw le_rfl
  have hmiddle (last : Option Exc) :
      Takes (retryLoop env 3 2 fn 2 (1 / 2 * 2) last) (n + (1 + n)) (q + (6 / 5 + q)) := by
    refine takes_retryLoop hfn ((hsleep _ (by norm_num)).trans (by norm_num)) (by norm_num) hq ?_
    exact fun _ exc => hlast _ _ (by norm_num)
  have hfirst : Takes (retryLoop env 3 2 fn 3 (1 / 2) none) (n + (1 + (n + (1 + n))))
      (q + (3 / 5 + (q + (6 / 5 + q)))) := by
    refine takes_retryLoop hfn ((hsleep _ (by norm_num)).trans (by norm_num)) (by norm_num)
      (by linarith) ?_
    exact fun _ exc => hmiddle _
  exact hfirst.mono (by omega) (by linarith)

/-! ## The collection -/

theorem takes_checkedName {name : String} : Takes (checkedName name) 1 0 := by
  have hcompare : Takes (compareSchema name) 1 0 :=
    ((takes_call rfl).bind (fun _ => takes_ofExcept _) le_rfl).mono le_rfl (by norm_num)
  refine (hcompare.bind (m := 0) (r := 0) (fun diff => ?_) le_rfl).mono le_rfl (by norm_num)
  exact Within.ite (within_return le_rfl) (within_throw le_rfl)

/-- An attempt creates the collection and its eight indexes. -/
theorem takes_createCollectionForBot (henv : env.Jitters) {T B : String} :
    Takes (createCollectionForBot env T B) 29 (9 / 5) := by
  have hindex (name : String) :
      Takes (each (fun ix => call (.createPayloadIndex name ix.1 ix.2)) payloadIndexes) 8 0 := by
    refine (Within.each (b := ((1, 0) : Nat × Rat)) (fun ix => takes_call rfl)
      (effort_nonneg 1 le_rfl)).mono ?_
    constructor <;> simp [payloadIndexes]
  refine (takes_withRetry henv (n := 9) (q := 0) ?_ le_rfl).mono (by omega) (by norm_num)
  refine ((takes_ofExcept _).bind (m := 9) (r := 0) (fun name => ?_) le_rfl).mono (by omega)
    (by norm_num)
  refine ((takes_call rfl).bind (m := 8) (r := 0) (fun _ => ?_) le_rfl).mono (by omega)
    (by norm_num)
  refine ((hindex name).bind (m := 0) (r := 0) (fun _ => ?_) le_rfl).mono le_rfl (by norm_num)
  exact within_return le_rfl

theorem takes_getOrCreateCollection (henv : env.Jitters) {T B : String} :
    Takes (getOrCreateCollection env T B) 95 (36 / 5) := by
  have hconflict (name : String) (e : Exc) : Takes (onUnexpectedResponse name e) 1 0 := by
    unfold onUnexpectedResponse
    split
    · exact Within.ite takes_checkedName (within_throw (effort_nonneg 1 le_rfl))
    · exact within_throw (effort_nonneg 1 le_rfl)
  refine (takes_withRetry henv (n := 31) (q := 9 / 5) ?_ (by norm_num)).mono (by omega)
    (by norm_num)
  refine ((takes_ofExcept _).bind (m := 31) (r := 9 / 5) (fun name => ?_) (by norm_num)).mono
    (by omega) (by norm_num)
  refine ((takes_call rfl).bind (m := 30) (r := 9 / 5) (fun exists_ => ?_) (by norm_num)).mono
    (by omega) (by norm_num)
  apply Within.ite
  · exact takes_checkedName.mono (by omega) (by norm_num)
  · exact ((takes_createCollectionForBot henv).tryCatch (hconflict name) le_rfl).mono (by omega)
      (by norm_num)

theorem takes_deleteByDocId (henv : env.Jitters) {T B d : String} :
    Takes (deleteByDocId env T B d) 11 (9 / 5) := by
  refine (takes_withRetry henv (n := 3) (q := 0) ?_ le_rfl).mono (by omega) (by norm_num)
  refine ((takes_ofExcept _).bind (m := 3) (r := 0) (fun name => ?_) le_rfl).mono (by omega)
    (by norm_num)
  refine ((takes_call rfl).bind (m := 2) (r := 0) (fun exists_ => ?_) le_rfl).mono (by omega)
    (by norm_num)
  apply Within.ite
  · refine ((takes_call rfl).bind (m := 1) (r := 0) (fun count => ?_) le_rfl).mono (by omega)
      (by norm_num)
    refine ((takes_call rfl).bind (m := 0) (r := 0) (fun _ => ?_) le_rfl).mono (by omega)
      (by norm_num)
    exact within_return le_rfl
  · exact within_return (effort_nonneg 2 le_rfl)

/-! ## The pipelines -/

theorem takes_embedPassages {texts : List String} : Takes (embedPassages texts) 1 0 :=
  ((takes_ofExcept _).bind (fun _ => takes_call rfl) le_rfl).mono (by omega) (by norm_num)

theorem takes_refresh {x : Upload} {row : Document} : Takes (refresh x row) 1 0 := by
  refine ((takes_call rfl).bind (m := 0) (r := 0) (fun _ => ?_) le_rfl).mono le_rfl (by norm_num)
  refine ((takes_ofExcept _).bind (m := 0) (r := 0) (fun name => ?_) le_rfl).mono le_rfl
    (by norm_num)
  exact within_return le_rfl

theorem takes_writeDocument (henv : env.Jitters) {x : Upload} {bot : Bot} {is_replace : Bool}
    {name : String} {points : List Point} :
    Takes (writeDocument env x bot is_replace name points) 13 (9 / 5) := by
  have hwrite (is_replace : Bool) : Takes (do
      (call (.upsert name points)).tryCatch fun exc =>
        .throw (.upload .qdrantWrite "upsert failed: " (some exc)
          [("doc_id", .str x.doc_id), ("chunks", .int points.length)] none)
      call (.documentUpdateOrCreate x.doc_id (uploadDefaults env x bot points.length) x.now)
      return ⟨x.doc_id, points.length, x.body.items.length, name,
        if is_replace then .replaced else .created⟩ : Program UploadResult) 2 0 := by
    refine (((takes_call rfl).rethrow fun _ => within_throw le_rfl).bind (m := 1) (r := 0)
      (fun _ => ?_) le_rfl).mono (by omega) (by norm_num)
    refine ((takes_call rfl).bind (m := 0) (r := 0) (fun _ => ?_) le_rfl).mono (by omega)
      (by norm_num)
    exact within_return le_rfl
  cases is_replace with
  | false => exact (hwrite false).mono (by omega) (by norm_num)
  | true =>
    exact (((takes_deleteByDocId henv).rethrow takes_onQdrantError).bind
      (fun _ => hwrite true) le_rfl).mono (by omega) (by norm_num)

theorem takes_indexDocument (henv : env.Jitters) {x : Upload} {bot : Bot} {is_replace : Bool} :
    Takes (indexDocument env x bot is_replace) 110 9 := by
  refine (((takes_getOrCreateCollection henv).rethrow takes_onQdrantError).bind (m := 15)
    (r := 9 / 5) (fun name => ?_) (by norm_num)).mono (by omega) (by norm_num)
  refine ((takes_call rfl).bind (m := 14) (r := 9 / 5) (fun _ => ?_) (by norm_num)).mono
    (by omega) (by norm_num)
  have hthrow (e : Exc) : Takes (.throw e : Program UploadResult) 14 (9 / 5) :=
    within_throw (effort_nonneg 14 (by norm_num))
  refine Within.ite (hthrow _) (Within.ite (hthrow _) ?_)
  refine ((takes_embedPassages.rethrow fun _ => within_throw le_rfl).bind (m := 13) (r := 9 / 5)
    (fun embeddings => ?_) (by norm_num)).mono (by omega) (by norm_num)
  exact takes_writeDocument henv

/-- A row is created, or found where another request has created it. -/
theorem takes_onIntegrityError {fallback : Program α} (h : Takes fallback 1 0) (e : Exc) :
    Takes (onIntegrityError fallback e) 1 0 := by
  unfold onIntegrityError
  split
  · exact h
  · exact within_throw (effort_nonneg 1 le_rfl)

theorem takes_getOrCreateTenant {T : String} : Takes (getOrCreateTenant T) 2 0 :=
  ((takes_call (o := .tenantGetOrCreate T T) rfl).tryCatch
    (takes_onIntegrityError (takes_call (o := .tenantGet T) rfl)) le_rfl).mono le_rfl (by norm_num)

theorem takes_getOrCreateBot {tenant : Tenant} {B : String} : Takes (getOrCreateBot tenant B) 2 0 :=
  ((takes_call (o := .botGetOrCreate tenant.tenant_id B B) rfl).tryCatch
    (takes_onIntegrityError (takes_call (o := .botGet tenant.tenant_id B) rfl)) le_rfl).mono le_rfl
    (by norm_num)

theorem takes_uploadLocked (henv : env.Jitters) (x : Upload) :
    Takes (UploadPipeline.locked env x) 116 9 := by
  have hcheck (existing : Option Document) : Takes (checkOwner x existing) 0 0 := by
    unfold checkOwner
    split
    · exact within_return le_rfl
    · exact Within.ite (within_throw le_rfl) (within_return le_rfl)
  refine (takes_getOrCreateTenant.bind (m := 114) (r := 9) (fun tenant => ?_) (by norm_num)).mono
    (by omega) (by norm_num)
  refine (takes_getOrCreateBot.bind (m := 112) (r := 9) (fun bot => ?_) (by norm_num)).mono
    (by omega) (by norm_num)
  refine ((takes_call rfl).bind (m := 111) (r := 9) (fun existing => ?_) (by norm_num)).mono
    (by omega) (by norm_num)
  refine ((hcheck existing).bind (m := 111) (r := 9) (fun _ => ?_) (by norm_num)).mono (by omega)
    (by norm_num)
  dsimp only
  split
  · exact takes_refresh.mono (by omega) (by norm_num)
  · refine ((takes_call rfl).bind (m := 110) (r := 9) (fun content_match => ?_)
      (by norm_num)).mono (by omega) (by norm_num)
    split
    · exact takes_refresh.mono (by omega) (by norm_num)
    · exact takes_indexDocument henv

theorem takes_deleteLocked (henv : env.Jitters) (x : Delete) :
    Takes (DeletePipeline.locked env x) 13 (9 / 5) := by
  refine ((takes_call rfl).bind (m := 12) (r := 9 / 5) (fun found => ?_) (by norm_num)).mono
    (by omega) (by norm_num)
  refine ((takes_ofExcept _).bind (m := 12) (r := 9 / 5) (fun existing => ?_)
    (by norm_num)).mono (by omega) (by norm_num)
  refine (((takes_deleteByDocId henv).rethrow takes_onQdrantError).bind (m := 1) (r := 0)
    (fun _ => ?_) le_rfl).mono (by omega) (by norm_num)
  refine ((takes_call rfl).bind (m := 0) (r := 0) (fun _ => ?_) le_rfl).mono (by omega)
    (by norm_num)
  exact within_return le_rfl

/-- A poll of the lock for each reading of the clock, with 0.05 s between them. -/
theorem takes_acquireLock {key : LockKey} {timeout : Exc} (polls : Nat) :
    Takes (acquireLock key timeout polls) (2 * polls + 1) (polls / 20) := by
  induction polls with
  | zero =>
    refine ((takes_call rfl).bind (m := 0) (r := 0) (fun got => ?_) le_rfl).mono (by omega)
      (by norm_num)
    exact Within.ite (within_return le_rfl) (within_throw le_rfl)
  | succ polls ih =>
    have hpause : Takes (call (.sleep (1 / 20))) 1 (1 / 20) := within_perform
    have hpolls : (0 : Rat) ≤ polls / 20 := div_nonneg polls.cast_nonneg (by norm_num)
    refine ((takes_call rfl).bind (m := 1 + (2 * polls + 1)) (r := 1 / 20 + polls / 20)
      (fun got => ?_) (by linarith)).mono (by omega) (by push_cast; linarith)
    apply Within.ite
    · exact within_return (effort_nonneg _ (by linarith))
    · exact hpause.bind (fun _ => ih) hpolls

theorem takes_uploadLock {T B d : String} {polls : Nat} {body : Program α}
    (hbody : Takes body n q) (hq : 0 ≤ q) :
    Takes (uploadLock env T B d polls body) (2 * polls + n + 2) (polls / 20 + q) := by
  have hunlock (key : LockKey) : Takes (body.tryFinally (call (.advisoryUnlock key))) (n + 1)
      (q + 0) := Within.tryFinally hbody (takes_call rfl) (effort_nonneg 1 le_rfl)
  have hpolls : (0 : Rat) ≤ polls / 20 := div_nonneg polls.cast_nonneg (by norm_num)
  refine ((takes_ofExcept _).bind (m := 2 * polls + 1 + (n + 1)) (r := polls / 20 + (q + 0))
    (fun key => ?_) (by linarith)).mono (by omega) (by linarith)
  exact (takes_acquireLock polls).bind (fun _ => hunlock key) (by linarith)

/-! ## Requests -/

/-- How many calls a request makes under its lock. -/
def Write.underLock : Write → Nat
  | .upload _ => 116
  | .delete _ => 13

/-- How long it sleeps there. -/
def Write.pauses : Write → Rat
  | .upload _ => 9
  | .delete _ => 9 / 5

theorem Write.pauses_nonneg (w : Write) : 0 ≤ w.pauses := by
  cases w <;> norm_num [Write.pauses]

/-- Passing on a result takes nothing. -/
theorem Takes.reply {p : Program α} {f : α → Reply} (h : Takes p n q) :
    Takes (p >>= fun a => Pure.pure (f a)) n q :=
  (h.bind (m := 0) (r := 0) (fun _ => within_return le_rfl) le_rfl).mono le_rfl (add_zero q).le

theorem takes_write (henv : env.Jitters) (w : Write) :
    Takes (w.program env) (2 * w.polls + w.underLock + 2) (w.polls / 20 + w.pauses) := by
  cases w with
  | upload x => exact (takes_uploadLock (takes_uploadLocked henv x) (by norm_num)).reply
  | delete x => exact (takes_uploadLock (takes_deleteLocked henv x) (by norm_num)).reply

theorem takes_search (henv : env.Jitters) (x : Search) :
    Takes ((Request.search x).program env) 7 (9 / 5) := by
  have hfirst (out : List Embedding) : Takes (firstEmbedding out) 0 0 := by
    cases out with
    | nil => exact within_throw le_rfl
    | cons => exact within_return le_rfl
  have hembed : Takes (embedQuery x.query) 1 0 :=
    Within.ite (within_throw (effort_nonneg 1 le_rfl))
      ((takes_embedPassages.bind hfirst le_rfl).mono le_rfl (by norm_num))
  have hquery (name : String) (e : Embedding) :
      Takes (executeQuery env name (searchRequest x e)) 5 (9 / 5) := by
    refine (takes_withRetry henv (n := 1) (q := 0) ?_ le_rfl).mono (by omega) (by norm_num)
    refine ((takes_call rfl).bind (m := 0) (r := 0) (fun points => ?_) le_rfl).mono le_rfl
      (by norm_num)
    exact within_return le_rfl
  apply Takes.reply
  refine ((takes_ofExcept _).bind (m := 7) (r := 9 / 5) (fun name => ?_) (by norm_num)).mono
    (by omega) (by norm_num)
  refine ((takes_call rfl).bind (m := 6) (r := 9 / 5) (fun exists_ => ?_) (by norm_num)).mono
    (by omega) (by norm_num)
  apply Within.ite
  · exact (hembed.bind (fun e => hquery name e) (by norm_num)).mono (by omega) (by norm_num)
  · exact within_throw (effort_nonneg 6 (by norm_num))

/-! ## Interleaved requests -/

/-- The number of calls is a bound on the turns. -/
theorem Takes.calls {p : Program α} (h : Takes p n q) : p.Within (fun _ => 1) n :=
  Within.map (AddMonoidHom.fst Nat Rat) (fun _ _ h => h.1) h

theorem Takes.seconds {p : Program α} (h : Takes p n q) : p.Within Op.seconds q :=
  Within.map (AddMonoidHom.snd Nat Rat) (fun _ _ h => h.2) h

/-- **Every request ends.** Whatever fails and whatever other requests do, a write is done once it
has had its turn twice for each poll of its lock, and 118 times more (15 times, a delete), a search
after 7 turns; beside 0.05 s for each poll an upload sleeps at most 9 s, a delete and a search
1.8 s. -/
theorem requests_end (env : Env) (henv : env.Jitters) (requests : Nat → Write)
    (searches : Nat → Search) (sched : List ((Nat ⊕ Nat) × Fault)) :
    let service := interleaveSearches env requests searches sched
    (∀ i, 2 * (requests i).polls + (requests i).underLock + 2 ≤ sched.countP (·.1 = .inl i) →
      ¬ (service.threads (.inl i)).Calls) ∧
    (∀ i, spent Op.seconds service (.inl i) ≤
      (requests i).polls / 20 + (requests i).pauses) ∧
    (∀ j, 7 ≤ sched.countP (·.1 = .inr j) → ¬ (service.threads (.inr j)).Calls) ∧
    ∀ j, spent Op.seconds service (.inr j) ≤ 9 / 5 := by
  let threads : Nat ⊕ Nat → Program Reply := Sum.elim (fun i => (requests i).program env)
    fun j => (Request.search (searches j)).program env
  have hwrite (i : Nat) : Takes (threads (.inl i))
      (2 * (requests i).polls + (requests i).underLock + 2)
      ((requests i).polls / 20 + (requests i).pauses) := takes_write henv (requests i)
  have hsearch (j : Nat) : Takes (threads (.inr j)) 7 (9 / 5) := takes_search henv (searches j)
  refine ⟨fun i hturns => ?_, fun i => ?_, fun j hturns => ?_, fun j => ?_⟩
  · exact done_of_turns (hwrite i).calls hturns
  · refine spent_le (hwrite i).seconds ?_ sched
    exact add_nonneg (div_nonneg (Nat.cast_nonneg _) (by norm_num)) (requests i).pauses_nonneg
  · exact done_of_turns (hsearch j).calls hturns
  · exact spent_le (hsearch j).seconds (by norm_num) sched

theorem Sample.env_jitters : Sample.env.Jitters := fun _ => ⟨by norm_num [env], by norm_num [env]⟩

/-- The first search is done although every call of it fails for a moment. -/
theorem requests_end_unavailable :
    ¬ ((interleaveSearches Sample.env Sample.twoDocuments
      (fun _ => Sample.search Sample.acme "Hello")
      (List.replicate 7 (.inr 0, .before (.rpcError (some .unavailable) "unavailable")))).threads
        (.inr 0)).Calls :=
  (requests_end Sample.env Sample.env_jitters _ _ _).2.2.1 0 (by decide)

end QdrantRag
