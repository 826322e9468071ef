import QdrantRag.Verify.Retry
import QdrantRag.Verify.Writes

/-! # Whose exceptions

The exceptions a failing call raises are those of a client library, of Postgres or of Python
(`Exc.foreign`); the classes of the service are raised by the service alone. A run in which the
environment keeps to that is a run under `foreignExec`, where it holds of every call. -/

namespace QdrantRag
open Effect

/-- The exception is of no class that the service defines for its own use. -/
def Exc.foreign : Exc → Bool
  | .qdrantConnection .. | .schemaMismatch .. | .qdrantOperation .. | .collectionNotFound ..
  | .upload .. => false
  | _ => true

/-- The call is served, or fails with an exception that is not the service's. -/
def Fault.Foreign : Fault → Prop
  | .none => True
  | .before e | .after e => e.foreign = true

instance (c : Fault) : Decidable c.Foreign := by
  cases c <;> unfold Fault.Foreign <;> infer_instance

/-- The environment's choice where it is allowed, and no failure otherwise. -/
def Fault.onlyForeign (_ : Op) (c : Fault) : Fault := if c.Foreign then c else .none

theorem Fault.foreign_onlyForeign (o : Op) (c : Fault) : (Fault.onlyForeign o c).Foreign := by
  unfold onlyForeign
  split
  · assumption
  · trivial

/-- Calls fail with foreign exceptions only. -/
def foreignExec (env : Env) (i : Nat) : Exec Ans Exc Fault World :=
  Exec.limit Fault.onlyForeign (exec env i)

variable {env : Env} {i : Nat} {o : Op} {c : Fault} {s : World}

/-- What Postgres and Qdrant raise when they are served is foreign. -/
theorem foreign_of_serve {e : Exc} (h : serve env i o s = .error e) : e.foreign = true := by
  have hexists : env.alreadyExists.foreign = true := by
    unfold Env.alreadyExists
    split <;> rfl
  have hnotFound : env.notFound.foreign = true := by
    unfold Env.notFound
    split <;> rfl
  cases o with
  | botGetOrCreate T B name =>
    simp only [serve] at h
    split at h
    · cases h
    · split at h
      · next e' he =>
        cases h
        unfold Bot.save at he
        split at he
        · cases he
        · next hname =>
          cases he
          obtain ⟨_, _, rfl⟩ := collectionName_eq_error hname
          rfl
      · split at h <;> cases h
        rfl
  | documentUpdateOrCreate d f now =>
    simp only [serve] at h
    split at h
    · next e' he =>
      cases h
      unfold DocumentDefaults.check at he
      split at he
      · cases he; rfl
      · split at he <;> cases he
        rfl
    · split at h <;> cases h
  | tenantGet | botGet | documentSave =>
    simp only [serve] at h
    split at h <;> cases h
    rfl
  | createCollection =>
    simp only [serve] at h
    split at h <;> cases h
    exact hexists
  | createPayloadIndex | getCollection | count | deletePoints | upsert | queryPoints =>
    simp only [serve] at h
    split at h <;> cases h
    exact hnotFound
  | tryAdvisoryLock | tenantGetOrCreate =>
    simp only [serve] at h
    split at h <;> cases h
  | _ => cases h

theorem foreign_of_exec {e : Exc} (hc : c.Foreign) (h : (exec env i o c s).1 = .error e) :
    e.foreign = true := by
  unfold exec at h
  cases hserve : serve env i o s with
  | error e' =>
    have he := foreign_of_serve hserve
    rw [hserve] at h
    cases c <;> (split at h <;> [skip; split at h]) <;> cases h <;> first | exact he | exact hc
  | ok r =>
    rw [hserve] at h
    cases c <;> (split at h <;> [skip; split at h]) <;> cases h <;> exact hc

theorem foreign_of_foreignExec {e : Exc} (h : (foreignExec env i o c s).1 = .error e) :
    e.foreign = true := foreign_of_exec (Fault.foreign_onlyForeign o c) h

/-- A run whose failures are foreign. -/
theorem run_foreign {α : Type} {p : Program α} {plan : Nat → Fault} (h : ∀ n, (plan n).Foreign) :
    p.run (foreignExec env i) plan s = p.run (exec env i) plan s := by
  apply Prog.run_limit
  intro ev hev
  obtain ⟨n, hn⟩ := Prog.choice_of_mem hev
  rw [hn]
  exact if_pos (h n)

/-! ## Rules

Programs all of whose calls leave the phase as it is. -/

section Rules
open Effect.Prog

variable {α P : Type} {step : P → Call → P → Prop} {φ : P} {err : P → Exc → Prop}

/-- A call that leaves the phase. -/
theorem sim_stay {ok : P → Ans o → Prop} (hstep : ∀ c s, step φ ⟨o, c, s⟩ φ)
    (hok : ∀ a, ok φ a) (herr : ∀ e, e.foreign = true → err φ e) :
    Sim (foreignExec env i) step ok err (call o) φ := by
  apply sim_perform.mpr
  intro c s
  refine ⟨φ, hstep c s, ?_⟩
  cases h : (foreignExec env i o c s).1 with
  | ok a => exact hok a
  | error e => exact herr e (foreign_of_foreignExec h)

/-- `acquireLock` raises what a lock statement raises, or its timeout. -/
theorem sim_acquireLock {ok : P → Unit → Prop} {k : LockKey} {timeout : Exc} (polls : Nat)
    (hlock : ∀ c s, step φ ⟨.tryAdvisoryLock k, c, s⟩ φ)
    (hsleep : ∀ t c s, step φ ⟨.sleep t, c, s⟩ φ) (hok : ok φ ()) (htimeout : err φ timeout)
    (herr : ∀ e, e.foreign = true → err φ e) :
    Sim (foreignExec env i) step ok err (acquireLock k timeout polls) φ := by
  induction polls with
  | zero =>
    apply sim_do.mpr
    refine sim_stay hlock (fun got => ?_) herr
    exact Sim.ite (fun _ => hok) fun _ => htimeout
  | succ polls ih =>
    apply sim_do.mpr
    refine sim_stay hlock (fun got => ?_) herr
    refine Sim.ite (fun _ => hok) fun _ => ?_
    apply sim_do.mpr
    exact sim_stay (hsleep _) (fun _ => ih) herr

/-- A lock key is refused with a foreign exception. -/
theorem foreign_of_lockKey {sha256 : List UInt8 → Digest} {T B d : String} {e : Exc}
    (h : advisoryLockKey sha256 T B d = .error e) : e.foreign = true := by
  unfold advisoryLockKey validateSlug at h
  split at h
  · split at h
    · split at h <;> cases h
      rfl
    · cases h; rfl
  · cases h; rfl

/-- The rule of a program under a lock that is given back in the phase in which it ends. -/
theorem sim_uploadLock {ok : P → α → Prop} {T B d : String} {polls : Nat} {body : Program α}
    (hlock : ∀ k c s, step φ ⟨.tryAdvisoryLock k, c, s⟩ φ)
    (hsleep : ∀ t c s, step φ ⟨.sleep t, c, s⟩ φ)
    (hunlock : ∀ φ k c s, step φ ⟨.advisoryUnlock k, c, s⟩ φ)
    (htimeout : err φ (concurrentUploadError T B d))
    (herr : ∀ φ e, e.foreign = true → err φ e)
    (hbody : Sim (foreignExec env i) step ok err body φ) :
    Sim (foreignExec env i) step ok err (uploadLock env T B d polls body) φ := by
  apply sim_do.mpr
  apply sim_ofExcept.mpr
  refine ⟨fun k _ => ?_, fun e he => herr _ _ (foreign_of_lockKey he)⟩
  apply sim_do.mpr
  refine sim_acquireLock polls (hlock k) hsleep ?_ htimeout (herr φ)
  apply sim_tryFinally.mpr
  refine hbody.mono (fun φ a ha => ?_) fun φ e he => ?_
  · exact sim_stay (hunlock φ k) (fun _ => ha) (herr φ)
  · exact sim_stay (hunlock φ k) (fun _ => he) (herr φ)

/-- `deleteByDocId` raises what a call raises, or that its attempts are used up. -/
theorem sim_deleteByDocId {T B d : String}
    (hexists : ∀ n c s, step φ ⟨.collectionExists n, c, s⟩ φ)
    (hcount : ∀ n f c s, step φ ⟨.count n f, c, s⟩ φ)
    (hdelete : ∀ n f c s, step φ ⟨.deletePoints n f, c, s⟩ φ)
    (hsleep : ∀ t c s, step φ ⟨.sleep t, c, s⟩ φ) :
    Sim (foreignExec env i) step (fun φ' _ => φ' = φ)
      (fun φ' e => φ' = φ ∧ (e.foreign = true ∨ ∃ last, e = .qdrantConnection 3 last))
      (deleteByDocId env T B d) φ := by
  refine sim_retry (fun _ _ _ => rfl) (fun _ last _ => .inr ⟨last, rfl⟩) ?_ ?_ rfl
  · rintro _ t c s rfl
    exact hsleep t c s
  · rintro _ rfl
    apply sim_do.mpr
    apply sim_ofExcept.mpr
    refine ⟨fun name _ => ?_, fun e he => ?_⟩
    · apply sim_do.mpr
      refine sim_stay (hexists name) (fun exists_ => ?_) fun _ he => ⟨rfl, .inl he⟩
      refine Sim.ite (fun _ => ?_) fun _ => rfl
      apply sim_do.mpr
      refine sim_stay (hcount name _) (fun count_before => ?_) fun _ he => ⟨rfl, .inl he⟩
      apply sim_do.mpr
      exact sim_stay (hdelete name _) (fun _ => rfl) fun _ he => ⟨rfl, .inl he⟩
    · obtain ⟨_, _, rfl⟩ := collectionName_eq_error he
      exact ⟨rfl, .inl rfl⟩

end Rules

end QdrantRag
