import QdrantRag.Effect.Readers
import QdrantRag.Verify.Caches
import QdrantRag.Verify.Sample

/-! # Readiness

The threads of a process under any interleaving, whatever fails (`readiness_stable`): at most one
warm-up is started; it sets the flag, unless a call of it fails; and once a probe has said that the
embedder is loaded, every later probe says so and no later request loads the model.

The argument is on the stages a thread goes through (`WarmupStage`), each of which says what its
thread knows of the process (`WarmupStage.Fits`); the flag goes with the model in its cache and with
the one warm-up (`Process.Sound`). -/

namespace QdrantRag
open Effect Effect.Prog Text

variable {env : Env} {web : Web} {t u : Thread} {α β : Type}

/-! ## Calls -/

section Only
variable {S : ProcessOp → Prop}

/-- What looks an object up, and loads and stores it where it is missing. -/
theorem only_callCached {k : Cached} (hlook : S (.lookUp k)) (hload : S (.load k))
    (hstore : ∀ object, S (.store k object)) : (Embedder.callCached k).Only S := by
  refine Only.bind (only_perform hlook) fun hit => ?_
  cases hit with
  | some object => trivial
  | none =>
    exact Only.bind (only_perform hload) fun object =>
      Only.bind (only_perform (hstore object)) fun _ => trivial

end Only

/-! ## Stages -/

/-- How far a thread is. -/
inductive WarmupStage
  | begun
  /-- It has the lock. -/
  | entered
  /-- It has the lock, and has found that no warm-up was started. -/
  | unclaimed
  /-- It has the lock, and the warm-up is its to start. -/
  | claimed
  /-- The warm-up is its to start. -/
  | starting
  /-- It has seen the model in its cache. -/
  | warm
  /-- It has seen the flag set, or has set it. -/
  | sure
  /-- A call of it has failed. -/
  | failed

/-- The calls that leave what the stages are about. -/
def ProcessOp.quiet : ProcessOp → Bool
  | .started | .loaded | .lookUp _ | .load _ | .store .tokenizer _ | .encode _ _ | .tokenize _ _
  | .selectOne | .getCollections => true
  | _ => false

/-- The stages before and after a call of the thread `t`. -/
inductive WarmupStage.Step (env : Env) (t : Thread) :
    WarmupStage → ProcessCall → WarmupStage → Prop
  | acquire {ev} : ev.op = .acquire → Step env t .begun ev .entered
  | found {ev} : ev.op = .started → ev.pre.started = true → Step env t .entered ev .entered
  | unclaimed {ev} : ev.op = .started → ev.pre.started = false → Step env t .entered ev .unclaimed
  | claim {ev} : ev.op = .setStarted → Step env t .unclaimed ev .claimed
  | leave {ev} : ev.op = .release → Step env t .entered ev .begun
  | leaveClaimed {ev} : ev.op = .release → Step env t .claimed ev .starting
  | start {ev} : ev.op = .startThread → Step env t .starting ev .begun
  | hit {ev} : ev.op = .lookUp .model → (ev.pre.cached .model).isSome = true →
    Step env t .begun ev .warm
  | store {ev object} : ev.op = .store .model object → Step env t .begun ev .warm
  | finish {ev} {n : Nat} : t = .warmup n → ev.op = .setLoaded → Step env t .warm ev .sure
  | read {ev} : ev.op = .loaded → ev.pre.loaded = true → Step env t .begun ev .sure
  | fail {ev φ e} : ev.op.quiet = true → ev.Failed (ProcessOp.exec env t) e →
    Step env t φ ev .failed
  | quiet {ev φ} : ev.op.quiet = true → Step env t φ ev φ

/-- The program makes quiet calls only. -/
abbrev Quiet (p : ProcessProgram α) : Prop := p.Only fun o => o.quiet = true

section Sim

/-- The program goes through stages to one in `ok` or `err`. -/
abbrev Staged (env : Env) (t : Thread) (p : ProcessProgram α) (φ : WarmupStage)
    (ok : WarmupStage → α → Prop) (err : WarmupStage → Exc → Prop) : Prop :=
  p.Sim (ProcessOp.execGenuine env t) (WarmupStage.Step env t) ok err φ

variable {φ : WarmupStage}

/-- Quiet calls leave a thread at its stage. -/
theorem staged_of_quiet {p : ProcessProgram α} (h : Quiet p) :
    Staged env t p φ (fun ψ _ => ψ = φ) fun ψ _ => ψ = φ := by
  induction p with
  | pure a => rfl
  | throw e => rfl
  | call o k ih => exact fun c s => ⟨φ, .quiet h.1, ih _ (h.2 _)⟩

theorem staged_loadModel : Staged env t (processCall (.load .model)) .begun
    (fun ψ model => ψ = .begun ∧ model = env.object .model) fun ψ _ => ψ = .failed := by
  apply sim_perform.mpr
  intro c s
  cases c with
  | none => exact ⟨.begun, .quiet rfl, rfl, rfl⟩
  | some e => exact ⟨.failed, .fail rfl rfl, rfl⟩

theorem staged_getModel : Staged env t Embedder.getModel .begun
    (fun ψ model => ψ = .warm ∧ model = env.object .model) fun ψ _ => ψ = .failed := by
  refine sim_do.mpr (sim_perform.mpr fun c s => ?_)
  cases hhit : s.cached .model with
  | some model =>
    refine ⟨.warm, .hit rfl (Option.isSome_of_eq_some hhit), ?_⟩
    simp only [ProcessOp.execGenuine, hhit]
    exact ⟨rfl, rfl⟩
  | none =>
    refine ⟨.begun, .quiet rfl, ?_⟩
    simp only [ProcessOp.execGenuine, hhit]
    refine sim_do.mpr (staged_loadModel.mono ?_ fun _ _ => id)
    rintro _ model ⟨rfl, rfl⟩
    exact sim_do.mpr (sim_perform.mpr fun c s => ⟨.warm, .store rfl, rfl, rfl⟩)

theorem staged_encode {texts : List String} :
    Staged env t (processCall (.encode (env.object .model) texts)) .warm
      (fun ψ out => ψ = .warm ∧ out = texts.map env.encode) fun ψ _ => ψ = .failed := by
  apply sim_perform.mpr
  intro c s
  cases c with
  | none => exact ⟨.warm, .quiet rfl, rfl, rfl⟩
  | some e => exact ⟨.failed, .fail rfl rfl, rfl⟩

/-- Texts that are not refused are embedded by the model in its cache. -/
theorem staged_embedPassages {texts : List String} : Staged env t (Embedder.embedPassages texts)
    .begun (fun ψ out => ψ = .warm ∧ out = texts.map env.encode)
    fun ψ _ => ψ = .failed ∨ checkTexts texts ≠ .ok () := by
  refine sim_do.mpr (sim_ofExcept.mpr ⟨fun _ _ => ?_, fun e he => .inr ?_⟩)
  · refine sim_do.mpr (staged_getModel.mono ?_ fun _ _ => .inl)
    rintro _ _ ⟨rfl, rfl⟩
    exact staged_encode.mono (fun _ _ => id) fun _ _ => .inl
  · rw [he]
    exact nofun

theorem staged_embedQuery {text : String} : Staged env t (Embedder.embedQuery text) .begun
    (fun ψ _ => ψ = .warm) fun ψ _ => ψ = .failed ∨ strip text = "" := by
  refine Sim.ite .inr fun hfilled => ?_
  have hchecked : checkTexts [text] = .ok () :=
    checkTexts_eq_ok.mpr ⟨List.cons_ne_nil _ _, List.forall_mem_singleton.mpr hfilled⟩
  refine sim_do.mpr (staged_embedPassages.mono ?_ fun _ _ => ?_)
  · rintro _ _ ⟨rfl, rfl⟩
    rfl
  · exact Or.imp_right (absurd hchecked)

/-- The warm-up sets the flag, or a call of it has failed. -/
theorem staged_doWarmup {n : Nat} : Staged env (.warmup n) doWarmup .begun
    (fun ψ _ => ψ = .sure ∨ ψ = .failed) fun _ _ => False := by
  have hfilled : strip "warmup" ≠ "" := by decide +kernel
  refine sim_tryCatch.mpr (sim_do.mpr (staged_embedQuery.mono ?_ ?_))
  · rintro _ _ rfl
    exact sim_perform.mpr fun c s => ⟨.sure, .finish rfl rfl, .inl rfl⟩
  · exact fun _ _ h => .inr (h.resolve_right hfilled)

theorem staged_claimWarmup : Staged env t claimWarmup .begun
    (fun ψ started => ψ = if started then .begun else .starting) fun _ _ => False := by
  refine sim_do.mpr (sim_perform.mpr fun c s => ⟨.entered, .acquire rfl, ?_⟩)
  refine sim_tryFinally.mpr (sim_do.mpr (sim_perform.mpr fun c s => ?_))
  cases hstarted : s.started with
  | true =>
    refine ⟨.entered, .found rfl hstarted, ?_⟩
    simp only [ProcessOp.execGenuine, ProcessOp.exec, hstarted]
    exact sim_perform.mpr fun c s => ⟨.begun, .leave rfl, rfl⟩
  | false =>
    refine ⟨.unclaimed, .unclaimed rfl hstarted, ?_⟩
    simp only [ProcessOp.execGenuine, ProcessOp.exec, hstarted]
    refine sim_do.mpr (sim_perform.mpr fun c s => ⟨.claimed, .claim rfl, ?_⟩)
    exact sim_perform.mpr fun c s => ⟨.starting, .leaveClaimed rfl, rfl⟩

theorem staged_startWarmupInBackground : Staged env t startWarmupInBackground .begun
    (fun _ _ => True) fun _ _ => True := by
  refine sim_do.mpr (staged_claimWarmup.mono ?_ fun _ _ => False.elim)
  rintro _ started rfl
  cases started with
  | true => trivial
  | false =>
    refine sim_perform.mpr fun c s => ⟨.begun, .start rfl, ?_⟩
    cases c <;> trivial

theorem quiet_call {o : ProcessOp} (h : o.quiet = true) : Quiet (processCall o) := only_perform h

theorem quiet_getTokenizer : Quiet Embedder.getTokenizer := only_callCached rfl rfl fun _ => rfl

/-- A thread that reads the flag as set is sure. -/
theorem staged_loaded : Staged env t (processCall .loaded) .begun
    (fun ψ b => b = true → ψ = .sure) fun _ _ => True := by
  refine sim_perform.mpr fun c s => ?_
  cases hloaded : s.loaded with
  | true => exact ⟨.sure, .read rfl hloaded, fun _ => rfl⟩
  | false =>
    refine ⟨.begun, .quiet rfl, fun h => ?_⟩
    rw [hloaded] at h
    cases h

theorem staged_healthz : Staged env t (healthz web) .begun
    (fun ψ r => r.body.embedder_loaded = true → ψ = .sure) fun _ _ => True := by
  refine sim_do.mpr ((staged_of_quiet (only_pingPostgres rfl)).mono ?_ fun _ _ _ => trivial)
  rintro _ pg rfl
  refine sim_do.mpr ((staged_of_quiet (only_pingQdrant rfl)).mono ?_ fun _ _ _ => trivial)
  rintro _ qd rfl
  exact sim_do.mpr (staged_loaded.mono (fun _ _ h => h) fun _ _ => id)

theorem staged_healthCheck : Staged env t VectorSearchService.HealthCheck .begun
    (fun ψ r => r.embedder_loaded = true → ψ = .sure) fun _ _ => True := by
  have hquiet : Quiet ((do
      processCall .getCollections
      return true : ProcessProgram Bool).tryCatch fun _ => return false) :=
    Only.tryCatch (Only.bind (quiet_call rfl) fun _ => trivial) fun _ => trivial
  refine sim_do.mpr (staged_loaded.mono ?_ fun _ _ => id)
  intro ψ b hb
  refine sim_do.mpr ((staged_of_quiet hquiet).mono ?_ fun _ _ _ => trivial)
  rintro _ qdrant_ok rfl
  exact hb

/-- A thread whose probe says that the embedder is loaded is sure of it. -/
theorem EntryPoint.staged (entry : EntryPoint) : Staged env t (entry.program web) .begun
    (fun ψ r => r.embedder_loaded = some true → ψ = .sure) fun _ _ => True := by
  have hnone {ψ : WarmupStage} {r : ProcessReply} (hr : r.embedder_loaded = none) :
      r.embedder_loaded = some true → ψ = .sure := by
    rw [hr]
    exact fun h => nomatch h
  cases entry with
  | ready skip argv =>
    have hready : Staged env t (IngestionConfig.ready skip argv) .begun (fun _ _ => True)
        fun _ _ => True := Sim.ite (fun _ => staged_startWarmupInBackground) fun _ => trivial
    exact sim_do.mpr (hready.mono (fun _ _ _ => hnone rfl) fun _ _ => id)
  | healthz =>
    exact sim_do.mpr (staged_healthz.mono (fun _ _ h hr => h (Option.some.inj hr)) fun _ _ => id)
  | healthCheck =>
    exact sim_do.mpr
      (staged_healthCheck.mono (fun _ _ h hr => h (Option.some.inj hr)) fun _ _ => id)
  | countTokens text =>
    have hquiet : Quiet (Embedder.countTokens text) :=
      Only.ite (fun _ => trivial) fun _ => Only.bind quiet_getTokenizer fun _ => quiet_call rfl
    exact sim_do.mpr ((staged_of_quiet hquiet).mono (fun _ _ _ => hnone rfl) fun _ _ _ => trivial)
  | embedPassages texts =>
    exact sim_do.mpr (staged_embedPassages.mono (fun _ _ _ => hnone rfl) fun _ _ _ => trivial)
  | embedQuery text =>
    exact sim_do.mpr (staged_embedQuery.mono (fun _ _ _ => hnone rfl) fun _ _ _ => trivial)
  | warmup =>
    refine sim_do.mpr (sim_do.mpr (staged_getModel.mono ?_ fun _ _ _ => trivial))
    rintro _ _ ⟨rfl, -⟩
    exact sim_do.mpr ((staged_of_quiet quiet_getTokenizer).mono (fun _ _ _ => hnone rfl)
      fun _ _ _ => trivial)

end Sim

/-! ## What the threads know -/

/-- What a thread knows of the process at its stage; `claimant` is the thread whose the warm-up is
to start. -/
def WarmupStage.Fits (claimant : Option Thread) (s : Process) (t : Thread) : WarmupStage → Prop
  | .begun | .failed => True
  | .entered => s.lock = some t
  | .unclaimed => s.lock = some t ∧ s.started = false
  | .claimed => s.lock = some t ∧ claimant = some t
  | .starting => claimant = some t
  | .warm => (s.cached .model).isSome = true
  | .sure => s.loaded = true

/-- The flag is set with the model in its cache and by the one warm-up. -/
structure Process.Sound (claimant : Option Thread) (s : Process) : Prop where
  started : s.started = false → claimant = none ∧ s.warmups = 0
  claimed : claimant ≠ none → s.warmups = 0
  warmups : s.warmups ≤ 1
  loaded : s.loaded = true → (s.cached .model).isSome = true ∧ s.warmups = 1

/-- The threads at the stages `φ`, with the calls of `log` made. -/
structure Warmed (env : Env) (log : List (Thread × ProcessCall)) (s : Process)
    (φ : Thread → WarmupStage) : Prop where
  sound : ∃ claimant, s.Sound claimant ∧ ∀ t, (φ t).Fits claimant s t
  failed : ∀ t, φ t = .failed → ∃ ev e, (t, ev) ∈ log ∧ ev.Failed (ProcessOp.exec env t) e

/-- What the others know, and what the process is, after a call of `t`. -/
structure Moves (claimant : Option Thread) (s : Process) (t : Thread) (φ' : WarmupStage)
    (s' : Process) (claimant' : Option Thread) : Prop where
  sound : s'.Sound claimant'
  own : φ'.Fits claimant' s' t
  others : ∀ u ≠ t, ∀ φ : WarmupStage, φ.Fits claimant s u → φ.Fits claimant' s' u

section Moves
variable {claimant lock : Option Thread} {s : Process} {φ φ' : WarmupStage}

/-- The thread has found out what is so. -/
theorem moves_self (hs : s.Sound claimant) (hown : φ'.Fits claimant s t) :
    Moves claimant s t φ' s claimant := ⟨hs, hown, fun _ _ _ => id⟩

theorem lock_ne_of_ne (h : s.lock = some t) (hu : u ≠ t) : s.lock ≠ some u :=
  fun hu' => hu (Option.some.inj (hu'.symm.trans h))

/-- What a thread knows outside the lock is not about the lock. -/
theorem WarmupStage.Fits.of_lock (h : φ.Fits claimant s u) (hlock : s.lock ≠ some u) :
    φ.Fits claimant { s with lock := lock } u := by
  cases φ with
  | entered => exact absurd h hlock
  | unclaimed | claimed => exact absurd h.1 hlock
  | _ => exact h

/-- The lock is entered or left, when no other thread is in it. -/
theorem moves_lock (hs : s.Sound claimant) (hfree : ∀ u ≠ t, s.lock ≠ some u)
    (hown : φ'.Fits claimant { s with lock := lock } t) :
    Moves claimant s t φ' { s with lock := lock } claimant :=
  ⟨⟨hs.started, hs.claimed, hs.warmups, hs.loaded⟩, hown,
    fun u hu _ hψ => hψ.of_lock (hfree u hu)⟩

/-- The thread in the lock makes the warm-up its own. -/
theorem moves_claim (hs : s.Sound claimant) (hmine : s.lock = some t) (hnot : s.started = false) :
    Moves claimant s t .claimed { s with started := true } (some t) := by
  obtain ⟨rfl, hzero⟩ := hs.started hnot
  refine ⟨⟨fun h => (nomatch h), fun _ => hzero, hs.warmups, hs.loaded⟩, ⟨hmine, rfl⟩,
    fun u hu ψ hψ => ?_⟩
  cases ψ with
  | unclaimed => exact absurd hψ.1 (lock_ne_of_ne hmine hu)
  | claimed => cases hψ.2
  | starting => cases hψ
  | _ => exact hψ

/-- The claimant starts the warm-up, unless that fails; there are `n` afterwards. -/
theorem moves_start {n : Nat} (hs : s.Sound (some t)) (hn : n ≤ 1) :
    Moves (some t) s t .begun { s with warmups := n } none := by
  have hzero := hs.claimed (Option.some_ne_none t)
  have hstarted : s.started ≠ false := fun h => nomatch (hs.started h).1
  refine ⟨⟨fun h => absurd h hstarted, fun h => absurd rfl h, hn, fun h => ?_⟩, trivial,
    fun u hu ψ hψ => ?_⟩
  · have hone := (hs.loaded h).2
    omega
  · cases ψ with
    | claimed => exact absurd (Option.some.inj hψ.2).symm hu
    | starting => exact absurd (Option.some.inj hψ).symm hu
    | _ => exact hψ

theorem moves_store {object : BGEM3FlagModel} (hs : s.Sound claimant) :
    Moves claimant s t .warm (s.store .model object) claimant := by
  have hcached : ((s.store .model object).cached .model).isSome = true :=
    Process.store_isSome (.inl rfl)
  refine ⟨⟨hs.started, hs.claimed, hs.warmups, fun h => ⟨hcached, (hs.loaded h).2⟩⟩, hcached,
    fun u hu ψ hψ => ?_⟩
  cases ψ with
  | warm => exact hcached
  | _ => exact hψ

/-- The warm-up ends with the model in its cache. -/
theorem moves_finish (hs : s.Sound claimant) (hmodel : (s.cached .model).isSome = true)
    (hone : s.warmups = 1) : Moves claimant s t .sure { s with loaded := true } claimant := by
  refine ⟨⟨hs.started, hs.claimed, hs.warmups, fun _ => ⟨hmodel, hone⟩⟩, rfl, fun u hu ψ hψ => ?_⟩
  cases ψ with
  | sure => rfl
  | _ => exact hψ

variable (env t) in
/-- Quiet calls leave what the stages are about. -/
theorem ProcessOp.exec_quiet {o : ProcessOp} (c : Option Exc) (s : Process)
    (h : o.quiet = true) :
    ∃ cached : (k : Cached) → Option k.Object, cached .model = s.cached .model ∧
      (ProcessOp.execGenuine env t o c s).2 = { s with cached := cached } := by
  cases o with
  | store k object =>
    cases k with
    | model => cases h
    | tokenizer => exact ⟨_, Process.store_cached_of_ne (by decide), rfl⟩
  | acquire | release | setStarted | startThread | setLoaded => cases h
  | _ => exact ⟨s.cached, rfl, rfl⟩

theorem WarmupStage.Fits.of_model {cached : (k : Cached) → Option k.Object}
    (h : φ.Fits claimant s u) (hmodel : cached .model = s.cached .model) :
    φ.Fits claimant { s with cached := cached } u := by
  cases φ with
  | warm => exact (congrArg Option.isSome hmodel).trans h
  | _ => exact h

theorem moves_quiet {o : ProcessOp} {c : Option Exc} (hs : s.Sound claimant)
    (ho : o.quiet = true) (hown : φ'.Fits claimant s t) :
    Moves claimant s t φ' (ProcessOp.execGenuine env t o c s).2 claimant := by
  obtain ⟨cached, hmodel, hpost⟩ := ProcessOp.exec_quiet env t c s ho
  rw [hpost]
  refine ⟨⟨hs.started, hs.claimed, hs.warmups, fun h => ?_⟩, hown.of_model hmodel,
    fun u _ ψ hψ => hψ.of_model hmodel⟩
  exact ⟨(congrArg Option.isSome hmodel).trans (hs.loaded h).1, (hs.loaded h).2⟩

variable (env) in
/-- A step of a thread keeps what the threads know. -/
theorem WarmupStage.Step.moves {ev : ProcessCall} {log : List (Thread × ProcessCall)}
    (h : WarmupStage.Step env t φ ev φ') (hsched : Scheduled log t ev)
    (hs : ev.pre.Sound claimant) (hφ : φ.Fits claimant ev.pre t) :
    ∃ claimant',
      Moves claimant ev.pre t φ' (ev.post (ProcessOp.execGenuine env t)) claimant' := by
  obtain ⟨o, c, s⟩ := ev
  replace hs : s.Sound claimant := hs
  cases h with
  | acquire ho =>
    obtain rfl : o = .acquire := ho
    have hfree : s.lock = none := hsched.1 rfl
    refine ⟨claimant, moves_lock hs (fun u _ => ?_) rfl⟩
    rw [hfree]
    exact nofun
  | found ho hstarted =>
    obtain rfl : o = .started := ho
    exact ⟨claimant, moves_self hs hφ⟩
  | unclaimed ho hstarted =>
    obtain rfl : o = .started := ho
    exact ⟨claimant, moves_self hs ⟨hφ, hstarted⟩⟩
  | claim ho =>
    obtain rfl : o = .setStarted := ho
    exact ⟨some t, moves_claim hs hφ.1 hφ.2⟩
  | leave ho =>
    obtain rfl : o = .release := ho
    exact ⟨claimant, moves_lock hs (fun _ => lock_ne_of_ne hφ) trivial⟩
  | leaveClaimed ho =>
    obtain rfl : o = .release := ho
    exact ⟨claimant, moves_lock hs (fun _ => lock_ne_of_ne hφ.1) hφ.2⟩
  | start ho =>
    obtain rfl : o = .startThread := ho
    obtain rfl : claimant = some t := hφ
    have hzero := hs.claimed (Option.some_ne_none t)
    cases c with
    | none => exact ⟨none, moves_start hs (Nat.succ_le_succ hzero.le)⟩
    | some e => exact ⟨none, moves_start hs hs.warmups⟩
  | hit ho hhit =>
    obtain rfl : o = .lookUp .model := ho
    exact ⟨claimant, moves_self hs hhit⟩
  | @store _ object ho =>
    obtain rfl : o = .store .model object := ho
    exact ⟨claimant, moves_store hs⟩
  | @finish _ n ht ho =>
    obtain rfl : o = .setLoaded := ho
    subst ht
    have hrun : n < s.warmups := hsched.2
    exact ⟨claimant, moves_finish hs hφ (Nat.le_antisymm hs.warmups (Nat.zero_lt_of_lt hrun))⟩
  | read ho hread =>
    obtain rfl : o = .loaded := ho
    exact ⟨claimant, moves_self hs hread⟩
  | fail ho hfail => exact ⟨claimant, moves_quiet hs ho trivial⟩
  | quiet ho => exact ⟨claimant, moves_quiet hs ho hφ⟩

end Moves

theorem Warmed.step {log : List (Thread × ProcessCall)} {φ : Thread → WarmupStage}
    {φ' : WarmupStage} {ev : ProcessCall} (h : Warmed env log ev.pre φ)
    (hs : WarmupStage.Step env t (φ t) ev φ')
    (hsched : Scheduled log t ev) :
    Warmed env ((t, ev) :: log) (ev.post (ProcessOp.execGenuine env t))
      (Function.update φ t φ') := by
  obtain ⟨claimant, hsound, hfits⟩ := h.sound
  obtain ⟨claimant', hsound', hown, hothers⟩ := hs.moves env hsched hsound (hfits t)
  refine ⟨⟨claimant', hsound', ?_⟩, ?_⟩
  · exact (Function.forall_update_iff φ fun u ψ => ψ.Fits claimant' _ u).mpr
      ⟨hown, fun u hu => hothers u hu _ (hfits u)⟩
  · refine (Function.forall_update_iff φ fun u ψ => ψ = .failed →
      ∃ ev' e, (u, ev') ∈ (t, ev) :: log ∧ ev'.Failed (ProcessOp.exec env u) e).mpr
        ⟨?_, fun u _ hu => ?_⟩
    · rintro rfl
      generalize hφ : φ t = ψ at hs
      cases hs with
      | @fail _ _ e _ hfail => exact ⟨ev, e, List.mem_cons_self, hfail⟩
      | quiet _ =>
        obtain ⟨ev', e, hev, hfail⟩ := h.failed t hφ
        exact ⟨ev', e, List.mem_cons_of_mem _ hev, hfail⟩
    · obtain ⟨ev', e, hev, hfail⟩ := h.failed u hu
      exact ⟨ev', e, List.mem_cons_of_mem _ hev, hfail⟩

/-- Where a thread is done, it ended as its stage says. -/
def Thread.Ended (ψ : WarmupStage) (r : ProcessReply) : Thread → Prop
  | .caller _ => r.embedder_loaded = some true → ψ = .sure
  | .warmup _ => ψ = .sure ∨ ψ = .failed

theorem Thread.staged (entries : Nat → EntryPoint) : Staged env t (t.program web entries) .begun
    (fun ψ r => t.Ended ψ r) fun _ _ => True := by
  cases t with
  | caller n => exact (entries n).staged
  | warmup n => exact sim_do.mpr (staged_doWarmup.mono (fun _ _ => id) fun _ _ => False.elim)

/-- The invariant of a run of the process. -/
theorem Process.warmed (entries : Nat → EntryPoint) (sched : List (Thread × Option Exc))
    (h : Obeys Scheduled (Process.interleave env web entries sched).log) :
    ∃ φ, Pool.Holds (ProcessOp.execGenuine env) (WarmupStage.Step env)
      (fun t ψ r => t.Ended ψ r) (fun _ _ _ => True) (Warmed env)
      (Process.interleave env web entries sched) φ := by
  rw [Process.interleave_eq] at h ⊢
  refine Pool.run_rule (fun hI hs hg => hI.step hs hg) ⟨⟨⟨none, ?_, fun _ => ?_⟩, fun _ h => ?_⟩,
    fun t => t.staged entries⟩ sched h
  · exact ⟨fun _ => ⟨rfl, rfl⟩, fun h => absurd rfl h, Nat.zero_le 1, fun h => nomatch h⟩
  · trivial
  · cases h

/-! ## Once the embedder is loaded -/

/-- The call does not load the model. -/
def ProcessOp.spares : ProcessOp → Bool
  | .load .model => false
  | _ => true

/-- A thread goes on as one that has found the embedder loaded; the stage is whether it has. -/
inductive Assured : Bool → ProcessCall → Bool → Prop
  | ready {ev b} : ev.op.spares = true → Assured b ev b
  | unready {ev b} : ev.pre.loaded = false ∨ ev.pre.cached .model = none → Assured b ev false
  | lost {ev} : Assured false ev false

section Assures

/-- Where the embedder is loaded at every call, the program does not load the model and returns a
value of `ok`. -/
abbrev Assures (env : Env) (t : Thread) (p : ProcessProgram α) (ok : α → Prop) : Prop :=
  p.Sim (ProcessOp.execGenuine env t) Assured (fun b a => b = true → ok a) (fun _ _ => True) true

/-- Nothing is asked of a thread that has found it not loaded. -/
theorem sim_lost {p : ProcessProgram α} {ok : α → Prop} :
    p.Sim (ProcessOp.execGenuine env t) Assured (fun b a => b = true → ok a)
      (fun _ _ => True) false := by
  induction p with
  | pure a => exact fun h => nomatch h
  | throw e => trivial
  | call o k ih => exact fun c s => ⟨false, .lost, ih _⟩

/-- The program leaves the model alone. -/
abbrev SparesModel (p : ProcessProgram α) : Prop := p.Only fun o => o.spares = true

theorem SparesModel.assures {p : ProcessProgram α} (h : SparesModel p) :
    Assures env t p fun _ => True := by
  induction p with
  | pure a => exact fun _ => trivial
  | throw e => trivial
  | call o k ih => exact fun c s => ⟨true, .ready h.1, ih _ (h.2 _)⟩

theorem Assures.bind {p : ProcessProgram β} {f : β → ProcessProgram α} {ok : α → Prop}
    {ok' : β → Prop} (hp : Assures env t p ok') (hf : ∀ b, ok' b → Assures env t (f b) ok) :
    Assures env t (p >>= f) ok := by
  refine sim_do.mpr (hp.mono (fun b a h => ?_) fun _ _ => id)
  cases b with
  | true => exact hf a (h rfl)
  | false => exact sim_lost

theorem assures_getModel : Assures env t Embedder.getModel fun _ => True := by
  refine sim_do.mpr (sim_perform.mpr fun c s => ?_)
  cases hhit : s.cached .model with
  | some model =>
    refine ⟨true, .ready rfl, ?_⟩
    simp only [ProcessOp.execGenuine, hhit]
    exact fun _ => trivial
  | none => exact ⟨false, .unready (.inr hhit), sim_lost⟩

theorem assures_loaded : Assures env t (processCall .loaded) fun b => b = true := by
  refine sim_perform.mpr fun c s => ?_
  cases hloaded : s.loaded with
  | true => exact ⟨true, .ready rfl, fun _ => hloaded⟩
  | false => exact ⟨false, .unready (.inl hloaded), fun h => nomatch h⟩

theorem sparesModel_call {o : ProcessOp} (h : o.spares = true) : SparesModel (processCall o) :=
  only_perform h

theorem sparesModel_getTokenizer : SparesModel Embedder.getTokenizer :=
  only_callCached rfl rfl fun _ => rfl

theorem Plain.sparesModel {p : ProcessProgram α} (h : Plain p) : SparesModel p :=
  h.mono fun o ho => by
    cases o with
    | load c => cases ho
    | _ => rfl

theorem assures_embedPassages {texts : List String} :
    Assures env t (Embedder.embedPassages texts) fun _ => True := by
  refine (SparesModel.assures (only_ofExcept _)).bind fun _ _ => ?_
  exact assures_getModel.bind fun _ _ => (sparesModel_call rfl).assures

theorem assures_embedQuery {text : String} :
    Assures env t (Embedder.embedQuery text) fun _ => True := by
  refine Sim.ite (fun _ => trivial) fun _ => assures_embedPassages.bind fun out _ => ?_
  cases out with
  | nil => trivial
  | cons e out => exact fun _ => trivial

/-- No request loads the model, and no probe says that it is not loaded. -/
theorem EntryPoint.assures (entry : EntryPoint) :
    Assures env t (entry.program web) fun r => r.embedder_loaded ≠ some false := by
  have hreturn {r : ProcessReply} (hr : r.embedder_loaded ≠ some false) :
      Assures env t (Pure.pure r) fun r => r.embedder_loaded ≠ some false := fun _ => hr
  cases entry with
  | ready skip argv =>
    exact plain_ready.sparesModel.assures.bind fun _ _ => hreturn fun h => nomatch h
  | healthz =>
    have hpg : SparesModel (pingPostgres web) := only_pingPostgres rfl
    have hqd : SparesModel (pingQdrant web) := only_pingQdrant rfl
    have hhealthz : Assures env t (QdrantRag.healthz web) fun r => r.body.embedder_loaded = true :=
      hpg.assures.bind fun pg _ => hqd.assures.bind fun qd _ =>
        assures_loaded.bind fun _ hready _ => hready
    refine hhealthz.bind fun r hr => hreturn fun h => ?_
    cases hr.symm.trans (Option.some.inj h)
  | healthCheck =>
    have hcheck : Assures env t VectorSearchService.HealthCheck fun r =>
        r.embedder_loaded = true := by
      refine assures_loaded.bind fun ready hready => Assures.bind (SparesModel.assures ?_)
        fun qdrant_ok _ _ => hready
      exact Only.tryCatch (Only.bind (sparesModel_call rfl) fun _ => trivial) fun _ => trivial
    refine hcheck.bind fun r hr => hreturn fun h => ?_
    cases hr.symm.trans (Option.some.inj h)
  | countTokens text =>
    have hcount : SparesModel (Embedder.countTokens text) :=
      Only.ite (fun _ => trivial) fun _ =>
        Only.bind sparesModel_getTokenizer fun _ => sparesModel_call rfl
    exact hcount.assures.bind fun _ _ => hreturn fun h => nomatch h
  | embedPassages texts =>
    exact assures_embedPassages.bind fun _ _ => hreturn fun h => nomatch h
  | embedQuery text => exact assures_embedQuery.bind fun _ _ => hreturn fun h => nomatch h
  | warmup =>
    have hwarmup : Assures env t Embedder.warmup fun _ => True :=
      assures_getModel.bind fun _ _ => sparesModel_getTokenizer.assures.bind fun _ _ _ => trivial
    exact hwarmup.bind fun _ _ => hreturn fun h => nomatch h

end Assures

/-- The embedder is loaded, as the flag says. -/
def Process.Loaded (s : Process) : Prop := s.loaded = true ∧ (s.cached .model).isSome = true

variable (env t) in
/-- Nothing that is loaded is forgotten. -/
theorem Process.Loaded.exec {o : ProcessOp} {c : Option Exc} {s : Process} (h : s.Loaded) :
    (ProcessOp.execGenuine env t o c s).2.Loaded := by
  cases o with
  | store k object => exact ⟨h.1, Process.store_isSome (.inr h.2)⟩
  | startThread => cases c <;> exact h
  | setLoaded => exact ⟨rfl, h.2⟩
  | _ => exact h

/-- A thread that begins when the embedder is loaded, with the calls of `log` made. -/
structure Late (j : Thread) (log : List (Thread × ProcessCall)) (s : Process)
    (φ : Thread → Bool) : Prop where
  loaded : s.Loaded
  assured : φ j = true
  spares : ∀ ev, (j, ev) ∈ log → ev.op.spares = true

theorem Late.step {j : Thread} {log : List (Thread × ProcessCall)} {φ : Thread → Bool} {b : Bool}
    {ev : ProcessCall} (h : Late j log ev.pre φ) (hs : Assured (φ t) ev b) :
    Late j ((t, ev) :: log) (ev.post (ProcessOp.execGenuine env t)) (Function.update φ t b) := by
  have hloaded : (ev.post (ProcessOp.execGenuine env t)).Loaded := h.loaded.exec env t
  by_cases hj : j = t
  · subst hj
    have hφ := h.assured
    generalize hold : φ j = b₀ at hs
    cases hs with
    | ready hspares =>
      refine ⟨hloaded, ?_, ?_⟩
      · rw [Function.update_self, ← hold, hφ]
      · intro ev' hev
        rcases List.mem_cons.mp hev with he | hev
        · cases he
          exact hspares
        · exact h.spares ev' hev
    | unready hnot =>
      obtain ⟨hflag, hmodel⟩ := h.loaded
      rcases hnot with hnot | hnot
      · rw [hnot] at hflag
        cases hflag
      · rw [hnot] at hmodel
        cases hmodel
    | lost =>
      rw [hφ] at hold
      cases hold
  · refine ⟨hloaded, ?_, ?_⟩
    · rw [Function.update_of_ne hj]
      exact h.assured
    · intro ev' hev
      rcases List.mem_cons.mp hev with he | hev
      · exact absurd (congrArg Prod.fst he) hj
      · exact h.spares ev' hev

variable (env web) in
/-- A thread that has not had a turn. -/
theorem Process.idle {j : Thread} (entries : Nat → EntryPoint) {sched : List (Thread × Option Exc)}
    (h : ∀ e ∈ sched, e.1 ≠ j) :
    (Process.interleave env web entries sched).threads j = j.program web entries ∧
      ∀ ev, (j, ev) ∉ (Process.interleave env web entries sched).log := by
  refine ⟨Pool.threads_of_idle h, fun ev hev => ?_⟩
  rcases Pool.pre_of_mem hev with hev | ⟨n, hn, -⟩
  · cases hev
  · exact h _ (List.mem_of_getElem? hn) rfl

/-- The invariant of a thread that begins when the embedder is loaded. -/
theorem Process.late (entries : Nat → EntryPoint) {sched : List (Thread × Option Exc)} {j : Nat}
    (hj : ∀ e ∈ sched, e.1 ≠ .caller j)
    (hloaded : (Process.interleave env web entries sched).state.Loaded)
    (sched' : List (Thread × Option Exc)) :
    ∃ φ, Pool.Holds (ProcessOp.execGenuine env) (fun _ => Assured)
      (fun t b r => b = true → t = .caller j → r.embedder_loaded ≠ some false)
      (fun _ _ _ => True) (Late (.caller j))
      ((Process.interleave env web entries sched).run (ProcessOp.execGenuine env) sched') φ := by
  obtain ⟨hthread, hlog⟩ := Process.idle env web entries hj
  have hlate : Late (.caller j) (Process.interleave env web entries sched).log
      (Process.interleave env web entries sched).state fun t => decide (t = .caller j) :=
    ⟨hloaded, decide_eq_true rfl, fun ev hev => absurd hev (hlog ev)⟩
  refine Pool.run_rule (fun hI hs _ => hI.step hs) ⟨hlate, fun t => ?_⟩ sched' (Obeys.trivial _)
  by_cases ht : t = .caller j
  · subst ht
    rw [hthread, decide_eq_true rfl]
    exact (entries j).assures.mono (fun b r h hb _ => h hb) fun _ _ => id
  · rw [decide_eq_false ht]
    have hlost {b : Bool} {r : ProcessReply} (_ : b = true → True) (_ : b = true)
        (he : t = .caller j) : r.embedder_loaded ≠ some false := absurd he ht
    exact sim_lost.mono (fun _ _ => hlost) fun _ _ => id

/-- **A server that is ready stays ready.** However the threads of a process are interleaved and
whatever fails, at most one warm-up is started, which sets the flag unless a call of it fails; and
once a probe has said that the embedder is loaded, a thread that begins afterwards does not load the
model and, if it is a probe, does not say that the embedder is not loaded. -/
theorem readiness_stable (env : Env) (web : Web) (entries : Nat → EntryPoint)
    (sched sched' : List (Thread × Option Exc))
    (h : Obeys Scheduled (Process.interleave env web entries (sched ++ sched')).log) :
    let p := Process.interleave env web entries sched
    let q := Process.interleave env web entries (sched ++ sched')
    q.state.warmups ≤ 1 ∧
      (∀ n r, q.threads (.warmup n) = .pure r →
        q.state.loaded = true ∨
          ∃ ev e, (.warmup n, ev) ∈ q.log ∧ ev.Failed (ProcessOp.exec env (.warmup n)) e) ∧
      ∀ i r, p.threads (.caller i) = .pure r → r.embedder_loaded = some true →
        q.state.warmups = 1 ∧ ∀ j, (∀ e ∈ sched, e.1 ≠ .caller j) →
          (∀ r', q.threads (.caller j) = .pure r' → r'.embedder_loaded ≠ some false) ∧
            ∀ ev, (.caller j, ev) ∈ q.log → ev.op ≠ .load .model := by
  intro p q
  obtain ⟨φ, hφ⟩ := Process.warmed entries (sched ++ sched') h
  obtain ⟨claimant, hsound, hfits⟩ := hφ.inv.sound
  have hq : q = p.run (ProcessOp.execGenuine env) sched' := by
    change Process.interleave env web entries (sched ++ sched') =
      (Process.interleave env web entries sched).run (ProcessOp.execGenuine env) sched'
    rw [Process.interleave_eq, Process.interleave_eq, Pool.run_append]
  refine ⟨hsound.warmups, fun n r hr => ?_, fun i r hr hready => ?_⟩
  · -- the warm-up is done
    have hended := hφ.sim (.warmup n)
    rw [hr] at hended
    rcases hended with hsure | hfailed
    · have hloaded := hfits (.warmup n)
      rw [hsure] at hloaded
      exact .inl hloaded
    · exact .inr (hφ.inv.failed _ hfailed)
  · -- the probe was sure when it was answered
    have hbefore : Obeys Scheduled p.log := by
      obtain ⟨new, hnew⟩ := p.log_suffix (ProcessOp.execGenuine env) sched'
      rw [← hq] at hnew
      have hall : Obeys Scheduled q.log := h
      rw [hnew] at hall
      exact hall.of_append
    obtain ⟨ψ, hψ⟩ := Process.warmed entries sched hbefore
    obtain ⟨claimant', hsound', hfits'⟩ := hψ.inv.sound
    have hended := hψ.sim (.caller i)
    rw [hr] at hended
    have hloaded : p.state.loaded = true := by
      have hfits := hfits' (.caller i)
      rw [hended hready] at hfits
      exact hfits
    obtain ⟨hcached, hone⟩ := hsound'.loaded hloaded
    refine ⟨?_, fun j hj => ?_⟩
    · have hstill : q.state.Loaded := by
        rw [hq]
        exact Pool.run_state (p := p) Process.Loaded (fun t _ _ _ h => h.exec env t) sched'
          ⟨hloaded, hcached⟩
      exact (hsound.loaded hstill.1).2
    · obtain ⟨b, hb⟩ := Process.late entries hj ⟨hloaded, hcached⟩ sched'
      rw [← hq] at hb
      refine ⟨fun r' hr' => ?_, fun ev hev hop => ?_⟩
      · have hend := hb.sim (.caller j)
        rw [hr'] at hend
        exact hend hb.inv.assured rfl
      · have hspares := hb.inv.spares ev hev
        rw [hop] at hspares
        cases hspares

/-- A server that starts its warm-up, probed before and after it, and a search. -/
def Sample.entryPoints : Nat → EntryPoint
  | 0 => .ready none ["gunicorn", "config.wsgi"]
  | 1 => .healthz
  | 2 => .healthCheck
  | _ => .embedQuery "hello"

/-- The server starts its warm-up, which ends, and the first probe is answered. -/
def Sample.warming : List (Thread × Option Exc) :=
  List.replicate 5 (.caller 0, none) ++ List.replicate 5 (.warmup 0, none) ++
    List.replicate 3 (.caller 1, none)

/-- The other probe cannot reach Qdrant, and a text is embedded. -/
def Sample.warmed : List (Thread × Option Exc) :=
  [(.caller 2, none), (.caller 2, some (.raised "ConnectError" "")), (.caller 3, none),
    (.caller 3, none)]

/-- The thread is done, and says that the embedder is loaded. -/
def Sample.saysLoaded : ProcessProgram ProcessReply → Bool
  | .pure r => r.embedder_loaded = some true
  | _ => false

theorem Sample.exists_of_saysLoaded {q : ProcessProgram ProcessReply}
    (h : saysLoaded q = true) : ∃ r, q = .pure r ∧ r.embedder_loaded = some true := by
  cases q with
  | pure r => exact ⟨r, rfl, of_decide_eq_true h⟩
  | throw e => cases h
  | call o k => cases h

theorem readiness_stable_served :
    let q := Process.interleave Sample.env Sample.web Sample.entryPoints
      (Sample.warming ++ Sample.warmed)
    q.state.warmups = 1 ∧
      (∀ r, q.threads (.caller 2) = .pure r → r.embedder_loaded ≠ some false) ∧
      ∀ ev, (.caller 3, ev) ∈ q.log → ev.op ≠ .load .model := by
  intro q
  have hsched : Obeys Scheduled q.log := by decide +kernel
  obtain ⟨r, hr, hready⟩ : ∃ r, (Process.interleave Sample.env Sample.web Sample.entryPoints
      Sample.warming).threads (.caller 1) = .pure r ∧ r.embedder_loaded = some true :=
    Sample.exists_of_saysLoaded (by decide +kernel)
  obtain ⟨-, -, hprobe⟩ := readiness_stable Sample.env Sample.web Sample.entryPoints
    Sample.warming Sample.warmed hsched
  obtain ⟨hone, hlate⟩ := hprobe 1 r hr hready
  exact ⟨hone, (hlate 2 (by decide)).1, (hlate 3 (by decide)).2⟩

end QdrantRag
