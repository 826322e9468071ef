import QdrantRag.Effect.Only
import QdrantRag.Effect.Sim
import QdrantRag.Model.Warmup

/-! # The objects in the caches

However the threads of a process are interleaved, its caches hold nothing but what the cached
functions return (`Process.genuine_interleave`): a thread stores only what it has loaded. So a run
is one in which a cache that is filled answers with the loaded object
(`Process.interleave_eq`). -/

namespace QdrantRag
open Effect Effect.Prog

variable {env : Env} {web : Web} {t : Thread} {α β : Type}

/-! ## Calls that are not about the embedder -/

/-- The call is not about a cached function or its object. -/
def ProcessOp.plain : ProcessOp → Bool
  | .lookUp _ | .load _ | .store _ _ | .encode _ _ | .tokenize _ _ => false
  | _ => true

/-- The program makes plain calls only. -/
abbrev Plain (p : ProcessProgram α) : Prop := p.Only fun o => o.plain = true

section Only
variable {S : ProcessOp → Prop}

theorem only_pingPostgres (h : S .selectOne) : (pingPostgres web).Only S := by
  refine Only.tryCatch (Only.bind (only_perform h) fun _ => ?_) fun e => ?_
  · trivial
  · exact Only.ite (fun _ => trivial) fun _ => trivial

theorem only_pingQdrant (h : S .getCollections) : (pingQdrant web).Only S := by
  refine Only.tryCatch (Only.bind (only_perform h) fun _ => ?_) fun e => ?_
  · trivial
  · exact Only.ite (fun _ => trivial) fun _ => trivial

end Only

theorem plain_startWarmupInBackground : Plain startWarmupInBackground := by
  have hclaim : Plain claimWarmup := by
    refine Only.bind (only_perform rfl) fun _ => Only.tryFinally ?_ (only_perform rfl)
    refine Only.bind (only_perform rfl) fun started => ?_
    cases started with
    | true => trivial
    | false => exact Only.bind (only_perform rfl) fun _ => trivial
  refine Only.bind hclaim fun started => ?_
  cases started with
  | true => trivial
  | false => exact only_perform rfl

theorem plain_ready {skip : Option String} {argv : List String} :
    Plain (IngestionConfig.ready skip argv) :=
  Only.ite (fun _ => plain_startWarmupInBackground) fun _ => trivial

theorem plain_healthz : Plain (healthz web) :=
  Only.bind (only_pingPostgres rfl) fun _ => Only.bind (only_pingQdrant rfl) fun _ =>
    Only.bind (only_perform rfl) fun _ => trivial

theorem plain_healthCheck : Plain VectorSearchService.HealthCheck :=
  Only.bind (only_perform rfl) fun _ =>
    Only.bind (Only.tryCatch (Only.bind (only_perform rfl) fun _ => trivial) fun _ => trivial)
      fun _ => trivial

/-! ## What is stored -/

/-- The caches hold what the cached functions return. -/
def Process.Genuine (env : Env) (s : Process) : Prop :=
  ∀ c object, s.cached c = some object → object = env.object c

/-- The call stores nothing but that. -/
def ProcessOp.Genuine (env : Env) : ProcessOp → Prop
  | .store c object => object = env.object c
  | _ => True

theorem Process.Genuine.store {s : Process} {c : Cached} (h : s.Genuine env) :
    (s.store c (env.object c)).Genuine env := by
  intro k object hobject
  by_cases hk : k = c
  · subst hk
    rw [store_cached_self, Option.or_eq_some_iff] at hobject
    rcases hobject with hobject | ⟨-, hobject⟩
    · exact h k object hobject
    · exact (Option.some.inj hobject).symm
  · rw [store_cached_of_ne hk] at hobject
    exact h k object hobject

theorem ProcessOp.Genuine.exec {o : ProcessOp} {c : Option Exc} {s : Process}
    (ho : o.Genuine env) (h : s.Genuine env) : (ProcessOp.exec env t o c s).2.Genuine env := by
  cases o with
  | store k object =>
    obtain rfl : object = env.object k := ho
    exact h.store
  | startThread => cases c <;> exact h
  | _ => exact h

/-- Whatever the caches held, the program stores only what it has loaded. -/
abbrev StoresLoaded (env : Env) (t : Thread) (p : ProcessProgram α) : Prop :=
  p.Sim (ProcessOp.exec env t) (fun _ ev _ => ev.op.Genuine env) (fun _ _ => True)
    (fun _ _ => True) ()

theorem StoresLoaded.bind {p : ProcessProgram β} {f : β → ProcessProgram α}
    (hp : StoresLoaded env t p) (hf : ∀ b, StoresLoaded env t (f b)) :
    StoresLoaded env t (p >>= f) :=
  sim_do.mpr (hp.mono (fun _ b _ => hf b) fun _ _ => id)

theorem storesLoaded_return {a : α} : StoresLoaded env t (Pure.pure a) := trivial

theorem storesLoaded_call {o : ProcessOp} (h : o.Genuine env) :
    StoresLoaded env t (processCall o) := by
  refine sim_perform.mpr fun c s => ⟨(), h, ?_⟩
  cases (ProcessOp.exec env t o c s).1 <;> trivial

theorem Plain.storesLoaded {p : ProcessProgram α} (h : Plain p) : StoresLoaded env t p := by
  induction p with
  | pure a => trivial
  | throw e => trivial
  | call o k ih =>
    refine fun c s => ⟨(), ?_, ih _ (h.2 _)⟩
    cases o with
    | store c object => cases h.1
    | _ => trivial

theorem storesLoaded_callCached {c : Cached} :
    StoresLoaded env t (Embedder.callCached c) := by
  refine StoresLoaded.bind (storesLoaded_call trivial) fun hit => ?_
  cases hit with
  | some object => trivial
  | none =>
    refine sim_do.mpr ((sim_perform (o := ProcessOp.load c)).mpr fun failure s => ⟨(), trivial, ?_⟩)
    cases failure with
    | none => exact StoresLoaded.bind (storesLoaded_call rfl) fun _ => trivial
    | some e => trivial

theorem storesLoaded_embedPassages {texts : List String} :
    StoresLoaded env t (Embedder.embedPassages texts) := by
  refine StoresLoaded.bind (sim_ofExcept.mpr ⟨fun _ _ => trivial, fun _ _ => trivial⟩) fun _ => ?_
  exact storesLoaded_callCached.bind fun model => storesLoaded_call trivial

theorem storesLoaded_embedQuery {text : String} :
    StoresLoaded env t (Embedder.embedQuery text) := by
  refine Sim.ite (fun _ => trivial) fun _ => storesLoaded_embedPassages.bind fun out => ?_
  cases out <;> trivial

theorem EntryPoint.storesLoaded (entry : EntryPoint) :
    StoresLoaded env t (entry.program web) := by
  cases entry with
  | ready skip argv => exact plain_ready.storesLoaded.bind fun _ => storesLoaded_return
  | healthz => exact plain_healthz.storesLoaded.bind fun _ => storesLoaded_return
  | healthCheck => exact plain_healthCheck.storesLoaded.bind fun _ => storesLoaded_return
  | countTokens text =>
    have hcount : StoresLoaded env t (Embedder.countTokens text) :=
      Sim.ite (fun _ => storesLoaded_return) fun _ =>
        storesLoaded_callCached.bind fun tokenizer => storesLoaded_call trivial
    exact hcount.bind fun _ => storesLoaded_return
  | embedPassages texts => exact storesLoaded_embedPassages.bind fun _ => storesLoaded_return
  | embedQuery text => exact storesLoaded_embedQuery.bind fun _ => storesLoaded_return
  | warmup =>
    have hwarmup : StoresLoaded env t Embedder.warmup :=
      storesLoaded_callCached.bind fun _ =>
        storesLoaded_callCached.bind fun _ => storesLoaded_return
    exact hwarmup.bind fun _ => storesLoaded_return

theorem storesLoaded_doWarmup : StoresLoaded env t doWarmup := by
  refine sim_tryCatch.mpr (sim_do.mpr (storesLoaded_embedQuery.mono ?_ fun _ _ _ => trivial))
  have hset : StoresLoaded env t (processCall .setLoaded) := storesLoaded_call trivial
  exact fun _ _ _ => hset.mono (fun _ _ => id) fun _ _ _ => trivial

theorem Thread.storesLoaded (entries : Nat → EntryPoint) :
    StoresLoaded env t (t.program web entries) := by
  cases t with
  | caller n => exact (entries n).storesLoaded
  | warmup n => exact storesLoaded_doWarmup.bind fun _ => storesLoaded_return

/-! ## Every moment of a run -/

variable (env web) in
/-- The caches hold nothing but what the cached functions return. -/
theorem Process.genuine_interleave (entries : Nat → EntryPoint)
    (sched : List (Thread × Option Exc)) :
    (Process.interleave env web entries sched).state.Genuine env := by
  have hstart : Pool.Holds (ProcessOp.exec env) (fun _ _ ev _ => ev.op.Genuine env)
      (fun _ _ _ => True) (fun _ _ _ => True) (fun _ s _ => s.Genuine env)
      (Pool.start .fresh (Thread.program web entries)) fun _ => () :=
    ⟨(fun _ _ h => nomatch h), fun t => t.storesLoaded entries⟩
  obtain ⟨φ, hφ⟩ := Pool.run_rule (fun hs ho _ => ho.exec hs) hstart sched (Obeys.trivial _)
  exact hφ.inv

/-- The calls where a cache that is filled answers with what loading gives. -/
def ProcessOp.execGenuine (env : Env) (t : Thread) : Exec ProcessAns Exc (Option Exc) Process
  | .lookUp c, _, s => (.ok ((s.cached c).map fun _ => env.object c), s)
  | o, failure, s => ProcessOp.exec env t o failure s

theorem Process.Genuine.exec_eq {s : Process} (h : s.Genuine env) (o : ProcessOp)
    (c : Option Exc) : ProcessOp.exec env t o c s = ProcessOp.execGenuine env t o c s := by
  cases o with
  | lookUp k =>
    cases hk : s.cached k with
    | none => simp only [ProcessOp.exec, ProcessOp.execGenuine, hk, Option.map_none]
    | some object =>
      obtain rfl := h k object hk
      simp only [ProcessOp.exec, ProcessOp.execGenuine, hk, Option.map_some]
  | _ => rfl

/-- A call fails with the same exception either way. -/
theorem failed_of_genuine {ev : ProcessCall} {e : Exc}
    (h : ev.Failed (ProcessOp.execGenuine env t) e) : ev.Failed (ProcessOp.exec env t) e := by
  obtain ⟨o, c, s⟩ := ev
  cases o with
  | lookUp k => cases h
  | _ => exact h

/-- **What is cached is what was loaded.** -/
theorem Process.interleave_eq (entries : Nat → EntryPoint) (sched : List (Thread × Option Exc)) :
    Process.interleave env web entries sched =
      (Pool.start .fresh (Thread.program web entries)).run (ProcessOp.execGenuine env) sched :=
  Pool.run_congr (Process.Genuine env) (Process.genuine_interleave env web entries)
    (fun _ o c _ h => h.exec_eq o c) sched

end QdrantRag
