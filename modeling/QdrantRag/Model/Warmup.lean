import QdrantRag.Model.Views

/-! # The process of a server

`apps/ingestion/_warmup.py` with what starts it in `apps/ingestion/apps.py`, the cached functions of
`apps/ingestion/embedder.py`, and the probes: `healthz` of `apps/core/views.py` and `HealthCheck` of
`apps/grpc_service/handler.py`. The threads of a process share its module variables and the caches
of `lru_cache`, with the objects in them (`Process`); they reach them, the loaded objects and the
stores through the calls `ProcessOp`. -/

namespace QdrantRag
open Effect Effect.Prog Text

/-! ## What the threads share -/

/-- A thread: one the server runs, or the `n`-th that `t.start()` has started. -/
inductive Thread
  | caller (n : Nat)
  | warmup (n : Nat)
  deriving DecidableEq

/-- The functions under `lru_cache(maxsize=1)`, which have no argument. -/
inductive Cached
  | model | tokenizer
  deriving DecidableEq

structure BGEM3FlagModel where
  encode : List String → List Embedding

structure Tokenizer where
  /-- `len(self.encode(text, add_special_tokens=False))` -/
  len : String → Nat

/-- What the function returns. -/
@[reducible] def Cached.Object : Cached → Type
  | .model => BGEM3FlagModel
  | .tokenizer => Tokenizer

/-- The object that `settings.BGE` names. -/
def Env.object (env : Env) : (c : Cached) → c.Object
  | .model => ⟨fun texts => texts.map env.encode⟩
  | .tokenizer => ⟨env.tokenizer_len⟩

structure Process where
  /-- The thread in `with _LOCK`. -/
  lock : Option Thread
  /-- `_WARMUP_STARTED` -/
  started : Bool
  /-- `_EMBEDDER_LOADED` -/
  loaded : Bool
  /-- What the caches hold. -/
  cached : (c : Cached) → Option c.Object
  /-- How many threads `t.start()` has started. -/
  warmups : Nat

/-- The process when its modules have been imported. -/
def Process.fresh : Process := ⟨none, false, false, fun _ => none, 0⟩

/-- Keeping what a function under `lru_cache` has returned. A cache that another thread has filled
meanwhile keeps what it holds. -/
def Process.store (s : Process) (c : Cached) (object : c.Object) : Process :=
  { s with cached := Function.update s.cached c ((s.cached c).or (some object)) }

section Store
variable {s : Process} {c : Cached} {object : c.Object}

theorem Process.store_cached_self :
    (s.store c object).cached c = (s.cached c).or (some object) := Function.update_self ..

theorem Process.store_cached_of_ne {k : Cached} (h : k ≠ c) :
    (s.store c object).cached k = s.cached k := Function.update_of_ne h ..

/-- The cache is filled, and no other is emptied. -/
theorem Process.store_isSome {k : Cached} (h : k = c ∨ (s.cached k).isSome = true) :
    ((s.store c object).cached k).isSome = true := by
  by_cases hk : k = c
  · subst hk
    rw [store_cached_self, Option.isSome_or, Option.isSome_some, Bool.or_true]
  · rw [store_cached_of_ne hk]
    exact h.resolve_left hk

end Store

inductive ProcessOp
  /-- Entering `with _LOCK`. -/
  | acquire
  /-- Leaving it. -/
  | release
  | started
  | setStarted
  /-- `t.start()` -/
  | startThread
  | loaded
  | setLoaded
  /-- What the cache of the function holds. -/
  | lookUp (c : Cached)
  /-- Calling the function itself. -/
  | load (c : Cached)
  /-- Keeping what it has returned. -/
  | store (c : Cached) (object : c.Object)
  /-- `model.encode(texts, ...)` -/
  | encode (model : BGEM3FlagModel) (texts : List String)
  /-- `len(tokenizer.encode(text, add_special_tokens=False))` -/
  | tokenize (tokenizer : Tokenizer) (text : String)
  /-- `SELECT 1` -/
  | selectOne
  | getCollections

@[reducible] def ProcessAns : ProcessOp → Type
  | .started | .loaded => Bool
  | .lookUp c => Option c.Object
  | .load c => c.Object
  | .encode .. => List Embedding
  | .tokenize .. => Nat
  | _ => Unit

/-- What a call gives: `a`, or the exception it fails with. -/
def orRaise {α : Type} (a : α) : Option Exc → Except Exc α
  | none => .ok a
  | some e => .error e

/-- What the calls of the thread `t` do. The environment chooses the exception of a call that fails,
if it is one that can. -/
def ProcessOp.exec (env : Env) (t : Thread) : Exec ProcessAns Exc (Option Exc) Process
  | .acquire, _, s => (.ok (), { s with lock := some t })
  | .release, _, s => (.ok (), { s with lock := none })
  | .started, _, s => (.ok s.started, s)
  | .setStarted, _, s => (.ok (), { s with started := true })
  | .startThread, none, s => (.ok (), { s with warmups := s.warmups + 1 })
  | .startThread, some e, s => (.error e, s)
  | .loaded, _, s => (.ok s.loaded, s)
  | .setLoaded, _, s => (.ok (), { s with loaded := true })
  | .lookUp c, _, s => (.ok (s.cached c), s)
  | .load c, failure, s => (orRaise (env.object c) failure, s)
  | .store c object, _, s => (.ok (), s.store c object)
  | .encode model texts, failure, s => (orRaise (model.encode texts) failure, s)
  | .tokenize tokenizer text, failure, s => (orRaise (tokenizer.len text) failure, s)
  | .selectOne, failure, s => (orRaise () failure, s)
  | .getCollections, failure, s => (orRaise () failure, s)

abbrev ProcessCall := Event ProcessOp (Option Exc) Process

abbrev ProcessProgram := Prog ProcessAns Exc

abbrev processCall (o : ProcessOp) : ProcessProgram (ProcessAns o) := perform o

/-! ## The embedder -/

namespace Embedder

/-- A call of a function under `lru_cache`. -/
def callCached (c : Cached) : ProcessProgram c.Object := do
  let hit : Option c.Object ← processCall (.lookUp c)
  match hit with
  | some object => return object
  | none => do
    let object : c.Object ← processCall (.load c)
    processCall (.store c object)
    return object

def getModel : ProcessProgram BGEM3FlagModel := callCached .model

def getTokenizer : ProcessProgram Tokenizer := callCached .tokenizer

def countTokens (text : String) : ProcessProgram Nat :=
  if text = "" then return 0
  else do
    let tokenizer ← getTokenizer
    processCall (.tokenize tokenizer text)

def embedPassages (texts : List String) : ProcessProgram (List Embedding) := do
  ofExcept (checkTexts texts)
  let model ← getModel
  processCall (.encode model texts)

def embedQuery (text : String) : ProcessProgram Embedding :=
  if strip text = "" then .throw (.raised "ValueError" "embed_query requires a non-empty string")
  else do
    let out ← embedPassages [text]
    match out with
    | e :: _ => return e
    | [] => .throw (.raised "IndexError" "list index out of range")

def warmup : ProcessProgram Unit := do
  let _ ← getModel
  let _ ← getTokenizer
  return ()

end Embedder

/-! ## The warm-up -/

/-- What the thread runs. -/
def doWarmup : ProcessProgram Unit :=
  (do
    let _ ← Embedder.embedQuery "warmup"
    processCall .setLoaded).tryCatch fun _ => return ()

/-- Under the lock: whether the warm-up has been started before. It counts as started from here
on. -/
def claimWarmup : ProcessProgram Bool := do
  processCall .acquire
  (do
    let started : Bool ← processCall .started
    if started then return true
    else do
      processCall .setStarted
      return false).tryFinally (processCall .release)

def startWarmupInBackground : ProcessProgram Unit := do
  let started ← claimWarmup
  if started then return ()
  else processCall .startThread

/-- `s.endswith(suffix)` -/
def endsWith (s suffix : String) : Bool := suffix.toList.isSuffixOf s.toList

/-- `_should_warm_embedder`, of `DJANGO_SKIP_WARMUP` and `sys.argv`. -/
def shouldWarmEmbedder (skip : Option String) (argv : List String) : Bool :=
  let argv0 := (argv.headD "").toLower
  if (strip (skip.getD "")).toLower ∈ ["1", "true", "yes", "on"] then false
  else if Within "pytest" argv0 ∨ endsWith argv0 "/pytest" then false
  else if endsWith argv0 "/celery" || endsWith argv0 "celery" then false
  else if endsWith argv0 "manage.py" && argv[1]?.any (· != "runserver") then false
  else true

def IngestionConfig.ready (skip : Option String) (argv : List String) : ProcessProgram Unit :=
  if shouldWarmEmbedder skip argv then startWarmupInBackground else return ()

/-! ## The probes -/

/-- `_VERSION`, and `VERSION` of the gRPC service. -/
def serviceVersion : String := "0.1.0-dev"

/-- The body of a response of `healthz`. -/
structure Health where
  status : String
  version : String
  postgres : String
  qdrant : String
  embedder : String
  embedder_loaded : Bool

structure HealthResponse where
  status : Nat
  body : Health

def pingPostgres (web : Web) : ProcessProgram String :=
  (do
    processCall .selectOne
    return "ok").tryCatch fun exc =>
      if exc.typeName = "TimeoutError" then return "error: timeout after 2s"
      else return "error: " ++ exc.typeName ++ ": " ++ takeChars (exc.str web.repr) 120

def classifyQdrantError (web : Web) (exc : Exc) : String :=
  let msg := (exc.str web.repr).toLower
  if Within "401" msg ∨ Within "unauthorized" msg ∨ Within "authentication" msg then
    "error: unauthorized — check QDRANT_API_KEY"
  else if Within "unauthenticated" msg then "error: unauthorized — check QDRANT_API_KEY"
  else "error: unreachable — " ++ exc.typeName

def pingQdrant (web : Web) : ProcessProgram String :=
  (do
    processCall .getCollections
    return "ok").tryCatch fun exc =>
      if exc.typeName = "TimeoutError" then return "error: timeout after 2s"
      else return classifyQdrantError web exc

/-- The response to what the pings and the flag say. -/
def healthResponse (pg qd : String) (embedder_ready : Bool) : HealthResponse :=
  let all_ok := pg = "ok" ∧ qd = "ok" ∧ embedder_ready = true
  { status := if all_ok then 200 else 503
    body :=
      { status :=
          if all_ok then "ok" else if pg = "ok" ∧ qd = "ok" then "warming" else "degraded"
        version := serviceVersion
        postgres := pg
        qdrant := qd
        embedder := if embedder_ready then "ok" else "warming"
        embedder_loaded := embedder_ready } }

def healthz (web : Web) : ProcessProgram HealthResponse := do
  let pg ← pingPostgres web
  let qd ← pingQdrant web
  let embedder_ready : Bool ← processCall .loaded
  return healthResponse pg qd embedder_ready

structure HealthCheckResponse where
  qdrant_ok : Bool
  embedder_loaded : Bool
  version : String

def VectorSearchService.HealthCheck : ProcessProgram HealthCheckResponse := do
  let embedder_loaded : Bool ← processCall .loaded
  let qdrant_ok ← (do
    processCall .getCollections
    return true : ProcessProgram Bool).tryCatch fun _ => return false
  return ⟨qdrant_ok, embedder_loaded, serviceVersion⟩

/-! ## Threads side by side -/

/-- What a thread of the server calls. -/
inductive EntryPoint
  | ready (skip : Option String) (argv : List String)
  | healthz
  | healthCheck
  | countTokens (text : String)
  | embedPassages (texts : List String)
  | embedQuery (text : String)
  | warmup

inductive ProcessReply
  | none
  | health (response : HealthResponse)
  | check (response : HealthCheckResponse)
  | tokens (n : Nat)
  | embeddings (out : List Embedding)

def EntryPoint.program (web : Web) : EntryPoint → ProcessProgram ProcessReply
  | .ready skip argv => do
    IngestionConfig.ready skip argv
    return .none
  | .healthz => do
    let response ← QdrantRag.healthz web
    return .health response
  | .healthCheck => do
    let response ← VectorSearchService.HealthCheck
    return .check response
  | .countTokens text => do
    let n ← Embedder.countTokens text
    return .tokens n
  | .embedPassages texts => do
    let out ← Embedder.embedPassages texts
    return .embeddings out
  | .embedQuery text => do
    let e ← Embedder.embedQuery text
    return .embeddings [e]
  | .warmup => do
    Embedder.warmup
    return .none

/-- Whether a probe says that the embedder is loaded. -/
def ProcessReply.embedder_loaded : ProcessReply → Option Bool
  | .health response => some response.body.embedder_loaded
  | .check response => some response.embedder_loaded
  | _ => Option.none

/-- What each thread runs. -/
def Thread.program (web : Web) (entries : Nat → EntryPoint) : Thread → ProcessProgram ProcessReply
  | .caller n => (entries n).program web
  | .warmup _ => do
    doWarmup
    return .none

/-- The threads of a fresh process, interleaved call by call. -/
def Process.interleave (env : Env) (web : Web) (entries : Nat → EntryPoint)
    (sched : List (Thread × Option Exc)) :
    Pool Thread ProcessAns Exc ProcessReply (Option Exc) Process :=
  (Pool.start .fresh (Thread.program web entries)).run (ProcessOp.exec env) sched

instance (o : ProcessOp) : Decidable (o = .acquire) :=
  match o with
  | .acquire => isTrue rfl
  | .release | .started | .setStarted | .startThread | .loaded | .setLoaded | .lookUp _ | .load _
  | .store _ _ | .encode _ _ | .tokenize _ _ | .selectOne | .getCollections => isFalse nofun

/-- What the scheduler sees to: a lock that is taken is not entered, and a thread runs once it has
been started. -/
def Scheduled (_ : List (Thread × ProcessCall)) (t : Thread) (ev : ProcessCall) : Prop :=
  (ev.op = .acquire → ev.pre.lock = none) ∧
    match t with
    | .caller _ => True
    | .warmup n => n < ev.pre.warmups

instance (log : List (Thread × ProcessCall)) (t : Thread) (ev : ProcessCall) :
    Decidable (Scheduled log t ev) :=
  match t with
  | .caller _ => inferInstanceAs (Decidable (_ ∧ True))
  | .warmup _ => inferInstanceAs (Decidable (_ ∧ _ < _))

end QdrantRag
