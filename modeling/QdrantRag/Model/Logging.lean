import Mathlib.Data.Rat.Floor
import QdrantRag.Data.Text
import QdrantRag.Effect.Only
import QdrantRag.Model.Values

/-! # Log context

`apps/core/middleware.py`, with the processor of `apps/core/logging.py` and the phases of
`apps/core/timing.py`. What a thread keeps in context variables (`Context`) is reached through the
calls `LogOp`; a log event is such a call, made on the context it is logged in. -/

namespace QdrantRag
open Effect Effect.Prog Text

/-! ## Context variables -/

inductive ContextKey
  | request_id | tenant_id | bot_id | doc_id
  deriving DecidableEq

/-- The name of the variable, and of its field in log events. -/
def ContextKey.name : ContextKey → String
  | .request_id => "request_id"
  | .tenant_id => "tenant_id"
  | .bot_id => "bot_id"
  | .doc_id => "doc_id"

/-- What a `ContextVar[str | None]` holds: it may not be set, or set to `None`. -/
abbrev VarValue := Option (Option String)

/-- The context of a thread. -/
structure Context where
  vars : ContextKey → VarValue
  phase_durations : Option (List (String × Rat))

namespace Context

/-- `var.get()`, with the default `None`. -/
def get (s : Context) (key : ContextKey) : Option String := (s.vars key).getD none

def setVar (s : Context) (key : ContextKey) (held : VarValue) : Context :=
  { s with vars := Function.update s.vars key held }

end Context

/-! ## Log events -/

/-- The fields of a log event. -/
abbrev EventDict := List (String × PyValue)

/-- `d.setdefault(key, val)` -/
def EventDict.setdefault (d : EventDict) (key : String) (val : PyValue) : EventDict :=
  match d.lookup key with
  | some _ => d
  | none => d ++ [(key, val)]

def ContextKey.all : List ContextKey := [request_id, tenant_id, bot_id, doc_id]

/-- `_request_context_processor` -/
def requestContextProcessor (s : Context) (event_dict : EventDict) : EventDict :=
  ContextKey.all.foldl
    (fun event_dict key =>
      match s.get key with
      | some val => event_dict.setdefault key.name (.str val)
      | none => event_dict)
    event_dict

/-! ## The calls -/

inductive LogOp
  /-- `var.set(value)`, which gives a token. -/
  | set (key : ContextKey) (value : Option String)
  /-- `var.reset(token)`: the token is what the variable held before. -/
  | reset (key : ContextKey) (token : VarValue)
  | get (key : ContextKey)
  /-- `logger.log(event, extra=...)`, at any level. -/
  | log (logger event : String) (extra : EventDict)
  | uuid4
  | monotonic
  | resetPhaseDurations
  /-- Reading the dict that `reset_phase_durations` returned. -/
  | phaseDurations
  /-- What `timer` writes. -/
  | recordPhase (phase : String) (milliseconds : Rat)
  | recordHttpRequest (method endpoint : String) (status_code : Nat) (duration_seconds : Rat)
  | recordPipelinePhase (phase : String) (duration_seconds : Rat)

@[reducible] def LogAns : LogOp → Type
  | .set .. => VarValue
  | .reset .. => Unit
  | .get _ => Option String
  | .log .. => Unit
  | .uuid4 => String
  | .monotonic => Rat
  | .resetPhaseDurations => Unit
  | .phaseDurations => List (String × Rat)
  | .recordPhase .. => Unit
  | .recordHttpRequest .. => Unit
  | .recordPipelinePhase .. => Unit

/-- What lies outside at a call: the id that is drawn, the clock, and whether a recorder raises. -/
structure Reading where
  uuid : String
  clock : Rat
  failure : Option Exc

/-- What a recorder gives. -/
def Reading.recorded (r : Reading) : Except Exc Unit :=
  match r.failure with
  | none => .ok ()
  | some e => .error e

/-- `d[key] = value` -/
def setItem (d : List (String × Rat)) (key : String) (value : Rat) : List (String × Rat) :=
  if d.any (·.1 == key) then d.map fun item => if item.1 = key then (key, value) else item
  else d ++ [(key, value)]

def LogOp.exec : Exec LogAns Exc Reading Context
  | .set key value, _, s => (.ok (s.vars key), s.setVar key (some value))
  | .reset key token, _, s => (.ok (), s.setVar key token)
  | .get key, _, s => (.ok (s.get key), s)
  | .log .., _, s => (.ok (), s)
  | .uuid4, r, s => (.ok r.uuid, s)
  | .monotonic, r, s => (.ok r.clock, s)
  | .resetPhaseDurations, _, s => (.ok (), { s with phase_durations := some [] })
  | .phaseDurations, _, s => (.ok (s.phase_durations.getD []), s)
  | .recordPhase phase milliseconds, _, s =>
    (.ok (), { s with phase_durations := s.phase_durations.map (setItem · phase milliseconds) })
  | .recordHttpRequest .., r, s => (r.recorded, s)
  | .recordPipelinePhase .., r, s => (r.recorded, s)

abbrev LogCall := Event LogOp Reading Context

/-- What runs in a thread, as far as its context goes. -/
abbrev LogProgram := Prog LogAns Exc

abbrev logCall (o : LogOp) : LogProgram (LogAns o) := perform o

/-- The fields of the logged event, as they leave the processor. -/
def LogCall.processed (ev : LogCall) : EventDict :=
  match ev.op with
  | .log _ _ extra => requestContextProcessor ev.pre extra
  | _ => []

/-! ## The views' part -/

/-- `if value is not None: var.set(value)` -/
def setIfGiven (key : ContextKey) : Option String → LogProgram Unit
  | none => return ()
  | some value => do
    let _token ← logCall (.set key (some value))
    return ()

def setRequestContext (tenant_id bot_id doc_id : Option String) : LogProgram Unit := do
  setIfGiven .tenant_id tenant_id
  setIfGiven .bot_id bot_id
  setIfGiven .doc_id doc_id

/-- `with timer(phase)` around a body. -/
def timer {α : Type} (phase : String) (body : LogProgram α) : LogProgram α := do
  let started ← logCall .monotonic
  body.tryFinally do
    let now ← logCall .monotonic
    logCall (.recordPhase phase ((now - started) * 1000))

/-- The logger of `apps/core/middleware.py`. -/
def accessLogger : String := "apps.core.access"

/-- What is done outside of the two middlewares: the variables of the views are set to strings, by
`set_request_context`, and events are logged, by other loggers. -/
def LogOp.Outside : LogOp → Prop
  | .set key value => key ≠ .request_id ∧ value.isSome = true
  | .reset .. => False
  | .resetPhaseDurations => False
  | .log logger .. => logger ≠ accessLogger
  | _ => True

/-! ## The middleware -/

structure HttpRequest where
  path : String
  method : String
  /-- The header `X-Request-ID`. -/
  x_request_id : Option String
  /-- `request.resolver_match.url_name` -/
  url_name : Option String

structure HttpResponse where
  status_code : Nat
  headers : List (String × String)

/-- `path.startswith(paths)` -/
def startsWithAny (path : String) (paths : List String) : Bool :=
  paths.any fun p => p.toList.isPrefixOf path.toList

def requestIdExcludedPaths : List String := ["/static/"]

def accessLogExcludedPaths : List String := ["/metrics", "/healthz", "/static/", "/admin/"]

def maxRequestIdLen : Nat := 100

/-- The request id that came with the request, empty where there is none. -/
def HttpRequest.incoming (request : HttpRequest) : String :=
  takeChars (strip (request.x_request_id.getD "")) maxRequestIdLen

/-- `response[header] = value` -/
def HttpResponse.setHeader (response : HttpResponse) (header value : String) :
    Except Exc HttpResponse :=
  if value.toList.any fun c => c == '\n' || c == '\r' then
    .error (.raised "BadHeaderError" "Header values can't contain newlines")
  else .ok { response with headers := response.headers.filter (·.1 ≠ header) ++ [(header, value)] }

/-- `incoming or str(uuid.uuid4())` -/
def HttpRequest.requestId (request : HttpRequest) : LogProgram String :=
  if request.incoming = "" then logCall .uuid4 else return request.incoming

/-- The `try` block of `RequestIDMiddleware`. -/
def serveAs (rid : String) (get_response : LogProgram HttpResponse) : LogProgram HttpResponse := do
  let response ← get_response
  ofExcept (response.setHeader "X-Request-ID" rid)

/-- Its `finally` block. -/
def resetContext (rid_token tenant_token bot_token doc_token : VarValue) : LogProgram Unit := do
  logCall (.reset .request_id rid_token)
  logCall (.reset .tenant_id tenant_token)
  logCall (.reset .bot_id bot_token)
  logCall (.reset .doc_id doc_token)

def RequestIDMiddleware (request : HttpRequest) (get_response : LogProgram HttpResponse) :
    LogProgram HttpResponse :=
  if startsWithAny request.path requestIdExcludedPaths then get_response
  else do
    let rid ← request.requestId
    let rid_token ← logCall (.set .request_id (some rid))
    let tenant_token ← logCall (.set .tenant_id none)
    let bot_token ← logCall (.set .bot_id none)
    let doc_token ← logCall (.set .doc_id none)
    (serveAs rid get_response).tryFinally
      (resetContext rid_token tenant_token bot_token doc_token)

/-- `round(q, 2)`: to the nearest hundredth, to the even one of two. -/
def roundHundredths (q : Rat) : Rat :=
  let n := (q * 100).floor
  let rest := q * 100 - n
  (if rest < 1 / 2 ∨ (rest = 1 / 2 ∧ n % 2 = 0) then n else n + 1) / 100

/-- `if value: extra[key] = value` -/
def extraField (key : ContextKey) : Option String → EventDict
  | some value => if value = "" then [] else [(key.name, .str value)]
  | none => []

/-- `extra` of the event `request_completed`. -/
def accessExtra (request : HttpRequest) (status_code : Nat) (duration_ms : Rat)
    (phases : List (String × Rat)) (tid bid did : Option String) : EventDict :=
  [("method", .str request.method), ("path", .str request.path),
    ("status_code", .int status_code), ("duration_ms", .float (roundHundredths duration_ms)),
    ("phases", .dict (phases.map fun (phase, ms) => (phase, .float ms)))] ++
  extraField .tenant_id tid ++ extraField .bot_id bid ++ extraField .doc_id did

/-- The label `endpoint` of the counters. -/
def HttpRequest.endpoint (request : HttpRequest) : String :=
  match request.url_name with
  | some url_name => if url_name = "" then "unknown" else url_name
  | none => "unknown"

/-- The `finally` block of `AccessLogMiddleware`. -/
def logAccess (request : HttpRequest) (started : Rat) (status_code : Nat) : LogProgram Unit := do
  let now ← logCall .monotonic
  let duration_ms := (now - started) * 1000
  let duration_seconds := duration_ms / 1000
  let phases ← logCall .phaseDurations
  let tid ← logCall (.get .tenant_id)
  let bid ← logCall (.get .bot_id)
  let did ← logCall (.get .doc_id)
  logCall (.log accessLogger "request_completed"
    (accessExtra request status_code duration_ms phases tid bid did))
  let record : LogProgram Unit := do
    logCall (.recordHttpRequest request.method request.endpoint status_code duration_seconds)
    each (fun item => logCall (.recordPipelinePhase item.1 (item.2 / 1000))) phases
  record.tryCatch fun _ => logCall (.log accessLogger "metrics_record_failed" [])

def AccessLogMiddleware (request : HttpRequest) (get_response : LogProgram HttpResponse) :
    LogProgram HttpResponse :=
  if startsWithAny request.path accessLogExcludedPaths then get_response
  else do
    logCall .resetPhaseDurations
    let started ← logCall .monotonic
    let ended ← get_response.attempt
    let status_code :=
      match ended with
      | .ok response => response.status_code
      | .error _ => 500
    logAccess request started status_code
    ofExcept ended

/-! ## Requests of a thread -/

/-- What answers a request behind `RequestIDMiddleware`: the middleware up to
`AccessLogMiddleware`, which may answer themselves, the view, and the same middleware on the way
back. -/
structure Site where
  before : LogProgram (Option HttpResponse)
  view : LogProgram HttpResponse
  after : Except Exc HttpResponse → LogProgram HttpResponse
  before_only : before.Only LogOp.Outside
  view_only : view.Only LogOp.Outside
  after_only : ∀ ended, (after ended).Only LogOp.Outside

def Site.getResponse (site : Site) (request : HttpRequest) : LogProgram HttpResponse := do
  match ← site.before with
  | some response => return response
  | none =>
    let ended ← (AccessLogMiddleware request site.view).attempt
    site.after ended

/-- A request as it is served, with what lies outside at its calls. -/
structure Served where
  request : HttpRequest
  site : Site
  readings : Nat → Reading

def Served.run (served : Served) (s : Context) :
    Outcome LogOp Exc HttpResponse Reading Context :=
  (RequestIDMiddleware served.request (served.site.getResponse served.request)).run LogOp.exec
    served.readings s

/-- The context after the requests, one after the other. -/
def Context.after : List Served → Context → Context
  | [], s => s
  | served :: rest, s => after rest (served.run s).state

/-- The requests, each with the context it meets. -/
def Context.history : List Served → Context → List (Served × Context)
  | [], _ => []
  | served :: rest, s => (served, s) :: history rest (served.run s).state

end QdrantRag
