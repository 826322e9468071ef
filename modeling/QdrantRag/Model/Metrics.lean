import QdrantRag.Model.Views

/-! # Recording RPCs

`_record_metrics` of `apps/grpc_service/handler.py`, which wraps the handlers of the gRPC service,
and the server it runs in: how a handler can end, what is recorded of it, and what the client
receives. -/

namespace QdrantRag
open Effect Effect.Prog

/-- `code.name` -/
def StatusCode.name : StatusCode → String
  | .ok => "OK"
  | .cancelled => "CANCELLED"
  | .unknown => "UNKNOWN"
  | .invalidArgument => "INVALID_ARGUMENT"
  | .deadlineExceeded => "DEADLINE_EXCEEDED"
  | .notFound => "NOT_FOUND"
  | .alreadyExists => "ALREADY_EXISTS"
  | .permissionDenied => "PERMISSION_DENIED"
  | .resourceExhausted => "RESOURCE_EXHAUSTED"
  | .failedPrecondition => "FAILED_PRECONDITION"
  | .aborted => "ABORTED"
  | .outOfRange => "OUT_OF_RANGE"
  | .unimplemented => "UNIMPLEMENTED"
  | .internal => "INTERNAL"
  | .unavailable => "UNAVAILABLE"
  | .dataLoss => "DATA_LOSS"
  | .unauthenticated => "UNAUTHENTICATED"

/-! ## The server -/

/-- An exception that leaves a handler, by the clause of `_record_metrics` it falls under. -/
inductive Raised
  /-- A `grpc.RpcError`, with what `getattr(exc, "code", lambda: grpc.StatusCode.UNKNOWN)()`
  gives. -/
  | rpcError (code : Except Exc (Option StatusCode)) (msg : String)
  /-- Any other `Exception`. -/
  | exception (exc : Exc)
  /-- `KeyboardInterrupt`, `SystemExit` and the like. -/
  | baseException (type_name : String)

/-- `grpc.ServicerContext`, as far as the status goes. -/
structure ServicerContext where
  code : Option StatusCode
  details : String
  aborted : Bool

/-- The context a handler is called with. -/
def ServicerContext.fresh : ServicerContext := ⟨none, "", false⟩

/-- The context after `context.abort(code, details)`, which raises a bare `Exception`. `OK` is no
status to abort with. -/
def ServicerContext.abort (context : ServicerContext) (code : StatusCode) (details : String) :
    ServicerContext :=
  if code = .ok then { context with code := some .unknown, details := "", aborted := true }
  else { context with code := some code, details := details, aborted := true }

/-- What a call of a handler comes to: what it returns or raises, and its context. -/
abbrev Handled (α : Type) := Except Raised α × ServicerContext

/-- The status that the server sends. An exception that is not that of `abort` is reported as
`UNKNOWN`. -/
def Handled.status {α : Type} : Handled α → StatusCode
  | (.ok _, context) => context.code.getD .ok
  | (.error _, context) => if context.aborted then context.code.getD .unknown else .unknown

/-! ## Recording -/

/-- The labels passed to `record_grpc_request`. -/
structure GrpcRecord where
  rpc : String
  status_code : String
  deriving DecidableEq

/-- `_record_metrics(rpc_name)` around a handler that came to `handled`. -/
def recordMetrics {α : Type} (rpc_name : String) (handled : Handled α) : Handled α × GrpcRecord :=
  match handled with
  | (.ok result, context) => ((.ok result, context), ⟨rpc_name, (context.code.getD .ok).name⟩)
  | (.error (.rpcError (.ok code) msg), context) =>
    ((.error (.rpcError (.ok code) msg), context), ⟨rpc_name, (code.getD .unknown).name⟩)
  -- `exc.code()` raises in the `except` clause, where `status_code` is still the initial `OK`
  | (.error (.rpcError (.error exc) _), context) =>
    ((.error (.exception exc), context), ⟨rpc_name, StatusCode.ok.name⟩)
  | (.error (.exception exc), context) =>
    ((.error (.exception exc), context), ⟨rpc_name, StatusCode.internal.name⟩)
  | (.error (.baseException type_name), context) =>
    ((.error (.baseException type_name), context), ⟨rpc_name, StatusCode.ok.name⟩)

/-! ## The handler -/

/-- How a handler can end. -/
inductive Ending (α : Type)
  | returns (result : α)
  | aborts (code : StatusCode) (details : String)
  | escapes (exc : Raised)

/-- What a handler comes to that ends so. -/
def Ending.handled {α : Type} (context : ServicerContext) : Ending α → Handled α
  | .returns result => (.ok result, context)
  | .aborts code details =>
    (.error (.exception (.raised "Exception" "")), context.abort code details)
  | .escapes exc => (.error exc, context)

/-- How the `except` clauses around `search` end. -/
def RpcOutcome.ending : RpcOutcome → Ending SearchResponse
  | .reply response => .returns response
  | .abort code details => .aborts code details

/-- What follows `search`: the response is built outside of its `try`. -/
def endSearch (result : SearchResult) : Ending SearchResponse :=
  match toSearchResponse result with
  | .ok response => .returns response
  | .error exc => .escapes (.exception exc)

/-- The body of `Search`. -/
def VectorSearchService.SearchBody (env : Env) (web : Web) (request : SearchRpcRequest) :
    Program (Ending SearchResponse) :=
  match request.checked web with
  | .error (code, details) => return .aborts code details
  | .ok x => (search env x >>= fun result => return endSearch result).tryCatch fun exc => do
    let outcome ← onSearchRpcError web exc
    return outcome.ending

end QdrantRag
