import QdrantRag.Model.Metrics
import QdrantRag.Verify.Outage

/-! # What is recorded of an RPC

The status of an RPC travels by its context and by the exception that leaves the handler. An abort
leaves the status in the context and raises an exception without one, so where `_record_metrics`
looks at the exception it misses the status the client receives. -/

namespace QdrantRag
open Effect Effect.Prog

variable {env : Env} {web : Web} {s : World} {session : Nat} {faults : Nat → Fault}
  {request : SearchRpcRequest} {α : Type}

/-! ## Names of status codes -/

def StatusCode.all : List StatusCode :=
  [ok, cancelled, unknown, invalidArgument, deadlineExceeded, notFound, alreadyExists,
    permissionDenied, resourceExhausted, failedPrecondition, aborted, outOfRange, unimplemented,
    internal, unavailable, dataLoss, unauthenticated]

theorem StatusCode.mem_all (code : StatusCode) : code ∈ all := by
  cases code <;> decide

theorem StatusCode.name_inj {code code' : StatusCode} : code.name = code'.name ↔ code = code' := by
  have hnodup : (all.map name).Nodup := by decide
  constructor
  · intro h
    exact List.inj_on_of_nodup_map hnodup (mem_all code) (mem_all code') h
  · exact congrArg name

/-! ## Endings -/

/-- The endings that are recorded as the client sees them. -/
def Ending.Recorded : Ending α → Prop
  | .returns _ => True
  | .aborts code _ => code = .internal
  | .escapes (.rpcError (.ok code) _) => code.getD .unknown = .unknown
  | .escapes _ => False

/-- The status the client receives of a handler that ends so. -/
def Ending.status : Ending α → StatusCode
  | .returns _ => .ok
  | .aborts code _ => if code = .ok then .unknown else code
  | .escapes _ => .unknown

/-- The wrapper changes nothing of what the client receives. -/
theorem status_recordMetrics (rpc_name : String) (handled : Handled α) :
    (recordMetrics rpc_name handled).1.status = handled.status := by
  obtain ⟨ended, context⟩ := handled
  cases ended with
  | ok result => rfl
  | error exc =>
    cases exc with
    | rpcError code msg => cases code <;> rfl
    | exception exc => rfl
    | baseException type_name => rfl

theorem Ending.status_handled (e : Ending α) : (e.handled .fresh).status = e.status := by
  cases e with
  | returns result => rfl
  | escapes exc => rfl
  | aborts code details =>
    simp only [handled, Handled.status, ServicerContext.abort, status]
    split <;> rfl

/-- The status recorded of a handler that ends so. The exception of an abort is one like any
other. -/
def Ending.label : Ending α → StatusCode
  | .returns _ => .ok
  | .aborts _ _ => .internal
  | .escapes (.rpcError (.ok code) _) => code.getD .unknown
  | .escapes (.rpcError (.error _) _) => .ok
  | .escapes (.exception _) => .internal
  | .escapes (.baseException _) => .ok

theorem Ending.status_code_recordMetrics (e : Ending α) (rpc_name : String) :
    (recordMetrics rpc_name (e.handled .fresh)).2.status_code = e.label.name := by
  cases e with
  | returns result => rfl
  | aborts code details => rfl
  | escapes exc =>
    cases exc with
    | rpcError code msg => cases code <;> rfl
    | exception exc => rfl
    | baseException type_name => rfl

theorem Ending.label_eq_status (e : Ending α) : e.label = e.status ↔ e.Recorded := by
  cases e with
  | returns result => exact iff_of_true rfl trivial
  | aborts code details =>
    simp only [label, status, Recorded]
    split
    · next hok =>
      subst hok
      decide
    · exact eq_comm
  | escapes exc =>
    cases exc with
    | rpcError code msg =>
      cases code with
      | ok code => exact Iff.rfl
      | error exc => exact iff_of_false (by simp [label, status]) id
    | exception exc => exact iff_of_false (by simp [label, status]) id
    | baseException type_name => exact iff_of_false (by simp [label, status]) id

/-! ## The handler -/

/-- How `Search` ends. -/
def SearchRpcRequest.ending (env : Env) (web : Web) (request : SearchRpcRequest) (session : Nat)
    (faults : Nat → Fault) (s : World) : Ending SearchResponse :=
  match request.checked web with
  | .error (code, details) => .aborts code details
  | .ok x =>
    match (x.run env session faults s).reply with
    | .ok result => endSearch result
    | .error exc => (web.rpcFailure exc).ending

theorem reply_searchBody (env : Env) (web : Web) (request : SearchRpcRequest) (session : Nat)
    (faults : Nat → Fault) (s : World) :
    ((VectorSearchService.SearchBody env web request).run (exec env session) faults s).reply =
      .ok (request.ending env web session faults s) := by
  unfold VectorSearchService.SearchBody SearchRpcRequest.ending
  cases request.checked web with
  | error refusal => rfl
  | ok x =>
    have hcaught (exc : Exc) : (do
        let outcome ← onSearchRpcError web exc
        return outcome.ending : Program (Ending SearchResponse)) =
          .pure (web.rpcFailure exc).ending := by
      rw [onSearchRpcError_eq]
      rfl
    simp only
    rw [run_rescue (fun exc => (web.rpcFailure exc).ending) hcaught, run_map]
    cases (x.run env session faults s).reply <;> rfl

/-- A request is refused with one status. -/
theorem code_of_refused {code : StatusCode} {details : String}
    (h : request.checked web = .error (code, details)) : code = .invalidArgument := by
  unfold SearchRpcRequest.checked at h
  split at h
  · cases h
    rfl
  · simp only at h
    split_ifs at h <;> cases h <;> rfl

theorem rpcFailure_cases (web : Web) (exc : Exc) : ∃ code details,
    web.rpcFailure exc = .abort code details ∧ code ≠ .ok ∧
      (code = .internal ↔ (∀ name, exc ≠ .collectionNotFound name) ∧
        ∀ attempts last_exc, exc ≠ .qdrantConnection attempts last_exc) := by
  cases exc with
  | collectionNotFound name =>
    exact ⟨_, _, rfl, by decide, iff_of_false (by decide) fun h => h.1 name rfl⟩
  | qdrantConnection attempts last_exc =>
    exact ⟨_, _, rfl, by decide, iff_of_false (by decide) fun h => h.2 attempts last_exc rfl⟩
  | _ =>
    refine ⟨_, _, rfl, by decide, iff_of_true rfl ⟨fun _ h => ?_, fun _ _ h => ?_⟩⟩
    · cases h
    · cases h

-- as for `toRpcOutcome_eq`
attribute [local irreducible] toInt32 in
theorem endSearch_eq : endSearch = fun result => match toSearchResponse result with
    | .ok response => .returns response
    | .error exc => .escapes (.exception exc) := rfl

theorem endSearch_spec (web : Web) (result : SearchResult) :
    (toRpcOutcome web result).code = (endSearch result).status ∧
      ((endSearch result).Recorded ↔ ∃ response, toSearchResponse result = .ok response) := by
  rw [toRpcOutcome_eq, endSearch_eq]
  beta_reduce
  generalize toSearchResponse result = response
  cases response with
  | ok response => exact ⟨rfl, iff_of_true trivial ⟨response, rfl⟩⟩
  | error exc =>
    refine ⟨rfl, iff_of_false id ?_⟩
    rintro ⟨response, hresponse⟩
    cases hresponse

theorem rpcFailure_spec (web : Web) (exc : Exc) :
    (web.rpcFailure exc).code = (web.rpcFailure exc).ending.status ∧
      ((web.rpcFailure exc).ending.Recorded ↔ (∀ name, exc ≠ .collectionNotFound name) ∧
        ∀ attempts last_exc, exc ≠ .qdrantConnection attempts last_exc) := by
  obtain ⟨code, details, habort, hok, hinternal⟩ := rpcFailure_cases web exc
  rw [habort]
  exact ⟨(if_neg hok).symm, hinternal⟩

/-- The search is answered, or fails in a way that has no status of its own. -/
def SearchRpcRequest.Recorded (env : Env) (web : Web) (request : SearchRpcRequest) (session : Nat)
    (faults : Nat → Fault) (s : World) : Prop :=
  ∃ x, request.checked web = .ok x ∧
    match (x.run env session faults s).reply with
    | .ok result => ∃ response, toSearchResponse result = .ok response
    | .error exc => (∀ name, exc ≠ .collectionNotFound name) ∧
      ∀ attempts last_exc, exc ≠ .qdrantConnection attempts last_exc

/-- How `Search` ends, as the client and as the metrics have it. -/
theorem SearchRpcRequest.ending_spec (env : Env) (web : Web) (request : SearchRpcRequest)
    (session : Nat) (faults : Nat → Fault) (s : World) :
    (∃ outcome, (request.run env web session faults s).reply = .ok outcome ∧
      outcome.code = (request.ending env web session faults s).status) ∧
    ((request.ending env web session faults s).Recorded ↔
      request.Recorded env web session faults s) := by
  unfold ending Recorded
  cases h : request.checked web with
  | error refusal =>
    obtain ⟨code, details⟩ := refusal
    obtain rfl := code_of_refused h
    refine ⟨⟨_, congrArg Outcome.reply (run_refused h), rfl⟩, iff_of_false ?_ ?_⟩
    · intro hinternal
      cases hinternal
    · rintro ⟨x, hx, -⟩
      cases hx
  | ok x =>
    simp only [Except.ok.injEq, exists_eq_left']
    rw [run_checked h]
    cases (x.run env session faults s).reply with
    | ok result => exact ⟨⟨_, rfl, (endSearch_spec web result).1⟩, (endSearch_spec web result).2⟩
    | error exc => exact ⟨⟨_, rfl, (rpcFailure_spec web exc).1⟩, (rpcFailure_spec web exc).2⟩

/-- **What is recorded is what the client receives** only where the handler returns, aborts with
`INTERNAL`, or lets an `RpcError` escape that is itself unknown. `Search` does the first where the
search is answered, and the second where it fails with no status of its own; every refused request
is recorded with a wrong status. -/
theorem recordMetrics_iff (env : Env) (web : Web) (request : SearchRpcRequest) (session : Nat)
    (faults : Nat → Fault) (s : World) :
    (∀ (α : Type) (e : Ending α) (rpc_name : String),
      let wrapped := recordMetrics rpc_name (e.handled .fresh)
      wrapped.2.status_code = wrapped.1.status.name ↔ e.Recorded) ∧
    ∃ e outcome,
      ((VectorSearchService.SearchBody env web request).run (exec env session) faults s).reply =
        .ok e ∧
      (request.run env web session faults s).reply = .ok outcome ∧
      let wrapped := recordMetrics "Search" (e.handled .fresh)
      wrapped.1.status = outcome.code ∧
        (wrapped.2.status_code = wrapped.1.status.name ↔
          request.Recorded env web session faults s) := by
  have hiff (α : Type) (e : Ending α) (rpc_name : String) :
      (recordMetrics rpc_name (e.handled .fresh)).2.status_code =
        (recordMetrics rpc_name (e.handled .fresh)).1.status.name ↔ e.Recorded := by
    rw [status_recordMetrics, e.status_handled, e.status_code_recordMetrics, StatusCode.name_inj]
    exact e.label_eq_status
  obtain ⟨⟨outcome, houtcome, hcode⟩, hrecorded⟩ :=
    request.ending_spec env web session faults s
  refine ⟨hiff, _, outcome, reply_searchBody env web request session faults s, houtcome, ?_, ?_⟩
  · rw [status_recordMetrics, Ending.status_handled, hcode]
  · exact (hiff _ _ _).trans hrecorded

/-- A request with a blank query. -/
def Sample.blankRpc : SearchRpcRequest := ⟨"acme", "support", " ", 0, [], [], "", true⟩

/-- A blank query is recorded as an internal error. -/
theorem recordMetrics_blankRpc : ∃ e,
    ((VectorSearchService.SearchBody Sample.env Sample.web Sample.blankRpc).run
      (exec Sample.env 0) Sample.served World.empty).reply = .ok e ∧
    (recordMetrics "Search" (e.handled .fresh)).1.status = .invalidArgument ∧
    (recordMetrics "Search" (e.handled .fresh)).2.status_code = "INTERNAL" ∧
    StatusCode.invalidArgument.name ≠ "INTERNAL" := by
  have hrefused : Sample.blankRpc.checked Sample.web =
      .error (.invalidArgument, "Query must be non-empty.") := by with_unfolding_all rfl
  refine ⟨.aborts .invalidArgument "Query must be non-empty.", ?_, rfl, rfl, by decide⟩
  rw [VectorSearchService.SearchBody, hrefused]
  rfl

end QdrantRag
