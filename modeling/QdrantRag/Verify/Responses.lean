import QdrantRag.Model.Service
import QdrantRag.Model.Views

/-! # Responses and replies

A view answers every run of its pipeline with a response that is a function of the pipeline's reply
(`Web.response`); apart from it the view's run is the pipeline's. -/

namespace QdrantRag
open Effect Effect.Prog Text

variable {env : Env} {web : Web} {session : Nat} {faults : Nat → Fault} {s : World}

theorem exists_of_isOk {ε α : Type} {r : Except ε α} (h : r.isOk = true) : ∃ a, r = .ok a := by
  cases r with
  | ok a => exact ⟨a, rfl⟩
  | error e => cases h

/-- The ids of a path are accepted, or one of them raises. -/
theorem pathSlugs_cases (T B : String) :
    ((slugMatch (normalizeSlug T) = true ∧ slugMatch (normalizeSlug B) = true) ∧
        pathSlugs T B = .ok (normalizeSlug T, normalizeSlug B)) ∨
      ¬ (slugMatch (normalizeSlug T) = true ∧ slugMatch (normalizeSlug B) = true) ∧
        ∃ field_name value, pathSlugs T B = .error (.invalidIdentifier field_name value) := by
  unfold pathSlugs validateSlug
  by_cases hT : slugMatch (normalizeSlug T) = true
  · by_cases hB : slugMatch (normalizeSlug B) = true
    · refine .inl ⟨⟨hT, hB⟩, ?_⟩
      rw [if_pos hT, if_pos hB]
      rfl
    · refine .inr ⟨fun h => hB h.2, "bot_id", normalizeSlug B, ?_⟩
      rw [if_pos hT, if_neg hB]
      rfl
  · refine .inr ⟨fun h => hT h.1, "tenant_id", normalizeSlug T, ?_⟩
    rw [if_neg hT]
    rfl

/-- The ids of a path are put through `normalize_slug`, and have to be slugs then. -/
theorem pathSlugs_eq_ok {T B T' B' : String} :
    pathSlugs T B = .ok (T', B') ↔
      slugMatch T' = true ∧ slugMatch B' = true ∧ normalizeSlug T = T' ∧ normalizeSlug B = B' := by
  rcases pathSlugs_cases T B with ⟨⟨hT, hB⟩, h⟩ | ⟨hvalid, field_name, value, h⟩
  · rw [h]
    constructor
    · intro heq
      cases heq
      exact ⟨hT, hB, rfl, rfl⟩
    · rintro ⟨-, -, rfl, rfl⟩
      rfl
  · rw [h]
    refine iff_of_false (fun heq => by cases heq) ?_
    rintro ⟨hT, hB, rfl, rfl⟩
    exact hvalid ⟨hT, hB⟩

/-! ## Accepted requests -/

/-- A request is carried out for what the check of its ids gives. -/
theorem UploadRequest.ids_of_checked {req : UploadRequest} {x : Upload}
    (h : req.checked web = .ok x) :
    pathSlugs req.tenant_id req.bot_id = .ok (x.tenant_id, x.bot_id) := by
  unfold checked at h
  split at h
  · cases h
  · next T B hslugs =>
    split at h
    · cases h
    · split at h
      · cases h
      · cases h
        exact hslugs

theorem DeleteRequest.ids_of_checked {req : DeleteRequest} {x : Delete}
    (h : req.checked web = .ok x) :
    pathSlugs req.tenant_id req.bot_id = .ok (x.tenant_id, x.bot_id) := by
  unfold checked at h
  split at h
  · cases h
  · next T B hslugs =>
    cases h
    exact hslugs

theorem SearchHttpRequest.ids_of_checked {req : SearchHttpRequest} {x : Search}
    (h : req.checked web = .ok x) :
    pathSlugs req.tenant_id req.bot_id = .ok (x.tenant_id, x.bot_id) := by
  unfold checked at h
  split at h
  · cases h
  · next T B hslugs =>
    split at h
    · cases h
    · split at h
      · cases h
      · cases h
        exact hslugs

/-! ## Responses of the writing views -/

/-- The response to an exception of a writing pipeline. -/
def Web.failure (web : Web) : Exc → Response
  | .upload kind msg cause details retry_after =>
    uploadErrorResponse web kind msg cause details retry_after
  | exc => internalError web exc

theorem onUploadError_eq (web : Web) (exc : Exc) :
    onUploadError web exc = .pure (web.failure exc) := by
  cases exc <;> rfl

/-- The response to what a writing pipeline replies. -/
def Web.response (web : Web) : Except Exc Reply → Response
  | .ok (.upload r) => uploadedResponse r
  | .ok (.delete _) => ⟨204, .empty, none⟩
  | .ok (.search r) => ⟨200, .search r, none⟩
  | .error exc => web.failure exc

/-- Only a delete is answered 204. -/
theorem Web.status_204 {reply : Except Exc Reply} (h : (web.response reply).status = 204) :
    ∃ r, reply = .ok (.delete r) := by
  cases reply with
  | ok reply =>
    cases reply with
    | upload r =>
      change (if r.status = .noChange then 200 else 201) = 204 at h
      split at h <;> cases h
    | delete r => exact ⟨r, rfl⟩
    | search r => cases h
  | error e =>
    cases e with
    | upload kind => cases kind <;> cases h
    | _ => cases h

/-- Only a document that is not found is answered 404. -/
theorem Web.status_404 {reply : Except Exc Reply} (h : (web.response reply).status = 404) :
    ∃ msg cause details retry_after,
      reply = .error (.upload .documentNotFound msg cause details retry_after) := by
  cases reply with
  | ok reply =>
    cases reply with
    | upload r =>
      change (if r.status = .noChange then 200 else 201) = 404 at h
      split at h <;> cases h
    | delete r => cases h
    | search r => cases h
  | error e =>
    cases e with
    | upload kind msg cause details retry_after =>
      cases kind <;> first | exact ⟨_, _, _, _, rfl⟩ | cases h
    | _ => cases h

/-- The run of a request to upload. -/
def UploadRequest.run (env : Env) (web : Web) (req : UploadRequest) (session : Nat)
    (faults : Nat → Fault) (s : World) : Outcome Op Exc Response Fault World :=
  (UploadDocumentView.post env web req).run (exec env session) faults s

/-- The run of a request to delete. -/
def DeleteRequest.run (env : Env) (web : Web) (req : DeleteRequest) (session : Nat)
    (faults : Nat → Fault) (s : World) : Outcome Op Exc Response Fault World :=
  (DeleteDocumentView.delete env web req).run (exec env session) faults s

/-- What a caller sees: the status and the body of the response. -/
def answer (o : Outcome Op Exc Response Fault World) : Option (Nat × Body) :=
  o.reply.toOption.map fun response => (response.status, response.body)

/-- A refused request makes no call. -/
theorem UploadRequest.run_refused {req : UploadRequest} {response : Response}
    (h : req.checked web = .error response) :
    req.run env web session faults s = ⟨.ok response, s, []⟩ := by
  unfold run UploadDocumentView.post
  rw [h]
  rfl

theorem DeleteRequest.run_refused {req : DeleteRequest} {response : Response}
    (h : req.checked web = .error response) :
    req.run env web session faults s = ⟨.ok response, s, []⟩ := by
  unfold run DeleteDocumentView.delete
  rw [h]
  rfl

theorem UploadRequest.run_checked {req : UploadRequest} {x : Upload}
    (h : req.checked web = .ok x) :
    req.run env web session faults s =
      ⟨.ok (web.response (Job.run env ⟨.write (.upload x), session, faults⟩ s).reply),
        (Job.run env ⟨.write (.upload x), session, faults⟩ s).state,
        (Job.run env ⟨.write (.upload x), session, faults⟩ s).trace⟩ := by
  have hjob : Job.run env ⟨.write (.upload x), session, faults⟩ s =
      (UploadPipeline.execute env x >>= fun r => Pure.pure (Reply.upload r)).run
        (exec env session) faults s := rfl
  unfold run UploadDocumentView.post
  rw [h, hjob, run_map]
  simp only
  rw [run_rescue web.failure (onUploadError_eq web), run_map]
  cases ((UploadPipeline.execute env x).run (exec env session) faults s).reply <;> rfl

theorem DeleteRequest.run_checked {req : DeleteRequest} {x : Delete}
    (h : req.checked web = .ok x) :
    req.run env web session faults s =
      ⟨.ok (web.response (Job.run env ⟨.write (.delete x), session, faults⟩ s).reply),
        (Job.run env ⟨.write (.delete x), session, faults⟩ s).state,
        (Job.run env ⟨.write (.delete x), session, faults⟩ s).trace⟩ := by
  have hjob : Job.run env ⟨.write (.delete x), session, faults⟩ s =
      (DeletePipeline.execute env x >>= fun r => Pure.pure (Reply.delete r)).run
        (exec env session) faults s := rfl
  unfold run DeleteDocumentView.delete
  rw [h, hjob, run_map]
  simp only
  rw [run_rescue web.failure (onUploadError_eq web), run_map]
  cases ((DeletePipeline.execute env x).run (exec env session) faults s).reply <;> rfl

/-! ## Searches -/

/-- The response to an exception of `search`. -/
def Web.searchFailure (web : Web) : Exc → Response
  | .collectionNotFound _ =>
    errorResponse 404 "collection_not_found" "No collection for this bot. Upload a document first."
  | .qdrantConnection attempts last_exc =>
    errorResponse 503 "qdrant_unavailable" ((Exc.qdrantConnection attempts last_exc).str web.repr)
  | exc => internalError web exc

theorem onSearchError_eq (web : Web) (exc : Exc) :
    onSearchError web exc = .pure (web.searchFailure exc) := by
  cases exc <;> rfl

/-- How an RPC ends on an exception of `search`. -/
def Web.rpcFailure (web : Web) : Exc → RpcOutcome
  | .collectionNotFound _ => .abort .notFound "Collection does not exist for this tenant/bot."
  | .qdrantConnection attempts last_exc =>
    .abort .unavailable
      ("Qdrant unavailable: " ++ (Exc.qdrantConnection attempts last_exc).str web.repr)
  | exc =>
    if exc.isQdrantError then .abort .internal ("Qdrant error: " ++ exc.str web.repr)
    else .abort .internal ("Unexpected error: " ++ exc.str web.repr)

theorem onSearchRpcError_eq (web : Web) (exc : Exc) :
    onSearchRpcError web exc = .pure (web.rpcFailure exc) := by
  cases exc <;> rfl

/-- The run of a search over HTTP. -/
def SearchHttpRequest.run (env : Env) (web : Web) (req : SearchHttpRequest) (session : Nat)
    (faults : Nat → Fault) (s : World) : Outcome Op Exc Response Fault World :=
  (SearchDocumentsView.post env web req).run (exec env session) faults s

/-- The run of a search over gRPC. -/
def SearchRpcRequest.run (env : Env) (web : Web) (request : SearchRpcRequest) (session : Nat)
    (faults : Nat → Fault) (s : World) : Outcome Op Exc RpcOutcome Fault World :=
  (VectorSearchService.Search env web request).run (exec env session) faults s

/-- The run of `search`. -/
abbrev Search.run (env : Env) (x : Search) (session : Nat) (faults : Nat → Fault) (s : World) :
    Outcome Op Exc SearchResult Fault World := (search env x).run (exec env session) faults s

/-- What is promised of the arguments that a transport passes to `search`. -/
structure Search.Checked (x : Search) : Prop where
  name : collectionName x.tenant_id x.bot_id = .ok (joinName x.tenant_id x.bot_id)
  query : strip x.query ≠ ""

theorem searchRequestSerializer_eq_ok {lib : Drf} {data : PyValue} {body : SearchBody}
    (h : searchRequestSerializer lib data = .ok body) :
    ∃ kvs, data = .dict kvs ∧ searchRequestFields lib kvs = .ok body ∧
      (body.filters.any fun filters => !filters.only_active) = false ∧ strip body.query ≠ "" := by
  cases data with
  | dict kvs =>
    change searchRequestValidated lib kvs = .ok body at h
    unfold searchRequestValidated SearchBody.validate at h
    split at h
    · cases h
    · next attrs hattrs =>
      split at h
      · cases h
      · next hactive =>
        split at h
        · cases h
        · next hquery =>
          cases h
          exact ⟨kvs, rfl, hattrs, by simpa using hactive, hquery⟩
  | _ => cases h

/-- The checks of a search that passes them. -/
theorem SearchRpcRequest.checked_eq_ok {request : SearchRpcRequest} {x : Search}
    (h : request.checked web = .ok x) :
    pathSlugs request.tenant_id request.bot_id = .ok (x.tenant_id, x.bot_id) ∧
      x.query = strip request.query ∧ x.query ≠ "" ∧ x.top_k ≤ 20 := by
  unfold checked at h
  split at h
  · cases h
  · next T B hslugs =>
    dsimp only at h
    generalize (if request.top_k = 0 then defaultTopK else request.top_k) = top_k at h
    split at h
    · cases h
    · next hquery =>
      split at h
      · cases h
      · next htop =>
        split at h
        · cases h
        · cases h
          refine ⟨hslugs, rfl, hquery, ?_⟩
          simp only [maxTopK] at htop ⊢
          omega

/-- The collection a request asks for. -/
def SearchHttpRequest.collection (req : SearchHttpRequest) : String :=
  joinName (normalizeSlug req.tenant_id) (normalizeSlug req.bot_id)

def SearchRpcRequest.collection (request : SearchRpcRequest) : String :=
  joinName (normalizeSlug request.tenant_id) (normalizeSlug request.bot_id)

theorem SearchHttpRequest.checked_ok {req : SearchHttpRequest} {x : Search}
    (h : req.checked web = .ok x) :
    x.Checked ∧ joinName x.tenant_id x.bot_id = req.collection := by
  unfold checked at h
  split at h
  · cases h
  · next T B hslugs =>
    obtain ⟨hT, hB, rfl, rfl⟩ := pathSlugs_eq_ok.mp hslugs
    split at h
    · cases h
    · split at h
      · cases h
      · next body hbody =>
        cases h
        obtain ⟨-, -, -, -, hquery⟩ := searchRequestSerializer_eq_ok hbody
        refine ⟨⟨collectionName_eq_ok.mpr ⟨hT, hB, rfl⟩, ?_⟩, rfl⟩
        change strip (strip body.query) ≠ ""
        rw [strip_strip]
        exact hquery

theorem SearchRpcRequest.checked_ok {request : SearchRpcRequest} {x : Search}
    (h : request.checked web = .ok x) :
    x.Checked ∧ joinName x.tenant_id x.bot_id = request.collection ∧ x.top_k ≤ 20 := by
  obtain ⟨hslugs, hstrip, hquery, htop⟩ := checked_eq_ok h
  obtain ⟨hT, hB, hTenant, hBot⟩ := pathSlugs_eq_ok.mp hslugs
  refine ⟨⟨collectionName_eq_ok.mpr ⟨hT, hB, rfl⟩, ?_⟩, ?_, htop⟩
  · rw [hstrip, strip_strip, ← hstrip]
    exact hquery
  · rw [← hTenant, ← hBot]
    rfl

theorem SearchHttpRequest.run_refused {req : SearchHttpRequest} {response : Response}
    (h : req.checked web = .error response) :
    req.run env web session faults s = ⟨.ok response, s, []⟩ := by
  unfold run SearchDocumentsView.post
  rw [h]
  rfl

theorem SearchRpcRequest.run_refused {request : SearchRpcRequest} {code : StatusCode}
    {details : String} (h : request.checked web = .error (code, details)) :
    request.run env web session faults s = ⟨.ok (.abort code details), s, []⟩ := by
  unfold run VectorSearchService.Search
  rw [h]
  rfl

theorem SearchHttpRequest.run_checked {req : SearchHttpRequest} {x : Search}
    (h : req.checked web = .ok x) :
    req.run env web session faults s =
      ⟨.ok (match (x.run env session faults s).reply with
        | .ok r => ⟨200, .search r, none⟩
        | .error exc => web.searchFailure exc),
        (x.run env session faults s).state, (x.run env session faults s).trace⟩ := by
  unfold run SearchDocumentsView.post
  rw [h]
  simp only
  rw [run_rescue web.searchFailure (onSearchError_eq web), run_map]
  cases (x.run env session faults s).reply <;> rfl

theorem SearchRpcRequest.run_checked {request : SearchRpcRequest} {x : Search}
    (h : request.checked web = .ok x) :
    request.run env web session faults s =
      ⟨.ok (match (x.run env session faults s).reply with
        | .ok r => toRpcOutcome web r
        | .error exc => web.rpcFailure exc),
        (x.run env session faults s).state, (x.run env session faults s).trace⟩ := by
  unfold run VectorSearchService.Search
  rw [h]
  simp only
  rw [run_rescue web.rpcFailure (onSearchRpcError_eq web), run_map]
  cases (x.run env session faults s).reply <;> rfl

end QdrantRag
