import QdrantRag.Model.Search
import QdrantRag.Model.Serializers

/-! # The HTTP views and the gRPC service

`apps/documents/views.py` with `SearchRequestSerializer`, and `apps/grpc_service/handler.py`: how a
request is checked before its pipeline or search runs, and how results and exceptions become a
response. -/

namespace QdrantRag
open Effect Effect.Prog Text Checked

/-- What the views take from the framework and from Python. -/
structure Web where
  drf : Drf
  /-- `repr(s)` of a string -/
  repr : String → String

/-! ## Exceptions as text -/

def slugPattern : String := "^[a-z0-9][a-z0-9_]\x7b2,39\x7d$"

/-- `str` of a dict of strings. -/
def dictText (repr : String → String) (kvs : List (String × String)) : String :=
  "\x7b" ++ ", ".intercalate (kvs.map fun (key, value) => repr key ++ ": " ++ repr value) ++ "\x7d"

/-- `str(exc)` -/
def Exc.str (repr : String → String) : Exc → String
  | .rpcError _ msg | .unexpectedResponse _ msg | .integrityError msg | .raised _ msg => msg
  | .doesNotExist model => model ++ " matching query does not exist."
  | .invalidIdentifier field_name value =>
    field_name ++ " " ++ repr value ++ " does not match " ++ slugPattern
  | .qdrantConnection attempts none =>
    "Exhausted " ++ toString attempts ++ " retry attempts: None"
  | .qdrantConnection attempts (some last_exc) =>
    "Exhausted " ++ toString attempts ++ " retry attempts: " ++ last_exc.str repr
  | .schemaMismatch collection_name diff =>
    "Collection " ++ repr collection_name ++ " schema mismatch: " ++ dictText repr diff
  | .qdrantOperation msg cause => msg ++ cause.str repr
  | .collectionNotFound collection_name =>
    "Collection " ++ repr collection_name ++ " does not exist."
  | .upload _ msg none _ _ => msg
  | .upload _ msg (some cause) _ _ => msg ++ cause.str repr

def UploadErrorKind.typeName : UploadErrorKind → String
  | .invalidPayload => "InvalidPayloadError"
  | .noEmbeddableContent => "NoEmbeddableContentError"
  | .qdrantWrite => "QdrantWriteError"
  | .embedder => "EmbedderError"
  | .concurrentUpload => "ConcurrentUploadError"
  | .documentTooLarge => "DocumentTooLargeError"
  | .documentNotFound => "DocumentNotFoundError"

/-- `type(exc).__name__` -/
def Exc.typeName : Exc → String
  -- the class that `grpc` raises for a unary call
  | .rpcError .. => "_InactiveRpcError"
  | .unexpectedResponse .. => "UnexpectedResponse"
  | .integrityError _ => "IntegrityError"
  | .doesNotExist _ => "DoesNotExist"
  | .raised type_name _ => type_name
  | .invalidIdentifier .. => "InvalidIdentifierError"
  | .qdrantConnection .. => "QdrantConnectionError"
  | .schemaMismatch .. => "CollectionSchemaMismatchError"
  | .qdrantOperation .. => "QdrantOperationError"
  | .collectionNotFound _ => "CollectionNotFoundError"
  | .upload kind .. => kind.typeName

/-! ## Responses -/

/-- `details` of an error: those of an `UploadError`, or `serializer.errors`. -/
inductive Details
  | fields (kvs : List (String × PyValue))
  | errors (es : List FieldError)

def Details.isEmpty : Details → Bool
  | .fields kvs => kvs.isEmpty
  | .errors es => es.isEmpty

/-- The JSON body of a response. -/
inductive Body
  | empty
  | upload (r : UploadResult)
  | search (r : SearchResult)
  | error (code message : String) (details : Option Details)

structure Response where
  status : Nat
  body : Body
  /-- The header `Retry-After`. -/
  retry_after : Option String := none

/-- `_error_response` -/
def errorResponse (http_status : Nat) (code message : String) (details : Option Details := none) :
    Response := ⟨http_status, .error code message (details.filter fun d => !d.isEmpty), none⟩

def internalError (web : Web) (exc : Exc) : Response :=
  errorResponse 500 "internal_error" (exc.typeName ++ ": " ++ exc.str web.repr)

/-- The checks of the ids in the path, common to the views. -/
def pathSlugs (tenant_id bot_id : String) : Except Exc (String × String) := do
  validateSlug (normalizeSlug tenant_id) "tenant_id"
  validateSlug (normalizeSlug bot_id) "bot_id"
  return (normalizeSlug tenant_id, normalizeSlug bot_id)

def invalidSlug (web : Web) (exc : Exc) : Response :=
  errorResponse 400 "invalid_slug" (exc.str web.repr)

def invalidPayload (errors : List FieldError) : Response :=
  errorResponse 400 "invalid_payload" "Body validation failed." (some (.errors errors))

/-- The response to an `UploadError`; `Retry-After` is that of a `ConcurrentUploadError`. -/
def uploadErrorResponse (web : Web) (kind : UploadErrorKind) (msg : String) (cause : Option Exc)
    (details : List (String × PyValue)) (retry_after : Option Nat) : Response :=
  { errorResponse kind.http_status kind.code
      ((Exc.upload kind msg cause details retry_after).str web.repr) (some (.fields details)) with
    retry_after := retry_after.map toString }

/-- The `except` clauses of the two writing views. -/
def onUploadError (web : Web) : Exc → Program Response
  | .upload kind msg cause details retry_after =>
    return uploadErrorResponse web kind msg cause details retry_after
  | exc => return internalError web exc

/-! ## Writing -/

/-- A request to upload: its path, its body as `request.data` gives or refuses it, and the UUID that
is drawn where the body has none. The rest is what its pipeline reads of the clock. -/
structure UploadRequest where
  tenant_id : String
  bot_id : String
  data : Except Exc PyValue
  uuid4 : Uuid
  polls : Nat
  now : Timestamp
  clock : Nat → Timestamp

def uploadedResponse (r : UploadResult) : Response :=
  ⟨if r.status = .noChange then 200 else 201, .upload r, none⟩

/-- The checks of a request to upload: its response where it is refused. -/
def UploadRequest.checked (web : Web) (req : UploadRequest) : Except Response Upload :=
  match pathSlugs req.tenant_id req.bot_id with
  | .error exc => .error (invalidSlug web exc)
  | .ok (tenant_id, bot_id) =>
    match req.data with
    | .error exc => .error (internalError web exc)
    | .ok data =>
      match uploadBodySerializer web.drf data with
      | .error errors => .error (invalidPayload errors)
      | .ok body =>
        .ok ⟨tenant_id, bot_id, (body.doc_id.getD req.uuid4).canonical, body, req.polls, req.now,
          req.clock⟩

def UploadDocumentView.post (env : Env) (web : Web) (req : UploadRequest) : Program Response :=
  match req.checked web with
  | .error response => return response
  | .ok x =>
    (UploadPipeline.execute env x >>= fun r => return uploadedResponse r).tryCatch
      (onUploadError web)

/-- A request to delete: its path, and what its pipeline reads of the clock. -/
structure DeleteRequest where
  tenant_id : String
  bot_id : String
  doc_id : Uuid
  polls : Nat
  now : Timestamp

def DeleteRequest.checked (web : Web) (req : DeleteRequest) : Except Response Delete :=
  match pathSlugs req.tenant_id req.bot_id with
  | .error exc => .error (invalidSlug web exc)
  | .ok (tenant_id, bot_id) => .ok ⟨tenant_id, bot_id, req.doc_id.canonical, req.polls, req.now⟩

def DeleteDocumentView.delete (env : Env) (web : Web) (req : DeleteRequest) : Program Response :=
  match req.checked web with
  | .error response => return response
  | .ok x =>
    (DeletePipeline.execute env x >>= fun _ => return (⟨204, .empty, none⟩ : Response)).tryCatch
      (onUploadError web)

/-! ## `SearchRequestSerializer` -/

/-- `validated_data["filters"]` -/
structure SearchFilters where
  source_types : List String
  tags : List String
  category : Option (Option String)
  only_active : Bool

/-- `validated_data` of `SearchRequestSerializer`. -/
structure SearchBody where
  query : String
  top_k : Int
  filters : Option SearchFilters

def trueWords : List String := ["t", "y", "yes", "true", "on", "1"]
def falseWords : List String := ["f", "n", "no", "false", "off", "0"]

/-- `BooleanField()`. A number is taken for the boolean it equals. -/
def booleanField : PyValue → Field Bool
  | .bool b => .ok b
  | .int i => ofNumber i
  | .float q => ofNumber q
  | .str s =>
    if s.toLower ∈ trueWords then .ok true
    else if s.toLower ∈ falseWords then .ok false
    else invalid
  | _ => invalid
where
  invalid : Field Bool := Field.fail "Must be a valid boolean."
  ofNumber (q : Rat) : Field Bool :=
    if q = 1 then .ok true else if q = 0 then .ok false else invalid

/-- `IntegerField(min_value=..., max_value=...)` -/
def boundedIntegerField (lib : Drf) (min_value max_value : Int) (data : PyValue) : Field Int :=
  match integerField lib min_value data with
  | .error errors => .error errors
  | .ok i =>
    if max_value < i then
      Field.fail ("Ensure this value is less than or equal to " ++ toString max_value ++ ".")
    else .ok i

/-- The fields of `SearchFiltersSerializer`. -/
def searchFiltersSerializer (lib : Drf) : PyValue → Field SearchFilters :=
  dictField fun kvs =>
    ((both (atKey kvs "source_types" (withDefault [] (listField (charField lib false))))
      (both (atKey kvs "tags" (withDefault [] (listField (charField lib false))))
        (both (atKey kvs "category" (nullable (charField lib true)))
          (atKey kvs "only_active" (withDefault true booleanField))))).map
      fun (source_types, tags, category, only_active) =>
        ⟨source_types, tags, category, only_active⟩)

/-- The fields of `SearchRequestSerializer`. -/
def searchRequestFields (lib : Drf) (kvs : List (String × PyValue)) : Field SearchBody :=
  (both (atKey kvs "query" (required (charField lib false)))
    (both (atKey kvs "top_k" (withDefault 5 (boundedIntegerField lib 1 20)))
      (atKey kvs "filters" (optional (searchFiltersSerializer lib))))).map
    fun (query, top_k, filters) => ⟨query, top_k, filters⟩

/-- `SearchRequestSerializer.validate` -/
def SearchBody.validate (attrs : SearchBody) : Field SearchBody :=
  if attrs.filters.any fun filters => !filters.only_active then
    validationError "only_active_must_be_true" "filters.only_active must be true in v1."
  else if strip attrs.query = "" then
    validationError "empty_query" "query must be non-empty after stripping."
  else .ok attrs

def searchRequestValidated (lib : Drf) (kvs : List (String × PyValue)) : Field SearchBody :=
  match searchRequestFields lib kvs with
  | .error errors => .error errors
  | .ok attrs => attrs.validate

/-- `SearchRequestSerializer(data=...)`: its `validated_data`, or its `errors`. -/
def searchRequestSerializer (lib : Drf) : PyValue → Field SearchBody
  | .none => Field.under nonFieldErrors (Field.fail "No data provided")
  | data => dictField (searchRequestValidated lib) data

/-! ## Searching over HTTP -/

structure SearchHttpRequest where
  tenant_id : String
  bot_id : String
  data : Except Exc PyValue

/-- `xs or None` -/
def orNone : List String → Option (List String)
  | [] => none
  | x :: xs => some (x :: xs)

/-- `s or None` -/
def textOrNone (s : String) : Option String := if s = "" then none else some s

/-- The arguments `SearchDocumentsView.post` passes to `search`. -/
def SearchBody.search (body : SearchBody) (tenant_id bot_id : String) : Search where
  tenant_id := tenant_id
  bot_id := bot_id
  query := strip body.query
  top_k := body.top_k.toNat
  source_types := body.filters.bind fun filters => orNone filters.source_types
  tags := body.filters.bind fun filters => orNone filters.tags
  category := (body.filters.bind fun filters => getKey filters.category).bind textOrNone

/-- The checks of a search: its response where it is refused. -/
def SearchHttpRequest.checked (web : Web) (req : SearchHttpRequest) : Except Response Search :=
  match pathSlugs req.tenant_id req.bot_id with
  | .error exc => .error (invalidSlug web exc)
  | .ok (tenant_id, bot_id) =>
    match req.data with
    | .error exc => .error (internalError web exc)
    | .ok data =>
      match searchRequestSerializer web.drf data with
      | .error errors => .error (invalidPayload errors)
      | .ok body => .ok (body.search tenant_id bot_id)

/-- The `except` clauses around `search`. -/
def onSearchError (web : Web) : Exc → Program Response
  | .collectionNotFound _ =>
    return (errorResponse 404 "collection_not_found"
      "No collection for this bot. Upload a document first.")
  | .qdrantConnection attempts last_exc =>
    return (errorResponse 503 "qdrant_unavailable"
      ((Exc.qdrantConnection attempts last_exc).str web.repr))
  | exc => return internalError web exc

def SearchDocumentsView.post (env : Env) (web : Web) (req : SearchHttpRequest) :
    Program Response :=
  match req.checked web with
  | .error response => return response
  | .ok x => (search env x >>= fun r => return (⟨200, .search r, none⟩ : Response)).tryCatch
      (onSearchError web)

/-! ## Searching over gRPC -/

/-- `SearchRequest` of `search.proto`, its `filters` flattened: where they are not set, their fields
have the values of unset fields. -/
structure SearchRpcRequest where
  tenant_id : String
  bot_id : String
  query : String
  top_k : Int
  source_types : List String
  tags : List String
  category : String
  only_active : Bool

/-- `Chunk` of `search.proto`. -/
structure ChunkMessage where
  chunk_id : String
  doc_id : String
  text : String
  source_type : String
  source_filename : String
  source_url : String
  section_path : List String
  page_number : Int
  score : Rat

structure SearchResponse where
  chunks : List ChunkMessage
  total_candidates : Int
  threshold_used : Rat

/-- How an RPC ends. -/
inductive RpcOutcome
  | reply (response : SearchResponse)
  | abort (code : StatusCode) (details : String)

def defaultTopK : Int := 5
def maxTopK : Int := 20

/-- The checks of `Search`, in their order: the status and message it aborts with, or the arguments
it passes to `search`. -/
def SearchRpcRequest.checked (web : Web) (request : SearchRpcRequest) :
    Except (StatusCode × String) Search :=
  match pathSlugs request.tenant_id request.bot_id with
  | .error exc => .error (.invalidArgument, exc.str web.repr)
  | .ok (tenant_id, bot_id) =>
    let query := strip request.query
    let top_k := if request.top_k = 0 then defaultTopK else request.top_k
    if query = "" then .error (.invalidArgument, "Query must be non-empty.")
    else if top_k < 1 ∨ maxTopK < top_k then
      .error (.invalidArgument, "top_k must be in [1, 20], got " ++ toString top_k ++ ".")
    else if request.only_active = false then
      .error (.invalidArgument, "filters.only_active must be true in v1.")
    else
      .ok
        { tenant_id := tenant_id
          bot_id := bot_id
          query := query
          top_k := top_k.toNat
          source_types := orNone request.source_types
          tags := orNone request.tags
          category := textOrNone request.category }

/-- A value for an `int32` field. -/
def toInt32 (i : Int) : Except Exc Int :=
  if -0x80000000 ≤ i ∧ i < 0x80000000 then .ok i
  else .error (.raised "ValueError" ("Value out of range: " ++ toString i))

def toChunkMessage (chunk : Payload × Rat) : Except Exc ChunkMessage := do
  let page_number ← toInt32 (chunk.1.page_number.getD 0)
  return { chunk_id := chunk.1.chunk_id
           doc_id := chunk.1.doc_id
           text := chunk.1.text
           source_type := chunk.1.source_type
           source_filename := chunk.1.source_filename.getD ""
           source_url := chunk.1.source_url.getD ""
           section_path := chunk.1.section_path
           page_number := page_number
           score := chunk.2 }

def toChunkMessages : List (Payload × Rat) → Except Exc (List ChunkMessage)
  | [] => .ok []
  | chunk :: chunks => do
    let message ← toChunkMessage chunk
    let messages ← toChunkMessages chunks
    return message :: messages

def toSearchResponse (r : SearchResult) : Except Exc SearchResponse := do
  let total_candidates ← toInt32 r.total_candidates
  let chunks ← toChunkMessages r.chunks
  return ⟨chunks, total_candidates, r.threshold_used⟩

/-- The `except` clauses around `search`. -/
def onSearchRpcError (web : Web) : Exc → Program RpcOutcome
  | .collectionNotFound _ =>
    return .abort .notFound "Collection does not exist for this tenant/bot."
  | .qdrantConnection attempts last_exc =>
    return (.abort .unavailable
      ("Qdrant unavailable: " ++ (Exc.qdrantConnection attempts last_exc).str web.repr))
  | exc =>
    if exc.isQdrantError then return .abort .internal ("Qdrant error: " ++ exc.str web.repr)
    else return .abort .internal ("Unexpected error: " ++ exc.str web.repr)

/-- What a result is answered with. The server reports an exception of the handler as unknown. -/
def toRpcOutcome (web : Web) (r : SearchResult) : RpcOutcome :=
  match toSearchResponse r with
  | .ok response => .reply response
  | .error exc => .abort .unknown ("Exception calling application: " ++ exc.str web.repr)

def VectorSearchService.Search (env : Env) (web : Web) (request : SearchRpcRequest) :
    Program RpcOutcome :=
  match request.checked web with
  | .error (code, details) => return .abort code details
  | .ok x => (search env x >>= fun r => return toRpcOutcome web r).tryCatch (onSearchRpcError web)

end QdrantRag
