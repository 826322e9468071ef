import QdrantRag.Model.World

/-! # The Qdrant client layer

`apps/qdrant_core/client.py` and `apps/qdrant_core/collection.py`: retries of transient failures,
the locked schema of a bot's collection, and its creation, comparison and emptying. -/

namespace QdrantRag
open Effect Effect.Prog

/-! ## Retries -/

/-- `_is_transient` -/
def isTransient : Exc → Bool
  | .rpcError (some code) _ =>
    code == .unavailable || code == .deadlineExceeded || code == .resourceExhausted
  | .raised type_name _ =>
    ["ResponseHandlingException", "ConnectionError", "TimeoutException"].contains type_name
  | _ => false

/-- The loop of `with_retry`, with `remaining` of the `attempts` to go. -/
def retryLoop {α : Type} (env : Env) (attempts : Nat) (backoff : Rat) (fn : Program α) :
    (remaining : Nat) → (delay : Rat) → Option Exc → Program α
  | 0, _, last_exc => .throw (.qdrantConnection attempts last_exc)
  | remaining + 1, delay, _ =>
    fn.tryCatch fun exc =>
      if isTransient exc = false then .throw exc
      -- the last attempt breaks out of the loop without sleeping
      else if remaining = 0 then .throw (.qdrantConnection attempts (some exc))
      else do
        call (.sleep (delay * (1 + env.uniform (attempts - (remaining + 1)))))
        retryLoop env attempts backoff fn remaining (delay * backoff) (some exc)

/-- `with_retry()`, with its default arguments. -/
def withRetry {α : Type} (env : Env) (fn : Program α) : Program α :=
  retryLoop env 3 2 fn 3 (1 / 2) none

/-! ## The schema -/

def denseVectorName : String := "dense"
def denseVectorSize : Nat := 1024
def denseHnswM : Nat := 16
def denseHnswEfConstruct : Nat := 128
def sparseVectorName : String := "bm25"
def colbertVectorName : String := "colbert"
def colbertVectorSize : Nat := 1024

/-- `PAYLOAD_INDEXES` -/
def payloadIndexes : List (String × PayloadSchema) :=
  [("doc_id", .keyword), ("source_type", .keyword), ("source_url", .keyword),
   ("language", .keyword), ("tags", .keyword), ("category", .keyword), ("is_active", .bool),
   ("tenant_id", .keywordTenant)]

def expectedVectorsConfig : List (String × VectorParams) :=
  [(denseVectorName,
     { size := denseVectorSize, distance := .cosine
       hnsw_config := some ⟨some denseHnswM, some denseHnswEfConstruct⟩
       multivector_config := none }),
   (colbertVectorName,
     { size := colbertVectorSize, distance := .cosine
       hnsw_config := some ⟨some 0, none⟩
       multivector_config := some ⟨.maxSim⟩ })]

def expectedSparseVectorsConfig : List (String × SparseVectorParams) :=
  [(sparseVectorName, { on_disk := some false, modifier := some .idf })]

def expectedParams : CollectionParams :=
  ⟨some (.named expectedVectorsConfig), some expectedSparseVectorsConfig⟩

/-- `actual.vectors.get(name) if actual.vectors else None` -/
def CollectionParams.vector (actual : CollectionParams) (name : String) :
    Except Exc (Option VectorParams) :=
  match actual.vectors with
  | none => .ok none
  | some (.named vectors) => .ok (vectors.lookup name)
  | some (.unnamed _) =>
    .error (.raised "AttributeError" "'VectorParams' object has no attribute 'get'")

def Distance.text : Distance → String
  | .cosine => "Distance.COSINE"
  | .euclid => "Distance.EUCLID"
  | .dot => "Distance.DOT"
  | .manhattan => "Distance.MANHATTAN"

def modifierText : Option Modifier → String
  | none => "None"
  | some .none => "Modifier.NONE"
  | some .idf => "Modifier.IDF"

/-- `getattr(params, "size", "MISSING")` -/
def sizeText : Option VectorParams → String
  | none => "MISSING"
  | some v => toString v.size

/-- The comparisons of `_compare_schema`. -/
def schemaDiff (actual : CollectionParams) : Except Exc (List (String × String)) := do
  let dense ← actual.vector denseVectorName
  let colbert ← actual.vector colbertVectorName
  let denseSize :=
    if dense.any (·.size = denseVectorSize) then []
    else [("dense.size", s!"expected {denseVectorSize}, got {sizeText dense}")]
  let denseDistance :=
    match dense with
    | some v => if v.distance = .cosine then []
      else [("dense.distance", s!"expected COSINE, got {v.distance.text}")]
    | none => []
  let colbertSize :=
    if colbert.any (·.size = colbertVectorSize) then []
    else [("colbert.size", s!"expected {colbertVectorSize}, got {sizeText colbert}")]
  let colbertMultivector :=
    match colbert with
    | some v => if v.multivector_config.isSome then []
      else [("colbert.multivector", "expected enabled, got disabled")]
    | none => []
  let sparse :=
    match (actual.sparse_vectors.getD []).lookup sparseVectorName with
    | none => [("sparse.bm25", "MISSING")]
    | some sp => if sp.modifier = some .idf then []
      else [("sparse.bm25.modifier", s!"expected IDF, got {modifierText sp.modifier}")]
  return denseSize ++ denseDistance ++ colbertSize ++ colbertMultivector ++ sparse

/-! ## Collections -/

/-- `_compare_schema` -/
def compareSchema (name : String) : Program (List (String × String)) := do
  let actual ← call (.getCollection name)
  ofExcept (schemaDiff actual)

/-- Return `name` where its schema is the expected one. -/
def checkedName (name : String) : Program String := do
  let diff ← compareSchema name
  if diff = [] then return name else .throw (.schemaMismatch name diff)

def createCollectionForBot (env : Env) (tenant_id bot_id : String) : Program String :=
  withRetry env do
    let name ← ofExcept (collectionName tenant_id bot_id)
    call (.createCollection name expectedParams)
    each (fun ix => call (.createPayloadIndex name ix.1 ix.2)) payloadIndexes
    return name

/-- The `except UnexpectedResponse` of `get_or_create_collection`. -/
def onUnexpectedResponse (name : String) : Exc → Program String
  | .unexpectedResponse status_code msg =>
    if status_code = 409 then checkedName name
    else .throw (.qdrantOperation "create_collection failed: "
      (.unexpectedResponse status_code msg))
  | exc => .throw exc

def getOrCreateCollection (env : Env) (tenant_id bot_id : String) : Program String :=
  withRetry env do
    let name ← ofExcept (collectionName tenant_id bot_id)
    let exists_ : Bool ← call (.collectionExists name)
    if exists_ then checkedName name
    else (createCollectionForBot env tenant_id bot_id).tryCatch (onUnexpectedResponse name)

def deleteByDocId (env : Env) (tenant_id bot_id doc_id : String) : Program Nat :=
  withRetry env do
    let name ← ofExcept (collectionName tenant_id bot_id)
    let exists_ : Bool ← call (.collectionExists name)
    if exists_ then
      let count_before : Nat ← call (.count name (docFilter doc_id))
      call (.deletePoints name (docFilter doc_id))
      return count_before
    else return 0

end QdrantRag
