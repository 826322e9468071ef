import QdrantRag.Model.Pipeline

/-! # Search

`apps/qdrant_core/search.py`: the query of a bot's collection. -/

namespace QdrantRag
open Effect Effect.Prog Text

def scoreThreshold : Rat := 0
def prefetchLimit : Nat := 50
def fusionLimit : Nat := 100
def rrfDenseWeight : Nat := 3
def rrfSparseWeight : Nat := 1

/-- The arguments of `search`. -/
structure Search where
  tenant_id : String
  bot_id : String
  query : String
  top_k : Nat
  source_types : Option (List String)
  tags : Option (List String)
  category : Option String

/-- A chunk is the payload of a point, with its score. -/
structure SearchResult where
  chunks : List (Payload × Rat)
  total_candidates : Nat
  threshold_used : Rat

/-- A condition on a list argument; an empty or absent list gives none. -/
def anyCondition (key : String) : Option (List String) → List FieldCondition
  | some (v :: vs) => [⟨key, .any (v :: vs)⟩]
  | _ => []

def buildFilter (x : Search) : Filter where
  must := [⟨"is_active", .flag true⟩] ++ anyCondition "source_type" x.source_types ++
    anyCondition "tags" x.tags ++
    match x.category with
    | some category => if category = "" then [] else [⟨"category", .keyword category⟩]
    | none => []

def buildInnerPrefetches (dense_vec : List Rat) (sparse : SparseVector) (qfilter : Filter) :
    List Prefetch :=
  List.replicate rrfDenseWeight
      (.mk [] (.dense dense_vec) (some denseVectorName) prefetchLimit (some qfilter)) ++
    List.replicate rrfSparseWeight
      (.mk [] (.sparse sparse) (some sparseVectorName) prefetchLimit (some qfilter))

/-- `out[key][0]` -/
def firstEmbedding : List Embedding → Program Embedding
  | e :: _ => return e
  | [] => .throw (.raised "IndexError" "list index out of range")

/-- `embed_query` -/
def embedQuery (text : String) : Program Embedding :=
  if strip text = "" then .throw (.raised "ValueError" "embed_query requires a non-empty string")
  else do
    let out ← embedPassages [text]
    firstEmbedding out

/-- The request `search` sends for an embedded query. -/
def searchRequest (x : Search) (e : Embedding) : QueryRequest :=
  let qfilter := buildFilter x
  { prefetch := [.mk (buildInnerPrefetches e.dense (sparseToQdrant e.sparse) qfilter) .fusionRrf
      none fusionLimit none]
    query := e.colbert
    vector_name := colbertVectorName
    limit := x.top_k
    score_threshold := scoreThreshold
    query_filter := qfilter }

/-- `_execute_query` -/
def executeQuery (env : Env) (collection : String) (request : QueryRequest) :
    Program SearchResult :=
  withRetry env do
    let points ← call (.queryPoints collection request)
    return ⟨points.map fun p => (p.payload, p.score), points.length, scoreThreshold⟩

def search (env : Env) (x : Search) : Program SearchResult := do
  let name ← ofExcept (collectionName x.tenant_id x.bot_id)
  let exists_ : Bool ← call (.collectionExists name)
  if exists_ then
    let e ← embedQuery x.query
    executeQuery env name (searchRequest x e)
  else .throw (.collectionNotFound name)

end QdrantRag
