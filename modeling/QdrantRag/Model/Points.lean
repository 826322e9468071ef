import QdrantRag.Data.Table
import QdrantRag.Model.Values

/-! # Points, collections and queries

The Qdrant side of the data: points and their payloads, filters, collection parameters and query
requests, as `apps/qdrant_core/collection.py`, `apps/qdrant_core/search.py` and
`apps/ingestion/payload.py` use them. -/

namespace QdrantRag
open Keyed

/-! ## Points -/

/-- The payload `build_payload` writes. -/
structure Payload where
  tenant_id : String
  bot_id : String
  doc_id : String
  chunk_id : String
  version : Nat
  is_active : Bool
  uploaded_at : Timestamp
  source_type : String
  source_filename : Option String
  source_url : Option String
  source_item_index : Nat
  source_content_hash : String
  section_path : List String
  page_number : Option Int
  text : String
  char_count : Nat
  token_count : Nat
  deriving DecidableEq

/-- The (tenant, bot) pair the payload names. -/
def Payload.owner (p : Payload) : String × String := (p.tenant_id, p.bot_id)

structure SparseVector where
  indices : List Int
  values : List Rat
  deriving DecidableEq

/-- The named vectors of a point. -/
structure Vectors where
  dense : List Rat
  bm25 : SparseVector
  colbert : List (List Rat)
  deriving DecidableEq

/-- `PointStruct`; ids are UUID strings. -/
structure Point where
  id : String
  vector : Vectors
  payload : Payload
  deriving DecidableEq

instance : HasKey Point String := ⟨Point.id⟩

/-! ## Filters -/

/-- `MatchValue` on a keyword or a flag, `MatchAny` on keywords. -/
inductive Match
  | keyword (value : String)
  | flag (value : Bool)
  | any (values : List String)
  deriving DecidableEq

structure FieldCondition where
  key : String
  «match» : Match
  deriving DecidableEq

structure Filter where
  must : List FieldCondition
  deriving DecidableEq

/-- The payload keys a condition of the service can name. -/
def Payload.field (p : Payload) : String → Option PyValue
  | "doc_id" => some (.str p.doc_id)
  | "source_type" => some (.str p.source_type)
  | "is_active" => some (.bool p.is_active)
  | _ => none

def FieldCondition.holds (c : FieldCondition) (p : Payload) : Bool :=
  match c.match, p.field c.key with
  | .keyword v, some (.str s) => s == v
  | .flag v, some (.bool b) => b == v
  | .any vs, some (.str s) => vs.contains s
  | _, _ => false

def Filter.holds (f : Filter) (p : Payload) : Bool := f.must.all (·.holds p)

/-- `Filter(must=[FieldCondition(key="doc_id", match=MatchValue(value=doc_id))])` -/
def docFilter (doc_id : String) : Filter := ⟨[⟨"doc_id", .keyword doc_id⟩]⟩

@[simp] theorem holds_docFilter {d : String} {p : Payload} :
    (docFilter d).holds p = true ↔ p.doc_id = d := by
  simp [docFilter, Filter.holds, FieldCondition.holds, Payload.field]

/-! ## Collections -/

inductive Distance
  | cosine | euclid | dot | manhattan
  deriving DecidableEq, Repr

structure HnswConfigDiff where
  m : Option Nat
  ef_construct : Option Nat
  deriving DecidableEq

inductive MultiVectorComparator
  | maxSim
  deriving DecidableEq

structure MultiVectorConfig where
  comparator : MultiVectorComparator
  deriving DecidableEq

structure VectorParams where
  size : Nat
  distance : Distance
  hnsw_config : Option HnswConfigDiff
  multivector_config : Option MultiVectorConfig
  deriving DecidableEq

inductive Modifier
  | none | idf
  deriving DecidableEq, Repr

structure SparseVectorParams where
  /-- `index.on_disk` -/
  on_disk : Option Bool
  modifier : Option Modifier
  deriving DecidableEq

/-- One unnamed vector, or vectors by name. -/
inductive VectorsConfig
  | unnamed (params : VectorParams)
  | named (params : List (String × VectorParams))

structure CollectionParams where
  vectors : Option VectorsConfig
  sparse_vectors : Option (List (String × SparseVectorParams))

inductive PayloadSchema
  | keyword | bool
  /-- `KeywordIndexParams(type="keyword", is_tenant=True)` -/
  | keywordTenant
  deriving DecidableEq

structure Collection where
  name : String
  params : CollectionParams
  payload_schema : List (String × PayloadSchema)
  points : Table Point

instance : HasKey Collection String := ⟨Collection.name⟩

def Collection.setSchema (field_name : String) (schema : PayloadSchema) (c : Collection) :
    Collection :=
  { c with
    payload_schema := (field_name, schema) :: c.payload_schema.filter (·.1 ≠ field_name) }

def Collection.deletePoints (selector : Filter) (c : Collection) : Collection :=
  { c with points := c.points.remove fun p => selector.holds p.payload }

def Collection.upsert (points : List Point) (c : Collection) : Collection :=
  { c with points := c.points.putAll points }

/-! ## Queries -/

inductive PrefetchQuery
  | dense (vector : List Rat)
  | sparse (vector : SparseVector)
  | fusionRrf

inductive Prefetch
  | mk (prefetch : List Prefetch) (query : PrefetchQuery) (vector_name : Option String)
      (limit : Nat) (filter : Option Filter)

/-- The arguments of `client.query_points` besides the collection. -/
structure QueryRequest where
  prefetch : List Prefetch
  query : List (List Rat)
  vector_name : String
  limit : Nat
  score_threshold : Rat
  query_filter : Filter

structure ScoredPoint where
  id : String
  payload : Payload
  score : Rat

end QdrantRag
