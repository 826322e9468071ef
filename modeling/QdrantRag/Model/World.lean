import Mathlib.Data.List.MinMax
import QdrantRag.Effect.Prog
import QdrantRag.Model.Points
import QdrantRag.Model.Rows

/-! # The stores and the calls made on them

The state shared by all requests (`World`): the Postgres tables and advisory locks and the Qdrant
collections. The pipelines reach it, the embedder and the clock only through the calls `Op`;
`serve` says what each call does when it is served, and `exec` what the caller sees when the
environment lets it fail. -/

namespace QdrantRag
open Keyed Effect

/-! ## What lies outside the repository -/

/-- One text's part of what `BGEM3FlagModel.encode` returns. -/
structure Embedding where
  dense : List Rat
  sparse : List (Int × Rat)
  colbert : List (List Rat)

/-- The transport `qdrant_client` is configured for (`QDRANT["PREFER_GRPC"]`). -/
inductive Transport
  | rest | grpc
  deriving DecidableEq

/-- The libraries and models the service calls. -/
structure Env where
  /-- `str(uuid.uuid5(uuid.NAMESPACE_OID, name))` -/
  uuid5 : String → String
  sha256 : List UInt8 → Digest
  /-- `RecursiveCharacterTextSplitter(chunk_size, chunk_overlap, ...).split_text` -/
  split_text : Nat → Nat → String → List String
  /-- `len(tokenizer.encode(text, add_special_tokens=False))` -/
  tokenizer_len : String → Nat
  encode : String → Embedding
  /-- The evaluation of `client.query_points` on the points of a collection. -/
  query_points : List Point → QueryRequest → List ScoredPoint
  /-- Qdrant returns only points of the collection it is asked for. -/
  query_mem : ∀ pts q, ∀ r ∈ query_points pts q, ∃ p ∈ pts, p.payload = r.payload
  transport : Transport
  /-- The `n`-th draw of `random.uniform(-0.2, 0.2)`. -/
  uniform : Nat → Rat

/-! ## The state -/

structure Lock where
  key : LockKey
  session : Nat
  deriving DecidableEq

instance : HasKey Lock LockKey := ⟨Lock.key⟩

structure World where
  tenants : Table Tenant
  bots : Table Bot
  /-- `Bot.collection_name` is a unique column. -/
  unique_collection_name : ∀ b ∈ bots.rows, ∀ b' ∈ bots.rows,
    b.collection_name = b'.collection_name → b = b'
  documents : Table Document
  locks : Table Lock
  collections : Table Collection

namespace World

/-- The empty stores. -/
def empty : World := ⟨.empty, .empty, by simp, .empty, .empty, .empty⟩

/-- The document row with primary key `doc_id`. -/
def row (s : World) (doc_id : String) : Option Document := s.documents.find? doc_id

/-- The points of a collection; none where it does not exist. -/
def points (s : World) (name : String) : Table Point :=
  match s.collections.find? name with
  | some c => c.points
  | none => .empty

/-- The session that holds an advisory lock. -/
def holder (s : World) (k : LockKey) : Option Nat := (s.locks.find? k).map Lock.session

/-- Insert a bot row that breaks no unique constraint. -/
def insertBot (s : World) (b : Bot)
    (h : ¬ ∃ b' ∈ s.bots.rows, b'.collection_name = b.collection_name) : World :=
  { s with
    bots := s.bots.put b
    unique_collection_name := by
      intro b₁ h₁ b₂ h₂ he
      rcases Table.mem_put.mp h₁ with e₁ | ⟨m₁, _⟩ <;>
        rcases Table.mem_put.mp h₂ with e₂ | ⟨m₂, _⟩
      · rw [e₁, e₂]
      · exact absurd ⟨b₂, m₂, he ▸ e₁ ▸ rfl⟩ h
      · exact absurd ⟨b₁, m₁, he.trans (e₂ ▸ rfl)⟩ h
      · exact s.unique_collection_name _ m₁ _ m₂ he }

/-- Postgres frees the locks of a session that ended. -/
def endSession (s : World) (i : Nat) : World :=
  { s with locks := s.locks.remove fun l => l.session == i }

def modifyCollection (s : World) (name : String) (f : Collection → Collection)
    (hf : ∀ c, (f c).name = c.name) : World :=
  { s with collections := s.collections.modify name f hf }

end World

/-! ## The calls -/

inductive Op
  | tryAdvisoryLock (k : LockKey)
  | advisoryUnlock (k : LockKey)
  | sleep (seconds : Rat)
  | tenantGetOrCreate (tenant_id name : String)
  | tenantGet (tenant_id : String)
  | botGetOrCreate (tenant_id bot_id name : String)
  | botGet (tenant_id bot_id : String)
  /-- `Document.objects.filter(doc_id=...).first()` -/
  | documentFirst (doc_id : String)
  /-- The content-match query, `.exclude(doc_id=...).first()`. -/
  | documentMatch (tenant_id bot_id content_hash doc_id : String)
  /-- `row.save(update_fields=...)` -/
  | documentSave (row : Document) (update_fields : List DocumentField) (now : Timestamp)
  | documentUpdateOrCreate (doc_id : String) (defaults : DocumentDefaults) (now : Timestamp)
  | loadTokenizer
  | encode (texts : List String)
  | collectionExists (name : String)
  | createCollection (name : String) (params : CollectionParams)
  | createPayloadIndex (name field_name : String) (field_schema : PayloadSchema)
  | getCollection (name : String)
  | count (name : String) (count_filter : Filter)
  | deletePoints (name : String) (points_selector : Filter)
  | upsert (name : String) (points : List Point)
  | queryPoints (name : String) (request : QueryRequest)

/-- The answers. -/
@[reducible] def Ans : Op → Type
  | .tryAdvisoryLock _ => Bool
  | .advisoryUnlock _ => Unit
  | .sleep _ => Unit
  | .tenantGetOrCreate .. => Tenant
  | .tenantGet _ => Tenant
  | .botGetOrCreate .. => Bot
  | .botGet .. => Bot
  | .documentFirst _ => Option Document
  | .documentMatch .. => Option Document
  | .documentSave .. => Unit
  | .documentUpdateOrCreate .. => Unit
  | .loadTokenizer => Unit
  | .encode _ => List Embedding
  | .collectionExists _ => Bool
  | .createCollection .. => Unit
  | .createPayloadIndex .. => Unit
  | .getCollection _ => CollectionParams
  | .count .. => Nat
  | .deletePoints .. => Unit
  | .upsert .. => Unit
  | .queryPoints .. => List ScoredPoint

/-- The rows a content match may return: active, indexed, of the pair, with the hash, under
another id. -/
def contentMatches (s : World) (tenant_id bot_id content_hash doc_id : String) : List Document :=
  s.documents.rows.filter fun row =>
    row.tenant_id == tenant_id && row.bot_id == bot_id && row.content_hash == content_hash &&
      row.status == .active && decide (0 < row.chunk_count) && row.doc_id != doc_id

/-- How the client reports a collection that is there already, or one that is not. -/
def Env.alreadyExists (env : Env) : Exc :=
  match env.transport with
  | .rest => .unexpectedResponse 409 "already exists"
  | .grpc => .rpcError (some .alreadyExists) "already exists"

def Env.notFound (env : Env) : Exc :=
  match env.transport with
  | .rest => .unexpectedResponse 404 "not found"
  | .grpc => .rpcError (some .notFound) "not found"

/-- What a call does when it is served, for the session `i`. -/
def serve (env : Env) (i : Nat) : (o : Op) → World → Except Exc (Ans o × World)
  | .tryAdvisoryLock k, s =>
    match s.locks.find? k with
    | none => .ok (true, { s with locks := s.locks.put ⟨k, i⟩ })
    | some l => .ok (l.session == i, s)
  | .advisoryUnlock k, s =>
    .ok ((), { s with locks := s.locks.remove fun l => l.key == k && l.session == i })
  | .sleep _, s => .ok ((), s)
  | .tenantGetOrCreate tenant_id name, s =>
    match s.tenants.find? tenant_id with
    | some t => .ok (t, s)
    | none => .ok (⟨tenant_id, name⟩, { s with tenants := s.tenants.put ⟨tenant_id, name⟩ })
  | .tenantGet tenant_id, s =>
    match s.tenants.find? tenant_id with
    | some t => .ok (t, s)
    | none => .error (.doesNotExist "Tenant")
  | .botGetOrCreate tenant_id bot_id name, s =>
    match s.bots.find? (tenant_id, bot_id) with
    | some b => .ok (b, s)
    | none =>
      match Bot.save tenant_id bot_id name with
      | .error e => .error e
      | .ok b =>
        if h : ∃ b' ∈ s.bots.rows, b'.collection_name = b.collection_name then
          .error (.integrityError "duplicate key value violates unique constraint")
        else .ok (b, s.insertBot b h)
  | .botGet tenant_id bot_id, s =>
    match s.bots.find? (tenant_id, bot_id) with
    | some b => .ok (b, s)
    | none => .error (.doesNotExist "Bot")
  | .documentFirst doc_id, s => .ok (s.row doc_id, s)
  | .documentMatch tenant_id bot_id content_hash doc_id, s =>
    -- `Meta.ordering` is `-uploaded_at`, so `first` takes the row created last
    .ok ((contentMatches s tenant_id bot_id content_hash doc_id).argmax Document.uploaded_at, s)
  | .documentSave row fields now, s =>
    match s.row row.doc_id with
    | none => .error (.raised "DatabaseError" "Save with update_fields did not affect any rows.")
    | some _ =>
      .ok ((), { s with documents := s.documents.modify row.doc_id (row.saveFields fields now)
                          (row.doc_id_saveFields fields now) })
  | .documentUpdateOrCreate doc_id defaults now, s =>
    match defaults.check with
    | .error e => .error e
    | .ok () =>
      match s.row doc_id with
      | none => .ok ((), { s with documents := s.documents.put (defaults.create doc_id now) })
      | some row => .ok ((), { s with documents := s.documents.put (defaults.update row now) })
  | .loadTokenizer, s => .ok ((), s)
  | .encode texts, s => .ok (texts.map env.encode, s)
  | .collectionExists name, s => .ok ((s.collections.find? name).isSome, s)
  | .createCollection name params, s =>
    match s.collections.find? name with
    | some _ => .error env.alreadyExists
    | none => .ok ((), { s with collections := s.collections.put ⟨name, params, [], .empty⟩ })
  | .createPayloadIndex name field_name field_schema, s =>
    match s.collections.find? name with
    | none => .error env.notFound
    | some _ =>
      .ok ((), s.modifyCollection name (·.setSchema field_name field_schema) fun _ => rfl)
  | .getCollection name, s =>
    match s.collections.find? name with
    | none => .error env.notFound
    | some c => .ok (c.params, s)
  | .count name count_filter, s =>
    match s.collections.find? name with
    | none => .error env.notFound
    | some c => .ok ((c.points.rows.filter fun p => count_filter.holds p.payload).length, s)
  | .deletePoints name selector, s =>
    match s.collections.find? name with
    | none => .error env.notFound
    | some _ => .ok ((), s.modifyCollection name (·.deletePoints selector) fun _ => rfl)
  | .upsert name points, s =>
    match s.collections.find? name with
    | none => .error env.notFound
    | some _ => .ok ((), s.modifyCollection name (·.upsert points) fun _ => rfl)
  | .queryPoints name request, s =>
    match s.collections.find? name with
    | none => .error env.notFound
    | some c => .ok (env.query_points c.points.rows request, s)

/-! ## Failing calls -/

/-- The environment's choice at a call: it is served, or it fails, not having taken effect or
having done so. -/
inductive Fault
  | none
  | before (e : Exc)
  | after (e : Exc)

/-- `sleep` reaches no server. -/
def Op.isLocal : Op → Bool
  | .sleep _ => true
  | _ => false

def Op.isLock : Op → Bool
  | .tryAdvisoryLock _ | .advisoryUnlock _ => true
  | _ => false

/-- The call of session `i` as its caller sees it. A lock statement fails only with its
connection, and Postgres frees the locks of the session then. -/
def exec (env : Env) (i : Nat) : Exec Ans Exc Fault World := fun o f s =>
  if o.isLock then
    match f, serve env i o s with
    | .none, .ok (a, s') => (.ok a, s')
    | .none, .error e => (.error e, s)
    | .before e, _ | .after e, _ => (.error e, s.endSession i)
  else if o.isLocal then
    match serve env i o s with
    | .ok (a, s') => (.ok a, s')
    | .error e => (.error e, s)
  else
    match f, serve env i o s with
    | .none, .ok (a, s') => (.ok a, s')
    | .none, .error e => (.error e, s)
    | .before e, _ => (.error e, s)
    | .after e, .ok (_, s') => (.error e, s')
    | .after e, .error _ => (.error e, s)

/-- A call of the service, as it was made. -/
abbrev Call := Event Op Fault World

/-- The programs of the service. -/
abbrev Program := Prog Ans Exc

/-- Make one call. -/
abbrev call (o : Op) : Program (Ans o) := Prog.perform o

end QdrantRag
