import QdrantRag.Model.Chunker
import QdrantRag.Model.Collection

/-! # The upload and delete pipelines

`apps/ingestion/locks.py` and `apps/ingestion/pipeline.py`. -/

namespace QdrantRag
open Effect Effect.Prog Text

/-! ## The advisory lock -/

/-- `ConcurrentUploadError` of `upload_lock`. -/
def concurrentUploadError (tenant_id bot_id doc_id : String) : Exc :=
  .upload .concurrentUpload
    ("Could not acquire lock for " ++ tenant_id ++ "/" ++ bot_id ++ "/" ++ doc_id ++ " within 5.0s")
    none [("tenant_id", .str tenant_id), ("bot_id", .str bot_id), ("doc_id", .str doc_id)] (some 5)

/-- The polling loop of `upload_lock`. `polls` is how often the clock is read before the deadline
has passed. -/
def acquireLock (key : LockKey) (timeout : Exc) : (polls : Nat) → Program Unit
  | 0 => do
    let got : Bool ← call (.tryAdvisoryLock key)
    if got then return () else .throw timeout
  | polls + 1 => do
    let got : Bool ← call (.tryAdvisoryLock key)
    if got then return ()
    else do
      call (.sleep (1 / 20))
      acquireLock key timeout polls

/-- `with upload_lock(tenant_id, bot_id, doc_id): body` -/
def uploadLock {α : Type} (env : Env) (tenant_id bot_id doc_id : String) (polls : Nat)
    (body : Program α) : Program α := do
  let key ← ofExcept (advisoryLockKey env.sha256 tenant_id bot_id doc_id)
  acquireLock key (concurrentUploadError tenant_id bot_id doc_id) polls
  body.tryFinally (call (.advisoryUnlock key))

/-! ## Tenants and bots -/

/-- Raise `e` again unless it is an `IntegrityError`; then run `fallback`. -/
def onIntegrityError {α : Type} (fallback : Program α) : Exc → Program α
  | .integrityError _ => fallback
  | e => .throw e

def getOrCreateTenant (tenant_id : String) : Program Tenant :=
  (call (.tenantGetOrCreate tenant_id tenant_id)).tryCatch
    (onIntegrityError (call (.tenantGet tenant_id)))

def getOrCreateBot (tenant : Tenant) (bot_id : String) : Program Bot :=
  (call (.botGetOrCreate tenant.tenant_id bot_id bot_id)).tryCatch
    (onIntegrityError (call (.botGet tenant.tenant_id bot_id)))

/-! ## Upload -/

def maxChunksPerDoc : Nat := 5000

inductive UploadStatus
  | created | replaced | noChange
  deriving DecidableEq, Repr

structure UploadResult where
  doc_id : String
  chunks_created : Nat
  items_processed : Nat
  collection_name : String
  status : UploadStatus
  deriving DecidableEq

/-- The arguments of `UploadPipeline.execute`, with what the request reads of the clock: how often
it polls for its lock, the time stamped on its row, and the times stamped on its points. -/
structure Upload where
  tenant_id : String
  bot_id : String
  doc_id : String
  body : UploadBody
  polls : Nat
  now : Timestamp
  clock : Nat → Timestamp

/-- The bytes `_compute_content_hash` feeds to SHA-256. -/
def hashInput (items : List UploadItem) : List UInt8 :=
  items.flatMap fun item => utf8 item.content ++ [0x1f]

def computeContentHash (env : Env) (items : List UploadItem) : String :=
  (env.sha256 (hashInput items)).hexdigest

def incomingHash (env : Env) (body : UploadBody) : String :=
  let incoming_hash := strip ((getKey body.content_hash).getD "")
  if incoming_hash = "" then computeContentHash env body.items else incoming_hash

/-- `_point_id_for_chunk` -/
def pointIdForChunk (env : Env) (chunk_id : String) : String := env.uuid5 chunk_id

/-- `flat`: every chunk with its item and the item's position. -/
def flatChunks (env : Env) (body : UploadBody) : List (Nat × UploadItem × Chunk) :=
  body.items.zipIdx.flatMap fun (item, auto_idx) =>
    (chunkItem env item.content body.source_type).map fun c => (auto_idx, item, c)

/-- `sparse_to_qdrant` -/
def sparseToQdrant (sparse : List (Int × Rat)) : SparseVector :=
  ⟨sparse.map Prod.fst, sparse.map Prod.snd⟩

def Embedding.toVectors (e : Embedding) : Vectors := ⟨e.dense, sparseToQdrant e.sparse, e.colbert⟩

/-- The point of one chunk. -/
def buildPoint (env : Env) (x : Upload) (source : ScrapedSource) (uploaded_at : Timestamp)
    (auto_idx : Nat) (item_data : UploadItem) (chunk : Chunk) (e : Embedding) : Point :=
  let item : ScrapedItem := ⟨auto_idx, item_data.section_path, getKey item_data.page_number⟩
  let payload := buildPayload chunk x.tenant_id x.bot_id x.doc_id item source uploaded_at
  ⟨pointIdForChunk env payload.chunk_id, e.toVectors, payload⟩

def scrapedSource (env : Env) (body : UploadBody) : ScrapedSource :=
  ⟨body.source_type, getKey body.source_filename, getKey body.source_url, incomingHash env body⟩

/-- `points` -/
def buildPoints (env : Env) (x : Upload) (embeddings : List Embedding) : List Point :=
  ((flatChunks env x.body).zip embeddings).zipIdx.map fun (((auto_idx, item_data, chunk), e), i) =>
    buildPoint env x (scrapedSource env x.body) (x.clock i) auto_idx item_data chunk e

/-- The checks of `embed_passages`. -/
def checkTexts (texts : List String) : Except Exc Unit :=
  if texts = [] then .error (.raised "ValueError" "embed_passages requires at least one input")
  else
    match texts.findIdx? (strip · = "") with
    | some i =>
      .error (.raised "ValueError" ("texts[" ++ toString i ++ "] is empty or not a string"))
    | none => .ok ()

theorem checkTexts_eq_ok {texts : List String} :
    checkTexts texts = .ok () ↔ texts ≠ [] ∧ ∀ text ∈ texts, strip text ≠ "" := by
  unfold checkTexts
  by_cases hne : texts = []
  · rw [if_pos hne]
    exact iff_of_false nofun fun h => h.1 hne
  · rw [if_neg hne]
    cases hfind : texts.findIdx? (strip · = "") with
    | some i =>
      refine iff_of_false nofun fun h => ?_
      have hnone : texts.findIdx? (strip · = "") = none :=
        List.findIdx?_eq_none_iff.mpr fun text ht => decide_eq_false (h.2 text ht)
      cases hfind.symm.trans hnone
    | none =>
      refine iff_of_true rfl ⟨hne, fun text ht => ?_⟩
      exact of_decide_eq_false (List.findIdx?_eq_none_iff.mp hfind text ht)

/-- Texts are refused with a `ValueError`. -/
theorem checkTexts_eq_error {texts : List String} {e : Exc} (h : checkTexts texts = .error e) :
    ∃ msg, e = .raised "ValueError" msg := by
  unfold checkTexts at h
  split at h
  · cases h
    exact ⟨_, rfl⟩
  · split at h
    · cases h
      exact ⟨_, rfl⟩
    · cases h

/-- `embed_passages` -/
def embedPassages (texts : List String) : Program (List Embedding) := do
  ofExcept (checkTexts texts)
  call (.encode texts)

theorem embedPassages_of_checked {texts : List String} (h : checkTexts texts = .ok ()) :
    embedPassages texts = call (.encode texts) := by
  unfold embedPassages
  rw [h]
  rfl

/-- `raise QdrantWriteError(f"...: {exc}") from exc` for a `QdrantError`. -/
def onQdrantError {α : Type} (msg : String) (details : List (String × PyValue)) :
    Exc → Program α := fun exc =>
  if exc.isQdrantError then .throw (.upload .qdrantWrite msg (some exc) details none)
  else .throw exc

/-- The collision check on the row found under `doc_id`. -/
def checkOwner (x : Upload) : Option Document → Program Unit
  | none => return ()
  | some existing =>
    if existing.tenant_id ≠ x.tenant_id ∨ existing.bot_id ≠ x.bot_id then
      .throw (.uploadError .qdrantWrite
        "doc_id collision across tenants/bots — refuse to overwrite."
        [("doc_id", .str x.doc_id), ("expected_tenant", .str x.tenant_id),
         ("found_tenant", .str existing.tenant_id)])
    else return ()

/-- A `no_change` answer about the row `existing`, which is refreshed first. -/
def refresh (x : Upload) (existing : Document) : Program UploadResult := do
  call (.documentSave existing [.last_refreshed_at] x.now)
  let collection_name ← ofExcept (collectionName x.tenant_id x.bot_id)
  return ⟨existing.doc_id, existing.chunk_count, existing.item_count, collection_name, .noChange⟩

/-- The row of the same document, where it is indexed with the same content. -/
def sameContent (existing : Option Document) (incoming_hash : String) : Option Document :=
  existing.filter fun row => 0 < row.chunk_count ∧ row.content_hash = incoming_hash

/-- The `defaults` of the final `update_or_create`. -/
def uploadDefaults (env : Env) (x : Upload) (bot : Bot) (chunk_count : Nat) :
    DocumentDefaults where
  bot_ref := bot.pair
  tenant_id := x.tenant_id
  bot_id := x.bot_id
  source_type := x.body.source_type
  source_filename := getKey x.body.source_filename
  source_url := getKey x.body.source_url
  content_hash := incomingHash env x.body
  chunk_count := chunk_count
  item_count := x.body.items.length
  status := .active
  error_message := none
  raw_payload := x.body.toPy

/-- The writes: delete the old points on a replace, upsert, save the row. -/
def writeDocument (env : Env) (x : Upload) (bot : Bot) (is_replace : Bool)
    (collection_name : String) (points : List Point) : Program UploadResult := do
  if is_replace then
    let _ ← (deleteByDocId env x.tenant_id x.bot_id x.doc_id).tryCatch
      (onQdrantError "delete_by_doc_id failed during replace: " [("doc_id", .str x.doc_id)])
  (call (.upsert collection_name points)).tryCatch fun exc =>
    .throw (.upload .qdrantWrite "upsert failed: " (some exc)
      [("doc_id", .str x.doc_id), ("chunks", .int points.length)] none)
  call (.documentUpdateOrCreate x.doc_id (uploadDefaults env x bot points.length) x.now)
  return ⟨x.doc_id, points.length, x.body.items.length, collection_name,
    if is_replace then .replaced else .created⟩

/-- From the collection to the end: get or create, chunk, embed, write. -/
def indexDocument (env : Env) (x : Upload) (bot : Bot) (is_replace : Bool) :
    Program UploadResult := do
  let collection_name ← (getOrCreateCollection env x.tenant_id x.bot_id).tryCatch
    (onQdrantError "Collection get_or_create failed: "
      [("tenant_id", .str x.tenant_id), ("bot_id", .str x.bot_id)])
  call .loadTokenizer
  let flat := flatChunks env x.body
  if flat = [] then
    .throw (.uploadError .noEmbeddableContent "No chunks survived after chunking."
      [("items_count", .int x.body.items.length)])
  else if maxChunksPerDoc < flat.length then
    .throw (.uploadError .documentTooLarge
      s!"Document produces {flat.length} chunks, max is {maxChunksPerDoc}"
      [("chunk_count", .int flat.length), ("max", .int maxChunksPerDoc)])
  else do
    let embeddings ← (embedPassages (flat.map (·.2.2.text))).tryCatch fun exc =>
      .throw (.upload .embedder "Embedder failed: " (some exc)
        [("chunk_count", .int flat.length)] none)
    writeDocument env x bot is_replace collection_name (buildPoints env x embeddings)

/-- The body of `UploadPipeline.execute` under the lock. -/
def UploadPipeline.locked (env : Env) (x : Upload) : Program UploadResult := do
  let tenant ← getOrCreateTenant x.tenant_id
  let bot ← getOrCreateBot tenant x.bot_id
  let existing : Option Document ← call (.documentFirst x.doc_id)
  checkOwner x existing
  let incoming_hash := incomingHash env x.body
  match sameContent existing incoming_hash with
  | some row => refresh x row
  | none => do
    let content_match : Option Document ←
      call (.documentMatch x.tenant_id x.bot_id incoming_hash x.doc_id)
    match content_match with
    | some row => refresh x row
    | none => indexDocument env x bot existing.isSome

def UploadPipeline.execute (env : Env) (x : Upload) : Program UploadResult :=
  uploadLock env x.tenant_id x.bot_id x.doc_id x.polls (UploadPipeline.locked env x)

/-! ## Delete -/

structure DeleteResult where
  doc_id : String
  chunks_deleted : Nat
  was_already_deleted : Bool
  deriving DecidableEq

/-- The arguments of `DeletePipeline.execute`, with its readings of the clock. -/
structure Delete where
  tenant_id : String
  bot_id : String
  doc_id : String
  polls : Nat
  now : Timestamp

/-- The lookup of the row to delete: a row of another pair is not found. -/
def ownDocument (x : Delete) : Option Document → Except Exc Document
  | some existing =>
    if existing.tenant_id ≠ x.tenant_id ∨ existing.bot_id ≠ x.bot_id then notFound
    else .ok existing
  | none => notFound
where
  notFound : Except Exc Document :=
    .error (.uploadError .documentNotFound ("Document " ++ x.doc_id ++ " not found.")
      [("tenant_id", .str x.tenant_id), ("bot_id", .str x.bot_id), ("doc_id", .str x.doc_id)])

/-- The instance the delete pipeline saves. -/
def Document.asDeleted (existing : Document) : Document :=
  { existing with status := .deleted, chunk_count := 0, error_message := none }

def deleteFields : List DocumentField := [.status, .chunk_count, .error_message, .last_refreshed_at]

def DeletePipeline.locked (env : Env) (x : Delete) : Program DeleteResult := do
  let found : Option Document ← call (.documentFirst x.doc_id)
  let existing ← ofExcept (ownDocument x found)
  let chunks_deleted ← (deleteByDocId env x.tenant_id x.bot_id x.doc_id).tryCatch
    (onQdrantError "delete_by_doc_id failed: " [("doc_id", .str x.doc_id)])
  call (.documentSave existing.asDeleted deleteFields x.now)
  return ⟨x.doc_id, chunks_deleted, existing.status == .deleted⟩

def DeletePipeline.execute (env : Env) (x : Delete) : Program DeleteResult :=
  uploadLock env x.tenant_id x.bot_id x.doc_id x.polls (DeletePipeline.locked env x)

end QdrantRag
