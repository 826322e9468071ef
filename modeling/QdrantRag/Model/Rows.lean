import QdrantRag.Data.Table
import QdrantRag.Model.Identifiers

/-! # Rows and request bodies

The models of `apps/tenants/models.py` and `apps/documents/models.py`, with the checks Postgres
makes on their columns, and the validated body of an upload. -/

namespace QdrantRag
open Keyed

/-! ## Tenants and bots -/

structure Tenant where
  tenant_id : String
  name : String
  deriving DecidableEq

instance : HasKey Tenant String := ⟨Tenant.tenant_id⟩

/-- A bot row. `Bot.save` derives `collection_name` at every write, so no row has another one. -/
structure Bot where
  tenant_id : String
  bot_id : String
  name : String
  collection_name : String
  derived : collectionName tenant_id bot_id = .ok collection_name
  deriving DecidableEq

/-- The columns of `unique_bot_per_tenant`. -/
def Bot.pair (b : Bot) : String × String := (b.tenant_id, b.bot_id)

instance : HasKey Bot (String × String) := ⟨Bot.pair⟩

/-- `Bot.save` on a row about to be written. -/
def Bot.save (tenant_id bot_id name : String) : Except Exc Bot :=
  match h : collectionName tenant_id bot_id with
  | .ok collection_name => .ok ⟨tenant_id, bot_id, name, collection_name, h⟩
  | .error e => .error e

theorem Bot.pair_of_save {T B name : String} {b : Bot} (h : Bot.save T B name = .ok b) :
    b.pair = (T, B) := by
  unfold Bot.save at h
  split at h
  · cases h; rfl
  · cases h

/-! ## Documents -/

inductive DocumentStatus
  | pending | active | deleted | failed
  deriving DecidableEq, Repr

structure Document where
  doc_id : String
  bot_ref : String × String
  tenant_id : String
  bot_id : String
  source_type : String
  source_filename : Option String
  source_url : Option String
  content_hash : String
  chunk_count : Nat
  item_count : Nat
  status : DocumentStatus
  error_message : Option String
  raw_payload : Option PyValue
  uploaded_at : Timestamp
  last_refreshed_at : Timestamp

/-- The (tenant, bot) pair that owns the document. -/
def Document.owner (row : Document) : String × String := (row.tenant_id, row.bot_id)

instance : HasKey Document String := ⟨Document.doc_id⟩

/-- The fields the pipelines name in `save(update_fields=...)`. -/
inductive DocumentField
  | status | chunk_count | error_message | last_refreshed_at
  deriving DecidableEq

/-- Write one field of the instance `src` to the stored row; `auto_now` gives `now`. -/
def Document.copyField (src : Document) (now : Timestamp) (row : Document) :
    DocumentField → Document
  | .status => { row with status := src.status }
  | .chunk_count => { row with chunk_count := src.chunk_count }
  | .error_message => { row with error_message := src.error_message }
  | .last_refreshed_at => { row with last_refreshed_at := now }

/-- `src.save(update_fields=fields)` on the stored row. -/
def Document.saveFields (src : Document) (fields : List DocumentField) (now : Timestamp)
    (row : Document) : Document := fields.foldl (src.copyField now) row

theorem Document.doc_id_saveFields (src : Document) (fields : List DocumentField) (now : Timestamp)
    (row : Document) : (src.saveFields fields now row).doc_id = row.doc_id := by
  induction fields generalizing row with
  | nil => rfl
  | cons f fields ih =>
    rw [saveFields, List.foldl_cons]
    refine (ih _).trans ?_
    cases f <;> rfl

/-- The `defaults` of `Document.objects.update_or_create`. -/
structure DocumentDefaults where
  bot_ref : String × String
  tenant_id : String
  bot_id : String
  source_type : String
  source_filename : Option String
  source_url : Option String
  content_hash : String
  chunk_count : Nat
  item_count : Nat
  status : DocumentStatus
  error_message : Option String
  raw_payload : PyValue

/-- The largest value of an `IntegerField` column. -/
def maxInt32 : Nat := 2147483647

/-- What writing the row raises: `TypeError` where the JSON encoder of `raw_payload` gives up, an
error of Postgres where a value does not fit its column. -/
def DocumentDefaults.check (f : DocumentDefaults) : Except Exc Unit :=
  if f.raw_payload.jsonEncodable = false then
    .error (.raised "TypeError" "Object of type UUID is not JSON serializable")
  else if f.tenant_id.length ≤ 40 ∧ f.bot_id.length ≤ 40 ∧ f.source_type.length ≤ 20 ∧
      (∀ n, f.source_filename = some n → n.length ≤ 500) ∧ f.content_hash.length ≤ 80 ∧
      f.chunk_count ≤ maxInt32 ∧ f.item_count ≤ maxInt32 then
    .ok ()
  else
    .error (.raised "DataError" "value does not fit its column")

/-- A new row. -/
def DocumentDefaults.create (f : DocumentDefaults) (doc_id : String) (now : Timestamp) :
    Document where
  doc_id := doc_id
  bot_ref := f.bot_ref
  tenant_id := f.tenant_id
  bot_id := f.bot_id
  source_type := f.source_type
  source_filename := f.source_filename
  source_url := f.source_url
  content_hash := f.content_hash
  chunk_count := f.chunk_count
  item_count := f.item_count
  status := f.status
  error_message := f.error_message
  raw_payload := some f.raw_payload
  uploaded_at := now
  last_refreshed_at := now

/-- An update of the row keeps the time it was created. -/
def DocumentDefaults.update (f : DocumentDefaults) (row : Document) (now : Timestamp) :
    Document := { f.create row.doc_id now with uploaded_at := row.uploaded_at }

/-! ## The validated body of an upload -/

/-- An item of `validated_data["items"]`. `none` is a key that is absent, `some none` a null. -/
structure UploadItem where
  content : String
  section_path : List String
  page_number : Option (Option Int)
  item_index : Option Int
  deriving DecidableEq

/-- `validated_data` of `UploadBodySerializer`. -/
structure UploadBody where
  doc_id : Option Uuid
  source_type : String
  source_filename : Option (Option String)
  source_url : Option (Option String)
  content_hash : Option (Option String)
  items : List UploadItem
  deriving DecidableEq

/-- `body.get(key)` -/
def getKey {α : Type} (field : Option (Option α)) : Option α := field.join

/-- A key and its value, where the key is present. -/
def optionalKey {α : Type} (key : String) (toPy : α → PyValue) :
    Option (Option α) → List (String × PyValue)
  | none => []
  | some none => [(key, .none)]
  | some (some a) => [(key, toPy a)]

/-- An item as a Python dict. -/
def UploadItem.toPy (item : UploadItem) : PyValue :=
  .dict ([("content", .str item.content),
      ("section_path", .list (item.section_path.map .str))] ++
    optionalKey "page_number" .int item.page_number ++
    optionalKey "item_index" .int (item.item_index.map some))

/-- The body as a Python dict, which `raw_payload` stores. -/
def UploadBody.toPy (body : UploadBody) : PyValue :=
  .dict (optionalKey "doc_id" .uuid (body.doc_id.map some) ++
    [("source_type", .str body.source_type)] ++
    optionalKey "source_filename" .str body.source_filename ++
    optionalKey "source_url" .str body.source_url ++
    optionalKey "content_hash" .str body.content_hash ++
    [("items", .list (body.items.map UploadItem.toPy))])

end QdrantRag
