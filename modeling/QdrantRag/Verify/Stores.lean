import QdrantRag.Model.Service

/-! # The two stores

The abstract view of the state: the document rows, and the points of each collection. A writing
request changes it by six operations only, refreshing a row, emptying a document's points, upserting
points, storing a row, and erasing one; each is described by the rows and points it leaves. -/

namespace QdrantRag
open Keyed

/-- The document rows, and the points of each collection. -/
@[ext] structure Stores where
  documents : Table Document
  points : String → Table Point

/-- The view of a state. -/
def World.stores (s : World) : Stores := ⟨s.documents, s.points⟩

@[simp] theorem World.points_stores (s : World) : s.stores.points = s.points := rfl

namespace Stores

/-- The document row with primary key `doc_id`. -/
def row (v : Stores) (doc_id : String) : Option Document := v.documents.find? doc_id

@[simp] theorem row_stores (s : World) : s.stores.row = s.row := rfl

/-- `row.save(update_fields=["last_refreshed_at"])` -/
def refresh (v : Stores) (row : Document) (now : Timestamp) : Stores :=
  { v with
    documents := v.documents.modify row.doc_id
      (row.saveFields [.last_refreshed_at] now) (row.doc_id_saveFields _ now) }

/-- `asDeleted` saved over the row. -/
def erase (v : Stores) (row : Document) (now : Timestamp) : Stores :=
  { v with
    documents := v.documents.modify row.doc_id
      (row.asDeleted.saveFields deleteFields now) (row.asDeleted.doc_id_saveFields _ now) }

/-- The row `update_or_create` leaves. -/
def storedRow (v : Stores) (doc_id : String) (defaults : DocumentDefaults) (now : Timestamp) :
    Document :=
  match v.row doc_id with
  | some row => defaults.update row now
  | none => defaults.create doc_id now

def store (v : Stores) (doc_id : String) (defaults : DocumentDefaults) (now : Timestamp) : Stores :=
  { v with documents := v.documents.put (v.storedRow doc_id defaults now) }

/-- No points of the document are left in the collection. -/
def clear (v : Stores) (n doc_id : String) : Stores :=
  { v with
    points := Function.update v.points n
      ((v.points n).remove fun p => (docFilter doc_id).holds p.payload) }

def upsert (v : Stores) (n : String) (pts : List Point) : Stores :=
  { v with points := Function.update v.points n ((v.points n).putAll pts) }

variable {v : Stores} {d e n m : String} {r row : Document} {pt : Point} {pts : List Point}
  {now : Timestamp} {f : DocumentDefaults}

theorem row_eq_some : v.row d = some r ↔ r ∈ v.documents.rows ∧ r.doc_id = d :=
  Table.find?_eq_some

theorem doc_id_of_row (h : v.row d = some r) : r.doc_id = d := (row_eq_some.mp h).2

/-! ## Rows -/

@[simp] theorem row_clear : (v.clear n d).row = v.row := rfl

theorem row_refresh : (v.refresh row now).row d = (v.row d).map fun r =>
    if r.doc_id = row.doc_id then { r with last_refreshed_at := now } else r :=
  Table.find?_modify (row.saveFields [.last_refreshed_at] now) (row.doc_id_saveFields _ now)

theorem row_erase : (v.erase row now).row d = (v.row d).map fun r =>
    if r.doc_id = row.doc_id then
      { r with
        status := .deleted, chunk_count := 0, error_message := none, last_refreshed_at := now }
    else r :=
  Table.find?_modify (row.asDeleted.saveFields deleteFields now)
    (row.asDeleted.doc_id_saveFields _ now)

theorem row_erase_of_ne (h : d ≠ row.doc_id) : (v.erase row now).row d = v.row d := by
  rw [row_erase]
  cases hr : v.row d with
  | none => rfl
  | some r =>
    have hne : r.doc_id ≠ row.doc_id := doc_id_of_row hr ▸ h
    simp [hne]

theorem row_erase_self (h : v.row row.doc_id = some r) : (v.erase row now).row row.doc_id =
    some { r with
      status := .deleted, chunk_count := 0, error_message := none, last_refreshed_at := now } := by
  rw [row_erase, h, Option.map_some, doc_id_of_row h, if_pos rfl]

/-- A row stored over another keeps the time it was first uploaded. -/
theorem storedRow_eq (v : Stores) (d : String) (f : DocumentDefaults) (now : Timestamp) :
    ∃ uploaded_at, v.storedRow d f now = { f.create d now with uploaded_at := uploaded_at } := by
  unfold storedRow
  cases h : v.row d with
  | none => exact ⟨now, rfl⟩
  | some r => exact ⟨r.uploaded_at, by simp only [DocumentDefaults.update, doc_id_of_row h]⟩

theorem doc_id_storedRow : (v.storedRow d f now).doc_id = d := by
  obtain ⟨t, h⟩ := v.storedRow_eq d f now
  rw [h]
  rfl

theorem row_store_self : (v.store d f now).row d = some (v.storedRow d f now) := by
  have h := Table.find?_put_self (t := v.documents) (r := v.storedRow d f now)
  rwa [show HasKey.key (v.storedRow d f now) = d from doc_id_storedRow] at h

theorem row_store (v : Stores) (d : String) (f : DocumentDefaults) (now : Timestamp) :
    ∃ uploaded_at, (v.store d f now).row d =
      some { f.create d now with uploaded_at := uploaded_at } := by
  obtain ⟨t, h⟩ := v.storedRow_eq d f now
  exact ⟨t, row_store_self.trans (congrArg some h)⟩

theorem row_store_of_ne (h : e ≠ d) : (v.store d f now).row e = v.row e :=
  Table.find?_put_of_ne fun he => h (he.symm.trans doc_id_storedRow)

/-! ## Points -/

@[simp] theorem points_store : (v.store d f now).points = v.points := rfl

theorem mem_clear : pt ∈ ((v.clear n d).points m).rows ↔
    pt ∈ (v.points m).rows ∧ ¬ (m = n ∧ pt.payload.doc_id = d) := by
  by_cases hm : m = n
  · subst hm
    simp only [clear, Function.update_self, Table.mem_remove, true_and, ← Bool.not_eq_true,
      holds_docFilter]
  · simp [clear, hm]

theorem mem_upsert (h : (pts.map HasKey.key).Nodup) : pt ∈ ((v.upsert n pts).points m).rows ↔
    (m = n ∧ pt ∈ pts) ∨ (pt ∈ (v.points m).rows ∧ ¬ (m = n ∧ ∃ q ∈ pts, pt.id = q.id)) := by
  by_cases hm : m = n
  · subst hm
    simp only [upsert, Function.update_self, Table.mem_putAll h, true_and, not_exists, not_and]
    rfl
  · simp [upsert, hm]

theorem mem_upsert_of_notMem (h : pt ∉ pts) : pt ∈ ((v.upsert n pts).points n).rows ↔
    pt ∈ (v.points n).rows ∧ ∀ q ∈ pts, pt.id ≠ q.id := by
  simp only [upsert, Function.update_self, Table.mem_putAll_of_notMem h]
  rfl

theorem mem_of_mem_upsert (h : pt ∈ ((v.upsert n pts).points m).rows) :
    (m = n ∧ pt ∈ pts) ∨ pt ∈ (v.points m).rows := by
  by_cases hm : m = n
  · subst hm
    simp only [upsert, Function.update_self] at h
    exact (Table.mem_of_mem_putAll h).imp_left fun h => ⟨rfl, h⟩
  · exact .inr (by simpa [upsert, hm] using h)

theorem points_upsert_of_ne (h : m ≠ n) : (v.upsert n pts).points m = v.points m := by
  simp [upsert, h]

end Stores

end QdrantRag
