import QdrantRag.Verify.Phases

/-! # What a step does to the stores

`Step.change`: a step of a writing request leaves the stores as they are, or changes them by one
operation on its own document or by refreshing a row. The invariants of the service are derived
from this, one case for each operation. -/

namespace QdrantRag
open Keyed Effect

variable {env : Env} {i : Nat} {w : Write} {o : Op} {c : Fault} {s : World} {ev : Call}
  {φ φ' : Phase} {v v' : Stores} {d : String}

/-! ## The writes that took effect -/

theorem applied_of_ok (hl : o.isLock = false) (hs : o.isLocal = false)
    (h : Event.ok (exec env i) ⟨o, c, s⟩ = true) : Call.applied env i ⟨o, c, s⟩ = true := by
  cases happ : Call.applied env i ⟨o, c, s⟩ with
  | true => rfl
  | false =>
    obtain ⟨e, he⟩ := exec_of_not_applied hl hs happ
    simp only [Event.ok, he] at h
    cases h

theorem not_ok_of_not_applied (hl : o.isLock = false) (hs : o.isLocal = false)
    (h : Call.applied env i ⟨o, c, s⟩ = false) : Event.ok (exec env i) ⟨o, c, s⟩ = false := by
  obtain ⟨e, he⟩ := exec_of_not_applied hl hs h
  simp only [Event.ok, he]
  rfl

theorem stores_of_not_applied (hl : o.isLock = false) (hs : o.isLocal = false)
    (h : Call.applied env i ⟨o, c, s⟩ = false) : (exec env i o c s).2.stores = s.stores := by
  obtain ⟨e, he⟩ := exec_of_not_applied hl hs h
  rw [he]

theorem stores_refresh {row : Document} {now : Timestamp}
    (h : Call.applied env i ⟨.documentSave row [.last_refreshed_at] now, c, s⟩ = true) :
    (exec env i (.documentSave row [.last_refreshed_at] now) c s).2.stores =
      s.stores.refresh row now := by
  obtain ⟨a, h⟩ := serve_of_applied rfl rfl h
  exact (serve_documentSave h).2.2

theorem stores_erase {row : Document} {now : Timestamp}
    (h : Call.applied env i ⟨.documentSave row.asDeleted deleteFields now, c, s⟩ = true) :
    (exec env i (.documentSave row.asDeleted deleteFields now) c s).2.stores =
      s.stores.erase row now := by
  obtain ⟨a, h⟩ := serve_of_applied rfl rfl h
  exact (serve_documentSave h).2.2

theorem stores_store {d : String} {f : DocumentDefaults} {now : Timestamp}
    (h : Call.applied env i ⟨.documentUpdateOrCreate d f now, c, s⟩ = true) :
    (exec env i (.documentUpdateOrCreate d f now) c s).2.stores = s.stores.store d f now := by
  obtain ⟨a, h⟩ := serve_of_applied rfl rfl h
  exact (serve_documentUpdateOrCreate h).2.2

theorem stores_clear {n d : String}
    (h : Call.applied env i ⟨.deletePoints n (docFilter d), c, s⟩ = true) :
    (exec env i (.deletePoints n (docFilter d)) c s).2.stores = s.stores.clear n d := by
  obtain ⟨a, h⟩ := serve_of_applied rfl rfl h
  exact (serve_deletePoints h).2

theorem stores_upsert {n : String} {pts : List Point}
    (h : Call.applied env i ⟨.upsert n pts, c, s⟩ = true) :
    (exec env i (.upsert n pts) c s).2.stores = s.stores.upsert n pts := by
  obtain ⟨a, h⟩ := serve_of_applied rfl rfl h
  exact (serve_upsert h).2.2

/-! ## Steps -/

/-- The bot row of the request's pair exists in this phase. -/
def Phase.entitled : Phase → Bool
  | .holding .locked => false
  | .holding _ => true
  | _ => false

/-- The changes a step of `w` from `φ` to `φ'` can make to the stores. -/
inductive Change (env : Env) (w : Write) (φ φ' : Phase) (v : Stores) : Stores → Prop
  | none : Change env w φ φ' v v
  | refresh {x row} (hw : w = .upload x) : Change env w φ φ' v (v.refresh row x.now)
  | clear (he : φ.entitled = true) : Change env w φ φ' v (v.clear w.collection w.doc_id)
  | upsert {x ex} (hw : w = .upload x) (he : φ.entitled = true)
      (hφ' : φ' = .holding (.upserted ex) ∨ φ' = .holding (.torn true ex)) :
      Change env w φ φ' v (v.upsert w.collection (x.points env))
  | store {x bot ex} (hw : w = .upload x) (hbot : Bot.pair bot = w.pair)
      (hφ : φ = .holding (.upserted ex)) (hφ' : φ' = .holding (.stored ex)) :
      Change env w φ φ' v
        (v.store w.doc_id (uploadDefaults env x bot (x.points env).length) x.now)
  | erase {x row} (hw : w = .delete x) (hφ : φ = .holding (.cleared row)) :
      Change env w φ φ' v (v.erase row x.now)

theorem Change.of_eq {v v' : Stores} (h : v' = v) : Change env w φ φ' v v' := h ▸ .none

theorem Stage.Clears.entitled {st : Stage} {row : Document} (h : st.Clears w row) :
    (Phase.holding st).entitled = true := by
  cases h <;> rfl

theorem Stage.Upserts.entitled {st : Stage} {ex : Option Document} (h : st.Upserts ex) :
    (Phase.holding st).entitled = true := by
  cases h <;> rfl

/-- A step changes the stores by an operation of its request, if at all. -/
theorem Step.change (h : Step env i w φ ev φ') :
    Change env w φ φ' ev.pre.stores (ev.post (exec env i)).stores := by
  cases h with
  | poll | acquire | unlock => exact .of_eq (lock_frame rfl).1
  | sleep => exact .none
  | quiet _ hq | register hq | collection _ _ hq => exact .of_eq (quiet_frame hq).stores
  | find | same | own | unmatched | matched | absent => exact .of_eq (quiet_frame rfl).stores
  | refresh hw happ =>
    have := stores_refresh happ
    simp only [Event.post, this]
    exact .refresh hw
  | refreshFails _ happ | storeFails _ _ happ | eraseFails _ happ =>
    exact .of_eq (stores_of_not_applied rfl rfl happ)
  | clear hst hok =>
    simp only [Event.post, stores_clear (applied_of_ok rfl rfl hok)]
    exact .clear hst.entitled
  | @clearFails st row c s hst hok =>
    cases happ : Call.applied env i ⟨.deletePoints w.collection (docFilter w.doc_id), c, s⟩ with
    | false => exact .of_eq (stores_of_not_applied rfl rfl happ)
    | true =>
      simp only [Event.post, stores_clear happ]
      exact .clear hst.entitled
  | upsert hw hst _ hok =>
    simp only [Event.post, stores_upsert (applied_of_ok rfl rfl hok)]
    exact .upsert hw hst.entitled (.inl rfl)
  | @upsertFails x st ex c s hw hst hok =>
    cases happ : Call.applied env i ⟨.upsert w.collection (x.points env), c, s⟩ with
    | false => exact .of_eq (stores_of_not_applied rfl rfl happ)
    | true =>
      simp only [Event.post, stores_upsert happ]
      exact .upsert hw hst.entitled (.inr rfl)
  | store hw hbot happ =>
    simp only [Event.post, stores_store happ]
    exact .store hw hbot rfl rfl
  | erase hw happ =>
    simp only [Event.post, stores_erase happ]
    exact .erase hw rfl

/-! ## Owners -/

/-- A row stays, and its owner changes only where an upload saves it. -/
theorem Change.owner (hc : Change env w φ φ' v v') {row : Document} (hrow : v.row d = some row) :
    ∃ row', v'.row d = some row' ∧ (row'.owner = row.owner ∨
      d = w.doc_id ∧ row'.owner = w.pair ∧ ∃ ex, φ = .holding (.upserted ex)) := by
  cases hc with
  | none | clear | upsert => exact ⟨row, hrow, .inl rfl⟩
  | refresh =>
    refine ⟨_, Stores.row_refresh.trans (congrArg _ hrow), .inl ?_⟩
    simp only
    split <;> rfl
  | @store x bot ex hw hbot he =>
    by_cases hd : d = w.doc_id
    · subst hd hw
      obtain ⟨t, ht⟩ := v.row_store (Write.upload x).doc_id
        (uploadDefaults env x bot (x.points env).length) x.now
      exact ⟨_, ht, .inr ⟨rfl, rfl, ex, he⟩⟩
    · exact ⟨row, (Stores.row_store_of_ne hd).trans hrow, .inl rfl⟩
  | erase =>
    refine ⟨_, Stores.row_erase.trans (congrArg _ hrow), .inl ?_⟩
    simp only
    split <;> rfl

/-- A row that is there after a change was there before, with its owner, or an upload saved it. -/
theorem Change.owner_of_post (hc : Change env w φ φ' v v') {row : Document}
    (hrow : v'.row d = some row) : (∃ row', v.row d = some row' ∧ row'.owner = row.owner) ∨
      d = w.doc_id ∧ row.owner = w.pair ∧ ∃ ex, φ = .holding (.upserted ex) := by
  cases hr : v.row d with
  | some row' =>
    obtain ⟨_, hrow', h⟩ := hc.owner hr
    cases hrow.symm.trans hrow'
    exact h.imp_left fun h => ⟨row', rfl, h.symm⟩
  | none =>
    refine .inr ?_
    cases hc with
    | none | clear | upsert => exact absurd (hr.symm.trans hrow) nofun
    | refresh | erase =>
      simp only [Stores.row_refresh, Stores.row_erase, hr, Option.map_none] at hrow
      cases hrow
    | @store x bot ex hw hbot he =>
      by_cases hd : d = w.doc_id
      · subst hd hw
        obtain ⟨t, ht⟩ := v.row_store (Write.upload x).doc_id
          (uploadDefaults env x bot (x.points env).length) x.now
        cases hrow.symm.trans ht
        exact ⟨rfl, rfl, ex, he⟩
      · rw [Stores.row_store_of_ne hd, hr] at hrow
        cases hrow

/-! ## Frames -/

/-- A step only adds bots and collections. -/
theorem Call.grows (ev : Call) : ev.pre.Grows (ev.post (exec env i)) := exec_grows

/-- A step of session `i` leaves the locks of other sessions. -/
theorem Call.holder_of_ne (ev : Call) {j : Nat} (hj : j ≠ i) (k : LockKey) :
    (ev.post (exec env i)).holder k = some j ↔ ev.pre.holder k = some j := by
  obtain ⟨o, c, s⟩ := ev
  cases hl : o.isLock with
  | true => exact (lock_frame hl).2 k j hj
  | false =>
    rw [Event.post, holder_frame hl]

/-! ## Content matches -/

theorem mem_contentMatches {T B h d : String} {r : Document} :
    r ∈ contentMatches s T B h d ↔ r ∈ s.documents.rows ∧ r.owner = (T, B) ∧
      r.content_hash = h ∧ r.status = .active ∧ 0 < r.chunk_count ∧ r.doc_id ≠ d := by
  simp [contentMatches, Document.owner, and_assoc]

/-! ## What a request has -/

/-- The row of its own document a request knows at a stage. -/
def Stage.existing : Stage → Option Document
  | .found ex | .unmatched ex | .indexing ex | .upserted ex | .stored ex | .torn _ ex => ex
  | .clearing row | .cleared row | .deleted row => some row
  | .locked | .registered | .refreshing _ | .refreshed _ => none

/-- The row the request knows is that of its document, and of its pair. -/
def Phase.Ours (w : Write) : Phase → Prop
  | .waiting => True
  | .holding st | .finished st =>
    ∀ row, st.existing = some row → row.doc_id = w.doc_id ∧ row.owner = w.pair

theorem Stage.Clears.existing {st : Stage} {row : Document} (h : st.Clears w row) :
    st.existing = some row := by
  cases h <;> rfl

theorem Stage.Upserts.existing {st : Stage} {ex : Option Document} (h : st.Upserts ex) :
    st.existing = ex := by
  cases h <;> rfl

theorem Step.ours (h : Step env i w φ ev φ') (ho : φ.Ours w) : φ'.Ours w := by
  cases h with
  | poll | sleep => trivial
  | acquire | register | same | matched | refresh | refreshFails =>
    intro row hrow
    cases hrow
  | find _ hown => exact fun row hrow => ⟨World.doc_id_of_row hrow, (hown row hrow).1⟩
  | own _ hrow hown =>
    rintro _ ⟨⟩
    exact ⟨World.doc_id_of_row hrow, hown⟩
  | collection _ hst => rcases hst with rfl | rfl <;> exact ho
  | absent hst | clear hst | clearFails hst =>
    rintro _ ⟨⟩
    exact ho _ hst.existing
  | upsert _ hst | upsertFails _ hst => exact fun row hrow => ho row (hst.existing.trans hrow)
  | _ => exact ho

/-- A request under its lock holds it. -/
def HoldsLock (env : Env) (i : Nat) (w : Write) (φ : Phase) (s : World) : Prop :=
  ∀ st, φ = .holding st → ∃ k, w.key env = .ok k ∧ s.holder k = some i

theorem HoldsLock.waiting : HoldsLock env i w .waiting s := fun _ h => Phase.noConfusion h

theorem HoldsLock.of_ne {j : Nat} (hj : j ≠ i) (h : HoldsLock env j w φ ev.pre) :
    HoldsLock env j w φ (ev.post (exec env i)) := fun st hst => by
  obtain ⟨k, hk, hh⟩ := h st hst
  exact ⟨k, hk, (ev.holder_of_ne hj k).mpr hh⟩

theorem HoldsLock.step (h : HoldsLock env i w φ ev.pre) (hs : Step env i w φ ev φ') :
    HoldsLock env i w φ' (ev.post (exec env i)) := by
  have hframe {st : Stage} (hφ : φ = .holding st) (hl : ev.op.isLock = false) :
      ∃ k, w.key env = .ok k ∧ (ev.post (exec env i)).holder k = some i := by
    obtain ⟨k, hk, hh⟩ := h st hφ
    exact ⟨k, hk, (holder_frame hl k).trans hh⟩
  cases hs with
  | poll | sleep | unlock =>
    intro st hst
    cases hst
  | acquire hk hgot => exact fun _ _ => ⟨_, hk, (holder_acquired hgot).1⟩
  | quiet _ hq | register hq | collection _ _ hq =>
    exact fun _ _ => hframe rfl (isLock_of_quiet hq)
  | _ => exact fun _ _ => hframe rfl rfl

/-- The call saves the row of its request, or ends it. -/
def Call.ends (env : Env) (i : Nat) (ev : Call) : Bool :=
  match ev.op with
  | .documentUpdateOrCreate .. => Call.applied env i ev
  | .advisoryUnlock _ => true
  | _ => false

theorem ends_of_quiet {o : Op} (h : o.quiet = true) :
    Call.ends env i ⟨o, c, s⟩ = false := by
  cases o with
  | documentUpdateOrCreate | advisoryUnlock => cases h
  | _ => rfl

end QdrantRag
