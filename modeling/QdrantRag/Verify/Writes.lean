import QdrantRag.Verify.Calls

/-! # What the writes and the lock calls do

Each writing call that took effect is an operation of the abstract stores, and the lock calls are
described by the session that holds a key (`World.holder`). -/

namespace QdrantRag
open Keyed Effect

variable {env : Env} {i : Nat} {o : Op} {c : Fault} {s s' : World}

theorem World.doc_id_of_row {d : String} {r : Document} (h : s.row d = some r) : r.doc_id = d :=
  Stores.doc_id_of_row (v := s.stores) h

/-! ## Calls that took effect, and calls that did not -/

/-- A write that did not take effect leaves the state as it was, and its caller sees a failure. -/
theorem exec_of_not_applied (hl : o.isLock = false) (hs : o.isLocal = false)
    (h : Call.applied env i ⟨o, c, s⟩ = false) : ∃ e, exec env i o c s = (.error e, s) := by
  rcases exec_cases env i c s hl hs with ⟨_, h'⟩ | ⟨h', _⟩
  · exact h'
  · rw [h] at h'; cases h'

/-- A write that took effect leaves what `serve` says. -/
theorem serve_of_applied (hl : o.isLock = false) (hs : o.isLocal = false)
    (h : Call.applied env i ⟨o, c, s⟩ = true) :
    ∃ a, serve env i o s = .ok (a, (exec env i o c s).2) := by
  rcases exec_cases env i c s hl hs with ⟨h', _⟩ | ⟨_, a, s', hserve, he | ⟨e, he⟩⟩
  · rw [h] at h'; cases h'
  · exact ⟨a, by rw [he]; exact hserve⟩
  · exact ⟨a, by rw [he]; exact hserve⟩

/-- A call whose caller sees an answer was served with that answer. -/
theorem serve_of_ok (hl : o.isLock = false) (hs : o.isLocal = false) {a : Ans o}
    (h : (exec env i o c s).1 = .ok a) :
    Call.applied env i ⟨o, c, s⟩ = true ∧ serve env i o s = .ok (a, (exec env i o c s).2) := by
  rcases exec_cases env i c s hl hs with ⟨_, e, he⟩ | ⟨happ, a', s', hserve, he | ⟨e, he⟩⟩
  · rw [he] at h; cases h
  · rw [he] at h ⊢
    cases h
    exact ⟨happ, hserve⟩
  · rw [he] at h; cases h

theorem event_ok {a : Ans o} (h : (exec env i o c s).1 = .ok a) :
    Event.ok (exec env i) ⟨o, c, s⟩ = true := by
  unfold Event.ok
  simp only [h]
  rfl

theorem event_not_ok {e : Exc} (h : (exec env i o c s).1 = .error e) :
    Event.ok (exec env i) ⟨o, c, s⟩ = false := by
  unfold Event.ok
  simp only [h]
  rfl

/-- A call other than for a lock whose caller sees an answer was served with that answer. -/
theorem serve_of_answer (hl : o.isLock = false) {a : Ans o} (h : (exec env i o c s).1 = .ok a) :
    serve env i o s = .ok (a, (exec env i o c s).2) := by
  by_cases hs : o.isLocal = true
  · cases o with
    | sleep => cases h; rfl
    | _ => cases hs
  · exact (serve_of_ok hl (by simpa using hs) h).2

/-! ## What an answer tells -/

theorem serve_tenantGet {T : String} {tenant : Tenant}
    (h : serve env i (.tenantGet T) s = .ok (tenant, s')) : tenant.tenant_id = T := by
  simp only [serve] at h
  split at h
  · next ht => cases h; exact Table.key_of_find? ht
  · cases h

theorem serve_tenantGetOrCreate {T name : String} {tenant : Tenant}
    (h : serve env i (.tenantGetOrCreate T name) s = .ok (tenant, s')) : tenant.tenant_id = T := by
  simp only [serve] at h
  split at h
  · next ht => cases h; exact Table.key_of_find? ht
  · cases h; rfl

/-- A bot that is returned is a row of the table, for its pair. -/
theorem serve_botGet {T B : String} {b : Bot} (h : serve env i (.botGet T B) s = .ok (b, s')) :
    b ∈ s'.bots.rows ∧ b.pair = (T, B) := by
  simp only [serve] at h
  split at h
  · next hb => cases h; exact ⟨Table.mem_of_find? hb, Table.key_of_find? hb⟩
  · cases h

theorem serve_botGetOrCreate {T B name : String} {b : Bot}
    (h : serve env i (.botGetOrCreate T B name) s = .ok (b, s')) :
    b ∈ s'.bots.rows ∧ b.pair = (T, B) := by
  simp only [serve] at h
  split at h
  · next hb => cases h; exact ⟨Table.mem_of_find? hb, Table.key_of_find? hb⟩
  · split at h
    · cases h
    · next hb =>
      split at h
      · cases h
      · cases h; exact ⟨Table.mem_put.mpr (.inl rfl), Bot.pair_of_save hb⟩

theorem serve_getCollection {n : String} {params : CollectionParams}
    (h : serve env i (.getCollection n) s = .ok (params, s')) : s'.HasCollection n := by
  simp only [serve] at h
  split at h
  · cases h
  · next col hcol => cases h; exact World.hasCollection_iff.mpr ⟨col, hcol⟩

theorem serve_createCollection {n : String} {params : CollectionParams} {a : Unit}
    (h : serve env i (.createCollection n params) s = .ok (a, s')) : s'.HasCollection n := by
  simp only [serve] at h
  split at h
  · cases h
  · cases h; exact World.hasCollection_iff.mpr ⟨_, Table.find?_put_self⟩

theorem serve_collectionExists {n : String} {exists_ : Bool}
    (h : serve env i (.collectionExists n) s = .ok (exists_, s')) :
    exists_ = true ↔ s.HasCollection n := by
  cases h
  rfl

theorem serve_documentFirst {d : String} {row : Option Document}
    (h : serve env i (.documentFirst d) s = .ok (row, s')) : row = s.row d := by
  cases h
  rfl

/-- The content match gives one of the rows it may, and none only where there is none. -/
theorem serve_documentMatch {T B h d : String} {row : Option Document}
    (ha : serve env i (.documentMatch T B h d) s = .ok (row, s')) :
    (∀ r, row = some r → r ∈ contentMatches s T B h d) ∧
      (row = none → contentMatches s T B h d = []) := by
  cases ha
  exact ⟨fun r hr => List.argmax_mem hr, List.argmax_eq_none.mp⟩

theorem serve_encode {texts : List String} {embeddings : List Embedding}
    (h : serve env i (.encode texts) s = .ok (embeddings, s')) :
    embeddings = texts.map env.encode := by
  cases h
  rfl

/-! ## The writes as operations of the stores -/

theorem serve_documentSave {row : Document} {fields : List DocumentField} {now : Timestamp}
    {a : Unit} (h : serve env i (.documentSave row fields now) s = .ok (a, s')) :
    (s.row row.doc_id).isSome ∧ s'.locks = s.locks ∧ s'.stores =
      ⟨s.documents.modify row.doc_id (row.saveFields fields now) (row.doc_id_saveFields fields now),
        s.points⟩ := by
  simp only [serve] at h
  split at h
  · cases h
  · next r hr =>
    cases h
    exact ⟨by rw [hr]; rfl, rfl, rfl⟩

theorem serve_documentUpdateOrCreate {d : String} {f : DocumentDefaults} {now : Timestamp}
    {a : Unit} (h : serve env i (.documentUpdateOrCreate d f now) s = .ok (a, s')) :
    f.check = .ok () ∧ s'.locks = s.locks ∧ s'.stores = s.stores.store d f now := by
  simp only [serve] at h
  split at h
  · cases h
  · next hcheck =>
    refine ⟨hcheck, ?_⟩
    split at h
    · next hrow =>
      cases h
      simp [Stores.store, Stores.storedRow, World.stores, Stores.row,
        show s.documents.find? d = none from hrow]
      rfl
    · next row hrow =>
      cases h
      simp [Stores.store, Stores.storedRow, World.stores, Stores.row,
        show s.documents.find? d = some row from hrow]
      rfl

theorem locks_deletePoints {n : String} {selector : Filter} {a : Unit}
    (h : serve env i (.deletePoints n selector) s = .ok (a, s')) : s'.locks = s.locks := by
  simp only [serve] at h
  split at h <;> cases h
  rfl

theorem serve_deletePoints {n d : String} {a : Unit}
    (h : serve env i (.deletePoints n (docFilter d)) s = .ok (a, s')) :
    s.HasCollection n ∧ s'.stores = s.stores.clear n d := by
  simp only [serve] at h
  split at h
  · cases h
  · next col hcol =>
    cases h
    refine ⟨World.hasCollection_iff.mpr ⟨col, hcol⟩, Stores.ext rfl (funext fun m => ?_)⟩
    by_cases hm : m = n
    · subst hm
      simp only [Stores.clear, World.points_stores, Function.update_self,
        World.points_of_find? hcol]
      exact World.points_modifyCollection_self hcol
    · simp only [Stores.clear, World.points_stores, Function.update_of_ne hm]
      exact World.points_modifyCollection_of_ne hm

theorem serve_upsert {n : String} {pts : List Point} {a : Unit}
    (h : serve env i (.upsert n pts) s = .ok (a, s')) :
    s.HasCollection n ∧ s'.locks = s.locks ∧ s'.stores = s.stores.upsert n pts := by
  simp only [serve] at h
  split at h
  · cases h
  · next col hcol =>
    cases h
    refine ⟨World.hasCollection_iff.mpr ⟨col, hcol⟩, rfl, Stores.ext rfl (funext fun m => ?_)⟩
    by_cases hm : m = n
    · subst hm
      simp only [Stores.upsert, World.points_stores, Function.update_self,
        World.points_of_find? hcol]
      exact World.points_modifyCollection_self hcol
    · simp only [Stores.upsert, World.points_stores, Function.update_of_ne hm]
      exact World.points_modifyCollection_of_ne hm

/-! ## Calls that write no points -/

theorem serve_points {a : Ans o} {s' : World} (ho : o.writesPoints = false)
    (h : serve env i o s = .ok (a, s')) : s'.points = s.points := by
  cases o with
  | deletePoints | upsert => cases ho
  | tryAdvisoryLock k =>
    simp only [serve] at h
    split at h <;> cases h <;> rfl
  | advisoryUnlock =>
    cases h
    rfl
  | documentSave => exact congrArg Stores.points (serve_documentSave h).2.2
  | documentUpdateOrCreate =>
    exact (congrArg Stores.points (serve_documentUpdateOrCreate h).2.2).trans Stores.points_store
  | _ => exact congrArg Stores.points (serve_quiet rfl h).stores

theorem points_of_not_writesPoints (ho : o.writesPoints = false) :
    (exec env i o c s).2.points = s.points := by
  rcases exec_state env i o c s with h | h | ⟨a, h⟩
  · rw [h]
  · rw [h]
    rfl
  · exact serve_points ho h

theorem writesPoints_of_quiet (hq : o.quiet = true) : o.writesPoints = false := by
  cases o with
  | deletePoints | upsert => cases hq
  | _ => rfl

/-! ## Locks -/

namespace World

theorem holder_eq_some {k : LockKey} {j : Nat} :
    s.holder k = some j ↔ (⟨k, j⟩ : Lock) ∈ s.locks.rows := by
  simp only [holder, Option.map_eq_some_iff]
  constructor
  · rintro ⟨⟨k', j'⟩, hl, rfl⟩
    obtain ⟨hm, rfl⟩ := Table.find?_eq_some.mp hl
    exact hm
  · intro hm
    exact ⟨_, Table.find?_of_mem hm, rfl⟩

theorem holder_congr (h : s'.locks = s.locks) (k : LockKey) : s'.holder k = s.holder k := by
  rw [holder, holder, h]

/-- The end of a session frees its locks only. -/
theorem holder_endSession {k : LockKey} {j : Nat} (hj : j ≠ i) :
    (s.endSession i).holder k = some j ↔ s.holder k = some j := by
  simp [holder_eq_some, endSession, hj]

end World

/-- A lock call changes nothing but locks, and of these only its own session's. -/
theorem lock_frame (hl : o.isLock = true) :
    (exec env i o c s).2.stores = s.stores ∧
      ∀ k j, j ≠ i → ((exec env i o c s).2.holder k = some j ↔ s.holder k = some j) := by
  have hend := fun k j (hj : j ≠ i) => World.holder_endSession (s := s) (k := k) hj
  cases o with
  | tryAdvisoryLock k =>
    cases c with
    | before e => exact ⟨rfl, hend⟩
    | after e => exact ⟨rfl, hend⟩
    | none =>
      unfold exec
      simp only [Op.isLock, if_true, serve]
      cases hk : s.locks.find? k with
      | some l => exact ⟨rfl, fun _ _ _ => .rfl⟩
      | none =>
        refine ⟨rfl, fun k' j hj => ?_⟩
        rw [World.holder_eq_some, World.holder_eq_some]
        refine Table.mem_put.trans ⟨?_, fun hm => .inr ⟨hm, ?_⟩⟩
        · rintro (h | ⟨h, _⟩)
          · cases h; exact absurd rfl hj
          · exact h
        · exact Table.find?_eq_none.mp hk _ hm
  | advisoryUnlock k =>
    cases c with
    | before e => exact ⟨rfl, hend⟩
    | after e => exact ⟨rfl, hend⟩
    | none =>
      refine ⟨rfl, fun k' j hj => ?_⟩
      rw [World.holder_eq_some, World.holder_eq_some]
      refine Table.mem_remove.trans ⟨And.left, fun hm => ⟨hm, ?_⟩⟩
      simp [hj]
  | _ => cases hl

/-- A lock obtained is held, and was free or the session's own. -/
theorem holder_acquired {k : LockKey} (h : (exec env i (.tryAdvisoryLock k) c s).1 = .ok true) :
    (exec env i (.tryAdvisoryLock k) c s).2.holder k = some i ∧
      ∀ j, s.holder k = some j → j = i := by
  cases c with
  | before e => cases h
  | after e => cases h
  | none =>
    simp only [exec, Op.isLock, if_true, serve] at h ⊢
    cases hk : s.locks.find? k with
    | none =>
      simp only [hk] at h ⊢
      refine ⟨World.holder_eq_some.mpr (Table.mem_put.mpr (.inl rfl)), fun j hj => ?_⟩
      simp [World.holder, hk] at hj
    | some l =>
      simp only [hk] at h ⊢
      have hl : l.session = i := by simpa using h
      have : s.holder k = some i := by rw [World.holder, hk, Option.map_some, hl]
      exact ⟨this, fun j hj => Option.some.inj (hj.symm.trans this)⟩

/-- Calls other than lock calls leave the locks. -/
theorem locks_frame (hl : o.isLock = false) : (exec env i o c s).2.locks = s.locks := by
  by_cases hq : o.quiet = true
  · exact (quiet_frame hq).locks
  · have hs : o.isLocal = false := by
      cases o with
      | sleep => exact absurd rfl hq
      | _ => rfl
    cases happ : Call.applied env i ⟨o, c, s⟩ with
    | false =>
      obtain ⟨e, h⟩ := exec_of_not_applied hl hs happ
      rw [h]
    | true =>
      obtain ⟨a, h⟩ := serve_of_applied hl hs happ
      cases o with
      | documentSave => exact (serve_documentSave h).2.1
      | documentUpdateOrCreate => exact (serve_documentUpdateOrCreate h).2.1
      | deletePoints => exact locks_deletePoints h
      | upsert => exact (serve_upsert h).2.1
      | tryAdvisoryLock | advisoryUnlock => cases hl
      | _ => exact absurd rfl hq

theorem holder_frame (hl : o.isLock = false) (k : LockKey) :
    (exec env i o c s).2.holder k = s.holder k := World.holder_congr (locks_frame hl) k

end QdrantRag
