import QdrantRag.Verify.Faults
import QdrantRag.Verify.Orphans
import QdrantRag.Verify.Responses

/-! # Deletes

A delete ensures that a document is absent and touches nothing else. What it may touch is read off
its calls (`Emptied`), what it has done off the stage it reached. -/

namespace QdrantRag
open Keyed Effect Effect.Prog

variable {env : Env} {i : Nat} {s s' s₀ : World} {o : Op} {c : Fault} {n d : String} {v v₀ : Stores}
  {wrote : Bool} {st : Stage} {x : Delete} {α : Type} {web : Web} {req : DeleteRequest}
  {session : Nat} {faults : Nat → Fault}

/-! ## The calls of a delete -/

/-- The operations a delete of the document `d` makes in the collection `n`. -/
def Op.Deletes (n d : String) : Op → Prop
  | .tryAdvisoryLock _ | .advisoryUnlock _ | .sleep _ | .documentFirst _ | .collectionExists _
  | .count .. | .documentSave .. => True
  | .deletePoints m selector => m = n ∧ selector = docFilter d
  | _ => False

theorem only_delete (x : Delete) :
    ((Write.delete x).program env).Only (Op.Deletes (joinName x.tenant_id x.bot_id) x.doc_id) := by
  refine Only.bind (only_uploadLock (fun _ => trivial) (fun _ => trivial) (fun _ => trivial) ?_)
    fun _ => trivial
  apply (only_perform trivial).bind
  intro found
  apply (only_ofExcept _).bind
  intro existing
  have hclear : (deleteByDocId env x.tenant_id x.bot_id x.doc_id).Only
      (Op.Deletes (joinName x.tenant_id x.bot_id) x.doc_id) :=
    only_deleteByDocId (fun _ => trivial) trivial trivial ⟨rfl, rfl⟩
  apply (hclear.tryCatch only_onQdrantError).bind
  intro chunks_deleted
  exact (only_perform trivial).bind fun _ => trivial

/-! ## What a delete touches -/

/-- The collections without the points of the document. -/
def emptied (t : Table Collection) (n d : String) : Table Collection :=
  t.modify n (·.deletePoints (docFilter d)) fun _ => rfl

theorem emptied_emptied (t : Table Collection) (n d : String) :
    emptied (emptied t n d) n d = emptied t n d := by
  apply Table.modify_modify
  intro col
  simp [Collection.deletePoints, Table.remove, List.filter_filter]

theorem find?_emptied {t : Table Collection} {m : String} : (emptied t n d).find? m =
    (t.find? m).map fun col => if col.name = n then col.deletePoints (docFilter d) else col :=
  Table.find?_modify (fun col : Collection => col.deletePoints (docFilter d)) fun _ => rfl

/-- Tenants and bots are as they were, and so are the collections but for points of `d` in `n`. -/
structure Emptied (n d : String) (s₀ s : World) : Prop where
  tenants : s.tenants = s₀.tenants
  bots : s.bots = s₀.bots
  collections : s.collections = s₀.collections ∨ s.collections = emptied s₀.collections n d

/-- A call of a delete that is served. -/
theorem emptied_of_serve {a : Ans o} (ho : o.Deletes n d) (h : serve env i o s = .ok (a, s')) :
    Emptied n d s s' := by
  cases o with
  | tryAdvisoryLock | documentSave | count =>
    simp only [serve] at h
    split at h <;> cases h <;> exact ⟨rfl, rfl, .inl rfl⟩
  | advisoryUnlock | sleep | documentFirst | collectionExists =>
    cases h
    exact ⟨rfl, rfl, .inl rfl⟩
  | deletePoints m selector =>
    obtain ⟨rfl, rfl⟩ := ho
    simp only [serve] at h
    split at h <;> cases h
    exact ⟨rfl, rfl, .inr rfl⟩
  | _ => cases ho

theorem Emptied.exec (ho : o.Deletes n d) (h : Emptied n d s₀ s) :
    Emptied n d s₀ (exec env i o c s).2 := by
  rcases exec_state env i o c s with hs | hs | ⟨a, hserve⟩
  · rw [hs]
    exact h
  · rw [hs]
    exact ⟨h.tenants, h.bots, h.collections⟩
  · have h' := emptied_of_serve ho hserve
    refine ⟨h'.tenants.trans h.tenants, h'.bots.trans h.bots, ?_⟩
    rcases h.collections with he | he <;> rcases h'.collections with he' | he'
    · exact .inl (he'.trans he)
    · exact .inr (he'.trans (congrArg (emptied · n d) he))
    · exact .inr (he'.trans he)
    · rw [he, emptied_emptied] at he'
      exact .inr he'

/-- Everything but the document `d` of the collection `n` is as it was. -/
structure Confined (n d : String) (s s' : World) : Prop where
  rows : ∀ e, e ≠ d → s'.row e = s.row e
  points : ∀ m pt, pt.payload.doc_id ≠ d →
    (pt ∈ (s'.points m).rows ↔ pt ∈ (s.points m).rows)
  collections : ∀ m, m ≠ n → s'.collections.find? m = s.collections.find? m
  schema : (s'.collections.find? n).map (fun col => (col.params, col.payload_schema)) =
    (s.collections.find? n).map fun col => (col.params, col.payload_schema)
  tenants : s'.tenants = s.tenants
  bots : s'.bots = s.bots

theorem Confined.refl (n d : String) (s : World) : Confined n d s s :=
  ⟨fun _ _ => rfl, fun _ _ _ => .rfl, fun _ _ => rfl, rfl, rfl, rfl⟩

theorem Confined.trans {s'' : World} (h : Confined n d s s') (h' : Confined n d s' s'') :
    Confined n d s s'' where
  rows e he := (h'.rows e he).trans (h.rows e he)
  points m pt hpt := (h'.points m pt hpt).trans (h.points m pt hpt)
  collections m hm := (h'.collections m hm).trans (h.collections m hm)
  schema := h'.schema.trans h.schema
  tenants := h'.tenants.trans h.tenants
  bots := h'.bots.trans h.bots

/-! ## What a delete leaves -/

/-- The stores a delete can leave, wherever it ends. -/
inductive Deleted (x : Delete) (v₀ : Stores) : Stores → Prop
  | same : Deleted x v₀ v₀
  | cleared : Deleted x v₀ (v₀.clear (joinName x.tenant_id x.bot_id) x.doc_id)
  | erased {row now} (hrow : v₀.row x.doc_id = some row) :
      Deleted x v₀ ((v₀.clear (joinName x.tenant_id x.bot_id) x.doc_id).erase row now)

theorem Reached.delete (h : Reached env (.delete x) v₀ wrote v st) : Deleted x v₀ v := by
  cases st with
  | locked | registered | found | unmatched | indexing | refreshing => exact h.1 ▸ .same
  | clearing =>
    obtain ⟨⟨rfl, -⟩ | rfl, -⟩ := h
    · exact .same
    · exact .cleared
  | cleared => exact h.1 ▸ .cleared
  | deleted =>
    obtain ⟨_, -, rfl, hrow⟩ := h
    exact .erased hrow
  | upserted =>
    obtain ⟨_, hw, -⟩ := h
    cases hw
  | stored =>
    obtain ⟨_, _, hw, -⟩ := h
    cases hw
  | refreshed =>
    obtain ⟨-, _, hw, -⟩ := h
    cases hw
  | torn wrote' =>
    cases wrote' with
    | false =>
      obtain ⟨rfl, -⟩ := h
      unfold Stores.prepare
      split
      · exact .cleared
      · exact .same
    | true =>
      obtain ⟨_, hw, -⟩ := h
      cases hw

theorem Deleted.row_of_ne (h : Deleted x v₀ v) {e : String} (he : e ≠ x.doc_id) :
    v.row e = v₀.row e := by
  cases h with
  | same | cleared => rfl
  | erased hrow =>
    apply Stores.row_erase_of_ne
    rw [Stores.doc_id_of_row hrow]
    exact he

/-- The row of the document stays, with its owner. -/
theorem Deleted.owner (h : Deleted x v₀ v) {row : Document} (hrow : v₀.row x.doc_id = some row) :
    ∃ row', v.row x.doc_id = some row' ∧ row'.owner = row.owner := by
  cases h with
  | same | cleared => exact ⟨row, hrow, rfl⟩
  | @erased row₀ now hrow₀ =>
    cases hrow.symm.trans hrow₀
    have hd : row.doc_id = x.doc_id := Stores.doc_id_of_row hrow
    rw [← hd] at hrow ⊢
    exact ⟨_, Stores.row_erase_self hrow, rfl⟩

theorem Deleted.mem_points (h : Deleted x v₀ v) {m : String} {pt : Point}
    (hpt : pt.payload.doc_id ≠ x.doc_id) : pt ∈ (v.points m).rows ↔ pt ∈ (v₀.points m).rows := by
  have hclear : pt ∈ ((v₀.clear (joinName x.tenant_id x.bot_id) x.doc_id).points m).rows ↔
      pt ∈ (v₀.points m).rows := by
    rw [Stores.mem_clear]
    exact ⟨And.left, fun hm => ⟨hm, fun he => hpt he.2⟩⟩
  cases h with
  | same => rfl
  | cleared => exact hclear
  | erased => exact hclear

theorem find?_deletePoints {t : Table Collection} :
    ((emptied t n d).find? n).map (fun col => (col.params, col.payload_schema)) =
      (t.find? n).map fun col => (col.params, col.payload_schema) := by
  rw [find?_emptied]
  cases t.find? n with
  | none => rfl
  | some col =>
    simp only [Option.map_some]
    split <;> rfl

theorem Confined.of_deleted (he : Emptied (joinName x.tenant_id x.bot_id) x.doc_id s s')
    (hv : Deleted x s.stores s'.stores) :
    Confined (joinName x.tenant_id x.bot_id) x.doc_id s s' where
  rows e hne := hv.row_of_ne hne
  points m pt hpt := hv.mem_points hpt
  collections m hm := by
    rcases he.collections with h | h
    · rw [h]
    · rw [h, find?_emptied]
      cases hcol : s.collections.find? m with
      | none => rfl
      | some col =>
        have hne : col.name ≠ joinName x.tenant_id x.bot_id := by
          rw [show col.name = m from Table.key_of_find? hcol]
          exact hm
        simp [hne]
  schema := by
    rcases he.collections with h | h
    · rw [h]
    · rw [h, find?_deletePoints]
  tenants := he.tenants
  bots := he.bots

/-! ## Runs of a delete -/

/-- The job of a delete. -/
abbrev Delete.job (x : Delete) (session : Nat) (faults : Nat → Fault) : Job :=
  ⟨.write (.delete x), session, faults⟩

theorem Delete.emptied (env : Env) (x : Delete) (session : Nat) (faults : Nat → Fault)
    (s : World) : Emptied (joinName x.tenant_id x.bot_id) x.doc_id s
      ((x.job session faults).run env s).state :=
  (only_delete x).run_state _ (fun _ _ _ ho h => h.exec ho) ⟨rfl, rfl, .inl rfl⟩

theorem Delete.deleted (env : Env) (x : Delete) (session : Nat) (faults : Nat → Fault)
    (s : World) : Deleted x s.stores ((x.job session faults).run env s).state.stores := by
  obtain ⟨φ, hran, -⟩ := (Write.delete x).ran env session faults s
  exact hran.reached.delete

theorem Delete.confined (env : Env) (x : Delete) (session : Nat) (faults : Nat → Fault)
    (s : World) : Confined (joinName x.tenant_id x.bot_id) x.doc_id s
      ((x.job session faults).run env s).state :=
  .of_deleted (x.emptied env session faults s) (x.deleted env session faults s)

/-- The document is deleted: its row says so, and it has no points. -/
structure Gone (n d : String) (s : World) : Prop where
  row : ∃ row, s.row d = some row ∧ row.status = .deleted ∧ row.chunk_count = 0 ∧
    row.error_message = none
  points : ∀ pt ∈ (s.points n).rows, pt.payload.doc_id ≠ d

/-- A delete that replies has erased the row it found, which is its own. -/
theorem Delete.erased {r : DeleteResult}
    (h : ((x.job session faults).run env s).reply = .ok (.delete r)) :
    ∃ row, s.row x.doc_id = some row ∧ row.owner = (x.tenant_id, x.bot_id) ∧
      ((x.job session faults).run env s).state.stores =
        (s.stores.clear (joinName x.tenant_id x.bot_id) x.doc_id).erase row x.now := by
  obtain ⟨φ, hran, -, hans⟩ := (Write.delete x).ran env session faults s
  obtain ⟨st, rfl, hst⟩ := hans _ h
  cases hst with
  | @deleted _ row _ =>
    obtain ⟨x', hw, hv, hrow⟩ := hran.reached
    cases hw
    exact ⟨row, hrow, (hran.ours row rfl).2, hv⟩

theorem Delete.gone {r : DeleteResult}
    (h : ((x.job session faults).run env s).reply = .ok (.delete r)) :
    Gone (joinName x.tenant_id x.bot_id) x.doc_id ((x.job session faults).run env s).state := by
  obtain ⟨row, hrow, -, hv⟩ := Delete.erased h
  have hd : row.doc_id = x.doc_id := World.doc_id_of_row hrow
  refine ⟨?_, fun pt hpt he => ?_⟩
  · rw [← hd] at hrow hv ⊢
    refine ⟨_, (congrFun (congrArg Stores.row hv) _).trans (Stores.row_erase_self hrow), rfl, rfl,
      rfl⟩
  · rw [← World.points_stores, hv] at hpt
    exact (Stores.mem_clear.mp hpt).2 ⟨rfl, he⟩

/-- The step by which a request finishes frees its lock. -/
theorem HoldsLock.freed {w : Write} {φ : Phase} {ev : Call} {k : LockKey}
    (h : HoldsLock env i w φ ev.pre) (hs : Step env i w φ ev (.finished st))
    (hk : w.key env = .ok k) : (ev.post (exec env i)).holder k = none := by
  cases hs with
  | unlock hk' =>
    cases hk.symm.trans hk'
    obtain ⟨_, hk', hh⟩ := h st rfl
    cases hk.symm.trans hk'
    refine Option.eq_none_iff_forall_ne_some.mpr fun j hj => ?_
    obtain ⟨hj, hne⟩ := holder_unlocked hj
    exact hne ⟨rfl, Option.some.inj (hj.symm.trans hh)⟩

/-- A request that replies has given its lock back. -/
theorem Write.released {w : Write} {rep : Reply} {k : LockKey}
    (h : (Job.run env ⟨.write w, session, faults⟩ s).reply = .ok rep) (hk : w.key env = .ok k) :
    (Job.run env ⟨.write w, session, faults⟩ s).state.holder k = none := by
  obtain ⟨φ, ⟨-, hfree⟩, -, hans⟩ := w.run_rule
    (fun _ s φ => HoldsLock env session w φ s ∧ ∀ st, φ = .finished st → s.holder k = none)
    (fun _ => True)
    (fun _ _ _ _ h hs _ => ⟨h.1.step hs, fun _ hφ => h.1.freed (hφ ▸ hs) hk⟩)
    faults (s := s) ⟨.waiting, fun _ h => Phase.noConfusion h⟩ fun _ _ => trivial
  obtain ⟨st, hst, -⟩ := hans _ h
  exact hfree st hst

/-! ## Deletes again -/

/-- Nothing is different but when the row of `d` was refreshed. -/
structure Refreshed (d : String) (now : Timestamp) (s s' : World) : Prop where
  rows : ∀ e, s'.row e =
    (s.row e).map fun row => if e = d then { row with last_refreshed_at := now } else row
  collections : s'.collections = s.collections
  tenants : s'.tenants = s.tenants
  bots : s'.bots = s.bots

theorem emptied_of_gone (h : Gone n d s) : emptied s.collections n d = s.collections := by
  apply Table.modify_eq_self
  intro col hcol hn
  have hfind : s.collections.find? n = some col := hn ▸ Table.find?_of_mem hcol
  have hnone : ∀ pt ∈ col.points.rows, (docFilter d).holds pt.payload = false := by
    intro pt hpt
    rw [← World.points_of_find? hfind] at hpt
    rw [← Bool.not_eq_true, holds_docFilter]
    exact h.points pt hpt
  have hrows : (col.points.remove fun p => (docFilter d).holds p.payload) = col.points := by
    apply Table.ext
    apply List.filter_eq_self.mpr
    intro pt hpt
    simp [hnone pt hpt]
  unfold Collection.deletePoints
  rw [hrows]

/-- A delete of a document that is deleted refreshes its row, and changes nothing else. -/
theorem Delete.refreshed {r : DeleteResult}
    (hgone : Gone (joinName x.tenant_id x.bot_id) x.doc_id s)
    (h : ((x.job session faults).run env s).reply = .ok (.delete r)) :
    Refreshed x.doc_id x.now s ((x.job session faults).run env s).state := by
  have hem := x.emptied env session faults s
  obtain ⟨row, hrow, -, hv⟩ := Delete.erased h
  have hd : row.doc_id = x.doc_id := World.doc_id_of_row hrow
  refine ⟨fun e => ?_, ?_, hem.tenants, hem.bots⟩
  · refine (congrFun (congrArg Stores.row hv) e).trans ?_
    rw [Stores.row_erase, Stores.row_clear, Stores.row_stores]
    cases he : s.row e with
    | none => rfl
    | some r =>
      have hre : r.doc_id = e := World.doc_id_of_row he
      simp only [Option.map_some, hre, hd]
      split
      · next heq =>
        subst heq
        obtain ⟨r', hr', hstatus, hcount, herror⟩ := hgone.row
        cases he.symm.trans hr'
        rw [← hstatus, ← hcount, ← herror]
      · rfl
  · rcases hem.collections with hc | hc
    · exact hc
    · exact hc.trans (emptied_of_gone hgone)

/-! ## Documents that are not found -/

/-- `DocumentNotFoundError` of a delete. -/
def Delete.notFound (x : Delete) : Exc :=
  .uploadError .documentNotFound ("Document " ++ x.doc_id ++ " not found.")
    [("tenant_id", .str x.tenant_id), ("bot_id", .str x.bot_id), ("doc_id", .str x.doc_id)]

/-- The call looks for the document, or is about a lock. -/
def Op.looks : Op → Bool
  | .tryAdvisoryLock _ | .advisoryUnlock _ | .sleep _ | .documentFirst _ => true
  | _ => false

/-- The calls of a delete, by whether it goes on from its lookup. -/
inductive Goes : Bool → Call → Bool → Prop
  | look {ev : Call} (ho : ev.op.looks = true) : Goes false ev false
  | go {goes : Bool} {ev : Call} : Goes goes ev true

/-- A delete raises that its document is not found only where it has not gone on, and in one way. -/
def Delete.Missing (x : Delete) (goes : Bool) (e : Exc) : Prop :=
  ∀ msg cause details retry_after, e = .upload .documentNotFound msg cause details retry_after →
    goes = false ∧ e = x.notFound

theorem Delete.Missing.of_foreign {e : Exc} (goes : Bool) (h : e.foreign = true) :
    x.Missing goes e := by
  rintro _ _ _ _ rfl
  cases h

/-- The simulation of a part of a delete. -/
abbrev Searches (env : Env) (i : Nat) (ok : Bool → α → Prop) (err : Bool → Exc → Prop)
    (p : Program α) (goes : Bool) : Prop := Sim (foreignExec env i) Goes ok err p goes

theorem searches_rest {existing : Document} :
    Searches env i (fun _ _ => True) x.Missing
      (do
        let chunks_deleted ← (deleteByDocId env x.tenant_id x.bot_id x.doc_id).tryCatch
          (onQdrantError "delete_by_doc_id failed: " [("doc_id", .str x.doc_id)])
        call (.documentSave existing.asDeleted deleteFields x.now)
        return (⟨x.doc_id, chunks_deleted, existing.status == .deleted⟩ : DeleteResult)) true := by
  have hclear : Searches env i (fun goes _ => goes = true) x.Missing
      ((deleteByDocId env x.tenant_id x.bot_id x.doc_id).tryCatch
        (onQdrantError "delete_by_doc_id failed: " [("doc_id", .str x.doc_id)])) true := by
    apply sim_tryCatch.mpr
    refine (sim_deleteByDocId (fun _ _ _ => .go) (fun _ _ _ _ => .go) (fun _ _ _ _ => .go)
      fun _ _ _ => .go).mono (fun _ _ h => h) ?_
    rintro _ e ⟨rfl, he | ⟨last, rfl⟩⟩
    · unfold onQdrantError
      refine Sim.ite (fun _ => ?_) fun _ => .of_foreign _ he
      exact fun _ _ _ _ h => by cases h
    · exact fun _ _ _ _ h => by cases h
  apply sim_do.mpr
  refine hclear.mono ?_ fun _ _ => id
  rintro _ chunks_deleted rfl
  apply sim_do.mpr
  exact sim_stay (fun _ _ => .go) (fun _ => trivial) fun _ => .of_foreign _

theorem searches_locked :
    Searches env i (fun _ _ => True) x.Missing (DeletePipeline.locked env x) false := by
  apply sim_do.mpr
  apply sim_perform.mpr
  intro c s
  cases h : (foreignExec env i (.documentFirst x.doc_id) c s).1 with
  | error e => exact ⟨false, .look rfl, .of_foreign _ (foreign_of_foreignExec h)⟩
  | ok found =>
    have hmissing : ∃ goes', Goes false ⟨.documentFirst x.doc_id, c, s⟩ goes' ∧
        x.Missing goes' x.notFound := ⟨false, .look rfl, fun _ _ _ _ _ => ⟨rfl, rfl⟩⟩
    cases found with
    | none => exact hmissing
    | some row =>
      simp only [ownDocument]
      split
      · exact hmissing
      · exact ⟨true, .go, searches_rest⟩

theorem searches_program :
    Searches env i (fun _ _ => True) x.Missing ((Write.delete x).program env) false := by
  apply sim_do.mpr
  refine Sim.mono (sim_uploadLock (fun _ _ _ => .look rfl) (fun _ _ _ => .look rfl) ?_ ?_ ?_
    searches_locked) (fun _ _ _ => trivial) fun _ _ => id
  · rintro (_ | _) k c s
    · exact .look rfl
    · exact .go
  · exact fun _ _ _ _ h => by cases h
  · exact fun goes _ => .of_foreign goes

/-- Nothing but locks is different. -/
structure World.Unchanged (s s' : World) : Prop where
  tenants : s'.tenants = s.tenants
  bots : s'.bots = s.bots
  documents : s'.documents = s.documents
  collections : s'.collections = s.collections

theorem World.Unchanged.trans {s'' : World} (h : s.Unchanged s') (h' : s'.Unchanged s'') :
    s.Unchanged s'' :=
  ⟨h'.tenants.trans h.tenants, h'.bots.trans h.bots, h'.documents.trans h.documents,
    h'.collections.trans h.collections⟩

theorem unchanged_of_looks (ho : o.looks = true) : s.Unchanged (exec env i o c s).2 := by
  rcases exec_state env i o c s with hs | hs | ⟨a, hserve⟩
  · rw [hs]
    exact ⟨rfl, rfl, rfl, rfl⟩
  · rw [hs]
    exact ⟨rfl, rfl, rfl, rfl⟩
  · generalize (exec env i o c s).2 = s' at hserve ⊢
    cases o with
    | tryAdvisoryLock =>
      simp only [serve] at hserve
      split at hserve <;> cases hserve <;> exact ⟨rfl, rfl, rfl, rfl⟩
    | advisoryUnlock | sleep | documentFirst =>
      cases hserve
      exact ⟨rfl, rfl, rfl, rfl⟩
    | _ => cases ho

/-- A delete that raises that its document is not found has changed nothing. -/
theorem Delete.missing (hforeign : ∀ n, (faults n).Foreign) {msg : String} {cause : Option Exc}
    {details : List (String × PyValue)} {retry_after : Option Nat}
    (h : ((x.job session faults).run env s).reply =
      .error (.upload .documentNotFound msg cause details retry_after)) :
    ((x.job session faults).run env s).reply = .error x.notFound ∧
      s.Unchanged ((x.job session faults).run env s).state := by
  obtain ⟨goes, hgoes, hreply⟩ := Prog.run_rule (fun _ s' goes => goes = false → s.Unchanged s')
    (fun _ => True) (fun _ ev goes goes' hI hs _ => by
      rintro rfl
      cases hs with
      | look ho =>
        have h' : ev.pre.Unchanged (ev.post (foreignExec env session)) := unchanged_of_looks ho
        exact (hI rfl).trans h')
    faults (fun _ => ⟨rfl, rfl, rfl, rfl⟩) (fun _ _ => trivial)
    (searches_program (i := session) (x := x))
  have hrun : (x.job session faults).run env s =
      ((Write.delete x).program env).run (foreignExec env session) faults s :=
    (run_foreign hforeign).symm
  rw [hrun] at h ⊢
  rw [h] at hreply ⊢
  obtain ⟨hg, he⟩ := hreply _ _ _ _ rfl
  exact ⟨congrArg _ he, hgoes hg⟩

/-- A delete without failures of a row of its pair replies. -/
theorem Delete.replies (session : Nat) {row : Document}
    (hfree : ∀ k, (Write.delete x).key env = .ok k → s.holder k = none)
    (hT : slugMatch x.tenant_id = true) (hB : slugMatch x.bot_id = true) (hd : x.doc_id ≠ "")
    (hrow : s.row x.doc_id = some row) (hown : row.owner = (x.tenant_id, x.bot_id)) :
    ∃ r, ((x.job session fun _ => .none).run env s).reply = .ok (.delete r) := by
  obtain ⟨r, s', hret⟩ := delete_returns env session hfree hT hB hd hrow hown
  have hprog : Returns (exec env session) .none ((Write.delete x).program env) s (.delete r) s' :=
    hret.bind returns_pure
  exact ⟨r, hprog.1⟩

/-- A delete without a lock key raises. -/
theorem Delete.key_of_reply {r : DeleteResult}
    (h : ((x.job session faults).run env s).reply = .ok (.delete r)) :
    ∃ k, (Write.delete x).key env = .ok k := by
  cases hk : (Write.delete x).key env with
  | ok k => exact ⟨k, rfl⟩
  | error e =>
    have hprog : (Write.delete x).program env = .throw e := by
      simp only [Write.program, DeletePipeline.execute, uploadLock]
      rw [show advisoryLockKey env.sha256 x.tenant_id x.bot_id x.doc_id = .error e from hk]
      rfl
    have hrun : ((x.job session faults).run env s).reply = .error e := by
      change (((Write.delete x).program env).run (exec env session) faults s).reply = _
      rw [hprog]
      rfl
    rw [hrun] at h
    cases h

/-! ## Requests -/

/-- The collection of the pair of a request. -/
def DeleteRequest.collection (req : DeleteRequest) : String :=
  joinName (normalizeSlug req.tenant_id) (normalizeSlug req.bot_id)

/-- The response to a request for a document that is unknown or another pair's. -/
def DeleteRequest.notFound (req : DeleteRequest) : Response where
  status := 404
  body := .error "document_not_found" ("Document " ++ req.doc_id.canonical ++ " not found.")
    (some (.fields [("tenant_id", .str (normalizeSlug req.tenant_id)),
      ("bot_id", .str (normalizeSlug req.bot_id)), ("doc_id", .str req.doc_id.canonical)]))

/-- The request, made another time. -/
def DeleteRequest.again (req : DeleteRequest) (polls : Nat) (now : Timestamp) : DeleteRequest :=
  { req with polls := polls, now := now }

/-- A run answered with a status. -/
def AnsweredWith (o : Prog.Outcome Op Exc Response Fault World) (status : Nat) : Prop :=
  ∃ response, o.reply = .ok response ∧ response.status = status

/-- The pair of a request is valid. -/
structure DeleteRequest.Valid (req : DeleteRequest) : Prop where
  tenant_id : slugMatch (normalizeSlug req.tenant_id) = true
  bot_id : slugMatch (normalizeSlug req.bot_id) = true

/-- What the pipeline is asked for. -/
def DeleteRequest.target (req : DeleteRequest) : Delete :=
  ⟨normalizeSlug req.tenant_id, normalizeSlug req.bot_id, req.doc_id.canonical, req.polls, req.now⟩

theorem DeleteRequest.checked_of_valid (h : req.Valid) : req.checked web = .ok req.target := by
  unfold checked
  rw [pathSlugs_eq_ok.mpr ⟨h.tenant_id, h.bot_id, rfl, rfl⟩]
  rfl

theorem DeleteRequest.valid_or_refused (req : DeleteRequest) (web : Web) :
    req.Valid ∨ ∃ response, req.checked web = .error response ∧ response.status = 400 := by
  rcases pathSlugs_cases req.tenant_id req.bot_id with
    ⟨⟨hT, hB⟩, -⟩ | ⟨-, field_name, value, hslugs⟩
  · exact .inl ⟨hT, hB⟩
  · refine .inr ⟨invalidSlug web (.invalidIdentifier field_name value), ?_, rfl⟩
    unfold checked
    rw [hslugs]

/-- The run of a request with a valid pair is its pipeline's, and answered with what it replies. -/
theorem DeleteRequest.run_valid (env : Env) (web : Web) (session : Nat) (faults : Nat → Fault)
    (s : World) (h : req.Valid) :
    (req.run env web session faults s).reply =
        .ok (web.response ((req.target.job session faults).run env s).reply) ∧
      (req.run env web session faults s).state =
        ((req.target.job session faults).run env s).state := by
  rw [run_checked (checked_of_valid h)]
  constructor <;> dsimp only

/-- A request answered otherwise than 400 has a valid pair. -/
theorem DeleteRequest.valid_of_answered {response : Response}
    (h : (req.run env web session faults s).reply = .ok response) (hne : response.status ≠ 400) :
    req.Valid := by
  rcases req.valid_or_refused web with hv | ⟨refusal, hrefused, hstatus⟩
  · exact hv
  · rw [run_refused hrefused] at h
    cases h
    exact absurd hstatus hne

theorem DeleteRequest.deleted_of_204 (h : AnsweredWith (req.run env web session faults s) 204) :
    req.Valid ∧ ∃ r, ((req.target.job session faults).run env s).reply = .ok (.delete r) := by
  obtain ⟨response, hreply, hstatus⟩ := h
  have hv : req.Valid := valid_of_answered hreply (by omega)
  rw [(run_valid _ _ _ _ _ hv).1] at hreply
  obtain rfl := Except.ok.inj hreply
  exact ⟨hv, Web.status_204 hstatus⟩

/-- The pair owns the document of a request. -/
def DeleteRequest.Owned (req : DeleteRequest) (s : World) : Prop :=
  ∃ row, s.row req.doc_id.canonical = some row ∧
    row.owner = (normalizeSlug req.tenant_id, normalizeSlug req.bot_id)

/-- Nobody holds the lock of the document of a request. -/
def DeleteRequest.Free (env : Env) (req : DeleteRequest) (s : World) : Prop :=
  ∀ k, (Write.delete req.target).key env = .ok k → s.holder k = none

/-- A request without failures for a document of the pair is answered 204. -/
theorem DeleteRequest.answered (web : Web) (session : Nat) (hv : req.Valid)
    (hd : req.doc_id.canonical ≠ "") (hown : req.Owned s) (hfree : req.Free env s) :
    AnsweredWith (req.run env web session (fun _ => .none) s) 204 := by
  obtain ⟨row, hrow, ho⟩ := hown
  obtain ⟨r, hr⟩ := Delete.replies session hfree hv.tenant_id hv.bot_id hd hrow ho
  have hreply := (run_valid env web session (fun _ => .none) s hv).1
  rw [hr] at hreply
  exact ⟨_, hreply, rfl⟩

/-- What a request answered 204 leaves. -/
theorem DeleteRequest.left_of_204 (h : AnsweredWith (req.run env web session faults s) 204) :
    req.Valid ∧ req.doc_id.canonical ≠ "" ∧
      Gone req.collection req.doc_id.canonical (req.run env web session faults s).state ∧
      req.Owned (req.run env web session faults s).state ∧
      req.Free env (req.run env web session faults s).state := by
  obtain ⟨hv, r, hr⟩ := deleted_of_204 h
  obtain ⟨k, hk⟩ := Delete.key_of_reply hr
  obtain ⟨row, hrow, hown, -⟩ := Delete.erased hr
  have hrow : s.stores.row req.target.doc_id = some row := hrow
  obtain ⟨row', hrow', hown'⟩ := (req.target.deleted env session faults s).owner hrow
  have hgone := Delete.gone (x := req.target) hr
  rw [Stores.row_stores] at hrow'
  rw [(run_valid _ _ _ _ _ hv).2]
  refine ⟨hv, (advisoryLockKey_isOk.mp ⟨k, hk⟩).2.2, hgone, ?_, ?_⟩
  · exact ⟨row', hrow', hown'.trans hown⟩
  · intro k' hk'
    exact Write.released (w := .delete req.target) hr hk'

/-- A request for a document that is deleted refreshes its row, and changes nothing else. -/
theorem DeleteRequest.refreshed (req : DeleteRequest)
    (hgone : Gone req.collection req.doc_id.canonical s)
    (h : AnsweredWith (req.run env web session faults s) 204) :
    Refreshed req.doc_id.canonical req.now s (req.run env web session faults s).state := by
  obtain ⟨hv, r, hr⟩ := deleted_of_204 h
  have hrefreshed := Delete.refreshed (x := req.target) hgone hr
  rw [(run_valid _ _ _ _ _ hv).2]
  exact hrefreshed

/-- A document that is deleted can be deleted again. -/
theorem DeleteRequest.again_of_204 (h : AnsweredWith (req.run env web session faults s) 204)
    (polls : Nat) (now : Timestamp) (session' : Nat) :
    AnsweredWith ((req.again polls now).run env web session' (fun _ => .none)
        (req.run env web session faults s).state) 204 ∧
      Refreshed req.doc_id.canonical now (req.run env web session faults s).state
        ((req.again polls now).run env web session' (fun _ => .none)
          (req.run env web session faults s).state).state := by
  obtain ⟨hv, hd, hgone, hown, hfree⟩ := left_of_204 h
  generalize (req.run env web session faults s).state = s' at hgone hown hfree ⊢
  have hv' : (req.again polls now).Valid := ⟨hv.tenant_id, hv.bot_id⟩
  have hanswered := answered web session' hv' hd hown hfree
  exact ⟨hanswered, refreshed (req.again polls now) hgone hanswered⟩

/-- An attempt at a request: what it reads of the clock, its session, and what fails. -/
structure Attempt where
  polls : Nat
  now : Timestamp
  session : Nat
  faults : Nat → Fault

/-- The state after attempts at a request, one after the other. -/
def DeleteRequest.tried (env : Env) (web : Web) (req : DeleteRequest) :
    List Attempt → World → World
  | [], s => s
  | a :: attempts, s => req.tried env web attempts
      ((req.again a.polls a.now).run env web a.session a.faults s).state

/-- Attempts leave the document to its pair, and its lock free. -/
theorem DeleteRequest.tried_rule (web : Web) (hv : req.Valid) (attempts : List Attempt)
    (hown : req.Owned s) (hfree : req.Free env s) :
    req.Owned (req.tried env web attempts s) ∧ req.Free env (req.tried env web attempts s) ∧
      Confined req.collection req.doc_id.canonical s (req.tried env web attempts s) := by
  induction attempts generalizing s with
  | nil => exact ⟨hown, hfree, .refl _ _ _⟩
  | cons a attempts ih =>
    have hv' : (req.again a.polls a.now).Valid := ⟨hv.tenant_id, hv.bot_id⟩
    let x := (req.again a.polls a.now).target
    have hconfined := x.confined env a.session a.faults s
    have hdeleted := x.deleted env a.session a.faults s
    have hstate := (run_valid env web a.session a.faults s hv').2
    rw [tried, hstate]
    obtain ⟨hown', hfree', hconfined'⟩ := ih (s := ((x.job a.session a.faults).run env s).state)
      (by
        obtain ⟨row, hrow, ho⟩ := hown
        have hrow : s.stores.row x.doc_id = some row := hrow
        obtain ⟨row', hrow', ho'⟩ := hdeleted.owner hrow
        rw [Stores.row_stores] at hrow'
        exact ⟨row', hrow', ho'.trans ho⟩)
      fun k hk => (Write.delete x).unheld env a.session a.faults (hfree k hk)
    exact ⟨hown', hfree', hconfined.trans hconfined'⟩

/-- **A delete ensures that its document is absent, and touches nothing else.** -/
theorem delete_ensures_absent (env : Env) (web : Web) (req : DeleteRequest) (s : World) :
    -- answered 204
    (∀ session faults, AnsweredWith (req.run env web session faults s) 204 →
      Gone req.collection req.doc_id.canonical (req.run env web session faults s).state ∧
      Confined req.collection req.doc_id.canonical s (req.run env web session faults s).state ∧
      ∀ polls now session',
        AnsweredWith ((req.again polls now).run env web session' (fun _ => .none)
          (req.run env web session faults s).state) 204 ∧
        Refreshed req.doc_id.canonical now (req.run env web session faults s).state
          ((req.again polls now).run env web session' (fun _ => .none)
            (req.run env web session faults s).state).state) ∧
    -- answered 404
    (∀ session faults response, (∀ n, (faults n).Foreign) →
      (req.run env web session faults s).reply = .ok response → response.status = 404 →
      response = req.notFound ∧ s.Unchanged (req.run env web session faults s).state) ∧
    -- after attempts that failed
    (∀ attempts, req.Valid → req.doc_id.canonical ≠ "" → req.Owned s → req.Free env s →
      ∀ polls now session,
        AnsweredWith ((req.again polls now).run env web session (fun _ => .none)
          (req.tried env web attempts s)) 204 ∧
        Gone req.collection req.doc_id.canonical
          ((req.again polls now).run env web session (fun _ => .none)
            (req.tried env web attempts s)).state ∧
        Confined req.collection req.doc_id.canonical s
          ((req.again polls now).run env web session (fun _ => .none)
            (req.tried env web attempts s)).state) := by
  have habsent (req' : DeleteRequest) (session : Nat) (faults : Nat → Fault) (s' : World)
      (h : AnsweredWith (req'.run env web session faults s') 204) :
      Gone req'.collection req'.doc_id.canonical (req'.run env web session faults s').state ∧
      Confined req'.collection req'.doc_id.canonical s'
        (req'.run env web session faults s').state := by
    obtain ⟨hv, r, hr⟩ := DeleteRequest.deleted_of_204 h
    have hgone := Delete.gone (x := req'.target) hr
    have hconfined := req'.target.confined env session faults s'
    rw [(DeleteRequest.run_valid _ _ _ _ _ hv).2]
    exact ⟨hgone, hconfined⟩
  refine ⟨fun session faults h => ?_, fun session faults response hforeign hreply h404 => ?_,
    fun attempts hv hd hown hfree polls now session => ?_⟩
  · obtain ⟨hgone, hconfined⟩ := habsent req session faults s h
    exact ⟨hgone, hconfined, DeleteRequest.again_of_204 h⟩
  · have hv : req.Valid := DeleteRequest.valid_of_answered hreply (by omega)
    have hreply' := hreply
    rw [(DeleteRequest.run_valid _ _ _ _ _ hv).1] at hreply'
    obtain rfl := Except.ok.inj hreply'
    obtain ⟨_, _, _, _, hmissing⟩ := Web.status_404 h404
    obtain ⟨he, hunchanged⟩ := Delete.missing hforeign hmissing
    rw [he, (DeleteRequest.run_valid _ _ _ _ _ hv).2]
    exact ⟨rfl, hunchanged⟩
  · obtain ⟨hown', hfree', hconfined⟩ := DeleteRequest.tried_rule web hv attempts hown hfree
    have h204 : AnsweredWith ((req.again polls now).run env web session (fun _ => .none)
        (req.tried env web attempts s)) 204 :=
      DeleteRequest.answered web session ⟨hv.tenant_id, hv.bot_id⟩ hd hown' hfree'
    obtain ⟨hgone, hconfined'⟩ := habsent (req.again polls now) session _ _ h204
    exact ⟨h204, hgone, hconfined.trans hconfined'⟩

/-- A request to delete the document that `acme` uploaded. -/
def Sample.removal (pair : String × String) : DeleteRequest := ⟨pair.1, pair.2, ⟨docA⟩, 100, 0⟩

/-- The status a run is answered with. -/
def Sample.status (o : Prog.Outcome Op Exc Response Fault World) : Option Nat :=
  o.reply.toOption.map Response.status

theorem Sample.answered {o : Prog.Outcome Op Exc Response Fault World} {n : Nat}
    (h : status o = some n) : AnsweredWith o n := by
  unfold status at h
  cases hr : o.reply with
  | ok response =>
    rw [hr] at h
    exact ⟨response, hr, Option.some.inj h⟩
  | error e =>
    rw [hr] at h
    cases h

/-- The first attempt loses its connection when the points are gone. -/
def Sample.attempts : List Attempt := [⟨100, 0, 0, failing 5⟩]

theorem delete_ensures_absent_acme :
    (AnsweredWith ((Sample.removal Sample.acme).run Sample.env Sample.web 0 Sample.served
        Sample.greeted) 204 ∧
      Gone Sample.support Sample.docA ((Sample.removal Sample.acme).run Sample.env Sample.web 0
        Sample.served Sample.greeted).state) ∧
    (∃ response, ((Sample.removal Sample.acmeSales).run Sample.env Sample.web 0 Sample.served
        Sample.greeted).reply = .ok response ∧ response.status = 404 ∧
      response = (Sample.removal Sample.acmeSales).notFound) ∧
    Gone Sample.support Sample.docA
      (((Sample.removal Sample.acme).again 100 0).run Sample.env Sample.web 0 (fun _ => .none)
        ((Sample.removal Sample.acme).tried Sample.env Sample.web Sample.attempts
          Sample.greeted)).state := by
  have hown : (Sample.removal Sample.acme).Owned Sample.greeted := by
    have hany : (Sample.greeted.row Sample.docA).any (·.owner == Sample.acme) = true := by
      decide +kernel
    obtain ⟨row, hrow, howner⟩ := (Option.any_eq_true _ _).mp hany
    exact ⟨row, hrow, (eq_of_beq howner).trans (by decide)⟩
  have hfree : (Sample.removal Sample.acme).Free Sample.env Sample.greeted :=
    fun k _ => unlocked_after _ _ (fun _ => rfl) k
  have hforeign : ∀ n, (Sample.served n).Foreign := fun _ => trivial
  have h204 : AnsweredWith ((Sample.removal Sample.acme).run Sample.env Sample.web 0 Sample.served
      Sample.greeted) 204 := Sample.answered (by decide +kernel)
  obtain ⟨response, hreply, h404⟩ : AnsweredWith ((Sample.removal Sample.acmeSales).run Sample.env
      Sample.web 0 Sample.served Sample.greeted) 404 := Sample.answered (by decide +kernel)
  refine ⟨⟨h204, ?_⟩, ⟨response, hreply, h404, ?_⟩, ?_⟩
  · exact ((delete_ensures_absent Sample.env Sample.web (Sample.removal Sample.acme)
      Sample.greeted).1 0 _ h204).1
  · exact ((delete_ensures_absent Sample.env Sample.web (Sample.removal Sample.acmeSales)
      Sample.greeted).2.1 0 _ response hforeign hreply h404).1
  · exact ((delete_ensures_absent Sample.env Sample.web (Sample.removal Sample.acme)
      Sample.greeted).2.2 Sample.attempts ⟨by decide, by decide⟩ (by decide) hown hfree 100 0 0).2.1

end QdrantRag
