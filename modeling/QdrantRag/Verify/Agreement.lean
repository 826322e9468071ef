import QdrantRag.Verify.Isolation
import QdrantRag.Verify.Settled

/-! # Rows and points agree while no request holds the document

A free lock stands for a settled document: whoever takes the lock finds row and points in
agreement (`Settled`), knows at each stage how far they are apart (`At`), and gives the lock back
with both in agreement again. Requests on other documents do not interfere, as `Change.frame`
shows, and requests on the same document are kept out by the lock. -/

namespace QdrantRag
open Keyed Effect

variable {env : Env} {i j : Nat} {w : Write} {s : World} {ev : Call} {φ φ' : Phase}
  {v v' : Stores} {d : String}

/-! ## The guard -/

/-- Request `i` has made a call that writes points. -/
def Issued (log : List (Nat × Call)) (i : Nat) : Prop :=
  ∃ e ∈ log, e.1 = i ∧ e.2.op.writesPoints = true

instance (log : List (Nat × Call)) (i : Nat) : Decidable (Issued log i) :=
  inferInstanceAs (Decidable (∃ e ∈ log, _))

theorem Issued.cons {log : List (Nat × Call)} (e : Nat × Call) (h : Issued log i) :
    Issued (e :: log) i :=
  h.imp fun _ hm => ⟨List.mem_cons_of_mem _ hm.1, hm.2⟩

theorem Issued.head {log : List (Nat × Call)} (h : ev.op.writesPoints = true) :
    Issued ((i, ev) :: log) i := ⟨_, List.mem_cons_self, rfl, h⟩

/-- From its first write of points on, every call of a request succeeds. -/
def Committing (env : Env) (log : List (Nat × Call)) (i : Nat) (ev : Call) : Prop :=
  Issued ((i, ev) :: log) i → Event.ok (exec env i) ev = true

instance (log : List (Nat × Call)) : Decidable (Committing env log i ev) :=
  inferInstanceAs (Decidable (_ → _))

/-! ## The stages -/

/-- The row of the document is `ex`, but for the time it was refreshed. -/
def RowIs (v : Stores) (d : String) (ex : Option Document) : Prop :=
  ∃ refreshed : Document → Timestamp,
    v.row d = ex.map fun row => { row with last_refreshed_at := refreshed row }

theorem RowIs.refl : RowIs v d (v.row d) := SameRow.of_eq rfl

theorem RowIs.congr {ex : Option Document} (h : RowIs v d ex) (hr : SameRow v v' d) :
    RowIs v' d ex := by
  obtain ⟨f, hf⟩ := h
  obtain ⟨g, hg⟩ := hr
  exact ⟨fun row => g { row with last_refreshed_at := f row }, by
    rw [hg, hf, Option.map_map]; rfl⟩

/-- The row known to be there, as it is now. -/
theorem RowIs.some {row : Document} (h : RowIs v d (.some row)) :
    ∃ r, v.row d = .some r ∧ r.collection = row.collection := by
  obtain ⟨f, hf⟩ := h
  exact ⟨{ row with last_refreshed_at := f row }, hf, rfl⟩

theorem RowIs.none (h : RowIs v d .none) : v.row d = .none := by
  obtain ⟨_, hf⟩ := h
  exact hf

/-- How the row and the points of its document are to each other while `w` is at a stage.
`issued`: it has made a call that writes points. -/
def At (env : Env) (w : Write) (issued : Prop) (v : Stores) : Stage → Prop
  | .found ex | .unmatched ex | .indexing ex => Settled v w.doc_id ∧ RowIs v w.doc_id ex
  | .clearing _ => False
  | .cleared row =>
    Cleared v w.doc_id ∧ RowIs v w.doc_id (some row) ∧ (issued ∨ Settled v w.doc_id)
  | .upserted _ => issued ∧ ∃ x, w = .upload x ∧ Filled v w.doc_id w.collection (x.points env) ∧
    1 ≤ (x.points env).length ∧ (x.points env).length ≤ maxChunksPerDoc
  | _ => Settled v w.doc_id

theorem At.congr {issued issued' : Prop} {st : Stage} (h : At env w issued v st)
    (hi : issued → issued') (hp : SamePoints v v' w.doc_id) (hr : SameRow v v' w.doc_id) :
    At env w issued' v' st := by
  cases st with
  | found | unmatched | indexing => exact ⟨h.1.congr hp hr, h.2.congr hr⟩
  | clearing => exact h
  | cleared => exact ⟨h.1.congr hp, h.2.1.congr hr, h.2.2.imp hi fun h => h.congr hp hr⟩
  | upserted =>
    obtain ⟨his, x, hw, hf, hlen⟩ := h
    exact ⟨hi his, x, hw, hf.congr hp, hlen⟩
  | _ => exact Settled.congr h hp hr

theorem At.of_eq (st : Stage) {issued issued' : Prop} (h : At env w issued v st)
    (hi : issued → issued') (hv : v' = v) : At env w issued' v' st := by
  subst hv
  exact h.congr hi (fun _ _ _ => .rfl) (.of_eq rfl)

/-- A request gives its lock back with row and points in agreement. -/
theorem At.settled {issued : Prop} {st : Stage} (h : At env w issued v st)
    (hst : st.rests = true) : Settled v w.doc_id := by
  cases st with
  | found | unmatched | indexing => exact h.1
  | clearing => exact h.elim
  | cleared | upserted => cases hst
  | _ => exact h

/-- The old points are in the request's own collection. -/
theorem At.clears {issued : Prop} {st : Stage} {row : Document} (h : At env w issued v st)
    (hst : st.Clears w row) : Settled v w.doc_id ∧ RowIs v w.doc_id (some row) := by
  cases hst with
  | upload | delete => exact h
  | again => exact h.elim

/-- A settled document has no points in a collection that does not exist. -/
theorem Settled.cleared_of_absent {row : Document} (h : Settled s.stores w.doc_id)
    (hr : RowIs s.stores w.doc_id (some row)) (hown : row.owner = w.pair)
    (hno : ¬ s.HasCollection w.collection) : Cleared s.stores w.doc_id := by
  obtain ⟨r, hrow, hcol⟩ := hr.some
  intro m pt hpt hd
  obtain ⟨r', hrow', _, _, rfl⟩ := h.points m pt hpt hd
  cases hrow.symm.trans hrow'
  rw [World.points_stores, hcol, collection_of_owner hown,
    World.points_of_not_hasCollection hno] at hpt
  cases hpt

/-- **One step of a request under its lock**, all calls succeeding from its first write of points
on. -/
theorem At.step {W : Set Write} {log : List (Nat × Call)} {st st' : Stage}
    (henv : env.DistinctIds W) (hw : w ∈ W) (h : At env w (Issued log i) ev.pre.stores st)
    (hours : ∀ row, st.existing = some row → row.doc_id = w.doc_id ∧ row.owner = w.pair)
    (hs : Step env i w (.holding st) ev (.holding st')) (hg : Committing env log i ev) :
    At env w (Issued ((i, ev) :: log) i) (ev.post (exec env i)).stores st' := by
  have hfails {o : Op} {c : Fault} {s : World} (hw : o.writesPoints = true)
      (hg : Committing env log i ⟨o, c, s⟩) (hok : Event.ok (exec env i) ⟨o, c, s⟩ = false) :
      False := by
    rw [hg (.head hw)] at hok
    cases hok
  cases hs with
  | quiet _ hq => exact h.of_eq _ (Issued.cons _) (quiet_frame hq).stores
  | register hq => exact At.of_eq .registered h (Issued.cons _) (quiet_frame hq).stores
  | find => exact At.of_eq (.found _) ⟨h, .refl⟩ (Issued.cons _) (quiet_frame rfl).stores
  | same | matched =>
    exact At.of_eq (.refreshing _) (by first | exact h | exact h.1) (Issued.cons _)
      (quiet_frame rfl).stores
  | own _ hrow =>
    exact At.of_eq (.found _) ⟨h, hrow ▸ .refl⟩ (Issued.cons _) (quiet_frame rfl).stores
  | unmatched => exact At.of_eq (.unmatched _) h (Issued.cons _) (quiet_frame rfl).stores
  | refresh _ happ =>
    exact Settled.congr h (by rw [Event.post, stores_refresh happ]; exact fun _ _ _ => .rfl)
      (by rw [Event.post, stores_refresh happ]; exact .refresh)
  | refreshFails _ happ =>
    exact At.of_eq (.refreshing _) h (Issued.cons _) (stores_of_not_applied rfl rfl happ)
  | collection _ hst hq =>
    rcases hst with rfl | rfl <;>
      exact At.of_eq (.indexing _) h (Issued.cons _) (quiet_frame hq).stores
  | absent hst hno =>
    obtain ⟨hset, hrow⟩ := h.clears hst
    exact At.of_eq (.cleared _)
      ⟨hset.cleared_of_absent hrow (hours _ hst.existing).2 hno, hrow, .inr hset⟩ (Issued.cons _)
      (quiet_frame rfl).stores
  | clear hst hok =>
    obtain ⟨hset, hrow⟩ := h.clears hst
    obtain ⟨r, hr, hcol⟩ := hrow.some
    rw [Event.post, stores_clear (applied_of_ok rfl rfl hok)]
    exact ⟨hset.clear hr (hcol.trans (collection_of_owner (hours _ hst.existing).2)), hrow,
      .inl (.head rfl)⟩
  | clearFails _ hok | upsertFails _ _ hok => exact (hfails rfl hg hok).elim
  | @upsert x _ _ c s hx hst hlen hok =>
    have hcleared : Cleared s.stores w.doc_id := by
      cases hst with
      | create => exact h.1.cleared_of_no_row h.2.none
      | replace => exact h.1
    rw [Event.post, stores_upsert (applied_of_ok rfl rfl hok)]
    subst hx
    exact ⟨.head rfl, x, rfl, hcleared.upsert henv hw, hlen⟩
  | @store x _ _ _ _ hx _ happ =>
    obtain ⟨_, x', hx', hfill, hlen⟩ := h
    rw [Event.post, stores_store happ]
    subst hx
    cases hx'
    exact hfill.store henv hw hlen
  | storeFails _ _ happ =>
    have hok := not_ok_of_not_applied rfl rfl happ
    rw [hg (h.1.cons _)] at hok
    cases hok
  | erase _ happ =>
    obtain ⟨r, hr, _⟩ := h.2.1.some
    rw [Event.post, stores_erase happ]
    exact h.1.erase hr (hours _ rfl).1
  | eraseFails _ happ =>
    rcases h.2.2 with hissued | hset
    · have hok := not_ok_of_not_applied rfl rfl happ
      rw [hg (hissued.cons _)] at hok
      cases hok
    · exact At.of_eq (.torn false _) hset id (stores_of_not_applied rfl rfl happ)

/-! ## All requests -/

section Interleaving
variable {requests : Nat → Write} {log : List (Nat × Call)} {Φ : Nat → Phase}

/-- No document is sent under two pairs. -/
def OnePair (requests : Nat → Write) : Prop :=
  ∀ i j, (requests i).doc_id = (requests j).doc_id → (requests i).pair = (requests j).pair

theorem OnePair.key_eq (h : OnePair requests) (hd : (requests i).doc_id = (requests j).doc_id) :
    (requests i).key env = (requests j).key env := by
  obtain ⟨hT, hB⟩ := Prod.mk.inj (h i j hd)
  rw [Write.key, Write.key, hT, hB, hd]

/-- A document is settled, or one request holds its lock and is at a stage of writing it. -/
structure Agreeing (env : Env) (requests : Nat → Write) (log : List (Nat × Call)) (s : World)
    (Φ : Nat → Phase) : Prop where
  named : Named env (Set.range requests) s.stores
  ours : ∀ i, (Φ i).Ours (requests i)
  locks : ∀ i, HoldsLock env i (requests i) (Φ i) s
  free : ∀ d, (∀ i st, (requests i).doc_id = d → Φ i ≠ .holding st) → Settled s.stores d
  busy : ∀ i st, Φ i = .holding st → At env (requests i) (Issued log i) s.stores st

/-- At most one request on a document holds its lock. -/
theorem Agreeing.exclusive (h : Agreeing env requests log s Φ) (hone : OnePair requests)
    {st st' : Stage} (hi : Φ i = .holding st) (hj : Φ j = .holding st')
    (hd : (requests i).doc_id = (requests j).doc_id) : i = j := by
  obtain ⟨k, hk, hhi⟩ := h.locks i st hi
  obtain ⟨k', hk', hhj⟩ := h.locks j st' hj
  rw [hone.key_eq hd, hk'] at hk
  cases hk
  exact Option.some.inj (hhi.symm.trans hhj)

/-- The stores stay as they are when a request that waits makes a call. -/
theorem Step.stores_of_waiting (h : Step env i w .waiting ev φ') :
    (ev.post (exec env i)).stores = ev.pre.stores := by
  cases h with
  | poll | acquire => exact (lock_frame rfl).1
  | sleep => rfl

/-- The row of the document that a request at its last write holds is its own. -/
theorem Phase.Ours.doc_id_cleared (h : φ.Ours w) {row : Document}
    (hφ : φ = .holding (.cleared row)) : row.doc_id = w.doc_id := by
  subst hφ
  exact (h row rfl).1

section Step
variable (henv : env.DistinctIds (Set.range requests)) (h : Agreeing env requests log ev.pre Φ)
  (hs : Step env i (requests i) (Φ i) ev φ')
include henv h hs

/-- Other documents are left alone. -/
theorem Agreeing.frame {d : String} (hd : d ≠ (requests i).doc_id) :
    SamePoints ev.pre.stores (ev.post (exec env i)).stores d ∧
      SameRow ev.pre.stores (ev.post (exec env i)).stores d :=
  hs.change.frame henv (Set.mem_range_self i) h.named (fun _ hφ => (h.ours i).doc_id_cleared hφ) hd

/-- A document that no request holds after the step. -/
theorem Agreeing.free_step {d : String}
    (hfree : ∀ j st, (requests j).doc_id = d → Function.update Φ i φ' j ≠ .holding st) :
    Settled (ev.post (exec env i)).stores d := by
  have hothers (j : Nat) (st : Stage) (hji : j ≠ i) (hj : (requests j).doc_id = d) :
      Φ j ≠ .holding st := by
    have := hfree j st hj
    rwa [Function.update_of_ne hji] at this
  by_cases hd : d = (requests i).doc_id
  · subst hd
    have hφ' : ∀ st, φ' ≠ .holding st := fun st => by
      have := hfree i st rfl
      rwa [Function.update_self] at this
    cases hφ : Φ i with
    | waiting =>
      rw [hφ] at hs
      rw [hs.stores_of_waiting]
      refine h.free _ fun j st hj => ?_
      by_cases hji : j = i
      · rw [hji, hφ]
        exact Phase.noConfusion
      · exact hothers j st hji hj
    | finished st =>
      rw [hφ] at hs
      cases hs
    | holding st =>
      have hat := h.busy i st hφ
      rw [hφ] at hs
      cases hs with
      | unlock _ hst =>
        rw [show (Event.post (exec env i) _).stores = _ from (lock_frame rfl).1]
        exact hat.settled hst
      | _ => exact absurd rfl (hφ' _)
  · have hset := h.free d fun j st hj => by
      by_cases hji : j = i
      · exact absurd (hj.symm.trans (hji ▸ rfl)) hd
      · exact hothers j st hji hj
    obtain ⟨hpoints, hrow⟩ := h.frame henv hs hd
    exact hset.congr hpoints hrow

/-- The stage of the request that makes the call. -/
theorem Agreeing.self_step (hone : OnePair requests) (hg : Committing env log i ev) {st : Stage}
    (hst : φ' = .holding st) :
    At env (requests i) (Issued ((i, ev) :: log) i) (ev.post (exec env i)).stores st := by
  subst hst
  cases hφ : Φ i with
  | waiting =>
    -- the lock was free, so no other request was writing the document
    rw [hφ] at hs
    rw [hs.stores_of_waiting]
    cases hs with
    | acquire hk hgot =>
      refine h.free _ fun j' st hj' hφ' => ?_
      obtain ⟨k, hk', hh⟩ := h.locks j' st hφ'
      rw [hone.key_eq hj', hk] at hk'
      cases hk'
      have := (holder_acquired hgot).2 j' hh
      subst this
      rw [hφ] at hφ'
      cases hφ'
  | finished st' =>
    rw [hφ] at hs
    cases hs
  | holding st' =>
    have hat := h.busy i st' hφ
    have hours := h.ours i
    rw [hφ] at hs hours
    exact hat.step henv (Set.mem_range_self i) hours hs hg

/-- The stage of another request under its lock. -/
theorem Agreeing.other_step (hone : OnePair requests) (hji : j ≠ i) {st : Stage}
    (hj : Φ j = .holding st) :
    At env (requests j) (Issued ((i, ev) :: log) j) (ev.post (exec env i)).stores st := by
  have hat := h.busy j st hj
  by_cases hd : (requests j).doc_id = (requests i).doc_id
  · -- it holds the lock, so the request that makes the call still waits
    cases hφ : Φ i with
    | waiting =>
      rw [hφ] at hs
      exact hat.of_eq _ (Issued.cons _) hs.stores_of_waiting
    | finished st' =>
      rw [hφ] at hs
      cases hs
    | holding st' => exact absurd (h.exclusive hone hj hφ hd) hji
  · obtain ⟨hpoints, hrow⟩ := h.frame henv hs hd
    exact hat.congr (Issued.cons _) hpoints hrow

end Step

theorem Agreeing.step (henv : env.DistinctIds (Set.range requests)) (hone : OnePair requests)
    (h : Agreeing env requests log ev.pre Φ) (hs : Step env i (requests i) (Φ i) ev φ')
    (hg : Committing env log i ev) :
    Agreeing env requests ((i, ev) :: log) (ev.post (exec env i)) (Function.update Φ i φ') := by
  refine ⟨h.named.change (Set.mem_range_self i) hs.change, fun j => ?_, fun j => ?_,
    fun d => h.free_step henv hs, fun j st hj => ?_⟩
  · by_cases hji : j = i
    · subst hji
      rw [Function.update_self]
      exact hs.ours (h.ours j)
    · rw [Function.update_of_ne hji]
      exact h.ours j
  · by_cases hji : j = i
    · subst hji
      rw [Function.update_self]
      exact (h.locks j).step hs
    · rw [Function.update_of_ne hji]
      exact (h.locks j).of_ne hji
  · by_cases hji : j = i
    · subst hji
      rw [Function.update_self] at hj
      exact h.self_step henv hs hone hg hj
    · rw [Function.update_of_ne hji] at hj
      exact h.other_step henv hs hone hji hj

theorem Agreeing.start : Agreeing env requests [] World.empty fun _ => .waiting where
  named := .empty
  ours _ := trivial
  locks _ _ h := nomatch h
  free _ _ := .empty
  busy _ _ h := nomatch h

/-- Row and points of a document agree, in full. -/
structure RowsMatchPoints (s : World) (d : String) : Prop where
  active : ∀ row, s.row d = some row → row.status = .active →
    1 ≤ row.chunk_count ∧ row.chunk_count ≤ 5000 ∧
    (s.stores.docPoints row.collection d).length = row.chunk_count ∧
    ∀ pt ∈ s.stores.docPoints row.collection d, pt.payload.tenant_id = row.tenant_id ∧
      pt.payload.bot_id = row.bot_id ∧ pt.payload.source_content_hash = row.content_hash
  deleted : ∀ row, s.row d = some row → row.status = .deleted →
    row.chunk_count = 0 ∧ ∀ n, ∀ pt ∈ (s.points n).rows, pt.payload.doc_id ≠ d
  absent : s.row d = none → ∀ n, ∀ pt ∈ (s.points n).rows, pt.payload.doc_id ≠ d

theorem Settled.rowsMatchPoints (h : Settled s.stores d) : RowsMatchPoints s d where
  active row hrow hact := by
    obtain ⟨hlen, ⟨_, hone, hmax⟩ | ⟨hdel, _⟩⟩ := h.row row hrow
    · refine ⟨hone, hmax, hlen, fun pt hpt => ?_⟩
      obtain ⟨hpt, hd⟩ := mem_docPoints.mp hpt
      obtain ⟨row', hrow', hown, hhash, _⟩ := h.points _ pt hpt hd
      cases hrow.symm.trans hrow'
      obtain ⟨hT, hB⟩ := Prod.mk.inj hown
      exact ⟨hT, hB, hhash⟩
    · rw [hact] at hdel
      cases hdel
  deleted row hrow hdel := by
    obtain ⟨hlen, ⟨hact, _⟩ | ⟨_, hzero⟩⟩ := h.row row hrow
    · rw [hdel] at hact
      cases hact
    · refine ⟨hzero, fun n pt hpt hd => ?_⟩
      obtain ⟨row', hrow', _, _, rfl⟩ := h.points n pt hpt hd
      cases hrow.symm.trans hrow'
      have hmem : pt ∈ s.stores.docPoints row.collection d := mem_docPoints.mpr ⟨hpt, hd⟩
      rw [List.length_eq_zero_iff.mp (hlen.trans hzero)] at hmem
      cases hmem
  absent hnone := h.cleared_of_no_row hnone

/-- **Rows and points agree.** For interleaved uploads and deletes, no document sent under two
pairs and all calls of a request succeeding from its first write of points on (`update_or_create`
among them, so the body fits its columns), the row and the points of a document agree whenever no
request on it holds its lock. -/
theorem rows_and_points_agree (env : Env) (requests : Nat → Write)
    (henv : env.DistinctIds (Set.range requests)) (hone : OnePair requests)
    (sched : List (Nat × Fault))
    (hcalls : Obeys (Committing env) (interleave env requests sched).log) (d : String)
    (hfree : ∀ i k, (requests i).doc_id = d → (requests i).key env = .ok k →
      (interleave env requests sched).state.holder k ≠ some i) :
    RowsMatchPoints (interleave env requests sched).state d := by
  obtain ⟨Φ, hholds⟩ := Pool.run_rule (fun h hs hg => Agreeing.step henv hone h hs hg)
    (holds_start Agreeing.start) sched hcalls
  refine (hholds.inv.free d fun i st hi hφ => ?_).rowsMatchPoints
  obtain ⟨k, hk, hh⟩ := hholds.inv.locks i st hφ
  exact hfree i k hi hk hh

end Interleaving

/-- Two documents of a bot, uploaded at the same time. -/
def Sample.twoDocuments (i : Nat) : Write :=
  .upload (two (upload acme docA "h1" ["Hello"]) (upload acme docB "h2" ["world"]) i)

theorem rows_and_points_agree_sample :
    (∃ row ∈ (interleave Sample.env Sample.twoDocuments Sample.overlapping).state.documents.rows,
      row.doc_id = Sample.docA) ∧
    RowsMatchPoints (interleave Sample.env Sample.twoDocuments Sample.overlapping).state
      Sample.docA := by
  have hpair (i : Nat) : (Sample.twoDocuments i).pair = Sample.acme := by
    cases i <;> rfl
  have hlocks : (interleave Sample.env Sample.twoDocuments Sample.overlapping).state.locks.rows =
      [] := List.isEmpty_iff.mp (by decide +kernel)
  refine ⟨by decide +kernel, rows_and_points_agree _ _ Sample.env_distinctIds
    (fun i j _ => (hpair i).trans (hpair j).symm) _ (by decide +kernel) _ fun i k _ _ hh => ?_⟩
  have := World.holder_eq_some.mp hh
  rw [hlocks] at this
  exact List.not_mem_nil this

end QdrantRag
