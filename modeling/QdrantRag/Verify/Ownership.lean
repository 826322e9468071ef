import QdrantRag.Verify.Agreement

/-! # One owner for each document

The lock of an upload is that of its pair and its document, the row is that of the document alone.
As long as no upload looks up a document while one of another pair is between its own lookup and
its save (`Uncontested`), a row keeps its owner, and uploads of other pairs write no points once it
is there. Points that an upload has left without saving a row are another pair's once that pair
creates the document; as long as no upload looks up a document with such points (`Strayless`), all
points are the owner's (`one_owner_per_document`). -/

namespace QdrantRag
open Keyed Effect

variable {env : Env} {i j : Nat} {w : Write} {s : World} {ev : Call} {φ φ' : Phase} {v v' : Stores}
  {d : String}

/-! ## The guard -/

/-- The call looks up a document whose row is absent, or its request's own: its pair and the
document. -/
def Call.claims (requests : Nat → Write) (i : Nat) (ev : Call) :
    Option ((String × String) × String) :=
  match ev.op with
  | .documentFirst d =>
    if (ev.pre.row d).all (·.owner = (requests i).pair) then some ((requests i).pair, d) else none
  | _ => none

/-- The lookups of uploads that have not saved their row yet. -/
def claims (env : Env) (requests : Nat → Write) :
    List (Nat × Call) → List (Nat × ((String × String) × String)) :=
  underway (Call.claims requests) (Call.ends env)

/-- No document is looked up while an upload of another pair is to save it. -/
def Uncontested (env : Env) (requests : Nat → Write) (log : List (Nat × Call)) (i : Nat)
    (ev : Call) : Prop :=
  ∀ t ∈ Call.claims requests i ev, ∀ e ∈ claims env requests log, e.2.2 = t.2 → e.2.1 = t.1

instance (requests : Nat → Write) (log : List (Nat × Call)) :
    Decidable (Uncontested env requests log i ev) :=
  inferInstanceAs (Decidable (∀ t ∈ Call.claims requests i ev, _))

theorem World.forall_points {s : World} {P : Point → Prop} :
    (∀ n, ∀ pt ∈ (s.points n).rows, P pt) ↔
      ∀ col ∈ s.collections.rows, ∀ pt ∈ col.points.rows, P pt := by
  constructor
  · intro h col hcol pt hpt
    have hfind : s.collections.find? col.name = some col := Table.find?_of_mem hcol
    exact h col.name pt (by rwa [points_of_find? hfind])
  · intro h n pt hpt
    cases hfind : s.collections.find? n with
    | none =>
      rw [points, hfind] at hpt
      cases hpt
    | some col =>
      rw [points_of_find? hfind] at hpt
      exact h col (Table.mem_of_find? hfind) pt hpt

/-- No document is looked up of which there are points of another pair. -/
def Strayless (requests : Nat → Write) (_ : List (Nat × Call)) (i : Nat) (ev : Call) : Prop :=
  ∀ t ∈ Call.claims requests i ev, ∀ n, ∀ pt ∈ (ev.pre.points n).rows, pt.payload.doc_id = t.2 →
    pt.payload.owner = t.1

instance (requests : Nat → Write) (log : List (Nat × Call)) :
    Decidable (Strayless requests log i ev) :=
  have (t : (String × String) × String) : Decidable (∀ n, ∀ pt ∈ (ev.pre.points n).rows,
      pt.payload.doc_id = t.2 → pt.payload.owner = t.1) :=
    decidable_of_iff _ World.forall_points.symm
  inferInstanceAs (Decidable (∀ t ∈ Call.claims requests i ev, _))

/-! ## Uploads past their ownership check -/

/-- The upload has checked the owner of its document and not saved its row. -/
def Stage.checked : Stage → Bool
  | .found _ | .unmatched _ | .indexing _ | .clearing _ | .cleared _ | .upserted _ => true
  | _ => false

def Phase.Checked : Phase → Prop
  | .holding st => st.checked = true
  | _ => False

theorem Stage.Clears.checked {st : Stage} {row : Document} (h : st.Clears w row) :
    st.checked = true := by
  cases h <;> rfl

theorem Stage.Upserts.checked {st : Stage} {ex : Option Document} (h : st.Upserts ex) :
    st.checked = true := by
  cases h <;> rfl

/-- A request past its check was so before, or has just looked up a row that is its own or
absent. -/
theorem Step.checked (h : Step env i w φ ev φ') (hc : φ'.Checked) :
    (φ.Checked ∧ Call.ends env i ev = false) ∨ (ev.op = .documentFirst w.doc_id ∧
      ∀ row, ev.pre.row w.doc_id = some row → row.owner = w.pair) := by
  cases h with
  | quiet _ hq => exact .inl ⟨hc, ends_of_quiet hq⟩
  | find _ hown => exact .inr ⟨rfl, fun row hrow => (hown row hrow).1⟩
  | own _ hrow hown =>
    refine .inr ⟨rfl, fun row hrow' => ?_⟩
    cases hrow.symm.trans hrow'
    exact hown
  | unmatched => exact .inl ⟨rfl, rfl⟩
  | collection _ hst hq =>
    refine .inl ⟨?_, ends_of_quiet hq⟩
    rcases hst with rfl | rfl <;> rfl
  | absent hst | clear hst | clearFails hst => exact .inl ⟨hst.checked, rfl⟩
  | upsert _ hst => exact .inl ⟨hst.checked, rfl⟩
  | poll | acquire | sleep | register | same | matched | refresh | refreshFails
  | upsertFails | store | storeFails | erase | eraseFails | unlock => cases hc

/-- The request has saved its row. -/
def Phase.Saved (φ : Phase) : Prop :=
  ∃ ex, φ = .holding (.stored ex) ∨ φ = .finished (.stored ex)

/-- A request that has saved its row had done so before, or does so now. -/
theorem Step.saved (h : Step env i w φ ev φ') (hs : φ'.Saved) :
    φ.Saved ∨ ∃ row, (ev.post (exec env i)).row w.doc_id = some row ∧ row.owner = w.pair := by
  obtain ⟨ex, rfl | rfl⟩ := hs
  · cases h with
    | quiet => exact .inl ⟨ex, .inl rfl⟩
    | @store x _ bot _ s hw hbot happ =>
      obtain ⟨t, ht⟩ := s.stores.row_store w.doc_id
        (uploadDefaults env x bot (x.points env).length) x.now
      rw [← stores_store happ] at ht
      exact .inr ⟨_, ht, by rw [hw]; rfl⟩
  · cases h with
    | unlock => exact .inl ⟨ex, .inl rfl⟩

/-! ## All requests -/

variable {requests : Nat → Write} {log : List (Nat × Call)} {Φ : Nat → Phase}

/-- Uploads past their check have the row's pair, and the row that an upload saved is its own. -/
structure Owners (env : Env) (requests : Nat → Write) (log : List (Nat × Call)) (s : World)
    (Φ : Nat → Phase) : Prop where
  listed : ∀ i, (Φ i).Checked →
    (i, ((requests i).pair, (requests i).doc_id)) ∈ claims env requests log
  rows : ∀ i, (Φ i).Checked → ∀ row, s.row (requests i).doc_id = some row →
    row.owner = (requests i).pair
  apart : ∀ i j, (Φ i).Checked → (Φ j).Checked → (requests i).doc_id = (requests j).doc_id →
    (requests i).pair = (requests j).pair
  saved : ∀ i, (Φ i).Saved → ∃ row, s.row (requests i).doc_id = some row ∧
    row.owner = (requests i).pair

/-- What a step of request `i` makes of the phases past their check. -/
theorem checked_update (hs : Step env i (requests i) (Φ i) ev φ')
    (hc : (Function.update Φ i φ' j).Checked) :
    ((Φ j).Checked ∧ (j = i → Call.ends env i ev = false)) ∨ j = i ∧
      Call.claims requests i ev = some ((requests j).pair, (requests j).doc_id) ∧
      ev.op.quiet = true ∧
      ∀ row, ev.pre.row (requests j).doc_id = some row → row.owner = (requests j).pair := by
  by_cases hji : j = i
  · subst hji
    rw [Function.update_self] at hc
    refine (hs.checked hc).imp (fun h => ⟨h.1, fun _ => h.2⟩) fun ⟨hop, hown⟩ => ⟨rfl, ?_, ?_, hown⟩
    · unfold Call.claims
      rw [hop]
      refine if_pos ?_
      rw [Option.all_eq_true]
      exact fun row hrow => decide_eq_true (hown row hrow)
    · rw [hop]
      rfl
  · rw [Function.update_of_ne hji] at hc
    exact .inl ⟨hc, fun h => absurd h hji⟩

theorem Phase.checked_upserted {ex : Option Document} (h : φ = .holding (.upserted ex)) :
    φ.Checked := h ▸ rfl

/-- A row keeps its owner, as only uploads of its owner are past their check. -/
theorem Owners.keeps (h : Owners env requests log ev.pre Φ)
    (hs : Step env i (requests i) (Φ i) ev φ') {row : Document} (hrow : ev.pre.row d = some row) :
    ∃ row', (ev.post (exec env i)).row d = some row' ∧ row'.owner = row.owner := by
  obtain ⟨row', hrow', ho | ⟨rfl, ho, ex, hφ⟩⟩ := hs.change.owner hrow
  · exact ⟨row', hrow', ho⟩
  · exact ⟨row', hrow', ho.trans (h.rows i (Phase.checked_upserted hφ) row hrow).symm⟩

theorem Owners.step (h : Owners env requests log ev.pre Φ)
    (hs : Step env i (requests i) (Φ i) ev φ') (hg : Uncontested env requests log i ev) :
    Owners env requests ((i, ev) :: log) (ev.post (exec env i)) (Function.update Φ i φ') := by
  refine ⟨fun j hc => ?_, fun j hc row hrow => ?_, fun j j' hc hc' hd => ?_, fun j hj => ?_⟩
  · rcases checked_update hs hc with ⟨hc, hend⟩ | ⟨rfl, hclaim, -, -⟩
    · exact mem_underway_cons (h.listed j hc) hend
    · exact mem_underway_of_opens hclaim
  · rcases checked_update hs hc with ⟨hc, -⟩ | ⟨rfl, -, hq, hown⟩
    · rcases hs.change.owner_of_post hrow with ⟨row', hrow', ho⟩ | ⟨hd, ho, ex, hφ⟩
      · exact ho.symm.trans (h.rows j hc row' hrow')
      · exact ho.trans (h.apart i j (Phase.checked_upserted hφ) hc hd.symm)
    · have hsame : ev.pre.Same (ev.post (exec env j)) := quiet_frame hq
      rw [← Stores.row_stores, hsame.stores] at hrow
      exact hown row hrow
  · rcases checked_update hs hc with ⟨h₁, -⟩ | ⟨he, hclaim, -⟩ <;>
      rcases checked_update hs hc' with ⟨h₂, -⟩ | ⟨he', hclaim', -⟩
    · exact h.apart j j' h₁ h₂ hd
    · exact hg _ hclaim' _ (h.listed j h₁) hd
    · exact (hg _ hclaim _ (h.listed j' h₂) hd.symm).symm
    · rw [he, he']
  · have hsaved : (Φ j).Saved ∨ ∃ row, (ev.post (exec env i)).row (requests j).doc_id = some row ∧
        row.owner = (requests j).pair := by
      by_cases hji : j = i
      · subst hji
        rw [Function.update_self] at hj
        exact hs.saved hj
      · rw [Function.update_of_ne hji] at hj
        exact .inl hj
    rcases hsaved with hsaved | hrow
    · obtain ⟨row, hrow, ho⟩ := h.saved j hsaved
      obtain ⟨row', hrow', ho'⟩ := h.keeps hs hrow
      exact ⟨row', hrow', ho'.trans ho⟩
    · exact hrow

theorem Owners.start : Owners env requests [] World.empty fun _ => .waiting where
  listed _ h := h.elim
  rows _ h := h.elim
  apart _ _ h := h.elim
  saved _ h := by
    obtain ⟨_, h | h⟩ := h <;> cases h

/-! ## Points -/

/-- Points are written by requests past their check. -/
theorem Step.checked_of_writes (hs : Step env i w φ ev φ') (ho : ev.op.writesPoints = true) :
    φ.Checked := by
  cases hs with
  | clear hst | clearFails hst => exact hst.checked
  | upsert _ hst | upsertFails _ hst => exact hst.checked
  | quiet _ hq | register hq | collection _ _ hq =>
    rw [writesPoints_of_quiet hq] at ho
    cases ho
  | _ => cases ho

/-- A point that is there after a step was there before, or is from an upload past its check. -/
theorem Step.point (hs : Step env i w φ ev φ') {n : String} {pt : Point}
    (hpt : pt ∈ ((ev.post (exec env i)).points n).rows) : pt ∈ (ev.pre.points n).rows ∨
      pt.payload.owner = w.pair ∧ pt.payload.doc_id = w.doc_id ∧ φ.Checked := by
  cases ho : ev.op.writesPoints with
  | false =>
    rw [Event.post, points_of_not_writesPoints ho] at hpt
    exact .inl hpt
  | true =>
    have hc : φ.Checked := hs.checked_of_writes ho
    have hchange : Change env w φ φ' ev.pre.stores (ev.post (exec env i)).stores := hs.change
    have hpt : pt ∈ ((ev.post (exec env i)).stores.points n).rows := hpt
    generalize (ev.post (exec env i)).stores = v at hchange hpt
    cases hchange with
    | none | refresh | store | erase => exact .inl hpt
    | clear => exact .inl (Stores.mem_clear.mp hpt).1
    | @upsert x _ hw =>
      rcases Stores.mem_of_mem_upsert hpt with ⟨-, hnew⟩ | hpt
      · subst hw
        exact .inr ⟨(Upload.owner_of_mem hnew).1, (Upload.owner_of_mem hnew).2.1, hc⟩
      · exact .inl hpt

/-- Every point is of the owner of its document's row, and an upload past its check finds no points
of other pairs. -/
structure Undivided (requests : Nat → Write) (s : World) (Φ : Nat → Phase) : Prop where
  rows : ∀ n, ∀ pt ∈ (s.points n).rows, ∀ row, s.row pt.payload.doc_id = some row →
    pt.payload.owner = row.owner
  checked : ∀ i, (Φ i).Checked → ∀ n, ∀ pt ∈ (s.points n).rows,
    pt.payload.doc_id = (requests i).doc_id → pt.payload.owner = (requests i).pair

theorem Undivided.step (h : Undivided requests ev.pre Φ) (ho : Owners env requests log ev.pre Φ)
    (hs : Step env i (requests i) (Φ i) ev φ') (hg : Strayless requests log i ev) :
    Undivided requests (ev.post (exec env i)) (Function.update Φ i φ') := by
  refine ⟨fun n pt hpt row hrow => ?_, fun j hj n pt hpt hd => ?_⟩
  · rcases hs.change.owner_of_post hrow with ⟨row', hrow', hown⟩ | ⟨hd, hown, ex, hφ⟩
    · rw [← hown]
      rcases hs.point hpt with hold | ⟨hp, hd, hc⟩
      · exact h.rows n pt hold row' hrow'
      · exact hp.trans (ho.rows i hc row' (hd ▸ hrow')).symm
    · -- the upload saves its row
      rw [hown]
      rcases hs.point hpt with hold | ⟨hp, -, -⟩
      · exact h.checked i (Phase.checked_upserted hφ) n pt hold hd
      · exact hp
  · rcases checked_update hs hj with ⟨hc, -⟩ | ⟨rfl, hclaim, hq, -⟩
    · rcases hs.point hpt with hold | ⟨hp, hdi, hci⟩
      · exact h.checked j hc n pt hold hd
      · exact hp.trans (ho.apart i j hci hc (hdi.symm.trans hd))
    · -- it has just looked its document up
      rw [Event.post, points_of_not_writesPoints (writesPoints_of_quiet hq)] at hpt
      exact hg _ hclaim n pt hpt hd

theorem Undivided.start : Undivided requests World.empty fun _ => .waiting where
  rows _ _ h := nomatch h
  checked _ h := h.elim

/-- No upload has written points of a document whose row was another pair's. -/
def OwnWrites (requests : Nat → Write) (log : List (Nat × Call)) : Prop :=
  ∀ i ev, (i, ev) ∈ log → ev.op.writesPoints = true →
    ∀ row, ev.pre.row (requests i).doc_id = some row → row.owner = (requests i).pair

theorem OwnWrites.start : OwnWrites requests [] := fun _ _ hev => absurd hev List.not_mem_nil

theorem OwnWrites.step (h : OwnWrites requests log) (ho : Owners env requests log ev.pre Φ)
    (hs : Step env i (requests i) (Φ i) ev φ') : OwnWrites requests ((i, ev) :: log) := by
  intro j ev' hev hw row hrow
  rcases List.mem_cons.mp hev with he | hev
  · cases he
    exact ho.rows i (hs.checked_of_writes hw) row hrow
  · exact h j ev' hev hw row hrow

/-! ## Interleaved uploads -/

/-- Interleaved uploads. -/
def interleaveUploads (env : Env) (uploads : Nat → Upload) (sched : List (Nat × Fault)) : Service :=
  interleave env (fun i => .upload (uploads i)) sched

/-- The result of an upload that is done. -/
def Service.result (p : Service) (i : Nat) : Option UploadResult :=
  match p.threads i with
  | .pure (.upload r) => some r
  | _ => none

/-- The document was written, and not found to be there. -/
def Service.Wrote (p : Service) (i : Nat) : Prop :=
  ∃ r, p.result i = some r ∧ r.status ≠ .noChange

/-- An upload that wrote its document has saved its row. -/
theorem saved_of_wrote {env : Env} {requests : Nat → Write}
    {I : List (Nat × Call) → World → (Nat → Phase) → Prop} {p : Service} {Φ : Nat → Phase}
    (h : Pool.Holds (exec env) (fun i => Step env i (requests i))
      (fun i φ rep => ∃ st, φ = .finished st ∧ Answers env (requests i) st rep)
      (fun _ φ _ => φ.Outside) I p Φ) {i : Nat} (hw : p.Wrote i) : (Φ i).Saved := by
  obtain ⟨r, hr, hne⟩ := hw
  have hsim := h.sim i
  unfold Service.result at hr
  split at hr
  · next r' hthread =>
    cases hr
    rw [hthread] at hsim
    obtain ⟨st, hφ, hans⟩ := hsim
    generalize requests i = w at hans
    cases hans with
    | refreshed => exact absurd rfl hne
    | stored => exact ⟨_, .inr hφ⟩
  · cases hr

/-- **One owner for each document.** In an interleaved run of uploads in which no document is looked
up while an upload of another pair is between its own lookup of it and its save, the row of a
document keeps its owner and is written under one pair only, and once it is there no upload of
another pair writes points of the document. Where moreover no document is looked up of which there
are points of another pair, all points of a document with a row are of the row's owner and in its
collection. -/
theorem one_owner_per_document (env : Env) (uploads : Nat → Upload)
    (sched sched' : List (Nat × Fault))
    (hguard : Obeys (Uncontested env fun i => .upload (uploads i))
      (interleaveUploads env uploads (sched ++ sched')).log) :
    (∀ d row, (interleaveUploads env uploads sched).state.row d = some row →
      ∃ row', (interleaveUploads env uploads (sched ++ sched')).state.row d = some row' ∧
        row'.owner = row.owner) ∧
    (∀ i j, (interleaveUploads env uploads (sched ++ sched')).Wrote i →
      (interleaveUploads env uploads (sched ++ sched')).Wrote j →
      (uploads i).doc_id = (uploads j).doc_id →
      (uploads i).tenant_id = (uploads j).tenant_id ∧ (uploads i).bot_id = (uploads j).bot_id) ∧
    (∀ i ev, (i, ev) ∈ (interleaveUploads env uploads (sched ++ sched')).log →
      ev.op.writesPoints = true → ∀ row, ev.pre.row (uploads i).doc_id = some row →
        row.owner = ((uploads i).tenant_id, (uploads i).bot_id)) ∧
    (Obeys (Strayless fun i => .upload (uploads i))
        (interleaveUploads env uploads (sched ++ sched')).log →
      ∀ d row, (interleaveUploads env uploads (sched ++ sched')).state.row d = some row →
      ∀ n, ∀ pt ∈ ((interleaveUploads env uploads (sched ++ sched')).state.points n).rows,
        pt.payload.doc_id = d → pt.payload.owner = row.owner ∧ n = row.collection) := by
  have hsplit : interleaveUploads env uploads (sched ++ sched') =
      (interleaveUploads env uploads sched).run (exec env) sched' := Pool.run_append ..
  refine ⟨fun d row hrow => ?_, fun i j hi hj hd => ?_, ?_, fun hstray d row hrow n pt hpt hd => ?_⟩
  · rw [hsplit] at hguard ⊢
    obtain ⟨new, hnew⟩ := (interleaveUploads env uploads sched).log_suffix (exec env) sched'
    have hfirst := hguard
    rw [hnew] at hfirst
    obtain ⟨Φ, hholds⟩ := Pool.run_rule (fun h hs hg => Owners.step h hs hg)
      (holds_start Owners.start) sched hfirst.of_append
    -- from there on, the owners of the rows that exist are kept
    obtain ⟨Φ', hholds'⟩ := Pool.run_rule
      (I := fun log s Φ => Owners env (fun i => .upload (uploads i)) log s Φ ∧
        ∃ row', s.row d = some row' ∧ row'.owner = row.owner)
      (fun h hs hg => ⟨h.1.step hs hg, by
        obtain ⟨row₁, hrow₁, h₁⟩ := h.2
        obtain ⟨row₂, hrow₂, h₂⟩ := h.1.keeps hs hrow₁
        exact ⟨row₂, hrow₂, h₂.trans h₁⟩⟩)
      ⟨⟨hholds.inv, row, hrow, rfl⟩, hholds.sim⟩ sched' hguard
    exact hholds'.inv.2
  · obtain ⟨Φ, hholds⟩ := Pool.run_rule (fun h hs hg => Owners.step h hs hg)
      (holds_start Owners.start) (sched ++ sched') hguard
    obtain ⟨row, hrow, hown⟩ := hholds.inv.saved i (saved_of_wrote hholds hi)
    obtain ⟨row', hrow', hown'⟩ := hholds.inv.saved j (saved_of_wrote hholds hj)
    rw [show (Write.upload (uploads i)).doc_id = _ from hd] at hrow
    cases hrow.symm.trans hrow'
    exact Prod.mk.inj (hown.symm.trans hown')
  · obtain ⟨Φ, hholds⟩ := Pool.run_rule
      (I := fun log s Φ => Owners env (fun i => .upload (uploads i)) log s Φ ∧
        OwnWrites (fun i => .upload (uploads i)) log)
      (fun h hs hg => ⟨h.1.step hs hg, h.2.step h.1 hs⟩)
      (holds_start ⟨Owners.start, OwnWrites.start⟩) (sched ++ sched') hguard
    exact hholds.inv.2
  · obtain ⟨Φ, hholds⟩ := Pool.run_rule
      (I := fun log s Φ => Owners env (fun i => .upload (uploads i)) log s Φ ∧
        Undivided (fun i => .upload (uploads i)) s Φ)
      (fun h hs hg => ⟨h.1.step hs hg.1, h.2.step h.1 hs hg.2⟩)
      (holds_start ⟨Owners.start, Undivided.start⟩) (sched ++ sched') (hguard.and hstray)
    obtain ⟨Φ', hown⟩ := owning_interleave env (fun i => .upload (uploads i)) (sched ++ sched')
    have howner : pt.payload.owner = row.owner := hholds.inv.2.rows n pt hpt row (hd ▸ hrow)
    refine ⟨howner, ?_⟩
    obtain ⟨b, hb, hp, hn⟩ := hown.inv.1.points n pt hpt
    obtain ⟨hT, hB⟩ := Prod.mk.inj (hp.trans howner)
    rw [← hn, b.collection_name_eq, hT, hB]
    rfl

/-- One document, uploaded under two pairs. -/
def Sample.twoPairs : Nat → Upload :=
  two (upload acme docA "h1" ["Hello"]) (upload acmeSales docA "h2" ["world"])

theorem one_owner_per_document_inTurn :
    (∃ row, (interleaveUploads Sample.env Sample.twoPairs Sample.inTurn).state.row Sample.docA =
      some row) ∧
    ∀ row, (interleaveUploads Sample.env Sample.twoPairs Sample.inTurn).state.row Sample.docA =
        some row →
      ∀ n, ∀ pt ∈ ((interleaveUploads Sample.env Sample.twoPairs
          Sample.inTurn).state.points n).rows,
        pt.payload.doc_id = Sample.docA → pt.payload.owner = row.owner ∧ n = row.collection := by
  have h := one_owner_per_document Sample.env Sample.twoPairs Sample.inTurn [] (by decide +kernel)
  rw [List.append_nil] at h
  exact ⟨Option.isSome_iff_exists.mp (by decide +kernel), h.2.2.2 (by decide +kernel) _⟩

/-- The second upload looks up the document before the first has saved its row: both write it, and
its owner changes. -/
theorem owner_changes :
    ((interleaveUploads Sample.env Sample.twoPairs Sample.during).state.row Sample.docA).map
        Document.owner = some Sample.acmeSales ∧
    ((interleaveUploads Sample.env Sample.twoPairs Sample.overlapping).state.row Sample.docA).map
        Document.owner = some Sample.acme ∧
    (∀ i, i < 2 → ((interleaveUploads Sample.env Sample.twoPairs Sample.overlapping).result i).map
        UploadResult.status = some .created) ∧
    Sample.contents (interleaveUploads Sample.env Sample.twoPairs Sample.overlapping).state
        Sample.support = [(Sample.docA, "h1")] ∧
    Sample.contents (interleaveUploads Sample.env Sample.twoPairs Sample.overlapping).state
        "t_acme__b_sales" = [(Sample.docA, "h2")] := by
  decide +kernel

end QdrantRag
