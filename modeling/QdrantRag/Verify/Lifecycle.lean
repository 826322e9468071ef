import QdrantRag.Verify.Versions

/-! # The life of a document row

A row is created by an upload, rewritten as a whole by every later one, refreshed, and marked
deleted; it is never removed. At every moment of every run, whatever fails, each row is that of one
upload (`Document.Records`): its columns all come from the same request, whose points were sent
before the row was stored, and it is active with the number of them or deleted with none. No row is
ever `PENDING` or `FAILED` (`rows_recorded`). -/

namespace QdrantRag
open Keyed Effect Effect.Prog Effect.Pool

variable {env : Env} {i : Nat} {w : Write} {s : World} {ev : Call} {φ φ' : Phase}
  {v v' : Stores} {d : String} {x : Upload} {requests : Nat → Write} {log : List (Nat × Call)}

/-! ## Rows -/

/-- The active row of an upload. -/
def Upload.row (env : Env) (x : Upload) (uploaded_at last_refreshed_at : Timestamp) :
    Document where
  doc_id := x.doc_id
  bot_ref := (x.tenant_id, x.bot_id)
  tenant_id := x.tenant_id
  bot_id := x.bot_id
  source_type := x.body.source_type
  source_filename := getKey x.body.source_filename
  source_url := getKey x.body.source_url
  content_hash := incomingHash env x.body
  chunk_count := (x.points env).length
  item_count := x.body.items.length
  status := .active
  error_message := none
  raw_payload := some x.body.toPy
  uploaded_at := uploaded_at
  last_refreshed_at := last_refreshed_at

/-- The row is that of the upload, and may have been deleted since. -/
def Document.Records (env : Env) (x : Upload) (row : Document) : Prop :=
  ∃ uploaded_at last_refreshed_at, row = x.row env uploaded_at last_refreshed_at ∨
    row = { x.row env uploaded_at last_refreshed_at with status := .deleted, chunk_count := 0 }

/-- The row is refreshed, or marked deleted. -/
def Document.Revises (row r : Document) : Prop :=
  ∃ now, row = { r with last_refreshed_at := now } ∨
    row = { r with
      status := .deleted, chunk_count := 0, error_message := none, last_refreshed_at := now }

theorem Document.Revises.refl (row : Document) : row.Revises row :=
  ⟨row.last_refreshed_at, .inl rfl⟩

theorem Document.Records.revises {row r : Document} (h : r.Records env x) (hr : row.Revises r) :
    row.Records env x := by
  obtain ⟨t, t', rfl | rfl⟩ := h <;> obtain ⟨now, rfl | rfl⟩ := hr
  · exact ⟨t, now, .inl rfl⟩
  · exact ⟨t, now, .inr rfl⟩
  · exact ⟨t, now, .inr rfl⟩
  · exact ⟨t, now, .inr rfl⟩

/-- The row an upload stores is its row. -/
theorem records_storedRow {bot : Bot} {now : Timestamp}
    (hbot : bot.pair = (x.tenant_id, x.bot_id)) :
    (v.storedRow x.doc_id (uploadDefaults env x bot (x.points env).length) now).Records env x := by
  obtain ⟨t, ht⟩ := v.storedRow_eq x.doc_id (uploadDefaults env x bot (x.points env).length) now
  refine ⟨t, now, .inl (ht.trans ?_)⟩
  simp only [DocumentDefaults.create, uploadDefaults, hbot, Upload.row]

/-! ## Changes of rows -/

/-- A row that is there after a change revises one that was there, or an upload stored it. -/
theorem Change.row_of_post (hc : Change env w φ φ' v v') {row : Document}
    (hrow : v'.row d = some row) : (∃ r, v.row d = some r ∧ row.Revises r) ∨
      ∃ x ex, w = .upload x ∧ φ = .holding (.upserted ex) ∧ φ' = .holding (.stored ex) ∧
        d = x.doc_id ∧ row.Records env x := by
  cases hc with
  | none => exact .inl ⟨row, hrow, .refl row⟩
  | clear | upsert => exact .inl ⟨row, hrow, .refl row⟩
  | refresh =>
    rw [Stores.row_refresh, Option.map_eq_some_iff] at hrow
    obtain ⟨r, hr, rfl⟩ := hrow
    refine .inl ⟨r, hr, ?_⟩
    split
    · exact ⟨_, .inl rfl⟩
    · exact .refl r
  | erase =>
    rw [Stores.row_erase, Option.map_eq_some_iff] at hrow
    obtain ⟨r, hr, rfl⟩ := hrow
    refine .inl ⟨r, hr, ?_⟩
    split
    · exact ⟨_, .inr rfl⟩
    · exact .refl r
  | @store x bot ex hw hbot hφ hφ' =>
    by_cases hd : d = w.doc_id
    · subst hd
      obtain rfl := Option.some.inj (Stores.row_store_self.symm.trans hrow)
      subst hw
      exact .inr ⟨x, ex, rfl, hφ, hφ', rfl, records_storedRow hbot⟩
    · rw [Stores.row_store_of_ne hd] at hrow
      exact .inl ⟨row, hrow, .refl row⟩

/-- A row stays, with the time it was created. -/
theorem Change.uploaded_at (hc : Change env w φ φ' v v') {r : Document} (hr : v.row d = some r) :
    ∃ row, v'.row d = some row ∧ row.uploaded_at = r.uploaded_at := by
  cases hc with
  | none | clear | upsert => exact ⟨r, hr, rfl⟩
  | refresh =>
    refine ⟨_, Stores.row_refresh.trans (congrArg _ hr), ?_⟩
    simp only
    split <;> rfl
  | erase =>
    refine ⟨_, Stores.row_erase.trans (congrArg _ hr), ?_⟩
    simp only
    split <;> rfl
  | @store x bot ex hw =>
    by_cases hd : d = w.doc_id
    · subst hd
      refine ⟨_, Stores.row_store_self, ?_⟩
      simp only [Stores.storedRow, hr]
      rfl
    · exact ⟨r, (Stores.row_store_of_ne hd).trans hr, rfl⟩

/-! ## Rows and requests -/

/-- The row of the upload fits its columns. -/
def Upload.Fits (env : Env) (x : Upload) : Prop :=
  ∀ bot : Bot, (uploadDefaults env x bot (x.points env).length).check = .ok ()

/-- A row is stored only where it fits its columns. -/
theorem Step.fits {ex : Option Document} (hs : Step env i w φ ev φ')
    (hφ : φ = .holding (.upserted ex)) (hφ' : φ' = .holding (.stored ex)) (hw : w = .upload x) :
    x.Fits env := by
  subst hφ
  cases hs with
  | store hw' _ happ =>
    subst hw
    cases hw'
    obtain ⟨a, hserve⟩ := serve_of_applied rfl rfl happ
    exact fun _ => (serve_documentUpdateOrCreate hserve).1
  | quiet hst => cases hst
  | collection _ hst => rcases hst with h | h <;> cases h
  | _ => cases hφ'

/-- The points of the upload were sent, and are not too many. -/
structure Stocked (env : Env) (requests : Nat → Write) (log : List (Nat × Call)) (i : Nat)
    (x : Upload) : Prop where
  sent : Sent env requests log i x
  length : 1 ≤ (x.points env).length ∧ (x.points env).length ≤ maxChunksPerDoc

theorem Stocked.cons (h : Stocked env requests log i x) (e : Nat × Call) :
    Stocked env requests (e :: log) i x := ⟨h.sent.cons e, h.length⟩

/-- Every row is that of an upload, and every request about to store one has sent its points. -/
structure Recorded (env : Env) (requests : Nat → Write) (log : List (Nat × Call)) (s : World)
    (Φ : Nat → Phase) : Prop where
  rows : ∀ d row, s.row d = some row → ∃ i x, Stocked env requests log i x ∧ x.doc_id = d ∧
    row.Records env x ∧ x.Fits env
  upserted : ∀ i ex, Φ i = .holding (.upserted ex) → ∃ x, Stocked env requests log i x

/-- A request comes to have its points upserted by sending them. -/
theorem Step.stocked {ex : Option Document} (hs : Step env i (requests i) φ ev φ')
    (hφ' : φ' = .holding (.upserted ex)) :
    ∃ x, Stocked env requests ((i, ev) :: log) i x := by
  cases hs with
  | @upsert x _ _ _ _ hw _ hlen _ =>
    refine ⟨x, ⟨hw, _, List.mem_cons_self, ?_⟩, hlen⟩
    rw [hw]
    rfl
  | quiet hst =>
    cases hφ'
    cases hst
  | _ => cases hφ'

theorem Recorded.step {Φ : Nat → Phase} (h : Recorded env requests log ev.pre Φ)
    (hs : Step env i (requests i) (Φ i) ev φ') :
    Recorded env requests ((i, ev) :: log) (ev.post (exec env i)) (Function.update Φ i φ') where
  rows d row hrow := by
    rcases hs.change.row_of_post hrow with ⟨r, hr, hrev⟩ | ⟨x, ex, hw, hφ, hφ', hd, hrec⟩
    · obtain ⟨j, x, hx, hd, hrec, hfits⟩ := h.rows d r hr
      exact ⟨j, x, hx.cons _, hd, hrec.revises hrev, hfits⟩
    · obtain ⟨x', hx'⟩ := h.upserted i ex hφ
      obtain rfl := Write.upload.inj (hw.symm.trans hx'.sent.request)
      exact ⟨i, x, hx'.cons _, hd.symm, hrec, hs.fits hφ hφ' hw⟩
  upserted j ex hj := by
    by_cases hji : j = i
    · subst hji
      rw [Function.update_self] at hj
      exact hs.stocked hj
    · rw [Function.update_of_ne hji] at hj
      obtain ⟨x, hx⟩ := h.upserted j ex hj
      exact ⟨x, hx.cons _⟩

theorem recorded_interleave (env : Env) (requests : Nat → Write) (sched : List (Nat × Fault)) :
    ∃ Φ, Recorded env requests (interleave env requests sched).log
      (interleave env requests sched).state Φ := by
  have h0 : Recorded env requests [] World.empty fun _ => .waiting :=
    ⟨fun _ _ h => (by cases h), fun _ _ h => (by cases h)⟩
  obtain ⟨Φ, hholds⟩ := Pool.run_rule (fun h hs _ => Recorded.step h hs) (holds_start h0) sched
    (Obeys.trivial _)
  exact ⟨Φ, hholds.inv⟩

/-- A row keeps the time it was created, from the moment it is there on. -/
theorem uploaded_at_interleave (sched sched' : List (Nat × Fault)) {r : Document}
    (hr : (interleave env requests sched).state.row d = some r) :
    ∃ row, (interleave env requests (sched ++ sched')).state.row d = some row ∧
      row.uploaded_at = r.uploaded_at := by
  induction sched' generalizing sched r with
  | nil =>
    rw [List.append_nil]
    exact ⟨r, hr, rfl⟩
  | cons e sched' ih =>
    obtain ⟨i, c⟩ := e
    have hnext : interleave env requests (sched ++ [(i, c)]) =
        (interleave env requests sched).step (exec env) i c := Pool.run_append ..
    obtain ⟨Φ, hholds⟩ := owning_interleave env requests sched
    have hstep : ∃ row, (interleave env requests (sched ++ [(i, c)])).state.row d = some row ∧
        row.uploaded_at = r.uploaded_at := by
      rw [hnext]
      rcases hholds.step_cases i c with h | ⟨ev, φ', hs, hpre, hpost⟩
      · rw [h]
        exact ⟨r, hr, rfl⟩
      · rw [hpost]
        rw [← hpre] at hr
        exact hs.change.uploaded_at hr
    obtain ⟨row, hrow, hat⟩ := hstep
    obtain ⟨row', hrow', hat'⟩ := ih (sched ++ [(i, c)]) hrow
    rw [List.append_assoc] at hrow'
    exact ⟨row', hrow', hat'.trans hat⟩

/-- **Every row is that of one upload.** At every moment of every run, whatever fails, each row has
the columns of one upload, which fit, and whose 1 to 5000 points were sent before; it is active and
counts them, or is deleted and counts none; and the bot it refers to exists. It is never removed,
and keeps the time it was created. -/
theorem rows_recorded (env : Env) (requests : Nat → Write) (sched : List (Nat × Fault)) :
    (∀ d row, (interleave env requests sched).state.row d = some row →
      (∃ i x, Sent env requests (interleave env requests sched).log i x ∧ x.doc_id = d ∧
        1 ≤ (x.points env).length ∧ (x.points env).length ≤ 5000 ∧ x.Fits env ∧
        row.Records env x) ∧
      ∃ bot ∈ (interleave env requests sched).state.bots.rows, bot.pair = row.bot_ref) ∧
    ∀ sched' d r, (interleave env requests sched).state.row d = some r →
      ∃ row, (interleave env requests (sched ++ sched')).state.row d = some row ∧
        row.uploaded_at = r.uploaded_at := by
  constructor
  · intro d row hrow
    obtain ⟨Φ, hrecorded⟩ := recorded_interleave env requests sched
    obtain ⟨i, x, hx, hd, hrec, hfits⟩ := hrecorded.rows d row hrow
    refine ⟨⟨i, x, hx.sent, hd, hx.length.1, hx.length.2, hfits, hrec⟩, ?_⟩
    obtain ⟨Φ', hholds⟩ := owning_interleave env requests sched
    obtain ⟨bot, hbot, hpair⟩ := hholds.inv.1.rows d row hrow
    have href : row.bot_ref = row.owner := by
      obtain ⟨t, t', rfl | rfl⟩ := hrec <;> rfl
    exact ⟨bot, hbot, hpair.trans href.symm⟩
  · intro sched' d r hr
    exact uploaded_at_interleave sched sched' hr

end QdrantRag
