import QdrantRag.Verify.Catalog
import QdrantRag.Verify.Commit
import QdrantRag.Verify.Orphans

/-! # The service refines the catalog

A state and a catalog that describes it (`Catalog.Describes`); each request that is served keeps
the two together, and so does every run of such requests (`catalog_refined`). -/

namespace QdrantRag
open Keyed Effect Effect.Prog Text

variable {env : Env} {W : Set Write} {i : Nat} {s s' : World} {v : Stores} {c c' : Catalog}
  {x : Upload} {d n : String}

/-! ## The entry of a row -/

def Document.entry (row : Document) : Entry where
  owner := row.owner
  content_hash := row.content_hash
  chunk_count := row.chunk_count
  item_count := row.item_count
  uploaded_at := row.uploaded_at

/-- The entries of the rows. -/
def Stores.entries (v : Stores) (d : String) : Option Entry := (v.row d).map Document.entry

theorem Stores.entries_eq_some {e : Entry} :
    v.entries d = some e ↔ ∃ row, v.row d = some row ∧ row.entry = e := Option.map_eq_some_iff

theorem Stores.entries_refresh {row : Document} {now : Timestamp} :
    (v.refresh row now).entries = v.entries := by
  funext d
  simp only [entries, row_refresh, Option.map_map]
  congr 1
  funext r
  simp only [Function.comp]
  split <;> rfl

theorem Stores.entries_erase {row : Document} {now : Timestamp} (hrow : v.row d = some row) :
    (v.erase row now).entries =
      Function.update v.entries d (some { row.entry with chunk_count := 0 }) := by
  obtain rfl := doc_id_of_row hrow
  funext d'
  by_cases hd : d' = row.doc_id
  · subst hd
    rw [Function.update_self, entries, row_erase_self hrow]
    rfl
  · rw [Function.update_of_ne hd, entries, row_erase_of_ne hd]
    rfl

theorem Stores.entries_written {bot : Bot} :
    (x.written env bot v).entries = Function.update v.entries x.doc_id
      (some ⟨x.pair, incomingHash env x.body, (x.points env).length, x.body.items.length,
        ((v.entries x.doc_id).map Entry.uploaded_at).getD x.now⟩) := by
  funext d
  by_cases hd : d = x.doc_id
  · subst hd
    have hprep : ((v.prepare (.upload x) (v.row x.doc_id)).upsert x.collection
        (x.points env)).row x.doc_id = v.row x.doc_id := congrFun row_prepare x.doc_id
    rw [Function.update_self, entries, entries, Upload.written, row_store_self, storedRow, hprep]
    cases v.row x.doc_id <;> rfl
  · rw [Function.update_of_ne hd, entries, Upload.written, row_store_of_ne hd]
    exact congrArg (Option.map Document.entry) (congrFun row_prepare d)

/-! ## Settled documents -/

/-- The documents that are settled stay so when an upload has written one of them. -/
theorem settled_written {bot : Bot} (henv : env.DistinctIds W) (hx : .upload x ∈ W)
    (hn : Named env W v) (hset : ∀ d, Settled v d) (hbot : bot.pair = x.pair)
    (hown : ∀ row, v.row x.doc_id = some row → row.owner = x.pair)
    (hlen : 1 ≤ (x.points env).length ∧ (x.points env).length ≤ maxChunksPerDoc) :
    ∀ d, Settled (x.written env bot v) d := by
  intro d
  by_cases hd : d = x.doc_id
  · subst hd
    have hprep : Cleared (v.prepare (.upload x) (v.row x.doc_id)) x.doc_id := by
      cases hrow : v.row x.doc_id with
      | none => exact (hset _).cleared_of_no_row hrow
      | some row =>
        exact (hset _).clear hrow (collection_of_owner (w := .upload x) (hown row hrow))
    exact (hprep.upsert henv hx).store henv hx hlen
  · have hleft : Left env (.upload x) v (x.written env bot v) := .stored rfl hbot
    exact (hset d).congr (hleft.samePoints henv hx hn hd) (hleft.sameRow hd)

theorem settled_erased {w : Write} {row : Document} {now : Timestamp} (henv : env.DistinctIds W)
    (hw : w ∈ W) (hn : Named env W v) (hset : ∀ d, Settled v d) (hrow : v.row w.doc_id = some row)
    (hown : row.owner = w.pair) :
    ∀ d, Settled ((v.clear w.collection w.doc_id).erase row now) d := by
  intro d
  by_cases hd : d = w.doc_id
  · subst hd
    exact ((hset _).clear hrow (collection_of_owner hown)).erase hrow (Stores.doc_id_of_row hrow)
  · have hleft : Left env w v ((v.clear w.collection w.doc_id).erase row now) := .deleted hrow
    exact (hset d).congr (hleft.samePoints henv hw hn hd) (hleft.sameRow hd)

theorem settled_refreshed {row : Document} {now : Timestamp} (hset : ∀ d, Settled v d) :
    ∀ d, Settled (v.refresh row now) d := fun d => (hset d).congr .refl .refresh

/-! ## States that are described -/

/-- The catalog tells the pairs, the rows and the points of the state. -/
structure Catalog.Describes (c : Catalog) (s : World) : Prop where
  pairs : c.pairs = s.pairs
  entries : ∀ d, c.entries d = (s.row d).map Document.entry
  /-- A row is active, or deleted and then without chunks. -/
  statuses : ∀ d row, s.row d = some row →
    row.status = if 0 < row.chunk_count then .active else .deleted
  /-- A document has as many points in its collection as the catalog says. -/
  counts : ∀ d e, c.entries d = some e → (s.stores.docPoints e.collection d).length = e.chunk_count
  /-- There are no other points. -/
  points : ∀ n, ∀ pt ∈ (s.points n).rows, ∃ e, c.entries pt.payload.doc_id = some e ∧
    e.owner = pt.payload.owner ∧ e.content_hash = pt.payload.source_content_hash ∧
    n = e.collection

/-- The catalog is that of the state, whose documents are settled and whose collections have the
locked schema. -/
structure Agrees (c : Catalog) (s : World) : Prop where
  pairs : c.pairs = s.pairs
  entries : c.entries = s.stores.entries
  settled : ∀ d, Settled s.stores d
  conforms : s.Conforms

/-- Between requests: the points are of uploads among the requests `W`, and no lock is held. -/
structure Tracks (env : Env) (W : Set Write) (c : Catalog) (s : World) : Prop
    extends Agrees c s where
  named : Named env W s.stores
  unlocked : s.Unlocked

theorem Agrees.congr (h : Agrees c s) (hs : s'.stores = s.stores) (hstays : s.Stays s') :
    Agrees c s' where
  pairs := by rw [World.pairs, hstays.bots]; exact h.pairs
  entries := hs ▸ h.entries
  settled := hs ▸ h.settled
  conforms := hstays.conforms h.conforms

theorem Agrees.enroll {p : String × String} (h : Agrees c s) (hp : s.Enrolled p s') :
    Agrees (c.enroll p) s' where
  pairs := by rw [hp.pairs, ← h.pairs]; rfl
  entries := hp.stores ▸ h.entries
  settled := hp.stores ▸ h.settled
  conforms n col hcol := h.conforms n col (hp.collections ▸ hcol)

theorem Agrees.describes (h : Agrees c s) : c.Describes s where
  pairs := h.pairs
  entries d := congrFun h.entries d
  statuses d row hrow := by
    obtain ⟨-, ⟨hst, hone, -⟩ | ⟨hst, hzero⟩⟩ := (h.settled d).row row hrow
    · exact hst.trans (if_pos (Nat.lt_of_lt_of_le Nat.zero_lt_one hone)).symm
    · rw [hst, hzero, if_neg (Nat.lt_irrefl 0)]
  counts d e he := by
    rw [h.entries, Stores.entries_eq_some] at he
    obtain ⟨row, hrow, rfl⟩ := he
    exact ((h.settled d).row row hrow).1
  points n pt hpt := by
    obtain ⟨row, hrow, hown, hhash, rfl⟩ := (h.settled _).points n pt hpt rfl
    refine ⟨row.entry, ?_, hown.symm, hhash.symm, rfl⟩
    rw [h.entries]
    exact Stores.entries_eq_some.mpr ⟨row, hrow, rfl⟩

theorem Tracks.empty : Tracks env W .empty .empty where
  pairs := by
    ext p
    exact iff_of_false (Set.notMem_empty p) fun ⟨_, hb, _⟩ => absurd hb List.not_mem_nil
  entries := rfl
  settled _ := .empty
  conforms _ _ hcol := by cases hcol
  named := .empty
  unlocked _ := rfl

theorem Agrees.entry_of_row (h : Agrees c s) {row : Document} (hrow : s.row d = some row) :
    c.entries d = some row.entry := by
  rw [h.entries]
  exact Stores.entries_eq_some.mpr ⟨row, hrow, rfl⟩

theorem Agrees.row_of_entry (h : Agrees c s) {e : Entry} (he : c.entries d = some e) :
    ∃ row, s.row d = some row ∧ row.entry = e := by
  rw [h.entries] at he
  exact Stores.entries_eq_some.mp he

theorem Agrees.active (h : Agrees c s) {row : Document} (hrow : s.row d = some row)
    (hlive : 0 < row.chunk_count) : row.status = .active := by
  have := h.describes.statuses d row hrow
  rwa [if_pos hlive] at this

theorem Agrees.has_iff (h : Agrees c s) {e : Entry} :
    c.Has env x d e ↔ ∃ row, s.row d = some row ∧ SameContent env x row ∧ row.entry = e := by
  constructor
  · rintro ⟨he, hown, hhash, hlive⟩
    obtain ⟨row, hrow, rfl⟩ := h.row_of_entry he
    exact ⟨row, hrow, ⟨hown, hlive, hhash⟩, rfl⟩
  · rintro ⟨row, hrow, ⟨hown, hlive, hhash⟩, rfl⟩
    exact ⟨h.entry_of_row hrow, hown, hhash, hlive⟩

theorem contentMatches_congr {T B h : String} (hs : s'.stores = s.stores) :
    contentMatches s' T B h d = contentMatches s T B h d := by
  unfold contentMatches
  rw [show s'.documents = s.documents from congrArg Stores.documents hs]

theorem Agrees.has_of_match (h : Agrees c s) {row : Document}
    (hrow : row ∈ contentMatches s x.tenant_id x.bot_id (incomingHash env x.body) d) :
    s.row row.doc_id = some row ∧ c.Has env x row.doc_id row.entry := by
  obtain ⟨hmem, hown, hhash, -, hlive, -⟩ := mem_contentMatches.mp hrow
  have hfind : s.row row.doc_id = some row := Table.find?_of_mem hmem
  exact ⟨hfind, h.has_iff.mpr ⟨row, hfind, ⟨hown, hlive, hhash⟩, rfl⟩⟩

theorem Agrees.match_of_has (h : Agrees c s) (hno : ∀ e, ¬ c.Has env x x.doc_id e) {e : Entry}
    (he : c.Has env x d e) : ∃ row ∈ contentMatches s x.tenant_id x.bot_id
      (incomingHash env x.body) x.doc_id, row.entry = e := by
  obtain ⟨row, hrow, ⟨hown, hlive, hhash⟩, rfl⟩ := h.has_iff.mp he
  refine ⟨row, mem_contentMatches.mpr ⟨Table.mem_of_find? hrow, hown, hhash,
    h.active hrow hlive, hlive, fun hd => ?_⟩, rfl⟩
  rw [← World.doc_id_of_row hrow, hd] at he
  exact hno _ he

/-! ## Deletes -/

theorem returns_documentFirst :
    Returns (exec env i) .none (call (.documentFirst d)) s (s.row d) s := returns_serve rfl

theorem Agrees.erase {w : Write} {row : Document} {now : Timestamp} (h : Agrees c s)
    (henv : env.DistinctIds W) (hw : w ∈ W) (hn : Named env W s.stores)
    (hrow : s.row w.doc_id = some row) (hown : row.owner = w.pair)
    (hs : s'.stores = (s.stores.clear w.collection w.doc_id).erase row now)
    (hstays : s.Stays s') :
    Agrees (c.put w.doc_id { row.entry with chunk_count := 0 }) s' where
  pairs := by rw [World.pairs, hstays.bots]; exact h.pairs
  entries := by
    have hrow' : (s.stores.clear w.collection w.doc_id).row w.doc_id = some row := hrow
    rw [hs, Stores.entries_erase hrow', Catalog.put, h.entries]
    rfl
  settled := by
    rw [hs]
    exact settled_erased henv hw hn h.settled hrow hown
  conforms := hstays.conforms h.conforms

/-- What a delete does under its lock. -/
theorem Agrees.delete {x : Delete} (h : Agrees c s) (henv : env.DistinctIds W)
    (hx : .delete x ∈ W) (hn : Named env W s.stores)
    (hk : ∃ k, advisoryLockKey env.sha256 x.tenant_id x.bot_id x.doc_id = .ok k) :
    ∃ r s' c', Stops (exec env i) .none (DeletePipeline.locked env x) s r s' ∧
      c.Deletes env x r c' ∧ Agrees c' s' := by
  by_cases hown : ∃ row, s.row x.doc_id = some row ∧ row.owner = x.pair
  · obtain ⟨row, hrow, hown⟩ := hown
    obtain ⟨hT, hB, -⟩ := advisoryLockKey_isOk.mp hk
    obtain ⟨s₁, hdelete, hs₁, hstays₁, -⟩ := returns_deletePoints env i s x.doc_id
      (collectionName_eq_ok.mpr ⟨hT, hB, rfl⟩)
    have hmine : ownDocument x (some row) = .ok row := by
      obtain ⟨hT', hB'⟩ := Prod.mk.inj hown
      simp [ownDocument, hT', hB']
    have hrow₁ : s₁.row row.doc_id = some row := by
      rw [World.doc_id_of_row hrow]
      exact (congrArg (Stores.row · x.doc_id) hs₁).trans hrow
    obtain ⟨s₂, herase, hs₂, hstays₂⟩ := returns_erase env i x.now hrow₁
    rw [hs₁] at hs₂
    have hagrees := h.erase (w := .delete x) henv hx hn hrow hown hs₂ (hstays₁.trans hstays₂)
    have hcount : (s.stores.docPoints (joinName x.tenant_id x.bot_id) x.doc_id).length =
        row.entry.chunk_count := by
      rw [← h.describes.counts _ _ (h.entry_of_row hrow), Entry.collection,
        show row.entry.owner = _ from hown]
      rfl
    have hdeleted : (row.status == .deleted) = (row.entry.chunk_count == 0) := by
      have hst := h.describes.statuses _ _ hrow
      by_cases hlive : 0 < row.chunk_count
      · rw [hst, if_pos hlive]
        exact (beq_eq_false_iff_ne.mpr (Nat.ne_of_gt hlive)).symm
      · rw [hst, if_neg hlive]
        exact (beq_iff_eq.mpr (Nat.eq_zero_of_not_pos hlive)).symm
    rw [hcount] at hdelete
    refine ⟨_, s₂, _, returns_documentFirst.stops_bind ?_,
      .erased hk (h.entry_of_row hrow) hown, hagrees⟩
    rw [hrow, ← hdeleted]
    exact (returns_ofExcept hmine).bind (hdelete.tryCatch.bind (herase.bind returns_pure))
  · obtain ⟨e, he⟩ : ∃ e, ownDocument.notFound x = .error e := ⟨_, rfl⟩
    have hnot : ∀ row ∈ s.row x.doc_id, row.owner ≠ x.pair :=
      fun row hrow ho => hown ⟨row, hrow, ho⟩
    have hstops : Stops (exec env i) .none (ofExcept (ownDocument x (s.row x.doc_id))) s
        (.error e) s := by
      rw [ownDocument_notOwn hnot, he]
      exact stops_throw
    refine ⟨.error e, s, c, returns_documentFirst.stops_bind hstops.bind_error,
      .unknown hk (fun e' he' ho => ?_) he, h⟩
    obtain ⟨row, hrow, rfl⟩ := h.row_of_entry he'
    exact hnot row hrow ho

/-! ## Uploads -/

variable (env i) in
/-- A bot whose collection is another pair's is not made. -/
theorem stops_getOrCreateBot {tenant : Tenant} {T B : String} (htenant : tenant.tenant_id = T)
    (hT : slugMatch T = true) (hB : slugMatch B = true) (hno : (T, B) ∉ s.pairs)
    (htaken : ∃ p ∈ s.pairs, joinName p.1 p.2 = joinName T B) :
    Stops (exec env i) .none (getOrCreateBot tenant B) s (.error (.doesNotExist "Bot")) s := by
  subst htenant
  have hfind : s.bots.find? (tenant.tenant_id, B) = none := by
    rw [Table.find?_eq_none]
    exact fun b hb hp => hno ⟨b, hb, hp⟩
  obtain ⟨bot, hsave, hname⟩ := exists_save hT hB B
  have hclash : ∃ b ∈ s.bots.rows, b.collection_name = bot.collection_name := by
    obtain ⟨_, ⟨b, hb, rfl⟩, hp⟩ := htaken
    exact ⟨b, hb, b.collection_name_eq.trans (hp.trans hname.symm)⟩
  have hcreate : exec env i (.botGetOrCreate tenant.tenant_id B B) .none s =
      (.error (.integrityError "duplicate key value violates unique constraint"), s) := by
    simp only [exec, Op.isLock, Op.isLocal, serve, hfind, hsave]
    rw [dif_pos hclash]
    rfl
  have hget : exec env i (.botGet tenant.tenant_id B) .none s =
      (.error (.doesNotExist "Bot"), s) := by
    simp only [exec, Op.isLock, Op.isLocal, serve, hfind]
    rfl
  exact (stops_perform hcreate).tryCatch_error (stops_perform hget)

variable (env i) in
/-- A row with the content of the upload is refreshed. -/
theorem Agrees.refreshed {row : Document} {n : String} (h : Agrees c s)
    (hname : collectionName x.tenant_id x.bot_id = .ok n) (hrow : s.row d = some row) :
    ∃ s', Returns (exec env i) .none (refresh x row) s
        ⟨d, row.chunk_count, row.item_count, n, .noChange⟩ s' ∧ Agrees c s' := by
  obtain rfl := World.doc_id_of_row hrow
  obtain ⟨s', hrefresh, hs', hstays⟩ := returns_refresh env i hrow hname
  refine ⟨s', hrefresh, ?_, ?_, ?_, hstays.conforms h.conforms⟩
  · rw [World.pairs, hstays.bots]
    exact h.pairs
  · rw [hs', Stores.entries_refresh]
    exact h.entries
  · rw [hs']
    exact settled_refreshed h.settled

theorem Agrees.written {bot : Bot} (h : Agrees c s) (henv : env.DistinctIds W)
    (hw : .upload x ∈ W) (hn : Named env W s.stores) (hx : c.Admits env x)
    (hbot : bot.pair = x.pair)
    (hlen : 1 ≤ (x.points env).length ∧ (x.points env).length ≤ maxChunksPerDoc)
    (hs : s'.stores = x.written env bot s.stores) (hstays : s.Stays s') :
    Agrees (c.put x.doc_id (c.written env x)) s' where
  pairs := by rw [World.pairs, hstays.bots]; exact h.pairs
  entries := by
    rw [hs, Stores.entries_written, Catalog.put, Catalog.written, h.entries]
  settled := by
    rw [hs]
    exact settled_written henv hw hn h.settled hbot
      (fun row hrow => hx.owner _ (h.entry_of_row hrow)) hlen
  conforms := hstays.conforms h.conforms

theorem Upload.collection_of_name (h : collectionName x.tenant_id x.bot_id = .ok n) :
    x.collection = n := (collectionName_eq_ok.mp h).2.2

/-- An upload whose content is not there yet is indexed, or refused for its content. -/
theorem Agrees.index {bot : Bot} (h : Agrees (c.enroll x.pair) s) (henv : env.DistinctIds W)
    (hw : .upload x ∈ W) (hn : Named env W s.stores) (hx : c.Admits env x)
    (hbot : bot.pair = x.pair) (hfits : x.Fits env)
    (hname : collectionName x.tenant_id x.bot_id = .ok n)
    (hnew : ∀ d e, ¬ c.Has env x d e) :
    ∃ r s' c', Stops (exec env i) .none (indexDocument env x bot (s.row x.doc_id).isSome) s r s' ∧
      c.Uploads env x r c' ∧ Agrees c' s' := by
  cases he : x.refusal env with
  | some e =>
    obtain ⟨s', hstops, hs', hstays⟩ := stops_indexDocument env i bot
      (s.row x.doc_id).isSome hname h.conforms he
    exact ⟨_, s', _, hstops, .unusable hx hnew he, h.congr hs' hstays⟩
  | none =>
    obtain ⟨s', hindex, hs', hstays⟩ := returns_indexDocument env i bot hname h.conforms he
      hfits
    have hrow : (s.row x.doc_id).isSome = (c.entries x.doc_id).isSome := by
      have hentry : c.entries x.doc_id = s.stores.entries x.doc_id :=
        congrFun (show c.entries = _ from h.entries) _
      rw [hentry, Stores.entries, Option.isSome_map]
      rfl
    rw [hrow, ← Upload.collection_of_name hname] at hindex
    refine ⟨_, s', _, ?_, .indexed hx hnew he, ?_⟩
    · rw [hrow]
      exact hindex
    · exact h.written henv hw hn ⟨hx.key, .inl (Set.mem_insert _ _), hx.owner⟩ hbot
        (Upload.length_of_refusal he) hs' hstays

/-- The owner of the row under the upload's id has been checked. -/
theorem checkOwner_own {existing : Option Document}
    (h : ∀ row ∈ existing, row.owner = x.pair) : checkOwner x existing = .pure () := by
  cases existing with
  | none => rfl
  | some row =>
    obtain ⟨hT, hB⟩ := Prod.mk.inj (h row rfl)
    exact if_neg (by simp [hT, hB])

/-- What follows the check of the owner. -/
def UploadPipeline.owned (env : Env) (x : Upload) (bot : Bot) (existing : Option Document) :
    Program UploadResult := do
  match sameContent existing (incomingHash env x.body) with
  | some row => refresh x row
  | none => do
    let content_match : Option Document ←
      call (.documentMatch x.tenant_id x.bot_id (incomingHash env x.body) x.doc_id)
    match content_match with
    | some row => refresh x row
    | none => indexDocument env x bot existing.isSome

theorem UploadPipeline.locked_eq : UploadPipeline.locked env x = (do
    let tenant ← getOrCreateTenant x.tenant_id
    let bot ← getOrCreateBot tenant x.bot_id
    let existing : Option Document ← call (.documentFirst x.doc_id)
    checkOwner x existing
    UploadPipeline.owned env x bot existing) := rfl

section Upload
variable {bot : Bot} {row : Document}

/-- An upload whose own document has the content refreshes it. -/
theorem Agrees.same (h : Agrees (c.enroll x.pair) s) (hx : c.Admits env x)
    (hname : collectionName x.tenant_id x.bot_id = .ok x.collection)
    (hsame : sameContent (s.row x.doc_id) (incomingHash env x.body) = some row) :
    ∃ r s' c', Stops (exec env i) .none (UploadPipeline.owned env x bot (s.row x.doc_id)) s r s' ∧
      c.Uploads env x r c' ∧ Agrees c' s' := by
  obtain ⟨hrow, hlive, hhash⟩ := sameContent_eq_some.mp hsame
  have hown : row.owner = x.pair := hx.owner _ (h.entry_of_row hrow)
  obtain ⟨s', hrefresh, h'⟩ := h.refreshed env i hname hrow
  have hhas : c.Has env x x.doc_id row.entry :=
    Catalog.has_enroll.mp (h.has_iff.mpr ⟨row, hrow, ⟨hown, hlive, hhash⟩, rfl⟩)
  refine ⟨_, s', _, ?_, .same hx hhas, h'⟩
  rw [UploadPipeline.owned, hsame]
  exact hrefresh.stops

/-- An upload whose content a document of the pair has, but not its own, refreshes the newest. -/
theorem Agrees.duplicate (h : Agrees (c.enroll x.pair) s) (hx : c.Admits env x)
    (hname : collectionName x.tenant_id x.bot_id = .ok x.collection)
    (hsame : sameContent (s.row x.doc_id) (incomingHash env x.body) = none)
    (hown : ∀ e, ¬ c.Has env x x.doc_id e)
    (hfound : (contentMatches s x.tenant_id x.bot_id (incomingHash env x.body) x.doc_id).argmax
      Document.uploaded_at = some row) :
    ∃ r s' c', Stops (exec env i) .none (UploadPipeline.owned env x bot (s.row x.doc_id)) s r s' ∧
      c.Uploads env x r c' ∧ Agrees c' s' := by
  obtain ⟨hrow, hhas⟩ := h.has_of_match (List.argmax_mem hfound)
  obtain ⟨s', hrefresh, h'⟩ := h.refreshed env i hname hrow
  refine ⟨_, s', _, ?_, .duplicate hx hown (Catalog.has_enroll.mp hhas) fun d' e' he' => ?_, h'⟩
  · have hmatch : Returns (exec env i) .none
        (call (.documentMatch x.tenant_id x.bot_id (incomingHash env x.body) x.doc_id)) s
        (some row) s := returns_serve (by rw [serve, hfound])
    rw [UploadPipeline.owned, hsame]
    exact hmatch.stops_bind hrefresh.stops
  · obtain ⟨row', hrow', rfl⟩ := h.match_of_has (fun e he => hown e (Catalog.has_enroll.mp he))
      (Catalog.has_enroll.mpr he')
    have hle : row'.uploaded_at ≤ row.uploaded_at := List.le_of_mem_argmax hrow' hfound
    exact hle

/-- An upload whose owner has been checked refreshes a document that has its content, or is
indexed. -/
theorem Agrees.owned (h : Agrees (c.enroll x.pair) s) (henv : env.DistinctIds W)
    (hw : .upload x ∈ W) (hn : Named env W s.stores) (hx : c.Admits env x)
    (hbot : bot.pair = x.pair) (hfits : x.Fits env)
    (hname : collectionName x.tenant_id x.bot_id = .ok x.collection) :
    ∃ r s' c', Stops (exec env i) .none (UploadPipeline.owned env x bot (s.row x.doc_id)) s r s' ∧
      c.Uploads env x r c' ∧ Agrees c' s' := by
  cases hsame : sameContent (s.row x.doc_id) (incomingHash env x.body) with
  | some row => exact h.same hx hname hsame
  | none =>
    have hown (e : Entry) : ¬ c.Has env x x.doc_id e := by
      intro he
      obtain ⟨row, hrow, hrsame, -⟩ := h.has_iff.mp (Catalog.has_enroll.mpr he)
      have := sameContent_eq_some.mpr ⟨hrow, hrsame.indexed, hrsame.content_hash⟩
      rw [hsame] at this
      cases this
    cases hfound : (contentMatches s x.tenant_id x.bot_id (incomingHash env x.body)
        x.doc_id).argmax Document.uploaded_at with
    | some row => exact h.duplicate hx hname hsame hown hfound
    | none =>
      have hnew (d : String) (e : Entry) : ¬ c.Has env x d e := by
        intro he
        obtain ⟨row, hrow, -⟩ := h.match_of_has (fun e he => hown e (Catalog.has_enroll.mp he))
          (Catalog.has_enroll.mpr he)
        rw [List.argmax_eq_none.mp hfound] at hrow
        cases hrow
      obtain ⟨r, s', c', hindex, hc', h'⟩ := h.index (i := i) henv hw hn hx hbot hfits hname hnew
      refine ⟨r, s', c', ?_, hc', h'⟩
      have hmatch : Returns (exec env i) .none
          (call (.documentMatch x.tenant_id x.bot_id (incomingHash env x.body) x.doc_id)) s
          none s := returns_serve (by rw [serve, hfound])
      rw [UploadPipeline.owned, hsame]
      exact hmatch.stops_bind hindex

/-- An upload whose collection is another pair's is refused. -/
theorem Agrees.taken (h : Agrees c s)
    (hk : ∃ k, advisoryLockKey env.sha256 x.tenant_id x.bot_id x.doc_id = .ok k)
    (hclosed : ¬ c.Open x.pair) :
    ∃ r s' c', Stops (exec env i) .none (UploadPipeline.locked env x) s r s' ∧
      c.Uploads env x r c' ∧ Agrees c' s' := by
  obtain ⟨hT, hB, -⟩ := advisoryLockKey_isOk.mp hk
  obtain ⟨tenant, tenants, htenant, hgot⟩ : ∃ t tenants, t.tenant_id = x.tenant_id ∧
      Returns (exec env i) .none (getOrCreateTenant x.tenant_id) s t
        { s with tenants := tenants } := returns_getOrCreateTenant
  obtain ⟨hno, htaken⟩ := not_or.mp hclosed
  push Not at htaken
  rw [h.pairs] at hno htaken
  have hbot : Stops (exec env i) .none (getOrCreateBot tenant x.bot_id)
      { s with tenants := tenants } (.error (.doesNotExist "Bot"))
      { s with tenants := tenants } := stops_getOrCreateBot env i htenant hT hB hno htaken
  exact ⟨_, { s with tenants := tenants }, c, hgot.stops_bind hbot.bind_error,
    .taken hk hclosed, h.congr rfl (.of_collections rfl rfl)⟩

/-- What an upload does under its lock. -/
theorem Agrees.upload (h : Agrees c s) (henv : env.DistinctIds W) (hw : .upload x ∈ W)
    (hn : Named env W s.stores)
    (hk : ∃ k, advisoryLockKey env.sha256 x.tenant_id x.bot_id x.doc_id = .ok k)
    (hfits : x.Fits env) :
    ∃ r s' c', Stops (exec env i) .none (UploadPipeline.locked env x) s r s' ∧
      c.Uploads env x r c' ∧ Agrees c' s' := by
  obtain ⟨hT, hB, -⟩ := advisoryLockKey_isOk.mp hk
  by_cases hopen : c.Open x.pair
  swap
  · exact h.taken hk hopen
  obtain ⟨tenant, s₁, bot, s₂, htenant, hgot, hbot, henrolled⟩ :=
    returns_enter (s := s) env i hT hB (h.pairs ▸ hopen)
  have h₂ := h.enroll henrolled
  have hstart {r : Except Exc UploadResult} {s' : World}
      (hrest : Stops (exec env i) .none
        (checkOwner x (s₂.row x.doc_id) >>= fun _ =>
          UploadPipeline.owned env x bot (s₂.row x.doc_id)) s₂ r s') :
      Stops (exec env i) .none (UploadPipeline.locked env x) s r s' := by
    rw [UploadPipeline.locked_eq]
    exact htenant.stops_bind (hgot.stops_bind (returns_documentFirst.stops_bind hrest))
  by_cases hforeign : ∃ row, s₂.row x.doc_id = some row ∧ row.owner ≠ x.pair
  · -- the row under its id is another pair's
    obtain ⟨row, hrow, hne⟩ := hforeign
    refine ⟨_, s₂, _, hstart ?_, .collides hk hopen (h₂.entry_of_row hrow) hne, h₂⟩
    rw [hrow, checkOwner_foreign hne]
    exact Stops.bind_error stops_throw
  push Not at hforeign
  have hx : c.Admits env x := ⟨hk, hopen, fun e he => by
    obtain ⟨row, hrow, rfl⟩ := h₂.row_of_entry he
    exact hforeign row hrow⟩
  obtain ⟨r, s', c', hrest, hc', h'⟩ := h₂.owned (i := i) henv hw (henrolled.stores ▸ hn) hx hbot
    hfits (collectionName_eq_ok.mpr ⟨hT, hB, rfl⟩)
  refine ⟨r, s', c', hstart ?_, hc', h'⟩
  rw [checkOwner_own hforeign]
  exact hrest

end Upload

/-! ## Requests and runs -/

/-- A body that keeps the two together does so under the lock. -/
theorem Agrees.uploadLock {α : Type} {T B : String} {polls : Nat} {body : Program α} {k : LockKey}
    {P : Except Exc α → Catalog → Prop} (h : Agrees c s) (hfree : s.Unlocked)
    (hk : advisoryLockKey env.sha256 T B d = .ok k)
    (hbody : ∀ s₀ : World, s₀.stores = s.stores → Agrees c s₀ → ∃ r s' c',
      Stops (exec env i) .none body s₀ r s' ∧ P r c' ∧ Agrees c' s') :
    ∃ r s' c', Stops (exec env i) .none (uploadLock env T B d polls body) s r s' ∧ P r c' ∧
      Agrees c' s' := by
  obtain ⟨locks, hlock⟩ := stops_uploadLock env i polls body hk
    fun j hj => by rw [hfree k] at hj; cases hj
  obtain ⟨r, s₁, c', hstops, hP, h'⟩ := hbody { s with locks := locks } rfl
    (h.congr rfl (.of_collections rfl rfl))
  obtain ⟨s', hstops', hs', hstays⟩ := hlock r s₁ hstops
  exact ⟨r, s', c', hstops', hP, h'.congr hs' hstays⟩

theorem stops_uploadLock_refused {α : Type} {T B : String} {polls : Nat} {body : Program α}
    {e : Exc} (he : advisoryLockKey env.sha256 T B d = .error e) :
    Stops (exec env i) .none (QdrantRag.uploadLock env T B d polls body) s (.error e) s := by
  unfold QdrantRag.uploadLock
  rw [he]
  exact Stops.bind_error stops_throw

/-- The upload's row fits its columns. -/
def Request.Fits (env : Env) (q : Request) : Prop :=
  ∀ x, q = .write (.upload x) → x.Fits env

/-- What a writing request does, and the catalog. -/
theorem Tracks.write (h : Tracks env W c s) (henv : env.DistinctIds W) (w : Write) (hw : w ∈ W)
    (hfits : (Request.write w).Fits env) :
    ∃ r s' c', Stops (exec env i) .none (w.program env) s r s' ∧ c.Step env (.write w) r c' ∧
      Agrees c' s' := by
  cases w with
  | upload x =>
    obtain ⟨r, s', c', hstops, hc', h'⟩ : ∃ r s' c',
        Stops (exec env i) .none (UploadPipeline.execute env x) s r s' ∧ c.Uploads env x r c' ∧
        Agrees c' s' := by
      cases hk : advisoryLockKey env.sha256 x.tenant_id x.bot_id x.doc_id with
      | error e => exact ⟨_, s, c, stops_uploadLock_refused hk, .refused hk, h.toAgrees⟩
      | ok k =>
        exact h.toAgrees.uploadLock h.unlocked hk fun s₀ hs₀ h₀ =>
          h₀.upload henv hw (hs₀ ▸ h.named) ⟨k, hk⟩ (hfits x rfl)
    exact ⟨_, s', c', hstops.map Reply.upload, .upload hc', h'⟩
  | delete x =>
    obtain ⟨r, s', c', hstops, hc', h'⟩ : ∃ r s' c',
        Stops (exec env i) .none (DeletePipeline.execute env x) s r s' ∧ c.Deletes env x r c' ∧
        Agrees c' s' := by
      cases hk : advisoryLockKey env.sha256 x.tenant_id x.bot_id x.doc_id with
      | error e => exact ⟨_, s, c, stops_uploadLock_refused hk, .refused hk, h.toAgrees⟩
      | ok k =>
        exact h.toAgrees.uploadLock h.unlocked hk fun s₀ hs₀ h₀ =>
          h₀.delete henv hw (hs₀ ▸ h.named) ⟨k, hk⟩
    exact ⟨_, s', c', hstops.map Reply.delete, .delete hc', h'⟩

/-- The chunks a search returns are those of live documents. -/
theorem Agrees.serves (h : Agrees c s) {x : Search} {chunk : Payload × Rat} {pt : Point}
    (hpt : pt ∈ (s.points (joinName x.tenant_id x.bot_id)).rows) (he : pt.payload = chunk.1) :
    ∃ e, c.Serves x chunk e := by
  obtain ⟨row, hrow, hown, hhash, hn⟩ := (h.settled _).points _ pt hpt rfl
  have hcount := ((h.settled _).row row hrow).1
  have hmem : pt ∈ s.stores.docPoints row.collection pt.payload.doc_id :=
    mem_docPoints.mpr ⟨hn ▸ hpt, rfl⟩
  rw [he] at hrow hown hhash
  refine ⟨row.entry, h.entry_of_row hrow, hown.symm, hhash.symm, ?_, hn.symm⟩
  exact Nat.lt_of_lt_of_eq (List.length_pos_of_mem hmem) hcount

/-- **A request that is served** does what the catalog allows, and keeps the two together. -/
theorem Tracks.job (h : Tracks env W c s) (henv : env.DistinctIds W) {job : Job}
    (hw : ∀ w, job.request = .write w → w ∈ W) (hserved : job.FaultFree)
    (hfits : job.request.Fits env) :
    ∃ c', c.Step env job.request (job.run env s).reply c' ∧
      Tracks env W c' (job.run env s).state := by
  have hnamed : Named env W (job.run env s).state.stores := job.named hw h.named
  have hunlocked : (job.run env s).state.Unlocked := job.unlocked h.unlocked
  obtain ⟨request, session, faults⟩ := job
  obtain rfl : faults = fun _ => .none := funext hserved
  cases request with
  | write w =>
    obtain ⟨r, s', c', ⟨hreply, hstate⟩, hc', h'⟩ := h.write (i := session) henv w (hw w rfl) hfits
    refine ⟨c', ?_, ?_, hnamed, hunlocked⟩
    · exact hreply.symm ▸ hc'
    · exact hstate.symm ▸ h'
  | search x =>
    obtain ⟨φ, hsearching, hchunks⟩ := searching_run env session s x fun _ => .none
    have hsame : (Job.run env ⟨.search x, session, fun _ => .none⟩ s).state = s :=
      Only.run_state (· = s) (fun _ _ _ ho hs => (exec_searches ho).trans hs)
        ((only_search x).bind fun _ => trivial) rfl
    refine ⟨c, .search fun a ha chunk hchunk => ?_, ?_, hnamed, hunlocked⟩
    · obtain ⟨pt, hpt, he⟩ := hsearching.chunks _ (hchunks a ha) chunk hchunk
      exact h.serves hpt he
    · rw [hsame]
      exact h.toAgrees

/-- The requests in turn, each with its reply. -/
def World.replies (env : Env) : List Job → World → List (Request × Except Exc Reply)
  | [], _ => []
  | job :: jobs, s =>
    (job.request, (job.run env s).reply) :: World.replies env jobs (job.run env s).state

theorem Tracks.run (h : Tracks env W c s) (henv : env.DistinctIds W) (jobs : List Job)
    (hW : writes jobs ⊆ W) (hserved : ∀ job ∈ jobs, job.FaultFree)
    (hfits : ∀ job ∈ jobs, job.request.Fits env) :
    ∃ c', Catalog.Run env c (World.replies env jobs s) c' ∧
      Tracks env W c' (World.after env jobs s) := by
  induction jobs generalizing c s with
  | nil => exact ⟨c, .nil, h⟩
  | cons job jobs ih =>
    obtain ⟨hw, hW⟩ := writes_cons_subset_iff.mp hW
    obtain ⟨c₁, hstep, h₁⟩ := h.job henv hw (hserved job List.mem_cons_self)
      (hfits job List.mem_cons_self)
    obtain ⟨c', hrun, h'⟩ := ih h₁ hW (fun job hjob => hserved job (List.mem_cons_of_mem _ hjob))
      fun job hjob => hfits job (List.mem_cons_of_mem _ hjob)
    exact ⟨c', .cons hstep hrun, h'⟩

/-- **The service refines the catalog.** Requests that are served, one after the other from the
empty stores, reply what a run of the catalog allows, as long as the rows of uploads fit their
columns, and leave the rows, points and bots that it describes. -/
theorem catalog_refined (env : Env) (jobs : List Job) (henv : env.DistinctIds (writes jobs))
    (hserved : ∀ job ∈ jobs, job.FaultFree) (hfits : ∀ job ∈ jobs, job.request.Fits env) :
    ∃ c, Catalog.Run env .empty (World.replies env jobs .empty) c ∧
      c.Describes (World.after env jobs .empty) := by
  obtain ⟨c, hrun, h⟩ := Tracks.empty.run henv jobs subset_rfl hserved hfits
  exact ⟨c, hrun, h.describes⟩

namespace Sample

/-- A document is uploaded, then the same content under another id; the first is deleted, and a
search is made. -/
def day : List Job := [uploading (upload acme docA "h1" ["Hello"]),
  uploading (upload acme docB "h1" ["Hello"]), deleting (delete acme docA),
  ⟨.search (search acme "Hello"), 0, served⟩]

theorem day_served : ∀ job ∈ day, job.FaultFree := by
  simp [day, uploading, deleting, Job.FaultFree, served]

/-- A body of one short item fits. -/
theorem fits_upload {doc_id : String} : (upload acme doc_id "h1" ["Hello"]).Fits Sample.env := by
  have hlen : (flatChunks Sample.env (body "h1" ["Hello"])).length = 1 := by decide +kernel
  have hhash : (incomingHash Sample.env (body "h1" ["Hello"])).length ≤ 80 := by decide +kernel
  intro bot
  rw [Upload.length_points]
  refine DocumentDefaults.check_eq_ok.mpr ⟨rfl, show "acme".length ≤ 40 by decide,
    show "support".length ≤ 40 by decide, show "text".length ≤ 20 by decide, ?_, hhash, ?_,
    show 1 ≤ maxInt32 by decide⟩
  · rintro _ ⟨⟩
  · exact hlen.trans_le (by decide)

theorem day_fits : ∀ job ∈ day, job.request.Fits Sample.env := by
  intro job hjob x hx
  simp only [day, List.mem_cons, List.not_mem_nil, or_false] at hjob
  rcases hjob with rfl | rfl | rfl | rfl <;> cases hx <;> exact fits_upload

end Sample

theorem catalog_refined_day : ∃ c,
    Catalog.Run Sample.env .empty (World.replies Sample.env Sample.day .empty) c ∧
      c.Describes (World.after Sample.env Sample.day .empty) :=
  catalog_refined Sample.env Sample.day Sample.env_distinctIds Sample.day_served Sample.day_fits

/-! ## Repeated uploads -/

theorem World.fst_mem_replies {jobs : List Job} {a : Request × Except Exc Reply}
    (ha : a ∈ World.replies env jobs s) : ∃ job ∈ jobs, a.1 = job.request := by
  induction jobs generalizing s with
  | nil => cases ha
  | cons job jobs ih =>
    rcases List.mem_cons.mp ha with rfl | ha
    · exact ⟨job, List.mem_cons_self, rfl⟩
    · obtain ⟨job', hjob, he⟩ := ih ha
      exact ⟨job', List.mem_cons_of_mem _ hjob, he⟩

theorem Catalog.Step.upload_inv {rep : Except Exc Reply}
    (h : c.Step env (.write (.upload x)) rep c') :
    ∃ r, rep = r.map .upload ∧ c.Uploads env x r c' := by
  cases h with
  | upload h => exact ⟨_, rfl, h⟩

/-- **An upload may be sent again.** Where all requests are served, one after the other from the
empty stores, and the rows of uploads fit their columns: where an upload has succeeded, and no
request since has deleted the document it was answered with, given that document other content or
given its id to another pair, the same upload is answered with that document again, which only gets
a new time of refresh. -/
theorem upload_repeatable (env : Env) (jobs between : List Job) (x : Upload)
    (henv : env.DistinctIds (insert (.upload x) (writes (jobs ++ between))))
    (session session' : Nat) (r : UploadResult)
    (hserved : ∀ job ∈ jobs ++ between, job.FaultFree)
    (hfits : ∀ job ∈ jobs ++ between, job.request.Fits env) (hx : x.Fits env)
    (hr : (x.run env session (fun _ => .none) (World.after env jobs .empty)).reply =
      .ok (.upload r))
    (hspares : ∀ job ∈ between, job.request.Spares env x r.doc_id) :
    let s := World.after env between
      (x.run env session (fun _ => .none) (World.after env jobs .empty)).state
    (x.run env session' (fun _ => .none) s).reply = .ok (.upload { r with status := .noChange }) ∧
      ∃ row, s.row r.doc_id = some row ∧
        (x.run env session' (fun _ => .none) s).state.stores = s.stores.refresh row x.now := by
  intro s
  have hjob (n : Nat) : (⟨.write (.upload x), n, fun _ => .none⟩ : Job).FaultFree := fun _ => rfl
  have hfit : (Request.write (.upload x)).Fits env := by
    rintro _ ⟨⟩
    exact hx
  obtain ⟨hjobs, hbetween⟩ := writes_append_subset_iff.mp
    (Set.subset_insert (Write.upload x) (writes (jobs ++ between)))
  have hw : ∀ w, Request.write (.upload x) = .write w →
      w ∈ insert (.upload x) (writes (jobs ++ between)) := by
    rintro _ ⟨⟩
    exact Set.mem_insert _ _
  obtain ⟨c₁, hrun₁, h₁⟩ := Tracks.empty.run henv jobs hjobs
    (fun job hjob => hserved job (List.mem_append_left _ hjob))
    fun job hjob => hfits job (List.mem_append_left _ hjob)
  -- the upload leaves its content where it says
  obtain ⟨c₂, hstep₂, h₂⟩ := h₁.job henv hw (hjob session) hfit
  obtain ⟨rep, hrep, hup⟩ := hstep₂.upload_inv
  have hrep : Except.ok (Reply.upload r) = rep.map .upload := hr.symm.trans hrep
  cases rep with
  | error e => cases hrep
  | ok a =>
  obtain rfl : r = a := by
    cases hrep
    rfl
  obtain ⟨hk, e, hretains, ha⟩ := hup.retains (hrun₁.unique .empty)
  -- where it stays
  obtain ⟨c₃, hrun₃, h₃⟩ := h₂.run henv between hbetween
    (fun job hjob => hserved job (List.mem_append_right _ hjob))
    fun job hjob => hfits job (List.mem_append_right _ hjob)
  have hretains₃ := hretains.run hrun₃ fun a ha => by
    obtain ⟨job, hjob, he⟩ := World.fst_mem_replies ha
    rw [he]
    exact hspares job hjob
  -- and is found
  obtain ⟨c₄, hstep₄, -⟩ := h₃.job henv hw (hjob session') hfit
  obtain ⟨rep, hrep', hup'⟩ := hstep₄.upload_inv
  obtain ⟨rfl, -⟩ := hretains₃.uploads hk hup'
  have hreply : (x.run env session' (fun _ => .none) s).reply = .ok (.upload
      ⟨r.doc_id, e.chunk_count, e.item_count, x.collection, .noChange⟩) := hrep'
  refine ⟨?_, ?_⟩
  · rw [hreply, ha]
  · rcases upload_cases env x session' _ s hreply with ⟨row, hknown, hstores, he⟩ |
      ⟨bot, -, -, -, -, -, -, he⟩
    · have hd : r.doc_id = row.doc_id := congrArg UploadResult.doc_id he
      exact ⟨row, hd ▸ hknown.found, hstores⟩
    · have hst : UploadStatus.noChange = _ := congrArg UploadResult.status he
      split at hst <;> cases hst

namespace Sample

def sent : Upload := upload acme docA "h1" ["Hello"]

/-- The same content is uploaded under another id, which is then deleted. -/
def meanwhile : List Job :=
  [uploading (upload acme docB "h1" ["Hello"]), deleting (delete acme docB)]

end Sample

theorem upload_repeatable_hello : ∃ r,
    (Sample.sent.run Sample.env 0 (fun _ => .none) World.empty).reply = .ok (.upload r) ∧
      (Sample.sent.run Sample.env 1 (fun _ => .none) (World.after Sample.env Sample.meanwhile
        (Sample.sent.run Sample.env 0 (fun _ => .none) World.empty).state)).reply =
          .ok (.upload { r with status := .noChange }) := by
  obtain ⟨r, hr, hd⟩ : ∃ r, (Sample.sent.run Sample.env 0 (fun _ => .none) World.empty).reply =
      .ok (.upload r) ∧ r.doc_id = Sample.docA := Sample.exists_uploaded (by decide +kernel)
  refine ⟨r, hr, (upload_repeatable Sample.env [] Sample.meanwhile Sample.sent
    Sample.env_distinctIds 0 1 r ?_ ?_ Sample.fits_upload hr ?_).1⟩
  · simp [Sample.meanwhile, Sample.uploading, Sample.deleting, Job.FaultFree, Sample.served]
  · intro job hjob x hx
    simp only [List.nil_append, Sample.meanwhile, List.mem_cons, List.not_mem_nil, or_false] at hjob
    rcases hjob with rfl | rfl <;> cases hx
    exact Sample.fits_upload
  · have hne : Sample.docB ≠ Sample.docA := by decide
    intro job hjob
    rw [hd]
    simp only [Sample.meanwhile, List.mem_cons, List.not_mem_nil, or_false] at hjob
    rcases hjob with rfl | rfl
    · exact ⟨fun h => absurd h hne, fun h => absurd h hne⟩
    · exact fun h => absurd h hne

end QdrantRag
