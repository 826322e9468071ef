import QdrantRag.Verify.Identifiers
import QdrantRag.Verify.Refinement
import QdrantRag.Verify.Replay

/-! # Stored bodies posted again

The row of a document keeps the body that it was uploaded with. Whatever requests have run, however
interleaved, and whatever has failed, that body may be posted again while the document is active: it
is accepted, is taken for the content that it was, and is answered with the document that has it
(`stored_body_found`). -/

namespace QdrantRag
open Keyed Effect Effect.Prog Text

variable {env : Env} {web : Web} {i : Nat} {s : World} {x : Upload} {row : Document} {n : String}

/-! ## Content that is there -/

/-- The newest other document of the pair with the content of the upload. -/
def Upload.duplicate (env : Env) (x : Upload) (s : World) : Option Document :=
  (contentMatches s x.tenant_id x.bot_id (incomingHash env x.body) x.doc_id).argmax
    Document.uploaded_at

/-- Where another document has the content, there is a newest one. -/
theorem Upload.exists_duplicate
    (h : row ∈ contentMatches s x.tenant_id x.bot_id (incomingHash env x.body) x.doc_id) :
    ∃ newest, x.duplicate env s = some newest ∧ newest ∈ contentMatches s x.tenant_id x.bot_id
      (incomingHash env x.body) x.doc_id ∧ ∀ other ∈ contentMatches s x.tenant_id x.bot_id
        (incomingHash env x.body) x.doc_id, other.uploaded_at ≤ newest.uploaded_at := by
  cases hnewest : x.duplicate env s with
  | none =>
    rw [List.argmax_eq_none.mp hnewest] at h
    cases h
  | some newest =>
    exact ⟨newest, rfl, List.argmax_mem hnewest,
      fun _ hother => List.le_of_mem_argmax hother hnewest⟩

variable (env i) in
/-- Under its lock an upload with a new id refreshes the document that has its content. -/
theorem returns_duplicate (hname : collectionName x.tenant_id x.bot_id = .ok n)
    (hpair : x.pair ∈ s.pairs) (hfresh : s.row x.doc_id = none)
    (hrow : x.duplicate env s = some row) :
    ∃ s', Returns (exec env i) .none (UploadPipeline.locked env x) s
        ⟨row.doc_id, row.chunk_count, row.item_count, n, .noChange⟩ s' ∧
      s'.stores = s.stores.refresh row x.now := by
  obtain ⟨hT, hB, -⟩ := collectionName_eq_ok.mp hname
  obtain ⟨tenant, s₁, bot, s₂, htenant, hbot, -, henrolled⟩ :=
    returns_enter (s := s) env i hT hB (.inl hpair)
  have hfresh₂ : s₂.row x.doc_id = none :=
    (congrArg (Stores.row · _) henrolled.stores).trans hfresh
  have hfound : s₂.row row.doc_id = some row := by
    have hmem : row ∈ s.documents.rows := (mem_contentMatches.mp (List.argmax_mem hrow)).1
    exact (congrArg (Stores.row · _) henrolled.stores).trans (Table.find?_of_mem hmem)
  have hmatch : Returns (exec env i) .none
      (call (.documentMatch x.tenant_id x.bot_id (incomingHash env x.body) x.doc_id)) s₂
      (some row) s₂ := by
    refine returns_serve ?_
    rw [serve, contentMatches_congr henrolled.stores]
    exact congrArg (fun found => Except.ok (found, s₂)) hrow
  obtain ⟨s', hrefresh, hs', -⟩ := returns_refresh env i hfound hname
  refine ⟨s', htenant.bind (hbot.bind (returns_documentFirst.bind ?_)), ?_⟩
  · rw [hfresh₂]
    exact returns_pure.bind (hmatch.bind hrefresh)
  · rw [hs', henrolled.stores]

/-- Such an upload is answered with that document, which gets a new time of refresh. -/
theorem Upload.run_duplicate {k : LockKey} (session : Nat)
    (hk : advisoryLockKey env.sha256 x.tenant_id x.bot_id x.doc_id = .ok k)
    (hfree : s.holder k = none) (hpair : x.pair ∈ s.pairs) (hfresh : s.row x.doc_id = none)
    (hrow : x.duplicate env s = some row) :
    (x.run env session (fun _ => .none) s).reply =
        .ok (.upload ⟨row.doc_id, row.chunk_count, row.item_count, x.collection, .noChange⟩) ∧
      (x.run env session (fun _ => .none) s).state.stores = s.stores.refresh row x.now := by
  obtain ⟨hT, hB, -⟩ := advisoryLockKey_isOk.mp ⟨k, hk⟩
  have hname : collectionName x.tenant_id x.bot_id = .ok x.collection :=
    collectionName_eq_ok.mpr ⟨hT, hB, rfl⟩
  obtain ⟨locks, hlock⟩ := stops_uploadLock env session x.polls (UploadPipeline.locked env x) hk
    fun j hj => by rw [hfree] at hj; cases hj
  obtain ⟨s₁, hreturns, hs₁⟩ := returns_duplicate (s := { s with locks := locks }) env session hname
    hpair hfresh hrow
  obtain ⟨s', hstops, hs', -⟩ := hlock _ s₁ hreturns.stops
  obtain ⟨hreply, hstate⟩ := hstops.map Reply.upload
  exact ⟨hreply, (congrArg World.stores hstate).trans (hs'.trans hs₁)⟩

/-! ## The request -/

/-- A stored body without a document id is accepted as the same body, under the id that is drawn. -/
theorem checked_stored (hint : web.drf.RereadsInts) (huuid : web.drf.ReadsUuids) {raw : PyValue}
    (hbody : uploadBodySerializer web.drf raw = .ok x.body) (hid : x.body.doc_id = none)
    (hT : slugMatch x.tenant_id = true) (hB : slugMatch x.bot_id = true) (req : UploadRequest)
    (hreqT : req.tenant_id = x.tenant_id) (hreqB : req.bot_id = x.bot_id)
    (hdata : req.data = .ok x.body.toPy) :
    req.checked web = .ok ⟨x.tenant_id, x.bot_id, req.uuid4.canonical, x.body, req.polls, req.now,
      req.clock⟩ := by
  have hslugs : pathSlugs req.tenant_id req.bot_id = .ok (x.tenant_id, x.bot_id) := by
    rw [hreqT, hreqB]
    exact pathSlugs_eq_ok.mpr ⟨hT, hB, normalizeSlug_eq_self.mpr (not_hyphen_of_slug hT),
      normalizeSlug_eq_self.mpr (not_hyphen_of_slug hB)⟩
  have hread : uploadBodySerializer web.drf x.body.toPy = .ok x.body :=
    uploadBodySerializer_toPy hint huuid hbody
  unfold UploadRequest.checked
  rw [hslugs, hdata]
  dsimp only
  rw [hread]
  dsimp only
  rw [hid]
  rfl

/-- A body with a document id cannot be stored. -/
theorem Upload.Fits.doc_id (h : x.Fits env) (bot : Bot) : x.body.doc_id = none := by
  have hjson := (DocumentDefaults.check_eq_ok.mp (h bot)).1
  rw [show (uploadDefaults env x bot (x.points env).length).raw_payload = x.body.toPy from rfl,
    UploadBody.jsonEncodable_toPy] at hjson
  exact Option.isNone_iff_eq_none.mp hjson

/-- The other document is an active one of the same pair, with the same content. -/
structure Document.SameContentAs (row other : Document) : Prop where
  owner : other.owner = row.owner
  content_hash : other.content_hash = row.content_hash
  active : other.status = .active

/-- **A stored body may be posted again.** At every moment of every run, whatever has failed, where
the document of a row is active: the body the row keeps, posted to the pair of the row and served,
is accepted and answered 200 with the newest of the active documents of the pair that have the
content of the row, and changes nothing but the time that document was refreshed. -/
theorem stored_body_found (env : Env) (web : Web) (hint : web.drf.RereadsInts)
    (huuid : web.drf.ReadsUuids) (requests : Nat → Write) (sched : List (Nat × Fault))
    (hbodies : ∀ i x, requests i = .upload x → ∃ raw, uploadBodySerializer web.drf raw = .ok x.body)
    (req : UploadRequest) (session : Nat) (d : String) (row : Document) (k : LockKey)
    (hactive : row.status = .active) (hT : req.tenant_id = row.tenant_id)
    (hB : req.bot_id = row.bot_id) (hdata : ∃ data ∈ row.raw_payload, req.data = .ok data)
    (hk : advisoryLockKey env.sha256 req.tenant_id req.bot_id req.uuid4.canonical = .ok k) :
    let s := (interleave env requests sched).state
    s.row d = some row → s.row req.uuid4.canonical = none → s.holder k = none →
      ∃ newest ∈ s.documents.rows, row.SameContentAs newest ∧
        (∀ other ∈ s.documents.rows, row.SameContentAs other →
          other.uploaded_at ≤ newest.uploaded_at) ∧
        (req.run env web session (fun _ => .none) s).reply = .ok ⟨200, .upload
          ⟨newest.doc_id, newest.chunk_count, newest.item_count,
            joinName row.tenant_id row.bot_id, .noChange⟩, none⟩ ∧
        (req.run env web session (fun _ => .none) s).state.stores =
          s.stores.refresh newest req.now := by
  intro s hrow hfresh hfree
  obtain ⟨Φ, hrecorded⟩ := recorded_interleave env requests sched
  obtain ⟨i, x, hx, hd, hrec, hfits⟩ := hrecorded.rows d row hrow
  have hindexed {other : Document} (hother : other ∈ s.documents.rows)
      (hst : other.status = .active) : 0 < other.chunk_count := by
    obtain ⟨j, y, hy, -, ⟨t, t', rfl | rfl⟩, -⟩ := hrecorded.rows _ _ (Table.find?_of_mem hother)
    · exact hy.length.1
    · cases hst
  -- the row is that of `x`, and its bot is there
  obtain ⟨t, t', rfl⟩ : ∃ t t', row = x.row env t t' := by
    obtain ⟨t, t', hrow | hrow⟩ := hrec
    · exact ⟨t, t', hrow⟩
    · rw [hrow] at hactive
      cases hactive
  obtain ⟨raw, hraw⟩ := hbodies i x hx.sent.request
  obtain ⟨Φ', hholds⟩ := owning_interleave env requests sched
  obtain ⟨bot, hbot, hpair⟩ := hholds.inv.1.rows d _ hrow
  rw [hT, hB] at hk
  obtain ⟨hslugT, hslugB, -⟩ := advisoryLockKey_isOk.mp ⟨k, hk⟩
  obtain ⟨data, hraw_payload, hdata⟩ := hdata
  obtain rfl : x.body.toPy = data := Option.some.inj hraw_payload
  have hchecked := checked_stored hint huuid hraw (hfits.doc_id bot) hslugT hslugB req hT hB hdata
  let y : Upload := ⟨x.tenant_id, x.bot_id, req.uuid4.canonical, x.body, req.polls, req.now,
    req.clock⟩
  have hmatches (other : Document) : other ∈ contentMatches s y.tenant_id y.bot_id
      (incomingHash env y.body) y.doc_id ↔
        other ∈ s.documents.rows ∧ (x.row env t t').SameContentAs other := by
    rw [mem_contentMatches]
    constructor
    · rintro ⟨hstored, hown, hhash, hst, -⟩
      exact ⟨hstored, hown, hhash, hst⟩
    · rintro ⟨hstored, hown, hhash, hst⟩
      -- the id that is drawn is that of no document
      refine ⟨hstored, hown, hhash, hst, hindexed hstored hst, fun hsame => ?_⟩
      have hfound : s.row other.doc_id = some other := Table.find?_of_mem hstored
      rw [show other.doc_id = req.uuid4.canonical from hsame, hfresh] at hfound
      cases hfound
  obtain ⟨newest, hnewest, hmem, hle⟩ := Upload.exists_duplicate
    ((hmatches _).mpr ⟨Table.mem_of_find? hrow, rfl, rfl, rfl⟩)
  obtain ⟨hstored, hsame⟩ := (hmatches newest).mp hmem
  obtain ⟨hreply, hstate⟩ := Upload.run_duplicate (x := y) session hk hfree ⟨bot, hbot, hpair⟩
    hfresh hnewest
  refine ⟨newest, hstored, hsame, fun other hother hcontent =>
    hle other ((hmatches other).mpr ⟨hother, hcontent⟩), ?_, ?_⟩
  · rw [UploadRequest.run_checked hchecked]
    exact congrArg (fun r => Except.ok (web.response r)) hreply
  · rw [UploadRequest.run_checked hchecked]
    exact hstate

namespace Sample

/-- A document is uploaded; what else is requested does not run. -/
def resent : Nat → Write := fun _ => .upload (upload acme docA "h1" ["Hello"])

def stored : World := (interleave Sample.env resent (turns (List.replicate 40 0))).state

/-- The body its row keeps, under an id of its own. -/
def reposted : UploadRequest :=
  ⟨"acme", "support", .ok (body "h1" ["Hello"]).toPy, ⟨docB⟩, 100, 5, fun _ => 5⟩

def rereading : Web := { Sample.web with drf := reader }

end Sample

theorem stored_body_found_hello : ∃ newest ∈ Sample.stored.documents.rows,
    newest.content_hash = "h1" ∧
      (Sample.reposted.run Sample.env Sample.rereading 7 (fun _ => .none) Sample.stored).reply =
        .ok ⟨200, .upload ⟨newest.doc_id, newest.chunk_count, newest.item_count, Sample.support,
          .noChange⟩, none⟩ := by
  have hbody : uploadBodySerializer Sample.reader (Sample.body "h1" ["Hello"]).toPy =
      .ok (Sample.body "h1" ["Hello"]) := by decide +kernel
  have hbodies (i : Nat) (x : Upload) (hx : Sample.resent i = .upload x) :
      ∃ raw, uploadBodySerializer Sample.rereading.drf raw = .ok x.body := by
    cases hx
    exact ⟨_, hbody⟩
  obtain ⟨row, hrow⟩ : ∃ row, Sample.stored.row Sample.docA = some row :=
    Option.isSome_iff_exists.mp (by decide +kernel)
  have hactive : row.status = .active := by
    have hall : ∀ row ∈ Sample.stored.row Sample.docA, row.status = .active := by decide +kernel
    exact hall row hrow
  -- its columns are those of the upload
  obtain ⟨hT, hB, hhash, hpayload⟩ : row.tenant_id = "acme" ∧ row.bot_id = "support" ∧
      row.content_hash = "h1" ∧ row.raw_payload = some (Sample.body "h1" ["Hello"]).toPy := by
    obtain ⟨Φ, hrecorded⟩ := recorded_interleave Sample.env Sample.resent
      (Sample.turns (List.replicate 40 0))
    obtain ⟨i, x, hx, -, ⟨t, t', hrec⟩, -⟩ := hrecorded.rows Sample.docA row hrow
    obtain rfl := Write.upload.inj hx.sent.request
    have hhash : incomingHash Sample.env (Sample.body "h1" ["Hello"]) = "h1" := by decide +kernel
    rcases hrec with rfl | rfl <;> exact ⟨rfl, rfl, hhash, rfl⟩
  obtain ⟨k, hk⟩ : ∃ k, advisoryLockKey Sample.env.sha256 "acme" "support" Sample.docB = .ok k :=
    advisoryLockKey_isOk.mpr (by decide +kernel)
  have hfree : Sample.stored.holder k = none := by
    have hlocks : Sample.stored.locks.rows = [] := List.isEmpty_iff.mp (by decide +kernel)
    refine Option.eq_none_iff_forall_ne_some.mpr fun j hj => ?_
    have := World.holder_eq_some.mp hj
    rw [hlocks] at this
    exact List.not_mem_nil this
  obtain ⟨newest, hnewest, hsame, -, hreply, -⟩ := stored_body_found Sample.env
    Sample.rereading (fun _ _ _ => rfl) (fun _ => rfl) Sample.resent
    (Sample.turns (List.replicate 40 0)) hbodies Sample.reposted 7 Sample.docA row k hactive hT.symm
    hB.symm ⟨_, hpayload, rfl⟩ hk hrow (by decide +kernel) hfree
  rw [hT, hB] at hreply
  exact ⟨newest, hnewest, hsame.content_hash.trans hhash, hreply⟩

end QdrantRag
