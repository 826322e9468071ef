import QdrantRag.Verify.Sequential

/-! # What a successful upload leaves

An upload run alone that succeeds has found its content and refreshed the row it found, or has
written its document (`upload_cases`). From this follows when a `no_change` is truthful
(`no_change_truthful`), when a document written is exactly the new one (`exactly_new_iff`) and when
no old content is served any more (`no_stale_iff`). -/

namespace QdrantRag
open Keyed Effect

variable {env : Env} {x : Upload} {s : World} {v v₀ : Stores} {d n : String} {r : UploadResult}

/-- The run of an upload. -/
def Upload.run (env : Env) (x : Upload) (session : Nat) (faults : Nat → Fault) (s : World) :
    Prog.Outcome Op Exc Reply Fault World := Job.run env ⟨.write (.upload x), session, faults⟩ s

/-- The collection of the upload's pair. -/
def Upload.collection (x : Upload) : String := joinName x.tenant_id x.bot_id

/-- The stores an upload leaves that has written its document. -/
def Upload.written (env : Env) (x : Upload) (bot : Bot) (v : Stores) : Stores :=
  ((v.prepare (.upload x) (v.row x.doc_id)).upsert x.collection (x.points env)).store x.doc_id
    (uploadDefaults env x bot (x.points env).length) x.now

/-- **A successful upload** has found a row with its content, or none and written its document. -/
theorem upload_cases (env : Env) (x : Upload) (session : Nat) (faults : Nat → Fault) (s : World)
    (hr : (x.run env session faults s).reply = .ok (.upload r)) :
    (∃ row, Known env x s.stores row ∧
      (x.run env session faults s).state.stores = s.stores.refresh row x.now ∧
      r = ⟨row.doc_id, row.chunk_count, row.item_count, x.collection, .noChange⟩) ∨
    ∃ bot, Bot.pair bot = (x.tenant_id, x.bot_id) ∧ Fresh env (.upload x) s.stores ∧
      (∀ row, s.row x.doc_id = some row → row.owner = (x.tenant_id, x.bot_id)) ∧
      1 ≤ (x.points env).length ∧ (x.points env).length ≤ maxChunksPerDoc ∧
      (x.run env session faults s).state.stores = x.written env bot s.stores ∧
      r = ⟨x.doc_id, (x.points env).length, x.body.items.length, x.collection,
        if (s.row x.doc_id).isSome then .replaced else .created⟩ := by
  obtain ⟨φ, hran, -, hanswers⟩ := (Write.upload x).ran env session faults s
  obtain ⟨st, rfl, hans⟩ := hanswers _ hr
  cases hans with
  | @refreshed _ row =>
    obtain ⟨-, x', hw, hv, hknown⟩ := hran.reached
    cases hw
    exact .inl ⟨row, hknown, hv, rfl⟩
  | @stored _ ex =>
    obtain ⟨x', bot, hw, hbot, hv, hrow, hfresh, hone, hmax⟩ := hran.reached
    cases hw
    rw [Stores.row_stores] at hrow
    subst hrow
    exact .inr ⟨bot, hbot, hfresh, fun row hrow => (hran.ours row hrow).2, hone, hmax, hv, rfl⟩

/-! ## The document that was written -/

theorem mem_prepare_iff {ex : Option Document} {pt : Point} :
    pt ∈ ((v.prepare (.upload x) ex).points n).rows ↔
      pt ∈ (v.points n).rows ∧ ¬ (ex.isSome = true ∧ n = x.collection ∧
        pt.payload.doc_id = x.doc_id) := by
  unfold Stores.prepare
  split
  · next h =>
    simp only [h, true_and]
    exact Stores.mem_clear
  · next h => simp [h]

/-- An old point of the document is left where the document had no row and no new point has
its id. -/
theorem mem_written_of_notMem (bot : Bot) (v : Stores) {pt : Point} (hnew : pt ∉ x.points env)
    (hd : pt.payload.doc_id = x.doc_id) :
    pt ∈ ((x.written env bot v).points x.collection).rows ↔
      pt ∈ (v.points x.collection).rows ∧ v.row x.doc_id = none ∧
        ∀ q ∈ x.points env, pt.id ≠ q.id := by
  rw [Upload.written, Stores.points_store, Stores.mem_upsert_of_notMem hnew, mem_prepare_iff]
  simp [hd, and_assoc]

/-- What a document written anew has to be: one point for each chunk of the body, as many as the
reply and the row say, all other documents being as they were. -/
structure ExactlyNew (env : Env) (x : Upload) (s s' : World) (r : UploadResult) : Prop where
  points : ∃ pts, (s'.stores.docPoints x.collection x.doc_id).Perm pts ∧
    List.Forall₂ (PointOf env x) (flatChunks env x.body) pts
  chunks_created : (s'.stores.docPoints x.collection x.doc_id).length = r.chunks_created
  chunk_count : ∃ row, s'.row x.doc_id = some row ∧ row.chunk_count = r.chunks_created
  others : ∀ m pt, pt.payload.doc_id ≠ x.doc_id →
    (pt ∈ (s'.points m).rows ↔ pt ∈ (s.points m).rows)

/-- **A document written is exactly the new one** if and only if it had a row, so that its old
points were deleted, or the new points overwrite all that earlier attempts left. -/
theorem exactly_new_iff (env : Env) (jobs : List Job) (x : Upload)
    (henv : env.DistinctIds (insert (.upload x) (writes jobs))) (session : Nat)
    (faults : Nat → Fault) (r : UploadResult)
    (hr : (x.run env session faults (World.after env jobs World.empty)).reply = .ok (.upload r))
    (hst : r.status ≠ .noChange) :
    ExactlyNew env x (World.after env jobs World.empty)
        (x.run env session faults (World.after env jobs World.empty)).state r ↔
      ((World.after env jobs World.empty).row x.doc_id).isSome = true ∨
        ∀ pt ∈ ((World.after env jobs World.empty).points x.collection).rows,
          pt.payload.doc_id = x.doc_id → ∃ q ∈ x.points env, q.id = pt.id := by
  have hx : .upload x ∈ insert (.upload x) (writes jobs) := Set.mem_insert _ _
  have hnamed : Named env (insert (.upload x) (writes jobs))
      (World.after env jobs World.empty).stores := named_after jobs (Set.subset_insert _ _) .empty
  generalize World.after env jobs World.empty = s at hr hnamed ⊢
  rcases upload_cases env x session faults s hr with
    ⟨_, -, -, rfl⟩ | ⟨bot, hbot, -, -, -, -, hs', rfl⟩
  · exact absurd rfl hst
  generalize (x.run env session faults s).state = s' at hs' ⊢
  have hold {pt : Point} (hnew : pt ∉ x.points env) (hd : pt.payload.doc_id = x.doc_id) :=
    mem_written_of_notMem bot s.stores hnew hd
  constructor
  · rintro ⟨⟨pts, hperm, hpts⟩, -, -, -⟩
    by_contra hno
    obtain ⟨hrow, hex⟩ := not_or.mp hno
    push Not at hex
    obtain ⟨pt, hpt, hd, hids⟩ := hex
    have hnew : pt ∉ x.points env := fun hm => hids pt hm rfl
    have hrow : s.row x.doc_id = none := by simpa using hrow
    have hleft : pt ∈ (s'.points x.collection).rows := by
      rw [← World.points_stores, hs']
      exact (hold hnew hd).mpr ⟨hpt, hrow, fun q hq he => hids q hq he.symm⟩
    -- the point left over is that of a chunk, and so has the id of a new one
    have hmem : pt ∈ s'.stores.docPoints x.collection x.doc_id := mem_docPoints.mpr ⟨hleft, hd⟩
    obtain ⟨f, hf, hpt⟩ := exists_of_forall₂ hpts (hperm.mem_iff.mp hmem)
    obtain ⟨q, hq, hqf⟩ := exists_of_forall₂ (x.pointOf_points env).flip hf
    exact hids q hq (hqf.id.trans hpt.id.symm)
  · intro hcond
    have hperm : (s'.stores.docPoints x.collection x.doc_id).Perm (x.points env) := by
      have hnd : (x.points env).Nodup := List.Nodup.of_map _ (Upload.nodup_points henv hx)
      refine (List.perm_ext_iff_of_nodup (nodup_docPoints ..) hnd).mpr fun pt => ?_
      rw [mem_docPoints, hs']
      constructor
      · rintro ⟨hpt, hd⟩
        by_contra hnew
        obtain ⟨hpt, hrow, hids⟩ := (hold hnew hd).mp hpt
        rcases hcond with hsome | hids'
        · rw [← Stores.row_stores, hrow] at hsome
          cases hsome
        · obtain ⟨q, hq, he⟩ := hids' pt hpt hd
          exact hids q hq he.symm
      · refine fun hnew => ⟨?_, (Upload.owner_of_mem hnew).2.1⟩
        rw [Upload.written, Stores.points_store, Stores.mem_upsert (Upload.nodup_points henv hx)]
        exact .inl ⟨rfl, hnew⟩
    obtain ⟨t, ht⟩ := Stores.row_store ((s.stores.prepare (.upload x) (s.row x.doc_id)).upsert
      x.collection (x.points env)) x.doc_id (uploadDefaults env x bot (x.points env).length) x.now
    have hrow : s'.row x.doc_id = _ := (congrFun (congrArg Stores.row hs') x.doc_id).trans ht
    refine ⟨⟨_, hperm, x.pointOf_points env⟩, hperm.length_eq, ⟨_, hrow, rfl⟩, fun m pt hd => ?_⟩
    have hleft : Left env (.upload x) s.stores (x.written env bot s.stores) := .stored rfl hbot
    have := hleft.samePoints henv hx hnamed hd m pt rfl
    rwa [← hs'] at this

/-- A document is uploaded, and replaced. -/
def Sample.replacing : Upload := upload acme docA "h2" ["world"]

theorem Sample.replacing_replaced : ∃ r, (Sample.replacing.run Sample.env 0 Sample.served
    (World.after Sample.env (Sample.hello Sample.acme) World.empty)).reply = .ok (.upload r) ∧
    r.status = .replaced :=
  Sample.exists_uploaded (by decide +kernel)

theorem Sample.hello_atomic :
    ∀ e ∈ World.history Sample.env (Sample.hello Sample.acme) World.empty,
      Atomic Sample.env e.1.session e.2 := by
  decide +kernel

theorem exactly_new_replaced :
    ∃ r, (Sample.replacing.run Sample.env 0 Sample.served
        (World.after Sample.env (Sample.hello Sample.acme) World.empty)).reply = .ok (.upload r) ∧
      r.status = .replaced ∧
      ExactlyNew Sample.env Sample.replacing
        (World.after Sample.env (Sample.hello Sample.acme) World.empty)
        (Sample.replacing.run Sample.env 0 Sample.served
          (World.after Sample.env (Sample.hello Sample.acme) World.empty)).state r := by
  obtain ⟨r, hr, hst⟩ := Sample.replacing_replaced
  have hne : r.status ≠ .noChange := by simp [hst]
  exact ⟨r, hr, hst, (exactly_new_iff _ _ _ Sample.env_distinctIds _ _ r hr hne).mpr
    (.inl (by decide +kernel))⟩

/-- An upload of two items that lost its connection before it saved its row. -/
def Sample.torn : List Job :=
  [⟨.write (.upload (upload acme docA "h1" ["Hello", "world"])), 0, failing 18⟩]

/-- The next upload of the document is answered `created` and leaves a point of the first. -/
theorem created_keeps_torn :
    ∃ r, (Sample.replacing.run Sample.env 0 Sample.served
        (World.after Sample.env Sample.torn World.empty)).reply = .ok (.upload r) ∧
      r.status = .created ∧
      ¬ ExactlyNew Sample.env Sample.replacing (World.after Sample.env Sample.torn World.empty)
        (Sample.replacing.run Sample.env 0 Sample.served
          (World.after Sample.env Sample.torn World.empty)).state r := by
  obtain ⟨r, hr, hst, hlen⟩ : ∃ r, (Sample.replacing.run Sample.env 0 Sample.served
      (World.after Sample.env Sample.torn World.empty)).reply = .ok (.upload r) ∧
      r.status = .created ∧ ((Sample.replacing.run Sample.env 0 Sample.served
        (World.after Sample.env Sample.torn World.empty)).state.stores.docPoints Sample.support
          Sample.docA).length ≠ r.chunks_created := Sample.exists_uploaded (by decide +kernel)
  exact ⟨r, hr, hst, fun h => hlen h.chunks_created⟩

/-! ## Content that is there already -/

/-- **A `no_change` is truthful** where every request on the document it names was atomic, in any
run whatever fails: the document has as many points as the reply says, and at least one, all of them
with the content of the body. -/
theorem no_change_truthful (env : Env) (jobs : List Job) (henv : env.DistinctIds (writes jobs))
    (x : Upload) (session : Nat) (faults : Nat → Fault) (r : UploadResult)
    (hr : (x.run env session faults (World.after env jobs World.empty)).reply = .ok (.upload r))
    (hst : r.status = .noChange)
    (hatomic : ∀ e ∈ World.history env jobs World.empty, e.1.request.target = some r.doc_id →
      Atomic env e.1.session e.2) :
    0 < r.chunks_created ∧
      ((x.run env session faults (World.after env jobs World.empty)).state.stores.docPoints
        x.collection r.doc_id).length = r.chunks_created ∧
      ∀ pt ∈ (x.run env session faults (World.after env jobs World.empty)).state.stores.docPoints
        x.collection r.doc_id, pt.payload.source_content_hash = incomingHash env x.body := by
  have hset : Settled (World.after env jobs World.empty).stores r.doc_id :=
    settled_after henv jobs subset_rfl .empty .empty hatomic
  generalize World.after env jobs World.empty = s at hr hset ⊢
  rcases upload_cases env x session faults s hr with
    ⟨row, hknown, hs', rfl⟩ | ⟨_, _, -, -, -, -, -, rfl⟩
  · obtain ⟨hT, hB⟩ := Prod.mk.inj hknown.same.owner
    have hcol : row.collection = x.collection := by
      rw [Document.collection, hT, hB]
      rfl
    obtain ⟨hlen, -⟩ := hset.row row hknown.found
    rw [hs']
    refine ⟨hknown.same.indexed, hcol ▸ hlen, fun pt hpt => ?_⟩
    obtain ⟨hpt, hd⟩ := mem_docPoints.mp hpt
    obtain ⟨row', hrow', -, hhash, -⟩ := hset.points _ pt hpt hd
    cases hknown.found.symm.trans hrow'
    exact hhash.trans hknown.same.content_hash
  · exact absurd hst (by simp only; split <;> exact UploadStatus.noConfusion)

/-- The document that was uploaded is uploaded again. -/
def Sample.again : Upload := upload acme docA "h1" ["Hello"]

theorem no_change_truthful_again :
    ∃ r, (Sample.again.run Sample.env 0 Sample.served
        (World.after Sample.env (Sample.hello Sample.acme) World.empty)).reply = .ok (.upload r) ∧
      r.status = .noChange ∧ 0 < r.chunks_created ∧
      ((Sample.again.run Sample.env 0 Sample.served (World.after Sample.env
        (Sample.hello Sample.acme) World.empty)).state.stores.docPoints Sample.support
          r.doc_id).length = r.chunks_created := by
  obtain ⟨r, hr, hst⟩ : ∃ r, (Sample.again.run Sample.env 0 Sample.served
      (World.after Sample.env (Sample.hello Sample.acme) World.empty)).reply = .ok (.upload r) ∧
      r.status = .noChange := Sample.exists_uploaded (by decide +kernel)
  obtain ⟨hpos, hlen, -⟩ := no_change_truthful _ _ Sample.env_distinctIds _ _ _ r hr hst
    fun e he _ => Sample.hello_atomic e he
  exact ⟨r, hr, hst, hpos, hlen⟩

/-- A delete has removed the points and lost its connection before it marked the row. -/
def Sample.tornDelete : List Job :=
  hello acme ++ [⟨.write (.delete (delete acme docA)), 0, failing 5⟩]

/-- The next upload is answered `no_change`, with a chunk, and the document has no point. -/
theorem no_change_lies :
    ∃ r, (Sample.again.run Sample.env 0 Sample.served
        (World.after Sample.env Sample.tornDelete World.empty)).reply = .ok (.upload r) ∧
      r.status = .noChange ∧ r.chunks_created = 1 ∧
      ((Sample.again.run Sample.env 0 Sample.served
        (World.after Sample.env Sample.tornDelete World.empty)).state.stores.docPoints
          Sample.support r.doc_id).length = 0 :=
  Sample.exists_uploaded (by decide +kernel)

/-- No point of the document in the collection has another content than the body. -/
def NoStale (env : Env) (x : Upload) (s : World) : Prop :=
  ∀ pt ∈ (s.points x.collection).rows, pt.payload.doc_id = x.doc_id →
    pt.payload.source_content_hash = incomingHash env x.body

/-- The upload is answered `no_change`: its own row or a content match has its content. -/
def Answered (env : Env) (x : Upload) (s : World) : Prop :=
  (sameContent (s.row x.doc_id) (incomingHash env x.body)).isSome = true ∨
    contentMatches s x.tenant_id x.bot_id (incomingHash env x.body) x.doc_id ≠ []

theorem Known.answered {row : Document} (h : Known env x s.stores row) : Answered env x s := by
  by_cases hd : row.doc_id = x.doc_id
  · refine .inl ?_
    have hrow : s.row x.doc_id = some row := hd ▸ h.found
    rw [sameContent_eq_some.mpr ⟨hrow, h.same.indexed, h.same.content_hash⟩]
    rfl
  · refine .inr (List.ne_nil_of_mem (a := row) (mem_contentMatches.mpr ?_))
    exact ⟨Table.mem_of_find? h.found, h.same.owner, h.same.content_hash, h.active hd,
      h.same.indexed, hd⟩

theorem Fresh.not_answered (h : Fresh env (.upload x) s.stores)
    (hown : ∀ row, s.row x.doc_id = some row → row.owner = (x.tenant_id, x.bot_id)) :
    ¬ Answered env x s := by
  rintro (hsame | hmatch)
  · obtain ⟨row, hsame⟩ := Option.isSome_iff_exists.mp hsame
    obtain ⟨hrow, hcc, hhash⟩ := sameContent_eq_some.mp hsame
    have hd := World.doc_id_of_row hrow
    exact h x rfl row ⟨hd.symm ▸ hrow, ⟨hown row hrow, hcc, hhash⟩, fun hne => absurd hd hne⟩
  · obtain ⟨row, hrow⟩ := List.exists_mem_of_ne_nil _ hmatch
    obtain ⟨hmem, hown, hhash, hact, hcc, -⟩ := mem_contentMatches.mp hrow
    exact h x rfl row ⟨Table.find?_of_mem hmem, ⟨hown, hcc, hhash⟩, fun _ => hact⟩

/-- An upload that writes its document leaves no stale content if and only if its old points are
deleted, or those with another content are overwritten. -/
theorem noStale_written {bot : Bot} {s' : World} (hs' : s'.stores = x.written env bot s.stores) :
    NoStale env x s' ↔ NoStale env x s ∨ (s.row x.doc_id).isSome = true ∨
      ∀ pt ∈ (s.points x.collection).rows, pt.payload.doc_id = x.doc_id →
        pt.payload.source_content_hash ≠ incomingHash env x.body →
        ∃ q ∈ x.points env, q.id = pt.id := by
  have hold {pt : Point} (hnew : pt ∉ x.points env) (hd : pt.payload.doc_id = x.doc_id) :=
    mem_written_of_notMem bot s.stores hnew hd
  unfold NoStale
  rw [← World.points_stores s', hs']
  constructor
  · intro hstale
    by_contra hno
    simp only [not_or] at hno
    obtain ⟨-, hrow, hex⟩ := hno
    push Not at hex
    obtain ⟨pt, hpt, hd, hhash, hids⟩ := hex
    have hnew : pt ∉ x.points env := fun hm => hhash (Upload.owner_of_mem hm).2.2
    have hrow : s.row x.doc_id = none := by simpa using hrow
    exact hhash (hstale pt ((hold hnew hd).mpr ⟨hpt, hrow, fun q hq he => hids q hq he.symm⟩) hd)
  · intro hcond pt hpt hd
    by_contra hhash
    have hnew : pt ∉ x.points env := fun hm => hhash (Upload.owner_of_mem hm).2.2
    obtain ⟨hpt, hrow, hids⟩ := (hold hnew hd).mp hpt
    rcases hcond with hstale | hsome | hids'
    · exact hhash (hstale pt hpt hd)
    · rw [← Stores.row_stores, hrow] at hsome
      cases hsome
    · obtain ⟨q, hq, he⟩ := hids' pt hpt hd hhash
      exact hids q hq he.symm

/-- Where the document is settled, a row found with the content leaves old content in the collection
exactly where the document's own row is indexed with another. -/
theorem Settled.noStale_iff {row₀ : Document} (hset : Settled s.stores x.doc_id)
    (hown : Owned s.bots s.stores) (hknown : Known env x s.stores row₀) :
    NoStale env x s ↔ ¬ ((∃ row, s.row x.doc_id = some row ∧
      row.owner = (x.tenant_id, x.bot_id) ∧ 0 < row.chunk_count ∧
      row.content_hash ≠ incomingHash env x.body) ∧
      contentMatches s x.tenant_id x.bot_id (incomingHash env x.body) x.doc_id ≠ []) := by
  constructor
  · rintro hstale ⟨⟨row, hrow, ho, hcc, hhash⟩, -⟩
    obtain ⟨hT, hB⟩ := Prod.mk.inj ho
    have hcol : row.collection = x.collection := by
      rw [Document.collection, hT, hB]
      rfl
    obtain ⟨hlen, -⟩ := hset.row row hrow
    obtain ⟨pt, hpt⟩ := List.exists_mem_of_length_pos (hlen.symm ▸ hcc)
    obtain ⟨hmem, hd⟩ := mem_docPoints.mp hpt
    obtain ⟨row', hrow', -, hh, -⟩ := hset.points _ pt hmem hd
    cases hrow.symm.trans hrow'
    exact hhash (hh.symm.trans (hstale pt (hcol ▸ hmem) hd))
  · intro hno pt hpt hd
    obtain ⟨row, hrow, ho, hh, hn⟩ := hset.points _ pt hpt hd
    by_contra hhash
    rw [hh] at hhash
    -- the collection is that of one pair only, and a row of the upload's pair exists
    obtain ⟨b, hb, hp, hbn⟩ := hown.points _ pt hpt
    obtain ⟨b₀, hb₀, hp₀⟩ := hown.rows _ _ hknown.found
    have hpair : b₀.pair = (Write.upload x).pair := hp₀.trans hknown.same.owner
    obtain rfl := s.unique_collection_name b hb b₀ hb₀
      (hbn.trans (Bot.collection_name_of_pair hpair).symm)
    have hcc : 0 < row.chunk_count := by
      obtain ⟨hlen, -⟩ := hset.row row hrow
      rw [← hlen]
      exact List.length_pos_of_mem (mem_docPoints.mpr ⟨hn ▸ hpt, hd⟩)
    refine hno ⟨⟨row, hrow, ho.symm.trans (hp.symm.trans hpair), hcc, hhash⟩, ?_⟩
    rcases hknown.answered with hsame | hmatch
    · obtain ⟨r, hsame⟩ := Option.isSome_iff_exists.mp hsame
      obtain ⟨hr, -, hrh⟩ := sameContent_eq_some.mp hsame
      cases hrow.symm.trans hr
      exact absurd hrh hhash
    · exact hmatch

/-- **No stale content** is left by a successful upload if and only if there was none, or the upload
is not answered `no_change` and its old points are deleted or overwritten. Where every request on
the document was atomic this fails only where the document is indexed with another content while
another document of the bot has that of the body. -/
theorem no_stale_iff (env : Env) (jobs : List Job) (x : Upload) (session : Nat)
    (faults : Nat → Fault) (r : UploadResult)
    (hr : (x.run env session faults (World.after env jobs World.empty)).reply = .ok (.upload r)) :
    (NoStale env x (x.run env session faults (World.after env jobs World.empty)).state ↔
      NoStale env x (World.after env jobs World.empty) ∨
        ¬ Answered env x (World.after env jobs World.empty) ∧
          (((World.after env jobs World.empty).row x.doc_id).isSome = true ∨
            ∀ pt ∈ ((World.after env jobs World.empty).points x.collection).rows,
              pt.payload.doc_id = x.doc_id →
              pt.payload.source_content_hash ≠ incomingHash env x.body →
              ∃ q ∈ x.points env, q.id = pt.id)) ∧
    (env.DistinctIds (writes jobs) → (∀ e ∈ World.history env jobs World.empty,
        e.1.request.target = some x.doc_id → Atomic env e.1.session e.2) →
      (NoStale env x (x.run env session faults (World.after env jobs World.empty)).state ↔
        ¬ ((∃ row, (World.after env jobs World.empty).row x.doc_id = some row ∧
          row.owner = (x.tenant_id, x.bot_id) ∧ 0 < row.chunk_count ∧
          row.content_hash ≠ incomingHash env x.body) ∧
        contentMatches (World.after env jobs World.empty) x.tenant_id x.bot_id
          (incomingHash env x.body) x.doc_id ≠ []))) := by
  have hset (henv : env.DistinctIds (writes jobs))
      (hatomic : ∀ e ∈ World.history env jobs World.empty,
        e.1.request.target = some x.doc_id → Atomic env e.1.session e.2) :
      Settled (World.after env jobs World.empty).stores x.doc_id :=
    settled_after henv jobs subset_rfl .empty .empty hatomic
  have hown : Owned (World.after env jobs World.empty).bots
      (World.after env jobs World.empty).stores := owned_after env jobs .empty
  generalize World.after env jobs World.empty = s at hr hset hown ⊢
  rcases upload_cases env x session faults s hr with
    ⟨row, hknown, hs', -⟩ | ⟨bot, -, hfresh, hrow, -, -, hs', -⟩
  · have hsame : NoStale env x (x.run env session faults s).state ↔ NoStale env x s := by
      unfold NoStale
      rw [← World.points_stores, hs']
      rfl
    rw [hsame]
    refine ⟨⟨.inl, fun h => h.resolve_right fun h => h.1 hknown.answered⟩, fun henv hatomic => ?_⟩
    exact (hset henv hatomic).noStale_iff hown hknown
  · have hno := hfresh.not_answered hrow
    have hiff := noStale_written hs'
    refine ⟨hiff.trans (or_congr_right ⟨fun h => ⟨hno, h⟩, And.right⟩), fun henv hatomic => ?_⟩
    refine ⟨fun _ h => hno (.inr h.2), fun _ => hiff.mpr (.inr ?_)⟩
    cases hr : s.row x.doc_id with
    | some row => exact .inl rfl
    | none =>
      refine .inr fun pt hpt hd => absurd hd ?_
      exact (hset henv hatomic).cleared_of_no_row hr _ pt hpt

theorem no_stale_replaced :
    ∃ r, (Sample.replacing.run Sample.env 0 Sample.served
        (World.after Sample.env (Sample.hello Sample.acme) World.empty)).reply = .ok (.upload r) ∧
      r.status = .replaced ∧
      NoStale Sample.env Sample.replacing (Sample.replacing.run Sample.env 0 Sample.served
        (World.after Sample.env (Sample.hello Sample.acme) World.empty)).state := by
  obtain ⟨r, hr, hst⟩ := Sample.replacing_replaced
  refine ⟨r, hr, hst, ((no_stale_iff _ _ _ _ _ r hr).2 Sample.env_distinctIds
    fun e he _ => Sample.hello_atomic e he).mpr fun h => h.2 (List.isEmpty_iff.mp ?_)⟩
  decide +kernel

/-- Two documents of a bot with different contents. -/
def Sample.twoContents : List Job :=
  hello acme ++ [uploading (upload acme docB "h2" ["world"])]

/-- The first document is uploaded with the content of the second: the answer is `no_change`, and
the first keeps its old content. -/
theorem no_change_keeps_stale :
    ∃ r, (Sample.replacing.run Sample.env 0 Sample.served
        (World.after Sample.env Sample.twoContents World.empty)).reply = .ok (.upload r) ∧
      r.status = .noChange ∧ r.doc_id = Sample.docB ∧
      ∃ pt ∈ ((Sample.replacing.run Sample.env 0 Sample.served
          (World.after Sample.env Sample.twoContents World.empty)).state.points
            Sample.support).rows,
        pt.payload.doc_id = Sample.docA ∧
        pt.payload.source_content_hash ≠ incomingHash Sample.env Sample.replacing.body :=
  Sample.exists_uploaded (by decide +kernel)

end QdrantRag
