import QdrantRag.Effect.Turns
import QdrantRag.Verify.Disclosure
import QdrantRag.Verify.Grouping
import QdrantRag.Verify.Removal
import QdrantRag.Verify.Versions

/-! # What the points of a collection are

`embed_passages` lets no blank text through, so no request ever sends a point with one
(`only_fills`). With the ownership of points and their provenance this says what every point of
every collection is, whatever fails: the point that the pipeline builds of one chunk, in the
collection of its own pair, under the id of its own chunk (`points_wellFormed`). -/

namespace QdrantRag
open Keyed Effect Effect.Prog Text

variable {env : Env} {T B d n : String} {x : Upload} {S : Op → Prop} {content : String}

/-! ## Points of chunks -/

/-- The chunk at a position is numbered and measured as its text is. -/
theorem chunkItem_getElem? {source_type : String} {j : Nat} {chunk : Chunk}
    (h : (chunkItem env content source_type)[j]? = some chunk) :
    chunk = mkChunk env chunk.text j := by
  have hmade {groups : List (List String)} (h : (chunksOf env groups)[j]? = some chunk) :
      chunk = mkChunk env chunk.text j := by
    rw [chunksOf, List.getElem?_mapIdx, Option.map_eq_some_iff] at h
    obtain ⟨g, -, rfl⟩ := h
    rfl
  by_cases hcontent : strip content = ""
  · rw [chunkItem, if_pos hcontent] at h
    cases h
  · obtain ⟨-, hchunks⟩ | ⟨-, groups, -, hchunks⟩ := chunkItem_cases env source_type hcontent
    · exact hmade (hchunks ▸ h)
    · exact hmade (hchunks ▸ h)

/-- A chunk of the upload, by the position of its item and its own. -/
theorem mem_flatChunks {body : UploadBody} {f : Nat × UploadItem × Chunk}
    (h : f ∈ flatChunks env body) : body.items[f.1]? = some f.2.1 ∧
      ∃ j : Nat, (chunkItem env f.2.1.content body.source_type)[j]? = some f.2.2 := by
  obtain ⟨⟨item, k⟩, hitem, hf⟩ := List.mem_flatMap.mp h
  obtain ⟨chunk, hchunk, rfl⟩ := List.mem_map.mp hf
  exact ⟨List.mem_zipIdx_iff_getElem?.mp hitem, List.mem_iff_getElem?.mp hchunk⟩

/-- A point is built of the chunk and the embedding at its position. -/
theorem mem_buildPoints {embeddings : List Embedding} {pt : Point}
    (h : pt ∈ buildPoints env x embeddings) : ∃ (m : Nat) (f : Nat × UploadItem × Chunk) (e : _),
      (flatChunks env x.body)[m]? = some f ∧ embeddings[m]? = some e ∧
        pt = buildPoint env x (scrapedSource env x.body) (x.clock m) f.1 f.2.1 f.2.2 e := by
  obtain ⟨⟨⟨f, e⟩, m⟩, hmem, rfl⟩ := List.mem_map.mp h
  obtain ⟨hf, he⟩ := List.getElem?_zip_eq_some.mp (List.mem_zipIdx_iff_getElem?.mp hmem)
  exact ⟨m, f, e, hf, he, rfl⟩

theorem Upload.mem_points {pt : Point} (h : pt ∈ x.points env) :
    ∃ f ∈ flatChunks env x.body, ∃ m, pt = buildPoint env x (scrapedSource env x.body)
      (x.clock m) f.1 f.2.1 f.2.2 (env.encode f.2.2.text) := by
  obtain ⟨m, f, e, hf, he, rfl⟩ := mem_buildPoints h
  rw [List.getElem?_map, hf] at he
  cases he
  exact ⟨f, List.mem_of_getElem? hf, m, rfl⟩

/-! ## No blank text is sent -/

/-- No point of the call has a blank text. -/
def Op.Fills : Op → Prop
  | .upsert _ points => ∀ pt ∈ points, strip pt.payload.text ≠ ""
  | _ => True

/-- The collection is got or created by calls that write no points. -/
theorem only_getOrCreateCollection_quiet (hS : ∀ o : Op, o.quiet = true → S o) :
    (getOrCreateCollection env T B).Only S := by
  have hchecked (name : String) : (checkedName name).Only S := by
    refine Only.bind (Only.bind (only_perform (hS _ rfl)) fun _ => only_ofExcept _) fun diff => ?_
    exact Only.ite (fun _ => trivial) fun _ => trivial
  have hcreate : (createCollectionForBot env T B).Only S := by
    apply only_withRetry fun _ => hS _ rfl
    apply only_ofExcept_bind
    intro name _
    refine Only.bind (only_perform (hS _ rfl)) fun _ => ?_
    refine Only.bind (Only.each fun _ _ => only_perform (hS _ rfl)) fun _ => ?_
    trivial
  apply only_withRetry fun _ => hS _ rfl
  apply only_ofExcept_bind
  intro name _
  refine Only.bind (only_perform (hS _ rfl)) fun exists_ => ?_
  refine Only.ite (fun _ => hchecked name) fun _ => ?_
  apply hcreate.tryCatch
  intro exc
  unfold onUnexpectedResponse
  split
  · exact Only.ite (fun _ => hchecked name) fun _ => trivial
  · trivial

theorem Op.fills_of_quiet {o : Op} (h : o.quiet = true) : o.Fills := by
  cases o with
  | upsert => cases h
  | _ => trivial

theorem Op.Enters.fills {o : Op} (h : o.Enters) : o.Fills := by
  cases o with
  | upsert => cases h
  | _ => trivial

theorem Op.Deletes.fills {o : Op} (h : o.Deletes n d) : o.Fills := by
  cases o with
  | upsert => cases h
  | _ => trivial

theorem fills_refresh {row : Document} : (refresh x row).Only Op.Fills := by
  refine Only.bind (only_perform trivial) fun _ => ?_
  exact Only.bind (only_ofExcept _) fun _ => trivial

theorem fills_writeDocument {bot : Bot} {is_replace : Bool} {points : List Point}
    (h : ∀ pt ∈ points, strip pt.payload.text ≠ "") :
    (writeDocument env x bot is_replace n points).Only Op.Fills := by
  have hwrite (status : UploadStatus) : (do
      (call (.upsert n points)).tryCatch fun exc =>
        .throw (.upload .qdrantWrite "upsert failed: " (some exc)
          [("doc_id", .str x.doc_id), ("chunks", .int points.length)] none)
      call (.documentUpdateOrCreate x.doc_id (uploadDefaults env x bot points.length) x.now)
      return ⟨x.doc_id, points.length, x.body.items.length, n, status⟩ :
        Program UploadResult).Only Op.Fills := by
    refine Only.bind (Only.tryCatch (only_perform h) fun _ => trivial) fun _ => ?_
    exact Only.bind (only_perform trivial) fun _ => trivial
  have hclear : (deleteByDocId env x.tenant_id x.bot_id x.doc_id).Only Op.Fills :=
    only_deleteByDocId (fun _ => trivial) trivial trivial trivial
  cases is_replace with
  | false => exact hwrite _
  | true => exact Only.bind (hclear.tryCatch only_onQdrantError) fun _ => hwrite _

theorem fills_indexDocument {bot : Bot} {is_replace : Bool} :
    (indexDocument env x bot is_replace).Only Op.Fills := by
  have hcollection : (getOrCreateCollection env x.tenant_id x.bot_id).Only Op.Fills :=
    only_getOrCreateCollection_quiet fun _ => Op.fills_of_quiet
  refine Only.bind (hcollection.tryCatch only_onQdrantError) fun name => ?_
  refine Only.bind (only_perform trivial) fun _ => ?_
  refine Only.ite (fun _ => trivial) fun _ => Only.ite (fun _ => trivial) fun _ => ?_
  unfold embedPassages
  cases hchecked : checkTexts ((flatChunks env x.body).map (·.2.2.text)) with
  | error e => trivial
  | ok _ =>
    refine Only.bind (Only.tryCatch (only_perform trivial) fun _ => trivial) fun embeddings => ?_
    apply fills_writeDocument
    intro pt hpt
    obtain ⟨m, f, e, hf, -, rfl⟩ := mem_buildPoints hpt
    have hmem := List.mem_map_of_mem (f := (·.2.2.text)) (List.mem_of_getElem? hf)
    exact (checkTexts_eq_ok.mp hchecked).2 _ hmem

theorem only_fills (w : Write) : (w.program env).Only Op.Fills := by
  cases w with
  | delete x => exact (only_delete x).mono fun _ => Op.Deletes.fills
  | upload x =>
    refine Only.bind (only_uploadLock (fun _ => trivial) (fun _ => trivial) (fun _ => trivial) ?_)
      fun _ => trivial
    refine Only.bind (only_getOrCreateTenant fun _ => Op.Enters.fills) fun tenant => ?_
    refine Only.bind (only_getOrCreateBot fun _ => Op.Enters.fills) fun bot => ?_
    refine Only.bind (only_perform trivial) fun existing => ?_
    have hcheck : (checkOwner x existing).Only Op.Fills := by
      unfold checkOwner
      split
      · trivial
      · exact Only.ite (fun _ => trivial) fun _ => trivial
    refine Only.bind hcheck fun _ => ?_
    dsimp only
    split
    · exact fills_refresh
    · refine Only.bind (only_perform trivial) fun content_match => ?_
      split
      · exact fills_refresh
      · exact fills_indexDocument

/-! ## Every point -/

/-- The points of an upload that was sent have no blank text. -/
theorem Sent.filled {requests : Nat → Write} {sched : List (Nat × Fault)} {i : Nat}
    (h : Sent env requests (interleave env requests sched).log i x) :
    ∀ pt ∈ x.points env, strip pt.payload.text ≠ "" := by
  obtain ⟨ev, hev, ho⟩ := h.call
  have hfills : ev.op.Fills :=
    Pool.log_only (S := fun _ => Op.Fills) sched (fun i => only_fills (requests i))
      (fun _ h => by cases h) _ hev
  rw [ho] at hfills
  exact hfills

/-- **Every stored point is well formed.** At every moment of every run, whatever fails, a point of
a collection is what the pipeline builds of one chunk of an upload that was sent: its vectors are
those of its text, its id is that of its chunk, its collection is the one of its own pair, and its
text is not blank and within the cap. No two points of a collection are of one chunk id. -/
theorem points_wellFormed (env : Env) (requests : Nat → Write) (sched : List (Nat × Fault))
    (n : String) :
    let service := interleave env requests sched
    (∀ pt ∈ (service.state.points n).rows, ∃ i x item k j m text,
      Sent env requests service.log i x ∧ collectionName x.tenant_id x.bot_id = .ok n ∧
        x.body.items[k]? = some item ∧
        (chunkItem env item.content x.body.source_type)[j]? = some (mkChunk env text j) ∧
        pt = ⟨env.uuid5 (buildChunkId x.doc_id k j), (env.encode text).toVectors,
          buildPayload (mkChunk env text j) x.tenant_id x.bot_id x.doc_id
            ⟨k, item.section_path, getKey item.page_number⟩ (scrapedSource env x.body)
            (x.clock m)⟩ ∧
        strip text ≠ "" ∧ countTokens env text ≤ 600) ∧
    ∀ pt ∈ (service.state.points n).rows, ∀ pt' ∈ (service.state.points n).rows,
      pt.payload.chunk_id = pt'.payload.chunk_id → pt = pt' := by
  intro service
  obtain ⟨_, hsourced⟩ := sourced_interleave env requests sched
  obtain ⟨_, howning⟩ := owning_interleave env requests sched
  have hid {pt : Point} (hpt : pt ∈ (service.state.points n).rows) :
      pt.id = env.uuid5 pt.payload.chunk_id := by
    obtain ⟨i, x, -, -, hmem⟩ := hsourced n pt hpt
    exact Upload.id_of_mem hmem
  constructor
  · intro pt hpt
    obtain ⟨i, x, hsent, -, hmem⟩ := hsourced n pt hpt
    obtain ⟨b, -, hpair, hname⟩ := howning.inv.1.points n pt hpt
    obtain ⟨hT, hB⟩ := Prod.mk.inj (hpair.trans (Upload.owner_of_mem hmem).1)
    have hcollection : collectionName x.tenant_id x.bot_id = .ok n := by
      rw [← hT, ← hB, b.derived, hname]
    have hfilled := hsent.filled pt hmem
    obtain ⟨f, hf, m, rfl⟩ := Upload.mem_points hmem
    obtain ⟨hitem, j, hchunk⟩ := mem_flatChunks hf
    obtain ⟨k, item, chunk⟩ := f
    have hmade := chunkItem_getElem? hchunk
    have hfits := chunkItem_fits env item.content x.body.source_type chunk
      (List.mem_of_getElem? hchunk)
    refine ⟨i, x, item, k, j, m, chunk.text, hsent, hcollection, hitem, ?_, ?_, hfilled, hfits⟩
    · exact hchunk.trans (congrArg some hmade)
    · simp only at hmade ⊢
      rw [hmade]
      rfl
  · intro pt hpt pt' hpt' hsame
    apply (service.state.points n).eq_of_key hpt hpt'
    exact (hid hpt).trans ((congrArg env.uuid5 hsame).trans (hid hpt').symm)

end QdrantRag
