import Mathlib.Data.Set.Function
import QdrantRag.Model.Service

/-! # The points of an upload

Chunk ids are injective in the document, the item and the chunk (`buildChunkId_inj`), the chunks of
an item are numbered in order, and so the points an upload writes (`Upload.points`) have distinct
ids wherever `uuid5` does not collide on their chunk ids. -/

namespace QdrantRag
open Keyed Text

/-! ## Chunk ids -/

/-- What precedes and what follows the last separator. -/
theorem append_cons_inj_right {α : Type} {sep : α} {xs ys xs' ys' : List α}
    (h : xs ++ sep :: ys = xs' ++ sep :: ys') (hy : sep ∉ ys) (hy' : sep ∉ ys') :
    xs = xs' ∧ ys = ys' := by
  rcases List.append_eq_append_iff.mp h with ⟨zs, rfl, hz⟩ | ⟨zs, rfl, hz⟩
  · cases zs with
    | nil =>
      obtain ⟨_, rfl⟩ := List.cons_eq_cons.mp hz
      exact ⟨(List.append_nil xs).symm, rfl⟩
    | cons z zs =>
      obtain ⟨_, rfl⟩ := List.cons_eq_cons.mp hz
      exact absurd (List.mem_append_right _ List.mem_cons_self) hy
  · cases zs with
    | nil =>
      obtain ⟨_, rfl⟩ := List.cons_eq_cons.mp hz
      exact ⟨List.append_nil xs', rfl⟩
    | cons z zs =>
      obtain ⟨_, rfl⟩ := List.cons_eq_cons.mp hz
      exact absurd (List.mem_append_right _ List.mem_cons_self) hy'

theorem toDigits_inj {m n : Nat} (h : Nat.toDigits 10 m = Nat.toDigits 10 n) : m = n := by
  have := congrArg (fun ds => Nat.ofDigitChars 10 ds 0) h
  simpa only [Nat.ofDigitChars_ten_toDigits] using this

theorem notMem_toDigits {ch : Char} (h : ch.isDigit = false) (n : Nat) :
    ch ∉ Nat.toDigits 10 n := fun hm => by
  have := Nat.isDigit_of_mem_toDigits (by decide) (by decide) hm
  rw [h] at this
  cases this

/-- A chunk id determines the document, the item and the chunk. -/
theorem buildChunkId_inj {d d' : String} {k k' j j' : Nat}
    (h : buildChunkId d k j = buildChunkId d' k' j') : d = d' ∧ k = k' ∧ j = j' := by
  have hl := congrArg String.toList h
  simp only [buildChunkId, String.toList_append, Nat.toString_eq_repr, Nat.toList_repr] at hl
  have hc : (d.toList ++ "__i".toList ++ Nat.toDigits 10 k ++ ['_', '_']) ++
        'c' :: Nat.toDigits 10 j =
      (d'.toList ++ "__i".toList ++ Nat.toDigits 10 k' ++ ['_', '_']) ++
        'c' :: Nat.toDigits 10 j' := by
    simpa using hl
  obtain ⟨hk, hj⟩ := append_cons_inj_right hc (notMem_toDigits rfl j) (notMem_toDigits rfl j')
  have hi : (d.toList ++ ['_', '_']) ++ 'i' :: Nat.toDigits 10 k =
      (d'.toList ++ ['_', '_']) ++ 'i' :: Nat.toDigits 10 k' := by
    simpa using List.append_cancel_right hk
  obtain ⟨hd, hk⟩ := append_cons_inj_right hi (notMem_toDigits rfl k) (notMem_toDigits rfl k')
  exact ⟨String.toList_inj.mp (List.append_cancel_right hd), toDigits_inj hk, toDigits_inj hj⟩

/-! ## Chunks -/

theorem chunk_index_chunkStep (env : Env) {chunks : List Chunk} (raw_text : String)
    (h : chunks.map Chunk.chunk_index = List.range chunks.length) :
    (chunkStep env chunks raw_text).map Chunk.chunk_index =
      List.range (chunkStep env chunks raw_text).length := by
  have happ (text : String) : (chunks ++ [mkChunk env text chunks.length]).map Chunk.chunk_index =
      List.range (chunks ++ [mkChunk env text chunks.length]).length := by
    simp [h, List.range_succ, mkChunk]
  simp only [chunkStep]
  split
  · exact h
  · split
    · next prev hprev =>
      split
      · -- the merged chunk keeps the place and the number of the one it replaces
        obtain ⟨init, rfl⟩ := List.getLast?_eq_some_iff.mp hprev
        simpa [mkChunk] using h
      · exact happ _
    · exact happ _

/-- The chunks of an item are numbered from 0. -/
theorem chunk_index_chunkItem (env : Env) (content source_type : String) :
    (chunkItem env content source_type).map Chunk.chunk_index =
      List.range (chunkItem env content source_type).length := by
  have hfold (texts : List String) (chunks : List Chunk)
      (h : chunks.map Chunk.chunk_index = List.range chunks.length) :
      (texts.foldl (chunkStep env) chunks).map Chunk.chunk_index =
        List.range (texts.foldl (chunkStep env) chunks).length := by
    induction texts generalizing chunks with
    | nil => exact h
    | cons text texts ih => exact ih _ (chunk_index_chunkStep env text h)
  unfold chunkItem
  split
  · rfl
  · simp only
    split
    · rfl
    · exact hfold _ _ rfl

/-- An item that is not blank has a chunk. -/
theorem chunkItem_ne_nil (env : Env) {content : String} (source_type : String)
    (h : strip content ≠ "") : chunkItem env content source_type ≠ [] := by
  unfold chunkItem
  rw [if_neg h]
  simp only
  split
  · simp
  · assumption

/-- The item's position and the chunk's number. -/
def flatIndex (f : Nat × UploadItem × Chunk) : Nat × Nat := (f.1, f.2.2.chunk_index)

/-- No two chunks of an upload have both numbers in common. -/
theorem nodup_flatIndex (env : Env) (body : UploadBody) :
    ((flatChunks env body).map flatIndex).Nodup := by
  have hmap : (flatChunks env body).map flatIndex = body.items.zipIdx.flatMap fun e =>
      (List.range (chunkItem env e.1.content body.source_type).length).map (e.2, ·) := by
    unfold flatChunks
    rw [List.map_flatMap]
    refine congrArg (body.items.zipIdx.flatMap ·) (funext fun e => ?_)
    rw [← chunk_index_chunkItem, List.map_map, List.map_map]
    rfl
  have hidx : (body.items.zipIdx.map Prod.snd).Nodup := by
    rw [List.zipIdx_map_snd]
    exact List.nodup_range'
  rw [hmap, List.nodup_flatMap]
  refine ⟨fun e _ => List.nodup_range.map fun _ _ h => congrArg Prod.snd h, ?_⟩
  refine (List.pairwise_map.mp hidx).imp fun {e e'} hne => ?_
  simp only [Function.onFun, List.disjoint_left, List.mem_map]
  rintro _ ⟨_, _, rfl⟩ ⟨_, _, h⟩
  exact hne (congrArg Prod.fst h).symm

/-! ## Points -/

/-- The points an upload writes. -/
def Upload.points (env : Env) (x : Upload) : List Point :=
  buildPoints env x ((flatChunks env x.body).map fun f => env.encode f.2.2.text)

/-- A point as `buildPoint` makes it of one chunk, up to the time on it. -/
structure PointOf (env : Env) (x : Upload) (f : Nat × UploadItem × Chunk) (pt : Point) : Prop where
  id : pt.id = env.uuid5 (buildChunkId x.doc_id f.1 f.2.2.chunk_index)
  chunk_id : pt.payload.chunk_id = buildChunkId x.doc_id f.1 f.2.2.chunk_index
  owner : pt.payload.owner = (x.tenant_id, x.bot_id)
  doc_id : pt.payload.doc_id = x.doc_id
  text : pt.payload.text = f.2.2.text
  source_item_index : pt.payload.source_item_index = f.1
  source_content_hash : pt.payload.source_content_hash = incomingHash env x.body
  vector : pt.vector = (env.encode f.2.2.text).toVectors

theorem pointOf_buildPoint (env : Env) (x : Upload) (f : Nat × UploadItem × Chunk)
    (uploaded_at : Timestamp) :
    PointOf env x f (buildPoint env x (scrapedSource env x.body) uploaded_at f.1 f.2.1 f.2.2
      (env.encode f.2.2.text)) where
  id := rfl
  chunk_id := rfl
  owner := rfl
  doc_id := rfl
  text := rfl
  source_item_index := rfl
  source_content_hash := by simp only [buildPoint, buildPayload, scrapedSource]
  vector := rfl

/-- The points of an upload are one for each of its chunks, in order. -/
theorem Upload.pointOf_points (env : Env) (x : Upload) :
    List.Forall₂ (PointOf env x) (flatChunks env x.body) (x.points env) := by
  refine List.forall₂_iff_get.mpr ⟨by simp [points, buildPoints], fun k h₁ h₂ => ?_⟩
  simp only [points, buildPoints, List.get_eq_getElem, List.getElem_map, List.getElem_zipIdx,
    List.getElem_zip]
  exact pointOf_buildPoint env x _ _

theorem Upload.length_points (env : Env) (x : Upload) :
    (x.points env).length = (flatChunks env x.body).length :=
  (x.pointOf_points env).length_eq.symm

theorem exists_of_forall₂ {α β : Type} {R : α → β → Prop} {l : List α} {l' : List β} {b : β}
    (h : List.Forall₂ R l l') (hb : b ∈ l') : ∃ a ∈ l, R a b := by
  induction h with
  | nil => cases hb
  | @cons a _ _ _ hR _ ih =>
    rcases List.mem_cons.mp hb with rfl | hb
    · exact ⟨a, List.mem_cons_self, hR⟩
    · exact (ih hb).imp fun _ hm => ⟨List.mem_cons_of_mem _ hm.1, hm.2⟩

theorem Upload.pointOf_of_mem {env : Env} {x : Upload} {pt : Point} (h : pt ∈ x.points env) :
    ∃ f ∈ flatChunks env x.body, PointOf env x f pt := exists_of_forall₂ (x.pointOf_points env) h

theorem Upload.owner_of_mem {env : Env} {x : Upload} {pt : Point} (h : pt ∈ x.points env) :
    pt.payload.owner = (x.tenant_id, x.bot_id) ∧ pt.payload.doc_id = x.doc_id ∧
      pt.payload.source_content_hash = incomingHash env x.body := by
  obtain ⟨f, _, hf⟩ := pointOf_of_mem h
  exact ⟨hf.owner, hf.doc_id, hf.source_content_hash⟩

/-- No two points of an upload are about one chunk. -/
theorem Upload.nodup_chunk_ids (env : Env) (x : Upload) :
    ((x.points env).map (·.payload.chunk_id)).Nodup := by
  have hids : (x.points env).map (·.payload.chunk_id) = (flatChunks env x.body).map fun f =>
      buildChunkId x.doc_id (flatIndex f).1 (flatIndex f).2 := by
    have h : List.Forall₂ (fun f pt => pt.payload.chunk_id =
        buildChunkId x.doc_id (flatIndex f).1 (flatIndex f).2)
        (flatChunks env x.body) (x.points env) :=
      (x.pointOf_points env).imp fun _ _ h => h.chunk_id
    generalize flatChunks env x.body = flat at h ⊢
    generalize x.points env = pts at h ⊢
    induction h with
    | nil => rfl
    | cons hf _ ih => rw [List.map_cons, List.map_cons, hf, ih]
  have hnd := nodup_flatIndex env x.body
  rw [hids]
  rw [List.Nodup, List.pairwise_map] at hnd ⊢
  refine hnd.imp fun hne he => hne ?_
  obtain ⟨_, hk, hj⟩ := buildChunkId_inj he
  exact Prod.ext hk hj

/-- A point's id is that of its chunk. -/
theorem Upload.id_of_mem {env : Env} {x : Upload} {pt : Point} (h : pt ∈ x.points env) :
    pt.id = env.uuid5 pt.payload.chunk_id := by
  obtain ⟨f, -, hf⟩ := pointOf_of_mem h
  rw [hf.id, hf.chunk_id]

theorem Upload.exists_chunk_id {env : Env} {x : Upload} {pt : Point} (h : pt ∈ x.points env) :
    ∃ k j, pt.payload.chunk_id = buildChunkId pt.payload.doc_id k j := by
  obtain ⟨f, -, hf⟩ := pointOf_of_mem h
  exact ⟨f.1, f.2.2.chunk_index, hf.doc_id ▸ hf.chunk_id⟩

/-! ## Point ids -/

/-- The ids of the chunks that the requests `W` write. -/
def chunkIds (env : Env) (W : Set Write) : Set String :=
  {id | ∃ x, .upload x ∈ W ∧ ∃ pt ∈ x.points env, pt.payload.chunk_id = id}

/-- `uuid5` does not collide on the chunk ids of the requests `W`. -/
def Env.DistinctIds (env : Env) (W : Set Write) : Prop := Set.InjOn env.uuid5 (chunkIds env W)

section DistinctIds
variable {env : Env} {W : Set Write} {x y : Upload} {pt q : Point}

theorem Env.DistinctIds.chunk_id_eq (h : env.DistinctIds W) (hx : .upload x ∈ W)
    (hy : .upload y ∈ W) (hpt : pt ∈ x.points env) (hq : q ∈ y.points env) (he : pt.id = q.id) :
    pt.payload.chunk_id = q.payload.chunk_id := by
  rw [Upload.id_of_mem hpt, Upload.id_of_mem hq] at he
  exact h ⟨x, hx, pt, hpt, rfl⟩ ⟨y, hy, q, hq, rfl⟩ he

/-- Points with one id are of one document. -/
theorem Env.DistinctIds.doc_id_eq (h : env.DistinctIds W) (hx : .upload x ∈ W)
    (hy : .upload y ∈ W) (hpt : pt ∈ x.points env) (hq : q ∈ y.points env) (he : pt.id = q.id) :
    pt.payload.doc_id = q.payload.doc_id := by
  obtain ⟨k, j, hid⟩ := Upload.exists_chunk_id hpt
  obtain ⟨k', j', hid'⟩ := Upload.exists_chunk_id hq
  exact (buildChunkId_inj (hid.symm.trans ((h.chunk_id_eq hx hy hpt hq he).trans hid'))).1

/-- No two points of an upload have one id. -/
theorem Upload.nodup_points (h : env.DistinctIds W) (hx : .upload x ∈ W) :
    ((x.points env).map HasKey.key).Nodup := by
  have hchunks := x.nodup_chunk_ids env
  rw [List.Nodup, List.pairwise_map] at hchunks ⊢
  exact hchunks.imp_of_mem fun hpt hpt' hne he => hne (h.chunk_id_eq hx hx hpt hpt' he)

end DistinctIds

/-- What an upload stores of its embeddings are its points. -/
theorem buildPoints_encode (env : Env) (x : Upload) :
    buildPoints env x (((flatChunks env x.body).map (·.2.2.text)).map env.encode) =
      x.points env := by
  rw [List.map_map]
  rfl

end QdrantRag
