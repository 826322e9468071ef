import QdrantRag.Verify.Attempts

/-! # Schema drift

The schema of a collection is written twice: as the configuration it is created with, and as the
comparisons of `_compare_schema`. A collection may drift where the comparisons do not look, and a
single unnamed vector is not compared at all. -/

namespace QdrantRag
open Keyed Effect Effect.Prog

/-! ## Agreement -/

/-- `hnsw_config.m` -/
def VectorParams.hnswM (v : VectorParams) : Option Nat := v.hnsw_config.bind HnswConfigDiff.m

/-- The vectors agree in size, distance, HNSW m and comparator. -/
structure VectorParams.Agrees (v expected : VectorParams) : Prop where
  size : v.size = expected.size
  distance : v.distance = expected.distance
  hnswM : v.hnswM = expected.hnswM
  comparator : v.multivector_config = expected.multivector_config

/-- The named vectors of a configuration; none where it has a single unnamed one. -/
def CollectionParams.named (a : CollectionParams) : List (String × VectorParams) :=
  match a.vectors with
  | some (.named vectors) => vectors
  | _ => []

def CollectionParams.sparse (a : CollectionParams) : List (String × SparseVectorParams) :=
  a.sparse_vectors.getD []

/-- The configuration agrees with the one collections are created with. -/
structure CollectionParams.Agrees (a : CollectionParams) : Prop where
  vectors : ∀ e ∈ expectedVectorsConfig, ∃ v, a.named.lookup e.1 = some v ∧ v.Agrees e.2
  sparse_vectors : ∀ e ∈ expectedSparseVectorsConfig,
    ∃ v, a.sparse.lookup e.1 = some v ∧ v.modifier = e.2.modifier

/-- The configuration does not have a single unnamed vector. -/
def CollectionParams.Named (a : CollectionParams) : Prop := ∀ v, a.vectors ≠ some (.unnamed v)

/-- The configuration agrees where `_compare_schema` looks. -/
structure CollectionParams.Compared (a : CollectionParams) (dense colbert : VectorParams) :
    Prop where
  lookup_dense : a.named.lookup denseVectorName = some dense
  lookup_colbert : a.named.lookup colbertVectorName = some colbert
  dense_size : dense.size = denseVectorSize
  dense_distance : dense.distance = .cosine
  colbert_size : colbert.size = colbertVectorSize
  colbert_multivector : colbert.multivector_config.isSome
  modifier : ∃ v, a.sparse.lookup sparseVectorName = some v ∧ v.modifier = some .idf

/-- The vectors agree where it does not. -/
structure Uncompared (dense colbert : VectorParams) : Prop where
  dense_hnswM : dense.hnswM = some denseHnswM
  dense_multivector : dense.multivector_config = none
  colbert_distance : colbert.distance = .cosine
  colbert_hnswM : colbert.hnswM = some 0

theorem multivector_of_isSome {c : Option MultiVectorConfig} (h : c.isSome) :
    c = some ⟨.maxSim⟩ := by
  cases c with
  | none => cases h
  | some c => rfl

variable {a : CollectionParams} {dense colbert : VectorParams}

/-- To agree is to agree where the schema is compared and where it is not. -/
theorem CollectionParams.agrees_iff :
    a.Agrees ↔ ∃ dense colbert, a.Compared dense colbert ∧ Uncompared dense colbert := by
  constructor
  · intro h
    obtain ⟨dense, hdense, hd⟩ := h.vectors _ (.head _)
    obtain ⟨colbert, hcolbert, hc⟩ := h.vectors _ (.tail _ (.head _))
    have hmulti := hc.comparator
    exact ⟨dense, colbert, ⟨hdense, hcolbert, hd.size, hd.distance, hc.size, by rw [hmulti]; rfl,
      h.sparse_vectors _ (.head _)⟩, hd.hnswM, hd.comparator, hc.distance, hc.hnswM⟩
  · rintro ⟨dense, colbert, h, hu⟩
    refine ⟨List.forall_mem_cons.mpr ⟨⟨dense, h.lookup_dense, ?_⟩, List.forall_mem_singleton.mpr
      ⟨colbert, h.lookup_colbert, ?_⟩⟩, List.forall_mem_singleton.mpr h.modifier⟩
    · exact ⟨h.dense_size, h.dense_distance, hu.dense_hnswM, hu.dense_multivector⟩
    · exact ⟨h.colbert_size, hu.colbert_distance, hu.colbert_hnswM,
        multivector_of_isSome h.colbert_multivector⟩

/-! ## The comparisons -/

theorem schemaDiff_unnamed {v : VectorParams} (h : a.vectors = some (.unnamed v)) :
    ∃ e, schemaDiff a = .error e := by
  unfold schemaDiff CollectionParams.vector
  rw [h]
  exact ⟨_, rfl⟩

theorem vector_of_named (h : a.Named) (name : String) :
    a.vector name = .ok (a.named.lookup name) := by
  cases a with
  | mk vectors sparse_vectors =>
    cases vectors with
    | none => rfl
    | some vectors =>
      cases vectors with
      | named vectors => rfl
      | unnamed v => exact absurd rfl (h v)

/-- A comparison finds nothing where it holds. -/
theorem noted_eq_nil {α : Type} {c : Prop} [Decidable c] {x : α} :
    (if c then [] else [x]) = [] ↔ c := by
  split
  · next hc => exact ⟨fun _ => hc, fun _ => rfl⟩
  · next hc => exact ⟨nofun, fun h => absurd h hc⟩

/-- Named vectors are compared, and no difference is found where they agree. -/
theorem schemaDiff_of_named (h : a.Named) :
    ∃ diff, schemaDiff a = .ok diff ∧ (diff = [] ↔ ∃ dense colbert, a.Compared dense colbert) := by
  unfold schemaDiff
  rw [vector_of_named h, vector_of_named h]
  refine ⟨_, rfl, ?_⟩
  constructor
  · intro hdiff
    simp only [List.append_eq_nil_iff] at hdiff
    obtain ⟨⟨⟨⟨hsize, hdistance⟩, hcsize⟩, hcmulti⟩, hsparse⟩ := hdiff
    cases hdense : a.named.lookup denseVectorName with
    | none => simp [hdense] at hsize
    | some dense =>
      cases hcolbert : a.named.lookup colbertVectorName with
      | none => simp [hcolbert] at hcsize
      | some colbert =>
        simp only [hdense, Option.any_some, decide_eq_true_eq, noted_eq_nil] at hsize hdistance
        simp only [hcolbert, Option.any_some, decide_eq_true_eq, noted_eq_nil] at hcsize hcmulti
        refine ⟨dense, colbert, hdense, hcolbert, hsize, hdistance, hcsize, hcmulti, ?_⟩
        split at hsparse
        · cases hsparse
        · next v hv => exact ⟨v, hv, noted_eq_nil.mp hsparse⟩
  · rintro ⟨dense, colbert, hc⟩
    obtain ⟨v, hv, hmodifier⟩ := hc.modifier
    have hsparse : (a.sparse_vectors.getD []).lookup sparseVectorName = some v := hv
    simp [hc.lookup_dense, hc.lookup_colbert, hc.dense_size, hc.dense_distance, hc.colbert_size,
      hc.colbert_multivector, hsparse, hmodifier]

/-! ## What a caller sees -/

section Callers
variable {env : Env} {i : Nat} {n T B : String} {s : World} {col : Collection}

/-- Without failures, `_compare_schema` gives what the comparisons give. -/
theorem run_compareSchema (hcol : s.collections.find? n = some col) :
    ((compareSchema n).run (exec env i) (fun _ => .none) s).reply = schemaDiff col.params := by
  have hget : Returns (exec env i) .none (call (.getCollection n)) s col.params s :=
    returns_serve (by simp only [serve, hcol])
  unfold compareSchema
  rw [hget.reply_bind]
  cases schemaDiff col.params <;> rfl

/-- The run ends with the schema mismatch, or some call of it failed and it raises. -/
def EndsInMismatch (env : Env) (i : Nat) (n : String) : Post Op Exc String Fault World :=
  fun tr r _ => (∃ diff, r = .error (.schemaMismatch n diff)) ∨
    (∃ e, r = .error e) ∧ ∃ ev ∈ tr, Event.ok (exec env i) ev = false

/-- A call that only looks leaves the state, whether it fails or not. -/
theorem exec_look {o : Op} {c : Fault} {a : Ans o} (hl : o.isLock = false) (hs : o.isLocal = false)
    (hserve : serve env i o s = .ok (a, s)) :
    exec env i o c s = (.ok a, s) ∨
      ∃ e, exec env i o c s = (.error e, s) ∧ Event.ok (exec env i) ⟨o, c, s⟩ = false := by
  rcases exec_cases env i c s hl hs with ⟨-, e, he⟩ | ⟨-, a', s', hserve', he | ⟨e, he⟩⟩
  · exact .inr ⟨e, he, event_not_ok (by rw [he])⟩
  · cases hserve.symm.trans hserve'
    exact .inl he
  · cases hserve.symm.trans hserve'
    exact .inr ⟨e, he, event_not_ok (by rw [he])⟩

/-- An attempt on a collection in which a difference is found. -/
theorem ends_driftedAttempt (hname : collectionName T B = .ok n)
    (hcol : s.collections.find? n = some col) {diff : List (String × String)}
    (hdiff : schemaDiff col.params = .ok diff) (hne : diff ≠ []) :
    (provisionAttempt env T B).Ends (exec env i) anyChoice s fun tr r s' =>
      s' = s ∧ EndsInMismatch env i n tr r s' := by
  have hexists : serve env i (.collectionExists n) s = .ok (true, s) := by
    simp only [serve, hcol]
    rfl
  have hget : serve env i (.getCollection n) s = .ok (col.params, s) := by simp only [serve, hcol]
  unfold provisionAttempt
  apply (ends_ofExcept_bind hname).mpr
  apply ends_bind.mpr
  apply ends_perform.mpr
  intro c _
  rcases exec_look (c := c) rfl rfl hexists with he | ⟨e, he, hfailed⟩
  · rw [he, next_ok, if_pos rfl]
    apply ends_bind.mpr
    apply ends_bind.mpr
    apply ends_perform.mpr
    intro c' _
    rcases exec_look (c := c') rfl rfl hget with he' | ⟨e, he', hfailed⟩
    · rw [he', next_ok, ends_ofExcept, hdiff, next_ok, if_neg hne]
      exact ⟨rfl, .inl ⟨diff, rfl⟩⟩
    · rw [he']
      exact ⟨rfl, .inr ⟨⟨e, rfl⟩, _, .tail _ (.head _), hfailed⟩⟩
  · rw [he]
    exact ⟨rfl, .inr ⟨⟨e, rfl⟩, _, .head _, hfailed⟩⟩

/-- A difference that is found is raised, unless calls fail until the attempts are used up. -/
theorem ends_drifted (hname : collectionName T B = .ok n)
    (hcol : s.collections.find? n = some col) {diff : List (String × String)}
    (hdiff : schemaDiff col.params = .ok diff) (hne : diff ≠ []) :
    (getOrCreateCollection env T B).Ends (exec env i) anyChoice s (EndsInMismatch env i n) := by
  rw [getOrCreateCollection_eq, withRetry]
  apply ends_retryLoop (fun _ tr t => t = s) (fun _ _ _ => exec_sleep) _ (by omega) rfl
  rintro m tr _ rfl
  refine (ends_driftedAttempt hname hcol hdiff hne).mono fun tr' r t ⟨hstate, hr⟩ => ?_
  rcases hr with ⟨diff', rfl⟩ | ⟨⟨e, rfl⟩, ev, hev, hfailed⟩
  · exact .inl ⟨diff', rfl⟩
  · dsimp only
    have hend {e : Exc} : EndsInMismatch env i n (tr ++ tr') (.error e) t :=
      .inr ⟨⟨e, rfl⟩, ev, List.mem_append_right _ hev, hfailed⟩
    split
    · exact hend
    · split
      · exact hend
      · exact fun _ _ => hstate

end Callers

/-! ## The theorem -/

/-- Drift from the locked schema is detected in a collection with the configuration `a`: the schema
is compared without an exception, no difference is found only where it agrees, and otherwise
`get_or_create_collection` raises the mismatch. -/
def Detects (env : Env) (a : CollectionParams) : Prop :=
  ∀ (i : Nat) (T B n : String) (s : World) (col : Collection), collectionName T B = .ok n →
    s.collections.find? n = some col → col.params = a →
      (∃ diff, ((compareSchema n).run (exec env i) (fun _ => .none) s).reply = .ok diff ∧
        (diff = [] → a.Agrees)) ∧
      (¬ a.Agrees → ∀ faults : Nat → Fault,
        let o := (getOrCreateCollection env T B).run (exec env i) faults s
        EndsInMismatch env i n o.trace o.reply o.state)

/-- The collection of `acme` with another configuration. -/
def Sample.configured (a : CollectionParams) : World :=
  { World.empty with collections := Table.empty.put ⟨support, a, [], .empty⟩ }

theorem Detects.compared {env : Env} {a : CollectionParams} (h : Detects env a) :
    ∃ diff, schemaDiff a = .ok diff ∧ (diff = [] → a.Agrees) := by
  have hname : collectionName "acme" "support" = .ok Sample.support :=
    collectionName_eq_ok.mpr ⟨by decide, by decide, rfl⟩
  have hcol : (Sample.configured a).collections.find? Sample.support =
      some ⟨Sample.support, a, [], .empty⟩ := Table.find?_put_self
  obtain ⟨diff, hreply, hagrees⟩ := (h 0 _ _ _ _ _ hname hcol rfl).1
  rw [run_compareSchema hcol] at hreply
  exact ⟨diff, hreply, hagrees⟩

/-- **Where drift is detected**: in the configurations that do not have a single unnamed vector, and
agree in what is not compared if they do in what is. -/
theorem drift_detected_iff (env : Env) (a : CollectionParams) :
    Detects env a ↔
      a.Named ∧ ∀ dense colbert, a.Compared dense colbert → Uncompared dense colbert := by
  constructor
  · intro h
    obtain ⟨diff, hreply, hagrees⟩ := h.compared
    have hnamed : a.Named := by
      intro v hv
      obtain ⟨e, he⟩ := schemaDiff_unnamed hv
      rw [he] at hreply
      cases hreply
    refine ⟨hnamed, fun dense colbert hc => ?_⟩
    obtain ⟨diff', hdiff, hnil⟩ := schemaDiff_of_named hnamed
    cases hdiff.symm.trans hreply
    obtain ⟨dense', colbert', hc', hu⟩ :=
      CollectionParams.agrees_iff.mp (hagrees (hnil.mpr ⟨dense, colbert, hc⟩))
    cases hc.lookup_dense.symm.trans hc'.lookup_dense
    cases hc.lookup_colbert.symm.trans hc'.lookup_colbert
    exact hu
  · rintro ⟨hnamed, huncompared⟩ i T B n s col hname hcol rfl
    obtain ⟨diff, hdiff, hnil⟩ := schemaDiff_of_named hnamed
    have hagrees (h : diff = []) : col.params.Agrees := by
      obtain ⟨dense, colbert, hc⟩ := hnil.mp h
      exact CollectionParams.agrees_iff.mpr ⟨dense, colbert, hc, huncompared _ _ hc⟩
    refine ⟨⟨diff, (run_compareSchema hcol).trans hdiff, hagrees⟩, fun hnot faults => ?_⟩
    have hends : (getOrCreateCollection env T B).Ends (exec env i) anyChoice s
        (EndsInMismatch env i n) := ends_drifted hname hcol hdiff fun h => hnot (hagrees h)
    exact hends.run fun _ => trivial

/-- A collection whose ColBERT vectors are indexed, and compared by their dot product. -/
def Sample.drifted : CollectionParams :=
  ⟨some (.named [("dense", ⟨1024, .cosine, some ⟨some 16, some 128⟩, none⟩),
    ("colbert", ⟨1024, .dot, some ⟨some 16, none⟩, some ⟨.maxSim⟩⟩)]),
    some [("bm25", ⟨some false, some .idf⟩)]⟩

/-- A collection with one unnamed vector. -/
def Sample.unnamed : CollectionParams := ⟨some (.unnamed ⟨1024, .cosine, none, none⟩), none⟩

/-- No difference is found in a collection that differs, and another one is not compared. -/
theorem drift_undetected : schemaDiff Sample.drifted = .ok [] ∧ ¬ Sample.drifted.Agrees ∧
    ¬ Detects Sample.env Sample.drifted ∧ ¬ Detects Sample.env Sample.unnamed := by
  have hnot : ¬ Sample.drifted.Agrees := by
    intro h
    obtain ⟨v, hv, hagrees⟩ := h.vectors _ (.tail _ (.head _))
    cases hv
    cases hagrees.distance
  refine ⟨rfl, hnot, fun h => ?_, fun h => ?_⟩
  · obtain ⟨diff, hdiff, hagrees⟩ := h.compared
    exact hnot (hagrees (Except.ok.inj (hdiff.symm.trans rfl)))
  · obtain ⟨diff, hdiff, -⟩ := h.compared
    cases hdiff

end QdrantRag
