import Mathlib.Data.String.Basic
import QdrantRag.Data.Ranking
import QdrantRag.Verify.Outage

/-! # What a search ranks

How Qdrant's documentation says that a tree of prefetches is evaluated (`Engine.queryPoints`), and
what the tree of `search` comes to: the fusion drops no candidate, so its weights have no effect,
and the result is the ranking of the candidates by their ColBERT score. -/

namespace QdrantRag
open Keyed Effect Effect.Prog Ranking

/-! ## The documented evaluation -/

/-- The scores Qdrant computes, where a point has one, the constant of its fusion, and the order of
points with equal scores. -/
structure Engine (τ : Type) where
  /-- The similarity of a point to a query, by the vector of the name. -/
  similarity : PrefetchQuery → Option String → Point → Option Rat
  maxSim : List (List Rat) → String → Point → Option Rat
  k : Rat
  tie : String → τ
  tie_injective : Function.Injective tie

namespace Engine
variable {τ : Type} [LinearOrder τ] (engine : Engine τ)

/-- The points a query chooses from: all, or those its prefetches have found. -/
def sources (pts : List Point) : List Prefetch → List (List (Point × Rat)) → List Point
  | [], _ => pts
  | _ :: _, found => union (found.map (·.map Prod.fst))

/-- The score of a point in a prefetch: its similarity, or its reciprocal ranks in what the inner
prefetches have found. -/
def score (query : PrefetchQuery) (vector_name : Option String) (found : List (List (Point × Rat)))
    (p : Point) : Option Rat :=
  match query with
  | .fusionRrf => some (rrf engine.k (found.map (·.map Prod.fst)) p)
  | query => engine.similarity query vector_name p

mutual
/-- The points a prefetch finds, with their scores. -/
def prefetch (pts : List Point) : Prefetch → List (Point × Rat)
  | .mk inner query vector_name limit filter =>
    best (engine.tie ·.id) limit (engine.score query vector_name (prefetchAll pts inner))
      ((sources pts inner (prefetchAll pts inner)).filter fun p =>
        filter.all fun f => f.holds p.payload)

def prefetchAll (pts : List Point) : List Prefetch → List (List (Point × Rat))
  | [] => []
  | p :: ps => prefetch pts p :: prefetchAll pts ps
end

/-- The best points by their ColBERT score, among those that reach the threshold. -/
def rerank (query : List (List Rat)) (vector_name : String) (threshold : Rat) (limit : Nat)
    (candidates : List Point) : List ScoredPoint :=
  (best (engine.tie ·.id) limit (fun p =>
    (engine.maxSim query vector_name p).filter fun r => threshold ≤ r) candidates).map fun x =>
      ⟨x.1.id, x.1.payload, x.2⟩

/-- `client.query_points` -/
def queryPoints (pts : List Point) (request : QueryRequest) : List ScoredPoint :=
  engine.rerank request.query request.vector_name request.score_threshold request.limit
    ((sources pts request.prefetch (engine.prefetchAll pts request.prefetch)).filter fun p =>
      request.query_filter.holds p.payload)

end Engine

/-! ## The candidates of a search -/

section Candidates
variable {τ : Type} [LinearOrder τ] (engine : Engine τ) (x : Search) (e : Embedding)
  (pts : List Point)

/-- The best 50 points by one vector of the query, among those that pass the filter. -/
def Engine.nearest (query : PrefetchQuery) (vector_name : String) : List Point :=
  (best (engine.tie ·.id) prefetchLimit (engine.similarity query (some vector_name))
    (pts.filter fun p => (buildFilter x).holds p.payload)).map Prod.fst

def Engine.dense : List Point := engine.nearest x pts (.dense e.dense) denseVectorName

def Engine.sparse : List Point :=
  engine.nearest x pts (.sparse (sparseToQdrant e.sparse)) sparseVectorName

/-- The best dense and the best sparse candidates, each once. -/
def Engine.candidates : List Point := union [engine.dense x e pts, engine.sparse x e pts]

/-- The weighted sum of the reciprocal ranks of a candidate in the two lists. -/
def Engine.weighted (dense_weight sparse_weight : Rat) (p : Point) : Rat :=
  dense_weight * reciprocalRank engine.k (engine.dense x e pts) p +
    sparse_weight * reciprocalRank engine.k (engine.sparse x e pts) p

/-- The prefetches of a search, each vector given as often as it weighs. -/
def weightedPrefetches (dense_weight sparse_weight : Nat) : List Prefetch :=
  List.replicate dense_weight
      (.mk [] (.dense e.dense) (some denseVectorName) prefetchLimit (some (buildFilter x))) ++
    List.replicate sparse_weight
      (.mk [] (.sparse (sparseToQdrant e.sparse)) (some sparseVectorName) prefetchLimit
        (some (buildFilter x)))

def weightedFusion (dense_weight sparse_weight : Nat) : Prefetch :=
  .mk (weightedPrefetches x e dense_weight sparse_weight) .fusionRrf none fusionLimit none

/-- The request of a search whose fusion has the given weights. -/
def weightedRequest (dense_weight sparse_weight : Nat) : QueryRequest :=
  { searchRequest x e with prefetch := [weightedFusion x e dense_weight sparse_weight] }

theorem searchRequest_eq :
    searchRequest x e = weightedRequest x e rrfDenseWeight rrfSparseWeight := rfl

end Candidates

/-! ## The tree of a search -/

section Tree
variable {τ : Type} [LinearOrder τ] {engine : Engine τ} {x : Search} {e : Embedding}

theorem Engine.prefetchAll_eq {pts : List Point} (ps : List Prefetch) :
    engine.prefetchAll pts ps = ps.map (engine.prefetch pts) := by
  induction ps with
  | nil => rfl
  | cons p ps ih =>
    rw [prefetchAll, ih]
    rfl

theorem Engine.sources_of_ne_nil {pts : List Point} {ps : List Prefetch}
    {found : List (List (Point × Rat))} (h : ps ≠ []) :
    sources pts ps found = union (found.map (·.map Prod.fst)) := by
  cases ps with
  | nil => exact absurd rfl h
  | cons p ps => rfl

theorem Engine.mem_nearest {pts : List Point} {query : PrefetchQuery} {vector_name : String}
    {p : Point} (h : p ∈ engine.nearest x pts query vector_name) :
    p ∈ pts ∧ (buildFilter x).holds p.payload = true := by
  obtain ⟨y, hy, rfl⟩ := List.mem_map.mp h
  exact List.mem_filter.mp (mem_of_mem_best hy).1

/-- The candidates are points of the collection that pass the filter. -/
theorem Engine.mem_candidates {pts : List Point} {p : Point}
    (h : p ∈ engine.candidates x e pts) : p ∈ pts ∧ (buildFilter x).holds p.payload = true := by
  obtain ⟨l, hl, hp⟩ := mem_union.mp h
  rcases List.mem_cons.mp hl with rfl | hl
  · exact mem_nearest hp
  · rw [List.mem_singleton.mp hl] at hp
    exact mem_nearest hp

/-- Two lists of 50 have at most 100 elements together. -/
theorem Engine.length_candidates {pts : List Point} :
    (engine.candidates x e pts).length ≤ fusionLimit := by
  have hdense : (engine.dense x e pts).length ≤ prefetchLimit := by
    unfold dense nearest
    rw [List.length_map]
    exact length_best_le
  have hsparse : (engine.sparse x e pts).length ≤ prefetchLimit := by
    unfold sparse nearest
    rw [List.length_map]
    exact length_best_le
  have hunion : (engine.candidates x e pts).length ≤
      ([engine.dense x e pts, engine.sparse x e pts].flatten).length := length_union_le
  simp only [List.flatten_cons, List.flatten_nil, List.append_nil, List.length_append] at hunion
  unfold prefetchLimit at hdense hsparse
  unfold fusionLimit
  omega

omit [LinearOrder τ] in
/-- Points of a table are told apart by the order of their ids. -/
theorem Engine.eq_of_tie {t : Table Point} {p p' : Point} (hp : p ∈ t.rows) (hp' : p' ∈ t.rows)
    (h : engine.tie p.id = engine.tie p'.id) : p = p' :=
  t.eq_of_key hp hp' (engine.tie_injective h)

/-- The best candidates by a weighted sum of their reciprocal ranks. -/
def Engine.fused (engine : Engine τ) (x : Search) (e : Embedding) (pts : List Point)
    (dense_weight sparse_weight : Rat) : List (Point × Rat) :=
  best (engine.tie ·.id) fusionLimit
    (fun p => some (engine.weighted x e pts dense_weight sparse_weight p))
    (engine.candidates x e pts)

/-- The fusion drops no candidate. -/
theorem Engine.fused_perm {pts : List Point} (dense_weight sparse_weight : Rat) :
    ((engine.fused x e pts dense_weight sparse_weight).map Prod.fst).Perm
      (engine.candidates x e pts) := by
  have hperm : (engine.fused x e pts dense_weight sparse_weight).Perm
      (scored (fun p => some (engine.weighted x e pts dense_weight sparse_weight p))
        (engine.candidates x e pts)) := best_perm_of_length_le length_candidates
  have hfst := hperm.map Prod.fst
  rw [map_fst_scored] at hfst
  exact hfst

/-- The prefetches of a search, one list for each. -/
theorem Engine.prefetch_inner {pts : List Point} {dense_weight sparse_weight : Nat} :
    (engine.prefetchAll pts (weightedPrefetches x e dense_weight sparse_weight)).map
        (·.map Prod.fst) =
      List.replicate dense_weight (engine.dense x e pts) ++
        List.replicate sparse_weight (engine.sparse x e pts) := by
  unfold weightedPrefetches
  rw [prefetchAll_eq, List.map_append, List.map_append, List.map_replicate, List.map_replicate,
    List.map_replicate, List.map_replicate]
  rfl

/-- What the fusion of a tree finds is the flat fusion with its weights. -/
theorem Engine.prefetch_fusion {t : Table Point} {dense_weight sparse_weight : Nat}
    (hdense : 0 < dense_weight) (hsparse : 0 < sparse_weight) :
    engine.prefetch t.rows (weightedFusion x e dense_weight sparse_weight) =
      engine.fused x e t.rows dense_weight sparse_weight := by
  have hne : weightedPrefetches x e dense_weight sparse_weight ≠ [] := by
    unfold weightedPrefetches
    rw [← List.length_pos_iff, List.length_append, List.length_replicate]
    omega
  have hsame (p : Point) :
      (∃ l ∈ List.replicate dense_weight (engine.dense x e t.rows) ++
        List.replicate sparse_weight (engine.sparse x e t.rows), p ∈ l) ↔
      ∃ l ∈ [engine.dense x e t.rows, engine.sparse x e t.rows], p ∈ l := by
    simp only [List.mem_append, List.mem_replicate, hdense.ne', hsparse.ne', ne_eq,
      not_false_eq_true, true_and, List.mem_cons, List.not_mem_nil, or_false]
  unfold weightedFusion
  rw [prefetch, sources_of_ne_nil hne, prefetch_inner]
  change best _ _ _ (List.filter (fun _ => true) _) = _
  rw [List.filter_true]
  apply best_congr _ (union_perm hsame)
  · intro p hp
    unfold score weighted
    rw [prefetch_inner, rrf_append, rrf_replicate, rrf_replicate]
  · intro p hp p' hp' htie
    have hmem {p : Point} (hp : p ∈ union (List.replicate dense_weight (engine.dense x e t.rows) ++
        List.replicate sparse_weight (engine.sparse x e t.rows))) : p ∈ t.rows :=
      (mem_candidates ((union_perm hsame).mem_iff.mp hp)).1
    exact eq_of_tie (hmem hp) (hmem hp') htie

/-- The order in which candidates come does not matter to the ranking. -/
theorem Engine.rerank_congr {t : Table Point} {query : List (List Rat)} {vector_name : String}
    {threshold : Rat} {limit : Nat} {l l' : List Point} (hl : ∀ p ∈ l, p ∈ t.rows)
    (h : l.Perm l') :
    engine.rerank query vector_name threshold limit l =
      engine.rerank query vector_name threshold limit l' := by
  unfold rerank
  congr 1
  exact best_congr (fun p hp p' hp' => eq_of_tie (hl p hp) (hl p' hp')) h fun _ _ => rfl

/-- Whatever the weights, the result is the ranking of the candidates. -/
theorem Engine.queryPoints_weighted {t : Table Point} {dense_weight sparse_weight : Nat}
    (hdense : 0 < dense_weight) (hsparse : 0 < sparse_weight) :
    engine.queryPoints t.rows (weightedRequest x e dense_weight sparse_weight) =
      engine.rerank e.colbert colbertVectorName scoreThreshold x.top_k
        (engine.candidates x e t.rows) := by
  have hfound :
      engine.prefetchAll t.rows (weightedRequest x e dense_weight sparse_weight).prefetch =
        [engine.fused x e t.rows dense_weight sparse_weight] := by
    rw [← prefetch_fusion hdense hsparse]
    rfl
  have hunion : (union [(engine.fused x e t.rows dense_weight sparse_weight).map Prod.fst]).Perm
      (engine.candidates x e t.rows) := by
    have hnodup : (engine.candidates x e t.rows).Nodup := nodup_union
    rw [List.perm_ext_iff_of_nodup nodup_union hnodup]
    intro p
    rw [mem_union, ← (fused_perm dense_weight sparse_weight).mem_iff]
    simp only [List.mem_singleton, exists_eq_left]
  have hpass (p : Point)
      (hp : p ∈ union [(engine.fused x e t.rows dense_weight sparse_weight).map Prod.fst]) :
      p ∈ t.rows ∧ (buildFilter x).holds p.payload = true :=
    mem_candidates (hunion.mem_iff.mp hp)
  unfold queryPoints
  rw [hfound]
  change engine.rerank e.colbert colbertVectorName scoreThreshold x.top_k (List.filter
    (fun p => (buildFilter x).holds p.payload)
    (union [(engine.fused x e t.rows dense_weight sparse_weight).map Prod.fst])) = _
  rw [List.filter_eq_self.mpr fun p hp => (hpass p hp).2]
  exact rerank_congr (fun p hp => (hpass p hp).1) hunion

end Tree

/-! ## The result of a search -/

section Result
variable {env : Env} {i : Nat} {x : Search} {n : String} {s : World}

theorem exec_quiet_points {o : Op} {c : Fault} (hq : o.quiet = true) :
    (exec env i o c s).2.points = s.points :=
  (congrArg Stores.points (quiet_frame hq).stores)

/-- A query is embedded by the model, and nothing is written. -/
theorem ends_embedQuery {text : String} :
    (embedQuery text).Ends (exec env i) (fun _ => True) s fun _ r s' =>
      s'.points = s.points ∧ ∀ e, r = .ok e → e = env.encode text := by
  unfold embedQuery
  split
  · exact ⟨rfl, nofun⟩
  · apply ends_bind.mpr
    unfold embedPassages
    cases checkTexts [text] with
    | error e => exact ⟨rfl, nofun⟩
    | ok _ =>
      apply ends_perform.mpr
      intro c _
      have hpoints : (exec env i (.encode [text]) c s).2.points = s.points := exec_quiet_points rfl
      cases hr : (exec env i (.encode [text]) c s).1 with
      | error e => exact ⟨hpoints, nofun⟩
      | ok out =>
        have hserve := serve_of_answer rfl hr
        simp only [serve, Except.ok.injEq, Prod.mk.injEq] at hserve
        rw [next_ok, ← hserve.1]
        exact ⟨hpoints, fun e he => (Except.ok.inj he).symm⟩

/-- An answered query is that of the collection. -/
theorem ends_executeQuery {request : QueryRequest} :
    (executeQuery env n request).Ends (exec env i) (fun _ => True) s fun _ r _ =>
      ∀ result, r = .ok result → result.chunks =
        (env.query_points (s.points n).rows request).map fun p => (p.payload, p.score) := by
  apply ends_retryLoop (fun _ _ t => t.points = s.points) (fun _ _ _ => exec_sleep) _ (by omega) rfl
  intro m tr t hI
  apply ends_bind.mpr
  apply ends_perform.mpr
  intro c _
  have hpoints : (exec env i (.queryPoints n request) c t).2.points = s.points :=
    (exec_quiet_points rfl).trans hI
  cases hr : (exec env i (.queryPoints n request) c t).1 with
  | error e =>
    rw [next_error]
    dsimp only
    split
    · exact nofun
    · split
      · exact nofun
      · exact fun _ _ => hpoints
  | ok points =>
    rw [next_ok, ends_return]
    rintro result ⟨⟩
    have hserve := serve_of_answer rfl hr
    simp only [serve] at hserve
    split at hserve
    · cases hserve
    · next col hcol =>
      rw [← (Prod.mk.inj (Except.ok.inj hserve)).1, ← hI, World.points_of_find? hcol]

/-- A search that returns gives the chunks that its query finds in the collection. -/
theorem ends_search :
    (search env x).Ends (exec env i) (fun _ => True) s fun _ r _ =>
      ∀ result, r = .ok result → result.chunks =
        (env.query_points (s.points (joinName x.tenant_id x.bot_id)).rows
          (searchRequest x (env.encode x.query))).map fun p => (p.payload, p.score) := by
  unfold search
  cases hname : collectionName x.tenant_id x.bot_id with
  | error e => exact nofun
  | ok n =>
    obtain rfl := (collectionName_eq_ok.mp hname).2.2
    apply (ends_ofExcept_bind rfl).mpr
    apply ends_bind.mpr
    apply ends_perform.mpr
    intro c _
    have hlook : (exec env i (.collectionExists (joinName x.tenant_id x.bot_id)) c s).2.points =
        s.points := exec_quiet_points rfl
    cases (exec env i (.collectionExists (joinName x.tenant_id x.bot_id)) c s).1 with
    | error e => exact nofun
    | ok exists_ =>
      rw [next_ok]
      split
      · apply ends_bind.mpr
        refine ends_embedQuery.mono fun tr r t ⟨hpoints, he⟩ => ?_
        cases r with
        | error e => exact nofun
        | ok e =>
          rw [next_ok, he e rfl, ← hlook, ← hpoints]
          exact ends_executeQuery
      · exact nofun

end Result

/-- **The result is the ColBERT ranking**, where Qdrant evaluates a tree as documented. The fusion
gives each candidate the weighted sum of its reciprocal ranks and drops none; a search returns the
best of the candidates by their ColBERT score, and would with any weights. -/
theorem search_is_ranking {τ : Type} [LinearOrder τ] (engine : Engine τ) (env : Env)
    (henv : ∀ (t : Table Point) request,
      env.query_points t.rows request = engine.queryPoints t.rows request)
    (x : Search) (e : Embedding) (t : Table Point) :
    let ranking := (engine.rerank e.colbert colbertVectorName 0 x.top_k
      (engine.candidates x e t.rows))
    (∃ fusion, (searchRequest x e).prefetch = [fusion] ∧
      ((engine.prefetch t.rows fusion).map Prod.fst).Perm (engine.candidates x e t.rows) ∧
      ∀ p r, (p, r) ∈ engine.prefetch t.rows fusion →
        r = 3 * reciprocalRank engine.k (engine.dense x e t.rows) p +
          reciprocalRank engine.k (engine.sparse x e t.rows) p) ∧
    env.query_points t.rows (searchRequest x e) = ranking ∧
    (∀ dense_weight sparse_weight : Nat, 0 < dense_weight → 0 < sparse_weight →
      env.query_points t.rows (weightedRequest x e dense_weight sparse_weight) = ranking) ∧
    (∀ dense_weight sparse_weight : Rat,
      engine.rerank e.colbert colbertVectorName 0 x.top_k
        ((engine.fused x e t.rows dense_weight sparse_weight).map Prod.fst) = ranking) ∧
    (∀ (session : Nat) (faults : Nat → Fault) (s : World) (result : SearchResult),
      e = env.encode x.query → s.points (joinName x.tenant_id x.bot_id) = t →
      (x.run env session faults s).reply = .ok result →
        result.chunks = ranking.map fun p => (p.payload, p.score)) := by
  intro ranking
  have hquery (dense_weight sparse_weight : Nat) (hdense : 0 < dense_weight)
      (hsparse : 0 < sparse_weight) :
      env.query_points t.rows (weightedRequest x e dense_weight sparse_weight) = ranking := by
    rw [henv]
    exact Engine.queryPoints_weighted hdense hsparse
  have hsearch : env.query_points t.rows (searchRequest x e) = ranking := by
    rw [searchRequest_eq]
    exact hquery _ _ (by decide) (by decide)
  have hfusion : engine.prefetch t.rows (weightedFusion x e rrfDenseWeight rrfSparseWeight) =
      engine.fused x e t.rows rrfDenseWeight rrfSparseWeight :=
    Engine.prefetch_fusion (by decide) (by decide)
  refine ⟨⟨weightedFusion x e rrfDenseWeight rrfSparseWeight, rfl, ?_, fun p r hp => ?_⟩, hsearch,
    hquery, fun dense_weight sparse_weight => ?_, ?_⟩
  · rw [hfusion]
    exact Engine.fused_perm _ _
  · rw [hfusion] at hp
    have hscore : engine.weighted x e t.rows rrfDenseWeight rrfSparseWeight p = r :=
      Option.some.inj (mem_of_mem_best hp).2
    rw [← hscore]
    simp only [Engine.weighted, rrfDenseWeight, rrfSparseWeight, Nat.cast_ofNat, Nat.cast_one,
      one_mul]
  · apply Engine.rerank_congr (t := t) _ (Engine.fused_perm _ _)
    intro p hp
    exact (Engine.mem_candidates ((Engine.fused_perm _ _).mem_iff.mp hp)).1
  · rintro session faults s result rfl rfl hreply
    have hends : (search env x).Ends (exec env session) (fun _ => True) s _ := ends_search
    rw [hends.run (fun _ => trivial) result hreply, hsearch]

/-! ## A small engine -/

def Sample.dot (v w : List Rat) : Rat := (v.zipWith (· * ·) w).sum

/-- A point is similar to a sparse query where they share an index. -/
def Sample.overlap (query v : SparseVector) : Option Rat :=
  match (query.indices.zip query.values).filterMap fun (index, value) =>
    ((v.indices.zip v.values).lookup index).map (value * ·) with
  | [] => none
  | products => some products.sum

/-- The best match of each vector of the query, summed. -/
def Sample.maxSim (query v : List (List Rat)) : Option Rat :=
  some (query.map fun q => ((v.map (dot q)).max?).getD 0).sum

def Sample.engine : Engine String where
  similarity := fun query vector_name p =>
    match query, vector_name with
    | .dense v, some "dense" => some (dot v p.vector.dense)
    | .sparse v, some "bm25" => overlap v p.vector.bm25
    | _, _ => none
  maxSim := fun query vector_name p =>
    if vector_name = "colbert" then Sample.maxSim query p.vector.colbert else none
  k := 2
  tie := id
  tie_injective := Function.injective_id

section Members
variable {τ : Type} [LinearOrder τ] {engine : Engine τ} {pts : List Point}

theorem Engine.mem_sources {ps : List Prefetch} {found : List (List (Point × Rat))} {p : Point}
    (hfound : ∀ l ∈ found, ∀ y ∈ l, y.1 ∈ pts) (h : p ∈ sources pts ps found) : p ∈ pts := by
  cases ps with
  | nil => exact h
  | cons pf ps =>
    obtain ⟨l, hl, hp⟩ := mem_union.mp h
    obtain ⟨l', hl', rfl⟩ := List.mem_map.mp hl
    obtain ⟨y, hy, rfl⟩ := List.mem_map.mp hp
    exact hfound l' hl' y hy

mutual
theorem Engine.mem_prefetch : ∀ (pf : Prefetch) (y : Point × Rat),
    y ∈ engine.prefetch pts pf → y.1 ∈ pts
  | .mk inner _ _ _ _, y, h => by
    have hsource := (List.mem_filter.mp (mem_of_mem_best h).1).1
    exact mem_sources (mem_prefetchAll inner) hsource

theorem Engine.mem_prefetchAll : ∀ (ps : List Prefetch), ∀ l ∈ engine.prefetchAll pts ps,
    ∀ y ∈ l, y.1 ∈ pts
  | [], _, h => absurd h List.not_mem_nil
  | pf :: ps, l, h => by
    rcases List.mem_cons.mp h with rfl | h
    · exact mem_prefetch pf
    · exact mem_prefetchAll ps l h
end

/-- A query finds points of the collection. -/
theorem Engine.mem_queryPoints {request : QueryRequest} :
    ∀ r ∈ engine.queryPoints pts request, ∃ p ∈ pts, p.payload = r.payload := by
  intro r hr
  obtain ⟨y, hy, rfl⟩ := List.mem_map.mp hr
  have hsource := (List.mem_filter.mp (mem_of_mem_best hy).1).1
  exact ⟨y.1, mem_sources (mem_prefetchAll request.prefetch) hsource, rfl⟩

end Members

/-- The small service, with the small engine. -/
def Sample.ranking : Env :=
  { Sample.env with
    query_points := Sample.engine.queryPoints
    query_mem := fun _ _ => Engine.mem_queryPoints }

/-- A point whose vectors have one coordinate. -/
def Sample.point (id : String) (is_active : Bool) (dense : Rat) (index : Int) (colbert : Rat) :
    Point where
  id := id
  vector := ⟨[dense], ⟨[index], [1]⟩, [[colbert]]⟩
  payload :=
    { tenant_id := "acme", bot_id := "support", doc_id := docA, chunk_id := id, version := 1
      is_active := is_active, uploaded_at := 0, source_type := "text", source_filename := none
      source_url := none, source_item_index := 0, source_content_hash := "h1", section_path := []
      page_number := none, text := "Hello", char_count := 5, token_count := 1 }

/-- Four points: one without an index of the query, one of a negative ColBERT score, and one that is
not active. -/
def Sample.shelf : World :=
  { World.empty with
    collections := Table.empty.put ⟨support, expectedParams, [], Table.empty.putAll [
      point "a" true (1 / 2) 35378 (1 / 4), point "b" true 1 0 (1 / 2),
      point "c" true (1 / 3) 35378 (-1), point "d" false 1 35378 1]⟩ }

theorem search_is_ranking_acme :
    ∃ result, ((Sample.search Sample.acme "hello").run Sample.ranking 0 Sample.served
      Sample.shelf).reply = .ok result ∧
      result.chunks.map (fun chunk => (chunk.1.chunk_id, chunk.2)) =
        [("b", 1 / 2), ("a", 1 / 4)] := by
  have hreturns : ((Sample.search Sample.acme "hello").run Sample.ranking 0 Sample.served
      Sample.shelf).reply.isOk = true := by decide +kernel
  obtain ⟨result, hreply⟩ := exists_of_isOk hreturns
  refine ⟨result, hreply, ?_⟩
  rw [(search_is_ranking Sample.engine Sample.ranking (fun _ _ => rfl) _ _ _).2.2.2.2 0
    Sample.served Sample.shelf result rfl rfl hreply]
  decide +kernel

end QdrantRag
