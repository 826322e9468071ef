import QdrantRag.Verify.Reranking
import QdrantRag.Verify.Versions

/-! # What a search may miss

A search ranks no more than 50 points by each vector of its query, so it need not return the best of
its collection. A point that it leaves out has a worse ColBERT score than all it returns, or has no
place in either list of candidates: 50 others come before it there, or it cannot be compared
(`search_misses`); and where 50 points or fewer pass its filter, it ranks them all. Among writes
under way this is so of the documents that are there at one moment of the search
(`search_finds_uploads`). -/

namespace QdrantRag
open Keyed Effect Effect.Prog Effect.Pool Ranking

variable {τ : Type} [LinearOrder τ] {engine : Engine τ} {x : Search} {e : Embedding}
  {t : Table Point} {p : Point} {query : PrefetchQuery} {vector_name : String}

/-- The points that pass the filter of the search. -/
def Search.matching (x : Search) (pts : List Point) : List Point :=
  pts.filter fun p => (buildFilter x).holds p.payload

/-- Fifty others that pass the filter are at least as similar to the query as the point. -/
def Engine.Crowded (engine : Engine τ) (x : Search) (pts : List Point) (query : PrefetchQuery)
    (vector_name : String) (p : Point) : Prop :=
  ∃ r, engine.similarity query (some vector_name) p = some r ∧
    ∃ others : List Point, others.Nodup ∧ others.length = prefetchLimit ∧ p ∉ others ∧
      ∀ q ∈ others, q ∈ x.matching pts ∧
        ∃ r', engine.similarity query (some vector_name) q = some r' ∧ r ≤ r'

/-- The list of candidates has no place for the point: the point has no similarity to the query, or
is crowded out. -/
def Engine.Unlisted (engine : Engine τ) (x : Search) (pts : List Point) (query : PrefetchQuery)
    (vector_name : String) (p : Point) : Prop :=
  engine.similarity query (some vector_name) p = none ∨
    engine.Crowded x pts query vector_name p

/-- A point that is not among the nearest has no place there. -/
theorem Engine.unlisted_of_not_mem (hp : p ∈ x.matching t.rows)
    (h : p ∉ engine.nearest x t.rows query vector_name) :
    engine.Unlisted x t.rows query vector_name p := by
  cases hr : engine.similarity query (some vector_name) p with
  | none => exact .inl hr
  | some r =>
  refine .inr ⟨r, hr, ?_⟩
  have hscored : (p, r) ∈ scored (engine.similarity query (some vector_name))
      (x.matching t.rows) := mem_scored.mpr ⟨hp, hr⟩
  have hleft : (p, r) ∉ best (engine.tie ·.id) prefetchLimit
      (engine.similarity query (some vector_name)) (x.matching t.rows) :=
    fun hmem => h (List.mem_map_of_mem hmem)
  obtain ⟨hlength, hprecedes⟩ := best_precedes hscored hleft
  refine ⟨engine.nearest x t.rows query vector_name, nodup_best (t.rows_nodup.filter _), ?_, h, ?_⟩
  · rw [← hlength]
    exact List.length_map _
  · intro q hq
    obtain ⟨y, hy, rfl⟩ := List.mem_map.mp hq
    obtain ⟨hmatch, hscore⟩ := mem_of_mem_best hy
    exact ⟨hmatch, y.2, hscore, le_of_rankKey_le (hprecedes y hy)⟩

/-- A point that passes the filter is a candidate, or has no place in either list. -/
theorem Engine.candidate_or_unlisted (engine : Engine τ) (e : Embedding)
    (hp : p ∈ x.matching t.rows) :
    p ∈ engine.candidates x e t.rows ∨
      engine.Unlisted x t.rows (.dense e.dense) denseVectorName p ∧
        engine.Unlisted x t.rows (.sparse (sparseToQdrant e.sparse)) sparseVectorName p := by
  by_cases hdense : p ∈ engine.dense x e t.rows
  · exact .inl (mem_union.mpr ⟨_, List.mem_cons_self, hdense⟩)
  · by_cases hsparse : p ∈ engine.sparse x e t.rows
    · exact .inl (mem_union.mpr ⟨_, List.mem_cons_of_mem _ List.mem_cons_self, hsparse⟩)
    · exact .inr ⟨unlisted_of_not_mem hp hdense, unlisted_of_not_mem hp hsparse⟩

/-- Where 50 points or fewer pass the filter, and each can be compared by its dense vector, all are
candidates. -/
theorem Engine.candidates_perm (hfew : (x.matching t.rows).length ≤ prefetchLimit)
    (hdense : ∀ p ∈ x.matching t.rows,
      engine.similarity (.dense e.dense) (some denseVectorName) p ≠ none) :
    (engine.candidates x e t.rows).Perm (x.matching t.rows) := by
  have hall : (engine.dense x e t.rows).Perm (x.matching t.rows) :=
    map_fst_best_perm hfew hdense
  have hnodup : (engine.candidates x e t.rows).Nodup := nodup_union
  have hmatching : (x.matching t.rows).Nodup := t.rows_nodup.filter _
  rw [List.perm_ext_iff_of_nodup hnodup hmatching]
  intro p
  constructor
  · intro hp
    exact List.mem_filter.mpr (mem_candidates hp)
  · intro hp
    exact mem_union.mpr ⟨_, List.mem_cons_self, hall.mem_iff.mpr hp⟩

/-- A candidate that does not score below the threshold is returned, or as many as were asked for
that score no less. -/
theorem Engine.reranked_or_worse {query : List (List Rat)} {threshold r : Rat} (limit : Nat)
    {candidates : List Point} (hp : p ∈ candidates)
    (hr : engine.maxSim query vector_name p = some r) (hreach : threshold ≤ r) :
    ⟨p.id, p.payload, r⟩ ∈ engine.rerank query vector_name threshold limit candidates ∨
      (engine.rerank query vector_name threshold limit candidates).length = limit ∧
        ∀ q ∈ engine.rerank query vector_name threshold limit candidates, r ≤ q.score := by
  let reached := fun p => (engine.maxSim query vector_name p).filter fun r => threshold ≤ r
  have hscored : (p, r) ∈ scored reached candidates := by
    refine mem_scored.mpr ⟨hp, ?_⟩
    change (engine.maxSim query vector_name p).filter _ = some r
    rw [hr, Option.filter_some, if_pos (decide_eq_true hreach)]
  by_cases hbest : (p, r) ∈ best (engine.tie ·.id) limit reached candidates
  · exact .inl (List.mem_map.mpr ⟨(p, r), hbest, rfl⟩)
  · obtain ⟨hlength, hprecedes⟩ := best_precedes hscored hbest
    refine .inr ⟨(List.length_map _).trans hlength, fun q hq => ?_⟩
    obtain ⟨y, hy, rfl⟩ := List.mem_map.mp hq
    exact le_of_rankKey_le (hprecedes y hy)

/-! ## A search -/

section Found
variable {env : Env} {chunks : List (Payload × Rat)}
  (henv : ∀ (t : Table Point) request,
    env.query_points t.rows request = engine.queryPoints t.rows request)
  (hchunks : chunks = (env.query_points t.rows (searchRequest x (env.encode x.query))).map
    fun p => (p.payload, p.score))
include henv hchunks

/-- What a search finds is the ranking of its candidates. -/
theorem Engine.chunks_eq : chunks = (engine.rerank (env.encode x.query).colbert colbertVectorName
    scoreThreshold x.top_k (engine.candidates x (env.encode x.query) t.rows)).map
      fun p => (p.payload, p.score) := by
  rw [hchunks, henv t, searchRequest_eq]
  exact congrArg _ (Engine.queryPoints_weighted (by decide) (by decide))

/-- A point that could be found is found, or worse than all that is, or has no place among the
candidates. -/
theorem Engine.found_or_missed {r : Rat} (hp : p ∈ x.matching t.rows)
    (hr : engine.maxSim (env.encode x.query).colbert colbertVectorName p = some r)
    (hreach : scoreThreshold ≤ r) :
    (p.payload, r) ∈ chunks ∨
    (chunks.length = x.top_k ∧ ∀ chunk ∈ chunks, r ≤ chunk.2) ∨
    engine.Unlisted x t.rows (.dense (env.encode x.query).dense) denseVectorName p ∧
      engine.Unlisted x t.rows (.sparse (sparseToQdrant (env.encode x.query).sparse))
        sparseVectorName p := by
  rcases engine.candidate_or_unlisted (env.encode x.query) hp with hcandidate | hunlisted
  · rw [Engine.chunks_eq henv hchunks]
    rcases Engine.reranked_or_worse x.top_k hcandidate hr hreach with hmem | ⟨hlength, hworse⟩
    · exact .inl (List.mem_map.mpr ⟨_, hmem, rfl⟩)
    · refine .inr (.inl ⟨(List.length_map _).trans hlength, fun chunk hchunk => ?_⟩)
      obtain ⟨q, hq, rfl⟩ := List.mem_map.mp hchunk
      exact hworse q hq
  · exact .inr (.inr hunlisted)

/-- Where 50 points or fewer could be found, all are ranked. -/
theorem Engine.ranks_matching (hfew : (x.matching t.rows).length ≤ prefetchLimit)
    (hdense : ∀ p ∈ x.matching t.rows,
      engine.similarity (.dense (env.encode x.query).dense) (some denseVectorName) p ≠ none) :
    chunks = (engine.rerank (env.encode x.query).colbert colbertVectorName scoreThreshold x.top_k
      (x.matching t.rows)).map fun p => (p.payload, p.score) := by
  have hperm : (engine.candidates x (env.encode x.query) t.rows).Perm (x.matching t.rows) :=
    Engine.candidates_perm hfew hdense
  rw [Engine.chunks_eq henv hchunks]
  exact congrArg _ (Engine.rerank_congr (fun p hp => (Engine.mem_candidates hp).1) hperm)

end Found

/-- **What a search may miss**, where Qdrant evaluates a tree as documented. From every state and
under all faults, a search that returns leaves out a point of its collection that passes its filter
and has a ColBERT score from the threshold on only where it returns as many as were asked for that
score no less, or where the point has no place among the dense nor among the sparse candidates: it
has no such similarity, or 50 others that pass are at least as similar. Where 50 points or fewer
pass the filter and each has a dense similarity it returns the exact ranking of them. -/
theorem search_misses (engine : Engine τ) (env : Env)
    (henv : ∀ (t : Table Point) request,
      env.query_points t.rows request = engine.queryPoints t.rows request)
    (x : Search) (session : Nat) (faults : Nat → Fault) (s : World) (result : SearchResult)
    (hreply : (x.run env session faults s).reply = .ok result) :
    let pts := (s.points (joinName x.tenant_id x.bot_id)).rows
    let e := env.encode x.query
    (∀ p ∈ x.matching pts, ∀ r, engine.maxSim e.colbert colbertVectorName p = some r →
      scoreThreshold ≤ r →
        (p.payload, r) ∈ result.chunks ∨
        (result.chunks.length = x.top_k ∧ ∀ chunk ∈ result.chunks, r ≤ chunk.2) ∨
        engine.Unlisted x pts (.dense e.dense) denseVectorName p ∧
          engine.Unlisted x pts (.sparse (sparseToQdrant e.sparse)) sparseVectorName p) ∧
    ((x.matching pts).length ≤ prefetchLimit →
      (∀ p ∈ x.matching pts,
        engine.similarity (.dense e.dense) (some denseVectorName) p ≠ none) →
        result.chunks = (engine.rerank e.colbert colbertVectorName scoreThreshold x.top_k
          (x.matching pts)).map fun p => (p.payload, p.score)) := by
  intro pts e
  have hends : (search env x).Ends (exec env session) (fun _ => True) s _ := ends_search
  have hchunks := hends.run (fun _ => trivial) result hreply
  constructor
  · intro p hp r hr hreach
    exact Engine.found_or_missed henv hchunks hp hr hreach
  · intro hfew hdense
    exact Engine.ranks_matching henv hchunks hfew hdense

/-- On a small shelf a search ranks all that is active. -/
theorem search_misses_shelf :
    let x := Sample.search Sample.acme "hello"
    let pts := (Sample.shelf.points Sample.support).rows
    ∃ result, (x.run Sample.ranking 0 Sample.served Sample.shelf).reply = .ok result ∧
      (x.matching pts).map Point.id = ["a", "b", "c"] ∧
      result.chunks = (Sample.engine.rerank (Sample.ranking.encode "hello").colbert
        colbertVectorName scoreThreshold x.top_k (x.matching pts)).map fun p =>
          (p.payload, p.score) := by
  intro x pts
  have hreturns : (x.run Sample.ranking 0 Sample.served Sample.shelf).reply.isOk = true := by
    decide +kernel
  obtain ⟨result, hreply⟩ := exists_of_isOk hreturns
  have hmatching : (x.matching pts).map Point.id = ["a", "b", "c"] := by decide +kernel
  have hfew : (x.matching pts).length ≤ prefetchLimit := by
    rw [← List.length_map, hmatching]
    decide
  refine ⟨result, hreply, hmatching, ?_⟩
  exact (search_misses Sample.engine Sample.ranking (fun _ _ => rfl) x 0 Sample.served Sample.shelf
    result hreply).2 hfew fun _ _ => Option.some_ne_none _

/-! ## Searches among writes -/

section Live
variable {env : Env} {requests : Nat → Write} {log : List (Nat × Call)} {n : String}

/-- The point is one of a document that is there: the last upload sent for it, not deleted since,
was to the collection and has the point. -/
def Live (env : Env) (requests : Nat → Write) (log : List (Nat × Call)) (n : String) (p : Point) :
    Prop :=
  ∃ y, lastSent requests log p.payload.doc_id = some y ∧ joinName y.tenant_id y.bot_id = n ∧
    p ∈ y.points env

/-- The points of a collection are those of the documents that are there. -/
theorem mem_points_iff_live {v : Stores}
    (h : ∀ d, Content env v d (lastSent requests log d)) :
    p ∈ (v.points n).rows ↔ Live env requests log n p := by
  have hcontent := h p.payload.doc_id
  cases hlast : lastSent requests log p.payload.doc_id with
  | none =>
    rw [hlast] at hcontent
    refine iff_of_false (fun hp => hcontent n p hp rfl) fun hlive => ?_
    obtain ⟨y, hy, -⟩ := hlive
    exact absurd (hlast.symm.trans hy) (by simp)
  | some y =>
    rw [hlast] at hcontent
    rw [hcontent.2 n p rfl]
    constructor
    · intro hp
      exact ⟨y, hlast, hp.1.symm, hp.2⟩
    · intro hlive
      obtain ⟨y', hy', hname, hp⟩ := hlive
      obtain rfl := Option.some.inj (hlast.symm.trans hy')
      exact ⟨hname.symm, hp⟩

end Live

/-- **Uploads are found.** With no document sent under two pairs, writes that succeed from their
first write of points on, and a Qdrant that evaluates a tree as documented: a search that returns
has a moment at which its collection has exactly the points of the documents that are there, and a
chunk of these that it asks for, with a ColBERT score from the threshold on, it returns, or it
returns as many as were asked for that score no less, or the chunk has no place among the dense nor
among the sparse candidates. Where 50 or fewer are asked for, each with a dense similarity, it ranks
them all. -/
theorem search_finds_uploads (engine : Engine τ) (env : Env)
    (henv : ∀ (t : Table Point) request,
      env.query_points t.rows request = engine.queryPoints t.rows request)
    (requests : Nat → Write) (hids : env.DistinctIds (Set.range requests))
    (searches : Nat → Search) (hone : OnePair requests) (sched : List ((Nat ⊕ Nat) × Fault))
    (hcalls : Obeys (Committing env) (interleave env requests (leftTurns sched)).log)
    (j : Nat) (r : SearchResult)
    (hr : (interleaveSearches env requests searches sched).threads (.inr j) =
      .pure (.search r)) :
    ∃ n c, sched[n]? = some (.inr j, c) ∧
      ((interleaveSearches env requests searches (sched.take n)).threads (.inr j)).Calls ∧
      let x := searches j
      let e := env.encode x.query
      let service := interleave env requests (leftTurns (sched.take n))
      let collection := joinName x.tenant_id x.bot_id
      let pts := (service.state.points collection).rows
      (∀ p, p ∈ pts ↔ Live env requests service.log collection p) ∧
      (∀ p, Live env requests service.log collection p → x.Asks p.payload → ∀ score,
        engine.maxSim e.colbert colbertVectorName p = some score → scoreThreshold ≤ score →
          (p.payload, score) ∈ r.chunks ∨
          (r.chunks.length = x.top_k ∧ ∀ chunk ∈ r.chunks, score ≤ chunk.2) ∨
          engine.Unlisted x pts (.dense e.dense) denseVectorName p ∧
            engine.Unlisted x pts (.sparse (sparseToQdrant e.sparse)) sparseVectorName p) ∧
      ((x.matching pts).length ≤ prefetchLimit →
        (∀ p ∈ x.matching pts,
        engine.similarity (.dense e.dense) (some denseVectorName) p ≠ none) →
          r.chunks = (engine.rerank e.colbert colbertVectorName scoreThreshold x.top_k
            (x.matching pts)).map fun p => (p.payload, p.score)) := by
  obtain ⟨n, c, hn, hrunning, r', hr', hanswered⟩ := answered_moment hr
  cases hr'
  refine ⟨n, c, hn, hrunning, ?_⟩
  intro x e service collection pts
  have hmoment : Obeys (Committing env) service.log := by
    rw [← List.take_append_drop n sched, leftTurns_append] at hcalls
    exact obeys_take hcalls
  have hlive (p : Point) : p ∈ pts ↔ Live env requests service.log collection p :=
    mem_points_iff_live (v := service.state.stores) (versioned_interleave hids hone _ hmoment)
  have hchunks : r.chunks = (env.query_points (service.state.points collection).rows
      (searchRequest x e)).map fun p => (p.payload, p.score) := by
    rw [hanswered.result]
    rfl
  refine ⟨hlive, fun p hp hasks score hscore hreach => ?_, fun hfew hdense => ?_⟩
  · have hmatching : p ∈ x.matching pts :=
      List.mem_filter.mpr ⟨(hlive p).mpr hp, holds_buildFilter.mpr hasks⟩
    exact Engine.found_or_missed henv hchunks hmatching hscore hreach
  · exact Engine.ranks_matching henv hchunks hfew hdense

/-- A search that ends when both of two documents are there finds both. -/
theorem search_finds_uploads_twoDocuments :
    ∃ r : SearchResult, r.chunks.length = 2 ∧ ∃ n c, Sample.searching[n]? = some (.inr 0, c) ∧
      ∀ p, p ∈ ((interleave Sample.ranking Sample.twoDocuments
        (leftTurns (Sample.searching.take n))).state.points Sample.support).rows ↔
          Live Sample.ranking Sample.twoDocuments (interleave Sample.ranking Sample.twoDocuments
            (leftTurns (Sample.searching.take n))).log Sample.support p := by
  obtain ⟨r, hr, hlen⟩ := Sample.exists_chunks (n := 2)
    (p := (interleaveSearches Sample.ranking Sample.twoDocuments
      (fun _ => Sample.search Sample.acme "Hello") Sample.searching).threads (.inr 0))
    (by decide +kernel)
  have hpair (i : Nat) : (Sample.twoDocuments i).pair = Sample.acme := by
    cases i <;> rfl
  have hids : Sample.ranking.DistinctIds (Set.range Sample.twoDocuments) :=
    Sample.uuid5.injective.injOn
  obtain ⟨n, c, hn, -, hlive, -⟩ := search_finds_uploads Sample.engine Sample.ranking
    (fun _ _ => rfl) Sample.twoDocuments hids
    (fun _ => Sample.search Sample.acme "Hello") (fun i j _ => (hpair i).trans (hpair j).symm)
    Sample.searching (by decide +kernel) 0 r hr
  exact ⟨r, hlen, n, c, hn, hlive⟩

end QdrantRag
