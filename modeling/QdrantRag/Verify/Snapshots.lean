import QdrantRag.Effect.Readers
import QdrantRag.Verify.Agreement
import QdrantRag.Verify.Outage

/-! # Searches among writes

Searches that run while documents are uploaded and deleted. They take no lock and change nothing, so
the writes go on as if there were no searches (`writes_among_searches`). A search makes several
calls, with writes between them; its result is nevertheless that of one moment, the one at which its
last query was evaluated: a search is linearized there (`search_linearizable`). -/

namespace QdrantRag
open Keyed Effect Effect.Prog Effect.Pool Text

variable {env : Env} {i : Nat} {o : Op} {c : Fault} {s : World} {x : Search}

/-! ## The calls of a search -/

/-- The calls a search makes. -/
def Op.searches : Op → Bool
  | .collectionExists _ | .encode _ | .queryPoints .. | .sleep _ => true
  | _ => false

theorem serve_searches {a : Ans o} {s' : World} (ho : o.searches = true)
    (h : serve env i o s = .ok (a, s')) : s' = s := by
  cases o with
  | collectionExists | encode | sleep =>
    cases h
    rfl
  | queryPoints n request =>
    simp only [serve] at h
    split at h
    · cases h
    · cases h
      rfl
  | _ => cases ho

theorem isLock_of_searches (ho : o.searches = true) : o.isLock = false := by
  cases o with
  | tryAdvisoryLock | advisoryUnlock => cases ho
  | _ => rfl

/-- The calls of a search change nothing, served or not. -/
theorem exec_searches (ho : o.searches = true) : (exec env i o c s).2 = s := by
  by_cases hs : o.isLocal = true
  · cases o with
    | sleep => rfl
    | _ => cases hs
  · rcases exec_cases env i c s (isLock_of_searches ho) (by simpa using hs)
      with ⟨_, e, h⟩ | ⟨_, a, s', hserve, h | ⟨e, h⟩⟩
    · rw [h]
    · rw [h]
      exact serve_searches ho hserve
    · rw [h]
      exact serve_searches ho hserve

theorem only_search (x : Search) : (search env x).Only fun o => o.searches = true := by
  have hpassages (texts : List String) :
      (embedPassages texts).Only fun o => o.searches = true :=
    Only.bind (only_ofExcept _) fun _ => only_perform rfl
  have hfirst (out : List Embedding) : (firstEmbedding out).Only fun o => o.searches = true := by
    cases out <;> trivial
  unfold search
  apply only_ofExcept_bind
  intro name _
  refine Only.bind (only_perform rfl) fun exists_ => ?_
  apply Only.ite
  · intro _
    refine Only.bind (Only.ite (fun _ => trivial) fun _ => (hpassages _).bind hfirst) fun e => ?_
    apply only_withRetry fun _ => rfl
    refine Only.bind (only_perform rfl) fun points => ?_
    trivial
  · intro _
    trivial

/-! ## What a search sees -/

/-- The search `x` has the result `r` in `s`. -/
structure Search.Answered (env : Env) (x : Search) (s : World) (r : SearchResult) : Prop where
  name : collectionName x.tenant_id x.bot_id = .ok (joinName x.tenant_id x.bot_id)
  query : strip x.query ≠ ""
  collection : s.HasCollection (joinName x.tenant_id x.bot_id)
  result : r = x.result env s

theorem sees_embedQuery {text : String} {φ : Option World} :
    Sim (exec env i) Sees (fun _ e => strip text ≠ "" ∧ e = env.encode text) (fun _ _ => True)
      (embedQuery text) φ := by
  by_cases hblank : strip text = ""
  · unfold embedQuery
    rw [if_pos hblank]
    trivial
  · rw [embedQuery_eq hblank]
    apply sim_do.mpr
    apply sim_perform.mpr
    intro c s
    refine ⟨φ, .inl rfl, ?_⟩
    cases h : (exec env i (.encode [text]) c s).1 with
    | error e => trivial
    | ok out =>
      have hserve := serve_of_answer rfl h
      obtain rfl : [env.encode text] = out := (Prod.mk.inj (Except.ok.inj hserve)).1
      exact ⟨hblank, rfl⟩

theorem sees_executeQuery {φ : Option World} :
    Sim (exec env i) Sees (fun φ r => ∃ s, φ = some s ∧
        s.HasCollection (joinName x.tenant_id x.bot_id) ∧ r = x.result env s) (fun _ _ => True)
      (executeQuery env (joinName x.tenant_id x.bot_id) (searchRequest x (env.encode x.query)))
      φ := by
  refine sim_withRetry (K := fun _ => True) ?_ ?_ trivial
  · intro φ t c s _
    exact .inl rfl
  · intro φ _
    apply sim_do.mpr
    apply sim_perform.mpr
    intro c s
    refine ⟨some s, .inr rfl, ?_⟩
    cases h : (exec env i (.queryPoints (joinName x.tenant_id x.bot_id)
        (searchRequest x (env.encode x.query))) c s).1 with
    | error e => trivial
    | ok points =>
      have hserve := serve_of_answer rfl h
      simp only [serve] at hserve
      split at hserve
      · cases hserve
      · next col hcol =>
        obtain rfl := (Prod.mk.inj (Except.ok.inj hserve)).1
        refine ⟨s, rfl, World.hasCollection_iff.mpr ⟨col, hcol⟩, ?_⟩
        rw [Search.result, World.points_of_find? hcol]

/-- That is what it returns when it is run alone and served. -/
theorem Search.Answered.reply {r : SearchResult} (h : x.Answered env s r) :
    (Job.run env ⟨.search x, i, fun _ => .none⟩ s).reply = .ok (.search r) := by
  obtain ⟨col, hcol⟩ := World.hasCollection_iff.mp h.collection
  have hexists : Returns (exec env i) .none
      (call (.collectionExists (joinName x.tenant_id x.bot_id))) s true s := by
    apply returns_serve
    simp only [serve, hcol]
    rfl
  have hembed : Returns (exec env i) .none (embedQuery x.query) s (env.encode x.query) s := by
    rw [embedQuery_eq h.query]
    exact (returns_serve rfl).bind returns_pure
  have hpoints : Returns (exec env i) .none (call (.queryPoints (joinName x.tenant_id x.bot_id)
      (searchRequest x (env.encode x.query)))) s
      (env.query_points col.points.rows (searchRequest x (env.encode x.query))) s := by
    apply returns_serve
    simp only [serve, hcol]
  have hresult : Returns (exec env i) .none (executeQuery env (joinName x.tenant_id x.bot_id)
      (searchRequest x (env.encode x.query))) s r s := by
    refine returns_withRetry (hpoints.bind ?_)
    rw [h.result, Search.result, World.points_of_find? hcol]
    exact returns_pure
  have hfound : Returns (exec env i) .none (x.query_found env) s r s := hembed.bind hresult
  have hsearch : Returns (exec env i) .none (search env x) s r s :=
    (returns_ofExcept h.name).bind (hexists.bind hfound)
  have hreply : Returns (exec env i) .none ((Request.search x).program env) s (.search r) s :=
    hsearch.bind returns_pure
  exact hreply.1

/-- A search that returns has seen the state its result is that of. -/
theorem sees_search (x : Search) :
    Sim (exec env i) Sees (fun φ r => ∃ s, φ = some s ∧ x.Answered env s r) (fun _ _ => True)
      (search env x) none := by
  unfold search
  apply sim_do.mpr
  apply sim_ofExcept.mpr
  refine ⟨fun name hname => ?_, fun _ _ => trivial⟩
  obtain rfl : joinName x.tenant_id x.bot_id = name := (collectionName_eq_ok.mp hname).2.2
  apply sim_do.mpr
  apply sim_perform.mpr
  intro c s
  refine ⟨none, .inl rfl, ?_⟩
  cases (exec env i (.collectionExists (joinName x.tenant_id x.bot_id)) c s).1 with
  | error e => trivial
  | ok exists_ =>
    cases exists_ with
    | false => trivial
    | true =>
      apply sim_do.mpr
      refine sees_embedQuery.mono (fun φ e he => ?_) fun _ _ => id
      obtain ⟨hquery, rfl⟩ := he
      refine sees_executeQuery.mono (fun φ r hr => ?_) fun _ _ => id
      obtain ⟨s, hs, hcol, hresult⟩ := hr
      exact ⟨s, hs, hname, hquery, hcol, hresult⟩

/-! ## Interleaved searches -/

variable {requests : Nat → Write} {searches : Nat → Search}

/-- **Searches do not show.** The stores, the writes and their calls are those of a run without the
searches. -/
theorem writes_among_searches (env : Env) (requests : Nat → Write) (searches : Nat → Search)
    (sched : List ((Nat ⊕ Nat) × Fault)) :
    (interleaveSearches env requests searches sched).left =
      interleave env requests (leftTurns sched) := by
  refine left_run (S := fun _ o => o.searches = true) ?_ ?_ sched
  · intro j o c s ho
    exact exec_searches ho
  · intro j
    exact (only_search (searches j)).bind fun _ => trivial

/-- The stores at a moment. -/
theorem state_interleaveSearches (sched : List ((Nat ⊕ Nat) × Fault)) :
    (interleaveSearches env requests searches sched).state =
      (interleave env requests (leftTurns sched)).state :=
  congrArg Pool.state (writes_among_searches env requests searches sched)

/-- A search that returns has the result of a moment at which it made a call. -/
theorem answered_moment {sched : List ((Nat ⊕ Nat) × Fault)} {j : Nat} {reply : Reply}
    (hreply : (interleaveSearches env requests searches sched).threads (.inr j) = .pure reply) :
    ∃ n c, sched[n]? = some (.inr j, c) ∧
      ((interleaveSearches env requests searches (sched.take n)).threads (.inr j)).Calls ∧
      ∃ r, reply = .search r ∧
        (searches j).Answered env (interleave env requests (leftTurns (sched.take n))).state r := by
  have hsim : Sim (exec env j) Sees (fun φ reply => ∃ s, φ = some s ∧ ∃ r, reply = .search r ∧
        (searches j).Answered env s r)
      (fun _ _ => True) ((Request.search (searches j)).program env) none := by
    apply sim_do.mpr
    refine (sees_search (searches j)).mono (fun φ r hr => ?_) fun _ _ => id
    obtain ⟨s, hs, hanswered⟩ := hr
    exact ⟨s, hs, r, rfl, hanswered⟩
  obtain ⟨n, c, hn, hcalls, hrun⟩ := observed (i := Sum.inr j) hsim hreply
  refine ⟨n, c, hn, hcalls, ?_⟩
  have hstate : (interleaveSearches env requests searches (sched.take n)).state =
      (interleave env requests (leftTurns (sched.take n))).state := state_interleaveSearches _
  exact hstate ▸ hrun

/-- **Searches are linearizable.** With any writes and searches under way and any failures, the
stores and the writes are those of a run of the writes alone, and a search that returns gives what
it gives alone, served, on the stores of a moment between its first call and its last. -/
theorem search_linearizable (env : Env) (requests : Nat → Write) (searches : Nat → Search)
    (sched : List ((Nat ⊕ Nat) × Fault)) :
    (interleaveSearches env requests searches sched).left =
        interleave env requests (leftTurns sched) ∧
      ∀ j reply,
        (interleaveSearches env requests searches sched).threads (.inr j) = .pure reply →
        ∃ n c, sched[n]? = some (.inr j, c) ∧
          ((interleaveSearches env requests searches (sched.take n)).threads (.inr j)).Calls ∧
          (Job.run env ⟨.search (searches j), j, fun _ => .none⟩
            (interleave env requests (leftTurns (sched.take n))).state).reply = .ok reply := by
  refine ⟨writes_among_searches env requests searches sched, fun j reply hreply => ?_⟩
  obtain ⟨n, c, hn, hcalls, r, rfl, hanswered⟩ := answered_moment hreply
  exact ⟨n, c, hn, hcalls, hanswered.reply⟩

/-- The chunks a search that is done has returned. -/
def Sample.chunksOf : Program Reply → Option (List (Payload × Rat))
  | .pure (.search r) => some r.chunks
  | _ => none

theorem Sample.exists_chunks {p : Program Reply} {n : Nat}
    (h : (Sample.chunksOf p).map List.length = some n) :
    ∃ r, p = .pure (.search r) ∧ r.chunks.length = n := by
  unfold Sample.chunksOf at h
  split at h
  · exact ⟨_, rfl, Option.some.inj h⟩
  · cases h

/-- A search begins when its bot has one document, and ends when it has two. -/
def Sample.searching : List ((Nat ⊕ Nat) × Fault) :=
  let order : List (Nat ⊕ Nat) := List.replicate 40 (.inl 0) ++ [.inr 0] ++
    List.replicate 40 (.inl 1) ++ List.replicate 5 (.inr 0)
  order.map (·, .none)

/-- It returns the chunks of both. -/
theorem search_linearizable_twoDocuments :
    ∃ r : SearchResult, r.chunks.length = 2 ∧
      ∃ n c, Sample.searching[n]? = some (.inr 0, c) ∧
        (Job.run Sample.env ⟨.search (Sample.search Sample.acme "Hello"), 0, fun _ => .none⟩
          (interleave Sample.env Sample.twoDocuments
            (leftTurns (Sample.searching.take n))).state).reply = .ok (.search r) := by
  obtain ⟨r, hr, hlen⟩ := Sample.exists_chunks (n := 2)
    (p := (interleaveSearches Sample.env Sample.twoDocuments
      (fun _ => Sample.search Sample.acme "Hello") Sample.searching).threads (.inr 0))
    (by decide +kernel)
  obtain ⟨n, c, hn, -, hrun⟩ := (search_linearizable Sample.env Sample.twoDocuments
    (fun _ => Sample.search Sample.acme "Hello") Sample.searching).2 0 _ hr
  exact ⟨r, hlen, n, c, hn, hrun⟩

end QdrantRag
