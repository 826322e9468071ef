import QdrantRag.Verify.Agreement
import QdrantRag.Verify.Snapshots

/-! # What a search can find

The points of every collection come from uploads (`Sourced`), whatever fails, so every chunk that
any search returns is a chunk of an upload that was sent (`search_provenance`). Where writes succeed
from their first write of points on, the points of a document are at every moment those of the last
upload sent for it, or none after a deletion (`versioned`), so a search never mixes versions of a
document (`search_whole_versions`). -/

namespace QdrantRag
open Keyed Effect Effect.Prog Effect.Pool Text

variable {env : Env} {i j : Nat} {w : Write} {o : Op} {c : Fault} {s : World} {ev : Call}
  {φ φ' : Phase} {v v' : Stores} {d n : String} {x : Upload} {requests : Nat → Write}
  {log : List (Nat × Call)}

/-! ## Steps that write points -/

/-- A step that writes points clears the document of the request, or upserts its points. -/
theorem Step.writesPoints (hs : Step env i w φ ev φ') : ev.op.writesPoints = false ∨
    ev.op = .deletePoints w.collection (docFilter w.doc_id) ∨
      ∃ x, w = .upload x ∧ ev.op = .upsert w.collection (x.points env) := by
  cases hs with
  | quiet _ hq | register hq | collection _ _ hq => exact .inl (writesPoints_of_quiet hq)
  | clear | clearFails => exact .inr (.inl rfl)
  | upsert hw | upsertFails hw => exact .inr (.inr ⟨_, hw, rfl⟩)
  | _ => exact .inl rfl

/-! ## Where points come from -/

/-- Request `i` is the upload `x` and has sent its points. -/
structure Sent (env : Env) (requests : Nat → Write) (log : List (Nat × Call)) (i : Nat)
    (x : Upload) : Prop where
  request : requests i = .upload x
  call : ∃ ev, (i, ev) ∈ log ∧
    ev.op = .upsert (joinName x.tenant_id x.bot_id) (x.points env)

theorem Sent.cons (h : Sent env requests log i x) (e : Nat × Call) :
    Sent env requests (e :: log) i x where
  request := h.request
  call := h.call.imp fun _ hev => ⟨List.mem_cons_of_mem _ hev.1, hev.2⟩

/-- Every point is one of an upload that was sent to its collection. -/
def Sourced (env : Env) (requests : Nat → Write) (log : List (Nat × Call)) (s : World)
    (_ : Nat → Phase) : Prop :=
  ∀ n, ∀ pt ∈ (s.points n).rows, ∃ i x, Sent env requests log i x ∧
    n = joinName x.tenant_id x.bot_id ∧ pt ∈ x.points env

/-- A point that is there after a call was there before it, or the call sent it. -/
theorem mem_points_post {pt : Point} (hs : Step env i w φ ev φ')
    (hpt : pt ∈ ((ev.post (exec env i)).points n).rows) : pt ∈ (ev.pre.points n).rows ∨
      ∃ x, w = .upload x ∧ n = joinName x.tenant_id x.bot_id ∧ pt ∈ x.points env ∧
        ev.op = .upsert n (x.points env) := by
  rcases hs.writesPoints with ho | ho | ⟨x, rfl, ho⟩
  · rw [Event.post, points_of_not_writesPoints ho] at hpt
    exact .inl hpt
  · obtain ⟨o, c, s⟩ := ev
    obtain rfl : o = _ := ho
    rcases exec_cases env i c s (o := .deletePoints w.collection (docFilter w.doc_id)) rfl rfl
      with ⟨hno, e, h⟩ | ⟨happ, -⟩
    · rw [Event.post, h] at hpt
      exact .inl hpt
    · rw [← World.points_stores, Event.post, stores_clear happ] at hpt
      exact .inl (Stores.mem_clear.mp hpt).1
  · obtain ⟨o, c, s⟩ := ev
    obtain rfl : o = _ := ho
    rcases exec_cases env i c s
        (o := .upsert (Write.upload x).collection (x.points env)) rfl rfl
      with ⟨hno, e, h⟩ | ⟨happ, -⟩
    · rw [Event.post, h] at hpt
      exact .inl hpt
    · rw [← World.points_stores, Event.post, stores_upsert happ] at hpt
      rcases Stores.mem_of_mem_upsert hpt with ⟨rfl, hnew⟩ | hpt
      · exact .inr ⟨x, rfl, rfl, hnew, rfl⟩
      · exact .inl hpt

theorem Sourced.step {Φ : Nat → Phase} (h : Sourced env requests log ev.pre Φ)
    (hs : Step env i (requests i) (Φ i) ev φ') :
    Sourced env requests ((i, ev) :: log) (ev.post (exec env i)) (Function.update Φ i φ') := by
  intro n pt hpt
  rcases mem_points_post hs hpt with hpt | ⟨x, hw, rfl, hx, ho⟩
  · obtain ⟨j, x, hsent, hn, hx⟩ := h n pt hpt
    exact ⟨j, x, hsent.cons _, hn, hx⟩
  · exact ⟨i, x, ⟨hw, ev, List.mem_cons_self, ho⟩, rfl, hx⟩

/-- At every moment of every run. -/
theorem sourced_interleave (env : Env) (requests : Nat → Write) (sched : List (Nat × Fault)) :
    ∃ Φ, Sourced env requests (interleave env requests sched).log
      (interleave env requests sched).state Φ := by
  have h0 : Sourced env requests [] World.empty fun _ => .waiting := fun _ _ h => by cases h
  obtain ⟨Φ, hholds⟩ := Pool.run_rule (fun h hs _ => Sourced.step h hs) (holds_start h0) sched
    (Obeys.trivial _)
  exact ⟨Φ, hholds.inv⟩

/-! ## What a filter asks for -/

/-- What a search asks of a payload. No payload has tags or a category, so a search for either asks
for what no chunk has. -/
structure Search.Asks (x : Search) (p : Payload) : Prop where
  is_active : p.is_active = true
  source_type : ∀ types, x.source_types = some types → types ≠ [] → p.source_type ∈ types
  tags : ∀ tags, x.tags = some tags → tags = []
  category : ∀ category, x.category = some category → category = ""

theorem holds_anyCondition {key : String} {l : Option (List String)} {p : Payload} :
    (anyCondition key l).all (·.holds p) = true ↔ ∀ vs, l = some vs → vs ≠ [] →
      (⟨key, .any vs⟩ : FieldCondition).holds p = true := by
  cases l with
  | none => exact iff_of_true rfl fun _ h => by cases h
  | some vs =>
    cases vs with
    | nil => exact iff_of_true rfl fun _ h hne => absurd (Option.some.inj h).symm hne
    | cons v vs =>
      constructor
      · intro h _ he _
        obtain rfl := Option.some.inj he
        exact List.all_eq_true.mp h _ List.mem_cons_self
      · intro h
        refine List.all_eq_true.mpr fun cond hcond => ?_
        obtain rfl := List.mem_singleton.mp hcond
        exact h _ rfl (List.cons_ne_nil _ _)

theorem holds_buildFilter {x : Search} {p : Payload} :
    (buildFilter x).holds p = true ↔ x.Asks p := by
  have hflag : (⟨"is_active", .flag true⟩ : FieldCondition).holds p = (p.is_active == true) := rfl
  have hsource (vs : List String) :
      (⟨"source_type", .any vs⟩ : FieldCondition).holds p = vs.contains p.source_type := rfl
  have htags (vs : List String) : (⟨"tags", .any vs⟩ : FieldCondition).holds p = false := rfl
  have hcategory (v : String) : (⟨"category", .keyword v⟩ : FieldCondition).holds p = false := rfl
  have hlists : (([⟨"is_active", .flag true⟩] : List FieldCondition) ++
      anyCondition "source_type" x.source_types ++
      anyCondition "tags" x.tags).all (·.holds p) = true ↔
      p.is_active = true ∧ (∀ types, x.source_types = some types → types ≠ [] →
        p.source_type ∈ types) ∧ ∀ tags, x.tags = some tags → tags = [] := by
    rw [List.all_append, List.all_append, Bool.and_eq_true, Bool.and_eq_true, holds_anyCondition,
      holds_anyCondition, and_assoc]
    simp only [List.all_cons, List.all_nil, hflag, hsource, htags, Bool.and_true, beq_iff_eq,
      List.contains_iff_mem, Bool.false_eq_true, imp_false, not_not]
  rw [Filter.holds, buildFilter]
  cases hc : x.category with
  | none =>
    simp only [List.append_nil]
    rw [hlists]
    constructor
    · intro h
      exact ⟨h.1, h.2.1, h.2.2, fun _ he => by cases hc.symm.trans he⟩
    · intro h
      exact ⟨h.is_active, h.source_type, h.tags⟩
  | some category =>
    simp only
    by_cases hempty : category = ""
    · rw [if_pos hempty, List.append_nil, hlists]
      constructor
      · intro h
        exact ⟨h.1, h.2.1, h.2.2, fun _ he => Option.some.inj (hc.symm.trans he) ▸ hempty⟩
      · intro h
        exact ⟨h.is_active, h.source_type, h.tags⟩
    · rw [if_neg hempty, List.all_append, List.all_cons, hcategory, Bool.false_and, Bool.and_false]
      refine iff_of_false (by decide) fun h => hempty (h.category _ hc)

/-- **Every chunk found was uploaded.** Whatever is under way and whatever fails, a search that
returns gives payloads of points that uploads to its collection had sent by a moment of the search,
each of a source type it asks for. A search for tags or a category finds nothing: payloads have
neither. -/
theorem search_provenance (env : Env)
    (hfilter : ∀ pts q, ∀ p ∈ env.query_points pts q, q.query_filter.holds p.payload = true)
    (requests : Nat → Write) (searches : Nat → Search) (sched : List ((Nat ⊕ Nat) × Fault))
    (j : Nat) (r : SearchResult)
    (hr : (interleaveSearches env requests searches sched).threads (.inr j) =
      .pure (.search r)) :
    (∃ n c, sched[n]? = some (.inr j, c) ∧
      ((interleaveSearches env requests searches (sched.take n)).threads (.inr j)).Calls ∧
      ∀ chunk ∈ r.chunks, ∃ i x,
        Sent env requests (interleave env requests (leftTurns (sched.take n))).log i x ∧
        joinName x.tenant_id x.bot_id =
          joinName (searches j).tenant_id (searches j).bot_id ∧
        ∃ pt ∈ x.points env, pt.payload = chunk.1) ∧
    (∀ chunk ∈ r.chunks, (searches j).Asks chunk.1) ∧
    ((∃ tags, (searches j).tags = some tags ∧ tags ≠ []) ∨
        (∃ category, (searches j).category = some category ∧ category ≠ "") →
      r.chunks = []) := by
  obtain ⟨n, c, hn, hrunning, r', hr', hanswered⟩ := answered_moment hr
  cases hr'
  have hasks : ∀ chunk ∈ r.chunks, (searches j).Asks chunk.1 := by
    intro chunk hchunk
    rw [hanswered.result] at hchunk
    obtain ⟨p, hp, rfl⟩ := List.mem_map.mp hchunk
    exact holds_buildFilter.mp (hfilter _ _ p hp)
  refine ⟨⟨n, c, hn, hrunning, fun chunk hchunk => ?_⟩, hasks, fun hnone => ?_⟩
  · rw [hanswered.result] at hchunk
    obtain ⟨p, hp, rfl⟩ := List.mem_map.mp hchunk
    obtain ⟨pt, hpt, hpayload⟩ := env.query_mem _ _ p hp
    obtain ⟨Φ, hsourced⟩ := sourced_interleave env requests (leftTurns (sched.take n))
    obtain ⟨i, x, hsent, hname, hx⟩ := hsourced _ pt hpt
    exact ⟨i, x, hsent, hname.symm, pt, hx, hpayload⟩
  · apply List.eq_nil_iff_forall_not_mem.mpr
    intro chunk hchunk
    rcases hnone with ⟨tags, htags, hne⟩ | ⟨category, hcategory, hne⟩
    · exact hne ((hasks chunk hchunk).tags tags htags)
    · exact hne ((hasks chunk hchunk).category category hcategory)

theorem Sample.query_points_filter (pts : List Point) (q : QueryRequest) :
    ∀ p ∈ Sample.env.query_points pts q, q.query_filter.holds p.payload = true := by
  intro p hp
  obtain ⟨pt, hpt, rfl⟩ := List.mem_map.mp hp
  exact (List.mem_filter.mp (List.mem_of_mem_take hpt)).2

theorem search_provenance_twoDocuments :
    ∃ r : SearchResult, r.chunks.length = 2 ∧
      ∀ chunk ∈ r.chunks, (Sample.search Sample.acme "Hello").Asks chunk.1 := by
  obtain ⟨r, hr, hlen⟩ := Sample.exists_chunks (n := 2)
    (p := (interleaveSearches Sample.env Sample.twoDocuments
      (fun _ => Sample.search Sample.acme "Hello") Sample.searching).threads (.inr 0))
    (by decide +kernel)
  exact ⟨r, hlen, (search_provenance Sample.env Sample.query_points_filter Sample.twoDocuments
    (fun _ => Sample.search Sample.acme "Hello") Sample.searching 0 r hr).2.1⟩

/-! ## Versions of a document -/

/-- The upload whose points a document has, by the calls made: the last that was sent for it, unless
its points were deleted since. -/
def lastSent (requests : Nat → Write) : List (Nat × Call) → String → Option Upload
  | [], _ => none
  | (i, ev) :: log, d =>
    if (requests i).doc_id = d then
      match ev.op, requests i with
      | .upsert .., .upload x => some x
      | .deletePoints .., _ => none
      | _, _ => lastSent requests log d
    else lastSent requests log d

theorem lastSent_of_ne (h : d ≠ (requests i).doc_id) :
    lastSent requests ((i, ev) :: log) d = lastSent requests log d := if_neg (Ne.symm h)

theorem lastSent_of_not_writesPoints (h : ev.op.writesPoints = false) :
    lastSent requests ((i, ev) :: log) d = lastSent requests log d := by
  rw [lastSent]
  split
  · split
    · next ho _ =>
      rw [ho] at h
      cases h
    · next ho =>
      rw [ho] at h
      cases h
    · rfl
  · rfl

/-- The points of the document are those of the upload, or there are none. -/
def Content (env : Env) (v : Stores) (d : String) : Option Upload → Prop
  | none => Cleared v d
  | some x => x.doc_id = d ∧ Filled v d (joinName x.tenant_id x.bot_id) (x.points env)

theorem Content.congr {ox : Option Upload} (h : Content env v d ox) (hp : SamePoints v v' d) :
    Content env v' d ox := by
  cases ox with
  | none => exact Cleared.congr h hp
  | some x => exact ⟨h.1, h.2.congr hp⟩

/-- Every document has the points that the calls made say it has. -/
def Versioned (env : Env) (requests : Nat → Write) (log : List (Nat × Call)) (s : World)
    (Φ : Nat → Phase) : Prop :=
  Agreeing env requests log s Φ ∧ ∀ d, Content env s.stores d (lastSent requests log d)

/-- A write of points that succeeds leaves the request at the stage that follows it. -/
theorem Step.sends (hs : Step env i w φ ev φ') (hg : Committing env log i ev) :
    ev.op.writesPoints = false ∨
      (∃ n f row, ev.op = .deletePoints n f ∧ φ' = .holding (.cleared row)) ∨
      ∃ x n pts ex, w = .upload x ∧ ev.op = .upsert n pts ∧ φ' = .holding (.upserted ex) := by
  have hfails {o : Op} {c : Fault} {s : World} (hw : o.writesPoints = true)
      (hg : Committing env log i ⟨o, c, s⟩) (hok : Event.ok (exec env i) ⟨o, c, s⟩ = false) :
      False := by
    rw [hg (.head hw)] at hok
    cases hok
  cases hs with
  | quiet _ hq | register hq | collection _ _ hq => exact .inl (writesPoints_of_quiet hq)
  | clear => exact .inr (.inl ⟨_, _, _, rfl, rfl⟩)
  | upsert hw => exact .inr (.inr ⟨_, _, _, _, hw, rfl, rfl⟩)
  | clearFails _ hok | upsertFails _ _ hok => exact (hfails rfl hg hok).elim
  | _ => exact .inl rfl

theorem Versioned.step {Φ : Nat → Phase} (henv : env.DistinctIds (Set.range requests))
    (hone : OnePair requests) (h : Versioned env requests log ev.pre Φ)
    (hs : Step env i (requests i) (Φ i) ev φ') (hg : Committing env log i ev) :
    Versioned env requests ((i, ev) :: log) (ev.post (exec env i)) (Function.update Φ i φ') := by
  have hagree := h.1.step henv hone hs hg
  refine ⟨hagree, fun d => ?_⟩
  by_cases hd : d = (requests i).doc_id
  · subst hd
    rcases hs.sends hg with ho | ⟨n, f, row, ho, rfl⟩ | ⟨x, n, pts, ex, hw, ho, rfl⟩
    · rw [lastSent_of_not_writesPoints ho]
      refine (h.2 _).congr fun m pt _ => ?_
      rw [World.points_stores, World.points_stores, Event.post, points_of_not_writesPoints ho]
    · have hat := hagree.busy i (.cleared row) (Function.update_self ..)
      have hlast : lastSent requests ((i, ev) :: log) (requests i).doc_id = none := by
        rw [lastSent, if_pos rfl, ho]
      rw [hlast]
      exact hat.1
    · obtain ⟨-, x', hw', hfill, -⟩ := hagree.busy i (.upserted ex) (Function.update_self ..)
      have hlast : lastSent requests ((i, ev) :: log) (requests i).doc_id = some x := by
        rw [lastSent, if_pos rfl, ho, hw]
      obtain rfl := Write.upload.inj (hw.symm.trans hw')
      rw [hlast]
      rw [hw] at hfill ⊢
      exact ⟨rfl, hfill⟩
  · rw [lastSent_of_ne hd]
    exact (h.2 d).congr (h.1.frame henv hs hd).1

theorem versioned_interleave (henv : env.DistinctIds (Set.range requests))
    (hone : OnePair requests) (sched : List (Nat × Fault))
    (hcalls : Obeys (Committing env) (interleave env requests sched).log) (d : String) :
    Content env (interleave env requests sched).state.stores d
      (lastSent requests (interleave env requests sched).log d) := by
  have h0 : Versioned env requests [] World.empty fun _ => .waiting :=
    ⟨.start, fun _ _ _ h => by cases h⟩
  obtain ⟨Φ, hholds⟩ := Pool.run_rule (fun h hs hg => Versioned.step henv hone h hs hg)
    (holds_start h0) sched hcalls
  exact hholds.inv.2 d

/-- A moment of a run that obeys a guard obeys it. -/
theorem obeys_take {guard : List (Nat × Call) → Nat → Call → Prop} {l l' : List (Nat × Fault)}
    (h : Obeys guard (interleave env requests (l ++ l')).log) :
    Obeys guard (interleave env requests l).log := by
  obtain ⟨new, hnew⟩ := (interleave env requests l).log_suffix (exec env) l'
  have happend : interleave env requests (l ++ l') =
      (interleave env requests l).run (exec env) l' := Pool.run_append ..
  rw [happend, hnew] at h
  exact h.of_append

/-- **Searches never mix versions of a document.** With no document sent under two pairs and writes
that succeed from their first write of points on, at every moment the points of every document are
those of the last upload sent for it, or none where they were deleted since; so all chunks of a
document in the result of a search are those of one upload, the last one sent at a moment of the
search. -/
theorem search_whole_versions (env : Env) (requests : Nat → Write)
    (henv : env.DistinctIds (Set.range requests)) (searches : Nat → Search)
    (hone : OnePair requests) (sched : List ((Nat ⊕ Nat) × Fault))
    (hcalls : Obeys (Committing env) (interleave env requests (leftTurns sched)).log) :
    (∀ d, Content env (interleaveSearches env requests searches sched).state.stores d
      (lastSent requests (interleave env requests (leftTurns sched)).log d)) ∧
    ∀ j r, (interleaveSearches env requests searches sched).threads (.inr j) = .pure (.search r) →
      ∃ n c, sched[n]? = some (.inr j, c) ∧
        ((interleaveSearches env requests searches (sched.take n)).threads (.inr j)).Calls ∧
        ∀ chunk ∈ r.chunks, ∃ x,
          lastSent requests (interleave env requests (leftTurns (sched.take n))).log
            chunk.1.doc_id = some x ∧
          x.doc_id = chunk.1.doc_id ∧ ∃ pt ∈ x.points env, pt.payload = chunk.1 := by
  constructor
  · intro d
    rw [state_interleaveSearches]
    exact versioned_interleave henv hone _ hcalls d
  · intro j r hr
    obtain ⟨n, c, hn, hrunning, r', hr', hanswered⟩ := answered_moment hr
    cases hr'
    refine ⟨n, c, hn, hrunning, fun chunk hchunk => ?_⟩
    have hmoment : Obeys (Committing env)
        (interleave env requests (leftTurns (sched.take n))).log := by
      rw [← List.take_append_drop n sched, leftTurns_append] at hcalls
      exact obeys_take hcalls
    rw [hanswered.result] at hchunk
    obtain ⟨p, hp, rfl⟩ := List.mem_map.mp hchunk
    obtain ⟨pt, hpt, hpayload⟩ := env.query_mem _ _ p hp
    have hcontent := versioned_interleave henv hone _ hmoment p.payload.doc_id
    cases hlast : lastSent requests (interleave env requests (leftTurns (sched.take n))).log
        p.payload.doc_id with
    | none =>
      rw [hlast] at hcontent
      exact absurd (congrArg Payload.doc_id hpayload) (hcontent _ pt hpt)
    | some x =>
      rw [hlast] at hcontent
      obtain ⟨hd, hfill⟩ := hcontent
      have hx := (hfill _ pt (congrArg Payload.doc_id hpayload)).mp hpt
      exact ⟨x, rfl, hd, pt, hx.2, hpayload⟩

/-- Two versions of a document. -/
def Sample.twoVersions (i : Nat) : Write :=
  .upload (two (upload acme docA "h1" ["Hello"]) (upload acme docA "h2" ["World"]) i)

/-- A search that begins when the first is there and ends when the second is returns the second. -/
theorem search_whole_versions_replaced :
    ∃ r : SearchResult, r.chunks.length = 1 ∧ ∃ n c, Sample.searching[n]? = some (.inr 0, c) ∧
      ∀ chunk ∈ r.chunks, ∃ x,
        lastSent Sample.twoVersions
          (interleave Sample.env Sample.twoVersions (leftTurns (Sample.searching.take n))).log
          chunk.1.doc_id = some x ∧ ∃ pt ∈ x.points Sample.env, pt.payload = chunk.1 := by
  obtain ⟨r, hr, hlen⟩ := Sample.exists_chunks (n := 1)
    (p := (interleaveSearches Sample.env Sample.twoVersions
      (fun _ => Sample.search Sample.acme "Hello") Sample.searching).threads (.inr 0))
    (by decide +kernel)
  have hpair (i : Nat) : (Sample.twoVersions i).pair = Sample.acme := by
    cases i <;> rfl
  obtain ⟨n, c, hn, -, hchunks⟩ := (search_whole_versions Sample.env Sample.twoVersions
    Sample.env_distinctIds (fun _ => Sample.search Sample.acme "Hello")
    (fun i j _ => (hpair i).trans (hpair j).symm) Sample.searching (by decide +kernel)).2 0 r hr
  refine ⟨r, hlen, n, c, hn, fun chunk hchunk => ?_⟩
  obtain ⟨x, hlast, -, hx⟩ := hchunks chunk hchunk
  exact ⟨x, hlast, hx⟩

end QdrantRag
