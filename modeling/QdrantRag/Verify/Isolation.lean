import QdrantRag.Verify.Changes
import QdrantRag.Verify.Sample
import QdrantRag.Verify.Simulation

/-! # Isolation of the pairs

Every document row and every point is owned by a pair whose bot row exists, a point's collection
being that of the bot row (`Owned`). As `collection_name` is a unique column, a collection holds
points of one pair only, whatever the names of the pairs are, and the writes of a pair leave the
points of every other pair alone (`write_isolation`). Searches rest on the name alone
(`search_isolation`). -/

namespace QdrantRag
open Keyed Effect Effect.Prog Text

variable {env : Env} {i : Nat} {w : Write} {s : World} {ev : Call} {φ φ' : Phase} {v v' : Stores}

/-! ## Ownership -/

theorem Bot.collection_name_eq (b : Bot) : b.collection_name = joinName b.tenant_id b.bot_id :=
  (collectionName_eq_ok.mp b.derived).2.2.symm

theorem Bot.collection_name_of_pair {b : Bot} (h : b.pair = w.pair) :
    b.collection_name = w.collection := by
  obtain ⟨hT, hB⟩ := Prod.mk.inj h
  rw [b.collection_name_eq, hT, hB]
  rfl

/-- Rows and points belong to registered pairs, points in their collection. -/
structure Owned (bots : Table Bot) (v : Stores) : Prop where
  rows : ∀ d r, v.row d = some r → ∃ b ∈ bots.rows, b.pair = r.owner
  points : ∀ n, ∀ pt ∈ (v.points n).rows,
    ∃ b ∈ bots.rows, b.pair = pt.payload.owner ∧ b.collection_name = n

theorem Owned.mono {bots bots' : Table Bot} (h : Owned bots v)
    (hb : ∀ b ∈ bots.rows, b ∈ bots'.rows) : Owned bots' v where
  rows d r hr := (h.rows d r hr).imp fun _ hm => ⟨hb _ hm.1, hm.2⟩
  points n pt hpt := (h.points n pt hpt).imp fun _ hm => ⟨hb _ hm.1, hm.2⟩

/-- A change made by a request whose pair is registered keeps ownership. -/
theorem Owned.change {bots : Table Bot} (h : Owned bots v)
    (hreg : φ.entitled = true → ∃ b ∈ bots.rows, b.pair = w.pair) (hc : Change env w φ φ' v v') :
    Owned bots v' := by
  cases hc with
  | none => exact h
  | @refresh x row hw =>
    refine ⟨fun d r hr => ?_, h.points⟩
    rw [Stores.row_refresh, Option.map_eq_some_iff] at hr
    obtain ⟨r, hr, rfl⟩ := hr
    obtain ⟨b, hb, hp⟩ := h.rows d r hr
    exact ⟨b, hb, by split <;> exact hp⟩
  | clear => exact ⟨h.rows, fun n pt hpt => h.points n pt (Stores.mem_clear.mp hpt).1⟩
  | @upsert x _ hw he =>
    refine ⟨h.rows, fun n pt hpt => ?_⟩
    rcases Stores.mem_of_mem_upsert hpt with ⟨rfl, hnew⟩ | hpt
    · obtain ⟨b, hb, hp⟩ := hreg he
      subst hw
      exact ⟨b, hb, hp.trans (Upload.owner_of_mem hnew).1.symm, Bot.collection_name_of_pair hp⟩
    · exact h.points n pt hpt
  | @store x bot ex hw hbot he _ =>
    refine ⟨fun d r hr => ?_, h.points⟩
    by_cases hd : d = w.doc_id
    · subst hd
      obtain ⟨b, hb, hp⟩ := hreg (he ▸ rfl)
      obtain ⟨t, ht⟩ := v.row_store w.doc_id (uploadDefaults env x bot (x.points env).length) x.now
      cases hr.symm.trans ht
      subst hw
      exact ⟨b, hb, hp⟩
    · rw [Stores.row_store_of_ne hd] at hr
      exact h.rows d r hr
  | @erase x row hw =>
    refine ⟨fun d r hr => ?_, h.points⟩
    rw [Stores.row_erase, Option.map_eq_some_iff] at hr
    obtain ⟨r, hr, rfl⟩ := hr
    obtain ⟨b, hb, hp⟩ := h.rows d r hr
    exact ⟨b, hb, by split <;> exact hp⟩

/-- The ownership of a state, and the registration of the requests under way. -/
def Entitled (w : Write) (φ : Phase) (s : World) : Prop :=
  φ.entitled = true → ∃ b ∈ s.bots.rows, b.pair = w.pair

theorem Entitled.grows {s' : World} (h : Entitled w φ s) (hg : s.Grows s') : Entitled w φ s' :=
  fun he => (h he).imp fun _ hm => ⟨hg.bots _ hm.1, hm.2⟩

theorem Owned.post (h : Owned ev.pre.bots ev.pre.stores) (he : Entitled w φ ev.pre)
    (hs : Step env i w φ ev φ') :
    Owned (ev.post (exec env i)).bots (ev.post (exec env i)).stores :=
  (h.mono ev.grows.bots).change (he.grows ev.grows) hs.change

/-- A request that goes on to a phase in which its pair is registered has seen its bot row, or,
being a delete, a document of its pair. -/
theorem Entitled.step (h : Owned ev.pre.bots ev.pre.stores) (he : Entitled w φ ev.pre)
    (hs : Step env i w φ ev φ') : Entitled w φ' (ev.post (exec env i)) := by
  have hsame (hφ : φ'.entitled = true → φ.entitled = true) :
      Entitled w φ' (ev.post (exec env i)) := fun hp => he.grows ev.grows (hφ hp)
  cases hs with
  | register _ hbot => exact fun _ => hbot
  | own _ hrow hown =>
    obtain ⟨b, hb, hp⟩ := h.rows _ _ hrow
    exact fun _ => ⟨b, (Call.grows _).bots b hb, hp.trans hown⟩
  | poll | acquire | sleep | unlock => exact fun hp => absurd hp (by simp [Phase.entitled])
  | quiet => exact hsame id
  | collection _ hst => exact hsame fun _ => by rcases hst with rfl | rfl <;> rfl
  | absent hst | clear hst | clearFails hst | upsert _ hst | upsertFails _ hst =>
    exact hsame fun _ => hst.entitled
  | _ => exact hsame fun _ => rfl

/-- The changes of a registered request leave the points of other pairs as they are. -/
theorem Change.points_of_ne (h : Owned s.bots v) (he : Entitled w φ s) (hc : Change env w φ φ' v v')
    {n : String} {pt : Point} (hne : pt.payload.owner ≠ w.pair) :
    pt ∈ (v'.points n).rows ↔ pt ∈ (v.points n).rows := by
  -- in the request's own collection every point has its pair, by the unique column
  have hown (hφ : φ.entitled = true) (hpt : pt ∈ (v.points w.collection).rows) : False := by
    obtain ⟨b, hb, hp⟩ := he hφ
    obtain ⟨b', hb', hp', hn⟩ := h.points _ pt hpt
    have : b' = b := s.unique_collection_name b' hb' b hb
      (hn.trans (Bot.collection_name_of_pair hp).symm)
    exact hne (hp'.symm.trans (this ▸ hp))
  cases hc with
  | none | refresh | store | erase => rfl
  | clear hφ =>
    rw [Stores.mem_clear]
    refine ⟨And.left, fun hpt => ⟨hpt, ?_⟩⟩
    rintro ⟨rfl, -⟩
    exact hown hφ hpt
  | @upsert x _ hw hφ =>
    by_cases hn : n = w.collection
    · subst hn
      refine ⟨fun hpt => ?_, fun hpt => absurd hpt (hown hφ)⟩
      rcases Stores.mem_of_mem_upsert hpt with ⟨_, hnew⟩ | hpt
      · subst hw
        exact absurd (Upload.owner_of_mem hnew).1 hne
      · exact hpt
    · rw [Stores.points_upsert_of_ne hn]

/-! ## Interleaved requests -/

/-- The ownership of the state, with the registration of every request under way. -/
def Owning (requests : Nat → Write) (_ : List (Nat × Call)) (s : World) (φ : Nat → Phase) : Prop :=
  Owned s.bots s.stores ∧ ∀ i, Entitled (requests i) (φ i) s

theorem Owning.step {requests : Nat → Write} {log : List (Nat × Call)} {φ : Nat → Phase}
    {φ' : Phase} (h : Owning requests log ev.pre φ) (hs : Step env i (requests i) (φ i) ev φ') :
    Owning requests ((i, ev) :: log) (ev.post (exec env i)) (Function.update φ i φ') := by
  refine ⟨h.1.post (h.2 i) hs, fun j => ?_⟩
  by_cases hj : j = i
  · subst hj
    rw [Function.update_self]
    exact Entitled.step h.1 (h.2 j) hs
  · rw [Function.update_of_ne hj]
    exact (h.2 j).grows ev.grows

theorem Owned.empty : Owned World.empty.bots World.empty.stores where
  rows _ _ h := nomatch h
  points _ _ h := nomatch h

/-- Ownership holds at every moment of every run. -/
theorem owning_interleave (env : Env) (requests : Nat → Write) (sched : List (Nat × Fault)) :
    ∃ φ, Pool.Holds (exec env) (fun i => Step env i (requests i))
      (fun i φ rep => ∃ st, φ = .finished st ∧ Answers env (requests i) st rep)
      (fun _ φ _ => φ.Outside) (Owning requests) (interleave env requests sched) φ := by
  exact Pool.run_rule (fun h hs _ => h.step hs) (holds_start ⟨.empty, fun _ h => nomatch h⟩) sched
    (Obeys.trivial _)

/-! ## One request after the other -/

/-- Under way from `s₀`: ownership holds, and the points of other pairs are those of `s₀`. -/
structure Keeping (w : Write) (s₀ s : World) (φ : Phase) : Prop where
  owned : Owned s.bots s.stores
  entitled : Entitled w φ s
  others : ∀ n pt, pt.payload.owner ≠ w.pair →
    (pt ∈ (s.points n).rows ↔ pt ∈ (s₀.points n).rows)

theorem Keeping.step {s₀ : World} (h : Keeping w s₀ ev.pre φ) (hs : Step env i w φ ev φ') :
    Keeping w s₀ (ev.post (exec env i)) φ' where
  owned := h.owned.post h.entitled hs
  entitled := Entitled.step h.owned h.entitled hs
  others n pt hne := (hs.change.points_of_ne h.owned h.entitled hne).trans (h.others n pt hne)

/-- A request run alone keeps ownership, and leaves the points of other pairs as they were. -/
theorem Write.keeping_run (w : Write) (env : Env) (i : Nat) (plan : Nat → Fault)
    (h : Owned s.bots s.stores) :
    ∃ φ, Keeping w s ((w.program env).run (exec env i) plan s).state φ := by
  obtain ⟨φ, hk, -⟩ := w.run_rule (fun _ => Keeping w s) (fun _ => True)
    (fun _ _ _ _ hk hs _ => hk.step hs) plan ⟨h, (nomatch ·), fun _ _ _ => Iff.rfl⟩
    (fun _ _ => trivial)
  exact ⟨φ, hk⟩

/-! ## Searches -/

/-- A search makes calls that write nothing; once its query is answered it has its chunks, all of
them payloads of points of its collection. -/
inductive SearchStep (x : Search) :
    Option (List (Payload × Rat)) → Call → Option (List (Payload × Rat)) → Prop
  | quiet {o c s} (hq : o.quiet = true) : SearchStep x none ⟨o, c, s⟩ none
  | hits {o c s chunks} (hq : o.quiet = true)
      (hmem : ∀ chunk ∈ chunks, ∃ pt ∈ (s.points (joinName x.tenant_id x.bot_id)).rows,
        pt.payload = chunk.1) : SearchStep x none ⟨o, c, s⟩ (some chunks)

/-- A call of a search that leaves it without chunks. -/
theorem sim_search_quiet {x : Search} {o : Op} {ok : Option (List (Payload × Rat)) → Ans o → Prop}
    (hq : o.quiet = true) (hok : ∀ a, ok none a) :
    Sim (exec env i) (SearchStep x) ok (fun φ _ => φ = none) (call o) none := by
  refine sim_perform.mpr fun c s => ⟨_, .quiet hq, ?_⟩
  cases (exec env i o c s).1 with
  | ok a => exact hok a
  | error e => rfl

theorem sim_executeQuery {x : Search} {request : QueryRequest} :
    Sim (exec env i) (SearchStep x) (fun φ r => φ = some r.chunks) (fun φ _ => φ = none)
      (executeQuery env (joinName x.tenant_id x.bot_id) request) none := by
  refine sim_withRetry (K := (· = none)) ?_ ?_ rfl
  · rintro _ t c s rfl
    exact .quiet rfl
  · rintro _ rfl
    refine sim_do.mpr (sim_perform.mpr fun c s => ?_)
    cases h : (exec env i (.queryPoints (joinName x.tenant_id x.bot_id) request) c s).1 with
    | error e => exact ⟨_, .quiet rfl, rfl⟩
    | ok points =>
      refine ⟨_, .hits rfl fun chunk hchunk => ?_, rfl⟩
      obtain ⟨p, hp, rfl⟩ := List.mem_map.mp hchunk
      have hserve := serve_of_answer rfl h
      simp only [serve] at hserve
      split at hserve
      · cases hserve
      · next col hcol =>
        cases (Prod.mk.inj (Except.ok.inj hserve)).1
        obtain ⟨pt, hpt, hpay⟩ := env.query_mem _ _ p hp
        exact ⟨pt, (World.points_of_find? hcol).symm ▸ hpt, hpay⟩

theorem sim_embedQuery {x : Search} {text : String} :
    Sim (exec env i) (SearchStep x) (fun φ _ => φ = none) (fun φ _ => φ = none)
      (embedQuery text) none := by
  have hpassages (texts : List String) :
      Sim (exec env i) (SearchStep x) (fun φ _ => φ = none) (fun φ _ => φ = none)
        (embedPassages texts) none :=
    sim_do.mpr (sim_ofExcept.mpr ⟨fun _ _ => sim_search_quiet rfl fun _ => rfl, fun _ _ => rfl⟩)
  have hout : Sim (exec env i) (SearchStep x) (fun φ _ => φ = none) (fun φ _ => φ = none)
      (embedPassages [text] >>= firstEmbedding) none := by
    refine sim_do.mpr ((hpassages [text]).mono ?_ fun _ _ => id)
    rintro _ out rfl
    cases out <;> rfl
  exact Sim.ite (fun _ => rfl) fun _ => hout

theorem sim_search (x : Search) :
    Sim (exec env i) (SearchStep x) (fun φ r => φ = some r.chunks) (fun φ _ => φ = none)
      (search env x) none := by
  unfold search
  refine sim_do.mpr (sim_ofExcept.mpr ⟨fun name hname => ?_, fun _ _ => rfl⟩)
  obtain rfl : joinName x.tenant_id x.bot_id = name := (collectionName_eq_ok.mp hname).2.2
  refine sim_do.mpr (sim_search_quiet rfl fun exists_ => ?_)
  cases exists_ with
  | false => rfl
  | true =>
    refine sim_do.mpr (sim_embedQuery.mono ?_ fun _ _ => id)
    rintro _ e rfl
    exact sim_executeQuery

/-- Under way from `s₀`: nothing is written, and the chunks come from the collection. -/
structure Searching (x : Search) (s₀ s : World) (φ : Option (List (Payload × Rat))) : Prop where
  stores : s.stores = s₀.stores
  locks : s.locks = s₀.locks
  grows : s₀.Grows s
  chunks : ∀ chunks, φ = some chunks → ∀ chunk ∈ chunks,
    ∃ pt ∈ (s₀.points (joinName x.tenant_id x.bot_id)).rows, pt.payload = chunk.1

theorem Searching.step {x : Search} {s₀ : World} {φ φ' : Option (List (Payload × Rat))}
    (h : Searching x s₀ ev.pre φ) (hs : SearchStep x φ ev φ') :
    Searching x s₀ (ev.post (exec env i)) φ' := by
  have hq : ev.op.quiet = true := by cases hs <;> assumption
  have hsame : ev.pre.Same (ev.post (exec env i)) := quiet_frame hq
  refine ⟨hsame.stores.trans h.stores, hsame.locks.trans h.locks, ?_, ?_⟩
  · exact ⟨fun b hb => ev.grows.bots b (h.grows.bots b hb),
      fun n hn => ev.grows.collections n (h.grows.collections n hn)⟩
  · cases hs with
    | quiet => exact h.chunks
    | hits _ hmem =>
      rintro _ ⟨⟩ chunk hchunk
      obtain ⟨pt, hpt, hpay⟩ := hmem chunk hchunk
      exact ⟨pt, by rwa [← World.points_stores, ← h.stores], hpay⟩

/-- A search writes nothing, and its chunks are payloads of points of its collection. -/
theorem searching_run (env : Env) (i : Nat) (s : World) (x : Search) (plan : Nat → Fault) :
    ∃ φ, Searching x s (((Request.search x).program env).run (exec env i) plan s).state φ ∧
      ∀ r, (((Request.search x).program env).run (exec env i) plan s).reply = .ok (.search r) →
        φ = some r.chunks := by
  have hsim : Sim (exec env i) (SearchStep x)
      (fun φ rep => ∃ r, rep = .search r ∧ φ = some r.chunks) (fun φ _ => φ = none)
      ((Request.search x).program env) none :=
    sim_do.mpr ((sim_search x).mono (fun _ r h => ⟨r, rfl, h⟩) fun _ _ => id)
  have h0 : Searching x s s none := ⟨rfl, rfl, .refl s, fun _ h => by cases h⟩
  obtain ⟨φ, hφ, hr⟩ := Prog.run_rule (fun _ => Searching x s) (fun _ => True)
    (fun _ _ _ _ h hs _ => h.step hs) plan h0 (fun _ _ => trivial) hsim
  refine ⟨φ, hφ, fun r hrep => ?_⟩
  rw [hrep] at hr
  obtain ⟨_, he, hφ⟩ := hr
  cases he
  exact hφ

/-! ## Write isolation -/

/-- Ownership holds after any requests, in any order, with any failures. -/
theorem owned_after (env : Env) (jobs : List Job) (h : Owned s.bots s.stores) :
    Owned (World.after env jobs s).bots (World.after env jobs s).stores := by
  induction jobs generalizing s with
  | nil => exact h
  | cons job jobs ih =>
    refine ih ?_
    obtain ⟨request, session, faults⟩ := job
    cases request with
    | write w =>
      obtain ⟨_, hk⟩ := w.keeping_run env session faults h
      exact hk.owned
    | search x =>
      obtain ⟨_, hx, -⟩ := searching_run env session s x faults
      have := h.mono hx.grows.bots
      rwa [← hx.stores] at this

/-- A collection holds points of one pair only. -/
def World.OneOwner (s : World) : Prop :=
  ∀ n, ∀ pt ∈ (s.points n).rows, ∀ pt' ∈ (s.points n).rows, pt.payload.owner = pt'.payload.owner

theorem Owned.oneOwner (h : Owned s.bots s.stores) : s.OneOwner := by
  intro n pt hpt pt' hpt'
  obtain ⟨b, hb, hp, hn⟩ := h.points n pt hpt
  obtain ⟨b', hb', hp', hn'⟩ := h.points n pt' hpt'
  obtain rfl := s.unique_collection_name b hb b' hb' (hn.trans hn'.symm)
  exact hp.symm.trans hp'

/-- **Write isolation.** After any requests, one after the other or interleaved, with any failures,
every collection holds points of one pair only, and the next request, or the next call of one
under way, leaves the points of all other pairs as they are. -/
theorem write_isolation (env : Env) :
    (∀ jobs, (World.after env jobs World.empty).OneOwner ∧
      ∀ w session faults n pt, pt.payload.owner ≠ w.pair →
        (pt ∈ ((Job.run env ⟨.write w, session, faults⟩
            (World.after env jobs World.empty)).state.points n).rows ↔
          pt ∈ ((World.after env jobs World.empty).points n).rows)) ∧
    ∀ requests sched, (interleave env requests sched).state.OneOwner ∧
      ∀ i c n pt, pt.payload.owner ≠ (requests i).pair →
        (pt ∈ ((interleave env requests (sched ++ [(i, c)])).state.points n).rows ↔
          pt ∈ ((interleave env requests sched).state.points n).rows) := by
  refine ⟨fun jobs => ?_, fun requests sched => ?_⟩
  · have hown := owned_after env jobs Owned.empty
    refine ⟨hown.oneOwner, fun w session faults n pt hne => ?_⟩
    obtain ⟨_, hk⟩ := w.keeping_run env session faults hown
    exact hk.others n pt hne
  · obtain ⟨φ, hholds⟩ := owning_interleave env requests sched
    refine ⟨hholds.inv.1.oneOwner, fun i c n pt hne => ?_⟩
    have hnext : interleave env requests (sched ++ [(i, c)]) =
        (interleave env requests sched).step (exec env) i c := Pool.run_append ..
    rw [hnext]
    rcases hholds.step_cases i c with h | ⟨ev, φ', hs, hpre, hpost⟩
    · rw [h]
    · have hown : Owned ev.pre.bots ev.pre.stores := hpre ▸ hholds.inv.1
      have he : Entitled (requests i) (φ i) ev.pre := hpre ▸ hholds.inv.2 i
      rw [hpost, ← hpre]
      exact hs.change.points_of_ne hown he hne

/-! ## Search isolation -/

/-- The collection name of the pair is that of another pair's bot. -/
def World.NameTaken (s : World) (p : String × String) : Prop :=
  ∃ b ∈ s.bots.rows, b.collection_name = joinName p.1 p.2 ∧ b.pair ≠ p

instance (s : World) (p : String × String) : Decidable (s.NameTaken p) :=
  inferInstanceAs (Decidable (∃ b ∈ s.bots.rows, _))

/-- The points of a pair's collection are the pair's if and only if no other pair has its name. -/
theorem Owned.owner_iff (h : Owned s.bots s.stores) {p : String × String} {pt : Point}
    (hpt : pt ∈ (s.points (joinName p.1 p.2)).rows) :
    pt.payload.owner = p ↔ ¬ s.NameTaken p := by
  obtain ⟨b, hb, hp, hn⟩ := h.points _ pt hpt
  constructor
  · rintro ho ⟨b', hb', hn', hne⟩
    obtain rfl := s.unique_collection_name b hb b' hb' (hn.trans hn'.symm)
    exact hne (hp.trans ho)
  · intro hfree
    by_contra hne
    exact hfree ⟨b, hb, hn, fun h => hne (hp.symm.trans h)⟩

/-- **Search isolation.** After any requests, with any failures, a search returns chunks of its own
pair if and only if no bot of another pair has the same collection name; otherwise every chunk it
returns is the other pair's. -/
theorem search_isolation (env : Env) (jobs : List Job) (x : Search) (session : Nat)
    (faults : Nat → Fault) (r : SearchResult)
    (hr : (Job.run env ⟨.search x, session, faults⟩ (World.after env jobs World.empty)).reply =
      .ok (.search r)) :
    ∀ chunk ∈ r.chunks, (chunk.1.owner = (x.tenant_id, x.bot_id) ↔
      ¬ (World.after env jobs World.empty).NameTaken (x.tenant_id, x.bot_id)) := by
  intro chunk hchunk
  have hown := owned_after env jobs Owned.empty
  obtain ⟨_, hx, hφ⟩ := searching_run env session (World.after env jobs World.empty) x
    faults
  obtain ⟨pt, hpt, hpay⟩ := hx.chunks _ (hφ r hr) chunk hchunk
  rw [← hpay]
  exact hown.owner_iff hpt

/-- A document is uploaded to a bot. -/
def Sample.hello (pair : String × String) : List Job :=
  [uploading (upload pair docA "h1" ["Hello"])]

theorem search_isolation_acme :
    ∃ r, (Job.run Sample.env ⟨.search (Sample.search Sample.acme "Hello"), 0, Sample.served⟩
        (World.after Sample.env (Sample.hello Sample.acme) World.empty)).reply = .ok (.search r) ∧
      r.chunks.length = 1 ∧ ∀ chunk ∈ r.chunks, (chunk.1.owner = Sample.acme ↔
        ¬ (World.after Sample.env (Sample.hello Sample.acme)
          World.empty).NameTaken Sample.acme) := by
  obtain ⟨r, hr, hlen⟩ : ∃ r, (Job.run Sample.env
      ⟨.search (Sample.search Sample.acme "Hello"), 0, Sample.served⟩
        (World.after Sample.env (Sample.hello Sample.acme) World.empty)).reply = .ok (.search r) ∧
      r.chunks.length = 1 := Sample.exists_searched (by decide +kernel)
  exact ⟨r, hr, hlen, search_isolation _ _ _ _ _ r hr⟩

/-- Two pairs of valid slugs have one collection name, and the search of one returns the chunks of
the other. -/
theorem search_leaks :
    ∃ r, (Job.run Sample.env
        ⟨.search (Sample.search ("abc__b_xyz", "def") "Hello"), 0, Sample.served⟩
        (World.after Sample.env (Sample.hello ("abc", "xyz__b_def")) World.empty)).reply =
        .ok (.search r) ∧
      ∃ chunk ∈ r.chunks, chunk.1.owner = ("abc", "xyz__b_def") :=
  Sample.exists_searched (by decide +kernel)

end QdrantRag
