import QdrantRag.Effect.Turns
import QdrantRag.Verify.Retry
import QdrantRag.Verify.Sample
import QdrantRag.Verify.Writes

/-! # Concurrent creators of a collection

The lookup of a collection and its creation are two calls, so others may create it in between. Each
caller is followed through its calls (`Creates`), none of which fails. It is refused only where it
comes second to create and the refusal is not the one it recovers from. -/

namespace QdrantRag
open Keyed Effect Effect.Prog

variable {env : Env} {i : Nat} {n : String} {s s' : World} {o : Op} {c : Fault}

/-! ## Calls that are served -/

/-- No call fails for a reason outside the service. -/
def servedExec (env : Env) (i : Nat) : Exec Ans Exc Fault World :=
  Exec.limit (fun _ _ => .none) (exec env i)

theorem servedExec_ok {a : Ans o} (h : serve env i o s = .ok (a, s')) :
    servedExec env i o c s = (.ok a, s') := exec_none h

theorem servedExec_error {e : Exc} (h : serve env i o s = .error e) :
    servedExec env i o c s = (.error e, s) := by
  unfold servedExec Exec.limit exec
  rw [h]
  split
  · rfl
  · split <;> rfl

/-! ## The locked schema -/

/-- The calls that look for a collection, and those that create one with the locked schema. -/
def Op.Provides : Op → Prop
  | .collectionExists _ | .getCollection _ | .sleep _ | .createPayloadIndex .. => True
  | .createCollection _ params => params = expectedParams
  | _ => False

/-- Where the collection exists, it has the locked schema. -/
def World.Locked (s : World) (n : String) : Prop :=
  ∀ col, s.collections.find? n = some col → col.params = expectedParams

theorem schemaDiff_expected : schemaDiff expectedParams = .ok [] := rfl

theorem schemaDiff_eq_error {params : CollectionParams} {e : Exc}
    (h : schemaDiff params = .error e) : ∃ msg, e = .raised "AttributeError" msg := by
  unfold schemaDiff CollectionParams.vector at h
  cases hv : params.vectors with
  | none =>
    rw [hv] at h
    cases h
  | some vectors =>
    rw [hv] at h
    cases vectors with
    | named => cases h
    | unnamed =>
      cases h
      exact ⟨_, rfl⟩

theorem locked_of_serve {a : Ans o} (ho : o.Provides) (h : s.Locked n)
    (hserve : serve env i o s = .ok (a, s')) : s'.Locked n := by
  cases o with
  | createCollection m params =>
    simp only [serve] at hserve
    split at hserve
    · cases hserve
    · cases hserve
      intro col hcol
      by_cases hm : m = n
      · subst hm
        cases (Table.find?_put_self (r := (⟨m, params, [], .empty⟩ : Collection))).symm.trans hcol
        exact ho
      · exact h col ((Table.find?_put_of_ne hm).symm.trans hcol)
  | createPayloadIndex m field schema =>
    simp only [serve] at hserve
    split at hserve
    · cases hserve
    · cases hserve
      intro col hcol
      obtain ⟨col', hcol', rfl⟩ :=
        Option.map_eq_some_iff.mp (World.find?_modifyCollection.symm.trans hcol)
      split <;> exact h col' hcol'
  | collectionExists | sleep =>
    cases hserve
    exact h
  | getCollection =>
    simp only [serve] at hserve
    split at hserve <;> cases hserve
    exact h
  | _ => cases ho

/-- The locked schema stays. -/
theorem World.Locked.exec (ho : o.Provides) (h : s.Locked n) :
    (exec env i o c s).2.Locked n := by
  rcases exec_state env i o c s with hs | hs | ⟨a, hserve⟩
  · rw [hs]
    exact h
  · rw [hs]
    exact h
  · exact locked_of_serve ho h hserve

/-! ## A caller -/

/-- How far a caller is. -/
inductive Creator
  | looking
  | creating
  /-- The collection exists, and some of its indexes are to be created. -/
  | indexing (left : Nat)
  | checking
  | done
  | failed

/-- The calls a caller still makes. -/
def Creator.left : Creator → Nat
  | .looking => 10
  | .creating => 9
  | .indexing left => left
  | .checking => 1
  | .done | .failed => 0

section Steps
variable (env : Env) (n : String)

/-- The calls of a caller, by how far it is. -/
inductive Creates : Creator → Call → Creator → Prop
  | found {c : Fault} {s : World} (h : s.HasCollection n) :
      Creates .looking ⟨.collectionExists n, c, s⟩ .checking
  | absent {c : Fault} {s : World} : Creates .looking ⟨.collectionExists n, c, s⟩ .creating
  | create {c : Fault} {s : World} (h : ¬ s.HasCollection n) :
      Creates .creating ⟨.createCollection n expectedParams, c, s⟩
        (.indexing payloadIndexes.length)
  | recover {c : Fault} {s : World} (h : s.HasCollection n) (hrest : env.transport = .rest) :
      Creates .creating ⟨.createCollection n expectedParams, c, s⟩ .checking
  | refused {c : Fault} {s : World} (h : s.HasCollection n) (hgrpc : env.transport = .grpc) :
      Creates .creating ⟨.createCollection n expectedParams, c, s⟩ .failed
  | index {left : Nat} {field : String} {schema : PayloadSchema} {c : Fault} {s : World}
      (h : s.HasCollection n) :
      Creates (.indexing (left + 1)) ⟨.createPayloadIndex n field schema, c, s⟩ (.indexing left)
  | indexFails {left : Nat} {field : String} {schema : PayloadSchema} {c : Fault} {s : World}
      (h : ¬ s.HasCollection n) :
      Creates (.indexing (left + 1)) ⟨.createPayloadIndex n field schema, c, s⟩ .failed
  | check {c : Fault} {s : World} : Creates .checking ⟨.getCollection n, c, s⟩ .done
  | checkFails {c : Fault} {s : World}
      (h : ¬ ∃ col, s.collections.find? n = some col ∧ schemaDiff col.params = .ok []) :
      Creates .checking ⟨.getCollection n, c, s⟩ .failed

end Steps

theorem Creates.provides {φ φ' : Creator} {ev : Call} (h : Creates env n φ ev φ') :
    ev.op.Provides := by
  cases h <;> trivial

/-- A caller that returns has the name, and no call left. -/
def Creator.Returned (n : String) (φ : Creator) (name : String) : Prop :=
  φ.left = 0 ∧ φ ≠ .failed ∧ name = n

/-- What a caller raises it raises for good. -/
def Creator.Raised (φ : Creator) (e : Exc) : Prop :=
  φ = .failed ∧ isTransient e = false ∧ ∀ msg, e ≠ .unexpectedResponse 409 msg

/-- The simulation of a part of `get_or_create_collection`. -/
abbrev Provides {α : Type} (env : Env) (i : Nat) (n : String) (ok : Creator → α → Prop)
    (err : Creator → Exc → Prop) (p : Program α) (φ : Creator) : Prop :=
  Sim (servedExec env i) (Creates env n) ok err p φ

theorem raised_notFound : Creator.failed.Raised env.notFound := by
  unfold Env.notFound
  split
  · exact ⟨rfl, rfl, fun _ h => by cases h⟩
  · exact ⟨rfl, rfl, fun _ h => by cases h⟩

theorem provides_checkedName :
    Provides env i n (Creator.Returned n) Creator.Raised (checkedName n) .checking := by
  apply sim_do.mpr
  apply sim_do.mpr
  apply sim_perform.mpr
  intro c s
  cases hcol : s.collections.find? n with
  | none =>
    have hserve : serve env i (.getCollection n) s = .error env.notFound := by
      simp only [serve, hcol]
    refine ⟨.failed, .checkFails ?_, ?_⟩
    · rintro ⟨col, hcol', -⟩
      cases hcol.symm.trans hcol'
    · rw [servedExec_error hserve]
      exact raised_notFound
  | some col =>
    have hserve : serve env i (.getCollection n) s = .ok (col.params, s) := by
      simp only [serve, hcol]
    rw [servedExec_ok hserve]
    by_cases hdiff : schemaDiff col.params = .ok []
    · refine ⟨.done, .check, ?_⟩
      simp only [hdiff]
      exact ⟨rfl, fun h => (by cases h), rfl⟩
    · refine ⟨.failed, .checkFails ?_, ?_⟩
      · rintro ⟨col', hcol', hdiff'⟩
        cases hcol.symm.trans hcol'
        exact hdiff hdiff'
      · apply sim_ofExcept.mpr
        refine ⟨fun diff hd => ?_, fun e he => ?_⟩
        · apply Sim.ite
          · rintro rfl
            exact absurd hd hdiff
          · exact fun _ => ⟨rfl, rfl, fun _ h => by cases h⟩
        · obtain ⟨msg, rfl⟩ := schemaDiff_eq_error he
          exact ⟨rfl, rfl, fun _ h => by cases h⟩

theorem provides_createPayloadIndex {left : Nat} {field : String} {schema : PayloadSchema} :
    Provides env i n (fun φ _ => φ = .indexing left) Creator.Raised
      (call (.createPayloadIndex n field schema)) (.indexing (left + 1)) := by
  apply sim_perform.mpr
  intro c s
  cases hcol : s.collections.find? n with
  | none =>
    have hserve : serve env i (.createPayloadIndex n field schema) s = .error env.notFound := by
      simp only [serve, hcol]
    have hno : ¬ s.HasCollection n := by simp [World.HasCollection, hcol]
    refine ⟨.failed, .indexFails hno, ?_⟩
    rw [servedExec_error hserve]
    exact raised_notFound
  | some col =>
    obtain ⟨s', hserve⟩ : ∃ s', serve env i (.createPayloadIndex n field schema) s = .ok ((), s') :=
      ⟨_, by simp only [serve, hcol]; rfl⟩
    refine ⟨.indexing left, .index (World.hasCollection_iff.mpr ⟨col, hcol⟩), ?_⟩
    rw [servedExec_ok hserve]

/-- One call for each index. -/
theorem provides_indexes (indexes : List (String × PayloadSchema)) :
    Provides env i n (fun φ _ => φ = .indexing 0) Creator.Raised
      (each (fun ix => call (.createPayloadIndex n ix.1 ix.2)) indexes)
      (.indexing indexes.length) := by
  induction indexes with
  | nil => rfl
  | cons ix indexes ih =>
    apply sim_bind.mpr
    refine provides_createPayloadIndex.mono ?_ fun _ _ => id
    rintro _ _ rfl
    exact ih

/-- What is raised where a collection cannot be created. -/
def Creator.Refused (φ : Creator) (e : Exc) : Prop :=
  isTransient e = false ∧ ((φ = .checking ∧ ∃ msg, e = .unexpectedResponse 409 msg) ∨ φ.Raised e)

theorem provides_createCollectionForBot {T B : String} (hname : collectionName T B = .ok n) :
    Provides env i n (Creator.Returned n) Creator.Refused (createCollectionForBot env T B)
      .creating := by
  apply sim_withRetry_once fun _ _ h => h.1
  apply sim_do.mpr
  rw [hname]
  apply sim_do.mpr
  apply sim_perform.mpr
  intro c s
  cases hcol : s.collections.find? n with
  | none =>
    obtain ⟨s', hserve⟩ : ∃ s', serve env i (.createCollection n expectedParams) s = .ok ((), s') :=
      ⟨_, by simp only [serve, hcol]; rfl⟩
    have hno : ¬ s.HasCollection n := by simp [World.HasCollection, hcol]
    refine ⟨.indexing payloadIndexes.length, .create hno, ?_⟩
    rw [servedExec_ok hserve]
    apply sim_do.mpr
    refine (provides_indexes payloadIndexes).mono ?_ fun _ _ h => ⟨h.2.1, .inr h⟩
    rintro _ _ rfl
    exact ⟨rfl, fun h => (by cases h), rfl⟩
  | some col =>
    have hserve : serve env i (.createCollection n expectedParams) s =
        .error env.alreadyExists := by
      simp only [serve, hcol]
    have hcol : s.HasCollection n := World.hasCollection_iff.mpr ⟨col, hcol⟩
    rw [servedExec_error hserve]
    unfold Env.alreadyExists
    cases htransport : env.transport with
    | rest =>
      refine ⟨.checking, .recover hcol htransport, rfl, .inl ⟨rfl, _, rfl⟩⟩
    | grpc =>
      refine ⟨.failed, .refused hcol htransport, rfl, .inr ⟨rfl, rfl, ?_⟩⟩
      exact fun _ h => by cases h

theorem provides_onUnexpectedResponse {φ : Creator} {e : Exc} (h : φ.Refused e) :
    Provides env i n (Creator.Returned n) Creator.Raised (onUnexpectedResponse n e) φ := by
  obtain ⟨-, ⟨rfl, msg, rfl⟩ | hraised⟩ := h
  · exact provides_checkedName
  · unfold onUnexpectedResponse
    split
    · split
      · next hstatus =>
        subst hstatus
        exact absurd rfl (hraised.2.2 _)
      · exact ⟨hraised.1, rfl, fun _ h => by cases h⟩
    · exact hraised

theorem provides_getOrCreateCollection {T B : String} (hname : collectionName T B = .ok n) :
    Provides env i n (Creator.Returned n) Creator.Raised (getOrCreateCollection env T B)
      .looking := by
  apply sim_withRetry_once fun _ _ h => h.2.1
  apply sim_do.mpr
  rw [hname]
  apply sim_do.mpr
  apply sim_perform.mpr
  intro c s
  rw [servedExec_ok (a := (s.collections.find? n).isSome) rfl]
  cases hcol : s.collections.find? n with
  | none => exact ⟨.creating, .absent, sim_tryCatch.mpr
      ((provides_createCollectionForBot hname).mono (fun _ _ => id)
        fun _ _ => provides_onUnexpectedResponse)⟩
  | some col =>
    exact ⟨.checking, .found (World.hasCollection_iff.mpr ⟨col, hcol⟩), provides_checkedName⟩

/-! ## Concurrent callers -/

/-- The call comes second to create the collection. -/
def Call.Loses (n : String) (ev : Call) : Prop :=
  (∃ params, ev.op = .createCollection n params) ∧ ev.pre.HasCollection n

/-- The caller has seen that the collection exists. -/
def Creator.Sees : Creator → Prop
  | .indexing _ | .checking => True
  | _ => False

/-- The callers while they run. -/
structure Creating (env : Env) (n : String) (log : List (Nat × Call)) (s : World)
    (φ : Nat → Creator) : Prop where
  locked : s.Locked n
  exists_ : ∀ i, (φ i).Sees → s.HasCollection n
  calls : ∀ i, log.countP (·.1 = i) + (φ i).left ≤ 10
  failed : ∀ i, φ i = .failed ↔ env.transport = .grpc ∧ ∃ ev, (i, ev) ∈ log ∧ ev.Loses n

variable {log : List (Nat × Call)} {φ : Nat → Creator} {φ' : Creator} {ev : Call}

theorem Creates.left_lt {ψ : Creator} (h : Creates env n φ' ev ψ) : ψ.left < φ'.left := by
  cases h <;> simp only [Creator.left, payloadIndexes, List.length_cons, List.length_nil] <;> omega

theorem grows_post : ev.pre.Grows (ev.post (servedExec env i)) := exec_grows

/-- A call after which the collection is seen to exist has found it or made it. -/
theorem Creates.sees {ψ : Creator} (h : Creates env n φ' ev ψ) (hsees : ψ.Sees) :
    (ev.post (servedExec env i)).HasCollection n := by
  cases h with
  | found h | recover h | index h => exact grows_post.collections n h
  | @create c s h =>
    have hcol : s.collections.find? n = none := by simpa [World.HasCollection] using h
    obtain ⟨s', hserve⟩ : ∃ s', serve env i (.createCollection n expectedParams) s = .ok ((), s') :=
      ⟨_, by simp only [serve, hcol]; rfl⟩
    rw [Event.post, servedExec_ok hserve]
    exact serve_createCollection hserve
  | _ => cases hsees

/-- A caller that fails has come second, where the collection is there with its schema as soon as a
caller sees it. -/
theorem Creates.failed_iff {ψ : Creator} (h : Creates env n φ' ev ψ) (hlocked : ev.pre.Locked n)
    (hexists : φ'.Sees → ev.pre.HasCollection n) :
    ψ = .failed ↔ env.transport = .grpc ∧ ev.Loses n := by
  have hnot {o : Op} {c : Fault} {s : World} (ho : ∀ params, o ≠ .createCollection n params) :
      ¬ (env.transport = .grpc ∧ Call.Loses n ⟨o, c, s⟩) :=
    fun ⟨_, ⟨params, hop⟩, _⟩ => ho params hop
  cases h with
  | found | absent | index | check => exact ⟨nofun, fun h => absurd h (hnot nofun)⟩
  | create h => exact ⟨nofun, fun h' => absurd h'.2.2 h⟩
  | recover h hrest => exact ⟨nofun, fun h' => by rw [hrest] at h'; cases h'.1⟩
  | refused h hgrpc => exact ⟨fun _ => ⟨hgrpc, ⟨_, rfl⟩, h⟩, fun _ => rfl⟩
  | indexFails h => exact absurd (hexists trivial) h
  | checkFails h =>
    obtain ⟨col, hcol⟩ := World.hasCollection_iff.mp (hexists trivial)
    refine absurd ⟨col, hcol, ?_⟩ h
    rw [hlocked col hcol]
    rfl

theorem Creating.step (h : Creating env n log ev.pre φ) (hs : Creates env n (φ i) ev φ') :
    Creating env n ((i, ev) :: log) (ev.post (servedExec env i)) (Function.update φ i φ') := by
  have hleft := hs.left_lt
  refine ⟨h.locked.exec hs.provides, fun j hj => ?_, fun j => ?_, fun j => ?_⟩
  · by_cases hji : j = i
    · subst hji
      rw [Function.update_self] at hj
      exact hs.sees hj
    · rw [Function.update_of_ne hji] at hj
      exact grows_post.collections n (h.exists_ j hj)
  · have hcalls := h.calls j
    rw [List.countP_cons]
    by_cases hji : j = i
    · subst hji
      rw [Function.update_self]
      simp only [decide_true, if_true]
      omega
    · rw [Function.update_of_ne hji]
      simpa [Ne.symm hji] using hcalls
  · by_cases hji : j = i
    · subst hji
      rw [Function.update_self, hs.failed_iff h.locked (h.exists_ j)]
      have hbefore : ¬ ∃ ev', (j, ev') ∈ log ∧ ev'.Loses n ∧ env.transport = .grpc := by
        rintro ⟨ev', hev', hloses, hgrpc⟩
        rw [(h.failed j).mpr ⟨hgrpc, ev', hev', hloses⟩] at hs
        cases hs
      refine and_congr_right fun hgrpc => ⟨fun hl => ⟨ev, List.mem_cons_self, hl⟩, ?_⟩
      rintro ⟨ev', hev', hloses⟩
      rcases List.mem_cons.mp hev' with he | hmem
      · cases he
        exact hloses
      · exact absurd ⟨ev', hmem, hloses, hgrpc⟩ hbefore
    · rw [Function.update_of_ne hji, h.failed j]
      simp [hji]

/-! ## The theorem -/

/-- Callers of `get_or_create_collection`, no call of which fails, taking turns. -/
def createConcurrently (env : Env) (T B : String) (s : World) (order : List Nat) :
    Pool Nat Ans Exc String Fault World :=
  (Pool.start s fun _ => getOrCreateCollection env T B).run (exec env) (order.map (·, .none))

/-- A caller has not failed: it raises nothing, returns the name if anything, and has returned it
after ten turns. -/
structure Succeeds (n : String) (turns : Nat) (p : Program String) : Prop where
  raises : ∀ e, p ≠ .throw e
  returns : ∀ name, p = .pure name → name = n
  ends : 10 ≤ turns → p = .pure n

section Caller
variable {q : Program String} {ψ : Creator}

/-- A caller that is not done is not out of calls. -/
theorem Creator.left_pos (h : Provides env i n (Creator.Returned n) Creator.Raised q ψ)
    (hcalls : q.Calls) : 0 < ψ.left := by
  obtain ⟨o, k, rfl⟩ := Prog.calls_iff.mp hcalls
  obtain ⟨ψ', hs, -⟩ := h .none World.empty
  exact Nat.zero_lt_of_lt hs.left_lt

theorem Creator.threw_iff (h : Provides env i n (Creator.Returned n) Creator.Raised q ψ) :
    (∃ e, q = .throw e) ↔ ψ = .failed := by
  cases q with
  | pure name =>
    refine ⟨?_, fun he => absurd he h.2.1⟩
    rintro ⟨_, he⟩
    cases he
  | throw e => exact ⟨fun _ => h.1, fun _ => ⟨e, rfl⟩⟩
  | call o k =>
    have hpos := Creator.left_pos h trivial
    refine ⟨?_, fun he => by rw [he] at hpos; cases hpos⟩
    rintro ⟨_, he⟩
    cases he

/-- A caller that has not failed has returned the name once it is out of calls. -/
theorem Creator.succeeds (h : Provides env i n (Creator.Returned n) Creator.Raised q ψ)
    (hfine : ψ ≠ .failed) {turns : Nat} (hturns : q.Calls → turns + ψ.left ≤ 10) :
    Succeeds n turns q := by
  refine ⟨fun e he => hfine ((Creator.threw_iff h).mp ⟨e, he⟩), fun name he => ?_, fun hten => ?_⟩
  · rw [he] at h
    exact h.2.2
  · cases q with
    | pure name => rw [h.2.2]
    | throw e => exact absurd ((Creator.threw_iff h).mp ⟨e, rfl⟩) hfine
    | call o k =>
      have hpos := Creator.left_pos h trivial
      have hbound := hturns trivial
      omega

end Caller

/-- How far the callers are at any moment. -/
theorem creating_run (env : Env) {T B : String} (hname : collectionName T B = .ok (joinName T B))
    (habsent : ¬ s.HasCollection (joinName T B)) (order : List Nat) :
    ∃ φ, Creating env (joinName T B) (createConcurrently env T B s order).log
        (createConcurrently env T B s order).state φ ∧
      ∀ i, Provides env i (joinName T B) (Creator.Returned (joinName T B)) Creator.Raised
        ((createConcurrently env T B s order).threads i) (φ i) := by
  have hlimit : createConcurrently env T B s order =
      (Pool.start s fun _ => getOrCreateCollection env T B).run (servedExec env)
        (order.map (·, .none)) := by
    refine (Pool.run_limit fun e he _ => ?_).symm
    obtain ⟨i, -, rfl⟩ := List.mem_map.mp he
    rfl
  have hstart : Creating env (joinName T B) [] s fun _ => .looking := by
    refine ⟨fun col hcol => ?_, fun _ h => h.elim, fun _ => Nat.le_refl _, fun _ => ?_⟩
    · exact absurd (World.hasCollection_iff.mpr ⟨col, hcol⟩) habsent
    · exact ⟨fun h => (by cases h), fun h => by simp at h⟩
  have hholds : Pool.Holds (servedExec env) (fun _ => Creates env (joinName T B))
      (fun _ => Creator.Returned (joinName T B)) (fun _ => Creator.Raised)
      (Creating env (joinName T B)) (Pool.start s fun _ => getOrCreateCollection env T B)
      fun _ => .looking := ⟨hstart, fun i => provides_getOrCreateCollection hname⟩
  obtain ⟨φ, hinv, hsim⟩ := Pool.run_rule (fun h hs _ => h.step hs) hholds (order.map (·, .none))
    (Obeys.trivial _)
  rw [← hlimit] at hinv hsim
  exact ⟨φ, hinv, hsim⟩

/-- A caller that is not done has made a call at each of its turns. -/
theorem made_createConcurrently {T B : String} {order : List Nat}
    (hcalls : ((createConcurrently env T B s order).threads i).Calls) :
    (createConcurrently env T B s order).log.countP (·.1 = i) = order.count i := by
  refine (Pool.made_of_calls _ hcalls).trans ?_
  simp only [Pool.made, Pool.start, List.countP_nil, Nat.zero_add, List.countP_map,
    List.count_eq_countP]
  rfl

/-- **Concurrent creators** all succeed over REST. Over gRPC they do exactly where none of them asks
to create the collection when another has created it. -/
theorem creators_succeed_iff (env : Env) {T B : String} (hT : slugMatch T = true)
    (hB : slugMatch B = true) {s : World} (habsent : ¬ s.HasCollection (joinName T B))
    (order : List Nat) :
    (∀ i, Succeeds (joinName T B) (order.count i)
      ((createConcurrently env T B s order).threads i)) ↔
    (env.transport = .rest ∨ ∀ i (ev : Call), (i, ev) ∈ (createConcurrently env T B s order).log →
      ¬ ev.Loses (joinName T B)) := by
  obtain ⟨φ, hinv, hsim⟩ := creating_run env (collectionName_eq_ok.mpr ⟨hT, hB, rfl⟩) habsent order
  constructor
  · intro hall
    cases htransport : env.transport with
    | rest => exact .inl rfl
    | grpc =>
      refine .inr fun i ev hev hloses => ?_
      have hfailed := (hinv.failed i).mpr ⟨htransport, ev, hev, hloses⟩
      obtain ⟨e, he⟩ := (Creator.threw_iff (hsim i)).mpr hfailed
      exact (hall i).raises e he
  · intro hcond i
    have hfine : φ i ≠ .failed := by
      intro hf
      obtain ⟨hgrpc, ev, hev, hloses⟩ := (hinv.failed i).mp hf
      rcases hcond with hrest | hnone
      · rw [hrest] at hgrpc
        cases hgrpc
      · exact hnone i ev hev hloses
    apply Creator.succeeds (hsim i) hfine
    intro hcalls
    have hbound := hinv.calls i
    rw [made_createConcurrently hcalls] at hbound
    omega

/-- Two callers whose calls alternate. -/
def Sample.alternating : List Nat := [0, 1, 0, 1, 0, 1, 0, 1]

theorem creators_succeed_iff_rest :
    Succeeds (joinName "acme" "support") (Sample.alternating.count 0)
      ((createConcurrently { Sample.env with transport := .rest } "acme" "support" World.empty
        Sample.alternating).threads 0) ∧
    Succeeds (joinName "acme" "support") (Sample.alternating.count 1)
      ((createConcurrently { Sample.env with transport := .rest } "acme" "support" World.empty
        Sample.alternating).threads 1) := by
  have hslug : slugMatch "acme" = true ∧ slugMatch "support" = true := by decide
  have habsent : ¬ World.empty.HasCollection (joinName "acme" "support") := by
    simp [World.HasCollection, World.empty]
  have hall := (creators_succeed_iff { Sample.env with transport := .rest } hslug.1 hslug.2 habsent
    Sample.alternating).mpr (.inl rfl)
  exact ⟨hall 0, hall 1⟩

/-- The exception a program ends with. -/
def Sample.thrown {α : Type} : Program α → Option Exc
  | .throw e => some e
  | _ => none

theorem Sample.throw_of_thrown {α : Type} {p : Program α} {e : Exc} (h : thrown p = some e) :
    p = .throw e := by
  unfold thrown at h
  split at h
  · cases h
    rfl
  · cases h

/-- Over gRPC the second caller is refused. -/
theorem second_creator_fails : Sample.env.transport = .grpc ∧
    (createConcurrently Sample.env "acme" "support" World.empty Sample.alternating).threads 1 =
      .throw (.rpcError (some .alreadyExists) "already exists") :=
  ⟨rfl, Sample.throw_of_thrown rfl⟩

end QdrantRag
