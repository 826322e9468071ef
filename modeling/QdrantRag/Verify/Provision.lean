import QdrantRag.Effect.Returns
import QdrantRag.Verify.Creation

/-! # Collections and their indexes

A collection is created by one call and its indexes by eight more. Where a failure strikes in
between, nobody comes back to the missing ones: the collection is found by later attempts, which
look at its vectors only. `Builds` follows a caller through whatever fails. -/

namespace QdrantRag
open Keyed Effect Effect.Prog

variable {env : Env} {i : Nat} {n : String} {s s' s₀ : World} {o : Op} {c : Fault} {ev : Call}
  {α : Type} {tr : List Call}

/-! ## A caller -/

/-- What a caller has done to its collection. -/
inductive Builder
  | idle
  /-- It has seen that the collection exists. -/
  | seen
  /-- It has created the collection, and the indexes `built`; it creates more (`going`) or not. -/
  | made (built : List (String × PayloadSchema)) (going : Bool)

/-- Having seen that the collection exists. -/
def Builder.see : Builder → Builder
  | .idle => .seen
  | φ => φ

/-- An attempt may begin. -/
def Builder.Rests : Builder → Prop
  | .made _ going => going = false
  | _ => True

/-- The call looks for a collection, or lets time pass. -/
def Op.inspects : Op → Bool
  | .collectionExists _ | .getCollection _ | .sleep _ => true
  | _ => false

section Steps
variable (env : Env) (i : Nat) (n : String)

/-- The calls of a caller. -/
inductive Builds : Builder → Call → Builder → Prop
  | look {φ : Builder} {ev : Call} (ho : ev.op.inspects = true) : Builds φ ev φ
  | see {φ : Builder} {ev : Call} (ho : ev.op.inspects = true) (h : ev.pre.HasCollection n) :
      Builds φ ev φ.see
  | create {φ : Builder} {going : Bool} {c : Fault} {s : World}
      (happ : Call.applied env i ⟨.createCollection n expectedParams, c, s⟩ = true) :
      Builds φ ⟨.createCollection n expectedParams, c, s⟩ (.made [] going)
  | createFails {φ : Builder} {c : Fault} {s : World}
      (happ : Call.applied env i ⟨.createCollection n expectedParams, c, s⟩ = false) :
      Builds φ ⟨.createCollection n expectedParams, c, s⟩ φ
  | index {built rest : List (String × PayloadSchema)} {ix : String × PayloadSchema} {going : Bool}
      {c : Fault} {s : World} (hrest : built ++ ix :: rest = payloadIndexes)
      (happ : Call.applied env i ⟨.createPayloadIndex n ix.1 ix.2, c, s⟩ = true) :
      Builds (.made built true) ⟨.createPayloadIndex n ix.1 ix.2, c, s⟩
        (.made (built ++ [ix]) going)
  | indexFails {built : List (String × PayloadSchema)} {ix : String × PayloadSchema} {going : Bool}
      {c : Fault} {s : World}
      (happ : Call.applied env i ⟨.createPayloadIndex n ix.1 ix.2, c, s⟩ = false) :
      Builds (.made built true) ⟨.createPayloadIndex n ix.1 ix.2, c, s⟩ (.made built going)

end Steps

/-- A caller returns the name of a collection that it has seen or made. -/
def Builder.Returned (n : String) (φ : Builder) (name : String) : Prop := φ ≠ .idle ∧ name = n

/-- The simulation of a part of `get_or_create_collection`. -/
abbrev Building (env : Env) (i : Nat) (n : String) (ok : Builder → α → Prop)
    (err : Builder → Exc → Prop) (p : Program α) (φ : Builder) : Prop :=
  Sim (exec env i) (Builds env i n) ok err p φ

theorem Builder.Rests.see {φ : Builder} (h : φ.Rests) : φ.see.Rests := by
  cases φ <;> exact h

theorem Builder.see_ne_idle (φ : Builder) : φ.see ≠ .idle := by
  cases φ <;> nofun

theorem collections_of_inspects (ho : o.inspects = true) :
    (exec env i o c s).2.collections = s.collections := by
  rcases exec_state env i o c s with hs | hs | ⟨a, hserve⟩
  · rw [hs]
  · rw [hs]
    rfl
  · generalize (exec env i o c s).2 = s' at hserve ⊢
    cases o with
    | collectionExists | sleep =>
      cases hserve
      rfl
    | getCollection =>
      simp only [serve] at hserve
      split at hserve <;> cases hserve
      rfl
    | _ => cases ho

theorem building_checkedName {φ : Builder} (h : φ.Rests) :
    Building env i n (Builder.Returned n) (fun φ _ => φ.Rests) (checkedName n) φ := by
  apply sim_do.mpr
  apply sim_do.mpr
  apply sim_perform.mpr
  intro c s
  cases hexec : (exec env i (.getCollection n) c s).1 with
  | error e => exact ⟨φ, .look rfl, h⟩
  | ok actual =>
    have hcol : s.HasCollection n := by
      have h := serve_getCollection (serve_of_answer rfl hexec)
      rwa [World.HasCollection, collections_of_inspects rfl] at h
    refine ⟨φ.see, .see rfl hcol, ?_⟩
    apply sim_ofExcept.mpr
    refine ⟨fun diff _ => ?_, fun _ _ => h.see⟩
    exact Sim.ite (fun _ => ⟨φ.see_ne_idle, rfl⟩) fun _ => h.see

theorem building_indexes (built rest : List (String × PayloadSchema))
    (hrest : built ++ rest = payloadIndexes) :
    Building env i n (fun φ _ => φ = .made payloadIndexes true) (fun φ _ => φ.Rests)
      (each (fun ix => call (.createPayloadIndex n ix.1 ix.2)) rest) (.made built true) := by
  induction rest generalizing built with
  | nil =>
    rw [List.append_nil] at hrest
    rw [hrest]
    rfl
  | cons ix rest ih =>
    apply sim_bind.mpr
    apply sim_perform.mpr
    intro c s
    rcases exec_cases env i c s (o := .createPayloadIndex n ix.1 ix.2) rfl rfl
      with ⟨happ, e, he⟩ | ⟨happ, a, s', -, he | ⟨e, he⟩⟩
    · refine ⟨.made built false, .indexFails happ, ?_⟩
      rw [he]
      rfl
    · refine ⟨.made (built ++ [ix]) true, .index hrest happ, ?_⟩
      rw [he]
      exact ih _ (by rw [List.append_assoc]; exact hrest)
    · refine ⟨.made (built ++ [ix]) false, .index hrest happ, ?_⟩
      rw [he]
      rfl

theorem building_createCollectionForBot {T B : String} (hname : collectionName T B = .ok n)
    {φ : Builder} (h : φ.Rests) :
    Building env i n (Builder.Returned n) (fun φ _ => φ.Rests) (createCollectionForBot env T B)
      φ := by
  refine sim_withRetry (fun _ _ _ _ _ => .look rfl) (fun φ h => ?_) h
  apply sim_do.mpr
  rw [hname]
  apply sim_do.mpr
  apply sim_perform.mpr
  intro c s
  rcases exec_cases env i c s (o := .createCollection n expectedParams) rfl rfl
    with ⟨happ, e, he⟩ | ⟨happ, a, s', -, he | ⟨e, he⟩⟩
  · refine ⟨φ, .createFails happ, ?_⟩
    rw [he]
    exact h
  · refine ⟨.made [] true, .create happ, ?_⟩
    rw [he]
    apply sim_do.mpr
    refine (building_indexes [] payloadIndexes rfl).mono ?_ fun _ _ => id
    rintro _ _ rfl
    exact ⟨nofun, rfl⟩
  · refine ⟨.made [] false, .create happ, ?_⟩
    rw [he]
    rfl

theorem building_getOrCreateCollection {T B : String} (hname : collectionName T B = .ok n) :
    Building env i n (Builder.Returned n) (fun φ _ => φ.Rests) (getOrCreateCollection env T B)
      .idle := by
  refine sim_withRetry (fun _ _ _ _ _ => .look rfl) (fun φ h => ?_) trivial
  apply sim_do.mpr
  rw [hname]
  apply sim_do.mpr
  apply sim_perform.mpr
  intro c s
  refine ⟨φ, .look rfl, ?_⟩
  cases (exec env i (.collectionExists n) c s).1 with
  | error e => exact h
  | ok exists_ =>
    refine Sim.ite (fun _ => building_checkedName h) fun _ => ?_
    apply sim_tryCatch.mpr
    refine (building_createCollectionForBot hname h).mono (fun _ _ => id) fun φ e h => ?_
    unfold onUnexpectedResponse
    split
    · exact Sim.ite (fun _ => building_checkedName h) fun _ => h
    · exact h

/-! ## What a call leaves -/

/-- The call created a collection. -/
def Call.Created (env : Env) (i : Nat) (ev : Call) : Prop :=
  (∃ n params, ev.op = .createCollection n params) ∧ Call.applied env i ev = true

/-- The call created an index. -/
def Call.Indexed (env : Env) (i : Nat) (ix : String × PayloadSchema) (ev : Call) : Prop :=
  (∃ n, ev.op = .createPayloadIndex n ix.1 ix.2) ∧ Call.applied env i ev = true

/-- The collection was created by the calls `tr`, with the indexes `built`. -/
structure Made (env : Env) (i : Nat) (n : String) (s₀ : World) (tr : List Call) (s : World)
    (built : List (String × PayloadSchema)) : Prop where
  new : ¬ s₀.HasCollection n
  others : ∀ m, m ≠ n → s.collections.find? m = s₀.collections.find? m
  there : ∃ col, s.collections.find? n = some col ∧ col.params = expectedParams ∧
    ∀ ix, ix ∈ col.payload_schema ↔ ix ∈ built
  part : built <+: payloadIndexes
  created : ∃ ev ∈ tr, Call.Created env i ev
  indexed : ∀ ix, (∃ ev ∈ tr, Call.Indexed env i ix ev) ↔ ix ∈ built

/-- What a caller leaves that started from `s₀` and made the calls `tr`. -/
def Built (env : Env) (i : Nat) (n : String) (s₀ : World) (tr : List Call) (s : World) :
    Builder → Prop
  | .idle => s.collections = s₀.collections ∧
    ∀ ev ∈ tr, ¬ Call.Created env i ev ∧ ∀ ix, ¬ Call.Indexed env i ix ev
  | .seen => (s.collections = s₀.collections ∧
    ∀ ev ∈ tr, ¬ Call.Created env i ev ∧ ∀ ix, ¬ Call.Indexed env i ix ev) ∧ s₀.HasCollection n
  | .made built _ => Made env i n s₀ tr s built

theorem hasCollection_congr (h : s'.collections = s.collections) :
    s'.HasCollection n ↔ s.HasCollection n := by
  unfold World.HasCollection
  rw [h]

theorem Built.hasCollection {φ : Builder} (h : Built env i n s₀ tr s φ) (hφ : φ ≠ .idle) :
    s.HasCollection n := by
  cases φ with
  | idle => exact absurd rfl hφ
  | seen => exact (hasCollection_congr h.1.1).mpr h.2
  | made built going =>
    obtain ⟨col, hcol, -⟩ := h.there
    exact World.hasCollection_iff.mpr ⟨col, hcol⟩

/-- The new collection has the locked schema, and no index yet. -/
theorem created_post
    (h : Call.applied env i ⟨.createCollection n expectedParams, c, s⟩ = true) :
    ¬ s.HasCollection n ∧
      (exec env i (.createCollection n expectedParams) c s).2.collections.find? n =
        some ⟨n, expectedParams, [], .empty⟩ ∧
      ∀ m, m ≠ n → (exec env i (.createCollection n expectedParams) c s).2.collections.find? m =
        s.collections.find? m := by
  obtain ⟨a, hserve⟩ := serve_of_applied rfl rfl h
  generalize (exec env i (.createCollection n expectedParams) c s).2 = s' at hserve ⊢
  simp only [serve] at hserve
  split at hserve
  · cases hserve
  · next hnone =>
    cases hserve
    refine ⟨by simp [World.HasCollection, hnone], ?_, fun m hm => ?_⟩
    · exact Table.find?_put_self (r := (⟨n, expectedParams, [], .empty⟩ : Collection))
    · exact Table.find?_put_of_ne (Ne.symm hm)

theorem indexed_post {field : String} {schema : PayloadSchema}
    (h : Call.applied env i ⟨.createPayloadIndex n field schema, c, s⟩ = true) (m : String) :
    (exec env i (.createPayloadIndex n field schema) c s).2.collections.find? m =
      (s.collections.find? m).map fun col =>
        if col.name = n then col.setSchema field schema else col := by
  obtain ⟨a, hserve⟩ := serve_of_applied rfl rfl h
  generalize (exec env i (.createPayloadIndex n field schema) c s).2 = s' at hserve ⊢
  simp only [serve] at hserve
  split at hserve
  · cases hserve
  · cases hserve
    exact World.find?_modifyCollection

theorem collections_of_not_applied (hl : o.isLock = false) (hs : o.isLocal = false)
    (h : Call.applied env i ⟨o, c, s⟩ = false) :
    (exec env i o c s).2.collections = s.collections := by
  obtain ⟨e, he⟩ := exec_of_not_applied hl hs h
  rw [he]

/-- A call that creates nothing, and leaves the collections. -/
theorem Built.keep {φ : Builder} (h : Built env i n s₀ tr ev.pre φ)
    (hc : (ev.post (exec env i)).collections = ev.pre.collections)
    (hev : ¬ Call.Created env i ev ∧ ∀ ix, ¬ Call.Indexed env i ix ev) :
    Built env i n s₀ (tr ++ [ev]) (ev.post (exec env i)) φ := by
  have hnone (hall : ∀ ev ∈ tr, ¬ Call.Created env i ev ∧ ∀ ix, ¬ Call.Indexed env i ix ev) :
      ∀ ev' ∈ tr ++ [ev], ¬ Call.Created env i ev' ∧ ∀ ix, ¬ Call.Indexed env i ix ev' := by
    intro ev' hmem
    rcases List.mem_append.mp hmem with hmem | hmem
    · exact hall ev' hmem
    · rw [List.mem_singleton.mp hmem]
      exact hev
  cases φ with
  | idle => exact ⟨hc.trans h.1, hnone h.2⟩
  | seen => exact ⟨⟨hc.trans h.1.1, hnone h.1.2⟩, h.2⟩
  | made built going =>
    obtain ⟨ev₀, hev₀, hcreated⟩ := h.created
    refine ⟨h.new, ?_, ?_, h.part, ⟨ev₀, List.mem_append_left _ hev₀, hcreated⟩, fun ix => ?_⟩
    · rw [hc]
      exact h.others
    · rw [hc]
      exact h.there
    · rw [← h.indexed ix]
      constructor
      · rintro ⟨ev', hmem, hix⟩
        rcases List.mem_append.mp hmem with hmem | hmem
        · exact ⟨ev', hmem, hix⟩
        · rw [List.mem_singleton.mp hmem] at hix
          exact absurd hix (hev.2 ix)
      · rintro ⟨ev', hmem, hix⟩
        exact ⟨ev', List.mem_append_left _ hmem, hix⟩

/-- The fields of the indexes are different. -/
theorem payloadIndexes_nodup : (payloadIndexes.map Prod.fst).Nodup := by decide

theorem not_created_of_inspects (ho : ev.op.inspects = true) :
    ¬ Call.Created env i ev ∧ ∀ ix, ¬ Call.Indexed env i ix ev := by
  constructor
  · rintro ⟨⟨_, _, hop⟩, -⟩
    rw [hop] at ho
    cases ho
  · rintro ix ⟨⟨_, hop⟩, -⟩
    rw [hop] at ho
    cases ho

/-- The first call to build. -/
theorem Built.create {φ : Builder} {going : Bool} (h : Built env i n s₀ tr s φ)
    (happ : Call.applied env i ⟨.createCollection n expectedParams, c, s⟩ = true) :
    Built env i n s₀ (tr ++ [⟨.createCollection n expectedParams, c, s⟩])
      (Event.post (exec env i) ⟨.createCollection n expectedParams, c, s⟩) (.made [] going) := by
  obtain ⟨hno, hcol, hothers⟩ := created_post happ
  have hidle : φ = .idle := by
    by_contra hφ
    exact hno (h.hasCollection hφ)
  subst hidle
  refine ⟨?_, fun m hm => ?_, ⟨_, hcol, rfl, fun ix => .rfl⟩, List.nil_prefix, ?_, fun ix => ?_⟩
  · exact fun h₀ => hno ((hasCollection_congr h.1).mpr h₀)
  · exact (hothers m hm).trans (by rw [h.1])
  · exact ⟨_, List.mem_append_right _ (List.mem_singleton_self _), ⟨_, _, rfl⟩, happ⟩
  · refine ⟨?_, fun h => nomatch h⟩
    rintro ⟨ev', hmem, hix⟩
    rcases List.mem_append.mp hmem with hmem | hmem
    · exact absurd hix ((h.2 ev' hmem).2 ix)
    · obtain ⟨⟨_, hop⟩, -⟩ := hix
      rw [List.mem_singleton.mp hmem] at hop
      cases hop

/-- One more index. -/
theorem Made.index {built rest : List (String × PayloadSchema)} {ix : String × PayloadSchema}
    (h : Made env i n s₀ tr s built) (hrest : built ++ ix :: rest = payloadIndexes)
    (happ : Call.applied env i ⟨.createPayloadIndex n ix.1 ix.2, c, s⟩ = true) :
    Made env i n s₀ (tr ++ [⟨.createPayloadIndex n ix.1 ix.2, c, s⟩])
      (Event.post (exec env i) ⟨.createPayloadIndex n ix.1 ix.2, c, s⟩) (built ++ [ix]) := by
  have hpost := indexed_post happ
  obtain ⟨col, hcol, hparams, hschema⟩ := h.there
  obtain ⟨ev₀, hev₀, hcreated⟩ := h.created
  have hname : col.name = n := Table.key_of_find? hcol
  -- an index of another field stays
  have hfield : ∀ ix' ∈ built, ix'.1 ≠ ix.1 := by
    intro ix' hix' he
    have hnodup := payloadIndexes_nodup
    rw [← hrest, List.map_append, List.map_cons] at hnodup
    exact (List.nodup_append.mp hnodup).2.2 _ (List.mem_map_of_mem hix') _ List.mem_cons_self he
  refine ⟨h.new, fun m hm => ?_, ⟨col.setSchema ix.1 ix.2, ?_, hparams, fun ix' => ?_⟩, ?_, ?_,
    fun ix' => ?_⟩
  · refine (hpost m).trans ?_
    rw [h.others m hm]
    cases hm₀ : s₀.collections.find? m with
    | none => rfl
    | some col' =>
      have hne : col'.name ≠ n := by
        rw [show col'.name = m from Table.key_of_find? hm₀]
        exact hm
      simp [hne]
  · refine (hpost n).trans ?_
    rw [hcol]
    simp [hname]
  · have hbuilt := hschema ix'
    simp only [Collection.setSchema, List.mem_cons, List.mem_filter, decide_eq_true_eq, hbuilt,
      List.mem_append, List.not_mem_nil, or_false]
    constructor
    · rintro (rfl | ⟨hmem, -⟩)
      · exact .inr rfl
      · exact .inl hmem
    · rintro (hmem | rfl)
      · exact .inr ⟨hmem, hfield ix' hmem⟩
      · exact .inl rfl
  · exact ⟨rest, by rw [List.append_assoc]; exact hrest⟩
  · exact ⟨ev₀, List.mem_append_left _ hev₀, hcreated⟩
  · rw [List.mem_append, ← h.indexed ix', List.mem_singleton]
    constructor
    · rintro ⟨ev', hmem, hix⟩
      rcases List.mem_append.mp hmem with hmem | hmem
      · exact .inl ⟨ev', hmem, hix⟩
      · obtain ⟨⟨_, hop⟩, -⟩ := hix
        rw [List.mem_singleton.mp hmem] at hop
        injection hop with _ hf hs
        exact .inr (Prod.ext hf.symm hs.symm)
    · rintro (⟨ev', hmem, hix⟩ | rfl)
      · exact ⟨ev', List.mem_append_left _ hmem, hix⟩
      · exact ⟨_, List.mem_append_right _ (List.mem_singleton_self _), ⟨_, rfl⟩, happ⟩

theorem Built.step {φ φ' : Builder} (h : Built env i n s₀ tr ev.pre φ)
    (hs : Builds env i n φ ev φ') :
    Built env i n s₀ (tr ++ [ev]) (ev.post (exec env i)) φ' := by
  cases hs with
  | look ho => exact h.keep (collections_of_inspects ho) (not_created_of_inspects ho)
  | see ho hcol =>
    have hkeep := h.keep (collections_of_inspects ho) (not_created_of_inspects ho)
    cases φ with
    | idle => exact ⟨hkeep, (hasCollection_congr h.1).mp hcol⟩
    | _ => exact hkeep
  | create happ => exact h.create happ
  | createFails happ =>
    apply h.keep (collections_of_not_applied rfl rfl happ)
    refine ⟨fun hc => ?_, fun ix hix => ?_⟩
    · exact absurd (happ.symm.trans hc.2) nofun
    · exact absurd (happ.symm.trans hix.2) nofun
  | index hrest happ => exact Made.index h hrest happ
  | indexFails happ =>
    apply h.keep (collections_of_not_applied rfl rfl happ)
    refine ⟨fun hc => ?_, fun ix hix => ?_⟩
    · exact absurd (happ.symm.trans hc.2) nofun
    · exact absurd (happ.symm.trans hix.2) nofun

/-! ## Runs of calls -/

/-- A call of `get_or_create_collection`, with what the environment does at each of its calls. -/
structure Provision where
  tenant_id : String
  bot_id : String
  session : Nat
  faults : Nat → Fault

/-- The run of a call. -/
abbrev Provision.run (env : Env) (p : Provision) (s : World) :
    Outcome Op Exc String Fault World :=
  (getOrCreateCollection env p.tenant_id p.bot_id).run (exec env p.session) p.faults s

/-- Calls one after the other, each with its run. -/
def provisions (env : Env) :
    List Provision → World → List (Provision × Outcome Op Exc String Fault World)
  | [], _ => []
  | p :: ps, s => (p, p.run env s) :: provisions env ps (p.run env s).state

/-- The state after the calls. -/
def provided (env : Env) : List Provision → World → World
  | [], s => s
  | p :: ps, s => provided env ps (p.run env s).state

theorem provisions_append (ps ps' : List Provision) (s : World) :
    provisions env (ps ++ ps') s =
      provisions env ps s ++ provisions env ps' (provided env ps s) := by
  induction ps generalizing s with
  | nil => rfl
  | cons p ps ih => exact congrArg (_ :: ·) (ih _)

/-- What a call that returns has done, or that its slugs are refused. -/
theorem Provision.built (env : Env) (p : Provision) (s : World) :
    (∃ e, p.run env s = ⟨.error e, s, []⟩) ∨
    ∃ φ, collectionName p.tenant_id p.bot_id = .ok (joinName p.tenant_id p.bot_id) ∧
      Built env p.session (joinName p.tenant_id p.bot_id) s (p.run env s).trace
        (p.run env s).state φ ∧
      ∀ name, (p.run env s).reply = .ok name →
        φ ≠ .idle ∧ name = joinName p.tenant_id p.bot_id := by
  cases hname : collectionName p.tenant_id p.bot_id with
  | error e =>
    refine .inl ⟨e, ?_⟩
    obtain ⟨field, value, rfl⟩ := collectionName_eq_error hname
    have hprog : getOrCreateCollection env p.tenant_id p.bot_id =
        .throw (.invalidIdentifier field value) := by
      unfold getOrCreateCollection
      rw [hname]
      rfl
    rw [Provision.run, hprog]
    rfl
  | ok n =>
    obtain rfl := (collectionName_eq_ok.mp hname).2.2
    have h0 : Built env p.session (joinName p.tenant_id p.bot_id) s [] s .idle :=
      ⟨rfl, fun _ h => nomatch h⟩
    obtain ⟨φ, hbuilt, hreply⟩ := Prog.run_rule
      (Built env p.session (joinName p.tenant_id p.bot_id) s) (fun _ => True)
      (fun _ _ _ _ h hs _ => h.step hs) p.faults h0 (fun _ _ => trivial)
      (building_getOrCreateCollection hname)
    refine .inr ⟨φ, rfl, hbuilt, fun name h => ?_⟩
    rw [h] at hreply
    exact hreply

/-- The collection exists with the locked schema and all its indexes. -/
def Delivered (name : String) (s : World) : Prop :=
  ∃ col, s.collections.find? name = some col ∧ col.params = expectedParams ∧
    ∀ ix ∈ payloadIndexes, ix ∈ col.payload_schema

/-- Every call that returns delivers its collection. -/
def AllDelivered (env : Env) (ps : List Provision) (s : World) : Prop :=
  ∀ r ∈ provisions env ps s, ∀ name, r.2.reply = .ok name → Delivered name r.2.state

/-- If the call created its collection, it created all the indexes too. -/
def Whole (env : Env) (r : Provision × Outcome Op Exc String Fault World) : Prop :=
  (∃ ev ∈ r.2.trace, Call.Created env r.1.session ev) →
    ∀ ix ∈ payloadIndexes, ∃ ev ∈ r.2.trace, Call.Indexed env r.1.session ix ev

/-- Every collection is complete. -/
def AllComplete (s : World) : Prop := ∀ n, s.HasCollection n → Delivered n s

theorem Delivered.congr {name : String} (h : Delivered name s)
    (hc : s'.collections.find? name = s.collections.find? name) : Delivered name s' := by
  obtain ⟨col, hcol, hrest⟩ := h
  exact ⟨col, hc.trans hcol, hrest⟩

theorem AllComplete.congr (h : AllComplete s) (hc : s'.collections = s.collections) :
    AllComplete s' :=
  fun m hm => (h m ((hasCollection_congr hc).mp hm)).congr (by rw [hc])

/-- A call that is whole leaves every collection complete. -/
theorem AllComplete.run (p : Provision) (h : AllComplete s) (hwhole : Whole env (p, p.run env s)) :
    AllComplete (p.run env s).state := by
  rcases p.built env s with ⟨e, hrun⟩ | ⟨φ, -, hbuilt, -⟩
  · rw [hrun]
    exact h
  · cases φ with
    | idle => exact h.congr hbuilt.1
    | seen => exact h.congr hbuilt.1.1
    | made built going =>
      intro m hm
      by_cases hmn : m = joinName p.tenant_id p.bot_id
      · subst hmn
        obtain ⟨col, hcol, hparams, hschema⟩ := hbuilt.there
        refine ⟨col, hcol, hparams, fun ix hix => (hschema ix).mpr ((hbuilt.indexed ix).mp ?_)⟩
        exact hwhole hbuilt.created ix hix
      · have hothers := hbuilt.others m hmn
        apply Delivered.congr (s := s) _ hothers
        apply h
        rwa [World.HasCollection, hothers] at hm

/-- Calls that are whole deliver. -/
theorem AllComplete.delivered (ps : List Provision) (h : AllComplete s)
    (hwhole : ∀ r ∈ provisions env ps s, Whole env r) : AllDelivered env ps s := by
  induction ps generalizing s with
  | nil => exact fun _ h => nomatch h
  | cons p ps ih =>
    have hcomplete := h.run p (hwhole _ List.mem_cons_self)
    intro r hr name hname
    rcases List.mem_cons.mp hr with rfl | hr
    · rcases p.built env s with ⟨e, hrun⟩ | ⟨φ, -, hbuilt, hreply⟩
      · rw [hrun] at hname
        cases hname
      · obtain ⟨hφ, rfl⟩ := hreply name hname
        exact hcomplete _ (hbuilt.hasCollection hφ)
    · exact ih hcomplete (fun r hr => hwhole r (List.mem_cons_of_mem _ hr)) r hr name hname

/-! ## Collections that stay incomplete -/

/-- The collection has the locked schema, and lacks an index. -/
def Lacking (n : String) (s : World) : Prop :=
  ∃ col, s.collections.find? n = some col ∧ col.params = expectedParams ∧
    ∃ ix ∈ payloadIndexes, ix ∉ col.payload_schema

theorem Lacking.not_delivered (h : Lacking n s) : ¬ Delivered n s := by
  rintro ⟨col, hcol, -, hall⟩
  obtain ⟨col', hcol', -, ix, hix, hnot⟩ := h
  cases hcol.symm.trans hcol'
  exact hnot (hall ix hix)

/-- Nobody comes back to the missing indexes. -/
theorem Lacking.run (p : Provision) (h : Lacking n s) : Lacking n (p.run env s).state := by
  have hcongr {s' : World} (hc : s'.collections.find? n = s.collections.find? n) :
      Lacking n s' := by
    obtain ⟨col, hcol, hrest⟩ := h
    exact ⟨col, hc.trans hcol, hrest⟩
  rcases p.built env s with ⟨e, hrun⟩ | ⟨φ, -, hbuilt, -⟩
  · rw [hrun]
    exact h
  · cases φ with
    | idle => exact hcongr (by rw [hbuilt.1])
    | seen => exact hcongr (by rw [hbuilt.1.1])
    | made built going =>
      apply hcongr
      apply hbuilt.others
      rintro rfl
      obtain ⟨col, hcol, -⟩ := h
      exact hbuilt.new (World.hasCollection_iff.mpr ⟨col, hcol⟩)

theorem Lacking.provided (ps : List Provision) (h : Lacking n s) :
    Lacking n (provided env ps s) := by
  induction ps generalizing s with
  | nil => exact h
  | cons p ps ih => exact ih (h.run p)

/-- A call that is not whole leaves its collection incomplete. -/
theorem Provision.lacking {p : Provision} (h : ¬ Whole env (p, p.run env s)) :
    collectionName p.tenant_id p.bot_id = .ok (joinName p.tenant_id p.bot_id) ∧
      Lacking (joinName p.tenant_id p.bot_id) (p.run env s).state := by
  obtain ⟨hcreated, ix, hix, hnone⟩ : (∃ ev ∈ (p.run env s).trace, Call.Created env p.session ev) ∧
      ∃ ix ∈ payloadIndexes, ¬ ∃ ev ∈ (p.run env s).trace, Call.Indexed env p.session ix ev := by
    simpa only [Whole, Classical.not_imp, not_forall, exists_prop] using h
  obtain ⟨ev, hev, hcreated⟩ := hcreated
  rcases p.built env s with ⟨e, hrun⟩ | ⟨φ, hname, hbuilt, -⟩
  · rw [hrun] at hev
    cases hev
  · cases φ with
    | idle => exact absurd hcreated (hbuilt.2 ev hev).1
    | seen => exact absurd hcreated (hbuilt.1.2 ev hev).1
    | made built going =>
      obtain ⟨col, hcol, hparams, hschema⟩ := hbuilt.there
      refine ⟨hname, col, hcol, hparams, ix, hix, fun hmem => hnone ?_⟩
      exact (hbuilt.indexed ix).mpr ((hschema ix).mp hmem)

/-- A call without failures returns the name of a collection that lacks an index. -/
theorem Lacking.returns {T B : String} (h : Lacking n s) (hname : collectionName T B = .ok n)
    (session : Nat) :
    Returns (exec env session) .none (getOrCreateCollection env T B) s n s := by
  obtain ⟨col, hcol, hparams, -⟩ := h
  have hexists : Returns (exec env session) .none (call (.collectionExists n)) s true s := by
    apply returns_serve
    simp only [serve, hcol]
    rfl
  have hget : Returns (exec env session) .none (call (.getCollection n)) s expectedParams s :=
    returns_serve (by simp only [serve, hcol, hparams])
  apply returns_withRetry
  apply (returns_ofExcept hname).bind
  apply hexists.bind
  apply (hget.bind (returns_ofExcept schemaDiff_expected)).bind
  exact returns_pure

/-- After a call that is not whole some collection lacks an index. -/
theorem lacking_of_not_whole (ps : List Provision)
    {r : Provision × Outcome Op Exc String Fault World} (hr : r ∈ provisions env ps s)
    (h : ¬ Whole env r) :
    ∃ T B, collectionName T B = .ok (joinName T B) ∧
      Lacking (joinName T B) (provided env ps s) := by
  induction ps generalizing s with
  | nil => cases hr
  | cons p ps ih =>
    rcases List.mem_cons.mp hr with rfl | hr
    · obtain ⟨hname, hlacking⟩ := Provision.lacking h
      exact ⟨_, _, hname, hlacking.provided ps⟩
    · exact ih hr

/-! ## The theorem -/

/-- **Collections are delivered** where each call that creates one creates its indexes too, whatever
fails. One that lacks an index goes on to lack it, and the next call without failures returns it. -/
theorem collections_delivered (env : Env) {s : World} (hs : ∀ n, ¬ s.HasCollection n)
    (ps : List Provision) :
    ((∀ r ∈ provisions env ps s, Whole env r) → AllDelivered env ps s) ∧
    ((∀ T B session, AllDelivered env (ps ++ [⟨T, B, session, fun _ => .none⟩]) s) →
      ∀ r ∈ provisions env ps s, Whole env r) := by
  have hcomplete : AllComplete s := fun n hn => absurd hn (hs n)
  refine ⟨hcomplete.delivered ps, fun hall r hr => ?_⟩
  by_contra hnot
  obtain ⟨T, B, hname, hlacking⟩ := lacking_of_not_whole ps hr hnot
  obtain ⟨hreply, hstate⟩ := hlacking.returns hname 0
  let next : Provision := ⟨T, B, 0, fun _ => .none⟩
  have hnext : (next, next.run env (provided env ps s)) ∈ provisions env (ps ++ [next]) s := by
    rw [provisions_append]
    exact List.mem_append_right _ List.mem_cons_self
  have hdelivered : Delivered (joinName T B) (next.run env (provided env ps s)).state :=
    hall T B 0 _ hnext _ hreply
  rw [hstate] at hdelivered
  exact hlacking.not_delivered hdelivered

/-- The call creates the index. -/
def Sample.indexes (env : Env) (i : Nat) (ix : String × PayloadSchema) (ev : Call) : Bool :=
  match ev.op with
  | .createPayloadIndex _ field schema =>
    field == ix.1 && schema == ix.2 && Call.applied env i ev
  | _ => false

theorem Sample.indexed_of_indexes {ix : String × PayloadSchema} (h : indexes env i ix ev = true) :
    Call.Indexed env i ix ev := by
  unfold indexes at h
  split at h
  · next n field schema hop =>
    simp only [Bool.and_eq_true, beq_iff_eq] at h
    obtain ⟨⟨hfield, hschema⟩, happ⟩ := h
    exact ⟨⟨n, by rw [hop, hfield, hschema]⟩, happ⟩
  · cases h

theorem collections_delivered_acme :
    AllDelivered Sample.env [⟨"acme", "support", 0, Sample.served⟩] World.empty := by
  have habsent : ∀ n, ¬ World.empty.HasCollection n := by simp [World.HasCollection, World.empty]
  apply (collections_delivered Sample.env habsent _).1
  intro r hr _ ix hix
  obtain rfl := List.mem_singleton.mp hr
  have hall : payloadIndexes.all (fun ix => (Provision.run Sample.env
      ⟨"acme", "support", 0, Sample.served⟩ World.empty).trace.any
        (Sample.indexes Sample.env 0 ix)) = true := by decide +kernel
  obtain ⟨ev, hev, hindexes⟩ := List.any_eq_true.mp (List.all_eq_true.mp hall ix hix)
  exact ⟨ev, hev, Sample.indexed_of_indexes hindexes⟩

/-- The call is served, or fails as connections do for a moment. -/
def Fault.Transient : Fault → Prop
  | .none => True
  | .before e | .after e => isTransient e = true

theorem Sample.faltering_transient (n m : Nat) : (faltering n m).Transient := by
  unfold faltering
  split
  · rfl
  · trivial

/-- A call that loses its connection at the first index, and one without failures. -/
def Sample.interrupted : List Provision :=
  [⟨"acme", "support", 0, faltering 2⟩, ⟨"acme", "support", 0, served⟩]

/-- The second call returns a collection without indexes. -/
theorem interrupted_not_delivered : (∀ p ∈ Sample.interrupted, ∀ m, (p.faults m).Transient) ∧
    ¬ AllDelivered Sample.env Sample.interrupted World.empty := by
  constructor
  · intro p hp m
    rcases List.mem_pair.mp hp with rfl | rfl
    · exact Sample.faltering_transient 2 m
    · trivial
  · intro hall
    let s := (Provision.run Sample.env ⟨"acme", "support", 0, Sample.faltering 2⟩ World.empty).state
    let o := Provision.run Sample.env ⟨"acme", "support", 0, Sample.served⟩ s
    have hmem : (⟨"acme", "support", 0, Sample.served⟩, o) ∈
        provisions Sample.env Sample.interrupted World.empty := .tail _ (.head _)
    have hreply : o.reply.toOption = some Sample.support := by decide +kernel
    have hbare :
        (o.state.collections.find? Sample.support).all (·.payload_schema.isEmpty) = true := by
      decide +kernel
    obtain ⟨col, hcol, -, hschema⟩ := hall _ hmem _ (Sample.reply_of_toOption hreply)
    rw [hcol] at hbare
    have hix := hschema ("doc_id", .keyword) (.head _)
    rw [List.isEmpty_iff.mp hbare] at hix
    cases hix

end QdrantRag
