import QdrantRag.Verify.Isolation
import QdrantRag.Verify.Settled

/-! # A request run alone

Nothing else changes the stores while a request runs alone, so at each stage they are a function of
those it started from (`Reached`). This holds whatever calls fail, and settles what a request leaves
behind wherever it ends. -/

namespace QdrantRag
open Keyed Effect

variable {env : Env} {W : Set Write} {i : Nat} {w : Write} {x : Upload} {s : World} {ev : Call}
  {φ φ' : Phase} {v v₀ : Stores} {d n : String} {st : Stage} {row : Document} {tr : List Call}
  {wrote : Bool}

/-! ## What is there already -/

/-- The upload finds its content in `row`: that of its own document, or an active one of another. -/
structure Known (env : Env) (x : Upload) (v : Stores) (row : Document) : Prop where
  found : v.row row.doc_id = some row
  same : SameContent env x row
  active : row.doc_id ≠ x.doc_id → row.status = .active

/-- Not its own row, at least. -/
def Unlike (env : Env) (w : Write) (v : Stores) : Prop :=
  ∀ x, w = .upload x → ∀ row, v.row x.doc_id = some row → ¬ SameContent env x row

/-- An upload finds its content nowhere. -/
def Fresh (env : Env) (w : Write) (v : Stores) : Prop :=
  ∀ x, w = .upload x → ∀ row, ¬ Known env x v row

theorem Unlike.fresh (h : Unlike env (.upload x) s.stores)
    (hno : contentMatches s x.tenant_id x.bot_id (incomingHash env x.body) x.doc_id = []) :
    Fresh env (.upload x) s.stores := by
  rintro _ ⟨⟩ row hk
  by_cases hd : row.doc_id = x.doc_id
  · exact h x rfl row (hd ▸ hk.found) hk.same
  · have : row ∈ contentMatches s x.tenant_id x.bot_id (incomingHash env x.body) x.doc_id :=
      mem_contentMatches.mpr ⟨Table.mem_of_find? hk.found, hk.same.owner, hk.same.content_hash,
        hk.active hd, hk.same.indexed, hd⟩
    rw [hno] at this
    cases this

/-! ## The stores at each stage -/

/-- The old points of the document are deleted where it has a row. -/
def Stores.prepare (v : Stores) (w : Write) (ex : Option Document) : Stores :=
  if ex.isSome then v.clear w.collection w.doc_id else v

/-- The stores `v` when `w`, having started from `v₀`, is at a stage. `wrote`: it has written
points. -/
def Reached (env : Env) (w : Write) (v₀ : Stores) (wrote : Bool) (v : Stores) : Stage → Prop
  | .locked | .registered => v = v₀ ∧ wrote = false
  | .found ex => v = v₀ ∧ wrote = false ∧ v₀.row w.doc_id = ex ∧ Unlike env w v₀
  | .unmatched ex | .indexing ex => v = v₀ ∧ wrote = false ∧ v₀.row w.doc_id = ex ∧ Fresh env w v₀
  | .clearing row => (v = v₀ ∧ wrote = false ∨ v = v₀.clear w.collection w.doc_id) ∧
    v₀.row w.doc_id = some row ∧ Fresh env w v₀
  | .cleared row => v = v₀.clear w.collection w.doc_id ∧ v₀.row w.doc_id = some row ∧ Fresh env w v₀
  | .upserted ex => ∃ x, w = .upload x ∧
    v = (v₀.prepare w ex).upsert w.collection (x.points env) ∧ v₀.row w.doc_id = ex ∧
    Fresh env w v₀ ∧ 1 ≤ (x.points env).length ∧ (x.points env).length ≤ maxChunksPerDoc
  | .stored ex => ∃ x bot, w = .upload x ∧ Bot.pair bot = w.pair ∧
    v = ((v₀.prepare w ex).upsert w.collection (x.points env)).store w.doc_id
      (uploadDefaults env x bot (x.points env).length) x.now ∧ v₀.row w.doc_id = ex ∧
    Fresh env w v₀ ∧ 1 ≤ (x.points env).length ∧ (x.points env).length ≤ maxChunksPerDoc
  | .deleted row => ∃ x, w = .delete x ∧
    v = (v₀.clear w.collection w.doc_id).erase row x.now ∧ v₀.row w.doc_id = some row
  | .refreshing row => v = v₀ ∧ wrote = false ∧ ∃ x, w = .upload x ∧ Known env x v₀ row
  | .refreshed row => wrote = false ∧ ∃ x, w = .upload x ∧ v = v₀.refresh row x.now ∧
    Known env x v₀ row
  | .torn false ex => v = v₀.prepare w ex ∧ v₀.row w.doc_id = ex ∧
    (ex = none → ∃ x, w = .upload x)
  | .torn true ex => ∃ x, w = .upload x ∧
    v = (v₀.prepare w ex).upsert w.collection (x.points env) ∧ v₀.row w.doc_id = ex

/-- The stage a phase is at; before its lock a request has done no more than at the first. -/
def Phase.stage : Phase → Stage
  | .waiting => .locked
  | .holding st | .finished st => st

/-- The row is written. -/
def Stage.saved : Stage → Bool
  | .stored _ | .deleted _ | .refreshed _ => true
  | _ => false

/-! ## Steps -/

theorem Stores.clear_clear : (v.clear n d).clear n d = v.clear n d := by
  refine Stores.ext rfl (funext fun m => Table.ext ?_)
  by_cases hm : m = n
  · subst hm
    simp [clear, Table.remove, List.filter_filter]
  · simp [clear, hm]

/-- Deleting from a collection that does not exist changes nothing. -/
theorem Stores.clear_of_absent (h : ¬ s.HasCollection n) : s.stores.clear n d = s.stores := by
  refine Stores.ext rfl (funext fun m => ?_)
  by_cases hm : m = n
  · subst hm
    simp only [clear, World.points_stores, Function.update_self,
      World.points_of_not_hasCollection h]
    rfl
  · simp [clear, hm]

theorem Reached.clears (h : Reached env w v₀ wrote v st) (hst : st.Clears w row) :
    (v = v₀ ∧ wrote = false ∨ v = v₀.clear w.collection w.doc_id) ∧ v₀.row w.doc_id = some row ∧
      Fresh env w v₀ := by
  cases hst with
  | upload => exact ⟨.inl ⟨h.1, h.2.1⟩, h.2.2⟩
  | delete => exact ⟨.inl ⟨h.1, h.2.1⟩, h.2.2.1, nofun⟩
  | again => exact h

/-- After another deletion the old points are gone. -/
theorem Reached.cleared (h : Reached env w v₀ wrote v st) (hst : st.Clears w row)
    (wrote' : Bool) :
    Reached env w v₀ wrote' (v.clear w.collection w.doc_id) (.cleared row) := by
  obtain ⟨⟨rfl, -⟩ | rfl, hrow, hfresh⟩ := h.clears hst
  · exact ⟨rfl, hrow, hfresh⟩
  · exact ⟨Stores.clear_clear, hrow, hfresh⟩

theorem Reached.upserts {ex : Option Document} (h : Reached env w v₀ wrote v st)
    (hst : st.Upserts ex) :
    v = v₀.prepare w ex ∧ v₀.row w.doc_id = ex ∧ Fresh env w v₀ := by
  cases hst with
  | create => exact ⟨h.1, h.2.2⟩
  | replace => exact h

theorem wrotePoints_of_quiet {o : Op} {c : Fault} (h : o.quiet = true) :
    Call.wrotePoints env i ⟨o, c, s⟩ = false := by
  cases o with
  | deletePoints | upsert => cases h
  | _ => rfl

/-- A call that writes nothing keeps what holds at a stage. -/
theorem Reached.stay (st : Stage) {o : Op} {c : Fault} (h : Reached env w v₀ wrote s.stores st)
    (hp : Call.wrotePoints env i ⟨o, c, s⟩ = false)
    (hv : (exec env i o c s).2.stores = s.stores) :
    Reached env w v₀ (wrote || Call.wrotePoints env i ⟨o, c, s⟩)
      (Event.post (exec env i) ⟨o, c, s⟩).stores st := by
  rw [hp, Bool.or_false, Event.post, hv]
  exact h

/-- A quiet call that leads to a stage which holds of the same stores. -/
theorem Reached.quiet (st : Stage) {o : Op} {c : Fault} (h : Reached env w v₀ wrote s.stores st)
    (hq : o.quiet = true) :
    Reached env w v₀ (wrote || Call.wrotePoints env i ⟨o, c, s⟩)
      (Event.post (exec env i) ⟨o, c, s⟩).stores st :=
  h.stay _ (wrotePoints_of_quiet hq) (quiet_frame hq).stores

section Lookups
variable {ex : Option Document}

theorem Reached.find (h : Reached env w v₀ wrote s.stores .registered) (hw : w = .upload x)
    (hown : ∀ row, s.row w.doc_id = some row → row.owner = w.pair ∧ ¬ SameContent env x row) :
    Reached env w v₀ wrote s.stores (.found (s.row w.doc_id)) := by
  obtain ⟨rfl, hwrote⟩ := h
  refine ⟨rfl, hwrote, rfl, fun x' hx row hrow => ?_⟩
  cases hw.symm.trans hx
  exact (hown row (hx ▸ hrow)).2

theorem Reached.same (h : Reached env w v₀ wrote s.stores .registered) (hw : w = .upload x)
    (hrow : s.row w.doc_id = some row) (hsame : SameContent env x row) :
    Reached env w v₀ wrote s.stores (.refreshing row) := by
  obtain ⟨rfl, hwrote⟩ := h
  have hd : row.doc_id = w.doc_id := World.doc_id_of_row hrow
  subst hw
  refine ⟨rfl, hwrote, x, rfl, hd ▸ hrow, hsame, fun hne => ?_⟩
  exact absurd hd hne

theorem Reached.own {y : Delete} (h : Reached env w v₀ wrote s.stores .locked) (hw : w = .delete y)
    (hrow : s.row w.doc_id = some row) :
    Reached env w v₀ wrote s.stores (.found (some row)) := by
  obtain ⟨rfl, hwrote⟩ := h
  refine ⟨rfl, hwrote, hrow, fun x hx => ?_⟩
  cases hw.symm.trans hx

theorem Reached.unmatched (h : Reached env w v₀ wrote s.stores (.found ex)) (hw : w = .upload x)
    (hno : contentMatches s w.tenant_id w.bot_id (incomingHash env x.body) w.doc_id = []) :
    Reached env w v₀ wrote s.stores (.unmatched ex) := by
  obtain ⟨rfl, hwrote, hrow, hunlike⟩ := h
  subst hw
  exact ⟨rfl, hwrote, hrow, hunlike.fresh hno⟩

theorem Reached.matched (h : Reached env w v₀ wrote s.stores (.found ex)) (hw : w = .upload x)
    (hrow : row ∈ contentMatches s w.tenant_id w.bot_id (incomingHash env x.body) w.doc_id) :
    Reached env w v₀ wrote s.stores (.refreshing row) := by
  obtain ⟨rfl, hwrote, -⟩ := h
  obtain ⟨hmem, hown, hhash, hact, hcc, -⟩ := mem_contentMatches.mp hrow
  subst hw
  exact ⟨rfl, hwrote, x, rfl, Table.find?_of_mem hmem, ⟨hown, hcc, hhash⟩, fun _ => hact⟩

end Lookups

section Failures
variable {c : Fault} {ex : Option Document}

/-- A deletion that failed may have been made. -/
theorem Reached.clearFails (h : Reached env w v₀ wrote s.stores st) (hst : st.Clears w row) :
    let ev : Call := ⟨.deletePoints w.collection (docFilter w.doc_id), c, s⟩
    Reached env w v₀ (wrote || Call.wrotePoints env i ev) (ev.post (exec env i)).stores
      (.clearing row) := by
  intro ev
  have hc := h.clears hst
  cases happ : Call.applied env i ev with
  | false =>
    have hp : Call.wrotePoints env i ev = false := by simp [Call.wrotePoints, happ]
    exact Reached.stay (.clearing row) hc hp (stores_of_not_applied rfl rfl happ)
  | true =>
    rw [Event.post, stores_clear happ]
    exact ⟨.inr (h.cleared hst wrote).1, hc.2⟩

/-- So may an upsert. -/
theorem Reached.upsertFails (h : Reached env w v₀ wrote s.stores st) (hw : w = .upload x)
    (hst : st.Upserts ex) (wrote' : Bool) :
    let ev : Call := ⟨.upsert w.collection (x.points env), c, s⟩
    Reached env w v₀ wrote' (ev.post (exec env i)).stores (.torn (Call.applied env i ev) ex) := by
  intro ev
  obtain ⟨hv, hrow, -⟩ := h.upserts hst
  cases happ : Call.applied env i ev with
  | false => exact ⟨(stores_of_not_applied rfl rfl happ).trans hv, hrow, fun _ => ⟨x, hw⟩⟩
  | true =>
    rw [Event.post, stores_upsert happ, hv]
    exact ⟨x, hw, rfl, hrow⟩

end Failures

theorem Reached.step (h : Reached env w v₀ wrote ev.pre.stores φ.stage)
    (hs : Step env i w φ ev φ') :
    Reached env w v₀ (wrote || Call.wrotePoints env i ev) (ev.post (exec env i)).stores
      φ'.stage := by
  cases hs with
  | poll | acquire | unlock => exact Reached.stay _ h rfl (lock_frame rfl).1
  | sleep => exact Reached.stay _ h rfl rfl
  | quiet _ hq | register hq => exact Reached.quiet _ h hq
  | find hw hown => exact Reached.quiet _ (h.find hw hown) rfl
  | same hw hrow hsame => exact Reached.quiet _ (h.same hw hrow hsame) rfl
  | own hw hrow => exact Reached.quiet _ (h.own hw hrow) rfl
  | unmatched hw hno => exact Reached.quiet _ (h.unmatched hw hno) rfl
  | matched hw hrow => exact Reached.quiet _ (h.matched hw hrow) rfl
  | @refresh x row c s hw happ =>
    obtain ⟨rfl, hwrote, x', hx', hknown⟩ := h
    cases hw.symm.trans hx'
    rw [Event.post, stores_refresh happ]
    exact ⟨by simp [hwrote, Call.wrotePoints, Op.writesPoints], x, hw, rfl, hknown⟩
  | refreshFails _ happ => exact Reached.stay _ h rfl (stores_of_not_applied rfl rfl happ)
  | collection _ hst hq =>
    refine Reached.quiet (.indexing _) ?_ hq
    rcases hst with rfl | rfl <;> exact h
  | absent hst hno =>
    have := h.cleared hst wrote
    rw [Stores.clear_of_absent hno] at this
    exact Reached.quiet (.cleared _) this rfl
  | clear hst hok =>
    rw [Event.post, stores_clear (applied_of_ok rfl rfl hok)]
    exact h.cleared hst _
  | clearFails hst => exact h.clearFails hst
  | @upsert x _ _ _ _ hw hst hlen hok =>
    obtain ⟨hv, hrow, hfresh⟩ := h.upserts hst
    rw [Event.post, stores_upsert (applied_of_ok rfl rfl hok), hv]
    exact ⟨x, hw, rfl, hrow, hfresh, hlen⟩
  | upsertFails hw hst => exact h.upsertFails hw hst _
  | @store x _ bot _ _ hw hbot happ =>
    obtain ⟨x', hw', hv, hrow⟩ := h
    cases hw.symm.trans hw'
    rw [Event.post, stores_store happ, hv]
    exact ⟨x, bot, hw, hbot, rfl, hrow⟩
  | storeFails hw _ happ =>
    obtain ⟨x', hw', hv, hrow, -⟩ := h
    exact ⟨x', hw', (stores_of_not_applied rfl rfl happ).trans hv, hrow⟩
  | @erase x _ _ _ hw happ =>
    obtain ⟨hv, hrow, -⟩ := h
    rw [Event.post, stores_erase happ, hv]
    exact ⟨x, hw, rfl, hrow⟩
  | eraseFails _ happ =>
    obtain ⟨hv, hrow, -⟩ := h
    exact ⟨(stores_of_not_applied rfl rfl happ).trans hv, hrow, fun h => by cases h⟩

/-! ## The trace -/

/-- A step to a stage at which no row is written comes from one, writes no row, and changes the
stores by writing points only. -/
theorem Step.unsaved (hs : Step env i w φ ev φ') (hst : φ'.stage.saved = false) :
    φ.stage.saved = false ∧ Call.wroteRow env i ev = false ∧
      ((ev.post (exec env i)).stores = ev.pre.stores ∨ Call.wrotePoints env i ev = true) := by
  have hquiet {o : Op} {c : Fault} {s : World} (hq : o.quiet = true) :
      Call.wroteRow env i ⟨o, c, s⟩ = false ∧
        ((Event.post (exec env i) ⟨o, c, s⟩).stores = s.stores ∨
          Call.wrotePoints env i ⟨o, c, s⟩ = true) := by
    refine ⟨?_, .inl (quiet_frame hq).stores⟩
    cases o with
    | documentSave | documentUpdateOrCreate => cases hq
    | _ => rfl
  have hwrote {o : Op} {c : Fault} {s : World} (hl : o.isLock = false) (hlo : o.isLocal = false)
      (hp : o.writesPoints = true) : (Event.post (exec env i) ⟨o, c, s⟩).stores = s.stores ∨
        Call.wrotePoints env i ⟨o, c, s⟩ = true := by
    cases happ : Call.applied env i ⟨o, c, s⟩ with
    | false => exact .inl (stores_of_not_applied hl hlo happ)
    | true => exact .inr (by simp [Call.wrotePoints, hp, happ])
  cases hs with
  | poll | acquire | sleep => exact ⟨rfl, rfl, .inl (by first | exact (lock_frame rfl).1 | rfl)⟩
  | unlock => exact ⟨hst, rfl, .inl (lock_frame rfl).1⟩
  | quiet _ hq | register hq => exact ⟨hst, hquiet hq⟩
  | collection _ hs hq =>
    refine ⟨?_, hquiet hq⟩
    rcases hs with rfl | rfl <;> rfl
  | find | same | own | unmatched | matched => exact ⟨rfl, hquiet rfl⟩
  | absent hs => exact ⟨by cases hs <;> rfl, hquiet rfl⟩
  | clear hs | clearFails hs => exact ⟨by cases hs <;> rfl, rfl, hwrote rfl rfl rfl⟩
  | upsert _ hs | upsertFails _ hs => exact ⟨by cases hs <;> rfl, rfl, hwrote rfl rfl rfl⟩
  | refreshFails _ happ | storeFails _ _ happ | eraseFails _ happ =>
    exact ⟨rfl, by simp [Call.wroteRow, happ], .inl (stores_of_not_applied rfl rfl happ)⟩
  | refresh | store | erase => cases hst

/-- What holds when a request run alone has made the calls `tr`, having started from `v₀`. -/
structure Ran (env : Env) (i : Nat) (w : Write) (v₀ : Stores) (tr : List Call) (s : World)
    (φ : Phase) : Prop where
  reached : Reached env w v₀ (tr.any (Call.wrotePoints env i)) s.stores φ.stage
  ours : φ.Ours w
  row : φ.stage.saved = false → tr.any (Call.wroteRow env i) = false
  points : φ.stage.saved = false → s.stores = v₀ ∨ tr.any (Call.wrotePoints env i) = true

theorem Ran.step (h : Ran env i w v₀ tr ev.pre φ) (hs : Step env i w φ ev φ') :
    Ran env i w v₀ (tr ++ [ev]) (ev.post (exec env i)) φ' where
  reached := by
    have := h.reached.step hs
    rwa [List.any_append, List.any_cons, List.any_nil, Bool.or_false]
  ours := hs.ours h.ours
  row hst := by
    obtain ⟨hφ, hrow, -⟩ := hs.unsaved hst
    simp [h.row hφ, hrow]
  points hst := by
    obtain ⟨hφ, -, hpost | hwrote⟩ := hs.unsaved hst
    · refine (h.points hφ).imp hpost.trans fun h => ?_
      simp [List.any_append, h]
    · exact .inr (by simp [List.any_append, hwrote])

/-- **A request run alone** ends at a stage, the stores being those of the stage, and answers from
it. -/
theorem Write.ran (env : Env) (i : Nat) (w : Write) (plan : Nat → Fault) (s : World) :
    ∃ φ, Ran env i w s.stores ((w.program env).run (exec env i) plan s).trace
        ((w.program env).run (exec env i) plan s).state φ ∧ φ.Outside ∧
      ∀ rep, ((w.program env).run (exec env i) plan s).reply = .ok rep →
        ∃ st, φ = .finished st ∧ Answers env w st rep := by
  refine w.run_rule (fun tr s' φ => Ran env i w s.stores tr s' φ) (fun _ => True)
    (fun _ _ _ _ h hs _ => h.step hs) plan ?_ fun _ _ => trivial
  exact ⟨⟨rfl, rfl⟩, trivial, fun _ => rfl, fun _ => .inl rfl⟩

/-! ## What a request leaves -/

/-- The stores a request can leave, wherever it ends. -/
inductive Left (env : Env) (w : Write) (v₀ : Stores) : Stores → Prop
  | same : Left env w v₀ v₀
  | cleared : Left env w v₀ (v₀.clear w.collection w.doc_id)
  | upserted {x ex} (hw : w = .upload x) :
      Left env w v₀ ((v₀.prepare w ex).upsert w.collection (x.points env))
  | stored {x bot ex} (hw : w = .upload x) (hbot : Bot.pair bot = w.pair) :
      Left env w v₀ (((v₀.prepare w ex).upsert w.collection (x.points env)).store w.doc_id
        (uploadDefaults env x bot (x.points env).length) x.now)
  | deleted {row now} (hrow : v₀.row w.doc_id = some row) :
      Left env w v₀ ((v₀.clear w.collection w.doc_id).erase row now)
  | refreshed {row now} : Left env w v₀ (v₀.refresh row now)

theorem Left.prepare {ex : Option Document} : Left env w v (v.prepare w ex) := by
  unfold Stores.prepare
  split
  · exact .cleared
  · exact .same

theorem Reached.left (h : Reached env w v₀ wrote v st) : Left env w v₀ v := by
  cases st with
  | locked | registered | found | unmatched | indexing | refreshing => exact h.1 ▸ .same
  | clearing =>
    obtain ⟨⟨rfl, -⟩ | rfl, -⟩ := h
    · exact .same
    · exact .cleared
  | cleared => exact h.1 ▸ .cleared
  | upserted =>
    obtain ⟨x, hw, rfl, -⟩ := h
    exact .upserted hw
  | stored =>
    obtain ⟨x, bot, hw, hbot, rfl, -⟩ := h
    exact .stored hw hbot
  | deleted =>
    obtain ⟨x, -, rfl, hrow⟩ := h
    exact .deleted hrow
  | refreshed =>
    obtain ⟨-, x, -, rfl, -⟩ := h
    exact .refreshed
  | torn wrote' =>
    cases wrote' with
    | false => exact h.1 ▸ .prepare
    | true =>
      obtain ⟨x, hw, rfl, -⟩ := h
      exact .upserted hw

theorem mem_prepare {ex : Option Document} {pt : Point}
    (h : pt ∈ ((v.prepare w ex).points n).rows) : pt ∈ (v.points n).rows := by
  unfold Stores.prepare at h
  split at h
  · exact (Stores.mem_clear.mp h).1
  · exact h

theorem row_prepare {ex : Option Document} : (v.prepare w ex).row = v.row := by
  unfold Stores.prepare
  split <;> rfl

/-- A point that is there was there before, or is one of the upload's. -/
theorem Left.mem_points (h : Left env w v₀ v) {pt : Point} (hpt : pt ∈ (v.points n).rows) :
    pt ∈ (v₀.points n).rows ∨ ∃ x, w = .upload x ∧ n = w.collection ∧ pt ∈ x.points env := by
  cases h with
  | same | refreshed => exact .inl hpt
  | cleared | deleted => exact .inl (Stores.mem_clear.mp hpt).1
  | upserted hw | stored hw =>
    exact (Stores.mem_of_mem_upsert hpt).symm.imp mem_prepare fun h => ⟨_, hw, h⟩

theorem Left.named (h : Left env w v₀ v) (hw : w ∈ W) (hn : Named env W v₀) :
    Named env W v := by
  intro m pt hpt
  rcases h.mem_points hpt with hpt | ⟨x, hx, -, hnew⟩
  · exact hn m pt hpt
  · exact ⟨x, hx ▸ hw, hnew⟩

/-- The rows of other documents stay, but for a refresh. -/
theorem Left.sameRow (h : Left env w v₀ v) (hd : d ≠ w.doc_id) : SameRow v₀ v d := by
  cases h with
  | same | cleared => exact .of_eq rfl
  | upserted => exact .of_eq (congrFun row_prepare d)
  | stored => exact .of_eq ((Stores.row_store_of_ne hd).trans (congrFun row_prepare d))
  | deleted hrow => exact SameRow.trans (.of_eq rfl) (.erase (Stores.doc_id_of_row hrow ▸ hd))
  | refreshed => exact .refresh

theorem SamePoints.refl : SamePoints v v d := fun _ _ _ => .rfl

/-- The points of other documents stay. -/
theorem Left.samePoints (henv : env.DistinctIds W) (hw : w ∈ W) (hn : Named env W v₀)
    (h : Left env w v₀ v) (hd : d ≠ w.doc_id) : SamePoints v₀ v d := by
  cases h with
  | same | refreshed => exact .refl
  | cleared | deleted => exact .clear hd
  | @upserted x ex hx | @stored x _ ex hx =>
    have hprep : SamePoints v₀ (v₀.prepare w ex) d := by
      unfold Stores.prepare
      split
      · exact .clear hd
      · exact .refl
    subst hx
    exact hprep.trans (.upsert henv hw (fun m pt hpt => hn m pt (mem_prepare hpt)) hd)

/-! ## Atomic requests -/

/-- A request that wrote points has written its row. -/
def Atomic (env : Env) (i : Nat) (tr : List Call) : Prop :=
  tr.any (Call.wrotePoints env i) = true → tr.any (Call.wroteRow env i) = true

instance : Decidable (Atomic env i tr) := inferInstanceAs (Decidable (_ → _))

/-- An atomic request that did not come to write its row left everything as it was. -/
theorem Ran.unchanged (h : Ran env i w v₀ tr s φ) (hatomic : Atomic env i tr)
    (hst : φ.stage.saved = false) : s.stores = v₀ := by
  refine (h.points hst).resolve_right fun hwrote => ?_
  have hrow := hatomic hwrote
  rw [h.row hst] at hrow
  cases hrow

/-- Where a document is settled, writing its row leaves it settled. -/
theorem Reached.settled (henv : env.DistinctIds W) (hw : w ∈ W)
    (h : Reached env w v₀ wrote v st) (hours : (Phase.finished st).Ours w)
    (hst : st.saved = true) (hset : Settled v₀ w.doc_id) : Settled v w.doc_id := by
  have hclear {row : Document} (hrow : v₀.row w.doc_id = some row) (hown : row.owner = w.pair) :
      Cleared (v₀.clear w.collection w.doc_id) w.doc_id :=
    hset.clear hrow (collection_of_owner hown)
  cases st with
  | stored ex =>
    obtain ⟨x, bot, rfl, -, rfl, hrow, -, hlen⟩ := h
    have hprep : Cleared (v₀.prepare (.upload x) ex) x.doc_id := by
      cases ex with
      | none => exact hset.cleared_of_no_row hrow
      | some row => exact hclear hrow (hours row rfl).2
    exact (hprep.upsert henv hw).store henv hw hlen
  | deleted row =>
    obtain ⟨x, -, rfl, hrow⟩ := h
    exact (hclear hrow (hours row rfl).2).erase hrow (hours row rfl).1
  | refreshed row =>
    obtain ⟨-, x, -, rfl, -⟩ := h
    exact hset.congr .refl .refresh
  | _ => cases hst

/-! ## Runs -/

/-- The document a request is about. -/
def Request.target : Request → Option String
  | .write w => some w.doc_id
  | .search _ => none

/-- What the run of a job leaves, whichever request it is. -/
theorem Job.left (env : Env) (job : Job) (s : World) :
    (job.run env s).state.stores = s.stores ∨
      ∃ w, job.request = .write w ∧ Left env w s.stores (job.run env s).state.stores := by
  obtain ⟨request, session, faults⟩ := job
  cases request with
  | write w =>
    obtain ⟨φ, hran, -, -⟩ := w.ran env session faults s
    exact .inr ⟨w, rfl, hran.reached.left⟩
  | search x =>
    obtain ⟨_, hx, -⟩ := searching_run env session s x faults
    exact .inl hx.stores

/-- The writing requests of the jobs. -/
def writes (jobs : List Job) : Set Write := {w | ∃ job ∈ jobs, job.request = .write w}

theorem writes_append_subset_iff {jobs jobs' : List Job} :
    writes (jobs ++ jobs') ⊆ W ↔ writes jobs ⊆ W ∧ writes jobs' ⊆ W := by
  constructor
  · intro h
    exact ⟨fun w ⟨job, hjob, hw⟩ => h ⟨job, List.mem_append_left _ hjob, hw⟩,
      fun w ⟨job, hjob, hw⟩ => h ⟨job, List.mem_append_right _ hjob, hw⟩⟩
  · rintro ⟨h, h'⟩ w ⟨job, hjob, hw⟩
    rcases List.mem_append.mp hjob with hjob | hjob
    · exact h ⟨job, hjob, hw⟩
    · exact h' ⟨job, hjob, hw⟩

theorem writes_cons_subset_iff {job : Job} {jobs : List Job} :
    writes (job :: jobs) ⊆ W ↔ (∀ w, job.request = .write w → w ∈ W) ∧ writes jobs ⊆ W := by
  rw [← List.singleton_append, writes_append_subset_iff]
  refine and_congr_left fun _ => ⟨fun h w hw => h ⟨job, List.mem_singleton_self job, hw⟩, ?_⟩
  rintro h w ⟨job', hjob, hw⟩
  exact h w (List.mem_singleton.mp hjob ▸ hw)

theorem Job.named (job : Job) (hw : ∀ w, job.request = .write w → w ∈ W)
    (hn : Named env W s.stores) : Named env W (job.run env s).state.stores := by
  rcases job.left env s with h | ⟨w, hrequest, h⟩
  · exact h ▸ hn
  · exact h.named (hw w hrequest) hn

theorem named_after (jobs : List Job) (hW : writes jobs ⊆ W) (hn : Named env W s.stores) :
    Named env W (World.after env jobs s).stores := by
  induction jobs generalizing s with
  | nil => exact hn
  | cons job jobs ih =>
    obtain ⟨hw, hW⟩ := writes_cons_subset_iff.mp hW
    exact ih hW (job.named hw hn)

/-- Requests on other documents, and atomic ones, leave a document settled. -/
theorem Job.settled (henv : env.DistinctIds W) (job : Job)
    (hw : ∀ w, job.request = .write w → w ∈ W) (hn : Named env W s.stores)
    (hset : Settled s.stores d)
    (hatomic : job.request.target = some d → Atomic env job.session (job.run env s).trace) :
    Settled (job.run env s).state.stores d := by
  obtain ⟨request, session, faults⟩ := job
  cases request with
  | search x =>
    obtain ⟨_, hx, -⟩ := searching_run env session s x faults
    exact hx.stores ▸ hset
  | write w =>
    obtain ⟨φ, hran, -, -⟩ := w.ran env session faults s
    by_cases hd : d = w.doc_id
    · subst hd
      cases hst : φ.stage.saved with
      | false => exact hran.unchanged (hatomic rfl) hst ▸ hset
      | true =>
        refine hran.reached.settled henv (hw w rfl) ?_ hst hset
        cases φ with
        | waiting => cases hst
        | holding st | finished st => exact hran.ours
    · have hleft := hran.reached.left
      exact hset.congr (hleft.samePoints henv (hw w rfl) hn hd) (hleft.sameRow hd)

/-- A document whose requests have all been atomic is settled. -/
theorem settled_after (henv : env.DistinctIds W) (jobs : List Job) (hW : writes jobs ⊆ W)
    (hn : Named env W s.stores) (hset : Settled s.stores d)
    (hatomic : ∀ e ∈ World.history env jobs s,
      e.1.request.target = some d → Atomic env e.1.session e.2) :
    Settled (World.after env jobs s).stores d := by
  induction jobs generalizing s with
  | nil => exact hset
  | cons job jobs ih =>
    obtain ⟨hw, hW⟩ := writes_cons_subset_iff.mp hW
    refine ih hW (job.named hw hn) ?_ fun e he => hatomic e (List.mem_cons_of_mem _ he)
    exact job.settled henv hw hn hset (hatomic _ List.mem_cons_self)

end QdrantRag
