import QdrantRag.Verify.Sample
import QdrantRag.Verify.Sequential

/-! # What `delete_by_doc_id` reports

Its body counts, deletes and returns the count, and is run again where it fails for a moment. A
delete that was applied and reported as failed leaves nothing for the next attempt to count. -/

namespace QdrantRag
open Keyed Effect Effect.Prog

variable {env : Env} {i : Nat} {T B n d : String} {s : World}

/-- The points of a document in a collection. -/
def Stores.pointsOf (v : Stores) (n d : String) : List Point :=
  (v.points n).rows.filter fun p => p.payload.doc_id = d

theorem Stores.pointsOf_clear (v : Stores) : (v.clear n d).pointsOf n d = [] := by
  apply List.filter_eq_nil_iff.mpr
  intro p hp
  rw [decide_eq_true_eq]
  exact fun hd => (mem_clear.mp hp).2 ⟨rfl, hd⟩

/-- The delete was applied, and its caller saw it fail. -/
def Call.Lost (env : Env) (i : Nat) (ev : Call) : Prop :=
  (∃ n selector, ev.op = .deletePoints n selector) ∧ Call.applied env i ev = true ∧
    Event.ok (exec env i) ev = false

/-- The state after some attempts: nothing has changed; or a delete was lost, and the points of the
document are gone. -/
def Attempted (env : Env) (i : Nat) (n d : String) (v : Stores) (tr : List Call) (t : World) :
    Prop :=
  (t.stores = v ∧ ∀ ev ∈ tr, ¬ Call.Lost env i ev) ∨
    (t.stores = v.clear n d ∧ ∃ ev ∈ tr, Call.Lost env i ev)

theorem Attempted.trans {v : Stores} {tr tr' : List Call} {t t' : World}
    (h : Attempted env i n d v tr t) (h' : Attempted env i n d t.stores tr' t') :
    Attempted env i n d v (tr ++ tr') t' := by
  rcases h with ⟨hsame, hnone⟩ | ⟨hclear, ev, hev, hlost⟩
  · rw [hsame] at h'
    rcases h' with ⟨hsame', hnone'⟩ | ⟨hclear', ev, hev, hlost⟩
    · exact .inl ⟨hsame', List.forall_mem_append.mpr ⟨hnone, hnone'⟩⟩
    · exact .inr ⟨hclear', ev, List.mem_append_right _ hev, hlost⟩
  · refine .inr ⟨?_, ev, List.mem_append_left _ hev, hlost⟩
    rw [hclear] at h'
    rcases h' with ⟨hsame', -⟩ | ⟨hclear', -⟩
    · exact hsame'
    · rw [hclear', Stores.clear_clear]

theorem Attempted.concat {v : Stores} {tr : List Call} {t : World} {ev : Call}
    (h : Attempted env i n d v tr t) (hev : ¬ Call.Lost env i ev) :
    Attempted env i n d v (tr ++ [ev]) t := by
  rcases h with ⟨hsame, hnone⟩ | ⟨hclear, ev', hev', hlost⟩
  · exact .inl ⟨hsame, List.forall_mem_append.mpr ⟨hnone, List.forall_mem_singleton.mpr hev⟩⟩
  · exact .inr ⟨hclear, ev', List.mem_append_left _ hev', hlost⟩

theorem not_lost_of_quiet {o : Op} {c : Fault} (hq : o.quiet = true) :
    ¬ Call.Lost env i ⟨o, c, s⟩ := by
  rintro ⟨⟨n, selector, ho⟩, -⟩
  cases ho
  cases hq

/-- Counting and deleting where the collection is there. -/
theorem ends_countDelete {col : Collection} (hcol : s.collections.find? n = some col) :
    (do let count_before : Nat ← call (.count n (docFilter d))
        call (.deletePoints n (docFilter d))
        return count_before : Program Nat).Ends (exec env i) (fun _ => True) s fun tr r t =>
      match r with
      | .ok k => t.stores = s.stores.clear n d ∧ k = (s.stores.pointsOf n d).length ∧
        ∀ ev ∈ tr, ¬ Call.Lost env i ev
      | .error _ => Attempted env i n d s.stores tr t := by
  have hfilter (p : Point) : (docFilter d).holds p.payload = decide (p.payload.doc_id = d) := by
    rw [Bool.eq_iff_iff, holds_docFilter, decide_eq_true_eq]
  have hcount : serve env i (.count n (docFilter d)) s =
      .ok ((s.stores.pointsOf n d).length, s) := by
    simp only [serve, hcol, hfilter, Stores.pointsOf, World.points_stores,
      World.points_of_find? hcol]
  apply ends_bind.mpr
  apply ends_perform.mpr
  intro c _
  have hlook : ¬ Call.Lost env i ⟨.count n (docFilter d), c, s⟩ := not_lost_of_quiet rfl
  rcases exec_cases env i c s (o := .count n (docFilter d)) rfl rfl
    with ⟨-, e, he⟩ | ⟨-, count, s', hserve, he | ⟨e, he⟩⟩
  · rw [he]
    exact .inl ⟨rfl, List.forall_mem_singleton.mpr hlook⟩
  · cases hcount.symm.trans hserve
    rw [he, next_ok]
    apply ends_bind.mpr
    apply ends_perform.mpr
    intro c' _
    have hcalls (h : ¬ Call.Lost env i ⟨.deletePoints n (docFilter d), c', s⟩) :
        ∀ ev ∈ [(⟨.count n (docFilter d), c, s⟩ : Call), ⟨.deletePoints n (docFilter d), c', s⟩],
          ¬ Call.Lost env i ev :=
      List.forall_mem_cons.mpr ⟨hlook, List.forall_mem_singleton.mpr h⟩
    rcases exec_cases env i c' s (o := .deletePoints n (docFilter d)) rfl rfl
      with ⟨happ, e, hdel⟩ | ⟨happ, u, t, hserved, hdel | ⟨e, hdel⟩⟩
    · rw [hdel]
      exact .inl ⟨rfl, hcalls fun h => Bool.noConfusion (h.2.1.symm.trans happ)⟩
    · rw [hdel]
      refine ⟨(serve_deletePoints hserved).2, rfl, hcalls fun h => ?_⟩
      exact Bool.noConfusion (h.2.2.symm.trans (event_ok (by rw [hdel])))
    · rw [hdel]
      exact .inr ⟨(serve_deletePoints hserved).2, _, .tail _ (.head _), ⟨_, _, rfl⟩, happ,
        event_not_ok (by rw [hdel])⟩
  · cases hcount.symm.trans hserve
    rw [he]
    exact .inl ⟨rfl, List.forall_mem_singleton.mpr hlook⟩

/-- The body that `delete_by_doc_id` wraps. -/
def deleteAttempt (tenant_id bot_id doc_id : String) : Program Nat := do
  let name ← ofExcept (collectionName tenant_id bot_id)
  let exists_ : Bool ← call (.collectionExists name)
  if exists_ then
    let count_before : Nat ← call (.count name (docFilter doc_id))
    call (.deletePoints name (docFilter doc_id))
    return count_before
  else return 0

theorem deleteByDocId_eq (env : Env) (T B d : String) :
    deleteByDocId env T B d = withRetry env (deleteAttempt T B d) := rfl

/-- How an attempt ends. -/
theorem ends_deleteAttempt (hname : collectionName T B = .ok n) :
    (deleteAttempt T B d).Ends (exec env i) (fun _ => True) s fun tr r t =>
      match r with
      | .ok k => t.stores = s.stores.clear n d ∧ k = (s.stores.pointsOf n d).length ∧
        ∀ ev ∈ tr, ¬ Call.Lost env i ev
      | .error _ => Attempted env i n d s.stores tr t := by
  apply (ends_ofExcept_bind hname).mpr
  apply ends_bind.mpr
  apply ends_perform.mpr
  intro c _
  have hlook : ¬ Call.Lost env i ⟨.collectionExists n, c, s⟩ := not_lost_of_quiet rfl
  rcases exec_cases env i c s (o := .collectionExists n) rfl rfl
    with ⟨-, e, he⟩ | ⟨-, exists_, s', hserve, he | ⟨e, he⟩⟩
  · rw [he]
    exact .inl ⟨rfl, List.forall_mem_singleton.mpr hlook⟩
  · cases hserve
    rw [he, next_ok]
    cases hcol : s.collections.find? n with
    | none =>
      have habsent : ¬ s.HasCollection n := by simp [World.HasCollection, hcol]
      have hnone : s.stores.pointsOf n d = [] := by
        rw [Stores.pointsOf, World.points_stores, World.points_of_not_hasCollection habsent]
        rfl
      exact ⟨(Stores.clear_of_absent habsent).symm, by rw [hnone]; rfl,
        List.forall_mem_singleton.mpr hlook⟩
    | some col =>
      rw [Option.isSome_some, if_pos rfl]
      refine (ends_countDelete hcol).mono fun tr r t hr => ?_
      cases r with
      | ok k => exact ⟨hr.1, hr.2.1, List.forall_mem_cons.mpr ⟨hlook, hr.2.2⟩⟩
      | error e =>
        rcases hr with ⟨hsame, hnone⟩ | ⟨hclear, ev, hev, hlost⟩
        · exact .inl ⟨hsame, List.forall_mem_cons.mpr ⟨hlook, hnone⟩⟩
        · exact .inr ⟨hclear, ev, .tail _ hev, hlost⟩
  · cases hserve
    rw [he]
    exact .inl ⟨rfl, List.forall_mem_singleton.mpr hlook⟩

/-- A result is that of the last attempt, which finds what those before it left. -/
theorem ends_deleteByDocId (hname : collectionName T B = .ok n) :
    (deleteByDocId env T B d).Ends (exec env i) (fun _ => True) s fun tr r t => ∀ k, r = .ok k →
      t.stores = s.stores.clear n d ∧ (k = (s.stores.pointsOf n d).length ↔
        s.stores.pointsOf n d = [] ∨ ∀ ev ∈ tr, ¬ Call.Lost env i ev) := by
  have hstart : Attempted env i n d s.stores [] s := 
    .inl ⟨rfl, fun _ h => absurd h List.not_mem_nil⟩
  rw [deleteByDocId_eq, withRetry]
  apply ends_retryLoop (fun _ tr t => Attempted env i n d s.stores tr t) (fun _ _ _ => exec_sleep) _
    (by omega) hstart
  intro m tr t hI
  refine (ends_deleteAttempt hname).mono fun tr' r t' hr => ?_
  cases r with
  | ok k =>
    rintro _ ⟨⟩
    obtain ⟨hstate, rfl, hnone⟩ := hr
    rcases hI with ⟨hsame, hbefore⟩ | ⟨hclear, ev, hev, hlost⟩
    · rw [hstate, hsame]
      exact ⟨rfl, fun _ => .inr (List.forall_mem_append.mpr ⟨hbefore, hnone⟩), fun _ => rfl⟩
    · rw [hstate, hclear, Stores.clear_clear, Stores.pointsOf_clear]
      refine ⟨rfl, fun h => .inl (List.length_eq_zero_iff.mp h.symm), ?_⟩
      rintro (h | hall)
      · rw [h]
      · exact absurd hlost (hall ev (List.mem_append_left _ hev))
  | error e =>
    dsimp only
    split
    · exact nofun
    · split
      · exact nofun
      · intro sleep c
        exact (hI.trans hr).concat (not_lost_of_quiet rfl)

/-- **What is reported**, whatever fails. Where `delete_by_doc_id` returns, the points of the
document are gone and no others are; it returns how many there were if and only if there were none,
or no delete was lost. -/
theorem deleteByDocId_reports_iff (env : Env) (i : Nat) (T B d : String) (faults : Nat → Fault)
    (s : World) (k : Nat) :
    let o := (deleteByDocId env T B d).run (exec env i) faults s
    o.reply = .ok k →
      (∀ (n : String) (p : Point), p ∈ (o.state.points n).rows ↔
        p ∈ (s.points n).rows ∧ ¬ (n = joinName T B ∧ p.payload.doc_id = d)) ∧
      o.state.documents = s.documents ∧
      (k = (s.stores.pointsOf (joinName T B) d).length ↔
        s.stores.pointsOf (joinName T B) d = [] ∨ ∀ ev ∈ o.trace, ¬ Call.Lost env i ev) := by
  intro o hreply
  cases hname : collectionName T B with
  | error e =>
    have hrefused : o.reply = .error e := by
      obtain ⟨field_name, value, rfl⟩ := collectionName_eq_error hname
      have hprog : deleteByDocId env T B d = .throw (.invalidIdentifier field_name value) := by
        unfold deleteByDocId
        rw [hname]
        rfl
      change ((deleteByDocId env T B d).run (exec env i) faults s).reply = _
      rw [hprog]
      rfl
    rw [hrefused] at hreply
    cases hreply
  | ok n =>
    obtain rfl := (collectionName_eq_ok.mp hname).2.2
    have hends : (deleteByDocId env T B d).Ends (exec env i) (fun _ => True) s _ :=
      ends_deleteByDocId hname
    obtain ⟨hstores, hcount⟩ := hends.run (fun _ => trivial) k hreply
    refine ⟨fun n p => ?_, congrArg Stores.documents hstores, hcount⟩
    have hpoints : o.state.points n = (s.stores.clear (joinName T B) d).points n :=
      congrFun (congrArg Stores.points hstores) n
    rw [hpoints]
    exact Stores.mem_clear

theorem deleteByDocId_reports_iff_acme :
    1 = (Sample.greeted.stores.pointsOf Sample.support Sample.docA).length ↔
      Sample.greeted.stores.pointsOf Sample.support Sample.docA = [] ∨
        ∀ ev ∈ ((deleteByDocId Sample.env "acme" "support" Sample.docA).run (exec Sample.env 0)
          Sample.served Sample.greeted).trace, ¬ Call.Lost Sample.env 0 ev := by
  have hreturned : ((deleteByDocId Sample.env "acme" "support" Sample.docA).run (exec Sample.env 0)
      Sample.served Sample.greeted).reply.toOption = some 1 := by decide +kernel
  exact (deleteByDocId_reports_iff Sample.env 0 "acme" "support" Sample.docA Sample.served
    Sample.greeted 1 (Sample.reply_of_toOption hreturned)).2.2

/-- The connection is lost for a moment at the `n`-th call, after it has taken effect. -/
def Sample.losing (n : Nat) : Nat → Fault := fun m =>
  if m = n then .after (.rpcError (some .unavailable) "unavailable") else .none

/-- The answer to the delete is lost, and none is reported where there was one. -/
theorem lost_delete_reports_none :
    isTransient (.rpcError (some .unavailable) "unavailable") = true ∧
    ((deleteByDocId Sample.env "acme" "support" Sample.docA).run (exec Sample.env 0)
      (Sample.losing 2) Sample.greeted).reply.toOption = some 0 ∧
    (Sample.greeted.stores.pointsOf Sample.support Sample.docA).length = 1 := by
  decide +kernel

end QdrantRag
