import QdrantRag.Verify.Sequential

/-! # Points and the rows they belong to

Points are written before the row, so an upload that ends in between leaves points without one.
These are all there are: every other point has an active row of its pair (`no_other_orphans`), and
points whose document has a row of their pair can be deleted through it. -/

namespace QdrantRag
open Keyed Effect Effect.Prog

variable {env : Env} {i : Nat} {w : Write} {s : World} {ev : Call} {φ φ' : Phase} {v v₀ : Stores}
  {d n : String} {st : Stage} {p : String × String} {wrote : Bool} {k : LockKey}

/-! ## Rows and points of a pair -/

/-- The document has an active row of the pair. -/
def Tracked (v : Stores) (p : String × String) (d : String) : Prop :=
  ∃ row, v.row d = some row ∧ row.owner = p ∧ row.status = .active

theorem Tracked.congr (h : Tracked v₀ p d) (hr : SameRow v₀ v d) : Tracked v p d := by
  obtain ⟨row, hrow, ho, hact⟩ := h
  obtain ⟨f, hf⟩ := hr
  exact ⟨_, hf.trans (congrArg _ hrow), ho, hact⟩

/-- The request is an upload or delete of the document under the pair. -/
def Request.on (p : String × String) (d : String) : Request → Bool
  | .write w => w.pair = p ∧ w.doc_id = d
  | .search _ => false

/-- The requests of a run that wrote points of the document under the pair. -/
def writersOf (env : Env) (p : String × String) (d : String) (history : List (Job × List Call)) :
    List (Job × List Call) :=
  history.filter fun e => e.1.request.on p d && e.2.any (Call.wrotePoints env e.1.session)

/-- The last request that wrote points of the document under the pair is an upload that did not
write its row. -/
def Abandoned (env : Env) (p : String × String) (d : String) (history : List (Job × List Call)) :
    Prop :=
  ∃ e, (writersOf env p d history).getLast? = some e ∧ (∃ x, e.1.request = .write (.upload x)) ∧
    e.2.any (Call.wroteRow env e.1.session) = false

section Abandoned
variable {history : List (Job × List Call)} {e : Job × List Call}

theorem Abandoned.append (h : Abandoned env p d history)
    (he : e.1.request.on p d = false ∨ e.2.any (Call.wrotePoints env e.1.session) = false) :
    Abandoned env p d (history ++ [e]) := by
  obtain ⟨e', hlast, hup⟩ := h
  refine ⟨e', ?_, hup⟩
  have hnone : (e.1.request.on p d && e.2.any (Call.wrotePoints env e.1.session)) = false := by
    rcases he with he | he <;> simp [he]
  rw [writersOf, List.filter_append, List.filter_cons_of_neg (by simp [hnone]), List.filter_nil,
    List.append_nil]
  exact hlast

theorem Abandoned.last {x : Upload} (hx : e.1.request = .write (.upload x))
    (hon : e.1.request.on p d = true) (hp : e.2.any (Call.wrotePoints env e.1.session) = true)
    (hr : e.2.any (Call.wroteRow env e.1.session) = false) :
    Abandoned env p d (history ++ [e]) := by
  refine ⟨e, ?_, ⟨x, hx⟩, hr⟩
  rw [writersOf, List.filter_append, List.filter_cons_of_pos (by rw [hon, hp]; rfl),
    List.filter_nil, List.getLast?_concat]

end Abandoned

/-! ## One request -/

/-- A row of another pair stays, but for a refresh. -/
theorem Reached.sameRow_of_owner (h : Reached env w v₀ wrote v st)
    (hours : (Phase.finished st).Ours w) {row : Document} (hrow : v₀.row w.doc_id = some row)
    (hne : row.owner ≠ w.pair) : SameRow v₀ v w.doc_id := by
  have hno {ex : Option Document} (hst : st.existing = ex) (hex : v₀.row w.doc_id = ex) : False :=
    hne (hours row (hst.trans (hex.symm.trans hrow))).2
  cases st with
  | locked | registered | refreshing => exact .of_eq (by rw [h.1])
  | found | unmatched | indexing => exact (hno rfl h.2.2.1).elim
  | clearing => exact (hno rfl h.2.1).elim
  | cleared => exact (hno rfl h.2.1).elim
  | upserted =>
    obtain ⟨_, _, _, hex, _⟩ := h
    exact (hno rfl hex).elim
  | stored =>
    obtain ⟨_, _, _, _, _, hex, _⟩ := h
    exact (hno rfl hex).elim
  | deleted =>
    obtain ⟨_, _, _, hex⟩ := h
    exact (hno rfl hex).elim
  | refreshed =>
    obtain ⟨-, x, -, rfl, -⟩ := h
    exact .refresh
  | torn wrote' =>
    cases wrote' with
    | false => exact (hno rfl h.2.1).elim
    | true =>
      obtain ⟨_, _, _, hex⟩ := h
      exact (hno rfl hex).elim

/-- The own row of a document that was written is active. -/
theorem Reached.tracked_stored {ex : Option Document} (h : Reached env w v₀ wrote v (.stored ex)) :
    Tracked v w.pair w.doc_id := by
  obtain ⟨x, bot, rfl, -, rfl, -⟩ := h
  obtain ⟨t, ht⟩ := Stores.row_store ((v₀.prepare (.upload x) ex).upsert (Write.upload x).collection
    (x.points env)) x.doc_id (uploadDefaults env x bot (x.points env).length) x.now
  exact ⟨_, ht, rfl, rfl⟩

/-- A delete that wrote points, wherever it ended, has left none of the document. -/
theorem Reached.deleted_points {x : Delete} (h : Reached env (.delete x) v₀ true v st) :
    ∀ pt ∈ (v.points (Write.delete x).collection).rows, pt.payload.doc_id ≠ x.doc_id := by
  have hclear : ∀ pt ∈ ((v₀.clear (Write.delete x).collection (Write.delete x).doc_id).points
      (Write.delete x).collection).rows, pt.payload.doc_id ≠ x.doc_id :=
    fun pt hpt hd => (Stores.mem_clear.mp hpt).2 ⟨rfl, hd⟩
  cases st with
  | locked | registered => cases h.2
  | found | unmatched | indexing | refreshing => cases h.2.1
  | clearing =>
    obtain ⟨⟨-, hw⟩ | rfl, -⟩ := h
    · cases hw
    · exact hclear
  | cleared =>
    obtain ⟨rfl, -⟩ := h
    exact hclear
  | upserted =>
    obtain ⟨_, hw, -⟩ := h
    cases hw
  | stored =>
    obtain ⟨_, _, hw, -⟩ := h
    cases hw
  | deleted =>
    obtain ⟨_, -, rfl, -⟩ := h
    exact hclear
  | refreshed => cases h.1
  | torn wrote' ex =>
    cases wrote' with
    | true =>
      obtain ⟨_, hw, -⟩ := h
      cases hw
    | false =>
      obtain ⟨rfl, -, hup⟩ := h
      cases ex with
      | none =>
        obtain ⟨_, hw⟩ := hup rfl
        cases hw
      | some row => exact hclear

/-- After a request a point was there before, being no less tracked than it was, or has an active
row, or is from the request itself, an upload that has not written its row. -/
theorem Reached.account (h : Reached env w v₀ wrote v st) (hours : (Phase.finished st).Ours w)
    (hunsaved : st.saved = false → v = v₀ ∨ wrote = true) {pt : Point}
    (hpt : pt ∈ (v.points n).rows) (hn : n = joinName pt.payload.owner.1 pt.payload.owner.2) :
    (pt ∈ (v₀.points n).rows ∧ (Tracked v₀ pt.payload.owner pt.payload.doc_id →
        Tracked v pt.payload.owner pt.payload.doc_id) ∧
      (w.pair = pt.payload.owner → w.doc_id = pt.payload.doc_id → wrote = false)) ∨
    Tracked v pt.payload.owner pt.payload.doc_id ∨
    (w.pair = pt.payload.owner ∧ w.doc_id = pt.payload.doc_id ∧ (∃ x, w = .upload x) ∧
      wrote = true ∧ st.saved = false) := by
  by_cases hon : w.pair = pt.payload.owner ∧ w.doc_id = pt.payload.doc_id
  · obtain ⟨hp, hd⟩ := hon
    have hcol : n = w.collection := by
      rw [hn, ← hp]
      rfl
    cases hst : st.saved with
    | false =>
      cases wrote with
      | false =>
        obtain rfl := (hunsaved hst).resolve_right nofun
        exact .inl ⟨hpt, id, fun _ _ => rfl⟩
      | true =>
        cases w with
        | upload x => exact .inr (.inr ⟨hp, hd, ⟨x, rfl⟩, rfl, rfl⟩)
        | delete x => exact absurd hd.symm (h.deleted_points pt (hcol ▸ hpt))
    | true =>
      cases st with
      | stored ex => exact .inr (.inl (hp ▸ hd ▸ h.tracked_stored))
      | deleted row =>
        obtain ⟨x, -, rfl, -⟩ := h
        exact absurd ⟨hcol, hd.symm⟩ (Stores.mem_clear.mp hpt).2
      | refreshed row =>
        obtain ⟨rfl, x, -, rfl, -⟩ := h
        exact .inl ⟨hpt, (·.congr .refresh), fun _ _ => rfl⟩
      | _ => cases hst
  · refine .inl ⟨?_, fun ht => ?_, fun hp hd => absurd ⟨hp, hd⟩ hon⟩
    · refine (h.left.mem_points hpt).resolve_right ?_
      rintro ⟨x, rfl, -, hnew⟩
      exact hon ⟨(Upload.owner_of_mem hnew).1.symm, (Upload.owner_of_mem hnew).2.1.symm⟩
    · by_cases hd : pt.payload.doc_id = w.doc_id
      · obtain ⟨row, hrow, ho, -⟩ := id ht
        rw [hd] at ht hrow ⊢
        exact ht.congr (h.sameRow_of_owner hours hrow fun hp => hon ⟨hp.symm.trans ho, hd.symm⟩)
      · exact ht.congr (h.left.sameRow hd)

/-! ## All requests -/

/-- Every point has an active row of its pair, or was abandoned. -/
def Accounted (env : Env) (s : World) (history : List (Job × List Call)) : Prop :=
  ∀ n, ∀ pt ∈ (s.points n).rows, Tracked s.stores pt.payload.owner pt.payload.doc_id ∨
    Abandoned env pt.payload.owner pt.payload.doc_id history

theorem joinName_of_bot {b : Bot} (hp : b.pair = p) (hn : b.collection_name = n) :
    n = joinName p.1 p.2 := by
  rw [← hn, b.collection_name_eq, ← hp]
  rfl

theorem Accounted.job {history : List (Job × List Call)} (h : Accounted env s history) (job : Job)
    (hown : Owned (job.run env s).state.bots (job.run env s).state.stores) :
    Accounted env (job.run env s).state (history ++ [(job, (job.run env s).trace)]) := by
  obtain ⟨request, session, faults⟩ := job
  cases request with
  | search x =>
    obtain ⟨_, hx, -⟩ := searching_run env session s x faults
    intro n pt hpt
    rw [← World.points_stores] at hpt
    refine (h n pt (by rwa [← World.points_stores, ← hx.stores])).imp ?_ (.append · (.inl rfl))
    exact fun ht => ht.congr (.of_eq (by rw [← hx.stores]; rfl))
  | write w =>
    obtain ⟨φ, hran, -, -⟩ := w.ran env session faults s
    intro n pt hpt
    have hours : (Phase.finished φ.stage).Ours w := by
      cases φ with
      | waiting => exact nofun
      | holding st | finished st => exact hran.ours
    obtain ⟨b, -, hp, hn⟩ := hown.points n pt hpt
    rcases hran.reached.account hours hran.points hpt (joinName_of_bot hp hn) with
      ⟨hold, htracked, hwrote⟩ | htracked | ⟨hp, hd, ⟨x, rfl⟩, hwrote, hst⟩
    · refine (h n pt hold).imp htracked (.append · ?_)
      by_cases hon : w.pair = pt.payload.owner ∧ w.doc_id = pt.payload.doc_id
      · exact .inr (hwrote hon.1 hon.2)
      · exact .inl (decide_eq_false hon)
    · exact .inl htracked
    · exact .inr (.last (x := x) rfl (decide_eq_true ⟨hp, hd⟩) hwrote (hran.row hst))

theorem accounted_after (env : Env) (jobs : List Job) :
    Accounted env (World.after env jobs World.empty) (World.history env jobs World.empty) := by
  induction jobs using List.reverseRecOn with
  | nil => exact fun _ _ h => nomatch h
  | append_singleton jobs job ih =>
    have hown := owned_after env (jobs ++ [job]) Owned.empty
    rw [World.after_append] at hown ⊢
    rw [World.history_append]
    exact ih.job job hown

/-! ## Locks between requests -/

/-- The lock `k` is held by the request under way only, as that of its document. -/
def Unshared (env : Env) (i : Nat) (w : Write) (k : LockKey) (s : World) (φ : Phase) : Prop :=
  ∀ j, s.holder k = some j → j = i ∧ w.key env = .ok k ∧ ∃ st, φ = .holding st

/-- A lock held after it was asked for was held before, or is obtained. -/
theorem holder_tryAdvisoryLock {c : Fault} {j : Nat} {k' : LockKey}
    (hh : (exec env i (.tryAdvisoryLock k) c s).2.holder k' = some j) :
    s.holder k' = some j ∨
      k' = k ∧ j = i ∧ (exec env i (.tryAdvisoryLock k) c s).1 = .ok true := by
  have hend (hh : (s.endSession i).holder k' = some j) : s.holder k' = some j := by
    rw [World.holder_eq_some] at hh ⊢
    exact (Table.mem_remove.mp hh).1
  cases c with
  | before e | after e => exact .inl (hend hh)
  | none =>
    simp only [exec, Op.isLock, if_true, serve] at hh ⊢
    cases hk : s.locks.find? k with
    | none =>
      simp only [hk] at hh ⊢
      rw [World.holder_eq_some] at hh ⊢
      rcases Table.mem_put.mp hh with he | ⟨hm, -⟩
      · cases he
        exact .inr ⟨rfl, rfl, trivial⟩
      · exact .inl hm
    | some l =>
      simp only [hk] at hh
      exact .inl hh

/-- A session that gives its lock back does not hold it any more. -/
theorem holder_unlocked {c : Fault} {j : Nat} {k' : LockKey}
    (hh : (exec env i (.advisoryUnlock k) c s).2.holder k' = some j) :
    s.holder k' = some j ∧ ¬ (k' = k ∧ j = i) := by
  have hend (hh : (s.endSession i).holder k' = some j) :
      s.holder k' = some j ∧ ¬ (k' = k ∧ j = i) := by
    rw [World.holder_eq_some] at hh ⊢
    obtain ⟨hm, hne⟩ := Table.mem_remove.mp hh
    exact ⟨hm, fun he => by simp [he.2] at hne⟩
  cases c with
  | before e | after e => exact hend hh
  | none =>
    rw [World.holder_eq_some] at hh ⊢
    obtain ⟨hm, hne⟩ := Table.mem_remove.mp hh
    exact ⟨hm, fun he => by simp [he.1, he.2] at hne⟩

theorem Unshared.step {k : LockKey} (h : Unshared env i w k ev.pre φ)
    (hs : Step env i w φ ev φ') : Unshared env i w k (ev.post (exec env i)) φ' := by
  have hframe {st st' : Stage} (hφ : φ = .holding st) (hφ' : φ' = .holding st')
      (hl : ev.op.isLock = false) : Unshared env i w k (ev.post (exec env i)) φ' := fun j hh => by
    obtain ⟨hj, hk, -⟩ := h j ((holder_frame hl k).symm.trans hh)
    exact ⟨hj, hk, st', hφ'⟩
  cases hs with
  | poll _ hnot =>
    intro j hh
    rcases holder_tryAdvisoryLock hh with hh | ⟨-, -, hgot⟩
    · obtain ⟨-, -, st, hst⟩ := h j hh
      cases hst
    · exact absurd hgot hnot
  | acquire hk hgot =>
    intro j hh
    rcases holder_tryAdvisoryLock hh with hh | ⟨rfl, rfl, -⟩
    · obtain ⟨-, -, st, hst⟩ := h j hh
      cases hst
    · exact ⟨rfl, hk, _, rfl⟩
  | sleep => exact h
  | unlock hk =>
    intro j hh
    obtain ⟨hh, hne⟩ := holder_unlocked hh
    obtain ⟨rfl, hk', -⟩ := h j hh
    rw [hk] at hk'
    cases hk'
    exact absurd ⟨rfl, rfl⟩ hne
  | quiet _ hq | register hq | collection _ _ hq => exact hframe rfl rfl (isLock_of_quiet hq)
  | _ => exact hframe rfl rfl rfl

/-- A lock that is free before a request is free after it. -/
theorem Write.unheld (w : Write) (env : Env) (session : Nat) (faults : Nat → Fault) {k : LockKey}
    (h : s.holder k = none) :
    ((w.program env).run (exec env session) faults s).state.holder k = none := by
  have h0 : Unshared env session w k s .waiting := fun j hh => by
    rw [h] at hh
    cases hh
  obtain ⟨φ, hu, hout, -⟩ := w.run_rule (fun _ => Unshared env session w k) (fun _ => True)
    (fun _ _ _ _ h hs _ => h.step hs) faults h0 fun _ _ => trivial
  refine Option.eq_none_iff_forall_ne_some.mpr fun j hh => ?_
  obtain ⟨-, -, st, rfl⟩ := hu j hh
  exact hout

/-- No lock is held between requests. -/
def World.Unlocked (s : World) : Prop := ∀ k, s.holder k = none

theorem Job.unlocked (job : Job) (h : s.Unlocked) : (job.run env s).state.Unlocked := by
  obtain ⟨request, session, faults⟩ := job
  cases request with
  | search x =>
    obtain ⟨_, hx, -⟩ := searching_run env session s x faults
    exact fun k => (World.holder_congr hx.locks k).trans (h k)
  | write w => exact fun k => w.unheld env session faults (h k)

theorem unlocked_after (env : Env) (jobs : List Job) (h : s.Unlocked) :
    (World.after env jobs s).Unlocked := by
  induction jobs generalizing s with
  | nil => exact h
  | cons job jobs ih => exact ih (job.unlocked h)

/-! ## Document ids of rows -/

/-- Rows have a document id that a lock key can be made of. -/
def NamedRows (s : World) : Prop := ∀ d row, s.row d = some row → d ≠ ""

theorem Job.namedRows (job : Job) (h : NamedRows s) : NamedRows (job.run env s).state := by
  obtain ⟨request, session, faults⟩ := job
  cases request with
  | search x =>
    obtain ⟨_, hx, -⟩ := searching_run env session s x faults
    exact fun d row hrow => h d row ((congrFun (congrArg Stores.row hx.stores) d).symm.trans hrow)
  | write w =>
    obtain ⟨φ, ⟨hrows, -⟩, -⟩ := w.run_rule
      (fun _ s φ => NamedRows s ∧ HoldsLock env session w φ s) (fun _ => True)
      (fun _ _ _ _ h hs _ => ⟨fun d row hrow => by
        rcases hs.change.owner_of_post hrow with ⟨row', hrow', -⟩ | ⟨rfl, -, ex, hφ⟩
        · exact h.1 d row' hrow'
        · obtain ⟨k, hk, -⟩ := h.2 _ hφ
          exact (advisoryLockKey_isOk.mp ⟨k, hk⟩).2.2, h.2.step hs⟩)
      faults ⟨h, .waiting⟩ fun _ _ => trivial
    exact hrows

theorem namedRows_after (env : Env) (jobs : List Job) (h : NamedRows s) :
    NamedRows (World.after env jobs s) := by
  induction jobs generalizing s with
  | nil => exact h
  | cons job jobs ih => exact ih (job.namedRows h)

/-! ## Deletes without failures -/

/-- Points are deleted, the rows staying as they are. -/
theorem returns_deleteByDocId (env : Env) (i : Nat) (s : World) {T B : String}
    (hT : slugMatch T = true) (hB : slugMatch B = true) (d : String) :
    ∃ count s', Returns (exec env i) .none (deleteByDocId env T B d) s count s' ∧
      s'.documents = s.documents := by
  have hname : collectionName T B = .ok (joinName T B) := collectionName_eq_ok.mpr ⟨hT, hB, rfl⟩
  have hexists : Returns (exec env i) .none (call (.collectionExists (joinName T B))) s
      (s.collections.find? (joinName T B)).isSome s := returns_serve rfl
  cases hcol : s.collections.find? (joinName T B) with
  | none =>
    rw [hcol] at hexists
    exact ⟨0, s, returns_withRetry ((returns_ofExcept hname).bind (hexists.bind returns_pure)), rfl⟩
  | some col =>
    rw [hcol] at hexists
    obtain ⟨count, hcount⟩ : ∃ count,
        serve env i (.count (joinName T B) (docFilter d)) s = .ok (count, s) :=
      ⟨_, by simp only [serve, hcol]; rfl⟩
    obtain ⟨s', hdelete, hdocs⟩ : ∃ s', serve env i (.deletePoints (joinName T B) (docFilter d)) s =
        .ok ((), s') ∧ s'.documents = s.documents :=
      ⟨s.modifyCollection (joinName T B) (·.deletePoints (docFilter d)) fun _ => rfl,
        by simp only [serve, hcol], rfl⟩
    refine ⟨count, s', returns_withRetry ((returns_ofExcept hname).bind (hexists.bind ?_)), hdocs⟩
    exact (returns_serve hcount).bind ((returns_serve hdelete).bind returns_pure)

/-- **A delete without failures** of a row of its pair succeeds. -/
theorem delete_returns (env : Env) (i : Nat) {x : Delete} {row : Document}
    (hfree : ∀ k, (Write.delete x).key env = .ok k → s.holder k = none)
    (hT : slugMatch x.tenant_id = true) (hB : slugMatch x.bot_id = true) (hd : x.doc_id ≠ "")
    (hrow : s.row x.doc_id = some row) (hown : row.owner = (x.tenant_id, x.bot_id)) :
    ∃ r s', Returns (exec env i) .none (DeletePipeline.execute env x) s r s' := by
  obtain ⟨k, hk⟩ : ∃ k, advisoryLockKey env.sha256 x.tenant_id x.bot_id x.doc_id = .ok k :=
    advisoryLockKey_isOk.mpr ⟨hT, hB, hd⟩
  -- the lock is free
  have hlock : s.locks.find? k = none := by simpa [World.holder] using hfree k hk
  obtain ⟨s₁, hgot, hs₁⟩ : ∃ s₁, serve env i (.tryAdvisoryLock k) s = .ok (true, s₁) ∧
      s₁.documents = s.documents :=
    ⟨{ s with locks := s.locks.put ⟨k, i⟩ }, by simp only [serve, hlock], rfl⟩
  have hacquire : Returns (exec env i) .none
      (acquireLock k (concurrentUploadError x.tenant_id x.bot_id x.doc_id) x.polls) s () s₁ := by
    cases x.polls <;> exact (returns_serve hgot).bind returns_pure
  -- the row is found, and its points are deleted
  have hrow₁ : s₁.row x.doc_id = some row := by rw [World.row, hs₁]; exact hrow
  have hfound : Returns (exec env i) .none (call (.documentFirst x.doc_id)) s₁ (some row) s₁ :=
    returns_serve (by simp only [serve, hrow₁])
  obtain ⟨hT', hB'⟩ := Prod.mk.inj hown
  have hmine : ownDocument x (some row) = .ok row := by simp [ownDocument, hT', hB']
  obtain ⟨count, s₂, hdelete, hs₂⟩ := returns_deleteByDocId env i s₁ hT hB x.doc_id
  -- so it can be saved
  have hdoc : row.asDeleted.doc_id = x.doc_id := (World.doc_id_of_row hrow :)
  have hrow₂ : s₂.row row.asDeleted.doc_id = some row := by
    rw [hdoc, World.row, hs₂]
    exact hrow₁
  obtain ⟨s₃, hsave⟩ : ∃ s₃, serve env i (.documentSave row.asDeleted deleteFields x.now) s₂ =
      .ok ((), s₃) := ⟨_, by simp only [serve, hrow₂]; rfl⟩
  have hbody : Returns (exec env i) .none (DeletePipeline.locked env x) s₁ _ s₃ :=
    hfound.bind ((returns_ofExcept hmine).bind (hdelete.tryCatch.bind
      ((returns_serve hsave).bind returns_pure)))
  obtain ⟨s₄, hunlock⟩ : ∃ s₄, Returns (exec env i) .none (call (.advisoryUnlock k)) s₃ () s₄ :=
    ⟨_, returns_serve rfl⟩
  exact ⟨_, s₄, (returns_ofExcept hk).bind (hacquire.bind (hbody.tryFinally hunlock))⟩

/-! ## The theorem -/

/-- The run of a delete without failures. -/
def Delete.run (env : Env) (x : Delete) (session : Nat) (s : World) :
    Prog.Outcome Op Exc Reply Fault World :=
  Job.run env ⟨.write (.delete x), session, fun _ => .none⟩ s

/-- A delete without failures of a row of its pair replies, and leaves no points of the document. -/
theorem delete_removes {x : Delete} {row : Document} (hfree : s.Unlocked)
    (hT : slugMatch x.tenant_id = true) (hB : slugMatch x.bot_id = true) (hd : x.doc_id ≠ "")
    (hrow : s.row x.doc_id = some row) (hown : row.owner = (x.tenant_id, x.bot_id)) :
    (∃ r, (x.run env i s).reply = .ok (.delete r)) ∧
      ∀ pt ∈ ((x.run env i s).state.points (joinName x.tenant_id x.bot_id)).rows,
        pt.payload.doc_id ≠ x.doc_id := by
  obtain ⟨r, s', hret⟩ := delete_returns env i (fun k _ => hfree k) hT hB hd hrow hown
  have hprog : Returns (exec env i) .none ((Write.delete x).program env) s (.delete r) s' :=
    hret.bind returns_pure
  refine ⟨⟨r, hprog.1⟩, fun pt hpt he => ?_⟩
  obtain ⟨φ, hran, -, hanswers⟩ := (Write.delete x).ran env i (fun _ => .none) s
  obtain ⟨st, rfl, hans⟩ := hanswers _ hprog.1
  cases hans with
  | deleted =>
    obtain ⟨x', -, hv, -⟩ := hran.reached
    rw [← World.points_stores, show (x.run env i s).state.stores = _ from hv] at hpt
    exact (Stores.mem_clear.mp hpt).2 ⟨rfl, he⟩

/-- **Orphans** are only the points of abandoned uploads. After any requests with any failures,
every point lies in the collection of the pair on it, and has an active row of that pair unless the
last request to write points of its document under the pair is an upload that did not come to write
its row. Where the document has a row of the pair, a delete removes all its points. -/
theorem no_other_orphans (env : Env) (jobs : List Job) :
    ∀ n, ∀ pt ∈ ((World.after env jobs World.empty).points n).rows,
      n = joinName pt.payload.tenant_id pt.payload.bot_id ∧
      ((∃ row, (World.after env jobs World.empty).row pt.payload.doc_id = some row ∧
          row.owner = pt.payload.owner ∧ row.status = .active) ∨
        Abandoned env pt.payload.owner pt.payload.doc_id (World.history env jobs World.empty)) ∧
      ((∃ row, (World.after env jobs World.empty).row pt.payload.doc_id = some row ∧
          row.owner = pt.payload.owner) →
        ∀ x : Delete, (x.tenant_id, x.bot_id) = pt.payload.owner → x.doc_id = pt.payload.doc_id →
        ∀ session,
          (∃ r, (x.run env session (World.after env jobs World.empty)).reply = .ok (.delete r)) ∧
          ∀ pt' ∈ ((x.run env session (World.after env jobs World.empty)).state.points n).rows,
            pt'.payload.doc_id ≠ pt.payload.doc_id) := by
  have haccount := accounted_after env jobs
  have hown := owned_after env jobs Owned.empty
  have hfree : (World.after env jobs World.empty).Unlocked := unlocked_after env jobs fun _ => rfl
  have hrows : NamedRows (World.after env jobs World.empty) := namedRows_after env jobs nofun
  generalize World.after env jobs World.empty = s at haccount hown hfree hrows ⊢
  intro n pt hpt
  obtain ⟨b, hb, hp, hn⟩ := hown.points n pt hpt
  have hname := joinName_of_bot hp hn
  refine ⟨hname, haccount n pt hpt, ?_⟩
  rintro ⟨row, hrow, ho⟩ x hx hd session
  obtain ⟨hTok, hBok, -⟩ := collectionName_eq_ok.mp b.derived
  obtain ⟨hT, hB⟩ := Prod.mk.inj (hp.trans hx.symm)
  have hcol : joinName x.tenant_id x.bot_id = n := by rw [hname, ← hx]
  rw [← hd] at hrow ⊢
  rw [← hcol]
  exact delete_removes hfree (hT ▸ hTok) (hB ▸ hBok) (hrows _ _ hrow) hrow (ho.trans hx.symm)

/-- A document is uploaded; the upload of another loses its connection before it saves its row. -/
def Sample.oneTorn : List Job :=
  hello acme ++ [⟨.write (.upload (upload acme docB "h2" ["world"])), 0, failing 10⟩]

theorem no_other_orphans_sample :
    ∃ pt ∈ ((World.after Sample.env Sample.oneTorn World.empty).points Sample.support).rows,
      pt.payload.doc_id = Sample.docA ∧
      ((∃ row,
          (World.after Sample.env Sample.oneTorn World.empty).row pt.payload.doc_id = some row ∧
          row.owner = pt.payload.owner ∧ row.status = .active) ∨
        Abandoned Sample.env pt.payload.owner pt.payload.doc_id
          (World.history Sample.env Sample.oneTorn World.empty)) := by
  obtain ⟨pt, hpt, hd⟩ : ∃ pt ∈ ((World.after Sample.env Sample.oneTorn World.empty).points
      Sample.support).rows, pt.payload.doc_id = Sample.docA := by decide +kernel
  exact ⟨pt, hpt, hd, (no_other_orphans _ _ _ pt hpt).2.1⟩

/-- The point of the other document has no row, and cannot be deleted. -/
theorem torn_upload_leaves_orphan :
    (∃ pt ∈ ((World.after Sample.env Sample.oneTorn World.empty).points Sample.support).rows,
      pt.payload.doc_id = Sample.docB) ∧
    ((World.after Sample.env Sample.oneTorn World.empty).row Sample.docB).isNone = true ∧
    ((Sample.delete Sample.acme Sample.docB).run Sample.env 0
      (World.after Sample.env Sample.oneTorn World.empty)).reply.isOk = false := by
  decide +kernel

end QdrantRag
