import QdrantRag.Effect.Residual
import QdrantRag.Verify.Guarded
import QdrantRag.Verify.Phases
import QdrantRag.Verify.Sample

/-! # Requests for one document, one after the other

Writing requests that are interleaved wait for the lock of their document. Where they are all about
one document, at most one of them is past its lock at a time, and the stores are those that the
requests which got the lock leave when they run alone, in the order they got it. -/

namespace QdrantRag
open Keyed Effect Effect.Prog

variable {env : Env} {i j : Nat} {o : Op} {c : Fault} {s : World} {k : LockKey} {w : Write}
  {log : List (Nat × Call)} {ev : Call} {requests : Nat → Write}

/-! ## A request at its lock -/

namespace Write

def polls : Write → Nat
  | .upload x => x.polls
  | .delete x => x.polls

/-- What the request raises when it is given no lock. -/
def timeout (w : Write) : Exc := concurrentUploadError w.tenant_id w.bot_id w.doc_id

/-- The request under its lock `k`, up to giving it back. -/
def held (env : Env) (k : LockKey) : Write → Program Reply
  | .upload x => (do return .upload (← UploadPipeline.locked env x) : Program Reply).tryFinally
      (call (.advisoryUnlock k))
  | .delete x => (do return .delete (← DeletePipeline.locked env x) : Program Reply).tryFinally
      (call (.advisoryUnlock k))

theorem program_eq (hk : w.key env = .ok k) :
    w.program env = acquireLock k w.timeout w.polls >>= fun _ => w.held env k := by
  have hlock {α : Type} {T B d : String} {polls : Nat} {body : Program α} (f : α → Reply)
      (h : advisoryLockKey env.sha256 T B d = .ok k) :
      (uploadLock env T B d polls body >>= fun a => Pure.pure (f a)) =
        acquireLock k (concurrentUploadError T B d) polls >>= fun _ =>
          (body >>= fun a => Pure.pure (f a)).tryFinally (call (.advisoryUnlock k)) := by
    rw [← tryFinally_map, ← bind_assoc, uploadLock, h]
    rfl
  cases w with
  | upload x => exact hlock _ hk
  | delete x => exact hlock _ hk

/-- Without a key it fails before its first call. -/
theorem program_of_key_error {e : Exc} (hk : w.key env = .error e) : w.program env = .throw e := by
  have hlock {α : Type} {T B d : String} {polls : Nat} {body : Program α} (f : α → Reply)
      (h : advisoryLockKey env.sha256 T B d = .error e) :
      (uploadLock env T B d polls body >>= fun a => Pure.pure (f a)) = .throw e := by
    rw [uploadLock, h]
    rfl
  cases w with
  | upload x => exact hlock _ hk
  | delete x => exact hlock _ hk

end Write

/-! ## What the log says -/

/-- The lock that the call took. -/
def Call.acquires (env : Env) (i : Nat) : Call → Option LockKey
  | ⟨.tryAdvisoryLock k, c, s⟩ =>
    match (exec env i (.tryAdvisoryLock k) c s).1 with
    | .ok true => some k
    | _ => none
  | _ => none

/-- A call of the loop that waits for the lock. -/
def Op.polls : Op → Bool
  | .tryAdvisoryLock _ | .sleep _ => true
  | _ => false

/-- The requests that took their lock and have not given it back. -/
def inside (env : Env) : List (Nat × Call) → List (Nat × LockKey) :=
  underway (Call.acquires env) fun _ ev => ev.op.unlocks

/-- The requests that took their lock, in the order they did. -/
def acquirers (env : Env) : List (Nat × Call) → List Nat
  | [] => []
  | (i, ev) :: log =>
    if (Call.acquires env i ev).isSome then acquirers env log ++ [i] else acquirers env log

/-- What the environment chose at the calls of request `i` since it took its lock. -/
def heldChoices (env : Env) (i : Nat) : List (Nat × Call) → List Fault
  | [] => []
  | (j, ev) :: log =>
    if j = i ∧ i ∈ acquirers env ((j, ev) :: log) then heldChoices env i log ++ [ev.choice]
    else heldChoices env i log

/-- Request `i` once more, alone, the environment choosing what it chose under the lock. -/
def serialJob (env : Env) (requests : Nat → Write) (log : List (Nat × Call)) (i : Nat) : Job :=
  ⟨.write (requests i), i, fun n => ((heldChoices env i log)[n]?).getD .none⟩

/-- A call that is no poll is made by a request that has its lock, and no lock goes but by its own
session giving it back. -/
def Locked (env : Env) (log : List (Nat × Call)) (i : Nat) (ev : Call) : Prop :=
  (ev.op.polls = true ∨ ∃ k, (i, k) ∈ inside env log) ∧
    ∀ l ∈ ev.pre.locks.rows, l ∉ (ev.post (exec env i)).locks.rows →
      l.session = i ∧ ev.op.unlocks = true

section Log

theorem acquires_of_true (h : (exec env i (.tryAdvisoryLock k) c s).1 = .ok true) :
    Call.acquires env i ⟨.tryAdvisoryLock k, c, s⟩ = some k := by
  simp only [Call.acquires, h]

theorem acquires_of_ne (h : (exec env i (.tryAdvisoryLock k) c s).1 ≠ .ok true) :
    Call.acquires env i ⟨.tryAdvisoryLock k, c, s⟩ = none := by
  simp only [Call.acquires]

theorem granted_of_acquires {k' : LockKey}
    (h : Call.acquires env i ⟨.tryAdvisoryLock k, c, s⟩ = some k') :
    (exec env i (.tryAdvisoryLock k) c s).1 = .ok true := by
  by_contra hne
  rw [acquires_of_ne hne] at h
  cases h

theorem acquires_of_not_lock (h : o.isLock = false) : Call.acquires env i ⟨o, c, s⟩ = none := by
  cases o with
  | tryAdvisoryLock => cases h
  | _ => rfl

theorem Op.unlocks_of_not_lock (h : o.isLock = false) : o.unlocks = false := by
  cases o with
  | advisoryUnlock => cases h
  | _ => rfl

theorem acquirers_of_none (h : Call.acquires env i ev = none) :
    acquirers env ((i, ev) :: log) = acquirers env log := by
  rw [acquirers, h]
  rfl

theorem acquirers_of_some (h : Call.acquires env i ev = some k) :
    acquirers env ((i, ev) :: log) = acquirers env log ++ [i] := by
  rw [acquirers, h]
  rfl

theorem inside_of_none (h : Call.acquires env i ev = none) (ho : ev.op.unlocks = false) :
    inside env ((i, ev) :: log) = inside env log := by
  simp only [inside, underway, h, ho, Bool.false_eq_true, if_false]

theorem inside_of_some (h : Call.acquires env i ev = some k) :
    inside env ((i, ev) :: log) = (i, k) :: inside env log := by
  simp only [inside, underway, h]

theorem inside_of_unlocks (h : Call.acquires env i ev = none) (ho : ev.op.unlocks = true) :
    inside env ((i, ev) :: log) = (inside env log).filter (·.1 ≠ i) := by
  simp only [inside, underway, h, ho, if_true]

theorem heldChoices_of_ne (h : i ≠ j) :
    heldChoices env j ((i, ev) :: log) = heldChoices env j log := by
  rw [heldChoices, if_neg fun hji => h hji.1]

theorem serialJob_of_ne (h : i ≠ j) :
    serialJob env requests ((i, ev) :: log) j = serialJob env requests log j := by
  rw [serialJob, heldChoices_of_ne h]
  rfl

theorem heldChoices_self (h : i ∈ acquirers env ((i, ev) :: log)) :
    heldChoices env i ((i, ev) :: log) = heldChoices env i log ++ [ev.choice] := by
  rw [heldChoices, if_pos ⟨rfl, h⟩]

theorem mem_acquirers_cons (h : j ∈ acquirers env log) : j ∈ acquirers env ((i, ev) :: log) := by
  rw [acquirers]
  split
  · exact List.mem_append_left _ h
  · exact h

/-- Before it takes its lock nothing counts. -/
theorem heldChoices_of_not_mem (h : i ∉ acquirers env log) : heldChoices env i log = [] := by
  induction log with
  | nil => rfl
  | cons e log ih =>
    rw [heldChoices, if_neg fun hi => h hi.2]
    exact ih fun hi => h (mem_acquirers_cons hi)

theorem faults_of_heldChoices {n : Nat} (h : (heldChoices env i log)[n]? = some c) :
    (serialJob env requests log i).faults n = c := congrArg (·.getD .none) h

theorem map_serialJob_cons {is : List Nat} (h : i ∉ is) :
    is.map (serialJob env requests ((i, ev) :: log)) = is.map (serialJob env requests log) := by
  apply List.map_congr_left
  intro j hj
  apply serialJob_of_ne
  intro hij
  exact h (hij ▸ hj)

end Log

/-! ## Lock calls

Of the locks there is none, or one. -/

theorem World.endSession_eq (h : ∀ l ∈ s.locks.rows, l.session ≠ i) : s.endSession i = s := by
  have hlocks : (s.locks.remove fun l => l.session == i) = s.locks := by
    apply Table.ext
    apply List.filter_eq_self.mpr
    intro l hl
    simpa using h l hl
  unfold World.endSession
  rw [hlocks]

/-- A poll where the lock is free takes it, or fails. -/
theorem poll_free (env : Env) (i : Nat) (k : LockKey) (c : Fault) (h : s.locks.rows = []) :
    ((exec env i (.tryAdvisoryLock k) c s).1 = .ok true ∧
      (exec env i (.tryAdvisoryLock k) c s).2.locks.rows = [⟨k, i⟩]) ∨
    ∃ e, exec env i (.tryAdvisoryLock k) c s = (.error e, s) := by
  have hfree : s.locks.find? k = none := by
    rw [Table.find?_eq_none, h]
    simp
  have hend : s.endSession i = s := by
    apply World.endSession_eq
    rw [h]
    simp
  cases c with
  | none =>
    left
    simp only [exec, Op.isLock, if_true, serve, hfree, Table.rows_put, h]
    exact ⟨trivial, rfl⟩
  | before e => exact .inr ⟨e, congrArg (Prod.mk _) hend⟩
  | after e => exact .inr ⟨e, congrArg (Prod.mk _) hend⟩

/-- A poll while another has the lock is in vain. -/
theorem poll_held (env : Env) (c : Fault) (h : s.locks.rows = [⟨k, j⟩]) (hj : j ≠ i) :
    (exec env i (.tryAdvisoryLock k) c s).1 ≠ .ok true ∧
      (exec env i (.tryAdvisoryLock k) c s).2 = s := by
  have hheld : s.locks.find? k = some ⟨k, j⟩ := by
    rw [Table.find?_eq_some, h]
    exact ⟨List.mem_singleton_self _, rfl⟩
  have hend : s.endSession i = s := by
    apply World.endSession_eq
    rw [h]
    simpa using hj
  cases c with
  | none =>
    simp only [exec, Op.isLock, if_true, serve, hheld]
    simp [hj]
  | before e => exact ⟨fun he => (by cases he), hend⟩
  | after e => exact ⟨fun he => (by cases he), hend⟩

/-- Giving the lock back frees it, and so does failing to. -/
theorem unlock_free (h : s.locks.rows = [⟨k, i⟩]) :
    (exec env i (.advisoryUnlock k) c s).2.locks.rows = [] := by
  cases c with
  | none => simp [exec, Op.isLock, serve, Table.remove, h]
  | before e => simp [exec, Op.isLock, World.endSession, Table.remove, h]
  | after e => simp [exec, Op.isLock, World.endSession, Table.remove, h]

/-! ## Waiting -/

/-- What is left of a request that goes on with `f` once it has the lock `k`: it polls, sleeps, or
has given up. -/
inductive Waits (k : LockKey) (timeout : Exc) (f : Unit → Program Reply) : Program Reply → Prop
  | polls (n : Nat) : Waits k timeout f (acquireLock k timeout n >>= f)
  | sleeps (t : Rat) (n : Nat) :
      Waits k timeout f ((call (.sleep t) >>= fun _ => acquireLock k timeout n) >>= f)
  | gone (e : Exc) : Waits k timeout f (.throw e)

section Waits
variable {timeout : Exc} {f : Unit → Program Reply} {kont : Except Exc (Ans o) → Program Reply}

/-- The call leaves the state, and the request waits on. -/
structure Idles (env : Env) (i : Nat) (k : LockKey) (timeout : Exc) (f : Unit → Program Reply)
    (ev : Call) (rest : Program Reply) : Prop where
  acquires : Call.acquires env i ev = none
  post : ev.post (exec env i) = ev.pre
  waits : Waits k timeout f rest

/-- The call takes the lock, and the request goes on. -/
structure Enters (env : Env) (i : Nat) (k : LockKey) (f : Unit → Program Reply) (ev : Call)
    (rest : Program Reply) : Prop where
  op : ev.op = .tryAdvisoryLock k
  acquires : Call.acquires env i ev = some k
  locks : (ev.post (exec env i)).locks.rows = [⟨k, i⟩]
  goes : rest = f ()

theorem acquireLock_bind (k : LockKey) (timeout : Exc) (f : Unit → Program Reply) (n : Nat) :
    ∃ kont,
    acquireLock k timeout n >>= f = .call (.tryAdvisoryLock k) kont ∧
      kont (.ok true) = f () ∧ ∀ r, r ≠ .ok true → Waits k timeout f (kont r) := by
  have hrest {kont : Except Exc Bool → Program Reply}
      (hfalse : Waits k timeout f (kont (.ok false)))
      (herror : ∀ e, Waits k timeout f (kont (.error e))) :
      ∀ r, r ≠ .ok true → Waits k timeout f (kont r) := by
    intro r hr
    cases r with
    | error e => exact herror e
    | ok got =>
      cases got with
      | true => exact absurd rfl hr
      | false => exact hfalse
  cases n with
  | zero => exact ⟨_, rfl, rfl, hrest (.gone _) .gone⟩
  | succ n => exact ⟨_, rfl, rfl, hrest (.sleeps _ n) .gone⟩

/-- A poll that is not granted. -/
theorem idles_of_ne {kont : Except Exc Bool → Program Reply}
    (hkont : ∀ r, r ≠ .ok true → Waits k timeout f (kont r))
    (hr : (exec env i (.tryAdvisoryLock k) c s).1 ≠ .ok true)
    (hs : (exec env i (.tryAdvisoryLock k) c s).2 = s) :
    Idles env i k timeout f ⟨.tryAdvisoryLock k, c, s⟩
      (kont (exec env i (.tryAdvisoryLock k) c s).1) :=
  ⟨acquires_of_ne hr, hs, hkont _ hr⟩

/-- What a request at its lock may do next. -/
theorem Waits.turn (h : Waits k timeout f (.call o kont)) (env : Env) (i : Nat) (c : Fault)
    (s : World) :
    o.polls = true ∧
      (s.locks.rows = [] → Enters env i k f ⟨o, c, s⟩ (kont (exec env i o c s).1) ∨
        Idles env i k timeout f ⟨o, c, s⟩ (kont (exec env i o c s).1)) ∧
      ∀ j, j ≠ i → s.locks.rows = [⟨k, j⟩] →
        Idles env i k timeout f ⟨o, c, s⟩ (kont (exec env i o c s).1) := by
  generalize hq : Prog.call o kont = q at h
  cases h with
  | gone e => cases hq
  | sleeps t n =>
    cases hq
    have hidles : Idles env i k timeout f ⟨.sleep t, c, s⟩ (acquireLock k timeout n >>= f) :=
      ⟨rfl, rfl, .polls n⟩
    exact ⟨rfl, fun _ => .inr hidles, fun _ _ _ => hidles⟩
  | polls n =>
    obtain ⟨kont', hcall, htrue, hkont⟩ := acquireLock_bind k timeout f n
    rw [hcall] at hq
    cases hq
    refine ⟨rfl, fun hfree => ?_, fun j hj hheld => ?_⟩
    · rcases poll_free env i k c hfree with ⟨hr, hlocks⟩ | ⟨e, he⟩
      · left
        exact ⟨rfl, acquires_of_true hr, hlocks, (congrArg kont' hr).trans htrue⟩
      · right
        apply idles_of_ne hkont
        · rw [he]
          intro h
          cases h
        · rw [he]
    · obtain ⟨hr, hs⟩ := poll_held env c hheld hj
      exact idles_of_ne hkont hr hs

end Waits

/-! ## Having the lock -/

/-- A program that is done, having raised only exceptions of `P`. -/
def Ended (P : Exc → Prop) (q : Program Reply) : Prop :=
  ∃ r : Except Exc Reply, q = ofExcept r ∧ ∀ e, r = .error e → P e

/-- What is left of a request that has the lock `k`. -/
def Held (F P : Exc → Prop) (k : LockKey) (q : Program Reply) : Prop :=
  ∃ body : Program Reply, q = body.tryFinally (call (.advisoryUnlock k)) ∧ Guarded F P body

section Held
variable {F P : Exc → Prop}

theorem ended_pure {a : Reply} : Ended P (.pure a) := by
  refine ⟨.ok a, rfl, fun e he => ?_⟩
  cases he

theorem ended_throw {e : Exc} (h : P e) : Ended P (.throw e) := by
  refine ⟨.error e, rfl, fun e' he => ?_⟩
  cases he
  exact h

theorem Ended.not_calls {q : Program Reply} (h : Ended P q) : ¬ q.Calls := by
  obtain ⟨r, rfl, -⟩ := h
  cases r with
  | ok a => exact id
  | error e => exact id

theorem held_write (hs : Spares F P) : Held F P k (w.held env k) := by
  cases w with
  | upload x => exact ⟨_, rfl, (guarded_uploadLocked hs).bind fun _ => raises_return⟩
  | delete x => exact ⟨_, rfl, (guarded_deleteLocked hs).bind fun _ => raises_return⟩

theorem Held.calls {q : Program Reply} (h : Held F P k q) : q.Calls := by
  obtain ⟨body, rfl, -⟩ := h
  cases body with
  | _ => trivial

/-- It goes on under its lock, or gives it back and is done. -/
theorem Held.turn (hs : Spares F P) {kont : Except Exc (Ans o) → Program Reply}
    (h : Held F P k (.call o kont)) :
    (o.isLock = false ∧ ∀ r, (∀ e, r = .error e → F e) → Held F P k (kont r)) ∨
      (o = .advisoryUnlock k ∧ ∀ r, (∀ e, r = .error e → F e) → Ended P (kont r)) := by
  obtain ⟨body, hq, hbody⟩ := h
  cases body with
  | pure a =>
    cases hq
    refine .inr ⟨rfl, fun r hr => ?_⟩
    cases r with
    | ok u => exact ended_pure
    | error e => exact ended_throw (hs.raised e (hr e rfl))
  | throw e₀ =>
    cases hq
    refine .inr ⟨rfl, fun r hr => ?_⟩
    cases r with
    | ok u => exact ended_throw hbody
    | error e => exact ended_throw (hs.raised e (hr e rfl))
  | call o' kbody =>
    cases hq
    refine .inl ⟨hbody.1, fun r hr => ?_⟩
    cases r with
    | ok a => exact ⟨_, rfl, hbody.2.1 a⟩
    | error e => exact ⟨_, rfl, hbody.2.2 e (hr e rfl)⟩

end Held

/-! ## Requests for one document -/

/-- The service after call `ev` of request `i`, which goes on with `rest`. -/
def Service.called (env : Env) (p : Service) (i : Nat) (ev : Call) (rest : Program Reply) :
    Service :=
  ⟨ev.post (exec env i), Function.update p.threads i rest, (i, ev) :: p.log⟩

section Queue
variable (env : Env) (requests : Nat → Write) (s₀ : World) (k : LockKey) (F P : Exc → Prop)

/-- What holds of the requests that have not got the lock, and of all calls. -/
structure Queue (p : Service) : Prop where
  waits : ∀ i, i ∉ acquirers env p.log →
    Waits k (requests i).timeout (fun _ => (requests i).held env k) (p.threads i)
  idle : ∀ i ev, (i, ev) ∈ p.log → i ∉ acquirers env p.log → ev.post (exec env i) = ev.pre
  locked : Obeys (Locked env) p.log
  once : (acquirers env p.log).Nodup

/-- Nobody has the lock, and those that had it are done. -/
structure Free (p : Service) : Prop where
  nobody : inside env p.log = []
  locks : p.state.locks.rows = []
  ended : ∀ i ∈ acquirers env p.log, Ended P (p.threads i)
  state : p.state =
    World.after env ((acquirers env p.log).map (serialJob env requests p.log)) s₀

/-- Request `i` has the lock; those of `is` had it before, and are done. -/
structure Busy (is : List Nat) (i : Nat) (p : Service) : Prop where
  order : acquirers env p.log = is ++ [i]
  alone : inside env p.log = [(i, k)]
  locks : p.state.locks.rows = [⟨k, i⟩]
  ended : ∀ j ∈ is, Ended P (p.threads j)
  held : Held F P k (p.threads i)
  comes : Comes (exec env i) ((requests i).program env)
    (World.after env (is.map (serialJob env requests p.log)) s₀) (heldChoices env i p.log)
    (p.threads i) p.state

end Queue

section Queue
variable {s₀ : World} {F P : Exc → Prop} {p : Service} {is : List Nat} {rest : Program Reply}

theorem Op.unlocks_of_polls (h : o.polls = true) : o.unlocks = false := by
  cases o with
  | tryAdvisoryLock | sleep => rfl
  | _ => cases h

/-! ### One that waits -/

section Idles
variable {timeout : Exc} {f : Unit → Program Reply}

theorem Queue.idles (h : Queue env requests k p) (hi : i ∉ acquirers env p.log)
    (hpolls : ev.op.polls = true)
    (hidles : Idles env i k (requests i).timeout (fun _ => (requests i).held env k) ev rest) :
    Queue env requests k (p.called env i ev rest) := by
  have hacq : acquirers env ((i, ev) :: p.log) = acquirers env p.log :=
    acquirers_of_none hidles.acquires
  refine ⟨fun j hj => ?_, fun j ev' hm hj => ?_,
    ⟨⟨.inl hpolls, fun l hl hgone => ?_⟩, h.locked⟩, ?_⟩
  · by_cases hji : j = i
    · subst hji
      simpa only [Service.called, Function.update_self] using hidles.waits
    · simp only [Service.called, Function.update_of_ne hji]
      apply h.waits
      exact hacq ▸ hj
  · rcases List.mem_cons.mp hm with he | hm
    · cases he
      exact hidles.post
    · exact h.idle j ev' hm (hacq ▸ hj)
  · rw [hidles.post] at hgone
    exact absurd hl hgone
  · exact hacq.symm ▸ h.once

theorem Free.idles (h : Free env requests s₀ P p) (hi : i ∉ acquirers env p.log)
    (hpre : ev.pre = p.state) (hpolls : ev.op.polls = true)
    (hidles : Idles env i k timeout f ev rest) :
    Free env requests s₀ P (p.called env i ev rest) := by
  have hacq : acquirers env ((i, ev) :: p.log) = acquirers env p.log :=
    acquirers_of_none hidles.acquires
  have hpost : ev.post (exec env i) = p.state := hidles.post.trans hpre
  refine ⟨?_, ?_, fun j hj => ?_, ?_⟩
  · exact (inside_of_none hidles.acquires (Op.unlocks_of_polls hpolls)).trans h.nobody
  · exact (congrArg (·.locks.rows) hpost).trans h.locks
  · have hj : j ∈ acquirers env p.log := hacq ▸ hj
    have hji : j ≠ i := fun he => hi (he ▸ hj)
    simpa only [Service.called, Function.update_of_ne hji] using h.ended j hj
  · simp only [Service.called, hpost, hacq, map_serialJob_cons hi]
    exact h.state

theorem Busy.idles (h : Busy env requests s₀ k F P is j p) (hi : i ∉ acquirers env p.log)
    (hpre : ev.pre = p.state) (hpolls : ev.op.polls = true)
    (hidles : Idles env i k timeout f ev rest) :
    Busy env requests s₀ k F P is j (p.called env i ev rest) := by
  have hne (m : Nat) (hm : m ∈ is ++ [j]) : m ≠ i := by
    intro he
    apply hi
    rw [h.order, ← he]
    exact hm
  have hj : j ≠ i := hne j (List.mem_append_right _ (List.mem_singleton_self j))
  have his : i ∉ is := fun hm => hne i (List.mem_append_left _ hm) rfl
  have hpost : ev.post (exec env i) = p.state := hidles.post.trans hpre
  refine ⟨?_, ?_, ?_, fun m hm => ?_, ?_, ?_⟩
  · exact (acquirers_of_none hidles.acquires).trans h.order
  · exact (inside_of_none hidles.acquires (Op.unlocks_of_polls hpolls)).trans h.alone
  · exact (congrArg (·.locks.rows) hpost).trans h.locks
  · simp only [Service.called, Function.update_of_ne (hne m (List.mem_append_left _ hm))]
    exact h.ended m hm
  · simpa only [Service.called, Function.update_of_ne hj] using h.held
  · simp only [Service.called, Function.update_of_ne hj, hpost, map_serialJob_cons his,
      heldChoices_of_ne hj.symm]
    exact h.comes

end Idles

/-! ### One that has the lock, or gets it -/

theorem Queue.acts (h : Queue env requests k p) (hi : i ∈ acquirers env ((i, ev) :: p.log))
    (hlocked : Locked env p.log i ev) (honce : (acquirers env ((i, ev) :: p.log)).Nodup) :
    Queue env requests k (p.called env i ev rest) := by
  refine ⟨fun j hj => ?_, fun j ev' hm hj => ?_, ⟨hlocked, h.locked⟩, honce⟩
  · have hji : j ≠ i := by
      rintro rfl
      exact hj hi
    simp only [Service.called, Function.update_of_ne hji]
    exact h.waits j fun hmem => hj (mem_acquirers_cons hmem)
  · rcases List.mem_cons.mp hm with he | hm
    · cases he
      exact absurd hi hj
    · exact h.idle j ev' hm fun hmem => hj (mem_acquirers_cons hmem)

/-- The lock goes to the request that polls for it first. -/
theorem Free.enters (hs : Spares F P) (hk : (requests i).key env = .ok k)
    (hqueue : Queue env requests k p) (h : Free env requests s₀ P p)
    (hi : i ∉ acquirers env p.log) (hpre : ev.pre = p.state)
    (henters : Enters env i k (fun _ => (requests i).held env k) ev rest) :
    Queue env requests k (p.called env i ev rest) ∧
      Busy env requests s₀ k F P (acquirers env p.log) i (p.called env i ev rest) := by
  have hacq : acquirers env ((i, ev) :: p.log) = acquirers env p.log ++ [i] :=
    acquirers_of_some henters.acquires
  have hmem : i ∈ acquirers env ((i, ev) :: p.log) := by
    rw [hacq]
    exact List.mem_append_right _ (List.mem_singleton_self i)
  refine ⟨hqueue.acts hmem ⟨.inl ?_, fun l hl => ?_⟩ ?_, ?_⟩
  · rw [henters.op]
    rfl
  · rw [hpre, h.locks] at hl
    cases hl
  · rw [hacq]
    exact List.concat_eq_append ▸ hqueue.once.concat hi
  · refine ⟨hacq, ?_, henters.locks, fun j hj => ?_, ?_, ?_⟩
    · exact (inside_of_some henters.acquires).trans (congrArg _ h.nobody)
    · have hji : j ≠ i := fun he => hi (he ▸ hj)
      simpa only [Service.called, Function.update_of_ne hji] using h.ended j hj
    · simp only [Service.called, Function.update_self, henters.goes]
      exact held_write hs
    · simp only [Service.called, Function.update_self, map_serialJob_cons hi, ← h.state, ← hpre,
        heldChoices_self hmem, heldChoices_of_not_mem hi, henters.goes]
      obtain ⟨o, c, s⟩ := ev
      obtain ⟨hop, hacquires, -, -⟩ := henters
      simp only at hop
      subst hop
      obtain ⟨kont, hcall, htrue, -⟩ := acquireLock_bind k (requests i).timeout
        (fun _ => (requests i).held env k) (requests i).polls
      have hstart : Comes (exec env i) ((requests i).program env) s []
          (.call (.tryAdvisoryLock k) kont) s := by
        rw [Write.program_eq hk, hcall]
        exact .start
      have hgo := hstart.call c
      rw [granted_of_acquires hacquires, htrue] at hgo
      exact hgo

/-- A call of the request that has the lock. -/
theorem Busy.comes_call (h : Busy env requests s₀ k F P is i p) (hi : i ∉ is)
    {kont : Except Exc (Ans o) → Program Reply} (hthread : p.threads i = .call o kont)
    (hmem : i ∈ acquirers env ((i, ⟨o, c, p.state⟩) :: p.log)) :
    Comes (exec env i) ((requests i).program env)
      (World.after env (is.map (serialJob env requests ((i, ⟨o, c, p.state⟩) :: p.log))) s₀)
      (heldChoices env i ((i, ⟨o, c, p.state⟩) :: p.log)) (kont (exec env i o c p.state).1)
      (exec env i o c p.state).2 := by
  rw [map_serialJob_cons hi, heldChoices_self hmem]
  have hcomes := h.comes
  rw [hthread] at hcomes
  exact hcomes.call c

/-- The last acquirer is not among those before it. -/
theorem Busy.last (h : Busy env requests s₀ k F P is i p) (hqueue : Queue env requests k p) :
    i ∉ is ∧ i ∈ acquirers env p.log := by
  have honce := hqueue.once
  rw [h.order] at honce ⊢
  refine ⟨fun hm => ?_, List.mem_append_right _ (List.mem_singleton_self i)⟩
  exact (List.nodup_append.mp honce).2.2 i hm i (List.mem_singleton_self i) rfl

/-- It goes on under its lock. -/
theorem Busy.goes (hqueue : Queue env requests k p) (h : Busy env requests s₀ k F P is i p)
    {kont : Except Exc (Ans o) → Program Reply} (hthread : p.threads i = .call o kont)
    (ho : o.isLock = false) (hheld : Held F P k (kont (exec env i o c p.state).1)) :
    Queue env requests k
        (p.called env i ⟨o, c, p.state⟩ (kont (exec env i o c p.state).1)) ∧
      Busy env requests s₀ k F P is i
        (p.called env i ⟨o, c, p.state⟩ (kont (exec env i o c p.state).1)) := by
  obtain ⟨hi, hmem⟩ := h.last hqueue
  have hnone : Call.acquires env i ⟨o, c, p.state⟩ = none := acquires_of_not_lock ho
  have hlocks : (exec env i o c p.state).2.locks = p.state.locks := locks_frame ho
  refine ⟨hqueue.acts (mem_acquirers_cons hmem) ⟨.inr ⟨k, ?_⟩, fun l hl hgone => ?_⟩ ?_, ?_⟩
  · rw [h.alone]
    exact List.mem_singleton_self _
  · apply absurd hl
    exact hlocks ▸ hgone
  · rw [acquirers_of_none hnone]
    exact hqueue.once
  · refine ⟨?_, ?_, ?_, fun j hj => ?_, ?_, ?_⟩
    · exact (acquirers_of_none hnone).trans h.order
    · exact (inside_of_none hnone (Op.unlocks_of_not_lock ho)).trans h.alone
    · exact (congrArg Table.rows hlocks).trans h.locks
    · have hji : j ≠ i := fun he => hi (he ▸ hj)
      simpa only [Service.called, Function.update_of_ne hji] using h.ended j hj
    · simpa only [Service.called, Function.update_self] using hheld
    · simp only [Service.called, Function.update_self]
      exact h.comes_call hi hthread (mem_acquirers_cons hmem)

/-- A request that is done has come to the end of its run. -/
theorem run_of_ended {rest : Program Reply} (h : Ended P rest) (plan : Nat → Fault) :
    (rest.run (exec env i) plan s).state = s := by
  obtain ⟨r, rfl, -⟩ := h
  cases r with
  | ok a => rfl
  | error e => rfl

/-- It gives the lock back, and is done. -/
theorem Busy.unlocks (hqueue : Queue env requests k p) (h : Busy env requests s₀ k F P is i p)
    {kont : Except Exc (Ans (.advisoryUnlock k)) → Program Reply}
    (hthread : p.threads i = .call (.advisoryUnlock k) kont)
    (hended : Ended P (kont (exec env i (.advisoryUnlock k) c p.state).1)) :
    Queue env requests k (p.called env i ⟨.advisoryUnlock k, c, p.state⟩
        (kont (exec env i (.advisoryUnlock k) c p.state).1)) ∧
      Free env requests s₀ P (p.called env i ⟨.advisoryUnlock k, c, p.state⟩
        (kont (exec env i (.advisoryUnlock k) c p.state).1)) := by
  obtain ⟨hi, hmem⟩ := h.last hqueue
  have hnone : Call.acquires env i ⟨.advisoryUnlock k, c, p.state⟩ = none := rfl
  have hacq : acquirers env ((i, ⟨.advisoryUnlock k, c, p.state⟩) :: p.log) = is ++ [i] :=
    (acquirers_of_none hnone).trans h.order
  refine ⟨hqueue.acts (mem_acquirers_cons hmem) ⟨.inr ⟨k, ?_⟩, fun l hl _ => ?_⟩ ?_, ?_⟩
  · rw [h.alone]
    exact List.mem_singleton_self _
  · rw [h.locks, List.mem_singleton] at hl
    exact ⟨congrArg Lock.session hl, rfl⟩
  · rw [acquirers_of_none hnone]
    exact hqueue.once
  · refine ⟨?_, unlock_free h.locks, fun j hj => ?_, ?_⟩
    · refine (inside_of_unlocks hnone rfl).trans ?_
      rw [h.alone]
      simp
    · by_cases hji : j = i
      · subst hji
        simpa only [Service.called, Function.update_self] using hended
      · have hj : j ∈ acquirers env ((i, ⟨.advisoryUnlock k, c, p.state⟩) :: p.log) := hj
        rw [hacq, List.mem_append, List.mem_singleton] at hj
        simp only [Service.called, Function.update_of_ne hji]
        exact h.ended j (hj.resolve_right hji)
    · have hrun := (h.comes_call (c := c) hi hthread (mem_acquirers_cons hmem)).run
        fun n f => @faults_of_heldChoices env i f _ requests n
      simp only [Service.called, hacq, List.map_append, List.map_singleton, World.after_append]
      exact (run_of_ended hended _).symm.trans hrun.2.symm

/-! ### Runs -/

/-- The lock is free, or one request has it. -/
structure Orderly (env : Env) (requests : Nat → Write) (s₀ : World) (k : LockKey)
    (F P : Exc → Prop) (p : Service) : Prop where
  queue : Queue env requests k p
  turn : Free env requests s₀ P p ∨ ∃ is i, Busy env requests s₀ k F P is i p

/-- At every moment a call is made that keeps the order. -/
theorem Orderly.step (hs : Spares F P) (hk : ∀ i, (requests i).key env = .ok k)
    (h : Orderly env requests s₀ k F P p) (i : Nat) (c : Fault)
    (hraise : ∀ o e, (exec env i o c p.state).1 = .error e → F e) :
    Orderly env requests s₀ k F P (p.step (exec env) i c) := by
  obtain ⟨hqueue, hturn⟩ := h
  rcases p.step_cases (exec env) i c with hp | ⟨o, kont, ho, hp⟩
  · rw [hp]
    exact ⟨hqueue, hturn⟩
  · have hp : p.step (exec env) i c =
        p.called env i ⟨o, c, p.state⟩ (kont (exec env i o c p.state).1) := hp
    rw [hp]
    by_cases hi : i ∈ acquirers env p.log
    · rcases hturn with hfree | ⟨is, j, hbusy⟩
      · apply absurd (hfree.ended i hi).not_calls
        rw [ho]
        exact fun hcalls => hcalls trivial
      · have hij : i = j := by
          rw [hbusy.order, List.mem_append, List.mem_singleton] at hi
          apply hi.resolve_left
          intro his
          apply (hbusy.ended i his).not_calls
          rw [ho]
          trivial
        subst hij
        have hheld := hbusy.held
        rw [ho] at hheld
        rcases hheld.turn hs with ⟨hlock, hgoes⟩ | ⟨rfl, hends⟩
        · obtain ⟨hqueue', hbusy'⟩ := hbusy.goes hqueue ho hlock (hgoes _ fun e => hraise o e)
          exact ⟨hqueue', .inr ⟨is, i, hbusy'⟩⟩
        · obtain ⟨hqueue', hfree'⟩ := hbusy.unlocks hqueue ho (hends _ fun e => hraise _ e)
          exact ⟨hqueue', .inl hfree'⟩
    · have hwaits := hqueue.waits i hi
      rw [ho] at hwaits
      obtain ⟨hpolls, hfirst, hother⟩ := hwaits.turn env i c p.state
      rcases hturn with hfree | ⟨is, j, hbusy⟩
      · rcases hfirst hfree.locks with henters | hidles
        · obtain ⟨hqueue', hbusy'⟩ := hfree.enters hs (hk i) hqueue hi rfl henters
          exact ⟨hqueue', .inr ⟨_, i, hbusy'⟩⟩
        · exact ⟨hqueue.idles hi hpolls hidles, .inl (hfree.idles hi rfl hpolls hidles)⟩
      · have hji : j ≠ i := by
          rintro rfl
          exact hi (hbusy.last hqueue).2
        have hidles := hother j hji hbusy.locks
        exact ⟨hqueue.idles hi hpolls hidles,
          .inr ⟨is, j, hbusy.idles hi rfl hpolls hidles⟩⟩

theorem Orderly.run (hs : Spares F P) (hk : ∀ i, (requests i).key env = .ok k)
    (h : Orderly env requests s₀ k F P p) (sched : List (Nat × Fault))
    (hraise : ∀ e ∈ sched, ∀ i o s exc, (exec env i o e.2 s).1 = .error exc → F exc) :
    Orderly env requests s₀ k F P (p.run (exec env) sched) := by
  induction sched generalizing p with
  | nil => exact h
  | cons e sched ih =>
    apply ih (h.step hs hk e.1 e.2 fun o exc => hraise e List.mem_cons_self e.1 o p.state exc)
    exact fun e' he' => hraise e' (List.mem_cons_of_mem e he')

/-- Before the first call the lock is free. -/
theorem orderly_start (hk : ∀ i, (requests i).key env = .ok k) (hlocks : s₀.locks = .empty) :
    Orderly env requests s₀ k F P (Pool.start s₀ fun i => (requests i).program env) := by
  refine ⟨⟨fun i _ => ?_, fun i ev hm => ?_, trivial, List.nodup_nil⟩,
    .inl ⟨rfl, congrArg Table.rows hlocks, fun i hi => ?_, rfl⟩⟩
  · simp only [Pool.start, Write.program_eq (hk i)]
    exact .polls _
  · cases hm
  · cases hi

end Queue

/-- A pool whose threads are done stays as it is. -/
theorem run_of_done {p : Service} (h : ∀ i, ¬ (p.threads i).Calls) (sched : List (Nat × Fault)) :
    p.run (exec env) sched = p := by
  induction sched with
  | nil => rfl
  | cons e sched ih =>
    rw [Pool.run, Pool.step_of_done e.2 (h e.1)]
    exact ih

/-! ## Serialization -/

/-- What the requests for one document have done by some moment, having started from `s₀`. -/
structure Serialized (env : Env) (requests : Nat → Write) (s₀ : World) (p : Service) : Prop where
  /-- At most one is past its lock. -/
  exclusive : (inside env p.log).length ≤ 1
  /-- One that is done has no lock, however it ended. -/
  released : ∀ i, ¬ (p.threads i).Calls →
    (∀ e ∈ inside env p.log, e.1 ≠ i) ∧ ∀ l ∈ p.state.locks.rows, l.session ≠ i
  /-- Only one that is past its lock makes calls but polls, and only it gives its lock back. -/
  locked : Obeys (Locked env) p.log
  /-- One that has not got the lock has changed nothing. -/
  idle : ∀ i, i ∉ acquirers env p.log → ∀ ev, (i, ev) ∈ p.log → ev.post (exec env i) = ev.pre
  /-- Each gets the lock once. -/
  once : (acquirers env p.log).Nodup
  /-- When nobody is past its lock, the stores are those of running the acquirers in turn. -/
  serial : inside env p.log = [] →
    p.state = World.after env ((acquirers env p.log).map (serialJob env requests p.log)) s₀

theorem Orderly.serialized {s₀ : World} {F P : Exc → Prop} {p : Service}
    (h : Orderly env requests s₀ k F P p) : Serialized env requests s₀ p := by
  obtain ⟨hqueue, hturn⟩ := h
  have hidle := fun i hi ev hm => hqueue.idle i ev hm hi
  rcases hturn with hfree | ⟨is, i, hbusy⟩
  · refine ⟨?_, fun j _ => ?_, hqueue.locked, hidle, hqueue.once, fun _ => hfree.state⟩
    · rw [hfree.nobody]
      exact Nat.zero_le 1
    · rw [hfree.nobody, hfree.locks]
      exact ⟨fun e he => (by cases he), fun l hl => (by cases hl)⟩
  · refine ⟨?_, fun j hj => ?_, hqueue.locked, hidle, hqueue.once, fun hnobody => ?_⟩
    · rw [hbusy.alone]
      exact Nat.le_refl 1
    · have hij : i ≠ j := by
        rintro rfl
        exact hj (hbusy.held.calls)
      rw [hbusy.alone, hbusy.locks]
      simpa using hij
    · rw [hbusy.alone] at hnobody
      cases hnobody

/-- What a request raises that has had the lock. -/
theorem Orderly.raised {s₀ : World} {F P : Exc → Prop} {p : Service} {e : Exc}
    (h : Orderly env requests s₀ k F P p) (hi : i ∈ acquirers env p.log)
    (hthrow : p.threads i = .throw e) : P e := by
  have hended : Ended P (p.threads i) → P e := by
    rintro ⟨r, hr, hP⟩
    rw [hthrow] at hr
    cases r with
    | ok a => cases hr
    | error e' =>
      cases hr
      exact hP e rfl
  rcases h.turn with hfree | ⟨is, j, hbusy⟩
  · exact hended (hfree.ended i hi)
  · rw [hbusy.order, List.mem_append, List.mem_singleton] at hi
    rcases hi with his | rfl
    · exact hended (hbusy.ended i his)
    · have hcalls := hbusy.held.calls
      rw [hthrow] at hcalls
      cases hcalls

/-- **Requests for one document are serialized**: however uploads and deletes of a document are
interleaved, whatever they are and wherever they fail, they go through their lock one at a time and
leave what they leave when they run one after the other. A request that raises
`ConcurrentUploadError` has not had the lock. -/
theorem writes_serialized {T B d : String} (hsame : ∀ i, (requests i).pair = (T, B))
    (hdoc : ∀ i, (requests i).doc_id = d) (hs : s.locks = .empty) (sched : List (Nat × Fault)) :
    let p := (Pool.start s fun i => (requests i).program env).run (exec env) sched
    Serialized env requests s p ∧
      ((∀ e ∈ sched, e.2.Foreign) → ∀ i e, p.threads i = .throw e → e.isConcurrent = true →
        i ∉ acquirers env p.log ∧ ∀ ev, (i, ev) ∈ p.log → ev.post (exec env i) = ev.pre) := by
  have hkey (i : Nat) : (requests i).key env = advisoryLockKey env.sha256 T B d := by
    obtain ⟨hT, hB⟩ := Prod.mk.inj (hsame i)
    rw [Write.key, hT, hB, hdoc i]
  intro p
  cases hk : advisoryLockKey env.sha256 T B d with
  | error e =>
    have hp : p = Pool.start s fun i => (requests i).program env := by
      apply run_of_done
      intro i
      simp only [Pool.start, Write.program_of_key_error ((hkey i).trans hk)]
      exact id
    rw [hp]
    refine ⟨⟨Nat.zero_le 1, fun i _ => ⟨fun e he => (by cases he), fun l hl => ?_⟩, trivial,
      fun i _ ev hm => (by cases hm), List.nodup_nil, fun _ => rfl⟩, fun _ i e' _ _ =>
        ⟨List.not_mem_nil, fun ev hm => (by cases hm)⟩⟩
    rw [Pool.start, hs] at hl
    cases hl
  | ok k =>
    have hk (i : Nat) := (hkey i).trans hk
    have hser : Serialized env requests s p :=
      ((orderly_start hk hs).run .any hk sched fun _ _ _ _ _ _ _ => trivial).serialized
    refine ⟨hser, fun hforeign i e hthrow hconc => ?_⟩
    have hnot : i ∉ acquirers env p.log := by
      intro hi
      have horder := (orderly_start hk hs).run .foreign hk sched
        fun e he _ _ _ _ h => foreign_of_exec (hforeign e he) h
      have hfalse : e.isConcurrent = false := horder.raised hi hthrow
      rw [hconc] at hfalse
      cases hfalse
    exact ⟨hnot, hser.idle i hnot⟩

namespace Sample

/-- Uploads of one document, of which all but the first poll once. -/
def rivals : Nat → Write
  | 0 => .upload (upload acme docA "h1" ["Hello"])
  | _ => .upload { upload acme docA "h2" ["Bye"] with polls := 0 }

/-- The second polls while the first has the lock. -/
def contest : Service := interleave Sample.env rivals (turns [0, 0, 1])

end Sample

theorem writes_serialized_acme :
    Serialized Sample.env Sample.rivals .empty Sample.contest ∧
      1 ∉ acquirers Sample.env Sample.contest.log := by
  have hser := @writes_serialized Sample.env .empty Sample.rivals "acme" "support" Sample.docA
    (fun i => by cases i <;> rfl) (fun i => by cases i <;> rfl) rfl (Sample.turns [0, 0, 1])
  refine ⟨hser.1, (hser.2 ?_ 1 _ rfl rfl).1⟩
  intro e he
  obtain ⟨i, _, rfl⟩ := List.mem_map.mp he
  trivial

end QdrantRag
