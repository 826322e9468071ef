import QdrantRag.Effect.Ends
import QdrantRag.Effect.Only
import QdrantRag.Effect.Returns
import QdrantRag.Effect.Sim
import QdrantRag.Model.Pipeline

/-! # Rules for retried and locked programs

One rule of each kind for `with_retry`: what holds of every attempt holds of the whole. A program
under the lock makes the calls of its body, and those for the lock. -/

namespace QdrantRag
open Effect Effect.Prog

variable {α : Type} {env : Env} {fn : Program α}

section Sim
variable {P : Type} {ex : Exec Ans Exc Fault World} {step : P → Call → P → Prop}
  {ok : P → α → Prop}

/-- A retried program starts again in a phase of `K`, after sleeping there. It raises what an
attempt raises, or that its attempts are used up. -/
theorem sim_retry {K : P → Prop} {Q : P → Exc → Prop}
    (hex : ∀ t c s, (ex (.sleep t) c s).1 = .ok ())
    (hlast : ∀ φ last, K φ → Q φ (.qdrantConnection 3 last))
    (hsleep : ∀ φ t c s, K φ → step φ ⟨.sleep t, c, s⟩ φ)
    (hfn : ∀ φ, K φ → Sim ex step ok (fun φ e => K φ ∧ Q φ e) fn φ) {φ : P} (hφ : K φ) :
    Sim ex step ok (fun φ e => K φ ∧ Q φ e) (withRetry env fn) φ := by
  have hloop (backoff : Rat) (n : Nat) (delay : Rat) (last : Option Exc) {φ : P} (hφ : K φ) :
      Sim ex step ok (fun φ e => K φ ∧ Q φ e) (retryLoop env 3 backoff fn n delay last) φ := by
    induction n generalizing delay last φ with
    | zero => exact ⟨hφ, hlast φ last hφ⟩
    | succ n ih =>
      rw [retryLoop]
      apply sim_tryCatch.mpr
      refine (hfn φ hφ).mono (fun _ _ => id) fun φ exc hφ => ?_
      split
      · exact hφ
      · split
        · exact ⟨hφ.1, hlast φ _ hφ.1⟩
        · apply sim_do.mpr
          apply sim_perform.mpr
          intro c s
          refine ⟨φ, hsleep _ _ _ _ hφ.1, ?_⟩
          rw [hex]
          exact ih _ _ hφ.1
  exact hloop 2 3 _ _ hφ

/-- The rule for programs that may raise anything in a phase of `K`. -/
theorem sim_withRetry {i : Nat} {K : P → Prop}
    (hsleep : ∀ φ t c s, K φ → step φ ⟨.sleep t, c, s⟩ φ)
    (hfn : ∀ φ, K φ → Sim (exec env i) step ok (fun φ _ => K φ) fn φ) {φ : P} (hφ : K φ) :
    Sim (exec env i) step ok (fun φ _ => K φ) (withRetry env fn) φ := by
  have h : Sim (exec env i) step ok (fun φ _ => K φ ∧ True) (withRetry env fn) φ := by
    refine sim_retry (fun _ _ _ => rfl) (fun _ _ _ => trivial) hsleep (fun φ hφ => ?_) hφ
    exact (hfn φ hφ).mono (fun _ _ => id) fun _ _ h => ⟨h, trivial⟩
  exact h.mono (fun _ _ => id) fun _ _ => And.left

/-- A program that raises nothing transient is tried once. -/
theorem sim_withRetry_once {err : P → Exc → Prop} {φ : P}
    (ht : ∀ φ e, err φ e → isTransient e = false) (hfn : Sim ex step ok err fn φ) :
    Sim ex step ok err (withRetry env fn) φ := by
  unfold withRetry retryLoop
  apply sim_tryCatch.mpr
  refine hfn.mono (fun _ _ => id) fun φ e he => ?_
  rw [if_pos (ht φ e he)]
  exact he

end Sim

section Ends
variable {χ σ : Type} {ex : Exec Ans Exc χ σ} {G : χ → Prop} {attempts : Nat} {backoff : Rat}

/-- With `I` before every attempt, of the attempts left and the calls made, the loop ends as `post`
says where each attempt does, or is followed by another one. -/
theorem ends_retryLoop (I : Nat → List (Event Op χ σ) → σ → Prop) {post : Post Op Exc α χ σ}
    (hsleep : ∀ t c s, ex (.sleep t) c s = (.ok (), s))
    (hfn : ∀ m tr s, I (m + 1) tr s → fn.Ends ex G s fun tr' r s' =>
      match r with
      | .ok a => post (tr ++ tr') (.ok a) s'
      | .error e =>
        if isTransient e = false then post (tr ++ tr') (.error e) s'
        else if m = 0 then post (tr ++ tr') (.error (.qdrantConnection attempts (some e))) s'
        else ∀ t c, I m (tr ++ tr' ++ [⟨.sleep t, c, s'⟩]) s')
    {remaining : Nat} (hpos : remaining ≠ 0) {s : σ} (hI : I remaining [] s) (delay : Rat)
    (exc : Option Exc) :
    (retryLoop env attempts backoff fn remaining delay exc).Ends ex G s post := by
  have hloop (n : Nat) (hpos : n ≠ 0) {tr : List (Event Op χ σ)} {s : σ} (hI : I n tr s)
      (delay : Rat) (exc : Option Exc) :
      (retryLoop env attempts backoff fn n delay exc).Ends ex G s fun tr' => post (tr ++ tr') := by
    induction n generalizing tr s delay exc with
    | zero => exact absurd rfl hpos
    | succ m ih =>
      rw [retryLoop]
      apply ends_tryCatch.mpr
      refine (hfn m tr s hI).mono fun tr' r s' hr => ?_
      cases r with
      | ok a => exact hr
      | error e =>
        rw [handle_error]
        dsimp only at hr
        split at hr
        · next ht =>
          rw [if_pos ht]
          apply ends_throw.mpr
          rwa [List.append_nil]
        · next ht =>
          rw [if_neg ht]
          split at hr
          · next hm =>
            rw [if_pos hm]
            apply ends_throw.mpr
            rwa [List.append_nil]
          · next hm =>
            rw [if_neg hm]
            apply ends_bind.mpr
            apply ends_perform.mpr
            intro c _
            rw [hsleep, next_ok]
            have hrest := ih hm (hr (delay * (1 + env.uniform (attempts - (m + 1)))) c)
              (delay * backoff) (some e)
            refine hrest.mono fun tr'' r s h => ?_
            simpa only [List.append_assoc] using h
  exact hloop remaining hpos hI delay exc

end Ends

/-! ## Calls that are served -/

theorem exec_none {i : Nat} {o : Op} {a : Ans o} {s s' : World}
    (h : serve env i o s = .ok (a, s')) : exec env i o .none s = (.ok a, s') := by
  unfold exec
  rw [h]
  split
  · rfl
  · split <;> rfl

theorem returns_serve {i : Nat} {o : Op} {a : Ans o} {s s' : World}
    (h : serve env i o s = .ok (a, s')) : Returns (exec env i) .none (call o) s a s' :=
  returns_perform (exec_none h)

/-- An attempt that returns is the last. -/
theorem returns_withRetry {i : Nat} {s s' : World} {a : α}
    (h : Returns (exec env i) .none fn s a s') :
    Returns (exec env i) .none (withRetry env fn) s a s' := h.tryCatch

/-! ## Which calls -/

/-- A retried program makes the calls of an attempt, and sleeps. -/
theorem only_withRetry {S : Op → Prop} (hsleep : ∀ t, S (.sleep t)) (hfn : fn.Only S) :
    (withRetry env fn).Only S := by
  have hloop (n : Nat) (delay : Rat) (last : Option Exc) :
      (retryLoop env 3 2 fn n delay last).Only S := by
    induction n generalizing delay last with
    | zero => trivial
    | succ n ih =>
      rw [retryLoop]
      apply hfn.tryCatch
      intro exc
      split
      · trivial
      · split
        · trivial
        · apply Only.bind (only_perform (hsleep _))
          intro _
          exact ih _ _
  exact hloop 3 _ _

theorem yields_withRetry {P : α → Prop} (hfn : fn.Yields P) : (withRetry env fn).Yields P := by
  have hloop (n : Nat) (delay : Rat) (last : Option Exc) :
      (retryLoop env 3 2 fn n delay last).Yields P := by
    induction n generalizing delay last with
    | zero => trivial
    | succ n ih =>
      rw [retryLoop]
      apply hfn.tryCatch
      intro exc
      split
      · trivial
      · split
        · trivial
        · exact yields_bind fun _ => ih _ _
  exact hloop 3 _ _

theorem only_acquireLock {S : Op → Prop} {k : LockKey} {timeout : Exc} (polls : Nat)
    (hlock : S (.tryAdvisoryLock k)) (hsleep : ∀ t, S (.sleep t)) :
    (acquireLock k timeout polls).Only S := by
  induction polls with
  | zero =>
    apply (only_perform hlock).bind
    exact fun got => Only.ite (fun _ => trivial) fun _ => trivial
  | succ polls ih =>
    apply (only_perform hlock).bind
    refine fun got => Only.ite (fun _ => trivial) fun _ => ?_
    exact (only_perform (hsleep _)).bind fun _ => ih

theorem only_uploadLock {S : Op → Prop} {T B d : String} {polls : Nat} {body : Program α}
    (hlock : ∀ k, S (.tryAdvisoryLock k)) (hsleep : ∀ t, S (.sleep t))
    (hunlock : ∀ k, S (.advisoryUnlock k)) (hbody : body.Only S) :
    (uploadLock env T B d polls body).Only S := by
  apply (only_ofExcept _).bind
  intro k
  apply (only_acquireLock polls (hlock k) hsleep).bind
  intro _
  exact hbody.tryFinally (only_perform (hunlock k))

theorem only_onQdrantError {S : Op → Prop} {msg : String} {details : List (String × PyValue)}
    (e : Exc) : (onQdrantError msg details e : Program α).Only S :=
  Only.ite (fun _ => trivial) fun _ => trivial

theorem only_deleteByDocId {S : Op → Prop} {T B d : String} (hsleep : ∀ t, S (.sleep t))
    (hexists : S (.collectionExists (joinName T B)))
    (hcount : S (.count (joinName T B) (docFilter d)))
    (hdelete : S (.deletePoints (joinName T B) (docFilter d))) :
    (deleteByDocId env T B d).Only S := by
  apply only_withRetry hsleep
  apply only_ofExcept_bind
  intro name hname
  obtain rfl := (collectionName_eq_ok.mp hname).2.2
  apply (only_perform hexists).bind
  refine fun exists_ => Only.ite (fun _ => ?_) fun _ => trivial
  apply (only_perform hcount).bind
  intro count_before
  exact (only_perform hdelete).bind fun _ => trivial

end QdrantRag
