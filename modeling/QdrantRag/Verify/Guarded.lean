import QdrantRag.Effect.Raises
import QdrantRag.Verify.Creation
import QdrantRag.Verify.Faults

/-! # What happens under a lock

The body of a request makes no call for a lock, and raises no timeout of its own: of what it raises
itself, and of what the calls raise that it makes. -/

namespace QdrantRag
open Keyed Effect Effect.Prog

/-- `isinstance(exc, ConcurrentUploadError)` -/
def Exc.isConcurrent : Exc → Bool
  | .upload .concurrentUpload .. => true
  | _ => false

theorem not_concurrent_of_foreign {e : Exc} (h : e.foreign = true) : e.isConcurrent = false := by
  cases e with
  | upload => cases h
  | _ => rfl

/-- Exceptions `P` that leave nothing out but timeouts, where calls fail with exceptions of `F`. -/
structure Spares (F P : Exc → Prop) : Prop where
  raised : ∀ e, F e → P e
  own : ∀ e, e.isConcurrent = false → P e

theorem Spares.any : Spares (fun _ => True) fun _ => True :=
  ⟨fun _ _ => trivial, fun _ _ => trivial⟩

theorem Spares.foreign : Spares (fun e => e.foreign = true) fun e => e.isConcurrent = false :=
  ⟨fun _ => not_concurrent_of_foreign, fun _ => id⟩

/-- A program for a body under a lock: it makes no call for a lock, and raises only exceptions of
`P`. -/
abbrev Guarded (F P : Exc → Prop) {α : Type} (p : Program α) : Prop :=
  p.Raises (fun o => o.isLock = false) F P

section Guarded
variable {F P : Exc → Prop} (hs : Spares F P) {env : Env} {α : Type} {T B d n : String}
include hs

theorem guarded_call {o : Op} (ho : o.isLock = false) : Guarded F P (call o) :=
  raises_perform ho hs.raised

theorem guarded_throw {e : Exc} (h : e.isConcurrent = false) :
    Guarded F P (.throw e : Program α) := raises_throw (hs.own e h)

theorem guarded_collectionName : Guarded F P (ofExcept (collectionName T B)) := by
  apply raises_ofExcept
  intro e he
  obtain ⟨_, _, rfl⟩ := collectionName_eq_error he
  exact hs.own _ rfl

theorem guarded_withRetry {fn : Program α} (h : Guarded F P fn) :
    Guarded F P (withRetry env fn) := by
  have hloop (n : Nat) (delay : Rat) (last : Option Exc) :
      Guarded F P (retryLoop env 3 2 fn n delay last) := by
    induction n generalizing delay last with
    | zero => exact guarded_throw hs rfl
    | succ n ih =>
      rw [retryLoop]
      apply h.tryCatch
      intro exc hexc
      apply Raises.ite (raises_throw hexc)
      apply Raises.ite (guarded_throw hs rfl)
      apply Raises.bind (guarded_call hs rfl)
      exact fun _ => ih _ _
  exact hloop 3 _ _

theorem guarded_onQdrantError {msg : String} {details : List (String × PyValue)} {e : Exc}
    (h : P e) : Guarded F P (onQdrantError msg details e : Program α) :=
  Raises.ite (guarded_throw hs rfl) (raises_throw h)

theorem guarded_checkedName : Guarded F P (checkedName n) := by
  apply Raises.bind
  · apply Raises.bind (guarded_call hs rfl)
    intro actual
    apply raises_ofExcept
    intro e he
    obtain ⟨_, rfl⟩ := schemaDiff_eq_error he
    exact hs.own _ rfl
  · exact fun diff => Raises.ite raises_return (guarded_throw hs rfl)

theorem guarded_createCollectionForBot : Guarded F P (createCollectionForBot env T B) := by
  apply guarded_withRetry hs
  apply (guarded_collectionName hs).bind
  intro name
  apply (guarded_call hs rfl).bind
  intro _
  apply Raises.bind (Raises.each fun _ => guarded_call hs rfl)
  exact fun _ => raises_return

theorem guarded_getOrCreateCollection : Guarded F P (getOrCreateCollection env T B) := by
  apply guarded_withRetry hs
  apply (guarded_collectionName hs).bind
  intro name
  apply (guarded_call hs rfl).bind
  intro exists_
  apply Raises.ite (guarded_checkedName hs)
  apply (guarded_createCollectionForBot hs).tryCatch
  intro exc hexc
  unfold onUnexpectedResponse
  split
  · exact Raises.ite (guarded_checkedName hs) (guarded_throw hs rfl)
  · exact raises_throw hexc

theorem guarded_deleteByDocId : Guarded F P (deleteByDocId env T B d) := by
  apply guarded_withRetry hs
  apply (guarded_collectionName hs).bind
  intro name
  apply (guarded_call hs rfl).bind
  intro exists_
  refine Raises.ite ?_ raises_return
  apply (guarded_call hs rfl).bind
  intro count_before
  apply (guarded_call hs rfl).bind
  exact fun _ => raises_return

omit hs in
theorem guarded_onIntegrityError {fallback : Program α} (hf : Guarded F P fallback) {e : Exc}
    (h : P e) : Guarded F P (onIntegrityError fallback e) := by
  unfold onIntegrityError
  split
  · exact hf
  · exact raises_throw h

theorem guarded_refresh {x : Upload} {row : Document} : Guarded F P (refresh x row) := by
  apply (guarded_call hs rfl).bind
  intro _
  apply (guarded_collectionName hs).bind
  exact fun _ => raises_return

theorem guarded_writeDocument {x : Upload} {bot : Bot} {is_replace : Bool} {points : List Point} :
    Guarded F P (writeDocument env x bot is_replace n points) := by
  have hwrite (is_replace : Bool) : Guarded F P (do
      (call (.upsert n points)).tryCatch fun exc =>
        .throw (.upload .qdrantWrite "upsert failed: " (some exc)
          [("doc_id", .str x.doc_id), ("chunks", .int points.length)] none)
      call (.documentUpdateOrCreate x.doc_id (uploadDefaults env x bot points.length) x.now)
      return ⟨x.doc_id, points.length, x.body.items.length, n,
        if is_replace then .replaced else .created⟩ : Program UploadResult) := by
    apply Raises.bind ((guarded_call hs rfl).tryCatch fun _ _ => guarded_throw hs rfl)
    intro _
    apply (guarded_call hs rfl).bind
    exact fun _ => raises_return
  cases is_replace with
  | false => exact hwrite false
  | true =>
    apply Raises.bind ((guarded_deleteByDocId hs).tryCatch fun _ => guarded_onQdrantError hs)
    exact fun _ => hwrite true

theorem guarded_indexDocument {x : Upload} {bot : Bot} {is_replace : Bool} :
    Guarded F P (indexDocument env x bot is_replace) := by
  apply Raises.bind ((guarded_getOrCreateCollection hs).tryCatch fun _ => guarded_onQdrantError hs)
  intro name
  apply (guarded_call hs rfl).bind
  intro _
  dsimp only
  apply Raises.ite (guarded_throw hs rfl)
  apply Raises.ite (guarded_throw hs rfl)
  have hembed (texts : List String) : Guarded F P (embedPassages texts) := by
    refine Raises.bind (raises_ofExcept fun e he => ?_) fun _ => guarded_call hs rfl
    obtain ⟨_, rfl⟩ := checkTexts_eq_error he
    exact hs.own _ rfl
  apply Raises.bind ((hembed _).tryCatch fun _ _ => guarded_throw hs rfl)
  exact fun _ => guarded_writeDocument hs

theorem guarded_uploadLocked {x : Upload} : Guarded F P (UploadPipeline.locked env x) := by
  have htenant : Guarded F P (getOrCreateTenant x.tenant_id) :=
    (guarded_call hs rfl).tryCatch fun _ => guarded_onIntegrityError (guarded_call hs rfl)
  have hbot (tenant : Tenant) : Guarded F P (getOrCreateBot tenant x.bot_id) :=
    (guarded_call hs rfl).tryCatch fun _ => guarded_onIntegrityError (guarded_call hs rfl)
  apply htenant.bind
  intro tenant
  apply (hbot tenant).bind
  intro bot
  apply (guarded_call hs rfl).bind
  intro existing
  have hcheck : Guarded F P (checkOwner x existing) := by
    unfold checkOwner
    split
    · exact raises_return
    · exact Raises.ite (guarded_throw hs rfl) raises_return
  apply hcheck.bind
  intro _
  dsimp only
  split
  · exact guarded_refresh hs
  · apply (guarded_call hs rfl).bind
    intro content_match
    split
    · exact guarded_refresh hs
    · exact guarded_indexDocument hs

theorem guarded_deleteLocked {x : Delete} : Guarded F P (DeletePipeline.locked env x) := by
  apply (guarded_call hs rfl).bind
  intro found
  have hfound : Guarded F P (ofExcept (ownDocument x found)) := by
    apply raises_ofExcept
    intro e he
    unfold ownDocument ownDocument.notFound at he
    split at he
    · split at he <;> cases he
      exact hs.own _ rfl
    · cases he
      exact hs.own _ rfl
  apply hfound.bind
  intro existing
  apply Raises.bind ((guarded_deleteByDocId hs).tryCatch fun _ => guarded_onQdrantError hs)
  intro chunks_deleted
  apply (guarded_call hs rfl).bind
  exact fun _ => raises_return

end Guarded

end QdrantRag
