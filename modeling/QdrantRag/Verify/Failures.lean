import QdrantRag.Verify.Attempts
import QdrantRag.Verify.Deletions
import QdrantRag.Verify.Disclosure
import QdrantRag.Verify.Faults
import QdrantRag.Verify.Removal

/-! # Which failures of Qdrant are reported as such

A writing request that a call to Qdrant ends is answered with what becomes of the exception on its
way: through the retries, the one recovery branch and the `except` clauses around the calls.
`Blames` keeps the exception of the last call beside the one that is raised. -/

namespace QdrantRag
open Keyed Effect Effect.Prog

variable {env : Env} {i : Nat} {n T B d : String} {s : World} {α β : Type}

/-! ## The call that ends a request -/

def Op.isQdrant : Op → Bool
  | .collectionExists _ | .createCollection .. | .createPayloadIndex .. | .getCollection _
  | .count .. | .deletePoints .. | .upsert .. | .queryPoints .. => true
  | _ => false

/-- The last call, apart from the one that gives the lock back. -/
def lastCall (env : Env) (i : Nat) (tr : List Call) : Option Call :=
  (tr.filter fun ev => !(ev.op.unlocks && Event.ok (exec env i) ev)).getLast?

/-- A call to Qdrant raises `e`: it fails with it, or it shows a schema that is not the expected
one. -/
inductive Call.Raises (env : Env) (i : Nat) : Call → Exc → Prop
  | fails {ev : Call} {e : Exc} (ho : ev.op.isQdrant = true)
      (h : (exec env i ev.op ev.choice ev.pre).1 = .error e) : Raises env i ev e
  | mismatch {name : String} {c : Fault} {s : World} {params : CollectionParams}
      {diff : List (String × String)} (h : (exec env i (.getCollection name) c s).1 = .ok params)
      (hdiff : schemaDiff params = .ok diff) (hne : diff ≠ []) :
      Raises env i ⟨.getCollection name, c, s⟩ (.schemaMismatch name diff)

/-- A call to Qdrant ended the run: it was the last one, and raised `e`. -/
def EndedBy (env : Env) (i : Nat) (tr : List Call) (ev : Call) (e : Exc) : Prop :=
  lastCall env i tr = some ev ∧ Call.Raises env i ev e

/-- The exceptions that an `except` clause or the retries turn into a `QdrantError`, by the call
that raises them. -/
inductive Covered : Op → Exc → Prop
  | transient {o : Op} {e : Exc} (h : isTransient e = true) : Covered o e
  | mismatch {o : Op} {name : String} {diff : List (String × String)} :
      Covered o (.schemaMismatch name diff)
  | upsert {name : String} {points : List Point} {e : Exc} : Covered (.upsert name points) e
  | create {name : String} {params : CollectionParams} {status_code : Nat} {msg : String}
      (h : status_code ≠ 409) :
      Covered (.createCollection name params) (.unexpectedResponse status_code msg)
  | index {name field_name : String} {field_schema : PayloadSchema} {status_code : Nat}
      {msg : String} (h : status_code ≠ 409) :
      Covered (.createPayloadIndex name field_name field_schema)
        (.unexpectedResponse status_code msg)

theorem lastCall_append (tr tr' : List Call) :
    lastCall env i (tr ++ tr') = (lastCall env i tr').or (lastCall env i tr) := by
  unfold lastCall
  rw [List.filter_append, List.getLast?_append]

theorem lastCall_single {ev : Call} (h : ev.op.unlocks = false) :
    lastCall env i [ev] = some ev := by
  unfold lastCall
  rw [List.filter_cons, h]
  rfl

/-! ## Blame -/

/-- The run did not end by a call to Qdrant. -/
def Calm (env : Env) (i : Nat) (tr : List Call) : Prop := ∀ ev e, ¬ EndedBy env i tr ev e

/-- Where a call to Qdrant ended the run with `e`, what the run raises stands in the relation `R` to
it. -/
def Blames (env : Env) (i : Nat) (R : Op → Exc → Exc → Prop) : Post Op Exc α Fault World
  | tr, .ok _, _ => Calm env i tr
  | tr, .error e', _ => ∀ ev e, EndedBy env i tr ev e → R ev.op e e'

section Rules
variable {R R' : Op → Exc → Exc → Prop}

theorem calm_nil : Calm env i [] := fun _ _ h => nomatch h.1

theorem endedBy_append {tr tr' : List Call} {ev : Call} {e : Exc} (hcalm : Calm env i tr)
    (h : EndedBy env i (tr ++ tr') ev e) : EndedBy env i tr' ev e := by
  obtain ⟨hlast, hraises⟩ := h
  rw [lastCall_append, Option.or_eq_some_iff] at hlast
  rcases hlast with hlast | ⟨-, hlast⟩
  · exact ⟨hlast, hraises⟩
  · exact absurd ⟨hlast, hraises⟩ (hcalm ev e)

theorem Calm.append {tr tr' : List Call} (h : Calm env i tr) (h' : Calm env i tr') :
    Calm env i (tr ++ tr') := fun ev e he => h' ev e (endedBy_append h he)

theorem Calm.blames {tr : List Call} (h : Calm env i tr) (r : Except Exc α) :
    Blames env i R tr r s := by
  cases r with
  | ok a => exact h
  | error e' => exact fun ev e he => absurd he (h ev e)

theorem Blames.append {tr tr' : List Call} {r : Except Exc α} (h : Calm env i tr)
    (h' : Blames env i R tr' r s) : Blames env i R (tr ++ tr') r s := by
  cases r with
  | ok a => exact h.append h'
  | error e' => exact fun ev e he => h' ev e (endedBy_append h he)

theorem Blames.of_last {tr tr' : List Call} {r : Except Exc α} {ev : Call}
    (h : Blames env i R tr' r s) (hlast : lastCall env i tr' = some ev) :
    Blames env i R (tr ++ tr') r s := by
  have hended (ev' : Call) (e : Exc) (he : EndedBy env i (tr ++ tr') ev' e) :
      EndedBy env i tr' ev' e := by
    obtain ⟨happend, hraises⟩ := he
    rw [lastCall_append, hlast, Option.some_or] at happend
    exact ⟨hlast.trans happend, hraises⟩
  cases r with
  | ok a => exact fun ev' e he => h ev' e (hended ev' e he)
  | error e' => exact fun ev' e he => h ev' e (hended ev' e he)

/-- The rule of a program whose every part is to blame. -/
theorem blames_bind {p : Program β} {f : β → Program α}
    (hp : p.Ends (exec env i) Fault.Foreign s (Blames env i R))
    (hf : ∀ b s, (f b).Ends (exec env i) Fault.Foreign s (Blames env i R)) :
    (p >>= f).Ends (exec env i) Fault.Foreign s (Blames env i R) := by
  apply ends_bind.mpr
  refine hp.mono fun tr r s' hr => ?_
  cases r with
  | error e => exact hr
  | ok b => exact (hf b s').mono fun tr' r s'' hr' => hr'.append hr

theorem blames_return {a : α} :
    (Pure.pure a : Program α).Ends (exec env i) Fault.Foreign s (Blames env i R) := calm_nil

theorem blames_throw {e : Exc} :
    (Prog.throw e : Program α).Ends (exec env i) Fault.Foreign s (Blames env i R) :=
  calm_nil.blames (.error e)

theorem endedBy_single {ev ev' : Call} {e : Exc} (h : EndedBy env i [ev'] ev e) :
    ev = ev' ∧ Call.Raises env i ev' e := by
  obtain ⟨hlast, hraises⟩ := h
  obtain rfl : ev = ev' :=
    List.mem_singleton.mp (List.mem_of_mem_filter (List.mem_of_getLast? hlast))
  exact ⟨rfl, hraises⟩

theorem not_raises_of_other {ev : Call} {e : Exc} (ho : ev.op.isQdrant = false) :
    ¬ Call.Raises env i ev e := by
  intro hraises
  cases hraises with
  | fails ho' =>
    rw [ho] at ho'
    cases ho'
  | mismatch => cases ho

/-- Calls elsewhere are not to blame. -/
theorem blames_of_only {p : Program α} (h : p.Only fun o => o.isQdrant = false) :
    p.Ends (exec env i) Fault.Foreign s (Blames env i R) := by
  induction p generalizing s with
  | pure a => exact calm_nil
  | throw e => exact calm_nil.blames (.error e)
  | call o k ih =>
    intro c _
    refine (ih _ (h.2 _)).mono fun tr r s' hr => ?_
    have hcalm : Calm env i [⟨o, c, s⟩] := fun ev e he =>
      not_raises_of_other h.1 (endedBy_single he).2
    exact hr.append hcalm

theorem blames_other {o : Op} (ho : o.isQdrant = false) :
    (call o).Ends (exec env i) Fault.Foreign s (Blames env i R) :=
  blames_of_only (only_perform ho)

/-- A call to Qdrant raises what it fails with. -/
theorem blames_call {o : Op} (ho : ∀ name, o ≠ .getCollection name)
    (hR : ∀ e, e.foreign = true → R o e e) :
    (call o).Ends (exec env i) Fault.Foreign s (Blames env i R) := by
  apply ends_perform.mpr
  intro c hc
  have hfails {ev : Call} {e : Exc} (he : EndedBy env i [⟨o, c, s⟩] ev e) :
      ev.op = o ∧ (exec env i o c s).1 = .error e := by
    obtain ⟨rfl, hraises⟩ := endedBy_single he
    cases hraises with
    | fails _ h => exact ⟨rfl, h⟩
    | mismatch => exact absurd rfl (ho _)
  cases hr : (exec env i o c s).1 with
  | ok a =>
    intro ev e he
    exact absurd (hr.symm.trans (hfails he).2) nofun
  | error e' =>
    intro ev e he
    obtain ⟨hop, herr⟩ := hfails he
    cases hr.symm.trans herr
    rw [hop]
    exact hR _ (foreign_of_exec hc hr)

theorem calm_concat {tr : List Call} {ev : Call} (ho : ev.op.isQdrant = false)
    (hu : ev.op.unlocks = false) : Calm env i (tr ++ [ev]) := by
  rintro ev' e ⟨hlast, hraises⟩
  rw [lastCall_append, lastCall_single hu] at hlast
  cases hlast
  exact not_raises_of_other ho hraises

/-- The rule of a retried program. -/
theorem blames_withRetry {fn : Program α}
    (hfn : ∀ s, fn.Ends (exec env i) Fault.Foreign s (Blames env i R))
    (honce : ∀ o e e', R o e e' → isTransient e' = false → R' o e e')
    (hlast : ∀ o e e', R o e e' → isTransient e' = true →
      R' o e (.qdrantConnection 3 (some e'))) :
    (withRetry env fn).Ends (exec env i) Fault.Foreign s (Blames env i R') := by
  apply ends_retryLoop (fun _ tr _ => Calm env i tr) (fun _ _ _ => exec_sleep) _ (by omega) calm_nil
  intro m tr t hcalm
  refine (hfn t).mono fun tr' r t' hr => ?_
  cases r with
  | ok a => exact hcalm.append hr
  | error e' =>
    dsimp only
    split
    · next ht => exact fun ev e he => honce _ _ _ (hr ev e (endedBy_append hcalm he)) ht
    · next ht =>
      split
      · exact fun ev e he => hlast _ _ _ (hr ev e (endedBy_append hcalm he)) (by simpa using ht)
      · exact fun sleep c => calm_concat rfl rfl

/-- The rule of a loop. -/
theorem blames_each {f : β → Program Unit} {l : List β}
    (hf : ∀ b s, (f b).Ends (exec env i) Fault.Foreign s (Blames env i R)) :
    (each f l).Ends (exec env i) Fault.Foreign s (Blames env i R) := by
  apply ends_each fun tr _ => Calm env i tr
  · intro b _ tr s hcalm
    refine (hf b s).mono fun tr' r s' hr => ?_
    cases r with
    | ok u => exact hcalm.append hr
    | error e => exact Blames.append hcalm (r := .error e) hr
  · exact fun tr s hcalm => hcalm
  · exact calm_nil

/-- The rule of an `except` clause that makes no calls. -/
theorem blames_tryCatch {p : Program α} {h : Exc → Program α} {g : Exc → Exc}
    (hp : p.Ends (exec env i) Fault.Foreign s (Blames env i R)) (hh : ∀ e, h e = .throw (g e))
    (hR : ∀ o e e', R o e e' → R' o e (g e')) :
    (p.tryCatch h).Ends (exec env i) Fault.Foreign s (Blames env i R') := by
  apply ends_tryCatch.mpr
  refine hp.mono fun tr r s' hr => ?_
  cases r with
  | ok a => exact hr
  | error e' =>
    rw [handle_error, hh, ends_throw, List.append_nil]
    exact fun ev e he => hR _ _ _ (hr ev e he)

end Rules

/-! ## Exceptions on their way -/

/-- The call creates a collection or an index. -/
def Op.provisions : Op → Bool
  | .createCollection .. | .createPayloadIndex .. => true
  | _ => false

def Op.upserts : Op → Bool
  | .upsert .. => true
  | _ => false

/-- `isinstance(exc, UploadError)` -/
def Exc.isUpload : Exc → Bool
  | .upload .. => true
  | _ => false

theorem Covered.foreign {o : Op} {e : Exc} (h : Covered o e) (hf : e.foreign = true) :
    isTransient e = true ∨ o.upserts = true ∨
      (o.provisions = true ∧ ∃ status_code msg, e = .unexpectedResponse status_code msg ∧
        status_code ≠ 409) := by
  cases h with
  | transient h => exact .inl h
  | mismatch => cases hf
  | upsert => exact .inr (.inl rfl)
  | create h | index h => exact .inr (.inr ⟨rfl, _, _, rfl, h⟩)

theorem isQdrantError_of_foreign {e : Exc} (hf : e.foreign = true) : e.isQdrantError = false := by
  cases e <;> first | rfl | cases hf

theorem isUpload_of_foreign {e : Exc} (hf : e.foreign = true) : e.isUpload = false := by
  cases e <;> first | rfl | cases hf

/-- What an attempt raises where a call raised `e`: `e` itself if it is tried again, and else a
`QdrantError` exactly where that is covered. -/
structure Surfaces (o : Op) (e e' : Exc) : Prop where
  again : isTransient e' = true → e' = e
  leaves : isTransient e' = false → (e'.isQdrantError = true ↔ Covered o e)
  not_upload : e'.isUpload = false

/-- What leaves a function of the client layer where a call raised `e`. -/
structure Leaves (o : Op) (e e' : Exc) : Prop where
  covered : e'.isQdrantError = true ↔ Covered o e
  not_upload : e'.isUpload = false

/-- The exception of a call that nothing around it expects. -/
theorem Surfaces.raised {o : Op} {e : Exc} (hf : e.foreign = true) (hu : o.upserts = false)
    (hp : o.provisions = true → ∀ status_code msg, e ≠ .unexpectedResponse status_code msg) :
    Surfaces o e e := by
  refine ⟨fun _ => rfl, fun ht => ?_, isUpload_of_foreign hf⟩
  rw [isQdrantError_of_foreign hf]
  refine ⟨nofun, fun hc => ?_⟩
  rcases hc.foreign hf with h | h | ⟨h, status_code, msg, he, -⟩
  · exact ht.symm.trans h
  · exact absurd (h.symm.trans hu) nofun
  · exact absurd he (hp h _ _)

/-- The rule of retried attempts. -/
theorem leaves_withRetry {fn : Program α}
    (hfn : ∀ s, fn.Ends (exec env i) Fault.Foreign s (Blames env i Surfaces)) :
    (withRetry env fn).Ends (exec env i) Fault.Foreign s (Blames env i Leaves) := by
  refine blames_withRetry hfn (fun o e e' h ht => ⟨h.leaves ht, h.not_upload⟩) fun o e e' h ht => ?_
  refine ⟨⟨fun _ => ?_, fun _ => rfl⟩, rfl⟩
  rw [h.again ht] at ht
  exact .transient ht

/-! ## The client layer -/

/-- The run ended by a look at the collection. -/
theorem blames_checkedName :
    (checkedName n).Ends (exec env i) Fault.Foreign s fun tr r s' =>
      (∃ ev, lastCall env i tr = some ev) ∧ Blames env i Surfaces tr r s' := by
  unfold checkedName compareSchema
  apply ends_bind.mpr
  apply ends_bind.mpr
  apply ends_perform.mpr
  intro c hc
  have hlast : lastCall env i [⟨.getCollection n, c, s⟩] = some ⟨.getCollection n, c, s⟩ :=
    lastCall_single rfl
  cases hr : (exec env i (.getCollection n) c s).1 with
  | error e' =>
    refine ⟨⟨_, hlast⟩, fun ev e he => ?_⟩
    obtain ⟨rfl, hraises⟩ := endedBy_single he
    cases hraises with
    | fails _ h =>
      cases hr.symm.trans h
      exact Surfaces.raised (foreign_of_exec hc hr) rfl nofun
    | mismatch h => exact absurd (hr.symm.trans h) nofun
  | ok actual =>
    rw [next_ok, ends_ofExcept]
    have hmismatch {ev : Call} {e : Exc} (he : EndedBy env i [⟨.getCollection n, c, s⟩] ev e) :
        ev.op = .getCollection n ∧
          ∃ diff, schemaDiff actual = .ok diff ∧ diff ≠ [] ∧ e = .schemaMismatch n diff := by
      obtain ⟨rfl, hraises⟩ := endedBy_single he
      cases hraises with
      | fails _ h => exact absurd (hr.symm.trans h) nofun
      | mismatch h hdiff hne =>
        cases hr.symm.trans h
        exact ⟨rfl, _, hdiff, hne, rfl⟩
    cases hdiff : schemaDiff actual with
    | error e' =>
      refine ⟨⟨_, hlast⟩, fun ev e he => ?_⟩
      obtain ⟨-, diff, h, -⟩ := hmismatch he
      exact absurd (hdiff.symm.trans h) nofun
    | ok diff =>
      rw [next_ok]
      split
      · next hnil =>
        refine ⟨⟨_, hlast⟩, fun ev e he => ?_⟩
        obtain ⟨-, diff', h, hne, -⟩ := hmismatch he
        cases hdiff.symm.trans h
        exact hne hnil
      · refine ⟨⟨_, hlast⟩, fun ev e he => ?_⟩
        obtain ⟨-, diff', h, -, rfl⟩ := hmismatch he
        cases hdiff.symm.trans h
        exact ⟨nofun, fun _ => ⟨fun _ => .mismatch, fun _ => rfl⟩, rfl⟩

/-- What an attempt to create a collection raises is what a call to create it, or one of its
indexes, failed with. -/
def Created (o : Op) (e e' : Exc) : Prop :=
  o.provisions = true ∧ e.foreign = true ∧ e' = e

/-- What is left of it behind the retries. -/
def Retried (o : Op) (e e' : Exc) : Prop :=
  o.provisions = true ∧ e.foreign = true ∧
    ((isTransient e = false ∧ e' = e) ∨
      (isTransient e = true ∧ e' = .qdrantConnection 3 (some e)))

theorem blames_createCollectionForBot :
    (createCollectionForBot env T B).Ends (exec env i) Fault.Foreign s (Blames env i Retried) := by
  unfold createCollectionForBot
  apply blames_withRetry (R := Created)
  · intro s
    apply blames_bind (ends_ofExcept.mpr (calm_nil.blames _))
    intro name s
    apply blames_bind
    · exact blames_call (fun _ => nofun) fun e he => ⟨rfl, he, rfl⟩
    · intro _ s
      apply blames_bind
      · apply blames_each
        exact fun ix s => blames_call (fun _ => nofun) fun e he => ⟨rfl, he, rfl⟩
      · exact fun _ _ => blames_return
  · rintro o e e' ⟨ho, hf, rfl⟩ ht
    exact ⟨ho, hf, .inl ⟨ht, rfl⟩⟩
  · rintro o e e' ⟨ho, hf, rfl⟩ ht
    exact ⟨ho, hf, .inr ⟨ht, rfl⟩⟩

theorem not_upserts_of_provisions {o : Op} (h : o.provisions = true) : o.upserts = false := by
  cases o with
  | upsert => cases h
  | _ => rfl

/-- A failure to create a collection is covered where it is transient or an answer of the server. -/
theorem covered_of_provisions {o : Op} {e : Exc} (h : o.provisions = true) (hf : e.foreign = true) :
    Covered o e ↔ isTransient e = true ∨
      ∃ status_code msg, e = .unexpectedResponse status_code msg ∧ status_code ≠ 409 := by
  constructor
  · intro hc
    rcases hc.foreign hf with ht | hu | ⟨-, hstatus⟩
    · exact .inl ht
    · exact absurd (hu.symm.trans (not_upserts_of_provisions h)) nofun
    · exact .inr hstatus
  · rintro (ht | ⟨status_code, msg, rfl, hne⟩)
    · exact .transient ht
    · cases o with
      | createCollection => exact .create hne
      | createPayloadIndex => exact .index hne
      | _ => cases h

/-- What leaves the inner retries, apart from the answers of the server. -/
theorem Retried.surfaces {o : Op} {e e' : Exc} (h : Retried o e e')
    (hne : ∀ status_code msg, e' ≠ .unexpectedResponse status_code msg) : Surfaces o e e' := by
  obtain ⟨ho, hf, ⟨-, rfl⟩ | ⟨ht, rfl⟩⟩ := h
  · exact Surfaces.raised hf (not_upserts_of_provisions ho) fun _ => hne
  · exact ⟨nofun, fun _ => ⟨fun _ => .transient ht, fun _ => rfl⟩, rfl⟩

/-- The recovery branch: a conflict is followed by a look at the collection, any other answer of the
server is wrapped. -/
theorem blames_onUnexpectedResponse {tr : List Call} {e' : Exc}
    (h : Blames env i Retried tr (.error e' : Except Exc String) s) :
    (onUnexpectedResponse n e').Ends (exec env i) Fault.Foreign s fun tr' =>
      Blames env i Surfaces (tr ++ tr') := by
  by_cases hresponse : ∃ status_code msg, e' = .unexpectedResponse status_code msg
  · obtain ⟨status_code, msg, rfl⟩ := hresponse
    simp only [onUnexpectedResponse]
    split
    · refine blames_checkedName.mono fun tr' r s' h => ?_
      obtain ⟨ev, hlast⟩ := h.1
      exact h.2.of_last hlast
    · next hne =>
      rw [ends_throw, List.append_nil]
      intro ev e he
      obtain ⟨ho, hf, ⟨-, rfl⟩ | ⟨-, hconnection⟩⟩ := h ev e he
      · refine ⟨fun ht => (by cases ht), fun _ => ⟨fun _ => ?_, fun _ => rfl⟩, rfl⟩
        exact (covered_of_provisions ho hf).mpr (.inr ⟨_, _, rfl, hne⟩)
      · cases hconnection
  · have hthrow : onUnexpectedResponse n e' = .throw e' := by
      cases e' with
      | unexpectedResponse status_code msg => exact absurd ⟨_, _, rfl⟩ hresponse
      | _ => rfl
    rw [hthrow, ends_throw, List.append_nil]
    intro ev e he
    exact (h ev e he).surfaces fun status_code msg hresp => hresponse ⟨_, _, hresp⟩

theorem blames_provisionAttempt :
    (provisionAttempt env T B).Ends (exec env i) Fault.Foreign s (Blames env i Surfaces) := by
  apply blames_bind (ends_ofExcept.mpr (calm_nil.blames _))
  intro name s
  apply blames_bind
  · exact blames_call (fun _ => nofun) fun e he => Surfaces.raised he rfl nofun
  · intro exists_ s
    split
    · exact blames_checkedName.mono fun tr r s' h => h.2
    · apply ends_tryCatch.mpr
      refine blames_createCollectionForBot.mono fun tr r s' hr => ?_
      cases r with
      | ok a => exact hr
      | error e' => exact blames_onUnexpectedResponse hr

theorem blames_deleteAttempt :
    (deleteAttempt T B d).Ends (exec env i) Fault.Foreign s (Blames env i Surfaces) := by
  apply blames_bind (ends_ofExcept.mpr (calm_nil.blames _))
  intro name s
  apply blames_bind
  · exact blames_call (fun _ => nofun) fun e he => Surfaces.raised he rfl nofun
  · intro exists_ s
    split
    · apply blames_bind
      · exact blames_call (fun _ => nofun) fun e he => Surfaces.raised he rfl nofun
      · intro count_before s
        apply blames_bind
        · exact blames_call (fun _ => nofun) fun e he => Surfaces.raised he rfl nofun
        · exact fun _ _ => blames_return
    · exact blames_return

theorem blames_getOrCreateCollection :
    (getOrCreateCollection env T B).Ends (exec env i) Fault.Foreign s (Blames env i Leaves) := by
  rw [getOrCreateCollection_eq]
  exact leaves_withRetry fun _ => blames_provisionAttempt

theorem blames_deleteByDocId :
    (deleteByDocId env T B d).Ends (exec env i) Fault.Foreign s (Blames env i Leaves) := by
  rw [deleteByDocId_eq]
  exact leaves_withRetry fun _ => blames_deleteAttempt

/-! ## The pipelines -/

/-- The exception is a `QdrantWriteError`. -/
def Exc.isQdrantWrite : Exc → Bool
  | .upload .qdrantWrite .. => true
  | _ => false

/-- What leaves a pipeline where a call raised `e`. -/
def LeavesPipeline (o : Op) (e e' : Exc) : Prop :=
  (e'.isQdrantWrite = true ∧ Covered o e) ∨ (e'.isUpload = false ∧ ¬ Covered o e)

/-- A `QdrantError` of the client layer is raised again as a `QdrantWriteError`. -/
theorem Blames.onQdrantError {p : Program α} {msg : String} {details : List (String × PyValue)}
    (hp : p.Ends (exec env i) Fault.Foreign s (Blames env i Leaves)) :
    (p.tryCatch (onQdrantError msg details)).Ends (exec env i) Fault.Foreign s
      (Blames env i LeavesPipeline) := by
  apply blames_tryCatch (g := fun exc =>
    if exc.isQdrantError then .upload .qdrantWrite msg (some exc) details none else exc) hp
  · intro exc
    unfold QdrantRag.onQdrantError
    split <;> rfl
  · intro o e e' h
    by_cases hc : Covered o e
    · rw [if_pos (h.covered.mpr hc)]
      exact .inl ⟨rfl, hc⟩
    · rw [if_neg fun he' => hc (h.covered.mp he')]
      exact .inr ⟨h.not_upload, hc⟩

theorem blames_embed {texts : List String} {h : Exc → Program (List Embedding)} {g : Exc → Exc}
    (hh : ∀ e, h e = .throw (g e)) :
    ((embedPassages texts).tryCatch h).Ends (exec env i) Fault.Foreign s
      (Blames env i LeavesPipeline) := by
  apply blames_tryCatch (R := fun _ _ _ => False) _ hh fun _ _ _ => False.elim
  unfold embedPassages
  cases checkTexts texts with
  | error e => exact blames_throw
  | ok _ => exact blames_other rfl

theorem blames_writeDocument {x : Upload} {bot : Bot} {is_replace : Bool} {points : List Point} :
    (writeDocument env x bot is_replace n points).Ends (exec env i) Fault.Foreign s
      (Blames env i LeavesPipeline) := by
  have hwrite (is_replace : Bool) (s : World) : (do
      (call (.upsert n points)).tryCatch fun exc =>
        .throw (.upload .qdrantWrite "upsert failed: " (some exc)
          [("doc_id", .str x.doc_id), ("chunks", .int points.length)] none)
      call (.documentUpdateOrCreate x.doc_id (uploadDefaults env x bot points.length) x.now)
      return ⟨x.doc_id, points.length, x.body.items.length, n,
        if is_replace then .replaced else .created⟩ : Program UploadResult).Ends (exec env i)
      Fault.Foreign s (Blames env i LeavesPipeline) := by
    apply blames_bind
    · apply blames_tryCatch (R := fun o _ _ => o = .upsert n points) _ fun _ => rfl
      · rintro o e e' rfl
        exact .inl ⟨rfl, .upsert⟩
      · exact blames_call (fun _ => nofun) fun _ _ => rfl
    · intro _ s
      apply blames_bind (blames_other rfl)
      exact fun _ _ => blames_return
  cases is_replace with
  | false => exact hwrite false s
  | true =>
    apply blames_bind (Blames.onQdrantError blames_deleteByDocId)
    exact fun _ s => hwrite true s

theorem blames_indexDocument {x : Upload} {bot : Bot} {is_replace : Bool} :
    (indexDocument env x bot is_replace).Ends (exec env i) Fault.Foreign s
      (Blames env i LeavesPipeline) := by
  apply blames_bind (Blames.onQdrantError blames_getOrCreateCollection)
  intro name s
  apply blames_bind (blames_other rfl)
  intro _ s
  dsimp only
  split
  · exact blames_throw
  · split
    · exact blames_throw
    · apply blames_bind (blames_embed fun _ => rfl)
      exact fun _ _ => blames_writeDocument

theorem blames_refresh {x : Upload} {row : Document} :
    (refresh x row).Ends (exec env i) Fault.Foreign s (Blames env i LeavesPipeline) := by
  apply blames_bind (blames_other rfl)
  intro _ s
  apply blames_bind (ends_ofExcept.mpr (calm_nil.blames _))
  exact fun _ _ => blames_return

theorem Op.Enters.other {o : Op} (h : o.Enters) : o.isQdrant = false := by
  cases o with
  | tryAdvisoryLock | advisoryUnlock | sleep | tenantGetOrCreate | tenantGet | botGetOrCreate
  | botGet => rfl
  | _ => cases h

theorem blames_upload_locked {x : Upload} :
    (UploadPipeline.locked env x).Ends (exec env i) Fault.Foreign s
      (Blames env i LeavesPipeline) := by
  apply blames_bind (blames_of_only (only_getOrCreateTenant fun _ => Op.Enters.other))
  intro tenant s
  apply blames_bind (blames_of_only (only_getOrCreateBot fun _ => Op.Enters.other))
  intro bot s
  apply blames_bind (blames_other rfl)
  intro existing s
  have hcheck : (checkOwner x existing).Ends (exec env i) Fault.Foreign s
      (Blames env i LeavesPipeline) := by
    unfold checkOwner
    split
    · exact blames_return
    · split
      · exact blames_throw
      · exact blames_return
  apply blames_bind hcheck
  intro _ s
  dsimp only
  split
  · exact blames_refresh
  · apply blames_bind (blames_other rfl)
    intro content_match s
    split
    · exact blames_refresh
    · exact blames_indexDocument

theorem blames_delete_locked {x : Delete} :
    (DeletePipeline.locked env x).Ends (exec env i) Fault.Foreign s
      (Blames env i LeavesPipeline) := by
  apply blames_bind (blames_other rfl)
  intro found s
  apply blames_bind (ends_ofExcept.mpr (calm_nil.blames _))
  intro existing s
  apply blames_bind (Blames.onQdrantError blames_deleteByDocId)
  intro chunks_deleted s
  apply blames_bind (blames_other rfl)
  exact fun _ _ => blames_return

/-- Giving the lock back leaves the blame where it is. -/
theorem blames_uploadLock {polls : Nat} {body : Program α}
    (hbody : ∀ s, body.Ends (exec env i) Fault.Foreign s (Blames env i LeavesPipeline)) :
    (uploadLock env T B d polls body).Ends (exec env i) Fault.Foreign s
      (Blames env i LeavesPipeline) := by
  apply blames_bind (ends_ofExcept.mpr (calm_nil.blames _))
  intro key s
  apply blames_bind (blames_of_only (only_acquireLock polls rfl fun _ => rfl))
  intro _ s
  apply ends_tryFinally.mpr
  refine (hbody s).mono fun tr r s' hr => ?_
  apply ends_perform.mpr
  intro c _
  cases hu : (exec env i (.advisoryUnlock key) c s').1 with
  | error e' =>
    intro ev e he
    have hlast : lastCall env i [⟨.advisoryUnlock key, c, s'⟩] =
        some ⟨.advisoryUnlock key, c, s'⟩ := by
      unfold lastCall
      rw [List.filter_cons, event_not_ok hu]
      rfl
    obtain ⟨happend, hraises⟩ := he
    rw [lastCall_append, hlast] at happend
    cases happend
    exact absurd hraises (not_raises_of_other rfl)
  | ok u =>
    have hlast : lastCall env i [⟨.advisoryUnlock key, c, s'⟩] = none := by
      unfold lastCall
      rw [List.filter_cons, event_ok hu]
      rfl
    have hended (ev : Call) (e : Exc)
        (he : EndedBy env i (tr ++ [⟨.advisoryUnlock key, c, s'⟩]) ev e) :
        EndedBy env i tr ev e := by
      obtain ⟨happend, hraises⟩ := he
      rw [lastCall_append, hlast] at happend
      exact ⟨happend, hraises⟩
    cases r with
    | ok a => exact fun ev e he => hr ev e (hended ev e he)
    | error e' => exact fun ev e he => hr ev e (hended ev e he)

theorem blames_write (w : Write) :
    (w.program env).Ends (exec env i) Fault.Foreign s (Blames env i LeavesPipeline) := by
  cases w with
  | upload x =>
    apply blames_bind (blames_uploadLock fun _ => blames_upload_locked)
    exact fun _ _ => blames_return
  | delete x =>
    apply blames_bind (blames_uploadLock fun _ => blames_delete_locked)
    exact fun _ _ => blames_return

/-! ## Responses -/

/-- The response reports a failure of Qdrant. -/
def Response.ReportsQdrant (response : Response) : Prop :=
  response.status = 500 ∧ ∃ message details,
    response.body = .error "qdrant_write_failed" message details

/-- The response is the one to an exception that no view expects. -/
def Response.IsInternal (response : Response) : Prop :=
  response.status = 500 ∧ ∃ message details, response.body = .error "internal_error" message details

theorem LeavesPipeline.response {web : Web} {o : Op} {e e' : Exc} (h : LeavesPipeline o e e') :
    ((web.failure e').ReportsQdrant ↔ Covered o e) ∧
      ((web.failure e').IsInternal ↔ ¬ Covered o e) := by
  rcases h with ⟨hwrite, hc⟩ | ⟨hu, hc⟩
  · cases e' with
    | upload kind =>
      cases kind with
      | qdrantWrite =>
        refine ⟨iff_of_true ⟨rfl, _, _, rfl⟩ hc, iff_of_false ?_ (not_not_intro hc)⟩
        rintro ⟨-, message, details, hbody⟩
        exact absurd (Body.error.inj hbody).1 (by decide)
      | _ => cases hwrite
    | _ => cases hwrite
  · have hinternal : web.failure e' = internalError web e' := by
      cases e' with
      | upload => cases hu
      | _ => rfl
    rw [hinternal]
    refine ⟨iff_of_false ?_ hc, iff_of_true ⟨rfl, _, _, rfl⟩ hc⟩
    rintro ⟨-, message, details, hbody⟩
    exact absurd (Body.error.inj hbody).1 (by decide)

section Requests
variable {web : Web} {faults : Nat → Fault} {ev : Call} {e : Exc}

/-- What a blamed program raises. -/
theorem error_of_blames {R : Op → Exc → Exc → Prop} {p : Program α}
    (hp : p.Ends (exec env i) Fault.Foreign s (Blames env i R))
    (hforeign : ∀ n, (faults n).Foreign)
    (h : EndedBy env i (p.run (exec env i) faults s).trace ev e) :
    ∃ e', (p.run (exec env i) faults s).reply = .error e' ∧ R ev.op e e' := by
  have hblames := hp.run hforeign
  cases hreply : (p.run (exec env i) faults s).reply with
  | ok a =>
    rw [hreply] at hblames
    exact absurd h (hblames ev e)
  | error e' =>
    rw [hreply] at hblames
    exact ⟨e', rfl, hblames ev e h⟩

/-- The function raises a `QdrantError` exactly where the exception is covered. -/
theorem leaves_iff {p : Program α}
    (hp : p.Ends (exec env i) Fault.Foreign s (Blames env i Leaves))
    (hforeign : ∀ n, (faults n).Foreign)
    (h : EndedBy env i (p.run (exec env i) faults s).trace ev e) :
    (∃ e', (p.run (exec env i) faults s).reply = .error e' ∧ e'.isQdrantError = true) ↔
      Covered ev.op e := by
  obtain ⟨e', hreply, hleaves⟩ := error_of_blames hp hforeign h
  rw [hreply, ← hleaves.covered]
  constructor
  · rintro ⟨_, ⟨⟩, he⟩
    exact he
  · exact fun he => ⟨e', rfl, he⟩

/-- A run whose response reports the failure exactly where the exception is covered, and is that to
an unexpected exception everywhere else. -/
structure ReportsIff (o : Outcome Op Exc Response Fault World) (covered : Prop) : Prop where
  reports : (∃ response, o.reply = .ok response ∧ response.ReportsQdrant) ↔ covered
  internal : (∃ response, o.reply = .ok response ∧ response.IsInternal) ↔ ¬ covered

theorem LeavesPipeline.reportsIff {o : Op} {e' : Exc} {t : World} {tr : List Call}
    (h : LeavesPipeline o e e') : ReportsIff ⟨.ok (web.failure e'), t, tr⟩ (Covered o e) where
  reports := by
    rw [← h.response.1]
    constructor
    · rintro ⟨_, ⟨⟩, hr⟩
      exact hr
    · exact fun hr => ⟨_, rfl, hr⟩
  internal := by
    rw [← h.response.2]
    constructor
    · rintro ⟨_, ⟨⟩, hr⟩
      exact hr
    · exact fun hr => ⟨_, rfl, hr⟩

theorem UploadRequest.reportsIff {req : UploadRequest} (hchecked : (req.checked web).isOk = true)
    (hforeign : ∀ n, (faults n).Foreign)
    (h : EndedBy env i (req.run env web i faults s).trace ev e) :
    ReportsIff (req.run env web i faults s) (Covered ev.op e) := by
  obtain ⟨x, hx⟩ := exists_of_isOk hchecked
  rw [run_checked hx] at h ⊢
  obtain ⟨e', hreply, hanswered⟩ := error_of_blames (blames_write (.upload x)) hforeign h
  have hjob : (Job.run env ⟨.write (.upload x), i, faults⟩ s).reply = .error e' := hreply
  rw [hjob]
  exact hanswered.reportsIff

theorem DeleteRequest.reportsIff {req : DeleteRequest} (hchecked : (req.checked web).isOk = true)
    (hforeign : ∀ n, (faults n).Foreign)
    (h : EndedBy env i (req.run env web i faults s).trace ev e) :
    ReportsIff (req.run env web i faults s) (Covered ev.op e) := by
  obtain ⟨x, hx⟩ := exists_of_isOk hchecked
  rw [run_checked hx] at h ⊢
  obtain ⟨e', hreply, hanswered⟩ := error_of_blames (blames_write (.delete x)) hforeign h
  have hjob : (Job.run env ⟨.write (.delete x), i, faults⟩ s).reply = .error e' := hreply
  rw [hjob]
  exact hanswered.reportsIff

end Requests

/-- **What is reported as a failure of Qdrant**, whatever the calls fail with. Where a call to
Qdrant ends a run with an exception, the function it is made in raises a `QdrantError`, and the
request is answered that a write failed, if and only if the exception is covered. -/
theorem qdrant_failure_reported_iff (env : Env) (web : Web) (i : Nat) (faults : Nat → Fault)
    (s : World) (hforeign : ∀ n, (faults n).Foreign) (ev : Call) (e : Exc) :
    (∀ T B, let o := (getOrCreateCollection env T B).run (exec env i) faults s
      EndedBy env i o.trace ev e →
        ((∃ e', o.reply = .error e' ∧ e'.isQdrantError = true) ↔ Covered ev.op e)) ∧
    (∀ T B d, let o := (deleteByDocId env T B d).run (exec env i) faults s
      EndedBy env i o.trace ev e →
        ((∃ e', o.reply = .error e' ∧ e'.isQdrantError = true) ↔ Covered ev.op e)) ∧
    (∀ req : UploadRequest, (req.checked web).isOk = true →
      EndedBy env i (req.run env web i faults s).trace ev e →
        ReportsIff (req.run env web i faults s) (Covered ev.op e)) ∧
    (∀ req : DeleteRequest, (req.checked web).isOk = true →
      EndedBy env i (req.run env web i faults s).trace ev e →
        ReportsIff (req.run env web i faults s) (Covered ev.op e)) :=
  ⟨fun _ _ => leaves_iff blames_getOrCreateCollection hforeign,
    fun _ _ _ => leaves_iff blames_deleteByDocId hforeign,
    fun _ hchecked => UploadRequest.reportsIff hchecked hforeign,
    fun _ hchecked => DeleteRequest.reportsIff hchecked hforeign⟩

/-- The calls of the list fail with `e`. -/
def Sample.raising (calls : List Nat) (e : Exc) : Nat → Fault := fun m =>
  if m ∈ calls then .before e else .none

/-- The exception a call raises to its caller. -/
def Call.exc (env : Env) (i : Nat) (ev : Call) : Option Exc :=
  match (exec env i ev.op ev.choice ev.pre).1 with
  | .error e => some e
  | .ok _ => none

/-- A call as `p` says ended the run. -/
theorem exists_endedBy (env : Env) (i : Nat) (tr : List Call) (p : Op → Exc → Bool)
    (h : (lastCall env i tr).any (fun ev =>
      ev.op.isQdrant && (ev.exc env i).any (p ev.op)) = true) :
    ∃ ev e, EndedBy env i tr ev e ∧ p ev.op e = true := by
  cases hlast : lastCall env i tr with
  | none =>
    rw [hlast] at h
    cases h
  | some ev =>
    rw [hlast, Option.any_some, Bool.and_eq_true] at h
    obtain ⟨ho, hexc⟩ := h
    unfold Call.exc at hexc
    cases hr : (exec env i ev.op ev.choice ev.pre).1 with
    | ok a =>
      rw [hr] at hexc
      cases hexc
    | error e =>
      rw [hr] at hexc
      exact ⟨ev, e, ⟨hlast, .fails ho hr⟩, hexc⟩

theorem Sample.raising_foreign {calls : List Nat} {e : Exc} (h : e.foreign = true) (n : Nat) :
    (raising calls e n).Foreign := by
  unfold raising
  split
  · exact h
  · trivial

/-- An upload that may not write its points, and a deletion while Qdrant is down. -/
theorem qdrant_failure_reported_acme :
    (∃ response, ((Sample.intruding Sample.docB).run Sample.env Sample.web 0
      (Sample.raising [17] (.rpcError (some .permissionDenied) "denied")) World.empty).reply =
        .ok response ∧ response.ReportsQdrant) ∧
    (∃ e, ((deleteByDocId Sample.env "acme" "support" Sample.docA).run (exec Sample.env 0)
      (Sample.raising [0, 2, 4] (.rpcError (some .unavailable) "down")) Sample.greeted).reply =
        .error e ∧ e.isQdrantError = true) := by
  constructor
  · obtain ⟨ev, e, hended, hop⟩ := exists_endedBy Sample.env 0
      (((Sample.intruding Sample.docB).run Sample.env Sample.web 0
        (Sample.raising [17] (.rpcError (some .permissionDenied) "denied")) World.empty).trace)
      (fun o _ => o.upserts) (by decide +kernel)
    refine ((qdrant_failure_reported_iff _ _ _ _ _ (Sample.raising_foreign rfl) ev e).2.2.1 _
      (by decide +kernel) hended).reports.mpr ?_
    cases ho : ev.op with
    | upsert => exact .upsert
    | _ =>
      rw [ho] at hop
      cases hop
  · obtain ⟨ev, e, hended, ht⟩ := exists_endedBy Sample.env 0
      (((deleteByDocId Sample.env "acme" "support" Sample.docA).run (exec Sample.env 0)
        (Sample.raising [0, 2, 4] (.rpcError (some .unavailable) "down")) Sample.greeted).trace)
      (fun _ e => isTransient e) (by decide +kernel)
    exact ((qdrant_failure_reported_iff _ Sample.web _ _ _ (Sample.raising_foreign rfl) ev
      e).2.1 _ _ _ hended).mpr (.transient ht)

/-- The status and the code of an error response. -/
def Response.error (response : Response) : Option (Nat × String) :=
  match response.body with
  | .error code _ _ => some (response.status, code)
  | _ => none

/-- A server that denies the count is not reported as one that failed. -/
theorem denied_is_internal :
    let o := (Sample.removal Sample.acme).run Sample.env Sample.web 0
      (Sample.raising [3] (.rpcError (some .permissionDenied) "denied")) Sample.greeted
    ((Sample.removal Sample.acme).checked Sample.web).isOk = true ∧
    (∃ ev e, EndedBy Sample.env 0 o.trace ev e) ∧
    (o.reply.toOption.bind Response.error) = some (500, "internal_error") := by
  refine ⟨by decide +kernel, ?_, by decide +kernel⟩
  obtain ⟨ev, e, hended, -⟩ := exists_endedBy Sample.env 0
    (((Sample.removal Sample.acme).run Sample.env Sample.web 0
      (Sample.raising [3] (.rpcError (some .permissionDenied) "denied")) Sample.greeted).trace)
    (fun _ _ => true) (by decide +kernel)
  exact ⟨ev, e, hended⟩

end QdrantRag
