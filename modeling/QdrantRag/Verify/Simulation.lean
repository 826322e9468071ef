import QdrantRag.Verify.Phases
import QdrantRag.Verify.Retry

/-! # The programs follow the phases

`Write.sim`: the upload and delete pipelines make the calls of `Step`, reply only where `Answers`
says so, and raise only before they have their lock or after they have given it back. -/

namespace QdrantRag
open Keyed Effect Effect.Prog

variable {env : Env} {i : Nat} {w : Write} {α β : Type}

/-- A request that raises is not under its lock any more. -/
def Phase.Outside : Phase → Prop
  | .holding _ => False
  | _ => True

/-- The simulation of a part of a program by the phases of `w`. -/
abbrev Follows (env : Env) (i : Nat) (w : Write) (ok : Phase → α → Prop) (err : Phase → Exc → Prop)
    (p : Program α) (φ : Phase) : Prop := Sim (exec env i) (Step env i w) ok err p φ

/-- Under the lock, at a stage of `K`. -/
def Under (K : Stage → Prop) (φ : Phase) : Prop := ∃ st, φ = .holding st ∧ K st

variable {ok : Phase → α → Prop} {err : Phase → Exc → Prop}

/-! ## Single calls -/

/-- A call that writes nothing: where it fails the stage stays. -/
theorem follows_quiet {o : Op} {st : Stage} {ok : Phase → Ans o → Prop} (hst : st.idles = true)
    (hq : o.quiet = true) (herr : ∀ e, err (.holding st) e)
    (hok : ∀ c s a, (exec env i o c s).1 = .ok a →
      ∃ φ', Step env i w (.holding st) ⟨o, c, s⟩ φ' ∧ ok φ' a) :
    Follows env i w ok err (call o) (.holding st) := by
  refine sim_perform.mpr fun c s => ?_
  cases h : (exec env i o c s).1 with
  | ok a => exact hok c s a h
  | error e => exact ⟨_, .quiet hst hq, herr e⟩

/-- A call that writes nothing and whose answer changes no stage. -/
theorem follows_stay {o : Op} {st : Stage} {ok : Phase → Ans o → Prop} (hst : st.idles = true)
    (hq : o.quiet = true) (herr : ∀ e, err (.holding st) e) (hok : ∀ a, ok (.holding st) a) :
    Follows env i w ok err (call o) (.holding st) :=
  follows_quiet hst hq herr fun _ _ a _ => ⟨_, .quiet hst hq, hok a⟩

theorem follows_withRetry {K : Stage → Prop} {fn : Program α} (hK : ∀ st, K st → st.idles = true)
    (hfn : ∀ st, K st → Follows env i w ok (fun φ _ => Under K φ) fn (.holding st)) {st : Stage}
    (hst : K st) : Follows env i w ok (fun φ _ => Under K φ) (withRetry env fn) (.holding st) := by
  refine sim_withRetry ?_ ?_ ⟨st, rfl, hst⟩
  · rintro _ t c s ⟨st, rfl, hst⟩
    exact .quiet (hK st hst) rfl
  · rintro _ ⟨st, rfl, hst⟩
    exact hfn st hst

/-- Re-raising as another exception changes no phase. -/
theorem follows_onQdrantError {msg : String} {details : List (String × PyValue)} {e : Exc}
    {φ : Phase} (h : ∀ e, err φ e) :
    Follows env i w ok err (onQdrantError msg details e : Program α) φ := by
  unfold onQdrantError
  split <;> exact h _

/-! ## The lock -/

theorem follows_acquireLock {k : LockKey} {timeout : Exc} (hk : w.key env = .ok k) (polls : Nat) :
    Follows env i w (fun φ _ => φ = .holding .locked) (fun φ _ => φ = .waiting)
      (acquireLock k timeout polls) .waiting := by
  have hpoll {f : Bool → Program Unit}
      (htrue : Follows env i w (fun φ _ => φ = .holding .locked) (fun φ _ => φ = .waiting)
        (f true) (.holding .locked))
      (hfalse : Follows env i w (fun φ _ => φ = .holding .locked) (fun φ _ => φ = .waiting)
        (f false) .waiting) :
      Follows env i w (fun φ _ => φ = .holding .locked) (fun φ _ => φ = .waiting)
        (call (.tryAdvisoryLock k) >>= f) .waiting := by
    refine sim_do.mpr (sim_perform.mpr fun c s => ?_)
    cases h : (exec env i (.tryAdvisoryLock k) c s).1 with
    | error e => exact ⟨_, .poll hk (by simp [h]), rfl⟩
    | ok got =>
      cases got with
      | true => exact ⟨_, .acquire hk h, htrue⟩
      | false => exact ⟨_, .poll hk (by simp [h]), hfalse⟩
  induction polls with
  | zero => exact hpoll rfl rfl
  | succ polls ih =>
    refine hpoll rfl (sim_do.mpr (sim_perform.mpr fun c s => ?_))
    exact ⟨_, .sleep, ih⟩

/-- What holds of a body under the lock holds of the locked program. -/
theorem follows_uploadLock {T B d : String} {polls : Nat} {body : Program α}
    {Q : Stage → α → Prop} (hkey : w.key env = advisoryLockKey env.sha256 T B d)
    (hbody : Follows env i w (fun φ a => Under (fun st => st.rests = true ∧ Q st a) φ)
      (fun φ _ => Under (fun st => st.rests = true) φ) body (.holding .locked)) :
    Follows env i w (fun φ a => ∃ st, φ = .finished st ∧ Q st a) (fun φ _ => φ.Outside)
      (uploadLock env T B d polls body) .waiting := by
  unfold uploadLock
  refine sim_do.mpr (sim_ofExcept.mpr ⟨fun k hk => ?_, fun _ _ => trivial⟩)
  have hk : w.key env = .ok k := hkey.trans hk
  refine sim_do.mpr ((follows_acquireLock hk polls).mono ?_ ?_)
  · rintro _ _ rfl
    refine sim_tryFinally.mpr (hbody.mono ?_ ?_)
    · rintro _ a ⟨st, rfl, hrest, hQ⟩
      refine sim_perform.mpr fun c s => ⟨_, .unlock hk hrest, ?_⟩
      cases (exec env i (.advisoryUnlock k) c s).1
      · trivial
      · exact ⟨st, rfl, hQ⟩
    · rintro _ e ⟨st, rfl, hrest⟩
      refine sim_perform.mpr fun c s => ⟨_, .unlock hk hrest, ?_⟩
      cases (exec env i (.advisoryUnlock k) c s).1 <;> trivial
  · rintro _ _ rfl
    trivial

/-! ## The collection -/

/-- The stages at which the collection is looked for. -/
def Seeking (ex : Option Document) (st : Stage) : Prop := st = .unmatched ex ∨ st = .indexing ex

theorem Seeking.idles {ex : Option Document} {st : Stage} (h : Seeking ex st) :
    st.idles = true := by
  rcases h with rfl | rfl <;> rfl

section Collection
variable {x : Upload} {ex : Option Document}

/-- An answer that shows that the collection exists. -/
theorem follows_collection {o : Op} {st : Stage} (hw : w = .upload x) (hst : Seeking ex st)
    (hq : o.quiet = true) (hcol : ∀ c s a, (exec env i o c s).1 = .ok a →
      (exec env i o c s).2.HasCollection w.collection) :
    Follows env i w (fun φ _ => φ = .holding (.indexing ex)) (fun φ _ => Under (Seeking ex) φ)
      (call o) (.holding st) :=
  follows_quiet hst.idles hq (fun _ => ⟨st, rfl, hst⟩) fun c s a h =>
    ⟨_, .collection hw hst hq (hcol c s a h), rfl⟩

theorem follows_checkedName {st : Stage} (hw : w = .upload x) (hst : Seeking ex st) :
    Follows env i w (fun φ name => φ = .holding (.indexing ex) ∧ name = w.collection)
      (fun φ _ => Under (Seeking ex) φ) (checkedName w.collection) (.holding st) := by
  have herr : Under (Seeking ex) (.holding (.indexing ex)) := ⟨_, rfl, .inr rfl⟩
  unfold checkedName compareSchema
  refine sim_do.mpr (sim_do.mpr ((follows_collection hw hst rfl fun c s a h =>
    serve_getCollection (serve_of_answer rfl h)).mono ?_ fun _ _ => id))
  rintro _ _ rfl
  refine sim_ofExcept.mpr ⟨fun diff _ => ?_, fun _ _ => herr⟩
  split
  · exact ⟨rfl, rfl⟩
  · exact herr

theorem follows_createCollectionForBot {st : Stage} (hw : w = .upload x) (hst : Seeking ex st) :
    Follows env i w (fun φ name => φ = .holding (.indexing ex) ∧ name = w.collection)
      (fun φ _ => Under (Seeking ex) φ) (createCollectionForBot env w.tenant_id w.bot_id)
      (.holding st) := by
  have hix : Seeking ex (.indexing ex) := .inr rfl
  refine follows_withRetry (fun _ => Seeking.idles) (fun st hst => ?_) hst
  refine sim_do.mpr (sim_ofExcept.mpr ⟨fun name hname => ?_, fun _ _ => ⟨st, rfl, hst⟩⟩)
  obtain rfl : w.collection = name := (collectionName_eq_ok.mp hname).2.2
  refine sim_do.mpr ((follows_collection hw hst rfl fun c s a h =>
    serve_createCollection (serve_of_answer rfl h)).mono ?_ fun _ _ => id)
  rintro _ _ rfl
  refine sim_do.mpr (Sim.mono (Sim.each fun ix _ => ?_) ?_ fun _ _ => id)
  · exact follows_stay rfl rfl (fun _ => ⟨_, rfl, hix⟩) fun _ => rfl
  · rintro _ _ rfl
    exact ⟨rfl, rfl⟩

theorem follows_getOrCreateCollection {st : Stage} (hw : w = .upload x) (hst : Seeking ex st) :
    Follows env i w (fun φ name => φ = .holding (.indexing ex) ∧ name = w.collection)
      (fun φ _ => Under (Seeking ex) φ) (getOrCreateCollection env w.tenant_id w.bot_id)
      (.holding st) := by
  refine follows_withRetry (fun _ => Seeking.idles) (fun st hst => ?_) hst
  refine sim_do.mpr (sim_ofExcept.mpr ⟨fun name hname => ?_, fun _ _ => ⟨st, rfl, hst⟩⟩)
  obtain rfl : w.collection = name := (collectionName_eq_ok.mp hname).2.2
  refine sim_do.mpr (follows_stay hst.idles rfl (fun _ => ⟨st, rfl, hst⟩) fun exists_ => ?_)
  cases exists_ with
  | true => exact follows_checkedName hw hst
  | false =>
    refine sim_tryCatch.mpr ((follows_createCollectionForBot hw hst).mono (fun _ _ => id) ?_)
    rintro _ exc ⟨st', rfl, hst'⟩
    unfold onUnexpectedResponse
    split
    · split
      · exact follows_checkedName hw hst'
      · exact ⟨st', rfl, hst'⟩
    · exact ⟨st', rfl, hst'⟩

end Collection

/-! ## Deleting the old points -/

theorem Stage.Clears.idles {st : Stage} {row : Document} (h : st.Clears w row) :
    st.idles = true := by
  cases h <;> rfl

theorem Stage.Clears.rests {st : Stage} {row : Document} (h : st.Clears w row) :
    st.rests = true := by
  cases h <;> rfl

theorem follows_deleteByDocId {st : Stage} {row : Document} (hst : st.Clears w row) :
    Follows env i w (fun φ _ => φ = .holding (.cleared row))
      (fun φ _ => Under (fun st => st.Clears w row) φ)
      (deleteByDocId env w.tenant_id w.bot_id w.doc_id) (.holding st) := by
  refine follows_withRetry (fun _ => Stage.Clears.idles) (fun st hst => ?_) hst
  have herr (e : Exc) : Under (fun st => st.Clears w row) (.holding st) := ⟨st, rfl, hst⟩
  refine sim_do.mpr (sim_ofExcept.mpr ⟨fun name hname => ?_, fun _ _ => ⟨st, rfl, hst⟩⟩)
  obtain rfl : w.collection = name := (collectionName_eq_ok.mp hname).2.2
  refine sim_do.mpr (follows_quiet hst.idles rfl herr fun c s exists_ h => ?_)
  cases exists_ with
  | false =>
    have hexists := serve_collectionExists (serve_of_answer rfl h)
    exact ⟨_, .absent hst fun hcol => Bool.noConfusion (hexists.mpr hcol), rfl⟩
  | true =>
    refine ⟨_, .quiet hst.idles rfl, ?_⟩
    refine sim_do.mpr (follows_stay hst.idles rfl herr fun count_before => ?_)
    refine sim_do.mpr (sim_perform.mpr fun c s => ?_)
    cases h : (exec env i (.deletePoints w.collection (docFilter w.doc_id)) c s).1 with
    | ok a => exact ⟨_, .clear hst (event_ok h), rfl⟩
    | error e => exact ⟨_, .clearFails hst (event_not_ok h), ⟨_, rfl, .again⟩⟩

/-- Deleting the old points under the pipeline's handler of Qdrant errors. -/
theorem follows_clear {st : Stage} {row : Document} {msg : String}
    {details : List (String × PyValue)} (hst : st.Clears w row) :
    Follows env i w (fun φ _ => φ = .holding (.cleared row))
      (fun φ _ => Under (fun st => st.rests = true) φ)
      ((deleteByDocId env w.tenant_id w.bot_id w.doc_id).tryCatch (onQdrantError msg details))
      (.holding st) := by
  refine sim_tryCatch.mpr ((follows_deleteByDocId hst).mono (fun _ _ => id) ?_)
  rintro _ e ⟨st', rfl, hst'⟩
  exact follows_onQdrantError fun _ => ⟨st', rfl, hst'.rests⟩

/-! ## Registering the bot -/

/-- `_get_or_create_tenant` changes no stage. -/
theorem follows_getOrCreateTenant {T : String} :
    Follows env i w (fun φ tenant => φ = .holding .locked ∧ tenant.tenant_id = T)
      (fun φ _ => φ = .holding .locked) (getOrCreateTenant T) (.holding .locked) := by
  unfold getOrCreateTenant
  refine sim_tryCatch.mpr (follows_quiet rfl rfl (fun e => ?_) fun c s tenant h =>
    ⟨_, .quiet rfl rfl, rfl, serve_tenantGetOrCreate (serve_of_answer rfl h)⟩)
  unfold onIntegrityError
  split
  · exact follows_quiet rfl rfl (fun _ => rfl) fun c s tenant h =>
      ⟨_, .quiet rfl rfl, rfl, serve_tenantGet (serve_of_answer rfl h)⟩
  · rfl

theorem follows_getOrCreateBot {tenant : Tenant} (ht : tenant.tenant_id = w.tenant_id) :
    Follows env i w (fun φ bot => φ = .holding .registered ∧ bot.pair = w.pair)
      (fun φ _ => φ = .holding .locked) (getOrCreateBot tenant w.bot_id) (.holding .locked) := by
  unfold getOrCreateBot
  rw [ht]
  refine sim_tryCatch.mpr (follows_quiet rfl rfl (fun e => ?_) fun c s bot h => ?_)
  · unfold onIntegrityError
    split
    · refine follows_quiet rfl rfl (fun _ => rfl) fun c s bot h => ?_
      obtain ⟨hm, hp⟩ := serve_botGet (serve_of_answer rfl h)
      exact ⟨_, .register rfl ⟨bot, hm, hp⟩, rfl, hp⟩
    · rfl
  · obtain ⟨hm, hp⟩ := serve_botGetOrCreate (serve_of_answer rfl h)
    exact ⟨_, .register rfl ⟨bot, hm, hp⟩, rfl, hp⟩

/-! ## Looking up the document -/

/-- What an upload knows of the row it found, when it goes on. -/
def Looked (env : Env) (x : Upload) (existing : Option Document) (φ : Phase) : Prop :=
  (φ = .holding .registered ∧
      ∃ row, existing = some row ∧ row.owner ≠ (x.tenant_id, x.bot_id)) ∨
    (∃ row, existing = some row ∧ SameContent env x row ∧ φ = .holding (.refreshing row)) ∨
    (φ = .holding (.found existing) ∧
      ∀ row, existing = some row → row.owner = (x.tenant_id, x.bot_id) ∧ ¬ SameContent env x row)

variable {x : Upload}

theorem follows_documentFirst :
    Follows env i (.upload x) (fun φ existing => Looked env x existing φ)
      (fun φ _ => φ = .holding .registered) (call (.documentFirst x.doc_id))
      (.holding .registered) := by
  refine follows_quiet rfl rfl (fun _ => rfl) fun c s existing h => ?_
  obtain rfl := serve_documentFirst (serve_of_answer rfl h)
  by_cases hown : ∀ row, s.row x.doc_id = some row → row.owner = (x.tenant_id, x.bot_id)
  · by_cases hsame : ∃ row, s.row x.doc_id = some row ∧ SameContent env x row
    · obtain ⟨row, hrow, hsame⟩ := hsame
      exact ⟨_, .same rfl hrow hsame, .inr (.inl ⟨row, hrow, hsame, rfl⟩)⟩
    · have hall : ∀ row, s.row x.doc_id = some row →
          row.owner = (x.tenant_id, x.bot_id) ∧ ¬ SameContent env x row :=
        fun row hrow => ⟨hown row hrow, fun hs => hsame ⟨row, hrow, hs⟩⟩
      exact ⟨_, .find rfl hall, .inr (.inr ⟨rfl, hall⟩)⟩
  · push Not at hown
    exact ⟨_, .quiet rfl rfl, .inl ⟨rfl, hown⟩⟩

/-- The ownership check raises where the row is another pair's. -/
theorem follows_checkOwner {existing : Option Document} {φ : Phase}
    (h : Looked env x existing φ) :
    Follows env i (.upload x)
      (fun φ' _ => φ' = φ ∧ ∀ row, existing = some row → row.owner = (x.tenant_id, x.bot_id))
      (fun φ _ => φ = .holding .registered) (checkOwner x existing) φ := by
  unfold checkOwner
  split
  · exact ⟨rfl, fun _ hrow => nomatch hrow⟩
  · next row =>
    have hiff : (row.tenant_id ≠ x.tenant_id ∨ row.bot_id ≠ x.bot_id) ↔
        row.owner ≠ (x.tenant_id, x.bot_id) := by
      simp only [Document.owner, ne_eq, Prod.mk.injEq, not_and_or]
    split
    · next hne =>
      rcases h with ⟨rfl, _⟩ | ⟨row', he, hsame, _⟩ | ⟨_, hall⟩
      · rfl
      · cases he; exact absurd hsame.owner (hiff.mp hne)
      · exact absurd (hall row rfl).1 (hiff.mp hne)
    · next heq =>
      refine ⟨rfl, fun row' he => ?_⟩
      cases he
      exact not_not.mp fun hne => heq (hiff.mpr hne)

theorem sameContent_eq_some {existing : Option Document} {row : Document} {h : String} :
    sameContent existing h = some row ↔
      existing = some row ∧ 0 < row.chunk_count ∧ row.content_hash = h := by
  simp only [sameContent, Option.filter_eq_some_iff, decide_eq_true_eq]

/-! ## Refreshing a row -/

theorem follows_refresh {row : Document} :
    Follows env i (.upload x)
      (fun φ r => Under (fun st => st.rests = true ∧ Answers env (.upload x) st (.upload r)) φ)
      (fun φ _ => Under (fun st => st.rests = true) φ) (refresh x row)
      (.holding (.refreshing row)) := by
  unfold refresh
  refine sim_do.mpr (sim_perform.mpr fun c s => ?_)
  cases happ : Call.applied env i ⟨.documentSave row [.last_refreshed_at] x.now, c, s⟩ with
  | false =>
    refine ⟨_, .refreshFails rfl happ, ?_⟩
    obtain ⟨e, he⟩ := exec_of_not_applied rfl rfl happ
    rw [he]
    exact ⟨_, rfl, rfl⟩
  | true =>
    refine ⟨_, .refresh rfl happ, ?_⟩
    cases (exec env i (.documentSave row [.last_refreshed_at] x.now) c s).1 with
    | error e => exact ⟨_, rfl, rfl⟩
    | ok a =>
      refine sim_do.mpr (sim_ofExcept.mpr ⟨fun name hname => ?_, fun _ _ => ⟨_, rfl, rfl⟩⟩)
      obtain rfl : joinName x.tenant_id x.bot_id = name := (collectionName_eq_ok.mp hname).2.2
      exact ⟨_, rfl, rfl, .refreshed⟩

/-! ## Writing points and rows -/

theorem follows_upsert {st : Stage} {ex : Option Document} {e' : Exc → Exc}
    (hst : st.Upserts ex)
    (hlen : 1 ≤ (x.points env).length ∧ (x.points env).length ≤ maxChunksPerDoc) :
    Follows env i (.upload x) (fun φ _ => φ = .holding (.upserted ex))
      (fun φ _ => Under (fun st => st.rests = true) φ)
      ((call (.upsert (joinName x.tenant_id x.bot_id) (x.points env))).tryCatch
        fun e => .throw (e' e))
      (.holding st) := by
  refine sim_tryCatch.mpr (sim_perform.mpr fun c s => ?_)
  cases h : (exec env i (.upsert (joinName x.tenant_id x.bot_id) (x.points env)) c s).1 with
  | ok a => exact ⟨_, .upsert rfl hst hlen (event_ok h), rfl⟩
  | error e => exact ⟨_, .upsertFails rfl hst (event_not_ok h), ⟨_, rfl, rfl⟩⟩

theorem follows_store {ex : Option Document} {bot : Bot}
    (hbot : bot.pair = (x.tenant_id, x.bot_id)) :
    Follows env i (.upload x) (fun φ _ => φ = .holding (.stored ex))
      (fun φ _ => Under (fun st => st.rests = true) φ)
      (call (.documentUpdateOrCreate x.doc_id (uploadDefaults env x bot (x.points env).length)
        x.now)) (.holding (.upserted ex)) := by
  refine sim_perform.mpr fun c s => ?_
  cases happ : Call.applied env i ⟨.documentUpdateOrCreate x.doc_id
      (uploadDefaults env x bot (x.points env).length) x.now, c, s⟩ with
  | false =>
    refine ⟨_, .storeFails rfl hbot happ, ?_⟩
    obtain ⟨e, he⟩ := exec_of_not_applied rfl rfl happ
    rw [he]
    exact ⟨_, rfl, rfl⟩
  | true =>
    refine ⟨_, .store rfl hbot happ, ?_⟩
    cases (exec env i (.documentUpdateOrCreate x.doc_id
      (uploadDefaults env x bot (x.points env).length) x.now) c s).1 with
    | ok a => rfl
    | error e => exact ⟨_, rfl, rfl⟩

/-- The post-condition of the upload pipeline under its lock. -/
abbrev Uploaded (env : Env) (x : Upload) (φ : Phase) (r : UploadResult) : Prop :=
  Under (fun st => st.rests = true ∧ Answers env (.upload x) st (.upload r)) φ

theorem follows_writeDocument {bot : Bot} {ex : Option Document}
    (hbot : bot.pair = (x.tenant_id, x.bot_id))
    (hlen : 1 ≤ (x.points env).length ∧ (x.points env).length ≤ maxChunksPerDoc) :
    Follows env i (.upload x) (Uploaded env x) (fun φ _ => Under (fun st => st.rests = true) φ)
      (writeDocument env x bot ex.isSome (joinName x.tenant_id x.bot_id) (x.points env))
      (.holding (.indexing ex)) := by
  have hwrite {st : Stage} (hst : st.Upserts ex) : Follows env i (.upload x) (Uploaded env x)
      (fun φ _ => Under (fun st => st.rests = true) φ)
      (do
        (call (.upsert (joinName x.tenant_id x.bot_id) (x.points env))).tryCatch fun exc =>
          .throw (.upload .qdrantWrite "upsert failed: " (some exc)
            [("doc_id", .str x.doc_id), ("chunks", .int (x.points env).length)] none)
        call (.documentUpdateOrCreate x.doc_id
          (uploadDefaults env x bot (x.points env).length) x.now)
        return ⟨x.doc_id, (x.points env).length, x.body.items.length,
          joinName x.tenant_id x.bot_id, if ex.isSome then .replaced else .created⟩)
      (.holding st) := by
    refine sim_do.mpr ((follows_upsert hst hlen).mono ?_ fun _ _ => id)
    rintro _ _ rfl
    refine sim_do.mpr ((follows_store hbot).mono ?_ fun _ _ => id)
    rintro _ _ rfl
    exact ⟨_, rfl, rfl, .stored⟩
  unfold writeDocument
  cases ex with
  | none => exact hwrite .create
  | some row =>
    simp only [Option.isSome_some, if_true]
    refine sim_do.mpr ((follows_clear (w := .upload x) .upload).mono ?_ fun _ _ => id)
    rintro _ _ rfl
    exact hwrite .replace

theorem follows_embedPassages {st : Stage} {texts : List String} {h : Exc → Exc}
    (hst : st.idles = true) (hrest : st.rests = true) :
    Follows env i w (fun φ embeddings => φ = .holding st ∧ embeddings = texts.map env.encode)
      (fun φ _ => Under (fun st => st.rests = true) φ)
      ((embedPassages texts).tryCatch fun exc => .throw (h exc)) (.holding st) := by
  have herr : Under (fun st => st.rests = true) (.holding st) := ⟨st, rfl, hrest⟩
  unfold embedPassages
  refine sim_tryCatch.mpr (sim_do.mpr (sim_ofExcept.mpr ⟨fun _ _ => ?_, fun _ _ => herr⟩))
  exact follows_quiet hst rfl (fun _ => herr) fun c s a h =>
    ⟨_, .quiet hst rfl, rfl, serve_encode (serve_of_answer rfl h)⟩

theorem follows_indexDocument {bot : Bot} {ex : Option Document}
    (hbot : bot.pair = (x.tenant_id, x.bot_id)) :
    Follows env i (.upload x) (Uploaded env x) (fun φ _ => Under (fun st => st.rests = true) φ)
      (indexDocument env x bot ex.isSome) (.holding (.unmatched ex)) := by
  have herr : Under (fun st => st.rests = true) (.holding (.indexing ex)) := ⟨_, rfl, rfl⟩
  unfold indexDocument
  refine sim_do.mpr (sim_tryCatch.mpr
    ((follows_getOrCreateCollection (w := .upload x) rfl (.inl rfl)).mono ?_ ?_))
  · rintro _ _ ⟨rfl, rfl⟩
    refine sim_do.mpr (follows_stay rfl rfl (fun _ => herr) fun _ => ?_)
    simp only
    split
    · exact herr
    · next hne =>
      split
      · exact herr
      · next hmax =>
        refine sim_do.mpr ((follows_embedPassages rfl rfl).mono ?_ fun _ _ => id)
        rintro _ _ ⟨rfl, rfl⟩
        rw [buildPoints_encode]
        refine follows_writeDocument hbot ?_
        rw [x.length_points]
        exact ⟨List.length_pos_iff.mpr hne, Nat.le_of_not_lt hmax⟩
  · rintro _ e ⟨st, rfl, hst⟩
    refine follows_onQdrantError fun _ => ⟨st, rfl, ?_⟩
    rcases hst with rfl | rfl <;> rfl

/-! ## The pipelines -/

theorem follows_documentMatch {ex : Option Document} :
    Follows env i (.upload x)
      (fun φ found => (∀ row, found = some row → φ = .holding (.refreshing row)) ∧
        (found = none → φ = .holding (.unmatched ex)))
      (fun φ _ => φ = .holding (.found ex))
      (call (.documentMatch x.tenant_id x.bot_id (incomingHash env x.body) x.doc_id))
      (.holding (.found ex)) := by
  refine follows_quiet rfl rfl (fun _ => rfl) fun c s found h => ?_
  obtain ⟨hsome, hnone⟩ := serve_documentMatch (serve_of_answer rfl h)
  cases found with
  | none => exact ⟨_, .unmatched rfl (hnone rfl), by simp⟩
  | some row => exact ⟨_, .matched rfl (hsome row rfl), by simp⟩

theorem follows_uploadLocked :
    Follows env i (.upload x) (Uploaded env x) (fun φ _ => Under (fun st => st.rests = true) φ)
      (UploadPipeline.locked env x) (.holding .locked) := by
  unfold UploadPipeline.locked
  refine sim_do.mpr (follows_getOrCreateTenant.mono ?_ fun φ _ h => ⟨_, h, rfl⟩)
  rintro _ tenant ⟨rfl, htenant⟩
  refine sim_do.mpr ((follows_getOrCreateBot (w := .upload x) htenant).mono ?_
    fun φ _ h => ⟨_, h, rfl⟩)
  rintro _ bot ⟨rfl, hbot⟩
  refine sim_do.mpr (follows_documentFirst.mono ?_ fun φ _ h => ⟨_, h, rfl⟩)
  intro φ existing hlooked
  refine sim_do.mpr ((follows_checkOwner hlooked).mono ?_ fun φ _ h => ⟨_, h, rfl⟩)
  rintro _ _ ⟨rfl, hown⟩
  simp only
  split
  · next row hrow =>
    obtain ⟨rfl, hcc, hhash⟩ := sameContent_eq_some.mp hrow
    rcases hlooked with ⟨_, row', he, hne⟩ | ⟨row', he, hsame, rfl⟩ | ⟨_, hall⟩
    · exact absurd (hown row' he) hne
    · cases he
      exact follows_refresh
    · exact absurd ⟨hown row rfl, hcc, hhash⟩ (hall row rfl).2
  · next hnone =>
    rcases hlooked with ⟨_, row', he, hne⟩ | ⟨row', he, hsame, rfl⟩ | ⟨rfl, hall⟩
    · exact absurd (hown row' he) hne
    · rw [sameContent_eq_some.mpr ⟨he, hsame.indexed, hsame.content_hash⟩] at hnone
      cases hnone
    · refine sim_do.mpr (follows_documentMatch.mono ?_ fun φ _ h => ⟨_, h, rfl⟩)
      rintro φ found ⟨hsome, hnone⟩
      cases found with
      | some row =>
        obtain rfl := hsome row rfl
        exact follows_refresh
      | none =>
        obtain rfl := hnone rfl
        exact follows_indexDocument hbot

theorem follows_deleteLocked {x : Delete} :
    Follows env i (.delete x)
      (fun φ r => Under (fun st => st.rests = true ∧ Answers env (.delete x) st (.delete r)) φ)
      (fun φ _ => Under (fun st => st.rests = true) φ)
      (DeletePipeline.locked env x) (.holding .locked) := by
  unfold DeletePipeline.locked
  refine sim_do.mpr (sim_perform.mpr fun c s => ?_)
  cases h : (exec env i (.documentFirst x.doc_id) c s).1 with
  | error e => exact ⟨_, .quiet rfl rfl, ⟨_, rfl, rfl⟩⟩
  | ok found =>
    obtain rfl := serve_documentFirst (serve_of_answer rfl h)
    cases hrow : s.row x.doc_id with
    | none => exact ⟨_, .quiet rfl rfl, ⟨_, rfl, rfl⟩⟩
    | some row =>
      by_cases hown : row.tenant_id ≠ x.tenant_id ∨ row.bot_id ≠ x.bot_id
      · refine ⟨_, .quiet rfl rfl, ?_⟩
        simp only [ownDocument, if_pos hown, ownDocument.notFound]
        exact ⟨_, rfl, rfl⟩
      · have howner : row.owner = (x.tenant_id, x.bot_id) := by
          simpa [Document.owner, not_or] using hown
        refine ⟨_, .own rfl hrow howner, ?_⟩
        simp only [ownDocument, if_neg hown]
        refine sim_do.mpr (sim_ofExcept.mpr ⟨fun row' he => ?_, fun _ he => nomatch he⟩)
        cases he
        refine sim_do.mpr ((follows_clear (w := .delete x) .delete).mono ?_ fun _ _ => id)
        rintro _ chunks_deleted rfl
        refine sim_do.mpr (sim_perform.mpr fun c s => ?_)
        cases happ : Call.applied env i ⟨.documentSave row.asDeleted deleteFields x.now, c, s⟩ with
        | false =>
          refine ⟨_, .eraseFails rfl happ, ?_⟩
          obtain ⟨e, he⟩ := exec_of_not_applied rfl rfl happ
          rw [he]
          exact ⟨_, rfl, rfl⟩
        | true =>
          refine ⟨_, .erase rfl happ, ?_⟩
          cases (exec env i (.documentSave row.asDeleted deleteFields x.now) c s).1 with
          | error e => exact ⟨_, rfl, rfl⟩
          | ok a => exact ⟨_, rfl, rfl, .deleted⟩

/-- **The programs follow the phases**: a writing request makes the calls `Step` allows, replies
only once it is finished, with a reply of the stage it reached, and raises only outside its
lock. -/
theorem Write.follows (w : Write) :
    Follows env i w (fun φ rep => ∃ st, φ = .finished st ∧ Answers env w st rep)
      (fun φ _ => φ.Outside) (w.program env) .waiting := by
  cases w with
  | upload x =>
    refine sim_do.mpr ((follows_uploadLock rfl follows_uploadLocked).mono ?_ fun _ _ => id)
    exact fun _ _ => id
  | delete x =>
    refine sim_do.mpr ((follows_uploadLock rfl follows_deleteLocked).mono ?_ fun _ _ => id)
    exact fun _ _ => id

/-- The invariant rule of a writing request run alone. -/
theorem Write.run_rule (w : Write) (I : List Call → World → Phase → Prop) (good : Call → Prop)
    (hstep : ∀ tr ev φ φ', I tr ev.pre φ → Step env i w φ ev φ' → good ev →
      I (tr ++ [ev]) (ev.post (exec env i)) φ')
    (plan : Nat → Fault) {s : World} (h0 : I [] s .waiting)
    (hgood : ∀ ev ∈ ((w.program env).run (exec env i) plan s).trace, good ev) :
    ∃ φ, I ((w.program env).run (exec env i) plan s).trace
        ((w.program env).run (exec env i) plan s).state φ ∧ φ.Outside ∧
      ∀ rep, ((w.program env).run (exec env i) plan s).reply = .ok rep →
        ∃ st, φ = .finished st ∧ Answers env w st rep := by
  obtain ⟨φ, hI, hr⟩ := Prog.run_rule I good hstep plan h0 hgood w.follows
  cases h : ((w.program env).run (exec env i) plan s).reply with
  | ok rep =>
    rw [h] at hr
    obtain ⟨st, rfl, hans⟩ := hr
    refine ⟨_, hI, trivial, fun rep' hrep => ?_⟩
    cases hrep
    exact ⟨st, rfl, hans⟩
  | error e =>
    rw [h] at hr
    exact ⟨φ, hI, hr, nofun⟩

/-- The threads of interleaved requests, at the start. -/
theorem holds_start {requests : Nat → Write}
    {I : List (Nat × Call) → World → (Nat → Phase) → Prop}
    (hI : I [] World.empty fun _ => .waiting) :
    Pool.Holds (exec env) (fun i => Step env i (requests i))
      (fun i φ rep => ∃ st, φ = .finished st ∧ Answers env (requests i) st rep)
      (fun _ φ _ => φ.Outside) I
      (Pool.start World.empty fun i => (requests i).program env) fun _ => .waiting :=
  ⟨hI, fun i => (requests i).follows⟩

end QdrantRag
