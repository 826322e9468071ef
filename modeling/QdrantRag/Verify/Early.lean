import QdrantRag.Verify.Changes
import QdrantRag.Verify.Faults
import QdrantRag.Verify.Retry
import QdrantRag.Verify.Sample

/-! # Uploads that fail early

An upload writes points only after everything that can refuse it: its lock, the owner of its
document, its collection, its chunks and their embedding. `Advance` follows it through these, and
the errors of each (`EarlyError`) are raised where nothing has been written. -/

namespace QdrantRag
open Keyed Effect Effect.Prog Text

/-! ## How far an upload is -/

inductive Progress
  /-- It has not come to its collection. -/
  | opening
  | seeking
  | chunking
  /-- Its texts were not embedded. -/
  | failed
  /-- It writes its points and row. -/
  | writing
  /-- It refreshes a row that has its content. -/
  | refreshing

/-- The call changes neither rows nor points, and does not tell how far an upload is. -/
def Op.plain : Op → Bool
  | .documentSave .. | .documentUpdateOrCreate .. | .deletePoints .. | .upsert ..
  | .collectionExists _ | .loadTokenizer | .encode _ => false
  | _ => true

/-- The texts `embed_passages` is called with. -/
def Upload.texts (env : Env) (x : Upload) : List String :=
  (flatChunks env x.body).map (·.2.2.text)

/-- The chunks are not too many, and none is blank. -/
structure Upload.Embeddable (env : Env) (x : Upload) : Prop where
  capped : (flatChunks env x.body).length ≤ maxChunksPerDoc
  filled : ∀ text ∈ x.texts env, strip text ≠ ""

/-- The calls of an upload, by how far it is. -/
inductive Advance (env : Env) (x : Upload) (ex : Exec Ans Exc Fault World) :
    Progress → Call → Progress → Prop
  | plain {φ o c s} (hp : o.plain = true) : Advance env x ex φ ⟨o, c, s⟩ φ
  | refresh {row fields now c s} :
      Advance env x ex .opening ⟨.documentSave row fields now, c, s⟩ .refreshing
  | seek {φ n c s} (hφ : φ = .opening ∨ φ = .seeking) :
      Advance env x ex φ ⟨.collectionExists n, c, s⟩ .seeking
  | load {c s} : Advance env x ex .seeking ⟨.loadTokenizer, c, s⟩ .chunking
  | embed {texts c s} (hx : x.Embeddable env)
      (hok : Event.ok ex ⟨.encode texts, c, s⟩ = true) :
      Advance env x ex .chunking ⟨.encode texts, c, s⟩ .writing
  | embedFails {texts c s} : Advance env x ex .chunking ⟨.encode texts, c, s⟩ .failed
  | write {o c s} (ho : o.embeds = false) : Advance env x ex .writing ⟨o, c, s⟩ .writing

/-- Nothing has been written. -/
def Progress.Unwritten : Progress → Prop
  | .writing | .refreshing => False
  | _ => True

/-- The errors that refuse an upload. -/
inductive EarlyError : Exc → Prop
  | concurrentUpload {msg cause details retry_after} :
      EarlyError (.upload .concurrentUpload msg cause details retry_after)
  | collision {cause details retry_after} : EarlyError (.upload .qdrantWrite
      "doc_id collision across tenants/bots — refuse to overwrite." cause details retry_after)
  | collection {cause details retry_after} : EarlyError
      (.upload .qdrantWrite "Collection get_or_create failed: " cause details retry_after)
  | noEmbeddableContent {msg cause details retry_after} :
      EarlyError (.upload .noEmbeddableContent msg cause details retry_after)
  | documentTooLarge {msg cause details retry_after} :
      EarlyError (.upload .documentTooLarge msg cause details retry_after)
  | embedder {msg cause details retry_after} :
      EarlyError (.upload .embedder msg cause details retry_after)

theorem not_early_of_foreign {e : Exc} (h : e.foreign = true) : ¬ EarlyError e := by
  intro he
  cases he <;> cases h

/-- A refusal of the Qdrant writer is told by its message. -/
theorem EarlyError.message {msg : String} {cause : Option Exc} {details : List (String × PyValue)}
    {retry_after : Option Nat}
    (h : EarlyError (.upload .qdrantWrite msg cause details retry_after)) :
    msg = "doc_id collision across tenants/bots — refuse to overwrite." ∨
      msg = "Collection get_or_create failed: " := by
  cases h
  · exact .inl rfl
  · exact .inr rfl

/-! ## The pipeline -/

variable {env : Env} {i : Nat} {α β : Type} {x : Upload}

/-- The simulation of a part of the pipeline. -/
abbrev Advances (env : Env) (i : Nat) (x : Upload) (ok : Progress → α → Prop)
    (err : Progress → Exc → Prop) (p : Program α) (φ : Progress) : Prop :=
  Sim (foreignExec env i) (Advance env x (foreignExec env i)) ok err p φ

/-- Where an early error is raised nothing has been written. -/
def Told (φ : Progress) (e : Exc) : Prop := EarlyError e → φ.Unwritten

theorem Told.of_foreign {φ : Progress} {e : Exc} (h : e.foreign = true) : Told φ e :=
  fun he => absurd he (not_early_of_foreign h)

variable {φ : Progress} {err : Progress → Exc → Prop}

theorem advances_plain {o : Op} {ok : Progress → Ans o → Prop} (hp : o.plain = true)
    (hok : ∀ a, ok φ a) (herr : ∀ e, e.foreign = true → err φ e) :
    Advances env i x ok err (call o) φ := sim_stay (fun _ _ => .plain hp) hok herr

theorem advances_onIntegrityError {o : Op} {e : Exc} (hp : o.plain = true)
    (he : e.foreign = true) :
    Advances env i x (fun φ' _ => φ' = φ) (fun φ' e => φ' = φ ∧ e.foreign = true)
      (onIntegrityError (call o) e) φ := by
  unfold onIntegrityError
  split
  · exact advances_plain hp (fun _ => rfl) fun _ h => ⟨rfl, h⟩
  · exact ⟨rfl, he⟩

theorem advances_refresh {row : Document} :
    Advances env i x (fun _ _ => True) Told (refresh x row) .opening := by
  apply sim_do.mpr
  apply sim_perform.mpr
  intro c s
  refine ⟨.refreshing, .refresh, ?_⟩
  cases h : (foreignExec env i (.documentSave row [.last_refreshed_at] x.now) c s).1 with
  | error e => exact .of_foreign (foreign_of_foreignExec h)
  | ok a =>
    apply sim_do.mpr
    apply sim_ofExcept.mpr
    refine ⟨fun _ _ => trivial, fun e he => ?_⟩
    obtain ⟨_, _, rfl⟩ := collectionName_eq_error he
    exact .of_foreign rfl

/-! ## The collection -/

/-- The upload has come to its collection at most. -/
def Seeks (φ : Progress) : Prop := φ = .opening ∨ φ = .seeking

theorem Seeks.unwritten (h : Seeks φ) : φ.Unwritten := by
  rcases h with rfl | rfl <;> trivial

theorem advances_checkedName {n : String} :
    Advances env i x (fun φ _ => φ = .seeking) (fun φ _ => φ = .seeking) (checkedName n)
      .seeking := by
  apply sim_do.mpr
  apply sim_do.mpr
  apply advances_plain rfl
  · intro actual
    apply sim_ofExcept.mpr
    exact ⟨fun diff _ => Sim.ite (fun _ => rfl) fun _ => rfl, fun _ _ => rfl⟩
  · exact fun _ _ => rfl

/-- Retries keep the upload at its collection. -/
theorem advances_withRetry {fn : Program α} {K : Progress → Prop}
    {ok : Progress → α → Prop} (hfn : ∀ φ, K φ → Advances env i x ok (fun φ _ => K φ) fn φ)
    (hφ : K φ) : Advances env i x ok (fun φ _ => K φ) (withRetry env fn) φ := by
  have h : Advances env i x ok (fun φ _ => K φ ∧ True) (withRetry env fn) φ := by
    refine sim_retry (fun _ _ _ => rfl) (fun _ _ _ => trivial) (fun _ _ _ _ _ => .plain rfl)
      (fun φ hφ => ?_) hφ
    exact (hfn φ hφ).mono (fun _ _ => id) fun _ _ h => ⟨h, trivial⟩
  exact h.mono (fun _ _ => id) fun _ _ => And.left

theorem advances_createCollectionForBot {T B : String} :
    Advances env i x (fun φ _ => φ = .seeking) (fun φ _ => φ = .seeking)
      (createCollectionForBot env T B) .seeking := by
  refine advances_withRetry ?_ rfl
  rintro _ rfl
  apply sim_do.mpr
  apply sim_ofExcept.mpr
  refine ⟨fun name _ => ?_, fun _ _ => rfl⟩
  apply sim_do.mpr
  refine advances_plain rfl (fun _ => ?_) fun _ _ => rfl
  apply sim_do.mpr
  refine Sim.mono (Sim.each fun ix _ => ?_) ?_ fun _ _ => id
  · exact advances_plain rfl (fun _ => rfl) fun _ _ => rfl
  · exact fun _ _ h => h

theorem advances_getOrCreateCollection {T B : String} :
    Advances env i x (fun φ _ => φ = .seeking) (fun φ _ => Seeks φ) (getOrCreateCollection env T B)
      .opening := by
  refine advances_withRetry (fun φ hφ => ?_) (.inl rfl)
  apply sim_do.mpr
  apply sim_ofExcept.mpr
  refine ⟨fun name _ => ?_, fun _ _ => hφ⟩
  apply sim_do.mpr
  apply sim_perform.mpr
  intro c s
  refine ⟨.seeking, .seek hφ, ?_⟩
  cases (foreignExec env i (.collectionExists name) c s).1 with
  | error e => exact .inr rfl
  | ok exists_ =>
    apply Sim.ite
    · intro _
      exact advances_checkedName.mono (fun _ _ => id) fun _ _ => .inr
    · intro _
      apply sim_tryCatch.mpr
      refine advances_createCollectionForBot.mono (fun _ _ => id) ?_
      rintro _ e rfl
      unfold onUnexpectedResponse
      split
      · split
        · exact advances_checkedName.mono (fun _ _ => id) fun _ _ => .inr
        · exact .inr rfl
      · exact .inr rfl

/-! ## Embedding and writing -/

theorem advances_embedPassages (hmax : (flatChunks env x.body).length ≤ maxChunksPerDoc) :
    Advances env i x (fun φ _ => φ = .writing) (fun φ _ => φ.Unwritten)
      (embedPassages (x.texts env)) .chunking := by
  unfold embedPassages
  refine sim_do.mpr (sim_ofExcept.mpr ⟨fun _ hchecked => ?_, fun _ _ => trivial⟩)
  have hx : x.Embeddable env := ⟨hmax, (checkTexts_eq_ok.mp hchecked).2⟩
  apply sim_perform.mpr
  intro c s
  cases h : (foreignExec env i (.encode (x.texts env)) c s).1 with
  | ok a =>
    refine ⟨.writing, .embed hx ?_, rfl⟩
    simp only [Event.ok, h]
    rfl
  | error e => exact ⟨.failed, .embedFails, trivial⟩

theorem advances_write {o : Op} {ok : Progress → Ans o → Prop} (ho : o.embeds = false)
    (hok : ∀ a, ok .writing a) (herr : ∀ e, e.foreign = true → err .writing e) :
    Advances env i x ok err (call o) .writing := sim_stay (fun _ _ => .write ho) hok herr

/-- No early error is raised once an upload writes. -/
theorem told_writing {φ : Progress} {e : Exc} (h : ¬ EarlyError e) : Told φ e :=
  fun he => absurd he h

theorem advances_deleteByDocId {T B d : String} :
    Advances env i x (fun φ _ => φ = .writing) (fun φ e => φ = .writing ∧ ¬ EarlyError e)
      (deleteByDocId env T B d) .writing := by
  refine (sim_deleteByDocId ?_ ?_ ?_ ?_).mono (fun _ _ => id) ?_
  · exact fun _ _ _ => .write rfl
  · exact fun _ _ _ _ => .write rfl
  · exact fun _ _ _ _ => .write rfl
  · exact fun _ _ _ => .write rfl
  · rintro φ e ⟨rfl, he | ⟨last, rfl⟩⟩
    · exact ⟨rfl, not_early_of_foreign he⟩
    · exact ⟨rfl, nofun⟩

theorem advances_writeDocument {bot : Bot} {is_replace : Bool} {n : String} {pts : List Point} :
    Advances env i x (fun _ _ => True) Told (writeDocument env x bot is_replace n pts)
      .writing := by
  have hrow : Advances env i x (fun φ _ => φ = .writing) Told
      (call (.documentUpdateOrCreate x.doc_id (uploadDefaults env x bot pts.length) x.now))
      .writing := advances_write rfl (fun _ => rfl) fun _ => .of_foreign
  have hupsert : Advances env i x (fun φ _ => φ = .writing) Told
      ((call (.upsert n pts)).tryCatch fun exc => .throw (.upload .qdrantWrite "upsert failed: "
        (some exc) [("doc_id", .str x.doc_id), ("chunks", .int pts.length)] none)) .writing := by
    apply sim_tryCatch.mpr
    refine advances_write rfl (fun _ => rfl) fun e _ => ?_
    exact told_writing fun he => absurd he.message (by decide)
  have hclear : Advances env i x (fun φ _ => φ = .writing) Told
      ((deleteByDocId env x.tenant_id x.bot_id x.doc_id).tryCatch
        (onQdrantError "delete_by_doc_id failed during replace: " [("doc_id", .str x.doc_id)]))
      .writing := by
    apply sim_tryCatch.mpr
    refine advances_deleteByDocId.mono (fun _ _ => id) ?_
    rintro _ e ⟨rfl, he⟩
    unfold onQdrantError
    split
    · exact told_writing fun he => absurd he.message (by decide)
    · exact told_writing he
  have hrest : Advances env i x (fun _ _ => True) Told
      (do
        (call (.upsert n pts)).tryCatch fun exc => .throw (.upload .qdrantWrite "upsert failed: "
          (some exc) [("doc_id", .str x.doc_id), ("chunks", .int pts.length)] none)
        call (.documentUpdateOrCreate x.doc_id (uploadDefaults env x bot pts.length) x.now)
        return (⟨x.doc_id, pts.length, x.body.items.length, n,
          if is_replace then .replaced else .created⟩ : UploadResult)) .writing := by
    apply sim_do.mpr
    refine hupsert.mono ?_ fun _ _ => id
    rintro _ _ rfl
    apply sim_do.mpr
    exact hrow.mono (fun _ _ _ => trivial) fun _ _ => id
  unfold writeDocument
  cases is_replace with
  | false => exact hrest
  | true =>
    simp only [if_true]
    apply sim_do.mpr
    refine hclear.mono ?_ fun _ _ => id
    rintro _ _ rfl
    exact hrest

theorem advances_indexDocument {bot : Bot} {is_replace : Bool} :
    Advances env i x (fun _ _ => True) Told (indexDocument env x bot is_replace) .opening := by
  unfold indexDocument
  apply sim_do.mpr
  apply sim_tryCatch.mpr
  refine advances_getOrCreateCollection.mono ?_ ?_
  · rintro _ name rfl
    apply sim_do.mpr
    apply sim_perform.mpr
    intro c s
    refine ⟨.chunking, .load, ?_⟩
    cases (foreignExec env i .loadTokenizer c s).1 with
    | error e => exact fun _ => trivial
    | ok _ =>
      simp only
      refine Sim.ite (fun _ _ => trivial) fun _ => Sim.ite (fun _ _ => trivial) fun hmax => ?_
      apply sim_do.mpr
      apply sim_tryCatch.mpr
      refine (advances_embedPassages (Nat.le_of_not_lt hmax)).mono ?_ fun φ e hφ _ => hφ
      rintro _ embeddings rfl
      exact advances_writeDocument
  · intro φ e hφ
    unfold onQdrantError
    split
    · exact fun _ => hφ.unwritten
    · exact fun _ => hφ.unwritten

/-! ## The upload -/

theorem advances_getOrCreateTenant {T : String} :
    Advances env i x (fun φ _ => φ = .opening) Told (getOrCreateTenant T) .opening := by
  apply sim_tryCatch.mpr
  refine advances_plain rfl (fun _ => rfl) fun e he => ?_
  exact (advances_onIntegrityError (o := .tenantGet T) rfl he).mono (fun _ _ => id)
    fun _ _ h => .of_foreign h.2

theorem advances_getOrCreateBot {tenant : Tenant} {B : String} :
    Advances env i x (fun φ _ => φ = .opening) Told (getOrCreateBot tenant B) .opening := by
  apply sim_tryCatch.mpr
  refine advances_plain rfl (fun _ => rfl) fun e he => ?_
  exact (advances_onIntegrityError (o := .botGet tenant.tenant_id B) rfl he).mono (fun _ _ => id)
    fun _ _ h => .of_foreign h.2

theorem advances_locked :
    Advances env i x (fun _ _ => True) Told (UploadPipeline.locked env x) .opening := by
  unfold UploadPipeline.locked
  apply sim_do.mpr
  refine advances_getOrCreateTenant.mono ?_ fun _ _ => id
  rintro _ tenant rfl
  apply sim_do.mpr
  refine advances_getOrCreateBot.mono ?_ fun _ _ => id
  rintro _ bot rfl
  apply sim_do.mpr
  refine advances_plain rfl (fun existing => ?_) fun _ => .of_foreign
  apply sim_do.mpr
  have howner : Advances env i x (fun φ _ => φ = .opening) Told (checkOwner x existing)
      .opening := by
    unfold checkOwner
    split
    · rfl
    · exact Sim.ite (fun _ _ => trivial) fun _ => rfl
  refine howner.mono ?_ fun _ _ => id
  rintro _ _ rfl
  simp only
  split
  · exact advances_refresh
  · apply sim_do.mpr
    refine advances_plain rfl (fun content_match => ?_) fun _ => .of_foreign
    cases content_match with
    | some row => exact advances_refresh
    | none => exact advances_indexDocument

theorem advances_execute :
    Advances env i x (fun _ _ => True) Told (UploadPipeline.execute env x) .opening :=
  sim_uploadLock (fun _ _ _ => .plain rfl) (fun _ _ _ => .plain rfl) (fun _ _ _ _ => .plain rfl)
    (fun _ => trivial) (fun _ _ => .of_foreign) advances_locked

/-! ## What a run leaves -/

variable {ex : Exec Ans Exc Fault World} {tr : List Call} {s s₀ : World} {ev : Call}
  {φ' : Progress}

/-- Plain calls, and those that only tell how far an upload is, change neither rows nor points. -/
theorem stores_foreignExec {o : Op} {c : Fault} (h : o.quiet = true ∨ o.isLock = true) :
    (foreignExec env i o c s).2.stores = s.stores := by
  rcases h with hq | hl
  · exact (quiet_frame hq).stores
  · exact (lock_frame hl).1

theorem Op.plain_cases {o : Op} (h : o.plain = true) : o.quiet = true ∨ o.isLock = true := by
  cases o with
  | tryAdvisoryLock | advisoryUnlock => exact .inr rfl
  | documentSave | documentUpdateOrCreate | deletePoints | upsert | collectionExists | loadTokenizer
  | encode => cases h
  | _ => exact .inl rfl

theorem Op.plain_tells_nothing {o : Op} (h : o.plain = true) :
    o.writesPoints = false ∧ o.seeks = false ∧ o.embeds = false := by
  cases o with
  | documentSave | documentUpdateOrCreate | deletePoints | upsert | collectionExists | loadTokenizer
  | encode => cases h
  | _ => exact ⟨rfl, rfl, rfl⟩

/-- The state and the calls of an upload that started from `s₀`, by how far it is. -/
structure Untouched (env : Env) (x : Upload) (ex : Exec Ans Exc Fault World) (s₀ : World)
    (tr : List Call) (s : World) (φ : Progress) : Prop where
  stores : φ.Unwritten → s.stores = s₀.stores
  points : φ ≠ .writing → ∀ ev ∈ tr, ev.op.writesPoints = false
  seeks : φ = .opening ∨ φ = .refreshing → ∀ ev ∈ tr, ev.op.seeks = false
  loads : φ = .chunking ∨ φ = .failed ∨ φ = .writing → ∃ ev ∈ tr, ev.op.loads = true
  embeds : φ ≠ .failed → ∀ ev ∈ tr, ev.op.embeds = true → ev.ok ex = true
  embeddable : φ = .writing → x.Embeddable env

theorem forall_mem_snoc {p : Call → Prop} (h : ∀ ev ∈ tr, p ev) (hev : p ev) :
    ∀ ev' ∈ tr ++ [ev], p ev' := by
  intro ev' hmem
  rcases List.mem_append.mp hmem with hmem | hmem
  · exact h ev' hmem
  · rw [List.mem_singleton.mp hmem]
    exact hev

theorem Untouched.step (h : Untouched env x (foreignExec env i) s₀ tr ev.pre φ)
    (hs : Advance env x (foreignExec env i) φ ev φ') :
    Untouched env x (foreignExec env i) s₀ (tr ++ [ev]) (ev.post (foreignExec env i)) φ' := by
  have hloads {φ : Progress} (h : φ = .chunking ∨ φ = .failed ∨ φ = .writing →
      ∃ ev ∈ tr, ev.op.loads = true) (hφ : φ = .chunking ∨ φ = .failed ∨ φ = .writing) :
      ∃ ev' ∈ tr ++ [ev], ev'.op.loads = true := by
    obtain ⟨ev', hmem, hl⟩ := h hφ
    exact ⟨ev', List.mem_append_left _ hmem, hl⟩
  cases hs with
  | plain hp =>
    obtain ⟨hpoints, hseeks, hembeds⟩ := Op.plain_tells_nothing hp
    refine ⟨fun hφ => ?_, fun hφ => ?_, fun hφ => ?_, hloads h.loads, fun hφ => ?_, h.embeddable⟩
    · exact (stores_foreignExec (Op.plain_cases hp)).trans (h.stores hφ)
    · exact forall_mem_snoc (h.points hφ) hpoints
    · exact forall_mem_snoc (h.seeks hφ) hseeks
    · exact forall_mem_snoc (h.embeds hφ) fun he => absurd (hembeds.symm.trans he) nofun
  | refresh =>
    refine ⟨False.elim, fun _ => ?_, fun _ => ?_, nofun, fun _ => ?_, nofun⟩
    · exact forall_mem_snoc (h.points nofun) rfl
    · exact forall_mem_snoc (h.seeks (.inl rfl)) rfl
    · exact forall_mem_snoc (h.embeds nofun) nofun
  | seek hφ =>
    have hne : φ ≠ .writing ∧ φ ≠ .failed := by
      rcases hφ with rfl | rfl <;> exact ⟨nofun, nofun⟩
    refine ⟨fun _ => ?_, fun _ => ?_, nofun, nofun, fun _ => ?_, nofun⟩
    · exact (stores_foreignExec (.inl rfl)).trans (h.stores (Seeks.unwritten hφ))
    · exact forall_mem_snoc (h.points hne.1) rfl
    · exact forall_mem_snoc (h.embeds hne.2) nofun
  | load =>
    refine ⟨fun _ => ?_, fun _ => ?_, nofun, fun _ => ?_, fun _ => ?_, nofun⟩
    · exact (stores_foreignExec (.inl rfl)).trans (h.stores trivial)
    · exact forall_mem_snoc (h.points nofun) rfl
    · exact ⟨_, List.mem_append_right _ (List.mem_singleton_self _), rfl⟩
    · exact forall_mem_snoc (h.embeds nofun) nofun
  | embed hx hok =>
    refine ⟨False.elim, fun hφ => absurd rfl hφ, nofun, fun _ => hloads h.loads (.inl rfl),
      fun _ => ?_, fun _ => hx⟩
    exact forall_mem_snoc (h.embeds nofun) fun _ => hok
  | embedFails =>
    refine ⟨fun _ => ?_, fun _ => ?_, nofun, fun _ => hloads h.loads (.inl rfl),
      fun hφ => absurd rfl hφ, nofun⟩
    · exact (stores_foreignExec (.inl rfl)).trans (h.stores trivial)
    · exact forall_mem_snoc (h.points nofun) rfl
  | write ho =>
    refine ⟨False.elim, fun hφ => absurd rfl hφ, nofun, fun _ => hloads h.loads (.inr (.inr rfl)),
      fun _ => ?_, h.embeddable⟩
    exact forall_mem_snoc (h.embeds nofun) fun he => absurd (ho.symm.trans he) nofun

/-! ## The theorem -/

/-- The upload came to its collection and no further. -/
def CollectionFailed (tr : List Call) : Prop :=
  (∃ ev ∈ tr, ev.op.seeks = true) ∧ ∀ ev ∈ tr, ev.op.loads = false

/-- The texts cannot be embedded, or their embedding failed. -/
def EmbeddingFailed (env : Env) (i : Nat) (x : Upload) (tr : List Call) : Prop :=
  (∃ text ∈ x.texts env, strip text = "") ∨
    ∃ ev ∈ tr, ev.op.embeds = true ∧ ev.ok (exec env i) = false

/-- **An upload that fails early changes no document.** Whatever the state and the body are, where
an upload is refused, or comes to its collection and no further, every row and point is as it was;
and one of too many chunks, or whose embedding fails, never writes points. -/
theorem failed_upload_unchanged (env : Env) (x : Upload) (session : Nat) (faults : Nat → Fault)
    (hforeign : ∀ n, (faults n).Foreign) (s : World) :
    ((∃ e, (Job.run env ⟨.write (.upload x), session, faults⟩ s).reply = .error e ∧
          EarlyError e) ∨
        CollectionFailed (Job.run env ⟨.write (.upload x), session, faults⟩ s).trace →
      (Job.run env ⟨.write (.upload x), session, faults⟩ s).state.stores = s.stores) ∧
    (maxChunksPerDoc < (flatChunks env x.body).length ∨
        EmbeddingFailed env session x
          (Job.run env ⟨.write (.upload x), session, faults⟩ s).trace →
      ∀ ev ∈ (Job.run env ⟨.write (.upload x), session, faults⟩ s).trace,
        ev.op.writesPoints = false) := by
  have hsim : Advances env session x (fun _ _ => True) Told ((Write.upload x).program env)
      .opening := sim_do.mpr (advances_execute.mono (fun _ _ _ => trivial) fun _ _ => id)
  have h0 : Untouched env x (foreignExec env session) s [] s .opening := by
    refine ⟨fun _ => rfl, fun _ _ h => ?_, fun _ _ h => ?_, nofun, fun _ _ h => ?_, nofun⟩ <;>
      cases h
  obtain ⟨φ, hφ, hreply⟩ := Prog.run_rule (Untouched env x (foreignExec env session) s)
    (fun _ => True) (fun _ _ _ _ h hs _ => h.step hs) faults h0 (fun _ _ => trivial) hsim
  have hrun : (Job.run env ⟨.write (.upload x), session, faults⟩ s) =
      ((Write.upload x).program env).run (foreignExec env session) faults s :=
    (run_foreign hforeign).symm
  have hok : ∀ ev ∈ (Job.run env ⟨.write (.upload x), session, faults⟩ s).trace,
      ev.ok (foreignExec env session) = ev.ok (exec env session) := by
    intro ev hev
    obtain ⟨n, hn⟩ := Prog.choice_of_mem hev
    have hclean : Fault.onlyForeign ev.op ev.choice = ev.choice := by
      rw [hn]
      exact if_pos (hforeign n)
    unfold Event.ok foreignExec Exec.limit
    rw [hclean]
  rw [← hrun] at hφ hreply
  refine ⟨?_, ?_⟩
  · rintro (⟨e, he, hearly⟩ | ⟨⟨ev, hev, hseeks⟩, hloads⟩)
    · rw [he] at hreply
      exact hφ.stores (hreply hearly)
    · apply hφ.stores
      have hnot : ¬ (φ = .chunking ∨ φ = .failed ∨ φ = .writing) := by
        intro h
        obtain ⟨ev', hev', hl⟩ := hφ.loads h
        exact absurd ((hloads ev' hev').symm.trans hl) nofun
      have hcome : ¬ (φ = .opening ∨ φ = .refreshing) := by
        intro h
        exact absurd ((hφ.seeks h ev hev).symm.trans hseeks) nofun
      cases φ <;> simp_all [Progress.Unwritten]
  · intro h
    apply hφ.points
    rintro rfl
    have hx := hφ.embeddable rfl
    rcases h with hmany | ⟨text, htext, hblank⟩ | ⟨ev, hev, hembeds, hfails⟩
    · exact absurd hx.capped (Nat.not_le_of_lt hmany)
    · exact hx.filled text htext hblank
    · have := hφ.embeds nofun ev hev hembeds
      rw [hok ev hev, hfails] at this
      cases this

/-- The kind of an upload error. -/
def Sample.refusal : Except Exc Reply → Option UploadErrorKind
  | .error (.upload kind _ _ _ _) => some kind
  | _ => none

theorem Sample.early_of_refusal {rep : Except Exc Reply}
    (h : refusal rep = some .noEmbeddableContent) : ∃ e, rep = .error e ∧ EarlyError e := by
  unfold refusal at h
  split at h
  · cases h
    exact ⟨_, rfl, .noEmbeddableContent⟩
  · cases h

/-- The upload of a blank text. -/
def Sample.blank : Job := uploading (upload acme docB "h2" [" "])

theorem failed_upload_unchanged_blank :
    (∃ e, (Sample.blank.run Sample.env Sample.greeted).reply = .error e ∧ EarlyError e) ∧
      (Sample.blank.run Sample.env Sample.greeted).state.stores = Sample.greeted.stores := by
  have hrefused : ∃ e, (Sample.blank.run Sample.env Sample.greeted).reply = .error e ∧
      EarlyError e := Sample.early_of_refusal (by decide +kernel)
  have hforeign : ∀ n, (Sample.served n).Foreign := fun _ => trivial
  exact ⟨hrefused, (failed_upload_unchanged Sample.env _ 0 Sample.served hforeign _).1
    (.inl hrefused)⟩

end QdrantRag
