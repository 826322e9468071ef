import QdrantRag.Verify.Alike
import QdrantRag.Verify.Responses
import QdrantRag.Verify.Sample

/-! # What responses tell of others

The response to a request that writes, in states that differ in the documents of other pairs. It is
the same, except that an upload under the id of a document of theirs names its tenant. -/

namespace QdrantRag
open Keyed Effect Effect.Prog

variable {env : Env} {i : Nat} {α : Type} {p : String × String} {T B d n : String} {s s' : World}
  {D : Option Document → Option Document → Prop}

/-! ## The calls of the pipelines -/

theorem only_checkedName (hn : n = joinName p.1 p.2) :
    (checkedName n).Only (Op.Concerns p d) := by
  refine Only.bind (Only.bind (only_perform hn) fun _ => only_ofExcept _) fun diff => ?_
  exact Only.ite (fun _ => trivial) fun _ => trivial

theorem only_createCollectionForBot :
    (createCollectionForBot env T B).Only (Op.Concerns (T, B) d) := by
  apply only_withRetry fun _ => trivial
  apply only_ofExcept_bind
  intro name hname
  obtain rfl := (collectionName_eq_ok.mp hname).2.2
  refine Only.bind (only_perform rfl) fun _ => ?_
  refine Only.bind (Only.each fun _ _ => only_perform rfl) fun _ => ?_
  trivial

theorem only_getOrCreateCollection :
    (getOrCreateCollection env T B).Only (Op.Concerns (T, B) d) := by
  apply only_withRetry fun _ => trivial
  apply only_ofExcept_bind
  intro name hname
  obtain rfl := (collectionName_eq_ok.mp hname).2.2
  refine Only.bind (only_perform rfl) fun exists_ => ?_
  refine Only.ite (fun _ => only_checkedName rfl) fun _ => ?_
  apply only_createCollectionForBot.tryCatch
  intro exc
  unfold onUnexpectedResponse
  split
  · exact Only.ite (fun _ => only_checkedName rfl) fun _ => trivial
  · trivial

theorem only_deleteByDocId_concerns :
    (deleteByDocId env T B d).Only (Op.Concerns (T, B) d) :=
  only_deleteByDocId (fun _ => trivial) rfl rfl rfl

theorem only_getOrCreateBot {S : Op → Prop} (hS : ∀ o, o.Enters → S o) {tenant : Tenant} :
    (getOrCreateBot tenant B).Only S := by
  refine Only.tryCatch (only_perform (hS _ trivial)) fun e => ?_
  unfold onIntegrityError
  split
  · exact only_perform (hS _ trivial)
  · trivial

theorem only_getOrCreateTenant {S : Op → Prop} (hS : ∀ o, o.Enters → S o) :
    (getOrCreateTenant T).Only S := by
  refine Only.tryCatch (only_perform (hS _ trivial)) fun e => ?_
  unfold onIntegrityError
  split
  · exact only_perform (hS _ trivial)
  · trivial

theorem Op.Enters.concerns {o : Op} (h : o.Enters) : o.Concerns p d := by
  cases o with
  | tryAdvisoryLock | advisoryUnlock | sleep | tenantGetOrCreate | tenantGet | botGetOrCreate
  | botGet => trivial
  | _ => cases h

theorem only_refresh {x : Upload} {row : Document} :
    (refresh x row).Only (Op.Concerns p d) := by
  refine Only.bind (only_perform trivial) fun _ => ?_
  apply Only.bind (only_ofExcept _)
  intro _
  trivial

theorem only_embedPassages {texts : List String} :
    (embedPassages texts).Only (Op.Concerns p d) :=
  Only.bind (only_ofExcept _) fun _ => only_perform trivial

theorem only_writeDocument {x : Upload} {bot : Bot} {is_replace : Bool} {points : List Point}
    (hn : n = joinName x.tenant_id x.bot_id) :
    (writeDocument env x bot is_replace n points).Only
      (Op.Concerns (x.tenant_id, x.bot_id) x.doc_id) := by
  have hwrite (is_replace : Bool) : (do
      (call (.upsert n points)).tryCatch fun exc =>
        .throw (.upload .qdrantWrite "upsert failed: " (some exc)
          [("doc_id", .str x.doc_id), ("chunks", .int points.length)] none)
      call (.documentUpdateOrCreate x.doc_id (uploadDefaults env x bot points.length) x.now)
      return ⟨x.doc_id, points.length, x.body.items.length, n,
        if is_replace then .replaced else .created⟩ : Program UploadResult).Only
      (Op.Concerns (x.tenant_id, x.bot_id) x.doc_id) := by
    refine Only.bind (Only.tryCatch (only_perform hn) fun _ => trivial) fun _ => ?_
    refine Only.bind (only_perform ⟨rfl, rfl⟩) fun _ => ?_
    trivial
  cases is_replace with
  | false => exact hwrite false
  | true =>
    apply Only.bind (only_deleteByDocId_concerns.tryCatch only_onQdrantError)
    exact fun _ => hwrite true

theorem yields_checkedName : (checkedName n).Yields (· = n) := by
  refine yields_bind fun diff => ?_
  split
  · rfl
  · trivial

theorem yields_createCollectionForBot :
    (createCollectionForBot env T B).Yields (· = joinName T B) := by
  apply yields_withRetry
  apply yields_ofExcept_bind
  intro name hname
  obtain rfl := (collectionName_eq_ok.mp hname).2.2
  exact yields_bind fun _ => yields_bind fun _ => rfl

theorem yields_getOrCreateCollection :
    (getOrCreateCollection env T B).Yields (· = joinName T B) := by
  apply yields_withRetry
  apply yields_ofExcept_bind
  intro name hname
  obtain rfl := (collectionName_eq_ok.mp hname).2.2
  refine yields_bind fun exists_ => ?_
  split
  · exact yields_checkedName
  · apply yields_createCollectionForBot.tryCatch
    intro exc
    unfold onUnexpectedResponse
    split
    · split
      · exact yields_checkedName
      · trivial
    · trivial

theorem only_indexDocument {x : Upload} {bot : Bot} {is_replace : Bool} :
    (indexDocument env x bot is_replace).Only (Op.Concerns (x.tenant_id, x.bot_id) x.doc_id) := by
  have hcollection : (getOrCreateCollection env x.tenant_id x.bot_id).Only
      (Op.Concerns (x.tenant_id, x.bot_id) x.doc_id) := only_getOrCreateCollection
  refine Only.bind_yields (hcollection.tryCatch only_onQdrantError)
    (yields_getOrCreateCollection.tryCatch fun e => ?_) fun name hname => ?_
  · unfold onQdrantError
    split <;> trivial
  · refine Only.bind (only_perform trivial) fun _ => ?_
    refine Only.ite (fun _ => trivial) fun _ => Only.ite (fun _ => trivial) fun _ => ?_
    refine Only.bind (only_embedPassages.tryCatch fun _ => trivial) fun embeddings => ?_
    exact only_writeDocument hname

theorem only_upload (x : Upload) :
    (UploadPipeline.execute env x).Only (Op.Concerns (x.tenant_id, x.bot_id) x.doc_id) := by
  refine only_uploadLock (fun _ => trivial) (fun _ => trivial) (fun _ => trivial) ?_
  refine Only.bind (only_getOrCreateTenant fun _ => Op.Enters.concerns) fun tenant => ?_
  refine Only.bind (only_getOrCreateBot fun _ => Op.Enters.concerns) fun bot => ?_
  refine Only.bind (only_perform rfl) fun existing => ?_
  have hcheck : (checkOwner x existing).Only (Op.Concerns (x.tenant_id, x.bot_id) x.doc_id) := by
    unfold checkOwner
    split
    · trivial
    · exact Only.ite (fun _ => trivial) fun _ => trivial
  refine Only.bind hcheck fun _ => ?_
  dsimp only
  split
  · exact only_refresh
  · refine Only.bind (only_perform rfl) fun content_match => ?_
    split
    · exact only_refresh
    · exact only_indexDocument

theorem only_delete_concerns (x : Delete) :
    (DeletePipeline.execute env x).Only (Op.Concerns (x.tenant_id, x.bot_id) x.doc_id) := by
  refine only_uploadLock (fun _ => trivial) (fun _ => trivial) (fun _ => trivial) ?_
  refine Only.bind (only_perform rfl) fun found => ?_
  refine Only.bind (only_ofExcept _) fun existing => ?_
  refine Only.bind (only_deleteByDocId_concerns.tryCatch only_onQdrantError) fun _ => ?_
  refine Only.bind (only_perform trivial) fun _ => ?_
  trivial

/-! ## A document that is no other pair's -/

/-- The two runs reply the same. -/
theorem reply_of_undisputed {q : Program α} (hq : q.Only (Op.Concerns p d)) {plan : Nat → Fault}
    (h : SameBut (OwnAlike p d) s s') :
    (q.run (exec env i) plan s).reply = (q.run (exec env i) plan s').reply := by
  have hblind : q.Blind (Op.Concerns p d) (AnsweredAlike (Undisputed p)) := by
    refine hq.blind.mono (fun _ => id) fun o _ a a' ha => ?_
    cases o with
    | documentFirst => exact ha.1
    | _ => exact ha
  exact (hblind.run (matches_concerns env i) h).1

/-! ## A document of another pair -/

theorem Only.blind_enters {q : Program α} (h : q.Only Op.Enters) :
    q.Blind (Op.Opens d) (AnsweredAlike D) := by
  refine h.blind.mono (fun o ho => ?_) fun o ho a a' ha => ?_ <;> cases o <;>
    first | exact ho | exact ha | cases ho

theorem blind_uploadLock {e : String} {polls : Nat} {body : Program α}
    (h : body.Blind (Op.Opens d) (AnsweredAlike D)) :
    (uploadLock env T B e polls body).Blind (Op.Opens d) (AnsweredAlike D) := by
  refine blind_ofExcept_bind fun k _ => ?_
  have hacquire : (acquireLock k (concurrentUploadError T B e) polls).Only Op.Enters :=
    only_acquireLock polls trivial fun _ => trivial
  have hunlock : (call (.advisoryUnlock k)).Only Op.Enters := only_perform trivial
  exact (Only.blind_enters hacquire).bind fun _ => h.tryFinally (Only.blind_enters hunlock)

/-- The error of an upload under the id of a document of the tenant. -/
def collision (x : Upload) (found_tenant : String) : Exc :=
  .uploadError .qdrantWrite "doc_id collision across tenants/bots — refuse to overwrite."
    [("doc_id", .str x.doc_id), ("expected_tenant", .str x.tenant_id),
      ("found_tenant", .str found_tenant)]

theorem checkOwner_foreign {x : Upload} {row : Document} (h : row.owner ≠ (x.tenant_id, x.bot_id)) :
    checkOwner x (some row) = .throw (collision x row.tenant_id) := by
  refine if_pos ?_
  by_contra hnot
  rw [not_or, not_not, not_not] at hnot
  exact h (Prod.ext hnot.1 hnot.2)

theorem ownDocument_notOwn {x : Delete} {existing : Option Document}
    (h : ∀ row ∈ existing, row.owner ≠ (x.tenant_id, x.bot_id)) :
    ownDocument x existing = ownDocument.notFound x := by
  cases existing with
  | none => rfl
  | some row =>
    refine if_pos ?_
    by_contra hnot
    rw [not_or, not_not, not_not] at hnot
    exact h row rfl (Prod.ext hnot.1 hnot.2)

/-- The tenant that owns a document. -/
def World.tenantOf (s : World) (d : String) : Option String := (s.row d).map Document.tenant_id

/-- Other pairs of one tenant own the document. -/
def SameTenant (p : String × String) (a a' : Option Document) : Prop :=
  Foreign p a a' ∧ a.map Document.tenant_id = a'.map Document.tenant_id

theorem blind_upload (x : Upload) : (UploadPipeline.execute env x).Blind (Op.Opens x.doc_id)
    (AnsweredAlike (SameTenant (x.tenant_id, x.bot_id))) := by
  refine blind_uploadLock ?_
  refine (Only.blind_enters (only_getOrCreateTenant fun _ => id)).bind fun tenant => ?_
  refine (Only.blind_enters (only_getOrCreateBot fun _ => id)).bind fun bot => ?_
  refine blind_perform_bind rfl fun a a' ha => ?_
  obtain ⟨⟨row, row', rfl, rfl, hrow, hrow'⟩, htenant⟩ := ha
  rw [checkOwner_foreign hrow, checkOwner_foreign hrow', Option.some.inj htenant]
  exact ⟨rfl, trivial⟩

theorem blind_delete (x : Delete) : (DeletePipeline.execute env x).Blind (Op.Opens x.doc_id)
    (AnsweredAlike (NotOwn (x.tenant_id, x.bot_id))) := by
  refine blind_uploadLock (blind_perform_bind rfl fun a a' ha => ?_)
  rw [ownDocument_notOwn ha.1, ownDocument_notOwn ha.2]
  exact ⟨rfl, trivial⟩

theorem reply_of_blind {q : Program α} (hq : q.Blind (Op.Opens d) (AnsweredAlike D))
    {plan : Nat → Fault} (h : SameBut (AtRow D d) s s') :
    (q.run (exec env i) plan s).reply = (q.run (exec env i) plan s').reply :=
  (hq.run (matches_opens env i) h).1

/-! ## A pair whose collection is another pair's -/

/-- The pair has no documents then. -/
theorem Owned.owner_ne (h : Owned s.bots s.stores) (hname : s.NameTaken p) {row : Document}
    (hrow : s.row d = some row) : row.owner ≠ p := by
  rintro rfl
  obtain ⟨b, hb, hp⟩ := h.rows d row hrow
  obtain ⟨b', hb', hn', hne⟩ := hname
  have hn : b.collection_name = joinName row.owner.1 row.owner.2 := by
    rw [b.collection_name_eq, ← hp]
    rfl
  exact hne (s.unique_collection_name b' hb' b hb (hn'.trans hn.symm) ▸ hp)

/-- Under way in a state in which the name of its collection is taken. -/
structure Shut (w : Write) (s : World) (φ : Phase) : Prop where
  owned : Owned s.bots s.stores
  entitled : Entitled w φ s
  taken : s.NameTaken w.pair

theorem Shut.step {w : Write} {ev : Call} {φ φ' : Phase} (h : Shut w ev.pre φ)
    (hs : Step env i w φ ev φ') : Shut w (ev.post (exec env i)) φ' where
  owned := h.owned.post h.entitled hs
  entitled := Entitled.step h.owned h.entitled hs
  taken := h.taken.imp fun b hb => ⟨(Call.grows ev).bots b hb.1, hb.2⟩

/-- It is not registered. -/
theorem Shut.not_entitled {w : Write} {φ : Phase} (h : Shut w s φ) : φ.entitled = false := by
  rw [← Bool.not_eq_true]
  intro he
  obtain ⟨b, hb, hp⟩ := h.entitled he
  obtain ⟨b', hb', hn', hne⟩ := h.taken
  have hn := Bot.collection_name_of_pair hp
  exact hne (s.unique_collection_name b' hb' b hb (hn'.trans hn.symm) ▸ hp)

theorem Shut.returned {w : Write} {φ : Phase} {q : Program α} {plan : Nat → Fault}
    {ok : Phase → α → Prop} {err : Phase → Exc → Prop} {a : α} {tr : List Call} (h : Shut w s φ)
    (hq : Follows env i w ok err q φ)
    (hrun : q.run (exec env i) plan s = ⟨.ok a, s', tr⟩) : ∃ φ', Shut w s' φ' ∧ ok φ' a := by
  obtain ⟨φ', hshut, hok⟩ := Prog.run_rule (fun _ => Shut w) (fun _ => True)
    (fun _ _ _ _ h hs _ => h.step hs) plan h (fun _ _ => trivial) hq
  rw [hrun] at hshut hok
  exact ⟨φ', hshut, hok⟩

/-- What an upload does until its bot is registered. -/
def enter (env : Env) (x : Upload) : Program UploadResult :=
  uploadLock env x.tenant_id x.bot_id x.doc_id x.polls do
    let tenant ← getOrCreateTenant x.tenant_id
    let _ ← getOrCreateBot tenant x.bot_id
    .throw (.doesNotExist "Bot")

theorem only_enter (x : Upload) : (enter env x).Only Op.Enters := by
  refine only_uploadLock (fun _ => trivial) (fun _ => trivial) (fun _ => trivial) ?_
  refine Only.bind (only_getOrCreateTenant fun _ => id) fun tenant => ?_
  refine Only.bind (only_getOrCreateBot fun _ => id) fun bot => ?_
  trivial

/-- An upload does no more, as the bot cannot be registered. -/
theorem run_of_shut (x : Upload) (h : Owned s.bots s.stores)
    (hname : s.NameTaken (x.tenant_id, x.bot_id)) {plan : Nat → Fault} :
    (UploadPipeline.execute env x).run (exec env i) plan s =
      (enter env x).run (exec env i) plan s := by
  have hshut : Shut (.upload x) s .waiting := ⟨h, nofun, hname⟩
  refine run_bind_congr fun k s₀ tr₀ hk => ?_
  obtain ⟨rfl, hkey⟩ : s₀ = s ∧ (Write.upload x).key env = .ok k := by
    cases hkey : advisoryLockKey env.sha256 x.tenant_id x.bot_id x.doc_id with
    | ok k' =>
      rw [hkey] at hk
      cases hk
      exact ⟨rfl, hkey⟩
    | error e =>
      rw [hkey] at hk
      cases hk
  refine run_bind_congr fun _ s₁ tr₁ hacquire => run_tryFinally_congr ?_
  obtain ⟨_, h₁, rfl⟩ := hshut.returned (follows_acquireLock hkey x.polls) hacquire
  refine run_bind_congr fun tenant s₂ tr₂ htenant => ?_
  obtain ⟨_, h₂, rfl, hid⟩ := h₁.returned follows_getOrCreateTenant htenant
  refine run_bind_congr fun bot s₃ tr₃ hbot => ?_
  obtain ⟨_, h₃, rfl, -⟩ := h₂.returned (follows_getOrCreateBot (w := .upload x) hid) hbot
  cases h₃.not_entitled

/-! ## Replies in states that are alike -/

/-- A delete replies the same in states that are alike. -/
theorem delete_reply (env : Env) (i : Nat) (plan : Nat → Fault) (x : Delete)
    (hs : Owned s.bots s.stores) (h : s.Alike (x.tenant_id, x.bot_id) s') :
    ((DeletePipeline.execute env x).run (exec env i) plan s).reply =
      ((DeletePipeline.execute env x).run (exec env i) plan s').reply := by
  rcases h.cases x.doc_id with hrow | hrow
  · by_cases hname : s.NameTaken (x.tenant_id, x.bot_id)
    · have hnot : NotOwn (x.tenant_id, x.bot_id) (s.row x.doc_id) (s'.row x.doc_id) :=
        ⟨fun _ hr => hs.owner_ne hname hr, fun _ hr => hs.owner_ne hname (hrow.1.trans hr)⟩
      exact reply_of_blind (blind_delete x) (h.sameBut hnot)
    · exact reply_of_undisputed (only_delete_concerns x) (h.ownAlike hname hrow)
  · exact reply_of_blind (blind_delete x) (h.sameBut hrow.notOwn)

/-- So does an upload, unless different tenants own the document. -/
theorem upload_reply (env : Env) (i : Nat) (plan : Nat → Fault) (x : Upload)
    (hs : Owned s.bots s.stores) (hs' : Owned s'.bots s'.stores)
    (h : s.Alike (x.tenant_id, x.bot_id) s')
    (htenant : s.tenantOf x.doc_id = s'.tenantOf x.doc_id) :
    ((UploadPipeline.execute env x).run (exec env i) plan s).reply =
      ((UploadPipeline.execute env x).run (exec env i) plan s').reply := by
  rcases h.cases x.doc_id with hrow | hrow
  · by_cases hname : s.NameTaken (x.tenant_id, x.bot_id)
    · have hname' : s'.NameTaken (x.tenant_id, x.bot_id) := by
        rwa [World.NameTaken, ← h.bots]
      rw [run_of_shut x hs hname, run_of_shut x hs' hname']
      exact reply_of_blind (Only.blind_enters (only_enter x)) (h.sameBut hrow)
    · exact reply_of_undisputed (only_upload x) (h.ownAlike hname hrow)
  · exact reply_of_blind (blind_upload x) (h.sameBut ⟨hrow, htenant⟩)

/-! ## An upload without failures -/

/-- The request gets the lock of its document, and its bot is there or can be made. -/
structure Upload.Admitted (env : Env) (i : Nat) (x : Upload) (s : World) : Prop where
  lock : ∃ k, advisoryLockKey env.sha256 x.tenant_id x.bot_id x.doc_id = .ok k ∧
    ∀ j ∈ s.holder k, j = i
  bot : (s.bots.find? (x.tenant_id, x.bot_id)).isSome ∨
    ∀ bot ∈ s.bots.rows, bot.collection_name ≠ joinName x.tenant_id x.bot_id

theorem returns_acquireLock {k : LockKey} {timeout : Exc} (polls : Nat)
    (h : ∀ j ∈ s.holder k, j = i) :
    ∃ locks, Returns (exec env i) .none (acquireLock k timeout polls) s ()
      { s with locks := locks } := by
  obtain ⟨locks, hgot⟩ : ∃ locks, serve env i (.tryAdvisoryLock k) s =
      .ok (true, { s with locks := locks }) := by
    simp only [serve]
    cases hk : s.locks.find? k with
    | none => exact ⟨_, rfl⟩
    | some l =>
      have hi : l.session = i := h _ (by rw [World.holder, hk]; rfl)
      exact ⟨s.locks, by simp only [hi, beq_self_eq_true]⟩
  refine ⟨locks, ?_⟩
  cases polls <;> exact (returns_serve hgot).bind returns_pure

/-- The lock of another session is polled for until the deadline. -/
theorem acquireLock_timeout {k : LockKey} {timeout : Exc} {j : Nat} (polls : Nat)
    (h : s.holder k = some j) (hj : j ≠ i) :
    ((acquireLock k timeout polls).run (exec env i) (fun _ => .none) s).reply =
      .error timeout := by
  have hgot : Returns (exec env i) .none (call (.tryAdvisoryLock k)) s false s := by
    obtain ⟨l, hl, rfl⟩ := Option.map_eq_some_iff.mp h
    refine returns_serve ?_
    simp only [serve, hl]
    rw [beq_eq_false_iff_ne.mpr hj]
  induction polls with
  | zero => exact hgot.reply_bind
  | succ polls ih =>
    refine hgot.reply_bind.trans ?_
    have hslept : Returns (exec env i) .none (call (.sleep (1 / 20))) s () s := returns_serve rfl
    exact hslept.reply_bind.trans ih

theorem returns_getOrCreateTenant :
    ∃ t tenants, t.tenant_id = T ∧
      Returns (exec env i) .none (getOrCreateTenant T) s t { s with tenants := tenants } := by
  cases hT : s.tenants.find? T with
  | some t =>
    refine ⟨t, s.tenants, Table.key_of_find? hT, (returns_serve ?_).tryCatch⟩
    simp only [serve, hT]
  | none =>
    refine ⟨⟨T, T⟩, s.tenants.put ⟨T, T⟩, rfl, (returns_serve ?_).tryCatch⟩
    simp only [serve, hT]

theorem exists_save (hT : slugMatch T = true) (hB : slugMatch B = true) (name : String) :
    ∃ bot, Bot.save T B name = .ok bot ∧ bot.collection_name = joinName T B := by
  have hname : collectionName T B = .ok (joinName T B) := collectionName_eq_ok.mpr ⟨hT, hB, rfl⟩
  unfold Bot.save
  split
  · next n hn => exact ⟨_, rfl, Except.ok.inj (hn.symm.trans hname)⟩
  · next e he => cases he.symm.trans hname

theorem returns_getOrCreateBot {tenant : Tenant} (hT : slugMatch tenant.tenant_id = true)
    (hB : slugMatch B = true)
    (h : (s.bots.find? (tenant.tenant_id, B)).isSome ∨
      ∀ bot ∈ s.bots.rows, bot.collection_name ≠ joinName tenant.tenant_id B) :
    ∃ bot s', s'.documents = s.documents ∧
      Returns (exec env i) .none (getOrCreateBot tenant B) s bot s' := by
  cases hfind : s.bots.find? (tenant.tenant_id, B) with
  | some bot =>
    refine ⟨bot, s, rfl, (returns_serve ?_).tryCatch⟩
    simp only [serve, hfind]
  | none =>
    rw [hfind] at h
    obtain ⟨bot, hsave, hname⟩ := exists_save hT hB B
    have hnew : ¬ ∃ b' ∈ s.bots.rows, b'.collection_name = bot.collection_name := by
      rintro ⟨b', hb', he⟩
      exact h.resolve_left Bool.false_ne_true b' hb' (he.trans hname)
    refine ⟨bot, s.insertBot bot hnew, rfl, (returns_serve ?_).tryCatch⟩
    simp only [serve, hfind, hsave]
    rw [dif_neg hnew]

/-- A bot whose collection has a bot already cannot be made, and is not there. -/
theorem getOrCreateBot_missing {tenant : Tenant} (hT : slugMatch tenant.tenant_id = true)
    (hB : slugMatch B = true) (hfind : s.bots.find? (tenant.tenant_id, B) = none)
    (h : ∃ bot ∈ s.bots.rows, bot.collection_name = joinName tenant.tenant_id B) :
    ((getOrCreateBot tenant B).run (exec env i) (fun _ => .none) s).reply =
      .error (.doesNotExist "Bot") := by
  obtain ⟨bot, hsave, hname⟩ := exists_save hT hB B
  rw [← hname] at h
  have hcreate : exec env i (.botGetOrCreate tenant.tenant_id B B) .none s =
      (.error (.integrityError "duplicate key value violates unique constraint"), s) := by
    simp only [exec, Op.isLock, Op.isLocal, serve, hfind, hsave]
    rw [dif_pos h]
    rfl
  have hget : ((call (.botGet tenant.tenant_id B)).run (exec env i) (fun _ => .none) s).reply =
      .error (.doesNotExist "Bot") := by
    simp only [call, perform, Prog.run, exec, Op.isLock, Op.isLocal, serve, hfind]
    rfl
  unfold getOrCreateBot
  rw [run_tryCatch_of_error (run_perform_of_error hcreate)]
  exact hget

/-- With its lock, an upload replies what its body does. -/
theorem upload_reply_locked (x : Upload) {k : LockKey}
    (hk : advisoryLockKey env.sha256 x.tenant_id x.bot_id x.doc_id = .ok k)
    (hlock : ∀ j ∈ s.holder k, j = i) :
    ∃ locks, ((UploadPipeline.execute env x).run (exec env i) (fun _ => .none) s).reply =
      ((UploadPipeline.locked env x).run (exec env i) (fun _ => .none)
        { s with locks := locks }).reply := by
  obtain ⟨locks, hacquire⟩ := returns_acquireLock x.polls hlock
  refine ⟨locks, (returns_ofExcept hk).reply_bind.trans (hacquire.reply_bind.trans ?_)⟩
  exact reply_tryFinally fun _ => ⟨_, returns_serve rfl⟩

/-- An upload under the id of a document of another pair names its tenant. -/
theorem upload_collides {x : Upload} {row : Document} (h : x.Admitted env i s)
    (hrow : s.row x.doc_id = some row) (hforeign : row.owner ≠ (x.tenant_id, x.bot_id)) :
    ((UploadPipeline.execute env x).run (exec env i) (fun _ => .none) s).reply =
      .error (collision x row.tenant_id) := by
  obtain ⟨⟨k, hk, hlock⟩, hbot⟩ := h
  obtain ⟨hT, hB, -⟩ := advisoryLockKey_isOk.mp ⟨k, hk⟩
  obtain ⟨locks, hlocked⟩ := upload_reply_locked x hk hlock
  obtain ⟨tenant, tenants, htenant, hgot⟩ :=
    returns_getOrCreateTenant (T := x.tenant_id) (s := { s with locks := locks })
  rw [← htenant] at hT hbot
  obtain ⟨bot, s', hdocs, hgot'⟩ :=
    returns_getOrCreateBot (s := { s with locks := locks, tenants := tenants }) hT hB hbot
  have hfirst : Returns (exec env i) .none (call (.documentFirst x.doc_id)) s' (some row) s' := by
    refine returns_serve ?_
    rw [serve, World.row, hdocs]
    exact congrArg (fun r => Except.ok (r, s')) hrow
  rw [hlocked]
  refine hgot.reply_bind.trans (hgot'.reply_bind.trans (hfirst.reply_bind.trans ?_))
  rw [checkOwner_foreign hforeign]
  rfl

/-- An upload that is not admitted replies what the locks and the bots tell. -/
theorem upload_not_admitted {x : Upload} (h : ¬ x.Admitted env i s) :
    ∃ e, ∀ s' : World, s'.locks = s.locks → s'.bots = s.bots →
      ((UploadPipeline.execute env x).run (exec env i) (fun _ => .none) s').reply = .error e := by
  cases hk : advisoryLockKey env.sha256 x.tenant_id x.bot_id x.doc_id with
  | error e =>
    refine ⟨e, fun s' _ _ => ?_⟩
    unfold UploadPipeline.execute uploadLock
    rw [hk]
    rfl
  | ok k =>
    obtain ⟨hT, hB, -⟩ := advisoryLockKey_isOk.mp ⟨k, hk⟩
    by_cases hlock : ∀ j ∈ s.holder k, j = i
    · -- then its bot is missing
      have hbot := fun hbot => h ⟨⟨k, hk, hlock⟩, hbot⟩
      rw [imp_false, not_or, Bool.not_eq_true, Option.isSome_eq_false_iff,
        Option.isNone_iff_eq_none] at hbot
      obtain ⟨hfind, hused⟩ := hbot
      push Not at hused
      refine ⟨.doesNotExist "Bot", fun s' hlocks hbots => ?_⟩
      rw [← hbots] at hfind hused
      have hlock' : ∀ j ∈ s'.holder k, j = i := by
        rwa [World.holder, hlocks]
      obtain ⟨locks, hlocked⟩ := upload_reply_locked x hk hlock'
      obtain ⟨tenant, tenants, htenant, hgot⟩ :=
        returns_getOrCreateTenant (T := x.tenant_id) (s := { s' with locks := locks })
      rw [← htenant] at hT hfind hused
      rw [hlocked]
      refine hgot.reply_bind.trans (reply_bind_of_error ?_)
      exact getOrCreateBot_missing (s := { s' with locks := locks, tenants := tenants }) hT hB
        hfind hused
    · push Not at hlock
      obtain ⟨j, hj, hne⟩ := hlock
      refine ⟨concurrentUploadError x.tenant_id x.bot_id x.doc_id, fun s' hlocks _ => ?_⟩
      refine (returns_ofExcept hk).reply_bind.trans (reply_bind_of_error ?_)
      apply acquireLock_timeout x.polls (j := j) _ hne
      rwa [World.holder, hlocks]

/-! ## The theorem -/

/-- The states that requests lead to, one after the other or interleaved. -/
inductive World.Reachable (env : Env) : World → Prop
  | after (jobs : List Job) : Reachable env (World.after env jobs World.empty)
  | interleaved (requests : Nat → Write) (sched : List (Nat × Fault)) :
    Reachable env (interleave env requests sched).state

theorem World.Reachable.owned (h : s.Reachable env) : Owned s.bots s.stores := by
  cases h with
  | after jobs => exact owned_after env jobs Owned.empty
  | interleaved requests sched =>
    obtain ⟨φ, hholds⟩ := owning_interleave env requests sched
    exact hholds.inv.1

variable {web : Web} {session : Nat} {faults : Nat → Fault}

theorem UploadRequest.reply_checked {req : UploadRequest} {x : Upload}
    (h : req.checked web = .ok x) :
    (req.run env web session faults s).reply = .ok (web.response
      (((UploadPipeline.execute env x).run (exec env session) faults s).reply.map .upload)) := by
  rw [run_checked h]
  exact congrArg (fun o : Outcome Op Exc Reply Fault World => Except.ok (web.response o.reply))
    (run_map Reply.upload)

theorem DeleteRequest.reply_checked {req : DeleteRequest} {x : Delete}
    (h : req.checked web = .ok x) :
    (req.run env web session faults s).reply = .ok (web.response
      (((DeletePipeline.execute env x).run (exec env session) faults s).reply.map .delete)) := by
  rw [run_checked h]
  exact congrArg (fun o : Outcome Op Exc Reply Fault World => Except.ok (web.response o.reply))
    (run_map Reply.delete)

theorem UploadRequest.pair_of_checked {req : UploadRequest} {x : Upload}
    (h : req.checked web = .ok x) :
    (x.tenant_id, x.bot_id) = (normalizeSlug req.tenant_id, normalizeSlug req.bot_id) := by
  obtain ⟨-, -, hT, hB⟩ := pathSlugs_eq_ok.mp (ids_of_checked h)
  rw [hT, hB]

theorem DeleteRequest.pair_of_checked {req : DeleteRequest} {x : Delete}
    (h : req.checked web = .ok x) :
    (x.tenant_id, x.bot_id) = (normalizeSlug req.tenant_id, normalizeSlug req.bot_id) := by
  obtain ⟨-, -, hT, hB⟩ := pathSlugs_eq_ok.mp (ids_of_checked h)
  rw [hT, hB]

/-- The body of the response to a collision names the tenant. -/
theorem collision_body {x : Upload} {T T' : String}
    (h : (web.response (.error (collision x T))).body =
      (web.response (.error (collision x T'))).body) : T = T' := by
  simp [Web.response, Web.failure, collision, Exc.uploadError, uploadErrorResponse, errorResponse,
    Option.filter, Details.isEmpty] at h
  exact h.2

/-- An upload without failures, in two states that differ in documents of other pairs. -/
theorem UploadRequest.answer_iff {req : UploadRequest} {x : Upload}
    (hreq : req.checked web = .ok x) (hs : Owned s.bots s.stores) (hs' : Owned s'.bots s'.stores)
    (h : s.Alike (x.tenant_id, x.bot_id) s') :
    answer (req.run env web session (fun _ => .none) s) =
        answer (req.run env web session (fun _ => .none) s') ↔
      (x.Admitted env session s → s.tenantOf x.doc_id = s'.tenantOf x.doc_id) := by
  unfold answer
  rw [reply_checked hreq, reply_checked hreq]
  constructor
  · intro hanswer hadmitted
    have hadmitted' : x.Admitted env session s' := by
      obtain ⟨⟨k, hk, hlock⟩, hbot⟩ := hadmitted
      rw [World.holder, h.locks] at hlock
      rw [h.bots] at hbot
      exact ⟨⟨k, hk, hlock⟩, hbot⟩
    rcases h.cases x.doc_id with hrow | ⟨row, row', hrow, hrow', hforeign, hforeign'⟩
    · exact congrArg _ hrow.1
    · rw [upload_collides hadmitted hrow hforeign, upload_collides hadmitted' hrow' hforeign']
        at hanswer
      rw [World.tenantOf, World.tenantOf, hrow, hrow']
      exact congrArg some (collision_body (Prod.mk.inj (Option.some.inj hanswer)).2)
  · intro htenant
    by_cases hadmitted : x.Admitted env session s
    · rw [upload_reply env session _ x hs hs' h (htenant hadmitted)]
    · obtain ⟨e, he⟩ := upload_not_admitted hadmitted
      rw [he s rfl rfl, he s' h.locks.symm h.bots.symm]

/-- **What responses tell of other pairs.** In two states that differ only in documents of other
pairs, a delete is answered the same, and so is an upload under an id whose tenant is the same.
Without failures an upload that is admitted under an id whose tenants differ is not. -/
theorem answers_alike_iff (env : Env) (web : Web) (p : String × String) (s s' : World)
    (hs : s.Reachable env) (hs' : s'.Reachable env) (h : s.Alike p s') :
    (∀ req : DeleteRequest, (normalizeSlug req.tenant_id, normalizeSlug req.bot_id) = p →
      ∀ session faults, answer (req.run env web session faults s) =
        answer (req.run env web session faults s')) ∧
    ∀ req : UploadRequest, (normalizeSlug req.tenant_id, normalizeSlug req.bot_id) = p →
      (∀ session faults,
        (∀ x, req.checked web = .ok x → s.tenantOf x.doc_id = s'.tenantOf x.doc_id) →
        answer (req.run env web session faults s) =
          answer (req.run env web session faults s')) ∧
      ∀ session, answer (req.run env web session (fun _ => .none) s) =
          answer (req.run env web session (fun _ => .none) s') ↔
        ∀ x, req.checked web = .ok x → x.Admitted env session s →
          s.tenantOf x.doc_id = s'.tenantOf x.doc_id := by
  refine ⟨fun req hp session faults => ?_, fun req hp => ?_⟩
  · cases hreq : req.checked web with
    | error response =>
      rw [DeleteRequest.run_refused hreq, DeleteRequest.run_refused hreq]
      rfl
    | ok x =>
      obtain rfl := (DeleteRequest.pair_of_checked hreq).trans hp
      unfold answer
      rw [DeleteRequest.reply_checked hreq, DeleteRequest.reply_checked hreq,
        delete_reply env session faults x hs.owned h]
  · cases hreq : req.checked web with
    | error response =>
      refine ⟨fun session faults _ => ?_,
        fun session => ⟨fun _ _ h => (nomatch h), fun _ => ?_⟩⟩ <;>
      · rw [UploadRequest.run_refused hreq, UploadRequest.run_refused hreq]
        rfl
    | ok x =>
      obtain rfl := (UploadRequest.pair_of_checked hreq).trans hp
      refine ⟨fun session faults htenant => ?_, fun session => ?_⟩
      · unfold answer
        rw [UploadRequest.reply_checked hreq, UploadRequest.reply_checked hreq,
          upload_reply env session faults x hs.owned hs'.owned h (htenant x rfl)]
      · rw [UploadRequest.answer_iff hreq hs.owned hs'.owned h]
        constructor
        · rintro htenant _ ⟨⟩
          exact htenant
        · exact fun htenant => htenant x rfl

/-- Two pairs upload a document each. -/
def Sample.others (d e : String) : World := World.after Sample.env
  [uploading (upload acmeSales d "h1" ["Hello"]), uploading (upload globex e "h1" ["Hello"])]
  World.empty

theorem World.isSome_row : (s.row d).isSome ↔ d ∈ s.documents.rows.map Document.doc_id := by
  rw [Option.isSome_iff_exists, List.mem_map]
  exact exists_congr fun _ => World.row_eq_some

/-- A third pair does not see which document is whose. -/
theorem Sample.others_alike : (others docA docB).Alike acme (others docB docA) := by
  have hcols (s : World) (h : (s.collections.find? support).isNone = true) :
      s.collections.find? (joinName acme.1 acme.2) = none := Option.isNone_iff_eq_none.mp h
  have hrows (s : World) (h : (s.documents.rows.filter (·.owner = acme)).isEmpty = true) :
      s.documents.rows.filter (·.owner = acme) = [] := List.isEmpty_iff.mp h
  -- one evaluation of the two states for all that is asked of them
  obtain ⟨htenants, hbots, hlocks, ⟨hcol, hcol'⟩, ⟨hrow, hrow'⟩, hids⟩ :
      (others docA docB).tenants.rows = (others docB docA).tenants.rows ∧
      (others docA docB).bots.rows = (others docB docA).bots.rows ∧
      (others docA docB).locks.rows = (others docB docA).locks.rows ∧
      (((others docA docB).collections.find? support).isNone = true ∧
        ((others docB docA).collections.find? support).isNone = true) ∧
      (((others docA docB).documents.rows.filter (·.owner = acme)).isEmpty = true ∧
        ((others docB docA).documents.rows.filter (·.owner = acme)).isEmpty = true) ∧
      ((others docA docB).documents.rows.map Document.doc_id).Perm
        ((others docB docA).documents.rows.map Document.doc_id) := by decide +kernel
  refine ⟨Table.ext htenants, Table.ext hbots, Table.ext hlocks, .inr ?_, ?_, fun d => ?_⟩
  · rw [hcols _ hcol, hcols _ hcol']
  · rw [hrows _ hrow, hrows _ hrow']
  · rw [Bool.eq_iff_iff, World.isSome_row, World.isSome_row]
    exact hids.mem_iff

/-- A third pair deletes a document that is another's in both states. -/
theorem answers_alike_iff_acme :
    answer ((⟨"acme", "support", ⟨Sample.docA⟩, 100, 0⟩ : DeleteRequest).run Sample.env Sample.web 0
        Sample.served (Sample.others Sample.docA Sample.docB)) =
      answer ((⟨"acme", "support", ⟨Sample.docA⟩, 100, 0⟩ : DeleteRequest).run Sample.env
        Sample.web 0 Sample.served (Sample.others Sample.docB Sample.docA)) :=
  (answers_alike_iff Sample.env Sample.web Sample.acme _ _ (.after _) (.after _)
    Sample.others_alike).1 _ (by decide +kernel) 0 Sample.served

/-- A request to upload under a document id. -/
def Sample.intruding (doc_id : String) : UploadRequest where
  tenant_id := "acme"
  bot_id := "support"
  data := .ok (.dict [("doc_id", .str doc_id), ("content_hash", .str "h2"),
    ("items", .list [.dict [("content", .str "Hello")]])])
  uuid4 := ⟨docB⟩
  polls := 100
  now := 0
  clock := fun _ => 0

/-- The tenant that a response names. -/
def Sample.foundTenant : Option (Nat × Body) → Option String
  | some (_, .error _ _ (some (.fields kvs))) =>
    match kvs.lookup "found_tenant" with
    | some (.str s) => some s
    | _ => none
  | _ => none

/-- A third pair is told which tenant has the document. -/
theorem upload_discloses :
    (Sample.others Sample.docA Sample.docB).Reachable Sample.env ∧
    (Sample.others Sample.docB Sample.docA).Reachable Sample.env ∧
    (Sample.others Sample.docA Sample.docB).Alike Sample.acme
      (Sample.others Sample.docB Sample.docA) ∧
    answer ((Sample.intruding Sample.docA).run Sample.env Sample.web 0 Sample.served
        (Sample.others Sample.docA Sample.docB)) ≠
      answer ((Sample.intruding Sample.docA).run Sample.env Sample.web 0 Sample.served
        (Sample.others Sample.docB Sample.docA)) := by
  refine ⟨.after _, .after _, Sample.others_alike, fun h => ?_⟩
  have hacme : Sample.foundTenant (answer ((Sample.intruding Sample.docA).run Sample.env Sample.web
      0 Sample.served (Sample.others Sample.docA Sample.docB))) = some "acme" := by decide +kernel
  have hglobex : Sample.foundTenant (answer ((Sample.intruding Sample.docA).run Sample.env
      Sample.web 0 Sample.served (Sample.others Sample.docB Sample.docA))) = some "globex" := by
    decide +kernel
  rw [h, hglobex] at hacme
  exact absurd hacme (by decide)

end QdrantRag
