import QdrantRag.Verify.Creation
import QdrantRag.Verify.Disclosure
import QdrantRag.Verify.Early
import QdrantRag.Verify.Lifecycle
import QdrantRag.Verify.Uploads

/-! # Parts of the pipelines that are served

What each part of the two pipelines returns and leaves where every call it makes is served: a pair
is registered (`returns_enter`), a collection is there (`returns_getOrCreateCollection`), the points
of a document are gone (`returns_deletePoints`), and a document is written
(`returns_writeDocument`). -/

namespace QdrantRag
open Keyed Effect Effect.Prog Text

variable {env : Env} {i : Nat} {s s' : World} {T B n d : String} {x : Upload}

/-! ## What is kept -/

/-- Every collection has the locked schema. -/
def World.Conforms (s : World) : Prop := ∀ n, s.Locked n

/-- The bots are the same, and the collections still have the locked schema. -/
structure World.Stays (s s' : World) : Prop where
  bots : s'.bots = s.bots
  conforms : s.Conforms → s'.Conforms

theorem World.Stays.refl (s : World) : s.Stays s := ⟨rfl, id⟩

theorem World.Stays.trans {s'' : World} (h : s.Stays s') (h' : s'.Stays s'') : s.Stays s'' :=
  ⟨h'.bots.trans h.bots, fun hs => h'.conforms (h.conforms hs)⟩

theorem World.Stays.of_collections (hb : s'.bots = s.bots) (hc : s'.collections = s.collections) :
    s.Stays s' where
  bots := hb
  conforms h n col hcol := h n col (hc ▸ hcol)

/-- A change of the points of a collection, or of its indexes. -/
theorem World.stays_modifyCollection {f : Collection → Collection}
    {hname : ∀ c, (f c).name = c.name} (hf : ∀ c, (f c).params = c.params) :
    s.Stays (s.modifyCollection n f hname) where
  bots := rfl
  conforms h m col hcol := by
    obtain ⟨col', hcol', rfl⟩ :=
      Option.map_eq_some_iff.mp (World.find?_modifyCollection.symm.trans hcol)
    split
    · exact (hf col').trans (h m col' hcol')
    · exact h m col' hcol'

/-! ## Pairs -/

/-- The pairs that have a bot. -/
def World.pairs (s : World) : Set (String × String) := {p | ∃ b ∈ s.bots.rows, b.pair = p}

/-- The pair has been registered, and nothing else has changed. -/
structure World.Enrolled (p : String × String) (s s' : World) : Prop where
  stores : s'.stores = s.stores
  collections : s'.collections = s.collections
  pairs : s'.pairs = insert p s.pairs

theorem World.mem_pairs_of_find? {p : String × String} {bot : Bot}
    (h : s.bots.find? p = some bot) : p ∈ s.pairs :=
  ⟨bot, Table.mem_of_find? h, Table.key_of_find? h⟩

theorem World.pairs_insertBot {bot : Bot} (hp : s.bots.find? bot.pair = none)
    (h : ¬ ∃ b ∈ s.bots.rows, b.collection_name = bot.collection_name) :
    (s.insertBot bot h).pairs = insert bot.pair s.pairs := by
  ext q
  constructor
  · rintro ⟨b, hb, rfl⟩
    rcases Table.mem_put.mp hb with rfl | ⟨hb, -⟩
    · exact .inl rfl
    · exact .inr ⟨b, hb, rfl⟩
  · rintro (rfl | ⟨b, hb, rfl⟩)
    · exact ⟨bot, Table.mem_put.mpr (.inl rfl), rfl⟩
    · exact ⟨b, Table.mem_put.mpr (.inr ⟨hb, Table.find?_eq_none.mp hp b hb⟩), rfl⟩

variable (env i) in
/-- The tenant and the bot of an upload are there, or made. -/
theorem returns_enter (hT : slugMatch T = true) (hB : slugMatch B = true)
    (h : (T, B) ∈ s.pairs ∨ ∀ p ∈ s.pairs, joinName p.1 p.2 ≠ joinName T B) :
    ∃ tenant s₁ bot s', Returns (exec env i) .none (getOrCreateTenant T) s tenant s₁ ∧
      Returns (exec env i) .none (getOrCreateBot tenant B) s₁ bot s' ∧ bot.pair = (T, B) ∧
      s.Enrolled (T, B) s' := by
  obtain ⟨tenant, tenants, rfl, htenant⟩ : ∃ t tenants, t.tenant_id = T ∧
      Returns (exec env i) .none (getOrCreateTenant T) s t { s with tenants := tenants } :=
    returns_getOrCreateTenant
  cases hfind : s.bots.find? (tenant.tenant_id, B) with
  | some bot =>
    refine ⟨tenant, _, bot, { s with tenants := tenants }, htenant,
      (returns_serve ?_).tryCatch, Table.key_of_find? hfind, rfl, rfl, ?_⟩
    · simp only [serve, hfind]
    · exact (Set.insert_eq_of_mem (World.mem_pairs_of_find? hfind)).symm
  | none =>
    obtain ⟨bot, hsave, hname⟩ := exists_save hT hB B
    have hpair : bot.pair = (tenant.tenant_id, B) := Bot.pair_of_save hsave
    have hnew : ¬ ∃ b ∈ s.bots.rows, b.collection_name = bot.collection_name := by
      rintro ⟨b, hb, he⟩
      rcases h with ⟨b', hb', hp⟩ | h
      · exact Table.find?_eq_none.mp hfind b' hb' hp
      · exact h b.pair ⟨b, hb, rfl⟩ (b.collection_name_eq.symm.trans (he.trans hname))
    refine ⟨tenant, _, bot, { s with tenants := tenants }.insertBot bot hnew, htenant,
      (returns_serve ?_).tryCatch, hpair, rfl, rfl, ?_⟩
    · simp only [serve, hfind, hsave]
      rw [dif_neg hnew]
    · rw [← hpair] at hfind ⊢
      exact World.pairs_insertBot (s := { s with tenants := tenants }) hfind hnew

/-! ## Collections -/

theorem World.find?_of_not_hasCollection (h : ¬ s.HasCollection n) :
    s.collections.find? n = none := by
  cases hfind : s.collections.find? n with
  | none => rfl
  | some col => exact absurd (World.hasCollection_iff.mpr ⟨col, hfind⟩) h

theorem returns_checkedName (h : s.Locked n) (hcol : s.HasCollection n) :
    Returns (exec env i) .none (checkedName n) s n s := by
  obtain ⟨col, hfind⟩ := World.hasCollection_iff.mp hcol
  have hget : Returns (exec env i) .none (call (.getCollection n)) s col.params s := by
    refine returns_serve ?_
    simp only [serve, hfind]
  have hdiff : Returns (exec env i) .none (compareSchema n) s [] s := by
    refine hget.bind (returns_ofExcept ?_)
    rw [h col hfind]
    exact schemaDiff_expected
  exact hdiff.bind returns_pure

/-- The collection is there, with the rows, the points and the bots as before. -/
structure World.Opened (n : String) (s s' : World) : Prop where
  stores : s'.stores = s.stores
  stays : s.Stays s'
  collection : s'.HasCollection n

theorem returns_createCollectionForBot (hname : collectionName T B = .ok n)
    (hcol : ¬ s.HasCollection n) : ∃ s',
      Returns (exec env i) .none (createCollectionForBot env T B) s n s' ∧ s.Opened n s' := by
  have hfind := World.find?_of_not_hasCollection hcol
  obtain ⟨s₁, hserve, hbots⟩ : ∃ s₁, serve env i (.createCollection n expectedParams) s =
      .ok ((), s₁) ∧ s₁.bots = s.bots :=
    ⟨{ s with collections := s.collections.put ⟨n, expectedParams, [], .empty⟩ },
      by simp only [serve, hfind], rfl⟩
  have hprovides : (Op.createCollection n expectedParams).Provides := rfl
  have hopened : s.Opened n s₁ := by
    refine ⟨(serve_quiet rfl hserve).stores,
      ⟨hbots, fun h m => locked_of_serve hprovides (h m) hserve⟩, ?_⟩
    simp only [serve, hfind] at hserve
    cases hserve
    exact World.hasCollection_iff.mpr
      ⟨_, Table.find?_put_self (r := (⟨n, expectedParams, [], .empty⟩ : Collection))⟩
  have hindex : ∀ ix ∈ payloadIndexes, ∀ t, s.Opened n t → ∃ t',
      Returns (exec env i) .none (call (.createPayloadIndex n ix.1 ix.2)) t () t' ∧
        s.Opened n t' := by
    intro ix _ t ht
    obtain ⟨col, hfind⟩ := World.hasCollection_iff.mp ht.collection
    have hix : serve env i (.createPayloadIndex n ix.1 ix.2) t =
        .ok ((), t.modifyCollection n (·.setSchema ix.1 ix.2) fun _ => rfl) := by
      simp only [serve, hfind]
    exact ⟨_, returns_serve hix, (serve_quiet rfl hix).stores.trans ht.stores,
      ht.stays.trans (World.stays_modifyCollection fun _ => rfl),
      World.hasCollection_modifyCollection.mpr ht.collection⟩
  obtain ⟨s₂, hindexes, h₂⟩ := returns_each (s.Opened n) hindex hopened
  exact ⟨s₂, returns_withRetry ((returns_ofExcept hname).bind
    ((returns_serve hserve).bind (hindexes.bind returns_pure))), h₂⟩

variable (env i) in
theorem returns_getOrCreateCollection (hname : collectionName T B = .ok n) (h : s.Conforms) :
    ∃ s', Returns (exec env i) .none (getOrCreateCollection env T B) s n s' ∧
      s.Opened n s' := by
  have hexists : Returns (exec env i) .none (call (.collectionExists n)) s
      (s.collections.find? n).isSome s := returns_serve rfl
  by_cases hcol : s.HasCollection n
  · have hsome : (s.collections.find? n).isSome = true := hcol
    rw [hsome] at hexists
    exact ⟨s, returns_withRetry ((returns_ofExcept hname).bind
      (hexists.bind (returns_checkedName (h n) hcol))), rfl, .refl s, hcol⟩
  · rw [World.find?_of_not_hasCollection hcol] at hexists
    obtain ⟨s', hcreate, hopened⟩ := returns_createCollectionForBot hname hcol
    exact ⟨s', returns_withRetry ((returns_ofExcept hname).bind
      (hexists.bind hcreate.tryCatch)), hopened⟩

/-! ## Points -/

theorem docPoints_eq_filter (v : Stores) (n d : String) : v.docPoints n d =
    (v.points n).rows.filter fun p => (docFilter d).holds p.payload := by
  refine List.filter_congr fun p _ => ?_
  rw [Bool.eq_iff_iff, holds_docFilter]
  exact decide_eq_true_iff

variable (env i s d) in
/-- The points of a document are counted and deleted. -/
theorem returns_deletePoints (hname : collectionName T B = .ok n) :
    ∃ s', Returns (exec env i) .none (deleteByDocId env T B d) s
        (s.stores.docPoints n d).length s' ∧
      s'.stores = s.stores.clear n d ∧ s.Stays s' ∧
      (s.HasCollection n → s'.HasCollection n) := by
  have hexists : Returns (exec env i) .none (call (.collectionExists n)) s
      (s.collections.find? n).isSome s := returns_serve rfl
  cases hcol : s.collections.find? n with
  | none =>
    have hno : ¬ s.HasCollection n := by simp [World.HasCollection, hcol]
    have hzero : (s.stores.docPoints n d).length = 0 := by
      rw [Stores.docPoints, World.points_stores, World.points_of_not_hasCollection hno]
      rfl
    rw [hcol] at hexists
    rw [hzero]
    exact ⟨s, returns_withRetry ((returns_ofExcept hname).bind (hexists.bind returns_pure)),
      (Stores.clear_of_absent hno).symm, .refl s, id⟩
  | some col =>
    have hcount : serve env i (.count n (docFilter d)) s =
        .ok ((s.stores.docPoints n d).length, s) := by
      rw [docPoints_eq_filter, World.points_stores, World.points_of_find? hcol]
      simp only [serve, hcol]
    have hdelete : serve env i (.deletePoints n (docFilter d)) s =
        .ok ((), s.modifyCollection n (·.deletePoints (docFilter d)) fun _ => rfl) := by
      simp only [serve, hcol]
    rw [hcol] at hexists
    refine ⟨_, returns_withRetry ((returns_ofExcept hname).bind (hexists.bind
      ((returns_serve hcount).bind ((returns_serve hdelete).bind returns_pure)))), ?_,
      World.stays_modifyCollection fun _ => rfl, World.hasCollection_modifyCollection.mpr⟩
    exact (serve_deletePoints hdelete).2

/-! ## Rows -/

variable (env i) in
theorem returns_documentSave {row r : Document} (fields : List DocumentField) (now : Timestamp)
    (hrow : s.row row.doc_id = some r) : ∃ s',
      serve env i (.documentSave row fields now) s = .ok ((), s') ∧
      Returns (exec env i) .none (call (.documentSave row fields now)) s () s' ∧ s.Stays s' := by
  have hsave : serve env i (.documentSave row fields now) s =
      .ok ((), { s with documents := s.documents.modify row.doc_id (row.saveFields fields now)
                          (row.doc_id_saveFields fields now) }) := by
    simp only [serve, hrow]
  exact ⟨_, hsave, returns_serve hsave, .of_collections rfl rfl⟩

variable (env i) in
theorem returns_refresh {row r : Document} (hrow : s.row row.doc_id = some r)
    (hname : collectionName x.tenant_id x.bot_id = .ok n) : ∃ s',
      Returns (exec env i) .none (refresh x row) s
        ⟨row.doc_id, row.chunk_count, row.item_count, n, .noChange⟩ s' ∧
      s'.stores = s.stores.refresh row x.now ∧ s.Stays s' := by
  obtain ⟨s', hserve, hsave, hstays⟩ := returns_documentSave env i [.last_refreshed_at] x.now hrow
  exact ⟨s', hsave.bind ((returns_ofExcept hname).bind returns_pure),
    (serve_documentSave hserve).2.2, hstays⟩

variable (env i) in
/-- The row of a delete is marked deleted. -/
theorem returns_erase {row r : Document} (now : Timestamp) (hrow : s.row row.doc_id = some r) :
    ∃ s', Returns (exec env i) .none (call (.documentSave row.asDeleted deleteFields now)) s () s' ∧
      s'.stores = s.stores.erase row now ∧ s.Stays s' := by
  have hrow' : s.row row.asDeleted.doc_id = some r := hrow
  obtain ⟨s', hserve, hsave, hstays⟩ := returns_documentSave env i deleteFields now hrow'
  exact ⟨s', hsave, (serve_documentSave hserve).2.2, hstays⟩

variable (env i s) in
theorem returns_store (bot : Bot) (hfits : x.Fits env) : ∃ s',
      Returns (exec env i) .none (call (.documentUpdateOrCreate x.doc_id
        (uploadDefaults env x bot (x.points env).length) x.now)) s () s' ∧
      s'.stores = s.stores.store x.doc_id
        (uploadDefaults env x bot (x.points env).length) x.now ∧ s.Stays s' := by
  obtain ⟨s', hstore, hstays⟩ : ∃ s', serve env i (.documentUpdateOrCreate x.doc_id
      (uploadDefaults env x bot (x.points env).length) x.now) s = .ok ((), s') ∧ s.Stays s' := by
    simp only [serve, hfits bot]
    cases s.row x.doc_id with
    | none => exact ⟨_, rfl, .of_collections rfl rfl⟩
    | some row => exact ⟨_, rfl, .of_collections rfl rfl⟩
  exact ⟨s', returns_serve hstore, (serve_documentUpdateOrCreate hstore).2.2, hstays⟩

variable (env i) in
theorem returns_upsert (pts : List Point) (hcol : s.HasCollection n) : ∃ s',
      Returns (exec env i) .none (call (.upsert n pts)) s () s' ∧
      s'.stores = s.stores.upsert n pts ∧ s.Stays s' := by
  obtain ⟨col, hfind⟩ := World.hasCollection_iff.mp hcol
  have hupsert : serve env i (.upsert n pts) s =
      .ok ((), s.modifyCollection n (·.upsert pts) fun _ => rfl) := by
    simp only [serve, hfind]
  exact ⟨_, returns_serve hupsert, (serve_upsert hupsert).2.2,
    World.stays_modifyCollection fun _ => rfl⟩

/-! ## Documents -/

variable (env i) in
/-- The writes of an upload all succeed, if its row fits its columns. -/
theorem returns_writeDocument (bot : Bot) (hname : collectionName x.tenant_id x.bot_id = .ok n)
    (hcol : s.HasCollection n) (hfits : x.Fits env) : ∃ s',
      Returns (exec env i) .none
        (writeDocument env x bot (s.row x.doc_id).isSome n (x.points env)) s
        ⟨x.doc_id, (x.points env).length, x.body.items.length, n,
          if (s.row x.doc_id).isSome then .replaced else .created⟩ s' ∧
      s'.stores = x.written env bot s.stores ∧ s.Stays s' := by
  obtain rfl := (collectionName_eq_ok.mp hname).2.2
  -- the old points are deleted on a replace
  obtain ⟨s₁, hprepare, hs₁, hstays₁, hcol₁⟩ : ∃ s₁,
      (∀ (rest : Program UploadResult) r s₂, Returns (exec env i) .none rest s₁ r s₂ →
        Returns (exec env i) .none (do
          if (s.row x.doc_id).isSome then
            let _ ← (deleteByDocId env x.tenant_id x.bot_id x.doc_id).tryCatch
              (onQdrantError "delete_by_doc_id failed during replace: "
                [("doc_id", .str x.doc_id)])
          rest) s r s₂) ∧
      s₁.stores = s.stores.prepare (.upload x) (s.row x.doc_id) ∧ s.Stays s₁ ∧
      s₁.HasCollection (joinName x.tenant_id x.bot_id) := by
    unfold Stores.prepare
    cases hrow : (s.row x.doc_id).isSome with
    | false => exact ⟨s, fun rest r s₂ h => h, rfl, .refl s, hcol⟩
    | true =>
      obtain ⟨s₁, hdelete, hs₁, hstays, hkeeps⟩ := returns_deletePoints env i s x.doc_id hname
      exact ⟨s₁, fun rest r s₂ h => hdelete.tryCatch.bind h, hs₁, hstays, hkeeps hcol⟩
  obtain ⟨s₂, hupsert, hs₂, hstays₂⟩ := returns_upsert env i (x.points env) hcol₁
  obtain ⟨s₃, hstore, hs₃, hstays₃⟩ := returns_store env i s₂ bot hfits
  refine ⟨s₃, hprepare _ _ _ (hupsert.tryCatch.bind (hstore.bind returns_pure)), ?_,
    (hstays₁.trans hstays₂).trans hstays₃⟩
  rw [hs₃, hs₂, hs₁]
  rfl

/-- Why no upload of these contents is indexed. -/
def Upload.refusal (env : Env) (x : Upload) : Option Exc :=
  if flatChunks env x.body = [] then
    some (.uploadError .noEmbeddableContent "No chunks survived after chunking."
      [("items_count", .int x.body.items.length)])
  else if maxChunksPerDoc < (flatChunks env x.body).length then
    some (.uploadError .documentTooLarge
      s!"Document produces {(flatChunks env x.body).length} chunks, max is {maxChunksPerDoc}"
      [("chunk_count", .int (flatChunks env x.body).length), ("max", .int maxChunksPerDoc)])
  else
    match checkTexts (x.texts env) with
    | .error exc =>
      some (.upload .embedder "Embedder failed: " (some exc)
        [("chunk_count", .int (flatChunks env x.body).length)] none)
    | .ok () => none

/-- What is not refused has chunks, not too many, and no blank one. -/
theorem Upload.refusal_eq_none : x.refusal env = none ↔ flatChunks env x.body ≠ [] ∧
    ¬ maxChunksPerDoc < (flatChunks env x.body).length ∧
    checkTexts (x.texts env) = .ok () := by
  unfold refusal
  split
  · next hnil => exact ⟨nofun, fun h => absurd hnil h.1⟩
  · next hnil =>
    split
    · next hlarge => exact ⟨nofun, fun h => absurd hlarge h.2.1⟩
    · next hlarge =>
      split
      · next hrefused => exact ⟨nofun, fun h => nomatch hrefused.symm.trans h.2.2⟩
      · next hchecked => exact ⟨fun _ => ⟨hnil, hlarge, hchecked⟩, fun _ => rfl⟩

/-- What is indexed has chunks, and not too many. -/
theorem Upload.length_of_refusal (h : x.refusal env = none) :
    1 ≤ (x.points env).length ∧ (x.points env).length ≤ maxChunksPerDoc := by
  obtain ⟨hnil, hlarge, -⟩ := refusal_eq_none.mp h
  rw [x.length_points]
  exact ⟨List.length_pos_of_ne_nil hnil, Nat.le_of_not_lt hlarge⟩

theorem returns_loadTokenizer : Returns (exec env i) .none (call .loadTokenizer) s () s :=
  returns_serve rfl

variable (env i) in
theorem stops_indexDocument (bot : Bot) (is_replace : Bool) {e : Exc}
    (hname : collectionName x.tenant_id x.bot_id = .ok n) (h : s.Conforms)
    (he : x.refusal env = some e) : ∃ s',
      Stops (exec env i) .none (indexDocument env x bot is_replace) s (.error e) s' ∧
      s'.stores = s.stores ∧ s.Stays s' := by
  obtain ⟨s', hcol, hopened⟩ := returns_getOrCreateCollection env i hname h
  refine ⟨s', hcol.tryCatch.stops_bind (returns_loadTokenizer.stops_bind ?_), hopened.stores,
    hopened.stays⟩
  unfold Upload.refusal at he
  split at he
  · next hnil =>
    cases he
    rw [hnil]
    exact stops_throw
  · next hnil =>
    rw [if_neg hnil]
    split at he
    · next hlarge =>
      cases he
      rw [if_pos hlarge]
      exact stops_throw
    · next hlarge =>
      rw [if_neg hlarge]
      split at he
      · next exc hrefused =>
        cases he
        have hembed :
            Stops (exec env i) .none (embedPassages (x.texts env)) s' (.error exc) s' := by
          unfold embedPassages
          rw [hrefused]
          exact stops_throw
        exact Stops.bind_error (hembed.tryCatch_error stops_throw)
      · cases he

variable (env i) in
theorem returns_indexDocument (bot : Bot) (hname : collectionName x.tenant_id x.bot_id = .ok n)
    (h : s.Conforms) (hnone : x.refusal env = none) (hfits : x.Fits env) : ∃ s',
      Returns (exec env i) .none (indexDocument env x bot (s.row x.doc_id).isSome) s
        ⟨x.doc_id, (x.points env).length, x.body.items.length, n,
          if (s.row x.doc_id).isSome then .replaced else .created⟩ s' ∧
      s'.stores = x.written env bot s.stores ∧ s.Stays s' := by
  obtain ⟨s₁, hcol, hopened⟩ := returns_getOrCreateCollection env i hname h
  obtain ⟨s', hwrite, hs', hstays⟩ := returns_writeDocument env i bot hname
    hopened.collection hfits
  have hrow : s₁.row x.doc_id = s.row x.doc_id :=
    congrArg (Stores.row · x.doc_id) hopened.stores
  rw [hrow] at hwrite
  rw [hopened.stores] at hs'
  refine ⟨s', hcol.tryCatch.bind (returns_loadTokenizer.bind ?_), hs', hopened.stays.trans hstays⟩
  obtain ⟨hnil, hlarge, hchecked⟩ := Upload.refusal_eq_none.mp hnone
  have hembed : Returns (exec env i) .none (embedPassages (x.texts env)) s₁
      ((x.texts env).map env.encode) s₁ := by
    rw [embedPassages_of_checked hchecked]
    exact returns_serve rfl
  rw [if_neg hnil, if_neg hlarge]
  refine hembed.tryCatch.bind ?_
  rw [Upload.texts, buildPoints_encode]
  exact hwrite

/-! ## The lock -/

variable (env i) in
/-- The body runs under the lock, which is given back. -/
theorem stops_uploadLock {α : Type} (polls : Nat) (body : Program α) {k : LockKey}
    (hk : advisoryLockKey env.sha256 T B d = .ok k) (hfree : ∀ j ∈ s.holder k, j = i) :
    ∃ locks, ∀ r s₂, Stops (exec env i) .none body { s with locks := locks } r s₂ →
      ∃ s', Stops (exec env i) .none (uploadLock env T B d polls body) s r s' ∧
        s'.stores = s₂.stores ∧ s₂.Stays s' := by
  obtain ⟨locks, hacquire⟩ : ∃ locks, Returns (exec env i) .none
      (acquireLock k (concurrentUploadError T B d) polls) s () { s with locks := locks } :=
    returns_acquireLock polls hfree
  refine ⟨locks, fun r s₂ hbody => ?_⟩
  have hunlock : Returns (exec env i) .none (call (.advisoryUnlock k)) s₂ () _ := returns_serve rfl
  exact ⟨_, (returns_ofExcept hk).stops_bind (hacquire.stops_bind (hbody.tryFinally hunlock)), rfl,
    .of_collections rfl rfl⟩

end QdrantRag
