import QdrantRag.Model.Serializers
import QdrantRag.Verify.Sequential

/-! # Accepted bodies and the rows they are saved in

What `UploadBodySerializer` accepts is well formed (`accepted_of_ok`), and an upload that has come
to saving its row has few enough chunks and valid slugs (`Write.saves`). It remains when the row of
an accepted body can be written (`commits_iff`). -/

namespace QdrantRag
open Effect Text Checked

variable {lib : Drf} {α ι : Type} {env : Env} {body : UploadBody}

/-! ## What a field accepts -/

/-- All values the field accepts are in `P`. -/
def Ensures (field : ι → Field α) (P : α → Prop) : Prop := ∀ data a, field data = .ok a → P a

theorem ensures_charField (lib : Drf) (allow_blank : Bool) :
    Ensures (charField lib allow_blank) fun s =>
      strip s = s ∧ (allow_blank = false → s ≠ "") := by
  intro data s h
  unfold charField at h
  simp only at h
  split at h
  · next hblank =>
    split at h
    · next hallow =>
      cases h
      exact ⟨hblank ▸ strip_strip _, fun hno => absurd hallow (by simp [hno])⟩
    · cases h
  · next hne =>
    split at h
    iterate 3
      split at h
      · cases h
      · cases h
        exact ⟨strip_strip _, fun _ => hne⟩
    · cases h

theorem ensures_integerField (lib : Drf) (min_value : Int) :
    Ensures (integerField lib min_value) (min_value ≤ ·) := by
  have hparse {data : PyValue} {i : Int} (h : integerField.parse lib min_value data = .ok i) :
      min_value ≤ i := by
    unfold integerField.parse at h
    split at h
    · cases h
    · split at h
      · cases h
      · next hge =>
        cases h
        exact Int.not_lt.mp hge
  intro data i h
  unfold integerField at h
  split at h
  · split at h
    · cases h
    · exact hparse h
  · exact hparse h

theorem ensures_choiceField (lib : Drf) (choices : List String) :
    Ensures (choiceField lib choices) (· ∈ choices) := by
  intro data s h
  unfold choiceField at h
  split at h
  · next hmem =>
    cases h
    exact hmem
  · cases h

namespace Ensures

variable {field : PyValue → Field α} {P : α → Prop}

theorem notNull (h : Ensures field P) : Ensures (notNull field) P := by
  intro data a ha
  cases data with
  | none => cases ha
  | _ => exact h _ a ha

theorem required (h : Ensures field P) : Ensures (required field) P := by
  intro data a ha
  cases data with
  | none => cases ha
  | some data => exact h.notNull data a ha

theorem withDefault {default : α} (h : Ensures field P) (hd : P default) :
    Ensures (withDefault default field) P := by
  intro data a ha
  cases data with
  | none =>
    cases ha
    exact hd
  | some data => exact h.notNull data a ha

theorem optional (h : Ensures field P) :
    Ensures (optional field) fun a => ∀ b, a = some b → P b := by
  rintro data _ ha b rfl
  cases data with
  | none => cases ha
  | some data =>
    obtain ⟨b, hb, ⟨⟩⟩ := map_eq_ok.mp ha
    exact h.notNull data b hb

theorem nullable (h : Ensures field P) :
    Ensures (nullable field) fun a => ∀ b, getKey a = some b → P b := by
  intro data a ha b hb
  unfold QdrantRag.nullable at ha
  split at ha
  · cases ha
    cases hb
  · cases ha
    cases hb
  · obtain ⟨b', hb', rfl⟩ := map_eq_ok.mp ha
    cases hb
    exact h _ b hb'

theorem children (h : Ensures field P) :
    Ensures (children field) fun as => ∀ a ∈ as, P a := by
  intro xs as has a ha
  obtain ⟨c, hc, he⟩ := exists_of_forall₂ (all_eq_ok.mp has) ha
  obtain ⟨⟨x, i⟩, -, rfl⟩ := List.mem_map.mp hc
  exact h.notNull x a (mapErrors_eq_ok.mp he)

theorem listField (h : Ensures field P) :
    Ensures (listField field) fun as => ∀ a ∈ as, P a := by
  intro data as has
  cases data with
  | list xs => exact h.children xs as has
  | _ => cases has

theorem manyField (h : Ensures field P) :
    Ensures (manyField field) fun as => ∀ a ∈ as, P a := by
  intro data as has
  cases data with
  | list xs => exact h.children xs as has
  | _ => cases has

theorem dictField {fields : List (String × PyValue) → Field α} (h : Ensures fields P) :
    Ensures (dictField fields) P := by
  intro data a ha
  cases data with
  | dict kvs => exact h kvs a ha
  | _ => cases ha

theorem atKey {field : Option PyValue → Field α} (h : Ensures field P) (key : String) :
    Ensures (atKey · key field) P := fun _ a ha => h _ a (mapErrors_eq_ok.mp ha)

end Ensures

/-! ## What is accepted -/

/-- An accepted item. -/
structure UploadItem.Accepted (item : UploadItem) : Prop where
  content : strip item.content = item.content ∧ item.content ≠ ""
  section_path : ∀ part ∈ item.section_path, strip part = part
  page_number : ∀ n, getKey item.page_number = some n → 1 ≤ n
  item_index : ∀ n, item.item_index = some n → 0 ≤ n

/-- An accepted body. -/
structure UploadBody.Accepted (body : UploadBody) : Prop where
  source_type : body.source_type ∈ sourceTypes
  source_filename : ∀ s, getKey body.source_filename = some s → strip s = s
  source_url : ∀ s, getKey body.source_url = some s → strip s = s
  content_hash : ∀ s, getKey body.content_hash = some s → strip s = s
  items_ne_nil : body.items ≠ []
  items : ∀ item ∈ body.items, item.Accepted

theorem ensures_uploadItemSerializer (lib : Drf) :
    Ensures (uploadItemSerializer lib) UploadItem.Accepted := by
  refine Ensures.dictField fun kvs item h => ?_
  obtain ⟨⟨content, section_path, page_number, item_index⟩, hfields, rfl⟩ :=
    map_eq_ok.mp h
  simp only [both_eq_ok] at hfields
  obtain ⟨hcontent, hpath, hpage, hindex⟩ := hfields
  obtain ⟨hstrip, hne⟩ := (ensures_charField lib false).required.atKey _ _ _ hcontent
  refine ⟨⟨hstrip, hne rfl⟩, fun part hpart => ?_, ?_, ?_⟩
  · have hlist := (ensures_charField lib true).listField.withDefault (List.forall_mem_nil _)
    exact (hlist.atKey _ _ _ hpath part hpart).1
  · exact (ensures_integerField lib 1).nullable.atKey _ _ _ hpage
  · exact (ensures_integerField lib 0).optional.atKey _ _ _ hindex

/-- `validate` changes nothing and lets no body without items through. -/
theorem validate_eq_ok {kvs : List (String × PyValue)} {attrs : UploadBody}
    (h : validate kvs attrs = .ok body) : body = attrs ∧ body.items ≠ [] := by
  unfold validate validationError at h
  split at h
  · cases h
  · split at h
    · cases h
    · split at h
      · cases h
      · split at h
        · cases h
        · next hne =>
          cases h
          exact ⟨rfl, hne⟩

/-- **What is accepted is well formed.** -/
theorem accepted_of_ok {raw : PyValue} (h : uploadBodySerializer lib raw = .ok body) :
    body.Accepted := by
  have hdict : Ensures (dictField (validated lib)) UploadBody.Accepted := by
    refine Ensures.dictField fun kvs body h => ?_
    unfold validated at h
    split at h
    · cases h
    · next attrs hattrs =>
      obtain ⟨rfl, hne⟩ := validate_eq_ok h
      obtain ⟨⟨doc_id, source_type, source_filename, source_url, content_hash, items⟩, hfields,
        rfl⟩ := map_eq_ok.mp hattrs
      simp only [both_eq_ok] at hfields
      obtain ⟨-, htype, hfile, hurl, hhash, hitems⟩ := hfields
      have hchar := (ensures_charField lib true).nullable.atKey
      exact {
        source_type :=
          ((ensures_choiceField lib sourceTypes).withDefault (by decide)).atKey _ _ _ htype
        source_filename := fun s hs => (hchar _ _ _ hfile s hs).1
        source_url := fun s hs => (hchar _ _ _ hurl s hs).1
        content_hash := fun s hs => (hchar _ _ _ hhash s hs).1
        items_ne_nil := hne
        items := (ensures_uploadItemSerializer lib).manyField.required.atKey _ _ _ hitems }
  unfold uploadBodySerializer at h
  split at h
  · cases h
  · exact hdict _ _ h

/-! ## The columns -/

@[simp] theorem PyValue.allEncodable_eq (xs : List PyValue) :
    allEncodable xs = xs.all jsonEncodable := by
  induction xs with
  | nil => rfl
  | cons x xs ih => rw [allEncodable, ih, List.all_cons]

@[simp] theorem PyValue.valuesEncodable_eq (kvs : List (String × PyValue)) :
    valuesEncodable kvs = kvs.all (·.2.jsonEncodable) := by
  induction kvs with
  | nil => rfl
  | cons kv kvs ih => rw [valuesEncodable, ih, List.all_cons]

theorem all_optionalKey {key : String} {toPy : α → PyValue} {field : Option (Option α)}
    (h : ∀ a, (toPy a).jsonEncodable = true) :
    (optionalKey key toPy field).all (·.2.jsonEncodable) = true := by
  match field with
  | none => rfl
  | some none => rfl
  | some (some a) => simp [optionalKey, h]

theorem UploadItem.jsonEncodable_toPy (item : UploadItem) : item.toPy.jsonEncodable = true := by
  have hpath : (item.section_path.map PyValue.str).all PyValue.jsonEncodable = true := by
    simp [List.all_map, PyValue.jsonEncodable]
  have hint (i : Int) : (PyValue.int i).jsonEncodable = true := rfl
  simp [toPy, PyValue.jsonEncodable, hpath, all_optionalKey hint]

/-- The only value in a body that JSON does not have is the client's document id. -/
theorem UploadBody.jsonEncodable_toPy (body : UploadBody) :
    body.toPy.jsonEncodable = body.doc_id.isNone := by
  have hstr (s : String) : (PyValue.str s).jsonEncodable = true := rfl
  have hitems : (body.items.map UploadItem.toPy).all PyValue.jsonEncodable = true := by
    simp [List.all_map, UploadItem.jsonEncodable_toPy]
  have hid : (optionalKey "doc_id" .uuid (body.doc_id.map some)).all (·.2.jsonEncodable) =
      body.doc_id.isNone := by
    cases body.doc_id <;> rfl
  simp only [toPy, PyValue.jsonEncodable, PyValue.valuesEncodable_eq, PyValue.allEncodable_eq,
    List.all_append, List.all_cons, List.all_nil, Bool.and_true, all_optionalKey hstr, hid, hitems]

/-- Each item that is not blank gives at least one chunk. -/
theorem length_items_le_flatChunks (env : Env) (body : UploadBody)
    (h : ∀ item ∈ body.items, strip item.content ≠ "") :
    body.items.length ≤ (flatChunks env body).length := by
  have hsum (l : List (UploadItem × Nat)) (hl : ∀ e ∈ l, strip e.1.content ≠ "") :
      l.length ≤ (l.flatMap fun e =>
        (chunkItem env e.1.content body.source_type).map fun c => (e.2, e.1, c)).length := by
    induction l with
    | nil => exact Nat.le_refl 0
    | cons e l ih =>
      have hne := chunkItem_ne_nil env body.source_type (hl e List.mem_cons_self)
      have hpos := List.length_pos_of_ne_nil hne
      have := ih fun e he => hl e (List.mem_cons_of_mem _ he)
      simp only [List.flatMap_cons, List.length_append, List.length_map, List.length_cons]
      omega
  rw [← List.length_zipIdx]
  exact hsum body.items.zipIdx fun e he => h e.1 (List.fst_mem_of_mem_zipIdx he)

/-- A hash that is computed fits its column; one that is given is its own length. -/
theorem length_incomingHash_le_iff (env : Env) {body : UploadBody}
    (h : ∀ s, getKey body.content_hash = some s → strip s = s) :
    (incomingHash env body).length ≤ 80 ↔
      ∀ s, getKey body.content_hash = some s → s.length ≤ 80 := by
  have hcomputed : (computeContentHash env body.items).length ≤ 80 := by
    rw [computeContentHash, Digest.length_hexdigest]
    decide
  unfold incomingHash
  cases hk : getKey body.content_hash with
  | none =>
    have hblank : strip "" = "" := by decide +kernel
    simp [hblank, hcomputed]
  | some s =>
    simp only [Option.getD_some, h s hk, Option.some.injEq, forall_eq']
    split
    · next he => simp [he, hcomputed]
    · exact .rfl

theorem DocumentDefaults.check_eq_ok {f : DocumentDefaults} :
    f.check = .ok () ↔ f.raw_payload.jsonEncodable = true ∧ f.tenant_id.length ≤ 40 ∧
      f.bot_id.length ≤ 40 ∧ f.source_type.length ≤ 20 ∧
      (∀ n, f.source_filename = some n → n.length ≤ 500) ∧ f.content_hash.length ≤ 80 ∧
      f.chunk_count ≤ maxInt32 ∧ f.item_count ≤ maxInt32 := by
  unfold check
  cases f.raw_payload.jsonEncodable <;> simp

/-- The row of an accepted body fits its columns where the body has no document id and neither its
file name nor its content hash is too long. -/
theorem UploadBody.Accepted.check_iff {x : Upload} (h : x.body.Accepted) (env : Env) (bot : Bot)
    {chunk_count : Nat} (hT : slugMatch x.tenant_id = true) (hB : slugMatch x.bot_id = true)
    (hitems : x.body.items.length ≤ chunk_count) (hmax : chunk_count ≤ maxChunksPerDoc) :
    (uploadDefaults env x bot chunk_count).check = .ok () ↔
      x.body.doc_id = none ∧ (∀ n, getKey x.body.source_filename = some n → n.length ≤ 500) ∧
        ∀ s, getKey x.body.content_hash = some s → s.length ≤ 80 := by
  have hsource : ∀ name ∈ sourceTypes, name.length ≤ 20 := by decide
  have hchunks : chunk_count ≤ maxInt32 := hmax.trans (by decide)
  rw [DocumentDefaults.check_eq_ok, ← length_incomingHash_le_iff env h.content_hash,
    ← Option.isNone_iff_eq_none, ← UploadBody.jsonEncodable_toPy]
  constructor
  · rintro ⟨hjson, -, -, -, hfile, hhash, -⟩
    exact ⟨hjson, hfile, hhash⟩
  · rintro ⟨hjson, hfile, hhash⟩
    exact ⟨hjson, slugMatch_length hT, slugMatch_length hB, hsource _ h.source_type, hfile, hhash,
      hchunks, hitems.trans hchunks⟩

/-! ## Saving the row -/

variable {i : Nat} {w : Write} {s : World} {ev : Call} {φ φ' : Phase}

/-- The call saves the row of an upload under its lock, having upserted its points. -/
def Saves (env : Env) (w : Write) (ev : Call) : Prop :=
  ∃ x bot, w = .upload x ∧ ev.op = .documentUpdateOrCreate x.doc_id
      (uploadDefaults env x bot (x.points env).length) x.now ∧
    (∃ k, w.key env = .ok k) ∧ (x.points env).length ≤ maxChunksPerDoc

theorem Ran.saves {v₀ : Stores} {tr : List Call} {d : String} {f : DocumentDefaults}
    {now : Timestamp} (h : Ran env i w v₀ tr ev.pre φ) (hlock : HoldsLock env i w φ ev.pre)
    (hs : Step env i w φ ev φ') (hop : ev.op = .documentUpdateOrCreate d f now) :
    Saves env w ev := by
  have hsaved {x : Upload} {bot : Bot} {ex : Option Document} {c : Fault} {s : World}
      (hw : w = .upload x) (h : Ran env i w v₀ tr s (.holding (.upserted ex)))
      (hlock : HoldsLock env i w (.holding (.upserted ex)) s) :
      Saves env w ⟨.documentUpdateOrCreate w.doc_id
        (uploadDefaults env x bot (x.points env).length) x.now, c, s⟩ := by
    obtain ⟨x', hw', -, -, -, -, hmax⟩ := h.reached
    cases hw.symm.trans hw'
    obtain ⟨k, hk, -⟩ := hlock _ rfl
    exact ⟨x, bot, hw, by rw [hw]; rfl, ⟨k, hk⟩, hmax⟩
  cases hs with
  | store hw | storeFails hw => exact hsaved hw h hlock
  | quiet _ hq | register hq | collection _ _ hq =>
    cases hop
    cases hq
  | _ => cases hop

/-- A request run alone that has made the calls `tr` under its lock. -/
structure Saved (env : Env) (i : Nat) (w : Write) (v₀ : Stores) (tr : List Call) (s : World)
    (φ : Phase) : Prop where
  ran : Ran env i w v₀ tr s φ
  lock : HoldsLock env i w φ s
  saves : ∀ ev ∈ tr, ∀ d f now, ev.op = .documentUpdateOrCreate d f now → Saves env w ev

theorem Saved.step {v₀ : Stores} {tr : List Call} (h : Saved env i w v₀ tr ev.pre φ)
    (hs : Step env i w φ ev φ') : Saved env i w v₀ (tr ++ [ev]) (ev.post (exec env i)) φ' where
  ran := h.ran.step hs
  lock := h.lock.step hs
  saves ev' hev' d f now hop := by
    rcases List.mem_append.mp hev' with hev' | hev'
    · exact h.saves ev' hev' d f now hop
    · obtain rfl := List.mem_singleton.mp hev'
      exact h.ran.saves h.lock hs hop

/-- **A request that comes to saving a row** is an upload with valid slugs and few enough chunks. -/
theorem Write.saves (env : Env) (i : Nat) (w : Write) (plan : Nat → Fault) (s : World)
    (hev : ev ∈ ((w.program env).run (exec env i) plan s).trace) {d : String}
    {f : DocumentDefaults} {now : Timestamp} (hop : ev.op = .documentUpdateOrCreate d f now) :
    Saves env w ev := by
  have h0 : Saved env i w s.stores [] s .waiting :=
    ⟨⟨⟨rfl, rfl⟩, trivial, fun _ => rfl, fun _ => .inl rfl⟩, .waiting,
      fun _ hev => absurd hev List.not_mem_nil⟩
  obtain ⟨φ, h, -⟩ := w.run_rule (Saved env i w s.stores) (fun _ => True)
    (fun _ _ _ _ h hs _ => h.step hs) plan h0 fun _ _ => trivial
  exact h.saves ev hev d f now hop

/-- Postgres being up, a row is saved if it fits its columns. -/
theorem ok_updateOrCreate {d : String} {f : DocumentDefaults} {now : Timestamp} :
    Event.ok (exec env i) ⟨.documentUpdateOrCreate d f now, .none, s⟩ = true ↔
      f.check = .ok () := by
  cases hcheck : f.check with
  | error e =>
    simp [Event.ok, exec, Op.isLock, Op.isLocal, serve, hcheck, Except.isOk, Except.toBool]
  | ok a =>
    cases hrow : s.row d <;>
      simp [Event.ok, exec, Op.isLock, Op.isLocal, serve, hcheck, hrow, Except.isOk, Except.toBool]

/-- **The row of an accepted body can be written** if and only if the body carries no document id,
which the JSON encoder does not know, and neither its file name nor its content hash is longer than
its column. -/
theorem commits_iff (lib : Drf) (raw : PyValue) (env : Env) (x : Upload)
    (hbody : uploadBodySerializer lib raw = .ok x.body) (session : Nat) (faults : Nat → Fault)
    (s : World) (ev : Call)
    (hev : ev ∈ (Job.run env ⟨.write (.upload x), session, faults⟩ s).trace) (d : String)
    (f : DocumentDefaults) (now : Timestamp) (hop : ev.op = .documentUpdateOrCreate d f now)
    (hup : ev.choice = .none) :
    ev.ok (exec env session) = true ↔
      x.body.doc_id = none ∧ (∀ n, getKey x.body.source_filename = some n → n.length ≤ 500) ∧
        ∀ h, getKey x.body.content_hash = some h → h.length ≤ 80 := by
  obtain ⟨x', bot, hx, hop', hkey, hmax⟩ := Write.saves env session (.upload x) faults s hev hop
  cases hx
  have hacc := accepted_of_ok hbody
  obtain ⟨hT, hB, -⟩ := advisoryLockKey_isOk.mp hkey
  have hitems := length_items_le_flatChunks env x.body fun item hitem => by
    obtain ⟨hstrip, hne⟩ := (hacc.items item hitem).content
    rwa [hstrip]
  rw [← x.length_points] at hitems
  rw [← hacc.check_iff env bot hT hB hitems hmax]
  obtain ⟨op, choice, pre⟩ := ev
  subst hup hop'
  exact ok_updateOrCreate

/-- The call saves a row, and Postgres is up. -/
def Call.isSave : Call → Bool
  | ⟨.documentUpdateOrCreate .., .none, _⟩ => true
  | _ => false

theorem Call.of_isSave (h : Call.isSave ev = true) :
    (∃ d f now, ev.op = .documentUpdateOrCreate d f now) ∧ ev.choice = .none := by
  unfold isSave at h
  split at h
  · exact ⟨⟨_, _, _, rfl⟩, rfl⟩
  · cases h

/-- UUIDs are read from their canonical form. -/
def Sample.drf : Drf where
  str := fun _ => ""
  int := fun _ => none
  uuid := fun data =>
    match data with
    | .str s => if s = docA then some ⟨docA⟩ else none
    | _ => none

/-- A posted body of one item. -/
def Sample.posted (keys : List (String × PyValue)) : PyValue :=
  .dict (keys ++ [("content_hash", .str "h1"),
    ("items", .list [.dict [("content", .str "Hello")]])])

def Sample.greeting : Upload := upload acme docA "h1" ["Hello"]

/-- An upload whose client gave the document id. -/
def Sample.named : Upload := { greeting with body := { greeting.body with doc_id := some ⟨docA⟩ } }

theorem commits_iff_hello :
    ∃ ev ∈ (Job.run Sample.env ⟨.write (.upload Sample.greeting), 0, Sample.served⟩
      World.empty).trace, Call.isSave ev = true ∧ ev.ok (exec Sample.env 0) = true := by
  obtain ⟨ev, hev, hsave⟩ : ∃ ev ∈ (Job.run Sample.env
      ⟨.write (.upload Sample.greeting), 0, Sample.served⟩ World.empty).trace,
      Call.isSave ev = true := by decide +kernel
  obtain ⟨⟨d, f, now, hop⟩, hup⟩ := Call.of_isSave hsave
  have hbody : uploadBodySerializer Sample.drf (Sample.posted []) = .ok Sample.greeting.body := by
    decide +kernel
  have hfile : ∀ n, getKey Sample.greeting.body.source_filename = some n → n.length ≤ 500 := by
    rintro _ ⟨⟩
  have hhash : ∀ h, getKey Sample.greeting.body.content_hash = some h → h.length ≤ 80 := by
    rintro _ ⟨⟩
    decide
  exact ⟨ev, hev, hsave, (commits_iff _ _ _ _ hbody _ _ _ ev hev d f now hop hup).mpr
    ⟨rfl, hfile, hhash⟩⟩

/-- A body with a document id is accepted; its row cannot be written, and the points stay. -/
theorem accepted_not_committed :
    uploadBodySerializer Sample.drf (Sample.posted [("doc_id", .str Sample.docA)]) =
      .ok Sample.named.body ∧
    (∃ ev ∈ (Job.run Sample.env ⟨.write (.upload Sample.named), 0, Sample.served⟩
      World.empty).trace, Call.isSave ev = true ∧ ev.ok (exec Sample.env 0) = false) ∧
    (Job.run Sample.env ⟨.write (.upload Sample.named), 0, Sample.served⟩
      World.empty).reply.isOk = false ∧
    Sample.contents (Job.run Sample.env ⟨.write (.upload Sample.named), 0, Sample.served⟩
      World.empty).state Sample.support = [(Sample.docA, "h1")] := by
  decide +kernel

end QdrantRag
