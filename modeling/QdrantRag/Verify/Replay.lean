import QdrantRag.Verify.Commit

/-! # Bodies posted again

The row of a document keeps the body it was uploaded with (`raw_payload`). A body that was accepted
is accepted again in the form it is kept in, and gives the same (`raw_payload_accepted`). Each field
is `Stable`: what it has accepted it reads again. -/

namespace QdrantRag
open Effect Text Checked

variable {lib : Drf} {α : Type} {field : PyValue → Field α} {toPy : α → PyValue} {body : UploadBody}

/-! ## Fields that read what they have accepted -/

/-- The field reads the value as `a`, and it is no null. -/
structure Reads (field : PyValue → Field α) (data : PyValue) (a : α) : Prop where
  ne_none : data ≠ .none
  reads : field data = .ok a

/-- What the field accepts, it reads again once `toPy` has written it. -/
def Stable (field : PyValue → Field α) (toPy : α → PyValue) : Prop :=
  Ensures field fun a => Reads field (toPy a) a

theorem Reads.notNull {data : PyValue} {a : α} (h : Reads field data a) :
    notNull field data = .ok a := by
  have hne := h.ne_none
  cases data with
  | none => exact absurd rfl hne
  | _ => exact h.reads

theorem stable_charField (lib : Drf) (allow_blank : Bool) :
    Stable (charField lib allow_blank) .str := by
  have hread {s : String} (hstrip : strip s = s) (hblank : s = "" → allow_blank = true)
      (hnul : '\x00' ∉ s.toList) : Reads (charField lib allow_blank) (.str s) s := by
    refine ⟨fun h => PyValue.noConfusion h, ?_⟩
    by_cases hs : s = ""
    · subst hs
      simp [charField, Drf.text, hstrip, hblank rfl]
    · simp [charField, Drf.text, hstrip, hs, hnul]
  have hempty : strip "" = "" := by decide +kernel
  intro data s h
  unfold charField at h
  simp only at h
  split at h
  · split at h
    · next hallow =>
      cases h
      exact hread hempty (fun _ => hallow) (by decide)
    · cases h
  · next hne =>
    split at h
    iterate 3
      split at h
      · cases h
      · next hnul =>
        cases h
        exact hread (strip_strip _) (fun he => absurd he hne)
          fun hmem => hnul (List.contains_iff_mem.mpr hmem)
    · cases h

/-- What the framework has read as an integer, it reads again as the integer. -/
def Drf.RereadsInts (lib : Drf) : Prop :=
  ∀ data i, lib.int data = some i → lib.int (.int i) = some i

/-- A `UUIDField` takes a UUID. -/
def Drf.ReadsUuids (lib : Drf) : Prop := ∀ u, lib.uuid (.uuid u) = some u

theorem integerField_parse_eq_ok {min_value : Int} {data : PyValue} {i : Int} :
    integerField.parse lib min_value data = .ok i ↔ lib.int data = some i ∧ min_value ≤ i := by
  unfold integerField.parse
  cases lib.int data with
  | none => exact iff_of_false (fun h => by cases h) fun ⟨h, _⟩ => by cases h
  | some k =>
    dsimp only
    split
    · next hlt =>
      refine iff_of_false (fun h => by cases h) fun ⟨h, hle⟩ => ?_
      cases h
      omega
    · next hle =>
      constructor
      · rintro ⟨⟩
        exact ⟨rfl, Int.not_lt.mp hle⟩
      · rintro ⟨⟨⟩, -⟩
        rfl

theorem stable_integerField (hint : lib.RereadsInts) (min_value : Int) :
    Stable (integerField lib min_value) .int := by
  intro data i h
  have hparse : integerField.parse lib min_value data = .ok i := by
    unfold integerField at h
    split at h
    · split at h
      · cases h
      · exact h
    · exact h
  obtain ⟨hread, hmin⟩ := integerField_parse_eq_ok.mp hparse
  exact ⟨fun h => PyValue.noConfusion h, integerField_parse_eq_ok.mpr ⟨hint _ _ hread, hmin⟩⟩

theorem stable_uuidField (huuid : lib.ReadsUuids) : Stable (uuidField lib) .uuid := by
  intro data u _
  refine ⟨fun h => PyValue.noConfusion h, ?_⟩
  rw [uuidField, huuid u]

theorem stable_choiceField (lib : Drf) (choices : List String) :
    Stable (choiceField lib choices) .str := by
  intro data s h
  have hs : s ∈ choices := ensures_choiceField lib choices data s h
  exact ⟨fun h => PyValue.noConfusion h, if_pos hs⟩

/-! ## Lists -/

theorem children_map {as : List α} (h : ∀ a ∈ as, Reads field (toPy a) a) :
    children field (as.map toPy) = .ok as := by
  have hall {g : PyValue × Nat → Field α} (k : Nat)
      (hg : ∀ a ∈ as, ∀ i, g (toPy a, i) = .ok a) :
      all (((as.map toPy).zipIdx k).map g) = .ok as := by
    clear h
    induction as generalizing k with
    | nil => rfl
    | cons a as ih =>
      rw [List.map_cons, List.zipIdx_cons, List.map_cons, all, map_eq_ok]
      refine ⟨(a, as), both_eq_ok.mpr ⟨hg a List.mem_cons_self k, ih _ fun b hb => ?_⟩, rfl⟩
      exact hg b (List.mem_cons_of_mem _ hb)
  exact hall 0 fun a ha i => mapErrors_eq_ok.mpr (h a ha).notNull

theorem stable_manyField (h : Stable field toPy) :
    Stable (manyField field) fun as => .list (as.map toPy) := by
  intro data as has
  exact ⟨fun h => PyValue.noConfusion h, children_map (h.manyField data as has)⟩

/-! ## Keys -/

/-- The value under a key, where the key is written. -/
def keyValue (toPy : α → PyValue) : Option (Option α) → Option PyValue
  | none => none
  | some none => some .none
  | some (some a) => some (toPy a)

theorem optionalKey_eq (key : String) (value : Option (Option α)) :
    optionalKey key toPy value = ((keyValue toPy value).map (key, ·)).toList := by
  match value with
  | none | some none | some (some a) => rfl

theorem lookup_optionalKey_self (key : String) (value : Option (Option α)) :
    (optionalKey key toPy value).lookup key = keyValue toPy value := by
  rw [optionalKey_eq]
  cases keyValue toPy value with
  | none => rfl
  | some v => simp

theorem lookup_optionalKey_of_ne {key key' : String} (hne : key' ≠ key)
    (value : Option (Option α)) : (optionalKey key toPy value).lookup key' = none := by
  rw [optionalKey_eq]
  cases keyValue toPy value with
  | none => rfl
  | some v => simp [List.lookup_cons, beq_eq_false_iff_ne.mpr hne]

theorem nullable_keyValue {value : Option (Option α)}
    (h : ∀ a, getKey value = some a → Reads field (toPy a) a) :
    nullable field (keyValue toPy value) = .ok value := by
  match value with
  | none | some none => rfl
  | some (some a) =>
    obtain ⟨hne, hreads⟩ := h a rfl
    rw [keyValue]
    unfold nullable
    split
    · next he => cases he
    · next he => exact absurd (Option.some.inj he) hne
    · next he =>
      cases he
      rw [hreads]
      rfl

theorem optional_keyValue {value : Option α}
    (h : ∀ a, value = some a → Reads field (toPy a) a) :
    optional field (keyValue toPy (value.map some)) = .ok value := by
  cases value with
  | none => rfl
  | some a => exact map_eq_ok.mpr ⟨a, (h a rfl).notNull, rfl⟩

/-! ## The serializers -/

theorem stable_uploadItemSerializer (hint : lib.RereadsInts) :
    Stable (uploadItemSerializer lib) UploadItem.toPy := by
  refine Ensures.dictField fun kvs item h => ⟨fun h => PyValue.noConfusion h, ?_⟩
  obtain ⟨⟨content, section_path, page_number, item_index⟩, hfields, rfl⟩ := map_eq_ok.mp h
  simp only [both_eq_ok] at hfields
  obtain ⟨hcontent, hpath, hpage, hindex⟩ := hfields
  replace hcontent := (stable_charField lib false).required.atKey _ _ _ hcontent
  replace hpath := ((stable_charField lib true).listField.withDefault
    (List.forall_mem_nil _)).atKey _ _ _ hpath
  replace hpage := (stable_integerField hint 1).nullable.atKey _ _ _ hpage
  replace hindex := (stable_integerField hint 0).optional.atKey _ _ _ hindex
  refine map_eq_ok.mpr ⟨(content, section_path, page_number, item_index), ?_, rfl⟩
  simp only [both_eq_ok, atKey, Field.under, mapErrors_eq_ok]
  refine ⟨?_, ?_, ?_, ?_⟩
  · exact hcontent.notNull
  · have hlist : Reads (listField (charField lib true)) (.list (section_path.map .str))
        section_path := ⟨fun h => PyValue.noConfusion h, children_map hpath⟩
    exact hlist.notNull
  · have hlookup : List.lookup "page_number" ([("content", .str content),
        ("section_path", .list (section_path.map .str))] ++
        optionalKey "page_number" .int page_number ++
        optionalKey "item_index" .int (item_index.map some)) =
        keyValue .int page_number := by
      simp [List.lookup_append, lookup_optionalKey_self, lookup_optionalKey_of_ne, List.lookup_cons]
    rw [hlookup]
    exact nullable_keyValue hpage
  · have hlookup : List.lookup "item_index" ([("content", .str content),
        ("section_path", .list (section_path.map .str))] ++
        optionalKey "page_number" .int page_number ++
        optionalKey "item_index" .int (item_index.map some)) =
        keyValue .int (item_index.map some) := by
      simp [List.lookup_append, lookup_optionalKey_self, lookup_optionalKey_of_ne, List.lookup_cons]
    rw [hlookup]
    exact optional_keyValue hindex

/-- The keys and values of a body. -/
def UploadBody.entries (body : UploadBody) : List (String × PyValue) :=
  optionalKey "doc_id" .uuid (body.doc_id.map some) ++ [("source_type", .str body.source_type)] ++
    optionalKey "source_filename" .str body.source_filename ++
    optionalKey "source_url" .str body.source_url ++
    optionalKey "content_hash" .str body.content_hash ++
    [("items", .list (body.items.map UploadItem.toPy))]

/-- What stands under each key. -/
theorem UploadBody.lookup_entries (body : UploadBody) :
    body.entries.lookup "doc_id" = keyValue .uuid (body.doc_id.map some) ∧
      body.entries.lookup "source_type" = some (.str body.source_type) ∧
      body.entries.lookup "source_filename" = keyValue .str body.source_filename ∧
      body.entries.lookup "source_url" = keyValue .str body.source_url ∧
      body.entries.lookup "content_hash" = keyValue .str body.content_hash ∧
      body.entries.lookup "items" = some (.list (body.items.map UploadItem.toPy)) := by
  refine ⟨?_, ?_, ?_, ?_, ?_, ?_⟩ <;>
    simp [entries, List.lookup_append, lookup_optionalKey_self, lookup_optionalKey_of_ne,
      List.lookup_cons]

theorem key_of_mem_optionalKey {key : String} {value : Option (Option α)} {k : String}
    (h : k ∈ (optionalKey key toPy value).map Prod.fst) : k = key := by
  rw [optionalKey_eq] at h
  cases hv : keyValue toPy value with
  | none =>
    rw [hv] at h
    cases h
  | some v =>
    rw [hv] at h
    exact List.mem_singleton.mp h

theorem UploadBody.key_of_mem {k : String} (h : k ∈ body.entries.map Prod.fst) :
    k ∈ ["doc_id", "source_type", "source_filename", "source_url", "content_hash", "items"] := by
  simp only [entries, List.map_append, List.mem_append, List.map_cons, List.map_nil,
    List.mem_singleton] at h
  rcases h with (((((h | h) | h) | h) | h) | h)
  · rw [key_of_mem_optionalKey h]
    decide
  · rw [h]
    decide
  · rw [key_of_mem_optionalKey h]
    decide
  · rw [key_of_mem_optionalKey h]
    decide
  · rw [key_of_mem_optionalKey h]
    decide
  · rw [h]
    decide

theorem UploadItem.key_of_mem {item : UploadItem} {kvs : List (String × PyValue)} {k : String}
    (hkvs : item.toPy = .dict kvs) (h : k ∈ kvs.map Prod.fst) :
    k ∈ ["content", "section_path", "page_number", "item_index"] := by
  cases hkvs
  simp only [List.map_append, List.mem_append, List.map_cons, List.map_nil, List.mem_cons,
    List.not_mem_nil, or_false] at h
  rcases h with ((h | h) | h) | h
  · rw [h]
    decide
  · rw [h]
    decide
  · rw [key_of_mem_optionalKey h]
    decide
  · rw [key_of_mem_optionalKey h]
    decide

/-- Keys that are none of the names. -/
theorem forbidden_eq_nil {names keys : List String} {kvs : List (String × PyValue)}
    (hkeys : ∀ k ∈ kvs.map Prod.fst, k ∈ keys) (hdisj : ∀ k ∈ names, k ∉ keys) :
    forbidden names kvs = [] :=
  List.filter_eq_nil_iff.mpr fun k hk hmem => hdisj k hk (hkeys k (of_decide_eq_true hmem))

theorem checkRawItems_toPy (items : List UploadItem) (i : Nat) :
    checkRawItems i (items.map UploadItem.toPy) = .ok () := by
  induction items generalizing i with
  | nil => rfl
  | cons item items ih =>
    obtain ⟨kvs, hkvs⟩ : ∃ kvs, item.toPy = .dict kvs := ⟨_, rfl⟩
    rw [List.map_cons, hkvs, checkRawItems, if_pos]
    · exact ih _
    · exact forbidden_eq_nil (fun k => UploadItem.key_of_mem hkvs) (by decide)

theorem uploadBodyFields_entries (hint : lib.RereadsInts) (huuid : lib.ReadsUuids)
    {kvs : List (String × PyValue)} (h : uploadBodyFields lib kvs = .ok body) :
    uploadBodyFields lib body.entries = .ok body := by
  obtain ⟨⟨doc_id, source_type, source_filename, source_url, content_hash, items⟩, hfields,
    rfl⟩ := map_eq_ok.mp h
  simp only [both_eq_ok] at hfields
  obtain ⟨hid, htype, hfile, hurl, hhash, hitems⟩ := hfields
  have hchar := (stable_charField lib true).nullable.atKey
  have htext : Reads (choiceField lib sourceTypes) (.str "text") "text" :=
    ⟨fun h => PyValue.noConfusion h, if_pos (show "text" ∈ sourceTypes by decide)⟩
  replace hid := (stable_uuidField huuid).optional.atKey _ _ _ hid
  replace htype := ((stable_choiceField lib sourceTypes).withDefault htext).atKey _ _ _ htype
  replace hitems := (stable_manyField
    (stable_uploadItemSerializer hint)).required.atKey _ _ _ hitems
  refine map_eq_ok.mpr
    ⟨(doc_id, source_type, source_filename, source_url, content_hash, items), ?_, rfl⟩
  obtain ⟨hid', htype', hfile', hurl', hhash', hitems'⟩ := UploadBody.lookup_entries
    ⟨doc_id, source_type, source_filename, source_url, content_hash, items⟩
  simp only [both_eq_ok, atKey, Field.under, mapErrors_eq_ok]
  rw [hid', htype', hfile', hurl', hhash', hitems']
  exact ⟨optional_keyValue hid, htype.notNull, nullable_keyValue (hchar _ _ _ hfile),
    nullable_keyValue (hchar _ _ _ hurl), nullable_keyValue (hchar _ _ _ hhash), hitems.notNull⟩

/-- A body without keys that were dropped passes `validate`, if it has items. -/
theorem validate_entries (hne : body.items ≠ []) : validate body.entries body = .ok body := by
  have hremoved : forbidden removedFields body.entries = [] :=
    forbidden_eq_nil (fun _ => UploadBody.key_of_mem) (by decide)
  have hpath : forbidden pathIds body.entries = [] :=
    forbidden_eq_nil (fun _ => UploadBody.key_of_mem) (by decide)
  have hitems : rawItems body.entries = body.items.map UploadItem.toPy := by
    obtain ⟨-, -, -, -, -, hlookup⟩ := body.lookup_entries
    rw [rawItems, hlookup]
  unfold validate
  rw [hremoved, hpath, hitems, checkRawItems_toPy]
  exact if_neg hne

/-- What an accepted body is kept as gives the body. -/
theorem uploadBodySerializer_toPy (hint : lib.RereadsInts) (huuid : lib.ReadsUuids) {raw : PyValue}
    (h : uploadBodySerializer lib raw = .ok body) :
    uploadBodySerializer lib body.toPy = .ok body := by
  have hdict : Ensures (dictField (validated lib)) fun body =>
      dictField (validated lib) body.toPy = .ok body := by
    refine Ensures.dictField fun kvs body h => ?_
    unfold validated at h
    split at h
    · cases h
    next attrs hattrs =>
    obtain ⟨rfl, hne⟩ := validate_eq_ok h
    change validated lib body.entries = .ok body
    unfold validated
    rw [uploadBodyFields_entries hint huuid hattrs]
    exact validate_entries hne
  unfold uploadBodySerializer at h
  split at h
  · cases h
  · exact hdict _ _ h

/-- **An accepted body is accepted again.** What is kept of it as `raw_payload` may be posted, and
gives the same body: the same items, and the same hash where the client gave one. -/
theorem raw_payload_accepted (lib : Drf) (hint : lib.RereadsInts) (huuid : lib.ReadsUuids)
    (raw : PyValue) (body : UploadBody) (h : uploadBodySerializer lib raw = .ok body) :
    uploadBodySerializer lib body.toPy = .ok body :=
  uploadBodySerializer_toPy hint huuid h

namespace Sample

/-- Integers are read as themselves, and UUIDs from their text and as themselves. -/
def reader : Drf where
  str := fun _ => ""
  int := fun data =>
    match data with
    | .int i => some i
    | _ => none
  uuid := fun data =>
    match data with
    | .str s => some ⟨s⟩
    | .uuid u => some u
    | _ => none

/-- A posted body with blanks around its texts, a null, and a key nobody knows. -/
def untidy : PyValue :=
  .dict [("doc_id", .str docA), ("source_url", .none), ("content_hash", .str " h1 "),
    ("note", .bool true),
    ("items", .list [.dict [("content", .str " Hello "), ("page_number", .int 3)]])]

/-- What is kept of it. -/
def tidied : UploadBody where
  doc_id := some ⟨docA⟩
  source_type := "text"
  source_filename := none
  source_url := some none
  content_hash := some (some "h1")
  items := [⟨"Hello", [], some (some 3), none⟩]

end Sample

theorem raw_payload_accepted_untidy :
    uploadBodySerializer Sample.reader Sample.untidy = .ok Sample.tidied ∧
      uploadBodySerializer Sample.reader Sample.tidied.toPy = .ok Sample.tidied := by
  have h : uploadBodySerializer Sample.reader Sample.untidy = .ok Sample.tidied := by
    decide +kernel
  exact ⟨h, raw_payload_accepted Sample.reader (fun _ _ _ => rfl) (fun _ => rfl) _ _ h⟩

end QdrantRag
