import QdrantRag.Verify.Responses
import QdrantRag.Verify.Sample

/-! # The two adapters of a search

The fields of a search, posted as JSON or set in a protobuf message, where a field that is absent
from the body is one that is not set. Each adapter accepts them under a condition of its own, and
passes arguments of its own to `search`. -/

namespace QdrantRag
open Text Checked

variable {α : Type} {web : Web} {lib : Drf}

/-! ## The fields -/

structure FilterFields where
  source_types : Option (List String)
  tags : Option (List String)
  category : Option String
  only_active : Option Bool

structure SearchFields where
  tenant_id : String
  bot_id : String
  query : Option String
  top_k : Option Int
  filters : Option FilterFields

/-- A key with its value, where there is one. -/
def given (key : String) (toPy : α → PyValue) (a : Option α) : List (String × PyValue) :=
  optionalKey key toPy (a.map some)

def texts (xs : List String) : PyValue := .list (xs.map .str)

def FilterFields.keys (filters : FilterFields) : List (String × PyValue) :=
  given "source_types" texts filters.source_types ++ given "tags" texts filters.tags ++
    given "category" .str filters.category ++ given "only_active" .bool filters.only_active

def FilterFields.toPy (filters : FilterFields) : PyValue := .dict filters.keys

namespace SearchFields

variable (x : SearchFields)

def keys : List (String × PyValue) :=
  given "query" .str x.query ++ given "top_k" .int x.top_k ++
    given "filters" FilterFields.toPy x.filters

/-- The fields in the body of an HTTP request. -/
def http : SearchHttpRequest := ⟨x.tenant_id, x.bot_id, .ok (.dict x.keys)⟩

/-- The fields in a protobuf message. -/
def rpc : SearchRpcRequest where
  tenant_id := x.tenant_id
  bot_id := x.bot_id
  query := x.query.getD ""
  top_k := x.top_k.getD 0
  source_types := (x.filters.bind FilterFields.source_types).getD []
  tags := (x.filters.bind FilterFields.tags).getD []
  category := (x.filters.bind FilterFields.category).getD ""
  only_active := (x.filters.bind FilterFields.only_active).getD false

end SearchFields

/-! ## Reading a key -/

theorem lookup_given_self {key : String} {toPy : α → PyValue} {a : Option α} :
    (given key toPy a).lookup key = a.map toPy := by
  cases a with
  | none => rfl
  | some a => exact List.lookup_cons_self

theorem lookup_given_of_ne {key key' : String} {toPy : α → PyValue} {a : Option α}
    (h : key' ≠ key) : (given key toPy a).lookup key' = none := by
  cases a with
  | none => rfl
  | some a =>
    change List.lookup key' [(key, toPy a)] = none
    rw [List.lookup_cons, beq_false_of_ne h]
    rfl

theorem SearchFields.lookup_keys (x : SearchFields) :
    x.keys.lookup "query" = x.query.map .str ∧ x.keys.lookup "top_k" = x.top_k.map .int ∧
      x.keys.lookup "filters" = x.filters.map FilterFields.toPy := by
  simp [keys, List.lookup_append, lookup_given_self, lookup_given_of_ne]

theorem FilterFields.lookup_keys (filters : FilterFields) :
    filters.keys.lookup "source_types" = filters.source_types.map texts ∧
      filters.keys.lookup "tags" = filters.tags.map texts ∧
      filters.keys.lookup "category" = filters.category.map .str ∧
      filters.keys.lookup "only_active" = filters.only_active.map .bool := by
  simp [keys, List.lookup_append, lookup_given_self, lookup_given_of_ne]

/-! ## What the serializers accept -/

/-- A text without null characters at its ends stripped. -/
def NulFree (s : String) : Prop := (strip s).toList.contains '\x00' = false

theorem gives_charField (allow_blank : Bool) (s : String) :
    Gives (charField lib allow_blank (.str s))
      ((allow_blank = false → strip s ≠ "") ∧ NulFree s) (strip s) := by
  unfold charField
  dsimp only [Drf.text]
  by_cases hblank : strip s = ""
  · have hnul : NulFree s := by rw [NulFree, hblank]; rfl
    rw [if_pos hblank, hblank]
    cases allow_blank with
    | true => exact (gives_ok "").congr (by simp [hnul])
    | false => exact (gives_error _ "").congr (by simp)
  · rw [if_neg hblank]
    refine (Gives.ite_error fun _ => gives_ok (strip s)).congr ?_
    rw [NulFree, Bool.not_eq_true]
    simp only [ne_eq, hblank, not_false_eq_true, implies_true, true_and, and_true]

/-- `int(str(k))` is `k` where it gives a number, and gives one for the values of an `int32`. -/
structure Drf.ReadsInts (lib : Drf) : Prop where
  value : ∀ k i, lib.int (.int k) = some i → i = k
  small : ∀ k : Int, -0x80000000 ≤ k → k < 0x80000000 → lib.int (.int k) ≠ none

theorem gives_integerField (hint : lib.ReadsInts) (k : Int) :
    Gives (boundedIntegerField lib 1 20 (.int k)) (1 ≤ k ∧ k ≤ 20) k := by
  unfold boundedIntegerField integerField integerField.parse
  cases hread : lib.int (.int k) with
  | none =>
    refine (gives_error _ k).congr (iff_of_false id fun ⟨hlo, hhi⟩ => ?_)
    exact hint.small k (by omega) (by omega) hread
  | some i =>
    obtain rfl := hint.value k i hread
    by_cases hlo : i < 1
    · dsimp only
      rw [if_pos hlo]
      exact (gives_error _ i).congr (iff_of_false id (by omega))
    · dsimp only
      rw [if_neg hlo]
      refine (Gives.ite_error fun _ => gives_ok i).congr ?_
      rw [and_true]
      omega

section Fields
variable {β : Type} {field : PyValue → Field α} {toPy : β → PyValue} {P : β → Prop} {g : β → α}

theorem gives_notNull {data : PyValue} {Q : Prop} {a : α} (hdata : data ≠ .none)
    (h : Gives (field data) Q a) : Gives (notNull field data) Q a := by
  cases data with
  | none => exact absurd rfl hdata
  | _ => exact h

theorem gives_atKey {fld : Option PyValue → Field α} {kvs : List (String × PyValue)} {key : String}
    {data : Option PyValue} {Q : Prop} {a : α} (hkey : kvs.lookup key = data)
    (h : Gives (fld data) Q a) : Gives (atKey kvs key fld) Q a := by
  rw [atKey, hkey]
  exact h.mapErrors _

theorem gives_required (a : α) (hnull : ∀ b, toPy b ≠ .none)
    (h : ∀ b, Gives (field (toPy b)) (P b) (g b)) (o : Option β) :
    Gives (required field (o.map toPy)) (∃ b ∈ o, P b) ((o.map g).getD a) := by
  cases o with
  | none => exact (gives_error _ a).congr (by simp)
  | some b => exact (gives_notNull (hnull b) (h b)).congr (by simp)

theorem gives_withDefault (default : α) (hnull : ∀ b, toPy b ≠ .none)
    (h : ∀ b, Gives (field (toPy b)) (P b) (g b)) (o : Option β) :
    Gives (withDefault default field (o.map toPy)) (∀ b ∈ o, P b) ((o.map g).getD default) := by
  cases o with
  | none => exact (gives_ok default).congr (by simp)
  | some b => exact (gives_notNull (hnull b) (h b)).congr (by simp)

theorem gives_optional (hnull : ∀ b, toPy b ≠ .none)
    (h : ∀ b, Gives (field (toPy b)) (P b) (g b)) (o : Option β) :
    Gives (optional field (o.map toPy)) (∀ b ∈ o, P b) (o.map g) := by
  cases o with
  | none => exact (gives_ok none).congr (by simp)
  | some b => exact ((gives_notNull (hnull b) (h b)).map some).congr (by simp)

theorem gives_nullable (hnull : ∀ b, toPy b ≠ .none)
    (h : ∀ b, Gives (field (toPy b)) (P b) (g b)) (o : Option β) :
    Gives (nullable field (o.map toPy)) (∀ b ∈ o, P b) (o.map fun b => some (g b)) := by
  cases o with
  | none => exact (gives_ok none).congr (by simp)
  | some b =>
    have hfield : nullable field (some (toPy b)) =
        (field (toPy b)).map fun a => some (some a) := by
      unfold nullable
      split
      · contradiction
      · next hb => exact absurd (Option.some.inj hb) (hnull b)
      · next hb => rw [Option.some.inj hb]
    rw [Option.map_some, hfield]
    exact ((h b).map fun a => some (some a)).congr (by simp)

theorem gives_listField (hnull : ∀ b, toPy b ≠ .none)
    (h : ∀ b, Gives (field (toPy b)) (P b) (g b)) (bs : List β) :
    Gives (listField field (.list (bs.map toPy))) (∀ b ∈ bs, P b) (bs.map g) := by
  have hfrom (n : Nat) : Gives (all (((bs.map toPy).zipIdx n).map fun p =>
      Field.under (toString p.2) (notNull field p.1))) (∀ b ∈ bs, P b) (bs.map g) := by
    induction bs generalizing n with
    | nil => exact (gives_ok []).congr (by simp)
    | cons b bs ih =>
      have hb := (gives_notNull (hnull b) (h b)).mapErrors fun e : FieldError =>
        { e with path := toString n :: e.path }
      exact ((hb.both (ih (n + 1))).map fun p => p.1 :: p.2).congr List.forall_mem_cons.symm
  exact hfrom 0

end Fields

theorem strip_empty : strip "" = "" := strip_eq_self (by simp)

/-- A text that is not blank and has no null characters. -/
def Legible (s : String) : Prop := strip s ≠ "" ∧ NulFree s

theorem gives_legible (s : String) : Gives (charField lib false (.str s)) (Legible s) (strip s) :=
  (gives_charField false s).congr (by simp [Legible])

theorem gives_texts (lib : Drf) (o : Option (List String)) :
    Gives (withDefault [] (listField (charField lib false)) (o.map texts))
      (∀ ts ∈ o, ∀ t ∈ ts, Legible t) ((o.map (List.map strip)).getD []) :=
  gives_withDefault [] nofun (gives_listField nofun gives_legible) o

/-- What `SearchFiltersSerializer` accepts. -/
structure FilterFields.Plain (filters : FilterFields) : Prop where
  source_types : ∀ ts ∈ filters.source_types, ∀ t ∈ ts, Legible t
  tags : ∀ ts ∈ filters.tags, ∀ t ∈ ts, Legible t
  category : ∀ c ∈ filters.category, NulFree c

/-- The `validated_data` of the filters. -/
def FilterFields.validated (filters : FilterFields) : SearchFilters where
  source_types := (filters.source_types.map (List.map strip)).getD []
  tags := (filters.tags.map (List.map strip)).getD []
  category := filters.category.map fun c => some (strip c)
  only_active := filters.only_active.getD true

theorem gives_filters (filters : FilterFields) :
    Gives (searchFiltersSerializer lib filters.toPy) filters.Plain filters.validated := by
  obtain ⟨hsource, htags, hcategory, hactive⟩ := filters.lookup_keys
  have hcat : Gives (nullable (charField lib true) (filters.category.map .str))
      (∀ c ∈ filters.category, (true = false → strip c ≠ "") ∧ NulFree c)
      (filters.category.map fun c => some (strip c)) :=
    gives_nullable (fun _ h => by cases h) (gives_charField true) filters.category
  have hact : Gives (withDefault true booleanField (filters.only_active.map .bool))
      (∀ b ∈ filters.only_active, True) (filters.only_active.getD true) := by
    have hread (b : Bool) : Gives (booleanField (.bool b)) True b := gives_ok b
    have hid : Gives (withDefault true booleanField (filters.only_active.map .bool))
        (∀ b ∈ filters.only_active, True) ((filters.only_active.map fun b => b).getD true) :=
      gives_withDefault true (fun _ h => by cases h) hread filters.only_active
    rwa [Option.map_id'] at hid
  have hall := (gives_atKey hsource (gives_texts lib filters.source_types)).both
    ((gives_atKey htags (gives_texts lib filters.tags)).both
      ((gives_atKey hcategory hcat).both (gives_atKey hactive hact)))
  refine (hall.map fun p => (⟨p.1, p.2.1, p.2.2.1, p.2.2.2⟩ : SearchFilters)).congr ?_
  constructor
  · rintro ⟨hs, ht, hc, -⟩
    exact ⟨hs, ht, fun c hmem => (hc c hmem).2⟩
  · intro h
    exact ⟨h.source_types, h.tags, fun c hmem => ⟨fun hne => (by cases hne), h.category c hmem⟩,
      fun _ _ => trivial⟩

namespace SearchFields

variable (x : SearchFields)

/-- What `SearchRequestSerializer` takes for the fields of the body. -/
def validated : SearchBody where
  query := strip (x.query.getD "")
  top_k := x.top_k.getD 5
  filters := x.filters.map FilterFields.validated

/-- The client says which points it wants. -/
def only_active : Option Bool := x.filters.bind FilterFields.only_active

/-- What both adapters ask for. -/
structure Common : Prop where
  tenant_id : slugMatch (normalizeSlug x.tenant_id) = true
  bot_id : slugMatch (normalizeSlug x.bot_id) = true
  query : strip (x.query.getD "") ≠ ""
  top_k : 0 ≤ x.top_k.getD 0 ∧ x.top_k.getD 0 ≤ 20
  only_active : x.only_active ≠ some false

/-- What the serializers ask for besides. -/
structure Plain : Prop where
  query : NulFree (x.query.getD "")
  top_k : x.top_k ≠ some 0
  filters : ∀ filters ∈ x.filters, filters.Plain

variable {x}

theorem gives_fields (hint : lib.ReadsInts) :
    Gives (searchRequestFields lib x.keys)
      ((∃ q ∈ x.query, Legible q) ∧ (∀ k ∈ x.top_k, 1 ≤ k ∧ k ≤ 20) ∧
        ∀ filters ∈ x.filters, filters.Plain) x.validated := by
  obtain ⟨hquery, htop, hfilters⟩ := x.lookup_keys
  have hq : Gives (required (charField lib false) (x.query.map .str)) (∃ q ∈ x.query, Legible q)
      (strip (x.query.getD "")) := by
    have hvalue : (x.query.map strip).getD "" = strip (x.query.getD "") := by
      cases x.query with
      | none => exact strip_empty.symm
      | some q => rfl
    rw [← hvalue]
    exact gives_required "" (fun _ h => by cases h) gives_legible x.query
  have hk : Gives (withDefault 5 (boundedIntegerField lib 1 20) (x.top_k.map .int))
      (∀ k ∈ x.top_k, 1 ≤ k ∧ k ≤ 20) (x.top_k.getD 5) := by
    have hid : Gives (withDefault 5 (boundedIntegerField lib 1 20) (x.top_k.map .int))
        (∀ k ∈ x.top_k, 1 ≤ k ∧ k ≤ 20) ((x.top_k.map fun k => k).getD 5) :=
      gives_withDefault 5 (fun _ h => by cases h) (gives_integerField hint) x.top_k
    rwa [Option.map_id'] at hid
  have hf : Gives (optional (searchFiltersSerializer lib) (x.filters.map FilterFields.toPy))
      (∀ filters ∈ x.filters, filters.Plain) (x.filters.map FilterFields.validated) :=
    gives_optional (fun _ h => by cases h) gives_filters x.filters
  have hall := (gives_atKey hquery hq).both ((gives_atKey htop hk).both (gives_atKey hfilters hf))
  exact hall.map fun p => (⟨p.1, p.2.1, p.2.2⟩ : SearchBody)

theorem gives_validate (body : SearchBody) :
    Gives body.validate
      (¬ (body.filters.any fun filters => !filters.only_active) = true ∧ strip body.query ≠ "")
      body := by
  have hquery : Gives (if strip body.query = "" then
        validationError "empty_query" "query must be non-empty after stripping." else .ok body)
      (strip body.query ≠ "") body :=
    (Gives.ite_error fun _ => gives_ok body).congr (and_true _).to_iff
  exact Gives.ite_error fun _ => hquery

theorem gives_serializer (hint : lib.ReadsInts) :
    Gives (searchRequestSerializer lib (.dict x.keys))
      (((∃ q ∈ x.query, Legible q) ∧ (∀ k ∈ x.top_k, 1 ≤ k ∧ k ≤ 20) ∧
          ∀ filters ∈ x.filters, filters.Plain) ∧
        ¬ (x.validated.filters.any fun filters => !filters.only_active) = true ∧
          strip x.validated.query ≠ "") x.validated := by
  have hbind : searchRequestSerializer lib (.dict x.keys) =
      (searchRequestFields lib x.keys).bind SearchBody.validate := by
    change searchRequestValidated lib x.keys = _
    unfold searchRequestValidated
    cases searchRequestFields lib x.keys <;> rfl
  rw [hbind]
  exact (gives_fields hint).bind fun _ => gives_validate x.validated

/-- The body is accepted exactly where it has what both adapters ask for, and is plain. -/
theorem accepted_iff :
    ((∃ q ∈ x.query, Legible q) ∧ (∀ k ∈ x.top_k, 1 ≤ k ∧ k ≤ 20) ∧
          ∀ filters ∈ x.filters, filters.Plain) ∧
        ¬ (x.validated.filters.any fun filters => !filters.only_active) = true ∧
          strip x.validated.query ≠ "" ↔
      (strip (x.query.getD "") ≠ "" ∧ (0 ≤ x.top_k.getD 0 ∧ x.top_k.getD 0 ≤ 20) ∧
        x.only_active ≠ some false) ∧ x.Plain := by
  have hactive : (x.validated.filters.any fun filters => !filters.only_active) = true ↔
      x.only_active = some false := by
    cases hfilters : x.filters with
    | none => simp [validated, only_active, hfilters]
    | some filters =>
      cases hflag : filters.only_active <;>
        simp [validated, only_active, hfilters, FilterFields.validated, hflag]
  have htop : (∀ k ∈ x.top_k, 1 ≤ k ∧ k ≤ 20) ↔
      (0 ≤ x.top_k.getD 0 ∧ x.top_k.getD 0 ≤ 20) ∧ x.top_k ≠ some 0 := by
    cases x.top_k with
    | none => simp
    | some k =>
      simp only [Option.mem_some_iff, forall_eq', Option.getD_some, ne_eq, Option.some.injEq]
      omega
  have hquery : (∃ q ∈ x.query, Legible q) ↔
      strip (x.query.getD "") ≠ "" ∧ NulFree (x.query.getD "") := by
    cases x.query with
    | none => simp [strip_empty]
    | some q => simp [Legible]
  have hstrip : strip x.validated.query = strip (x.query.getD "") := strip_strip _
  have hplain : x.Plain ↔ NulFree (x.query.getD "") ∧ x.top_k ≠ some 0 ∧
      ∀ filters ∈ x.filters, filters.Plain :=
    ⟨fun h => ⟨h.query, h.top_k, h.filters⟩, fun ⟨hq, hk, hf⟩ => ⟨hq, hk, hf⟩⟩
  rw [hactive, htop, hquery, hstrip, hplain]
  constructor
  · rintro ⟨⟨⟨hq, hn⟩, ⟨hk, hk0⟩, hf⟩, ha, -⟩
    exact ⟨⟨hq, hk, ha⟩, hn, hk0, hf⟩
  · rintro ⟨⟨hq, hk, ha⟩, hn, hk0, hf⟩
    exact ⟨⟨⟨hq, hn⟩, ⟨hk, hk0⟩, hf⟩, ha, hq⟩

/-! ## What the adapters accept -/

/-- The arguments of `search` over HTTP. -/
def httpSearch (x : SearchFields) : Search :=
  x.validated.search (normalizeSlug x.tenant_id) (normalizeSlug x.bot_id)

/-- The arguments of `search` over gRPC. -/
def rpcSearch (x : SearchFields) : Search where
  tenant_id := normalizeSlug x.tenant_id
  bot_id := normalizeSlug x.bot_id
  query := strip x.rpc.query
  top_k := (if x.rpc.top_k = 0 then defaultTopK else x.rpc.top_k).toNat
  source_types := orNone x.rpc.source_types
  tags := orNone x.rpc.tags
  category := textOrNone x.rpc.category

theorem common_iff : x.Common ↔
    (slugMatch (normalizeSlug x.tenant_id) = true ∧ slugMatch (normalizeSlug x.bot_id) = true) ∧
      strip (x.query.getD "") ≠ "" ∧ (0 ≤ x.top_k.getD 0 ∧ x.top_k.getD 0 ≤ 20) ∧
      x.only_active ≠ some false :=
  ⟨fun h => ⟨⟨h.tenant_id, h.bot_id⟩, h.query, h.top_k, h.only_active⟩,
    fun ⟨⟨hT, hB⟩, hq, hk, ha⟩ => ⟨hT, hB, hq, hk, ha⟩⟩

theorem gives_http (hint : web.drf.ReadsInts) :
    Gives (x.http.checked web) (x.Common ∧ x.Plain) x.httpSearch := by
  unfold SearchHttpRequest.checked http
  dsimp only
  rcases pathSlugs_cases x.tenant_id x.bot_id with ⟨hvalid, hslugs⟩ | ⟨hvalid, _, _, hslugs⟩
  · rw [hslugs]
    dsimp only
    rw [common_iff]
    rcases (gives_serializer hint).cases with ⟨hbody, hok⟩ | ⟨hbody, errors, herror⟩
    · rw [hok]
      obtain ⟨hcommon, hplain⟩ := accepted_iff.mp hbody
      exact (gives_ok _).congr (iff_of_true trivial ⟨⟨hvalid, hcommon⟩, hplain⟩)
    · rw [herror]
      refine (gives_error _ _).congr (iff_of_false id fun h => hbody ?_)
      exact accepted_iff.mpr ⟨h.1.2, h.2⟩
  · rw [hslugs]
    refine (gives_error _ _).congr (iff_of_false id fun h => hvalid ?_)
    exact ⟨h.1.tenant_id, h.1.bot_id⟩

theorem gives_rpc :
    Gives (x.rpc.checked web) (x.Common ∧ x.only_active = some true) x.rpcSearch := by
  unfold SearchRpcRequest.checked
  rcases pathSlugs_cases x.tenant_id x.bot_id with ⟨hvalid, hslugs⟩ | ⟨hvalid, _, _, hslugs⟩
  · change pathSlugs x.rpc.tenant_id x.rpc.bot_id = _ at hslugs
    rw [hslugs]
    refine (Gives.ite_error fun hq => Gives.ite_error fun hk => Gives.ite_error fun ha =>
      gives_ok x.rpcSearch).congr ?_
    have htop : ¬ ((if x.rpc.top_k = 0 then defaultTopK else x.rpc.top_k) < 1 ∨
        maxTopK < if x.rpc.top_k = 0 then defaultTopK else x.rpc.top_k) ↔
          0 ≤ x.top_k.getD 0 ∧ x.top_k.getD 0 ≤ 20 := by
      change ¬ ((if x.top_k.getD 0 = 0 then 5 else x.top_k.getD 0) < 1 ∨
        20 < if x.top_k.getD 0 = 0 then 5 else x.top_k.getD 0) ↔ _
      omega
    have hactive : ¬ x.rpc.only_active = false ↔ x.only_active = some true := by
      change ¬ x.only_active.getD false = false ↔ _
      cases x.only_active <;> simp
    rw [htop, hactive, and_true]
    constructor
    · intro ⟨hq, hk, ha⟩
      refine ⟨common_iff.mpr ⟨hvalid, hq, hk, ?_⟩, ha⟩
      rw [ha]
      simp
    · intro ⟨hcommon, ha⟩
      exact ⟨hcommon.query, hcommon.top_k, ha⟩
  · change pathSlugs x.rpc.tenant_id x.rpc.bot_id = _ at hslugs
    rw [hslugs]
    refine (gives_error _ _).congr (iff_of_false id fun h => hvalid ?_)
    exact ⟨h.1.tenant_id, h.1.bot_id⟩

end SearchFields

/-! ## Where they agree -/

/-- The texts have no white space at their ends. -/
structure FilterFields.Trimmed (filters : FilterFields) : Prop where
  source_types : ∀ ts ∈ filters.source_types, ∀ t ∈ ts, strip t = t
  tags : ∀ ts ∈ filters.tags, ∀ t ∈ ts, strip t = t
  category : ∀ c ∈ filters.category, strip c = c

theorem orNone_strip {ts : List String} :
    orNone (ts.map strip) = orNone ts ↔ ∀ t ∈ ts, strip t = t := by
  have hmap : orNone (ts.map strip) = orNone ts ↔ ts.map strip = ts.map id := by
    rw [List.map_id]
    cases ts with
    | nil => simp
    | cons t ts => exact Option.some_inj
  rw [hmap, List.map_inj_left]
  rfl

theorem textOrNone_strip {c : String} : textOrNone (strip c) = textOrNone c ↔ strip c = c := by
  unfold textOrNone
  by_cases hc : c = ""
  · rw [hc, strip_empty]
    simp
  · rw [if_neg hc]
    split
    · next hblank => simp [hblank, Ne.symm hc]
    · exact Option.some_inj

/-- A list of texts is passed on the same by both. -/
theorem orNone_texts {o : Option (List String)} :
    orNone ((o.map (List.map strip)).getD []) = orNone (o.getD []) ↔
      ∀ ts ∈ o, ∀ t ∈ ts, strip t = t := by
  cases o with
  | none => simp
  | some ts =>
    rw [Option.map_some, Option.getD_some, Option.getD_some, orNone_strip]
    simp only [Option.mem_some_iff, forall_eq']

theorem textOrNone_category {o : Option String} :
    (getKey (o.map fun c => some (strip c))).bind textOrNone = textOrNone (o.getD "") ↔
      ∀ c ∈ o, strip c = c := by
  cases o with
  | none => exact iff_of_true rfl nofun
  | some c =>
    change textOrNone (strip c) = textOrNone c ↔ _
    rw [textOrNone_strip]
    simp only [Option.mem_some_iff, forall_eq']

namespace SearchFields

variable {x : SearchFields}

/-- The texts of the filters are trimmed. -/
def Trimmed (x : SearchFields) : Prop := ∀ filters ∈ x.filters, filters.Trimmed

theorem httpSearch_eq_rpcSearch (h : x.Plain) : x.httpSearch = x.rpcSearch ↔ x.Trimmed := by
  have hquery : strip (strip (x.query.getD "")) = strip x.rpc.query := strip_strip _
  have htop : x.top_k.getD 5 = if x.rpc.top_k = 0 then defaultTopK else x.rpc.top_k := by
    cases hk : x.top_k with
    | none => simp [rpc, hk, defaultTopK]
    | some k =>
      have hk0 : k ≠ 0 := fun h0 => h.top_k (h0 ▸ hk)
      simp [rpc, hk, hk0]
  have hhttp : x.httpSearch = { x.rpcSearch with
      source_types := (x.filters.map FilterFields.validated).bind fun f => orNone f.source_types
      tags := (x.filters.map FilterFields.validated).bind fun f => orNone f.tags
      category := ((x.filters.map FilterFields.validated).bind fun f =>
        getKey f.category).bind textOrNone } := by
    unfold httpSearch rpcSearch SearchBody.search validated
    rw [hquery, htop]
  rw [hhttp, rpcSearch, Search.mk.injEq]
  simp only [true_and]
  unfold Trimmed rpc
  cases hfilters : x.filters with
  | none => exact iff_of_true ⟨rfl, rfl, rfl⟩ nofun
  | some filters =>
    refine (and_congr orNone_texts (and_congr orNone_texts textOrNone_category)).trans ?_
    simp only [Option.mem_some_iff, forall_eq']
    exact ⟨fun ⟨hs, ht, hc⟩ => ⟨hs, ht, hc⟩, fun h => ⟨h.source_types, h.tags, h.category⟩⟩

/-- Both adapters refuse the fields, or both search for the same. -/
def Agree (web : Web) (x : SearchFields) : Prop :=
  ∀ s : Search, x.http.checked web = .ok s ↔ x.rpc.checked web = .ok s

/-- The runs of two requests that agree make the same calls. -/
theorem Agree.run {env : Env} {session : Nat} {faults : Nat → Fault} {s : World}
    (h : x.Agree web) :
    (x.http.run env web session faults s).trace = (x.rpc.run env web session faults s).trace ∧
      (x.http.run env web session faults s).state = (x.rpc.run env web session faults s).state := by
  cases hhttp : x.http.checked web with
  | ok y =>
    rw [SearchHttpRequest.run_checked hhttp, SearchRpcRequest.run_checked ((h y).mp hhttp)]
    exact ⟨rfl, rfl⟩
  | error response =>
    cases hrpc : x.rpc.checked web with
    | ok y => cases hhttp.symm.trans ((h y).mpr hrpc)
    | error e =>
      rw [SearchHttpRequest.run_refused hhttp, SearchRpcRequest.run_refused hrpc]
      exact ⟨rfl, rfl⟩

end SearchFields

/-- The adapters agree exactly where one of the checks they share refuses, or the client asks for
active points only and the serializers change nothing, or it does not and they refuse too. -/
theorem SearchFields.agree_iff {web : Web} (hint : web.drf.ReadsInts) {x : SearchFields} :
    x.Agree web ↔
      (x.Common → (x.Plain ↔ x.only_active = some true) ∧ (x.Plain → x.Trimmed)) := by
  rw [SearchFields.Agree, (SearchFields.gives_http hint).agree_iff SearchFields.gives_rpc]
  constructor
  · intro ⟨hiff, hsame⟩ hcommon
    refine ⟨?_, fun hplain => (SearchFields.httpSearch_eq_rpcSearch hplain).mp
      (hsame ⟨hcommon, hplain⟩)⟩
    simpa only [hcommon, true_and] using hiff
  · intro h
    refine ⟨and_congr_right fun hcommon => (h hcommon).1, fun ⟨hcommon, hplain⟩ => ?_⟩
    exact (SearchFields.httpSearch_eq_rpcSearch hplain).mpr ((h hcommon).2 hplain)

/-- The texts of the fields are as `CharField` leaves them: the filters have no white space at their
ends, no blank elements and no null characters, and the query has no null characters. -/
structure SearchFields.Tidy (x : SearchFields) : Prop where
  query : NulFree (x.query.getD "")
  filters : ∀ filters ∈ x.filters, filters.Plain
  trimmed : x.Trimmed

theorem SearchFields.Tidy.plain_iff {x : SearchFields} (h : x.Tidy) :
    x.Plain ↔ x.top_k ≠ some 0 :=
  ⟨SearchFields.Plain.top_k, fun htop => ⟨h.query, htop, h.filters⟩⟩

/-- **The adapters agree** on fields whose texts are tidy, unless the client either leaves
`only_active` unset, which only the RPC refuses, or gives `top_k` as 0, which only the serializer
refuses, and not both. -/
theorem adapters_agree_iff {web : Web} (hint : web.drf.ReadsInts) (x : SearchFields)
    (htidy : x.Tidy) :
    x.Agree web ↔ (x.Common → (x.top_k ≠ some 0 ↔ x.only_active = some true)) := by
  rw [SearchFields.agree_iff hint, htidy.plain_iff]
  exact forall_congr' fun _ => and_iff_left fun _ => htidy.trimmed

/-- A search among PDFs. -/
def Sample.amongPdfs : SearchFields :=
  ⟨"acme", "support", some " hello", none, some ⟨some ["pdf"], none, none, some true⟩⟩

theorem Sample.readsInts : Sample.web.drf.ReadsInts where
  value := fun _ _ h => (Option.some.inj h).symm
  small := fun _ _ _ => Option.some_ne_none _

theorem adapters_agree_pdf : Sample.amongPdfs.Agree Sample.web := by
  have htidy : Sample.amongPdfs.Tidy := by
    refine ⟨by unfold NulFree; decide +kernel, ?_, ?_⟩ <;> rintro filters ⟨⟩ <;>
      refine ⟨?_, nofun, nofun⟩ <;> rintro ts ⟨⟩ t ht <;> rw [List.mem_singleton.mp ht]
    · unfold Legible NulFree
      decide +kernel
    · decide +kernel
  exact (adapters_agree_iff Sample.readsInts Sample.amongPdfs htidy).mpr fun _ =>
    iff_of_true nofun rfl

/-- A search without filters. -/
def Sample.unfiltered : SearchFields := ⟨"acme", "support", some "hello", none, none⟩

/-- A search for no chunks. -/
def Sample.topNone : SearchFields :=
  ⟨"acme", "support", some "hello", some 0, some ⟨none, none, none, some true⟩⟩

/-- What one adapter accepts and the other refuses they do not agree on. -/
theorem SearchFields.not_agree {x : SearchFields}
    (h : (x.http.checked web).isOk ≠ (x.rpc.checked web).isOk) : ¬ x.Agree web := by
  intro hagree
  cases hhttp : x.http.checked web with
  | ok s =>
    rw [hhttp, (hagree s).mp hhttp] at h
    exact h rfl
  | error response =>
    cases hrpc : x.rpc.checked web with
    | ok s => cases hhttp.symm.trans ((hagree s).mpr hrpc)
    | error e =>
      rw [hhttp, hrpc] at h
      exact h rfl

/-- Without filters a search is accepted over HTTP and refused over gRPC, and with a `top_k` of 0
the other way round. -/
theorem unset_disagree :
    ((Sample.unfiltered.http.checked Sample.web).isOk = true ∧
      (Sample.unfiltered.rpc.checked Sample.web).isOk = false ∧
      ¬ Sample.unfiltered.Agree Sample.web) ∧
    (Sample.topNone.http.checked Sample.web).isOk = false ∧
      (Sample.topNone.rpc.checked Sample.web).isOk = true ∧
      ¬ Sample.topNone.Agree Sample.web := by
  have hhttp : (Sample.unfiltered.http.checked Sample.web).isOk = true := by decide +kernel
  have hrpc : (Sample.unfiltered.rpc.checked Sample.web).isOk = false := by decide +kernel
  have hhttp' : (Sample.topNone.http.checked Sample.web).isOk = false := by decide +kernel
  have hrpc' : (Sample.topNone.rpc.checked Sample.web).isOk = true := by decide +kernel
  refine ⟨⟨hhttp, hrpc, SearchFields.not_agree ?_⟩, hhttp', hrpc', SearchFields.not_agree ?_⟩
  · rw [hhttp, hrpc]
    decide
  · rw [hhttp', hrpc']
    decide

end QdrantRag
