import Mathlib.Data.List.SplitLengths
import QdrantRag.Verify.Responses
import QdrantRag.Verify.Sample

/-! # Which identifiers are accepted

An identifier is a slug, or the hyphenated form of a UUID (`Documented`). The entry points take the
hyphens out before they look, so they accept every slug that has hyphens put in
(`HyphenatedSlug`), and take it for the slug. -/

namespace QdrantRag
open Text

/-! ## The two forms of a UUID -/

/-- `[0-9a-f]` -/
def lowerHex (c : Char) : Bool := ('0' ≤ c && c ≤ '9') || ('a' ≤ c && c ≤ 'f')

/-- The 32 hexadecimal digits of a UUID. -/
structure UuidDigits where
  digits : List Char
  length_eq : digits.length = 32
  lowerHex : ∀ c ∈ digits, lowerHex c = true

namespace UuidDigits

/-- `u.hex` -/
def hex (u : UuidDigits) : String := String.ofList u.digits

def groups (u : UuidDigits) : List (List Char) := [8, 4, 4, 4, 12].splitLengths u.digits

/-- `str(u)` -/
def hyphenated (u : UuidDigits) : String := String.ofList (['-'].intercalate u.groups)

end UuidDigits

/-- What identifiers are said to be. -/
def Documented (s : String) : Prop := slugMatch s = true ∨ ∃ u : UuidDigits, s = u.hyphenated

/-- `s` and `s'` are the hyphenated and the hex form of one UUID, in one order or the other. -/
def TwoForms (s s' : String) : Prop :=
  ∃ u : UuidDigits, (s = u.hyphenated ∧ s' = u.hex) ∨ (s = u.hex ∧ s' = u.hyphenated)

/-- A slug with hyphens in it at any places: `^-*[a-z0-9](-*[a-z0-9_]){2,39}-*$`. -/
def HyphenatedSlug (s : String) : Prop :=
  (∀ c ∈ s.toList, slugChar c = true ∨ c = '-') ∧
    (∃ c, s.toList.find? (· ≠ '-') = some c ∧ slugHead c = true) ∧
    3 ≤ s.toList.countP (· ≠ '-') ∧ s.toList.countP (· ≠ '-') ≤ 40

/-- The hyphens of the identifier, if any, are those of a UUID. -/
def Regular (s : String) : Prop :=
  HyphenatedSlug s → '-' ∉ s.toList ∨ ∃ u : UuidDigits, s = u.hyphenated

/-! ## `normalize_slug` -/

theorem toList_normalizeSlug (s : String) :
    (normalizeSlug s).toList = s.toList.filter (· ≠ '-') := String.toList_ofList

theorem normalizeSlug_eq_self {s : String} : normalizeSlug s = s ↔ '-' ∉ s.toList := by
  rw [← String.toList_inj, toList_normalizeSlug, List.filter_eq_self]
  constructor
  · intro h hmem
    simpa using h _ hmem
  · intro h c hc
    rw [decide_eq_true_eq]
    rintro rfl
    exact h hc

theorem slugMatch_iff {s : String} : slugMatch s = true ↔
    (∀ c ∈ s.toList, slugChar c = true) ∧ (∃ c, s.toList.head? = some c ∧ slugHead c = true) ∧
      3 ≤ s.toList.length ∧ s.toList.length ≤ 40 := by
  unfold slugMatch
  cases s.toList with
  | nil => simp
  | cons c cs =>
    have hchar (h : slugHead c = true) : slugChar c = true := by simp [slugChar, h]
    simp only [Bool.and_eq_true, List.all_eq_true, decide_eq_true_eq, List.forall_mem_cons,
      List.head?_cons, Option.some.injEq, exists_eq_left', List.length_cons]
    constructor
    · rintro ⟨⟨⟨hhead, hall⟩, hlow⟩, hhigh⟩
      exact ⟨⟨hchar hhead, hall⟩, hhead, by omega, by omega⟩
    · rintro ⟨⟨-, hall⟩, hhead, hlow, hhigh⟩
      exact ⟨⟨⟨hhead, hall⟩, by omega⟩, by omega⟩

/-- A slug has no character but those of slugs. -/
theorem notMem_slug {s : String} {c : Char} (hc : slugChar c = false) (h : slugMatch s = true) :
    c ∉ s.toList := by
  intro hmem
  rw [(slugMatch_iff.mp h).1 c hmem] at hc
  cases hc

theorem not_hyphen_of_slug {s : String} (h : slugMatch s = true) : '-' ∉ s.toList :=
  notMem_slug rfl h

/-- What is left without hyphens is a slug. -/
theorem slugMatch_normalizeSlug {s : String} :
    slugMatch (normalizeSlug s) = true ↔ HyphenatedSlug s := by
  rw [slugMatch_iff, toList_normalizeSlug, List.head?_filter, ← List.countP_eq_length_filter,
    HyphenatedSlug]
  refine and_congr_left fun _ => ?_
  simp only [List.mem_filter, decide_eq_true_eq]
  constructor
  · intro h c hc
    by_cases hhyphen : c = '-'
    · exact .inr hhyphen
    · exact .inl (h c ⟨hc, hhyphen⟩)
  · intro h c hc
    exact (h c hc.1).resolve_right hc.2

namespace UuidDigits

theorem flatten_groups (u : UuidDigits) : u.groups.flatten = u.digits := by
  apply List.flatten_splitLengths
  rw [u.length_eq]
  decide

theorem slugHead_of_lowerHex {c : Char} (h : QdrantRag.lowerHex c = true) : slugHead c = true := by
  have hfz : 'f' ≤ 'z' := by decide
  simp only [QdrantRag.lowerHex, slugHead, Bool.or_eq_true, Bool.and_eq_true,
    decide_eq_true_eq] at h ⊢
  rcases h with h | ⟨ha, hf⟩
  · exact .inr h
  · exact .inl ⟨ha, Char.le_trans hf hfz⟩

theorem slugMatch_hex (u : UuidDigits) : slugMatch u.hex = true := by
  have hhead (c : Char) (hc : c ∈ u.digits) := slugHead_of_lowerHex (u.lowerHex c hc)
  rw [slugMatch_iff, hex, String.toList_ofList, u.length_eq]
  refine ⟨fun c hc => ?_, ?_, by omega, by omega⟩
  · rw [slugChar, hhead c hc, Bool.true_or]
  · cases hdigits : u.digits with
    | nil => exact absurd u.length_eq (by rw [hdigits]; decide)
    | cons c cs => exact ⟨c, rfl, hhead c (by rw [hdigits]; exact List.mem_cons_self)⟩

theorem filter_intercalate_hyphen (l : List (List Char)) :
    (['-'].intercalate l).filter (· ≠ '-') = l.flatten.filter (· ≠ '-') := by
  induction l with
  | nil => rfl
  | cons x l ih =>
    cases l with
    | nil => simp
    | cons y l =>
      rw [List.intercalate_cons_cons, List.flatten_cons, List.filter_append, List.filter_append,
        List.filter_append, ih]
      simp

theorem normalizeSlug_hyphenated (u : UuidDigits) : normalizeSlug u.hyphenated = u.hex := by
  have hdigits : u.digits = u.hex.toList := String.toList_ofList.symm
  rw [← String.toList_inj, toList_normalizeSlug, hyphenated, String.toList_ofList,
    filter_intercalate_hyphen, flatten_groups, hdigits, ← toList_normalizeSlug, String.toList_inj,
    normalizeSlug_eq_self]
  exact not_hyphen_of_slug u.slugMatch_hex

theorem ext_hex {u v : UuidDigits} (h : u.hex = v.hex) : u = v := by
  cases u with
  | mk digits =>
    cases v with
    | mk digits' =>
      obtain rfl := String.ofList_inj.mp h
      rfl

theorem length_hyphenated (u : UuidDigits) : u.hyphenated.toList.length = 36 := by
  rw [hyphenated, String.toList_ofList, groups]
  simp [List.splitLengths_cons, List.intercalate_cons_cons, u.length_eq]

end UuidDigits

/-! ## Documented identifiers -/

theorem Documented.hyphenatedSlug {s : String} (h : Documented s) : HyphenatedSlug s := by
  apply slugMatch_normalizeSlug.mp
  rcases h with h | ⟨u, rfl⟩
  · rwa [normalizeSlug_eq_self.mpr (not_hyphen_of_slug h)]
  · rw [u.normalizeSlug_hyphenated]
    exact u.slugMatch_hex

/-- An identifier is regular where it is accepted only if it is documented. -/
theorem regular_iff {s : String} : Regular s ↔ (HyphenatedSlug s ↔ Documented s) := by
  constructor
  · intro h
    refine ⟨fun hslug => ?_, Documented.hyphenatedSlug⟩
    rcases h hslug with hnone | huuid
    · left
      rw [← normalizeSlug_eq_self.mpr hnone]
      exact slugMatch_normalizeSlug.mpr hslug
    · exact .inr huuid
  · intro h hslug
    rcases h.mp hslug with hmatch | huuid
    · exact .inl (not_hyphen_of_slug hmatch)
    · exact .inr huuid

/-- Documented identifiers that are taken for one. -/
theorem Documented.eq_or_twoForms {s s' : String} (h : Documented s) (h' : Documented s')
    (he : normalizeSlug s = normalizeSlug s') : s = s' ∨ TwoForms s s' := by
  have hself {s : String} (h : slugMatch s = true) : normalizeSlug s = s :=
    normalizeSlug_eq_self.mpr (not_hyphen_of_slug h)
  rcases h with h | ⟨u, rfl⟩ <;> rcases h' with h' | ⟨v, rfl⟩
  · rw [hself h, hself h'] at he
    exact .inl he
  · rw [hself h, v.normalizeSlug_hyphenated] at he
    exact .inr ⟨v, .inr ⟨he, rfl⟩⟩
  · rw [hself h', u.normalizeSlug_hyphenated] at he
    exact .inr ⟨u, .inl ⟨rfl, he.symm⟩⟩
  · rw [u.normalizeSlug_hyphenated, v.normalizeSlug_hyphenated] at he
    rw [UuidDigits.ext_hex he]
    exact .inl rfl

/-! ## Entry points -/

/-- The requests that name a tenant and a bot. -/
inductive Addressed
  | upload (req : UploadRequest)
  | delete (req : DeleteRequest)
  | searchHttp (req : SearchHttpRequest)
  | searchRpc (request : SearchRpcRequest)

/-- Which of the two identifiers. -/
inductive Position
  | tenant_id | bot_id

namespace Position

def of {α : Type} : Position → α × α → α
  | .tenant_id, p => p.1
  | .bot_id, p => p.2

def other : Position → Position
  | .tenant_id => .bot_id
  | .bot_id => .tenant_id

end Position

namespace Addressed

/-- The identifiers as they stand in the request. -/
def ids : Addressed → String × String
  | .upload req => (req.tenant_id, req.bot_id)
  | .delete req => (req.tenant_id, req.bot_id)
  | .searchHttp req => (req.tenant_id, req.bot_id)
  | .searchRpc request => (request.tenant_id, request.bot_id)

/-- The request is answered as one whose identifiers raise `exc`. -/
def Refused (web : Web) (exc : Exc) : Addressed → Prop
  | .upload req => req.checked web = .error (invalidSlug web exc)
  | .delete req => req.checked web = .error (invalidSlug web exc)
  | .searchHttp req => req.checked web = .error (invalidSlug web exc)
  | .searchRpc request => request.checked web = .error (.invalidArgument, exc.str web.repr)

/-- The request passes the validation of its identifiers. -/
def Passes (web : Web) (r : Addressed) : Prop :=
  ∀ field_name value, ¬ r.Refused web (.invalidIdentifier field_name value)

/-- The tenant and the bot a request that is not refused is carried out for. -/
def target (web : Web) : Addressed → Option (String × String)
  | .upload req => (req.checked web).toOption.map fun x => (x.tenant_id, x.bot_id)
  | .delete req => (req.checked web).toOption.map fun x => (x.tenant_id, x.bot_id)
  | .searchHttp req => (req.checked web).toOption.map fun x => (x.tenant_id, x.bot_id)
  | .searchRpc request => (request.checked web).toOption.map fun x => (x.tenant_id, x.bot_id)

variable {web : Web} {r : Addressed}

/-- Identifiers that raise are refused for it. -/
theorem refused_of_error {exc : Exc} (h : pathSlugs r.ids.1 r.ids.2 = .error exc) :
    r.Refused web exc := by
  cases r with
  | upload req =>
    rw [ids] at h
    change UploadRequest.checked web _ = _
    unfold UploadRequest.checked
    rw [h]
  | delete req =>
    rw [ids] at h
    change DeleteRequest.checked web _ = _
    unfold DeleteRequest.checked
    rw [h]
  | searchHttp req =>
    rw [ids] at h
    change SearchHttpRequest.checked web _ = _
    unfold SearchHttpRequest.checked
    rw [h]
  | searchRpc request =>
    rw [ids] at h
    change SearchRpcRequest.checked web _ = _
    unfold SearchRpcRequest.checked
    rw [h]

/-- The message of an invalid identifier ends with the pattern, and those of the other checks end
with a full stop. -/
theorem str_invalidIdentifier_ne {repr : String → String} {field_name value text : String} :
    (Exc.invalidIdentifier field_name value).str repr ≠ text ++ "." := by
  have hends (before : String) : before ++ slugPattern ≠ text ++ "." := by
    intro h
    have hlast := congrArg (fun s => s.toList.getLast?) h
    have hpattern : slugPattern.toList.getLast? = some '$' := by decide
    have hstop : ".".toList.getLast? = some '.' := by decide
    simp only [String.toList_append, List.getLast?_append, hpattern, hstop] at hlast
    exact absurd hlast (by simp)
  exact hends _

/-- No other refusal is answered like that of an identifier. -/
theorem passes_of_ok {p : String × String} (h : pathSlugs r.ids.1 r.ids.2 = .ok p) :
    r.Passes web := by
  have hinternal (exc exc' : Exc) : internalError web exc ≠ invalidSlug web exc' := nofun
  have hpayload (errors : List FieldError) (exc : Exc) :
      invalidPayload errors ≠ invalidSlug web exc := by
    intro he
    injection he with _ hbody
    injection hbody with hcode
    exact absurd hcode (by decide)
  intro field_name value hrefused
  cases r with
  | upload req =>
    rw [ids] at h
    change UploadRequest.checked web _ = _ at hrefused
    unfold UploadRequest.checked at hrefused
    rw [h] at hrefused
    dsimp only at hrefused
    split at hrefused
    · exact hinternal _ _ (Except.error.inj hrefused)
    · split at hrefused
      · exact hpayload _ _ (Except.error.inj hrefused)
      · cases hrefused
  | delete req =>
    rw [ids] at h
    change DeleteRequest.checked web _ = _ at hrefused
    unfold DeleteRequest.checked at hrefused
    rw [h] at hrefused
    dsimp only at hrefused
    cases hrefused
  | searchHttp req =>
    rw [ids] at h
    change SearchHttpRequest.checked web _ = _ at hrefused
    unfold SearchHttpRequest.checked at hrefused
    rw [h] at hrefused
    dsimp only at hrefused
    split at hrefused
    · exact hinternal _ _ (Except.error.inj hrefused)
    · split at hrefused
      · exact hpayload _ _ (Except.error.inj hrefused)
      · cases hrefused
  | searchRpc request =>
    have hmessage (text : String) (he : (Except.error (StatusCode.invalidArgument, text ++ ".") :
        Except (StatusCode × String) Search) =
          .error (.invalidArgument, (Exc.invalidIdentifier field_name value).str web.repr)) :
        False := str_invalidIdentifier_ne (Prod.mk.inj (Except.error.inj he)).2.symm
    rw [ids] at h
    change SearchRpcRequest.checked web _ = _ at hrefused
    unfold SearchRpcRequest.checked at hrefused
    rw [h] at hrefused
    dsimp only at hrefused
    generalize (if request.top_k = 0 then defaultTopK else request.top_k) = top_k at hrefused
    split at hrefused
    · exact hmessage "Query must be non-empty" hrefused
    · split at hrefused
      · exact hmessage _ hrefused
      · split at hrefused
        · exact hmessage "filters.only_active must be true in v1" hrefused
        · cases hrefused

theorem passes_iff : r.Passes web ↔ ∃ p, pathSlugs r.ids.1 r.ids.2 = .ok p := by
  constructor
  · intro hpasses
    rcases pathSlugs_cases r.ids.1 r.ids.2 with ⟨-, h⟩ | ⟨-, field_name, value, h⟩
    · exact ⟨_, h⟩
    · exact absurd (refused_of_error h) (hpasses field_name value)
  · rintro ⟨p, hp⟩
    exact passes_of_ok hp

/-- Both identifiers have to be slugs once their hyphens are out. -/
theorem passes_iff_forall : r.Passes web ↔ ∀ pos : Position, HyphenatedSlug (pos.of r.ids) := by
  rw [passes_iff]
  constructor
  · rintro ⟨⟨T, B⟩, h⟩
    obtain ⟨hT, hB, rfl, rfl⟩ := pathSlugs_eq_ok.mp h
    intro pos
    cases pos with
    | tenant_id => exact slugMatch_normalizeSlug.mp hT
    | bot_id => exact slugMatch_normalizeSlug.mp hB
  · intro h
    exact ⟨_, pathSlugs_eq_ok.mpr ⟨slugMatch_normalizeSlug.mpr (h .tenant_id),
      slugMatch_normalizeSlug.mpr (h .bot_id), rfl, rfl⟩⟩

/-- A request is carried out for the identifiers without their hyphens. -/
theorem pathSlugs_of_target {p : String × String} (h : r.target web = some p) :
    pathSlugs r.ids.1 r.ids.2 = .ok p := by
  have hok {ε α : Type} {checked : Except ε α} {f : α → String × String}
      (h : checked.toOption.map f = some p) : ∃ x, checked = .ok x ∧ f x = p := by
    cases checked with
    | error e => cases h
    | ok x => exact ⟨x, rfl, Option.some.inj h⟩
  cases r with
  | upload req =>
    obtain ⟨x, hx, rfl⟩ := hok h
    exact UploadRequest.ids_of_checked hx
  | delete req =>
    obtain ⟨x, hx, rfl⟩ := hok h
    exact DeleteRequest.ids_of_checked hx
  | searchHttp req =>
    obtain ⟨x, hx, rfl⟩ := hok h
    exact SearchHttpRequest.ids_of_checked hx
  | searchRpc request =>
    obtain ⟨x, hx, rfl⟩ := hok h
    exact (SearchRpcRequest.checked_eq_ok hx).1

theorem target_at {p : String × String} (h : r.target web = some p) (pos : Position) :
    pos.of p = normalizeSlug (pos.of r.ids) ∧ HyphenatedSlug (pos.of r.ids) := by
  obtain ⟨T, B⟩ := p
  obtain ⟨hT, hB, rfl, rfl⟩ := pathSlugs_eq_ok.mp (pathSlugs_of_target h)
  cases pos with
  | tenant_id => exact ⟨rfl, slugMatch_normalizeSlug.mp hT⟩
  | bot_id => exact ⟨rfl, slugMatch_normalizeSlug.mp hB⟩

end Addressed

/-- The entry points accept `s` next to an identifier that is in order exactly where it is
documented. -/
def AcceptedExactly (web : Web) (s : String) : Prop :=
  ∀ (r : Addressed) (pos : Position), pos.of r.ids = s → Documented (pos.other.of r.ids) →
    (r.Passes web ↔ Documented s)

/-- Requests that name `s` and `s'` are carried out for one tenant or bot only where these are the
same, or the two forms of a UUID. -/
def ToldApart (web : Web) (s s' : String) : Prop :=
  ∀ (r r' : Addressed) (pos : Position) (p p' : String × String), pos.of r.ids = s →
    pos.of r'.ids = s' → r.target web = some p → r'.target web = some p' → pos.of p = pos.of p' →
      s = s' ∨ TwoForms s s'

theorem acceptedExactly_iff {web : Web} {s : String} : AcceptedExactly web s ↔ Regular s := by
  rw [regular_iff]
  constructor
  · intro h
    have habc : slugMatch "abc" = true := by decide
    rw [← h (.delete ⟨s, "abc", ⟨""⟩, 0, 0⟩) .tenant_id rfl (.inl habc),
      Addressed.passes_iff_forall]
    constructor
    · intro hslug pos
      cases pos with
      | tenant_id => exact hslug
      | bot_id => exact Documented.hyphenatedSlug (.inl habc)
    · exact fun hall => hall .tenant_id
  · rintro h r pos rfl hother
    rw [← h, Addressed.passes_iff_forall]
    refine ⟨fun hall => hall pos, fun hslug pos' => ?_⟩
    have hslug' := hother.hyphenatedSlug
    cases pos <;> cases pos' <;> assumption

/-- **Which identifiers are accepted.** The entry points accept `s` and `s'` exactly where they are
documented, and tell them apart, if and only if neither is a slug with hyphens in it that are not
those of a UUID. -/
theorem identifiers_documented_iff (web : Web) (s s' : String) :
    (AcceptedExactly web s ∧ AcceptedExactly web s' ∧ ToldApart web s s') ↔
      Regular s ∧ Regular s' := by
  rw [acceptedExactly_iff, acceptedExactly_iff]
  refine ⟨fun ⟨h, h', _⟩ => ⟨h, h'⟩, fun ⟨h, h'⟩ => ⟨h, h', ?_⟩⟩
  rintro r r' pos p p' rfl rfl hp hp' he
  obtain ⟨hnorm, hslug⟩ := Addressed.target_at hp pos
  obtain ⟨hnorm', hslug'⟩ := Addressed.target_at hp' pos
  rw [hnorm, hnorm'] at he
  exact Documented.eq_or_twoForms ((regular_iff.mp h).mp hslug) ((regular_iff.mp h').mp hslug') he

/-- A delete for a tenant. -/
def Sample.deleteOf (tenant_id : String) : Addressed :=
  .delete ⟨tenant_id, "support", ⟨docA⟩, 100, 0⟩

/-- A hyphen anywhere is accepted, and two names are one tenant. -/
theorem hyphen_in_slug :
    (Sample.deleteOf "a-bc").target Sample.web = some ("abc", "support") ∧
      (Sample.deleteOf "abc").target Sample.web = some ("abc", "support") ∧
      ¬ AcceptedExactly Sample.web "a-bc" ∧ ¬ ToldApart Sample.web "a-bc" "abc" := by
  have hhyphen : (Sample.deleteOf "a-bc").target Sample.web = some ("abc", "support") := by decide
  have hplain : (Sample.deleteOf "abc").target Sample.web = some ("abc", "support") := by decide
  have hslug : HyphenatedSlug "a-bc" := (Addressed.target_at hhyphen .tenant_id).2
  have hlength (u : UuidDigits) : "a-bc" ≠ u.hyphenated := by
    intro h
    exact absurd (h ▸ u.length_hyphenated) (by decide)
  refine ⟨hhyphen, hplain, fun h => ?_, fun h => ?_⟩
  · rcases acceptedExactly_iff.mp h hslug with hnone | ⟨u, hu⟩
    · exact absurd hnone (by decide)
    · exact hlength u hu
  · rcases h _ _ .tenant_id _ _ rfl rfl hhyphen hplain rfl with he | ⟨u, ⟨hu, -⟩ | ⟨hu, -⟩⟩
    · exact absurd he (by decide)
    · exact hlength u hu
    · exact absurd (hu ▸ u.slugMatch_hex) (by decide)

end QdrantRag
