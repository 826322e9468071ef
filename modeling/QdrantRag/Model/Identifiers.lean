import QdrantRag.Model.Values

/-! # Identifiers

`apps/tenants/validators.py` and `apps/qdrant_core/naming.py`: slugs, the collection name of a
(tenant, bot) pair and the advisory lock key of a document. -/

namespace QdrantRag

/-! ## Slugs -/

/-- `[a-z0-9]` -/
def slugHead (c : Char) : Bool := ('a' ≤ c && c ≤ 'z') || ('0' ≤ c && c ≤ '9')

/-- `[a-z0-9_]` -/
def slugChar (c : Char) : Bool := slugHead c || c == '_'

/-- `SLUG_REGEX.fullmatch`, for `^[a-z0-9][a-z0-9_]{2,39}$`. -/
def slugMatch (value : String) : Bool :=
  match value.toList with
  | [] => false
  | c :: cs => slugHead c && cs.all slugChar && 2 ≤ cs.length && cs.length ≤ 39

def validateSlug (value field_name : String) : Except Exc Unit :=
  if slugMatch value then .ok () else .error (.invalidIdentifier field_name value)

/-- `value.replace("-", "")` -/
def normalizeSlug (value : String) : String := String.ofList (value.toList.filter (· ≠ '-'))

/-! ## Collection names -/

/-- The string a collection name is made of, before its parts are validated. -/
def joinName (tenant_id bot_id : String) : String := "t_" ++ tenant_id ++ "__b_" ++ bot_id

/-- The only constructor of collection names. -/
def collectionName (tenant_id bot_id : String) : Except Exc String := do
  validateSlug tenant_id "tenant_id"
  validateSlug bot_id "bot_id"
  return joinName tenant_id bot_id

theorem collectionName_eq_ok {T B name : String} :
    collectionName T B = .ok name ↔
      slugMatch T = true ∧ slugMatch B = true ∧ joinName T B = name := by
  unfold collectionName validateSlug
  cases slugMatch T <;> cases slugMatch B <;>
    simp [bind, Except.bind, pure, Except.pure]

/-- A name is refused for one of its slugs only. -/
theorem collectionName_eq_error {T B : String} {e : Exc} (h : collectionName T B = .error e) :
    ∃ field_name value, e = .invalidIdentifier field_name value := by
  unfold collectionName validateSlug at h
  cases hT : slugMatch T <;> cases hB : slugMatch B <;>
    simp only [hT, hB, bind, Except.bind, pure, Except.pure, if_true, Bool.false_eq_true,
      if_false] at h <;> cases h
  · exact ⟨_, _, rfl⟩
  · exact ⟨_, _, rfl⟩
  · exact ⟨_, _, rfl⟩

/-- A slug is at most 40 characters long. -/
theorem slugMatch_length {s : String} (h : slugMatch s = true) : s.length ≤ 40 := by
  unfold slugMatch at h
  rw [← String.length_toList]
  split at h
  · simp at h
  · next c cs hs =>
    simp only [Bool.and_eq_true, decide_eq_true_eq] at h
    simp only [hs, List.length_cons]
    omega

/-! ## Lock keys -/

/-- A SHA-256 digest. -/
structure Digest where
  bytes : List UInt8
  length_eq : bytes.length = 32

def hexDigit (n : UInt8) : Char := "0123456789abcdef".toList.getD n.toNat '0'

/-- `digest.hexdigest()` -/
def Digest.hexdigest (d : Digest) : String :=
  String.ofList (d.bytes.flatMap fun b => [hexDigit (b / 16), hexDigit (b % 16)])

theorem Digest.length_hexdigest (d : Digest) : d.hexdigest.length = 64 := by
  have : ∀ l : List UInt8, (l.flatMap fun b => [hexDigit (b / 16), hexDigit (b % 16)]).length =
      2 * l.length := by
    intro l
    induction l with
    | nil => rfl
    | cons b l ih => simp only [List.flatMap_cons, List.length_append, ih, List.length_cons,
        List.length_nil]; omega
  simp [hexdigest, this, d.length_eq]

/-- `s.encode("utf-8")` -/
def utf8 (s : String) : List UInt8 := s.toUTF8.data.toList

theorem utf8_inj {s t : String} : utf8 s = utf8 t ↔ s = t := by
  unfold utf8
  rw [Array.toList_inj, ← ByteArray.ext_iff, String.toUTF8_eq_toByteArray,
    String.toUTF8_eq_toByteArray, String.toByteArray_inj]

/-- A pair of 32-bit integers. -/
abbrev LockKey := Int × Int

/-- One field of `struct.unpack(">ii", ...)`: four bytes, big-endian, two's complement. -/
def unpackInt32 (bytes : List UInt8) : Int :=
  let n : Nat := bytes.foldl (fun acc b => acc * 256 + b.toNat) 0
  if n < 0x80000000 then n else (n : Int) - 0x100000000

def advisoryLockKey (sha256 : List UInt8 → Digest) (tenant_id bot_id doc_id : String) :
    Except Exc LockKey := do
  validateSlug tenant_id "tenant_id"
  validateSlug bot_id "bot_id"
  if doc_id = "" then
    .error (.raised "ValueError" "doc_id must be a non-empty string, got ''")
  else
    let digest := sha256 (utf8 (tenant_id ++ "|" ++ bot_id ++ "|" ++ doc_id))
    return (unpackInt32 (digest.bytes.take 4), unpackInt32 ((digest.bytes.drop 4).take 4))

/-- The slugs have to be valid and the document id not empty, and nothing else. -/
theorem advisoryLockKey_isOk {sha256 : List UInt8 → Digest} {T B d : String} :
    (∃ k, advisoryLockKey sha256 T B d = .ok k) ↔
      slugMatch T = true ∧ slugMatch B = true ∧ d ≠ "" := by
  unfold advisoryLockKey validateSlug
  by_cases hd : d = "" <;> cases slugMatch T <;> cases slugMatch B <;>
    simp [bind, Except.bind, pure, Except.pure, hd]

end QdrantRag
