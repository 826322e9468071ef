import QdrantRag.Data.Checked
import QdrantRag.Data.Text
import QdrantRag.Model.Rows

/-! # Validation of an upload's body

`UploadBodySerializer` of `apps/documents/serializers.py`, on the JSON value a client posts. The
fields are those of Django REST framework; how it reads numbers and UUIDs is left to `Drf`. -/

namespace QdrantRag
open Text Checked

/-- How the framework reads the values that are not strings already. -/
structure Drf where
  /-- `str(data)` of a value that is no string. -/
  str : PyValue → String
  /-- `int(re_decimal.sub("", str(data)))` -/
  int : PyValue → Option Int
  /-- The UUID a `UUIDField` makes of a value. -/
  uuid : PyValue → Option Uuid

/-- An entry of `serializer.errors`: where it stands, and its message. -/
structure FieldError where
  path : List String
  message : String
  deriving DecidableEq, Repr

/-- A field's value, or its errors. -/
abbrev Field (α : Type) := Checked FieldError α

namespace Field

variable {α : Type}

/-- `self.fail(...)` -/
def fail (message : String) : Field α := Checked.fail ⟨[], message⟩

/-- The errors of a field stand under its name. -/
def under (name : String) (field : Field α) : Field α :=
  mapErrors (fun e => { e with path := name :: e.path }) field

end Field

/-! ## The fields -/

/-- The name of a value's type. -/
def PyValue.typeName : PyValue → String
  | .none => "NoneType"
  | .bool _ => "bool"
  | .int _ => "int"
  | .float _ => "float"
  | .str _ => "str"
  | .uuid _ => "UUID"
  | .list _ => "list"
  | .dict _ => "dict"

/-- `str(data)` -/
def Drf.text (lib : Drf) : PyValue → String
  | .str s => s
  | data => lib.str data

/-- `CharField(allow_blank=...)`. It strips what it accepts. -/
def charField (lib : Drf) (allow_blank : Bool) (data : PyValue) : Field String :=
  let value := strip (lib.text data)
  if value = "" then
    if allow_blank then .ok "" else Field.fail "This field may not be blank."
  else
    match data with
    | .str _ | .int _ | .float _ =>
      if value.toList.contains '\x00' then Field.fail "Null characters are not allowed."
      else .ok value
    | _ => Field.fail "Not a valid string."

/-- `IntegerField(min_value=...)` -/
def integerField (lib : Drf) (min_value : Int) (data : PyValue) : Field Int :=
  match data with
  | .str s => if 1000 < s.length then Field.fail "String value too large." else parse
  | _ => parse
where
  parse : Field Int :=
    match lib.int data with
    | none => Field.fail "A valid integer is required."
    | some i =>
      if i < min_value then
        Field.fail ("Ensure this value is greater than or equal to " ++ toString min_value ++ ".")
      else .ok i

/-- `UUIDField()` -/
def uuidField (lib : Drf) (data : PyValue) : Field Uuid :=
  match lib.uuid data with
  | some u => .ok u
  | none => Field.fail "Must be a valid UUID."

/-- `ChoiceField(choices=...)` -/
def choiceField (lib : Drf) (choices : List String) (data : PyValue) : Field String :=
  if lib.text data ∈ choices then .ok (lib.text data)
  else Field.fail ("\"" ++ lib.text data ++ "\" is not a valid choice.")

variable {α : Type}

/-- A value that may not be null. -/
def notNull (field : PyValue → Field α) : PyValue → Field α
  | .none => Field.fail "This field may not be null."
  | data => field data

def required (field : PyValue → Field α) : Option PyValue → Field α
  | none => Field.fail "This field is required."
  | some data => notNull field data

/-- `default=...` -/
def withDefault (default : α) (field : PyValue → Field α) : Option PyValue → Field α
  | none => .ok default
  | some data => notNull field data

/-- `required=False` -/
def optional (field : PyValue → Field α) : Option PyValue → Field (Option α)
  | none => .ok none
  | some data => (notNull field data).map some

/-- `required=False, allow_null=True` -/
def nullable (field : PyValue → Field α) : Option PyValue → Field (Option (Option α))
  | none => .ok none
  | some .none => .ok (some none)
  | some data => (field data).map fun a => some (some a)

/-- The elements of a list, the errors of each under its position. -/
def children (field : PyValue → Field α) (xs : List PyValue) : Field (List α) :=
  all (xs.zipIdx.map fun (x, i) => Field.under (toString i) (notNull field x))

def notAList (data : PyValue) : String :=
  "Expected a list of items but got type \"" ++ data.typeName ++ "\"."

/-- `ListField(child=...)` -/
def listField (child : PyValue → Field α) : PyValue → Field (List α)
  | .list xs => children child xs
  | data => Field.fail (notAList data)

def nonFieldErrors : String := "non_field_errors"

/-- A serializer with `many=True`. -/
def manyField (child : PyValue → Field α) : PyValue → Field (List α)
  | .list xs => children child xs
  | data => Field.under nonFieldErrors (Field.fail (notAList data))

/-- A serializer on the keys of a dict. -/
def dictField (fields : List (String × PyValue) → Field α) : PyValue → Field α
  | .dict kvs => fields kvs
  | data => Field.under nonFieldErrors
      (Field.fail ("Invalid data. Expected a dictionary, but got " ++ data.typeName ++ "."))

/-- The field of a serializer under a key of the data. -/
def atKey (kvs : List (String × PyValue)) (key : String) (field : Option PyValue → Field α) :
    Field α := Field.under key (field (kvs.lookup key))

/-! ## The serializers -/

/-- The fields of `UploadItemSerializer`. -/
def uploadItemSerializer (lib : Drf) : PyValue → Field UploadItem :=
  dictField fun kvs =>
    ((both (atKey kvs "content" (required (charField lib false)))
      (both (atKey kvs "section_path" (withDefault [] (listField (charField lib true))))
        (both (atKey kvs "page_number" (nullable (integerField lib 1)))
          (atKey kvs "item_index" (optional (integerField lib 0)))))).map
      fun (content, section_path, page_number, item_index) =>
        ⟨content, section_path, page_number, item_index⟩)

def sourceTypes : List String := ["pdf", "docx", "url", "html", "csv", "faq", "image", "text"]

/-- `sorted(REMOVED_FIELDS)` -/
def removedFields : List String := ["custom_metadata", "language"]

/-- `sorted(REMOVED_ITEM_FIELDS)` -/
def removedItemFields : List String := ["item_type", "language", "title", "url"]

/-- The ids that come from the URL path, sorted. -/
def pathIds : List String := ["bot_id", "tenant_id"]

/-- The fields of `UploadBodySerializer`. -/
def uploadBodyFields (lib : Drf) (kvs : List (String × PyValue)) : Field UploadBody :=
  (both (atKey kvs "doc_id" (optional (uuidField lib)))
    (both (atKey kvs "source_type" (withDefault "text" (choiceField lib sourceTypes)))
      (both (atKey kvs "source_filename" (nullable (charField lib true)))
        (both (atKey kvs "source_url" (nullable (charField lib true)))
          (both (atKey kvs "content_hash" (nullable (charField lib true)))
            (atKey kvs "items" (required (manyField (uploadItemSerializer lib))))))))).map
    fun (doc_id, source_type, source_filename, source_url, content_hash, items) =>
      ⟨doc_id, source_type, source_filename, source_url, content_hash, items⟩

/-- The `str` of a list of names. -/
def namesText (names : List String) : String :=
  "[" ++ ", ".intercalate (names.map fun name => "'" ++ name ++ "'") ++ "]"

/-- `raise serializers.ValidationError(...)` with an error code and a message. -/
def validationError (error_code message : String) : Field α :=
  .error [⟨["error_code"], error_code⟩, ⟨["message"], message⟩]

/-- The keys of a dict that are among `names`, in the order of `names`. -/
def forbidden (names : List String) (kvs : List (String × PyValue)) : List String :=
  names.filter (· ∈ kvs.map Prod.fst)

/-- The loop over `raw_items`. -/
def checkRawItems (i : Nat) : List PyValue → Field Unit
  | [] => .ok ()
  | .dict kvs :: rest =>
    if forbidden removedItemFields kvs = [] then checkRawItems (i + 1) rest
    else
      validationError "removed_field" ("items[" ++ toString i ++ "] contains removed fields " ++
        namesText (forbidden removedItemFields kvs) ++ ". Drop them.")
  | _ :: rest => checkRawItems (i + 1) rest

/-- `self.initial_data.get("items") or []` -/
def rawItems (kvs : List (String × PyValue)) : List PyValue :=
  match kvs.lookup "items" with
  | some (.list xs) => xs
  | _ => []

/-- `UploadBodySerializer.validate` -/
def validate (kvs : List (String × PyValue)) (attrs : UploadBody) : Field UploadBody :=
  if forbidden removedFields kvs ≠ [] then
    validationError "removed_field" ("Fields " ++ namesText (forbidden removedFields kvs) ++
      " were removed in Phase 7.5. Drop them from the request body.")
  else if forbidden pathIds kvs ≠ [] then
    validationError "id_in_body" ("Body must not contain " ++ namesText (forbidden pathIds kvs) ++
      " — these come from the URL path.")
  else
    match checkRawItems 0 (rawItems kvs) with
    | .error es => .error es
    | .ok () =>
      if attrs.items = [] then validationError "empty_items" "items[] must not be empty."
      else .ok attrs

/-- The fields of the body, and `validate` if none of them has errors. -/
def validated (lib : Drf) (kvs : List (String × PyValue)) : Field UploadBody :=
  match uploadBodyFields lib kvs with
  | .error es => .error es
  | .ok attrs => validate kvs attrs

/-- `UploadBodySerializer(data=...)`: its `validated_data`, or its `errors`. -/
def uploadBodySerializer (lib : Drf) : PyValue → Field UploadBody
  | .none => Field.under nonFieldErrors (Field.fail "No data provided")
  | data => dictField (validated lib) data

end QdrantRag
