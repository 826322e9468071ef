import Mathlib.Data.Rat.Defs

/-! # Values and exceptions

The Python values the service passes around (`PyValue`), and the exceptions it raises or meets:
those of `apps/qdrant_core/exceptions.py` and `apps/documents/exceptions.py`, and those of its
clients. -/

namespace QdrantRag

/-- A `uuid.UUID`, by its canonical string. -/
structure Uuid where
  canonical : String
  deriving DecidableEq, Repr

/-- A reading of the clock. -/
abbrev Timestamp := Nat

/-- The values in a request body and in a stored payload. -/
inductive PyValue
  | none
  | bool (b : Bool)
  | int (i : Int)
  | float (q : Rat)
  | str (s : String)
  | uuid (u : Uuid)
  | list (xs : List PyValue)
  | dict (kvs : List (String × PyValue))

namespace PyValue

mutual
/-- `json.dumps` without a custom encoder accepts the value. -/
def jsonEncodable : PyValue → Bool
  | .uuid _ => false
  | .list xs => allEncodable xs
  | .dict kvs => valuesEncodable kvs
  | _ => true

def allEncodable : List PyValue → Bool
  | [] => true
  | x :: xs => jsonEncodable x && allEncodable xs

def valuesEncodable : List (String × PyValue) → Bool
  | [] => true
  | (_, x) :: kvs => jsonEncodable x && valuesEncodable kvs
end

end PyValue

/-- The status codes of gRPC the service distinguishes. -/
inductive StatusCode
  | ok | cancelled | unknown | invalidArgument | deadlineExceeded | notFound | alreadyExists
  | permissionDenied | resourceExhausted | failedPrecondition | aborted | outOfRange
  | unimplemented | internal | unavailable | dataLoss | unauthenticated
  deriving DecidableEq, Repr

/-- The subclasses of `UploadError`. -/
inductive UploadErrorKind
  | invalidPayload | noEmbeddableContent | qdrantWrite | embedder | concurrentUpload
  | documentTooLarge | documentNotFound
  deriving DecidableEq, Repr

def UploadErrorKind.http_status : UploadErrorKind → Nat
  | .invalidPayload => 400
  | .noEmbeddableContent => 422
  | .qdrantWrite => 500
  | .embedder => 500
  | .concurrentUpload => 409
  | .documentTooLarge => 422
  | .documentNotFound => 404

def UploadErrorKind.code : UploadErrorKind → String
  | .invalidPayload => "invalid_payload"
  | .noEmbeddableContent => "no_embeddable_content"
  | .qdrantWrite => "qdrant_write_failed"
  | .embedder => "embedder_failed"
  | .concurrentUpload => "concurrent_upload"
  | .documentTooLarge => "too_many_chunks"
  | .documentNotFound => "document_not_found"

/-- Exceptions. A message that quotes another exception keeps it as `cause`. -/
inductive Exc
  /-- `grpc.RpcError`; `none` where the error carries no callable `code`. -/
  | rpcError (code : Option StatusCode) (msg : String)
  /-- `qdrant_client.http.exceptions.UnexpectedResponse`. -/
  | unexpectedResponse (status_code : Nat) (msg : String)
  /-- `django.db.IntegrityError`. -/
  | integrityError (msg : String)
  /-- `Model.DoesNotExist`. -/
  | doesNotExist (model : String)
  /-- Any other class of Python or of a library, by name. -/
  | raised (type_name msg : String)
  | invalidIdentifier (field_name value : String)
  | qdrantConnection (attempts : Nat) (last_exc : Option Exc)
  | schemaMismatch (collection_name : String) (diff : List (String × String))
  | qdrantOperation (msg : String) (cause : Exc)
  | collectionNotFound (collection_name : String)
  | upload (kind : UploadErrorKind) (msg : String) (cause : Option Exc)
      (details : List (String × PyValue)) (retry_after : Option Nat)

/-- `isinstance(exc, QdrantError)`. -/
def Exc.isQdrantError : Exc → Bool
  | .qdrantConnection .. | .schemaMismatch .. | .qdrantOperation .. | .collectionNotFound .. => true
  | _ => false

/-- An `UploadError` whose message quotes no other exception. -/
def Exc.uploadError (kind : UploadErrorKind) (msg : String) (details : List (String × PyValue)) :
    Exc := .upload kind msg none details none

end QdrantRag
