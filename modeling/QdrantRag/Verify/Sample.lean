import Mathlib.Logic.Equiv.Basic
import QdrantRag.Model.Views
import QdrantRag.Verify.Chunks

/-! # A small service

Libraries that give on a few short inputs what the real ones give, up to the embedding, and requests
on them. -/

namespace QdrantRag.Sample
open Effect

/-! ## The libraries -/

def docA : String := "11111111-1111-4111-8111-111111111111"
def docB : String := "22222222-2222-4222-8222-222222222222"

/-- Chunk ids and their point ids. -/
def pointIds : List (String × String) := [
  ("11111111-1111-4111-8111-111111111111__i0__c0", "52c8fb19-1d9a-55ad-a9d9-872e1e474457"),
  ("11111111-1111-4111-8111-111111111111__i1__c0", "03e179a7-eb6a-5012-9157-5e18894de65b"),
  ("22222222-2222-4222-8222-222222222222__i0__c0", "188715a9-daf1-5765-b6e4-7172a557ac69")]

/-- `uuid5` on chunk ids, one to one on all strings. -/
def uuid5 : Equiv.Perm String :=
  pointIds.foldr (fun (name, id) e => (Equiv.swap name id).trans e) (Equiv.refl String)

/-- The texts that lock keys are made of, and their digests. -/
def lockDigests : List (String × Nat) := [
  ("abc|xyz__b_def|11111111-1111-4111-8111-111111111111",
    0x4d8b15c5641bdddd1d87f9467f90e2f93980c4e4fabf7b87883bf8431774e577),
  ("abc__b_xyz|def|11111111-1111-4111-8111-111111111111",
    0x7ca0f409790af275b70c8e5668286d01acfd97a09ecfeca38f3d8477acf01968),
  ("acme|support|11111111-1111-4111-8111-111111111111",
    0xeb54330ff8376b6914d773f0be9ec7d4d3f6d7b3e37a59af33442222a222a746),
  ("acme|support|22222222-2222-4222-8222-222222222222",
    0x803feb5a0422ac54c8c706038580333291cb3cbe65755df4880c72154a7a9e82),
  ("acme|sales|11111111-1111-4111-8111-111111111111",
    0xd37a180ade35e21294d16125a1e137bf3375ff4cf2cd4763047305f3679e12df),
  ("acme|sales|22222222-2222-4222-8222-222222222222",
    0x4794876f2794b7b1bd6e737e6349e2e89ec2c3838046e3a0e1c00ebdd4766997),
  ("globex|sales|11111111-1111-4111-8111-111111111111",
    0x6625f148c295759a6ca470864864a53850596f3b6508b1b8d4afe83fbca5badc),
  ("globex|sales|22222222-2222-4222-8222-222222222222",
    0x474a742e46e5e5d001f6772a575ea618e0c20d0622d15df17ffd4d9fb8838b20)]

def digest (n : Nat) : Digest :=
  ⟨(List.range 32).map fun i => UInt8.ofNat (n >>> (8 * (31 - i))), by simp⟩

/-- A text of one token that is not split, and a unit vector for each. -/
def env : Env where
  uuid5 := uuid5
  sha256 := fun bytes =>
    digest (((lockDigests.map fun (text, n) => (utf8 text, n)).lookup bytes).getD 0)
  split_text := fun _ _ text => [text]
  tokenizer_len := fun _ => 1
  encode := fun _ =>
    let unit : List Rat := 1 :: List.replicate 1023 0
    ⟨unit, [(35378, 1)], [unit]⟩
  query_points := fun pts q =>
    ((pts.filter fun p => q.query_filter.holds p.payload).take q.limit).map fun p =>
      ⟨p.id, p.payload, 1⟩
  query_mem := by
    intro pts q r hr
    obtain ⟨p, hp, rfl⟩ := List.mem_map.mp hr
    exact ⟨p, List.mem_of_mem_filter (List.mem_of_mem_take hp), rfl⟩
  transport := .grpc
  uniform := fun _ => 0

/-- Numbers and UUIDs are read from their own values and their text. -/
def web : Web where
  drf :=
    { str := fun _ => ""
      int := fun data =>
        match data with
        | .int i => some i
        | _ => none
      uuid := fun data =>
        match data with
        | .str s => some ⟨s⟩
        | _ => none }
  repr := fun s => "'" ++ s ++ "'"

theorem env_distinctIds {W : Set Write} : env.DistinctIds W := uuid5.injective.injOn

/-! ## Requests -/

def acme : String × String := ("acme", "support")
def acmeSales : String × String := ("acme", "sales")
def globex : String × String := ("globex", "sales")

/-- A body without a document id. -/
def body (content_hash : String) (texts : List String) : UploadBody where
  doc_id := none
  source_type := "text"
  source_filename := none
  source_url := none
  content_hash := some (some content_hash)
  items := texts.map fun text => ⟨text, [], none, none⟩

def upload (pair : String × String) (doc_id content_hash : String) (texts : List String) : Upload :=
  ⟨pair.1, pair.2, doc_id, body content_hash texts, 100, 0, fun _ => 0⟩

def delete (pair : String × String) (doc_id : String) : Delete := ⟨pair.1, pair.2, doc_id, 100, 0⟩

def search (pair : String × String) (query : String) : Search :=
  ⟨pair.1, pair.2, query, 5, none, none, none⟩

/-- No call fails. -/
def served : Nat → Fault := fun _ => .none

/-- The connection is lost at the `n`-th call, before it has taken effect. -/
def failing (n : Nat) : Nat → Fault := fun m =>
  if m = n then .before (.raised "OperationalError" "connection lost") else .none

/-- The connection is lost for a moment at the `n`-th call. -/
def faltering (n : Nat) : Nat → Fault := fun m =>
  if m = n then .before (.rpcError (some .unavailable) "unavailable") else .none

/-- The collection of `acme`. -/
def support : String := "t_acme__b_support"

def uploading (x : Upload) : Job := ⟨.write (.upload x), 0, served⟩

def deleting (x : Delete) : Job := ⟨.write (.delete x), 0, served⟩

/-- `acme` has uploaded a document. -/
def greeted : World := World.after env [uploading (upload acme docA "h1" ["Hello"])] World.empty

/-- Two uploads, the second over and over. -/
def two (x y : Upload) : Nat → Upload
  | 0 => x
  | _ => y

/-- Requests take turns at their calls, none of which fails. -/
def turns (order : List Nat) : List (Nat × Fault) := order.map (·, .none)

/-- First request 0 runs and then request 1. -/
def inTurn : List (Nat × Fault) := turns (List.replicate 40 0 ++ List.replicate 40 1)

/-- Request 1 runs while request 0 is between creating its collection and embedding. -/
def during : List (Nat × Fault) := turns (List.replicate 15 0 ++ List.replicate 40 1)

/-- Request 0 runs on after request 1. -/
def overlapping : List (Nat × Fault) := during ++ turns (List.replicate 40 0)

/-! ## Replies -/

theorem reply_of_toOption {α : Type} {reply : Except Exc α} {a : α}
    (h : reply.toOption = some a) : reply = .ok a := by
  cases reply with
  | error e => cases h
  | ok b =>
    cases h
    rfl

def uploaded : Except Exc Reply → Option UploadResult
  | .ok (.upload r) => some r
  | _ => none

def searched : Except Exc Reply → Option SearchResult
  | .ok (.search r) => some r
  | _ => none

theorem exists_uploaded {rep : Except Exc Reply} {p : UploadResult → Prop}
    (h : ∃ r ∈ uploaded rep, p r) : ∃ r, rep = .ok (.upload r) ∧ p r := by
  obtain ⟨r, hr, hp⟩ := h
  unfold uploaded at hr
  split at hr <;> cases hr
  exact ⟨r, rfl, hp⟩

theorem exists_searched {rep : Except Exc Reply} {p : SearchResult → Prop}
    (h : ∃ r ∈ searched rep, p r) : ∃ r, rep = .ok (.search r) ∧ p r := by
  obtain ⟨r, hr, hp⟩ := h
  unfold searched at hr
  split at hr <;> cases hr
  exact ⟨r, rfl, hp⟩

/-- The document and the content of each point of a collection. -/
def contents (s : World) (name : String) : List (String × String) :=
  (s.points name).rows.map fun pt => (pt.payload.doc_id, pt.payload.source_content_hash)

end QdrantRag.Sample
