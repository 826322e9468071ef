import QdrantRag.Data.Text
import QdrantRag.Model.World

/-! # Chunking and payloads

`apps/ingestion/chunker.py` and `apps/ingestion/payload.py`. The splitter and the tokenizer are
those of the environment. -/

namespace QdrantRag
open Text

/-! ## The chunker -/

structure ChunkConfig where
  size : Nat
  /-- `overlap_pct`, in hundredths. -/
  overlap_pct : Nat

/-- `CHUNK_CONFIG`, with `DEFAULT_CHUNK_CONFIG` for every other source type. -/
def chunkConfig : String → ChunkConfig
  | "pdf" => ⟨500, 15⟩
  | "docx" => ⟨500, 15⟩
  | "url" => ⟨400, 10⟩
  | "html" => ⟨400, 10⟩
  | "csv" => ⟨200, 10⟩
  | "faq" => ⟨200, 10⟩
  | "image" => ⟨300, 10⟩
  | "text" => ⟨200, 15⟩
  | _ => ⟨400, 10⟩

def minChunkChars : Nat := 50
def maxChunkTokens : Nat := 600
def charsPerToken : Nat := 4

structure Chunk where
  text : String
  chunk_index : Nat
  char_count : Nat
  token_count : Nat
  deriving DecidableEq, Repr

def countTokens (env : Env) (text : String) : Nat :=
  if text = "" then 0 else env.tokenizer_len text

/-- The `while` loop of `_truncate_to_max_tokens`. A round shortens the text, so its length is
fuel enough. -/
def truncateLoop (env : Env) : (fuel : Nat) → String → String
  | 0, truncated => truncated
  | fuel + 1, truncated =>
    if maxChunkTokens < countTokens env truncated ∧ truncated ≠ "" then
      truncateLoop env fuel (rstrip (takeChars truncated (truncated.length * 95 / 100)))
    else truncated

def truncateToMaxTokens (env : Env) (text : String) : String :=
  if text = "" then text
  else
    let n := countTokens env text
    if n ≤ maxChunkTokens then text
    else
      let truncated := rstrip (takeChars text (text.length * maxChunkTokens / n))
      truncateLoop env truncated.length truncated

/-- The chunk `text` makes at position `chunk_index`. -/
def mkChunk (env : Env) (text : String) (chunk_index : Nat) : Chunk :=
  ⟨text, chunk_index, text.length, countTokens env text⟩

/-- One round of the loop over `raw_chunks`. -/
def chunkStep (env : Env) (chunks : List Chunk) (raw_text : String) : List Chunk :=
  let text := truncateToMaxTokens env raw_text
  if text = "" then chunks
  else
    match chunks.getLast? with
    | some prev =>
      let merged := prev.text ++ " " ++ text
      if text.length < minChunkChars ∧ countTokens env merged ≤ maxChunkTokens then
        chunks.dropLast ++ [mkChunk env merged prev.chunk_index]
      else chunks ++ [mkChunk env text chunks.length]
    | none => chunks ++ [mkChunk env text chunks.length]

/-- `raw_chunks` -/
def rawChunks (env : Env) (content source_type : String) : List String :=
  let config := chunkConfig source_type
  let overlap_tokens := config.size * config.overlap_pct / 100
  ((env.split_text (config.size * charsPerToken) (overlap_tokens * charsPerToken) content).map
    strip).filter (· ≠ "")

def chunkItem (env : Env) (content source_type : String) : List Chunk :=
  if strip content = "" then []
  else
    let chunks := (rawChunks env content source_type).foldl (chunkStep env) []
    if chunks = [] then [mkChunk env (truncateToMaxTokens env (strip content)) 0] else chunks

/-! ## Payloads -/

structure ScrapedSource where
  type : String
  filename : Option String
  url : Option String
  content_hash : String

structure ScrapedItem where
  item_index : Nat
  section_path : List String
  page_number : Option Int

def buildChunkId (doc_id : String) (item_index chunk_index : Nat) : String :=
  doc_id ++ "__i" ++ toString item_index ++ "__c" ++ toString chunk_index

def buildPayload (chunk : Chunk) (tenant_id bot_id doc_id : String) (item : ScrapedItem)
    (source : ScrapedSource) (uploaded_at : Timestamp) : Payload where
  tenant_id := tenant_id
  bot_id := bot_id
  doc_id := doc_id
  chunk_id := buildChunkId doc_id item.item_index chunk.chunk_index
  version := 1
  is_active := true
  uploaded_at := uploaded_at
  source_type := source.type
  source_filename := source.filename
  source_url := source.url
  source_item_index := item.item_index
  source_content_hash := source.content_hash
  section_path := item.section_path
  page_number := item.page_number
  text := chunk.text
  char_count := chunk.char_count
  token_count := chunk.token_count

end QdrantRag
