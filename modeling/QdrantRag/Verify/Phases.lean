import QdrantRag.Verify.Chunks
import QdrantRag.Verify.Writes

/-! # The phases of a writing request

An upload or delete as a state machine: it waits for its lock, goes through the stages below while
it holds it, and is finished once it has given it back. `Step` says which call a request can make
in which phase, what it knows then, and which phase the call leads to. A stage records what took
effect, not what the request was told: a write whose reply is lost still counts. -/

namespace QdrantRag
open Keyed Effect

/-- How far a request under its lock has come. -/
inductive Stage
  | locked
  /-- The bot row of its pair exists. -/
  | registered
  /-- It has looked up the row of its document, which is its own or absent. -/
  | found (existing : Option Document)
  /-- No other document of the bot has its content. -/
  | unmatched (existing : Option Document)
  /-- Its collection exists. -/
  | indexing (existing : Option Document)
  /-- A deletion of the old points failed; they may be gone. -/
  | clearing (row : Document)
  /-- The old points are gone. -/
  | cleared (row : Document)
  /-- The new points are there. -/
  | upserted (existing : Option Document)
  /-- The row is written. -/
  | stored (existing : Option Document)
  /-- The row is marked deleted. -/
  | deleted (row : Document)
  /-- `row` holds the content already. -/
  | refreshing (row : Document)
  | refreshed (row : Document)
  /-- It gave up between its writes, the new points being there (`wrote`) or not. -/
  | torn (wrote : Bool) (existing : Option Document)

inductive Phase
  | waiting
  | holding (st : Stage)
  | finished (st : Stage)

namespace Write

/-- The name of the pair's collection. -/
def collection (w : Write) : String := joinName w.tenant_id w.bot_id

def key (env : Env) (w : Write) : Except Exc LockKey :=
  advisoryLockKey env.sha256 w.tenant_id w.bot_id w.doc_id

end Write

namespace Stage

/-- A request may make calls that write nothing here, and stay. -/
def idles : Stage → Bool
  | .locked | .registered | .found _ | .unmatched _ | .indexing _ | .clearing _ => true
  | _ => false

/-- A request may give its lock back here. Between its writes it goes on, or is `torn`. -/
def rests : Stage → Bool
  | .cleared _ | .upserted _ => false
  | _ => true

/-- The stages at which the points of the document are deleted, and the row they belong to. -/
inductive Clears : Write → Stage → Document → Prop
  | upload {x row} : Clears (.upload x) (.indexing (some row)) row
  | delete {x row} : Clears (.delete x) (.found (some row)) row
  | again {w row} : Clears w (.clearing row) row

/-- The stages at which the new points are upserted. -/
inductive Upserts : Stage → Option Document → Prop
  | create : Upserts (.indexing none) none
  | replace {row} : Upserts (.cleared row) (some row)

end Stage

/-- The row a `no_change` answer may be about: it has the request's content. -/
structure SameContent (env : Env) (x : Upload) (row : Document) : Prop where
  owner : row.owner = (x.tenant_id, x.bot_id)
  indexed : 0 < row.chunk_count
  content_hash : row.content_hash = incomingHash env x.body

section Step
variable (env : Env) (i : Nat) (w : Write)

/-- The calls of the request `w` in session `i`, phase by phase. -/
inductive Step : Phase → Call → Phase → Prop
  | poll {k c s} (hk : w.key env = .ok k)
      (hnot : (exec env i (.tryAdvisoryLock k) c s).1 ≠ .ok true) :
      Step .waiting ⟨.tryAdvisoryLock k, c, s⟩ .waiting
  | acquire {k c s} (hk : w.key env = .ok k)
      (hgot : (exec env i (.tryAdvisoryLock k) c s).1 = .ok true) :
      Step .waiting ⟨.tryAdvisoryLock k, c, s⟩ (.holding .locked)
  | sleep {t c s} : Step .waiting ⟨.sleep t, c, s⟩ .waiting
  | quiet {st o c s} (hst : st.idles = true) (hq : o.quiet = true) :
      Step (.holding st) ⟨o, c, s⟩ (.holding st)
  | register {o c s} (hq : o.quiet = true)
      (hbot : ∃ b ∈ (exec env i o c s).2.bots.rows, b.pair = w.pair) :
      Step (.holding .locked) ⟨o, c, s⟩ (.holding .registered)
  | find {x c s} (hw : w = .upload x)
      (hown : ∀ row, s.row w.doc_id = some row → row.owner = w.pair ∧ ¬ SameContent env x row) :
      Step (.holding .registered) ⟨.documentFirst w.doc_id, c, s⟩
        (.holding (.found (s.row w.doc_id)))
  | same {x row c s} (hw : w = .upload x) (hrow : s.row w.doc_id = some row)
      (hsame : SameContent env x row) :
      Step (.holding .registered) ⟨.documentFirst w.doc_id, c, s⟩ (.holding (.refreshing row))
  | own {x row c s} (hw : w = .delete x) (hrow : s.row w.doc_id = some row)
      (hown : row.owner = w.pair) :
      Step (.holding .locked) ⟨.documentFirst w.doc_id, c, s⟩ (.holding (.found (some row)))
  | unmatched {x ex c s} (hw : w = .upload x)
      (hno : contentMatches s w.tenant_id w.bot_id (incomingHash env x.body) w.doc_id = []) :
      Step (.holding (.found ex))
        ⟨.documentMatch w.tenant_id w.bot_id (incomingHash env x.body) w.doc_id, c, s⟩
        (.holding (.unmatched ex))
  | matched {x ex row c s} (hw : w = .upload x)
      (hrow : row ∈ contentMatches s w.tenant_id w.bot_id (incomingHash env x.body) w.doc_id) :
      Step (.holding (.found ex))
        ⟨.documentMatch w.tenant_id w.bot_id (incomingHash env x.body) w.doc_id, c, s⟩
        (.holding (.refreshing row))
  | refresh {x row c s} (hw : w = .upload x)
      (happ : Call.applied env i ⟨.documentSave row [.last_refreshed_at] x.now, c, s⟩ = true) :
      Step (.holding (.refreshing row)) ⟨.documentSave row [.last_refreshed_at] x.now, c, s⟩
        (.holding (.refreshed row))
  | refreshFails {x row c s} (hw : w = .upload x)
      (happ : Call.applied env i ⟨.documentSave row [.last_refreshed_at] x.now, c, s⟩ = false) :
      Step (.holding (.refreshing row)) ⟨.documentSave row [.last_refreshed_at] x.now, c, s⟩
        (.holding (.refreshing row))
  | collection {x st ex o c s} (hw : w = .upload x) (hst : st = .unmatched ex ∨ st = .indexing ex)
      (hq : o.quiet = true) (hcol : (exec env i o c s).2.HasCollection w.collection) :
      Step (.holding st) ⟨o, c, s⟩ (.holding (.indexing ex))
  | absent {st row c s} (hst : st.Clears w row) (hno : ¬ s.HasCollection w.collection) :
      Step (.holding st) ⟨.collectionExists w.collection, c, s⟩ (.holding (.cleared row))
  | clear {st row c s} (hst : st.Clears w row)
      (hok : Event.ok (exec env i) ⟨.deletePoints w.collection (docFilter w.doc_id), c, s⟩ = true) :
      Step (.holding st) ⟨.deletePoints w.collection (docFilter w.doc_id), c, s⟩
        (.holding (.cleared row))
  | clearFails {st row c s} (hst : st.Clears w row)
      (hok : Event.ok (exec env i)
        ⟨.deletePoints w.collection (docFilter w.doc_id), c, s⟩ = false) :
      Step (.holding st) ⟨.deletePoints w.collection (docFilter w.doc_id), c, s⟩
        (.holding (.clearing row))
  | upsert {x st ex c s} (hw : w = .upload x) (hst : st.Upserts ex)
      (hlen : 1 ≤ (x.points env).length ∧ (x.points env).length ≤ maxChunksPerDoc)
      (hok : Event.ok (exec env i) ⟨.upsert w.collection (x.points env), c, s⟩ = true) :
      Step (.holding st) ⟨.upsert w.collection (x.points env), c, s⟩ (.holding (.upserted ex))
  | upsertFails {x st ex c s} (hw : w = .upload x) (hst : st.Upserts ex)
      (hok : Event.ok (exec env i) ⟨.upsert w.collection (x.points env), c, s⟩ = false) :
      Step (.holding st) ⟨.upsert w.collection (x.points env), c, s⟩
        (.holding (.torn (Call.applied env i ⟨.upsert w.collection (x.points env), c, s⟩) ex))
  | store {x ex bot c s} (hw : w = .upload x) (hbot : Bot.pair bot = w.pair)
      (happ : Call.applied env i ⟨.documentUpdateOrCreate w.doc_id
        (uploadDefaults env x bot (x.points env).length) x.now, c, s⟩ = true) :
      Step (.holding (.upserted ex)) ⟨.documentUpdateOrCreate w.doc_id
        (uploadDefaults env x bot (x.points env).length) x.now, c, s⟩ (.holding (.stored ex))
  | storeFails {x ex bot c s} (hw : w = .upload x) (hbot : Bot.pair bot = w.pair)
      (happ : Call.applied env i ⟨.documentUpdateOrCreate w.doc_id
        (uploadDefaults env x bot (x.points env).length) x.now, c, s⟩ = false) :
      Step (.holding (.upserted ex)) ⟨.documentUpdateOrCreate w.doc_id
        (uploadDefaults env x bot (x.points env).length) x.now, c, s⟩ (.holding (.torn true ex))
  | erase {x row c s} (hw : w = .delete x)
      (happ : Call.applied env i ⟨.documentSave row.asDeleted deleteFields x.now, c, s⟩ = true) :
      Step (.holding (.cleared row)) ⟨.documentSave row.asDeleted deleteFields x.now, c, s⟩
        (.holding (.deleted row))
  | eraseFails {x row c s} (hw : w = .delete x)
      (happ : Call.applied env i ⟨.documentSave row.asDeleted deleteFields x.now, c, s⟩ = false) :
      Step (.holding (.cleared row)) ⟨.documentSave row.asDeleted deleteFields x.now, c, s⟩
        (.holding (.torn false (some row)))
  | unlock {k st c s} (hk : w.key env = .ok k) (hst : st.rests = true) :
      Step (.holding st) ⟨.advisoryUnlock k, c, s⟩ (.finished st)

end Step

/-- The replies a request can give when it finishes at a stage. -/
inductive Answers (env : Env) : Write → Stage → Reply → Prop
  | refreshed {x row} : Answers env (.upload x) (.refreshed row)
      (.upload ⟨row.doc_id, row.chunk_count, row.item_count, joinName x.tenant_id x.bot_id,
        .noChange⟩)
  | stored {x ex} : Answers env (.upload x) (.stored ex)
      (.upload ⟨x.doc_id, (x.points env).length, x.body.items.length, joinName x.tenant_id x.bot_id,
        if ex.isSome then .replaced else .created⟩)
  | deleted {x row chunks_deleted} : Answers env (.delete x) (.deleted row)
      (.delete ⟨x.doc_id, chunks_deleted, row.status == .deleted⟩)

end QdrantRag
