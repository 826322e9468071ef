import QdrantRag.Model.Search

/-! # The service

Requests, and the two ways they reach the stores: one after the other (`World.after`), and
interleaved call by call (`interleave`), every request in a database session of its own. -/

namespace QdrantRag
open Effect Effect.Prog

inductive Reply
  | upload (r : UploadResult)
  | delete (r : DeleteResult)
  | search (r : SearchResult)

/-! ## Writing requests -/

/-- The requests that take the lock of a document. -/
inductive Write
  | upload (x : Upload)
  | delete (x : Delete)

namespace Write

def tenant_id : Write → String
  | .upload x => x.tenant_id
  | .delete x => x.tenant_id

def bot_id : Write → String
  | .upload x => x.bot_id
  | .delete x => x.bot_id

def doc_id : Write → String
  | .upload x => x.doc_id
  | .delete x => x.doc_id

/-- The (tenant, bot) pair of the request. -/
def pair (w : Write) : String × String := (w.tenant_id, w.bot_id)

def program (env : Env) : Write → Program Reply
  | .upload x => do return .upload (← UploadPipeline.execute env x)
  | .delete x => do return .delete (← DeletePipeline.execute env x)

end Write

inductive Request
  | write (w : Write)
  | search (x : Search)

def Request.program (env : Env) : Request → Program Reply
  | .write w => w.program env
  | .search x => do return .search (← QdrantRag.search env x)

/-! ## One request after the other -/

/-- A request with the session that serves it and what the environment does at each of its
calls. -/
structure Job where
  request : Request
  session : Nat
  faults : Nat → Fault

/-- A job's run: what it replies, the state it leaves and the calls it made. -/
def Job.run (env : Env) (job : Job) (s : World) : Outcome Op Exc Reply Fault World :=
  (job.request.program env).run (exec env job.session) job.faults s

/-- The state after some jobs in turn. -/
def World.after (env : Env) : List Job → World → World
  | [], s => s
  | job :: jobs, s => World.after env jobs (job.run env s).state

theorem World.after_append (env : Env) (jobs jobs' : List Job) (s : World) :
    World.after env (jobs ++ jobs') s = World.after env jobs' (World.after env jobs s) := by
  induction jobs generalizing s with
  | nil => rfl
  | cons job jobs ih => exact ih _

/-- The jobs, each with the calls it makes. -/
def World.history (env : Env) : List Job → World → List (Job × List Call)
  | [], _ => []
  | job :: jobs, s => (job, (job.run env s).trace) :: World.history env jobs (job.run env s).state

theorem World.history_append (env : Env) (jobs jobs' : List Job) (s : World) :
    World.history env (jobs ++ jobs') s =
      World.history env jobs s ++ World.history env jobs' (World.after env jobs s) := by
  induction jobs generalizing s with
  | nil => rfl
  | cons job jobs ih => exact congrArg (_ :: ·) (ih _)

/-- No call of the job fails for a reason outside the service. -/
def Job.FaultFree (job : Job) : Prop := ∀ n, job.faults n = .none

/-! ## Interleaved requests -/

/-- Requests under way; request `i` runs in session `i`. -/
abbrev Service := Pool Nat Ans Exc Reply Fault World

/-- The writing requests `requests`, started on the empty stores and run by a schedule. -/
def interleave (env : Env) (requests : Nat → Write) (sched : List (Nat × Fault)) : Service :=
  (Pool.start World.empty fun i => (requests i).program env).run (exec env) sched

/-- The writing requests `requests` (on the left) together with the searches `searches`. A search
makes no lock statement, so which session it has is of no matter. -/
def interleaveSearches (env : Env) (requests : Nat → Write) (searches : Nat → Search)
    (sched : List ((Nat ⊕ Nat) × Fault)) : Pool (Nat ⊕ Nat) Ans Exc Reply Fault World :=
  (Pool.start World.empty (Sum.elim (fun i => (requests i).program env)
    fun j => (Request.search (searches j)).program env)).run
    (Sum.elim (exec env) (exec env)) sched

end QdrantRag
