import QdrantRag.Verify.Responses
import QdrantRag.Verify.Retry
import QdrantRag.Verify.Sample
import QdrantRag.Verify.Writes

/-! # Searches while Qdrant is down

A search looks for its collection once, embeds its query, and sends it in up to three attempts. What
becomes of it is read off the calls that fail. -/

namespace QdrantRag
open Keyed Effect Effect.Prog Text

variable {env : Env} {i : Nat} {n : String} {s : World} {o : Op} {c : Fault} {x : Search}
  {plan faults : Nat → Fault} {session : Nat} {web : Web}

/-! ## Outages -/

/-- The status of a call that may be tried again. -/
def StatusCode.retryable : StatusCode → Prop
  | .unavailable | .deadlineExceeded | .resourceExhausted => True
  | _ => False

/-- A call is served, or fails with a status that may be tried again, having taken effect or not. -/
inductive Fault.Outage : Fault → Prop
  | served : Outage .none
  | before {code : StatusCode} {msg : String} (h : code.retryable) :
      Outage (.before (.rpcError (some code) msg))
  | after {code : StatusCode} {msg : String} (h : code.retryable) :
      Outage (.after (.rpcError (some code) msg))

theorem StatusCode.retryable.transient {code : StatusCode} (h : code.retryable) (msg : String) :
    isTransient (.rpcError (some code) msg) = true := by
  cases code <;> first | rfl | cases h

/-- A call that changes nothing, in an outage: it is answered, or fails for the moment. -/
theorem exec_outage {a : Ans o} (hl : o.isLock = false) (hs : o.isLocal = false) (hc : c.Outage)
    (hserve : serve env i o s = .ok (a, s)) :
    (c = .none ∧ exec env i o c s = (.ok a, s)) ∨
      (c ≠ .none ∧ ∃ code msg, StatusCode.retryable code ∧
        exec env i o c s = (.error (.rpcError (some code) msg), s)) := by
  unfold exec
  rw [hl, hs, hserve]
  cases hc with
  | served => exact .inl ⟨rfl, rfl⟩
  | before h => exact .inr ⟨nofun, _, _, h, rfl⟩
  | after h => exact .inr ⟨nofun, _, _, h, rfl⟩

/-! ## The query -/

/-- What `search` returns when its query is answered. -/
def Search.result (env : Env) (x : Search) (s : World) : SearchResult :=
  let points := env.query_points (s.points (joinName x.tenant_id x.bot_id)).rows
    (searchRequest x (env.encode x.query))
  ⟨points.map fun p => (p.payload, p.score), points.length, scoreThreshold⟩

def Op.queries : Op → Bool
  | .queryPoints .. => true
  | _ => false

def Fault.served : Fault → Bool
  | .none => true
  | _ => false

/-- The attempts at a query in a run, in order: whether each was served. -/
def queryAttempts (tr : List Call) : List Bool :=
  (tr.filter fun ev => ev.op.queries).map fun ev => ev.choice.served

theorem queryAttempts_append (tr tr' : List Call) :
    queryAttempts (tr ++ tr') = queryAttempts tr ++ queryAttempts tr' := by
  simp only [queryAttempts, List.filter_append, List.map_append]

/-- The query is served within three attempts. -/
def Recovered (tr : List Call) : Prop :=
  ∃ k < 3, queryAttempts tr = List.replicate k false ++ [true]

/-- Three attempts at the query fail. -/
def Exhausted (tr : List Call) : Prop := queryAttempts tr = List.replicate 3 false

/-- The query is answered when it is served within three attempts, and else given up. -/
def Search.Queried (env : Env) (x : Search) (s : World) (tr : List Call)
    (reply : Except Exc SearchResult) : Prop :=
  Recovered tr ∧ reply = .ok (x.result env s) ∨
    Exhausted tr ∧ ∃ last, reply = .error (.qdrantConnection 3 last)

/-- Other calls before the query do not matter. -/
theorem Search.Queried.of_append {tr tr' : List Call} {reply : Except Exc SearchResult}
    (h : x.Queried env s tr' reply) (htr : ∀ ev ∈ tr, ev.op.queries = false) :
    x.Queried env s (tr ++ tr') reply := by
  have hsame : queryAttempts (tr ++ tr') = queryAttempts tr' := by
    have hnil : tr.filter (fun ev => ev.op.queries) = [] :=
      List.filter_eq_nil_iff.mpr fun ev hev => by simp [htr ev hev]
    rw [queryAttempts_append, queryAttempts, hnil]
    rfl
  unfold Queried Recovered Exhausted at *
  rwa [hsame]

/-- The query is sent in up to three attempts, after one another. -/
theorem ends_executeQuery_outage (hcol : s.HasCollection (joinName x.tenant_id x.bot_id)) :
    (executeQuery env (joinName x.tenant_id x.bot_id)
      (searchRequest x (env.encode x.query))).Ends (exec env i) Fault.Outage s
        fun tr r _ => x.Queried env s tr r := by
  obtain ⟨col, hcol⟩ := World.hasCollection_iff.mp hcol
  have hserve : serve env i (.queryPoints (joinName x.tenant_id x.bot_id)
      (searchRequest x (env.encode x.query))) s = .ok (env.query_points
        (s.points (joinName x.tenant_id x.bot_id)).rows (searchRequest x (env.encode x.query)),
        s) := by
    simp only [serve, hcol, World.points_of_find? hcol]
  refine ends_retryLoop (fun m tr t => t = s ∧ m ≤ 3 ∧
    queryAttempts tr = List.replicate (3 - m) false) (fun _ _ _ => rfl) ?_ (by omega)
    ⟨rfl, le_rfl, rfl⟩ (1 / 2) none
  rintro m tr t ⟨rfl, hm, hfailed⟩
  apply ends_bind.mpr
  apply ends_perform.mpr
  intro c hc
  rcases exec_outage rfl rfl hc hserve with ⟨rfl, h⟩ | ⟨hne, code, msg, hcode, h⟩
  · rw [h, next_ok, ends_return]
    refine .inl ⟨⟨3 - (m + 1), by omega, ?_⟩, rfl⟩
    rw [queryAttempts_append, hfailed]
    rfl
  · have hlost : queryAttempts (tr ++ [⟨.queryPoints (joinName x.tenant_id x.bot_id)
        (searchRequest x (env.encode x.query)), c, t⟩]) = List.replicate (3 - m) false := by
      have hserved : c.served = false := by cases c <;> first | rfl | exact absurd rfl hne
      have hone : 3 - m = 3 - (m + 1) + 1 := by omega
      rw [queryAttempts_append, hfailed, hone, List.replicate_succ', ← hserved]
      rfl
    rw [h, next_error]
    dsimp only
    rw [if_neg (by rw [hcode.transient msg]; decide)]
    split
    · next hlast =>
      subst hlast
      exact .inr ⟨hlost, _, rfl⟩
    · intro t c
      refine ⟨rfl, by omega, ?_⟩
      rw [queryAttempts_append, hlost]
      exact List.append_nil _

/-! ## The search -/

/-- No lookup of a collection fails. -/
def Found (tr : List Call) : Prop := ∀ ev ∈ tr, ev.op.seeks = true → ev.choice = .none

/-- The embedder does not fail. -/
def Embedded (tr : List Call) : Prop := ∀ ev ∈ tr, ev.op.embeds = true → ev.choice = .none

theorem only_executeQuery {request : QueryRequest} :
    (executeQuery env n request).Only fun o => o.seeks = false := by
  apply only_withRetry fun _ => rfl
  apply Only.bind
  · exact ⟨rfl, fun r => by cases r <;> trivial⟩
  · intro _
    trivial

theorem embedQuery_eq {text : String} (h : strip text ≠ "") :
    embedQuery text = call (.encode [text]) >>= firstEmbedding := by
  have hchecked : checkTexts [text] = .ok () :=
    checkTexts_eq_ok.mpr ⟨List.cons_ne_nil _ _, List.forall_mem_singleton.mpr h⟩
  simp only [embedQuery, if_neg h, embedPassages_of_checked hchecked]

/-- A query that is not blank is embedded where the embedder answers. -/
theorem run_embedQuery {text : String} (h : strip text ≠ "") (h0 : plan 0 = .none) :
    (embedQuery text).run (exec env i) plan s =
      ⟨.ok (env.encode text), s, [⟨.encode [text], .none, s⟩]⟩ := by
  have hserve : exec env i (.encode [text]) (plan 0) s = (.ok [env.encode text], s) := by
    rw [h0]
    exact exec_none rfl
  rw [embedQuery_eq h, run_bind_of_ok (run_perform_of_ok hserve), h0]
  rfl

/-- The first call is to the embedder. -/
theorem embedded_embedQuery {text : String} {f : Embedding → Program SearchResult}
    (h : strip text ≠ "")
    (hembed : Embedded ((embedQuery text >>= f).run (exec env i) plan s).trace) :
    plan 0 = .none := by
  rw [embedQuery_eq h] at hembed
  exact hembed _ List.mem_cons_self rfl

/-- `search` once its collection is found. -/
abbrev Search.query_found (env : Env) (x : Search) : Program SearchResult :=
  embedQuery x.query >>= fun e =>
    executeQuery env (joinName x.tenant_id x.bot_id) (searchRequest x e)

theorem queried_query_found (hquery : strip x.query ≠ "")
    (hcol : s.HasCollection (joinName x.tenant_id x.bot_id)) (hplan : ∀ m, (plan m).Outage)
    (hembed : Embedded ((x.query_found env).run (exec env i) plan s).trace) :
    (∀ ev ∈ ((x.query_found env).run (exec env i) plan s).trace, ev.op.seeks = false) ∧
      x.Queried env s ((x.query_found env).run (exec env i) plan s).trace
        ((x.query_found env).run (exec env i) plan s).reply := by
  rw [run_bind_of_ok (run_embedQuery hquery (embedded_embedQuery hquery hembed))]
  constructor
  · intro ev hev
    rcases List.mem_append.mp hev with hev | hev
    · rw [List.mem_singleton.mp hev]
      rfl
    · exact only_executeQuery.run_trace ev hev
  · have hends : (executeQuery env (joinName x.tenant_id x.bot_id)
        (searchRequest x (env.encode x.query))).Ends (exec env i) Fault.Outage s
          fun tr r _ => x.Queried env s tr r := ends_executeQuery_outage hcol
    exact (hends.run fun m => hplan (m + 1)).of_append (List.forall_mem_singleton.mpr rfl)

/-- A search fails at its lookup, or its query is answered or tried three times. -/
theorem search_cases (hname : collectionName x.tenant_id x.bot_id = .ok n)
    (hquery : strip x.query ≠ "") (hcol : s.HasCollection n) (hfaults : ∀ m, (faults m).Outage)
    (hembed : Embedded (x.run env session faults s).trace) :
    (Found (x.run env session faults s).trace ∧
        x.Queried env s (x.run env session faults s).trace (x.run env session faults s).reply) ∨
      (¬ Found (x.run env session faults s).trace ∧
        ∃ code msg, (x.run env session faults s).reply = .error (.rpcError (some code) msg)) := by
  obtain rfl := (collectionName_eq_ok.mp hname).2.2
  have hexists : serve env session (.collectionExists (joinName x.tenant_id x.bot_id)) s =
      .ok (true, s) := by
    obtain ⟨col, hfind⟩ := World.hasCollection_iff.mp hcol
    simp only [serve, hfind]
    rfl
  have hprog : search env x = call (.collectionExists (joinName x.tenant_id x.bot_id)) >>=
      fun exists_ => if exists_ then x.query_found env
        else .throw (.collectionNotFound (joinName x.tenant_id x.bot_id)) := by
    unfold search
    rw [hname]
    rfl
  rw [Search.run, hprog] at hembed ⊢
  rcases exec_outage rfl rfl (hfaults 0) hexists with ⟨h0, hrun⟩ | ⟨h0, code, msg, -, hrun⟩
  · rw [run_bind_of_ok (run_perform_of_ok hrun)] at hembed ⊢
    have hfound := queried_query_found hquery hcol (fun m => hfaults (m + 1))
      fun ev hev => hembed ev (List.mem_append_right _ hev)
    refine .inl ⟨fun ev hev hseeks => ?_,
      hfound.2.of_append (List.forall_mem_singleton.mpr rfl)⟩
    rcases List.mem_append.mp hev with hev | hev
    · rw [List.mem_singleton.mp hev]
      exact h0
    · rw [hfound.1 ev hev] at hseeks
      cases hseeks
  · rw [run_bind_of_error (run_perform_of_error hrun)]
    exact .inr ⟨fun h => h0 (h _ List.mem_cons_self rfl), code, msg, rfl⟩

/-! ## Over HTTP -/

/-- The response is the result of the search, whose query was served within three attempts, or says
that Qdrant is unavailable, three attempts having failed. -/
def Response.Available (result : SearchResult) (tr : List Call) (response : Response) : Prop :=
  Recovered tr ∧ response = ⟨200, .search result, none⟩ ∨
    Exhausted tr ∧ response.status = 503 ∧
      ∃ message details, response.body = .error "qdrant_unavailable" message details

theorem SearchHttpRequest.available_iff {req : SearchHttpRequest}
    (hchecked : req.checked web = .ok x) (hcol : s.HasCollection req.collection)
    (hfaults : ∀ m, (faults m).Outage)
    (hembed : Embedded (req.run env web session faults s).trace) :
    (∃ response, (req.run env web session faults s).reply = .ok response ∧
        response.Available (x.result env s) (req.run env web session faults s).trace) ↔
      Found (req.run env web session faults s).trace := by
  obtain ⟨hx, hname⟩ := checked_ok hchecked
  rw [run_checked hchecked] at hembed ⊢
  rw [← hname] at hcol
  rcases search_cases hx.name hx.query hcol hfaults hembed with
    ⟨hfound, ⟨hserved, hreply⟩ | ⟨hfailed, last, hreply⟩⟩ | ⟨hfound, code, msg, hreply⟩
  · rw [hreply]
    exact iff_of_true ⟨_, rfl, .inl ⟨hserved, rfl⟩⟩ hfound
  · rw [hreply]
    exact iff_of_true ⟨_, rfl, .inr ⟨hfailed, rfl, _, _, rfl⟩⟩ hfound
  · rw [hreply]
    refine iff_of_false ?_ hfound
    rintro ⟨response, hresponse, havailable⟩
    cases Except.ok.inj hresponse
    rcases havailable with ⟨-, hstatus⟩ | ⟨-, hstatus, -⟩ <;> cases hstatus

/-! ## Over gRPC -/

/-- The RPC is answered with the result of the search, whose query was served within three attempts,
or says that Qdrant is unavailable, three attempts having failed. -/
inductive RpcOutcome.Available (result : SearchResult) (tr : List Call) : RpcOutcome → Prop
  | reply {response : SearchResponse} (htr : Recovered tr)
      (hresponse : toSearchResponse result = .ok response) : Available result tr (.reply response)
  | unavailable {details : String} (htr : Exhausted tr) :
      Available result tr (.abort .unavailable details)

/-- The page numbers of a collection fit the field of the message. -/
def World.PagesFit (s : World) (name : String) : Prop :=
  ∀ p ∈ (s.points name).rows, (toInt32 (p.payload.page_number.getD 0)).isOk = true

theorem toChunkMessages_ok {chunks : List (Payload × Rat)}
    (h : ∀ chunk ∈ chunks, (toInt32 (chunk.1.page_number.getD 0)).isOk = true) :
    ∃ messages, toChunkMessages chunks = .ok messages := by
  induction chunks with
  | nil => exact ⟨[], rfl⟩
  | cons chunk chunks ih =>
    obtain ⟨n, hn⟩ := exists_of_isOk (h chunk List.mem_cons_self)
    obtain ⟨messages, hmessages⟩ := ih fun c hc => h c (List.mem_cons_of_mem _ hc)
    unfold toChunkMessages toChunkMessage
    rw [hn, hmessages]
    exact ⟨_, rfl⟩

-- the bounds of `toInt32` on a count that is not a numeral are not to be evaluated
attribute [local irreducible] toInt32 in
theorem toRpcOutcome_eq (web : Web) : toRpcOutcome web = fun r => match toSearchResponse r with
    | .ok response => .reply response
    | .error exc =>
      .abort .unknown ("Exception calling application: " ++ exc.str web.repr) := rfl

/-- A result of a few chunks with small page numbers fits the message. -/
theorem toRpcOutcome_fits {r : SearchResult} (htotal : r.total_candidates ≤ 20)
    (hpages : ∀ chunk ∈ r.chunks, (toInt32 (chunk.1.page_number.getD 0)).isOk = true) :
    ∃ response, toSearchResponse r = .ok response ∧ toRpcOutcome web r = .reply response := by
  have hcount : toInt32 r.total_candidates = .ok (r.total_candidates : Int) := by
    apply if_pos
    omega
  obtain ⟨messages, hmessages⟩ := toChunkMessages_ok hpages
  have hresponse : toSearchResponse r =
      .ok ⟨messages, r.total_candidates, r.threshold_used⟩ := by
    simp only [toSearchResponse, hcount, hmessages]
    rfl
  refine ⟨_, hresponse, ?_⟩
  rw [toRpcOutcome_eq]
  beta_reduce
  rw [hresponse]

variable (web) in
/-- So does a result of a collection in order. -/
theorem toRpcOutcome_result (hlimit : ∀ pts q, (env.query_points pts q).length ≤ q.limit)
    (htop : x.top_k ≤ 20) (hpages : s.PagesFit (joinName x.tenant_id x.bot_id)) :
    ∃ response, toSearchResponse (x.result env s) = .ok response ∧
      toRpcOutcome web (x.result env s) = .reply response := by
  apply toRpcOutcome_fits
  · exact (hlimit _ _).trans htop
  · intro chunk hchunk
    obtain ⟨r, hr, rfl⟩ := List.mem_map.mp hchunk
    obtain ⟨p, hp, hpayload⟩ := env.query_mem _ _ r hr
    rw [← hpayload]
    exact hpages p hp

theorem SearchRpcRequest.available_iff {request : SearchRpcRequest}
    (hlimit : ∀ pts q, (env.query_points pts q).length ≤ q.limit)
    (hchecked : request.checked web = .ok x) (hcol : s.HasCollection request.collection)
    (hpages : s.PagesFit request.collection) (hfaults : ∀ m, (faults m).Outage)
    (hembed : Embedded (request.run env web session faults s).trace) :
    (∃ outcome, (request.run env web session faults s).reply = .ok outcome ∧
        outcome.Available (x.result env s) (request.run env web session faults s).trace) ↔
      Found (request.run env web session faults s).trace := by
  obtain ⟨hx, hname, htop⟩ := checked_ok hchecked
  rw [run_checked hchecked] at hembed ⊢
  rw [← hname] at hcol hpages
  rcases search_cases hx.name hx.query hcol hfaults hembed with
    ⟨hfound, ⟨hserved, hreply⟩ | ⟨hfailed, last, hreply⟩⟩ | ⟨hfound, code, msg, hreply⟩
  · obtain ⟨response, hresponse, houtcome⟩ := toRpcOutcome_result web hlimit htop hpages
    rw [hreply]
    exact iff_of_true ⟨_, congrArg Except.ok houtcome, .reply hserved hresponse⟩ hfound
  · rw [hreply]
    exact iff_of_true ⟨_, rfl, .unavailable hfailed⟩ hfound
  · rw [hreply]
    refine iff_of_false ?_ hfound
    rintro ⟨outcome, houtcome, havailable⟩
    cases Except.ok.inj houtcome
    cases havailable

/-! ## Over both -/

/-- In an outage a search that is not refused is answered with its result once its query is served,
or says that Qdrant is unavailable after three attempts, if and only if the lookup of its
collection, which is not tried again, does not fail. -/
theorem search_available_iff (env : Env) (web : Web) (session : Nat) (faults : Nat → Fault)
    (s : World) (hlimit : ∀ pts q, (env.query_points pts q).length ≤ q.limit)
    (hfaults : ∀ m, (faults m).Outage) :
    (∀ (req : SearchHttpRequest) (x : Search), req.checked web = .ok x →
      s.HasCollection req.collection →
      let run := req.run env web session faults s
      Embedded run.trace →
        ((∃ response, run.reply = .ok response ∧
          response.Available (x.result env s) run.trace) ↔ Found run.trace)) ∧
    (∀ (request : SearchRpcRequest) (x : Search), request.checked web = .ok x →
      s.HasCollection request.collection → s.PagesFit request.collection →
      let run := request.run env web session faults s
      Embedded run.trace →
        ((∃ outcome, run.reply = .ok outcome ∧
          outcome.Available (x.result env s) run.trace) ↔ Found run.trace)) :=
  ⟨fun _ _ hchecked hcol hembed => SearchHttpRequest.available_iff hchecked hcol hfaults hembed,
    fun _ _ hchecked hcol hpages hembed =>
      SearchRpcRequest.available_iff hlimit hchecked hcol hpages hfaults hembed⟩

instance (c : Fault) : Decidable (c = .none) :=
  match c with
  | .none => isTrue rfl
  | .before _ => isFalse nofun
  | .after _ => isFalse nofun

instance : DecidablePred Found := fun tr =>
  inferInstanceAs (Decidable (∀ ev ∈ tr, ev.op.seeks = true → ev.choice = .none))

instance : DecidablePred Embedded := fun tr =>
  inferInstanceAs (Decidable (∀ ev ∈ tr, ev.op.embeds = true → ev.choice = .none))

def Sample.searchHttp : SearchHttpRequest :=
  ⟨"acme", "support", .ok (.dict [("query", .str "hello")])⟩

def Sample.searchRpc : SearchRpcRequest := ⟨"acme", "support", "hello", 0, [], [], "", true⟩

theorem Sample.faltering_outage (n m : Nat) : (faltering n m).Outage := by
  unfold faltering
  split
  · exact .before trivial
  · exact .served

theorem Sample.query_points_length (pts : List Point) (q : QueryRequest) :
    (Sample.env.query_points pts q).length ≤ q.limit :=
  (List.length_map _).trans_le (List.length_take_le _ _)

theorem Sample.greeted_hasCollection : greeted.HasCollection support := by
  unfold World.HasCollection
  decide +kernel

/-- A query that fails once is answered. -/
theorem search_available_acme :
    (∃ x, Sample.searchHttp.checked Sample.web = .ok x ∧
      ∃ response, (Sample.searchHttp.run Sample.env Sample.web 0 (Sample.faltering 2)
        Sample.greeted).reply = .ok response ∧
        response.Available (x.result Sample.env Sample.greeted) (Sample.searchHttp.run Sample.env
          Sample.web 0 (Sample.faltering 2) Sample.greeted).trace) ∧
    ∃ x, Sample.searchRpc.checked Sample.web = .ok x ∧
      ∃ outcome, (Sample.searchRpc.run Sample.env Sample.web 0 (Sample.faltering 2)
        Sample.greeted).reply = .ok outcome ∧
        outcome.Available (x.result Sample.env Sample.greeted) (Sample.searchRpc.run Sample.env
          Sample.web 0 (Sample.faltering 2) Sample.greeted).trace := by
  have h := search_available_iff Sample.env Sample.web 0 (Sample.faltering 2) Sample.greeted
    Sample.query_points_length (Sample.faltering_outage 2)
  have hpages : Sample.greeted.PagesFit Sample.support := by
    unfold World.PagesFit
    decide +kernel
  obtain ⟨x, hx⟩ : ∃ x, Sample.searchHttp.checked Sample.web = .ok x :=
    exists_of_isOk (by decide +kernel)
  obtain ⟨y, hy⟩ : ∃ y, Sample.searchRpc.checked Sample.web = .ok y :=
    exists_of_isOk (by decide +kernel)
  refine ⟨⟨x, hx, ?_⟩, y, hy, ?_⟩
  · apply (h.1 Sample.searchHttp x hx Sample.greeted_hasCollection (by decide +kernel)).mpr
    decide +kernel
  · apply (h.2 Sample.searchRpc y hy Sample.greeted_hasCollection hpages (by decide +kernel)).mpr
    decide +kernel

/-- The status an RPC ends with. -/
def RpcOutcome.code : RpcOutcome → StatusCode
  | .reply _ => .ok
  | .abort code _ => code

/-- A lookup that fails once is answered 500, and over gRPC the search ends with `INTERNAL`. -/
theorem lookup_not_available :
    let http := Sample.searchHttp.run Sample.env Sample.web 0 (Sample.faltering 0) Sample.greeted
    let rpc := Sample.searchRpc.run Sample.env Sample.web 0 (Sample.faltering 0) Sample.greeted
    (∀ m, (Sample.faltering 0 m).Outage) ∧ Sample.greeted.HasCollection Sample.support ∧
      Embedded http.trace ∧ Embedded rpc.trace ∧
      http.reply.toOption.map Response.status = some 500 ∧
      rpc.reply.toOption.map RpcOutcome.code = some .internal := by
  refine ⟨Sample.faltering_outage 0, Sample.greeted_hasCollection, ?_⟩
  decide +kernel

end QdrantRag
