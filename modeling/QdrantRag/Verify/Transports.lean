import QdrantRag.Verify.Recording
import QdrantRag.Verify.Snapshots

/-! # One search, two transports

A search that both transports accept ends alike over both (`searches_end_alike`): with the same
chunks, or with a status of the one that corresponds to a code of the other. Over gRPC a result is
lost where one of its numbers does not fit the message. -/

namespace QdrantRag
open Effect Effect.Prog

variable {env : Env} {web : Web} {session : Nat} {faults : Nat → Fault} {s : World}
  {r : SearchResult} {req : SearchHttpRequest} {request : SearchRpcRequest}

/-! ## Messages -/

/-- The value of an `int32` field. -/
def IsInt32 (i : Int) : Prop := -0x80000000 ≤ i ∧ i < 0x80000000

theorem toInt32_eq_ok {i j : Int} : toInt32 i = .ok j ↔ IsInt32 i ∧ i = j := by
  unfold toInt32 IsInt32
  split
  · next h => exact (Except.ok.injEq i j).to_iff.trans (and_iff_right h).symm
  · next h => exact iff_of_false (fun he => nomatch he) fun he => h he.1

/-- A chunk as it is read from its message: what it does not have reads as the empty text or 0. -/
def Payload.message (p : Payload) (score : Rat) : ChunkMessage where
  chunk_id := p.chunk_id
  doc_id := p.doc_id
  text := p.text
  source_type := p.source_type
  source_filename := p.source_filename.getD ""
  source_url := p.source_url.getD ""
  section_path := p.section_path
  page_number := p.page_number.getD 0
  score := score

theorem toChunkMessage_eq_ok {chunk : Payload × Rat} {m : ChunkMessage} :
    toChunkMessage chunk = .ok m ↔
      IsInt32 (chunk.1.page_number.getD 0) ∧ m = chunk.1.message chunk.2 := by
  unfold toChunkMessage
  cases h : toInt32 (chunk.1.page_number.getD 0) with
  | error e =>
    refine iff_of_false (fun he => nomatch he) fun he => ?_
    rw [toInt32_eq_ok.mpr ⟨he.1, rfl⟩] at h
    cases h
  | ok n =>
    obtain ⟨hfits, rfl⟩ := toInt32_eq_ok.mp h
    exact (Except.ok.injEq ..).to_iff.trans (eq_comm.trans (and_iff_right hfits).symm)

theorem toChunkMessages_eq_ok {chunks : List (Payload × Rat)} {ms : List ChunkMessage} :
    toChunkMessages chunks = .ok ms ↔
      (∀ chunk ∈ chunks, IsInt32 (chunk.1.page_number.getD 0)) ∧
        ms = chunks.map fun chunk => chunk.1.message chunk.2 := by
  induction chunks generalizing ms with
  | nil =>
    refine (Except.ok.injEq ..).to_iff.trans (eq_comm.trans ?_)
    simp
  | cons chunk chunks ih =>
    have hbind : toChunkMessages (chunk :: chunks) = .ok ms ↔
        ∃ m ms', toChunkMessage chunk = .ok m ∧ toChunkMessages chunks = .ok ms' ∧
          m :: ms' = ms := by
      rw [toChunkMessages]
      cases toChunkMessage chunk with
      | error e => exact iff_of_false (fun he => nomatch he) fun ⟨_, _, he, _⟩ => nomatch he
      | ok m =>
        cases toChunkMessages chunks with
        | error e => exact iff_of_false (fun he => nomatch he) fun ⟨_, _, _, he, _⟩ => nomatch he
        | ok ms' =>
          constructor
          · intro he
            exact ⟨m, ms', rfl, rfl, Except.ok.inj he⟩
          · rintro ⟨_, _, ⟨⟩, ⟨⟩, he⟩
            exact congrArg Except.ok he
    rw [hbind, List.forall_mem_cons, List.map_cons]
    constructor
    · rintro ⟨m, ms', hm, hms, rfl⟩
      obtain ⟨hfits, rfl⟩ := toChunkMessage_eq_ok.mp hm
      obtain ⟨hall, rfl⟩ := ih.mp hms
      exact ⟨⟨hfits, hall⟩, rfl⟩
    · rintro ⟨⟨hfits, hall⟩, rfl⟩
      exact ⟨_, _, toChunkMessage_eq_ok.mpr ⟨hfits, rfl⟩, ih.mpr ⟨hall, rfl⟩, rfl⟩

/-- The numbers of the result fit the fields of the message. -/
structure SearchResult.FitsMessage (r : SearchResult) : Prop where
  total : IsInt32 r.total_candidates
  pages : ∀ chunk ∈ r.chunks, IsInt32 (chunk.1.page_number.getD 0)

/-- The chunks and counts of a result, in a message. -/
def SearchResult.message (r : SearchResult) : SearchResponse :=
  ⟨r.chunks.map fun chunk => chunk.1.message chunk.2, r.total_candidates, r.threshold_used⟩

theorem toSearchResponse_eq_ok {m : SearchResponse} :
    toSearchResponse r = .ok m ↔ r.FitsMessage ∧ m = r.message := by
  unfold toSearchResponse
  cases htotal : toInt32 r.total_candidates with
  | error e =>
    refine iff_of_false (fun he => nomatch he) fun he => ?_
    rw [toInt32_eq_ok.mpr ⟨he.1.total, rfl⟩] at htotal
    cases htotal
  | ok total =>
    obtain ⟨hfits, rfl⟩ := toInt32_eq_ok.mp htotal
    cases hchunks : toChunkMessages r.chunks with
    | error e =>
      refine iff_of_false (fun he => nomatch he) fun he => ?_
      rw [toChunkMessages_eq_ok.mpr ⟨he.1.pages, rfl⟩] at hchunks
      cases hchunks
    | ok ms =>
      obtain ⟨hpages, rfl⟩ := toChunkMessages_eq_ok.mp hchunks
      refine (Except.ok.injEq ..).to_iff.trans (eq_comm.trans ?_)
      exact (and_iff_right ⟨hfits, hpages⟩).symm

/-! ## Corresponding ends -/

/-- A response over HTTP and the end of an RPC that tell their clients the same. -/
inductive Alike : Response → RpcOutcome → Prop
  | refused {response details} (h : response.status = 400) :
      Alike response (.abort .invalidArgument details)
  | found {r : SearchResult} (h : r.FitsMessage) :
      Alike ⟨200, .search r, none⟩ (.reply r.message)
  /-- The result cannot be put into a message. -/
  | lost {r details} (h : ¬ SearchResult.FitsMessage r) :
      Alike ⟨200, .search r, none⟩ (.abort .unknown details)
  | noCollection {message details} :
      Alike (errorResponse 404 "collection_not_found" message) (.abort .notFound details)
  | unavailable (message : String) : Alike (errorResponse 503 "qdrant_unavailable" message)
      (.abort .unavailable ("Qdrant unavailable: " ++ message))
  | failed {message details} :
      Alike (errorResponse 500 "internal_error" message) (.abort .internal details)

theorem alike_result (web : Web) (r : SearchResult) :
    Alike ⟨200, .search r, none⟩ (toRpcOutcome web r) := by
  rw [toRpcOutcome_eq]
  beta_reduce
  cases h : toSearchResponse r with
  | ok m =>
    obtain ⟨hfits, rfl⟩ := toSearchResponse_eq_ok.mp h
    exact .found hfits
  | error e =>
    refine .lost fun hfits => ?_
    rw [toSearchResponse_eq_ok.mpr ⟨hfits, rfl⟩] at h
    cases h

theorem alike_failure (web : Web) (exc : Exc) :
    Alike (web.searchFailure exc) (web.rpcFailure exc) := by
  cases exc with
  | collectionNotFound name => exact .noCollection
  | qdrantConnection attempts last_exc => exact .unavailable _
  | _ => exact .failed

/-- A body that is read is refused with one status. -/
theorem status_of_refused {response : Response} {data : PyValue} (hdata : req.data = .ok data)
    (h : req.checked web = .error response) : response.status = 400 := by
  unfold SearchHttpRequest.checked at h
  split at h
  · cases h
    rfl
  · rw [hdata] at h
    dsimp only at h
    split at h
    · cases h
      rfl
    · cases h

/-- **A search ends alike over both transports.** Where both accept the same search, or both refuse:
from every state and whatever fails, the two requests make the same calls and change nothing, and
end in a response and a reply that tell the same; the chunks of the reply are those of the response,
unless a number of them does not fit its field. -/
theorem searches_end_alike (env : Env) (web : Web) (session : Nat) (faults : Nat → Fault)
    (s : World) (req : SearchHttpRequest) (request : SearchRpcRequest)
    (hdata : ∃ data, req.data = .ok data)
    (hsame : ∀ x, req.checked web = .ok x ↔ request.checked web = .ok x) :
    let http := req.run env web session faults s
    let rpc := request.run env web session faults s
    http.trace = rpc.trace ∧ http.state = s ∧ rpc.state = s ∧
      ∃ response outcome, http.reply = .ok response ∧ rpc.reply = .ok outcome ∧
        Alike response outcome := by
  intro http rpc
  cases hhttp : req.checked web with
  | ok x =>
    have hkept : (x.run env session faults s).state = s :=
      Only.run_state (· = s) (fun _ _ _ ho hs => (exec_searches ho).trans hs) (only_search x) rfl
    have hrun : http = _ := SearchHttpRequest.run_checked hhttp
    have hrpc : rpc = _ := SearchRpcRequest.run_checked ((hsame x).mp hhttp)
    rw [hrun, hrpc]
    refine ⟨rfl, hkept, hkept, _, _, rfl, rfl, ?_⟩
    cases (x.run env session faults s).reply with
    | ok r => exact alike_result web r
    | error exc => exact alike_failure web exc
  | error response =>
    obtain ⟨data, hdata⟩ := hdata
    cases hchecked : request.checked web with
    | ok x => cases hhttp.symm.trans ((hsame x).mpr hchecked)
    | error refusal =>
      obtain ⟨code, details⟩ := refusal
      obtain rfl := code_of_refused hchecked
      have hrun : http = _ := SearchHttpRequest.run_refused hhttp
      have hrpc : rpc = _ := SearchRpcRequest.run_refused hchecked
      rw [hrun, hrpc]
      exact ⟨rfl, rfl, rfl, _, _, rfl, rfl, .refused (status_of_refused hdata hhttp)⟩

deriving instance DecidableEq for Search

/-- The two requests of a sample ask for one search. -/
theorem Sample.checked_same (x : Search) : Sample.searchHttp.checked Sample.web = .ok x ↔
    Sample.searchRpc.checked Sample.web = .ok x := by
  have hsame : (Sample.searchHttp.checked Sample.web).toOption =
      (Sample.searchRpc.checked Sample.web).toOption := by decide +kernel
  obtain ⟨y, hy⟩ : ∃ y, Sample.searchHttp.checked Sample.web = .ok y :=
    exists_of_isOk (by decide +kernel)
  obtain ⟨z, hz⟩ : ∃ z, Sample.searchRpc.checked Sample.web = .ok z :=
    exists_of_isOk (by decide +kernel)
  rw [hy, hz] at hsame
  obtain rfl : y = z := Option.some.inj hsame
  rw [hy, hz, Except.ok.injEq, Except.ok.injEq]

/-- Both are answered where the first attempt at the query fails. -/
theorem searches_end_alike_hello :
    let http := Sample.searchHttp.run Sample.env Sample.web 0 (Sample.faltering 2) Sample.greeted
    let rpc := Sample.searchRpc.run Sample.env Sample.web 0 (Sample.faltering 2) Sample.greeted
    http.reply.toOption.map Response.status = some 200 ∧ http.trace = rpc.trace ∧
      ∃ response outcome, http.reply = .ok response ∧ rpc.reply = .ok outcome ∧
        Alike response outcome := by
  intro http rpc
  obtain ⟨htrace, -, -, halike⟩ := searches_end_alike Sample.env Sample.web 0 (Sample.faltering 2)
    Sample.greeted Sample.searchHttp Sample.searchRpc ⟨_, rfl⟩ Sample.checked_same
  exact ⟨by decide +kernel, htrace, halike⟩

end QdrantRag
