import QdrantRag.Effect.Sim
import QdrantRag.Model.Logging

/-! # The context of log events

While a request is served the context variables hold what this request set (`InRequest`), and its
middleware puts back what they held before, however the request ends. So the fields that are added
to a log event are of the request it is logged in. -/

namespace QdrantRag
open Effect Effect.Prog Text

variable {s : Context} {calls : List LogCall} {ev : LogCall} {o : LogOp} {c : Reading}
  {key : ContextKey} {rid : String} {α : Type}

/-! ## Event dicts -/

theorem EventDict.lookup_setdefault (d : EventDict) (k k' : String) (val : PyValue) :
    (d.setdefault k val).lookup k' =
      if k' = k then (d.lookup k').or (some val) else d.lookup k' := by
  unfold setdefault
  split
  · next x hx =>
    split
    · next he =>
      rw [he, hx]
      rfl
    · rfl
  · next hx =>
    rw [List.lookup_append]
    split
    · next he =>
      subst he
      rw [hx, List.lookup_cons_self]
    · next he =>
      rw [List.lookup_cons, beq_eq_false_iff_ne.mpr he]
      exact Option.or_none

theorem ContextKey.name_inj {key key' : ContextKey} : key.name = key'.name ↔ key = key' := by
  constructor
  · intro h
    cases key <;> cases key' <;> first | rfl | exact absurd h (by decide)
  · exact congrArg name

/-- What the processor does for one variable. -/
def addField (s : Context) (event_dict : EventDict) (key : ContextKey) : EventDict :=
  match s.get key with
  | some val => event_dict.setdefault key.name (.str val)
  | none => event_dict

theorem lookup_addField (s : Context) (d : EventDict) (key key' : ContextKey) :
    (addField s d key').lookup key.name =
      if key = key' then (d.lookup key.name).or ((s.get key).map .str) else d.lookup key.name := by
  unfold addField
  by_cases he : key = key'
  · subst he
    rw [if_pos rfl]
    cases s.get key with
    | some val => rw [EventDict.lookup_setdefault, if_pos rfl, Option.map_some]
    | none => rw [Option.map_none, Option.or_none]
  · rw [if_neg he]
    have hname : key.name ≠ key'.name := fun h => he (ContextKey.name_inj.mp h)
    cases s.get key' with
    | some val => rw [EventDict.lookup_setdefault, if_neg hname]
    | none => rfl

/-- The processor adds the fields that the event does not have and the context has. -/
theorem lookup_requestContextProcessor (s : Context) (d : EventDict) (key : ContextKey) :
    (requestContextProcessor s d).lookup key.name =
      (d.lookup key.name).or ((s.get key).map .str) := by
  have hfold (keys : List ContextKey) (d : EventDict) :
      (keys.foldl (addField s) d).lookup key.name =
        if key ∈ keys then (d.lookup key.name).or ((s.get key).map .str)
        else d.lookup key.name := by
    induction keys generalizing d with
    | nil => rfl
    | cons key' keys ih =>
      rw [List.foldl_cons, ih, lookup_addField]
      by_cases he : key = key'
      · subst he
        simp only [if_true, List.mem_cons_self, Option.or_assoc, Option.or_self, ite_self]
      · simp only [he, if_false, List.mem_cons, false_or]
  have hall : key ∈ ContextKey.all := by cases key <;> decide
  have hprocessor : requestContextProcessor s d = ContextKey.all.foldl (addField s) d := rfl
  rw [hprocessor, hfold, if_pos hall]

/-! ## The values of a request -/

/-- The string that the call sets the variable to. -/
def LogCall.sets (key : ContextKey) (ev : LogCall) : Option String :=
  match ev.op with
  | .set key' value => if key' = key then value else none
  | _ => none

/-- The string that the calls last set the variable to; none where they set it to none. -/
def lastSet (key : ContextKey) (calls : List LogCall) : Option String :=
  (calls.filterMap (LogCall.sets key)).getLast?

theorem lastSet_append_singleton (key : ContextKey) (calls : List LogCall) (ev : LogCall) :
    lastSet key (calls ++ [ev]) = (ev.sets key).or (lastSet key calls) := by
  unfold lastSet
  rw [List.filterMap_append]
  cases h : ev.sets key with
  | some value => simp [h]
  | none => simp [h]

/-- The value of a variable in a request with id `rid` that has made the calls. -/
def contextValue (rid : String) (calls : List LogCall) : ContextKey → Option String
  | .request_id => some rid
  | key => lastSet key calls

/-- The fields that the event has of the context, where the request has made the calls: the
processor adds those that it has not, and `AccessLogMiddleware` those that are not empty. -/
structure Sound (rid : String) (calls : List LogCall) (ev : LogCall) : Prop where
  processed : ∀ logger event extra, ev.op = .log logger event extra → ∀ key : ContextKey,
    ev.processed.lookup key.name =
      (extra.lookup key.name).or ((contextValue rid calls key).map .str)
  access : ∀ event extra, ev.op = .log accessLogger event extra → ∀ (key : ContextKey) val,
    extra.lookup key.name = some val → (contextValue rid calls key).map .str = some val

/-- A call that logs nothing. -/
theorem Sound.of_not_log (h : ∀ logger event extra, ev.op ≠ .log logger event extra) :
    Sound rid calls ev where
  processed logger event extra he := absurd he (h logger event extra)
  access event extra he := absurd he (h accessLogger event extra)

/-! ## Steps -/

/-- The call leaves the variables and logs nothing. -/
def LogOp.quiet : LogOp → Bool
  | .set .. | .reset .. | .get _ | .log .. => false
  | _ => true

theorem vars_of_quiet (h : o.quiet = true) : (LogOp.exec o c s).2.vars = s.vars := by
  cases o with
  | set | reset | get | log => cases h
  | _ => rfl

/-- What has been read of the variables since the last of them was set. -/
abbrev Seen := ContextKey → Option (Option String)

def unseen : Seen := fun _ => none

/-- The calls behind `RequestIDMiddleware`. The access log has the fields that were read. -/
inductive LogStep : Seen → LogCall → Seen → Prop
  | quiet {φ o c s} (h : o.quiet = true) : LogStep φ ⟨o, c, s⟩ φ
  | set {φ key value c s} (h : key ≠ .request_id) : LogStep φ ⟨.set key (some value), c, s⟩ unseen
  | get {φ key c s} :
      LogStep φ ⟨.get key, c, s⟩ (Function.update φ key (some (Context.get s key)))
  | log {φ logger event extra c s} (h : logger ≠ accessLogger) :
      LogStep φ ⟨.log logger event extra, c, s⟩ φ
  | access {φ event extra c s}
      (h : ∀ (key : ContextKey) val, List.lookup key.name extra = some val →
        ∃ value, φ key = some (some value) ∧ val = .str value) :
      LogStep φ ⟨.log accessLogger event extra, c, s⟩ φ

/-- The request with id `rid` has made the calls and left the context: it holds what they set, and
the events among them had the fields of the request. -/
structure InRequest (rid : String) (calls : List LogCall) (s : Context) (φ : Seen) : Prop where
  vars : ∀ key, s.get key = contextValue rid calls key
  seen : ∀ key value, φ key = some value → s.get key = value
  events : ∀ n ev, calls[n]? = some ev → Sound rid (calls.take n) ev

theorem contextValue_append_singleton (h : ev.sets .request_id = none) (key : ContextKey) :
    contextValue rid (calls ++ [ev]) key = (ev.sets key).or (contextValue rid calls key) := by
  cases key with
  | request_id =>
    rw [h]
    rfl
  | _ => exact lastSet_append_singleton _ calls ev

/-- The events are those before and the last. -/
theorem InRequest.events_append {φ : Seen} (h : InRequest rid calls s φ) (hev : Sound rid calls ev)
    (n : Nat) (ev' : LogCall) (hn : (calls ++ [ev])[n]? = some ev') :
    Sound rid ((calls ++ [ev]).take n) ev' := by
  rcases Nat.lt_trichotomy n calls.length with hlt | rfl | hgt
  · rw [List.getElem?_append_left hlt] at hn
    rw [List.take_append_of_le_length hlt.le]
    exact h.events n ev' hn
  · rw [List.getElem?_concat_length] at hn
    cases hn
    rw [List.take_left]
    exact hev
  · have hlen : (calls ++ [ev]).length ≤ n := by
      rw [List.length_append]
      exact hgt
    rw [List.getElem?_eq_none hlen] at hn
    cases hn

/-- A step that leaves the variables and sets none of them. -/
theorem InRequest.frame {φ φ' : Seen} (h : InRequest rid calls ev.pre φ)
    (hvars : (ev.post LogOp.exec).vars = ev.pre.vars) (hsets : ∀ key, ev.sets key = none)
    (hseen : ∀ key value, φ' key = some value → ev.pre.get key = value)
    (hev : Sound rid calls ev) : InRequest rid (calls ++ [ev]) (ev.post LogOp.exec) φ' := by
  have hget (key : ContextKey) : (ev.post LogOp.exec).get key = ev.pre.get key := by
    rw [Context.get, hvars]
    rfl
  refine ⟨fun key => ?_, fun key value hv => ?_, h.events_append hev⟩
  · rw [hget, h.vars, contextValue_append_singleton (hsets _), hsets, Option.none_or]
  · rw [hget]
    exact hseen key value hv

/-- What is logged behind the processor has the fields of the context. -/
theorem InRequest.processed {φ : Seen} (h : InRequest rid calls ev.pre φ) {logger event : String}
    {extra : EventDict} (he : ev.op = .log logger event extra) (key : ContextKey) :
    ev.processed.lookup key.name =
      (extra.lookup key.name).or ((contextValue rid calls key).map .str) := by
  rw [LogCall.processed, he, ← h.vars]
  exact lookup_requestContextProcessor ev.pre extra key

theorem InRequest.step {φ φ' : Seen} (h : InRequest rid calls ev.pre φ) (hs : LogStep φ ev φ') :
    InRequest rid (calls ++ [ev]) (ev.post LogOp.exec) φ' := by
  cases hs with
  | @quiet o c s ho =>
    apply h.frame (vars_of_quiet ho)
    · intro key
      cases o with
      | set => cases ho
      | _ => rfl
    · exact h.seen
    · apply Sound.of_not_log
      rintro logger event extra rfl
      cases ho
  | @get key c s =>
    apply h.frame rfl
    · intro key
      rfl
    · intro key' value hv
      by_cases he : key' = key
      · subst he
        rw [Function.update_self] at hv
        exact Option.some.inj hv
      · rw [Function.update_of_ne he] at hv
        exact h.seen key' value hv
    · apply Sound.of_not_log
      intro logger event extra he
      cases he
  | log hlogger =>
    apply h.frame rfl (fun _ => rfl) h.seen
    refine ⟨fun _ _ _ he key => h.processed he key, fun event extra he => ?_⟩
    cases he
    exact absurd rfl hlogger
  | access hextra =>
    apply h.frame rfl (fun _ => rfl) h.seen
    refine ⟨fun _ _ _ he key => h.processed he key, fun event extra he key val hval => ?_⟩
    cases he
    obtain ⟨value, hread, rfl⟩ := hextra key val hval
    rw [← h.vars, h.seen key _ hread]
    rfl
  | @set key value c s hkey =>
    -- the only step after which a variable holds something else
    have hsets (key' : ContextKey) :
        LogCall.sets key' ⟨.set key (some value), c, s⟩ = if key = key' then some value else none :=
      rfl
    refine ⟨fun key' => ?_, fun _ _ hv => ?_, h.events_append ?_⟩
    · rw [contextValue_append_singleton ((hsets _).trans (if_neg hkey)), hsets, ← h.vars]
      by_cases he : key = key'
      · subst he
        simp [Event.post, LogOp.exec, Context.get, Context.setVar]
      · simp [Event.post, LogOp.exec, Context.get, Context.setVar, he, Ne.symm he]
    · cases hv
    · apply Sound.of_not_log
      intro logger event extra he
      cases he

/-! ## Programs -/

/-- The id of a request: the one that came with it, or else the one that is drawn. -/
def HttpRequest.ownId (request : HttpRequest) (drawn : String) : String :=
  if request.incoming = "" then drawn else request.incoming

theorem run_requestId (request : HttpRequest) (readings : Nat → Reading) (s : Context) :
    ∃ calls : List LogCall, request.requestId.run LogOp.exec readings s =
      ⟨.ok (request.ownId (readings 0).uuid), s, calls⟩ ∧ ∀ ev ∈ calls, ev.op = .uuid4 := by
  unfold HttpRequest.requestId HttpRequest.ownId
  split
  · refine ⟨_, rfl, fun ev hev => ?_⟩
    rw [List.mem_singleton.mp hev]
  · exact ⟨[], rfl, fun ev hev => (by cases hev)⟩

/-- The context after the variables are set for a request. -/
def Context.opened (s : Context) (rid : String) : Context :=
  (((s.setVar .request_id (some (some rid))).setVar .tenant_id (some none)).setVar .bot_id
    (some none)).setVar .doc_id (some none)

/-- The variables are set for a request, each giving what it held as a token. -/
theorem run_opened (rid : String) (k : VarValue → VarValue → VarValue → VarValue → LogProgram α)
    (readings : Nat → Reading) (s : Context) :
    let rest := (k (s.vars .request_id) (s.vars .tenant_id) (s.vars .bot_id) (s.vars .doc_id)).run
      LogOp.exec (fun n => readings (n + 4)) (s.opened rid)
    let program : LogProgram α := do
      let rid_token ← logCall (.set .request_id (some rid))
      let tenant_token ← logCall (.set .tenant_id none)
      let bot_token ← logCall (.set .bot_id none)
      let doc_token ← logCall (.set .doc_id none)
      k rid_token tenant_token bot_token doc_token
    ∃ opening : List LogCall,
      program.run LogOp.exec readings s = ⟨rest.reply, rest.state, opening ++ rest.trace⟩ ∧
      (∀ ev ∈ opening, ∃ key value, ev.op = .set key value) ∧
      ∀ key ≠ ContextKey.request_id, opening.filterMap (LogCall.sets key) = [] := by
  refine ⟨[⟨.set .request_id (some rid), readings 0, s⟩,
    ⟨.set .tenant_id none, readings 1, s.setVar .request_id (some (some rid))⟩,
    ⟨.set .bot_id none, readings 2,
      (s.setVar .request_id (some (some rid))).setVar .tenant_id (some none)⟩,
    ⟨.set .doc_id none, readings 3, ((s.setVar .request_id (some (some rid))).setVar .tenant_id
      (some none)).setVar .bot_id (some none)⟩], rfl, ?_, ?_⟩
  · simp only [List.forall_mem_cons]
    exact ⟨⟨_, _, rfl⟩, ⟨_, _, rfl⟩, ⟨_, _, rfl⟩, ⟨_, _, rfl⟩, fun _ h => (by cases h)⟩
  · intro key hkey
    cases key with
    | request_id => exact absurd rfl hkey
    | _ => rfl

/-- Its middleware resets the variables, however the request ended. -/
theorem run_tryFinally_resetContext (p : LogProgram α) (t₁ t₂ t₃ t₄ : VarValue)
    (readings : Nat → Reading) (s : Context) :
    let r := p.run LogOp.exec readings s
    ∃ closing : List LogCall,
      (p.tryFinally (resetContext t₁ t₂ t₃ t₄)).run LogOp.exec readings s =
        ⟨r.reply, (((r.state.setVar .request_id t₁).setVar .tenant_id t₂).setVar .bot_id t₃).setVar
          .doc_id t₄, r.trace ++ closing⟩ ∧
      ∀ ev ∈ closing, ∃ key token, ev.op = .reset key token := by
  intro r
  have hreset (readings : Nat → Reading) (s : Context) : ∃ closing : List LogCall,
      (resetContext t₁ t₂ t₃ t₄).run LogOp.exec readings s =
        ⟨.ok (), (((s.setVar .request_id t₁).setVar .tenant_id t₂).setVar .bot_id t₃).setVar
          .doc_id t₄, closing⟩ ∧ ∀ ev ∈ closing, ∃ key token, ev.op = .reset key token := by
    refine ⟨[⟨.reset .request_id t₁, _, _⟩, ⟨.reset .tenant_id t₂, _, _⟩,
      ⟨.reset .bot_id t₃, _, _⟩, ⟨.reset .doc_id t₄, _, _⟩], rfl, ?_⟩
    simp only [List.forall_mem_cons]
    exact ⟨⟨_, _, rfl⟩, ⟨_, _, rfl⟩, ⟨_, _, rfl⟩, ⟨_, _, rfl⟩, fun _ h => (by cases h)⟩
  obtain ⟨closing, hclosing, hresets⟩ := hreset (fun n => readings (n + r.trace.length)) r.state
  refine ⟨closing, ?_, hresets⟩
  have hrun : p.run LogOp.exec readings s = ⟨r.reply, r.state, r.trace⟩ := rfl
  rw [run_tryFinally hrun, hclosing]
  rfl

/-- A request is served on the context that is set for it, and the variables are put back. -/
theorem run_requestIDMiddleware {request : HttpRequest} (get_response : LogProgram HttpResponse)
    (hpath : startsWithAny request.path requestIdExcludedPaths = false) (readings : Nat → Reading)
    (s : Context) :
    ∃ (opening closing : List LogCall) (readings' : Nat → Reading),
      let rid := request.ownId (readings 0).uuid
      let r := (serveAs rid get_response).run LogOp.exec readings' (s.opened rid)
      let whole := (RequestIDMiddleware request get_response).run LogOp.exec readings s
      (whole.trace = opening ++ r.trace ++ closing ∧ whole.state.vars = s.vars) ∧
      (∀ ev ∈ opening ++ closing, ∀ logger event extra, ev.op ≠ .log logger event extra) ∧
      ∀ key ≠ ContextKey.request_id, lastSet key opening = none := by
  obtain ⟨drawn, hid, hdrawn⟩ := run_requestId request readings s
  obtain ⟨opening, hopen, hsets, hlast⟩ := run_opened (request.ownId (readings 0).uuid)
    (fun t₁ t₂ t₃ t₄ => (serveAs (request.ownId (readings 0).uuid) get_response).tryFinally
      (resetContext t₁ t₂ t₃ t₄)) (fun n => readings (n + drawn.length)) s
  obtain ⟨closing, hclose, hresets⟩ := run_tryFinally_resetContext
    (serveAs (request.ownId (readings 0).uuid) get_response) (s.vars .request_id)
    (s.vars .tenant_id) (s.vars .bot_id) (s.vars .doc_id)
    (fun n => readings (n + 4 + drawn.length)) (s.opened (request.ownId (readings 0).uuid))
  refine ⟨drawn ++ opening, closing, fun n => readings (n + 4 + drawn.length), ⟨?_, ?_⟩, ?_, ?_⟩
  · rw [RequestIDMiddleware, hpath, if_neg Bool.false_ne_true, run_bind_of_ok hid, hopen, hclose]
    simp only [List.append_assoc]
  · rw [RequestIDMiddleware, hpath, if_neg Bool.false_ne_true, run_bind_of_ok hid, hopen, hclose]
    funext key
    cases key <;> simp [Context.setVar]
  · intro ev hev logger event extra hlog
    simp only [List.mem_append] at hev
    rcases hev with (hev | hev) | hev
    · cases (hdrawn ev hev).symm.trans hlog
    · obtain ⟨key, value, hset⟩ := hsets ev hev
      cases hset.symm.trans hlog
    · obtain ⟨key, token, hreset⟩ := hresets ev hev
      cases hreset.symm.trans hlog
  · intro key hkey
    have hnone : drawn.filterMap (LogCall.sets key) = [] := by
      rw [List.filterMap_eq_nil_iff]
      intro ev hev
      rw [LogCall.sets, hdrawn ev hev]
    rw [lastSet, List.filterMap_append, hnone, hlast key hkey]
    rfl

/-- Views may set the variables by `set_request_context`. -/
theorem only_setRequestContext (tenant_id bot_id doc_id : Option String) :
    (setRequestContext tenant_id bot_id doc_id).Only LogOp.Outside := by
  have hset {key : ContextKey} (hkey : key ≠ .request_id) (value : Option String) :
      (setIfGiven key value).Only LogOp.Outside := by
    cases value with
    | none => trivial
    | some value => exact Only.bind (only_perform ⟨hkey, rfl⟩) fun _ => trivial
  refine Only.bind (hset ContextKey.noConfusion tenant_id) fun _ => ?_
  refine Only.bind (hset ContextKey.noConfusion bot_id) fun _ => ?_
  exact hset ContextKey.noConfusion doc_id

namespace Sample

/-- A view that is given a pair, and fails where there is nothing to answer. -/
def view (tenant_id bot_id : Option String) (answer : Except Exc HttpResponse) :
    LogProgram HttpResponse := do
  setRequestContext tenant_id bot_id none
  logCall (.log "apps.documents.views" "upload_started" [])
  ofExcept answer

theorem only_view (tenant_id bot_id : Option String) (answer : Except Exc HttpResponse) :
    (view tenant_id bot_id answer).Only LogOp.Outside := by
  refine Only.bind (only_setRequestContext tenant_id bot_id none) fun _ => ?_
  refine Only.bind (only_perform ?_) fun _ => only_ofExcept answer
  change "apps.documents.views" ≠ accessLogger
  decide

/-- A request to the view, with nothing else on its way. -/
def servedBy (tenant_id bot_id : Option String) (answer : Except Exc HttpResponse) : Served where
  request := ⟨"/v1/tenants/acme/bots/support/documents", "POST", none, none⟩
  site :=
    { before := return none
      view := view tenant_id bot_id answer
      after := ofExcept
      before_only := trivial
      view_only := only_view tenant_id bot_id answer
      after_only := only_ofExcept }
  readings := fun _ => ⟨"5f8f1e7c-2b6e-4f0a-9f43-0d4c8b6a7e21", 0, none⟩

/-- A thread that has served nothing. -/
def idle : Context := ⟨fun _ => none, none⟩

/-- A request that fails, and one that sets nothing. -/
def pairThenNone : List Served :=
  [servedBy (some "acme") (some "support") (.error (.raised "KeyError" "'data'")),
    servedBy none none (.ok ⟨200, []⟩)]

end Sample

end QdrantRag
