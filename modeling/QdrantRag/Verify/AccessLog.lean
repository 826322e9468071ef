import QdrantRag.Effect.Ends
import QdrantRag.Verify.Contexts

/-! # The access log

Every request whose view is called, unless its path is excluded, is logged in exactly one line
(`requests_accounted`), after its view and whatever the recorders raise: with the status that its
view answered, or 500 where it raised, and with the phases of its own timers. It is counted with the
same status. No other request is logged. -/

namespace QdrantRag
open Effect Effect.Prog

variable {request : HttpRequest} {s s' : Context} {α : Type} {plan : Nat → Reading}
  {tr : List LogCall}

/-! ## Lines and phases -/

/-- The call logs a line for a request. -/
def LogCall.isAccess (ev : LogCall) : Bool :=
  match ev.op with
  | .log logger event _ => logger == accessLogger && event == "request_completed"
  | _ => false

/-- What a call writes into the dict of phases. -/
def LogCall.writePhase (phases : List (String × Rat)) (ev : LogCall) : List (String × Rat) :=
  match ev.op with
  | .recordPhase phase milliseconds => setItem phases phase milliseconds
  | _ => phases

/-- The phases that the timers of the calls have written. -/
def recordedPhases (calls : List LogCall) : List (String × Rat) :=
  calls.foldl LogCall.writePhase []

/-- Calls none of which logs a request. -/
abbrev Unlogged (calls : List LogCall) : Prop := ∀ ev ∈ calls, ev.isAccess = false

theorem LogOp.Outside.unlogged {ev : LogCall} (h : ev.op.Outside) : ev.isAccess = false := by
  unfold LogCall.isAccess
  cases ho : ev.op with
  | log logger event extra =>
    rw [ho] at h
    have hne : (logger == accessLogger) = false := beq_eq_false_iff_ne.mpr h
    simp [hne]
  | _ => rfl

variable (s plan) in
theorem unlogged_run {p : LogProgram α} (h : p.Only LogOp.Outside) :
    Unlogged (p.run LogOp.exec plan s).trace :=
  fun _ hev => (h.run_trace _ hev).unlogged

variable (plan) in
/-- The dict holds what the timers have written since it was made. -/
theorem phases_run {p : LogProgram α} {d : List (String × Rat)} (h : p.Only LogOp.Outside)
    (hd : s.phase_durations = some d) : (p.run LogOp.exec plan s).state.phase_durations =
      some ((p.run LogOp.exec plan s).trace.foldl LogCall.writePhase d) := by
  induction p generalizing plan s d with
  | pure a => exact hd
  | throw e => exact hd
  | call o k ih =>
    refine ih _ _ (h.2 _) ?_
    cases o with
    | recordPhase phase milliseconds =>
      change s.phase_durations.map (setItem · phase milliseconds) = _
      rw [hd]
      rfl
    | resetPhaseDurations => exact h.1.elim
    | _ => exact hd

/-! ## The middleware -/

/-- The status a request is logged with. -/
def loggedStatus : Except Exc HttpResponse → Nat
  | .ok response => response.status_code
  | .error _ => 500

/-- The calls `tr` are those of the middleware around the run `v` of its view, and they log and
count the request once. -/
structure LoggedOnce (request : HttpRequest)
    (v : Outcome LogOp Exc HttpResponse Reading Context) (tr : List LogCall) : Prop where
  line : ∃ opening reads ev ev' l ms tid bid did,
    tr = opening ++ v.trace ++ reads ++ ev :: ev' :: l ∧
    opening.map (·.op) = [.resetPhaseDurations, .monotonic] ∧
    reads.map (·.op) =
      [.monotonic, .phaseDurations, .get .tenant_id, .get .bot_id, .get .doc_id] ∧
    ev.op = .log accessLogger "request_completed" (accessExtra request (loggedStatus v.reply) ms
      (recordedPhases v.trace) tid bid did) ∧
    ev'.op = .recordHttpRequest request.method request.endpoint (loggedStatus v.reply)
      (ms / 1000) ∧
    Unlogged (opening ++ v.trace ++ reads ++ l)

/-- Calls that log no request may come after. -/
theorem LoggedOnce.append {v : Outcome LogOp Exc HttpResponse Reading Context}
    (h : LoggedOnce request v tr) {after : List LogCall} (hafter : Unlogged after) :
    LoggedOnce request v (tr ++ after) := by
  obtain ⟨opening, reads, ev, ev', l, ms, tid, bid, did, rfl, ho, hr, hev, hev', hrest⟩ := h.line
  refine ⟨opening, reads, ev, ev', l ++ after, ms, tid, bid, did, ?_, ho, hr, hev, hev', ?_⟩
  · simp only [List.append_assoc, List.cons_append]
  · rw [← List.append_assoc]
    intro e he
    rcases List.mem_append.mp he with he | he
    · exact hrest e he
    · exact hafter e he

/-- What is said of every run: all readings are allowed. -/
abbrev AnyReading : Reading → Prop := fun _ => True

/-- The request is counted, and nothing is raised. -/
theorem ends_record (phases : List (String × Rat)) (status_code : Nat) (seconds : Rat) :
    ((do
      logCall (.recordHttpRequest request.method request.endpoint status_code seconds)
      each (fun item => logCall (.recordPipelinePhase item.1 (item.2 / 1000))) phases :
        LogProgram Unit).tryCatch fun _ =>
          logCall (.log accessLogger "metrics_record_failed" [])).Ends LogOp.exec AnyReading s
      fun tr r _ => r = .ok () ∧ ∃ ev l, tr = ev :: l ∧ ev.op =
        .recordHttpRequest request.method request.endpoint status_code seconds ∧ Unlogged l := by
  -- the phases are counted until a recorder raises
  have hrecord : ((do
      logCall (.recordHttpRequest request.method request.endpoint status_code seconds)
      each (fun item => logCall (.recordPipelinePhase item.1 (item.2 / 1000))) phases :
        LogProgram Unit)).Ends LogOp.exec AnyReading s fun tr _ _ => ∃ ev l, tr = ev :: l ∧
          ev.op = .recordHttpRequest request.method request.endpoint status_code seconds ∧
            Unlogged l := by
    refine ends_bind.mpr (ends_perform.mpr fun c _ => ?_)
    cases hc : (LogOp.exec (.recordHttpRequest request.method request.endpoint status_code seconds)
        c s).1 with
    | error e => exact ⟨_, [], rfl, rfl, fun _ h => nomatch h⟩
    | ok u =>
      have hphases : (each (fun item : String × Rat =>
          logCall (.recordPipelinePhase item.1 (item.2 / 1000))) phases).Only LogOp.Outside :=
        Only.each fun item _ => only_perform trivial
      refine next_ok.mpr ((ends_self _ fun _ => c).mono fun tr r s' ⟨plan, hrun⟩ => ?_)
      have hquiet := unlogged_run (LogOp.exec
        (.recordHttpRequest request.method request.endpoint status_code seconds) c s).2 plan hphases
      rw [hrun] at hquiet
      exact ⟨_, tr, rfl, rfl, hquiet⟩
  refine ends_tryCatch.mpr (hrecord.mono fun tr r s' ⟨ev, l, htr, hev, hl⟩ => ?_)
  subst htr
  cases r with
  | ok u => exact handle_ok.mpr ⟨rfl, ev, l, rfl, hev, hl⟩
  | error e =>
    refine handle_error.mpr (ends_perform.mpr fun c _ => ⟨rfl, ev, l ++ [_], rfl, hev, ?_⟩)
    intro e he
    rcases List.mem_append.mp he with he | he
    · exact hl e he
    · rw [List.mem_singleton.mp he]
      exact beq_eq_false_iff_ne.mpr (by decide)

/-- The line is logged, then the request is counted, and nothing is raised. -/
theorem ends_logAccess {phases : List (String × Rat)} (started : Rat) (status_code : Nat)
    (hphases : s.phase_durations = some phases) :
    (logAccess request started status_code).Ends LogOp.exec AnyReading s fun tr r _ =>
      r = .ok () ∧ ∃ reads ev ev' l ms tid bid did, tr = reads ++ ev :: ev' :: l ∧
        reads.map (·.op) =
          [.monotonic, .phaseDurations, .get .tenant_id, .get .bot_id, .get .doc_id] ∧
        ev.op = .log accessLogger "request_completed"
          (accessExtra request status_code ms phases tid bid did) ∧
        ev'.op = .recordHttpRequest request.method request.endpoint status_code (ms / 1000) ∧
        Unlogged (reads ++ l) := by
  refine ends_bind.mpr (ends_perform.mpr fun c₁ _ => ?_)
  refine next_ok.mpr (ends_bind.mpr (ends_perform.mpr fun c₂ _ => ?_))
  refine next_ok.mpr (ends_bind.mpr (ends_perform.mpr fun c₃ _ => ?_))
  refine next_ok.mpr (ends_bind.mpr (ends_perform.mpr fun c₄ _ => ?_))
  refine next_ok.mpr (ends_bind.mpr (ends_perform.mpr fun c₅ _ => ?_))
  refine next_ok.mpr (ends_bind.mpr (ends_perform.mpr fun c₆ _ => ?_))
  refine next_ok.mpr ((ends_record _ _ _).mono fun tr r s' ⟨hr, ev, l, htr, hev, hl⟩ => ?_)
  subst htr
  have hread : s.phase_durations.getD [] = phases := by
    rw [hphases]
    rfl
  refine ⟨hr, [⟨.monotonic, c₁, s⟩, ⟨.phaseDurations, c₂, s⟩, ⟨.get .tenant_id, c₃, s⟩,
    ⟨.get .bot_id, c₄, s⟩, ⟨.get .doc_id, c₅, s⟩], _, ev, l, (c₁.clock - started) * 1000,
    s.get .tenant_id, s.get .bot_id, s.get .doc_id, rfl, rfl, ?_, hev, ?_⟩
  · rw [← hread]
    rfl
  · intro e he
    rcases List.mem_append.mp he with he | he
    · simp only [List.mem_cons, List.not_mem_nil, or_false] at he
      rcases he with rfl | rfl | rfl | rfl | rfl <;> rfl
    · exact hl e he

/-- The middleware passes on what its view comes to, and accounts for it. -/
theorem ends_accessLog {view : LogProgram HttpResponse} (hview : view.Only LogOp.Outside)
    (hpath : startsWithAny request.path accessLogExcludedPaths = false) (readings : Nat → Reading) :
    (AccessLogMiddleware request view).Ends LogOp.exec AnyReading s fun tr r _ =>
      ∃ plan s₁, LoggedOnce request (view.run LogOp.exec plan s₁) tr ∧
        r = (view.run LogOp.exec plan s₁).reply := by
  unfold AccessLogMiddleware
  rw [hpath, if_neg Bool.false_ne_true]
  refine ends_bind.mpr (ends_perform.mpr fun c₁ _ => ?_)
  refine next_ok.mpr (ends_bind.mpr (ends_perform.mpr fun c₂ _ => ?_))
  refine next_ok.mpr (ends_bind.mpr (ends_attempt.mpr ?_))
  refine (ends_self view readings).mono fun tr r s' ⟨plan, hrun⟩ => next_ok.mpr ?_
  replace hrun : view.run LogOp.exec plan { s with phase_durations := some [] } =
    ⟨r, s', tr⟩ := hrun
  have hphases : s'.phase_durations = some (recordedPhases tr) := by
    have hheld := phases_run (s := { s with phase_durations := some [] }) plan hview rfl
    rw [hrun] at hheld
    exact hheld
  have hquiet : Unlogged tr := by
    have hall := unlogged_run { s with phase_durations := some [] } plan hview
    rw [hrun] at hall
    exact hall
  have hrest : (logAccess request c₂.clock (loggedStatus r) >>= fun _ => ofExcept r).Ends
      LogOp.exec AnyReading s' fun tr' r' _ => ∃ plan s₁,
        LoggedOnce request (view.run LogOp.exec plan s₁)
          (⟨.resetPhaseDurations, c₁, s⟩ ::
            ⟨.monotonic, c₂, { s with phase_durations := some [] }⟩ :: (tr ++ tr')) ∧
          r' = (view.run LogOp.exec plan s₁).reply := by
    refine ends_bind.mpr ((ends_logAccess _ _ hphases).mono fun tr' r' s'' ⟨hr', hline⟩ => ?_)
    subst hr'
    obtain ⟨reads, ev, ev', l, ms, tid, bid, did, rfl, hreads, hev, hev', hsilent⟩ := hline
    refine next_ok.mpr (ends_ofExcept.mpr ⟨plan, { s with phase_durations := some [] }, ?_, ?_⟩)
    · rw [hrun]
      refine ⟨[⟨.resetPhaseDurations, c₁, s⟩,
        ⟨.monotonic, c₂, { s with phase_durations := some [] }⟩], reads, ev, ev', l, ms, tid,
        bid, did, ?_, rfl, hreads, hev, hev', ?_⟩
      · simp only [List.append_nil, List.append_assoc, List.cons_append, List.nil_append]
      · intro e he
        simp only [List.mem_append, List.mem_cons, List.not_mem_nil, or_false] at he
        rcases he with (((rfl | rfl) | he) | he) | he
        · rfl
        · rfl
        · exact hquiet e he
        · exact hsilent e (List.mem_append_left _ he)
        · exact hsilent e (List.mem_append_right _ he)
    · rw [hrun]
  cases r with
  | ok response => exact hrest
  | error e => exact hrest

/-! ## Requests -/

/-- What the calls of a site log: its first middleware logs no request, and where it calls the view
and the path is not excluded, one line is logged after that; there is none otherwise. -/
def Site.Accounts (site : Site) (request : HttpRequest) (tr : List LogCall) : Prop :=
  ∃ plan s₁ rest, let b := site.before.run LogOp.exec plan s₁
    tr = b.trace ++ rest ∧ Unlogged b.trace ∧
      (startsWithAny request.path accessLogExcludedPaths = true ∨ b.reply ≠ .ok none →
        Unlogged rest) ∧
      (startsWithAny request.path accessLogExcludedPaths = false → b.reply = .ok none →
        ∃ plan' s₂, LoggedOnce request (site.view.run LogOp.exec plan' s₂) rest)

theorem Site.ends (site : Site) (request : HttpRequest) (readings : Nat → Reading) :
    (site.getResponse request).Ends LogOp.exec AnyReading s fun tr _ _ =>
      site.Accounts request tr := by
  refine ends_bind.mpr ((ends_self site.before readings).mono fun tr r s' ⟨plan, hrun⟩ => ?_)
  have hbefore : Unlogged tr := by
    have hall := unlogged_run s plan site.before_only
    rw [hrun] at hall
    exact hall
  cases r with
  | error e =>
    refine next_error.mpr ⟨plan, s, [], ?_⟩
    rw [hrun]
    exact ⟨(List.append_nil _).symm, hbefore, fun _ _ h => (nomatch h), fun _ h => nomatch h⟩
  | ok answer =>
    refine next_ok.mpr ?_
    cases answer with
    | some response =>
      refine ends_return.mpr ⟨plan, s, [], ?_⟩
      rw [hrun]
      exact ⟨rfl, hbefore, fun _ _ h => (nomatch h), fun _ h => nomatch h⟩
    | none =>
      have hafter (ended : Except Exc HttpResponse) (s : Context) : (site.after ended).Ends
          LogOp.exec AnyReading s fun tr _ _ => Unlogged tr := by
        refine (ends_self _ readings).mono fun tr r s' ⟨plan, hrun⟩ => ?_
        have hall := unlogged_run s plan (site.after_only ended)
        rw [hrun] at hall
        exact hall
      cases hpath : startsWithAny request.path accessLogExcludedPaths with
      | true =>
        refine ends_bind.mpr (ends_attempt.mpr ?_)
        rw [AccessLogMiddleware, hpath, if_pos rfl]
        refine (ends_self site.view readings).mono fun tr' r' s'' ⟨plan', hrun'⟩ => next_ok.mpr ?_
        refine (hafter r' s'').mono fun tr'' _ _ hquiet => ⟨plan, s, tr' ++ tr'', ?_⟩
        rw [hrun, hpath]
        refine ⟨rfl, hbefore, fun _ e he => ?_, fun h => nomatch h⟩
        have hview := unlogged_run s' plan' site.view_only
        rw [hrun'] at hview
        rcases List.mem_append.mp he with he | he
        · exact hview e he
        · exact hquiet e he
      | false =>
        refine ends_bind.mpr (ends_attempt.mpr ?_)
        refine (ends_accessLog site.view_only hpath readings).mono
          fun tr' r' s'' ⟨plan', s₂, hlogged, _⟩ => next_ok.mpr ?_
        refine (hafter r' s'').mono fun tr'' _ _ hquiet => ⟨plan, s, tr' ++ tr'', ?_⟩
        rw [hrun, hpath]
        refine ⟨rfl, hbefore, fun h => ?_, fun _ _ => ⟨plan', s₂, hlogged.append hquiet⟩⟩
        rcases h with h | h
        · cases h
        · exact absurd rfl h

/-- What the calls of a request log: what its site logs, between calls that log nothing. -/
def Served.Accounts (x : Served) (s : Context) : Prop :=
  ∃ opening tr closing, (x.run s).trace = opening ++ tr ++ closing ∧
    (∀ ev ∈ opening ++ closing, ∀ logger event extra, ev.op ≠ .log logger event extra) ∧
    x.site.Accounts x.request tr

theorem Served.accounts (x : Served) (s : Context) : x.Accounts s := by
  have hends (s : Context) := x.site.ends (s := s) x.request x.readings
  cases hpath : startsWithAny x.request.path requestIdExcludedPaths with
  | true =>
    refine ⟨[], (x.run s).trace, [], (List.append_nil _).symm, fun _ h => (nomatch h), ?_⟩
    rw [run, RequestIDMiddleware, hpath, if_pos rfl]
    exact (hends s).run fun _ => trivial
  | false =>
    obtain ⟨opening, closing, readings, ⟨htrace, -⟩, hlog, -⟩ :=
      run_requestIDMiddleware (x.site.getResponse x.request) hpath x.readings s
    have hserve (rid : String) (s : Context) : (serveAs rid (x.site.getResponse x.request)).Ends
        LogOp.exec AnyReading s fun tr _ _ => x.site.Accounts x.request tr := by
      refine ends_bind.mpr ((hends s).mono fun tr r s' h => ?_)
      cases r with
      | error e => exact h
      | ok response =>
        refine next_ok.mpr (ends_ofExcept.mpr ?_)
        rwa [List.append_nil]
    exact ⟨opening, _, closing, htrace, hlog, (hserve _ _).run fun _ => trivial⟩

/-- **Every request is accounted for once.** Over every sequence of requests of a thread, however
their views end, whatever they log and time, and whatever the recorders raise: a request whose view
is called and whose path is not excluded is logged in exactly one line, after its view, with the
status its view came to and the phases its own timers wrote, and is then counted with that status;
any other request is not logged. -/
theorem requests_accounted (requests : List Served) (s : Context) :
    ∀ x ∈ Context.history requests s, x.1.Accounts x.2 := by
  induction requests generalizing s with
  | nil => exact fun x hx => nomatch hx
  | cons served requests ih =>
    intro x hx
    rcases List.mem_cons.mp hx with rfl | hx
    · exact served.accounts s
    · exact ih _ x hx

/-- A request that fails is logged and counted once. -/
theorem requests_accounted_pairThenNone :
    let failing := Sample.servedBy (some "acme") (some "support")
      (.error (.raised "KeyError" "'data'"))
    (failing, Sample.idle) ∈ Context.history Sample.pairThenNone Sample.idle ∧
      failing.Accounts Sample.idle := by
  intro failing
  exact ⟨List.mem_cons_self, requests_accounted Sample.pairThenNone Sample.idle
    (failing, Sample.idle) List.mem_cons_self⟩

/-! ## Timers -/

theorem mem_setItem (d : List (String × Rat)) (key : String) (value : Rat) :
    (key, value) ∈ setItem d key value := by
  unfold setItem
  split
  · next hany =>
    obtain ⟨item, hitem, hkey⟩ := List.any_eq_true.mp hany
    exact List.mem_map.mpr ⟨item, hitem, if_pos (eq_of_beq hkey)⟩
  · exact List.mem_append_right _ (List.mem_singleton_self _)

/-- Timers may be used by views. -/
theorem only_timer {phase : String} {body : LogProgram α} (hbody : body.Only LogOp.Outside) :
    (timer phase body).Only LogOp.Outside :=
  Only.bind (only_perform trivial) fun _ => Only.tryFinally hbody
    (Only.bind (only_perform trivial) fun _ => only_perform trivial)

/-- A timer writes its phase however its body ends, and leaves what the body comes to. -/
theorem run_timer (phase : String) (body : LogProgram α) (readings : Nat → Reading) :
    let o := (timer phase body).run LogOp.exec readings s
    o.reply = (body.run LogOp.exec (fun n => readings (n + 1)) s).reply ∧
      ∃ milliseconds, (phase, milliseconds) ∈ recordedPhases o.trace := by
  intro o
  have hstart : (logCall .monotonic).run LogOp.exec readings s =
      ⟨.ok (readings 0).clock, s, [⟨.monotonic, readings 0, s⟩]⟩ := rfl
  cases hbody : body.run LogOp.exec (fun n => readings (n + 1)) s with
  | mk r s' tr =>
    let finish : LogProgram Unit := do
      let now ← logCall .monotonic
      logCall (.recordPhase phase ((now - (readings 0).clock) * 1000))
    have hfinally := run_tryFinally (q := finish) hbody
    have hrun : o = ⟨((body.tryFinally finish).run LogOp.exec (fun n => readings (n + 1)) s).reply,
        ((body.tryFinally finish).run LogOp.exec (fun n => readings (n + 1)) s).state,
        [⟨.monotonic, readings 0, s⟩] ++
          ((body.tryFinally finish).run LogOp.exec (fun n => readings (n + 1)) s).trace⟩ :=
      run_bind_of_ok hstart
    rw [hrun, hfinally]
    refine ⟨rfl, ((readings (0 + tr.length + 1)).clock - (readings 0).clock) * 1000, ?_⟩
    unfold recordedPhases
    rw [List.foldl_append, List.foldl_append]
    exact mem_setItem _ _ _

end QdrantRag
