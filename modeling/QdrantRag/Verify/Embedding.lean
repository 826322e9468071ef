import QdrantRag.Verify.Caches
import QdrantRag.Verify.Outage

/-! # The embedder behind its caches

The pipelines have the embedder as calls that answer (`Op.encode`, `countTokens`); a process has it
as objects that its threads load, keep in the caches of `lru_cache` and share. What a thread of the
process returns the pipelines' embedder returns, and where it raises, one of its own calls has
failed or the pipelines' embedder refuses too (`embedder_transparent`). -/

namespace QdrantRag
open Effect Effect.Prog Text

variable {env : Env} {web : Web} {t : Thread} {α β : Type} {φ : Option Exc}

/-! ## What a thread of the process does -/

/-- A call of the thread `t`, and the exception the thread may raise, once a call of it has failed
with it. -/
inductive FailStep (env : Env) (t : Thread) : Option Exc → ProcessCall → Option Exc → Prop
  | pass {φ ev} : FailStep env t φ ev φ
  | fail {φ ev e} (h : ev.Failed (ProcessOp.exec env t) e) : FailStep env t φ ev (some e)

/-- The program returns what `ok` allows, and raises what `err` allows or what a call of it has
failed with. -/
abbrev Watched (env : Env) (t : Thread) (p : ProcessProgram α) (ok : α → Prop)
    (err : Exc → Prop) (φ : Option Exc) : Prop :=
  p.Sim (ProcessOp.execGenuine env t) (FailStep env t) (fun _ a => ok a)
    (fun ψ e => ψ = some e ∨ err e) φ

variable {ok : α → Prop} {err : Exc → Prop}

theorem Watched.bind {p : ProcessProgram β} {f : β → ProcessProgram α} {Q : β → Prop}
    (hp : Watched env t p Q err φ) (hf : ∀ b, Q b → ∀ ψ, Watched env t (f b) ok err ψ) :
    Watched env t (p >>= f) ok err φ :=
  sim_do.mpr (hp.mono (fun ψ b hb => hf b hb ψ) fun _ _ => id)

theorem watched_call {o : ProcessOp} {ok : ProcessAns o → Prop}
    (h : ∀ c s a, (ProcessOp.execGenuine env t o c s).1 = .ok a → ok a) :
    Watched env t (processCall o) ok err φ := by
  refine sim_perform.mpr fun c s => ?_
  cases hr : (ProcessOp.execGenuine env t o c s).1 with
  | ok a => exact ⟨φ, .pass, h c s a hr⟩
  | error e => exact ⟨some e, .fail (failed_of_genuine hr), .inl rfl⟩

/-- Of other programs nothing is asked. -/
theorem watched_any {p : ProcessProgram α} :
    Watched env t p (fun _ => True) (fun _ => True) φ := by
  induction p with
  | pure a => trivial
  | throw e => exact .inr trivial
  | call o k ih => exact fun c s => ⟨φ, .pass, ih _⟩

theorem watched_lookUp {c : Cached} : Watched env t (processCall (.lookUp c))
    (fun hit => ∀ object, hit = some object → object = env.object c) err φ := by
  refine watched_call fun _ s hit hhit object hobject => ?_
  obtain rfl := Except.ok.inj hhit
  obtain ⟨_, -, rfl⟩ := Option.map_eq_some_iff.mp hobject
  rfl

theorem watched_load {c : Cached} : Watched env t (processCall (.load c))
    (fun object => object = env.object c) err φ := by
  refine watched_call fun failure s object hobject => ?_
  cases failure with
  | none => exact (Except.ok.inj hobject).symm
  | some e => cases hobject

/-- A cached function returns its object, from the cache or loaded. -/
theorem watched_callCached {c : Cached} :
    Watched env t (Embedder.callCached c) (fun object => object = env.object c) err φ := by
  refine watched_lookUp.bind fun hit hhit ψ => ?_
  cases hit with
  | some object => exact hhit object rfl
  | none =>
    refine watched_load.bind ?_
    rintro _ rfl ψ
    exact Watched.bind (watched_call fun _ _ _ _ => trivial) fun _ _ ψ => rfl

/-! ## The embedder's functions -/

theorem watched_countTokens {text : String} :
    Watched env t (Embedder.countTokens text) (fun n => n = countTokens env text) err φ := by
  unfold Embedder.countTokens countTokens
  split
  · rfl
  · refine watched_callCached.bind ?_
    rintro _ rfl ψ
    refine watched_call fun c s n hn => ?_
    cases c with
    | none => exact (Except.ok.inj hn).symm
    | some e => cases hn

/-- The pipelines' embedder, served, returns `a` from every state. -/
def Replies (env : Env) (p : Program α) (a : α) : Prop :=
  ∀ i s, (p.run (exec env i) (fun _ => .none) s).reply = .ok a

/-- The pipelines' embedder refuses with the `ValueError` `e`, from every state and whatever
fails. -/
def Refused (env : Env) (p : Program α) (e : Exc) : Prop :=
  (∃ msg, e = .raised "ValueError" msg) ∧
    ∀ i faults s, (p.run (exec env i) faults s).reply = .error e

theorem refused_throw {msg : String} {p : Program α}
    (hp : p = .throw (.raised "ValueError" msg)) : Refused env p (.raised "ValueError" msg) := by
  rw [hp]
  exact ⟨⟨msg, rfl⟩, fun _ _ _ => rfl⟩

theorem watched_encode {texts : List String} :
    Watched env t (processCall (.encode (env.object .model) texts))
      (fun out => out = texts.map env.encode) err φ := by
  refine watched_call fun c s out hout => ?_
  cases c with
  | none => exact (Except.ok.inj hout).symm
  | some e => cases hout

/-- Texts that are not refused are embedded one by one. -/
theorem watched_embedPassages_checked {texts : List String} (h : checkTexts texts = .ok ()) :
    Watched env t (Embedder.embedPassages texts) (fun out => out = texts.map env.encode) err φ := by
  unfold Embedder.embedPassages
  rw [h]
  refine watched_callCached.bind ?_
  rintro _ rfl ψ
  exact watched_encode

theorem watched_embedPassages {texts : List String} :
    Watched env t (Embedder.embedPassages texts) (Replies env (embedPassages texts))
      (Refused env (embedPassages texts)) φ := by
  cases hchecked : checkTexts texts with
  | ok =>
    refine (watched_embedPassages_checked hchecked).mono ?_ fun _ _ => id
    rintro _ out rfl
    rw [embedPassages_of_checked hchecked]
    exact fun _ _ => rfl
  | error e =>
    obtain ⟨msg, rfl⟩ := checkTexts_eq_error hchecked
    have hrefused : embedPassages texts = .throw (.raised "ValueError" msg) := by
      unfold embedPassages
      rw [hchecked]
      rfl
    unfold Embedder.embedPassages
    rw [hchecked]
    exact .inr (refused_throw hrefused)

theorem watched_embedQuery {text : String} :
    Watched env t (Embedder.embedQuery text) (Replies env (embedQuery text))
      (Refused env (embedQuery text)) φ := by
  by_cases hblank : strip text = ""
  · rw [Embedder.embedQuery, if_pos hblank]
    exact .inr (refused_throw (if_pos hblank))
  · have hchecked : checkTexts [text] = .ok () :=
      checkTexts_eq_ok.mpr ⟨List.cons_ne_nil _ _, List.forall_mem_singleton.mpr hblank⟩
    rw [Embedder.embedQuery, if_neg hblank]
    refine (watched_embedPassages_checked hchecked).bind ?_
    rintro _ rfl ψ
    exact fun i s => congrArg Outcome.reply (run_embedQuery hblank rfl)

/-! ## The threads of a process -/

/-- What the thread returns the pipelines' embedder returns. -/
def EntryPoint.Gives (env : Env) : EntryPoint → ProcessReply → Prop
  | .countTokens text, r => r = .tokens (QdrantRag.countTokens env text)
  | .embedPassages texts, r =>
    ∃ out, r = .embeddings out ∧ Replies env (QdrantRag.embedPassages texts) out
  | .embedQuery text, r => ∃ e, r = .embeddings [e] ∧ Replies env (QdrantRag.embedQuery text) e
  | _, _ => True

/-- What the thread refuses the pipelines' embedder refuses, with the same exception. -/
def EntryPoint.Refuses (env : Env) : EntryPoint → Exc → Prop
  | .countTokens _, _ => False
  | .embedPassages texts, e => Refused env (QdrantRag.embedPassages texts) e
  | .embedQuery text, e => Refused env (QdrantRag.embedQuery text) e
  | _, _ => True

theorem EntryPoint.watched (entry : EntryPoint) :
    Watched env t (entry.program web) (entry.Gives env) (entry.Refuses env) φ := by
  cases entry with
  | countTokens text =>
    refine watched_countTokens.bind ?_
    rintro n rfl ψ
    rfl
  | embedPassages texts => exact watched_embedPassages.bind fun out hout ψ => ⟨out, rfl, hout⟩
  | embedQuery text => exact watched_embedQuery.bind fun e he ψ => ⟨e, rfl, he⟩
  | _ => exact watched_any

/-- What a thread may raise a call that it has made has failed with. -/
def Attested (env : Env) (log : List (Thread × ProcessCall)) (_ : Process)
    (Φ : Thread → Option Exc) : Prop :=
  ∀ t e, Φ t = some e → ∃ ev, (t, ev) ∈ log ∧ ev.Failed (ProcessOp.exec env t) e

theorem Attested.step {log : List (Thread × ProcessCall)} {s s' : Process} {ev : ProcessCall}
    {Φ : Thread → Option Exc} {φ' : Option Exc} (h : Attested env log s Φ)
    (hs : FailStep env t (Φ t) ev φ') :
    Attested env ((t, ev) :: log) s' (Function.update Φ t φ') := by
  have hold {u : Thread} {e : Exc} (he : Φ u = some e) :
      ∃ ev', (u, ev') ∈ (t, ev) :: log ∧ ev'.Failed (ProcessOp.exec env u) e :=
    (h u e he).imp fun _ hev => ⟨List.mem_cons_of_mem _ hev.1, hev.2⟩
  intro u e he
  by_cases hu : u = t
  · subst hu
    rw [Function.update_self] at he
    cases hs with
    | pass => exact hold he
    | fail hfail =>
      obtain rfl := Option.some.inj he
      exact ⟨ev, List.mem_cons_self, hfail⟩
  · rw [Function.update_of_ne hu] at he
    exact hold he

/-- **The caches are transparent.** However the threads of a process are interleaved and whatever
fails, the caches hold nothing but what loading gives; a thread that counts tokens or embeds texts
returns what the pipelines' embedder returns when it is served; and where it raises, a call of it
has failed with what it raises, or the pipelines' embedder refuses the texts with the same
exception. -/
theorem embedder_transparent (env : Env) (web : Web) (entries : Nat → EntryPoint)
    (sched : List (Thread × Option Exc)) (n : Nat) :
    let process := Process.interleave env web entries sched
    process.state.Genuine env ∧
    (∀ r, process.threads (.caller n) = .pure r → (entries n).Gives env r) ∧
    ∀ e, process.threads (.caller n) = .throw e →
      (∃ ev, (.caller n, ev) ∈ process.log ∧ ev.Failed (ProcessOp.exec env (.caller n)) e) ∨
        (entries n).Refuses env e := by
  intro process
  have hstart : Pool.Holds (ProcessOp.execGenuine env) (FailStep env)
      (fun t _ r => t = .caller n → (entries n).Gives env r)
      (fun t ψ e => t = .caller n → ψ = some e ∨ (entries n).Refuses env e) (Attested env)
      (Pool.start .fresh (Thread.program web entries)) fun _ => none := by
    refine ⟨(fun _ _ h => nomatch h), fun t => ?_⟩
    by_cases ht : t = .caller n
    · subst ht
      exact (entries n).watched.mono (fun _ _ h _ => h) fun _ _ h _ => h
    · exact watched_any.mono (fun _ _ _ h => absurd h ht) fun _ _ _ h => absurd h ht
  obtain ⟨Φ, hΦ⟩ := Pool.run_rule (fun h hs _ => Attested.step h hs) hstart sched
    (Obeys.trivial _)
  rw [← Process.interleave_eq] at hΦ
  have hended := hΦ.sim (.caller n)
  refine ⟨Process.genuine_interleave env web entries sched, fun r hr => ?_, fun e he => ?_⟩
  · rw [show (Process.interleave env web entries sched).threads (.caller n) = _ from hr] at hended
    exact hended rfl
  · rw [show (Process.interleave env web entries sched).threads (.caller n) = _ from he] at hended
    exact (hended rfl).imp (hΦ.inv _ e) id

end QdrantRag
