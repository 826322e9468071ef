import Mathlib.Data.Set.Insert
import QdrantRag.Verify.Served

/-! # The catalog

What the service is for, without its stores: a `Catalog` has the registered pairs and one `Entry`
for each document id, and says of each request what it may answer and what becomes of the catalog
(`Catalog.Step`). The service run without failures does nothing else: rows, points and replies are
those of a run of the catalog (`catalog_refined`). -/

namespace QdrantRag
open Keyed Effect Effect.Prog Text

/-! ## Catalogs -/

/-- What is known of a document. A deleted one has no chunks. -/
structure Entry where
  owner : String × String
  content_hash : String
  chunk_count : Nat
  item_count : Nat
  uploaded_at : Timestamp

/-- The name of the collection its chunks are in. -/
def Entry.collection (e : Entry) : String := joinName e.owner.1 e.owner.2

@[ext] structure Catalog where
  /-- The pairs that have a bot. -/
  pairs : Set (String × String)
  entries : String → Option Entry

def Upload.pair (x : Upload) : String × String := (x.tenant_id, x.bot_id)

def Delete.pair (x : Delete) : String × String := (x.tenant_id, x.bot_id)

namespace Catalog

def empty : Catalog := ⟨∅, fun _ => none⟩

/-- The pair gets a bot. -/
def enroll (c : Catalog) (p : String × String) : Catalog := { c with pairs := insert p c.pairs }

def put (c : Catalog) (d : String) (e : Entry) : Catalog :=
  { c with entries := Function.update c.entries d (some e) }

variable (env : Env) (c : Catalog)

/-- The pair has a bot, or no other pair has its collection. -/
def Open (p : String × String) : Prop :=
  p ∈ c.pairs ∨ ∀ q ∈ c.pairs, joinName q.1 q.2 ≠ joinName p.1 p.2

/-- The document has the content of the upload. -/
structure Has (x : Upload) (d : String) (e : Entry) : Prop where
  entry : c.entries d = some e
  owner : e.owner = x.pair
  content_hash : e.content_hash = incomingHash env x.body
  live : 0 < e.chunk_count

/-- The upload gets its lock and its bot, and its document is not another pair's. -/
structure Admits (x : Upload) : Prop where
  key : ∃ k, advisoryLockKey env.sha256 x.tenant_id x.bot_id x.doc_id = .ok k
  name : c.Open x.pair
  owner : ∀ e, c.entries x.doc_id = some e → e.owner = x.pair

/-- The entry of an upload that is indexed. A document keeps the time it was first uploaded. -/
def written (x : Upload) : Entry where
  owner := x.pair
  content_hash := incomingHash env x.body
  chunk_count := (x.points env).length
  item_count := x.body.items.length
  uploaded_at := ((c.entries x.doc_id).map Entry.uploaded_at).getD x.now

/-- How an upload may end. -/
inductive Uploads (x : Upload) : Except Exc UploadResult → Catalog → Prop
  | refused {e} (he : advisoryLockKey env.sha256 x.tenant_id x.bot_id x.doc_id = .error e) :
      Uploads x (.error e) c
  | taken (hk : ∃ k, advisoryLockKey env.sha256 x.tenant_id x.bot_id x.doc_id = .ok k)
      (hname : ¬ c.Open x.pair) : Uploads x (.error (.doesNotExist "Bot")) c
  | collides {e} (hk : ∃ k, advisoryLockKey env.sha256 x.tenant_id x.bot_id x.doc_id = .ok k)
      (hname : c.Open x.pair) (he : c.entries x.doc_id = some e) (hne : e.owner ≠ x.pair) :
      Uploads x (.error (collision x e.owner.1)) (c.enroll x.pair)
  /-- Its own document has the content. -/
  | same {e} (hx : c.Admits env x) (he : c.Has env x x.doc_id e) :
      Uploads x (.ok ⟨x.doc_id, e.chunk_count, e.item_count, x.collection, .noChange⟩)
        (c.enroll x.pair)
  /-- Another one has, of which the newest is taken. -/
  | duplicate {d e} (hx : c.Admits env x) (hown : ∀ e, ¬ c.Has env x x.doc_id e)
      (he : c.Has env x d e)
      (hnewest : ∀ d' e', c.Has env x d' e' → e'.uploaded_at ≤ e.uploaded_at) :
      Uploads x (.ok ⟨d, e.chunk_count, e.item_count, x.collection, .noChange⟩)
        (c.enroll x.pair)
  /-- Its content cannot be indexed. -/
  | unusable {e} (hx : c.Admits env x) (hnew : ∀ d e, ¬ c.Has env x d e)
      (he : x.refusal env = some e) : Uploads x (.error e) (c.enroll x.pair)
  | indexed (hx : c.Admits env x) (hnew : ∀ d e, ¬ c.Has env x d e)
      (hnone : x.refusal env = none) :
      Uploads x
        (.ok ⟨x.doc_id, (x.points env).length, x.body.items.length, x.collection,
          if (c.entries x.doc_id).isSome then .replaced else .created⟩)
        ((c.enroll x.pair).put x.doc_id (c.written env x))

/-- How a delete may end. -/
inductive Deletes (x : Delete) : Except Exc DeleteResult → Catalog → Prop
  | refused {e} (he : advisoryLockKey env.sha256 x.tenant_id x.bot_id x.doc_id = .error e) :
      Deletes x (.error e) c
  | unknown {e} (hk : ∃ k, advisoryLockKey env.sha256 x.tenant_id x.bot_id x.doc_id = .ok k)
      (hnot : ∀ e, c.entries x.doc_id = some e → e.owner ≠ x.pair)
      (he : ownDocument.notFound x = .error e) : Deletes x (.error e) c
  /-- All its chunks are deleted. -/
  | erased {e} (hk : ∃ k, advisoryLockKey env.sha256 x.tenant_id x.bot_id x.doc_id = .ok k)
      (he : c.entries x.doc_id = some e) (hown : e.owner = x.pair) :
      Deletes x (.ok ⟨x.doc_id, e.chunk_count, e.chunk_count == 0⟩)
        (c.put x.doc_id { e with chunk_count := 0 })

/-- The chunk is one of a live document, in its collection. -/
structure Serves (x : Search) (chunk : Payload × Rat) (e : Entry) : Prop where
  entry : c.entries chunk.1.doc_id = some e
  owner : e.owner = chunk.1.owner
  content_hash : e.content_hash = chunk.1.source_content_hash
  live : 0 < e.chunk_count
  collection : e.collection = joinName x.tenant_id x.bot_id

/-- What a request may answer, and the catalog it leaves. -/
inductive Step : Request → Except Exc Reply → Catalog → Prop
  | upload {x r c'} (h : c.Uploads env x r c') : Step (.write (.upload x)) (r.map .upload) c'
  | delete {x r c'} (h : c.Deletes env x r c') : Step (.write (.delete x)) (r.map .delete) c'
  /-- A search finds chunks of live documents only. -/
  | search {x r} (h : ∀ a, r = .ok (.search a) → ∀ chunk ∈ a.chunks, ∃ e, c.Serves x chunk e) :
      Step (.search x) r c

end Catalog

/-- Requests and their replies, one after the other. -/
inductive Catalog.Run (env : Env) : Catalog → List (Request × Except Exc Reply) → Catalog → Prop
  | nil {c} : Run env c [] c
  | cons {c c' c'' q r l} (h : c.Step env q r c') (hl : Run env c' l c'') :
      Run env c ((q, r) :: l) c''

/-! ## Documents that stay -/

namespace Catalog
variable {env : Env} {c c' : Catalog} {x : Upload} {d : String} {e : Entry} {q : Request}
  {r : Except Exc Reply}

@[simp] theorem entries_enroll {p : String × String} : (c.enroll p).entries = c.entries := rfl

@[simp] theorem entries_put_self : (c.put d e).entries d = some e := Function.update_self ..

theorem entries_put_of_ne {d' : String} (h : d' ≠ d) : (c.put d e).entries d' = c.entries d' :=
  Function.update_of_ne h ..

theorem Has.congr (h : c.Has env x d e) (hd : c'.entries d = c.entries d) : c'.Has env x d e :=
  ⟨hd.trans h.entry, h.owner, h.content_hash, h.live⟩

theorem has_enroll {p : String × String} : (c.enroll p).Has env x d e ↔ c.Has env x d e :=
  ⟨fun h => h.congr rfl, fun h => h.congr rfl⟩

/-- No content is indexed twice for a pair. -/
def Unique (c : Catalog) : Prop :=
  ∀ d d' e e', c.entries d = some e → c.entries d' = some e' → 0 < e.chunk_count →
    0 < e'.chunk_count → e.owner = e'.owner → e.content_hash = e'.content_hash → d = d'

theorem Unique.empty : empty.Unique := fun _ _ _ _ h => by cases h

theorem Unique.put (h : c.Unique) (hnew : ∀ d' e', c.entries d' = some e' → 0 < e.chunk_count →
    0 < e'.chunk_count → e.owner = e'.owner → e.content_hash = e'.content_hash → d' = d) :
    (c.put d e).Unique := by
  intro d₁ d₂ e₁ e₂ h₁ h₂ hlive₁ hlive₂ hown hhash
  by_cases hd₁ : d₁ = d
  · subst hd₁
    cases (entries_put_self.symm.trans h₁)
    by_cases hd₂ : d₂ = d₁
    · exact hd₂.symm
    · rw [entries_put_of_ne hd₂] at h₂
      exact (hnew d₂ e₂ h₂ hlive₁ hlive₂ hown hhash).symm
  · rw [entries_put_of_ne hd₁] at h₁
    by_cases hd₂ : d₂ = d
    · subst hd₂
      cases (entries_put_self.symm.trans h₂)
      exact hnew d₁ e₁ h₁ hlive₂ hlive₁ hown.symm hhash.symm
    · rw [entries_put_of_ne hd₂] at h₂
      exact h d₁ d₂ e₁ e₂ h₁ h₂ hlive₁ hlive₂ hown hhash

theorem Step.unique (h : c.Unique) (hs : c.Step env q r c') : c'.Unique := by
  cases hs with
  | upload hx =>
    cases hx with
    | indexed hadmits hnew =>
      refine Unique.put (c := c.enroll _) h fun d' e' he' _ hlive' hown hhash => ?_
      exact absurd ⟨he', hown.symm, hhash.symm, hlive'⟩ (hnew d' e')
    | _ => exact h
  | delete hx =>
    cases hx with
    | erased => exact h.put fun _ _ _ hlive => absurd hlive (Nat.lt_irrefl 0)
    | _ => exact h
  | search => exact h

end Catalog

/-! ## Repeated uploads -/

/-- The request leaves the document `d`, which has the content of the upload, as it is, and the id
of the upload to its pair. -/
def Request.Spares (env : Env) (q : Request) (x : Upload) (d : String) : Prop :=
  match q with
  | .write (.upload y) =>
    (y.doc_id = d → y.pair = x.pair → incomingHash env y.body = incomingHash env x.body) ∧
      (y.doc_id = x.doc_id → y.pair = x.pair)
  | .write (.delete y) => y.doc_id = d → y.pair ≠ x.pair
  | .search _ => True

namespace Catalog
variable {env : Env} {c c' : Catalog} {x : Upload} {d : String} {e : Entry} {q : Request}
  {r : Except Exc Reply} {l : List (Request × Except Exc Reply)}

/-- The upload would find its content in the document. -/
structure Retains (c : Catalog) (env : Env) (x : Upload) (d : String) (e : Entry) : Prop where
  has : c.Has env x d e
  own : ∀ e, c.entries x.doc_id = some e → e.owner = x.pair
  pair : x.pair ∈ c.pairs
  unique : c.Unique

theorem Step.pairs (hs : c.Step env q r c') : c.pairs ⊆ c'.pairs := by
  cases hs with
  | upload hx =>
    cases hx with
    | refused | taken => exact subset_rfl
    | _ => exact Set.subset_insert _ _
  | delete hx => cases hx <;> exact subset_rfl
  | search => exact subset_rfl

theorem Step.has (h : c.Has env x d e) (hs : c.Step env q r c') (hq : q.Spares env x d) :
    c'.Has env x d e := by
  cases hs with
  | upload hy =>
    cases hy with
    | @indexed hadmits hnew =>
      refine h.congr (entries_put_of_ne fun hd => ?_)
      -- the upload would have found the content
      have hpair := (hadmits.owner e (hd ▸ h.entry)).symm.trans h.owner
      have hhash := hq.1 hd.symm hpair
      exact hnew d e ⟨h.entry, h.owner.trans hpair.symm, h.content_hash.trans hhash.symm, h.live⟩
    | _ => exact h.congr rfl
  | delete hy =>
    cases hy with
    | erased _ he hown =>
      refine h.congr (entries_put_of_ne fun hd => hq hd.symm ?_)
      subst hd
      cases h.entry.symm.trans he
      exact hown.symm.trans h.owner
    | _ => exact h
  | search => exact h

theorem Step.own (h : ∀ e, c.entries x.doc_id = some e → e.owner = x.pair)
    (hs : c.Step env q r c') (hq : q.Spares env x d) :
    ∀ e, c'.entries x.doc_id = some e → e.owner = x.pair := by
  intro e he
  cases hs with
  | @upload y _ _ hy =>
    cases hy with
    | indexed =>
      by_cases hd : x.doc_id = y.doc_id
      · rw [hd, entries_put_self] at he
        cases he
        exact hq.2 hd.symm
      · rw [entries_put_of_ne hd] at he
        exact h e he
    | _ => exact h e he
  | @delete y _ _ hy =>
    cases hy with
    | erased _ he' =>
      by_cases hd : x.doc_id = y.doc_id
      · rw [hd, entries_put_self] at he
        cases he
        rw [← hd] at he'
        exact (h _ he' :)
      · rw [entries_put_of_ne hd] at he
        exact h e he
    | _ => exact h e he
  | search => exact h e he

theorem Retains.step (h : c.Retains env x d e) (hs : c.Step env q r c')
    (hq : q.Spares env x d) : c'.Retains env x d e where
  has := hs.has h.has hq
  own := hs.own h.own hq
  pair := hs.pairs h.pair
  unique := hs.unique h.unique

theorem Retains.run (h : c.Retains env x d e) (hrun : Run env c l c')
    (hl : ∀ a ∈ l, a.1.Spares env x d) : c'.Retains env x d e := by
  induction hrun with
  | nil => exact h
  | cons hs _ ih =>
    exact ih (h.step hs (hl _ List.mem_cons_self)) fun a ha => hl a (List.mem_cons_of_mem _ ha)

theorem Run.unique (h : c.Unique) (hrun : Run env c l c') : c'.Unique := by
  induction hrun with
  | nil => exact h
  | cons hs _ ih => exact ih (hs.unique h)

/-- An upload that succeeds leaves its content where it says. -/
theorem Uploads.retains {a : UploadResult} (h : c.Unique) (hs : c.Uploads env x (.ok a) c') :
    (∃ k, advisoryLockKey env.sha256 x.tenant_id x.bot_id x.doc_id = .ok k) ∧
      ∃ e, c'.Retains env x a.doc_id e ∧
        a = ⟨a.doc_id, e.chunk_count, e.item_count, x.collection, a.status⟩ := by
  have hunique : c'.Unique := Step.unique h (.upload hs)
  cases hs with
  | same hx he =>
    exact ⟨hx.key, _, ⟨he.congr rfl, hx.owner, Set.mem_insert _ _, hunique⟩, rfl⟩
  | duplicate hx _ he =>
    exact ⟨hx.key, _, ⟨he.congr rfl, hx.owner, Set.mem_insert _ _, hunique⟩, rfl⟩
  | indexed hx _ hnone =>
    have hentry : ((c.enroll x.pair).put x.doc_id (c.written env x)).entries x.doc_id =
      some (c.written env x) := entries_put_self
    refine ⟨hx.key, c.written env x, ⟨⟨hentry, rfl, rfl, ?_⟩, fun e he => ?_, Set.mem_insert _ _,
      hunique⟩, rfl⟩
    · exact (Upload.length_of_refusal hnone).1
    · cases hentry.symm.trans he
      rfl

/-- Then it is answered with the document again, which stays as it is. -/
theorem Retains.uploads {rep : Except Exc UploadResult} (h : c.Retains env x d e)
    (hk : ∃ k, advisoryLockKey env.sha256 x.tenant_id x.bot_id x.doc_id = .ok k)
    (hs : c.Uploads env x rep c') :
    rep = .ok ⟨d, e.chunk_count, e.item_count, x.collection, .noChange⟩ ∧
      c'.entries = c.entries := by
  have hsame {d' : String} {e' : Entry} (he' : c.Has env x d' e') : d' = d ∧ e' = e := by
    obtain rfl := h.unique d' d e' e he'.entry h.has.entry he'.live h.has.live
      (he'.owner.trans h.has.owner.symm) (he'.content_hash.trans h.has.content_hash.symm)
    exact ⟨rfl, Option.some.inj (he'.entry.symm.trans h.has.entry)⟩
  cases hs with
  | refused he =>
    obtain ⟨k, hk⟩ := hk
    cases hk.symm.trans he
  | taken _ hname => exact absurd (.inl h.pair) hname
  | collides _ _ he hne => exact absurd (h.own _ he) hne
  | same _ he =>
    obtain ⟨hd, rfl⟩ := hsame he
    exact ⟨by rw [← hd], rfl⟩
  | duplicate _ _ he =>
    obtain ⟨rfl, rfl⟩ := hsame he
    exact ⟨rfl, rfl⟩
  | unusable _ hnew | indexed _ hnew => exact absurd h.has (hnew d e)

end Catalog

end QdrantRag
