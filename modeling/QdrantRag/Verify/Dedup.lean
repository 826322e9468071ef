import QdrantRag.Verify.Changes
import QdrantRag.Verify.Sample
import QdrantRag.Verify.Simulation

/-! # One document for each content

Uploads of one bot look for their content before they index it, and save their row much later, each
under the lock of its own document. As long as no upload looks for a content while another document
of the bot is between its own lookup and its save (`Unrivalled`), a content is indexed once
(`one_row_per_content`). -/

namespace QdrantRag
open Keyed Effect

variable {env : Env} {i j : Nat} {w : Write} {x y : Upload} {s : World} {ev : Call} {φ φ' : Phase}
  {v v' : Stores} {d : String}

/-- What a content match looks for, and the document it leaves out. -/
structure Lookup where
  pair : String × String
  content_hash : String
  doc_id : String
  deriving DecidableEq

def Upload.lookup (env : Env) (x : Upload) : Lookup :=
  ⟨(x.tenant_id, x.bot_id), incomingHash env x.body, x.doc_id⟩

/-! ## The guard -/

/-- The call is a content match that finds no row. -/
def Call.missed (ev : Call) : Option Lookup :=
  match ev.op with
  | .documentMatch T B h d =>
    if (contentMatches ev.pre T B h d).isEmpty then some ⟨(T, B), h, d⟩ else none
  | _ => none

/-- The content matches that found no row, of requests whose row is not saved yet. -/
def lookups (env : Env) : List (Nat × Call) → List (Nat × Lookup) :=
  underway (fun _ => Call.missed) (Call.ends env)

/-- No content match is made while another document of the bot is to be saved with the content. -/
def Unrivalled (env : Env) (log : List (Nat × Call)) (_ : Nat) (ev : Call) : Prop :=
  match ev.op with
  | .documentMatch T B h d =>
    ∀ e ∈ lookups env log, e.2.pair = (T, B) → e.2.content_hash = h → e.2.doc_id = d
  | _ => True

instance (log : List (Nat × Call)) : Decidable (Unrivalled env log i ev) := by
  unfold Unrivalled
  split <;> infer_instance

/-! ## Rows that serve a content -/

/-- The row is active and indexed for the pair, with the content. -/
structure Document.Serves (row : Document) (pair : String × String) (content_hash : String) :
    Prop where
  owner : row.owner = pair
  content_hash : row.content_hash = content_hash
  active : row.status = .active
  indexed : 0 < row.chunk_count

/-- A row that serves a content after a change did so before, or is the one an upload saved. -/
theorem Change.serves (hc : Change env w φ φ' v v') {row : Document} {pair : String × String}
    {h : String} (hrow : v'.row d = some row) (hs : row.Serves pair h) :
    (∃ row, v.row d = some row ∧ row.Serves pair h) ∨
      ∃ x ex, w = .upload x ∧ φ = .holding (.upserted ex) ∧ d = x.doc_id ∧
        pair = (x.tenant_id, x.bot_id) ∧ h = incomingHash env x.body := by
  cases hc with
  | none | clear | upsert => exact .inl ⟨row, hrow, hs⟩
  | refresh =>
    rw [Stores.row_refresh, Option.map_eq_some_iff] at hrow
    obtain ⟨r, hr, rfl⟩ := hrow
    refine .inl ⟨r, hr, ?_⟩
    split at hs
    · exact ⟨hs.owner, hs.content_hash, hs.active, hs.indexed⟩
    · exact hs
  | @store x bot ex hw hbot he _ =>
    subst hw
    by_cases hd : d = x.doc_id
    · subst hd
      obtain ⟨t, ht⟩ := v.row_store x.doc_id (uploadDefaults env x bot (x.points env).length) x.now
      cases hrow.symm.trans ht
      exact .inr ⟨x, ex, rfl, he, rfl, hs.owner.symm, hs.content_hash.symm⟩
    · exact .inl ⟨row, (Stores.row_store_of_ne hd).symm.trans hrow, hs⟩
  | erase =>
    rw [Stores.row_erase, Option.map_eq_some_iff] at hrow
    obtain ⟨r, hr, rfl⟩ := hrow
    refine .inl ⟨r, hr, ?_⟩
    split at hs
    · cases hs.active
    · exact hs

/-! ## Uploads past their lookup -/

/-- The upload has looked for its content and not saved its row. -/
def Stage.looked : Stage → Bool
  | .unmatched _ | .indexing _ | .clearing _ | .cleared _ | .upserted _ => true
  | _ => false

def Phase.Looked : Phase → Prop
  | .holding st => st.looked = true
  | _ => False

theorem Stage.Clears.looked {st : Stage} {row : Document} (h : st.Clears (.upload x) row) :
    st.looked = true := by
  cases h <;> rfl

theorem Stage.Upserts.looked {st : Stage} {ex : Option Document} (h : st.Upserts ex) :
    st.looked = true := by
  cases h <;> rfl

/-- An upload past its lookup was so before, or has just looked in vain. -/
theorem Step.looked (h : Step env i (.upload x) φ ev φ') (hl : φ'.Looked) :
    (φ.Looked ∧ Call.ends env i ev = false) ∨
      (contentMatches ev.pre x.tenant_id x.bot_id (incomingHash env x.body) x.doc_id = [] ∧
        ev.op = .documentMatch x.tenant_id x.bot_id (incomingHash env x.body) x.doc_id) := by
  cases h with
  | quiet _ hq => exact .inl ⟨hl, ends_of_quiet hq⟩
  | unmatched hw hno =>
    cases hw
    exact .inr ⟨hno, rfl⟩
  | collection _ hst hq =>
    refine .inl ⟨?_, ends_of_quiet hq⟩
    rcases hst with rfl | rfl <;> rfl
  | absent hst | clear hst | clearFails hst => exact .inl ⟨hst.looked, rfl⟩
  | upsert _ hst => exact .inl ⟨hst.looked, rfl⟩
  | poll | acquire | sleep | register | find | same | own | matched | refresh | refreshFails
  | upsertFails | store | storeFails | erase | eraseFails | unlock => cases hl

/-! ## All requests -/

variable {requests : Nat → Write} {log : List (Nat × Call)} {Φ : Nat → Phase}

/-- A content is served by one row, and by none but its own where an upload has looked in vain. -/
structure Deduped (env : Env) (requests : Nat → Write) (log : List (Nat × Call)) (s : World)
    (Φ : Nat → Phase) : Prop where
  rows : ∀ d d' row row' pair h, s.row d = some row → s.row d' = some row' →
    row.Serves pair h → row'.Serves pair h → d = d'
  listed : ∀ i x, requests i = .upload x → (Φ i).Looked → (i, x.lookup env) ∈ lookups env log
  fresh : ∀ i x, requests i = .upload x → (Φ i).Looked → ∀ d row, s.row d = some row →
    row.Serves (x.tenant_id, x.bot_id) (incomingHash env x.body) → d = x.doc_id
  apart : ∀ i j x y, requests i = .upload x → requests j = .upload y → (Φ i).Looked →
    (Φ j).Looked → (x.lookup env).pair = (y.lookup env).pair →
    (x.lookup env).content_hash = (y.lookup env).content_hash → x.doc_id = y.doc_id

/-- What a step of request `i` makes of the phases past their lookup. -/
theorem looked_update (hs : Step env i (requests i) (Φ i) ev φ') (hj : requests j = .upload y)
    (hl : (Function.update Φ i φ' j).Looked) :
    ((Φ j).Looked ∧ (j = i → Call.ends env i ev = false)) ∨ j = i ∧
      contentMatches ev.pre y.tenant_id y.bot_id (incomingHash env y.body) y.doc_id = [] ∧
      ev.op = .documentMatch y.tenant_id y.bot_id (incomingHash env y.body) y.doc_id := by
  by_cases hji : j = i
  · subst hji
    rw [Function.update_self] at hl
    rw [hj] at hs
    exact (hs.looked hl).imp (fun h => ⟨h.1, fun _ => h.2⟩) fun h => ⟨rfl, h⟩
  · rw [Function.update_of_ne hji] at hl
    exact .inl ⟨hl, fun h => absurd h hji⟩

theorem Deduped.step (h : Deduped env requests log ev.pre Φ)
    (hs : Step env i (requests i) (Φ i) ev φ') (hg : Unrivalled env log i ev) :
    Deduped env requests ((i, ev) :: log) (ev.post (exec env i)) (Function.update Φ i φ') := by
  have hguard {x : Upload}
      (hop : ev.op = .documentMatch x.tenant_id x.bot_id (incomingHash env x.body) x.doc_id) :
      ∀ e ∈ lookups env log, e.2.pair = (x.lookup env).pair →
        e.2.content_hash = (x.lookup env).content_hash → e.2.doc_id = x.doc_id := by
    unfold Unrivalled at hg
    rw [hop] at hg
    exact hg
  refine ⟨?_, fun j y hj hl => ?_, fun j y hj hl d row hrow hserves => ?_, ?_⟩
  · intro d d' row row' pair hash hrow hrow' hserves hserves'
    rcases hs.change.serves hrow hserves with ⟨r, hr, hs₁⟩ | ⟨x, ex, hw, hφ, rfl, rfl, rfl⟩ <;>
      rcases hs.change.serves hrow' hserves' with ⟨r', hr', hs₂⟩ | ⟨x', ex', hw', hφ', rfl, hp, hh⟩
    · exact h.rows _ _ _ _ _ _ hr hr' hs₁ hs₂
    · subst hp hh
      exact h.fresh i x' hw' (hφ' ▸ rfl) d r hr hs₁
    · exact (h.fresh i x hw (hφ ▸ rfl) d' r' hr' hs₂).symm
    · rw [hw] at hw'
      cases hw'
      rfl
  · rcases looked_update hs hj hl with ⟨hl, hend⟩ | ⟨rfl, hno, hop⟩
    · exact mem_underway_cons (h.listed j y hj hl) hend
    · refine mem_underway_of_opens ?_
      simp only [Call.missed, hop, hno]
      rfl
  · rcases looked_update hs hj hl with ⟨hl, -⟩ | ⟨rfl, hno, hop⟩
    · rcases hs.change.serves hrow hserves with ⟨r, hr, hs₁⟩ | ⟨x, ex, hw, hφ, rfl, hp, hh⟩
      · exact h.fresh j y hj hl d r hr hs₁
      · exact h.apart i j x y hw hj (hφ ▸ rfl) hl hp.symm hh.symm
    · -- the lookup found no such row, and writes none
      by_contra hne
      have hsame : ev.pre.Same (ev.post (exec env j)) := quiet_frame (by rw [hop]; rfl)
      rw [← Stores.row_stores, hsame.stores] at hrow
      obtain ⟨hmem, hd⟩ := Stores.row_eq_some.mp hrow
      have : row ∈ contentMatches ev.pre y.tenant_id y.bot_id (incomingHash env y.body) y.doc_id :=
        mem_contentMatches.mpr ⟨hmem, hserves.owner, hserves.content_hash, hserves.active,
          hserves.indexed, hd ▸ hne⟩
      rw [hno] at this
      cases this
  · intro j j' y y' hj hj' hl hl' hp hh
    rcases looked_update hs hj hl with ⟨h₁, -⟩ | ⟨he, -, hop⟩ <;>
      rcases looked_update hs hj' hl' with ⟨h₂, -⟩ | ⟨he', -, hop'⟩
    · exact h.apart j j' y y' hj hj' h₁ h₂ hp hh
    · exact hguard hop' _ (h.listed j y hj h₁) hp hh
    · exact (hguard hop _ (h.listed j' y' hj' h₂) hp.symm hh.symm).symm
    · rw [he, ← he', hj'] at hj
      cases hj
      rfl

theorem Deduped.start : Deduped env requests [] World.empty fun _ => .waiting where
  rows _ _ _ _ _ _ h := nomatch h
  listed _ _ _ h := h.elim
  fresh _ _ _ h := h.elim
  apart _ _ _ _ _ _ h := h.elim

/-- **One document for each content.** In an interleaved run in which no upload looks for a content
while another document of its bot is between its own lookup and its save, a bot has at most one
active, indexed row for a content at every moment. -/
theorem one_row_per_content (env : Env) (requests : Nat → Write) (sched : List (Nat × Fault))
    (hguard : Obeys (Unrivalled env) (interleave env requests sched).log) :
    ∀ row ∈ (interleave env requests sched).state.documents.rows,
    ∀ row' ∈ (interleave env requests sched).state.documents.rows,
      row.owner = row'.owner → row.content_hash = row'.content_hash →
      row.status = .active → row'.status = .active → 0 < row.chunk_count → 0 < row'.chunk_count →
      row = row' := by
  intro row hrow row' hrow' hown hhash hact hact' hcc hcc'
  obtain ⟨Φ, hholds⟩ := Pool.run_rule (fun h hs hg => Deduped.step h hs hg)
    (holds_start Deduped.start) sched hguard
  refine Table.eq_of_key _ hrow hrow' ?_
  exact hholds.inv.rows _ _ row row' _ _ (Table.find?_of_mem hrow) (Table.find?_of_mem hrow')
    ⟨rfl, rfl, hact, hcc⟩ ⟨hown.symm, hhash.symm, hact', hcc'⟩

/-- Two documents of a bot with one content. -/
def Sample.oneContent (i : Nat) : Write :=
  .upload (two (upload acme docA "h1" ["Hello"]) (upload acme docB "h1" ["Hello"]) i)

theorem one_row_per_content_inTurn :
    ((interleave Sample.env Sample.oneContent Sample.inTurn).state.documents.rows.map
      Document.doc_id) = [Sample.docA] ∧
    ∀ row ∈ (interleave Sample.env Sample.oneContent Sample.inTurn).state.documents.rows,
    ∀ row' ∈ (interleave Sample.env Sample.oneContent Sample.inTurn).state.documents.rows,
      row.owner = row'.owner → row.content_hash = row'.content_hash →
      row.status = .active → row'.status = .active → 0 < row.chunk_count → 0 < row'.chunk_count →
      row = row' :=
  ⟨by decide +kernel, one_row_per_content _ _ _ (by decide +kernel)⟩

/-- The second upload looks for its content before the first has saved its row. -/
theorem content_indexed_twice :
    ∃ row ∈ (interleave Sample.env Sample.oneContent Sample.overlapping).state.documents.rows,
    ∃ row' ∈ (interleave Sample.env Sample.oneContent Sample.overlapping).state.documents.rows,
      row.owner = row'.owner ∧ row.content_hash = row'.content_hash ∧ row.status = .active ∧
      row'.status = .active ∧ 0 < row.chunk_count ∧ 0 < row'.chunk_count ∧
      row.doc_id ≠ row'.doc_id := by
  decide +kernel

end QdrantRag
