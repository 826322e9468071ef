import QdrantRag.Verify.Identifiers
import QdrantRag.Verify.Orphans

/-! # Identities and their encodings

Points are told apart by the `uuid5` of their chunk ids, and documents are locked by eight bytes of
a digest. Chunk ids and the bytes that are digested are injective, so what is left to chance are
collisions of the two functions. -/

namespace QdrantRag
open Keyed Effect Effect.Prog

variable {env : Env} {i j : Nat} {w : Write} {s : World} {ev : Call} {φ φ' : Phase}
  {requests : Nat → Write} {log : List (Nat × Call)} {T B d T' B' d' : String}

/-! ## The bytes of a lock -/

/-- The bytes `advisory_lock_key` hashes. -/
def lockBytes (tenant_id bot_id doc_id : String) : List UInt8 :=
  utf8 (tenant_id ++ "|" ++ bot_id ++ "|" ++ doc_id)

/-- What precedes and what follows the first separator. -/
theorem append_cons_inj_left {α : Type} {sep : α} {xs ys xs' ys' : List α}
    (h : xs ++ sep :: ys = xs' ++ sep :: ys') (hx : sep ∉ xs) (hx' : sep ∉ xs') :
    xs = xs' ∧ ys = ys' := by
  have hrev : ys.reverse ++ sep :: xs.reverse = ys'.reverse ++ sep :: xs'.reverse := by
    simpa using congrArg List.reverse h
  obtain ⟨hys, hxs⟩ := append_cons_inj_right hrev (by simpa using hx) (by simpa using hx')
  exact ⟨List.reverse_inj.mp hxs, List.reverse_inj.mp hys⟩

/-- The bytes of a lock determine the pair and the document. -/
theorem lockBytes_inj (hT : slugMatch T = true) (hB : slugMatch B = true)
    (hT' : slugMatch T' = true) (hB' : slugMatch B' = true)
    (h : lockBytes T B d = lockBytes T' B' d') : T = T' ∧ B = B' ∧ d = d' := by
  have htext := congrArg String.toList (utf8_inj.mp h)
  have hbar : "|".toList = ['|'] := rfl
  simp only [String.toList_append, hbar, List.append_assoc, List.singleton_append] at htext
  -- the slugs end at the first two separators, whatever the document id contains
  obtain ⟨hT, hrest⟩ := append_cons_inj_left htext (notMem_slug rfl hT) (notMem_slug rfl hT')
  obtain ⟨hB, hd⟩ := append_cons_inj_left hrest (notMem_slug rfl hB) (notMem_slug rfl hB')
  exact ⟨String.toList_inj.mp hT, String.toList_inj.mp hB, String.toList_inj.mp hd⟩

/-! ## The integers of a key -/

theorem foldl_bytes_inj {l l' : List UInt8} {a a' : Nat} (hlen : l.length = l'.length)
    (h : l.foldl (fun acc b => acc * 256 + b.toNat) a =
      l'.foldl (fun acc b => acc * 256 + b.toNat) a') : a = a' ∧ l = l' := by
  induction l generalizing l' a a' with
  | nil =>
    obtain rfl := List.eq_nil_of_length_eq_zero hlen.symm
    exact ⟨h, rfl⟩
  | cons b l ih =>
    cases l' with
    | nil => cases hlen
    | cons b' l' =>
      obtain ⟨hacc, rfl⟩ := ih (Nat.succ.inj hlen) h
      have hb := b.toNat_lt
      have hb' := b'.toNat_lt
      simp only at hacc
      have hbyte : b.toNat = b'.toNat := by omega
      exact ⟨by omega, by rw [UInt8.toNat_inj.mp hbyte]⟩

theorem foldl_bytes_lt (l : List UInt8) (a : Nat) :
    l.foldl (fun acc b => acc * 256 + b.toNat) a < (a + 1) * 256 ^ l.length := by
  induction l generalizing a with
  | nil => simp
  | cons b l ih =>
    have hb := b.toNat_lt
    calc l.foldl (fun acc b => acc * 256 + b.toNat) (a * 256 + b.toNat)
        < (a * 256 + b.toNat + 1) * 256 ^ l.length := ih _
      _ ≤ ((a + 1) * 256) * 256 ^ l.length := Nat.mul_le_mul_right _ (by omega)
      _ = (a + 1) * 256 ^ (b :: l).length := by
        rw [List.length_cons, Nat.pow_succ, Nat.mul_assoc, Nat.mul_comm 256]

/-- Four bytes are read one to one. -/
theorem unpackInt32_inj {l l' : List UInt8} (hl : l.length = 4) (hl' : l'.length = 4)
    (h : unpackInt32 l = unpackInt32 l') : l = l' := by
  have hlt := foldl_bytes_lt l 0
  have hlt' := foldl_bytes_lt l' 0
  rw [hl] at hlt
  rw [hl'] at hlt'
  simp only [unpackInt32] at h
  have hlen : l.length = l'.length := hl.trans hl'.symm
  refine (@foldl_bytes_inj l l' 0 0 hlen ?_).2
  split at h <;> split at h <;> omega

/-- What of a digest goes into a key. -/
def Digest.leading (digest : Digest) : List UInt8 := digest.bytes.take 8

/-- The key made of a digest. -/
def Digest.lockKey (digest : Digest) : LockKey :=
  (unpackInt32 (digest.bytes.take 4), unpackInt32 ((digest.bytes.drop 4).take 4))

theorem Digest.leading_of_lockKey {digest digest' : Digest} (h : digest.lockKey = digest'.lockKey) :
    digest.leading = digest'.leading := by
  have hlen (digest : Digest) : (digest.bytes.take 4).length = 4 ∧
      ((digest.bytes.drop 4).take 4).length = 4 := by
    have := digest.length_eq
    constructor <;> simp <;> omega
  have hsplit (digest : Digest) :
      digest.leading = digest.bytes.take 4 ++ (digest.bytes.drop 4).take 4 := by
    rw [leading, ← List.take_add]
  obtain ⟨hfirst, hsecond⟩ := Prod.mk.inj h
  rw [hsplit, hsplit, unpackInt32_inj (hlen _).1 (hlen _).1 hfirst,
    unpackInt32_inj (hlen _).2 (hlen _).2 hsecond]

/-- The key of a document is made of the digest of its bytes. -/
theorem advisoryLockKey_of_valid (sha256 : List UInt8 → Digest) (hT : slugMatch T = true)
    (hB : slugMatch B = true) (hd : d ≠ "") :
    advisoryLockKey sha256 T B d = .ok (sha256 (lockBytes T B d)).lockKey := by
  simp only [advisoryLockKey, validateSlug, hT, hB, if_true, if_neg hd]
  rfl

/-- Documents with one key are the same, unless the leading bytes of their digests collide. -/
theorem document_of_key {sha256 : List UInt8 → Digest} {k : LockKey}
    (hsha : (sha256 (lockBytes T B d)).leading = (sha256 (lockBytes T' B' d')).leading →
      lockBytes T B d = lockBytes T' B' d')
    (h : advisoryLockKey sha256 T B d = .ok k) (h' : advisoryLockKey sha256 T' B' d' = .ok k) :
    T = T' ∧ B = B' ∧ d = d' := by
  obtain ⟨hT, hB, hd⟩ := advisoryLockKey_isOk.mp ⟨k, h⟩
  obtain ⟨hT', hB', hd'⟩ := advisoryLockKey_isOk.mp ⟨k, h'⟩
  apply lockBytes_inj hT hB hT' hB'
  apply hsha
  apply Digest.leading_of_lockKey
  apply Except.ok.inj
  calc Except.ok (sha256 (lockBytes T B d)).lockKey
      = advisoryLockKey sha256 T B d := (advisoryLockKey_of_valid sha256 hT hB hd).symm
    _ = advisoryLockKey sha256 T' B' d' := h.trans h'.symm
    _ = .ok (sha256 (lockBytes T' B' d')).lockKey := advisoryLockKey_of_valid sha256 hT' hB' hd'

/-! ## Interleaved requests -/

/-- Every stored point was made by a request, and every lock is held by a request of its key. -/
structure Identified (env : Env) (requests : Nat → Write) (s : World) : Prop where
  points : ∀ name, ∀ pt ∈ (s.points name).rows,
    ∃ i x, requests i = .upload x ∧ pt ∈ x.points env
  holders : ∀ k j, s.holder k = some j → (requests j).key env = .ok k

theorem Step.key_of_try {k : LockKey} {c : Fault}
    (h : Step env i w φ ⟨.tryAdvisoryLock k, c, s⟩ φ') : w.key env = .ok k := by
  cases h with
  | poll hk => exact hk
  | acquire hk => exact hk
  | quiet _ hq | register hq | collection _ _ hq => cases hq

theorem Step.points_of_upsert {name : String} {pts : List Point} {c : Fault}
    (h : Step env i w φ ⟨.upsert name pts, c, s⟩ φ') :
    ∃ x, w = .upload x ∧ pts = x.points env := by
  cases h with
  | upsert hw => exact ⟨_, hw, rfl⟩
  | upsertFails hw => exact ⟨_, hw, rfl⟩
  | quiet _ hq | register hq | collection _ _ hq => cases hq

/-- A lock that is held after a step was held before, unless it is the one the step asked for. -/
theorem Step.holder_cases (h : Step env i w φ ev φ') {k : LockKey}
    (hh : (ev.post (exec env i)).holder k = some j) :
    ev.pre.holder k = some j ∨ j = i ∧ w.key env = .ok k := by
  have hframe (hl : ev.op.isLock = false) : ev.pre.holder k = some j :=
    (holder_frame hl k).symm.trans hh
  cases h with
  | poll hk | acquire hk =>
    rcases holder_tryAdvisoryLock hh with hh | ⟨rfl, rfl, -⟩
    · exact .inl hh
    · exact .inr ⟨rfl, hk⟩
  | sleep => exact .inl hh
  | unlock => exact .inl (holder_unlocked hh).1
  | quiet _ hq | register hq | collection _ _ hq => exact .inl (hframe (isLock_of_quiet hq))
  | _ => exact .inl (hframe rfl)

theorem Identified.step (h : Identified env requests ev.pre)
    (hs : Step env i (requests i) φ ev φ') : Identified env requests (ev.post (exec env i)) where
  points name pt hpt := by
    have hchange : Change env (requests i) φ φ' ev.pre.stores (ev.post (exec env i)).stores :=
      hs.change
    have hpt : pt ∈ ((ev.post (exec env i)).stores.points name).rows := hpt
    generalize (ev.post (exec env i)).stores = v at hchange hpt
    cases hchange with
    | none | refresh | store | erase => exact h.points name pt hpt
    | clear => exact h.points name pt (Stores.mem_clear.mp hpt).1
    | @upsert x _ hw _ _ =>
      rcases Stores.mem_of_mem_upsert hpt with ⟨-, hnew⟩ | hold
      · exact ⟨i, x, hw, hnew⟩
      · exact h.points name pt hold
  holders k j hh := by
    rcases hs.holder_cases hh with hh | ⟨rfl, hk⟩
    · exact h.holders k j hh
    · exact hk

/-- The state is `Identified`, and every call made so far was a step of its request on such a
state. -/
def Stepwise (env : Env) (requests : Nat → Write) (log : List (Nat × Call)) (s : World)
    (_ : Nat → Phase) : Prop :=
  Identified env requests s ∧ ∀ e ∈ log,
    Identified env requests e.2.pre ∧ ∃ φ φ', Step env e.1 (requests e.1) φ e.2 φ'

theorem Stepwise.step {Φ : Nat → Phase} (h : Stepwise env requests log ev.pre Φ)
    (hs : Step env i (requests i) φ ev φ') :
    Stepwise env requests ((i, ev) :: log) (ev.post (exec env i)) (Function.update Φ i φ') := by
  refine ⟨h.1.step hs, fun e he => ?_⟩
  rcases List.mem_cons.mp he with rfl | he
  · exact ⟨h.1, _, _, hs⟩
  · exact h.2 e he

theorem stepwise_interleave (env : Env) (requests : Nat → Write) (sched : List (Nat × Fault)) :
    ∃ Φ, Stepwise env requests (interleave env requests sched).log
      (interleave env requests sched).state Φ := by
  have hempty : Identified env requests World.empty :=
    ⟨fun _ _ h => (by cases h), fun _ _ h => (by cases h)⟩
  obtain ⟨Φ, hholds⟩ := Pool.run_rule (fun h hs _ => Stepwise.step h hs)
    (@holds_start env requests _ ⟨hempty, fun _ h => (by cases h)⟩) sched
    (Obeys.trivial _)
  exact ⟨Φ, hholds.inv⟩

section Calls
variable {sched : List (Nat × Fault)} {c : Fault}

/-- Where `uuid5` does not collide on the chunk ids of the requests, an upsert leaves every stored
point of another chunk, and when it succeeds all of its own points are there. -/
theorem stored_of_upsert (hid : env.DistinctIds (Set.range requests)) {name : String}
    {pts : List Point}
    (h : (i, ⟨.upsert name pts, c, s⟩) ∈ (interleave env requests sched).log) {pt : Point} :
    (pt ∈ (s.points name).rows →
      (∀ pt' ∈ pts, pt'.payload.chunk_id ≠ pt.payload.chunk_id) →
      pt ∈ ((exec env i (.upsert name pts) c s).2.points name).rows) ∧
    (Event.ok (exec env i) ⟨.upsert name pts, c, s⟩ = true → pt ∈ pts →
      pt ∈ ((exec env i (.upsert name pts) c s).2.points name).rows) := by
  obtain ⟨Φ, -, hlog⟩ := stepwise_interleave env requests sched
  obtain ⟨hstate, φ, φ', hs⟩ := hlog _ h
  obtain ⟨x, hx, rfl⟩ := hs.points_of_upsert
  have hsent : .upload x ∈ Set.range requests := ⟨i, hx⟩
  refine ⟨fun hold hother => ?_, fun hok hnew => ?_⟩
  · cases happ : Call.applied env i ⟨.upsert name (x.points env), c, s⟩ with
    | false =>
      have hkept := congrArg (Stores.points · name) (stores_of_not_applied rfl rfl happ)
      exact (congrArg (pt ∈ Table.rows ·) hkept).mpr hold
    | true =>
      have hstores := congrArg (Stores.points · name) (stores_upsert happ)
      refine (congrArg (pt ∈ Table.rows ·) hstores).mpr ?_
      -- the point is none of the new ones, and has none of their ids
      apply (Stores.mem_upsert_of_notMem fun hpt => hother pt hpt rfl).mpr
      refine ⟨hold, fun pt' hpt' he => hother pt' hpt' ?_⟩
      obtain ⟨j, y, hy, hpt⟩ := hstate.points name pt hold
      exact (hid.chunk_id_eq ⟨j, hy⟩ hsent hpt hpt' he).symm
  · have hstores := congrArg (Stores.points · name) (stores_upsert (applied_of_ok rfl rfl hok))
    refine (congrArg (pt ∈ Table.rows ·) hstores).mpr ?_
    exact (Stores.mem_upsert (Upload.nodup_points hid hsent)).mpr (.inl ⟨rfl, hnew⟩)

/-- Where the leading bytes of SHA-256 do not collide on the locks of the requests, a request finds
its lock taken only by one for the same document. -/
theorem document_of_held
    (hsha : Set.InjOn (fun bytes => (env.sha256 bytes).leading)
      (Set.range fun i => lockBytes (requests i).tenant_id (requests i).bot_id (requests i).doc_id))
    {k : LockKey}
    (h : (i, ⟨.tryAdvisoryLock k, c, s⟩) ∈ (interleave env requests sched).log)
    (hheld : s.holder k = some j) :
    (requests j).tenant_id = (requests i).tenant_id ∧ (requests j).bot_id = (requests i).bot_id ∧
      (requests j).doc_id = (requests i).doc_id := by
  obtain ⟨Φ, -, hlog⟩ := stepwise_interleave env requests sched
  obtain ⟨hstate, φ, φ', hs⟩ := hlog _ h
  have hi := hs.key_of_try
  have hj := hstate.holders k j hheld
  exact document_of_key (hsha ⟨j, rfl⟩ ⟨i, rfl⟩) hj hi

end Calls

/-- **Identities are injective.** A chunk id determines its document, item and chunk, and the bytes
that a lock key is a digest of determine the pair and the document. So in every run, where `uuid5`
does not collide on the chunk ids of the requests, an upsert leaves the points of other chunks and
its own points stay apart, and where the leading bytes of SHA-256 do not collide on their locks, a
request finds its lock taken only by one for the same document. -/
theorem encodings_injective (env : Env) :
    (∀ d d' i i' c c', buildChunkId d i c = buildChunkId d' i' c' → d = d' ∧ i = i' ∧ c = c') ∧
    (∀ T B d, slugMatch T = true → slugMatch B = true → d ≠ "" →
      advisoryLockKey env.sha256 T B d = .ok (env.sha256 (lockBytes T B d)).lockKey ∧
      ∀ T' B' d', slugMatch T' = true → slugMatch B' = true → d' ≠ "" →
        lockBytes T B d = lockBytes T' B' d' → T = T' ∧ B = B' ∧ d = d') ∧
    (∀ requests sched, env.DistinctIds (Set.range requests) →
      ∀ i name pts c s, (i, ⟨.upsert name pts, c, s⟩) ∈ (interleave env requests sched).log →
        let s' := (exec env i (.upsert name pts) c s).2
        (∀ pt ∈ (s.points name).rows,
          (∀ pt' ∈ pts, pt'.payload.chunk_id ≠ pt.payload.chunk_id) → pt ∈ (s'.points name).rows) ∧
        (Event.ok (exec env i) ⟨.upsert name pts, c, s⟩ = true →
          ∀ pt ∈ pts, pt ∈ (s'.points name).rows)) ∧
    (∀ (requests : Nat → Write) sched,
      Set.InjOn (fun bytes => (env.sha256 bytes).leading) (Set.range fun i =>
        lockBytes (requests i).tenant_id (requests i).bot_id (requests i).doc_id) →
      ∀ i k c s, (i, ⟨.tryAdvisoryLock k, c, s⟩) ∈ (interleave env requests sched).log →
        ∀ j, s.holder k = some j →
          (requests j).tenant_id = (requests i).tenant_id ∧
          (requests j).bot_id = (requests i).bot_id ∧
          (requests j).doc_id = (requests i).doc_id) := by
  refine ⟨fun d d' i i' c c' h => buildChunkId_inj h, fun T B d hT hB hd => ⟨?_, ?_⟩, ?_, ?_⟩
  · exact advisoryLockKey_of_valid env.sha256 hT hB hd
  · intro T' B' d' hT' hB' _ h
    exact lockBytes_inj hT hB hT' hB' h
  · intro requests sched hid i name pts c s h
    refine ⟨fun pt hold hother => ?_, fun hok pt hnew => ?_⟩
    · exact (stored_of_upsert hid h).1 hold hother
    · exact (stored_of_upsert hid h).2 hok hnew
  · intro requests sched hsha i k c s h j hheld
    exact document_of_held hsha h hheld

/-- The same text, uploaded as two documents of `acme`. -/
def Sample.sameText (n : Nat) : Write :=
  .upload (Sample.two (Sample.upload Sample.acme Sample.docA "h1" ["Hello"])
    (Sample.upload Sample.acme Sample.docB "h2" ["Hello"]) n)

theorem encodings_injective_twoDocuments :
    (Sample.sameText 0).doc_id ≠ (Sample.sameText 1).doc_id ∧
    ∀ sched k c s, (1, ⟨.tryAdvisoryLock k, c, s⟩) ∈
      (interleave Sample.env Sample.sameText sched).log → s.holder k ≠ some 0 := by
  have hne : (Sample.sameText 0).doc_id ≠ (Sample.sameText 1).doc_id := by decide
  refine ⟨hne, fun sched k c s h hheld => ?_⟩
  obtain ⟨-, -, -, hlocks⟩ := encodings_injective Sample.env
  refine hne (hlocks Sample.sameText sched ?_ 1 k c s h 0 hheld).2.2
  have hapart : (Sample.env.sha256 (lockBytes "acme" "support" Sample.docA)).leading ≠
      (Sample.env.sha256 (lockBytes "acme" "support" Sample.docB)).leading := by decide +kernel
  rintro _ ⟨m, rfl⟩ _ ⟨n, rfl⟩ heq
  rcases m with _ | m <;> rcases n with _ | n
  · rfl
  · exact absurd heq hapart
  · exact absurd heq.symm hapart
  · rfl

end QdrantRag
