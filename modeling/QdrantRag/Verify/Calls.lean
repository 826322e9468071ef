import QdrantRag.Verify.Stores

/-! # What a call does to the stores

One lemma for each kind of call: those that write neither rows, points nor locks (`Op.quiet`)
change none of them (`quiet_frame`), a write is an operation of the abstract stores where it took
effect (`Call.applied`) and nothing else where it did not, and a lock call changes nothing but
locks. -/

namespace QdrantRag
open Keyed Effect

variable {env : Env} {i : Nat} {o : Op} {c : Fault} {s : World}

/-! ## Reading the state -/

namespace World

theorem points_of_find? {n : String} {col : Collection} (h : s.collections.find? n = some col) :
    s.points n = col.points := by
  simp [points, h]

/-- The collection exists. -/
def HasCollection (s : World) (n : String) : Prop := (s.collections.find? n).isSome

theorem hasCollection_iff {n : String} :
    s.HasCollection n ↔ ∃ col, s.collections.find? n = some col := Option.isSome_iff_exists

theorem points_of_not_hasCollection {n : String} (h : ¬ s.HasCollection n) :
    s.points n = .empty := by
  have hn : s.collections.find? n = none := by simpa [HasCollection] using h
  simp [points, hn]

section Modify
variable {n m : String} {f : Collection → Collection} {hf : ∀ col, (f col).name = col.name}

theorem find?_modifyCollection : (s.modifyCollection n f hf).collections.find? m =
    (s.collections.find? m).map fun col => if col.name = n then f col else col :=
  Table.find?_modify f hf

theorem hasCollection_modifyCollection :
    (s.modifyCollection n f hf).HasCollection m ↔ s.HasCollection m := by
  simp only [HasCollection, find?_modifyCollection, Option.isSome_map]

theorem points_modifyCollection_of_ne (hm : m ≠ n) :
    (s.modifyCollection n f hf).points m = s.points m := by
  unfold points
  rw [find?_modifyCollection]
  cases h : s.collections.find? m with
  | none => rfl
  | some col =>
    have : col.name ≠ n := by rw [show col.name = m from Table.key_of_find? h]; exact hm
    simp [this]

theorem points_modifyCollection_self {col : Collection} (h : s.collections.find? n = some col) :
    (s.modifyCollection n f hf).points n = (f col).points := by
  refine points_of_find? ?_
  rw [find?_modifyCollection, h]
  simp [show col.name = n from Table.key_of_find? h]

end Modify

end World

/-! ## Calls that write nothing -/

/-- The call writes no document row, point or lock. -/
def Op.quiet : Op → Bool
  | .tryAdvisoryLock _ | .advisoryUnlock _ | .documentSave .. | .documentUpdateOrCreate ..
  | .deletePoints .. | .upsert .. => false
  | _ => true

/-- The call writes points. -/
def Op.writesPoints : Op → Bool
  | .deletePoints .. | .upsert .. => true
  | _ => false

/-- The call writes document rows. -/
def Op.writesRow : Op → Bool
  | .documentSave .. | .documentUpdateOrCreate .. => true
  | _ => false

def Op.seeks : Op → Bool
  | .collectionExists _ => true
  | _ => false

def Op.loads : Op → Bool
  | .loadTokenizer => true
  | _ => false

def Op.embeds : Op → Bool
  | .encode _ => true
  | _ => false

def Op.unlocks : Op → Bool
  | .advisoryUnlock _ => true
  | _ => false

/-- The rows, points and locks are the same. -/
structure World.Same (s s' : World) : Prop where
  stores : s'.stores = s.stores
  locks : s'.locks = s.locks

theorem World.Same.refl (s : World) : s.Same s := ⟨rfl, rfl⟩

/-- No bot row and no collection is gone. -/
structure World.Grows (s s' : World) : Prop where
  bots : ∀ b ∈ s.bots.rows, b ∈ s'.bots.rows
  collections : ∀ n, s.HasCollection n → s'.HasCollection n

theorem World.Grows.refl (s : World) : s.Grows s := ⟨fun _ => id, fun _ => id⟩

theorem isLock_of_quiet (h : o.quiet = true) : o.isLock = false := by
  cases o with
  | tryAdvisoryLock | advisoryUnlock => cases h
  | _ => rfl

/-- A call served changes bots and collections by adding some. -/
theorem serve_grows {a : Ans o} {s' : World} (h : serve env i o s = .ok (a, s')) : s.Grows s' := by
  cases o with
  | tryAdvisoryLock k =>
    simp only [serve] at h
    split at h <;> cases h <;> exact ⟨fun _ => id, fun _ => id⟩
  | tenantGetOrCreate T name =>
    simp only [serve] at h
    split at h <;> cases h <;> exact ⟨fun _ => id, fun _ => id⟩
  | botGetOrCreate T B name =>
    simp only [serve] at h
    split at h
    · cases h; exact .refl s
    · next hnone =>
      split at h
      · cases h
      · next b hb =>
        split at h
        · cases h
        · cases h
          refine ⟨fun x hx => Table.mem_put.mpr (.inr ⟨hx, fun he => ?_⟩), fun _ => id⟩
          exact Table.find?_eq_none.mp hnone x hx (he.trans (Bot.pair_of_save hb))
  | documentUpdateOrCreate d f now =>
    simp only [serve] at h
    split at h
    · cases h
    · split at h <;> cases h <;> exact ⟨fun _ => id, fun _ => id⟩
  | createCollection n params =>
    simp only [serve] at h
    split at h
    · cases h
    · cases h
      refine ⟨fun _ => id, fun m hm => ?_⟩
      obtain ⟨col, hcol⟩ := World.hasCollection_iff.mp hm
      by_cases hmn : n = m
      · subst hmn
        simp_all
      · refine World.hasCollection_iff.mpr ⟨col, ?_⟩
        exact (Table.find?_put_of_ne hmn).trans hcol
  | createPayloadIndex | deletePoints | upsert =>
    simp only [serve] at h
    split at h
    · cases h
    · cases h
      exact ⟨fun _ => id, fun _ => World.hasCollection_modifyCollection.mpr⟩
  | tenantGet | botGet | documentSave | getCollection | count | queryPoints =>
    simp only [serve] at h
    split at h <;> cases h
    exact ⟨fun _ => id, fun _ => id⟩
  | _ => cases h; exact ⟨fun _ => id, fun _ => id⟩

/-- A quiet call that is served leaves rows, points and locks as they are. -/
theorem serve_quiet (hq : o.quiet = true) {a : Ans o} {s' : World}
    (h : serve env i o s = .ok (a, s')) : s.Same s' := by
  cases o with
  | tryAdvisoryLock | advisoryUnlock | documentSave | documentUpdateOrCreate | deletePoints
  | upsert => cases hq
  | tenantGetOrCreate =>
    simp only [serve] at h
    split at h <;> cases h <;> exact ⟨rfl, rfl⟩
  | botGetOrCreate T B name =>
    simp only [serve] at h
    split at h
    · cases h; exact .refl s
    · split at h
      · cases h
      · split at h <;> cases h
        exact ⟨rfl, rfl⟩
  | createCollection n params =>
    simp only [serve] at h
    split at h
    · cases h
    · next hnone =>
      cases h
      refine ⟨Stores.ext rfl (funext fun m => ?_), rfl⟩
      by_cases hmn : n = m
      · subst hmn
        refine (World.points_of_find? (Table.find?_put_self
          (r := (⟨n, params, [], .empty⟩ : Collection)))).trans ?_
        exact (World.points_of_not_hasCollection (by simp [World.HasCollection, hnone])).symm
      · simp only [World.stores, World.points]
        rw [Table.find?_put_of_ne hmn]
  | createPayloadIndex n field schema =>
    simp only [serve] at h
    split at h
    · cases h
    · next col hcol =>
      cases h
      refine ⟨Stores.ext rfl (funext fun m => ?_), rfl⟩
      by_cases hm : m = n
      · subst hm
        exact (World.points_modifyCollection_self hcol).trans (World.points_of_find? hcol).symm
      · exact World.points_modifyCollection_of_ne hm
  | tenantGet | botGet | getCollection | count | queryPoints =>
    simp only [serve] at h
    split at h <;> cases h
    exact .refl s
  | _ => cases h; exact .refl s

/-! ## Calls as they are executed -/

/-- The call took effect, whatever its caller saw. -/
def Call.applied (env : Env) (i : Nat) (ev : Call) : Bool :=
  match ev.choice with
  | .before _ => false
  | _ => (serve env i ev.op ev.pre).isOk

/-- The call wrote points. -/
def Call.wrotePoints (env : Env) (i : Nat) (ev : Call) : Bool :=
  ev.op.writesPoints && Call.applied env i ev

/-- The call wrote a document row. -/
def Call.wroteRow (env : Env) (i : Nat) (ev : Call) : Bool :=
  ev.op.writesRow && Call.applied env i ev

/-- A call of a server other than for a lock took no effect and failed, or was served, its caller
seeing the answer or a failure. -/
theorem exec_cases (env : Env) (i : Nat) (c : Fault) (s : World) (hl : o.isLock = false)
    (hs : o.isLocal = false) :
    (Call.applied env i ⟨o, c, s⟩ = false ∧ ∃ e, exec env i o c s = (.error e, s)) ∨
    (Call.applied env i ⟨o, c, s⟩ = true ∧ ∃ a s', serve env i o s = .ok (a, s') ∧
      (exec env i o c s = (.ok a, s') ∨ ∃ e, exec env i o c s = (.error e, s'))) := by
  unfold exec Call.applied
  rw [hl, hs]
  simp only [Bool.false_eq_true, if_false]
  cases h : serve env i o s with
  | error e =>
    refine .inl ⟨?_, ?_⟩
    · cases c <;> rfl
    · cases c <;> exact ⟨_, rfl⟩
  | ok r =>
    obtain ⟨a, s'⟩ := r
    cases c with
    | none => exact .inr ⟨rfl, a, s', rfl, .inl rfl⟩
    | before e => exact .inl ⟨rfl, e, rfl⟩
    | after e => exact .inr ⟨rfl, a, s', rfl, .inr ⟨e, rfl⟩⟩

/-- A call leaves the state as it was, or frees the locks of its session, or does what it does when
it is served. -/
theorem exec_state (env : Env) (i : Nat) (o : Op) (c : Fault) (s : World) :
    (exec env i o c s).2 = s ∨ (exec env i o c s).2 = s.endSession i ∨
      ∃ a, serve env i o s = .ok (a, (exec env i o c s).2) := by
  unfold exec
  cases h : serve env i o s with
  | error e =>
    split
    · cases c
      · exact .inl rfl
      · exact .inr (.inl rfl)
      · exact .inr (.inl rfl)
    · split
      · exact .inl rfl
      · cases c <;> exact .inl rfl
  | ok r =>
    obtain ⟨a, s'⟩ := r
    split
    · cases c
      · exact .inr (.inr ⟨a, rfl⟩)
      · exact .inr (.inl rfl)
      · exact .inr (.inl rfl)
    · split
      · exact .inr (.inr ⟨a, rfl⟩)
      · cases c
        · exact .inr (.inr ⟨a, rfl⟩)
        · exact .inl rfl
        · exact .inr (.inr ⟨a, rfl⟩)

theorem exec_sleep {t : Rat} : exec env i (.sleep t) c s = (.ok (), s) := rfl

/-- A quiet call leaves rows, points and locks as they are. -/
theorem quiet_frame (hq : o.quiet = true) : s.Same (exec env i o c s).2 := by
  by_cases hs : o.isLocal = true
  · cases o with
    | sleep => exact .refl s
    | _ => cases hs
  · rcases exec_cases env i c s (isLock_of_quiet hq) (by simpa using hs)
      with ⟨_, e, h⟩ | ⟨_, a, s', hserve, h | ⟨e, h⟩⟩
    · rw [h]; exact .refl s
    · rw [h]; exact serve_quiet hq hserve
    · rw [h]; exact serve_quiet hq hserve

/-- Every call only adds bots and collections. -/
theorem exec_grows : s.Grows (exec env i o c s).2 := by
  by_cases hl : o.isLock = true
  · unfold exec
    rw [hl]
    simp only [if_true]
    split
    · next h => exact serve_grows h
    · exact .refl s
    · exact ⟨fun _ => id, fun _ => id⟩
    · exact ⟨fun _ => id, fun _ => id⟩
  · by_cases hs : o.isLocal = true
    · cases o with
      | sleep => exact .refl s
      | _ => cases hs
    · rcases exec_cases env i c s (by simpa using hl)
        (by simpa using hs) with ⟨_, e, h⟩ | ⟨_, a, s', hserve, h | ⟨e, h⟩⟩
      · rw [h]; exact .refl s
      · rw [h]; exact serve_grows hserve
      · rw [h]; exact serve_grows hserve

end QdrantRag
