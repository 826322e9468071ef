import QdrantRag.Verify.Changes

/-! # Agreement of rows and points

`Settled v d` says that the row of the document `d` and its points agree: an active row counts
its points, which carry its pair and its content hash, and without an active row there are none.
Writing a document goes from there to no points at all (`Cleared`), to the points of the upload
(`Filled`) and back to `Settled`; the changes of other documents keep each of the three
(`Change.frame`), as point ids do not collide. -/

namespace QdrantRag
open Keyed

variable {env : Env} {W : Set Write} {w : Write} {x : Upload} {φ φ' : Phase} {v v' : Stores}
  {d n : String} {pts : List Point}

/-- The points of a document in a collection. -/
def Stores.docPoints (v : Stores) (n d : String) : List Point :=
  (v.points n).rows.filter (·.payload.doc_id = d)

theorem mem_docPoints {pt : Point} :
    pt ∈ v.docPoints n d ↔ pt ∈ (v.points n).rows ∧ pt.payload.doc_id = d := by
  simp [Stores.docPoints]

theorem nodup_docPoints (v : Stores) (n d : String) : (v.docPoints n d).Nodup :=
  (v.points n).rows_nodup.filter _

/-! ## Point ids -/

/-- Every point is one of an upload among the requests `W`. -/
def Named (env : Env) (W : Set Write) (v : Stores) : Prop :=
  ∀ m, ∀ pt ∈ (v.points m).rows, ∃ x, .upload x ∈ W ∧ pt ∈ x.points env

theorem Named.change (h : Named env W v) (hw : w ∈ W) (hc : Change env w φ φ' v v') :
    Named env W v' := by
  intro m pt hpt
  cases hc with
  | none | refresh | store | erase => exact h m pt hpt
  | clear => exact h m pt (Stores.mem_clear.mp hpt).1
  | upsert hx =>
    rcases Stores.mem_of_mem_upsert hpt with ⟨_, hnew⟩ | hpt
    · exact ⟨_, hx ▸ hw, hnew⟩
    · exact h m pt hpt

/-- Points of different documents have different ids. -/
theorem Named.id_ne (henv : env.DistinctIds W) (h : Named env W v) (hx : .upload x ∈ W)
    {m : String} {pt q : Point} (hpt : pt ∈ (v.points m).rows) (hq : q ∈ x.points env)
    (hd : pt.payload.doc_id ≠ x.doc_id) : pt.id ≠ q.id := by
  obtain ⟨y, hy, hmem⟩ := h m pt hpt
  intro he
  exact hd ((henv.doc_id_eq hy hx hmem hq he).trans (Upload.owner_of_mem hq).2.1)

/-! ## The three situations of a document -/

/-- The collection of the pair that owns the row. -/
def Document.collection (row : Document) : String := joinName row.tenant_id row.bot_id

theorem collection_of_owner {row : Document} (h : row.owner = w.pair) :
    row.collection = w.collection := by
  obtain ⟨hT, hB⟩ := Prod.mk.inj h
  rw [Document.collection, hT, hB]
  rfl

/-- Row and points agree. -/
structure Settled (v : Stores) (d : String) : Prop where
  points : ∀ n, ∀ pt ∈ (v.points n).rows, pt.payload.doc_id = d →
    ∃ row, v.row d = some row ∧ pt.payload.owner = row.owner ∧
      pt.payload.source_content_hash = row.content_hash ∧ n = row.collection
  row : ∀ row, v.row d = some row → (v.docPoints row.collection d).length = row.chunk_count ∧
    ((row.status = .active ∧ 1 ≤ row.chunk_count ∧ row.chunk_count ≤ maxChunksPerDoc) ∨
      (row.status = .deleted ∧ row.chunk_count = 0))

/-- No collection has a point of the document. -/
def Cleared (v : Stores) (d : String) : Prop :=
  ∀ m, ∀ pt ∈ (v.points m).rows, pt.payload.doc_id ≠ d

/-- The points of the document are `pts`, all in one collection. -/
def Filled (v : Stores) (d n : String) (pts : List Point) : Prop :=
  ∀ m pt, pt.payload.doc_id = d → (pt ∈ (v.points m).rows ↔ m = n ∧ pt ∈ pts)

/-- The points of the document are the same. -/
def SamePoints (v v' : Stores) (d : String) : Prop :=
  ∀ m pt, pt.payload.doc_id = d → (pt ∈ (v'.points m).rows ↔ pt ∈ (v.points m).rows)

/-- The row of the document is the same, but for the time it was refreshed. -/
def SameRow (v v' : Stores) (d : String) : Prop :=
  ∃ refreshed : Document → Timestamp,
    v'.row d = (v.row d).map fun row => { row with last_refreshed_at := refreshed row }

theorem SameRow.of_eq (h : v'.row d = v.row d) : SameRow v v' d :=
  ⟨Document.last_refreshed_at, by rw [h]; exact Option.map_id'.symm⟩

theorem SameRow.refresh {row : Document} {now : Timestamp} : SameRow v (v.refresh row now) d := by
  refine ⟨fun r => if r.doc_id = row.doc_id then now else r.last_refreshed_at, ?_⟩
  rw [Stores.row_refresh]
  refine congrArg (Option.map · _) (funext fun r => ?_)
  by_cases h : r.doc_id = row.doc_id <;> simp [h]

theorem SamePoints.trans {v'' : Stores} (h : SamePoints v v' d) (h' : SamePoints v' v'' d) :
    SamePoints v v'' d := fun m pt hd => (h' m pt hd).trans (h m pt hd)

theorem SameRow.trans {v'' : Stores} (h : SameRow v v' d) (h' : SameRow v' v'' d) :
    SameRow v v'' d := by
  obtain ⟨f, hf⟩ := h
  obtain ⟨g, hg⟩ := h'
  exact ⟨fun row => g { row with last_refreshed_at := f row }, by
    rw [hg, hf, Option.map_map]; rfl⟩

theorem SamePoints.clear {d' : String} (h : d ≠ d') : SamePoints v (v.clear n d') d := by
  intro m pt hd
  rw [Stores.mem_clear]
  exact ⟨And.left, fun hpt => ⟨hpt, fun ⟨_, he⟩ => h (hd.symm.trans he)⟩⟩

theorem SamePoints.upsert (henv : env.DistinctIds W) (hx : .upload x ∈ W) (hn : Named env W v)
    (h : d ≠ x.doc_id) : SamePoints v (v.upsert n (x.points env)) d := by
  intro m pt hd
  rw [Stores.mem_upsert (Upload.nodup_points henv hx)]
  constructor
  · rintro (⟨_, hnew⟩ | ⟨hpt, _⟩)
    · exact absurd (hd.symm.trans (Upload.owner_of_mem hnew).2.1) h
    · exact hpt
  · refine fun hpt => .inr ⟨hpt, ?_⟩
    rintro ⟨_, q, hq, he⟩
    exact hn.id_ne henv hx hpt hq (hd.symm ▸ h) he

theorem SameRow.erase {row : Document} {now : Timestamp} (h : d ≠ row.doc_id) :
    SameRow v (v.erase row now) d := .of_eq (Stores.row_erase_of_ne h)

theorem SamePoints.docPoints_perm (h : SamePoints v v' d) (n : String) :
    (v'.docPoints n d).Perm (v.docPoints n d) := by
  refine (List.perm_ext_iff_of_nodup (nodup_docPoints ..) (nodup_docPoints ..)).mpr fun pt => ?_
  rw [mem_docPoints, mem_docPoints]
  exact and_congr_left fun hd => h n pt hd

theorem Settled.congr (h : Settled v d) (hp : SamePoints v v' d) (hr : SameRow v v' d) :
    Settled v' d := by
  obtain ⟨refreshed, hr⟩ := hr
  refine ⟨fun n pt hpt hd => ?_, fun row hrow => ?_⟩
  · obtain ⟨row, hrow, hown⟩ := h.points n pt ((hp n pt hd).mp hpt) hd
    exact ⟨{ row with last_refreshed_at := refreshed row }, by rw [hr, hrow]; rfl, hown⟩
  · rw [hr, Option.map_eq_some_iff] at hrow
    obtain ⟨row, hrow, rfl⟩ := hrow
    obtain ⟨hlen, hst⟩ := h.row row hrow
    exact ⟨((hp.docPoints_perm _).length_eq).trans hlen, hst⟩

theorem Cleared.congr (h : Cleared v d) (hp : SamePoints v v' d) : Cleared v' d :=
  fun m pt hpt hd => h m pt ((hp m pt hd).mp hpt) hd

theorem Filled.congr (h : Filled v d n pts) (hp : SamePoints v v' d) : Filled v' d n pts :=
  fun m pt hd => (hp m pt hd).trans (h m pt hd)

/-! ## Changes of other documents -/

/-- A change of another document keeps the row and the points. -/
theorem Change.frame (henv : env.DistinctIds W) (hw : w ∈ W) (hn : Named env W v)
    (hc : Change env w φ φ' v v')
    (hst : ∀ row, φ = .holding (.cleared row) → row.doc_id = w.doc_id) (hne : d ≠ w.doc_id) :
    SamePoints v v' d ∧ SameRow v v' d := by
  cases hc with
  | none => exact ⟨fun _ _ _ => .rfl, .of_eq rfl⟩
  | refresh => exact ⟨fun _ _ _ => .rfl, .refresh⟩
  | clear => exact ⟨.clear hne, .of_eq rfl⟩
  | @upsert x _ hx =>
    subst hx
    exact ⟨.upsert henv hw hn hne, .of_eq rfl⟩
  | store => exact ⟨fun _ _ _ => .rfl, .of_eq (Stores.row_store_of_ne hne)⟩
  | @erase x row _ he => exact ⟨fun _ _ _ => .rfl, .erase (hst row he ▸ hne)⟩

/-! ## Changes of the document itself -/

theorem Settled.cleared_of_no_row (h : Settled v d) (hr : v.row d = none) : Cleared v d := by
  intro m pt hpt hd
  obtain ⟨row, hrow, _⟩ := h.points m pt hpt hd
  rw [hr] at hrow
  cases hrow

/-- Emptying the collection of the row's pair leaves no points of the document. -/
theorem Settled.clear {row : Document} (h : Settled v d) (hr : v.row d = some row)
    (hn : row.collection = n) : Cleared (v.clear n d) d := by
  intro m pt hpt hd
  obtain ⟨hpt, hnot⟩ := Stores.mem_clear.mp hpt
  obtain ⟨row', hrow', _, _, hm⟩ := h.points m pt hpt hd
  rw [hr] at hrow'
  cases hrow'
  exact hnot ⟨hm.trans hn, hd⟩

theorem Cleared.upsert (henv : env.DistinctIds W) (hx : .upload x ∈ W)
    (h : Cleared v x.doc_id) :
    Filled (v.upsert n (x.points env)) x.doc_id n (x.points env) := by
  intro m pt hd
  rw [Stores.mem_upsert (Upload.nodup_points henv hx)]
  exact ⟨fun hpt => hpt.resolve_right fun ⟨hpt, _⟩ => h m pt hpt hd, .inl⟩

theorem Filled.docPoints_perm (henv : env.DistinctIds W) (hx : .upload x ∈ W)
    (h : Filled v x.doc_id n (x.points env)) :
    (v.docPoints n x.doc_id).Perm (x.points env) := by
  have hnd : (x.points env).Nodup := List.Nodup.of_map _ (Upload.nodup_points henv hx)
  refine (List.perm_ext_iff_of_nodup (nodup_docPoints ..) hnd).mpr fun pt => ?_
  rw [mem_docPoints]
  constructor
  · exact fun ⟨hpt, hd⟩ => ((h n pt hd).mp hpt).2
  · intro hpt
    have hd := (Upload.owner_of_mem hpt).2.1
    exact ⟨(h n pt hd).mpr ⟨rfl, hpt⟩, hd⟩

/-- Storing the row of an upload whose points are there. -/
theorem Filled.store (henv : env.DistinctIds W) (hx : .upload x ∈ W) {bot : Bot}
    {now : Timestamp}
    (h : Filled v x.doc_id (joinName x.tenant_id x.bot_id) (x.points env))
    (hlen : 1 ≤ (x.points env).length ∧ (x.points env).length ≤ maxChunksPerDoc) :
    Settled (v.store x.doc_id (uploadDefaults env x bot (x.points env).length) now) x.doc_id := by
  obtain ⟨t, hrow⟩ := v.row_store x.doc_id (uploadDefaults env x bot (x.points env).length) now
  refine ⟨fun n pt hpt hd => ?_, fun row hr => ?_⟩
  · obtain ⟨hn, hm⟩ := (h n pt hd).mp hpt
    obtain ⟨hown, _, hhash⟩ := Upload.owner_of_mem hm
    exact ⟨_, hrow, hown, hhash, hn⟩
  · rw [hrow] at hr
    cases hr
    exact ⟨(h.docPoints_perm henv hx).length_eq, .inl ⟨rfl, hlen⟩⟩

/-- Marking the row deleted when the points are gone. -/
theorem Cleared.erase {row r : Document} {now : Timestamp} (h : Cleared v d)
    (hr : v.row d = some r) (hd : row.doc_id = d) : Settled (v.erase row now) d := by
  refine ⟨fun n pt hpt he => absurd he (h n pt hpt), fun r' hr' => ?_⟩
  rw [Stores.row_erase, hr, Option.map_some, Option.some.injEq,
    if_pos ((Stores.doc_id_of_row hr).trans hd.symm)] at hr'
  subst hr'
  refine ⟨?_, .inr ⟨rfl, rfl⟩⟩
  refine List.length_eq_zero_iff.mpr (List.eq_nil_iff_forall_not_mem.mpr fun pt hpt => ?_)
  obtain ⟨hpt, he⟩ := mem_docPoints.mp hpt
  exact h _ pt hpt he

theorem Settled.empty : Settled World.empty.stores d where
  points _ _ h := nomatch h
  row _ h := nomatch h

theorem Named.empty : Named env W World.empty.stores := fun _ _ h => nomatch h

end QdrantRag
