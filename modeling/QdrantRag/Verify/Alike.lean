import QdrantRag.Effect.Blind
import QdrantRag.Verify.Isolation

/-! # States that differ in the documents of others

What a pair can see of the stores: the tenants, bots and locks, its own rows and collection, and
which document ids are in use (`World.Alike`). The calls of its requests keep two states alike
and are answered the same, except the lookup of a document that is not its own. -/

namespace QdrantRag
open Keyed Effect Effect.Prog

variable {env : Env} {i : Nat} {o : Op} {c : Fault} {s s' : World} {p : String × String}
  {d : String} {D : Option Document → Option Document → Prop}

/-! ## The relations -/

/-- The two states differ only in documents of other pairs, and in their contents. Where another
pair has its collection, the pair has no points. -/
structure World.Alike (p : String × String) (s s' : World) : Prop where
  tenants : s.tenants = s'.tenants
  bots : s.bots = s'.bots
  locks : s.locks = s'.locks
  collection : s.NameTaken p ∨
    s.collections.find? (joinName p.1 p.2) = s'.collections.find? (joinName p.1 p.2)
  rows : s.documents.rows.filter (·.owner = p) = s'.documents.rows.filter (·.owner = p)
  ids : ∀ d, (s.row d).isSome = (s'.row d).isSome

/-- The tenants, bots and locks are the same, and `E` relates the documents and collections. -/
structure SameBut
    (E : Table Document → Table Collection → Table Document → Table Collection → Prop)
    (s s' : World) : Prop where
  tenants : s.tenants = s'.tenants
  bots : s.bots = s'.bots
  locks : s.locks = s'.locks
  rest : E s.documents s.collections s'.documents s'.collections

/-- `D` relates the rows of `d`. -/
def AtRow (D : Option Document → Option Document → Prop) (d : String) (docs : Table Document)
    (_ : Table Collection) (docs' : Table Document) (_ : Table Collection) : Prop :=
  D (docs.find? d) (docs'.find? d)

/-- The document is not there, or the pair's own. -/
def Undisputed (p : String × String) (a a' : Option Document) : Prop :=
  a = a' ∧ ∀ row ∈ a, row.owner = p

/-- Other pairs own the document. -/
def Foreign (p : String × String) (a a' : Option Document) : Prop :=
  ∃ row row', a = some row ∧ a' = some row' ∧ row.owner ≠ p ∧ row'.owner ≠ p

/-- The document is not the pair's own. -/
def NotOwn (p : String × String) (a a' : Option Document) : Prop :=
  (∀ row ∈ a, row.owner ≠ p) ∧ ∀ row ∈ a', row.owner ≠ p

/-- The rows and the collection of the pair are the same, and `d` is no other pair's. -/
structure OwnAlike (p : String × String) (d : String) (docs : Table Document)
    (cols : Table Collection) (docs' : Table Document) (cols' : Table Collection) : Prop where
  rows : docs.rows.filter (·.owner = p) = docs'.rows.filter (·.owner = p)
  ids : ∀ d, (docs.find? d).isSome = (docs'.find? d).isSome
  collection : cols.find? (joinName p.1 p.2) = cols'.find? (joinName p.1 p.2)
  row : Undisputed p (docs.find? d) (docs'.find? d)

theorem World.row_eq_some {row : Document} :
    s.row d = some row ↔ row ∈ s.documents.rows ∧ row.doc_id = d := Table.find?_eq_some

/-- A row of the pair is in both states. -/
theorem World.Alike.own {row : Document} (h : s.Alike p s') (hrow : s.row d = some row)
    (hown : row.owner = p) : s'.row d = some row := by
  obtain ⟨hmem, hd⟩ := World.row_eq_some.mp hrow
  have hfilter : row ∈ s.documents.rows.filter (·.owner = p) :=
    List.mem_filter.mpr ⟨hmem, decide_eq_true hown⟩
  rw [h.rows] at hfilter
  exact World.row_eq_some.mpr ⟨(List.mem_filter.mp hfilter).1, hd⟩

theorem World.Alike.own' {row : Document} (h : s.Alike p s') (hrow : s'.row d = some row)
    (hown : row.owner = p) : s.row d = some row := by
  obtain ⟨hmem, hd⟩ := World.row_eq_some.mp hrow
  have hfilter : row ∈ s'.documents.rows.filter (·.owner = p) :=
    List.mem_filter.mpr ⟨hmem, decide_eq_true hown⟩
  rw [← h.rows] at hfilter
  exact World.row_eq_some.mpr ⟨(List.mem_filter.mp hfilter).1, hd⟩

theorem World.Alike.cases (h : s.Alike p s') (d : String) :
    Undisputed p (s.row d) (s'.row d) ∨ Foreign p (s.row d) (s'.row d) := by
  cases hrow : s.row d with
  | none =>
    have hnone : (s'.row d).isSome = false := by rw [← h.ids d, hrow]; rfl
    rw [Option.isSome_eq_false_iff.mp hnone |> Option.isNone_iff_eq_none.mp]
    exact .inl ⟨rfl, nofun⟩
  | some row =>
    obtain ⟨row', hrow'⟩ : ∃ row', s'.row d = some row' := by
      rw [← Option.isSome_iff_exists, ← h.ids d, hrow]
      rfl
    by_cases hown : row.owner = p
    · refine .inl ⟨(h.own hrow hown).symm, fun r hr => ?_⟩
      rw [← Option.some.inj hr]
      exact hown
    · rw [hrow']
      refine .inr ⟨row, row', rfl, rfl, hown, fun hown' => hown ?_⟩
      obtain rfl := Option.some.inj (hrow.symm.trans (h.own' hrow' hown'))
      exact hown'

theorem Foreign.notOwn {a a' : Option Document} (h : Foreign p a a') : NotOwn p a a' := by
  obtain ⟨row, row', rfl, rfl, hrow, hrow'⟩ := h
  exact ⟨fun r hr => Option.some.inj hr ▸ hrow, fun r hr => Option.some.inj hr ▸ hrow'⟩

theorem World.Alike.sameBut (h : s.Alike p s') (hrow : D (s.row d) (s'.row d)) :
    SameBut (AtRow D d) s s' := ⟨h.tenants, h.bots, h.locks, hrow⟩

theorem World.Alike.ownAlike (h : s.Alike p s') (hname : ¬ s.NameTaken p)
    (hrow : Undisputed p (s.row d) (s'.row d)) : SameBut (OwnAlike p d) s s' :=
  ⟨h.tenants, h.bots, h.locks, h.rows, h.ids, h.collection.resolve_left hname, hrow⟩

/-! ## Calls -/

/-- The answers are the same, those to a lookup of a document related by `D`. -/
def AnsweredAlike (D : Option Document → Option Document → Prop) : (o : Op) → Ans o → Ans o → Prop
  | .documentFirst _, a, a' => D a a'
  | _, a, a' => a = a'

/-- A call is refused alike in two states, or served in both with related answers. -/
def ServedAlike (D : Option Document → Option Document → Prop) (R : World → World → Prop) (o : Op)
    (r r' : Except Exc (Ans o × World)) : Prop :=
  (∃ e, r = .error e ∧ r' = .error e) ∨
    ∃ a a' t t', r = .ok (a, t) ∧ r' = .ok (a', t') ∧ AnsweredAlike D o a a' ∧ R t t'

theorem matches_exec {R : World → World → Prop} (hs : R s s')
    (hend : R (s.endSession i) (s'.endSession i))
    (h : ServedAlike D R o (serve env i o s) (serve env i o s')) :
    Matches (AnsweredAlike D) R o (exec env i o c s) (exec env i o c s') := by
  unfold exec
  rcases h with ⟨e, he, he'⟩ | ⟨a, a', t, t', ha, ha', hanswers, ht⟩
  · rw [he, he']
    by_cases hl : o.isLock = true
    · simp only [hl, if_true]
      cases c with
      | none => exact ⟨hs, .inl ⟨_, rfl, rfl⟩⟩
      | before e' => exact ⟨hend, .inl ⟨_, rfl, rfl⟩⟩
      | after e' => exact ⟨hend, .inl ⟨_, rfl, rfl⟩⟩
    · simp only [hl]
      by_cases hlocal : o.isLocal = true
      · simp only [hlocal, if_true]
        exact ⟨hs, .inl ⟨_, rfl, rfl⟩⟩
      · simp only [hlocal]
        cases c <;> exact ⟨hs, .inl ⟨_, rfl, rfl⟩⟩
  · rw [ha, ha']
    by_cases hl : o.isLock = true
    · simp only [hl, if_true]
      cases c with
      | none => exact ⟨ht, .inr ⟨a, a', rfl, rfl, hanswers⟩⟩
      | before e' => exact ⟨hend, .inl ⟨_, rfl, rfl⟩⟩
      | after e' => exact ⟨hend, .inl ⟨_, rfl, rfl⟩⟩
    · simp only [hl]
      by_cases hlocal : o.isLocal = true
      · simp only [hlocal, if_true]
        exact ⟨ht, .inr ⟨a, a', rfl, rfl, hanswers⟩⟩
      · simp only [hlocal]
        cases c with
        | none => exact ⟨ht, .inr ⟨a, a', rfl, rfl, hanswers⟩⟩
        | before e' => exact ⟨hs, .inl ⟨_, rfl, rfl⟩⟩
        | after e' => exact ⟨ht, .inl ⟨_, rfl, rfl⟩⟩

/-- The calls for the lock, the tenant and the bot. -/
def Op.Enters : Op → Prop
  | .tryAdvisoryLock _ | .advisoryUnlock _ | .sleep _ | .tenantGetOrCreate .. | .tenantGet _
  | .botGetOrCreate .. | .botGet .. => True
  | _ => False

/-- They, and the lookup of the document. -/
def Op.Opens (d : String) : Op → Prop
  | .documentFirst d' => d' = d
  | o => o.Enters

theorem SameBut.endSession
    {E : Table Document → Table Collection → Table Document → Table Collection → Prop}
    (h : SameBut E s s') : SameBut E (s.endSession i) (s'.endSession i) :=
  { h with locks := by simp only [World.endSession, h.locks] }

/-- Such a call is answered the same, but for the lookup, and changes no document. -/
theorem SameBut.opens
    {E : Table Document → Table Collection → Table Document → Table Collection → Prop}
    (hE : ∀ docs cols docs' cols', E docs cols docs' cols' → D (docs.find? d) (docs'.find? d))
    (ho : o.Opens d) (h : SameBut E s s') :
    ServedAlike D (SameBut E) o (serve env i o s) (serve env i o s') := by
  cases o with
  | tryAdvisoryLock k =>
    simp only [serve, ← h.locks]
    split
    · exact .inr ⟨_, _, _, _, rfl, rfl, rfl, { h with locks := rfl }⟩
    · exact .inr ⟨_, _, _, _, rfl, rfl, rfl, h⟩
  | advisoryUnlock k =>
    have hlocks := congrArg (fun t : Table Lock => t.remove fun l => l.key == k && l.session == i)
      h.locks
    exact .inr ⟨_, _, _, _, rfl, rfl, rfl, { h with locks := hlocks }⟩
  | sleep => exact .inr ⟨_, _, _, _, rfl, rfl, rfl, h⟩
  | tenantGetOrCreate T name =>
    simp only [serve, ← h.tenants]
    split
    · exact .inr ⟨_, _, _, _, rfl, rfl, rfl, h⟩
    · exact .inr ⟨_, _, _, _, rfl, rfl, rfl, { h with tenants := rfl }⟩
  | tenantGet T =>
    simp only [serve, ← h.tenants]
    split
    · exact .inr ⟨_, _, _, _, rfl, rfl, rfl, h⟩
    · exact .inl ⟨_, rfl, rfl⟩
  | botGetOrCreate T B name =>
    simp only [serve, ← h.bots]
    split
    · exact .inr ⟨_, _, _, _, rfl, rfl, rfl, h⟩
    · split
      · exact .inl ⟨_, rfl, rfl⟩
      · split
        · exact .inl ⟨_, rfl, rfl⟩
        · refine .inr ⟨_, _, _, _, rfl, rfl, rfl, { h with bots := ?_ }⟩
          exact congrArg (fun t : Table Bot => t.put _) h.bots
  | botGet T B =>
    simp only [serve, ← h.bots]
    split
    · exact .inr ⟨_, _, _, _, rfl, rfl, rfl, h⟩
    · exact .inl ⟨_, rfl, rfl⟩
  | documentFirst d' =>
    obtain rfl := ho
    exact .inr ⟨_, _, _, _, rfl, rfl, hE _ _ _ _ h.rest, h⟩
  | _ => cases ho

theorem matches_opens (env : Env) (i : Nat) (o : Op) (c : Fault) (s s' : World) (ho : o.Opens d)
    (h : SameBut (AtRow D d) s s') :
    Matches (AnsweredAlike D) (SameBut (AtRow D d)) o (exec env i o c s) (exec env i o c s') :=
  matches_exec h h.endSession (h.opens (fun _ _ _ _ => id) ho)

/-! ## Calls after the lookup -/

/-- The calls of the requests of a pair about a document. -/
def Op.Concerns (p : String × String) (d : String) : Op → Prop
  | .documentFirst d' => d' = d
  | .documentMatch T B _ _ => (T, B) = p
  | .documentUpdateOrCreate d' f _ => d' = d ∧ (f.tenant_id, f.bot_id) = p
  | .collectionExists n | .createCollection n _ | .createPayloadIndex n _ _ | .getCollection n
  | .count n _ | .deletePoints n _ | .upsert n _ | .queryPoints n _ => n = joinName p.1 p.2
  | _ => True

theorem contentMatches_eq_filter {hash : String} : contentMatches s p.1 p.2 hash d =
    (s.documents.rows.filter (·.owner = p)).filter fun row => row.content_hash == hash &&
      row.status == .active && decide (0 < row.chunk_count) && row.doc_id != d := by
  rw [List.filter_filter]
  apply List.filter_congr
  intro row _
  simp only [Document.owner, Prod.ext_iff, Bool.decide_and]
  simp only [beq_eq_decide]
  ac_rfl

/-- Saving fields of a row leaves its owner. -/
theorem Document.owner_saveFields {src row : Document} {fields : List DocumentField}
    {now : Timestamp} : (src.saveFields fields now row).owner = row.owner := by
  induction fields generalizing row with
  | nil => rfl
  | cons f fields ih =>
    rw [saveFields, List.foldl_cons]
    apply ih.trans
    cases f <;> rfl

namespace OwnAlike
variable {docs docs' : Table Document} {cols cols' : Table Collection}

/-- Rewriting a row by a function that keeps owners. -/
theorem modify {e : String} {f : Document → Document} (hf : ∀ row, (f row).doc_id = row.doc_id)
    (h : OwnAlike p d docs cols docs' cols') (hown : ∀ row, (f row).owner = row.owner) :
    OwnAlike p d (docs.modify e f hf) cols (docs'.modify e f hf) cols' := by
  have hfind (t : Table Document) (d : String) : (t.modify e f hf).find? d =
      (t.find? d).map fun x => if HasKey.key x = e then f x else x := Table.find?_modify f hf
  have hrows (t : Table Document) : (t.modify e f hf).rows.filter (·.owner = p) =
      (t.rows.filter (·.owner = p)).map fun x => if HasKey.key x = e then f x else x := by
    refine List.filter_map.trans (congrArg (List.map _) (List.filter_congr fun x _ => ?_))
    rw [Function.comp_apply]
    split
    · rw [hown]
    · rfl
  refine ⟨?_, fun d => ?_, h.collection, ?_, fun row hmem => ?_⟩
  · rw [hrows, hrows, h.rows]
  · rw [hfind, hfind, Option.isSome_map, Option.isSome_map]
    exact h.ids d
  · rw [hfind, hfind, h.row.1]
  · rw [hfind] at hmem
    obtain ⟨old, hold, rfl⟩ := Option.map_eq_some_iff.mp hmem
    have hp := h.row.2 old hold
    split
    · rw [hown, hp]
    · exact hp

/-- Writing a row of the pair over one of its own, or where there is none. -/
theorem put {r : Document} (h : OwnAlike p r.doc_id docs cols docs' cols') (hr : r.owner = p) :
    OwnAlike p r.doc_id (docs.put r) cols (docs'.put r) cols' := by
  obtain ⟨hsame, hown⟩ := h.row
  have hself (t : Table Document) : (t.put r).find? r.doc_id = some r := Table.find?_put_self
  have hids (t : Table Document) (e : String) :
      ((t.put r).find? e).isSome = (decide (r.doc_id = e) || (t.find? e).isSome) := by
    by_cases he : r.doc_id = e
    · subst he
      rw [hself]
      simp
    · rw [Table.find?_put_of_ne he]
      simp [he]
  have hrows (t : Table Document) (hown : ∀ row ∈ t.find? r.doc_id, row.owner = p) :
      (t.put r).rows.filter (·.owner = p) =
        if (t.find? r.doc_id).isSome then
          (t.rows.filter (·.owner = p)).map fun x => if x.doc_id = r.doc_id then r else x
        else t.rows.filter (·.owner = p) ++ [r] := by
    cases hfind : t.find? r.doc_id with
    | none =>
      have hnew : HasKey.key r ∉ t.rows.map HasKey.key := by
        intro hmem
        obtain ⟨x, hx, hk⟩ := List.mem_map.mp hmem
        exact Table.find?_eq_none.mp hfind x hx hk
      rw [Table.rows_put, if_neg hnew, List.filter_append]
      simp [hr]
    | some row =>
      obtain ⟨hmem, hk⟩ := Table.find?_eq_some.mp hfind
      have hold : HasKey.key r ∈ t.rows.map HasKey.key := List.mem_map.mpr ⟨row, hmem, hk⟩
      rw [Table.rows_put, if_pos hold]
      refine List.filter_map.trans (congrArg (List.map _) (List.filter_congr fun x hx => ?_))
      rw [Function.comp_apply]
      split
      · next hxr => rw [hr, hown x (Table.find?_eq_some.mpr ⟨hx, hxr⟩)]
      · rfl
  refine ⟨?_, fun e => ?_, h.collection, (hself _).trans (hself _).symm, fun row hrow => ?_⟩
  · rw [hrows _ hown, hrows _ (hsame ▸ hown), h.rows, hsame]
  · rw [hids, hids, h.ids e]
  · obtain rfl := Option.some.inj ((hself _).symm.trans hrow)
    exact hr

end OwnAlike

/-- Rewriting the collection of the pair. -/
theorem SameBut.modifyCollection {f : Collection → Collection}
    {hf : ∀ col, (f col).name = col.name} (h : SameBut (OwnAlike p d) s s') :
    SameBut (OwnAlike p d) (s.modifyCollection (joinName p.1 p.2) f hf)
      (s'.modifyCollection (joinName p.1 p.2) f hf) := by
  refine { h with rest := { h.rest with collection := ?_ } }
  rw [World.find?_modifyCollection, World.find?_modifyCollection, h.rest.collection]

/-- Every call about a document that is no other pair's is answered the same. -/
theorem SameBut.concerns (ho : o.Concerns p d) (h : SameBut (OwnAlike p d) s s') :
    ServedAlike (Undisputed p) (SameBut (OwnAlike p d)) o (serve env i o s) (serve env i o s') := by
  have hrow : s.row d = s'.row d := h.rest.row.1
  have hcol := h.rest.collection
  cases o with
  | documentFirst d' => exact h.opens (fun _ _ _ _ => OwnAlike.row) ho
  | tryAdvisoryLock | advisoryUnlock | sleep | tenantGetOrCreate | tenantGet | botGetOrCreate
  | botGet => exact h.opens (fun _ _ _ _ => OwnAlike.row) trivial
  | loadTokenizer | encode => exact .inr ⟨_, _, _, _, rfl, rfl, rfl, h⟩
  | documentMatch T B hash d' =>
    obtain rfl : (T, B) = p := ho
    have hmatch : contentMatches s T B hash d' = contentMatches s' T B hash d' := by
      rw [contentMatches_eq_filter (p := (T, B)), contentMatches_eq_filter (p := (T, B)),
        h.rest.rows]
    simp only [serve, hmatch]
    exact .inr ⟨_, _, _, _, rfl, rfl, rfl, h⟩
  | documentSave row fields now =>
    have hsome : (s.row row.doc_id).isSome = (s'.row row.doc_id).isSome := h.rest.ids row.doc_id
    simp only [serve]
    cases hrow : s.row row.doc_id with
    | none =>
      have hnone : s'.row row.doc_id = none := by
        rwa [hrow, Option.isSome_none, eq_comm, Option.isSome_eq_false_iff,
          Option.isNone_iff_eq_none] at hsome
      rw [hnone]
      exact .inl ⟨_, rfl, rfl⟩
    | some old =>
      obtain ⟨old', hrow'⟩ : ∃ old', s'.row row.doc_id = some old' := by
        rw [← Option.isSome_iff_exists, ← hsome, hrow]
        rfl
      rw [hrow']
      exact .inr ⟨_, _, _, _, rfl, rfl, rfl,
        { h with rest := h.rest.modify (row.doc_id_saveFields fields now) fun _ =>
            Document.owner_saveFields }⟩
  | documentUpdateOrCreate d' f now =>
    obtain ⟨rfl, hp⟩ := ho
    simp only [serve, ← hrow]
    split
    · exact .inl ⟨_, rfl, rfl⟩
    · split
      · exact .inr ⟨_, _, _, _, rfl, rfl, rfl,
          { h with rest := OwnAlike.put (r := f.create d' now) h.rest hp }⟩
      · next row hrow =>
        obtain rfl := (World.row_eq_some.mp hrow).2
        exact .inr ⟨_, _, _, _, rfl, rfl, rfl,
          { h with rest := OwnAlike.put (r := f.update row now) h.rest hp }⟩
  | createCollection n params =>
    obtain rfl : n = _ := ho
    simp only [serve, ← hcol]
    split
    · exact .inl ⟨_, rfl, rfl⟩
    · refine .inr ⟨_, _, _, _, rfl, rfl, rfl, { h with rest := { h.rest with collection := ?_ } }⟩
      have hput (t : Table Collection) :
          (t.put ⟨joinName p.1 p.2, params, [], .empty⟩).find? (joinName p.1 p.2) =
            some ⟨joinName p.1 p.2, params, [], .empty⟩ := Table.find?_put_self
      exact (hput _).trans (hput _).symm
  | collectionExists n =>
    obtain rfl : n = _ := ho
    simp only [serve, hcol]
    exact .inr ⟨_, _, _, _, rfl, rfl, rfl, h⟩
  | getCollection n | count n | queryPoints n =>
    obtain rfl : n = _ := ho
    simp only [serve, hcol]
    split
    · exact .inl ⟨_, rfl, rfl⟩
    · exact .inr ⟨_, _, _, _, rfl, rfl, rfl, h⟩
  | createPayloadIndex n | deletePoints n | upsert n =>
    obtain rfl : n = _ := ho
    simp only [serve, hcol]
    split
    · exact .inl ⟨_, rfl, rfl⟩
    · exact .inr ⟨_, _, _, _, rfl, rfl, rfl, h.modifyCollection⟩

theorem matches_concerns (env : Env) (i : Nat) (o : Op) (c : Fault) (s s' : World)
    (ho : o.Concerns p d) (h : SameBut (OwnAlike p d) s s') :
    Matches (AnsweredAlike (Undisputed p)) (SameBut (OwnAlike p d)) o (exec env i o c s)
      (exec env i o c s') := matches_exec h h.endSession (h.concerns ho)

end QdrantRag
