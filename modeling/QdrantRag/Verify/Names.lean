import Mathlib.Data.List.Basic
import QdrantRag.Model.Identifiers

/-! # Names of collections

A collection name joins two slugs by a separator that slugs may contain themselves. Two pairs share
a name exactly where the separator inside a slug is taken for the one between the slugs
(`Straddles`). -/

namespace QdrantRag

/-- The separator of `collection_name`. -/
def nameSeparator : String := "__b_"

theorem joinName_eq (T B : String) : joinName T B = "t_" ++ T ++ nameSeparator ++ B := rfl

/-- The pairs split one name at different separators: a middle piece belongs to the bot of `p` and
to the tenant of `p'`. -/
def Straddles (p p' : String × String) : Prop :=
  ∃ middle, p'.1 = p.1 ++ nameSeparator ++ middle ∧ p.2 = middle ++ nameSeparator ++ p'.2

theorem Straddles.joinName_eq {p p' : String × String} (h : Straddles p p') :
    joinName p.1 p.2 = joinName p'.1 p'.2 := by
  obtain ⟨middle, hT, hB⟩ := h
  simp only [QdrantRag.joinName_eq, hT, hB, String.append_assoc]

/-- The tenant ids differ, as the separator is not empty. -/
theorem Straddles.ne {p p' : String × String} (h : Straddles p p') : p.1 ≠ p'.1 := by
  obtain ⟨middle, hT, -⟩ := h
  intro he
  have hlen := congrArg String.length (he.trans hT)
  have hsep : nameSeparator.length = 4 := rfl
  simp only [String.length_append, hsep] at hlen
  omega

/-- A slug does not begin like a separator. -/
theorem slug_head {s : String} (h : slugMatch s = true) (cs : List Char) :
    s.toList ≠ '_' :: cs := by
  intro hs
  simp [slugMatch, hs, slugHead] at h

/-- Two ways to split a text at separators are one, or the second part of the first goes on to the
separator of the other. -/
theorem split_of_append {t t' b b' : List Char} (hb : ∀ cs, b ≠ '_' :: cs) {a : List Char}
    (ht : t' = t ++ a) (h : nameSeparator.toList ++ b = a ++ (nameSeparator.toList ++ b')) :
    (t = t' ∧ b = b') ∨ ∃ middle, t' = t ++ nameSeparator.toList ++ middle ∧
      b = middle ++ nameSeparator.toList ++ b' := by
  have hsep : nameSeparator.toList = ['_', '_', 'b', '_'] := rfl
  rw [hsep] at h ⊢
  -- an overlap of the two separators would have to be a proper prefix and suffix of them
  match a with
  | [] =>
    refine .inl ⟨?_, ?_⟩
    · simpa using ht.symm
    · simpa using h
  | [_] | [_, _] => simp at h
  | [_, _, _] =>
    simp only [List.cons_append, List.nil_append, List.cons.injEq] at h
    exact absurd h.2.2.2.2 (hb _)
  | _ :: _ :: _ :: _ :: middle =>
    simp only [List.cons_append, List.nil_append, List.cons.injEq] at h
    obtain ⟨rfl, rfl, rfl, rfl, hmiddle⟩ := h
    exact .inr ⟨middle, by simp [ht], by simp [hmiddle]⟩

/-- Two pairs of slugs have one collection name only where they are the same, or straddle. -/
theorem joinName_cases {p p' : String × String} (hB : slugMatch p.2 = true)
    (hB' : slugMatch p'.2 = true) (h : joinName p.1 p.2 = joinName p'.1 p'.2) :
    p = p' ∨ Straddles p p' ∨ Straddles p' p := by
  have hsplit {q q' : String × String} (hB : slugMatch q.2 = true) {a : List Char}
      (ht : q'.1.toList = q.1.toList ++ a)
      (h : nameSeparator.toList ++ q.2.toList =
        a ++ (nameSeparator.toList ++ q'.2.toList)) : q = q' ∨ Straddles q q' := by
    rcases split_of_append (slug_head hB) ht h with ⟨h1, h2⟩ | ⟨middle, h1, h2⟩
    · exact .inl (Prod.ext (String.toList_inj.mp h1) (String.toList_inj.mp h2))
    · refine .inr ⟨String.ofList middle, ?_, ?_⟩
      · exact String.toList_inj.mp (by simpa using h1)
      · exact String.toList_inj.mp (by simpa using h2)
  have hl := congrArg String.toList h
  simp only [QdrantRag.joinName_eq, String.toList_append, List.append_assoc,
    List.append_cancel_left_eq] at hl
  rcases List.append_eq_append_iff.mp hl with ⟨a, ht, hrest⟩ | ⟨a, ht, hrest⟩
  · exact (hsplit hB ht hrest).imp_right .inl
  · exact (hsplit hB' ht hrest).imp Eq.symm .inr

/-- **One collection per bot**, unless the pairs straddle: two pairs of slugs are told apart by
their collection names if and only if they do not split one name at different separators. -/
theorem collectionName_injective_iff {T B T' B' : String} (hT : slugMatch T = true)
    (hB : slugMatch B = true) (hT' : slugMatch T' = true) (hB' : slugMatch B' = true) :
    (collectionName T B = collectionName T' B' → T = T' ∧ B = B') ↔
      ¬ (Straddles (T, B) (T', B') ∨ Straddles (T', B') (T, B)) := by
  have hname : collectionName T B = .ok (joinName T B) := collectionName_eq_ok.mpr ⟨hT, hB, rfl⟩
  have hname' : collectionName T' B' = .ok (joinName T' B') :=
    collectionName_eq_ok.mpr ⟨hT', hB', rfl⟩
  rw [hname, hname', Except.ok.injEq]
  constructor
  · rintro hinj (h | h)
    · exact h.ne (hinj h.joinName_eq).1
    · exact h.ne (hinj h.joinName_eq.symm).1.symm
  · intro hno h
    rcases @joinName_cases (T, B) (T', B') hB hB' h with he | hs
    · exact Prod.mk.inj he
    · exact absurd hs hno

theorem collectionName_injective_iff_acme :
    (collectionName "acme" "support" = collectionName "acme" "sales" →
      "acme" = "acme" ∧ "support" = "sales") ↔
      ¬ (Straddles ("acme", "support") ("acme", "sales") ∨
        Straddles ("acme", "sales") ("acme", "support")) :=
  collectionName_injective_iff (by decide) (by decide) (by decide) (by decide)

/-- A separator inside the bot id of one pair is that inside the tenant id of the other. -/
theorem collectionName_clash :
    slugMatch "abc" = true ∧ slugMatch "xyz__b_def" = true ∧ slugMatch "abc__b_xyz" = true ∧
      slugMatch "def" = true ∧
      collectionName "abc" "xyz__b_def" = collectionName "abc__b_xyz" "def" ∧
      "abc" ≠ "abc__b_xyz" := by
  refine ⟨by decide, by decide, by decide, by decide, ?_, by decide⟩
  rw [collectionName_eq_ok.mpr ⟨by decide, by decide, rfl⟩,
    collectionName_eq_ok.mpr ⟨by decide, by decide, rfl⟩]
  rfl

end QdrantRag
