import Mathlib.Data.List.DropRight

/-! # Strings as Python has them

`str.isspace`, `str.strip`, `str.rstrip` and prefix slices, on `String` through its list of
characters. -/

namespace Text

/-- The code points `str.isspace` accepts. -/
def isSpace (c : Char) : Bool :=
  let n := c.toNat
  (9 ≤ n && n ≤ 13) || (28 ≤ n && n ≤ 32) || n == 0x85 || n == 0xA0 || n == 0x1680 ||
    (0x2000 ≤ n && n ≤ 0x200A) || n == 0x2028 || n == 0x2029 || n == 0x202F || n == 0x205F ||
    n == 0x3000

/-- `s.rstrip()`. -/
def rstrip (s : String) : String := String.ofList (s.toList.rdropWhile isSpace)

/-- `s.strip()`. -/
@[irreducible] def strip (s : String) : String :=
  String.ofList ((s.toList.dropWhile isSpace).rdropWhile isSpace)

/-- A stripped text does not start with a space. -/
theorem dropWhile_strip (s : String) :
    (strip s).toList.dropWhile isSpace = (strip s).toList := by
  unfold strip
  rw [String.toList_ofList]
  generalize hl : s.toList.dropWhile isSpace = l
  have hl : l.dropWhile isSpace = l := hl ▸ List.dropWhile_idempotent isSpace s.toList
  -- the first character of a prefix of `l` is that of `l`, and so no space
  have hpre := List.rdropWhile_prefix isSpace l
  refine List.dropWhile_eq_self_iff.mpr fun h => ?_
  have hhead := hpre.getElem h
  rw [hhead]
  exact List.dropWhile_eq_self_iff.mp hl (h.trans_le hpre.length_le)

theorem strip_strip (s : String) : strip (strip s) = strip s := by
  have hdrop := dropWhile_strip s
  unfold strip at hdrop ⊢
  rw [hdrop, String.toList_ofList, List.rdropWhile_idempotent]

/-- A text without white space is left as it is. -/
theorem strip_eq_self {s : String} (h : ∀ c ∈ s.toList, isSpace c = false) : strip s = s := by
  have hdrop : s.toList.dropWhile isSpace = s.toList := by
    rw [List.dropWhile_eq_self_iff]
    intro hpos
    rw [h _ (List.getElem_mem hpos)]
    exact Bool.false_ne_true
  have hrdrop : s.toList.rdropWhile isSpace = s.toList := by
    rw [List.rdropWhile_eq_self_iff]
    intro hne
    rw [h _ (List.getLast_mem hne)]
    exact Bool.false_ne_true
  unfold strip
  rw [hdrop, hrdrop, String.ofList_toList]

/-- Nothing is left of a text if and only if it is white space. -/
theorem strip_eq_empty {s : String} : strip s = "" ↔ ∀ c ∈ s.toList, isSpace c = true := by
  unfold strip
  rw [← String.toList_inj, String.toList_ofList, String.toList_empty, List.rdropWhile_eq_nil_iff]
  constructor
  · intro h
    -- the first character that is kept is no space
    cases hl : s.toList.dropWhile isSpace with
    | nil => exact List.dropWhile_eq_nil_iff.mp hl
    | cons c cs =>
      have hc := List.head_dropWhile_not isSpace (l := s.toList) (by simp [hl])
      simp only [hl, List.head_cons] at hc
      rw [h c (by simp [hl])] at hc
      cases hc
  · intro h c hc
    exact h c ((List.dropWhile_suffix isSpace).subset hc)

theorem rstrip_prefixOf (s : String) : (rstrip s).toList <+: s.toList := by
  rw [rstrip, String.toList_ofList]
  exact List.rdropWhile_prefix isSpace s.toList

/-- `s[:n]`. -/
def takeChars (s : String) (n : Nat) : String := String.ofList (s.toList.take n)

theorem takeChars_prefixOf (s : String) (n : Nat) : (takeChars s n).toList <+: s.toList := by
  rw [takeChars, String.toList_ofList]
  exact List.take_prefix n s.toList

/-! ## Texts that start with a character -/

/-- The text starts with a character that is no space. -/
def Starts (s : String) : Prop := ∃ c cs, s.toList = c :: cs ∧ isSpace c = false

theorem Starts.ne_empty {s : String} (h : Starts s) : s ≠ "" := by
  rintro rfl
  obtain ⟨c, cs, hlist, -⟩ := h
  cases hlist

theorem Starts.strip_ne_empty {s : String} (h : Starts s) : strip s ≠ "" := by
  intro hblank
  obtain ⟨c, cs, hlist, hc⟩ := h
  have hspace := strip_eq_empty.mp hblank c (hlist ▸ List.mem_cons_self)
  rw [hc] at hspace
  cases hspace

theorem starts_strip {s : String} (h : strip s ≠ "") : Starts (strip s) := by
  cases hlist : (strip s).toList with
  | nil => exact absurd (String.toList_inj.mp hlist) h
  | cons c cs =>
    have hdrop := dropWhile_strip s
    rw [hlist, List.dropWhile_eq_self_iff] at hdrop
    refine ⟨c, cs, hlist, ?_⟩
    rw [← Bool.not_eq_true]
    exact hdrop (Nat.zero_lt_succ _)

theorem Starts.takeChars {s : String} (h : Starts s) {n : Nat} (hn : n ≠ 0) :
    Starts (takeChars s n) := by
  obtain ⟨c, cs, hlist, hc⟩ := h
  obtain ⟨m, rfl⟩ := Nat.exists_eq_succ_of_ne_zero hn
  refine ⟨c, cs.take m, ?_, hc⟩
  rw [Text.takeChars, String.toList_ofList, hlist, List.take_succ_cons]

theorem Starts.rstrip {s : String} (h : Starts s) : Starts (rstrip s) := by
  obtain ⟨c, cs, hlist, hc⟩ := h
  have hprefix := rstrip_prefixOf s
  rw [hlist] at hprefix
  cases hrest : (Text.rstrip s).toList with
  | nil =>
    rw [Text.rstrip, String.toList_ofList, List.rdropWhile_eq_nil_iff] at hrest
    have hspace := hrest c (hlist ▸ List.mem_cons_self)
    rw [hc] at hspace
    cases hspace
  | cons c' cs' =>
    rw [hrest] at hprefix
    obtain ⟨rfl, -⟩ := List.cons_prefix_cons.mp hprefix
    exact ⟨c', cs', hrest, hc⟩

theorem Starts.append_right {s : String} (h : Starts s) (t : String) : Starts (s ++ t) := by
  obtain ⟨c, cs, hlist, hc⟩ := h
  refine ⟨c, cs ++ t.toList, ?_, hc⟩
  rw [String.toList_append, hlist, List.cons_append]

/-- A joined text starts as the first of its parts. -/
theorem Starts.intercalate {s : String} (h : Starts s) (sep : String) (l : List String) :
    Starts (sep.intercalate (s :: l)) := by
  cases l with
  | nil =>
    rw [String.intercalate_singleton]
    exact h
  | cons t l =>
    rw [String.intercalate_cons_of_ne_nil (List.cons_ne_nil _ _)]
    exact (h.append_right sep).append_right _

/-! ## Parts of a text -/

/-- `s in t` -/
def Within (s t : String) : Prop := s.toList <:+: t.toList

instance (s t : String) : Decidable (Within s t) := inferInstanceAs (Decidable (_ <:+: _))

theorem Within.refl (s : String) : Within s s := List.infix_rfl

theorem Within.trans {s t u : String} (h : Within s t) (h' : Within t u) : Within s u :=
  List.IsInfix.trans h h'

theorem strip_within (s : String) : Within (strip s) s := by
  unfold strip
  rw [Within, String.toList_ofList]
  exact (List.rdropWhile_prefix _ _).isInfix.trans (List.dropWhile_suffix _).isInfix

theorem Within.append_right {s t : String} (u : String) (h : Within s t) : Within s (t ++ u) := by
  rw [Within, String.toList_append]
  exact List.IsInfix.trans h (List.prefix_append _ _).isInfix

theorem within_append (u s : String) : Within s (u ++ s) := by
  rw [Within, String.toList_append]
  exact (List.suffix_append _ _).isInfix

/-- A part of white space is white space. -/
theorem Within.strip_eq_empty {s t : String} (h : Within s t) (ht : strip t = "") :
    strip s = "" :=
  Text.strip_eq_empty.mpr fun c hc => Text.strip_eq_empty.mp ht c (h.subset hc)

/-! ## Terminated lists -/

section Terminated
variable {α : Type} [DecidableEq α] {c : α} {l l' : List (List α)}

theorem splitOn_terminated (c : α) (l : List (List α)) :
    (l.flatMap (· ++ [c])).splitOn c = l.flatMap (List.splitOn c) ++ [[]] := by
  induction l with
  | nil => rfl
  | cons x l ih =>
    rw [List.flatMap_cons, List.flatMap_cons, List.append_assoc, List.singleton_append,
      List.splitOn_append_cons_self, ih, List.append_assoc]

/-- Terminated lists are the same one behind the other if and only if they are the same when cut at
the terminators. -/
theorem terminated_eq_iff :
    l.flatMap (· ++ [c]) = l'.flatMap (· ++ [c]) ↔
      l.flatMap (List.splitOn c) = l'.flatMap (List.splitOn c) := by
  constructor
  · intro h
    have hsplit := congrArg (List.splitOn c) h
    rw [splitOn_terminated, splitOn_terminated] at hsplit
    exact List.append_cancel_right hsplit
  · intro h
    have hjoin (l : List (List α)) : l.flatMap (· ++ [c]) =
        [c].intercalate (l.flatMap (List.splitOn c) ++ [[]]) := by
      rw [← splitOn_terminated, List.intercalate_splitOn]
    rw [hjoin, hjoin, h]

end Terminated

end Text
