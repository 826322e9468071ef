import Mathlib.Data.List.Basic

/-! # Values that were checked

A check gives a value or all the errors it found (`Checked`). A record is checked field by field
and a list element by element, and the errors of all parts are collected; the record or list is
accepted if and only if each part is (`both_eq_ok`, `all_eq_ok`). `Gives c P a` says when a check on
known data accepts and what it gives then; the rules for it follow how the check is built. -/

/-- A value, or the errors found in checking it. -/
abbrev Checked (ε α : Type) := Except (List ε) α

namespace Checked

variable {ε ε' α β : Type}

/-- One error. -/
def fail (e : ε) : Checked ε α := .error [e]

/-- Both values, or the errors of both. -/
def both : Checked ε α → Checked ε β → Checked ε (α × β)
  | .ok a, .ok b => .ok (a, b)
  | .error e, .ok _ => .error e
  | .ok _, .error e => .error e
  | .error e, .error e' => .error (e ++ e')

/-- All values, or the errors of all. -/
def all : List (Checked ε α) → Checked ε (List α)
  | [] => .ok []
  | c :: cs => (both c (all cs)).map fun (a, as) => a :: as

/-- Errors reported elsewhere. -/
def mapErrors (f : ε → ε') : Checked ε α → Checked ε' α
  | .ok a => .ok a
  | .error es => .error (es.map f)

@[simp] theorem fail_eq_ok {e : ε} {a : α} : (fail e : Checked ε α) = .ok a ↔ False := by
  simp [fail]

@[simp] theorem both_eq_ok {c : Checked ε α} {c' : Checked ε β} {p : α × β} :
    both c c' = .ok p ↔ c = .ok p.1 ∧ c' = .ok p.2 := by
  cases c <;> cases c' <;> simp [both, Prod.ext_iff]

@[simp] theorem map_eq_ok {f : α → β} {c : Checked ε α} {b : β} :
    Except.map f c = .ok b ↔ ∃ a, c = .ok a ∧ f a = b := by
  cases c <;> simp [Except.map]

@[simp] theorem mapErrors_eq_ok {f : ε → ε'} {c : Checked ε α} {a : α} :
    mapErrors f c = .ok a ↔ c = .ok a := by
  cases c <;> simp [mapErrors]

theorem all_eq_ok {cs : List (Checked ε α)} {as : List α} :
    all cs = .ok as ↔ List.Forall₂ (fun c a => c = .ok a) cs as := by
  induction cs generalizing as with
  | nil =>
    constructor
    · rintro ⟨⟩
      exact .nil
    · rintro ⟨⟩
      rfl
  | cons c cs ih =>
    rw [all, map_eq_ok]
    constructor
    · rintro ⟨⟨a, as⟩, h, rfl⟩
      obtain ⟨ha, has⟩ := both_eq_ok.mp h
      exact .cons ha (ih.mp has)
    · rintro ⟨⟩
      rename_i a as ha has
      exact ⟨(a, as), both_eq_ok.mpr ⟨ha, ih.mpr has⟩, rfl⟩

/-! ## What a check gives -/

section Gives
variable {η η' : Type} {c : Except η α} {c' : Except η' β} {P Q : Prop} {a : α} {b : β}

/-- The check accepts if and only if `P`, and gives `a` then. -/
def Gives (c : Except η α) (P : Prop) (a : α) : Prop := ∀ a', c = .ok a' ↔ P ∧ a = a'

theorem gives_ok (a : α) : Gives (.ok a : Except η α) True a := by
  intro a'
  rw [Except.ok.injEq, true_and]

theorem gives_error (e : η) (a : α) : Gives (.error e : Except η α) False a := by
  intro a'
  simp only [reduceCtorEq, false_and]

namespace Gives

theorem congr (h : Gives c P a) (hPQ : P ↔ Q) : Gives c Q a := by
  intro a'
  rw [h a', hPQ]

theorem cases (h : Gives c P a) : (P ∧ c = .ok a) ∨ ¬ P ∧ ∃ e, c = .error e := by
  cases hc : c with
  | error e =>
    refine .inr ⟨fun hP => ?_, e, rfl⟩
    cases hc.symm.trans ((h a).mpr ⟨hP, rfl⟩)
  | ok a' =>
    obtain ⟨hP, rfl⟩ := (h a').mp hc
    exact .inl ⟨hP, rfl⟩

/-- A check that goes on only where the one before accepted. -/
theorem bind {f : α → Except η β} {R : Prop} (h : Gives c P a) (hf : P → Gives (f a) R b) :
    Gives (c.bind f) (P ∧ R) b := by
  rcases h.cases with ⟨hP, rfl⟩ | ⟨hP, e, rfl⟩
  · exact (hf hP).congr (iff_and_self.mpr fun _ => hP)
  · exact (gives_error e b).congr (iff_of_false id fun h => hP h.1)

/-- A check refused where `p`. -/
theorem ite_error {p : Prop} [Decidable p] {e : η} (h : ¬ p → Gives c P a) :
    Gives (if p then .error e else c) (¬ p ∧ P) a := by
  split
  · next hp => exact (gives_error e a).congr (iff_of_false id fun h => h.1 hp)
  · next hp => exact (h hp).congr (iff_and_self.mpr fun _ => hp)

/-- Two checks agree on what they accept and on what they give. -/
theorem agree_iff {c' : Except η' α} {a' : α} (h : Gives c P a) (h' : Gives c' Q a') :
    (∀ x, c = .ok x ↔ c' = .ok x) ↔ (P ↔ Q) ∧ (P → a = a') := by
  constructor
  · intro hagree
    have hPQ (hP : P) : Q ∧ a' = a := (h' a).mp ((hagree a).mp ((h a).mpr ⟨hP, rfl⟩))
    refine ⟨⟨fun hP => (hPQ hP).1, fun hQ => ?_⟩, fun hP => (hPQ hP).2.symm⟩
    exact ((h a').mp ((hagree a').mpr ((h' a').mpr ⟨hQ, rfl⟩))).1
  · rintro ⟨hPQ, ha⟩ x
    rw [h x, h' x, ← hPQ]
    refine and_congr_right fun hP => ?_
    rw [ha hP]

end Gives

theorem Gives.both {c : Checked ε α} {c' : Checked ε β} (h : Gives c P a) (h' : Gives c' Q b) :
    Gives (both c c') (P ∧ Q) (a, b) := by
  intro p
  rw [both_eq_ok, h, h', Prod.ext_iff]
  tauto

theorem Gives.map {c : Checked ε α} (f : α → β) (h : Gives c P a) :
    Gives (Except.map f c) P (f a) := by
  intro b
  rw [map_eq_ok]
  constructor
  · rintro ⟨a', ha', rfl⟩
    obtain ⟨hP, rfl⟩ := (h a').mp ha'
    exact ⟨hP, rfl⟩
  · rintro ⟨hP, rfl⟩
    exact ⟨a, (h a).mpr ⟨hP, rfl⟩, rfl⟩

theorem Gives.mapErrors {c : Checked ε α} (f : ε → ε') (h : Gives c P a) :
    Gives (mapErrors f c) P a := by
  intro a'
  rw [mapErrors_eq_ok, h]

end Gives

end Checked
