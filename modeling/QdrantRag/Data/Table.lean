import Mathlib.Data.List.Nodup
import Mathlib.Data.List.Perm.Basic

/-! # Tables with a primary key

A `Table` is a list of rows no two of which share a key, the uniqueness being a field of the
structure. Rows are written by key (`Table.put`, `Table.putAll`), rewritten in place
(`Table.modify`) and removed by a predicate (`Table.remove`). The lemmas describe each operation
by the rows that are members afterwards and by the lookup `Table.find?`. -/

namespace Keyed

/-- A row type whose rows carry a key. -/
class HasKey (ρ : Type) (κ : outParam Type) where
  key : ρ → κ

open HasKey

/-- Rows with pairwise distinct keys. -/
structure Table (ρ : Type) {κ : Type} [HasKey ρ κ] where
  rows : List ρ
  nodup : (rows.map key).Nodup

namespace Table

variable {ρ κ : Type} [HasKey ρ κ] {t : Table ρ} {r x : ρ} {k : κ}

@[ext] theorem ext {t t' : Table ρ} (h : t.rows = t'.rows) : t = t' := by
  cases t; cases t'; simp_all

def empty : Table ρ := ⟨[], by simp⟩

@[simp] theorem rows_empty : (empty : Table ρ).rows = [] := rfl

theorem rows_nodup (t : Table ρ) : t.rows.Nodup := List.Nodup.of_map _ t.nodup

/-- The key determines the row. -/
theorem eq_of_key (t : Table ρ) (hr : r ∈ t.rows) (hx : x ∈ t.rows) (h : key r = key x) : r = x :=
  List.inj_on_of_nodup_map t.nodup hr hx h

/-- Remove the rows that satisfy `p`. -/
def remove (t : Table ρ) (p : ρ → Bool) : Table ρ where
  rows := t.rows.filter (!p ·)
  nodup := t.nodup.sublist (List.filter_sublist.map _)

@[simp] theorem mem_remove {p : ρ → Bool} : x ∈ (t.remove p).rows ↔ x ∈ t.rows ∧ p x = false := by
  simp [remove]

section Decidable
variable [DecidableEq κ]

/-- The row with key `k`. -/
def find? (t : Table ρ) (k : κ) : Option ρ := t.rows.find? (key · = k)

@[simp] theorem find?_empty : (empty : Table ρ).find? k = none := rfl

theorem find?_eq_some : t.find? k = some r ↔ r ∈ t.rows ∧ key r = k := by
  constructor
  · intro h
    exact ⟨List.mem_of_find?_eq_some h, by simpa using List.find?_some h⟩
  · rintro ⟨hr, rfl⟩
    cases h : t.find? (key r) with
    | none => simpa using List.find?_eq_none.mp h r hr
    | some x =>
      have hx : key x = key r := by simpa using List.find?_some h
      rw [t.eq_of_key (List.mem_of_find?_eq_some h) hr hx]

theorem find?_eq_none : t.find? k = none ↔ ∀ r ∈ t.rows, key r ≠ k := by
  simp [find?]

theorem mem_of_find? (h : t.find? k = some r) : r ∈ t.rows := (find?_eq_some.mp h).1

theorem key_of_find? (h : t.find? k = some r) : key r = k := (find?_eq_some.mp h).2

theorem find?_of_mem (h : r ∈ t.rows) : t.find? (key r) = some r := find?_eq_some.mpr ⟨h, rfl⟩

/-- Two tables with the same members have the same lookups. -/
theorem find?_congr {t t' : Table ρ} (h : ∀ x, key x = k → (x ∈ t'.rows ↔ x ∈ t.rows)) :
    t'.find? k = t.find? k := by
  cases ht : t.find? k with
  | none =>
    refine find?_eq_none.mpr fun x hx hk => ?_
    exact find?_eq_none.mp ht x ((h x hk).mp hx) hk
  | some r =>
    obtain ⟨hr, hk⟩ := find?_eq_some.mp ht
    exact find?_eq_some.mpr ⟨(h r hk).mpr hr, hk⟩

/-- Write `r`: replace the row with its key where there is one, add it as the last row else. -/
def put (t : Table ρ) (r : ρ) : Table ρ where
  rows := if key r ∈ t.rows.map key then t.rows.map fun x => if key x = key r then r else x
    else t.rows ++ [r]
  nodup := by
    split
    · have : (t.rows.map fun x => if key x = key r then r else x).map key = t.rows.map key := by
        rw [List.map_map]
        refine List.map_congr_left fun x _ => ?_
        simp only [Function.comp]
        split <;> simp [*]
      rw [this]
      exact t.nodup
    · next h =>
      rw [List.map_append, List.nodup_append]
      refine ⟨t.nodup, by simp, fun a ha b hb => ?_⟩
      rintro rfl
      obtain rfl : a = key r := by simpa using hb
      exact h ha

theorem rows_put : (t.put r).rows = if key r ∈ t.rows.map key then
    t.rows.map fun x => if key x = key r then r else x else t.rows ++ [r] := rfl

theorem mem_put : x ∈ (t.put r).rows ↔ x = r ∨ (x ∈ t.rows ∧ key x ≠ key r) := by
  by_cases h : key r ∈ t.rows.map key
  · rw [rows_put, if_pos h, List.mem_map]
    constructor
    · rintro ⟨y, hy, rfl⟩
      split
      · exact .inl rfl
      · exact .inr ⟨hy, ‹_›⟩
    · rintro (rfl | ⟨hx, hne⟩)
      · obtain ⟨y, hy, he⟩ := List.mem_map.mp h
        exact ⟨y, hy, by simp [he]⟩
      · exact ⟨x, hx, by simp [hne]⟩
  · rw [rows_put, if_neg h, List.mem_append, List.mem_singleton]
    constructor
    · rintro (hx | rfl)
      · exact .inr ⟨hx, fun he => h (he ▸ List.mem_map_of_mem hx)⟩
      · exact .inl rfl
    · rintro (rfl | ⟨hx, _⟩)
      · exact .inr rfl
      · exact .inl hx

@[simp] theorem find?_put_self : (t.put r).find? (key r) = some r :=
  find?_eq_some.mpr ⟨mem_put.mpr (.inl rfl), rfl⟩

theorem find?_put_of_ne (h : key r ≠ k) : (t.put r).find? k = t.find? k := by
  refine find?_congr fun x hx => ?_
  rw [mem_put]
  constructor
  · rintro (rfl | ⟨hx, _⟩)
    · exact absurd hx h
    · exact hx
  · exact fun hm => .inr ⟨hm, fun he => h (he ▸ hx)⟩

/-- Write a list of rows, one after the other. -/
def putAll (t : Table ρ) (rs : List ρ) : Table ρ := rs.foldl put t

@[simp] theorem putAll_nil : t.putAll [] = t := rfl

@[simp] theorem putAll_cons {rs : List ρ} : t.putAll (r :: rs) = (t.put r).putAll rs := rfl

theorem mem_of_mem_putAll {rs : List ρ} (h : x ∈ (t.putAll rs).rows) : x ∈ rs ∨ x ∈ t.rows := by
  induction rs generalizing t with
  | nil => exact .inr h
  | cons r rs ih =>
    rcases ih h with hx | hx
    · exact .inl (List.mem_cons_of_mem _ hx)
    · rcases mem_put.mp hx with rfl | ⟨hx, _⟩
      · exact .inl List.mem_cons_self
      · exact .inr hx

/-- After writing rows with distinct keys the table holds them, and the old rows under other
keys. -/
theorem mem_putAll {rs : List ρ} (hrs : (rs.map key).Nodup) :
    x ∈ (t.putAll rs).rows ↔ x ∈ rs ∨ (x ∈ t.rows ∧ ∀ r ∈ rs, key x ≠ key r) := by
  induction rs generalizing t with
  | nil => simp
  | cons r rs ih =>
    simp only [List.map_cons, List.nodup_cons] at hrs
    rw [putAll_cons, ih hrs.2, mem_put]
    constructor
    · rintro (hx | ⟨rfl | ⟨hx, hne⟩, hall⟩)
      · exact .inl (List.mem_cons_of_mem _ hx)
      · exact .inl List.mem_cons_self
      · exact .inr ⟨hx, List.forall_mem_cons.mpr ⟨hne, hall⟩⟩
    · rintro (hx | ⟨hx, hall⟩)
      · rcases List.mem_cons.mp hx with rfl | hx
        · refine .inr ⟨.inl rfl, fun y hy he => hrs.1 ?_⟩
          exact he ▸ List.mem_map_of_mem hy
        · exact .inl hx
      · obtain ⟨hne, hall⟩ := List.forall_mem_cons.mp hall
        exact .inr ⟨.inr ⟨hx, hne⟩, hall⟩

/-- A row that is none of those written stays unless its key is written. -/
theorem mem_putAll_of_notMem {rs : List ρ} (h : x ∉ rs) :
    x ∈ (t.putAll rs).rows ↔ x ∈ t.rows ∧ ∀ r ∈ rs, key x ≠ key r := by
  induction rs generalizing t with
  | nil => simp
  | cons r rs ih =>
    simp only [List.mem_cons, not_or] at h
    obtain ⟨hne, hrs⟩ := h
    rw [putAll_cons, ih hrs, mem_put, List.forall_mem_cons]
    simp only [hne, false_or, and_assoc]

/-- Rewrite the row with key `k` by a function that keeps keys. -/
def modify (t : Table ρ) (k : κ) (f : ρ → ρ) (hf : ∀ r, key (f r) = key r) : Table ρ where
  rows := t.rows.map fun x => if key x = k then f x else x
  nodup := by
    have : (t.rows.map fun x => if key x = k then f x else x).map key = t.rows.map key := by
      rw [List.map_map]
      refine List.map_congr_left fun x _ => ?_
      simp only [Function.comp]
      split <;> simp [hf]
    rw [this]
    exact t.nodup

theorem mem_modify {f : ρ → ρ} {hf : ∀ r, key (f r) = key r} :
    x ∈ (t.modify k f hf).rows ↔ ∃ y ∈ t.rows, x = if key y = k then f y else y := by
  simp [modify, eq_comm]

theorem find?_modify (f : ρ → ρ) (hf : ∀ r, key (f r) = key r) {k' : κ} :
    (t.modify k f hf).find? k' = (t.find? k').map fun x => if key x = k then f x else x := by
  cases h : t.find? k' with
  | none =>
    refine find?_eq_none.mpr fun x hx => ?_
    obtain ⟨y, hy, rfl⟩ := mem_modify.mp hx
    have := find?_eq_none.mp h y hy
    split <;> simpa [hf] using this
  | some y =>
    obtain ⟨hy, rfl⟩ := find?_eq_some.mp h
    refine find?_eq_some.mpr ⟨mem_modify.mpr ⟨y, hy, rfl⟩, ?_⟩
    beta_reduce
    split <;> simp [hf]

/-- Rewriting twice by an idempotent function. -/
theorem modify_modify (f : ρ → ρ) (hf : ∀ r, key (f r) = key r) (h : ∀ r, f (f r) = f r) :
    (t.modify k f hf).modify k f hf = t.modify k f hf := by
  apply ext
  simp only [modify, List.map_map]
  refine List.map_congr_left fun x _ => ?_
  by_cases hx : key x = k
  · simp [hx, hf, h]
  · simp [hx]

/-- Rewriting by a function that leaves the row with the key as it is. -/
theorem modify_eq_self {f : ρ → ρ} {hf : ∀ r, key (f r) = key r}
    (h : ∀ r ∈ t.rows, key r = k → f r = r) : t.modify k f hf = t := by
  apply ext
  refine (List.map_congr_left fun x hx => ?_).trans t.rows.map_id
  split
  · exact h x hx ‹_›
  · rfl

end Decidable

end Table

end Keyed
