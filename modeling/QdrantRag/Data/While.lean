import Mathlib.Logic.Basic

/-! # While loops

`While c f a b`: the loop that goes on by `f` as long as `c` holds leads from `a` to `b`. It bounds
the rounds by nothing, so that there is a `b` at all is the termination of the loop. A function that
runs the loop on fuel finds the `b` where a measure of the state is fuel enough
(`While.of_fuel`). -/

variable {α : Type} {c : α → Prop} {f : α → α} {a b b' : α}

/-- `while c(x): x = f(x)`, run to its end. -/
inductive While (c : α → Prop) (f : α → α) : α → α → Prop
  | done {x : α} (h : ¬ c x) : While c f x x
  | round {x y : α} (h : c x) (rest : While c f (f x) y) : While c f x y

namespace While

/-- The loop ends where its condition fails. -/
theorem exit (h : While c f a b) : ¬ c b := by
  induction h with
  | done h => exact h
  | round _ _ ih => exact ih

/-- **The invariant rule.** What every round keeps, the loop keeps. -/
theorem rule (I : α → Prop) (hround : ∀ x, c x → I x → I (f x)) (h : While c f a b) (h0 : I a) :
    I b := by
  induction h with
  | done => exact h0
  | round hc _ ih => exact ih (hround _ hc h0)

/-- A loop ends in one way only. -/
theorem unique (h : While c f a b) (h' : While c f a b') : b = b' := by
  induction h with
  | done hn =>
    cases h' with
    | done => rfl
    | round hc => exact absurd hc hn
  | round hc _ ih =>
    cases h' with
    | done hn => exact absurd hc hn
    | round _ rest => exact ih rest

/-- Where every round makes a measure smaller, the measure is fuel enough. -/
theorem of_fuel [DecidablePred c] {g : Nat → α → α} (hzero : ∀ x, g 0 x = x)
    (hsucc : ∀ n x, g (n + 1) x = if c x then g n (f x) else x) (m : α → Nat)
    (hround : ∀ x, c x → m (f x) < m x) {n : Nat} (hn : m a ≤ n) : While c f a (g n a) := by
  induction n generalizing a with
  | zero =>
    rw [hzero]
    apply done
    intro hc
    have hlt := hround a hc
    omega
  | succ n ih =>
    rw [hsucc]
    split
    · next hc =>
      apply round hc
      apply ih
      have hlt := hround a hc
      omega
    · next hc => exact done hc

end While
