import Mathlib

set_option autoImplicit false

/-! # Steps that act on one key

The state of a program is seen through the value that it holds for each key. A step that
changes the value of one key only, and looks at no other value to do so, takes part in the run
of that key alone (`KeyedStep.foldl`): the value of a key after a run is what the steps of this
key make of it, in whatever way the steps of the other keys are mixed in between.
-/

namespace Perl

variable {σ κ β α : Type*} [DecidableEq κ]

/-- The step `x` makes `f x` of the value of its key, and leaves the other keys alone. -/
structure KeyedStep (obs : σ → κ → α) (key : β → κ) (f : β → α → α) (step : σ → β → σ) :
    Prop where
  self : ∀ s x, obs (step s x) (key x) = f x (obs s (key x))
  other : ∀ s x k, key x ≠ k → obs (step s x) k = obs s k

namespace KeyedStep

variable {obs : σ → κ → α} {key : β → κ} {f : β → α → α} {step : σ → β → σ}

/-- **A run, seen from one key.** -/
theorem foldl (h : KeyedStep obs key f step) (l : List β) (s : σ) (k : κ) :
    obs (l.foldl step s) k
      = (l.filter (fun x => decide (key x = k))).foldl (fun a x => f x a) (obs s k) := by
  induction l generalizing s with
  | nil => rfl
  | cons x l ih =>
      rw [List.foldl_cons, ih]
      by_cases hx : key x = k
      · rw [List.filter_cons_of_pos (by simpa using hx), List.foldl_cons, ← hx, h.self]
      · rw [List.filter_cons_of_neg (by simpa using hx), h.other s x k hx]

/-- Steps without an effect on their value can be left out. -/
theorem foldl_filter (h : KeyedStep obs key f step) {p : β → Bool}
    (hp : ∀ x, p x = false → f x = id) (l : List β) (s : σ) (k : κ) :
    obs (l.foldl step s) k
      = (l.filter (fun x => p x && decide (key x = k))).foldl (fun a x => f x a) (obs s k) := by
  rw [h.foldl, ← List.filter_filter]
  generalize l.filter (fun x => decide (key x = k)) = l', obs s k = a
  induction l' generalizing a with
  | nil => rfl
  | cons x l' ih =>
      cases hx : p x with
      | true => rw [List.filter_cons_of_pos hx, List.foldl_cons, List.foldl_cons, ih]
      | false =>
          rw [List.filter_cons_of_neg (by simp [hx]), List.foldl_cons, hp x hx, id, ih]

end KeyedStep

end Perl
