import Mathlib

set_option autoImplicit false

/-! # Loops that may end the program

A loop body that may end the program returns the state in which the program stops (`error`)
or the state with which the loop goes on (`ok`). When it depends on the element alone whether
the body ends the program, a run of the loop does to the state what the elements up to the
first such one do, that one included (`foldlM_upTo`).
-/

namespace Perl

variable {β σ : Type*}

/-- The elements of `l` up to the first one with the property `p`, that one included. -/
def upTo (p : β → Bool) : List β → List β
  | [] => []
  | x :: l => if p x then [x] else x :: upTo p l

theorem upTo_subset (p : β → Bool) (l : List β) : upTo p l ⊆ l := by
  induction l with
  | nil => simp [upTo]
  | cons x l ih =>
      rw [upTo]
      split
      · simp
      · exact List.cons_subset_cons x ih

theorem upTo_eq_self {p : β → Bool} {l : List β} (h : l.any p = false) : upTo p l = l := by
  induction l with
  | nil => rfl
  | cons x l ih =>
      rw [List.any_cons, Bool.or_eq_false_iff] at h
      rw [upTo, if_neg (by simp [h.1]), ih h.2]

theorem upTo_map {γ : Type*} (p : β → Bool) (f : γ → β) (l : List γ) :
    upTo p (l.map f) = (upTo (fun x => p (f x)) l).map f := by
  induction l with
  | nil => rfl
  | cons x l ih =>
      rw [List.map_cons, upTo, upTo]
      split
      · rfl
      · rw [ih, List.map_cons]

/-- Only the last of these elements can have the property. -/
theorem upTo_eq_concat {p : β → Bool} {l : List β} (h : l.any p = true) :
    ∃ pre x, upTo p l = pre ++ [x] ∧ p x = true ∧ ∀ y ∈ pre, p y = false := by
  induction l with
  | nil => simp at h
  | cons y l ih =>
      by_cases hy : p y = true
      · exact ⟨[], y, by simp [upTo, hy], hy, by simp⟩
      · rw [List.any_cons, Bool.or_eq_true] at h
        obtain ⟨pre, x, heq, hx, hpre⟩ := ih (h.resolve_left hy)
        refine ⟨y :: pre, x, by simp [upTo, hy, heq], hx, fun z hz => ?_⟩
        rcases List.mem_cons.mp hz with rfl | hz
        · simpa using hy
        · exact hpre z hz

/-- The state in which the program stops. -/
def fim : Except σ σ → σ
  | .ok s => s
  | .error s => s

@[simp] theorem fim_ok (s : σ) : fim (.ok s : Except σ σ) = s := rfl

@[simp] theorem fim_error (s : σ) : fim (.error s : Except σ σ) = s := rfl

section Loop

variable {f : σ → β → Except σ σ} {p : β → Bool}

/-- **A loop that may end the program**, when the element alone decides whether it does. -/
theorem foldlM_upTo (h : ∀ s x, f s x = if p x then .error (fim (f s x)) else .ok (fim (f s x)))
    (l : List β) (s : σ) :
    l.foldlM f s = if l.any p then .error ((upTo p l).foldl (fun s x => fim (f s x)) s)
      else .ok ((upTo p l).foldl (fun s x => fim (f s x)) s) := by
  induction l generalizing s with
  | nil => rfl
  | cons x l ih =>
      rw [List.foldlM_cons, h s x, List.any_cons, upTo]
      by_cases hx : p x = true
      · simp only [hx, if_true, Bool.true_or]
        rfl
      · have hx' : p x = false := by simpa using hx
        simp only [hx', Bool.false_eq_true, if_false, Bool.false_or, List.foldl_cons]
        exact ih _

theorem fim_foldlM_upTo
    (h : ∀ s x, f s x = if p x then .error (fim (f s x)) else .ok (fim (f s x)))
    (l : List β) (s : σ) : fim (l.foldlM f s) = (upTo p l).foldl (fun s x => fim (f s x)) s := by
  rw [foldlM_upTo h]
  split <;> rfl

end Loop

end Perl
