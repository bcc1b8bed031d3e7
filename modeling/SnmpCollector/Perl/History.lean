import Mathlib

set_option autoImplicit false

/-! # Bounded histories

A history is a list with the newest entries first. A new entry is a block of elements that is
put in front, of the old elements only the first `n` are kept (`push n`). After a sequence of
blocks the last one is there whole, and of everything before it the first `n` elements
(`foldl_push_concat`). From this follows how much of the old elements is still there
(`take_sublist_push`), and that nothing less would do when the new elements are none of the
old ones (`length_of_take_sublist_push`).
-/

namespace Perl

variable {α : Type*}

/-- The block `x` in front of the first `n` elements of the history. -/
def push (n : Nat) (l x : List α) : List α := x ++ l.take n

/-- **A bounded history after a sequence of blocks.** -/
theorem foldl_push_concat (n : Nat) (l : List α) (xs : List (List α)) (x : List α) :
    (xs ++ [x]).foldl (push n) l = x ++ (xs.reverse.flatten ++ l).take n := by
  induction xs using List.reverseRecOn generalizing x with
  | nil => rfl
  | append_singleton xs y ih =>
      rw [List.foldl_append, ih, List.foldl_cons, List.foldl_nil, push, List.reverse_concat,
        List.flatten_cons, List.append_assoc, @List.take_append _ _ (List.take n _),
        List.take_take, Nat.min_eq_left (Nat.sub_le n y.length), ← List.take_append]

/-- **A bounded history of single entries** is the newest `n + 1` of them, newest first. -/
theorem foldl_push_singletons (n : Nat) (xs : List α) :
    (xs.map fun x => [x]).foldl (push n) [] = xs.reverse.take (n + 1) := by
  induction xs using List.reverseRecOn with
  | nil => rfl
  | append_singleton xs x ih =>
      rw [List.map_append, List.foldl_append, ih, List.map_singleton, List.foldl_cons,
        List.foldl_nil, push, List.reverse_concat, List.take_take, List.take_succ_cons,
        Nat.min_eq_left (Nat.le_succ n)]
      rfl

section Keep

variable {n : Nat} {l y : List α}

/-- The first `n` old elements are still there when they fit behind what was put in front
of them before the last block. -/
theorem take_sublist_push (h : l = [] ∨ min l.length n + y.length ≤ n) (x : List α) :
    (l.take n).Sublist (x ++ (y ++ l).take n) := by
  rcases h with rfl | h
  · simp
  · rw [List.take_append, List.take_of_length_le (l := y) (by omega)]
    have hsame : l.take n = l.take (n - y.length) := by
      rcases Nat.lt_or_ge (n - y.length) l.length with hl | hl
      · have hy : n - y.length = n := by omega
        rw [hy]
      · rw [List.take_of_length_le hl, List.take_of_length_le (by omega)]
    rw [hsame]
    exact (List.sublist_append_right _ _).trans (List.sublist_append_right _ _)

/-- When no new element is an old one, nothing less is enough. -/
theorem length_of_take_sublist_push (hn : 0 < n) {x : List α} (hx : ∀ a ∈ x, a ∉ l)
    (hy : ∀ a ∈ y, a ∉ l) (h : (l.take n).Sublist (x ++ (y ++ l).take n)) :
    l = [] ∨ min l.length n + y.length ≤ n := by
  classical
  -- only the elements of `l` itself count
  have hold : ∀ m, (l.take m).filter (· ∈ l) = l.take m := fun m =>
    List.filter_eq_self.mpr fun a ha => by simpa using List.mem_of_mem_take ha
  have hnew : ∀ m (z : List α), (∀ a ∈ z, a ∉ l) → (z.take m).filter (· ∈ l) = [] := fun m z hz =>
    List.filter_eq_nil_iff.mpr fun a ha => by simpa using hz a (List.mem_of_mem_take ha)
  have hf := h.filter (fun a => decide (a ∈ l))
  have hx' := hnew x.length x hx
  rw [List.take_length] at hx'
  rw [hold, List.filter_append, hx', List.nil_append, List.take_append, List.filter_append,
    hnew n y hy, List.nil_append, hold] at hf
  have hlen := hf.length_le
  rw [List.length_take, List.length_take] at hlen
  by_cases hl : l.length = 0
  · exact Or.inl (List.length_eq_zero_iff.mp hl)
  · exact Or.inr (by omega)

end Keep

end Perl
