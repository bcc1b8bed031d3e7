import Mathlib

set_option autoImplicit false

/-! # Since when a value has been the same

A value is observed from time to time, or missed. What is carried from one observation to the
next is the value and the time of the observation in which it appeared; a missed observation
forgets both. `exists_block` says what is carried at the end: the value of the last
observations, and the time of the first of them.
-/

namespace Perl

variable {α ν : Type*} [DecidableEq α]

/-- One observation: its time, and the value if there is one. -/
def sinceStep (prev : Option (α × ν)) (o : ν × Option α) : Option (α × ν) :=
  match o.2, prev with
  | none, _ => none
  | some s, none => some (s, o.1)
  | some s, some (s', t') => if s' = s then some (s, t') else some (s, o.1)

/-- What is carried after the observations, the oldest first. -/
def since (obs : List (ν × Option α)) : Option (α × ν) := obs.foldl sinceStep none

theorem since_concat (obs : List (ν × Option α)) (o : ν × Option α) :
    since (obs ++ [o]) = sinceStep (since obs) o := by
  simp [since]

/-- The value is the one of the last observation. -/
theorem map_fst_since (obs : List (ν × Option α)) :
    (since obs).map Prod.fst = obs.getLast?.bind Prod.snd := by
  induction obs using List.reverseRecOn with
  | nil => rfl
  | append_singleton obs o _ =>
      rw [since_concat, List.getLast?_concat, Option.bind_some]
      obtain ⟨t, x⟩ := o
      cases x with
      | none => rfl
      | some s =>
          cases since obs with
          | none => rfl
          | some c =>
              simp only [sinceStep]
              split <;> rfl

/-- **What is carried**: the value of a block of observations at the end, before which there was
another value or none, and the time of the first one of the block. -/
theorem exists_block {obs : List (ν × Option α)} {s : α} {t : ν} (h : since obs = some (s, t)) :
    ∃ pre blk, obs = pre ++ blk ∧ (∀ o ∈ blk, o.2 = some s) ∧ blk.head?.map Prod.fst = some t ∧
      ∀ o, pre.getLast? = some o → o.2 ≠ some s := by
  induction obs using List.reverseRecOn generalizing t with
  | nil => cases h
  | append_singleton obs o ih =>
      obtain ⟨u, x⟩ := o
      rw [since_concat] at h
      cases x with
      | none => cases h
      | some s' =>
          -- the block goes on with this observation, or begins with it
          have hnew : ∀ c, since obs = c → c.map Prod.fst ≠ some s' → s' = s → u = t →
              ∃ pre blk, obs ++ [(u, some s')] = pre ++ blk ∧ (∀ o ∈ blk, o.2 = some s) ∧
                blk.head?.map Prod.fst = some t ∧ ∀ o, pre.getLast? = some o → o.2 ≠ some s := by
            rintro c hc hne rfl rfl
            refine ⟨obs, [(u, some s')], rfl, by simp, rfl, fun o ho hs => hne ?_⟩
            rw [← hc, map_fst_since, ho, Option.bind_some, hs]
          cases hc : since obs with
          | none =>
              rw [hc] at h
              obtain ⟨rfl, rfl⟩ : s' = s ∧ u = t := by simpa [sinceStep] using h
              exact hnew none hc (by simp) rfl rfl
          | some c =>
              obtain ⟨sc, tc⟩ := c
              rw [hc] at h
              by_cases heq : sc = s'
              · obtain ⟨rfl, rfl⟩ : s' = s ∧ tc = t := by simpa [sinceStep, heq] using h
                obtain ⟨pre, blk, rfl, hblk, hhead, hpre⟩ := ih (heq ▸ hc)
                refine ⟨pre, blk ++ [(u, some s')], by simp, fun o ho => ?_, ?_, hpre⟩
                · rcases List.mem_append.mp ho with ho | ho
                  · exact hblk o ho
                  · rw [List.mem_singleton.mp ho]
                · cases blk with
                  | nil => cases hhead
                  | cons b blk => exact hhead
              · obtain ⟨rfl, rfl⟩ : s' = s ∧ u = t := by simpa [sinceStep, heq] using h
                exact hnew (some (sc, tc)) hc (by simpa using heq) rfl rfl

end Perl
