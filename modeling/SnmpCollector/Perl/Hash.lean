import Mathlib

set_option autoImplicit false

/-! # Hashes

A hash is a finite map with distinct keys (`AList` of Mathlib). Three things are said about
it here: what a loop that stores one entry per element leaves behind (the last element with
a key wins, `lookup_load`), what deleting a set of keys leaves (`lookup_filterKeys`), and in
which order the keys are enumerated (any order, `KeyOrder`).
-/

namespace Perl

variable {β κ ν σ : Type*}

/-! ## The last element with a property -/

/-- The last element of `l` with the property `p`. -/
def lastSuch (p : β → Bool) (l : List β) : Option β := (l.filter p).getLast?

@[simp] theorem lastSuch_nil (p : β → Bool) : lastSuch p [] = none := rfl

theorem lastSuch_concat (p : β → Bool) (l : List β) (x : β) :
    lastSuch p (l ++ [x]) = if p x then some x else lastSuch p l := by
  unfold lastSuch
  by_cases hx : p x <;> simp [hx]

theorem lastSuch_append (p : β → Bool) (l m : List β) :
    lastSuch p (l ++ m) = (lastSuch p m).or (lastSuch p l) := by
  unfold lastSuch
  rw [List.filter_append, List.getLast?_append]

/-- The last one is found in the part from any one on. -/
theorem lastSuch_append_cons {p : β → Bool} {x : β} (hx : p x = true) (l m : List β) :
    lastSuch p (l ++ x :: m) = (lastSuch p m).or (some x) := by
  rw [List.append_cons, lastSuch_append, lastSuch_concat, if_pos hx]

theorem lastSuch_eq_none {p : β → Bool} {l : List β} :
    lastSuch p l = none ↔ ∀ x ∈ l, ¬ p x := by
  simp [lastSuch]

theorem lastSuch_eq_some {p : β → Bool} {l : List β} {x : β} (h : lastSuch p l = some x) :
    x ∈ l ∧ p x = true := by
  have hx : x ∈ l.filter p := List.mem_of_getLast? h
  exact List.mem_filter.mp hx

theorem lastSuch_isSome {p : β → Bool} {l : List β} {x : β} (hx : x ∈ l) (hp : p x = true) :
    ∃ y, lastSuch p l = some y := by
  cases h : lastSuch p l with
  | none => exact absurd hp (lastSuch_eq_none.mp h x hx)
  | some y => exact ⟨y, rfl⟩

theorem lastSuch_congr {p q : β → Bool} {l : List β} (h : ∀ x ∈ l, p x = q x) :
    lastSuch p l = lastSuch q l := by
  unfold lastSuch
  rw [List.filter_congr h]

theorem lastSuch_map {γ : Type*} (f : γ → β) (p : β → Bool) (l : List γ) :
    lastSuch p (l.map f) = (lastSuch (p ∘ f) l).map f := by
  unfold lastSuch
  rw [List.filter_map, List.getLast?_map]

/-- The only element with the property is the last one. -/
theorem lastSuch_eq_of_unique {p : β → Bool} {l : List β} {x : β} (hx : x ∈ l) (hp : p x = true)
    (huniq : ∀ y ∈ l, p y = true → y = x) : lastSuch p l = some x := by
  obtain ⟨y, hy⟩ := lastSuch_isSome hx hp
  obtain ⟨hmem, hpy⟩ := lastSuch_eq_some hy
  rw [hy, huniq y hmem hpy]

/-- The last element with a property is also the last one with a stronger property that it has. -/
theorem lastSuch_of_imp {p q : β → Bool} {l : List β} {x : β} (h : lastSuch p l = some x)
    (himp : ∀ y, q y = true → p y = true) (hq : q x = true) : lastSuch q l = some x := by
  induction l using List.reverseRecOn with
  | nil => simp at h
  | append_singleton l y ih =>
      rw [lastSuch_concat] at h ⊢
      by_cases hp : p y = true
      · rw [if_pos hp] at h
        cases h
        rw [if_pos hq]
      · rw [if_neg hp] at h
        rw [if_neg fun hy => hp (himp y hy)]
        exact ih h

theorem lastSuch_filter (p q : β → Bool) (l : List β) :
    lastSuch p (l.filter q) = lastSuch (fun x => q x && p x) l := by
  unfold lastSuch
  rw [List.filter_filter]
  congr 2
  funext x
  exact Bool.and_comm _ _

/-! ## Loading -/

/-- A finite map with distinct keys. -/
abbrev Hash (κ ν : Type*) := AList (fun _ : κ => ν)

variable [DecidableEq κ]

/-- The text stored under `k`; a key that is not there reads as the empty text. -/
def fetch {α : Type*} (h : Hash κ (List α)) (k : κ) : List α := (h.lookup k).getD []

theorem fetch_insert {α : Type*} (h : Hash κ (List α)) (k k' : κ) (v : List α) :
    fetch (h.insert k v) k' = if k' = k then v else fetch h k' := by
  rw [fetch]
  split
  · rename_i heq
    rw [heq, AList.lookup_insert, Option.getD_some]
  · rename_i hne
    rw [AList.lookup_insert_ne hne]
    rfl

/-- Texts that are not empty, or no text, are told apart by what is read. -/
theorem getD_nil_inj {α : Type*} {x y : Option (List α)} (hx : ∀ v, x = some v → v ≠ [])
    (hy : ∀ v, y = some v → v ≠ []) : x.getD [] = y.getD [] ↔ x = y := by
  cases x with
  | none =>
      cases y with
      | none => simp
      | some v => simpa using (hy v rfl).symm
  | some u =>
      cases y with
      | none => simpa using hx u rfl
      | some v => simp

/-- The loop `foreach x (l) { h{key x} = val x }`. -/
def load (key : β → κ) (val : β → ν) (h : Hash κ ν) (l : List β) : Hash κ ν :=
  l.foldl (fun h x => h.insert (key x) (val x)) h

/-- A loop that enters in one of its tables what `row` finds in each element. -/
theorem foldl_eq_load {γ τ : Type*} (tab : τ → Hash κ ν) {step : τ → γ → τ} {row : γ → Option β}
    {key : β → κ} {val : β → ν} {l : List γ}
    (hstep : ∀ x ∈ l, ∀ s, tab (step s x) = load key val (tab s) (row x).toList) (s : τ) :
    tab (l.foldl step s) = load key val (tab s) (l.filterMap row) := by
  induction l generalizing s with
  | nil => rfl
  | cons x l ih =>
      rw [List.foldl_cons, ih fun y hy => hstep y (List.mem_cons_of_mem x hy),
        hstep x List.mem_cons_self]
      cases hrow : row x with
      | none => rw [List.filterMap_cons_none hrow]; rfl
      | some r => rw [List.filterMap_cons_some hrow]; rfl

/-- **The last element with a key wins**; a key without an element keeps its old value. -/
theorem lookup_load (key : β → κ) (val : β → ν) (h : Hash κ ν) (l : List β) (k : κ) :
    (load key val h l).lookup k
      = ((lastSuch (fun x => decide (key x = k)) l).map val).or (h.lookup k) := by
  induction l using List.reverseRecOn with
  | nil => rfl
  | append_singleton l x ih =>
      have hstep : load key val h (l ++ [x]) = (load key val h l).insert (key x) (val x) := by
        simp [load]
      rw [hstep, lastSuch_concat]
      by_cases hk : key x = k
      · subst hk
        simp
      · rw [AList.lookup_insert_ne (Ne.symm hk), ih]
        simp [hk]

theorem mem_load (key : β → κ) (val : β → ν) (h : Hash κ ν) (l : List β) (k : κ) :
    k ∈ load key val h l ↔ k ∈ h ∨ ∃ x ∈ l, key x = k := by
  rw [← AList.lookup_isSome, lookup_load, ← AList.lookup_isSome]
  cases hl : lastSuch (fun x => decide (key x = k)) l with
  | none =>
      have hn := lastSuch_eq_none.mp hl
      simp only [Option.map_none, Option.none_or]
      refine ⟨Or.inl, fun hk => hk.resolve_right ?_⟩
      rintro ⟨x, hx, hxk⟩
      exact hn x hx (by simpa using hxk)
  | some x =>
      obtain ⟨hx, hxk⟩ := lastSuch_eq_some hl
      simp only [Option.map_some, Option.some_or, Option.isSome_some, true_iff]
      exact Or.inr ⟨x, hx, by simpa using hxk⟩

/-- A loop that stores all its elements under one key. -/
theorem keys_load_const (k : κ) (val : β → ν) {l : List β} (hl : l ≠ []) :
    (load (fun _ => k) val ∅ l).keys = [k] := by
  induction l using List.reverseRecOn with
  | nil => exact absurd rfl hl
  | append_singleton l x ih =>
      have hstep : load (fun _ => k) val ∅ (l ++ [x])
          = (load (fun _ => k) val ∅ l).insert k (val x) := by
        simp [load]
      rw [hstep, AList.keys_insert]
      rcases eq_or_ne l [] with rfl | hne
      · rfl
      · rw [ih hne]
        simp

/-! ## Deleting -/

/-- The entries whose key has the property `p`. -/
def filterKeys (p : κ → Bool) (h : Hash κ ν) : Hash κ ν :=
  ⟨h.entries.filter (fun e => p e.1), h.nodupKeys.sublist List.filter_sublist⟩

theorem lookup_filterKeys (p : κ → Bool) (h : Hash κ ν) (k : κ) :
    (filterKeys p h).lookup k = if p k then h.lookup k else none := by
  show List.dlookup k (h.entries.filter (fun e => p e.1)) = if p k then h.entries.dlookup k else none
  induction h.entries with
  | nil => simp
  | cons e l ih =>
      obtain ⟨k', v⟩ := e
      by_cases hkk : k' = k
      · subst hkk
        by_cases hp : p k'
        · simp [hp]
        · rw [List.filter_cons_of_neg (by simpa using hp), ih]
          simp [hp]
      · by_cases hp' : p k'
        · rw [List.filter_cons_of_pos (by simpa using hp'),
            List.dlookup_cons_ne _ _ (Ne.symm hkk), ih, List.dlookup_cons_ne _ _ (Ne.symm hkk)]
        · rw [List.filter_cons_of_neg (by simpa using hp'), ih,
            List.dlookup_cons_ne _ _ (Ne.symm hkk)]

/-! ## Enumerating -/

/-- The orders in which a program enumerates the keys of its hashes: at every place `s` of
the program some permutation of the keys. -/
structure KeyOrder (σ κ : Type*) where
  keys : σ → List κ → List κ
  perm : ∀ s l, (keys s l).Perm l

namespace KeyOrder

/-- Every hash is enumerated in the order in which it is stored. -/
def stored : KeyOrder σ κ := ⟨fun _ l => l, fun _ l => List.Perm.refl l⟩

variable (o : KeyOrder σ κ)

omit [DecidableEq κ] in
@[simp] theorem mem_keys (s : σ) (l : List κ) (k : κ) : k ∈ o.keys s l ↔ k ∈ l :=
  (o.perm s l).mem_iff

omit [DecidableEq κ] in
theorem nodup_keys (s : σ) {l : List κ} (h : l.Nodup) : (o.keys s l).Nodup :=
  (o.perm s l).nodup_iff.mpr h

omit [DecidableEq κ] in
/-- An enumeration of the keys of the elements `xs` goes through the elements in some order. -/
theorem exists_map_eq (s : σ) {key : β → κ} {l : List κ} {xs : List β} (h : l.Perm (xs.map key)) :
    ∃ ys : List β, ys.Perm xs ∧ o.keys s l = ys.map key := by
  have hperm : (o.keys s l).Perm (xs.map key) := (o.perm s l).trans h
  have hrel := (congrFun₂ (List.eq_map_comp_perm key) (o.keys s l) xs).mpr hperm
  obtain ⟨ys, hys, hp⟩ := hrel
  exact ⟨ys, hp, hys⟩

/-- The keys `l` are enumerated in the order `l'` at the place `s`, all else as before. -/
def com [DecidableEq σ] (s : σ) {l l' : List κ} (h : l'.Perm l) : KeyOrder σ κ where
  keys s' m := if s' = s ∧ m = l then l' else o.keys s' m
  perm s' m := by
    split
    · rename_i heq
      rw [heq.2]
      exact h
    · exact o.perm s' m

theorem keys_com [DecidableEq σ] (s : σ) {l l' : List κ} (h : l'.Perm l) :
    (o.com s h).keys s l = l' := if_pos ⟨rfl, rfl⟩

end KeyOrder

end Perl
