import Mathlib

set_option autoImplicit false

/-! # Doubly linked lists

Records in a heap point to the one before and the one after; two pointers are kept to the first and
to the last one. `Represents q l` says that the records of `q` are those of the list `l`, in its
order. `splice` puts a record between two neighbours and `unlink` takes one out; `splice_represents`
and `unlink_represents` say which list is represented afterwards.
-/

namespace Perl

/-- A record of a list: what it holds, and its two neighbours. -/
structure Node (α : Type) where
  value : α
  previous : Option Nat
  next : Option Nat

abbrev Heap (α : Type) := Nat → Option (Node α)

/-- The heap with the ends of a list in it. -/
structure Linked (α : Type) where
  heap : Heap α
  head : Option Nat
  tail : Option Nat

namespace Linked

variable {α : Type}

/-! ## Pointers -/

/-- `$p->[_NEXT] = n`, when there is such a record. -/
def setNext (heap : Heap α) (p : Option Nat) (n : Option Nat) : Heap α :=
  match p with
  | none => heap
  | some i => Function.update heap i ((heap i).map fun x => { x with next := n })

/-- `$n->[_PREVIOUS] = p`, when there is such a record. -/
def setPrevious (heap : Heap α) (n : Option Nat) (p : Option Nat) : Heap α :=
  match n with
  | none => heap
  | some i => Function.update heap i ((heap i).map fun x => { x with previous := p })

theorem setNext_of_ne (heap : Heap α) {p : Option Nat} (n : Option Nat) {i : Nat} (h : p ≠ some i) :
    setNext heap p n i = heap i := by
  cases p with
  | none => rfl
  | some j => exact Function.update_of_ne (fun hij => h (by rw [hij])) _ _

theorem setPrevious_of_ne (heap : Heap α) {n : Option Nat} (p : Option Nat) {i : Nat}
    (h : n ≠ some i) : setPrevious heap n p i = heap i := by
  cases n with
  | none => rfl
  | some j => exact Function.update_of_ne (fun hij => h (by rw [hij])) _ _

/-- The first record of a list that is followed by `n`. -/
def first (l : List (Nat × α)) (n : Option Nat) : Option Nat := (l.head?.map Prod.fst).or n

/-- The last record of a list that follows `p`. -/
def last (p : Option Nat) (l : List (Nat × α)) : Option Nat := (l.getLast?.map Prod.fst).or p

@[simp] theorem first_nil (n : Option Nat) : first ([] : List (Nat × α)) n = n := rfl

@[simp] theorem first_cons (x : Nat × α) (l : List (Nat × α)) (n : Option Nat) :
    first (x :: l) n = some x.1 := rfl

@[simp] theorem last_nil (p : Option Nat) : last p ([] : List (Nat × α)) = p := rfl

@[simp] theorem last_concat (p : Option Nat) (l : List (Nat × α)) (x : Nat × α) :
    last p (l ++ [x]) = some x.1 := by
  simp [last]

theorem last_cons (p : Option Nat) (x : Nat × α) (l : List (Nat × α)) :
    last p (x :: l) = last (some x.1) l := by
  rw [last, last, List.getLast?_cons]
  cases l.getLast? <;> rfl

theorem last_append (p : Option Nat) (as bs : List (Nat × α)) :
    last p (as ++ bs) = last (last p as) bs := by
  induction as generalizing p with
  | nil => rfl
  | cons x as ih => rw [List.cons_append, last_cons, last_cons, ih]

theorem first_append (as bs : List (Nat × α)) (n : Option Nat) :
    first (as ++ bs) n = first as (first bs n) := by
  cases as <;> rfl

theorem mem_of_first {l : List (Nat × α)} {i : Nat} (h : first l none = some i) :
    i ∈ l.map Prod.fst := by
  cases l with
  | nil => cases h
  | cons x l =>
      rw [first_cons] at h
      simp [← Option.some.inj h]

theorem mem_of_last {l : List (Nat × α)} {i : Nat} (h : last none l = some i) :
    i ∈ l.map Prod.fst := by
  rcases List.eq_nil_or_concat' l with rfl | ⟨as, x, rfl⟩
  · cases h
  · rw [last_concat] at h
    simp [← Option.some.inj h]

/-! ## Segments -/

/-- The records of `l` lie in the heap one after the other, after `p` and before `n`. -/
def Segment (heap : Heap α) : Option Nat → List (Nat × α) → Option Nat → Prop
  | _, [], _ => True
  | p, (i, v) :: l, n => heap i = some ⟨v, p, first l n⟩ ∧ Segment heap (some i) l n

theorem segment_append {heap : Heap α} {p n : Option Nat} {as bs : List (Nat × α)} :
    Segment heap p (as ++ bs) n
      ↔ Segment heap p as (first bs n) ∧ Segment heap (last p as) bs n := by
  induction as generalizing p with
  | nil => simp [Segment]
  | cons x as ih =>
      obtain ⟨i, v⟩ := x
      rw [List.cons_append, Segment, Segment, ih, first_append, last_cons, and_assoc]

/-- Records outside of a segment do not matter. -/
theorem Segment.frame {heap heap' : Heap α} {p n : Option Nat} {l : List (Nat × α)}
    (h : Segment heap p l n) (heq : ∀ i ∈ l.map Prod.fst, heap' i = heap i) :
    Segment heap' p l n := by
  induction l generalizing p with
  | nil => trivial
  | cons x l ih =>
      obtain ⟨i, v⟩ := x
      exact ⟨by rw [heq i (by simp), h.1], ih h.2 fun j hj => heq j (by simp [hj])⟩

/-- The first record of a segment is put after another one. -/
theorem Segment.setPrevious {heap : Heap α} {p n : Option Nat} {l : List (Nat × α)}
    (h : Segment heap p l n) (hnd : (l.map Prod.fst).Nodup) (p' : Option Nat) :
    Segment (setPrevious heap (first l none) p') p' l n := by
  cases l with
  | nil => trivial
  | cons x l =>
      obtain ⟨i, v⟩ := x
      rw [List.map_cons, List.nodup_cons] at hnd
      refine ⟨?_, h.2.frame fun j hj => setPrevious_of_ne heap p' ?_⟩
      · simp only [first_cons, Linked.setPrevious, Function.update_self, h.1, Option.map_some]
      · rintro hji
        rw [first_cons, Option.some.injEq] at hji
        exact hnd.1 (hji ▸ hj)

/-- The last record of a segment is put before another one. -/
theorem Segment.setNext {heap : Heap α} {p n : Option Nat} {l : List (Nat × α)}
    (h : Segment heap p l n) (hnd : (l.map Prod.fst).Nodup) (n' : Option Nat) :
    Segment (setNext heap (last none l) n') p l n' := by
  rcases List.eq_nil_or_concat' l with rfl | ⟨as, x, rfl⟩
  · trivial
  · obtain ⟨i, v⟩ := x
    obtain ⟨has, hx, -⟩ := segment_append.mp h
    rw [List.map_append, List.map_singleton] at hnd
    have hi : i ∉ as.map Prod.fst := fun hmem =>
      (List.nodup_append.mp hnd).2.2 i hmem i (by simp) rfl
    refine segment_append.mpr ⟨has.frame fun j hj => setNext_of_ne heap n' ?_, ?_, trivial⟩
    · rintro hij
      rw [last_concat, Option.some.injEq] at hij
      have hij' : i = j := hij
      exact hi (hij' ▸ hj)
    · simp only [last_concat, Linked.setNext, Function.update_self, hx, Option.map_some, first_nil]

/-! ## Lists -/

/-- The records of `q` are those of the list, in its order. -/
structure Represents (q : Linked α) (l : List (Nat × α)) : Prop where
  nodup : (l.map Prod.fst).Nodup
  head : q.head = first l none
  tail : q.tail = last none l
  segment : Segment q.heap none l none
  outside : ∀ i ∉ l.map Prod.fst, q.heap i = none

/-- The list without records. -/
def empty : Linked α := ⟨fun _ => none, none, none⟩

theorem empty_represents : Represents (empty : Linked α) [] :=
  ⟨List.nodup_nil, rfl, rfl, trivial, fun _ _ => rfl⟩

variable {q : Linked α} {as bs : List (Nat × α)} {e i : Nat} {v w : α}

/-- A record has its neighbours. -/
theorem Represents.node (h : Represents q (as ++ (e, w) :: bs)) :
    q.heap e = some ⟨w, last none as, first bs none⟩ :=
  (segment_append.mp h.segment).2.1

/-- The identifiers of a list in two parts. -/
theorem Represents.split (h : Represents q (as ++ bs)) :
    (as.map Prod.fst).Nodup ∧ (bs.map Prod.fst).Nodup ∧
      ∀ j ∈ as.map Prod.fst, j ∉ bs.map Prod.fst := by
  have hnd := h.nodup
  rw [List.map_append, List.nodup_append] at hnd
  exact ⟨hnd.1, hnd.2.1, fun j hj hjb => hnd.2.2 j hj j hjb rfl⟩

/-- A record is the last one when nothing comes after it. -/
theorem Represents.tail_eq_iff (h : Represents q (as ++ (e, w) :: bs)) :
    q.tail = some e ↔ bs = [] := by
  obtain ⟨-, hnd, -⟩ := h.split
  rw [List.map_cons, List.nodup_cons] at hnd
  rw [h.tail, last_append, last_cons]
  constructor
  · intro hlast
    rcases List.eq_nil_or_concat' bs with hnil | ⟨cs, x, rfl⟩
    · exact hnil
    · rw [last_concat, Option.some.injEq] at hlast
      exact absurd (by simp [← hlast]) hnd.1
  · rintro rfl
    rfl

/-- A record is the first one when nothing comes before it. -/
theorem Represents.head_eq_iff (h : Represents q (as ++ (e, w) :: bs)) :
    q.head = some e ↔ as = [] := by
  obtain ⟨-, -, hdis⟩ := h.split
  rw [h.head, first_append]
  constructor
  · intro hfirst
    cases as with
    | nil => rfl
    | cons x as =>
        rw [first_cons, Option.some.injEq] at hfirst
        exact absurd (by simp) (hdis e (by simp [hfirst]))
  · rintro rfl
    rfl

/-! ## A new record -/

/-- A new record between two neighbours, of which one or both may be missing. -/
def splice (q : Linked α) (p n : Option Nat) (i : Nat) (v : α) : Linked α where
  heap := setNext (setPrevious (Function.update q.heap i (some ⟨v, p, n⟩)) n (some i)) p (some i)
  head := if p = none then some i else q.head
  tail := if n = none then some i else q.tail

theorem last_ne {l : List (Nat × α)} (hi : i ∉ l.map Prod.fst) : last none l ≠ some i :=
  fun h => hi (mem_of_last h)

theorem first_ne {l : List (Nat × α)} (hi : i ∉ l.map Prod.fst) : first l none ≠ some i :=
  fun h => hi (mem_of_first h)

theorem last_eq_none {l : List (Nat × α)} : last none l = none ↔ l = [] := by
  rcases List.eq_nil_or_concat' l with rfl | ⟨as, x, rfl⟩ <;> simp

theorem first_eq_none {l : List (Nat × α)} : first l none = none ↔ l = [] := by
  cases l <;> simp

/-- **The new record is where it was put.** -/
theorem splice_represents (h : Represents q (as ++ bs)) (ha : i ∉ as.map Prod.fst)
    (hb : i ∉ bs.map Prod.fst) (v : α) :
    Represents (splice q (last none as) (first bs none) i v) (as ++ (i, v) :: bs) := by
  obtain ⟨hndas, hndbs, hdis⟩ := h.split
  obtain ⟨hsegas, hsegbs⟩ := segment_append.mp h.segment
  refine ⟨?_, ?_, ?_, segment_append.mpr ⟨?_, ?_, ?_⟩, fun j hj => ?_⟩
  · rw [List.map_append, List.map_cons, List.nodup_append, List.nodup_cons]
    refine ⟨hndas, ⟨hb, hndbs⟩, fun j hj k hk hjk => ?_⟩
    subst hjk
    rcases List.mem_cons.mp hk with rfl | hk
    · exact ha hj
    · exact hdis j hj hk
  · rw [splice, first_append, first_cons, h.head, first_append]
    cases as with
    | nil => rfl
    | cons x as => simp [last_eq_none]
  · rw [splice, last_append, last_cons, h.tail, last_append]
    rcases List.eq_nil_or_concat' bs with rfl | ⟨cs, x, rfl⟩
    · rfl
    · have hne : first (cs ++ [x]) none ≠ none := by simp [first_eq_none]
      simp [hne]
  · -- the records before it: the last one now points to it
    have hset : Segment (Function.update q.heap i (some ⟨v, last none as, first bs none⟩)) none as
        (first bs none) :=
      hsegas.frame fun j hj => Function.update_of_ne (ne_of_mem_of_not_mem hj ha) _ _
    refine (hset.frame fun j hj => ?_ :
      Segment (setPrevious _ (first bs none) (some i)) _ _ _).setNext hndas (some i)
    exact setPrevious_of_ne _ _ (first_ne (hdis j hj))
  · show setNext _ _ _ i = _
    rw [setNext_of_ne _ _ (last_ne ha), setPrevious_of_ne _ _ (first_ne hb), Function.update_self]
  · -- the records after it: the first one now points to it
    have hset : Segment (Function.update q.heap i (some ⟨v, last none as, first bs none⟩))
        (last none as) bs none :=
      hsegbs.frame fun j hj => Function.update_of_ne (ne_of_mem_of_not_mem hj hb) _ _
    refine (hset.setPrevious hndbs (some i)).frame fun j hj => setNext_of_ne _ _ fun hlast => ?_
    exact hdis j (mem_of_last hlast) hj
  · simp only [List.map_append, List.map_cons, List.mem_append, List.mem_cons, not_or] at hj
    obtain ⟨hja, hji, hjb⟩ := hj
    show setNext _ _ _ j = _
    rw [setNext_of_ne _ _ (last_ne hja), setPrevious_of_ne _ _ (first_ne hjb),
      Function.update_of_ne hji]
    exact h.outside j (by simp [hja, hjb])

/-! ## A record taken out -/

/-- A record is taken out from between its neighbours. -/
def unlink (q : Linked α) (p n : Option Nat) (i : Nat) : Linked α where
  heap := Function.update (setPrevious (setNext q.heap p n) n p) i none
  head := if p = none then n else q.head
  tail := if n = none then p else q.tail

theorem heap_unlink (q : Linked α) (p n : Option Nat) (i : Nat) : (unlink q p n i).heap
    = Function.update (setPrevious (setNext q.heap p n) n p) i none := rfl

/-- **The other records are still there**, in their order. -/
theorem unlink_represents (h : Represents q (as ++ (i, v) :: bs)) :
    Represents (unlink q (last none as) (first bs none) i) (as ++ bs) := by
  obtain ⟨hndas, hndibs, hdis⟩ := h.split
  rw [List.map_cons, List.nodup_cons] at hndibs
  obtain ⟨hib, hndbs⟩ := hndibs
  have hia : i ∉ as.map Prod.fst := fun hmem => hdis i hmem (by simp)
  have hdis' : ∀ j ∈ as.map Prod.fst, j ∉ bs.map Prod.fst := fun j hj hjb =>
    hdis j hj (by simp only [List.map_cons, List.mem_cons]; exact Or.inr hjb)
  obtain ⟨hsegas, -, hsegbs⟩ := segment_append.mp h.segment
  refine ⟨?_, ?_, ?_, segment_append.mpr ⟨?_, ?_⟩, fun j hj => ?_⟩
  · rw [List.map_append, List.nodup_append]
    exact ⟨hndas, hndbs, fun j hj k hk hjk => hdis' j hj (hjk ▸ hk)⟩
  · rw [unlink, h.head, first_append, first_append]
    cases as with
    | nil => rfl
    | cons x as => simp [last_eq_none]
  · rw [unlink, h.tail, last_append, last_append, last_cons]
    rcases List.eq_nil_or_concat' bs with rfl | ⟨cs, x, rfl⟩
    · rfl
    · have hne : first (cs ++ [x]) none ≠ none := by simp [first_eq_none]
      simp [hne]
  · refine (hsegas.setNext hndas (first bs none)).frame fun j hj => ?_
    rw [heap_unlink, Function.update_of_ne (ne_of_mem_of_not_mem hj hia),
      setPrevious_of_ne _ _ (first_ne (hdis' j hj))]
  · have hset : Segment (setNext q.heap (last none as) (first bs none)) (some i) bs none :=
      hsegbs.frame fun j hj => setNext_of_ne _ _ fun hlast => hdis' j (mem_of_last hlast) hj
    refine (hset.setPrevious hndbs (last none as)).frame fun j hj => ?_
    rw [heap_unlink, Function.update_of_ne (ne_of_mem_of_not_mem hj hib)]
  · rw [heap_unlink]
    by_cases hji : j = i
    · rw [hji, Function.update_self]
    · simp only [List.map_append, List.mem_append, not_or] at hj
      obtain ⟨hja, hjb⟩ := hj
      rw [Function.update_of_ne hji, setPrevious_of_ne _ _ (first_ne hjb),
        setNext_of_ne _ _ (last_ne hja)]
      exact h.outside j (by simp only [List.map_append, List.map_cons, List.mem_append,
        List.mem_cons, not_or]; exact ⟨hja, hji, hjb⟩)

end Linked

end Perl
