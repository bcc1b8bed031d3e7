import SnmpCollector.Perl.LinkedList

set_option autoImplicit false

/-! # The queue of events (`Net::SNMP::Dispatcher`)

The Dispatcher keeps what it has to do in a doubly linked list in the order of the times.
`_event_insert` estimates from the times of both ends on which side of the list the place of a new
event is, and searches it from that end; `_event_delete` takes an event out of any place.
`run_represents` says that the pointers always have the list in which each event stands behind all
that are not later, whatever the estimate is.
-/

namespace SnmpCollector.NetSnmp

open Perl Perl.Linked

/-- An event: whether it was made while the Dispatcher was running, its time, and what is done. -/
structure Event (τ γ : Type) where
  active : Bool
  time : τ
  callback : γ

abbrev EventQueue (τ γ : Type) := Linked (Event τ γ)

section Queue

variable {τ γ : Type} [LinearOrder τ]

/-! ## Insertion -/

/-- `for (my $e = $this->{_event_queue_t}; defined $e; $e = $e->[_PREVIOUS])`: the first event that
is not later than `t`. -/
def searchBack (heap : Heap (Event τ γ)) (t : τ) : Nat → Option Nat → Option Nat
  | 0, _ => none
  | _ + 1, none => none
  | n + 1, some e =>
      match heap e with
      | none => none
      | some x => if x.value.time ≤ t then some e else searchBack heap t n x.previous

/-- `for (my $e = $this->{_event_queue_h}; defined $e; $e = $e->[_NEXT])`: the first event that is
later than `t`. -/
def searchForward (heap : Heap (Event τ γ)) (t : τ) : Nat → Option Nat → Option Nat
  | 0, _ => none
  | _ + 1, none => none
  | n + 1, some e =>
      match heap e with
      | none => none
      | some x => if t < x.value.time then some e else searchForward heap t n x.next

/-- The event `i` after the event `e`. -/
def insertAfter (q : EventQueue τ γ) (e i : Nat) (ev : Event τ γ) : EventQueue τ γ :=
  let next := (q.heap e).bind Node.next
  let heap := Function.update q.heap i (some ⟨ev, some e, next⟩)
  if q.tail = some e then { q with heap := setNext heap (some e) (some i), tail := some i }
  else { q with heap := setNext (setPrevious heap next (some i)) (some e) (some i) }

/-- The event `i` before the event `e`. -/
def insertBefore (q : EventQueue τ γ) (e i : Nat) (ev : Event τ γ) : EventQueue τ γ :=
  let previous := (q.heap e).bind Node.previous
  let heap := Function.update q.heap i (some ⟨ev, previous, some e⟩)
  if q.head = some e then { q with heap := setPrevious heap (some e) (some i), head := some i }
  else { q with heap := setNext (setPrevious heap (some e) (some i)) previous (some i) }

/-- The time of an event; an event that is not there has none. -/
def timeOf (q : EventQueue τ γ) (e : Option Nat) : Option τ :=
  (e.bind q.heap).map fun x => x.value.time

/-- `_event_insert`: no search takes more than `n` steps, the number of events that have been
made. -/
def eventInsert (midpoint : τ → τ → τ) (n : Nat) (q : EventQueue τ γ) (i : Nat)
    (ev : Event τ γ) : EventQueue τ γ :=
  match q.head, timeOf q q.head, timeOf q q.tail with
  | none, _, _ =>
      ⟨Function.update q.heap i (some ⟨ev, none, none⟩), some i, some i⟩
  | some h, some first, some last =>
      if midpoint first last ≤ ev.time then
        match searchBack q.heap ev.time n q.tail with
        | some e => insertAfter q e i ev
        | none =>
            { q with
              heap := setPrevious (Function.update q.heap i (some ⟨ev, none, some h⟩)) (some h)
                (some i)
              head := some i }
      else
        match searchForward q.heap ev.time n q.head with
        | some e => insertBefore q e i ev
        | none =>
            { q with
              heap := setNext (Function.update q.heap i (some ⟨ev, q.tail, none⟩)) q.tail (some i)
              tail := some i }
  | some _, _, _ => q

/-! ## Deletion -/

/-- `_event_delete`: `none` is the death of the program at an event that is not in the queue; the
value tells whether the queue still has entries. -/
def eventDelete (q : EventQueue τ γ) (i : Nat) : Option (EventQueue τ γ × Bool) :=
  let previous := (q.heap i).bind Node.previous
  let next := (q.heap i).bind Node.next
  let undef := fun q : EventQueue τ γ => { q with heap := Function.update q.heap i none }
  -- the previous event
  let first : Option (EventQueue τ γ × Bool) :=
    match previous with
    | some p => some ({ q with heap := setNext q.heap (some p) next }, true)
    | none =>
        if q.head = some i then
          match next with
          | some n => some ({ q with head := some n }, true)
          | none => some ({ q with head := none, tail := none }, false)
        else none
  match first with
  | none => none
  | some (q, false) => some (undef q, false)
  | some (q, true) =>
      -- the next event
      match next with
      | some n => some (undef { q with heap := setPrevious q.heap (some n) previous }, true)
      | none => if q.tail = some i then some (undef { q with tail := previous }, true) else none

/-! ## The list -/

/-- The place of an event in a list: behind all that are not later. -/
def insertOrdered (i : Nat) (ev : Event τ γ) (l : List (Nat × Event τ γ)) :
    List (Nat × Event τ γ) :=
  l.takeWhile (fun x => decide (x.2.time ≤ ev.time))
    ++ (i, ev) :: l.dropWhile (fun x => decide (x.2.time ≤ ev.time))

/-- The times go up. -/
def Sorted (l : List (Nat × Event τ γ)) : Prop := l.Pairwise fun x y => x.2.time ≤ y.2.time

/-- The events are those that were there, and the new one. -/
theorem insertOrdered_perm (i : Nat) (ev : Event τ γ) (l : List (Nat × Event τ γ)) :
    (insertOrdered i ev l).Perm ((i, ev) :: l) := by
  conv_rhs => rw [← @List.takeWhile_append_dropWhile _ (fun x => decide (x.2.time ≤ ev.time)) l]
  exact List.perm_middle

theorem mem_insertOrdered {i : Nat} {ev : Event τ γ} {l : List (Nat × Event τ γ)}
    {x : Nat × Event τ γ} : x ∈ insertOrdered i ev l ↔ x = (i, ev) ∨ x ∈ l := by
  rw [(insertOrdered_perm i ev l).mem_iff, List.mem_cons]

/-- The list in two parts: what is not later, and what is. -/
theorem Sorted.parts {l : List (Nat × Event τ γ)} (h : Sorted l) (t : τ) :
    (∀ x ∈ l.takeWhile (fun x => decide (x.2.time ≤ t)), x.2.time ≤ t) ∧
      ∀ x ∈ l.dropWhile (fun x => decide (x.2.time ≤ t)), t < x.2.time := by
  refine ⟨fun x hx => by simpa using List.mem_takeWhile_imp hx, fun x hx => ?_⟩
  have hsorted : Sorted (l.dropWhile fun x => decide (x.2.time ≤ t)) :=
    h.sublist (List.dropWhile_sublist _)
  cases hdrop : l.dropWhile (fun x => decide (x.2.time ≤ t)) with
  | nil =>
      rw [hdrop] at hx
      cases hx
  | cons y ys =>
      have hy : ¬ y.2.time ≤ t := by
        have hhead := List.head?_dropWhile_not (fun x : Nat × Event τ γ => decide (x.2.time ≤ t)) l
        rw [hdrop] at hhead
        simpa using hhead
      rw [hdrop] at hx hsorted
      rcases List.mem_cons.mp hx with rfl | hx
      · exact not_le.mp hy
      · exact lt_of_lt_of_le (not_le.mp hy) ((List.pairwise_cons.mp hsorted).1 x hx)

/-- **A new event keeps the order.** -/
theorem Sorted.insertOrdered {l : List (Nat × Event τ γ)} (h : Sorted l) (i : Nat)
    (ev : Event τ γ) : Sorted (insertOrdered i ev l) := by
  obtain ⟨htake, hdrop⟩ := h.parts ev.time
  refine List.pairwise_append.mpr ⟨h.sublist (List.takeWhile_sublist _),
    List.pairwise_cons.mpr ⟨fun x hx => (hdrop x hx).le, h.sublist (List.dropWhile_sublist _)⟩,
    fun x hx y hy => ?_⟩
  rcases List.mem_cons.mp hy with rfl | hy
  · exact htake x hx
  · exact ((htake x hx).trans_lt (hdrop y hy)).le

/-! ## The pointers have the list -/

variable {q : EventQueue τ γ} {as bs cs : List (Nat × Event τ γ)} {t : τ} {e i : Nat}
  {ev w : Event τ γ}

/-- The search from the tail ends at the last event that is not later. -/
theorem searchBack_eq (h : Represents q (as ++ bs ++ cs)) (has : ∀ x ∈ as, x.2.time ≤ t)
    (hbs : ∀ x ∈ bs, t < x.2.time) {n : Nat} (hn : (as ++ bs).length ≤ n) :
    searchBack q.heap t n (last none (as ++ bs)) = last none as := by
  induction bs using List.reverseRecOn generalizing cs n with
  | nil =>
      rw [List.append_nil] at h hn ⊢
      rcases List.eq_nil_or_concat' as with rfl | ⟨ds, x, rfl⟩
      · cases n <;> rfl
      · cases n with
        | zero => simp at hn
        | succ n =>
            rw [List.append_assoc, List.singleton_append] at h
            have hx : x.2.time ≤ t := has x (by simp)
            rw [last_concat, searchBack, h.node]
            simp [hx]
  | append_singleton bs x ih =>
      cases n with
      | zero => simp at hn
      | succ n =>
          have hx : ¬ x.2.time ≤ t := not_le.mpr (hbs x (by simp))
          rw [← List.append_assoc, List.append_assoc _ [x], List.singleton_append] at h
          rw [← List.append_assoc, last_concat, searchBack, h.node]
          simp only [hx, if_false]
          refine ih h (fun y hy => hbs y (by simp [hy])) ?_
          simp only [List.length_append, List.length_singleton] at hn ⊢
          omega

/-- The search from the head ends at the first event that is later. -/
theorem searchForward_eq (h : Represents q (cs ++ (as ++ bs))) (has : ∀ x ∈ as, x.2.time ≤ t)
    (hbs : ∀ x ∈ bs, t < x.2.time) {n : Nat} (hn : (as ++ bs).length ≤ n) :
    searchForward q.heap t n (first (as ++ bs) none) = first bs none := by
  induction as generalizing cs n with
  | nil =>
      rw [List.nil_append] at h hn ⊢
      cases bs with
      | nil => cases n <;> rfl
      | cons x bs =>
          cases n with
          | zero => simp at hn
          | succ n =>
              have hx : t < x.2.time := hbs x (by simp)
              rw [first_cons, searchForward, h.node]
              simp [hx]
  | cons x as ih =>
      cases n with
      | zero => simp at hn
      | succ n =>
          have hx : ¬ t < x.2.time := not_lt.mpr (has x (by simp))
          rw [List.cons_append] at h
          rw [List.cons_append, first_cons, searchForward, h.node]
          simp only [hx, if_false]
          rw [List.append_cons] at h
          refine ih h (fun y hy => has y (by simp [hy])) ?_
          simp only [List.cons_append, List.length_cons] at hn
          omega

omit [LinearOrder τ] in
/-- An event after another one. -/
theorem insertAfter_eq (h : Represents q (as ++ (e, w) :: bs)) :
    insertAfter q e i ev = splice q (some e) (first bs none) i ev := by
  have hnode := h.node
  have htail := h.tail_eq_iff
  rw [insertAfter, splice, hnode]
  cases bs with
  | nil => simp [htail.mpr rfl, setPrevious]
  | cons x bs => simp [htail]

omit [LinearOrder τ] in
/-- An event before another one. -/
theorem insertBefore_eq (h : Represents q (as ++ (e, w) :: bs)) :
    insertBefore q e i ev = splice q (last none as) (some e) i ev := by
  have hnode := h.node
  have hhead := h.head_eq_iff
  rw [insertBefore, splice, hnode]
  cases as with
  | nil => simp [hhead.mpr rfl, setNext]
  | cons x as => simp [hhead, last_eq_none]

omit [LinearOrder τ] in
theorem timeOf_head {x : Nat × Event τ γ} (h : Represents q (x :: bs)) :
    timeOf q q.head = some x.2.time := by
  have hnode : q.heap x.1 = some ⟨x.2, none, first bs none⟩ := @Represents.node _ q [] bs _ _ h
  rw [timeOf, h.head, first_cons, Option.bind_some, hnode]
  rfl

omit [LinearOrder τ] in
theorem timeOf_tail {x : Nat × Event τ γ} (h : Represents q (as ++ [x])) :
    timeOf q q.tail = some x.2.time := by
  have hnode : q.heap x.1 = some ⟨x.2, last none as, none⟩ := @Represents.node _ q as [] _ _ h
  rw [timeOf, h.tail, last_concat, Option.bind_some, hnode]
  rfl

/-- **The insertion finds the place of the event**, from whichever end it searches. -/
theorem eventInsert_eq (midpoint : τ → τ → τ) (h : Represents q (as ++ bs))
    (has : ∀ x ∈ as, x.2.time ≤ ev.time) (hbs : ∀ x ∈ bs, ev.time < x.2.time) {n : Nat}
    (hn : (as ++ bs).length ≤ n) :
    eventInsert midpoint n q i ev = splice q (last none as) (first bs none) i ev := by
  cases hl : as ++ bs with
  | nil =>
      obtain ⟨rfl, rfl⟩ := List.append_eq_nil_iff.mp hl
      have hhead : q.head = none := h.head
      rw [eventInsert, hhead]
      rfl
  | cons x l =>
      have hhead : q.head = some x.1 := by rw [h.head, hl, first_cons]
      have hfirst := timeOf_head (hl ▸ h)
      obtain ⟨ds, y, hlast⟩ : ∃ ds y, as ++ bs = ds ++ [y] :=
        (List.eq_nil_or_concat' _).resolve_left (by rw [hl]; simp)
      have hend := timeOf_tail (hlast ▸ h)
      rw [hhead] at hfirst
      simp only [eventInsert, hhead, hfirst, hend]
      split
      · -- from the tail
        have hall : Represents q ((as ++ bs) ++ []) := by rwa [List.append_nil]
        have hsearch := searchBack_eq hall has hbs hn
        rw [← h.tail] at hsearch
        rw [hsearch]
        rcases List.eq_nil_or_concat' as with rfl | ⟨as', z, rfl⟩
        · simp only [last_nil]
          rw [List.nil_append] at hl
          simp only [splice, hl, first_cons, setNext, if_true, reduceCtorEq, if_false]
        · simp only [last_concat]
          rw [List.append_assoc, List.singleton_append] at h
          exact insertAfter_eq h
      · -- from the head
        have hall : Represents q ([] ++ (as ++ bs)) := h
        have hsearch := searchForward_eq hall has hbs hn
        rw [← h.head, hhead] at hsearch
        rw [hsearch]
        cases bs with
        | nil =>
            rw [List.append_nil] at h
            have htail : q.tail = last none as := h.tail
            have hne : last none as ≠ none := by
              rw [ne_eq, last_eq_none]
              rintro rfl
              cases hl
            simp only [first_nil, htail, splice, setPrevious, if_true, if_neg hne, hhead]
        | cons z bs =>
            simp only [first_cons]
            exact insertBefore_eq h

/-- **The queue is the list** after an insertion. -/
theorem eventInsert_represents (midpoint : τ → τ → τ) {l : List (Nat × Event τ γ)}
    (h : Represents q l) (hs : Sorted l) (hi : i ∉ l.map Prod.fst) {n : Nat} (hlen : l.length ≤ n)
    (ev : Event τ γ) : Represents (eventInsert midpoint n q i ev) (insertOrdered i ev l) := by
  obtain ⟨has, hbs⟩ := hs.parts ev.time
  have hparts := @List.takeWhile_append_dropWhile _ (fun x => decide (x.2.time ≤ ev.time)) l
  rw [← hparts] at h hi hlen
  rw [List.map_append, List.mem_append, not_or] at hi
  rw [eventInsert_eq midpoint h has hbs hlen]
  exact splice_represents h hi.1 hi.2 ev

omit [LinearOrder τ] in
/-- **The queue is the list** after a deletion. -/
theorem eventDelete_represents (h : Represents q (as ++ (i, ev) :: bs)) :
    ∃ q', eventDelete q i = some (q', !(as ++ bs).isEmpty) ∧ Represents q' (as ++ bs) := by
  refine ⟨unlink q (last none as) (first bs none) i, ?_, unlink_represents h⟩
  have hnode := h.node
  have hhead := h.head_eq_iff
  have htail := h.tail_eq_iff
  rcases List.eq_nil_or_concat' as with rfl | ⟨as', y, rfl⟩
  · cases bs with
    | nil => simp [eventDelete, unlink, hnode, hhead.mpr rfl, setNext, setPrevious]
    | cons x bs => simp [eventDelete, unlink, hnode, hhead.mpr rfl, setNext]
  · cases bs with
    | nil => simp [eventDelete, unlink, hnode, htail.mpr rfl, setPrevious, last]
    | cons x bs => simp [eventDelete, unlink, hnode, last]

omit [LinearOrder τ] in
/-- An event that is not in the queue cannot be deleted. -/
theorem eventDelete_of_not_mem {l : List (Nat × Event τ γ)} (h : Represents q l)
    (hi : i ∉ l.map Prod.fst) : eventDelete q i = none := by
  have hhead : q.head ≠ some i := by
    rw [h.head]
    exact first_ne hi
  simp [eventDelete, h.outside i hi, hhead]

omit [LinearOrder τ] in
theorem filter_ne {l : List (Nat × Event τ γ)} (hi : i ∉ l.map Prod.fst) :
    l.filter (fun x => x.1 ≠ i) = l := by
  refine List.filter_eq_self.mpr fun x hx => ?_
  simpa using fun hxi : x.1 = i => hi (hxi ▸ List.mem_map_of_mem hx)

omit [LinearOrder τ] in
/-- The number of an event stands in no other place. -/
theorem not_mem_parts (hnd : ((as ++ (i, ev) :: bs).map Prod.fst).Nodup) :
    i ∉ as.map Prod.fst ∧ i ∉ bs.map Prod.fst := by
  rw [List.map_append, List.map_cons, List.nodup_middle, List.nodup_cons, List.mem_append,
    not_or] at hnd
  exact hnd.1

omit [LinearOrder τ] in
/-- An event is taken out by its number. -/
theorem filter_ne_append (hnd : ((as ++ (i, ev) :: bs).map Prod.fst).Nodup) :
    (as ++ (i, ev) :: bs).filter (fun x => x.1 ≠ i) = as ++ bs := by
  obtain ⟨has, hbs⟩ := not_mem_parts hnd
  rw [List.filter_append, List.filter_cons_of_neg (by simp), filter_ne has, filter_ne hbs]

omit [LinearOrder τ] in
/-- An event is found by its number. -/
theorem find_append (hnd : ((as ++ (i, ev) :: bs).map Prod.fst).Nodup) :
    (as ++ (i, ev) :: bs).find? (fun x => x.1 = i) = some (i, ev) := by
  rw [List.find?_append, List.find?_eq_none.mpr fun x hx => ?_]
  · simp
  · simpa using fun hxi : x.1 = i =>
      (not_mem_parts hnd).1 (hxi ▸ List.mem_map_of_mem hx)

omit [LinearOrder τ] in
/-- The events are the one with the number, and those without. -/
theorem perm_filter_ne {l : List (Nat × Event τ γ)} (hnd : (l.map Prod.fst).Nodup)
    (h : (i, ev) ∈ l) : l.Perm ((i, ev) :: l.filter fun x => x.1 ≠ i) := by
  obtain ⟨as, bs, rfl⟩ := List.append_of_mem h
  rw [filter_ne_append hnd]
  exact List.perm_middle

/-! ## Any sequence of operations -/

/-- What the Dispatcher does with its queue. -/
inductive QueueOp (τ γ : Type) where
  | insert (ev : Event τ γ)
  | delete (i : Nat)
  | init (i : Nat) (time : τ)

/-- `_event_init`, for an event that is in the queue: it is taken out and put in again with a new
time. -/
def eventInit (midpoint : τ → τ → τ) (n : Nat) (q : EventQueue τ γ) (i : Nat) (time : τ) :
    Option (EventQueue τ γ) :=
  match q.heap i, eventDelete q i with
  | some x, some (q', _) => some (eventInsert midpoint n q' i ⟨true, time, x.value.callback⟩)
  | _, _ => none

/-- An operation on the pointers; the events are numbered as they are made. -/
def QueueOp.run (midpoint : τ → τ → τ) (s : EventQueue τ γ × Nat) :
    QueueOp τ γ → EventQueue τ γ × Nat
  | .insert ev => (eventInsert midpoint s.2 s.1 s.2 ev, s.2 + 1)
  | .delete i => (((eventDelete s.1 i).map Prod.fst).getD s.1, s.2)
  | .init i time => ((eventInit midpoint s.2 s.1 i time).getD s.1, s.2)

/-- An event with a new time, in its new place. -/
def initOrdered (i : Nat) (time : τ) (l : List (Nat × Event τ γ)) : List (Nat × Event τ γ) :=
  match l.find? fun x => x.1 = i with
  | none => l
  | some x => insertOrdered i ⟨true, time, x.2.callback⟩ (l.filter fun x => x.1 ≠ i)

/-- The events are the one with its new time, and the others. -/
theorem initOrdered_perm {l : List (Nat × Event τ γ)} (hnd : (l.map Prod.fst).Nodup)
    (h : (i, ev) ∈ l) (time : τ) :
    (initOrdered i time l).Perm ((i, ⟨true, time, ev.callback⟩) :: l.filter fun x => x.1 ≠ i) := by
  obtain ⟨as, bs, rfl⟩ := List.append_of_mem h
  rw [initOrdered, find_append hnd]
  exact insertOrdered_perm _ _ _

/-- An operation on the list. -/
def QueueOp.runList (s : List (Nat × Event τ γ) × Nat) :
    QueueOp τ γ → List (Nat × Event τ γ) × Nat
  | .insert ev => (insertOrdered s.2 ev s.1, s.2 + 1)
  | .delete i => (s.1.filter fun x => x.1 ≠ i, s.2)
  | .init i time => (initOrdered i time s.1, s.2)

/-- The pointers have the list, which is in order, and its events have been made. -/
structure QueueInv (s : EventQueue τ γ × Nat) (r : List (Nat × Event τ γ) × Nat) : Prop where
  represents : Represents s.1 r.1
  sorted : Sorted r.1
  count : s.2 = r.2
  made : ∀ x ∈ r.1, x.1 < r.2

omit [LinearOrder τ] in
/-- A list of numbers below `n`, each once, is not longer than `n`. -/
theorem length_le_of_made {l : List (Nat × Event τ γ)} {n : Nat} (hnd : (l.map Prod.fst).Nodup)
    (hmade : ∀ x ∈ l, x.1 < n) : l.length ≤ n := by
  have hsub : l.map Prod.fst ⊆ List.range n := by
    intro i hi
    obtain ⟨x, hx, rfl⟩ := List.mem_map.mp hi
    exact List.mem_range.mpr (hmade x hx)
  have hle := (List.subperm_of_subset hnd hsub).length_le
  simpa using hle

omit [LinearOrder τ] in
/-- An event that is in the list is somewhere in it. -/
theorem exists_split {l : List (Nat × Event τ γ)} (hi : i ∈ l.map Prod.fst) :
    ∃ as ev bs, l = as ++ (i, ev) :: bs := by
  obtain ⟨x, hx, rfl⟩ := List.mem_map.mp hi
  obtain ⟨as, bs, rfl⟩ := List.append_of_mem hx
  exact ⟨as, x.2, bs, rfl⟩

section Operations

variable {l : List (Nat × Event τ γ)} {n : Nat}

theorem QueueInv.length_le (h : QueueInv (q, n) (l, n)) : l.length ≤ n :=
  length_le_of_made h.represents.nodup h.made

theorem QueueInv.sorted_filter (h : QueueInv (q, n) (l, n)) (p : Nat × Event τ γ → Bool) :
    Sorted (l.filter p) :=
  h.sorted.sublist List.filter_sublist

/-- A new event has a number that no event in the queue has. -/
theorem QueueInv.insert (h : QueueInv (q, n) (l, n)) (midpoint : τ → τ → τ) (ev : Event τ γ) :
    QueueInv (QueueOp.run midpoint (q, n) (.insert ev)) (QueueOp.runList (l, n) (.insert ev)) := by
  have hmade : ∀ x ∈ l, x.1 < n := h.made
  have hnew : n ∉ l.map Prod.fst := fun hmem => by
    obtain ⟨x, hx, hxn⟩ := List.mem_map.mp hmem
    have hlt := hmade x hx
    omega
  refine ⟨eventInsert_represents midpoint h.represents h.sorted hnew h.length_le ev,
    h.sorted.insertOrdered n ev, rfl, fun x hx => ?_⟩
  rcases mem_insertOrdered.mp hx with rfl | hx
  · exact Nat.lt_succ_self n
  · exact Nat.lt_succ_of_lt (hmade x hx)

/-- What is not in the queue is deleted without effect. -/
theorem QueueInv.delete (h : QueueInv (q, n) (l, n)) (midpoint : τ → τ → τ) (i : Nat) :
    QueueInv (QueueOp.run midpoint (q, n) (.delete i)) (QueueOp.runList (l, n) (.delete i)) := by
  have hrep : Represents q l := h.represents
  refine ⟨?_, h.sorted_filter _, rfl, fun x hx => h.made x (List.mem_of_mem_filter hx)⟩
  by_cases hi : i ∈ l.map Prod.fst
  · obtain ⟨as, ev, bs, rfl⟩ := exists_split hi
    obtain ⟨q', hdel, hq'⟩ := eventDelete_represents hrep
    simp only [QueueOp.run, QueueOp.runList, hdel, Option.map_some, Option.getD_some,
      filter_ne_append hrep.nodup]
    exact hq'
  · simp only [QueueOp.run, QueueOp.runList, eventDelete_of_not_mem hrep hi, Option.map_none,
      Option.getD_none, filter_ne hi]
    exact hrep

/-- An event with a new time is out of the queue before it is put in again. -/
theorem QueueInv.init (h : QueueInv (q, n) (l, n)) (midpoint : τ → τ → τ) (i : Nat) (time : τ) :
    QueueInv (QueueOp.run midpoint (q, n) (.init i time))
      (QueueOp.runList (l, n) (.init i time)) := by
  have hrep : Represents q l := h.represents
  have hmade : ∀ x ∈ l, x.1 < n := h.made
  by_cases hi : i ∈ l.map Prod.fst
  · obtain ⟨as, ev, bs, rfl⟩ := exists_split hi
    obtain ⟨q', hdel, hq'⟩ := eventDelete_represents hrep
    have hfilter := filter_ne_append hrep.nodup
    have hfind := find_append hrep.nodup
    have hout : i ∉ (as ++ bs).map Prod.fst := by
      rw [List.map_append, List.mem_append, not_or]
      exact not_mem_parts hrep.nodup
    have hshort : (as ++ bs).length ≤ n := by
      have hlen := h.length_le
      simp only [List.length_append, List.length_cons] at hlen ⊢
      omega
    have hsorted' : Sorted (as ++ bs) := hfilter ▸ h.sorted_filter _
    simp only [QueueOp.run, QueueOp.runList, eventInit, initOrdered, hrep.node, hdel, hfind,
      hfilter, Option.getD_some]
    refine ⟨eventInsert_represents midpoint hq' hsorted' hout hshort _,
      hsorted'.insertOrdered i _, rfl, fun x hx => ?_⟩
    rcases mem_insertOrdered.mp hx with rfl | hx
    · exact hmade (i, ev) (by simp)
    · refine hmade x ?_
      rw [List.mem_append] at hx ⊢
      exact hx.imp_right (List.mem_cons_of_mem _)
  · have hfind : l.find? (fun x => x.1 = i) = none := by
      refine List.find?_eq_none.mpr fun x hx => ?_
      simpa using fun hxi : x.1 = i => hi (hxi ▸ List.mem_map_of_mem hx)
    have hdead : eventInit midpoint n q i time = none := by
      rw [eventInit, hrep.outside i hi]
    simp only [QueueOp.run, QueueOp.runList, hdead, initOrdered, hfind, Option.getD_none]
    exact ⟨hrep, h.sorted, rfl, hmade⟩

end Operations

/-- One operation keeps the invariant. -/
theorem QueueInv.run {s : EventQueue τ γ × Nat} {r : List (Nat × Event τ γ) × Nat}
    (h : QueueInv s r) (midpoint : τ → τ → τ) (op : QueueOp τ γ) :
    QueueInv (op.run midpoint s) (op.runList r) := by
  obtain ⟨q, n⟩ := s
  obtain ⟨l, m⟩ := r
  obtain rfl : n = m := h.count
  cases op with
  | insert ev => exact h.insert midpoint ev
  | delete i => exact h.delete midpoint i
  | init i time => exact h.init midpoint i time

/-- Any operations keep the invariant. -/
theorem QueueInv.runs (midpoint : τ → τ → τ) (ops : List (QueueOp τ γ)) :
    ∀ {s : EventQueue τ γ × Nat} {r : List (Nat × Event τ γ) × Nat}, QueueInv s r →
      QueueInv (ops.foldl (QueueOp.run midpoint) s) (ops.foldl QueueOp.runList r) := by
  induction ops with
  | nil => exact fun h => h
  | cons op ops ih => exact fun h => ih (h.run midpoint op)

theorem QueueInv.empty : QueueInv (Linked.empty, 0) (([], 0) : List (Nat × Event τ γ) × Nat) :=
  ⟨empty_represents, List.Pairwise.nil, rfl, by simp⟩

/-- **The pointers always have the list.** After any operations, and whatever the midpoint is
estimated to be, the queue is the list of the events that have been inserted and not deleted, in the
order of their times, each one inserted behind all that were not later. -/
theorem run_represents (midpoint : τ → τ → τ) (ops : List (QueueOp τ γ)) :
    Represents (ops.foldl (QueueOp.run midpoint) (Linked.empty, 0)).1
        (ops.foldl QueueOp.runList ([], 0)).1 ∧
      Sorted (ops.foldl QueueOp.runList ([], 0)).1 := by
  have hinv := QueueInv.empty.runs midpoint ops
  exact ⟨hinv.represents, hinv.sorted⟩

end Queue

end SnmpCollector.NetSnmp
