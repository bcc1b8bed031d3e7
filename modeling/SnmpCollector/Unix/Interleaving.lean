import Mathlib

set_option autoImplicit false

/-! # Programs that read and then write

Several programs work on a shared state. Each goes through its list of tasks; a task reads the
state some times, collects what it found in a local value, and writes once at its end. The
steps of the programs are mixed in any way.

When no write changes what any read finds (`Stable`), every interleaving is the one-by-one
execution of the tasks in the order in which they wrote (`run_serial`), and this order keeps the
order of each program (`run_tasks`).
-/

namespace Unix

variable {σ τ ℓ : Type*}

/-- What a task does: its reads, which update a local value, and its write. -/
structure Tasks (σ τ ℓ : Type*) where
  start : ℓ
  reads : τ → List (σ → ℓ → ℓ)
  write : τ → ℓ → σ → σ

/-- A program: the tasks to do, and the number of reads and the local value of the first one. -/
structure Program (τ ℓ : Type*) where
  todo : List τ
  done : Nat
  loc : ℓ

/-- The shared state, the programs, and the tasks that have written, with their programs. -/
structure Machine (σ τ ℓ : Type*) where
  state : σ
  programs : List (Program τ ℓ)
  log : List (Nat × τ)

namespace Tasks

variable (T : Tasks σ τ ℓ)

/-- A task without interruption. -/
def atomic (s : σ) (x : τ) : σ := T.write x ((T.reads x).foldl (fun l r => r s l) T.start) s

/-- The next step of the program `j`: a read, or the write if all reads are done. -/
def step (m : Machine σ τ ℓ) (j : Nat) : Machine σ τ ℓ :=
  match m.programs[j]? with
  | none => m
  | some p =>
      match p.todo with
      | [] => m
      | x :: rest =>
          match (T.reads x)[p.done]? with
          | some r =>
              { m with programs := m.programs.set j ⟨p.todo, p.done + 1, r m.state p.loc⟩ }
          | none =>
              ⟨T.write x p.loc m.state, m.programs.set j ⟨rest, 0, T.start⟩, m.log ++ [(j, x)]⟩

/-- The steps of the programs `js`, one after the other. -/
def run (js : List Nat) (m : Machine σ τ ℓ) : Machine σ τ ℓ := js.foldl T.step m

/-- All programs before their first step. -/
def init (s : σ) (lists : List (List τ)) : Machine σ τ ℓ :=
  ⟨s, lists.map fun xs => ⟨xs, 0, T.start⟩, []⟩

/-- No task changes what a read of another one, or of its own, finds. -/
def Stable : Prop := ∀ (x y : τ), ∀ r ∈ T.reads x, ∀ (s : σ) (l : ℓ), r (T.atomic s y) l = r s l

/-- The local value of a program is what its reads find in the state of now. -/
def Current (s : σ) (p : Program τ ℓ) : Prop :=
  ∀ x rest, p.todo = x :: rest →
    p.loc = ((T.reads x).take p.done).foldl (fun l r => r s l) T.start

variable {T}

theorem foldl_reads_atomic (h : T.Stable) (s : σ) (x y : τ) (n : Nat) (l : ℓ) :
    ((T.reads x).take n).foldl (fun l r => r (T.atomic s y) l) l
      = ((T.reads x).take n).foldl (fun l r => r s l) l :=
  List.foldl_ext _ _ _ fun l r hr => h x y r (List.mem_of_mem_take hr) s l

theorem Current.atomic (h : T.Stable) {s : σ} {p : Program τ ℓ} (hp : T.Current s p) (y : τ) :
    T.Current (T.atomic s y) p := by
  intro x rest htodo
  rw [foldl_reads_atomic h]
  exact hp x rest htodo

/-- What a program has written, and what it has still to do. -/
def tasksOf (m : Machine σ τ ℓ) (j : Nat) : List τ :=
  (m.log.filter fun e => decide (e.1 = j)).map Prod.snd
    ++ ((m.programs[j]?).map Program.todo).getD []

theorem tasksOf_step (m : Machine σ τ ℓ) (j i : Nat) : tasksOf (T.step m j) i = tasksOf m i := by
  unfold step
  split
  · rfl
  · rename_i p hj
    split
    · rfl
    · rename_i x rest htodo
      obtain ⟨hlt, hget⟩ := List.getElem?_eq_some_iff.mp hj
      split
      · by_cases hi : i = j
        · subst hi
          simp [tasksOf, hlt, hget]
        · simp [tasksOf, List.getElem?_set_ne (Ne.symm hi)]
      · -- the task moves from those to do to those that have written
        by_cases hi : i = j
        · subst hi
          simp [tasksOf, hlt, hget, htodo]
        · simp [tasksOf, List.getElem?_set_ne (Ne.symm hi), Ne.symm hi]

/-- **Every program goes through its tasks in order**, and loses none. -/
theorem run_tasks (js : List Nat) (m : Machine σ τ ℓ) (i : Nat) :
    tasksOf (T.run js m) i = tasksOf m i := by
  induction js generalizing m with
  | nil => rfl
  | cons j js ih => rw [run, List.foldl_cons, ← run, ih, tasksOf_step]

/-- All programs are up to date with the state. -/
def Fresh (T : Tasks σ τ ℓ) (m : Machine σ τ ℓ) : Prop := ∀ p ∈ m.programs, T.Current m.state p

/-- A step leaves the state as it is, or executes the task that it logs. -/
theorem step_serial (h : T.Stable) {m : Machine σ τ ℓ} (hm : Fresh T m) (j : Nat) :
    Fresh T (T.step m j) ∧ ∃ xs : List (Nat × τ), (T.step m j).log = m.log ++ xs ∧
      (T.step m j).state = (xs.map Prod.snd).foldl T.atomic m.state := by
  unfold step
  split
  · exact ⟨hm, [], by simp, rfl⟩
  · rename_i p hj
    have hp := hm p (List.mem_of_getElem? hj)
    split
    · exact ⟨hm, [], by simp, rfl⟩
    · rename_i x rest htodo
      have hloc := hp x rest htodo
      split
      · -- a read: the local value goes on from what the earlier reads find now
        rename_i r hr
        refine ⟨fun q hq => ?_, [], by simp, rfl⟩
        rcases List.mem_or_eq_of_mem_set hq with hq | rfl
        · exact hm q hq
        · intro y rest' htodo'
          obtain ⟨rfl, rfl⟩ : x = y ∧ rest = rest' := by simpa [htodo] using htodo'
          rw [List.take_add_one, hr, Option.toList_some, List.foldl_append, ← hloc]
          rfl
      · -- the write: all reads are done, and it is the one of the whole task
        rename_i hr
        have hall : p.loc = (T.reads x).foldl (fun l r => r m.state l) T.start := by
          rw [hloc, List.take_of_length_le (List.getElem?_eq_none_iff.mp hr)]
        have hwrite : T.write x p.loc m.state = T.atomic m.state x := by rw [hall, atomic]
        refine ⟨fun q hq => ?_, [(j, x)], rfl, by simpa using hwrite⟩
        simp only [hwrite]
        rcases List.mem_or_eq_of_mem_set hq with hq | rfl
        · exact (hm q hq).atomic h x
        · exact fun _ _ _ => rfl

/-- **Every interleaving is a one-by-one execution**, in the order of the writes. -/
theorem run_serial (h : T.Stable) (js : List Nat) {m : Machine σ τ ℓ} (hm : Fresh T m) :
    ∃ xs : List (Nat × τ), (T.run js m).log = m.log ++ xs ∧
      (T.run js m).state = (xs.map Prod.snd).foldl T.atomic m.state := by
  induction js generalizing m with
  | nil => exact ⟨[], by simp [run], rfl⟩
  | cons j js ih =>
      obtain ⟨hfresh, xs, hlog, hstate⟩ := step_serial h hm j
      obtain ⟨ys, hlog', hstate'⟩ := ih hfresh
      refine ⟨xs ++ ys, ?_, ?_⟩
      · rw [run, List.foldl_cons, ← run, hlog', hlog, List.append_assoc]
      · rw [run, List.foldl_cons, ← run, hstate', hstate, List.map_append, List.foldl_append]

theorem fresh_init (s : σ) (lists : List (List τ)) : Fresh T (T.init s lists) := by
  intro p hp x rest _
  obtain ⟨xs, -, rfl⟩ := List.mem_map.mp hp
  rfl

/-- From the start, the log is the order of the execution. -/
theorem run_init (h : T.Stable) (js : List Nat) (s : σ) (lists : List (List τ)) :
    (T.run js (T.init s lists)).state
      = ((T.run js (T.init s lists)).log.map Prod.snd).foldl T.atomic s := by
  obtain ⟨xs, hlog, hstate⟩ := run_serial h js (fresh_init s lists)
  rw [hlog, hstate]
  rfl

end Tasks

end Unix
