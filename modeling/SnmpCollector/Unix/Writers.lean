import SnmpCollector.Perl.Hash

set_option autoImplicit false

/-! # Files written by background processes

A directory maps names to inodes. A process whose output was redirected with `>` keeps the
inode that it opened and an offset of its own: it goes on writing there after the name has
been removed, and after another process has opened the same name.

`Mirrors fs log` relates such a file system to a directory `log` of complete outputs, in which
a file is there at once. It holds from a quiet file system on, is kept by removing names, by
every single write, and by starting a process on a name that is not there. Every file is then
at any moment a prefix of one output (`Mirrors.read_prefix`), and the file systems are equal
once all processes have ended (`Mirrors.read_quiet`).
-/

namespace Unix

open Perl

variable {κ β : Type*}

/-- A process with redirected output: its inode, the offset of its next write, and what it has
still to write. -/
structure Writer (β : Type*) where
  inode : Nat
  offset : Nat
  rest : List β

/-- The inodes in the order of their creation, the names, and the processes in the order in
which they were started. -/
structure Files (κ β : Type*) where
  inodes : List (List β)
  names : Hash κ Nat
  writers : List (Writer β)

/-- `write` at an offset: a gap beyond the end of the file is filled, and nothing happens when
there is nothing to write. -/
def writeAt (zero : β) (offset : Nat) (s data : List β) : List β :=
  if s.isEmpty then data
  else data.take offset ++ (List.replicate (offset - data.length) zero ++
    (s ++ data.drop (offset + s.length)))

theorem writeAt_end (zero : β) (s data : List β) : writeAt zero data.length s data = data ++ s := by
  unfold writeAt
  split
  · rename_i hs
    rw [List.isEmpty_iff.mp hs, List.append_nil]
  · rw [List.take_length, Nat.sub_self, List.drop_eq_nil_of_le (Nat.le_add_right _ _)]
    simp

namespace Files

/-- The process `j` writes the next `k` characters of its output. -/
def write (fs : Files κ β) (zero : β) (j k : Nat) : Files κ β :=
  match fs.writers[j]? with
  | none => fs
  | some w =>
      { fs with
        inodes := fs.inodes.modify w.inode (writeAt zero w.offset (w.rest.take k))
        writers := fs.writers.set j
          ⟨w.inode, w.offset + (w.rest.take k).length, w.rest.drop k⟩ }

/-- A write by a process that has ended changes nothing. -/
theorem write_of_ended {fs : Files κ β} {j : Nat} {w : Writer β} (hj : fs.writers[j]? = some w)
    (hw : w.rest = []) (zero : β) (k : Nat) : fs.write zero j k = fs := by
  have hset : fs.writers.set j ⟨w.inode, w.offset, []⟩ = fs.writers := by
    obtain ⟨hlt, rfl⟩ := List.getElem?_eq_some_iff.mp hj
    rw [← hw]
    exact List.set_getElem_self hlt
  rw [write, hj]
  simp only [hw, List.take_nil, List.drop_nil, List.length_nil, Nat.add_zero, hset]
  have hmod : fs.inodes.modify w.inode (writeAt zero w.offset []) = fs.inodes := by
    refine List.ext_getElem? fun i => ?_
    rw [List.getElem?_modify]
    split <;> simp [writeAt]
  rw [hmod]

variable [DecidableEq κ] (fs : Files κ β)

/-- Removing the names with the property `p`: the inodes and the processes stay. -/
def remove (p : κ → Bool) : Files κ β :=
  { fs with names := filterKeys (fun n => !p n) fs.names }

/-- Starting a process with its output redirected to `n`: the file is emptied if it is there,
and created otherwise. -/
def start (n : κ) (out : List β) : Files κ β :=
  match fs.names.lookup n with
  | some i => ⟨fs.inodes.set i [], fs.names, fs.writers ++ [⟨i, 0, out⟩]⟩
  | none =>
      ⟨fs.inodes ++ [[]], fs.names.insert n fs.inodes.length,
        fs.writers ++ [⟨fs.inodes.length, 0, out⟩]⟩

/-- The contents of a file. -/
def read (n : κ) : Option (List β) := (fs.names.lookup n).bind fun i => fs.inodes[i]?

/-- All processes have ended. -/
def Quiet : Prop := ∀ w ∈ fs.writers, w.rest = []

/-- Every name leads to an inode. -/
def Closed : Prop := ∀ n i, fs.names.lookup n = some i → i < fs.inodes.length

/-- What stands in the directory. -/
def contents : Hash κ (List β) := load id (fun n => (fs.read n).getD []) ∅ fs.names.keys

/-- No process writes to the file `n` any more. -/
def Idle (n : κ) : Prop := ∀ w ∈ fs.writers, w.rest ≠ [] → fs.names.lookup n ≠ some w.inode

end Files

/-! ## Complete outputs

`outs` holds, for every inode, what will be in it when all processes have ended. -/

variable [DecidableEq κ]

/-- No inode has two processes that still write, and a process writes at the end of its inode. -/
structure Sound (fs : Files κ β) (outs : List (List β)) : Prop where
  closed : fs.Closed
  length : outs.length = fs.inodes.length
  single : ∀ (a b : Nat) (w v : Writer β), fs.writers[a]? = some w → fs.writers[b]? = some v →
    a ≠ b → w.rest ≠ [] → v.rest ≠ [] → w.inode ≠ v.inode
  live : ∀ (a : Nat) (w : Writer β), fs.writers[a]? = some w → w.rest ≠ [] →
    ∃ d, fs.inodes[w.inode]? = some d ∧ w.offset = d.length ∧
      outs[w.inode]? = some (d ++ w.rest)
  ended : ∀ i, (∀ (a : Nat) (w : Writer β), fs.writers[a]? = some w → w.rest ≠ [] →
    w.inode ≠ i) → outs[i]? = fs.inodes[i]?

variable {fs : Files κ β} {outs : List (List β)}

theorem Sound.of_quiet (hq : fs.Quiet) (hc : fs.Closed) : Sound fs fs.inodes where
  closed := hc
  length := rfl
  single := fun _ _ w _ ha _ _ hw => absurd (hq w (List.mem_of_getElem? ha)) hw
  live := fun _ w ha hw => absurd (hq w (List.mem_of_getElem? ha)) hw
  ended := fun _ _ => rfl

/-- Every inode holds a prefix of its complete output. -/
theorem Sound.exists_out (h : Sound fs outs) {i : Nat} {d : List β} (hd : fs.inodes[i]? = some d) :
    ∃ out, outs[i]? = some out ∧ d <+: out := by
  by_cases hl : ∃ (a : Nat) (w : Writer β), fs.writers[a]? = some w ∧ w.rest ≠ [] ∧ w.inode = i
  · obtain ⟨a, w, ha, hw, rfl⟩ := hl
    obtain ⟨d', hd', -, hout⟩ := h.live a w ha hw
    obtain rfl : d' = d := by simpa [hd'] using hd
    exact ⟨_, hout, List.prefix_append _ _⟩
  · have hout := h.ended i fun a w ha hw hi => hl ⟨a, w, ha, hw, hi⟩
    exact ⟨d, hout.trans hd, List.prefix_refl d⟩

theorem Sound.inode_lt (h : Sound fs outs) {a : Nat} {w : Writer β}
    (ha : fs.writers[a]? = some w) (hw : w.rest ≠ []) : w.inode < fs.inodes.length := by
  obtain ⟨d, hd, -⟩ := h.live a w ha hw
  exact (List.getElem?_eq_some_iff.mp hd).1

theorem Sound.remove (h : Sound fs outs) (p : κ → Bool) : Sound (fs.remove p) outs where
  closed := by
    intro n i hn
    rw [Files.remove, lookup_filterKeys] at hn
    split at hn
    · exact h.closed n i hn
    · exact absurd hn (by simp)
  length := h.length
  single := h.single
  live := h.live
  ended := h.ended

/-- A name that is not there gets an inode of its own. -/
theorem Files.start_of_not_mem {n : κ} (hn : n ∉ fs.names) (out : List β) :
    fs.start n out = ⟨fs.inodes ++ [[]], fs.names.insert n fs.inodes.length,
      fs.writers ++ [⟨fs.inodes.length, 0, out⟩]⟩ := by
  rw [Files.start, AList.lookup_eq_none.mpr hn]

/-- A process of the list with one more is an old one or the new one. -/
theorem getElem?_concat {ws : List (Writer β)} {v w : Writer β} {a : Nat}
    (h : (ws ++ [v])[a]? = some w) : ws[a]? = some w ∨ (a = ws.length ∧ w = v) := by
  rw [List.getElem?_append] at h
  split at h
  · exact .inl h
  · rename_i hlt
    obtain ⟨hz, hv⟩ := List.getElem?_eq_some_iff.mp h
    simp only [List.length_singleton] at hz
    refine .inr ⟨by omega, ?_⟩
    simpa using hv.symm

theorem Sound.start (h : Sound fs outs) {n : κ} (hn : n ∉ fs.names) (out : List β) :
    Sound (fs.start n out) (outs ++ [out]) := by
  rw [Files.start_of_not_mem hn]
  have hold : ∀ {i : Nat}, i < fs.inodes.length → (fs.inodes ++ [[]])[i]? = fs.inodes[i]? ∧
      (outs ++ [out])[i]? = outs[i]? := by
    intro i hi
    exact ⟨List.getElem?_append_left hi, List.getElem?_append_left (h.length ▸ hi)⟩
  refine ⟨?_, by simp [h.length], ?_, ?_, ?_⟩
  · intro m i hm
    simp only at hm
    rw [List.length_append, List.length_singleton]
    by_cases hmn : m = n
    · rw [hmn, AList.lookup_insert] at hm
      cases hm
      exact Nat.lt_succ_self _
    · rw [AList.lookup_insert_ne hmn] at hm
      exact Nat.lt_succ_of_lt (h.closed m i hm)
  · intro a b w v ha hb hab hw hv
    rcases getElem?_concat ha with ha' | ⟨ha', rfl⟩
    · rcases getElem?_concat hb with hb' | ⟨-, rfl⟩
      · exact h.single a b w v ha' hb' hab hw hv
      · exact Nat.ne_of_lt (h.inode_lt ha' hw)
    · rcases getElem?_concat hb with hb' | ⟨hb', -⟩
      · exact (Nat.ne_of_lt (h.inode_lt hb' hv)).symm
      · exact absurd (ha'.trans hb'.symm) hab
  · intro a w ha hw
    rcases getElem?_concat ha with ha | ⟨-, rfl⟩
    · obtain ⟨d, hd, hoff, hout⟩ := h.live a w ha hw
      rw [(hold (h.inode_lt ha hw)).1, (hold (h.inode_lt ha hw)).2]
      exact ⟨d, hd, hoff, hout⟩
    · exact ⟨[], by simp, rfl, by simp [← h.length]⟩
  · intro i hi
    rcases Nat.lt_trichotomy i fs.inodes.length with hlt | rfl | hgt
    · rw [(hold hlt).1, (hold hlt).2]
      refine h.ended i fun a w ha hw => hi a w ?_ hw
      exact (List.getElem?_append_left (List.getElem?_eq_some_iff.mp ha).1).trans ha
    · -- the new process still writes to the new inode, unless it has no output
      have hout : out = [] := by
        by_contra hne
        exact hi fs.writers.length ⟨fs.inodes.length, 0, out⟩ (by simp) hne rfl
      rw [hout]
      simp [← h.length]
    · rw [List.getElem?_eq_none (by simp [h.length]; omega),
        List.getElem?_eq_none (by simp; omega)]

/-! ### A single write -/

/-- The inodes after a process that is at the end of its inode has written `s`. -/
theorem getElem?_modify_writeAt {l : List (List β)} {i : Nat} {d : List β} (hd : l[i]? = some d)
    (zero : β) (s : List β) (k : Nat) :
    (l.modify i (writeAt zero d.length s))[k]? = if i = k then some (d ++ s) else l[k]? := by
  rw [List.getElem?_modify]
  split
  · rename_i hik
    rw [← hik, hd]
    simp [writeAt_end]
  · simp

/-- A process of the list in which the process `j` has been replaced. -/
theorem getElem?_set_cases {ws : List (Writer β)} {v w : Writer β} {a j : Nat}
    (h : (ws.set j v)[a]? = some w) : (a ≠ j ∧ ws[a]? = some w) ∨ (a = j ∧ w = v) := by
  rw [List.getElem?_set] at h
  split at h
  · rename_i hja
    split at h
    · exact .inr ⟨hja.symm, (Option.some.inj h).symm⟩
    · exact absurd h (by simp)
  · rename_i hja
    exact .inl ⟨fun haj => hja haj.symm, h⟩

theorem Sound.write (h : Sound fs outs) (zero : β) (j k : Nat) :
    Sound (fs.write zero j k) outs := by
  cases hj : fs.writers[j]? with
  | none =>
      rw [Files.write, hj]
      exact h
  | some w =>
      by_cases hrest : w.rest = []
      · rwa [Files.write_of_ended hj hrest]
      obtain ⟨d, hd, hoff, hout⟩ := h.live j w hj hrest
      rw [Files.write, hj]
      simp only [hoff]
      have hino := getElem?_modify_writeAt hd zero (w.rest.take k)
      refine ⟨?_, by simpa using h.length, ?_, ?_, ?_⟩
      · intro n i hn
        simpa using h.closed n i hn
      · intro a b u v ha hb hab hu hv
        rcases getElem?_set_cases ha with ⟨-, ha'⟩ | ⟨ha', rfl⟩
        · rcases getElem?_set_cases hb with ⟨-, hb'⟩ | ⟨hb', rfl⟩
          · exact h.single a b u v ha' hb' hab hu hv
          · exact h.single a j u w ha' hj (hb' ▸ hab) hu hrest
        · rcases getElem?_set_cases hb with ⟨-, hb'⟩ | ⟨hb', -⟩
          · exact h.single j b w v hj hb' (ha' ▸ hab) hrest hv
          · exact absurd (ha'.trans hb'.symm) hab
      · intro a u ha hu
        rcases getElem?_set_cases ha with ⟨haj, ha'⟩ | ⟨-, rfl⟩
        · -- another process writes to another inode
          obtain ⟨e, he, hoff', hout'⟩ := h.live a u ha' hu
          have hne := h.single a j u w ha' hj haj hu hrest
          exact ⟨e, by rw [hino, if_neg hne.symm, he], hoff', hout'⟩
        · refine ⟨d ++ w.rest.take k, by rw [hino, if_pos rfl], by simp, ?_⟩
          simp only
          rw [hout, List.append_assoc, List.take_append_drop]
      · intro i hi
        rw [hino]
        split
        · rename_i hwi
          have hnil : w.rest.drop k = [] := by
            by_contra hne
            refine hi j ⟨w.inode, d.length + (w.rest.take k).length, w.rest.drop k⟩ ?_ hne hwi
            exact List.getElem?_set_self (List.getElem?_eq_some_iff.mp hj).1
          rw [← hwi, hout]
          rw [List.drop_eq_nil_iff] at hnil
          rw [List.take_of_length_le hnil]
        · rename_i hwi
          -- the writers of the other inodes are those of before
          refine h.ended i fun a u ha hu => ?_
          by_cases haj : a = j
          · rw [haj, hj] at ha
            rwa [← Option.some.inj ha]
          · refine hi a u ?_ hu
            rw [List.getElem?_set_ne fun hja => haj hja.symm]
            exact ha

/-! ### Files without a writer

A file to which no process writes stays so until its name is opened again. -/

theorem Files.Quiet.idle (hq : fs.Quiet) (n : κ) : fs.Idle n :=
  fun w hw hrest => absurd (hq w hw) hrest

theorem Files.Idle.remove {n : κ} (h : fs.Idle n) (p : κ → Bool) : (fs.remove p).Idle n := by
  intro w hw hrest hn
  rw [Files.remove, lookup_filterKeys] at hn
  split at hn
  · exact h w hw hrest hn
  · exact absurd hn (by simp)

theorem Files.Idle.write {n : κ} (h : fs.Idle n) (zero : β) (j k : Nat) :
    (fs.write zero j k).Idle n := by
  unfold Files.write
  split
  · exact h
  · rename_i w hj
    intro u hu hrest
    obtain ⟨a, ha⟩ := List.mem_iff_getElem?.mp hu
    rcases getElem?_set_cases ha with ⟨-, ha'⟩ | ⟨-, rfl⟩
    · exact h u (List.mem_of_getElem? ha') hrest
    · refine h w (List.mem_of_getElem? hj) fun hnil => hrest ?_
      simp only [hnil, List.drop_nil]

theorem Files.Idle.start {n m : κ} (h : fs.Idle n) (hc : fs.Closed) (hm : m ∉ fs.names)
    (hnm : n ≠ m) (out : List β) : (fs.start m out).Idle n := by
  rw [Files.start_of_not_mem hm]
  intro w hw hrest
  simp only [AList.lookup_insert_ne hnm]
  rcases List.mem_append.mp hw with hw | hw
  · exact h w hw hrest
  · intro hn
    rw [List.mem_singleton.mp hw] at hn
    exact absurd (hc n _ hn) (Nat.lt_irrefl _)

/-! ## The directory of complete outputs -/

/-- `log` holds, for every name that is there, the complete output. -/
def Mirrors (fs : Files κ β) (log : Hash κ (List β)) : Prop :=
  ∃ outs, Sound fs outs ∧ ∀ n, log.lookup n = (fs.names.lookup n).bind fun i => outs[i]?

namespace Mirrors

variable {log : Hash κ (List β)}

theorem lookup_contents (hc : fs.Closed) (n : κ) : fs.contents.lookup n = fs.read n := by
  rw [Files.contents, lookup_load, AList.lookup_empty, Option.or_none]
  cases hn : fs.names.lookup n with
  | none =>
      have hkeys : ∀ m ∈ fs.names.keys, ¬ decide (id m = n) = true := by
        rintro m hm hmn
        obtain rfl : m = n := by simpa using hmn
        exact absurd (AList.mem_keys.mpr hm) (AList.lookup_eq_none.mp hn)
      rw [lastSuch_eq_none.mpr hkeys, Files.read, hn]
      rfl
  | some i =>
      have hmem : n ∈ fs.names.keys := AList.mem_keys.mp (AList.lookup_isSome.mp (by simp [hn]))
      have hlast : lastSuch (fun m => decide (id m = n)) fs.names.keys = some n :=
        lastSuch_eq_of_unique hmem (by simp) fun m _ hm => by simpa using hm
      rw [hlast]
      simp [Files.read, hn, List.getElem?_eq_getElem (hc n i hn)]

/-- A quiet file system and the directory of its contents. -/
theorem of_quiet (hq : fs.Quiet) (hc : fs.Closed) : Mirrors fs fs.contents :=
  ⟨fs.inodes, .of_quiet hq hc, lookup_contents hc⟩

theorem closed (h : Mirrors fs log) : fs.Closed := by
  obtain ⟨outs, hs, -⟩ := h
  exact hs.closed

theorem mem_names (h : Mirrors fs log) (n : κ) : n ∈ fs.names ↔ n ∈ log := by
  obtain ⟨outs, hs, hlog⟩ := h
  rw [← AList.lookup_isSome, ← AList.lookup_isSome, hlog]
  cases hn : fs.names.lookup n with
  | none => rfl
  | some i =>
      have hi : i < outs.length := hs.length ▸ hs.closed n i hn
      simp [List.getElem?_eq_getElem hi]

theorem remove (h : Mirrors fs log) (p : κ → Bool) :
    Mirrors (fs.remove p) (filterKeys (fun n => !p n) log) := by
  obtain ⟨outs, hs, hlog⟩ := h
  refine ⟨outs, hs.remove p, fun n => ?_⟩
  rw [Files.remove, lookup_filterKeys, lookup_filterKeys, hlog]
  split <;> rfl

theorem write (h : Mirrors fs log) (zero : β) (j k : Nat) : Mirrors (fs.write zero j k) log := by
  obtain ⟨outs, hs, hlog⟩ := h
  have hnames : (fs.write zero j k).names = fs.names := by
    unfold Files.write
    split <;> rfl
  exact ⟨outs, hs.write zero j k, fun n => by rw [hnames, hlog]⟩

theorem start (h : Mirrors fs log) {n : κ} (hn : n ∉ log) (out : List β) :
    Mirrors (fs.start n out) (log.insert n out) := by
  have hn' : n ∉ fs.names := fun hmem => hn ((h.mem_names n).mp hmem)
  obtain ⟨outs, hs, hlog⟩ := h
  refine ⟨outs ++ [out], hs.start hn' out, fun m => ?_⟩
  rw [Files.start_of_not_mem hn']
  by_cases hmn : m = n
  · rw [hmn, AList.lookup_insert, AList.lookup_insert]
    simp [← hs.length]
  · rw [AList.lookup_insert_ne hmn, AList.lookup_insert_ne hmn, hlog]
    cases hm : fs.names.lookup m with
    | none => rfl
    | some i =>
        have hi : i < outs.length := hs.length ▸ hs.closed m i hm
        rw [Option.bind_some, Option.bind_some, List.getElem?_append_left hi]

/-- What is read at any moment is a prefix of one complete output. -/
theorem read_isPrefix (h : Mirrors fs log) {n : κ} {d : List β} (hd : fs.read n = some d) :
    ∃ out, log.lookup n = some out ∧ d <+: out := by
  obtain ⟨outs, hs, hlog⟩ := h
  rw [Files.read] at hd
  obtain ⟨i, hi, hd⟩ := Option.bind_eq_some_iff.mp hd
  obtain ⟨out, hout, hpre⟩ := hs.exists_out hd
  exact ⟨out, by rw [hlog, hi, Option.bind_some, hout], hpre⟩

/-- Every file that is there can be read. -/
theorem read_isSome (h : Mirrors fs log) (n : κ) : (fs.read n).isSome ↔ n ∈ log := by
  rw [← h.mem_names]
  obtain ⟨outs, hs, -⟩ := h
  rw [Files.read, ← AList.lookup_isSome]
  cases hn : fs.names.lookup n with
  | none => simp
  | some i => simp [List.getElem?_eq_getElem (hs.closed n i hn)]

/-- When no process writes to a file any more, the file is complete. -/
theorem read_idle (h : Mirrors fs log) {n : κ} (hn : fs.Idle n) : fs.read n = log.lookup n := by
  obtain ⟨outs, hs, hlog⟩ := h
  rw [Files.read, hlog]
  cases hi : fs.names.lookup n with
  | none => rfl
  | some i =>
      rw [Option.bind_some, Option.bind_some]
      refine (hs.ended i fun a w ha hw hwi => ?_).symm
      exact hn w (List.mem_of_getElem? ha) hw (by rw [hi, hwi])

theorem read_quiet (h : Mirrors fs log) (hq : fs.Quiet) (n : κ) : fs.read n = log.lookup n :=
  h.read_idle (hq.idle n)

end Mirrors

end Unix
