import SnmpCollector.Basic

set_option autoImplicit false

/-! # Updating the devices table (`atualiza_bd/atualiza_id_snmp_rtt.pl`, `..._rtt2.pl`)

Both scripts read a file of interface ids line by line. For each line they look for rows of
`devices` that name the interface at their own end (side `a`) and for rows that name it at
the remote end (side `b`), prepare an update statement for each side in the one variable
`$sql_u`, and execute `$sql_u` once. They differ in the file they read, in how they decode a
line, and in when they also write the address.

`select` and `update ... where` are exact-match filtering and a pointwise update of the
matching rows. No update changes the columns that the `where` clauses look at, so a whole
run acts on every row on its own (`atualiza_eq_map`).
-/

namespace SnmpCollector.AtualizaBd

open Perl

/-! ## The table -/

/-- A row of `devices`; `outras` are the columns the scripts do not name. -/
structure Device where
  hostname : Str
  interface : Str
  ipLoopbackHost : Str
  idInt : Str
  hostnameRemoto : Str
  interfaceRemoto : Str
  ipLoopbackHostB : Str
  idIntB : Str
  outras : List Str
  deriving DecidableEq

/-- The end of a connection at which a row names an interface. -/
inductive Lado
  | a
  | b
  deriving DecidableEq

/-- A decoded input line. -/
structure Entrada where
  hostname : Str
  interface : Str
  ipLoopHost : Str
  idSnmp : Str
  deriving DecidableEq

/-- The `where` clause: the row names the interface of the line on the given side. -/
def casa (l : Lado) (e : Entrada) (r : Device) : Bool :=
  match l with
  | .a => r.hostname = e.hostname && r.interface = e.interface
  | .b => r.hostnameRemoto = e.hostname && r.interfaceRemoto = e.interface

/-- The `set` clause; the address is written when there is one. -/
def grava (l : Lado) (e : Entrada) (ip : Option Str) (r : Device) : Device :=
  match l with
  | .a => { r with idInt := e.idSnmp, ipLoopbackHost := ip.getD r.ipLoopbackHost }
  | .b => { r with idIntB := e.idSnmp, ipLoopbackHostB := ip.getD r.ipLoopbackHostB }

/-- `update devices set ... where ...` -/
def update (l : Lado) (e : Entrada) (ip : Option Str) (tbl : List Device) : List Device :=
  tbl.map fun r => if casa l e r then grava l e ip r else r

/-! ## The two scripts -/

inductive Script
  | rtt
  | rtt2
  deriving DecidableEq

/-- The decoding of a line: `id_rtt.txt` has the key `host_interface` first, `id_ger.txt` has
host and interface in two fields. -/
def entrada (s : Script) (lin : Str) : Entrada :=
  let dd := split ';' lin
  match s with
  | .rtt =>
      let hh := split '_' (field dd 0)
      ⟨field hh 0, field hh 1, field dd 4, field dd 6⟩
  | .rtt2 => ⟨field dd 0, field dd 1, field dd 6, field dd 2⟩

/-- The address that the update writes: always in the first script, only when it looks like
one in the second. -/
def sqll (s : Script) (e : Entrada) : Option Str :=
  match s with
  | .rtt => some e.ipLoopHost
  | .rtt2 => if temEndereco e.ipLoopHost then some e.ipLoopHost else none

/-- The body of the loop. `$sql_u` is empty at first, is set when side `a` has rows, and is
set again when side `b` has rows; what it holds at the end is executed. -/
def passo (s : Script) (tbl : List Device) (e : Entrada) : List Device :=
  let sqlU : Option Lado := none
  let sqlU := if tbl.any (casa .a e) then some .a else sqlU
  let sqlU := if tbl.any (casa .b e) then some .b else sqlU
  match sqlU with
  | some l => update l e (sqll s e) tbl
  | none => tbl

/-- A run of a script over the lines of its file. -/
def atualiza (s : Script) (lins : List Str) (tbl : List Device) : List Device :=
  (lins.map (entrada s)).foldl (passo s) tbl

/-! ## A run acts on every row on its own -/

section Row

variable (s : Script) (tbl : List Device)

/-- Some row of the table names the interface of the line at its remote end. -/
def temB (e : Entrada) : Bool := tbl.any (casa .b e)

/-- What one line does to one row of the table `tbl`. -/
def passoRow (r : Device) (e : Entrada) : Device :=
  if temB tbl e then (if casa .b e r then grava .b e (sqll s e) r else r)
  else if casa .a e r then grava .a e (sqll s e) r else r

theorem passo_eq_map (e : Entrada) : passo s tbl e = tbl.map (passoRow s tbl · e) := by
  have hself : tbl = tbl.map id := by simp
  by_cases hb : tbl.any (casa .b e)
  · simp only [passo, hb, if_true, update, passoRow, temB]
  · by_cases ha : tbl.any (casa .a e)
    · simp [passo, hb, ha, update, passoRow, temB]
    · -- no row on either side: nothing is executed
      have hnone : ∀ r ∈ tbl, casa .a e r = false := by simpa using ha
      simp only [passo, hb, ha, if_false, Bool.false_eq_true, passoRow, temB]
      nth_rewrite 1 [hself]
      refine List.map_congr_left fun r hr => ?_
      simp [hnone r hr]

/-- No line changes what the `where` clauses look at. -/
theorem casa_passoRow (l : Lado) (e e' : Entrada) (r : Device) :
    casa l e' (passoRow s tbl r e) = casa l e' r := by
  unfold passoRow
  split
  · split
    · cases l <;> rfl
    · rfl
  · split
    · cases l <;> rfl
    · rfl

theorem casa_foldl_passoRow (l : Lado) (es : List Entrada) (e' : Entrada) (r : Device) :
    casa l e' (es.foldl (passoRow s tbl) r) = casa l e' r := by
  induction es generalizing r with
  | nil => rfl
  | cons e es ih => rw [List.foldl_cons, ih, casa_passoRow]

theorem temB_map_passoRow (e e' : Entrada) :
    temB (tbl.map (passoRow s tbl · e)) e' = temB tbl e' := by
  rw [temB, temB, List.any_map]
  congr 1
  funext r
  exact casa_passoRow s tbl .b e e' r

/-- Of the table, a line looks only at whether it has a row on side `b`. -/
theorem passoRow_congr {tbl tbl' : List Device} {e : Entrada} (h : temB tbl e = temB tbl' e)
    (r : Device) : passoRow s tbl r e = passoRow s tbl' r e := by
  unfold passoRow
  rw [h]

/-- **A run acts on every row on its own**, given which lines have a row on side `b`. -/
theorem atualiza_eq_map (lins : List Str) :
    atualiza s lins tbl = tbl.map (fun r => (lins.map (entrada s)).foldl (passoRow s tbl) r) := by
  unfold atualiza
  induction lins.map (entrada s) generalizing tbl with
  | nil => simp
  | cons e es ih =>
      have hrow : passoRow s (tbl.map (passoRow s tbl · e)) = passoRow s tbl := by
        funext r e'
        exact passoRow_congr s (temB_map_passoRow s tbl e e') r
      rw [List.foldl_cons, passo_eq_map, ih, List.map_map, hrow]
      rfl

/-- The id on the row's own side is the one of the last line that names the row there and
has no row on the remote side. -/
theorem idInt_foldl_passoRow (es : List Entrada) (r : Device) :
    (es.foldl (passoRow s tbl) r).idInt
      = ((lastSuch (fun e => casa .a e r && !temB tbl e) es).map Entrada.idSnmp).getD r.idInt := by
  induction es using List.reverseRecOn with
  | nil => rfl
  | append_singleton es e ih =>
      have hcasa := casa_foldl_passoRow s tbl .a es e r
      rw [List.foldl_append, List.foldl_cons, List.foldl_nil, lastSuch_concat]
      set r' := es.foldl (passoRow s tbl) r with hr'
      by_cases hb : temB tbl e
      · have hkeep : (passoRow s tbl r' e).idInt = r'.idInt := by
          simp only [passoRow, hb, if_true]
          split <;> rfl
        simp [hkeep, hb, ih]
      · by_cases ha : casa .a e r
        · simp [passoRow, hb, hcasa, ha, grava]
        · simp [passoRow, hb, hcasa, ha, ih]

/-- The id on the remote side of a row of the table is the one of the last line that names
the row there. -/
theorem idIntB_foldl_passoRow (es : List Entrada) {r : Device} (hr : r ∈ tbl) :
    (es.foldl (passoRow s tbl) r).idIntB
      = ((lastSuch (fun e => casa .b e r) es).map Entrada.idSnmp).getD r.idIntB := by
  induction es using List.reverseRecOn with
  | nil => rfl
  | append_singleton es e ih =>
      have hcasa := casa_foldl_passoRow s tbl .b es e r
      rw [List.foldl_append, List.foldl_cons, List.foldl_nil, lastSuch_concat]
      set r' := es.foldl (passoRow s tbl) r with hr'
      by_cases hb : casa .b e r
      · have hany : temB tbl e = true := List.any_eq_true.mpr ⟨r, hr, hb⟩
        simp [passoRow, hany, hcasa, hb, grava]
      · have hkeep : (passoRow s tbl r' e).idIntB = r'.idIntB := by
          simp only [passoRow, hcasa, hb, if_false, Bool.false_eq_true]
          split
          · rfl
          · split <;> rfl
        simp [hkeep, hb, ih]

/-- A row that no line names is left as it was. -/
theorem foldl_passoRow_of_not_casa {es : List Entrada} {r : Device}
    (h : ∀ e ∈ es, casa .a e r = false ∧ casa .b e r = false) :
    es.foldl (passoRow s tbl) r = r := by
  induction es with
  | nil => rfl
  | cons e es ih =>
      have hrow : passoRow s tbl r e = r := by
        simp [passoRow, (h e (by simp)).1, (h e (by simp)).2]
      rw [List.foldl_cons, hrow, ih (fun e' he' => h e' (by simp [he']))]

end Row

/-! ## No lost update -/

/-- The pair (host, interface) of a line. -/
def par (s : Script) (lin : Str) : Str × Str := ((entrada s lin).hostname, (entrada s lin).interface)

/-- Every line has reached all rows that name its interface, on both sides, and a row that no
line names is what it was. -/
structure SemPerda (s : Script) (lins : List Str) (tbl : List Device) : Prop where
  ladoA : ∀ lin ∈ lins, ∀ r ∈ atualiza s lins tbl,
    casa .a (entrada s lin) r → r.idInt = (entrada s lin).idSnmp
  ladoB : ∀ lin ∈ lins, ∀ r ∈ atualiza s lins tbl,
    casa .b (entrada s lin) r → r.idIntB = (entrada s lin).idSnmp
  outros : ∀ (j : Nat) (r : Device), tbl[j]? = some r →
    (∀ lin ∈ lins, casa .a (entrada s lin) r = false ∧ casa .b (entrada s lin) r = false) →
    (atualiza s lins tbl)[j]? = some r

/-- With one line per pair, the line that names a row on a side is the only one. -/
theorem lastSuch_casa {s : Script} {lins : List Str} (hpar : (lins.map (par s)).Nodup) {l : Lado}
    {lin : Str} (hlin : lin ∈ lins) {r : Device} (hcasa : casa l (entrada s lin) r = true)
    {p : Entrada → Bool} (hp : ∀ e, p e = true → casa l e r = true) (hself : p (entrada s lin) = true) :
    lastSuch p (lins.map (entrada s)) = some (entrada s lin) := by
  obtain ⟨e, he⟩ := lastSuch_isSome (List.mem_map_of_mem hlin) hself
  obtain ⟨hmem, hpe⟩ := lastSuch_eq_some he
  obtain ⟨lin', hlin', rfl⟩ := List.mem_map.mp hmem
  have hcasa' := hp _ hpe
  have hsame : par s lin' = par s lin := by
    cases l <;> simp only [casa, Bool.and_eq_true, decide_eq_true_eq] at hcasa hcasa' <;>
      simp only [par, Prod.mk.injEq] <;>
      exact ⟨hcasa'.1.symm.trans hcasa.1, hcasa'.2.symm.trans hcasa.2⟩
  rw [he, List.inj_on_of_nodup_map hpar hlin' hlin hsame]

/-- **When no update is lost.** With one line per pair, the ids of all lines reach all rows
exactly when each line that has rows on the remote side finds its id already in place in the
rows of its own side. -/
theorem semPerda_iff (s : Script) (lins : List Str) (tbl : List Device)
    (hpar : (lins.map (par s)).Nodup) :
    SemPerda s lins tbl ↔ ∀ lin ∈ lins, (∃ r ∈ tbl, casa .b (entrada s lin) r) →
      ∀ r ∈ tbl, casa .a (entrada s lin) r → r.idInt = (entrada s lin).idSnmp := by
  have hrows : ∀ r', r' ∈ atualiza s lins tbl ↔
      ∃ r ∈ tbl, (lins.map (entrada s)).foldl (passoRow s tbl) r = r' := by
    intro r'
    rw [atualiza_eq_map, List.mem_map]
  constructor
  · intro h lin hlin hb r hr ha
    have hfin := h.ladoA lin hlin _ ((hrows _).mpr ⟨r, hr, rfl⟩)
      (by rw [casa_foldl_passoRow]; exact ha)
    have htem : temB tbl (entrada s lin) = true := List.any_eq_true.mpr hb
    -- the line itself is the only one that could write the row, and it does not
    have hnone : lastSuch (fun e => casa .a e r && !temB tbl e) (lins.map (entrada s)) = none := by
      rw [lastSuch_eq_none]
      intro e he hp
      have hp' : casa .a e r = true ∧ temB tbl e = false := by simpa using hp
      have huniq := lastSuch_casa hpar hlin ha (p := fun e => casa .a e r) (fun _ h => h) ha
      obtain ⟨lin', hlin', rfl⟩ := List.mem_map.mp he
      have huniq' := lastSuch_casa hpar hlin' hp'.1 (p := fun e => casa .a e r) (fun _ h => h) hp'.1
      rw [huniq] at huniq'
      rw [← Option.some.inj huniq', htem] at hp'
      exact absurd hp'.2 (by simp)
    rwa [idInt_foldl_passoRow, hnone] at hfin
  · intro h
    refine ⟨?_, ?_, ?_⟩
    · intro lin hlin r' hr' ha
      obtain ⟨r, hr, rfl⟩ := (hrows r').mp hr'
      rw [casa_foldl_passoRow] at ha
      rw [idInt_foldl_passoRow]
      by_cases htem : temB tbl (entrada s lin) = true
      · have hid := h lin hlin (List.any_eq_true.mp htem) r hr ha
        cases hl : lastSuch (fun e => casa .a e r && !temB tbl e) (lins.map (entrada s)) with
        | none => exact hid
        | some e =>
            obtain ⟨he, hp⟩ := lastSuch_eq_some hl
            have hp' : casa .a e r = true ∧ temB tbl e = false := by simpa using hp
            obtain ⟨lin', hlin', rfl⟩ := List.mem_map.mp he
            have h1 := lastSuch_casa hpar hlin ha (p := fun e => casa .a e r) (fun _ h => h) ha
            have h2 := lastSuch_casa hpar hlin' hp'.1 (p := fun e => casa .a e r) (fun _ h => h) hp'.1
            rw [h1] at h2
            rw [← Option.some.inj h2]
            rfl
      · rw [lastSuch_casa hpar hlin ha (fun e he => (by simpa using he : _ ∧ _).1) (by simp [ha, htem])]
        rfl
    · intro lin hlin r' hr' hb
      obtain ⟨r, hr, rfl⟩ := (hrows r').mp hr'
      rw [casa_foldl_passoRow] at hb
      rw [idIntB_foldl_passoRow s tbl _ hr, lastSuch_casa hpar hlin hb (fun _ h => h) hb]
      rfl
    · intro j r hj hno
      rw [atualiza_eq_map, List.getElem?_map, hj, Option.map_some,
        foldl_passoRow_of_not_casa s tbl (fun e he => ?_)]
      obtain ⟨lin, hlin, rfl⟩ := List.mem_map.mp he
      exact hno lin hlin

/-- A row that names an interface at its own end, and a row that names it at the remote end. -/
def rowA : Device :=
  ⟨"mcbhe01".toList, "ATM1/0.722".toList, [], "400".toList, [], [], [], [], []⟩

@[inherit_doc rowA]
def rowB : Device :=
  ⟨[], [], [], [], "mcbhe01".toList, "ATM1/0.722".toList, [], "400".toList, []⟩

/-- The line of that interface in each of the two files. -/
def linRtt : Str := "mcbhe01_ATM1/0.722;mcbhe01;ATM1/0.722;rtt;10.32.14.1;;473;\n".toList

@[inherit_doc linRtt]
def linGer : Str := "mcbhe01;ATM1/0.722;473;mcbhe01;ATM1/0.722;rtt;10.32.14.1;\n".toList

theorem semPerda_rowA : SemPerda .rtt [linRtt] [rowA] :=
  (semPerda_iff .rtt [linRtt] [rowA] (by simp)).mpr (by decide +kernel)

/-- The update of the row's own side is overwritten in `$sql_u` and never executed. -/
theorem update_lost :
    (∃ lins tbl, (lins.map (par .rtt)).Nodup ∧ ¬ SemPerda .rtt lins tbl) ∧
    (∃ lins tbl, (lins.map (par .rtt2)).Nodup ∧ ¬ SemPerda .rtt2 lins tbl) := by
  refine ⟨⟨[linRtt], [rowA, rowB], by simp, fun h => ?_⟩,
    ⟨[linGer], [rowA, rowB], by simp, fun h => ?_⟩⟩
  · have hid := h.ladoA linRtt (by simp) rowA (by decide +kernel) (by decide +kernel)
    exact absurd hid (by decide +kernel)
  · have hid := h.ladoA linGer (by simp) rowA (by decide +kernel) (by decide +kernel)
    exact absurd hid (by decide +kernel)

end SnmpCollector.AtualizaBd
