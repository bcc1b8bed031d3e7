import SnmpCollector.AtualizaBd.Devices
import SnmpCollector.Unix.Interleaving

set_option autoImplicit false

/-! # The two updaters at the same time

Nothing keeps `atualiza_id_snmp_rtt.pl` and `atualiza_id_snmp_rtt2.pl`, or two runs of one of
them, from working on the devices table at the same time. Each line of a file is two `select`
statements, whose answers choose `$sql_u`, and the `update` of `$sql_u`; the database executes
the statements of the connections in any order.

The `where` clauses look at columns that no update changes. So every interleaving of the
statements is a one-by-one execution of the lines, in the order of their updates
(`intercalacao`), and an id is the one of the last update that reaches its row
(`ids_depois`). Lines that are executed again change nothing (`repete`).
-/

namespace SnmpCollector.AtualizaBd

open Perl Unix

/-! ## Statements -/

/-- A line of the file of a script. -/
abbrev Linha := Script × Entrada

/-- `select ... where ...` on a side: `$sql_u` becomes the update of this side if there are rows. -/
def selecionaLado (l : Lado) (e : Entrada) (tbl : List Device) (sqlU : Option Lado) : Option Lado :=
  if tbl.any (casa l e) then some l else sqlU

/-- `$dbh->do($sql_u)` -/
def executaSql (x : Linha) (sqlU : Option Lado) (tbl : List Device) : List Device :=
  match sqlU with
  | some l => update l x.2 (sqll x.1 x.2) tbl
  | none => tbl

/-- The statements of a line. -/
def comandos : Tasks (List Device) Linha (Option Lado) where
  start := none
  reads x := [selecionaLado .a x.2, selecionaLado .b x.2]
  write := executaSql

/-- The lines of a file, as its script decodes them. -/
def linhasDoArquivo (a : Script × List Str) : List Linha := a.2.map fun lin => (a.1, entrada a.1 lin)

/-- A line whose statements are not interrupted. -/
def passoLinha (tbl : List Device) (x : Linha) : List Device := passo x.1 tbl x.2

theorem atomic_comandos (tbl : List Device) (x : Linha) :
    comandos.atomic tbl x = passoLinha tbl x := rfl

/-- What a line does to a row of the table `tbl`. -/
def passoLinhaRow (tbl : List Device) (r : Device) (x : Linha) : Device := passoRow x.1 tbl r x.2

theorem any_casa_passoLinha (tbl : List Device) (x : Linha) (l : Lado) (e : Entrada) :
    (passoLinha tbl x).any (casa l e) = tbl.any (casa l e) := by
  rw [passoLinha, passo_eq_map, List.any_map]
  congr 1
  funext r
  exact casa_passoRow x.1 tbl l x.2 e r

theorem stable_comandos : comandos.Stable := by
  intro x y r hr tbl sqlU
  have hsel : ∀ l, selecionaLado l x.2 (comandos.atomic tbl y) sqlU
      = selecionaLado l x.2 tbl sqlU := by
    intro l
    rw [selecionaLado, selecionaLado, atomic_comandos, any_casa_passoLinha]
  rcases List.mem_cons.mp hr with rfl | hr
  · exact hsel .a
  · rw [List.mem_singleton.mp hr]
    exact hsel .b

/-! ## Interleaved runs -/

/-- The scripts `arqs`, each on its file, after the statements of the connections `js`. -/
def conexoes (arqs : List (Script × List Str)) (tbl : List Device) (js : List Nat) :
    Machine (List Device) Linha (Option Lado) :=
  comandos.run js (comandos.init tbl (arqs.map linhasDoArquivo))

/-- The lines that have been updated, in the order of their updates. -/
def atualizadas (arqs : List (Script × List Str)) (tbl : List Device) (js : List Nat) :
    List Linha := (conexoes arqs tbl js).log.map Prod.snd

/-- The lines that the script `i` has updated. -/
def feitas (arqs : List (Script × List Str)) (tbl : List Device) (js : List Nat) (i : Nat) :
    List Linha := ((conexoes arqs tbl js).log.filter fun e => decide (e.1 = i)).map Prod.snd

/-- The lines that the script `i` has still to update. -/
def porFazer (arqs : List (Script × List Str)) (tbl : List Device) (js : List Nat) (i : Nat) :
    List Linha := (((conexoes arqs tbl js).programs[i]?).map Program.todo).getD []

/-- **Every interleaving is a one-by-one execution** in the order of the updates, in which each
script goes through its file from the front and leaves no line out. -/
theorem intercalacao (arqs : List (Script × List Str)) (tbl : List Device) (js : List Nat) :
    (conexoes arqs tbl js).state = (atualizadas arqs tbl js).foldl passoLinha tbl ∧
      ∀ i a, arqs[i]? = some a →
        feitas arqs tbl js i ++ porFazer arqs tbl js i = linhasDoArquivo a := by
  constructor
  · exact Tasks.run_init stable_comandos js tbl (arqs.map linhasDoArquivo)
  · intro i a hi
    have hini : Tasks.tasksOf (comandos.init tbl (arqs.map linhasDoArquivo)) i
        = linhasDoArquivo a := by
      simp [Tasks.tasksOf, Tasks.init, hi]
    rw [← hini]
    exact Tasks.run_tasks js (comandos.init tbl (arqs.map linhasDoArquivo)) i

/-! ## The rows after an interleaved run -/

/-- The id on a side. -/
def idLado (l : Lado) (r : Device) : Str :=
  match l with
  | .a => r.idInt
  | .b => r.idIntB

/-- The address on a side. -/
def ipLado (l : Lado) (r : Device) : Str :=
  match l with
  | .a => r.ipLoopbackHost
  | .b => r.ipLoopbackHostB

/-- The update of the line reaches the row on this side: the row names the interface there, and
on its own side no row of the table names it at the remote end. -/
def alcanca (tbl : List Device) (l : Lado) (r : Device) (x : Linha) : Bool :=
  casa l x.2 r && match l with
    | .a => !temB tbl x.2
    | .b => true

section Row

variable (tbl : List Device)

theorem casa_foldl_passoLinhaRow (l : Lado) (e : Entrada) (xs : List Linha) (r : Device) :
    casa l e (xs.foldl (passoLinhaRow tbl) r) = casa l e r := by
  induction xs generalizing r with
  | nil => rfl
  | cons x xs ih => rw [List.foldl_cons, ih, passoLinhaRow, casa_passoRow]

/-- One line and one side of a row of the table. -/
theorem lado_passoLinhaRow {r r₀ : Device} (hr₀ : r₀ ∈ tbl) (hr : ∀ l e, casa l e r = casa l e r₀)
    (l : Lado) (x : Linha) :
    idLado l (passoLinhaRow tbl r x) = (if alcanca tbl l r₀ x then x.2.idSnmp else idLado l r) ∧
    ipLado l (passoLinhaRow tbl r x)
      = (if alcanca tbl l r₀ x then (sqll x.1 x.2).getD (ipLado l r) else ipLado l r) := by
  have hb : casa .b x.2 r₀ = true → temB tbl x.2 = true :=
    fun h => List.any_eq_true.mpr ⟨r₀, hr₀, h⟩
  unfold passoLinhaRow passoRow
  rw [hr .a x.2, hr .b x.2]
  cases l with
  | a =>
      by_cases ht : temB tbl x.2 = true
      · by_cases hc : casa .b x.2 r₀ = true <;> simp [alcanca, ht, hc, grava, idLado, ipLado]
      · by_cases hc : casa .a x.2 r₀ = true <;> simp [alcanca, ht, hc, grava, idLado, ipLado]
  | b =>
      by_cases hc : casa .b x.2 r₀ = true
      · simp [alcanca, hb hc, hc, grava, idLado, ipLado]
      · by_cases ht : temB tbl x.2 = true
        · simp [alcanca, ht, hc]
        · by_cases ha : casa .a x.2 r₀ = true <;> simp [alcanca, ht, hc, ha, grava, idLado, ipLado]

/-- **The ids and addresses after a list of lines**: the id of the last line that reaches the row,
the address of the last one of these that writes one. -/
theorem lado_foldl_passoLinhaRow {r : Device} (hr : r ∈ tbl) (l : Lado) (xs : List Linha) :
    idLado l (xs.foldl (passoLinhaRow tbl) r)
      = ((lastSuch (alcanca tbl l r) xs).map fun x => x.2.idSnmp).getD (idLado l r) ∧
    ipLado l (xs.foldl (passoLinhaRow tbl) r)
      = (((xs.filter (alcanca tbl l r)).filterMap fun x => sqll x.1 x.2).getLast?).getD
          (ipLado l r) := by
  induction xs using List.reverseRecOn with
  | nil => exact ⟨rfl, rfl⟩
  | append_singleton xs x ih =>
      obtain ⟨ihid, ihip⟩ := ih
      obtain ⟨hid, hip⟩ := lado_passoLinhaRow tbl hr
        (fun l e => casa_foldl_passoLinhaRow tbl l e xs r) l x
      rw [List.foldl_append, List.foldl_cons, List.foldl_nil, hid, hip, lastSuch_concat, ihid, ihip,
        List.filter_append, List.filterMap_append]
      by_cases h : alcanca tbl l r x = true
      · rw [List.filter_cons_of_pos h, if_pos h, if_pos h, if_pos h]
        cases hs : sqll x.1 x.2 with
        | none => simp [hs]
        | some ip => simp [hs]
      · rw [List.filter_cons_of_neg h, if_neg h, if_neg h, if_neg h]
        simp

/-- The columns that no script writes. -/
def fixas (r : Device) : Str × Str × Str × Str × List Str :=
  (r.hostname, r.interface, r.hostnameRemoto, r.interfaceRemoto, r.outras)

theorem fixas_foldl_passoLinhaRow (xs : List Linha) (r : Device) :
    fixas (xs.foldl (passoLinhaRow tbl) r) = fixas r := by
  have hgrava : ∀ l e ip r, fixas (grava l e ip r) = fixas r := by
    intro l e ip r
    cases l <;> rfl
  have hpasso : ∀ r x, fixas (passoLinhaRow tbl r x) = fixas r := by
    intro r x
    unfold passoLinhaRow passoRow
    split_ifs <;> first | exact hgrava _ _ _ _ | rfl
  induction xs generalizing r with
  | nil => rfl
  | cons x xs ih => rw [List.foldl_cons, ih, hpasso]

/-- A row is made of the columns that are written and of the others. -/
theorem device_ext {r r' : Device} (hf : fixas r = fixas r')
    (hl : ∀ l, idLado l r = idLado l r' ∧ ipLado l r = ipLado l r') : r = r' := by
  have ha := hl .a
  have hb := hl .b
  cases r
  cases r'
  simp only [fixas, idLado, ipLado, Prod.mk.injEq] at hf ha hb
  simp [hf, ha, hb]

end Row

/-- A run over lines of both scripts acts on every row on its own. -/
theorem foldl_passoLinha_eq_map (xs : List Linha) (tbl : List Device) :
    xs.foldl passoLinha tbl = tbl.map fun r => xs.foldl (passoLinhaRow tbl) r := by
  induction xs generalizing tbl with
  | nil => simp
  | cons x xs ih =>
      have hrow : passoLinhaRow (passoLinha tbl x) = passoLinhaRow tbl := by
        funext r y
        exact passoRow_congr y.1 (any_casa_passoLinha tbl x .b y.2) r
      rw [List.foldl_cons, ih, hrow, passoLinha, passo_eq_map, List.map_map]
      rfl

/-- The id of the last line that reaches the row on this side. -/
def ultimoId (tbl : List Device) (xs : List Linha) (l : Lado) (r : Device) : Str :=
  ((lastSuch (alcanca tbl l r) xs).map fun x => x.2.idSnmp).getD (idLado l r)

/-- The address of the last line that reaches the row on this side and writes one. -/
def ultimoIp (tbl : List Device) (xs : List Linha) (l : Lado) (r : Device) : Str :=
  (((xs.filter (alcanca tbl l r)).filterMap fun x => sqll x.1 x.2).getLast?).getD (ipLado l r)

/-- The row after the lines `xs`. -/
def depois (tbl : List Device) (xs : List Linha) (r : Device) : Device :=
  { r with
    idInt := ultimoId tbl xs .a r
    ipLoopbackHost := ultimoIp tbl xs .a r
    idIntB := ultimoId tbl xs .b r
    ipLoopbackHostB := ultimoIp tbl xs .b r }

theorem foldl_passoLinhaRow_eq_depois (xs : List Linha) {tbl : List Device} {r : Device}
    (hr : r ∈ tbl) : xs.foldl (passoLinhaRow tbl) r = depois tbl xs r := by
  refine device_ext (fixas_foldl_passoLinhaRow tbl xs r) fun l => ?_
  obtain ⟨hid, hip⟩ := lado_foldl_passoLinhaRow tbl hr l xs
  cases l with
  | a => exact ⟨hid, hip⟩
  | b => exact ⟨hid, hip⟩

theorem foldl_passoLinha_eq_depois (xs : List Linha) (tbl : List Device) :
    xs.foldl passoLinha tbl = tbl.map (depois tbl xs) := by
  rw [foldl_passoLinha_eq_map]
  exact List.map_congr_left fun r hr => foldl_passoLinhaRow_eq_depois xs hr

/-- **The rows after an interleaved run**: on each side the id is the one of the last update that
reached the row, the address the one of the last such update that wrote one, and all else is as it
was, in every interleaving. -/
theorem ids_depois (arqs : List (Script × List Str)) (tbl : List Device) (js : List Nat) :
    (conexoes arqs tbl js).state = tbl.map (depois tbl (atualizadas arqs tbl js)) := by
  rw [← foldl_passoLinha_eq_depois]
  exact Tasks.run_init stable_comandos js tbl (arqs.map linhasDoArquivo)

/-! ## Lines that are executed again -/

/-- No line changes which rows the others reach. -/
theorem alcanca_depois (tbl : List Device) (xs : List Linha) (l : Lado) {r : Device} (hr : r ∈ tbl)
    (x : Linha) : alcanca (xs.foldl passoLinha tbl) l (depois tbl xs r) x = alcanca tbl l r x := by
  have hany : ∀ ys : List Linha, temB (ys.foldl passoLinha tbl) x.2 = temB tbl x.2 := by
    intro ys
    induction ys using List.reverseRecOn with
    | nil => rfl
    | append_singleton ys y ih =>
        rw [List.foldl_append, List.foldl_cons, List.foldl_nil, temB, any_casa_passoLinha]
        exact ih
  unfold alcanca
  rw [← foldl_passoLinhaRow_eq_depois xs hr, casa_foldl_passoLinhaRow, hany]

/-- **The updaters can be run again.** When the lines of an interleaved run are executed once
more, in the order of their updates, no row changes. -/
theorem repete (arqs : List (Script × List Str)) (tbl : List Device) (js : List Nat) :
    (atualizadas arqs tbl js).foldl passoLinha (conexoes arqs tbl js).state
      = (conexoes arqs tbl js).state := by
  have hstate : (conexoes arqs tbl js).state = (atualizadas arqs tbl js).foldl passoLinha tbl :=
    Tasks.run_init stable_comandos js tbl (arqs.map linhasDoArquivo)
  set xs := atualizadas arqs tbl js
  rw [hstate, foldl_passoLinha_eq_depois xs (xs.foldl passoLinha tbl)]
  nth_rewrite 2 [foldl_passoLinha_eq_depois]
  nth_rewrite 2 [foldl_passoLinha_eq_depois]
  rw [List.map_map]
  refine List.map_congr_left fun r hr => ?_
  have hreach : ∀ l, alcanca (xs.foldl passoLinha tbl) l (depois tbl xs r) = alcanca tbl l r :=
    fun l => funext fun x => alcanca_depois tbl xs l hr x
  -- what the second run writes is what the first one has written
  have hid : ∀ l, ultimoId (xs.foldl passoLinha tbl) xs l (depois tbl xs r) = ultimoId tbl xs l r := by
    intro l
    rw [ultimoId, hreach, ultimoId]
    cases hl : lastSuch (alcanca tbl l r) xs with
    | none =>
        cases l with
        | a => simp [idLado, depois, ultimoId, hl]
        | b => simp [idLado, depois, ultimoId, hl]
    | some x => rfl
  have hip : ∀ l, ultimoIp (xs.foldl passoLinha tbl) xs l (depois tbl xs r) = ultimoIp tbl xs l r := by
    intro l
    rw [ultimoIp, hreach, ultimoIp]
    cases hl : ((xs.filter (alcanca tbl l r)).filterMap fun x => sqll x.1 x.2).getLast? with
    | none =>
        cases l with
        | a => simp [ipLado, depois, ultimoIp, hl]
        | b => simp [ipLado, depois, ultimoIp, hl]
    | some x => rfl
  refine device_ext rfl fun l => ?_
  cases l with
  | a => exact ⟨hid .a, hip .a⟩
  | b => exact ⟨hid .b, hip .b⟩

end SnmpCollector.AtualizaBd
