import SnmpCollector.Leitor.Inventario
import SnmpCollector.AtualizaBd.Devices

set_option autoImplicit false

/-! # Reading the walk logs (`leitor/00_ler_snmp_walk_host.pl`)

After the hosts list and the inventory (`Leitor/Inventario.lean`) the reader goes through the
directory of walk logs. Every line with `=` is a row: an interface description with its id.
The reader writes each row to `id_ger.txt`, in the order in which it reads them, and selects
one id per key `host_interface`: for serial interfaces the first one, for the others the
last one. The selected ids go to `id_getsnmp.txt` and `id_rtt.txt`.

`id_rtt.txt` is read by `atualiza_id_snmp_rtt.pl`, `id_ger.txt` by `atualiza_id_snmp_rtt2.pl`.
The first installs the selected id, the second the id of the last row of an interface;
`mesmoId_iff` says when the two are the same.
-/

namespace SnmpCollector.Leitor

open Perl AtualizaBd

/-! ## Rows -/

/-- A row of a walk log: `$host_arq`, `@int[1]` and `@id[1]`. -/
structure Row where
  host : Str
  int : Str
  id : Str
  deriving DecidableEq

/-- `$host_arq`: the host in the name of a log file. -/
def hostArq (dados : Str) : Str :=
  if '-' ∈ dados then field (split '-' dados) 0 else replaceAll ".txt".toList [] dados

/-- The row in a line of the log file `dados`. -/
def lerLinha (dados linha : Str) : Option Row :=
  let linha := chomp linha
  if '=' ∈ linha then
    let d := split '=' (replaceAll "STRING: ".toList "#".toList linha)
    let id := split '.' (field d 0)
    let int := split '#' ((field d 1).map fun c => if c = '-' then '#' else c)
    some ⟨hostArq dados, semBrancos (field int 1), semBrancos (field id 1)⟩
  else none

/-- `$refx` -/
def Row.refx (r : Row) : Str := r.host ++ '_' :: r.int

/-- The line `"$host_arq;@int[1];@id[1];$host_interface{$refx}\n"` of `id_ger.txt`. -/
def linhaGer (hi : Hash Str Str) (r : Row) : Str :=
  delimited ';' [r.host, r.int, r.id] ++ (fetch hi r.refx ++ ['\n'])

/-- `$int[1]=~/Serial/` -/
def Row.serial (r : Row) : Bool := contem "Serial".toList r.int

/-- `$int[1]=~/ATM/` -/
def Row.atm (r : Row) : Bool := contem "ATM".toList r.int

/-- The choice of the id: `h` is `%hint_id`. -/
def escolhe (h : Hash Str Str) (r : Row) : Hash Str Str :=
  -- `$lin` was the variable of the earlier `foreach` loops and is undefined again here
  let aal5 := contem "aal5".toList []
  if r.serial || r.atm then
    if (fetch h r.refx).length < 1 && r.serial then h.insert r.refx r.id
    else if aal5 && r.atm then h.insert r.refx r.id
    else if r.atm then h.insert r.refx r.id
    else h
  else h.insert r.refx r.id

/-! ## The loop over the files -/

/-- The variables of the loop: `%hint_id`, `$host_arq` (which keeps its value from one file to
the next) and the lines written so far. -/
structure Leitura where
  hintId : Hash Str Str
  hostArq : Str
  idGeral : List Str
  idErr : List Str
  idErrHost : List Str

def lerRow (hi : Hash Str Str) (st : Leitura) (r : Row) : Leitura :=
  { st with
    hintId := escolhe st.hintId r
    hostArq := r.host
    idGeral := st.idGeral ++ [linhaGer hi r] }

/-- A log file: its name and its lines. -/
abbrev LogFile := Str × List Str

/-- The entries `.` and `..` of a directory. -/
def ponto (nome : Str) : Bool := nome = ".".toList || nome = "..".toList

/-- The rows of a log file. -/
def rowsDe (arq : LogFile) : List Row :=
  if ponto arq.1 then [] else arq.2.filterMap (lerLinha arq.1)

def lerArquivo (hi : Hash Str Str) (st : Leitura) (arq : LogFile) : Leitura :=
  if ponto arq.1 then st
  else
    let rows := rowsDe arq
    let st := rows.foldl (lerRow hi) st
    let size := (arq.2.map List.length).sum
    if rows.length = 0 ∨ size = 0 then
      let inf := split '-' arq.1
      { st with
        idErrHost := st.idErrHost ++
          [delimited ';' [field inf 0, replaceAll ".txt".toList [] (field inf 1)] ++ ['\n']]
        idErr := st.idErr ++ [st.hostArq ++ ['\n']] }
    else st

def lerArquivos (hi : Hash Str Str) (dir : List LogFile) : Leitura :=
  dir.foldl (lerArquivo hi) ⟨∅, [], [], [], []⟩

/-! ## The whole program -/

/-- The files the reader writes, each as the lines it prints. -/
structure Saidas where
  idGer : List Str
  idGetsnmp : List Str
  idRtt : List Str
  idErr : List Str
  idErrHost : List Str

/-- The line of `id_err.txt` for a key without an id. -/
def linhaErr (hi hintId : Hash Str Str) (item : Str) : Str :=
  delimited ';' [item, '!' :: (fetch hi item ++ ['!']), fetch hintId item] ++ ['\n']

/-- The line of `id_err_host.txt` for a key without an id. A key without a dot is looked up in
`%hostname_ip`, a hash that is never filled. -/
def linhaErrHost (t : HostTabs) (item : Str) : Option Str :=
  let hx := split '_' item
  let ipIt := if '.' ∈ item then fetch t.hostnameFullIp (field hx 0) else []
  if temEndereco (field (split ';' ipIt) 1) then some (ipIt ++ ":\n".toList) else none

/-- `00_ler_snmp_walk_host.pl`: the hosts list, the inventory, the directory of logs in listing
order, and the order in which the last loop enumerates `%host_interface`. -/
def lerSnmpWalkHost (hosts inv : List Str) (dir : List LogFile) (o : KeyOrder Unit Str) : Saidas :=
  let t := lerHosts hosts
  let hi := lerInterfaces t inv
  let st := lerArquivos hi dir
  let itens := o.keys () hi.keys
  let semId := itens.filter fun item => !temDigito (fetch st.hintId item)
  { idGer := st.idGeral
    idGetsnmp := idGetsnmp hi st.hintId itens
    idRtt := idRtt hi st.hintId itens
    idErr := st.idErr ++ semId.map (linhaErr hi st.hintId)
    idErrHost := st.idErrHost ++ semId.filterMap (linhaErrHost t) }

/-! ## What the loop leaves -/

/-- The rows of a directory of logs, in listing order. -/
def rows (dir : List LogFile) : List Row := dir.flatMap rowsDe

theorem foldl_lerRow (hi : Hash Str Str) (rs : List Row) (st : Leitura) :
    (rs.foldl (lerRow hi) st).hintId = rs.foldl escolhe st.hintId ∧
    (rs.foldl (lerRow hi) st).idGeral = st.idGeral ++ rs.map (linhaGer hi) := by
  induction rs generalizing st with
  | nil => simp
  | cons r rs ih =>
      obtain ⟨h1, h2⟩ := ih (lerRow hi st r)
      refine ⟨h1, ?_⟩
      rw [List.foldl_cons, h2]
      simp [lerRow]

/-- One file adds its rows, in their order, to the selection and to `id_ger.txt`. -/
theorem lerArquivo_spec (hi : Hash Str Str) (st : Leitura) (arq : LogFile) :
    (lerArquivo hi st arq).hintId = (rowsDe arq).foldl escolhe st.hintId ∧
    (lerArquivo hi st arq).idGeral = st.idGeral ++ (rowsDe arq).map (linhaGer hi) := by
  unfold lerArquivo
  split
  · rename_i hdot
    simp [rowsDe, hdot]
  · dsimp only
    split <;> exact foldl_lerRow hi _ st

theorem foldl_lerArquivo (hi : Hash Str Str) (dir : List LogFile) (st : Leitura) :
    (dir.foldl (lerArquivo hi) st).hintId = (rows dir).foldl escolhe st.hintId ∧
    (dir.foldl (lerArquivo hi) st).idGeral = st.idGeral ++ (rows dir).map (linhaGer hi) := by
  induction dir generalizing st with
  | nil => simp [rows]
  | cons arq dir ih =>
      obtain ⟨h1, h2⟩ := lerArquivo_spec hi st arq
      obtain ⟨ih1, ih2⟩ := ih (lerArquivo hi st arq)
      rw [List.foldl_cons, ih1, ih2, h1, h2]
      simp [rows, List.foldl_append]

/-- The selection among the rows of one key: a plain serial row keeps an id that is already
there, every other row replaces it. -/
def regra (rs : List Row) : Str :=
  rs.foldl (fun id r =>
    if r.serial && !r.atm && decide (id ≠ []) then id else r.id) []

/-- `%hint_id` holds for each key what the rule selects among the rows of the key. -/
theorem fetch_foldl_escolhe (rs : List Row) (k : Str) :
    fetch (rs.foldl escolhe ∅) k = regra (rs.filter fun r => r.refx = k) := by
  induction rs using List.reverseRecOn with
  | nil => rfl
  | append_singleton rs r ih =>
      rw [List.foldl_append, List.foldl_cons, List.foldl_nil, List.filter_append]
      set h := rs.foldl escolhe ∅ with hh
      have hins : ∀ v, fetch (h.insert r.refx v) r.refx = v := by
        intro v
        rw [fetch_insert, if_pos rfl]
      by_cases hk : r.refx = k
      · subst hk
        rw [List.filter_cons_of_pos (by simp), List.filter_nil, regra, List.foldl_append,
          List.foldl_cons, List.foldl_nil]
        rw [regra] at ih
        rw [← ih]
        by_cases hs : r.serial <;> by_cases ha : r.atm <;>
          by_cases he : fetch h r.refx = [] <;> simp [escolhe, hs, ha, he, hins]
      · have hne : ∀ v, fetch (h.insert r.refx v) k = fetch h k := by
          intro v
          rw [fetch_insert, if_neg (Ne.symm hk)]
        rw [List.filter_cons_of_neg (by simpa using hk), List.filter_nil, List.append_nil, ← ih]
        simp only [escolhe]
        split
        · split
          · exact hne _
          · split
            · exact hne _
            · split
              · exact hne _
              · rfl
        · exact hne _

/-- For every line of `id_rtt.txt` and every row of `devices` that names its interface at its
own end and not at the remote end, a run of the second updater over `id_ger.txt` leaves the
id that the first updater writes. -/
def MesmoId (s : Saidas) (tbl : List Device) : Prop :=
  ∀ lin ∈ s.idRtt, ∀ (j : Nat) (r r' : Device), tbl[j]? = some r →
    casa .a (entrada .rtt lin) r = true → casa .b (entrada .rtt lin) r = false →
    (atualiza .rtt2 s.idGer tbl)[j]? = some r' → r'.idInt = (entrada .rtt lin).idSnmp

/-- The line of `id_rtt.txt` for the key `k`, given the rows of the logs. -/
def linhaRtt (hi : Hash Str Str) (rs : List Row) (k : Str) : Str :=
  linhaId k (fetch hi k) (regra (rs.filter fun x => x.refx = k))

/-- The last row of the logs that the second updater takes for the interface of `e`. -/
def ultimaRow (hi : Hash Str Str) (rs : List Row) (e : Entrada) : Option Row :=
  lastSuch (fun x => par .rtt2 (linhaGer hi x) = (e.hostname, e.interface)) rs

/-- The id of the last row of the logs for the interface of `e`. Where the second updater
writes nothing to the row `r` of `devices`, because another row names the interface at the
remote end or no row of the logs is taken for the interface, it is the id already there. -/
def ultimoId (hi : Hash Str Str) (rs : List Row) (tbl : List Device) (e : Entrada) (r : Device) : Str :=
  ((if temB tbl e then none else ultimaRow hi rs e).map
    fun x => (entrada .rtt2 (linhaGer hi x)).idSnmp).getD r.idInt

/-- For every key of the inventory with `rtt` in its record and an id, and every row of
`devices` that names the key's interface at its own end only: the last row of the logs for
this interface has the id that the rule selects among the rows of the key. -/
def UltimaRowTemId (hi : Hash Str Str) (rs : List Row) (tbl : List Device) : Prop :=
  ∀ k ∈ hi, contem "rtt".toList (fetch hi k) = true →
    temDigito (regra (rs.filter fun x => x.refx = k)) = true →
    ∀ r ∈ tbl, casa .a (entrada .rtt (linhaRtt hi rs k)) r = true →
      casa .b (entrada .rtt (linhaRtt hi rs k)) r = false →
      ultimoId hi rs tbl (entrada .rtt (linhaRtt hi rs k)) r
        = (entrada .rtt (linhaRtt hi rs k)).idSnmp

/-- What the second updater leaves in a row that names the interface of `e` at its own end. -/
theorem idInt_atualiza_rtt2 (hi : Hash Str Str) (rs : List Row) {tbl : List Device} {j : Nat}
    {r r' : Device} (hr : tbl[j]? = some r)
    (hr' : (atualiza .rtt2 (rs.map (linhaGer hi)) tbl)[j]? = some r') {e : Entrada}
    (ha : casa .a e r = true) :
    r'.idInt = ultimoId hi rs tbl e r := by
  rw [atualiza_eq_map, List.getElem?_map, hr, Option.map_some, Option.some.injEq] at hr'
  rw [← hr', idInt_foldl_passoRow, List.map_map, lastSuch_map]
  have hea : r.hostname = e.hostname ∧ r.interface = e.interface := by simpa [casa] using ha
  -- the lines that name the row are those of the interface of `e`
  have hsel : ∀ x ∈ rs, ((fun e' => casa .a e' r && !temB tbl e') ∘ (entrada .rtt2 ∘ linhaGer hi)) x
      = (decide (par .rtt2 (linhaGer hi x) = (e.hostname, e.interface)) && !temB tbl e) := by
    intro x _
    simp only [Function.comp_apply, casa, par, hea.1, hea.2, Prod.mk.injEq]
    by_cases hp : (entrada .rtt2 (linhaGer hi x)).hostname = e.hostname ∧
        (entrada .rtt2 (linhaGer hi x)).interface = e.interface
    · have htem : temB tbl (entrada .rtt2 (linhaGer hi x)) = temB tbl e := by
        have hcasa : casa .b (entrada .rtt2 (linhaGer hi x)) = casa .b e := by
          funext r
          simp only [casa, hp.1, hp.2]
        rw [temB, temB, hcasa]
      simp [hp.1, hp.2, htem]
    · have hp' : ¬ (e.hostname = (entrada .rtt2 (linhaGer hi x)).hostname ∧
          e.interface = (entrada .rtt2 (linhaGer hi x)).interface) := by
        rintro ⟨h1, h2⟩
        exact hp ⟨h1.symm, h2.symm⟩
      simp only [← Bool.decide_and, hp, hp', decide_false, Bool.false_and]
  rw [lastSuch_congr hsel, ultimoId, Option.map_map]
  cases htem : temB tbl e with
  | true =>
      have hnone : lastSuch (fun x => decide (par .rtt2 (linhaGer hi x) = (e.hostname, e.interface))
          && !true) rs = none := lastSuch_eq_none.mpr (by simp)
      rw [hnone]; rfl
  | false =>
      simp only [Bool.not_false, Bool.and_true]
      rfl

/-- `%hint_id` after the loop over the files. -/
theorem fetch_hintId (hi : Hash Str Str) (dir : List LogFile) (k : Str) :
    fetch (lerArquivos hi dir).hintId k = regra ((rows dir).filter fun x => x.refx = k) := by
  rw [lerArquivos, (foldl_lerArquivo hi dir _).1, fetch_foldl_escolhe]

/-- `id_ger.txt` has one line per row, in the order of the rows. -/
theorem idGer_lerSnmpWalkHost (hosts inv : List Str) (dir : List LogFile) (o : KeyOrder Unit Str) :
    (lerSnmpWalkHost hosts inv dir o).idGer
      = (rows dir).map (linhaGer (lerInterfaces (lerHosts hosts) inv)) := by
  show (lerArquivos (lerInterfaces (lerHosts hosts) inv) dir).idGeral = _
  rw [lerArquivos, (foldl_lerArquivo _ dir _).2, List.nil_append]

/-- `id_rtt.txt` has the lines of the keys with `rtt` in their record and an id. -/
theorem mem_idRtt_lerSnmpWalkHost (hosts inv : List Str) (dir : List LogFile)
    (o : KeyOrder Unit Str) (lin : Str) :
    lin ∈ (lerSnmpWalkHost hosts inv dir o).idRtt ↔
      ∃ k ∈ lerInterfaces (lerHosts hosts) inv,
        contem "rtt".toList (fetch (lerInterfaces (lerHosts hosts) inv) k) = true ∧
        temDigito (regra ((rows dir).filter fun x => x.refx = k)) = true ∧
        linhaRtt (lerInterfaces (lerHosts hosts) inv) (rows dir) k = lin := by
  set hi := lerInterfaces (lerHosts hosts) inv with hhi
  show lin ∈ selecao "rtt".toList hi (lerArquivos hi dir).hintId (o.keys () hi.keys) ↔ _
  rw [mem_selecao]
  refine exists_congr fun k => ?_
  rw [KeyOrder.mem_keys, ← AList.mem_keys, fetch_hintId, linhaRtt]

/-- **When both updaters install the same id.** A complete run of the second updater leaves
what the first one writes exactly when the last row of the logs for each of these interfaces
has the id that the reader's rule selects. -/
theorem mesmoId_iff (hosts inv : List Str) (dir : List LogFile) (o : KeyOrder Unit Str)
    (tbl : List Device) :
    MesmoId (lerSnmpWalkHost hosts inv dir o) tbl ↔
      UltimaRowTemId (lerInterfaces (lerHosts hosts) inv) (rows dir) tbl := by
  have hger := idGer_lerSnmpWalkHost hosts inv dir o
  have hrtt := mem_idRtt_lerSnmpWalkHost hosts inv dir o
  set hi := lerInterfaces (lerHosts hosts) inv with hhi
  constructor
  · intro h k hk hmarca hdig r hr ha hb
    obtain ⟨j, hj⟩ := List.getElem?_of_mem hr
    have hrow : ∃ r', (atualiza .rtt2 ((rows dir).map (linhaGer hi)) tbl)[j]? = some r' := by
      rw [atualiza_eq_map, List.getElem?_map, hj]
      exact ⟨_, rfl⟩
    obtain ⟨r', hr'⟩ := hrow
    rw [← idInt_atualiza_rtt2 hi (rows dir) hj hr' ha]
    exact h _ ((hrtt _).mpr ⟨k, hk, hmarca, hdig, rfl⟩) j r r' hj ha hb (by rw [hger]; exact hr')
  · intro h lin hlin j r r' hj ha hb hr'
    obtain ⟨k, hk, hmarca, hdig, rfl⟩ := (hrtt lin).mp hlin
    rw [hger] at hr'
    rw [idInt_atualiza_rtt2 hi (rows dir) hj hr' ha]
    exact h k hk hmarca hdig r (List.mem_of_getElem? hj) ha hb

/-- The two rows of the shipped logs for `Serial0/0/1.611`. -/
def jve02Log : LogFile :=
  ("mcjve02.jve.psys-10.32.57.2.txt".toList,
    ["IF-MIB::ifDescr.78 = STRING: Serial0/0/1.611\n".toList,
     "IF-MIB::ifDescr.79 = STRING: Serial0/0/1.611-mpls layer\n".toList])

def jve02Rows : List Row :=
  [⟨"mcjve02.jve.psys".toList, "Serial0/0/1.611".toList, "78".toList⟩,
   ⟨"mcjve02.jve.psys".toList, "Serial0/0/1.611".toList, "79".toList⟩]

/-- `%host_interface` for the hosts list line and the inventory line of this interface. -/
def jve02Hi : Hash Str Str :=
  lerInterfaces (lerHosts ["mcjve02.jve.psys;10.32.57.2;\n".toList])
    ["mcjve02;Serial0/0/1.611;rtt;\n".toList]

def jve02Key : Str := "mcjve02.jve.psys_Serial0/0/1.611".toList

/-- A row of `devices` for the interface. -/
def jve02Device : Device :=
  ⟨"mcjve02.jve.psys".toList, "Serial0/0/1.611".toList, [], [], [], [], [], [], []⟩

/-- The reader selects 78, the first id of a serial interface; the second updater leaves 79. -/
theorem updaters_differ : ¬ ∀ (hosts inv : List Str) (dir : List LogFile) (o : KeyOrder Unit Str)
    (tbl : List Device), MesmoId (lerSnmpWalkHost hosts inv dir o) tbl := by
  intro h
  have hrows : rows [jve02Log] = jve02Rows := by decide +kernel
  have hreg : fetch jve02Hi jve02Key = "mcjve02;Serial0/0/1.611;rtt;10.32.57.2;".toList := by
    decide +kernel
  have hregra : regra (jve02Rows.filter fun x => x.refx = jve02Key) = "78".toList := by
    decide +kernel
  set e : Entrada := entrada .rtt (linhaRtt jve02Hi jve02Rows jve02Key) with he
  have he' : e = ⟨"mcjve02.jve.psys".toList, "Serial0/0/1.611".toList, "10.32.57.2".toList,
      "78".toList⟩ := by
    rw [he, linhaRtt, hreg, hregra]
    decide +kernel
  have ha : casa .a e jve02Device = true := by rw [he']; decide +kernel
  have hb : casa .b e jve02Device = false := by rw [he']; decide +kernel
  have hmem : linhaRtt jve02Hi (rows [jve02Log]) jve02Key ∈ (lerSnmpWalkHost _ _ _ _).idRtt :=
    (mem_idRtt_lerSnmpWalkHost ["mcjve02.jve.psys;10.32.57.2;\n".toList]
      ["mcjve02;Serial0/0/1.611;rtt;\n".toList] [jve02Log] KeyOrder.stored _).mpr
      ⟨jve02Key, (by decide +kernel : jve02Key ∈ jve02Hi),
        by rw [← jve02Hi.eq_1, hreg]; decide +kernel, by rw [hrows, hregra]; decide +kernel, rfl⟩
  rw [hrows] at hmem
  have hrow : ∃ r', (atualiza .rtt2 (jve02Rows.map (linhaGer jve02Hi)) [jve02Device])[0]? = some r' := by
    rw [atualiza_eq_map]
    exact ⟨_, rfl⟩
  obtain ⟨r', hr'⟩ := hrow
  have hid := h _ _ _ _ [jve02Device] _ hmem 0 jve02Device r' rfl ha hb
    (by rw [idGer_lerSnmpWalkHost, hrows]; exact hr')
  rw [idInt_atualiza_rtt2 jve02Hi jve02Rows rfl hr' ha, ← he, he'] at hid
  revert hid
  decide +kernel

end SnmpCollector.Leitor
