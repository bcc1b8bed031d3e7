import SnmpCollector.Leitor.CpuMem

set_option autoImplicit false

/-! # The history of temperatures (`leitor/leitor_temp_pwr.pl`)

The reader of temperatures reads the same log as the reader of cpu and memory, with the same
blocks, and keeps a history file of its own per host. Its first line holds the verdict on the
cpu, on the temperature sensors and on the memory pools; then come the lines of the cpu, three
lines per sensor and three lines per pool.

The sensors are gone through in the order of `%temp_nome`. Two variables of that loop are not
reset between sensors: `$st`, the word for the state of the sensor, which only some values of the
state set, and `$temp_p`, the ratio of threshold and reading, which only a positive reading sets.
`leitor_texto` says what a run writes, `nomeados` which sensors are in the text of the alarm.
-/

namespace SnmpCollector.TempPwr

open Perl CpuMem

/-! ## The memory pools -/

/-- The loops over the keys of a hash. -/
inductive Laco where
  | mem
  | temp
  | cpu
  deriving DecidableEq

section Run

-- the time, the old file, and the tables of the log
variable (t : Nat) (coleta : List Str) (tb : Tabelas)

/-- The text of an alarm of a pool. -/
def alarmeItem (item : Str) : Str := ':' :: (memNome tb item ++ ":alarme:".toList)

def eIo (item : Str) : Bool := contem "I/O".toList (memNome tb item)

/-- The body of the loop over the keys of `%mem_nome`. -/
def passoMem (m : Memoria) (item : Str) : Except Memoria Memoria :=
  if morre tb item then .error m
  else
    let h := hh0 item
    .ok {
      memHost := m.memHost.insert h (fetch m.memHost h ++ linhasItem t coleta tb item)
      memStatus :=
        if utlMemInt tb item > 80 then
          m.memStatus.insert h (fetch m.memStatus h ++ alarmeItem tb item)
        else m.memStatus
      memProc := if eProc tb item then m.memProc.insert h (intText (utlMemInt tb item)) else m.memProc
      memIo := if eIo tb item then m.memIo.insert h (intText (utlMemInt tb item)) else m.memIo }

/-! ## The sensors -/

/-- `$st`; it has no value before the first sensor. -/
inductive St where
  | semValor
  | ok
  | alarme
  | critico
  | naoFunciona
  deriving DecidableEq

def St.texto : St → Str
  | .semValor => []
  | .ok => "ok".toList
  | .alarme => "alarme".toList
  | .critico => "critico".toList
  | .naoFunciona => "nao funciona".toList

/-- `$st` after the tests on the status of a sensor: the first one looks for a digit anywhere in
the text, and a text that passes none of them leaves the word as it was. -/
def palavra (status : Str) (st : St) : St :=
  let st := if '1' ∈ status ∨ '4' ∈ status ∨ '5' ∈ status then .ok else st
  let st := if status = ['2'] then .alarme else st
  let st := if status = ['3'] then .critico else st
  let st := if status = ['6'] then .naoFunciona else st
  st

/-- `%temp_host`, `%temp_statush`, `%temp_pct`, `%temp_maior`, `$temp_p` and `$st`. The key `$hh0` of
`%temp_pct` is a variable without a value, so the hash has one entry; a number without a
value counts as 0. -/
structure Temperatura where
  tempHost : Hash Str Str
  tempStatush : Hash Str Str
  tempPct : ℚ
  tempMaior : Hash Str Str
  tempP : ℚ
  st : St

def Temperatura.inicial : Temperatura := ⟨∅, ∅, 0, ∅, 0, .semValor⟩

def tempMedidoMarca : Str := "temp medido".toList
def tempLimiarMarca : Str := "temp limiar".toList
def tempStatusMarca : Str := "temp status".toList

def tempNome (item : Str) : Str := fetch (tb.coluna .tempNome) item
def tempMedido (item : Str) : Str := fetch (tb.coluna .tempMedido) item
def tempLimiar (item : Str) : Str := fetch (tb.coluna .tempLimiar) item
def tempStatus (item : Str) : Str := fetch (tb.coluna .tempStatus) item

/-- The three lines of a sensor. -/
def linhasTemp (item : Str) : Str :=
  linhaHist (decimal t) (hh0 item) item tempMedidoMarca (tempNome tb item) (tempMedido tb item)
      (fetch (old tempMedidoMarca coleta) item ++ ['\n'])
    ++ (linhaHist (decimal t) (hh0 item) item tempLimiarMarca (tempNome tb item) (tempLimiar tb item)
      (fetch (old tempLimiarMarca coleta) item ++ ['\n'])
    ++ linhaHist (decimal t) (hh0 item) item tempStatusMarca (tempNome tb item) (tempStatus tb item)
      (fetch (old tempStatusMarca coleta) item ++ ['\n']))

/-- `$temp_p` after a sensor. -/
def tempPDe (p : ℚ) (item : Str) : ℚ :=
  if numify (tempMedido tb item) > 0 then numify (tempLimiar tb item) / numify (tempMedido tb item)
  else p

/-- `$temp_nome{$item}.";".$temp_medido{$item}` -/
def nomeMedido (item : Str) : Str := tempNome tb item ++ ';' :: tempMedido tb item

/-- A sensor in the text of the alarm. -/
def entrada (nome : Str) (st : St) : Str := nome ++ ':' :: (st.texto ++ [':'])

/-- The body of the loop over the keys of `%temp_nome`. -/
def passoTemp (s : Temperatura) (item : Str) : Temperatura :=
  let h := hh0 item
  let tempP := tempPDe tb s.tempP item
  let st := palavra (tempStatus tb item) s.st
  -- `length($temp_pct{$hh0}<1)` is the length of the truth value: 1 or 0
  let maior :=
    if s.tempPct < 1 then (tempP, s.tempMaior.insert h (nomeMedido tb item))
    else if tempP < s.tempPct then (tempP, s.tempMaior.insert h (nomeMedido tb item))
    else (s.tempPct, s.tempMaior)
  { tempHost := s.tempHost.insert h (fetch s.tempHost h ++ linhasTemp t coleta tb item)
    tempStatush :=
      if st ≠ .ok then
        s.tempStatush.insert h (fetch s.tempStatush h ++ entrada (tempNome tb item) st)
      else s.tempStatush
    tempPct := maior.1
    tempMaior := maior.2
    tempP := tempP
    st := st }

/-! ## The new file -/

/-- `$st_cpu`: each test replaces what the earlier ones chose. -/
def stCpu (cpu : Str) : Str :=
  let n := numify cpu
  let st := if n = 0 then "nao coletou".toList else []
  let st := if n < 31 then "ok".toList else st
  let st := if n > 30 then "alarme1".toList else st
  let st := if n > 60 then "alarme2".toList else st
  let st := if n > 90 then "critico1".toList else st
  let st := if n > 95 then "critico2".toList else st
  st

def stTemp (s : Temperatura) (item : Str) : Str :=
  if (fetch s.tempStatush item).length < 3 then "ok;".toList ++ fetch s.tempMaior item
  else "alarme;".toList ++ fetch s.tempStatush item

def stMem (m : Memoria) (item : Str) : Str :=
  let status := fetch m.memStatus item
  if status.length < 3 then
    "ok;ok;".toList ++ (fetch m.memIo item ++ ';' :: fetch m.memProc item)
  else "alarme;".toList ++ (status ++ ';' :: (fetch m.memIo item ++ ';' :: fetch m.memProc item))

/-- The first line; `$data_reg` has no value in this script. -/
def primeiraLinha (m : Memoria) (s : Temperatura) (item : Str) : Str :=
  delimited ';' [decimal t, [], fetch tb.cpuavg5 item, stCpu (fetch tb.cpuavg5 item), stTemp s item,
    stMem m item]

/-- `$cpn` -/
def cpn (m : Memoria) (s : Temperatura) (item : Str) : Str :=
  primeiraLinha t tb m s item ++ '\n' ::
    (linhaHist (decimal t) item item cpuAvgMarca cpuAvgMarca (fetch tb.cpuavg5 item)
      (fetch (old cpuAvgMarca coleta) item ++ [';', '\n'])
    ++ (fetch s.tempHost item ++ fetch m.memHost item))

/-- The loop over the sensors. -/
def lacoTemp (items : List Str) : Temperatura := items.foldl (passoTemp t coleta tb) .inicial

/-- The loop over the pools, when no division ends it. -/
def lacoMem (items : List Str) : Memoria :=
  items.foldl (fun m item => fim (passoMem t coleta tb m item)) ⟨∅, ∅, ∅, ∅⟩

end Run

/-- A run on the log `log` in the file `dados`; `hist` is the directory of the histories.
`error` when the run ends in the division of the pools, before a file is opened. -/
def leitor (t : Nat) (ordem : KeyOrder Laco Str) (dados log : Str) (hist : Dir) : Except Dir Dir :=
  let host := hostDe dados
  let coleta := lines '\n' (conteudo hist host)
  let tb := lerLog host (lines '\n' log)
  match (ordem.keys .mem (tb.coluna .memNome).keys).foldlM (passoMem t coleta tb) ⟨∅, ∅, ∅, ∅⟩ with
  | .error _ => .error hist
  | .ok m =>
      let s := lacoTemp t coleta tb (ordem.keys .temp (tb.coluna .tempNome).keys)
      .ok ((ordem.keys .cpu tb.cpuavg5.keys).foldl
        (fun d item => d.insert item (cpn t coleta tb m s item)) hist)

/-! ## A run -/

/-- The keys of the sensors of a log, in the order of a run. -/
def itensTemp (ordem : KeyOrder Laco Str) (dados log : Str) : List Str :=
  ordem.keys .temp ((tabelasDe dados log).coluna .tempNome).keys

/-- The loop over the sensors of a run. -/
def temperatura (t : Nat) (ordem : KeyOrder Laco Str) (dados log : Str) (hist : Dir) : Temperatura :=
  lacoTemp t (lines '\n' (conteudo hist (hostDe dados))) (tabelasDe dados log)
    (itensTemp ordem dados log)

/-- The loop over the pools of a run. -/
def memoria (t : Nat) (ordem : KeyOrder Laco Str) (dados log : Str) (hist : Dir) : Memoria :=
  lacoMem t (lines '\n' (conteudo hist (hostDe dados))) (tabelasDe dados log)
    (ordem.keys .mem ((tabelasDe dados log).coluna .memNome).keys)

/-- The loop over the pools ends in a division, or goes through all of them. -/
theorem foldlM_passoMem (t : Nat) (coleta : List Str) (tb : Tabelas) (items : List Str) :
    items.foldlM (passoMem t coleta tb) ⟨∅, ∅, ∅, ∅⟩ =
      if items.any (morre tb) then .error ((upTo (morre tb) items).foldl
        (fun m item => fim (passoMem t coleta tb m item)) ⟨∅, ∅, ∅, ∅⟩)
      else .ok (lacoMem t coleta tb items) := by
  have hstep : ∀ (m : Memoria) (item : Str), passoMem t coleta tb m item =
      if morre tb item then .error (fim (passoMem t coleta tb m item))
      else .ok (fim (passoMem t coleta tb m item)) := by
    intro m item
    unfold passoMem
    split <;> rfl
  rw [foldlM_upTo hstep, lacoMem]
  by_cases h : items.any (morre tb) = true
  · rw [if_pos h, if_pos h]
  · rw [if_neg h, if_neg h, upTo_eq_self (by simpa using h)]

/-- **A run of the reader** on a log with a row of the cpu: it writes the file of the host,
unless a pool ends it. -/
theorem leitor_texto (t : Nat) (ordem : KeyOrder Laco Str) (dados log : Str) (hist : Dir)
    (hcpu : (tabelasDe dados log).cpuavg5.keys = [hostDe dados]) (hc : Completa dados log) :
    leitor t ordem dados log hist = .ok (hist.insert (hostDe dados)
      (cpn t (lines '\n' (conteudo hist (hostDe dados))) (tabelasDe dados log)
        (memoria t ordem dados log hist) (temperatura t ordem dados log hist) (hostDe dados))) := by
  have hkeys : ordem.keys .cpu (tabelasDe dados log).cpuavg5.keys = [hostDe dados] := by
    rw [← List.perm_singleton, ← hcpu]
    exact ordem.perm _ _
  rw [leitor, ← tabelasDe]
  dsimp only
  rw [foldlM_passoMem, (completa_iff ordem .mem dados log).mp hc, if_neg (by simp), hkeys]
  rfl

/-- A pool ends the run before a file is written. -/
theorem leitor_morre (t : Nat) (ordem : KeyOrder Laco Str) (dados log : Str) (hist : Dir)
    (hc : ¬ Completa dados log) : leitor t ordem dados log hist = .error hist := by
  rw [completa_iff ordem .mem, Bool.not_eq_false] at hc
  rw [leitor, ← tabelasDe]
  dsimp only
  rw [foldlM_passoMem, if_pos hc]

/-! ## The sensors in the text of the alarm -/

section Alarme

variable (t : Nat) (coleta : List Str) (tb : Tabelas)

/-- The sensors of the alarm with their words, in the order of the loop, when `$st` is `st`
before the first. -/
def nomeados (st : St) : List Str → List (Str × St)
  | [] => []
  | item :: items =>
      let st := palavra (tempStatus tb item) st
      (if st ≠ .ok then [(item, st)] else []) ++ nomeados st items

/-- `$st` after the sensors `items`. -/
def stApos (st : St) (items : List Str) : St :=
  items.foldl (fun st item => palavra (tempStatus tb item) st) st

theorem mem_nomeados {tb : Tabelas} {st : St} {items : List Str} {item : Str} {w : St} :
    (item, w) ∈ nomeados tb st items ↔ w ≠ .ok ∧ ∃ pre post, items = pre ++ item :: post ∧
      palavra (tempStatus tb item) (stApos tb st pre) = w := by
  induction items generalizing st with
  | nil => simp [nomeados]
  | cons x items ih =>
      rw [nomeados, List.mem_append, ih]
      constructor
      · rintro (h | ⟨hw, pre, post, rfl, h⟩)
        · split at h
          · rename_i hne
            obtain ⟨rfl, rfl⟩ := Prod.mk.inj (List.mem_singleton.mp h)
            exact ⟨hne, [], items, rfl, rfl⟩
          · cases h
        · exact ⟨hw, x :: pre, post, rfl, h⟩
      · rintro ⟨hw, pre, post, heq, h⟩
        cases pre with
        | nil =>
            obtain ⟨rfl, rfl⟩ := List.cons.inj heq
            have h' : palavra (tempStatus tb x) st = w := h
            rw [h', if_pos hw]
            exact Or.inl (List.mem_singleton.mpr rfl)
        | cons y pre =>
            obtain ⟨rfl, rfl⟩ := List.cons.inj heq
            exact Or.inr ⟨hw, pre, post, rfl, h⟩

/-- **The text of the alarm**: the entries of the named sensors, under the name before the first
`_` of their keys. -/
theorem fetch_tempStatush {items : List Str} {h : Str} (hi : ∀ item ∈ items, hh0 item = h) (k : Str) :
    fetch (lacoTemp t coleta tb items).tempStatush k = if k = h then
      (nomeados tb .semValor items).flatMap (fun e => entrada (tempNome tb e.1) e.2) else [] := by
  have key : ∀ (items : List Str) (s : Temperatura), (∀ item ∈ items, hh0 item = h) →
      fetch (items.foldl (passoTemp t coleta tb) s).tempStatush k = fetch s.tempStatush k ++
        if k = h then (nomeados tb s.st items).flatMap (fun e => entrada (tempNome tb e.1) e.2)
        else [] := by
    intro items
    induction items with
    | nil => intro s _; simp [nomeados]
    | cons item items ih =>
        intro s hi
        rw [List.foldl_cons, ih _ fun x hx => hi x (by simp [hx])]
        simp only [passoTemp, nomeados, hi item (by simp)]
        by_cases hst : palavra (tempStatus tb item) s.st = .ok
        · simp [hst]
        · rw [if_pos hst, if_pos hst, fetch_insert]
          split
          · rename_i hk
            rw [hk, List.flatMap_append, List.flatMap_singleton, List.append_assoc]
          · rfl
  exact key items .inicial hi

end Alarme

end SnmpCollector.TempPwr
