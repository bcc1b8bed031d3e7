import SnmpCollector.Leitor.LogCpuMem
import SnmpCollector.Perl.Exit
import SnmpCollector.Perl.History

set_option autoImplicit false

/-! # The history of cpu and memory (`leitor/leitor_cpu_mem.pl`)

The reader keeps one history file per host: a line with the current state, a line with the
values of the cpu, and three lines per memory pool. Each run reads the old file, reads the log
of the host, and writes the whole file again: every line of the new file is the new value in
front of the old ones, found by the mark and the key of the line.

The lines of a pool are written for the keys of `%mem_nome`, and the percentage of every pool
is computed before the file is opened. `leitor_eq` says what a run writes.
-/

namespace SnmpCollector.CpuMem

open Perl

/-! ## The old file -/

/-- `$clt=~s/\n//g` -/
def semNl (clt : Str) : Str := clt.filter (· != '\n')

/-- `$vref`: the loop over the fields of a line, with its counter. -/
def vref (conta : Nat) : List Str → Str
  | [] => []
  | cl :: dados =>
      if conta > 65 then []
      else (if conta > 4 then cl ++ [';'] else []) ++ vref (conta + 1) dados

/-- The old values of a mark, by the key in the third field. -/
def old (marca : Str) (coleta : List Str) : Hash Str Str :=
  load (fun clt => field (split ';' clt) 2) (fun clt => vref 0 (split ';' clt)) ∅
    ((coleta.map semNl).filter (contem (';' :: (marca ++ [';']))))

def memFreeMarca : Str := "mem_free".toList
def memUtilMarca : Str := "mem_util".toList
def pctUtilMarca : Str := "pct_util".toList
def cpuAvgMarca : Str := "cpu avg".toList

/-! ## The memory pools -/

/-- The loops over the keys of a hash. -/
inductive Laco where
  | mem
  | cpu
  deriving DecidableEq

/-- `%mem_host`, `%mem_status`, `%mem_proc` and `%mem_io`. -/
structure Memoria where
  memHost : Hash Str Str
  memStatus : Hash Str Str
  memProc : Hash Str Str
  memIo : Hash Str Str

/-- `$hh[0]` -/
def hh0 (item : Str) : Str := field (split '_' item) 0

/-- A line of the file: the new value in front of the old ones. -/
def linhaHist (t host item marca nome valor antigos : Str) : Str :=
  delimited ';' [t, host, item, marca, nome, valor] ++ antigos

section Run

-- the time, the old file, and the tables of the log
variable (t : Nat) (coleta : List Str) (tb : Tabelas)

def memNome (item : Str) : Str := fetch (tb.coluna .memNome) item
def memUtil (item : Str) : Str := fetch (tb.coluna .memUtil) item
def memFree (item : Str) : Str := fetch (tb.coluna .memFree) item

/-- The divisor of the percentage. -/
def somaMem (item : Str) : ℚ := numify (memFree tb item) + numify (memUtil tb item)

/-- The percentage before `int`. -/
def utlMem (item : Str) : ℚ := numify (memUtil tb item) / somaMem tb item * 100

/-- `int($utl_mem)` -/
def utlMemInt (item : Str) : Int := truncate (utlMem tb item)

/-- The division of the percentage ends the program. -/
def morre (item : Str) : Bool := decide (somaMem tb item = 0)

/-- The three lines of a pool. -/
def linhasItem (item : Str) : Str :=
  linhaHist (decimal t) (hh0 item) item memFreeMarca (memNome tb item) (memFree tb item)
      (fetch (old memFreeMarca coleta) item ++ ['\n'])
    ++ (linhaHist (decimal t) (hh0 item) item memUtilMarca (memNome tb item) (memUtil tb item)
      (fetch (old memUtilMarca coleta) item ++ ['\n'])
    ++ linhaHist (decimal t) (hh0 item) item pctUtilMarca (memNome tb item)
      (intText (utlMemInt tb item)) (fetch (old pctUtilMarca coleta) item ++ ['\n']))

/-- The text of an alarm. -/
def alarmeItem (item : Str) : Str :=
  ':' :: (memNome tb item ++ (":alarme mem: ".toList ++
    (intText (utlMemInt tb item) ++ " | ".toList)))

def eProc (item : Str) : Bool := contem "Proc".toList (memNome tb item)

def eIo (item : Str) : Bool :=
  contem "I/O".toList (memNome tb item) || contem "io".toList (memNome tb item)
    || contem "Fast".toList (memNome tb item) || contem "fast".toList (memNome tb item)

/-- The body of the loop over the keys of `%mem_nome`. -/
def passoMem (m : Memoria) (item : Str) : Except Memoria Memoria :=
  if morre tb item then .error m
  else
    let h := hh0 item
    .ok {
      memHost := m.memHost.insert h (fetch m.memHost h ++ linhasItem t coleta tb item)
      memStatus :=
        if utlMemInt tb item > 80 then
          m.memStatus.insert h (fetch m.memStatus h ++ alarmeItem tb item)
        else m.memStatus
      memProc := if eProc tb item then m.memProc.insert h (intText (utlMemInt tb item)) else m.memProc
      memIo := if eIo tb item then m.memIo.insert h (intText (utlMemInt tb item)) else m.memIo }

/-! ## The new file -/

/-- `$st_cpu`: each test replaces what the earlier ones chose. -/
def stCpu (cpu : Str) : Str :=
  let n := numify cpu
  let st := if n = 0 then "nao coletou".toList else []
  let st := if n < 31 then "cpuok".toList else st
  let st := if n > 30 then "alarmecpu1".toList else st
  let st := if n > 60 then "alarmecpu2".toList else st
  let st := if n > 90 then "criticocpu1".toList else st
  let st := if n > 95 then "criticocpu2".toList else st
  st

def stMem (m : Memoria) (item : Str) : Str :=
  let status := fetch m.memStatus item
  if status.length < 3 then
    "mem ok;".toList ++ (fetch m.memIo item ++ ';' :: fetch m.memProc item)
  else "alarme mem;".toList ++ (status ++ ';' :: (fetch m.memIo item ++ ';' :: fetch m.memProc item))

/-- The first line; `$data_reg` has no value in this script. -/
def primeiraLinha (m : Memoria) (item : Str) : Str :=
  delimited ';' [decimal t, [], item, fetch tb.cpuavg5 item, stCpu (fetch tb.cpuavg5 item),
    stMem m item]

/-- `$cpn` -/
def cpn (m : Memoria) (item : Str) : Str :=
  primeiraLinha t tb m item ++ '\n' ::
    (linhaHist (decimal t) item item cpuAvgMarca cpuAvgMarca (fetch tb.cpuavg5 item)
      (fetch (old cpuAvgMarca coleta) item ++ [';', '\n'])
    ++ fetch m.memHost item)

end Run

/-- `$host` -/
def hostDe (dados : Str) : Str := field (split '-' dados) 0

/-- A run on the log `log` in the file `dados`; `hist` is the directory of the histories.
`error` when the run ends in the division, before a file is opened. -/
def leitor (t : Nat) (ordem : KeyOrder Laco Str) (dados log : Str) (hist : Dir) : Except Dir Dir :=
  let host := hostDe dados
  let coleta := lines '\n' (conteudo hist host)
  let tb := lerLog host (lines '\n' log)
  match (ordem.keys .mem (tb.coluna .memNome).keys).foldlM (passoMem t coleta tb) ⟨∅, ∅, ∅, ∅⟩ with
  | .error _ => .error hist
  | .ok m =>
      .ok ((ordem.keys .cpu tb.cpuavg5.keys).foldl
        (fun d item => d.insert item (cpn t coleta tb m item)) hist)

/-! ## What the old file gives -/

/-- The line in which the reader finds the old values of a mark and a key: the last one. -/
def linhaAntiga (marca : Str) (coleta : List Str) (k : Str) : Option Str :=
  lastSuch (fun clt => contem (';' :: (marca ++ [';'])) clt && decide (field (split ';' clt) 2 = k))
    (coleta.map semNl)

/-- The fields of a line from the sixth on. -/
def valores (clt : Str) : List Str := (split ';' clt).drop 5

/-- The old values of a mark and a key. -/
def antigos (marca : Str) (coleta : List Str) (k : Str) : List Str :=
  ((linhaAntiga marca coleta k).map fun clt => (valores clt).take 61).getD []

section Pools

variable (t : Nat) (coleta : List Str) (tb : Tabelas)

/-- The loop ends in a division, or all pools are printed. -/
theorem foldlM_passoMem (items : List Str) (m : Memoria) :
    items.foldlM (passoMem t coleta tb) m =
      if items.any (morre tb) then
        .error ((upTo (morre tb) items).foldl (fun m item => fim (passoMem t coleta tb m item)) m)
      else .ok (items.foldl (fun m item => fim (passoMem t coleta tb m item)) m) := by
  have hstep : ∀ (m : Memoria) (item : Str), passoMem t coleta tb m item =
      if morre tb item then .error (fim (passoMem t coleta tb m item))
      else .ok (fim (passoMem t coleta tb m item)) := by
    intro m item
    unfold passoMem
    split <;> rfl
  rw [foldlM_upTo hstep]
  by_cases h : items.any (morre tb) = true
  · rw [if_pos h, if_pos h]
  · rw [if_neg h, if_neg h, upTo_eq_self (by simpa using h)]

/-- The loop over the pools, when no division ends it. -/
def laco (items : List Str) : Memoria :=
  items.foldl (fun m item => fim (passoMem t coleta tb m item)) ⟨∅, ∅, ∅, ∅⟩

theorem laco_concat {items : List Str} {item : Str} (hm : morre tb item = false) :
    laco t coleta tb (items ++ [item]) =
      { memHost := (laco t coleta tb items).memHost.insert (hh0 item)
          (fetch (laco t coleta tb items).memHost (hh0 item) ++ linhasItem t coleta tb item)
        memStatus :=
          if utlMemInt tb item > 80 then
            (laco t coleta tb items).memStatus.insert (hh0 item)
              (fetch (laco t coleta tb items).memStatus (hh0 item) ++ alarmeItem tb item)
          else (laco t coleta tb items).memStatus
        memProc :=
          if eProc tb item then
            (laco t coleta tb items).memProc.insert (hh0 item) (intText (utlMemInt tb item))
          else (laco t coleta tb items).memProc
        memIo :=
          if eIo tb item then
            (laco t coleta tb items).memIo.insert (hh0 item) (intText (utlMemInt tb item))
          else (laco t coleta tb items).memIo } := by
  rw [laco, List.foldl_append, List.foldl_cons, List.foldl_nil, ← laco, passoMem,
    if_neg (by simp [hm])]
  rfl

/-- The lines of all pools go to the name before the first `_` of their keys. -/
theorem memHost_laco {items : List Str} {h : Str}
    (hi : ∀ item ∈ items, hh0 item = h ∧ morre tb item = false) (k : Str) :
    fetch (laco t coleta tb items).memHost k
      = if k = h then items.flatMap (linhasItem t coleta tb) else [] := by
  induction items using List.reverseRecOn with
  | nil => simp [laco, fetch]
  | append_singleton items item ih =>
      obtain ⟨hh, hm⟩ := hi item (by simp)
      have ihk := ih fun x hx => hi x (by simp [hx])
      rw [laco_concat t coleta tb hm]
      simp only [fetch_insert, hh]
      split
      · rename_i hk
        rw [hk, if_pos rfl] at ihk
        rw [ihk, List.flatMap_append, List.flatMap_singleton]
      · rename_i hk
        rwa [if_neg hk] at ihk

theorem not_nl_stCpu (cpu : Str) : '\n' ∉ stCpu cpu := by
  unfold stCpu
  simp only
  split_ifs <;> simp

end Pools

/-! ## A run -/

/-- A value is read from the characters of its row. -/
theorem mem_lido {c : Char} {valor : Str} (h : c ∈ lido valor) : c ∈ limpa valor := by
  have hc : c ∈ field (split ':' (replaceAll igual [':'] (' ' :: limpa valor))) 0 ∧ c ≠ ' ' := by
    simpa [lido, semBrancos] using h
  obtain ⟨hno, hsub⟩ := field_split_spec ':' (replaceAll igual [':'] (' ' :: limpa valor)) 0
  rcases mem_replaceAll (hsub hc.1) with hx | hx
  · rw [List.mem_singleton.mp hx] at hc
    exact absurd hc.1 hno
  · exact (List.mem_cons.mp hx).resolve_left hc.2

theorem mem_lidoCpu {c : Char} {valor : Str} (h : c ∈ lidoCpu valor) : c ∈ limpa valor := by
  have hc : c ∈ field (split ':' (' ' :: limpa valor)) 0 ∧ c ≠ ' ' := by
    simpa [lidoCpu, semBrancos] using h
  exact (List.mem_cons.mp ((field_split_spec ':' (' ' :: limpa valor)) 0 |>.2 hc.1)).resolve_left hc.2

section Log

variable {log : List Item} (host : Str)

/-- The tables of a log. -/
def tabelas (log : List Item) : Tabelas := lerLog host (lines '\n' (textoLog log))

/-- The last row of a column and an index. -/
def ultima (c : Coluna) (log : List Item) (idx : Nat) : Option Str :=
  (lastSuch (fun r => decide (r.1 = idx)) (linhasDe c log)).map Prod.snd

/-- With one row for each `x` of a list, the last row of an index is the row of its `x`. -/
theorem ultima_of_perm {ι : Type*} {xs : List ι} {idx : ι → Nat} {val : ι → Str} {c : Coluna}
    (hnd : (xs.map idx).Nodup) (hp : (linhasDe c log).Perm (xs.map fun x => (idx x, val x))) {x : ι}
    (hx : x ∈ xs) : ultima c log (idx x) = some (val x) := by
  have hlast : lastSuch (fun r => decide (r.1 = idx x)) (linhasDe c log) = some (idx x, val x) := by
    refine lastSuch_eq_of_unique (hp.mem_iff.mpr (List.mem_map_of_mem hx)) (by simp) ?_
    intro r hr hidx
    obtain ⟨y, hy, rfl⟩ := List.mem_map.mp (hp.mem_iff.mp hr)
    have hsame : y = x := List.inj_on_of_nodup_map hnd hy hx (by simpa using hidx)
    rw [hsame]
  rw [ultima, hlast]
  rfl

/-- A table holds under an index what the last row of the index says. -/
theorem lookup_tabelas (hv : ∀ i ∈ log, i.Comum) (c : Coluna) (idx : Nat) :
    ((tabelas host log).coluna c).lookup (ref host idx) = (ultima c log idx).map lido := by
  have hkey : ∀ r ∈ linhasDe c log, decide (ref host r.1 = ref host idx) = decide (r.1 = idx) := by
    intro r _
    exact decide_eq_decide.mpr ⟨ref_injective host, fun h => by rw [h]⟩
  rw [tabelas, lerLog_coluna host hv, lookup_load, lastSuch_congr hkey, ultima,
    AList.lookup_empty, Option.or_none, Option.map_map]
  rfl

theorem fetch_tabelas (hv : ∀ i ∈ log, i.Comum) (c : Coluna) (idx : Nat) :
    fetch ((tabelas host log).coluna c) (ref host idx) = ((ultima c log idx).map lido).getD [] := by
  rw [fetch, lookup_tabelas host hv]

theorem mem_tabelas (hv : ∀ i ∈ log, i.Comum) (c : Coluna) (k : Str) :
    k ∈ (tabelas host log).coluna c ↔ ∃ r ∈ linhasDe c log, ref host r.1 = k := by
  rw [tabelas, lerLog_coluna host hv, mem_load]
  simp [AList.notMem_empty]

section Perm

variable {ι : Type*} {xs : List ι} {idx : ι → Nat} {val : ι → Str} {c : Coluna}

/-- With one row for each `x` of a list, the column has the keys of the `x`. -/
theorem mem_tabelas_of_perm (hv : ∀ i ∈ log, i.Comum)
    (hp : (linhasDe c log).Perm (xs.map fun x => (idx x, val x))) {k : Str} :
    k ∈ (tabelas host log).coluna c ↔ ∃ x ∈ xs, ref host (idx x) = k := by
  rw [mem_tabelas host hv]
  constructor
  · rintro ⟨r, hr, rfl⟩
    obtain ⟨x, hx, rfl⟩ := List.mem_map.mp (hp.mem_iff.mp hr)
    exact ⟨x, hx, rfl⟩
  · rintro ⟨x, hx, rfl⟩
    exact ⟨_, hp.mem_iff.mpr (List.mem_map_of_mem hx), rfl⟩

theorem keys_tabelas_perm (hv : ∀ i ∈ log, i.Comum)
    (hp : (linhasDe c log).Perm (xs.map fun x => (idx x, val x))) (hnd : (xs.map idx).Nodup) :
    ((tabelas host log).coluna c).keys.Perm (xs.map fun x => ref host (idx x)) := by
  have hkeys : (xs.map fun x => ref host (idx x)).Nodup := by
    have := hnd.map fun _ _ => ref_injective host
    rwa [List.map_map] at this
  refine (List.perm_ext_iff_of_nodup (AList.keys_nodup _) hkeys).mpr fun k => ?_
  rw [← AList.mem_keys, mem_tabelas_of_perm host hv hp, List.mem_map]

end Perm

theorem not_nl_fetch_coluna (hv : ∀ i ∈ log, i.Comum) (c : Coluna) (k : Str) :
    '\n' ∉ fetch ((tabelas host log).coluna c) k := by
  rw [fetch, tabelas, lerLog_coluna host hv, lookup_load]
  cases lastSuch (fun x => decide (ref host x.1 = k)) (linhasDe c log) with
  | none => simp
  | some r => exact fun h => not_nl_limpa r.2 (mem_lido h)

/-- The name before the first `_` of a key. -/
theorem hh0_chave (id : Str) : hh0 (host ++ '_' :: id) = hh0 host := by
  rw [hh0, hh0, field_split, field_split, List.splitOn_append_cons_self]
  obtain ⟨g, gs, hg⟩ := List.exists_cons_of_ne_nil (List.splitOn_ne_nil '_' host)
  rw [hg]
  rfl

theorem hh0_ref (idx : Nat) : hh0 (ref host idx) = hh0 host := hh0_chave host (decimal idx)

theorem hh0_eq_self_iff : hh0 host = host ↔ '_' ∉ host := by
  constructor
  · intro h
    rw [← h]
    exact (field_split_spec '_' host 0).1
  · intro h
    rw [hh0, field_split, List.splitOn_eq_singleton h]
    rfl

end Log

/-- The tables of the log in the file `dados`. -/
def tabelasDe (dados log : Str) : Tabelas := lerLog (hostDe dados) (lines '\n' log)

/-- No pool of the log ends the run. -/
def Completa (dados log : Str) : Prop :=
  ∀ item ∈ (tabelasDe dados log).coluna .memNome, morre (tabelasDe dados log) item = false

theorem completa_iff {σ : Type*} (ordem : KeyOrder σ Str) (s : σ) (dados log : Str) :
    Completa dados log ↔ (ordem.keys s ((tabelasDe dados log).coluna .memNome).keys).any
      (morre (tabelasDe dados log)) = false := by
  rw [List.any_eq_false, Completa]
  simp only [ordem.mem_keys, ← AList.mem_keys, Bool.not_eq_true]

/-- A run on any text with a row of the cpu: it ends in a division and leaves all files as they
were, or it writes the file of the host. -/
theorem leitor_texto (t : Nat) (ordem : KeyOrder Laco Str) (dados log : Str) (hist : Dir)
    (hk : (lerLog (hostDe dados) (lines '\n' log)).cpuavg5.keys = [hostDe dados]) :
    leitor t ordem dados log hist =
      if (ordem.keys .mem ((lerLog (hostDe dados) (lines '\n' log)).coluna .memNome).keys).any
          (morre (lerLog (hostDe dados) (lines '\n' log))) then .error hist
      else .ok (hist.insert (hostDe dados)
        (cpn t (lines '\n' (conteudo hist (hostDe dados))) (lerLog (hostDe dados) (lines '\n' log))
          (laco t (lines '\n' (conteudo hist (hostDe dados))) (lerLog (hostDe dados) (lines '\n' log))
            (ordem.keys .mem ((lerLog (hostDe dados) (lines '\n' log)).coluna .memNome).keys))
          (hostDe dados))) := by
  have hkeys : ordem.keys .cpu (lerLog (hostDe dados) (lines '\n' log)).cpuavg5.keys
      = [hostDe dados] := by
    rw [← List.perm_singleton, hk]
    exact ordem.perm _ _
  rw [leitor, foldlM_passoMem]
  by_cases hany : (ordem.keys .mem ((lerLog (hostDe dados) (lines '\n' log)).coluna .memNome).keys).any
      (morre (lerLog (hostDe dados) (lines '\n' log))) = true
  · simp only [hany, if_true]
  · simp only [hany, hkeys, List.foldl_cons, List.foldl_nil]
    rfl

theorem keys_cpuavg5_textoLog (dados : Str) {log : List Item} (hv : ∀ i ∈ log, i.Comum)
    (hc : cpus log ≠ []) : (tabelasDe dados (textoLog log)).cpuavg5.keys = [hostDe dados] := by
  rw [tabelasDe, lerLog_cpu _ hv, keys_load_const _ _ hc]

section Leitor

variable (t : Nat) (ordem : KeyOrder Laco Str) (dados : Str) (log : List Item) (hist : Dir)

/-- The old file of the host of the log. -/
def coletaDe : List Str := lines '\n' (conteudo hist (hostDe dados))

/-- The keys of `%mem_nome` in the order of the loop. -/
def itens : List Str := ordem.keys .mem ((tabelas (hostDe dados) log).coluna .memNome).keys

/-- The tables of the loop over the pools. -/
def memoria : Memoria :=
  laco t (coletaDe dados hist) (tabelas (hostDe dados) log) (itens ordem dados log)

/-- **A run of the reader** on a log with a row of the cpu. -/
theorem leitor_eq (hv : ∀ i ∈ log, i.Comum) (hc : cpus log ≠ []) :
    leitor t ordem dados (textoLog log) hist =
      if (itens ordem dados log).any (morre (tabelas (hostDe dados) log)) then .error hist
      else .ok (hist.insert (hostDe dados)
        (cpn t (coletaDe dados hist) (tabelas (hostDe dados) log)
          (memoria t ordem dados log hist) (hostDe dados))) :=
  leitor_texto t ordem dados (textoLog log) hist (keys_cpuavg5_textoLog dados hv hc)

variable {log}

/-- The value of the cpu is the one of its last row. -/
theorem fetch_cpuavg5 (host : Str) (hv : ∀ i ∈ log, i.Comum) {valor : Str}
    (hc : (cpus log).getLast? = some valor) : fetch (tabelas host log).cpuavg5 host = lidoCpu valor := by
  have hlast : lastSuch (fun _ => decide (host = host)) (cpus log) = some valor := by
    rw [lastSuch, List.filter_eq_self.mpr (by simp), hc]
  rw [fetch, tabelas, lerLog_cpu host hv, lookup_load, hlast]
  rfl

theorem mem_itens (hv : ∀ i ∈ log, i.Comum) {item : Str} :
    item ∈ itens ordem dados log ↔ ∃ r ∈ linhasDe .memNome log, ref (hostDe dados) r.1 = item := by
  rw [itens, ordem.mem_keys, ← AList.mem_keys, mem_tabelas _ hv]

end Leitor

end SnmpCollector.CpuMem
