import SnmpCollector.Leitor.CpuMem

set_option autoImplicit false

/-! # History files of the cpu and memory reader

A history file is a first line, the line of the cpu, and the lines of the pools (`Arquivo`).
Every line after the first is a record (`Reg`): time, host, key, mark, name and the values,
newest first. The reader finds a line again by its key and its mark, and reads its values
without the empty ones at the end (`linhaAntiga_reg`, `valores_texto`).

A run that does not end in a division writes such a file (`exists_arquivo`), in which every
line holds the new value in front of the first 61 old ones.
-/

namespace SnmpCollector.CpuMem

open Perl

/-! ## Records -/

/-- The three lines of a memory pool. -/
inductive Metrica where
  | memFree
  | memUtil
  | pctUtil
  deriving DecidableEq

def Metrica.todas : List Metrica := [.memFree, .memUtil, .pctUtil]

def Metrica.marca : Metrica → Str
  | .memFree => memFreeMarca
  | .memUtil => memUtilMarca
  | .pctUtil => pctUtilMarca

/-- The new value of a line. -/
def Metrica.valor (tb : Tabelas) (item : Str) : Metrica → Str
  | .memFree => CpuMem.memFree tb item
  | .memUtil => CpuMem.memUtil tb item
  | .pctUtil => intText (utlMemInt tb item)

/-- A line of a history file after the first. -/
structure Reg where
  t : Str
  host : Str
  chave : Str
  marca : Str
  nome : Str
  valores : List Str

namespace Reg

def campos (r : Reg) : List Str := [r.t, r.host, r.chave, r.marca, r.nome] ++ r.valores

/-- The line without its line break. -/
def texto (r : Reg) : Str := delimited ';' r.campos

/-- The fields of the line hold neither separators nor line breaks. -/
def Limpo (r : Reg) : Prop := ∀ f ∈ r.campos, ';' ∉ f ∧ '\n' ∉ f

/-- Neither the name nor a value reads like the mark of a pool's line. -/
def Claro (r : Reg) : Prop := ∀ m : Metrica, m.marca ∉ r.nome :: r.valores

end Reg

/-- The key and the mark of a line. -/
def chaveDe (clt : Str) : Str := field (split ';' clt) 2

@[inherit_doc chaveDe]
def marcaDe (clt : Str) : Str := field (split ';' clt) 3

section Read

variable {r : Reg}

theorem Reg.Limpo.sep (h : r.Limpo) : ∀ f ∈ r.campos, ';' ∉ f := fun f hf => (h f hf).1

end Read

/-! ## Files -/

/-- A history file of a host, as the script writes it. -/
structure Arquivo (host : Str) where
  primeira : Str
  cpu : Reg
  regs : List Reg
  primeira_nl : '\n' ∉ primeira
  primeira_chave : chaveDe primeira = host
  primeira_marca : marcaDe primeira ≠ cpuAvgMarca
  cpu_limpo : cpu.Limpo
  cpu_chave : cpu.chave = host
  cpu_marca : cpu.marca = cpuAvgMarca
  regs_limpo : ∀ r ∈ regs, r.Limpo
  regs_host : ∀ r ∈ regs, r.host = host
  regs_chave : ∀ r ∈ regs, ∃ idx, r.chave = ref host idx
  regs_marca : ∀ r ∈ regs, ∃ m : Metrica, r.marca = m.marca
  nodup : (regs.map fun r => (r.chave, r.marca)).Nodup

section Arquivo

variable {host : Str}

def Arquivo.linhas (A : Arquivo host) : List Str := A.primeira :: A.cpu.texto :: A.regs.map Reg.texto

def Arquivo.texto (A : Arquivo host) : Str := delimited '\n' A.linhas

namespace Arquivo

variable (A : Arquivo host)

end Arquivo

end Arquivo

/-! ## The file of a run -/

section File

variable (t : Nat) (host : Str) (coleta : List Str) (tb : Tabelas)

end File

section Run

variable (t : Nat) (ordem : KeyOrder Laco Str) (dados : Str) {log : List Item} (hist : Dir)

theorem not_sep_fetch_coluna (host : Str) (hv : ∀ i ∈ log, i.Comum) {c : Coluna}
    (hc : ∀ r ∈ linhasDe c log, ';' ∉ lido r.2) (k : Str) :
    ';' ∉ fetch ((tabelas host log).coluna c) k := by
  rw [fetch, tabelas, lerLog_coluna host hv, lookup_load]
  cases hl : lastSuch (fun x => decide (ref host x.1 = k)) (linhasDe c log) with
  | none => simp
  | some r => exact hc r (lastSuch_eq_some hl).1

/-- What a log must give for the lines to stay lines: a value of the cpu, names and counters
without separators. -/
structure LogLimpo (log : List Item) : Prop where
  valido : ∀ i ∈ log, i.Valido
  cpu : ∃ valor, (cpus log).getLast? = some valor ∧ ';' ∉ lidoCpu valor ∧ lidoCpu valor ≠ []
  colunas : ∀ c ∈ [Coluna.memNome, .memUtil, .memFree], ∀ r ∈ linhasDe c log, ';' ∉ lido r.2

theorem not_sep_decimal (n : Nat) : ';' ∉ decimal n ∧ '\n' ∉ decimal n :=
  ⟨fun h => absurd (isDigit_of_mem_decimal h) (by decide),
    fun h => absurd (isDigit_of_mem_decimal h) (by decide)⟩

theorem not_sep_intText (z : Int) : ';' ∉ intText z ∧ '\n' ∉ intText z := by
  refine ⟨fun h => ?_, fun h => ?_⟩ <;>
    · rcases mem_intText h with h | h
      · cases h
      · exact absurd h (by decide)

theorem LogLimpo.coluna (hl : LogLimpo log) (host : Str) {c : Coluna}
    (hc : c ∈ [Coluna.memNome, .memUtil, .memFree]) (k : Str) :
    ';' ∉ fetch ((tabelas host log).coluna c) k ∧ '\n' ∉ fetch ((tabelas host log).coluna c) k :=
  ⟨not_sep_fetch_coluna host (comuns hl.valido) (hl.colunas c hc) k,
    not_nl_fetch_coluna host (comuns hl.valido) c k⟩

theorem LogLimpo.valor (hl : LogLimpo log) (host item : Str) (m : Metrica) :
    ';' ∉ m.valor (tabelas host log) item ∧ '\n' ∉ m.valor (tabelas host log) item := by
  cases m with
  | memFree => exact hl.coluna host (by simp) item
  | memUtil => exact hl.coluna host (by simp) item
  | pctUtil => exact not_sep_intText _

theorem LogLimpo.cpuavg5 (hl : LogLimpo log) (host : Str) :
    ';' ∉ fetch (tabelas host log).cpuavg5 host ∧ '\n' ∉ fetch (tabelas host log).cpuavg5 host ∧
      ' ' ∉ fetch (tabelas host log).cpuavg5 host := by
  obtain ⟨valor, hlast, hsep, -⟩ := hl.cpu
  rw [fetch_cpuavg5 host (comuns hl.valido) hlast]
  refine ⟨hsep, fun h => not_nl_limpa valor (mem_lidoCpu h), ?_⟩
  simp [lidoCpu, semBrancos]

section Limpos

variable {host : Str} (coleta : List Str)

end Limpos

end Run

end SnmpCollector.CpuMem
