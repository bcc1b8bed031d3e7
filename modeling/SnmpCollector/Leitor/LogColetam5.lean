import SnmpCollector.Leitor.LogColetam
import SnmpCollector.Leitor.LogCpuMem

set_option autoImplicit false

/-! # Reading the five-minute walk log (`leitor/rep/leitor_coletam5.pl`, the log)

The log of a host holds rows `IF-MIB::<column>.<index> = <type>: <value>` of the descriptions
and the counters of its interfaces, rows of the cpu, and rows
`SNMPv2-SMI::enterprises.<column>.<pool> = <type>: <value>` of its memory pools. The reader
keeps the columns of the interfaces by index, as `leitor_coletam.pl` does, and one value for
the cpu and for each of the two memory columns.

The patterns are not anchored: a block takes every line in which its text occurs, and of
several such lines with one index the last one counts (`coluna_lerLog`, `mem_lerLog`).
-/

namespace SnmpCollector.Coletam5

open Perl
open Coletam (sent indice linhaIfMib Padrao)

/-! ## The reader -/

/-- The columns of the interfaces, in the order of their blocks. -/
inductive Coluna where
  | ifDescr
  | ifInOctets
  | ifOutOctets
  | ifInErrors
  | ifOutErrors
  deriving DecidableEq

def Coluna.todas : List Coluna := [.ifDescr, .ifInOctets, .ifOutOctets, .ifInErrors, .ifOutErrors]

def Coluna.padrao : Coluna → Str
  | .ifDescr => "ifDescr.".toList
  | .ifInOctets => "ifInOctets.".toList
  | .ifOutOctets => "ifOutOctets.".toList
  | .ifInErrors => "ifInErrors.".toList
  | .ifOutErrors => "ifOutErrors.".toList

def padraoCpu : Str := "enterprises.9.2.1.58.0".toList

/-- The two memory columns, used and free. -/
inductive Mem where
  | util
  | free
  deriving DecidableEq

def Mem.padrao : Mem → Str
  | .util => "enterprises.9.9.48.1.1.1.5.1".toList
  | .free => "enterprises.9.9.48.1.1.1.6.1".toList

/-- `%interface`, `%if_in`, `%if_out`, `%if_in_errs`, `%if_out_errs`, `$cpu5`, `$mem_util` and
`$mem_free`. -/
structure Tabelas where
  interface : Hash Str Str
  ifIn : Hash Str Str
  ifOut : Hash Str Str
  ifInErrs : Hash Str Str
  ifOutErrs : Hash Str Str
  cpu5 : Str
  memUtil : Str
  memFree : Str

def Tabelas.vazias : Tabelas := ⟨∅, ∅, ∅, ∅, ∅, [], [], []⟩

def Tabelas.coluna (tb : Tabelas) : Coluna → Hash Str Str
  | .ifDescr => tb.interface
  | .ifInOctets => tb.ifIn
  | .ifOutOctets => tb.ifOut
  | .ifInErrors => tb.ifInErrs
  | .ifOutErrors => tb.ifOutErrs

def Tabelas.mem (tb : Tabelas) : Mem → Str
  | .util => tb.memUtil
  | .free => tb.memFree

/-- The block of a column. -/
def blocoIf (c : Coluna) (linha : Str) (tab : Hash Str Str) : Hash Str Str :=
  if contem c.padrao linha then tab.insert (indice linha) (sent linha) else tab

/-- The block of a single value. -/
def blocoValor (padrao linha valor : Str) : Str :=
  if contem padrao linha then sent linha else valor

/-- The body of the loop over the lines of a log. -/
def lerLinha (tb : Tabelas) (linha : Str) : Tabelas where
  interface := blocoIf .ifDescr (limpa linha) tb.interface
  ifIn := blocoIf .ifInOctets (limpa linha) tb.ifIn
  ifOut := blocoIf .ifOutOctets (limpa linha) tb.ifOut
  ifInErrs := blocoIf .ifInErrors (limpa linha) tb.ifInErrs
  ifOutErrs := blocoIf .ifOutErrors (limpa linha) tb.ifOutErrs
  cpu5 := blocoValor padraoCpu (limpa linha) tb.cpu5
  memUtil := blocoValor (Mem.padrao .util) (limpa linha) tb.memUtil
  memFree := blocoValor (Mem.padrao .free) (limpa linha) tb.memFree

def lerLog (rtt : List Str) : Tabelas := rtt.foldl lerLinha .vazias

/-! ## Any log -/

theorem coluna_lerLinha (tb : Tabelas) (linha : Str) (c : Coluna) :
    (lerLinha tb linha).coluna c = blocoIf c (limpa linha) (tb.coluna c) := by
  cases c <;> rfl

theorem mem_lerLinha (tb : Tabelas) (linha : Str) (m : Mem) :
    (lerLinha tb linha).mem m = blocoValor m.padrao (limpa linha) (tb.mem m) := by
  cases m <;> rfl

theorem Coluna.vazias_coluna (c : Coluna) : Tabelas.vazias.coluna c = ∅ := by
  cases c <;> rfl

/-- **Each table holds what the last line with its name and an index says.** -/
theorem coluna_lerLog (rtt : List Str) (c : Coluna) :
    (lerLog rtt).coluna c = load indice sent ∅ ((rtt.map limpa).filter (contem c.padrao)) := by
  rw [lerLog, load, List.foldl_filter, List.foldl_map, ← c.vazias_coluna]
  exact (List.foldl_hom (Tabelas.coluna · c) fun tb linha => (coluna_lerLinha tb linha c).symm).symm

/-- **The memory is what the last line with its pattern says.** -/
theorem mem_lerLog (rtt : List Str) (m : Mem) :
    (lerLog rtt).mem m = ((lastSuch (contem m.padrao) (rtt.map limpa)).map sent).getD [] := by
  rw [lerLog]
  induction rtt using List.reverseRecOn with
  | nil => cases m <;> rfl
  | append_singleton rtt linha ih =>
      rw [List.foldl_append, List.foldl_cons, List.foldl_nil, mem_lerLinha, ih, blocoValor,
        List.map_append, List.map_singleton, lastSuch_concat]
      split <;> rfl

/-! ## Logs -/

/-- A line of a log: a row of an interface, a row of a memory pool, or any other line. -/
inductive Item where
  | linha (c : Coluna) (ifIndex : Nat) (tipo valor : Str)
  | mem (m : Mem) (pool : Nat) (tipo valor : Str)
  | outra (s : Str)

/-- The columns `9.9.48.1.1.1.5` and `9.9.48.1.1.1.6`. -/
def Mem.coluna : Mem → CpuMem.Coluna
  | .util => .memUtil
  | .free => .memFree

def Item.texto : Item → Str
  | .linha c ifIndex tipo valor => linhaIfMib c.padrao ifIndex tipo valor
  | .mem m pool tipo valor => CpuMem.linhaSnmp (m.coluna.oid ++ decimal pool) tipo valor
  | .outra s => s

/-- A line as the blocks see it. -/
def Item.visto (i : Item) : Str := limpa i.texto

/-- The text of a log. -/
def textoLog (log : List Item) : Str := delimited '\n' (log.map Item.texto)

section Log

variable {log : List Item} (h : ∀ i ∈ log, '\n' ∉ i.texto)

include h

theorem map_limpa_textoLog : (lines '\n' (textoLog log)).map limpa = log.map Item.visto := by
  rw [textoLog, lines_delimited, List.map_map, List.map_map]
  · exact List.map_congr_left fun i _ => limpa_nl i.texto
  · intro l hl
    obtain ⟨i, hi, rfl⟩ := List.mem_map.mp hl
    exact h i hi

theorem lookup_textoLog (c : Coluna) (k : Str) :
    ((lerLog (lines '\n' (textoLog log))).coluna c).lookup k
      = (lastSuch (fun i : Item => contem c.padrao i.visto && decide (indice i.visto = k)) log).map
          fun i => sent i.visto := by
  rw [coluna_lerLog, lookup_load, lastSuch_filter, map_limpa_textoLog h, lastSuch_map,
    AList.lookup_empty, Option.or_none, Option.map_map]
  rfl

theorem mem_textoLog (m : Mem) : (lerLog (lines '\n' (textoLog log))).mem m
    = ((lastSuch (fun i : Item => contem m.padrao i.visto) log).map
        fun i => sent i.visto).getD [] := by
  rw [mem_lerLog, map_limpa_textoLog h, lastSuch_map, Option.map_map]
  rfl

end Log

/-! ### The rows of the interfaces -/

theorem Coluna.padrao_valido (c : Coluna) : Padrao c.padrao := by
  cases c with
  | ifDescr => exact ⟨"ifDescr".toList, by decide +kernel, by simp [Coletam.separadores]⟩
  | ifInOctets => exact ⟨"ifInOctets".toList, by decide +kernel, by simp [Coletam.separadores]⟩
  | ifOutOctets => exact ⟨"ifOutOctets".toList, by decide +kernel, by simp [Coletam.separadores]⟩
  | ifInErrors => exact ⟨"ifInErrors".toList, by decide +kernel, by simp [Coletam.separadores]⟩
  | ifOutErrors => exact ⟨"ifOutErrors".toList, by decide +kernel, by simp [Coletam.separadores]⟩

theorem Coluna.padrao_suffix {c c' : Coluna} : c'.padrao <:+ c.padrao ↔ c' = c := by
  cases c <;> cases c' <;> decide +kernel

section Linha

variable {c : Coluna} {ifIndex : Nat} {tipo valor : Str}

theorem visto_linha : (Item.linha c ifIndex tipo valor).visto
    = linhaIfMib c.padrao ifIndex (limpa tipo) (limpa valor) := by
  rw [Item.visto, ← limpa_nl]
  exact Coletam.limpa_linhaIfMib c.padrao_valido ifIndex tipo valor

/-- **A block of a column takes its own rows, and those in whose value its name occurs.** -/
theorem contem_linha {c' : Coluna} (ht : ¬ c'.padrao <:+: limpa tipo) :
    contem c'.padrao (Item.linha c ifIndex tipo valor).visto
      = decide (c' = c ∨ c'.padrao <:+: limpa valor) := by
  rw [contem, decide_eq_decide, visto_linha,
    Coletam.infix_linhaIfMib c.padrao_valido _ _ _ c'.padrao_valido, Coluna.padrao_suffix]
  simp only [ht, false_or]

theorem indice_linha : indice (Item.linha c ifIndex tipo valor).visto = decimal ifIndex := by
  rw [visto_linha, Coletam.indice_linhaIfMib c.padrao_valido]

theorem sent_linha (ht : ':' ∉ limpa tipo) :
    sent (Item.linha c ifIndex tipo valor).visto = Coletam.lido valor := by
  rw [visto_linha, Coletam.sent_linhaIfMib c.padrao_valido _ _ _ ht, Coletam.lido]

end Linha

/-! ### The memory rows -/

theorem Mem.padrao_eq (m : Mem) : m.padrao = CpuMem.enterprises ++ (m.coluna.oid ++ ['1']) := by
  cases m <;> decide +kernel

theorem Mem.coluna_injective {m m' : Mem} (h : m.coluna = m'.coluna) : m = m' := by
  revert h
  cases m <;> cases m' <;> decide

section Mem

variable {m : Mem} {pool : Nat} {tipo valor : Str}

theorem visto_mem : (Item.mem m pool tipo valor).visto
    = limpa ((CpuMem.Item.linha m.coluna pool tipo valor).texto ++ ['\n']) :=
  (limpa_nl _).symm

/-- **A block of the memory takes the rows of its column with an index that starts with 1.** -/
theorem contem_mem (ht : CpuMem.TipoValido tipo) (hv : CpuMem.ValorValido valor) (m' : Mem) :
    contem m'.padrao (Item.mem m pool tipo valor).visto
      = decide (m = m' ∧ ['1'] <+: decimal pool) := by
  rw [contem, decide_eq_decide, visto_mem, m'.padrao_eq, CpuMem.padrao_infix_linha ht hv]
  obtain ⟨d, ds, hd⟩ := List.exists_cons_of_ne_nil (decimal_ne_nil pool)
  have hone : ∀ R : Str, ['1'] <+: decimal pool ++ R ↔ ['1'] <+: decimal pool := by
    intro R
    rw [hd, List.cons_append, List.cons_prefix_cons, List.cons_prefix_cons]
    simp
  constructor
  · intro hp
    have hoid : m'.coluna.oid <+: m.coluna.oid ++ _ := (List.prefix_append _ _).trans hp
    have hcol := (CpuMem.Coluna.oid_prefix _).mp hoid
    obtain rfl := Mem.coluna_injective hcol
    rw [List.prefix_append_right_inj, hone] at hp
    exact ⟨rfl, hp⟩
  · rintro ⟨rfl, hp⟩
    rw [List.prefix_append_right_inj, hone]
    exact hp

theorem sent_mem (ht : CpuMem.TipoValido tipo) :
    sent (Item.mem m pool tipo valor).visto = CpuMem.lidoCpu valor := by
  have hoid : ':' ∉ m.coluna.oid ++ decimal pool := by
    intro hc
    rcases List.mem_append.mp hc with hc | hc
    · rcases CpuMem.Coluna.mem_oid hc with hc | hc <;> exact absurd hc (by decide)
    · exact absurd (isDigit_of_mem_decimal hc) (by decide)
  rw [visto_mem, CpuMem.limpa_linha, sent, ← List.append_assoc m.coluna.oid,
    CpuMem.field_linhaSnmp hoid ht.colon, CpuMem.lidoCpu]

end Mem

end SnmpCollector.Coletam5
