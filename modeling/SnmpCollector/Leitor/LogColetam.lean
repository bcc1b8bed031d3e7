import SnmpCollector.Basic

set_option autoImplicit false

/-! # Reading the walk log of the interfaces (`leitor/rep/leitor_coletam.pl`, the log)

The log of a host holds lines as `snmpwalk` prints them,
`IF-MIB::ifDescr.<index> = STRING: <description>`, and the same for `ifAdminStatus` and
`ifOperStatus`. The reader finds the column of a line by its name, takes the index from the
text in front of the `=`, and the value by its position between the `:` of the whole line: of
a description that holds a `:` itself, only what stands in front of it is kept (`lido`).

`lerLog_coluna` says what the tables hold after any log, and `lerLog_textoLog` after a log of
printed rows.
-/

namespace SnmpCollector.Coletam

open Perl

/-! ## The reader -/

/-- The columns of the log, in the order of their blocks. -/
inductive Coluna where
  | ifDescr
  | ifAdminStatus
  | ifOperStatus
  deriving DecidableEq

/-- The pattern of a block. -/
def Coluna.padrao : Coluna → Str
  | .ifDescr => "ifDescr.".toList
  | .ifAdminStatus => "ifAdminStatus.".toList
  | .ifOperStatus => "ifOperStatus.".toList

/-- `%interface`, `%if_adm` and `%if_oper`. -/
structure Tabelas where
  interface : Hash Str Str
  ifAdm : Hash Str Str
  ifOper : Hash Str Str

def Tabelas.vazias : Tabelas := ⟨∅, ∅, ∅⟩

def Tabelas.coluna (tb : Tabelas) : Coluna → Hash Str Str
  | .ifDescr => tb.interface
  | .ifAdminStatus => tb.ifAdm
  | .ifOperStatus => tb.ifOper

/-- `$sent`: what stands after the third `:` of a line, up to the next one. -/
def sent (linha : Str) : Str := semBrancos (field (split ':' linha) 3)

/-- `@int[1]`: what stands after the first `.` in front of the `=`. -/
def indice (linha : Str) : Str := semBrancos (field (split '.' (field (split '=' linha) 0)) 1)

/-- The block of a column. -/
def bloco (c : Coluna) (linha : Str) (tab : Hash Str Str) : Hash Str Str :=
  if contem c.padrao linha then tab.insert (indice linha) (sent linha) else tab

/-- The body of the loop over the lines of a log. -/
def lerLinha (tb : Tabelas) (linha : Str) : Tabelas where
  interface := bloco .ifDescr (limpa linha) tb.interface
  ifAdm := bloco .ifAdminStatus (limpa linha) tb.ifAdm
  ifOper := bloco .ifOperStatus (limpa linha) tb.ifOper

def lerLog (rtt : List Str) : Tabelas := rtt.foldl lerLinha .vazias

/-! ## Any log -/

/-- The lines that name a column, cleaned. -/
def linhasCom (c : Coluna) (rtt : List Str) : List Str := (rtt.map limpa).filter (contem c.padrao)

theorem coluna_lerLinha (tb : Tabelas) (linha : Str) (c : Coluna) :
    (lerLinha tb linha).coluna c = bloco c (limpa linha) (tb.coluna c) := by
  cases c <;> rfl

theorem Coluna.vazias_coluna (c : Coluna) : Tabelas.vazias.coluna c = ∅ := by
  cases c <;> rfl

/-- **Each table holds what the last line of its column with an index says.** -/
theorem lerLog_coluna (rtt : List Str) (c : Coluna) :
    (lerLog rtt).coluna c = load indice sent ∅ (linhasCom c rtt) := by
  rw [lerLog, linhasCom, load, List.foldl_filter, List.foldl_map, ← c.vazias_coluna]
  exact (List.foldl_hom (Tabelas.coluna · c) fun tb linha => (coluna_lerLinha tb linha c).symm).symm

/-- A text that stays on its line. -/
def UmaLinha (s : Str) : Prop := '\n' ∉ s ∧ '\r' ∉ s

theorem UmaLinha.subset {a b : Str} (h : UmaLinha b) (hab : a ⊆ b) : UmaLinha a :=
  ⟨fun hc => h.1 (hab hc), fun hc => h.2 (hab hc)⟩

theorem umaLinha_chomp (s : Str) : UmaLinha (chomp s) := by
  simp [UmaLinha, chomp]

/-- No value of a table holds a line break. -/
theorem umaLinha_fetch_coluna (rtt : List Str) (c : Coluna) (k : Str) :
    UmaLinha (fetch ((lerLog rtt).coluna c) k) := by
  rw [fetch, lerLog_coluna, lookup_load]
  cases hl : lastSuch (fun l => decide (indice l = k)) (linhasCom c rtt) with
  | none => simp [UmaLinha]
  | some l =>
      obtain ⟨linha, -, rfl⟩ := List.mem_map.mp (List.mem_of_mem_filter (lastSuch_eq_some hl).1)
      have hsent : sent (limpa linha) ⊆ limpa linha := fun x hx =>
        (field_split_spec ':' (limpa linha) 3).2 (List.mem_of_mem_filter hx)
      exact ((umaLinha_chomp linha).subset (List.filter_subset_self _)).subset hsent

/-! ## Rows of the IF-MIB -/

def ifMib : Str := "IF-MIB::".toList

/-- A row as `snmpwalk` prints it, with the name of the column and the point after it. -/
def linhaIfMib (padrao : Str) (ifIndex : Nat) (tipo valor : Str) : Str :=
  ifMib ++ (padrao ++ (decimal ifIndex ++ ' ' :: '=' :: ' ' :: (tipo ++ ':' :: ' ' :: valor)))

/-- The characters between which the reader cuts a line, and those that it removes. -/
def separadores : Str := ['.', '=', ':', ' ', '"', '\n', '\r']

/-- The pattern of a block is a name without such characters, and a point. -/
def Padrao (p : Str) : Prop := ∃ nome : Str, p = nome ++ ['.'] ∧ ∀ x ∈ nome, x ∉ separadores

/-- The value of a row, as the reader takes it. -/
def lido (valor : Str) : Str := semBrancos (field (split ':' (' ' :: limpa valor)) 0)

namespace Padrao

variable {p q : Str}

theorem not_mem (h : Padrao p) {x : Char} (hx : x ∈ separadores) (hdot : x ≠ '.') : x ∉ p := by
  obtain ⟨nome, rfl, hnome⟩ := h
  intro hmem
  rcases List.mem_append.mp hmem with hmem | hmem
  · exact hnome x hmem hx
  · exact hdot (List.mem_singleton.mp hmem)

theorem dot_mem (h : Padrao p) : '.' ∈ p := by
  obtain ⟨nome, rfl, -⟩ := h
  simp

/-- A name in front of an index can only be found at its end. -/
theorem infix_append_decimal (hq : Padrao q) (hp : Padrao p) (n : Nat) :
    q <:+: p ++ decimal n ↔ q <:+ p := by
  obtain ⟨b, rfl, -⟩ := hq
  obtain ⟨a, rfl, ha⟩ := hp
  constructor
  · rintro ⟨u, v, h⟩
    have hdots : ('.' :: decimal n).count '.' = 1 := by
      rw [List.count_cons_self, List.count_eq_zero.mpr (not_mem_decimal (by decide) n)]
    have ha' : '.' ∉ a := fun hdot => ha _ hdot (by decide)
    have hsplit : (u ++ b) ++ '.' :: v = a ++ '.' :: decimal n := by simpa using h
    have hcount : ((u ++ b) ++ '.' :: v).count '.' = 1 := by
      rw [hsplit, List.count_append, List.count_eq_zero.mpr ha', hdots]
    rw [List.count_append, List.count_cons_self] at hcount
    have hub : '.' ∉ u ++ b := List.count_eq_zero.mp (by omega)
    obtain ⟨heq, -⟩ := append_cons_inj hub ha' hsplit
    exact ⟨u, by rw [← heq, List.append_assoc]⟩
  · exact fun h => h.isInfix.trans (List.prefix_append _ _).isInfix

end Padrao

section IfMib

variable {p : Str} (hp : Padrao p) (ifIndex : Nat) (tipo valor : Str)

include hp

/-- A row as the blocks see it. -/
theorem limpa_linhaIfMib : limpa (linhaIfMib p ifIndex tipo valor ++ ['\n'])
    = linhaIfMib p ifIndex (limpa tipo) (limpa valor) := by
  have h1 : limpa ifMib = ifMib := limpa_eq_self (by unfold ifMib; simp)
  have h2 : limpa p = p := limpa_eq_self fun x hx =>
    ⟨fun h => hp.not_mem (by decide) (by decide) (h ▸ hx),
      fun h => hp.not_mem (by decide) (by decide) (h ▸ hx),
      fun h => hp.not_mem (by decide) (by decide) (h ▸ hx)⟩
  have h3 : limpa (decimal ifIndex) = decimal ifIndex := by
    refine limpa_eq_self fun x hx => ⟨?_, ?_, ?_⟩ <;> rintro rfl <;>
      exact not_mem_decimal (by decide) ifIndex hx
  have h4 : limpa ['\n'] = [] := by simp [limpa, chomp]
  have h5 : ∀ s, limpa (' ' :: '=' :: ' ' :: s) = ' ' :: '=' :: ' ' :: limpa s := by
    simp [limpa, chomp]
  have h6 : ∀ s, limpa (':' :: ' ' :: s) = ':' :: ' ' :: limpa s := by simp [limpa, chomp]
  simp only [linhaIfMib, limpa_append, h1, h2, h3, h4, h5, h6, List.append_nil]

/-- A pattern is found in the name of the column, in the type or in the value. -/
theorem infix_linhaIfMib {q : Str} (hq : Padrao q) : q <:+: linhaIfMib p ifIndex tipo valor ↔
    q <:+ p ∨ q <:+: tipo ∨ q <:+: valor := by
  have hcolon : ':' ∉ q := hq.not_mem (by decide) (by decide)
  have hblank : ' ' ∉ q := hq.not_mem (by decide) (by decide)
  have hno : ∀ s : Str, '.' ∉ s → ¬ q <:+: s := fun s hs h => hs (h.subset hq.dot_mem)
  have hmib : ifMib = "IF-MIB".toList ++ ':' :: ([] ++ [':']) := by decide +kernel
  -- between the blanks and the colons
  have hsplit : linhaIfMib p ifIndex tipo valor
      = "IF-MIB".toList ++ ':' :: ([] ++ ':' :: ((p ++ decimal ifIndex) ++ ' ' ::
          (['='] ++ ' ' :: (tipo ++ ':' :: ([] ++ ' ' :: valor))))) := by
    rw [linhaIfMib, hmib]
    simp
  rw [hsplit, infix_append_cons hcolon, infix_append_cons hcolon, infix_append_cons hblank,
    infix_append_cons hblank, infix_append_cons hcolon, infix_append_cons hblank,
    hq.infix_append_decimal hp]
  simp only [hno _ (show '.' ∉ "IF-MIB".toList by simp), hno [] (by simp), hno ['='] (by simp),
    false_or]

theorem sent_linhaIfMib (ht : ':' ∉ tipo) :
    sent (linhaIfMib p ifIndex tipo valor) = semBrancos (field (split ':' (' ' :: valor)) 0) := by
  have hfs : ∀ f ∈ ["IF-MIB".toList, [], p ++ (decimal ifIndex ++ ' ' :: '=' :: ' ' :: tipo)],
      ':' ∉ f := by
    intro f hf
    simp only [List.mem_cons, List.not_mem_nil, or_false] at hf
    rcases hf with rfl | rfl | rfl
    · simp
    · simp
    · have hp' : ':' ∉ p := hp.not_mem (by decide) (by decide)
      have hd : ':' ∉ decimal ifIndex := not_mem_decimal (by decide) _
      simp [hp', hd, ht]
  have hmib : ifMib = "IF-MIB".toList ++ [':', ':'] := by decide +kernel
  have hdel : linhaIfMib p ifIndex tipo valor
      = delimited ':' ["IF-MIB".toList, [], p ++ (decimal ifIndex ++ ' ' :: '=' :: ' ' :: tipo)]
        ++ (' ' :: valor) := by
    rw [linhaIfMib, hmib]
    simp only [delimited_cons, delimited_nil, List.append_assoc, List.cons_append, List.nil_append]
  rw [hdel, sent, field_split, field_split, splitOn_delimited_append hfs]
  exact congrArg semBrancos (field_append_length _ _ 0)

theorem indice_linhaIfMib : indice (linhaIfMib p ifIndex tipo valor) = decimal ifIndex := by
  have heq : '=' ∉ p := hp.not_mem (by decide) (by decide)
  obtain ⟨nome, rfl, hnome⟩ := hp
  have hdot : '.' ∉ nome := fun hmem => hnome _ hmem (by decide)
  have hd : ∀ x : Char, x.isDigit = false → x ∉ decimal ifIndex := fun x hx => not_mem_decimal hx _
  have hmib : '.' ∉ ifMib ∧ '=' ∉ ifMib := by
    unfold ifMib
    exact ⟨by simp, by simp⟩
  -- the text in front of the `=`
  have hfront : '=' ∉ (ifMib ++ nome) ++ '.' :: (decimal ifIndex ++ [' ']) := by
    have hnome' : '=' ∉ nome := fun h => heq (by simp [h])
    simp [hmib.2, hnome', hd '=' (by decide)]
  have hsplit : linhaIfMib (nome ++ ['.']) ifIndex tipo valor
      = ((ifMib ++ nome) ++ '.' :: (decimal ifIndex ++ [' '])) ++ '=' :: (' ' ::
          (tipo ++ ':' :: ' ' :: valor)) := by
    rw [linhaIfMib]
    simp
  have hdots : '.' ∉ ifMib ++ nome ∧ '.' ∉ decimal ifIndex ++ [' '] := by
    simp [hmib.1, hdot, hd '.' (by decide)]
  have hblank : semBrancos (decimal ifIndex ++ [' ']) = decimal ifIndex := by
    have hself : (decimal ifIndex).filter (· != ' ') = decimal ifIndex := by
      rw [List.filter_eq_self]
      intro x hx
      have hne : x ≠ ' ' := by rintro rfl; exact hd ' ' (by decide) hx
      simpa using hne
    rw [semBrancos, List.filter_append, hself]
    simp
  rw [hsplit, indice, field_split '=', List.splitOn_append_cons_self_of_not_mem hfront]
  show semBrancos (field (split '.' ((ifMib ++ nome) ++ '.' :: (decimal ifIndex ++ [' ']))) 1) = _
  rw [field_split, List.splitOn_append_cons_self_of_not_mem hdots.1,
    List.splitOn_eq_singleton hdots.2]
  exact hblank

theorem not_nl_linhaIfMib (ht : '\n' ∉ tipo) (hv : '\n' ∉ valor) :
    '\n' ∉ linhaIfMib p ifIndex tipo valor := by
  have h1 : '\n' ∉ ifMib := by unfold ifMib; simp
  have h2 : '\n' ∉ p := hp.not_mem (by decide) (by decide)
  have h3 : '\n' ∉ decimal ifIndex := not_mem_decimal (by decide) _
  simp [linhaIfMib, h1, h2, h3, ht, hv]

end IfMib

/-! ## Printed rows -/

/-- A line of a log: a row of one of the columns, or any other line. -/
inductive Item where
  | linha (c : Coluna) (ifIndex : Nat) (tipo valor : Str)
  | outra (s : Str)

def Item.texto : Item → Str
  | .linha c ifIndex tipo valor =>
      ifMib ++ (c.padrao ++ (decimal ifIndex ++ ' ' :: '=' :: ' ' :: (tipo ++ ':' :: ' ' :: valor)))
  | .outra s => s

/-- A text that stays on its line and names no column. -/
structure SemColuna (s : Str) : Prop where
  nl : '\n' ∉ s
  coluna : ∀ c : Coluna, ¬ c.padrao <:+: limpa s

def Item.Valido : Item → Prop
  | .linha _ _ tipo valor => SemColuna tipo ∧ ':' ∉ limpa tipo ∧ SemColuna valor
  | .outra s => SemColuna s

/-- The text of a log. -/
def textoLog (log : List Item) : Str := delimited '\n' (log.map Item.texto)

/-- The rows of a column: index and value. -/
def linhasDe (c : Coluna) (log : List Item) : List (Nat × Str) :=
  log.filterMap fun
    | .linha c' ifIndex _ valor => if c' = c then some (ifIndex, valor) else none
    | .outra _ => none

theorem Coluna.padrao_valido (c : Coluna) : Padrao c.padrao := by
  cases c with
  | ifDescr => exact ⟨"ifDescr".toList, by decide +kernel, by simp [separadores]⟩
  | ifAdminStatus => exact ⟨"ifAdminStatus".toList, by decide +kernel, by simp [separadores]⟩
  | ifOperStatus => exact ⟨"ifOperStatus".toList, by decide +kernel, by simp [separadores]⟩

/-- The name of a column is found in its own rows only. -/
theorem Coluna.padrao_suffix {c c' : Coluna} : c'.padrao <:+ c.padrao ↔ c' = c := by
  cases c <;> cases c' <;> decide +kernel

section Linha

variable {c : Coluna} {ifIndex : Nat} {tipo valor : Str}

theorem limpa_linha (c : Coluna) (ifIndex : Nat) (tipo valor : Str) :
    limpa ((Item.linha c ifIndex tipo valor).texto ++ ['\n'])
      = linhaIfMib c.padrao ifIndex (limpa tipo) (limpa valor) :=
  limpa_linhaIfMib c.padrao_valido ifIndex tipo valor

/-- A row names its own column and no other. -/
theorem padrao_infix_linha (ht : SemColuna tipo) (hv : SemColuna valor) (c' : Coluna) :
    c'.padrao <:+: limpa ((Item.linha c ifIndex tipo valor).texto ++ ['\n']) ↔ c' = c := by
  rw [limpa_linha, infix_linhaIfMib c.padrao_valido _ _ _ c'.padrao_valido, Coluna.padrao_suffix]
  simp only [ht.coluna c', hv.coluna c', or_false]

theorem sent_linha (ht : ':' ∉ limpa tipo) :
    sent (limpa ((Item.linha c ifIndex tipo valor).texto ++ ['\n'])) = lido valor := by
  rw [limpa_linha, sent_linhaIfMib c.padrao_valido _ _ _ ht, lido]

theorem indice_linha :
    indice (limpa ((Item.linha c ifIndex tipo valor).texto ++ ['\n'])) = decimal ifIndex := by
  rw [limpa_linha, indice_linhaIfMib c.padrao_valido]

end Linha

theorem not_nl_texto {i : Item} (h : i.Valido) : '\n' ∉ i.texto := by
  cases i with
  | linha c ifIndex tipo valor =>
      exact not_nl_linhaIfMib c.padrao_valido ifIndex _ _ h.1.nl h.2.2.nl
  | outra s => exact h.nl

theorem lines_textoLog {log : List Item} (h : ∀ i ∈ log, i.Valido) :
    lines '\n' (textoLog log) = log.map (fun i => i.texto ++ ['\n']) := by
  rw [textoLog, lines_delimited, List.map_map]
  · rfl
  · intro l hl
    obtain ⟨i, hi, rfl⟩ := List.mem_map.mp hl
    exact not_nl_texto (h i hi)

/-- **The tables of a log of printed rows.** -/
theorem lerLog_textoLog {log : List Item} (h : ∀ i ∈ log, i.Valido) (c : Coluna) :
    (lerLog (lines '\n' (textoLog log))).coluna c
      = load (fun r => decimal r.1) (fun r => lido r.2) ∅ (linhasDe c log) := by
  rw [lines_textoLog h, lerLog, List.foldl_map, linhasDe, ← c.vazias_coluna]
  refine foldl_eq_load (Tabelas.coluna · c) (fun i hi tb => ?_) .vazias
  have hval := h i hi
  rw [coluna_lerLinha, bloco]
  cases i with
  | outra s =>
      rw [Item.texto, limpa_nl, if_neg (by simpa using hval.coluna c)]
      rfl
  | linha c' ifIndex tipo valor =>
      obtain ⟨ht, hcolon, hv⟩ := hval
      by_cases hc : c' = c
      · subst hc
        rw [if_pos (contem_iff.mpr ((padrao_infix_linha ht hv c').mpr rfl)), indice_linha,
          sent_linha hcolon]
        simp [load]
      · rw [if_neg]
        · simp [load, hc]
        · rw [contem_iff, padrao_infix_linha ht hv]
          exact fun heq => hc heq.symm

end SnmpCollector.Coletam
