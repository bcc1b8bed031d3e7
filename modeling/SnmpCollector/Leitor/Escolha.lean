import SnmpCollector.Leitor.WalkHost

set_option autoImplicit false

/-! # The choice of the interface id (`leitor/00_ler_snmp_walk_host.pl`, lines 132 to 224)

A walk log `host-ip.txt` holds one line `IF-MIB::ifDescr.<number> = STRING: <text>` per
interface. The text is cut at its first `-` and stripped of blanks, so that the rows of the
layers of an interface fall on the name of the interface. Among the rows of a name the reader
keeps the first for serial interfaces that are not ATM, and the last for all others
(`escolha_do_id`).
-/

namespace SnmpCollector.Leitor

open Perl

/-! ## Lines of a log -/

def mibDescr : Str := "IF-MIB::ifDescr".toList

/-- The line for an interface; `texto` is all that follows `STRING: `. -/
def linhaDescr (indice : Nat) (texto : Str) : Str :=
  mibDescr ++ '.' :: (decimal indice ++ ' ' :: '=' :: ' ' :: ("STRING: ".toList ++ texto))

/-- The text in front of the `=`. -/
def frente (indice : Nat) : Str := mibDescr ++ '.' :: (decimal indice ++ [' '])

theorem linhaDescr_eq (indice : Nat) (texto : Str) :
    linhaDescr indice texto = (frente indice ++ ['=', ' ']) ++ ("STRING: ".toList ++ texto) := by
  simp only [linhaDescr, frente, List.append_assoc, List.cons_append, List.nil_append]

/-- A character that is neither in the name of the column nor a digit, a dot or a blank. -/
theorem not_mem_frente {c : Char} (h1 : c ∉ mibDescr) (h2 : c.isDigit = false) (h3 : c ≠ '.')
    (h4 : c ≠ ' ') (indice : Nat) : c ∉ frente indice := by
  simp [frente, h1, h3, h4, not_mem_decimal h2 indice]

theorem chomp_linhaDescr (indice : Nat) (texto : Str) :
    chomp (linhaDescr indice texto) = linhaDescr indice (chomp texto) := by
  have hmib : ∀ c ∈ ['\n', '\r'], c ∉ frente indice ++ ['=', ' '] := by
    intro c hc
    have hfront : c ∉ frente indice := by
      simp only [List.mem_cons, List.not_mem_nil, or_false] at hc
      rcases hc with rfl | rfl
      · exact not_mem_frente (by unfold mibDescr; simp) (by decide) (by decide) (by decide) indice
      · exact not_mem_frente (by unfold mibDescr; simp) (by decide) (by decide) (by decide) indice
    simp only [List.mem_cons, List.not_mem_nil, or_false] at hc
    rcases hc with rfl | rfl <;> simp [hfront]
  have hantes : chomp (frente indice ++ ['=', ' ']) = frente indice ++ ['=', ' '] :=
    chomp_eq_self (hmib _ (by simp)) (hmib _ (by simp))
  have hstring : chomp "STRING: ".toList = "STRING: ".toList :=
    chomp_eq_self (by simp) (by simp)
  rw [linhaDescr_eq, linhaDescr_eq, chomp_append _ (_ ++ texto), chomp_append _ texto, hantes, hstring]

/-- The line with `STRING: ` replaced. -/
theorem replaceAll_linhaDescr (indice : Nat) (texto : Str) :
    replaceAll "STRING: ".toList "#".toList (linhaDescr indice texto)
      = frente indice ++ '=' :: ' ' :: '#' :: replaceAll "STRING: ".toList "#".toList texto := by
  have hS : 'S' ∉ frente indice ++ ['=', ' '] := by
    have hfront : 'S' ∉ frente indice :=
      not_mem_frente (by unfold mibDescr; simp) (by decide) (by decide) (by decide) indice
    simp [hfront]
  have hstring : "STRING: ".toList = 'S' :: "TRING: ".toList := by decide +kernel
  have hhash : "#".toList = ['#'] := by decide +kernel
  rw [linhaDescr_eq, hstring, hhash, replaceAll_append_of_not_mem hS, replaceAll_append_self]
  simp

/-- What the reader takes from such a line. -/
theorem lerLinha_linhaDescr (dados : Str) (indice : Nat) (texto : Str) :
    lerLinha dados (linhaDescr indice texto) = some ⟨hostArq dados,
      semBrancos (field (split '#' ((field (split '='
        (' ' :: '#' :: replaceAll "STRING: ".toList "#".toList (chomp texto))) 0).map
          fun c => if c = '-' then '#' else c)) 1),
      decimal indice⟩ := by
  have hsep : '=' ∉ frente indice :=
    not_mem_frente (by unfold mibDescr; simp) (by decide) (by decide) (by decide) indice
  have heq : '=' ∈ linhaDescr indice (chomp texto) := by simp [linhaDescr]
  -- the index is the column after the dot, with a blank at its end
  have hid : field (split '.' (frente indice)) 1 = decimal indice ++ [' '] := by
    have hmib : '.' ∉ mibDescr := by unfold mibDescr; simp
    have hdot : '.' ∉ decimal indice ++ [' '] := by
      simp [not_mem_decimal (show Char.isDigit '.' = false by decide) indice]
    rw [field_split, frente, List.splitOn_append_cons_self_of_not_mem hmib,
      List.splitOn_eq_singleton hdot]
    rfl
  have hblank : semBrancos (decimal indice ++ [' ']) = decimal indice := by
    have hnone : ∀ c ∈ decimal indice, c ≠ ' ' := by
      rintro c hc rfl
      exact not_mem_decimal (by decide) indice hc
    rw [semBrancos, List.filter_append, List.filter_eq_self.mpr (by simpa using hnone)]
    simp
  set resto := ' ' :: '#' :: replaceAll "STRING: ".toList "#".toList (chomp texto) with hresto
  have hsplit : (replaceAll "STRING: ".toList "#".toList (linhaDescr indice (chomp texto))).splitOn '='
      = frente indice :: resto.splitOn '=' := by
    rw [replaceAll_linhaDescr, List.splitOn_append_cons_self_of_not_mem hsep]
  have hd0 : field (split '='
      (replaceAll "STRING: ".toList "#".toList (linhaDescr indice (chomp texto)))) 0
      = frente indice := by
    rw [field_split, hsplit]
    rfl
  have hd1 : field (split '='
      (replaceAll "STRING: ".toList "#".toList (linhaDescr indice (chomp texto)))) 1
      = field (split '=' resto) 0 := by
    rw [field_split, field_split, hsplit]
    rfl
  unfold lerLinha
  rw [chomp_linhaDescr]
  dsimp only
  rw [if_pos heq, hd0, hd1, hid, hblank]

/-! ## Logs of interface descriptions -/

/-- A description without `=`, `#`, `STRING: ` and line breaks. -/
structure Descricao where
  texto : Str
  limpo : ∀ c ∈ texto, c ≠ '=' ∧ c ≠ '#' ∧ c ≠ '\n' ∧ c ≠ '\r'
  semString : ¬ "STRING: ".toList <:+: texto

/-- The name of the interface: the description up to its first `-`, without blanks. -/
def Descricao.nome (d : Descricao) : Str := semBrancos (d.texto.takeWhile (· ≠ '-'))

/-- A line of a log: an interface, or a text without `=`. -/
inductive LinhaLog
  | ifDescr (indice : Nat) (d : Descricao)
  | outra (s : Str) (semIgual : '=' ∉ s)

def LinhaLog.texto : LinhaLog → Str
  | .ifDescr indice d => linhaDescr indice (d.texto ++ ['\n'])
  | .outra s _ => s ++ ['\n']

/-- A host name without `_` and `-`. -/
structure HostLivre where
  nome : Str
  semSublinha : '_' ∉ nome
  semTraco : '-' ∉ nome

/-- A log file `host-ip.txt`. -/
structure LogHost where
  host : HostLivre
  ip : Str
  linhas : List LinhaLog

def LogHost.arquivo (a : LogHost) : LogFile :=
  (a.host.nome ++ '-' :: (a.ip ++ ".txt".toList), a.linhas.map LinhaLog.texto)

/-- An interface in the log of a host. -/
structure Ocorrencia where
  host : Str
  nome : Str
  indice : Nat

def Ocorrencia.row (o : Ocorrencia) : Row := ⟨o.host, o.nome, decimal o.indice⟩

end SnmpCollector.Leitor
