import SnmpCollector.Basic

set_option autoImplicit false

/-! # Reading the walk log of cpu and memory (`leitor/leitor_cpu_mem.pl`, the log)

The log of a host holds lines as `snmpwalk` prints them,
`SNMPv2-SMI::enterprises.<column>.<index> = <type>: <value>`, and comments. The reader finds
the column of a line by its OID, turns the OID and the ` = ` into `:`, and takes the index
and the value by their position between the `:`. The blocks for the columns stand one after
the other and change the line they look at.

`lerLog_coluna` and `lerLog_cpu` say what the tables hold after a log: what the last row of a
column and index gives, as `lido` reads it.
-/

namespace SnmpCollector.CpuMem

open Perl

/-! ## The reader -/

/-- The columns of the log, in the order of their blocks. -/
inductive Coluna where
  | memNome
  | memUtil
  | memFree
  | tempNome
  | tempMedido
  | tempLimiar
  | tempStatus
  deriving DecidableEq

def Coluna.todas : List Coluna :=
  [.memNome, .memUtil, .memFree, .tempNome, .tempMedido, .tempLimiar, .tempStatus]

def enterprises : Str := "enterprises.".toList

def igual : Str := " = ".toList

/-- The OID of a column, after `enterprises.` -/
def Coluna.oid : Coluna → Str
  | .memNome => "9.9.48.1.1.1.2.".toList
  | .memUtil => "9.9.48.1.1.1.5.".toList
  | .memFree => "9.9.48.1.1.1.6.".toList
  | .tempNome => "9.9.13.1.3.1.2.".toList
  | .tempMedido => "9.9.13.1.3.1.3.".toList
  | .tempLimiar => "9.9.13.1.3.1.4.".toList
  | .tempStatus => "9.9.13.1.3.1.6.".toList

/-- The pattern of a block. -/
def Coluna.padrao (c : Coluna) : Str := enterprises ++ c.oid

def oidCpu : Str := "9.2.1.58.0".toList

/-- `%cpuavg5` and the tables of the columns. -/
structure Tabelas where
  cpuavg5 : Hash Str Str
  coluna : Coluna → Hash Str Str

def Tabelas.vazias : Tabelas := ⟨∅, fun _ => ∅⟩

/-- `$mem_nome{$ref}=$sent`, and the same for the other columns. -/
def Tabelas.grava (tb : Tabelas) (c : Coluna) (ref sent : Str) : Tabelas :=
  { tb with coluna := Function.update tb.coluna c ((tb.coluna c).insert ref sent) }

/-- The block of a column: it changes the line for the blocks after it. -/
def bloco (host : Str) (s : Str × Tabelas) (c : Coluna) : Str × Tabelas :=
  if contem c.padrao s.1 then
    let linha := replaceAll igual [':'] (replaceAll c.padrao [':'] s.1)
    let sent := split ':' linha
    (linha, s.2.grava c (host ++ '_' :: field sent 3) (semBrancos (field sent 5)))
  else s

def blocoCpu (host linha : Str) (tb : Tabelas) : Tabelas :=
  if contem (enterprises ++ oidCpu) linha then
    { tb with cpuavg5 := tb.cpuavg5.insert host (semBrancos (field (split ':' linha) 3)) }
  else tb

/-- The body of the loop over the lines of the log. -/
def lerLinha (host : Str) (tb : Tabelas) (linha : Str) : Tabelas :=
  (Coluna.todas.foldl (bloco host) (limpa linha, blocoCpu host (limpa linha) tb)).2

def lerLog (host : Str) (rtt : List Str) : Tabelas := rtt.foldl (lerLinha host) .vazias

/-! ## Logs -/

/-- A line of a log: a comment, the row of the cpu, or a row of a column. -/
inductive Item where
  | comentario (s : Str)
  | cpu (tipo valor : Str)
  | linha (c : Coluna) (idx : Nat) (tipo valor : Str)

def snmpv2 : Str := "SNMPv2-SMI::".toList

/-- A row as `snmpwalk` prints it. -/
def linhaSnmp (oid tipo valor : Str) : Str :=
  snmpv2 ++ (enterprises ++ (oid ++ (igual ++ (tipo ++ ':' :: ' ' :: valor))))

def Item.texto : Item → Str
  | .comentario s => s
  | .cpu tipo valor => linhaSnmp oidCpu tipo valor
  | .linha c idx tipo valor => linhaSnmp (c.oid ++ decimal idx) tipo valor

/-- A type is one field of the line. -/
structure TipoValido (tipo : Str) : Prop where
  colon : ':' ∉ limpa tipo
  igual : ¬ SnmpCollector.CpuMem.igual <:+: limpa tipo
  oid : ¬ enterprises <:+: limpa tipo
  nl : '\n' ∉ tipo

/-- A value stays on its line and does not look like another row. -/
structure ValorValido (valor : Str) : Prop where
  oid : ¬ enterprises <:+: limpa valor
  nl : '\n' ∉ valor

def Item.Valido : Item → Prop
  | .comentario s => ¬ enterprises <:+: limpa s ∧ '\n' ∉ s
  | .cpu tipo valor => TipoValido tipo ∧ ValorValido valor
  | .linha _ _ tipo valor => TipoValido tipo ∧ ValorValido valor

/-- A line that is no row may hold anything that the reader does not look for. -/
def Item.Comum : Item → Prop
  | .comentario s => (¬ enterprises ++ oidCpu <:+: limpa s) ∧ (∀ c : Coluna, ¬ c.padrao <:+: limpa s) ∧
      '\n' ∉ s
  | .cpu tipo valor => TipoValido tipo ∧ ValorValido valor
  | .linha _ _ tipo valor => TipoValido tipo ∧ ValorValido valor

theorem Item.Valido.comum {i : Item} (h : i.Valido) : i.Comum := by
  cases i with
  | comentario s =>
      exact ⟨fun hin => h.1 ((List.prefix_append _ _).isInfix.trans hin),
        fun c hin => h.1 ((List.prefix_append _ _).isInfix.trans hin), h.2⟩
  | cpu tipo valor => exact h
  | linha c idx tipo valor => exact h

theorem comuns {log : List Item} (h : ∀ i ∈ log, i.Valido) : ∀ i ∈ log, i.Comum :=
  fun i hi => (h i hi).comum

/-- The value of a row, as the blocks of the columns read it. -/
def lido (valor : Str) : Str :=
  semBrancos (field (split ':' (replaceAll igual [':'] (' ' :: limpa valor))) 0)

/-- The value of the row of the cpu. -/
def lidoCpu (valor : Str) : Str := semBrancos (field (split ':' (' ' :: limpa valor)) 0)

/-! ## One line -/

theorem limpa_linhaSnmp {oid : Str} (ho : limpa oid = oid) (tipo valor : Str) :
    limpa (linhaSnmp oid tipo valor ++ ['\n'])
      = snmpv2 ++ (enterprises ++ (oid ++ (igual ++ (limpa tipo ++ ':' :: ' ' :: limpa valor)))) := by
  have h1 : limpa snmpv2 = snmpv2 := limpa_eq_self (by unfold snmpv2; simp)
  have h2 : limpa enterprises = enterprises := limpa_eq_self (by unfold enterprises; simp)
  have h3 : limpa igual = igual := limpa_eq_self (by unfold igual; simp)
  have h4 : limpa ['\n'] = [] := by simp [limpa, chomp]
  have h5 : limpa (':' :: ' ' :: valor) = ':' :: ' ' :: limpa valor := by simp [limpa, chomp]
  rw [linhaSnmp]
  simp only [limpa_append, h1, h2, h3, h4, h5, ho, List.append_nil]

/-- The value is the text after the third `:`. -/
theorem field_linhaSnmp {oid T : Str} (ho : ':' ∉ oid) (hT : ':' ∉ T) (V : Str) :
    field (split ':' (snmpv2 ++ (enterprises ++ (oid ++ (igual ++ (T ++ ':' :: ' ' :: V)))))) 3
      = field (split ':' (' ' :: V)) 0 := by
  have hfs : ∀ f ∈ ["SNMPv2-SMI".toList, [], enterprises ++ (oid ++ (igual ++ T))], ':' ∉ f := by
    intro f hf
    simp only [List.mem_cons, List.not_mem_nil, or_false] at hf
    rcases hf with rfl | rfl | rfl
    · simp
    · simp
    · have h1 : ':' ∉ enterprises := by unfold enterprises; simp
      have h2 : ':' ∉ igual := by unfold igual; simp
      simp [h1, h2, ho, hT]
  have hdel : snmpv2 ++ (enterprises ++ (oid ++ (igual ++ (T ++ ':' :: ' ' :: V))))
      = delimited ':' ["SNMPv2-SMI".toList, [], enterprises ++ (oid ++ (igual ++ T))]
        ++ (' ' :: V) := by
    have hsnmp : snmpv2 = "SNMPv2-SMI".toList ++ [':', ':'] := by decide +kernel
    rw [hsnmp]
    simp only [delimited_cons, delimited_nil, List.append_assoc, List.cons_append, List.nil_append]
  rw [hdel, field_split, field_split, splitOn_delimited_append hfs]
  exact field_append_length _ _ 0

/-- A pattern that starts with `enterprises.` can only stand where `enterprises.` does. -/
theorem padrao_infix {y : Str} (hy : ¬ enterprises <:+: y) (x : Str) :
    enterprises ++ x <:+: snmpv2 ++ (enterprises ++ y) ↔ x <+: y := by
  have hy' : ¬ enterprises ++ x <:+: y := fun h => hy ((List.prefix_append _ _).isInfix.trans h)
  have hsnmp : 'e' ∉ snmpv2 := by unfold snmpv2; simp
  have hchars : enterprises = ['e', 'n', 't', 'e', 'r', 'p', 'r', 'i', 's', 'e', 's', '.'] := rfl
  rw [hchars] at hy' ⊢
  simp only [List.cons_append, List.nil_append] at hy' ⊢
  rw [cons_infix_append hsnmp]
  simp [List.infix_cons_iff, hy']

theorem not_enterprises_of_not_mem {s : Str} (h : 'e' ∉ s) : ¬ enterprises <:+: s :=
  fun hin => h (hin.subset (by unfold enterprises; simp))

/-- What follows `enterprises.` in a row does not hold it again. -/
theorem not_enterprises_resto {oid T V : Str} (ho : 'e' ∉ oid) (hT : ¬ enterprises <:+: T)
    (hV : ¬ enterprises <:+: V) :
    ¬ enterprises <:+: oid ++ (igual ++ (T ++ ':' :: ' ' :: V)) := by
  have hb : ' ' ∉ enterprises := by unfold enterprises; simp
  have hc : ':' ∉ enterprises := by unfold enterprises; simp
  have higual : igual = [' ', '=', ' '] := rfl
  have heq : ¬ enterprises <:+: ['='] := not_enterprises_of_not_mem (by simp)
  have hnil : ¬ enterprises <:+: [] := not_enterprises_of_not_mem (by simp)
  have hsplit : oid ++ (igual ++ (T ++ ':' :: ' ' :: V))
      = oid ++ ' ' :: (['='] ++ ' ' :: (T ++ ':' :: ([] ++ ' ' :: V))) := by
    rw [higual]
    rfl
  rw [hsplit, infix_append_cons hb, infix_append_cons hb, infix_append_cons hc,
    infix_append_cons hb]
  rintro (h | h | h | h | h)
  · exact not_enterprises_of_not_mem ho h
  · exact heq h
  · exact hT h
  · exact hnil h
  · exact hV h

/-! ### The columns -/

theorem Coluna.mem_todas (c : Coluna) : c ∈ Coluna.todas := by
  cases c <;> simp [Coluna.todas]

theorem Coluna.length_oid (c : Coluna) : c.oid.length = 15 := by
  cases c <;> rfl

theorem Coluna.oid_injective {c c' : Coluna} (h : c.oid = c'.oid) : c = c' := by
  revert h
  cases c <;> cases c' <;> decide

theorem Coluna.mem_oid {c : Coluna} {x : Char} (h : x ∈ c.oid) : x.isDigit = true ∨ x = '.' := by
  revert x
  cases c <;> (unfold Coluna.oid; simp [Char.isDigit])

theorem Coluna.oid_prefix {c c' : Coluna} (R : Str) : c'.oid <+: c.oid ++ R ↔ c' = c := by
  constructor
  · intro h
    have hpre := List.prefix_of_prefix_length_le h (List.prefix_append c.oid R)
      (by rw [c.length_oid, c'.length_oid])
    exact oid_injective (hpre.eq_of_length (by rw [c.length_oid, c'.length_oid]))
  · rintro rfl
    exact List.prefix_append _ _

theorem oidCpu_not_prefix (c : Coluna) (R : Str) : ¬ oidCpu <+: c.oid ++ R := by
  intro h
  have hpre := List.prefix_of_prefix_length_le h (List.prefix_append c.oid R)
    (by rw [c.length_oid]; decide)
  revert hpre
  cases c <;> decide

theorem oid_not_prefix_cpu (c : Coluna) (R : Str) : ¬ c.oid <+: oidCpu ++ R := by
  obtain ⟨a, ha⟩ : ∃ a, c.oid = '9' :: '.' :: '9' :: a := by
    cases c <;> exact ⟨_, rfl⟩
  obtain ⟨b, hb⟩ : ∃ b, oidCpu = '9' :: '.' :: '2' :: b := ⟨_, rfl⟩
  rw [ha, hb]
  simp

/-! ### The blocks -/

theorem foldl_bloco_inativo (host : Str) (cs : List Coluna) {s : Str × Tabelas}
    (h : ∀ c ∈ cs, ¬ c.padrao <:+: s.1) : cs.foldl (bloco host) s = s := by
  induction cs with
  | nil => rfl
  | cons c cs ih =>
      have hstep : bloco host s c = s := by
        rw [bloco, if_neg]
        simpa using h c (by simp)
      rw [List.foldl_cons, hstep, ih fun c' hc' => h c' (by simp [hc'])]

/-- A row after the replacements of its own block. -/
theorem replaceAll_linha {c : Coluna} {idx : Nat} {T V : Str} (hT : ¬ igual <:+: T)
    (hrest : ¬ enterprises <:+: decimal idx ++ (igual ++ (T ++ ':' :: ' ' :: V))) :
    replaceAll igual [':'] (replaceAll c.padrao [':']
        (snmpv2 ++ (enterprises ++ (c.oid ++ (decimal idx ++ (igual ++ (T ++ ':' :: ' ' :: V)))))))
      = delimited ':' ["SNMPv2-SMI".toList, [], [], decimal idx, T]
        ++ replaceAll igual [':'] (' ' :: V) := by
  set R := decimal idx ++ (igual ++ (T ++ ':' :: ' ' :: V)) with hR
  -- the OID becomes `:`
  have hoid : replaceAll c.padrao [':'] (snmpv2 ++ (enterprises ++ (c.oid ++ R)))
      = snmpv2 ++ ':' :: R := by
    obtain ⟨t, ht⟩ : ∃ t, enterprises = 'e' :: t := ⟨_, rfl⟩
    have hpad : c.padrao = 'e' :: (t ++ c.oid) := by rw [Coluna.padrao, ht]; rfl
    have hsnmp : 'e' ∉ snmpv2 := by unfold snmpv2; simp
    have hnot : ¬ c.padrao <:+: R := fun h => hrest ((List.prefix_append _ _).isInfix.trans h)
    have hsplit : enterprises ++ (c.oid ++ R) = 'e' :: (t ++ c.oid) ++ R := by rw [ht]; simp
    rw [hsplit, hpad, replaceAll_append_of_not_mem hsnmp, replaceAll_append_self, ← hpad,
      replaceAll_of_not_infix hnot]
    rfl
  -- and so does the first ` = `
  have hblank : ' ' ∉ snmpv2 ++ ':' :: decimal idx := by
    intro h
    rcases List.mem_append.mp h with h | h
    · revert h
      unfold snmpv2
      simp
    · rcases List.mem_cons.mp h with h | h
      · cases h
      · exact absurd (isDigit_of_mem_decimal h) (by decide)
  have higual : igual = ' ' :: ['=', ' '] := rfl
  have hcolon : ':' ∉ igual := by unfold igual; simp
  have hsplit : snmpv2 ++ ':' :: R
      = (snmpv2 ++ ':' :: decimal idx) ++ (' ' :: ['=', ' '] ++ (T ++ ':' :: ' ' :: V)) := by
    rw [hR, higual]
    simp
  rw [hoid, hsplit, higual, replaceAll_append_of_not_mem hblank, replaceAll_append_self, ← higual,
    replaceAll_append_cons hcolon (by rw [higual]; simp), replaceAll_of_not_infix hT]
  have hsnmp : snmpv2 = "SNMPv2-SMI".toList ++ [':', ':'] := by decide +kernel
  rw [hsnmp]
  simp only [delimited_cons, delimited_nil, List.append_assoc, List.cons_append, List.nil_append]

/-- The OID of a row is made of digits and points. -/
theorem mem_oid_idx {c : Coluna} {idx : Nat} {x : Char} (hx : x ∈ c.oid ++ decimal idx) :
    x ≠ '\n' ∧ x ≠ '\r' ∧ x ≠ '"' ∧ x ≠ 'e' := by
  have hx' : x.isDigit = true ∨ x = '.' := by
    rcases List.mem_append.mp hx with hx | hx
    · exact c.mem_oid hx
    · exact Or.inl (isDigit_of_mem_decimal hx)
  refine ⟨?_, ?_, ?_, ?_⟩ <;> rintro rfl <;> revert hx' <;> decide

section Linha

variable {c : Coluna} {idx : Nat} {tipo valor : Str}

/-- A row as the blocks see it first. -/
theorem limpa_linha (c : Coluna) (idx : Nat) (tipo valor : Str) :
    limpa ((Item.linha c idx tipo valor).texto ++ ['\n'])
      = snmpv2 ++ (enterprises ++ (c.oid ++ (decimal idx ++
          (igual ++ (limpa tipo ++ ':' :: ' ' :: limpa valor))))) := by
  have hoid : limpa (c.oid ++ decimal idx) = c.oid ++ decimal idx :=
    limpa_eq_self fun x hx => ⟨(mem_oid_idx hx).1, (mem_oid_idx hx).2.1, (mem_oid_idx hx).2.2.1⟩
  rw [Item.texto, limpa_linhaSnmp hoid]
  simp only [List.append_assoc]

theorem padrao_infix_linha (ht : TipoValido tipo) (hv : ValorValido valor) (x : Str) :
    enterprises ++ x <:+: limpa ((Item.linha c idx tipo valor).texto ++ ['\n']) ↔
      x <+: c.oid ++ (decimal idx ++ (igual ++ (limpa tipo ++ ':' :: ' ' :: limpa valor))) := by
  have hrest : ¬ enterprises <:+:
      (c.oid ++ decimal idx) ++ (igual ++ (limpa tipo ++ ':' :: ' ' :: limpa valor)) :=
    not_enterprises_resto (fun h => (mem_oid_idx h).2.2.2 rfl) ht.oid hv.oid
  rw [List.append_assoc] at hrest
  rw [limpa_linha, padrao_infix hrest]

/-- After the replacements of its own block a row holds no OID any more. -/
theorem not_enterprises_trocada (ht : TipoValido tipo) (hv : ValorValido valor) :
    ¬ enterprises <:+: delimited ':' ["SNMPv2-SMI".toList, [], [], decimal idx, limpa tipo]
        ++ replaceAll igual [':'] (' ' :: limpa valor) := by
  have hcolon : ':' ∉ enterprises := by unfold enterprises; simp
  have hblank : ' ' ∉ enterprises := by unfold enterprises; simp
  have hnil : ¬ enterprises <:+: [] := not_enterprises_of_not_mem (by simp)
  rw [infix_delimited hcolon]
  rintro (⟨f, hf, h⟩ | h)
  · simp only [List.mem_cons, List.not_mem_nil, or_false] at hf
    rcases hf with rfl | rfl | rfl | rfl | rfl
    · exact not_enterprises_of_not_mem (by simp) h
    · exact hnil h
    · exact hnil h
    · exact not_enterprises_of_not_mem (not_mem_decimal (by decide) idx) h
    · exact ht.oid h
  · rcases (infix_append_cons hblank [] _).mp (infix_of_infix_replaceAll hcolon h) with h | h
    · exact hnil h
    · exact hv.oid h

/-- The index and the value between the `:`. -/
theorem campos_trocada (ht : TipoValido tipo) (R : Str) :
    field (split ':' (delimited ':' ["SNMPv2-SMI".toList, [], [], decimal idx, limpa tipo] ++ R)) 3
      = decimal idx ∧
    field (split ':' (delimited ':' ["SNMPv2-SMI".toList, [], [], decimal idx, limpa tipo] ++ R)) 5
      = field (split ':' R) 0 := by
  have hfs : ∀ f ∈ ["SNMPv2-SMI".toList, [], [], decimal idx, limpa tipo], ':' ∉ f := by
    intro f hf
    simp only [List.mem_cons, List.not_mem_nil, or_false] at hf
    rcases hf with rfl | rfl | rfl | rfl | rfl
    · simp
    · simp
    · simp
    · exact fun h => absurd (isDigit_of_mem_decimal h) (by decide)
    · exact ht.colon
  refine ⟨field_split_delimited hfs _ (by simp), ?_⟩
  rw [field_split, field_split, splitOn_delimited_append hfs]
  exact field_append_length _ _ 0

/-- **A row of a column**: its block stores the value, and no other block fires. -/
theorem lerLinha_linha (host : Str) (tb : Tabelas) (ht : TipoValido tipo) (hv : ValorValido valor) :
    lerLinha host tb ((Item.linha c idx tipo valor).texto ++ ['\n'])
      = tb.grava c (host ++ '_' :: decimal idx) (lido valor) := by
  have hrest : ¬ enterprises <:+:
      decimal idx ++ (igual ++ (limpa tipo ++ ':' :: ' ' :: limpa valor)) :=
    not_enterprises_resto (not_mem_decimal (by decide) idx) ht.oid hv.oid
  have hcpu : blocoCpu host (limpa ((Item.linha c idx tipo valor).texto ++ ['\n'])) tb = tb := by
    rw [blocoCpu, if_neg]
    rw [contem_iff, padrao_infix_linha ht hv]
    exact oidCpu_not_prefix c _
  have hfire : contem c.padrao (limpa ((Item.linha c idx tipo valor).texto ++ ['\n'])) = true := by
    rw [contem_iff, Coluna.padrao, padrao_infix_linha ht hv]
    exact List.prefix_append _ _
  obtain ⟨pre, post, hsplit⟩ := List.append_of_mem c.mem_todas
  have hnodup : (pre ++ c :: post).Nodup := hsplit ▸ (by decide : Coluna.todas.Nodup)
  -- the blocks before the one of the column see no OID of theirs, those after it none at all
  have hpre : ∀ c' ∈ pre,
      ¬ c'.padrao <:+: limpa ((Item.linha c idx tipo valor).texto ++ ['\n']) := by
    intro c' hc' hin
    rw [Coluna.padrao, padrao_infix_linha ht hv, Coluna.oid_prefix] at hin
    subst hin
    exact (List.nodup_append.mp hnodup).2.2 c' hc' c' (by simp) rfl
  have hpost : ∀ c' ∈ post, ¬ c'.padrao <:+:
      delimited ':' ["SNMPv2-SMI".toList, [], [], decimal idx, limpa tipo]
        ++ replaceAll igual [':'] (' ' :: limpa valor) :=
    fun c' _ hin => not_enterprises_trocada ht hv ((List.prefix_append _ _).isInfix.trans hin)
  rw [lerLinha, hcpu, hsplit, List.foldl_append, List.foldl_cons,
    foldl_bloco_inativo host pre hpre, bloco, if_pos hfire, limpa_linha,
    replaceAll_linha ht.igual hrest, foldl_bloco_inativo host post hpost]
  simp only [(campos_trocada ht _).1, (campos_trocada ht _).2, lido]

end Linha

/-- The row of the cpu. -/
theorem lerLinha_cpu (host : Str) (tb : Tabelas) {tipo valor : Str} (ht : TipoValido tipo)
    (hv : ValorValido valor) :
    lerLinha host tb ((Item.cpu tipo valor).texto ++ ['\n'])
      = { tb with cpuavg5 := tb.cpuavg5.insert host (lidoCpu valor) } := by
  have hdig : ∀ x ∈ oidCpu, x ≠ '\n' ∧ x ≠ '\r' ∧ x ≠ '"' ∧ x ≠ 'e' ∧ x ≠ ':' := by
    unfold oidCpu
    simp
  have hrest : ¬ enterprises <:+:
      oidCpu ++ (igual ++ (limpa tipo ++ ':' :: ' ' :: limpa valor)) :=
    not_enterprises_resto (fun h => (hdig _ h).2.2.2.1 rfl) ht.oid hv.oid
  have hlimpa : limpa ((Item.cpu tipo valor).texto ++ ['\n'])
      = snmpv2 ++ (enterprises ++ (oidCpu ++ (igual ++ (limpa tipo ++ ':' :: ' ' :: limpa valor)))) :=
    limpa_linhaSnmp (limpa_eq_self fun x hx =>
      ⟨(hdig x hx).1, (hdig x hx).2.1, (hdig x hx).2.2.1⟩) tipo valor
  rw [lerLinha, foldl_bloco_inativo]
  swap
  · intro c _ hin
    rw [hlimpa, Coluna.padrao, padrao_infix hrest] at hin
    exact oid_not_prefix_cpu c _ hin
  have hfire : contem (enterprises ++ oidCpu) (limpa ((Item.cpu tipo valor).texto ++ ['\n']))
      = true := by
    rw [contem_iff, hlimpa, padrao_infix hrest]
    exact List.prefix_append _ _
  rw [blocoCpu, if_pos hfire, hlimpa,
    field_linhaSnmp (fun h => (hdig _ h).2.2.2.2 rfl) ht.colon]
  rfl

theorem lerLinha_comentario (host : Str) (tb : Tabelas) {s : Str}
    (h : (Item.comentario s).Comum) : lerLinha host tb (s ++ ['\n']) = tb := by
  rw [lerLinha, limpa_nl, foldl_bloco_inativo]
  · rw [blocoCpu, if_neg]
    rw [contem_iff]
    exact h.1
  · exact fun c _ => h.2.1 c

/-! ## A whole log -/

/-- The text of a log. -/
def textoLog (log : List Item) : Str := delimited '\n' (log.map Item.texto)

/-- The rows of a column: index and value. -/
def linhasDe (c : Coluna) (log : List Item) : List (Nat × Str) :=
  log.filterMap fun
    | .linha c' idx _ valor => if c' = c then some (idx, valor) else none
    | _ => none

/-- The values of the rows of the cpu. -/
def cpus (log : List Item) : List Str :=
  log.filterMap fun
    | .cpu _ valor => some valor
    | _ => none

theorem not_nl_texto {i : Item} (h : i.Comum) : '\n' ∉ i.texto := by
  have hsnmp : ∀ {oid tipo valor : Str}, '\n' ∉ oid → '\n' ∉ tipo → '\n' ∉ valor →
      '\n' ∉ linhaSnmp oid tipo valor := by
    intro oid tipo valor h1 h2 h3
    have h4 : '\n' ∉ snmpv2 := by unfold snmpv2; simp
    have h5 : '\n' ∉ enterprises := by unfold enterprises; simp
    have h6 : '\n' ∉ igual := by unfold igual; simp
    simp [linhaSnmp, h1, h2, h3, h4, h5, h6]
  cases i with
  | comentario s => exact h.2.2
  | cpu tipo valor =>
      have hoid : '\n' ∉ oidCpu := by unfold oidCpu; simp
      exact hsnmp hoid h.1.nl h.2.nl
  | linha c idx tipo valor => exact hsnmp (fun hx => (mem_oid_idx hx).1 rfl) h.1.nl h.2.nl

theorem lines_textoLog {log : List Item} (h : ∀ i ∈ log, i.Comum) :
    lines '\n' (textoLog log) = log.map (fun i => i.texto ++ ['\n']) := by
  rw [textoLog, lines_delimited, List.map_map]
  · rfl
  · intro l hl
    obtain ⟨i, hi, rfl⟩ := List.mem_map.mp hl
    exact not_nl_texto (h i hi)

/-- The key of a row. -/
def ref (host : Str) (idx : Nat) : Str := host ++ '_' :: decimal idx

theorem lerLog_coluna (host : Str) {log : List Item} (h : ∀ i ∈ log, i.Comum) (c : Coluna) :
    (lerLog host (lines '\n' (textoLog log))).coluna c
      = load (fun r => ref host r.1) (fun r => lido r.2) ∅ (linhasDe c log) := by
  rw [lines_textoLog h, lerLog, List.foldl_map, linhasDe]
  refine foldl_eq_load (Tabelas.coluna · c) (fun i hi tb => ?_) .vazias
  have hcomum := h i hi
  cases i with
  | comentario s => rw [Item.texto, lerLinha_comentario _ _ hcomum]; rfl
  | cpu tipo valor => rw [lerLinha_cpu _ _ hcomum.1 hcomum.2]; rfl
  | linha c' idx tipo valor =>
      rw [lerLinha_linha _ _ hcomum.1 hcomum.2, Tabelas.grava]
      by_cases hc : c' = c
      · subst hc
        simp [load, ref]
      · simp [load, Function.update_of_ne (Ne.symm hc), hc]

theorem lerLog_cpu (host : Str) {log : List Item} (h : ∀ i ∈ log, i.Comum) :
    (lerLog host (lines '\n' (textoLog log))).cpuavg5
      = load (fun _ => host) lidoCpu ∅ (cpus log) := by
  rw [lines_textoLog h, lerLog, List.foldl_map, cpus]
  refine foldl_eq_load Tabelas.cpuavg5 (fun i hi tb => ?_) .vazias
  have hcomum := h i hi
  cases i with
  | comentario s => rw [Item.texto, lerLinha_comentario _ _ hcomum]; rfl
  | cpu tipo valor => rw [lerLinha_cpu _ _ hcomum.1 hcomum.2]; rfl
  | linha c idx tipo valor => rw [lerLinha_linha _ _ hcomum.1 hcomum.2]; rfl

/-! ### The rows of the cpu in any text -/

/-- The lines in which the reader finds the cpu. -/
def linhasCpu (rtt : List Str) : List Str :=
  rtt.filter fun linha => contem (enterprises ++ oidCpu) (limpa linha)

/-- The value that the reader takes from such a line. -/
def valorCpu (linha : Str) : Str := semBrancos (field (split ':' (limpa linha)) 3)

theorem cpuavg5_foldl_bloco (host : Str) (cs : List Coluna) (s : Str × Tabelas) :
    (cs.foldl (bloco host) s).2.cpuavg5 = s.2.cpuavg5 := by
  induction cs generalizing s with
  | nil => rfl
  | cons c cs ih =>
      rw [List.foldl_cons, ih, bloco]
      split <;> rfl

/-- The last of these lines gives the cpu, whatever else is in the log. -/
theorem cpuavg5_lerLog (host : Str) (rtt : List Str) :
    (lerLog host rtt).cpuavg5 = load (fun _ => host) valorCpu ∅ (linhasCpu rtt) := by
  rw [lerLog, linhasCpu, load, List.foldl_filter]
  refine (List.foldl_hom Tabelas.cpuavg5 fun tb linha => ?_).symm
  rw [lerLinha, cpuavg5_foldl_bloco]
  dsimp only
  rw [blocoCpu]
  split <;> rfl

theorem keys_cpuavg5 (host : Str) {rtt : List Str} (h : linhasCpu rtt ≠ []) :
    (lerLog host rtt).cpuavg5.keys = [host] := by
  rw [cpuavg5_lerLog, keys_load_const _ _ h]

/-- The keys of the tables are made of the host, a `_` and a text. -/
def Tabelas.ChavesDe (tb : Tabelas) (host : Str) : Prop :=
  ∀ c k, k ∈ tb.coluna c → ∃ id, k = host ++ '_' :: id

theorem chavesDe_bloco {host : Str} {s : Str × Tabelas} (hs : s.2.ChavesDe host) (b : Coluna) :
    (bloco host s b).2.ChavesDe host := by
  intro c k hk
  unfold bloco at hk
  split at hk
  · by_cases hc : c = b
    · subst hc
      simp only [Tabelas.grava, Function.update_self, AList.mem_insert] at hk
      rcases hk with hk | hk
      · exact ⟨_, hk⟩
      · exact hs c k hk
    · simp only [Tabelas.grava, Function.update_of_ne hc] at hk
      exact hs c k hk
  · exact hs c k hk

theorem chavesDe_lerLinha {host : Str} {tb : Tabelas} (hs : tb.ChavesDe host) (linha : Str) :
    (lerLinha host tb linha).ChavesDe host := by
  have hcpu : (blocoCpu host (limpa linha) tb).ChavesDe host := by
    unfold blocoCpu
    split
    · exact hs
    · exact hs
  have hblocos : ∀ (cs : List Coluna) (s : Str × Tabelas), s.2.ChavesDe host →
      (cs.foldl (bloco host) s).2.ChavesDe host := by
    intro cs
    induction cs with
    | nil => exact fun s h => h
    | cons b cs ih => exact fun s h => ih _ (chavesDe_bloco h b)
  exact hblocos _ _ hcpu

theorem chavesDe_lerLog (host : Str) (rtt : List Str) : (lerLog host rtt).ChavesDe host := by
  rw [lerLog]
  induction rtt using List.reverseRecOn with
  | nil => exact fun c k hk => absurd hk (AList.notMem_empty _)
  | append_singleton rtt linha ih =>
      rw [List.foldl_append, List.foldl_cons, List.foldl_nil]
      exact chavesDe_lerLinha ih linha

theorem ref_injective (host : Str) {i j : Nat} (h : ref host i = ref host j) : i = j := by
  have hd : decimal i = decimal j := by simpa [ref] using h
  exact decimal_injective hd

/-- A number is read as it is printed. -/
theorem lido_numero {s : Str} (hs : ∀ c ∈ s, c = '-' ∨ c.isDigit = true) :
    lido s = s ∧ lidoCpu s = s := by
  have hne : ∀ {c x : Char}, c ∈ s → x ≠ '-' → x.isDigit = false → c ≠ x := by
    rintro c x hc hx hd rfl
    rcases hs c hc with h | h
    · exact hx h
    · rw [hd] at h
      cases h
  have hlimpa : limpa s = s := limpa_eq_self fun c hc =>
    ⟨hne hc (by decide) (by decide), hne hc (by decide) (by decide), hne hc (by decide) (by decide)⟩
  have higual : ¬ igual <:+: ' ' :: s := by
    intro h
    have hmem : '=' ∈ ' ' :: s := h.subset (by unfold igual; simp)
    rcases List.mem_cons.mp hmem with h | h
    · cases h
    · exact hne h (by decide) (by decide) rfl
  have hcolon : ':' ∉ ' ' :: s := by
    intro hmem
    rcases List.mem_cons.mp hmem with h | h
    · cases h
    · exact hne h (by decide) (by decide) rfl
  have hblank : semBrancos (' ' :: s) = s := by
    have hself : s.filter (· != ' ') = s := by
      rw [List.filter_eq_self]
      intro c hc
      simpa using hne hc (x := ' ') (by decide) (by decide)
    simpa [semBrancos] using hself
  have hfield : field (split ':' (' ' :: s)) 0 = ' ' :: s := by
    rw [field_split, List.splitOn_eq_singleton hcolon]
    rfl
  refine ⟨?_, ?_⟩
  · rw [lido, hlimpa, replaceAll_of_not_infix higual, hfield, hblank]
  · rw [lidoCpu, hlimpa, hfield, hblank]

theorem lido_decimal (n : Nat) : lido (decimal n) = decimal n ∧ lidoCpu (decimal n) = decimal n :=
  lido_numero fun _ hc => Or.inr (isDigit_of_mem_decimal hc)

theorem valorValido_decimal (n : Nat) : ValorValido (decimal n) := by
  refine ⟨fun h => ?_, not_mem_decimal (by decide) n⟩
  exact not_enterprises_of_not_mem (fun he => not_mem_decimal (by decide) n (mem_limpa he)) h

/-- The types that the rows of the collector have. -/
theorem tipoValido_exemplos : ∀ tipo ∈ ["INTEGER".toList, "STRING".toList, "Gauge32".toList],
    TipoValido tipo := by
  intro tipo h
  simp only [List.mem_cons, List.not_mem_nil, or_false] at h
  rcases h with rfl | rfl | rfl
  · exact ⟨by decide +kernel, by decide +kernel, by decide +kernel, by decide +kernel⟩
  · exact ⟨by decide +kernel, by decide +kernel, by decide +kernel, by decide +kernel⟩
  · exact ⟨by decide +kernel, by decide +kernel, by decide +kernel, by decide +kernel⟩

/-! ### Rows after any text -/

end SnmpCollector.CpuMem
