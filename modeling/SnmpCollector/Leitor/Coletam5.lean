import SnmpCollector.Leitor.LogColetam5

set_option autoImplicit false

/-! # The traffic rows (`leitor/rep/leitor_coletam5.pl`)

For each log of a directory the reader prints one row for every index of `%if_in`, with the
columns of the index, and the cpu and the memory of the host.

The memory is meant to be that of the processor, pool 1. But the patterns end with the digit 1
of the index, and so the rows of the pools 10 to 19, 100 to 199 and so on are taken for it as
well: `memoria_iff` says for which logs the right one is printed.
-/

namespace SnmpCollector.Coletam5

open Perl

/-! ## A run -/

/-- A printed row, with the log and the index for which it is printed. -/
structure Linha where
  t : Nat
  dados : Str
  item : Str
  interface : Str
  ifIn : Str
  ifOut : Str
  ifInErrs : Str
  ifOutErrs : Str
  cpu5 : Str
  memUtil : Str
  memFree : Str

namespace Linha

variable (l : Linha)

def ip : Str := field (split '-' l.dados) 0

def host : Str := replaceAll ".txt".toList [] (field (split '-' l.dados) 1)

/-- The row as it is printed. -/
def texto : Str :=
  delimited ';' [decimal l.t, l.host, l.ip, l.interface, l.ifIn, l.ifOut, l.ifInErrs, l.ifOutErrs,
    l.cpu5, l.memUtil, l.memFree] ++ ['\n']

end Linha

/-- The row of the index `item` of the log `dados`. -/
def linhaDe (t : Nat) (dados : Str) (tb : Tabelas) (item : Str) : Linha :=
  ⟨t, dados, item, fetch tb.interface item, fetch tb.ifIn item, fetch tb.ifOut item,
    fetch tb.ifInErrs item, fetch tb.ifOutErrs item, tb.cpu5, tb.memUtil, tb.memFree⟩

/-- The places where an order is not given: the listing of the directory and `%if_in` of each
log. -/
inductive Laco where
  | pegoodir
  | ifIn (dados : Str)

/-- The body of the loop over the directory: the rows printed so far. -/
def lerArquivo (t : Nat) (ordem : KeyOrder Laco Str) (dir : Dir) (saida : List Linha)
    (dados : Str) : List Linha :=
  if dados = ['.'] then saida
  else if dados = ['.', '.'] then saida
  else
    let tb := lerLog (lines '\n' (conteudo dir dados))
    (ordem.keys (.ifIn dados) tb.ifIn.keys).foldl
      (fun saida item => saida ++ [linhaDe t dados tb item]) saida

/-- A run of the reader over the logs in `dir`. -/
def leitorColetam5 (t : Nat) (ordem : KeyOrder Laco Str) (dir : Dir) : List Linha :=
  (ordem.keys .pegoodir dir.keys).foldl (lerArquivo t ordem dir) []

/-- The tables of the log `dados`. -/
def tabelas (dir : Dir) (dados : Str) : Tabelas := lerLog (lines '\n' (conteudo dir dados))

section Run

variable {t : Nat} {ordem : KeyOrder Laco Str} {dir : Dir}

/-- The rows of one log. -/
def linhasDo (t : Nat) (ordem : KeyOrder Laco Str) (dir : Dir) (dados : Str) : List Linha :=
  if dados = ['.'] ∨ dados = ['.', '.'] then []
  else (ordem.keys (.ifIn dados) (tabelas dir dados).ifIn.keys).map
    (linhaDe t dados (tabelas dir dados))

theorem lerArquivo_eq (saida : List Linha) (dados : Str) :
    lerArquivo t ordem dir saida dados = saida ++ linhasDo t ordem dir dados := by
  rw [lerArquivo, linhasDo]
  by_cases h1 : dados = ['.']
  · rw [if_pos h1, if_pos (Or.inl h1), List.append_nil]
  · by_cases h2 : dados = ['.', '.']
    · rw [if_neg h1, if_pos h2, if_pos (Or.inr h2), List.append_nil]
    · rw [if_neg h1, if_neg h2, if_neg (not_or.mpr ⟨h1, h2⟩), List.map_eq_flatMap]
      exact List.foldl_append_eq_append

/-- **A run prints the rows of one log after those of the other.** -/
theorem leitorColetam5_eq : leitorColetam5 t ordem dir
    = (ordem.keys .pegoodir dir.keys).flatMap (linhasDo t ordem dir) := by
  have hstep : lerArquivo t ordem dir = fun saida dados => saida ++ linhasDo t ordem dir dados := by
    funext saida dados
    exact lerArquivo_eq saida dados
  rw [leitorColetam5, hstep, List.foldl_append_eq_append, List.nil_append]
  rfl

/-- The rows that a run prints: one for each log and each index of `%if_in`. -/
theorem mem_leitorColetam5 {l : Linha} : l ∈ leitorColetam5 t ordem dir ↔
    ∃ dados ∈ dir, dados ≠ ['.'] ∧ dados ≠ ['.', '.'] ∧ ∃ item ∈ (tabelas dir dados).ifIn,
      l = linhaDe t dados (tabelas dir dados) item := by
  rw [leitorColetam5_eq, List.mem_flatMap]
  refine exists_congr fun dados => ?_
  rw [ordem.mem_keys, ← AList.mem_keys, linhasDo]
  refine and_congr_right fun _ => ?_
  by_cases hdot : dados = ['.'] ∨ dados = ['.', '.']
  · rw [if_pos hdot]
    rcases hdot with h | h
    · simp [h]
    · simp [h]
  · obtain ⟨h1, h2⟩ := not_or.mp hdot
    rw [if_neg hdot, List.mem_map]
    simp only [h1, h2, ordem.mem_keys, ← AList.mem_keys, ne_eq, not_false_eq_true, true_and,
      eq_comm]

end Run

/-! ## The memory of the processor -/

/-- The rows of a memory column: pool and value. -/
def linhasMem (m : Mem) (log : List Item) : List (Nat × Str) :=
  log.filterMap fun
    | .mem m' pool _ valor => if m' = m then some (pool, valor) else none
    | _ => none

/-- A log with at most one row per pool and column, the rows of pool 1 among them. Lines of
any other kind may stand between them. -/
structure LogMem (log : List Item) (util free : Nat) : Prop where
  nl : ∀ i ∈ log, '\n' ∉ i.texto
  valido : ∀ m pool tipo valor, Item.mem m pool tipo valor ∈ log →
    CpuMem.TipoValido tipo ∧ CpuMem.ValorValido valor
  nodup : ∀ m, ((linhasMem m log).map Prod.fst).Nodup
  util : (1, decimal util) ∈ linhasMem .util log
  free : (1, decimal free) ∈ linhasMem .free log

namespace Item

/-- The line is taken for the row of pool 1: a row of a pool whose index starts with 1, or a
line of another kind in which the pattern occurs. -/
def tomada (m : Mem) : Item → Bool
  | .mem m' pool _ _ => decide (m' = m ∧ ['1'] <+: decimal pool)
  | .linha c ifIndex tipo valor => contem m.padrao (Item.linha c ifIndex tipo valor).visto
  | .outra s => contem m.padrao (limpa s)

/-- The value that is taken from it. -/
def valorLido : Item → Str
  | .mem _ _ _ valor => CpuMem.lidoCpu valor
  | .linha c ifIndex tipo valor => Coletam.sent (Item.linha c ifIndex tipo valor).visto
  | .outra s => Coletam.sent (limpa s)

end Item

/-- After the row of pool 1 comes no line that is taken for it, or the last such line has the
same value. -/
def UltimoDoProcessador (m : Mem) (log : List Item) (v : Nat) : Prop :=
  ∃ pre tipo post, log = pre ++ Item.mem m 1 tipo (decimal v) :: post ∧
    ∀ i, lastSuch (Item.tomada m) post = some i → i.valorLido = decimal v

theorem exists_mem_of_linhasMem {m : Mem} {log : List Item} {row : Nat × Str}
    (h : row ∈ linhasMem m log) : ∃ tipo, Item.mem m row.1 tipo row.2 ∈ log := by
  obtain ⟨i, hi, hsome⟩ := List.mem_filterMap.mp h
  cases i with
  | linha c ifIndex tipo valor => cases hsome
  | outra s => cases hsome
  | mem m' pool tipo valor =>
      by_cases hm : m' = m
      · subst hm
        obtain rfl := Option.some.inj (by simpa using hsome)
        exact ⟨tipo, hi⟩
      · simp [hm] at hsome

namespace LogMem

variable {log : List Item} {util free : Nat} (h : LogMem log util free)

include h

/-- The memory that the log leaves. -/
theorem mem_eq (m : Mem) : (lerLog (lines '\n' (textoLog log))).mem m
    = ((lastSuch (Item.tomada m) log).map Item.valorLido).getD [] := by
  have htomada : ∀ i ∈ log, contem m.padrao i.visto = i.tomada m := by
    intro i hi
    cases i with
    | linha c ifIndex tipo valor => rfl
    | outra s => rfl
    | mem m' pool tipo valor =>
        obtain ⟨ht, hv⟩ := h.valido m' pool tipo valor hi
        exact contem_mem ht hv m
  rw [mem_textoLog h.nl, lastSuch_congr htomada]
  cases hl : lastSuch (Item.tomada m) log with
  | none => rfl
  | some i =>
      rw [Option.map_some, Option.map_some]
      cases i with
      | linha c ifIndex tipo valor => rfl
      | outra s => rfl
      | mem m' pool tipo valor =>
          have ht := (h.valido m' pool tipo valor (lastSuch_eq_some hl).1).1
          exact congrArg (Option.getD · []) (congrArg some (sent_mem ht))

/-- **When the value of pool 1 is left.** -/
theorem mem_eq_iff {m : Mem} {v : Nat} (hrow : (1, decimal v) ∈ linhasMem m log) :
    (lerLog (lines '\n' (textoLog log))).mem m = decimal v ↔ UltimoDoProcessador m log v := by
  have hlido : CpuMem.lidoCpu (decimal v) = decimal v := (CpuMem.lido_decimal v).2
  have hone : ∀ tipo, (Item.mem m 1 tipo (decimal v)).tomada m = true := by
    intro tipo
    exact decide_eq_true ⟨rfl, by decide +kernel⟩
  -- what the lines from the row of pool 1 on leave
  have hsplit : ∀ {pre post : List Item} {tipo : Str},
      log = pre ++ Item.mem m 1 tipo (decimal v) :: post →
      (lastSuch (Item.tomada m) log).map Item.valorLido
        = some (((lastSuch (Item.tomada m) post).map Item.valorLido).getD (decimal v)) := by
    intro pre post tipo heq
    rw [heq, lastSuch_append_cons (hone tipo)]
    cases lastSuch (Item.tomada m) post with
    | none => simpa [Item.valorLido] using hlido
    | some i => rfl
  rw [h.mem_eq m]
  constructor
  · intro hval
    obtain ⟨tipo, hmem⟩ := exists_mem_of_linhasMem hrow
    obtain ⟨pre, post, heq⟩ := List.append_of_mem hmem
    refine ⟨pre, tipo, post, heq, fun i hi => ?_⟩
    rw [hsplit heq, hi] at hval
    exact hval
  · rintro ⟨pre, tipo, post, heq, hlast⟩
    rw [hsplit heq]
    cases hi : lastSuch (Item.tomada m) post with
    | none => rfl
    | some i => exact hlast i hi

end LogMem

/-- A log has rows printed for it when some line of it names `ifInOctets`. -/
theorem exists_ifIn {log : List Item} (h : ∀ i ∈ log, '\n' ∉ i.texto) :
    (∃ item, item ∈ (lerLog (lines '\n' (textoLog log))).ifIn) ↔
      ∃ i ∈ log, contem (Coluna.padrao .ifInOctets) i.visto = true := by
  have hcol := coluna_lerLog (lines '\n' (textoLog log)) .ifInOctets
  rw [Tabelas.coluna, map_limpa_textoLog h] at hcol
  rw [hcol]
  simp only [mem_load, AList.notMem_empty, false_or, List.mem_filter, List.mem_map]
  constructor
  · rintro ⟨-, -, ⟨⟨i, hi, rfl⟩, hc⟩, -⟩
    exact ⟨i, hi, hc⟩
  · rintro ⟨i, hi, hc⟩
    exact ⟨_, i.visto, ⟨⟨i, hi, rfl⟩, hc⟩, rfl⟩

/-- **When the rows of a host carry the memory of the processor.** -/
theorem memoria_iff {t : Nat} {ordem : KeyOrder Laco Str} {dir : Dir} {dados : Str}
    {log : List Item} {util free : Nat} (hd : dados ∈ dir) (h1 : dados ≠ ['.'])
    (h2 : dados ≠ ['.', '.']) (hlog : conteudo dir dados = textoLog log)
    (h : LogMem log util free) :
    (∀ l ∈ leitorColetam5 t ordem dir, l.dados = dados →
        l.memUtil = decimal util ∧ l.memFree = decimal free) ↔
      ((∃ i ∈ log, contem (Coluna.padrao .ifInOctets) i.visto = true) →
        UltimoDoProcessador .util log util ∧ UltimoDoProcessador .free log free) := by
  have htb : tabelas dir dados = lerLog (lines '\n' (textoLog log)) := by rw [tabelas, hlog]
  rw [← exists_ifIn h.nl, ← h.mem_eq_iff h.util, ← h.mem_eq_iff h.free, ← htb]
  constructor
  · rintro hall ⟨item, hi⟩
    exact hall _ (mem_leitorColetam5.mpr ⟨dados, hd, h1, h2, item, hi, rfl⟩) rfl
  · intro hval l hl hdados
    obtain ⟨dados', -, -, -, item, hi, rfl⟩ := mem_leitorColetam5.mp hl
    obtain rfl : dados' = dados := hdados
    exact hval ⟨item, hi⟩

/-! ### A device with the pools 1 and 13 -/

/-- The log of a host with an interface and two pools, whose used memory comes in the rows `a`
and `b`. -/
def logPools (a b : Nat × Nat) : List Item :=
  [.linha .ifInOctets 1 "Counter32".toList "5".toList,
    .mem .util a.1 "Gauge32".toList (decimal a.2), .mem .util b.1 "Gauge32".toList (decimal b.2),
    .mem .free 1 "Gauge32".toList (decimal 70)]

def dirDe (dados : Str) (log : List Item) : Dir := (∅ : Dir).insert dados (textoLog log)

def mbenc01 : Str := "10.98.30.1-mbenc01.txt".toList

theorem mbenc01_arquivo : mbenc01 ≠ ['.'] ∧ mbenc01 ≠ ['.', '.'] := by
  unfold mbenc01
  decide

theorem dirDe_arquivo (dados : Str) (log : List Item) :
    dados ∈ dirDe dados log ∧ conteudo (dirDe dados log) dados = textoLog log :=
  ⟨(AList.mem_insert _).mpr (Or.inl rfl), conteudo_insert_self _ _ _⟩

theorem logMem_logPools {a b : Nat × Nat} {v : Nat} (hne : a.1 ≠ b.1)
    (hone : (1, v) = a ∨ (1, v) = b) : LogMem (logPools a b) v 70 where
  nl := by
    have hrow : ∀ (m : Mem) (pool v : Nat),
        '\n' ∉ (Item.mem m pool "Gauge32".toList (decimal v)).texto := by
      intro m pool v
      exact CpuMem.not_nl_texto (i := .linha m.coluna pool "Gauge32".toList (decimal v))
        ⟨CpuMem.tipoValido_exemplos _ (by simp), CpuMem.valorValido_decimal v⟩
    intro i hi
    simp only [logPools, List.mem_cons, List.not_mem_nil, or_false] at hi
    rcases hi with rfl | rfl | rfl | rfl
    · decide +kernel
    · exact hrow _ _ _
    · exact hrow _ _ _
    · exact hrow _ _ _
  valido := by
    intro m pool tipo valor hi
    have hgauge : tipo = "Gauge32".toList ∧ ∃ v, valor = decimal v := by
      simp only [logPools, List.mem_cons, List.not_mem_nil, or_false, reduceCtorEq, false_or,
        Item.mem.injEq] at hi
      rcases hi with ⟨-, -, rfl, rfl⟩ | ⟨-, -, rfl, rfl⟩ | ⟨-, -, rfl, rfl⟩
      · exact ⟨rfl, _, rfl⟩
      · exact ⟨rfl, _, rfl⟩
      · exact ⟨rfl, _, rfl⟩
    obtain ⟨rfl, v, rfl⟩ := hgauge
    exact ⟨CpuMem.tipoValido_exemplos _ (by simp), CpuMem.valorValido_decimal v⟩
  nodup := by
    intro m
    cases m with
    | util => simpa [logPools, linhasMem] using hne
    | free => simp [logPools, linhasMem]
  util := by
    rcases hone with rfl | rfl
    · simp [logPools, linhasMem]
    · simp [logPools, linhasMem]
  free := by simp [logPools, linhasMem]

/-- A row is printed for the log, with the memory that its lines leave. -/
theorem exists_linha_logPools {a b : Nat × Nat} {v : Nat} (h : LogMem (logPools a b) v 70) :
    ∃ l ∈ leitorColetam5 5 .stored (dirDe mbenc01 (logPools a b)), l.dados = mbenc01 ∧
      l.memUtil = (lerLog (lines '\n' (textoLog (logPools a b)))).mem .util := by
  obtain ⟨hd, hlog⟩ := dirDe_arquivo mbenc01 (logPools a b)
  have htb : tabelas (dirDe mbenc01 (logPools a b)) mbenc01
      = lerLog (lines '\n' (textoLog (logPools a b))) := by rw [tabelas, hlog]
  obtain ⟨item, hitem⟩ := (exists_ifIn h.nl).mpr ⟨_, List.mem_cons_self, by decide +kernel⟩
  rw [← htb] at hitem ⊢
  refine ⟨linhaDe 5 mbenc01 _ item, mem_leitorColetam5.mpr ⟨mbenc01, hd, ?_⟩, rfl, rfl⟩
  exact ⟨mbenc01_arquivo.1, mbenc01_arquivo.2, item, hitem, rfl⟩

/-- With the row of pool 13 first, the memory of pool 1 is printed. -/
theorem memoria_pool13_antes :
    (∃ l ∈ leitorColetam5 5 .stored (dirDe mbenc01 (logPools (13, 99) (1, 30))),
      l.dados = mbenc01) ∧
    ∀ l ∈ leitorColetam5 5 .stored (dirDe mbenc01 (logPools (13, 99) (1, 30))), l.dados = mbenc01 →
      l.memUtil = decimal 30 ∧ l.memFree = decimal 70 := by
  obtain ⟨hd, hlog⟩ := dirDe_arquivo mbenc01 (logPools (13, 99) (1, 30))
  have hmem : LogMem (logPools (13, 99) (1, 30)) 30 70 := logMem_logPools (by decide) (Or.inr rfl)
  obtain ⟨l, hl, hdados, -⟩ := exists_linha_logPools hmem
  refine ⟨⟨l, hl, hdados⟩, (memoria_iff hd mbenc01_arquivo.1 mbenc01_arquivo.2 hlog hmem).mpr ?_⟩
  refine fun _ => ⟨?_, ?_⟩
  · exact ⟨[_, _], _, [_], rfl, by simp [lastSuch, Item.tomada]⟩
  · exact ⟨[_, _, _], _, [], rfl, by simp [lastSuch]⟩

/-- With the row of pool 13 last, its value is printed. -/
theorem memoria_pool13 : ¬ ∀ (t : Nat) (ordem : KeyOrder Laco Str) (dir : Dir) (dados : Str)
    (log : List Item) (util free : Nat), dados ∈ dir → dados ≠ ['.'] → dados ≠ ['.', '.'] →
    conteudo dir dados = textoLog log → LogMem log util free →
    ∀ l ∈ leitorColetam5 t ordem dir, l.dados = dados →
      l.memUtil = decimal util ∧ l.memFree = decimal free := by
  intro h
  obtain ⟨hd, hlog⟩ := dirDe_arquivo mbenc01 (logPools (1, 30) (13, 99))
  have hmem : LogMem (logPools (1, 30) (13, 99)) 30 70 := logMem_logPools (by decide) (Or.inl rfl)
  obtain ⟨l, hl, hdados, hval⟩ := exists_linha_logPools hmem
  have hutil := (h 5 .stored _ mbenc01 _ 30 70 hd mbenc01_arquivo.1 mbenc01_arquivo.2 hlog hmem l hl
    hdados).1
  have hlast : (lerLog (lines '\n' (textoLog (logPools (1, 30) (13, 99))))).mem .util
      = decimal 99 := by
    rw [hmem.mem_eq .util]
    decide +kernel
  have heq : decimal 99 = decimal 30 := calc
    decimal 99 = (lerLog (lines '\n' (textoLog (logPools (1, 30) (13, 99))))).mem .util := hlast.symm
    _ = l.memUtil := hval.symm
    _ = decimal 30 := hutil
  exact absurd (decimal_injective heq) (by decide)

end SnmpCollector.Coletam5
