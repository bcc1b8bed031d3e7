import SnmpCollector.Leitor.Coletam5

set_option autoImplicit false

/-! # The interface of a traffic row (`leitor/rep/leitor_coletam5.pl`)

A printed row is meant to say which interface it is about, and to carry the counters of that
interface. But what is printed of a description ends at its first `:`, so that the channels
`Serial1/0:0` and `Serial1/0:1` have one name; and a description in which the name of another
column occurs is taken for a row of that column as well.

`atribuiveis_iff` says for which logs the rows stay attributable: no two of the printed
descriptions agree up to their first `:`, and no description hides a counter.
-/

namespace SnmpCollector.Coletam5

open Perl
open Coletam (lido)

/-! ## Logs of interfaces -/

/-- The rows of a column: index and value. -/
def linhasDe (c : Coluna) (log : List Item) : List (Nat × Str) :=
  log.filterMap fun
    | .linha c' ifIndex _ valor => if c' = c then some (ifIndex, valor) else none
    | _ => none

/-- A log with at most one row per column and index, descriptions that are pairwise different
without their blanks, and numbers in the other columns. The lines of any other kind name no
column. -/
structure LogIf (log : List Item) : Prop where
  nl : ∀ i ∈ log, '\n' ∉ i.texto
  tipo : ∀ c k tipo valor, Item.linha c k tipo valor ∈ log →
    ':' ∉ limpa tipo ∧ ∀ c' : Coluna, ¬ c'.padrao <:+: limpa tipo
  numeros : ∀ c k tipo valor, Item.linha c k tipo valor ∈ log → c ≠ .ifDescr →
    ∃ n, valor = decimal n
  outra : ∀ i ∈ log, (∀ c k tipo valor, i ≠ .linha c k tipo valor) →
    ∀ c : Coluna, ¬ c.padrao <:+: i.visto
  nodup : ∀ c, ((linhasDe c log).map Prod.fst).Nodup
  descricao : ∀ r ∈ linhasDe .ifDescr log, ';' ∉ r.2 ∧ '=' ∉ r.2 ∧ '"' ∉ r.2
  distintas : ((linhasDe .ifDescr log).map fun r => semBrancos r.2).Nodup

/-- The value of a column at an index; an index without a row has the empty text. -/
def contador (c : Coluna) (k : Nat) (log : List Item) : Str :=
  ((lastSuch (fun r => decide (r.1 = k)) (linhasDe c log)).map Prod.snd).getD []

/-- What stands in front of the first `:` of a description, without blanks. -/
def antes (descr : Str) : Str := semBrancos ((limpa descr).takeWhile (· ≠ ':'))

/-- The reader takes no more of a value than that. -/
theorem lido_eq (valor : Str) : lido valor = antes valor := by
  rw [lido, field_split_zero, List.takeWhile_cons_of_pos (by decide), antes, semBrancos,
    List.filter_cons_of_neg (by decide), semBrancos]

theorem mem_of_mem_antes {x : Char} {descr : Str} (h : x ∈ antes descr) : x ∈ descr :=
  mem_limpa (List.takeWhile_prefix _ |>.subset (List.mem_filter.mp h).1)

theorem mem_linhasDe {c : Coluna} {log : List Item} {k : Nat} {v : Str} :
    (k, v) ∈ linhasDe c log ↔ ∃ tipo, Item.linha c k tipo v ∈ log := by
  rw [linhasDe, List.mem_filterMap]
  constructor
  · rintro ⟨i, hi, hsome⟩
    cases i with
    | mem m pool tipo valor => cases hsome
    | outra s => cases hsome
    | linha c' ifIndex tipo valor =>
        by_cases hc : c' = c
        · subst hc
          obtain ⟨rfl, rfl⟩ : ifIndex = k ∧ valor = v := by simpa using hsome
          exact ⟨tipo, hi⟩
        · simp [hc] at hsome
  · rintro ⟨tipo, hi⟩
    exact ⟨_, hi, if_pos rfl⟩

theorem linhasDe_append (c : Coluna) (pre post : List Item) :
    linhasDe c (pre ++ post) = linhasDe c pre ++ linhasDe c post := List.filterMap_append

/-! ## What is entered in a column -/

namespace Item

/-- The line is entered in the table of a column under an index: a row of the column, or a
row of another one in whose value the name of the column occurs. -/
def entra (c : Coluna) (k : Nat) : Item → Bool
  | .linha c' k' _ valor => decide (k' = k ∧ (c' = c ∨ c.padrao <:+: limpa valor))
  | _ => false

def valorIf : Item → Str
  | .linha _ _ _ valor => lido valor
  | _ => []

end Item

/-- A description of the index in which the name of a column occurs. -/
def Descrito (c : Coluna) (k : Nat) (log : List Item) : Prop :=
  ∃ d, (k, d) ∈ linhasDe .ifDescr log ∧ c.padrao <:+: limpa d

namespace LogIf

variable {log : List Item} (h : LogIf log)

include h

theorem entra_iff {i : Item} (hi : i ∈ log) {c : Coluna} {k : Nat} : i.entra c k = true ↔
    (∃ tipo valor, i = .linha c k tipo valor) ∨
      ∃ tipo d, i = .linha .ifDescr k tipo d ∧ c.padrao <:+: limpa d := by
  cases i with
  | mem m pool tipo valor => simp [Item.entra]
  | outra s => simp [Item.entra]
  | linha c' k' tipo valor =>
      rw [Item.entra, decide_eq_true_iff]
      constructor
      · rintro ⟨rfl, rfl | hname⟩
        · exact Or.inl ⟨tipo, valor, rfl⟩
        · by_cases hc' : c' = .ifDescr
          · exact Or.inr ⟨tipo, valor, by rw [hc'], hname⟩
          -- a number names no column
          · obtain ⟨n, rfl⟩ := h.numeros c' k' tipo valor hi hc'
            exact absurd (mem_limpa (hname.subset c.padrao_valido.dot_mem))
              (not_mem_decimal (by decide) n)
      · rintro (⟨tipo', valor', heq⟩ | ⟨tipo', d, heq, hname⟩)
        · cases heq
          exact ⟨rfl, Or.inl rfl⟩
        · cases heq
          exact ⟨rfl, Or.inr hname⟩

theorem contem_visto {i : Item} (hi : i ∈ log) (c : Coluna) (s : Str) :
    (contem c.padrao i.visto = true ∧ Coletam.indice i.visto = s) ↔
      ∃ k, i.entra c k = true ∧ s = decimal k := by
  have houtra : (∀ c k tipo valor, i ≠ .linha c k tipo valor) → ¬ contem c.padrao i.visto = true :=
    fun hne => by rw [contem_iff]; exact h.outra i hi hne c
  cases i with
  | mem m pool tipo valor =>
      have hno := houtra fun _ _ _ _ heq => nomatch heq
      simp [hno, Item.entra]
  | outra s' =>
      have hno := houtra fun _ _ _ _ heq => nomatch heq
      simp [hno, Item.entra]
  | linha c' k' tipo valor =>
      rw [contem_linha ((h.tipo c' k' tipo valor hi).2 c), indice_linha, decide_eq_true_iff,
        eq_comm (a := c)]
      simp only [Item.entra, decide_eq_true_iff]
      constructor
      · rintro ⟨hc, rfl⟩
        exact ⟨k', ⟨rfl, hc⟩, rfl⟩
      · rintro ⟨k, ⟨rfl, hc⟩, rfl⟩
        exact ⟨hc, rfl⟩

/-- **A table says of an index what the last line entered under it says.** -/
theorem lookup_coluna (c : Coluna) (k : Nat) :
    ((lerLog (lines '\n' (textoLog log))).coluna c).lookup (decimal k)
      = (lastSuch (Item.entra c k) log).map Item.valorIf := by
  have hentra : ∀ i ∈ log, (contem c.padrao i.visto && decide (Coletam.indice i.visto = decimal k))
      = i.entra c k := by
    intro i hi
    rw [Bool.eq_iff_iff, Bool.and_eq_true, decide_eq_true_iff, h.contem_visto hi]
    constructor
    · rintro ⟨k', hk', heq⟩
      rwa [decimal_injective heq]
    · exact fun hk => ⟨k, hk, rfl⟩
  rw [lookup_textoLog h.nl, lastSuch_congr hentra]
  cases hl : lastSuch (Item.entra c k) log with
  | none => rfl
  | some i =>
      obtain ⟨hi, hk⟩ := lastSuch_eq_some hl
      rw [Option.map_some, Option.map_some]
      cases i with
      | mem m pool tipo valor => cases hk
      | outra s => cases hk
      | linha c' k' tipo valor => rw [sent_linha (h.tipo c' k' tipo valor hi).1, Item.valorIf]

theorem mem_coluna (c : Coluna) (item : Str) :
    item ∈ (lerLog (lines '\n' (textoLog log))).coluna c ↔
    ∃ k, item = decimal k ∧ (k ∈ (linhasDe c log).map Prod.fst ∨ Descrito c k log) := by
  have hex : item ∈ (lerLog (lines '\n' (textoLog log))).coluna c ↔
      ∃ i ∈ log, ∃ k, i.entra c k = true ∧ item = decimal k := by
    rw [coluna_lerLog, map_limpa_textoLog h.nl, mem_load]
    simp only [AList.notMem_empty, false_or, List.mem_filter, List.mem_map]
    constructor
    · rintro ⟨-, ⟨⟨i, hi, rfl⟩, hc⟩, hitem⟩
      exact ⟨i, hi, (h.contem_visto hi c item).mp ⟨hc, hitem⟩⟩
    · rintro ⟨i, hi, hk⟩
      obtain ⟨hc, hitem⟩ := (h.contem_visto hi c item).mpr hk
      exact ⟨i.visto, ⟨⟨i, hi, rfl⟩, hc⟩, hitem⟩
  rw [hex]
  constructor
  · rintro ⟨i, hi, k, hk, rfl⟩
    refine ⟨k, rfl, ?_⟩
    rcases (h.entra_iff hi).mp hk with ⟨tipo, valor, rfl⟩ | ⟨tipo, d, rfl, hname⟩
    · exact Or.inl (List.mem_map.mpr ⟨(k, valor), mem_linhasDe.mpr ⟨tipo, hi⟩, rfl⟩)
    · exact Or.inr ⟨d, mem_linhasDe.mpr ⟨tipo, hi⟩, hname⟩
  · rintro ⟨k, rfl, hk | ⟨d, hd, hname⟩⟩
    · obtain ⟨⟨k, v⟩, hrow, rfl⟩ := List.mem_map.mp hk
      obtain ⟨tipo, hi⟩ := mem_linhasDe.mp hrow
      exact ⟨_, hi, k, (h.entra_iff hi).mpr (Or.inl ⟨tipo, v, rfl⟩), rfl⟩
    · obtain ⟨tipo, hi⟩ := mem_linhasDe.mp hd
      exact ⟨_, hi, k, (h.entra_iff hi).mpr (Or.inr ⟨tipo, d, rfl, hname⟩), rfl⟩

/-! ## The columns of an index -/

theorem ocorre_uma_vez {c : Coluna} {k : Nat} {d d' : Str} (hd : (k, d) ∈ linhasDe c log)
    (hd' : (k, d') ∈ linhasDe c log) : d' = d :=
  congrArg Prod.snd (List.inj_on_of_nodup_map (h.nodup c) hd' hd rfl)

theorem contador_of_mem {c : Coluna} {k : Nat} {v : Str} (hv : (k, v) ∈ linhasDe c log) :
    contador c k log = v := by
  have hlast : lastSuch (fun r => decide (r.1 = k)) (linhasDe c log) = some (k, v) := by
    refine lastSuch_eq_of_unique hv (by simp) fun row hrow hk => ?_
    exact List.inj_on_of_nodup_map (h.nodup c) hrow hv (of_decide_eq_true hk)
  rw [contador, hlast]
  rfl

omit h in
theorem contador_of_not_mem {c : Coluna} {k : Nat} (hk : k ∉ (linhasDe c log).map Prod.fst) :
    contador c k log = [] := by
  have hlast : lastSuch (fun r => decide (r.1 = k)) (linhasDe c log) = none := by
    refine lastSuch_eq_none.mpr fun row hrow hdec => hk ?_
    exact List.mem_map.mpr ⟨row, hrow, of_decide_eq_true hdec⟩
  rw [contador, hlast]
  rfl

/-- The name of an index is its description up to the first `:`. -/
theorem fetch_interface {k : Nat} {d : Str} (hd : (k, d) ∈ linhasDe .ifDescr log) :
    fetch (lerLog (lines '\n' (textoLog log))).interface (decimal k) = lido d := by
  have hlook := h.lookup_coluna .ifDescr k
  rw [Tabelas.coluna] at hlook
  obtain ⟨tipo, hi⟩ := mem_linhasDe.mp hd
  obtain ⟨i, hl⟩ := lastSuch_isSome hi ((h.entra_iff hi).mpr (Or.inl ⟨tipo, d, rfl⟩))
  obtain ⟨hmem, hk⟩ := lastSuch_eq_some hl
  have hrow : ∃ tipo' d', i = .linha .ifDescr k tipo' d' := by
    rcases (h.entra_iff hmem).mp hk with ⟨tipo', d', rfl⟩ | ⟨tipo', d', rfl, -⟩
    · exact ⟨tipo', d', rfl⟩
    · exact ⟨tipo', d', rfl⟩
  obtain ⟨tipo', d', rfl⟩ := hrow
  obtain rfl := h.ocorre_uma_vez hd (mem_linhasDe.mpr ⟨tipo', hmem⟩)
  rw [fetch, hlook, hl]
  rfl

/-- The value of a row of a counter is its number. -/
theorem lido_contador {c : Coluna} (hc : c ≠ .ifDescr) {k : Nat} {tipo valor : Str}
    (hi : Item.linha c k tipo valor ∈ log) : lido valor = contador c k log := by
  obtain ⟨n, rfl⟩ := h.numeros c k tipo valor hi hc
  rw [h.contador_of_mem (mem_linhasDe.mpr ⟨tipo, hi⟩)]
  exact (CpuMem.lido_decimal n).2

/-- No column of an index holds a separator. -/
theorem not_sep_fetch (c : Coluna) (k : Nat) :
    ';' ∉ fetch ((lerLog (lines '\n' (textoLog log))).coluna c) (decimal k) := by
  rw [fetch, h.lookup_coluna]
  cases hl : lastSuch (Item.entra c k) log with
  | none => simp
  | some i =>
      obtain ⟨hi, hk⟩ := lastSuch_eq_some hl
      have hdescr : ∀ {tipo d}, Item.linha .ifDescr k tipo d ∈ log → ';' ∉ lido d := by
        intro tipo d hi hc
        rw [lido_eq] at hc
        exact (h.descricao (k, d) (mem_linhasDe.mpr ⟨tipo, hi⟩)).1 (mem_of_mem_antes hc)
      rcases (h.entra_iff hi).mp hk with ⟨tipo, valor, rfl⟩ | ⟨tipo, d, rfl, -⟩
      · by_cases hcol : c = .ifDescr
        · subst hcol
          exact hdescr hi
        · obtain ⟨n, rfl⟩ := h.numeros c k tipo valor hi hcol
          intro hc
          rw [Option.map_some, Option.getD_some, Item.valorIf, lido_eq] at hc
          exact not_mem_decimal (by decide) n (mem_of_mem_antes hc)
      · exact hdescr hi

/-- Without a description that names the column, the counter of the index is printed. -/
theorem fetch_of_not_descrito {c : Coluna} (hc : c ≠ .ifDescr) {k : Nat} (hd : ¬ Descrito c k log) :
    fetch ((lerLog (lines '\n' (textoLog log))).coluna c) (decimal k) = contador c k log := by
  rw [fetch, h.lookup_coluna]
  cases hl : lastSuch (Item.entra c k) log with
  | some i =>
      obtain ⟨hi, hk⟩ := lastSuch_eq_some hl
      rcases (h.entra_iff hi).mp hk with ⟨tipo, valor, rfl⟩ | ⟨tipo, d, rfl, hname⟩
      · exact h.lido_contador hc hi
      · exact absurd ⟨d, mem_linhasDe.mpr ⟨tipo, hi⟩, hname⟩ hd
  | none =>
      refine (contador_of_not_mem fun hk => ?_).symm
      obtain ⟨⟨k, v⟩, hrow, rfl⟩ := List.mem_map.mp hk
      obtain ⟨tipo, hi⟩ := mem_linhasDe.mp hrow
      exact lastSuch_eq_none.mp hl _ hi ((h.entra_iff hi).mpr (Or.inl ⟨tipo, v, rfl⟩))

/-- With one, the row of the counter has to come after it. -/
theorem fetch_iff_of_descrito {c : Coluna} (hc : c ≠ .ifDescr) {k : Nat} {pre post : List Item}
    {tipo d : Str} (hlog : log = pre ++ Item.linha .ifDescr k tipo d :: post)
    (hname : c.padrao <:+: limpa d) :
    fetch ((lerLog (lines '\n' (textoLog log))).coluna c) (decimal k) = contador c k log ↔
      k ∈ (linhasDe c post).map Prod.fst ∨ lido d = contador c k log := by
  have hpost : ∀ i ∈ post, i ∈ log := fun i hi => by simp [hlog, hi]
  have hdescr : Item.entra c k (.linha .ifDescr k tipo d) = true :=
    decide_eq_true ⟨rfl, Or.inr hname⟩
  -- no other description of the index follows
  have hunico : ∀ tipo' d', Item.linha .ifDescr k tipo' d' ∉ post := by
    intro tipo' d' hi
    have hnd := h.nodup .ifDescr
    rw [hlog, linhasDe_append, List.map_append] at hnd
    have hcons : linhasDe .ifDescr (Item.linha .ifDescr k tipo d :: post)
        = (k, d) :: linhasDe .ifDescr post := rfl
    rw [hcons, List.map_cons] at hnd
    refine (List.nodup_cons.mp hnd.of_append_right).1 ?_
    exact List.mem_map.mpr ⟨(k, d'), mem_linhasDe.mpr ⟨tipo', hi⟩, rfl⟩
  have hlast : lastSuch (Item.entra c k) log
      = (lastSuch (Item.entra c k) post).or (some (.linha .ifDescr k tipo d)) := by
    rw [hlog, lastSuch_append_cons hdescr]
  rw [fetch, h.lookup_coluna, hlast]
  cases hl : lastSuch (Item.entra c k) post with
  | some i =>
      obtain ⟨hi, hk⟩ := lastSuch_eq_some hl
      rcases (h.entra_iff (hpost i hi)).mp hk with ⟨tipo', valor, rfl⟩ | ⟨tipo', d', rfl, -⟩
      · refine iff_of_true (h.lido_contador hc (hpost _ hi)) (Or.inl ?_)
        exact List.mem_map.mpr ⟨(k, valor), mem_linhasDe.mpr ⟨tipo', hi⟩, rfl⟩
      · exact absurd hi (hunico tipo' d')
  | none =>
      have hno : k ∉ (linhasDe c post).map Prod.fst := by
        intro hk
        obtain ⟨⟨k, v⟩, hrow, rfl⟩ := List.mem_map.mp hk
        obtain ⟨tipo', hi⟩ := mem_linhasDe.mp hrow
        refine lastSuch_eq_none.mp hl _ hi ((h.entra_iff (hpost _ hi)).mpr (Or.inl ?_))
        exact ⟨tipo', v, rfl⟩
      exact (or_iff_right hno).symm

end LogIf

/-! ## The printed rows -/

def Linha.coluna (l : Linha) : Coluna → Str
  | .ifDescr => l.interface
  | .ifInOctets => l.ifIn
  | .ifOutOctets => l.ifOut
  | .ifInErrors => l.ifInErrs
  | .ifOutErrors => l.ifOutErrs

theorem coluna_linhaDe (t : Nat) (dados : Str) (tb : Tabelas) (item : Str) (c : Coluna) :
    (linhaDe t dados tb item).coluna c = fetch (tb.coluna c) item := by
  cases c <;> rfl

/-- The rows of a log are told apart by their interfaces, and each one carries the counters of
its own index. -/
structure Atribuiveis (saida : List Linha) (dados : Str) (log : List Item) : Prop where
  interface : ∀ l ∈ saida, ∀ l' ∈ saida, l.dados = dados → l'.dados = dados →
    ∀ k k', k ≠ k' → l.item = decimal k → l'.item = decimal k' →
      k ∈ (linhasDe .ifDescr log).map Prod.fst → k' ∈ (linhasDe .ifDescr log).map Prod.fst →
      l.interface ≠ l'.interface
  contadores : ∀ l ∈ saida, l.dados = dados →
    ∃ k, l.item = decimal k ∧ ∀ c, c ≠ .ifDescr → l.coluna c = contador c k log

/-- A row is printed for the index. -/
def Impresso (k : Nat) (log : List Item) : Prop :=
  k ∈ (linhasDe .ifInOctets log).map Prod.fst ∨ Descrito .ifInOctets k log

/-- The descriptions of two printed indexes differ already in front of their first `:`. -/
def NomesDistintos (log : List Item) : Prop :=
  ∀ k d k' d', (k, d) ∈ linhasDe .ifDescr log → (k', d') ∈ linhasDe .ifDescr log → k ≠ k' →
    Impresso k log → Impresso k' log → antes d ≠ antes d'

/-- A description in which the name of a column occurs comes before the row of the column, or
has its value in front of the first `:`. -/
def DescricaoAntes (c : Coluna) (k : Nat) (log : List Item) : Prop :=
  ∀ pre tipo d post, log = pre ++ Item.linha .ifDescr k tipo d :: post → c.padrao <:+: limpa d →
    k ∈ (linhasDe c post).map Prod.fst ∨ antes d = contador c k log

theorem LogIf.fetch_contador_iff {log : List Item} (h : LogIf log) {c : Coluna} (hc : c ≠ .ifDescr)
    (k : Nat) :
    fetch ((lerLog (lines '\n' (textoLog log))).coluna c) (decimal k) = contador c k log ↔
      DescricaoAntes c k log := by
  constructor
  · intro hval pre tipo d post hlog hname
    rw [← lido_eq]
    exact (h.fetch_iff_of_descrito hc hlog hname).mp hval
  · intro hall
    by_cases hd : Descrito c k log
    · obtain ⟨d, hd, hname⟩ := hd
      obtain ⟨tipo, hi⟩ := mem_linhasDe.mp hd
      obtain ⟨pre, post, hlog⟩ := List.append_of_mem hi
      refine (h.fetch_iff_of_descrito hc hlog hname).mpr ?_
      rw [lido_eq]
      exact hall pre tipo d post hlog hname
    · exact h.fetch_of_not_descrito hc hd

section Run

variable {t : Nat} {ordem : KeyOrder Laco Str} {dir : Dir} {dados : Str} {log : List Item}
  (hd : dados ∈ dir) (h1 : dados ≠ ['.']) (h2 : dados ≠ ['.', '.'])
  (hlog : conteudo dir dados = textoLog log) (h : LogIf log)

include hd h1 h2 hlog h

/-- The rows that are printed for a log. -/
theorem mem_linhas_log {l : Linha} : (l ∈ leitorColetam5 t ordem dir ∧ l.dados = dados) ↔
    ∃ k, Impresso k log ∧ l = linhaDe t dados (lerLog (lines '\n' (textoLog log))) (decimal k) := by
  have htb : tabelas dir dados = lerLog (lines '\n' (textoLog log)) := by rw [tabelas, hlog]
  rw [mem_leitorColetam5, ← htb]
  constructor
  · rintro ⟨⟨dados', -, -, -, item, hi, rfl⟩, hdados⟩
    obtain rfl : dados' = dados := hdados
    rw [htb] at hi
    obtain ⟨k, rfl, hk⟩ := (h.mem_coluna .ifInOctets item).mp hi
    exact ⟨k, hk, rfl⟩
  · rintro ⟨k, hk, rfl⟩
    have hi : decimal k ∈ (tabelas dir dados).ifIn := by
      rw [htb]
      exact (h.mem_coluna .ifInOctets (decimal k)).mpr ⟨k, rfl, hk⟩
    exact ⟨⟨dados, hd, h1, h2, decimal k, hi, rfl⟩, rfl⟩

omit hd h1 h2 hlog in
theorem interface_linhaDe {k : Nat} {d : Str} (hk : (k, d) ∈ linhasDe .ifDescr log) :
    (linhaDe t dados (lerLog (lines '\n' (textoLog log))) (decimal k)).interface = antes d := by
  rw [← lido_eq]
  exact h.fetch_interface hk

/-- The printed text gives the columns back, in the fourth field and the ones after it. -/
theorem field_texto (hsep : ';' ∉ dados) {l : Linha} (hl : l ∈ leitorColetam5 t ordem dir)
    (hdados : l.dados = dados) {n : Nat} (hn : n < 5) :
    field (split ';' l.texto) (3 + n) = field (Coluna.todas.map l.coluna) n := by
  obtain ⟨k, -, rfl⟩ := (mem_linhas_log hd h1 h2 hlog h).mp ⟨hl, hdados⟩
  set l := linhaDe t dados (lerLog (lines '\n' (textoLog log))) (decimal k) with hl
  have hcol : ∀ f ∈ Coluna.todas.map l.coluna, ';' ∉ f := by
    intro f hf
    obtain ⟨c, -, rfl⟩ := List.mem_map.mp hf
    rw [hl, coluna_linhaDe]
    exact h.not_sep_fetch c k
  have hhost : ';' ∉ l.host := by
    intro hc
    rcases mem_replaceAll hc with hc | hc
    · cases hc
    · exact hsep ((field_split_spec '-' dados 1).2 hc)
  have hfs : ∀ f ∈ [decimal t, l.host, l.ip] ++ Coluna.todas.map l.coluna, ';' ∉ f := by
    intro f hf
    rcases List.mem_append.mp hf with hf | hf
    · simp only [List.mem_cons, List.not_mem_nil, or_false] at hf
      rcases hf with rfl | rfl | rfl
      · exact not_mem_decimal (by decide) t
      · exact hhost
      · exact fun hc => hsep ((field_split_spec '-' dados 0).2 hc)
    · exact hcol f hf
  have htexto : l.texto = delimited ';' ([decimal t, l.host, l.ip] ++ Coluna.todas.map l.coluna)
      ++ (delimited ';' [l.cpu5, l.memUtil, l.memFree] ++ ['\n']) := by
    rw [Linha.texto, ← List.append_assoc, ← delimited_append]
    rfl
  rw [htexto, field_split_delimited hfs _ (by simp [Coluna.todas]; omega)]
  exact field_append_length [decimal t, l.host, l.ip] _ n

/-- **When the rows of a host stay attributable.** -/
theorem atribuiveis_iff : Atribuiveis (leitorColetam5 t ordem dir) dados log ↔
    NomesDistintos log ∧ ∀ k, Impresso k log → ∀ c, c ≠ .ifDescr → DescricaoAntes c k log := by
  have hlinha : ∀ l, (l ∈ leitorColetam5 t ordem dir ∧ l.dados = dados) ↔
      ∃ k, Impresso k log ∧ l = linhaDe t dados (lerLog (lines '\n' (textoLog log))) (decimal k) :=
    fun l => mem_linhas_log hd h1 h2 hlog h
  constructor
  · intro hat
    constructor
    · intro k d k' d' hd hd' hne hk hk'
      obtain ⟨hl, hdados⟩ := (hlinha _).mpr ⟨k, hk, rfl⟩
      obtain ⟨hl', hdados'⟩ := (hlinha _).mpr ⟨k', hk', rfl⟩
      rw [← interface_linhaDe h hd, ← interface_linhaDe h hd']
      exact hat.interface _ hl _ hl' hdados hdados' k k' hne rfl rfl
        (List.mem_map.mpr ⟨_, hd, rfl⟩) (List.mem_map.mpr ⟨_, hd', rfl⟩)
    · intro k hk c hc
      obtain ⟨hl, hdados⟩ := (hlinha _).mpr ⟨k, hk, rfl⟩
      obtain ⟨k', hitem, hval⟩ := hat.contadores _ hl hdados
      obtain rfl : k = k' := decimal_injective hitem
      rw [← h.fetch_contador_iff hc k, ← hval c hc, coluna_linhaDe]
  · rintro ⟨hnomes, hdepois⟩
    constructor
    · intro l hl l' hl' hdados hdados' k k' hne hitem hitem' hk hk'
      obtain ⟨i, hi, rfl⟩ := (hlinha l).mp ⟨hl, hdados⟩
      obtain ⟨i', hi', rfl⟩ := (hlinha l').mp ⟨hl', hdados'⟩
      obtain rfl : i = k := decimal_injective hitem
      obtain rfl : i' = k' := decimal_injective hitem'
      obtain ⟨⟨_, d⟩, hd, rfl⟩ := List.mem_map.mp hk
      obtain ⟨⟨_, d'⟩, hd', rfl⟩ := List.mem_map.mp hk'
      rw [interface_linhaDe h hd, interface_linhaDe h hd']
      exact hnomes _ d _ d' hd hd' hne hi hi'
    · intro l hl hdados
      obtain ⟨k, hk, rfl⟩ := (hlinha l).mp ⟨hl, hdados⟩
      refine ⟨k, rfl, fun c hc => ?_⟩
      rw [coluna_linhaDe, h.fetch_contador_iff hc k]
      exact hdepois k hk c hc

end Run

/-! ### Two serial interfaces -/

/-- The log of a host with the interfaces 17 and 18, which have the descriptions `a` and `b`. -/
def logSerial (a b : Str) : List Item :=
  [.linha .ifDescr 17 "STRING".toList a, .linha .ifDescr 18 "STRING".toList b,
    .linha .ifInOctets 17 "Counter32".toList (decimal 5),
    .linha .ifInOctets 18 "Counter32".toList (decimal 7)]

def serial100 : Str := "Serial1/0:0".toList
def serial101 : Str := "Serial1/0:1".toList
def serial200 : Str := "Serial2/0:0".toList

theorem descricoes_logSerial (a b : Str) :
    linhasDe .ifDescr (logSerial a b) = [(17, a), (18, b)] := by
  simp [linhasDe, logSerial]

theorem impressos_logSerial (a b : Str) : linhasDe .ifInOctets (logSerial a b)
    = [(17, decimal 5), (18, decimal 7)] := by
  simp [linhasDe, logSerial]

theorem logIf_logSerial {a b : Str} (ha : ∀ x ∈ [';', '=', '"', '\n'], x ∉ a)
    (hb : ∀ x ∈ [';', '=', '"', '\n'], x ∉ b) (hne : semBrancos a ≠ semBrancos b) :
    LogIf (logSerial a b) where
  nl := by
    intro i hi
    simp only [logSerial, List.mem_cons, List.not_mem_nil, or_false] at hi
    rcases hi with rfl | rfl | rfl | rfl
    · exact Coletam.not_nl_linhaIfMib (Coluna.padrao_valido _) 17 _ _ (by decide) (ha _ (by simp))
    · exact Coletam.not_nl_linhaIfMib (Coluna.padrao_valido _) 18 _ _ (by decide) (hb _ (by simp))
    · exact Coletam.not_nl_linhaIfMib (Coluna.padrao_valido _) 17 _ _ (by decide)
        (not_mem_decimal (by decide) 5)
    · exact Coletam.not_nl_linhaIfMib (Coluna.padrao_valido _) 18 _ _ (by decide)
        (not_mem_decimal (by decide) 7)
  tipo := by
    intro c k tipo valor hi
    have htipo : tipo = "STRING".toList ∨ tipo = "Counter32".toList := by
      simp only [logSerial, List.mem_cons, List.not_mem_nil, or_false, Item.linha.injEq] at hi
      rcases hi with ⟨-, -, rfl, -⟩ | ⟨-, -, rfl, -⟩ | ⟨-, -, rfl, -⟩ | ⟨-, -, rfl, -⟩ <;> simp
    rcases htipo with rfl | rfl
    · exact ⟨by decide +kernel, fun c' => by cases c' <;> decide +kernel⟩
    · exact ⟨by decide +kernel, fun c' => by cases c' <;> decide +kernel⟩
  numeros := by
    intro c k tipo valor hi hc
    simp only [logSerial, List.mem_cons, List.not_mem_nil, or_false, Item.linha.injEq] at hi
    rcases hi with ⟨rfl, -⟩ | ⟨rfl, -⟩ | ⟨-, -, -, rfl⟩ | ⟨-, -, -, rfl⟩
    · exact absurd rfl hc
    · exact absurd rfl hc
    · exact ⟨5, rfl⟩
    · exact ⟨7, rfl⟩
  outra := by
    intro i hi hno
    simp only [logSerial, List.mem_cons, List.not_mem_nil, or_false] at hi
    rcases hi with rfl | rfl | rfl | rfl <;> exact absurd rfl (hno _ _ _ _)
  nodup := by
    intro c
    cases c <;> simp [linhasDe, logSerial]
  descricao := by
    rw [descricoes_logSerial]
    intro r hr
    simp only [List.mem_cons, List.not_mem_nil, or_false] at hr
    rcases hr with rfl | rfl
    · exact ⟨ha _ (by simp), ha _ (by simp), ha _ (by simp)⟩
    · exact ⟨hb _ (by simp), hb _ (by simp), hb _ (by simp)⟩
  distintas := by
    rw [descricoes_logSerial]
    simpa using hne

theorem impresso_logSerial (a b : Str) :
    Impresso 17 (logSerial a b) ∧ Impresso 18 (logSerial a b) := by
  rw [Impresso, Impresso, impressos_logSerial]
  exact ⟨Or.inl (by simp), Or.inl (by simp)⟩

theorem descrito_logSerial {a b : Str} {c : Coluna} (ha : ¬ c.padrao <:+: limpa a)
    (hb : ¬ c.padrao <:+: limpa b) (k : Nat) : DescricaoAntes c k (logSerial a b) := by
  intro pre tipo d post hlog hname
  have hd : (k, d) ∈ linhasDe .ifDescr (logSerial a b) := mem_linhasDe.mpr ⟨tipo, by simp [hlog]⟩
  rw [descricoes_logSerial] at hd
  simp only [List.mem_cons, List.not_mem_nil, or_false, Prod.mk.injEq] at hd
  rcases hd with ⟨-, rfl⟩ | ⟨-, rfl⟩
  · exact absurd hname ha
  · exact absurd hname hb

/-- Two interfaces on different slots. -/
theorem atribuiveis_slots :
    Atribuiveis (leitorColetam5 5 .stored (dirDe mbenc01 (logSerial serial100 serial200))) mbenc01
      (logSerial serial100 serial200) := by
  obtain ⟨hd, hlog⟩ := dirDe_arquivo mbenc01 (logSerial serial100 serial200)
  have hif : LogIf (logSerial serial100 serial200) :=
    logIf_logSerial (by unfold serial100; simp) (by unfold serial200; simp) (by decide +kernel)
  refine (atribuiveis_iff hd mbenc01_arquivo.1 mbenc01_arquivo.2 hlog hif).mpr ⟨?_, ?_⟩
  · intro k d k' d' hk hk' hne _ _
    rw [descricoes_logSerial] at hk hk'
    simp only [List.mem_cons, List.not_mem_nil, or_false, Prod.mk.injEq] at hk hk'
    rcases hk with ⟨rfl, rfl⟩ | ⟨rfl, rfl⟩
    · rcases hk' with ⟨rfl, rfl⟩ | ⟨rfl, rfl⟩
      · exact absurd rfl hne
      · decide +kernel
    · rcases hk' with ⟨rfl, rfl⟩ | ⟨rfl, rfl⟩
      · decide +kernel
      · exact absurd rfl hne
  · intro k _ c _
    refine descrito_logSerial ?_ ?_ k
    · cases c <;> decide +kernel
    · cases c <;> decide +kernel

/-- Two channels of one interface are printed under the same name. -/
theorem atribuiveis_canais : ¬ ∀ (t : Nat) (ordem : KeyOrder Laco Str) (dir : Dir) (dados : Str)
    (log : List Item), dados ∈ dir → dados ≠ ['.'] → dados ≠ ['.', '.'] →
    conteudo dir dados = textoLog log → LogIf log →
    Atribuiveis (leitorColetam5 t ordem dir) dados log := by
  intro h
  obtain ⟨hd, hlog⟩ := dirDe_arquivo mbenc01 (logSerial serial100 serial101)
  have hif : LogIf (logSerial serial100 serial101) :=
    logIf_logSerial (by unfold serial100; simp) (by unfold serial101; simp) (by decide +kernel)
  have hlinha : ∀ k, Impresso k (logSerial serial100 serial101) →
      linhaDe 5 mbenc01 (lerLog (lines '\n' (textoLog (logSerial serial100 serial101)))) (decimal k)
        ∈ leitorColetam5 5 .stored (dirDe mbenc01 (logSerial serial100 serial101)) := fun k hk =>
    ((mem_linhas_log hd mbenc01_arquivo.1 mbenc01_arquivo.2 hlog hif).mpr ⟨k, hk, rfl⟩).1
  obtain ⟨h17, h18⟩ := impresso_logSerial serial100 serial101
  have hne := (h 5 .stored _ mbenc01 _ hd mbenc01_arquivo.1 mbenc01_arquivo.2 hlog hif).interface
    _ (hlinha 17 h17) _ (hlinha 18 h18) rfl rfl 17 18 (by decide) rfl rfl
    (by rw [descricoes_logSerial]; simp) (by rw [descricoes_logSerial]; simp)
  refine hne ?_
  rw [interface_linhaDe hif (d := serial100) (by rw [descricoes_logSerial]; simp),
    interface_linhaDe hif (d := serial101) (by rw [descricoes_logSerial]; simp)]
  decide +kernel

end SnmpCollector.Coletam5
