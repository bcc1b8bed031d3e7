import SnmpCollector.Leitor.CpuMem

set_option autoImplicit false

/-! # What the parser of the log accepts (`leitor/leitor_cpu_mem.pl`, lines 306 to 442)

The blocks of the parser put `:` for the OID and for every ` = ` of a row and then take pieces
by position. For rows whose type and value hold none of the separators the tables are those of
the rows, whatever the order of the lines (`tabelas_certas`). Two kinds of text that look
harmless do not belong to these rows: a value that starts with `= `, since the blank after the
`:` of the row completes the separator, and a comment in which `enterprises.` only appears when
the quotes are taken out (`mal_lidas`).
-/

namespace SnmpCollector.CpuMem

open Perl

/-- `$s=~s/\"//g` -/
def semAspas (s : Str) : Str := s.filter (· != '"')

/-- A type or a value without the separators, once its quotes are removed. -/
structure SemSeparador (s : Str) : Prop where
  colon : ':' ∉ semAspas s
  semIgual : ¬ igual <:+: semAspas s
  cr : '\r' ∉ s
  oid : ¬ enterprises <:+: semAspas s
  nl : '\n' ∉ s

/-- A comment without `enterprises.`, or a row of a column whose texts hold no separator. -/
def Item.SemSeparador : Item → Prop
  | .comentario s => ¬ enterprises <:+: s ∧ '\n' ∉ s
  | .cpu _ _ => False
  | .linha _ _ tipo valor => CpuMem.SemSeparador tipo ∧ CpuMem.SemSeparador valor

/-- The same, with the text of a comment as the parser sees it, and no value that starts
with `= `. Rows of the cpu may stand between them. -/
def Item.Legivel : Item → Prop
  | .comentario s => ¬ enterprises <:+: limpa s ∧ '\n' ∉ s
  | .cpu tipo valor => CpuMem.SemSeparador tipo ∧ CpuMem.SemSeparador valor
  | .linha _ _ tipo valor => CpuMem.SemSeparador tipo ∧ CpuMem.SemSeparador valor ∧
      ¬ ['=', ' '] <+: semAspas valor

/-- Each table holds, under host and index, the value of the last row of its column and index,
and nothing else. -/
structure TabelasCertas (host : Str) (log : List Item) : Prop where
  valor : ∀ (c : Coluna) (idx : Nat), ((tabelas host log).coluna c).lookup (ref host idx)
    = (ultima c log idx).map fun v => semBrancos (semAspas v)
  chave : ∀ (c : Coluna) (k : Str), k ∈ (tabelas host log).coluna c →
    ∃ idx, k = ref host idx ∧ (ultima c log idx).isSome

namespace SemSeparador

variable {s : Str} (h : SemSeparador s)

include h

theorem limpa_eq : limpa s = semAspas s := by
  rw [limpa, chomp_eq_self h.nl h.cr, semAspas]

theorem tipoValido : TipoValido s where
  colon := by rw [h.limpa_eq]; exact h.colon
  igual := by rw [h.limpa_eq]; exact h.semIgual
  oid := by rw [h.limpa_eq]; exact h.oid
  nl := h.nl

theorem valorValido : ValorValido s where
  oid := by rw [h.limpa_eq]; exact h.oid
  nl := h.nl

/-- A value that does not start with `= ` is read whole. -/
theorem lido_eq (hpre : ¬ ['=', ' '] <+: semAspas s) : lido s = semBrancos (semAspas s) := by
  have higual : ¬ igual <:+: ' ' :: semAspas s := by
    intro hin
    rcases List.infix_cons_iff.mp hin with hp | hin
    · exact hpre (List.cons_prefix_cons.mp hp).2
    · exact h.semIgual hin
  have hcolon : ':' ∉ ' ' :: semAspas s := by
    rw [List.mem_cons, not_or]
    exact ⟨by decide, h.colon⟩
  have hfield : field (split ':' (' ' :: semAspas s)) 0 = ' ' :: semAspas s := by
    rw [field_split, List.splitOn_eq_singleton hcolon]
    rfl
  rw [lido, h.limpa_eq, replaceAll_of_not_infix higual, hfield]
  rfl

end SemSeparador

/-- The last value of a column and an index stands in a row. -/
theorem exists_linha_of_ultima {c : Coluna} {log : List Item} {idx : Nat} {v : Str}
    (h : ultima c log idx = some v) : ∃ tipo, Item.linha c idx tipo v ∈ log := by
  obtain ⟨row, hlast, rfl⟩ := Option.map_eq_some_iff.mp h
  obtain ⟨hrow, hidx⟩ := lastSuch_eq_some hlast
  obtain rfl := of_decide_eq_true hidx
  obtain ⟨i, hi, hsome⟩ := List.mem_filterMap.mp hrow
  cases i with
  | comentario s => cases hsome
  | cpu tipo valor => cases hsome
  | linha c' idx' tipo valor =>
      by_cases hc : c' = c
      · subst hc
        obtain rfl := Option.some.inj (by simpa using hsome)
        exact ⟨tipo, hi⟩
      · simp [hc] at hsome

theorem Item.Legivel.comum {i : Item} (h : i.Legivel) : i.Comum := by
  cases i with
  | comentario s => exact Item.Valido.comum (i := .comentario s) h
  | cpu tipo valor => exact ⟨h.1.tipoValido, h.2.valorValido⟩
  | linha c idx tipo valor => exact ⟨h.1.tipoValido, h.2.1.valorValido⟩

/-- **The tables are those of the rows**, for every host and every order of the lines. -/
theorem tabelas_certas (host : Str) {log : List Item} (h : ∀ i ∈ log, i.Legivel) :
    TabelasCertas host log := by
  have hv : ∀ i ∈ log, i.Comum := fun i hi => (h i hi).comum
  constructor
  · intro c idx
    rw [lookup_tabelas host hv]
    cases hu : ultima c log idx with
    | none => rfl
    | some v =>
        obtain ⟨tipo, hmem⟩ := exists_linha_of_ultima hu
        obtain ⟨-, hval, hpre⟩ := h _ hmem
        rw [Option.map_some, Option.map_some, hval.lido_eq hpre]
  · intro c k hk
    obtain ⟨row, hrow, rfl⟩ := (mem_tabelas host hv c k).mp hk
    refine ⟨row.1, rfl, ?_⟩
    rw [ultima, Option.isSome_map]
    obtain ⟨x, hx⟩ := lastSuch_isSome hrow (p := fun r => decide (r.1 = row.1)) (by simp)
    rw [hx]
    rfl

/-- A pool whose counter is walked twice. -/
def logIo : List Item :=
  [.comentario "# mbenc01".toList, .linha .memUtil 2 "Gauge32".toList "30".toList,
    .linha .memNome 2 "STRING".toList "\"I/O\"".toList,
    .linha .memUtil 2 "Gauge32".toList "35".toList]

theorem legivel_logIo : ∀ i ∈ logIo, i.Legivel := by
  have hgauge : SemSeparador "Gauge32".toList :=
    ⟨by decide, by decide +kernel, by decide, by decide +kernel, by decide⟩
  have hstring : SemSeparador "STRING".toList :=
    ⟨by decide, by decide +kernel, by decide, by decide +kernel, by decide⟩
  have hvalor : ∀ v ∈ ["30".toList, "35".toList, "\"I/O\"".toList], SemSeparador v := by
    intro v hv
    simp only [List.mem_cons, List.not_mem_nil, or_false] at hv
    rcases hv with rfl | rfl | rfl
    · exact ⟨by decide, by decide +kernel, by decide, by decide +kernel, by decide⟩
    · exact ⟨by decide, by decide +kernel, by decide, by decide +kernel, by decide⟩
    · exact ⟨by decide, by decide +kernel, by decide, by decide +kernel, by decide⟩
  intro i hi
  simp only [logIo, List.mem_cons, List.not_mem_nil, or_false] at hi
  rcases hi with rfl | rfl | rfl | rfl
  · exact ⟨by decide +kernel, by decide⟩
  · exact ⟨hgauge, hvalor _ (by simp), by decide⟩
  · exact ⟨hstring, hvalor _ (by simp), by decide⟩
  · exact ⟨hgauge, hvalor _ (by simp), by decide⟩

theorem tabelas_logIo : TabelasCertas "mbenc01".toList logIo ∧
    ((tabelas "mbenc01".toList logIo).coluna .memUtil).lookup (ref "mbenc01".toList 2)
      = some "35".toList := by
  have hcertas := tabelas_certas "mbenc01".toList legivel_logIo
  refine ⟨hcertas, ?_⟩
  rw [hcertas.valor]
  decide

/-! ## Texts that are read otherwise -/

/-- A pool with the name `= x`. -/
def poolIgual : Item := .linha .memNome 1 "STRING".toList "\"= x\"".toList

/-- A comment with a quote in the middle of `enterprises.` -/
def comentarioAspas : Str := "SNMPv2-SMI::enter\"prises.9.9.48.1.1.1.2.5 = STRING: x".toList

theorem semSeparador_poolIgual : poolIgual.SemSeparador := by
  refine ⟨⟨by decide, by decide +kernel, by decide, by decide +kernel, by decide⟩,
    ⟨by decide, by decide +kernel, by decide, by decide +kernel, by decide⟩⟩

/-- The name `= x` is read as the empty text, and the comment gives the column of the names an
entry of its own. -/
theorem mal_lidas :
    (¬ ∀ (host : Str) (log : List Item),
      (∀ i ∈ log, i.SemSeparador ∧ ∀ s, i ≠ .comentario s) → TabelasCertas host log) ∧
    ¬ ∀ host s : Str, (Item.comentario s).SemSeparador →
      TabelasCertas host [.comentario s] := by
  constructor
  · intro h
    have hpool : ∀ i ∈ [poolIgual], i.SemSeparador ∧ ∀ s, i ≠ .comentario s := by
      intro i hi
      rw [List.mem_singleton.mp hi]
      exact ⟨semSeparador_poolIgual, fun s hs => nomatch hs⟩
    have hcomum : ∀ i ∈ [poolIgual], i.Comum := by
      intro i hi
      rw [List.mem_singleton.mp hi]
      exact ⟨semSeparador_poolIgual.1.tipoValido, semSeparador_poolIgual.2.valorValido⟩
    have hvalor := (h "mbenc01".toList [poolIgual] hpool).valor .memNome 1
    have hultima : ultima .memNome [poolIgual] 1 = some "\"= x\"".toList := rfl
    have hlido : lido "\"= x\"".toList = [] := by decide +kernel
    rw [lookup_tabelas _ hcomum, hultima, Option.map_some, Option.map_some, hlido] at hvalor
    exact absurd hvalor (by decide)
  · intro h
    have hdoc : (Item.comentario comentarioAspas).SemSeparador := ⟨by decide +kernel, by decide⟩
    have hmem : "mbenc01_5".toList
        ∈ (tabelas "mbenc01".toList [.comentario comentarioAspas]).coluna .memNome := by
      decide +kernel
    obtain ⟨idx, -, hsome⟩ := (h "mbenc01".toList comentarioAspas hdoc).chave _ _ hmem
    cases hsome

end SnmpCollector.CpuMem
