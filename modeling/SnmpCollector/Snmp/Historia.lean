import SnmpCollector.Snmp.MemTempPwr

set_option autoImplicit false

/-! # Memory histories and partial answers

Names, free and used values come from three requests that fail independently of each other.
This file says which answers let a run of `coleta_mem_temp_pwr.pl` keep what was stored:

* a pool with a name and without counters truncates its file and ends the run, so the file
  must have been empty and no host may be left;
* a file to which several records are written in one run must have room for all but the last
  of them behind its limit of 289 old lines.

`historia_iff` says that these conditions are enough for every clock, and that without line
breaks in the answers they are needed.
-/

namespace SnmpCollector.Snmp

open Perl

/-- The start of a run: no host has been asked yet. -/
def inicio (mem temp fan pwr : Dir) : Estado := ⟨mem, temp, fan, pwr, []⟩

/-- The histories are kept and every selected host has been asked. -/
structure Preserva (rel : Nat → Hora) (visitas : Nat → Visita) (pingT : List Str) (s : Estado) :
    Prop where
  historia : ∀ f ∈ s.mem, f ∈ (fim (coleta rel visitas pingT s)).mem ∧
    ((lines '\n' (conteudo s.mem f)).take 289).Sublist
      (lines '\n' (conteudo (fim (coleta rel visitas pingT s)).mem f))
  todos : ∀ lint ∈ pingT, selecionado lint = true →
    hostname lint ∈ (fim (coleta rel visitas pingT s)).consultados

/-- The number of lines of a record. -/
def Gravacao.linhas (g : Gravacao) : Nat :=
  (g.hostname ++ (g.nome ++ (g.free ++ g.utl))).count '\n' + 1

/-- The conditions on the answers, given the histories `mem`. -/
structure RespostasBoas (visitas : Nat → Visita) (pingT : List Str) (mem : Dir) : Prop where
  hosts : ∀ lint ∈ pingT, selecionado lint = true →
    ∃ l ∈ alcancadas visitas pingT, selecionado l.1 = true ∧ hostname l.1 = hostname lint
  divisao : ∀ g ∈ rodadas visitas pingT, g.morre = true → conteudo mem g.nomeArq = []
  espaco : ∀ f ∈ mem, conteudo mem f = [] ∨
    min (lines '\n' (conteudo mem f)).length 289
      + (((rodadas visitas pingT).filter (fun g => decide (g.nomeArq = f))).dropLast.map
          Gravacao.linhas).sum ≤ 289

/-! ## Lines of a record -/

/-- What the script itself prints into a record holds neither separators nor line breaks. -/
theorem limpo_hora {c : Char} (hc : c = '\n' ∨ c = ';' ∨ c = '\r') (h : Hora) :
    c ∉ decimal h.t ∧ c ∉ h.dataReg := by
  refine ⟨fun hd => ?_, fun hd => ?_⟩
  · have := isDigit_of_mem_decimal hd
    rcases hc with rfl | rfl | rfl <;> exact absurd this (by decide)
  · have := Localtime.mem_dataReg hd
    rcases hc with rfl | rfl | rfl <;> exact absurd this (by decide)

theorem limpo_registro {c : Char} (hc : c = '\n' ∨ c = ';' ∨ c = '\r') (h : Hora) (g : Gravacao) :
    c ∉ decimal h.t ∧ c ∉ h.dataReg ∧ c ∉ fixed2 g.memPct := by
  refine ⟨(limpo_hora hc h).1, (limpo_hora hc h).2, fun hd => ?_⟩
  have := mem_fixed2 hd
  rcases hc with rfl | rfl | rfl <;> exact absurd this (by decide)

theorem length_lines_registro (h : Hora) (g : Gravacao) :
    (lines '\n' (g.registro h)).length = g.linhas := by
  obtain ⟨h1, h2, h3⟩ := limpo_registro (Or.inl rfl) h g
  rw [Gravacao.registro, length_lines_concat, Gravacao.linhas]
  simp [List.count_append, List.count_eq_zero.mpr h1, List.count_eq_zero.mpr h2,
    List.count_eq_zero.mpr h3]

/-- A record without line breaks in its fields is one line. -/
theorem lines_registro {g : Gravacao}
    (hg : '\n' ∉ g.hostname ∧ '\n' ∉ g.nome ∧ '\n' ∉ g.free ∧ '\n' ∉ g.utl)
    (h : Hora) : lines '\n' (g.registro h) = [g.registro h] := by
  obtain ⟨h1, h2, h3⟩ := limpo_registro (Or.inl rfl) h g
  have hnl : '\n' ∉ delimited ';'
      [decimal h.t, h.dataReg, g.hostname, g.nome, g.free, g.utl, fixed2 g.memPct] := by
    simp [h1, h2, h3, hg.1, hg.2.1, hg.2.2.1, hg.2.2.2]
  rw [Gravacao.registro, lines_append_cons hnl, lines_nil]

/-! ## The files after a run -/

section Run

variable (rel : Nat → Hora) (visitas : Nat → Visita) (pingT : List Str)

theorem mem_executa {f : Str} {d : Dir} (hf : f ∈ d) (e : Evento) : f ∈ executa d e := by
  unfold executa gravaMem grava
  split
  · exact AList.mem_insert _ |>.mpr (Or.inr hf)
  · exact AList.mem_insert _ |>.mpr (Or.inr hf)

theorem mem_foldl_executa {f : Str} {d : Dir} (hf : f ∈ d) (es : List Evento) :
    f ∈ es.foldl executa d := by
  induction es generalizing d with
  | nil => exact hf
  | cons e es ih => exact ih (mem_executa hf e)

/-- The rounds of a run for one file. -/
def doArquivo (f : Str) : List Evento :=
  (eventos rel visitas pingT).filter (fun e => decide (e.2.nomeArq = f))

theorem map_snd_doArquivo (f : Str) :
    (doArquivo rel visitas pingT f).map Prod.snd
      = (rodadas visitas pingT).filter (fun g => decide (g.nomeArq = f)) := by
  rw [doArquivo, ← map_snd_eventos rel visitas pingT, List.filter_map]
  rfl

theorem mem_rodadas_of_mem_doArquivo {f : Str} {e : Evento} (he : e ∈ doArquivo rel visitas pingT f) :
    e.2 ∈ rodadas visitas pingT ∧ e.2.nomeArq = f := by
  obtain ⟨hev, hf⟩ := List.mem_filter.mp he
  rw [← map_snd_eventos rel visitas pingT]
  exact ⟨List.mem_map_of_mem hev, by simpa using hf⟩

theorem lines_coleta (s : Estado) (f : Str) :
    lines '\n' (conteudo (fim (coleta rel visitas pingT s)).mem f)
      = (doArquivo rel visitas pingT f).foldl efeito (lines '\n' (conteudo s.mem f)) := by
  rw [mem_coleta, lines_foldl_executa]
  rfl

/-- A file whose rounds all reached the end: the last record, and of what was there before
the first 289 lines. -/
theorem lines_coleta_concat {f : Str} {pre : List Evento} {e : Evento}
    (heq : doArquivo rel visitas pingT f = pre ++ [e])
    (hm : ∀ x ∈ doArquivo rel visitas pingT f, x.2.morre = false) (s : Estado) :
    lines '\n' (conteudo (fim (coleta rel visitas pingT s)).mem f)
      = lines '\n' (e.2.registro e.1)
        ++ ((pre.map fun x => lines '\n' (x.2.registro x.1)).reverse.flatten
            ++ lines '\n' (conteudo s.mem f)).take 289 := by
  rw [lines_coleta, foldl_efeito hm, heq, List.map_append, List.map_singleton, foldl_push_concat]

theorem length_registros (pre : List Evento) :
    (pre.map fun x => lines '\n' (x.2.registro x.1)).reverse.flatten.length
      = ((pre.map Prod.snd).map Gravacao.linhas).sum := by
  rw [List.length_flatten, List.map_reverse, List.sum_reverse, List.map_map, List.map_map]
  congr 1
  refine List.map_congr_left fun x _ => ?_
  exact length_lines_registro x.1 x.2

/-- A host name is one field of a line without its line break. -/
theorem limpo_hostname {c : Char} (hc : c = '\n' ∨ c = ';' ∨ c = '\r') (lint : Str) :
    c ∉ hostname lint := by
  intro h
  obtain ⟨hsep, hsub⟩ := field_split_spec ';' (chomp lint) 0
  obtain ⟨-, hn, hr⟩ := mem_chomp (hsub h)
  rcases hc with rfl | rfl | rfl
  · exact hn rfl
  · exact hsep h
  · exact hr rfl

theorem hostname_of_mem_rodadas {g : Gravacao} (hg : g ∈ rodadas visitas pingT) :
    ∃ lint, g.hostname = hostname lint := by
  obtain ⟨l, -, hg⟩ := List.mem_flatMap.mp hg
  unfold rodadasLinha at hg
  split at hg
  · obtain ⟨it, -, rfl⟩ := List.mem_map.mp (upTo_subset _ _ hg)
    exact ⟨l.1, rfl⟩
  · simp at hg

end Run

/-! ## Which answers keep the histories -/

section Keep

variable {visitas : Nat → Visita} {pingT : List Str} (mem temp fan pwr : Dir)

theorem mem_consultados (hses : ∀ i, (visitas i).sessao = true) (rel : Nat → Hora) (x : Str) :
    x ∈ (fim (coleta rel visitas pingT (inicio mem temp fan pwr))).consultados ↔
      ∃ l ∈ alcancadas visitas pingT, selecionado l.1 = true ∧ hostname l.1 = x := by
  rw [consultados_coleta]
  simp [inicio, consultado, hses, and_assoc]

theorem preserva_of_respostasBoas (hses : ∀ i, (visitas i).sessao = true)
    (h : RespostasBoas visitas pingT mem) (rel : Nat → Hora) :
    Preserva rel visitas pingT (inicio mem temp fan pwr) := by
  refine ⟨fun f hf => ⟨?_, ?_⟩, fun lint hl hsel => ?_⟩
  · rw [mem_coleta]
    exact mem_foldl_executa hf _
  · by_cases hm : ∃ e ∈ doArquivo rel visitas pingT f, e.2.morre = true
    · -- the file was empty before it was truncated
      obtain ⟨e, he, hdie⟩ := hm
      obtain ⟨hrod, hnome⟩ := mem_rodadas_of_mem_doArquivo rel visitas pingT he
      have hempty : conteudo mem f = [] := hnome ▸ h.divisao e.2 hrod hdie
      simp [inicio, hempty]
    · have hm' : ∀ e ∈ doArquivo rel visitas pingT f, e.2.morre = false := by
        simpa using hm
      rcases List.eq_nil_or_concat' (doArquivo rel visitas pingT f) with hnil | ⟨pre, e, heq⟩
      · rw [lines_coleta, hnil]
        exact List.take_sublist _ _
      · rw [lines_coleta_concat rel visitas pingT heq hm']
        refine take_sublist_push ?_ _
        rw [length_registros, lines_eq_nil]
        have hesp := h.espaco f hf
        rw [← map_snd_doArquivo rel visitas pingT f, heq, List.map_append, List.map_singleton,
          List.dropLast_concat] at hesp
        exact hesp
  · exact (mem_consultados mem temp fan pwr hses rel _).mpr (h.hosts lint hl hsel)

/-- A clock whose time is longer than any line of a text of length `n`. -/
def relFuturo (n : Nat) : Nat → Hora := fun _ => ⟨⟨0, 0, 0, 0, 0, 0⟩, 10 ^ n⟩

theorem registro_not_mem_lines {s : Str} {rel : Nat → Hora} (hrel : rel = relFuturo s.length)
    {e : Evento} (he : e ∈ eventos rel visitas pingT) : e.2.registro e.1 ∉ lines '\n' s := by
  intro hmem
  obtain ⟨l, -, he⟩ := List.mem_flatMap.mp he
  obtain ⟨g, -, rfl⟩ := List.mem_map.mp he
  have hle : (g.registro (rel l.2)).length ≤ s.length := by
    have hsub := (List.sublist_flatten_of_mem hmem).length_le
    rwa [flatten_lines] at hsub
  have hlt : s.length < (decimal (rel l.2).t).length := by
    rw [hrel]
    exact lt_length_decimal s.length
  have hpre : (decimal (rel l.2).t).length ≤ (g.registro (rel l.2)).length := by
    simp [Gravacao.registro]
  omega

/-- A round that dies is the last of the run, and leaves its file empty. -/
theorem conteudo_of_morre (h : ∀ rel, Preserva rel visitas pingT (inicio mem temp fan pwr))
    {g : Gravacao} (hg : g ∈ rodadas visitas pingT) (hdie : g.morre = true) :
    conteudo mem g.nomeArq = [] := by
  by_cases hf : g.nomeArq ∈ mem
  · have hrel := (h (relFuturo 0)).historia g.nomeArq hf
    obtain hno | ⟨pre, g', heq, -, hpre⟩ := rodadas_morre visitas pingT
    · rw [hno g hg] at hdie
      cases hdie
    · have hg' : g = g' := by
        rw [heq] at hg
        rcases List.mem_append.mp hg with hg | hg
        · rw [hpre g hg] at hdie
          cases hdie
        · exact List.mem_singleton.mp hg
      subst hg'
      -- it is the last round of its file too, so the run leaves the file without lines
      have hfilter := map_snd_doArquivo (relFuturo 0) visitas pingT g.nomeArq
      rw [heq, List.filter_append] at hfilter
      simp only [List.filter_cons, decide_true, if_true, List.filter_nil] at hfilter
      obtain ⟨es, es', hes, -, hlast⟩ := List.map_eq_append_iff.mp hfilter
      obtain ⟨e, rfl, rfl⟩ := List.map_eq_singleton_iff.mp hlast
      have hlines := lines_coleta (relFuturo 0) visitas pingT (inicio mem temp fan pwr) e.2.nomeArq
      rw [hes, List.foldl_append, List.foldl_cons, List.foldl_nil, efeito, if_pos hdie] at hlines
      have htake := hrel.2
      rw [hlines, List.sublist_nil, List.take_eq_nil_iff] at htake
      exact lines_eq_nil.mp (htake.resolve_left (by omega))
  · have hlook : mem.lookup g.nomeArq = none := AList.lookup_eq_none.mpr hf
    simp [conteudo, fetch, hlook]

/-- When no round of a file dies, its old lines leave room for the records of the run: at a
time that is in none of the old lines, every record is one line and a new one. -/
theorem espaco_of_preserva {f : Str} (hf : f ∈ mem) {rel : Nat → Hora}
    (hrel : rel = relFuturo (conteudo mem f).length)
    (hnl : ∀ g ∈ rodadas visitas pingT, '\n' ∉ g.nome ∧ '\n' ∉ g.free ∧ '\n' ∉ g.utl)
    (h : Preserva rel visitas pingT (inicio mem temp fan pwr))
    (hm : ∀ e ∈ doArquivo rel visitas pingT f, e.2.morre = false) :
    conteudo mem f = [] ∨ min (lines '\n' (conteudo mem f)).length 289
      + (((rodadas visitas pingT).filter (fun g => decide (g.nomeArq = f))).dropLast.map
          Gravacao.linhas).sum ≤ 289 := by
  rw [← map_snd_doArquivo rel visitas pingT f]
  rcases List.eq_nil_or_concat' (doArquivo rel visitas pingT f) with hnil | ⟨pre, e, heq⟩
  · rw [hnil]
    exact Or.inr (by simp)
  · have hone : ∀ x ∈ doArquivo rel visitas pingT f,
        lines '\n' (x.2.registro x.1) = [x.2.registro x.1] := by
      intro x hx
      obtain ⟨hrod, -⟩ := mem_rodadas_of_mem_doArquivo rel visitas pingT hx
      obtain ⟨lint, hhost⟩ := hostname_of_mem_rodadas visitas pingT hrod
      exact lines_registro ⟨hhost ▸ limpo_hostname (Or.inl rfl) lint, hnl x.2 hrod⟩ x.1
    have hnew : ∀ x ∈ doArquivo rel visitas pingT f,
        ∀ a ∈ lines '\n' (x.2.registro x.1), a ∉ lines '\n' (conteudo mem f) := by
      intro x hx a ha
      rw [hone x hx, List.mem_singleton] at ha
      rw [ha]
      exact registro_not_mem_lines hrel (List.mem_of_mem_filter hx)
    have hsub := (h.historia f hf).2
    rw [lines_coleta_concat rel visitas pingT heq hm] at hsub
    have hroom := length_of_take_sublist_push (by omega) (hnew e (by simp [heq])) (fun a ha => ?_) hsub
    · rw [length_registros, lines_eq_nil] at hroom
      rw [heq, List.map_append, List.map_singleton, List.dropLast_concat]
      exact hroom
    · obtain ⟨ls, hls, ha⟩ := List.mem_flatten.mp ha
      obtain ⟨x, hx, rfl⟩ := List.mem_map.mp (List.mem_reverse.mp hls)
      exact hnew x (by simp [heq, hx]) a ha

theorem respostasBoas_of_preserva (hses : ∀ i, (visitas i).sessao = true)
    (hnl : ∀ g ∈ rodadas visitas pingT, '\n' ∉ g.nome ∧ '\n' ∉ g.free ∧ '\n' ∉ g.utl)
    (h : ∀ rel, Preserva rel visitas pingT (inicio mem temp fan pwr)) :
    RespostasBoas visitas pingT mem := by
  refine ⟨fun lint hl hsel => ?_, fun g hg hdie => ?_, fun f hf => ?_⟩
  · exact (mem_consultados mem temp fan pwr hses (relFuturo 0) _).mp
      ((h (relFuturo 0)).todos lint hl hsel)
  · exact conteudo_of_morre mem temp fan pwr h hg hdie
  · by_cases hm : ∀ e ∈ doArquivo (relFuturo (conteudo mem f).length) visitas pingT f,
        e.2.morre = false
    · exact espaco_of_preserva mem temp fan pwr hf rfl hnl (h _) hm
    · push Not at hm
      obtain ⟨e, he, hdie⟩ := hm
      obtain ⟨hrod, hnome⟩ := mem_rodadas_of_mem_doArquivo _ visitas pingT he
      exact Or.inl (hnome ▸ conteudo_of_morre mem temp fan pwr h hrod (by simpa using hdie))

/-- **Which answers keep the histories.** With the conditions a run keeps all histories and
asks all hosts, whatever the clock says. Without line breaks in the answers the conditions
are needed for that. -/
theorem historia_iff (hses : ∀ i, (visitas i).sessao = true) :
    (RespostasBoas visitas pingT mem →
      ∀ rel, Preserva rel visitas pingT (inicio mem temp fan pwr)) ∧
    ((∀ g ∈ rodadas visitas pingT, '\n' ∉ g.nome ∧ '\n' ∉ g.free ∧ '\n' ∉ g.utl) →
      (∀ rel, Preserva rel visitas pingT (inicio mem temp fan pwr)) →
      RespostasBoas visitas pingT mem) :=
  ⟨preserva_of_respostasBoas mem temp fan pwr hses, respostasBoas_of_preserva mem temp fan pwr hses⟩

end Keep

/-- A host that answers the request for the names of its pools, and no other request. -/
def soNomes : Visita where
  sessao := true
  agente := fun oid =>
    if oid = oidMemTipo then (∅ : Hash Str Str).insert (oidMemTipo ++ ".1".toList) "Processor".toList
    else ∅
  ordem := .stored

/-- The same host when all requests for its pools are answered. -/
def completa : Visita where
  sessao := true
  agente := fun oid =>
    if oid = oidMemTipo then (∅ : Hash Str Str).insert (oidMemTipo ++ ".1".toList) "Processor".toList
    else if oid = oidMemFree then (∅ : Hash Str Str).insert (oidMemFree ++ ".1".toList) "63251520".toList
    else if oid = oidMemUtl then (∅ : Hash Str Str).insert (oidMemUtl ++ ".1".toList) "152126516".toList
    else ∅
  ordem := .stored

def mcpae01 : Str := "mcpae01.pae.psys;10.32.66.1;\n".toList

/-- The history of its processor memory. -/
def memAnterior : Dir :=
  (∅ : Dir).insert "mcpae01.pae.psys-Processor".toList
    "1312347222;2011-08-03 01:53:42;mcpae01.pae.psys;Processor;63251520;152126516;70.63;\n".toList

theorem preserva_completa :
    Preserva (relFuturo 9) (fun _ => completa) [mcpae01] (inicio memAnterior ∅ ∅ ∅) := by
  refine (historia_iff memAnterior ∅ ∅ ∅ (fun _ => rfl)).1
    ⟨by decide +kernel, by decide +kernel, ?_⟩ (relFuturo 9)
  intro f hf
  rw [AList.mem_keys] at hf
  revert f
  decide +kernel

/-- A name without counters: the file is truncated, and the run ends in the division. -/
theorem historia_perdida : ¬ ∀ (rel : Nat → Hora) (visitas : Nat → Visita) (pingT : List Str)
    (mem temp fan pwr : Dir), (∀ i, (visitas i).sessao = true) →
      Preserva rel visitas pingT (inicio mem temp fan pwr) := by
  intro h
  have hkeep := (h (fun _ => ⟨⟨0, 0, 0, 0, 0, 0⟩, 0⟩) (fun _ => soNomes) [mcpae01] memAnterior ∅ ∅ ∅
    (fun _ => rfl)).historia "mcpae01.pae.psys-Processor".toList (by decide +kernel)
  revert hkeep
  decide +kernel

end SnmpCollector.Snmp
