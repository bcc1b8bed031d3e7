import SnmpCollector.Leitor.CpuMem
import SnmpCollector.Snmp.ColetaCpu

set_option autoImplicit false

/-! # The status of the cpu (`snmp/gera_sum/00_sum_cpu.pl`, `snmp/gera_sum/09sum.pl`)

`00_sum_cpu.pl` deletes the cpu histories that were not written for an hour and copies the
first line of the others to `sum_cpu.txt`, and `09sum.pl` gives each of these lines a status.
The reader `leitor/leitor_cpu_mem.pl` has the same chain of tests. The first test of the chain
chooses `nao coletou` for an empty reading, but an empty text is the number zero, and the next
test replaces the choice by `cpuok`.

Polls and summaries are the steps of a run (`Passo`). After any run a history that is there
begins with the record of the newest poll of its host (`ultimo_registro`). `status_iff` says
when every host without a reading is reported as such.
-/

namespace SnmpCollector.Snmp

open Perl

/-! ## The chain of tests -/

/-- The bands of a reading. -/
def faixa (c : ℚ) : Str :=
  if c ≤ 30 then "cpuok".toList
  else if c ≤ 60 then "alarmecpu1".toList
  else if c ≤ 90 then "alarmecpu2".toList
  else if c ≤ 95 then "criticocpu1".toList
  else "criticocpu2".toList

def naoColetou : Str := "nao coletou".toList

/-- The tests after the first one leave nothing of what that one chose. -/
theorem cadeia_eq_faixa (st : Str) (n : ℚ) :
    (let st := if n < 31 then "cpuok".toList else st
     let st := if n > 30 then "alarmecpu1".toList else st
     let st := if n > 60 then "alarmecpu2".toList else st
     let st := if n > 90 then "criticocpu1".toList else st
     let st := if n > 95 then "criticocpu2".toList else st
     st) = faixa n := by
  unfold faixa
  dsimp only
  by_cases h95 : n > 95
  · have : ¬ n ≤ 30 ∧ ¬ n ≤ 60 ∧ ¬ n ≤ 90 ∧ ¬ n ≤ 95 := by refine ⟨?_, ?_, ?_, ?_⟩ <;> linarith
    simp [h95, this]
  by_cases h90 : n > 90
  · have : ¬ n ≤ 30 ∧ ¬ n ≤ 60 ∧ ¬ n ≤ 90 := by refine ⟨?_, ?_, ?_⟩ <;> linarith
    simp [h95, h90, this, not_lt.mp h95]
  by_cases h60 : n > 60
  · have : ¬ n ≤ 30 ∧ ¬ n ≤ 60 := by refine ⟨?_, ?_⟩ <;> linarith
    simp [h95, h90, h60, this, not_lt.mp h90]
  by_cases h30 : n > 30
  · have : ¬ n ≤ 30 := by linarith
    simp [h95, h90, h60, h30, this, not_lt.mp h60]
  · have : n < 31 := by linarith [not_lt.mp h30]
    simp [h95, h90, h60, h30, this, not_lt.mp h30]

theorem stCpu_eq_faixa (cpu5 : Str) : stCpu cpu5 = faixa (numify cpu5) := cadeia_eq_faixa _ _

theorem leitor_stCpu_eq_faixa (cpu : Str) : CpuMem.stCpu cpu = faixa (numify cpu) :=
  cadeia_eq_faixa _ _

theorem not_sep_faixa (c : ℚ) : ';' ∉ faixa c := by
  unfold faixa
  split_ifs <;> simp

theorem faixa_ne_naoColetou (c : ℚ) : faixa c ≠ naoColetou := by
  unfold faixa naoColetou
  split_ifs <;> decide

/-! ## Polls and summaries -/

/-- A summary: the seconds since each file was modified, the order of the directory, the
order of the hashes of `09sum.pl` and the contents of `sum_mem_proc.txt`. -/
structure Sumario where
  idade : Str → Int
  ordemDir : KeyOrder Unit Str
  ordem : KeyOrder LacoSum Str
  sumMem : Str

namespace Sumario

variable (s : Sumario) (cpu : Dir)

/-- `00_sum_cpu.pl` -/
def sumCpu : Resumo Unit :=
  resumo (fun _ => ()) s.idade cpu (s.ordemDir.keys () (".".toList :: "..".toList :: cpu.keys))

/-- The lines of `sumario_cpu_mem.txt`. -/
def linhas : List Str := sum09 s.ordem ((s.sumCpu cpu).arq ()) s.sumMem

end Sumario

/-- A step: a run of `coleta_cpu.pl`, or the summary. -/
inductive Passo where
  | coleta (r : RodadaCpu)
  | sumario (s : Sumario)

/-- What a step does to the directory of the cpu histories. -/
def Passo.executa (cpu : Dir) : Passo → Dir
  | .coleta r => r.coleta cpu
  | .sumario s => (s.sumCpu cpu).dir

def Passo.polls : Passo → List PollCpu
  | .coleta r => r.polls
  | .sumario _ => []

/-- The directory after a sequence of steps, from no file. -/
def cpuApos (ps : List Passo) : Dir := ps.foldl Passo.executa ∅

/-- The polls of a sequence of steps, in order. -/
def pollsDe (ps : List Passo) : List PollCpu := ps.flatMap Passo.polls

/-- The newest poll of a host, and the newest one that was written to a file. -/
def ultimoPoll (ps : List Passo) (host : Str) : Option PollCpu :=
  lastSuch (fun p => decide (p.hostname = host)) (pollsDe ps)

def ultimoDoArq (ps : List Passo) (f : Str) : Option PollCpu :=
  lastSuch (fun p => decide (p.nomeArq = f)) (pollsDe ps)

/-- The first line of a file. -/
def primeira (d : Dir) (f : Str) : Str := ((lines '\n' (conteudo d f)).take 1).flatten

/-- The first line of the record of a poll; the answer may hold a line break. -/
def PollCpu.linha1 (p : PollCpu) : Str := ((lines '\n' p.registro).take 1).flatten

/-! ### The histories begin with the newest record -/

theorem mem_grava {d : Dir} {nomeArq registro f : Str} :
    f ∈ grava d nomeArq registro ↔ f = nomeArq ∨ f ∈ d := AList.mem_insert _

theorem primeira_grava (d : Dir) (p : PollCpu) (f : Str) :
    primeira (grava d p.nomeArq p.registro) f = if p.nomeArq = f then p.linha1 else primeira d f := by
  have hend : ∃ a, p.registro = a ++ ['\n'] := ⟨_, rfl⟩
  unfold primeira PollCpu.linha1
  rw [lines_grava hend]
  by_cases hf : p.nomeArq = f
  · have hne : lines '\n' p.registro ≠ [] := by
      rw [ne_eq, lines_eq_nil]
      simp [PollCpu.registro]
    obtain ⟨l, ls, hl⟩ := List.exists_cons_of_ne_nil hne
    rw [if_pos hf, if_pos hf, push, hl]
    rfl
  · rw [if_neg hf, if_neg hf]

/-- The polls of one run: a file that is there was there before or is the file of a poll, and
the newest poll of a file gives its first line. -/
theorem escreve_polls (d : Dir) (qs : List PollCpu) (f : Str) :
    (f ∈ escreve d (qs.map PollCpu.escrita) ↔ f ∈ d ∨ ∃ p ∈ qs, p.nomeArq = f) ∧
    primeira (escreve d (qs.map PollCpu.escrita)) f
      = ((lastSuch (fun p => decide (p.nomeArq = f)) qs).map PollCpu.linha1).getD (primeira d f) := by
  induction qs using List.reverseRecOn with
  | nil => simp [escreve]
  | append_singleton qs q ih =>
      have hstep : escreve d ((qs ++ [q]).map PollCpu.escrita)
          = grava (escreve d (qs.map PollCpu.escrita)) q.nomeArq q.registro := by
        rw [List.map_append, escreve_append]
        rfl
      rw [hstep]
      refine ⟨?_, ?_⟩
      · -- the new poll adds its own file and no other
        rw [mem_grava, ih.1]
        constructor
        · rintro (rfl | hf | ⟨p, hp, hpf⟩)
          · exact Or.inr ⟨q, by simp, rfl⟩
          · exact Or.inl hf
          · exact Or.inr ⟨p, by simp [hp], hpf⟩
        · rintro (hf | ⟨p, hp, hpf⟩)
          · exact Or.inr (Or.inl hf)
          · rcases List.mem_append.mp hp with hp | hp
            · exact Or.inr (Or.inr ⟨p, hp, hpf⟩)
            · rw [List.mem_singleton.mp hp] at hpf
              exact Or.inl hpf.symm
      · rw [primeira_grava, lastSuch_concat, ih.2]
        by_cases hf : q.nomeArq = f
        · rw [if_pos hf, if_pos (by simpa using hf)]
          rfl
        · rw [if_neg hf, if_neg (by simpa using hf)]

/-- **A history that is there begins with the record of its newest poll**, after any sequence
of steps. -/
theorem ultimo_registro (ps : List Passo) {f : Str} (hf : f ∈ cpuApos ps) :
    ∃ p, ultimoDoArq ps f = some p ∧ primeira (cpuApos ps) f = p.linha1 := by
  induction ps using List.reverseRecOn with
  | nil => exact absurd hf (AList.notMem_empty _)
  | append_singleton ps a ih =>
      have hdir : cpuApos (ps ++ [a]) = a.executa (cpuApos ps) := by
        rw [cpuApos, List.foldl_append]
        rfl
      have hpolls : pollsDe (ps ++ [a]) = pollsDe ps ++ a.polls := by
        rw [pollsDe, List.flatMap_append, List.flatMap_singleton]
        rfl
      rw [hdir] at hf ⊢
      rw [ultimoDoArq, hpolls, lastSuch_append, ← ultimoDoArq]
      cases a with
      | coleta r =>
          simp only [Passo.executa, Passo.polls, r.coleta_eq] at hf ⊢
          obtain ⟨hmem, hline⟩ := escreve_polls (cpuApos ps) r.polls f
          rw [hline]
          cases hlast : lastSuch (fun p => decide (p.nomeArq = f)) r.polls with
          | some p => exact ⟨p, rfl, rfl⟩
          | none =>
              refine ih ((hmem.mp hf).resolve_right ?_)
              rintro ⟨p, hp, hpf⟩
              exact lastSuch_eq_none.mp hlast p hp (by simpa using hpf)
      | sumario s =>
          -- the summary only deletes
          obtain ⟨hmem, hcont⟩ := mem_dir_resumo hf
          obtain ⟨p, hp, hline⟩ := ih hmem
          refine ⟨p, hp, ?_⟩
          rw [← hline, primeira, primeira, ← hcont]
          rfl

/-! ### The hosts of the summary -/

theorem hostname_of_mem_polls {ps : List Passo} {p : PollCpu} (hp : p ∈ pollsDe ps) :
    ∃ lint, selecionado lint = true ∧ p.hostname = hostname lint := by
  obtain ⟨a, -, hp⟩ := List.mem_flatMap.mp hp
  cases a with
  | sumario s => simp [Passo.polls] at hp
  | coleta r =>
      obtain ⟨l, -, hl⟩ := List.mem_filterMap.mp hp
      unfold RodadaCpu.poll at hl
      split at hl
      · rename_i hsel
        rw [← Option.some.inj hl]
        exact ⟨l.1, (Bool.and_eq_true_iff.mp hsel).1, rfl⟩
      · simp at hl

/-- The file of a polled host is not one of the two entries that the summary leaves out. -/
theorem nomeArq_ne_pontos {ps : List Passo} {p : PollCpu} (hp : p ∈ pollsDe ps) :
    p.nomeArq ≠ ".".toList ∧ p.nomeArq ≠ "..".toList := by
  obtain ⟨lint, hsel, hhost⟩ := hostname_of_mem_polls hp
  -- the name holds a letter, and only white space is taken from its end
  obtain ⟨c, hc, hspace, hdot⟩ : ∃ c ∈ p.hostname, isSpace c = false ∧ c ≠ '.' := by
    rw [hhost]
    rcases Bool.or_eq_true_iff.mp hsel with h | h
    · exact ⟨'p', (contem_iff.mp h).subset (by simp), by decide, by decide⟩
    · exact ⟨'c', (contem_iff.mp h).subset (by simp), by decide, by decide⟩
  have hmem : c ∈ p.nomeArq := by
    rw [← List.mem_reverse, ← List.takeWhile_append_dropWhile (p := isSpace)
      (l := p.hostname.reverse), List.mem_append] at hc
    rcases hc with hc | hc
    · rw [List.mem_takeWhile_imp hc] at hspace
      cases hspace
    · exact List.mem_reverse.mpr hc
  refine ⟨fun h => ?_, fun h => ?_⟩
  · rw [h] at hmem
    simp [hdot] at hmem
  · rw [h] at hmem
    simp [hdot] at hmem

/-- The first line of a record: the answer is cut at its first line break. -/
theorem linha1_eq {ps : List Passo} {p : PollCpu} (hp : p ∈ pollsDe ps) :
    ∃ u, '\n' ∉ delimited ';' [decimal p.hora.t, p.hora.dataReg, p.hostname] ++ u ∧
      p.linha1 = delimited ';' [decimal p.hora.t, p.hora.dataReg, p.hostname] ++ u ++ ['\n'] := by
  obtain ⟨lint, -, hhost⟩ := hostname_of_mem_polls hp
  obtain ⟨ht, hd⟩ := limpo_hora (Or.inl rfl) p.hora
  have hh : '\n' ∉ p.hostname := hhost ▸ limpo_hostname (Or.inl rfl) lint
  have hin : '\n' ∈ p.cpu5 ++ [';', '\n'] := by simp
  obtain ⟨u, v, huv, hu⟩ := List.eq_append_cons_of_mem hin
  have hnl : '\n' ∉ delimited ';' [decimal p.hora.t, p.hora.dataReg, p.hostname] ++ u := by
    simp [ht, hd, hh, hu]
  have hreg : p.registro
      = (delimited ';' [decimal p.hora.t, p.hora.dataReg, p.hostname] ++ u) ++ '\n' :: v := by
    rw [List.append_assoc, ← huv]
    simp [PollCpu.registro]
  refine ⟨u, hnl, ?_⟩
  rw [PollCpu.linha1, hreg, lines_append_cons hnl]
  simp

theorem chaveHost_linha1 {ps : List Passo} {p : PollCpu} (hp : p ∈ pollsDe ps) :
    chaveHost p.linha1 = p.hostname := by
  obtain ⟨u, -, hu⟩ := linha1_eq hp
  obtain ⟨lint, -, hhost⟩ := hostname_of_mem_polls hp
  obtain ⟨ht, hd⟩ := limpo_hora (Or.inr (Or.inl rfl)) p.hora
  have hh : ∀ c, c = '\n' ∨ c = ';' ∨ c = '\r' → c ∉ p.hostname := fun c hc =>
    hhost ▸ limpo_hostname hc lint
  have hchomp : chomp p.hostname = p.hostname :=
    chomp_eq_self (hh _ (Or.inl rfl)) (hh _ (Or.inr (Or.inr rfl)))
  have hfs : ∀ f ∈ [decimal p.hora.t, p.hora.dataReg, p.hostname].map chomp, ';' ∉ f := by
    intro f hf hsep
    obtain ⟨g, hg, rfl⟩ := List.mem_map.mp hf
    have hsep' := (mem_chomp hsep).1
    simp only [List.mem_cons, List.not_mem_nil, or_false] at hg
    rcases hg with rfl | rfl | rfl
    · exact ht hsep'
    · exact hd hsep'
    · exact hh _ (Or.inr (Or.inl rfl)) hsep'
  rw [chaveHost, hu, chomp_append, chomp_append, chomp_delimited, List.append_assoc,
    field_split_delimited hfs _ (by simp)]
  exact hchomp

section Sumario

variable (ps : List Passo) (s : Sumario)

/-- The fresh histories, in the order of the directory. -/
def frescas : List Str :=
  (s.ordemDir.keys () (".".toList :: "..".toList :: (cpuApos ps).keys)).filter fun f =>
    decide (f ≠ ".".toList ∧ f ≠ "..".toList ∧ s.idade f ≤ 3599 ∧ () = ())

theorem mem_frescas {f : Str} : f ∈ frescas ps s ↔ f ∈ cpuApos ps ∧ s.idade f ≤ 3599 := by
  rw [frescas, List.mem_filter, s.ordemDir.mem_keys, AList.mem_keys]
  simp only [List.mem_cons, decide_eq_true_eq, and_true]
  constructor
  · rintro ⟨h | h | h, h1, h2, h3⟩
    · exact absurd h h1
    · exact absurd h h2
    · exact ⟨h, h3⟩
  · rintro ⟨h, h3⟩
    obtain ⟨p, hp, -⟩ := ultimo_registro ps (AList.mem_keys.mpr h)
    obtain ⟨hmem, hname⟩ := lastSuch_eq_some hp
    have hname' : p.nomeArq = f := by simpa using hname
    obtain ⟨h1, h2⟩ := nomeArq_ne_pontos hmem
    rw [hname'] at h1 h2
    exact ⟨Or.inr (Or.inr h), h1, h2, h3⟩

/-- The lines of `sum_cpu.txt`. -/
theorem lines_sumCpu :
    lines '\n' ((s.sumCpu (cpuApos ps)).arq ()) = (frescas ps s).map (primeira (cpuApos ps)) := by
  rw [Sumario.sumCpu, arq_resumo, ← frescas, List.flatMap_def]
  refine lines_flatten_umaLinha fun r hr => ?_
  obtain ⟨f, hf, rfl⟩ := List.mem_map.mp hr
  obtain ⟨p, hp, hline⟩ := ultimo_registro ps ((mem_frescas ps s).mp hf).1
  obtain ⟨u, hnl, hu⟩ := linha1_eq (lastSuch_eq_some hp).1
  rw [primeira] at hline
  rw [hline, hu]
  exact umaLinha_concat hnl

/-- **The hosts of `sum_cpu.txt`**: those of the newest polls of the fresh histories. -/
theorem mem_porHost_sumCpu (host : Str) :
    host ∈ porHost (lines '\n' ((s.sumCpu (cpuApos ps)).arq ())) ↔
      ∃ f ∈ cpuApos ps, s.idade f ≤ 3599 ∧ ∃ p, ultimoDoArq ps f = some p ∧ p.hostname = host := by
  rw [lines_sumCpu, porHost, mem_load]
  simp only [AList.notMem_empty, false_or, List.mem_map, exists_exists_and_eq_and, mem_frescas]
  constructor
  · rintro ⟨f, ⟨hf, hfresh⟩, hhost⟩
    obtain ⟨p, hp, hline⟩ := ultimo_registro ps hf
    rw [hline, chaveHost_linha1 (lastSuch_eq_some hp).1] at hhost
    exact ⟨f, hf, hfresh, p, hp, hhost⟩
  · rintro ⟨f, hf, hfresh, p, hp, hhost⟩
    obtain ⟨q, hq, hline⟩ := ultimo_registro ps hf
    rw [hp] at hq
    cases hq
    refine ⟨f, ⟨hf, hfresh⟩, ?_⟩
    rw [hline, chaveHost_linha1 (lastSuch_eq_some hp).1]
    exact hhost

/-- The newest poll that was written to a file is the newest one of its host. -/
theorem ultimoPoll_of_ultimoDoArq {ps : List Passo} {f : Str} {p : PollCpu}
    (h : ultimoDoArq ps f = some p) : ultimoPoll ps p.hostname = some p := by
  have hname : p.nomeArq = f := by simpa using (lastSuch_eq_some h).2
  refine lastSuch_of_imp h (fun q hq => ?_) (by simp)
  -- all polls of a host are written to one file
  have hhost : q.hostname = p.hostname := by simpa using hq
  rw [← hname, PollCpu.nomeArq, PollCpu.nomeArq, hhost]
  simp

/-- The line of a host in `%host_cpu` is the record of its newest poll. -/
theorem fetch_porHost_sumCpu {f : Str} (hf : f ∈ cpuApos ps) (hfresh : s.idade f ≤ 3599)
    {p : PollCpu} (hp : ultimoDoArq ps f = some p) :
    fetch (porHost (lines '\n' ((s.sumCpu (cpuApos ps)).arq ()))) p.hostname = chomp p.linha1 := by
  have hin := (mem_porHost_sumCpu ps s p.hostname).mpr ⟨f, hf, hfresh, p, hp, rfl⟩
  rw [lines_sumCpu] at hin ⊢
  rw [← AList.lookup_isSome, porHost, lookup_load, AList.lookup_empty, Option.or_none,
    Option.isSome_map] at hin
  obtain ⟨l, hl⟩ := Option.isSome_iff_exists.mp hin
  obtain ⟨hmem, hkey⟩ := lastSuch_eq_some hl
  obtain ⟨g, hg, rfl⟩ := List.mem_map.mp hmem
  -- the line that wins is of a poll of the host too, and so of the newest one
  obtain ⟨q, hq, hline⟩ := ultimo_registro ps ((mem_frescas ps s).mp hg).1
  have hhost : q.hostname = p.hostname := by
    rw [hline, chaveHost_linha1 (lastSuch_eq_some hq).1] at hkey
    simpa using hkey
  have hsame := ultimoPoll_of_ultimoDoArq hq
  rw [hhost, ultimoPoll_of_ultimoDoArq hp] at hsame
  cases hsame
  rw [fetch, porHost, lookup_load, hl, AList.lookup_empty, Option.or_none, Option.map_some,
    Option.getD_some, hline]

/-- The reading in the record of a poll. -/
theorem field_linha1 {p : PollCpu} (hp : p ∈ pollsDe ps) {n : Nat} (hn : p.resposta = some (decimal n)) :
    field (split ';' (chomp p.linha1)) 3 = decimal n := by
  obtain ⟨lint, -, hhost⟩ := hostname_of_mem_polls hp
  have hlimpo : ∀ c, c = '\n' ∨ c = ';' ∨ c = '\r' →
      ∀ g ∈ [decimal p.hora.t, p.hora.dataReg, p.hostname, decimal n], c ∉ g := by
    intro c hc g hg
    simp only [List.mem_cons, List.not_mem_nil, or_false] at hg
    rcases hg with rfl | rfl | rfl | rfl
    · exact (limpo_hora hc p.hora).1
    · exact (limpo_hora hc p.hora).2
    · exact hhost ▸ limpo_hostname hc lint
    · refine not_mem_decimal ?_ n
      rcases hc with rfl | rfl | rfl <;> decide
  have hreg : p.registro
      = delimited ';' [decimal p.hora.t, p.hora.dataReg, p.hostname, decimal n] ++ ['\n'] := by
    rw [PollCpu.registro, PollCpu.cpu5, hn]
    rfl
  have hnl : '\n' ∉ delimited ';' [decimal p.hora.t, p.hora.dataReg, p.hostname, decimal n] := by
    intro h
    rcases mem_delimited h with h | ⟨g, hg, h⟩
    · cases h
    · exact hlimpo '\n' (Or.inl rfl) g hg h
  have hline : p.linha1 = p.registro := by
    rw [PollCpu.linha1, hreg, lines_umaLinha (umaLinha_concat hnl)]
    simp
  have h3 : field [decimal p.hora.t, p.hora.dataReg, p.hostname, decimal n] 3 = decimal n := rfl
  rw [hline, hreg, field_chomp_delimited (hlimpo ';' (Or.inr (Or.inl rfl))) (by simp), h3]
  exact chomp_eq_self (hlimpo '\n' (Or.inl rfl) _ (by simp))
    (hlimpo '\r' (Or.inr (Or.inr rfl)) _ (by simp))

/-! ## The published status -/

/-- The status of a published line: the band of its reading for a host of the cpu summary, and
`nao coletou` for the others. -/
theorem status_of_mem_linhas {l : Str} (hl : l ∈ s.linhas (cpuApos ps)) :
    (field (split ';' l) 2 ∈ porHost (lines '\n' ((s.sumCpu (cpuApos ps)).arq ())) ∧
      field (split ';' l) 4 = faixa (numify (field (split ';' l) 3))) ∨
    (field (split ';' l) 2 ∉ porHost (lines '\n' ((s.sumCpu (cpuApos ps)).arq ())) ∧
      field (split ';' l) 3 = [] ∧ field (split ';' l) 4 = naoColetou) := by
  rcases mem_sum09 hl with ⟨it, hit, rfl⟩ | ⟨it, hit, hnot, rfl⟩
  · have hc := fun n => field_linhaCpu (porHost (lines '\n' ((s.sumCpu (cpuApos ps)).arq ())))
      (porHost (lines '\n' s.sumMem)) (not_sep_of_mem_porHost hit) (n := n)
    rw [hc 2 (by omega), hc 3 (by omega), hc 4 (by omega)]
    simp only [field, List.getD_cons_succ, List.getD_cons_zero]
    exact Or.inl ⟨hit, stCpu_eq_faixa _⟩
  · have hc := fun n => field_linhaMem (porHost (lines '\n' s.sumMem)) (not_sep_of_mem_porHost hit)
      (n := n)
    rw [hc 2 (by omega), hc 3 (by omega), hc 4 (by omega)]
    exact Or.inr ⟨hnot, rfl, rfl⟩

/-- Every host of `sum_cpu.txt` has a line. -/
theorem exists_linha_of_sumCpu {host : Str}
    (h : host ∈ porHost (lines '\n' ((s.sumCpu (cpuApos ps)).arq ()))) :
    ∃ l ∈ s.linhas (cpuApos ps), field (split ';' l) 2 = host := by
  rw [Sumario.linhas, sum09_eq]
  refine ⟨_, List.mem_append_left _ (List.mem_map_of_mem ?_),
    field_linhaCpu _ _ (not_sep_of_mem_porHost h) (by omega)⟩
  rw [s.ordem.mem_keys]
  exact AList.mem_keys.mp h

/-- The line of a fresh history shows the reading of its newest poll. -/
theorem linha_of_leitura {f : Str} (hf : f ∈ cpuApos ps) (hfresh : s.idade f ≤ 3599) {p : PollCpu}
    (hp : ultimoDoArq ps f = some p) {n : Nat} (hn : p.resposta = some (decimal n)) {l : Str}
    (hl : l ∈ s.linhas (cpuApos ps)) (h2 : field (split ';' l) 2 = p.hostname) :
    field (split ';' l) 3 = decimal n ∧ field (split ';' l) 4 = faixa n := by
  have hin := (mem_porHost_sumCpu ps s p.hostname).mpr ⟨f, hf, hfresh, p, hp, rfl⟩
  rcases mem_sum09 hl with ⟨it, hit, rfl⟩ | ⟨it, hit, hnot, rfl⟩
  · have hc := fun n => field_linhaCpu (porHost (lines '\n' ((s.sumCpu (cpuApos ps)).arq ())))
      (porHost (lines '\n' s.sumMem)) (not_sep_of_mem_porHost hit) (n := n)
    rw [hc 2 (by omega)] at h2
    have hit2 : it = p.hostname := h2
    subst hit2
    rw [hc 3 (by omega), hc 4 (by omega), fetch_porHost_sumCpu ps s hf hfresh hp,
      field_linha1 ps (lastSuch_eq_some hp).1 hn]
    refine ⟨rfl, (stCpu_eq_faixa (decimal n)).trans ?_⟩
    rw [numify_decimal]
  · have h2' := field_linhaMem (porHost (lines '\n' s.sumMem)) (not_sep_of_mem_porHost hit)
      (n := 2) (by omega)
    rw [h2] at h2'
    have hit2 : p.hostname = it := h2'
    exact absurd (hit2 ▸ hin) hnot

/-- What a summary after the steps `ps` has to publish: `nao coletou` for a host whose newest
poll had no answer, the reading of a fresh history with its band, and on every line the band
of the reading that it shows. -/
structure Informa : Prop where
  semResposta : ∀ host p, ultimoPoll ps host = some p → p.resposta = none →
    ∀ l ∈ s.linhas (cpuApos ps), field (split ';' l) 2 = host → field (split ';' l) 4 = naoColetou
  leitura : ∀ f ∈ cpuApos ps, s.idade f ≤ 3599 →
    ∀ p n, ultimoDoArq ps f = some p → p.resposta = some (decimal n) → 0 < n →
      (∃ l ∈ s.linhas (cpuApos ps), field (split ';' l) 2 = p.hostname) ∧
      ∀ l ∈ s.linhas (cpuApos ps), field (split ';' l) 2 = p.hostname →
        field (split ';' l) 3 = decimal n ∧ field (split ';' l) 4 = faixa n
  faixas : ∀ l ∈ s.linhas (cpuApos ps), 0 < numify (field (split ';' l) 3) →
    field (split ';' l) 4 = faixa (numify (field (split ';' l) 3))

/-- No fresh history has a newest poll without an answer. -/
def Respondidas : Prop :=
  ∀ f ∈ cpuApos ps, s.idade f ≤ 3599 → ∀ p, ultimoDoArq ps f = some p → p.resposta ≠ none

theorem informa_iff : Informa ps s ↔ Respondidas ps s := by
  constructor
  · intro h f hf hfresh p hp hnone
    -- the host of such a history has a line, and its status is the band of an empty reading
    have hhost := (mem_porHost_sumCpu ps s p.hostname).mpr ⟨f, hf, hfresh, p, hp, rfl⟩
    obtain ⟨l, hl, h2⟩ := exists_linha_of_sumCpu ps s hhost
    have h4 := h.semResposta _ p (ultimoPoll_of_ultimoDoArq hp) hnone l hl h2
    rcases status_of_mem_linhas ps s hl with ⟨-, hst⟩ | ⟨hnot, -, -⟩
    · exact faixa_ne_naoColetou _ (hst.symm.trans h4)
    · exact hnot (h2 ▸ hhost)
  · intro h
    refine ⟨fun host p hp hnone l hl h2 => ?_, fun f hf hfresh p n hp hn _ => ⟨?_, ?_⟩,
      fun l hl hpos => ?_⟩
    · rcases status_of_mem_linhas ps s hl with ⟨hin, -⟩ | ⟨-, -, hst⟩
      · -- a host of the cpu summary has an answered newest poll
        rw [h2, mem_porHost_sumCpu] at hin
        obtain ⟨f, hf, hfresh, q, hq, rfl⟩ := hin
        have hsame := ultimoPoll_of_ultimoDoArq hq
        rw [hp] at hsame
        cases hsame
        exact absurd hnone (h f hf hfresh p hq)
      · exact hst
    · exact exists_linha_of_sumCpu ps s
        ((mem_porHost_sumCpu ps s p.hostname).mpr ⟨f, hf, hfresh, p, hp, rfl⟩)
    · exact fun l hl h2 => linha_of_leitura ps s hf hfresh hp hn hl h2
    · rcases status_of_mem_linhas ps s hl with ⟨-, hst⟩ | ⟨-, h3, -⟩
      · exact hst
      · rw [h3] at hpos
        exact absurd hpos (by decide +kernel)

end Sumario

/-! ## The reader of the log -/

section Leitor

variable (t : Nat) (ordem : KeyOrder CpuMem.Laco Str) (dados log : Str) (hist : Dir)

/-- The run of the reader is ended by the division of a percentage, before it writes. -/
def acabaNaDivisao : Bool :=
  (ordem.keys .mem ((CpuMem.lerLog (CpuMem.hostDe dados) (lines '\n' log)).coluna .memNome).keys).any
    (CpuMem.morre (CpuMem.lerLog (CpuMem.hostDe dados) (lines '\n' log)))

/-- The last row of the cpu in the log. -/
def linhaCpuLog : Option Str := (CpuMem.linhasCpu (lines '\n' log)).getLast?

/-- How the file of the host begins, with a reading and its status. -/
def inicioArq (valor st : Str) : Str :=
  delimited ';' ([decimal t, [], CpuMem.hostDe dados, valor] ++ [st])

/-- A run that writes puts the band of the reading into the file of the host. -/
theorem leitor_status (hdiv : acabaNaDivisao ordem dados log = false) {linha : Str}
    (hl : linhaCpuLog log = some linha) :
    ∃ d, CpuMem.leitor t ordem dados log hist = .ok d ∧
      inicioArq t dados (CpuMem.valorCpu linha) (faixa (numify (CpuMem.valorCpu linha)))
        <+: conteudo d (CpuMem.hostDe dados) := by
  set tb := CpuMem.lerLog (CpuMem.hostDe dados) (lines '\n' log) with htb
  have hne : CpuMem.linhasCpu (lines '\n' log) ≠ [] := List.ne_nil_of_mem (List.mem_of_getLast? hl)
  have hvalor : fetch tb.cpuavg5 (CpuMem.hostDe dados) = CpuMem.valorCpu linha := by
    have hlast : lastSuch (fun _ => decide (CpuMem.hostDe dados = CpuMem.hostDe dados))
        (CpuMem.linhasCpu (lines '\n' log)) = some linha := by
      rw [lastSuch, List.filter_eq_self.mpr (by simp)]
      exact hl
    rw [fetch, htb, CpuMem.cpuavg5_lerLog, lookup_load, hlast]
    rfl
  unfold acabaNaDivisao at hdiv
  rw [CpuMem.leitor_texto t ordem dados log hist (CpuMem.keys_cpuavg5 _ hne), hdiv]
  refine ⟨_, rfl, ?_⟩
  rw [conteudo_insert_self, CpuMem.cpn, CpuMem.primeiraLinha, CpuMem.linhaHist, ← htb, hvalor, leitor_stCpu_eq_faixa, inicioArq]
  simp only [delimited_cons, delimited_nil, List.cons_append, List.nil_append, List.append_assoc]
  simp

/-- What a run of the reader that writes has to give: `nao coletou` when the row of the cpu
carries no value, and the band of a reading. -/
structure InformaLeitor : Prop where
  semValor : ∀ d linha, CpuMem.leitor t ordem dados log hist = .ok d → linhaCpuLog log = some linha →
    CpuMem.valorCpu linha = [] → inicioArq t dados [] naoColetou <+: conteudo d (CpuMem.hostDe dados)
  leitura : ∀ d linha, CpuMem.leitor t ordem dados log hist = .ok d → linhaCpuLog log = some linha →
    0 < numify (CpuMem.valorCpu linha) →
      inicioArq t dados (CpuMem.valorCpu linha) (faixa (numify (CpuMem.valorCpu linha)))
        <+: conteudo d (CpuMem.hostDe dados)

/-- The row of the cpu carries a value, or the run ends before it writes. -/
def ComValor : Prop :=
  acabaNaDivisao ordem dados log = true ∨
    ∀ linha, linhaCpuLog log = some linha → CpuMem.valorCpu linha ≠ []

theorem not_ok_of_divisao (hdiv : acabaNaDivisao ordem dados log = true) (d : Dir) :
    CpuMem.leitor t ordem dados log hist ≠ .ok d := by
  unfold acabaNaDivisao at hdiv
  rw [CpuMem.leitor, CpuMem.foldlM_passoMem, hdiv]
  simp

theorem informaLeitor_iff : InformaLeitor t ordem dados log hist ↔ ComValor ordem dados log := by
  cases hdiv : acabaNaDivisao ordem dados log with
  | true =>
      refine ⟨fun _ => Or.inl hdiv, fun _ => ⟨fun d linha h => ?_, fun d linha h => ?_⟩⟩
      · exact absurd h (not_ok_of_divisao t ordem dados log hist hdiv d)
      · exact absurd h (not_ok_of_divisao t ordem dados log hist hdiv d)
  | false =>
      constructor
      · intro h
        refine Or.inr fun linha hl hvazio => ?_
        obtain ⟨d, hd, hpre⟩ := leitor_status t ordem dados log hist hdiv hl
        have hnao := h.semValor d linha hd hl hvazio
        rw [hvazio] at hpre
        exact faixa_ne_naoColetou _ (delimited_concat_inj (not_sep_faixa _)
          (by unfold naoColetou; simp) hpre hnao)
      · intro h
        refine ⟨fun d linha _ hl hvazio => ?_, fun d linha hd hl _ => ?_⟩
        · rcases h with h | h
          · rw [hdiv] at h
            cases h
          · exact absurd hvazio (h linha hl)
        · obtain ⟨d', hd', hpre⟩ := leitor_status t ordem dados log hist hdiv hl
          rw [hd] at hd'
          cases hd'
          exact hpre

end Leitor

/-- **When a host without a reading is reported as such**, in every summary of a sequence of
polls and summaries and by the reader of the log. -/
theorem status_iff (ps : List Passo) (t : Nat) (ordem : KeyOrder CpuMem.Laco Str) (dados log : Str)
    (hist : Dir) :
    ((∀ pre s post, ps = pre ++ .sumario s :: post → Informa pre s) ∧
        InformaLeitor t ordem dados log hist) ↔
      (∀ pre s post, ps = pre ++ .sumario s :: post → Respondidas pre s) ∧
        ComValor ordem dados log := by
  refine and_congr ?_ (informaLeitor_iff t ordem dados log hist)
  constructor
  · intro h pre s post heq
    exact (informa_iff pre s).mp (h pre s post heq)
  · intro h pre s post heq
    exact (informa_iff pre s).mpr (h pre s post heq)

/-- A poll of `swmbseg01` without an answer, and the summary a minute later. -/
def semRespostaSwmbseg01 : List Passo :=
  [.coleta ⟨fun _ => ⟨⟨111, 7, 3, 1, 50, 36⟩, 1312347036⟩, fun _ => ⟨true, none⟩,
      ["swmbseg01.bseg.psys;10.33.38.133;\n".toList]⟩,
   .sumario ⟨fun _ => 60, .stored, .stored, []⟩]

/-- The line is the one of the shipped summary: no reading, and `cpuok`. -/
theorem swmbseg01_cpuok : ¬ ∀ (ps : List Passo) (t : Nat) (ordem : KeyOrder CpuMem.Laco Str)
    (dados log : Str) (hist : Dir),
    (∀ pre s post, ps = pre ++ .sumario s :: post → Informa pre s) ∧
      InformaLeitor t ordem dados log hist := by
  intro h
  have hinf := (h semRespostaSwmbseg01 0 .stored [] [] ∅).1 (semRespostaSwmbseg01.take 1)
    ⟨fun _ => 60, .stored, .stored, []⟩ [] rfl
  have hst := hinf.semResposta "swmbseg01.bseg.psys".toList
    ⟨"swmbseg01.bseg.psys".toList, ⟨⟨111, 7, 3, 1, 50, 36⟩, 1312347036⟩, none⟩
    (by decide +kernel) rfl
    "1312347036;2011-08-03 01:50:36;swmbseg01.bseg.psys;;cpuok;mem ok;;;\n".toList
    (by decide +kernel) (by decide +kernel)
  revert hst
  decide +kernel

end SnmpCollector.Snmp
