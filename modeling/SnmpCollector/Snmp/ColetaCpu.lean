import SnmpCollector.Snmp.GeraSum

set_option autoImplicit false

/-! # Polling the cpu (`snmp/coleta_cpu.pl`) and the bound of the histories

For each selected host of the hosts list the script requests the average cpu load and puts a
record in front of the history of the host. A request without an answer gives a record with
an empty value; a session that is not created ends the program.

The histories of the cpu, of the fans and of the power supplies are rewritten in the same way:
the record first, then at most 289 of the old lines. Over any sequence of runs such a file
holds the newest 290 records, newest first (`historicos_limitados`).
-/

namespace SnmpCollector.Snmp

open Perl

/-! ## Sequences of records -/

/-- Records written to history files, one after the other: the file and the record. -/
def escreve (d : Dir) (ws : List (Str × Str)) : Dir := ws.foldl (fun d w => grava d w.1 w.2) d

/-- A record of one line. -/
def UmaLinha (r : Str) : Prop := '\n' ∉ r.dropLast ∧ r.getLast? = some '\n'

theorem lines_umaLinha {r : Str} (h : UmaLinha r) : lines '\n' r = [r] := by
  obtain ⟨a, rfl⟩ := List.getLast?_eq_some_iff.mp h.2
  have ha : '\n' ∉ a := by simpa using h.1
  rw [lines_append_cons ha, lines_nil]

theorem umaLinha_concat {a : Str} (h : '\n' ∉ a) : UmaLinha (a ++ ['\n']) :=
  ⟨by rwa [List.dropLast_concat], List.getLast?_concat⟩

/-- Texts of one line, one after the other. -/
theorem lines_flatten_umaLinha {rs : List Str} (h : ∀ r ∈ rs, UmaLinha r) :
    lines '\n' rs.flatten = rs := by
  induction rs with
  | nil => rfl
  | cons r rs ih =>
      obtain ⟨hnl, hlast⟩ := h r (by simp)
      obtain ⟨a, rfl⟩ := List.getLast?_eq_some_iff.mp hlast
      rw [List.flatten_cons, List.append_assoc, List.singleton_append,
        lines_append_cons (by simpa using hnl), ih fun x hx => h x (by simp [hx])]

theorem escreve_append (d : Dir) (ws ws' : List (Str × Str)) :
    escreve d (ws ++ ws') = escreve (escreve d ws) ws' := by
  rw [escreve, List.foldl_append]
  rfl

/-- A history file after a sequence of records: only those for this file count. -/
theorem lines_escreve {ws : List (Str × Str)} (h : ∀ w ∈ ws, UmaLinha w.2) (d : Dir) (f : Str) :
    lines '\n' (conteudo (escreve d ws) f)
      = (((ws.filter fun w => w.1 = f).map Prod.snd).map fun r => [r]).foldl (push 289)
          (lines '\n' (conteudo d f)) := by
  induction ws generalizing d with
  | nil => rfl
  | cons w ws ih =>
      have hw := h w (by simp)
      have hend : ∃ a, w.2 = a ++ ['\n'] := List.getLast?_eq_some_iff.mp hw.2
      have hcons : escreve d (w :: ws) = escreve (grava d w.1 w.2) ws := rfl
      rw [hcons, ih (fun x hx => h x (by simp [hx])), lines_grava hend, lines_umaLinha hw]
      by_cases hf : w.1 = f
      · rw [if_pos hf, List.filter_cons_of_pos (by simpa using hf)]
        rfl
      · rw [if_neg hf, List.filter_cons_of_neg (by simpa using hf)]

/-- **The newest 290 records, newest first**, in a file that was not there. -/
theorem lines_escreve_novo {ws : List (Str × Str)} (h : ∀ w ∈ ws, UmaLinha w.2) {d : Dir} {f : Str}
    (hf : f ∉ d) :
    lines '\n' (conteudo (escreve d ws) f)
      = ((ws.filter fun w => w.1 = f).map Prod.snd).reverse.take 290 := by
  have hlook : d.lookup f = none := AList.lookup_eq_none.mpr hf
  have hnil : lines '\n' (conteudo d f) = [] := by
    rw [conteudo, fetch, hlook]
    rfl
  rw [lines_escreve h, hnil, foldl_push_singletons]

/-! ## The cpu -/

/-- What a host answers: whether the session is created, and the value of
`1.3.6.1.4.1.9.2.1.58.0` if the request is answered. -/
structure VisitaCpu where
  sessao : Bool
  resposta : Option Str
  deriving DecidableEq

/-- A run: the clock and the answers by the number of the line, and the hosts list. -/
structure RodadaCpu where
  rel : Nat → Hora
  visitas : Nat → VisitaCpu
  pingT : List Str

/-- A poll: the host, the clock and `$cpu5`, empty without an answer. -/
structure PollCpu where
  hostname : Str
  hora : Hora
  resposta : Option Str
  deriving DecidableEq

namespace PollCpu

variable (p : PollCpu)

def cpu5 : Str := p.resposta.getD []

def nomeArq : Str := semFim p.hostname

def registro : Str :=
  delimited ';' [decimal p.hora.t, p.hora.dataReg, p.hostname, p.cpu5] ++ ['\n']

end PollCpu

namespace RodadaCpu

variable (r : RodadaCpu)

/-- The loop body: a line of the hosts list and its number. -/
def passo (d : Dir) (l : Str × Nat) : Except Dir Dir :=
  if selecionado l.1 then
    if (r.visitas l.2).sessao then
      let p : PollCpu := ⟨Snmp.hostname l.1, r.rel l.2, (r.visitas l.2).resposta⟩
      .ok (grava d p.nomeArq p.registro)
    else .error d
  else .ok d

/-- `coleta_cpu.pl`: what a run leaves in the directory of the cpu histories. -/
def coleta (d : Dir) : Dir := fim (r.pingT.zipIdx.foldlM r.passo d)

/-- The line ends the run: the session is not created. -/
def para (l : Str × Nat) : Bool := selecionado l.1 && !(r.visitas l.2).sessao

/-- The poll of a line, if the run makes one. -/
def poll (l : Str × Nat) : Option PollCpu :=
  if selecionado l.1 && (r.visitas l.2).sessao then
    some ⟨Snmp.hostname l.1, r.rel l.2, (r.visitas l.2).resposta⟩
  else none

/-- The polls of a run, in order. -/
def polls : List PollCpu := (upTo r.para r.pingT.zipIdx).filterMap r.poll

end RodadaCpu

/-- The file and the record of a poll. -/
def PollCpu.escrita (p : PollCpu) : Str × Str := (p.nomeArq, p.registro)

theorem RodadaCpu.passo_eq (r : RodadaCpu) (d : Dir) (l : Str × Nat) :
    r.passo d l = if r.para l then .error (fim (r.passo d l)) else .ok (fim (r.passo d l)) := by
  unfold RodadaCpu.passo RodadaCpu.para
  cases selecionado l.1 with
  | false => rfl
  | true => cases (r.visitas l.2).sessao <;> rfl

theorem RodadaCpu.fim_passo (r : RodadaCpu) (d : Dir) (l : Str × Nat) :
    fim (r.passo d l) = escreve d ((r.poll l).toList.map PollCpu.escrita) := by
  unfold RodadaCpu.passo RodadaCpu.poll
  cases selecionado l.1 with
  | false => rfl
  | true => cases (r.visitas l.2).sessao <;> rfl

/-- A run writes the records of its polls. -/
theorem RodadaCpu.coleta_eq (r : RodadaCpu) (d : Dir) :
    r.coleta d = escreve d (r.polls.map PollCpu.escrita) := by
  rw [RodadaCpu.coleta, fim_foldlM_upTo r.passo_eq, RodadaCpu.polls]
  induction upTo r.para r.pingT.zipIdx generalizing d with
  | nil => rfl
  | cons l ls ih =>
      rw [List.foldl_cons, ih, r.fim_passo, List.filterMap_cons]
      cases r.poll l with
      | none => rfl
      | some p => rfl

/-- Several runs, one after the other. -/
def coletasCpu (rs : List RodadaCpu) (d : Dir) : Dir := rs.foldl (fun d r => r.coleta d) d

theorem coletasCpu_eq (rs : List RodadaCpu) (d : Dir) :
    coletasCpu rs d = escreve d ((rs.flatMap RodadaCpu.polls).map PollCpu.escrita) := by
  induction rs generalizing d with
  | nil => rfl
  | cons r rs ih =>
      have hcons : coletasCpu (r :: rs) d = coletasCpu rs (r.coleta d) := rfl
      rw [hcons, ih, r.coleta_eq, List.flatMap_cons, List.map_append, escreve_append]

/-! ## Fans and power supplies -/

/-- The line reaches the rewrites of `snmp/temp`, `snmp/fan` and `snmp/pwr`. -/
def chega (visitas : Nat → Visita) (l : Str × Nat) : Bool :=
  consultado visitas l && !(gravacoes (visitas l.2) (hostname l.1)).any Gravacao.morre

/-- What one line does to the other three directories: all of it or nothing. -/
theorem fim_passo_outros (rel : Nat → Hora) (visitas : Nat → Visita) (s : Estado) (l : Str × Nat) :
    (fim (passo rel visitas s l)).temp = (if chega visitas l then
      ((visitas l.2).ordem.keys .temp (hTempNome (visitas l.2)).keys).foldl
        (gravaTemp (rel l.2) (visitas l.2) (hostname l.1)) s.temp else s.temp) ∧
    (fim (passo rel visitas s l)).fan = (if chega visitas l then
      gravaFan (rel l.2) (visitas l.2) (hostname l.1) s.fan else s.fan) ∧
    (fim (passo rel visitas s l)).pwr = (if chega visitas l then
      gravaPwr (rel l.2) (visitas l.2) (hostname l.1) s.pwr else s.pwr) := by
  unfold passo chega consultado
  cases selecionado l.1 with
  | false => exact ⟨rfl, rfl, rfl⟩
  | true =>
      cases hses : (visitas l.2).sessao with
      | false => exact ⟨rfl, rfl, rfl⟩
      | true =>
          simp only [if_true, Bool.true_and, coletaHost, foldlM_gravaMem]
          cases (gravacoes (visitas l.2) (hostname l.1)).any Gravacao.morre with
          | true => exact ⟨rfl, rfl, rfl⟩
          | false => exact ⟨rfl, rfl, rfl⟩

/-- A poll of a host that reaches these rewrites. -/
structure PollMtp where
  hostname : Str
  hora : Hora
  visita : Visita

namespace PollMtp

variable (p : PollMtp)

def registroFan : Str := registroStatus p.hora p.hostname (hFanNome p.visita) (hFanStatus p.visita)

def registroPwr : Str := registroStatus p.hora p.hostname (hPwrNome p.visita) (hPwrStatus p.visita)

end PollMtp

/-- The polls of a run that reach them, in order. -/
def Rodada.chegam (r : Rodada) : List PollMtp :=
  ((alcancadas r.visitas r.pingT).filter (chega r.visitas)).map fun l =>
    ⟨hostname l.1, r.rel l.2, r.visitas l.2⟩

/-- A run writes one fan record and one power record per such poll. -/
theorem fan_pwr_coleta (r : Rodada) (s : Estado) :
    (fim (coleta r.rel r.visitas r.pingT s)).fan
      = escreve s.fan (r.chegam.map fun p => (p.hostname ++ "_fan".toList, p.registroFan)) ∧
    (fim (coleta r.rel r.visitas r.pingT s)).pwr
      = escreve s.pwr (r.chegam.map fun p => (p.hostname ++ "_pwr".toList, p.registroPwr)) := by
  rw [coleta, fim_foldlM_upTo (passo_eq_fim r.rel r.visitas), Rodada.chegam, alcancadas]
  induction upTo (para r.visitas) r.pingT.zipIdx generalizing s with
  | nil => exact ⟨rfl, rfl⟩
  | cons l ls ih =>
      obtain ⟨-, hfan, hpwr⟩ := fim_passo_outros r.rel r.visitas s l
      obtain ⟨ih1, ih2⟩ := ih (fim (passo r.rel r.visitas s l))
      rw [List.foldl_cons, ih1, ih2, hfan, hpwr]
      by_cases hc : chega r.visitas l = true
      · rw [if_pos hc, if_pos hc, List.filter_cons_of_pos hc]
        exact ⟨rfl, rfl⟩
      · rw [if_neg hc, if_neg hc, List.filter_cons_of_neg hc]
        exact ⟨rfl, rfl⟩

theorem fan_pwr_coletas (rs : List Rodada) (s : Estado) :
    (coletas rs s).fan = escreve s.fan
      ((rs.flatMap Rodada.chegam).map fun p => (p.hostname ++ "_fan".toList, p.registroFan)) ∧
    (coletas rs s).pwr = escreve s.pwr
      ((rs.flatMap Rodada.chegam).map fun p => (p.hostname ++ "_pwr".toList, p.registroPwr)) := by
  induction rs generalizing s with
  | nil => exact ⟨rfl, rfl⟩
  | cons r rs ih =>
      obtain ⟨h1, h2⟩ := fan_pwr_coleta r s
      obtain ⟨ih1, ih2⟩ := ih (fim (coleta r.rel r.visitas r.pingT s))
      have hcons : coletas (r :: rs) s = coletas rs (fim (coleta r.rel r.visitas r.pingT s)) := rfl
      rw [hcons, ih1, ih2, h1, h2, List.flatMap_cons, List.map_append, List.map_append,
        escreve_append, escreve_append]
      exact ⟨rfl, rfl⟩

/-! ## The bound -/

/-- Records written under names that are determined by the host. -/
theorem lines_escreve_polls {π : Type} {nome registro : π → Str} {ps : List π}
    (h : ∀ p ∈ ps, UmaLinha (registro p)) {d : Dir} {f : Str} (hf : f ∉ d) :
    lines '\n' (conteudo (escreve d (ps.map fun p => (nome p, registro p))) f)
      = ((ps.filter fun p => nome p = f).map registro).reverse.take 290 := by
  have hone : ∀ w ∈ ps.map fun p => (nome p, registro p), UmaLinha w.2 := by
    intro w hw
    obtain ⟨p, hp, rfl⟩ := List.mem_map.mp hw
    exact h p hp
  rw [lines_escreve_novo hone hf, List.filter_map, List.map_map]
  rfl

/-- **The histories are bounded and newest first.** Over any sequence of runs, from no file
and with records of one line, the cpu history of a host holds the newest 290 records of the
polls of the host, and so do its fan and power histories for the polls that reach them. -/
theorem historicos_limitados :
    (∀ (rs : List RodadaCpu) (d : Dir) (host : Str), semFim host ∉ d →
      (∀ p ∈ rs.flatMap RodadaCpu.polls, UmaLinha p.registro) →
      lines '\n' (conteudo (coletasCpu rs d) (semFim host))
        = (((rs.flatMap RodadaCpu.polls).filter fun p => p.nomeArq = semFim host).map
            PollCpu.registro).reverse.take 290) ∧
    (∀ (rs : List Rodada) (s : Estado) (host : Str), host ++ "_fan".toList ∉ s.fan →
      (∀ p ∈ rs.flatMap Rodada.chegam, UmaLinha p.registroFan) →
      lines '\n' (conteudo (coletas rs s).fan (host ++ "_fan".toList))
        = (((rs.flatMap Rodada.chegam).filter fun p => p.hostname = host).map
            PollMtp.registroFan).reverse.take 290) ∧
    ∀ (rs : List Rodada) (s : Estado) (host : Str), host ++ "_pwr".toList ∉ s.pwr →
      (∀ p ∈ rs.flatMap Rodada.chegam, UmaLinha p.registroPwr) →
      lines '\n' (conteudo (coletas rs s).pwr (host ++ "_pwr".toList))
        = (((rs.flatMap Rodada.chegam).filter fun p => p.hostname = host).map
            PollMtp.registroPwr).reverse.take 290 := by
  refine ⟨?_, ?_, ?_⟩
  · intro rs d host hf h
    rw [coletasCpu_eq]
    exact lines_escreve_polls h hf
  · intro rs s host hf h
    rw [(fan_pwr_coletas rs s).1, lines_escreve_polls h hf]
    simp only [List.append_cancel_right_eq]
  · intro rs s host hf h
    rw [(fan_pwr_coletas rs s).2, lines_escreve_polls h hf]
    simp only [List.append_cancel_right_eq]

/-- Two runs for a host, the second without an answer. -/
def rodadasPae01 : List RodadaCpu :=
  [⟨fun _ => ⟨⟨111, 7, 3, 1, 53, 42⟩, 1312347222⟩, fun _ => ⟨true, some "7".toList⟩, [mcpae01]⟩,
   ⟨fun _ => ⟨⟨111, 7, 3, 1, 58, 42⟩, 1312347522⟩, fun _ => ⟨true, none⟩, [mcpae01]⟩]

theorem historico_pae01 :
    lines '\n' (conteudo (coletasCpu rodadasPae01 ∅) "mcpae01.pae.psys".toList)
      = ["1312347522;2011-08-03 01:58:42;mcpae01.pae.psys;;\n".toList,
         "1312347222;2011-08-03 01:53:42;mcpae01.pae.psys;7;\n".toList] := by
  have hfim : semFim "mcpae01.pae.psys".toList = "mcpae01.pae.psys".toList := by decide +kernel
  have h := historicos_limitados.1 rodadasPae01 ∅ "mcpae01.pae.psys".toList (AList.notMem_empty _)
    (by unfold UmaLinha; decide +kernel)
  rw [hfim] at h
  rw [h]
  decide +kernel

end SnmpCollector.Snmp
