import SnmpCollector.Basic
import SnmpCollector.Perl.Exit
import SnmpCollector.Perl.History

set_option autoImplicit false

/-! # Polling memory, temperature, fans and power (`snmp/coleta_mem_temp_pwr.pl`)

For each selected host of the hosts list the script requests eleven SNMP tables, joins their
columns by the index of the row, and puts one record per memory pool and per temperature
sensor, and one for all fans and all power supplies, in front of a history file. A request
that fails is only reported and gives an empty table.

A history file is read, truncated and written again: the new record first, then at most 289
of the old lines. For memory the file is truncated before the percentage is computed, and
with both counters zero or missing the division ends the program there.

`mem_coleta` says what a run leaves in the directory of the memory histories: it is what the
sequence of its `eventos` does, one after the other. `historia_iff` says which answers let
a run keep the histories and reach all hosts.
-/

namespace SnmpCollector.Snmp

open Perl

/-! ## Requests -/

/-- What `get_table` returns for an OID; the empty table when the request fails. -/
abbrev Agente := Str → Hash Str Str

/-- The loops over the keys of a hash. -/
inductive Laco where
  | coluna (oid : Str)
  | mem
  | temp

/-- What a host answers while it is visited: whether the session is created, the tables, and
the order in which the loops enumerate their keys. -/
structure Visita where
  sessao : Bool
  agente : Agente
  ordem : KeyOrder Laco Str

def oidMemTipo : Str := "1.3.6.1.4.1.9.9.48.1.1.1.2".toList
def oidMemFree : Str := "1.3.6.1.4.1.9.9.48.1.1.1.5".toList
def oidMemUtl : Str := "1.3.6.1.4.1.9.9.48.1.1.1.6".toList
def temperaturaNome : Str := "1.3.6.1.4.1.9.9.13.1.3.1.2".toList
def temperaturaMedida : Str := "1.3.6.1.4.1.9.9.13.1.3.1.3".toList
def temperaturaLimiar : Str := "1.3.6.1.4.1.9.9.13.1.3.1.4".toList
def temperaturaStatus : Str := "1.3.6.1.4.1.9.9.13.1.3.1.6".toList
def oidFanNome : Str := "1.3.6.1.4.1.9.9.13.1.4.1.2".toList
def oidFanStatus : Str := "1.3.6.1.4.1.9.9.13.1.4.1.3".toList
def oidPwrNome : Str := "1.3.6.1.4.1.9.9.13.1.5.1.2".toList
def oidPwrStatus : Str := "1.3.6.1.4.1.9.9.13.1.5.1.3".toList

/-- One column: every row is stored under its key with the OID of the column removed. -/
def lerColuna (v : Visita) (oid : Str) : Hash Str Str :=
  load (replaceAll oid []) (fetch (v.agente oid)) ∅
    (v.ordem.keys (.coluna oid) (v.agente oid).keys)

/-- The OID of a column is removed from the front of a key and found nowhere else in it. -/
theorem replaceAll_oid {oid : Str} (hoid : 2 ≤ oid.count '.') (n : Nat) :
    replaceAll oid [] (oid ++ '.' :: decimal n) = '.' :: decimal n := by
  have hnot : ¬ oid <:+: '.' :: decimal n := by
    intro h
    have hcount := h.sublist.count_le '.'
    have hzero : (decimal n).count '.' = 0 :=
      List.count_eq_zero.mpr fun hd => absurd (isDigit_of_mem_decimal hd) (by decide)
    rw [List.count_cons_self, hzero] at hcount
    omega
  obtain ⟨x, p, rfl⟩ := List.exists_cons_of_ne_nil (l := oid) (by rintro rfl; simp at hoid)
  rw [replaceAll_append_self, replaceAll_of_not_infix hnot]
  rfl

/-- A column holds under an index what the table holds under its key. -/
theorem lookup_lerColuna {v : Visita} {oid : Str} (hoid : 2 ≤ oid.count '.')
    (hkeys : ∀ k ∈ v.agente oid, ∃ n, k = oid ++ '.' :: decimal n) (n : Nat) :
    (lerColuna v oid).lookup ('.' :: decimal n) = (v.agente oid).lookup (oid ++ '.' :: decimal n) := by
  have hinj : ∀ k ∈ v.ordem.keys (.coluna oid) (v.agente oid).keys,
      decide (replaceAll oid [] k = '.' :: decimal n) = decide (k = oid ++ '.' :: decimal n) := by
    intro k hk
    rw [v.ordem.mem_keys, ← AList.mem_keys] at hk
    obtain ⟨m, rfl⟩ := hkeys k hk
    rw [replaceAll_oid hoid]
    simp
  rw [lerColuna, lookup_load, AList.lookup_empty, Option.or_none, lastSuch_congr hinj]
  cases hl : (v.agente oid).lookup (oid ++ '.' :: decimal n) with
  | none =>
      have hnone : lastSuch (fun k => decide (k = oid ++ '.' :: decimal n))
          (v.ordem.keys (.coluna oid) (v.agente oid).keys) = none := by
        rw [lastSuch_eq_none]
        intro k hk hp
        rw [v.ordem.mem_keys, ← AList.mem_keys] at hk
        rw [of_decide_eq_true hp, ← AList.lookup_isSome, hl] at hk
        cases hk
      rw [hnone]
      rfl
  | some x =>
      have hmem : oid ++ '.' :: decimal n ∈ v.ordem.keys (.coluna oid) (v.agente oid).keys := by
        rw [v.ordem.mem_keys, ← AList.mem_keys, ← AList.lookup_isSome, hl]
        rfl
      have hsome := lastSuch_eq_of_unique (p := fun k => decide (k = oid ++ '.' :: decimal n)) hmem
        (by simp) (fun y _ hy => of_decide_eq_true hy)
      rw [hsome, Option.map_some, fetch, hl]
      rfl

def hMemNome (v : Visita) : Hash Str Str := lerColuna v oidMemTipo
def hMemFree (v : Visita) : Hash Str Str := lerColuna v oidMemFree
def hMemUtl (v : Visita) : Hash Str Str := lerColuna v oidMemUtl
def hTempNome (v : Visita) : Hash Str Str := lerColuna v temperaturaNome
def hTempMedida (v : Visita) : Hash Str Str := lerColuna v temperaturaMedida
def hTempLimiar (v : Visita) : Hash Str Str := lerColuna v temperaturaLimiar
def hTempStatus (v : Visita) : Hash Str Str := lerColuna v temperaturaStatus
def hFanNome (v : Visita) : Hash Str Str := lerColuna v oidFanNome
def hFanStatus (v : Visita) : Hash Str Str := lerColuna v oidFanStatus
def hPwrNome (v : Visita) : Hash Str Str := lerColuna v oidPwrNome
def hPwrStatus (v : Visita) : Hash Str Str := lerColuna v oidPwrStatus

/-! ## Records -/

/-- `time()` and `localtime(time)`. -/
structure Hora extends Localtime where
  t : Nat
  deriving DecidableEq

/-- Each of the characters `cs` replaced by `_`. -/
def sublinha (cs s : Str) : Str := s.map fun c => if c ∈ cs then '_' else c

/-- The file that `open` finds under a name: white space at the end is not part of it. -/
def semFim (s : Str) : Str := s.rdropWhile isSpace

/-- The copy loop: `c` counts the lines, the one that makes it exceed 288 is the last. -/
def copia (c : Nat) : List Str → Str
  | [] => []
  | lin :: inf => lin ++ if c + 1 > 288 then [] else copia (c + 1) inf

/-- A history file read, truncated, and written with `registro` in front. -/
def grava (d : Dir) (nomeArq registro : Str) : Dir :=
  d.insert nomeArq (registro ++ copia 0 (lines '\n' (conteudo d nomeArq)))

/-! ### Memory -/

/-- One round of the loop over the memory pools: the fields it takes from the tables. -/
structure Gravacao where
  hostname : Str
  nome : Str
  free : Str
  utl : Str
  deriving DecidableEq

namespace Gravacao

variable (g : Gravacao)

def nomeArq : Str := semFim (g.hostname ++ '-' :: sublinha ['/'] g.nome)

/-- The divisor of the percentage. -/
def soma : ℚ := numify g.utl + numify g.free

/-- The percentage before it is printed with two decimals. -/
def memPct : ℚ := numify g.utl / g.soma * 100

/-- The round ends in a division by zero. -/
def morre : Bool := decide (g.soma = 0)

def registro (h : Hora) : Str :=
  delimited ';' [decimal h.t, h.dataReg, g.hostname, g.nome, g.free, g.utl, fixed2 g.memPct]
    ++ ['\n']

end Gravacao

/-- The round for the index `it`. -/
def gravacao (v : Visita) (hostname it : Str) : Gravacao :=
  ⟨hostname, fetch (hMemNome v) it, fetch (hMemFree v) it, fetch (hMemUtl v) it⟩

/-- The rounds of the loop over the memory pools, in the order in which they are made. -/
def gravacoes (v : Visita) (hostname : Str) : List Gravacao :=
  (v.ordem.keys .mem (hMemNome v).keys).map (gravacao v hostname)

/-- One round: the file is truncated before the division. -/
def gravaMem (h : Hora) (d : Dir) (g : Gravacao) : Except Dir Dir :=
  if g.morre then .error (d.insert g.nomeArq []) else .ok (grava d g.nomeArq (g.registro h))

/-! ### Temperature, fans and power -/

def gravaTemp (h : Hora) (v : Visita) (hostname : Str) (d : Dir) (it : Str) : Dir :=
  let nomeMem := sublinha ['/', '\\', ' ', ')', '('] (fetch (hTempNome v) it)
  grava d (semFim (hostname ++ '-' :: nomeMem))
    (delimited ';' [decimal h.t, h.dataReg, hostname, fetch (hTempNome v) it,
      fetch (hTempMedida v) it, fetch (hTempLimiar v) it, fetch (hTempStatus v) it] ++ ['\n'])

/-- The record of all fans, or of all power supplies: name and status of each, by `sort`ed
index. -/
def registroStatus (h : Hora) (hostname : Str) (nome status : Hash Str Str) : Str :=
  delimited ';' ([decimal h.t, h.dataReg, hostname] ++
    (nome.keys.insertionSort (· ≤ ·)).flatMap fun it => [fetch nome it, fetch status it]) ++ ['\n']

def gravaFan (h : Hora) (v : Visita) (hostname : Str) (d : Dir) : Dir :=
  grava d (hostname ++ "_fan".toList) (registroStatus h hostname (hFanNome v) (hFanStatus v))

def gravaPwr (h : Hora) (v : Visita) (hostname : Str) (d : Dir) : Dir :=
  grava d (hostname ++ "_pwr".toList) (registroStatus h hostname (hPwrNome v) (hPwrStatus v))

/-! ## The run -/

/-- The four directories of histories, and the hosts whose tables have been requested. -/
structure Estado where
  mem : Dir
  temp : Dir
  fan : Dir
  pwr : Dir
  consultados : List Str

/-- The part of the loop body after the session is created. -/
def coletaHost (h : Hora) (v : Visita) (hostname : Str) (s : Estado) : Except Estado Estado :=
  let s := { s with consultados := s.consultados ++ [hostname] }
  match (gravacoes v hostname).foldlM (gravaMem h) s.mem with
  | .error mem => .error { s with mem := mem }
  | .ok mem =>
      .ok { s with
        mem := mem
        temp := (v.ordem.keys .temp (hTempNome v).keys).foldl (gravaTemp h v hostname) s.temp
        fan := gravaFan h v hostname s.fan
        pwr := gravaPwr h v hostname s.pwr }

def hostname (lint : Str) : Str := field (split ';' (chomp lint)) 0

/-- `$hostname=~/\.psys|\.cti/` -/
def selecionado (lint : Str) : Bool :=
  contem ".psys".toList (hostname lint) || contem ".cti".toList (hostname lint)

section Run

-- the clock and the answers of the host, by the number of the line
variable (rel : Nat → Hora) (visitas : Nat → Visita)

/-- The loop body: a line of the hosts list and its number. -/
def passo (s : Estado) (l : Str × Nat) : Except Estado Estado :=
  if selecionado l.1 then
    if (visitas l.2).sessao then coletaHost (rel l.2) (visitas l.2) (hostname l.1) s else .error s
  else .ok s

/-- A run over the hosts list; `error` when it ends before the end of the list. -/
def coleta (pingT : List Str) (s : Estado) : Except Estado Estado :=
  pingT.zipIdx.foldlM (passo rel visitas) s

/-! ## What a run does to the memory histories -/

/-- A round of the loop over the memory pools, with the time of the visit. -/
abbrev Evento := Hora × Gravacao

/-- What a round leaves in the directory. -/
def executa (d : Dir) (e : Evento) : Dir := fim (gravaMem e.1 d e.2)

/-- The line ends the run: the session is not created, or a round ends in the division. -/
def para (l : Str × Nat) : Bool :=
  selecionado l.1 &&
    (!(visitas l.2).sessao || (gravacoes (visitas l.2) (hostname l.1)).any Gravacao.morre)

/-- The tables of the host of the line are requested. -/
def consultado (l : Str × Nat) : Bool := selecionado l.1 && (visitas l.2).sessao

/-- The rounds that are made for a line. -/
def rodadasLinha (l : Str × Nat) : List Gravacao :=
  if consultado visitas l then upTo Gravacao.morre (gravacoes (visitas l.2) (hostname l.1)) else []

@[inherit_doc rodadasLinha]
def eventosLinha (l : Str × Nat) : List Evento := (rodadasLinha visitas l).map (rel l.2, ·)

/-- The lines a run gets to. -/
def alcancadas (pingT : List Str) : List (Str × Nat) := upTo (para visitas) pingT.zipIdx

/-- The rounds that are made in a run. -/
def rodadas (pingT : List Str) : List Gravacao :=
  (alcancadas visitas pingT).flatMap (rodadasLinha visitas)

@[inherit_doc rodadas]
def eventos (pingT : List Str) : List Evento :=
  (alcancadas visitas pingT).flatMap (eventosLinha rel visitas)

theorem foldlM_gravaMem (h : Hora) (gs : List Gravacao) (d : Dir) :
    gs.foldlM (gravaMem h) d =
      if gs.any Gravacao.morre then
        .error (((upTo Gravacao.morre gs).map (h, ·)).foldl executa d)
      else .ok (((upTo Gravacao.morre gs).map (h, ·)).foldl executa d) := by
  have hstep : ∀ (d : Dir) (g : Gravacao), gravaMem h d g =
      if g.morre then .error (fim (gravaMem h d g)) else .ok (fim (gravaMem h d g)) := by
    intro d g
    unfold gravaMem
    split <;> rfl
  rw [foldlM_upTo hstep, List.foldl_map]
  rfl

/-- One line: whether it ends the run, the memory histories, and the hosts requested. -/
theorem passo_eq (s : Estado) (l : Str × Nat) :
    ∃ s', passo rel visitas s l = (if para visitas l then .error s' else .ok s') ∧
      s'.mem = (eventosLinha rel visitas l).foldl executa s.mem ∧
      s'.consultados = s.consultados ++ if consultado visitas l then [hostname l.1] else [] := by
  unfold passo para eventosLinha rodadasLinha consultado
  by_cases hsel : selecionado l.1 = true
  · by_cases hses : (visitas l.2).sessao = true
    · simp only [hsel, hses, if_true, Bool.and_true, Bool.true_and, Bool.not_true,
        Bool.false_or, coletaHost, foldlM_gravaMem]
      by_cases hm : (gravacoes (visitas l.2) (hostname l.1)).any Gravacao.morre = true
      · simp only [hm, if_true]
        exact ⟨_, rfl, rfl, rfl⟩
      · simp only [hm]
        exact ⟨_, rfl, rfl, rfl⟩
    · simp only [hsel, hses, if_true, Bool.true_and, Bool.not_false, Bool.true_or]
      exact ⟨s, rfl, rfl, by simp⟩
  · simp only [hsel, Bool.false_and]
    exact ⟨s, rfl, rfl, by simp⟩

theorem passo_eq_fim (s : Estado) (l : Str × Nat) : passo rel visitas s l =
    if para visitas l then .error (fim (passo rel visitas s l))
    else .ok (fim (passo rel visitas s l)) := by
  obtain ⟨s', hs', -, -⟩ := passo_eq rel visitas s l
  rw [hs']
  split <;> rfl

theorem fim_passo (s : Estado) (l : Str × Nat) :
    (fim (passo rel visitas s l)).mem = (eventosLinha rel visitas l).foldl executa s.mem ∧
    (fim (passo rel visitas s l)).consultados
      = s.consultados ++ if consultado visitas l then [hostname l.1] else [] := by
  obtain ⟨s', hs', hmem, hcons⟩ := passo_eq rel visitas s l
  have hfim : fim (passo rel visitas s l) = s' := by
    rw [hs']
    split <;> rfl
  rw [hfim]
  exact ⟨hmem, hcons⟩

/-- **The memory histories after a run** are what its rounds leave, one after the other. -/
theorem mem_coleta (pingT : List Str) (s : Estado) :
    (fim (coleta rel visitas pingT s)).mem = (eventos rel visitas pingT).foldl executa s.mem := by
  rw [coleta, fim_foldlM_upTo (passo_eq_fim rel visitas), eventos, alcancadas]
  induction upTo (para visitas) pingT.zipIdx generalizing s with
  | nil => rfl
  | cons l ls ih =>
      rw [List.foldl_cons, ih, (fim_passo rel visitas s l).1, List.flatMap_cons, List.foldl_append]

theorem map_snd_eventos (pingT : List Str) :
    (eventos rel visitas pingT).map Prod.snd = rodadas visitas pingT := by
  rw [eventos, rodadas, List.map_flatMap]
  refine List.flatMap_congr fun l _ => ?_
  simp [eventosLinha]

/-- Only the last round of a run can end in the division by zero. -/
theorem rodadas_morre (pingT : List Str) :
    (∀ g ∈ rodadas visitas pingT, g.morre = false) ∨
    ∃ pre g, rodadas visitas pingT = pre ++ [g] ∧ g.morre = true ∧ ∀ x ∈ pre, x.morre = false := by
  have hline : ∀ l, para visitas l = false → ∀ g ∈ rodadasLinha visitas l, g.morre = false := by
    intro l hl g hg
    unfold rodadasLinha at hg
    split at hg
    · rename_i hc
      have hc' : selecionado l.1 = true ∧ (visitas l.2).sessao = true := by
        simpa [consultado] using hc
      simp only [para, hc'.1, hc'.2, Bool.true_and, Bool.not_true, Bool.false_or,
        List.any_eq_false] at hl
      simpa using hl g (upTo_subset _ _ hg)
    · simp at hg
  unfold rodadas alcancadas
  by_cases hany : pingT.zipIdx.any (para visitas) = true
  · obtain ⟨pre, l, heq, hl, hpre⟩ := upTo_eq_concat hany
    have hbefore : ∀ g ∈ pre.flatMap (rodadasLinha visitas), g.morre = false := by
      intro g hg
      obtain ⟨l', hl', hg'⟩ := List.mem_flatMap.mp hg
      exact hline l' (hpre l' hl') g hg'
    rw [heq, List.flatMap_append, List.flatMap_singleton]
    -- the last line either made no round at all or ended in its last one
    by_cases hm : consultado visitas l = true
        ∧ (gravacoes (visitas l.2) (hostname l.1)).any Gravacao.morre = true
    · obtain ⟨pre', g, heq', hg, hpre'⟩ := upTo_eq_concat hm.2
      refine Or.inr ⟨pre.flatMap (rodadasLinha visitas) ++ pre', g, ?_, hg, fun x hx => ?_⟩
      · rw [rodadasLinha, if_pos hm.1, heq', List.append_assoc]
      · rcases List.mem_append.mp hx with hx | hx
        · exact hbefore x hx
        · exact hpre' x hx
    · left
      intro g hg
      rcases List.mem_append.mp hg with hg | hg
      · exact hbefore g hg
      · unfold rodadasLinha at hg
        split at hg
        · rename_i hc
          have hno : (gravacoes (visitas l.2) (hostname l.1)).any Gravacao.morre = false := by
            simpa using fun h => hm ⟨hc, h⟩
          simpa using List.any_eq_false.mp hno g (upTo_subset _ _ hg)
        · simp at hg
  · left
    intro g hg
    obtain ⟨l, hl, hg'⟩ := List.mem_flatMap.mp hg
    have hp : para visitas l = false := by
      simpa using List.any_eq_false.mp (by simpa using hany) l (upTo_subset _ _ hl)
    exact hline l hp g hg'

theorem consultados_coleta (pingT : List Str) (s : Estado) :
    (fim (coleta rel visitas pingT s)).consultados
      = s.consultados
        ++ ((alcancadas visitas pingT).filter (consultado visitas)).map (hostname ·.1) := by
  rw [coleta, fim_foldlM_upTo (passo_eq_fim rel visitas), alcancadas]
  induction upTo (para visitas) pingT.zipIdx generalizing s with
  | nil => simp
  | cons l ls ih =>
      rw [List.foldl_cons, ih, (fim_passo rel visitas s l).2, List.filter_cons]
      split <;> simp

end Run

/-! ### The lines of one file -/

theorem copia_eq_take {c : Nat} (hc : c ≤ 288) (inf : List Str) :
    copia c inf = (inf.take (289 - c)).flatten := by
  induction inf generalizing c with
  | nil => simp [copia]
  | cons lin inf ih =>
      obtain ⟨m, hm⟩ : ∃ m, 289 - c = m + 1 := ⟨288 - c, by omega⟩
      rw [copia, hm, List.take_succ_cons, List.flatten_cons]
      congr 1
      split
      · have hz : m = 0 := by omega
        simp [hz]
      · rw [ih (by omega), show 289 - (c + 1) = m by omega]

/-- The lines of a history file: those of the record, then the first 289 of the old ones. -/
theorem lines_grava {r : Str} (hr : ∃ a, r = a ++ ['\n']) (d : Dir) (nomeArq f : Str) :
    lines '\n' (conteudo (grava d nomeArq r) f)
      = if nomeArq = f then push 289 (lines '\n' (conteudo d f)) (lines '\n' r)
        else lines '\n' (conteudo d f) := by
  by_cases hf : nomeArq = f
  · subst hf
    obtain ⟨a, rfl⟩ := hr
    rw [if_pos rfl, grava, conteudo_insert_self, copia_eq_take (by omega), List.append_assoc,
      List.singleton_append, lines_terminated_append, lines_flatten_take, push]
  · rw [if_neg hf, grava, conteudo_insert_ne d (Ne.symm hf)]

/-- What a round does to the lines of its file. -/
def efeito (ls : List Str) (e : Evento) : List Str :=
  if e.2.morre then [] else push 289 ls (lines '\n' (e.2.registro e.1))

theorem lines_executa (d : Dir) (e : Evento) (f : Str) :
    lines '\n' (conteudo (executa d e) f)
      = if e.2.nomeArq = f then efeito (lines '\n' (conteudo d f)) e
        else lines '\n' (conteudo d f) := by
  unfold executa gravaMem efeito
  by_cases hm : e.2.morre = true
  · rw [if_pos hm, if_pos hm, fim_error]
    by_cases hf : e.2.nomeArq = f
    · rw [if_pos hf, ← hf, conteudo_insert_self]
      rfl
    · rw [if_neg hf, conteudo_insert_ne d (Ne.symm hf)]
  · rw [if_neg hm, if_neg hm, fim_ok]
    exact lines_grava ⟨_, rfl⟩ d _ f

/-- **The lines of a file after a sequence of rounds**: only the rounds for this file count. -/
theorem lines_foldl_executa (es : List Evento) (d : Dir) (f : Str) :
    lines '\n' (conteudo (es.foldl executa d) f)
      = (es.filter (fun e => decide (e.2.nomeArq = f))).foldl efeito (lines '\n' (conteudo d f)) := by
  induction es generalizing d with
  | nil => rfl
  | cons e es ih =>
      rw [List.foldl_cons, ih, lines_executa, List.filter_cons]
      by_cases hf : e.2.nomeArq = f
      · simp [hf]
      · simp [hf]

/-- A sequence of rounds without a division by zero pushes their records. -/
theorem foldl_efeito {es : List Evento} (h : ∀ e ∈ es, e.2.morre = false) (ls : List Str) :
    es.foldl efeito ls = (es.map fun e => lines '\n' (e.2.registro e.1)).foldl (push 289) ls := by
  induction es generalizing ls with
  | nil => rfl
  | cons e es ih =>
      rw [List.foldl_cons, List.map_cons, List.foldl_cons, ih (fun x hx => h x (by simp [hx])),
        efeito, if_neg (by simp [h e (by simp)])]

end SnmpCollector.Snmp
