import SnmpCollector.Leitor.LogColetam

set_option autoImplicit false

/-! # The reader of interface states (`leitor/rep/leitor_coletam.pl`)

The reader goes through a directory of walk logs named `ip-host.txt`. Of every log it keeps
the rows `ifDescr`, `ifAdminStatus` and `ifOperStatus` by their index; for every index with a
description it works out a status, compares it with the status of the line that the last run
left in `info_man.txt` for the same host and interface, writes an event when they differ, and
writes the new line. The time in front of a line is that of the last change.

All hashes are enumerated in an arbitrary order, and so is the directory. `leitor_eq` says
that a run is one pass over the reported interfaces in some order, and `mem_linfot` what is
in the lines it writes.
-/

namespace SnmpCollector.Coletam

open Perl

/-! ## The clock -/

/-- The clock of a run: `time()`, `localtime(time)`, and `localtime` of a text. -/
structure Relogio where
  t : Nat
  agora : Localtime
  localtime : Str → Localtime

/-! ## The status -/

inductive Status where
  | erro
  | up
  | down
  | admDown
  deriving DecidableEq

def Status.texto : Status → Str
  | .erro => "erro".toList
  | .up => "1-up".toList
  | .down => "2-down".toList
  | .admDown => "3-administrativamente down".toList

def Status.cor : Status → Str
  | .erro => "orange".toList
  | .up => "green".toList
  | .down => "red".toList
  | .admDown => "CCCCCC".toList

/-- `$vd`, `$vm`, `$adm` and `$err`. -/
structure Contadores where
  vd : Nat
  vm : Nat
  adm : Nat
  err : Nat

def up1 : Str := "up(1)".toList
def down2 : Str := "down(2)".toList

/-- The chain of tests on the two columns: the status, and the counters it goes through. -/
def classifica (ifAdm ifOper : Str) (n : Contadores) : Status × Contadores :=
  let r := (Status.erro, n)
  let r := if ifAdm = down2 then (.admDown, { r.2 with adm := r.2.adm + 1 }) else r
  let r :=
    if ifAdm = up1 then
      let r := if ifOper = up1 then (.up, { r.2 with vd := r.2.vd + 1 }) else r
      if ifOper = down2 then (.down, { r.2 with vm := r.2.vm + 1 }) else r
    else r
  if r.1 = .erro then (r.1, { r.2 with err := r.2.err + 1 }) else r

/-! ## A run -/

/-- The old lines by host and interface, `%status_o`. -/
def lerStatus (info : Str) : Hash Str Str :=
  load (fun l => field (split ';' l) 1 ++ '_' :: field (split ';' l) 3) id ∅
    ((lines '\n' info).map chomp)

/-- An interface that a log reports: the name of the log, the index, and the three columns;
a row that is missing reads as the empty text. -/
structure Porta where
  dados : Str
  item : Str
  interface : Str
  ifAdm : Str
  ifOper : Str
  deriving DecidableEq

namespace Porta

def ip (p : Porta) : Str := field (split '-' p.dados) 0

def host (p : Porta) : Str := replaceAll ".txt".toList [] (field (split '-' p.dados) 1)

/-- `$chave` -/
def chave (p : Porta) : Str := p.host ++ '_' :: p.interface

def status (p : Porta) : Status := (classifica p.ifAdm p.ifOper ⟨0, 0, 0, 0⟩).1

end Porta

/-- A line of `info_man.txt` and the interface for which it was printed. -/
structure Impressa where
  porta : Porta
  linha : Str

/-- The lines printed so far, `$data_alm`, which is kept from one interface to the next, and
the counters. -/
structure Estado where
  evlog : List Str
  linfot : List Impressa
  dataAlm : Str
  cont : Contadores

def Estado.inicial : Estado := ⟨[], [], [], ⟨0, 0, 0, 0⟩⟩

/-- `info_man.txt` -/
def Estado.infoMan (st : Estado) : Str := delimited '\n' (st.linfot.map Impressa.linha)

def check : Str := "no check".toList

section Run

variable (r : Relogio) (statusO : Hash Str Str)

/-- `@sto` -/
def sto (p : Porta) : List Str := split ';' (fetch statusO p.chave)

/-- `$tx`: the time of the last change. -/
def tx (p : Porta) : Str :=
  if field (sto statusO p) 6 ≠ p.status.texto then decimal r.t else field (sto statusO p) 0

/-- `$data_alm` after the interface. -/
def alarme (p : Porta) : Str :=
  if field (sto statusO p) 6 ≠ p.status.texto then r.agora.dataReg
  else (r.localtime (field (sto statusO p) 0)).dataReg

/-- A line of the event log: `$data_pol` and `$t_pol` are never set, and `$data_alm` is still
that of the interface before. -/
def evento (dataAlm : Str) (p : Porta) : Str :=
  delimited ';' [decimal r.t, p.host, p.ip, p.interface, p.ifAdm, p.ifOper, p.status.texto,
    p.status.cor, check, [], dataAlm, [], field (sto statusO p) 6]

/-- The fields of a line of `info_man.txt`. -/
def camposInfo (p : Porta) : List Str :=
  [tx r statusO p, p.host, p.ip, p.interface, p.ifAdm, p.ifOper, p.status.texto, p.status.cor,
    check, r.agora.dataReg, alarme r statusO p, decimal r.t, field (sto statusO p) 6]

def linhaInfo (p : Porta) : Str := delimited ';' (camposInfo r statusO p)

/-- The body of the loop over the interfaces of a log. -/
def passo (st : Estado) (p : Porta) : Estado where
  evlog := if field (sto statusO p) 6 ≠ p.status.texto
    then st.evlog ++ [evento r statusO st.dataAlm p] else st.evlog
  linfot := st.linfot ++ [⟨p, linhaInfo r statusO p⟩]
  dataAlm := alarme r statusO p
  cont := (classifica p.ifAdm p.ifOper st.cont).2

/-- The interface of the log `dados` under the index `item`. -/
def portaDe (dados : Str) (tb : Tabelas) (item : Str) : Porta :=
  ⟨dados, item, fetch tb.interface item, fetch tb.ifAdm item, fetch tb.ifOper item⟩

/-- The places where an order is not given: the listing of the directory and `%interface`
of each log. -/
inductive Laco where
  | pegoodir
  | interface (dados : Str)

/-- The body of the loop over the directory. -/
def lerArquivo (ordem : KeyOrder Laco Str) (dir : Dir) (st : Estado) (dados : Str) : Estado :=
  if dados = ['.'] then st
  else if dados = ['.', '.'] then st
  else
    let tb := lerLog (lines '\n' (conteudo dir dados))
    (ordem.keys (.interface dados) tb.interface.keys).foldl
      (fun st item => passo r statusO st (portaDe dados tb item)) st

end Run

/-- A run of the reader over the logs in `dir`, with the old `info_man.txt`. -/
def leitorColetam (r : Relogio) (ordem : KeyOrder Laco Str) (dir : Dir) (info : Str) : Estado :=
  (ordem.keys .pegoodir dir.keys).foldl (lerArquivo r (lerStatus info) ordem dir) .inicial

/-- `geral_web_man.txt` -/
def geralWebMan (r : Relogio) (st : Estado) : Str :=
  delimited ';' [decimal r.t, r.agora.dataReg, decimal st.cont.vd, decimal st.cont.vm,
    decimal st.cont.adm, decimal st.cont.err] ++ ['\n']

/-! ## A run as one pass -/

def tabelas (dir : Dir) (dados : Str) : Tabelas := lerLog (lines '\n' (conteudo dir dados))

/-- The interfaces that the log `dados` reports, the indices in the order `itens`. -/
def portasDe (dir : Dir) (dados : Str) (itens : List Str) : List Porta :=
  if dados = ['.'] ∨ dados = ['.', '.'] then [] else itens.map (portaDe dados (tabelas dir dados))

/-- **What the logs report**: for every log the indices with a description and their rows. -/
def relato (dir : Dir) : List Porta :=
  dir.keys.flatMap fun dados => portasDe dir dados (tabelas dir dados).interface.keys

/-- The reported interfaces in the order of a run. -/
def portas (ordem : KeyOrder Laco Str) (dir : Dir) : List Porta :=
  (ordem.keys .pegoodir dir.keys).flatMap fun dados =>
    portasDe dir dados (ordem.keys (.interface dados) (tabelas dir dados).interface.keys)

section Run

variable (r : Relogio) (statusO : Hash Str Str) (ordem : KeyOrder Laco Str) (dir : Dir)

theorem mem_portas {p : Porta} : p ∈ portas ordem dir ↔ p ∈ relato dir := by
  simp only [portas, relato, portasDe, List.mem_flatMap, KeyOrder.mem_keys]
  refine exists_congr fun dados => and_congr_right fun _ => ?_
  split
  · rfl
  · simp only [List.mem_map, KeyOrder.mem_keys]

/-- A log and an index are reported once. -/
theorem nodup_portas : (portas ordem dir).Nodup := by
  have hdados : ∀ dados itens, ∀ p ∈ portasDe dir dados itens, p.dados = dados := by
    intro dados itens p hp
    rw [portasDe] at hp
    split at hp
    · cases hp
    · obtain ⟨item, -, rfl⟩ := List.mem_map.mp hp
      rfl
  rw [portas, List.nodup_flatMap]
  refine ⟨fun dados _ => ?_, ?_⟩
  · rw [portasDe]
    split
    · exact List.nodup_nil
    · refine (ordem.nodup_keys _ (AList.keys_nodup _)).map fun a b h => ?_
      exact congrArg Porta.item h
  · refine (ordem.nodup_keys .pegoodir (AList.keys_nodup _)).imp fun {a b} hab => ?_
    intro p hpa hpb
    exact hab ((hdados _ _ p hpa).symm.trans (hdados _ _ p hpb))

theorem lerArquivo_eq (st : Estado) (dados : Str) :
    lerArquivo r statusO ordem dir st dados =
      (portasDe dir dados (ordem.keys (.interface dados) (tabelas dir dados).interface.keys)).foldl
        (passo r statusO) st := by
  rw [lerArquivo, portasDe]
  by_cases h1 : dados = ['.']
  · rw [if_pos h1, if_pos (Or.inl h1), List.foldl_nil]
  · by_cases h2 : dados = ['.', '.']
    · rw [if_neg h1, if_pos h2, if_pos (Or.inr h2), List.foldl_nil]
    · rw [if_neg h1, if_neg h2, if_neg (not_or.mpr ⟨h1, h2⟩), List.foldl_map]
      rfl

/-- **A run is one pass over the reported interfaces.** -/
theorem leitor_eq (info : Str) :
    leitorColetam r ordem dir info = (portas ordem dir).foldl (passo r (lerStatus info)) .inicial := by
  rw [leitorColetam, portas, List.foldl_flatMap]
  congr 1
  funext st dados
  exact lerArquivo_eq r _ ordem dir st dados

/-- One line is written for every interface. -/
theorem linfot_foldl_passo (ps : List Porta) (st : Estado) :
    (ps.foldl (passo r statusO) st).linfot
      = st.linfot ++ ps.map fun p => ⟨p, linhaInfo r statusO p⟩ := by
  induction ps generalizing st with
  | nil => simp
  | cons p ps ih =>
      rw [List.foldl_cons, ih, passo, List.append_assoc]
      rfl

/-- No event is written when every old status is the new one, and only then. -/
theorem evlog_foldl_passo_eq_nil (ps : List Porta) (st : Estado) :
    (ps.foldl (passo r statusO) st).evlog = [] ↔
      st.evlog = [] ∧ ∀ p ∈ ps, field (sto statusO p) 6 = p.status.texto := by
  induction ps generalizing st with
  | nil => simp
  | cons p ps ih =>
      rw [List.foldl_cons, ih, List.forall_mem_cons, ← and_assoc]
      refine and_congr_left fun _ => ?_
      rw [passo]
      by_cases hp : field (sto statusO p) 6 = p.status.texto
      · simp [hp]
      · simp [hp]

/-- The lines of a run are those of the reported interfaces. -/
theorem mem_linfot {r : Relogio} {ordem : KeyOrder Laco Str} {dir : Dir} {info : Str} {l : Impressa} :
    l ∈ (leitorColetam r ordem dir info).linfot ↔
      ∃ p ∈ relato dir, l = ⟨p, linhaInfo r (lerStatus info) p⟩ := by
  rw [leitor_eq, linfot_foldl_passo, Estado.inicial, List.nil_append, List.mem_map]
  simp only [mem_portas, eq_comm]

theorem evlog_eq_nil {r : Relogio} {ordem : KeyOrder Laco Str} {dir : Dir} {info : Str} :
    (leitorColetam r ordem dir info).evlog = [] ↔
      ∀ p ∈ relato dir, field (sto (lerStatus info) p) 6 = p.status.texto := by
  rw [leitor_eq, evlog_foldl_passo_eq_nil]
  simp only [Estado.inicial, true_and, mem_portas]

/-- The interface with a given log and index is the only one. -/
theorem eq_portaDe_of_mem_relato {p : Porta} (hp : p ∈ relato dir) :
    p = portaDe p.dados (tabelas dir p.dados) p.item := by
  obtain ⟨dados, -, h⟩ := List.mem_flatMap.mp hp
  rw [portasDe] at h
  split at h
  · cases h
  · obtain ⟨item, -, rfl⟩ := List.mem_map.mp h
    rfl

end Run

/-! ## What is read back -/

/-- A text that comes back when it is printed as a field of a line. -/
structure Campo (s : Str) : Prop where
  sep : ';' ∉ s
  linha : UmaLinha s

theorem Campo.subset {a b : Str} (h : Campo b) (hab : a ⊆ b) : Campo a :=
  ⟨fun hc => h.sep (hab hc), h.linha.subset hab⟩

theorem campo_of_forall {s : Str} (h : ∀ c ∈ s, c ∈ ['-', ':', ' '] ∨ c.isDigit = true) : Campo s := by
  refine ⟨fun hc => ?_, fun hc => ?_, fun hc => ?_⟩
  · exact absurd (h _ hc) (by decide)
  · exact absurd (h _ hc) (by decide)
  · exact absurd (h _ hc) (by decide)

theorem campo_decimal (n : Nat) : Campo (decimal n) :=
  campo_of_forall fun _ hc => Or.inr (isDigit_of_mem_decimal hc)

theorem campo_dataReg (h : Localtime) : Campo h.dataReg := by
  refine campo_of_forall fun c hc => ?_
  rcases Localtime.mem_dataReg hc with rfl | rfl | rfl | hd
  · simp
  · simp
  · simp
  · exact Or.inr hd

theorem Status.campo_texto (s : Status) : Campo s.texto := by
  cases s <;> (unfold Status.texto; exact ⟨by simp, by simp [UmaLinha]⟩)

theorem Status.campo_cor (s : Status) : Campo s.cor := by
  cases s <;> (unfold Status.cor; exact ⟨by simp, by simp [UmaLinha]⟩)

theorem Status.texto_injective {s s' : Status} (h : s.texto = s'.texto) : s = s' := by
  revert h
  cases s <;> cases s' <;> decide

theorem campo_check : Campo check := by
  unfold check
  exact ⟨by simp, by simp [UmaLinha]⟩

/-- The name of the log and the columns of an interface come back when they are printed. -/
structure Porta.Limpa (p : Porta) : Prop where
  dados : Campo p.dados
  interface : Campo p.interface
  ifAdm : Campo p.ifAdm
  ifOper : Campo p.ifOper

/-- No column of a reported interface holds a line break. -/
theorem limpa_of_campos {dir : Dir} (h : ∀ p ∈ relato dir,
    Campo p.dados ∧ ';' ∉ p.interface ∧ ';' ∉ p.ifAdm ∧ ';' ∉ p.ifOper) :
    ∀ p ∈ relato dir, p.Limpa := by
  intro p hp
  have hcol : UmaLinha p.interface ∧ UmaLinha p.ifAdm ∧ UmaLinha p.ifOper := by
    rw [eq_portaDe_of_mem_relato dir hp]
    exact ⟨umaLinha_fetch_coluna _ .ifDescr _, umaLinha_fetch_coluna _ .ifAdminStatus _,
      umaLinha_fetch_coluna _ .ifOperStatus _⟩
  obtain ⟨hd, hi, ha, ho⟩ := h p hp
  exact ⟨hd, ⟨hi, hcol.1⟩, ⟨ha, hcol.2.1⟩, ⟨ho, hcol.2.2⟩⟩

theorem Porta.Limpa.campo_ip {p : Porta} (h : p.Limpa) : Campo p.ip :=
  h.dados.subset (field_split_spec '-' p.dados 0).2

theorem Porta.Limpa.campo_host {p : Porta} (h : p.Limpa) : Campo p.host := by
  refine h.dados.subset fun c hc => ?_
  rcases mem_replaceAll hc with hc | hc
  · cases hc
  · exact (field_split_spec '-' p.dados 1).2 hc

section Linhas

variable (r : Relogio) (info : Str) {p : Porta}

/-- A field of an old line. -/
theorem campo_sto (p : Porta) (n : Nat) : Campo (field (sto (lerStatus info) p) n) := by
  obtain ⟨hsep, hsub⟩ := field_split_spec ';' (fetch (lerStatus info) p.chave) n
  refine ⟨hsep, UmaLinha.subset ?_ hsub⟩
  rw [fetch, lerStatus, lookup_load]
  cases hl : lastSuch _ ((lines '\n' info).map chomp) with
  | none => simp [UmaLinha]
  | some l =>
      obtain ⟨l', -, rfl⟩ := List.mem_map.mp (lastSuch_eq_some hl).1
      exact umaLinha_chomp l'

theorem campo_camposInfo (hp : p.Limpa) : ∀ f ∈ camposInfo r (lerStatus info) p, Campo f := by
  have htx : Campo (tx r (lerStatus info) p) := by
    unfold tx
    split
    · exact campo_decimal _
    · exact campo_sto info p 0
  have halm : Campo (alarme r (lerStatus info) p) := by
    unfold alarme
    split <;> exact campo_dataReg _
  intro f hf
  simp only [camposInfo, List.mem_cons, List.not_mem_nil, or_false] at hf
  rcases hf with rfl | rfl | rfl | rfl | rfl | rfl | rfl | rfl | rfl | rfl | rfl | rfl | rfl
  · exact htx
  · exact hp.campo_host
  · exact hp.campo_ip
  · exact hp.interface
  · exact hp.ifAdm
  · exact hp.ifOper
  · exact p.status.campo_texto
  · exact p.status.campo_cor
  · exact campo_check
  · exact campo_dataReg _
  · exact halm
  · exact campo_decimal _
  · exact campo_sto info p 6

/-- The fields of a line of `info_man.txt` come back. -/
theorem field_linhaInfo (hp : p.Limpa) {n : Nat} (hn : n < 13) :
    field (split ';' (linhaInfo r (lerStatus info) p)) n
      = field (camposInfo r (lerStatus info) p) n := by
  have h := field_split_delimited (fun f hf => (campo_camposInfo r info hp f hf).sep) [] (n := n) hn
  rwa [List.append_nil] at h

theorem umaLinha_linhaInfo (hp : p.Limpa) : UmaLinha (linhaInfo r (lerStatus info) p) := by
  refine ⟨fun h => ?_, fun h => ?_⟩
  · rcases mem_delimited h with h | ⟨f, hf, h⟩
    · cases h
    · exact (campo_camposInfo r info hp f hf).linha.1 h
  · rcases mem_delimited h with h | ⟨f, hf, h⟩
    · cases h
    · exact (campo_camposInfo r info hp f hf).linha.2 h

variable {ordem : KeyOrder Laco Str} {dir : Dir}

/-- **What the next run finds** under a key: the line of the last interface with this key. -/
theorem lookup_lerStatus_infoMan (hl : ∀ p ∈ relato dir, p.Limpa) (k : Str) :
    (lerStatus (leitorColetam r ordem dir info).infoMan).lookup k
      = (lastSuch (fun p => decide (p.chave = k)) (portas ordem dir)).map
          (linhaInfo r (lerStatus info)) := by
  have hlimpa : ∀ p ∈ portas ordem dir, p.Limpa := fun p hp => hl p ((mem_portas ordem dir).mp hp)
  have hls : ((lines '\n' (leitorColetam r ordem dir info).infoMan).map chomp)
      = (portas ordem dir).map (linhaInfo r (lerStatus info)) := by
    rw [Estado.infoMan, leitor_eq, linfot_foldl_passo, Estado.inicial, List.nil_append, List.map_map,
      lines_delimited, List.map_map, List.map_map]
    · refine List.map_congr_left fun p hp => ?_
      have hu := umaLinha_linhaInfo r info (hlimpa p hp)
      show chomp (linhaInfo r (lerStatus info) p ++ ['\n']) = _
      rw [chomp, List.filter_append, ← chomp, chomp_eq_self hu.1 hu.2]
      simp
    · intro l h
      obtain ⟨p, hp, rfl⟩ := List.mem_map.mp h
      exact (umaLinha_linhaInfo r info (hlimpa p hp)).1
  rw [lerStatus, lookup_load, hls, lastSuch_map, AList.lookup_empty, Option.or_none, Option.map_id]
  refine congrArg (Option.map (linhaInfo r (lerStatus info))) (lastSuch_congr fun p hp => ?_)
  -- the key of a line is the key of its interface
  have h1 := field_linhaInfo r info (hlimpa p hp) (n := 1) (by omega)
  have h3 := field_linhaInfo r info (hlimpa p hp) (n := 3) (by omega)
  rw [Function.comp_apply, h1, h3]
  rfl

end Linhas

end SnmpCollector.Coletam
