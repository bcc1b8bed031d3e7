import SnmpCollector.Leitor.Coletam

set_option autoImplicit false

/-! # The totals of a run (`leitor/rep/leitor_coletam.pl`, lines 176 to 261)

The four counters of `geral_web_man.txt` are kept by the chain of tests that works out the
status of an interface. A turn of the chain goes through one counter, that of the status it
ends with (`classifica_eq`), for all texts in the two columns; so the counters of a run are
the numbers of its lines by status.

`totais` says this of every run, and that there is one line for each log and each index that
has a row `ifDescr` in it.
-/

namespace SnmpCollector.Coletam

open Perl

/-! ## The chain of tests -/

/-- The status of an interface with the two columns. -/
def statusDe (ifAdm ifOper : Str) : Status :=
  if ifAdm = down2 then .admDown
  else if ifAdm = up1 then
    if ifOper = up1 then .up else if ifOper = down2 then .down else .erro
  else .erro

namespace Contadores

/-- The counter of a status. -/
def de (n : Contadores) : Status → Nat
  | .erro => n.err
  | .up => n.vd
  | .down => n.vm
  | .admDown => n.adm

/-- One more interface with the status. -/
def conta (n : Contadores) : Status → Contadores
  | .erro => { n with err := n.err + 1 }
  | .up => { n with vd := n.vd + 1 }
  | .down => { n with vm := n.vm + 1 }
  | .admDown => { n with adm := n.adm + 1 }

theorem de_conta (n : Contadores) (s s' : Status) :
    (n.conta s).de s' = n.de s' + if s = s' then 1 else 0 := by
  cases s <;> cases s' <;> rfl

end Contadores

/-- **A turn of the chain goes through one counter**, that of the status it ends with. -/
theorem classifica_eq (ifAdm ifOper : Str) (n : Contadores) :
    classifica ifAdm ifOper n = (statusDe ifAdm ifOper, n.conta (statusDe ifAdm ifOper)) := by
  have hne : up1 ≠ down2 := by decide
  unfold classifica statusDe
  by_cases hdown : ifAdm = down2
  · have hup : ifAdm ≠ up1 := fun h => hne (h.symm.trans hdown)
    simp [hdown, hne.symm, Contadores.conta]
  · by_cases hup : ifAdm = up1
    · by_cases hoper : ifOper = up1
      · simp [hup, hoper, hne, Contadores.conta]
      · by_cases hod : ifOper = down2
        · simp [hup, hod, hne, hne.symm, Contadores.conta]
        · simp [hup, hoper, hod, hne, Contadores.conta]
    · simp [hdown, hup, Contadores.conta]

theorem Porta.status_eq (p : Porta) : p.status = statusDe p.ifAdm p.ifOper := by
  rw [Porta.status, classifica_eq]

/-! ## The counters of a run -/

section Run

variable (r : Relogio) (statusO : Hash Str Str)

/-- The counters after some interfaces: those before, and the interfaces by status. -/
theorem cont_foldl_passo (ps : List Porta) (st : Estado) (s : Status) :
    (ps.foldl (passo r statusO) st).cont.de s
      = st.cont.de s + ps.countP fun p => decide (p.status = s) := by
  induction ps generalizing st with
  | nil => rfl
  | cons p ps ih =>
      have hstep : (passo r statusO st p).cont = st.cont.conta p.status := by
        rw [passo, classifica_eq, p.status_eq]
      rw [List.foldl_cons, ih, hstep, Contadores.de_conta, List.countP_cons]
      by_cases hs : p.status = s
      · simp [hs]
        omega
      · simp [hs]

end Run

/-- The number of lines with a status. -/
def comStatus (s : Status) (ls : List Impressa) : Nat :=
  ls.countP fun l => decide (l.porta.status = s)

/-- Every line has one of the four. -/
theorem soma_comStatus (ls : List Impressa) :
    comStatus .up ls + comStatus .down ls + comStatus .admDown ls + comStatus .erro ls
      = ls.length := by
  induction ls with
  | nil => rfl
  | cons l ls ih =>
      simp only [comStatus, List.countP_cons, List.length_cons] at ih ⊢
      cases hs : l.porta.status <;> simp <;> omega

/-! ## The lines of a run -/

/-- The log `dados` has a row `ifDescr` with the index `item`. -/
def Descrito (dir : Dir) (dados item : Str) : Prop :=
  dados ∈ dir ∧ dados ≠ ['.'] ∧ dados ≠ ['.', '.'] ∧
    ∃ linha ∈ linhasCom .ifDescr (lines '\n' (conteudo dir dados)), indice linha = item

theorem mem_interface (rtt : List Str) (item : Str) :
    item ∈ (lerLog rtt).interface ↔ ∃ linha ∈ linhasCom .ifDescr rtt, indice linha = item := by
  show item ∈ (lerLog rtt).coluna .ifDescr ↔ _
  rw [lerLog_coluna, mem_load]
  simp [AList.notMem_empty]

/-- In a log of printed rows these are the rows of the column. -/
theorem descrito_textoLog {dir : Dir} {dados : Str} {log : List Item} (hv : ∀ i ∈ log, i.Valido)
    (hlog : conteudo dir dados = textoLog log) (item : Str) :
    Descrito dir dados item ↔ dados ∈ dir ∧ dados ≠ ['.'] ∧ dados ≠ ['.', '.'] ∧
      ∃ row ∈ linhasDe .ifDescr log, decimal row.1 = item := by
  rw [Descrito, hlog, ← mem_interface]
  have hcol := lerLog_textoLog hv .ifDescr
  rw [Tabelas.coluna] at hcol
  rw [hcol, mem_load]
  simp [AList.notMem_empty]

theorem exists_mem_relato {dir : Dir} {dados item : Str} :
    (∃ p ∈ relato dir, p.dados = dados ∧ p.item = item) ↔ Descrito dir dados item := by
  rw [Descrito, ← mem_interface, AList.mem_keys]
  constructor
  · rintro ⟨p, hp, rfl, rfl⟩
    obtain ⟨dados, hd, h⟩ := List.mem_flatMap.mp hp
    rw [portasDe] at h
    split at h
    · cases h
    · rename_i hdot
      obtain ⟨item, hi, rfl⟩ := List.mem_map.mp h
      exact ⟨hd, fun h => hdot (Or.inl h), fun h => hdot (Or.inr h), hi⟩
  · rintro ⟨hd, h1, h2, hi⟩
    refine ⟨portaDe dados (tabelas dir dados) item, List.mem_flatMap.mpr ⟨dados, hd, ?_⟩, rfl, rfl⟩
    rw [portasDe, if_neg (not_or.mpr ⟨h1, h2⟩)]
    exact List.mem_map_of_mem hi

section Linhas

variable (r : Relogio) (info : Str) {dir : Dir}

/-- The fields that are printed stay on their line. -/
theorem not_nl_camposInfo {p : Porta} (hp : p ∈ relato dir) (hd : '\n' ∉ p.dados) :
    ∀ f ∈ camposInfo r (lerStatus info) p, '\n' ∉ f := by
  have hcol : '\n' ∉ p.interface ∧ '\n' ∉ p.ifAdm ∧ '\n' ∉ p.ifOper := by
    rw [eq_portaDe_of_mem_relato dir hp]
    exact ⟨(umaLinha_fetch_coluna _ .ifDescr _).1, (umaLinha_fetch_coluna _ .ifAdminStatus _).1,
      (umaLinha_fetch_coluna _ .ifOperStatus _).1⟩
  have hhost : '\n' ∉ p.host := by
    intro h
    rcases mem_replaceAll h with h | h
    · cases h
    · exact hd ((field_split_spec '-' p.dados 1).2 h)
  have htx : '\n' ∉ tx r (lerStatus info) p := by
    unfold tx
    split
    · exact (campo_decimal _).linha.1
    · exact (campo_sto info p 0).linha.1
  have halm : '\n' ∉ alarme r (lerStatus info) p := by
    unfold alarme
    split <;> exact (campo_dataReg _).linha.1
  intro f hf
  simp only [camposInfo, List.mem_cons, List.not_mem_nil, or_false] at hf
  rcases hf with rfl | rfl | rfl | rfl | rfl | rfl | rfl | rfl | rfl | rfl | rfl | rfl | rfl
  · exact htx
  · exact hhost
  · exact fun h => hd ((field_split_spec '-' p.dados 0).2 h)
  · exact hcol.1
  · exact hcol.2.1
  · exact hcol.2.2
  · exact p.status.campo_texto.linha.1
  · exact p.status.campo_cor.linha.1
  · exact campo_check.linha.1
  · exact (campo_dataReg _).linha.1
  · exact halm
  · exact (campo_decimal _).linha.1
  · exact (campo_sto info p 6).linha.1

/-- The lines of `info_man.txt`. -/
theorem lines_infoMan (ordem : KeyOrder Laco Str) (hd : ∀ dados ∈ dir, '\n' ∉ dados) :
    lines '\n' (leitorColetam r ordem dir info).infoMan
      = (leitorColetam r ordem dir info).linfot.map fun l => l.linha ++ ['\n'] := by
  rw [Estado.infoMan, lines_delimited, List.map_map]
  · rfl
  · intro linha hlinha
    obtain ⟨l, hl, rfl⟩ := List.mem_map.mp hlinha
    obtain ⟨p, hp, rfl⟩ := mem_linfot.mp hl
    have hdir : p.dados ∈ dir := (exists_mem_relato.mp ⟨p, hp, rfl, rfl⟩).1
    intro hnl
    rcases mem_delimited hnl with h | ⟨f, hf, h⟩
    · cases h
    · exact not_nl_camposInfo r info hp (hd _ hdir) f hf h

end Linhas

/-! ## The totals -/

/-- The log and the index of a line. -/
def Impressa.origem (l : Impressa) : Str × Str := (l.porta.dados, l.porta.item)

/-- What `info_man.txt` and `geral_web_man.txt` hold after a run: one line for each log and
index with a row `ifDescr`, with the status in the seventh field, and the numbers of lines by
status. -/
structure TotaisCertos (r : Relogio) (dir : Dir) (st : Estado) : Prop where
  nodup : (st.linfot.map Impressa.origem).Nodup
  origem : ∀ dados item, (dados, item) ∈ st.linfot.map Impressa.origem ↔ Descrito dir dados item
  origemRows : ∀ dados log, (∀ i ∈ log, i.Valido) → conteudo dir dados = textoLog log → ∀ item,
    (dados, item) ∈ st.linfot.map Impressa.origem ↔ dados ∈ dir ∧ dados ≠ ['.'] ∧
      dados ≠ ['.', '.'] ∧ ∃ row ∈ linhasDe .ifDescr log, decimal row.1 = item
  status : ∀ l ∈ st.linfot, ∃ a b, a.length = 6 ∧
    l.linha = delimited ';' (a ++ l.porta.status.texto :: b)
  linhas : (∀ dados ∈ dir, '\n' ∉ dados) →
    lines '\n' st.infoMan = st.linfot.map fun l => l.linha ++ ['\n']
  geral : geralWebMan r st = delimited ';' ([decimal r.t, r.agora.dataReg] ++
    [Status.up, .down, .admDown, .erro].map fun s => decimal (comStatus s st.linfot)) ++ ['\n']
  soma : comStatus .up st.linfot + comStatus .down st.linfot + comStatus .admDown st.linfot
    + comStatus .erro st.linfot = st.linfot.length

/-- **The totals match the lines**, for every directory of logs and in every order. -/
theorem totais (r : Relogio) (ordem : KeyOrder Laco Str) (dir : Dir) (info : Str) :
    TotaisCertos r dir (leitorColetam r ordem dir info) := by
  set st := leitorColetam r ordem dir info with hst
  have hlinfot : st.linfot
      = (portas ordem dir).map fun p => ⟨p, linhaInfo r (lerStatus info) p⟩ := by
    rw [hst, leitor_eq, linfot_foldl_passo, Estado.inicial, List.nil_append]
  have horigem : st.linfot.map Impressa.origem
      = (portas ordem dir).map fun p => (p.dados, p.item) := by
    rw [hlinfot, List.map_map]
    rfl
  have hcont : ∀ s, st.cont.de s = comStatus s st.linfot := by
    intro s
    have hzero : Estado.inicial.cont.de s = 0 := by cases s <;> rfl
    rw [comStatus, hlinfot, List.countP_map, hst, leitor_eq, cont_foldl_passo, hzero, Nat.zero_add]
    rfl
  have hmem : ∀ dados item,
      (dados, item) ∈ st.linfot.map Impressa.origem ↔ Descrito dir dados item := by
    intro dados item
    rw [horigem, ← exists_mem_relato, List.mem_map]
    simp only [mem_portas, Prod.mk.injEq]
  constructor
  · rw [horigem]
    refine (nodup_portas ordem dir).map_on fun p hp q hq hpq => ?_
    obtain ⟨hdados, hitem⟩ := Prod.mk.inj hpq
    rw [eq_portaDe_of_mem_relato dir ((mem_portas ordem dir).mp hp),
      eq_portaDe_of_mem_relato dir ((mem_portas ordem dir).mp hq), hdados, hitem]
  · exact hmem
  · intro dados log hv hlog item
    rw [hmem, descrito_textoLog hv hlog]
  · intro l hl
    obtain ⟨p, -, rfl⟩ := mem_linfot.mp hl
    exact ⟨(camposInfo r (lerStatus info) p).take 6, (camposInfo r (lerStatus info) p).drop 7,
      rfl, rfl⟩
  · exact fun hd => lines_infoMan r info ordem hd
  · rw [geralWebMan]
    simp only [List.map_cons, List.map_nil, ← hcont]
    rfl
  · exact soma_comStatus st.linfot

end SnmpCollector.Coletam
