import SnmpCollector.Leitor.Coletam

set_option autoImplicit false

/-! # Two runs over the same report (`leitor/rep/leitor_coletam.pl`, the events)

The second of two runs looks up the old status of an interface under a key made of the host
and of the description up to its first `:`. Two interfaces with one key share one old line,
that of the interface which the first run printed last. So a second run over the same report
is silent exactly when interfaces with the same key have the same status (`semEventos_iff`);
the channels `Serial1/0:0` and `Serial1/0:1` of a controller have the same key.
-/

namespace SnmpCollector.Coletam

open Perl

/-- Two lines printed for the same index of the same log. -/
def Impressa.Mesma (l m : Impressa) : Prop :=
  l.porta.dados = m.porta.dados ∧ l.porta.item = m.porta.item

/-- The first field of a line. -/
def Impressa.tempo (l : Impressa) : Str := field (split ';' l.linha) 0

/-- The second run writes no event, and every interface has its line with the time that its
line had before. -/
structure SemEventos (e₁ e₂ : Estado) : Prop where
  evlog : e₂.evlog = []
  linha : ∀ l ∈ e₁.linfot, ∃ m ∈ e₂.linfot, l.Mesma m
  tempo : ∀ l ∈ e₁.linfot, ∀ m ∈ e₂.linfot, l.Mesma m → m.tempo = l.tempo

/-- Reported interfaces with the same key have the same status. -/
def ChaveDetermina (ps : List Porta) : Prop :=
  ∀ p ∈ ps, ∀ q ∈ ps, p.chave = q.chave → p.status = q.status

section Segunda

variable (r₁ r₂ : Relogio) (ordem₁ ordem₂ : KeyOrder Laco Str) {dir₁ dir₂ : Dir} (info : Str)

/-- The time depends on the key and the status only. -/
theorem tx_congr (r : Relogio) (statusO : Hash Str Str) {p q : Porta} (hk : p.chave = q.chave)
    (hs : p.status = q.status) : tx r statusO p = tx r statusO q := by
  rw [tx, tx, sto, sto, hk, hs]

/-- The old line that the second run finds is that of one of the interfaces with the key. -/
theorem exists_sto (hl : ∀ p ∈ relato dir₁, p.Limpa) {k : Str} (hk : ∃ p ∈ relato dir₁, p.chave = k) :
    ∃ q ∈ relato dir₁, q.chave = k ∧ ∀ p : Porta, p.chave = k →
      field (sto (lerStatus (leitorColetam r₁ ordem₁ dir₁ info).infoMan) p) 6 = q.status.texto ∧
      field (sto (lerStatus (leitorColetam r₁ ordem₁ dir₁ info).infoMan) p) 0
        = tx r₁ (lerStatus info) q := by
  obtain ⟨p₀, hp₀, hk₀⟩ := hk
  obtain ⟨q, hq⟩ := lastSuch_isSome (p := fun p : Porta => decide (p.chave = k))
    ((mem_portas ordem₁ dir₁).mpr hp₀) (by simpa using hk₀)
  obtain ⟨hmem, hkq⟩ := lastSuch_eq_some hq
  have hmem' := (mem_portas ordem₁ dir₁).mp hmem
  refine ⟨q, hmem', by simpa using hkq, fun p hp => ?_⟩
  have hfetch : fetch (lerStatus (leitorColetam r₁ ordem₁ dir₁ info).infoMan) p.chave
      = linhaInfo r₁ (lerStatus info) q := by
    rw [fetch, lookup_lerStatus_infoMan r₁ info hl, hp, hq]
    rfl
  rw [sto, hfetch, field_linhaInfo r₁ info (hl q hmem') (by omega),
    field_linhaInfo r₁ info (hl q hmem') (by omega)]
  exact ⟨rfl, rfl⟩

/-- Two interfaces with the same key find the same old line, and a silent run agrees with it. -/
theorem chaveDetermina_of_evlog (hl : ∀ p ∈ relato dir₁, p.Limpa)
    (hmesmo : ∀ p, p ∈ relato dir₁ ↔ p ∈ relato dir₂)
    (h : (leitorColetam r₂ ordem₂ dir₂ (leitorColetam r₁ ordem₁ dir₁ info).infoMan).evlog = []) :
    ChaveDetermina (relato dir₁) := by
  intro p hp q hq hk
  obtain ⟨x, -, -, hx⟩ := exists_sto r₁ ordem₁ info hl ⟨p, hp, rfl⟩
  have hev := evlog_eq_nil.mp h
  have hsp := hev p ((hmesmo p).mp hp)
  have hsq := hev q ((hmesmo q).mp hq)
  rw [(hx p rfl).1] at hsp
  rw [(hx q hk.symm).1] at hsq
  exact Status.texto_injective (hsp.symm.trans hsq)

/-- When the key determines the status, every interface finds its own status and time. -/
theorem sto_of_chaveDetermina (hl : ∀ p ∈ relato dir₁, p.Limpa) (h : ChaveDetermina (relato dir₁))
    {p : Porta} (hp : p ∈ relato dir₁) :
    field (sto (lerStatus (leitorColetam r₁ ordem₁ dir₁ info).infoMan) p) 6 = p.status.texto ∧
    field (sto (lerStatus (leitorColetam r₁ ordem₁ dir₁ info).infoMan) p) 0
      = tx r₁ (lerStatus info) p := by
  obtain ⟨x, hx, hkx, hsto⟩ := exists_sto r₁ ordem₁ info hl ⟨p, hp, rfl⟩
  have hs : x.status = p.status := h x hx p hp hkx
  refine ⟨?_, ?_⟩
  · rw [(hsto p rfl).1, hs]
  · rw [(hsto p rfl).2, tx_congr r₁ _ hkx hs]

/-- **When a second run over the same report is silent.** The two runs may list the directory
and the interfaces in any order, and the logs may differ in everything else. -/
theorem semEventos_iff
    (hcampos : ∀ p ∈ relato dir₁,
      Campo p.dados ∧ ';' ∉ p.interface ∧ ';' ∉ p.ifAdm ∧ ';' ∉ p.ifOper)
    (hmesmo : ∀ p, p ∈ relato dir₁ ↔ p ∈ relato dir₂) :
    SemEventos (leitorColetam r₁ ordem₁ dir₁ info)
        (leitorColetam r₂ ordem₂ dir₂ (leitorColetam r₁ ordem₁ dir₁ info).infoMan) ↔
      ChaveDetermina (relato dir₁) := by
  have hl := limpa_of_campos hcampos
  refine ⟨fun h => chaveDetermina_of_evlog r₁ r₂ ordem₁ ordem₂ info hl hmesmo h.evlog, fun h => ?_⟩
  have hold := fun p (hp : p ∈ relato dir₁) =>
    sto_of_chaveDetermina r₁ ordem₁ info hl h hp
  refine ⟨?_, ?_, ?_⟩
  · exact evlog_eq_nil.mpr fun p hp => (hold p ((hmesmo p).mpr hp)).1
  · intro l hlin
    obtain ⟨p, hp, rfl⟩ := mem_linfot.mp hlin
    exact ⟨_, mem_linfot.mpr ⟨p, (hmesmo p).mp hp, rfl⟩, rfl, rfl⟩
  · rintro l hlin m hmin ⟨hdados, hitem⟩
    obtain ⟨p, hp, rfl⟩ := mem_linfot.mp hlin
    obtain ⟨q, hq, rfl⟩ := mem_linfot.mp hmin
    -- the log and the index determine the interface
    have hpq : p = q := by
      have hq' := (hmesmo q).mpr hq
      rw [eq_portaDe_of_mem_relato dir₁ hp, eq_portaDe_of_mem_relato dir₁ hq', hdados, hitem]
    subst hpq
    have htx : tx r₂ (lerStatus (leitorColetam r₁ ordem₁ dir₁ info).infoMan) p
        = tx r₁ (lerStatus info) p := by
      rw [tx, if_neg (not_not.mpr (hold p hp).1), (hold p hp).2]
    have hzero : ∀ (r : Relogio) (old : Hash Str Str), field (camposInfo r old p) 0 = tx r old p :=
      fun _ _ => rfl
    rw [Impressa.tempo, Impressa.tempo, field_linhaInfo _ _ (hl p hp) (by omega),
      field_linhaInfo _ _ (hl p hp) (by omega), hzero, hzero, htx]

end Segunda

/-! ## Logs of interface tables -/

/-- A row of the interface table of a host. -/
structure Interface where
  ifIndex : Nat
  ifDescr : Str
  ifAdminStatus : Str
  ifOperStatus : Str

def Interface.valor (i : Interface) : Coluna → Str
  | .ifDescr => i.ifDescr
  | .ifAdminStatus => i.ifAdminStatus
  | .ifOperStatus => i.ifOperStatus

/-- The log of a host: the three columns of its interface table, one after the other. -/
def walk (tab : List Interface) : List Item :=
  tab.map (fun i => .linha .ifDescr i.ifIndex "STRING".toList i.ifDescr) ++
    (tab.map (fun i => .linha .ifAdminStatus i.ifIndex "INTEGER".toList i.ifAdminStatus) ++
      tab.map (fun i => .linha .ifOperStatus i.ifIndex "INTEGER".toList i.ifOperStatus))

/-- The directory of the logs of some hosts. -/
def logs (hosts : List (Str × List Interface)) : Dir :=
  load Prod.fst (fun h => textoLog (walk h.2)) ∅ hosts

/-- The interface that the reader finds for a row of the table. -/
def Interface.porta (dados : Str) (i : Interface) : Porta :=
  ⟨dados, decimal i.ifIndex, lido i.ifDescr, lido i.ifAdminStatus, lido i.ifOperStatus⟩

/-- A table with distinct indices whose texts name no column. -/
structure TabelaValida (tab : List Interface) : Prop where
  nodup : (tab.map Interface.ifIndex).Nodup
  valor : ∀ i ∈ tab, ∀ c, SemColuna (i.valor c)

theorem linhasDe_walk (tab : List Interface) (c : Coluna) :
    linhasDe c (walk tab) = tab.map fun i => (i.ifIndex, i.valor c) := by
  cases c <;> simp [linhasDe, walk, List.filterMap_append, List.filterMap_map,
    Interface.valor]

theorem walk_valido {tab : List Interface} (h : TabelaValida tab) : ∀ i ∈ walk tab, i.Valido := by
  have hstring : SemColuna "STRING".toList ∧ ':' ∉ limpa "STRING".toList :=
    ⟨⟨by simp, by intro c; cases c <;> decide +kernel⟩, by decide +kernel⟩
  have hinteger : SemColuna "INTEGER".toList ∧ ':' ∉ limpa "INTEGER".toList :=
    ⟨⟨by simp, by intro c; cases c <;> decide +kernel⟩, by decide +kernel⟩
  intro it hit
  simp only [walk, List.mem_append, List.mem_map] at hit
  rcases hit with ⟨i, hi, rfl⟩ | ⟨i, hi, rfl⟩ | ⟨i, hi, rfl⟩
  · exact ⟨hstring.1, hstring.2, h.valor i hi .ifDescr⟩
  · exact ⟨hinteger.1, hinteger.2, h.valor i hi .ifAdminStatus⟩
  · exact ⟨hinteger.1, hinteger.2, h.valor i hi .ifOperStatus⟩

section Logs

variable {tab : List Interface}

theorem coluna_walk (h : TabelaValida tab) (c : Coluna) :
    (lerLog (lines '\n' (textoLog (walk tab)))).coluna c
      = load (fun r => decimal r.1) (fun r => lido r.2) ∅ (tab.map fun i => (i.ifIndex, i.valor c)) := by
  rw [lerLog_textoLog (walk_valido h), linhasDe_walk]

theorem fetch_walk (h : TabelaValida tab) {i : Interface} (hi : i ∈ tab) (c : Coluna) :
    fetch ((lerLog (lines '\n' (textoLog (walk tab)))).coluna c) (decimal i.ifIndex)
      = lido (i.valor c) := by
  have hlast : lastSuch (fun r => decide (decimal r.1 = decimal i.ifIndex))
      (tab.map fun i => (i.ifIndex, i.valor c)) = some (i.ifIndex, i.valor c) := by
    refine lastSuch_eq_of_unique (List.mem_map_of_mem hi) (by simp) ?_
    intro r hr hidx
    obtain ⟨j, hj, rfl⟩ := List.mem_map.mp hr
    have hsame : j = i := List.inj_on_of_nodup_map h.nodup hj hi
      (decimal_injective (of_decide_eq_true hidx))
    rw [hsame]
  rw [coluna_walk h, fetch, lookup_load, hlast]
  rfl

theorem mem_interface_walk (h : TabelaValida tab) (item : Str) :
    item ∈ (lerLog (lines '\n' (textoLog (walk tab)))).interface.keys ↔
      ∃ i ∈ tab, decimal i.ifIndex = item := by
  have hcol := coluna_walk h .ifDescr
  rw [Tabelas.coluna] at hcol
  rw [hcol, ← AList.mem_keys, mem_load]
  simp [AList.notMem_empty]

theorem conteudo_logs {hosts : List (Str × List Interface)} (hnd : (hosts.map Prod.fst).Nodup)
    {h : Str × List Interface} (hh : h ∈ hosts) : conteudo (logs hosts) h.1 = textoLog (walk h.2) := by
  have hlast : lastSuch (fun x => decide (x.1 = h.1)) hosts = some h := by
    refine lastSuch_eq_of_unique hh (by simp) fun y hy hyh => ?_
    exact List.inj_on_of_nodup_map hnd hy hh (of_decide_eq_true hyh)
  rw [conteudo, fetch, logs, lookup_load, hlast]
  rfl

/-- **What the logs of interface tables report**: the tables, each description up to its
first `:`. -/
theorem mem_relato_logs {hosts : List (Str × List Interface)} (hnd : (hosts.map Prod.fst).Nodup)
    (hnomes : ∀ h ∈ hosts, h.1 ≠ ['.'] ∧ h.1 ≠ ['.', '.']) (hv : ∀ h ∈ hosts, TabelaValida h.2)
    {p : Porta} : p ∈ relato (logs hosts) ↔ ∃ h ∈ hosts, ∃ i ∈ h.2, i.porta h.1 = p := by
  have hporta : ∀ h ∈ hosts, ∀ i ∈ h.2,
      portaDe h.1 (tabelas (logs hosts) h.1) (decimal i.ifIndex) = i.porta h.1 := by
    intro h hh i hi
    rw [tabelas, conteudo_logs hnd hh, portaDe, Interface.porta]
    exact congr (congr (congrArg _ (fetch_walk (hv h hh) hi .ifDescr))
      (fetch_walk (hv h hh) hi .ifAdminStatus)) (fetch_walk (hv h hh) hi .ifOperStatus)
  constructor
  · intro hp
    obtain ⟨dados, hdados, hp⟩ := List.mem_flatMap.mp hp
    rw [← AList.mem_keys, logs, mem_load] at hdados
    obtain ⟨h, hh, rfl⟩ := hdados.resolve_left (AList.notMem_empty _)
    rw [portasDe, if_neg (not_or.mpr (hnomes h hh)), List.mem_map] at hp
    obtain ⟨item, hitem, rfl⟩ := hp
    rw [tabelas, conteudo_logs hnd hh] at hitem
    obtain ⟨i, hi, rfl⟩ := (mem_interface_walk (hv h hh) item).mp hitem
    exact ⟨h, hh, i, hi, (hporta h hh i hi).symm⟩
  · rintro ⟨h, hh, i, hi, rfl⟩
    refine List.mem_flatMap.mpr ⟨h.1, ?_, ?_⟩
    · rw [← AList.mem_keys, logs, mem_load]
      exact Or.inr ⟨h, hh, rfl⟩
    · rw [portasDe, if_neg (not_or.mpr (hnomes h hh)), List.mem_map]
      refine ⟨decimal i.ifIndex, ?_, hporta h hh i hi⟩
      rw [tabelas, conteudo_logs hnd hh]
      exact (mem_interface_walk (hv h hh) _).mpr ⟨i, hi, rfl⟩

end Logs

/-! ## Two channels of one controller -/

def mbenc01 : Str := "10.98.30.1-mbenc01.txt".toList

/-- Two channels of a controller, the second one with the given state. -/
def canais (oper : Str) : List (Str × List Interface) :=
  [(mbenc01, [⟨17, "Serial1/0:0".toList, up1, up1⟩, ⟨18, "Serial1/0:1".toList, up1, oper⟩])]

/-- A clock that always shows the same date. -/
def relogio (t : Nat) : Relogio := ⟨t, ⟨112, 0, 1, 12, 0, 0⟩, fun _ => ⟨112, 0, 1, 12, 0, 0⟩⟩

theorem campo_mbenc01 : Campo mbenc01 := by
  unfold mbenc01
  exact ⟨by simp, by simp [UmaLinha]⟩

theorem canais_validos {oper : Str} (ho : SemColuna oper) :
    ((canais oper).map Prod.fst).Nodup ∧ (∀ h ∈ canais oper, h.1 ≠ ['.'] ∧ h.1 ≠ ['.', '.']) ∧
      ∀ h ∈ canais oper, TabelaValida h.2 := by
  have h1 : SemColuna "Serial1/0:0".toList := ⟨by simp, by intro c; cases c <;> decide +kernel⟩
  have h2 : SemColuna "Serial1/0:1".toList := ⟨by simp, by intro c; cases c <;> decide +kernel⟩
  have hup : SemColuna up1 := ⟨by decide, by intro c; cases c <;> decide +kernel⟩
  refine ⟨by simp [canais], ?_, ?_⟩
  · intro h hh
    obtain rfl := List.mem_singleton.mp hh
    exact (by decide +kernel : mbenc01 ≠ ['.'] ∧ mbenc01 ≠ ['.', '.'])
  · intro h hh
    obtain rfl := List.mem_singleton.mp hh
    refine ⟨by simp, fun i hi c => ?_⟩
    simp only [List.mem_cons, List.not_mem_nil, or_false] at hi
    rcases hi with rfl | rfl
    · cases c with
      | ifDescr => exact h1
      | ifAdminStatus => exact hup
      | ifOperStatus => exact hup
    · cases c with
      | ifDescr => exact h2
      | ifAdminStatus => exact hup
      | ifOperStatus => exact ho

/-- What the reader finds for the two channels: both are `Serial1/0`. -/
theorem mem_relato_canais {oper : Str} (ho : SemColuna oper) {p : Porta} :
    p ∈ relato (logs (canais oper)) ↔
      p = ⟨mbenc01, "17".toList, "Serial1/0".toList, up1, up1⟩ ∨
      p = ⟨mbenc01, "18".toList, "Serial1/0".toList, up1, lido oper⟩ := by
  obtain ⟨hnd, hnomes, hv⟩ := canais_validos ho
  have h17 : Interface.porta mbenc01 ⟨17, "Serial1/0:0".toList, up1, up1⟩
      = ⟨mbenc01, "17".toList, "Serial1/0".toList, up1, up1⟩ := by decide +kernel
  have h18 : Interface.porta mbenc01 ⟨18, "Serial1/0:1".toList, up1, oper⟩
      = ⟨mbenc01, "18".toList, "Serial1/0".toList, up1, lido oper⟩ := by
    have hd : decimal 18 = "18".toList := by decide +kernel
    have hl : lido "Serial1/0:1".toList = "Serial1/0".toList := by decide +kernel
    have hu : lido up1 = up1 := by decide +kernel
    rw [Interface.porta, hd, hl, hu]
  rw [mem_relato_logs hnd hnomes hv, canais]
  simp only [List.mem_cons, List.not_mem_nil, or_false, exists_eq_left, exists_eq_or_imp, h17, h18,
    eq_comm]

theorem campos_canais {oper : Str} (ho : SemColuna oper) (hsep : ';' ∉ lido oper) :
    ∀ p ∈ relato (logs (canais oper)),
      Campo p.dados ∧ ';' ∉ p.interface ∧ ';' ∉ p.ifAdm ∧ ';' ∉ p.ifOper := by
  have hup : ';' ∉ up1 := by decide
  intro p hp
  rcases (mem_relato_canais ho).mp hp with rfl | rfl
  · exact ⟨campo_mbenc01, by simp, hup, hup⟩
  · exact ⟨campo_mbenc01, by simp, hup, hsep⟩

/-- Two channels that are both up stay silent. -/
theorem semEventos_canais : SemEventos (leitorColetam (relogio 1) .stored (logs (canais up1)) [])
    (leitorColetam (relogio 2) .stored (logs (canais up1))
      (leitorColetam (relogio 1) .stored (logs (canais up1)) []).infoMan) := by
  have hup : SemColuna up1 := ⟨by decide, by intro c; cases c <;> decide +kernel⟩
  refine (semEventos_iff (relogio 1) (relogio 2) .stored .stored [] ?_ fun _ => Iff.rfl).mpr ?_
  · exact campos_canais hup (by decide +kernel)
  · intro p hp q hq _
    have hstatus : ∀ p ∈ relato (logs (canais up1)), p.status = .up := by
      intro p hp
      rcases (mem_relato_canais hup).mp hp with rfl | rfl
      · decide +kernel
      · decide +kernel
    rw [hstatus p hp, hstatus q hq]

/-- One channel is up and the other one is down: the second run reports a change although
nothing changed. -/
theorem eventos_espurios : ¬ ∀ (r₁ r₂ : Relogio) (ordem₁ ordem₂ : KeyOrder Laco Str)
    (hosts : List (Str × List Interface)) (info : Str), r₁.t < r₂.t →
    (hosts.map Prod.fst).Nodup → (∀ h ∈ hosts, Campo h.1) →
    (∀ h ∈ hosts, TabelaValida h.2 ∧ (h.2.map Interface.ifDescr).Nodup ∧
      ∀ i ∈ h.2, ';' ∉ i.ifDescr ∧ '=' ∉ i.ifDescr ∧ '"' ∉ i.ifDescr) →
    SemEventos (leitorColetam r₁ ordem₁ (logs hosts) info)
      (leitorColetam r₂ ordem₂ (logs hosts) (leitorColetam r₁ ordem₁ (logs hosts) info).infoMan) := by
  intro h
  have hdown : SemColuna down2 := ⟨by decide, by intro c; cases c <;> decide +kernel⟩
  have hsem := h (relogio 1) (relogio 2) .stored .stored (canais down2) [] (by decide)
    (canais_validos hdown).1 (by simpa [canais] using campo_mbenc01)
    (fun x hx => ⟨(canais_validos hdown).2.2 x hx, by revert x; decide +kernel⟩)
  have hl := limpa_of_campos (campos_canais hdown (by decide +kernel))
  have hchave := chaveDetermina_of_evlog (relogio 1) (relogio 2) .stored .stored [] hl
    (fun _ => Iff.rfl) hsem.evlog
  have hmesma : (⟨mbenc01, "17".toList, "Serial1/0".toList, up1, up1⟩ : Porta).chave
      = (⟨mbenc01, "18".toList, "Serial1/0".toList, up1, lido down2⟩ : Porta).chave := by
    simp only [Porta.chave, Porta.host]
  have hstatus := hchave _ ((mem_relato_canais hdown).mpr (Or.inl rfl)) _
    ((mem_relato_canais hdown).mpr (Or.inr rfl)) hmesma
  have hup : (⟨mbenc01, "17".toList, "Serial1/0".toList, up1, up1⟩ : Porta).status = .up := by
    decide +kernel
  have hvm : (⟨mbenc01, "18".toList, "Serial1/0".toList, up1, lido down2⟩ : Porta).status
      = .down := by
    decide +kernel
  rw [hup, hvm] at hstatus
  exact absurd hstatus (by decide)

end SnmpCollector.Coletam
