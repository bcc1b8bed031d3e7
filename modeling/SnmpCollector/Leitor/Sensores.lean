import SnmpCollector.Leitor.TempPwr

set_option autoImplicit false

/-! # The verdict on the temperature sensors (`leitor/leitor_temp_pwr.pl`, lines 497 to 611)

The word for the state of a sensor is kept from one sensor to the next, and the tests set it
for some texts only. `so_do_sensor_iff` says for which sensors the word depends on nothing else,
and `veredito_iff` for which sets of sensors the verdict of the first line tells the states
that count: the states 1, 4 and 5 all make the word `ok`, and 4 is the shutdown of a device.
-/

namespace SnmpCollector.TempPwr

open Perl CpuMem

/-! ## The word of a sensor -/

/-- Some test on the status sets the word. -/
def Decidido (status : Str) : Prop :=
  ('1' ∈ status ∨ '4' ∈ status ∨ '5' ∈ status) ∨ status = ['2'] ∨ status = ['3'] ∨ status = ['6']

/-- A status that sets the word sets it whatever it was. -/
theorem palavra_decidido {status : Str} (h : Decidido status) (st st' : St) :
    palavra status st = palavra status st' := by
  unfold palavra
  rcases h with h | h | h | h
  · rw [if_pos h, if_pos h]
  · simp [h]
  · simp [h]
  · simp [h]

/-- The sensors of the alarm of a run, with their words. -/
def alarmados (o : KeyOrder Laco Str) (dados log : Str) : List (Str × St) :=
  nomeados (tabelasDe dados log) .semValor (itensTemp o dados log)

/-- The text of the alarm of a run. -/
def textoAlarme (o : KeyOrder Laco Str) (dados log : Str) : Str :=
  (alarmados o dados log).flatMap fun e => entrada (tempNome (tabelasDe dados log) e.1) e.2

/-- A sensor whose status sets the word. -/
theorem mem_alarmados_decidido {o : KeyOrder Laco Str} {dados log item : Str}
    (hi : item ∈ (tabelasDe dados log).coluna .tempNome)
    (hd : Decidido (tempStatus (tabelasDe dados log) item)) (w : St) :
    (item, w) ∈ alarmados o dados log ↔
      w ≠ .ok ∧ palavra (tempStatus (tabelasDe dados log) item) .semValor = w := by
  rw [alarmados, mem_nomeados]
  refine and_congr_right fun _ => ?_
  constructor
  · rintro ⟨pre, post, -, rfl⟩
    exact palavra_decidido hd _ _
  · rintro rfl
    have hmem : item ∈ itensTemp o dados log := (o.mem_keys _ _ _).mpr (AList.mem_keys.mp hi)
    obtain ⟨pre, post, heq⟩ := List.append_of_mem hmem
    exact ⟨pre, post, heq, palavra_decidido hd _ _⟩

/-! ### Another sensor before it -/

theorem tipoValido_sensor : TipoValido "STRING".toList ∧ TipoValido "INTEGER".toList :=
  ⟨⟨by decide +kernel, by decide +kernel, by decide +kernel, by decide +kernel⟩,
    ⟨by decide +kernel, by decide +kernel, by decide +kernel, by decide +kernel⟩⟩

/-- A printed number does not look like a row. -/
theorem valorValido_numero {s : Str} (hs : ∀ c ∈ s, c = '-' ∨ c.isDigit = true) :
    ValorValido s := by
  refine ⟨fun h => ?_, fun h => ?_⟩
  · have hmem : 'e' ∈ s := mem_limpa (h.subset (by unfold enterprises; simp))
    exact absurd (hs _ hmem) (by decide)
  · exact absurd (hs _ h) (by decide)

/-- `CiscoEnvMonState` -/
inductive Estado where
  | normal
  | warning
  | critical
  | shutdown
  | notPresent
  | notFunctioning
  deriving DecidableEq

namespace Estado

/-- The value of the state in a row. -/
def texto : Estado → Str
  | normal => ['1']
  | warning => ['2']
  | critical => ['3']
  | shutdown => ['4']
  | notPresent => ['5']
  | notFunctioning => ['6']

/-- The states of a sensor that needs attention. -/
def anormal (e : Estado) : Prop :=
  e = warning ∨ e = critical ∨ e = shutdown ∨ e = notFunctioning

/-- The states for which the reader names a sensor. -/
def avisado (e : Estado) : Prop := e = warning ∨ e = critical ∨ e = notFunctioning

instance (e : Estado) : Decidable e.avisado := inferInstanceAs (Decidable (_ ∨ _ ∨ _))

theorem isDigit_of_mem_texto (e : Estado) {c : Char} (hc : c ∈ e.texto) : c.isDigit = true := by
  revert hc
  cases e <;> (rw [texto, List.mem_singleton]; rintro rfl; decide)

theorem decidido (e : Estado) : Decidido e.texto := by
  cases e <;> simp [Decidido, texto]

theorem palavra_texto (e : Estado) : palavra e.texto .semValor ≠ .ok ↔ e.avisado := by
  cases e <;> simp [palavra, texto, avisado]

/-- The word of a named sensor has more than two letters. -/
theorem length_palavra {e : Estado} (h : e.avisado) :
    3 ≤ (palavra e.texto .semValor).texto.length := by
  rcases h with rfl | rfl | rfl <;> decide

theorem anormal_iff (e : Estado) : e.anormal ↔ e.avisado ∨ e = shutdown := by
  unfold anormal avisado
  tauto

end Estado

/-- The name, the reading and the threshold of a sensor; the name is the text that `snmpwalk`
prints. -/
structure Leitura where
  idx : Nat
  nome : Str
  medido : Int
  limiar : Int
  deriving DecidableEq

/-- A sensor of a device. -/
structure Sensor extends Leitura where
  estado : Estado
  deriving DecidableEq

/-- A log with a row of the cpu, and one name, one reading and one threshold row per sensor, among
other lines and rows of other columns, in any order. -/
structure LogLeituras (log : List Item) (ls : List Leitura) : Prop where
  comum : ∀ i ∈ log, i.Comum
  cpu : cpus log ≠ []
  nome : (linhasDe .tempNome log).Perm (ls.map fun l => (l.idx, l.nome))
  medido : (linhasDe .tempMedido log).Perm (ls.map fun l => (l.idx, intText l.medido))
  limiar : (linhasDe .tempLimiar log).Perm (ls.map fun l => (l.idx, intText l.limiar))
  nodup : (ls.map Leitura.idx).Nodup

/-- A log with one status row per sensor, besides. -/
structure LogSensores (log : List Item) (ss : List Sensor) : Prop
    extends LogLeituras log (ss.map Sensor.toLeitura) where
  status : (linhasDe .tempStatus log).Perm (ss.map fun s => (s.idx, s.estado.texto))

namespace LogLeituras

variable {log : List Item} {ls : List Leitura} (h : LogLeituras log ls) (dados : Str)

include h

theorem keys_cpuavg5 : (tabelasDe dados (textoLog log)).cpuavg5.keys = [hostDe dados] :=
  keys_cpuavg5_textoLog dados h.comum h.cpu

section Valores

variable {l : Leitura} (hl : l ∈ ls)

include hl

theorem fetch_nome :
    tempNome (tabelasDe dados (textoLog log)) (ref (hostDe dados) l.idx) = lido l.nome := by
  rw [tempNome, tabelasDe, ← tabelas, fetch_tabelas _ h.comum, ultima_of_perm h.nodup h.nome hl]
  rfl

theorem fetch_medido :
    tempMedido (tabelasDe dados (textoLog log)) (ref (hostDe dados) l.idx) = intText l.medido := by
  rw [tempMedido, tabelasDe, ← tabelas, fetch_tabelas _ h.comum,
    ultima_of_perm h.nodup h.medido hl]
  exact (lido_numero fun _ hc => mem_intText hc).1

theorem fetch_limiar :
    tempLimiar (tabelasDe dados (textoLog log)) (ref (hostDe dados) l.idx) = intText l.limiar := by
  rw [tempLimiar, tabelasDe, ← tabelas, fetch_tabelas _ h.comum,
    ultima_of_perm h.nodup h.limiar hl]
  exact (lido_numero fun _ hc => mem_intText hc).1

end Valores

/-- The keys of the loop are those of the sensors. -/
theorem mem_tempNome {item : Str} : item ∈ (tabelasDe dados (textoLog log)).coluna .tempNome ↔
    ∃ l ∈ ls, ref (hostDe dados) l.idx = item :=
  mem_tabelas_of_perm (hostDe dados) h.comum h.nome

theorem keys_perm : ((tabelasDe dados (textoLog log)).coluna .tempNome).keys.Perm
    (ls.map fun l => ref (hostDe dados) l.idx) :=
  keys_tabelas_perm (hostDe dados) h.comum h.nome h.nodup

theorem hh0_item (o : KeyOrder Laco Str) {item : Str} (hi : item ∈ itensTemp o dados (textoLog log)) :
    hh0 item = hh0 (hostDe dados) := by
  rw [itensTemp, o.mem_keys, ← AList.mem_keys, h.mem_tempNome] at hi
  obtain ⟨l, -, rfl⟩ := hi
  exact hh0_ref _ _

end LogLeituras

namespace LogSensores

variable {log : List Item} {ss : List Sensor} (h : LogSensores log ss) (dados : Str)

include h

theorem fetch_status {s : Sensor} (hs : s ∈ ss) :
    tempStatus (tabelasDe dados (textoLog log)) (ref (hostDe dados) s.idx) = s.estado.texto := by
  have hlido : lido s.estado.texto = s.estado.texto := by
    refine (lido_numero fun c hc => Or.inr ?_).1
    exact s.estado.isDigit_of_mem_texto hc
  have hnodup : (ss.map fun s : Sensor => s.idx).Nodup := by
    have := h.nodup
    rwa [List.map_map] at this
  rw [tempStatus, tabelasDe, ← tabelas, fetch_tabelas _ h.comum,
    ultima_of_perm hnodup h.status hs]
  exact hlido

theorem mem_sensores {item : Str} : item ∈ (tabelasDe dados (textoLog log)).coluna .tempNome ↔
    ∃ s ∈ ss, ref (hostDe dados) s.idx = item := by
  rw [h.mem_tempNome]
  simp only [List.mem_map, exists_exists_and_eq_and]

/-- The sensors of the alarm are those in a state that the reader names. -/
theorem mem_alarmados (o : KeyOrder Laco Str) {item : Str} {w : St} :
    (item, w) ∈ alarmados o dados (textoLog log) ↔
      ∃ s ∈ ss, s.estado.avisado ∧ ref (hostDe dados) s.idx = item ∧
        palavra s.estado.texto .semValor = w := by
  constructor
  · intro hm
    have hitem : item ∈ (tabelasDe dados (textoLog log)).coluna .tempNome := by
      obtain ⟨-, pre, post, heq, -⟩ := mem_nomeados.mp hm
      have hin : item ∈ itensTemp o dados (textoLog log) := by rw [heq]; simp
      exact AList.mem_keys.mpr ((o.mem_keys _ _ _).mp hin)
    obtain ⟨s, hs, rfl⟩ := (h.mem_sensores dados).mp hitem
    rw [mem_alarmados_decidido hitem (by rw [h.fetch_status dados hs]; exact s.estado.decidido),
      h.fetch_status dados hs] at hm
    obtain ⟨hw, rfl⟩ := hm
    exact ⟨s, hs, s.estado.palavra_texto.mp hw, rfl, rfl⟩
  · rintro ⟨s, hs, ha, rfl, rfl⟩
    have hitem := (h.mem_sensores dados).mpr ⟨s, hs, rfl⟩
    rw [mem_alarmados_decidido hitem (by rw [h.fetch_status dados hs]; exact s.estado.decidido),
      h.fetch_status dados hs]
    exact ⟨s.estado.palavra_texto.mpr ha, rfl⟩

end LogSensores

/-! ## The verdict -/

/-- The names in the text of an alarm: every second field between the `:`. -/
def nomesPares : List Str → List Str
  | nome :: _ :: fs => nome :: nomesPares fs
  | _ => []

def nomesDoTexto (texto : Str) : List Str := nomesPares (texto.splitOn ':')

theorem not_colon_lido (valor : Str) : ':' ∉ lido valor := by
  intro h
  have hf : ':' ∈ field (split ':' (replaceAll igual [':'] (' ' :: limpa valor))) 0 := by
    rw [lido, semBrancos] at h
    exact (List.mem_filter.mp h).1
  exact (field_split_spec ':' _ 0).1 hf

theorem not_colon_texto (st : St) : ':' ∉ st.texto := by
  cases st <;> (unfold St.texto; simp)

theorem nomesPares_flatMap (es : List (Str × St)) :
    nomesPares (es.flatMap (fun e => [e.1, e.2.texto]) ++ [[]]) = es.map Prod.fst := by
  induction es with
  | nil => rfl
  | cons e es ih => exact congrArg (e.1 :: ·) ih

/-- The names of the entries come back from the text. -/
theorem nomesDoTexto_entradas {es : List (Str × St)} (h : ∀ e ∈ es, ':' ∉ e.1) :
    nomesDoTexto (es.flatMap fun e => entrada e.1 e.2) = es.map Prod.fst := by
  have hdel : es.flatMap (fun e => entrada e.1 e.2)
      = delimited ':' (es.flatMap fun e => [e.1, e.2.texto]) ++ [] := by
    rw [delimited, List.flatMap_assoc, List.append_nil]
    congr 1
    funext e
    simp [entrada]
  have hfs : ∀ f ∈ es.flatMap (fun e => [e.1, e.2.texto]), ':' ∉ f := by
    intro f hf
    obtain ⟨e, he, hf⟩ := List.mem_flatMap.mp hf
    simp only [List.mem_cons, List.not_mem_nil, or_false] at hf
    rcases hf with rfl | rfl
    · exact h e he
    · exact not_colon_texto e.2
  rw [nomesDoTexto, hdel, splitOn_delimited_append hfs, List.splitOn_nil]
  exact nomesPares_flatMap es

/-- In the file that a run writes, the verdict `ok` means that no sensor needs attention, and
after `alarme` every sensor that does is named. -/
def VereditoOk (dados : Str) (log : List Item) (ss : List Sensor) : Prop :=
  ∀ (t : Nat) (o : KeyOrder Laco Str) (hist d : Dir),
    leitor t o dados (textoLog log) hist = .ok d →
    ∃ cpu veredito mem resto, conteudo d (hostDe dados)
        = delimited ';' [decimal t, [], cpu, stCpu cpu, veredito, mem] ++ '\n' :: resto ∧
      veredito = stTemp (temperatura t o dados (textoLog log) hist) (hostDe dados) ∧
      (∀ x, veredito = "ok;".toList ++ x → ∀ s ∈ ss, ¬ s.estado.anormal) ∧
      ∀ x, veredito = "alarme;".toList ++ x →
        ∀ s ∈ ss, s.estado.anormal → lido s.nome ∈ nomesDoTexto x

/-- Every sensor in shutdown has the name of a sensor that the reader names; and a host whose
name does not come back from the keys of its sensors has none that needs attention. -/
def VereditoCerto (dados : Str) (ss : List Sensor) : Prop :=
  if '_' ∈ hostDe dados then ∀ s ∈ ss, ¬ s.estado.anormal
  else ∀ s ∈ ss, s.estado = .shutdown → ∃ s' ∈ ss, s'.estado.avisado ∧ lido s'.nome = lido s.nome

section Veredito

variable {log : List Item} {ss : List Sensor} (h : LogSensores log ss) (dados : Str)
  (t : Nat) (o : KeyOrder Laco Str) (hist : Dir)

include h

/-- The text of the alarm. -/
theorem LogSensores.fetch_tempStatush :
    fetch (temperatura t o dados (textoLog log) hist).tempStatush (hostDe dados)
      = if '_' ∈ hostDe dados then [] else textoAlarme o dados (textoLog log) := by
  rw [temperatura, TempPwr.fetch_tempStatush _ _ _ fun item hi => h.hh0_item dados o hi]
  by_cases hund : '_' ∈ hostDe dados
  · rw [if_pos hund, if_neg]
    intro heq
    exact (hh0_eq_self_iff (hostDe dados)).mp heq.symm hund
  · rw [if_neg hund, if_pos ((hh0_eq_self_iff _).mpr hund).symm]
    rfl

/-- The names in it are those of the sensors that the reader names. -/
theorem LogSensores.mem_nomesDoTexto {nome : Str} :
    nome ∈ nomesDoTexto (textoAlarme o dados (textoLog log)) ↔
      ∃ s ∈ ss, s.estado.avisado ∧ lido s.nome = nome := by
  have hmap : textoAlarme o dados (textoLog log)
      = ((alarmados o dados (textoLog log)).map fun e =>
          (tempNome (tabelasDe dados (textoLog log)) e.1, e.2)).flatMap fun e => entrada e.1 e.2 := by
    rw [textoAlarme, List.flatMap_map]
  have hcolon : ∀ e ∈ (alarmados o dados (textoLog log)).map fun e =>
      (tempNome (tabelasDe dados (textoLog log)) e.1, e.2), ':' ∉ e.1 := by
    intro e he
    obtain ⟨⟨item, w⟩, hm, rfl⟩ := List.mem_map.mp he
    obtain ⟨s, hs, -, rfl, -⟩ := (h.mem_alarmados dados o).mp hm
    rw [h.fetch_nome dados (List.mem_map_of_mem hs)]
    exact not_colon_lido _
  rw [hmap, nomesDoTexto_entradas hcolon, List.map_map, List.mem_map]
  constructor
  · rintro ⟨⟨item, w⟩, hm, rfl⟩
    obtain ⟨s, hs, ha, rfl, -⟩ := (h.mem_alarmados dados o).mp hm
    exact ⟨s, hs, ha, (h.fetch_nome dados (List.mem_map_of_mem hs)).symm⟩
  · rintro ⟨s, hs, ha, rfl⟩
    exact ⟨_, (h.mem_alarmados dados o).mpr ⟨s, hs, ha, rfl, rfl⟩,
      h.fetch_nome dados (List.mem_map_of_mem hs)⟩

/-- The text is short exactly when the reader names no sensor. -/
theorem LogSensores.length_textoAlarme_lt :
    (textoAlarme o dados (textoLog log)).length < 3 ↔ ¬ ∃ s ∈ ss, s.estado.avisado := by
  constructor
  · rintro hlt ⟨s, hs, ha⟩
    obtain ⟨pre, post, hsplit⟩ :=
      List.append_of_mem ((h.mem_alarmados dados o).mpr ⟨s, hs, ha, rfl, rfl⟩)
    have hlen := s.estado.length_palavra ha
    rw [textoAlarme, hsplit, List.flatMap_append, List.flatMap_cons] at hlt
    simp only [entrada, List.length_append, List.length_cons] at hlt
    omega
  · intro ha
    have hnil : alarmados o dados (textoLog log) = [] := by
      rw [List.eq_nil_iff_forall_not_mem]
      rintro ⟨item, w⟩ hm
      obtain ⟨s, hs, hav, -⟩ := (h.mem_alarmados dados o).mp hm
      exact ha ⟨s, hs, hav⟩
    rw [textoAlarme, hnil, List.flatMap_nil]
    decide

/-- The verdict is `alarme` exactly when the reader names a sensor. -/
theorem LogSensores.stTemp_eq :
    stTemp (temperatura t o dados (textoLog log) hist) (hostDe dados)
      = if '_' ∉ hostDe dados ∧ ∃ s ∈ ss, s.estado.avisado then
          "alarme;".toList ++ textoAlarme o dados (textoLog log)
        else "ok;".toList
          ++ fetch (temperatura t o dados (textoLog log) hist).tempMaior (hostDe dados) := by
  rw [stTemp, h.fetch_tempStatush dados t o hist]
  by_cases hund : '_' ∈ hostDe dados
  · rw [if_pos hund, if_pos (by decide), if_neg fun hc => hc.1 hund]
  · simp only [hund, if_false, not_false_eq_true, true_and, h.length_textoAlarme_lt dados o, ite_not]

end Veredito

/-- **When the verdict tells the states that count.** -/
theorem veredito_iff {log : List Item} {ss : List Sensor} (h : LogSensores log ss) (dados : Str) :
    VereditoOk dados log ss ↔ (Completa dados (textoLog log) → VereditoCerto dados ss) := by
  constructor
  · intro hv hc
    have hrun := leitor_texto 0 .stored dados (textoLog log) ∅ (h.keys_cpuavg5 dados) hc
    obtain ⟨cpu, v, mem, resto, -, rfl, hok, halarme⟩ := hv _ _ _ _ hrun
    rw [h.stTemp_eq] at hok halarme
    unfold VereditoCerto
    by_cases ha : '_' ∉ hostDe dados ∧ ∃ s ∈ ss, s.estado.avisado
    · rw [if_pos ha] at halarme
      rw [if_neg ha.1]
      intro s hs hsd
      have hnamed := halarme _ rfl s hs (s.estado.anormal_iff.mpr (Or.inr hsd))
      exact (h.mem_nomesDoTexto dados .stored).mp hnamed
    · rw [if_neg ha] at hok
      have hnone := hok _ rfl
      split
      · exact hnone
      · exact fun s hs hsd => absurd (s.estado.anormal_iff.mpr (Or.inr hsd)) (hnone s hs)
  · intro hcerto t o hist d hrun
    have hc : Completa dados (textoLog log) := by
      by_contra hc
      rw [leitor_morre t o dados (textoLog log) hist hc] at hrun
      cases hrun
    have hcerto := hcerto hc
    unfold VereditoCerto at hcerto
    rw [leitor_texto t o dados (textoLog log) hist (h.keys_cpuavg5 dados) hc,
      Except.ok.injEq] at hrun
    refine ⟨_, _, _, _, by rw [← hrun, conteudo_insert_self]; rfl, rfl, fun x hx => ?_,
      fun x hx => ?_⟩
    · rw [h.stTemp_eq] at hx
      by_cases ha : '_' ∉ hostDe dados ∧ ∃ s ∈ ss, s.estado.avisado
      · rw [if_pos ha] at hx
        simp at hx
      · intro s hs han
        split at hcerto
        · exact hcerto s hs han
        · rename_i hund
          rcases s.estado.anormal_iff.mp han with hav | hsd
          · exact ha ⟨hund, s, hs, hav⟩
          · obtain ⟨s', hs', hav, -⟩ := hcerto s hs hsd
            exact ha ⟨hund, s', hs', hav⟩
    · rw [h.stTemp_eq] at hx
      by_cases ha : '_' ∉ hostDe dados ∧ ∃ s ∈ ss, s.estado.avisado
      · rw [if_pos ha, List.append_cancel_left_eq] at hx
        rw [if_neg ha.1] at hcerto
        intro s hs han
        rw [← hx, h.mem_nomesDoTexto dados o]
        rcases s.estado.anormal_iff.mp han with hav | hsd
        · exact ⟨s, hs, hav, rfl⟩
        · exact hcerto s hs hsd
      · rw [if_neg ha] at hx
        simp at hx

/-! ### Logs of given sensors -/

/-- The rows of a sensor. -/
def linhasSensor (s : Sensor) : List Item :=
  [.linha .tempNome s.idx "STRING".toList s.nome,
    .linha .tempMedido s.idx "INTEGER".toList (intText s.medido),
    .linha .tempLimiar s.idx "INTEGER".toList (intText s.limiar),
    .linha .tempStatus s.idx "INTEGER".toList s.estado.texto]

/-- A log with a row of the cpu and the rows of the sensors. -/
def logDe (ss : List Sensor) : List Item :=
  .cpu "INTEGER".toList (decimal 5) :: ss.flatMap linhasSensor

theorem linhasDe_logDe (ss : List Sensor) :
    linhasDe .memNome (logDe ss) = [] ∧
    linhasDe .tempNome (logDe ss) = ss.map (fun s => (s.idx, s.nome)) ∧
    linhasDe .tempMedido (logDe ss) = ss.map (fun s => (s.idx, intText s.medido)) ∧
    linhasDe .tempLimiar (logDe ss) = ss.map (fun s => (s.idx, intText s.limiar)) ∧
    linhasDe .tempStatus (logDe ss) = ss.map (fun s => (s.idx, s.estado.texto)) := by
  simp only [logDe, linhasDe, List.filterMap_cons]
  induction ss with
  | nil => simp
  | cons s ss ih => simpa [linhasSensor] using ih

theorem logDe_sensores {ss : List Sensor} (hn : ∀ s ∈ ss, ValorValido s.nome)
    (hd : ((ss.map Sensor.toLeitura).map Leitura.idx).Nodup) : LogSensores (logDe ss) ss where
  comum := by
    obtain ⟨ht1, ht2⟩ := tipoValido_sensor
    intro i hi
    rcases List.mem_cons.mp hi with rfl | hi
    · exact ⟨ht2, valorValido_numero fun c hc => Or.inr (isDigit_of_mem_decimal hc)⟩
    · obtain ⟨s, hs, hi⟩ := List.mem_flatMap.mp hi
      simp only [linhasSensor, List.mem_cons, List.not_mem_nil, or_false] at hi
      rcases hi with rfl | rfl | rfl | rfl
      · exact ⟨ht1, hn s hs⟩
      · exact ⟨ht2, valorValido_numero fun c hc => mem_intText hc⟩
      · exact ⟨ht2, valorValido_numero fun c hc => mem_intText hc⟩
      · exact ⟨ht2, valorValido_numero fun c hc => Or.inr (s.estado.isDigit_of_mem_texto hc)⟩
  cpu := by simp [logDe, cpus]
  nome := by
    rw [List.map_map]
    exact .of_eq (linhasDe_logDe ss).2.1
  medido := by
    rw [List.map_map]
    exact .of_eq (linhasDe_logDe ss).2.2.1
  limiar := by
    rw [List.map_map]
    exact .of_eq (linhasDe_logDe ss).2.2.2.1
  status := .of_eq (linhasDe_logDe ss).2.2.2.2
  nodup := hd

/-- Such a log has no pools. -/
theorem LogSensores.completa_logDe {ss : List Sensor} (h : LogSensores (logDe ss) ss) (dados : Str) :
    Completa dados (textoLog (logDe ss)) := by
  intro item hi
  rw [tabelasDe, ← tabelas, mem_tabelas _ h.comum, (linhasDe_logDe ss).1] at hi
  obtain ⟨r, hr, -⟩ := hi
  cases hr

/-- A sensor of the inlet. -/
def inlet (e : Estado) : Sensor := ⟨⟨1, "\"Inlet\"".toList, 30, 60⟩, e⟩

theorem log_inlet (e : Estado) : LogSensores (logDe [inlet e]) [inlet e] := by
  refine logDe_sensores (fun s hs => ?_) (by simp)
  rw [List.mem_singleton.mp hs]
  show ValorValido "\"Inlet\"".toList
  exact ⟨by decide +kernel, by decide +kernel⟩

theorem veredito_inlet : VereditoOk "r-1.txt".toList (logDe [inlet .warning]) [inlet .warning] := by
  refine (veredito_iff (log_inlet .warning) _).mpr fun _ => ?_
  rw [VereditoCerto, if_neg (by decide)]
  intro s hs hsd
  rw [List.mem_singleton.mp hs] at hsd
  cases hsd

/-- A sensor in shutdown leaves the verdict `ok`. -/
theorem veredito_em_shutdown : ¬ ∀ (dados : Str) (log : List Item) (ss : List Sensor),
    LogSensores log ss → VereditoOk dados log ss := by
  intro hv
  have h := log_inlet .shutdown
  have hrun := leitor_texto 0 .stored "r-1.txt".toList _ ∅ (h.keys_cpuavg5 _) (h.completa_logDe _)
  obtain ⟨cpu, v, mem, resto, -, hveq, hok, -⟩ := hv _ _ _ h _ _ _ _ hrun
  have hst := h.stTemp_eq "r-1.txt".toList 0 .stored ∅
  rw [if_neg] at hst
  · exact hok _ (hveq.trans hst) (inlet .shutdown) (by simp) (Or.inr (Or.inr (Or.inl rfl)))
  · rintro ⟨-, s, hs, ha⟩
    rw [List.mem_singleton.mp hs] at ha
    exact absurd ha (by decide)

end SnmpCollector.TempPwr
