import SnmpCollector.Snmp.ColetaCpu

set_option autoImplicit false

/-! # The names of the memory and temperature histories (`snmp/coleta_mem_temp_pwr.pl`)

A pool or a sensor is a row of a table of a host, but its history is named after the host and
the text that the device gives for the row: `host-text`, with some characters of the text
replaced by `_`. Two rows may have the same text, or texts that differ in replaced characters
only; and a `-` in a host name moves the place where the name is divided.
`arquivos_iff` says for which answers every row has a file of its own.
-/

namespace SnmpCollector.Snmp

open Perl

/-! ## The rows that are written -/

/-- A row of a table: the host, the index and the text that names it. -/
structure Sensor where
  host : Str
  it : Str
  nome : Str
  deriving DecidableEq

/-- The text as it stands in a file name, `cs` being the characters that are replaced. -/
def Sensor.nomeLimpo (cs : Str) (x : Sensor) : Str := semFim (sublinha cs x.nome)

/-- The file of a row. -/
def Sensor.arquivo (cs : Str) (x : Sensor) : Str := semFim (x.host ++ '-' :: sublinha cs x.nome)

/-- The replaced characters in the names of `snmp/mem` and of `snmp/temp`. -/
def trocaMem : Str := ['/']

def trocaTemp : Str := ['/', '\\', ' ', ')', '(']

/-- The same host and index. -/
def Sensor.mesmo (x y : Sensor) : Bool := decide ((x.host, x.it) = (y.host, y.it))

/-- The rounds over the pools of a line, up to one that ends the run: the row, and the hour
and the fields of the round. -/
def Rodada.rondasLinha (r : Rodada) (l : Str × Nat) : List (Sensor × Evento) :=
  if consultado r.visitas l then
    (upTo (fun it => (gravacao (r.visitas l.2) (hostname l.1) it).morre)
      ((r.visitas l.2).ordem.keys .mem (hMemNome (r.visitas l.2)).keys)).map fun it =>
        (⟨hostname l.1, it, fetch (hMemNome (r.visitas l.2)) it⟩,
          (r.rel l.2, gravacao (r.visitas l.2) (hostname l.1) it))
  else []

/-- The rounds over the pools in a run, each with its row. -/
def Rodada.rondas (r : Rodada) : List (Sensor × Evento) :=
  (alcancadas r.visitas r.pingT).flatMap r.rondasLinha

/-- The rows for which a run opens a file under `snmp/mem`. -/
def Rodada.sensoresMem (r : Rodada) : List Sensor := r.rondas.map Prod.fst

/-- The record of a sensor. -/
def PollMtp.registroTemp (p : PollMtp) (it : Str) : Str :=
  delimited ';' [decimal p.hora.t, p.hora.dataReg, p.hostname, fetch (hTempNome p.visita) it,
    fetch (hTempMedida p.visita) it, fetch (hTempLimiar p.visita) it,
    fetch (hTempStatus p.visita) it] ++ ['\n']

/-- The records of the sensors of a poll, each with its row. -/
def PollMtp.medidas (p : PollMtp) : List (Sensor × Str) :=
  (p.visita.ordem.keys .temp (hTempNome p.visita).keys).map fun it =>
    (⟨p.hostname, it, fetch (hTempNome p.visita) it⟩, p.registroTemp it)

def Rodada.medidas (r : Rodada) : List (Sensor × Str) := r.chegam.flatMap PollMtp.medidas

/-- The rows for which a run opens a file under `snmp/temp`. -/
def Rodada.sensoresTemp (r : Rodada) : List Sensor := r.medidas.map Prod.fst

/-! ### These are the writes of the script -/

theorem map_snd_rondas (r : Rodada) :
    r.rondas.map Prod.snd = eventos r.rel r.visitas r.pingT := by
  rw [Rodada.rondas, eventos, List.map_flatMap]
  refine List.flatMap_congr fun l _ => ?_
  unfold Rodada.rondasLinha eventosLinha rodadasLinha
  split
  · rw [gravacoes, upTo_map, List.map_map, List.map_map]
    rfl
  · rfl

theorem arquivo_of_mem_rondas {r : Rodada} {w : Sensor × Evento} (hw : w ∈ r.rondas) :
    w.1.arquivo trocaMem = w.2.2.nomeArq := by
  obtain ⟨l, -, hw⟩ := List.mem_flatMap.mp hw
  unfold Rodada.rondasLinha at hw
  split at hw
  · obtain ⟨it, -, rfl⟩ := List.mem_map.mp hw
    rfl
  · simp at hw

/-- What a run writes under `snmp/temp`: one record per sensor, to the file of the sensor. -/
theorem temp_coleta (r : Rodada) (s : Estado) :
    (fim (coleta r.rel r.visitas r.pingT s)).temp
      = escreve s.temp (r.medidas.map fun w => (w.1.arquivo trocaTemp, w.2)) := by
  rw [coleta, fim_foldlM_upTo (passo_eq_fim r.rel r.visitas), Rodada.medidas, Rodada.chegam,
    alcancadas]
  induction upTo (para r.visitas) r.pingT.zipIdx generalizing s with
  | nil => rfl
  | cons l ls ih =>
      rw [List.foldl_cons, ih, (fim_passo_outros r.rel r.visitas s l).1]
      by_cases hc : chega r.visitas l = true
      · rw [if_pos hc, List.filter_cons_of_pos hc, List.map_cons, List.flatMap_cons,
          List.map_append, escreve_append, PollMtp.medidas, List.map_map]
        congr 1
        rw [escreve, List.foldl_map]
        rfl
      · rw [if_neg hc, List.filter_cons_of_neg hc]

/-! ### A file depends on its own writes -/

/-- Rounds that are left out do not show in a file when those of the file are kept. -/
theorem conteudo_foldl_executa_filter {ws : List (Sensor × Evento)} {p : Sensor × Evento → Bool}
    {f : Str} (h : ∀ w ∈ ws, w.2.2.nomeArq = f → p w = true) (d : Dir) :
    conteudo ((ws.map Prod.snd).foldl executa d) f
      = conteudo (((ws.filter p).map Prod.snd).foldl executa d) f := by
  have hsame : ws.filter (fun w => decide (w.2.2.nomeArq = f))
      = (ws.filter p).filter fun w => decide (w.2.2.nomeArq = f) := by
    rw [List.filter_filter]
    refine List.filter_congr fun w hw => ?_
    by_cases hf : w.2.2.nomeArq = f
    · simp [hf, h w hw hf]
    · simp [hf]
  have htexto : ∀ es : List Evento, conteudo (es.foldl executa d) f
      = ((es.filter fun e => decide (e.2.nomeArq = f)).foldl efeito
          (lines '\n' (conteudo d f))).flatten := by
    intro es
    rw [← lines_foldl_executa, flatten_lines]
  rw [htexto, htexto, List.filter_map, List.filter_map]
  exact congrArg (fun l => ((l.map Prod.snd).foldl efeito (lines '\n' (conteudo d f))).flatten) hsame

theorem conteudo_grava_congr {d d' : Dir} {f : Str} (h : conteudo d f = conteudo d' f)
    (nomeArq registro : Str) :
    conteudo (grava d nomeArq registro) f = conteudo (grava d' nomeArq registro) f := by
  unfold grava
  by_cases hf : f = nomeArq
  · rw [← hf, conteudo_insert_self, conteudo_insert_self, h]
  · rw [conteudo_insert_ne d hf, conteudo_insert_ne d' hf, h]

/-- The same for records. -/
theorem conteudo_escreve_filter (nome : Sensor → Str) {ws : List (Sensor × Str)}
    {p : Sensor × Str → Bool} {f : Str} (h : ∀ w ∈ ws, nome w.1 = f → p w = true) {d d' : Dir}
    (hd : conteudo d f = conteudo d' f) :
    conteudo (escreve d (ws.map fun w => (nome w.1, w.2))) f
      = conteudo (escreve d' ((ws.filter p).map fun w => (nome w.1, w.2))) f := by
  induction ws generalizing d d' with
  | nil => exact hd
  | cons w ws ih =>
      have hws : ∀ x ∈ ws, nome x.1 = f → p x = true := fun x hx => h x (by simp [hx])
      by_cases hp : p w = true
      · rw [List.filter_cons_of_pos hp, List.map_cons, List.map_cons]
        exact ih hws (conteudo_grava_congr hd _ _)
      · -- a record that is left out is for another file
        have hne : f ≠ nome w.1 := fun heq => hp (h w (by simp) heq.symm)
        rw [List.filter_cons_of_neg hp, List.map_cons]
        refine ih hws (Eq.trans ?_ hd)
        show conteudo (grava d (nome w.1) w.2) f = conteudo d f
        rw [grava, conteudo_insert_ne d hne]

/-! ## Equal names -/

theorem semFim_arquivo (h n : Str) : semFim (h ++ '-' :: n) = h ++ '-' :: semFim n := by
  have hdash : semFim (h ++ ['-']) = h ++ ['-'] :=
    List.rdropWhile_concat_neg _ _ _ (by decide)
  unfold semFim at hdash ⊢
  rw [List.append_cons]
  induction n using List.reverseRecOn with
  | nil => rw [List.append_nil, hdash]; rfl
  | append_singleton n c ih =>
      rw [← List.append_assoc]
      by_cases hc : isSpace c = true
      · rw [List.rdropWhile_concat_pos _ _ _ hc, List.rdropWhile_concat_pos _ _ _ hc, ih]
      · rw [List.rdropWhile_concat_neg _ _ _ hc, List.rdropWhile_concat_neg _ _ _ hc]
        simp

theorem arquivo_eq (cs : Str) (x : Sensor) : x.arquivo cs = x.host ++ '-' :: x.nomeLimpo cs :=
  semFim_arquivo x.host _

/-- Two names `h-n` and `h'-n'` are the same text when their parts are the same, or when one
host is the other with `-z` and the text after the shorter host goes on with `z-`. -/
theorem nome_eq_iff (h h' n n' : Str) :
    h ++ '-' :: n = h' ++ '-' :: n' ↔
      (h = h' ∧ n = n') ∨ (∃ z, h' = h ++ '-' :: z ∧ n = z ++ '-' :: n') ∨
        ∃ z, h = h' ++ '-' :: z ∧ n' = z ++ '-' :: n := by
  constructor
  · intro heq
    -- one of the hosts is longer, and what it has more begins with the `-` after the other
    rcases List.append_eq_append_iff.mp heq with ⟨as, hh, hn⟩ | ⟨bs, hh, hn⟩
    · cases as with
      | nil =>
          rw [List.append_nil] at hh
          rw [List.nil_append, List.cons.injEq] at hn
          exact Or.inl ⟨hh.symm, hn.2⟩
      | cons c z =>
          rw [List.cons_append, List.cons.injEq] at hn
          rw [← hn.1] at hh
          exact Or.inr (Or.inl ⟨z, hh, hn.2⟩)
    · cases bs with
      | nil =>
          rw [List.append_nil] at hh
          rw [List.nil_append, List.cons.injEq] at hn
          exact Or.inl ⟨hh, hn.2.symm⟩
      | cons c z =>
          rw [List.cons_append, List.cons.injEq] at hn
          rw [← hn.1] at hh
          exact Or.inr (Or.inr ⟨z, hh, hn.2⟩)
  · rintro (⟨rfl, rfl⟩ | ⟨z, rfl, rfl⟩ | ⟨z, rfl, rfl⟩)
    · rfl
    · simp
    · simp

/-! ## Which answers keep the rows apart -/

/-- Rows of different hosts or indices have different files. -/
def ArquivosProprios (cs : Str) (xs : List Sensor) : Prop :=
  ∀ x ∈ xs, ∀ y ∈ xs, (x.host, x.it) ≠ (y.host, y.it) → x.arquivo cs ≠ y.arquivo cs

/-- Rows of one host have texts that differ in more than replaced characters and white space
at the end; and where a host name is another one with `-z`, no text of the shorter host is
`z-` and a text of the longer one. -/
structure NomesSeparados (cs : Str) (xs : List Sensor) : Prop where
  mesmoHost : ∀ x ∈ xs, ∀ y ∈ xs, x.host = y.host → x.it ≠ y.it → x.nomeLimpo cs ≠ y.nomeLimpo cs
  hostMaior : ∀ x ∈ xs, ∀ y ∈ xs, ∀ z, y.host = x.host ++ '-' :: z →
    x.nomeLimpo cs ≠ z ++ '-' :: y.nomeLimpo cs

theorem arquivosProprios_iff (cs : Str) (xs : List Sensor) :
    ArquivosProprios cs xs ↔ NomesSeparados cs xs := by
  constructor
  · intro h
    refine ⟨fun x hx y hy hhost hit hnome => ?_, fun x hx y hy z hz hnome => ?_⟩
    · refine h x hx y hy (fun heq => hit (congrArg Prod.snd heq)) ?_
      rw [arquivo_eq, arquivo_eq, hhost, hnome]
    · refine h x hx y hy (fun heq => ?_) ?_
      · -- a host name is not itself with a `-z`
        have hlen := congrArg (fun p : Str × Str => p.1.length) heq
        rw [hz] at hlen
        simp at hlen
      · rw [arquivo_eq, arquivo_eq, nome_eq_iff]
        exact Or.inr (Or.inl ⟨z, hz, hnome⟩)
  · intro h x hx y hy hne heq
    rw [arquivo_eq, arquivo_eq, nome_eq_iff] at heq
    rcases heq with ⟨hhost, hnome⟩ | ⟨z, hz, hnome⟩ | ⟨z, hz, hnome⟩
    · refine h.mesmoHost x hx y hy hhost (fun hit => hne ?_) hnome
      rw [hhost, hit]
    · exact h.hostMaior x hx y hy z hz hnome
    · exact h.hostMaior y hy x hx z hz hnome

/-- Every row has a file of its own, and in this file a run leaves what the rounds and records
of this row alone would leave. -/
structure UmSensorPorArquivo (r : Rodada) : Prop where
  nomesMem : ArquivosProprios trocaMem r.sensoresMem
  nomesTemp : ArquivosProprios trocaTemp r.sensoresTemp
  mem : ∀ (s : Estado), ∀ x ∈ r.sensoresMem,
    conteudo (fim (coleta r.rel r.visitas r.pingT s)).mem (x.arquivo trocaMem)
      = conteudo (((r.rondas.filter fun w => w.1.mesmo x).map Prod.snd).foldl executa s.mem)
          (x.arquivo trocaMem)
  temp : ∀ (s : Estado), ∀ x ∈ r.sensoresTemp,
    conteudo (fim (coleta r.rel r.visitas r.pingT s)).temp (x.arquivo trocaTemp)
      = conteudo (escreve s.temp ((r.medidas.filter fun w => w.1.mesmo x).map fun w =>
          (w.1.arquivo trocaTemp, w.2))) (x.arquivo trocaTemp)

/-- With names of their own, a write to the file of a row is a write for this row. -/
theorem mesmo_of_arquivo {cs : Str} {xs : List Sensor} (h : ArquivosProprios cs xs) {x y : Sensor}
    (hx : x ∈ xs) (hy : y ∈ xs) (heq : y.arquivo cs = x.arquivo cs) : y.mesmo x = true := by
  rw [Sensor.mesmo, decide_eq_true_iff]
  by_contra hne
  exact h y hy x hx hne heq

theorem umSensorPorArquivo_of_proprios {r : Rodada} (hmem : ArquivosProprios trocaMem r.sensoresMem)
    (htemp : ArquivosProprios trocaTemp r.sensoresTemp) : UmSensorPorArquivo r := by
  refine ⟨hmem, htemp, fun s x hx => ?_, fun s x hx => ?_⟩
  · rw [mem_coleta, ← map_snd_rondas]
    refine conteudo_foldl_executa_filter (fun w hw hf => ?_) s.mem
    rw [← arquivo_of_mem_rondas hw] at hf
    exact mesmo_of_arquivo hmem hx (List.mem_map_of_mem hw) hf
  · rw [temp_coleta]
    exact conteudo_escreve_filter (Sensor.arquivo trocaTemp)
      (fun w hw hf => mesmo_of_arquivo htemp hx (List.mem_map_of_mem hw) hf) rfl

/-- **When every row has a file of its own**, in a run and for the pools and the sensors. -/
theorem arquivos_iff (r : Rodada) :
    UmSensorPorArquivo r ↔
      NomesSeparados trocaMem r.sensoresMem ∧ NomesSeparados trocaTemp r.sensoresTemp := by
  rw [← arquivosProprios_iff, ← arquivosProprios_iff]
  constructor
  · intro h
    exact ⟨h.nomesMem, h.nomesTemp⟩
  · rintro ⟨hmem, htemp⟩
    exact umSensorPorArquivo_of_proprios hmem htemp

/-- A host with two pools of the same name. -/
def doisPools : Visita where
  sessao := true
  agente := fun oid =>
    if oid = oidMemTipo then
      ((∅ : Hash Str Str).insert (oidMemTipo ++ ".1".toList) "Processor".toList).insert
        (oidMemTipo ++ ".2".toList) "Processor".toList
    else if oid = oidMemFree then
      ((∅ : Hash Str Str).insert (oidMemFree ++ ".1".toList) "63251520".toList).insert
        (oidMemFree ++ ".2".toList) "1048576".toList
    else ∅
  ordem := .stored

/-- Both pools are written to `mcpae01.pae.psys-Processor`. -/
theorem pools_misturados : ¬ ∀ r : Rodada, UmSensorPorArquivo r := by
  intro h
  have hmem := (h ⟨fun _ => hora0153, fun _ => doisPools, [mcpae01]⟩).nomesMem
  have h1 : (⟨"mcpae01.pae.psys".toList, ".1".toList, "Processor".toList⟩ : Sensor)
      ∈ (⟨fun _ => hora0153, fun _ => doisPools, [mcpae01]⟩ : Rodada).sensoresMem := by decide +kernel
  have h2 : (⟨"mcpae01.pae.psys".toList, ".2".toList, "Processor".toList⟩ : Sensor)
      ∈ (⟨fun _ => hora0153, fun _ => doisPools, [mcpae01]⟩ : Rodada).sensoresMem := by decide +kernel
  exact hmem _ h1 _ h2 (by decide) (by decide +kernel)

end SnmpCollector.Snmp
