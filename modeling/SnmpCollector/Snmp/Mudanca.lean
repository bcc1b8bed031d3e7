import SnmpCollector.Snmp.GetInt

set_option autoImplicit false

/-! # Since when an interface has its status (`snmp/get_int.pl`, lines 107 to 156)

The first two fields of a line of `res_get.txt` are the time and date of the last change of
status. They are carried from run to run: a poll takes them over from the line of the key in
the previous `res_get.txt` if the statuses in it are those of the poll.

What is compared are the texts of the translation table. An answer that the table does not
have, such as `noSuchInstance`, is translated to the empty text, and so is the status in a
record that does not exist. `tempo_iff` says for which histories of answers the line has the
time of the last change.
-/

namespace SnmpCollector.Snmp.GetInt

open Perl

/-! ## The polls of a key -/

/-- The polls of a run for the key `k`. -/
def Rodada.doKey (r : Rodada) (k : Str) : List Poll :=
  r.polls.filter fun v => (decodifica v.item).map Alvo.tinfo = some k

/-- The operational and the administrative status that the agent answered. -/
def Poll.bruto (v : Poll) : Str × Str :=
  match decodifica v.item, v.consulta.resultado with
  | some d, .resposta result => (result (oidIfstatus d.idInt), result (oidIfadminStatus d.idInt))
  | _, _ => ([], [])

/-- The statuses as they are printed and compared. -/
def Poll.traduzido (v : Poll) : Str × Str :=
  (fetch hIfoperstatus v.bruto.1, fetch hIfoperstatus v.bruto.2)

/-- `$t` and `$data_reg` of a poll. -/
def Poll.agora (v : Poll) : Str × Str := (decimal v.consulta.hora.t, v.consulta.hora.dataReg)

/-- Runs in which the key `k` is polled, once in each: `vs` are its polls, in the order of the
runs. Before the first run `res_get.txt` has no record of the key. No line of `id_getsnmp.txt`
holds a carriage return, which the reader removes from all that it writes there. -/
structure Historico (k : Str) (a : Arquivos) (rs : List Rodada) (vs : List Poll) : Prop where
  novo : fetch (hStOld (lines '\n' a.resGet)) k = []
  completas : ∀ r ∈ rs, r.completa = true
  limpas : ∀ r ∈ rs, r.Limpa
  semCr : ∀ r ∈ rs, '\r' ∉ r.idGetsnmp
  polls : rs.map (Rodada.doKey · k) = vs.map fun v => [v]
  crescente : (vs.map fun v => v.consulta.hora.t).Pairwise (· < ·)

/-! ## What the next run finds -/

/-- The lines of a published file with the key `k` are those of the polls of the key. -/
theorem filter_saida {r : Rodada} (hr : r.Limpa) (lin : List Str) (k : Str) {vs : List Poll}
    (hvs : ∀ v ∈ vs, v ∈ r.polls) :
    ((vs.flatMap (saida (hStOld lin))).map (· ++ ['\n'])).filter
        (fun l => field (split ';' l) 12 = k)
      = ((vs.filter fun v => (decodifica v.item).map Alvo.tinfo = some k).flatMap
          (saida (hStOld lin))).map (· ++ ['\n']) := by
  induction vs with
  | nil => rfl
  | cons v vs ih =>
      have hv := hvs v (by simp)
      rw [List.flatMap_cons, List.map_append, List.filter_append,
        ih (fun w hw => hvs w (by simp [hw]))]
      cases hd : decodifica v.item with
      | none =>
          have hnil : saida (hStOld lin) v = [] := by simp [saida, hd]
          rw [hnil, List.filter_cons_of_neg (by simp [hd])]
          rfl
      | some d =>
          have hkey : ∀ l ∈ saida (hStOld lin) v, field (split ';' (l ++ ['\n'])) 12 = d.tinfo :=
            fun l hl => chave_of_mem_saida hr hv hd hl
          by_cases hk : d.tinfo = k
          · rw [List.filter_cons_of_pos (by simp [hd, hk]), List.flatMap_cons, List.map_append,
              List.filter_eq_self.mpr]
            intro l hl
            obtain ⟨l', hl', rfl⟩ := List.mem_map.mp hl
            rw [hkey l' hl', decide_eq_true_iff]
            exact hk
          · rw [List.filter_cons_of_neg (by simp [hd, hk]), List.filter_eq_nil_iff.mpr]
            · rfl
            · intro l hl
              obtain ⟨l', hl', rfl⟩ := List.mem_map.mp hl
              rw [hkey l' hl', decide_eq_true_iff]
              exact hk

theorem chomp_status (s : Str) : chomp (fetch hIfoperstatus s) = fetch hIfoperstatus s := by
  have key : ∀ x ∈ [[], "up".toList, "down".toList, "testing".toList, "unknown".toList,
      "dormant".toList, "notPresent".toList, "lowerLayerDown".toList], chomp x = x := by
    decide
  exact key _ (fetch_hIfoperstatus_mem s)

theorem chomp_agora (v : Poll) : chomp v.agora.1 = v.agora.1 ∧ chomp v.agora.2 = v.agora.2 := by
  have hdata : ∀ c : Char, c ≠ '-' → c ≠ ' ' → c ≠ ':' → c.isDigit = false →
      c ∉ v.consulta.hora.dataReg := by
    intro c h1 h2 h3 h4 hc
    rcases Localtime.mem_dataReg hc with h | h | h | h
    · exact h1 h
    · exact h2 h
    · exact h3 h
    · rw [h4] at h
      cases h
  constructor
  · exact chomp_eq_self (not_mem_decimal (by decide) _) (not_mem_decimal (by decide) _)
  · exact chomp_eq_self (hdata _ (by decide) (by decide) (by decide) (by decide))
      (hdata _ (by decide) (by decide) (by decide) (by decide))

/-- A record is stored without line breaks. -/
theorem chomp_field_hStOld (lin : List Str) (k : Str) (n : Nat) :
    chomp (field (split ';' (fetch (hStOld lin) k)) n)
      = field (split ';' (fetch (hStOld lin) k)) n := by
  have hself : chomp (fetch (hStOld lin) k) = fetch (hStOld lin) k := by
    rw [fetch, hStOld, lookup_load]
    cases hlast : lastSuch (fun st => decide (field (split ';' st) 12 = k)) (lin.map chomp) with
    | none => rfl
    | some st =>
        obtain ⟨st', _, rfl⟩ := List.mem_map.mp (lastSuch_eq_some hlast).1
        rw [Option.map_some, Option.some_or, Option.getD_some]
        simp [chomp, List.filter_filter]
  have hsub : ∀ c ∈ field (split ';' (fetch (hStOld lin) k)) n, c ≠ '\n' ∧ c ≠ '\r' := by
    intro c hc
    have hmem := (field_split_spec ';' (fetch (hStOld lin) k) n).2 hc
    rw [← hself] at hmem
    exact (mem_chomp hmem).2
  exact chomp_eq_self (fun h => (hsub _ h).1 rfl) (fun h => (hsub _ h).2 rfl)

/-- The statuses and the time in the record of a key. -/
def statusDe (st : Str) : Str × Str := (field (split ';' st) 5, field (split ';' st) 6)

def tempoDe (st : Str) : Str × Str := (field (split ';' st) 0, field (split ';' st) 1)

section Passo

variable {r : Rodada} {a : Arquivos} {k : Str} {v : Poll}

/-- The one poll of a key, with what it decodes to and what the agent answered. -/
theorem exists_alvo (hc : r.completa = true) (hk : r.doKey k = [v]) :
    ∃ d result, v ∈ r.polls ∧ decodifica v.item = some d ∧ d.tinfo = k ∧
      v.consulta.resultado = .resposta result := by
  have hv : v ∈ r.doKey k := by rw [hk]; exact List.mem_singleton.mpr rfl
  obtain ⟨hmem, hkey⟩ := List.mem_filter.mp hv
  obtain ⟨d, hd, htinfo⟩ := Option.map_eq_some_iff.mp (of_decide_eq_true hkey)
  have hok : ¬ v.falha = true := by
    have hnone : ∀ w ∈ r.polls, ¬ w.falha = true := by simpa [Rodada.completa] using hc
    exact hnone v hmem
  cases hres : v.consulta.resultado with
  | semSessao => simp [Poll.falha, hd, hres] at hok
  | semResposta => simp [Poll.falha, hd, hres] at hok
  | resposta result => exact ⟨d, result, hmem, hd, htinfo, rfl⟩

/-- The line of the key in the published file. -/
theorem linhas_da_chave (hc : r.completa = true) (hl : r.Limpa) (hk : r.doKey k = [v]) {d : Alvo}
    {result : Str → Str} (hd : decodifica v.item = some d)
    (hres : v.consulta.resultado = .resposta result) :
    (lines '\n' (getInt r a).resGet).filter (fun l => field (split ';' l) 12 = k)
      = [linhaRes (hStOld (lines '\n' a.resGet)) d v.consulta.hora result ++ ['\n']] := by
  rw [lines_publicado hl hc, filter_saida hl _ k (fun w hw => hw)]
  show ((r.doKey k).flatMap _).map _ = _
  rw [hk]
  simp [saida, hd, hres]

/-- The record that the next run finds. -/
theorem fetch_publicado (hc : r.completa = true) (hl : r.Limpa) (hcr : '\r' ∉ r.idGetsnmp)
    (hk : r.doKey k = [v]) {d : Alvo} {result : Str → Str} (hd : decodifica v.item = some d)
    (hres : v.consulta.resultado = .resposta result) :
    fetch (hStOld (lines '\n' (getInt r a).resGet)) k
      = chomp (linhaRes (hStOld (lines '\n' a.resGet)) d v.consulta.hora result ++ ['\n']) := by
  have hkeys : ∀ lin ∈ lines '\n' (getInt r a).resGet,
      ((fun st => decide (field (split ';' st) 12 = k)) ∘ chomp) lin
        = decide (field (split ';' lin) 12 = k) := by
    intro lin hlin
    rw [lines_publicado hl hc] at hlin
    obtain ⟨l, hl', rfl⟩ := List.mem_map.mp hlin
    obtain ⟨w, hw, hmem⟩ := List.mem_flatMap.mp hl'
    obtain ⟨d', result', hd', hres', rfl⟩ := mem_saida hmem
    have hclaro := claro_camposRes hl hw hd' hres' (lines '\n' a.resGet)
    -- a key holds no carriage return, so that it is stored as it is printed
    have hchomp : chomp d'.tinfo = d'.tinfo := by
      have hsub : d'.tinfo ⊆ r.idGetsnmp := by
        rw [tinfo_decodifica hd']
        exact List.Subset.trans (field_split_spec ';' _ 0).2 (subset_of_mem_lines (mem_polls hw).1)
      exact chomp_eq_self (claro_decodifica (not_mem_dropLast_of_mem_lines (mem_polls hw).1) hd').2.2.2.2
        (fun h => hcr (hsub h))
    rw [Function.comp_apply, field_linhaRes hclaro _ (by decide), linhaRes,
      field_chomp_delimited (fun f hf => (hclaro f hf).1) (by simp [camposRes])]
    show decide (chomp d'.tinfo = k) = decide (d'.tinfo = k)
    rw [hchomp]
  rw [fetch, hStOld, lookup_load, lastSuch_map, lastSuch_congr hkeys, lastSuch,
    linhas_da_chave hc hl hk hd hres]
  rfl

/-- The record has the fields of the printed line; those that count hold no carriage return. -/
theorem field_publicado (hc : r.completa = true) (hl : r.Limpa) (hcr : '\r' ∉ r.idGetsnmp)
    (hk : r.doKey k = [v]) {d : Alvo} {result : Str → Str} (hv : v ∈ r.polls)
    (hd : decodifica v.item = some d) (hres : v.consulta.resultado = .resposta result) :
    statusDe (fetch (hStOld (lines '\n' (getInt r a).resGet)) k) = statusPar d result ∧
    tempoDe (fetch (hStOld (lines '\n' (getInt r a).resGet)) k)
      = tempo (hStOld (lines '\n' a.resGet)) d v.consulta.hora result := by
  have hclaro := claro_camposRes hl hv hd hres (lines '\n' a.resGet)
  have hfield : ∀ n, n < 13 → field (split ';' (fetch (hStOld (lines '\n' (getInt r a).resGet)) k)) n
      = chomp (field (camposRes (hStOld (lines '\n' a.resGet)) d v.consulta.hora result) n) := by
    intro n hn
    rw [fetch_publicado hc hl hcr hk hd hres]
    exact field_chomp_delimited (fun f hf => (hclaro f hf).1) hn
  constructor
  · rw [statusDe, hfield 5 (by decide), hfield 6 (by decide)]
    exact Prod.ext (chomp_status _) (chomp_status _)
  · rw [tempoDe, hfield 0 (by decide), hfield 1 (by decide)]
    show (chomp (tempo _ d _ result).1, chomp (tempo _ d _ result).2) = _
    rw [tempo]
    split
    · exact Prod.ext (chomp_field_hStOld _ _ 0) (chomp_field_hStOld _ _ 1)
    · exact Prod.ext (chomp_agora v).1 (chomp_agora v).2

/-- **One run of the key.** The new record has the statuses of the poll; it keeps the time of
the old record if the statuses are the same, else it has the time of the poll. -/
theorem passo_da_chave (hc : r.completa = true) (hl : r.Limpa) (hcr : '\r' ∉ r.idGetsnmp)
    (hk : r.doKey k = [v]) (a : Arquivos) :
    statusDe (fetch (hStOld (lines '\n' (getInt r a).resGet)) k) = v.traduzido ∧
    tempoDe (fetch (hStOld (lines '\n' (getInt r a).resGet)) k)
      = if statusDe (fetch (hStOld (lines '\n' a.resGet)) k) = v.traduzido then
          tempoDe (fetch (hStOld (lines '\n' a.resGet)) k)
        else v.agora := by
  obtain ⟨d, result, hv, hd, htinfo, hres⟩ := exists_alvo hc hk
  obtain ⟨h1, h2⟩ := field_publicado (a := a) hc hl hcr hk hv hd hres
  have htrad : v.traduzido = statusPar d result := by
    simp [Poll.traduzido, Poll.bruto, statusPar, hd, hres]
  rw [htrad]
  refine ⟨h1, ?_⟩
  rw [h2, tempo, htinfo]
  rfl

end Passo

/-! ## A sequence of runs

The polls of the key are taken from the newest to the oldest. -/

/-- The statuses that the next poll finds: empty before the first poll. -/
def traduzidoAnterior : List Poll → Str × Str
  | [] => ([], [])
  | v :: _ => v.traduzido

/-- The time that the record carries: empty before the first poll. -/
def tempoCarregado : List Poll → Str × Str
  | [] => ([], [])
  | v :: vs => if traduzidoAnterior vs = v.traduzido then tempoCarregado vs else v.agora

/-- The first poll of the longest block of newest polls with the same answers. -/
def inicioDoBloco : List Poll → Option Poll
  | [] => none
  | v :: vs => (v :: vs.takeWhile fun w => w.bruto = v.bruto).getLast?

/-- The polls before this block. -/
def antesDoBloco : List Poll → List Poll
  | [] => []
  | v :: vs => vs.dropWhile fun w => w.bruto = v.bruto

/-- The line of the key in `res_get.txt` has the time and date of the first poll of the block. -/
def TempoOk (k : Str) (res : Str) (vs : List Poll) : Prop :=
  ∀ u ∈ inicioDoBloco vs.reverse, ∃ lin,
    (lines '\n' res).filter (fun l => field (split ';' l) 12 = k) = [lin] ∧
      (field (split ';' lin) 0, field (split ';' lin) 1) = u.agora

theorem historico_concat {k : Str} {a : Arquivos} {rs : List Rodada} {r : Rodada} {vs : List Poll}
    (h : Historico k a (rs ++ [r]) vs) :
    ∃ vs' v, vs = vs' ++ [v] ∧ Historico k a rs vs' ∧ r.doKey k = [v] := by
  have hpolls := h.polls
  rw [List.map_append, List.map_singleton] at hpolls
  rcases List.eq_nil_or_concat' vs with rfl | ⟨vs', v, rfl⟩
  · simp at hpolls
  · rw [List.map_append, List.map_singleton] at hpolls
    obtain ⟨h1, h2⟩ := List.append_inj' hpolls rfl
    have hcres := h.crescente
    rw [List.map_append] at hcres
    exact ⟨vs', v, rfl,
      ⟨h.novo, fun x hx => h.completas x (by simp [hx]), fun x hx => h.limpas x (by simp [hx]),
        fun x hx => h.semCr x (by simp [hx]), h1, (List.pairwise_append.mp hcres).1⟩,
      List.singleton_injective h2⟩

/-- **The record of the key over a sequence of runs.** -/
theorem registro_da_chave {k : Str} {a : Arquivos} {rs : List Rodada} {vs : List Poll}
    (h : Historico k a rs vs) :
    statusDe (fetch (hStOld (lines '\n' (executa rs a).resGet)) k) = traduzidoAnterior vs.reverse ∧
    tempoDe (fetch (hStOld (lines '\n' (executa rs a).resGet)) k) = tempoCarregado vs.reverse := by
  induction rs using List.reverseRecOn generalizing vs with
  | nil =>
      have hnil : vs = [] := by simpa using h.polls.symm
      subst hnil
      rw [executa, List.foldl_nil, h.novo]
      exact ⟨rfl, rfl⟩
  | append_singleton rs r ih =>
      obtain ⟨vs', v, rfl, h', hk⟩ := historico_concat h
      obtain ⟨ih1, ih2⟩ := ih h'
      have hmem : r ∈ rs ++ [r] := by simp
      obtain ⟨h1, h2⟩ := passo_da_chave (h.completas r hmem) (h.limpas r hmem) (h.semCr r hmem) hk
        (executa rs a)
      rw [executa_concat, List.reverse_concat]
      refine ⟨h1, ?_⟩
      rw [h2, ih1, ih2]
      rfl

/-! ### The last block -/

theorem bruto_eq_traduzido {v w : Poll} (h : w.bruto = v.bruto) : w.traduzido = v.traduzido := by
  rw [Poll.traduzido, Poll.traduzido, h]

/-- Within the block the time is carried back to its first poll. -/
theorem bloco_spec {vs : List Poll} {u : Poll} (hu : u ∈ inicioDoBloco vs) :
    (u :: antesDoBloco vs) <:+ vs ∧ tempoCarregado vs = tempoCarregado (u :: antesDoBloco vs) := by
  cases vs with
  | nil => simp [inicioDoBloco] at hu
  | cons v vs =>
      induction vs generalizing v with
      | nil =>
          have huv : v = u := by simpa [inicioDoBloco] using hu
          rw [huv]
          exact ⟨List.suffix_refl _, rfl⟩
      | cons w vs ih =>
          by_cases hw : w.bruto = v.bruto
          · -- the newer poll has the same text: the block and what is before it stay
            have hinicio : inicioDoBloco (v :: w :: vs) = inicioDoBloco (w :: vs) := by
              rw [inicioDoBloco, inicioDoBloco, List.takeWhile_cons_of_pos (by simpa using hw), hw]
              rfl
            have hantes : antesDoBloco (v :: w :: vs) = antesDoBloco (w :: vs) := by
              rw [antesDoBloco, antesDoBloco, List.dropWhile_cons_of_pos (by simpa using hw), hw]
            rw [hinicio] at hu
            obtain ⟨hsuf, htempo⟩ := ih w hu
            rw [hantes]
            refine ⟨hsuf.trans (List.suffix_cons v _), ?_⟩
            have hsame : traduzidoAnterior (w :: vs) = v.traduzido := bruto_eq_traduzido hw
            rw [tempoCarregado, if_pos hsame, htempo]
          · -- the newer poll starts a block of its own
            have huv : v = u := by
              simpa [inicioDoBloco, hw] using hu
            have hantes : antesDoBloco (v :: w :: vs) = w :: vs := by
              rw [antesDoBloco, List.dropWhile_cons_of_neg (by simpa using hw)]
            rw [hantes, huv]
            exact ⟨List.suffix_refl _, rfl⟩

/-- A carried time is that of some poll, or empty. -/
theorem tempoCarregado_mem (vs : List Poll) :
    tempoCarregado vs = ([], []) ∨ ∃ w ∈ vs, tempoCarregado vs = w.agora := by
  induction vs with
  | nil => exact Or.inl rfl
  | cons v vs ih =>
      rw [tempoCarregado]
      split
      · exact ih.imp_right fun ⟨w, hw, htempo⟩ => ⟨w, List.mem_cons_of_mem v hw, htempo⟩
      · exact Or.inr ⟨v, List.mem_cons_self, rfl⟩

/-- With later clocks for later polls, the first poll of the block gives its time exactly when
its statuses are not those found before it. -/
theorem tempoCarregado_iff {vs : List Poll}
    (hdec : (vs.map fun v => v.consulta.hora.t).Pairwise (· > ·)) {u : Poll}
    (hu : u ∈ inicioDoBloco vs) :
    tempoCarregado vs = u.agora ↔ u.traduzido ≠ traduzidoAnterior (antesDoBloco vs) := by
  obtain ⟨hsuf, htempo⟩ := bloco_spec hu
  rw [htempo, tempoCarregado]
  constructor
  · intro hagora heq
    rw [if_pos heq.symm] at hagora
    -- then the time is empty or that of an earlier poll
    rcases tempoCarregado_mem (antesDoBloco vs) with hnil | ⟨w, hw, hw'⟩
    · rw [hnil] at hagora
      have hdecimal : ([] : Str) = decimal u.consulta.hora.t := congrArg Prod.fst hagora
      exact decimal_ne_nil _ hdecimal.symm
    · rw [hw'] at hagora
      have ht : w.consulta.hora.t = u.consulta.hora.t := decimal_injective (congrArg Prod.fst hagora)
      have hlt := (List.pairwise_cons.mp (hdec.sublist (hsuf.sublist.map _))).1 _
        (List.mem_map_of_mem (f := fun v : Poll => v.consulta.hora.t) hw)
      omega
  · intro hne
    rw [if_neg (fun heq => hne heq.symm)]

/-- **When the line of a key has the time of the last change.** After a sequence of runs it
does exactly when the translated statuses of the first poll of the last block are not those of
the poll before the block, or, if the block goes back to the first poll, not both empty. -/
theorem tempo_iff (k : Str) (a : Arquivos) (rs : List Rodada) (vs : List Poll)
    (h : Historico k a rs vs) :
    TempoOk k (executa rs a).resGet vs ↔
      ∀ u ∈ inicioDoBloco vs.reverse, u.traduzido ≠ traduzidoAnterior (antesDoBloco vs.reverse) := by
  refine forall₂_congr fun u hu => ?_
  have hdec : (vs.reverse.map fun v => v.consulta.hora.t).Pairwise (· > ·) := by
    rw [List.map_reverse]
    exact List.pairwise_reverse.mpr h.crescente
  rw [← tempoCarregado_iff hdec hu, ← (registro_da_chave h).2]
  -- the last run printed the line of the key and the record is this line
  rcases List.eq_nil_or_concat' rs with rfl | ⟨rs', r, rfl⟩
  · have hnil : vs = [] := by simpa using h.polls.symm
    rw [hnil] at hu
    simp [inicioDoBloco] at hu
  · obtain ⟨vs', v, rfl, h', hk⟩ := historico_concat h
    have hmem : r ∈ rs' ++ [r] := by simp
    have hc := h.completas r hmem
    have hl := h.limpas r hmem
    obtain ⟨d, result, hv, hd, htinfo, hres⟩ := exists_alvo hc hk
    have hclaro := claro_camposRes hl hv hd hres (lines '\n' (executa rs' a).resGet)
    have hlinha := linhas_da_chave (a := executa rs' a) hc hl hk hd hres
    have htempo := (field_publicado (a := executa rs' a) hc hl (h.semCr r hmem) hk hv hd hres).2
    set lin := linhaRes (hStOld (lines '\n' (executa rs' a).resGet)) d v.consulta.hora result ++ ['\n']
      with hlin
    have hcampos : (field (split ';' lin) 0, field (split ';' lin) 1)
        = tempo (hStOld (lines '\n' (executa rs' a).resGet)) d v.consulta.hora result := by
      rw [hlin, field_linhaRes hclaro _ (by decide), field_linhaRes hclaro _ (by decide)]
      rfl
    rw [executa_concat, hlinha, htempo, ← hcampos]
    constructor
    · rintro ⟨lin', heq, hagora⟩
      rw [List.singleton_injective heq]
      exact hagora
    · intro hagora
      exact ⟨lin, rfl, hagora⟩

/-- The poll of such a run. -/
def pollPae02 (h : Hora) (valor : Str) : Poll := ⟨linhaPae02, ⟨h, .resposta fun _ => valor⟩⟩

theorem tinfo_linhaPae02 : (decodifica linhaPae02).map Alvo.tinfo = some chavePae02 := by
  decide +kernel

theorem doKey_rodadaPae02 (h : Hora) (valor : Str) :
    (rodadaPae02 h valor).doKey chavePae02 = [pollPae02 h valor] := by
  rw [Rodada.doKey, polls_rodadaPae02, List.filter_cons_of_pos (by simpa using tinfo_linhaPae02),
    List.filter_nil, pollPae02]

/-- Runs over the shipped file, the agent giving one value for all requests of a run. -/
theorem historico_pae02 {hs : List (Hora × Str)} (hclaro : ∀ x ∈ hs, Claro x.2)
    (hcres : (hs.map fun x => x.1.t).Pairwise (· < ·)) :
    Historico chavePae02 ⟨[], []⟩ (hs.map fun x => rodadaPae02 x.1 x.2)
      (hs.map fun x => pollPae02 x.1 x.2) where
  novo := rfl
  completas := by
    intro r hr
    obtain ⟨x, _, rfl⟩ := List.mem_map.mp hr
    exact completa_rodadaPae02 x.1 x.2
  limpas := by
    intro r hr
    obtain ⟨x, hx, rfl⟩ := List.mem_map.mp hr
    exact limpa_rodadaPae02 x.1 (hclaro x hx)
  semCr := by
    intro r hr
    obtain ⟨x, _, rfl⟩ := List.mem_map.mp hr
    rw [idGetsnmp_rodadaPae02]
    decide +kernel
  polls := by
    simp only [List.map_map, Function.comp_def, doKey_rodadaPae02]
  crescente := by
    have hhora : ∀ x : Hora × Str, (pollPae02 x.1 x.2).consulta.hora.t = x.1.t := fun _ => rfl
    simpa only [List.map_map, Function.comp_def, hhora] using hcres

theorem bruto_pollPae02 (h : Hora) (valor : Str) : (pollPae02 h valor).bruto = (valor, valor) := by
  obtain ⟨d, hd, -⟩ := Option.map_eq_some_iff.mp tinfo_linhaPae02
  have hitem : decodifica (pollPae02 h valor).item = some d := hd
  rw [Poll.bruto, hitem]
  rfl

def horaDepois : Hora := ⟨⟨111, 4, 20, 1, 53, 2⟩, 1305867182⟩

/-- The interface goes down between two runs: the line has the time of the second. -/
theorem tempo_pae02 :
    let hs := [(horaPae02, "1".toList), (horaDepois, "2".toList)]
    let vs := hs.map fun x => pollPae02 x.1 x.2
    Historico chavePae02 ⟨[], []⟩ (hs.map fun x => rodadaPae02 x.1 x.2) vs ∧
      TempoOk chavePae02 (executa (hs.map fun x => rodadaPae02 x.1 x.2) ⟨[], []⟩).resGet vs := by
  intro hs vs
  have hist : Historico chavePae02 ⟨[], []⟩ (hs.map fun x => rodadaPae02 x.1 x.2) vs :=
    historico_pae02 (by unfold Claro; decide) (by decide)
  refine ⟨hist, (tempo_iff _ _ _ _ hist).mpr ?_⟩
  have hmudou : ¬ (pollPae02 horaPae02 "1".toList).bruto = (pollPae02 horaDepois "2".toList).bruto := by
    rw [bruto_pollPae02, bruto_pollPae02]
    decide
  have hrev : vs.reverse = [pollPae02 horaDepois "2".toList, pollPae02 horaPae02 "1".toList] := rfl
  intro u hu
  rw [hrev, inicioDoBloco, List.takeWhile_cons_of_neg (by simpa using hmudou)] at hu
  have hu' : pollPae02 horaDepois "2".toList = u := Option.some.inj hu
  have hantes : antesDoBloco vs.reverse = [pollPae02 horaPae02 "1".toList] := by
    rw [hrev, antesDoBloco, List.dropWhile_cons_of_neg (by simpa using hmudou)]
  rw [hantes, ← hu', traduzidoAnterior, Poll.traduzido, Poll.traduzido, bruto_pollPae02,
    bruto_pollPae02]
  decide

/-- The statuses are not in the table: the line has an empty time. -/
theorem tempo_vazio : ¬ ∀ (k : Str) (a : Arquivos) (rs : List Rodada) (vs : List Poll),
    Historico k a rs vs → TempoOk k (executa rs a).resGet vs := by
  intro h
  have hist : Historico chavePae02 ⟨[], []⟩
      ([(horaPae02, "noSuchInstance".toList)].map fun x => rodadaPae02 x.1 x.2)
      ([(horaPae02, "noSuchInstance".toList)].map fun x => pollPae02 x.1 x.2) :=
    historico_pae02 (by unfold Claro; decide) (by decide)
  obtain ⟨lin, hlin, hagora⟩ := h _ _ _ _ hist (pollPae02 horaPae02 "noSuchInstance".toList) rfl
  have hres : ((lines '\n' (executa [rodadaPae02 horaPae02 "noSuchInstance".toList] ⟨[], []⟩).resGet).filter
      (fun l => field (split ';' l) 12 = chavePae02)).map (fun l => field (split ';' l) 0) = [[]] := by
    decide +kernel
  have hempty : field (split ';' lin) 0 = [] := by
    have hmap := congrArg (List.map fun l => field (split ';' l) 0) hlin
    exact List.singleton_injective (hmap.symm.trans hres)
  have htime : field (split ';' lin) 0 = decimal horaPae02.t := congrArg Prod.fst hagora
  rw [hempty] at htime
  exact decimal_ne_nil _ htime.symm

end SnmpCollector.Snmp.GetInt
