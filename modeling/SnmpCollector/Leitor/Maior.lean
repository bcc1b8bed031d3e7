import SnmpCollector.Leitor.Sensores

set_option autoImplicit false

/-! # The hottest sensor (`leitor/leitor_temp_pwr.pl`, lines 508 to 530)

After the verdict `ok` comes the sensor whose reading is nearest to its threshold: the loop keeps
the least ratio of threshold and reading. The test for the first sensor, however, takes the length
of a comparison, `length($temp_pct{$hh0}<1)`, and so each sensor that comes after a ratio under 1
takes the place of the one before it. `Maior` is the part of the state of the loop that matters
here, over the sensors in the order of the loop, and `maior_iff` says for which sets of sensors the
hottest one is reported in every order: those in which no reading is above its threshold.
-/

namespace SnmpCollector.TempPwr

open Perl CpuMem

/-! ## The running minimum -/

namespace Leitura

def razao (l : Leitura) : ℚ := l.limiar / l.medido

/-- A positive reading above its threshold. -/
def Quente (l : Leitura) : Prop := 0 < l.medido ∧ l.limiar < l.medido

instance (l : Leitura) : Decidable l.Quente := inferInstanceAs (Decidable (_ ∧ _))

theorem razao_lt_one_iff {l : Leitura} (h : 0 < l.medido) : l.razao < 1 ↔ l.Quente := by
  have hm : (0 : ℚ) < l.medido := by exact_mod_cast h
  rw [razao, div_lt_one hm, Int.cast_lt, Quente, and_iff_right h]

/-- The text of a sensor in the first line. -/
def texto (l : Leitura) : Str := lido l.nome ++ ';' :: intText l.medido

end Leitura

/-- A sensor with the least ratio among those with a positive reading. -/
def MaisQuente (ls : List Leitura) (m : Leitura) : Prop :=
  m ∈ ls ∧ 0 < m.medido ∧ ∀ l ∈ ls, 0 < l.medido → m.razao ≤ l.razao

/-- The ratio of the reported sensor, `$temp_p`, and the reported sensor. -/
structure Maior where
  pct : ℚ
  p : ℚ
  quem : Option Leitura

namespace Maior

/-- `$temp_p` after a sensor. -/
def pDe (m : Maior) (l : Leitura) : ℚ := if 0 < l.medido then l.razao else m.p

/-- The part of a turn of the loop. -/
def passo (m : Maior) (l : Leitura) : Maior :=
  if m.pct < 1 ∨ m.pDe l < m.pct then ⟨m.pDe l, m.pDe l, some l⟩ else ⟨m.pct, m.pDe l, m.quem⟩

theorem passo_of_pct {m : Maior} (h : m.pct < 1) (l : Leitura) :
    m.passo l = ⟨m.pDe l, m.pDe l, some l⟩ := if_pos (Or.inl h)

theorem passo_of_lt {m : Maior} {l : Leitura} (h : m.pDe l < m.pct) :
    m.passo l = ⟨m.pDe l, m.pDe l, some l⟩ := if_pos (Or.inr h)

theorem passo_of_le {m : Maior} {l : Leitura} (h1 : 1 ≤ m.pct) (h : m.pct ≤ m.pDe l) :
    m.passo l = ⟨m.pct, m.pDe l, m.quem⟩ :=
  if_neg (not_or.mpr ⟨not_lt.mpr h1, not_lt.mpr h⟩)

/-- A sensor above its threshold is reported when it is the last one, and leaves a ratio under 1. -/
theorem passo_quente (m : Maior) {l : Leitura} (h : l.Quente) :
    (m.passo l).quem = some l ∧ (m.passo l).pct < 1 := by
  have hlt : m.pDe l < 1 := by
    rw [pDe, if_pos h.1]
    exact (Leitura.razao_lt_one_iff h.1).mpr h
  rcases lt_or_ge m.pct 1 with hm | hm
  · rw [passo_of_pct hm]
    exact ⟨rfl, hlt⟩
  · rw [passo_of_lt (hlt.trans_le hm)]
    exact ⟨rfl, hlt⟩

end Maior

/-- The loop over the sensors. -/
def maior (ls : List Leitura) : Maior := ls.foldl Maior.passo ⟨0, 0, none⟩

theorem maior_concat (ls : List Leitura) (l : Leitura) :
    maior (ls ++ [l]) = (maior ls).passo l := by
  rw [maior, List.foldl_append]
  rfl

/-- Some sensor is reported, if there is one. -/
theorem exists_maior {ls : List Leitura} (h : ls ≠ []) : ∃ m ∈ ls, (maior ls).quem = some m := by
  induction ls using List.reverseRecOn with
  | nil => exact absurd rfl h
  | append_singleton ls l ih =>
      rw [maior_concat, Maior.passo]
      split
      · exact ⟨l, by simp, rfl⟩
      · rename_i hge
        have hne : ls ≠ [] := by
          rintro rfl
          exact hge (Or.inl (by decide))
        obtain ⟨m, hm, hq⟩ := ih hne
        exact ⟨m, by simp [hm], hq⟩

/-- A sensor with no greater ratio than the hottest one before it is the hottest one. -/
theorem MaisQuente.concat_of_lt {ls : List Leitura} {m l : Leitura} (h : MaisQuente ls m)
    (hpos : 0 < l.medido) (hlt : l.razao < m.razao) : MaisQuente (ls ++ [l]) l := by
  refine ⟨by simp, hpos, fun x hx hxp => ?_⟩
  rcases List.mem_append.mp hx with hx | hx
  · exact hlt.le.trans (h.2.2 x hx hxp)
  · rw [List.mem_singleton.mp hx]

/-- Otherwise the one before it still is. -/
theorem MaisQuente.concat_of_le {ls : List Leitura} {m l : Leitura} (h : MaisQuente ls m)
    (hle : 0 < l.medido → m.razao ≤ l.razao) : MaisQuente (ls ++ [l]) m := by
  refine ⟨by simp [h.1], h.2.1, fun x hx hxp => ?_⟩
  rcases List.mem_append.mp hx with hx | hx
  · exact h.2.2 x hx hxp
  · rw [List.mem_singleton.mp hx] at hxp ⊢
    exact hle hxp

/-- The first sensor with a positive reading is the hottest one so far. -/
theorem MaisQuente.concat_of_not {ls : List Leitura} {l : Leitura} (h : ∀ x ∈ ls, ¬ 0 < x.medido)
    (hpos : 0 < l.medido) : MaisQuente (ls ++ [l]) l := by
  refine ⟨by simp, hpos, fun x hx hxp => ?_⟩
  rcases List.mem_append.mp hx with hx | hx
  · exact absurd hxp (h x hx)
  · rw [List.mem_singleton.mp hx]

/-- The loop over sensors that are all under their thresholds: it waits for the first positive
reading, and from then on keeps the least ratio, which `$temp_p` never goes under. -/
theorem maior_frios {ls : List Leitura} (h : ∀ l ∈ ls, ¬ l.Quente) :
    ((∀ l ∈ ls, ¬ 0 < l.medido) ∧ (maior ls).pct = 0 ∧ (maior ls).p = 0) ∨
    ∃ m, MaisQuente ls m ∧ (maior ls).quem = some m ∧ (maior ls).pct = m.razao ∧
      1 ≤ m.razao ∧ m.razao ≤ (maior ls).p := by
  induction ls using List.reverseRecOn with
  | nil => exact Or.inl ⟨by simp, rfl, rfl⟩
  | append_singleton ls l ih =>
      have hrazao : 0 < l.medido → 1 ≤ l.razao := fun hpos =>
        not_lt.mp (mt (Leitura.razao_lt_one_iff hpos).mp (h l (by simp)))
      rw [maior_concat]
      rcases ih fun x hx => h x (by simp [hx]) with ⟨hneg, hpct, hp⟩ | ⟨m, hm, hq, hpct, h1, hle⟩
      · -- no positive reading yet: the sensor takes the place of what came before it
        have hlt : (maior ls).pct < 1 := by
          rw [hpct]
          exact one_pos
        rw [Maior.passo_of_pct hlt, Maior.pDe]
        by_cases hpos : 0 < l.medido
        · rw [if_pos hpos]
          exact Or.inr ⟨l, .concat_of_not hneg hpos, rfl, rfl, hrazao hpos, le_rfl⟩
        · rw [if_neg hpos]
          refine Or.inl ⟨fun x hx => ?_, hp, hp⟩
          rcases List.mem_append.mp hx with hx | hx
          · exact hneg x hx
          · rwa [List.mem_singleton.mp hx]
      · by_cases hlt : 0 < l.medido ∧ l.razao < m.razao
        · -- a new minimum
          have hpde : (maior ls).pDe l = l.razao := if_pos hlt.1
          rw [Maior.passo_of_lt (by rw [hpde, hpct]; exact hlt.2), hpde]
          exact Or.inr ⟨l, hm.concat_of_lt hlt.1 hlt.2, rfl, rfl, hrazao hlt.1, le_rfl⟩
        · have hge : 0 < l.medido → m.razao ≤ l.razao := fun hpos =>
            not_lt.mp fun hc => hlt ⟨hpos, hc⟩
          have hpde : m.razao ≤ (maior ls).pDe l := by
            rw [Maior.pDe]
            split
            · rename_i hpos
              exact hge hpos
            · exact hle
          rw [Maior.passo_of_le (by rwa [hpct]) (by rwa [hpct])]
          exact Or.inr ⟨m, hm.concat_of_le hge, hq, hpct, h1, hpde⟩

/-- Each sensor is reported in some order, once some reading is above its threshold. -/
theorem exists_ordem {ls : List Leitura} {k : Leitura} (hk : k ∈ ls) (hq : k.Quente) {z : Leitura}
    (hz : z ∈ ls) : ∃ ys : List Leitura, ys.Perm ls ∧ (maior ys).quem = some z := by
  by_cases hzq : z.Quente
  · refine ⟨ls.erase z ++ [z], ?_, ?_⟩
    · exact (List.perm_append_comm.trans (List.perm_cons_erase hz).symm)
    · rw [maior_concat]
      exact ((maior _).passo_quente hzq).1
  · -- the sensor comes right after one above its threshold
    have hne : k ≠ z := by
      rintro rfl
      exact hzq hq
    have hk' : k ∈ ls.erase z := (List.mem_erase_of_ne hne).mpr hk
    refine ⟨(ls.erase z).erase k ++ [k] ++ [z], ?_, ?_⟩
    · have hfirst : ((ls.erase z).erase k ++ [k]).Perm (ls.erase z) :=
        List.perm_append_comm.trans (List.perm_cons_erase hk').symm
      exact (hfirst.append_right [z]).trans
        (List.perm_append_comm.trans (List.perm_cons_erase hz).symm)
    · rw [maior_concat, maior_concat]
      rw [Maior.passo_of_pct ((maior _).passo_quente hq).2]

/-! ## The reported sensor -/

section Relato

variable {log : List Item} {ls : List Leitura} (h : LogLeituras log ls) (dados : Str)

include h

/-- The loop over the hashes goes through the sensors in some order. -/
theorem LogLeituras.itensTemp_eq (o : KeyOrder Laco Str) : ∃ ys : List Leitura, ys.Perm ls ∧
    itensTemp o dados (textoLog log) = ys.map fun l => ref (hostDe dados) l.idx :=
  o.exists_map_eq .temp (h.keys_perm dados)

/-- **The state of the loop is the state of the loop over the sensors.** -/
theorem LogLeituras.lacoTemp_eq (t : Nat) (coleta : List Str) {ys : List Leitura}
    (hys : ∀ l ∈ ys, l ∈ ls) :
    let s := lacoTemp t coleta (tabelasDe dados (textoLog log))
      (ys.map fun l => ref (hostDe dados) l.idx)
    s.tempPct = (maior ys).pct ∧ s.tempP = (maior ys).p ∧ ∀ k, fetch s.tempMaior k
      = if k = hh0 (hostDe dados) then ((maior ys).quem.map Leitura.texto).getD [] else [] := by
  induction ys using List.reverseRecOn with
  | nil => exact ⟨rfl, rfl, fun k => by split <;> rfl⟩
  | append_singleton ys l ih =>
      obtain ⟨hpct, hp, hm⟩ := ih fun x hx => hys x (by simp [hx])
      have hl : l ∈ ls := hys l (by simp)
      have hmed : numify (tempMedido (tabelasDe dados (textoLog log)) (ref (hostDe dados) l.idx))
          = l.medido := by
        rw [h.fetch_medido dados hl, numify_intText]
      have hlim : numify (tempLimiar (tabelasDe dados (textoLog log)) (ref (hostDe dados) l.idx))
          = l.limiar := by
        rw [h.fetch_limiar dados hl, numify_intText]
      have hP : ∀ p : ℚ, tempPDe (tabelasDe dados (textoLog log)) p (ref (hostDe dados) l.idx)
          = if 0 < l.medido then l.razao else p := by
        intro p
        rw [tempPDe, hmed, hlim]
        exact if_congr Int.cast_pos rfl rfl
      have htexto : nomeMedido (tabelasDe dados (textoLog log)) (ref (hostDe dados) l.idx)
          = l.texto := by
        rw [nomeMedido, h.fetch_nome dados hl, h.fetch_medido dados hl]
        rfl
      rw [lacoTemp] at hpct hp hm ⊢
      rw [List.map_append, List.foldl_append, maior_concat]
      set s := (ys.map fun l => ref (hostDe dados) l.idx).foldl
        (passoTemp t coleta (tabelasDe dados (textoLog log))) .inicial with hs
      have hpde : tempPDe (tabelasDe dados (textoLog log)) s.tempP (ref (hostDe dados) l.idx)
          = (maior ys).pDe l := by
        rw [hP, hp, Maior.pDe]
      simp only [List.map_cons, List.map_nil, List.foldl_cons, List.foldl_nil, passoTemp, hpde,
        htexto, hh0_ref, hpct]
      -- the sensor is stored, or the one before it stays
      have hstore : ∀ k, fetch (s.tempMaior.insert (hh0 (hostDe dados)) l.texto) k
          = if k = hh0 (hostDe dados) then ((some l).map Leitura.texto).getD [] else [] := by
        intro k
        rw [fetch_insert, hm]
        split <;> rfl
      by_cases h1 : (maior ys).pct < 1
      · rw [Maior.passo_of_pct h1, if_pos h1]
        exact ⟨rfl, rfl, hstore⟩
      · rw [if_neg h1]
        by_cases h2 : (maior ys).pDe l < (maior ys).pct
        · rw [Maior.passo_of_lt h2, if_pos h2]
          exact ⟨rfl, rfl, hstore⟩
        · rw [Maior.passo_of_le (not_lt.mp h1) (not_lt.mp h2), if_neg h2]
          exact ⟨rfl, rfl, hm⟩

/-- The text after the verdict `ok`. -/
theorem LogLeituras.fetch_tempMaior (t : Nat) (o : KeyOrder Laco Str) (hist : Dir)
    {ys : List Leitura} (hp : ys.Perm ls)
    (hys : itensTemp o dados (textoLog log) = ys.map fun l => ref (hostDe dados) l.idx) :
    fetch (temperatura t o dados (textoLog log) hist).tempMaior (hostDe dados)
      = if '_' ∈ hostDe dados then [] else ((maior ys).quem.map Leitura.texto).getD [] := by
  obtain ⟨-, -, hm⟩ := h.lacoTemp_eq dados t (lines '\n' (conteudo hist (hostDe dados)))
    fun l hl => hp.mem_iff.mp hl
  rw [temperatura, hys, hm]
  by_cases hund : '_' ∈ hostDe dados
  · rw [if_pos hund, if_neg fun heq => (hh0_eq_self_iff _).mp heq.symm hund]
  · rw [if_neg hund, if_pos ((hh0_eq_self_iff _).mpr hund).symm]

end Relato

/-- Whatever else the log of the host holds, and in every order: the sensor after the verdict `ok`
is the hottest one. -/
def MaiorOk (dados : Str) (ls : List Leitura) : Prop :=
  ∀ log, LogLeituras log ls → ∀ (t : Nat) (o : KeyOrder Laco Str) (hist d : Dir),
    leitor t o dados (textoLog log) hist = .ok d →
    ∃ cpu veredito mem resto, conteudo d (hostDe dados)
        = delimited ';' [decimal t, [], cpu, stCpu cpu, veredito, mem] ++ '\n' :: resto ∧
      veredito = stTemp (temperatura t o dados (textoLog log) hist) (hostDe dados) ∧
      ∀ x, veredito = "ok;".toList ++ x → ∃ m, MaisQuente ls m ∧ x = m.texto

/-- A log with the rows of the sensors, all of them in the normal state, reports the sensor
that the loop chooses. -/
theorem maiorOk_ordem {dados : Str} {ls : List Leitura} (hn : ∀ l ∈ ls, ValorValido l.nome)
    (hd : (ls.map Leitura.idx).Nodup) (hok : MaiorOk dados ls) {ys : List Leitura}
    (hp : ys.Perm ls) : ∃ m, MaisQuente ls m ∧
      (if '_' ∈ hostDe dados then [] else ((maior ys).quem.map Leitura.texto).getD [])
        = m.texto := by
  set ss : List Sensor := ls.map fun l => ⟨l, .normal⟩ with hss
  have hls : ss.map Sensor.toLeitura = ls := by
    rw [hss, List.map_map]
    exact List.map_id ls
  have hlog : LogSensores (logDe ss) ss := by
    refine logDe_sensores (fun s hs => ?_) (by rwa [hls])
    obtain ⟨l, hl, rfl⟩ := List.mem_map.mp hs
    exact hn l hl
  have hleit : LogLeituras (logDe ss) ls := hls ▸ hlog.toLogLeituras
  have hperm := (hp.map fun l => ref (hostDe dados) l.idx).trans (hleit.keys_perm dados).symm
  have hys := KeyOrder.keys_com (KeyOrder.stored : KeyOrder Laco Str) .temp hperm
  have hrun := leitor_texto 0 (KeyOrder.stored.com .temp hperm) dados (textoLog (logDe ss)) ∅
    (hleit.keys_cpuavg5 dados) (hlog.completa_logDe dados)
  obtain ⟨cpu, v, mem, resto, -, hv, hx⟩ := hok _ hleit _ _ _ _ hrun
  have hst := hlog.stTemp_eq dados 0 (KeyOrder.stored.com .temp hperm) ∅
  rw [if_neg, hleit.fetch_tempMaior dados 0 _ ∅ hp hys] at hst
  · obtain ⟨m, hm, heq⟩ := hx _ (hv.trans hst)
    exact ⟨m, hm, heq⟩
  · rintro ⟨-, s, hs, ha⟩
    obtain ⟨l, -, rfl⟩ := List.mem_map.mp hs
    exact absurd ha (show ¬ Estado.normal.avisado by decide)

/-- **When the hottest sensor is the one reported**: for a host without a `_` in its name, exactly
when no reading is above its threshold (or all sensors have the name and the reading of a
hottest one). -/
theorem maior_iff (dados : Str) {ls : List Leitura} (hn : ∀ l ∈ ls, ValorValido l.nome)
    (hd : (ls.map Leitura.idx).Nodup) (hpos : ∃ l ∈ ls, 0 < l.medido) :
    MaiorOk dados ls ↔ '_' ∉ hostDe dados ∧
      ((∀ l ∈ ls, ¬ l.Quente) ∨ ∀ z ∈ ls, ∃ m, MaisQuente ls m ∧ z.texto = m.texto) := by
  constructor
  · intro hok
    have hund : '_' ∉ hostDe dados := by
      intro hund
      obtain ⟨m, -, heq⟩ := maiorOk_ordem hn hd hok (List.Perm.refl ls)
      rw [if_pos hund] at heq
      exact absurd heq.symm (by simp [Leitura.texto])
    refine ⟨hund, ?_⟩
    by_cases hq : ∀ l ∈ ls, ¬ l.Quente
    · exact Or.inl hq
    · push Not at hq
      obtain ⟨k, hk, hkq⟩ := hq
      refine Or.inr fun z hz => ?_
      obtain ⟨ys, hp, hquem⟩ := exists_ordem hk hkq hz
      obtain ⟨m, hm, heq⟩ := maiorOk_ordem hn hd hok hp
      rw [if_neg hund, hquem] at heq
      exact ⟨m, hm, heq⟩
  · rintro ⟨hund, hcerto⟩ log h t o hist d hrun
    have hc : Completa dados (textoLog log) := by
      by_contra hc
      rw [leitor_morre t o dados (textoLog log) hist hc] at hrun
      cases hrun
    rw [leitor_texto t o dados (textoLog log) hist (h.keys_cpuavg5 dados) hc,
      Except.ok.injEq] at hrun
    refine ⟨_, _, _, _, by rw [← hrun, conteudo_insert_self]; rfl, rfl, fun x hx => ?_⟩
    obtain ⟨ys, hp, hys⟩ := h.itensTemp_eq dados o
    have hmaior := h.fetch_tempMaior dados t o hist hp hys
    rw [if_neg hund] at hmaior
    have hx' : x = ((maior ys).quem.map Leitura.texto).getD [] := by
      rw [stTemp, hmaior] at hx
      split at hx
      · exact (List.append_cancel_left hx).symm
      · simp at hx
    obtain ⟨p, hpl, hpp⟩ := hpos
    rcases hcerto with hfrio | htodos
    · rcases maior_frios fun l hl => hfrio l (hp.mem_iff.mp hl) with ⟨hneg, -⟩ | ⟨m, hm, hq, -⟩
      · exact absurd hpp (hneg p (hp.mem_iff.mpr hpl))
      · refine ⟨m, ⟨hp.mem_iff.mp hm.1, hm.2.1, fun l hl => hm.2.2 l (hp.mem_iff.mpr hl)⟩, ?_⟩
        rw [hx', hq]
        rfl
    · have hne : ys ≠ [] := fun hnil => by
        rw [hnil, List.nil_perm] at hp
        rw [hp] at hpl
        cases hpl
      obtain ⟨z, hz, hq⟩ := exists_maior hne
      obtain ⟨m, hm, heq⟩ := htodos z (hp.mem_iff.mp hz)
      refine ⟨m, hm, ?_⟩
      rw [hx', hq]
      exact heq

/-- A sensor under its threshold. -/
theorem maior_inlet : MaiorOk "r-1.txt".toList [⟨1, "x".toList, 30, 60⟩] := by
  have hv : ∀ l ∈ ([⟨1, "x".toList, 30, 60⟩] : List Leitura), ValorValido l.nome := by
    intro l hl
    rw [List.mem_singleton.mp hl]
    exact ⟨by decide +kernel, by decide⟩
  refine (maior_iff _ hv (by simp) ⟨_, List.mem_singleton.mpr rfl, by decide⟩).mpr ⟨by decide, ?_⟩
  refine Or.inl fun l hl => ?_
  rw [List.mem_singleton.mp hl]
  decide

/-- A sensor above its threshold, and one with a low reading that comes after it. -/
theorem maior_depois_do_quente : ¬ ∀ (dados : Str) (ls : List Leitura),
    (∀ l ∈ ls, ValorValido l.nome) → (ls.map Leitura.idx).Nodup → (∃ l ∈ ls, 0 < l.medido) →
      MaiorOk dados ls := by
  intro h
  set k : Leitura := ⟨1, "x".toList, 70, 60⟩ with hk
  set z : Leitura := ⟨2, "y".toList, 20, 60⟩ with hz
  have hv : ∀ l ∈ [k, z], ValorValido l.nome := by
    intro l hl
    simp only [List.mem_cons, List.not_mem_nil, or_false] at hl
    rcases hl with rfl | rfl
    · exact ⟨by decide +kernel, by decide⟩
    · exact ⟨by decide +kernel, by decide⟩
  have hd : ([k, z].map Leitura.idx).Nodup := by simp [hk, hz]
  have hquem : (maior [k, z]).quem = some z := by decide +kernel
  obtain ⟨m, ⟨hm, -, hmin⟩, heq⟩ :=
    maiorOk_ordem hv hd (h "r-1.txt".toList _ hv hd ⟨k, by simp, by decide⟩) (List.Perm.refl [k, z])
  rw [if_neg (by decide), hquem] at heq
  simp only [List.mem_cons, List.not_mem_nil, or_false] at hm
  rcases hm with rfl | rfl
  · exact absurd heq (by decide +kernel)
  · exact absurd (hmin k (by simp) (by decide)) (by decide +kernel)

end SnmpCollector.TempPwr
