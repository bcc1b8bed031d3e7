import SnmpCollector.Leitor.Eventos

set_option autoImplicit false

/-! # The date in an event (`leitor/rep/leitor_coletam.pl`, lines 183 to 254)

An event is printed before `$data_alm` is set for its interface, and so it shows the date that
the interface before it left there, in whatever log that one stands. `eventos` pairs the
lines of the event log with their interfaces, and `eventoIgual_iff` says when an interface has the
same event in two runs that agree on it: exactly when the interfaces before it leave the same
date, or there is none before it in either run.
-/

namespace SnmpCollector.Coletam

open Perl

section Run

variable (r : Relogio) (statusO : Hash Str Str)

/-- The status is not the one of the old line. -/
def Muda (p : Porta) : Prop := field (sto statusO p) 6 ≠ p.status.texto

instance (p : Porta) : Decidable (Muda statusO p) := inferInstanceAs (Decidable (_ ≠ _))

/-- The events with their interfaces, when `$data_alm` is `dataAlm` before the first. -/
def eventos (dataAlm : Str) : List Porta → List (Porta × Str)
  | [] => []
  | p :: ps =>
      (if Muda statusO p then [(p, evento r statusO dataAlm p)] else [])
        ++ eventos (alarme r statusO p) ps

/-- The event log is made of these lines. -/
theorem evlog_foldl_passo (ps : List Porta) (st : Estado) :
    (ps.foldl (passo r statusO) st).evlog
      = st.evlog ++ (eventos r statusO st.dataAlm ps).map Prod.snd := by
  induction ps generalizing st with
  | nil => simp [eventos]
  | cons p ps ih =>
      rw [List.foldl_cons, ih, eventos, List.map_append, ← List.append_assoc]
      congr 1
      rw [passo]
      by_cases hp : Muda statusO p
      · rw [if_pos hp]
        exact if_pos hp
      · rw [if_neg hp, List.map_nil, List.append_nil]
        exact if_neg hp

/-- The interface before `p`. -/
def anterior (ps : List Porta) (p : Porta) : Option Porta :=
  (ps.takeWhile fun q => decide (q ≠ p)).getLast?

/-- `$data_alm` after the interfaces `ps`. -/
def dataApos (dataAlm : Str) (ps : List Porta) : Str :=
  (ps.getLast?.map (alarme r statusO)).getD dataAlm

theorem dataApos_cons (dataAlm : Str) (q : Porta) (ps : List Porta) :
    dataApos r statusO dataAlm (q :: ps) = dataApos r statusO (alarme r statusO q) ps := by
  rw [dataApos, dataApos, List.getLast?_cons]
  cases ps.getLast? <;> rfl

/-- An event shows the date after the interfaces before its own. -/
theorem mem_eventos {ps : List Porta} {dataAlm : Str} {p : Porta} {l : Str} :
    (p, l) ∈ eventos r statusO dataAlm ps ↔ Muda statusO p ∧ ∃ pre post, ps = pre ++ p :: post ∧
      l = evento r statusO (dataApos r statusO dataAlm pre) p := by
  induction ps generalizing dataAlm with
  | nil => simp [eventos]
  | cons q ps ih =>
      rw [eventos, List.mem_append, ih]
      constructor
      · rintro (h | ⟨hm, pre, post, rfl, rfl⟩)
        · split at h
          · rename_i hm
            obtain ⟨rfl, rfl⟩ := Prod.mk.inj (List.mem_singleton.mp h)
            exact ⟨hm, [], ps, rfl, rfl⟩
          · cases h
        · exact ⟨hm, q :: pre, post, rfl, by rw [dataApos_cons]⟩
      · rintro ⟨hm, pre, post, heq, rfl⟩
        cases pre with
        | nil =>
            obtain ⟨rfl, rfl⟩ := List.cons.inj heq
            rw [if_pos hm]
            exact Or.inl (List.mem_singleton.mpr rfl)
        | cons x pre =>
            obtain ⟨rfl, rfl⟩ := List.cons.inj heq
            exact Or.inr ⟨hm, pre, post, rfl, by rw [dataApos_cons]⟩

/-- An interface that is reported once has one event. -/
theorem mem_eventos_of_nodup {ps : List Porta} (hn : ps.Nodup) {p : Porta} (hp : p ∈ ps)
    (hm : Muda statusO p) {l : Str} : (p, l) ∈ eventos r statusO [] ps ↔
      l = evento r statusO (((anterior ps p).map (alarme r statusO)).getD []) p := by
  obtain ⟨pre, post, rfl⟩ := List.append_of_mem hp
  have hpre : p ∉ pre := fun h => (List.nodup_append.mp hn).2.2 p h p (by simp) rfl
  have hant : anterior (pre ++ p :: post) p = pre.getLast? := by
    rw [anterior, List.takeWhile_append_of_pos]
    · simp
    · intro q hq
      exact decide_eq_true fun heq => hpre (heq ▸ hq)
  rw [mem_eventos, and_iff_right hm, hant]
  constructor
  · rintro ⟨pre', post', heq, rfl⟩
    have hpre' : p ∉ pre' := fun h => by
      rw [heq] at hn
      exact (List.nodup_append.mp hn).2.2 p h p (by simp) rfl
    rw [(append_cons_inj hpre hpre' heq).1]
    rfl
  · rintro rfl
    exact ⟨pre, post, rfl, rfl⟩

/-- The date comes back from the event. -/
theorem evento_inj {statusO' : Hash Str Str} {p : Porta}
    (hs : fetch statusO p.chave = fetch statusO' p.chave) {d d' : Str} :
    evento r statusO d p = evento r statusO' d' p ↔ d = d' := by
  have hsto : sto statusO p = sto statusO' p := by rw [sto, sto, hs]
  rw [evento, evento, hsto]
  simp [delimited]

end Run

/-! ## Two runs -/

section Duas

variable (r : Relogio) (ordem₁ ordem₂ : KeyOrder Laco Str) (dir₁ dir₂ : Dir) (info₁ info₂ : Str)

/-- The events of a run, with their interfaces. -/
def eventosDe (ordem : KeyOrder Laco Str) (dir : Dir) (info : Str) : List (Porta × Str) :=
  eventos r (lerStatus info) [] (portas ordem dir)

/-- **The event log of a run.** -/
theorem evlog_leitorColetam (ordem : KeyOrder Laco Str) (dir : Dir) (info : Str) :
    (leitorColetam r ordem dir info).evlog = (eventosDe r ordem dir info).map Prod.snd := by
  rw [leitor_eq, evlog_foldl_passo]
  rfl

/-- The interface has the same lines in the event logs of two runs. -/
def EventoIgual (p : Porta) : Prop :=
  ∀ l, (p, l) ∈ eventosDe r ordem₁ dir₁ info₁ ↔ (p, l) ∈ eventosDe r ordem₂ dir₂ info₂

theorem dataReg_ne_nil (h : Localtime) : h.dataReg ≠ [] := by
  intro hnil
  have hlen := congrArg List.length hnil
  simp [Localtime.dataReg] at hlen

variable {dir₁ dir₂ info₁ info₂}

/-- **When the event of an interface is its own**: in two runs at the same time that agree on the
rows of the interface and on its old line, exactly when the interfaces before it leave the same
date, or it is the first one in both. -/
theorem eventoIgual_iff {p : Porta} (h₁ : p ∈ relato dir₁) (h₂ : p ∈ relato dir₂)
    (hs : fetch (lerStatus info₁) p.chave = fetch (lerStatus info₂) p.chave)
    (hm : Muda (lerStatus info₁) p) :
    EventoIgual r ordem₁ ordem₂ dir₁ dir₂ info₁ info₂ p ↔
      (anterior (portas ordem₁ dir₁) p).map (alarme r (lerStatus info₁))
        = (anterior (portas ordem₂ dir₂) p).map (alarme r (lerStatus info₂)) := by
  have hm₂ : Muda (lerStatus info₂) p := by
    unfold Muda at hm ⊢
    rwa [sto, ← hs]
  have hmem₁ := fun l => mem_eventos_of_nodup r (lerStatus info₁) (nodup_portas ordem₁ dir₁)
    ((mem_portas ordem₁ dir₁).mpr h₁) hm (l := l)
  have hmem₂ := fun l => mem_eventos_of_nodup r (lerStatus info₂) (nodup_portas ordem₂ dir₂)
    ((mem_portas ordem₂ dir₂).mpr h₂) hm₂ (l := l)
  have hdata : ∀ (statusO : Hash Str Str) (a : Option Porta), ∀ d,
      a.map (alarme r statusO) = some d → d ≠ [] := by
    intro statusO a d had
    obtain ⟨q, -, rfl⟩ := Option.map_eq_some_iff.mp had
    unfold alarme
    split
    · exact dataReg_ne_nil _
    · exact dataReg_ne_nil _
  rw [EventoIgual, ← getD_nil_inj (hdata _ _) (hdata _ _), ← evento_inj r (lerStatus info₁) hs]
  simp only [eventosDe, hmem₁, hmem₂]
  constructor
  · intro h
    exact (h _).mp rfl
  · intro h l
    rw [h]

end Duas

/-! ### Another interface in the log -/

/-- The log of a host with the interface `Fa0`, alone and with another one. -/
def soFa0 : Dir := logs [(mbenc01, [⟨1, "Fa0".toList, up1, up1⟩])]

def comFa1 : Dir := logs [(mbenc01, [⟨1, "Fa0".toList, up1, up1⟩, ⟨2, "Fa1".toList, up1, up1⟩])]

def fa0 : Porta := ⟨mbenc01, "1".toList, "Fa0".toList, up1, up1⟩

def fa1 : Porta := ⟨mbenc01, "2".toList, "Fa1".toList, up1, up1⟩

/-- The hashes in the other direction. -/
def aoContrario : KeyOrder Laco Str := ⟨fun _ l => l.reverse, fun _ l => l.reverse_perm⟩

theorem portas_fa0 : portas .stored soFa0 = [fa0] ∧ portas .stored comFa1 = [fa1, fa0] ∧
    portas aoContrario comFa1 = [fa0, fa1] := by decide +kernel

theorem fa0_mem : fa0 ∈ relato soFa0 ∧ fa0 ∈ relato comFa1 := by
  rw [← mem_portas .stored, ← mem_portas .stored, portas_fa0.1, portas_fa0.2.1]
  simp

theorem muda_fa0 : Muda (lerStatus []) fa0 := by decide +kernel

/-- The interface that comes after `Fa0` does not change its event. -/
theorem eventoIgual_fa0 : EventoIgual (relogio 1) .stored aoContrario soFa0 comFa1 [] [] fa0 := by
  refine (eventoIgual_iff (relogio 1) .stored aoContrario fa0_mem.1 fa0_mem.2 rfl muda_fa0).mpr ?_
  rw [portas_fa0.1, portas_fa0.2.2]
  decide +kernel

/-- The interface that comes before `Fa0` leaves its date in the event. -/
theorem evento_com_data_de_fa1 : ¬ ∀ (r : Relogio) (ordem₁ ordem₂ : KeyOrder Laco Str)
    (dir₁ dir₂ : Dir) (info₁ info₂ : Str) (p : Porta), p ∈ relato dir₁ → p ∈ relato dir₂ →
      fetch (lerStatus info₁) p.chave = fetch (lerStatus info₂) p.chave →
      Muda (lerStatus info₁) p → EventoIgual r ordem₁ ordem₂ dir₁ dir₂ info₁ info₂ p := by
  intro h
  have hev := h (relogio 1) .stored .stored soFa0 comFa1 [] [] fa0 fa0_mem.1 fa0_mem.2 rfl muda_fa0
    (evento (relogio 1) (lerStatus []) [] fa0)
  rw [eventosDe, eventosDe, portas_fa0.1, portas_fa0.2.1] at hev
  revert hev
  decide +kernel

end SnmpCollector.Coletam
