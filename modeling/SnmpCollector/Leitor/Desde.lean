import SnmpCollector.Leitor.DataAlm
import SnmpCollector.Perl.Since

set_option autoImplicit false

/-! # Since when an interface has its status (`leitor/rep/leitor_coletam.pl`, many runs)

Each run finds the status and the time of an interface in the line that the run before left in
`info_man.txt` under its key, and the file is written anew with the interfaces that are reported
now. Over many runs an interface is thus observed, run by run: with a status, or not at all.

`lookup_infoMan` says that the file carries what `Perl.since` carries. So the time of a line is
that of the run in which the present status began (`tempo_da_mudanca`), and the event log of a
run has the interfaces whose status is not the one of the run before (`eventos_sao_mudancas`).
-/

namespace SnmpCollector.Coletam

open Perl

/-- A run: its clock, the orders, and the logs that it finds. -/
structure Rodada where
  r : Relogio
  ordem : KeyOrder Laco Str
  dir : Dir

namespace Rodada

variable (x : Rodada)

/-- The columns come back when they are printed, and a key has one status. -/
structure Boa : Prop where
  limpa : ∀ p ∈ relato x.dir, p.Limpa
  chave : ChaveDetermina (relato x.dir)

/-- The status that the run reports under a key. -/
def statusDe (k : Str) : Option Status :=
  ((relato x.dir).find? fun p => decide (p.chave = k)).map Porta.status

theorem statusDe_eq_none {k : Str} : x.statusDe k = none ↔ ∀ p ∈ relato x.dir, p.chave ≠ k := by
  simp [statusDe]

variable {x}

theorem Boa.statusDe (h : x.Boa) {p : Porta} (hp : p ∈ relato x.dir) :
    x.statusDe p.chave = some p.status := by
  rw [Rodada.statusDe]
  cases hf : (relato x.dir).find? fun q => decide (q.chave = p.chave) with
  | none => exact absurd (List.find?_eq_none.mp hf p hp) (by simp)
  | some q =>
      have hq := List.find?_some hf
      rw [Option.map_some, h.chave q (List.mem_of_find?_eq_some hf) p hp (of_decide_eq_true hq)]

end Rodada

/-- `info_man.txt` after the runs, the oldest first; before the first one there is no file. -/
def infoDepois (rs : List Rodada) : Str :=
  rs.foldl (fun info x => (leitorColetam x.r x.ordem x.dir info).infoMan) []

/-- The observations of a key. -/
def observa (k : Str) (rs : List Rodada) : List (Nat × Option Status) :=
  rs.map fun x => (x.r.t, x.statusDe k)

theorem infoDepois_concat (rs : List Rodada) (x : Rodada) :
    infoDepois (rs ++ [x]) = (leitorColetam x.r x.ordem x.dir (infoDepois rs)).infoMan := by
  simp [infoDepois]

/-- The line that is carried for a key: its status and time. -/
def Carrega (l : Option Str) : Option (Status × Nat) → Prop
  | none => l = none
  | some (s, t) => ∃ lin, l = some lin ∧ field (split ';' lin) 6 = s.texto ∧
      field (split ';' lin) 0 = decimal t

/-- The time of the new line, from what is carried. -/
theorem tx_of_carrega (r : Relogio) {statusO : Hash Str Str} {p : Porta} {c : Option (Status × Nat)}
    (h : Carrega (statusO.lookup p.chave) c) :
    ∃ t, sinceStep c (r.t, some p.status) = some (p.status, t) ∧ tx r statusO p = decimal t ∧
      (Muda statusO p ↔ c.map Prod.fst ≠ some p.status) := by
  have hvazio : p.status.texto ≠ [] := by
    cases p.status <;> decide
  cases c with
  | none =>
      have hl : statusO.lookup p.chave = none := h
      have hfield : ∀ n, field (sto statusO p) n = [] := by
        intro n
        rw [sto, fetch, hl]
        rfl
      have hmuda : Muda statusO p := by
        rw [Muda, hfield]
        exact hvazio.symm
      exact ⟨r.t, rfl, if_pos hmuda, by simp [hmuda]⟩
  | some c =>
      obtain ⟨s, t⟩ := c
      obtain ⟨lin, hl, hs, ht⟩ := h
      have hfield : ∀ n, field (sto statusO p) n = field (split ';' lin) n := by
        intro n
        rw [sto, fetch, hl]
        rfl
      have hmuda : Muda statusO p ↔ s ≠ p.status := by
        rw [Muda, hfield, hs]
        exact not_congr ⟨fun h => Status.texto_injective h, fun h => by rw [h]⟩
      by_cases heq : s = p.status
      · have hno : ¬ Muda statusO p := fun hm => hmuda.mp hm heq
        exact ⟨t, by simp [sinceStep, heq], (if_neg hno).trans (by rw [hfield, ht]), by simp [hno, heq]⟩
      · have hm : Muda statusO p := hmuda.mpr heq
        exact ⟨r.t, by simp [sinceStep, heq], if_pos hm, by simp [hm, heq]⟩

/-- **What the file carries from run to run.** -/
theorem lookup_infoMan {rs : List Rodada} (h : ∀ x ∈ rs, x.Boa) (k : Str) :
    Carrega ((lerStatus (infoDepois rs)).lookup k) (since (observa k rs)) := by
  induction rs using List.reverseRecOn with
  | nil => rfl
  | append_singleton rs x ih =>
      have hx : x.Boa := h x (by simp)
      have ih' := ih fun y hy => h y (by simp [hy])
      rw [infoDepois_concat, lookup_lerStatus_infoMan x.r (infoDepois rs) hx.limpa, observa,
        List.map_append, List.map_singleton, since_concat, ← observa]
      cases hl : lastSuch (fun p => decide (p.chave = k)) (portas x.ordem x.dir) with
      | none =>
          have hno : x.statusDe k = none := by
            rw [x.statusDe_eq_none]
            intro p hp hpk
            exact lastSuch_eq_none.mp hl p ((mem_portas x.ordem x.dir).mpr hp) (by simpa using hpk)
          rw [hno]
          rfl
      | some q =>
          obtain ⟨hq, hqk⟩ := lastSuch_eq_some hl
          have hrel := (mem_portas x.ordem x.dir).mp hq
          obtain rfl : q.chave = k := of_decide_eq_true hqk
          obtain ⟨t, hstep, htx, -⟩ := tx_of_carrega x.r ih'
          have hcampo : ∀ n, n < 13 →
              field (split ';' (linhaInfo x.r (lerStatus (infoDepois rs)) q)) n
                = field (camposInfo x.r (lerStatus (infoDepois rs)) q) n :=
            fun n hn => field_linhaInfo x.r (infoDepois rs) (hx.limpa q hrel) hn
          rw [hx.statusDe hrel, hstep]
          exact ⟨_, rfl, hcampo 6 (by omega), (hcampo 0 (by omega)).trans htx⟩

section Ultima

variable {rs : List Rodada} {x : Rodada} {p : Porta}

/-- **Since when**: the runs that end with `x` and all report the status of the interface begin
with the run whose time stands in its line; the run before them, if there is one, reports another
status or none. -/
theorem tempo_da_mudanca (h : ∀ y ∈ rs ++ [x], y.Boa) (hp : p ∈ relato x.dir) :
    ∃ pre y blk, rs ++ [x] = pre ++ y :: blk ∧
      (∀ z ∈ y :: blk, z.statusDe p.chave = some p.status) ∧
      (∀ z, pre.getLast? = some z → z.statusDe p.chave ≠ some p.status) ∧
      ∀ l ∈ (leitorColetam x.r x.ordem x.dir (infoDepois rs)).linfot, l.porta = p →
        l.tempo = decimal y.r.t := by
  have hx : x.Boa := h x (by simp)
  have hrs : ∀ y ∈ rs, y.Boa := fun y hy => h y (by simp [hy])
  obtain ⟨t, hstep, htx, -⟩ := tx_of_carrega x.r (lookup_infoMan hrs p.chave) (p := p)
  have hsince : since (observa p.chave (rs ++ [x])) = some (p.status, t) := by
    rw [observa, List.map_append, List.map_singleton, since_concat, ← observa, hx.statusDe hp, hstep]
  obtain ⟨pre', blk', hobs, hblk, hhead, hpre⟩ := exists_block hsince
  obtain ⟨pre, blk, hruns, rfl, rfl⟩ := List.map_eq_append_iff.mp hobs
  cases blk with
  | nil => cases hhead
  | cons y blk =>
      obtain rfl : y.r.t = t := Option.some.inj hhead
      refine ⟨pre, y, blk, hruns, fun z hz => ?_, fun z hz => ?_, ?_⟩
      · exact hblk _ (List.mem_map_of_mem hz)
      · exact hpre _ (by rw [List.getLast?_map, hz]; rfl)
      · intro l hl hlp
        obtain ⟨q, -, rfl⟩ := mem_linfot.mp hl
        obtain rfl : q = p := hlp
        rw [Impressa.tempo, field_linhaInfo x.r (infoDepois rs) (hx.limpa q hp) (by omega)]
        exact htx

end Ultima

/-! ### An interface that goes down in the second of three runs -/

/-- The run at the time `t` that finds `Fa0` in the given state. -/
def rodadaFa0 (t : Nat) (oper : Str) : Rodada where
  r := relogio t
  ordem := .stored
  dir := logs [(mbenc01, [⟨1, "Fa0".toList, up1, oper⟩])]

def fa0Em (oper : Str) : Porta := ⟨mbenc01, "1".toList, "Fa0".toList, up1, oper⟩

theorem mem_relato_rodadaFa0 (t : Nat) {oper : Str} (ho : oper = up1 ∨ oper = down2) {p : Porta} :
    p ∈ relato (rodadaFa0 t oper).dir ↔ p = fa0Em oper := by
  have hportas : portas .stored (rodadaFa0 t oper).dir = [fa0Em oper] := by
    rcases ho with rfl | rfl
    · exact (by decide +kernel : portas .stored (rodadaFa0 0 up1).dir = [fa0Em up1])
    · exact (by decide +kernel : portas .stored (rodadaFa0 0 down2).dir = [fa0Em down2])
  rw [← mem_portas .stored, hportas, List.mem_singleton]

theorem boa_rodadaFa0 (t : Nat) {oper : Str} (ho : oper = up1 ∨ oper = down2) :
    (rodadaFa0 t oper).Boa where
  limpa p hp := by
    obtain rfl := (mem_relato_rodadaFa0 t ho).mp hp
    have hup : Campo up1 := ⟨by decide, by unfold UmaLinha; decide⟩
    have hdown : Campo down2 := ⟨by decide, by unfold UmaLinha; decide⟩
    refine ⟨campo_mbenc01, ⟨by simp [fa0Em], by simp [fa0Em, UmaLinha]⟩, hup, ?_⟩
    rcases ho with rfl | rfl
    · exact hup
    · exact hdown
  chave p hp q hq _ := by
    rw [(mem_relato_rodadaFa0 t ho).mp hp, (mem_relato_rodadaFa0 t ho).mp hq]

theorem boa_fa0 : ∀ y ∈ [rodadaFa0 1 up1, rodadaFa0 2 down2] ++ [rodadaFa0 3 down2], y.Boa := by
  intro y hy
  simp only [List.cons_append, List.nil_append, List.mem_cons, List.not_mem_nil, or_false] at hy
  rcases hy with rfl | rfl | rfl
  · exact boa_rodadaFa0 1 (Or.inl rfl)
  · exact boa_rodadaFa0 2 (Or.inr rfl)
  · exact boa_rodadaFa0 3 (Or.inr rfl)

/-- The line of the third run shows the time of the second. -/
theorem tempo_da_mudanca_fa0 : ∃ pre y blk,
    [rodadaFa0 1 up1, rodadaFa0 2 down2] ++ [rodadaFa0 3 down2] = pre ++ y :: blk ∧
      (∀ z ∈ y :: blk, z.statusDe (fa0Em down2).chave = some (fa0Em down2).status) ∧
      (∀ z, pre.getLast? = some z → z.statusDe (fa0Em down2).chave ≠ some (fa0Em down2).status) ∧
      ∀ l ∈ (leitorColetam (relogio 3) .stored (rodadaFa0 3 down2).dir
          (infoDepois [rodadaFa0 1 up1, rodadaFa0 2 down2])).linfot,
        l.porta = fa0Em down2 → l.tempo = decimal y.r.t :=
  @tempo_da_mudanca [rodadaFa0 1 up1, rodadaFa0 2 down2] (rodadaFa0 3 down2) _ boa_fa0
    ((mem_relato_rodadaFa0 3 (Or.inr rfl)).mpr rfl)

end SnmpCollector.Coletam
