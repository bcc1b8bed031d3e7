import SnmpCollector.Walk.IfDescr
import SnmpCollector.Unix.Writers

set_option autoImplicit false

/-! # The walks in the background (`walk/00_coleta_walk_ifdescr.sh`, `walk/atualiza_arq.pl`)

The script starts every `snmpwalk` with `&` and goes on after `sleep 60`. A walk of a slow
device is still writing when the next words remove logs and start walks of their own, when
`00_ler_snmp_walk_host.pl` reads the logs, and when `atualiza_arq.pl` deletes the old ones.

Here a run is any interleaving of rounds of the loop, of writes of the running walks and of
deletions. `IfDescr` writes a log at once; `espelha_executa` says that the interleaved run is
that run seen through partial outputs, and `leitura` what a reader finds under a name at any
moment: a part of the output of the one walk that wrote this log last, never a mixture.
-/

namespace SnmpCollector.Walk

open Perl Unix

/-- What happens next. The shell opens the log of a walk when it starts it, and sleeps after
it: the opening belongs to the round. -/
inductive Evento where
  /-- A round of the loop: its word, and all that its walk will print. -/
  | palavra (x saida : Str)
  /-- The walk `j` prints the next `k` characters. -/
  | escreve (j k : Nat)
  /-- `atualiza_arq.pl`: the logs that it finds too old. -/
  | apaga (velho : Str → Bool)

/-- The event in the file system. -/
def passoFs (fs : Files Str Char) : Evento → Files Str Char
  | .palavra x saida => (fs.remove (contem (host x))).start (nomeGravado x) saida
  | .escreve j k => fs.write '\x00' j k
  | .apaga velho => fs.remove velho

/-- The event in a directory where every log is complete at once. -/
def passoDir (log : Dir) : Evento → Dir
  | .palavra x saida => coletaWord (fun _ => saida) log x
  | .escreve _ _ => log
  | .apaga velho => filterKeys (fun nome => !velho nome) log

def executaFs (evs : List Evento) (fs : Files Str Char) : Files Str Char := evs.foldl passoFs fs

def executaDir (evs : List Evento) (log : Dir) : Dir := evs.foldl passoDir log

/-! ## A run seen through partial outputs -/

/-- The name that a round opens has just been removed. -/
theorem nomeGravado_not_mem_rmLog (x : Str) (log : Dir) :
    nomeGravado x ∉ filterKeys (fun nome => !contem (host x) nome) log := by
  rw [← AList.lookup_isSome, lookup_filterKeys]
  have hx : contem (host x) (nomeGravado x) = true := contem_iff.mpr (host_infix_nomeGravado x)
  simp [hx]

theorem espelha_passo {fs : Files Str Char} {log : Dir} (h : Mirrors fs log) (e : Evento) :
    Mirrors (passoFs fs e) (passoDir log e) := by
  cases e with
  | palavra x saida => exact (h.remove _).start (nomeGravado_not_mem_rmLog x log) saida
  | escreve j k => exact h.write '\x00' j k
  | apaga velho => exact h.remove velho

/-- **The interleaved run and the sequential one.** -/
theorem espelha_executa {fs : Files Str Char} {log : Dir} (h : Mirrors fs log)
    (evs : List Evento) : Mirrors (executaFs evs fs) (executaDir evs log) := by
  induction evs generalizing fs log with
  | nil => exact h
  | cons e evs ih => exact ih (espelha_passo h e)

/-! ## The last event that touches a log -/

/-- The event removes the name or writes it anew. -/
def toca (nome : Str) : Evento → Bool
  | .palavra x _ => contem (host x) nome
  | .escreve _ _ => false
  | .apaga velho => velho nome

/-- The output that such an event leaves under the name. -/
def deixa (nome : Str) : Evento → Option Str
  | .palavra x saida => if nomeGravado x = nome then some saida else none
  | .escreve _ _ => none
  | .apaga _ => none

theorem lookup_passoDir (log : Dir) (e : Evento) (nome : Str) :
    (passoDir log e).lookup nome = if toca nome e then deixa nome e else log.lookup nome := by
  cases e with
  | palavra x saida =>
      rw [passoDir, coletaWord, ← nomeGravado, toca, deixa]
      by_cases hx : nomeGravado x = nome
      · have htoca : contem (host x) nome = true :=
          contem_iff.mpr (hx ▸ host_infix_nomeGravado x)
        rw [hx, AList.lookup_insert, if_pos htoca, if_pos rfl]
      · rw [AList.lookup_insert_ne (Ne.symm hx), rmLog, lookup_filterKeys, if_neg hx]
        cases contem (host x) nome <;> rfl
  | escreve j k => rfl
  | apaga velho =>
      rw [passoDir, lookup_filterKeys, toca, deixa]
      cases velho nome <;> rfl

/-- Only the last event that touches a log counts. -/
theorem lookup_executaDir (evs : List Evento) (log : Dir) (nome : Str) :
    (executaDir evs log).lookup nome =
      match lastSuch (toca nome) evs with
      | some e => deixa nome e
      | none => log.lookup nome := by
  induction evs using List.reverseRecOn with
  | nil => rfl
  | append_singleton evs e ih =>
      rw [executaDir, List.foldl_append, List.foldl_cons, List.foldl_nil, ← executaDir,
        lookup_passoDir, lastSuch_concat, ih]
      split <;> rfl

/-- A log that no event touches keeps having no writer. -/
theorem idle_executaFs {nome : Str} (evs : List Evento) {fs : Files Str Char} {log : Dir}
    (h : Mirrors fs log) (hi : fs.Idle nome) (hno : ∀ e ∈ evs, toca nome e = false) :
    (executaFs evs fs).Idle nome := by
  induction evs generalizing fs log with
  | nil => exact hi
  | cons e evs ih =>
      refine ih (espelha_passo h e) ?_ fun e' he' => hno e' (List.mem_cons_of_mem e he')
      cases e with
      | palavra x saida =>
          have hx : nomeGravado x ≠ nome := by
            rintro rfl
            have hno' : contem (host x) (nomeGravado x) = false := hno _ List.mem_cons_self
            exact absurd (contem_iff.mpr (host_infix_nomeGravado x)) (by simp [hno'])
          have hrm := h.remove (contem (host x))
          refine (hi.remove _).start hrm.closed ?_ hx.symm saida
          rw [hrm.mem_names]
          exact nomeGravado_not_mem_rmLog x log
      | escreve j k => exact hi.write '\x00' j k
      | apaga velho => exact hi.remove velho

/-- **What a reader finds under a name, at any moment of any interleaving.** -/
theorem leitura {fs : Files Str Char} (hq : fs.Quiet) (hc : fs.Closed) (evs : List Evento)
    (nome : Str) :
    match lastSuch (toca nome) evs with
    | some e =>
        match deixa nome e with
        | some saida =>
            ∃ d, (executaFs evs fs).read nome = some d ∧ d <+: saida ∧
              ((executaFs evs fs).Idle nome → d = saida)
        | none => (executaFs evs fs).read nome = none
    | none => (executaFs evs fs).read nome = fs.read nome := by
  have h := espelha_executa (Mirrors.of_quiet hq hc) evs
  have hlook := lookup_executaDir evs fs.contents nome
  cases hl : lastSuch (toca nome) evs with
  | none =>
      have hidle := idle_executaFs evs (Mirrors.of_quiet hq hc) (hq.idle nome)
        fun e he => by simpa using lastSuch_eq_none.mp hl e he
      rw [hl] at hlook
      rw [h.read_idle hidle, hlook, Mirrors.lookup_contents hc]
  | some e =>
      rw [hl] at hlook
      cases hd : deixa nome e with
      | none =>
          simp only [hd] at hlook ⊢
          rw [← Option.not_isSome_iff_eq_none, h.read_isSome, ← AList.lookup_isSome, hlook]
          exact Bool.false_ne_true
      | some saida =>
          simp only [hd] at hlook ⊢
          have hsome : ((executaFs evs fs).read nome).isSome := by
            rw [h.read_isSome, ← AList.lookup_isSome, hlook]
            rfl
          obtain ⟨d, hread⟩ := Option.isSome_iff_exists.mp hsome
          obtain ⟨out, hout, hpre⟩ := h.read_isPrefix hread
          rw [hlook] at hout
          cases hout
          refine ⟨d, hread, hpre, fun hidle => ?_⟩
          rw [h.read_idle hidle, hlook] at hread
          exact (Option.some.inj hread).symm

/-- The run of one night after another: the walk of the first night is still running when the
same word comes again, and goes on writing. -/
def noites : List Evento :=
  [.palavra "mcpae01;10.1.1.1;".toList "IF-MIB::ifDescr.1".toList, .escreve 0 3,
    .palavra "mcpae01;10.1.1.1;".toList "IF-MIB::ifDescr.2".toList, .escreve 0 20, .escreve 1 5]

/-- A file system without files and processes. -/
def vazio : Files Str Char := ⟨[], ∅, []⟩

theorem leitura_noites :
    ∃ d, (executaFs noites vazio).read "mcpae01-10.1.1.1.txt".toList = some d ∧
      d <+: "IF-MIB::ifDescr.2".toList ∧
      ((executaFs noites vazio).Idle "mcpae01-10.1.1.1.txt".toList →
        d = "IF-MIB::ifDescr.2".toList) :=
  @leitura vazio (fun _ h => absurd h (by simp [vazio])) (fun _ _ h => by simp [vazio] at h)
    noites "mcpae01-10.1.1.1.txt".toList

/-! ## One run of the script -/

/-- The words of the rounds, with what their walks print. -/
def rodadas (evs : List Evento) : List (Str × Str) :=
  evs.filterMap fun
    | .palavra x saida => some (x, saida)
    | .escreve _ _ => none
    | .apaga _ => none

/-- Without deletions only the rounds count for the complete logs. -/
theorem executaDir_eq_foldl {evs : List Evento} (hno : ∀ velho, Evento.apaga velho ∉ evs) (log : Dir) :
    executaDir evs log
      = (rodadas evs).foldl (fun log p => coletaWord (fun _ => p.2) log p.1) log := by
  induction evs generalizing log with
  | nil => rfl
  | cons e evs ih =>
      have ih' := ih fun velho hv => hno velho (List.mem_cons_of_mem e hv)
      cases e with
      | palavra x saida => exact ih' _
      | escreve j k => exact ih' _
      | apaga velho => exact absurd List.mem_cons_self (hno velho)

/-- **The script in the background and the script that waits.** Whatever the walks do in between,
after all words the logs of the directory are those of a run that waits for every walk, and a log
to which no walk writes any more has the same contents. -/
theorem coleta_em_segundo_plano (snmpwalk : Str → Str) (hosts : Str) {fs : Files Str Char}
    (hq : fs.Quiet) (hc : fs.Closed) {evs : List Evento}
    (hno : ∀ velho, Evento.apaga velho ∉ evs)
    (hr : rodadas evs = (words hosts).map fun x => (x, snmpwalk (ipHost x))) (nome : Str) :
    (((executaFs evs fs).read nome).isSome ↔ nome ∈ coleta snmpwalk hosts fs.contents) ∧
      ((executaFs evs fs).Idle nome →
        (executaFs evs fs).read nome = (coleta snmpwalk hosts fs.contents).lookup nome) := by
  have h := espelha_executa (Mirrors.of_quiet hq hc) evs
  have heq : executaDir evs fs.contents = coleta snmpwalk hosts fs.contents := by
    rw [executaDir_eq_foldl hno, hr, List.foldl_map]
    rfl
  rw [heq] at h
  exact ⟨h.read_isSome nome, h.read_idle⟩

theorem coleta_em_segundo_plano_lenta :
    ((executaFs [.palavra "a;1;".toList "abc".toList, .palavra "b;2;".toList "xyz".toList,
        .escreve 1 3, .escreve 0 2] vazio).read "a-1.txt".toList).isSome ↔
      "a-1.txt".toList ∈ coleta (fun ip => if ip = "1".toList then "abc".toList else "xyz".toList)
        "a;1;\nb;2;\n".toList vazio.contents :=
  (coleta_em_segundo_plano _ "a;1;\nb;2;\n".toList (fun _ h => absurd h (by simp [vazio]))
    (fun _ _ h => by simp [vazio] at h) (by simp) (by decide) "a-1.txt".toList).1

end SnmpCollector.Walk
