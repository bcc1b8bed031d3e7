import SnmpCollector.Walk.IfDescr

set_option autoImplicit false

/-! # Deleting old logs (`walk/atualiza_arq.pl`)

The script goes through the directory of the walk logs and removes every file that was last
changed more than a day ago. The collection removes a log only when a word of its list has a
host that occurs in the name; the log of a host that has left the list is removed here.

`sobrevive` says which logs are there after any sequence of rounds of the collection and of
deletions, with the times of all of them.
-/

namespace SnmpCollector.Walk

open Perl

/-- A log with the time of its last change. -/
structure Registro where
  mtime : Nat
  texto : Str
  deriving DecidableEq

abbrev Logs := Hash Str Registro

/-- `$dif`; without a file `$ta` has no value, which counts as 0. -/
def dif (t : Nat) (logs : Logs) (dados : Str) : Int :=
  (t : Int) - (((logs.lookup dados).map Registro.mtime).getD 0 : Nat)

/-- The loop body: the clock is read again for every entry of the directory. -/
def passoArq (relogio : Str → Nat) (logs : Logs) (dados : Str) : Logs :=
  if dados = ".".toList then logs
  else if dados = "..".toList then logs
  else if dif (relogio dados) logs dados > 86400 then logs.erase dados
  else logs

/-- `atualiza_arq.pl` on the entries `pegoodir` of the directory. -/
def atualizaArq (relogio : Str → Nat) (pegoodir : List Str) (logs : Logs) : Logs :=
  pegoodir.foldl (passoArq relogio) logs

/-! ## One run of the script -/

/-- The log is removed when its entry is met. -/
def velho (relogio : Str → Nat) (logs : Logs) (nome : Str) : Prop :=
  nome ≠ ".".toList ∧ nome ≠ "..".toList ∧ dif (relogio nome) logs nome > 86400

instance (relogio : Str → Nat) (logs : Logs) (nome : Str) : Decidable (velho relogio logs nome) :=
  inferInstanceAs (Decidable (_ ∧ _ ∧ _))

theorem lookup_passoArq_self (relogio : Str → Nat) (logs : Logs) (nome : Str) :
    (velho relogio logs nome → (passoArq relogio logs nome).lookup nome = none) ∧
      (¬ velho relogio logs nome → passoArq relogio logs nome = logs) := by
  unfold passoArq velho
  by_cases h1 : nome = ".".toList
  · rw [if_pos h1]
    exact ⟨fun h => absurd h1 h.1, fun _ => rfl⟩
  by_cases h2 : nome = "..".toList
  · rw [if_neg h1, if_pos h2]
    exact ⟨fun h => absurd h2 h.2.1, fun _ => rfl⟩
  rw [if_neg h1, if_neg h2]
  by_cases h3 : dif (relogio nome) logs nome > 86400
  · rw [if_pos h3]
    exact ⟨fun _ => AList.lookup_erase nome logs, fun h => absurd ⟨h1, h2, h3⟩ h⟩
  · rw [if_neg h3]
    exact ⟨fun h => absurd h.2.2 h3, fun _ => rfl⟩

theorem lookup_passoArq_ne (relogio : Str → Nat) (logs : Logs) {nome dados : Str}
    (h : nome ≠ dados) : (passoArq relogio logs dados).lookup nome = logs.lookup nome := by
  unfold passoArq
  split
  · rfl
  split
  · rfl
  split
  · exact AList.lookup_erase_ne h
  · rfl

/-- An entry is judged by what the directory held when the run began. -/
theorem lookup_atualizaArq (relogio : Str → Nat) (pegoodir : List Str) (logs : Logs)
    (nome : Str) :
    (atualizaArq relogio pegoodir logs).lookup nome =
      if nome ∈ pegoodir ∧ velho relogio logs nome then none else logs.lookup nome := by
  induction pegoodir using List.reverseRecOn with
  | nil => simp [atualizaArq]
  | append_singleton pegoodir dados ih =>
      rw [atualizaArq, List.foldl_append, List.foldl_cons, List.foldl_nil, ← atualizaArq]
      set logs' := atualizaArq relogio pegoodir logs with hlogs
      by_cases hd : nome = dados
      · subst hd
        by_cases hgone : nome ∈ pegoodir ∧ velho relogio logs nome
        · -- the entry has been removed before; nothing brings it back
          rw [if_pos hgone] at ih
          rw [if_pos ⟨by simp, hgone.2⟩]
          by_cases hv : velho relogio logs' nome
          · exact (lookup_passoArq_self relogio logs' nome).1 hv
          · rw [(lookup_passoArq_self relogio logs' nome).2 hv, ih]
        · rw [if_neg hgone] at ih
          have hsame : velho relogio logs' nome ↔ velho relogio logs nome := by
            simp only [velho, dif, ih]
          by_cases hv : velho relogio logs nome
          · rw [if_pos ⟨by simp, hv⟩, (lookup_passoArq_self relogio logs' nome).1 (hsame.mpr hv)]
          · rw [if_neg fun h => hv h.2,
              (lookup_passoArq_self relogio logs' nome).2 fun h => hv (hsame.mp h), ih]
      · rw [lookup_passoArq_ne relogio logs' hd, ih]
        simp [hd]

/-! ## Collections and deletions -/

/-- A round of the collection whose log was last written at the time `t`, or a run of
`atualiza_arq.pl`. -/
inductive Acao where
  | coleta (t : Nat) (x saida : Str)
  | limpa (relogio : Str → Nat) (ordem : KeyOrder Unit Str)

def passoAcao (logs : Logs) : Acao → Logs
  | .coleta t x saida =>
      (filterKeys (fun nome => !contem (host x) nome) logs).insert (nomeGravado x) ⟨t, saida⟩
  | .limpa relogio ordem => atualizaArq relogio (readdir ordem logs) logs

def executaAcoes (acoes : List Acao) (logs : Logs) : Logs := acoes.foldl passoAcao logs

/-- No round of the collection touches the name, and no deletion comes more than a day after
`t`. -/
def Preserva (t : Nat) (nome : Str) : Acao → Prop
  | .coleta _ x _ => ¬ host x <:+: nome
  | .limpa relogio _ => relogio nome ≤ t + 86400

theorem lookup_coleta (logs : Logs) (t : Nat) (x saida nome : Str) :
    (passoAcao logs (.coleta t x saida)).lookup nome =
      if nomeGravado x = nome then some ⟨t, saida⟩
      else if host x <:+: nome then none else logs.lookup nome := by
  rw [passoAcao]
  by_cases hx : nomeGravado x = nome
  · rw [hx, AList.lookup_insert, if_pos rfl]
  · rw [AList.lookup_insert_ne (Ne.symm hx), lookup_filterKeys, if_neg hx, contem]
    by_cases hi : host x <:+: nome <;> simp [hi]

theorem nomeGravado_ne_ponto (x : Str) :
    nomeGravado x ≠ ".".toList ∧ nomeGravado x ≠ "..".toList := by
  have hlen : 5 ≤ (nomeGravado x).length := by
    simp only [nomeGravado, logName, List.length_append, List.length_cons]
    have htxt : ".txt".toList.length = 4 := rfl
    omega
  constructor
  · intro h
    rw [h] at hlen
    exact absurd hlen (by decide)
  · intro h
    rw [h] at hlen
    exact absurd hlen (by decide)

theorem lookup_of_limpa {logs : Logs} {relogio : Str → Nat} {ordem : KeyOrder Unit Str} {nome : Str}
    {r : Registro} (h : (passoAcao logs (.limpa relogio ordem)).lookup nome = some r) :
    logs.lookup nome = some r := by
  rw [passoAcao, lookup_atualizaArq] at h
  split at h
  · exact absurd h (by simp)
  · exact h

/-- A log that is there survives a deletion if it is at most a day old then. -/
theorem lookup_limpa (logs : Logs) (relogio : Str → Nat) (ordem : KeyOrder Unit Str) {nome : Str}
    (hn : nome ≠ ".".toList ∧ nome ≠ "..".toList) (r : Registro) :
    (passoAcao logs (.limpa relogio ordem)).lookup nome = some r ↔
      logs.lookup nome = some r ∧ relogio nome ≤ r.mtime + 86400 := by
  rw [passoAcao, lookup_atualizaArq]
  cases hl : logs.lookup nome with
  | none => simp
  | some r' =>
      have hmem : nome ∈ readdir ordem logs :=
        mem_readdir ordem (AList.lookup_isSome.mp (by simp [hl]))
      have hv : velho relogio logs nome ↔ ¬ relogio nome ≤ r'.mtime + 86400 := by
        rw [velho, dif, hl]
        simp only [hn, ne_eq, not_false_eq_true, true_and, Option.map_some, Option.getD_some]
        omega
      by_cases hold : relogio nome ≤ r'.mtime + 86400
      · rw [if_neg fun h => hv.mp h.2 hold]
        refine ⟨fun h => ⟨h, ?_⟩, fun h => h.1⟩
        cases h
        exact hold
      · rw [if_pos ⟨hmem, hv.mpr hold⟩]
        refine ⟨fun h => absurd h (by simp), fun h => ?_⟩
        obtain ⟨heq, hle⟩ := h
        cases heq
        exact absurd hle hold

/-- **Which logs are there after a sequence of collections and deletions.** Of the rounds only
the last one whose host occurs in the name counts. It must write this very log, and from then on
every run of `atualiza_arq.pl` must come within a day of what it wrote. -/
theorem sobrevive (pre post : List Acao) (t : Nat) (x saida : Str) (logs : Logs) {nome : Str}
    (hx : host x <:+: nome)
    (hpost : ∀ t' x' saida', Acao.coleta t' x' saida' ∈ post → ¬ host x' <:+: nome)
    (r : Registro) :
    (executaAcoes (pre ++ .coleta t x saida :: post) logs).lookup nome = some r ↔
      nomeGravado x = nome ∧ r = ⟨t, saida⟩ ∧ ∀ a ∈ post, Preserva t nome a := by
  induction post using List.reverseRecOn with
  | nil =>
      rw [executaAcoes, List.foldl_append, List.foldl_cons, List.foldl_nil, lookup_coleta]
      by_cases hn : nomeGravado x = nome
      · rw [if_pos hn]
        simp [hn, eq_comm]
      · rw [if_neg hn, if_pos hx]
        simp [hn]
  | append_singleton post a ih =>
      have ih' := ih fun t' x' s' h => hpost t' x' s' (List.mem_append_left _ h)
      have hrun : executaAcoes (pre ++ .coleta t x saida :: (post ++ [a])) logs
          = passoAcao (executaAcoes (pre ++ .coleta t x saida :: post) logs) a := by
        simp [executaAcoes]
      rw [hrun]
      have hall : (∀ b ∈ post ++ [a], Preserva t nome b) ↔
          (∀ b ∈ post, Preserva t nome b) ∧ Preserva t nome a := by
        simp [or_imp, forall_and]
      rw [hall]
      cases a with
      | coleta t' x' saida' =>
          have hno := hpost t' x' saida' (by simp)
          have hne : nomeGravado x' ≠ nome := by
            rintro rfl
            exact hno (host_infix_nomeGravado x')
          rw [lookup_coleta, if_neg hne, if_neg hno, ih']
          simp [Preserva, hno]
      | limpa relogio ordem =>
          by_cases hn : nomeGravado x = nome
          · rw [lookup_limpa _ _ _ (hn ▸ nomeGravado_ne_ponto x), ih']
            constructor
            · rintro ⟨⟨h1, rfl, h3⟩, h4⟩
              exact ⟨h1, rfl, h3, h4⟩
            · rintro ⟨h1, rfl, h3, h4⟩
              exact ⟨⟨h1, rfl, h3⟩, h4⟩
          · -- the last round removed the log, and a deletion brings none back
            exact ⟨fun h => absurd (ih'.mp (lookup_of_limpa h)).1 hn, fun h => absurd h.1 hn⟩

/-- A deletion that comes a day after the collection. -/
theorem sobrevive_mcpae01 :
    (executaAcoes ([] ++ .coleta 0 "mcpae01;10.1.1.1;".toList "a".toList ::
      [.limpa (fun _ => 86400) .stored]) ∅).lookup "mcpae01-10.1.1.1.txt".toList
        = some ⟨0, "a".toList⟩ :=
  (@sobrevive [] [.limpa (fun _ => 86400) .stored] 0 "mcpae01;10.1.1.1;".toList "a".toList ∅
    "mcpae01-10.1.1.1.txt".toList (by decide) (by simp) ⟨0, "a".toList⟩).mpr
    ⟨by decide, rfl, by simp [Preserva]⟩

end SnmpCollector.Walk
