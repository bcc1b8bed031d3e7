import SnmpCollector.Snmp.GeraSum
import SnmpCollector.Leitor.Rolante

set_option autoImplicit false

/-! # One pool, two percentages

Two collectors publish a memory percentage of a pool. Both read column 5 (used) and column 6
(free) of `enterprises.9.9.48.1.1.1`: `coleta_mem_temp_pwr.pl` over SNMP, `leitor_cpu_mem.pl`
from the log of a walk. The first takes column 5 for the free memory and column 6 for the used
one, so the two percentages of a pool add up to 100; they are the same only for a pool that is
half full (`percentuais_iff`).
-/

namespace SnmpCollector.Snmp

open Perl CpuMem

/-- Both collectors see the pool `n` with `u` in column 5 and `f` in column 6. The keys of a
table are those of its column. -/
structure MesmoPool (v : Visita) (log : List Item) (n u f : Nat) : Prop where
  chaves5 : ∀ k ∈ v.agente oidMemFree, ∃ m, k = oidMemFree ++ '.' :: decimal m
  chaves6 : ∀ k ∈ v.agente oidMemUtl, ∃ m, k = oidMemUtl ++ '.' :: decimal m
  coluna5 : (v.agente oidMemFree).lookup (oidMemFree ++ '.' :: decimal n) = some (decimal u)
  coluna6 : (v.agente oidMemUtl).lookup (oidMemUtl ++ '.' :: decimal n) = some (decimal f)
  valido : ∀ i ∈ log, i.Valido
  log5 : ultima .memUtil log n = some (decimal u)
  log6 : ultima .memFree log n = some (decimal f)

section Percentual

variable {v : Visita} {log : List Item} {n u f : Nat} (h : MesmoPool v log n u f)

include h

/-- The collector over SNMP divides column 6 by the sum. -/
theorem memPct_eq (hostname : Str) :
    (gravacao v hostname ('.' :: decimal n)).memPct = (f : ℚ) / (f + u) * 100 := by
  have hfree : fetch (hMemFree v) ('.' :: decimal n) = decimal u := by
    rw [fetch, hMemFree, lookup_lerColuna (by decide +kernel) h.chaves5, h.coluna5]
    rfl
  have hutl : fetch (hMemUtl v) ('.' :: decimal n) = decimal f := by
    rw [fetch, hMemUtl, lookup_lerColuna (by decide +kernel) h.chaves6, h.coluna6]
    rfl
  rw [Gravacao.memPct, Gravacao.soma, gravacao, hfree, hutl, numify_decimal, numify_decimal]

/-- The reader of the log divides column 5 by the sum. -/
theorem utlMem_eq (host : Str) :
    utlMem (tabelas host log) (ref host n) = (u : ℚ) / (f + u) * 100 := by
  have hutil : memUtil (tabelas host log) (ref host n) = decimal u := by
    rw [memUtil, fetch_tabelas host (comuns h.valido), h.log5]
    exact (lido_decimal u).1
  have hfree : memFree (tabelas host log) (ref host n) = decimal f := by
    rw [memFree, fetch_tabelas host (comuns h.valido), h.log6]
    exact (lido_decimal f).1
  rw [utlMem, somaMem, hutil, hfree, numify_decimal, numify_decimal]

/-- **The two percentages of a pool** are the same exactly when it is half full. -/
theorem percentuais_iff (hpos : 0 < u + f) (hostname host : Str) :
    (gravacao v hostname ('.' :: decimal n)).memPct = utlMem (tabelas host log) (ref host n) ↔
      u = f := by
  have hsum : (f : ℚ) + u ≠ 0 := by
    have : (0 : ℚ) < f + u := by exact_mod_cast (by omega : 0 < f + u)
    exact ne_of_gt this
  rw [memPct_eq h, utlMem_eq h]
  constructor
  · intro heq
    have hdiv : (f : ℚ) / (f + u) = (u : ℚ) / (f + u) := mul_right_cancel₀ (by norm_num) heq
    have hnum : (f : ℚ) = u := (div_left_inj' hsum).mp hdiv
    exact_mod_cast hnum.symm
  · rintro rfl
    rfl

end Percentual

/-- A device with one pool, seen over SNMP. -/
def visitaCom (u f : Nat) : Visita where
  sessao := true
  agente := fun oid =>
    if oid = oidMemTipo then (∅ : Hash Str Str).insert (oidMemTipo ++ ".1".toList) "Processor".toList
    else if oid = oidMemFree then (∅ : Hash Str Str).insert (oidMemFree ++ ".1".toList) (decimal u)
    else if oid = oidMemUtl then (∅ : Hash Str Str).insert (oidMemUtl ++ ".1".toList) (decimal f)
    else ∅
  ordem := .stored

/-- The same device in the log of a walk. -/
def logCom (u f : Nat) : List Item :=
  [.linha .memNome 1 "STRING".toList "\"Processor\"".toList,
    .linha .memUtil 1 "Gauge32".toList (decimal u), .linha .memFree 1 "Gauge32".toList (decimal f)]

theorem mesmoPool_com (u f : Nat) : MesmoPool (visitaCom u f) (logCom u f) 1 u f := by
  have h1 : oidMemFree ≠ oidMemTipo := by decide +kernel
  have h2 : oidMemUtl ≠ oidMemTipo := by decide +kernel
  have h3 : oidMemUtl ≠ oidMemFree := by decide +kernel
  have hone : ".1".toList = '.' :: decimal 1 := by decide +kernel
  have hfree : (visitaCom u f).agente oidMemFree
      = (∅ : Hash Str Str).insert (oidMemFree ++ '.' :: decimal 1) (decimal u) := by
    rw [← hone]
    simp only [visitaCom, if_neg h1, if_true]
  have hutl : (visitaCom u f).agente oidMemUtl
      = (∅ : Hash Str Str).insert (oidMemUtl ++ '.' :: decimal 1) (decimal f) := by
    rw [← hone]
    simp only [visitaCom, if_neg h2, if_neg h3, if_true]
  refine ⟨?_, ?_, ?_, ?_, ?_, rfl, rfl⟩
  · intro k hk
    rw [hfree, AList.mem_insert] at hk
    exact ⟨1, hk.resolve_right (AList.notMem_empty _)⟩
  · intro k hk
    rw [hutl, AList.mem_insert] at hk
    exact ⟨1, hk.resolve_right (AList.notMem_empty _)⟩
  · rw [hfree, AList.lookup_insert]
  · rw [hutl, AList.lookup_insert]
  · intro i hi
    simp only [logCom, List.mem_cons, List.not_mem_nil, or_false] at hi
    rcases hi with rfl | rfl | rfl
    · exact ⟨tipoValido_exemplos _ (by simp), processor_valido⟩
    · exact ⟨tipoValido_exemplos _ (by simp), valorValido_decimal u⟩
    · exact ⟨tipoValido_exemplos _ (by simp), valorValido_decimal f⟩

theorem percentuais_meio :
    (gravacao (visitaCom 50 50) "mcpae01.pae.psys".toList ('.' :: decimal 1)).memPct
      = utlMem (tabelas "mcpae01.pae.psys".toList (logCom 50 50))
          (ref "mcpae01.pae.psys".toList 1) :=
  (percentuais_iff (mesmoPool_com 50 50) (by omega) _ _).mpr rfl

/-- A pool with 9 used and 1 free: 10 per cent in one collector, 90 in the other. -/
theorem percentuais_diferem : ¬ ∀ (v : Visita) (log : List Item) (n u f : Nat) (hostname host : Str),
    MesmoPool v log n u f → 0 < u + f →
    (gravacao v hostname ('.' :: decimal n)).memPct = utlMem (tabelas host log) (ref host n) := by
  intro h
  have heq := h _ _ 1 9 1 [] [] (mesmoPool_com 9 1) (by omega)
  rw [memPct_eq (mesmoPool_com 9 1), utlMem_eq (mesmoPool_com 9 1)] at heq
  norm_num at heq

end SnmpCollector.Snmp
