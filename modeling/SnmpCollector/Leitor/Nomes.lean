import SnmpCollector.Walk.IfDescr
import SnmpCollector.Leitor.WalkHost
import SnmpCollector.Leitor.CpuMem

set_option autoImplicit false

/-! # Names that are joined and divided again

Three scripts join two texts to a name: the walk writes the log `host-ip.txt`, the reader of
the walk keeps its ids under `host_interface`, and the reader of cpu and memory keeps its
pools under `host_index`. Other places divide these names at the same characters and take the
parts by position. Nothing keeps the characters out of the parts: `nomes_iff` says which hosts
and interfaces come back.
-/

namespace SnmpCollector.Leitor

open Perl

/-- The name of an interface: its description up to the first `-`, without blanks. -/
def nomeInt (descr : Str) : Str := semBrancos (descr.takeWhile (· ≠ '-'))

/-- `@hh=split(/_/,$dd[0])` in `atualiza_id_snmp_rtt.pl`: host and interface of a key. -/
def hostInterface (dd0 : Str) : Str × Str := (field (split '_' dd0) 0, field (split '_' dd0) 1)

/-- The updater divides the first field of a line in this way. -/
theorem par_rtt (lin : Str) : AtualizaBd.par .rtt lin = hostInterface (field (split ';' lin) 0) := rfl

/-! ## The lines of the memory pools -/

section Memoria

variable {t : Nat} {ordem : KeyOrder CpuMem.Laco Str} {dados log : Str} {hist d : Dir}

/-- The keys of the memory pools of a log. -/
def poolsDe (dados log : Str) : List Str :=
  ((CpuMem.lerLog (CpuMem.hostDe dados) (lines '\n' log)).coluna .memNome).keys

/-- The lines of a pool in the file of its host. -/
def linhasPool (t : Nat) (dados log : Str) (hist : Dir) (item : Str) : Str :=
  CpuMem.linhasItem t (lines '\n' (conteudo hist (CpuMem.hostDe dados)))
    (CpuMem.lerLog (CpuMem.hostDe dados) (lines '\n' log)) item

/-- The lines of every pool reach the file of the host when its name comes back from the keys. -/
theorem linhasPool_infix (hhost : '_' ∉ CpuMem.hostDe dados)
    (hcpu : CpuMem.linhasCpu (lines '\n' log) ≠ [])
    (hd : CpuMem.leitor t ordem dados log hist = .ok d) {item : Str} (hi : item ∈ poolsDe dados log) :
    linhasPool t dados log hist item <:+: conteudo d (CpuMem.hostDe dados) := by
  rw [CpuMem.leitor_texto t ordem dados log hist (CpuMem.keys_cpuavg5 _ hcpu)] at hd
  rw [linhasPool]
  rw [poolsDe] at hi
  set h := CpuMem.hostDe dados with hh
  set tb := CpuMem.lerLog h (lines '\n' log) with htb
  set coleta := lines '\n' (conteudo hist h) with hcoleta
  set items := ordem.keys .mem (tb.coluna .memNome).keys with hitems
  by_cases hany : items.any (CpuMem.morre tb) = true
  · rw [if_pos hany] at hd
    cases hd
  rw [if_neg hany] at hd
  -- all keys are of the host, and no pool ends the run
  have hall : ∀ x ∈ items, CpuMem.hh0 x = h ∧ CpuMem.morre tb x = false := by
    intro x hx
    rw [hitems, ordem.mem_keys, ← AList.mem_keys] at hx
    obtain ⟨id, rfl⟩ := CpuMem.chavesDe_lerLog h (lines '\n' log) _ _ hx
    refine ⟨field_split_zero_iff.mpr hhost, ?_⟩
    by_contra hm
    exact hany (List.any_eq_true.mpr ⟨_, (ordem.mem_keys _ _ _).mpr (AList.mem_keys.mp hx),
      by simpa using hm⟩)
  have hin : item ∈ items := (ordem.mem_keys _ _ _).mpr hi
  cases hd
  rw [conteudo_insert_self, CpuMem.cpn, CpuMem.memHost_laco t _ tb hall h, if_pos rfl]
  -- so the lines of all pools stand at the end of the file
  obtain ⟨pre, post, hsplit⟩ := List.append_of_mem hin
  rw [hsplit, List.flatMap_append, List.flatMap_cons]
  refine List.IsInfix.trans ?_ (List.suffix_append _ _).isInfix
  refine List.IsInfix.trans ?_ (List.suffix_cons _ _).isInfix
  refine List.IsInfix.trans ?_ (List.suffix_append _ _).isInfix
  exact ⟨_, _, by rw [List.append_assoc]⟩

end Memoria

/-! ## Which names come back -/

/-- The names of a host with the address `ip` and an interface description come back: the host
from the name of its log, host and interface from their key, the host from the key of any
index, and the lines of its memory pools are in the file of the host. -/
structure Decodifica (host ip descr : Str) : Prop where
  log : hostArq (Walk.logName host ip) = host
  interface : hostInterface (host ++ '_' :: nomeInt descr) = (host, nomeInt descr)
  indice : ∀ idx, CpuMem.hh0 (host ++ '_' :: idx) = host
  memoria : ∀ (t : Nat) (ordem : KeyOrder CpuMem.Laco Str) (log : Str) (hist d : Dir),
    CpuMem.linhasCpu (lines '\n' log) ≠ [] →
    CpuMem.leitor t ordem (Walk.logName host ip) log hist = .ok d →
    ∀ item ∈ poolsDe (Walk.logName host ip) log,
      linhasPool t (Walk.logName host ip) log hist item <:+: conteudo d host

theorem hostArq_logName_iff (host ip : Str) : hostArq (Walk.logName host ip) = host ↔ '-' ∉ host := by
  have hdash : '-' ∈ Walk.logName host ip := by simp [Walk.logName]
  rw [hostArq, if_pos hdash, Walk.logName, field_split_zero_iff]

theorem hostInterface_iff (host int : Str) :
    hostInterface (host ++ '_' :: int) = (host, int) ↔ '_' ∉ host ∧ '_' ∉ int := by
  rw [hostInterface, Prod.mk.injEq, field_split_pair_iff]

/-- **Which names come back.** -/
theorem nomes_iff (host ip descr : Str) :
    Decodifica host ip descr ↔ '-' ∉ host ∧ '_' ∉ host ∧ '_' ∉ nomeInt descr := by
  constructor
  · intro h
    exact ⟨(hostArq_logName_iff host ip).mp h.log, (hostInterface_iff host _).mp h.interface⟩
  · rintro ⟨hdash, hunder, hint⟩
    refine ⟨(hostArq_logName_iff host ip).mpr hdash, (hostInterface_iff host _).mpr ⟨hunder, hint⟩,
      fun idx => field_split_zero_iff.mpr hunder, fun t ordem log hist d hcpu hd item hi => ?_⟩
    have hhost : CpuMem.hostDe (Walk.logName host ip) = host := field_split_zero_iff.mpr hdash
    have hin := linhasPool_infix (by rwa [hhost]) hcpu hd hi
    rwa [hhost] at hin

/-- The log of `mc-pae01` is taken for one of the host `mc`. -/
theorem nome_com_traco : ¬ ∀ host ip descr : Str, Decodifica host ip descr := by
  intro h
  have hlog := (h "mc-pae01.pae.psys".toList "10.32.66.1".toList "GigabitEthernet0/1".toList).log
  revert hlog
  decide +kernel

end SnmpCollector.Leitor
