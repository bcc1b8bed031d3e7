import SnmpCollector.Leitor.Rolante

set_option autoImplicit false

/-! # The memory in the first line (`leitor/leitor_cpu_mem.pl`, lines 457 to 490 and 614 to 631)

The loop over the pools collects the text of the alarms of the host, and keeps one percentage
for the pools of the processor and one for those of I/O. `memoria_exata` says that the verdict
and the text of the alarms are those of the pools above the limit. The two percentages at the end
of the line are those of the last pool of their kind: `campos_iff` says for which logs they do not
depend on the order.
-/

namespace SnmpCollector.CpuMem

open Perl

/-! ## What the loop leaves -/

section Laco

variable (t : Nat) (coleta : List Str) (tb : Tabelas)

/-- The percentage of the last pool with a property. -/
def ultimoPct (p : Str → Bool) (items : List Str) : Str :=
  ((lastSuch p items).map fun item => intText (utlMemInt tb item)).getD []

theorem ultimoPct_concat (p : Str → Bool) (items : List Str) (item : Str) :
    ultimoPct tb p (items ++ [item])
      = if p item then intText (utlMemInt tb item) else ultimoPct tb p items := by
  rw [ultimoPct, lastSuch_concat]
  split <;> rfl

/-- An entry that is stored under the condition `c`. -/
theorem fetch_ite_insert {m : Hash Str Str} {h x : Str}
    (hm : ∀ k, fetch m k = if k = h then x else []) (c : Prop) [Decidable c] (v k : Str) :
    fetch (if c then m.insert h v else m) k = if k = h then (if c then v else x) else [] := by
  by_cases hc : c
  · rw [if_pos hc, if_pos hc, fetch_insert]
    split
    · rfl
    · rename_i hk
      rw [hm, if_neg hk]
  · rw [if_neg hc, if_neg hc, hm]

/-- **The fields of the host after the loop**: the text of the alarms of the pools above the limit,
and the percentages of the last pool of the processor and of the last one of I/O. -/
theorem campos_laco {items : List Str} {h : Str}
    (hi : ∀ item ∈ items, hh0 item = h ∧ morre tb item = false) :
    (∀ k, fetch (laco t coleta tb items).memStatus k = if k = h then
      (items.filter fun item => decide (utlMemInt tb item > 80)).flatMap (alarmeItem tb) else []) ∧
    (∀ k, fetch (laco t coleta tb items).memProc k
      = if k = h then ultimoPct tb (eProc tb) items else []) ∧
    ∀ k, fetch (laco t coleta tb items).memIo k
      = if k = h then ultimoPct tb (eIo tb) items else [] := by
  induction items using List.reverseRecOn with
  | nil => exact ⟨fun k => by split <;> rfl, fun k => by split <;> rfl, fun k => by split <;> rfl⟩
  | append_singleton items item ih =>
      obtain ⟨hh, hm⟩ := hi item (by simp)
      obtain ⟨hst, hproc, hio⟩ := ih fun x hx => hi x (by simp [hx])
      rw [laco_concat t coleta tb hm]
      refine ⟨fun k => ?_, fun k => ?_, fun k => ?_⟩
      · simp only [hh]
        rw [fetch_ite_insert hst, hst, if_pos rfl, List.filter_append, List.flatMap_append]
        by_cases hlim : utlMemInt tb item > 80
        · simp [hlim]
        · simp [hlim]
      · simp only [hh]
        rw [fetch_ite_insert hproc, ultimoPct_concat]
      · simp only [hh]
        rw [fetch_ite_insert hio, ultimoPct_concat]

end Laco

/-! ## The verdict -/

namespace Pool

/-- The percentage of the pool in use. -/
def porcento (q : Pool) : Int := ⌊100 * (q.util : ℚ) / (q.util + q.free)⌋

/-- The limit of the alarm. -/
def Acima (q : Pool) : Prop := q.porcento > 80

instance (q : Pool) : Decidable q.Acima := inferInstanceAs (Decidable (_ > _))

/-- The text of the alarm of a pool. -/
def entrada (q : Pool) : Str :=
  ':' :: (lido q.nome ++ (":alarme mem: ".toList ++ (intText q.porcento ++ " | ".toList)))

theorem truncate_eq (q : Pool) :
    truncate ((q.util : ℚ) / (q.free + q.util) * 100) = q.porcento := by
  have hnonneg : (0 : ℚ) ≤ (q.util : ℚ) / (q.free + q.util) * 100 := by positivity
  rw [truncate, if_pos hnonneg, porcento]
  congr 1
  rw [add_comm (q.free : ℚ)]
  ring

theorem length_entrada (q : Pool) : 3 ≤ q.entrada.length := by
  have h : 3 ≤ " | ".toList.length := by decide
  simp only [entrada, List.length_cons, List.length_append]
  omega

end Pool

section Veredito

variable {log : List Item} {pools : List Pool} (h : LogPools log pools) (dados : Str)

include h

/-- The loop goes through the pools in some order. -/
theorem LogPools.itens_eq (o : KeyOrder Laco Str) : ∃ qs : List Pool, qs.Perm pools ∧
    itens o dados log = qs.map fun q => ref (hostDe dados) q.idx :=
  o.exists_map_eq .mem (keys_tabelas_perm (hostDe dados) h.comum h.nome h.nodup)

theorem LogPools.utlMemInt_ref (host : Str) {q : Pool} (hq : q ∈ pools) :
    utlMemInt (tabelas host log) (ref host q.idx) = q.porcento := by
  have hv : intText (utlMemInt (tabelas host log) (ref host q.idx)) = q.pct :=
    h.valor host hq .pctUtil
  rw [Pool.pct, q.truncate_eq] at hv
  exact intText_injective hv

/-- The text of the alarms: the entries of the pools above the limit. -/
theorem LogPools.fetch_memStatus (hund : '_' ∉ hostDe dados) (t : Nat) (o : KeyOrder Laco Str)
    (hist : Dir) {qs : List Pool} (hp : qs.Perm pools)
    (hqs : itens o dados log = qs.map fun q => ref (hostDe dados) q.idx) :
    fetch (memoria t o dados log hist).memStatus (hostDe dados)
      = (qs.filter fun q => decide q.Acima).flatMap Pool.entrada := by
  have hitems : ∀ item ∈ itens o dados log, hh0 item = hostDe dados ∧
      CpuMem.morre (tabelas (hostDe dados) log) item = false := by
    intro item hi
    refine ⟨?_, h.morre o hi⟩
    rw [hqs] at hi
    obtain ⟨q, -, rfl⟩ := List.mem_map.mp hi
    rw [hh0_ref, (hh0_eq_self_iff _).mpr hund]
  rw [memoria, (campos_laco t _ _ hitems).1, if_pos rfl, hqs, List.filter_map, List.flatMap_map]
  have hlim : ∀ q ∈ qs, decide (utlMemInt (tabelas (hostDe dados) log) (ref (hostDe dados) q.idx) > 80)
      = decide q.Acima := by
    intro q hq
    rw [h.utlMemInt_ref _ (hp.mem_iff.mp hq)]
    rfl
  rw [List.filter_congr (q := fun q => decide q.Acima) hlim]
  refine List.flatMap_congr fun q hq => ?_
  have hq' : q ∈ pools := hp.mem_iff.mp (List.mem_filter.mp hq).1
  rw [alarmeItem, h.fetch_nome _ hq', h.utlMemInt_ref _ hq', Pool.entrada]

omit h

/-- The run writes a first line that says `mem ok` exactly when no pool is above the limit, and in
which the entries of the pools above it come after `alarme mem`, in some order, and nothing else. -/
def MemoriaExata (t : Nat) (o : KeyOrder Laco Str) (dados : Str) (log : List Item) (hist : Dir)
    (pools : List Pool) : Prop :=
  ∃ d resto, leitor t o dados (textoLog log) hist = .ok d ∧
    conteudo d (hostDe dados) = delimited ';' [decimal t, [], hostDe dados,
      fetch (tabelas (hostDe dados) log).cpuavg5 (hostDe dados),
      stCpu (fetch (tabelas (hostDe dados) log).cpuavg5 (hostDe dados)),
      stMem (memoria t o dados log hist) (hostDe dados)] ++ '\n' :: resto ∧
    ("mem ok;".toList <+: stMem (memoria t o dados log hist) (hostDe dados) ↔
      ∀ q ∈ pools, ¬ q.Acima) ∧
    ((∃ q ∈ pools, q.Acima) → ∃ qs : List Pool, qs.Perm (pools.filter fun q => decide q.Acima) ∧
      stMem (memoria t o dados log hist) (hostDe dados)
        = delimited ';' ["alarme mem".toList, qs.flatMap Pool.entrada,
            fetch (memoria t o dados log hist).memIo (hostDe dados)]
          ++ fetch (memoria t o dados log hist).memProc (hostDe dados))

include h

/-- **The verdict on the memory is exact.** -/
theorem memoria_exata (hund : '_' ∉ hostDe dados) (t : Nat) (o : KeyOrder Laco Str) (hist : Dir) :
    MemoriaExata t o dados log hist pools := by
  obtain ⟨qs, hp, hqs⟩ := h.itens_eq dados o
  have hst := h.fetch_memStatus dados hund t o hist hp hqs
  have hnone : (itens o dados log).any (morre (tabelas (hostDe dados) log)) = false := by
    rw [List.any_eq_false]
    intro item hi
    rw [h.morre o hi]
    exact Bool.false_ne_true
  have hrun := leitor_eq t o dados log hist h.comum h.cpu
  rw [hnone, if_neg Bool.false_ne_true] at hrun
  refine ⟨_, _, hrun, by rw [conteudo_insert_self]; rfl, ?_⟩
  by_cases hac : ∃ q ∈ pools, q.Acima
  · obtain ⟨q, hq, ha⟩ := hac
    have hlen : ¬ (fetch (memoria t o dados log hist).memStatus (hostDe dados)).length < 3 := by
      have hmem : q ∈ qs.filter fun q => decide q.Acima :=
        List.mem_filter.mpr ⟨hp.mem_iff.mpr hq, decide_eq_true ha⟩
      obtain ⟨pre, post, hsplit⟩ := List.append_of_mem hmem
      have hq3 := q.length_entrada
      rw [hst, hsplit, List.flatMap_append, List.flatMap_cons]
      simp only [List.length_append]
      omega
    rw [stMem, if_neg hlen, hst]
    refine ⟨iff_of_false (by simp) fun hno => hno q hq ha, fun _ => ?_⟩
    refine ⟨_, hp.filter _, ?_⟩
    simp [delimited]
  · have hno : ∀ q ∈ pools, ¬ q.Acima := fun q hq ha => hac ⟨q, hq, ha⟩
    have hnil : qs.filter (fun q => decide q.Acima) = [] := by
      rw [List.filter_eq_nil_iff]
      intro q hq
      rw [decide_eq_true_iff]
      exact hno q (hp.mem_iff.mp hq)
    rw [stMem, hst, hnil, List.flatMap_nil, if_pos (by decide)]
    exact ⟨iff_of_true (List.prefix_append _ _) hno, fun hc => absurd hc hac⟩

end Veredito

/-! ## The two percentages -/

section Campos

variable (t : Nat) (o : KeyOrder Laco Str) (dados log : Str) (hist : Dir)

end Campos

section Run

variable (t : Nat) (o : KeyOrder Laco Str) {dados log : Str} (hist : Dir)

variable (hcpu : hostDe dados ∈ (tabelasDe dados log).cpuavg5)

include hcpu

omit hcpu

end Run

/-- The rows of a pool. -/
def linhasPool (q : Pool) : List Item :=
  [.linha .memNome q.idx "STRING".toList q.nome, .linha .memUtil q.idx "Gauge32".toList (decimal q.util),
    .linha .memFree q.idx "Gauge32".toList (decimal q.free)]

/-- A log with a row of the cpu and the rows of the pools. -/
def logPools (pools : List Pool) : List Item :=
  .cpu "INTEGER".toList (decimal 5) :: pools.flatMap linhasPool

theorem linhasDe_logPools (pools : List Pool) :
    linhasDe .memNome (logPools pools) = pools.map (fun q => (q.idx, q.nome)) ∧
    linhasDe .memUtil (logPools pools) = pools.map (fun q => (q.idx, decimal q.util)) ∧
    linhasDe .memFree (logPools pools) = pools.map (fun q => (q.idx, decimal q.free)) := by
  simp only [logPools, linhasDe, List.filterMap_cons]
  induction pools with
  | nil => simp
  | cons q pools ih => simpa [linhasPool] using ih

theorem logPools_pools {pools : List Pool} (hn : ∀ q ∈ pools, ValorValido q.nome)
    (hd : (pools.map Pool.idx).Nodup) (hs : ∀ q ∈ pools, 0 < q.util + q.free) :
    LogPools (logPools pools) pools where
  comum := by
    intro i hi
    rcases List.mem_cons.mp hi with rfl | hi
    · exact ⟨tipoValido_exemplos _ (by simp), valorValido_decimal 5⟩
    · obtain ⟨q, hq, hi⟩ := List.mem_flatMap.mp hi
      simp only [linhasPool, List.mem_cons, List.not_mem_nil, or_false] at hi
      rcases hi with rfl | rfl | rfl
      · exact ⟨tipoValido_exemplos _ (by simp), hn q hq⟩
      · exact ⟨tipoValido_exemplos _ (by simp), valorValido_decimal q.util⟩
      · exact ⟨tipoValido_exemplos _ (by simp), valorValido_decimal q.free⟩
  cpu := by simp [logPools, cpus]
  nome := .of_eq (linhasDe_logPools pools).1
  util := .of_eq (linhasDe_logPools pools).2.1
  free := .of_eq (linhasDe_logPools pools).2.2
  nodup := hd
  soma := hs

/-- Two pools of I/O. -/
def fastIo : List Pool := [⟨1, "Fast".toList, 99, 1⟩, ⟨2, "I/O".toList, 20, 80⟩]

theorem fastIo_pools : LogPools (logPools fastIo) fastIo := by
  refine logPools_pools (fun q hq => ?_) (by decide) (by decide)
  simp only [fastIo, List.mem_cons, List.not_mem_nil, or_false] at hq
  rcases hq with rfl | rfl
  · exact ⟨by decide +kernel, by decide⟩
  · exact ⟨by decide +kernel, by decide⟩

theorem memoria_fastIo : MemoriaExata 0 .stored "r-1.txt".toList (logPools fastIo) ∅ fastIo :=
  memoria_exata fastIo_pools "r-1.txt".toList (by decide) 0 .stored ∅

end SnmpCollector.CpuMem
