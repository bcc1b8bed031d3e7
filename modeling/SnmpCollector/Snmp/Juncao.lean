import SnmpCollector.Snmp.GeraSum

set_option autoImplicit false

/-! # The join of cpu and memory (`snmp/gera_sum/09sum.pl`)

The first loop of the join overwrites the entries of the memory table with a marker, and also
makes new ones for the hosts that were not there; the second loop goes through the table that
results and leaves the marked entries out. `juncao` says what comes out of the two: one line per
host of either file, with what the last lines of the host hold.
-/

namespace SnmpCollector.Snmp

open Perl

/-- A field of a line. -/
def campo (linha : Str) (n : Nat) : Str := field (split ';' linha) n

/-- The file `sumario_cpu_mem.txt`. -/
def sumario (ordem : KeyOrder LacoSum Str) (sumCpu sumMem : Str) : Str :=
  (sum09 ordem sumCpu sumMem).flatten

/-- The hosts of a file. -/
def Ocorre (arq it : Str) : Prop := ∃ linha ∈ lines '\n' arq, chaveHost linha = it

/-- The last line of a host in a file. -/
def ultimaDoHost (arq it : Str) : Option Str :=
  (lastSuch (fun linha => decide (chaveHost linha = it)) (lines '\n' arq)).map chomp

section Tabela

variable (arq it : Str)

theorem lookup_porHost_lines : (porHost (lines '\n' arq)).lookup it = ultimaDoHost arq it := by
  rw [porHost, lookup_load, AList.lookup_empty, Option.or_none]
  rfl

theorem mem_porHost_lines : it ∈ porHost (lines '\n' arq) ↔ Ocorre arq it := by
  rw [porHost, mem_load]
  exact or_iff_right (AList.notMem_empty _)

variable {arq it} in
theorem fetch_of_ultimaDoHost {c : Str} (h : ultimaDoHost arq it = some c) :
    fetch (porHost (lines '\n' arq)) it = c := by
  rw [fetch, lookup_porHost_lines, h]
  rfl

theorem ultimaDoHost_isSome : (ultimaDoHost arq it).isSome ↔ Ocorre arq it := by
  rw [← lookup_porHost_lines, AList.lookup_isSome, mem_porHost_lines]

/-- A line that is read holds no line break. -/
theorem not_nl_fetch_porHost : '\n' ∉ fetch (porHost (lines '\n' arq)) it := by
  rw [fetch, lookup_porHost_lines, ultimaDoHost]
  cases lastSuch (fun linha => decide (chaveHost linha = it)) (lines '\n' arq) with
  | none => simp
  | some linha => exact fun h => (mem_chomp h).2.1 rfl

variable {it} in
theorem not_nl_of_ocorre (h : Ocorre arq it) : '\n' ∉ it := by
  obtain ⟨linha, -, rfl⟩ := h
  exact fun hn => (mem_chomp ((field_split_spec ';' (chomp linha) 2).2 hn)).2.1 rfl

/-- The marker is not a line with a host. -/
theorem fetch_porHost_ne_ok (h : ∀ linha ∈ lines '\n' arq, chaveHost linha ≠ [])
    (hit : Ocorre arq it) : fetch (porHost (lines '\n' arq)) it ≠ "ok".toList := by
  obtain ⟨y, hy⟩ := Option.isSome_iff_exists.mp ((ultimaDoHost_isSome arq it).mpr hit)
  rw [fetch, lookup_porHost_lines, hy, Option.getD_some]
  obtain ⟨linha, hlast, rfl⟩ := Option.map_eq_some_iff.mp hy
  intro hok
  refine h linha (lastSuch_eq_some hlast).1 ?_
  rw [chaveHost, hok]
  decide

end Tabela

/-! ## The lines of the file -/

section Linhas

variable (ordem : KeyOrder LacoSum Str) (sumCpu sumMem : Str)

theorem campo_linhaCpu (hostCpu hostMem : Hash Str Str) {it : Str} (hit : ';' ∉ it) :
    campo (linhaCpu hostCpu hostMem it) 2 = it := by
  rw [campo, field_linhaCpu hostCpu hostMem hit (by omega)]
  rfl

theorem campo_linhaMem (hostMem : Hash Str Str) {it : Str} (hit : ';' ∉ it) :
    campo (linhaMem hostMem it) 2 = it := by
  rw [campo, field_linhaMem hostMem hit (by omega)]
  rfl

theorem not_nl_stCpu (cpu5 : Str) : '\n' ∉ stCpu cpu5 := by
  unfold stCpu
  simp only
  split_ifs <;> simp

/-- A printed line ends in its only line break. -/
theorem exists_linhaSum {l : Str} (hl : l ∈ sum09 ordem sumCpu sumMem) :
    ∃ w, '\n' ∉ w ∧ l = w ++ ['\n'] := by
  have hfield : ∀ arq it n, '\n' ∉ field (split ';' (fetch (porHost (lines '\n' arq)) it)) n :=
    fun arq it n hn => not_nl_fetch_porHost arq it ((field_split_spec ';' _ n).2 hn)
  rcases mem_sum09 hl with ⟨it, hit, rfl⟩ | ⟨it, hit, -, rfl⟩
  · have hnl := not_nl_of_ocorre sumCpu ((mem_porHost_lines sumCpu it).mp hit)
    refine ⟨_, ?_, rfl⟩
    simp [pctMem, hfield, hnl, not_nl_stCpu]
  · have hnl := not_nl_of_ocorre sumMem ((mem_porHost_lines sumMem it).mp hit)
    refine ⟨_, ?_, rfl⟩
    simp [pctMem, hfield, hnl]

/-- The lines of the file are the printed lines. -/
theorem lines_sumario : lines '\n' (sumario ordem sumCpu sumMem) = sum09 ordem sumCpu sumMem := by
  have key : ∀ ls : List Str, (∀ l ∈ ls, ∃ w, '\n' ∉ w ∧ l = w ++ ['\n']) →
      lines '\n' ls.flatten = ls := by
    intro ls
    induction ls with
    | nil => exact fun _ => rfl
    | cons l ls ih =>
        intro h
        obtain ⟨w, hw, rfl⟩ := h l (by simp)
        rw [List.flatten_cons, List.append_assoc, List.singleton_append, lines_append_cons hw,
          ih fun x hx => h x (by simp [hx])]
  exact key _ fun l hl => exists_linhaSum ordem sumCpu sumMem hl

/-- The keys of the second loop that are printed. -/
def soMem : List Str :=
  (ordem.keys .mem
    (marcada ordem (porHost (lines '\n' sumCpu)) (porHost (lines '\n' sumMem))).keys).filter
      fun it => fetch (marcada ordem (porHost (lines '\n' sumCpu)) (porHost (lines '\n' sumMem))) it
        != "ok".toList

/-- The hosts of the printed lines, in the order of the two loops. -/
theorem map_campo_sum09 : (sum09 ordem sumCpu sumMem).map (fun l => campo l 2)
    = ordem.keys .cpu (porHost (lines '\n' sumCpu)).keys ++ soMem ordem sumCpu sumMem := by
  rw [sum09_eq, ← soMem, List.map_append, List.map_map, List.map_map]
  have hcpu : ∀ it ∈ ordem.keys .cpu (porHost (lines '\n' sumCpu)).keys, ';' ∉ it := by
    intro it hit
    rw [ordem.mem_keys, ← AList.mem_keys] at hit
    exact not_sep_of_mem_porHost hit
  have hmem : ∀ it ∈ soMem ordem sumCpu sumMem, ';' ∉ it := by
    intro it hit
    have hkey := (List.mem_filter.mp hit).1
    rw [ordem.mem_keys, ← AList.mem_keys, mem_marcada] at hkey
    rcases hkey with h | h
    · exact not_sep_of_mem_porHost h
    · exact not_sep_of_mem_porHost h
  congr 1
  · calc _ = (ordem.keys .cpu (porHost (lines '\n' sumCpu)).keys).map id :=
          List.map_congr_left fun it hit => campo_linhaCpu _ _ (hcpu it hit)
      _ = _ := List.map_id _
  · calc _ = (soMem ordem sumCpu sumMem).map id :=
          List.map_congr_left fun it hit => campo_linhaMem _ (hmem it hit)
      _ = _ := List.map_id _

variable {sumMem}

/-- The second loop prints the hosts that are only in its own file. -/
theorem mem_soMem (h : ∀ linha ∈ lines '\n' sumMem, chaveHost linha ≠ []) {it : Str} :
    it ∈ soMem ordem sumCpu sumMem ↔ Ocorre sumMem it ∧ ¬ Ocorre sumCpu it := by
  rw [soMem, List.mem_filter, ordem.mem_keys, ← AList.mem_keys, mem_marcada, fetch_marcada,
    ← mem_porHost_lines, ← mem_porHost_lines]
  by_cases hcpu : it ∈ porHost (lines '\n' sumCpu)
  · rw [if_pos hcpu]
    simp [hcpu]
  · rw [if_neg hcpu]
    constructor
    · rintro ⟨hm, -⟩
      exact ⟨hm.resolve_right hcpu, hcpu⟩
    · rintro ⟨hm, -⟩
      have hok := fetch_porHost_ne_ok sumMem it h ((mem_porHost_lines sumMem it).mp hm)
      exact ⟨Or.inl hm, by simpa using hok⟩

end Linhas

/-- The file has one line for each host of either file and no other line. The line of a host of
the cpu file has the time, the date and the cpu of its last line there; the line of another host
has the time and the date of its last line, no cpu, and the status `nao coletou`; and both
percentages are the one of the last line in the memory file. -/
structure Juncao (ordem : KeyOrder LacoSum Str) (sumCpu sumMem : Str) : Prop where
  uma : ((lines '\n' (sumario ordem sumCpu sumMem)).map fun l => campo l 2).Nodup
  hosts : ∀ it, it ∈ (lines '\n' (sumario ordem sumCpu sumMem)).map (fun l => campo l 2) ↔
    Ocorre sumCpu it ∨ Ocorre sumMem it
  cpu : ∀ l ∈ lines '\n' (sumario ordem sumCpu sumMem), ∀ c, ultimaDoHost sumCpu (campo l 2) = some c →
    campo l 0 = campo c 0 ∧ campo l 1 = campo c 1 ∧ campo l 3 = campo c 3
  mem : ∀ l ∈ lines '\n' (sumario ordem sumCpu sumMem), ultimaDoHost sumCpu (campo l 2) = none →
    ∀ m, ultimaDoHost sumMem (campo l 2) = some m →
      campo l 0 = campo m 0 ∧ campo l 1 = campo m 1 ∧ campo l 3 = [] ∧
        campo l 4 = "nao coletou".toList
  pct : ∀ l ∈ lines '\n' (sumario ordem sumCpu sumMem),
    campo l 6 = ((ultimaDoHost sumMem (campo l 2)).map fun m => campo m 6).getD [] ∧
    campo l 7 = ((ultimaDoHost sumMem (campo l 2)).map fun m => campo m 6).getD []

/-- **The join reports every host once.** -/
theorem juncao (ordem : KeyOrder LacoSum Str) (sumCpu : Str) {sumMem : Str}
    (h : ∀ linha ∈ lines '\n' sumMem, chaveHost linha ≠ []) : Juncao ordem sumCpu sumMem where
  uma := by
    rw [lines_sumario, map_campo_sum09, List.nodup_append]
    refine ⟨ordem.nodup_keys .cpu (AList.keys_nodup _),
      (ordem.nodup_keys .mem (AList.keys_nodup _)).filter _, ?_⟩
    rintro it hit it' hit' rfl
    rw [ordem.mem_keys, ← AList.mem_keys, mem_porHost_lines] at hit
    exact ((mem_soMem ordem sumCpu h).mp hit').2 hit
  hosts it := by
    rw [lines_sumario, map_campo_sum09, List.mem_append, mem_soMem ordem sumCpu h, ordem.mem_keys,
      ← AList.mem_keys, mem_porHost_lines]
    tauto
  cpu l hl c hc := by
    rw [lines_sumario] at hl
    have hin : Ocorre sumCpu (campo l 2) := (ultimaDoHost_isSome _ _).mp (by rw [hc]; rfl)
    rcases mem_sum09 hl with ⟨it, hit, rfl⟩ | ⟨it, hit, hnot, rfl⟩
    · have hsep := not_sep_of_mem_porHost hit
      rw [campo_linhaCpu _ _ hsep] at hc
      have hf := fun n => field_linhaCpu (porHost (lines '\n' sumCpu)) (porHost (lines '\n' sumMem))
        hsep (n := n)
      rw [fetch_of_ultimaDoHost hc] at hf
      exact ⟨hf 0 (by omega), hf 1 (by omega), hf 3 (by omega)⟩
    · rw [campo_linhaMem _ (not_sep_of_mem_porHost hit), ← mem_porHost_lines] at hin
      exact absurd hin hnot
  mem l hl hnone m hm := by
    rw [lines_sumario] at hl
    rcases mem_sum09 hl with ⟨it, hit, rfl⟩ | ⟨it, hit, -, rfl⟩
    · rw [campo_linhaCpu _ _ (not_sep_of_mem_porHost hit)] at hnone
      have hsome := (ultimaDoHost_isSome _ _).mpr ((mem_porHost_lines sumCpu it).mp hit)
      rw [hnone] at hsome
      cases hsome
    · have hsep := not_sep_of_mem_porHost hit
      rw [campo_linhaMem _ hsep] at hm
      have hf := fun n => field_linhaMem (porHost (lines '\n' sumMem)) hsep (n := n)
      rw [fetch_of_ultimaDoHost hm] at hf
      exact ⟨hf 0 (by omega), hf 1 (by omega), hf 3 (by omega), hf 4 (by omega)⟩
  pct l hl := by
    rw [lines_sumario] at hl
    obtain ⟨-, h6, h7⟩ := pct_of_mem_sum09 hl
    have hpct : pctMem (fetch (porHost (lines '\n' sumMem)) (campo l 2))
        = ((ultimaDoHost sumMem (campo l 2)).map fun m => campo m 6).getD [] := by
      rw [fetch, lookup_porHost_lines]
      cases ultimaDoHost sumMem (campo l 2) with
      | none => rfl
      | some m => rfl
    exact ⟨h6.trans hpct, h7.trans hpct⟩

/-- A host with both records, one of which has a new line, and one that has no cpu. -/
theorem juncao_exemplo : Juncao .stored "1;d;a;9;\n2;d;a;35;\n".toList
    "3;e;b;Processor;1;1;50.00;\n4;e;a;Processor;3;1;25.00;\n".toList :=
  juncao .stored _ (by decide +kernel)

end SnmpCollector.Snmp
