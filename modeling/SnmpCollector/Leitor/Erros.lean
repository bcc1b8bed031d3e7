import SnmpCollector.Scripts.StartCfg

set_option autoImplicit false

/-! # What the reader of the walk reports (`id_err.txt`, `id_err_host.txt`)

The reader reports two kinds of errors. A log without rows gives a line with a host to
`id_err.txt` and a line with host and address to `id_err_host.txt`. An interface of the inventory
without an id gives a line to `id_err.txt` and the hosts list line of its host to
`id_err_host.txt`.

The host of the first kind of line is taken from `$host_arq`, which is set by the rows of a log
and keeps its value in a log without rows. `cobranca_iff` says in which listings the right
hosts are charged. The hosts list line of the second kind is looked up in a hash that is empty
for keys without a dot. `reporte_iff` says which hosts are reported all the same.
-/

namespace SnmpCollector.Leitor

open Perl Scripts

/-! ## Logs that failed -/

/-- A log of the walk, in the file `host-ip.txt`. -/
structure Log where
  host : Str
  ip : Str
  linhas : List Str
  host_ne_nil : host ≠ []
  host_limpo : '-' ∉ host ∧ ';' ∉ host
  ip_limpo : '-' ∉ ip ∧ ¬ ".txt".toList <:+: ip

namespace Log

def arquivo (l : Log) : LogFile := (Walk.logName l.host l.ip, l.linhas)

/-- The file is empty or has no line with `=`. -/
def falhou (l : Log) : Bool :=
  decide ((l.linhas.map List.length).sum = 0) || l.linhas.all fun lin => !decide ('=' ∈ lin)

end Log

/-- The last log with rows in a listing. -/
def anterior (logs : List Log) : Option Log := lastSuch (fun l => !l.falhou) logs

section Arquivos

variable (hi : Hash Str Str)

end Arquivos

/-! ### Which hosts are charged -/

/-- Every host with a log that failed has a log with rows right before a log that failed, with
only such logs between, and every log that failed comes after a log with rows, the last of
which is of a host with a log that failed. -/
structure CobrancaCerta (logs : List Log) : Prop where
  propria : ∀ l ∈ logs, l.falhou = true →
    ∃ pre f post, logs = pre ++ f :: post ∧ f.falhou = true ∧ ∃ b ∈ anterior pre, b.host = l.host
  alheia : ∀ pre f post, logs = pre ++ f :: post → f.falhou = true →
    ∃ b ∈ anterior pre, ∃ l ∈ logs, l.falhou = true ∧ l.host = b.host

/-- With one log for each host, the right hosts are charged only when no log failed. -/
theorem cobrancaCerta_um_log {logs : List Log} (hn : (logs.map Log.host).Nodup) :
    CobrancaCerta logs ↔ ∀ l ∈ logs, l.falhou = false := by
  constructor
  · intro h l hl
    by_contra hf
    rw [Bool.not_eq_false] at hf
    obtain ⟨pre, f, post, heq, -, b, hb, hbl⟩ := h.propria l hl hf
    obtain ⟨hmem, hrows⟩ := lastSuch_eq_some hb
    -- the log with rows would be the log that failed
    have hsame : b = l := List.inj_on_of_nodup_map hn (by rw [heq]; simp [hmem]) hl hbl
    rw [hsame, hf] at hrows
    cases hrows
  · intro h
    refine ⟨fun l hl hf => ?_, fun pre f post heq hf => ?_⟩
    · rw [h l hl] at hf
      cases hf
    · rw [h f (by rw [heq]; simp)] at hf
      cases hf

/-- Host and interface of an inventory line. -/
def hostLinha (lin : Str) : Str := field (split ';' (chomp lin)) 0

def intLinha (lin : Str) : Str := field (split ';' (chomp lin)) 1

/-- The key of an inventory line. -/
def chaveLinha (t : HostTabs) (lin : Str) : Str := ref t (hostLinha lin) (intLinha lin)

/-- The keys of the inventory are those of the lines that the reader keeps. -/
theorem mem_lerInterfaces {t : HostTabs} {inv : List Str} {k : Str} :
    k ∈ lerInterfaces t inv ↔ ∃ lin ∈ inv, 3 ≤ (hostLinha lin).length ∧ chaveLinha t lin = k := by
  unfold lerInterfaces
  induction inv using List.reverseRecOn with
  | nil => simp
  | append_singleton inv lin ih =>
      have hstep : k ∈ lerInterface t (inv.foldl (lerInterface t) ∅) lin ↔
          (3 ≤ (hostLinha lin).length ∧ chaveLinha t lin = k) ∨
            k ∈ inv.foldl (lerInterface t) ∅ := by
        rw [lerInterface]
        dsimp only
        split
        · rename_i hlen
          exact ⟨Or.inr, fun h => h.resolve_left fun h' => Nat.not_le.mpr hlen h'.1⟩
        · rename_i hlen
          have hlen' : 3 ≤ (hostLinha lin).length := Nat.not_lt.mp hlen
          split <;> rw [AList.mem_insert] <;>
            exact or_congr_left ⟨fun h => ⟨hlen', h.symm⟩, fun h => h.2.symm⟩
      rw [List.foldl_append, List.foldl_cons, List.foldl_nil, hstep, ih]
      simp only [List.mem_append, List.mem_singleton, or_and_right, exists_or, exists_eq_left]
      exact or_comm

/-- Every key of the inventory without an id has a line in `id_err.txt` and none in
`id_getsnmp.txt` and `id_rtt.txt`, and if the host it resolves to is in the hosts list with
an address, `id_err_host.txt` has the line of the host. -/
def ReporteOk (hosts inv : List Str) (dir : List LogFile) (o : KeyOrder Unit Str) : Prop :=
  let t := lerHosts hosts
  let hi := lerInterfaces t inv
  let st := lerArquivos hi dir
  let s := lerSnmpWalkHost hosts inv dir o
  ∀ lin ∈ inv, 3 ≤ (hostLinha lin).length →
    temDigito (fetch st.hintId (chaveLinha t lin)) = false →
    (linhaErr hi st.hintId (chaveLinha t lin) ∈ s.idErr ∧
      ¬ escrita (chaveLinha t lin) s.idGetsnmp ∧ ¬ escrita (chaveLinha t lin) s.idRtt) ∧
    (hostn t (hostLinha lin) ∈ t.hostnameFullIp →
      temEndereco (endereco t (hostn t (hostLinha lin))) = true →
      fetch t.hostnameFullIp (hostn t (hostLinha lin)) ++ ":\n".toList ∈ s.idErrHost)

/-- The host comes back from its keys, and its name or the name of one of its interfaces
without an id has a dot. -/
def Reportavel (hi : Hash Str Str) (rs : List Row) (h : Str) : Prop :=
  '_' ∉ h ∧ ('.' ∈ h ∨ ∃ i, '.' ∈ i ∧ h ++ '_' :: i ∈ hi ∧
    temDigito (regra (rs.filter fun x => x.refx = h ++ '_' :: i)) = false)

/-- A key without an id is written to no file of ids. -/
theorem not_escrita_selecao (marca : Str) {t : HostTabs} {inv : List Str} {hintId : Hash Str Str}
    {itens : List Str} (hitens : itens.Perm (lerInterfaces t inv).keys) {k : Str}
    (hdig : temDigito (fetch hintId k) = false) :
    ¬ escrita k (selecao marca (lerInterfaces t inv) hintId itens) := by
  rintro ⟨lin, hlin, hk⟩
  obtain ⟨item, hitem, -, hd, rfl⟩ := mem_selecao.mp hlin
  have hsemi : ';' ∉ item :=
    semi_not_mem_key t inv (AList.mem_keys.mpr (hitens.mem_iff.mp hitem))
  rw [chave_linhaId hsemi] at hk
  rw [hk, hdig] at hd
  cases hd

section Chave

variable {hosts : List Str} {h : Str}

/-- The line that the reader looks up is that of `h` exactly for keys `h_...` with a dot. -/
theorem linhaDaChave_eq_iff (hmem : h ∈ (lerHosts hosts).hostnameFullIp) {k : Str} :
    linhaDaChave (lerHosts hosts) k = fetch (lerHosts hosts).hostnameFullIp h ↔
      '.' ∈ k ∧ field (split '_' k) 0 = h := by
  have hnome := nomeDe_fetch hmem
  have hlen : 3 ≤ h.length := by
    obtain ⟨lin, hlin, rfl⟩ := mem_hostnameFullIp.mp hmem
    exact length_nomeDe hlin
  rw [linhaDaChave]
  split
  · rename_i hdot
    refine ⟨fun heq => ⟨hdot, ?_⟩, fun heq => by rw [heq.2]⟩
    by_cases hk : field (split '_' k) 0 ∈ (lerHosts hosts).hostnameFullIp
    · rw [← nomeDe_fetch hk, heq, hnome]
    · -- the line of a host is not empty
      rw [fetch, AList.lookup_eq_none.mpr hk, Option.getD_none] at heq
      rw [← heq] at hnome
      rw [← hnome] at hlen
      exact absurd hlen (by decide)
  · rename_i hdot
    refine ⟨fun heq => ?_, fun heq => absurd heq.1 hdot⟩
    rw [← heq] at hnome
    rw [← hnome] at hlen
    exact absurd hlen (by decide)

/-- The host of a key with a dot is reported. -/
theorem mem_idErrHost_iff (inv : List Str) (dir : List LogFile) (o : KeyOrder Unit Str)
    (hmem : h ∈ (lerHosts hosts).hostnameFullIp)
    (haddr : temEndereco (endereco (lerHosts hosts) h) = true) :
    fetch (lerHosts hosts).hostnameFullIp h ++ ":\n".toList
        ∈ (lerSnmpWalkHost hosts inv dir o).idErrHost ↔
      ∃ k ∈ lerInterfaces (lerHosts hosts) inv, '.' ∈ k ∧ field (split '_' k) 0 = h ∧
        temDigito (regra ((rows dir).filter fun x => x.refx = k)) = false := by
  have hcolon : ":\n".toList = [':'] ++ ['\n'] := by decide
  rw [mem_idErrHost, hcolon, ← List.append_assoc]
  constructor
  · rintro (⟨arq, -, -, -, heq⟩ | ⟨k, hk, hdig, -, heq⟩)
    · -- the line of a log ends in `;`
      obtain ⟨x, hx⟩ : ∃ x, linhaLog arq.1 = x ++ [';'] := ⟨_, by
        rw [linhaLog, delimited_cons, delimited_cons, delimited_nil, ← List.singleton_append,
          ← List.append_assoc, ← List.append_assoc]⟩
      have hlast := congrArg List.getLast? (List.append_cancel_right heq)
      rw [hx, List.getLast?_concat, List.getLast?_concat] at hlast
      cases hlast
    · have hlin := List.append_cancel_right (List.append_cancel_right heq)
      obtain ⟨hdot, hh⟩ := (linhaDaChave_eq_iff hmem).mp hlin
      exact ⟨k, hk, hdot, hh, hdig⟩
  · rintro ⟨k, hk, hdot, hh, hdig⟩
    have hlin := (linhaDaChave_eq_iff hmem).mpr ⟨hdot, hh⟩
    exact Or.inr ⟨k, hk, hdig, by rw [hlin]; exact haddr, by rw [hlin]⟩

/-- Of a host with an interface without an id there is such a key exactly when it is
reportable. -/
theorem reportavel_iff {inv : List Str} {rs : List Row} {i : Str}
    (hk : h ++ '_' :: i ∈ lerInterfaces (lerHosts hosts) inv)
    (hdig : temDigito (regra (rs.filter fun x => x.refx = h ++ '_' :: i)) = false) :
    (∃ k ∈ lerInterfaces (lerHosts hosts) inv, '.' ∈ k ∧ field (split '_' k) 0 = h ∧
        temDigito (regra (rs.filter fun x => x.refx = k)) = false) ↔
      Reportavel (lerInterfaces (lerHosts hosts) inv) rs h := by
  constructor
  · rintro ⟨k, hk', hdot, rfl, hdig'⟩
    have hund : '_' ∈ k := by
      obtain ⟨lin, -, -, rfl⟩ := mem_lerInterfaces.mp hk'
      simp [chaveLinha, ref]
    obtain ⟨a, s, rfl, ha⟩ := List.eq_append_cons_of_mem hund
    rw [field_split_zero_iff.mpr ha]
    refine ⟨ha, ?_⟩
    rcases List.mem_append.mp hdot with hdot | hdot
    · exact Or.inl hdot
    · exact Or.inr ⟨s, (List.mem_cons.mp hdot).resolve_left (by decide), hk', hdig'⟩
  · rintro ⟨hund, hdot | ⟨i', hdot, hk', hdig'⟩⟩
    · exact ⟨_, hk, by simp [hdot], field_split_zero_iff.mpr hund, hdig⟩
    · exact ⟨_, hk', by simp [hdot], field_split_zero_iff.mpr hund, hdig'⟩

end Chave

/-- **When every interface without an id leads to its host.** -/
theorem reporte_iff (hosts inv : List Str) (dir : List LogFile) (o : KeyOrder Unit Str) :
    ReporteOk hosts inv dir o ↔ ∀ lin ∈ inv, 3 ≤ (hostLinha lin).length →
      temDigito (regra ((rows dir).filter fun x => x.refx = chaveLinha (lerHosts hosts) lin)) = false →
      hostn (lerHosts hosts) (hostLinha lin) ∈ (lerHosts hosts).hostnameFullIp →
      temEndereco (endereco (lerHosts hosts) (hostn (lerHosts hosts) (hostLinha lin))) = true →
      Reportavel (lerInterfaces (lerHosts hosts) inv) (rows dir)
        (hostn (lerHosts hosts) (hostLinha lin)) := by
  unfold ReporteOk
  dsimp only
  simp only [fetch_hintId]
  refine forall₄_congr fun lin hlin hlen hdig => ?_
  have hk : chaveLinha (lerHosts hosts) lin ∈ lerInterfaces (lerHosts hosts) inv :=
    mem_lerInterfaces.mpr ⟨lin, hlin, hlen, rfl⟩
  -- the key is among those without an id
  have hdig' : temDigito (fetch (lerArquivos (lerInterfaces (lerHosts hosts) inv) dir).hintId
      (chaveLinha (lerHosts hosts) lin)) = false := by rw [fetch_hintId, hdig]
  have herr : linhaErr (lerInterfaces (lerHosts hosts) inv)
      (lerArquivos (lerInterfaces (lerHosts hosts) inv) dir).hintId (chaveLinha (lerHosts hosts) lin)
        ∈ (lerSnmpWalkHost hosts inv dir o).idErr := by
    refine List.mem_append_right _ (List.mem_map_of_mem (List.mem_filter.mpr ⟨?_, by simp [hdig']⟩))
    exact (KeyOrder.mem_keys _ _ _ _).mpr (AList.mem_keys.mp hk)
  have hids : ¬ escrita (chaveLinha (lerHosts hosts) lin) (lerSnmpWalkHost hosts inv dir o).idGetsnmp ∧
      ¬ escrita (chaveLinha (lerHosts hosts) lin) (lerSnmpWalkHost hosts inv dir o).idRtt :=
    ⟨not_escrita_selecao _ (o.perm _ _) hdig', not_escrita_selecao _ (o.perm _ _) hdig'⟩
  rw [and_iff_right ⟨herr, hids⟩]
  refine forall₂_congr fun hmem haddr => ?_
  rw [mem_idErrHost_iff inv dir o hmem haddr, reportavel_iff hk hdig]

/-- A host of the shipped hosts list without a dot in its name is not reported. -/
theorem host_sem_ponto : ¬ ∀ (hosts inv : List Str) (dir : List LogFile) (o : KeyOrder Unit Str),
    ReporteOk hosts inv dir o := by
  intro h
  have hmem := (h ["rcemex01;10.98.22.202;\n".toList] ["rcemex01;Serial4/0:0;snmpa;\n".toList] []
    .stored _ List.mem_cons_self (by decide +kernel) (by decide +kernel)).2 (by decide +kernel)
    (by decide +kernel)
  revert hmem
  decide +kernel

end SnmpCollector.Leitor
