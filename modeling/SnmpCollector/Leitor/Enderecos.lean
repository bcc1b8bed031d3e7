import SnmpCollector.Leitor.WalkHost

set_option autoImplicit false

/-! # The address column (`leitor/00_ler_snmp_walk_host.pl`, `atualiza_bd/*.pl`)

The record of an interface carries what the hosts list gives for its host. For a host named
in full this is the whole hosts list line `host;ip;`, for a host found by its short name it is
the address alone. The two layouts have the address in different columns:

    host;interface;tag;host;ip;;tag        (full name)
    host;interface;tag;ip;tag              (short name)

Both updaters read the column that holds the address in the second layout.
`endereco_iff` says when what they write to `ip_loopback_host` is the address.
-/

namespace SnmpCollector.Leitor

open Perl AtualizaBd

/-! ## The hosts list -/

/-- The host of a hosts list line. -/
def nomeDe (lin : Str) : Str := field (split ';' lin) 0

/-- The address of a hosts list line. -/
def ipDe (lin : Str) : Str := field (split ';' lin) 1

/-- The short name of a host. -/
def curto (h : Str) : Str := field (split '.' h) 0

/-- The lines of the hosts list that the reader keeps. -/
def listados (hosts : List Str) : List Str :=
  (hosts.map chomp).filter fun lin => !decide ((nomeDe lin).length < 3)

/-- The address of a host in the hosts list. -/
def endereco (t : HostTabs) (h : Str) : Str := ipDe (fetch t.hostnameFullIp h)

/-- The hosts list loop stores each line twice. -/
theorem lerHosts_eq (hosts : List Str) :
    lerHosts hosts = ⟨load nomeDe id ∅ (listados hosts),
      load (fun lin => curto (nomeDe lin)) id ∅ (listados hosts)⟩ := by
  unfold lerHosts
  induction hosts using List.reverseRecOn with
  | nil => rfl
  | append_singleton hosts lin ih =>
      have happ : listados (hosts ++ [lin]) = listados hosts ++ listados [lin] := by
        simp [listados]
      rw [List.foldl_append, List.foldl_cons, List.foldl_nil, ih, happ]
      by_cases hlen : (nomeDe (chomp lin)).length < 3
      · have hnil : listados [lin] = [] := by simp [listados, hlen]
        rw [hnil, List.append_nil]
        exact if_pos hlen
      · have hone : listados [lin] = [chomp lin] := by simp [listados, hlen]
        rw [hone]
        simp only [load, List.foldl_append, List.foldl_cons, List.foldl_nil]
        exact if_neg hlen

theorem length_nomeDe {hosts : List Str} {lin : Str} (h : lin ∈ listados hosts) :
    3 ≤ (nomeDe lin).length := by
  have hlen := (List.mem_filter.mp h).2
  simpa using hlen

theorem fetch_lerHosts (hosts : List Str) (h : Str) :
    fetch (lerHosts hosts).hostnameFullIp h
        = (lastSuch (fun lin => decide (nomeDe lin = h)) (listados hosts)).getD [] ∧
    fetch (lerHosts hosts).hostIp h
        = (lastSuch (fun lin => decide (curto (nomeDe lin) = h)) (listados hosts)).getD [] := by
  rw [lerHosts_eq]
  constructor
  · rw [fetch, lookup_load]
    simp
  · rw [fetch, lookup_load]
    simp

theorem mem_hostnameFullIp {hosts : List Str} {h : Str} :
    h ∈ (lerHosts hosts).hostnameFullIp ↔ ∃ lin ∈ listados hosts, nomeDe lin = h := by
  rw [lerHosts_eq, mem_load]
  simp

/-- The line found by a short name is also the line found by the full name in it. -/
theorem fetch_nomeDe {hosts : List Str} {s lin : Str}
    (h : lastSuch (fun lin => decide (curto (nomeDe lin) = s)) (listados hosts) = some lin) :
    fetch (lerHosts hosts).hostnameFullIp (nomeDe lin) = lin := by
  obtain ⟨hmem, hs⟩ := lastSuch_eq_some h
  have hs' : curto (nomeDe lin) = s := by simpa using hs
  rw [(fetch_lerHosts hosts (nomeDe lin)).1]
  -- the lines with this full name are among those with its short name
  have hsub : lastSuch (fun lin' => decide (nomeDe lin' = nomeDe lin))
      ((listados hosts).filter fun lin' => decide (curto (nomeDe lin') = s)) = some lin := by
    obtain ⟨front, hfront⟩ : ∃ front,
        ((listados hosts).filter fun lin' => decide (curto (nomeDe lin') = s)) = front ++ [lin] :=
      List.getLast?_eq_some_iff.mp h
    rw [hfront, lastSuch_concat, if_pos (by simp)]
  rw [lastSuch_filter] at hsub
  have hcongr : lastSuch (fun lin' => decide (nomeDe lin' = nomeDe lin)) (listados hosts)
      = some lin := by
    rw [← hsub]
    apply lastSuch_congr
    intro lin' _
    by_cases hn : nomeDe lin' = nomeDe lin
    · simp [hn, hs']
    · simp [hn]
  rw [hcongr, Option.getD_some]

/-! ## What the hosts list gives for a host -/

/-- The host is named in full: `length($hostname_full_ip{@dd[0]})>3`. -/
def nomeCompleto (t : HostTabs) (h : Str) : Bool := 3 < (fetch t.hostnameFullIp h).length

theorem resolve_completo {t : HostTabs} {h : Str} (hc : nomeCompleto t h = true) :
    resolve t h = (fetch t.hostnameFullIp h, h) :=
  if_pos (by simpa [nomeCompleto] using hc)

theorem nomeDe_fetch {hosts : List Str} {h : Str} (hmem : h ∈ (lerHosts hosts).hostnameFullIp) :
    nomeDe (fetch (lerHosts hosts).hostnameFullIp h) = h := by
  obtain ⟨lin, hlin, hnome⟩ := mem_hostnameFullIp.mp hmem
  obtain ⟨lin', hlast⟩ := lastSuch_isSome (p := fun lin => decide (nomeDe lin = h)) hlin
    (by simp [hnome])
  rw [(fetch_lerHosts hosts h).1, hlast, Option.getD_some]
  simpa using (lastSuch_eq_some hlast).2

/-- A host of the hosts list that is not named in full is found by its short name, and what
the record gets is the address. -/
theorem ipl_curto {hosts : List Str} {h : Str} (hc : nomeCompleto (lerHosts hosts) h = false)
    (hmem : hostn (lerHosts hosts) h ∈ (lerHosts hosts).hostnameFullIp) :
    ipl (lerHosts hosts) h = endereco (lerHosts hosts) (hostn (lerHosts hosts) h) := by
  set t := lerHosts hosts with ht
  have hres : resolve t h = (field (split ';' (fetch t.hostIp (curto h))) 1,
      if (nomeDe (fetch t.hostIp (curto h))).length < 3 then h else nomeDe (fetch t.hostIp (curto h))) :=
    if_neg (by simpa [nomeCompleto] using hc)
  have hip := (fetch_lerHosts hosts (curto h)).2
  rw [← ht] at hip
  cases hlast : lastSuch (fun lin => decide (curto (nomeDe lin) = curto h)) (listados hosts) with
  | some lin =>
      rw [hlast, Option.getD_some] at hip
      have hlen : ¬ (nomeDe lin).length < 3 :=
        Nat.not_lt.mpr (length_nomeDe (lastSuch_eq_some hlast).1)
      rw [hip, if_neg hlen] at hres
      rw [ipl, hostn, hres, endereco, ht, fetch_nomeDe hlast]
      rfl
  | none =>
      -- then the name itself would be in the hosts list, and its short name too
      rw [hlast, Option.getD_none] at hip
      have hn : hostn t h = h := by
        rw [hostn, hres, hip]
        rfl
      rw [hn, ht] at hmem
      obtain ⟨lin, hlin, hnome⟩ := mem_hostnameFullIp.mp hmem
      exact absurd (by simp [hnome]) (lastSuch_eq_none.mp hlast lin hlin)

/-- A name of three characters or more resolves to one. -/
theorem length_hostn (t : HostTabs) {h : Str} (hlen : 3 ≤ h.length) : 3 ≤ (hostn t h).length := by
  unfold hostn resolve
  split
  · exact hlen
  · dsimp only
    split
    · exact hlen
    · omega

/-! ## The layout of a record -/

/-- The tag of the line before, if the key had one. -/
def marcaAnterior : List InvLine → Str
  | [] => []
  | l :: _ => l.tag.text

theorem registroDe_cons (t : HostTabs) (l : InvLine) (ls : List InvLine) :
    registroDe t (l :: ls) = l.corpo ++ (ipl t l.host ++ ';' :: marcaAnterior ls) := by
  cases ls with
  | nil => rfl
  | cons l' ls => simp [registroDe, InvLine.registro, marcaAnterior]

/-- The column after the tag: the name again for a host named in full, else the address. -/
def coluna3 (t : HostTabs) (h : Str) : Str :=
  if nomeCompleto t h then h else endereco t (hostn t h)

theorem field_ipl {hosts : List Str} {h : Str}
    (hmem : hostn (lerHosts hosts) h ∈ (lerHosts hosts).hostnameFullIp) (s : Str) :
    field ((ipl (lerHosts hosts) h ++ ';' :: s).splitOn ';') 0 = coluna3 (lerHosts hosts) h := by
  obtain ⟨f, fs, hf⟩ := List.exists_cons_of_ne_nil (List.splitOn_ne_nil ';' (ipl (lerHosts hosts) h))
  have hfirst : field ((ipl (lerHosts hosts) h ++ ';' :: s).splitOn ';') 0
      = field (split ';' (ipl (lerHosts hosts) h)) 0 := by
    rw [List.splitOn_append_cons_self, field_split, hf]
    rfl
  rw [hfirst, coluna3]
  cases hc : nomeCompleto (lerHosts hosts) h with
  | true =>
      rw [hostn, resolve_completo hc] at hmem
      rw [ipl, resolve_completo hc, if_pos rfl]
      exact nomeDe_fetch hmem
  | false =>
      have hsemi : ';' ∉ endereco (lerHosts hosts) (hostn (lerHosts hosts) h) :=
        (field_split_spec ';' _ 1).1
      rw [ipl_curto hc hmem, if_neg (by simp), field_split, List.splitOn_eq_singleton hsemi]
      rfl

/-- The columns of a record up to the one after the tag, whatever text follows. -/
theorem splitOn_registroDe {hosts : List Str} {l : InvLine}
    (hmem : hostn (lerHosts hosts) l.host ∈ (lerHosts hosts).hostnameFullIp) (ls : List InvLine)
    (s : Str) : ∃ resto, (registroDe (lerHosts hosts) (l :: ls) ++ s).splitOn ';'
      = [l.host, l.interface, l.tag.text, coluna3 (lerHosts hosts) l.host] ++ resto := by
  have happ : registroDe (lerHosts hosts) (l :: ls) ++ s
      = delimited ';' [l.host, l.interface, l.tag.text] ++
        (ipl (lerHosts hosts) l.host ++ ';' :: (marcaAnterior ls ++ s)) := by
    rw [registroDe_cons, InvLine.corpo, List.append_assoc, List.append_assoc, List.cons_append]
  have hcol := field_ipl hmem (marcaAnterior ls ++ s)
  obtain ⟨f, fs, hf⟩ := List.exists_cons_of_ne_nil
    (List.splitOn_ne_nil ';' (ipl (lerHosts hosts) l.host ++ ';' :: (marcaAnterior ls ++ s)))
  rw [hf] at hcol
  refine ⟨fs, ?_⟩
  rw [happ, splitOn_delimited_append l.semi_not_mem, hf, ← hcol]
  rfl

/-! ## The two updaters -/

/-- The last inventory line of a key. -/
def ultimaLinha (t : HostTabs) (inv : List InvLine) (k : Str) : Option InvLine :=
  (linhasDe t inv k).getLast?

/-- What a key with a last line `l` has in `%host_interface`. -/
theorem fetch_ultimaLinha {t : HostTabs} {inv : List InvLine} {k : Str} {l : InvLine}
    (hl : l ∈ ultimaLinha t inv k) :
    ∃ ls, fetch (lerInterfaces t (inv.map InvLine.text)) k = registroDe t (l :: ls) := by
  obtain ⟨front, hfront⟩ := List.getLast?_eq_some_iff.mp hl
  refine ⟨front.reverse, ?_⟩
  rw [fetch_lerInterfaces, hfront, List.reverse_append, List.reverse_singleton,
    List.singleton_append]

theorem chave_ultimaLinha {t : HostTabs} {inv : List InvLine} {k : Str} {l : InvLine}
    (hl : l ∈ ultimaLinha t inv k) : 3 ≤ l.host.length ∧ k = ref t l.host l.interface := by
  have hchave := (List.mem_filter.mp (List.mem_of_getLast? hl)).2
  rw [decide_eq_true_iff, InvLine.chave] at hchave
  split at hchave
  · exact absurd hchave (by simp)
  · rename_i hlen
    exact ⟨by omega, (Option.some.inj hchave).symm⟩

theorem mem_lerInterfaces_of_fetch {hi : Hash Str Str} {k : Str} (h : fetch hi k ≠ []) : k ∈ hi := by
  rw [← AList.lookup_isSome]
  cases hlook : hi.lookup k with
  | some reg => rfl
  | none => exact absurd (by rw [fetch, hlook, Option.getD_none]) h

theorem registroDe_cons_ne_nil (t : HostTabs) (l : InvLine) (ls : List InvLine) :
    registroDe t (l :: ls) ≠ [] := by
  rw [registroDe_cons]
  simp

/-- A key with a last line is a key of `%host_interface`. -/
theorem mem_of_ultimaLinha {t : HostTabs} {inv : List InvLine} {k : Str} {l : InvLine}
    (hl : l ∈ ultimaLinha t inv k) : k ∈ lerInterfaces t (inv.map InvLine.text) := by
  obtain ⟨ls, hls⟩ := fetch_ultimaLinha hl
  exact mem_lerInterfaces_of_fetch (by rw [hls]; exact registroDe_cons_ne_nil t l ls)

/-- For every line of `id_rtt.txt` whose host is in the hosts list, and for every line of
`id_ger.txt` whose row has the record of such a host, the column that the updater of this file
writes to `ip_loopback_host` is the address of the host. -/
def EnderecosOk (hosts : List Str) (inv : List InvLine) (dir : List LogFile)
    (o : KeyOrder Unit Str) : Prop :=
  let t := lerHosts hosts
  let s := lerSnmpWalkHost hosts (inv.map InvLine.text) dir o
  (∀ lin ∈ s.idRtt, ∀ l ∈ ultimaLinha t inv (field (split ';' lin) 0),
    hostn t l.host ∈ t.hostnameFullIp →
      (entrada .rtt lin).ipLoopHost = endereco t (hostn t l.host)) ∧
  ∀ (j : Nat) (r : Row) (lin : Str), (rows dir)[j]? = some r → s.idGer[j]? = some lin →
    ∀ l ∈ ultimaLinha t inv r.refx, hostn t l.host ∈ t.hostnameFullIp →
      (entrada .rtt2 lin).ipLoopHost = endereco t (hostn t l.host)

/-- The host is found by its short name, or its name is its own address. -/
def CurtoOuIgual (t : HostTabs) (h : Str) : Prop := nomeCompleto t h = true → h = endereco t h

/-- The key is written to `id_rtt.txt`: it has an id and `rtt` is in its record. -/
def NaIdRtt (t : HostTabs) (inv : List InvLine) (rs : List Row) (k : Str) : Prop :=
  temDigito (regra (rs.filter fun x => x.refx = k)) = true ∧
    "rtt".toList <:+: registroDe t (linhasDe t inv k).reverse

/-- The row leaves the address where the second updater looks for it. A `;` in the id moves
the columns. -/
def RowOk (t : HostTabs) (l : InvLine) (r : Row) : Prop :=
  if ';' ∈ r.id then
    field (r.id.splitOn ';' ++ [l.host, l.interface, l.tag.text, coluna3 t l.host]) 4
      = endereco t (hostn t l.host)
  else CurtoOuIgual t l.host

theorem coluna3_eq_iff (t : HostTabs) (h : Str) :
    coluna3 t h = endereco t (hostn t h) ↔ CurtoOuIgual t h := by
  unfold coluna3 CurtoOuIgual
  cases hc : nomeCompleto t h with
  | true => simp [hostn, resolve_completo hc]
  | false => simp

/-- The first updater reads the column after the tag. -/
theorem ipLoopHost_linhaId {hosts : List Str} {l : InvLine} {k : Str} (hk : ';' ∉ k)
    (hmem : hostn (lerHosts hosts) l.host ∈ (lerHosts hosts).hostnameFullIp) (ls : List InvLine)
    (id : Str) :
    (entrada .rtt (linhaId k (registroDe (lerHosts hosts) (l :: ls)) id)).ipLoopHost
      = coluna3 (lerHosts hosts) l.host := by
  obtain ⟨resto, hresto⟩ := splitOn_registroDe hmem ls []
  rw [List.append_nil] at hresto
  show field (split ';' (linhaId k (registroDe (lerHosts hosts) (l :: ls)) id)) 4 = _
  rw [field_linhaId hk _ _ (by decide)]
  show field (split ';' (registroDe (lerHosts hosts) (l :: ls))) 3 = _
  rw [field_split, hresto]
  rfl

/-- The second updater reads the same column when the id has no `;`. -/
theorem ipLoopHost_linhaGer {hosts : List Str} {inv : List InvLine} {l : InvLine} {r : Row}
    (hl : l ∈ ultimaLinha (lerHosts hosts) inv r.refx)
    (hmem : hostn (lerHosts hosts) l.host ∈ (lerHosts hosts).hostnameFullIp) :
    (entrada .rtt2 (linhaGer (lerInterfaces (lerHosts hosts) (inv.map InvLine.text)) r)).ipLoopHost
      = field (r.id.splitOn ';' ++
          [l.host, l.interface, l.tag.text, coluna3 (lerHosts hosts) l.host]) 4 := by
  obtain ⟨ls, hls⟩ := fetch_ultimaLinha hl
  obtain ⟨resto, hresto⟩ := splitOn_registroDe hmem ls ['\n']
  have hkey : ';' ∉ r.refx := semi_not_mem_key _ _ (mem_of_ultimaLinha hl)
  have hsemi : ∀ f ∈ [r.host, r.int], ';' ∉ f := by
    intro f hf hcf
    simp only [List.mem_cons, List.not_mem_nil, or_false] at hf
    rcases hf with rfl | rfl
    · exact hkey (by simp [Row.refx, hcf])
    · exact hkey (by simp [Row.refx, hcf])
  have hline : linhaGer (lerInterfaces (lerHosts hosts) (inv.map InvLine.text)) r
      = delimited ';' [r.host, r.int] ++
        (r.id ++ ';' :: (registroDe (lerHosts hosts) (l :: ls) ++ ['\n'])) := by
    simp [linhaGer, hls]
  show field (split ';' (linhaGer _ r)) 6 = _
  rw [hline, field_split, splitOn_delimited_append hsemi, List.splitOn_append_cons_self, hresto,
    ← List.append_assoc (r.id.splitOn ';')]
  -- the id gives at least one column, so the first five are before `resto`
  have hpos : 0 < (r.id.splitOn ';').length := List.length_pos_of_ne_nil (List.splitOn_ne_nil _ _)
  show field ((r.id.splitOn ';' ++ [l.host, l.interface, l.tag.text, _]) ++ resto) 4 = _
  rw [field, field, List.getD_append _ _ _ _ (by
    rw [List.length_append]
    simp only [List.length_cons, List.length_nil]
    omega)]

theorem rowOk_iff (t : HostTabs) (l : InvLine) (r : Row) :
    field (r.id.splitOn ';' ++ [l.host, l.interface, l.tag.text, coluna3 t l.host]) 4
      = endereco t (hostn t l.host) ↔ RowOk t l r := by
  unfold RowOk
  by_cases hsemi : ';' ∈ r.id
  · rw [if_pos hsemi]
  · rw [if_neg hsemi, List.splitOn_eq_singleton hsemi, ← coluna3_eq_iff]
    rfl

/-- **When the updaters write the address.** They do exactly when the last inventory line of
every interface in question has its host by short name, or the name of the host is its own
address. -/
theorem endereco_iff (hosts : List Str) (inv : List InvLine) (dir : List LogFile)
    (o : KeyOrder Unit Str) :
    EnderecosOk hosts inv dir o ↔
      ∀ k, ∀ l ∈ ultimaLinha (lerHosts hosts) inv k,
        hostn (lerHosts hosts) l.host ∈ (lerHosts hosts).hostnameFullIp →
        (NaIdRtt (lerHosts hosts) inv (rows dir) k → CurtoOuIgual (lerHosts hosts) l.host) ∧
        ∀ r ∈ rows dir, r.refx = k → RowOk (lerHosts hosts) l r := by
  have hger := idGer_lerSnmpWalkHost hosts (inv.map InvLine.text) dir o
  have hrtt := mem_idRtt_lerSnmpWalkHost hosts (inv.map InvLine.text) dir o
  unfold EnderecosOk
  dsimp only
  rw [hger]
  set t := lerHosts hosts with ht
  set hi := lerInterfaces t (inv.map InvLine.text) with hhi
  constructor
  · rintro ⟨h1, h2⟩ k l hl hmem
    have hk : ';' ∉ k := semi_not_mem_key t _ (mem_of_ultimaLinha hl)
    obtain ⟨ls, hls⟩ := fetch_ultimaLinha hl
    refine ⟨?_, ?_⟩
    · -- the line of the key in `id_rtt.txt`
      rintro ⟨hdig, hmarca⟩
      have hlin : linhaRtt hi (rows dir) k
          ∈ (lerSnmpWalkHost hosts (inv.map InvLine.text) dir o).idRtt :=
        (hrtt _).mpr ⟨k, mem_of_ultimaLinha hl,
          contem_iff.mpr (by rw [hhi, fetch_lerInterfaces]; exact hmarca), hdig, rfl⟩
      have haddr := h1 _ hlin l (by rw [linhaRtt, chave_linhaId hk]; exact hl) hmem
      rw [linhaRtt, hls, ipLoopHost_linhaId hk hmem] at haddr
      exact (coluna3_eq_iff t l.host).mp haddr
    · -- the line of the row in `id_ger.txt`
      intro r hr hrk
      obtain ⟨j, hj⟩ := List.getElem?_of_mem hr
      have haddr := h2 j r (linhaGer hi r) hj (by rw [List.getElem?_map, hj, Option.map_some]) l
        (by rw [hrk]; exact hl) hmem
      rw [ipLoopHost_linhaGer (by rw [hrk]; exact hl) hmem] at haddr
      exact (rowOk_iff t l r).mp haddr
  · intro h
    refine ⟨?_, ?_⟩
    · intro lin hlin l hl hmem
      obtain ⟨k, hkey, hmarca, hdig, rfl⟩ := (hrtt lin).mp hlin
      have hk : ';' ∉ k := semi_not_mem_key t _ hkey
      rw [linhaRtt, chave_linhaId hk] at hl
      obtain ⟨ls, hls⟩ := fetch_ultimaLinha hl
      rw [linhaRtt, hls, ipLoopHost_linhaId hk hmem]
      refine (coluna3_eq_iff t l.host).mpr ((h k l hl hmem).1 ⟨hdig, ?_⟩)
      rw [contem_iff, hhi, fetch_lerInterfaces] at hmarca
      exact hmarca
    · intro j r lin hj hlin l hl hmem
      rw [List.getElem?_map, hj, Option.map_some, Option.some.injEq] at hlin
      subst hlin
      rw [ipLoopHost_linhaGer hl hmem]
      exact (rowOk_iff t l r).mpr ((h r.refx l hl hmem).2 r (List.mem_of_getElem? hj) rfl)

theorem paa03_limpa : ∀ c ∈ "mcpaa03.paa.psys".toList ++ "MFR12.333".toList,
    c ≠ ';' ∧ c ≠ '\n' ∧ c ≠ '\r' := by
  simp

/-- A line of the shipped inventory whose host is named in full. -/
def paa03 : InvLine := ⟨"mcpaa03.paa.psys".toList, "MFR12.333".toList, .rtt, paa03_limpa⟩

/-- The log with the row of its interface. -/
def paa03Log : LogFile :=
  ("mcpaa03.paa.psys-10.32.92.4.txt".toList, ["IF-MIB::ifDescr.275 = STRING: MFR12.333\n".toList])

def paa03Hosts : List Str := ["mcpaa03.paa.psys;10.32.92.4;\n".toList]

/-- The first updater writes the name of the host. -/
theorem host_as_address : ¬ ∀ (hosts : List Str) (inv : List InvLine) (dir : List LogFile)
    (o : KeyOrder Unit Str), EnderecosOk hosts inv dir o := by
  intro h
  have hlin : "mcpaa03.paa.psys_MFR12.333;mcpaa03.paa.psys;MFR12.333;rtt;mcpaa03.paa.psys;10.32.92.4;275;\n".toList
      ∈ (lerSnmpWalkHost paa03Hosts [paa03.text] [paa03Log] KeyOrder.stored).idRtt := by
    decide +kernel
  have hultima : paa03 ∈ ultimaLinha (lerHosts paa03Hosts) [paa03] "mcpaa03.paa.psys_MFR12.333".toList := by
    rw [ultimaLinha, linhasDe, List.filter_cons_of_pos (by decide +kernel)]
    rfl
  have haddr := (h paa03Hosts [paa03] [paa03Log] KeyOrder.stored).1 _ hlin paa03
    (by convert hultima using 2; decide +kernel) (by decide +kernel)
  revert haddr
  decide +kernel

end SnmpCollector.Leitor
