import SnmpCollector.Snmp.GetInt
import SnmpCollector.Leitor.Enderecos
import SnmpCollector.Leitor.Escolha

set_option autoImplicit false

/-! # What the poller reads is what the reader wrote

`00_ler_snmp_walk_host.pl` writes a line of `id_getsnmp.txt` in one of several layouts: the
host of the interface may be known by full or by short name, and an earlier inventory line of
the interface may have left its tag. `get_int.pl` tells the layouts apart by where it finds an
address. For hosts lists with dotted-quad addresses and logs of `snmpwalk` it finds the address
of the host, the selected index and the key in every layout (`poller_decodifica`).
-/

namespace SnmpCollector.Snmp.GetInt

open Perl Leitor

/-! ## Addresses -/

/-- One to three digits. -/
def Octeto (o : Str) : Prop := 1 ≤ o.length ∧ o.length ≤ 3 ∧ ∀ c ∈ o, c.isDigit = true

/-- A dotted-quad address. -/
def Quad (ip : Str) : Prop :=
  ∃ a b c d, ip = a ++ '.' :: (b ++ '.' :: (c ++ '.' :: d)) ∧
    Octeto a ∧ Octeto b ∧ Octeto c ∧ Octeto d

theorem aposOcteto_octeto {o : Str} (ho : Octeto o) (s : Str) :
    aposOcteto (o ++ '.' :: s) = some s := by
  have htake : (o ++ '.' :: s).takeWhile Char.isDigit = o := by
    rw [List.takeWhile_append_of_pos ho.2.2, List.takeWhile_cons_of_neg (by decide),
      List.append_nil]
  have hdrop : (o ++ '.' :: s).dropWhile Char.isDigit = '.' :: s := by
    rw [List.dropWhile_append_of_pos ho.2.2, List.dropWhile_cons_of_neg (by decide)]
  rw [aposOcteto, htake, hdrop]
  exact if_pos ⟨ho.1, ho.2.1⟩

theorem temEndereco_quad {ip : Str} (h : Quad ip) : temEndereco ip = true := by
  obtain ⟨a, b, c, d, rfl, ha, hb, hc, hd⟩ := h
  obtain ⟨x, d', rfl⟩ := List.exists_cons_of_ne_nil (l := d) (by
    rintro rfl
    exact absurd hd.1 (by decide))
  rw [temEndereco, List.any_eq_true]
  refine ⟨_, (List.mem_tails _ _).mpr (List.suffix_refl _), ?_⟩
  rw [aposOcteto_octeto ha, Option.bind_some, aposOcteto_octeto hb, Option.bind_some,
    aposOcteto_octeto hc]
  exact hd.2.2 x (by simp)

theorem not_sep_quad {ip : Str} (h : Quad ip) : ∀ c ∈ ip, c ≠ ';' ∧ c ≠ '\n' ∧ c ≠ '\r' := by
  obtain ⟨a, b, c, d, rfl, ha, hb, hc, hd⟩ := h
  have hdig : ∀ x : Char, x.isDigit = true → x ≠ ';' ∧ x ≠ '\n' ∧ x ≠ '\r' := by
    rintro x hx
    refine ⟨?_, ?_, ?_⟩ <;> rintro rfl <;> exact absurd hx (by decide)
  intro x hx
  simp only [List.mem_append, List.mem_cons] at hx
  rcases hx with hx | rfl | hx | rfl | hx | rfl | hx
  · exact hdig x (ha.2.2 x hx)
  · decide
  · exact hdig x (hb.2.2 x hx)
  · decide
  · exact hdig x (hc.2.2 x hx)
  · decide
  · exact hdig x (hd.2.2 x hx)

/-- The column that holds the address in the other layout holds a tag or nothing. -/
theorem temEndereco_marcaAnterior (ls : List InvLine) : temEndereco (marcaAnterior ls) = false := by
  cases ls with
  | nil => decide
  | cons l ls =>
      rw [marcaAnterior]
      cases l.tag <;> decide

/-! ## Hosts lists of lines `host;ip;` -/

/-- A line of the hosts list. -/
structure HostIp where
  host : Str
  ip : Str
  clean : ∀ c ∈ host, c ≠ ';' ∧ c ≠ '\n' ∧ c ≠ '\r'
  quad : Quad ip

namespace HostIp

def corpo (h : HostIp) : Str := delimited ';' [h.host, h.ip]

def text (h : HostIp) : Str := h.corpo ++ ['\n']

theorem not_sep (h : HostIp) : ∀ f ∈ [h.host, h.ip], ∀ c ∈ f, c ≠ ';' ∧ c ≠ '\n' ∧ c ≠ '\r' := by
  intro f hf
  simp only [List.mem_cons, List.not_mem_nil, or_false] at hf
  rcases hf with rfl | rfl
  · exact h.clean
  · exact not_sep_quad h.quad

theorem chomp_text (h : HostIp) : chomp h.text = h.corpo := by
  have hclean : ∀ c ∈ h.corpo, c ≠ '\n' ∧ c ≠ '\r' := by
    intro c hc
    rcases mem_delimited hc with rfl | ⟨f, hf, hcf⟩
    · decide
    · exact (h.not_sep f hf c hcf).2
  rw [text, chomp_append, chomp_nl, List.append_nil,
    chomp_eq_self (fun hn => (hclean _ hn).1 rfl) (fun hr => (hclean _ hr).2 rfl)]

theorem splitOn_corpo (h : HostIp) : h.corpo.splitOn ';' = [h.host, h.ip, []] := by
  have hsemi : ∀ f ∈ [h.host, h.ip], ';' ∉ f := fun f hf hc => (h.not_sep f hf _ hc).1 rfl
  have hs := splitOn_delimited_append hsemi []
  rw [List.append_nil] at hs
  exact hs

theorem nomeDe_corpo (h : HostIp) : nomeDe h.corpo = h.host := by
  rw [nomeDe, field_split, splitOn_corpo]
  rfl

end HostIp

/-- The hash of the full names holds the line of each host. -/
theorem fetch_hosts {hosts : List HostIp} (hdif : (hosts.map HostIp.host).Nodup) {h : HostIp}
    (hh : h ∈ hosts) (hlen : 3 ≤ h.host.length) :
    fetch (lerHosts (hosts.map HostIp.text)).hostnameFullIp h.host = h.corpo := by
  have hlist : listados (hosts.map HostIp.text)
      = (hosts.map HostIp.corpo).filter fun lin => !decide ((nomeDe lin).length < 3) := by
    rw [listados, List.map_map]
    congr 2
    funext h'
    exact h'.chomp_text
  have hmem : h.corpo ∈ listados (hosts.map HostIp.text) := by
    rw [hlist, List.mem_filter]
    exact ⟨List.mem_map_of_mem hh, by simpa [HostIp.nomeDe_corpo] using hlen⟩
  have huniq : ∀ lin ∈ listados (hosts.map HostIp.text), decide (nomeDe lin = h.host) = true →
      lin = h.corpo := by
    intro lin hlin hnome
    rw [hlist, List.mem_filter] at hlin
    obtain ⟨h', hh', rfl⟩ := List.mem_map.mp hlin.1
    have heq : h'.host = h.host := by
      rw [← HostIp.nomeDe_corpo]
      exact of_decide_eq_true hnome
    rw [List.inj_on_of_nodup_map hdif hh' hh heq]
  rw [(fetch_lerHosts _ _).1, lastSuch_eq_of_unique hmem (by simp [HostIp.nomeDe_corpo]) huniq,
    Option.getD_some]

/-! ## The lines of `id_getsnmp.txt` -/

/-- A line of a walk log: `IF-MIB::ifDescr.<number> = STRING: <text>`, or without `=`. -/
def LinhaWalk (lin : Str) : Prop := '=' ∉ lin ∨ ∃ indice texto, lin = linhaDescr indice texto

/-- The ids of such logs are indices. -/
theorem id_rows {dir : List LogFile} (hdir : ∀ arq ∈ dir, ∀ lin ∈ arq.2, LinhaWalk lin) {r : Row}
    (hr : r ∈ rows dir) : ∃ n, r.id = decimal n := by
  obtain ⟨arq, harq, hmem⟩ := List.mem_flatMap.mp hr
  rw [rowsDe] at hmem
  split at hmem
  · simp at hmem
  · obtain ⟨lin, hlin, hsome⟩ := List.mem_filterMap.mp hmem
    rcases hdir arq harq lin hlin with heq | ⟨indice, texto, rfl⟩
    · have hnone : lerLinha arq.1 lin = none := if_neg fun h => heq (mem_chomp h).1
      rw [hnone] at hsome
      exact absurd hsome (by simp)
    · rw [lerLinha_linhaDescr, Option.some.injEq] at hsome
      exact ⟨indice, by rw [← hsome]⟩

/-- The rule selects the id of one of the rows. -/
theorem regra_mem (rs : List Row) : regra rs = [] ∨ ∃ r ∈ rs, regra rs = r.id := by
  induction rs using List.reverseRecOn with
  | nil => exact Or.inl rfl
  | append_singleton rs r ih =>
      have hstep : regra (rs ++ [r])
          = if r.serial && !r.atm && decide (regra rs ≠ []) then regra rs else r.id := by
        rw [regra, List.foldl_append]
        rfl
      rw [hstep]
      split
      · rcases ih with hnil | ⟨x, hx, hid⟩
        · exact Or.inl hnil
        · exact Or.inr ⟨x, by simp [hx], hid⟩
      · exact Or.inr ⟨r, by simp, rfl⟩

theorem semi_not_mem_hintId {dir : List LogFile}
    (hdir : ∀ arq ∈ dir, ∀ lin ∈ arq.2, LinhaWalk lin) (hi : Hash Str Str) (k : Str) :
    ';' ∉ fetch (lerArquivos hi dir).hintId k := by
  rw [fetch_hintId]
  rcases regra_mem ((rows dir).filter fun x => x.refx = k) with hnil | ⟨r, hr, hid⟩
  · rw [hnil]
    simp
  · obtain ⟨n, hn⟩ := id_rows hdir (List.mem_of_mem_filter hr)
    rw [hid, hn]
    exact not_mem_decimal (by decide) n

/-- The columns of the layouts: with the hosts list line of the host, or with its address. -/
theorem columns_registroDe {hosts : List HostIp} (hdif : (hosts.map HostIp.host).Nodup)
    {h : HostIp} (hh : h ∈ hosts) {l : InvLine} (hlen : 3 ≤ l.host.length)
    (hres : hostn (lerHosts (hosts.map HostIp.text)) l.host = h.host) (ls : List InvLine) :
    (registroDe (lerHosts (hosts.map HostIp.text)) (l :: ls)).splitOn ';'
        = [l.host, l.interface, l.tag.text, h.host, h.ip, [], marcaAnterior ls] ∨
    (registroDe (lerHosts (hosts.map HostIp.text)) (l :: ls)).splitOn ';'
        = [l.host, l.interface, l.tag.text, h.ip, marcaAnterior ls] := by
  set t := lerHosts (hosts.map HostIp.text) with ht
  have hlen' : 3 ≤ h.host.length := by
    rw [← hres]
    exact length_hostn t hlen
  have hfetch : fetch t.hostnameFullIp h.host = h.corpo := fetch_hosts hdif hh hlen'
  have hmarca : ';' ∉ marcaAnterior ls := by
    cases ls with
    | nil => simp [marcaAnterior]
    | cons l' ls => exact l'.semi_not_mem _ (by simp [marcaAnterior])
  rw [registroDe_cons, InvLine.corpo, splitOn_delimited_append l.semi_not_mem,
    List.splitOn_append_cons_self, List.splitOn_eq_singleton hmarca]
  cases hc : nomeCompleto t l.host with
  | true =>
      -- named in full: the columns hold the whole line of the hosts list
      left
      have hname : l.host = h.host := by
        rw [← hres, hostn, resolve_completo hc]
      have hipl : ipl t l.host = h.corpo := by
        rw [ipl, resolve_completo hc, hname]
        exact hfetch
      rw [hipl, h.splitOn_corpo]
      rfl
  | false =>
      -- found by the short name: the column holds the address
      right
      have hmem : hostn t l.host ∈ t.hostnameFullIp := by
        rw [hres]
        exact mem_lerInterfaces_of_fetch (by rw [hfetch]; simp [HostIp.corpo])
      have hipl : ipl t l.host = h.ip := by
        rw [ht, ipl_curto hc hmem, ← ht, hres, endereco, hfetch, ipDe, field_split, h.splitOn_corpo]
        rfl
      have hsemi : ';' ∉ h.ip := fun hs => (not_sep_quad h.quad _ hs).1 rfl
      rw [hipl, List.splitOn_eq_singleton hsemi]
      rfl

/-- The address is in the column of the first layout. -/
theorem decodifica_completo {item : Str} (h : (alvoCompleto (split ';' item)).valido = true) :
    decodifica item = some (alvoCompleto (split ';' item)) := by
  simp only [decodifica, h, if_true]

/-- The address is in the column of the second layout and the first has none. -/
theorem decodifica_curto {item : Str} (h1 : (alvoCompleto (split ';' item)).valido = false)
    (h2 : (alvoCurto (split ';' item)).valido = true) :
    decodifica item = some (alvoCurto (split ';' item)) := by
  simp only [decodifica, h1, h2, if_true, Bool.false_eq_true, if_false]

/-- **The poller decodes every line the reader writes.** A line for an interface whose last
inventory line resolved to a host of the hosts list is polled, with the address of the host,
the index that the reader selected and the key of the interface. -/
theorem poller_decodifica (hosts : List HostIp) (hdif : (hosts.map HostIp.host).Nodup)
    (inv : List InvLine) (dir : List LogFile)
    (hdir : ∀ arq ∈ dir, ∀ lin ∈ arq.2, LinhaWalk lin) (o : KeyOrder Unit Str) :
    let t := lerHosts (hosts.map HostIp.text)
    let hi := lerInterfaces t (inv.map InvLine.text)
    ∀ lin ∈ (lerSnmpWalkHost (hosts.map HostIp.text) (inv.map InvLine.text) dir o).idGetsnmp,
      ∀ l ∈ ultimaLinha t inv (field (split ';' lin) 0), ∀ h ∈ hosts, hostn t l.host = h.host →
        ∃ d, decodifica lin = some d ∧ d.ipHost = h.ip ∧
          d.idInt = fetch (lerArquivos hi dir).hintId (ref t l.host l.interface) ∧
          d.tinfo = ref t l.host l.interface := by
  intro t hi lin hlin l hl h hh hres
  obtain ⟨k, hk, _, hdig, rfl⟩ := mem_selecao.mp hlin
  rw [KeyOrder.mem_keys, ← AList.mem_keys] at hk
  have hsemi : ';' ∉ k := semi_not_mem_key t _ hk
  have hid : ';' ∉ fetch (lerArquivos hi dir).hintId k := semi_not_mem_hintId hdir hi k
  rw [chave_linhaId hsemi] at hl
  obtain ⟨hlen, hkey⟩ := chave_ultimaLinha hl
  obtain ⟨ls, hls⟩ := fetch_ultimaLinha hl
  rw [← hkey]
  set id := fetch (lerArquivos hi dir).hintId k with hidk
  set dd := split ';' (linhaId k (fetch hi k) id) with hdd
  have h0 : field dd 0 = k := chave_linhaId hsemi _ _
  have h4 : field dd 4 = field ((fetch hi k).splitOn ';') 3 := by
    rw [hdd, field_linhaId hsemi _ _ (by decide), ← field_split]
    rfl
  have h5 : field dd 5 = field ((fetch hi k).splitOn ';') 4 := by
    rw [hdd, field_linhaId hsemi _ _ (by decide), ← field_split]
    rfl
  have h6 : field dd 6 = id := id_linhaId hsemi hid _
  have haddr : temEndereco h.ip = true := temEndereco_quad h.quad
  rw [show fetch hi k = _ from hls] at h4 h5
  -- the address is in the sixth column when the host was given in full, else in the fifth
  rcases columns_registroDe hdif hh hlen hres ls with hcol | hcol
  · have h5' : field dd 5 = h.ip := h5.trans (by rw [hcol]; rfl)
    have hv : (alvoCompleto dd).valido = true := by
      rw [Alvo.valido, alvoCompleto, h5', h6, haddr, hdig]
      rfl
    exact ⟨_, decodifica_completo hv, h5', h6, h0⟩
  · have h4' : field dd 4 = h.ip := h4.trans (by rw [hcol]; rfl)
    have h5' : field dd 5 = marcaAnterior ls := h5.trans (by rw [hcol]; rfl)
    have hv1 : (alvoCompleto dd).valido = false := by
      rw [Alvo.valido, alvoCompleto, h5', temEndereco_marcaAnterior]
      rfl
    have hv2 : (alvoCurto dd).valido = true := by
      rw [Alvo.valido, alvoCurto, h4', h6, haddr, hdig]
      rfl
    exact ⟨_, decodifica_curto hv1 hv2, h4', h6, h0⟩

/-- The host, the inventory line and the log row behind the shipped `id_getsnmp.txt`. -/
def pae02 : HostIp where
  host := "swcpae02.pae.psys".toList
  ip := "10.33.16.62".toList
  clean := by simp
  quad := ⟨"10".toList, "33".toList, "16".toList, "62".toList, by decide +kernel,
    ⟨by simp, by simp, by simp⟩, ⟨by simp, by simp, by simp⟩, ⟨by simp, by simp, by simp⟩,
    ⟨by simp, by simp, by simp⟩⟩

def pae02Inv : InvLine := ⟨"swcpae02.pae.psys".toList, "FastEthernet0/23".toList, .snmpb, by simp⟩

def pae02Log : LogFile :=
  ("swcpae02.pae.psys-10.33.16.62.txt".toList, [linhaDescr 10023 "FastEthernet0/23\n".toList])

theorem decodifica_pae02 : ∃ d,
    decodifica "swcpae02.pae.psys_FastEthernet0/23;swcpae02.pae.psys;FastEthernet0/23;snmpb;swcpae02.pae.psys;10.33.16.62;10023;\n".toList = some d ∧
      d.ipHost = "10.33.16.62".toList ∧ d.idInt = "10023".toList ∧
      d.tinfo = "swcpae02.pae.psys_FastEthernet0/23".toList := by
  set t := lerHosts ([pae02].map HostIp.text) with ht
  have hlogs : ∀ arq ∈ [pae02Log], ∀ lin ∈ arq.2, LinhaWalk lin := by
    intro arq harq lin hlin
    rw [List.mem_singleton] at harq
    subst harq
    rw [List.mem_singleton.mp hlin]
    exact Or.inr ⟨_, _, rfl⟩
  have hlin : "swcpae02.pae.psys_FastEthernet0/23;swcpae02.pae.psys;FastEthernet0/23;snmpb;swcpae02.pae.psys;10.33.16.62;10023;\n".toList
      ∈ (lerSnmpWalkHost ([pae02].map HostIp.text) ([pae02Inv].map InvLine.text) [pae02Log]
        KeyOrder.stored).idGetsnmp := by decide +kernel
  have hl : pae02Inv ∈ ultimaLinha t [pae02Inv] "swcpae02.pae.psys_FastEthernet0/23".toList := by
    rw [ultimaLinha, linhasDe, List.filter_cons_of_pos (by decide +kernel)]
    rfl
  obtain ⟨d, hd, hip, hid, hkey⟩ := poller_decodifica [pae02] (by decide) [pae02Inv] [pae02Log] hlogs
    KeyOrder.stored _ hlin pae02Inv (by convert hl using 2; decide +kernel) pae02
    (List.mem_singleton.mpr rfl) (by decide +kernel)
  exact ⟨d, hd, hip, hid.trans (by decide +kernel), hkey.trans (by decide +kernel)⟩

end SnmpCollector.Snmp.GetInt
