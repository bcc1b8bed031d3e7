import SnmpCollector.Basic

set_option autoImplicit false

/-! # Hosts list and inventory (`leitor/00_ler_snmp_walk_host.pl`, lines 19 to 101 and 260 to 314)

The reader first loads the hosts list `host;ip;` into two hashes, by full and by short host
name. It then loads the inventory `host;interface;tag;` into `%host_interface`, one record
per key `host_interface`. A line for a key that already has a record replaces the record and
keeps one field of it, the tag. At the end the reader goes through the keys and writes each
key that has an id to `id_getsnmp.txt` if its record contains `snmp`, and to `id_rtt.txt` if
it contains `rtt`.

The record therefore holds the tags of the last two lines of a key and no other
(`fetch_lerInterfaces`), and the tests for `snmp` and `rtt` look at the whole record, host name
and address included. `marcas_iff` says for which inventories every key lands in the files
its tags ask for.
-/

namespace SnmpCollector.Leitor

open Perl

/-! ## The hosts list -/

/-- `%hostname_full_ip` and `%host_ip`: the line of a host by full and by short name. -/
structure HostTabs where
  hostnameFullIp : Hash Str Str
  hostIp : Hash Str Str

def lerHost (t : HostTabs) (lin : Str) : HostTabs :=
  let lin := chomp lin
  let dd := split ';' lin
  if (field dd 0).length < 3 then t
  else
    let hh := split '.' (field dd 0)
    ⟨t.hostnameFullIp.insert (field dd 0) lin, t.hostIp.insert (field hh 0) lin⟩

def lerHosts (hint : List Str) : HostTabs := hint.foldl lerHost ⟨∅, ∅⟩

/-! ## The inventory -/

/-- `$ipl` and `$hostn` for the host field of an inventory line: the whole hosts list line and
the name itself when the full name is known, else address and full name by short name. -/
def resolve (t : HostTabs) (h : Str) : Str × Str :=
  if 3 < (fetch t.hostnameFullIp h).length then (fetch t.hostnameFullIp h, h)
  else
    let hn := split '.' h
    let ff := split ';' (fetch t.hostIp (field hn 0))
    let hostn := field ff 0
    (field ff 1, if hostn.length < 3 then h else hostn)

def ipl (t : HostTabs) (h : Str) : Str := (resolve t h).1

def hostn (t : HostTabs) (h : Str) : Str := (resolve t h).2

/-- `$ref`, the key of an inventory line with the given host and interface fields. -/
def ref (t : HostTabs) (h i : Str) : Str :=
  hostn t h ++ '_' :: replaceAll "controller E1 ".toList "E1".toList i

/-- One inventory line; `hi` is `%host_interface`. -/
def lerInterface (t : HostTabs) (hi : Hash Str Str) (lin : Str) : Hash Str Str :=
  let lin := chomp lin
  let dd := split ';' lin
  if (field dd 0).length < 3 then hi
  else
    let r := ref t (field dd 0) (field dd 1)
    if 3 < (fetch hi r).length then
      let di := split ';' (fetch hi r)
      hi.insert r (lin ++ ipl t (field dd 0) ++ ';' :: field di 2)
    else hi.insert r (lin ++ ipl t (field dd 0) ++ [';'])

def lerInterfaces (t : HostTabs) (hint : List Str) : Hash Str Str := hint.foldl (lerInterface t) ∅

/-! ## The selection -/

/-- `$s=~/[0-9]/` -/
def temDigito (s : Str) : Bool := s.any Char.isDigit

/-- The line `"$item;$dados;$hint_id{$item};\n"`, where `$dados` are the first five fields of
the record. -/
def linhaId (item registro id : Str) : Str :=
  let dd := split ';' registro
  delimited ';' [item, field dd 0, field dd 1, field dd 2, field dd 3, field dd 4, id] ++ ['\n']

/-- What a group file receives in the last loop: the keys `itens` in the order of their
enumeration, those with an id and with `marca` in their record. -/
def selecao (marca : Str) (hi hintId : Hash Str Str) (itens : List Str) : List Str :=
  itens.filterMap fun item =>
    if temDigito (fetch hintId item) && contem marca (fetch hi item) then
      some (linhaId item (fetch hi item) (fetch hintId item))
    else none

/-- The lines of `id_getsnmp.txt`. -/
def idGetsnmp : Hash Str Str → Hash Str Str → List Str → List Str := selecao "snmp".toList

/-- The lines of `id_rtt.txt`. -/
def idRtt : Hash Str Str → Hash Str Str → List Str → List Str := selecao "rtt".toList

/-- A key is in a file: some line has it as its first field. -/
def escrita (k : Str) (arq : List Str) : Prop := ∃ lin ∈ arq, field (split ';' lin) 0 = k

/-- A file has the lines of the keys with an id and with the mark in their record. -/
theorem mem_selecao {marca : Str} {hi hintId : Hash Str Str} {itens : List Str} {lin : Str} :
    lin ∈ selecao marca hi hintId itens ↔
      ∃ k ∈ itens, contem marca (fetch hi k) = true ∧ temDigito (fetch hintId k) = true ∧
        linhaId k (fetch hi k) (fetch hintId k) = lin := by
  rw [selecao, List.mem_filterMap]
  refine exists_congr fun k => and_congr_right fun _ => ?_
  by_cases hc : (temDigito (fetch hintId k) && contem marca (fetch hi k)) = true
  · rw [if_pos hc, Option.some.injEq]
    rw [Bool.and_eq_true] at hc
    simp only [hc.1, hc.2, true_and]
  · rw [if_neg hc]
    rw [Bool.and_eq_true] at hc
    exact ⟨fun h => absurd h (by simp), fun h => absurd ⟨h.2.1, h.1⟩ hc⟩

/-! ## Keys -/

theorem semi_not_mem_hostn (t : HostTabs) {h : Str} (hh : ';' ∉ h) : ';' ∉ hostn t h := by
  unfold hostn resolve
  split
  · exact hh
  · dsimp only
    split
    · exact hh
    · exact (field_split_spec ';' _ 0).1

theorem semi_not_mem_ref (t : HostTabs) {h i : Str} (hh : ';' ∉ h) (hi : ';' ∉ i) :
    ';' ∉ ref t h i := by
  intro hmem
  rcases List.mem_append.mp hmem with hmem | hmem
  · exact semi_not_mem_hostn t hh hmem
  · rcases List.mem_cons.mp hmem with heq | hmem
    · exact absurd heq (by decide)
    · rcases mem_replaceAll hmem with hmem | hmem
      · simp at hmem
      · exact hi hmem

/-- The keys of `%host_interface` do not contain `;`. -/
theorem semi_not_mem_key (t : HostTabs) (hint : List Str) {k : Str}
    (hk : k ∈ lerInterfaces t hint) : ';' ∉ k := by
  unfold lerInterfaces at hk
  induction hint using List.reverseRecOn with
  | nil => simp at hk
  | append_singleton ls lin ih =>
      rw [List.foldl_append, List.foldl_cons, List.foldl_nil, lerInterface] at hk
      have href : ';' ∉ ref t (field (split ';' (chomp lin)) 0) (field (split ';' (chomp lin)) 1) :=
        semi_not_mem_ref t (field_split_spec ';' _ 0).1 (field_split_spec ';' _ 1).1
      dsimp only at hk
      split at hk
      · exact ih hk
      · split at hk <;> rw [AList.mem_insert] at hk <;> rcases hk with rfl | hk
        · exact href
        · exact ih hk
        · exact href
        · exact ih hk

theorem semi_not_mem_colunas {item : Str} (hitem : ';' ∉ item) (registro : Str) :
    ∀ f ∈ item :: (List.range 5).map (field (split ';' registro)), ';' ∉ f := by
  intro f hf
  rcases List.mem_cons.mp hf with rfl | hf
  · exact hitem
  · obtain ⟨m, _, rfl⟩ := List.mem_map.mp hf
    exact (field_split_spec ';' _ m).1

/-- The columns of a line before the id: the key and the first five fields of the record. -/
theorem field_linhaId {item : Str} (hitem : ';' ∉ item) (registro id : Str) {n : Nat} (hn : n < 6) :
    field (split ';' (linhaId item registro id)) n
      = field (item :: (List.range 5).map (field (split ';' registro))) n := by
  have hline : linhaId item registro id
      = delimited ';' (item :: (List.range 5).map (field (split ';' registro))) ++
        (delimited ';' [id] ++ ['\n']) := by
    simp [linhaId, List.range_succ]
  rw [hline, field_split_delimited (semi_not_mem_colunas hitem registro) _ (by simpa using hn)]

/-- The column after them is the id. -/
theorem id_linhaId {item id : Str} (hitem : ';' ∉ item) (hid : ';' ∉ id) (registro : Str) :
    field (split ';' (linhaId item registro id)) 6 = id := by
  have hsemi : ∀ f ∈ item :: (List.range 5).map (field (split ';' registro)) ++ [id], ';' ∉ f := by
    intro f hf
    rcases List.mem_append.mp hf with hf | hf
    · exact semi_not_mem_colunas hitem registro f hf
    · rw [List.mem_singleton.mp hf]
      exact hid
  have hline : linhaId item registro id
      = delimited ';' (item :: (List.range 5).map (field (split ';' registro)) ++ [id]) ++ ['\n'] := by
    simp [linhaId, List.range_succ]
  rw [hline, field_split_delimited hsemi _ (by simp)]
  rfl

theorem chave_linhaId {item : Str} (hitem : ';' ∉ item) (registro id : Str) :
    field (split ';' (linhaId item registro id)) 0 = item :=
  field_linhaId hitem registro id (by decide)

/-- A key whose record has an id and contains the mark is in the file, and no other key. -/
theorem escrita_selecao_iff {marca : Str} {t : HostTabs} {hint : List Str} {hintId : Hash Str Str}
    {itens : List Str} (hitens : itens.Perm (lerInterfaces t hint).keys) (k : Str)
    (hdig : temDigito (fetch hintId k) = true) (hmarca : marca ≠ []) :
    escrita k (selecao marca (lerInterfaces t hint) hintId itens) ↔
      marca <:+: fetch (lerInterfaces t hint) k := by
  have hfield : ∀ item ∈ itens, ∀ reg id, field (split ';' (linhaId item reg id)) 0 = item := by
    intro item hitem reg id
    have hsemi : ';' ∉ item := semi_not_mem_key t hint (AList.mem_keys.mpr (hitens.mem_iff.mp hitem))
    exact chave_linhaId hsemi reg id
  constructor
  · rintro ⟨lin, hlin, hk⟩
    obtain ⟨item, hitem, hcontem, _, rfl⟩ := mem_selecao.mp hlin
    rw [hfield item hitem] at hk
    rw [← hk]
    exact contem_iff.mp hcontem
  · intro hinf
    -- the record is not empty, so the key is there and is enumerated
    have hmem : k ∈ itens := by
      rw [hitens.mem_iff, ← AList.mem_keys, ← AList.lookup_isSome]
      cases hlook : (lerInterfaces t hint).lookup k with
      | some reg => rfl
      | none =>
          rw [fetch, hlook] at hinf
          exact absurd (List.eq_nil_of_infix_nil hinf) hmarca
    exact ⟨_, mem_selecao.mpr ⟨k, hmem, contem_iff.mpr hinf, hdig, rfl⟩, hfield k hmem _ _⟩

/-! ## Inventories of lines `host;interface;tag;` -/

inductive Tag
  | snmpa
  | snmpb
  | rtt
  | rttm
  deriving DecidableEq

def Tag.text : Tag → Str
  | .snmpa => "snmpa".toList
  | .snmpb => "snmpb".toList
  | .rtt => "rtt".toList
  | .rttm => "rttm".toList

/-- The two groups of tags, each with a file of its own. -/
inductive Grupo
  | snmp
  | rtt
  deriving DecidableEq

def Tag.grupo : Tag → Grupo
  | .snmpa | .snmpb => .snmp
  | .rtt | .rttm => .rtt

def Grupo.marca : Grupo → Str
  | .snmp => "snmp".toList
  | .rtt => "rtt".toList

/-- An inventory line `host;interface;tag;`. -/
structure InvLine where
  host : Str
  interface : Str
  tag : Tag
  clean : ∀ c ∈ host ++ interface, c ≠ ';' ∧ c ≠ '\n' ∧ c ≠ '\r'

namespace InvLine

/-- The line without its terminator. -/
def corpo (l : InvLine) : Str := delimited ';' [l.host, l.interface, l.tag.text]

def text (l : InvLine) : Str := l.corpo ++ ['\n']

/-- The key the line resolves to; lines with a host of less than three characters are skipped. -/
def chave (t : HostTabs) (l : InvLine) : Option Str :=
  if l.host.length < 3 then none else some (ref t l.host l.interface)

/-- The record a first line of a key leaves. -/
def registro (t : HostTabs) (l : InvLine) : Str := l.corpo ++ (ipl t l.host ++ [';'])

theorem semi_not_mem (l : InvLine) : ∀ f ∈ [l.host, l.interface, l.tag.text], ';' ∉ f := by
  intro f hf hmem
  simp only [List.mem_cons, List.not_mem_nil, or_false] at hf
  rcases hf with rfl | rfl | rfl
  · exact (l.clean _ (by simp [hmem])).1 rfl
  · exact (l.clean _ (by simp [hmem])).1 rfl
  · revert hmem; cases l.tag <;> decide

theorem newline_not_mem_tag (tag : Tag) : ∀ c ∈ tag.text, c ≠ '\n' ∧ c ≠ '\r' := by
  cases tag <;> simp [Tag.text]

theorem chomp_text (l : InvLine) : chomp l.text = l.corpo := by
  have hclean : ∀ c ∈ l.corpo, c ≠ '\n' ∧ c ≠ '\r' := by
    intro c hc
    rcases mem_delimited hc with rfl | ⟨f, hf, hcf⟩
    · decide
    · simp only [List.mem_cons, List.not_mem_nil, or_false] at hf
      rcases hf with rfl | rfl | rfl
      · exact (l.clean c (by simp [hcf])).2
      · exact (l.clean c (by simp [hcf])).2
      · exact newline_not_mem_tag l.tag c hcf
  rw [text, chomp, List.filter_append, List.filter_eq_self.mpr (by
    intro c hc; simp [(hclean c hc).1, (hclean c hc).2])]
  simp

theorem field_corpo_append (l : InvLine) (s : Str) {n : Nat} (hn : n < 3) :
    field (split ';' (l.corpo ++ s)) n = field [l.host, l.interface, l.tag.text] n :=
  field_split_delimited l.semi_not_mem s hn

end InvLine

/-- What one line does, in terms of its fields. -/
theorem lerInterface_text (t : HostTabs) (hi : Hash Str Str) (l : InvLine) :
    lerInterface t hi l.text = match l.chave t with
      | none => hi
      | some r => hi.insert r (l.registro t ++
          (if 3 < (fetch hi r).length then field (split ';' (fetch hi r)) 2 else [])) := by
  have h0 := l.field_corpo_append [] (n := 0) (by decide)
  have h1 := l.field_corpo_append [] (n := 1) (by decide)
  rw [List.append_nil] at h0 h1
  simp only [lerInterface, InvLine.chomp_text, h0, h1, InvLine.chave, InvLine.registro]
  simp only [field, List.getD_cons_zero, List.getD_cons_succ]
  by_cases hlen : l.host.length < 3
  · rw [if_pos hlen, if_pos hlen]
  · rw [if_neg hlen, if_neg hlen]
    by_cases hreg : 3 < (fetch hi (ref t l.host l.interface)).length <;> simp [hreg]

/-- The record of a key, from its lines in reverse order: the last line with the tag of the
one before it. -/
def registroDe (t : HostTabs) : List InvLine → Str
  | [] => []
  | [l] => l.registro t
  | l :: l' :: _ => l.registro t ++ l'.tag.text

/-- The inventory lines of a key. -/
def linhasDe (t : HostTabs) (inv : List InvLine) (k : Str) : List InvLine :=
  inv.filter fun l => l.chave t = some k

/-- **The record of a key after the inventory loop.** It keeps the last line of the key and
the tag of the line before, whatever came earlier. -/
theorem fetch_lerInterfaces (t : HostTabs) (inv : List InvLine) (k : Str) :
    fetch (lerInterfaces t (inv.map InvLine.text)) k = registroDe t (linhasDe t inv k).reverse := by
  unfold lerInterfaces
  induction inv using List.reverseRecOn with
  | nil => rfl
  | append_singleton inv l ih =>
      rw [List.map_append, List.map_singleton, List.foldl_append, List.foldl_cons, List.foldl_nil,
        lerInterface_text]
      set hi := (inv.map InvLine.text).foldl (lerInterface t) ∅ with hhi
      cases hch : l.chave t with
      | none => simpa [linhasDe, hch] using ih
      | some r =>
          by_cases hr : r = k
          · subst hr
            rw [linhasDe, List.filter_append, List.filter_cons_of_pos (by simp [hch]),
              List.filter_nil, List.reverse_append, List.reverse_singleton, List.singleton_append]
            have hfetch : ∀ v, fetch (hi.insert r v) r = v := by
              intro v
              rw [fetch_insert, if_pos rfl]
            dsimp only
            rw [hfetch, ih]
            rw [linhasDe]
            cases hprev : (inv.filter fun l => decide (l.chave t = some r)).reverse with
            | nil => simp [registroDe]
            | cons l' ls =>
                -- the record of the earlier line begins with that line, which gives its tag
                have hmem : l' ∈ inv.filter fun l => decide (l.chave t = some r) := by
                  rw [← List.mem_reverse, hprev]; simp
                have hlen : ¬ l'.host.length < 3 := by
                  intro hlt
                  have hc := (List.mem_filter.mp hmem).2
                  rw [decide_eq_true_iff, InvLine.chave, if_pos hlt] at hc
                  exact absurd hc (by simp)
                have hreg : ∃ s, registroDe t (l' :: ls) = l'.corpo ++ s := by
                  cases ls with
                  | nil => exact ⟨_, rfl⟩
                  | cons l'' ls => exact ⟨_, by rw [registroDe, InvLine.registro, List.append_assoc]⟩
                obtain ⟨s, hs⟩ := hreg
                have hlong : 3 < (registroDe t (l' :: ls)).length := by
                  rw [hs, InvLine.corpo]
                  simp
                  omega
                rw [if_pos hlong, hs, l'.field_corpo_append s (by decide)]
                rfl
          · have hkeep : fetch (hi.insert r (l.registro t ++ (if 3 < (fetch hi r).length then
                field (split ';' (fetch hi r)) 2 else []))) k = fetch hi k := by
              rw [fetch_insert, if_neg (Ne.symm hr)]
            dsimp only
            rw [hkeep, ih]
            simp [linhasDe, hch, hr]

/-! ## Which inventories keep their tags -/

/-- The mark of the group occurs in the host or the interface of the line, or in what the
hosts list gives for its host. -/
def textoTem (g : Grupo) (t : HostTabs) (l : InvLine) : Prop :=
  g.marca <:+: l.host ∨ g.marca <:+: l.interface ∨ g.marca <:+: ipl t l.host

theorem marca_infix_tag (g : Grupo) (tag : Tag) : g.marca <:+: tag.text ↔ tag.grupo = g := by
  cases g <;> cases tag <;> decide

theorem semi_not_mem_marca (g : Grupo) : ';' ∉ g.marca := by cases g <;> decide

theorem marca_ne_nil (g : Grupo) : g.marca ≠ [] := by cases g <;> decide

/-- The mark of a group is in the record exactly when one of the last two lines has a tag of
the group or the texts of the last line contain the mark. -/
theorem marca_infix_registroDe (g : Grupo) (t : HostTabs) (ls : List InvLine) :
    g.marca <:+: registroDe t ls ↔
      (∃ l ∈ ls.take 2, l.tag.grupo = g) ∨ ∃ l ∈ ls.head?, textoTem g t l := by
  have hm := semi_not_mem_marca g
  have hcorpo : ∀ (l : InvLine) (s : Str), g.marca <:+: l.corpo ++ s ↔
      (g.marca <:+: l.host ∨ g.marca <:+: l.interface ∨ l.tag.grupo = g) ∨ g.marca <:+: s := by
    intro l s
    rw [InvLine.corpo, infix_delimited hm]
    simp [marca_infix_tag]
  have hnil : ¬ g.marca <:+: [] := fun h => marca_ne_nil g (List.eq_nil_of_infix_nil h)
  match ls with
  | [] => simp [registroDe, hnil]
  | [l] =>
      rw [registroDe, InvLine.registro, hcorpo, infix_append_cons hm]
      simp only [List.take_succ_cons, List.take_nil, List.mem_singleton, exists_eq_left,
        List.head?_cons, Option.mem_def, Option.some.injEq, exists_eq_left', textoTem, hnil, or_false]
      tauto
  | l :: l' :: _ =>
      rw [registroDe, InvLine.registro, List.append_assoc, hcorpo, List.append_assoc,
        List.singleton_append, infix_append_cons hm, marca_infix_tag]
      simp only [List.take_succ_cons, List.take_zero, List.mem_cons, List.not_mem_nil, or_false,
        exists_eq_or_imp, exists_eq_left, List.head?_cons, Option.mem_def, Option.some.injEq,
        exists_eq_left', textoTem]
      tauto

/-- The lines `ls` of a key, in file order, do not lose a tag of the group and do not gain one:
a tag of the group is among the last two lines or its mark in the texts of the last line,
and a mark in these texts comes with a tag of the group. -/
structure GrupoOk (g : Grupo) (t : HostTabs) (ls : List InvLine) : Prop where
  guardado : (∃ l ∈ ls, l.tag.grupo = g) →
    (∃ l ∈ ls.reverse.take 2, l.tag.grupo = g) ∨ ∃ l ∈ ls.getLast?, textoTem g t l
  alheio : (∃ l ∈ ls.getLast?, textoTem g t l) → ∃ l ∈ ls, l.tag.grupo = g

theorem marca_infix_registroDe_iff_grupoOk (g : Grupo) (t : HostTabs) (ls : List InvLine) :
    (g.marca <:+: registroDe t ls.reverse ↔ ∃ l ∈ ls, l.tag.grupo = g) ↔ GrupoOk g t ls := by
  rw [marca_infix_registroDe, List.head?_reverse]
  constructor
  · intro h
    exact ⟨h.mpr, fun htexto => h.mp (Or.inr htexto)⟩
  · intro h
    refine ⟨?_, h.guardado⟩
    rintro (⟨l, hl, hg⟩ | htexto)
    · exact ⟨l, List.mem_reverse.mp (List.mem_of_mem_take hl), hg⟩
    · exact h.alheio htexto

/-- Every key with an id is in `id_getsnmp.txt` exactly when some line of the key has an `snmp`
tag, and in `id_rtt.txt` exactly when some line has an `rtt` tag. -/
def MarcasOk (t : HostTabs) (inv : List InvLine) (hintId : Hash Str Str)
    (o : KeyOrder Unit Str) : Prop :=
  let hi := lerInterfaces t (inv.map InvLine.text)
  let itens := o.keys () hi.keys
  ∀ k, temDigito (fetch hintId k) = true →
    (escrita k (idGetsnmp hi hintId itens) ↔
      ∃ l ∈ inv, l.chave t = some k ∧ l.tag.grupo = .snmp) ∧
    (escrita k (idRtt hi hintId itens) ↔
      ∃ l ∈ inv, l.chave t = some k ∧ l.tag.grupo = .rtt)

theorem escrita_selecao_marca_iff (g : Grupo) (t : HostTabs) (inv : List InvLine)
    (hintId : Hash Str Str) (o : KeyOrder Unit Str) {k : Str}
    (hdig : temDigito (fetch hintId k) = true) :
    (escrita k (selecao g.marca (lerInterfaces t (inv.map InvLine.text)) hintId
        (o.keys () (lerInterfaces t (inv.map InvLine.text)).keys)) ↔
      ∃ l ∈ inv, l.chave t = some k ∧ l.tag.grupo = g) ↔ GrupoOk g t (linhasDe t inv k) := by
  rw [escrita_selecao_iff (o.perm () _) k hdig (marca_ne_nil g), fetch_lerInterfaces,
    ← marca_infix_registroDe_iff_grupoOk]
  simp [linhasDe, and_assoc]

/-- **Which inventories keep their tags.** Every key with an id lands in exactly the files its
tags ask for if and only if no key with an id loses or gains a tag. -/
theorem marcas_iff (hosts : List Str) (inv : List InvLine) (hintId : Hash Str Str)
    (o : KeyOrder Unit Str) :
    MarcasOk (lerHosts hosts) inv hintId o ↔ ∀ k, temDigito (fetch hintId k) = true →
      GrupoOk .snmp (lerHosts hosts) (linhasDe (lerHosts hosts) inv k) ∧
      GrupoOk .rtt (lerHosts hosts) (linhasDe (lerHosts hosts) inv k) := by
  refine forall₂_congr fun k hdig => ?_
  exact and_congr (escrita_selecao_marca_iff .snmp _ inv hintId o hdig)
    (escrita_selecao_marca_iff .rtt _ inv hintId o hdig)

/-- The three lines of the shipped inventory for `MFR12.333` of `mcpaa03`. -/
def mfr12 : List InvLine :=
  [⟨"mcpaa03.paa.psys".toList, "MFR12.333".toList, .snmpa, by simp⟩,
   ⟨"mcpaa03".toList, "MFR12.333".toList, .rtt, by simp⟩,
   ⟨"mcpaa03".toList, "MFR12.333".toList, .rtt, by simp⟩]

/-- The first tag is lost: the key is not written to `id_getsnmp.txt`. -/
theorem snmp_tag_lost : ¬ ∀ (hosts : List Str) (inv : List InvLine) (hintId : Hash Str Str)
    (o : KeyOrder Unit Str), MarcasOk (lerHosts hosts) inv hintId o := by
  intro h
  have hk := (h ["mcpaa03.paa.psys;10.32.92.4;\n".toList] mfr12
    (AList.singleton "mcpaa03.paa.psys_MFR12.333".toList "275".toList) KeyOrder.stored
    "mcpaa03.paa.psys_MFR12.333".toList (by decide +kernel)).1.mpr
    ⟨_, List.mem_cons_self, by decide +kernel, rfl⟩
  revert hk
  unfold escrita
  decide +kernel

end SnmpCollector.Leitor
