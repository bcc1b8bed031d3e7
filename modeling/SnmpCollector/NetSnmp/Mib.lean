import SnmpCollector.NetSnmp.GetTable

set_option autoImplicit false

/-! # Agents with a sorted list of objects

An agent has objects in the order of their names, and answers a request with what comes after a
name. `getTable_complete` says that `get_table` gets from it exactly the rows under the base,
whichever kind of request it uses and however many rows come at once.
-/

namespace SnmpCollector.NetSnmp

open Perl

/-! ## Requests can be prepared -/

section Prepare

variable {env : Env}

theorem exists_prepare_integer (z : Int) (lo : -2 ^ 31 ≤ z) (hi : z < 2 ^ 32) (buffer : Octets) :
    ∃ bs, prepare env .integer (some (intText z)) buffer = .ok (bs ++ buffer) ∧ bs.length ≤ 9 := by
  obtain ⟨bs, hbs, hprep⟩ := prepareInteger32_eq .integer lo hi
  have hlength := length_lengthOctets_le bs.length
  have hle := hbs.length_le
  refine ⟨Asn1Type.integer.code :: (lengthOctets bs.length ++ bs), ?_, ?_⟩
  · rw [prepare_integer, prepareInteger, isInteger_intText, toInt_intText, if_neg (by simp),
      if_neg (by omega), hprep]
    rfl
  · rw [List.length_cons, List.length_append]
    omega

/-- The binding of a name to nothing. -/
theorem exists_prepareVarBind (o : Oid) (dot : Bool) (k : Nat) :
    ∃ bs, prepareVarBind env (oidText dot o.subs k, .null, some []) = .ok bs ∧
      bs.length ≤ 700 := by
  have hcontents := o.length_contents_le
  have hlength := length_lengthOctets_le o.contents.length
  set named := (Asn1Type.objectIdentifier.code :: (lengthOctets o.contents.length ++ o.contents))
    ++ [Asn1Type.null.code, 0] with hnamed
  have hle : named.length ≤ 645 := by
    simp only [hnamed, List.length_append, List.length_cons, List.length_nil]
    omega
  have hseq := @prepareImplicitSequence_eq .sequence named (by omega)
  have hlen' := length_lengthOctets_le named.length
  refine ⟨Asn1Type.sequence.code :: (lengthOctets named.length ++ named),
    bind_eq_ok.mpr ⟨[Asn1Type.null.code, 0], rfl, bind_eq_ok.mpr ⟨named, ?_, ?_⟩⟩, ?_⟩
  · rw [prepare_objectIdentifier, prepareObjectIdentifier_eq]
    rfl
  · rw [prepare_sequence, hseq]
  · rw [List.length_cons, List.length_append]
    omega

/-- **A request for an object identifier can be prepared.** -/
theorem exists_preparePdu {type : Asn1Type} (htype : sequencePdu type = true)
    (hv : v2Pdu type = true → env.version ≠ SNMP_VERSION_1) {id status index : Int}
    (hid : 0 ≤ id ∧ id < 2 ^ 31) (hstatus : 0 ≤ status ∧ status < 2 ^ 31)
    (hindex : 0 ≤ index ∧ index < 2 ^ 31) (o : Oid) (dot : Bool) (k : Nat) :
    ∃ pdu, preparePdu env type id status index (oidNullPairs [oidText dot o.subs k]) = .ok pdu ∧
      pdu.leadingDot = (env.leadingDot || dot) := by
  obtain ⟨bind, hbind, hbindlen⟩ := @exists_prepareVarBind env o dot k
  have hlist := @prepareTypeLength_eq .sequence bind (by omega)
  set list := Asn1Type.sequence.code :: (lengthOctets bind.length ++ bind) with hlistdef
  have hlistlen : list.length ≤ 704 := by
    have hlength := length_lengthOctets_le bind.length
    simp only [hlistdef, List.length_cons, List.length_append]
    omega
  obtain ⟨b₁, h₁, hb₁⟩ := @exists_prepare_integer env index (by omega) (by omega) list
  obtain ⟨b₂, h₂, hb₂⟩ := @exists_prepare_integer env status (by omega) (by omega) (b₁ ++ list)
  obtain ⟨b₃, h₃, hb₃⟩ := @exists_prepare_integer env id (by omega) (by omega) (b₂ ++ (b₁ ++ list))
  have hpdu := @prepareImplicitSequence_eq type (b₃ ++ (b₂ ++ (b₁ ++ list)))
    (by simp only [List.length_append]; omega)
  have hdot : leadingDot (oidNullPairs [oidText dot o.subs k]) = dot := by
    obtain ⟨c, s, hs, hc⟩ := head?_dotted o.subs_ne_nil k
    have hne : c ≠ '.' := by
      rintro rfl
      cases hc
    cases dot <;> simp [leadingDot, oidNullPairs, oidText, hs, hne]
  set trios := oidNullPairs [oidText dot o.subs k]
  set vb : VarBinds (Option Str) := VarBinds.empty.push (oidText dot o.subs k) .null (some [])
  have hbinds : prepareVarBinds env trios [] .empty = .ok (bind, vb) :=
    bind_eq_ok.mpr ⟨bind, hbind, rfl⟩
  have hbindList : prepareVarBindList env trios = .ok (list, vb) := by
    refine bind_eq_ok.mpr ⟨(bind, vb), hbinds, bind_eq_ok.mpr ⟨list, ?_, rfl⟩⟩
    rw [prepare_sequence_some, bytes_latin1, hlist]
  have hfields : ∃ out, prepare env type none (b₃ ++ (b₂ ++ (b₁ ++ list))) = .ok out := by
    rw [prepare_sequencePdu env htype, if_neg (fun h => hv h.1 h.2), hpdu]
    exact ⟨_, rfl⟩
  have hsequence : ∃ out, preparePduSequence env type id status index list = .ok out := by
    obtain ⟨out, hout⟩ := hfields
    exact ⟨out, bind_eq_ok.mpr ⟨_, h₁, bind_eq_ok.mpr ⟨_, h₂, bind_eq_ok.mpr ⟨_, h₃, hout⟩⟩⟩⟩
  obtain ⟨out, hout⟩ := hsequence
  exact ⟨⟨type, id, status, index, vb, env.leadingDot || leadingDot trios, out⟩,
    bind_eq_ok.mpr ⟨(list, vb), hbindList, bind_eq_ok.mpr ⟨out, hout, rfl⟩⟩, by rw [hdot]⟩

end Prepare

/-- The requests of `get_table` can be prepared. -/
theorem exists_tableRequest (s : Session) (k : Nat) {argv : TableArgs}
    (hv : argv.useBulk = true → s.env.version ≠ SNMP_VERSION_1 ∧ argv.maxReps < 2 ^ 31)
    (o : Oid) (dot : Bool) (j : Nat) :
    ∃ pdu, tableRequest s.env (s.requestId k) argv (oidText dot o.subs j) = .ok pdu ∧
      pdu.leadingDot = (s.env.leadingDot || dot) := by
  have hid : 0 ≤ s.requestId k ∧ s.requestId k < 2 ^ 31 :=
    ⟨s.requestId_nonneg k, s.requestId_lt k⟩
  rw [tableRequest]
  split
  · rename_i hbulk
    obtain ⟨hversion, hreps⟩ := hv hbulk
    rw [prepareGetBulkRequest, if_neg (by omega), if_neg (by omega), if_neg (by simp),
      if_neg (by simp)]
    exact exists_preparePdu rfl (fun _ => hversion) hid (by simp) (by omega) o dot j
  · exact exists_preparePdu rfl (fun h => by cases h) hid (by simp) (by simp) o dot j

theorem preparePdu_names {env : Env} {type : Asn1Type} {id status index : Int} {oid : Str}
    {pdu : Pdu} (h : preparePdu env type id status index (oidNullPairs [oid]) = .ok pdu) :
    pdu.varBinds.names = [oid] := by
  obtain ⟨⟨list, vb⟩, hlist, h'⟩ := bind_eq_ok.mp h
  obtain ⟨buffer, -, hout⟩ := bind_eq_ok.mp h'
  obtain rfl := Except.ok.inj hout
  obtain ⟨⟨buffer, vb'⟩, hbinds, h'⟩ := bind_eq_ok.mp hlist
  obtain ⟨seq, -, hout⟩ := bind_eq_ok.mp h'
  obtain ⟨-, rfl⟩ := Prod.mk.inj (Except.ok.inj hout)
  obtain ⟨bind, -, hend⟩ := bind_eq_ok.mp hbinds
  obtain ⟨-, rfl⟩ := Prod.mk.inj (Except.ok.inj hend)
  rfl

/-- A request for a table has one name. -/
theorem tableRequest_names {env : Env} {id : Int} {argv : TableArgs} {oid : Str} {pdu : Pdu}
    (h : tableRequest env id argv oid = .ok pdu) : pdu.varBinds.names = [oid] := by
  rw [tableRequest] at h
  split at h
  · rw [prepareGetBulkRequest] at h
    split at h
    · cases h
    · split at h
      · cases h
      · split at h
        · cases h
        · split at h
          · cases h
          · exact preparePdu_names h
  · exact preparePdu_names h

/-! ## An agent with a sorted list of objects -/

/-- What begins with the same numbers lies together. -/
theorem isPrefix_of_between {b x y : List Nat} (hbx : b < x) (hxy : x < y) (hy : b <+: y) :
    b <+: x := by
  induction b generalizing x y with
  | nil => exact List.nil_prefix
  | cons c b ih =>
      obtain ⟨t, rfl⟩ := hy
      cases x with
      | nil => exact absurd hbx (List.not_lt_nil _)
      | cons d x =>
          rw [List.cons_append] at hxy
          rcases List.cons_lt_cons_iff.mp hbx with hcd | ⟨rfl, htail⟩
          · rcases List.cons_lt_cons_iff.mp hxy with hdc | ⟨rfl, -⟩
            · omega
            · omega
          · rcases List.cons_lt_cons_iff.mp hxy with hcc | ⟨-, htail'⟩
            · omega
            · exact (List.prefix_cons_inj c).mpr (ih htail htail' (List.prefix_append b t))

/-- The objects of an agent in the order of their names. -/
structure Mib where
  rows : List VarBind
  sorted : rows.Pairwise fun a b => a.name.subs < b.name.subs
  value : ∀ b ∈ rows, b.value.type ≠ .endOfMibView

/-- The objects after an object identifier. -/
def Mib.after (mib : Mib) (o : List Nat) : List VarBind :=
  mib.rows.filter fun b => o < b.name.subs

/-- The objects under an object identifier. -/
def Mib.under (mib : Mib) (base : List Nat) : List VarBind :=
  (mib.after base).filter fun b => base.isPrefixOf b.name.subs

theorem Mib.mem_under {mib : Mib} {base : List Nat} {b : VarBind} :
    b ∈ mib.under base ↔ b ∈ mib.rows ∧ base < b.name.subs ∧ base <+: b.name.subs := by
  rw [under, after, List.mem_filter, List.mem_filter, and_assoc]
  simp

/-- The object of a name. -/
def Mib.get (mib : Mib) (o : List Nat) : Option VarBind :=
  mib.rows.find? fun b => b.name.subs = o

theorem Mib.get_eq_some {mib : Mib} {o : List Nat} {b : VarBind} :
    mib.get o = some b ↔ b ∈ mib.rows ∧ b.name.subs = o := by
  constructor
  · intro h
    exact ⟨List.mem_of_find?_eq_some h, by simpa using List.find?_some h⟩
  · rintro ⟨hb, rfl⟩
    have hnd : (mib.rows.map fun b => b.name.subs).Nodup :=
      List.pairwise_map.mpr (mib.sorted.imp fun hlt => ne_of_lt hlt)
    obtain ⟨c, hc⟩ := Option.isSome_iff_exists.mp
      (List.find?_isSome.mpr ⟨b, hb, by simp⟩ :
        (mib.rows.find? fun c => c.name.subs = b.name.subs).isSome)
    have hname : c.name.subs = b.name.subs := by simpa using List.find?_some hc
    rw [get, hc, List.inj_on_of_nodup_map hnd (List.mem_of_find?_eq_some hc) hb hname]

/-- The objects after the base are those under it, and then others. -/
theorem Mib.after_eq (mib : Mib) (base : List Nat) :
    ∃ beyond, mib.after base = mib.under base ++ beyond ∧
      ∀ b ∈ beyond, ¬ base <+: b.name.subs := by
  have hsorted : (mib.after base).Pairwise fun a b => a.name.subs < b.name.subs :=
    mib.sorted.sublist List.filter_sublist
  have hafter : ∀ b ∈ mib.after base, base < b.name.subs := fun b hb => by
    simpa using (List.mem_filter.mp hb).2
  rw [Mib.under]
  generalize mib.after base = l at hsorted hafter
  induction l with
  | nil => exact ⟨[], rfl, by simp⟩
  | cons b l ih =>
      obtain ⟨hb, hl⟩ := List.pairwise_cons.mp hsorted
      by_cases hp : base <+: b.name.subs
      · obtain ⟨beyond, heq, hbeyond⟩ := ih hl fun c hc => hafter c (List.mem_cons_of_mem b hc)
        refine ⟨beyond, ?_, hbeyond⟩
        rw [List.filter_cons_of_pos (by simpa using hp), List.cons_append, ← heq]
      · -- nothing that comes later is under the base
        have hall : ∀ c ∈ b :: l, ¬ base <+: c.name.subs := fun c hc hpc => by
          rcases List.mem_cons.mp hc with rfl | hc
          · exact hp hpc
          · exact hp (isPrefix_of_between (hafter b List.mem_cons_self) (hb c hc) hpc)
        refine ⟨b :: l, ?_, hall⟩
        rw [List.filter_eq_nil_iff.mpr fun c hc => by simpa using hall c hc, List.nil_append]

/-- What comes after a row: the rows behind it. -/
theorem Mib.after_row (mib : Mib) {base : List Nat} {front back : List VarBind} {b : VarBind}
    (h : mib.after base = front ++ b :: back) : mib.after b.name.subs = back := by
  have hsorted : (mib.after base).Pairwise fun a b => a.name.subs < b.name.subs :=
    mib.sorted.sublist List.filter_sublist
  rw [h] at hsorted
  obtain ⟨-, hback, hfront⟩ := List.pairwise_append.mp hsorted
  have hbase : base < b.name.subs := by
    have hmem : b ∈ mib.after base := by rw [h]; simp
    simpa using (List.mem_filter.mp hmem).2
  have hfilter : mib.after b.name.subs
      = (mib.after base).filter fun c => b.name.subs < c.name.subs := by
    rw [Mib.after, Mib.after, List.filter_filter]
    refine List.filter_congr fun c _ => ?_
    by_cases hc : b.name.subs < c.name.subs
    · simp [hc, hbase.trans hc]
    · simp [hc]
  rw [hfilter, h, List.filter_append, List.filter_cons_of_neg (by simp),
    List.filter_eq_nil_iff.mpr, List.filter_eq_self.mpr, List.nil_append]
  · intro c hc
    simpa using (List.pairwise_cons.mp hback).1 c hc
  · intro c hc
    have hlt := hfront c hc b List.mem_cons_self
    simpa using hlt.le

/-! ## The bindings of a response -/

/-- A part of two lists ends in the first one, or goes on into the second. -/
theorem prefix_append_cases {α : Type} {l m n : List α} (h : l <+: m ++ n) :
    l <+: m ∨ ∃ c cs, l = m ++ c :: cs ∧ c ∈ n := by
  rcases List.prefix_or_prefix_of_prefix h (List.prefix_append m n) with hl | ⟨t, rfl⟩
  · exact .inl hl
  · cases t with
    | nil => exact .inl (by simp)
    | cons c cs =>
        have hcs := (List.prefix_append_right_inj m).mp h
        exact .inr ⟨c, cs, rfl, hcs.subset List.mem_cons_self⟩

/-- The key of a row. -/
def VarBind.key (b : VarBind) (env : Env) : Str := b.name.shown env

theorem VarBind.key_inj {env : Env} {b c : VarBind} (h : b.key env = c.key env) :
    b.name.subs = c.name.subs := by
  have hb := subids_oidText env.leadingDot b.name.subs_ne_nil 0
  have hc := subids_oidText env.leadingDot c.name.subs_ne_nil 0
  rw [← hb, ← hc]
  exact congrArg subids h

/-- The bindings of a response with distinct names. -/
theorem pushAll_shown {env : Env} {bs : List VarBind} (h : (bs.map fun b => b.key env).Nodup) :
    (VarBinds.pushAll (bs.map fun b => b.shown env) .empty).names = bs.map (fun b => b.key env) ∧
      ∀ b ∈ bs, (VarBinds.pushAll (bs.map fun b => b.shown env) .empty).list.lookup (b.key env)
          = some (b.value.shown env) ∧
        (VarBinds.pushAll (bs.map fun b => b.shown env) .empty).types.lookup (b.key env)
          = some b.value.type := by
  have hkeys : (bs.map fun b => b.shown env).map Prod.fst = bs.map fun b => b.key env := by
    rw [List.map_map]
    rfl
  obtain ⟨hnames, hlookup⟩ := VarBinds.pushAll_distinct (bs.map fun b => b.shown env) .empty
    (by rw [hkeys]; exact h)
  exact ⟨hnames.trans hkeys, fun b hb => hlookup _ (List.mem_map_of_mem hb)⟩

/-- Bindings with distinct names, and then one more: it has a name of its own. -/
theorem pushAll_shown_append {env : Env} {bs : List VarBind} (e : VarBind) (es : List VarBind)
    (h : (bs.map fun b => b.key env).Nodup) {vb : VarBinds Scalar}
    (hvb : vb = .pushAll ((bs ++ e :: es).map fun b => b.shown env) .empty) :
    ∃ k ks, vb.names = bs.map (fun b => b.key env) ++ k :: ks ∧
      vb.types.lookup k = some e.value.type ∧
      ∀ b ∈ bs, vb.list.lookup (b.key env) = some (b.value.shown env) ∧
        vb.types.lookup (b.key env) = some b.value.type := by
  obtain ⟨hnames, hlookup⟩ := pushAll_shown h
  rw [List.map_append, VarBinds.pushAll_append, List.map_cons] at hvb
  subst hvb
  set rows := VarBinds.pushAll (bs.map fun b => b.shown env) .empty
  set k := uniqueName rows.list.keys (e.key env)
  obtain ⟨⟨ks, hks⟩, hnew⟩ := VarBinds.pushAll_old (es.map fun b => b.shown env)
    (rows.push (e.key env) e.value.type (e.value.shown env))
  obtain ⟨-, hold⟩ := VarBinds.pushAll_old (e.shown env :: es.map fun b => b.shown env) rows
  refine ⟨k, ks, ?_, ?_, fun b hb => ?_⟩
  · rw [VarBinds.push_names, hnames, List.append_assoc, List.singleton_append] at hks
    exact hks.symm
  · obtain ⟨-, htypes⟩ := hnew k (by rw [VarBinds.push_names]; simp [k])
    refine htypes.trans ?_
    rw [VarBinds.push_types, AList.lookup_insert]
  · have hmem : b.key env ∈ rows.names := by
      rw [hnames]
      exact List.mem_map_of_mem (f := fun b => VarBind.key b env) hb
    obtain ⟨hlist, htypes⟩ := hold _ hmem
    obtain ⟨hv, ht⟩ := hlookup b hb
    exact ⟨hlist.trans hv, htypes.trans ht⟩

/-- The table has these rows and no others. -/
def Holds (env : Env) (table : Hash Str Scalar) (rows : List VarBind) : Prop :=
  ∀ name v, table.lookup name = some v ↔ ∃ b ∈ rows, b.key env = name ∧ b.value.shown env = v

theorem Holds.not_mem {env : Env} {table : Hash Str Scalar} {rows : List VarBind}
    (h : Holds env table rows) {name : Str} (hname : name ∉ rows.map fun b => b.key env) :
    name ∉ table := by
  intro hmem
  obtain ⟨v, hv⟩ := Option.isSome_iff_exists.mp (AList.lookup_isSome.mpr hmem)
  obtain ⟨b, hb, rfl, -⟩ := (h name v).mp hv
  exact hname (List.mem_map_of_mem hb)

theorem Holds.insert {env : Env} {table : Hash Str Scalar} {rows : List VarBind}
    (h : Holds env table rows) {b : VarBind} (hb : b.key env ∉ rows.map fun b => b.key env) :
    Holds env (table.insert (b.key env) (b.value.shown env)) (rows ++ [b]) := by
  intro name v
  by_cases hn : name = b.key env
  · subst hn
    rw [AList.lookup_insert]
    constructor
    · intro hv
      exact ⟨b, by simp, rfl, Option.some.inj hv⟩
    · rintro ⟨c, hc, hkey, rfl⟩
      rcases List.mem_append.mp hc with hc | hc
      · exact absurd (hkey ▸ List.mem_map_of_mem (f := fun b => VarBind.key b env) hc) hb
      · rw [List.mem_singleton.mp hc]
  · rw [AList.lookup_insert_ne hn, h name v]
    constructor
    · rintro ⟨c, hc, hkey, hv⟩
      exact ⟨c, List.mem_append_left _ hc, hkey, hv⟩
    · rintro ⟨c, hc, hkey, hv⟩
      rcases List.mem_append.mp hc with hc | hc
      · exact ⟨c, hc, hkey, hv⟩
      · rw [List.mem_singleton.mp hc] at hkey
        exact absurd hkey.symm hn

/-- The rows of a response that are under the base are added to the table. -/
theorem scanNames_rows {env : Env} {vb : VarBinds Scalar} {bs : List VarBind} (rest : List Str)
    {argv : TableArgs} (next : Option Str) {done : List VarBind}
    (hvb : ∀ b ∈ bs, vb.list.lookup (b.key env) = some (b.value.shown env) ∧
      vb.types.lookup (b.key env) = some b.value.type)
    (hvalue : ∀ b ∈ bs, b.value.type ≠ .endOfMibView)
    (hmatch : ∀ b ∈ bs, oidBaseMatch argv.baseOid (b.key env) = true)
    (hnd : ((done ++ bs).map fun b => b.key env).Nodup) (hdone : Holds env argv.table done) :
    ∃ argv', scanNames vb ((bs.map fun b => b.key env) ++ rest) argv next
        = scanNames vb rest argv' ((bs.map fun b => b.key env).getLast?.or next) ∧
      Holds env argv'.table (done ++ bs) ∧ argv'.baseOid = argv.baseOid ∧
      argv'.maxReps = argv.maxReps ∧ argv'.useBulk = argv.useBulk := by
  induction bs generalizing argv next done with
  | nil => exact ⟨argv, rfl, by rwa [List.append_nil], rfl, rfl, rfl⟩
  | cons b bs ih =>
      obtain ⟨hlist, htype⟩ := hvb b List.mem_cons_self
      have hkey : b.key env ∉ done.map fun b => b.key env := fun hmem => by
        rw [List.map_append] at hnd
        exact (List.nodup_append.mp hnd).2.2 _ hmem _ (by simp) rfl
      have hnd' : (((done ++ [b]) ++ bs).map fun b => b.key env).Nodup := by
        rwa [List.append_assoc, List.singleton_append]
      have hholds : Holds env (argv.add vb (b.key env)).table (done ++ [b]) := by
        rw [TableArgs.add, hlist]
        exact hdone.insert hkey
      have hmatch' : ∀ c ∈ bs, oidBaseMatch (argv.add vb (b.key env)).baseOid (c.key env) = true :=
        fun c hc => hmatch c (List.mem_cons_of_mem b hc)
      obtain ⟨argv', hscan, hholds', hconst⟩ := ih (some (b.key env))
        (fun c hc => hvb c (List.mem_cons_of_mem b hc))
        (fun c hc => hvalue c (List.mem_cons_of_mem b hc)) hmatch' hnd' hholds
      refine ⟨argv', ?_, by rwa [List.append_assoc, List.singleton_append] at hholds', hconst⟩
      have hrow : ¬ ((!oidBaseMatch argv.baseOid (b.key env)
          || vb.types.lookup (b.key env) == some .endOfMibView) = true) := by
        simp [hmatch b List.mem_cons_self, htype, hvalue b List.mem_cons_self]
      rw [List.map_cons, List.cons_append, scanNames, if_neg hrow,
        if_pos (hdone.not_mem hkey), hscan]
      congr 1
      rw [List.getLast?_cons]
      cases (bs.map fun b => b.key env).getLast? <;> rfl

/-- The result of a table with these rows. -/
def Final (env : Env) (rows : List VarBind) (r : Except Str (Hash Str Scalar)) : Prop :=
  (rows = [] ∧ r = .error tableEmpty) ∨ (rows ≠ [] ∧ ∃ table, r = .ok table ∧ Holds env table rows)

theorem Holds.final {env : Env} {table : Hash Str Scalar} {rows : List VarBind}
    (h : Holds env table rows) :
    Final env rows (if table.keys = [] then .error tableEmpty else .ok table) := by
  cases rows with
  | nil =>
      have hkeys : table.keys = [] := List.eq_nil_iff_forall_not_mem.mpr fun k hk =>
        h.not_mem (by simp) (AList.mem_keys.mpr hk)
      exact .inl ⟨rfl, if_pos hkeys⟩
  | cons b rows =>
      have hmem : b.key env ∈ table := by
        rw [← AList.lookup_isSome, (h _ _).mpr ⟨b, by simp, rfl, rfl⟩]
        rfl
      have hkeys : table.keys ≠ [] := List.ne_nil_of_mem (AList.mem_keys.mp hmem)
      exact .inr ⟨by simp, table, if_neg hkeys, h⟩

/-- A response of an agent to a request for what comes after `o`: some rows, one at least; all rows
and the end of the objects; in SNMPv1 the error that there are none. -/
inductive Serves (env : Env) (mib : Mib) (o : List Nat) : Response → Prop where
  | rows {bs : List VarBind} (hne : bs ≠ []) (h : bs <+: mib.after o) :
      Serves env mib o ⟨0, 0, .ok (.pushAll (bs.map fun b => b.shown env) .empty)⟩
  | endOfMibView {e : VarBind} (es : List VarBind) (he : e.value.type = .endOfMibView) :
      Serves env mib o
        ⟨0, 0, .ok (.pushAll ((mib.after o ++ e :: es).map fun b => b.shown env) .empty)⟩
  | noSuchName (h : mib.after o = []) (errorIndex : Int) (text : Str) :
      Serves env mib o ⟨2, errorIndex, .error text⟩

/-- Where the requests for a table stand: the rows under the base that are done and those that are
not, and the objects beyond them. -/
structure Stage (env : Env) (base : List Nat) (done todo beyond : List VarBind)
    (argv : TableArgs) : Prop where
  nodup : (((done ++ todo) ++ beyond).map fun b => b.key env).Nodup
  value : ∀ b ∈ (done ++ todo) ++ beyond, b.value.type ≠ .endOfMibView
  under : ∀ b ∈ done ++ todo, base <+: b.name.subs
  beyond : ∀ b ∈ beyond, ¬ base <+: b.name.subs
  isMatch : ∀ b : VarBind, oidBaseMatch argv.baseOid (b.key env) = true ↔ base <+: b.name.subs
  holds : Holds env argv.table done

section Stage

variable {env : Env} {base : List Nat} {done todo beyond : List VarBind} {argv : TableArgs}

/-- The rows that are not done, in a response that goes on with something else. -/
theorem Stage.scan (h : Stage env base done todo beyond argv) {vb : VarBinds Scalar}
    {bs : List VarBind} (hbs : bs <+: todo) (rest : List Str) (next : Option Str)
    (hvb : ∀ b ∈ bs, vb.list.lookup (b.key env) = some (b.value.shown env) ∧
      vb.types.lookup (b.key env) = some b.value.type) :
    ∃ argv', scanNames vb ((bs.map fun b => b.key env) ++ rest) argv next
        = scanNames vb rest argv' ((bs.map fun b => b.key env).getLast?.or next) ∧
      Holds env argv'.table (done ++ bs) ∧ argv'.baseOid = argv.baseOid ∧
      argv'.maxReps = argv.maxReps ∧ argv'.useBulk = argv.useBulk := by
  have hmem : ∀ b ∈ bs, b ∈ done ++ todo := fun b hb => List.mem_append_right _ (hbs.subset hb)
  refine scanNames_rows rest next hvb (fun b hb => h.value b (List.mem_append_left _ (hmem b hb)))
    (fun b hb => (h.isMatch b).mpr (h.under b (hmem b hb))) ?_ h.holds
  have hsub : (done ++ bs).Sublist ((done ++ todo) ++ beyond) :=
    (hbs.sublist.append_left done).trans (List.sublist_append_left _ _)
  exact h.nodup.sublist (hsub.map _)

/-- A name that is not a row under the base ends the table. -/
theorem Stage.stop (h : Stage env base done todo beyond argv) {vb : VarBinds Scalar} {x : Str}
    {rest : List Str} (hnames : vb.names = (todo.map fun b => b.key env) ++ x :: rest)
    (hvb : ∀ b ∈ todo, vb.list.lookup (b.key env) = some (b.value.shown env) ∧
      vb.types.lookup (b.key env) = some b.value.type)
    (hx : oidBaseMatch argv.baseOid x = false ∨ vb.types.lookup x = some .endOfMibView) :
    ∃ r, getTableCb argv ⟨0, 0, .ok vb⟩ = .result r ∧ Final env (done ++ todo) r := by
  obtain ⟨argv', hscan, hholds, hbase, -⟩ := h.scan List.prefix_rfl (x :: rest) none hvb
  have hend : scanNames vb vb.names argv none = some (argv', none) := by
    rw [hnames, hscan, scanNames, if_pos]
    rw [hbase]
    rcases hx with hx | hx <;> simp [hx]
  refine ⟨_, ?_, hholds.final⟩
  simp only [getTableCb, hend]

/-- Some rows: those under the base are done, or the first one beyond them ends the table. -/
theorem Stage.rows (h : Stage env base done todo beyond argv) {bs : List VarBind} (hne : bs ≠ [])
    (hpre : bs <+: todo ++ beyond) {vb : VarBinds Scalar}
    (hnames : vb.names = bs.map fun b => b.key env)
    (hvb : ∀ b ∈ bs, vb.list.lookup (b.key env) = some (b.value.shown env) ∧
      vb.types.lookup (b.key env) = some b.value.type) :
    (∃ r, getTableCb argv ⟨0, 0, .ok vb⟩ = .result r ∧ Final env (done ++ todo) r) ∨
    ∃ argv' bs b todo', todo = (bs ++ [b]) ++ todo' ∧
      getTableCb argv ⟨0, 0, .ok vb⟩ = .request argv' (b.key env) ∧
      Stage env base (done ++ (bs ++ [b])) todo' beyond argv' ∧
      argv'.maxReps = argv.maxReps ∧ argv'.useBulk = argv.useBulk := by
  rcases prefix_append_cases hpre with hbs | ⟨c, cs, rfl, hc⟩
  · -- the rows are under the base
    right
    obtain ⟨todo', rfl⟩ := hbs
    obtain ⟨front, b, rfl⟩ := (List.eq_nil_or_concat' bs).resolve_left hne
    obtain ⟨argv', hscan, hholds, hbase, hconst⟩ := h.scan (List.prefix_append _ todo') [] none hvb
    have hlast : ((front ++ [b]).map fun b => b.key env).getLast?.or none = some (b.key env) := by
      simp
    have hsplit := List.append_assoc done (front ++ [b]) todo'
    rw [List.append_nil, hlast, ← hnames] at hscan
    refine ⟨argv', front, b, todo', rfl, ?_, ⟨?_, ?_, ?_, h.beyond, ?_, hholds⟩, hconst⟩
    · simp only [getTableCb, hscan]
      rfl
    · rw [hsplit]
      exact h.nodup
    · rw [hsplit]
      exact h.value
    · rw [hsplit]
      exact h.under
    · rw [hbase]
      exact h.isMatch
  · -- the first name beyond them ends the table
    left
    have hnot := h.beyond c hc
    rw [← h.isMatch c, Bool.not_eq_true] at hnot
    rw [List.map_append, List.map_cons] at hnames
    exact h.stop hnames (fun b hb => hvb b (List.mem_append_left _ hb)) (.inl hnot)

/-- All rows and the end of the objects: the first name that is not under the base ends the
table. -/
theorem Stage.endOfMibView (h : Stage env base done todo beyond argv) {vb : VarBinds Scalar}
    {k : Str} {ks : List Str}
    (hnames : vb.names = (todo ++ beyond).map (fun b => b.key env) ++ k :: ks)
    (htype : vb.types.lookup k = some .endOfMibView)
    (hvb : ∀ b ∈ todo ++ beyond, vb.list.lookup (b.key env) = some (b.value.shown env) ∧
      vb.types.lookup (b.key env) = some b.value.type) :
    ∃ r, getTableCb argv ⟨0, 0, .ok vb⟩ = .result r ∧ Final env (done ++ todo) r := by
  have htodo := fun b hb => hvb b (List.mem_append_left beyond hb)
  cases beyond with
  | nil =>
      rw [List.append_nil] at hnames
      exact h.stop hnames htodo (.inr htype)
  | cons c cs =>
      have hnot := h.beyond c List.mem_cons_self
      rw [← h.isMatch c, Bool.not_eq_true] at hnot
      rw [List.map_append, List.map_cons, List.append_assoc, List.cons_append] at hnames
      exact h.stop hnames htodo (.inl hnot)

/-- **One response**: it ends the table with the rows under the base, or some more are done. -/
theorem Stage.step (h : Stage env base done todo beyond argv) {mib : Mib} {o : List Nat}
    (hafter : mib.after o = todo ++ beyond) {response : Response}
    (hs : Serves env mib o response) :
    (∃ r, getTableCb argv response = .result r ∧ Final env (done ++ todo) r) ∨
    ∃ argv' bs b todo', todo = (bs ++ [b]) ++ todo' ∧
      getTableCb argv response = .request argv' (b.key env) ∧
      Stage env base (done ++ (bs ++ [b])) todo' beyond argv' ∧
      argv'.maxReps = argv.maxReps ∧ argv'.useBulk = argv.useBulk := by
  have hnd : ((todo ++ beyond).map fun b => b.key env).Nodup := by
    have hall := h.nodup
    rw [List.append_assoc, List.map_append] at hall
    exact (List.nodup_append.mp hall).2.1
  cases hs with
  | @rows bs hne hpre =>
      rw [hafter] at hpre
      obtain ⟨hnames, hvb⟩ := pushAll_shown (hnd.sublist (hpre.sublist.map _))
      exact h.rows hne hpre hnames hvb
  | @endOfMibView e es he =>
      left
      rw [hafter]
      generalize hpush : VarBinds.pushAll (((todo ++ beyond) ++ e :: es).map fun b => b.shown env)
        .empty = vb
      obtain ⟨k, ks, hnames, htype, hvb⟩ := pushAll_shown_append e es hnd hpush.symm
      exact h.endOfMibView hnames (htype.trans (congrArg some he)) hvb
  | noSuchName hnone errorIndex text =>
      left
      rw [hafter, List.append_eq_nil_iff] at hnone
      obtain ⟨rfl, -⟩ := hnone
      refine ⟨_, ?_, by rw [List.append_nil]; exact h.holds.final⟩
      simp only [getTableCb, scanNames_empty, if_true]

end Stage

/-! ## The whole table -/

/-- An agent that serves its objects: each request for what comes after an object identifier gets
such a response, with the format parameters of the request. -/
def Honest (s : Session) (mib : Mib) : Prop :=
  ∀ (k : Nat) (argv : TableArgs) (o : Oid) (dot : Bool) (j : Nat) (pdu : Pdu),
    tableRequest s.env (s.requestId k) argv (oidText dot o.subs j) = .ok pdu →
      Serves { s.env with leadingDot := pdu.leadingDot } mib o.subs (s.respond k pdu)

/-- A session whose agent answers each request with the one object that comes next. -/
def Mib.session (mib : Mib) (env : Env) (hsize : env.maxMsgSize ≤ 65535) : Session where
  env := env
  requestId := counted
  respond := fun _ pdu =>
    match mib.after (subids (pdu.varBinds.names.headD [])) with
    | [] => ⟨2, 1, .error "Received noSuchName(2) error-status at error-index 1".toList⟩
    | b :: _ =>
        ⟨0, 0, .ok (.pushAll [b.shown { env with leadingDot := pdu.leadingDot }] .empty)⟩
  maxMsgSize_le := hsize
  requestId_nonneg := counted_nonneg
  requestId_lt := counted_lt

/-- Such an agent serves its objects. -/
theorem Mib.honest (mib : Mib) (env : Env) (hsize : env.maxMsgSize ≤ 65535) :
    Honest (mib.session env hsize) mib := by
  intro k argv o dot j pdu hpdu
  have hsubs : subids (pdu.varBinds.names.headD []) = o.subs := by
    rw [tableRequest_names hpdu, List.headD_cons, subids_oidText dot o.subs_ne_nil j]
  simp only [session, hsubs]
  cases hafter : mib.after o.subs with
  | nil => exact .noSuchName hafter _ _
  | cons b bs => exact @Serves.rows _ _ _ [b] (by simp) (by rw [hafter]; exact ⟨bs, rfl⟩)

/-- The requests for a table, from any stage of it: there is at most one for each row, and one. -/
theorem tableLoop_honest {s : Session} {mib : Mib} (hs : Honest s mib) {dot : Bool} {env : Env}
    (henv : env = { s.env with leadingDot := s.env.leadingDot || dot }) {base : List Nat}
    {beyond : List VarBind} {n : Nat} : ∀ {k : Nat} {done todo : List VarBind} {argv : TableArgs}
      (o : Oid) {dot' : Bool} (j : Nat), todo.length < n → Stage env base done todo beyond argv →
      mib.after o.subs = todo ++ beyond → mib.after base = (done ++ todo) ++ beyond →
      (argv.useBulk = true → s.env.version ≠ SNMP_VERSION_1 ∧ argv.maxReps < 2 ^ 31) →
      (s.env.leadingDot || dot') = (s.env.leadingDot || dot) →
      ∃ r, tableLoop s n k argv (oidText dot' o.subs j) = some r ∧ Final env (done ++ todo) r := by
  induction n with
  | zero =>
      intro k done todo argv o dot' j hn
      exact absurd hn (Nat.not_lt_zero _)
  | succ n ih =>
      intro k done todo argv o dot' j hn hstage hafter hall hbulk hdot
      obtain ⟨pdu, hpdu, hleading⟩ := exists_tableRequest s k hbulk o dot' j
      have hserves := hs k argv o dot' j pdu hpdu
      rw [hleading, hdot, ← henv] at hserves
      rw [tableLoop, hpdu]
      rcases hstage.step hafter hserves with
        ⟨r, hcb, hfinal⟩ | ⟨argv', bs, b, todo', rfl, hcb, hstage', hreps, huse⟩
      · exact ⟨r, by simp only [hcb], hfinal⟩
      · -- the next request is for what comes after the last row
        have hkey : b.key env = oidText (s.env.leadingDot || dot) b.name.subs 0 := by
          rw [VarBind.key, Oid.shown, henv]
        have hall' : mib.after base = ((done ++ (bs ++ [b])) ++ todo') ++ beyond := by
          rw [hall, ← List.append_assoc done]
        have hnext : mib.after b.name.subs = todo' ++ beyond := by
          have hrow : mib.after base = (done ++ bs) ++ b :: (todo' ++ beyond) := by
            rw [hall']
            simp
          exact mib.after_row hrow
        have hlen : todo'.length < n := by
          simp only [List.length_append, List.length_singleton] at hn
          omega
        obtain ⟨r, hr, hfinal⟩ := @ih (k + 1) _ _ argv' b.name (s.env.leadingDot || dot) 0 hlen
          hstage' hnext hall' (by rwa [huse, hreps]) (by cases s.env.leadingDot <;> rfl)
        refine ⟨r, ?_, by rwa [List.append_assoc] at hfinal⟩
        simp only [hcb, hkey, hr]

theorem tableArgs_bulk (s : Session) (baseOid : Str) {maxRepetitions : Option Nat}
    (hm : ∀ m ∈ maxRepetitions, s.env.version ≠ SNMP_VERSION_1 ∧ m < 2 ^ 31)
    (h : (tableArgs s.env baseOid maxRepetitions).useBulk = true) :
    s.env.version ≠ SNMP_VERSION_1 ∧ (tableArgs s.env baseOid maxRepetitions).maxReps < 2 ^ 31 := by
  have hsize := s.maxMsgSize_le
  unfold tableArgs at h ⊢
  split at h
  · cases h
  · rename_i hversion
    rw [if_neg hversion]
    refine ⟨hversion, ?_⟩
    cases maxRepetitions with
    | none =>
        simp only [msgSizeMaxReps]
        omega
    | some m =>
        have hlt := (hm m rfl).2
        simp only at h ⊢
        split at h
        · rename_i hm1
          rw [if_pos hm1]
          exact hlt
        · cases h

/-- At the start no row is done. -/
theorem stage_start (mib : Mib) (env : Env) (base : Oid) (dot : Bool) (j : Nat) {argv : TableArgs}
    (hargv : argv.baseOid = oidText dot base.subs j) (hempty : argv.table = ∅)
    {beyond : List VarBind} (hafter : mib.after base.subs = mib.under base.subs ++ beyond)
    (hbeyond : ∀ b ∈ beyond, ¬ base.subs <+: b.name.subs) :
    Stage env base.subs [] (mib.under base.subs) beyond argv := by
  have hrows : (mib.after base.subs).Sublist mib.rows := List.filter_sublist
  refine ⟨?_, fun b hb => ?_, fun b hb => ?_, hbeyond, fun b => ?_, fun name v => ?_⟩
  · rw [List.nil_append, ← hafter]
    have hpair := mib.sorted.sublist hrows
    refine List.pairwise_map.mpr (hpair.imp fun {b c} hlt hkey => ?_)
    rw [VarBind.key_inj hkey] at hlt
    exact lt_irrefl _ hlt
  · rw [List.nil_append, ← hafter] at hb
    exact mib.value b (hrows.subset hb)
  · simpa using (List.mem_filter.mp hb).2
  · rw [hargv]
    exact oidBaseMatch_oidText dot env.leadingDot base.subs_ne_nil b.name.subs_ne_nil base.subs_lt
      b.name.subs_lt j 0
  · rw [hempty]
    simp

/-- The table is final after a request for each row under the base, and one. -/
theorem getTable_final {s : Session} {mib : Mib} (hs : Honest s mib) (base : Oid) (dot : Bool)
    (j : Nat) {maxRepetitions : Option Nat}
    (hm : ∀ m ∈ maxRepetitions, s.env.version ≠ SNMP_VERSION_1 ∧ m < 2 ^ 31) {n : Nat}
    (hn : (mib.under base.subs).length < n) :
    ∃ r, getTable s (oidText dot base.subs j) maxRepetitions n = some r ∧
      Final { s.env with leadingDot := s.env.leadingDot || dot } (mib.under base.subs) r := by
  have htext := isOidText_oidText dot base.subs_ne_nil j
  have hversion : ¬ (s.env.version = SNMP_VERSION_1 ∧ maxRepetitions.isSome = true) := by
    rintro ⟨h1, hsome⟩
    obtain ⟨m, rfl⟩ := Option.isSome_iff_exists.mp hsome
    exact (hm m rfl).1 h1
  obtain ⟨beyond, hafter, hbeyond⟩ := mib.after_eq base.subs
  obtain ⟨hbase, hempty, -⟩ :=
    tableArgs_start s.env (oidText dot base.subs j) maxRepetitions
  obtain ⟨r, hr, hfinal⟩ := @tableLoop_honest s mib hs dot _ rfl base.subs beyond n 0 []
    (mib.under base.subs) (tableArgs s.env (oidText dot base.subs j) maxRepetitions) base dot j hn
    (stage_start mib _ base dot j hbase hempty hafter hbeyond) hafter hafter
    (tableArgs_bulk s _ hm) rfl
  refine ⟨r, ?_, hfinal⟩
  rw [getTable, htext, if_neg (by simp), if_neg hversion, hr]

/-- **`get_table` gets the table.** From an agent that serves its objects in order, in either
version and however many rows a response has, it returns exactly the rows under the base, each name
with its value; when there are none it tells so. It asks once for each row at most, and once. -/
theorem getTable_complete {s : Session} {mib : Mib} (hs : Honest s mib) (base : Oid) (dot : Bool)
    (j : Nat) {maxRepetitions : Option Nat}
    (hm : ∀ m ∈ maxRepetitions, s.env.version ≠ SNMP_VERSION_1 ∧ m < 2 ^ 31) {n : Nat}
    (hn : (mib.under base.subs).length < n) :
    (mib.under base.subs = [] →
      getTable s (oidText dot base.subs j) maxRepetitions n = some (.error tableEmpty)) ∧
    (mib.under base.subs ≠ [] →
      ∃ table, getTable s (oidText dot base.subs j) maxRepetitions n = some (.ok table) ∧
        Holds { s.env with leadingDot := s.env.leadingDot || dot } table
          (mib.under base.subs)) := by
  obtain ⟨r, hget, hfinal⟩ := getTable_final hs base dot j hm hn
  rcases hfinal with ⟨hnil, rfl⟩ | ⟨hne, table, rfl, hholds⟩
  · exact ⟨fun _ => hget, fun hne => absurd hnil hne⟩
  · exact ⟨fun hnil => absurd hnil hne, fun _ => ⟨table, hget, hholds⟩⟩

/-- `ifDescr`, and two objects of one interface. -/
def ifDescrOid : Oid := .org [6, 1, 2, 1, 2, 2, 1, 2] (by decide)

def ifDescrRow : VarBind where
  name := .org [6, 1, 2, 1, 2, 2, 1, 2, 1] (by decide)
  value := .octetString [108, 111] (by decide)

def ifTypeRow : VarBind where
  name := .org [6, 1, 2, 1, 2, 2, 1, 3, 1] (by decide)
  value := .integer 24 (by decide) (by decide)

def localMib : Mib where
  rows := [ifDescrRow, ifTypeRow]
  sorted := by decide
  value := by decide

theorem getTable_complete_local : ∃ table,
    getTable (localMib.session (newMessage SNMP_VERSION_2C 1472) (by decide))
      (oidText true ifDescrOid.subs 0) none 2 = some (.ok table) ∧
    table.lookup ".1.3.6.1.2.1.2.2.1.2.1".toList = some (.str "lo".toList) := by
  have hmem : ifDescrRow ∈ localMib.under ifDescrOid.subs :=
    List.mem_filter.mpr ⟨List.mem_filter.mpr ⟨List.mem_cons_self, by decide⟩, by decide⟩
  have hhonest := localMib.honest (newMessage SNMP_VERSION_2C 1472) (by decide)
  obtain ⟨table, hrun, hholds⟩ :=
    (@getTable_complete _ _ hhonest ifDescrOid true 0 none (by simp) 2 (by decide)).2
      (List.ne_nil_of_mem hmem)
  exact ⟨table, hrun, (hholds _ _).mpr ⟨ifDescrRow, hmem, by decide, by decide⟩⟩

end SnmpCollector.NetSnmp
