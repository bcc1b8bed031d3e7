import SnmpCollector.NetSnmp.ObjectSyntax

set_option autoImplicit false

/-! # Protocol data units (`Net::SNMP::PDU`)

A PDU has a type, a request identifier, an error status and index, and a list of bindings of names
to values. The bindings are kept in a hash; a name that is there already is made unique with blanks
at its end, and the names are kept in the order of the list. `preparePdu` builds a PDU and
`processPdu` takes one from a buffer; `reads_pdu` says that the second gives back what the first was
given.
-/

namespace SnmpCollector.NetSnmp

open Perl

/-! ## Unique names -/

/-- `while (exists $this->{_var_bind_list}->{$name}) { $name .= q{ }; }` -/
def pad (keys : List Str) : Nat → Str → Str
  | 0, name => name
  | n + 1, name => if name ∈ keys then pad keys n (name ++ [' ']) else name

/-- A name that is not a key: the loop ends after as many steps as there are keys. -/
def uniqueName (keys : List Str) (name : Str) : Str := pad keys keys.length name

theorem blanks_succ (k : Nat) : blanks (k + 1) = ' ' :: blanks k := rfl

/-- The loop adds blanks as long as it meets keys. -/
theorem pad_spec (keys : List Str) (n : Nat) (name : Str) :
    ∃ k, k ≤ n ∧ pad keys n name = name ++ blanks k ∧ (∀ j, j < k → name ++ blanks j ∈ keys) ∧
      (pad keys n name ∈ keys → k = n) := by
  induction n generalizing name with
  | zero => exact ⟨0, le_rfl, by simp [pad, blanks], fun j hj => by omega, fun _ => rfl⟩
  | succ n ih =>
      rw [pad]
      split
      · rename_i hmem
        obtain ⟨k, hk, hpad, hkeys, hend⟩ := ih (name ++ [' '])
        refine ⟨k + 1, by omega, ?_, fun j hj => ?_, fun h => by rw [hend h]⟩
        · rw [hpad, blanks_succ, List.append_assoc]
          rfl
        · cases j with
          | zero => simpa [blanks] using hmem
          | succ j =>
              have hj' := hkeys j (by omega)
              rwa [List.append_assoc] at hj'
      · rename_i hmem
        exact ⟨0, by omega, by simp [blanks], fun j hj => by omega, fun h => absurd h hmem⟩

/-- **The loop ends at a name that is not a key.** -/
theorem uniqueName_not_mem (keys : List Str) (name : Str) : uniqueName keys name ∉ keys := by
  intro hmem
  obtain ⟨k, -, hpad, hkeys, hend⟩ := pad_spec keys keys.length name
  have hk : k = keys.length := hend hmem
  -- otherwise there are more keys than there are keys
  have hall : ∀ j, j < keys.length + 1 → name ++ blanks j ∈ keys := by
    intro j hj
    rcases Nat.lt_succ_iff_lt_or_eq.mp hj with hj | rfl
    · exact hkeys j (by omega)
    · rw [uniqueName, hpad, hk] at hmem
      exact hmem
  have hinj : ((List.range (keys.length + 1)).map fun j => name ++ blanks j).Nodup := by
    refine (List.nodup_range).map fun i j hij => ?_
    have hlen := congrArg List.length (List.append_cancel_left hij)
    simpa [blanks] using hlen
  have hsub : ((List.range (keys.length + 1)).map fun j => name ++ blanks j) ⊆ keys := by
    intro x hx
    obtain ⟨j, hj, rfl⟩ := List.mem_map.mp hx
    exact hall j (List.mem_range.mp hj)
  have hle := (List.subperm_of_subset hinj hsub).length_le
  simp at hle

theorem uniqueName_of_not_mem {keys : List Str} {name : Str} (h : name ∉ keys) :
    uniqueName keys name = name := by
  rw [uniqueName]
  cases keys.length with
  | zero => rfl
  | succ n => rw [pad, if_neg h]

/-! ## Bindings -/

/-- `_var_bind_names`, `_var_bind_list` and `_var_bind_types`: the names are the keys of both
hashes, each once. -/
structure VarBinds (ν : Type) where
  names : List Str
  list : Hash Str ν
  types : Hash Str Asn1Type
  nodup : names.Nodup
  mem_list : ∀ n, n ∈ list ↔ n ∈ names
  mem_types : ∀ n, n ∈ types ↔ n ∈ names

namespace VarBinds

variable {ν : Type}

def empty : VarBinds ν := ⟨[], ∅, ∅, List.nodup_nil, by simp, by simp⟩

variable (vb : VarBinds ν)

theorem uniqueName_not_mem_names (oid : Str) : uniqueName vb.list.keys oid ∉ vb.names := by
  intro h
  exact uniqueName_not_mem vb.list.keys oid (AList.mem_keys.mp ((vb.mem_list _).mpr h))

/-- A binding at the end, under a name of its own. -/
def push (oid : Str) (type : Asn1Type) (value : ν) : VarBinds ν where
  names := vb.names ++ [uniqueName vb.list.keys oid]
  list := vb.list.insert (uniqueName vb.list.keys oid) value
  types := vb.types.insert (uniqueName vb.list.keys oid) type
  nodup := by
    rw [List.nodup_append]
    refine ⟨vb.nodup, List.nodup_singleton _, fun a ha b hb => ?_⟩
    rintro rfl
    rw [List.mem_singleton] at hb
    exact vb.uniqueName_not_mem_names oid (hb ▸ ha)
  mem_list n := by simp [AList.mem_insert, vb.mem_list, or_comm]
  mem_types n := by simp [AList.mem_insert, vb.mem_types, or_comm]

theorem push_names (oid : Str) (type : Asn1Type) (value : ν) :
    (vb.push oid type value).names = vb.names ++ [uniqueName vb.list.keys oid] := rfl

theorem push_list (oid : Str) (type : Asn1Type) (value : ν) :
    (vb.push oid type value).list = vb.list.insert (uniqueName vb.list.keys oid) value := rfl

theorem push_types (oid : Str) (type : Asn1Type) (value : ν) :
    (vb.push oid type value).types = vb.types.insert (uniqueName vb.list.keys oid) type := rfl

/-- The bindings of a list, one after the other. -/
def pushAll : List (Str × Asn1Type × ν) → VarBinds ν → VarBinds ν
  | [], vb => vb
  | (oid, type, value) :: bs, vb => pushAll bs (vb.push oid type value)

theorem pushAll_append (l m : List (Str × Asn1Type × ν)) (vb : VarBinds ν) :
    pushAll (l ++ m) vb = pushAll m (pushAll l vb) := by
  induction l generalizing vb with
  | nil => rfl
  | cons b l ih => exact ih _

/-- The bindings that are there stay, in front of the new ones. -/
theorem pushAll_old (l : List (Str × Asn1Type × ν)) (vb : VarBinds ν) :
    vb.names <+: (pushAll l vb).names ∧ ∀ n ∈ vb.names,
      (pushAll l vb).list.lookup n = vb.list.lookup n ∧
      (pushAll l vb).types.lookup n = vb.types.lookup n := by
  induction l generalizing vb with
  | nil => exact ⟨List.prefix_rfl, fun n _ => ⟨rfl, rfl⟩⟩
  | cons b l ih =>
      obtain ⟨oid, type, value⟩ := b
      obtain ⟨hnames, hlookup⟩ := ih (vb.push oid type value)
      refine ⟨(List.prefix_append _ _).trans hnames, fun n hn => ?_⟩
      have hne : n ≠ uniqueName vb.list.keys oid := by
        rintro rfl
        exact vb.uniqueName_not_mem_names oid hn
      obtain ⟨hlist, htypes⟩ := hlookup n (List.mem_append_left _ hn)
      exact ⟨hlist.trans (AList.lookup_insert_ne hne), htypes.trans (AList.lookup_insert_ne hne)⟩

/-- Names that are distinct stay as they are. -/
theorem pushAll_distinct (l : List (Str × Asn1Type × ν)) (vb : VarBinds ν)
    (h : (vb.names ++ l.map Prod.fst).Nodup) :
    (pushAll l vb).names = vb.names ++ l.map Prod.fst ∧ ∀ b ∈ l,
      (pushAll l vb).list.lookup b.1 = some b.2.2 ∧
      (pushAll l vb).types.lookup b.1 = some b.2.1 := by
  induction l generalizing vb with
  | nil => exact ⟨by rw [List.map_nil, List.append_nil]; rfl, by simp⟩
  | cons b l ih =>
      obtain ⟨oid, type, value⟩ := b
      have hnew : oid ∉ vb.list.keys := fun hmem => by
        have hin := (vb.mem_list oid).mp (AList.mem_keys.mpr hmem)
        exact (List.nodup_append.mp h).2.2 oid hin oid (by simp) rfl
      have hname := uniqueName_of_not_mem hnew
      have hpush : (vb.push oid type value).names = vb.names ++ [oid] := by
        rw [push_names, hname]
      have hnd : ((vb.push oid type value).names ++ l.map Prod.fst).Nodup := by
        rw [hpush, List.append_assoc]
        exact h
      obtain ⟨hnames, hlookup⟩ := ih _ hnd
      refine ⟨?_, fun b hb => ?_⟩
      · rw [pushAll, hnames, hpush, List.append_assoc]
        rfl
      · rcases List.mem_cons.mp hb with rfl | hb
        · obtain ⟨-, hold⟩ := pushAll_old l (vb.push oid type value)
          obtain ⟨hlist, htypes⟩ := hold oid (by rw [hpush]; simp)
          refine ⟨hlist.trans ?_, htypes.trans ?_⟩
          · rw [push_list, hname, AList.lookup_insert]
          · rw [push_types, hname, AList.lookup_insert]
        · exact hlookup b hb

end VarBinds

/-! ## Prepare -/

/-- A name, the type of the value, and the value. -/
abbrev Trio := Str × Asn1Type × Option Str

/-- One pass of the loop of `_prepare_var_bind_list`. -/
def prepareVarBind (env : Env) (b : Trio) : Except Str Octets := do
  let buffer ← prepare env b.2.1 b.2.2 []
  let buffer ← prepare env .objectIdentifier (some b.1) buffer
  prepare env .sequence none buffer

/-- The loop of `_prepare_var_bind_list`. -/
def prepareVarBinds (env : Env) :
    List Trio → Octets → VarBinds (Option Str) → Except Str (Octets × VarBinds (Option Str))
  | [], buffer, vb => .ok (buffer, vb)
  | b :: bs, buffer, vb => do
      let bind ← prepareVarBind env b
      prepareVarBinds env bs (buffer ++ bind) (vb.push b.1 b.2.1 b.2.2)

/-- `_prepare_var_bind_list` -/
def prepareVarBindList (env : Env) (trios : List Trio) :
    Except Str (Octets × VarBinds (Option Str)) := do
  let (buffer, vb) ← prepareVarBinds env trios [] .empty
  let bs ← prepare env .sequence (some (latin1 buffer)) []
  pure (bs, vb)

/-- `_prepare_pdu_sequence`, for PDUs other than the `Trap-PDU`. -/
def preparePduSequence (env : Env) (type : Asn1Type) (requestId errorStatus errorIndex : Int)
    (buffer : Octets) : Except Str Octets := do
  let buffer ← prepare env .integer (some (intText errorIndex)) buffer
  let buffer ← prepare env .integer (some (intText errorStatus)) buffer
  let buffer ← prepare env .integer (some (intText requestId)) buffer
  prepare env type none buffer

/-- A PDU that is sent. -/
structure Pdu where
  pduType : Asn1Type
  requestId : Int
  errorStatus : Int
  errorIndex : Int
  varBinds : VarBinds (Option Str)
  leadingDot : Bool
  buffer : Octets

/-- Whether an object identifier among the bindings has a leading dot. -/
def leadingDot (trios : List Trio) : Bool :=
  trios.any fun b => b.1.head? == some '.'
    || (b.2.1 == .objectIdentifier && (b.2.2.getD []).head? == some '.')

/-- `prepare_pdu` -/
def preparePdu (env : Env) (type : Asn1Type) (requestId errorStatus errorIndex : Int)
    (trios : List Trio) : Except Str Pdu := do
  let (buffer, vb) ← prepareVarBindList env trios
  let buffer ← preparePduSequence env type requestId errorStatus errorIndex buffer
  pure ⟨type, requestId, errorStatus, errorIndex, vb, env.leadingDot || leadingDot trios, buffer⟩

/-- `_create_oid_null_pairs` -/
def oidNullPairs (oids : List Str) : List Trio := oids.map fun oid => (oid, .null, some [])

/-- `prepare_get_request` -/
def prepareGetRequest (env : Env) (requestId : Int) (oids : List Str) : Except Str Pdu :=
  preparePdu env .getRequest requestId 0 0 (oidNullPairs oids)

/-- `prepare_get_next_request` -/
def prepareGetNextRequest (env : Env) (requestId : Int) (oids : List Str) : Except Str Pdu :=
  preparePdu env .getNextRequest requestId 0 0 (oidNullPairs oids)

/-- `prepare_get_bulk_request`: the fields of the error have the two numbers. -/
def prepareGetBulkRequest (env : Env) (requestId : Int) (repeaters repetitions : Nat)
    (oids : List Str) : Except Str Pdu :=
  if repeaters > 2147483647 then
    .error ("The non-repeaters value ".toList ++ decimal repeaters
      ++ " is out of range (0..2147483647)".toList)
  else if repetitions > 2147483647 then
    .error ("The max-repetitions value ".toList ++ decimal repetitions
      ++ " is out of range (0..2147483647)".toList)
  else if repeaters > oids.length then
    .error ("The non-repeaters value ".toList ++ decimal repeaters
      ++ " is greater than the number of variable-bindings ".toList ++ decimal oids.length)
  else if repeaters = oids.length ∧ repetitions ≠ 0 then
    .error ("The non-repeaters value ".toList ++ decimal repeaters
      ++ " equals the number of variable-bindings and max-repetitions is not equal to zero".toList)
  else preparePdu env .getBulkRequest requestId repeaters repetitions (oidNullPairs oids)

/-- `prepare_get_response` -/
def prepareGetResponse (env : Env) (requestId errorStatus errorIndex : Int) (trios : List Trio) :
    Except Str Pdu :=
  preparePdu env .getResponse requestId errorStatus errorIndex trios

/-! ## Process -/

/-- What stands in front of the bindings of a PDU. -/
inductive Header where
  | pdu (requestId errorStatus errorIndex : Int)
  | trap (enterprise agentAddr : Str) (genericTrap specificTrap : Int) (timeStamp : Scalar)

/-- A scalar where a number is needed. -/
def Scalar.number : Scalar → ℚ
  | .num z => z
  | .str s => numify s

/-- `process(INTEGER)` -/
def processInt : Process Int := do
  let (_, v) ← process (some .integer)
  pure (truncate v.number)

/-- `_process_pdu_sequence`: the type and the header. The type is the value of the first field,
which for a PDU is its type. -/
def processPduSequence : Process (Scalar × Header) := do
  let (_, pduType) ← process none
  if pduType.number ≠ Asn1Type.trap.code.toNat then do
    let requestId ← processInt
    let errorStatus ← processInt
    let errorIndex ← processInt
    pure (pduType, .pdu requestId errorStatus errorIndex)
  else do
    let (_, enterprise) ← process (some .objectIdentifier)
    let (_, agentAddr) ← process (some .ipAddress)
    let genericTrap ← processInt
    let specificTrap ← processInt
    let (_, timeStamp) ← process (some .timeTicks)
    pure (pduType, .trap enterprise.text agentAddr.text genericTrap specificTrap timeStamp)

/-- One pass of the loop of `_process_var_bind_list`. -/
def processVarBind : Process (Str × Asn1Type × Scalar) := do
  let _ ← process (some .sequence)
  let (_, oid) ← process (some .objectIdentifier)
  let (type, value) ← process none
  pure (oid.text, type, value)

/-- `while ($this->index() < $end)`, for as many passes as there are octets. -/
def processVarBinds (stop : Nat) : Nat → VarBinds Scalar → Process (VarBinds Scalar)
  | 0, vb => pure vb
  | n + 1, vb => do
      let index ← position
      if index < stop then do
        let (oid, type, value) ← processVarBind
        processVarBinds stop n (vb.push oid type value)
      else pure vb

/-- `_process_var_bind_list` -/
def processVarBindList : Process (VarBinds Scalar) := do
  let (_, value) ← process (some .sequence)
  let length := (truncate value.number).toNat
  let index ← position
  processVarBinds (index + length) length .empty

/-! ## The encoding of the parts -/

variable {env env' : Env}

/-- What is put in front of a buffer depends on the version only. -/
theorem prepare_congr (h : env.version = env'.version) (type : Asn1Type) (value : Option Str)
    (buffer : Octets) : prepare env type value buffer = prepare env' type value buffer := by
  unfold prepare prepareCounter64 prepareException
  simp only [h]

/-- A value that could be prepared can be read. -/
theorem encodes_of_prepare (hv : env.version = env'.version) {x : ObjectSyntax}
    {buffer out : Octets} (h : prepare env x.type (some x.text) buffer = .ok out) :
    ∃ bs, out = x.type.code :: (bs ++ buffer) ∧
      Reads env' (processType x.type) bs (x.shown env') := by
  rw [prepare_congr hv] at h
  have hv2 : x.v2Only = true → env'.version ≠ SNMP_VERSION_1 := by
    intro hx h1
    cases x with
    | counter64 n =>
        have hc : prepare env' .counter64 (some (decimal n.toNat)) buffer
            = .error (notInV1 "Counter64 type".toList) := by
          show (prepareCounter64 env' _).map _ = _
          rw [prepareCounter64, if_pos h1]
          rfl
        rw [ObjectSyntax.type, ObjectSyntax.text, hc] at h
        cases h
    | noSuchObject =>
        have hc : prepareException env' .noSuchObject
            = .error (notInV1 (Asn1Type.noSuchObject.itoa ++ " type".toList)) := if_pos h1
        change (prepareException env' .noSuchObject).map _ = _ at h
        rw [hc] at h
        cases h
    | noSuchInstance =>
        have hc : prepareException env' .noSuchInstance
            = .error (notInV1 (Asn1Type.noSuchInstance.itoa ++ " type".toList)) := if_pos h1
        change (prepareException env' .noSuchInstance).map _ = _ at h
        rw [hc] at h
        cases h
    | endOfMibView =>
        have hc : prepareException env' .endOfMibView
            = .error (notInV1 (Asn1Type.endOfMibView.itoa ++ " type".toList)) := if_pos h1
        change (prepareException env' .endOfMibView).map _ = _ at h
        rw [hc] at h
        cases h
    | _ => cases hx
  obtain ⟨bs, hprep, hread⟩ := exists_encodes x hv2
  rw [hprep] at h
  exact ⟨bs, (Except.ok.inj h).symm, hread⟩

/-- A sequence that could be prepared is no longer than its length can say. -/
theorem prepareImplicitSequence_ok {type : Asn1Type} {buffer out : Octets}
    (h : prepareImplicitSequence type buffer = .ok out) :
    buffer.length ≤ 0xffff ∧ out = type.code :: (lengthOctets buffer.length ++ buffer) := by
  have hle : buffer.length ≤ 0xffff := by
    by_contra hlong
    rw [prepareImplicitSequence, if_neg (by omega), if_neg (by omega), if_neg (by omega)] at h
    cases h
  rw [prepareImplicitSequence_eq hle] at h
  exact ⟨hle, (Except.ok.inj h).symm⟩

theorem prepareTypeLength_ok {type : Asn1Type} {value out : Octets}
    (h : prepareTypeLength type value = .ok out) :
    value.length ≤ 0xffff ∧ out = type.code :: (lengthOctets value.length ++ value) := by
  have hle : value.length ≤ 0xffff := by
    by_contra hlong
    rw [prepareTypeLength, if_neg (by omega), if_neg (by omega), if_neg (by omega)] at h
    cases h
  rw [prepareTypeLength_eq hle] at h
  exact ⟨hle, (Except.ok.inj h).symm⟩

/-- The header of a sequence. -/
theorem reads_sequence {n : Nat} (h : n ≤ 0xffff) (expected : Option Asn1Type)
    (he : ∀ e ∈ expected, Asn1Type.sequence = e) :
    Reads env (process expected) (Asn1Type.sequence.code :: lengthOctets n) (.sequence, .num n) :=
  reads_process (Reads.bind_nil (reads_length h) (Reads.pure (Scalar.num n))) expected he

theorem truncate_number (z : Int) : truncate (Scalar.num z).number = z := by
  rw [Scalar.number, truncate]
  split <;> simp

/-- An integer in front of a buffer, and read back. -/
theorem reads_int {z : Int} (lo : -2 ^ 31 ≤ z) (hi : z < 2 ^ 32) :
    ∃ bs, (∀ buffer, prepare env' .integer (some (intText z)) buffer = .ok (bs ++ buffer)) ∧
      Reads env processInt bs z := by
  obtain ⟨bs, hprep, hread⟩ := @encodes_integer env z lo hi
  refine ⟨Asn1Type.integer.code :: bs, fun buffer => hprep buffer, ?_⟩
  refine Reads.bind_nil (reads_process hread (some .integer) (by simp [ObjectSyntax.type])) ?_
  show Reads env (pure (truncate (Scalar.num z).number)) [] z
  rw [truncate_number]
  exact Reads.pure z

/-! ## A binding comes back -/

/-- A binding of an object to a value. -/
structure VarBind where
  name : Oid
  value : ObjectSyntax

namespace VarBind

variable (b : VarBind)

/-- What is given to `prepare_get_response`. -/
def trio : Trio := (b.name.text, b.value.type, some b.value.text)

/-- What is read. -/
def shown (env : Env) : Str × Asn1Type × Scalar :=
  (b.name.shown env, b.value.type, b.value.shown env)

end VarBind

theorem Oid.text_eq (o : Oid) : o.text = oidText false o.subs 0 := by
  simp [oidText, blanks, Oid.text]

/-- **A binding comes back.** -/
theorem reads_varBind (hv : env.version = env'.version) {b : VarBind} {out : Octets}
    (h : prepareVarBind env b.trio = .ok out) :
    1 ≤ out.length ∧ Reads env' processVarBind out (b.shown env') := by
  obtain ⟨value, hvalue, h'⟩ := bind_eq_ok.mp h
  obtain ⟨named, hname, hout⟩ := bind_eq_ok.mp h'
  obtain ⟨bs, rfl, hread⟩ := encodes_of_prepare hv hvalue
  simp only [VarBind.trio] at hname
  rw [prepare_objectIdentifier, Oid.text_eq, prepareObjectIdentifier_eq] at hname
  rw [prepare_sequence] at hout
  obtain ⟨hle, rfl⟩ := prepareImplicitSequence_ok hout
  have hseq := @reads_sequence env' _ hle (some .sequence) (by simp)
  have hoid := @reads_process env' .objectIdentifier _ _ (reads_objectIdentifier b.name)
    (some .objectIdentifier) (by simp)
  have hval := reads_process hread none (by simp)
  have hnamed : named = (Asn1Type.objectIdentifier.code :: (lengthOctets b.name.contents.length
      ++ b.name.contents)) ++ b.value.type.code :: bs := by
    have hok := (Except.ok.inj hname).symm
    rwa [List.append_nil] at hok
  have hsplit : Asn1Type.sequence.code :: (lengthOctets named.length ++ named)
      = (Asn1Type.sequence.code :: lengthOctets named.length)
        ++ ((Asn1Type.objectIdentifier.code :: (lengthOctets b.name.contents.length
          ++ b.name.contents)) ++ b.value.type.code :: bs) := by
    rw [← hnamed, List.cons_append]
  refine ⟨by simp, ?_⟩
  rw [hsplit]
  refine Reads.bind hseq ?_
  refine Reads.bind hoid ?_
  refine Reads.bind_nil hval ?_
  exact Reads.pure (b.shown env')

/-- The loop over the bindings of a list: what has been appended is read binding by binding. -/
theorem reads_varBinds (hv : env.version = env'.version) {bs : List VarBind} {pre all : Octets}
    {vb₀ vb : VarBinds (Option Str)}
    (h : prepareVarBinds env (bs.map VarBind.trio) pre vb₀ = .ok (all, vb)) :
    vb = .pushAll (bs.map VarBind.trio) vb₀ ∧ ∃ out, all = pre ++ out ∧
      ∀ (n i : Nat) (vb : VarBinds Scalar), out.length ≤ n →
        ReadsAt env' (processVarBinds (i + out.length) n vb) i out
          (.pushAll (bs.map fun b => b.shown env') vb) := by
  induction bs generalizing pre vb₀ with
  | nil =>
      obtain ⟨rfl, rfl⟩ := Prod.mk.inj (Except.ok.inj h)
      refine ⟨rfl, [], by simp, fun n i vb _ => ?_⟩
      cases n with
      | zero => exact Reads.pure vb i
      | succ n =>
          refine ReadsAt.position_bind ?_
          rw [if_neg (by simp)]
          exact Reads.pure vb i
  | cons b bs ih =>
      obtain ⟨bind, hbind, h'⟩ := bind_eq_ok.mp h
      obtain ⟨hpos, hread⟩ := reads_varBind hv hbind
      obtain ⟨hvb, out, hall, hreads⟩ := ih h'
      refine ⟨hvb, bind ++ out, by rw [hall, List.append_assoc], fun n i vb hn => ?_⟩
      rw [List.length_append] at hn ⊢
      cases n with
      | zero => omega
      | succ n =>
          refine ReadsAt.position_bind ?_
          rw [if_pos (by omega), ← Nat.add_assoc]
          exact (hread i).bind (hreads n _ _ (by omega))

/-- **The list of bindings comes back.** -/
theorem reads_varBindList (hv : env.version = env'.version) {bs : List VarBind} {out : Octets}
    {vb : VarBinds (Option Str)}
    (h : prepareVarBindList env (bs.map VarBind.trio) = .ok (out, vb)) :
    vb = .pushAll (bs.map VarBind.trio) .empty ∧
      Reads env' processVarBindList out (.pushAll (bs.map fun b => b.shown env') .empty) := by
  obtain ⟨⟨buffer, vb'⟩, hbinds, h'⟩ := bind_eq_ok.mp h
  obtain ⟨seq, hseq, hout⟩ := bind_eq_ok.mp h'
  obtain ⟨rfl, rfl⟩ := Prod.mk.inj (Except.ok.inj hout)
  obtain ⟨hvb, body, hbody, hreads⟩ := reads_varBinds hv hbinds
  rw [List.nil_append] at hbody
  subst hbody
  rw [prepare_sequence_some, bytes_latin1] at hseq
  obtain ⟨hle, rfl⟩ := prepareTypeLength_ok hseq
  refine ⟨hvb, ?_⟩
  rw [← List.cons_append]
  refine Reads.bind (reads_sequence hle _ (by simp)) fun i => ?_
  simp only [truncate_number, Int.toNat_natCast]
  exact ReadsAt.position_bind (hreads _ i .empty le_rfl)

/-- An integer that could be prepared is in range, and comes back. -/
theorem reads_int_of_prepare {z : Int} {buffer out : Octets}
    (h : prepare env .integer (some (intText z)) buffer = .ok out) :
    ∃ bs, out = bs ++ buffer ∧ Reads env' processInt bs z := by
  have hrange : -2 ^ 31 ≤ z ∧ z < 2 ^ 32 := by
    by_contra hout
    have herr : ∃ e, prepareInteger (intText z) = .error e := by
      rw [prepareInteger, isInteger_intText, toInt_intText, if_neg (by simp), if_pos (by omega)]
      exact ⟨_, rfl⟩
    obtain ⟨e, he⟩ := herr
    rw [prepare_integer, he] at h
    cases h
  obtain ⟨bs, hprep, hread⟩ := @reads_int env' env z hrange.1 hrange.2
  rw [hprep] at h
  exact ⟨bs, (Except.ok.inj h).symm, hread⟩

/-- The type of a PDU, with the length of what follows. -/
theorem reads_sequencePdu {type : Asn1Type} (htype : sequencePdu type = true)
    (hv : v2Pdu type = true → env.version ≠ SNMP_VERSION_1) {n : Nat} (hn : n ≤ 0xffff) :
    Reads env (process none) (type.code :: lengthOctets n) (type, .num type.code.toNat) := by
  refine reads_process ?_ none (by simp)
  have hread : Reads env (processPduType type) (lengthOctets n) (.num type.code.toNat) :=
    Reads.bind_nil (reads_length hn) (Reads.pure _)
  have hread2 : v2Pdu type = true →
      Reads env (processPduTypeV2 type) (lengthOctets n) (.num type.code.toNat) := by
    intro h2
    refine Reads.nil_bind reads_env ?_
    rw [if_neg (hv h2)]
    exact hread
  cases type with
  | getRequest => exact hread
  | getNextRequest => exact hread
  | getResponse => exact hread
  | setRequest => exact hread
  | getBulkRequest => exact hread2 rfl
  | informRequest => exact hread2 rfl
  | snmpv2Trap => exact hread2 rfl
  | report => exact hread2 rfl
  | _ => cases htype

theorem number_sequencePdu {type : Asn1Type} (htype : sequencePdu type = true) :
    (Scalar.num type.code.toNat).number ≠ Asn1Type.trap.code.toNat := by
  have hcode : type.code.toNat ≠ Asn1Type.trap.code.toNat := by
    cases type with
    | _ => first | decide | cases htype
  rw [Scalar.number]
  exact_mod_cast hcode

/-- **A PDU comes back**: its type, its identifier, its error and its bindings. -/
theorem reads_pdu {env₀ : Env} (hv₀ : env.version = env₀.version) (hv : env.version = env'.version)
    {type : Asn1Type} (htype : sequencePdu type = true)
    {requestId errorStatus errorIndex : Int} {bs : List VarBind} {pdu : Pdu}
    (h : preparePdu env type requestId errorStatus errorIndex (bs.map VarBind.trio) = .ok pdu) :
    pdu.varBinds = .pushAll (bs.map VarBind.trio) .empty ∧
    ∃ head list, pdu.buffer = head ++ list ∧
      Reads env₀ processPduSequence head
        (.num type.code.toNat, .pdu requestId errorStatus errorIndex) ∧
      Reads env' processVarBindList list (.pushAll (bs.map fun b => b.shown env') .empty) := by
  obtain ⟨⟨list, vb⟩, hlist, h'⟩ := bind_eq_ok.mp h
  obtain ⟨buffer, hseq, hout⟩ := bind_eq_ok.mp h'
  obtain rfl := Except.ok.inj hout
  obtain ⟨hvb, hreads⟩ := reads_varBindList hv hlist
  obtain ⟨b₁, hindex, hseq'⟩ := bind_eq_ok.mp hseq
  obtain ⟨b₂, hstatus, hseq''⟩ := bind_eq_ok.mp hseq'
  obtain ⟨b₃, hid, hpdu⟩ := bind_eq_ok.mp hseq''
  obtain ⟨is, rfl, hreadIndex⟩ := @reads_int_of_prepare env env₀ _ _ _ hindex
  obtain ⟨ss, rfl, hreadStatus⟩ := @reads_int_of_prepare env env₀ _ _ _ hstatus
  obtain ⟨rs, rfl, hreadId⟩ := @reads_int_of_prepare env env₀ _ _ _ hid
  rw [prepare_sequencePdu env htype] at hpdu
  have hv2 : v2Pdu type = true → env₀.version ≠ SNMP_VERSION_1 := by
    intro h2 h1
    rw [if_pos ⟨h2, hv₀.trans h1⟩] at hpdu
    cases hpdu
  rw [if_neg (fun hboth => hv2 hboth.1 (hv₀ ▸ hboth.2))] at hpdu
  obtain ⟨hle, hbuffer⟩ := prepareImplicitSequence_ok hpdu
  set n := (rs ++ (ss ++ (is ++ list))).length
  refine ⟨hvb, (type.code :: lengthOctets n) ++ (rs ++ (ss ++ is)), list, ?_, ?_, hreads⟩
  · rw [hbuffer]
    simp
  · refine Reads.bind (reads_sequencePdu htype hv2 hle) ?_
    show Reads env₀
      (if (Scalar.num type.code.toNat).number ≠ Asn1Type.trap.code.toNat then _ else _) _ _
    rw [if_pos (number_sequencePdu htype)]
    refine Reads.bind hreadId (Reads.bind hreadStatus (Reads.bind_nil hreadIndex ?_))
    exact Reads.pure _

/-! ## Any message -/

theorem advances_varBind : Advances env processVarBind 1 := by
  refine (advances_process _).bind_zero fun _ => ?_
  refine ((advances_process _).mono (Nat.zero_le _)).bind_zero fun _ => ?_
  exact ((advances_process _).mono (Nat.zero_le _)).bind_zero fun _ => Advances.pure _

/-- **The loop over the bindings ends by itself**: with a pass for every octet that is left, more
passes change nothing. -/
theorem processVarBinds_add (stop n k : Nat) (vb : VarBinds Scalar) {c : Cursor UInt8}
    (hc : c.index ≤ c.buffer.length) (h : stop ≤ c.index + n) :
    processVarBinds stop (n + k) vb env c = processVarBinds stop n vb env c := by
  induction n generalizing vb c with
  | zero =>
      cases k with
      | zero => rfl
      | succ k =>
          show (if c.index < stop then _ else pure vb : Process (VarBinds Scalar)) env c = _
          rw [if_neg (by omega)]
          rfl
  | succ n ih =>
      have hpass : ∀ m, processVarBinds stop (m + 1) vb env c
          = (if c.index < stop then processVarBind >>= fun b =>
              processVarBinds stop m (vb.push b.1 b.2.1 b.2.2) else pure vb :
                Process (VarBinds Scalar)) env c := fun m => rfl
      rw [Nat.add_right_comm, hpass, hpass]
      by_cases hi : c.index < stop
      · rw [if_pos hi, if_pos hi]
        have hrun : ∀ m, (processVarBind >>= fun b =>
            processVarBinds stop m (vb.push b.1 b.2.1 b.2.2)) env c
              = (processVarBind env c >>= fun r =>
                processVarBinds stop m (vb.push r.1.1 r.1.2.1 r.1.2.2) env r.2) := fun m => rfl
        rw [hrun, hrun]
        cases hb : processVarBind env c with
        | error e => rfl
        | ok r =>
            obtain ⟨-, hfwd, hin⟩ := advances_varBind c r.2 r.1 hc hb
            exact ih _ hin (by omega)
      · rw [if_neg hi, if_neg hi]

end SnmpCollector.NetSnmp
