import SnmpCollector.NetSnmp.Integer
import SnmpCollector.NetSnmp.ObjectIdentifier

set_option autoImplicit false

/-! # Values of objects (`Net::SNMP::Message`)

`prepare` and `process` choose the method of a type. `ObjectSyntax` is the type of the values that
an object can have; `reads_objectSyntax` says that each of them comes back from its encoding, in
the form in which `process` shows it.
-/

namespace SnmpCollector.NetSnmp

open Perl

/-! ## The two methods -/

/-- The PDUs that SNMPv1 does not have. -/
def v2Pdu : Asn1Type → Bool
  | .getBulkRequest | .informRequest | .snmpv2Trap | .report => true
  | _ => false

/-- `prepare`: what the method of a type puts in front of the buffer. -/
def prepare (env : Env) (type : Asn1Type) (value : Option Str) (buffer : Octets) :
    Except Str Octets :=
  let missing := fun msg : String => (.error msg.toList : Except Str Octets)
  let put := fun r : Except Str Octets => r.map (· ++ buffer)
  let sequenceOf := match value with
    | some s => put (prepareTypeLength type (bytes s))
    | none => prepareImplicitSequence type buffer
  match type, value with
  | .integer, none => missing "The INTEGER value is not defined"
  | .integer, some s => put (prepareInteger s)
  | .octetString, none => missing "The OCTET STRING value is not defined"
  | .octetString, some s => put (prepareTypeLength .octetString (bytes s))
  | .null, _ => put (prepareTypeLength .null [])
  | .objectIdentifier, none => missing "The OBJECT IDENTIFIER value not defined"
  | .objectIdentifier, some s => put (prepareObjectIdentifier s)
  | .ipAddress, none => missing "IpAddress is not defined"
  | .ipAddress, some s => put (prepareIpAddress s)
  | .counter, none | .gauge, none | .timeTicks, none =>
      .error ("The ".toList ++ type.itoa ++ " value is not defined".toList)
  | .counter, some s | .gauge, some s | .timeTicks, some s => put (prepareUnsigned32 type s)
  | .opaqueValue, none => missing "The Opaque value is not defined"
  | .opaqueValue, some s => put (prepareTypeLength .opaqueValue (bytes s))
  | .counter64, none =>
      if env.version = SNMP_VERSION_1 then .error (notInV1 "Counter64 type".toList)
      else missing "The Counter64 value is not defined"
  | .counter64, some s => put (prepareCounter64 env s)
  | .noSuchObject, _ | .noSuchInstance, _ | .endOfMibView, _ => put (prepareException env type)
  | .trap, _ =>
      if env.version ≠ SNMP_VERSION_1 then missing "The Trap-PDU is only supported in SNMPv1"
      else sequenceOf
  | _, _ =>
      if v2Pdu type ∧ env.version = SNMP_VERSION_1 then .error (notInV1 type.itoa) else sequenceOf

theorem prepare_integer (env : Env) (s : Str) (buffer : Octets) :
    prepare env .integer (some s) buffer = (prepareInteger s).map (· ++ buffer) := rfl

theorem prepare_octetString (env : Env) (s : Str) (buffer : Octets) :
    prepare env .octetString (some s) buffer
      = (prepareTypeLength .octetString (bytes s)).map (· ++ buffer) := rfl

theorem prepare_objectIdentifier (env : Env) (s : Str) (buffer : Octets) :
    prepare env .objectIdentifier (some s) buffer
      = (prepareObjectIdentifier s).map (· ++ buffer) := rfl

theorem prepare_sequence (env : Env) (buffer : Octets) :
    prepare env .sequence none buffer = prepareImplicitSequence .sequence buffer := by
  simp [prepare, v2Pdu]

theorem prepare_sequence_some (env : Env) (s : Str) :
    prepare env .sequence (some s) [] = prepareTypeLength .sequence (bytes s) := by
  have hmap : (prepareTypeLength .sequence (bytes s)).map (· ++ [])
      = prepareTypeLength .sequence (bytes s) := by
    cases prepareTypeLength .sequence (bytes s) <;> simp [Except.map]
  simpa [prepare, v2Pdu] using hmap

/-- The PDUs with an identifier, an error status and an error index. -/
def sequencePdu : Asn1Type → Bool
  | .getRequest | .getNextRequest | .getResponse | .setRequest => true
  | type => v2Pdu type

theorem prepare_sequencePdu (env : Env) {type : Asn1Type} (h : sequencePdu type = true)
    (buffer : Octets) : prepare env type none buffer
      = if v2Pdu type ∧ env.version = SNMP_VERSION_1 then .error (notInV1 type.itoa)
        else prepareImplicitSequence type buffer := by
  cases type <;> first | rfl | cases h

/-- The method of a type that `process` has found. -/
def processType (type : Asn1Type) : Process Scalar :=
  match type with
  | .integer | .counter | .gauge => processInteger32 type
  | .octetString | .opaqueValue => processOctetString type
  | .null => processNull
  | .objectIdentifier => processObjectIdentifier
  | .sequence => do pure (.num (← processLength))
  | .ipAddress => processIpAddress
  | .timeTicks => processTimeTicks
  | .counter64 => processCounter64
  | .noSuchObject => processException type Env.translateNoSuchObject
  | .noSuchInstance => processException type Env.translateNoSuchInstance
  | .endOfMibView => processException type Env.translateEndOfMibView
  | .getRequest | .getNextRequest | .getResponse | .setRequest => processPduType type
  | .trap => processTrap
  | .getBulkRequest | .informRequest | .snmpv2Trap | .report => processPduTypeV2 type

/-- `process` -/
def process (expected : Option Asn1Type) : Process (Asn1Type × Scalar) := do
  let b ← bufferGet 1
  match Asn1Type.ofCode (b.headD 0) with
  | none => throw ("The ASN.1 type ".toList ++ hexText b ++ " is unknown".toList)
  | some type =>
      if ∃ e ∈ expected, type ≠ e then
        throw ("Expected ".toList ++ (expected.map Asn1Type.itoa).getD [] ++ ", but found ".toList
          ++ type.itoa)
      else do
        let value ← processType type
        pure (type, value)

/-! ## Values -/

/-- The values of an object, each within the limits of its type. -/
inductive ObjectSyntax where
  | integer (z : Int) (lo : -2 ^ 31 ≤ z) (hi : z < 2 ^ 32)
  | octetString (bs : Octets) (le : bs.length ≤ 0xffff)
  | null
  | objectIdentifier (o : Oid)
  | ipAddress (a b c d : UInt8)
  | counter (n : UInt32)
  | gauge (n : UInt32)
  | timeTicks (n : UInt32)
  | opaqueValue (bs : Octets) (le : bs.length ≤ 0xffff)
  | counter64 (n : UInt64)
  | noSuchObject
  | noSuchInstance
  | endOfMibView

namespace ObjectSyntax

def type : ObjectSyntax → Asn1Type
  | integer .. => .integer
  | octetString .. => .octetString
  | null => .null
  | objectIdentifier _ => .objectIdentifier
  | ipAddress .. => .ipAddress
  | counter _ => .counter
  | gauge _ => .gauge
  | timeTicks _ => .timeTicks
  | opaqueValue .. => .opaqueValue
  | counter64 _ => .counter64
  | noSuchObject => .noSuchObject
  | noSuchInstance => .noSuchInstance
  | endOfMibView => .endOfMibView

/-- The Perl value that is given to `prepare`. -/
def text : ObjectSyntax → Str
  | integer z _ _ => intText z
  | octetString bs _ | opaqueValue bs _ => latin1 bs
  | objectIdentifier o => o.text
  | ipAddress a b c d => dotted [a.toNat, b.toNat, c.toNat, d.toNat]
  | counter n | gauge n | timeTicks n => decimal n.toNat
  | counter64 n => decimal n.toNat
  | null | noSuchObject | noSuchInstance | endOfMibView => []

/-- The Perl value that `process` gives. -/
def shown (env : Env) : ObjectSyntax → Scalar
  | integer z _ _ => .num z
  | octetString bs _ => .str (displayString env.translateOctetString bs)
  | null => .str (if env.translateNull then "NULL".toList else [])
  | objectIdentifier o => .str (o.shown env)
  | ipAddress a b c d => .str (dotted [a.toNat, b.toNat, c.toNat, d.toNat])
  | counter n | gauge n => .num n.toNat
  | timeTicks n =>
      if env.translateTimeTicks then .str (asn1TicksToTime n.toNat) else .num n.toNat
  | opaqueValue bs _ => .str (displayString env.translateOpaque bs)
  | counter64 n => .str (decimal n.toNat)
  | noSuchObject => .str (if env.translateNoSuchObject then Asn1Type.noSuchObject.itoa else [])
  | noSuchInstance =>
      .str (if env.translateNoSuchInstance then Asn1Type.noSuchInstance.itoa else [])
  | endOfMibView => .str (if env.translateEndOfMibView then Asn1Type.endOfMibView.itoa else [])

/-- The types that SNMPv1 does not have. -/
def v2Only : ObjectSyntax → Bool
  | counter64 _ | noSuchObject | noSuchInstance | endOfMibView => true
  | _ => false

end ObjectSyntax

/-! ## Numbers in text -/

theorem isNumber_decimal (n : Nat) : isNumber (decimal n) = true := by
  have hlast : (decimal n).getLast? ≠ some '\n' := fun h =>
    not_mem_decimal (by decide) n (List.mem_of_getLast? h)
  simp only [isNumber, if_neg hlast, Bool.and_eq_true, Bool.not_eq_true',
    List.isEmpty_eq_false_iff, List.all_eq_true]
  exact ⟨decimal_ne_nil n, fun c hc => isDigit_of_mem_decimal hc⟩

theorem isInteger_intText (z : Int) : isInteger (intText z) = true := by
  rw [intText]
  split
  · exact isNumber_decimal _
  · unfold isInteger
    split
    · rename_i heq
      exact absurd (by rw [heq]; simp : '-' ∈ decimal z.natAbs) (not_mem_decimal (by decide) _)
    · exact isNumber_decimal _

theorem toInt_intText (z : Int) : toInt (intText z) = z := by
  rw [toInt, numify_intText, truncate]
  split <;> simp

theorem toInt_decimal (n : Nat) : toInt (decimal n) = n := by
  rw [toInt, numify_decimal, truncate, if_pos (by positivity)]
  simp

variable {env : Env}

/-! ## The types one by one -/

/-- What is put in front of the buffer for a value, and read back. -/
def Encodes (env : Env) (x : ObjectSyntax) (bs : Octets) : Prop :=
  (∀ buffer, prepare env x.type (some x.text) buffer = .ok (x.type.code :: (bs ++ buffer))) ∧
    Reads env (processType x.type) bs (x.shown env)

theorem encodes_integer (z : Int) (lo : -2 ^ 31 ≤ z) (hi : z < 2 ^ 32) :
    ∃ bs, Encodes env (.integer z lo hi) bs := by
  obtain ⟨bs, hbs, hprep⟩ := prepareInteger32_eq .integer lo hi
  refine ⟨lengthOctets bs.length ++ bs, fun buffer => ?_, ?_⟩
  · have hval : prepareInteger (intText z)
        = .ok (Asn1Type.integer.code :: (lengthOctets bs.length ++ bs)) := by
      rw [prepareInteger, isInteger_intText, toInt_intText, if_neg (by simp), if_neg (by omega),
        hprep]
    show (prepareInteger (intText z)).map (· ++ buffer) = _
    rw [hval]
    rfl
  · have hread := @reads_integer32 env .integer _ _ hbs
    have hkeeps : env.keepsSign .integer = true := by simp [Env.keepsSign]
    rw [if_neg (by simp [hkeeps])] at hread
    exact hread

/-- The types with numbers that are not negative. -/
theorem prepareUnsigned32_eq (type : Asn1Type) (n : UInt32) :
    ∃ bs, IntegerOctets bs n.toNat ∧ prepareUnsigned32 type (decimal n.toNat)
      = .ok (type.code :: (lengthOctets bs.length ++ bs)) := by
  have hn : n.toNat < 2 ^ 32 := n.toNat_lt
  obtain ⟨bs, hbs, hprep⟩ := @prepareInteger32_eq type n.toNat (by omega) (by omega)
  refine ⟨bs, hbs, ?_⟩
  rw [prepareUnsigned32, isNumber_decimal, toInt_decimal, if_neg (by simp), if_neg (by omega),
    hprep]

theorem reads_unsigned32 (type : Asn1Type) {n : UInt32} {bs : Octets}
    (h : IntegerOctets bs n.toNat) :
    Reads env (processInteger32 type) (lengthOctets bs.length ++ bs) (.num n.toNat) := by
  have hread := @reads_integer32 env type _ _ h
  rwa [if_neg (by omega)] at hread

theorem encodes_counter (n : UInt32) : ∃ bs, Encodes env (.counter n) bs := by
  obtain ⟨bs, hbs, hprep⟩ := prepareUnsigned32_eq .counter n
  refine ⟨lengthOctets bs.length ++ bs, fun buffer => ?_, reads_unsigned32 .counter hbs⟩
  show (prepareUnsigned32 .counter (decimal n.toNat)).map (· ++ buffer) = _
  rw [hprep]
  rfl

theorem encodes_gauge (n : UInt32) : ∃ bs, Encodes env (.gauge n) bs := by
  obtain ⟨bs, hbs, hprep⟩ := prepareUnsigned32_eq .gauge n
  refine ⟨lengthOctets bs.length ++ bs, fun buffer => ?_, reads_unsigned32 .gauge hbs⟩
  show (prepareUnsigned32 .gauge (decimal n.toNat)).map (· ++ buffer) = _
  rw [hprep]
  rfl

theorem encodes_timeTicks (n : UInt32) : ∃ bs, Encodes env (.timeTicks n) bs := by
  obtain ⟨bs, hbs, hprep⟩ := prepareUnsigned32_eq .timeTicks n
  refine ⟨lengthOctets bs.length ++ bs, fun buffer => ?_, ?_⟩
  · show (prepareUnsigned32 .timeTicks (decimal n.toNat)).map (· ++ buffer) = _
    rw [hprep]
    rfl
  · refine Reads.bind_nil (reads_unsigned32 .timeTicks hbs) (Reads.nil_bind reads_env ?_)
    simp only [ObjectSyntax.shown]
    cases env.translateTimeTicks <;> exact Reads.pure _

/-- A string of octets, and a value of the type `Opaque`. -/
theorem reads_octetString (type : Asn1Type) {bs : Octets} (h : bs.length ≤ 0xffff) :
    Reads env (processOctetString type) (lengthOctets bs.length ++ bs)
      (.str (displayString
        (if type = .opaqueValue then env.translateOpaque else env.translateOctetString) bs)) := by
  refine Reads.bind (reads_length h) ?_
  refine Reads.bind_nil (reads_bufferGet bs) ?_
  exact Reads.nil_bind reads_env (Reads.pure _)

theorem encodes_octetString (bs : Octets) (h : bs.length ≤ 0xffff) :
    ∃ cs, Encodes env (.octetString bs h) cs := by
  refine ⟨lengthOctets bs.length ++ bs, fun buffer => ?_, reads_octetString .octetString h⟩
  show (prepareTypeLength .octetString (bytes (latin1 bs))).map (· ++ buffer) = _
  rw [bytes_latin1, prepareTypeLength_eq h]
  rfl

theorem encodes_opaque (bs : Octets) (h : bs.length ≤ 0xffff) :
    ∃ cs, Encodes env (.opaqueValue bs h) cs := by
  refine ⟨lengthOctets bs.length ++ bs, fun buffer => ?_, reads_octetString .opaqueValue h⟩
  show (prepareTypeLength .opaqueValue (bytes (latin1 bs))).map (· ++ buffer) = _
  rw [bytes_latin1, prepareTypeLength_eq h]
  rfl

theorem encodes_null : Encodes env .null [0] := by
  refine ⟨fun buffer => rfl, ?_⟩
  refine Reads.bind_nil (reads_length (n := 0) (by decide)) ?_
  exact Reads.nil_bind reads_env (Reads.pure _)

theorem encodes_objectIdentifier (o : Oid) : ∃ bs, Encodes env (.objectIdentifier o) bs := by
  refine ⟨lengthOctets o.contents.length ++ o.contents, fun buffer => ?_, reads_objectIdentifier o⟩
  have htext : o.text = oidText false o.subs 0 := by simp [oidText, blanks, Oid.text]
  show (prepareObjectIdentifier o.text).map (· ++ buffer) = _
  rw [htext, prepareObjectIdentifier_eq]
  rfl

theorem encodes_ipAddress (a b c d : UInt8) : Encodes env (.ipAddress a b c d) [4, a, b, c, d] := by
  refine ⟨fun buffer => ?_, ?_⟩
  · have hsplit := splitOn_dotted [a.toNat, b.toNat, c.toNat] d.toNat 0
    have hbyte : ∀ x : UInt8, (toInt (decimal x.toNat)).toNat = x.toNat := fun x => by
      rw [toInt_decimal, Int.toNat_natCast]
    have hdigits : ∀ x : UInt8, (!(decimal x.toNat).isEmpty && (decimal x.toNat).all Char.isDigit)
        = true := fun x => by
      simp only [Bool.and_eq_true, Bool.not_eq_true', List.isEmpty_eq_false_iff, List.all_eq_true]
      exact ⟨decimal_ne_nil _, fun c hc => isDigit_of_mem_decimal hc⟩
    have hsmall : ∀ x : UInt8, ¬ toInt (decimal x.toNat) > 255 := fun x => by
      have hx : x.toNat < 256 := x.toNat_lt
      rw [toInt_decimal]
      omega
    simp only [blanks, List.replicate_zero, List.append_nil, List.map_cons, List.map_nil,
      List.cons_append, List.nil_append] at hsplit
    have hprep : prepareIpAddress (dotted [a.toNat, b.toNat, c.toNat, d.toNat])
        = prepareTypeLength .ipAddress [a, b, c, d] := by
      simp only [prepareIpAddress, hsplit, List.length_cons, List.length_nil,
        List.dropLast_cons_cons, List.dropLast_singleton, List.all_cons, List.all_nil, hdigits, Bool.and_self,
        List.getLast?_cons_cons, List.getLast?_singleton, Option.getD_some, isNumber_decimal,
        Bool.not_true, List.any_cons, List.any_nil, hsmall, decide_false, Bool.or_self,
        List.map_cons, List.map_nil, hbyte, UInt8.ofNat_toNat]
      simp
    show (prepareIpAddress (dotted [a.toNat, b.toNat, c.toNat, d.toNat])).map (· ++ buffer) = _
    rw [hprep]
    rfl
  · refine Reads.bind (reads_length (n := 4) (by decide)) ?_
    exact Reads.bind_nil (reads_bufferGet [a, b, c, d]) (Reads.pure _)

/-! ### Counters of 64 bits -/

theorem octetsValue_digits (n : Nat) :
    octetsValue ((Nat.digits 256 n).reverse.map UInt8.ofNat) = n := by
  conv_rhs => rw [← Nat.ofDigits_digits 256 n]
  have hlt : ∀ d ∈ Nat.digits 256 n, d < 256 := fun d hd => Nat.digits_lt_base (by decide) hd
  generalize Nat.digits 256 n = ds at hlt
  induction ds with
  | nil => rfl
  | cons d ds ih =>
      have hd : octetsValue [UInt8.ofNat d] = d := octetsValue_ofNat (hlt d (by simp))
      have htail := ih fun e he => hlt e (by simp [he])
      rw [List.reverse_cons, List.map_append, List.map_singleton, octetsValue_append, htail, hd,
        Nat.ofDigits_cons]
      simp
      ring

/-- The octets of a counter: at most nine, of which the ninth is a zero in front, and the high bit
is not set. -/
structure Counter64Octets (bs : Octets) (n : Nat) : Prop where
  length_pos : 1 ≤ bs.length
  length_le : bs.length ≤ 9
  head : bs.length > 8 → bs.headD 0 = 0
  high_bit : (bs.headD 0).toNat &&& 0x80 = 0
  value : octetsValue bs = n

/-- A zero is put in front of octets whose high bit is set. -/
theorem Counter64Octets.of_length {ds : Octets} {n : Nat} (hpos : 1 ≤ ds.length)
    (hle : ds.length ≤ 8) (hval : octetsValue ds = n) :
    Counter64Octets (if (ds.headD 0).toNat &&& 0x80 ≠ 0 then 0 :: ds else ds) n := by
  by_cases h : (ds.headD 0).toNat &&& 0x80 = 0
  · rw [if_neg (not_not.mpr h)]
    exact ⟨hpos, by omega, fun hlong => by omega, h, hval⟩
  · rw [if_pos h]
    refine ⟨by simp, by rw [List.length_cons]; omega, fun _ => rfl, by simp, ?_⟩
    rw [octetsValue_cons, hval, UInt8.toNat_zero, zero_mul, zero_add]

theorem prepareCounter64_eq (hv : env.version ≠ SNMP_VERSION_1) (n : UInt64) :
    ∃ bs, Counter64Octets bs n.toNat ∧ prepareCounter64 env (decimal n.toNat)
      = .ok (Asn1Type.counter64.code :: (lengthOctets bs.length ++ bs)) := by
  have hn : n.toNat < 2 ^ 64 := n.toNat_lt
  obtain ⟨ds, hds⟩ : ∃ ds, ds = if n.toNat = 0 then [0]
    else (Nat.digits 256 n.toNat).reverse.map UInt8.ofNat := ⟨_, rfl⟩
  have hbs : Counter64Octets (if (ds.headD 0).toNat &&& 0x80 ≠ 0 then 0 :: ds else ds) n.toNat := by
    by_cases h0 : n.toNat = 0
    · rw [if_pos h0] at hds
      rw [hds, h0]
      exact .of_length (by decide) (by decide) rfl
    · rw [if_neg h0] at hds
      have hne : Nat.digits 256 n.toNat ≠ [] := Nat.digits_ne_nil_iff_ne_zero.mpr h0
      have hle : (Nat.digits 256 n.toNat).length ≤ 8 := by
        rw [Nat.digits_length_le_iff (by decide)]
        exact hn
      rw [hds]
      exact .of_length (by simpa [Nat.one_le_iff_ne_zero] using hne) (by simpa using hle)
        (octetsValue_digits _)
  refine ⟨_, hbs, ?_⟩
  have hplus : (decimal n.toNat).head? ≠ some '+' := fun h =>
    not_mem_decimal (by decide) _ (List.mem_of_head? h)
  have hle := hbs.length_le
  rw [prepareCounter64, if_neg hv, if_neg hplus, isNumber_decimal, if_neg (by simp),
    toInt_decimal, Int.toNat_natCast, if_neg (by omega), ← hds]
  exact prepareTypeLength_eq (by omega)

theorem reads_counter64 (hv : env.version ≠ SNMP_VERSION_1) {bs : Octets} {n : Nat}
    (h : Counter64Octets bs n) :
    Reads env processCounter64 (lengthOctets bs.length ++ bs) (.str (decimal n)) := by
  have hpos := h.length_pos
  have hle := h.length_le
  have hlong : ¬ (bs.length > 9 ∨ (bs.length > 8 ∧ bs.headD 0 ≠ 0)) := by
    rintro (hlong | ⟨hlong, hne⟩)
    · omega
    · exact hne (h.head hlong)
  refine Reads.nil_bind reads_env ?_
  rw [if_neg hv]
  refine Reads.bind (reads_length (by omega)) ?_
  rw [if_neg (by omega)]
  refine Reads.bind_nil (reads_bufferGet bs) ?_
  rw [if_neg hlong, if_neg (not_not.mpr h.high_bit), h.value]
  exact Reads.pure _

theorem encodes_counter64 (hv : env.version ≠ SNMP_VERSION_1) (n : UInt64) :
    ∃ bs, Encodes env (.counter64 n) bs := by
  obtain ⟨bs, hbs, hprep⟩ := prepareCounter64_eq hv n
  refine ⟨lengthOctets bs.length ++ bs, fun buffer => ?_, reads_counter64 hv hbs⟩
  show (prepareCounter64 env (decimal n.toNat)).map (· ++ buffer) = _
  rw [hprep]
  rfl

/-- The exceptions have no contents. -/
theorem reads_exception (hv : env.version ≠ SNMP_VERSION_1) (type : Asn1Type)
    (translate : Env → Bool) : Reads env (processException type translate) [0]
      (.str (if translate env then type.itoa else [])) := by
  refine Reads.nil_bind reads_env ?_
  rw [if_neg hv]
  exact Reads.bind_nil (reads_length (n := 0) (by decide)) (Reads.pure _)

theorem prepareException_eq (hv : env.version ≠ SNMP_VERSION_1) (type : Asn1Type) :
    prepareException env type = .ok [type.code, 0] := by
  rw [prepareException, if_neg hv]
  rfl

/-! ## All types -/

/-- **Every value comes back from its encoding**, whatever follows it. -/
theorem exists_encodes (x : ObjectSyntax) (hv : x.v2Only = true → env.version ≠ SNMP_VERSION_1) :
    ∃ bs, Encodes env x bs := by
  cases x with
  | integer z lo hi => exact encodes_integer z lo hi
  | octetString bs h => exact encodes_octetString bs h
  | null => exact ⟨_, encodes_null⟩
  | objectIdentifier o => exact encodes_objectIdentifier o
  | ipAddress a b c d => exact ⟨_, encodes_ipAddress a b c d⟩
  | counter n => exact encodes_counter n
  | gauge n => exact encodes_gauge n
  | timeTicks n => exact encodes_timeTicks n
  | opaqueValue bs h => exact encodes_opaque bs h
  | counter64 n => exact encodes_counter64 (hv rfl) n
  | noSuchObject =>
      refine ⟨[0], fun buffer => ?_, reads_exception (hv rfl) _ _⟩
      show (prepareException env .noSuchObject).map (· ++ buffer) = _
      rw [prepareException_eq (hv rfl)]
      rfl
  | noSuchInstance =>
      refine ⟨[0], fun buffer => ?_, reads_exception (hv rfl) _ _⟩
      show (prepareException env .noSuchInstance).map (· ++ buffer) = _
      rw [prepareException_eq (hv rfl)]
      rfl
  | endOfMibView =>
      refine ⟨[0], fun buffer => ?_, reads_exception (hv rfl) _ _⟩
      show (prepareException env .endOfMibView).map (· ++ buffer) = _
      rw [prepareException_eq (hv rfl)]
      rfl

/-- `process` finds the type, and lets its method read the rest. -/
theorem reads_process {type : Asn1Type} {bs : Octets} {v : Scalar}
    (h : Reads env (processType type) bs v) (expected : Option Asn1Type)
    (he : ∀ e ∈ expected, type = e) :
    Reads env (process expected) (type.code :: bs) (type, v) := by
  rw [← List.singleton_append]
  refine Reads.bind (reads_bufferGet [type.code]) ?_
  simp only [List.headD_cons, Asn1Type.ofCode_code]
  rw [if_neg (by rintro ⟨e, hmem, hne⟩; exact hne (he e hmem))]
  exact Reads.bind_nil h (Reads.pure _)

/-! ## Any message

A method that succeeds has gone forward, and not beyond the end of the buffer.
-/

theorem advances_length : Advances env processLength 1 := by
  refine (advances_chunk endOfBuffer 1).bind_zero fun b => ?_
  refine Advances.ite (Advances.pure _) (Advances.ite (Advances.throw _ _) ?_)
  refine Advances.ite (Advances.throw _ _) ?_
  exact ((advances_chunk endOfBuffer _).mono (Nat.zero_le _)).bind_zero fun bs => Advances.pure _

/-- A method that reads a length, and octets after it. -/
theorem advances_contents {α : Type} {p : Nat → Process α} (h : ∀ n, Advances env (p n) 0) :
    Advances env (processLength >>= p) 0 :=
  (advances_length.mono (Nat.zero_le _)).bind_zero h

theorem advances_bufferGet {α : Type} {n : Nat} {p : Octets → Process α}
    (h : ∀ bs, Advances env (p bs) 0) : Advances env (bufferGet n >>= p) 0 :=
  ((advances_chunk endOfBuffer n).mono (Nat.zero_le _)).bind_zero h

theorem advances_integer32 (type : Asn1Type) : Advances env (processInteger32 type) 0 := by
  refine advances_contents fun n => Advances.ite (Advances.throw _ _) ?_
  refine advances_bufferGet fun bs => Advances.ite (Advances.throw _ _) ?_
  refine advances_env.bind_zero fun e => ?_
  exact Advances.ite (Advances.pure _) (Advances.pure _)

theorem advances_objectIdentifier : Advances env processObjectIdentifier 0 := by
  refine advances_contents fun n => Advances.ite (Advances.throw _ _) ?_
  refine advances_bufferGet fun bs => advances_env.bind_zero fun e => ?_
  cases unpackCompressed bs 129 false 0 with
  | none => exact Advances.throw _ _
  | some ns =>
      exact Advances.ite (Advances.throw _ _) (Advances.ite (Advances.throw _ _) (Advances.pure _))

theorem advances_counter64 : Advances env processCounter64 0 := by
  refine advances_env.bind_zero fun e => Advances.ite (Advances.throw _ _) ?_
  refine advances_contents fun n => Advances.ite (Advances.throw _ _) ?_
  refine advances_bufferGet fun bs => Advances.ite (Advances.throw _ _) ?_
  exact Advances.ite (Advances.pure _) (Advances.pure _)

theorem advances_exception (type : Asn1Type) (translate : Env → Bool) :
    Advances env (processException type translate) 0 := by
  refine advances_env.bind_zero fun e => Advances.ite (Advances.throw _ _) ?_
  exact advances_contents fun n => Advances.ite (Advances.throw _ _) (Advances.pure _)

theorem advances_pduType (type : Asn1Type) : Advances env (processPduType type) 0 :=
  advances_contents fun _ => Advances.pure _

theorem advances_pduTypeV2 (type : Asn1Type) : Advances env (processPduTypeV2 type) 0 :=
  advances_env.bind_zero fun _ => Advances.ite (Advances.throw _ _) (advances_pduType type)

theorem advances_octetString (type : Asn1Type) : Advances env (processOctetString type) 0 :=
  advances_contents fun _ => advances_bufferGet fun _ => advances_env.bind_zero fun _ =>
    Advances.pure _

theorem advances_timeTicks : Advances env processTimeTicks 0 := by
  refine (advances_integer32 .timeTicks).bind_zero fun ticks => ?_
  refine advances_env.bind_zero fun e => ?_
  split <;> exact Advances.pure _

theorem advances_type (type : Asn1Type) : Advances env (processType type) 0 := by
  cases type with
  | integer => exact advances_integer32 _
  | counter => exact advances_integer32 _
  | gauge => exact advances_integer32 _
  | octetString => exact advances_octetString _
  | opaqueValue => exact advances_octetString _
  | null =>
      exact advances_contents fun _ => Advances.ite (Advances.throw _ _)
        (advances_env.bind_zero fun _ => Advances.pure _)
  | objectIdentifier => exact advances_objectIdentifier
  | sequence => exact advances_contents fun _ => Advances.pure _
  | ipAddress =>
      exact advances_contents fun _ => Advances.ite (Advances.throw _ _)
        (advances_bufferGet fun _ => Advances.pure _)
  | timeTicks => exact advances_timeTicks
  | counter64 => exact advances_counter64
  | noSuchObject => exact advances_exception _ _
  | noSuchInstance => exact advances_exception _ _
  | endOfMibView => exact advances_exception _ _
  | getRequest => exact advances_pduType _
  | getNextRequest => exact advances_pduType _
  | getResponse => exact advances_pduType _
  | setRequest => exact advances_pduType _
  | trap =>
      exact advances_env.bind_zero fun _ => Advances.ite (Advances.throw _ _) (advances_pduType _)
  | getBulkRequest => exact advances_pduTypeV2 _
  | informRequest => exact advances_pduTypeV2 _
  | snmpv2Trap => exact advances_pduTypeV2 _
  | report => exact advances_pduTypeV2 _

/-- `process` has taken at least the octet of the type. -/
theorem advances_process (expected : Option Asn1Type) : Advances env (process expected) 1 := by
  refine (advances_chunk endOfBuffer 1).bind_zero fun b => ?_
  cases Asn1Type.ofCode (b.headD 0) with
  | none => exact Advances.throw _ _
  | some type =>
      exact Advances.ite (Advances.throw _ _)
        ((advances_type type).bind_zero fun _ => Advances.pure _)

end SnmpCollector.NetSnmp
