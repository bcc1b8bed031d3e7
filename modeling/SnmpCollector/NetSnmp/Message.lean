import SnmpCollector.Basic
import SnmpCollector.Perl.Cursor
import SnmpCollector.Perl.Octets

set_option autoImplicit false

/-! # The encoding of SNMP messages (`Net::SNMP::Message`)

The scripts `get_int.pl`, `coleta_cpu.pl` and `coleta_mem_temp_pwr.pl` talk to the devices through
`Net::SNMP`. Its class `Message` has two methods: `prepare` puts the encoding of a value in front of
a buffer, and `process` takes one value from a buffer. A value is encoded in the Basic Encoding
Rules: an octet for its type, its length, its contents.

An object keeps its first error and does nothing after it; here an error ends the reader. The
values are Perl scalars, texts or numbers.
-/

namespace SnmpCollector.NetSnmp

open Perl

/-! ## Types -/

/-- The types of ASN.1 that the class knows. -/
inductive Asn1Type where
  | integer | octetString | null | objectIdentifier | sequence
  | ipAddress | counter | gauge | timeTicks | opaqueValue | counter64
  | noSuchObject | noSuchInstance | endOfMibView
  | getRequest | getNextRequest | getResponse | setRequest | trap
  | getBulkRequest | informRequest | snmpv2Trap | report
  deriving DecidableEq

namespace Asn1Type

/-- The octet of a type. -/
def code : Asn1Type → UInt8
  | integer => 0x02
  | octetString => 0x04
  | null => 0x05
  | objectIdentifier => 0x06
  | sequence => 0x30
  | ipAddress => 0x40
  | counter => 0x41
  | gauge => 0x42
  | timeTicks => 0x43
  | opaqueValue => 0x44
  | counter64 => 0x46
  | noSuchObject => 0x80
  | noSuchInstance => 0x81
  | endOfMibView => 0x82
  | getRequest => 0xa0
  | getNextRequest => 0xa1
  | getResponse => 0xa2
  | setRequest => 0xa3
  | trap => 0xa4
  | getBulkRequest => 0xa5
  | informRequest => 0xa6
  | snmpv2Trap => 0xa7
  | report => 0xa8

/-- `asn1_itoa` -/
def itoa : Asn1Type → Str
  | integer => "INTEGER".toList
  | octetString => "OCTET STRING".toList
  | null => "NULL".toList
  | objectIdentifier => "OBJECT IDENTIFIER".toList
  | sequence => "SEQUENCE".toList
  | ipAddress => "IpAddress".toList
  | counter => "Counter".toList
  | gauge => "Gauge".toList
  | timeTicks => "TimeTicks".toList
  | opaqueValue => "Opaque".toList
  | counter64 => "Counter64".toList
  | noSuchObject => "noSuchObject".toList
  | noSuchInstance => "noSuchInstance".toList
  | endOfMibView => "endOfMibView".toList
  | getRequest => "GetRequest-PDU".toList
  | getNextRequest => "GetNextRequest-PDU".toList
  | getResponse => "GetResponse-PDU".toList
  | setRequest => "SetRequest-PDU".toList
  | trap => "Trap-PDU".toList
  | getBulkRequest => "GetBulkRequest-PDU".toList
  | informRequest => "InformRequest-PDU".toList
  | snmpv2Trap => "SNMPv2-Trap-PDU".toList
  | report => "Report-PDU".toList

/-- The types in the order of the table of methods. -/
def all : List Asn1Type :=
  [integer, octetString, null, objectIdentifier, sequence, ipAddress, counter, gauge, timeTicks,
    opaqueValue, counter64, noSuchObject, noSuchInstance, endOfMibView, getRequest, getNextRequest,
    getResponse, setRequest, trap, getBulkRequest, informRequest, snmpv2Trap, report]

/-- The lookup of an octet in the table of methods. -/
def ofCode (c : UInt8) : Option Asn1Type := all.find? fun t => t.code == c

@[simp] theorem ofCode_code (t : Asn1Type) : ofCode t.code = some t := by
  cases t <;> decide

end Asn1Type

/-- The versions of the protocol. -/
def SNMP_VERSION_1 : Nat := 0
def SNMP_VERSION_2C : Nat := 1

/-- What the methods of an object consult: the version, which types are translated, whether object
identifiers are printed with a leading dot, and the greatest size of a message. -/
structure Env where
  version : Nat
  translateOctetString : Bool
  translateNull : Bool
  translateTimeTicks : Bool
  translateOpaque : Bool
  translateNoSuchObject : Bool
  translateNoSuchInstance : Bool
  translateEndOfMibView : Bool
  translateUnsigned : Bool
  leadingDot : Bool
  maxMsgSize : Nat

/-- A Perl scalar. -/
inductive Scalar where
  | num (z : Int)
  | str (s : Str)
  deriving DecidableEq

/-- A scalar where a text is needed. -/
def Scalar.text : Scalar → Str
  | num z => intText z
  | str s => s

/-- The octets of a text, and the text of octets. -/
def bytes (s : Str) : Octets := s.map fun c => UInt8.ofNat c.toNat

def latin1 (bs : Octets) : Str := bs.map fun b => Char.ofNat b.toNat

@[simp] theorem bytes_latin1 (bs : Octets) : bytes (latin1 bs) = bs := by
  have hc : ∀ b : UInt8, (Char.ofNat b.toNat).toNat = b.toNat := fun b => by
    rw [Char.toNat_ofNat, if_pos (Or.inl (Nat.lt_trans b.toNat_lt (by decide)))]
  rw [bytes, latin1, List.map_map]
  refine (List.map_congr_left fun b _ => ?_).trans (List.map_id bs)
  rw [Function.comp_apply, hc, UInt8.ofNat_toNat]
  rfl

/-! ## Prepare -/

/-- `_prepare_type_length` -/
def prepareTypeLength (type : Asn1Type) (value : Octets) : Except Str Octets :=
  if value.length < 0x80 then .ok (type.code :: UInt8.ofNat value.length :: value)
  else if value.length ≤ 0xff then .ok (type.code :: 0x81 :: UInt8.ofNat value.length :: value)
  else if value.length ≤ 0xffff then
    .ok (type.code :: 0x82 :: (octets 2 value.length ++ value))
  else .error "Unable to prepare the ASN.1 length".toList

/-- `$value=~/^\d+$/`: the pattern also ends before a line break at the end. -/
def isNumber (s : Str) : Bool :=
  let s := if s.getLast? = some '\n' then s.dropLast else s
  !s.isEmpty && s.all Char.isDigit

/-- `$value=~/^-?\d+$/` -/
def isInteger (s : Str) : Bool :=
  match s with
  | '-' :: s => isNumber s
  | s => isNumber s

/-- The integer that a text stands for. -/
def toInt (s : Str) : Int := truncate (numify s)

/-- The loop that shortens an integer of `size` octets as long as its first nine bits are the
same. -/
def shorten (negative : Bool) : Nat → UInt64 → Nat × UInt64
  | 0, value => (0, value)
  | 1, value => (1, value)
  | size + 2, value =>
      if value &&& 0xff800000 = 0 ∨ (value &&& 0xff800000 = 0xff800000 ∧ negative) then
        shorten negative (size + 1) (value <<< 8)
      else (size + 2, value)

/-- The loop that builds the octets of an integer. -/
def build : Nat → UInt64 → Octets
  | 0, _ => []
  | size + 1, value => ((value &&& 0xff000000) >>> 24).toUInt8 :: build size (value <<< 8)

/-- `_prepare_integer32`; the bit operators see an integer as an unsigned one of 64 bits. -/
def prepareInteger32 (type : Asn1Type) (value : Int) : Except Str Octets :=
  let negative := decide (value < 0)
  let v := UInt64.ofNat (value % 2 ^ 64).toNat
  let pad := decide ((v &&& 0xff000000) &&& 0x80000000 ≠ 0) && !negative
  let (size, v) := shorten negative (if pad then 5 else 4) v
  prepareTypeLength type (if pad then 0 :: build (size - 1) v else build size v)

/-- `_prepare_integer` -/
def prepareInteger (value : Str) : Except Str Octets :=
  if !isInteger value then
    .error ("The INTEGER value \"".toList ++ value ++ "\" is expected in numeric format".toList)
  else if toInt value < -2147483648 ∨ toInt value > 4294967295 then
    .error ("The INTEGER value \"".toList ++ value
      ++ "\" is out of range (-2147483648..4294967295)".toList)
  else prepareInteger32 .integer (toInt value)

/-- `_prepare_unsigned32` -/
def prepareUnsigned32 (type : Asn1Type) (value : Str) : Except Str Octets :=
  if !isNumber value then
    .error ("The ".toList ++ type.itoa ++ " value \"".toList ++ value
      ++ "\" is expected in positive numeric format".toList)
  else if toInt value < 0 ∨ toInt value > 4294967295 then
    .error ("The ".toList ++ type.itoa ++ " value \"".toList ++ value
      ++ "\" is out of range (0..4294967295)".toList)
  else prepareInteger32 type (toInt value)

/-- `_prepare_ipaddress` -/
def prepareIpAddress (value : Str) : Except Str Octets :=
  let octetTexts := value.splitOn '.'
  let last := octetTexts.getLast?.getD []
  if octetTexts.length ≠ 4 ∨ !(octetTexts.dropLast.all fun o => !o.isEmpty && o.all Char.isDigit)
      ∨ !isNumber last then
    .error ("The IpAddress value \"".toList ++ value
      ++ "\" is expected in dotted decimal notation".toList)
  else if octetTexts.any fun o => decide (toInt o > 255) then
    .error ("The IpAddress value \"".toList ++ value ++ "\" is invalid".toList)
  else prepareTypeLength .ipAddress (octetTexts.map fun o => UInt8.ofNat (toInt o).toNat)

/-- The error of a type that is not known in SNMPv1. -/
def notInV1 (what : Str) : Str := "The ".toList ++ what ++ " is not supported in SNMPv1".toList

/-- `_prepare_counter64`: the octets of a number in base 256. -/
def prepareCounter64 (env : Env) (value : Str) : Except Str Octets :=
  if env.version = SNMP_VERSION_1 then .error (notInV1 "Counter64 type".toList)
  else if !isNumber (if value.head? = some '+' then value.tail else value) then
    .error ("The Counter64 value \"".toList ++ value
      ++ "\" is expected in positive numeric format".toList)
  else
    let n := (toInt value).toNat
    if n > 18446744073709551615 then
      .error ("The Counter64 value \"".toList ++ decimal n
        ++ "\" is out of range (0..18446744073709551615)".toList)
    else
      let bs := if n = 0 then [0] else (Nat.digits 256 n).reverse.map UInt8.ofNat
      prepareTypeLength .counter64
        (if (bs.headD 0).toNat &&& 0x80 ≠ 0 then 0 :: bs else bs)

/-- The three exceptions of SNMPv2. -/
def prepareException (env : Env) (type : Asn1Type) : Except Str Octets :=
  if env.version = SNMP_VERSION_1 then .error (notInV1 (type.itoa ++ " type".toList))
  else prepareTypeLength type []

/-- `_prepare_implicit_sequence` without a value: the header for what is in the buffer. -/
def prepareImplicitSequence (type : Asn1Type) (buffer : Octets) : Except Str Octets :=
  if buffer.length < 0x80 then .ok (type.code :: UInt8.ofNat buffer.length :: buffer)
  else if buffer.length ≤ 0xff then .ok (type.code :: 0x81 :: UInt8.ofNat buffer.length :: buffer)
  else if buffer.length ≤ 0xffff then
    .ok (type.code :: 0x82 :: (octets 2 buffer.length ++ buffer))
  else .error "Unable to prepare the ASN.1 SEQUENCE length".toList

/-! ## Process -/

abbrev Process := Reader Env UInt8 Str

/-- The error of `_buffer_get` at the end of the buffer. -/
def endOfBuffer (env : Env) (c : Cursor UInt8) : Str :=
  if c.buffer.length ≥ env.maxMsgSize then
    "The message size exceeded the buffer maxMsgSize of ".toList ++ decimal env.maxMsgSize
  else "Unexpected end of message buffer".toList

/-- `_buffer_get` -/
def bufferGet (requested : Nat) : Process Octets := chunk endOfBuffer requested

/-- `_process_length` -/
def processLength : Process Nat := do
  let b ← bufferGet 1
  let length := octetsValue b
  if length &&& 0x80 = 0 then pure length
  else
    let byteCnt := length &&& 0x7f
    if byteCnt = 0 then throw "Indefinite ASN.1 lengths are not supported".toList
    else if byteCnt > 4 then
      throw ("The ASN.1 length is too long (".toList ++ decimal byteCnt ++ " bytes)".toList)
    else do
      let bs ← bufferGet byteCnt
      pure (octetsValue (List.replicate (4 - byteCnt) 0 ++ bs))

/-- `unpack 'l', pack 'l', $int32` and `unpack 'L', pack 'l', $int32` -/
def signed32 (v : UInt64) : Int :=
  let u : Nat := v.toNat % 2 ^ 32
  if u < 2 ^ 31 then (u : Int) else (u : Int) - 2 ^ 32

def unsigned32 (v : UInt64) : Int := (v.toNat % 2 ^ 32 : Nat)

/-- `$int32` after the loop over the octets. -/
def int32 (negative : Bool) (bs : Octets) : UInt64 :=
  bs.foldl (fun i b => (i <<< 8) ||| b.toUInt64) (if negative then 0xffffffffffffffff else 0)

/-- `_process_integer32` -/
def processInteger32 (type : Asn1Type) : Process Scalar := do
  let length ← processLength
  if length < 1 then throw ("The ".toList ++ type.itoa ++ " length is equal to zero".toList)
  else do
    let bs ← bufferGet length
    if length > 5 ∨ (length > 4 ∧ bs.headD 0 ≠ 0) then
      throw ("The ".toList ++ type.itoa ++ " length is too long (".toList ++ decimal length
        ++ " bytes)".toList)
    else do
      let env ← read
      let negative := decide ((bs.headD 0).toNat &&& 0x80 ≠ 0)
      if negative ∧ (type = .integer ∨ !env.translateUnsigned) then
        pure (.num (signed32 (int32 negative bs)))
      else pure (.num (unsigned32 (int32 negative bs)))

/-- The pattern of the octets that a `DisplayString` may not have. -/
def notDisplayable : Octets → Bool
  | [] => false
  | b :: bs =>
      let n := b.toNat
      decide ((1 ≤ n ∧ n ≤ 6) ∨ (0x0e ≤ n ∧ n ≤ 0x1f) ∨ 0x7f ≤ n)
        || (n == 0x0d && bs.head? != some 0 && bs.head? != some 0x0a)
        || notDisplayable bs

/-- `sprintf '0x%s', unpack 'H*', $s` -/
def hexText (bs : Octets) : Str :=
  "0x".toList ++ bs.flatMap fun b => [Nat.digitChar (b.toNat / 16), Nat.digitChar (b.toNat % 16)]

/-- A string of octets as it is returned. -/
def displayString (translate : Bool) (bs : Octets) : Str :=
  if translate && notDisplayable bs then hexText bs else latin1 bs

/-- `_process_octet_string` -/
def processOctetString (type : Asn1Type) : Process Scalar := do
  let length ← processLength
  let s ← bufferGet length
  let env ← read
  let mask := if type = .opaqueValue then env.translateOpaque else env.translateOctetString
  pure (.str (displayString mask s))

/-- `_process_null` -/
def processNull : Process Scalar := do
  let length ← processLength
  if length ≠ 0 then throw "NULL length is not equal to zero".toList
  else do
    let env ← read
    pure (.str (if env.translateNull then "NULL".toList else []))

/-- `_process_ipaddress` -/
def processIpAddress : Process Scalar := do
  let length ← processLength
  if length ≠ 4 then
    throw ("The IpAddress length of ".toList ++ decimal length ++ " is invalid".toList)
  else do
    let bs ← bufferGet 4
    pure (.str ((['.'] : Str).intercalate (bs.map fun b => decimal b.toNat)))

/-- `asn1_ticks_to_time` -/
def asn1TicksToTime (ticks : Int) : Str :=
  let days := ticks.tdiv 8640000
  let ticks := ticks % 8640000
  let hours := ticks.tdiv 360000
  let ticks := ticks % 360000
  let minutes := ticks.tdiv 6000
  let ticks := ticks % 6000
  let seconds := zeros 2 (ticks / 100) ++ '.' :: zeros 2 (ticks % 100)
  let plural := fun n : Int => if n = 1 then ([] : Str) else ['s']
  if days ≠ 0 then
    intText days ++ " day".toList ++ plural days ++ ", ".toList ++ zeros 2 hours ++ ':' ::
      (zeros 2 minutes ++ ':' :: seconds)
  else if hours ≠ 0 then
    intText hours ++ " hour".toList ++ plural hours ++ ", ".toList ++ zeros 2 minutes ++ ':' ::
      seconds
  else if minutes ≠ 0 then
    intText minutes ++ " minute".toList ++ plural minutes ++ ", ".toList ++ seconds
  else
    intText (ticks / 100) ++ '.' :: (zeros 2 (ticks % 100) ++ " second".toList
      ++ (if ticks = 100 then [] else ['s']))

/-- `_process_timeticks` -/
def processTimeTicks : Process Scalar := do
  let ticks ← processInteger32 .timeTicks
  let env ← read
  match env.translateTimeTicks, ticks with
  | true, .num z => pure (.str (asn1TicksToTime z))
  | _, ticks => pure ticks

/-- `_process_counter64` -/
def processCounter64 : Process Scalar := do
  let env ← read
  if env.version = SNMP_VERSION_1 then throw (notInV1 "Counter64 type".toList)
  else do
    let length ← processLength
    if length < 1 then throw "The Counter64 length is equal to zero".toList
    else do
      let bs ← bufferGet length
      if length > 9 ∨ (length > 8 ∧ bs.headD 0 ≠ 0) then
        throw ("The Counter64 length is too long (".toList ++ decimal length ++ " bytes)".toList)
      else if (bs.headD 0).toNat &&& 0x80 ≠ 0 then
        let int64 : Int := -1 - (octetsValue (bs.map (· ^^^ 0xff)) : Int)
        pure (.str (intText
          (if env.translateUnsigned then int64 + 18446744073709551616 else int64)))
      else pure (.str (decimal (octetsValue bs)))

/-- `_process_nosuchobject`, `_process_nosuchinstance`, `_process_endofmibview` -/
def processException (type : Asn1Type) (translate : Env → Bool) : Process Scalar := do
  let env ← read
  if env.version = SNMP_VERSION_1 then throw (notInV1 (type.itoa ++ " type".toList))
  else do
    let length ← processLength
    if length ≠ 0 then
      throw ("The ".toList ++ type.itoa ++ " length is not equal to zero".toList)
    else pure (.str (if translate env then type.itoa else []))

/-- `_process_pdu_type`: the type is the value. -/
def processPduType (type : Asn1Type) : Process Scalar := do
  let _ ← processLength
  pure (.num type.code.toNat)

/-- The types of PDUs that SNMPv1 does not have. -/
def processPduTypeV2 (type : Asn1Type) : Process Scalar := do
  let env ← read
  if env.version = SNMP_VERSION_1 then throw (notInV1 type.itoa)
  else processPduType type

/-- `_process_trap` -/
def processTrap : Process Scalar := do
  let env ← read
  if env.version ≠ SNMP_VERSION_1 then throw "The Trap-PDU is only supported in SNMPv1".toList
  else processPduType .trap

/-! ## Lengths -/

/-- The octets of a length. -/
def lengthOctets (n : Nat) : Octets :=
  if n < 0x80 then [UInt8.ofNat n]
  else if n ≤ 0xff then [0x81, UInt8.ofNat n]
  else 0x82 :: octets 2 n

theorem prepareTypeLength_eq {type : Asn1Type} {value : Octets} (h : value.length ≤ 0xffff) :
    prepareTypeLength type value = .ok (type.code :: (lengthOctets value.length ++ value)) := by
  rw [prepareTypeLength, lengthOctets]
  split
  · rfl
  · split <;> rfl

theorem prepareImplicitSequence_eq {type : Asn1Type} {buffer : Octets}
    (h : buffer.length ≤ 0xffff) :
    prepareImplicitSequence type buffer
      = .ok (type.code :: (lengthOctets buffer.length ++ buffer)) := by
  rw [prepareImplicitSequence, lengthOctets]
  split
  · rfl
  · split <;> rfl

theorem length_lengthOctets_le (n : Nat) : (lengthOctets n).length ≤ 3 := by
  rw [lengthOctets]
  split
  · simp
  · split <;> simp

variable {env : Env}

theorem reads_bufferGet (bs : Octets) : Reads env (bufferGet bs.length) bs bs :=
  reads_chunk endOfBuffer bs

theorem octetsValue_ofNat {n : Nat} (h : n < 256) : octetsValue [UInt8.ofNat n] = n := by
  have hval : (UInt8.ofNat n).toNat = n := by
    rw [UInt8.toNat_ofNat', Nat.mod_eq_of_lt h]
  rw [octetsValue_cons, hval]
  simp

/-- A length in `k` octets. -/
theorem reads_longLength {b : UInt8} {bs : Octets} (hb : octetsValue [b] = 0x80 + bs.length)
    (hpos : 1 ≤ bs.length) (hle : bs.length ≤ 4) :
    Reads env processLength (b :: bs) (octetsValue bs) := by
  have hhigh : (0x80 + bs.length) &&& 0x80 ≠ 0 := by
    have hmask : (0x80 + bs.length) &&& 0x80 = (0x80 + bs.length) / 2 ^ 7 % 2 ^ 1 * 2 ^ 7 :=
      and_mask _ 7 1
    omega
  have hlow : (0x80 + bs.length) &&& 0x7f = bs.length := by
    have hmask : (0x80 + bs.length) &&& 0x7f = (0x80 + bs.length) / 2 ^ 0 % 2 ^ 7 * 2 ^ 0 :=
      and_mask _ 0 7
    omega
  have hval : octetsValue (List.replicate (4 - bs.length) 0 ++ bs) = octetsValue bs := by
    have hzero : ∀ m, octetsValue (List.replicate m 0) = 0 := by
      intro m
      induction m with
      | zero => rfl
      | succ m ih => simp [List.replicate_succ, octetsValue_cons, ih]
    rw [octetsValue_append, hzero, zero_mul, zero_add]
  rw [← List.singleton_append]
  refine Reads.bind (reads_bufferGet [b]) ?_
  simp only [hb, hlow, if_neg hhigh]
  rw [if_neg (by omega), if_neg (by omega)]
  refine Reads.bind_nil (reads_bufferGet bs) ?_
  rw [hval]
  exact Reads.pure _

/-- **A length comes back.** -/
theorem reads_length {n : Nat} (h : n ≤ 0xffff) : Reads env processLength (lengthOctets n) n := by
  rw [lengthOctets]
  by_cases h1 : n < 0x80
  · have hlow : n &&& 0x80 = 0 := by
      have hmask : n &&& 0x80 = n / 2 ^ 7 % 2 ^ 1 * 2 ^ 7 := and_mask n 7 1
      omega
    rw [if_pos h1]
    refine Reads.bind_nil (reads_bufferGet [UInt8.ofNat n]) ?_
    simp only [octetsValue_ofNat (by omega : n < 256), hlow, if_true]
    exact Reads.pure n
  · rw [if_neg h1]
    by_cases h2 : n ≤ 0xff
    · rw [if_pos h2]
      have hread := @reads_longLength env 0x81 [UInt8.ofNat n] rfl (by simp) (by simp)
      rwa [octetsValue_ofNat (by omega)] at hread
    · rw [if_neg h2]
      have hread := @reads_longLength env 0x82 (octets 2 n) rfl (by simp) (by simp)
      rwa [octetsValue_octets, Nat.mod_eq_of_lt (by omega)] at hread

end SnmpCollector.NetSnmp
