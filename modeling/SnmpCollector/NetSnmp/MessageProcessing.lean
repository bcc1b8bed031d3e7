import SnmpCollector.NetSnmp.Pdu

set_option autoImplicit false

/-! # Messages (`Net::SNMP::MessageProcessing` and `Net::SNMP::Security::Community`)

A request is put into a message with the version and the community, and kept under its identifier
until it is answered. `prepareDataElements` takes a message that has been received apart, finds the
request that it answers, and compares the community. The branch of SNMPv3, which the scripts do not
use, is a parameter.
-/

namespace SnmpCollector.NetSnmp

open Perl

/-! ## Security -/

/-- A `Community` object. -/
structure Community where
  community : Octets
  version : Nat
  version_le : version ≤ SNMP_VERSION_2C

/-- `security_model` -/
def Community.securityModel (s : Community) : Nat := if s.version = SNMP_VERSION_2C then 2 else 1

/-- `generate_request_msg`: the PDU in a message. -/
def generateRequestMsg (security : Community) (env : Env) (pdu : Octets) : Except Str Octets :=
  if env.version ≠ security.version then
    .error ("The SNMP version ".toList ++ decimal security.version ++ " was expected, but ".toList
      ++ decimal env.version ++ " was found".toList)
  else do
    let buffer ← prepare env .octetString (some (latin1 security.community)) pdu
    let buffer ← prepare env .integer (some (intText security.version)) buffer
    prepare env .sequence none buffer

/-! ## Requests that wait -/

/-- A message in the cache: what the answer to it needs. -/
structure Request where
  /-- the PDU whose callback it has -/
  pdu : Nat
  timeoutId : Nat
  security : Community
  env : Env

/-- The cache. A handle without a request is reserved. -/
abbrev Handles := Hash Int (Option Request)

/-- The cache of a new Message Processing: the handle 0 is reserved. -/
def Handles.new : Handles := AList.singleton 0 none

/-- What the callback sees of an answer. -/
structure Response where
  errorStatus : Int
  errorIndex : Int
  result : Except Str (VarBinds Scalar)

/-- What becomes of a message: it is dropped, or it answers a request. -/
inductive Outcome where
  | dropped (error : Str)
  | answers (request : Request) (response : Response)

/-- `_error_status_itoa` -/
def errorStatusItoa (n : Int) : Str :=
  let names := ["noError", "tooBig", "noSuchName", "badValue", "readOnly", "genError", "noAccess",
    "wrongType", "wrongLength", "wrongEncoding", "wrongValue", "noCreation", "inconsistentValue",
    "resourceUnavailable", "commitFailed", "undoFailed", "authorizationError", "notWritable",
    "inconsistentName"]
  if n > 18 ∨ n < 0 then "??(".toList ++ intText n ++ ")".toList
  else (names.getD n.toNat "").toList ++ '(' :: intText n ++ ")".toList

/-- `asn1_itoa` of what has been found as the type of a PDU. -/
def asn1Itoa (type : Scalar) : Str :=
  match Asn1Type.all.find? fun t => decide (decimal t.code.toNat = type.text) with
  | some t => t.itoa
  | none =>
      let digits := Nat.toDigits 16 (truncate type.number % 2 ^ 64).toNat
      "?? [0x".toList ++ List.replicate (2 - digits.length) '0' ++ digits ++ "]".toList

/-- The environment of a new message: nothing is translated. -/
def newMessage (version maxMsgSize : Nat) : Env where
  version := version
  translateOctetString := false
  translateNull := false
  translateTimeTicks := false
  translateOpaque := false
  translateNoSuchObject := false
  translateNoSuchInstance := false
  translateEndOfMibView := false
  translateUnsigned := false
  leadingDot := false
  maxMsgSize := maxMsgSize

/-- The header of a message of SNMPv1 or SNMPv2c: `none` is one of SNMPv3. -/
def processHeader (maxMsgSize : Nat) : Process (Option (Nat × Octets × Scalar × Header)) := do
  let _ ← process (some .sequence)
  let version ← processInt
  if version = 3 then pure none
  else if version ≠ 0 ∧ version ≠ 1 then
    throw ("The SNMP version ".toList ++ intText version ++ " is not supported".toList)
  else do
    let env := newMessage version.toNat maxMsgSize
    let (_, community) ← fun _ c => process (some .octetString) env c
    let (pduType, header) ← fun _ c => processPduSequence env c
    pure (some (version.toNat, bytes community.text, pduType, header))

/-- `$msg->process_var_bind_list()`, with the format parameters of the request: a message that
tells of an error has no bindings. -/
def responseOf (request : Request) (version : Nat) (errorStatus errorIndex : Int)
    (c : Cursor UInt8) : Response :=
  ⟨errorStatus, errorIndex,
    if errorStatus ≠ 0 then
      .error ("Received ".toList ++ errorStatusItoa errorStatus
        ++ " error-status at error-index ".toList ++ intText errorIndex)
    else (processVarBindList { request.env with version := version } c).map Prod.fst⟩

/-- `prepare_data_elements` -/
def prepareDataElements (v3 : Handles → Cursor UInt8 → Handles × Outcome) (maxMsgSize : Nat)
    (handles : Handles) (datagram : Octets) : Handles × Outcome :=
  match processHeader maxMsgSize (newMessage SNMP_VERSION_1 maxMsgSize) ⟨datagram, 0⟩ with
  | .error e => (handles, .dropped e)
  | .ok (none, c) => v3 handles c
  | .ok (some (version, community, pduType, header), c) =>
      match header with
      | .trap .. =>
          (handles, .dropped ("A GetResponse-PDU was expected, but ".toList ++ asn1Itoa pduType
            ++ " was found".toList))
      | .pdu requestId errorStatus errorIndex =>
          if pduType.number ≠ Asn1Type.getResponse.code.toNat then
            (handles, .dropped ("A GetResponse-PDU was expected, but ".toList ++ asn1Itoa pduType
              ++ " was found".toList))
          else
            match handles.lookup requestId with
            | none =>
                (handles, .dropped ("The msgHandle ".toList ++ intText requestId
                  ++ " was not found".toList))
            | some none =>
                (handles.erase requestId,
                  .dropped "No matching request message was found".toList)
            | some (some request) =>
                let failed := fun e => Response.mk errorStatus errorIndex (.error e)
                let model := if version = SNMP_VERSION_2C then 2 else 1
                (handles.erase requestId, .answers request
                  (if model ≠ request.security.securityModel then
                    failed ("The msgSecurityModel ".toList ++ decimal request.security.securityModel
                      ++ " was expected, but ".toList ++ decimal model ++ " was found".toList)
                  else if community ≠ request.security.community then
                    failed ("The community name \"".toList ++ latin1 request.security.community
                      ++ "\" was expected, but \"".toList ++ latin1 community
                      ++ "\" was found".toList)
                  else responseOf request version errorStatus errorIndex c))

/-! ## An answer comes back -/

section RoundTrip

variable {env env' : Env} {security : Community} {pdu datagram : Octets}

/-- The field of the community. -/
def communityField (security : Community) : Octets :=
  Asn1Type.octetString.code :: (lengthOctets security.community.length ++ security.community)

/-- The parts of a message that could be prepared. -/
theorem generateRequestMsg_ok (env' : Env)
    (h : generateRequestMsg security env pdu = .ok datagram) :
    env.version = security.version ∧ security.community.length ≤ 0xffff ∧
    ∃ is, (is ++ (communityField security ++ pdu)).length ≤ 0xffff ∧
      Reads env' processInt is security.version ∧
      datagram = Asn1Type.sequence.code ::
        (lengthOctets (is ++ (communityField security ++ pdu)).length
          ++ (is ++ (communityField security ++ pdu))) := by
  have hversion : env.version = security.version := by
    by_contra hne
    rw [generateRequestMsg, if_pos hne] at h
    cases h
  rw [generateRequestMsg, if_neg (not_not.mpr hversion)] at h
  obtain ⟨b₁, hcommunity, h'⟩ := bind_eq_ok.mp h
  obtain ⟨b₂, hint, hseq⟩ := bind_eq_ok.mp h'
  rw [prepare_octetString, bytes_latin1] at hcommunity
  cases hprep : prepareTypeLength .octetString security.community with
  | error e =>
      rw [hprep] at hcommunity
      cases hcommunity
  | ok out =>
      obtain ⟨hle, rfl⟩ := prepareTypeLength_ok hprep
      rw [hprep] at hcommunity
      obtain rfl := Except.ok.inj hcommunity
      obtain ⟨is, rfl, hread⟩ := @reads_int_of_prepare env env' _ _ _ hint
      rw [prepare_sequence] at hseq
      obtain ⟨hlen, rfl⟩ := prepareImplicitSequence_ok hseq
      exact ⟨hversion, hle, is, hlen, hread, rfl⟩

/-- The community is read as it was sent. -/
theorem reads_community {version maxMsgSize : Nat} (h : security.community.length ≤ 0xffff) :
    Reads (newMessage version maxMsgSize) (process (some .octetString)) (communityField security)
      (.octetString, .str (latin1 security.community)) :=
  @reads_process _ .octetString _ _ (reads_octetString .octetString h) _ (by simp)

/-- The message in front of the bindings. -/
theorem reads_header (maxMsgSize : Nat) {requestId errorStatus errorIndex : Int}
    {bs : List VarBind} {response : Pdu}
    (hpdu : prepareGetResponse env requestId errorStatus errorIndex (bs.map VarBind.trio)
      = .ok response)
    (hmsg : generateRequestMsg security env response.buffer = .ok datagram)
    (hv : env'.version = security.version) :
    ∃ head list, datagram = head ++ list ∧
      Reads (newMessage SNMP_VERSION_1 maxMsgSize) (processHeader maxMsgSize) head
        (some (security.version, security.community, .num Asn1Type.getResponse.code.toNat,
          .pdu requestId errorStatus errorIndex)) ∧
      Reads env' processVarBindList list (.pushAll (bs.map fun b => b.shown env') .empty) := by
  obtain ⟨hversion, hle, is, hlen, hint, hdatagram⟩ :=
    generateRequestMsg_ok (newMessage SNMP_VERSION_1 maxMsgSize) hmsg
  have hnew : env.version = (newMessage security.version maxMsgSize).version := hversion
  obtain ⟨-, head, list, hbuffer, hhead, hlist⟩ :=
    reads_pdu hnew (hversion.trans hv.symm) rfl hpdu
  set n := (is ++ (communityField security ++ response.buffer)).length
  refine ⟨(Asn1Type.sequence.code :: lengthOctets n) ++ (is ++ (communityField security ++ head)),
    list, ?_, ?_, hlist⟩
  · rw [hdatagram, hbuffer]
    simp
  · have hle1 := security.version_le
    have h3 : ¬ (security.version : Int) = 3 := by
      have h1 : SNMP_VERSION_2C = 1 := rfl
      omega
    have h01 : ¬ ((security.version : Int) ≠ 0 ∧ (security.version : Int) ≠ 1) := by
      have h1 : SNMP_VERSION_2C = 1 := rfl
      omega
    refine Reads.bind (reads_sequence hlen _ (by simp)) ?_
    refine Reads.bind hint ?_
    simp only [if_neg h3, if_neg h01, Int.toNat_natCast]
    refine Reads.bind (reads_community hle).within ?_
    refine Reads.bind_nil hhead.within ?_
    simp only [Scalar.text, bytes_latin1]
    exact Reads.pure _

/-- A message whose header is that of a response to a request that waits. -/
theorem prepareDataElements_reads (v3 : Handles → Cursor UInt8 → Handles × Outcome)
    {maxMsgSize : Nat} {handles : Handles} {request : Request}
    {requestId errorStatus errorIndex : Int} {head list : Octets} {vb : VarBinds Scalar}
    (hrequest : handles.lookup requestId = some (some request))
    (hheader : Reads (newMessage SNMP_VERSION_1 maxMsgSize) (processHeader maxMsgSize) head
      (some (request.security.version, request.security.community,
        .num Asn1Type.getResponse.code.toNat, .pdu requestId errorStatus errorIndex)))
    (hlist : Reads { request.env with version := request.security.version } processVarBindList list
      vb) :
    prepareDataElements v3 maxMsgSize handles (head ++ list) = (handles.erase requestId,
      .answers request ⟨errorStatus, errorIndex,
        if errorStatus ≠ 0 then
          .error ("Received ".toList ++ errorStatusItoa errorStatus
            ++ " error-status at error-index ".toList ++ intText errorIndex)
        else .ok vb⟩) := by
  obtain ⟨c, hrun, hrest, hin⟩ := hheader.run list
  have hbindings := hlist c.index c [] rfl (by rw [hrest, List.append_nil]) hin
  have htype : ¬ (Scalar.num Asn1Type.getResponse.code.toNat).number
      ≠ Asn1Type.getResponse.code.toNat := by
    simp [Scalar.number]
  have hmodel : (if request.security.version = SNMP_VERSION_2C then 2 else 1)
      = request.security.securityModel := rfl
  simp only [prepareDataElements, hrun, if_neg htype, hrequest, hmodel, ne_eq, not_true_eq_false,
    if_false, responseOf, hbindings]
  rfl

/-- **The answer of an agent comes back.** A response with the version and the community of a
request that waits reaches it: the request is taken out of the cache, and its callback sees the
error status and the bindings that the agent has sent, in the format of the request. -/
theorem prepareDataElements_response (v3 : Handles → Cursor UInt8 → Handles × Outcome)
    (maxMsgSize : Nat) {handles : Handles} {request : Request}
    {requestId errorStatus errorIndex : Int} {bs : List VarBind} {response : Pdu}
    (hrequest : handles.lookup requestId = some (some request))
    (hpdu : prepareGetResponse env requestId errorStatus errorIndex (bs.map VarBind.trio)
      = .ok response)
    (hmsg : generateRequestMsg request.security env response.buffer = .ok datagram) :
    prepareDataElements v3 maxMsgSize handles datagram = (handles.erase requestId,
      .answers request ⟨errorStatus, errorIndex,
        if errorStatus ≠ 0 then
          .error ("Received ".toList ++ errorStatusItoa errorStatus
            ++ " error-status at error-index ".toList ++ intText errorIndex)
        else .ok (.pushAll (bs.map fun b =>
          b.shown { request.env with version := request.security.version }) .empty)⟩) := by
  obtain ⟨head, list, rfl, hheader, hlist⟩ := @reads_header env
    { request.env with version := request.security.version } request.security datagram maxMsgSize
    _ _ _ _ _ hpdu hmsg rfl
  exact prepareDataElements_reads v3 hrequest hheader hlist

end RoundTrip

/-- A request of SNMPv1 that waits under the identifier 1, with the community `public`. -/
def localRequest : Request where
  pdu := 0
  timeoutId := 0
  security := ⟨[112, 117, 98, 108, 105, 99], SNMP_VERSION_1, by decide⟩
  env := newMessage SNMP_VERSION_1 1472

def localHandles : Handles := Handles.new.insert 1 (some localRequest)

/-- SNMPv3 is not there. -/
def noV3 (handles : Handles) (_ : Cursor UInt8) : Handles × Outcome :=
  (handles, .dropped "The SNMP version 3 is not supported".toList)

def sysUpTime : VarBind where
  name := .org [6, 1, 2, 1, 1, 3, 0] (by decide)
  value := .timeTicks 4711

theorem prepareDataElements_response_local : ∃ datagram,
    prepareDataElements noV3 1472 localHandles datagram = (localHandles.erase 1,
      .answers localRequest
        ⟨0, 0, .ok (.pushAll [sysUpTime.shown localRequest.env] .empty)⟩) := by
  have hrun : ((prepareGetResponse localRequest.env 1 0 0 [sysUpTime.trio]) >>= fun response =>
      generateRequestMsg localRequest.security localRequest.env
        response.buffer).toOption.isSome = true := by
    decide +kernel
  cases hsent : (prepareGetResponse localRequest.env 1 0 0 [sysUpTime.trio]) >>= fun response =>
      generateRequestMsg localRequest.security localRequest.env response.buffer with
  | error e =>
      rw [hsent] at hrun
      cases hrun
  | ok datagram =>
      obtain ⟨response, hresponse, hmsg⟩ := bind_eq_ok.mp hsent
      exact ⟨datagram, @prepareDataElements_response _ _ noV3 1472 _ _ _ _ _ [sysUpTime] _
        (AList.lookup_insert _) hresponse hmsg⟩

/-! ## Any message -/

/-- What a message can do: it is dropped and no request is taken out of the cache, or one request
that waits is taken out of it and answered. -/
inductive Taken (handles : Handles) : Handles × Outcome → Prop where
  | dropped (e : Str) : Taken handles (handles, .dropped e)
  | reserved {id : Int} (h : handles.lookup id = some none) (e : Str) :
      Taken handles (handles.erase id, .dropped e)
  | answers {id : Int} {request : Request} (h : handles.lookup id = some (some request))
      (response : Response) : Taken handles (handles.erase id, .answers request response)

theorem prepareDataElements_taken {v3 : Handles → Cursor UInt8 → Handles × Outcome}
    (hv3 : ∀ handles c, Taken handles (v3 handles c)) (maxMsgSize : Nat) (handles : Handles)
    (datagram : Octets) : Taken handles (prepareDataElements v3 maxMsgSize handles datagram) := by
  unfold prepareDataElements
  split
  · exact .dropped _
  · exact hv3 handles _
  · split
    · exact .dropped _
    · split
      · exact .dropped _
      · split
        · exact .dropped _
        · exact .reserved ‹_› _
        · exact .answers ‹_› _

end SnmpCollector.NetSnmp
