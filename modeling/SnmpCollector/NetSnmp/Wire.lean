import SnmpCollector.NetSnmp.Mib

set_option autoImplicit false

/-! # Tables over the wire

A session gets its responses from messages. `Wire` has an agent that answers each request with
octets, and `Wire.session` is what `get_table` makes of them: the message is taken apart, compared
with the request that waits, and its bindings are read. `Wire.honest` says that an agent which
encodes its objects in order is one that serves them, so that `getTable_wire` speaks of the octets.
-/

namespace SnmpCollector.NetSnmp

open Perl

/-- The parameters of a session, and what an agent sends back to a request: the octets of a message,
nothing when none comes in time. -/
structure Wire where
  env : Env
  security : Community
  hostname : Str
  requestId : Nat → Int
  agent : Nat → Pdu → Option Octets
  v3 : Handles → Cursor UInt8 → Handles × Outcome
  maxMsgSize_le : env.maxMsgSize ≤ 65535
  requestId_nonneg : ∀ k, 0 ≤ requestId k
  requestId_lt : ∀ k, requestId k < 2 ^ 31

namespace Wire

variable (w : Wire)

/-- The request that waits. -/
def request (k : Nat) (pdu : Pdu) : Request :=
  ⟨k, 0, w.security, { w.env with leadingDot := pdu.leadingDot }⟩

/-- What the callback of a request sees. A message that is dropped leaves the request waiting until
its time is over. -/
def respond (k : Nat) (pdu : Pdu) : Response :=
  let timeout : Response :=
    ⟨0, 0, .error ("No response from remote host \"".toList ++ w.hostname ++ "\"".toList)⟩
  match w.agent k pdu with
  | none => timeout
  | some datagram =>
      match prepareDataElements w.v3 w.env.maxMsgSize
          (Handles.new.insert (w.requestId k) (some (w.request k pdu))) datagram with
      | (_, .answers _ response) => response
      | (_, .dropped _) => timeout

def session : Session where
  env := w.env
  requestId := w.requestId
  respond := w.respond
  maxMsgSize_le := w.maxMsgSize_le
  requestId_nonneg := w.requestId_nonneg
  requestId_lt := w.requestId_lt

/-- The message of a response with these bindings. -/
def Encodes (k : Nat) (status index : Int) (bs : List VarBind) (datagram : Octets) : Prop :=
  ∃ env response, prepareGetResponse env (w.requestId k) status index (bs.map VarBind.trio)
      = .ok response ∧
    generateRequestMsg w.security env response.buffer = .ok datagram

/-- A message comes back as the response that it was made from. -/
theorem respond_encodes (hversion : w.env.version = w.security.version) {k : Nat} {pdu : Pdu}
    {status index : Int} {bs : List VarBind} {datagram : Octets}
    (ha : w.agent k pdu = some datagram) (h : w.Encodes k status index bs datagram) :
    w.respond k pdu = ⟨status, index,
      if status ≠ 0 then
        .error ("Received ".toList ++ errorStatusItoa status
          ++ " error-status at error-index ".toList ++ intText index)
      else .ok (.pushAll (bs.map fun b =>
        b.shown { w.env with leadingDot := pdu.leadingDot }) .empty)⟩ := by
  obtain ⟨env, response, hresponse, hmsg⟩ := h
  have henv : { (w.request k pdu).env with version := (w.request k pdu).security.version }
      = { w.env with leadingDot := pdu.leadingDot } := by
    simp only [request, ← hversion]
  have hlookup : (Handles.new.insert (w.requestId k) (some (w.request k pdu))).lookup
      (w.requestId k) = some (some (w.request k pdu)) := AList.lookup_insert _
  obtain ⟨head, list, rfl, hheader, hlist⟩ := @reads_header env
    { w.env with leadingDot := pdu.leadingDot } w.security datagram w.env.maxMsgSize
    _ _ _ _ _ hresponse hmsg hversion
  generalize VarBinds.pushAll (bs.map fun b =>
    b.shown { w.env with leadingDot := pdu.leadingDot }) .empty = vb at hlist ⊢
  rw [← henv] at hlist
  have htaken := prepareDataElements_reads w.v3 hlookup hheader hlist
  simp only [respond, ha, htaken]

/-- A message of an agent to a request for what comes after `o`: see `Serves`. -/
inductive Sends (mib : Mib) (o : List Nat) (k : Nat) (datagram : Octets) : Prop where
  | rows {bs : List VarBind} (hne : bs ≠ []) (h : bs <+: mib.after o)
      (hmsg : w.Encodes k 0 0 bs datagram)
  | endOfMibView {e : VarBind} (es : List VarBind) (he : e.value.type = .endOfMibView)
      (hmsg : w.Encodes k 0 0 (mib.after o ++ e :: es) datagram)
  | noSuchName (h : mib.after o = []) (index : Int) (bs : List VarBind)
      (hmsg : w.Encodes k 2 index bs datagram)

/-- An agent that sends its objects in order, encoded in any way. -/
def Sending (mib : Mib) : Prop :=
  ∀ (k : Nat) (argv : TableArgs) (o : Oid) (dot : Bool) (j : Nat) (pdu : Pdu),
    tableRequest w.env (w.requestId k) argv (oidText dot o.subs j) = .ok pdu →
      ∃ datagram, w.agent k pdu = some datagram ∧ w.Sends mib o.subs k datagram

variable {w}

/-- **What is sent in order is served in order.** -/
theorem honest (hversion : w.env.version = w.security.version) {mib : Mib} (h : w.Sending mib) :
    Honest w.session mib := by
  intro k argv o dot j pdu hpdu
  obtain ⟨datagram, ha, hsends⟩ := h k argv o dot j pdu hpdu
  show Serves _ mib o.subs (w.respond k pdu)
  cases hsends with
  | rows hne hpre hmsg =>
      rw [w.respond_encodes hversion ha hmsg]
      exact .rows hne hpre
  | endOfMibView es he hmsg =>
      rw [w.respond_encodes hversion ha hmsg]
      exact .endOfMibView es he
  | noSuchName hnone index bs hmsg =>
      rw [w.respond_encodes hversion ha hmsg]
      exact .noSuchName hnone index _

end Wire

/-- **A table over the wire**: from an agent whose messages carry its objects in order, `get_table`
gets the rows under the base, as they are read in the format of the session. -/
theorem getTable_wire {w : Wire} (hversion : w.env.version = w.security.version) {mib : Mib}
    (h : w.Sending mib) (base : Oid) (dot : Bool) (j : Nat) {maxRepetitions : Option Nat}
    (hm : ∀ m ∈ maxRepetitions, w.env.version ≠ SNMP_VERSION_1 ∧ m < 2 ^ 31) {n : Nat}
    (hn : (mib.under base.subs).length < n) :
    ∃ r, getTable w.session (oidText dot base.subs j) maxRepetitions n = some r ∧
      Final { w.env with leadingDot := w.env.leadingDot || dot } (mib.under base.subs) r :=
  getTable_final (Wire.honest hversion h) base dot j hm hn

/-! ## An agent that encodes -/

/-- The message with these bindings, when it can be prepared. -/
def localMessage (status index : Int) (bs : List VarBind) : Option Octets :=
  ((prepareGetResponse localRequest.env 1 status index (bs.map VarBind.trio)) >>= fun response =>
    generateRequestMsg localRequest.security localRequest.env response.buffer).toOption

/-- Each request is answered with the one object that comes next. -/
def localWire : Wire where
  env := localRequest.env
  security := localRequest.security
  hostname := "localhost".toList
  requestId := fun _ => 1
  agent := fun _ pdu =>
    match localMib.after (subids (pdu.varBinds.names.headD [])) with
    | [] => localMessage 2 1 []
    | b :: _ => localMessage 0 0 [b]
  v3 := noV3
  maxMsgSize_le := Nat.le_of_ble_eq_true rfl
  requestId_nonneg := fun _ => Int.one_nonneg
  requestId_lt := fun _ => by decide

theorem localMessage_encodes {status index : Int} {bs : List VarBind} (k : Nat)
    (h : (localMessage status index bs).isSome = true) :
    ∃ datagram, localMessage status index bs = some datagram ∧
      localWire.Encodes k status index bs datagram := by
  cases hsent : (prepareGetResponse localRequest.env 1 status index (bs.map VarBind.trio)) >>=
      fun response => generateRequestMsg localRequest.security localRequest.env response.buffer with
  | error e =>
      rw [localMessage, hsent] at h
      cases h
  | ok datagram =>
      obtain ⟨response, hresponse, hmsg⟩ := bind_eq_ok.mp hsent
      have hmessage : localMessage status index bs = some datagram := by
        rw [localMessage, hsent]
        rfl
      exact ⟨datagram, hmessage, localRequest.env, response, hresponse, hmsg⟩

theorem localWire_sending : localWire.Sending localMib := by
  intro k argv o dot j pdu hpdu
  have hsubs : subids (pdu.varBinds.names.headD []) = o.subs := by
    rw [tableRequest_names hpdu, List.headD_cons, subids_oidText dot o.subs_ne_nil j]
  simp only [localWire, hsubs]
  cases hafter : localMib.after o.subs with
  | nil =>
      obtain ⟨datagram, hmsg, hencodes⟩ := localMessage_encodes k
        (show (localMessage 2 1 []).isSome = true by decide +kernel)
      exact ⟨datagram, hmsg, .noSuchName hafter 1 [] hencodes⟩
  | cons b bs =>
      have hrows : ∀ b ∈ localMib.rows, (localMessage 0 0 [b]).isSome = true := by decide +kernel
      have hb : b ∈ localMib.rows := by
        have hmem : b ∈ localMib.after o.subs := by
          rw [hafter]
          exact List.mem_cons_self
        exact (List.mem_filter.mp hmem).1
      obtain ⟨datagram, hmsg, hencodes⟩ := localMessage_encodes k (hrows b hb)
      have hpre : [b] <+: localMib.after o.subs := by
        rw [hafter]
        exact ⟨bs, rfl⟩
      exact ⟨datagram, hmsg, .rows (by simp) hpre hencodes⟩

theorem getTable_wire_local :
    ∃ r, getTable localWire.session (oidText false ifDescrOid.subs 0) none 2 = some r ∧
      Final localRequest.env (localMib.under ifDescrOid.subs) r :=
  getTable_wire rfl localWire_sending ifDescrOid false 0 (by simp) (by decide)

end SnmpCollector.NetSnmp
