import SnmpCollector.NetSnmp.EventQueue
import SnmpCollector.NetSnmp.MessageProcessing

set_option autoImplicit false

/-! # The Dispatcher (`Net::SNMP::Dispatcher`)

The Dispatcher sends requests and waits for their answers. A request is an event that sends its
message; the message that has been sent is an event that is executed when no answer comes in time,
and sends the message again as long as there are retries left. A message that comes in and answers
a request cancels that event.

What the execution of an event does (`Executes`) is said in accounts: the events of a request and
the calls of its callback, the messages that it has sent and may still send, and the work that is
left.
-/

namespace SnmpCollector.NetSnmp

open Perl

/-! ## Requests and events -/

/-- A PDU that is given to the Dispatcher, with what it asks it for. -/
structure Command where
  pdu : Pdu
  env : Env
  security : Community
  transport : Nat
  hostname : Str
  timeout : ℚ
  retries : Nat

/-- `expect_response` -/
def Command.expectResponse (c : Command) : Bool :=
  match c.pdu.pduType with
  | .getResponse | .trap | .snmpv2Trap | .report => false
  | _ => true

/-- What an event executes: `_send_pdu` or `_transport_timeout` with their arguments. -/
inductive Callback where
  | sendPdu (pdu retries : Nat)
  | transportTimeout (pdu retries : Nat) (handle : Int)

/-- The PDU of an event. -/
def Callback.pdu : Callback → Nat
  | sendPdu p _ => p
  | transportTimeout p _ _ => p

/-- How sending a message ends: `again` is a temporary failure. -/
inductive Sent where
  | ok
  | failed (again : Bool) (error : Str)

abbrev Events := List (Nat × Event ℚ Callback)

/-- The Dispatcher, with the cache of Message Processing. The descriptors are counted for each
transport. `sent` has the PDU of each message that was handed to the transport, and `answers` the
PDU of each call of a callback with what it was called with, in order. -/
structure Dispatcher where
  active : Bool
  queue : Events
  made : Nat
  handles : Handles
  descriptors : Nat → Nat
  sent : List Nat
  answers : List (Nat × Response)

namespace Dispatcher

/-! ## Operations -/

/-- `schedule`: the time counts from now on when the Dispatcher is active. -/
def schedule (now time : ℚ) (callback : Callback) (s : Dispatcher) : Dispatcher :=
  let event : Event ℚ Callback := ⟨s.active, if s.active then now + time else time, callback⟩
  { s with queue := insertOrdered s.made event s.queue, made := s.made + 1 }

/-- `cancel`, and the deletion of an event that has been executed. -/
def delete (i : Nat) (s : Dispatcher) : Dispatcher :=
  { s with queue := s.queue.filter fun x => x.1 ≠ i }

/-- `_event_init` -/
def init (i : Nat) (time : ℚ) (s : Dispatcher) : Dispatcher :=
  { s with queue := initOrdered i time s.queue }

/-- `register` -/
def register (transport : Nat) (s : Dispatcher) : Dispatcher :=
  { s with
    descriptors := Function.update s.descriptors transport (s.descriptors transport + 1) }

/-- `deregister` -/
def deregister (transport : Nat) (s : Dispatcher) : Dispatcher :=
  { s with
    descriptors := Function.update s.descriptors transport (s.descriptors transport - 1) }

/-- A message is kept in the cache. -/
def remember (handle : Int) (request : Request) (s : Dispatcher) : Dispatcher :=
  { s with handles := s.handles.insert handle (some request) }

/-- `msg_handle_delete` -/
def forget (handle : Int) (s : Dispatcher) : Dispatcher :=
  { s with handles := s.handles.erase handle }

/-- A message of a PDU is handed to the transport. -/
def transmit (p : Nat) (s : Dispatcher) : Dispatcher := { s with sent := s.sent ++ [p] }

/-- A message that could not be sent is not kept. -/
def fail (c : Command) (p : Nat) (s : Dispatcher) : Dispatcher :=
  if c.expectResponse then (s.transmit p).forget c.pdu.requestId else s.transmit p

/-- The callback of a PDU is called. -/
def call (p : Nat) (response : Response) (s : Dispatcher) : Dispatcher :=
  { s with answers := s.answers ++ [(p, response)] }

/-- `status_information`: the callback sees the PDU itself, with an error. -/
def statusInformation (p : Nat) (pdu : Pdu) (error : Str) (s : Dispatcher) : Dispatcher :=
  s.call p ⟨pdu.errorStatus, pdu.errorIndex, .error error⟩

variable (commands : Nat → Command)

/-- `_send_pdu` -/
def sendMsg (now : ℚ) (sent : Sent) (p retries : Nat) (s : Dispatcher) : Dispatcher :=
  let c := commands p
  match generateRequestMsg c.security c.env c.pdu.buffer with
  | .error e => s.statusInformation p c.pdu e
  | .ok _ =>
      match sent with
      | .failed again e =>
          if 0 < retries ∧ again then
            (s.fail c p).schedule now c.timeout (.sendPdu p (retries - 1))
          else (s.fail c p).statusInformation p c.pdu e
      | .ok =>
          if c.expectResponse then
            let request : Request :=
              ⟨p, s.made, c.security, { c.env with leadingDot := c.pdu.leadingDot }⟩
            (((s.transmit p).remember c.pdu.requestId request).register c.transport).schedule now
              c.timeout (.transportTimeout p retries c.pdu.requestId)
          else s.transmit p

/-- `_transport_timeout` -/
def transportTimeout (now : ℚ) (sent : Sent) (p retries : Nat) (handle : Int) (s : Dispatcher) :
    Dispatcher :=
  let c := commands p
  let s := (s.deregister c.transport).forget handle
  if 0 < retries then s.sendMsg commands now sent p (retries - 1)
  else s.statusInformation p c.pdu
    ("No response from remote host \"".toList ++ c.hostname ++ "\"".toList)

/-- `_callback_execute` of an event. -/
def execute (now : ℚ) (sent : Sent) (s : Dispatcher) : Callback → Dispatcher
  | .sendPdu p retries => s.sendMsg commands now sent p retries
  | .transportTimeout p retries handle => s.transportTimeout commands now sent p retries handle

/-- `send_pdu`, called by the program. -/
def sendPdu (now delay : ℚ) (sent : Sent) (p : Nat) (s : Dispatcher) : Dispatcher :=
  let retries := (commands p).retries
  if delay < 0 then
    if s.active then s.sendMsg commands now sent p retries
    else s.schedule now 0 (.sendPdu p retries)
  else s.schedule now delay (.sendPdu p retries)

/-- The events of `_event_handle`: the first one is executed when its time has come. The clock is
read at the start, and again (`later`) when an event is scheduled. -/
def handleEvent (now later : ℚ) (sent : Sent) (s : Dispatcher) : Dispatcher :=
  match s.queue with
  | [] => s
  | (i, ev) :: _ =>
      if ev.active = false ∧ ev.time ≠ 0 then s.init i (later + ev.time)
      else if ev.time ≤ now then (s.execute commands later sent ev.callback).delete i
      else s

/-- `_transport_response_received`, for a message on a transport that is registered. An event that
cannot be cancelled is the death of the callback. -/
def responseReceived (v3 : Handles → Cursor UInt8 → Handles × Outcome) (maxMsgSize transport : Nat)
    (datagram : Octets) (s : Dispatcher) : Dispatcher :=
  if s.descriptors transport = 0 then s
  else
    match prepareDataElements v3 maxMsgSize s.handles datagram with
    | (handles, .dropped _) => { s with handles := handles }
    | (handles, .answers request response) =>
        let s := { s with handles := handles }
        if request.timeoutId ∈ s.queue.map Prod.fst then
          ((s.delete request.timeoutId).deregister transport).call request.pdu response
        else s

/-- A Dispatcher that has nothing to do. -/
def new : Dispatcher := ⟨false, [], 0, .new, fun _ => 0, [], []⟩

end Dispatcher

/-- What is in the cache without a handle was there. -/
theorem lookup_of_lookup_erase {handles : Handles} {id handle : Int} {request : Option Request}
    (h : (handles.erase handle).lookup id = some request) :
    id ≠ handle ∧ handles.lookup id = some request := by
  have hne : id ≠ handle := by
    rintro rfl
    rw [AList.lookup_erase] at h
    cases h
  exact ⟨hne, by rwa [AList.lookup_erase_ne hne] at h⟩

/-! ## Accounts -/

/-- The retries that an event has left, with the message that it sends itself. -/
def Callback.left : Callback → Nat
  | sendPdu _ r => r + 1
  | transportTimeout _ r _ => r

/-- An event waits for an answer, or not. -/
def Callback.waits : Callback → Nat
  | sendPdu .. => 0
  | transportTimeout .. => 1

/-- What an event can still cause: each event that it leads to has less. -/
def Event.work (ev : Event ℚ Callback) : Nat :=
  (if ev.active then 0 else 1) +
    match ev.callback with
    | .sendPdu _ r => 4 * r + 4
    | .transportTimeout _ r _ => 4 * r + 2

section

variable (p r : Nat) (id : Int)

@[simp] theorem pdu_sendPdu : (Callback.sendPdu p r).pdu = p := rfl
@[simp] theorem pdu_transportTimeout : (Callback.transportTimeout p r id).pdu = p := rfl
@[simp] theorem left_sendPdu : (Callback.sendPdu p r).left = r + 1 := rfl
@[simp] theorem left_transportTimeout : (Callback.transportTimeout p r id).left = r := rfl
@[simp] theorem waits_sendPdu : (Callback.sendPdu p r).waits = 0 := rfl
@[simp] theorem waits_transportTimeout : (Callback.transportTimeout p r id).waits = 1 := rfl

end

/-- The sum of `f` over the events. -/
def total (f : Event ℚ Callback → Nat) (q : Events) : Nat := (q.map fun x => f x.2).sum

theorem total_perm {f : Event ℚ Callback → Nat} {q q' : Events} (h : q.Perm q') :
    total f q = total f q' := (h.map _).sum_eq

@[simp] theorem total_cons (f : Event ℚ Callback → Nat) (x : Nat × Event ℚ Callback) (q : Events) :
    total f (x :: q) = f x.2 + total f q := by
  rw [total, List.map_cons, List.sum_cons, total]

@[simp] theorem total_insertOrdered (f : Event ℚ Callback → Nat) (i : Nat) (ev : Event ℚ Callback)
    (q : Events) : total f (insertOrdered i ev q) = f ev + total f q := by
  rw [total_perm (insertOrdered_perm i ev q), total_cons]

/-- What an event is worth is lost with it. -/
theorem total_filter_ne (f : Event ℚ Callback → Nat) {q : Events} {i : Nat}
    {ev : Event ℚ Callback} (hnd : (q.map Prod.fst).Nodup) (h : (i, ev) ∈ q) :
    f ev + total f (q.filter fun x => x.1 ≠ i) = total f q := by
  rw [total_perm (perm_filter_ne hnd h), total_cons]

theorem total_initOrdered (f : Event ℚ Callback → Nat) {q : Events} {i : Nat}
    {ev : Event ℚ Callback} (hnd : (q.map Prod.fst).Nodup) (h : (i, ev) ∈ q) (time : ℚ) :
    f ev + total f (initOrdered i time q) = f ⟨true, time, ev.callback⟩ + total f q := by
  rw [total_perm (initOrdered_perm hnd h time), total_cons, ← total_filter_ne f hnd h]
  exact Nat.add_left_comm _ _ _

namespace Dispatcher

/-- The events of a PDU. -/
def tasks (p : Nat) (s : Dispatcher) : Nat :=
  total (fun ev => if ev.callback.pdu = p then 1 else 0) s.queue

/-- The calls of the callback of a PDU. -/
def calls (p : Nat) (s : Dispatcher) : Nat := (s.answers.map Prod.fst).count p

/-- The messages of a PDU that have been sent, and those that may still be. -/
def messages (p : Nat) (s : Dispatcher) : Nat :=
  s.sent.count p + total (fun ev => if ev.callback.pdu = p then ev.callback.left else 0) s.queue

/-- The events that wait for an answer. -/
def waiting (s : Dispatcher) : Nat := total (fun ev => ev.callback.waits) s.queue

/-- What all events can still cause. -/
def work (s : Dispatcher) : Nat := total Event.work s.queue

/-- The queue and the cache belong together: a request that waits has its event. -/
structure Wf (s : Dispatcher) : Prop where
  nodup : (s.queue.map Prod.fst).Nodup
  made : ∀ x ∈ s.queue, x.1 < s.made
  waits : ∀ id request, s.handles.lookup id = some (some request) →
    ∃ n ev, (request.timeoutId, ev) ∈ s.queue ∧
      ev.callback = .transportTimeout request.pdu n id

/-! ## Sending -/

/-- What sending a message can do. -/
inductive Sending (c : Command) (now : ℚ) (p retries : Nat) (s : Dispatcher) :
    Dispatcher → Prop where
  | refused (response : Response) : Sending c now p retries s (s.call p response)
  | failed (response : Response) : Sending c now p retries s ((s.fail c p).call p response)
  | again (h : 0 < retries) :
      Sending c now p retries s ((s.fail c p).schedule now c.timeout (.sendPdu p (retries - 1)))
  | waits (request : Request) (hpdu : request.pdu = p) (hid : request.timeoutId = s.made) :
      Sending c now p retries s
        ((((s.transmit p).remember c.pdu.requestId request).register c.transport).schedule now
          c.timeout (.transportTimeout p retries c.pdu.requestId))
  | sent (h : c.expectResponse = false) : Sending c now p retries s (s.transmit p)

theorem sendMsg_sending (commands : Nat → Command) (now : ℚ) (sent : Sent) (p retries : Nat)
    (s : Dispatcher) :
    Sending (commands p) now p retries s (s.sendMsg commands now sent p retries) := by
  simp only [sendMsg]
  split
  · exact .refused _
  · split
    · split
      · rename_i h
        exact .again h.1
      · exact .failed _
    · split
      · exact .waits _ rfl rfl
      · rename_i h
        exact .sent (by simpa using h)

section Fields

variable (c : Command) (p : Nat) (s : Dispatcher)

@[simp] theorem fail_queue : (s.fail c p).queue = s.queue := by unfold fail; split <;> rfl
@[simp] theorem fail_made : (s.fail c p).made = s.made := by unfold fail; split <;> rfl
@[simp] theorem fail_sent : (s.fail c p).sent = s.sent ++ [p] := by unfold fail; split <;> rfl
@[simp] theorem fail_answers : (s.fail c p).answers = s.answers := by unfold fail; split <;> rfl
@[simp] theorem fail_active : (s.fail c p).active = s.active := by unfold fail; split <;> rfl
@[simp] theorem fail_descriptors : (s.fail c p).descriptors = s.descriptors := by
  unfold fail; split <;> rfl

/-- A message that could not be sent leaves no request. -/
theorem lookup_fail {id : Int} {request : Option Request}
    (h : (s.fail c p).handles.lookup id = some request) : s.handles.lookup id = some request := by
  unfold fail at h
  split at h
  · exact (lookup_of_lookup_erase h).2
  · exact h

end Fields

variable {c : Command} {now : ℚ} {p retries : Nat} {s s' : Dispatcher}

/-- The events stay. -/
theorem Sending.queue (h : Sending c now p retries s s') :
    s.made ≤ s'.made ∧ ∀ x ∈ s.queue, x ∈ s'.queue := by
  cases h with
  | refused | failed | sent => simp [call, transmit]
  | again | waits => simp +contextual [schedule, register, remember, transmit, mem_insertOrdered]

/-- A request in the cache was there, or has the new event. -/
theorem Sending.lookup (h : Sending c now p retries s s') {id : Int} {request : Request}
    (hlookup : s'.handles.lookup id = some (some request)) :
    s.handles.lookup id = some (some request) ∨ request.timeoutId = s.made := by
  cases h with
  | refused | sent => exact .inl hlookup
  | failed | again => exact .inl (lookup_fail _ _ _ hlookup)
  | waits request' hpdu hid =>
      by_cases hc : id = c.pdu.requestId
      · subst hc
        simp only [schedule, register, remember, AList.lookup_insert] at hlookup
        obtain rfl := Option.some.inj (Option.some.inj hlookup)
        exact .inr hid
      · simp only [schedule, register, remember, AList.lookup_insert_ne hc] at hlookup
        exact .inl hlookup

theorem Wf.schedule (h : Wf s) (now time : ℚ) (callback : Callback) :
    Wf (s.schedule now time callback) := by
  refine ⟨?_, fun x hx => ?_, fun id request hlookup => ?_⟩
  · have hperm := (insertOrdered_perm s.made ⟨s.active, if s.active then now + time else time,
      callback⟩ s.queue).map Prod.fst
    refine hperm.nodup_iff.mpr (List.nodup_cons.mpr ⟨fun hmem => ?_, h.nodup⟩)
    obtain ⟨x, hx, hxm⟩ := List.mem_map.mp hmem
    exact (h.made x hx).ne hxm
  · rcases mem_insertOrdered.mp hx with rfl | hx
    · exact Nat.lt_succ_self _
    · exact Nat.lt_succ_of_lt (h.made x hx)
  · obtain ⟨n, ev, hmem, hev⟩ := h.waits id request hlookup
    exact ⟨n, ev, mem_insertOrdered.mpr (.inr hmem), hev⟩

theorem Wf.fail (h : Wf s) (c : Command) (p : Nat) : Wf (s.fail c p) :=
  ⟨by simpa using h.nodup, by simpa using h.made, fun id request hlookup => by
    simpa using h.waits id request (lookup_fail _ _ _ hlookup)⟩

theorem Wf.forget (h : Wf s) (handle : Int) : Wf (s.forget handle) :=
  ⟨h.nodup, h.made, fun id request hlookup =>
    h.waits id request (lookup_of_lookup_erase hlookup).2⟩

/-- **Sending keeps the queue and the cache together.** -/
theorem Sending.wf (h : Sending c now p retries s s') (hs : Wf s) : Wf s' := by
  cases h with
  | refused | sent => exact ⟨hs.nodup, hs.made, hs.waits⟩
  | failed => exact ⟨(hs.fail c p).nodup, (hs.fail c p).made, (hs.fail c p).waits⟩
  | again => exact (hs.fail c p).schedule _ _ _
  | waits request hpdu hid =>
      have hnew := hs.schedule now c.timeout (.transportTimeout p retries c.pdu.requestId)
      refine ⟨hnew.nodup, hnew.made, fun id request' hlookup => ?_⟩
      by_cases hc : id = c.pdu.requestId
      · subst hc
        simp only [Dispatcher.schedule, register, remember, AList.lookup_insert] at hlookup
        obtain rfl := Option.some.inj (Option.some.inj hlookup)
        exact ⟨retries, _, mem_insertOrdered.mpr (.inl (by rw [hid]; rfl)), by rw [hpdu]⟩
      · simp only [Dispatcher.schedule, register, remember, AList.lookup_insert_ne hc] at hlookup
        exact hnew.waits id request' hlookup

/-- **Sending is one event or one call**, for a PDU that expects a response. -/
theorem Sending.tasks_add_calls (h : Sending c now p retries s s') :
    ∃ k ≤ 1, (c.expectResponse → k = 1) ∧
      ∀ q, s'.tasks q + s'.calls q = s.tasks q + s.calls q + if p = q then k else 0 := by
  cases h with
  | refused | failed =>
      refine ⟨1, le_rfl, fun _ => rfl, fun q => ?_⟩
      simp [tasks, calls, call, List.count_singleton, Nat.add_assoc]
  | again | waits =>
      refine ⟨1, le_rfl, fun _ => rfl, fun q => ?_⟩
      by_cases hq : p = q <;>
        simp [tasks, calls, schedule, register, remember, transmit, hq]
      omega
  | sent hexpect =>
      exact ⟨0, by omega, by simp [hexpect], fun q => by simp [tasks, calls, transmit]⟩

/-- No message is sent more often than there are retries. -/
theorem Sending.messages (h : Sending c now p retries s s') (q : Nat) :
    s'.messages q ≤ s.messages q + if p = q then retries + 1 else 0 := by
  cases h with
  | refused => simp [Dispatcher.messages, call]
  | failed | sent =>
      by_cases hq : p = q <;> simp [Dispatcher.messages, call, transmit, hq]
      omega
  | again | waits =>
      by_cases hq : p = q <;>
        simp [Dispatcher.messages, schedule, register, remember, transmit, hq]
      omega

/-- Sending leaves less to do than the event that sends. -/
theorem Sending.work (h : Sending c now p retries s s') :
    s'.work ≤ s.work + (4 * retries + 3) := by
  cases h with
  | refused | failed | sent => simp [Dispatcher.work, call, transmit]
  | again | waits =>
      simp [Dispatcher.work, Event.work, schedule, register, remember, transmit]
      split <;> omega

/-! ## Events -/

/-- An event has its number alone. -/
theorem Wf.unique (hs : Wf s) {i : Nat} {ev ev' : Event ℚ Callback} (h : (i, ev) ∈ s.queue)
    (h' : (i, ev') ∈ s.queue) : ev = ev' :=
  (Prod.ext_iff.mp (List.inj_on_of_nodup_map hs.nodup h h' rfl)).2

/-- No request waits for the event. -/
def Free (i : Nat) (s : Dispatcher) : Prop :=
  ∀ id request, s.handles.lookup id = some (some request) → request.timeoutId ≠ i

theorem Wf.delete (hs : Wf s) {i : Nat} (hfree : Free i s) : Wf (s.delete i) := by
  refine ⟨hs.nodup.sublist (List.filter_sublist.map _), fun x hx =>
    hs.made x (List.mem_of_mem_filter hx), fun id request hlookup => ?_⟩
  obtain ⟨n, ev, hmem, hev⟩ := hs.waits id request hlookup
  exact ⟨n, ev, List.mem_filter.mpr ⟨hmem, by simpa using hfree id request hlookup⟩, hev⟩

theorem Free.sending (h : Sending c now p retries s s') {i : Nat} (hi : i < s.made)
    (hfree : Free i s) : Free i s' := by
  intro id request hlookup
  rcases h.lookup hlookup with hold | hnew
  · exact hfree id request hold
  · omega

/-- What the execution of an event does, while the event is still in the queue. -/
structure Executes (commands : Nat → Command) (i : Nat) (ev : Event ℚ Callback)
    (s s' : Dispatcher) : Prop where
  wf : Wf s'
  mem : (i, ev) ∈ s'.queue
  free : Free i s'
  tasks : ∃ k ≤ 1, ((commands ev.callback.pdu).expectResponse → k = 1) ∧
    ∀ q, s'.tasks q + s'.calls q
      = s.tasks q + s.calls q + if ev.callback.pdu = q then k else 0
  messages : ∀ q, s'.messages q
    ≤ s.messages q + if ev.callback.pdu = q then ev.callback.left else 0
  work : s'.work < s.work + Event.work ev

theorem execute_executes (commands : Nat → Command) (now : ℚ) (sent : Sent) (hs : Wf s) {i : Nat}
    {ev : Event ℚ Callback} (hmem : (i, ev) ∈ s.queue) :
    Executes commands i ev s (s.execute commands now sent ev.callback) := by
  obtain ⟨active, time, callback⟩ := ev
  have hi : i < s.made := hs.made _ hmem
  cases callback with
  | sendPdu p r =>
      have hsend := sendMsg_sending commands now sent p r s
      have hfree : Free i s := fun id request hlookup hid => by
        obtain ⟨n, ev, hev, htimeout⟩ := hs.waits id request hlookup
        rw [hid] at hev
        rw [← hs.unique hmem hev] at htimeout
        cases htimeout
      refine ⟨hsend.wf hs, hsend.queue.2 _ hmem, hfree.sending hsend hi, hsend.tasks_add_calls,
        hsend.messages, lt_of_le_of_lt hsend.work ?_⟩
      simp only [Event.work]
      omega
  | transportTimeout p r handle =>
      have hs₁ : Wf ((s.deregister (commands p).transport).forget handle) :=
        ⟨hs.nodup, hs.made, (hs.forget handle).waits⟩
      have hfree : Free i ((s.deregister (commands p).transport).forget handle) := by
        intro id request hlookup hid
        obtain ⟨hne, hlookup⟩ := lookup_of_lookup_erase hlookup
        obtain ⟨n, ev, hev, htimeout⟩ := hs.waits id request hlookup
        rw [hid] at hev
        rw [← hs.unique hmem hev] at htimeout
        exact hne (Callback.transportTimeout.inj htimeout).2.2.symm
      simp only [execute, transportTimeout]
      split
      · rename_i hr
        have hsend := sendMsg_sending commands now sent p (r - 1)
          ((s.deregister (commands p).transport).forget handle)
        have hleft : r - 1 + 1 = r := by omega
        refine ⟨hsend.wf hs₁, hsend.queue.2 _ hmem, hfree.sending hsend hi,
          hsend.tasks_add_calls, fun q => ?_, lt_of_le_of_lt hsend.work ?_⟩
        · have hmessages := hsend.messages q
          rwa [hleft] at hmessages
        · simp only [Event.work, Dispatcher.work, forget, deregister]
          omega
      · refine ⟨⟨hs₁.nodup, hs₁.made, hs₁.waits⟩, hmem, hfree,
          ⟨1, le_rfl, fun _ => rfl, fun q => ?_⟩, fun q => Nat.le_add_right _ _, ?_⟩
        · by_cases hq : p = q <;>
            simp [Dispatcher.tasks, calls, statusInformation, call, forget, deregister, hq]
          omega
        · simp only [Event.work, Dispatcher.work, statusInformation, call, forget, deregister]
          omega

/-- What a step of the loop keeps. -/
structure Keeps (commands : Nat → Command) (s s' : Dispatcher) : Prop where
  le : ∀ p, s'.tasks p + s'.calls p ≤ s.tasks p + s.calls p
  eq : ∀ p, (commands p).expectResponse → s'.tasks p + s'.calls p = s.tasks p + s.calls p
  messages : ∀ p, s'.messages p ≤ s.messages p
  work : s'.work ≤ s.work

theorem Keeps.refl (commands : Nat → Command) (s : Dispatcher) : Keeps commands s s :=
  ⟨fun _ => le_rfl, fun _ _ => rfl, fun _ => le_rfl, le_rfl⟩

/-- An event that has been executed is deleted. -/
theorem Executes.delete {commands : Nat → Command} {i : Nat} {ev : Event ℚ Callback}
    (h : Executes commands i ev s s') :
    Wf (s'.delete i) ∧ Keeps commands s (s'.delete i) ∧ (s'.delete i).work < s.work := by
  obtain ⟨k, hk, hexpect, htasks⟩ := h.tasks
  have hdelete : ∀ f, f ev + total f (s'.delete i).queue = total f s'.queue := fun f =>
    total_filter_ne f h.wf.nodup h.mem
  have hwork : (s'.delete i).work < s.work := by
    have hlt := h.work
    have hsum := hdelete Event.work
    simp only [Dispatcher.work] at hlt ⊢
    omega
  have hcount : ∀ q, (s'.delete i).tasks q + (s'.delete i).calls q
      + (if ev.callback.pdu = q then 1 else 0)
      = s.tasks q + s.calls q + if ev.callback.pdu = q then k else 0 := fun q => by
    rw [← htasks q]
    have hsum := hdelete fun ev => if ev.callback.pdu = q then 1 else 0
    simp only [Dispatcher.tasks, calls, Dispatcher.delete] at hsum ⊢
    omega
  refine ⟨h.wf.delete h.free, ⟨fun q => ?_, fun q hq => ?_, fun q => ?_, hwork.le⟩, hwork⟩
  · have hq := hcount q
    split at hq <;> omega
  · have hcq := hcount q
    split at hcq
    · rename_i hpdu
      rw [hexpect (hpdu ▸ hq)] at hcq
      omega
    · omega
  · have hle := h.messages q
    have hsum := hdelete fun ev => if ev.callback.pdu = q then ev.callback.left else 0
    simp only [Dispatcher.messages, Dispatcher.delete] at hle hsum ⊢
    omega

/-- An event with a new time has less to do than before. -/
theorem init_keeps (commands : Nat → Command) (hs : Wf s) {i : Nat} {ev : Event ℚ Callback}
    (hmem : (i, ev) ∈ s.queue) (hidle : ev.active = false) (time : ℚ) :
    Wf (s.init i time) ∧ Keeps commands s (s.init i time) ∧ (s.init i time).work < s.work := by
  have hperm := initOrdered_perm hs.nodup hmem time
  have hparts := perm_filter_ne hs.nodup hmem
  have htotal : ∀ f, f ev + total f (s.init i time).queue
      = f ⟨true, time, ev.callback⟩ + total f s.queue := fun f =>
    total_initOrdered f hs.nodup hmem time
  have hwork : (s.init i time).work < s.work := by
    have hsum := htotal Event.work
    simp only [Event.work, hidle, if_true, Bool.false_eq_true, if_false] at hsum
    simp only [Dispatcher.work]
    omega
  have hsame : ∀ f : Event ℚ Callback → Nat, f ⟨true, time, ev.callback⟩ = f ev →
      total f (s.init i time).queue = total f s.queue := fun f hf => by
    have hsum := htotal f
    omega
  have htasks : ∀ p, (s.init i time).tasks p = s.tasks p := fun p => hsame _ rfl
  refine ⟨⟨?_, fun x hx => ?_, fun id request hlookup => ?_⟩,
    ⟨fun p => (congrArg (· + s.calls p) (htasks p)).le, fun p _ =>
      congrArg (· + s.calls p) (htasks p), fun p =>
      (congrArg (s.sent.count p + ·) (hsame _ rfl)).le, hwork.le⟩, hwork⟩
  · have hnd := (hparts.map Prod.fst).nodup_iff.mp hs.nodup
    exact (hperm.map Prod.fst).nodup_iff.mpr hnd
  · rcases List.mem_cons.mp (hperm.mem_iff.mp hx) with rfl | hx
    · exact hs.made (i, ev) hmem
    · exact hs.made x (List.mem_of_mem_filter hx)
  · obtain ⟨n, ev', hmem', hev'⟩ := hs.waits id request hlookup
    by_cases hid : request.timeoutId = i
    · rw [hid] at hmem' ⊢
      obtain rfl := hs.unique hmem hmem'
      exact ⟨n, _, hperm.mem_iff.mpr List.mem_cons_self, hev'⟩
    · exact ⟨n, ev', hperm.mem_iff.mpr (List.mem_cons_of_mem _
        (List.mem_filter.mpr ⟨hmem', by simpa using hid⟩)), hev'⟩

/-- An answer cancels the event of its request, which is in the queue, and calls its callback. -/
theorem answer_executes (commands : Nat → Command) (hs : Wf s) (transport : Nat)
    (response : Response) {id : Int} {request : Request}
    (h : s.handles.lookup id = some (some request)) :
    ∃ n ev, (request.timeoutId, ev) ∈ s.queue ∧
      ev.callback = .transportTimeout request.pdu n id ∧
      Executes commands request.timeoutId ev s
        (((s.forget id).deregister transport).call request.pdu response) := by
  obtain ⟨n, ev, hmem, hev⟩ := hs.waits id request h
  refine ⟨n, ev, hmem, hev, ⟨hs.nodup, hs.made, (hs.forget id).waits⟩, hmem, ?_,
    ⟨1, le_rfl, fun _ => rfl, fun q => ?_⟩, fun q => Nat.le_add_right _ _, ?_⟩
  · intro id' request' hlookup hid
    obtain ⟨hne, hlookup⟩ := lookup_of_lookup_erase hlookup
    obtain ⟨n', ev', hmem', hev'⟩ := hs.waits id' request' hlookup
    rw [hid] at hmem'
    rw [← hs.unique hmem hmem', hev] at hev'
    exact hne (Callback.transportTimeout.inj hev').2.2.symm
  · by_cases hq : request.pdu = q <;>
      simp [Dispatcher.tasks, calls, call, forget, deregister, hev, hq]
    omega
  · simp only [Event.work, hev, Dispatcher.work, call, forget, deregister]
    omega

end Dispatcher

end SnmpCollector.NetSnmp
