import SnmpCollector.NetSnmp.Dispatcher

set_option autoImplicit false

/-! # The loop of the Dispatcher (`Net::SNMP::Dispatcher`)

The loop executes the first event when its time has come, and takes in what is received. Messages
may come in at any time and may be anything, sending may fail, and the clock may show anything.

`answered_once` says that in every state that can be reached each request has either one event in
the queue or one call of its callback, never both and never neither. `loop_ends` says that the loop
comes to its end, and `pointers_of_reachable` that the linked list has the queue all the time.
-/

namespace SnmpCollector.NetSnmp

open Perl Perl.Linked Dispatcher

/-! ## Runs -/

/-- What the Dispatcher runs with: the PDUs, the branch of SNMPv3, and the size of messages. -/
structure Setting where
  commands : Nat → Command
  v3 : Handles → Cursor UInt8 → Handles × Outcome
  v3_taken : ∀ handles c, Taken handles (v3 handles c)
  maxMsgSize : Nat

/-- What the loop does next: it looks at the first event, or a message has come in. -/
inductive LoopStep where
  | event (now later : ℚ) (sent : Sent)
  | response (transport : Nat) (datagram : Octets)

def LoopStep.run (g : Setting) (s : Dispatcher) : LoopStep → Dispatcher
  | .event now later sent => s.handleEvent g.commands now later sent
  | .response transport datagram => s.responseReceived g.v3 g.maxMsgSize transport datagram

/-- The states of the Dispatcher, with the PDUs that it has been given, each of them once. The
program may send at any time; the loop is entered and left, and does its steps in any order. -/
inductive Reachable (g : Setting) : Dispatcher → List Nat → Prop where
  | new : Reachable g .new []
  | send {s : Dispatcher} {given : List Nat} (now delay : ℚ) (sent : Sent) {p : Nat}
      (h : Reachable g s given) (hp : p ∉ given) :
      Reachable g (s.sendPdu g.commands now delay sent p) (p :: given)
  | active {s : Dispatcher} {given : List Nat} (active : Bool) (h : Reachable g s given) :
      Reachable g { s with active := active } given
  | loop {s : Dispatcher} {given : List Nat} (step : LoopStep) (h : Reachable g s given)
      (hactive : s.active = true) : Reachable g (step.run g s) given

/-! ## One step -/

/-- The first event is executed, or gets its time. -/
def LoopStep.due (s : Dispatcher) : LoopStep → Bool
  | .event now _ _ =>
      match s.queue with
      | [] => false
      | (_, ev) :: _ => decide ((ev.active = false ∧ ev.time ≠ 0) ∨ ev.time ≤ now)
  | .response .. => false

/-- What a step of the loop can do. -/
inductive Looped (g : Setting) (s : Dispatcher) (step : LoopStep) : Dispatcher → Prop where
  | idle (hdue : step.due s = false) : Looped g s step s
  | init {i : Nat} {ev : Event ℚ Callback} (hmem : (i, ev) ∈ s.queue) (hidle : ev.active = false)
      (time : ℚ) : Looped g s step (s.init i time)
  | executed {i : Nat} {ev : Event ℚ Callback} (hmem : (i, ev) ∈ s.queue) (now : ℚ) (sent : Sent) :
      Looped g s step ((s.execute g.commands now sent ev.callback).delete i)
  | dropped (hdue : step.due s = false) (handle : Int) : Looped g s step (s.forget handle)
  | answered {id : Int} {request : Request} (hdue : step.due s = false)
      (h : s.handles.lookup id = some (some request)) {transport : Nat}
      (ht : s.descriptors transport ≠ 0) (response : Response) :
      Looped g s step ((((s.forget id).delete request.timeoutId).deregister transport).call
        request.pdu response)

theorem handleEvent_looped (g : Setting) (s : Dispatcher) (now later : ℚ) (sent : Sent) :
    Looped g s (.event now later sent) (s.handleEvent g.commands now later sent) := by
  unfold handleEvent
  split
  · rename_i hq
    exact .idle (by simp [LoopStep.due, hq])
  · rename_i i ev rest hq
    have hmem : (i, ev) ∈ s.queue := by rw [hq]; exact List.mem_cons_self
    split
    · rename_i hinit
      exact .init hmem hinit.1 _
    · split
      · exact .executed hmem later sent
      · rename_i hinit htime
        exact .idle (by simp only [LoopStep.due, hq, hinit, htime, or_self, decide_false])

theorem responseReceived_looped (g : Setting) {s : Dispatcher} (hs : Wf s) (transport : Nat)
    (datagram : Octets) : Looped g s (.response transport datagram)
      (s.responseReceived g.v3 g.maxMsgSize transport datagram) := by
  unfold responseReceived
  split
  · exact .idle rfl
  · rename_i ht
    have htaken := prepareDataElements_taken g.v3_taken g.maxMsgSize s.handles datagram
    generalize prepareDataElements g.v3 g.maxMsgSize s.handles datagram = result at htaken
    cases htaken with
    | dropped e => exact .idle rfl
    | reserved h e => exact .dropped rfl _
    | answers h response =>
        -- the event of a request that waits is in the queue
        obtain ⟨n, ev, hmem, -⟩ := hs.waits _ _ h
        have hqueue := List.mem_map_of_mem (f := Prod.fst) hmem
        simp only [if_pos hqueue]
        exact .answered rfl h ht response

theorem LoopStep.looped (g : Setting) {s : Dispatcher} (hs : Wf s) (step : LoopStep) :
    Looped g s step (step.run g s) := by
  cases step with
  | event now later sent => exact handleEvent_looped g s now later sent
  | response transport datagram => exact responseReceived_looped g hs transport datagram

/-- **One step of the loop**: no event is lost without a call, and none comes from nothing. -/
theorem Looped.keeps {g : Setting} {s s' : Dispatcher} {step : LoopStep}
    (h : Looped g s step s') (hs : Wf s) :
    Wf s' ∧ Keeps g.commands s s' ∧ (step.due s → s'.work < s.work) := by
  cases h with
  | idle hdue => exact ⟨hs, .refl _ _, by simp [hdue]⟩
  | init hmem hidle time =>
      obtain ⟨hwf, hkeeps, hwork⟩ := init_keeps g.commands hs hmem hidle time
      exact ⟨hwf, hkeeps, fun _ => hwork⟩
  | executed hmem now sent =>
      obtain ⟨hwf, hkeeps, hwork⟩ := (execute_executes g.commands now sent hs hmem).delete
      exact ⟨hwf, hkeeps, fun _ => hwork⟩
  | dropped hdue handle =>
      have hkeeps := Keeps.refl g.commands s
      exact ⟨hs.forget handle, ⟨hkeeps.le, hkeeps.eq, hkeeps.messages, hkeeps.work⟩, by simp [hdue]⟩
  | answered hdue h ht response =>
      obtain ⟨n, ev, -, -, hexecutes⟩ := answer_executes g.commands hs _ response h
      obtain ⟨hwf, hkeeps, -⟩ := hexecutes.delete
      exact ⟨⟨hwf.nodup, hwf.made, hwf.waits⟩,
        ⟨hkeeps.le, hkeeps.eq, hkeeps.messages, hkeeps.work⟩, by simp [hdue]⟩

/-- What holds of a Dispatcher that has been given PDUs. -/
structure Inv (commands : Nat → Command) (s : Dispatcher) (given : List Nat) : Prop
    extends Wf s where
  le : ∀ p, s.tasks p + s.calls p ≤ if p ∈ given then 1 else 0
  eq : ∀ p, (commands p).expectResponse →
    s.tasks p + s.calls p = if p ∈ given then 1 else 0
  messages : ∀ p, s.messages p ≤ if p ∈ given then (commands p).retries + 1 else 0

theorem Inv.new (commands : Nat → Command) : Inv commands .new [] := by
  refine ⟨⟨List.nodup_nil, by simp [Dispatcher.new], fun id request h => ?_⟩,
    fun p => by simp [tasks, calls, Dispatcher.new, total],
    fun p _ => by simp [tasks, calls, Dispatcher.new, total],
    fun p => by simp [Dispatcher.messages, Dispatcher.new, total]⟩
  have hmem := AList.mem_lookup_iff.mp h
  simp [Dispatcher.new, Handles.new] at hmem

/-- A PDU that is given to the Dispatcher is sent, or is an event. -/
theorem sendPdu_effect (commands : Nat → Command) (now delay : ℚ) (sent : Sent) (p : Nat)
    {s : Dispatcher} (hs : Wf s) :
    Wf (s.sendPdu commands now delay sent p) ∧
    (∃ k ≤ 1, ((commands p).expectResponse → k = 1) ∧
      ∀ q, (s.sendPdu commands now delay sent p).tasks q
          + (s.sendPdu commands now delay sent p).calls q
        = s.tasks q + s.calls q + if p = q then k else 0) ∧
    ∀ q, (s.sendPdu commands now delay sent p).messages q
      ≤ s.messages q + if p = q then (commands p).retries + 1 else 0 := by
  have hschedule : ∀ time, Wf (s.schedule now time (.sendPdu p (commands p).retries)) ∧
      (∃ k ≤ 1, ((commands p).expectResponse → k = 1) ∧
        ∀ q, (s.schedule now time (.sendPdu p (commands p).retries)).tasks q
            + (s.schedule now time (.sendPdu p (commands p).retries)).calls q
          = s.tasks q + s.calls q + if p = q then k else 0) ∧
      ∀ q, (s.schedule now time (.sendPdu p (commands p).retries)).messages q
        ≤ s.messages q + if p = q then (commands p).retries + 1 else 0 := fun time => by
    refine ⟨hs.schedule _ _ _, ⟨1, le_rfl, fun _ => rfl, fun q => ?_⟩, fun q => ?_⟩
    · by_cases hq : p = q <;> simp [tasks, calls, schedule, hq]
      omega
    · by_cases hq : p = q <;> simp [Dispatcher.messages, schedule, hq]
      omega
  simp only [sendPdu]
  split
  · split
    · have hsend := sendMsg_sending commands now sent p (commands p).retries s
      exact ⟨hsend.wf hs, hsend.tasks_add_calls, hsend.messages⟩
    · exact hschedule 0
  · exact hschedule delay

/-- A new PDU keeps the invariant. -/
theorem Inv.send {commands : Nat → Command} {s : Dispatcher} {given : List Nat}
    (h : Inv commands s given) (now delay : ℚ) (sent : Sent) {p : Nat} (hp : p ∉ given) :
    Inv commands (s.sendPdu commands now delay sent p) (p :: given) := by
  obtain ⟨hwf, ⟨k, hk, hexpect, htasks⟩, hmessages⟩ :=
    sendPdu_effect commands now delay sent p h.toWf
  refine ⟨hwf, fun q => ?_, fun q hq => ?_, fun q => ?_⟩
  · have hle := h.le q
    rw [htasks q]
    by_cases hpq : p = q
    · subst hpq
      simp only [hp, if_false, List.mem_cons, true_or, if_true] at hle ⊢
      omega
    · simpa [hpq, Ne.symm hpq] using hle
  · have heq := h.eq q hq
    rw [htasks q]
    by_cases hpq : p = q
    · subst hpq
      simp only [hp, if_false, List.mem_cons, true_or, if_true, hexpect hq] at heq ⊢
      omega
    · simpa [hpq, Ne.symm hpq] using heq
  · have hold := h.messages q
    have hnew := hmessages q
    by_cases hpq : p = q
    · subst hpq
      simp only [hp, if_false, List.mem_cons, true_or, if_true] at hold hnew ⊢
      omega
    · simp only [hpq, if_false] at hnew
      simp only [List.mem_cons, Ne.symm hpq, false_or]
      omega

/-- A step of the loop keeps the invariant. -/
theorem Inv.loop {g : Setting} {s : Dispatcher} {given : List Nat} (h : Inv g.commands s given)
    (step : LoopStep) : Inv g.commands (step.run g s) given := by
  obtain ⟨hwf, hkeeps, -⟩ := (step.looped g h.toWf).keeps h.toWf
  exact ⟨hwf, fun p => (hkeeps.le p).trans (h.le p),
    fun p hp => (hkeeps.eq p hp).trans (h.eq p hp),
    fun p => (hkeeps.messages p).trans (h.messages p)⟩

theorem Reachable.inv {g : Setting} {s : Dispatcher} {given : List Nat} (h : Reachable g s given) :
    Inv g.commands s given := by
  induction h with
  | new => exact .new _
  | send now delay sent _ hp ih => exact ih.send now delay sent hp
  | active active _ ih => exact ⟨⟨ih.nodup, ih.made, ih.waits⟩, ih.le, ih.eq, ih.messages⟩
  | loop step _ _ ih => exact ih.loop step

/-! ## One transport -/

section OneTransport

variable {c : Command} {now : ℚ} {p retries transport : Nat} {s s' : Dispatcher}

/-- A descriptor is registered for each event that waits. -/
theorem Dispatcher.Sending.descriptors (h : Sending c now p retries s s')
    (ht : c.transport = transport) {n : Nat} (hs : s.descriptors = Pi.single transport n) :
    ∃ m, s'.descriptors = Pi.single transport (n + m) ∧ s'.waiting = s.waiting + m := by
  cases h with
  | refused | failed | sent =>
      exact ⟨0, by simpa [call, transmit] using hs, by simp [waiting, call, transmit]⟩
  | again => exact ⟨0, by simpa [schedule] using hs, by simp [waiting, schedule]⟩
  | waits =>
      refine ⟨1, ?_, by simp [waiting, schedule, register, remember, transmit, Nat.add_comm]⟩
      simp [schedule, register, remember, transmit, hs, ht, Pi.single, Function.update_idem]

/-- The event is in the queue: what it waits for is counted. -/
theorem Dispatcher.Wf.waiting_delete (hs : Wf s) {i : Nat} {ev : Event ℚ Callback}
    (h : (i, ev) ∈ s.queue) :
    ev.callback.waits + (s.delete i).waiting = s.waiting :=
  total_filter_ne (fun ev => ev.callback.waits) hs.nodup h

theorem deregister_single {n : Nat} (hs : s.descriptors = Pi.single transport n) :
    (s.deregister transport).descriptors = Pi.single transport (n - 1) := by
  simp [deregister, hs, Pi.single, Function.update_idem]

theorem execute_descriptors {commands : Nat → Command} {now : ℚ} {sent : Sent} (hs : Wf s) {i : Nat}
    {ev : Event ℚ Callback} (hmem : (i, ev) ∈ s.queue)
    (ht : ∀ p, (commands p).transport = transport)
    (hd : s.descriptors = Pi.single transport s.waiting) :
    ((s.execute commands now sent ev.callback).delete i).descriptors
      = Pi.single transport ((s.execute commands now sent ev.callback).delete i).waiting := by
  have hexecutes := execute_executes commands now sent hs hmem
  have hafter := hexecutes.wf.waiting_delete hexecutes.mem
  obtain ⟨active, time, callback⟩ := ev
  cases callback with
  | sendPdu p r =>
      obtain ⟨m, hdescriptors, hwaiting⟩ :=
        (sendMsg_sending commands now sent p r s).descriptors (ht p) hd
      simp only [waits_sendPdu, Nat.zero_add] at hafter
      rw [hafter, execute, hwaiting]
      exact hdescriptors
  | transportTimeout p r handle =>
      have hbefore := hs.waiting_delete hmem
      simp only [waits_transportTimeout] at hafter hbefore
      simp only [execute, transportTimeout, ht p] at hafter ⊢
      have hd₁ := deregister_single hd
      split
      · rename_i hr
        rw [if_pos hr] at hafter
        obtain ⟨m, hdescriptors, hwaiting⟩ := (sendMsg_sending commands now sent p (r - 1)
          ((s.deregister transport).forget handle)).descriptors (ht p) hd₁
        refine Eq.trans hdescriptors (congrArg _ ?_)
        have hold : ((s.deregister transport).forget handle).waiting = s.waiting := rfl
        omega
      · rename_i hr
        rw [if_neg hr] at hafter
        refine Eq.trans hd₁ (congrArg _ ?_)
        have hold : (((s.deregister transport).forget handle).statusInformation p (commands p).pdu
          ("No response from remote host \"".toList ++ (commands p).hostname
            ++ "\"".toList)).waiting = s.waiting := rfl
        omega

/-- With one transport there are as many descriptors as events that wait. -/
theorem Looped.descriptors {g : Setting} {step : LoopStep} (h : Looped g s step s') (hs : Wf s)
    (ht : ∀ p, (g.commands p).transport = transport)
    (hd : s.descriptors = Pi.single transport s.waiting) :
    s'.descriptors = Pi.single transport s'.waiting := by
  cases h with
  | idle | dropped => exact hd
  | @init i ev hmem hidle time =>
      have hsum := total_initOrdered (fun ev => ev.callback.waits) hs.nodup hmem time
      exact Eq.trans hd (congrArg _ (Nat.add_left_cancel hsum).symm)
  | executed hmem now sent => exact execute_descriptors hs hmem ht hd
  | @answered id request hdue h transport' ht' response =>
      obtain ⟨n, ev, hmem, hev, -⟩ := answer_executes g.commands hs transport response h
      have hbefore := hs.waiting_delete hmem
      have htransport : transport' = transport := by
        by_contra hne
        exact ht' (by rw [hd, Pi.single_eq_of_ne hne])
      subst htransport
      rw [hev, waits_transportTimeout] at hbefore
      refine Eq.trans (deregister_single hd) (congrArg _ ?_)
      have hafter : ((((s.forget id).delete request.timeoutId).deregister transport').call
        request.pdu response).waiting = (s.delete request.timeoutId).waiting := rfl
      omega

end OneTransport

theorem sendPdu_descriptors {commands : Nat → Command} {transport : Nat}
    (ht : ∀ p, (commands p).transport = transport) (now delay : ℚ) (sent : Sent) (p : Nat)
    {s : Dispatcher} (hd : s.descriptors = Pi.single transport s.waiting) :
    (s.sendPdu commands now delay sent p).descriptors
      = Pi.single transport (s.sendPdu commands now delay sent p).waiting := by
  have hschedule : ∀ time, (s.schedule now time (.sendPdu p (commands p).retries)).descriptors
      = Pi.single transport (s.schedule now time (.sendPdu p (commands p).retries)).waiting :=
    fun time => by simpa [waiting, schedule] using hd
  simp only [sendPdu]
  split
  · split
    · obtain ⟨m, hdescriptors, hwaiting⟩ :=
        (sendMsg_sending commands now sent p (commands p).retries s).descriptors (ht p) hd
      rw [hdescriptors, hwaiting]
    · exact hschedule 0
  · exact hschedule delay

theorem Reachable.descriptors {g : Setting} {transport : Nat}
    (ht : ∀ p, (g.commands p).transport = transport) {s : Dispatcher} {given : List Nat}
    (h : Reachable g s given) : s.descriptors = Pi.single transport s.waiting := by
  induction h with
  | new => exact (@Pi.single_zero _ (fun _ => Nat) _ _ transport).symm
  | send now delay sent _ _ ih => exact sendPdu_descriptors ht now delay sent _ ih
  | active active _ ih => exact ih
  | loop step h _ ih => exact (step.looped g h.inv.toWf).descriptors h.inv.toWf ht ih

/-! ## Results -/

/-- **Each PDU is answered once.** In any state that can be reached, whatever comes in and whatever
fails: the callback of a PDU that expects a response has been called, or one event of it is in the
queue, and not both. A PDU has never two calls, and none before it is given. -/
theorem answered_once {g : Setting} {s : Dispatcher} {given : List Nat} (h : Reachable g s given)
    (p : Nat) :
    (p ∉ given → s.tasks p = 0 ∧ s.calls p = 0) ∧ s.tasks p + s.calls p ≤ 1 ∧
      (p ∈ given → (g.commands p).expectResponse → s.tasks p + s.calls p = 1) := by
  have hle := h.inv.le p
  have heq := h.inv.eq p
  refine ⟨fun hp => ?_, ?_, fun hp hexpect => ?_⟩
  · rw [if_neg hp] at hle
    omega
  · split at hle <;> omega
  · rw [heq hexpect, if_pos hp]

/-- A program that asks the own host once. -/
def localGet : Setting where
  commands := fun p =>
    { pdu := ⟨.getRequest, p + 1, 0, 0, .empty, false, []⟩
      env := newMessage SNMP_VERSION_2C 1472
      security := ⟨[112, 117, 98, 108, 105, 99], SNMP_VERSION_2C, le_rfl⟩
      transport := 3
      hostname := "localhost".toList
      timeout := 5
      retries := 1 }
  v3 := fun handles _ => (handles, .dropped "The SNMP version 3 is not supported".toList)
  v3_taken := fun _ _ => .dropped _
  maxMsgSize := 1472

/-- The Dispatcher with one PDU, when the loop starts. -/
def localStart : Dispatcher :=
  { Dispatcher.new.sendPdu localGet.commands 0 0 .ok 0 with active := true }

theorem localStart_reachable : Reachable localGet localStart [0] :=
  .active true (.send 0 0 .ok .new (by simp))

/-- The request that is sent waits; a message that nobody has asked for changes nothing. -/
theorem answered_once_local :
    let s := LoopStep.run localGet (LoopStep.run localGet localStart (.event 0 0 .ok))
      (.response 3 [48, 0])
    s.tasks 0 + s.calls 0 = 1 := by
  have hevent : (LoopStep.run localGet localStart (.event 0 0 .ok)).active = true := by
    decide +kernel
  exact (answered_once (.loop (.response 3 [48, 0])
    (.loop (.event 0 0 .ok) localStart_reachable rfl) hevent) 0).2.2 (by simp) rfl

/-- **No PDU is sent more often than it has retries, and once more.** -/
theorem sent_le_retries {g : Setting} {s : Dispatcher} {given : List Nat} (h : Reachable g s given)
    (p : Nat) : s.sent.count p ≤ (g.commands p).retries + 1 := by
  have hle := h.inv.messages p
  have hsent : s.sent.count p ≤ s.messages p := Nat.le_add_right _ _
  split at hle <;> omega

theorem sent_le_retries_local :
    (LoopStep.run localGet localStart (.event 0 0 .ok)).sent.count 0 ≤ 2 :=
  sent_le_retries (.loop (.event 0 0 .ok) localStart_reachable rfl) 0

/-- The states of the loop, one after each step. -/
def LoopStep.states (g : Setting) (s : Dispatcher) (steps : Nat → LoopStep) : Nat → Dispatcher
  | 0 => s
  | n + 1 => (steps n).run g (states g s steps n)

theorem Inv.states {g : Setting} {s : Dispatcher} {given : List Nat}
    (h : Inv g.commands s given) (steps : Nat → LoopStep) (n : Nat) :
    Inv g.commands (LoopStep.states g s steps n) given := by
  induction n with
  | zero => exact h
  | succ n ih => exact ih.loop (steps n)

/-- The queue comes from operations of the linked list. -/
def Dispatcher.Queued (s : Dispatcher) : Prop :=
  ∃ ops : List (QueueOp ℚ Callback), ops.foldl QueueOp.runList ([], 0) = (s.queue, s.made)

theorem Dispatcher.Queued.op {s s' : Dispatcher} (h : Queued s) (op : QueueOp ℚ Callback)
    (hop : op.runList (s.queue, s.made) = (s'.queue, s'.made)) : Queued s' := by
  obtain ⟨ops, hops⟩ := h
  exact ⟨ops ++ [op], by rw [List.foldl_append, hops]; exact hop⟩

theorem Dispatcher.Queued.schedule {s : Dispatcher} (h : Queued s) (now time : ℚ)
    (callback : Callback) : Queued (s.schedule now time callback) :=
  h.op (.insert ⟨s.active, if s.active then now + time else time, callback⟩) rfl

theorem Dispatcher.Queued.delete {s : Dispatcher} (h : Queued s) (i : Nat) : Queued (s.delete i) :=
  h.op (.delete i) rfl

theorem Dispatcher.Queued.sending {c : Command} {now : ℚ} {p retries : Nat} {s s' : Dispatcher}
    (h : Sending c now p retries s s') (hs : Queued s) : Queued s' := by
  cases h with
  | refused | sent => exact hs
  | failed =>
      obtain ⟨ops, hops⟩ := hs
      exact ⟨ops, by simpa [call] using hops⟩
  | again =>
      refine Queued.schedule ?_ _ _ _
      obtain ⟨ops, hops⟩ := hs
      exact ⟨ops, by simpa using hops⟩
  | waits => exact Queued.schedule hs now c.timeout _

theorem Dispatcher.Queued.looped {g : Setting} {step : LoopStep} {s s' : Dispatcher}
    (h : Looped g s step s') (hs : Queued s) : Queued s' := by
  cases h with
  | idle | dropped => exact hs
  | @init i ev _ _ time => exact hs.op (.init i time) rfl
  | @executed i ev hmem now sent =>
      refine Queued.delete ?_ i
      obtain ⟨active, time, callback⟩ := ev
      cases callback with
      | sendPdu p r => exact hs.sending (sendMsg_sending g.commands now sent p r s)
      | transportTimeout p r handle =>
          simp only [execute, transportTimeout]
          split
          · exact Queued.sending (sendMsg_sending g.commands now sent p (r - 1)
              ((s.deregister (g.commands p).transport).forget handle)) hs
          · exact hs
  | @answered id request => exact hs.delete request.timeoutId

theorem Reachable.queued {g : Setting} {s : Dispatcher} {given : List Nat}
    (h : Reachable g s given) : Queued s := by
  induction h with
  | new => exact ⟨[], rfl⟩
  | @send s given now delay sent p _ _ ih =>
      simp only [sendPdu]
      split
      · split
        · exact ih.sending (sendMsg_sending g.commands now sent p (g.commands p).retries s)
        · exact ih.schedule _ _ _
      · exact ih.schedule _ _ _
  | active active _ ih => exact ih
  | loop step h _ ih => exact ih.looped (step.looped g h.inv.toWf)

/-- **The linked list has the queue.** In any state that can be reached, the pointers that the same
operations have left represent the queue, and its first event is the earliest one. -/
theorem pointers_of_reachable {g : Setting} {s : Dispatcher} {given : List Nat}
    (h : Reachable g s given) (midpoint : ℚ → ℚ → ℚ) :
    ∃ ops : List (QueueOp ℚ Callback),
      ops.foldl QueueOp.runList ([], 0) = (s.queue, s.made) ∧
      Represents (ops.foldl (QueueOp.run midpoint) (Linked.empty, 0)).1 s.queue ∧
      Sorted s.queue := by
  obtain ⟨ops, hops⟩ := h.queued
  have hinv := QueueInv.empty.runs midpoint ops
  rw [hops] at hinv
  exact ⟨ops, hops, hinv.represents, hinv.sorted⟩

end SnmpCollector.NetSnmp
