import Zmqtt.InboundRules

/-!
# Messages that go to detached entries

A message is refused when its recipient is an entry that is detached.  Nothing of it stays
behind: no task works on it, no flow is registered for it, and it is in no queue.  So a message
that is refused each time it is routed is never acknowledged, neither at once nor later by the
application.
-/

namespace Zmqtt

/-- The event acknowledges the message, or registers it as a QoS 2 flow. -/
def InboundEvent.admits (seq : Nat) : InboundEvent → Bool
  | .sentPuback other _ => decide (other = seq)
  | .accepted other _ => decide (other = seq)
  | .acked other => decide (other = seq)
  | _ => false

/-- The task works on the message. -/
def Frame.carries (seq : Nat) : Frame → Bool
  | .delivering recipient _ _ => decide (recipient.message.seq = seq)
  | .putting recipient _ _ _ => decide (recipient.message.seq = seq)
  | .completing other _ => decide (other = seq)
  | .sending (some recipient) => decide (recipient.message.seq = seq)
  | _ => false

namespace InboundPublishFlow

/-- Nothing of the message is left but its arrival. -/
structure Untouched (seq : Nat) (s : InboundPublishFlow) : Prop where
  log : ∀ event ∈ s.log, event.admits seq = false
  frames : ∀ item ∈ s.frames, item.2.carries seq = false
  flights : ∀ item ∈ s.inflightQos2In, item.2.recipient.message.seq ≠ seq
  queued : ∀ item ∈ s.queued, item.2.seq ≠ seq
  taken : ∀ message ∈ s.taken, message.seq ≠ seq

/-- The index is the same, and a message that was untouched still is. -/
structure Passes (seq : Nat) (s t : InboundPublishFlow) : Prop where
  subscriptions : t.subscriptions = s.subscriptions
  detached : t.detached = s.detached
  untouched : s.Untouched seq → t.Untouched seq

/-- The message goes to a detached entry. -/
def Refuses (s : InboundPublishFlow) (received : Received) (claim : Option Nat) : Prop :=
  claim = none ∧ ∃ item, (s.selectSubscription received.publish).recipient = some item ∧
    item.2.oid ∈ s.detached

/-- A round of a drain passes over the message, as it has no recipient. -/
def PassesOver (s : InboundPublishFlow) (received : Received) (claim : Option Nat) : Prop :=
  claim = none ∧ (s.selectSubscription received.publish).recipient = none

variable {seq : Nat} {s t u : InboundPublishFlow} {frame : Frame}

theorem Passes.refl (seq : Nat) (s : InboundPublishFlow) : Passes seq s s :=
  ⟨rfl, rfl, fun h => h⟩

theorem Passes.trans (h : Passes seq s t) (h' : Passes seq t u) : Passes seq s u :=
  ⟨h'.subscriptions.trans h.subscriptions, h'.detached.trans h.detached,
    fun hs => h'.untouched (h.untouched hs)⟩

/-- Only the log and the state of the replay change. -/
theorem Passes.of_log (new : List InboundEvent)
    (hsubscriptions : t.subscriptions = s.subscriptions) (hdetached : t.detached = s.detached)
    (hframes : t.frames = s.frames)
    (hflights : t.inflightQos2In = s.inflightQos2In) (hqueued : t.queued = s.queued)
    (htaken : t.taken = s.taken) (hlog : t.log = new ++ s.log)
    (hnew : ∀ event ∈ new, event.admits seq = false) : Passes seq s t := by
  refine ⟨hsubscriptions, hdetached, fun h => ⟨?_, ?_, ?_, ?_, ?_⟩⟩
  · rw [hlog]
    intro event hevent
    exact (List.mem_append.mp hevent).elim (hnew event) (h.log event)
  · rw [hframes]
    exact h.frames
  · rw [hflights]
    exact h.flights
  · rw [hqueued]
    exact h.queued
  · rw [htaken]
    exact h.taken

/-- An event that admits nothing. -/
theorem passes_emit (s : InboundPublishFlow) {event : InboundEvent}
    (hevent : event.admits seq = false) : Passes seq s (s.emit event) :=
  .of_log [event] rfl rfl rfl rfl rfl rfl rfl (by simpa using hevent)

theorem passes_setReplay (s : InboundPublishFlow) (replay : Replay) :
    Passes seq s (s.setReplay replay) :=
  .of_log [] rfl rfl rfl rfl rfl rfl rfl (by simp)

theorem passes_complete (s : InboundPublishFlow) (packetId : Int) {event : InboundEvent}
    (hevent : event.admits seq = false) : Passes seq s (s.complete packetId event) :=
  .of_log [event] rfl rfl rfl rfl rfl rfl rfl (by simpa using hevent)

theorem passes_dropAll (s : InboundPublishFlow) (dropped : List Received) :
    Passes seq s (s.dropAll dropped) := by
  refine .of_log _ rfl rfl rfl rfl rfl rfl rfl fun event hevent => ?_
  obtain ⟨received, -, rfl⟩ := List.mem_map.mp (List.mem_reverse.mp hevent)
  rfl

/-- A flow is registered for another message. -/
theorem passes_sendPubrec (s : InboundPublishFlow) (pid : Int) {flight : InboundQoS2Flight}
    (hflight : flight.recipient.message.seq ≠ seq) : Passes seq s (s.sendPubrec pid flight) := by
  refine ⟨rfl, rfl, fun h => ⟨?_, h.frames, fun item hitem => ?_, h.queued, h.taken⟩⟩
  · exact ((passes_emit s (by rfl)).untouched h).log
  · rcases OrderedDict.mem_of_mem_set hitem with hold | rfl
    · exact h.flights item hold
    · exact hflight

/-! ## A task at a message -/

/-- A write works on the message it sends next only. -/
theorem carries_sent (write : WriteOutcome) {next : Option InboundRecipient}
    (h : ∀ recipient, next = some recipient → recipient.message.seq ≠ seq) :
    (sent write next).carries seq = false := by
  cases next with
  | none => cases write <;> rfl
  | some recipient =>
      have hseq : decide (recipient.message.seq = seq) = false := by simpa using h recipient rfl
      cases write with
      | done => exact hseq
      | suspended => exact hseq
      | failed => rfl

theorem carries_afterDelivery {other : Nat} (hother : other ≠ seq) (puback : Option Int) :
    (afterDelivery other puback).carries seq = false := by
  cases puback with
  | none => rfl
  | some pid => simpa [afterDelivery, Frame.carries] using hother

theorem passes_deliver (s : InboundPublishFlow) {recipient : InboundRecipient}
    (ackCallback : Option AckCallback) (puback : Option Int)
    (hseq : recipient.message.seq ≠ seq) :
    Passes seq s (s.deliver recipient ackCallback puback).1 ∧
      (s.deliver recipient ackCallback puback).2.carries seq = false := by
  unfold deliver
  simp only
  split
  · exact ⟨passes_emit s rfl, carries_afterDelivery hseq puback⟩
  · exact ⟨Passes.refl seq s, carries_afterDelivery hseq puback⟩
  · split
    · exact ⟨passes_emit s rfl, rfl⟩
    · exact ⟨passes_emit s rfl, by simpa [Frame.carries] using hseq⟩

theorem passes_finishPut (s : InboundPublishFlow) {recipient : InboundRecipient}
    (entry : SubscriptionEntry) (ackCallback : Option AckCallback) (puback : Option Int)
    (hseq : recipient.message.seq ≠ seq) :
    Passes seq s (s.finishPut recipient entry ackCallback puback).1 ∧
      (s.finishPut recipient entry ackCallback puback).2.carries seq = false := by
  have hpushed : ∀ item ∈ (s.push entry.queue
      (withCallback recipient.message entry ackCallback)).queued,
      s.Untouched seq → item.2.seq ≠ seq := by
    intro item hitem h
    rcases List.mem_append.mp hitem with hold | hnew
    · exact h.queued item hold
    · rw [List.mem_singleton.mp hnew]
      exact (withCallback_seq _ _ _).trans_ne hseq
  unfold finishPut
  simp only
  split
  · obtain ⟨found, hfound⟩ := getNowait_push s entry.queue
      (withCallback recipient.message entry ackCallback)
    refine ⟨⟨rfl, rfl, fun h => ⟨?_, h.frames, h.flights, fun item hitem => ?_, h.taken⟩⟩, rfl⟩
    · exact ((passes_emit s (by rfl)).untouched h).log
    · rw [hfound] at hitem
      exact hpushed item ((getNowait_mem hfound).2 item hitem) h
  · refine ⟨⟨rfl, rfl, fun h => ⟨?_, h.frames, h.flights, fun item hitem => ?_, h.taken⟩⟩,
      carries_afterDelivery hseq puback⟩
    · exact ((passes_emit s (by rfl)).untouched h).log
    · exact hpushed item hitem h

/-- A call of a task that works on another message. -/
theorem passes_advance (write : WriteOutcome) (s : InboundPublishFlow)
    (h : frame.carries seq = false) :
    Passes seq s (advance write (s, frame)).1 ∧
      (advance write (s, frame)).2.carries seq = false := by
  cases frame with
  | delivering recipient ackCallback puback =>
      exact passes_deliver s ackCallback puback (by simpa [Frame.carries] using h)
  | putting recipient entry ackCallback puback =>
      simp only [advance]
      split
      · exact ⟨Passes.refl seq s, h⟩
      · exact passes_finishPut s entry ackCallback puback (by simpa [Frame.carries] using h)
  | completing other packetId =>
      refine ⟨passes_complete s packetId h, carries_sent write fun recipient hnone => ?_⟩
      cases hnone
  | sending next => exact ⟨Passes.refl seq s, h⟩
  | returned => exact ⟨Passes.refl seq s, h⟩
  | raised error => exact ⟨Passes.refl seq s, h⟩

/-- The calls of a task that works on another message. -/
theorem passes_settle (write : WriteOutcome) {x : InboundPublishFlow × Frame}
    (h : x.2.carries seq = false) :
    Passes seq x.1 (settle write x).1 ∧ (settle write x).2.carries seq = false := by
  obtain ⟨hfirst, hframe⟩ := passes_advance write x.1 h
  obtain ⟨hsecond, hframe⟩ := passes_advance write (advance write x).1 hframe
  obtain ⟨hthird, hframe⟩ := passes_advance write (advance write (advance write x)).1 hframe
  exact ⟨(hfirst.trans hsecond).trans hthird, hframe⟩

/-! ## A message is routed -/

/-- Another message is routed. -/
theorem passes_deliverReplay (s : InboundPublishFlow) {received : Received}
    {recipient : InboundRecipient} (write : WriteOutcome)
    (hmessage : recipient.message = makeMessage received) (hseq : received.seq ≠ seq) :
    Passes seq s (s.deliverReplay received recipient write).1 ∧
      (s.deliverReplay received recipient write).2.carries seq = false := by
  have hcarried : recipient.message.seq ≠ seq := by
    rw [hmessage]
    exact hseq
  have hframe : ∀ ackCallback puback,
      (Frame.delivering recipient ackCallback puback).carries seq = false := by
    intro ackCallback puback
    simpa [Frame.carries] using hcarried
  have hrouted : Passes seq s (s.emit (.routed received.seq)) := passes_emit s rfl
  have haccepted : ∀ (t : InboundPublishFlow) pid,
      Passes seq t (t.emit (.accepted received.seq pid)) := by
    intro t pid
    exact passes_emit t (by simpa [InboundEvent.admits] using hseq)
  simp only [deliverReplay, deliverQos1Publish, acceptQos2Publish]
  split
  · exact ⟨hrouted, hframe _ _⟩
  · split
    · exact ⟨hrouted, rfl⟩
    · split
      · exact ⟨hrouted, hframe _ _⟩
      · exact ⟨hrouted, hframe _ _⟩
  · split
    · exact ⟨hrouted, rfl⟩
    · exact ⟨hrouted.trans (passes_emit _ rfl), rfl⟩
    · split
      · refine ⟨(hrouted.trans (haccepted _ _)).trans (passes_sendPubrec _ _ hcarried), ?_⟩
        exact carries_sent write (fun other hnone => by cases hnone)
      · have hpending : ∀ (t : InboundPublishFlow) pid, Passes seq t (t.addPendingAck pid) :=
          fun t pid => .of_log [] rfl rfl rfl rfl rfl rfl rfl (by simp)
        exact ⟨(hrouted.trans (hpending _ _)).trans (haccepted _ _), hframe _ _⟩

/-- A message for a detached entry is refused in the step that routes it. -/
theorem settle_deliverReplay_refused {received : Received} {recipient : InboundRecipient}
    {item : IndexItem} (write : WriteOutcome) (hrequest : recipient.request = none)
    (hitem : recipient.subscription = some item) (hdetached : item.2.oid ∈ s.detached) :
    Passes seq s (settle write (s.deliverReplay received recipient write)).1 ∧
      (settle write (s.deliverReplay received recipient write)).2.carries seq = false := by
  have hrouted : Passes seq s (s.emit (.routed received.seq)) := passes_emit s rfl
  have hrefused : ∀ ackCallback puback,
      settle write (s.emit (.routed received.seq), .delivering recipient ackCallback puback) =
        ((s.emit (.routed received.seq)).emit (.refused recipient.message.seq item.2.oid),
          .returned) := by
    intro ackCallback puback
    have hdeliver : (s.emit (.routed received.seq)).deliver recipient ackCallback puback =
        ((s.emit (.routed received.seq)).emit (.refused recipient.message.seq item.2.oid),
          .returned) := by
      simp only [deliver, hrequest, hitem]
      exact if_pos hdetached
    simp only [settle, advance, hdeliver]
  have hdelivered : ∀ ackCallback puback,
      Passes seq s (settle write (s.emit (.routed received.seq),
        .delivering recipient ackCallback puback)).1 ∧
      (settle write (s.emit (.routed received.seq),
        .delivering recipient ackCallback puback)).2.carries seq = false := by
    intro ackCallback puback
    rw [hrefused]
    exact ⟨hrouted.trans (passes_emit _ rfl), rfl⟩
  simp only [deliverReplay, deliverQos1Publish, acceptQos2Publish]
  split
  · exact hdelivered _ _
  · split
    · exact ⟨hrouted, rfl⟩
    · split
      · exact hdelivered _ _
      · exact hdelivered _ _
  · have hentry : (s.emit (.routed received.seq)).detachedEntry recipient = some item.2.oid := by
      simp only [detachedEntry, hitem, Option.bind_some]
      exact if_pos hdetached
    rw [hentry]
    split
    · exact ⟨hrouted, rfl⟩
    · exact ⟨hrouted.trans (passes_emit _ rfl), rfl⟩
    · contradiction

/-- A message that is routed is another one, or it is refused. -/
theorem passes_routed {received : Received} {claim : Option Nat} (write : WriteOutcome)
    (h : received.seq = seq → s.Refuses received claim) :
    Passes seq s (settle write
        (s.deliverReplay received (s.selectRecipient received claim) write)).1 ∧
      (settle write
        (s.deliverReplay received (s.selectRecipient received claim) write)).2.carries seq =
          false := by
  by_cases hseq : received.seq = seq
  · obtain ⟨rfl, item, hitem, hdetached⟩ := h hseq
    exact settle_deliverReplay_refused write rfl hitem hdetached
  · obtain ⟨hrouted, hframe⟩ := passes_deliverReplay s write
      (s.selectRecipient_message received claim) hseq
    obtain ⟨hsettled, hframe⟩ := passes_settle write hframe
    exact ⟨hrouted.trans hsettled, hframe⟩

/-- A message is held. -/
theorem passes_hold (s : InboundPublishFlow) (b : Nat) (buffer : ReplayBuffer)
    (received : Received) : Passes seq s (s.hold b buffer received).1 := by
  unfold hold
  split
  · exact Passes.refl seq s
  · split
    · exact (passes_emit s rfl).trans (passes_emit _ rfl)
    · exact (passes_setReplay s _).trans (passes_emit _ rfl)

/-- A message that the replay buffer takes, or refuses to take. -/
theorem passes_held {received : Received} {claim : Option Nat} (write : WriteOutcome) {b : Nat}
    {buffer : ReplayBuffer}
    (h : s.selectRecipientOrBuffer received claim = t.hold b buffer received)
    (hs : Passes seq s t) :
    Passes seq s (settle write (s.route received claim write)).1 ∧
      (settle write (s.route received claim write)).2.carries seq = false := by
  have hhold := hs.trans (passes_hold t b buffer received)
  obtain ⟨frame, hroute, rfl | ⟨e, rfl⟩⟩ := route_held h write
  · rw [hroute]
    exact ⟨hhold, rfl⟩
  · rw [hroute]
    exact ⟨hhold, rfl⟩

/-- A PUBLISH is delivered to its recipient, or refused. -/
theorem passes_route (received : Received) {claim : Option Nat} (write : WriteOutcome)
    (h : received.seq = seq → s.Refuses received claim) :
    Passes seq s (settle write (s.route received claim write)).1 ∧
      (settle write (s.route received claim write)).2.carries seq = false := by
  rcases s.selectRecipientOrBuffer_cases received claim with
    ⟨-, hselect⟩ | ⟨-, -, -, hselect⟩ | ⟨b, -, hselect⟩ | ⟨-, hselect⟩
  · simp only [route, hselect]
    exact passes_routed write h
  · simp only [route, hselect]
    obtain ⟨hrouted, hframe⟩ := passes_routed (s := s.emit (.noSubscriber received.seq)) write h
    exact ⟨(passes_emit s rfl).trans hrouted, hframe⟩
  · exact passes_held write hselect (Passes.refl seq s)
  · exact passes_held write hselect (passes_setReplay s _)

theorem passes_arrived (s : InboundPublishFlow) (packet : Publish) :
    Passes seq s (s.arrived packet) := by
  rw [arrived_frame]
  exact .of_log [.receivedPublish { seq := s.nextSeq, publish := packet }] rfl rfl rfl rfl rfl rfl
    rfl (by simp [InboundEvent.admits])

/-- A PUBLISH arrives. -/
theorem passes_handlePublish {packet : Publish} {claim : Option Nat} (write : WriteOutcome)
    (h : s.nextSeq = seq → s.Refuses { seq := s.nextSeq, publish := packet } claim) :
    Passes seq s (settle write (s.handlePublish packet claim write)).1 ∧
      (settle write (s.handlePublish packet claim write)).2.carries seq = false := by
  have harrived : Passes seq s (s.arrived packet) := passes_arrived s packet
  rcases s.handlePublish_cases packet claim write with
    ⟨-, -, heq⟩ | ⟨-, msg, heq⟩ | ⟨-, -, heq⟩ | ⟨-, -, pid, flight, -, -, heq⟩ | ⟨-, -, -, heq⟩
  · rw [heq]
    exact ⟨harrived, rfl⟩
  · rw [heq]
    exact ⟨harrived.trans (passes_emit _ rfl), rfl⟩
  · rw [heq]
    exact ⟨harrived, rfl⟩
  · rw [heq]
    have hframe : (sent write none).carries seq = false :=
      carries_sent write (fun recipient hnone => by cases hnone)
    obtain ⟨hsettled, hframe⟩ := passes_settle (x := ((s.arrived packet).emit _, _)) write hframe
    exact ⟨(harrived.trans (passes_emit _ rfl)).trans hsettled, hframe⟩
  · rw [heq]
    have hrefuses : s.nextSeq = seq →
        (s.arrived packet).Refuses { seq := s.nextSeq, publish := packet } claim := by
      intro hseq
      rw [arrived_frame]
      exact h hseq
    obtain ⟨hrouted, hframe⟩ := passes_route { seq := s.nextSeq, publish := packet } write hrefuses
    exact ⟨harrived.trans hrouted, hframe⟩

/-- A PUBREL ends the flow of another message. -/
theorem passes_handlePubrel (s : InboundPublishFlow) (packet : PubReply) (write : WriteOutcome)
    (h : s.Untouched seq) :
    Passes seq s (settle write (s.handlePubrel packet write)).1 ∧
      (settle write (s.handlePubrel packet write)).2.carries seq = false := by
  have hreceived : Passes seq s (s.emit (.receivedPubrel packet.packetId)) := passes_emit s rfl
  simp only [handlePubrel]
  split
  · have hframe : (sent write none).carries seq = false :=
      carries_sent write (fun recipient hnone => by cases hnone)
    obtain ⟨hsettled, hframe⟩ := passes_settle (x := ((s.emit _).emit _, _)) write hframe
    exact ⟨(hreceived.trans (passes_emit _ rfl)).trans hsettled, hframe⟩
  · rename_i flight hget
    have hflight := h.flights (_, flight) (OrderedDict.mem_of_get hget)
    have hclosed : Passes seq (s.emit (.receivedPubrel packet.packetId))
        ((s.emit (.receivedPubrel packet.packetId)).closeFlight packet.packetId flight) := by
      refine ⟨rfl, rfl, fun h => ⟨?_, h.frames, fun item hitem => ?_, h.queued, h.taken⟩⟩
      · exact ((passes_emit _ (by rfl)).untouched h).log
      · exact h.flights item (OrderedDict.mem_of_mem_pop hitem)
    have hframe : (sent write (if flight.delivered then none else some flight.recipient)).carries
        seq = false := by
      apply carries_sent
      intro recipient hsome
      split at hsome
      · cases hsome
      · cases hsome
        exact hflight
    obtain ⟨hsettled, hframe⟩ := passes_settle (x := ((s.emit _).closeFlight _ _, _)) write hframe
    exact ⟨(hreceived.trans hclosed).trans hsettled, hframe⟩

/-! ## Steps -/

theorem carries_resumed (ok : Bool) (h : frame.carries seq = false) :
    (resumed frame ok).carries seq = false := by
  unfold resumed
  cases ok with
  | false => rfl
  | true =>
      cases frame with
      | sending next =>
          cases next with
          | none => rfl
          | some recipient => exact h
      | _ => exact h

/-- A task takes up its message again. -/
theorem passes_pop (s : InboundPublishFlow) (o : Owner) :
    Passes seq s { s with frames := OrderedDict.pop s.frames o } :=
  ⟨rfl, rfl, fun h => ⟨h.log, fun item hitem => h.frames item (OrderedDict.mem_of_mem_pop hitem),
    h.flights, h.queued, h.taken⟩⟩

theorem passes_store (s : InboundPublishFlow) (o : Owner) (h : frame.carries seq = false) :
    Passes seq s { s with frames := OrderedDict.set s.frames o frame } := by
  refine ⟨rfl, rfl, fun hs => ⟨hs.log, fun item hitem => ?_, hs.flights, hs.queued, hs.taken⟩⟩
  rcases OrderedDict.mem_of_mem_set hitem with hold | rfl
  · exact hs.frames item hold
  · exact h

theorem passes_storeReader {x : InboundPublishFlow × Frame} (hs : Passes seq s x.1)
    (h : x.2.carries seq = false) : Passes seq s (storeReader x) := by
  obtain ⟨t, frame⟩ := x
  have hended : ∀ error, Passes seq t { t with ended := some error } :=
    fun error => .of_log [] rfl rfl rfl rfl rfl rfl rfl (by simp)
  cases frame with
  | returned => exact hs
  | raised error => exact hs.trans (hended error)
  | _ => exact hs.trans (passes_store t .reader h)

theorem passes_raiseFromTask (s : InboundPublishFlow) (i : Nat) (task : ReplayTask)
    (unmatched pending : List Received) :
    Passes seq s (s.raiseFromTask i task unmatched pending) := by
  simp only [raiseFromTask]
  split
  · split
    · exact passes_setReplay s _
    · exact (passes_setReplay s _).trans (passes_emit _ rfl)
  · exact passes_setReplay s _

theorem passes_storeTask {i : Nat} {task : ReplayTask} {unmatched pending : List Received}
    {current : Received} {x : InboundPublishFlow × Frame} (hs : Passes seq s x.1)
    (h : x.2.carries seq = false) :
    Passes seq s (storeTask i task unmatched pending current x) := by
  obtain ⟨t, frame⟩ := x
  cases frame with
  | returned =>
      simp only [storeTask]
      split
      · exact (hs.trans (passes_setReplay t _)).trans (passes_raiseFromTask _ _ _ _ _)
      · exact (hs.trans (passes_setReplay t _)).trans (passes_setReplay _ _)
  | raised error => exact hs.trans (passes_raiseFromTask _ _ _ _ _)
  | _ => exact hs.trans (passes_store t (.task i) h)

theorem PassesOver.unready {received : Received} {claim : Option Nat}
    (h : s.PassesOver received claim) :
    s.unready (s.selectRecipient received claim) = true := by
  obtain ⟨rfl, hnone⟩ := h
  simp [InboundPublishFlow.unready, selectRecipient, hnone]

/-- A round of a drain in which the message is refused or passed over. -/
theorem passes_deliverNext {i : Nat} {task : ReplayTask} {claim : Option Nat}
    {write : WriteOutcome} (hnext : s.deliverNext i task claim write = some t)
    (h : ∀ unmatched received pending, task.phase = .looping unmatched (received :: pending) →
      received.seq = seq → s.Refuses received claim ∨ s.PassesOver received claim) :
    Passes seq s t := by
  rcases deliverNext_cases hnext with ⟨unmatched, -, -, -, rfl⟩ | ⟨unmatched, -, -, -, rfl⟩ |
    ⟨unmatched, -, rfl⟩ | ⟨unmatched, received, pending, -, rfl⟩ |
    ⟨unmatched, received, pending, hphase, hready, rfl⟩
  · exact (passes_setReplay s _).trans (passes_dropAll _ _)
  · simp only [finishDrain]
    split <;> exact passes_setReplay s _
  · exact passes_setReplay s _
  · exact passes_setReplay s _
  · have hrefuses : received.seq = seq →
        (s.setReplay (s.replay.setPhase i (.delivering unmatched pending received))).Refuses
          received claim := by
      intro hseq
      rcases h unmatched received pending hphase hseq with hrefuses | hover
      · exact hrefuses
      · rw [hover.unready] at hready
        cases hready
    obtain ⟨hrouted, hframe⟩ := passes_routed write hrefuses
    exact passes_storeTask ((passes_setReplay s _).trans hrouted) hframe

/-- A suspended task goes on. -/
theorem passes_resumeTask {i : Nat} {task : ReplayTask} {ok : Bool} {write : WriteOutcome}
    (hnext : s.resumeTask i task ok write = some t) (h : s.Untouched seq) : Passes seq s t := by
  unfold resumeTask at hnext
  split at hnext
  · split at hnext
    · cases hnext
      exact passes_setReplay s _
    · cases hnext
  · obtain ⟨frame, hframe, heq⟩ := Option.map_eq_some_iff.mp hnext
    cases heq
    have hcarries := h.frames (_, frame) (OrderedDict.mem_of_get hframe)
    obtain ⟨hsettled, hcarries⟩ := passes_settle
      (x := ({ s with frames := OrderedDict.pop s.frames (.task i) }, _)) write
      (carries_resumed (ok && !task.cancelRequested) hcarries)
    exact passes_storeTask ((passes_pop s (.task i)).trans hsettled) hcarries
  · cases hnext

/-- `ack()` is called on another message. -/
theorem passes_ack {i : Nat} {message : Message} (hmessage : s.taken[i]? = some message)
    (h : s.Untouched seq) : Passes seq s (s.ack i message) := by
  have hseq : message.seq ≠ seq := h.taken message (List.mem_of_getElem? hmessage)
  have htaken : ∀ marked : Message, marked.seq = message.seq →
      Passes seq s (s.setTaken i marked) := by
    intro marked hmarked
    refine ⟨rfl, rfl, fun h => ⟨h.log, h.frames, h.flights, h.queued, fun other hother => ?_⟩⟩
    rcases List.mem_or_eq_of_mem_set hother with hold | rfl
    · exact h.taken other hold
    · exact hmarked.trans_ne hseq
  have hacked : ∀ t : InboundPublishFlow, Passes seq t (t.emit (.acked message.seq)) :=
    fun t => passes_emit t (by simpa [InboundEvent.admits] using hseq)
  rcases s.ack_cases i message with heq | ⟨marked, -, hmarked, -, heq | ⟨pid, -, -, heq⟩⟩ |
    ⟨pid, subscription, -, heq⟩
  · rw [heq]
    exact Passes.refl seq s
  · rw [heq]
    exact htaken marked hmarked
  · rw [heq]
    have hpuback : (InboundEvent.sentPuback message.seq pid).admits seq = false := by
      simpa [InboundEvent.admits] using hseq
    exact ((htaken marked hmarked).trans (hacked _)).trans (passes_complete _ pid hpuback)
  · rw [heq]
    have hpending : ∀ t : InboundPublishFlow, Passes seq t (t.removePendingAck pid) :=
      fun t => .of_log [] rfl rfl rfl rfl rfl rfl rfl (by simp)
    exact (((htaken { message with resolved := true } rfl).trans (hacked _)).trans
      (hpending _)).trans (passes_sendPubrec _ pid hseq)

/-- `clear` drops what is held. -/
theorem passes_clear (s : InboundPublishFlow) : Passes seq s s.clear := by
  unfold clear
  split
  · exact Passes.refl seq s
  · exact passes_setReplay s _
  · exact (passes_setReplay s _).trans (passes_dropAll _ _)

/-- The message that a step looks up a recipient for. -/
def lookedUp (s : InboundPublishFlow) : Action → Option (Received × Option Nat)
  | .publish packet claim _ => some ({ seq := s.nextSeq, publish := packet }, claim)
  | .deliverNext i claim _ =>
      s.replay.tasks[i]?.bind fun task =>
        match task.phase with
        | .looping _ (received :: _) => some (received, claim)
        | _ => none
  | _ => none

/-- **One step of the inbound flow** that leaves the index alone: the index stays, and a
message that is refused or, by a drain, passed over, if it is looked up, stays untouched. -/
theorem passes_step {action : Action} (hstep : s.step action = some t)
    (hindex : ∀ op, action ≠ .index op) (hdetach : ∀ filters queue, action ≠ .detach filters queue)
    (hlookup : ∀ received claim, s.lookedUp action = some (received, claim) →
      received.seq = seq → s.Refuses received claim ∨
        s.PassesOver received claim ∧ ∀ packet claim write, action ≠ .publish packet claim write)
    (h : s.Untouched seq) : Passes seq s t := by
  cases action with
  | publish packet claim write =>
      obtain ⟨-, heq⟩ := Option.ite_none_right_eq_some.mp hstep
      cases heq
      have hrefuses : s.nextSeq = seq →
          s.Refuses { seq := s.nextSeq, publish := packet } claim := fun hseq =>
        (hlookup _ claim rfl hseq).resolve_right fun hover => hover.2 packet claim write rfl
      obtain ⟨hhandled, hframe⟩ := passes_handlePublish write hrefuses
      exact passes_storeReader hhandled hframe
  | pubrel packet write =>
      obtain ⟨-, heq⟩ := Option.ite_none_right_eq_some.mp hstep
      cases heq
      obtain ⟨hhandled, hframe⟩ := passes_handlePubrel s packet write h
      exact passes_storeReader hhandled hframe
  | resumeReader ok write =>
      obtain ⟨frame, hframe, heq⟩ := Option.map_eq_some_iff.mp hstep
      cases heq
      have hcarries := h.frames (_, frame) (OrderedDict.mem_of_get hframe)
      obtain ⟨hsettled, hcarries⟩ := passes_settle
        (x := ({ s with frames := OrderedDict.pop s.frames .reader }, _)) write
        (carries_resumed ok hcarries)
      exact passes_storeReader ((passes_pop s .reader).trans hsettled) hcarries
  | get queue =>
      obtain ⟨found, hfound, heq⟩ := Option.map_eq_some_iff.mp hstep
      cases heq
      obtain ⟨hmem, hrest⟩ := getNowait_mem hfound
      refine ⟨rfl, rfl, fun h => ⟨h.log, h.frames, h.flights,
        fun item hitem => h.queued item (hrest item hitem), fun message hmessage => ?_⟩⟩
      rcases List.mem_append.mp hmessage with hold | hnew
      · exact h.taken message hold
      · rw [List.mem_singleton.mp hnew]
        exact h.queued _ hmem
  | ack i =>
      obtain ⟨message, hmessage, heq⟩ := Option.map_eq_some_iff.mp hstep
      cases heq
      exact passes_ack hmessage h
  | index op => exact absurd rfl (hindex op)
  | detach filters queue => exact absurd rfl (hdetach filters queue)
  | drain =>
      cases hstep
      unfold drain
      split
      · exact passes_setReplay s _
      · exact Passes.refl seq s
  | expireReplay b =>
      simp only [InboundPublishFlow.step, expireReplay] at hstep
      obtain ⟨-, heq⟩ := Option.ite_none_right_eq_some.mp hstep
      split at heq
      · cases heq
        exact passes_setReplay s _
      · cases heq
        exact passes_setReplay s _
  | acquireLock i =>
      obtain ⟨task, -, hlock⟩ := Option.bind_eq_some_iff.mp hstep
      obtain ⟨-, heq⟩ := Option.ite_none_right_eq_some.mp hlock
      cases heq
      exact passes_setReplay s _
  | deliverNext i claim write =>
      obtain ⟨task, htask, hnext⟩ := Option.bind_eq_some_iff.mp hstep
      refine passes_deliverNext hnext fun unmatched received pending hphase hseq => ?_
      refine (hlookup received claim ?_ hseq).imp_right And.left
      simp only [lookedUp, htask, Option.bind_some, hphase]
  | resumeTask i ok write =>
      obtain ⟨task, -, hnext⟩ := Option.bind_eq_some_iff.mp hstep
      exact passes_resumeTask hnext h
  | cancel i =>
      obtain ⟨-, heq⟩ := Option.ite_none_right_eq_some.mp hstep
      cases heq
      exact passes_setReplay s _
  | clear =>
      cases hstep
      exact passes_clear s

end InboundPublishFlow

end Zmqtt
