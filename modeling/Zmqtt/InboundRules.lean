import Zmqtt.InboundFlow
import Zmqtt.Transition

/-!
# Rules for invariants of the inbound flow

Whatever the packet, its QoS and its recipient, a message goes through the same few
changes: it arrives, it is routed, it is offered to a queue or a request, and its
packets are sent.  `FlowRules` asks an invariant for these changes; `FlowRules.step`
then gives it for every step, so a proof about the flow never splits the handlers
again.

`I s` is the invariant at a suspension point of all tasks.  `W s o frame` is the
invariant while the task `o` runs with `frame`, which is then not among the frames of
the state.  The replay buffers are outside: a rule allows any change of them.
-/

namespace Zmqtt

/-- Events that say nothing about a flow that has begun. -/
def InboundEvent.quiet : InboundEvent → Bool
  | .noSubscriber _ => true
  | .buffered _ => true
  | .rejected _ => true
  | .dropped _ => true
  | .aborted none => true
  | _ => false

/-- Neither an arrival and its answer nor the end of a connection with a reason code. -/
def InboundEvent.plain : InboundEvent → Bool
  | .receivedPublish _ => false
  | .receivedPubrel _ => false
  | .sentPubcomp _ _ _ => false
  | .aborted (some _) => false
  | _ => true

theorem InboundEvent.plain_of_quiet {event : InboundEvent} (h : event.quiet = true) :
    event.plain = true := by
  cases event with
  | aborted code =>
      cases code with
      | none => rfl
      | some code => cases h
  | receivedPublish received => cases h
  | receivedPubrel packetId => cases h
  | sentPubcomp packetId reasonCode flight => cases h
  | _ => rfl

namespace InboundPublishFlow

variable {s : InboundPublishFlow}

/-! ## A PUBLISH arrives -/

/-- The arrival of a PUBLISH up to the check of the limit. -/
def arrived (s : InboundPublishFlow) (packet : Publish) : InboundPublishFlow :=
  if packet.qos = .atMostOnce then s.receive packet
  else packet.packetId.elim (s.receive packet) (s.receive packet).addUnacknowledged

/-- The PUBLISH makes the unacknowledged identifiers exceed the limit. -/
def Exceeds (s : InboundPublishFlow) (packet : Publish) : Prop :=
  packet.qos ≠ .atMostOnce ∧ packet.packetId.isSome ∧
    ∃ limit, s.receiveMaximum = some limit ∧ limit < (s.arrived packet).unacknowledged.card

/-- A QoS 2 identifier that is not in use, on either side of the acknowledgement. -/
def Fresh (s : InboundPublishFlow) (packet : Publish) : Prop :=
  packet.qos = .exactlyOnce → ∀ pid, packet.packetId = some pid →
    OrderedDict.get s.inflightQos2In pid = none ∧ pid ∉ s.pendingAckQos2In

theorem arrived_frame (s : InboundPublishFlow) (packet : Publish) :
    s.arrived packet = { s with
      nextSeq := s.nextSeq + 1
      unacknowledged := (s.arrived packet).unacknowledged
      log := .receivedPublish { seq := s.nextSeq, publish := packet } :: s.log } := by
  unfold arrived
  split
  · rfl
  · cases packet.packetId <;> rfl

/-- `_hold_receive_quota` at the arrival of a PUBLISH. -/
theorem holdReceiveQuota_arrived (s : InboundPublishFlow) {packet : Publish} {pid : Int}
    (hqos : packet.qos ≠ .atMostOnce) (hpid : packet.packetId = some pid) :
    (s.Exceeds packet ∧ ∃ msg, (s.receive packet).holdReceiveQuota pid =
      ((s.arrived packet).emit (.aborted (some 0x93)), some (.protocolError msg))) ∨
    (¬s.Exceeds packet ∧ (s.receive packet).holdReceiveQuota pid = (s.arrived packet, none)) := by
  have harrived : (s.receive packet).addUnacknowledged pid = s.arrived packet := by
    rw [arrived, if_neg hqos, hpid]
    rfl
  have hmaximum : (s.arrived packet).receiveMaximum = s.receiveMaximum := by
    rw [arrived_frame]
  simp only [holdReceiveQuota, harrived, hmaximum]
  cases hlimit : s.receiveMaximum with
  | none =>
      refine .inr ⟨fun h => ?_, rfl⟩
      obtain ⟨-, -, limit, hsome, -⟩ := h
      rw [hlimit] at hsome
      cases hsome
  | some limit =>
      by_cases hlt : limit < (s.arrived packet).unacknowledged.card
      · refine .inl ⟨⟨hqos, by rw [hpid]; rfl, limit, hlimit, hlt⟩, ?_⟩
        exact ⟨_, if_pos hlt⟩
      · refine .inr ⟨fun h => ?_, if_neg hlt⟩
        obtain ⟨-, -, other, hother, hother_lt⟩ := h
        rw [hlimit] at hother
        cases hother
        exact hlt hother_lt

/-- What `handle_publish` does with a PUBLISH, up to the selection of a recipient. -/
theorem handlePublish_cases (s : InboundPublishFlow) (packet : Publish) (claim : Option Nat)
    (write : WriteOutcome) :
    (packet.qos ≠ .atMostOnce ∧ packet.packetId = none ∧
      s.handlePublish packet claim write = (s.arrived packet, .raised noPacketId)) ∨
    (s.Exceeds packet ∧ ∃ msg, s.handlePublish packet claim write =
      ((s.arrived packet).emit (.aborted (some 0x93)), .raised (.protocolError msg))) ∨
    (¬s.Exceeds packet ∧ packet.qos ≠ .atMostOnce ∧
      s.handlePublish packet claim write = (s.arrived packet, .returned)) ∨
    (¬s.Exceeds packet ∧ packet.qos = .exactlyOnce ∧ ∃ pid flight,
      packet.packetId = some pid ∧ OrderedDict.get s.inflightQos2In pid = some flight ∧
      s.handlePublish packet claim write =
        ((s.arrived packet).emit (.sentPubrec pid), sent write none)) ∨
    (¬s.Exceeds packet ∧ s.Fresh packet ∧
      (packet.qos ≠ .atMostOnce →
        ∃ pid, packet.packetId = some pid ∧ s.replay.containsPacketId pid = false) ∧
      s.handlePublish packet claim write =
        (s.arrived packet).route { seq := s.nextSeq, publish := packet } claim write) := by
  unfold handlePublish
  cases hqos : packet.qos with
  | atMostOnce =>
      have harrived : s.receive packet = s.arrived packet := by rw [arrived, if_pos hqos]
      refine .inr (.inr (.inr (.inr ⟨fun h => h.1 hqos, fun h => ?_, fun h => absurd rfl h, ?_⟩)))
      · rw [hqos] at h
        cases h
      · simp only [harrived]
  | atLeastOnce =>
      have hne : packet.qos ≠ .atMostOnce := by rw [hqos]; decide
      simp only [handleQos1Publish]
      cases hpid : packet.packetId with
      | none => exact .inl ⟨by decide, rfl, by rw [arrived, if_neg hne, hpid]; rfl⟩
      | some pid =>
          rcases s.holdReceiveQuota_arrived hne hpid with ⟨hexceeds, msg, hquota⟩ | ⟨hno, hquota⟩
          · exact .inr (.inl ⟨hexceeds, msg, by simp only [hquota]⟩)
          · simp only [hquota]
            have hreplay : (s.arrived packet).replay = s.replay := by rw [arrived_frame]
            rw [hreplay]
            by_cases hheld : s.replay.containsPacketId pid = true
            · exact .inr (.inr (.inl ⟨hno, by decide, if_pos hheld⟩))
            · refine .inr (.inr (.inr (.inr ⟨hno, fun h => ?_,
                fun _ => ⟨pid, rfl, Bool.eq_false_of_not_eq_true hheld⟩, if_neg hheld⟩)))
              rw [hqos] at h
              cases h
  | exactlyOnce =>
      have hne : packet.qos ≠ .atMostOnce := by rw [hqos]; decide
      simp only [handleQos2Publish]
      cases hpid : packet.packetId with
      | none => exact .inl ⟨by decide, rfl, by rw [arrived, if_neg hne, hpid]; rfl⟩
      | some pid =>
          rcases s.holdReceiveQuota_arrived hne hpid with ⟨hexceeds, msg, hquota⟩ | ⟨hno, hquota⟩
          · exact .inr (.inl ⟨hexceeds, msg, by simp only [hquota]⟩)
          · simp only [hquota]
            have hinflight : (s.arrived packet).inflightQos2In = s.inflightQos2In := by
              rw [arrived_frame]
            have hpend : (s.arrived packet).pendingAckQos2In = s.pendingAckQos2In := by
              rw [arrived_frame]
            have hreplay : (s.arrived packet).replay = s.replay := by rw [arrived_frame]
            rw [hinflight, hpend, hreplay]
            cases hget : OrderedDict.get s.inflightQos2In pid with
            | some flight =>
                exact .inr (.inr (.inr (.inl ⟨hno, trivial, pid, flight, rfl, hget, by simp⟩)))
            | none =>
                simp only [Option.isSome_none, Bool.false_eq_true, if_false]
                by_cases hpending : pid ∈ s.pendingAckQos2In
                · exact .inr (.inr (.inl ⟨hno, by decide, if_pos hpending⟩))
                · rw [if_neg hpending]
                  by_cases hheld : s.replay.containsPacketId pid = true
                  · exact .inr (.inr (.inl ⟨hno, by decide, if_pos hheld⟩))
                  · refine .inr (.inr (.inr (.inr ⟨hno, fun _ k hk => ?_,
                      fun _ => ⟨pid, rfl, Bool.eq_false_of_not_eq_true hheld⟩,
                      if_neg hheld⟩)))
                    rw [hpid] at hk
                    cases hk
                    exact ⟨hget, hpending⟩

theorem selectRecipient_message (s : InboundPublishFlow) (received : Received)
    (claim : Option Nat) : (s.selectRecipient received claim).message = makeMessage received := by
  cases claim <;> rfl

/-- The recipient is one that `select_recipient` gives for the message. -/
structure Selects (s : InboundPublishFlow) (received : Received) (recipient : InboundRecipient) :
    Prop where
  message : recipient.message = makeMessage received
  subscription : ∀ item, recipient.subscription = some item →
    (s.selectSubscription received.publish).recipient = some item

theorem selects_selectRecipient (s : InboundPublishFlow) (received : Received) (claim : Option Nat) :
    s.Selects received (s.selectRecipient received claim) := by
  refine ⟨s.selectRecipient_message received claim, fun item hitem => ?_⟩
  cases claim with
  | none => exact hitem
  | some request => cases hitem

/-- `hold` never hands a message over. -/
theorem hold_ne_recipient (s : InboundPublishFlow) (b : Nat) (buffer : ReplayBuffer)
    (received : Received) (recipient : InboundRecipient) :
    (s.hold b buffer received).2 ≠ .recipient recipient := by
  unfold hold
  split
  · nofun
  · split <;> nofun

/-- A message left to the replay buffer ends its handler, or raises. -/
theorem route_held {t : InboundPublishFlow} {b : Nat} {buffer : ReplayBuffer} {received : Received}
    {claim : Option Nat}
    (heq : t.selectRecipientOrBuffer received claim = s.hold b buffer received)
    (write : WriteOutcome) :
    ∃ frame, t.route received claim write = ((s.hold b buffer received).1, frame) ∧
      (frame = .returned ∨ ∃ e, frame = .raised e) := by
  have hne := hold_ne_recipient s b buffer received
  unfold route
  rw [heq]
  generalize s.hold b buffer received = x at hne
  obtain ⟨held, routing⟩ := x
  cases routing with
  | recipient recipient => exact absurd rfl (hne recipient)
  | held => exact ⟨.returned, rfl, .inl rfl⟩
  | raised e => exact ⟨.raised e, rfl, .inr ⟨e, rfl⟩⟩

/-- `_select_recipient_or_buffer` hands a message over as it is, or after the warning
that it has no recipient, or it leaves the message to the replay buffer. -/
theorem selectRecipientOrBuffer_cases (s : InboundPublishFlow) (received : Received)
    (claim : Option Nat) :
    ((s.selectRecipient received claim).request.isSome ∨
        (s.selectRecipient received claim).subscription.isSome) ∧
      s.selectRecipientOrBuffer received claim =
        (s, .recipient (s.selectRecipient received claim)) ∨
    (s.replay.state = .noSession ∧ (s.selectRecipient received claim).request = none ∧
      (s.selectRecipient received claim).subscription = none ∧
      s.selectRecipientOrBuffer received claim =
        (s.emit (.noSubscriber received.seq), .recipient (s.selectRecipient received claim))) ∨
    (∃ b, s.replay.state = .buffered b ∧
      s.selectRecipientOrBuffer received claim = s.hold b (s.replay.buffer b) received) ∨
    (s.replay.state = .idle ∧ s.selectRecipientOrBuffer received claim =
      (s.setReplay s.replay.addBuffer).hold s.replay.buffers.length {} received) := by
  unfold selectRecipientOrBuffer
  generalize s.selectRecipient received claim = selected
  cases hstate : s.replay.state with
  | noSession =>
      by_cases hnone : selected.request = none ∧ selected.subscription = none
      · exact .inr (.inl ⟨rfl, hnone.1, hnone.2, if_pos hnone⟩)
      · refine .inl ⟨?_, if_neg hnone⟩
        simpa [Option.isSome_iff_ne_none, ← not_and_or] using hnone
  | idle =>
      by_cases hsome : (selected.request.isSome || selected.subscription.isSome) = true
      · exact .inl ⟨by simpa using hsome, if_pos hsome⟩
      · exact .inr (.inr (.inr ⟨rfl, if_neg hsome⟩))
  | buffered b =>
      simp only
      by_cases hrequest : selected.request.isSome = true
      · exact .inl ⟨.inl hrequest, if_pos hrequest⟩
      · rw [if_neg hrequest]
        by_cases htopic : (selected.subscription.isSome &&
            (OrderedDict.get (s.replay.buffer b).topics received.publish.topic).isNone) = true
        · rw [Bool.and_eq_true] at htopic
          refine .inl ⟨.inr htopic.1, if_pos ?_⟩
          rw [Bool.and_eq_true]
          exact htopic
        · exact .inr (.inr (.inl ⟨b, rfl, if_neg htopic⟩))

theorem withCallback_seq (message : Message) (entry : SubscriptionEntry)
    (ackCallback : Option AckCallback) : (withCallback message entry ackCallback).seq = message.seq := by
  unfold withCallback
  split <;> rfl

/-- `get_nowait` takes the first message of its queue. -/
theorem getNowait_split {queue : Nat} {items : List (Nat × Message)}
    {found : Message × List (Nat × Message)} (h : getNowait queue items = some found) :
    ∃ before after, items = before ++ (queue, found.1) :: after ∧ found.2 = before ++ after ∧
      ∀ item ∈ before, item.1 ≠ queue := by
  induction items generalizing found with
  | nil => cases h
  | cons first rest ih =>
      rw [getNowait] at h
      split_ifs at h with hqueue
      · obtain rfl := Option.some.inj h
        exact ⟨[], rest, by rw [← hqueue]; rfl, rfl, fun _ hmem => absurd hmem List.not_mem_nil⟩
      · obtain ⟨inner, hinner, rfl⟩ := Option.map_eq_some_iff.mp h
        obtain ⟨before, after, hitems, hrest, hbefore⟩ := ih hinner
        refine ⟨first :: before, after, by rw [hitems]; rfl, by rw [hrest]; rfl, ?_⟩
        exact fun item hitem => (List.mem_cons.mp hitem).elim (fun heq => heq ▸ hqueue) (hbefore item)

/-- A message that is taken was queued, and the others stay. -/
theorem getNowait_mem {queue : Nat} {queued : List (Nat × Message)}
    {found : Message × List (Nat × Message)} (h : getNowait queue queued = some found) :
    (queue, found.1) ∈ queued ∧ ∀ item ∈ found.2, item ∈ queued := by
  obtain ⟨before, after, hqueued, hrest, -⟩ := getNowait_split h
  rw [hqueued, hrest]
  refine ⟨List.mem_append_right _ List.mem_cons_self, fun item hitem => ?_⟩
  rcases List.mem_append.mp hitem with hbefore | hafter
  · exact List.mem_append_left _ hbefore
  · exact List.mem_append_right _ (List.mem_cons_of_mem _ hafter)

/-- After a put the queue is not empty. -/
theorem getNowait_push (s : InboundPublishFlow) (queue : Nat) (message : Message) :
    ∃ found, getNowait queue (s.push queue message).queued = some found := by
  unfold push
  simp only
  induction s.queued with
  | nil => exact ⟨_, if_pos rfl⟩
  | cons item rest ih =>
      obtain ⟨found, hfound⟩ := ih
      rw [List.cons_append, getNowait]
      split
      · exact ⟨_, rfl⟩
      · exact ⟨_, by rw [hfound]; rfl⟩

/-- A call of a task that delivers changes the queues, the log and the unacknowledged
identifiers only. -/
theorem advance_frame (write : WriteOutcome) (s : InboundPublishFlow) (frame : Frame) :
    ∃ unacknowledged queued log,
      (advance write (s, frame)).1 = { s with unacknowledged, queued, log } := by
  cases frame with
  | delivering recipient ackCallback puback =>
      simp only [advance, deliver]
      split
      · exact ⟨_, _, _, rfl⟩
      · exact ⟨_, _, _, rfl⟩
      · split <;> exact ⟨_, _, _, rfl⟩
  | putting recipient entry ackCallback puback =>
      simp only [advance, finishPut]
      split
      · exact ⟨_, _, _, rfl⟩
      · split <;> exact ⟨_, _, _, rfl⟩
  | _ => exact ⟨_, _, _, rfl⟩

/-- What `Message.ack` does: nothing; it marks the message; it sends PUBACK; or it
registers the QoS 2 message and sends PUBREC. -/
theorem ack_cases (s : InboundPublishFlow) (i : Nat) (message : Message) :
    s.ack i message = s ∨
    (∃ marked : Message, marked.resolved = true ∧ marked.seq = message.seq ∧
      (marked.ackCallback = message.ackCallback ∨
        ∃ pid, marked.ackCallback = some (.puback pid true)) ∧
      (s.ack i message = s.setTaken i marked ∨
        ∃ pid, message.resolved = false ∧ message.ackCallback = some (.puback pid false) ∧
          s.ack i message = ((s.setTaken i marked).emit (.acked message.seq)).complete pid
            (.sentPuback message.seq pid))) ∨
    (∃ pid subscription, message.ackCallback = some (.pubrec pid subscription) ∧
      s.ack i message =
        (((s.setTaken i { message with resolved := true }).emit
          (.acked message.seq)).removePendingAck pid).sendPubrec pid
            { packetId := pid, delivered := true
              recipient := { message := { message with resolved := true }, subscription } }) := by
  unfold ack
  cases hresolved : message.resolved with
  | true => exact .inl rfl
  | false =>
      simp only [Bool.false_eq_true, if_false]
      cases hcallback : message.ackCallback with
      | none =>
          exact .inr (.inl ⟨{ message with resolved := true }, rfl, rfl, .inl hcallback,
            .inl (by rw [hcallback])⟩)
      | some callback =>
          cases callback with
          | puback pid acked =>
              refine .inr (.inl ⟨{ message with
                resolved := true, ackCallback := some (.puback pid true) }, rfl, rfl,
                .inr ⟨pid, rfl⟩, ?_⟩)
              cases acked with
              | true => exact .inl rfl
              | false => exact .inr ⟨pid, trivial, rfl, rfl⟩
          | pubrec pid subscription => exact .inr (.inr ⟨pid, subscription, rfl, rfl⟩)

/-- The five outcomes of a round of `_deliver_pending`. -/
theorem deliverNext_cases {t : Nat} {task : ReplayTask} {claim : Option Nat}
    {write : WriteOutcome} {next : InboundPublishFlow}
    (hnext : s.deliverNext t task claim write = some next) :
    (∃ unmatched, task.phase = .looping unmatched [] ∧
      (s.replay.buffer task.buffer).publishes = [] ∧ task.expires = true ∧
      next = s.finishExpire t task.buffer unmatched) ∨
    (∃ unmatched, task.phase = .looping unmatched [] ∧
      (s.replay.buffer task.buffer).publishes = [] ∧ task.expires = false ∧
      next = s.finishDrain t task.buffer unmatched) ∨
    (∃ unmatched, task.phase = .looping unmatched [] ∧
      next = s.setReplay
        ((s.replay.modifyBuffer task.buffer fun buffer => { buffer with publishes := [] }).setPhase
          t (.looping unmatched (s.replay.buffer task.buffer).publishes))) ∨
    (∃ unmatched received pending, task.phase = .looping unmatched (received :: pending) ∧
      next = s.setReplay (s.replay.setPhase t (.looping (unmatched ++ [received]) pending))) ∨
    (∃ unmatched received pending, task.phase = .looping unmatched (received :: pending) ∧
      s.unready (s.selectRecipient received claim) = false ∧
      next = storeTask t task unmatched pending received
        (settle write
          ((s.setReplay (s.replay.setPhase t (.delivering unmatched pending received))).deliverReplay
            received (s.selectRecipient received claim) write))) := by
  unfold deliverNext at hnext
  cases hphase : task.phase with
  | waiting => simp [hphase] at hnext
  | delivering unmatched pending current => simp [hphase] at hnext
  | finished => simp [hphase] at hnext
  | looping unmatched pending =>
      simp only [hphase] at hnext
      cases pending with
      | nil =>
          simp only at hnext
          by_cases hempty : (s.replay.buffer task.buffer).publishes = []
          · rw [if_pos hempty] at hnext
            cases hexpires : task.expires with
            | true =>
                rw [hexpires, if_pos rfl] at hnext
                exact .inl ⟨unmatched, rfl, hempty, rfl, (Option.some.inj hnext).symm⟩
            | false =>
                rw [hexpires, if_neg Bool.false_ne_true] at hnext
                exact .inr (.inl ⟨unmatched, rfl, hempty, rfl, (Option.some.inj hnext).symm⟩)
          · rw [if_neg hempty] at hnext
            exact .inr (.inr (.inl ⟨unmatched, rfl, (Option.some.inj hnext).symm⟩))
      | cons received pending =>
          simp only at hnext
          cases hready : s.unready (s.selectRecipient received claim) with
          | true =>
              rw [hready, if_pos rfl] at hnext
              exact .inr (.inr (.inr (.inl
                ⟨unmatched, received, pending, rfl, (Option.some.inj hnext).symm⟩)))
          | false =>
              rw [hready, if_neg Bool.false_ne_true] at hnext
              exact .inr (.inr (.inr (.inr
                ⟨unmatched, received, pending, rfl, hready, (Option.some.inj hnext).symm⟩)))

/-! ## The rules -/

/-- How the delivery of a QoS 0 or QoS 1 message begins. -/
def Begins (received : Received) (recipient : InboundRecipient)
    (ackCallback : Option AckCallback) (puback : Option Int) : Prop :=
  (received.publish.qos = .atMostOnce ∧ ackCallback = none ∧ puback = none) ∨
  (received.publish.qos = .atLeastOnce ∧ ∃ pid, received.publish.packetId = some pid ∧
    ((recipient.autoAck = true ∧ ackCallback = none ∧ puback = some pid) ∨
      (recipient.autoAck = false ∧ ackCallback = some (.puback pid false) ∧ puback = none)))

/-- A task that turns to a message is not inside another: the read loop waits for its
next packet. -/
def Enters (s : InboundPublishFlow) (o : Owner) : Prop := o = .reader → s.readerIdle = true

theorem Enters.hold {o : Owner} (h : s.Enters o) (b : Nat) (buffer : ReplayBuffer)
    (received : Received) : (s.hold b buffer received).1.Enters o := by
  unfold InboundPublishFlow.hold
  split
  · exact h
  · split <;> exact h

/-- What an invariant has to satisfy to hold along every step that meets `ok`. -/
structure FlowRules (ok : InboundPublishFlow → Action → Prop) (I : InboundPublishFlow → Prop)
    (W : InboundPublishFlow → Owner → Frame → Prop) : Prop where
  take : ∀ {s o frame}, I s → OrderedDict.get s.frames o = some frame →
    W { s with frames := OrderedDict.pop s.frames o } o frame
  store : ∀ {s o frame}, W s o frame → frame ≠ .returned → (∀ e, frame ≠ .raised e) →
    I { s with frames := OrderedDict.set s.frames o frame }
  enter : ∀ {s o}, s.Enters o → I s → W s o .returned
  leave : ∀ {s o}, W s o .returned → I s
  raise : ∀ {s o frame} (e), W s o frame → W s o (.raised e)
  endReader : ∀ {s e}, W s .reader (.raised e) → I { s with ended := some e }
  endTask : ∀ {s t e}, W s (.task t) (.raised e) → I s
  pause : ∀ {s o}, W s o .returned → W s o (.sending none)
  resume : ∀ {s o next}, W s o (.sending next) → W s o (afterSend next)
  request : ∀ {s o recipient ackCallback puback request},
    W s o (.delivering recipient ackCallback puback) → recipient.request = some request →
    W (s.emit (.requestDelivered recipient.message.seq request)) o
      (afterDelivery recipient.message.seq puback)
  nobody : ∀ {s o recipient ackCallback puback},
    W s o (.delivering recipient ackCallback puback) → recipient.request = none →
    recipient.subscription = none → W s o (afterDelivery recipient.message.seq puback)
  refuse : ∀ {s o recipient ackCallback puback item},
    W s o (.delivering recipient ackCallback puback) → recipient.subscription = some item →
    item.2.oid ∈ s.detached →
    W (s.emit (.refused recipient.message.seq item.2.oid)) o .returned
  offer : ∀ {s o recipient ackCallback puback item},
    W s o (.delivering recipient ackCallback puback) → recipient.request = none →
    recipient.subscription = some item → item.2.oid ∉ s.detached →
    W (s.emit (.offered recipient.message.seq item.2.oid)) o
      (.putting recipient item.2 ackCallback puback)
  put : ∀ {s o recipient entry ackCallback puback},
    W s o (.putting recipient entry ackCallback puback) → entry.oid ∉ s.detached →
    W ((s.push entry.queue (withCallback recipient.message entry ackCallback)).emit
        (.put recipient.message.seq entry.oid false)) o
      (afterDelivery recipient.message.seq puback)
  withdraw : ∀ {s o recipient entry ackCallback puback found},
    W s o (.putting recipient entry ackCallback puback) →
    getNowait entry.queue (s.push entry.queue
      (withCallback recipient.message entry ackCallback)).queued = some found →
    W ({ s with queued := found.2 }.emit (.put recipient.message.seq entry.oid true)) o .returned
  puback : ∀ {s o seq packetId}, W s o (.completing seq packetId) →
    W (s.complete packetId (.sentPuback seq packetId)) o .returned
  replay : ∀ {s} (replay), I s → I (s.setReplay replay)
  quiet : ∀ {s event}, event.quiet = true → I s → I (s.emit event)
  get : ∀ {s queue found}, getNowait queue s.queued = some found → I s →
    I { s with queued := found.2, taken := s.taken ++ [found.1] }
  ack : ∀ {s i message}, ok s (.ack i) → s.taken[i]? = some message → I s → I (s.ack i message)
  index : ∀ {s op}, ok s (.index op) → I s → I { s with subscriptions := s.subscriptions.apply op }
  detach : ∀ {s filters} (queue), ok s (.detach filters queue) → I s → I (s.detach filters queue)
  arrive : ∀ {s packet claim write}, ok s (.publish packet claim write) → s.readerIdle = true →
    I s → I (s.arrived packet)
  exceed : ∀ {s packet claim write}, ok s (.publish packet claim write) → s.Exceeds packet →
    I (s.arrived packet) → I ((s.arrived packet).emit (.aborted (some 0x93)))
  resend : ∀ {s pid flight}, OrderedDict.get s.inflightQos2In pid = some flight → I s →
    I (s.emit (.sentPubrec pid))
  pubrelUnknown : ∀ {s packet write}, ok s (.pubrel packet write) → s.readerIdle = true →
    OrderedDict.get s.inflightQos2In packet.packetId = none → I s →
    I ((s.emit (.receivedPubrel packet.packetId)).emit (.sentPubcomp packet.packetId 0x92 none))
  pubrelKnown : ∀ {s packet write flight}, ok s (.pubrel packet write) → s.readerIdle = true →
    OrderedDict.get s.inflightQos2In packet.packetId = some flight → I s →
    W ((s.emit (.receivedPubrel packet.packetId)).closeFlight packet.packetId flight) .reader
      (.sending (if flight.delivered then none else some flight.recipient))
  route : ∀ {s o} {received : Received} {recipient ackCallback puback},
    s.Selects received recipient →
    (recipient.request = none → recipient.subscription = none →
      .noSubscriber received.seq ∈ s.log) →
    Begins received recipient ackCallback puback → s.Enters o → I s →
    W (s.emit (.routed received.seq)) o (.delivering recipient ackCallback puback)
  routeNowhere : ∀ {s} (seq), I s → I (s.emit (.routed seq))
  routeRefused : ∀ {s} (seq oid), I s → I ((s.emit (.routed seq)).emit (.refused seq oid))
  accept : ∀ {s} {received : Received} {recipient : InboundRecipient} {pid},
    s.Selects received recipient →
    received.publish.packetId = some pid → recipient.autoAck = true → I s →
    I (((s.emit (.routed received.seq)).emit (.accepted received.seq pid)).sendPubrec pid
      { packetId := pid, recipient })
  acceptManual : ∀ {s o} {received : Received} {recipient : InboundRecipient} {pid},
    s.Selects received recipient →
    received.publish.packetId = some pid → recipient.autoAck = false → s.Enters o → I s →
    W (((s.emit (.routed received.seq)).addPendingAck pid).emit (.accepted received.seq pid)) o
      (.delivering recipient (some (.pubrec pid recipient.subscription)) none)

namespace FlowRules

variable {ok : InboundPublishFlow → Action → Prop} {I : InboundPublishFlow → Prop}
  {W : InboundPublishFlow → Owner → Frame → Prop} {o : Owner} {frame : Frame}

theorem resumed (R : FlowRules ok I W) (proceeds : Bool) (h : W s o frame) :
    W s o (resumed frame proceeds) := by
  unfold InboundPublishFlow.resumed
  cases proceeds with
  | false => exact R.raise _ h
  | true =>
      cases frame with
      | sending next => exact R.resume h
      | delivering recipient ackCallback puback => exact h
      | putting recipient entry ackCallback puback => exact h
      | completing seq packetId => exact h
      | returned => exact h
      | raised e => exact h

theorem sent (R : FlowRules ok I W) (write : WriteOutcome) {next : Option InboundRecipient}
    (h : W s o (.sending next)) : W s o (sent write next) := by
  cases write with
  | done => exact R.resume h
  | suspended => exact h
  | failed => exact R.raise _ h

/-- A packet that is the last call of its handler. -/
theorem sentLast (R : FlowRules ok I W) (write : WriteOutcome) (h : W s o .returned) :
    W s o (InboundPublishFlow.sent write none) :=
  R.sent write (R.pause h)

theorem deliver (R : FlowRules ok I W) {recipient : InboundRecipient}
    {ackCallback : Option AckCallback} {puback : Option Int}
    (h : W s o (.delivering recipient ackCallback puback)) :
    W (s.deliver recipient ackCallback puback).1 o (s.deliver recipient ackCallback puback).2 := by
  unfold InboundPublishFlow.deliver
  cases hrequest : recipient.request with
  | some request => exact R.request h hrequest
  | none =>
      cases hsubscription : recipient.subscription with
      | none => exact R.nobody h hrequest hsubscription
      | some item =>
          by_cases hdetached : item.2.oid ∈ s.detached
          · simp only [if_pos hdetached]
            exact R.refuse h hsubscription hdetached
          · simp only [if_neg hdetached]
            exact R.offer h hrequest hsubscription hdetached

theorem finishPut (R : FlowRules ok I W) {recipient : InboundRecipient}
    {entry : SubscriptionEntry} {ackCallback : Option AckCallback} {puback : Option Int}
    (h : W s o (.putting recipient entry ackCallback puback)) :
    W (s.finishPut recipient entry ackCallback puback).1 o
      (s.finishPut recipient entry ackCallback puback).2 := by
  unfold InboundPublishFlow.finishPut
  by_cases hdetached : entry.oid ∈ s.detached
  · simp only [if_pos hdetached]
    obtain ⟨found, hfound⟩ := getNowait_push s entry.queue
      (withCallback recipient.message entry ackCallback)
    have hwithdraw := R.withdraw h hfound
    rw [hfound]
    exact hwithdraw
  · simp only [if_neg hdetached]
    exact R.put h hdetached

theorem advance (R : FlowRules ok I W) (write : WriteOutcome) (h : W s o frame) :
    W (advance write (s, frame)).1 o (advance write (s, frame)).2 := by
  cases frame with
  | delivering recipient ackCallback puback => exact R.deliver h
  | putting recipient entry ackCallback puback =>
      simp only [InboundPublishFlow.advance]
      split
      · exact h
      · exact R.finishPut h
  | completing seq packetId => exact R.sentLast write (R.puback h)
  | sending next => exact h
  | returned => exact h
  | raised e => exact h

theorem settle (R : FlowRules ok I W) (write : WriteOutcome) (h : W s o frame) :
    W (settle write (s, frame)).1 o (settle write (s, frame)).2 :=
  R.advance write (R.advance write (R.advance write h))

theorem deliverReplay (R : FlowRules ok I W) {received : Received}
    {recipient : InboundRecipient} (write : WriteOutcome) (henters : s.Enters o)
    (hselects : s.Selects received recipient)
    (hnobody : recipient.request = none → recipient.subscription = none →
      .noSubscriber received.seq ∈ s.log) (h : I s) :
    W (s.deliverReplay received recipient write).1 o
      (s.deliverReplay received recipient write).2 := by
  unfold InboundPublishFlow.deliverReplay
  cases hqos : received.publish.qos with
  | atMostOnce => exact R.route hselects hnobody (.inl ⟨hqos, rfl, rfl⟩) henters h
  | atLeastOnce =>
      simp only [deliverQos1Publish]
      cases hpid : received.publish.packetId with
      | none => exact R.raise _ (R.enter henters (R.routeNowhere _ h))
      | some pid =>
          cases hauto : recipient.autoAck with
          | true =>
              simp only [if_pos]
              exact R.route hselects hnobody (.inr ⟨hqos, pid, hpid, .inl ⟨hauto, rfl, rfl⟩⟩) henters h
          | false =>
              simp only [if_neg Bool.false_ne_true]
              exact R.route hselects hnobody (.inr ⟨hqos, pid, hpid, .inr ⟨hauto, rfl, rfl⟩⟩) henters h
  | exactlyOnce =>
      simp only [acceptQos2Publish]
      cases hpid : received.publish.packetId with
      | none => exact R.raise _ (R.enter henters (R.routeNowhere _ h))
      | some pid =>
          cases (s.emit (.routed received.seq)).detachedEntry recipient with
          | some oid => exact R.enter henters (R.routeRefused _ _ h)
          | none =>
              cases hauto : recipient.autoAck with
              | true =>
                  simp only [if_pos]
                  exact R.sentLast write (R.enter henters (R.accept hselects hpid hauto h))
              | false =>
                  simp only [if_neg Bool.false_ne_true]
                  exact R.acceptManual hselects hpid hauto henters h

theorem storeReader (R : FlowRules ok I W) (h : W s .reader frame) :
    I (storeReader (s, frame)) := by
  cases frame with
  | returned => exact R.leave h
  | raised e => exact R.endReader h
  | delivering recipient ackCallback puback => exact R.store h nofun nofun
  | putting recipient entry ackCallback puback => exact R.store h nofun nofun
  | completing seq packetId => exact R.store h nofun nofun
  | sending next => exact R.store h nofun nofun

theorem raiseFromTask (R : FlowRules ok I W) (h : I s) (t : Nat) (task : ReplayTask)
    (unmatched pending : List Received) : I (s.raiseFromTask t task unmatched pending) := by
  unfold InboundPublishFlow.raiseFromTask
  cases task.expires with
  | false => exact R.replay _ h
  | true =>
      cases task.cancelRequested with
      | false => exact R.quiet rfl (R.replay _ h)
      | true => exact R.replay _ h

theorem storeTask (R : FlowRules ok I W) {t : Nat} (h : W s (.task t) frame) (task : ReplayTask)
    (unmatched pending : List Received) (current : Received) :
    I (storeTask t task unmatched pending current (s, frame)) := by
  cases frame with
  | returned =>
      simp only [InboundPublishFlow.storeTask]
      split
      · exact R.raiseFromTask (R.replay _ (R.leave h)) _ _ _ _
      · exact R.replay _ (R.replay _ (R.leave h))
  | raised e => exact R.raiseFromTask (R.endTask h) _ _ _ _
  | delivering recipient ackCallback puback => exact R.store h nofun nofun
  | putting recipient entry ackCallback puback => exact R.store h nofun nofun
  | completing seq packetId => exact R.store h nofun nofun
  | sending next => exact R.store h nofun nofun

theorem dropAll (R : FlowRules ok I W) (h : I s) (dropped : List Received) :
    I (s.dropAll dropped) := by
  unfold InboundPublishFlow.dropAll
  induction dropped generalizing s with
  | nil => exact h
  | cons received rest ih =>
      have hfirst : I (s.emit (.dropped received.seq)) := R.quiet rfl h
      simpa [emit] using ih hfirst

theorem hold (R : FlowRules ok I W) (h : I s) (b : Nat) (buffer : ReplayBuffer)
    (received : Received) : I (s.hold b buffer received).1 := by
  unfold InboundPublishFlow.hold
  split
  · exact h
  · split
    · exact R.quiet rfl (R.quiet rfl h)
    · exact R.quiet rfl (R.replay _ h)

/-- A message left to the replay buffer ends its handler. -/
theorem held (R : FlowRules ok I W) (henters : s.Enters o) (h : I s) (b : Nat) (buffer : ReplayBuffer)
    (received : Received) {claim : Option Nat} (write : WriteOutcome) {t : InboundPublishFlow}
    (heq : t.selectRecipientOrBuffer received claim = s.hold b buffer received) :
    W (t.route received claim write).1 o (t.route received claim write).2 := by
  have hI := R.hold h b buffer received
  have hheld := henters.hold b buffer received
  obtain ⟨frame, hroute, rfl | ⟨e, rfl⟩⟩ := route_held heq write
  · rw [hroute]
    exact R.enter hheld hI
  · rw [hroute]
    exact R.raise e (R.enter hheld hI)

theorem routePublish (R : FlowRules ok I W) (henters : s.Enters o) (h : I s)
    (received : Received) (claim : Option Nat) (write : WriteOutcome) :
    W (s.route received claim write).1 o (s.route received claim write).2 := by
  have hselects := s.selects_selectRecipient received claim
  rcases s.selectRecipientOrBuffer_cases received claim with
    ⟨hsome, heq⟩ | ⟨-, -, -, heq⟩ | ⟨b, -, heq⟩ | ⟨-, heq⟩
  · unfold InboundPublishFlow.route
    rw [heq]
    refine R.deliverReplay write henters hselects (fun hrequest hsubscription => ?_) h
    rw [hrequest, hsubscription] at hsome
    simp at hsome
  · unfold InboundPublishFlow.route
    rw [heq]
    exact R.deliverReplay write henters ⟨hselects.message, hselects.subscription⟩
      (fun _ _ => List.mem_cons_self) (R.quiet rfl h)
  · exact R.held henters h _ _ _ write heq
  · have hadded : (s.setReplay s.replay.addBuffer).Enters o := henters
    exact R.held hadded (R.replay _ h) _ _ _ write heq

theorem handlePublish (R : FlowRules ok I W) (h : I s) {packet : Publish} {claim : Option Nat}
    {write : WriteOutcome} (hok : ok s (.publish packet claim write))
    (hidle : s.readerIdle = true) :
    W (s.handlePublish packet claim write).1 .reader (s.handlePublish packet claim write).2 := by
  have harrived := R.arrive hok hidle h
  have henters : (s.arrived packet).Enters .reader := by
    rw [arrived_frame]
    exact fun _ => hidle
  rcases s.handlePublish_cases packet claim write with
    ⟨-, -, heq⟩ | ⟨hexceeds, e, heq⟩ | ⟨-, -, heq⟩ | ⟨-, -, pid, flight, -, hget, heq⟩ | ⟨-, -, -, heq⟩
  · rw [heq]
    exact R.raise _ (R.enter henters harrived)
  · rw [heq]
    exact R.raise _ (R.enter henters (R.exceed hok hexceeds harrived))
  · rw [heq]
    exact R.enter henters harrived
  · rw [heq]
    have hinflight : (s.arrived packet).inflightQos2In = s.inflightQos2In := by
      rw [arrived_frame]
    exact R.sentLast write (R.enter henters (R.resend (hinflight ▸ hget) harrived))
  · rw [heq]
    exact R.routePublish henters harrived _ _ _

theorem handlePubrel (R : FlowRules ok I W) (h : I s) {packet : PubReply} {write : WriteOutcome}
    (hok : ok s (.pubrel packet write)) (hidle : s.readerIdle = true) :
    W (s.handlePubrel packet write).1 .reader (s.handlePubrel packet write).2 := by
  unfold InboundPublishFlow.handlePubrel
  simp only [show (s.emit (.receivedPubrel packet.packetId)).inflightQos2In = s.inflightQos2In
    from rfl]
  cases hget : OrderedDict.get s.inflightQos2In packet.packetId with
  | none => exact R.sentLast write (R.enter (fun _ => hidle) (R.pubrelUnknown hok hidle hget h))
  | some flight => exact R.sent write (R.pubrelKnown hok hidle hget h)

theorem deliverNext (R : FlowRules ok I W) (h : I s) {t : Nat} {task : ReplayTask}
    {claim : Option Nat} {write : WriteOutcome} {next : InboundPublishFlow}
    (hnext : s.deliverNext t task claim write = some next) : I next := by
  rcases deliverNext_cases hnext with ⟨unmatched, -, -, -, rfl⟩ | ⟨unmatched, -, -, -, rfl⟩ |
    ⟨unmatched, -, rfl⟩ | ⟨unmatched, received, pending, -, rfl⟩ |
    ⟨unmatched, received, pending, -, hready, rfl⟩
  · exact R.dropAll (R.replay _ h) _
  · unfold finishDrain
    split <;> exact R.replay _ h
  · exact R.replay _ h
  · exact R.replay _ h
  · have hselects := s.selects_selectRecipient received claim
    have hturned : (s.setReplay (s.replay.setPhase t (.delivering unmatched pending
        received))).Selects received (s.selectRecipient received claim) :=
      ⟨hselects.message, hselects.subscription⟩
    refine R.storeTask (R.settle write (R.deliverReplay write nofun hturned
      (fun hrequest hsubscription => ?_) (R.replay _ h))) _ _ _ _
    simp [unready, hrequest, hsubscription] at hready

theorem resumeTask (R : FlowRules ok I W) (h : I s) {t : Nat} {task : ReplayTask} {proceeds : Bool}
    {write : WriteOutcome} {next : InboundPublishFlow}
    (hnext : s.resumeTask t task proceeds write = some next) : I next := by
  unfold InboundPublishFlow.resumeTask at hnext
  split at hnext
  · split at hnext
    · cases hnext
      exact R.replay _ h
    · cases hnext
  · obtain ⟨frame, hframe, rfl⟩ := Option.map_eq_some_iff.mp hnext
    exact R.storeTask (R.settle write (R.resumed _ (R.take h hframe))) _ _ _ _
  · cases hnext

/-- **Step rule.** -/
theorem step (R : FlowRules ok I W) {a : Action} {next : InboundPublishFlow} (h : I s)
    (hok : ok s a) (hstep : s.step a = some next) : I next := by
  cases a with
  | publish packet claim write =>
      obtain ⟨hidle, heq⟩ := Option.ite_none_right_eq_some.mp hstep
      cases heq
      exact R.storeReader (R.settle write (R.handlePublish h hok hidle))
  | pubrel packet write =>
      obtain ⟨hidle, heq⟩ := Option.ite_none_right_eq_some.mp hstep
      cases heq
      exact R.storeReader (R.settle write (R.handlePubrel h hok hidle))
  | resumeReader proceeds write =>
      obtain ⟨frame, hframe, rfl⟩ := Option.map_eq_some_iff.mp hstep
      exact R.storeReader (R.settle write (R.resumed _ (R.take h hframe)))
  | get queue =>
      obtain ⟨found, hfound, rfl⟩ := Option.map_eq_some_iff.mp hstep
      exact R.get hfound h
  | ack i =>
      obtain ⟨message, hmessage, rfl⟩ := Option.map_eq_some_iff.mp hstep
      exact R.ack hok hmessage h
  | index op =>
      cases hstep
      exact R.index hok h
  | detach filters queue =>
      cases hstep
      exact R.detach _ hok h
  | drain =>
      cases hstep
      unfold drain
      split
      · exact R.replay _ h
      · exact h
  | expireReplay b =>
      simp only [InboundPublishFlow.step, expireReplay] at hstep
      split at hstep
      · split at hstep <;> (cases hstep; exact R.replay _ h)
      · cases hstep
  | acquireLock t =>
      obtain ⟨task, -, hlock⟩ := Option.bind_eq_some_iff.mp hstep
      obtain ⟨-, heq⟩ := Option.ite_none_right_eq_some.mp hlock
      cases heq
      exact R.replay _ h
  | deliverNext t claim write =>
      obtain ⟨task, -, hnext⟩ := Option.bind_eq_some_iff.mp hstep
      exact R.deliverNext h hnext
  | resumeTask t proceeds write =>
      obtain ⟨task, -, hnext⟩ := Option.bind_eq_some_iff.mp hstep
      exact R.resumeTask h hnext
  | cancel t =>
      obtain ⟨-, heq⟩ := Option.ite_none_right_eq_some.mp hstep
      cases heq
      exact R.replay _ h
  | clear =>
      cases hstep
      unfold clear
      split
      · exact h
      · exact R.replay _ h
      · exact R.dropAll (R.replay _ h) _

/-- **Run rule.** -/
theorem run (R : FlowRules ok I W) {actions : List Action} {t : InboundPublishFlow} (h : I s)
    (halong : Transition.Along InboundPublishFlow.step ok s actions)
    (hrun : Transition.run InboundPublishFlow.step s actions = some t) : I t :=
  Transition.invariant_along (fun _ _ _ hI hok hstep => R.step hI hok hstep) h halong hrun

/-- What holds at the arrival of a PUBLISH holds after the step. -/
theorem ofArrived (R : FlowRules ok I W) {packet : Publish} {claim : Option Nat}
    {write : WriteOutcome} {next : InboundPublishFlow} (harrived : I (s.arrived packet))
    (hexceed : I ((s.arrived packet).emit (.aborted (some 0x93))))
    (hstep : s.step (.publish packet claim write) = some next) : I next := by
  obtain ⟨hidle, heq⟩ := Option.ite_none_right_eq_some.mp hstep
  cases heq
  have henters : (s.arrived packet).Enters .reader := by
    rw [arrived_frame]
    exact fun _ => hidle
  have hhandled : W (s.handlePublish packet claim write).1 .reader
      (s.handlePublish packet claim write).2 := by
    rcases s.handlePublish_cases packet claim write with
      ⟨-, -, heq⟩ | ⟨-, e, heq⟩ | ⟨-, -, heq⟩ | ⟨-, -, pid, flight, -, hget, heq⟩ | ⟨-, -, -, heq⟩
    · rw [heq]
      exact R.raise _ (R.enter henters harrived)
    · rw [heq]
      exact R.raise _ (R.enter henters hexceed)
    · rw [heq]
      exact R.enter henters harrived
    · have hinflight : (s.arrived packet).inflightQos2In = s.inflightQos2In := by
        rw [arrived_frame]
      rw [heq]
      exact R.sentLast write (R.enter henters (R.resend (hinflight ▸ hget) harrived))
    · rw [heq]
      exact R.routePublish henters harrived _ _ _
  exact R.storeReader (R.settle write hhandled)

/-- An invariant of what only the subscriptions change, and of the limit of the quota. -/
theorem ofSettings {P : SubscriptionIndex → List Nat → Option Nat → Prop}
    (hindex : ∀ {s op}, ok s (.index op) → P s.subscriptions s.detached s.receiveMaximum →
      P (s.subscriptions.apply op) s.detached s.receiveMaximum)
    (hdetach : ∀ {s filters} (queue), ok s (.detach filters queue) →
      P s.subscriptions s.detached s.receiveMaximum →
      P s.subscriptions (s.detach filters queue).detached s.receiveMaximum) :
    FlowRules ok (fun s => P s.subscriptions s.detached s.receiveMaximum)
      fun s _ _ => P s.subscriptions s.detached s.receiveMaximum where
  take h _ := h
  store h _ _ := h
  enter _ h := h
  leave h := h
  raise _ h := h
  endReader h := h
  endTask h := h
  pause h := h
  resume h := h
  request h _ := h
  nobody h _ _ := h
  refuse h _ _ := h
  offer h _ _ _ := h
  put h _ := h
  withdraw h _ := h
  puback h := h
  replay _ h := h
  quiet _ h := h
  get _ h := h
  ack := by
    intro s i message _ _ h
    rcases s.ack_cases i message with heq | ⟨marked, -, -, -, heq | ⟨pid, -, -, heq⟩⟩ |
      ⟨pid, subscription, -, heq⟩ <;> rw [heq] <;> exact h
  index hok h := hindex hok h
  detach queue hok h := hdetach queue hok h
  arrive _ _ h := by
    rw [arrived_frame]
    exact h
  exceed _ _ h := h
  resend _ h := h
  pubrelUnknown _ _ _ h := h
  pubrelKnown _ _ _ h := h
  route _ _ _ _ h := h
  routeNowhere _ h := h
  routeRefused _ _ h := h
  accept _ _ _ h := h
  acceptManual _ _ _ _ h := h

/-- An invariant of the log and the next arrival number alone, along steps that meet `ok`. -/
theorem ofLogAlong {P : Nat → List InboundEvent → Prop}
    (hevent : ∀ {n event log}, event.plain = true → P n log → P n (event :: log))
    (harrive : ∀ {s packet claim write}, ok s (.publish packet claim write) → P s.nextSeq s.log →
      P (s.nextSeq + 1) (.receivedPublish { seq := s.nextSeq, publish := packet } :: s.log))
    (hpubrel : ∀ {s packet write} (reasonCode flight), ok s (.pubrel packet write) →
      P s.nextSeq s.log → P s.nextSeq
        (.sentPubcomp packet.packetId reasonCode flight :: .receivedPubrel packet.packetId :: s.log))
    (hexceed : ∀ {s packet claim write}, ok s (.publish packet claim write) → s.Exceeds packet →
      ∀ {n log}, P n log → P n (.aborted (some 0x93) :: log)) :
    FlowRules ok (fun s => P s.nextSeq s.log) fun s _ _ => P s.nextSeq s.log where
  take h _ := h
  store h _ _ := h
  enter _ h := h
  leave h := h
  raise _ h := h
  endReader h := h
  endTask h := h
  pause h := h
  resume h := h
  request h _ := hevent rfl h
  nobody h _ _ := h
  refuse h _ _ := hevent rfl h
  offer h _ _ _ := hevent rfl h
  put h _ := hevent rfl h
  withdraw h _ := hevent rfl h
  puback h := hevent rfl h
  replay _ h := h
  quiet hquiet h := hevent (InboundEvent.plain_of_quiet hquiet) h
  get _ h := h
  ack := by
    intro s i message _ _ h
    rcases s.ack_cases i message with heq | ⟨marked, -, -, -, heq | ⟨pid, -, -, heq⟩⟩ |
      ⟨pid, subscription, -, heq⟩
    · rw [heq]
      exact h
    · rw [heq]
      exact h
    · rw [heq]
      exact hevent rfl (hevent rfl h)
    · rw [heq]
      exact hevent rfl (hevent rfl h)
  index _ h := h
  detach _ _ h := h
  arrive hok _ h := by
    rw [arrived_frame]
    exact harrive hok h
  exceed hok hexceeds h := hexceed hok hexceeds h
  resend _ h := hevent rfl h
  pubrelUnknown hok _ _ h := hpubrel _ _ hok h
  pubrelKnown hok _ _ h := hpubrel _ _ hok h
  route _ _ _ _ h := hevent rfl h
  routeNowhere _ h := hevent rfl h
  routeRefused _ _ h := hevent rfl (hevent rfl h)
  accept _ _ _ h := hevent rfl (hevent rfl (hevent rfl h))
  acceptManual _ _ _ _ h := hevent rfl (hevent rfl h)

/-- An invariant of the log and the next arrival number alone. -/
theorem ofLog {P : Nat → List InboundEvent → Prop}
    (hevent : ∀ {n event log}, event.plain = true → P n log → P n (event :: log))
    (harrive : ∀ {n log} (publish), P n log →
      P (n + 1) (.receivedPublish { seq := n, publish } :: log))
    (hpubrel : ∀ {n log} (pid reasonCode flight), P n log →
      P n (.sentPubcomp pid reasonCode flight :: .receivedPubrel pid :: log))
    (hexceed : ∀ {s packet claim write}, ok s (.publish packet claim write) → s.Exceeds packet →
      ∀ {n log}, P n log → P n (.aborted (some 0x93) :: log)) :
    FlowRules ok (fun s => P s.nextSeq s.log) fun s _ _ => P s.nextSeq s.log :=
  ofLogAlong hevent (fun _ h => harrive _ h) (fun _ _ _ h => hpubrel _ _ _ h) hexceed

end FlowRules

/-! ## The log and the arrival numbers grow -/

variable {next : InboundPublishFlow} {a : Action}

theorem log_suffix_rules (log : List InboundEvent) :
    FlowRules (fun _ _ => True) (fun s => log <:+ s.log) fun s _ _ => log <:+ s.log :=
  FlowRules.ofLog (P := fun _ now => log <:+ now)
    (fun _ h => h.trans (List.suffix_cons _ _))
    (fun _ h => h.trans (List.suffix_cons _ _))
    (fun _ _ _ h => (h.trans (List.suffix_cons _ _)).trans (List.suffix_cons _ _))
    (fun _ _ _ _ h => h.trans (List.suffix_cons _ _))

/-- A log only grows. -/
theorem log_suffix (hstep : s.step a = some next) : s.log <:+ next.log :=
  (log_suffix_rules s.log).step (List.suffix_refl _) trivial hstep

theorem nextSeq_rules (n : Nat) :
    FlowRules (fun _ _ => True) (fun s => n ≤ s.nextSeq) fun s _ _ => n ≤ s.nextSeq :=
  FlowRules.ofLog (P := fun now _ => n ≤ now) (fun _ h => h) (fun _ h => Nat.le_succ_of_le h)
    (fun _ _ _ h => h) (fun _ _ _ _ h => h)

theorem nextSeq_le (hstep : s.step a = some next) : s.nextSeq ≤ next.nextSeq :=
  (nextSeq_rules s.nextSeq).step (Nat.le_refl _) trivial hstep

theorem nextSeq_lt_of_publish {packet : Publish} {claim : Option Nat} {write : WriteOutcome}
    (hstep : s.step (.publish packet claim write) = some next) : s.nextSeq < next.nextSeq := by
  have harrived : s.nextSeq + 1 ≤ (s.arrived packet).nextSeq := by
    rw [arrived_frame]
  exact (nextSeq_rules (s.nextSeq + 1)).ofArrived harrived harrived hstep

end InboundPublishFlow

end Zmqtt
