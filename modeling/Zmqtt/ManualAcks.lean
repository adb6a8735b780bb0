import Zmqtt.InboundRules
import Zmqtt.TaskList

/-!
# Manual acknowledgement of QoS 1 messages

A connection whose QoS 1 messages go to a subscription with `auto_ack=False`, and its broker.
The broker keeps an unfinished flow for each identifier in use, may send a message again
while its flow is unfinished, and uses the identifier for another message once it has
handled a PUBACK with it.

Each PUBLISH that arrives becomes a `Message` of its own, with a callback of its own: the
copies of a message do not know of each other.  As long as `ack()` is called on one copy at
most, a message is acknowledged once and its flow is unfinished until then.
-/

namespace Zmqtt

open InboundPublishFlow

/-- A PUBACK the client sent: its identifier, the message of the copy that was acknowledged,
and the message of the broker's unfinished flow with this identifier at that time. -/
structure SentPuback where
  packetId : Int
  message : Option Nat
  unfinished : Option Nat
deriving DecidableEq, Repr

/-- A connection and its broker.  Messages of the broker are named by their place in
`messages`.  `underWay` are the PUBLISH packets on their way, oldest first, `origins` the
messages of those that arrived; of `pubacks` the broker has handled the first `settled`. -/
structure ManualAcks where
  flow : InboundPublishFlow
  messages : List Publish := []
  unfinished : List (Int × Nat) := []
  underWay : List (Nat × Publish) := []
  origins : List Nat := []
  pubacks : List SentPuback := []
  settled : Nat := 0

namespace ManualAcks

/-- The message of the broker that the PUBLISH with an arrival number carried. -/
def origin (s : ManualAcks) (seq : Nat) : Option Nat := s.origins[seq - 1]?

/-- The PUBLISH goes to a subscription with `auto_ack=False` that is not detached. -/
def manual (flow : InboundPublishFlow) (packet : Publish) : Bool :=
  (flow.selectSubscription packet).recipient.any fun item =>
    !item.2.autoAck && !flow.detached.contains item.2.oid

/-- The PUBACKs among events of the client. -/
def pubacksOf (s : ManualAcks) (events : List InboundEvent) : List SentPuback :=
  events.filterMap fun
    | .sentPuback seq packetId =>
        some
          { packetId
            message := s.origin seq
            unfinished := OrderedDict.get s.unfinished packetId }
    | _ => none

/-- The client has made a step. -/
def advance (s : ManualAcks) (flow : InboundPublishFlow) : ManualAcks :=
  { s with
    flow
    pubacks := s.pubacks ++
      s.pubacksOf (flow.log.take (flow.log.length - s.flow.log.length)).reverse }

/-- The broker sends a new message, with an identifier that is not in use. -/
def send (s : ManualAcks) (packet : Publish) : Option ManualAcks :=
  packet.packetId.bind fun pid =>
    if packet.qos = .atLeastOnce ∧ OrderedDict.get s.unfinished pid = none then
      some
        { s with
          messages := s.messages ++ [packet]
          unfinished := OrderedDict.set s.unfinished pid s.messages.length
          underWay := s.underWay ++ [(s.messages.length, packet)] }
    else none

/-- The broker sends a message again. -/
def resend (s : ManualAcks) (pid : Int) : Option ManualAcks :=
  (OrderedDict.get s.unfinished pid).bind fun m =>
    s.messages[m]?.map fun packet =>
      { s with underWay := s.underWay ++ [(m, { packet with dup := true })] }

/-- The read loop handles the next PUBLISH. -/
def arrive (s : ManualAcks) (write : WriteOutcome) : Option ManualAcks :=
  match s.underWay with
  | [] => none
  | (m, packet) :: rest =>
      if manual s.flow packet then
        (s.flow.step (.publish packet none write)).map fun flow =>
          { s with underWay := rest, origins := s.origins ++ [m] }.advance flow
      else none

/-- The broker handles the next PUBACK. -/
def settle (s : ManualAcks) : Option ManualAcks :=
  s.pubacks[s.settled]?.map fun puback =>
    { s with
      unfinished := OrderedDict.pop s.unfinished puback.packetId
      settled := s.settled + 1 }

inductive Action
  | send (packet : Publish)
  | resend (pid : Int)
  | arrive (write : WriteOutcome)
  | resumeReader (ok : Bool) (write : WriteOutcome)
  | get (queue : Nat)
  | ack (i : Nat)
  | settle

def step (s : ManualAcks) : Action → Option ManualAcks
  | .send packet => s.send packet
  | .resend pid => s.resend pid
  | .arrive write => s.arrive write
  | .resumeReader ok write => (s.flow.step (.resumeReader ok write)).map s.advance
  | .get queue => (s.flow.step (.get queue)).map s.advance
  | .ack i => (s.flow.step (.ack i)).map s.advance
  | .settle => s.settle

/-- A new connection with its subscriptions. -/
def start (maxsize : Nat → Nat) (receiveMaximum : Option Nat) (sessionPresent : Bool)
    (subscriptions : SubscriptionIndex) : ManualAcks where
  flow :=
    { InboundPublishFlow.start { maxsize, receiveMaximum, sessionPresent } with subscriptions }

/-- A message is acknowledged once at most, and no PUBACK is sent while the broker's
unfinished flow with its identifier is another message. -/
structure OwnPubacks (s : ManualAcks) : Prop where
  once : (s.pubacks.map SentPuback.message).Nodup
  own : ∀ puback ∈ s.pubacks, puback.unfinished = none ∨ puback.unfinished = puback.message

/-- `ack()` is not called on a second copy of a message. -/
def oneCopy (s : ManualAcks) : Action → Bool
  | .ack i => s.flow.taken[i]?.all fun message =>
      message.resolved || s.flow.taken.all fun other =>
        !(other.resolved && decide (s.origin other.seq = s.origin message.seq))
  | _ => true

/-! ## What a step does to the flow -/

section Flow

variable {s next : InboundPublishFlow} {recipient : InboundRecipient} {entry : SubscriptionEntry}
  {ackCallback : Option AckCallback} {write : WriteOutcome}

/-- A put without PUBACK waits for room, or is done. -/
theorem settle_putting (s : InboundPublishFlow) (recipient : InboundRecipient)
    (ackCallback : Option AckCallback) (write : WriteOutcome) (hattached : entry.oid ∉ s.detached) :
    InboundPublishFlow.settle write (s, .putting recipient entry ackCallback none) =
        (s, .putting recipient entry ackCallback none) ∨
      InboundPublishFlow.settle write (s, .putting recipient entry ackCallback none) =
        ((s.push entry.queue (withCallback recipient.message entry ackCallback)).emit
          (.put recipient.message.seq entry.oid false), .returned) := by
  unfold InboundPublishFlow.settle
  by_cases hfull : s.full entry.queue = true
  · left
    simp [InboundPublishFlow.advance, hfull]
  · right
    simp [InboundPublishFlow.advance, hfull, finishPut, hattached, afterDelivery]

theorem settle_delivering (s : InboundPublishFlow) (recipient : InboundRecipient)
    (ackCallback : Option AckCallback) (write : WriteOutcome) {item : IndexItem}
    (hrequest : recipient.request = none)
    (hsubscription : recipient.subscription = some item) (hattached : item.2.oid ∉ s.detached) :
    InboundPublishFlow.settle write (s, .delivering recipient ackCallback none) =
        (s.emit (.offered recipient.message.seq item.2.oid),
          .putting recipient item.2 ackCallback none) ∨
      InboundPublishFlow.settle write (s, .delivering recipient ackCallback none) =
        (((s.emit (.offered recipient.message.seq item.2.oid)).push item.2.queue
            (withCallback recipient.message item.2 ackCallback)).emit
          (.put recipient.message.seq item.2.oid false), .returned) := by
  have hdeliver : InboundPublishFlow.advance write (s, .delivering recipient ackCallback none) =
      (s.emit (.offered recipient.message.seq item.2.oid),
        .putting recipient item.2 ackCallback none) := by
    simp [InboundPublishFlow.advance, deliver, hrequest, hsubscription, hattached]
  unfold InboundPublishFlow.settle
  rw [hdeliver]
  by_cases hfull : (s.emit (.offered recipient.message.seq item.2.oid)).full item.2.queue = true
  · left
    simp [InboundPublishFlow.advance, hfull]
  · right
    have hattached' : item.2.oid ∉ (s.emit (.offered recipient.message.seq item.2.oid)).detached :=
      hattached
    simp [InboundPublishFlow.advance, hfull, finishPut, hattached', afterDelivery]

/-- What a step of the client keeps that acknowledges nothing. -/
structure Quiet (s next : InboundPublishFlow) : Prop where
  log : ∃ events, next.log = events ++ s.log ∧ ∀ seq pid, .sentPuback seq pid ∉ events
  detached : next.detached = s.detached
  replay : next.replay = s.replay

/-- A recipient is found outside a replay. -/
theorem selectRecipientOrBuffer_found (s : InboundPublishFlow) (received : Received)
    {item : IndexItem} (hitem : (s.selectSubscription received.publish).recipient = some item)
    (hstate : ∀ b, s.replay.state ≠ .buffered b) :
    s.selectRecipientOrBuffer received none = (s, .recipient (s.selectRecipient received none)) := by
  have hsubscription : (s.selectRecipient received none).subscription = some item := hitem
  unfold selectRecipientOrBuffer
  cases hreplay : s.replay.state with
  | noSession => simp [hsubscription]
  | idle => simp [hsubscription]
  | buffered b => exact absurd hreplay (hstate b)

/-- The PUBLISH of a manual subscription: its copy is in the queue, or the read loop waits to
put it there, or the limit of the connection is exceeded. -/
theorem publish_manual {packet : Publish} {pid : Int} (hqos : packet.qos = .atLeastOnce)
    (hpid : packet.packetId = some pid) (hmanual : manual s packet = true)
    (hstate : ∀ b, s.replay.state ≠ .buffered b)
    (hnext : s.step (.publish packet none write) = some next) :
    ∃ (recipient : InboundRecipient) (item : IndexItem),
      recipient.message = makeMessage { seq := s.nextSeq, publish := packet } ∧
      item.2.autoAck = false ∧ item.2.oid ∉ s.detached ∧ Quiet s next ∧
      next.nextSeq = s.nextSeq + 1 ∧ next.taken = s.taken ∧
      (∀ queued ∈ next.queued, queued ∈ s.queued ∨
        queued.2 = withCallback recipient.message item.2 (some (.puback pid false))) ∧
      ∀ frame ∈ next.frames, frame ∈ s.frames ∨
        frame = (.reader, .putting recipient item.2 (some (.puback pid false)) none) := by
  rw [InboundPublishFlow.step] at hnext
  split_ifs at hnext with hidle
  obtain rfl := Option.some.inj hnext
  obtain ⟨item, hitem, hentry⟩ := (Option.any_eq_true ..).mp hmanual
  rw [Bool.and_eq_true, Bool.not_eq_true', Bool.not_eq_true', List.contains_eq_mem,
    decide_eq_false_iff_not] at hentry
  refine ⟨s.selectRecipient { seq := s.nextSeq, publish := packet } none, item,
    s.selectRecipient_message _ _, hentry.1, hentry.2, ?_⟩
  have harrived := s.arrived_frame packet
  rcases s.handlePublish_cases packet none write with ⟨-, hnone, -⟩ | ⟨-, e, heq⟩ | ⟨-, -, heq⟩ |
    ⟨-, htwice, -⟩ | ⟨-, -, -, heq⟩
  · rw [hpid] at hnone
    exact absurd hnone (by simp)
  · rw [heq, harrived]
    refine ⟨⟨⟨[.aborted (some 0x93), .receivedPublish _], rfl, by simp⟩, rfl, rfl⟩, rfl, rfl, ?_, ?_⟩
    · exact fun queued hqueued => .inl hqueued
    · exact fun frame hframe => .inl hframe
  · rw [heq, harrived]
    refine ⟨⟨⟨[.receivedPublish _], rfl, by simp⟩, rfl, rfl⟩, rfl, rfl, ?_, ?_⟩
    · exact fun queued hqueued => .inl hqueued
    · exact fun frame hframe => .inl hframe
  · rw [hqos] at htwice
    exact absurd htwice (by decide)
  · have hroute : (s.arrived packet).route { seq := s.nextSeq, publish := packet } none write =
        ((s.arrived packet).emit (.routed s.nextSeq),
          .delivering (s.selectRecipient { seq := s.nextSeq, publish := packet } none)
            (some (.puback pid false)) none) := by
      have hfound := selectRecipientOrBuffer_found (s.arrived packet)
        { seq := s.nextSeq, publish := packet } (show _ = some item by rw [harrived]; exact hitem)
        (by rw [harrived]; exact hstate)
      have hrecipient : (s.arrived packet).selectRecipient
          { seq := s.nextSeq, publish := packet } none =
            s.selectRecipient { seq := s.nextSeq, publish := packet } none := by
        rw [harrived]
        rfl
      have hmanualAck : (s.selectRecipient { seq := s.nextSeq, publish := packet } none).autoAck =
          false := by
        simp [InboundRecipient.autoAck, selectRecipient, hitem, hentry.1]
      rw [route, hfound, hrecipient]
      simp [deliverReplay, hqos, deliverQos1Publish, hpid, hmanualAck]
    rw [heq, hroute]
    rcases settle_delivering ((s.arrived packet).emit (.routed s.nextSeq))
      (s.selectRecipient { seq := s.nextSeq, publish := packet } none)
      (some (.puback pid false)) write rfl hitem
      (by rw [harrived]; exact hentry.2) with hsettle | hsettle
    · rw [hsettle, harrived]
      refine ⟨⟨⟨[.offered _ _, .routed _, .receivedPublish _], rfl, by simp⟩, rfl, rfl⟩, rfl, rfl,
        ?_, ?_⟩
      · exact fun queued hqueued => .inl hqueued
      · intro frame hframe
        exact OrderedDict.mem_of_mem_set hframe
    · rw [hsettle, harrived]
      refine ⟨⟨⟨[.put _ _ _, .offered _ _, .routed _, .receivedPublish _], rfl, by simp⟩, rfl, rfl⟩,
        rfl, rfl, ?_, ?_⟩
      · intro queued hqueued
        rcases List.mem_append.mp hqueued with hold | hnew
        · exact .inl hold
        · rw [List.mem_singleton.mp hnew]
          exact .inr rfl
      · exact fun frame hframe => .inl hframe

/-- The read loop waited to put a copy in the queue. -/
theorem resumeReader_putting {ok : Bool}
    (hframe : OrderedDict.get s.frames .reader = some (.putting recipient entry ackCallback none))
    (hattached : entry.oid ∉ s.detached)
    (hnext : s.step (.resumeReader ok write) = some next) :
    Quiet s next ∧ next.nextSeq = s.nextSeq ∧ next.taken = s.taken ∧
      (∀ queued ∈ next.queued, queued ∈ s.queued ∨
        queued.2 = withCallback recipient.message entry ackCallback) ∧
      ∀ frame ∈ next.frames, frame ∈ s.frames := by
  rw [InboundPublishFlow.step, hframe, Option.map_some] at hnext
  obtain rfl := Option.some.inj hnext
  have hmem := OrderedDict.mem_of_get hframe
  cases ok with
  | false =>
      refine ⟨⟨⟨[], rfl, by simp⟩, rfl, rfl⟩, rfl, rfl, ?_, ?_⟩
      · exact fun queued hqueued => .inl hqueued
      · exact fun frame hpopped => OrderedDict.mem_of_mem_pop hpopped
  | true =>
      have hresumed : resumed (.putting recipient entry ackCallback none) true =
          .putting recipient entry ackCallback none := rfl
      rw [hresumed]
      rcases settle_putting { s with frames := OrderedDict.pop s.frames .reader } recipient
        ackCallback write hattached with hsettle | hsettle
      · rw [hsettle]
        refine ⟨⟨⟨[], rfl, by simp⟩, rfl, rfl⟩, rfl, rfl, ?_, ?_⟩
        · exact fun queued hqueued => .inl hqueued
        · intro frame hset
          rcases OrderedDict.mem_of_mem_set hset with hpopped | hsame
          · exact OrderedDict.mem_of_mem_pop hpopped
          · rw [hsame]
            exact hmem
      · rw [hsettle]
        refine ⟨⟨⟨[.put _ _ _], rfl, by simp⟩, rfl, rfl⟩, rfl, rfl, ?_, ?_⟩
        · intro queued hqueued
          rcases List.mem_append.mp hqueued with hold | hnew
          · exact .inl hold
          · rw [List.mem_singleton.mp hnew]
            exact .inr rfl
        · exact fun frame hpopped => OrderedDict.mem_of_mem_pop hpopped

end Flow

/-! ## The invariant -/

section Invariant

variable {s s' : ManualAcks}

/-- A copy of a message of the broker.  Its callback sends PUBACK with the identifier of the
message, and has run when the copy is resolved. -/
def Copy (s : ManualAcks) (message : Message) : Prop :=
  ∃ m packet pid, s.origin message.seq = some m ∧ s.messages[m]? = some packet ∧
    packet.packetId = some pid ∧ message.ackCallback = some (.puback pid message.resolved)

/-- The read loop waits to put a copy in the queue of an entry. -/
def Waiting (s : ManualAcks) (item : Owner × Frame) : Prop :=
  ∃ recipient entry ackCallback, item = (.reader, .putting recipient entry ackCallback none) ∧
    entry.oid ∉ s.flow.detached ∧ s.Copy (withCallback recipient.message entry ackCallback)

/-- What holds in every state of a run that acknowledges one copy of a message at most.  Of
the messages none of whose PUBACKs is settled, each is the unfinished flow of its
identifier. -/
structure Kept (s : ManualAcks) : Prop where
  arrivals : s.flow.nextSeq = s.origins.length + 1
  replay : ∀ b, s.flow.replay.state ≠ .buffered b
  frames : ∀ item ∈ s.flow.frames, s.Waiting item
  queued : ∀ item ∈ s.flow.queued, s.Copy item.2
  taken : ∀ message ∈ s.flow.taken, s.Copy message
  messages : ∀ packet ∈ s.messages, packet.qos = .atLeastOnce ∧ packet.packetId.isSome
  underWay : ∀ item ∈ s.underWay, ∃ packet, s.messages[item.1]? = some packet ∧
    item.2.qos = .atLeastOnce ∧ item.2.packetId = packet.packetId
  acked : ∀ puback ∈ s.pubacks, ∃ message ∈ s.flow.taken,
    message.resolved = true ∧ s.origin message.seq = puback.message
  known : ∀ puback ∈ s.pubacks, ∃ m packet, puback.message = some m ∧
    s.messages[m]? = some packet ∧ packet.packetId = some puback.packetId
  unfinished : ∀ m packet pid, s.messages[m]? = some packet → packet.packetId = some pid →
    some m ∉ (s.pubacks.take s.settled).map SentPuback.message →
      OrderedDict.get s.unfinished pid = some m
  own : s.OwnPubacks

theorem getElem?_of_prefix {α : Type} {l l' : List α} (h : l <+: l') {i : Nat} {a : α}
    (hi : l[i]? = some a) : l'[i]? = some a := by
  obtain ⟨hlt, rfl⟩ := List.getElem?_eq_some_iff.mp hi
  exact List.prefix_iff_getElem?.mp h i hlt

theorem origin_of_prefix (h : s.origins <+: s'.origins) {seq m : Nat}
    (hseq : s.origin seq = some m) : s'.origin seq = some m :=
  getElem?_of_prefix h hseq

/-- Copies stay copies when messages are sent and arrive. -/
theorem Copy.mono {message : Message} (h : s.Copy message) (horigins : s.origins <+: s'.origins)
    (hmessages : s.messages <+: s'.messages) : s'.Copy message := by
  obtain ⟨m, packet, pid, hseq, hm, hpid, hcallback⟩ := h
  exact ⟨m, packet, pid, origin_of_prefix horigins hseq, getElem?_of_prefix hmessages hm, hpid,
    hcallback⟩

theorem Waiting.mono {item : Owner × Frame} (h : s.Waiting item)
    (hdetached : s'.flow.detached = s.flow.detached) (horigins : s.origins <+: s'.origins)
    (hmessages : s.messages <+: s'.messages) : s'.Waiting item := by
  obtain ⟨recipient, entry, ackCallback, rfl, hattached, hcopy⟩ := h
  exact ⟨recipient, entry, ackCallback, rfl, by rwa [hdetached],
    hcopy.mono horigins hmessages⟩

/-- The PUBACKs of a step are those among its events. -/
theorem advance_log {flow : InboundPublishFlow} (events : List InboundEvent)
    (hlog : flow.log = events ++ s.flow.log) :
    s.advance flow = { s with flow, pubacks := s.pubacks ++ s.pubacksOf events.reverse } := by
  rw [advance, hlog, List.length_append, Nat.add_sub_cancel, List.take_left]

/-- A step that acknowledges nothing sends no PUBACK. -/
theorem advance_quiet {flow : InboundPublishFlow} (h : Quiet s.flow flow) :
    s.advance flow = { s with flow } := by
  obtain ⟨events, hlog, hnone⟩ := h.log
  have hempty : s.pubacksOf events.reverse = [] := by
    rw [pubacksOf, List.filterMap_eq_nil_iff]
    intro event hevent
    cases event with
    | sentPuback seq pid => exact absurd (List.mem_reverse.mp hevent) (hnone seq pid)
    | _ => rfl
  rw [advance_log events hlog, hempty, List.append_nil]

/-- The client handles packets and messages are taken; nothing is acknowledged. -/
theorem Kept.moved {flow : InboundPublishFlow} {underWay : List (Nat × Publish)}
    {origins : List Nat} (h : s.Kept) (hquiet : Quiet s.flow flow)
    (horigins : s.origins <+: origins) (harrivals : flow.nextSeq = origins.length + 1)
    (hunderWay : ∀ item ∈ underWay, item ∈ s.underWay)
    (hframes : ∀ item ∈ flow.frames, { s with flow, underWay, origins }.Waiting item)
    (hqueued : ∀ item ∈ flow.queued, { s with flow, underWay, origins }.Copy item.2)
    (htaken : ∃ more, flow.taken = s.flow.taken ++ more ∧ ∀ message ∈ more, s.Copy message) :
    { s with flow, underWay, origins }.Kept where
  arrivals := harrivals
  replay b := by
    have hreplay := h.replay b
    rwa [← hquiet.replay] at hreplay
  frames := hframes
  queued := hqueued
  taken message hmessage := by
    obtain ⟨more, heq, hmore⟩ := htaken
    rw [heq] at hmessage
    have hcopy : s.Copy message := by
      rcases List.mem_append.mp hmessage with hold | hnew
      · exact h.taken message hold
      · exact hmore message hnew
    exact hcopy.mono horigins List.prefix_rfl
  messages := h.messages
  underWay item hitem := h.underWay item (hunderWay item hitem)
  acked puback hpuback := by
    obtain ⟨message, hmessage, hresolved, horigin⟩ := h.acked puback hpuback
    obtain ⟨m, packet, hm, -⟩ := h.known puback hpuback
    obtain ⟨more, heq, -⟩ := htaken
    refine ⟨message, ?_, hresolved, ?_⟩
    · rw [heq]
      exact List.mem_append_left _ hmessage
    · rw [hm] at horigin ⊢
      exact origin_of_prefix horigins horigin
  known := h.known
  unfinished := h.unfinished
  own := ⟨h.own.once, h.own.own⟩

/-- A PUBLISH is sent, for the first time or again. -/
theorem Kept.sent {messages : List Publish} {unfinished : List (Int × Nat)}
    {item : Nat × Publish} {packet : Publish} (h : s.Kept)
    (hgrown : s.messages <+: messages)
    (hmessages : ∀ packet ∈ messages, packet.qos = .atLeastOnce ∧ packet.packetId.isSome)
    (hunfinished : ∀ m packet pid, messages[m]? = some packet → packet.packetId = some pid →
      some m ∉ (s.pubacks.take s.settled).map SentPuback.message →
        OrderedDict.get unfinished pid = some m)
    (hitem : messages[item.1]? = some packet) (hqos : item.2.qos = .atLeastOnce)
    (hpid : item.2.packetId = packet.packetId) :
    { s with messages, unfinished, underWay := s.underWay ++ [item] }.Kept where
  arrivals := h.arrivals
  replay := h.replay
  frames other hother := (h.frames other hother).mono rfl List.prefix_rfl hgrown
  queued other hother := (h.queued other hother).mono List.prefix_rfl hgrown
  taken message hmessage := (h.taken message hmessage).mono List.prefix_rfl hgrown
  messages := hmessages
  underWay other hother := by
    rcases List.mem_append.mp hother with hold | hnew
    · obtain ⟨sent, hsent, hrest⟩ := h.underWay other hold
      exact ⟨sent, getElem?_of_prefix hgrown hsent, hrest⟩
    · rw [List.mem_singleton.mp hnew]
      exact ⟨packet, hitem, hqos, hpid⟩
  acked := h.acked
  known puback hpuback := by
    obtain ⟨m, sent, hm, hsent, hid⟩ := h.known puback hpuback
    exact ⟨m, sent, hm, getElem?_of_prefix hgrown hsent, hid⟩
  unfinished := hunfinished
  own := ⟨h.own.once, h.own.own⟩

theorem Kept.send {packet : Publish} {next : ManualAcks} (h : s.Kept)
    (hnext : s.send packet = some next) : next.Kept := by
  obtain ⟨pid, hpid, hnext⟩ := Option.bind_eq_some_iff.mp hnext
  split_ifs at hnext with hnew
  obtain ⟨hqos, hfree⟩ := hnew
  obtain rfl := Option.some.inj hnext
  refine h.sent (List.prefix_append _ _) ?_ ?_ (List.getElem?_concat_length ..) hqos rfl
  · intro other hother
    rcases List.mem_append.mp hother with hold | hlast
    · exact h.messages other hold
    · rw [List.mem_singleton.mp hlast, hpid]
      exact ⟨hqos, rfl⟩
  · intro m other k hm hk hunsettled
    rw [OrderedDict.get_set]
    rcases TaskList.getElem?_append_iff.mp hm with hold | ⟨rfl, rfl⟩
    · -- An older message with this identifier would still be unfinished.
      have hget := h.unfinished m other k hold hk hunsettled
      have hne : pid ≠ k := by
        rintro rfl
        rw [hfree] at hget
        cases hget
      rw [if_neg hne, hget]
    · rw [hpid] at hk
      rw [if_pos (Option.some.inj hk)]

theorem Kept.resend {pid : Int} {next : ManualAcks} (h : s.Kept)
    (hnext : s.resend pid = some next) : next.Kept := by
  obtain ⟨m, -, hnext⟩ := Option.bind_eq_some_iff.mp hnext
  obtain ⟨packet, hm, rfl⟩ := Option.map_eq_some_iff.mp hnext
  exact h.sent List.prefix_rfl h.messages h.unfinished hm
    (h.messages packet (List.mem_of_getElem? hm)).1 rfl

theorem Kept.arrive {write : WriteOutcome} {next : ManualAcks} (h : s.Kept)
    (hnext : s.arrive write = some next) : next.Kept := by
  unfold ManualAcks.arrive at hnext
  split at hnext
  · cases hnext
  · rename_i m packet rest hunderWay
    split_ifs at hnext with hmanual
    obtain ⟨flow, hflow, rfl⟩ := Option.map_eq_some_iff.mp hnext
    obtain ⟨sent, hsent, hqos, hsame⟩ := h.underWay (m, packet) (by rw [hunderWay]; simp)
    obtain ⟨pid, hpid⟩ := Option.isSome_iff_exists.mp
      (h.messages sent (List.mem_of_getElem? hsent)).2
    obtain ⟨recipient, item, hmessage, hmanualAck, hattached, hquiet, hseq, htaken, hqueued,
      hframes⟩ := publish_manual hqos (hsame.trans hpid) hmanual h.replay hflow
    rw [advance_quiet (s := { s with underWay := rest, origins := s.origins ++ [m] }) hquiet]
    have horigins : s.origins <+: s.origins ++ [m] := List.prefix_append _ _
    -- The copy that arrived has the next number and the identifier of its message.
    have hcopy : { s with flow, underWay := rest, origins := s.origins ++ [m] }.Copy
        (withCallback recipient.message item.2 (some (.puback pid false))) := by
      refine ⟨m, sent, pid, ?_, hsent, hpid, ?_⟩
      · rw [withCallback_seq, hmessage, origin, makeMessage, h.arrivals]
        simp
      · rw [hmessage]
        simp [withCallback, hmanualAck, makeMessage]
    refine h.moved hquiet horigins (by rw [hseq, h.arrivals, List.length_append]; rfl) ?_ ?_ ?_
      ⟨[], by rw [htaken, List.append_nil], by simp⟩
    · intro other hother
      rw [hunderWay]
      exact List.mem_cons_of_mem _ hother
    · intro frame hframe
      rcases hframes frame hframe with hold | rfl
      · exact (h.frames frame hold).mono hquiet.detached horigins List.prefix_rfl
      · exact ⟨recipient, item.2, _, rfl, by rwa [hquiet.detached], hcopy⟩
    · intro queued hmem
      rcases hqueued queued hmem with hold | hnew
      · exact (h.queued queued hold).mono horigins List.prefix_rfl
      · rw [hnew]
        exact hcopy

theorem Kept.resumeReader {ok : Bool} {write : WriteOutcome} {next : ManualAcks} (h : s.Kept)
    (hnext : s.step (.resumeReader ok write) = some next) : next.Kept := by
  obtain ⟨flow, hflow, rfl⟩ := Option.map_eq_some_iff.mp hnext
  obtain ⟨frame, hget, -⟩ := Option.map_eq_some_iff.mp hflow
  obtain ⟨recipient, entry, ackCallback, hitem, hattached, hcopy⟩ :=
    h.frames (.reader, frame) (OrderedDict.mem_of_get hget)
  rw [Prod.mk.injEq] at hitem
  rw [hitem.2] at hget
  obtain ⟨hquiet, hseq, htaken, hqueued, hframes⟩ := resumeReader_putting hget hattached hflow
  rw [advance_quiet hquiet]
  refine h.moved hquiet List.prefix_rfl (hseq.trans h.arrivals) (fun _ hitem => hitem) ?_ ?_
    ⟨[], by rw [htaken, List.append_nil], by simp⟩
  · intro other hother
    exact (h.frames other (hframes other hother)).mono hquiet.detached List.prefix_rfl
      List.prefix_rfl
  · intro queued hmem
    rcases hqueued queued hmem with hold | hnew
    · exact h.queued queued hold
    · rw [hnew]
      exact hcopy

theorem Kept.get {queue : Nat} {next : ManualAcks} (h : s.Kept)
    (hnext : s.step (.get queue) = some next) : next.Kept := by
  obtain ⟨flow, hflow, rfl⟩ := Option.map_eq_some_iff.mp hnext
  obtain ⟨found, hfound, rfl⟩ := Option.map_eq_some_iff.mp hflow
  obtain ⟨hmem, hrest⟩ := getNowait_mem hfound
  have hquiet : Quiet s.flow
      { s.flow with queued := found.2, taken := s.flow.taken ++ [found.1] } :=
    ⟨⟨[], rfl, by simp⟩, rfl, rfl⟩
  rw [advance_quiet hquiet]
  refine h.moved hquiet List.prefix_rfl h.arrivals (fun _ hitem => hitem) h.frames ?_
    ⟨[found.1], rfl, ?_⟩
  · exact fun item hitem => h.queued item (hrest item hitem)
  · intro message hmessage
    rw [List.mem_singleton.mp hmessage]
    exact h.queued _ hmem

/-- A copy is marked and the application learns nothing new. -/
theorem Kept.marked {i : Nat} {message : Message} (mark : Message) (h : s.Kept)
    (hi : s.flow.taken[i]? = some message) (hseq : mark.seq = message.seq)
    (hresolved : mark.resolved = true)
    (hcallback : ∃ pid acked, message.ackCallback = some (.puback pid acked) ∧
      mark.ackCallback = some (.puback pid true)) :
    { s with flow := s.flow.setTaken i mark }.Kept where
  arrivals := h.arrivals
  replay := h.replay
  frames := h.frames
  queued := h.queued
  taken other hother := by
    rcases List.mem_or_eq_of_mem_set hother with hold | rfl
    · exact h.taken other hold
    · obtain ⟨m, packet, pid, horigin, hm, hpid, hown⟩ :=
        h.taken message (List.mem_of_getElem? hi)
      obtain ⟨k, acked, hk, hmark⟩ := hcallback
      rw [hown, Option.some.injEq, AckCallback.puback.injEq] at hk
      refine ⟨m, packet, pid, by rw [hseq]; exact horigin, hm, hpid, ?_⟩
      rw [hmark, hresolved, hk.1]
  messages := h.messages
  underWay := h.underWay
  acked puback hpuback := by
    obtain ⟨other, hother, hdone, horigin⟩ := h.acked puback hpuback
    obtain ⟨j, hj⟩ := List.getElem?_of_mem hother
    by_cases heq : i = j
    · subst heq
      obtain rfl : message = other := Option.some.inj (hi.symm.trans hj)
      refine ⟨mark, List.mem_set (List.getElem?_eq_some_iff.mp hi).1 _, hresolved, ?_⟩
      rw [hseq]
      exact horigin
    · refine ⟨other, List.mem_of_getElem? (i := j) ?_, hdone, horigin⟩
      rw [setTaken, List.getElem?_set_ne heq]
      exact hj
  known := h.known
  unfinished := h.unfinished
  own := ⟨h.own.once, h.own.own⟩

/-- `ack()` on a copy does nothing, or it sends PUBACK. -/
theorem ack_copy (flow : InboundPublishFlow) (i : Nat) {message : Message} {pid : Int}
    (hcallback : message.ackCallback = some (.puback pid message.resolved)) :
    (flow.ack i message = flow ∨
      message.resolved = false ∧ flow.ack i message =
        ((flow.setTaken i
          { message with resolved := true, ackCallback := some (.puback pid true) }).emit
            (.acked message.seq)).complete pid (.sentPuback message.seq pid)) := by
  cases hresolved : message.resolved with
  | true => exact .inl (by simp [InboundPublishFlow.ack, hresolved])
  | false =>
      rw [hresolved] at hcallback
      exact .inr ⟨rfl, by simp [InboundPublishFlow.ack, hresolved, hcallback]⟩

/-- The first PUBACK of a message: its flow is unfinished. -/
theorem Kept.acknowledged {flow : InboundPublishFlow} {m : Nat} {packet : Publish} {pid : Int}
    {mark : Message} (h : { s with flow }.Kept) (hm : s.messages[m]? = some packet)
    (hpid : packet.packetId = some pid) (hmark : mark ∈ flow.taken) (hresolved : mark.resolved = true)
    (horigin : s.origin mark.seq = some m)
    (hfirst : some m ∉ s.pubacks.map SentPuback.message) :
    { s with
      flow := (flow.emit (.acked mark.seq)).complete pid (.sentPuback mark.seq pid)
      pubacks := s.pubacks ++
        [SentPuback.mk pid (some m) (OrderedDict.get s.unfinished pid)] }.Kept := by
  have hunsettled : some m ∉ (s.pubacks.take s.settled).map SentPuback.message := fun hmem =>
    hfirst (List.map_subset _ (List.take_subset _ _) hmem)
  have hget := h.unfinished m packet pid hm hpid hunsettled
  refine ⟨h.arrivals, h.replay, h.frames, h.queued, h.taken, h.messages, h.underWay, ?_, ?_, ?_, ?_,
    ?_⟩
  · intro puback hpuback
    rcases List.mem_append.mp hpuback with hold | hnew
    · exact h.acked puback hold
    · rw [List.mem_singleton.mp hnew]
      exact ⟨mark, hmark, hresolved, horigin⟩
  · intro puback hpuback
    rcases List.mem_append.mp hpuback with hold | hnew
    · exact h.known puback hold
    · rw [List.mem_singleton.mp hnew]
      exact ⟨m, packet, rfl, hm, hpid⟩
  · intro k other id hk hid hnot
    apply h.unfinished k other id hk hid
    rw [List.take_append, List.map_append] at hnot
    exact fun hmem => hnot (List.mem_append_left _ hmem)
  · rw [List.map_append, List.nodup_append]
    refine ⟨h.own.once, List.nodup_singleton _, ?_⟩
    intro a ha b hb heq
    rw [heq, List.mem_singleton.mp hb] at ha
    exact hfirst ha
  · intro puback hpuback
    rcases List.mem_append.mp hpuback with hold | hnew
    · exact h.own.own puback hold
    · rw [List.mem_singleton.mp hnew]
      exact .inr hget

theorem Kept.ack {i : Nat} {next : ManualAcks} (h : s.Kept) (hok : s.oneCopy (.ack i) = true)
    (hnext : s.step (.ack i) = some next) : next.Kept := by
  obtain ⟨flow, hflow, rfl⟩ := Option.map_eq_some_iff.mp hnext
  obtain ⟨message, hi, rfl⟩ := Option.map_eq_some_iff.mp hflow
  obtain ⟨m, packet, pid, horigin, hm, hpid, hcallback⟩ :=
    h.taken message (List.mem_of_getElem? hi)
  rcases ack_copy s.flow i hcallback with hack | ⟨hresolved, hack⟩
  · rw [hack, advance_quiet ⟨⟨[], rfl, by simp⟩, rfl, rfl⟩]
    exact h
  · have hfirst : some m ∉ s.pubacks.map SentPuback.message := by
      intro hmem
      obtain ⟨puback, hpuback, hsame⟩ := List.mem_map.mp hmem
      obtain ⟨other, hother, hdone, hcopy⟩ := h.acked puback hpuback
      have hall := hok
      simp only [oneCopy, hi, Option.all_some, hresolved, Bool.false_or, List.all_eq_true] at hall
      have hnot := hall other hother
      simp [hdone, hcopy, hsame, horigin] at hnot
    have hmarked := Kept.marked
      { message with resolved := true, ackCallback := some (.puback pid true) } h hi rfl rfl
      ⟨pid, message.resolved, hcallback, rfl⟩
    have hsent := hmarked.acknowledged (s := s) hm hpid
      (List.mem_set (List.getElem?_eq_some_iff.mp hi).1 _) rfl horigin hfirst
    rw [hack, advance_log [.sentPuback message.seq pid, .acked message.seq] rfl]
    simpa [pubacksOf, horigin] using hsent

/-- The broker handles the next PUBACK. -/
theorem Kept.settle {next : ManualAcks} (h : s.Kept) (hnext : s.settle = some next) :
    next.Kept := by
  obtain ⟨puback, hpuback, rfl⟩ := Option.map_eq_some_iff.mp hnext
  obtain ⟨hlt, hget⟩ := List.getElem?_eq_some_iff.mp hpuback
  have htake : (s.pubacks.take (s.settled + 1)).map SentPuback.message =
      (s.pubacks.take s.settled).map SentPuback.message ++ [puback.message] := by
    rw [List.take_add_one, hpuback, List.map_append]
    rfl
  obtain ⟨m, packet, hmessage, hm, hpid⟩ := h.known puback (List.mem_of_getElem? hpuback)
  have honce := (List.take_sublist (s.settled + 1) s.pubacks).map SentPuback.message |>.nodup
    h.own.once
  rw [htake, List.nodup_append] at honce
  have hcurrent : OrderedDict.get s.unfinished puback.packetId = some m := by
    apply h.unfinished m packet _ hm hpid
    intro hmem
    exact honce.2.2 _ hmem _ (List.mem_singleton_self _) hmessage.symm
  refine ⟨h.arrivals, h.replay, h.frames, h.queued, h.taken, h.messages, h.underWay, h.acked,
    h.known, ?_, ⟨h.own.once, h.own.own⟩⟩
  intro k other pid hk hkid hunsettled
  rw [htake, List.mem_append, not_or] at hunsettled
  have hbefore := h.unfinished k other pid hk hkid hunsettled.1
  have hne : puback.packetId ≠ pid := by
    rintro rfl
    rw [hcurrent, Option.some.injEq] at hbefore
    rw [hmessage, hbefore] at hunsettled
    exact hunsettled.2 (List.mem_singleton_self _)
  rw [OrderedDict.get_pop, if_neg hne, hbefore]

theorem Kept.start (maxsize : Nat → Nat) (receiveMaximum : Option Nat) (sessionPresent : Bool)
    (subscriptions : SubscriptionIndex) :
    (ManualAcks.start maxsize receiveMaximum sessionPresent subscriptions).Kept := by
  refine ⟨rfl, ?_, ?_, ?_, ?_, ?_, ?_, ?_, ?_, ?_, List.nodup_nil, ?_⟩
  · intro b
    cases sessionPresent <;> simp [ManualAcks.start, InboundPublishFlow.start]
  all_goals simp [ManualAcks.start, InboundPublishFlow.start]

theorem Kept.step {a : Action} {next : ManualAcks} (h : s.Kept) (hok : s.oneCopy a = true)
    (hnext : s.step a = some next) : next.Kept := by
  cases a with
  | send packet => exact h.send hnext
  | resend pid => exact h.resend hnext
  | arrive write => exact h.arrive hnext
  | resumeReader ok write => exact h.resumeReader hnext
  | get queue => exact h.get hnext
  | ack i => exact h.ack hok hnext
  | settle => exact h.settle hnext

end Invariant

/-- **Manual acknowledgements.**  In every run in which `ack()` is called on one copy of a
message at most, a message is acknowledged once at most, and its PUBACK is never sent while
its identifier belongs to another message. -/
theorem manual_acks_own_message (maxsize : Nat → Nat) (receiveMaximum : Option Nat)
    (sessionPresent : Bool) (subscriptions : SubscriptionIndex) (actions : List Action)
    (s : ManualAcks)
    (hok : Transition.Along step (fun s a => s.oneCopy a = true)
      (start maxsize receiveMaximum sessionPresent subscriptions) actions)
    (hrun : Transition.run step (start maxsize receiveMaximum sessionPresent subscriptions)
      actions = some s) : s.OwnPubacks :=
  (Transition.invariant_along (I := Kept) (fun _ _ _ h hok hnext => h.step hok hnext)
    (Kept.start maxsize receiveMaximum sessionPresent subscriptions) hok hrun).own

/-- One subscription, to `t` and with `auto_ack=False`. -/
def manualIndex : SubscriptionIndex :=
  SubscriptionIndex.addMany {} [(str "t", { sampleEntry with autoAck := false })]

/-- A message is sent again and both copies are taken. -/
def takenTwice : List Action :=
  [.send (samplePublish .atLeastOnce 7), .arrive .done, .resend 7, .arrive .done, .get 0, .get 0]

/-- One of two copies is acknowledged, by two calls, and the identifier is used for a second
message, which is acknowledged too. -/
def oneCopyAcked : List Action :=
  takenTwice ++ [.ack 1, .ack 1, .settle, .send (samplePublish .atLeastOnce 7), .arrive .done,
    .get 0, .ack 2]

theorem manual_acks_own_message_reused :
    ∃ s, Transition.run step (start (fun _ => 0) none false manualIndex) oneCopyAcked = some s ∧
      s.pubacks = [⟨7, some 0, some 0⟩, ⟨7, some 1, some 1⟩] ∧ s.OwnPubacks := by
  refine ⟨_, rfl, by decide, ?_⟩
  exact manual_acks_own_message (fun _ => 0) none false manualIndex oneCopyAcked _ (by decide) rfl

/-- Both copies are acknowledged, the second one after the identifier went to another
message. -/
theorem second_copy_acks_other_message :
    ¬ ∀ (maxsize : Nat → Nat) (receiveMaximum : Option Nat) (sessionPresent : Bool)
      (subscriptions : SubscriptionIndex) (actions : List Action) (s : ManualAcks),
      Transition.run step (start maxsize receiveMaximum sessionPresent subscriptions) actions =
        some s → s.OwnPubacks := by
  intro h
  have hown := h (fun _ => 0) none false manualIndex
    (takenTwice ++ [.ack 0, .settle, .send (samplePublish .atLeastOnce 7), .ack 1]) _ rfl
  exact absurd (hown.own ⟨7, some 0, some 1⟩ (by decide)) (by decide)

end ManualAcks

end Zmqtt
