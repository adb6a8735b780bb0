import Mathlib.Data.Finset.Card
import Zmqtt.Packets
import Zmqtt.Protocol
import Zmqtt.SubscriptionScan

/-!
# The inbound publish flow

`InboundPublishFlow` of `inbound.py` on one connection, with what surrounds it: the
read loop that hands it packets, the subscription queues, the application that
takes messages and acknowledges them, and the drains and the expiration of the
replay buffer, each a task of its own.

A step runs one task from a suspension point to the next.  A task that handles a
message is suspended in `queue.put` or in a transport write; `Frame` says where.
The bytes of a packet reach the writer before the write can suspend or raise, so a
packet counts as sent at the call.

Three things are wider here than in `asyncio`.  A free delivery lock may be taken
by any waiting task, not only by the first.  Other tasks may run between two rounds
of `_deliver_pending`.  The request router is not modelled: each selection is told
which request, if any, the router claims for the message.
-/

namespace Zmqtt

/-! ## Messages and recipients -/

/-- A PUBLISH and its place in the order of arrival on the connection, from 1 on. -/
structure Received where
  seq : Nat
  publish : Publish
deriving DecidableEq, Repr

/-- The closures `_puback` and `_pubrec`.  The recipient that `_pubrec` captures is
the message it is set on with the captured subscription. -/
inductive AckCallback
  | puback (packetId : Int) (acked : Bool)
  | pubrec (packetId : Int) (subscription : Option IndexItem)
deriving DecidableEq, Repr

/-- `Message`.  `seq` is the arrival of its PUBLISH, 0 if on an earlier connection;
the callback of such a message acts on that connection and is left out. -/
structure Message where
  seq : Nat
  topic : Str
  payload : Bytes
  qos : QoS
  retain : Bool
  properties : Option PublishProperties
  ackCallback : Option AckCallback := none
  resolved : Bool := false
deriving DecidableEq, Repr

/-- `InboundRecipient`.  A request is the claim of the router. -/
structure InboundRecipient where
  message : Message
  request : Option Nat := none
  subscription : Option IndexItem := none
deriving DecidableEq, Repr

/-- `auto_ack`. -/
def InboundRecipient.autoAck (recipient : InboundRecipient) : Bool :=
  recipient.request.isSome || recipient.subscription.elim true fun item => item.2.autoAck

/-- `InboundQoS2Flight`; its only state is `PENDING_PUBREL`. -/
structure InboundQoS2Flight where
  packetId : Int
  recipient : InboundRecipient
  delivered : Bool := false
deriving DecidableEq, Repr

/-- `_make_message`. -/
def makeMessage (received : Received) : Message :=
  { seq := received.seq
    topic := received.publish.topic
    payload := received.publish.payload
    qos := received.publish.qos
    retain := received.publish.retain
    properties := received.publish.properties }

/-! ## Replay -/

/-- `_expiration_task`: the grace period, then the task of `expire_replay`. -/
inductive Expiration
  | absent
  | sleeping
  | running (task : Nat)
deriving DecidableEq, Repr

/-- `_PersistentReplayBuffered`.  `lock` is the holder of `_delivery_lock`. -/
structure ReplayBuffer where
  publishes : List Received := []
  packetIds : Finset Int := ∅
  topics : List (Str × Int) := []
  messageCount : Int := 0
  lock : Option Nat := none
  expiration : Expiration := .absent

/-- `_ReplayState`; the buffered states are told apart by their place in the list of
all buffers of the connection. -/
inductive ReplayState
  | noSession
  | idle
  | buffered (buffer : Nat)
deriving DecidableEq, Repr

/-- Where a task inside `drain` or `expire` of a buffer stands.  `looping` is between
two rounds of `_deliver_pending`. -/
inductive ReplayPhase
  | waiting
  | looping (unmatched pending : List Received)
  | delivering (unmatched pending : List Received) (current : Received)
  | finished
deriving DecidableEq, Repr

structure ReplayTask where
  buffer : Nat
  expires : Bool
  phase : ReplayPhase := .waiting
  cancelRequested : Bool := false
deriving DecidableEq, Repr

/-- The replay state of a connection, with every buffer and every task there was. -/
structure Replay where
  state : ReplayState
  buffers : List ReplayBuffer := []
  tasks : List ReplayTask := []

namespace ReplayBuffer

/-- The part of `accept` that holds a message. -/
def append (buffer : ReplayBuffer) (received : Received) : ReplayBuffer :=
  { buffer with
    publishes := buffer.publishes ++ [received]
    messageCount := buffer.messageCount + 1
    topics := OrderedDict.set buffer.topics received.publish.topic
      ((OrderedDict.get buffer.topics received.publish.topic).getD 0 + 1)
    packetIds := received.publish.packetId.elim buffer.packetIds fun pid =>
      insert pid buffer.packetIds
    expiration := if buffer.expiration = .absent then .sleeping else buffer.expiration }

/-- The containers after `clear` or `_drop_pending`. -/
def emptied (buffer : ReplayBuffer) : ReplayBuffer :=
  { buffer with publishes := [], packetIds := ∅, topics := [], messageCount := 0 }

/-- `_discard`, and whether it raised `KeyError`. -/
def discard (buffer : ReplayBuffer) (received : Received) : ReplayBuffer × Bool :=
  let topic := received.publish.topic
  match OrderedDict.get buffer.topics topic with
  | none => ({ buffer with messageCount := buffer.messageCount - 1 }, true)
  | some count =>
      ({ buffer with
          messageCount := buffer.messageCount - 1
          topics :=
            if count - 1 = 0 then OrderedDict.pop buffer.topics topic
            else OrderedDict.set buffer.topics topic (count - 1)
          packetIds := received.publish.packetId.elim buffer.packetIds fun pid =>
            buffer.packetIds.erase pid },
        false)

end ReplayBuffer

namespace Replay

def buffer (replay : Replay) (b : Nat) : ReplayBuffer := replay.buffers[b]?.getD {}

/-- `contains_packet_id` of the active state. -/
def containsPacketId (replay : Replay) (pid : Int) : Bool :=
  match replay.state with
  | .buffered b => decide (pid ∈ (replay.buffer b).packetIds)
  | _ => false

/-- A new buffered state. -/
def addBuffer (replay : Replay) : Replay :=
  { replay with
    buffers := replay.buffers ++ [{}]
    state := .buffered replay.buffers.length }

def modifyBuffer (replay : Replay) (b : Nat) (f : ReplayBuffer → ReplayBuffer) : Replay :=
  { replay with buffers := replay.buffers.modify b f }

def setPhase (replay : Replay) (t : Nat) (phase : ReplayPhase) : Replay :=
  { replay with tasks := replay.tasks.modify t fun task => { task with phase } }

/-- `task.cancel()`. -/
def cancel (replay : Replay) (t : Nat) : Replay :=
  { replay with tasks := replay.tasks.modify t fun task => { task with cancelRequested := true } }

/-- A new task inside `drain` or `expire`. -/
def addTask (replay : Replay) (buffer : Nat) (expires : Bool) : Replay :=
  { replay with tasks := replay.tasks ++ [{ buffer, expires }] }

/-- `_cancel_expiration`, not called by the expiration task itself. -/
def cancelExpiration (replay : Replay) (b : Nat) : Replay :=
  let absent := replay.modifyBuffer b fun buffer => { buffer with expiration := .absent }
  match (replay.buffer b).expiration with
  | .running t => absent.cancel t
  | _ => absent

/-- The `finally` of `_deliver_pending` and the release of the lock. -/
def release (replay : Replay) (b t : Nat) (unmatched pending : List Received) : Replay :=
  (replay.modifyBuffer b fun buffer =>
    { buffer with publishes := unmatched ++ pending ++ buffer.publishes, lock := none }).setPhase t
      .finished

/-- The `finally` of `_expire_after_timeout`. -/
def endExpiration (replay : Replay) (b t : Nat) : Replay :=
  replay.modifyBuffer b fun buffer =>
    { buffer with
      expiration := if buffer.expiration = .running t then .absent else buffer.expiration }

/-- `if self._replay is replay: self._replay = next_replay`. -/
def advanceState (replay : Replay) (b : Nat) (next : ReplayState) : Replay :=
  { replay with state := if replay.state = .buffered b then next else replay.state }

end Replay

/-! ## The flow -/

/-- The exceptions of the inbound flow. -/
inductive InboundError
  | protocolError (msg : String)
  | valueError (msg : String)
  | keyError
  | interrupted
deriving DecidableEq, Repr

/-- What happens, in the order in which it happens. -/
inductive InboundEvent
  | receivedPublish (received : Received)
  | receivedPubrel (packetId : Int)
  /-- `_NoSessionReplay` found no recipient. -/
  | noSubscriber (seq : Nat)
  /-- Held in the replay buffer. -/
  | buffered (seq : Nat)
  /-- Refused because the replay buffer is full. -/
  | rejected (seq : Nat)
  /-- Dropped from the replay buffer by `expire` or `clear`. -/
  | dropped (seq : Nat)
  /-- A recipient was selected and the QoS flow of the message begins. -/
  | routed (seq : Nat)
  /-- The entry of the recipient was detached. -/
  | refused (seq oid : Nat)
  /-- The entry of the recipient was not detached before `queue.put`. -/
  | offered (seq oid : Nat)
  /-- `queue.put` is done; `detached` is the flag of the entry after it. -/
  | put (seq oid : Nat) (detached : Bool)
  | requestDelivered (seq request : Nat)
  /-- A QoS 2 message is registered under its identifier. -/
  | accepted (seq : Nat) (packetId : Int)
  /-- `Message.ack()` ran the callback of the message. -/
  | acked (seq : Nat)
  | sentPuback (seq : Nat) (packetId : Int)
  | sentPubrec (packetId : Int)
  | sentPubcomp (packetId reasonCode : Int) (flight : Option InboundQoS2Flight)
  | aborted (reasonCode : Option Int)
deriving DecidableEq, Repr

/-- Where a task that handles one message stands.  It is suspended in `putting` while
the queue is full, and in `sending`; `next` is delivered after the write. -/
inductive Frame
  | delivering (recipient : InboundRecipient) (ackCallback : Option AckCallback)
      (puback : Option Int)
  | putting (recipient : InboundRecipient) (entry : SubscriptionEntry)
      (ackCallback : Option AckCallback) (puback : Option Int)
  | completing (seq : Nat) (packetId : Int)
  | sending (next : Option InboundRecipient)
  | returned
  | raised (error : InboundError)
deriving DecidableEq, Repr

/-- The tasks that handle messages. -/
inductive Owner
  | reader
  | task (t : Nat)
deriving DecidableEq, Repr

/-- `InboundPublishFlow` and the inbound part of `SessionState`.  `queued` lists the
messages in all subscription queues, oldest first, `taken` those the application
has taken.  `frames` has an entry for each task suspended inside a message.  `log`
has the newest event first. -/
structure InboundPublishFlow where
  inflightQos2In : List (Int × InboundQoS2Flight) := []
  pendingAckQos2In : Finset Int := ∅
  subscriptions : SubscriptionIndex := {}
  detached : List Nat := []
  maxsize : Nat → Nat
  queued : List (Nat × Message) := []
  taken : List Message := []
  sessionReplayBufferSize : Nat
  receiveMaximum : Option Nat
  unacknowledged : Finset Int := ∅
  replay : Replay
  ended : Option InboundError := none
  frames : List (Owner × Frame) := []
  nextSeq : Nat := 1
  log : List InboundEvent := []

namespace InboundPublishFlow

def emit (s : InboundPublishFlow) (event : InboundEvent) : InboundPublishFlow :=
  { s with log := event :: s.log }

def setReplay (s : InboundPublishFlow) (replay : Replay) : InboundPublishFlow := { s with replay }

/-- `queue.full()`; a queue of maximal size 0 is unbounded. -/
def full (s : InboundPublishFlow) (queue : Nat) : Bool :=
  decide (0 < s.maxsize queue) &&
    decide (s.maxsize queue ≤ (s.queued.filter fun item => item.1 = queue).length)

/-- `queue.get_nowait()`: the first message of the queue and the rest of all. -/
def getNowait (queue : Nat) : List (Nat × Message) → Option (Message × List (Nat × Message))
  | [] => none
  | item :: rest =>
      if item.1 = queue then some (item.2, rest)
      else (getNowait queue rest).map fun found => (found.1, item :: found.2)

/-- `queue.put_nowait(message)`. -/
def push (s : InboundPublishFlow) (queue : Nat) (message : Message) : InboundPublishFlow :=
  { s with queued := s.queued ++ [(queue, message)] }

/-- `_select_subscription`. -/
def selectSubscription (s : InboundPublishFlow) (publish : Publish) : SubscriptionSelection :=
  match publish.properties.bind PublishProperties.subscriptionIdentifier with
  | none => s.subscriptions.select publish.topic
  | some identifier => s.subscriptions.selectByIdentifier publish.topic identifier

/-- `select_recipient`; `claim` is the answer of the request router. -/
def selectRecipient (s : InboundPublishFlow) (received : Received) (claim : Option Nat) :
    InboundRecipient :=
  match claim with
  | some request => { message := makeMessage received, request := some request }
  | none =>
      { message := makeMessage received
        subscription := (s.selectSubscription received.publish).recipient }

/-! ### Sending -/

/-- What follows a write: the next delivery, or nothing. -/
def afterSend : Option InboundRecipient → Frame
  | none => .returned
  | some recipient => .delivering recipient none none

/-- The frame after a call of `send_packet`. -/
def sent (write : WriteOutcome) (next : Option InboundRecipient) : Frame :=
  match write with
  | .done => afterSend next
  | .suspended => .sending next
  | .failed => .raised .interrupted

/-- `_complete`: the unit is released, then the acknowledgement is sent. -/
def complete (s : InboundPublishFlow) (packetId : Int) (ack : InboundEvent) :
    InboundPublishFlow :=
  { s with unacknowledged := s.unacknowledged.erase packetId }.emit ack

/-! ### Delivery -/

/-- After a delivery that returned `True`: PUBACK for a QoS 1 message. -/
def afterDelivery (seq : Nat) : Option Int → Frame
  | none => .returned
  | some packetId => .completing seq packetId

/-- `_deliver` up to `queue.put`. -/
def deliver (s : InboundPublishFlow) (recipient : InboundRecipient)
    (ackCallback : Option AckCallback) (puback : Option Int) : InboundPublishFlow × Frame :=
  let seq := recipient.message.seq
  match recipient.request, recipient.subscription with
  | some request, _ => (s.emit (.requestDelivered seq request), afterDelivery seq puback)
  | none, none => (s, afterDelivery seq puback)
  | none, some (_, entry) =>
      if entry.oid ∈ s.detached then (s.emit (.refused seq entry.oid), .returned)
      else (s.emit (.offered seq entry.oid), .putting recipient entry ackCallback puback)

/-- The message as it is put in the queue. -/
def withCallback (message : Message) (entry : SubscriptionEntry)
    (ackCallback : Option AckCallback) : Message :=
  if !entry.autoAck && ackCallback.isSome then { message with ackCallback } else message

/-- `_deliver` from a `queue.put` that finds room to its end. -/
def finishPut (s : InboundPublishFlow) (recipient : InboundRecipient) (entry : SubscriptionEntry)
    (ackCallback : Option AckCallback) (puback : Option Int) : InboundPublishFlow × Frame :=
  let seq := recipient.message.seq
  let pushed := s.push entry.queue (withCallback recipient.message entry ackCallback)
  if entry.oid ∈ s.detached then
    ({ s with queued := (getNowait entry.queue pushed.queued).elim pushed.queued Prod.snd }.emit
        (.put seq entry.oid true),
      .returned)
  else (pushed.emit (.put seq entry.oid false), afterDelivery seq puback)

/-- One call of a task that handles a message. -/
def advance (write : WriteOutcome) : InboundPublishFlow × Frame → InboundPublishFlow × Frame
  | (s, .delivering recipient ackCallback puback) => s.deliver recipient ackCallback puback
  | (s, .putting recipient entry ackCallback puback) =>
      if s.full entry.queue then (s, .putting recipient entry ackCallback puback)
      else s.finishPut recipient entry ackCallback puback
  | (s, .completing seq packetId) =>
      (s.complete packetId (.sentPuback seq packetId), sent write none)
  | (s, frame) => (s, frame)

/-- The calls of a task up to its suspension or its end.  After `_deliver` come at most
the put and the acknowledgement. -/
def settle (write : WriteOutcome) (x : InboundPublishFlow × Frame) : InboundPublishFlow × Frame :=
  advance write (advance write (advance write x))

/-- A suspended task goes on, or its `await` raises. -/
def resumed (frame : Frame) (ok : Bool) : Frame :=
  if ok then
    match frame with
    | .sending next => afterSend next
    | _ => frame
  else .raised .interrupted

/-! ### The replay buffer accepts -/

/-- What becomes of a message in `_select_recipient_or_buffer`. -/
inductive Routing
  | recipient (recipient : InboundRecipient)
  | held
  | raised (error : InboundError)
deriving DecidableEq, Repr

/-- `accept` of a buffered state, from the check of the identifier on. -/
def hold (s : InboundPublishFlow) (b : Nat) (buffer : ReplayBuffer) (received : Received) :
    InboundPublishFlow × Routing :=
  if received.publish.packetId.elim false fun pid => decide (pid ∈ buffer.packetIds) then (s, .held)
  else if s.sessionReplayBufferSize ≠ 0 ∧ (s.sessionReplayBufferSize : Int) ≤ buffer.messageCount
  then
    ((s.emit (.rejected received.seq)).emit (.aborted none),
      .raised (.protocolError
        s!"Persistent-session replay buffer limit of {s.sessionReplayBufferSize} messages exceeded"))
  else
    ((s.setReplay (s.replay.modifyBuffer b fun buffer => buffer.append received)).emit
        (.buffered received.seq),
      .held)

/-- `_select_recipient_or_buffer`. -/
def selectRecipientOrBuffer (s : InboundPublishFlow) (received : Received) (claim : Option Nat) :
    InboundPublishFlow × Routing :=
  let selected := s.selectRecipient received claim
  match s.replay.state with
  | .noSession =>
      if selected.request = none ∧ selected.subscription = none then
        (s.emit (.noSubscriber received.seq), .recipient selected)
      else (s, .recipient selected)
  | .idle =>
      if selected.request.isSome || selected.subscription.isSome then (s, .recipient selected)
      else (s.setReplay s.replay.addBuffer).hold s.replay.buffers.length {} received
  | .buffered b =>
      let buffer := s.replay.buffer b
      if selected.request.isSome then (s, .recipient selected)
      else if selected.subscription.isSome &&
          (OrderedDict.get buffer.topics received.publish.topic).isNone then
        (s, .recipient selected)
      else s.hold b buffer received

/-! ### The QoS flows -/

def noPacketId : InboundError := .valueError "Cannot publish without packet id"

/-- `_deliver_qos1_publish`. -/
def deliverQos1Publish (s : InboundPublishFlow) (received : Received)
    (recipient : InboundRecipient) : InboundPublishFlow × Frame :=
  match received.publish.packetId with
  | none => (s, .raised noPacketId)
  | some pid =>
      if recipient.autoAck then (s, .delivering recipient none (some pid))
      else (s, .delivering recipient (some (.puback pid false)) none)

/-- A QoS 2 message is registered and PUBREC is sent. -/
def sendPubrec (s : InboundPublishFlow) (pid : Int) (flight : InboundQoS2Flight) :
    InboundPublishFlow :=
  { s with inflightQos2In := OrderedDict.set s.inflightQos2In pid flight }.emit (.sentPubrec pid)

def addPendingAck (s : InboundPublishFlow) (pid : Int) : InboundPublishFlow :=
  { s with pendingAckQos2In := insert pid s.pendingAckQos2In }

def removePendingAck (s : InboundPublishFlow) (pid : Int) : InboundPublishFlow :=
  { s with pendingAckQos2In := s.pendingAckQos2In.erase pid }

/-- The entry of the recipient, if it is detached. -/
def detachedEntry (s : InboundPublishFlow) (recipient : InboundRecipient) : Option Nat :=
  recipient.subscription.bind fun item =>
    if item.2.oid ∈ s.detached then some item.2.oid else none

/-- `_accept_qos2_publish`. -/
def acceptQos2Publish (s : InboundPublishFlow) (received : Received)
    (recipient : InboundRecipient) (write : WriteOutcome) : InboundPublishFlow × Frame :=
  match received.publish.packetId, s.detachedEntry recipient with
  | none, _ => (s, .raised noPacketId)
  | some _, some oid => (s.emit (.refused received.seq oid), .returned)
  | some pid, none =>
      if recipient.autoAck then
        ((s.emit (.accepted received.seq pid)).sendPubrec pid { packetId := pid, recipient },
          sent write none)
      else
        ((s.addPendingAck pid).emit (.accepted received.seq pid),
          .delivering recipient (some (.pubrec pid recipient.subscription)) none)

/-- `deliver_replay`, also the last part of `handle_publish`. -/
def deliverReplay (s : InboundPublishFlow) (received : Received) (recipient : InboundRecipient)
    (write : WriteOutcome) : InboundPublishFlow × Frame :=
  let s := s.emit (.routed received.seq)
  match received.publish.qos with
  | .atMostOnce => (s, .delivering recipient none none)
  | .atLeastOnce => s.deliverQos1Publish received recipient
  | .exactlyOnce => s.acceptQos2Publish received recipient write

/-- `_select_recipient_or_buffer` and the delivery to the recipient. -/
def route (s : InboundPublishFlow) (received : Received) (claim : Option Nat)
    (write : WriteOutcome) : InboundPublishFlow × Frame :=
  match s.selectRecipientOrBuffer received claim with
  | (s, .recipient recipient) => s.deliverReplay received recipient write
  | (s, .held) => (s, .returned)
  | (s, .raised error) => (s, .raised error)

def addUnacknowledged (s : InboundPublishFlow) (packetId : Int) : InboundPublishFlow :=
  { s with unacknowledged := insert packetId s.unacknowledged }

/-- `_hold_receive_quota`, and the exception it raised. -/
def holdReceiveQuota (s : InboundPublishFlow) (packetId : Int) :
    InboundPublishFlow × Option InboundError :=
  let s := s.addUnacknowledged packetId
  match s.receiveMaximum with
  | none => (s, none)
  | some limit =>
      if limit < s.unacknowledged.card then
        (s.emit (.aborted (some 0x93)),
          some (.protocolError
            s!"Broker exceeded the Receive Maximum of {limit} unacknowledged QoS 1/2 messages"))
      else (s, none)

/-- `_handle_qos1_publish`. -/
def handleQos1Publish (s : InboundPublishFlow) (received : Received) (claim : Option Nat)
    (write : WriteOutcome) : InboundPublishFlow × Frame :=
  match received.publish.packetId with
  | none => (s, .raised noPacketId)
  | some pid =>
      match s.holdReceiveQuota pid with
      | (s, some error) => (s, .raised error)
      | (s, none) =>
          if s.replay.containsPacketId pid then (s, .returned) else s.route received claim write

/-- `_handle_qos2_publish`. -/
def handleQos2Publish (s : InboundPublishFlow) (received : Received) (claim : Option Nat)
    (write : WriteOutcome) : InboundPublishFlow × Frame :=
  match received.publish.packetId with
  | none => (s, .raised noPacketId)
  | some pid =>
      match s.holdReceiveQuota pid with
      | (s, some error) => (s, .raised error)
      | (s, none) =>
          if (OrderedDict.get s.inflightQos2In pid).isSome then
            (s.emit (.sentPubrec pid), sent write none)
          else if pid ∈ s.pendingAckQos2In then (s, .returned)
          else if s.replay.containsPacketId pid then (s, .returned)
          else s.route received claim write

/-- A PUBLISH is given its place in the order of arrival. -/
def receive (s : InboundPublishFlow) (packet : Publish) : InboundPublishFlow :=
  { s with nextSeq := s.nextSeq + 1 }.emit
    (.receivedPublish { seq := s.nextSeq, publish := packet })

/-- `handle_publish` up to its first suspension. -/
def handlePublish (s : InboundPublishFlow) (packet : Publish) (claim : Option Nat)
    (write : WriteOutcome) : InboundPublishFlow × Frame :=
  let received : Received := { seq := s.nextSeq, publish := packet }
  let s := s.receive packet
  match packet.qos with
  | .atMostOnce => s.route received claim write
  | .atLeastOnce => s.handleQos1Publish received claim write
  | .exactlyOnce => s.handleQos2Publish received claim write

/-- A registered QoS 2 flow ends with its PUBCOMP. -/
def closeFlight (s : InboundPublishFlow) (pid : Int) (flight : InboundQoS2Flight) :
    InboundPublishFlow :=
  { s with inflightQos2In := OrderedDict.pop s.inflightQos2In pid }.complete pid
    (.sentPubcomp pid 0 (some flight))

/-- `handle_pubrel` up to its first suspension. -/
def handlePubrel (s : InboundPublishFlow) (packet : PubReply) (write : WriteOutcome) :
    InboundPublishFlow × Frame :=
  let pid := packet.packetId
  let s := s.emit (.receivedPubrel pid)
  match OrderedDict.get s.inflightQos2In pid with
  | none => (s.emit (.sentPubcomp pid 0x92 none), sent write none)
  | some flight =>
      (s.closeFlight pid flight,
        sent write (if flight.delivered then none else some flight.recipient))

/-! ### The application -/

def setTaken (s : InboundPublishFlow) (i : Nat) (message : Message) : InboundPublishFlow :=
  { s with taken := s.taken.set i message }

/-- `Message.ack` on a message the application has taken. -/
def ack (s : InboundPublishFlow) (i : Nat) (message : Message) : InboundPublishFlow :=
  if message.resolved then s
  else
    match message.ackCallback with
    | none => s.setTaken i { message with resolved := true }
    | some (.puback pid acked) =>
        let s := s.setTaken i
          { message with resolved := true, ackCallback := some (.puback pid true) }
        if acked then s
        else (s.emit (.acked message.seq)).complete pid (.sentPuback message.seq pid)
    | some (.pubrec pid subscription) =>
        let message := { message with resolved := true }
        (((s.setTaken i message).emit (.acked message.seq)).removePendingAck pid).sendPubrec pid
          { packetId := pid, recipient := { message, subscription }, delivered := true }

/-- `Subscription.detach`: the entries of its filters are marked and its queue is
emptied. -/
def detach (s : InboundPublishFlow) (filters : List Str) (queue : Nat) : InboundPublishFlow :=
  { s with
    detached := s.detached ++
      filters.filterMap fun f => (OrderedDict.get s.subscriptions.entries f).map SubscriptionEntry.oid
    queued := s.queued.filter fun item => item.1 ≠ queue }

/-! ### Drain and expiry -/

/-- The messages of a list are dropped. -/
def dropAll (s : InboundPublishFlow) (dropped : List Received) : InboundPublishFlow :=
  { s with log := (dropped.map fun received => InboundEvent.dropped received.seq).reverse ++ s.log }

/-- The end of a task by an exception, after the `finally` of `_deliver_pending`. -/
def raiseFromTask (s : InboundPublishFlow) (t : Nat) (task : ReplayTask)
    (unmatched pending : List Received) : InboundPublishFlow :=
  let released := s.replay.release task.buffer t unmatched pending
  if task.expires then
    let s := s.setReplay (released.endExpiration task.buffer t)
    if task.cancelRequested then s else s.emit (.aborted none)
  else s.setReplay released

/-- The end of `drain` after `_deliver_pending`. -/
def finishDrain (s : InboundPublishFlow) (t b : Nat) (unmatched : List Received) :
    InboundPublishFlow :=
  let released := s.replay.release b t unmatched []
  if (s.replay.buffer b).messageCount ≠ 0 then s.setReplay released
  else s.setReplay ((released.cancelExpiration b).advanceState b .idle)

/-- The end of `expire` after `_deliver_pending`. -/
def finishExpire (s : InboundPublishFlow) (t b : Nat) (unmatched : List Received) :
    InboundPublishFlow :=
  let dropped := (s.replay.release b t unmatched []).modifyBuffer b ReplayBuffer.emptied
  let next := if (s.replay.buffer b).messageCount ≠ 0 then ReplayState.noSession else .idle
  (s.setReplay ((dropped.advanceState b next).endExpiration b t)).dropAll unmatched

/-- A task has handled its current message, or is suspended inside it. -/
def storeTask (t : Nat) (task : ReplayTask) (unmatched pending : List Received)
    (current : Received) : InboundPublishFlow × Frame → InboundPublishFlow
  | (s, .returned) =>
      let discarded := (s.replay.buffer task.buffer).discard current
      let s := s.setReplay (s.replay.modifyBuffer task.buffer fun _ => discarded.1)
      if discarded.2 then s.raiseFromTask t task unmatched pending
      else s.setReplay (s.replay.setPhase t (.looping unmatched pending))
  | (s, .raised _) => s.raiseFromTask t task (unmatched ++ [current]) pending
  | (s, frame) => { s with frames := OrderedDict.set s.frames (.task t) frame }

/-- No recipient, or one whose queue is full: the message stays in the buffer. -/
def unready (s : InboundPublishFlow) (recipient : InboundRecipient) : Bool :=
  (recipient.request.isNone && recipient.subscription.isNone) ||
    recipient.subscription.elim false fun item => s.full item.2.queue

/-- One round of `_deliver_pending`. -/
def deliverNext (s : InboundPublishFlow) (t : Nat) (task : ReplayTask) (claim : Option Nat)
    (write : WriteOutcome) : Option InboundPublishFlow :=
  match task.phase with
  | .looping unmatched [] =>
      let publishes := (s.replay.buffer task.buffer).publishes
      if publishes = [] then
        if task.expires then some (s.finishExpire t task.buffer unmatched)
        else some (s.finishDrain t task.buffer unmatched)
      else
        some (s.setReplay
          ((s.replay.modifyBuffer task.buffer fun buffer => { buffer with publishes := [] }).setPhase
            t (.looping unmatched publishes)))
  | .looping unmatched (received :: pending) =>
      let recipient := s.selectRecipient received claim
      if s.unready recipient then
        some (s.setReplay (s.replay.setPhase t (.looping (unmatched ++ [received]) pending)))
      else
        let s := s.setReplay (s.replay.setPhase t (.delivering unmatched pending received))
        some (storeTask t task unmatched pending received
          (settle write (s.deliverReplay received recipient write)))
  | _ => none

/-- `drain()` of the flow: a task enters the buffered state. -/
def drain (s : InboundPublishFlow) : InboundPublishFlow :=
  match s.replay.state with
  | .buffered b => s.setReplay (s.replay.addTask b false)
  | _ => s

/-- The grace period of a buffer ends: `expire_replay`. -/
def expireReplay (s : InboundPublishFlow) (b : Nat) : Option InboundPublishFlow :=
  if (s.replay.buffer b).expiration = .sleeping then
    if s.replay.state = .buffered b then
      let running := s.replay.modifyBuffer b fun buffer =>
        { buffer with expiration := .running s.replay.tasks.length }
      some (s.setReplay (running.addTask b true))
    else
      some (s.setReplay (s.replay.modifyBuffer b fun buffer =>
        { buffer with expiration := .absent }))
  else none

/-- A waiting task takes the free lock of its buffer. -/
def acquireLock (s : InboundPublishFlow) (t : Nat) (task : ReplayTask) :
    Option InboundPublishFlow :=
  if task.phase = .waiting ∧ task.cancelRequested = false ∧
      (s.replay.buffer task.buffer).lock = none then
    some (s.setReplay
      ((s.replay.modifyBuffer task.buffer fun buffer => { buffer with lock := some t }).setPhase t
        (.looping [] [])))
  else none

/-- A suspended task wakes up: inside a message, or cancelled while it waits for the
lock. -/
def resumeTask (s : InboundPublishFlow) (t : Nat) (task : ReplayTask) (ok : Bool)
    (write : WriteOutcome) : Option InboundPublishFlow :=
  match task.phase with
  | .waiting =>
      if task.cancelRequested then
        let finished := s.replay.setPhase t .finished
        some (s.setReplay
          (if task.expires then finished.endExpiration task.buffer t else finished))
      else none
  | .delivering unmatched pending current =>
      (OrderedDict.get s.frames (.task t)).map fun frame =>
        storeTask t task unmatched pending current
          (settle write
            ({ s with frames := OrderedDict.pop s.frames (.task t) },
              resumed frame (ok && !task.cancelRequested)))
  | _ => none

/-- `clear`. -/
def clear (s : InboundPublishFlow) : InboundPublishFlow :=
  match s.replay.state with
  | .noSession => s
  | .idle => s.setReplay { s.replay with state := .noSession }
  | .buffered b =>
      let emptied := (s.replay.cancelExpiration b).modifyBuffer b ReplayBuffer.emptied
      (s.setReplay { emptied with state := .noSession }).dropAll (s.replay.buffer b).publishes

/-! ### Steps -/

/-- A handler of the read loop returned, raised, or is suspended. -/
def storeReader : InboundPublishFlow × Frame → InboundPublishFlow
  | (s, .returned) => s
  | (s, .raised error) => { s with ended := some error }
  | (s, frame) => { s with frames := OrderedDict.set s.frames .reader frame }

/-- The read loop waits for the next packet. -/
def readerIdle (s : InboundPublishFlow) : Bool :=
  s.ended.isNone && (OrderedDict.get s.frames .reader).isNone

/-- What can happen next.  `write` is the outcome of the transport write of the step,
if it makes one; `ok` says that the `await` of a suspended task does not raise. -/
inductive Action
  | publish (packet : Publish) (claim : Option Nat) (write : WriteOutcome)
  | pubrel (packet : PubReply) (write : WriteOutcome)
  | resumeReader (ok : Bool) (write : WriteOutcome)
  | get (queue : Nat)
  | ack (i : Nat)
  | index (op : IndexOp)
  | detach (filters : List Str) (queue : Nat)
  | drain
  | expireReplay (b : Nat)
  | acquireLock (t : Nat)
  | deliverNext (t : Nat) (claim : Option Nat) (write : WriteOutcome)
  | resumeTask (t : Nat) (ok : Bool) (write : WriteOutcome)
  | cancel (t : Nat)
  | clear

def step (s : InboundPublishFlow) : Action → Option InboundPublishFlow
  | .publish packet claim write =>
      if s.readerIdle then some (storeReader (settle write (s.handlePublish packet claim write)))
      else none
  | .pubrel packet write =>
      if s.readerIdle then some (storeReader (settle write (s.handlePubrel packet write))) else none
  | .resumeReader ok write =>
      (OrderedDict.get s.frames .reader).map fun frame =>
        storeReader (settle write
          ({ s with frames := OrderedDict.pop s.frames .reader }, resumed frame ok))
  | .get queue =>
      (getNowait queue s.queued).map fun found =>
        { s with queued := found.2, taken := s.taken ++ [found.1] }
  | .ack i => s.taken[i]?.map fun message => s.ack i message
  | .index op => some { s with subscriptions := s.subscriptions.apply op }
  | .detach filters queue => some (s.detach filters queue)
  | .drain => some s.drain
  | .expireReplay b => s.expireReplay b
  | .acquireLock t => s.replay.tasks[t]?.bind fun task => s.acquireLock t task
  | .deliverNext t claim write =>
      s.replay.tasks[t]?.bind fun task => s.deliverNext t task claim write
  | .resumeTask t ok write => s.replay.tasks[t]?.bind fun task => s.resumeTask t task ok write
  | .cancel t =>
      if t < s.replay.tasks.length then some (s.setReplay (s.replay.cancel t)) else none
  | .clear => some s.clear

/-- What a connection starts with: the limits, the entries of detached subscriptions
restored by `_connect`, and the messages that earlier connections left in the queues. -/
structure Config where
  maxsize : Nat → Nat := fun _ => 0
  sessionReplayBufferSize : Nat := 1000
  receiveMaximum : Option Nat := none
  sessionPresent : Bool := false
  restored : List IndexItem := []
  backlog : List (Nat × Publish) := []

/-- The flow after `begin_session` and `restore_detached`. -/
def start (config : Config) : InboundPublishFlow where
  subscriptions := SubscriptionIndex.addMany {} config.restored
  detached := config.restored.map fun item => item.2.oid
  maxsize := config.maxsize
  queued := config.backlog.map fun item => (item.1, makeMessage { seq := 0, publish := item.2 })
  sessionReplayBufferSize := config.sessionReplayBufferSize
  receiveMaximum := config.receiveMaximum
  replay := { state := if config.sessionPresent then .idle else .noSession }

end InboundPublishFlow

/-- A small PUBLISH, for runs on fixed inputs. -/
def samplePublish (qos : QoS) (pid : Int) : Publish :=
  { topic := str "t", payload := [], qos, retain := false, dup := false, packetId := some pid }

/-- The subscription of the runs on fixed inputs. -/
def sampleEntry : SubscriptionEntry := { oid := 0, queue := 0 }

end Zmqtt
