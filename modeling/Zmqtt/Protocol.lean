import Zmqtt.Codec
import Zmqtt.PacketIdPool
import Zmqtt.SubscriptionIndex

/-!
# The protocol engine: calls and their answers

The outgoing half of `MQTTProtocol` on one connection: `publish`, `subscribe`,
`unsubscribe` and the two response-observer calls, each a coroutine of its own
task, against the handlers of the read loop.

A step runs one task from a suspension point to the next.  A call is suspended
while it waits for its subscription guards, in a transport write, on the future
of its answer, or in the replay drain that follows a subscribe.  `task.cancel()`
is two steps, as in `asyncio`: the request, which also cancels the future the
task waits on, and the wake-up that raises in the task.

Two things are wider here than in `asyncio`: a free guard may be taken by any
waiting call, not only by the first, and a call may be interleaved with others
between its guards and its body.
-/

namespace Zmqtt

/-! ## Session state -/

/-- The exceptions of calls and of the read loop. -/
inductive MqttError
  | protocolError (msg : String)
  | invalidState
  | disconnected
  | qosExceeded (requested maximum : Nat)
  | retainNotAvailable
  | publishError (reasonCode : Int)
  | subscribeError (failures : List (Str × Int))
  | packetIdsInUse
  | encoding (error : CodecError)
  | transport
  | cancelled
deriving DecidableEq, Repr

/-- An `asyncio.Future`. -/
inductive FutureState
  | pending
  | result (packet : Packet)
  | exception (error : MqttError)
  | cancelled
deriving DecidableEq, Repr

/-- `QoS1Flight`. -/
structure QoS1Flight where
  packetId : Nat
  publish : Publish
  future : Nat
deriving DecidableEq, Repr

/-- `OutboundQoS2State`. -/
inductive OutboundQoS2State
  | pendingPubrec
  | pendingPubcomp
deriving DecidableEq, Repr

/-- `OutboundQoS2Flight`. -/
structure OutboundQoS2Flight where
  packetId : Nat
  publish : Publish
  state : OutboundQoS2State
  future : Nat
deriving DecidableEq, Repr

/-- The two requests that are answered with an acknowledgement of their own. -/
inductive RequestKind
  | subscribe
  | unsubscribe
deriving DecidableEq, Repr

/-- The outgoing part of `SessionState`. -/
structure SessionState where
  packetIds : PacketIdPool := {}
  inflightQos1 : List (Nat × QoS1Flight) := []
  inflightQos2Out : List (Nat × OutboundQoS2Flight) := []
  pendingSubs : List (Nat × Nat) := []
  pendingUnsubs : List (Nat × Nat) := []
  subscriptions : SubscriptionIndex := {}

/-- `pending_subs` or `pending_unsubs`. -/
def SessionState.pending (state : SessionState) : RequestKind → List (Nat × Nat)
  | .subscribe => state.pendingSubs
  | .unsubscribe => state.pendingUnsubs

def SessionState.setPending (state : SessionState) (kind : RequestKind)
    (pending : List (Nat × Nat)) : SessionState :=
  match kind with
  | .subscribe => { state with pendingSubs := pending }
  | .unsubscribe => { state with pendingUnsubs := pending }

/-! ## Calls -/

/-- The calls that hold subscription guards. -/
inductive GuardedCall
  | subscribe (filters : List SubscriptionRequest) (queue : Nat) (autoAck : Bool)
      (subscriptionIdentifier : Option Int)
  | unsubscribe (filters : List Str)
  | addResponseObserver (topic : Str)
  | removeResponseObserver (topic : Str)
deriving DecidableEq, Repr

/-- The argument of `hold`. -/
def GuardedCall.filters : GuardedCall → List Str
  | .subscribe filters _ _ _ => filters.map SubscriptionRequest.topicFilter
  | .unsubscribe filters => filters
  | .addResponseObserver topic => [topic]
  | .removeResponseObserver topic => [topic]

/-- Python's order of strings. -/
def strLe (a b : Str) : Prop := tupleLt (b.map Fin.val) (a.map Fin.val) = false

instance : DecidableRel strLe := fun a b =>
  inferInstanceAs (Decidable (tupleLt (b.map Fin.val) (a.map Fin.val) = false))

/-- `sorted(set(filters))`. -/
def guardOrder (filters : List Str) : List Str := filters.dedup.insertionSort strLe

/-- A `_send_subscribe` or `_send_unsubscribe` in progress, with what its caller
does with the answer. -/
inductive Request
  | subscribe (filters : List SubscriptionRequest) (subscriptionIdentifier : Option Int)
      (newEntries : List Str)
  | unsubscribe (brokerFilters observedFilters : List Str)
  | restoreObservers (acknowledged : Option (List Str × UnsubAck)) (observedFilters : List Str)
  | addObserver (topic : Str)
  | removeObserver (topic : Str)
deriving DecidableEq, Repr

def Request.kind : Request → RequestKind
  | .subscribe .. => .subscribe
  | .unsubscribe .. => .unsubscribe
  | .restoreObservers .. => .subscribe
  | .addObserver _ => .subscribe
  | .removeObserver _ => .unsubscribe

/-- The request of a response observer. -/
def observerRequest (topic : Str) : SubscriptionRequest :=
  { topicFilter := topic, qos := .atMostOnce }

/-- The subscriptions of a SUBSCRIBE, empty for an UNSUBSCRIBE. -/
def Request.subscriptions : Request → List SubscriptionRequest
  | .subscribe filters _ _ => filters
  | .unsubscribe .. => []
  | .restoreObservers _ observedFilters => observedFilters.map observerRequest
  | .addObserver topic => [observerRequest topic]
  | .removeObserver _ => []

/-- The packet a request writes. -/
def Request.packet (request : Request) (pid : Nat) : Packet :=
  match request with
  | .subscribe filters identifier _ =>
      .subscribe
        { packetId := pid, subscriptions := filters
          properties := identifier.map fun i => { subscriptionIdentifier := some i } }
  | .unsubscribe brokerFilters _ => .unsubscribe { packetId := pid, topicFilters := brokerFilters }
  | .restoreObservers .. => .subscribe { packetId := pid, subscriptions := request.subscriptions }
  | .addObserver _ => .subscribe { packetId := pid, subscriptions := request.subscriptions }
  | .removeObserver topic => .unsubscribe { packetId := pid, topicFilters := [topic] }

/-- How a call ended.  `queues` are the filters that a subscribe registered. -/
inductive Outcome
  | published (ack : Option Packet)
  | subscribed (suback : SubAck) (queues : List Str)
  | unsubscribed (acknowledged : Option (List Str × UnsubAck))
  | observed
  | raised (error : MqttError)
deriving DecidableEq, Repr

/-- Where a call is suspended.  `writing` tells the transport write from the wait
for the future. -/
inductive Phase
  | guards (call : GuardedCall) (todo : List Str)
  | request (request : Request) (pid future : Nat) (writing : Bool)
  | publishQos0
  | publish (pid future : Nat) (writing : Bool)
  | draining (outcome : Outcome)
  | finished (outcome : Outcome)
deriving DecidableEq, Repr

/-- A call of a task, with the guards it holds. -/
structure Call where
  phase : Phase
  held : List Str := []
  cancelRequested : Bool := false
deriving DecidableEq, Repr

/-! ## The connection -/

/-- What an identifier was acquired for. -/
inductive Acquirer
  | publish (qos : QoS)
  | request (kind : RequestKind)
deriving DecidableEq, Repr

/-- What a run shows: identifiers acquired, packets written, and inbound packets whose
handler did not raise, or raised after the state had changed: `_handle_pubrec` sends PUBREL
last, and its packet is logged even if that write fails. -/
inductive Event
  | acquired (by_ : Acquirer) (pid : Nat)
  | wrote (packet : Packet)
  | handled (packet : Packet)
deriving DecidableEq, Repr

/-- The task of `_read_loop`. -/
inductive ReadTask
  | idle
  | writing
  | ended (error : Option MqttError)
deriving DecidableEq, Repr

/-- `MQTTProtocol` between `connect` and the end of `run`.  A future is a number:
those of publishes and those of SUBSCRIBE and UNSUBSCRIBE are kept apart.  The
last three fields record the run: `requests` are the SUBSCRIBE and UNSUBSCRIBE
packets written, in order, with identifier and future, and `replies` the SUBACK
and UNSUBACK packets received. -/
structure Connection where
  state : SessionState := {}
  flightFutures : List FutureState := []
  answerFutures : List FutureState := []
  calls : List Call := []
  version : Version := .v311
  strippedPrefixes : List Str := [str "$queue", str "$exclusive"]
  maxPublishQos : QoS := .exactlyOnce
  retainAvailable : Bool := true
  nextEntry : Nat := 0
  reader : ReadTask := .idle
  dead : Bool := false
  log : List Event := []
  requests : List (RequestKind × Nat × Nat) := []
  replies : List Packet := []

/-- The outcome of a transport write at the point of the call: it returned, it is
suspended with the bytes under way, or it raised. -/
inductive WriteOutcome
  | done
  | suspended
  | failed
deriving DecidableEq, Repr

namespace Connection

def setPhase (s : Connection) (c : Nat) (phase : Phase) : Connection :=
  { s with calls := s.calls.modify c fun call => { call with phase } }

/-- The call ends; leaving `hold` releases its guards. -/
def finish (s : Connection) (c : Nat) (outcome : Outcome) : Connection :=
  { s with calls := s.calls.modify c fun call =>
      { call with phase := .finished outcome, held := [] } }

def setSubscriptions (s : Connection) (subscriptions : SubscriptionIndex) : Connection :=
  { s with state := { s.state with subscriptions } }

/-- Futures after `set_result`, `set_exception` or `cancel` on one that is not
done. -/
def settle (futures : List FutureState) (future : Nat) (value : FutureState) :
    List FutureState :=
  if futures[future]? = some .pending then futures.set future value else futures

def settleFlight (s : Connection) (future : Nat) (value : FutureState) : Connection :=
  { s with flightFutures := settle s.flightFutures future value }

def settleAnswer (s : Connection) (future : Nat) (value : FutureState) : Connection :=
  { s with answerFutures := settle s.answerFutures future value }

/-! ### `_send_subscribe` and `_send_unsubscribe` -/

/-- The acquisition at the start of a request. -/
def openRequest (s : Connection) (kind : RequestKind) (pid : Nat) (pool : PacketIdPool) :
    Connection :=
  { s with
    state := { s.state.setPending kind (OrderedDict.set (s.state.pending kind) pid s.answerFutures.length)
      with packetIds := pool }
    answerFutures := s.answerFutures ++ [.pending]
    log := s.log ++ [.acquired (.request kind) pid] }

/-- The `finally` block of a request. -/
def closeRequest (s : Connection) (kind : RequestKind) (pid : Nat) : Connection :=
  { s with
    state := { s.state.setPending kind (OrderedDict.pop (s.state.pending kind) pid)
      with packetIds := s.state.packetIds.release pid } }

/-- What the caller of a request does with an exception. -/
def raiseFromRequest (s : Connection) (c : Nat) (request : Request) (error : MqttError) :
    Connection :=
  match request with
  | .subscribe _ _ newEntries =>
      (s.setSubscriptions (newEntries.foldl (fun index f => (index.remove f).1)
        s.state.subscriptions)).finish c (.raised error)
  | .unsubscribe .. => s.finish c (.raised error)
  | .restoreObservers acknowledged _ =>
      -- `except Exception` does not catch a cancellation
      if error = .cancelled then s.finish c (.raised error)
      else s.finish c (.unsubscribed acknowledged)
  | .addObserver topic =>
      (s.setSubscriptions (s.state.subscriptions.removeResponseObserver topic).1).finish c
        (.raised error)
  | .removeObserver _ => s.finish c (.raised error)

/-- A request up to its first suspension. -/
def beginRequest (s : Connection) (c : Nat) (request : Request) (write : WriteOutcome) :
    Connection :=
  if s.dead then s.raiseFromRequest c request .disconnected
  else
    match s.state.packetIds.acquire with
    | none => s.raiseFromRequest c request .packetIdsInUse
    | some (pid, pool) =>
        let opened := s.openRequest request.kind pid pool
        match encode (request.packet pid) s.version with
        | .error e =>
            (opened.closeRequest request.kind pid).raiseFromRequest c request (.encoding e)
        | .ok _ =>
            if write = .failed then
              (opened.closeRequest request.kind pid).raiseFromRequest c request .transport
            else
              { opened.setPhase c
                  (.request request pid s.answerFutures.length (decide (write = .suspended))) with
                log := opened.log ++ [.wrote (request.packet pid)]
                requests := opened.requests ++ [(request.kind, pid, s.answerFutures.length)] }

/-- `_raise_on_rejected_filters`. -/
def rejectedFilters (filters : List SubscriptionRequest) (suback : SubAck) : List (Str × Int) :=
  (filters.zip suback.returnCodes).foldl
    (fun failures item =>
      if item.2 ≥ 0x80 then OrderedDict.set failures item.1.topicFilter item.2 else failures)
    []

/-- What the caller of a request does with its acknowledgement. -/
def returnFromRequest (s : Connection) (c : Nat) (request : Request) (packet : Packet)
    (write : WriteOutcome) : Connection :=
  match request, packet with
  | .subscribe _ _ newEntries, .suback suback =>
      { s with calls := s.calls.modify c fun call =>
          { call with phase := .draining (.subscribed suback newEntries), held := [] } }
  | .unsubscribe brokerFilters observedFilters, .unsuback unsuback =>
      if observedFilters = [] then
        s.finish c (.unsubscribed (some (brokerFilters, unsuback)))
      else s.beginRequest c
        (.restoreObservers (some (brokerFilters, unsuback)) observedFilters) write
  | .restoreObservers acknowledged _, _ => s.finish c (.unsubscribed acknowledged)
  | .addObserver _, _ => s.finish c .observed
  | .removeObserver _, _ => s.finish c .observed
  -- a future of `pending_subs` only ever gets a SUBACK, one of `pending_unsubs` an UNSUBACK
  | _, _ => s.raiseFromRequest c request .invalidState

/-- A request whose future is resolved with a packet. -/
def answerRequest (s : Connection) (c : Nat) (request : Request) (pid : Nat) (packet : Packet)
    (write : WriteOutcome) : Connection :=
  let closed := s.closeRequest request.kind pid
  match packet with
  | .suback suback =>
      let failures := rejectedFilters request.subscriptions suback
      if failures ≠ [] then closed.raiseFromRequest c request (.subscribeError failures)
      else closed.returnFromRequest c request packet write
  | _ => closed.returnFromRequest c request packet write

/-- A request that ends with an exception. -/
def failRequest (s : Connection) (c : Nat) (request : Request) (pid : Nat) (error : MqttError) :
    Connection :=
  (s.closeRequest request.kind pid).raiseFromRequest c request error

/-! ### The bodies of the guarded calls -/

/-- The loop of `_subscribe` over its filters: the entries for filters that are
not registered, and the next object identity. -/
def newEntries (s : Connection) (filters : List SubscriptionRequest) (queue : Nat)
    (autoAck : Bool) (identifier : Option Int) : List IndexItem × Nat :=
  filters.foldl
    (fun acc req =>
      if s.state.subscriptions.contains req.topicFilter then acc
      else
        (OrderedDict.set acc.1 req.topicFilter
          { oid := acc.2, queue, autoAck
            actualFilter := sharedFilterToActual req.topicFilter s.strippedPrefixes
            subscriptionIdentifier := identifier },
          acc.2 + 1))
    ([], s.nextEntry)

/-- `_subscribe` up to its first suspension. -/
def enterSubscribe (s : Connection) (c : Nat) (filters : List SubscriptionRequest) (queue : Nat)
    (autoAck : Bool) (identifier : Option Int) (write : WriteOutcome) : Connection :=
  let entries := s.newEntries filters queue autoAck identifier
  { s.setSubscriptions (s.state.subscriptions.addMany entries.1) with
    nextEntry := entries.2 }.beginRequest c
      (.subscribe filters identifier (entries.1.map Prod.fst)) write

/-- `_unsubscribe` up to its first suspension. -/
def enterUnsubscribe (s : Connection) (c : Nat) (filters : List Str) (write : WriteOutcome) :
    Connection :=
  if s.dead then s.finish c (.raised .disconnected)
  else
    let observedFilters := filters.filter s.state.subscriptions.hasResponseObserver
    let brokerFilters := filters.filter fun f => !observedFilters.contains f
    let removed := s.setSubscriptions
      (filters.foldl (fun index f => (index.remove f).1) s.state.subscriptions)
    if brokerFilters ≠ [] then
      removed.beginRequest c (.unsubscribe brokerFilters observedFilters) write
    else if observedFilters ≠ [] then
      removed.beginRequest c (.restoreObservers none observedFilters) write
    else removed.finish c (.unsubscribed none)

/-- `_add_response_observer` up to its first suspension. -/
def enterAddObserver (s : Connection) (c : Nat) (topic : Str) (write : WriteOutcome) :
    Connection :=
  if s.dead then s.finish c (.raised .disconnected)
  else
    let added := s.state.subscriptions.addResponseObserver topic
    if !added.2 then s.finish c .observed
    else if added.1.contains topic then (s.setSubscriptions added.1).finish c .observed
    else (s.setSubscriptions added.1).beginRequest c (.addObserver topic) write

/-- `_remove_response_observer` up to its first suspension. -/
def enterRemoveObserver (s : Connection) (c : Nat) (topic : Str) (write : WriteOutcome) :
    Connection :=
  let removed := s.state.subscriptions.removeResponseObserver topic
  if !removed.2 then s.finish c .observed
  else if removed.1.contains topic || s.dead then
    (s.setSubscriptions removed.1).finish c .observed
  else (s.setSubscriptions removed.1).beginRequest c (.removeObserver topic) write

def enter (s : Connection) (c : Nat) (call : GuardedCall) (write : WriteOutcome) : Connection :=
  match call with
  | .subscribe filters queue autoAck identifier =>
      s.enterSubscribe c filters queue autoAck identifier write
  | .unsubscribe filters => s.enterUnsubscribe c filters write
  | .addResponseObserver topic => s.enterAddObserver c topic write
  | .removeResponseObserver topic => s.enterRemoveObserver c topic write

/-! ### `publish` -/

def addCall (s : Connection) (phase : Phase) : Connection :=
  { s with calls := s.calls ++ [{ phase }] }

/-- A QoS 0 publish. -/
def publishQos0 (s : Connection) (packet : Publish) (write : WriteOutcome) : Connection :=
  match encode (.publish packet) s.version with
  | .error e => s.addCall (.finished (.raised (.encoding e)))
  | .ok _ =>
      match write with
      | .failed => s.addCall (.finished (.raised .transport))
      | .suspended =>
          { s.addCall .publishQos0 with log := s.log ++ [.wrote (.publish packet)] }
      | .done =>
          { s.addCall (.finished (.published none)) with
            log := s.log ++ [.wrote (.publish packet)] }

/-- The registration of a flight, in `inflight_qos1` or in `inflight_qos2_out`. -/
def openFlight (s : Connection) (packet : Publish) (pid : Nat) (pool : PacketIdPool) :
    Connection :=
  let state := { s.state with packetIds := pool }
  { s with
    state :=
      if packet.qos = .atLeastOnce then
        { state with
          inflightQos1 := OrderedDict.set state.inflightQos1 pid
            { packetId := pid, publish := packet, future := s.flightFutures.length } }
      else
        { state with
          inflightQos2Out := OrderedDict.set state.inflightQos2Out pid
            { packetId := pid, publish := packet, state := .pendingPubrec
              future := s.flightFutures.length } }
    flightFutures := s.flightFutures ++ [.pending]
    log := s.log ++ [.acquired (.publish packet.qos) pid] }

/-- The two acknowledged cases of `publish`. -/
def publishAcknowledged (s : Connection) (packet : Publish) (write : WriteOutcome) :
    Connection :=
  match s.state.packetIds.acquire with
  | none => s.addCall (.finished (.raised .packetIdsInUse))
  | some (pid, pool) =>
      let packet := { packet with packetId := some (pid : Int) }
      let opened := s.openFlight packet pid pool
      match encode (.publish packet) s.version with
      | .error e => opened.addCall (.finished (.raised (.encoding e)))
      | .ok _ =>
          if write = .failed then opened.addCall (.finished (.raised .transport))
          else
            { opened.addCall (.publish pid s.flightFutures.length (decide (write = .suspended))) with
              log := opened.log ++ [.wrote (.publish packet)] }

/-- `publish` up to its first suspension. -/
def publish (s : Connection) (packet : Publish) (write : WriteOutcome) : Connection :=
  if s.dead then s.addCall (.finished (.raised .disconnected))
  else if packet.qos.value > s.maxPublishQos.value then
    s.addCall (.finished (.raised (.qosExceeded packet.qos.value s.maxPublishQos.value)))
  else if packet.retain && !s.retainAvailable then
    s.addCall (.finished (.raised .retainNotAvailable))
  else if packet.qos = .atMostOnce then s.publishQos0 packet write
  else s.publishAcknowledged packet write

/-- The end of `publish` on the answer of its future. -/
def publishOutcome : Packet → Outcome
  | .puback ack => if ack.reasonCode ≥ 0x80 then .raised (.publishError ack.reasonCode)
      else .published (some (.puback ack))
  | packet => .published (some packet)

/-! ### The handlers of the read loop -/

/-- A handler raised: the read loop ends with the exception. -/
def endReader (s : Connection) (error : MqttError) : Connection :=
  { s with reader := .ended (some error) }

def logHandled (s : Connection) (packet : Packet) : Connection :=
  { s with log := s.log ++ [.handled packet] }

/-- `_handle_puback`. -/
def handlePuback (s : Connection) (packet : PubReply) : Connection :=
  match OrderedDict.get s.state.inflightQos1 packet.packetId.toNat with
  | none => s.endReader (.protocolError s!"PUBACK for unknown packet_id {packet.packetId}")
  | some flight =>
      ({ s with
          state := { s.state with
            inflightQos1 := OrderedDict.pop s.state.inflightQos1 packet.packetId.toNat
            packetIds := s.state.packetIds.release packet.packetId.toNat } }.settleFlight
        flight.future (.result (.puback packet))).logHandled (.puback packet)

/-- A QoS 2 flight leaves `inflight_qos2_out`. -/
def closeQos2 (s : Connection) (pid : Nat) : Connection :=
  { s with
    state := { s.state with
      inflightQos2Out := OrderedDict.pop s.state.inflightQos2Out pid
      packetIds := s.state.packetIds.release pid } }

/-- `_handle_pubrec`. -/
def handlePubrec (s : Connection) (packet : PubReply) (write : WriteOutcome) : Connection :=
  match OrderedDict.get s.state.inflightQos2Out packet.packetId.toNat with
  | none => s.endReader (.protocolError s!"PUBREC for unknown packet_id {packet.packetId}")
  | some flight =>
      if flight.state ≠ .pendingPubrec then
        s.endReader (.protocolError
          s!"PUBREC in wrong state OutboundQoS2State.PENDING_PUBCOMP for packet_id {packet.packetId}")
      else if packet.reasonCode ≥ 0x80 then
        ((s.closeQos2 packet.packetId.toNat).settleFlight flight.future
          (.exception (.publishError packet.reasonCode))).logHandled (.pubrec packet)
      else
        let advanced := { s with
          state := { s.state with
            inflightQos2Out := OrderedDict.set s.state.inflightQos2Out packet.packetId.toNat
              { flight with state := .pendingPubcomp } } }.logHandled (.pubrec packet)
        match encode (.pubrel { packetId := packet.packetId }) s.version with
        | .error e => advanced.endReader (.encoding e)
        | .ok _ =>
            match write with
            | .failed => advanced.endReader .transport
            | .suspended =>
                { advanced with
                  log := advanced.log ++ [.wrote (.pubrel { packetId := packet.packetId })]
                  reader := .writing }
            | .done =>
                { advanced with
                  log := advanced.log ++ [.wrote (.pubrel { packetId := packet.packetId })] }

/-- `_handle_pubcomp`. -/
def handlePubcomp (s : Connection) (packet : PubReply) : Connection :=
  match OrderedDict.get s.state.inflightQos2Out packet.packetId.toNat with
  | none => s.endReader (.protocolError s!"PUBCOMP for unknown packet_id {packet.packetId}")
  | some flight =>
      ((s.closeQos2 packet.packetId.toNat).settleFlight flight.future
        (.result (.pubcomp packet))).logHandled (.pubcomp packet)

/-- `_handle_suback` and `_handle_unsuback`: the future is resolved whatever its
state, so one that is done raises `InvalidStateError`. -/
def handleAnswer (s : Connection) (kind : RequestKind) (packetId : Int) (packet : Packet)
    (unknown : String) : Connection :=
  let s := { s with replies := s.replies ++ [packet] }
  match OrderedDict.get (s.state.pending kind) packetId.toNat with
  | none => s.endReader (.protocolError unknown)
  | some future =>
      if s.answerFutures[future]? = some .pending then
        { s with answerFutures := s.answerFutures.set future (.result packet) }.logHandled packet
      else s.endReader .invalidState

/-- `_handle_suback`. -/
def handleSuback (s : Connection) (packet : SubAck) : Connection :=
  s.handleAnswer .subscribe packet.packetId (.suback packet)
    s!"SUBACK for unknown packet_id {packet.packetId}"

/-- `_handle_unsuback`. -/
def handleUnsuback (s : Connection) (packet : UnsubAck) : Connection :=
  s.handleAnswer .unsubscribe packet.packetId (.unsuback packet)
    s!"UNSUBACK for unknown packet_id {packet.packetId}"

/-- `_dispatch`.  PUBLISH and PUBREL go to the inbound flow and PINGRESP to the
ping waiters; neither touches the calls. -/
def dispatch (s : Connection) (packet : Packet) (write : WriteOutcome) : Connection :=
  match packet with
  | .publish _ => s.logHandled packet
  | .pubrel _ => s.logHandled packet
  | .pingresp => s.logHandled packet
  | .puback packet => s.handlePuback packet
  | .pubrec packet => s.handlePubrec packet write
  | .pubcomp packet => s.handlePubcomp packet
  | .suback packet => s.handleSuback packet
  | .unsuback packet => s.handleUnsuback packet
  | .disconnect _ => s.endReader .disconnected
  | .auth _ =>
      if s.version = .v5 then s.logHandled packet
      else s.endReader (.protocolError "Received AUTH packet in MQTT 3.1.1 session")
  | _ => s.endReader (.protocolError "Unexpected packet from broker")

/-- The futures after `_cancel_pending` on those that wait for an answer. -/
def failAll (futures : List FutureState) (waiting : List Nat) : List FutureState :=
  waiting.foldl (fun futures future => settle futures future (.exception .disconnected)) futures

/-- The end of `run`: `_dead` is set and `_cancel_pending` fails every future in
the four tables. -/
def exit (s : Connection) : Connection :=
  { s with
    answerFutures := failAll s.answerFutures
      (s.state.pendingSubs.map Prod.snd ++ s.state.pendingUnsubs.map Prod.snd)
    flightFutures := failAll s.flightFutures
      (s.state.inflightQos1.map (fun item => item.2.future) ++
        s.state.inflightQos2Out.map fun item => item.2.future)
    dead := true
    reader := .ended none }

/-! ### Steps -/

/-- One step of a task or of the event loop. -/
inductive Action
  | publish (packet : Publish) (write : WriteOutcome)
  | call (call : GuardedCall)
  | acquireGuard (c : Nat)
  | enter (c : Nat) (write : WriteOutcome)
  | resumeWrite (c : Nat) (ok : Bool)
  | resumeFuture (c : Nat) (write : WriteOutcome)
  | resumeDrain (c : Nat) (ok : Bool)
  | cancel (c : Nat)
  | receive (packet : Packet) (write : WriteOutcome)
  | resumeReader (ok : Bool)
  | exit
deriving DecidableEq, Repr

/-- A guard is free when no call holds it. -/
def guardFree (s : Connection) (filter : Str) : Bool :=
  s.calls.all fun call => !call.held.contains filter

/-- The wake-up of a call from `guard.lock.acquire()`. -/
def acquireGuard (s : Connection) (c : Nat) (call : Call) : Option Connection :=
  match call.phase with
  | .guards guarded (filter :: todo) =>
      if call.cancelRequested then some (s.finish c (.raised .cancelled))
      else if s.guardFree filter then
        some { s with calls := s.calls.modify c fun call =>
          { call with phase := .guards guarded todo, held := filter :: call.held } }
      else none
  | _ => none

/-- The wake-up of a call from its transport write. -/
def resumeWrite (s : Connection) (c : Nat) (call : Call) (ok : Bool) : Option Connection :=
  match call.phase with
  | .request request pid future true =>
      if call.cancelRequested then some (s.failRequest c request pid .cancelled)
      else if ok then some (s.setPhase c (.request request pid future false))
      else some (s.failRequest c request pid .transport)
  | .publish pid future true =>
      if call.cancelRequested then some (s.finish c (.raised .cancelled))
      else if ok then some (s.setPhase c (.publish pid future false))
      else some (s.finish c (.raised .transport))
  | .publishQos0 =>
      if call.cancelRequested then some (s.finish c (.raised .cancelled))
      else if ok then some (s.finish c (.published none))
      else some (s.finish c (.raised .transport))
  | _ => none

/-- The wake-up of a call from the future of its answer, once that is done. -/
def resumeFuture (s : Connection) (c : Nat) (call : Call) (write : WriteOutcome) :
    Option Connection :=
  match call.phase with
  | .request request pid future false =>
      match s.answerFutures[future]? with
      | none => none
      | some .pending => none
      | some (.result packet) =>
          if call.cancelRequested then some (s.failRequest c request pid .cancelled)
          else some (s.answerRequest c request pid packet write)
      | some (.exception error) =>
          if call.cancelRequested then some (s.failRequest c request pid .cancelled)
          else some (s.failRequest c request pid error)
      | some .cancelled => some (s.failRequest c request pid .cancelled)
  | .publish _ future false =>
      match s.flightFutures[future]? with
      | none => none
      | some .pending => none
      | some (.result packet) =>
          if call.cancelRequested then some (s.finish c (.raised .cancelled))
          else some (s.finish c (publishOutcome packet))
      | some (.exception error) =>
          if call.cancelRequested then some (s.finish c (.raised .cancelled))
          else some (s.finish c (.raised error))
      | some .cancelled => some (s.finish c (.raised .cancelled))
  | _ => none

/-- `task.cancel()` on the task of a call. -/
def cancel (s : Connection) (c : Nat) (call : Call) : Option Connection :=
  let requested :=
    { s with calls := s.calls.modify c fun call => { call with cancelRequested := true } }
  match call.phase with
  | .request _ _ future false => some (requested.settleAnswer future .cancelled)
  | .publish _ future false => some (requested.settleFlight future .cancelled)
  | .finished _ => none
  | _ => some requested

def step (s : Connection) : Action → Option Connection
  | .publish packet write => some (s.publish packet write)
  | .call guarded => some (s.addCall (.guards guarded (guardOrder guarded.filters)))
  | .acquireGuard c => s.calls[c]?.bind fun call => s.acquireGuard c call
  | .enter c write =>
      s.calls[c]?.bind fun call =>
        match call.phase with
        | .guards guarded [] =>
            if call.cancelRequested then some (s.finish c (.raised .cancelled))
            else some (s.enter c guarded write)
        | _ => none
  | .resumeWrite c ok => s.calls[c]?.bind fun call => s.resumeWrite c call ok
  | .resumeFuture c write => s.calls[c]?.bind fun call => s.resumeFuture c call write
  | .resumeDrain c ok =>
      s.calls[c]?.bind fun call =>
        match call.phase with
        | .draining outcome =>
            if call.cancelRequested then some (s.finish c (.raised .cancelled))
            else if ok then some (s.finish c outcome)
            else some (s.finish c (.raised .transport))
        | _ => none
  | .cancel c => s.calls[c]?.bind fun call => s.cancel c call
  | .receive packet write =>
      if s.dead = false ∧ s.reader = .idle then some (s.dispatch packet write) else none
  | .resumeReader ok =>
      if s.dead = false ∧ s.reader = .writing then
        some (if ok then { s with reader := .idle } else s.endReader .transport)
      else none
  | .exit => if s.dead then none else some s.exit

end Connection

end Zmqtt
