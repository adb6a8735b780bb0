import Zmqtt.ConnectionRecovery
import Zmqtt.History
import Zmqtt.InboundFlow
import Zmqtt.SubscriptionLifecycle

/-!
# A client over its connections

`_run_loop` of `client.py` with what it steers: `MQTTProtocol.run` and its two tasks, the
inbound flow of the connection, the subscriptions of the application, and the attempts to
connect again.  A state is a client after `connect()`; a run ends with `disconnect()`.

The loop is suspended at the `await`s that `LoopPhase` names.  What it awaits decides what
the end of a connection does to it: `run` raises what ended it, but whoever waits for an
answer of the broker is failed with `MQTTDisconnectedError`, whatever ended `run`.

A re-subscription is answered when the read task takes its SUBACK, and so is the observer
of a response topic, unless a subscription has the topic; the loop goes on in a later step.

Some things are wider here than in `asyncio`.  A call that waits for subscription guards
may pass them at any time; the answer to a SUBSCRIBE of the application may come at any
time; and the tasks that `run` cancels are stopped at once.  The read task returns normally only after
`MQTTProtocol.disconnect`, which the client calls when the run loop has ended.
-/

namespace Zmqtt

/-- The exceptions that reach `run` or the run loop, by class. -/
inductive RunError
  | connection (failure : ConnectFailure)
  | protocolError (msg : String)
  | subscribeError
  | other
  | cancelled
deriving DecidableEq, Repr

namespace RunError

/-- `except (MQTTDisconnectedError, MQTTTimeoutError, OSError)` of `_run_loop`. -/
def isLoss : RunError → Bool
  | .connection (.connectError _) => false
  | .connection _ => true
  | _ => false

/-- `MQTTDisconnectedError`. -/
def disconnected : RunError := .connection .disconnectedError

/-- The class of an exception of the inbound flow; a transport write raises
`MQTTDisconnectedError`. -/
def ofInbound : InboundError → RunError
  | .protocolError msg => .protocolError msg
  | .valueError _ => .other
  | .keyError => .other
  | .interrupted => disconnected

end RunError

/-! ## `MQTTProtocol.run` -/

/-- The read task of `run`; `aborting` is its `abort` before it raises. -/
inductive ReadPhase
  | working
  | aborting (error : RunError)
  | ended
deriving DecidableEq, Repr

/-- `run`: its two tasks, the first exception of them, which `gather` raises, and the
exception with which `run` ended. -/
structure ProtocolRun where
  began : Bool := false
  reader : ReadPhase := .working
  pinging : Bool := true
  failure : Option RunError := none
  exit : Option RunError := none
deriving DecidableEq, Repr

namespace ProtocolRun

/-- A task of `run` raised. -/
def raise (run : ProtocolRun) (error : RunError) : ProtocolRun :=
  { run with failure := run.failure.or (some error) }

/-- The `finally` of `run`. -/
def leave (run : ProtocolRun) (error : RunError) : ProtocolRun :=
  { run with reader := .ended, pinging := false, exit := some error }

/-- `protocol_run_task.cancel()`. -/
def cancel (run : ProtocolRun) : ProtocolRun :=
  { run.raise .cancelled with reader := .ended, pinging := false }

end ProtocolRun

/-! ## The run loop -/

/-- The `await` of `_run_loop`.  A `_do_subscribe` waits for its guards, then, with its new
filters, for SUBACK.  `closing` is in the `except` clause and `cleaning` in the `finally`,
after which the loop raises or connects again. -/
inductive LoopPhase
  | starting (pending : List Nat)
  | resubscribing (i : Nat) (registered : Option (List Str)) (pending : List Nat)
  | restoring (topic : Str) (pending : List Str)
  | awaitingRun
  | closing
  | cleaning (error : Option RunError)
  | connecting (failures : Nat) (pending : List Nat)
  | ended (error : RunError)
deriving DecidableEq, Repr

/-- The loop awaits the observer task of a topic. -/
def LoopPhase.awaits (topic : Str) : LoopPhase → Bool
  | .restoring awaited _ => awaited = topic
  | _ => false

/-- `_run_task.cancel()`. -/
def LoopPhase.cancel : LoopPhase → LoopPhase
  | .ended error => .ended error
  | _ => .ended .cancelled

/-- A `start` or a `stop` of the application that awaits its protocol call, made on the
connection of that number; `registered` are the new filters of a call past its guards. -/
structure SubscriptionCall where
  starts : Bool
  subscription : Nat
  connection : Nat
  filters : List Str := []
  registered : Option (List Str) := none
deriving DecidableEq, Repr

/-- How `protocol.subscribe` ends once its filters are registered.  The drain at its end
raises when the filters are no longer removed. -/
inductive SubscribeOutcome
  | granted
  | rejected
  | failed (error : RunError)
  | undrained (error : RunError)
deriving DecidableEq, Repr

namespace SubscribeOutcome

def error : SubscribeOutcome → Option RunError
  | .granted => none
  | .rejected => some .subscribeError
  | .failed error => some error
  | .undrained error => some error

/-- `if not subscribed` of `_subscribe`. -/
def unregisters : SubscribeOutcome → Bool
  | .granted => false
  | .rejected => true
  | .failed _ => true
  | .undrained _ => false

/-- The ends that are possible with what `await future` gave: whether SUBACK grants all
filters, or an exception. -/
def follows (answer : Option Bool) : SubscribeOutcome → Bool
  | .granted => answer = some true
  | .rejected => answer = some false
  | .failed _ => answer = none
  | .undrained _ => answer = some true

end SubscribeOutcome

/-- What happens to a client, in the order in which it happens. -/
inductive ClientEvent
  | starting (i : Nat)
  | started (i : Nat)
  | startFailed (i : Nat)
  | stopped (i : Nat)
  | detached (i : Nat)
  /-- The broker exceeded a limit; `msg` is the text of the protocol error. -/
  | violated (msg : String)
  /-- The loop has taken the list of subscriptions to restore. -/
  | reconnecting
  | attempted
  /-- The loop sends SUBSCRIBE for a subscription. -/
  | resubscribed (i : Nat)
  /-- The loop is past the subscriptions to restore. -/
  | restored
deriving DecidableEq, Repr

structure ClientConfig where
  reconnect : ReconnectConfig := {}
  receiveMaximum : Option Nat := none
  maximumPacketSize : Option Nat := none
  sessionReplayBufferSize : Nat := 1000
  receiveBufferSize : Nat → Nat := fun _ => 1000
  strippedPrefixes : List Str := []

/-- `MQTTClient` after `connect()`.  `objects` are all subscriptions that were created,
`topics` the response topics of pending requests, and `ready` those whose observer task on
this connection is done.  `connection` is the number of the installed protocol, `answer`
what the SUBACK of the last re-subscription says.  `log` has the newest event first. -/
structure Client where
  config : ClientConfig
  objects : List Subscription := []
  subscriptions : List Nat := []
  detachedFilters : List IndexItem := []
  topics : List Str := []
  ready : List Str := []
  closed : Bool := false
  connection : Nat := 1
  inbound : InboundPublishFlow
  run : ProtocolRun := {}
  loop : LoopPhase := .starting []
  answer : Option Bool := none
  calls : List SubscriptionCall := []
  nextEntry : Nat := 0
  log : List ClientEvent := []

namespace Client

def emit (s : Client) (event : ClientEvent) : Client := { s with log := event :: s.log }

def setLoop (s : Client) (loop : LoopPhase) : Client := { s with loop }

def setIndex (s : Client) (subscriptions : SubscriptionIndex) : Client :=
  { s with inbound := { s.inbound with subscriptions } }

def isDetached (s : Client) (i : Nat) : Bool := s.objects[i]?.any Subscription.detached

def setRegistered (s : Client) (i : Nat) (registeredFilters : List Str) : Client :=
  { s with objects := s.objects.modify i fun sub => { sub with registeredFilters } }

/-- `_ensure_alive` passes on the connection of that number. -/
def alive (s : Client) (connection : Nat) : Bool :=
  connection == s.connection && s.run.exit.isNone && !s.closed

/-- The read task waits for a packet or works on one. -/
def reading (s : Client) : Bool :=
  s.run.began && s.run.reader = .working && s.run.exit.isNone

/-- The read task waits for a packet. -/
def taking (s : Client) : Bool := s.reading && s.inbound.readerIdle

/-! ### SUBSCRIBE -/

/-- The loop of `_subscribe` over its filters: the entries for filters that are not
registered, and the next object identity. -/
def newEntries (s : Client) (i : Nat) (sub : Subscription) : List IndexItem × Nat :=
  sub.filters.foldl
    (fun acc filter =>
      if s.inbound.subscriptions.contains filter then acc
      else
        (OrderedDict.set acc.1 filter
          { oid := acc.2, queue := i, autoAck := sub.autoAck
            actualFilter := sharedFilterToActual filter s.config.strippedPrefixes
            subscriptionIdentifier := sub.subscriptionIdentifier },
          acc.2 + 1))
    ([], s.nextEntry)

/-- `_subscribe` up to the wait for SUBACK. -/
def register (s : Client) (entries : List IndexItem × Nat) : Client :=
  { s.setIndex (s.inbound.subscriptions.addMany entries.1) with nextEntry := entries.2 }

/-- The `finally` of `_subscribe`. -/
def unregister (s : Client) (filters : List Str) : Client :=
  s.setIndex (s.inbound.subscriptions.removeMany filters)

/-- The end of `_do_subscribe` on the installed protocol. -/
def endSubscribe (s : Client) (i : Nat) (registered : List Str) (outcome : SubscribeOutcome) :
    Client :=
  let s := if outcome.unregisters then s.unregister registered else s
  if outcome.error.isNone then s.setRegistered i registered else s

/-! ### The subscriptions of the application -/

/-- `__aenter__`, up to its first suspension. -/
def start (s : Client) (i : Nat) (sub : Subscription) : Client :=
  if s.closed || sub.detached then (s.emit (.starting i)).emit (.startFailed i)
  else
    { s.emit (.starting i) with
      subscriptions := s.subscriptions ++ [i]
      calls := s.calls ++ [{ starts := true, subscription := i, connection := s.connection }] }

/-- `_stop`, up to its first suspension. -/
def stop (s : Client) (i : Nat) (sub : Subscription) (cancelled : Bool) : Client :=
  if i ∉ s.subscriptions then s.emit (.stopped i)
  else
    let s := { s.emit (.stopped i) with subscriptions := s.subscriptions.erase i }
    if cancelled || sub.registeredFilters.isEmpty || s.closed then s
    else
      { s with calls := s.calls ++
          [{ starts := false, subscription := i, connection := s.connection
             filters := sub.registeredFilters }] }

/-- `MQTTProtocol.detach`: the entries it marks. -/
def detachedBy (s : Client) (filters : List Str) : List IndexItem :=
  filters.filterMap fun filter =>
    (OrderedDict.get s.inbound.subscriptions.entries filter).map fun entry => (filter, entry)

/-- `detach`. -/
def detach (s : Client) (i : Nat) (sub : Subscription) : Client :=
  if i ∉ s.subscriptions then s.emit (.detached i)
  else
    let s := { s.emit (.detached i) with
      subscriptions := s.subscriptions.erase i
      objects := s.objects.modify i fun sub => { sub with detached := true } }
    if s.closed then s
    else
      { s with
        detachedFilters := (s.detachedBy sub.registeredFilters).foldl
          (fun filters item => OrderedDict.set filters item.1 item.2) s.detachedFilters
        inbound := s.inbound.detach sub.registeredFilters i }

/-- A `start` that raised. -/
def failStart (s : Client) (c i : Nat) : Client :=
  { s.emit (.startFailed i) with calls := s.calls.eraseIdx c }

/-- A call passes its guards. -/
def letIn (s : Client) (c : Nat) (call : SubscriptionCall) : Option Client :=
  if call.registered.isSome then none
  else
    match call.starts, s.alive call.connection with
    | true, true =>
        s.objects[call.subscription]?.map fun sub =>
          let entries := s.newEntries call.subscription sub
          { s.register entries with
            calls := s.calls.set c { call with registered := some (entries.1.map Prod.fst) } }
    | true, false => some (s.failStart c call.subscription)
    | false, true =>
        some { s.unregister call.filters with
          calls := s.calls.set c { call with registered := some [] } }
    | false, false => some { s with calls := s.calls.eraseIdx c }

/-- A call ends.  One on an earlier connection has no effect on the installed protocol. -/
def finish (s : Client) (c : Nat) (call : SubscriptionCall) (outcome : SubscribeOutcome) :
    Option Client :=
  if call.starts then
    call.registered.map fun registered =>
      let s :=
        if call.connection = s.connection then s.endSubscribe call.subscription registered outcome
        else if outcome.error.isNone then s.setRegistered call.subscription registered
        else s
      if outcome.error.isNone then
        { s.emit (.started call.subscription) with calls := s.calls.eraseIdx c }
      else s.failStart c call.subscription
  else some { s with calls := s.calls.eraseIdx c }

/-! ### The steps of the loop -/

/-- The `finally` of the loop, up to its `await`. -/
def clean (s : Client) (error : Option RunError) : Client :=
  { s with
    run := if s.run.exit.isSome then s.run else s.run.cancel
    loop := .cleaning error }

/-- An exception reaches the `try` of the loop. -/
def raiseInLoop (s : Client) (error : RunError) : Client :=
  if error.isLoss && s.config.reconnect.enabled then s.setLoop .closing
  else s.clean (some error)

/-- `_request_dispatcher.restore()` from a topic on, then `await protocol_run_task`. -/
def restoreTopics (s : Client) : List Str → LoopPhase
  | [] => .awaitingRun
  | topic :: rest =>
      if s.topics.contains topic then .restoring topic rest else s.restoreTopics rest

/-- The loop over `subs_to_restore` from a subscription on; `_reconnect` passes over a
detached one. -/
def restoreFrom (s : Client) : List Nat → Client
  | [] => (s.emit .restored).setLoop (s.restoreTopics s.topics)
  | i :: rest =>
      if s.isDetached i then s.restoreFrom rest else s.setLoop (.resubscribing i none rest)

/-- The loop goes on from an `await` that tells it nothing. -/
def resume (s : Client) : Option Client :=
  match s.loop with
  | .starting pending => if s.run.began then some (s.restoreFrom pending) else none
  | .awaitingRun => s.run.exit.map fun error => s.raiseInLoop error
  | .closing => some (s.clean none)
  | .cleaning error =>
      if s.run.exit.isNone then none
      else
        match error with
        | some error => some (s.setLoop (.ended error))
        | none => some ((s.emit .reconnecting).setLoop (.connecting 0 s.subscriptions))
  | _ => none

/-- The re-subscription passes its guards. -/
def resubscribe (s : Client) : Option Client :=
  match s.loop with
  | .resubscribing i none pending =>
      if s.run.exit.isSome then some (s.raiseInLoop .disconnected)
      else
        s.objects[i]?.map fun sub =>
          let entries := s.newEntries i sub
          { ((s.emit (.resubscribed i)).register entries).setLoop
              (.resubscribing i (some (entries.1.map Prod.fst)) pending) with
            answer := none }
  | _ => none

/-- The SUBACK of the re-subscription: whether it grants all filters. -/
def suback (s : Client) (granted : Bool) : Option Client :=
  match s.loop with
  | .resubscribing _ (some _) _ =>
      if s.taking && s.answer.isNone then some { s with answer := some granted } else none
  | _ => none

/-- The re-subscription ends. -/
def endResubscribe (s : Client) (outcome : SubscribeOutcome) : Option Client :=
  match s.loop with
  | .resubscribing i (some registered) pending =>
      if outcome.follows s.answer then
        let ended := s.endSubscribe i registered outcome
        match outcome.error with
        | none => some (ended.restoreFrom pending)
        | some error => some (ended.raiseInLoop error)
      else none
  | _ => none

/-- The observer of a response topic needs no SUBACK: a subscription has the topic. -/
def covered (s : Client) (topic : Str) : Bool :=
  s.inbound.subscriptions.contains topic && s.run.exit.isNone

/-- The observer task of a response topic is done or needs no answer. -/
def observable (s : Client) (topic : Str) : Bool := s.ready.contains topic || s.covered topic

/-- An observer task is done. -/
def observerReady (s : Client) (topic : Str) : Option Client :=
  if s.topics.contains topic && (s.taking || s.covered topic) then
    some { s with ready := topic :: s.ready }
  else none

/-- The last request for a topic drops its observer; a task that the loop awaits stays. -/
def releaseTopic (s : Client) (topic : Str) : Client :=
  let topics := s.topics.erase topic
  { s with
    topics
    ready :=
      if topics.contains topic || s.loop.awaits topic then s.ready
      else s.ready.filter fun other => other != topic }

/-- The loop goes on after the observer task of a topic is done or raised. -/
def observed (s : Client) (error : Option RunError) : Option Client :=
  match s.loop with
  | .restoring topic pending =>
      match error with
      | none => if s.observable topic then some (s.setLoop (s.restoreTopics pending)) else none
      | some error => if s.observable topic then none else some (s.raiseInLoop error)
  | _ => none

/-- The messages that a new connection finds in the queues. -/
def backlog (s : Client) : List (Nat × Message) :=
  s.inbound.queued.map fun item => (item.1, { item.2 with seq := 0, ackCallback := none })

/-- The inbound flow of a new connection. -/
def openFlow (config : ClientConfig) (sessionPresent : Bool) (restored : List IndexItem) :
    InboundPublishFlow :=
  InboundPublishFlow.start
    { maxsize := config.receiveBufferSize
      sessionReplayBufferSize := config.sessionReplayBufferSize
      receiveMaximum := config.receiveMaximum
      sessionPresent, restored }

/-- `_connect` after the handshake, `restore_detached` included, and the loop up to
`started_event.wait()`. -/
def install (s : Client) (sessionPresent : Bool) (pending : List Nat) : Client :=
  { s with
    connection := s.connection + 1
    inbound := { openFlow s.config sessionPresent s.detachedFilters with queued := s.backlog }
    ready := []
    run := {}
    loop := .starting pending }

/-- An attempt of `_connect_with_retry`. -/
def attempt (s : Client) (met : Attempt) (sessionPresent : Bool) : Option Client :=
  match s.loop with
  | .connecting failures pending =>
      let s := s.emit .attempted
      match (s.config.reconnect.connectWithRetry failures [met]).2 with
      | .connected => some (s.install sessionPresent pending)
      | .attempting => some (s.setLoop (.connecting (failures + 1) pending))
      | .raised error => some (s.setLoop (.ended (.connection error)))
  | _ => none

/-- `disconnect`: the loop is cancelled and the protocol closed. -/
def disconnect (s : Client) : Client :=
  { s with
    closed := true
    detachedFilters := []
    inbound := s.inbound.clear
    run := s.run.leave (s.run.exit.getD .cancelled)
    loop := s.loop.cancel }

/-! ### The steps of `run` -/

/-- A PUBLISH exceeds the Receive Maximum: the text of the error that is due. -/
def quotaExceeded (flow : InboundPublishFlow) : InboundPublishFlow.Action → Option String
  | .publish packet _ _ =>
      if packet.qos = .atMostOnce then none
      else
        packet.packetId.bind fun pid =>
          flow.receiveMaximum.bind fun limit =>
            if limit < (insert pid flow.unacknowledged).card then
              some s!"Broker exceeded the Receive Maximum of {limit} unacknowledged QoS 1/2 messages"
            else none
  | _ => none

/-- The read task after a step of the inbound flow; it stops at an exception. -/
def afterPacket (s : Client) (action : InboundPublishFlow.Action) (flow : InboundPublishFlow) :
    Client :=
  let exceeded := quotaExceeded s.inbound action
  let s := { s with inbound := flow }
  let s := exceeded.elim s fun msg => s.emit (.violated msg)
  match flow.ended with
  | none => s
  | some error => { s with run := { s.run with reader := .aborting (.ofInbound error) } }

/-- The text of the error for a packet over the Maximum Packet Size. -/
def oversized (size limit : Nat) : String :=
  s!"Broker sent a packet of {size} bytes, exceeding the Maximum Packet Size of {limit} bytes"

/-- The header of a packet other than PUBLISH and PUBREL, or of one that is too large. -/
def packet (s : Client) (size : Nat) : Client :=
  match s.config.maximumPacketSize with
  | none => s
  | some limit =>
      if limit < size then
        { s.emit (.violated (oversized size limit)) with
          run := { s.run with reader := .aborting (.protocolError (oversized size limit)) } }
      else s

/-- The read task raises. -/
def readerRaises (s : Client) (error : RunError) : Client :=
  { s with run := { s.run.raise error with reader := .ended } }

/-- `run` leaves its `gather`. -/
def exitRun (s : Client) : Option Client :=
  if s.run.exit.isNone then
    s.run.failure.map fun error => { s with run := s.run.leave error, inbound := s.inbound.clear }
  else none

/-- How the steps of the inbound flow are taken: by the read task, by other tasks, or only
with the steps of the client. -/
inductive Origin
  | reader
  | tasks
  | client
deriving DecidableEq, Repr

def origin : InboundPublishFlow.Action → Origin
  | .publish .. => .reader
  | .pubrel .. => .reader
  | .resumeReader .. => .reader
  | .index _ => .client
  | .detach .. => .client
  | .clear => .client
  | _ => .tasks

/-- The steps of the tasks around a client.  `stop` is also the exit of a context,
`cancelled` if its body was. -/
inductive Action
  | create (sub : Subscription)
  | start (i : Nat)
  | stop (i : Nat) (cancelled : Bool)
  | detach (i : Nat)
  | letIn (c : Nat)
  | finish (c : Nat) (outcome : SubscribeOutcome)
  | request (topic : Str)
  | release (topic : Str)
  | beginRun
  | inbound (action : InboundPublishFlow.Action)
  | packet (size : Nat)
  | readFails (error : RunError)
  | endAbort
  | pingFails (error : ConnectFailure)
  | exitRun
  | resume
  | resubscribe
  | suback (granted : Bool)
  | endResubscribe (outcome : SubscribeOutcome)
  | observerReady (topic : Str)
  | observed (error : Option RunError)
  | attempt (met : Attempt) (sessionPresent : Bool)
  | disconnect

def step (s : Client) : Action → Option Client
  | .create sub =>
      some { s with objects := s.objects ++ [{ sub with registeredFilters := [], detached := false }] }
  | .start i => s.objects[i]?.map fun sub => s.start i sub
  | .stop i cancelled => s.objects[i]?.map fun sub => s.stop i sub cancelled
  | .detach i => s.objects[i]?.map fun sub => s.detach i sub
  | .letIn c => s.calls[c]?.bind fun call => s.letIn c call
  | .finish c outcome => s.calls[c]?.bind fun call => s.finish c call outcome
  | .request topic => some { s with topics := topic :: s.topics }
  | .release topic => some (s.releaseTopic topic)
  | .beginRun =>
      if s.run.began || s.run.exit.isSome then none
      else some { s with run := { s.run with began := true } }
  | .inbound action =>
      match origin action with
      | .reader => if s.reading then (s.inbound.step action).map (s.afterPacket action) else none
      | .tasks => (s.inbound.step action).map fun inbound => { s with inbound }
      | .client => none
  | .packet size => if s.taking then some (s.packet size) else none
  | .readFails error => if s.taking then some (s.readerRaises error) else none
  | .endAbort =>
      match s.run.reader with
      | .aborting error => some (s.readerRaises error)
      | _ => none
  | .pingFails error =>
      if s.run.began && s.run.pinging then
        some { s with run := { s.run.raise (.connection error) with pinging := false } }
      else none
  | .exitRun => s.exitRun
  | .resume => s.resume
  | .resubscribe => s.resubscribe
  | .suback granted => s.suback granted
  | .endResubscribe outcome => s.endResubscribe outcome
  | .observerReady topic => s.observerReady topic
  | .observed error => s.observed error
  | .attempt met sessionPresent => s.attempt met sessionPresent
  | .disconnect => some s.disconnect

/-- A step of the inbound flow, by the read task or by another one. -/
theorem inbound_cases {s next : Client} {action : InboundPublishFlow.Action}
    (hstep : s.step (.inbound action) = some next) :
    ∃ flow, s.inbound.step action = some flow ∧
      ((origin action = .reader ∧ s.reading = true ∧ next = s.afterPacket action flow) ∨
        (origin action = .tasks ∧ next = { s with inbound := flow })) := by
  simp only [step] at hstep
  cases horigin : origin action with
  | reader =>
      simp only [horigin] at hstep
      obtain ⟨hread, hstep⟩ := Option.ite_none_right_eq_some.mp hstep
      obtain ⟨flow, hflow, rfl⟩ := Option.map_eq_some_iff.mp hstep
      exact ⟨flow, hflow, Or.inl ⟨rfl, hread, rfl⟩⟩
  | tasks =>
      simp only [horigin] at hstep
      obtain ⟨flow, hflow, rfl⟩ := Option.map_eq_some_iff.mp hstep
      exact ⟨flow, hflow, Or.inr ⟨rfl, rfl⟩⟩
  | client =>
      simp only [horigin] at hstep
      cases hstep

/-- The read task raises what it aborted for. -/
theorem endAbort_cases {s next : Client} (hstep : s.step .endAbort = some next) :
    ∃ error, s.run.reader = .aborting error ∧ next = s.readerRaises error := by
  simp only [step] at hstep
  cases hreader : s.run.reader with
  | aborting error =>
      simp only [hreader] at hstep
      exact ⟨error, rfl, (Option.some.inj hstep).symm⟩
  | working =>
      simp only [hreader] at hstep
      cases hstep
  | ended =>
      simp only [hreader] at hstep
      cases hstep

theorem endSubscribe_frame (s : Client) (i : Nat) (registered : List Str)
    (outcome : SubscribeOutcome) :
    (s.endSubscribe i registered outcome).run = s.run ∧
      (s.endSubscribe i registered outcome).loop = s.loop ∧
      (s.endSubscribe i registered outcome).topics = s.topics ∧
      (s.endSubscribe i registered outcome).calls = s.calls := by
  unfold endSubscribe
  simp only
  split <;> split <;> exact ⟨rfl, rfl, rfl, rfl⟩

/-- The SUBACK of the re-subscription arrives. -/
theorem suback_cases {s next : Client} {granted : Bool}
    (hstep : s.step (.suback granted) = some next) :
    s.taking = true ∧ next = { s with answer := some granted } := by
  simp only [step, suback] at hstep
  split at hstep
  · obtain ⟨htaking, heq⟩ := Option.ite_none_right_eq_some.mp hstep
    exact ⟨(Bool.and_eq_true_iff.mp htaking).1, (Option.some.inj heq).symm⟩
  · cases hstep

/-- The loop goes on from a re-subscription, or its end raises in the loop. -/
theorem endResubscribe_cases {s next : Client} {outcome : SubscribeOutcome}
    (hstep : s.endResubscribe outcome = some next) :
    ∃ i registered pending, s.loop = .resubscribing i (some registered) pending ∧
      outcome.follows s.answer = true ∧
      (match outcome.error with
        | none => (s.endSubscribe i registered outcome).restoreFrom pending
        | some error => (s.endSubscribe i registered outcome).raiseInLoop error) = next := by
  unfold endResubscribe at hstep
  split at hstep
  · rename_i i registered pending hloop
    obtain ⟨hfollows, heq⟩ := Option.ite_none_right_eq_some.mp hstep
    refine ⟨i, registered, pending, hloop, hfollows, ?_⟩
    split at heq
    · exact Option.some.inj heq
    · exact Option.some.inj heq
  · cases hstep

/-- The loop goes on from an observer, or its task raises in the loop. -/
theorem observed_cases {s next : Client} {error : Option RunError}
    (hstep : s.observed error = some next) :
    ∃ topic pending, s.loop = .restoring topic pending ∧
      ((error = none ∧ s.observable topic = true ∧ next = s.setLoop (s.restoreTopics pending)) ∨
        ∃ failure, error = some failure ∧ s.observable topic = false ∧
          next = s.raiseInLoop failure) := by
  unfold observed at hstep
  split at hstep
  · rename_i topic pending hloop
    refine ⟨topic, pending, hloop, ?_⟩
    split at hstep
    · obtain ⟨hdone, heq⟩ := Option.ite_none_right_eq_some.mp hstep
      exact Or.inl ⟨rfl, hdone, (Option.some.inj heq).symm⟩
    · rename_i failure
      obtain ⟨hpending, heq⟩ := Option.ite_none_left_eq_some.mp hstep
      exact Or.inr ⟨failure, rfl, Bool.eq_false_iff.mpr hpending, (Option.some.inj heq).symm⟩
  · cases hstep

/-- A client after its first connection. -/
def opened (config : ClientConfig) (sessionPresent : Bool) : Client where
  config
  inbound := openFlow config sessionPresent []

end Client

end Zmqtt
