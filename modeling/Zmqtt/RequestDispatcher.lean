import Zmqtt.InboundFlow

/-!
# The request dispatcher

`_RequestDispatcher` of `request_response.py`.  A call stands for one `request()` of the
client: `register`, the wait for the response, and `close`.  A step runs one call from a
suspension point to the next, or is one of the synchronous operations: `bind`, `claim`
and `complete` by the connection, `cancel_pending` by the client.

Two things are wider here than in `asyncio`: a free unit of the semaphore may be taken
by any waiting call, and the tasks of `add_response_observer` end at any time, with or
without success.
-/

namespace Zmqtt

/-- `_RequestKey`: the response topic and the correlation data. -/
abbrev RequestKey := Str × Bytes

inductive RequestFuture
  | waiting
  | result (message : Message)
  | exception
  | cancelled
deriving DecidableEq, Repr

/-- `_PendingRequest`. -/
structure PendingRequest where
  key : RequestKey
  future : RequestFuture := .waiting
  closed : Bool := false
  claimed : Bool := false
deriving DecidableEq, Repr

namespace PendingRequest

/-- `future.cancel()`, unless the future is done. -/
def cancel (request : PendingRequest) : PendingRequest :=
  if request.future = .waiting then { request with future := .cancelled } else request

/-- `future.set_exception`, unless the future is done. -/
def fail (request : PendingRequest) : PendingRequest :=
  if request.future = .waiting then { request with future := .exception } else request

def setClaimed (request : PendingRequest) (claimed : Bool) : PendingRequest :=
  { request with claimed }

def setResult (request : PendingRequest) (message : Message) : PendingRequest :=
  { request with future := .result message }

/-- `_closed`; the timeout of `wait_for` has cancelled the future before. -/
def close (request : PendingRequest) (timeout : Bool) : PendingRequest :=
  { (if timeout then request.cancel else request) with closed := true }

end PendingRequest

/-- `_TopicInterest`. -/
structure TopicInterest where
  refcount : Int := 0
  ready : Option Nat := none
deriving DecidableEq, Repr

/-- A task of `add_response_observer`, and how it ended. -/
structure ReadyTask where
  topic : Str
  protocol : Nat
  outcome : Option Bool := none
deriving DecidableEq, Repr

/-- `_ClaimedResponse`. -/
structure ClaimedResponse where
  request : Nat
  key : RequestKey
  message : Message
  generation : Nat
deriving DecidableEq, Repr

inductive RequestError
  | valueError (msg : String)
  | disconnected (msg : String)
  | keyError
  | interrupted
deriving DecidableEq, Repr

/-- Where a call stands.  It is suspended in `acquiring`, `subscribing`, `settling` and
`removing`; the last two are inside `unregister`, after which `error` is raised. -/
inductive RequestPhase
  | acquiring
  | subscribing (request ready : Nat)
  | registered (request : Nat)
  | settling (interest ready : Nat) (error : Option RequestError)
  | removing (error : Option RequestError)
  | returned
  | raised (error : RequestError)
deriving DecidableEq, Repr

structure RequestCall where
  key : RequestKey
  phase : RequestPhase := .acquiring
deriving DecidableEq, Repr

/-- What happens, in the order in which it happens. -/
inductive RequestEvent
  | bound
  | registered (request : Nat)
  | unregistered (request : Nat)
  | claimed (response request : Nat)
  | completed (response request : Nat)
deriving DecidableEq, Repr

/-- `_RequestDispatcher`.  `requests`, `interests`, `readyTasks` and `responses` list
every object there was; `pending` and `topics` refer to them.  `log` has the newest
event first. -/
structure RequestDispatcher where
  capacity : Nat
  pending : List (RequestKey × Nat) := []
  topics : List (Str × Nat) := []
  protocol : Option Nat := none
  generation : Nat := 0
  requests : List PendingRequest := []
  interests : List TopicInterest := []
  readyTasks : List ReadyTask := []
  responses : List ClaimedResponse := []
  calls : List RequestCall := []
  log : List RequestEvent := []

namespace RequestDispatcher

def emit (s : RequestDispatcher) (event : RequestEvent) : RequestDispatcher :=
  { s with log := event :: s.log }

def setPhase (s : RequestDispatcher) (c : Nat) (phase : RequestPhase) : RequestDispatcher :=
  { s with calls := s.calls.modify c fun call => { call with phase } }

def modifyRequest (s : RequestDispatcher) (r : Nat) (f : PendingRequest → PendingRequest) :
    RequestDispatcher :=
  { s with requests := s.requests.modify r f }

def modifyInterest (s : RequestDispatcher) (i : Nat) (f : TopicInterest → TopicInterest) :
    RequestDispatcher :=
  { s with interests := s.interests.modify i f }

def interest (s : RequestDispatcher) (i : Nat) : TopicInterest := s.interests[i]?.getD {}

/-- `self._capacity.release()`. -/
def release (s : RequestDispatcher) : RequestDispatcher := { s with capacity := s.capacity + 1 }

/-- A call returns, or raises. -/
def finish (s : RequestDispatcher) (c : Nat) (error : Option RequestError) : RequestDispatcher :=
  s.setPhase c (error.elim .returned .raised)

/-- `outcome` of a task, if it has ended. -/
def outcome (s : RequestDispatcher) (t : Nat) : Option Bool :=
  s.readyTasks[t]?.bind ReadyTask.outcome

/-! ## Connections -/

/-- The requests that are registered. -/
def registered (s : RequestDispatcher) : List Nat := s.pending.map Prod.snd

/-- `bind`. -/
def bind (s : RequestDispatcher) (protocol : Nat) : RequestDispatcher :=
  { s with
    protocol := some protocol
    generation := s.generation + 1
    requests := s.requests.mapIdx fun r request =>
      if r ∈ s.registered then request.setClaimed false else request
    interests := s.interests.mapIdx fun i interest =>
      if i ∈ s.topics.map Prod.snd then { interest with ready := none } else interest
    log := .bound :: s.log }

/-- `cancel_pending`; the tasks it cancels end later. -/
def cancelPending (s : RequestDispatcher) : RequestDispatcher :=
  { s with
    pending := []
    topics := []
    protocol := none
    generation := s.generation + 1
    capacity := s.capacity + s.pending.length
    requests := s.requests.mapIdx fun r request =>
      if r ∈ s.registered then request.fail else request
    log := s.registered.map RequestEvent.unregistered ++ s.log }

def addReadyTask (s : RequestDispatcher) (task : ReadyTask) : RequestDispatcher :=
  { s with readyTasks := s.readyTasks ++ [task] }

/-- `_ensure_topic_ready` with a protocol. -/
def ensureTopicReady (s : RequestDispatcher) (topic : Str) (i protocol : Nat) :
    RequestDispatcher × Nat :=
  match (s.interest i).ready with
  | some ready => (s, ready)
  | none =>
      ((s.addReadyTask { topic, protocol }).modifyInterest i fun interest =>
          { interest with ready := some s.readyTasks.length },
        s.readyTasks.length)

/-! ## Unregistering -/

/-- The `finally` of `unregister` that gives the topic up. -/
def dropInterest (s : RequestDispatcher) (c : Nat) (topic : Str) (i : Nat) (observerActive : Bool)
    (error : Option RequestError) : RequestDispatcher :=
  if (s.interest i).refcount = 0 ∧ OrderedDict.get s.topics topic = some i then
    let s := { s with topics := OrderedDict.pop s.topics topic }
    if observerActive && s.protocol.isSome then s.setPhase c (.removing error)
    else s.release.finish c error
  else s.release.finish c error

/-- `del self._pending[key]` and the cancellation of the future. -/
def remove (s : RequestDispatcher) (key : RequestKey) (r : Nat) : RequestDispatcher :=
  ({ s with pending := OrderedDict.pop s.pending key }.modifyRequest r PendingRequest.cancel).emit
    (.unregistered r)

/-- `unregister` up to its first suspension. -/
def unregister (s : RequestDispatcher) (c : Nat) (key : RequestKey) (r : Nat)
    (error : Option RequestError) : RequestDispatcher :=
  if OrderedDict.get s.pending key ≠ some r then s.finish c error
  else
    let s := s.remove key r
    match OrderedDict.get s.topics key.1 with
    | none => s.release.finish c (some .keyError)
    | some i =>
        let s := s.modifyInterest i fun interest =>
          { interest with refcount := interest.refcount - 1 }
        if 0 < (s.interest i).refcount then s.release.finish c error
        else
          match (s.interest i).ready with
          | none => s.dropInterest c key.1 i false error
          | some ready =>
              match s.outcome ready with
              | none => s.setPhase c (.settling i ready error)
              | some true => s.dropInterest c key.1 i true error
              | some false => s.dropInterest c key.1 i false (some .interrupted)

/-! ## Registering -/

/-- `register` after the awaited topic. -/
def afterReady (s : RequestDispatcher) (c : Nat) (key : RequestKey) (r : Nat) (ok : Bool) :
    RequestDispatcher :=
  if ok then s.setPhase c (.registered r) else s.unregister c key r (some .interrupted)

/-- A new `_PendingRequest` under its key, and its share of the topic. -/
def add (s : RequestDispatcher) (key : RequestKey) (i : Nat) : RequestDispatcher :=
  { s with
    pending := OrderedDict.set s.pending key s.requests.length
    requests := s.requests ++ [{ key }]
    interests := s.interests.modify i fun interest =>
      { interest with refcount := interest.refcount + 1 }
    log := .registered s.requests.length :: s.log }

/-- `self._topics.get(topic)`, or a new interest. -/
def findInterest (s : RequestDispatcher) (topic : Str) : RequestDispatcher × Nat :=
  match OrderedDict.get s.topics topic with
  | some i => (s, i)
  | none =>
      ({ s with
          topics := OrderedDict.set s.topics topic s.interests.length
          interests := s.interests ++ [{}] },
        s.interests.length)

/-- `register` from the semaphore to its next suspension. -/
def enter (s : RequestDispatcher) (c : Nat) (key : RequestKey) : RequestDispatcher :=
  if (OrderedDict.get s.pending key).isSome then
    s.release.finish c
      (some (.valueError "correlation_data is already in use for this response_topic"))
  else
    match s.protocol with
    | none => s.release.finish c (some (.disconnected "Not connected"))
    | some protocol =>
        let r := s.requests.length
        let found := s.findInterest key.1
        let awaited := (found.1.add key found.2).ensureTopicReady key.1 found.2 protocol
        match awaited.1.outcome awaited.2 with
        | none => awaited.1.setPhase c (.subscribing r awaited.2)
        | some ok => awaited.1.afterReady c key r ok

/-! ## Responses -/

def addResponse (s : RequestDispatcher) (response : ClaimedResponse) : RequestDispatcher :=
  { s with responses := s.responses ++ [response] }

/-- `claim`. -/
def claim (s : RequestDispatcher) (message : Message) : RequestDispatcher :=
  match message.properties.bind PublishProperties.correlationData with
  | none => s
  | some data =>
      let key : RequestKey := (message.topic, data)
      match OrderedDict.get s.pending key with
      | none => s
      | some r =>
          if s.requests[r]?.elim true fun request =>
              request.claimed || decide (request.future ≠ .waiting) then s
          else
            ((s.addResponse { request := r, key, message, generation := s.generation }).modifyRequest r
              fun request => request.setClaimed true).emit (.claimed s.responses.length r)

/-- `complete`. -/
def complete (s : RequestDispatcher) (i : Nat) (response : ClaimedResponse) : RequestDispatcher :=
  if s.generation = response.generation ∧
      OrderedDict.get s.pending response.key = some response.request ∧
      s.requests[response.request]?.elim false fun request =>
        decide (request.future = .waiting) then
    (s.modifyRequest response.request fun request => request.setResult response.message).emit
      (.completed i response.request)
  else s

/-! ## Steps -/

/-- A suspended call goes on, or its `await` raises. -/
def resume (s : RequestDispatcher) (c : Nat) (call : RequestCall) (ok : Bool) :
    Option RequestDispatcher :=
  match call.phase with
  | .acquiring => if ok then none else some (s.finish c (some .interrupted))
  | .subscribing r ready =>
      if ok && s.outcome ready ≠ some true then none else some (s.afterReady c call.key r ok)
  | .settling i ready error =>
      if ok && s.outcome ready ≠ some true then none
      else
        some (s.dropInterest c call.key.1 i ok (if ok then error else some .interrupted))
  | .removing error => some (s.release.finish c (if ok then error else some .interrupted))
  | _ => none

/-- `close` of the request of a call. -/
def close (s : RequestDispatcher) (c : Nat) (call : RequestCall) (timeout : Bool) :
    Option RequestDispatcher :=
  match call.phase with
  | .registered r =>
      some ((s.modifyRequest r fun request => request.close timeout).unregister c call.key r none)
  | _ => none

inductive Action
  | bind (protocol : Nat)
  | register (key : RequestKey)
  | acquire (c : Nat)
  | resume (c : Nat) (ok : Bool)
  | close (c : Nat) (timeout : Bool)
  | readyDone (t : Nat) (ok : Bool)
  | restore (topic : Str) (i : Nat)
  | claim (message : Message)
  | deliver (i : Nat)
  | cancelPending

def step (s : RequestDispatcher) : Action → Option RequestDispatcher
  | .bind protocol => some (s.bind protocol)
  | .register key => some { s with calls := s.calls ++ [{ key }] }
  | .acquire c =>
      s.calls[c]?.bind fun call =>
        if call.phase = .acquiring ∧ 0 < s.capacity then
          some ({ s with capacity := s.capacity - 1 }.enter c call.key)
        else none
  | .resume c ok => s.calls[c]?.bind fun call => s.resume c call ok
  | .close c timeout => s.calls[c]?.bind fun call => s.close c call timeout
  | .readyDone t ok =>
      some { s with readyTasks := s.readyTasks.modify t fun task =>
        { task with outcome := some (task.outcome.getD ok) } }
  | .restore topic i =>
      s.protocol.map fun protocol =>
        if 0 < (s.interest i).refcount then (s.ensureTopicReady topic i protocol).1 else s
  | .claim message => some (s.claim message)
  | .deliver i => s.responses[i]?.map fun response => s.complete i response
  | .cancelPending => some s.cancelPending

/-- `_RequestDispatcher(max_pending_requests)`. -/
def start (maxPendingRequests : Nat) : RequestDispatcher := { capacity := maxPendingRequests }

end RequestDispatcher

end Zmqtt
