import Zmqtt.RequestPhases

/-!
# The reply of a request

`MQTTClient.request`: `register`, then the body (`publish` and the wait for the future),
then `close` in a `finally`.  What the body has to return is kept while `close` runs, and
an exception of `close` takes its place.

A reply counts as received in time when it is there before the deadline of `wait_for`
passes.  `expire` is that moment; the timer of `wait_for` fires at some later time.
-/

namespace Zmqtt

/-- Where the body of a `request()` stands once `register` has returned. -/
inductive RequestBody
  | publishing
  | waiting
  | expired
  | replied (message : Message)
  | failed
deriving DecidableEq, Repr

/-- How a `request()` ends. -/
inductive RequestResult
  | returns (message : Message)
  | raises
deriving DecidableEq, Repr

/-- The dispatcher and the bodies of the calls. -/
structure RequestRun where
  dispatcher : RequestDispatcher
  bodies : List RequestBody := []

def RequestFuture.message? : RequestFuture → Option Message
  | .result message => some message
  | _ => none

namespace RequestRun

inductive Action
  | dispatch (action : RequestDispatcher.Action)
  | published (c : Nat) (ok : Bool)
  | expire (c : Nat)
  | wake (c : Nat)
  | timeout (c : Nat)
  | cancel (c : Nat)

/-- The request of a call that has been registered. -/
def request? (s : RequestRun) (c : Nat) : Option Nat :=
  match s.dispatcher.calls[c]?.map RequestCall.phase with
  | some (.registered r) => some r
  | _ => none

/-- The future of a request. -/
def future? (s : RequestRun) (r : Nat) : Option RequestFuture :=
  s.dispatcher.requests[r]?.map PendingRequest.future

def setBody (s : RequestRun) (c : Nat) (body : RequestBody) : RequestRun :=
  { s with bodies := s.bodies.set c body }

/-- The body has ended, and `close` runs. -/
def leave (s : RequestRun) (c : Nat) (body : RequestBody) (timeout : Bool) : Option RequestRun :=
  (s.dispatcher.step (.close c timeout)).map fun dispatcher =>
    { dispatcher, bodies := s.bodies.set c body }

/-- `close` is called in the `finally` only. -/
def isClose : RequestDispatcher.Action → Bool
  | .close _ _ => true
  | _ => false

/-- The body of a call after an action of the dispatcher: a new call has a new body. -/
def bodiesAfter (s : RequestRun) : RequestDispatcher.Action → List RequestBody
  | .register _ => s.bodies ++ [.publishing]
  | _ => s.bodies

def step (s : RequestRun) : Action → Option RequestRun
  | .dispatch action =>
      if isClose action then none
      else
        (s.dispatcher.step action).map fun dispatcher =>
          { dispatcher, bodies := s.bodiesAfter action }
  | .published c ok =>
      (s.request? c).bind fun _ =>
        if s.bodies[c]? ≠ some .publishing then none
        else if ok then some (s.setBody c .waiting)
        else s.leave c .failed false
  | .expire c =>
      (s.request? c).bind fun r =>
        if s.bodies[c]? = some .waiting ∧ s.future? r = some .waiting then
          some (s.setBody c .expired)
        else none
  | .wake c =>
      (s.request? c).bind fun r =>
        if s.bodies[c]? = some .waiting ∨ s.bodies[c]? = some .expired then
          match s.future? r with
          | some (.result message) => s.leave c (.replied message) false
          | some .exception => s.leave c .failed false
          | _ => none
        else none
  | .timeout c =>
      (s.request? c).bind fun _ =>
        if s.bodies[c]? = some .expired then s.leave c .failed true else none
  | .cancel c =>
      (s.request? c).bind fun _ => s.leave c .failed false

def start (maxPendingRequests : Nat) : RequestRun :=
  { dispatcher := RequestDispatcher.start maxPendingRequests }

/-- What `request()` returned or raised, if it has ended. -/
def result? (s : RequestRun) (c : Nat) : Option RequestResult :=
  match s.dispatcher.calls[c]?.map RequestCall.phase, s.bodies[c]? with
  | some .returned, some (.replied message) => some (.returns message)
  | some .returned, some _ => some .raises
  | some (.raised _), some _ => some .raises
  | _, _ => none

/-- The message in the future of a call that is not closed. -/
def received? (s : RequestRun) (c : Nat) : Option Message :=
  ((s.dispatcher.calls[c]?.bind fun call => call.phase.request?).bind s.future?).bind
    RequestFuture.message?

/-- The message that `request()` has received in time and has to return. -/
def reply? (s : RequestRun) (c : Nat) : Option Message :=
  match s.bodies[c]? with
  | some .publishing => s.received? c
  | some .waiting => s.received? c
  | some (.replied message) => some message
  | _ => none

/-- The task of `add_response_observer` that a call waits for. -/
def awaits? (s : RequestRun) (c : Nat) : Option Nat :=
  s.dispatcher.calls[c]?.bind fun call => call.phase.awaits?

/-- `close` of a call would find that its topic has no other request and that the task of
its observer has failed. -/
def observerFailed (s : RequestRun) (c : Nat) : Bool :=
  s.dispatcher.calls[c]?.elim false fun call =>
    call.phase.request?.elim false fun r => s.dispatcher.observerFailed call.key r

/-- What must not happen to a call that has its reply: its task is cancelled, `publish`
raises, an observer task that it waits for has failed or fails, its clean-up finds a
failed one, or raises. -/
def undisturbed (c : Nat) (s : RequestRun) : Action → Bool
  | .cancel c' => decide (c' ≠ c)
  | .published c' ok => ok || decide (c' ≠ c) || (s.reply? c).isNone
  | .wake c' => decide (c' ≠ c) || (s.received? c).isNone || !s.observerFailed c
  | .dispatch (.resume c' ok) => ok || decide (c' ≠ c) || (s.reply? c).isNone
  | .dispatch (.readyDone t ok) => ok || decide (s.awaits? c ≠ some t) || (s.reply? c).isNone
  | .dispatch (.deliver _) =>
      (s.reply? c).isSome || decide ((s.awaits? c).bind s.dispatcher.outcome ≠ some false)
  | _ => true

end RequestRun

/-! ## A reply on its way to the caller -/

namespace RequestRun

open RequestDispatcher

variable {s next : RequestRun} {c : Nat} {message : Message} {maxPendingRequests : Nat}

/-- The phase and the body of a call that has its reply and will return it. -/
inductive Holds (d : RequestDispatcher) (message : Message) : RequestPhase → RequestBody → Prop
  | subscribing {r ready : Nat} {body : RequestBody} {request : PendingRequest}
      (hrequest : d.requests[r]? = some request) (hresult : request.future = .result message)
      (hbody : body = .publishing ∨ body = .waiting) (hready : d.outcome ready ≠ some false) :
      Holds d message (.subscribing r ready) body
  | registered {r : Nat} {body : RequestBody} {request : PendingRequest}
      (hrequest : d.requests[r]? = some request) (hresult : request.future = .result message)
      (hbody : body = .publishing ∨ body = .waiting) : Holds d message (.registered r) body
  | settling {i ready : Nat} (hready : d.outcome ready ≠ some false) :
      Holds d message (.settling i ready none) (.replied message)
  | removing : Holds d message (.removing none) (.replied message)
  | returned : Holds d message .returned (.replied message)

/-- The call has its reply and will return it. -/
structure Holding (c : Nat) (message : Message) (s : RequestRun) : Prop where
  holds : ∃ (call : RequestCall) (body : RequestBody), s.dispatcher.calls[c]? = some call ∧
    s.bodies[c]? = some body ∧ Holds s.dispatcher message call.phase body

theorem received?_of {call : RequestCall} {r : Nat} {request : PendingRequest}
    (hcall : s.dispatcher.calls[c]? = some call) (hr : call.phase.request? = some r)
    (hrequest : s.dispatcher.requests[r]? = some request)
    (hresult : request.future = .result message) : s.received? c = some message := by
  simp [received?, future?, hcall, hr, hrequest, hresult, RequestFuture.message?]

theorem Holding.reply (h : Holding c message s) : s.reply? c = some message := by
  obtain ⟨call, body, hcall, hbody, hholds⟩ := h.holds
  unfold reply?
  rw [hbody]
  generalize hphase : call.phase = phase at hholds
  cases hholds with
  | subscribing hrequest hresult hbody _ =>
      have hreceived : s.received? c = some message :=
        received?_of hcall (by rw [hphase]; rfl) hrequest hresult
      rcases hbody with rfl | rfl <;> exact hreceived
  | registered hrequest hresult hbody =>
      have hreceived : s.received? c = some message :=
        received?_of hcall (by rw [hphase]; rfl) hrequest hresult
      rcases hbody with rfl | rfl <;> exact hreceived
  | settling _ => rfl
  | removing => rfl
  | returned => rfl

/-- The call has not ended, or has returned the reply. -/
theorem Holding.result (h : Holding c message s) :
    s.result? c = none ∨ s.result? c = some (.returns message) := by
  obtain ⟨call, body, hcall, hbody, hholds⟩ := h.holds
  unfold result?
  rw [hcall, hbody, Option.map_some]
  generalize call.phase = phase at hholds
  cases hholds with
  | subscribing _ _ _ _ => exact .inl rfl
  | registered _ _ _ => exact .inl rfl
  | settling _ => exact .inl rfl
  | removing => exact .inl rfl
  | returned => exact .inr rfl

/-- The step is not one of the call. -/
theorem Holding.other (h : Holding c message s)
    (hbalanced : Balanced maxPendingRequests s.dispatcher) {a : RequestDispatcher.Action}
    (hstep : s.dispatcher.step a = some next.dispatcher)
    (ha : a.call? ≠ some c) (hready : ∀ t, s.awaits? c = some t → a ≠ .readyDone t false)
    (hbodies : next.bodies[c]? = s.bodies[c]?) : Holding c message next := by
  obtain ⟨call, body, hcall, hbody, hholds⟩ := h.holds
  have hawaits : s.awaits? c = call.phase.awaits? := by
    unfold awaits?
    rw [hcall]
    rfl
  rw [hawaits] at hready
  have hnotfailed : ∀ t, call.phase.awaits? = some t → s.dispatcher.outcome t ≠ some false →
      next.dispatcher.outcome t ≠ some false := by
    intro t ht hold hfailed
    rcases failed_before hstep hfailed with hbefore | hdone
    · exact hold hbefore
    · exact hready t ht hdone
  refine ⟨call, body, (hbalanced.step hstep).calls c call hcall ha, hbodies.trans hbody, ?_⟩
  generalize call.phase = phase at hholds hnotfailed
  cases hholds with
  | subscribing hrequest hresult hbody hold =>
      obtain ⟨request', hrequest', hresult'⟩ := result_kept hstep hrequest hresult
      exact .subscribing hrequest' hresult' hbody (hnotfailed _ rfl hold)
  | registered hrequest hresult hbody =>
      obtain ⟨request', hrequest', hresult'⟩ := result_kept hstep hrequest hresult
      exact .registered hrequest' hresult' hbody
  | settling hold => exact .settling (hnotfailed _ rfl hold)
  | removing => exact .removing
  | returned => exact .returned

theorem holds_of_leaves {d d' : RequestDispatcher} {phase : RequestPhase}
    (hleaves : Leaves c none d d' phase) (hgrows : Grows d d') :
    Holds d' message phase (.replied message) := by
  have hleaving := hleaves.leaving
  have herror := hleaves.error
  cases phase with
  | settling i ready error =>
      obtain rfl : error = none := herror
      refine .settling fun hfailed => ?_
      have hwaiting := (hleaves.awaits ready rfl).1
      rw [hgrows.failed ready hfailed] at hwaiting
      cases hwaiting
  | removing error =>
      obtain rfl : error = none := herror
      exact .removing
  | returned => exact .returned
  | raised error => cases herror
  | acquiring => cases hleaving
  | subscribing r ready => cases hleaving
  | registered r => cases hleaving

theorem getElem?_setPhase {d : RequestDispatcher} {call : RequestCall}
    (hcall : d.calls[c]? = some call) (phase : RequestPhase) :
    (d.setPhase c phase).calls[c]? = some { call with phase } := by
  unfold setPhase
  rw [List.getElem?_modify_eq, hcall]
  rfl

/-- The clean-up has started without an error. -/
theorem holding_of_leaves {call : RequestCall} {phase : RequestPhase}
    (hcall : s.dispatcher.calls[c]? = some call)
    (hleaves : Leaves c none s.dispatcher next.dispatcher phase)
    (hgrows : Grows s.dispatcher next.dispatcher)
    (hbody : next.bodies[c]? = some (.replied message)) : Holding c message next := by
  refine ⟨{ call with phase }, .replied message, ?_, hbody, holds_of_leaves hleaves hgrows⟩
  rw [hleaves.calls]
  exact getElem?_setPhase hcall phase

/-- What the call awaits has ended well. -/
theorem Holding.resume (h : Holding c message s) {d : RequestDispatcher}
    (hstep : s.dispatcher.step (.resume c true) = some d) :
    Holding c message { dispatcher := d, bodies := s.bodies } := by
  obtain ⟨call, body, hcall, hbody, hholds⟩ := h.holds
  obtain ⟨call', hcall', hresume⟩ := Option.bind_eq_some_iff.mp hstep
  obtain rfl : call = call' := Option.some_inj.mp (hcall ▸ hcall')
  have hgrows := Grows.resume hresume
  obtain ⟨key, phase⟩ := call
  cases hholds with
  | @subscribing r ready body request hrequest hresult hcases _ =>
      unfold RequestDispatcher.resume at hresume
      dsimp only at hresume
      split at hresume
      · cases hresume
      · cases hresume
        exact ⟨_, _, getElem?_setPhase hcall (.registered r), hbody,
          .registered hrequest hresult hcases⟩
  | registered _ _ _ => cases hresume
  | @settling i ready _ =>
      unfold RequestDispatcher.resume at hresume
      dsimp only at hresume
      split at hresume
      · cases hresume
      · cases hresume
        obtain ⟨phase, hleaves, -⟩ :=
          leaves_dropInterest (s := s.dispatcher) c key.1 i true none
        exact holding_of_leaves hcall hleaves hgrows hbody
  | removing =>
      cases hresume
      exact holding_of_leaves hcall (leaves_finish rfl) hgrows hbody
  | returned => cases hresume

/-- `close` of a call whose observer has not failed. -/
theorem leaves_close {d d' : RequestDispatcher} {call : RequestCall} {r : Nat}
    (hinterests : Interests none d) (hphase : call.phase = .registered r)
    (hobserver : d.observerFailed call.key r = false) {timeout : Bool}
    (hclose : d.close c call timeout = some d') : ∃ phase, Leaves c none d d' phase := by
  unfold RequestDispatcher.close at hclose
  rw [hphase] at hclose
  cases hclose
  have hmodified : Interests none (d.modifyRequest r fun request => request.close timeout) :=
    hinterests.of_same rfl rfl rfl (fun _ => rfl) rfl
  obtain ⟨phase, error, hleaves, herror⟩ := leaves_unregister hmodified c call.key r none
  obtain rfl : error = none := herror hobserver
  exact ⟨phase, hleaves.calls, hleaves.leaving, hleaves.error, hleaves.awaits⟩

/-- What holds between two steps. -/
structure Sound (maxPendingRequests : Nat) (s : RequestRun) : Prop where
  balanced : Balanced maxPendingRequests s.dispatcher
  valid : TasksValid s.dispatcher

theorem request?_eq_some {r : Nat} (h : s.request? c = some r) :
    ∃ call : RequestCall, s.dispatcher.calls[c]? = some call ∧ call.phase = .registered r := by
  unfold request? at h
  cases hcall : s.dispatcher.calls[c]? with
  | none => simp [hcall] at h
  | some call =>
      obtain ⟨key, phase⟩ := call
      cases phase with
      | registered r' =>
          obtain rfl : r' = r := by simpa [hcall] using h
          exact ⟨_, rfl, rfl⟩
      | _ => simp [hcall] at h

/-- Every step is one of the dispatcher, or of the body of one call. -/
theorem step_cases {a : Action} (hstep : s.step a = some next) :
    (∃ action, a = .dispatch action ∧ isClose action = false ∧
      s.dispatcher.step action = some next.dispatcher ∧ next.bodies = s.bodiesAfter action) ∨
    (∃ c, a = .published c true ∧ s.bodies[c]? = some .publishing ∧ (s.request? c).isSome ∧
      next = s.setBody c .waiting) ∨
    (∃ c r, a = .expire c ∧ s.request? c = some r ∧ s.bodies[c]? = some .waiting ∧
      s.future? r = some .waiting ∧ next = s.setBody c .expired) ∨
    ∃ c r body timeout, s.request? c = some r ∧ s.leave c body timeout = some next ∧
      ((a = .published c false ∧ body = .failed) ∨
        (a = .wake c ∧ ∃ message, s.future? r = some (.result message) ∧ body = .replied message) ∨
        (a = .wake c ∧ s.future? r = some .exception ∧ body = .failed) ∨
        (a = .timeout c ∧ s.bodies[c]? = some .expired ∧ body = .failed) ∨
        (a = .cancel c ∧ body = .failed)) := by
  cases a with
  | dispatch action =>
      obtain ⟨hclose, hrest⟩ := Option.ite_none_left_eq_some.mp hstep
      obtain ⟨d, hd, rfl⟩ := Option.map_eq_some_iff.mp hrest
      exact .inl ⟨action, rfl, by simpa using hclose, hd, rfl⟩
  | published c ok =>
      obtain ⟨r, hr, hrest⟩ := Option.bind_eq_some_iff.mp hstep
      split at hrest
      · cases hrest
      · rename_i hbody
        cases ok with
        | true =>
            cases hrest
            exact .inr (.inl ⟨c, rfl, not_not.mp hbody, by simp [hr], rfl⟩)
        | false => exact .inr (.inr (.inr ⟨c, r, .failed, false, hr, hrest, .inl ⟨rfl, rfl⟩⟩))
  | expire c =>
      obtain ⟨r, hr, hrest⟩ := Option.bind_eq_some_iff.mp hstep
      obtain ⟨⟨hbody, hfuture⟩, heq⟩ := Option.ite_none_right_eq_some.mp hrest
      cases heq
      exact .inr (.inr (.inl ⟨c, r, rfl, hr, hbody, hfuture, rfl⟩))
  | wake c =>
      obtain ⟨r, hr, hrest⟩ := Option.bind_eq_some_iff.mp hstep
      obtain ⟨-, hleave⟩ := Option.ite_none_right_eq_some.mp hrest
      split at hleave
      · rename_i message hfuture
        exact .inr (.inr (.inr ⟨c, r, .replied message, false, hr, hleave,
          .inr (.inl ⟨rfl, message, hfuture, rfl⟩)⟩))
      · rename_i hfuture
        exact .inr (.inr (.inr ⟨c, r, .failed, false, hr, hleave,
          .inr (.inr (.inl ⟨rfl, hfuture, rfl⟩))⟩))
      · cases hleave
  | timeout c =>
      obtain ⟨r, hr, hrest⟩ := Option.bind_eq_some_iff.mp hstep
      obtain ⟨hbody, hleave⟩ := Option.ite_none_right_eq_some.mp hrest
      exact .inr (.inr (.inr ⟨c, r, .failed, true, hr, hleave,
        .inr (.inr (.inr (.inl ⟨rfl, hbody, rfl⟩)))⟩))
  | cancel c =>
      obtain ⟨r, hr, hleave⟩ := Option.bind_eq_some_iff.mp hstep
      exact .inr (.inr (.inr ⟨c, r, .failed, false, hr, hleave,
        .inr (.inr (.inr (.inr ⟨rfl, rfl⟩)))⟩))

theorem Sound.of_dispatcher (h : Sound maxPendingRequests s) {action : RequestDispatcher.Action}
    (hstep : s.dispatcher.step action = some next.dispatcher) : Sound maxPendingRequests next :=
  ⟨(h.balanced.step hstep).balanced, h.valid.step h.balanced hstep⟩

theorem Sound.step (h : Sound maxPendingRequests s) {a : Action} (hstep : s.step a = some next) :
    Sound maxPendingRequests next := by
  rcases step_cases hstep with ⟨action, -, -, hd, -⟩ | ⟨c, -, -, -, rfl⟩ | ⟨c, r, -, -, -, -, rfl⟩ |
    ⟨c, r, body, timeout, -, hleave, -⟩
  · exact h.of_dispatcher hd
  · exact ⟨h.balanced, h.valid⟩
  · exact ⟨h.balanced, h.valid⟩
  · obtain ⟨d, hd, rfl⟩ := Option.map_eq_some_iff.mp hleave
    exact h.of_dispatcher hd

theorem Sound.start (maxPendingRequests : Nat) :
    Sound maxPendingRequests (start maxPendingRequests) where
  balanced := Balanced.start maxPendingRequests
  valid := ⟨fun _ h => absurd h List.not_mem_nil, fun _ h => absurd h List.not_mem_nil⟩

/-! ## Every step -/

theorem bodiesAfter_same (action : RequestDispatcher.Action) {body : RequestBody}
    (hbody : s.bodies[c]? = some body) : (s.bodiesAfter action)[c]? = s.bodies[c]? := by
  unfold bodiesAfter
  split
  · exact List.getElem?_append_left (List.getElem?_eq_some_iff.mp hbody).1
  · rfl

/-- A call that has its reply is not waiting for a unit of the semaphore. -/
theorem Holding.not_acquire (h : Holding c message s) (d : RequestDispatcher) :
    s.dispatcher.step (.acquire c) ≠ some d := by
  intro hstep
  obtain ⟨call, body, hcall, -, hholds⟩ := h.holds
  obtain ⟨call', hcall', hrest⟩ := Option.bind_eq_some_iff.mp hstep
  obtain rfl : call = call' := Option.some_inj.mp (hcall ▸ hcall')
  obtain ⟨⟨hacquiring, -⟩, -⟩ := Option.ite_none_right_eq_some.mp hrest
  rw [hacquiring] at hholds
  cases hholds

theorem Holding.dispatch (h : Holding c message s)
    (hbalanced : Balanced maxPendingRequests s.dispatcher) {action : RequestDispatcher.Action}
    (hok : undisturbed c s (.dispatch action) = true) (hclose : isClose action = false)
    (hstep : s.dispatcher.step action = some next.dispatcher)
    (hbodies : next.bodies = s.bodiesAfter action) : Holding c message next := by
  have hreply := h.reply
  obtain ⟨call, body, hcall, hbody, hholds⟩ := h.holds
  have hsame : next.bodies[c]? = s.bodies[c]? := by
    rw [hbodies]
    exact bodiesAfter_same action hbody
  by_cases ha : action.call? = some c
  · cases action with
    | acquire c' =>
        obtain rfl : c' = c := Option.some_inj.mp ha
        exact absurd hstep (h.not_acquire _)
    | resume c' ok =>
        obtain rfl : c' = c := Option.some_inj.mp ha
        obtain rfl : ok = true := by simpa [undisturbed, hreply] using hok
        obtain ⟨d, bodies⟩ := next
        obtain rfl : bodies = s.bodies := hbodies
        exact h.resume hstep
    | close c' timeout => cases hclose
    | _ => cases ha
  · refine h.other hbalanced hstep ha (fun t ht heq => ?_) hsame
    subst heq
    simp [undisturbed, hreply, ht] at hok

/-- The body of another call moves. -/
theorem Holding.setBody_other (h : Holding c message s) {c' : Nat} (hne : c' ≠ c)
    (body : RequestBody) : Holding c message (s.setBody c' body) := by
  obtain ⟨call, old, hcall, hold, hholds⟩ := h.holds
  refine ⟨call, old, hcall, ?_, hholds⟩
  show (s.bodies.set c' body)[c]? = some old
  rw [List.getElem?_set_ne hne]
  exact hold

/-- The phase and the future of a call that has its reply and is registered. -/
theorem Holding.registered (h : Holding c message s) {r : Nat} (hr : s.request? c = some r) :
    s.future? r = some (.result message) ∧
      (s.bodies[c]? = some .publishing ∨ s.bodies[c]? = some .waiting) := by
  obtain ⟨call, body, hcall, hbody, hholds⟩ := h.holds
  obtain ⟨call', hcall', hphase⟩ := request?_eq_some hr
  obtain rfl : call = call' := Option.some_inj.mp (hcall ▸ hcall')
  rw [hphase] at hholds
  cases hholds with
  | @registered r body request hrequest hresult hcases =>
      refine ⟨?_, by rw [hbody]; simpa using hcases⟩
      unfold future?
      rw [hrequest]
      exact congrArg some hresult

theorem Holding.received (h : Holding c message s) {r : Nat} (hr : s.request? c = some r) :
    s.received? c = some message := by
  obtain ⟨call, hcall, hphase⟩ := request?_eq_some hr
  unfold received?
  rw [hcall, Option.bind_some, hphase]
  simp only [RequestPhase.request?, Option.bind_some, (h.registered hr).1]
  rfl

theorem Holding.published (h : Holding c message s) (hrequest : (s.request? c).isSome) :
    Holding c message (s.setBody c .waiting) := by
  obtain ⟨r, hr⟩ := Option.isSome_iff_exists.mp hrequest
  obtain ⟨call, body, hcall, hbody, hholds⟩ := h.holds
  obtain ⟨call', hcall', hphase⟩ := request?_eq_some hr
  obtain rfl : call = call' := Option.some_inj.mp (hcall ▸ hcall')
  rw [hphase] at hholds
  cases hholds with
  | @registered r body request hrequest hresult _ =>
      refine ⟨call, .waiting, hcall, ?_, ?_⟩
      · show (s.bodies.set c .waiting)[c]? = some .waiting
        exact List.getElem?_set_self (List.getElem?_eq_some_iff.mp hbody).1
      · rw [hphase]
        exact .registered hrequest hresult (.inr rfl)

/-- The call takes its reply and cleans up. -/
theorem Holding.wake (h : Holding c message s) (hsound : Sound maxPendingRequests s) {r : Nat}
    (hr : s.request? c = some r) (hobserver : s.observerFailed c = false) {timeout : Bool}
    (hleave : s.leave c (.replied message) timeout = some next) : Holding c message next := by
  obtain ⟨call, body, hcall, hbody, -⟩ := h.holds
  obtain ⟨call', hcall', hphase⟩ := request?_eq_some hr
  obtain rfl : call = call' := Option.some_inj.mp (hcall ▸ hcall')
  obtain ⟨d, hd, rfl⟩ := Option.map_eq_some_iff.mp hleave
  obtain ⟨call', hcall', hclose⟩ := Option.bind_eq_some_iff.mp hd
  obtain rfl : call = call' := Option.some_inj.mp (hcall ▸ hcall')
  have hfine : s.dispatcher.observerFailed call.key r = false := by
    simpa [observerFailed, hcall, hphase, RequestPhase.request?] using hobserver
  obtain ⟨phase, hleaves⟩ := leaves_close hsound.balanced.interests hphase hfine hclose
  refine holding_of_leaves hcall hleaves (Grows.close hclose) ?_
  exact List.getElem?_set_self (List.getElem?_eq_some_iff.mp hbody).1

/-- **Step lemma.** -/
theorem Holding.step (h : Holding c message s) (hsound : Sound maxPendingRequests s) {a : Action}
    (hok : undisturbed c s a = true) (hstep : s.step a = some next) : Holding c message next := by
  have hreply := h.reply
  rcases step_cases hstep with ⟨action, rfl, hclose, hd, hbodies⟩ | ⟨c', -, -, hrequest, rfl⟩ |
    ⟨c', r, -, hr, -, hfuture, rfl⟩ | ⟨c', r, body, timeout, hr, hleave, hwhy⟩
  · exact h.dispatch hsound.balanced hok hclose hd hbodies
  · by_cases hc : c' = c
    · subst hc
      exact h.published hrequest
    · exact h.setBody_other hc _
  · by_cases hc : c' = c
    · subst hc
      rw [(h.registered hr).1] at hfuture
      cases hfuture
    · exact h.setBody_other hc _
  · by_cases hc : c' = c
    · subst hc
      have hregistered := h.registered hr
      rcases hwhy with ⟨rfl, -⟩ | ⟨rfl, message', hfuture, rfl⟩ | ⟨-, hfuture, -⟩ |
        ⟨-, hexpired, -⟩ | ⟨rfl, -⟩
      · simp [undisturbed, hreply] at hok
      · obtain rfl : message' = message := by
          rw [hregistered.1] at hfuture
          cases hfuture
          rfl
        have hobserver : s.observerFailed c' = false := by
          simpa [undisturbed, h.received hr] using hok
        exact h.wake hsound hr hobserver hleave
      · rw [hregistered.1] at hfuture
        cases hfuture
      · rcases hregistered.2 with hbody | hbody <;> simp [hbody] at hexpired
      · simp [undisturbed] at hok
    · -- another call closes its request
      obtain ⟨d, hd, rfl⟩ := Option.map_eq_some_iff.mp hleave
      refine h.other hsound.balanced hd ?_ (fun t _ heq => by cases heq) ?_
      · exact fun heq => hc (Option.some_inj.mp heq)
      · exact List.getElem?_set_ne hc

/-! ## The reply reaches the caller -/

/-- Some undisturbed steps lead to the return of the reply. -/
def CanReturn (c : Nat) (message : Message) (s : RequestRun) : Prop :=
  ∃ more u, Transition.run step s more = some u ∧
    Transition.Along step (fun s a => undisturbed c s a = true) s more ∧
    u.result? c = some (.returns message)

theorem CanReturn.cons {a : Action} (hstep : s.step a = some next)
    (hok : undisturbed c s a = true) (h : CanReturn c message next) : CanReturn c message s := by
  obtain ⟨more, u, hrun, halong, hresult⟩ := h
  refine ⟨a :: more, u, ?_, ⟨hok, ?_⟩, hresult⟩
  · rw [Transition.run, hstep]
    exact hrun
  · rw [hstep]
    exact halong

theorem step_resume {d : RequestDispatcher} (hd : s.dispatcher.step (.resume c true) = some d) :
    s.step (.dispatch (.resume c true)) = some { dispatcher := d, bodies := s.bodies } := by
  show (s.dispatcher.step (.resume c true)).map _ = _
  rw [hd]
  rfl

/-- The clean-up waits for nothing, or for the removal of the observer. -/
theorem canReturn_leaving {call : RequestCall} (hcall : s.dispatcher.calls[c]? = some call)
    (hbody : s.bodies[c]? = some (.replied message))
    (hphase : call.phase = .returned ∨ call.phase = .removing none) : CanReturn c message s := by
  rcases hphase with hreturned | hremoving
  · refine ⟨[], s, rfl, trivial, ?_⟩
    unfold result?
    rw [hcall, hbody, Option.map_some, hreturned]
  · have hd : s.dispatcher.step (.resume c true) = some (s.dispatcher.release.finish c none) := by
      show s.dispatcher.calls[c]?.bind _ = _
      rw [hcall, Option.bind_some]
      unfold RequestDispatcher.resume
      rw [hremoving]
      rfl
    refine CanReturn.cons (step_resume hd) rfl ⟨[], _, rfl, trivial, ?_⟩
    have hcall' : (s.dispatcher.release.finish c none).calls[c]? =
        some { call with phase := .returned } :=
      getElem?_setPhase (d := s.dispatcher.release) hcall .returned
    unfold result?
    dsimp only
    rw [hcall', hbody]
    rfl

/-- The task ends well. -/
def taskDone (s : RequestRun) (t : Nat) : RequestRun :=
  { s with
    dispatcher :=
      { s.dispatcher with
        readyTasks := s.dispatcher.readyTasks.modify t fun task =>
          { task with outcome := some (task.outcome.getD true) } } }

theorem step_taskDone (s : RequestRun) (t : Nat) :
    s.step (.dispatch (.readyDone t true)) = some (s.taskDone t) := rfl

theorem outcome_taskDone {t : Nat} (hlt : t < s.dispatcher.readyTasks.length)
    (hfine : s.dispatcher.outcome t ≠ some false) :
    (s.taskDone t).dispatcher.outcome t = some true := by
  unfold outcome at hfine ⊢
  show ((s.dispatcher.readyTasks.modify t _)[t]?).bind _ = _
  rw [List.getElem?_modify_eq]
  obtain ⟨task, htask⟩ : ∃ task, s.dispatcher.readyTasks[t]? = some task :=
    ⟨_, List.getElem?_eq_getElem hlt⟩
  rw [htask] at hfine ⊢
  cases hold : task.outcome with
  | none => simp [hold]
  | some old =>
      have htrue : old = true := by simpa [hold] using hfine
      simp [hold, htrue]

theorem canReturn_settling {call : RequestCall} {i ready : Nat}
    (hcall : s.dispatcher.calls[c]? = some call)
    (hbody : s.bodies[c]? = some (.replied message)) (hphase : call.phase = .settling i ready none)
    (hlt : ready < s.dispatcher.readyTasks.length)
    (hfine : s.dispatcher.outcome ready ≠ some false) : CanReturn c message s := by
  refine CanReturn.cons (step_taskDone s ready) rfl ?_
  have htrue := outcome_taskDone hlt hfine
  have hcall' : (s.taskDone ready).dispatcher.calls[c]? = some call := hcall
  have hbody' : (s.taskDone ready).bodies[c]? = some (.replied message) := hbody
  generalize s.taskDone ready = done at *
  have hd : done.dispatcher.step (.resume c true) =
      some (done.dispatcher.dropInterest c call.key.1 i true none) := by
    show done.dispatcher.calls[c]?.bind _ = _
    rw [hcall', Option.bind_some]
    unfold RequestDispatcher.resume
    rw [hphase]
    simp [htrue]
  refine CanReturn.cons (step_resume hd) rfl ?_
  obtain ⟨phase, hleaves, hnone⟩ :=
    leaves_dropInterest (s := done.dispatcher) c call.key.1 i true none
  have hcall'' := hleaves.calls ▸ getElem?_setPhase hcall' phase
  refine canReturn_leaving hcall'' hbody' ?_
  have hholds : Holds _ message phase (.replied message) :=
    holds_of_leaves hleaves (Grows.dropInterest ..)
  cases hholds with
  | subscribing _ _ hcases _ => rcases hcases with hcases | hcases <;> cases hcases
  | registered _ _ hcases => rcases hcases with hcases | hcases <;> cases hcases
  | settling _ => cases hnone
  | removing => exact .inr rfl
  | returned => exact .inl rfl

/-- A call that has taken its reply. -/
theorem canReturn_replied (h : Holding c message s) (hsound : Sound maxPendingRequests s)
    (hbody : s.bodies[c]? = some (.replied message)) : CanReturn c message s := by
  obtain ⟨call, body, hcall, hbody', hholds⟩ := h.holds
  obtain rfl : body = .replied message := Option.some_inj.mp (hbody'.symm.trans hbody)
  generalize hphase : call.phase = phase at hholds
  cases hholds with
  | subscribing _ _ hcases _ => rcases hcases with hcases | hcases <;> cases hcases
  | registered _ _ hcases => rcases hcases with hcases | hcases <;> cases hcases
  | @settling i ready hfine =>
      refine canReturn_settling hcall hbody hphase ?_ hfine
      exact hsound.valid.calls call (List.mem_of_getElem? hcall) ready (by rw [hphase]; rfl)
  | removing => exact canReturn_leaving hcall hbody (.inr hphase)
  | returned => exact canReturn_leaving hcall hbody (.inl hphase)

/-- After a `bind` no topic has a failed observer. -/
theorem observerFailed_bind (d : RequestDispatcher) (protocol : Nat) (key : RequestKey) (r : Nat) :
    (d.bind protocol).observerFailed key r = false := by
  unfold RequestDispatcher.observerFailed
  cases hget : OrderedDict.get (d.bind protocol).topics key.1 with
  | none => simp
  | some i =>
      have hnone : ((d.bind protocol).interest i).ready = none := by
        have hmem : i ∈ d.topics.map Prod.snd :=
          List.mem_map.mpr ⟨(key.1, i), OrderedDict.mem_of_get hget, rfl⟩
        unfold interest RequestDispatcher.bind
        rw [List.getElem?_mapIdx]
        cases d.interests[i]? with
        | none => rfl
        | some found => simp [hmem]
      simp [hnone]

theorem canReturn_waiting (h : Holding c message s) (hsound : Sound maxPendingRequests s)
    {r : Nat} (hr : s.request? c = some r) (hbody : s.bodies[c]? = some .waiting) :
    CanReturn c message s := by
  -- a new connection forgets the observer tasks, so the clean-up finds none that failed
  have hbind : s.step (.dispatch (.bind 0)) =
      some { s with dispatcher := s.dispatcher.bind 0 } := rfl
  refine CanReturn.cons hbind rfl ?_
  have hbound := h.step hsound (a := .dispatch (.bind 0)) rfl hbind
  have hboundsound := hsound.step hbind
  have hr' : RequestRun.request? { s with dispatcher := s.dispatcher.bind 0 } c = some r := hr
  have hobserver :
      RequestRun.observerFailed { s with dispatcher := s.dispatcher.bind 0 } c = false := by
    unfold RequestRun.observerFailed
    cases (s.dispatcher.bind 0).calls[c]? with
    | none => rfl
    | some call =>
        rw [Option.elim_some]
        cases call.phase.request? with
        | none => rfl
        | some r => exact observerFailed_bind ..
  have hbody' : RequestRun.bodies { s with dispatcher := s.dispatcher.bind 0 } = s.bodies := rfl
  generalize RequestRun.mk (s.dispatcher.bind 0) s.bodies = bound at *
  rw [← hbody'] at hbody
  obtain ⟨call, hcall, hphase⟩ := request?_eq_some hr'
  obtain ⟨d, hd⟩ : ∃ d, bound.dispatcher.step (.close c false) = some d := by
    refine ⟨_, (?_ : _ = some ((bound.dispatcher.modifyRequest r fun request =>
      request.close false).unregister c call.key r none))⟩
    show bound.dispatcher.calls[c]?.bind _ = _
    rw [hcall, Option.bind_some]
    unfold RequestDispatcher.close
    rw [hphase]
  have hleave : bound.leave c (.replied message) false =
      some { dispatcher := d, bodies := bound.bodies.set c (.replied message) } := by
    unfold leave
    rw [hd]
    rfl
  have hwake : bound.step (.wake c) =
      some { dispatcher := d, bodies := bound.bodies.set c (.replied message) } := by
    show (bound.request? c).bind _ = _
    rw [hr', Option.bind_some, if_pos (.inl hbody), (hbound.registered hr').1]
    exact hleave
  have hok : undisturbed c bound (.wake c) = true := by
    simp [undisturbed, hobserver]
  refine CanReturn.cons hwake hok ?_
  refine canReturn_replied (hbound.step hboundsound hok hwake) (hboundsound.step hwake) ?_
  exact List.getElem?_set_self (List.getElem?_eq_some_iff.mp hbody).1

theorem canReturn_registered (h : Holding c message s) (hsound : Sound maxPendingRequests s)
    {r : Nat} (hr : s.request? c = some r) : CanReturn c message s := by
  rcases (h.registered hr).2 with hbody | hbody
  · have hpublished : s.step (.published c true) = some (s.setBody c .waiting) := by
      show (s.request? c).bind _ = _
      rw [hr, Option.bind_some, hbody]
      rfl
    have hok : undisturbed c s (.published c true) = true := rfl
    refine CanReturn.cons hpublished hok ?_
    refine canReturn_waiting (h.step hsound hok hpublished) (hsound.step hpublished) (r := r) hr ?_
    exact List.getElem?_set_self (List.getElem?_eq_some_iff.mp hbody).1
  · exact canReturn_waiting h hsound hr hbody

/-- The reply is there while `register` still waits for the observer. -/
theorem canReturn_subscribing (h : Holding c message s) (hsound : Sound maxPendingRequests s)
    {call : RequestCall} {r ready : Nat} (hcall : s.dispatcher.calls[c]? = some call)
    (hphase : call.phase = .subscribing r ready)
    (hfine : s.dispatcher.outcome ready ≠ some false) : CanReturn c message s := by
  have hlt : ready < s.dispatcher.readyTasks.length :=
    hsound.valid.calls call (List.mem_of_getElem? hcall) ready (by rw [hphase]; rfl)
  have hdone := h.step hsound (a := .dispatch (.readyDone ready true)) rfl (step_taskDone s ready)
  have hdonesound := hsound.step (step_taskDone s ready)
  refine CanReturn.cons (step_taskDone s ready) rfl ?_
  have htrue := outcome_taskDone hlt hfine
  have hcall' : (s.taskDone ready).dispatcher.calls[c]? = some call := hcall
  generalize s.taskDone ready = done at *
  have hd : done.dispatcher.step (.resume c true) =
      some (done.dispatcher.setPhase c (.registered r)) := by
    show done.dispatcher.calls[c]?.bind _ = _
    rw [hcall', Option.bind_some]
    unfold RequestDispatcher.resume
    rw [hphase]
    simp [htrue, afterReady]
  refine CanReturn.cons (step_resume hd) rfl ?_
  refine canReturn_registered (hdone.resume hd) (hdonesound.of_dispatcher hd) (r := r) ?_
  unfold request?
  dsimp only
  rw [getElem?_setPhase hcall']
  rfl

/-- A call that has its reply can return it. -/
theorem Holding.canReturn (h : Holding c message s) (hsound : Sound maxPendingRequests s) :
    CanReturn c message s := by
  obtain ⟨call, body, hcall, hbody, hholds⟩ := h.holds
  generalize hphase : call.phase = phase at hholds
  cases hholds with
  | subscribing _ _ _ hfine => exact canReturn_subscribing h hsound hcall hphase hfine
  | @registered r _ _ _ _ _ =>
      refine canReturn_registered h hsound (r := r) ?_
      unfold request?
      rw [hcall, Option.map_some, hphase]
  | settling _ => exact canReturn_replied h hsound hbody
  | removing => exact canReturn_replied h hsound hbody
  | returned => exact canReturn_replied h hsound hbody

/-- The step at which a reply arrives. -/
theorem holding_of_delivered {i : Nat} (hbefore : s.reply? c = none)
    (hok : undisturbed c s (.dispatch (.deliver i)) = true)
    (hstep : s.step (.dispatch (.deliver i)) = some next)
    (hreply : next.reply? c = some message) : Holding c message next := by
  obtain ⟨d, hd, rfl⟩ := Option.map_eq_some_iff.mp hstep
  obtain ⟨response, -, rfl⟩ := Option.map_eq_some_iff.mp hd
  obtain ⟨-, hcalls, htasks⟩ := TasksValid.same_complete (s := s.dispatcher) i response
  have hfine : ∀ t, s.awaits? c = some t →
      (s.dispatcher.complete i response).outcome t ≠ some false := by
    intro t ht
    unfold outcome
    rw [htasks]
    have hok' : (s.awaits? c).bind s.dispatcher.outcome ≠ some false := by
      simpa [undisturbed, hbefore] using hok
    rw [ht] at hok'
    exact hok'
  have hbody : ∃ body, s.bodies[c]? = some body ∧ (body = .publishing ∨ body = .waiting) := by
    unfold reply? at hbefore hreply
    dsimp only [bodiesAfter] at hreply
    cases hold : s.bodies[c]? with
    | none => simp [hold] at hreply
    | some body =>
        refine ⟨body, rfl, ?_⟩
        cases body with
        | publishing => exact .inl rfl
        | waiting => exact .inr rfl
        | expired => simp [hold] at hreply
        | replied message => simp [hold] at hbefore
        | failed => simp [hold] at hreply
  obtain ⟨body, hbody, hcases⟩ := hbody
  have hreceived : RequestRun.received?
      { dispatcher := s.dispatcher.complete i response, bodies := s.bodies } c = some message := by
    unfold reply? at hreply
    dsimp only [bodiesAfter] at hreply
    rw [hbody] at hreply
    rcases hcases with rfl | rfl <;> exact hreply
  unfold received? at hreceived
  obtain ⟨future, hfuture, hmessage⟩ := Option.bind_eq_some_iff.mp hreceived
  obtain ⟨r, hr, hfuture⟩ := Option.bind_eq_some_iff.mp hfuture
  obtain ⟨call, hcall, hrequest?⟩ := Option.bind_eq_some_iff.mp hr
  obtain ⟨request, hrequest, rfl⟩ := Option.map_eq_some_iff.mp hfuture
  have hresult : request.future = .result message := by
    cases hfuture : request.future with
    | result other =>
        obtain rfl : other = message := by simpa [hfuture, RequestFuture.message?] using hmessage
        rfl
    | _ => simp [hfuture, RequestFuture.message?] at hmessage
  refine ⟨call, body, hcall, hbody, ?_⟩
  have hawaits : s.awaits? c = call.phase.awaits? := by
    unfold awaits?
    rw [← hcalls, hcall]
    rfl
  generalize call.phase = phase at hrequest? hawaits
  cases phase with
  | subscribing r' ready =>
      obtain rfl : r' = r := Option.some_inj.mp hrequest?
      exact .subscribing hrequest hresult hcases (hfine ready hawaits)
  | registered r' =>
      obtain rfl : r' = r := Option.some_inj.mp hrequest?
      exact .registered hrequest hresult hcases
  | _ => cases hrequest?

/-- **A reply received in time is returned**, in every run in which, from its arrival on,
nothing of what `undisturbed` names happens to the call: until then the call has not
ended, or has returned the reply, and it can still return it. -/
theorem reply_returned (maxPendingRequests : Nat) (before later : List Action)
    (s answered t : RequestRun) (c i : Nat) (message : Message)
    (hbefore : Transition.run step (start maxPendingRequests) before = some s)
    (hwaiting : s.reply? c = none) (hdeliver : s.step (.dispatch (.deliver i)) = some answered)
    (hreply : answered.reply? c = some message)
    (hlater : Transition.run step answered later = some t)
    (halong : Transition.Along step (fun s a => undisturbed c s a = true) s
      (.dispatch (.deliver i) :: later)) :
    (t.result? c = none ∨ t.result? c = some (.returns message)) ∧ CanReturn c message t := by
  have hsound : Sound maxPendingRequests s :=
    Transition.invariant (fun _ _ _ h hstep => h.step hstep) (Sound.start maxPendingRequests)
      hbefore
  obtain ⟨hok, hrest⟩ := halong
  rw [hdeliver] at hrest
  have hstart : Sound maxPendingRequests answered ∧ Holding c message answered :=
    ⟨hsound.step hdeliver, holding_of_delivered hwaiting hok hdeliver hreply⟩
  have hend : Sound maxPendingRequests t ∧ Holding c message t :=
    Transition.invariant_along
      (I := fun s => Sound maxPendingRequests s ∧ Holding c message s)
      (fun _ _ _ h hok hstep => ⟨h.1.step hstep, h.2.step h.1 hok hstep⟩) hstart hrest hlater
  exact ⟨hend.2.result, hend.2.canReturn hend.1⟩

/-- A response to the first request on the topic `r`. -/
def response : Message :=
  { seq := 0, topic := str "r", payload := [7], qos := .atMostOnce, retain := false,
    properties := some { correlationData := some [1] } }

/-- A request is registered and published, and its response has been claimed. -/
def askRun : List Action :=
  [.dispatch (.bind 0), .dispatch (.register (str "r", [1])), .dispatch (.acquire 0),
   .dispatch (.readyDone 0 true), .dispatch (.resume 0 true), .published 0 true,
   .dispatch (.claim response)]

/-- The reply arrives and the clean-up goes through. -/
theorem reply_returned_after_unsuback :
    ∃ s answered t, Transition.run step (start 1) askRun = some s ∧
      s.step (.dispatch (.deliver 0)) = some answered ∧ answered.reply? 0 = some response ∧
      Transition.run step answered [.wake 0, .dispatch (.resume 0 true)] = some t ∧
      t.result? 0 = some (.returns response) ∧
      (t.result? 0 = none ∨ t.result? 0 = some (.returns response)) :=
  ⟨_, _, _, rfl, rfl, rfl, rfl, rfl,
    (reply_returned 1 askRun [.wake 0, .dispatch (.resume 0 true)] _ _ _ 0 0 response rfl rfl rfl
      rfl rfl (by decide)).1⟩

/-- The connection is lost while the clean-up waits for the UNSUBACK: `request()` raises,
and the reply is gone. -/
theorem reply_replaced_by_exception :
    ∃ s answered t, Transition.run step (start 1) askRun = some s ∧ s.reply? 0 = none ∧
      s.step (.dispatch (.deliver 0)) = some answered ∧ answered.reply? 0 = some response ∧
      Transition.run step answered [.wake 0, .dispatch (.resume 0 false)] = some t ∧
      t.result? 0 = some .raises :=
  ⟨_, _, _, rfl, rfl, rfl, rfl, rfl, rfl⟩

end RequestRun

end Zmqtt
