import Zmqtt.InboundFlow
import Zmqtt.TaskList
import Zmqtt.Transition

/-!
# Taking messages out of a subscription

`Subscription.get_message` of `client.py`.  With a run loop the message is taken by an
inner task, `message_task`, while the caller waits for it or for the failure signal;
without one the caller takes it itself.  After that the caller still has to get through
the `gather` of the `finally` and through the drain of the replay.

`put` is any delivery to the queue, by the read loop or by a drain.  A drain may raise,
and a caller may be cancelled at any `await`.
-/

namespace Zmqtt

/-- Where a `get_message()` stands.  `signal` is the failure signal it saw at its start,
`task` what `message_task` has taken; `raised` keeps what had been taken. -/
inductive GetPhase
  | direct
  | waiting (signal : Nat) (task : Option Message)
  | gathering (task : Option Message) (failed : Bool)
  | notifying (message : Message)
  | returned (message : Message)
  | raised (taken : Option Message)
deriving DecidableEq, Repr

/-- What the call took out of the queue. -/
def GetPhase.taken : GetPhase → List Message
  | .direct => []
  | .waiting _ task => task.toList
  | .gathering task _ => task.toList
  | .notifying message => [message]
  | .returned message => [message]
  | .raised taken => taken.toList

/-- The failure signal the call waits for. -/
def GetPhase.signal? : GetPhase → Option Nat
  | .waiting signal _ => some signal
  | _ => none

/-- The call has taken a message that it has not returned. -/
def GetPhase.hasTaken : GetPhase → Bool
  | .waiting _ task => task.isSome
  | .gathering task _ => task.isSome
  | .notifying _ => true
  | _ => false

/-- The queue of a `Subscription` and the calls on it.  `signals` are the futures
`_subscription_failure` there were, the last of them the current one, and whether each is
done; `put` has every message that was put in the queue. -/
structure SubscriptionQueue where
  queue : List Message := []
  signals : List Bool := []
  detached : Bool := false
  calls : List GetPhase := []
  put : List Message := []

namespace SubscriptionQueue

def setPhase (s : SubscriptionQueue) (c : Nat) (phase : GetPhase) : SubscriptionQueue :=
  { s with calls := s.calls.modify c fun _ => phase }

/-- `failure_signal.done()`. -/
def isDone (s : SubscriptionQueue) (signal : Nat) : Bool := s.signals[signal]?.getD false

/-- `get_message` up to its first `await`. -/
def enter (s : SubscriptionQueue) : GetPhase :=
  if s.detached then .raised none
  else if s.signals.isEmpty then .direct
  else if s.isDone (s.signals.length - 1) then .raised none
  else .waiting (s.signals.length - 1) none

/-- The check after the message is there. -/
def afterMessage (s : SubscriptionQueue) (message : Message) : GetPhase :=
  if s.detached then .raised (some message) else .notifying message

/-- `_queue.get()` of a call takes the first message. -/
def take (s : SubscriptionQueue) (c : Nat) (phase : GetPhase) : Option SubscriptionQueue :=
  match s.queue, phase with
  | message :: rest, .direct => some ({ s with queue := rest }.setPhase c (s.afterMessage message))
  | message :: rest, .waiting signal none =>
      some ({ s with queue := rest }.setPhase c (.waiting signal (some message)))
  | _, _ => none

/-- `asyncio.wait` returns: the failure comes first. -/
def wake (s : SubscriptionQueue) (c : Nat) (phase : GetPhase) : Option SubscriptionQueue :=
  match phase with
  | .waiting signal task =>
      if s.isDone signal then some (s.setPhase c (.gathering task true))
      else task.map fun message => s.setPhase c (.gathering (some message) false)
  | _ => none

/-- The `gather` of the `finally` returns. -/
def gathered (s : SubscriptionQueue) (c : Nat) (phase : GetPhase) : Option SubscriptionQueue :=
  match phase with
  | .gathering task true => some (s.setPhase c (.raised task))
  | .gathering (some message) false => some (s.setPhase c (s.afterMessage message))
  | _ => none

/-- `_notify_capacity_available` returns, or raises. -/
def notified (s : SubscriptionQueue) (c : Nat) (phase : GetPhase) (ok : Bool) :
    Option SubscriptionQueue :=
  match phase with
  | .notifying message =>
      some (s.setPhase c (if ok then .returned message else .raised (some message)))
  | _ => none

/-- The calling task is cancelled at its `await`; the `finally` cancels `message_task` if
that is not done. -/
def cancel (s : SubscriptionQueue) (c : Nat) (phase : GetPhase) : Option SubscriptionQueue :=
  match phase with
  | .direct => some (s.setPhase c (.raised none))
  | .waiting _ task => some (s.setPhase c (.gathering task true))
  | .gathering task _ => some (s.setPhase c (.raised task))
  | .notifying message => some (s.setPhase c (.raised (some message)))
  | _ => none

inductive Action
  | connect
  | fail
  | detach
  | deliver (message : Message)
  | getMessage
  | take (c : Nat)
  | wake (c : Nat)
  | gathered (c : Nat)
  | notified (c : Nat) (ok : Bool)
  | cancel (c : Nat)

def step (s : SubscriptionQueue) : Action → Option SubscriptionQueue
  | .connect => some { s with signals := s.signals ++ [false] }
  | .fail => some { s with signals := s.signals.set (s.signals.length - 1) true }
  | .detach => some { s with detached := true, queue := [] }
  | .deliver message =>
      if s.detached then none
      else some { s with queue := s.queue ++ [message], put := s.put ++ [message] }
  | .getMessage => some { s with calls := s.calls ++ [s.enter] }
  | .take c => s.calls[c]?.bind (s.take c)
  | .wake c => s.calls[c]?.bind (s.wake c)
  | .gathered c => s.calls[c]?.bind (s.gathered c)
  | .notified c ok => s.calls[c]?.bind fun phase => s.notified c phase ok
  | .cancel c => s.calls[c]?.bind (s.cancel c)

/-- What must not happen while a message has been taken and not returned: the caller is
cancelled, the run loop fails before `asyncio.wait` returns, the drain raises.  Nor may
`message_task` take a message once the signal is set.  The subscription is not detached. -/
def undisturbed (s : SubscriptionQueue) : Action → Bool
  | .detach => false
  | .fail => s.calls.all fun phase =>
      !(phase.hasTaken && decide (phase.signal? = some (s.signals.length - 1)))
  | .take c => !(s.calls[c]?.bind GetPhase.signal?).elim false s.isDone
  | .notified _ ok => ok
  | .cancel c => !s.calls[c]?.elim false GetPhase.hasTaken
  | _ => true

/-- What is wrong in no phase of an undisturbed run. -/
def Fine (s : SubscriptionQueue) : GetPhase → Prop
  | .waiting signal task =>
      signal < s.signals.length ∧ (task.isSome → s.isDone signal = false)
  | .gathering task failed => failed = task.isNone
  | .raised taken => taken = none
  | _ => True

/-- What was put in the queue is there or was taken by a call, and no call that raised
had taken a message. -/
structure NothingLost (s : SubscriptionQueue) : Prop where
  taken : s.put.Perm (s.queue ++ s.calls.flatMap GetPhase.taken)
  raised : ∀ taken, .raised taken ∈ s.calls → taken = none

/-- What holds between two steps of an undisturbed run. -/
structure Sound (s : SubscriptionQueue) : Prop where
  taken : s.put.Perm (s.queue ++ s.calls.flatMap GetPhase.taken)
  fine : ∀ phase ∈ s.calls, s.Fine phase
  attached : s.detached = false

variable {s next : SubscriptionQueue} {c : Nat} {phase : GetPhase} {message : Message}

theorem mem_setPhase {phase' other : GetPhase} (h : other ∈ (s.setPhase c phase').calls) :
    other = phase' ∨ other ∈ s.calls := by
  obtain ⟨j, hj⟩ := List.getElem?_of_mem h
  unfold setPhase at hj
  rw [List.getElem?_modify] at hj
  obtain ⟨old, hold, rfl⟩ := Option.map_eq_some_iff.mp hj
  split
  · exact .inl rfl
  · exact .inr (List.mem_of_getElem? hold)

namespace Sound

/-- A call moves and keeps what it has taken. -/
theorem setPhase (h : Sound s) (hc : s.calls[c]? = some phase) {phase' : GetPhase}
    (htaken : phase'.taken = phase.taken) (hfine : s.Fine phase') :
    Sound (s.setPhase c phase') where
  taken := by
    have hsame : (s.setPhase c phase').calls.flatMap GetPhase.taken =
        s.calls.flatMap GetPhase.taken :=
      TaskList.flatMap_modify_same hc htaken
    show s.put.Perm (s.queue ++ (s.setPhase c phase').calls.flatMap GetPhase.taken)
    rw [hsame]
    exact h.taken
  fine other hother := by
    rcases mem_setPhase hother with rfl | hold
    · exact hfine
    · exact h.fine other hold
  attached := h.attached

/-- A call takes the first message. -/
theorem take (h : Sound s) (hc : s.calls[c]? = some phase) {rest : List Message}
    (hqueue : s.queue = message :: rest) {phase' : GetPhase} (hbefore : phase.taken = [])
    (htaken : phase'.taken = [message]) (hfine : s.Fine phase') :
    Sound (SubscriptionQueue.setPhase { s with queue := rest } c phase') where
  taken := by
    have hexchange := TaskList.perm_flatMap_exchange (f := fun _ => phase') (g := GetPhase.taken) hc
    rw [hbefore, htaken, List.nil_append] at hexchange
    show s.put.Perm (rest ++ (s.calls.modify c fun _ => phase').flatMap GetPhase.taken)
    calc s.put
        _ |>.Perm (s.queue ++ s.calls.flatMap GetPhase.taken) := h.taken
        _ |>.Perm (rest ++ ([message] ++ s.calls.flatMap GetPhase.taken)) := by
          rw [hqueue]
          exact List.perm_middle.symm
        _ |>.Perm (rest ++ (s.calls.modify c fun _ => phase').flatMap GetPhase.taken) :=
          hexchange.append_left rest
  fine other hother := by
    rcases mem_setPhase hother with rfl | hold
    · exact hfine
    · exact h.fine other hold
  attached := h.attached

/-- The signals change, and no signal that is waited for with a message gets done. -/
theorem setSignals (h : Sound s) {signals : List Bool}
    (hlength : s.signals.length ≤ signals.length)
    (hdone : ∀ signal task, .waiting signal task ∈ s.calls → task.isSome →
      signals[signal]? = s.signals[signal]?) : Sound { s with signals } where
  taken := h.taken
  fine phase hphase := by
    have hold := h.fine phase hphase
    cases phase with
    | waiting signal task =>
        refine ⟨Nat.lt_of_lt_of_le hold.1 hlength, fun htask => ?_⟩
        have hsame := hdone signal task hphase htask
        have hnotdone := hold.2 htask
        unfold isDone at hnotdone ⊢
        rwa [hsame]
    | _ => exact hold
  attached := h.attached

theorem connect (h : Sound s) : Sound { s with signals := s.signals ++ [false] } := by
  refine h.setSignals (by simp) fun signal task hphase _ => ?_
  exact List.getElem?_append_left (h.fine _ hphase).1

theorem fail (h : Sound s) (hok : s.undisturbed .fail = true) :
    Sound { s with signals := s.signals.set (s.signals.length - 1) true } := by
  refine h.setSignals (by simp) fun signal task hphase htask => ?_
  have hwaits := List.all_eq_true.mp hok _ hphase
  have hother : s.signals.length - 1 ≠ signal := by
    intro heq
    simp [GetPhase.hasTaken, GetPhase.signal?, htask, heq] at hwaits
  exact List.getElem?_set_ne hother

theorem deliver (h : Sound s) (message : Message) :
    Sound { s with queue := s.queue ++ [message], put := s.put ++ [message] } where
  taken := by
    show (s.put ++ [message]).Perm (s.queue ++ [message] ++ s.calls.flatMap GetPhase.taken)
    calc s.put ++ [message]
        _ |>.Perm (s.queue ++ s.calls.flatMap GetPhase.taken ++ [message]) :=
          h.taken.append_right [message]
        _ |>.Perm (s.queue ++ [message] ++ s.calls.flatMap GetPhase.taken) := by
          rw [List.append_assoc, List.append_assoc]
          exact List.perm_append_comm.append_left s.queue
  fine := h.fine
  attached := h.attached

theorem fine_enter (h : Sound s) : s.Fine s.enter ∧ s.enter.taken = [] := by
  unfold enter
  rw [if_neg (by simp [h.attached])]
  split
  · exact ⟨trivial, rfl⟩
  · rename_i hsignals
    have hpositive : 0 < s.signals.length := by
      apply List.length_pos_iff.mpr
      simpa using hsignals
    split
    · exact ⟨rfl, rfl⟩
    · exact ⟨⟨by omega, fun htask => by cases htask⟩, rfl⟩

theorem getMessage (h : Sound s) : Sound { s with calls := s.calls ++ [s.enter] } where
  taken := by
    show s.put.Perm (s.queue ++ (s.calls ++ [s.enter]).flatMap GetPhase.taken)
    rw [List.flatMap_append, List.flatMap_singleton, h.fine_enter.2, List.append_nil]
    exact h.taken
  fine phase hphase := by
    rcases List.mem_append.mp hphase with hold | hnew
    · exact h.fine phase hold
    · rw [List.mem_singleton.mp hnew]
      exact h.fine_enter.1
  attached := h.attached

theorem afterMessage_eq (h : Sound s) (message : Message) :
    s.afterMessage message = .notifying message := by
  unfold afterMessage
  rw [if_neg (by simp [h.attached])]

theorem step_take (h : Sound s) (hok : s.undisturbed (.take c) = true)
    (hc : s.calls[c]? = some phase) (htake : s.take c phase = some next) : Sound next := by
  unfold SubscriptionQueue.take at htake
  split at htake
  · rename_i message rest hqueue
    cases htake
    rw [h.afterMessage_eq]
    exact h.take hc hqueue rfl rfl trivial
  · rename_i message rest signal hqueue
    cases htake
    have hnotdone : s.isDone signal = false := by
      simpa [undisturbed, hc, GetPhase.signal?] using hok
    have hold := h.fine _ (List.mem_of_getElem? hc)
    exact h.take hc hqueue rfl rfl ⟨hold.1, fun _ => hnotdone⟩
  · cases htake

theorem step_wake (h : Sound s) (hc : s.calls[c]? = some phase)
    (hwake : s.wake c phase = some next) : Sound next := by
  unfold SubscriptionQueue.wake at hwake
  split at hwake
  · rename_i signal task
    have hold := h.fine _ (List.mem_of_getElem? hc)
    split at hwake
    · rename_i hdone
      cases hwake
      have hnone : task = none := by
        cases task with
        | none => rfl
        | some message =>
            rw [hold.2 rfl] at hdone
            cases hdone
      subst hnone
      exact h.setPhase hc rfl rfl
    · obtain ⟨message, rfl, rfl⟩ := Option.map_eq_some_iff.mp hwake
      exact h.setPhase hc rfl rfl
  · cases hwake

theorem step_gathered (h : Sound s) (hc : s.calls[c]? = some phase)
    (hgathered : s.gathered c phase = some next) : Sound next := by
  have hold := h.fine _ (List.mem_of_getElem? hc)
  unfold SubscriptionQueue.gathered at hgathered
  split at hgathered
  · rename_i task
    cases hgathered
    obtain rfl : task = none := by simpa using hold.symm
    exact h.setPhase hc rfl rfl
  · cases hgathered
    rw [h.afterMessage_eq]
    exact h.setPhase hc rfl trivial
  · cases hgathered

theorem step_notified (h : Sound s) (hc : s.calls[c]? = some phase)
    (hnotified : s.notified c phase true = some next) : Sound next := by
  unfold SubscriptionQueue.notified at hnotified
  split at hnotified
  · cases hnotified
    exact h.setPhase hc rfl trivial
  · cases hnotified

/-- A call that has taken nothing is cancelled. -/
theorem step_cancel (h : Sound s) (hc : s.calls[c]? = some phase)
    (htaken : phase.hasTaken = false) (hcancel : s.cancel c phase = some next) : Sound next := by
  unfold SubscriptionQueue.cancel at hcancel
  split at hcancel
  · cases hcancel
    exact h.setPhase hc rfl rfl
  · rename_i signal task
    cases hcancel
    obtain rfl : task = none := by simpa [GetPhase.hasTaken] using htaken
    exact h.setPhase hc rfl rfl
  · rename_i task failed
    cases hcancel
    obtain rfl : task = none := by simpa [GetPhase.hasTaken] using htaken
    exact h.setPhase hc rfl rfl
  · cases htaken
  · cases hcancel

/-- **Step lemma.** -/
theorem step (h : Sound s) {a : Action} (hok : s.undisturbed a = true)
    (hstep : s.step a = some next) : Sound next := by
  cases a with
  | connect =>
      cases hstep
      exact h.connect
  | fail =>
      cases hstep
      exact h.fail hok
  | detach => cases hok
  | deliver message =>
      obtain ⟨-, hput⟩ := Option.ite_none_left_eq_some.mp hstep
      cases hput
      exact h.deliver message
  | getMessage =>
      cases hstep
      exact h.getMessage
  | take c =>
      obtain ⟨phase, hc, htake⟩ := Option.bind_eq_some_iff.mp hstep
      exact h.step_take hok hc htake
  | wake c =>
      obtain ⟨phase, hc, hwake⟩ := Option.bind_eq_some_iff.mp hstep
      exact h.step_wake hc hwake
  | gathered c =>
      obtain ⟨phase, hc, hgathered⟩ := Option.bind_eq_some_iff.mp hstep
      exact h.step_gathered hc hgathered
  | notified c ok =>
      obtain ⟨phase, hc, hnotified⟩ := Option.bind_eq_some_iff.mp hstep
      obtain rfl : ok = true := hok
      exact h.step_notified hc hnotified
  | cancel c =>
      obtain ⟨phase, hc, hcancel⟩ := Option.bind_eq_some_iff.mp hstep
      exact h.step_cancel hc (by simpa [undisturbed, hc] using hok) hcancel

theorem nothingLost (h : Sound s) : NothingLost s where
  taken := h.taken
  raised _ htaken := h.fine _ htaken

end Sound

/-! ## Every message is returned -/

/-- Some undisturbed steps lead to the return of the message. -/
def CanReturn (c : Nat) (message : Message) (s : SubscriptionQueue) : Prop :=
  ∃ more u, Transition.run step s more = some u ∧
    Transition.Along step (fun s a => s.undisturbed a = true) s more ∧
    u.calls[c]? = some (.returned message)

theorem CanReturn.cons {a : Action} (hstep : s.step a = some next) (hok : s.undisturbed a = true)
    (h : CanReturn c message next) : CanReturn c message s := by
  obtain ⟨more, u, hrun, halong, hreturned⟩ := h
  refine ⟨a :: more, u, ?_, ⟨hok, ?_⟩, hreturned⟩
  · rw [Transition.run, hstep]
    exact hrun
  · rw [hstep]
    exact halong

theorem getElem?_setPhase (hc : s.calls[c]? = some phase) (phase' : GetPhase) :
    (s.setPhase c phase').calls[c]? = some phase' := by
  unfold setPhase
  rw [List.getElem?_modify_eq, hc]
  rfl

theorem canReturn_notifying (hc : s.calls[c]? = some (.notifying message)) :
    CanReturn c message s := by
  have hstep : s.step (.notified c true) = some (s.setPhase c (.returned message)) := by
    show s.calls[c]?.bind _ = _
    rw [hc]
    rfl
  exact .cons hstep rfl ⟨[], _, rfl, trivial, getElem?_setPhase hc _⟩

theorem canReturn_gathering (h : Sound s)
    (hc : s.calls[c]? = some (.gathering (some message) false)) : CanReturn c message s := by
  have hstep : s.step (.gathered c) = some (s.setPhase c (.notifying message)) := by
    show s.calls[c]?.bind _ = _
    rw [hc, ← h.afterMessage_eq]
    rfl
  exact .cons hstep rfl (canReturn_notifying (getElem?_setPhase hc _))

/-- A call that has taken a message can return it. -/
theorem Sound.canReturn (h : Sound s) (hc : s.calls[c]? = some phase)
    (htaken : phase.hasTaken = true) (hmessage : message ∈ phase.taken) :
    CanReturn c message s := by
  have hold := h.fine _ (List.mem_of_getElem? hc)
  cases phase with
  | waiting signal task =>
      obtain rfl : task = some message := by simpa [GetPhase.taken] using hmessage
      have hstep : s.step (.wake c) = some (s.setPhase c (.gathering (some message) false)) := by
        show s.calls[c]?.bind _ = _
        rw [hc, Option.bind_some]
        unfold wake
        simp [hold.2 rfl]
      exact .cons hstep rfl (canReturn_gathering (h.step rfl hstep) (getElem?_setPhase hc _))
  | gathering task failed =>
      obtain rfl : task = some message := by simpa [GetPhase.taken] using hmessage
      obtain rfl : failed = false := hold
      exact canReturn_gathering h hc
  | notifying other =>
      obtain rfl : message = other := by simpa [GetPhase.taken] using hmessage
      exact canReturn_notifying hc
  | direct => cases htaken
  | returned other => cases htaken
  | raised taken => cases htaken

/-- **`get_message()` loses nothing in an undisturbed run**: every message that was put in
the queue is there or was taken by a call; no call that raised had taken one; and a call
that has taken one and not returned it can return it. -/
theorem get_message_loses_nothing (actions : List Action) (s : SubscriptionQueue)
    (hrun : Transition.run step {} actions = some s)
    (halong : Transition.Along step (fun s a => s.undisturbed a = true) {} actions) :
    NothingLost s ∧ ∀ (c : Nat) (phase : GetPhase) (message : Message), s.calls[c]? = some phase →
      phase.hasTaken = true → message ∈ phase.taken → CanReturn c message s := by
  have hstart : Sound {} := ⟨.refl _, fun phase hphase => absurd hphase List.not_mem_nil, rfl⟩
  have hsound : Sound s :=
    Transition.invariant_along (fun _ _ _ h hok hstep => h.step hok hstep) hstart halong hrun
  exact ⟨hsound.nothingLost, fun c phase message hc htaken hmessage =>
    hsound.canReturn hc htaken hmessage⟩

/-- A message on the topic `t`. -/
def news : Message :=
  { seq := 0, topic := str "t", payload := [1], qos := .atMostOnce, retain := false,
    properties := none }

/-- One call waits and is cancelled, the next one gets the message. -/
def pollRun : List Action :=
  [.connect, .getMessage, .cancel 0, .gathered 0, .deliver news, .getMessage, .take 1, .wake 1,
   .gathered 1, .notified 1 true]

theorem get_message_after_cancel :
    ∃ s, Transition.run step {} pollRun = some s ∧
      s.calls = [.raised none, .returned news] ∧ s.queue = [] ∧ NothingLost s :=
  ⟨_, rfl, rfl, rfl, (get_message_loses_nothing pollRun _ rfl (by decide)).1⟩

/-- The caller is cancelled when `message_task` has taken the message and `asyncio.wait`
has not returned: the call raises, and the message is neither in the queue nor returned. -/
theorem cancelled_get_message_loses :
    ∃ s, Transition.run step {} [.connect, .getMessage, .deliver news, .take 0, .cancel 0,
        .gathered 0] = some s ∧
      s.put = [news] ∧ s.queue = [] ∧ s.calls = [.raised (some news)] ∧ ¬ NothingLost s := by
  refine ⟨_, rfl, rfl, rfl, rfl, fun h => ?_⟩
  have hnone := h.raised (some news) List.mem_cons_self
  cases hnone

end SubscriptionQueue

end Zmqtt
