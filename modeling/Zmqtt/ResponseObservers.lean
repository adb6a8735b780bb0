import Zmqtt.RequestAccounts

/-!
# The response observers of a connection

The dispatcher counts the interest in a response topic; the set of response observers is
kept by the protocol, behind the subscription guard of the topic.  A task of
`add_response_observer` and a call of `remove_response_observer` first come to the lock
of the guard, where they queue with each other and with the `subscribe` and `unsubscribe`
calls of the application.  `asyncio.Lock` is fair: the first of a topic has the lock.

The run is on one live connection.  There is no `bind`, no `restore` and no
`cancel_pending`, and a task fails only for a reason of the client's own (no packet id).
Whether the application owns the topic decides only if there is a round trip to the
broker, so it is left out: a task ends some time after it has entered the guard.
-/

namespace Zmqtt

/-- Who comes to a subscription guard. -/
inductive GuardUser
  | adding (t : Nat)
  | removing (c : Nat)
  | application
deriving DecidableEq, Repr

def GuardUser.isAdding : GuardUser → Bool
  | .adding _ => true
  | _ => false

def GuardUser.isRemoving : GuardUser → Bool
  | .removing _ => true
  | _ => false

/-- A place in the queue of the lock of a topic.  `entered` tells that the response
observer has been added or removed. -/
structure GuardTicket where
  topic : Str
  user : GuardUser
  entered : Bool := false
deriving DecidableEq, Repr

/-- The dispatcher, the set of response observers and the queues of the guards. -/
structure ObserverRun where
  dispatcher : RequestDispatcher
  observers : List Str := []
  tickets : List GuardTicket := []

namespace ObserverRun

open RequestDispatcher

/-- The ticket that has the lock of a topic. -/
def first (s : ObserverRun) (topic : Str) : Option GuardTicket :=
  s.tickets.find? fun ticket => decide (ticket.topic = topic)

def enterGuard (s : ObserverRun) (user : GuardUser) : ObserverRun :=
  { s with tickets := s.tickets.map fun ticket =>
      if ticket.user = user then { ticket with entered := true } else ticket }

def leaveGuard (s : ObserverRun) (user : GuardUser) : ObserverRun :=
  { s with tickets := s.tickets.filter fun ticket => decide (ticket.user ≠ user) }

/-- A task of `add_response_observer` ends. -/
def taskDone (s : ObserverRun) (t : Nat) (ok : Bool) : ObserverRun :=
  { s with dispatcher := s.dispatcher.taskDone t ok }

/-- `has_response_observer` of the subscription index. -/
def hasResponseObserver (s : ObserverRun) (topic : Str) : Bool :=
  s.observers.any fun observer => decide (observer = topic)

/-- The task comes to the guard. -/
def startTask (s : ObserverRun) (t : Nat) : Option ObserverRun :=
  s.dispatcher.readyTasks[t]?.bind fun task =>
    if task.outcome = none ∧ ∀ ticket ∈ s.tickets, ticket.user ≠ .adding t then
      some { s with tickets := s.tickets ++ [{ topic := task.topic, user := .adding t }] }
    else none

/-- `_add_response_observer` up to its end or its SUBSCRIBE. -/
def enterAdd (s : ObserverRun) (t : Nat) : Option ObserverRun :=
  s.dispatcher.readyTasks[t]?.bind fun task =>
    if s.first task.topic = some { topic := task.topic, user := .adding t } then
      if s.hasResponseObserver task.topic then some ((s.taskDone t true).leaveGuard (.adding t))
      else some ({ s with observers := task.topic :: s.observers }.enterGuard (.adding t))
    else none

/-- The end of `_add_response_observer`; where it raises, its `finally` removes the
observer. -/
def endTask (s : ObserverRun) (t : Nat) (ok : Bool) : Option ObserverRun :=
  s.dispatcher.readyTasks[t]?.bind fun task =>
    if { topic := task.topic, user := .adding t, entered := true } ∈ s.tickets then
      let s := (s.taskDone t ok).leaveGuard (.adding t)
      some (if ok then s else { s with observers := s.observers.erase task.topic })
    else none

/-- `_remove_response_observer` up to its end or its UNSUBSCRIBE. -/
def enterRemove (s : ObserverRun) (c : Nat) : Option ObserverRun :=
  s.dispatcher.calls[c]?.bind fun call =>
    if s.first call.key.1 = some { topic := call.key.1, user := .removing c } then
      some ({ s with observers := s.observers.erase call.key.1 }.enterGuard (.removing c))
    else none

/-- The call has removed its observer. -/
def hasEntered (s : ObserverRun) (c : Nat) : Bool :=
  s.tickets.any fun ticket => decide (ticket.user = .removing c) && ticket.entered

/-- The queues after a step of the dispatcher: a call that starts to remove its observer
comes to the guard, and one that has ended leaves it. -/
def ticketsAfter (s : ObserverRun) (c : Nat) (call : RequestCall) : List GuardTicket :=
  match call.phase with
  | .removing _ => s.tickets ++ [{ topic := call.key.1, user := .removing c }]
  | _ => s.tickets.filter fun ticket => decide (ticket.user ≠ .removing c)

/-- The steps of the dispatcher on one live connection.  `remove_response_observer`
returns only after it has entered the guard. -/
def allowed (s : ObserverRun) : RequestDispatcher.Action → Bool
  | .bind _ => false
  | .restore _ _ => false
  | .cancelPending => false
  | .readyDone _ _ => false
  | .resume c true =>
      s.dispatcher.calls[c]?.elim false fun call =>
        !call.phase.isRemoving || s.hasEntered c
  | _ => true

def dispatch (s : ObserverRun) (a : RequestDispatcher.Action) : Option ObserverRun :=
  if s.allowed a then
    (s.dispatcher.step a).map fun dispatcher =>
      { s with
        dispatcher
        tickets :=
          (a.call?.bind fun c => dispatcher.calls[c]?.map (s.ticketsAfter c)).getD s.tickets }
  else none

inductive Action
  | dispatch (action : RequestDispatcher.Action)
  | startTask (t : Nat)
  | enterAdd (t : Nat)
  | endTask (t : Nat) (ok : Bool)
  | enterRemove (c : Nat)
  | application (topic : Str)
  | leave (j : Nat)

def step (s : ObserverRun) : Action → Option ObserverRun
  | .dispatch action => s.dispatch action
  | .startTask t => s.startTask t
  | .enterAdd t => s.enterAdd t
  | .endTask t ok => s.endTask t ok
  | .enterRemove c => s.enterRemove c
  | .application topic =>
      some { s with tickets := s.tickets ++ [{ topic, user := .application }] }
  | .leave j =>
      s.tickets[j]?.bind fun ticket =>
        if ticket.user = .application then some { s with tickets := s.tickets.eraseIdx j }
        else none

/-- A new connection, without requests. -/
def start (maxPendingRequests : Nat) : ObserverRun :=
  { dispatcher := (RequestDispatcher.start maxPendingRequests).bind 0 }

/-- A call is not cancelled in its clean-up where that gives the observer away: at the wait
for a task that has not failed, as the one that gives the topic up, or in the queue of
the guard. -/
def undisturbed (s : ObserverRun) : Action → Bool
  | .dispatch (.resume c false) =>
      s.dispatcher.calls[c]?.elim true fun call =>
        match call.phase with
        | .settling i ready _ => s.dispatcher.maySettle call.key i ready
        | .removing _ => s.hasEntered c
        | _ => true
  | _ => true

/-- The observers are those the requests need. -/
structure Released (s : ObserverRun) : Prop where
  idle : (∀ call ∈ s.dispatcher.calls, isFinished call.phase = true) → s.observers = []
  waiting : ∀ (c : Nat) (call : RequestCall) r, s.dispatcher.calls[c]? = some call →
    call.phase = .registered r → call.key.1 ∈ s.observers


/-! ## The queues -/

/-- A ticket before another one.  Only the first of a topic has entered, and an observer
is not removed behind a task that adds it. -/
structure Before (a b : GuardTicket) : Prop where
  distinct : a.user = b.user → a.user = .application
  front : a.topic = b.topic → b.entered = false
  order : a.topic = b.topic → a.user.isAdding = true → b.user.isRemoving = false

/-- The tickets are those of the tasks and calls that have come to the guards.  Where the
task of a topic has ended, only the application is left. -/
structure Queues (s : ObserverRun) : Prop where
  adding : ∀ ticket ∈ s.tickets, ∀ t, ticket.user = .adding t →
    ∃ task, s.dispatcher.readyTasks[t]? = some task ∧ task.topic = ticket.topic ∧
      task.outcome = none
  removing : ∀ ticket ∈ s.tickets, ∀ c, ticket.user = .removing c →
    ∃ call, s.dispatcher.calls[c]? = some call ∧ call.key.1 = ticket.topic ∧
      call.phase.isRemoving = true
  before : s.tickets.Pairwise Before
  settled : ∀ topic t, s.dispatcher.readyOf topic = some t → s.dispatcher.outcome t ≠ none →
    ∀ ticket ∈ s.tickets, ticket.topic = topic → ticket.user = .application

/-- Why a topic has an observer: its task has succeeded, or is at it, or a call is going to
remove it. -/
def Explained (s : ObserverRun) (topic : Str) : Prop :=
  (∃ t, s.dispatcher.readyOf topic = some t ∧ s.dispatcher.outcome t = some true) ∨
    ∃ ticket ∈ s.tickets, ticket.topic = topic ∧
      ((ticket.user.isAdding = true ∧ ticket.entered = true) ∨
        (ticket.user.isRemoving = true ∧ ticket.entered = false))

structure Observes (s : ObserverRun) : Prop where
  nodup : s.observers.Nodup
  added : ∀ ticket ∈ s.tickets, ticket.user.isAdding = true → ticket.entered = true →
    ticket.topic ∈ s.observers
  observed : ∀ topic t, s.dispatcher.readyOf topic = some t →
    s.dispatcher.outcome t = some true → topic ∈ s.observers
  explained : ∀ topic ∈ s.observers, s.Explained topic

structure Sound (maxPendingRequests : Nat) (s : ObserverRun) : Prop where
  balanced : Balanced maxPendingRequests s.dispatcher
  accounts : Accounted s.dispatcher
  queues : Queues s
  observes : Observes s

variable {s next : ObserverRun} {maxPendingRequests : Nat}

theorem hasResponseObserver_iff {topic : Str} :
    s.hasResponseObserver topic = true ↔ topic ∈ s.observers := by
  unfold hasResponseObserver
  simp

theorem isAdding_iff {user : GuardUser} : user.isAdding = true ↔ ∃ t, user = .adding t := by
  cases user with
  | adding t => simp [GuardUser.isAdding]
  | _ => simp [GuardUser.isAdding]

theorem isRemoving_iff {user : GuardUser} : user.isRemoving = true ↔ ∃ c, user = .removing c := by
  cases user with
  | removing c => simp [GuardUser.isRemoving]
  | _ => simp [GuardUser.isRemoving]

/-- A task that is in a queue is that of the topic. -/
theorem Queues.ready_of_adding (h : Queues s) (haccounts : Accounted s.dispatcher)
    {ticket : GuardTicket} {t : Nat} (hmem : ticket ∈ s.tickets) (huser : ticket.user = .adding t) :
    s.dispatcher.readyOf ticket.topic = some t ∧ s.dispatcher.outcome t = none := by
  obtain ⟨task, htask, htopic, hnone⟩ := h.adding ticket hmem t huser
  refine ⟨htopic ▸ haccounts.running t task htask hnone, ?_⟩
  unfold outcome
  rw [htask]
  exact hnone

/-! ## The steps of the calls -/

/-- A call starts to remove its observer: it gives its topic up, whose task has succeeded. -/
theorem removing_of_move {d d' : RequestDispatcher} {call : RequestCall}
    {error : Option RequestError} (h : Move d d' call (.removing error)) :
    call.phase.isRemoving = false ∧
      (∃ t, d.readyOf call.key.1 = some t ∧ d.outcome t = some true) ∧
      d'.readyOf call.key.1 = none := by
  have hleaves : Leaving d d' call (.removing error) →
      (∃ t, d.readyOf call.key.1 = some t ∧ d.outcome t = some true) ∧
        d'.readyOf call.key.1 = none := by
    intro hleaving
    cases hleaving with
    | kept hphase _ => cases hphase
    | dropped hphase _ hgone =>
        rcases hphase with ⟨hphase, -⟩ | ⟨-, htrue⟩
        · cases hphase
        · refine ⟨htrue, ?_⟩
          unfold readyOf
          rw [hgone]
          rfl
  cases h with
  | finished hphase _ _ _ _ => cases hphase
  | joined hphase _ _ _ _ =>
      rcases hphase with ⟨hphase, -⟩ | ⟨hphase, -⟩
      · cases hphase
      · cases hphase
  | left hown _ hleaving _ =>
      refine ⟨?_, hleaves hleaving⟩
      cases hphase : call.phase with
      | removing error =>
          rw [hphase] at hown
          cases hown
      | _ => rfl
  | settled _ hstays _ hleaving _ => exact ⟨hstays, hleaves hleaving⟩

/-- The ended task of a topic is that of the topic before. -/
theorem ready_before {d d' : RequestDispatcher} {c : Nat} {call : RequestCall}
    {phase : RequestPhase} (h : Moves c call d d' phase) {topic : Str} {t : Nat}
    (hready : d'.readyOf topic = some t) (hdone : d'.outcome t ≠ none) :
    d.readyOf topic = some t := by
  by_cases htopic : topic = call.key.1
  · subst htopic
    cases h.move.topicMove with
    | kept hkept _ => exact hkept.ready ▸ hready
    | fresh _ hfresh hnew _ =>
        rw [hfresh] at hready
        cases hready
        obtain ⟨protocol, hnew⟩ := hnew
        exact absurd (outcome_append d.readyTasks _ _ hnew) hdone
    | dropped _ _ hgone _ =>
        unfold readyOf at hready
        rw [hgone] at hready
        cases hready
  · exact (h.topics _ htopic).ready ▸ hready

/-- A topic whose task has succeeded keeps it, unless the call gives the topic up. -/
theorem ready_after {d d' : RequestDispatcher} {c : Nat} {call : RequestCall}
    {phase : RequestPhase} (h : Moves c call d d' phase) {topic : Str} {t : Nat}
    (hready : d.readyOf topic = some t) (htrue : d.outcome t = some true) :
    d'.readyOf topic = some t ∨ (topic = call.key.1 ∧ ∃ error, phase = .removing error) := by
  have hleaves : Leaving d d' call phase → d.readyOf call.key.1 = some t →
      d'.readyOf call.key.1 = some t ∨ ∃ error, phase = .removing error := by
    intro hleaving hready
    cases hleaving with
    | kept _ hkept => exact .inl (hkept.ready.trans hready)
    | settles _ hkept _ _ => exact .inl (hkept.ready.trans hready)
    | dropped hphase _ _ =>
        rcases hphase with ⟨-, hfalse⟩ | ⟨herror, -⟩
        · rw [hfalse t hready] at htrue
          cases htrue
        · exact .inr herror
  by_cases htopic : topic = call.key.1
  · subst htopic
    cases h.move with
    | finished _ _ _ hkept _ => exact .inl (hkept.ready.trans hready)
    | opened _ _ _ hkept _ => exact .inl (hkept.ready.trans hready)
    | left _ _ hleaving _ => exact (hleaves hleaving hready).imp_right fun herror => ⟨rfl, herror⟩
    | settled _ _ _ hleaving _ =>
        exact (hleaves hleaving hready).imp_right fun herror => ⟨rfl, herror⟩
    | joined _ _ _ hjoined htask =>
        rcases htask with ⟨hold, -, -⟩ | ⟨hnone, -⟩
        · rw [hold] at hready
          cases hready
          exact .inl hjoined
        · rw [hnone] at hready
          cases hready
  · exact .inl ((h.topics _ htopic).ready.trans hready)

/-- The tickets after a step of a call. -/
theorem mem_ticketsAfter {c : Nat} {call : RequestCall} {ticket : GuardTicket}
    (hmem : ticket ∈ s.ticketsAfter c call) :
    (ticket ∈ s.tickets ∧ (ticket.user = .removing c → call.phase.isRemoving = true)) ∨
      (call.phase.isRemoving = true ∧ ticket = { topic := call.key.1, user := .removing c }) := by
  unfold ticketsAfter at hmem
  split at hmem
  · rename_i error hphase
    have hremoving : call.phase.isRemoving = true := by
      rw [hphase]
      rfl
    rcases List.mem_append.mp hmem with hold | hnew
    · exact .inl ⟨hold, fun _ => hremoving⟩
    · exact .inr ⟨hremoving, List.mem_singleton.mp hnew⟩
  · obtain ⟨hold, hne⟩ := List.mem_filter.mp hmem
    exact .inl ⟨hold, fun huser => absurd huser (of_decide_eq_true hne)⟩

theorem mem_ticketsAfter_of_ne {c : Nat} {call : RequestCall} {ticket : GuardTicket}
    (hmem : ticket ∈ s.tickets) (hne : ticket.user ≠ .removing c) :
    ticket ∈ s.ticketsAfter c call := by
  unfold ticketsAfter
  split
  · exact List.mem_append_left _ hmem
  · exact List.mem_filter.mpr ⟨hmem, decide_eq_true hne⟩

section Moved

variable {d' : RequestDispatcher} {c : Nat} {call : RequestCall} {phase : RequestPhase}

/-- A call that starts to remove its observer has no ticket yet. -/
theorem Queues.no_ticket (h : Queues s) (hcall : s.dispatcher.calls[c]? = some call)
    (hstays : call.phase.isRemoving = false) {ticket : GuardTicket} (hmem : ticket ∈ s.tickets) :
    ticket.user ≠ .removing c := by
  intro huser
  obtain ⟨call', hcall', -, hremoving⟩ := h.removing ticket hmem c huser
  rw [hcall] at hcall'
  cases hcall'
  rw [hstays] at hremoving
  cases hremoving

theorem Queues.moved (h : Queues s) (hmoves : Moves c call s.dispatcher d' phase)
    (hcall : s.dispatcher.calls[c]? = some call) :
    Queues { s with dispatcher := d', tickets := s.ticketsAfter c { call with phase } } where
  adding ticket hmem t huser := by
    rcases mem_ticketsAfter hmem with ⟨hold, -⟩ | ⟨-, rfl⟩
    · obtain ⟨task, htask, hrest⟩ := h.adding ticket hold t huser
      exact ⟨task, hmoves.move.topicMove.getElem?_readyTasks htask, hrest⟩
    · cases huser
  removing ticket hmem c' huser := by
    have hself : d'.calls[c]? = some { call with phase } :=
      (hmoves.getElem?_calls hcall).mpr (.inl ⟨rfl, rfl⟩)
    rcases mem_ticketsAfter hmem with ⟨hold, hremoving⟩ | ⟨hremoving, rfl⟩
    · obtain ⟨call', hcall', htopic, hphase'⟩ := h.removing ticket hold c' huser
      by_cases hc : c' = c
      · subst hc
        rw [hcall] at hcall'
        cases hcall'
        exact ⟨_, hself, htopic, hremoving huser⟩
      · exact ⟨call', (hmoves.getElem?_calls hcall).mpr (.inr ⟨hc, hcall'⟩), htopic, hphase'⟩
    · cases huser
      exact ⟨_, hself, rfl, hremoving⟩
  before := by
    show (s.ticketsAfter c { call with phase }).Pairwise Before
    unfold ticketsAfter
    split
    · rename_i error hphase
      cases hphase
      obtain ⟨hstays, ⟨t, hready, htrue⟩, -⟩ := removing_of_move hmoves.move
      refine List.pairwise_append.mpr ⟨h.before, List.pairwise_singleton _ _, ?_⟩
      intro a ha b hb
      rw [List.mem_singleton.mp hb]
      refine ⟨fun huser => absurd huser (h.no_ticket hcall hstays ha), fun _ => rfl, ?_⟩
      intro htopic hadding
      have huser := h.settled _ t hready (by rw [htrue]; exact Option.some_ne_none _) a ha htopic
      rw [huser] at hadding
      cases hadding
    · exact h.before.sublist List.filter_sublist
  settled topic t hready hdone ticket hmem htopic := by
    have hold := ready_before hmoves hready hdone
    rw [hmoves.move.topicMove.outcome] at hdone
    rcases mem_ticketsAfter hmem with ⟨hmem, -⟩ | ⟨hremoving, rfl⟩
    · exact h.settled topic t hold hdone ticket hmem htopic
    · cases phase with
      | removing error =>
          have hgone := (removing_of_move hmoves.move).2.2
          have hnone : d'.readyOf topic = none := htopic ▸ hgone
          rw [show d'.readyOf topic = some t from hready] at hnone
          cases hnone
      | _ => cases hremoving

/-- A call that ends has removed its observer, if it was at it. -/
theorem Observes.moved (h : Observes s) (hmoves : Moves c call s.dispatcher d' phase)
    (hentered : ∀ ticket ∈ s.tickets, ticket.user = .removing c → ticket.entered = true) :
    Observes { s with dispatcher := d', tickets := s.ticketsAfter c { call with phase } } where
  nodup := h.nodup
  added ticket hmem hadding hticket := by
    rcases mem_ticketsAfter hmem with ⟨hold, -⟩ | ⟨-, rfl⟩
    · exact h.added ticket hold hadding hticket
    · cases hadding
  observed topic t hready htrue := by
    have hdone : d'.outcome t ≠ none := by
      rw [show d'.outcome t = some true from htrue]
      exact Option.some_ne_none _
    have hold := ready_before hmoves hready hdone
    exact h.observed topic t hold (hmoves.move.topicMove.outcome ▸ htrue)
  explained topic hmem := by
    rcases h.explained topic hmem with ⟨t, hready, htrue⟩ | ⟨ticket, hticket, htopic, hwhy⟩
    · rcases ready_after hmoves hready htrue with hnew | ⟨rfl, error, rfl⟩
      · exact .inl ⟨t, hnew, hmoves.move.topicMove.outcome ▸ htrue⟩
      · refine .inr ⟨{ topic := call.key.1, user := .removing c }, ?_, rfl, .inr ⟨rfl, rfl⟩⟩
        exact List.mem_append_right _ (List.mem_singleton_self _)
    · refine .inr ⟨ticket, mem_ticketsAfter_of_ne hticket fun huser => ?_, htopic, hwhy⟩
      rcases hwhy with ⟨hadding, -⟩ | ⟨-, hnot⟩
      · rw [huser] at hadding
        cases hadding
      · rw [hentered ticket hticket huser] at hnot
        cases hnot

end Moved

/-! ## The other steps of the dispatcher -/

theorem Queues.unmoved {d' : RequestDispatcher} (h : Queues s) (hsame : Unmoved s.dispatcher d') :
    Queues { s with dispatcher := d' } where
  adding ticket hmem t huser := by
    show ∃ task, d'.readyTasks[t]? = some task ∧ _
    rw [hsame.tasks]
    exact h.adding ticket hmem t huser
  removing ticket hmem c huser := by
    obtain ⟨call, hcall, hrest⟩ := h.removing ticket hmem c huser
    exact ⟨call, hsame.getElem?_calls hcall, hrest⟩
  before := h.before
  settled topic t hready hdone := by
    refine h.settled topic t (hsame.readyOf ▸ hready) ?_
    rw [← hsame.outcome]
    exact hdone

theorem Observes.unmoved {d' : RequestDispatcher} (h : Observes s)
    (hsame : Unmoved s.dispatcher d') : Observes { s with dispatcher := d' } where
  nodup := h.nodup
  added := h.added
  observed topic t hready htrue :=
    h.observed topic t (hsame.readyOf ▸ hready) (hsame.outcome ▸ htrue)
  explained topic hmem := by
    refine (h.explained topic hmem).imp_left fun hready => ?_
    show ∃ t, d'.readyOf topic = some t ∧ d'.outcome t = some true
    rwa [hsame.readyOf, hsame.outcome]

/-! ## Arrivals and departures -/

/-- A ticket that has not entered comes to the end of the queue. -/
theorem Queues.arrive (h : Queues s) {ticket : GuardTicket} (hentered : ticket.entered = false)
    (hkind : ticket.user.isRemoving = false)
    (hadding : ∀ t, ticket.user = .adding t →
      (∃ task, s.dispatcher.readyTasks[t]? = some task ∧ task.topic = ticket.topic ∧
        task.outcome = none) ∧
      s.dispatcher.readyOf ticket.topic = some t ∧ ∀ other ∈ s.tickets, other.user ≠ .adding t) :
    Queues { s with tickets := s.tickets ++ [ticket] } where
  adding other hmem t huser := by
    rcases List.mem_append.mp hmem with hold | hnew
    · exact h.adding other hold t huser
    · obtain rfl := List.mem_singleton.mp hnew
      exact (hadding t huser).1
  removing other hmem c huser := by
    rcases List.mem_append.mp hmem with hold | hnew
    · exact h.removing other hold c huser
    · obtain rfl := List.mem_singleton.mp hnew
      rw [huser] at hkind
      cases hkind
  before := by
    refine List.pairwise_append.mpr ⟨h.before, List.pairwise_singleton _ _, ?_⟩
    intro a ha b hb
    obtain rfl := List.mem_singleton.mp hb
    refine ⟨fun huser => ?_, fun _ => hentered, fun _ _ => hkind⟩
    cases hb : b.user with
    | adding t => exact absurd (huser.trans hb) ((hadding t hb).2.2 a ha)
    | removing c =>
        rw [hb] at hkind
        cases hkind
    | application => exact huser.trans hb
  settled topic t hready hdone other hmem htopic := by
    rcases List.mem_append.mp hmem with hold | hnew
    · exact h.settled topic t hready hdone other hold htopic
    · obtain rfl := List.mem_singleton.mp hnew
      cases huser : other.user with
      | adding t' =>
          obtain ⟨⟨task, htask, -, hnone⟩, hready', -⟩ := hadding t' huser
          rw [htopic, show s.dispatcher.readyOf topic = some t from hready] at hready'
          cases hready'
          refine absurd ?_ hdone
          show s.dispatcher.outcome t = none
          unfold outcome
          rw [htask]
          exact hnone
      | removing c =>
          rw [huser] at hkind
          cases hkind
      | application => rfl

theorem Observes.arrive (h : Observes s) {ticket : GuardTicket}
    (hentered : ticket.entered = false) : Observes { s with tickets := s.tickets ++ [ticket] } where
  nodup := h.nodup
  added other hmem hadding hother := by
    rcases List.mem_append.mp hmem with hold | hnew
    · exact h.added other hold hadding hother
    · obtain rfl := List.mem_singleton.mp hnew
      rw [hentered] at hother
      cases hother
  observed := h.observed
  explained topic hmem := by
    refine (h.explained topic hmem).imp_right ?_
    rintro ⟨other, hother, hrest⟩
    exact ⟨other, List.mem_append_left _ hother, hrest⟩

theorem Queues.sublist (h : Queues s) {tickets : List GuardTicket}
    (hsub : tickets.Sublist s.tickets) : Queues { s with tickets } where
  adding ticket hmem := h.adding ticket (hsub.subset hmem)
  removing ticket hmem := h.removing ticket (hsub.subset hmem)
  before := h.before.sublist hsub
  settled topic t hready hdone ticket hmem :=
    h.settled topic t hready hdone ticket (hsub.subset hmem)

/-- The application leaves a guard. -/
theorem Observes.leave (h : Observes s) {j : Nat} {ticket : GuardTicket}
    (hticket : s.tickets[j]? = some ticket) (huser : ticket.user = .application) :
    Observes { s with tickets := s.tickets.eraseIdx j } where
  nodup := h.nodup
  added other hmem := h.added other ((List.eraseIdx_sublist ..).subset hmem)
  observed := h.observed
  explained topic hmem := by
    refine (h.explained topic hmem).imp_right ?_
    rintro ⟨other, hother, htopic, hwhy⟩
    refine ⟨other, ?_, htopic, hwhy⟩
    obtain ⟨i, hi⟩ := List.getElem?_of_mem hother
    refine List.mem_eraseIdx_iff_getElem?.mpr ⟨i, ?_, hi⟩
    rintro rfl
    rw [hticket] at hi
    cases hi
    rw [huser] at hwhy
    rcases hwhy with ⟨hadding, -⟩ | ⟨hremoving, -⟩
    · cases hadding
    · cases hremoving

/-! ## The lock -/

/-- No ticket of the topic is before this one. -/
def Heads (s : ObserverRun) (ticket : GuardTicket) : Prop :=
  ∃ pre post, s.tickets = pre ++ ticket :: post ∧ ∀ a ∈ pre, a.topic ≠ ticket.topic

theorem heads_of_first {topic : Str} {ticket : GuardTicket} (h : s.first topic = some ticket)
    (htopic : ticket.topic = topic) : s.Heads ticket := by
  obtain ⟨-, pre, post, heq, hpre⟩ := List.find?_eq_some_iff_append.mp h
  refine ⟨pre, post, heq, fun a ha => ?_⟩
  rw [htopic]
  simpa using hpre a ha

theorem Queues.heads_of_entered (h : Queues s) {ticket : GuardTicket} (hmem : ticket ∈ s.tickets)
    (hentered : ticket.entered = true) : s.Heads ticket := by
  obtain ⟨pre, post, heq⟩ := List.append_of_mem hmem
  refine ⟨pre, post, heq, fun a ha htopic => ?_⟩
  have hbefore := h.before
  rw [heq] at hbefore
  have hnot := ((List.pairwise_append.mp hbefore).2.2 a ha ticket List.mem_cons_self).front htopic
  rw [hentered] at hnot
  cases hnot

/-- The others of the topic come behind the first. -/
theorem Queues.before_of_heads (h : Queues s) {ticket other : GuardTicket} (hheads : s.Heads ticket)
    (hmem : other ∈ s.tickets) (htopic : other.topic = ticket.topic) :
    other = ticket ∨ Before ticket other := by
  obtain ⟨pre, post, heq, hpre⟩ := hheads
  have hbefore := h.before
  rw [heq] at hmem hbefore
  rcases List.mem_append.mp hmem with hold | hrest
  · exact absurd htopic (hpre other hold)
  · rcases List.mem_cons.mp hrest with hself | hpost
    · exact .inl hself
    · exact .inr ((List.pairwise_cons.mp (List.pairwise_append.mp hbefore).2.1).1 other hpost)

theorem Heads.mem {ticket : GuardTicket} (h : s.Heads ticket) : ticket ∈ s.tickets := by
  obtain ⟨pre, post, heq, -⟩ := h
  rw [heq]
  exact List.mem_append_right _ List.mem_cons_self

/-- A ticket of the queue after one has entered. -/
theorem mem_enterGuard {user : GuardUser} {ticket : GuardTicket}
    (hmem : ticket ∈ (s.enterGuard user).tickets) :
    ∃ old ∈ s.tickets, old.topic = ticket.topic ∧ old.user = ticket.user ∧
      ((ticket.user = user ∧ ticket.entered = true) ∨ (ticket.user ≠ user ∧ ticket = old)) := by
  obtain ⟨old, hold, rfl⟩ := List.mem_map.mp hmem
  refine ⟨old, hold, ?_⟩
  split
  · rename_i huser
    exact ⟨rfl, rfl, .inl ⟨huser, rfl⟩⟩
  · rename_i huser
    exact ⟨rfl, rfl, .inr ⟨huser, rfl⟩⟩

/-- The first of its topic enters. -/
theorem Queues.enter (h : Queues s) {ticket : GuardTicket} (hheads : s.Heads ticket)
    (huser : ticket.user ≠ .application) : Queues (s.enterGuard ticket.user) where
  adding other hmem t hother := by
    obtain ⟨old, hold, htopic, heq, -⟩ := mem_enterGuard hmem
    rw [← htopic]
    exact h.adding old hold t (heq.trans hother)
  removing other hmem c hother := by
    obtain ⟨old, hold, htopic, heq, -⟩ := mem_enterGuard hmem
    rw [← htopic]
    exact h.removing old hold c (heq.trans hother)
  before := by
    obtain ⟨pre, post, heq, hpre⟩ := hheads
    have hbefore := h.before
    rw [heq] at hbefore
    obtain ⟨hfront, hback, hcross⟩ := List.pairwise_append.mp hbefore
    obtain ⟨hhead, hpost⟩ := List.pairwise_cons.mp hback
    -- the others have other users
    have hsame : ∀ l : List GuardTicket, (∀ a ∈ l, a.user ≠ ticket.user) →
        l.map (fun a => if a.user = ticket.user then { a with entered := true } else a) = l := by
      intro l hne
      rw [List.map_congr_left (g := id) fun a ha => by simp [hne a ha], List.map_id]
    have hpreUsers : ∀ a ∈ pre, a.user ≠ ticket.user := fun a ha hequal =>
      huser (hequal ▸ (hcross a ha ticket List.mem_cons_self).distinct hequal)
    have hpostUsers : ∀ a ∈ post, a.user ≠ ticket.user := fun a ha hequal =>
      huser ((hhead a ha).distinct hequal.symm)
    show (s.tickets.map _).Pairwise Before
    rw [heq, List.map_append, List.map_cons, hsame pre hpreUsers, hsame post hpostUsers, if_pos rfl]
    refine List.pairwise_append.mpr ⟨hfront, List.pairwise_cons.mpr ⟨?_, hpost⟩, ?_⟩
    · exact fun b hb => ⟨(hhead b hb).distinct, (hhead b hb).front, (hhead b hb).order⟩
    · intro a ha b hb
      rcases List.mem_cons.mp hb with rfl | hb
      · have hold := hcross a ha ticket List.mem_cons_self
        exact ⟨hold.distinct, fun htopic => absurd htopic (hpre a ha), hold.order⟩
      · exact hcross a ha b (List.mem_cons_of_mem _ hb)
  settled topic t hready hdone other hmem hother := by
    obtain ⟨old, hold, htopic, heq, -⟩ := mem_enterGuard hmem
    rw [← heq]
    exact h.settled topic t hready hdone old hold (htopic.trans hother)

/-- What explained a topic still does, unless the call that has entered was to remove its
observer. -/
theorem Explained.enter {user : GuardUser} {topic : Str} (h : s.Explained topic)
    (hremoving : ∀ ticket ∈ s.tickets, ticket.topic = topic → ticket.user = user →
      user.isRemoving = false) : (s.enterGuard user).Explained topic := by
  refine h.imp_right ?_
  rintro ⟨ticket, hmem, htopic, hwhy⟩
  refine ⟨_, List.mem_map.mpr ⟨ticket, hmem, rfl⟩, ?_⟩
  split
  · rename_i huser
    refine ⟨htopic, .inl ⟨?_, rfl⟩⟩
    rcases hwhy with ⟨hadding, -⟩ | ⟨hkind, -⟩
    · exact hadding
    · rw [huser, hremoving ticket hmem htopic huser] at hkind
      cases hkind
  · exact ⟨htopic, hwhy⟩

/-- The observer is removed. -/
theorem Sound.enterRemove (h : Sound maxPendingRequests s) {c : Nat}
    (hstep : s.enterRemove c = some next) : Sound maxPendingRequests next := by
  obtain ⟨call, hcall, hrest⟩ := Option.bind_eq_some_iff.mp hstep
  obtain ⟨hfirst, heq⟩ := Option.ite_none_right_eq_some.mp hrest
  cases heq
  have hheads := heads_of_first hfirst rfl
  have hself := hheads.mem
  refine ⟨h.balanced, h.accounts, ?_, ?_⟩
  · have hqueues : Queues { s with observers := s.observers.erase call.key.1 } :=
      ⟨h.queues.adding, h.queues.removing, h.queues.before, h.queues.settled⟩
    have hremaining : Heads { s with observers := s.observers.erase call.key.1 }
        { topic := call.key.1, user := .removing c } := hheads
    exact hqueues.enter hremaining fun huser => by cases huser
  · refine ⟨h.observes.nodup.erase _, fun ticket hmem hadding hentered => ?_,
      fun topic t hready htrue => ?_, fun topic hmem => ?_⟩
    · obtain ⟨old, hold, htopic, huser, hcases⟩ := mem_enterGuard hmem
      rcases hcases with ⟨hremoving, -⟩ | ⟨-, rfl⟩
      · rw [hremoving] at hadding
        cases hadding
      · have hadded := h.observes.added _ hold hadding hentered
        refine (List.mem_erase_of_ne fun htopic => ?_).mpr hadded
        rcases h.queues.before_of_heads hheads hold htopic with rfl | hbefore
        · cases hadding
        · rw [hbefore.front htopic.symm] at hentered
          cases hentered
    · refine (List.mem_erase_of_ne fun htopic => ?_).mpr (h.observes.observed topic t hready htrue)
      have hdone : s.dispatcher.outcome t ≠ none := by
        rw [show s.dispatcher.outcome t = some true from htrue]
        exact Option.some_ne_none _
      cases h.queues.settled topic t hready hdone _ hself htopic.symm
    · obtain ⟨hne, hold⟩ := h.observes.nodup.mem_erase_iff.mp hmem
      refine Explained.enter (s := { s with observers := s.observers.erase call.key.1 })
        (h.observes.explained topic hold) fun ticket hticket htopic huser => ?_
      obtain ⟨call', hcall', hkey, -⟩ := h.queues.removing ticket hticket c huser
      rw [hcall] at hcall'
      cases hcall'
      exact absurd (hkey.trans htopic).symm hne

/-! ## The tasks -/

theorem mem_leaveGuard {user : GuardUser} {ticket : GuardTicket} :
    ticket ∈ (s.leaveGuard user).tickets ↔ ticket ∈ s.tickets ∧ ticket.user ≠ user := by
  unfold leaveGuard
  rw [List.mem_filter]
  simp

/-- A task that has entered its guard, or has the lock. -/
structure AtWork (s : ObserverRun) (t : Nat) (task : ReadyTask) : Prop where
  found : s.dispatcher.readyTasks[t]? = some task
  running : task.outcome = none
  ready : s.dispatcher.readyOf task.topic = some t
  alone : ∀ ticket ∈ s.tickets, ticket.topic = task.topic → ticket.user ≠ .adding t →
    ticket.user = .application

theorem Sound.atWork (h : Sound maxPendingRequests s) {t : Nat} {task : ReadyTask}
    {ticket : GuardTicket} (htask : s.dispatcher.readyTasks[t]? = some task)
    (hheads : s.Heads ticket) (htopic : ticket.topic = task.topic)
    (huser : ticket.user = .adding t) : s.AtWork t task := by
  obtain ⟨task', htask', -, hnone⟩ := h.queues.adding ticket hheads.mem t huser
  rw [htask] at htask'
  cases htask'
  have hready := h.accounts.running t task htask hnone
  refine ⟨htask, hnone, hready, fun other hmem hother hne => ?_⟩
  rcases h.queues.before_of_heads hheads hmem (hother.trans htopic.symm) with rfl | hbefore
  · exact absurd huser hne
  · cases hkind : other.user with
    | adding t' =>
        have hready' := (h.queues.ready_of_adding h.accounts hmem hkind).1
        rw [hother, hready] at hready'
        cases hready'
        exact absurd hkind hne
    | removing c =>
        have hnot := hbefore.order (htopic.trans hother.symm) (isAdding_iff.mpr ⟨t, huser⟩)
        rw [hkind] at hnot
        cases hnot
    | application => rfl

/-- A task ends and leaves its guard. -/
theorem Queues.taskDone (h : Queues s) (haccounts : Accounted s.dispatcher) {t : Nat}
    {task : ReadyTask} (hwork : s.AtWork t task) (ok : Bool) :
    Queues ((s.taskDone t ok).leaveGuard (.adding t)) where
  adding ticket hmem t' huser := by
    obtain ⟨hold, hne⟩ := mem_leaveGuard.mp hmem
    obtain ⟨task', htask', htopic, hnone⟩ := h.adding ticket hold t' huser
    obtain ⟨new, hnew, hsame, houtcome⟩ := getElem?_taskDone_of htask' t ok
    rw [if_neg fun heq : t = t' => hne (heq ▸ huser)] at houtcome
    exact ⟨new, hnew, hsame.trans htopic, houtcome.trans hnone⟩
  removing ticket hmem := h.removing ticket (mem_leaveGuard.mp hmem).1
  before := h.before.sublist List.filter_sublist
  settled topic t' hready hdone ticket hmem htopic := by
    obtain ⟨hold, hne⟩ := mem_leaveGuard.mp hmem
    by_cases heq : t = t'
    · subst heq
      obtain ⟨task', htask', rfl⟩ := haccounts.tasks topic t hready
      rw [hwork.found] at htask'
      cases htask'
      exact hwork.alone ticket hold htopic hne
    · refine h.settled topic t' hready ?_ ticket hold htopic
      rw [← outcome_taskDone_ne heq ok]
      exact hdone

/-- What explained another topic than that of the task still does. -/
theorem Explained.taskDone {topic : Str} {t : Nat} {task : ReadyTask} (h : s.Explained topic)
    (hqueues : Queues s) (hwork : s.AtWork t task) (hne : topic ≠ task.topic) (ok : Bool) :
    ((s.taskDone t ok).leaveGuard (.adding t)).Explained topic := by
  rcases h with ⟨t', hready, htrue⟩ | ⟨ticket, hmem, htopic, hwhy⟩
  · exact .inl ⟨t', hready, outcome_taskDone_of_some htrue ok⟩
  · refine .inr ⟨ticket, mem_leaveGuard.mpr ⟨hmem, fun huser => ?_⟩, htopic, hwhy⟩
    obtain ⟨task', htask', hsame, -⟩ := hqueues.adding ticket hmem t huser
    rw [hwork.found] at htask'
    cases htask'
    exact hne (htopic.symm.trans hsame.symm)

/-- A task ends with success; its observer is there. -/
theorem Sound.taskSucceeds (h : Sound maxPendingRequests s) {t : Nat} {task : ReadyTask}
    (hwork : s.AtWork t task) (hmem : task.topic ∈ s.observers) :
    Sound maxPendingRequests ((s.taskDone t true).leaveGuard (.adding t)) where
  balanced := h.balanced.setReadyTasks _
  accounts := h.accounts.taskDone t true
  queues := h.queues.taskDone h.accounts hwork true
  observes :=
    { nodup := h.observes.nodup
      added := fun ticket hticket => h.observes.added ticket (mem_leaveGuard.mp hticket).1
      observed := by
        intro topic t' hready htrue
        by_cases heq : t = t'
        · subst heq
          obtain ⟨task', htask', rfl⟩ := h.accounts.tasks topic t hready
          rw [hwork.found] at htask'
          cases htask'
          exact hmem
        · exact h.observes.observed topic t' hready ((outcome_taskDone_ne heq true) ▸ htrue)
      explained := by
        intro topic htopic
        by_cases hself : topic = task.topic
        · subst hself
          exact .inl ⟨t, hwork.ready, outcome_taskDone_self hwork.found hwork.running true⟩
        · exact (h.observes.explained topic htopic).taskDone h.queues hwork hself true }

/-- A task fails and takes its observer back. -/
theorem Sound.taskFails (h : Sound maxPendingRequests s) {t : Nat} {task : ReadyTask}
    (hwork : s.AtWork t task) :
    Sound maxPendingRequests
      { (s.taskDone t false).leaveGuard (.adding t) with
        observers := s.observers.erase task.topic } where
  balanced := h.balanced.setReadyTasks _
  accounts := h.accounts.taskDone t false
  queues := by
    have hqueues := h.queues.taskDone h.accounts hwork false
    exact ⟨hqueues.adding, hqueues.removing, hqueues.before, hqueues.settled⟩
  observes :=
    { nodup := h.observes.nodup.erase _
      added := by
        intro ticket hticket hadding hentered
        obtain ⟨hold, hne⟩ := mem_leaveGuard.mp hticket
        refine (List.mem_erase_of_ne fun htopic => ?_).mpr
          (h.observes.added ticket hold hadding hentered)
        have huser := hwork.alone ticket hold htopic hne
        rw [huser] at hadding
        cases hadding
      observed := by
        intro topic t' hready htrue
        by_cases heq : t = t'
        · subst heq
          have hfalse := outcome_taskDone_self hwork.found hwork.running false
          rw [show (s.dispatcher.taskDone t false).outcome t = some true from htrue] at hfalse
          cases hfalse
        · have hold := h.observes.observed topic t' hready ((outcome_taskDone_ne heq false) ▸ htrue)
          refine (List.mem_erase_of_ne fun htopic => ?_).mpr hold
          subst htopic
          exact heq (Option.some_inj.mp (hwork.ready.symm.trans hready))
      explained := by
        intro topic htopic
        obtain ⟨hne, hold⟩ := h.observes.nodup.mem_erase_iff.mp htopic
        exact (h.observes.explained topic hold).taskDone h.queues hwork hne false }

theorem Sound.enterAdd (h : Sound maxPendingRequests s) {t : Nat}
    (hstep : s.enterAdd t = some next) : Sound maxPendingRequests next := by
  obtain ⟨task, htask, hrest⟩ := Option.bind_eq_some_iff.mp hstep
  obtain ⟨hfirst, hnext⟩ := Option.ite_none_right_eq_some.mp hrest
  have hheads := heads_of_first hfirst rfl
  have hwork := h.atWork htask hheads rfl rfl
  split at hnext
  · rename_i hmem
    cases hnext
    exact h.taskSucceeds hwork (hasResponseObserver_iff.mp hmem)
  · rename_i hnot
    cases hnext
    rw [hasResponseObserver_iff] at hnot
    refine ⟨h.balanced, h.accounts, ?_, ?_⟩
    · have hqueues : Queues { s with observers := task.topic :: s.observers } :=
        ⟨h.queues.adding, h.queues.removing, h.queues.before, h.queues.settled⟩
      have hstill : Heads { s with observers := task.topic :: s.observers }
          { topic := task.topic, user := .adding t } := hheads
      exact hqueues.enter hstill fun huser => by cases huser
    · refine ⟨List.nodup_cons.mpr ⟨hnot, h.observes.nodup⟩, fun ticket hmem hadding hentered => ?_,
        fun topic t' hready htrue => List.mem_cons_of_mem _
          (h.observes.observed topic t' hready htrue), fun topic hmem => ?_⟩
      · obtain ⟨old, hold, htopic, huser, hcases⟩ := mem_enterGuard hmem
        rcases hcases with ⟨hself, -⟩ | ⟨-, rfl⟩
        · obtain ⟨task', htask', hsame, -⟩ := h.queues.adding old hold t (huser.trans hself)
          rw [htask] at htask'
          cases htask'
          rw [← htopic, ← hsame]
          exact List.mem_cons_self
        · exact List.mem_cons_of_mem _ (h.observes.added _ hold hadding hentered)
      · rcases List.mem_cons.mp hmem with rfl | hold
        · refine .inr ⟨{ topic := task.topic, user := .adding t, entered := true }, ?_, rfl,
            .inl ⟨rfl, rfl⟩⟩
          exact List.mem_map.mpr ⟨_, hheads.mem, if_pos rfl⟩
        · exact Explained.enter (s := { s with observers := task.topic :: s.observers })
            (h.observes.explained topic hold) fun _ _ _ _ => rfl

theorem Sound.endTask (h : Sound maxPendingRequests s) {t : Nat} {ok : Bool}
    (hstep : s.endTask t ok = some next) : Sound maxPendingRequests next := by
  obtain ⟨task, htask, hrest⟩ := Option.bind_eq_some_iff.mp hstep
  obtain ⟨hmem, hnext⟩ := Option.ite_none_right_eq_some.mp hrest
  have hwork := h.atWork htask (h.queues.heads_of_entered hmem rfl) rfl rfl
  cases ok with
  | true =>
      cases hnext
      exact h.taskSucceeds hwork (h.observes.added _ hmem rfl rfl)
  | false =>
      cases hnext
      exact h.taskFails hwork

/-! ## Every step -/

/-- A call that goes on from `remove_response_observer` has entered the guard. -/
theorem Queues.entered (h : Queues s) {a : RequestDispatcher.Action} {c : Nat} {call : RequestCall}
    {d' : RequestDispatcher} (hcall : s.dispatcher.calls[c]? = some call) (ha : a.call? = some c)
    (hstep : s.dispatcher.step a = some d') (hallowed : s.allowed a = true)
    (hok : s.undisturbed (.dispatch a) = true) :
    ∀ ticket ∈ s.tickets, ticket.user = .removing c → ticket.entered = true := by
  intro ticket hmem huser
  obtain ⟨call', hcall', -, hremoving⟩ := h.removing ticket hmem c huser
  rw [hcall] at hcall'
  cases hcall'
  have hphase : ∃ error, call.phase = .removing error := by
    cases hphase : call.phase with
    | removing error => exact ⟨error, rfl⟩
    | _ =>
        rw [hphase] at hremoving
        cases hremoving
  obtain ⟨error, hphase⟩ := hphase
  have hentered : s.hasEntered c = true := by
    cases a with
    | acquire c' =>
        cases ha
        simp [RequestDispatcher.step, hcall, hphase] at hstep
    | close c' timeout =>
        cases ha
        simp [RequestDispatcher.step, RequestDispatcher.close, hcall, hphase] at hstep
    | resume c' ok =>
        cases ha
        cases ok with
        | true => simpa [allowed, hcall, hremoving] using hallowed
        | false => simpa [undisturbed, hcall, hphase] using hok
    | _ => cases ha
  obtain ⟨other, hother, hwhy⟩ := List.any_eq_true.mp hentered
  obtain ⟨hotherUser, hotherEntered⟩ : other.user = .removing c ∧ other.entered = true := by
    simpa using hwhy
  -- a call has one ticket
  obtain ⟨pre, post, heq, -⟩ := h.heads_of_entered hother hotherEntered
  have hbefore := h.before
  rw [heq] at hmem hbefore
  obtain ⟨-, hback, hcross⟩ := List.pairwise_append.mp hbefore
  rcases List.mem_append.mp hmem with hpre | hrest
  · have hsame := (hcross ticket hpre other List.mem_cons_self).distinct
      (huser.trans hotherUser.symm)
    rw [huser] at hsame
    cases hsame
  · rcases List.mem_cons.mp hrest with rfl | hpost
    · exact hotherEntered
    · have hsame := ((List.pairwise_cons.mp hback).1 ticket hpost).distinct
        (hotherUser.trans huser.symm)
      rw [hotherUser] at hsame
      cases hsame

theorem Sound.dispatch (h : Sound maxPendingRequests s) {a : RequestDispatcher.Action}
    (hok : s.undisturbed (.dispatch a) = true) (hstep : s.dispatch a = some next) :
    Sound maxPendingRequests next := by
  obtain ⟨hallowed, hrest⟩ := Option.ite_none_right_eq_some.mp hstep
  obtain ⟨d', hd', rfl⟩ := Option.map_eq_some_iff.mp hrest
  have hbalanced := (h.balanced.step hd').balanced
  cases ha : a.call? with
  | none =>
      have hbackground : a.isBackground = true := by
        cases a with
        | register key => rfl
        | claim message => rfl
        | deliver i => rfl
        | acquire c => cases ha
        | resume c ok => cases ha
        | close c timeout => cases ha
        | _ => cases hallowed
      have hsame := unmoved_step hbackground hd'
      exact ⟨hbalanced, hsame.accounted h.accounts hbalanced.interests, h.queues.unmoved hsame,
        h.observes.unmoved hsame⟩
  | some c =>
      have hcall : ∃ call, s.dispatcher.calls[c]? = some call := by
        cases a with
        | acquire c' =>
            cases ha
            obtain ⟨call, hcall, -⟩ := Option.bind_eq_some_iff.mp hd'
            exact ⟨call, hcall⟩
        | resume c' ok =>
            cases ha
            obtain ⟨call, hcall, -⟩ := Option.bind_eq_some_iff.mp hd'
            exact ⟨call, hcall⟩
        | close c' timeout =>
            cases ha
            obtain ⟨call, hcall, -⟩ := Option.bind_eq_some_iff.mp hd'
            exact ⟨call, hcall⟩
        | _ => cases ha
      obtain ⟨call, hcall⟩ := hcall
      have hsettling : ∀ i ready error, call.phase = .settling i ready error →
          (OrderedDict.get s.dispatcher.topics call.key.1 = some i →
            s.dispatcher.readyOf call.key.1 = some ready) ∧
          (a = .resume c false → s.dispatcher.maySettle call.key i ready = true) := by
        intro i ready error hphase
        have hfits := h.accounts.fits c call hcall
        rw [hphase] at hfits
        refine ⟨hfits, ?_⟩
        rintro rfl
        simpa [undisturbed, hcall, hphase] using hok
      obtain ⟨phase, hmoves⟩ :=
        moves_step h.balanced.interests h.accounts.bound hcall ha hsettling hd'
      have hself : d'.calls[c]? = some { call with phase } :=
        (hmoves.getElem?_calls hcall).mpr (.inl ⟨rfl, rfl⟩)
      simp only [Option.bind_some, hself, Option.map_some, Option.getD_some]
      exact ⟨hbalanced, hmoves.accounted h.accounts hcall hbalanced.interests,
        h.queues.moved hmoves hcall,
        h.observes.moved hmoves (h.queues.entered hcall ha hd' hallowed hok)⟩

theorem Sound.startTask (h : Sound maxPendingRequests s) {t : Nat}
    (hstep : s.startTask t = some next) : Sound maxPendingRequests next := by
  obtain ⟨task, htask, hrest⟩ := Option.bind_eq_some_iff.mp hstep
  obtain ⟨⟨hnone, hnew⟩, heq⟩ := Option.ite_none_right_eq_some.mp hrest
  cases heq
  refine ⟨h.balanced, h.accounts, h.queues.arrive rfl rfl fun t' huser => ?_,
    h.observes.arrive rfl⟩
  cases huser
  exact ⟨⟨task, htask, rfl, hnone⟩, h.accounts.running t task htask hnone, hnew⟩

/-- **Step lemma.** -/
theorem Sound.step (h : Sound maxPendingRequests s) {a : Action} (hok : s.undisturbed a = true)
    (hstep : s.step a = some next) : Sound maxPendingRequests next := by
  cases a with
  | dispatch action => exact h.dispatch hok hstep
  | startTask t => exact h.startTask hstep
  | enterAdd t => exact h.enterAdd hstep
  | endTask t ok => exact h.endTask hstep
  | enterRemove c => exact h.enterRemove hstep
  | application topic =>
      cases hstep
      refine ⟨h.balanced, h.accounts, h.queues.arrive rfl rfl fun t huser => ?_,
        h.observes.arrive rfl⟩
      cases huser
  | leave j =>
      obtain ⟨ticket, hticket, hrest⟩ := Option.bind_eq_some_iff.mp hstep
      obtain ⟨huser, heq⟩ := Option.ite_none_right_eq_some.mp hrest
      cases heq
      exact ⟨h.balanced, h.accounts, h.queues.sublist (List.eraseIdx_sublist ..),
        h.observes.leave hticket huser⟩

theorem Sound.start (maxPendingRequests : Nat) :
    Sound maxPendingRequests (ObserverRun.start maxPendingRequests) where
  balanced := (Balanced.start maxPendingRequests).bind 0
  accounts := Accounted.start maxPendingRequests
  queues :=
    { adding := fun ticket hmem => absurd hmem List.not_mem_nil
      removing := fun ticket hmem => absurd hmem List.not_mem_nil
      before := List.Pairwise.nil
      settled := fun topic t hready hdone ticket hmem => absurd hmem List.not_mem_nil }
  observes :=
    { nodup := List.nodup_nil
      added := fun ticket hmem => absurd hmem List.not_mem_nil
      observed := fun topic t hready => by cases hready
      explained := fun topic hmem => absurd hmem List.not_mem_nil }

/-- An observer that is explained has a call in progress. -/
theorem Sound.released (h : Sound maxPendingRequests s) : Released s where
  idle hfinished := by
    by_contra hne
    obtain ⟨topic, hmem⟩ := List.exists_mem_of_ne_nil _ hne
    have hbusy : ∃ call ∈ s.dispatcher.calls, isFinished call.phase = false := by
      rcases h.observes.explained topic hmem with ⟨t, hready, -⟩ | ⟨ticket, hticket, htopic, hwhy⟩
      · exact h.accounts.busy hready
      · rcases hwhy with ⟨hadding, -⟩ | ⟨hremoving, -⟩
        · obtain ⟨t, huser⟩ := isAdding_iff.mp hadding
          exact h.accounts.busy (h.queues.ready_of_adding h.accounts hticket huser).1
        · obtain ⟨c, huser⟩ := isRemoving_iff.mp hremoving
          obtain ⟨call, hcall, -, hphase⟩ := h.queues.removing ticket hticket c huser
          refine ⟨call, List.mem_of_getElem? hcall, ?_⟩
          revert hphase
          cases call.phase with
          | removing error => exact fun _ => rfl
          | _ => exact fun hphase => by cases hphase
    obtain ⟨call, hcall, hnot⟩ := hbusy
    rw [hfinished call hcall] at hnot
    cases hnot
  waiting c call r hcall hphase := by
    have hfits := h.accounts.fits c call hcall
    rw [hphase] at hfits
    obtain ⟨-, t, hready, htrue⟩ := hfits
    exact h.observes.observed _ t hready htrue

/-- **Response observers are released**, in every run in which no call is cancelled where
`undisturbed` names: without a call in progress there is no observer, and a request that
waits for its reply has one. -/
theorem observers_released (maxPendingRequests : Nat) (actions : List Action) (s : ObserverRun)
    (hrun : Transition.run step (start maxPendingRequests) actions = some s)
    (halong : Transition.Along step (fun s a => undisturbed s a = true)
      (start maxPendingRequests) actions) : Released s := by
  have hsound : Sound maxPendingRequests s :=
    Transition.invariant_along (fun _ _ _ h hok hstep => h.step hok hstep)
      (Sound.start maxPendingRequests) halong hrun
  exact hsound.released

/-- A request on the topic `r` waits for its reply. -/
def waitingRun : List Action :=
  [.dispatch (.register (str "r", [1])), .dispatch (.acquire 0), .startTask 0, .enterAdd 0,
   .endTask 0 true, .dispatch (.resume 0 true)]

/-- It closes behind a `subscribe` of the application, and waits for it. -/
def closingRun : List Action :=
  waitingRun ++ [.application (str "r"), .dispatch (.close 0 false), .leave 0, .enterRemove 0,
    .dispatch (.resume 0 true)]

theorem observers_released_after_close :
    ∃ s, Transition.run step (start 1) closingRun = some s ∧
      s.dispatcher.calls.map RequestCall.phase = [.returned] ∧ Released s :=
  ⟨_, rfl, rfl, observers_released 1 closingRun _ rfl (by decide)⟩

/-- The call is cancelled while `remove_response_observer` waits for the guard: it is
over, and its observer stays. -/
theorem cancelled_close_keeps_observer :
    ∃ s, Transition.run step (start 1) (waitingRun ++
        [.application (str "r"), .dispatch (.close 0 false), .dispatch (.resume 0 false)]) =
          some s ∧
      s.dispatcher.calls.map RequestCall.phase = [.raised .interrupted] ∧
      s.observers = [str "r"] ∧ ¬ Released s := by
  refine ⟨_, rfl, rfl, rfl, fun h => ?_⟩
  have hidle := h.idle (by decide)
  cases hidle

end ObserverRun

end Zmqtt
