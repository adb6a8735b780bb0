import Zmqtt.ClientRun
import Zmqtt.Transition

/-!
# A broker that exceeds a limit

The read task finds that the broker exceeded the Receive Maximum or the Maximum Packet
Size, closes the transport and raises `MQTTProtocolError`.  This ends `run`, and the run
loop with the same exception when it comes to wait for `run`.  A loop that waits for an
answer of the broker is failed with `MQTTDisconnectedError` instead and connects again; one
whose answer has arrived goes on.

The argument is a chain of steps of the client itself: the transport is closed, `run` ends,
the loop takes the answers that have arrived, comes to its wait for `run`, raises, and ends.
`remaining` counts those that are left.  Only a new request adds to them, and no other step
takes the loop off this way.
-/

namespace Zmqtt

def ClientEvent.isViolation : ClientEvent → Bool
  | .violated _ => true
  | _ => false

theorem ClientEvent.isViolation_iff {event : ClientEvent} :
    event.isViolation = true ↔ ∃ msg, event = .violated msg := by
  cases event with
  | violated msg => exact ⟨fun _ => ⟨msg, rfl⟩, fun _ => rfl⟩
  | _ => simp [isViolation]

/-- The loop does not wait for a connection, an answer or `run` any more. -/
def LoopPhase.isLeaving : LoopPhase → Bool
  | .closing => true
  | .cleaning _ => true
  | .connecting .. => true
  | .ended _ => true
  | _ => false

def LoopPhase.isEnded : LoopPhase → Bool
  | .ended _ => true
  | _ => false

namespace Client

variable {s next : Client} {msg : String} {action : Action}

/-- The broker exceeds a limit: the text of the error that is due. -/
def violation (s : Client) : Action → Option String
  | .inbound action => quotaExceeded s.inbound action
  | .packet size =>
      s.config.maximumPacketSize.bind fun limit =>
        if limit < size then some (oversized size limit) else none
  | _ => none

/-- The loop waits for the broker: for the guards or the SUBACK of a re-subscription, or
for the observer of a response topic.  A SUBACK that has arrived grants the filters, or the
wait ends with its exception. -/
def unanswered (s : Client) : Bool :=
  match s.loop with
  | .resubscribing _ none _ => true
  | .resubscribing _ (some _) _ => s.answer != some true
  | .restoring topic _ => !s.observable topic
  | _ => false

/-- The broker has exceeded a limit. -/
def isViolated (s : Client) : Bool := s.log.any ClientEvent.isViolation

/-- The condition on a run.  When the broker exceeds a limit, the loop has not left its
waits and no task of `run` has failed.  From then on the loop is in no unanswered wait, the
drain after a re-subscription does not raise, the ping task does not fail before the read
task has raised, and the client is not disconnected before the loop has ended. -/
def contained (s : Client) (action : Action) : Bool :=
  ((s.violation action).isNone || (!s.loop.isLeaving && s.run.failure.isNone)) &&
    (match action with
      | .pingFails _ => !s.isViolated || s.run.failure.isSome
      | .endResubscribe outcome => !s.isViolated || outcome.error.isNone
      | .disconnect => !s.isViolated || s.loop.isEnded
      | _ => true) &&
    (s.step action).all fun next => !(next.isViolated && next.unanswered)

/-- `run` is about to end with the error, or has ended with it. -/
def RunFails (msg : String) (run : ProtocolRun) : Prop :=
  run.began = true ∧
    ((run.reader = .aborting (.protocolError msg) ∧ run.failure = none ∧ run.exit = none) ∨
      (run.reader = .ended ∧ run.failure = some (.protocolError msg) ∧ run.exit = none) ∨
      (run.reader = .ended ∧ run.failure.isSome ∧ run.pinging = false ∧
        run.exit = some (.protocolError msg)))

/-- The loop is about to end with the error, or has ended with it. -/
structure Ends (s : Client) (msg : String) : Prop where
  run : RunFails msg s.run
  loop : s.loop.isLeaving = false ∨ s.run.exit.isSome ∧
    (s.loop = .cleaning (some (.protocolError msg)) ∨ s.loop = .ended (.protocolError msg))
  waits : s.unanswered = false

/-- The steps of the client itself on the way to the end of the loop. -/
def Action.isOwn : Action → Bool
  | .endAbort => true
  | .exitRun => true
  | .resume => true
  | .endResubscribe _ => true
  | .observed _ => true
  | _ => false

/-- A new request of the application. -/
def Action.isRequest : Action → Bool
  | .request _ => true
  | _ => false

/-- The steps that are left of `run`. -/
def runSteps (run : ProtocolRun) : Nat :=
  if run.exit.isSome then 0 else if run.failure.isSome then 1 else 2

/-- The steps that are left of the loop, but for the response topics. -/
def loopSteps : LoopPhase → Nat
  | .starting _ => 3
  | .resubscribing .. => 3
  | .restoring .. => 3
  | .awaitingRun => 2
  | .cleaning _ => 1
  | _ => 0

/-- The response topics that the loop has still to come to. -/
def topicsLeft (s : Client) : Nat :=
  match s.loop with
  | .starting _ => s.topics.length
  | .resubscribing .. => s.topics.length
  | .restoring _ pending => pending.length
  | _ => 0

/-- The steps that are left to the end of the loop. -/
def remaining (s : Client) : Nat := runSteps s.run + loopSteps s.loop + s.topicsLeft

/-! ## What a step does to the log -/

theorem log_restoreFrom (s : Client) (pending : List Nat) :
    (s.restoreFrom pending).log = s.log ∨ (s.restoreFrom pending).log = .restored :: s.log := by
  induction pending with
  | nil => exact Or.inr rfl
  | cons i rest ih =>
      rw [restoreFrom]
      split
      · exact ih
      · exact Or.inl rfl

theorem log_raiseInLoop (s : Client) (error : RunError) : (s.raiseInLoop error).log = s.log := by
  unfold raiseInLoop
  split <;> rfl

theorem log_endSubscribe (s : Client) (i : Nat) (registered : List Str)
    (outcome : SubscribeOutcome) : (s.endSubscribe i registered outcome).log = s.log := by
  unfold endSubscribe
  simp only
  split <;> split <;> rfl

/-- A step logs something only of its own kind. -/
structure Logs (s : Client) (action : Action) (next : Client) : Prop where
  grows : ∃ new, next.log = new ++ s.log ∧
    (∀ msg, .violated msg ∈ new → s.violation action = some msg) ∧
    (.attempted ∈ new → ∃ failures pending, s.loop = .connecting failures pending)

theorem Logs.same (h : next.log = s.log) : Logs s action next :=
  ⟨[], h, (by simp), (by simp)⟩

theorem Logs.cons {e : ClientEvent} (h : next.log = e :: s.log)
    (hviolation : e.isViolation = false) (hattempted : e ≠ .attempted) :
    Logs s action next := by
  refine ⟨[e], h, fun msg hmem => ?_, fun hmem => ?_⟩
  · cases List.mem_singleton.mp hmem
    cases hviolation
  · exact absurd (List.mem_singleton.mp hmem).symm hattempted

theorem Logs.violated {m : String} (h : next.log = .violated m :: s.log)
    (hviolation : s.violation action = some m) : Logs s action next := by
  refine ⟨[.violated m], h, fun other hmem => ?_, fun hmem => ?_⟩
  · cases List.mem_singleton.mp hmem
    exact hviolation
  · cases List.mem_singleton.mp hmem

theorem afterPacket_log (s : Client) (action : InboundPublishFlow.Action)
    (flow : InboundPublishFlow) :
    (s.afterPacket action flow).log =
      (quotaExceeded s.inbound action).elim s.log fun msg => .violated msg :: s.log := by
  unfold afterPacket
  simp only
  split <;> cases quotaExceeded s.inbound action <;> rfl

theorem finish_log {c : Nat} {call : SubscriptionCall} {outcome : SubscribeOutcome}
    (hstep : s.finish c call outcome = some next) :
    next.log = s.log ∨ next.log = .started call.subscription :: s.log ∨
      next.log = .startFailed call.subscription :: s.log := by
  unfold finish at hstep
  split at hstep
  · obtain ⟨registered, -, rfl⟩ := Option.map_eq_some_iff.mp hstep
    have hended : (if call.connection = s.connection then
        s.endSubscribe call.subscription registered outcome
        else if outcome.error.isNone then s.setRegistered call.subscription registered
        else s).log = s.log := by
      split
      · exact log_endSubscribe s _ registered outcome
      · split <;> rfl
    simp only
    generalize (if call.connection = s.connection then _ else _ : Client) = ended at hended ⊢
    rw [← hended]
    split
    · exact Or.inr (Or.inl rfl)
    · exact Or.inr (Or.inr rfl)
  · cases hstep
    exact Or.inl rfl

theorem step_logs (hstep : s.step action = some next) : Logs s action next := by
  cases action with
  | create sub =>
      cases hstep
      exact .same rfl
  | start i =>
      obtain ⟨sub, -, rfl⟩ := Option.map_eq_some_iff.mp hstep
      unfold start
      split
      · refine ⟨[.startFailed i, .starting i], rfl, fun msg hmem => ?_, fun hmem => ?_⟩
        · simp at hmem
        · simp at hmem
      · exact .cons rfl rfl (by simp)
  | stop i cancelled =>
      obtain ⟨sub, -, rfl⟩ := Option.map_eq_some_iff.mp hstep
      refine .cons (e := .stopped i) ?_ rfl (by simp)
      unfold stop
      split
      · rfl
      · simp only
        split <;> rfl
  | detach i =>
      obtain ⟨sub, -, rfl⟩ := Option.map_eq_some_iff.mp hstep
      refine .cons (e := .detached i) ?_ rfl (by simp)
      unfold detach
      split
      · rfl
      · simp only
        split <;> rfl
  | letIn c =>
      obtain ⟨call, -, hstep⟩ := Option.bind_eq_some_iff.mp hstep
      unfold letIn at hstep
      split at hstep
      · cases hstep
      · split at hstep
        · obtain ⟨sub, -, rfl⟩ := Option.map_eq_some_iff.mp hstep
          exact .same rfl
        · cases hstep
          exact .cons (e := .startFailed _) rfl rfl (by simp)
        · cases hstep
          exact .same rfl
        · cases hstep
          exact .same rfl
  | finish c outcome =>
      obtain ⟨call, -, hstep⟩ := Option.bind_eq_some_iff.mp hstep
      rcases finish_log hstep with hlog | hlog | hlog
      · exact .same hlog
      · exact .cons hlog rfl (by simp)
      · exact .cons hlog rfl (by simp)
  | request topic =>
      cases hstep
      exact .same rfl
  | release topic =>
      cases hstep
      exact .same rfl
  | beginRun =>
      obtain ⟨-, heq⟩ := Option.ite_none_left_eq_some.mp hstep
      cases heq
      exact .same rfl
  | inbound action =>
      obtain ⟨flow, -, ⟨-, -, rfl⟩ | ⟨-, rfl⟩⟩ := inbound_cases hstep
      · have hlog := s.afterPacket_log action flow
        cases hquota : quotaExceeded s.inbound action with
        | none =>
            rw [hquota] at hlog
            exact .same hlog
        | some msg =>
            rw [hquota] at hlog
            exact .violated hlog hquota
      · exact .same rfl
  | packet size =>
      obtain ⟨-, heq⟩ := Option.ite_none_right_eq_some.mp hstep
      cases heq
      unfold Client.packet
      cases hlimit : s.config.maximumPacketSize with
      | none => exact .same rfl
      | some limit =>
          by_cases hlt : limit < size
          · simp only [if_pos hlt]
            refine .violated (m := oversized size limit) rfl ?_
            simp only [violation, hlimit, Option.bind_some, if_pos hlt]
          · simp only [if_neg hlt]
            exact .same rfl
  | readFails error =>
      obtain ⟨-, heq⟩ := Option.ite_none_right_eq_some.mp hstep
      cases heq
      exact .same rfl
  | endAbort =>
      obtain ⟨error, -, rfl⟩ := endAbort_cases hstep
      exact .same rfl
  | pingFails error =>
      obtain ⟨-, heq⟩ := Option.ite_none_right_eq_some.mp hstep
      cases heq
      exact .same rfl
  | exitRun =>
      obtain ⟨-, hstep⟩ := Option.ite_none_right_eq_some.mp hstep
      obtain ⟨error, -, rfl⟩ := Option.map_eq_some_iff.mp hstep
      exact .same rfl
  | resume =>
      simp only [Client.step, Client.resume] at hstep
      split at hstep
      · rename_i pending _
        obtain ⟨-, heq⟩ := Option.ite_none_right_eq_some.mp hstep
        cases heq
        rcases s.log_restoreFrom pending with hlog | hlog
        · exact .same hlog
        · exact .cons hlog rfl (by simp)
      · obtain ⟨error, -, rfl⟩ := Option.map_eq_some_iff.mp hstep
        exact .same (s.log_raiseInLoop error)
      · cases hstep
        exact .same rfl
      · obtain ⟨-, hstep⟩ := Option.ite_none_left_eq_some.mp hstep
        split at hstep
        · cases hstep
          exact .same rfl
        · cases hstep
          exact .cons (e := .reconnecting) rfl rfl (by simp)
      · cases hstep
  | resubscribe =>
      simp only [Client.step, Client.resubscribe] at hstep
      split at hstep
      · split at hstep
        · cases hstep
          exact .same (s.log_raiseInLoop _)
        · obtain ⟨sub, -, rfl⟩ := Option.map_eq_some_iff.mp hstep
          exact .cons (e := .resubscribed _) rfl rfl (by simp)
      · cases hstep
  | suback granted =>
      obtain ⟨-, rfl⟩ := suback_cases hstep
      exact .same rfl
  | endResubscribe outcome =>
      obtain ⟨i, registered, pending, -, -, heq⟩ := endResubscribe_cases hstep
      have hended := s.log_endSubscribe i registered outcome
      split at heq
      · cases heq
        rcases (s.endSubscribe i registered outcome).log_restoreFrom pending with hlog | hlog
        · exact .same (hlog.trans hended)
        · exact .cons (e := .restored) (hlog.trans (by rw [hended])) rfl (by simp)
      · cases heq
        exact .same ((log_raiseInLoop _ _).trans hended)
  | observerReady topic =>
      obtain ⟨-, heq⟩ := Option.ite_none_right_eq_some.mp hstep
      cases heq
      exact .same rfl
  | observed error =>
      obtain ⟨topic, pending, -, ⟨-, -, rfl⟩ | ⟨error, -, -, rfl⟩⟩ := observed_cases hstep
      · exact .same rfl
      · exact .same (s.log_raiseInLoop error)
  | attempt met sessionPresent =>
      simp only [Client.step, Client.attempt] at hstep
      split at hstep
      · rename_i failures pending hloop
        have hlog : next.log = .attempted :: s.log := by
          split at hstep <;> cases hstep <;> rfl
        refine ⟨[.attempted], hlog, fun msg hmem => ?_, fun _ => ⟨failures, pending, hloop⟩⟩
        simp at hmem
      · cases hstep
  | disconnect =>
      cases hstep
      exact .same rfl

/-! ## The chain -/

/-- The read task is done or in `abort`, so it takes no packet. -/
theorem RunFails.not_reading (h : RunFails msg s.run) : s.reading = false := by
  obtain ⟨-, ⟨hreader, -, -⟩ | ⟨hreader, -, -⟩ | ⟨hreader, -, -, -⟩⟩ := h <;>
    simp [reading, hreader]

/-- The loop comes to the first topic that still has a request, or to its wait for `run`. -/
theorem restoreTopics_cases (s : Client) (topics : List Str) :
    s.restoreTopics topics = .awaitingRun ∨ ∃ topic pending,
      s.restoreTopics topics = .restoring topic pending ∧ pending.length < topics.length := by
  induction topics with
  | nil => exact Or.inl rfl
  | cons topic rest ih =>
      rw [restoreTopics]
      split
      · exact Or.inr ⟨topic, rest, rfl, Nat.lt_succ_self _⟩
      · refine ih.imp_right ?_
        rintro ⟨other, pending, hphase, hlt⟩
        exact ⟨other, pending, hphase, Nat.lt_succ_of_lt hlt⟩

/-- The loop comes to a subscription that is not detached, or past all of them. -/
theorem restoreFrom_frame (s : Client) (pending : List Nat) :
    (s.restoreFrom pending).run = s.run ∧
      ((∃ i rest, (s.restoreFrom pending).loop = .resubscribing i none rest) ∨
        (s.restoreFrom pending).loop = s.restoreTopics s.topics) := by
  induction pending with
  | nil => exact ⟨rfl, Or.inr rfl⟩
  | cons i rest ih =>
      rw [restoreFrom]
      split
      · exact ih
      · exact ⟨rfl, Or.inl ⟨i, rest, rfl⟩⟩

/-- A step that is not of the loop: its phase stays, `n` requests for a topic are new. -/
theorem Ends.aside {n : Nat} (h : s.Ends msg) (hwaits : next.unanswered = false)
    (hrun : next.run = s.run) (hloop : next.loop = s.loop)
    (htopics : next.topics.length ≤ s.topics.length + n) :
    next.Ends msg ∧ next.remaining ≤ s.remaining + n := by
  have hleft : next.topicsLeft ≤ s.topicsLeft + n := by
    unfold topicsLeft
    rw [hloop]
    split
    · exact htopics
    · exact htopics
    · omega
    · omega
  refine ⟨⟨hrun ▸ h.run, ?_, hwaits⟩, ?_⟩
  · rw [hloop, hrun]
    exact h.loop
  · rw [remaining, remaining, hrun, hloop]
    omega

/-- A step of the client itself: the loop is on its way, and one step closer to its end. -/
def Closer (s next : Client) (msg : String) : Prop := next.Ends msg ∧ next.remaining < s.remaining

/-- The loop has not ended while `run` has not. -/
theorem Ends.not_leaving (h : s.Ends msg) (hexit : s.run.exit = none) :
    s.loop.isLeaving = false :=
  h.loop.resolve_right (by simp [hexit])

theorem Ends.endAbort (h : s.Ends msg) (hwaits : next.unanswered = false)
    (hstep : s.step .endAbort = some next) : Closer s next msg := by
  obtain ⟨error, herror, rfl⟩ := endAbort_cases hstep
  obtain ⟨hbegan, ⟨hreader, hfailure, hexit⟩ | ⟨hreader, -, -⟩ | ⟨hreader, -, -, -⟩⟩ := h.run
  · rw [hreader] at herror
    cases herror
    have hraised : s.run.failure.or (some (.protocolError msg)) = some (.protocolError msg) := by
      rw [hfailure]
      rfl
    refine ⟨⟨⟨hbegan, Or.inr (Or.inl ⟨rfl, hraised, hexit⟩)⟩, Or.inl (h.not_leaving hexit), hwaits⟩, ?_⟩
    have hbefore : runSteps s.run = 2 := by simp [runSteps, hexit, hfailure]
    have hafter : runSteps (s.readerRaises (.protocolError msg)).run = 1 := by
      simp [runSteps, readerRaises, ProtocolRun.raise, hexit, hfailure]
    show _ + loopSteps s.loop + s.topicsLeft < _ + loopSteps s.loop + s.topicsLeft
    omega
  · rw [hreader] at herror
    cases herror
  · rw [hreader] at herror
    cases herror

theorem Ends.exitRun (h : s.Ends msg) (hwaits : next.unanswered = false)
    (hstep : s.step .exitRun = some next) : Closer s next msg := by
  obtain ⟨hopen, hstep⟩ := Option.ite_none_right_eq_some.mp hstep
  obtain ⟨error, herror, rfl⟩ := Option.map_eq_some_iff.mp hstep
  have hexit : s.run.exit = none := Option.isNone_iff_eq_none.mp hopen
  obtain ⟨hbegan, ⟨-, hfailure, -⟩ | ⟨-, hfailure, -⟩ | ⟨-, -, -, hexited⟩⟩ := h.run
  · rw [hfailure] at herror
    cases herror
  · rw [hfailure] at herror
    cases herror
    have hfailed : s.run.failure.isSome = true := by simp [hfailure]
    refine ⟨⟨⟨hbegan, Or.inr (Or.inr ⟨rfl, hfailed, rfl, rfl⟩)⟩, Or.inl (h.not_leaving hexit),
      hwaits⟩, ?_⟩
    have hbefore : runSteps s.run = 1 := by simp [runSteps, hexit, hfailure]
    show 0 + loopSteps s.loop + s.topicsLeft < _ + loopSteps s.loop + s.topicsLeft
    omega
  · rw [hexit] at hexited
    cases hexited

/-- The loop goes on to restore what is left. -/
theorem Ends.goesOn {ended : Client} {pending : List Nat} (h : s.Ends msg)
    (hwaits : (ended.restoreFrom pending).unanswered = false) (hrun : ended.run = s.run)
    (htopics : ended.topics = s.topics) (hloop : loopSteps s.loop = 3)
    (hleft : s.topicsLeft = s.topics.length) : Closer s (ended.restoreFrom pending) msg := by
  obtain ⟨hsame, ⟨i, rest, hphase⟩ | hphase⟩ := ended.restoreFrom_frame pending
  · -- a re-subscription begins with a wait that is not answered
    rw [unanswered, hphase] at hwaits
    cases hwaits
  · have hfails : RunFails msg (ended.restoreFrom pending).run := by
      rw [hsame, hrun]
      exact h.run
    have hbefore : s.remaining = runSteps s.run + 3 + s.topics.length := by
      rw [remaining, hloop, hleft]
    rcases ended.restoreTopics_cases ended.topics with hnext | ⟨topic, later, hnext, hlt⟩
    · refine ⟨⟨hfails, Or.inl (by rw [hphase, hnext]; rfl), hwaits⟩, ?_⟩
      rw [hbefore]
      simp only [remaining, topicsLeft, hsame, hrun, hphase, hnext, loopSteps]
      omega
    · refine ⟨⟨hfails, Or.inl (by rw [hphase, hnext]; rfl), hwaits⟩, ?_⟩
      rw [htopics] at hlt
      rw [hbefore]
      simp only [remaining, topicsLeft, hsame, hrun, hphase, hnext, loopSteps]
      omega

/-- The phases of the loop in which it goes on. -/
theorem Ends.resume (h : s.Ends msg) (hwaits : next.unanswered = false)
    (hstep : s.step .resume = some next) : Closer s next msg := by
  have hstep : s.resume = some next := hstep
  unfold Client.resume at hstep
  split at hstep
  · rename_i pending hphase
    obtain ⟨-, heq⟩ := Option.ite_none_right_eq_some.mp hstep
    cases heq
    exact h.goesOn hwaits rfl rfl (by rw [hphase]; rfl) (by rw [topicsLeft, hphase])
  · rename_i hphase
    -- the loop waits for `run` and raises what ended it
    obtain ⟨error, herror, rfl⟩ := Option.map_eq_some_iff.mp hstep
    obtain ⟨hbegan, ⟨-, -, hexit⟩ | ⟨-, -, hexit⟩ | hended⟩ := h.run
    · rw [hexit] at herror
      cases herror
    · rw [hexit] at herror
      cases herror
    · obtain ⟨hreader, hfailure, hping, hexit⟩ := hended
      rw [hexit] at herror
      cases herror
      have hraise : s.raiseInLoop (.protocolError msg) =
          s.setLoop (.cleaning (some (.protocolError msg))) := by
        simp [raiseInLoop, RunError.isLoss, clean, hexit, setLoop]
      rw [hraise]
      refine ⟨⟨h.run, Or.inr ⟨?_, Or.inl rfl⟩, rfl⟩, ?_⟩
      · show s.run.exit.isSome = true
        rw [hexit]
        rfl
      · simp [remaining, topicsLeft, setLoop, loopSteps, hphase]
  · rename_i hphase
    rcases h.loop with hstays | ⟨-, hends | hends⟩ <;> simp_all [LoopPhase.isLeaving]
  · rename_i error hphase
    rcases h.loop with hstays | ⟨hexit, hends | hends⟩
    · rw [hphase] at hstays
      cases hstays
    · rw [hphase] at hends
      cases hends
      obtain ⟨-, heq⟩ := Option.ite_none_left_eq_some.mp hstep
      cases heq
      refine ⟨⟨h.run, Or.inr ⟨hexit, Or.inr rfl⟩, rfl⟩, ?_⟩
      simp [remaining, topicsLeft, setLoop, loopSteps, hphase]
    · rw [hphase] at hends
      cases hends
  · cases hstep

/-- The loop takes the SUBACK that has arrived. -/
theorem Ends.endResubscribe {outcome : SubscribeOutcome} (h : s.Ends msg)
    (hwaits : next.unanswered = false) (hnone : outcome.error.isNone = true)
    (hstep : s.endResubscribe outcome = some next) : Closer s next msg := by
  obtain ⟨i, registered, pending, hphase, -, heq⟩ := endResubscribe_cases hstep
  rw [Option.isNone_iff_eq_none.mp hnone] at heq
  cases heq
  obtain ⟨hrun, -, htopics, -⟩ := endSubscribe_frame s i registered outcome
  exact h.goesOn hwaits hrun htopics (by rw [hphase]; rfl) (by rw [topicsLeft, hphase])

/-- The loop goes on from an observer, which is ready. -/
theorem Ends.observed {error : Option RunError} (h : s.Ends msg)
    (hwaits : next.unanswered = false) (hstep : s.observed error = some next) :
    Closer s next msg := by
  obtain ⟨topic, pending, hphase, ⟨-, -, rfl⟩ | ⟨failure, -, hwaiting, -⟩⟩ := observed_cases hstep
  · rcases s.restoreTopics_cases pending with hnext | ⟨other, later, hnext, hlt⟩
    · refine ⟨⟨h.run, Or.inl (by rw [setLoop, hnext]; rfl), hwaits⟩, ?_⟩
      simp only [remaining, topicsLeft, setLoop, hphase, hnext, loopSteps]
      omega
    · refine ⟨⟨h.run, Or.inl (by rw [setLoop, hnext]; rfl), hwaits⟩, ?_⟩
      simp only [remaining, topicsLeft, setLoop, hphase, hnext, loopSteps]
      omega
  · have hanswered := h.waits
    simp [unanswered, hphase, hwaiting] at hanswered

/-- The phases of a loop on its way to its end. -/
theorem Ends.not_connecting (h : s.Ends msg) (failures : Nat) (pending : List Nat) :
    s.loop ≠ .connecting failures pending := by
  intro hphase
  rcases h.loop with hstays | ⟨-, hends | hends⟩
  · rw [hphase] at hstays
    cases hstays
  · rw [hphase] at hends
    cases hends
  · rw [hphase] at hends
    cases hends

/-- As long as the loop has not ended, one of the steps of the client itself is enabled. -/
theorem Ends.enabled (h : s.Ends msg) (hend : s.loop.isEnded = false) :
    ∃ action next, action.isOwn = true ∧ s.step action = some next := by
  obtain ⟨hbegan, ⟨hreader, -, -⟩ | ⟨-, hfailure, hexit⟩ | ⟨-, -, -, hexit⟩⟩ := h.run
  · exact ⟨.endAbort, _, rfl, by simp only [Client.step, hreader]; rfl⟩
  · exact ⟨.exitRun, _, rfl, by simp only [Client.step, Client.exitRun, hexit, hfailure]; rfl⟩
  · have hwaits := h.waits
    unfold unanswered at hwaits
    have hloop := h.loop
    cases hphase : s.loop with
    | starting pending =>
        exact ⟨.resume, _, rfl, by simp only [Client.step, Client.resume, hphase, hbegan]; rfl⟩
    | resubscribing i registered pending =>
        rw [hphase] at hwaits
        cases registered with
        | none => cases hwaits
        | some registered =>
            have hanswer : s.answer = some true := by simpa using hwaits
            exact ⟨.endResubscribe .granted, _, rfl, by
              simp only [Client.step, Client.endResubscribe, hphase, hanswer]
              rfl⟩
    | restoring topic pending =>
        rw [hphase] at hwaits
        have hready : s.observable topic = true := by simpa using hwaits
        exact ⟨.observed none, _, rfl, by
          simp only [Client.step, Client.observed, hphase, hready]
          rfl⟩
    | awaitingRun =>
        exact ⟨.resume, _, rfl, by simp only [Client.step, Client.resume, hphase, hexit]; rfl⟩
    | closing =>
        rw [hphase] at hloop
        rcases hloop with hstays | ⟨-, hends | hends⟩
        · cases hstays
        · cases hends
        · cases hends
    | cleaning error =>
        rw [hphase] at hloop
        rcases hloop with hstays | ⟨-, hends | hends⟩
        · cases hstays
        · cases hends
          exact ⟨.resume, _, rfl, by simp only [Client.step, Client.resume, hphase, hexit]; rfl⟩
        · cases hends
    | connecting failures pending => exact absurd hphase (h.not_connecting failures pending)
    | ended error =>
        rw [hphase] at hend
        cases hend

/-! ## Steps and runs -/

theorem letIn_frame {c : Nat} {call : SubscriptionCall} (hstep : s.letIn c call = some next) :
    next.run = s.run ∧ next.loop = s.loop ∧ next.topics = s.topics := by
  unfold Client.letIn at hstep
  split at hstep
  · cases hstep
  · split at hstep
    · obtain ⟨sub, -, rfl⟩ := Option.map_eq_some_iff.mp hstep
      exact ⟨rfl, rfl, rfl⟩
    all_goals
      cases hstep
      exact ⟨rfl, rfl, rfl⟩

theorem finish_frame {c : Nat} {call : SubscriptionCall} {outcome : SubscribeOutcome}
    (hstep : s.finish c call outcome = some next) :
    next.run = s.run ∧ next.loop = s.loop ∧ next.topics = s.topics := by
  unfold Client.finish at hstep
  split at hstep
  · obtain ⟨registered, -, rfl⟩ := Option.map_eq_some_iff.mp hstep
    have hended : ∀ ended : Client,
        ended.run = s.run ∧ ended.loop = s.loop ∧ ended.topics = s.topics →
        (if outcome.error.isNone then
          { ended.emit (.started call.subscription) with calls := ended.calls.eraseIdx c }
          else ended.failStart c call.subscription).run = s.run ∧
        (if outcome.error.isNone then
          { ended.emit (.started call.subscription) with calls := ended.calls.eraseIdx c }
          else ended.failStart c call.subscription).loop = s.loop ∧
        (if outcome.error.isNone then
          { ended.emit (.started call.subscription) with calls := ended.calls.eraseIdx c }
          else ended.failStart c call.subscription).topics = s.topics := by
      intro ended hframe
      split <;> exact hframe
    refine hended _ ?_
    split
    · obtain ⟨hrun, hloop, htopics, -⟩ := endSubscribe_frame s call.subscription registered outcome
      exact ⟨hrun, hloop, htopics⟩
    · split <;> exact ⟨rfl, rfl, rfl⟩
  · cases hstep
    exact ⟨rfl, rfl, rfl⟩

/-- The ping task fails when the read task has raised. -/
theorem Ends.pingFails (h : s.Ends msg) (hwaits : next.unanswered = false)
    (hfailed : s.run.failure.isSome = true) {error : ConnectFailure}
    (hstep : s.step (.pingFails error) = some next) :
    next.Ends msg ∧ next.remaining ≤ s.remaining := by
  obtain ⟨hping, heq⟩ := Option.ite_none_right_eq_some.mp hstep
  cases heq
  obtain ⟨failure, hfailure⟩ := Option.isSome_iff_exists.mp hfailed
  have hfirst : s.run.failure.or (some (.connection error)) = s.run.failure := by
    rw [hfailure]
    rfl
  obtain ⟨hbegan, ⟨-, hnone, -⟩ | ⟨hreader, hfailed, hexit⟩ | ⟨-, -, hpinging, -⟩⟩ := h.run
  · rw [hnone] at hfailed
    cases hfailed
  · refine ⟨⟨⟨hbegan, Or.inr (Or.inl ⟨hreader, hfirst.trans hfailed, hexit⟩)⟩, h.loop, hwaits⟩, ?_⟩
    show runSteps { s.run with failure := s.run.failure.or _, pinging := false } + _ + _ ≤ _
    rw [hfirst]
    exact Nat.le_refl _
  · rw [hpinging, Bool.and_false] at hping
    cases hping

/-- The loop has ended when the client is disconnected. -/
theorem Ends.disconnect (h : s.Ends msg) (hended : s.loop.isEnded = true) :
    s.disconnect.Ends msg ∧ s.disconnect.remaining ≤ s.remaining := by
  rcases h.loop with hstays | ⟨hsome, hphase | hphase⟩
  · cases hphase : s.loop <;> simp [hphase, LoopPhase.isEnded, LoopPhase.isLeaving] at hended hstays
  · rw [hphase] at hended
    cases hended
  · obtain ⟨hbegan, ⟨-, -, hexit⟩ | ⟨-, -, hexit⟩ | ⟨-, hfailure, -, hexit⟩⟩ := h.run
    · rw [hexit] at hsome
      cases hsome
    · rw [hexit] at hsome
      cases hsome
    · have hleave : s.run.exit.getD .cancelled = .protocolError msg := by
        rw [hexit]
        rfl
      have hloop : s.disconnect.loop = .ended (.protocolError msg) := by
        simp only [Client.disconnect, hphase, LoopPhase.cancel]
      refine ⟨⟨⟨hbegan, Or.inr (Or.inr ⟨rfl, hfailure, rfl, congrArg some hleave⟩)⟩,
        Or.inr ⟨rfl, Or.inr hloop⟩, ?_⟩, ?_⟩
      · rw [unanswered, hloop]
      · simp [remaining, topicsLeft, hphase, Client.disconnect, LoopPhase.cancel, runSteps,
          ProtocolRun.leave, hexit]

theorem isViolated_iff : s.isViolated = true ↔ ∃ msg, .violated msg ∈ s.log := by
  simp only [isViolated, List.any_eq_true, ClientEvent.isViolation_iff]
  exact ⟨fun ⟨_, hmem, msg, heq⟩ => ⟨msg, heq ▸ hmem⟩, fun ⟨msg, hmem⟩ => ⟨_, hmem, msg, rfl⟩⟩

/-- A violation stays in the log. -/
theorem isViolated_step (hviolated : s.isViolated = true) (hstep : s.step action = some next) :
    next.isViolated = true := by
  obtain ⟨new, hlog, -, -⟩ := (step_logs hstep).grows
  obtain ⟨msg, hmem⟩ := isViolated_iff.mp hviolated
  exact isViolated_iff.mpr ⟨msg, hlog ▸ List.mem_append_right new hmem⟩

/-- What the condition says of the state after the step. -/
theorem contained_answered (hok : s.contained action = true) (hstep : s.step action = some next)
    (hviolated : next.isViolated = true) : next.unanswered = false := by
  have hnext := (Bool.and_eq_true_iff.mp hok).2
  rw [hstep] at hnext
  simpa [hviolated] using hnext

/-- **Step lemma.**  The loop stays on its way to its end.  The steps of the client itself
bring it closer; of the others only a request sets it back, by the observer of its topic. -/
theorem Ends.step (h : s.Ends msg) (hviolated : s.isViolated = true)
    (hok : s.contained action = true) (hstep : s.step action = some next) :
    next.Ends msg ∧
      next.remaining + action.isOwn.toNat ≤ s.remaining + action.isRequest.toNat := by
  have hwaits := contained_answered hok hstep (isViolated_step hviolated hstep)
  have hcondition := (Bool.and_eq_true_iff.mp (Bool.and_eq_true_iff.mp hok).1).2
  have hreading := h.run.not_reading
  cases action with
  | create sub =>
      cases hstep
      exact h.aside (n := 0) hwaits rfl rfl (Nat.le_refl _)
  | start i =>
      obtain ⟨sub, -, rfl⟩ := Option.map_eq_some_iff.mp hstep
      have hframe : (s.start i sub).run = s.run ∧ (s.start i sub).loop = s.loop ∧
          (s.start i sub).topics = s.topics := by
        unfold start
        split <;> exact ⟨rfl, rfl, rfl⟩
      exact h.aside (n := 0) hwaits hframe.1 hframe.2.1 (hframe.2.2 ▸ Nat.le_refl _)
  | stop i cancelled =>
      obtain ⟨sub, -, rfl⟩ := Option.map_eq_some_iff.mp hstep
      have hframe : (s.stop i sub cancelled).run = s.run ∧
          (s.stop i sub cancelled).loop = s.loop ∧ (s.stop i sub cancelled).topics = s.topics := by
        unfold stop
        split
        · exact ⟨rfl, rfl, rfl⟩
        · simp only
          split <;> exact ⟨rfl, rfl, rfl⟩
      exact h.aside (n := 0) hwaits hframe.1 hframe.2.1 (hframe.2.2 ▸ Nat.le_refl _)
  | detach i =>
      obtain ⟨sub, -, rfl⟩ := Option.map_eq_some_iff.mp hstep
      have hframe : (s.detach i sub).run = s.run ∧ (s.detach i sub).loop = s.loop ∧
          (s.detach i sub).topics = s.topics := by
        unfold detach
        split
        · exact ⟨rfl, rfl, rfl⟩
        · simp only
          split <;> exact ⟨rfl, rfl, rfl⟩
      exact h.aside (n := 0) hwaits hframe.1 hframe.2.1 (hframe.2.2 ▸ Nat.le_refl _)
  | letIn c =>
      obtain ⟨call, -, hstep⟩ := Option.bind_eq_some_iff.mp hstep
      obtain ⟨hrun, hloop, htopics⟩ := letIn_frame hstep
      exact h.aside (n := 0) hwaits hrun hloop (htopics ▸ Nat.le_refl _)
  | finish c outcome =>
      obtain ⟨call, -, hstep⟩ := Option.bind_eq_some_iff.mp hstep
      obtain ⟨hrun, hloop, htopics⟩ := finish_frame hstep
      exact h.aside (n := 0) hwaits hrun hloop (htopics ▸ Nat.le_refl _)
  | request topic =>
      cases hstep
      exact h.aside (n := 1) hwaits rfl rfl (Nat.le_refl _)
  | release topic =>
      cases hstep
      exact h.aside (n := 0) hwaits rfl rfl (List.length_erase_le ..)
  | beginRun =>
      obtain ⟨hclosed, -⟩ := Option.ite_none_left_eq_some.mp hstep
      rw [h.run.1, Bool.true_or] at hclosed
      exact absurd rfl hclosed
  | inbound action =>
      obtain ⟨flow, -, ⟨-, hread, rfl⟩ | ⟨-, rfl⟩⟩ := inbound_cases hstep
      · rw [hreading] at hread
        cases hread
      · exact h.aside (n := 0) hwaits rfl rfl (Nat.le_refl _)
  | packet size =>
      obtain ⟨htaking, -⟩ := Option.ite_none_right_eq_some.mp hstep
      rw [taking, hreading] at htaking
      cases htaking
  | readFails error =>
      obtain ⟨htaking, -⟩ := Option.ite_none_right_eq_some.mp hstep
      rw [taking, hreading] at htaking
      cases htaking
  | endAbort => exact h.endAbort hwaits hstep
  | pingFails error =>
      refine h.pingFails hwaits ?_ hstep
      simpa [hviolated] using hcondition
  | exitRun => exact h.exitRun hwaits hstep
  | resume => exact h.resume hwaits hstep
  | resubscribe =>
      have hanswered := h.waits
      have hstep : s.resubscribe = some next := hstep
      unfold Client.resubscribe at hstep
      split at hstep
      · rename_i hphase
        rw [unanswered, hphase] at hanswered
        cases hanswered
      · cases hstep
  | suback granted =>
      obtain ⟨htaking, -⟩ := suback_cases hstep
      rw [taking, hreading] at htaking
      cases htaking
  | endResubscribe outcome =>
      refine h.endResubscribe hwaits ?_ hstep
      simpa [hviolated] using hcondition
  | observerReady topic =>
      obtain ⟨-, heq⟩ := Option.ite_none_right_eq_some.mp hstep
      cases heq
      exact h.aside (n := 0) hwaits rfl rfl (Nat.le_refl _)
  | observed error => exact h.observed hwaits hstep
  | attempt met sessionPresent =>
      have hstep : s.attempt met sessionPresent = some next := hstep
      unfold Client.attempt at hstep
      split at hstep
      · rename_i failures pending hphase
        exact absurd hphase (h.not_connecting failures pending)
      · cases hstep
  | disconnect =>
      cases hstep
      exact h.disconnect (by simpa [hviolated] using hcondition)

/-! ## The broker exceeds a limit -/

/-- A PUBLISH over the Receive Maximum ends the inbound flow with the error that is due. -/
theorem quotaExceeded_ended {flow next : InboundPublishFlow} {action : InboundPublishFlow.Action}
    (hquota : quotaExceeded flow action = some msg) (hstep : flow.step action = some next) :
    next.ended = some (.protocolError msg) := by
  cases action with
  | publish packet claim write =>
      obtain ⟨-, heq⟩ := Option.ite_none_right_eq_some.mp hstep
      cases heq
      obtain ⟨hqos, hquota⟩ := Option.ite_none_left_eq_some.mp hquota
      obtain ⟨pid, hpid, hquota⟩ := Option.bind_eq_some_iff.mp hquota
      obtain ⟨limit, hlimit, hquota⟩ := Option.bind_eq_some_iff.mp hquota
      obtain ⟨hlt, hmsg⟩ := Option.ite_none_right_eq_some.mp hquota
      -- both handlers begin with the quota
      have hheld : (flow.receive packet).holdReceiveQuota pid =
          (((flow.receive packet).addUnacknowledged pid).emit (.aborted (some 0x93)),
            some (.protocolError msg)) := by
        unfold InboundPublishFlow.holdReceiveQuota
        have hmax : ((flow.receive packet).addUnacknowledged pid).receiveMaximum = some limit := hlimit
        have hcard : limit < ((flow.receive packet).addUnacknowledged pid).unacknowledged.card := hlt
        simp only [hmax, if_pos hcard]
        cases hmsg
        rfl
      have hraised : (flow.handlePublish packet claim write).2 = .raised (.protocolError msg) := by
        unfold InboundPublishFlow.handlePublish
        cases hq : packet.qos with
        | atMostOnce => exact absurd hq hqos
        | atLeastOnce => simp only [InboundPublishFlow.handleQos1Publish, hpid, hheld]
        | exactlyOnce => simp only [InboundPublishFlow.handleQos2Publish, hpid, hheld]
      generalize hhandled : flow.handlePublish packet claim write = handled at hraised ⊢
      obtain ⟨after, frame⟩ := handled
      cases hraised
      rfl
  | _ => cases hquota

/-- The loop is on its way to its end when the broker exceeds a limit. -/
theorem Ends.violated (hviolation : s.violation action = some msg)
    (hok : s.contained action = true) (hwaits : next.unanswered = false)
    (hstep : s.step action = some next) : next.Ends msg := by
  have hcondition := (Bool.and_eq_true_iff.mp (Bool.and_eq_true_iff.mp hok).1).1
  rw [hviolation] at hcondition
  obtain ⟨hstays, hfailure⟩ : s.loop.isLeaving = false ∧ s.run.failure = none := by
    simpa using hcondition
  cases action with
  | inbound action =>
      have hquota : quotaExceeded s.inbound action = some msg := hviolation
      cases action with
      | publish packet claim write =>
          obtain ⟨hread, hstep⟩ := Option.ite_none_right_eq_some.mp hstep
          obtain ⟨flow, hflow, rfl⟩ := Option.map_eq_some_iff.mp hstep
          have hended := quotaExceeded_ended hquota hflow
          have hafter : s.afterPacket (.publish packet claim write) flow =
              { s.emit (.violated msg) with
                inbound := flow
                run := { s.run with reader := .aborting (.protocolError msg) } } := by
            simp only [afterPacket, hquota, hended]
            rfl
          simp only [reading, Bool.and_eq_true, Option.isNone_iff_eq_none] at hread
          rw [hafter] at hwaits ⊢
          exact ⟨⟨hread.1.1, Or.inl ⟨rfl, hfailure, hread.2⟩⟩, Or.inl hstays, hwaits⟩
      | _ => cases hquota
  | packet size =>
      obtain ⟨hread, heq⟩ := Option.ite_none_right_eq_some.mp hstep
      cases heq
      obtain ⟨limit, hlimit, hmsg⟩ := Option.bind_eq_some_iff.mp hviolation
      obtain ⟨hlt, hmsg⟩ := Option.ite_none_right_eq_some.mp hmsg
      cases hmsg
      have hafter : s.packet size = { s.emit (.violated (oversized size limit)) with
          run := { s.run with reader := .aborting (.protocolError (oversized size limit)) } } := by
        simp only [packet, hlimit, if_pos hlt]
      simp only [taking, reading, Bool.and_eq_true, Option.isNone_iff_eq_none] at hread
      rw [hafter] at hwaits ⊢
      exact ⟨⟨hread.1.1.1, Or.inl ⟨rfl, hfailure, hread.1.2⟩⟩, Or.inl hstays, hwaits⟩
  | _ => cases hviolation

/-- The invariant: after a violation the loop is on its way to its end, and no attempt to
connect was made. -/
structure Stops (s : Client) : Prop where
  ends : ∀ msg, .violated msg ∈ s.log → s.Ends msg
  log : History.Each (fun event earlier => event = .attempted →
    ∀ msg, .violated msg ∉ earlier) s.log

theorem Stops.step (h : s.Stops) (hok : s.contained action = true)
    (hstep : s.step action = some next) : next.Stops := by
  obtain ⟨new, hlog, hviolations, hattempts⟩ := (step_logs hstep).grows
  constructor
  · intro msg hmem
    rw [hlog] at hmem
    rcases List.mem_append.mp hmem with hnew | hold
    · have hmem : .violated msg ∈ next.log := hlog ▸ List.mem_append_left _ hnew
      have hwaits := contained_answered hok hstep (isViolated_iff.mpr ⟨msg, hmem⟩)
      exact Ends.violated (hviolations msg hnew) hok hwaits hstep
    · exact ((h.ends msg hold).step (isViolated_iff.mpr ⟨msg, hold⟩) hok hstep).1
  · rw [hlog]
    -- an attempt is made in `connecting` only, which a loop on its way to its end never is
    have hquiet : .attempted ∈ new → ∀ msg, .violated msg ∉ s.log := by
      intro hmem msg hviolated
      obtain ⟨failures, pending, hloop⟩ := hattempts hmem
      exact (h.ends msg hviolated).not_connecting failures pending hloop
    have hone : .attempted ∈ new → ∀ msg, .violated msg ∉ new := by
      intro hmem msg hviolated
      obtain ⟨failures, pending, hloop⟩ := hattempts hmem
      have hviolation := hviolations msg hviolated
      have hcondition := (Bool.and_eq_true_iff.mp (Bool.and_eq_true_iff.mp hok).1).1
      rw [hviolation, hloop] at hcondition
      cases hcondition
    have heach : ∀ later, (∀ event ∈ later, event ∈ new) →
        History.Each (fun event earlier => event = .attempted →
          ∀ msg, .violated msg ∉ earlier) (later ++ s.log) := by
      intro later
      induction later with
      | nil => exact fun _ => h.log
      | cons event rest ih =>
          intro hsub
          refine ⟨?_, ih fun other hother => hsub other (List.mem_cons_of_mem _ hother)⟩
          rintro rfl msg hviolated
          have hattempted := hsub _ List.mem_cons_self
          rcases List.mem_append.mp hviolated with hrest | hold
          · exact hone hattempted msg (hsub _ (List.mem_cons_of_mem _ hrest))
          · exact hquiet hattempted msg hold
    exact heach new fun _ hevent => hevent

/-- Every continuation has at most as many steps of the client itself as are left, and one
more for each new request. -/
theorem Ends.bounded {actions : List Action} (h : s.Ends msg) (hviolated : s.isViolated = true)
    (hok : Transition.Along Client.step (fun s action => s.contained action = true) s actions)
    (hrun : Transition.run Client.step s actions = some next) :
    next.remaining + actions.countP Action.isOwn ≤
      s.remaining + actions.countP Action.isRequest := by
  induction actions generalizing s with
  | nil =>
      cases hrun
      exact Nat.le_refl _
  | cons action rest ih =>
      obtain ⟨mid, hmid, hrest⟩ := Option.bind_eq_some_iff.mp hrun
      obtain ⟨hcontained, halong⟩ := hok
      rw [hmid] at halong
      obtain ⟨hends, hcloser⟩ := h.step hviolated hcontained hmid
      have hbound := ih hends (isViolated_step hviolated hmid) halong hrest
      have hcount : ∀ P : Action → Bool,
          (action :: rest).countP P = rest.countP P + (P action).toNat := by
        intro P
        rw [List.countP_cons]
        cases P action <;> rfl
      rw [hcount, hcount]
      omega

theorem remaining_le (s : Client) : s.remaining ≤ 5 + s.topicsLeft := by
  have hrun : runSteps s.run ≤ 2 := by
    unfold runSteps
    split
    · omega
    · split <;> omega
  have hloop : loopSteps s.loop ≤ 3 := by
    cases s.loop <;> simp [loopSteps]
  unfold remaining
  omega

end Client

/-- **A limit violation is terminal.**  In every run that meets the condition, once the
broker has exceeded a limit: no attempt to connect follows, the loop ends with no other
exception than the protocol error of that limit, as long as it has not ended one of the
steps of the client itself is enabled, and there are at most five of these and one for each
response topic to restore. -/
theorem limit_violation_terminal (config : ClientConfig) (sessionPresent : Bool)
    (actions : List Client.Action) (s : Client) (msg : String)
    (hrun : Transition.run Client.step (Client.opened config sessionPresent) actions = some s)
    (hok : Transition.Along Client.step (fun s action => s.contained action = true)
      (Client.opened config sessionPresent) actions)
    (hviolated : .violated msg ∈ s.log) :
    (∀ later earlier, s.log = later ++ .violated msg :: earlier → .attempted ∉ later) ∧
      (∀ error, s.loop = .ended error → error = .protocolError msg) ∧
      ((∃ error, s.loop = .ended error) ∨
        ∃ action next, action.isOwn = true ∧ s.step action = some next) ∧
      ∀ more t, Transition.Along Client.step (fun s action => s.contained action = true) s more →
        Transition.run Client.step s more = some t →
        more.countP Client.Action.isOwn ≤
          5 + s.topicsLeft + more.countP Client.Action.isRequest := by
  have h : s.Stops := Transition.invariant_along (fun _ _ _ h hok hstep => h.step hok hstep)
    (s := Client.opened config sessionPresent) ⟨fun _ h => (List.not_mem_nil h).elim, trivial⟩ hok hrun
  have hends := h.ends msg hviolated
  refine ⟨?_, ?_, ?_, ?_⟩
  · intro later earlier hlog hattempted
    obtain ⟨newer, older, rfl⟩ := List.append_of_mem hattempted
    have hlogged := h.log
    rw [hlog, List.append_assoc] at hlogged
    exact hlogged.at rfl msg (List.mem_append_right _ List.mem_cons_self)
  · intro error hloop
    rcases hends.loop with hstays | ⟨-, hphase | hphase⟩
    · rw [hloop] at hstays
      cases hstays
    · rw [hloop] at hphase
      cases hphase
    · rw [hloop] at hphase
      cases hphase
      rfl
  · cases hend : s.loop.isEnded with
    | true =>
        cases hloop : s.loop with
        | ended error => exact Or.inl ⟨error, rfl⟩
        | _ =>
            rw [hloop] at hend
            cases hend
    | false => exact Or.inr (hends.enabled hend)
  · intro more t hmore hrest
    have hbound := hends.bounded (Client.isViolated_iff.mpr ⟨msg, hviolated⟩) hmore hrest
    have hle := s.remaining_le
    omega

/-- Two QoS 1 messages that nobody has acknowledged. -/
def sampleExcess : List Client.Action :=
  [.inbound (.publish (samplePublish .atLeastOnce 7) none .done),
    .inbound (.publish (samplePublish .atLeastOnce 8) none .done)]

/-- The loop waits for `run` when the broker exceeds a Receive Maximum of one. -/
theorem limit_violation_terminal_awaiting :
    ∃ s, Transition.run Client.step (Client.opened { receiveMaximum := some 1 } true)
        ([.beginRun, .resume] ++ sampleExcess ++ [.endAbort, .exitRun, .resume, .resume]) = some s ∧
      s.loop = .ended (.protocolError
        "Broker exceeded the Receive Maximum of 1 unacknowledged QoS 1/2 messages") ∧
      ∀ later earlier, s.log = later ++ .violated
        "Broker exceeded the Receive Maximum of 1 unacknowledged QoS 1/2 messages" :: earlier →
          .attempted ∉ later := by
  refine ⟨_, rfl, rfl, ?_⟩
  exact (limit_violation_terminal { receiveMaximum := some 1 } true
    ([.beginRun, .resume] ++ sampleExcess ++ [.endAbort, .exitRun, .resume, .resume]) _ _ rfl
    (by decide) (by decide)).1

/-- The run up to the wait of a re-subscription for SUBACK. -/
def sampleResubscription : List Client.Action :=
  [.create { filters := [str "a"] }, .start 0, .letIn 0, .finish 0 .granted, .beginRun, .resume,
    .readFails .disconnected, .exitRun, .resume, .resume, .resume, .attempt .accepted true,
    .beginRun, .resume, .resubscribe]

/-- The SUBACK has arrived when the broker exceeds the limit: the client does not connect. -/
example : (Transition.run Client.step (Client.opened { receiveMaximum := some 1 } true)
    (sampleResubscription ++ [.suback true] ++ sampleExcess ++
      [.endAbort, .endResubscribe .granted, .exitRun, .resume, .resume])).map Client.loop =
    some (.ended (.protocolError
      "Broker exceeded the Receive Maximum of 1 unacknowledged QoS 1/2 messages")) := by rfl

/-- The broker exceeds the limit during a re-subscription: the client connects again. -/
theorem violation_during_restoration_reconnects :
    ∃ s later earlier, Transition.run Client.step (Client.opened { receiveMaximum := some 1 } true)
        (sampleResubscription ++ sampleExcess ++
          [.endAbort, .exitRun, .endResubscribe (.failed .disconnected), .resume, .resume,
            .attempt .accepted true]) = some s ∧
      s.log = later ++ .violated
        "Broker exceeded the Receive Maximum of 1 unacknowledged QoS 1/2 messages" :: earlier ∧
      .attempted ∈ later ∧ s.loop = .starting [0] := by
  refine ⟨_, [.attempted, .reconnecting], _, rfl, rfl, ?_, rfl⟩
  decide

end Zmqtt
