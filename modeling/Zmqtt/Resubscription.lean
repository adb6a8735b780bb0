import Zmqtt.LimitViolation
import Zmqtt.Transition

/-!
# The subscriptions that are restored

`_subscriptions` is the list the run loop restores from, copied once when a connection is
lost.  `start()` puts a subscription in the list before it asks the broker, and takes it
out again neither when the broker rejects it nor when the call fails.  The copy is not
looked at again, except for the flag `detached` at the turn of a subscription.

So the list has the subscriptions that are started, and those whose `start()` failed or is in
progress.  The copy is right when there is none of the latter, and stays right as long as no
subscription of it is stopped before its turn.
-/

namespace Zmqtt

/-! ## The most recent start -/

/-- The subscription that an event is about. -/
def ClientEvent.subject : ClientEvent → Option Nat
  | .starting i => some i
  | .started i => some i
  | .startFailed i => some i
  | .stopped i => some i
  | .detached i => some i
  | _ => none

/-- The most recent `start()` of the subscription returned normally, and it was not
stopped, exited or detached since.  The newest event of the log comes first. -/
def isStarted (i : Nat) : List ClientEvent → Bool
  | [] => false
  | event :: earlier =>
      if event.subject = some i then event = .started i else isStarted i earlier

/-- The most recent `start()` of the subscription failed, was rejected or is in progress, and
it was not stopped, exited or detached since. -/
def isUnfinished (i : Nat) : List ClientEvent → Bool
  | [] => false
  | event :: earlier =>
      if event.subject = some i then decide (event = .starting i ∨ event = .startFailed i)
      else isUnfinished i earlier

theorem isStarted_other {i : Nat} {event : ClientEvent} (h : event.subject ≠ some i)
    (earlier : List ClientEvent) : isStarted i (event :: earlier) = isStarted i earlier :=
  if_neg h

/-- Events that are about no subscription. -/
theorem isStarted_aside {event : ClientEvent} (h : event.subject = none) (i : Nat)
    (earlier : List ClientEvent) : isStarted i (event :: earlier) = isStarted i earlier :=
  isStarted_other (by simp [h]) earlier

theorem isUnfinished_other {i : Nat} {event : ClientEvent} (h : event.subject ≠ some i)
    (earlier : List ClientEvent) : isUnfinished i (event :: earlier) = isUnfinished i earlier :=
  if_neg h

theorem exists_of_isUnfinished {i : Nat} {log : List ClientEvent} (h : isUnfinished i log = true) :
    ∃ event ∈ log, event.subject = some i := by
  induction log with
  | nil => cases h
  | cons event earlier ih =>
      by_cases hsubject : event.subject = some i
      · exact ⟨event, List.mem_cons_self, hsubject⟩
      · rw [isUnfinished_other hsubject] at h
        obtain ⟨other, hother, hsubject⟩ := ih h
        exact ⟨other, List.mem_cons_of_mem _ hother, hsubject⟩

/-- Of the subscriptions that were started when the list was copied, those that are not
detached still wait for their turn or were sent to the broker. -/
def Due (detached : Nat → Bool) (waiting : List Nat) (log : List ClientEvent) : Prop :=
  ∀ since before, log = since ++ .reconnecting :: before → .reconnecting ∉ since →
    ∀ i, isStarted i before = true →
      i ∈ waiting ∨ .resubscribed i ∈ since ∨ detached i = true

/-- What the log has to say: SUBSCRIBE is sent again only for a started subscription, and
at the end of a restoration it was sent for each one that was started when the list was
copied and is started still. -/
def Restored (event : ClientEvent) (earlier : List ClientEvent) : Prop :=
  match event with
  | .resubscribed i => isStarted i earlier = true
  | .restored => ∀ since before, earlier = since ++ .reconnecting :: before →
      .reconnecting ∉ since → ∀ i, isStarted i before = true → isStarted i earlier = true →
        .resubscribed i ∈ since
  | _ => True

theorem restored_subject {event : ClientEvent} {i : Nat} (h : event.subject = some i)
    (earlier : List ClientEvent) : Restored event earlier := by
  cases event <;> trivial

theorem Due.cons {detached : Nat → Bool} {waiting : List Nat} {log : List ClientEvent}
    (h : Due detached waiting log) {event : ClientEvent} (hevent : event ≠ .reconnecting) :
    Due detached waiting (event :: log) := by
  intro since before hlog hsince i hi
  cases since with
  | nil => exact absurd (List.cons.inj hlog).1 hevent
  | cons first rest =>
      obtain ⟨rfl, hrest⟩ := List.cons.inj hlog
      refine (h rest before hrest (fun hmem => hsince (List.mem_cons_of_mem _ hmem)) i hi).imp_right ?_
      exact Or.imp_left (List.mem_cons_of_mem _)

theorem Due.mono {detached detached' : Nat → Bool} {waiting waiting' : List Nat}
    {log : List ClientEvent} (h : Due detached waiting log)
    (hdetached : ∀ i, detached i = true → detached' i = true)
    (hwaiting : ∀ i ∈ waiting, i ∈ waiting' ∨ detached' i = true) :
    Due detached' waiting' log := by
  intro since before hlog hsince i hi
  rcases h since before hlog hsince i hi with hmem | hmem | hflag
  · rcases hwaiting i hmem with hmem | hflag
    · exact Or.inl hmem
    · exact Or.inr (Or.inr hflag)
  · exact Or.inr (Or.inl hmem)
  · exact Or.inr (Or.inr (hdetached i hflag))

/-- The subscription whose turn it is was sent to the broker. -/
theorem Due.resubscribed {detached : Nat → Bool} {waiting : List Nat} {log : List ClientEvent}
    {i : Nat} (h : Due detached (i :: waiting) log) :
    Due detached waiting (.resubscribed i :: log) := by
  intro since before hlog hsince j hj
  cases since with
  | nil => cases (List.cons.inj hlog).1
  | cons first rest =>
      obtain ⟨rfl, hrest⟩ := List.cons.inj hlog
      rcases h rest before hrest (fun hmem => hsince (List.mem_cons_of_mem _ hmem)) j hj with
        hmem | hmem | hflag
      · rcases List.mem_cons.mp hmem with rfl | hmem
        · exact Or.inr (Or.inl List.mem_cons_self)
        · exact Or.inl hmem
      · exact Or.inr (Or.inl (List.mem_cons_of_mem _ hmem))
      · exact Or.inr (Or.inr hflag)

/-- The list is copied. -/
theorem Due.copied {detached : Nat → Bool} {waiting : List Nat} {log : List ClientEvent}
    (h : ∀ i, isStarted i log = true → i ∈ waiting) :
    Due detached waiting (.reconnecting :: log) := by
  intro since before hlog hsince i hi
  cases since with
  | nil =>
      obtain ⟨-, rfl⟩ := List.cons.inj hlog
      exact Or.inl (h i hi)
  | cons first rest =>
      obtain ⟨rfl, -⟩ := List.cons.inj hlog
      exact absurd List.mem_cons_self hsince

namespace LoopPhase

/-- The subscriptions for which the loop is still to send SUBSCRIBE. -/
def waiting : LoopPhase → Option (List Nat)
  | .starting pending => some pending
  | .resubscribing i none pending => some (i :: pending)
  | .resubscribing _ (some _) pending => some pending
  | .connecting _ pending => some pending
  | _ => none

/-- The subscription whose re-subscription waits for its guards. -/
def entering : LoopPhase → Option Nat
  | .resubscribing i none _ => some i
  | _ => none

theorem mem_waiting_of_entering {loop : LoopPhase} {i : Nat} (h : loop.entering = some i) :
    ∃ waiting, loop.waiting = some waiting ∧ i ∈ waiting := by
  cases loop with
  | resubscribing j registered pending =>
      cases registered with
      | none =>
          cases h
          exact ⟨_, rfl, List.mem_cons_self⟩
      | some new => cases h
  | _ => cases h

end LoopPhase

namespace Client

variable {s next : Client} {i : Nat}

/-- The subscriptions with a `start` in progress. -/
def underway (s : Client) : List Nat :=
  s.calls.filterMap fun call => if call.starts then some call.subscription else none

/-- The loop is still to send SUBSCRIBE for the subscription. -/
def isWaiting (s : Client) (i : Nat) : Bool := s.loop.waiting.any fun waiting => waiting.contains i

/-- No `start()` that failed, was rejected or is in progress has been left without a `stop()`
or `detach()`; one that was refused because the subscription is detached does not count. -/
def allFinished (s : Client) : Bool :=
  s.log.all fun event => event.subject.all fun i => s.isDetached i || !isUnfinished i s.log

/-- The condition on a run.  A subscription is started only when it is not in the list,
and leaves it only when no `start` of it is in progress.  When the list is copied, no `start()`
is unfinished.  Then none of the copy is stopped while it waits for its turn, and none is
detached while its re-subscription waits for its guards. -/
def timely (s : Client) : Action → Bool
  | .start i => !s.subscriptions.contains i
  | .stop i _ => !s.subscriptions.contains i || (!s.underway.contains i && !s.isWaiting i)
  | .detach i => !s.subscriptions.contains i || (!s.underway.contains i && s.loop.entering ≠ some i)
  | .resume => s.loop ≠ .cleaning none || s.allFinished
  | _ => true

/-- The invariant. -/
structure Restores (s : Client) : Prop where
  listed : ∀ i, isStarted i s.log = true → i ∈ s.subscriptions
  nodup : s.subscriptions.Nodup
  known : ∀ i ∈ s.subscriptions, isStarted i s.log = true ∨ isUnfinished i s.log = true
  attached : ∀ i ∈ s.subscriptions, s.isDetached i = false
  starting : ∀ i ∈ s.underway, i ∈ s.subscriptions ∧ isStarted i s.log = false
  single : s.underway.Nodup
  waiting : ∀ waiting, s.loop.waiting = some waiting → ∀ i ∈ waiting,
    isStarted i s.log = true ∨ s.isDetached i = true
  entering : ∀ i, s.loop.entering = some i → isStarted i s.log = true
  due : ∀ waiting, s.loop.waiting = some waiting → Due s.isDetached waiting s.log
  log : History.Each Restored s.log

/-- Steps that leave all this as it is. -/
theorem Restores.same (h : s.Restores) (hsubscriptions : next.subscriptions = s.subscriptions)
    (hdetached : next.isDetached = s.isDetached) (hunderway : next.underway = s.underway)
    (hloop : next.loop = s.loop) (hlog : next.log = s.log) : next.Restores := by
  constructor
  · rw [hsubscriptions, hlog]
    exact h.listed
  · rw [hsubscriptions]
    exact h.nodup
  · rw [hsubscriptions, hlog]
    exact h.known
  · rw [hsubscriptions, hdetached]
    exact h.attached
  · rw [hunderway, hsubscriptions, hlog]
    exact h.starting
  · rw [hunderway]
    exact h.single
  · rw [hloop, hlog, hdetached]
    exact h.waiting
  · rw [hloop, hlog]
    exact h.entering
  · rw [hloop, hlog, hdetached]
    exact h.due
  · rw [hlog]
    exact h.log

/-- An event that is about no subscription. -/
theorem Restores.emit (h : s.Restores) {e : ClientEvent} (hsubject : e.subject = none)
    (hevent : e ≠ .reconnecting) (hrestored : Restored e s.log) :
    (s.emit e).Restores := by
  have hlog : ∀ i, isStarted i (e :: s.log) = isStarted i s.log := fun i =>
    isStarted_aside hsubject i s.log
  refine ⟨fun i hi => h.listed i ?_, h.nodup, fun i hi => ?_, h.attached, fun i hi => ?_, h.single,
    fun waiting hwaiting i hi => ?_, fun i hi => ?_, fun waiting hwaiting => ?_, hrestored, h.log⟩
  · rw [← hlog i]
    exact hi
  · rw [Client.emit, hlog i, isUnfinished_other (by simp [hsubject])]
    exact h.known i hi
  · refine (h.starting i hi).imp_right fun hnot => ?_
    rw [← hnot]
    exact hlog _
  · refine (h.waiting waiting hwaiting i hi).imp_left fun hstarted => ?_
    rw [← hstarted]
    exact hlog _
  · rw [← h.entering i hi]
    exact hlog _
  · exact (h.due waiting hwaiting).cons hevent

/-- The loop goes on to a phase in which nothing is left to restore. -/
theorem Restores.setLoop_past (h : s.Restores) {l : LoopPhase} (hwaiting : l.waiting = none) :
    (s.setLoop l).Restores := by
  refine ⟨h.listed, h.nodup, h.known, h.attached, h.starting, h.single, ?_, ?_, ?_, h.log⟩
  · intro waiting hsome
    exact absurd (hwaiting.symm.trans hsome) (by simp)
  · intro i hi
    obtain ⟨waiting, hsome, -⟩ := LoopPhase.mem_waiting_of_entering hi
    exact absurd (hwaiting.symm.trans hsome) (by simp)
  · intro waiting hsome
    exact absurd (hwaiting.symm.trans hsome) (by simp)

/-- The loop goes on and still has the same subscriptions to restore. -/
theorem Restores.setLoop_same (h : s.Restores) {loop : LoopPhase}
    (hwaiting : loop.waiting = s.loop.waiting) (hentering : loop.entering = none) :
    (s.setLoop loop).Restores := by
  refine ⟨h.listed, h.nodup, h.known, h.attached, h.starting, h.single, ?_, ?_, ?_, h.log⟩
  · intro waiting hsome
    exact h.waiting waiting (hwaiting ▸ hsome)
  · intro i hi
    exact absurd (hentering.symm.trans hi) (by simp)
  · intro waiting hsome
    exact h.due waiting (hwaiting ▸ hsome)

/-! ## The loop -/

theorem waiting_restoreTopics (s : Client) (topics : List Str) :
    (s.restoreTopics topics).waiting = none := by
  induction topics with
  | nil => rfl
  | cons topic rest ih =>
      rw [restoreTopics]
      split
      · rfl
      · exact ih

/-- The turns from a subscription on.  The loop stops at the first one that is not
detached, or is past the subscriptions. -/
theorem Restores.restoreFrom {pending : List Nat} (h : s.Restores)
    (hwaiting : s.loop.waiting = some pending) : (s.restoreFrom pending).Restores := by
  -- the induction is on the turns; what is waiting shrinks by detached subscriptions only
  suffices hturns : ∀ rest, (∀ i ∈ pending, i ∈ rest ∨ s.isDetached i = true) →
      (∀ i ∈ rest, i ∈ pending) → (s.restoreFrom rest).Restores from
    hturns pending (fun i hi => Or.inl hi) fun i hi => hi
  have hdue := h.due pending hwaiting
  intro rest
  induction rest with
  | nil =>
      intro hpassed _
      refine Restores.setLoop_past (s := s.emit .restored) (h.emit rfl (by simp) ?_)
        (waiting_restoreTopics s _)
      intro since before hlog hsince i hbefore hnow
      rcases hdue since before hlog hsince i hbefore with hmem | hmem | hflag
      · rcases hpassed i hmem with hmem | hflag
        · cases hmem
        · rw [h.attached i (h.listed i hnow)] at hflag
          cases hflag
      · exact hmem
      · rw [h.attached i (h.listed i hnow)] at hflag
        cases hflag
  | cons i rest ih =>
      intro hpassed hmem
      rw [Client.restoreFrom]
      split
      · rename_i hflag
        refine ih (fun j hj => ?_) fun j hj => hmem j (List.mem_cons_of_mem _ hj)
        rcases hpassed j hj with hj | hj
        · rcases List.mem_cons.mp hj with rfl | hj
          · exact Or.inr hflag
          · exact Or.inl hj
        · exact Or.inr hj
      · rename_i hflag
        have hstarted : isStarted i s.log = true :=
          (h.waiting pending hwaiting i (hmem i List.mem_cons_self)).resolve_right hflag
        refine ⟨h.listed, h.nodup, h.known, h.attached, h.starting, h.single, ?_, ?_, ?_, h.log⟩
        · intro waiting hsome j hj
          cases hsome
          exact h.waiting pending hwaiting j (hmem j hj)
        · intro j hj
          cases hj
          exact hstarted
        · intro waiting hsome
          cases hsome
          exact hdue.mono (fun _ h => h) hpassed

theorem Restores.clean (h : s.Restores) (error : Option RunError) : (s.clean error).Restores :=
  (h.setLoop_past (l := .cleaning error) rfl).same rfl rfl rfl rfl rfl

theorem Restores.raiseInLoop (h : s.Restores) (error : RunError) :
    (s.raiseInLoop error).Restores := by
  unfold Client.raiseInLoop
  split
  · exact h.setLoop_past rfl
  · exact h.clean _

/-! ## The application -/

/-- An event about a subscription, with the changes that go with it. -/
theorem Restores.subject (h : s.Restores) {e : ClientEvent}
    (hsubject : e.subject = some i) (hlog : next.log = e :: s.log)
    (hloop : next.loop = s.loop)
    (hother : ∀ j ∈ s.subscriptions, j ≠ i → j ∈ next.subscriptions)
    (hown : e = .started i → i ∈ next.subscriptions)
    (hback : ∀ j ∈ next.subscriptions, j ∈ s.subscriptions ∧ j ≠ i ∨
      j = i ∧ (e = .started i ∨ e = .starting i ∨ e = .startFailed i)) (hnodup : next.subscriptions.Nodup)
    (hattached : ∀ j ∈ next.subscriptions, next.isDetached j = false)
    (hdetached : ∀ j, s.isDetached j = true → next.isDetached j = true)
    (hunderway : ∀ j ∈ next.underway, (j ∈ s.underway ∧ j ≠ i) ∨
      (j = i ∧ i ∈ next.subscriptions ∧ e ≠ .started i))
    (hsingle : next.underway.Nodup)
    (hwaiting : ∀ waiting, s.loop.waiting = some waiting → i ∈ waiting →
      e = .started i ∨ next.isDetached i = true)
    (hentering : s.loop.entering = some i → e = .started i) : next.Restores := by
  have hself : isStarted i (e :: s.log) = decide (e = .started i) := if_pos hsubject
  have hrest : ∀ j, j ≠ i → isStarted j (e :: s.log) = isStarted j s.log := fun j hj =>
    isStarted_other (by rw [hsubject]; exact fun heq => hj (Option.some.inj heq).symm) s.log
  refine ⟨?_, hnodup, ?_, hattached, ?_, hsingle, ?_, ?_, ?_, ?_⟩
  · rw [hlog]
    intro j hj
    by_cases heq : j = i
    · subst heq
      rw [hself, decide_eq_true_iff] at hj
      exact hown hj
    · rw [hrest j heq] at hj
      exact hother j (h.listed j hj) heq
  · rw [hlog]
    intro j hj
    rcases hback j hj with ⟨hmem, heq⟩ | ⟨rfl, hevent⟩
    · rw [hrest j heq, isUnfinished_other (by rw [hsubject]; simpa using Ne.symm heq)]
      exact h.known j hmem
    · rw [hself, isUnfinished, if_pos hsubject, decide_eq_true_iff, decide_eq_true_iff]
      exact hevent
  · rw [hlog]
    intro j hj
    rcases hunderway j hj with ⟨hmem, heq⟩ | ⟨rfl, hlisted, hevent⟩
    · rw [hrest j heq]
      exact (h.starting j hmem).imp_left fun hlisted => hother j hlisted heq
    · rw [hself]
      exact ⟨hlisted, decide_eq_false hevent⟩
  · rw [hlog, hloop]
    intro waiting hsome j hj
    by_cases heq : j = i
    · subst heq
      rw [hself, decide_eq_true_iff]
      exact hwaiting waiting hsome hj
    · rw [hrest j heq]
      exact (h.waiting waiting hsome j hj).imp_right (hdetached j)
  · rw [hlog, hloop]
    intro j hj
    by_cases heq : j = i
    · subst heq
      rw [hself, decide_eq_true_iff]
      exact hentering hj
    · rw [hrest j heq]
      exact h.entering j hj
  · rw [hlog, hloop]
    intro waiting hsome
    refine ((h.due waiting hsome).cons ?_).mono hdetached fun j hj => Or.inl hj
    rintro rfl
    cases hsubject
  · rw [hlog]
    exact ⟨restored_subject hsubject s.log, h.log⟩

/-- A subscription that is not in the list is not started; it waits for its turn only if it
is detached. -/
theorem Restores.unlisted (h : s.Restores) (hi : i ∉ s.subscriptions) :
    (∀ waiting, s.loop.waiting = some waiting → i ∈ waiting → s.isDetached i = true) ∧
      s.loop.entering ≠ some i ∧ i ∉ s.underway := by
  refine ⟨fun waiting hsome hmem => ?_, fun hentering => ?_, fun hmem => ?_⟩
  · exact (h.waiting waiting hsome i hmem).resolve_left fun hstarted => hi (h.listed i hstarted)
  · exact hi (h.listed i (h.entering i hentering))
  · exact hi (h.starting i hmem).1

/-- A call without effect on a subscription that is not in the list. -/
theorem Restores.unaffected (h : s.Restores) (hi : i ∉ s.subscriptions) {event : ClientEvent}
    (hsubject : event.subject = some i) (hevent : event ≠ .started i) : (s.emit event).Restores := by
  obtain ⟨hwaiting, hentering, hunderway⟩ := h.unlisted hi
  refine h.subject hsubject rfl rfl (fun j hj _ => hj) (fun heq => absurd heq hevent)
    (fun j hj => Or.inl ⟨hj, fun heq => hi (heq ▸ hj)⟩) h.nodup h.attached (fun j hj => hj) (fun j hj => Or.inl ⟨hj, ?_⟩) h.single
    (fun waiting hsome hmem => Or.inr (hwaiting waiting hsome hmem))
    (fun heq => absurd heq hentering)
  rintro rfl
  exact hunderway hj

theorem isDetached_eq {sub : Subscription} (hsub : s.objects[i]? = some sub) :
    s.isDetached i = sub.detached := by
  rw [isDetached, hsub]
  rfl

theorem Restores.start (h : s.Restores) {sub : Subscription} (hsub : s.objects[i]? = some sub)
    (hok : s.timely (.start i) = true) : (s.start i sub).Restores := by
  have hi : i ∉ s.subscriptions := by simpa [timely] using hok
  obtain ⟨hwaiting, hentering, hunderway⟩ := h.unlisted hi
  unfold Client.start
  split
  · exact Restores.unaffected (s := s.emit (.starting i)) (h.unaffected hi rfl (by simp)) hi rfl (by simp)
  · rename_i hopen
    have hflag : s.isDetached i = false := by
      rw [isDetached_eq hsub]
      simp only [Bool.or_eq_true, not_or, Bool.not_eq_true] at hopen
      exact hopen.2
    have hnew : (s.calls ++ [{ starts := true, subscription := i, connection := s.connection }]
        : List SubscriptionCall).filterMap
          (fun call => if call.starts then some call.subscription else none) = s.underway ++ [i] :=
      List.filterMap_append
    refine h.subject (e := .starting i) rfl rfl rfl
      (fun j hj _ => List.mem_append_left _ hj) (by simp) ?_ ?_ ?_ (fun j hj => hj) ?_ ?_ ?_ ?_
    · intro j hj
      rcases List.mem_append.mp hj with hj | hj
      · exact Or.inl ⟨hj, fun heq => hi (heq ▸ hj)⟩
      · exact Or.inr ⟨List.mem_singleton.mp hj, Or.inr (Or.inl rfl)⟩
    · exact List.nodup_append.mpr ⟨h.nodup, List.nodup_singleton i, by
        rintro j hj k hk rfl
        cases List.mem_singleton.mp hk
        exact hi hj⟩
    · intro j hj
      rcases List.mem_append.mp hj with hj | hj
      · exact h.attached j hj
      · cases List.mem_singleton.mp hj
        exact hflag
    · intro j hj
      rw [underway, hnew] at hj
      rcases List.mem_append.mp hj with hold | hnow
      · refine Or.inl ⟨hold, ?_⟩
        rintro rfl
        exact hunderway hold
      · cases List.mem_singleton.mp hnow
        exact Or.inr ⟨rfl, List.mem_append_right _ (List.mem_singleton_self i), (by simp)⟩
    · rw [underway, hnew]
      exact List.nodup_append.mpr ⟨h.single, List.nodup_singleton i, by
        rintro j hj k hk rfl
        cases List.mem_singleton.mp hk
        exact hunderway hj⟩
    · intro waiting hsome hmem
      rw [hwaiting waiting hsome hmem] at hflag
      cases hflag
    · exact fun heq => absurd heq hentering

/-- A subscription leaves the list, `detached` or not. -/
theorem Restores.leave (h : s.Restores) {e : ClientEvent} (hsubject : e.subject = some i)
    (hevent : e ≠ .started i) (hlog : next.log = e :: s.log) (hloop : next.loop = s.loop)
    (hsubscriptions : next.subscriptions = s.subscriptions.erase i)
    (hunderway : next.underway = s.underway) (hidle : i ∉ s.underway)
    (hdetached : ∀ j, j ≠ i → next.isDetached j = s.isDetached j)
    (hflag : s.isDetached i = true → next.isDetached i = true)
    (hwaiting : ∀ waiting, s.loop.waiting = some waiting → i ∈ waiting →
      next.isDetached i = true)
    (hentering : s.loop.entering ≠ some i) : next.Restores := by
  refine h.subject hsubject hlog hloop ?_ (fun heq => absurd heq hevent) ?_ ?_ ?_ ?_ ?_ ?_ ?_ ?_
  · intro j hj hne
    rw [hsubscriptions]
    exact (List.mem_erase_of_ne hne).mpr hj
  · intro j hj
    rw [hsubscriptions, h.nodup.mem_erase_iff] at hj
    exact Or.inl hj.symm
  · rw [hsubscriptions]
    exact h.nodup.erase i
  · intro j hj
    rw [hsubscriptions, h.nodup.mem_erase_iff] at hj
    rw [hdetached j hj.1]
    exact h.attached j hj.2
  · intro j hj
    by_cases heq : j = i
    · subst heq
      exact hflag hj
    · rw [hdetached j heq]
      exact hj
  · intro j hj
    rw [hunderway] at hj
    refine Or.inl ⟨hj, ?_⟩
    rintro rfl
    exact hidle hj
  · rw [hunderway]
    exact h.single
  · exact fun waiting hsome hmem => Or.inr (hwaiting waiting hsome hmem)
  · exact fun heq => absurd heq hentering

theorem Restores.stop (h : s.Restores) {sub : Subscription} {cancelled : Bool}
    (hok : s.timely (.stop i cancelled) = true) : (s.stop i sub cancelled).Restores := by
  unfold Client.stop
  split
  · rename_i hi
    exact h.unaffected hi rfl (by simp)
  · rename_i hi
    have hidle : i ∉ s.underway ∧ s.isWaiting i = false := by
      simpa [timely, not_not.mp hi] using hok
    have hwaits : ∀ waiting, s.loop.waiting = some waiting → i ∉ waiting := by
      intro waiting hsome hmem
      have hnot := hidle.2
      rw [isWaiting, hsome] at hnot
      simp [hmem] at hnot
    have hleft : Restores { s.emit (.stopped i) with subscriptions := s.subscriptions.erase i } := by
      refine h.leave (e := .stopped i) rfl (by simp) rfl rfl rfl rfl hidle.1 (fun _ _ => rfl)
        (fun h => h) (fun waiting hsome hmem => absurd hmem (hwaits waiting hsome)) ?_
      intro hentering
      obtain ⟨waiting, hsome, hmem⟩ := LoopPhase.mem_waiting_of_entering hentering
      exact hwaits waiting hsome hmem
    simp only
    split
    · exact hleft
    · refine hleft.same rfl rfl ?_ rfl rfl
      simp [underway]

theorem isDetached_modify {f : Subscription → Subscription} (j : Nat)
    (hf : j = i → ∀ sub, (f sub).detached = sub.detached) :
    ({ s with objects := s.objects.modify i f } : Client).isDetached j = s.isDetached j := by
  unfold isDetached
  by_cases heq : i = j
  · subst heq
    rw [List.getElem?_modify_eq]
    cases s.objects[i]? with
    | none => rfl
    | some sub => exact hf rfl sub
  · rw [List.getElem?_modify_ne _ _ heq]

theorem Restores.detach (h : s.Restores) {sub : Subscription} (hsub : s.objects[i]? = some sub)
    (hok : s.timely (.detach i) = true) : (s.detach i sub).Restores := by
  unfold Client.detach
  split
  · rename_i hi
    exact h.unaffected hi rfl (by simp)
  · rename_i hi
    have hidle : i ∉ s.underway ∧ s.loop.entering ≠ some i := by
      simpa [timely, not_not.mp hi] using hok
    have hflag : ({ s with objects := s.objects.modify i fun sub => { sub with detached := true } }
        : Client).isDetached i = true := by
      rw [isDetached, List.getElem?_modify_eq, hsub]
      rfl
    have hleft : Restores { s.emit (.detached i) with
        subscriptions := s.subscriptions.erase i
        objects := s.objects.modify i fun sub => { sub with detached := true } } :=
      h.leave (e := .detached i) rfl (by simp) rfl rfl rfl rfl hidle.1
        (fun j hj => isDetached_modify j fun heq => absurd heq hj) (fun _ => hflag)
        (fun _ _ _ => hflag) hidle.2
    simp only
    split
    · exact hleft
    · exact hleft.same rfl rfl rfl rfl rfl

/-! ## Calls in progress -/

/-- A call past its guards starts and stops what it did before. -/
theorem underway_set {c : Nat} {call call' : SubscriptionCall} (hcall : s.calls[c]? = some call)
    (hstarts : call'.starts = call.starts) (hsubscription : call'.subscription = call.subscription) :
    ({ s with calls := s.calls.set c call' } : Client).underway = s.underway := by
  unfold underway
  obtain ⟨hlt, rfl⟩ := List.getElem?_eq_some_iff.mp hcall
  simp only
  rw [List.set_eq_take_append_cons_drop, if_pos hlt]
  conv => rhs; rw [← List.take_append_drop c s.calls, List.drop_eq_getElem_cons hlt]
  simp only [List.filterMap_append, List.filterMap_cons, hstarts, hsubscription]

/-- What is in progress without one call. -/
theorem underway_eraseIdx {c : Nat} {call : SubscriptionCall} (hcall : s.calls[c]? = some call) :
    (call.starts = true → s.underway.Perm
      (call.subscription :: ({ s with calls := s.calls.eraseIdx c } : Client).underway)) ∧
    (call.starts = false →
      s.underway.Perm ({ s with calls := s.calls.eraseIdx c } : Client).underway) := by
  obtain ⟨hlt, rfl⟩ := List.getElem?_eq_some_iff.mp hcall
  have hperm := (List.getElem_cons_eraseIdx_perm hlt).symm.filterMap
    fun call => if call.starts then some call.subscription else none
  constructor
  · intro hstarts
    rw [List.filterMap_cons, if_pos hstarts] at hperm
    exact hperm
  · intro hstarts
    rw [List.filterMap_cons, hstarts] at hperm
    exact hperm

/-- A `stop` ends. -/
theorem Restores.dropCall (h : s.Restores) {c : Nat} {call : SubscriptionCall}
    (hcall : s.calls[c]? = some call) (hstops : call.starts = false) :
    Restores { s with calls := s.calls.eraseIdx c } := by
  have hperm := (underway_eraseIdx hcall).2 hstops
  exact ⟨h.listed, h.nodup, h.known, h.attached, fun i hi => h.starting i (hperm.mem_iff.mpr hi),
    hperm.nodup_iff.mp h.single, h.waiting, h.entering, h.due, h.log⟩

/-- A `start` ends. -/
theorem Restores.endCall (h : s.Restores) {c : Nat} {call : SubscriptionCall}
    (hcall : s.calls[c]? = some call) (hstarts : call.starts = true) {event : ClientEvent}
    (hevent : event = .started call.subscription ∨ event = .startFailed call.subscription) :
    Restores { s.emit event with calls := s.calls.eraseIdx c } := by
  have hsubject : event.subject = some call.subscription := by
    rcases hevent with rfl | rfl <;> rfl
  have hperm := (underway_eraseIdx hcall).1 hstarts
  have hsingle := hperm.nodup_iff.mp h.single
  have hmem : call.subscription ∈ s.underway := hperm.mem_iff.mpr List.mem_cons_self
  obtain ⟨hlisted, hunstarted⟩ := h.starting _ hmem
  refine h.subject hsubject rfl rfl (fun j hj _ => hj) (fun _ => hlisted) ?_ h.nodup h.attached
    (fun j hj => hj) ?_ (List.nodup_cons.mp hsingle).2 ?_ ?_
  · intro j hj
    by_cases heq : j = call.subscription
    · exact Or.inr ⟨heq, hevent.imp_right Or.inr⟩
    · exact Or.inl ⟨hj, heq⟩
  · intro j hj
    refine Or.inl ⟨hperm.mem_iff.mpr (List.mem_cons_of_mem _ hj), ?_⟩
    rintro rfl
    exact (List.nodup_cons.mp hsingle).1 hj
  -- a subscription that is being started neither waits for its turn nor has it
  · intro waiting hsome hwaits
    refine Or.inr ((h.waiting waiting hsome _ hwaits).resolve_left fun hstarted => ?_)
    rw [hunstarted] at hstarted
    cases hstarted
  · intro hentering
    rw [h.entering _ hentering] at hunstarted
    cases hunstarted

theorem Restores.letIn (h : s.Restores) {c : Nat} {call : SubscriptionCall}
    (hcall : s.calls[c]? = some call) (hstep : s.letIn c call = some next) : next.Restores := by
  unfold Client.letIn at hstep
  split at hstep
  · cases hstep
  · split at hstep
    · obtain ⟨sub, -, rfl⟩ := Option.map_eq_some_iff.mp hstep
      exact h.same rfl rfl (underway_set hcall rfl rfl) rfl rfl
    · rename_i hstarts _
      cases hstep
      exact h.endCall hcall hstarts (Or.inr rfl)
    · cases hstep
      exact h.same rfl rfl (underway_set hcall rfl rfl) rfl rfl
    · rename_i hstarts _
      cases hstep
      exact h.dropCall hcall hstarts

/-- The end of a `_do_subscribe` changes the index and the filters of its subscription. -/
theorem Restores.endSubscribe (h : s.Restores) (registered : List Str)
    (outcome : SubscribeOutcome) : (s.endSubscribe i registered outcome).Restores := by
  have hset : ∀ s : Client, s.Restores → (s.setRegistered i registered).Restores := fun s h =>
    h.same rfl (funext fun j => isDetached_modify j fun _ _ => rfl) rfl rfl rfl
  have hindex : (s.unregister registered).Restores := h.same rfl rfl rfl rfl rfl
  unfold Client.endSubscribe
  simp only
  split
  · split
    · exact hset _ hindex
    · exact hset _ h
  · split
    · exact hindex
    · exact h

theorem Restores.finish (h : s.Restores) {c : Nat} {call : SubscriptionCall}
    {outcome : SubscribeOutcome} (hcall : s.calls[c]? = some call)
    (hstep : s.finish c call outcome = some next) : next.Restores := by
  unfold Client.finish at hstep
  split at hstep
  · rename_i hstarts
    obtain ⟨registered, -, heq⟩ := Option.map_eq_some_iff.mp hstep
    -- the state when `_do_subscribe` has returned or raised
    have hended : ∀ ended : Client, ended.Restores → ended.calls = s.calls →
        (if outcome.error.isNone then
          { ended.emit (.started call.subscription) with calls := ended.calls.eraseIdx c }
        else ended.failStart c call.subscription) = next → next.Restores := by
      intro ended hrestores hcalls heq
      have hcall' : ended.calls[c]? = some call := hcalls ▸ hcall
      split at heq
      · cases heq
        exact hrestores.endCall hcall' hstarts (Or.inl rfl)
      · cases heq
        exact hrestores.endCall hcall' hstarts (Or.inr rfl)
    refine hended _ ?_ ?_ heq
    · split
      · exact h.endSubscribe registered outcome
      · split
        · exact h.same rfl (funext fun j => isDetached_modify j fun _ _ => rfl) rfl rfl rfl
        · exact h
    · split
      · exact (endSubscribe_frame s _ registered outcome).2.2.2
      · split <;> rfl
  · rename_i hstarts
    cases hstep
    exact h.dropCall hcall (Bool.not_eq_true _ ▸ hstarts)

/-! ## Steps and runs -/

/-- Where no `start()` is unfinished, each subscription in the list is started. -/
theorem Restores.isStarted_of_allFinished (h : s.Restores) (hfinished : s.allFinished = true) :
    ∀ i ∈ s.subscriptions, isStarted i s.log = true := by
  intro i hi
  refine (h.known i hi).resolve_right fun hunfinished => ?_
  obtain ⟨event, hevent, hsubject⟩ := exists_of_isUnfinished hunfinished
  have hall := List.all_eq_true.mp hfinished event hevent
  rw [hsubject, Option.all_some, h.attached i hi, hunfinished] at hall
  cases hall

/-- The list is copied.  Each subscription in it is started. -/
theorem Restores.copy (h : s.Restores) (hall : ∀ i ∈ s.subscriptions, isStarted i s.log = true) :
    ((s.emit .reconnecting).setLoop (.connecting 0 s.subscriptions)).Restores := by
  have hlog : ∀ i, isStarted i (.reconnecting :: s.log) = isStarted i s.log := fun i =>
    isStarted_aside rfl i s.log
  refine ⟨fun i hi => h.listed i (hlog i ▸ hi), h.nodup, h.known, h.attached, ?_, h.single, ?_,
    (fun _ h => by cases h), ?_, trivial, h.log⟩
  · intro i hi
    exact (h.starting i hi).imp_right fun hnot => (hlog i).trans hnot
  · intro waiting hsome i hi
    cases hsome
    exact Or.inl ((hlog i).trans (hall i hi))
  · intro waiting hsome
    cases hsome
    exact Due.copied h.listed

theorem Restores.resume (h : s.Restores) (hok : s.timely .resume = true)
    (hstep : s.resume = some next) : next.Restores := by
  unfold Client.resume at hstep
  split at hstep
  · rename_i pending hloop
    obtain ⟨-, heq⟩ := Option.ite_none_right_eq_some.mp hstep
    cases heq
    exact h.restoreFrom (by rw [hloop]; rfl)
  · obtain ⟨error, -, rfl⟩ := Option.map_eq_some_iff.mp hstep
    exact h.raiseInLoop error
  · cases hstep
    exact h.clean none
  · rename_i error hloop
    obtain ⟨-, hstep⟩ := Option.ite_none_left_eq_some.mp hstep
    cases error with
    | some error =>
        cases hstep
        exact h.setLoop_past rfl
    | none =>
        cases hstep
        refine h.copy (h.isStarted_of_allFinished ?_)
        simpa [timely, hloop] using hok
  · cases hstep

/-- SUBSCRIBE is sent for the subscription whose turn it is. -/
theorem Restores.send (h : s.Restores) {pending : List Nat} {registered : List Str}
    (hloop : s.loop = .resubscribing i none pending) :
    ((s.emit (.resubscribed i)).setLoop (.resubscribing i (some registered) pending)).Restores := by
  have hlog : ∀ j, isStarted j (.resubscribed i :: s.log) = isStarted j s.log := fun j =>
    isStarted_aside rfl j s.log
  have hwaiting : s.loop.waiting = some (i :: pending) := by rw [hloop]; rfl
  have hentering : isStarted i s.log = true := h.entering i (by rw [hloop]; rfl)
  refine ⟨fun j hj => h.listed j (hlog j ▸ hj), h.nodup, h.known, h.attached, ?_, h.single, ?_,
    (fun _ h => by cases h), ?_, hentering, h.log⟩
  · intro j hj
    exact (h.starting j hj).imp_right fun hnot => (hlog j).trans hnot
  · intro waiting hsome j hj
    cases hsome
    exact (h.waiting _ hwaiting j (List.mem_cons_of_mem _ hj)).imp_left (hlog j).trans
  · intro waiting hsome
    cases hsome
    exact (h.due _ hwaiting).resubscribed

theorem Restores.resubscribe (h : s.Restores) (hstep : s.resubscribe = some next) :
    next.Restores := by
  unfold Client.resubscribe at hstep
  split at hstep
  · rename_i i pending hloop
    split at hstep
    · cases hstep
      exact h.raiseInLoop _
    · obtain ⟨sub, -, rfl⟩ := Option.map_eq_some_iff.mp hstep
      exact (h.send hloop).same rfl rfl rfl rfl rfl
  · cases hstep

theorem Restores.endResubscribe (h : s.Restores) {outcome : SubscribeOutcome}
    (hstep : s.endResubscribe outcome = some next) : next.Restores := by
  obtain ⟨i, registered, pending, hloop, -, heq⟩ := endResubscribe_cases hstep
  have hended := h.endSubscribe (i := i) registered outcome
  split at heq
  · cases heq
    refine hended.restoreFrom ?_
    rw [(endSubscribe_frame s i registered outcome).2.1, hloop]
    rfl
  · cases heq
    exact hended.raiseInLoop _

theorem Restores.observed (h : s.Restores) {error : Option RunError}
    (hstep : s.observed error = some next) : next.Restores := by
  obtain ⟨topic, pending, -, ⟨-, -, rfl⟩ | ⟨failure, -, -, rfl⟩⟩ := observed_cases hstep
  · exact h.setLoop_past (waiting_restoreTopics s _)
  · exact h.raiseInLoop failure

theorem Restores.attempt (h : s.Restores) {met : Attempt} {sessionPresent : Bool}
    (hstep : s.attempt met sessionPresent = some next) : next.Restores := by
  unfold Client.attempt at hstep
  split at hstep
  · rename_i failures pending hloop
    have hattempted : (s.emit .attempted).Restores := h.emit rfl (by simp) trivial
    simp only at hstep
    split at hstep
    · cases hstep
      have hstarting : ((s.emit .attempted).setLoop (.starting pending)).Restores :=
        hattempted.setLoop_same (by show _ = s.loop.waiting; rw [hloop]; rfl) rfl
      exact hstarting.same rfl rfl rfl rfl rfl
    · cases hstep
      exact hattempted.setLoop_same (by show _ = s.loop.waiting; rw [hloop]; rfl) rfl
    · cases hstep
      exact hattempted.setLoop_past rfl
  · cases hstep

theorem Restores.afterPacket (h : s.Restores) (action : InboundPublishFlow.Action)
    (flow : InboundPublishFlow) : (s.afterPacket action flow).Restores := by
  have hflow : Restores { s with inbound := flow } := h.same rfl rfl rfl rfl rfl
  have hemitted : Restores ((quotaExceeded s.inbound action).elim { s with inbound := flow }
      fun msg => Client.emit { s with inbound := flow } (.violated msg)) := by
    cases quotaExceeded s.inbound action with
    | none => exact hflow
    | some msg => exact hflow.emit rfl (by simp) trivial
  unfold Client.afterPacket
  simp only
  split
  · exact hemitted
  · exact hemitted.same rfl rfl rfl rfl rfl

/-- **Step lemma.** -/
theorem Restores.step {action : Action} (h : s.Restores) (hok : s.timely action = true)
    (hstep : s.step action = some next) : next.Restores := by
  cases action with
  | create sub =>
      cases hstep
      refine h.same rfl (funext fun i => ?_) rfl rfl rfl
      show (s.objects ++ [_])[i]?.any _ = s.objects[i]?.any _
      rcases Nat.lt_trichotomy i s.objects.length with hlt | rfl | hgt
      · rw [List.getElem?_append_left hlt]
      · rw [List.getElem?_concat_length, List.getElem?_eq_none (Nat.le_refl _)]
        rfl
      · rw [List.getElem?_eq_none (by simp; omega), List.getElem?_eq_none (Nat.le_of_lt hgt)]
  | start i =>
      obtain ⟨sub, hsub, rfl⟩ := Option.map_eq_some_iff.mp hstep
      exact h.start hsub hok
  | stop i cancelled =>
      obtain ⟨sub, -, rfl⟩ := Option.map_eq_some_iff.mp hstep
      exact h.stop hok
  | detach i =>
      obtain ⟨sub, hsub, rfl⟩ := Option.map_eq_some_iff.mp hstep
      exact h.detach hsub hok
  | letIn c =>
      obtain ⟨call, hcall, hstep⟩ := Option.bind_eq_some_iff.mp hstep
      exact h.letIn hcall hstep
  | finish c outcome =>
      obtain ⟨call, hcall, hstep⟩ := Option.bind_eq_some_iff.mp hstep
      exact h.finish hcall hstep
  | request topic =>
      cases hstep
      exact h.same rfl rfl rfl rfl rfl
  | release topic =>
      cases hstep
      exact h.same rfl rfl rfl rfl rfl
  | beginRun =>
      obtain ⟨-, heq⟩ := Option.ite_none_left_eq_some.mp hstep
      cases heq
      exact h.same rfl rfl rfl rfl rfl
  | inbound action =>
      obtain ⟨flow, -, ⟨-, -, rfl⟩ | ⟨-, rfl⟩⟩ := inbound_cases hstep
      · exact h.afterPacket action flow
      · exact h.same rfl rfl rfl rfl rfl
  | packet size =>
      obtain ⟨-, heq⟩ := Option.ite_none_right_eq_some.mp hstep
      cases heq
      unfold Client.packet
      split
      · exact h
      · split
        · exact (h.emit (e := .violated _) rfl (by simp) trivial).same rfl rfl rfl rfl rfl
        · exact h
  | readFails error =>
      obtain ⟨-, heq⟩ := Option.ite_none_right_eq_some.mp hstep
      cases heq
      exact h.same rfl rfl rfl rfl rfl
  | endAbort =>
      obtain ⟨error, -, rfl⟩ := endAbort_cases hstep
      exact h.same rfl rfl rfl rfl rfl
  | pingFails error =>
      obtain ⟨-, heq⟩ := Option.ite_none_right_eq_some.mp hstep
      cases heq
      exact h.same rfl rfl rfl rfl rfl
  | exitRun =>
      obtain ⟨-, hstep⟩ := Option.ite_none_right_eq_some.mp hstep
      obtain ⟨error, -, rfl⟩ := Option.map_eq_some_iff.mp hstep
      exact h.same rfl rfl rfl rfl rfl
  | resume => exact h.resume hok hstep
  | resubscribe => exact h.resubscribe hstep
  | suback granted =>
      obtain ⟨-, rfl⟩ := suback_cases hstep
      exact h.same rfl rfl rfl rfl rfl
  | endResubscribe outcome => exact h.endResubscribe hstep
  | observerReady topic =>
      obtain ⟨-, heq⟩ := Option.ite_none_right_eq_some.mp hstep
      cases heq
      exact h.same rfl rfl rfl rfl rfl
  | observed error => exact h.observed hstep
  | attempt met sessionPresent => exact h.attempt hstep
  | disconnect =>
      cases hstep
      have hpast : (s.setLoop s.loop.cancel).Restores :=
        h.setLoop_past (by cases s.loop <;> rfl)
      exact hpast.same rfl rfl rfl rfl rfl

theorem opened_restores (config : ClientConfig) (sessionPresent : Bool) :
    (opened config sessionPresent).Restores := by
  refine ⟨fun _ h => Bool.noConfusion h, List.nodup_nil, fun _ h => (List.not_mem_nil h).elim,
    fun _ h => (List.not_mem_nil h).elim, fun _ h => (List.not_mem_nil h).elim, List.nodup_nil, ?_, (fun _ h => by cases h), ?_, trivial⟩
  · intro waiting hsome i hi
    cases hsome
    cases hi
  · intro waiting hsome since before hlog
    cases since <;> cases hlog

end Client

/-- **Only started subscriptions are restored.**  In every run whose steps are timely, the list
has each started subscription once, and besides them only those with an unfinished `start()`; the
loop sends SUBSCRIBE again only for a subscription whose most recent `start()` returned
normally and that was not stopped, exited or detached since; and when it is past the
subscriptions to restore, it has sent SUBSCRIBE for each one that was started when the
list was copied and is started still. -/
theorem restored_subscriptions (config : ClientConfig) (sessionPresent : Bool)
    (actions : List Client.Action) (s : Client)
    (hrun : Transition.run Client.step (Client.opened config sessionPresent) actions = some s)
    (hok : Transition.Along Client.step (fun s action => s.timely action = true)
      (Client.opened config sessionPresent) actions) :
    (s.subscriptions.Nodup ∧ (∀ i, isStarted i s.log = true → i ∈ s.subscriptions) ∧
        ∀ i ∈ s.subscriptions, isStarted i s.log = true ∨ isUnfinished i s.log = true) ∧
      (∀ later earlier i, s.log = later ++ .resubscribed i :: earlier →
        isStarted i earlier = true) ∧
      ∀ later since before i,
        s.log = later ++ .restored :: (since ++ .reconnecting :: before) →
        .reconnecting ∉ since → isStarted i before = true →
        isStarted i (since ++ .reconnecting :: before) = true → .resubscribed i ∈ since := by
  have h : s.Restores := Transition.invariant_along (fun _ _ _ h hok hstep => h.step hok hstep)
    (Client.opened_restores config sessionPresent) hok hrun
  refine ⟨⟨h.nodup, h.listed, h.known⟩, ?_, ?_⟩
  · intro later earlier i hlog
    have hlogged := h.log
    rw [hlog] at hlogged
    exact hlogged.at
  · intro later since before i hlog hsince hbefore hnow
    have hlogged := h.log
    rw [hlog] at hlogged
    exact hlogged.at since before rfl hsince i hbefore hnow

/-- The steps from the loss of a connection to the read loop of the next one. -/
def sampleReconnection : List Client.Action :=
  [.readFails .disconnected, .exitRun, .resume, .resume, .resume, .attempt .accepted true, .beginRun]

/-- Two subscriptions are started and one of them is detached; the connection is lost. -/
def sampleRestoration : List Client.Action :=
  [.create { filters := [str "a"] }, .create { filters := [str "b"] },
    .start 0, .letIn 0, .finish 0 .granted, .start 1, .letIn 0, .finish 0 .granted,
    .beginRun, .resume, .detach 1] ++ sampleReconnection ++
  [.resume, .resubscribe, .suback true, .endResubscribe .granted]

/-- The other one is restored. -/
theorem restored_subscriptions_attached :
    ∃ s, Transition.run Client.step (Client.opened {} true) sampleRestoration = some s ∧
      s.log.take 3 = [.restored, .resubscribed 0, .attempted] ∧ s.loop = .awaitingRun ∧
      (∀ later earlier i, s.log = later ++ .resubscribed i :: earlier →
        isStarted i earlier = true) := by
  refine ⟨_, rfl, rfl, rfl, ?_⟩
  exact (restored_subscriptions {} true sampleRestoration _ rfl (by decide)).2.1

/-- The broker rejects a subscription, and the connection is lost later. -/
def sampleRejection : List Client.Action :=
  [.create { filters := [str "a"] }, .start 0, .letIn 0, .finish 0 .rejected, .beginRun, .resume] ++
    sampleReconnection ++
    [.resume, .resubscribe, .suback false, .endResubscribe .rejected, .exitRun, .resume]

/-- The rejected subscription is sent again and ends the run loop. -/
theorem rejected_subscription_ends_loop :
    ∃ s earlier, Transition.run Client.step (Client.opened {} true) sampleRejection = some s ∧
      s.loop = .ended .subscribeError ∧
      s.log = [] ++ .resubscribed 0 :: earlier ∧ .startFailed 0 ∈ earlier ∧
      isStarted 0 earlier = false := by
  refine ⟨_, _, rfl, rfl, rfl, ?_, ?_⟩
  · decide
  · decide

end Zmqtt
