import Zmqtt.IndexOwners
import Zmqtt.Protocol
import Zmqtt.TaskList

/-!
# Subscription guards

`_SubscriptionGuards.hold` serialises the calls that name a filter in common.  A
step changes the record of at most one call, which has not ended, or starts a new
one; only `acquireGuard` adds a guard to a call, and only when no other call has it.

So no guard is ever held twice, a call inside its body holds the guards of the
topics it still has to decide about, and what it has decided about them stays true:
an observer is given up under its guard only.
-/

namespace Zmqtt

/-! ## The order of the guards -/

/-- The order of the guards. -/
def strKey (s : Str) : List Nat := s.map Fin.val

theorem strLe_iff (a b : Str) : strLe a b ↔ strKey a ≤ strKey b := by
  unfold strLe
  rw [Bool.eq_false_iff, ne_eq, tupleLt_iff, not_lt]
  rfl

theorem guardOrder_sorted (filters : List Str) :
    (guardOrder filters).Pairwise fun a b => strKey a < strKey b := by
  have htotal : Std.Total strLe := ⟨fun a b => by
    rw [strLe_iff, strLe_iff]
    exact le_total _ _⟩
  have htrans : IsTrans Str strLe := ⟨fun a b c hab hbc => by
    rw [strLe_iff] at *
    exact le_trans hab hbc⟩
  have hle : (guardOrder filters).Pairwise strLe := List.pairwise_insertionSort strLe _
  have hne : (guardOrder filters).Pairwise (· ≠ ·) :=
    (List.perm_insertionSort strLe _).nodup_iff.mpr (List.nodup_dedup filters)
  refine (hle.and hne).imp ?_
  rintro a b ⟨hab, hne⟩
  refine lt_of_le_of_ne ((strLe_iff a b).mp hab) fun heq => hne ?_
  exact List.map_injective_iff.mpr Fin.val_injective heq

/-! ## Calls under guards -/

/-- The call has ended. -/
def Phase.isFinished : Phase → Bool
  | .finished _ => true
  | _ => false

/-- What holds of a call, given the response observers: a call that waits for its
guards has the first of them in their order, an unsubscribe still has the observers
it found, and the observer it is about is under a guard. -/
def Call.Holds (observers : List Str) (call : Call) : Prop :=
  match call.phase with
  | .guards guarded todo => call.held.reverse ++ todo = guardOrder guarded.filters
  | .request (.unsubscribe _ observed) _ _ _ =>
      ∀ topic ∈ observed, topic ∈ call.held ∧ topic ∈ observers
  | .request (.addObserver topic) _ _ _ => topic ∈ call.held
  | .finished _ => call.held = []
  | _ => True

/-- A guarded call with all its guards has the guard of each of its filters. -/
theorem Call.Holds.entered {observers : List Str} {call : Call} {guarded : GuardedCall}
    (h : call.Holds observers) (hphase : call.phase = .guards guarded []) {topic : Str}
    (htopic : topic ∈ guarded.filters) : topic ∈ call.held := by
  unfold Call.Holds at h
  rw [hphase] at h
  have hmem : topic ∈ guardOrder guarded.filters := by
    rw [guardOrder, List.mem_insertionSort, List.mem_dedup]
    exact htopic
  rw [← h, List.append_nil, List.mem_reverse] at hmem
  exact hmem

/-- The observers may change as long as the call keeps those under its guards. -/
theorem Call.Holds.mono {observers observers' : List Str} {call : Call}
    (h : call.Holds observers)
    (hkeep : ∀ topic ∈ observers, topic ∉ observers' → topic ∉ call.held) :
    call.Holds observers' := by
  unfold Call.Holds at h ⊢
  split at h
  · exact h
  · intro topic htopic
    obtain ⟨hheld, hmem⟩ := h topic htopic
    refine ⟨hheld, ?_⟩
    by_contra hnot
    exact hkeep topic hmem hnot hheld
  · exact h
  · exact h
  · trivial

namespace Connection

variable {s next : Connection} {c : Nat} {call : Call}

/-- The response observers of a connection. -/
def observers (s : Connection) : List Str := s.state.subscriptions.responseObservers

@[simp] theorem observers_openRequest (s : Connection) (kind : RequestKind) (pid : Nat)
    (pool : PacketIdPool) : (s.openRequest kind pid pool).observers = s.observers := by
  cases kind <;> rfl

@[simp] theorem observers_closeRequest (s : Connection) (kind : RequestKind) (pid : Nat) :
    (s.closeRequest kind pid).observers = s.observers := by
  cases kind <;> rfl

/-- In the middle of a step of a call: the records of the calls are those of its
start, and an observer was given up under its guard only. -/
structure Inside (call : Call) (s now : Connection) : Prop where
  calls : now.calls = s.calls
  given : ∀ topic ∈ s.observers, topic ∉ now.observers → topic ∈ call.held

/-- The call waits for the flight it waited for before, if it waits for one. -/
def SameFlight (before after : Phase) : Prop :=
  ∀ pid future writing, after = .publish pid future writing →
    ∃ writing', before = .publish pid future writing'

/-- The step changed the record of the call `c` and of no other: it took no guard and
started no flight. -/
def Touched (c : Nat) (call : Call) (s next : Connection) : Prop :=
  ∃ f, next.calls = s.calls.modify c f ∧ (f call).Holds next.observers ∧
    (f call).held ⊆ call.held ∧ SameFlight call.phase (f call).phase ∧
    ∀ topic ∈ s.observers, topic ∉ next.observers → topic ∈ call.held

variable {now : Connection}

theorem Inside.refl (s : Connection) (call : Call) : Inside call s s :=
  ⟨rfl, fun _ hmem hnot => absurd hmem hnot⟩

theorem Inside.same (h : Inside call s now) (hcalls : next.calls = now.calls)
    (hobservers : next.observers = now.observers) : Inside call s next :=
  ⟨hcalls.trans h.calls, fun topic hmem hnot => h.given topic hmem (hobservers ▸ hnot)⟩

theorem Inside.closeRequest (h : Inside call s now) (kind : RequestKind) (pid : Nat) :
    Inside call s (now.closeRequest kind pid) :=
  h.same rfl (observers_closeRequest now kind pid)

/-- An observer is given up by a call that has its guard. -/
theorem Inside.removeResponseObserver (h : Inside call s now) {topic : Str}
    (hguard : topic ∈ call.held) :
    Inside call s (now.setSubscriptions
      (now.state.subscriptions.removeResponseObserver topic).1) := by
  refine ⟨h.calls, fun other hmem hnot => ?_⟩
  by_cases heq : other = topic
  · exact heq ▸ hguard
  · refine h.given other hmem fun hnow => hnot ?_
    show other ∈ (now.state.subscriptions.removeResponseObserver topic).1.responseObservers
    unfold SubscriptionIndex.removeResponseObserver
    split
    · exact (List.mem_erase_of_ne heq).mpr hnow
    · exact hnow

theorem Inside.addResponseObserver (h : Inside call s now) (topic : Str) :
    Inside call s (now.setSubscriptions
      (now.state.subscriptions.addResponseObserver topic).1) := by
  refine ⟨h.calls, fun other hmem hnot => h.given other hmem fun hnow => hnot ?_⟩
  show other ∈ (now.state.subscriptions.addResponseObserver topic).1.responseObservers
  unfold SubscriptionIndex.addResponseObserver
  split
  · exact hnow
  · exact List.mem_cons_of_mem _ hnow

theorem Inside.removeMany (h : Inside call s now) (filters : List Str) :
    Inside call s (now.setSubscriptions (now.state.subscriptions.removeMany filters)) :=
  h.same rfl (SubscriptionIndex.responseObservers_removeMany filters now.state.subscriptions)

theorem Touched.modify (h : Inside call s now) (f : Call → Call)
    (hholds : (f call).Holds now.observers) (hheld : (f call).held ⊆ call.held)
    (hflight : SameFlight call.phase (f call).phase) :
    Touched c call s { now with calls := now.calls.modify c f } :=
  ⟨f, congrArg (List.modify · c f) h.calls, hholds, hheld, hflight, h.given⟩

theorem Touched.finish (h : Inside call s now) (outcome : Outcome) :
    Touched c call s (now.finish c outcome) :=
  Touched.modify h _ rfl (List.nil_subset _) (fun _ _ _ heq => by cases heq)

theorem Touched.raiseFromRequest (h : Inside call s now) (request : Request) (error : MqttError)
    (hguard : ∀ topic, request = .addObserver topic → topic ∈ call.held) :
    Touched c call s (now.raiseFromRequest c request error) := by
  cases request with
  | subscribe filters identifier newEntries => exact Touched.finish (h.removeMany newEntries) _
  | unsubscribe brokerFilters observedFilters => exact Touched.finish h _
  | restoreObservers acknowledged observedFilters =>
      simp only [Connection.raiseFromRequest]
      split <;> exact Touched.finish h _
  | addObserver topic => exact Touched.finish (h.removeResponseObserver (hguard topic rfl)) _
  | removeObserver topic => exact Touched.finish h _

/-- A request up to its first suspension. -/
theorem Touched.beginRequest (h : Inside call s now) (request : Request) (write : WriteOutcome)
    (hguard : ∀ topic, request = .addObserver topic → topic ∈ call.held)
    (hobserved : ∀ brokerFilters observedFilters,
      request = .unsubscribe brokerFilters observedFilters →
      ∀ topic ∈ observedFilters, topic ∈ call.held ∧ topic ∈ now.observers) :
    Touched c call s (now.beginRequest c request write) := by
  unfold Connection.beginRequest
  split
  · exact Touched.raiseFromRequest h request _ hguard
  · split
    · exact Touched.raiseFromRequest h request _ hguard
    · next pid pool _ =>
        have hopened : Inside call s (now.openRequest request.kind pid pool) :=
          h.same rfl (observers_openRequest now request.kind pid pool)
        simp only
        split
        · exact Touched.raiseFromRequest (hopened.closeRequest _ _) request _ hguard
        · split
          · exact Touched.raiseFromRequest (hopened.closeRequest _ _) request _ hguard
          · have hphase : Call.Holds (now.openRequest request.kind pid pool).observers
                { call with
                  phase := .request request pid now.answerFutures.length
                    (decide (write = .suspended)) } := by
              rw [observers_openRequest]
              cases request with
              | subscribe filters identifier newEntries => trivial
              | unsubscribe brokerFilters observedFilters => exact hobserved _ _ rfl
              | restoreObservers acknowledged observedFilters => trivial
              | addObserver topic => exact hguard topic rfl
              | removeObserver topic => trivial
            exact Touched.modify hopened (fun call =>
              { call with
                phase := .request request pid now.answerFutures.length
                  (decide (write = .suspended)) }) hphase (List.Subset.refl _)
              (fun _ _ _ heq => by cases heq)

theorem Touched.returnFromRequest (h : Inside call s now) (request : Request) (packet : Packet)
    (write : WriteOutcome)
    (hguard : ∀ topic, request = .addObserver topic → topic ∈ call.held) :
    Touched c call s (now.returnFromRequest c request packet write) := by
  unfold Connection.returnFromRequest
  split
  · exact Touched.modify h _ trivial (List.nil_subset _) (fun _ _ _ heq => by cases heq)
  · split
    · exact Touched.finish h _
    · exact Touched.beginRequest h _ write (fun _ heq => by cases heq)
        (fun _ _ heq => by cases heq)
  · exact Touched.finish h _
  · exact Touched.finish h _
  · exact Touched.finish h _
  · exact Touched.raiseFromRequest h request _ hguard

theorem Touched.answerRequest (request : Request) (pid : Nat) (packet : Packet)
    (write : WriteOutcome)
    (hguard : ∀ topic, request = .addObserver topic → topic ∈ call.held) :
    Touched c call s (s.answerRequest c request pid packet write) := by
  have hclosed := (Inside.refl s call).closeRequest request.kind pid
  unfold Connection.answerRequest
  simp only
  split
  · split
    · exact Touched.raiseFromRequest hclosed request _ hguard
    · exact Touched.returnFromRequest hclosed request _ write hguard
  · exact Touched.returnFromRequest hclosed request _ write hguard

theorem Touched.failRequest (request : Request) (pid : Nat) (error : MqttError)
    (hguard : ∀ topic, request = .addObserver topic → topic ∈ call.held) :
    Touched c call s (s.failRequest c request pid error) :=
  Touched.raiseFromRequest ((Inside.refl s call).closeRequest request.kind pid) request error
    hguard

/-- The body of a guarded call, under all its guards. -/
theorem Touched.enter (guarded : GuardedCall) (write : WriteOutcome)
    (hguards : ∀ topic ∈ guarded.filters, topic ∈ call.held) :
    Touched c call s (s.enter c guarded write) := by
  have h := Inside.refl s call
  cases guarded with
  | subscribe filters queue autoAck identifier =>
      simp only [Connection.enter, Connection.enterSubscribe]
      refine Touched.beginRequest ?_ _ write ?_ ?_
      · exact h.same rfl (SubscriptionIndex.responseObservers_addMany _ _)
      · exact fun _ heq => by cases heq
      · exact fun _ _ heq => by cases heq
  | unsubscribe filters =>
      simp only [Connection.enter, Connection.enterUnsubscribe]
      split
      · exact Touched.finish h _
      · split
        · refine Touched.beginRequest (h.removeMany filters) _ write ?_ ?_
          · exact fun _ heq => by cases heq
          · intro brokerFilters observedFilters heq topic htopic
            cases heq
            obtain ⟨hmem, hobserver⟩ := List.mem_filter.mp htopic
            refine ⟨hguards topic hmem, ?_⟩
            show topic ∈ (s.state.subscriptions.removeMany filters).responseObservers
            rw [SubscriptionIndex.responseObservers_removeMany]
            exact of_decide_eq_true hobserver
        · split
          · refine Touched.beginRequest (h.removeMany filters) _ write ?_ ?_
            · exact fun _ heq => by cases heq
            · exact fun _ _ heq => by cases heq
          · exact Touched.finish (h.removeMany filters) _
  | addResponseObserver topic =>
      simp only [Connection.enter, Connection.enterAddObserver]
      split
      · exact Touched.finish h _
      · split
        · exact Touched.finish h _
        · split
          · exact Touched.finish (h.addResponseObserver topic) _
          · refine Touched.beginRequest (h.addResponseObserver topic) _ write ?_ ?_
            · intro other heq
              cases heq
              exact hguards topic List.mem_cons_self
            · exact fun _ _ heq => by cases heq
  | removeResponseObserver topic =>
      have hremoved := h.removeResponseObserver (hguards topic List.mem_cons_self)
      simp only [Connection.enter, Connection.enterRemoveObserver]
      split
      · exact Touched.finish h _
      · split
        · exact Touched.finish hremoved _
        · refine Touched.beginRequest hremoved _ write ?_ ?_
          · exact fun _ heq => by cases heq
          · exact fun _ _ heq => by cases heq

/-- A call that is inside a request for an observer has its guard. -/
theorem Call.Holds.guard {observers : List Str} {request : Request} {pid future : Nat}
    {writing : Bool} (h : call.Holds observers)
    (hphase : call.phase = .request request pid future writing) :
    ∀ topic, request = .addObserver topic → topic ∈ call.held := by
  rintro topic rfl
  unfold Call.Holds at h
  rw [hphase] at h
  exact h

theorem Touched.resumeWrite {ok : Bool} (h : call.Holds s.observers)
    (hstep : s.resumeWrite c call ok = some next) :
    Touched c call s next ∧ call.phase.isFinished = false := by
  have hstay := Inside.refl s call
  unfold Connection.resumeWrite at hstep
  split at hstep
  · next request pid future hphase =>
      refine ⟨?_, hphase ▸ rfl⟩
      split at hstep
      · cases hstep
        exact Touched.failRequest _ _ _ (Call.Holds.guard h hphase)
      · split at hstep <;> cases hstep
        · refine Touched.modify hstay _ ?_ (List.Subset.refl _) (fun _ _ _ heq => by cases heq)
          unfold Call.Holds at h ⊢
          rw [hphase] at h
          cases request <;> exact h
        · exact Touched.failRequest _ _ _ (Call.Holds.guard h hphase)
  · next hphase =>
      refine ⟨?_, hphase ▸ rfl⟩
      split at hstep
      · cases hstep
        exact Touched.finish hstay _
      · split at hstep <;> cases hstep
        · refine Touched.modify hstay _ trivial (List.Subset.refl _) ?_
          intro _ _ _ heq
          cases heq
          exact ⟨true, hphase⟩
        · exact Touched.finish hstay _
  · next hphase =>
      refine ⟨?_, hphase ▸ rfl⟩
      split at hstep
      · cases hstep
        exact Touched.finish hstay _
      · split at hstep <;> cases hstep <;> exact Touched.finish hstay _
  · cases hstep

theorem Touched.resumeFuture {write : WriteOutcome} (h : call.Holds s.observers)
    (hstep : s.resumeFuture c call write = some next) :
    Touched c call s next ∧ call.phase.isFinished = false := by
  have hstay := Inside.refl s call
  unfold Connection.resumeFuture at hstep
  split at hstep
  · next hphase =>
      have hguard := Call.Holds.guard h hphase
      refine ⟨?_, hphase ▸ rfl⟩
      split at hstep
      · cases hstep
      · cases hstep
      · split at hstep <;> cases hstep
        · exact Touched.failRequest _ _ _ hguard
        · exact Touched.answerRequest _ _ _ write hguard
      · split at hstep <;> cases hstep <;> exact Touched.failRequest _ _ _ hguard
      · cases hstep
        exact Touched.failRequest _ _ _ hguard
  · next hphase =>
      refine ⟨?_, hphase ▸ rfl⟩
      split at hstep
      · cases hstep
      · cases hstep
      · split at hstep <;> cases hstep <;> exact Touched.finish hstay _
      · split at hstep <;> cases hstep <;> exact Touched.finish hstay _
      · cases hstep
        exact Touched.finish hstay _
  · cases hstep

theorem Touched.cancel (h : call.Holds s.observers) (hstep : s.cancel c call = some next) :
    Touched c call s next ∧ call.phase.isFinished = false := by
  have hflag : Touched c call s
      { s with calls := s.calls.modify c fun call => { call with cancelRequested := true } } :=
    Touched.modify (Inside.refl s call) _ h (List.Subset.refl _)
      (fun _ _ writing heq => ⟨writing, heq⟩)
  unfold Connection.cancel at hstep
  cases hphase : call.phase with
  | finished outcome => simp [hphase] at hstep
  | request request pid future writing =>
      refine ⟨?_, rfl⟩
      cases writing <;> simp only [hphase] at hstep <;> cases hstep <;> exact hflag
  | publish pid future writing =>
      refine ⟨?_, rfl⟩
      cases writing <;> simp only [hphase] at hstep <;> cases hstep <;> exact hflag
  | publishQos0 =>
      simp only [hphase] at hstep
      cases hstep
      exact ⟨hflag, rfl⟩
  | guards guarded todo =>
      simp only [hphase] at hstep
      cases hstep
      exact ⟨hflag, rfl⟩
  | draining outcome =>
      simp only [hphase] at hstep
      cases hstep
      exact ⟨hflag, rfl⟩

/-! ## The read loop and new calls -/

/-- A call at its start: it holds no guard, its flight is registered and the PUBLISH of
that is written. -/
structure Started (call : Call) (s next : Connection) : Prop where
  held : call.held = []
  holds : call.Holds s.observers
  flight : ∀ pid future writing, call.phase = .publish pid future writing →
    future < next.flightFutures.length
  record : ∀ pid future writing, call.phase = .publish pid future writing →
    future = s.flightFutures.length ∧ ∃ packet : Publish, packet.packetId = some (pid : Int) ∧
      next.log = s.log ++ [.acquired (.publish packet.qos) pid] ++ [.wrote (.publish packet)]

theorem Started.finished (s next : Connection) (outcome : Outcome) :
    Started { phase := .finished outcome } s next := by
  refine ⟨rfl, rfl, ?_, ?_⟩
  · exact fun _ _ _ heq => by cases heq
  · exact fun _ _ _ heq => by cases heq

/-- A publish starts one call and leaves the observers alone. -/
theorem publish_started (s : Connection) (packet : Publish) (write : WriteOutcome) :
    (∃ call : Call, (s.publish packet write).calls = s.calls ++ [call] ∧
      Started call s (s.publish packet write)) ∧
      (s.publish packet write).observers = s.observers := by
  unfold Connection.publish
  split
  · exact ⟨⟨_, rfl, Started.finished _ _ _⟩, rfl⟩
  · split
    · exact ⟨⟨_, rfl, Started.finished _ _ _⟩, rfl⟩
    · split
      · exact ⟨⟨_, rfl, Started.finished _ _ _⟩, rfl⟩
      · split
        · unfold Connection.publishQos0
          split
          · exact ⟨⟨_, rfl, Started.finished _ _ _⟩, rfl⟩
          · split
            · exact ⟨⟨_, rfl, Started.finished _ _ _⟩, rfl⟩
            · refine ⟨⟨_, rfl, rfl, trivial, ?_, ?_⟩, rfl⟩
              · exact fun _ _ _ heq => by cases heq
              · exact fun _ _ _ heq => by cases heq
            · exact ⟨⟨_, rfl, Started.finished _ _ _⟩, rfl⟩
        · unfold Connection.publishAcknowledged
          split
          · exact ⟨⟨_, rfl, Started.finished _ _ _⟩, rfl⟩
          · next pid pool _ =>
              have hopened : ∀ flight : Publish,
                  (s.openFlight flight pid pool).observers = s.observers := by
                intro flight
                unfold Connection.openFlight observers
                simp only
                split <;> rfl
              simp only
              split
              · exact ⟨⟨_, rfl, Started.finished _ _ _⟩, hopened _⟩
              · split
                · exact ⟨⟨_, rfl, Started.finished _ _ _⟩, hopened _⟩
                · refine ⟨⟨_, rfl, rfl, trivial, ?_, ?_⟩, hopened _⟩
                  · intro _ _ _ heq
                    cases heq
                    show s.flightFutures.length < (s.flightFutures ++ [FutureState.pending]).length
                    simp
                  · intro _ _ _ heq
                    cases heq
                    exact ⟨rfl, _, rfl, rfl⟩

/-- The handlers of the read loop touch neither the calls nor the index, and do not end
the connection. -/
theorem dispatch_frame (s : Connection) (packet : Packet) (write : WriteOutcome) :
    (s.dispatch packet write).calls = s.calls ∧
      (s.dispatch packet write).state.subscriptions = s.state.subscriptions ∧
      (s.dispatch packet write).dead = s.dead := by
  have hanswer : ∀ kind packetId unknown,
      (s.handleAnswer kind packetId packet unknown).calls = s.calls ∧
        (s.handleAnswer kind packetId packet unknown).state.subscriptions =
          s.state.subscriptions ∧
        (s.handleAnswer kind packetId packet unknown).dead = s.dead := by
    intro kind packetId unknown
    unfold Connection.handleAnswer
    simp only
    split
    · exact ⟨rfl, rfl, rfl⟩
    · split <;> exact ⟨rfl, rfl, rfl⟩
  unfold Connection.dispatch
  split
  · exact ⟨rfl, rfl, rfl⟩
  · exact ⟨rfl, rfl, rfl⟩
  · exact ⟨rfl, rfl, rfl⟩
  · unfold Connection.handlePuback
    split <;> exact ⟨rfl, rfl, rfl⟩
  · unfold Connection.handlePubrec
    split
    · exact ⟨rfl, rfl, rfl⟩
    · split
      · exact ⟨rfl, rfl, rfl⟩
      · split
        · exact ⟨rfl, rfl, rfl⟩
        · simp only
          split
          · exact ⟨rfl, rfl, rfl⟩
          · split <;> exact ⟨rfl, rfl, rfl⟩
  · unfold Connection.handlePubcomp
    split <;> exact ⟨rfl, rfl, rfl⟩
  · exact hanswer _ _ _
  · exact hanswer _ _ _
  · exact ⟨rfl, rfl, rfl⟩
  · split <;> exact ⟨rfl, rfl, rfl⟩
  · exact ⟨rfl, rfl, rfl⟩

/-! ## Every step -/

/-- What the read loop adds to the record: the packet if its handler did not raise,
and a PUBREL. -/
theorem dispatch_log (s : Connection) (packet : Packet) (write : WriteOutcome) :
    ∃ events, (s.dispatch packet write).log = s.log ++ events ∧
      ∀ event ∈ events, event = .handled packet ∨ ∃ reply, event = .wrote (.pubrel reply) := by
  have hnone : ∃ events, s.log = s.log ++ events ∧
      ∀ event ∈ events, event = .handled packet ∨ ∃ reply, event = .wrote (.pubrel reply) :=
    ⟨[], (List.append_nil _).symm, fun event hevent => absurd hevent List.not_mem_nil⟩
  have hone : ∃ events, s.log ++ [.handled packet] = s.log ++ events ∧
      ∀ event ∈ events, event = .handled packet ∨ ∃ reply, event = .wrote (.pubrel reply) :=
    ⟨_, rfl, fun event hevent => Or.inl (List.mem_singleton.mp hevent)⟩
  have hanswer : ∀ kind packetId unknown, ∃ events,
      (s.handleAnswer kind packetId packet unknown).log = s.log ++ events ∧
      ∀ event ∈ events, event = .handled packet ∨ ∃ reply, event = .wrote (.pubrel reply) := by
    intro kind packetId unknown
    unfold Connection.handleAnswer
    simp only
    split
    · exact hnone
    · split
      · exact hone
      · exact hnone
  unfold Connection.dispatch
  split
  · exact hone
  · exact hone
  · exact hone
  · unfold Connection.handlePuback
    split
    · exact hnone
    · exact hone
  · next reply =>
      unfold Connection.handlePubrec
      split
      · exact hnone
      · split
        · exact hnone
        · split
          · exact hone
          · have hpubrel : ∃ events, (s.log ++ [.handled (.pubrec reply)]) ++
                [.wrote (.pubrel { packetId := reply.packetId })] = s.log ++ events ∧
                ∀ event ∈ events, event = .handled (.pubrec reply) ∨
                  ∃ reply, event = .wrote (.pubrel reply) := by
              refine ⟨[.handled (.pubrec reply), .wrote (.pubrel { packetId := reply.packetId })],
                List.append_assoc _ _ _, fun event hevent => ?_⟩
              rcases List.mem_cons.mp hevent with heq | hevent
              · exact Or.inl heq
              · exact Or.inr ⟨_, List.mem_singleton.mp hevent⟩
            simp only
            split
            · exact hone
            · split
              · exact hone
              · exact hpubrel
              · exact hpubrel
  · unfold Connection.handlePubcomp
    split
    · exact hnone
    · exact hone
  · exact hanswer _ _ _
  · exact hanswer _ _ _
  · exact hnone
  · split
    · exact hone
    · exact hnone
  · exact hnone

/-- The call whose task an action runs or cancels. -/
def Action.caller : Action → Option Nat
  | .acquireGuard c => some c
  | .enter c _ => some c
  | .resumeWrite c _ => some c
  | .resumeFuture c _ => some c
  | .resumeDrain c _ => some c
  | .cancel c => some c
  | _ => none

/-- What one step does to the calls: nothing, a new call, a change of one call that
takes no guard, or a guard that was free. -/
theorem step_calls {action : Action} (hholds : ∀ call ∈ s.calls, call.Holds s.observers)
    (hstep : s.step action = some next) :
    (next.calls = s.calls ∧ next.observers = s.observers) ∨
      (∃ call, next.calls = s.calls ++ [call] ∧ Started call s next ∧
        next.observers = s.observers) ∨
      ∃ c call, action.caller = some c ∧ s.calls[c]? = some call ∧
        call.phase.isFinished = false ∧ (Touched c call s next ∨ ∃ guarded filter todo,
          call.phase = .guards guarded (filter :: todo) ∧ s.guardFree filter = true ∧
            next = { s with calls := s.calls.modify c fun call =>
              { call with phase := .guards guarded todo, held := filter :: call.held } }) := by
  cases action with
  | publish packet write =>
      cases hstep
      obtain ⟨⟨call, hcalls, hcall⟩, hobservers⟩ := publish_started s packet write
      exact Or.inr (Or.inl ⟨call, hcalls, hcall, hobservers⟩)
  | call guarded =>
      cases hstep
      refine Or.inr (Or.inl ⟨_, rfl, ⟨rfl, List.nil_append _, ?_, ?_⟩, rfl⟩)
      · exact fun _ _ _ heq => by cases heq
      · exact fun _ _ _ heq => by cases heq
  | acquireGuard c =>
      obtain ⟨call, hcall, hstep⟩ := Option.bind_eq_some_iff.mp hstep
      refine Or.inr (Or.inr ⟨c, call, rfl, hcall, ?_⟩)
      unfold Connection.acquireGuard at hstep
      split at hstep
      · next guarded filter todo hphase =>
          refine ⟨hphase ▸ rfl, ?_⟩
          split at hstep
          · cases hstep
            exact Or.inl (Touched.finish (Inside.refl s call) _)
          · split at hstep
            · next hfree =>
                cases hstep
                exact Or.inr ⟨guarded, filter, todo, hphase, hfree, rfl⟩
            · cases hstep
      · cases hstep
  | enter c write =>
      obtain ⟨call, hcall, hstep⟩ := Option.bind_eq_some_iff.mp hstep
      refine Or.inr (Or.inr ⟨c, call, rfl, hcall, ?_⟩)
      split at hstep
      · next guarded hphase =>
          refine ⟨hphase ▸ rfl, Or.inl ?_⟩
          split at hstep <;> cases hstep
          · exact Touched.finish (Inside.refl s call) _
          · exact Touched.enter guarded write fun topic htopic =>
              (hholds call (List.mem_of_getElem? hcall)).entered hphase htopic
      · cases hstep
  | resumeWrite c ok =>
      obtain ⟨call, hcall, hstep⟩ := Option.bind_eq_some_iff.mp hstep
      obtain ⟨htouched, hopen⟩ :=
        Touched.resumeWrite (hholds call (List.mem_of_getElem? hcall)) hstep
      exact Or.inr (Or.inr ⟨c, call, rfl, hcall, hopen, Or.inl htouched⟩)
  | resumeFuture c write =>
      obtain ⟨call, hcall, hstep⟩ := Option.bind_eq_some_iff.mp hstep
      obtain ⟨htouched, hopen⟩ :=
        Touched.resumeFuture (hholds call (List.mem_of_getElem? hcall)) hstep
      exact Or.inr (Or.inr ⟨c, call, rfl, hcall, hopen, Or.inl htouched⟩)
  | resumeDrain c ok =>
      obtain ⟨call, hcall, hstep⟩ := Option.bind_eq_some_iff.mp hstep
      refine Or.inr (Or.inr ⟨c, call, rfl, hcall, ?_⟩)
      split at hstep
      · next hphase =>
          refine ⟨hphase ▸ rfl, Or.inl ?_⟩
          split at hstep
          · cases hstep
            exact Touched.finish (Inside.refl s call) _
          · split at hstep <;> cases hstep <;> exact Touched.finish (Inside.refl s call) _
      · cases hstep
  | cancel c =>
      obtain ⟨call, hcall, hstep⟩ := Option.bind_eq_some_iff.mp hstep
      obtain ⟨htouched, hopen⟩ := Touched.cancel (hholds call (List.mem_of_getElem? hcall)) hstep
      exact Or.inr (Or.inr ⟨c, call, rfl, hcall, hopen, Or.inl htouched⟩)
  | receive packet write =>
      simp only [Connection.step] at hstep
      split at hstep <;> cases hstep
      obtain ⟨hcalls, hindex, -⟩ := dispatch_frame s packet write
      exact Or.inl ⟨hcalls, congrArg SubscriptionIndex.responseObservers hindex⟩
  | resumeReader ok =>
      simp only [Connection.step] at hstep
      split at hstep <;> cases hstep
      refine Or.inl ?_
      split <;> exact ⟨rfl, rfl⟩
  | exit =>
      simp only [Connection.step] at hstep
      split at hstep <;> cases hstep
      exact Or.inl ⟨rfl, rfl⟩

/-- No guard is held twice, and every call has the guards its phase relies on. -/
structure Guarded (s : Connection) : Prop where
  exclusive : ∀ (c c' : Nat) (call call' : Call) (topic : Str), s.calls[c]? = some call → s.calls[c']? = some call' →
    topic ∈ call.held → topic ∈ call'.held → c = c'
  holds : ∀ call ∈ s.calls, call.Holds s.observers

theorem Guarded.of_no_calls (h : s.calls = []) : s.Guarded := by
  refine ⟨fun _ _ _ _ _ hcall => ?_, fun _ hmem => ?_⟩
  · rw [h] at hcall
    cases hcall
  · rw [h] at hmem
    cases hmem

/-- **A step keeps the guards exclusive.** -/
theorem Guarded.step {action : Action} (h : s.Guarded) (hstep : s.step action = some next) :
    next.Guarded := by
  obtain ⟨hcalls, hobservers⟩ | ⟨new, hcalls, ⟨hheld, hnew, -⟩, hobservers⟩ |
    ⟨c, call, -, hcall, hopen, htouch⟩ := step_calls h.holds hstep
  · constructor
    · rw [hcalls]
      exact h.exclusive
    · rw [hcalls, hobservers]
      exact h.holds
  · constructor
    · -- a new call holds no guard yet
      have hold : ∀ (i : Nat) (call : Call) (topic : Str), next.calls[i]? = some call → topic ∈ call.held →
          s.calls[i]? = some call := by
        intro i call topic hi htopic
        rw [hcalls] at hi
        rcases List.mem_append.mp (List.mem_of_getElem? hi) with hmem | hmem
        · by_cases hlt : i < s.calls.length
          · rwa [List.getElem?_append_left hlt] at hi
          · rw [List.getElem?_append_right (Nat.le_of_not_lt hlt)] at hi
            have heq := List.mem_singleton.mp (List.mem_of_getElem? hi)
            rw [heq, hheld] at htopic
            cases htopic
        · rw [List.mem_singleton.mp hmem, hheld] at htopic
          cases htopic
      intro i j call call' topic hi hj hmem hmem'
      exact h.exclusive i j call call' topic (hold i call topic hi hmem)
        (hold j call' topic hj hmem') hmem hmem'
    · rw [hcalls, hobservers]
      intro call hmem
      rcases List.mem_append.mp hmem with hmem | hmem
      · exact h.holds call hmem
      · exact List.mem_singleton.mp hmem ▸ hnew
  · rcases htouch with ⟨f, hcalls, hholds, hheld, -, hgiven⟩ | ⟨guarded, filter, todo, hphase, hfree, rfl⟩
    · constructor
      · -- no call has more guards than before
        have hold : ∀ (i : Nat) (other : Call) (topic : Str), next.calls[i]? = some other →
            topic ∈ other.held → ∃ before, s.calls[i]? = some before ∧ topic ∈ before.held := by
          intro i other topic hi htopic
          rw [hcalls] at hi
          rcases (TaskList.getElem?_modify_iff hcall).mp hi with ⟨rfl, rfl⟩ | ⟨-, hi⟩
          · exact ⟨call, hcall, hheld htopic⟩
          · exact ⟨other, hi, htopic⟩
        intro i j one other topic hi hj hmem hmem'
        obtain ⟨before, hbefore, hmem⟩ := hold i one topic hi hmem
        obtain ⟨before', hbefore', hmem'⟩ := hold j other topic hj hmem'
        exact h.exclusive i j before before' topic hbefore hbefore' hmem hmem'
      · intro other hmem
        obtain ⟨i, hi⟩ := List.getElem?_of_mem hmem
        rw [hcalls] at hi
        rcases (TaskList.getElem?_modify_iff hcall).mp hi with ⟨-, rfl⟩ | ⟨hne, hi⟩
        · exact hholds
        · -- an observer was given up under a guard that this call does not have
          refine (h.holds other (List.mem_of_getElem? hi)).mono fun topic hmem hnot hheld => ?_
          exact hne (h.exclusive i c other call topic hi hcall hheld (hgiven topic hmem hnot))
    · have hnone : ∀ (i : Nat) (other : Call), s.calls[i]? = some other → filter ∉ other.held := by
        intro i other hi
        have := List.all_eq_true.mp hfree other (List.mem_of_getElem? hi)
        simpa using this
      constructor
      · have hold : ∀ (i : Nat) (other : Call) (topic : Str),
            (s.calls.modify c fun call =>
              { call with phase := .guards guarded todo, held := filter :: call.held })[i]? =
              some other → topic ∈ other.held →
            (i = c ∧ topic = filter) ∨ ∃ before, s.calls[i]? = some before ∧
              topic ∈ before.held := by
          intro i other topic hi htopic
          rcases (TaskList.getElem?_modify_iff hcall).mp hi with ⟨rfl, rfl⟩ | ⟨-, hi⟩
          · rcases List.mem_cons.mp htopic with heq | hmem
            · exact Or.inl ⟨rfl, heq⟩
            · exact Or.inr ⟨call, hcall, hmem⟩
          · exact Or.inr ⟨other, hi, htopic⟩
        intro i j one other topic hi hj hmem hmem'
        rcases hold i one topic hi hmem with ⟨rfl, rfl⟩ | ⟨before, hbefore, hmem⟩
        · rcases hold j other topic hj hmem' with ⟨rfl, -⟩ | ⟨before', hbefore', hmem'⟩
          · rfl
          · exact absurd hmem' (hnone j before' hbefore')
        · rcases hold j other topic hj hmem' with ⟨rfl, rfl⟩ | ⟨before', hbefore', hmem'⟩
          · exact absurd hmem (hnone i before hbefore)
          · exact h.exclusive i j before before' topic hbefore hbefore' hmem hmem'
      · intro other hmem
        obtain ⟨i, hi⟩ := List.getElem?_of_mem hmem
        rcases (TaskList.getElem?_modify_iff hcall).mp hi with ⟨-, rfl⟩ | ⟨-, hi⟩
        · have hcall := h.holds call (List.mem_of_getElem? hcall)
          unfold Call.Holds at hcall ⊢
          rw [hphase] at hcall
          simpa using hcall
        · exact h.holds other (List.mem_of_getElem? hi)

/-- A call whose task does not run keeps its record. -/
theorem step_other {action : Action} (h : s.Guarded) (hstep : s.step action = some next)
    (hcall : s.calls[c]? = some call) (hcaller : action.caller ≠ some c) :
    next.calls[c]? = some call := by
  have hother : ∀ (i : Nat) (f : Call → Call), i ≠ c → next.calls = s.calls.modify i f →
      next.calls[c]? = some call := by
    intro i f hne hcalls
    rw [hcalls, List.getElem?_modify, hcall]
    simp [hne]
  obtain ⟨hcalls, -⟩ | ⟨new, hcalls, -⟩ | ⟨i, other, hi, -, -, htouch⟩ :=
    step_calls h.holds hstep
  · rw [hcalls]
    exact hcall
  · rw [hcalls, List.getElem?_append_left (List.getElem?_eq_some_iff.mp hcall).1]
    exact hcall
  · have hne : i ≠ c := fun heq => hcaller (heq ▸ hi)
    rcases htouch with ⟨f, hcalls, -⟩ | ⟨guarded, filter, todo, -, -, rfl⟩
    · exact hother i f hne hcalls
    · exact hother i _ hne rfl

/-- A call that has ended stays as it is. -/
theorem step_finished {action : Action} (h : s.Guarded) (hstep : s.step action = some next)
    (hcall : s.calls[c]? = some call) (hphase : call.phase.isFinished = true) :
    next.calls[c]? = some call := by
  by_cases hcaller : action.caller = some c
  · -- only a call that has not ended has a task to run
    obtain ⟨hcalls, -⟩ | ⟨new, hcalls, -⟩ | ⟨i, other, hi, hother, hopen, -⟩ :=
      step_calls h.holds hstep
    · rw [hcalls]
      exact hcall
    · rw [hcalls, List.getElem?_append_left (List.getElem?_eq_some_iff.mp hcall).1]
      exact hcall
    · rw [hcaller] at hi
      cases hi
      rw [hcall] at hother
      cases hother
      rw [hphase] at hopen
      cases hopen
  · exact step_other h hstep hcall hcaller

/-! ## Flights of publish calls -/

/-- The flight of every publish call is registered. -/
def FlightsExist (s : Connection) : Prop :=
  ∀ call ∈ s.calls, ∀ pid future writing, call.phase = .publish pid future writing →
    future < s.flightFutures.length

theorem FlightsExist.step {action : Action} (h : s.FlightsExist) (hguarded : s.Guarded)
    (hlength : s.flightFutures.length ≤ next.flightFutures.length)
    (hstep : s.step action = some next) : next.FlightsExist := by
  have hold : ∀ other ∈ s.calls, ∀ pid future writing,
      other.phase = .publish pid future writing → future < next.flightFutures.length :=
    fun other hmem pid future writing hphase =>
      Nat.lt_of_lt_of_le (h other hmem pid future writing hphase) hlength
  intro other hmem pid future writing hphase
  obtain ⟨hcalls, -⟩ | ⟨new, hcalls, hstarted, -⟩ | ⟨c, call, -, hcall, -, htouch⟩ :=
    step_calls hguarded.holds hstep
  · exact hold other (hcalls ▸ hmem) pid future writing hphase
  · rw [hcalls] at hmem
    rcases List.mem_append.mp hmem with hmem | hmem
    · exact hold other hmem pid future writing hphase
    · cases List.mem_singleton.mp hmem
      exact hstarted.flight pid future writing hphase
  · obtain ⟨i, hi⟩ := List.getElem?_of_mem hmem
    rcases htouch with ⟨f, hcalls, -, -, hflight, -⟩ | ⟨guarded, filter, todo, -, -, rfl⟩
    · rw [hcalls] at hi
      rcases (TaskList.getElem?_modify_iff hcall).mp hi with ⟨-, rfl⟩ | ⟨-, hi⟩
      · obtain ⟨writing', hbefore⟩ := hflight pid future writing hphase
        exact hold call (List.mem_of_getElem? hcall) pid future writing' hbefore
      · exact hold other (List.mem_of_getElem? hi) pid future writing hphase
    · rcases (TaskList.getElem?_modify_iff hcall).mp hi with ⟨-, rfl⟩ | ⟨-, hi⟩
      · cases hphase
      · exact hold other (List.mem_of_getElem? hi) pid future writing hphase

/-! ## What a subscribe registers -/

/-- The filters of the entries that `_subscribe` registers. -/
theorem mem_keys_newEntries (s : Connection) (filters : List SubscriptionRequest) (queue : Nat)
    (autoAck : Bool) (identifier : Option Int) (topic : Str) :
    topic ∈ OrderedDict.keys (s.newEntries filters queue autoAck identifier).1 ↔
      topic ∈ filters.map SubscriptionRequest.topicFilter ∧
        topic ∉ OrderedDict.keys s.state.subscriptions.entries := by
  unfold newEntries
  suffices h : ∀ acc : List IndexItem × Nat,
      topic ∈ OrderedDict.keys (filters.foldl (fun acc req =>
        if s.state.subscriptions.contains req.topicFilter then acc
        else (OrderedDict.set acc.1 req.topicFilter
          ({ oid := acc.2, queue, autoAck
             actualFilter := sharedFilterToActual req.topicFilter s.strippedPrefixes
             subscriptionIdentifier := identifier } : SubscriptionEntry), acc.2 + 1)) acc).1 ↔
        topic ∈ OrderedDict.keys acc.1 ∨ (topic ∈ filters.map SubscriptionRequest.topicFilter ∧
          topic ∉ OrderedDict.keys s.state.subscriptions.entries) by
    rw [h]
    simp [OrderedDict.keys]
  induction filters with
  | nil => simp
  | cons req rest ih =>
      intro acc
      rw [List.foldl_cons, ih, List.map_cons, List.mem_cons]
      by_cases hcontains : s.state.subscriptions.contains req.topicFilter = true
      · rw [if_pos hcontains]
        rw [SubscriptionIndex.contains_iff] at hcontains
        have hne : topic = req.topicFilter →
            topic ∈ OrderedDict.keys s.state.subscriptions.entries := fun heq => heq ▸ hcontains
        tauto
      · rw [if_neg hcontains, OrderedDict.mem_keys_set]
        rw [SubscriptionIndex.contains_iff] at hcontains
        have hne : topic = req.topicFilter →
            topic ∉ OrderedDict.keys s.state.subscriptions.entries := fun heq => heq ▸ hcontains
        tauto

end Connection

end Zmqtt
