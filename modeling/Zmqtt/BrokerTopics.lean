import Zmqtt.PacketIdOwnership
import Zmqtt.SubscriptionGuards
import Zmqtt.Transition

/-!
# The broker's subscriptions and their local owners

A broker that accepts every SUBSCRIBE and UNSUBSCRIBE holds a set of filters, which
follows from the packets written to it and their order.  The client keeps the same
set in two parts: the filters of the subscription index and the response observers.

Each of the four calls changes its own part and writes its packet in one step, so
the two sides agree whenever no call has raised.  A call that raises undoes its part
of the local change and leaves the broker as it is.
-/

namespace Zmqtt

/-- The filters of the broker after one more event. -/
def Event.brokerTopics (topics : Finset Str) : Event → Finset Str
  | .wrote (.subscribe packet) =>
      topics ∪ (packet.subscriptions.map SubscriptionRequest.topicFilter).toFinset
  | .wrote (.unsubscribe packet) => topics \ packet.topicFilters.toFinset
  | _ => topics

/-- The filters a broker holds that accepts every packet, in the order of the
writes. -/
def brokerTopics (log : List Event) : Finset Str := log.foldl Event.brokerTopics ∅

theorem brokerTopics_append (log : List Event) (event : Event) :
    brokerTopics (log ++ [event]) = event.brokerTopics (brokerTopics log) := by
  rw [brokerTopics, List.foldl_append]
  rfl

/-- The call has ended with an exception. -/
def Phase.isRaised : Phase → Bool
  | .finished (.raised _) => true
  | _ => false

theorem Phase.isFinished_of_isRaised {phase : Phase} (h : phase.isRaised = true) :
    phase.isFinished = true := by
  unfold isRaised at h
  split at h
  · rfl
  · cases h

namespace Connection

variable {s next : Connection} {c : Nat}

/-! ## Agreement -/

/-- The broker's filters are those of the local owners. -/
structure Agrees (s : Connection) : Prop where
  topics : brokerTopics s.log = s.state.subscriptions.owners
  nodup : s.state.subscriptions.responseObservers.Nodup

/-- A call has ended with an exception. -/
def Raised (s : Connection) : Prop := ∃ call ∈ s.calls, call.phase.isRaised = true

/-- The invariant: the two sides agree until the connection is lost or a call
raises. -/
def Matched (s : Connection) : Prop := s.dead = true ∨ s.Raised ∨ s.Agrees

theorem Raised.finish (hcall : c < s.calls.length) (error : MqttError) :
    (s.finish c (.raised error)).Raised := by
  refine ⟨{ s.calls[c] with phase := .finished (.raised error), held := [] }, ?_, rfl⟩
  refine List.mem_of_getElem? (i := c) ?_
  simp [Connection.finish, hcall]

theorem Raised.step {action : Action} (h : s.Raised) (hguarded : s.Guarded)
    (hstep : s.step action = some next) : next.Raised := by
  obtain ⟨call, hmem, hraised⟩ := h
  obtain ⟨c, hc⟩ := List.getElem?_of_mem hmem
  have hstay := step_finished hguarded hstep hc (Phase.isFinished_of_isRaised hraised)
  exact ⟨call, List.mem_of_getElem? hstay, hraised⟩

/-- Agreement is about the record of the writes and the index only. -/
theorem Agrees.of_same (h : s.Agrees) (hlog : next.log = s.log)
    (hindex : next.state.subscriptions = s.state.subscriptions) : next.Agrees := by
  constructor
  · rw [hlog, hindex]
    exact h.topics
  · rw [hindex]
    exact h.nodup

/-- An event that is no SUBSCRIBE or UNSUBSCRIBE. -/
theorem Agrees.append (h : s.Agrees) {l : List Event} (hlog : next.log = s.log ++ l)
    (hevents : ∀ event ∈ l, ∀ topics, event.brokerTopics topics = topics)
    (hindex : next.state.subscriptions = s.state.subscriptions) : next.Agrees := by
  have hsame : ∀ (events : List Event),
      (∀ event ∈ events, ∀ topics, event.brokerTopics topics = topics) →
      ∀ topics, events.foldl Event.brokerTopics topics = topics := by
    intro events
    induction events with
    | nil => exact fun _ _ => rfl
    | cons event rest ih =>
        intro hevents topics
        rw [List.foldl_cons, hevents event List.mem_cons_self]
        exact ih (fun other hother => hevents other (List.mem_cons_of_mem _ hother)) topics
  constructor
  · rw [hlog, hindex, brokerTopics, List.foldl_append, hsame l hevents]
    exact h.topics
  · rw [hindex]
    exact h.nodup

/-! ### A request -/

/-- The caller of a request raises, except that a failed restoring of observers is
swallowed. -/
theorem Matched.raiseFromRequest (hcall : c < s.calls.length) (request : Request)
    (error : MqttError)
    (hrestore : ∀ acknowledged observed, request = .restoreObservers acknowledged observed →
      s.Agrees) :
    (s.raiseFromRequest c request error).Matched := by
  cases request with
  | subscribe filters identifier newEntries => exact Or.inr (Or.inl (Raised.finish hcall error))
  | unsubscribe brokerFilters observedFilters =>
      exact Or.inr (Or.inl (Raised.finish hcall error))
  | restoreObservers acknowledged observedFilters =>
      simp only [Connection.raiseFromRequest]
      split
      · exact Or.inr (Or.inl (Raised.finish hcall error))
      · exact Or.inr (Or.inr ((hrestore _ _ rfl).of_same rfl rfl))
  | addObserver topic => exact Or.inr (Or.inl (Raised.finish hcall error))
  | removeObserver topic => exact Or.inr (Or.inl (Raised.finish hcall error))

/-- A request is started when the packet it writes makes the two sides agree. -/
theorem Matched.beginRequest (hcall : c < s.calls.length) (request : Request)
    (write : WriteOutcome) (hnodup : s.state.subscriptions.responseObservers.Nodup)
    (hpacket : ∀ pid, Event.brokerTopics (brokerTopics s.log) (.wrote (request.packet pid)) =
      s.state.subscriptions.owners)
    (hrestore : ∀ acknowledged observed, request = .restoreObservers acknowledged observed →
      s.Agrees) :
    (s.beginRequest c request write).Matched := by
  have hfailed : ∀ pid pool error,
      (((s.openRequest request.kind pid pool).closeRequest request.kind pid).raiseFromRequest c
        request error).Matched := by
    intro pid pool error
    refine Matched.raiseFromRequest
      (s := (s.openRequest request.kind pid pool).closeRequest request.kind pid) hcall request
      error ?_
    intro acknowledged observed heq
    refine (hrestore acknowledged observed heq).append
      (l := [.acquired (.request request.kind) pid]) rfl (by simp [Event.brokerTopics]) ?_
    cases request.kind <;> rfl
  unfold Connection.beginRequest
  split
  · exact Matched.raiseFromRequest hcall request _ hrestore
  · split
    · exact Matched.raiseFromRequest hcall request _ hrestore
    · next pid pool _ =>
        simp only
        split
        · exact hfailed pid pool _
        · split
          · exact hfailed pid pool _
          · refine Or.inr (Or.inr ⟨?_, ?_⟩)
            · show brokerTopics ((s.log ++ [_]) ++ [_]) = _
              rw [brokerTopics_append, brokerTopics_append]
              refine Eq.trans (hpacket pid) ?_
              cases request.kind <;> rfl
            · cases request.kind <;> exact hnodup

/-! ### The calls -/

theorem Agrees.closeRequest (h : s.Agrees) (kind : RequestKind) (pid : Nat) :
    (s.closeRequest kind pid).Agrees := by
  refine h.of_same rfl ?_
  cases kind <;> rfl

/-- The topics of a SUBSCRIBE for observers. -/
theorem map_observerRequest (topics : List Str) :
    (topics.map observerRequest).map SubscriptionRequest.topicFilter = topics := by
  rw [List.map_map]
  exact List.map_id topics

/-- Restoring the observers subscribes to topics that observers own. -/
theorem Matched.restoreObservers (h : s.Agrees) (hcall : c < s.calls.length)
    (acknowledged : Option (List Str × UnsubAck)) (observedFilters : List Str)
    (hobserved : ∀ topic ∈ observedFilters, topic ∈ s.state.subscriptions.responseObservers)
    (write : WriteOutcome) :
    (s.beginRequest c (.restoreObservers acknowledged observedFilters) write).Matched := by
  refine Matched.beginRequest hcall _ write h.nodup ?_ (fun _ _ _ => h)
  intro pid
  show brokerTopics s.log ∪ (List.map SubscriptionRequest.topicFilter
    (List.map observerRequest observedFilters)).toFinset = _
  rw [map_observerRequest]
  refine Eq.trans (Finset.union_eq_left.mpr ?_) h.topics
  intro topic htopic
  exact h.topics ▸ SubscriptionIndex.mem_owners.mpr
    (Or.inr (hobserved topic (List.mem_toFinset.mp htopic)))

theorem Matched.enterSubscribe (h : s.Agrees) (hcall : c < s.calls.length)
    (filters : List SubscriptionRequest) (queue : Nat) (autoAck : Bool)
    (identifier : Option Int) (write : WriteOutcome) :
    (s.enterSubscribe c filters queue autoAck identifier write).Matched := by
  unfold Connection.enterSubscribe
  refine Matched.beginRequest ?_ _ write ?_ ?_ ?_
  · exact hcall
  · show (s.state.subscriptions.addMany _).responseObservers.Nodup
    rw [SubscriptionIndex.responseObservers_addMany]
    exact h.nodup
  · intro pid
    show brokerTopics s.log ∪ (filters.map SubscriptionRequest.topicFilter).toFinset =
      (s.state.subscriptions.addMany _).owners
    ext topic
    rw [h.topics, Finset.mem_union, List.mem_toFinset, SubscriptionIndex.mem_owners,
      SubscriptionIndex.mem_owners, SubscriptionIndex.mem_keys_addMany,
      SubscriptionIndex.responseObservers_addMany, mem_keys_newEntries]
    tauto
  · intro _ _ heq
    cases heq

theorem Matched.enterUnsubscribe (h : s.Agrees) (hcall : c < s.calls.length)
    (filters : List Str) (write : WriteOutcome) :
    (s.enterUnsubscribe c filters write).Matched := by
  unfold Connection.enterUnsubscribe
  split
  · exact Or.inr (Or.inl (Raised.finish hcall _))
  · simp only
    -- the filters with an observer stay at the broker, and the observer owns them
    have howners : ∀ topic, topic ∈ (s.state.subscriptions.removeMany filters).owners ↔
        (topic ∈ s.state.subscriptions.owners ∧
          topic ∉ filters.filter fun f =>
            !(filters.filter s.state.subscriptions.hasResponseObserver).contains f) := by
      intro topic
      rw [SubscriptionIndex.mem_owners, SubscriptionIndex.mem_owners,
        SubscriptionIndex.mem_keys_removeMany, SubscriptionIndex.responseObservers_removeMany]
      simp only [SubscriptionIndex.hasResponseObserver, List.mem_filter, Bool.not_eq_true',
        List.contains_eq_mem, decide_eq_false_iff_not, decide_eq_true_eq]
      tauto
    have hnodup : (s.state.subscriptions.removeMany filters).responseObservers.Nodup := by
      rw [SubscriptionIndex.responseObservers_removeMany]
      exact h.nodup
    split
    · refine Matched.beginRequest ?_ _ write ?_ ?_ ?_
      · exact hcall
      · exact hnodup
      · intro pid
        ext topic
        refine Iff.trans ?_ (howners topic).symm
        show topic ∈ brokerTopics s.log \ _ ↔ _
        rw [h.topics, Finset.mem_sdiff, List.mem_toFinset]
      · intro _ _ heq
        cases heq
    · next hnone =>
        have hagrees : (s.setSubscriptions (s.state.subscriptions.removeMany filters)).Agrees := by
          refine ⟨?_, hnodup⟩
          ext topic
          refine Iff.trans ?_ (howners topic).symm
          rw [not_not.mp hnone]
          show topic ∈ brokerTopics s.log ↔ _
          simp [h.topics]
        split
        · refine Matched.restoreObservers hagrees hcall _ _ ?_ write
          intro topic htopic
          show topic ∈ (s.state.subscriptions.removeMany filters).responseObservers
          rw [SubscriptionIndex.responseObservers_removeMany]
          exact of_decide_eq_true (List.mem_filter.mp htopic).2
        · exact Or.inr (Or.inr (hagrees.of_same rfl rfl))

theorem Matched.enterAddObserver (h : s.Agrees) (hcall : c < s.calls.length) (topic : Str)
    (write : WriteOutcome) : (s.enterAddObserver c topic write).Matched := by
  unfold Connection.enterAddObserver
  split
  · exact Or.inr (Or.inl (Raised.finish hcall _))
  · unfold SubscriptionIndex.addResponseObserver
    split
    · exact Or.inr (Or.inr (h.of_same rfl rfl))
    · next hnew =>
        have hnodup : (topic :: s.state.subscriptions.responseObservers).Nodup :=
          List.nodup_cons.mpr ⟨hnew, h.nodup⟩
        simp only [Bool.not_true, Bool.false_eq_true, if_false]
        split
        · -- the application owns the topic already
          next howned =>
            refine Or.inr (Or.inr ⟨?_, hnodup⟩)
            refine h.topics.trans ?_
            ext other
            rw [SubscriptionIndex.mem_owners, SubscriptionIndex.mem_owners]
            have howned' : topic ∈ OrderedDict.keys s.state.subscriptions.entries :=
              (SubscriptionIndex.contains_iff s.state.subscriptions topic).mp howned
            show _ ↔ other ∈ OrderedDict.keys s.state.subscriptions.entries ∨
              other ∈ topic :: s.state.subscriptions.responseObservers
            rw [List.mem_cons]
            have : other = topic → other ∈ OrderedDict.keys s.state.subscriptions.entries :=
              fun heq => heq ▸ howned'
            tauto
        · refine Matched.beginRequest ?_ _ write ?_ ?_ ?_
          · exact hcall
          · exact hnodup
          · intro pid
            ext other
            show other ∈ brokerTopics s.log ∪ [topic].toFinset ↔ _
            rw [h.topics, Finset.mem_union, SubscriptionIndex.mem_owners,
              SubscriptionIndex.mem_owners]
            show _ ↔ other ∈ OrderedDict.keys s.state.subscriptions.entries ∨
              other ∈ topic :: s.state.subscriptions.responseObservers
            simp only [List.toFinset_cons, List.toFinset_nil, List.mem_cons, Finset.mem_insert,
              Finset.notMem_empty, or_false]
            tauto
          · intro _ _ heq
            cases heq

theorem Matched.enterRemoveObserver (h : s.Agrees) (hcall : c < s.calls.length) (topic : Str)
    (write : WriteOutcome) : (s.enterRemoveObserver c topic write).Matched := by
  unfold Connection.enterRemoveObserver SubscriptionIndex.removeResponseObserver
  split
  · next hmem =>
      have hnodup := h.nodup.erase topic
      have hmem_iff : ∀ other, other ∈ s.state.subscriptions.responseObservers.erase topic ↔
          other ≠ topic ∧ other ∈ s.state.subscriptions.responseObservers :=
        fun other => h.nodup.mem_erase_iff
      simp only [Bool.not_true, Bool.false_eq_true, if_false, Bool.or_eq_true]
      split
      · next hkept =>
          rcases hkept with howned | hdead
          · -- the application still owns the topic
            refine Or.inr (Or.inr ⟨?_, hnodup⟩)
            refine h.topics.trans ?_
            ext other
            rw [SubscriptionIndex.mem_owners, SubscriptionIndex.mem_owners]
            show _ ↔ other ∈ OrderedDict.keys s.state.subscriptions.entries ∨
              other ∈ s.state.subscriptions.responseObservers.erase topic
            rw [hmem_iff]
            have howned' : topic ∈ OrderedDict.keys s.state.subscriptions.entries :=
              (SubscriptionIndex.contains_iff s.state.subscriptions topic).mp howned
            have : other = topic → other ∈ OrderedDict.keys s.state.subscriptions.entries :=
              fun heq => heq ▸ howned'
            tauto
          · exact Or.inl hdead
      · next hkept =>
          have hfree : topic ∉ OrderedDict.keys s.state.subscriptions.entries := fun hmem =>
            hkept (Or.inl ((SubscriptionIndex.contains_iff s.state.subscriptions topic).mpr hmem))
          refine Matched.beginRequest ?_ _ write ?_ ?_ ?_
          · exact hcall
          · exact hnodup
          · intro pid
            ext other
            show other ∈ brokerTopics s.log \ [topic].toFinset ↔ _
            rw [h.topics, Finset.mem_sdiff, SubscriptionIndex.mem_owners,
              SubscriptionIndex.mem_owners]
            show _ ↔ other ∈ OrderedDict.keys s.state.subscriptions.entries ∨
              other ∈ s.state.subscriptions.responseObservers.erase topic
            rw [hmem_iff]
            simp only [List.toFinset_cons, List.toFinset_nil, Finset.mem_insert,
              Finset.notMem_empty, or_false]
            have : other ∈ OrderedDict.keys s.state.subscriptions.entries → other ≠ topic := by
              rintro hother rfl
              exact hfree hother
            tauto
          · intro _ _ heq
            cases heq
  · exact Or.inr (Or.inr (h.of_same rfl rfl))

theorem Matched.enter (h : s.Agrees) (hcall : c < s.calls.length) (call : GuardedCall)
    (write : WriteOutcome) : (s.enter c call write).Matched := by
  cases call with
  | subscribe filters queue autoAck identifier =>
      exact Matched.enterSubscribe h hcall filters queue autoAck identifier write
  | unsubscribe filters => exact Matched.enterUnsubscribe h hcall filters write
  | addResponseObserver topic => exact Matched.enterAddObserver h hcall topic write
  | removeResponseObserver topic => exact Matched.enterRemoveObserver h hcall topic write

theorem Matched.returnFromRequest (h : s.Agrees) (hcall : c < s.calls.length) (request : Request)
    (packet : Packet) (write : WriteOutcome)
    (hobserved : ∀ brokerFilters observedFilters,
      request = .unsubscribe brokerFilters observedFilters →
      ∀ topic ∈ observedFilters, topic ∈ s.observers) :
    (s.returnFromRequest c request packet write).Matched := by
  unfold Connection.returnFromRequest
  split
  · exact Or.inr (Or.inr (h.of_same rfl rfl))
  · split
    · exact Or.inr (Or.inr (h.of_same rfl rfl))
    · exact Matched.restoreObservers h hcall _ _ (hobserved _ _ rfl) write
  · exact Or.inr (Or.inr (h.of_same rfl rfl))
  · exact Or.inr (Or.inr (h.of_same rfl rfl))
  · exact Or.inr (Or.inr (h.of_same rfl rfl))
  · exact Matched.raiseFromRequest hcall request _ fun _ _ _ => h

theorem Matched.answerRequest (h : s.Agrees) (hcall : c < s.calls.length) (request : Request)
    (pid : Nat) (packet : Packet) (write : WriteOutcome)
    (hobserved : ∀ brokerFilters observedFilters,
      request = .unsubscribe brokerFilters observedFilters →
      ∀ topic ∈ observedFilters, topic ∈ s.observers) :
    (s.answerRequest c request pid packet write).Matched := by
  have hclosed := h.closeRequest request.kind pid
  have hreturn : ((s.closeRequest request.kind pid).returnFromRequest c request packet
      write).Matched := by
    refine Matched.returnFromRequest hclosed hcall request packet write ?_
    intro brokerFilters observedFilters heq topic htopic
    rw [observers_closeRequest]
    exact hobserved brokerFilters observedFilters heq topic htopic
  unfold Connection.answerRequest
  simp only
  split
  · split
    · exact Matched.raiseFromRequest (s := s.closeRequest request.kind pid) hcall request _
        (fun _ _ _ => hclosed)
    · exact hreturn
  · exact hreturn

theorem Matched.failRequest (h : s.Agrees) (hcall : c < s.calls.length) (request : Request)
    (pid : Nat) (error : MqttError) : (s.failRequest c request pid error).Matched :=
  Matched.raiseFromRequest (s := s.closeRequest request.kind pid) hcall request error
    (fun _ _ _ => h.closeRequest request.kind pid)

theorem Matched.resumeWrite (h : s.Agrees) {call : Call} {ok : Bool}
    (hcall : s.calls[c]? = some call) (hstep : s.resumeWrite c call ok = some next) :
    next.Matched := by
  have hlt := (List.getElem?_eq_some_iff.mp hcall).1
  unfold Connection.resumeWrite at hstep
  split at hstep
  · split at hstep
    · cases hstep
      exact Matched.failRequest h hlt _ _ _
    · split at hstep <;> cases hstep
      · exact Or.inr (Or.inr (h.of_same rfl rfl))
      · exact Matched.failRequest h hlt _ _ _
  · split at hstep
    · cases hstep
      exact Or.inr (Or.inr (h.of_same rfl rfl))
    · split at hstep <;> cases hstep <;> exact Or.inr (Or.inr (h.of_same rfl rfl))
  · split at hstep
    · cases hstep
      exact Or.inr (Or.inr (h.of_same rfl rfl))
    · split at hstep <;> cases hstep <;> exact Or.inr (Or.inr (h.of_same rfl rfl))
  · cases hstep

theorem Matched.resumeFuture (h : s.Agrees) {call : Call} {write : WriteOutcome}
    (hcall : s.calls[c]? = some call) (hholds : call.Holds s.observers)
    (hstep : s.resumeFuture c call write = some next) : next.Matched := by
  have hlt := (List.getElem?_eq_some_iff.mp hcall).1
  unfold Connection.resumeFuture at hstep
  split at hstep
  · next request pid future hphase =>
      split at hstep
      · cases hstep
      · cases hstep
      · split at hstep <;> cases hstep
        · exact Matched.failRequest h hlt _ _ _
        · refine Matched.answerRequest h hlt _ _ _ write ?_
          rintro brokerFilters observedFilters rfl topic htopic
          unfold Call.Holds at hholds
          rw [hphase] at hholds
          exact (hholds topic htopic).2
      · split at hstep <;> cases hstep <;> exact Matched.failRequest h hlt _ _ _
      · cases hstep
        exact Matched.failRequest h hlt _ _ _
  · split at hstep
    · cases hstep
    · cases hstep
    · split at hstep <;> cases hstep <;> exact Or.inr (Or.inr (h.of_same rfl rfl))
    · split at hstep <;> cases hstep <;> exact Or.inr (Or.inr (h.of_same rfl rfl))
    · cases hstep
      exact Or.inr (Or.inr (h.of_same rfl rfl))
  · cases hstep

/-- What a publish adds to the record: no SUBSCRIBE or UNSUBSCRIBE. -/
theorem Agrees.publish (h : s.Agrees) (packet : Publish) (write : WriteOutcome) :
    (s.publish packet write).Agrees := by
  have hsame : ∀ outcome, (s.addCall (.finished outcome)).Agrees :=
    fun _ => h.of_same rfl rfl
  have hpublish : ∀ packet topics,
      Event.brokerTopics topics (.wrote (.publish packet)) = topics := fun _ _ => rfl
  unfold Connection.publish
  split
  · exact hsame _
  · split
    · exact hsame _
    · split
      · exact hsame _
      · split
        · unfold Connection.publishQos0
          split
          · exact hsame _
          · split
            · exact hsame _
            · exact h.append (l := [.wrote (.publish packet)]) rfl (by simp [hpublish]) rfl
            · exact h.append (l := [.wrote (.publish packet)]) rfl (by simp [hpublish]) rfl
        · unfold Connection.publishAcknowledged
          split
          · exact hsame _
          · next pid pool _ =>
              have hopened : ∀ flight : Publish, (s.openFlight flight pid pool).Agrees := by
                intro flight
                refine h.append (l := [.acquired (.publish flight.qos) pid]) rfl
                  (by simp [Event.brokerTopics]) ?_
                unfold Connection.openFlight
                simp only
                split <;> rfl
              simp only
              split
              · exact (hopened _).of_same rfl rfl
              · split
                · exact (hopened _).of_same rfl rfl
                · exact (hopened _).append (l := [.wrote (.publish _)]) rfl
                    (by simp [hpublish]) rfl

theorem Agrees.dispatch (h : s.Agrees) (packet : Packet) (write : WriteOutcome) :
    (s.dispatch packet write).Agrees := by
  obtain ⟨events, hlog, hevents⟩ := dispatch_log s packet write
  refine h.append hlog ?_ (dispatch_frame s packet write).2.1
  intro event hevent topics
  rcases hevents event hevent with rfl | ⟨reply, rfl⟩
  · rfl
  · rfl

/-- **One step.** -/
theorem Matched.step {action : Action} (h : s.Matched) (hguarded : s.Guarded)
    (hstep : s.step action = some next) : next.Matched := by
  rcases h with hdead | hraised | h
  · exact Or.inl (dead_step hdead hstep)
  · exact Or.inr (Or.inl (hraised.step hguarded hstep))
  · have hsame : ∀ c f, Matched { s with calls := s.calls.modify c f } :=
      fun c f => Or.inr (Or.inr (h.of_same rfl rfl))
    cases action with
    | publish packet write =>
        cases hstep
        exact Or.inr (Or.inr (h.publish packet write))
    | call guarded =>
        cases hstep
        exact Or.inr (Or.inr (h.of_same rfl rfl))
    | acquireGuard c =>
        obtain ⟨call, hcall, hstep⟩ := Option.bind_eq_some_iff.mp hstep
        unfold Connection.acquireGuard at hstep
        split at hstep
        · split at hstep
          · cases hstep
            exact hsame c _
          · split at hstep <;> cases hstep
            exact hsame c _
        · cases hstep
    | enter c write =>
        obtain ⟨call, hcall, hstep⟩ := Option.bind_eq_some_iff.mp hstep
        split at hstep
        · split at hstep <;> cases hstep
          · exact hsame c _
          · exact Matched.enter h (List.getElem?_eq_some_iff.mp hcall).1 _ write
        · cases hstep
    | resumeWrite c ok =>
        obtain ⟨call, hcall, hstep⟩ := Option.bind_eq_some_iff.mp hstep
        exact Matched.resumeWrite h hcall hstep
    | resumeFuture c write =>
        obtain ⟨call, hcall, hstep⟩ := Option.bind_eq_some_iff.mp hstep
        exact Matched.resumeFuture h hcall (hguarded.holds call (List.mem_of_getElem? hcall)) hstep
    | resumeDrain c ok =>
        obtain ⟨call, hcall, hstep⟩ := Option.bind_eq_some_iff.mp hstep
        split at hstep
        · split at hstep
          · cases hstep
            exact hsame c _
          · split at hstep <;> cases hstep <;> exact hsame c _
        · cases hstep
    | cancel c =>
        obtain ⟨call, hcall, hstep⟩ := Option.bind_eq_some_iff.mp hstep
        unfold Connection.cancel at hstep
        split at hstep <;> cases hstep <;> exact Or.inr (Or.inr (h.of_same rfl rfl))
    | receive packet write =>
        simp only [Connection.step] at hstep
        split at hstep <;> cases hstep
        exact Or.inr (Or.inr (h.dispatch packet write))
    | resumeReader ok =>
        simp only [Connection.step] at hstep
        split at hstep <;> cases hstep
        split <;> exact Or.inr (Or.inr (h.of_same rfl rfl))
    | exit =>
        simp only [Connection.step] at hstep
        split at hstep <;> cases hstep
        exact Or.inl rfl

end Connection

/-- **Broker subscriptions match local owners.**  As long as the connection is up and
no call has raised, so in particular whenever all calls have run to completion, the
broker's filters are those of the index and of the response observers. -/
theorem broker_matches_owners {version : Version} {strippedPrefixes : List Str}
    {maxPublishQos : QoS} {retainAvailable : Bool} {actions : List Connection.Action}
    {s : Connection}
    (hrun : Transition.run Connection.step
      (Connection.opened version strippedPrefixes maxPublishQos retainAvailable) actions = some s)
    (halive : s.dead = false)
    (hcalls : ∀ call ∈ s.calls, call.phase.isRaised = false) :
    brokerTopics s.log = s.state.subscriptions.owners := by
  have hboth : s.Guarded ∧ s.Matched := by
    refine Transition.invariant (I := fun s => s.Guarded ∧ s.Matched)
      (fun s a next h hstep => ⟨h.1.step hstep, h.2.step h.1 hstep⟩) ?_ hrun
    exact ⟨Connection.Guarded.of_no_calls rfl, Or.inr (Or.inr ⟨rfl, List.nodup_nil⟩)⟩
  rcases hboth.2 with hdead | ⟨call, hmem, hraised⟩ | h
  · rw [halive] at hdead
    cases hdead
  · rw [hcalls call hmem] at hraised
    cases hraised
  · exact h.topics

/-- A topic with an application subscription and a response observer: the application
unsubscribes. -/
def observedTopicRun : List Connection.Action :=
  [.call (.subscribe [{ topicFilter := str "a", qos := .atLeastOnce }] 0 true none),
    .call (.addResponseObserver (str "a")), .acquireGuard 0, .enter 0 .done,
    .receive (.suback { packetId := 1, returnCodes := [1] }) .done, .resumeFuture 0 .done,
    .resumeDrain 0 true, .acquireGuard 1, .enter 1 .done, .call (.unsubscribe [str "a"]),
    .acquireGuard 2, .enter 2 .done,
    .receive (.suback { packetId := 1, returnCodes := [0] }) .done, .resumeFuture 2 .done]

/-- The topic stays at the broker, for the observer. -/
theorem broker_matches_owners_observed :
    ∃ s, Transition.run Connection.step (Connection.opened .v5 [] .exactlyOnce true)
        observedTopicRun = some s ∧
      (∀ call ∈ s.calls, call.phase.isFinished = true) ∧
      OrderedDict.keys s.state.subscriptions.entries = [] ∧ brokerTopics s.log = {str "a"} := by
  refine ⟨_, rfl, by decide, by decide, ?_⟩
  exact (@broker_matches_owners .v5 [] .exactlyOnce true observedTopicRun _ rfl rfl
    (by decide)).trans (by decide)

end Zmqtt
