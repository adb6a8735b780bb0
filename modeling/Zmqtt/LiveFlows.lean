import Zmqtt.HandOver

/-!
# Inbound QoS 2 flows on a connection without a session

Without a resumed session there is no replay: a message is routed when it arrives or
never.  An identifier is open from the PUBLISH that registers it to the PUBREL that
removes it, and while it is open it is in one of the two containers of the client.
-/

namespace Zmqtt

open InboundPublishFlow Tally

variable {s next : InboundPublishFlow}

/-- No session, no replay buffer and no task. -/
def NoSession (s : InboundPublishFlow) : Prop := s.replay = { state := .noSession }

/-- The flow of an identifier is open. -/
def flowOpen (pid : Int) : List InboundEvent → Bool
  | [] => false
  | .accepted _ other :: earlier => other = pid || flowOpen pid earlier
  | .sentPubcomp other _ (some _) :: earlier => other ≠ pid && flowOpen pid earlier
  | _ :: earlier => flowOpen pid earlier

/-- The messages that arrived inside an open flow of their identifier. -/
def suppressed : List InboundEvent → List Nat
  | [] => []
  | .receivedPublish received :: earlier =>
      if received.publish.qos = .exactlyOnce ∧
          received.publish.packetId.elim false (fun pid => flowOpen pid earlier) = true then
        received.seq :: suppressed earlier
      else suppressed earlier
  | _ :: earlier => suppressed earlier

/-! ## Steps without replay -/

/-- What one step adds to the log: a message is routed only when it arrives outside of
every open flow. -/
inductive LiveStep (s next : InboundPublishFlow) : Prop
  | aside (hseq : next.nextSeq = s.nextSeq) (new : List InboundEvent)
      (hlog : next.log = new ++ s.log) (hnew : ∀ event ∈ new, event.aside = true)
  | arrival (packet : Publish) (hseq : next.nextSeq = s.nextSeq + 1) (new : List InboundEvent)
      (hlog : next.log = new ++ .receivedPublish { seq := s.nextSeq, publish := packet } :: s.log)
      (hnew : ∀ event ∈ new, event.aside = true ∨ (event = .routed s.nextSeq ∧ s.Fresh packet))

theorem LiveStep.of_aside (h : Aside s next) : LiveStep s next := by
  obtain ⟨new, hlog, hnew⟩ := h.log
  exact .aside h.nextSeq new hlog hnew

/-- Nothing but events beside the buffer follows an arrival. -/
theorem LiveStep.of_arrived {packet : Publish} (h : Aside (s.arrived packet) next) :
    LiveStep s next := by
  obtain ⟨-, -, hseq, new, hlog, hnew⟩ := h
  rw [arrived_frame] at hseq hlog
  exact .arrival packet hseq new hlog fun event hevent => .inl (hnew event hevent)

theorem route_noSession (h : NoSession s) (received : Received) (claim : Option Nat)
    (write : WriteOutcome) :
    ∃ routed, (routed = s ∨ routed = s.emit (.noSubscriber received.seq)) ∧
      s.route received claim write =
        routed.deliverReplay received (s.selectRecipient received claim) write := by
  rcases s.selectRecipientOrBuffer_cases received claim with
    ⟨-, heq⟩ | ⟨-, -, -, heq⟩ | ⟨b, hstate, -⟩ | ⟨hstate, -⟩
  · refine ⟨s, .inl rfl, ?_⟩
    unfold InboundPublishFlow.route
    rw [heq]
  · refine ⟨_, .inr rfl, ?_⟩
    unfold InboundPublishFlow.route
    rw [heq]
  · rw [h] at hstate
    cases hstate
  · rw [h] at hstate
    cases hstate

theorem handlePublish_live (h : NoSession s) (packet : Publish) (claim : Option Nat)
    (write : WriteOutcome) :
    (s.handlePublish packet claim write).1.replay = s.replay ∧
      LiveStep s (s.handlePublish packet claim write).1 := by
  have hreplay : (s.arrived packet).replay = s.replay := by rw [arrived_frame]
  rcases s.handlePublish_cases packet claim write with
    ⟨-, -, heq⟩ | ⟨-, e, heq⟩ | ⟨-, -, heq⟩ | ⟨-, -, pid, flight, -, -, heq⟩ | ⟨-, hfresh, -, heq⟩
  · rw [heq]
    exact ⟨hreplay, .of_arrived (.refl _)⟩
  · rw [heq]
    exact ⟨hreplay, .of_arrived (.emit _ rfl)⟩
  · rw [heq]
    exact ⟨hreplay, .of_arrived (.refl _)⟩
  · rw [heq]
    exact ⟨hreplay, .of_arrived (.emit _ rfl)⟩
  · rw [heq]
    have harrived : NoSession (s.arrived packet) := hreplay.trans h
    obtain ⟨routed, hrouted, hroute⟩ :=
      route_noSession harrived { seq := s.nextSeq, publish := packet } claim write
    rw [hroute]
    have hbefore : Aside (s.arrived packet) routed := by
      rcases hrouted with rfl | rfl
      · exact .refl _
      · exact .emit _ rfl
    obtain ⟨hreplay', -, hseq', before, hlog', hbefore'⟩ := hbefore
    obtain ⟨hreplay'', -, hseq'', after, hlog'', hafter⟩ := Aside.deliverReplay routed
      { seq := s.nextSeq, publish := packet }
      ((s.arrived packet).selectRecipient { seq := s.nextSeq, publish := packet } claim) write
    refine ⟨hreplay''.trans (hreplay'.trans hreplay), ?_⟩
    refine .arrival packet ?_ (after ++ .routed s.nextSeq :: before) ?_ ?_
    · rw [hseq'']
      change routed.nextSeq = _
      rw [hseq', arrived_frame]
    · rw [hlog'']
      change after ++ .routed s.nextSeq :: routed.log = _
      rw [hlog', arrived_frame]
      simp
    · intro event hevent
      rcases List.mem_append.mp hevent with hmem | hmem
      · exact .inl (hafter event hmem)
      · rcases List.mem_cons.mp hmem with rfl | hmem
        · exact .inr ⟨rfl, hfresh⟩
        · exact .inl (hbefore' event hmem)

theorem LiveStep.trans {mid : InboundPublishFlow} (h : LiveStep s mid) (haside : Aside mid next) :
    LiveStep s next := by
  obtain ⟨-, -, hseq', after, hlog', hafter⟩ := haside
  cases h with
  | aside hseq new hlog hnew =>
      refine .aside (hseq'.trans hseq) (after ++ new) (by rw [hlog', hlog, List.append_assoc]) ?_
      intro event hevent
      exact (List.mem_append.mp hevent).elim (hafter event) (hnew event)
  | arrival packet hseq new hlog hnew =>
      refine .arrival packet (hseq'.trans hseq) (after ++ new)
        (by rw [hlog', hlog, List.append_assoc]) ?_
      intro event hevent
      exact (List.mem_append.mp hevent).elim (fun h => .inl (hafter event h)) (hnew event)

/-- The end of a handler of the read loop changes neither the log nor the replay state. -/
theorem live_storeReader {x : InboundPublishFlow × Frame}
    (h : x.1.replay = s.replay ∧ LiveStep s x.1) :
    (storeReader x).replay = s.replay ∧ LiveStep s (storeReader x) := by
  obtain ⟨mid, frame⟩ := x
  obtain ⟨hreplay, hlive⟩ := h
  have hsame : ∀ {t : InboundPublishFlow}, t.replay = mid.replay → t.nextSeq = mid.nextSeq →
      t.log = mid.log → t.replay = s.replay ∧ LiveStep s t := by
    intro t htreplay htseq htlog
    refine ⟨htreplay.trans hreplay, ?_⟩
    cases hlive with
    | aside hseq new hlog hnew => exact .aside (htseq.trans hseq) new (htlog.trans hlog) hnew
    | arrival packet hseq new hlog hnew =>
        exact .arrival packet (htseq.trans hseq) new (htlog.trans hlog) hnew
  cases frame <;> exact hsame rfl rfl rfl

theorem live_settle {x : InboundPublishFlow × Frame} (write : WriteOutcome)
    (h : x.1.replay = s.replay ∧ LiveStep s x.1) :
    (settle write x).1.replay = s.replay ∧ LiveStep s (settle write x).1 := by
  have haside := Aside.settle write x
  exact ⟨haside.replay.trans h.1, h.2.trans haside⟩

/-- Without a session every step is live. -/
theorem live_step (h : NoSession s) {a : Action} (hstep : s.step a = some next) :
    NoSession next ∧ LiveStep s next := by
  have hrefl : LiveStep s s := .of_aside (.refl s)
  have htasks : s.replay.tasks = [] := by rw [h]
  have hstate : s.replay.state = .noSession := by rw [h]
  have hbuffer : ∀ b, s.replay.buffer b = {} := by
    intro b
    rw [h]
    rfl
  suffices hlive : next.replay = s.replay ∧ LiveStep s next from ⟨hlive.1.trans h, hlive.2⟩
  cases a with
  | publish packet claim write =>
      obtain ⟨-, heq⟩ := Option.ite_none_right_eq_some.mp hstep
      cases heq
      exact live_storeReader (live_settle write (handlePublish_live h packet claim write))
  | pubrel packet write =>
      obtain ⟨-, heq⟩ := Option.ite_none_right_eq_some.mp hstep
      cases heq
      have haside := Aside.handlePubrel s packet write
      exact live_storeReader (live_settle write ⟨haside.replay, .of_aside haside⟩)
  | resumeReader ok write =>
      obtain ⟨frame, -, rfl⟩ := Option.map_eq_some_iff.mp hstep
      exact live_storeReader (live_settle write ⟨rfl, .aside rfl [] rfl (List.forall_mem_nil _)⟩)
  | get queue =>
      obtain ⟨found, -, rfl⟩ := Option.map_eq_some_iff.mp hstep
      exact ⟨rfl, .aside rfl [] rfl (List.forall_mem_nil _)⟩
  | ack i =>
      obtain ⟨message, -, rfl⟩ := Option.map_eq_some_iff.mp hstep
      have haside := Aside.ack s i message
      exact ⟨haside.replay, .of_aside haside⟩
  | index op =>
      cases hstep
      exact ⟨rfl, .aside rfl [] rfl (List.forall_mem_nil _)⟩
  | detach filters queue =>
      cases hstep
      exact ⟨rfl, .aside rfl [] rfl (List.forall_mem_nil _)⟩
  | drain =>
      simp only [InboundPublishFlow.step, InboundPublishFlow.drain, hstate, Option.some.injEq] at hstep
      subst hstep
      exact ⟨rfl, hrefl⟩
  | expireReplay b =>
      simp [InboundPublishFlow.step, InboundPublishFlow.expireReplay, hbuffer] at hstep
  | acquireLock t => simp [InboundPublishFlow.step, htasks] at hstep
  | deliverNext t claim write => simp [InboundPublishFlow.step, htasks] at hstep
  | resumeTask t ok write => simp [InboundPublishFlow.step, htasks] at hstep
  | cancel t => simp [InboundPublishFlow.step, htasks] at hstep
  | clear =>
      simp only [InboundPublishFlow.step, InboundPublishFlow.clear, hstate, Option.some.injEq] at hstep
      subst hstep
      exact ⟨rfl, hrefl⟩

/-- Without a session no task can be interrupted. -/
theorem uninterrupted_of_noSession (h : NoSession s) {a : Action} (hstep : s.step a = some next) :
    Uninterrupted s a := by
  have htasks : s.replay.tasks = [] := by rw [h]
  cases a with
  | deliverNext t claim write => simp [InboundPublishFlow.step, htasks] at hstep
  | resumeTask t ok write => simp [InboundPublishFlow.step, htasks] at hstep
  | _ => trivial

/-! ## Open flows -/

/-- Neither the beginning nor the end of a flow. -/
def InboundEvent.flowless : InboundEvent → Bool
  | .accepted _ _ => false
  | .sentPubcomp _ _ (some _) => false
  | _ => true

theorem flowOpen_cons {event : InboundEvent} (h : event.flowless = true) (pid : Int)
    (log : List InboundEvent) : flowOpen pid (event :: log) = flowOpen pid log := by
  cases event with
  | accepted seq other => cases h
  | sentPubcomp other reasonCode flight =>
      cases flight with
      | none => rfl
      | some flight => cases h
  | _ => rfl

/-- An open flow is in one of the containers. -/
def Tracked (s : InboundPublishFlow) : Prop :=
  ∀ pid, flowOpen pid s.log = true →
    pid ∈ s.pendingAckQos2In ∨ (OrderedDict.get s.inflightQos2In pid).isSome

namespace Tracked

variable {event : InboundEvent}

theorem extend (h : Tracked s) (hlog : next.log = event :: s.log) (hevent : event.flowless = true)
    (hpending : next.pendingAckQos2In = s.pendingAckQos2In)
    (hinflight : next.inflightQos2In = s.inflightQos2In) : Tracked next := by
  intro pid hopen
  rw [hlog, flowOpen_cons hevent] at hopen
  rw [hpending, hinflight]
  exact h pid hopen

theorem emit (h : Tracked s) (hevent : event.flowless = true) : Tracked (s.emit event) :=
  h.extend rfl hevent rfl rfl

theorem sendPubrec {pid : Int} (h : ∀ other, pid ≠ other → flowOpen other s.log = true →
      other ∈ s.pendingAckQos2In ∨ (OrderedDict.get s.inflightQos2In other).isSome)
    (flight : InboundQoS2Flight) : Tracked (s.sendPubrec pid flight) := by
  intro other hopen
  have hbefore : flowOpen other s.log = true := hopen
  change other ∈ s.pendingAckQos2In ∨
    (OrderedDict.get (OrderedDict.set s.inflightQos2In pid flight) other).isSome
  rw [OrderedDict.get_set]
  split
  · exact .inr rfl
  · rename_i hne
    exact h other hne hbefore

theorem ack (h : Tracked s) (i : Nat) (message : Message) : Tracked (s.ack i message) := by
  have hset : ∀ m, Tracked ((s.setTaken i m).emit (.acked message.seq)) :=
    fun _ => h.extend rfl rfl rfl rfl
  rcases s.ack_cases i message with heq | ⟨marked, -, -, -, heq | ⟨pid, -, -, heq⟩⟩ |
    ⟨pid, subscription, -, heq⟩
  · rw [heq]
    exact h
  · rw [heq]
    exact h
  · rw [heq]
    exact (hset marked).extend rfl rfl rfl rfl
  · rw [heq]
    refine sendPubrec (fun other hne hopen => ?_) _
    rcases h other hopen with hpending | hinflight
    · exact .inl (Finset.mem_erase.mpr ⟨hne.symm, hpending⟩)
    · exact .inr hinflight

theorem rules : FlowRules (fun _ _ => True) Tracked fun s _ _ => Tracked s where
  take h _ := h
  store h _ _ := h
  enter _ h := h
  leave h := h
  raise _ h := h
  endReader h := h
  endTask h := h
  pause h := h
  resume h := h
  request h _ := h.emit rfl
  nobody h _ _ := h
  refuse h _ _ := h.emit rfl
  offer h _ _ _ := h.emit rfl
  put h _ := h.extend rfl rfl rfl rfl
  withdraw h _ := h.extend rfl rfl rfl rfl
  puback h := h.extend rfl rfl rfl rfl
  replay _ h := h
  quiet := by
    intro s event hquiet h
    refine h.emit ?_
    cases event with
    | accepted seq pid => cases hquiet
    | sentPubcomp pid reasonCode flight => cases hquiet
    | _ => rfl
  get _ h := h
  ack _ _ h := ack h _ _
  index _ h := h
  detach _ _ h := h
  arrive _ _ h := by
    rw [arrived_frame]
    exact h.extend rfl rfl rfl rfl
  exceed _ _ h := h.emit rfl
  resend _ h := h.emit rfl
  pubrelUnknown := by
    intro s packet write _ _ _ h
    have hreceived : Tracked (s.emit (.receivedPubrel packet.packetId)) := h.emit rfl
    exact hreceived.emit rfl
  pubrelKnown := by
    intro s packet write flight _ _ _ h pid hopen
    have hother : packet.packetId ≠ pid ∧ flowOpen pid s.log = true := by
      have hand : (packet.packetId ≠ pid && flowOpen pid s.log) = true := hopen
      simpa using hand
    change pid ∈ s.pendingAckQos2In ∨
      (OrderedDict.get (OrderedDict.pop s.inflightQos2In packet.packetId) pid).isSome
    rw [OrderedDict.get_pop, if_neg hother.1]
    exact h pid hother.2
  route _ _ _ _ h := h.emit rfl
  routeNowhere _ h := h.emit rfl
  routeRefused := by
    intro s seq oid h
    have hrouted : Tracked (s.emit (.routed seq)) := h.emit rfl
    exact hrouted.emit rfl
  accept := by
    intro s received recipient pid _ _ _ h
    refine sendPubrec (fun other hne hopen => ?_) _
    have hbefore : (decide (pid = other) || flowOpen other s.log) = true := hopen
    exact h other (by simpa [hne] using hbefore)
  acceptManual := by
    intro s o received recipient pid _ _ _ _ h other hopen
    have hbefore : (decide (pid = other) || flowOpen other s.log) = true := hopen
    by_cases heq : pid = other
    · exact .inl (heq ▸ Finset.mem_insert_self _ _)
    · rcases h other (by simpa [heq] using hbefore) with hpending | hinflight
      · exact .inl (Finset.mem_insert_of_mem hpending)
      · exact .inr hinflight

end Tracked

/-! ## The two containers -/

/-- No identifier waits for the application and for PUBREL. -/
def Apart (s : InboundPublishFlow) : Prop :=
  ∀ pid ∈ s.pendingAckQos2In, OrderedDict.get s.inflightQos2In pid = none

theorem Apart.same (h : Apart s) (hpending : next.pendingAckQos2In = s.pendingAckQos2In)
    (hinflight : next.inflightQos2In = s.inflightQos2In) : Apart next := by
  intro pid hpid
  rw [hinflight]
  exact h pid (hpending ▸ hpid)

/-- A call of a task that delivers leaves the containers alone. -/
theorem containers_advance (write : WriteOutcome) (x : InboundPublishFlow × Frame) :
    (advance write x).1.pendingAckQos2In = x.1.pendingAckQos2In ∧
      (advance write x).1.inflightQos2In = x.1.inflightQos2In := by
  obtain ⟨unacknowledged, queued, log, heq⟩ := advance_frame write x.1 x.2
  rw [heq]
  exact ⟨rfl, rfl⟩

theorem Apart.settle (write : WriteOutcome) {x : InboundPublishFlow × Frame}
    (h : Apart x.1) : Apart (settle write x).1 := by
  have hstep : ∀ y : InboundPublishFlow × Frame, Apart y.1 → Apart (advance write y).1 := by
    intro y hy
    obtain ⟨hpending, hinflight⟩ := containers_advance write y
    exact hy.same hpending hinflight
  exact hstep _ (hstep _ (hstep _ h))

theorem Apart.storeReader {x : InboundPublishFlow × Frame} (h : Apart x.1) :
    Apart (storeReader x) := by
  obtain ⟨s, frame⟩ := x
  cases frame <;> exact h

theorem Apart.handlePublish (h : Apart s) (hsession : NoSession s) (packet : Publish)
    (claim : Option Nat) (write : WriteOutcome) :
    Apart (s.handlePublish packet claim write).1 := by
  have harrived : Apart (s.arrived packet) := by
    rw [arrived_frame]
    exact h
  rcases s.handlePublish_cases packet claim write with
    ⟨-, -, heq⟩ | ⟨-, e, heq⟩ | ⟨-, -, heq⟩ | ⟨-, -, pid, flight, -, -, heq⟩ | ⟨-, hfresh, -, heq⟩
  · rw [heq]
    exact harrived
  · rw [heq]
    exact harrived
  · rw [heq]
    exact harrived
  · rw [heq]
    exact harrived
  · rw [heq]
    have hsession' : NoSession (s.arrived packet) := by
      rw [arrived_frame]
      exact hsession
    obtain ⟨routed, hrouted, hroute⟩ :=
      route_noSession hsession' { seq := s.nextSeq, publish := packet } claim write
    rw [hroute]
    have hcontainers : routed.pendingAckQos2In = s.pendingAckQos2In ∧
        routed.inflightQos2In = s.inflightQos2In := by
      rcases hrouted with rfl | rfl <;> (rw [arrived_frame]; exact ⟨rfl, rfl⟩)
    have hapart : Apart routed := h.same hcontainers.1 hcontainers.2
    simp only [deliverReplay]
    cases hqos : packet.qos with
    | atMostOnce => exact hapart
    | atLeastOnce =>
        simp only [deliverQos1Publish]
        split
        · exact hapart
        · split <;> exact hapart
    | exactlyOnce =>
        simp only [acceptQos2Publish]
        split
        · exact hapart
        · exact hapart
        · rename_i pid hpid _
          -- the identifier is in neither container before
          obtain ⟨hnone, hpending⟩ := hfresh hqos pid hpid
          split
          · intro other hother
            have hne : pid ≠ other := by
              rintro rfl
              exact hpending (hcontainers.1 ▸ hother)
            change OrderedDict.get (OrderedDict.set routed.inflightQos2In pid _) other = none
            rw [OrderedDict.get_set, if_neg hne]
            exact hapart other hother
          · intro other hother
            rcases Finset.mem_insert.mp hother with rfl | hold
            · change OrderedDict.get routed.inflightQos2In other = none
              rw [hcontainers.2]
              exact hnone
            · exact hapart other hold

theorem Apart.step (h : Apart s) (hsession : NoSession s) {a : Action}
    (hstep : s.step a = some next) : Apart next := by
  have htasks : s.replay.tasks = [] := by rw [hsession]
  have hstate : s.replay.state = .noSession := by rw [hsession]
  cases a with
  | publish packet claim write =>
      obtain ⟨-, heq⟩ := Option.ite_none_right_eq_some.mp hstep
      cases heq
      exact ((h.handlePublish hsession packet claim write).settle write).storeReader
  | pubrel packet write =>
      obtain ⟨-, heq⟩ := Option.ite_none_right_eq_some.mp hstep
      cases heq
      refine Apart.storeReader (Apart.settle write ?_)
      unfold InboundPublishFlow.handlePubrel
      simp only
      split
      · exact h
      · intro pid hpid
        change OrderedDict.get (OrderedDict.pop s.inflightQos2In packet.packetId) pid = none
        rw [OrderedDict.get_pop]
        split
        · rfl
        · exact h pid hpid
  | resumeReader ok write =>
      obtain ⟨frame, -, rfl⟩ := Option.map_eq_some_iff.mp hstep
      have hpopped : Apart { s with frames := OrderedDict.pop s.frames .reader } := h
      exact Apart.storeReader (Apart.settle write hpopped)
  | get queue =>
      obtain ⟨found, -, rfl⟩ := Option.map_eq_some_iff.mp hstep
      exact h
  | ack i =>
      obtain ⟨message, -, rfl⟩ := Option.map_eq_some_iff.mp hstep
      rcases s.ack_cases i message with heq | ⟨marked, -, -, -, heq | ⟨pid, -, -, heq⟩⟩ |
        ⟨pid, subscription, -, heq⟩
      · rw [heq]
        exact h
      · rw [heq]
        exact h
      · rw [heq]
        exact h
      · rw [heq]
        intro other hother
        obtain ⟨hne, hold⟩ := Finset.mem_erase.mp hother
        change OrderedDict.get (OrderedDict.set s.inflightQos2In pid _) other = none
        rw [OrderedDict.get_set, if_neg (Ne.symm hne)]
        exact h other hold
  | index op =>
      cases hstep
      exact h
  | detach filters queue =>
      cases hstep
      exact h
  | drain =>
      simp only [InboundPublishFlow.step, InboundPublishFlow.drain, hstate, Option.some.injEq]
        at hstep
      subst hstep
      exact h
  | expireReplay b =>
      have hbuffer : s.replay.buffer b = {} := by
        rw [hsession]
        rfl
      simp [InboundPublishFlow.step, InboundPublishFlow.expireReplay, hbuffer] at hstep
  | acquireLock t => simp [InboundPublishFlow.step, htasks] at hstep
  | deliverNext t claim write => simp [InboundPublishFlow.step, htasks] at hstep
  | resumeTask t ok write => simp [InboundPublishFlow.step, htasks] at hstep
  | cancel t => simp [InboundPublishFlow.step, htasks] at hstep
  | clear =>
      simp only [InboundPublishFlow.step, InboundPublishFlow.clear, hstate, Option.some.injEq]
        at hstep
      subst hstep
      exact h

/-! ## Duplicates -/

/-- A message that arrived inside an open flow is not routed, then or later. -/
def Ignored (s : InboundPublishFlow) : Prop :=
  (∀ seq, .routed seq ∈ s.log → seq < s.nextSeq) ∧
    ∀ seq ∈ suppressed s.log, seq < s.nextSeq ∧ .routed seq ∉ s.log

/-- No arrival of a message. -/
theorem suppressed_append {new : List InboundEvent}
    (hnew : ∀ event ∈ new, ∀ received, event ≠ .receivedPublish received)
    (log : List InboundEvent) : suppressed (new ++ log) = suppressed log := by
  induction new with
  | nil => rfl
  | cons event rest ih =>
      have hrest := ih fun other hother => hnew other (List.mem_cons_of_mem _ hother)
      cases event with
      | receivedPublish received => exact absurd rfl (hnew _ List.mem_cons_self received)
      | _ => exact hrest

theorem Ignored.step (h : Ignored s) (htracked : Tracked s) (hstep : LiveStep s next) :
    Ignored next := by
  cases hstep with
  | aside hseq new hlog hnew =>
      have hrouted : ∀ seq, .routed seq ∈ next.log → .routed seq ∈ s.log := by
        intro seq hmem
        rw [hlog] at hmem
        exact (List.mem_append.mp hmem).resolve_left fun hmem => by cases hnew _ hmem
      have hsuppressed : suppressed next.log = suppressed s.log := by
        rw [hlog]
        refine suppressed_append (fun event hevent received heq => ?_) _
        rw [heq] at hevent
        cases hnew _ hevent
      rw [Ignored, hsuppressed, hseq]
      refine ⟨fun seq hmem => h.1 seq (hrouted seq hmem), fun seq hmem => ?_⟩
      obtain ⟨hlt, hnot⟩ := h.2 seq hmem
      exact ⟨hlt, fun hmem => hnot (hrouted seq hmem)⟩
  | arrival packet hseq new hlog hnew =>
      have hrouted : ∀ seq, .routed seq ∈ next.log →
          .routed seq ∈ s.log ∨ (seq = s.nextSeq ∧ s.Fresh packet) := by
        intro seq hmem
        rw [hlog] at hmem
        rcases List.mem_append.mp hmem with hmem | hmem
        · rcases hnew _ hmem with haside | ⟨heq, hfresh⟩
          · cases haside
          · exact .inr ⟨InboundEvent.routed.inj heq, hfresh⟩
        · exact .inl ((List.mem_cons.mp hmem).resolve_left nofun)
      have hsuppressed : suppressed next.log =
          suppressed (.receivedPublish { seq := s.nextSeq, publish := packet } :: s.log) := by
        rw [hlog]
        refine suppressed_append (fun event hevent received heq => ?_) _
        rw [heq] at hevent
        rcases hnew _ hevent with haside | ⟨heq, -⟩
        · cases haside
        · cases heq
      rw [Ignored, hsuppressed, hseq]
      have hold : ∀ seq ∈ suppressed s.log, seq < s.nextSeq + 1 ∧ .routed seq ∉ next.log := by
        intro seq hmem
        obtain ⟨hlt, hnot⟩ := h.2 seq hmem
        refine ⟨Nat.lt_succ_of_lt hlt, fun hmem => ?_⟩
        rcases hrouted seq hmem with hmem | ⟨heq, -⟩
        · exact hnot hmem
        · exact absurd heq (Nat.ne_of_lt hlt)
      refine ⟨fun seq hmem => ?_, fun seq hmem => ?_⟩
      · rcases hrouted seq hmem with hmem | ⟨heq, -⟩
        · exact Nat.lt_succ_of_lt (h.1 seq hmem)
        · exact heq ▸ Nat.lt_succ_self _
      · rw [suppressed] at hmem
        split at hmem
        · rename_i hopen
          rcases List.mem_cons.mp hmem with rfl | hmem
          · -- an open flow is tracked, so the message was not fresh
            refine ⟨Nat.lt_succ_self _, fun hmem => ?_⟩
            rcases hrouted _ hmem with hmem | ⟨-, hfresh⟩
            · exact absurd (h.1 _ hmem) (Nat.lt_irrefl _)
            · cases hpid : packet.packetId with
              | none => simp [hpid] at hopen
              | some pid =>
                  obtain ⟨hnone, hpending⟩ := hfresh hopen.1 pid hpid
                  rcases htracked pid (by simpa [hpid] using hopen.2) with hmem | hsome
                  · exact hpending hmem
                  · rw [hnone] at hsome
                    cases hsome
          · exact hold seq hmem
        · exact hold seq hmem

theorem mem_suppressed {later earlier : List InboundEvent} {received : Received} {pid : Int}
    (hqos : received.publish.qos = .exactlyOnce) (hpid : received.publish.packetId = some pid)
    (hopen : flowOpen pid earlier = true) :
    received.seq ∈ suppressed (later ++ .receivedPublish received :: earlier) := by
  induction later with
  | nil =>
      have hif : received.publish.qos = .exactlyOnce ∧
          received.publish.packetId.elim false (fun pid => flowOpen pid earlier) = true :=
        ⟨hqos, by rw [hpid]; exact hopen⟩
      rw [List.nil_append, suppressed, if_pos hif]
      exact List.mem_cons_self
  | cons event rest ih =>
      cases event with
      | receivedPublish other =>
          rw [List.cons_append, suppressed]
          split
          · exact List.mem_cons_of_mem _ ih
          · exact ih
      | _ => exact ih

/-! ## PUBREL and PUBCOMP -/

/-- The identifiers of the PUBREL packets, newest first. -/
def pubrels (log : List InboundEvent) : List Int :=
  log.filterMap fun
    | .receivedPubrel pid => some pid
    | _ => none

/-- The identifiers of the PUBCOMP packets, newest first. -/
def pubcomps (log : List InboundEvent) : List Int :=
  log.filterMap fun
    | .sentPubcomp pid _ _ => some pid
    | _ => none

theorem pubcomps_rules : FlowRules (fun _ _ => True) (fun s => pubcomps s.log = pubrels s.log)
    fun s _ _ => pubcomps s.log = pubrels s.log := by
  apply FlowRules.ofLog (P := fun _ log => pubcomps log = pubrels log)
  · intro _ event log hplain h
    cases event with
    | receivedPubrel pid => cases hplain
    | sentPubcomp pid reasonCode flight => cases hplain
    | _ => exact h
  · intro _ log publish h
    exact h
  · intro _ log pid reasonCode flight h
    exact congrArg (pid :: ·) h
  · intro s packet claim write _ _ _ log h
    exact h

/-! ## Whole runs -/

/-- What holds of every state that a connection without a session reaches. -/
structure Live (s : InboundPublishFlow) : Prop where
  noSession : NoSession s
  tracked : Tracked s
  apart : Apart s
  ignored : Ignored s

theorem Live.step (h : Live s) {a : Action} (hstep : s.step a = some next) : Live next := by
  obtain ⟨hsession, hlive⟩ := live_step h.noSession hstep
  exact ⟨hsession, Tracked.rules.step h.tracked trivial hstep, h.apart.step h.noSession hstep,
    h.ignored.step h.tracked hlive⟩

theorem Live.start {config : Config} (h : config.sessionPresent = false) : Live (start config) where
  noSession := by
    simp only [NoSession, InboundPublishFlow.start, h]
    rfl
  tracked := fun _ h => by cases h
  apart := fun _ h => absurd h (Finset.notMem_empty _)
  ignored := ⟨fun _ h => (List.not_mem_nil h).elim, fun _ h => (List.not_mem_nil h).elim⟩

/-- **QoS 2 duplicate suppression without a session.**  Every message is handed over at
most once, a PUBLISH inside an open flow of its identifier is neither handed over nor
registered, no identifier is in both containers, and the PUBCOMP packets answer the
PUBREL packets one by one. -/
theorem qos2_duplicates_suppressed (config : Config) (actions : List Action)
    (s : InboundPublishFlow) (hsession : config.sessionPresent = false)
    (hrun : Transition.run step (start config) actions = some s) :
    (∀ seq, tally (handOver seq).event s.log ≤ 1) ∧
      (∀ later earlier received pid, s.log = later ++ .receivedPublish received :: earlier →
        received.publish.qos = .exactlyOnce → received.publish.packetId = some pid →
        flowOpen pid earlier = true → Untouched received.seq s.log) ∧
      (∀ pid ∈ s.pendingAckQos2In, OrderedDict.get s.inflightQos2In pid = none) ∧
      pubcomps s.log = pubrels s.log := by
  have hlive := Transition.invariant (fun _ _ _ h hstep => Live.step h hstep)
    (Live.start hsession) hrun
  have huninterrupted : Transition.Along step Uninterrupted (start config) actions :=
    Transition.along_of_invariant
      (fun _ _ _ h hstep => ⟨uninterrupted_of_noSession h.noSession hstep, h.step hstep⟩)
      (Live.start hsession) hrun
  have hkept := Kept.run huninterrupted hrun
  refine ⟨fun seq => (hkept.neverTwice hrun seq).1, ?_, hlive.apart, ?_⟩
  · intro later earlier received pid hlog hqos hpid hopen
    have hmem : received.seq ∈ suppressed s.log := by
      rw [hlog]
      exact mem_suppressed hqos hpid hopen
    apply untouched_of_routes hrun
    apply tally_eq_zero
    intro event hevent
    cases event with
    | routed other =>
        refine if_neg ?_
        rintro rfl
        exact (hlive.ignored.2 _ hmem).2 hevent
    | _ => rfl
  · exact pubcomps_rules.run (s := start config) rfl (Transition.along_true _ _) hrun

/-- A message with manual acknowledgement, retransmitted before and after PUBREC. -/
theorem qos2_duplicates_suppressed_manual :
    ∃ s, Transition.run step (start {})
        [.index (.add (str "t") { sampleEntry with autoAck := false }),
          .publish (samplePublish .exactlyOnce 7) none .done,
          .publish (samplePublish .exactlyOnce 7) none .done, .get 0, .ack 0,
          .publish (samplePublish .exactlyOnce 7) none .done,
          .pubrel { packetId := 7 } .done] = some s ∧
      tally (handOver 1).event s.log = 1 ∧ Untouched 2 s.log ∧ Untouched 3 s.log ∧
      pubcomps s.log = [7] := by
  have hrun : ∃ s flight, Transition.run step (start {})
      [.index (.add (str "t") { sampleEntry with autoAck := false }),
        .publish (samplePublish .exactlyOnce 7) none .done,
        .publish (samplePublish .exactlyOnce 7) none .done, .get 0, .ack 0,
        .publish (samplePublish .exactlyOnce 7) none .done,
        .pubrel { packetId := 7 } .done] = some s ∧
      s.log = [.sentPubcomp 7 0 (some flight), .receivedPubrel 7, .sentPubrec 7,
        .receivedPublish { seq := 3, publish := samplePublish .exactlyOnce 7 }, .sentPubrec 7,
        .acked 1, .receivedPublish { seq := 2, publish := samplePublish .exactlyOnce 7 },
        .put 1 0 false, .offered 1 0, .accepted 1 7, .routed 1,
        .receivedPublish { seq := 1, publish := samplePublish .exactlyOnce 7 }] :=
    ⟨_, _, rfl, rfl⟩
  obtain ⟨s, flight, hs, hlog⟩ := hrun
  have hresult := qos2_duplicates_suppressed _ _ s rfl hs
  refine ⟨s, hs, ?_, ?_, ?_, hresult.2.2.2.trans ?_⟩
  · rw [hlog]
    rfl
  · exact hresult.2.1 [_, _, _, _, _, _] _ { seq := 2, publish := samplePublish .exactlyOnce 7 } 7
      hlog rfl rfl rfl
  · exact hresult.2.1 [_, _, _] _ { seq := 3, publish := samplePublish .exactlyOnce 7 } 7
      hlog rfl rfl rfl
  · rw [hlog]
    rfl

end Zmqtt
