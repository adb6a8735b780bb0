import Zmqtt.InboundRules

/-!
# Receive Maximum

What the broker may have open, read off the log alone, against the set the client
keeps.  A PUBLISH opens the flow of its identifier, PUBACK and PUBCOMP close it.
-/

namespace Zmqtt

open InboundPublishFlow

/-- The identifiers of the QoS 1 and QoS 2 flows received and not yet answered with
PUBACK or PUBCOMP. -/
def openFlows : List InboundEvent → Finset Int
  | [] => ∅
  | .receivedPublish received :: earlier =>
      if received.publish.qos = .atMostOnce then openFlows earlier
      else received.publish.packetId.elim (openFlows earlier) fun pid =>
        insert pid (openFlows earlier)
  | .sentPuback _ pid :: earlier => (openFlows earlier).erase pid
  | .sentPubcomp pid _ _ :: earlier => (openFlows earlier).erase pid
  | _ :: earlier => openFlows earlier

/-- PUBREC was sent for an identifier since its flow was opened last. -/
def pubrecSent (pid : Int) : List InboundEvent → Bool
  | [] => false
  | .receivedPublish received :: earlier =>
      if received.publish.qos ≠ .atMostOnce ∧ received.publish.packetId = some pid ∧
          pid ∉ openFlows earlier then false
      else pubrecSent pid earlier
  | .sentPubrec other :: earlier => decide (other = pid) || pubrecSent pid earlier
  | _ :: earlier => pubrecSent pid earlier

/-- A broker that starts a flow only under an identifier without an open one, that may
repeat a QoS 2 PUBLISH (the repetition can cross the PUBREC on its way), and that sends
PUBREL only after PUBREC or for a flow from before this connection. -/
def BrokerConforms (s : InboundPublishFlow) : Action → Prop
  | .publish packet _ _ =>
      packet.qos = .atMostOnce ∨ ∀ pid, packet.packetId = some pid →
        pid ∉ openFlows s.log ∨ packet.qos = .exactlyOnce
  | .pubrel packet _ =>
      packet.packetId ∈ openFlows s.log → pubrecSent packet.packetId s.log = true
  | _ => True

/-- The client counts what is open, and knows every flow it sent PUBREC for. -/
def Accounts (s : InboundPublishFlow) : Prop :=
  s.unacknowledged = openFlows s.log ∧
    ∀ pid ∈ openFlows s.log, pubrecSent pid s.log = true →
      (OrderedDict.get s.inflightQos2In pid).isSome

theorem arrived_unacknowledged (s : InboundPublishFlow) (packet : Publish) :
    (s.arrived packet).unacknowledged =
      if packet.qos = .atMostOnce then s.unacknowledged
      else packet.packetId.elim s.unacknowledged fun pid => insert pid s.unacknowledged := by
  unfold arrived
  split
  · rfl
  · cases packet.packetId <;> rfl

namespace Accounts

variable {s : InboundPublishFlow}

theorem arrived (h : Accounts s) (packet : Publish) : Accounts (s.arrived packet) := by
  have hopen : (s.arrived packet).unacknowledged =
      openFlows (.receivedPublish { seq := s.nextSeq, publish := packet } :: s.log) := by
    rw [arrived_unacknowledged, h.1]
    rfl
  rw [arrived_frame]
  refine ⟨hopen, fun pid hpid hsent => ?_⟩
  simp only [pubrecSent] at hsent
  split at hsent
  · cases hsent
  · rename_i hold
    refine h.2 pid ?_ hsent
    -- an identifier that the PUBLISH opens has no PUBREC yet
    by_contra hnot
    simp only [openFlows] at hpid
    split at hpid
    · exact hnot hpid
    · rename_i hqos
      cases hpacket : packet.packetId with
      | none =>
          rw [hpacket] at hpid
          exact hnot hpid
      | some other =>
          rw [hpacket] at hpid
          rcases Finset.mem_insert.mp hpid with rfl | hpid
          · exact hold ⟨hqos, hpacket, hnot⟩
          · exact hnot hpid

/-- PUBACK and PUBCOMP close a flow on both sides. -/
theorem complete (h : Accounts s) (pid : Int) {event : InboundEvent}
    (hopen : openFlows (event :: s.log) = (openFlows s.log).erase pid)
    (hsent : ∀ other, pubrecSent other (event :: s.log) = pubrecSent other s.log) :
    Accounts (s.complete pid event) := by
  refine ⟨?_, fun other hother hrec => ?_⟩
  · change s.unacknowledged.erase pid = openFlows (event :: s.log)
    rw [hopen, h.1]
  · change other ∈ openFlows (event :: s.log) at hother
    change pubrecSent other (event :: s.log) = true at hrec
    rw [hopen] at hother
    rw [hsent] at hrec
    exact h.2 other (Finset.mem_of_mem_erase hother) hrec

/-- PUBREC is sent for a flow that is then registered. -/
theorem sendPubrec (h : Accounts s) (pid : Int) (flight : InboundQoS2Flight) :
    Accounts (s.sendPubrec pid flight) := by
  refine ⟨h.1, fun other hother hrec => ?_⟩
  change (OrderedDict.get (OrderedDict.set s.inflightQos2In pid flight) other).isSome
  rw [OrderedDict.get_set]
  by_cases heq : pid = other
  · rw [if_pos heq]
    rfl
  · rw [if_neg heq]
    have hearlier : pubrecSent other s.log = true := by
      change (decide (pid = other) || pubrecSent other s.log) = true at hrec
      simpa [heq] using hrec
    exact h.2 other hother hearlier

theorem resend (h : Accounts s) {pid : Int} {flight : InboundQoS2Flight}
    (hget : OrderedDict.get s.inflightQos2In pid = some flight) :
    Accounts (s.emit (.sentPubrec pid)) := by
  refine ⟨h.1, fun other hother hrec => ?_⟩
  change (OrderedDict.get s.inflightQos2In other).isSome
  by_cases heq : pid = other
  · rw [← heq, hget]
    rfl
  · have hearlier : pubrecSent other s.log = true := by
      change (decide (pid = other) || pubrecSent other s.log) = true at hrec
      simpa [heq] using hrec
    exact h.2 other hother hearlier

theorem ack (h : Accounts s) (i : Nat) (message : Message) : Accounts (s.ack i message) := by
  rcases s.ack_cases i message with heq | ⟨marked, -, -, -, heq | ⟨pid, -, -, heq⟩⟩ |
    ⟨pid, subscription, -, heq⟩
  · rw [heq]
    exact h
  · rw [heq]
    exact h
  · rw [heq]
    have hacked : Accounts ((s.setTaken i marked).emit (.acked message.seq)) := h
    exact hacked.complete pid rfl (fun _ => rfl)
  · rw [heq]
    exact sendPubrec h _ _

theorem rules : FlowRules BrokerConforms Accounts fun s _ _ => Accounts s where
  take h _ := h
  store h _ _ := h
  enter _ h := h
  leave h := h
  raise _ h := h
  endReader h := h
  endTask h := h
  pause h := h
  resume h := h
  request h _ := h
  nobody h _ _ := h
  refuse h _ _ := h
  offer h _ _ _ := h
  put h _ := h
  withdraw h _ := h
  puback h := complete h _ rfl (fun _ => rfl)
  replay _ h := h
  quiet := by
    intro s event hquiet h
    cases event with
    | noSubscriber seq => exact h
    | buffered seq => exact h
    | rejected seq => exact h
    | dropped seq => exact h
    | aborted code => exact h
    | _ => cases hquiet
  get _ h := h
  ack _ _ h := ack h _ _
  index _ h := h
  detach _ _ h := h
  arrive _ _ h := arrived h _
  exceed _ _ h := h
  resend hget h := resend h hget
  pubrelUnknown := by
    intro s packet write hok _ hget h
    have hclosed : packet.packetId ∉ openFlows s.log := by
      intro hopen
      have hsome := h.2 _ hopen (hok hopen)
      rw [hget] at hsome
      cases hsome
    refine ⟨?_, fun other hother hrec => h.2 other (Finset.mem_of_mem_erase hother) hrec⟩
    change s.unacknowledged = (openFlows s.log).erase packet.packetId
    rw [Finset.erase_eq_of_notMem hclosed, h.1]
  pubrelKnown := by
    intro s packet write flight _ _ _ h
    refine ⟨?_, fun other hother hrec => ?_⟩
    · change s.unacknowledged.erase _ = (openFlows s.log).erase _
      rw [h.1]
    · obtain ⟨hne, hopen⟩ := Finset.mem_erase.mp hother
      change (OrderedDict.get (OrderedDict.pop s.inflightQos2In packet.packetId) other).isSome
      rw [OrderedDict.get_pop, if_neg (Ne.symm hne)]
      exact h.2 other hopen hrec
  route _ _ _ _ h := h
  routeNowhere _ h := h
  routeRefused _ _ h := h
  accept _ _ _ h := sendPubrec h _ _
  acceptManual _ _ _ _ h := h

end Accounts

/-! ## The limit -/

/-- How often the connection was closed with 0x93. -/
def aborts (log : List InboundEvent) : Nat := log.count (.aborted (some 0x93))

/-- The PUBLISH of an action makes the open flows exceed the limit. -/
def ExceedsLimit (s : InboundPublishFlow) : Action → Prop
  | .publish packet _ _ =>
      packet.qos ≠ .atMostOnce ∧ ∃ pid limit, packet.packetId = some pid ∧
        s.receiveMaximum = some limit ∧ limit < (insert pid (openFlows s.log)).card
  | _ => False

theorem Accounts.exceeds_iff {s : InboundPublishFlow} (h : Accounts s) (packet : Publish)
    (claim : Option Nat) (write : WriteOutcome) :
    s.Exceeds packet ↔ ExceedsLimit s (.publish packet claim write) := by
  unfold Exceeds
  rw [arrived_unacknowledged, h.1]
  constructor
  · rintro ⟨hqos, hsome, limit, hlimit, hlt⟩
    obtain ⟨pid, hpid⟩ := Option.isSome_iff_exists.mp hsome
    rw [if_neg hqos, hpid] at hlt
    exact ⟨hqos, pid, limit, hpid, hlimit, hlt⟩
  · rintro ⟨hqos, pid, limit, hpid, hlimit, hlt⟩
    rw [if_neg hqos, hpid]
    exact ⟨hqos, rfl, limit, hlimit, hlt⟩

/-- Only an excess closes the connection with 0x93. -/
theorem aborts_rules (n : Nat) :
    FlowRules (fun s a => ∀ packet claim write, a = .publish packet claim write →
      ¬s.Exceeds packet) (fun s => aborts s.log = n) fun s _ _ => aborts s.log = n := by
  apply FlowRules.ofLog (P := fun _ log => aborts log = n)
  · intro _ event log hplain h
    rw [aborts, List.count_cons_of_ne (by rintro rfl; cases hplain)]
    exact h
  · intro m log publish h
    have hne : InboundEvent.receivedPublish { seq := m, publish } ≠ .aborted (some 0x93) := nofun
    rw [aborts, List.count_cons_of_ne hne]
    exact h
  · intro m log pid reasonCode flight h
    have hsent : InboundEvent.sentPubcomp pid reasonCode flight ≠ .aborted (some 0x93) := nofun
    have hreceived : InboundEvent.receivedPubrel pid ≠ .aborted (some 0x93) := nofun
    rw [aborts, List.count_cons_of_ne hsent, List.count_cons_of_ne hreceived]
    exact h
  · intro s packet claim write hok hexceeds
    exact absurd hexceeds (hok packet claim write rfl)

/-- An excess closes the connection before anything else is done with the PUBLISH. -/
theorem step_of_exceeds {s next : InboundPublishFlow} {packet : Publish} {claim : Option Nat}
    {write : WriteOutcome} (hexceeds : s.Exceeds packet)
    (hstep : s.step (.publish packet claim write) = some next) :
    next.log = .aborted (some 0x93) ::
        .receivedPublish { seq := s.nextSeq, publish := packet } :: s.log ∧
      next.ended.isSome := by
  obtain ⟨-, heq⟩ := Option.ite_none_right_eq_some.mp hstep
  cases heq
  rcases s.handlePublish_cases packet claim write with ⟨-, hpid, -⟩ | ⟨-, e, heq⟩ | ⟨hno, -⟩ |
    ⟨hno, -⟩ | ⟨hno, -⟩
  · rw [Exceeds, hpid] at hexceeds
    cases hexceeds.2.1
  · rw [heq, arrived_frame]
    exact ⟨rfl, rfl⟩
  · exact absurd hexceeds hno
  · exact absurd hexceeds hno
  · exact absurd hexceeds hno

theorem Accounts.step_aborts {s next : InboundPublishFlow} (h : Accounts s) {a : Action}
    (hlimit : ¬ExceedsLimit s a) (hstep : s.step a = some next) :
    aborts next.log = aborts s.log := by
  refine (aborts_rules (aborts s.log)).step rfl ?_ hstep
  rintro packet claim write rfl hexceeds
  exact hlimit ((h.exceeds_iff packet claim write).mp hexceeds)

theorem Accounts.start (config : Config) : Accounts (start config) :=
  ⟨rfl, fun _ hopen => absurd hopen (Finset.notMem_empty _)⟩

/-- **Receive Maximum accounting is exact.**  With a conforming broker the client's set
is the set of open flows.  The PUBLISH that makes them exceed the limit closes the
connection with 0x93 before it is routed, no other step does, and so a broker that
keeps to the limit never sees it. -/
theorem receive_quota_exact (config : Config) (actions : List Action) (s : InboundPublishFlow)
    (hbroker : Transition.Along step BrokerConforms (start config) actions)
    (hrun : Transition.run step (start config) actions = some s) :
    s.unacknowledged = openFlows s.log ∧
      (∀ a next, s.step a = some next → ExceedsLimit s a →
        ∃ packet claim write, a = .publish packet claim write ∧ next.ended.isSome ∧
          next.log = .aborted (some 0x93) ::
            .receivedPublish { seq := s.nextSeq, publish := packet } :: s.log) ∧
      (∀ a next, s.step a = some next → ¬ExceedsLimit s a →
        aborts next.log = aborts s.log) ∧
      (Transition.Along step (fun s a => ¬ExceedsLimit s a) (start config) actions →
        .aborted (some 0x93) ∉ s.log) := by
  have haccounts := Accounts.rules.run (Accounts.start config) hbroker hrun
  refine ⟨haccounts.1, ?_, fun a next hstep hlimit => haccounts.step_aborts hlimit hstep, ?_⟩
  · intro a next hstep hlimit
    cases a with
    | publish packet claim write =>
        have hexceeds := (haccounts.exceeds_iff packet claim write).mpr hlimit
        obtain ⟨hlog, hended⟩ := step_of_exceeds hexceeds hstep
        exact ⟨packet, claim, write, rfl, hended, hlog⟩
    | _ => cases hlimit
  · intro hrespects
    have hstep : ∀ s a next, Accounts s ∧ aborts s.log = 0 →
        BrokerConforms s a ∧ ¬ExceedsLimit s a → s.step a = some next →
        Accounts next ∧ aborts next.log = 0 := by
      intro s a next h hok hstep
      exact ⟨Accounts.rules.step h.1 hok.1 hstep, (h.1.step_aborts hok.2 hstep).trans h.2⟩
    have hinvariant := Transition.invariant_along hstep ⟨Accounts.start config, rfl⟩
      (hbroker.and hrespects) hrun
    exact List.count_eq_zero.mp hinvariant.2

/-- A QoS 2 PUBLISH that is repeated after its PUBREC was sent, then a QoS 1 PUBLISH that
the limit of 1 does not allow. -/
theorem receive_quota_exact_second_publish :
    ∃ s, Transition.run step (start { receiveMaximum := some 1 })
        [.publish (samplePublish .exactlyOnce 7) none .done,
          .publish (samplePublish .exactlyOnce 7) none .done,
          .publish (samplePublish .atLeastOnce 8) none .done] = some s ∧
      s.unacknowledged = openFlows s.log ∧ openFlows s.log = {7, 8} ∧
      s.log.count (.sentPubrec 7) = 2 ∧ s.ended = some (.protocolError
        "Broker exceeded the Receive Maximum of 1 unacknowledged QoS 1/2 messages") := by
  have hrun : ∃ s, Transition.run step (start { receiveMaximum := some 1 })
      [.publish (samplePublish .exactlyOnce 7) none .done,
        .publish (samplePublish .exactlyOnce 7) none .done,
        .publish (samplePublish .atLeastOnce 8) none .done] = some s ∧
      openFlows s.log = {7, 8} ∧ s.log.count (.sentPubrec 7) = 2 ∧ s.ended = some (.protocolError
        "Broker exceeded the Receive Maximum of 1 unacknowledged QoS 1/2 messages") :=
    ⟨_, rfl, by decide, by decide, by decide⟩
  obtain ⟨s, hs, hopen, hrec, hended⟩ := hrun
  refine ⟨s, hs, (receive_quota_exact _ _ s ?_ hs).1, hopen, hrec, hended⟩
  refine ⟨.inr fun pid hpid => .inl ?_, .inr fun pid hpid => .inr rfl,
    .inr fun pid hpid => .inl ?_, trivial⟩
  · exact Finset.notMem_empty pid
  · cases hpid
    decide

end Zmqtt
