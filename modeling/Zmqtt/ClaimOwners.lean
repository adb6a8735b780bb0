import Zmqtt.HandOver

/-!
# The claims of a flow

The inbound flow asks the request router about every message for which it selects a
recipient, and hands a claimed message over later: after its PUBREL, or when a suspended
write goes on.  What it hands over to a request is the message that the request was claimed
for.
-/

namespace Zmqtt

open Tally

namespace InboundPublishFlow

/-- `handle_publish` reaches the selection of a recipient. -/
def selects (s : InboundPublishFlow) (packet : Publish) : Bool :=
  match packet.qos with
  | .atMostOnce => true
  | .atLeastOnce => packet.packetId.elim false fun pid =>
      ((s.receive packet).holdReceiveQuota pid).2.isNone && !s.replay.containsPacketId pid
  | .exactlyOnce => packet.packetId.elim false fun pid =>
      ((s.receive packet).holdReceiveQuota pid).2.isNone &&
        (OrderedDict.get s.inflightQos2In pid).isNone && decide (pid ∉ s.pendingAckQos2In) &&
        !s.replay.containsPacketId pid

/-- The message about which a step asks the request router. -/
def consulted (s : InboundPublishFlow) : Action → Option Received
  | .publish packet _ _ =>
      if s.selects packet then some { seq := s.nextSeq, publish := packet } else none
  | .deliverNext t _ _ => s.replay.tasks[t]?.bind fun task =>
      match task.phase with
      | .looping _ (received :: _) => some received
      | _ => none
  | _ => none

/-- The step with an answer of the router. -/
def Action.withClaim (claim : Option Nat) : Action → Action
  | .publish packet _ write => .publish packet claim write
  | .deliverNext t _ write => .deliverNext t claim write
  | action => action

end InboundPublishFlow

def InboundEvent.response? : InboundEvent → Option Nat
  | .requestDelivered _ response => some response
  | _ => none

/-! ## Owners of claims -/

/-- A recipient that is a claimed request is the request of its message. -/
def InboundRecipient.OwnsClaim (Q : Nat → Nat → Prop) (recipient : InboundRecipient) : Prop :=
  ∀ i, recipient.request = some i → Q i recipient.message.seq

/-- The recipient that a suspended task still delivers to. -/
def Frame.recipient? : Frame → Option InboundRecipient
  | .delivering recipient _ _ => some recipient
  | .putting recipient _ _ _ => some recipient
  | .sending next => next
  | _ => none

def Frame.OwnsClaim (Q : Nat → Nat → Prop) (frame : Frame) : Prop :=
  ∀ recipient, frame.recipient? = some recipient → recipient.OwnsClaim Q

namespace InboundPublishFlow

variable {s next : InboundPublishFlow} {Q Q' : Nat → Nat → Prop}

/-- `Q i seq` for every claimed response `i` that the flow holds or has handed over, with the
arrival number `seq` of the message. -/
structure OwnsClaims (Q : Nat → Nat → Prop) (s : InboundPublishFlow) : Prop where
  flights : ∀ item ∈ s.inflightQos2In, item.2.recipient.OwnsClaim Q
  frames : ∀ item ∈ s.frames, item.2.OwnsClaim Q
  log : ∀ seq i, .requestDelivered seq i ∈ s.log → Q i seq

theorem OwnsClaims.mono (h : s.OwnsClaims Q) (hQ : ∀ i seq, Q i seq → Q' i seq) :
    s.OwnsClaims Q' :=
  ⟨fun item hitem i hi => hQ _ _ (h.flights item hitem i hi),
    fun item hitem recipient hrecipient i hi => hQ _ _ (h.frames item hitem recipient hrecipient i hi),
    fun seq i hmem => hQ _ _ (h.log seq i hmem)⟩

/-- `Q`, or the message was routed once more than `n` says. -/
def OrRouted (Q : Nat → Nat → Prop) (n : Nat → Nat) (s : InboundPublishFlow) (i seq : Nat) : Prop :=
  Q i seq ∨ n seq < routes seq s.log

/-- Every message was routed at least as often as `n` says, and if no more often, then `Q` for
its claim. -/
structure Accounted (Q : Nat → Nat → Prop) (n : Nat → Nat) (s : InboundPublishFlow) : Prop where
  count : ∀ seq, n seq ≤ routes seq s.log
  claims : s.OwnsClaims (OrRouted Q n s)

variable {n : Nat → Nat} {frame : Frame} {event : InboundEvent}

theorem OrRouted.emit {i seq : Nat} (h : OrRouted Q n s i seq) (event : InboundEvent) :
    OrRouted Q n (s.emit event) i seq := by
  refine h.imp id fun hlt => ?_
  rw [routes_emit]
  omega

theorem Accounted.of_same (h : Accounted Q n s)
    (hflights : ∀ item ∈ next.inflightQos2In, item ∈ s.inflightQos2In)
    (hframes : ∀ item ∈ next.frames, item ∈ s.frames) (hlog : next.log = s.log) :
    Accounted Q n next := by
  have hclaims : ∀ {i seq}, OrRouted Q n s i seq → OrRouted Q n next i seq := by
    intro i seq hor
    unfold OrRouted
    rwa [hlog]
  refine ⟨fun seq => by rw [hlog]; exact h.count seq, fun item hitem i hi => ?_,
    fun item hitem recipient hrecipient i hi => ?_, fun seq i hmem => ?_⟩
  · exact hclaims (h.claims.flights item (hflights item hitem) i hi)
  · exact hclaims (h.claims.frames item (hframes item hitem) recipient hrecipient i hi)
  · rw [hlog] at hmem
    exact hclaims (h.claims.log seq i hmem)

/-- Queues and identifiers do not matter. -/
theorem Accounted.books (h : Accounted Q n s) (unacknowledged pendingAckQos2In : Finset Int)
    (queued : List (Nat × Message)) (taken : List Message) :
    Accounted Q n { s with unacknowledged, pendingAckQos2In, queued, taken } :=
  h.of_same (fun _ hitem => hitem) (fun _ hitem => hitem) rfl

theorem Accounted.emit_of (h : Accounted Q n s)
    (hevent : ∀ seq i, event = .requestDelivered seq i → OrRouted Q n s i seq) :
    Accounted Q n (s.emit event) := by
  refine ⟨fun seq => ?_, fun item hitem i hi => (h.claims.flights item hitem i hi).emit event,
    fun item hitem recipient hrecipient i hi =>
      (h.claims.frames item hitem recipient hrecipient i hi).emit event, fun seq i hmem => ?_⟩
  · rw [routes_emit]
    exact Nat.le_trans (h.count seq) (Nat.le_add_left _ _)
  · rcases List.mem_cons.mp hmem with heq | hmem
    · exact (hevent seq i heq.symm).emit event
    · exact (h.claims.log seq i hmem).emit event

theorem Accounted.emit (h : Accounted Q n s) (hevent : event.response? = none) :
    Accounted Q n (s.emit event) := by
  refine h.emit_of fun seq i heq => ?_
  rw [heq] at hevent
  cases hevent

theorem Accounted.sendPubrec (h : Accounted Q n s) (pid : Int) {flight : InboundQoS2Flight}
    (hflight : flight.recipient.OwnsClaim (OrRouted Q n s)) :
    Accounted Q n (s.sendPubrec pid flight) := by
  have hset : Accounted Q n
      { s with inflightQos2In := OrderedDict.set s.inflightQos2In pid flight } := by
    refine ⟨h.count, fun item hitem => ?_, h.claims.frames, h.claims.log⟩
    rcases OrderedDict.mem_of_mem_set hitem with hold | rfl
    · exact h.claims.flights item hold
    · exact hflight
  exact hset.emit rfl

/-- A message that is routed now may have any claim. -/
theorem Accounted.routed (h : Accounted Q n s) {received : Received}
    {recipient : InboundRecipient} (hmessage : recipient.message = makeMessage received) :
    recipient.OwnsClaim (OrRouted Q n (s.emit (.routed received.seq))) := by
  intro i _
  have hseq : recipient.message.seq = received.seq := by
    rw [hmessage]
    rfl
  have hle := h.count received.seq
  refine .inr ?_
  rw [hseq, routes_emit, paid_routed, unit_eq_one]
  omega

/-- The frame of a task that runs, with its state. -/
def Working (Q : Nat → Nat → Prop) (n : Nat → Nat) (s : InboundPublishFlow) (_ : Owner)
    (frame : Frame) : Prop :=
  Accounted Q n s ∧ frame.OwnsClaim (OrRouted Q n s)

theorem Working.emit {o : Owner} (h : Working Q n s o frame) (hevent : event.response? = none) :
    Working Q n (s.emit event) o frame :=
  ⟨h.1.emit hevent, fun recipient hrecipient i hi => (h.2 recipient hrecipient i hi).emit event⟩

/-- A task without a recipient. -/
theorem Accounted.working (h : Accounted Q n s) {o : Owner} (hframe : frame.recipient? = none) :
    Working Q n s o frame :=
  ⟨h, fun recipient heq => by rw [hframe] at heq; cases heq⟩

theorem afterDelivery_recipient (seq : Nat) (puback : Option Int) :
    (afterDelivery seq puback).recipient? = none := by
  cases puback <;> rfl

/-- Claims stay with their messages, unless a message is routed. -/
theorem accounted_rules (Q : Nat → Nat → Prop) (n : Nat → Nat) :
    FlowRules (fun _ _ => True) (Accounted Q n) (Working Q n) where
  take h hframe :=
    ⟨h.of_same (fun _ hitem => hitem) (fun _ hitem => OrderedDict.mem_of_mem_pop hitem) rfl,
      h.claims.frames _ (OrderedDict.mem_of_get hframe)⟩
  store h _ _ := by
    refine ⟨h.1.count, h.1.claims.flights, fun item hitem => ?_, h.1.claims.log⟩
    rcases OrderedDict.mem_of_mem_set hitem with hold | rfl
    · exact h.1.claims.frames item hold
    · exact h.2
  enter _ h := h.working rfl
  leave h := h.1
  raise _ h := h.1.working rfl
  endReader h := h.1.of_same (fun _ hitem => hitem) (fun _ hitem => hitem) rfl
  endTask h := h.1
  pause h := h.1.working rfl
  resume {s o recipient} h := by
    cases recipient with
    | none => exact h.1.working rfl
    | some recipient => exact h
  request {s o recipient ackCallback puback request} h hrequest := by
    have hclaim := h.2 recipient rfl request hrequest
    refine Accounted.working (h.1.emit_of fun seq i heq => ?_) (afterDelivery_recipient _ _)
    cases heq
    exact hclaim
  nobody h _ _ := h.1.working (afterDelivery_recipient _ _)
  refuse h _ _ := (h.1.emit rfl).working rfl
  offer h _ _ _ := h.emit rfl
  put {s o recipient entry ackCallback puback} h _ := by
    have hpushed := h.1.books s.unacknowledged s.pendingAckQos2In
      (s.queued ++ [(entry.queue, withCallback recipient.message entry ackCallback)]) s.taken
    have hput : Accounted Q n ((s.push entry.queue
        (withCallback recipient.message entry ackCallback)).emit
          (.put recipient.message.seq entry.oid false)) := hpushed.emit rfl
    exact hput.working (afterDelivery_recipient _ _)
  withdraw {s o recipient entry ackCallback puback found} h _ := by
    have htaken := h.1.books s.unacknowledged s.pendingAckQos2In found.2 s.taken
    have hput : Accounted Q n ({ s with queued := found.2 }.emit
        (.put recipient.message.seq entry.oid true)) := htaken.emit rfl
    exact hput.working rfl
  puback {s o seq packetId} h := by
    have hreleased := h.1.books (s.unacknowledged.erase packetId) s.pendingAckQos2In s.queued
      s.taken
    have hsent : Accounted Q n (s.complete packetId (.sentPuback seq packetId)) :=
      hreleased.emit rfl
    exact hsent.working rfl
  replay _ h := h.of_same (fun _ hitem => hitem) (fun _ hitem => hitem) rfl
  quiet {s event} hquiet h := by
    refine h.emit ?_
    cases event <;> first | rfl | cases hquiet
  get _ h := h.of_same (fun _ hitem => hitem) (fun _ hitem => hitem) rfl
  ack := by
    intro s i message _ _ h
    have hset : ∀ marked, Accounted Q n (s.setTaken i marked) := fun marked =>
      h.books s.unacknowledged s.pendingAckQos2In s.queued (s.taken.set i marked)
    have hacked : ∀ marked, Accounted Q n ((s.setTaken i marked).emit (.acked message.seq)) :=
      fun marked => (hset marked).emit rfl
    rcases s.ack_cases i message with heq | ⟨marked, -, -, -, heq | ⟨pid, -, -, heq⟩⟩ |
      ⟨pid, subscription, -, heq⟩
    · rw [heq]
      exact h
    · rw [heq]
      exact hset marked
    · rw [heq]
      have hreleased := (hacked marked).books (s.unacknowledged.erase pid) s.pendingAckQos2In
        s.queued (s.taken.set i marked)
      have hsent : Accounted Q n (((s.setTaken i marked).emit (.acked message.seq)).complete pid
          (.sentPuback message.seq pid)) := hreleased.emit rfl
      exact hsent
    · rw [heq]
      have hremoved := (hacked { message with resolved := true }).books s.unacknowledged
        (s.pendingAckQos2In.erase pid) s.queued (s.taken.set i { message with resolved := true })
      have hnobody : InboundRecipient.OwnsClaim (OrRouted Q n (((s.setTaken i
          { message with resolved := true }).emit (.acked message.seq)).removePendingAck pid))
          { message := { message with resolved := true }, subscription } :=
        fun _ hi => by cases hi
      exact Accounted.sendPubrec hremoved pid hnobody
  index _ h := h.of_same (fun _ hitem => hitem) (fun _ hitem => hitem) rfl
  detach _ _ h := h.of_same (fun _ hitem => hitem) (fun _ hitem => hitem) rfl
  arrive {s packet claim write} _ _ h := by
    rw [arrived_frame]
    have hreceived : Accounted Q n
        (s.emit (.receivedPublish { seq := s.nextSeq, publish := packet })) := h.emit rfl
    exact hreceived.of_same (fun _ hitem => hitem) (fun _ hitem => hitem) rfl
  exceed _ _ h := h.emit rfl
  resend _ h := h.emit rfl
  pubrelUnknown _ _ _ h := (h.emit rfl).emit rfl
  pubrelKnown {s packet write flight} _ _ hget h := by
    have hreceived : Accounted Q n (s.emit (.receivedPubrel packet.packetId)) := h.emit rfl
    have hpopped : Accounted Q n { s.emit (.receivedPubrel packet.packetId) with
        inflightQos2In := OrderedDict.pop s.inflightQos2In packet.packetId
        unacknowledged := s.unacknowledged.erase packet.packetId } :=
      hreceived.of_same (fun _ hitem => OrderedDict.mem_of_mem_pop hitem) (fun _ hitem => hitem) rfl
    have hclosed : Accounted Q n
        ((s.emit (.receivedPubrel packet.packetId)).closeFlight packet.packetId flight) :=
      hpopped.emit rfl
    have hflight := h.claims.flights _ (OrderedDict.mem_of_get hget)
    refine ⟨hclosed, fun recipient heq i hi => ?_⟩
    cases hdelivered : flight.delivered with
    | true => simp [Frame.recipient?, hdelivered] at heq
    | false =>
        simp only [Frame.recipient?, hdelivered, Bool.false_eq_true, if_false,
          Option.some.injEq] at heq
        rw [← heq] at hi ⊢
        exact ((hflight i hi).emit _).emit _
  route hselects _ _ _ h := by
    refine ⟨h.emit rfl, fun other heq => ?_⟩
    cases heq
    exact h.routed hselects.message
  routeNowhere _ h := h.emit rfl
  routeRefused _ _ h := (h.emit rfl).emit rfl
  accept {s received recipient pid} hselects _ _ h := by
    have haccepted : Accounted Q n ((s.emit (.routed received.seq)).emit
        (.accepted received.seq pid)) := (h.emit rfl).emit rfl
    exact haccepted.sendPubrec pid fun i hi => (h.routed hselects.message i hi).emit _
  acceptManual {s o received recipient pid} hselects _ _ _ h := by
    have hrouted : Accounted Q n (s.emit (.routed received.seq)) := h.emit rfl
    have hpending : Accounted Q n ((s.emit (.routed received.seq)).addPendingAck pid) :=
      hrouted.books s.unacknowledged (insert pid s.pendingAckQos2In) s.queued s.taken
    have haccepted : Accounted Q n (((s.emit (.routed received.seq)).addPendingAck pid).emit
        (.accepted received.seq pid)) := hpending.emit rfl
    refine ⟨haccepted, fun other heq i hi => ?_⟩
    cases heq
    have hclaim : OrRouted Q n ((s.emit (.routed received.seq)).addPendingAck pid) i
        recipient.message.seq := h.routed hselects.message i hi
    exact hclaim.emit _

/-! ### What a step routes -/

theorem routes_aside (h : Aside s next) (seq : Nat) : routes seq next.log = routes seq s.log := by
  obtain ⟨new, hlog, hnew⟩ := h.log
  have hzero : tally (paid seq) new = 0 := by
    refine tally_eq_zero _ fun event hevent => ?_
    have haside := hnew event hevent
    cases event <;> first | rfl | cases haside
  unfold Zmqtt.routes
  rw [hlog, tally_append, hzero, Nat.zero_add]

/-- The answer of the router in a step. -/
def Action.claim : Action → Option Nat
  | .publish _ claim _ => claim
  | .deliverNext _ claim _ => claim
  | _ => none

/-- The step delivers `received` to a recipient that is the claimed request, if there is one;
`t` is the state in which it begins to. -/
structure Routes (s : InboundPublishFlow) (claim : Option Nat) (received : Received)
    (next t : InboundPublishFlow) : Prop where
  flights : ∀ item ∈ t.inflightQos2In, item ∈ s.inflightQos2In
  frames : ∀ item ∈ t.frames, item ∈ s.frames
  delivered : ∀ seq i, .requestDelivered seq i ∈ t.log → .requestDelivered seq i ∈ s.log
  before : ∀ seq, routes seq t.log = routes seq s.log
  after : ∀ seq, routes seq next.log = routes seq (t.emit (.routed received.seq)).log
  rest : ∃ o recipient write, recipient.message = makeMessage received ∧
    recipient.request = claim ∧
    ∀ {ok : InboundPublishFlow → Action → Prop} {I : InboundPublishFlow → Prop}
      {W : InboundPublishFlow → Owner → Frame → Prop}, FlowRules ok I W →
      W (t.deliverReplay received recipient write).1 o
        (t.deliverReplay received recipient write).2 → I next

/-- `handle_publish` selects a recipient, or is done with the PUBLISH. -/
theorem handlePublish_selects (s : InboundPublishFlow) (packet : Publish) (claim : Option Nat)
    (write : WriteOutcome) :
    (s.selects packet = true ∧ s.handlePublish packet claim write =
      (s.arrived packet).route { seq := s.nextSeq, publish := packet } claim write) ∨
    (s.selects packet = false ∧
      Aside (s.arrived packet) (s.handlePublish packet claim write).1) := by
  have hreplay : (s.arrived packet).replay = s.replay := by rw [arrived_frame]
  have hinflight : (s.arrived packet).inflightQos2In = s.inflightQos2In := by rw [arrived_frame]
  have hpending : (s.arrived packet).pendingAckQos2In = s.pendingAckQos2In := by rw [arrived_frame]
  cases hqos : packet.qos with
  | atMostOnce =>
      refine .inl ⟨by rw [selects, hqos], ?_⟩
      rw [handlePublish, arrived, hqos]
      rfl
  | atLeastOnce =>
      have hne : packet.qos ≠ .atMostOnce := by rw [hqos]; decide
      simp only [handlePublish, selects, hqos, handleQos1Publish]
      cases hpid : packet.packetId with
      | none =>
          refine .inr ⟨rfl, ?_⟩
          rw [arrived, if_neg hne, hpid]
          exact .refl _
      | some pid =>
          simp only [Option.elim_some]
          rcases s.holdReceiveQuota_arrived hne hpid with ⟨-, msg, hquota⟩ | ⟨-, hquota⟩
          · simp only [hquota]
            exact .inr ⟨rfl, .emit _ rfl⟩
          · simp only [hquota, hreplay]
            cases s.replay.containsPacketId pid with
            | true => exact .inr ⟨rfl, .refl _⟩
            | false => exact .inl ⟨rfl, rfl⟩
  | exactlyOnce =>
      have hne : packet.qos ≠ .atMostOnce := by rw [hqos]; decide
      simp only [handlePublish, selects, hqos, handleQos2Publish]
      cases hpid : packet.packetId with
      | none =>
          refine .inr ⟨rfl, ?_⟩
          rw [arrived, if_neg hne, hpid]
          exact .refl _
      | some pid =>
          simp only [Option.elim_some]
          rcases s.holdReceiveQuota_arrived hne hpid with ⟨-, msg, hquota⟩ | ⟨-, hquota⟩
          · simp only [hquota]
            exact .inr ⟨rfl, .emit _ rfl⟩
          · simp only [hquota, hreplay, hinflight, hpending]
            cases OrderedDict.get s.inflightQos2In pid with
            | some flight => exact .inr ⟨rfl, .emit _ rfl⟩
            | none =>
                by_cases hack : pid ∈ s.pendingAckQos2In
                · simp only [hack]
                  exact .inr ⟨rfl, .refl _⟩
                · simp only [hack]
                  cases s.replay.containsPacketId pid with
                  | true => exact .inr ⟨rfl, .refl _⟩
                  | false => exact .inl ⟨rfl, rfl⟩

theorem routes_storeReader (x : InboundPublishFlow × Frame) (seq : Nat) :
    routes seq (storeReader x).log = routes seq x.1.log := by
  obtain ⟨s, frame⟩ := x
  cases frame <;> rfl

theorem routes_raiseFromTask (s : InboundPublishFlow) (t : Nat) (task : ReplayTask)
    (unmatched pending : List Received) (seq : Nat) :
    routes seq (s.raiseFromTask t task unmatched pending).log = routes seq s.log := by
  unfold raiseFromTask
  simp only
  split
  · split
    · rfl
    · exact (routes_emit _ _ _).trans (Nat.zero_add _)
  · rfl

theorem routes_storeTask (t : Nat) (task : ReplayTask) (unmatched pending : List Received)
    (current : Received) (x : InboundPublishFlow × Frame) (seq : Nat) :
    routes seq (storeTask t task unmatched pending current x).log = routes seq x.1.log := by
  obtain ⟨s, frame⟩ := x
  cases frame with
  | returned =>
      simp only [storeTask]
      split
      · exact routes_raiseFromTask _ _ _ _ _ _
      · rfl
  | raised e => exact routes_raiseFromTask _ _ _ _ _ _
  | _ => rfl

theorem routes_dropAll (s : InboundPublishFlow) (dropped : List Received) (seq : Nat) :
    routes seq (s.dropAll dropped).log = routes seq s.log := by
  have hzero : tally (paid seq)
      (dropped.map fun received => InboundEvent.dropped received.seq).reverse = 0 := by
    refine tally_eq_zero _ fun event hevent => ?_
    obtain ⟨received, -, rfl⟩ := List.mem_map.mp (List.mem_reverse.mp hevent)
    rfl
  unfold routes dropAll
  rw [tally_append, hzero, Nat.zero_add]

theorem routes_hold (s : InboundPublishFlow) (b : Nat) (buffer : ReplayBuffer)
    (received : Received) (seq : Nat) :
    routes seq (s.hold b buffer received).1.log = routes seq s.log := by
  unfold hold
  split
  · rfl
  · split
    · simp only [routes_emit]
      exact (Nat.zero_add _).trans (Nat.zero_add _)
    · exact (routes_emit _ _ _).trans (Nat.zero_add _)

/-- A claimed message is routed at once. -/
theorem selectRecipientOrBuffer_claimed (s : InboundPublishFlow) (received : Received) (i : Nat) :
    s.selectRecipientOrBuffer received (some i) =
      (s, .recipient (s.selectRecipient received (some i))) := by
  unfold selectRecipientOrBuffer
  cases s.replay.state <;> simp [selectRecipient]

/-- A message that is routed when it arrives. -/
theorem routes_of_found {t : InboundPublishFlow} {packet : Publish} {claim : Option Nat}
    {write : WriteOutcome}
    (ht : t = s.arrived packet ∨ t = (s.arrived packet).emit (.noSubscriber s.nextSeq)) :
    Routes s claim { seq := s.nextSeq, publish := packet }
      (storeReader (settle write (t.deliverReplay { seq := s.nextSeq, publish := packet }
        ((s.arrived packet).selectRecipient { seq := s.nextSeq, publish := packet } claim)
        write))) t := by
  have hlog : (s.arrived packet).log =
      .receivedPublish { seq := s.nextSeq, publish := packet } :: s.log := by rw [arrived_frame]
  have hflights : (s.arrived packet).inflightQos2In = s.inflightQos2In := by rw [arrived_frame]
  have hframes : (s.arrived packet).frames = s.frames := by rw [arrived_frame]
  have hdelivered : ∀ seq i, .requestDelivered seq i ∈ (s.arrived packet).log →
      .requestDelivered seq i ∈ s.log := by
    intro seq i hmem
    rw [hlog] at hmem
    exact (List.mem_cons.mp hmem).resolve_left fun heq => by cases heq
  have hafter : ∀ seq, routes seq (storeReader (settle write (t.deliverReplay
      { seq := s.nextSeq, publish := packet }
      ((s.arrived packet).selectRecipient { seq := s.nextSeq, publish := packet } claim)
      write))).log = routes seq (t.emit (.routed s.nextSeq)).log := by
    intro seq
    rw [routes_storeReader]
    exact routes_aside ((Aside.deliverReplay t { seq := s.nextSeq, publish := packet } _
      write).trans (.settle write _)) seq
  have hrest : ∃ o recipient write', recipient.message =
        makeMessage { seq := s.nextSeq, publish := packet } ∧ recipient.request = claim ∧
      ∀ {ok : InboundPublishFlow → Action → Prop} {I : InboundPublishFlow → Prop}
        {W : InboundPublishFlow → Owner → Frame → Prop}, FlowRules ok I W →
        W (t.deliverReplay { seq := s.nextSeq, publish := packet } recipient write').1 o
          (t.deliverReplay { seq := s.nextSeq, publish := packet } recipient write').2 →
        I (storeReader (settle write (t.deliverReplay { seq := s.nextSeq, publish := packet }
          ((s.arrived packet).selectRecipient { seq := s.nextSeq, publish := packet } claim)
          write))) :=
    ⟨.reader, (s.arrived packet).selectRecipient { seq := s.nextSeq, publish := packet } claim,
      write, selectRecipient_message _ _ _, by cases claim <;> rfl,
      fun R h => R.storeReader (R.settle write h)⟩
  rcases ht with rfl | rfl
  · exact ⟨fun _ hitem => hflights ▸ hitem, fun _ hitem => hframes ▸ hitem, hdelivered,
      fun seq => routes_arrived seq s packet, hafter, hrest⟩
  · refine ⟨fun _ hitem => hflights ▸ hitem, fun _ hitem => hframes ▸ hitem, fun seq i hmem => ?_,
      fun seq => ?_, hafter, hrest⟩
    · exact hdelivered seq i ((List.mem_cons.mp hmem).resolve_left fun heq => by cases heq)
    · rw [routes_emit]
      exact (Nat.zero_add _).trans (routes_arrived seq s packet)

theorem routes_publish {packet : Publish} {claim : Option Nat} {write : WriteOutcome}
    (hstep : s.step (.publish packet claim write) = some next) :
    ((∀ seq, routes seq next.log = routes seq s.log) ∧
      ((s.consulted (.publish packet claim write)).isSome = true → claim = none)) ∨
    ∃ received t, s.consulted (.publish packet claim write) = some received ∧
      Routes s claim received next t := by
  obtain ⟨-, heq⟩ := Option.ite_none_right_eq_some.mp hstep
  cases heq
  have hsettled : ∀ {x : InboundPublishFlow × Frame} {seq : Nat},
      routes seq x.1.log = routes seq s.log →
      routes seq (storeReader (settle write x)).log = routes seq s.log := by
    intro x seq hsame
    rw [routes_storeReader, routes_aside (.settle write x), hsame]
  rcases s.handlePublish_selects packet claim write with ⟨hselects, heq⟩ | ⟨hselects, haside⟩
  · have hconsulted : s.consulted (.publish packet claim write) =
        some { seq := s.nextSeq, publish := packet } := if_pos hselects
    have hfound : ∀ t, (s.arrived packet).selectRecipientOrBuffer
          { seq := s.nextSeq, publish := packet } claim =
          (t, .recipient ((s.arrived packet).selectRecipient
            { seq := s.nextSeq, publish := packet } claim)) →
        (t = s.arrived packet ∨ t = (s.arrived packet).emit (.noSubscriber s.nextSeq)) →
        Routes s claim { seq := s.nextSeq, publish := packet }
          (storeReader (settle write (s.handlePublish packet claim write))) t := by
      intro t ht hcases
      have hroute : s.handlePublish packet claim write =
          t.deliverReplay { seq := s.nextSeq, publish := packet }
            ((s.arrived packet).selectRecipient { seq := s.nextSeq, publish := packet } claim)
            write := by
        rw [heq, route, ht]
      rw [hroute]
      exact routes_of_found hcases
    have hheld : ∀ b buffer r, r = s.arrived packet ∨
          r = (s.arrived packet).setReplay (s.arrived packet).replay.addBuffer →
        (s.arrived packet).selectRecipientOrBuffer { seq := s.nextSeq, publish := packet } claim =
          r.hold b buffer { seq := s.nextSeq, publish := packet } →
        ∀ seq, routes seq (storeReader (settle write (s.handlePublish packet claim write))).log =
          routes seq s.log := by
      intro b buffer r hr hhold seq
      have hsame : routes seq r.log = routes seq s.log := by
        rcases hr with rfl | rfl <;> exact routes_arrived seq s packet
      refine hsettled (Eq.trans ?_ (Eq.trans (routes_hold r b buffer
        { seq := s.nextSeq, publish := packet } seq) hsame))
      obtain ⟨frame, hroute, rfl | ⟨e, rfl⟩⟩ := route_held hhold write
      · rw [heq, hroute]
      · rw [heq, hroute]
    cases claim with
    | some i =>
        exact .inr ⟨_, _, hconsulted,
          hfound _ (selectRecipientOrBuffer_claimed _ _ i) (.inl rfl)⟩
    | none =>
        rcases (s.arrived packet).selectRecipientOrBuffer_cases
            { seq := s.nextSeq, publish := packet } none with
          ⟨-, hsel⟩ | ⟨-, -, -, hsel⟩ | ⟨b, -, hsel⟩ | ⟨-, hsel⟩
        · exact .inr ⟨_, _, hconsulted, hfound _ hsel (.inl rfl)⟩
        · exact .inr ⟨_, _, hconsulted, hfound _ hsel (.inr rfl)⟩
        · exact .inl ⟨hheld _ _ _ (.inl rfl) hsel, fun _ => rfl⟩
        · exact .inl ⟨hheld _ _ _ (.inr rfl) hsel, fun _ => rfl⟩
  · refine .inl ⟨fun seq => hsettled ((routes_aside haside seq).trans
      (routes_arrived seq s packet)), fun hsome => ?_⟩
    have hnone : s.consulted (.publish packet claim write) = none :=
      if_neg (by rw [hselects]; exact Bool.false_ne_true)
    rw [hnone] at hsome
    cases hsome

theorem routes_deliverNext {t : Nat} {task : ReplayTask} {claim : Option Nat}
    {write : WriteOutcome} (htask : s.replay.tasks[t]? = some task)
    (hstep : s.deliverNext t task claim write = some next) :
    ((∀ seq, routes seq next.log = routes seq s.log) ∧
      ((s.consulted (.deliverNext t claim write)).isSome = true → claim = none)) ∨
    ∃ received start, s.consulted (.deliverNext t claim write) = some received ∧
      Routes s claim received next start := by
  unfold deliverNext at hstep
  split at hstep
  · rename_i unmatched hphase
    refine .inl ⟨fun seq => ?_, fun hsome => ?_⟩
    · simp only at hstep
      split at hstep
      · split at hstep <;> cases hstep
        · exact routes_dropAll _ _ seq
        · unfold finishDrain
          simp only
          split <;> rfl
      · cases hstep
        rfl
    · have hnone : s.consulted (.deliverNext t claim write) = none := by
        simp only [consulted, htask, Option.bind_some, hphase]
      rw [hnone] at hsome
      cases hsome
  · rename_i unmatched received pending hphase
    have hconsulted : s.consulted (.deliverNext t claim write) = some received := by
      simp only [consulted, htask, Option.bind_some, hphase]
    simp only at hstep
    split at hstep
    · rename_i hunready
      cases hstep
      refine .inl ⟨fun _ => rfl, fun _ => ?_⟩
      cases claim with
      | none => rfl
      | some i => simp [unready, selectRecipient] at hunready
    · cases hstep
      refine .inr ⟨received,
        s.setReplay (s.replay.setPhase t (.delivering unmatched pending received)), hconsulted,
        fun _ hitem => hitem, fun _ hitem => hitem, fun _ _ hmem => hmem, fun _ => rfl,
        fun seq => ?_, .task t, s.selectRecipient received claim, write,
        selectRecipient_message _ _ _, by cases claim <;> rfl,
        fun R h => R.storeTask (R.settle write h) _ _ _ _⟩
      rw [routes_storeTask]
      exact routes_aside ((Aside.deliverReplay _ received _ write).trans (.settle write _)) seq
  · cases hstep

/-- **What a step routes.** -/
theorem routes_cases {a : Action} (hstep : s.step a = some next) :
    ((∀ seq, routes seq next.log = routes seq s.log) ∧
      ((s.consulted a).isSome = true → a.claim = none)) ∨
    ∃ received t, s.consulted a = some received ∧ Routes s a.claim received next t := by
  have hother : (∀ seq, routes seq next.log = routes seq s.log) → s.consulted a = none →
      ((∀ seq, routes seq next.log = routes seq s.log) ∧
        ((s.consulted a).isSome = true → a.claim = none)) := by
    intro hsame hnone
    refine ⟨hsame, fun hsome => ?_⟩
    rw [hnone] at hsome
    cases hsome
  cases a with
  | publish packet claim write => exact routes_publish hstep
  | deliverNext t claim write =>
      obtain ⟨task, htask, hnext⟩ := Option.bind_eq_some_iff.mp hstep
      exact routes_deliverNext htask hnext
  | pubrel packet write =>
      obtain ⟨-, heq⟩ := Option.ite_none_right_eq_some.mp hstep
      cases heq
      refine .inl (hother (fun seq => ?_) rfl)
      rw [routes_storeReader]
      exact routes_aside ((Aside.handlePubrel s packet write).trans (.settle write _)) seq
  | resumeReader proceeds write =>
      obtain ⟨frame, -, rfl⟩ := Option.map_eq_some_iff.mp hstep
      refine .inl (hother (fun seq => ?_) rfl)
      rw [routes_storeReader, routes_aside (.settle write _)]
  | resumeTask t proceeds write =>
      obtain ⟨task, -, hnext⟩ := Option.bind_eq_some_iff.mp hstep
      refine .inl (hother (fun seq => ?_) rfl)
      unfold resumeTask at hnext
      split at hnext
      · split at hnext <;> cases hnext
        rfl
      · obtain ⟨frame, -, rfl⟩ := Option.map_eq_some_iff.mp hnext
        rw [routes_storeTask, routes_aside (.settle write _)]
      · cases hnext
  | get queue =>
      obtain ⟨found, -, rfl⟩ := Option.map_eq_some_iff.mp hstep
      exact .inl (hother (fun _ => rfl) rfl)
  | ack i =>
      obtain ⟨message, -, rfl⟩ := Option.map_eq_some_iff.mp hstep
      exact .inl (hother (routes_aside (.ack s i message)) rfl)
  | index op =>
      cases hstep
      exact .inl (hother (fun _ => rfl) rfl)
  | detach filters queue =>
      cases hstep
      exact .inl (hother (fun _ => rfl) rfl)
  | drain =>
      cases hstep
      refine .inl (hother (fun _ => ?_) rfl)
      unfold drain
      split <;> rfl
  | expireReplay b =>
      refine .inl (hother (fun _ => ?_) rfl)
      simp only [InboundPublishFlow.step, expireReplay] at hstep
      split at hstep
      · split at hstep <;> (cases hstep; rfl)
      · cases hstep
  | acquireLock t =>
      obtain ⟨task, -, hlock⟩ := Option.bind_eq_some_iff.mp hstep
      obtain ⟨-, heq⟩ := Option.ite_none_right_eq_some.mp hlock
      cases heq
      exact .inl (hother (fun _ => rfl) rfl)
  | cancel t =>
      obtain ⟨-, heq⟩ := Option.ite_none_right_eq_some.mp hstep
      cases heq
      exact .inl (hother (fun _ => rfl) rfl)
  | clear =>
      cases hstep
      refine .inl (hother (fun seq => ?_) rfl)
      unfold clear
      split
      · rfl
      · rfl
      · exact routes_dropAll _ _ seq

/-! ### Claims along a step -/

/-- The delivery of a message to the request that is claimed for it. -/
theorem Accounted.deliverReplay {received : Received} {recipient : InboundRecipient}
    (write : WriteOutcome) (o : Owner) (h : Accounted Q n (s.emit (.routed received.seq)))
    (hclaim : recipient.OwnsClaim (OrRouted Q n (s.emit (.routed received.seq)))) :
    Working Q n (s.deliverReplay received recipient write).1 o
      (s.deliverReplay received recipient write).2 := by
  have hdelivering : ∀ ackCallback puback, Working Q n (s.emit (.routed received.seq)) o
      (.delivering recipient ackCallback puback) := by
    refine fun _ _ => ⟨h, fun other heq => ?_⟩
    cases heq
    exact hclaim
  unfold InboundPublishFlow.deliverReplay
  cases received.publish.qos with
  | atMostOnce => exact hdelivering none none
  | atLeastOnce =>
      simp only [deliverQos1Publish]
      split
      · exact h.working rfl
      · split <;> exact hdelivering _ _
  | exactlyOnce =>
      simp only [acceptQos2Publish]
      split
      · exact h.working rfl
      · exact (h.emit rfl).working rfl
      · rename_i pid _ _
        split
        · have haccepted : Accounted Q n ((s.emit (.routed received.seq)).emit
              (.accepted received.seq pid)) := h.emit rfl
          have hpubrec : Accounted Q n (((s.emit (.routed received.seq)).emit
              (.accepted received.seq pid)).sendPubrec pid { packetId := pid, recipient }) :=
            haccepted.sendPubrec pid fun i hi => (hclaim i hi).emit _
          refine hpubrec.working ?_
          cases write <;> rfl
        · have hpending : Accounted Q n ((s.emit (.routed received.seq)).addPendingAck pid) :=
            h.books s.unacknowledged (insert pid s.pendingAckQos2In) s.queued s.taken
          refine ⟨hpending.emit rfl, fun other heq i hi => ?_⟩
          cases heq
          have hsame : OrRouted Q n ((s.emit (.routed received.seq)).addPendingAck pid) i
              recipient.message.seq := hclaim i hi
          exact hsame.emit _

/-- If no message was routed more often than `n` says, every claim has its `Q`. -/
theorem Accounted.settled (h : Accounted Q n s) (hn : ∀ seq, routes seq s.log ≤ n seq) :
    s.OwnsClaims Q :=
  h.claims.mono fun _ seq hor => hor.resolve_right (Nat.not_lt.mpr (hn seq))

/-- **A step** adds no claim but the answer of the router, for the message that was asked
about. -/
theorem OwnsClaims.step (h : s.OwnsClaims Q) {a : Action} (hstep : s.step a = some next) :
    next.OwnsClaims fun i seq => Q i seq ∨ ∃ received, s.consulted a = some received ∧
      a.claim = some i ∧ seq = received.seq := by
  rcases routes_cases hstep with ⟨hsame, -⟩ | ⟨received, t, hconsulted, hroutes⟩
  · have hstart : Accounted Q (fun seq => routes seq next.log) s :=
      ⟨fun seq => Nat.le_of_eq (hsame seq), h.mono fun _ _ hQ => .inl hQ⟩
    have hnext := (accounted_rules Q fun seq => routes seq next.log).step hstart trivial hstep
    exact (hnext.settled fun _ => Nat.le_refl _).mono fun _ _ hQ => .inl hQ
  · obtain ⟨o, recipient, write, hmessage, hrequest, hrest⟩ := hroutes.rest
    have hstart : Accounted (fun i seq => Q i seq ∨ ∃ received, s.consulted a = some received ∧
        a.claim = some i ∧ seq = received.seq) (fun seq => routes seq next.log)
        (t.emit (.routed received.seq)) := by
      refine ⟨fun seq => Nat.le_of_eq (hroutes.after seq), fun item hitem i hi => ?_,
        fun item hitem other hother i hi => ?_, fun seq i hmem => ?_⟩
      · exact .inl (.inl (h.flights item (hroutes.flights item hitem) i hi))
      · exact .inl (.inl (h.frames item (hroutes.frames item hitem) other hother i hi))
      · have hlog := (List.mem_cons.mp hmem).resolve_left fun heq => by cases heq
        exact .inl (.inl (h.log seq i (hroutes.delivered seq i hlog)))
    have hclaim : recipient.OwnsClaim (OrRouted (fun i seq => Q i seq ∨ ∃ received,
        s.consulted a = some received ∧ a.claim = some i ∧ seq = received.seq)
        (fun seq => routes seq next.log) (t.emit (.routed received.seq))) := by
      intro i hi
      refine .inl (.inr ⟨received, hconsulted, hrequest ▸ hi, ?_⟩)
      rw [hmessage]
      rfl
    have hnext := hrest (accounted_rules _ _) (hstart.deliverReplay write o hclaim)
    exact hnext.settled fun _ => Nat.le_refl _

end InboundPublishFlow

end Zmqtt
