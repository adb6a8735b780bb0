import Zmqtt.HeldIdentifiers

/-!
# Flows that a session carries on

Every connection starts with a fresh inbound state, and the broker continues each of its
QoS 2 flows where it stood: PUBREL if it has received the PUBREC, otherwise PUBLISH again.
What is lost with a connection is a message whose PUBREC went out before the hand-over.  A
message that the application acknowledged itself was put in its queue before that PUBREC, so
no PUBCOMP of a later connection comes too early for it.
-/

namespace Zmqtt

open InboundPublishFlow

/-! ## The model -/

/-- A QoS 2 flow of the broker: its message, whether the broker has received the PUBREC, and
whether the client has sent PUBCOMP on this connection. -/
structure BrokerFlow where
  message : Nat
  received : Bool := false
  completed : Bool := false
deriving DecidableEq, Repr

/-- A connection of the session.  `arrivals` lists identifier, arrival number and message of
its QoS 2 PUBLISHes. -/
structure SessionConnection where
  flow : InboundPublishFlow
  arrivals : List (Int × Nat × Nat) := []

/-- A session over several connections: the current one, whether its read loop has cleared
the replay buffer and is done, the earlier ones, and the flows of the broker.  An earlier
connection takes no more steps: its tasks are cancelled, and nothing is written on it. -/
structure ResumedSession where
  connection : SessionConnection
  closed : Bool := false
  past : List SessionConnection := []
  flows : List (Int × BrokerFlow) := []
  begun : Nat := 0

/-- The client has sent PUBREC, and no PUBCOMP since. -/
def awaitsPubrel (pid : Int) : List InboundEvent → Bool
  | [] => false
  | .sentPubrec other :: earlier => decide (other = pid) || awaitsPubrel pid earlier
  | .sentPubcomp other _ _ :: earlier => decide (other ≠ pid) && awaitsPubrel pid earlier
  | _ :: earlier => awaitsPubrel pid earlier

namespace ResumedSession

/-- The broker begins a flow, sends its PUBLISH or its PUBREL, or acts on the PUBREC or the
PUBCOMP of the client; the rest of the connection takes a step; the client connects again. -/
inductive Action
  | beginFlow (pid : Int)
  | publish (packet : Publish) (claim : Option Nat) (write : WriteOutcome)
  | hearPubrec (pid : Int)
  | pubrel (packet : PubReply) (write : WriteOutcome)
  | hearPubcomp (pid : Int)
  | flow (action : InboundPublishFlow.Action)
  | reconnect (config : Config)

/-- What is not a packet of a QoS 2 flow; no packet arrives after the read loop is done. -/
def other (closed : Bool) : InboundPublishFlow.Action → Bool
  | .publish packet _ _ => decide (packet.qos ≠ .exactlyOnce) && !closed
  | .pubrel _ _ => false
  | _ => true

/-- `clear` is called when the read loop is done. -/
def closes : InboundPublishFlow.Action → Bool
  | .clear => true
  | _ => false

/-- The current connection takes a step. -/
def setFlow (s : ResumedSession) (next : InboundPublishFlow) : ResumedSession :=
  { s with connection := { s.connection with flow := next } }

/-- The PUBLISH of a message, handled up to its first suspension. -/
def arrive (s : ResumedSession) (pid : Int) (message : Nat) (next : InboundPublishFlow) :
    ResumedSession :=
  { s with
    connection :=
      { flow := next
        arrivals := (pid, s.connection.flow.nextSeq, message) :: s.connection.arrivals } }

def step (s : ResumedSession) : Action → Option ResumedSession
  | .beginFlow pid =>
      match OrderedDict.get s.flows pid with
      | some _ => none
      | none =>
          some { s with
            flows := OrderedDict.set s.flows pid { message := s.begun }, begun := s.begun + 1 }
  | .publish packet claim write =>
      packet.packetId.bind fun pid =>
        (OrderedDict.get s.flows pid).bind fun flow =>
          if packet.qos = .exactlyOnce ∧ flow.received = false ∧ s.closed = false then
            (s.connection.flow.step (.publish packet claim write)).map (s.arrive pid flow.message)
          else none
  | .hearPubrec pid =>
      (OrderedDict.get s.flows pid).bind fun flow =>
        if awaitsPubrel pid s.connection.flow.log then
          some { s with flows := OrderedDict.set s.flows pid { flow with received := true } }
        else none
  | .pubrel packet write =>
      (OrderedDict.get s.flows packet.packetId).bind fun flow =>
        if flow.received = true ∧ s.closed = false then
          (s.connection.flow.step (.pubrel packet write)).map fun next =>
            { s.setFlow next with
              flows := OrderedDict.set s.flows packet.packetId { flow with completed := true } }
        else none
  | .hearPubcomp pid =>
      (OrderedDict.get s.flows pid).bind fun flow =>
        if flow.completed then some { s with flows := OrderedDict.pop s.flows pid } else none
  | .flow action =>
      if other s.closed action then
        (s.connection.flow.step action).map fun next =>
          { s.setFlow next with closed := s.closed || closes action }
      else none
  | .reconnect config =>
      some { s with
        connection := { flow := InboundPublishFlow.start config }
        closed := false
        past := s.connection :: s.past
        flows :=
          if config.sessionPresent then
            s.flows.map fun item => (item.1, { item.2 with completed := false })
          else [] }

def start (config : Config) : ResumedSession :=
  { connection := { flow := InboundPublishFlow.start config } }

/-- All connections, the current one first. -/
def connections (s : ResumedSession) : List SessionConnection := s.connection :: s.past

/-- On some connection the message arrived, and `P` holds of its arrival. -/
def Saw (s : ResumedSession) (P : Int → Nat → List InboundEvent → Prop) (pid : Int)
    (message : Nat) : Prop :=
  ∃ connection ∈ s.connections, ∃ seq, (pid, seq, message) ∈ connection.arrivals ∧
    P pid seq connection.flow.log

end ResumedSession

/-- The message had a recipient, and its flow began. -/
def FlowBegan (pid : Int) (seq : Nat) (log : List InboundEvent) : Prop := .accepted seq pid ∈ log

/-- The PUBREC went out with the registration, without `ack()`. -/
def PubrecAtOnce (pid : Int) (seq : Nat) (log : List InboundEvent) : Prop :=
  [.sentPubrec pid, .accepted seq pid] <:+: log

/-- The message was put in the queue of its subscription. -/
def PutInQueue (_ : Int) (seq : Nat) (log : List InboundEvent) : Prop := WasPut seq log

/-! ## Registered flows in the log -/

/-- No event but a PUBREC makes the client wait for a PUBREL. -/
theorem awaitsPubrel_cons {event : InboundEvent} (h : ∀ pid, event ≠ .sentPubrec pid) {pid : Int}
    {log : List InboundEvent} (hanswered : awaitsPubrel pid (event :: log) = true) :
    awaitsPubrel pid log = true := by
  cases event with
  | sentPubrec other => exact absurd rfl (h other)
  | sentPubcomp other reasonCode flight => exact (Bool.and_eq_true_iff.mp hanswered).2
  | _ => exact hanswered

theorem awaitsPubrel_sentPubrec {other pid : Int} {log : List InboundEvent}
    (h : awaitsPubrel pid (.sentPubrec other :: log) = true) (hne : other ≠ pid) :
    awaitsPubrel pid log = true := by
  simpa only [awaitsPubrel, decide_eq_false hne, Bool.false_or] using h

theorem PubrecAtOnce.later {pid : Int} {seq : Nat} {log log' : List InboundEvent}
    (h : PubrecAtOnce pid seq log) (hlog : log <:+ log') : PubrecAtOnce pid seq log' :=
  h.trans hlog.isInfix

/-- A PUBREC without its PUBCOMP has a registered flow, and a flow with a hand-over to come
had its PUBREC at once. -/
structure Registrations (s : InboundPublishFlow) : Prop where
  awaiting : ∀ pid, awaitsPubrel pid s.log = true →
    ∃ flight, OrderedDict.get s.inflightQos2In pid = some flight
  atOnce : ∀ item ∈ s.inflightQos2In, item.2.delivered = false →
    PubrecAtOnce item.1 item.2.recipient.message.seq s.log

namespace Registrations

variable {s next : InboundPublishFlow} {event : InboundEvent}

theorem extend (h : Registrations s) (hlog : next.log = event :: s.log)
    (hinflight : next.inflightQos2In = s.inflightQos2In) (hevent : ∀ pid, event ≠ .sentPubrec pid) :
    Registrations next where
  awaiting pid hanswered := by
    rw [hlog] at hanswered
    rw [hinflight]
    exact h.awaiting pid (awaitsPubrel_cons hevent hanswered)
  atOnce item hitem hdelivered := by
    rw [hlog]
    exact (h.atOnce item (hinflight ▸ hitem) hdelivered).later (List.suffix_cons _ _)

/-- An event other than a PUBREC. -/
theorem emit (h : Registrations s) (hevent : ∀ pid, event ≠ .sentPubrec pid) :
    Registrations (s.emit event) :=
  h.extend rfl rfl hevent

/-- PUBREC goes out, and its flow is registered. -/
theorem sendPubrec (h : Registrations s) {pid : Int} {flight : InboundQoS2Flight}
    (hflight : flight.delivered = false →
      PubrecAtOnce pid flight.recipient.message.seq (.sentPubrec pid :: s.log)) :
    Registrations (s.sendPubrec pid flight) where
  awaiting other hanswered := by
    change ∃ flight', OrderedDict.get (OrderedDict.set s.inflightQos2In pid flight) other = _
    rw [OrderedDict.get_set]
    split
    · exact ⟨flight, rfl⟩
    · rename_i hne
      exact h.awaiting other (awaitsPubrel_sentPubrec hanswered hne)
  atOnce item hitem hdelivered := by
    rcases OrderedDict.mem_of_mem_set hitem with hold | rfl
    · exact (h.atOnce item hold hdelivered).later (List.suffix_cons _ _)
    · exact hflight hdelivered

/-- `ack()` sends PUBREC for a message that was put. -/
theorem ack (h : Registrations s) (i : Nat) (message : Message) :
    Registrations (s.ack i message) := by
  rcases s.ack_cases i message with heq | ⟨marked, -, -, -, heq | ⟨pid, -, -, heq⟩⟩ |
    ⟨pid, subscription, -, heq⟩
  · rw [heq]
    exact h
  · rw [heq]
    exact ⟨h.awaiting, h.atOnce⟩
  · rw [heq]
    have hacked : Registrations ((s.setTaken i marked).emit (.acked message.seq)) :=
      h.extend rfl rfl fun _ heq => by cases heq
    exact hacked.extend rfl rfl fun _ heq => by cases heq
  · rw [heq]
    have hacked : Registrations (((s.setTaken i { message with resolved := true }).emit
        (.acked message.seq)).removePendingAck pid) :=
      h.extend rfl rfl fun _ heq => by cases heq
    exact hacked.sendPubrec fun hdelivered => by cases hdelivered

/-- The rules of the registrations. -/
theorem rules : FlowRules (fun _ _ => True) Registrations fun s _ _ => Registrations s where
  take h _ := ⟨h.awaiting, h.atOnce⟩
  store h _ _ := ⟨h.awaiting, h.atOnce⟩
  enter _ h := h
  leave h := h
  raise _ h := h
  endReader h := ⟨h.awaiting, h.atOnce⟩
  endTask h := h
  pause h := h
  resume h := h
  request h _ := h.emit fun _ heq => by cases heq
  nobody h _ _ := h
  refuse h _ _ := h.emit fun _ heq => by cases heq
  offer h _ _ _ := h.emit fun _ heq => by cases heq
  put h _ := h.extend rfl rfl fun _ heq => by cases heq
  withdraw h _ := h.extend rfl rfl fun _ heq => by cases heq
  puback h := h.extend rfl rfl fun _ heq => by cases heq
  replay _ h := ⟨h.awaiting, h.atOnce⟩
  quiet hquiet h := h.emit fun _ heq => by
    rw [heq] at hquiet
    cases hquiet
  get _ h := ⟨h.awaiting, h.atOnce⟩
  ack _ _ h := h.ack _ _
  index _ h := ⟨h.awaiting, h.atOnce⟩
  detach _ _ h := ⟨h.awaiting, h.atOnce⟩
  arrive _ _ h := by
    rw [arrived_frame]
    exact h.extend rfl rfl fun _ heq => by cases heq
  exceed _ _ h := h.emit fun _ heq => by cases heq
  resend := by
    intro s pid flight hget h
    refine ⟨fun other hanswered => ?_, fun item hitem hdelivered => ?_⟩
    · by_cases hpid : pid = other
      · exact ⟨flight, hpid ▸ hget⟩
      · exact h.awaiting other (awaitsPubrel_sentPubrec hanswered hpid)
    · exact (h.atOnce item hitem hdelivered).later (List.suffix_cons _ _)
  pubrelUnknown := by
    intro s packet write _ _ _ h
    have hreceived : Registrations (s.emit (.receivedPubrel packet.packetId)) :=
      h.emit fun _ heq => by cases heq
    exact hreceived.emit fun _ heq => by cases heq
  pubrelKnown := by
    intro s packet write flight _ _ _ h
    have hreceived : Registrations (s.emit (.receivedPubrel packet.packetId)) :=
      h.emit fun _ heq => by cases heq
    refine ⟨fun other hanswered => ?_, fun item hitem hdelivered => ?_⟩
    · obtain ⟨hne, hearlier⟩ := Bool.and_eq_true_iff.mp hanswered
      obtain ⟨found, hfound⟩ := hreceived.awaiting other hearlier
      refine ⟨found, ?_⟩
      change OrderedDict.get (OrderedDict.pop s.inflightQos2In packet.packetId) other = _
      rw [OrderedDict.get_pop, if_neg (of_decide_eq_true hne)]
      exact hfound
    · exact (hreceived.atOnce item (OrderedDict.mem_of_mem_pop hitem) hdelivered).later
        (List.suffix_cons _ _)
  route _ _ _ _ h := h.emit fun _ heq => by cases heq
  routeNowhere _ h := h.emit fun _ heq => by cases heq
  routeRefused := by
    intro s seq oid h
    have hrouted : Registrations (s.emit (.routed seq)) := h.emit fun _ heq => by cases heq
    exact hrouted.emit fun _ heq => by cases heq
  accept := by
    intro s received recipient pid hselects _ _ h
    have hrouted : Registrations (s.emit (.routed received.seq)) :=
      h.emit fun _ heq => by cases heq
    have haccepted : Registrations ((s.emit (.routed received.seq)).emit
        (.accepted received.seq pid)) := hrouted.emit fun _ heq => by cases heq
    refine haccepted.sendPubrec fun _ => ?_
    rw [hselects.message]
    exact ⟨[], .routed received.seq :: s.log, rfl⟩
  acceptManual := by
    intro s o received recipient pid _ _ _ _ h
    have hrouted : Registrations (s.emit (.routed received.seq)) :=
      h.emit fun _ heq => by cases heq
    exact hrouted.extend rfl rfl fun _ heq => by cases heq

theorem start (config : Config) : Registrations (start config) where
  awaiting _ h := by cases h
  atOnce _ h := by cases h

end Registrations

/-! ## One connection -/

/-- What holds in every state of a connection. -/
structure Sound (s : InboundPublishFlow) : Prop where
  copies : SingleCopies s
  delivered : Delivered s
  registrations : Registrations s
  flights : ∀ pid flight, OrderedDict.get s.inflightQos2In pid = some flight →
    flight.recipient.message.seq < s.nextSeq
  accepted : ∀ seq pid, .accepted seq pid ∈ s.log → seq < s.nextSeq

namespace Sound

variable {s next : InboundPublishFlow} {a : InboundPublishFlow.Action}

/-- **Step lemma.** -/
theorem step (h : Sound s) (hknows : a.isPublish = true → SingleCopies.KnowsHeld s)
    (hstep : s.step a = some next) : CopyStep s a next ∧ Sound next := by
  obtain ⟨hcopy, hcopies⟩ := h.copies.step hknows hstep
  have hseq := nextSeq_le hstep
  obtain ⟨new, hmoved, hnew⟩ :
      ∃ new, Moved new s next ∧ ∀ c, new = some c → c.2 < next.nextSeq := by
    cases hcopy with
    | moved hmoved => exact ⟨none, hmoved, fun _ hnone => by cases hnone⟩
    | brought packet claim write pid ha hqos hpid hmoved hnone hflight =>
        refine ⟨_, hmoved, fun c hc => ?_⟩
        subst ha
        cases hc
        exact nextSeq_lt_of_publish hstep
  have hsource : ∀ c, Source s new c → c.2 < next.nextSeq := by
    rintro c (hc | hpos)
    · exact hnew c hc
    · exact Nat.lt_of_lt_of_le (h.copies.arrived c hpos) hseq
  refine ⟨hcopy, hcopies, Delivered.rules.step h.delivered trivial hstep,
    Registrations.rules.step h.registrations trivial hstep, fun pid flight hget => ?_,
    fun seq pid hmem => ?_⟩
  · rcases hmoved.flights pid flight hget with hold | hcopy
    · exact Nat.lt_of_lt_of_le (h.flights pid flight hold) hseq
    · exact hsource _ hcopy
  · rcases hmoved.accepted seq pid hmem with hold | hcopy
    · exact Nat.lt_of_lt_of_le (h.accepted seq pid hold) hseq
    · exact hsource _ hcopy

theorem start (config : Config) : Sound (start config) where
  copies := SingleCopies.start config
  delivered := Delivered.start config
  registrations := Registrations.start config
  flights _ _ h := by cases h
  accepted _ _ h := by cases h

end Sound

namespace SessionConnection

variable {c d : SessionConnection} {pid : Int}

/-- The arrival is in the client, as a copy or as a registered flow. -/
def Keeps (c : SessionConnection) (pid : Int) (seq : Nat) : Prop :=
  0 < c.flow.copies (one (pid, seq)) ∨
    ∃ flight, OrderedDict.get c.flow.inflightQos2In pid = some flight ∧
      flight.recipient.message.seq = seq

/-- A step that brings nothing new for an identifier. -/
structure Quiet (c d : SessionConnection) (pid : Int) : Prop where
  keeps : ∀ seq, d.Keeps pid seq → c.Keeps pid seq
  began : ∀ seq, FlowBegan pid seq d.flow.log → FlowBegan pid seq c.flow.log ∨ c.Keeps pid seq
  known : ∀ seq message, (pid, seq, message) ∈ d.arrivals →
    FlowBegan pid seq c.flow.log ∨ c.Keeps pid seq → (pid, seq, message) ∈ c.arrivals
  arrivals : c.arrivals ⊆ d.arrivals
  log : c.flow.log <:+ d.flow.log

/-- Nothing happens. -/
theorem Quiet.refl (c : SessionConnection) (pid : Int) : c.Quiet c pid where
  keeps _ h := h
  began _ h := .inl h
  known _ _ h _ := h
  arrivals := fun _ h => h
  log := List.suffix_refl _

/-- Copies move, and none of the identifier is new. -/
theorem Quiet.of_moved {new : Option (Int × Nat)} (h : Moved new c.flow d.flow)
    (hnew : ∀ seq, new ≠ some (pid, seq))
    (hknown : ∀ seq message, (pid, seq, message) ∈ d.arrivals →
      FlowBegan pid seq c.flow.log ∨ c.Keeps pid seq → (pid, seq, message) ∈ c.arrivals)
    (harrivals : c.arrivals ⊆ d.arrivals) (hlog : c.flow.log <:+ d.flow.log) : Quiet c d pid := by
  have hsource : ∀ seq, Source c.flow new (pid, seq) → c.Keeps pid seq := by
    rintro seq (hc | hpos)
    · exact absurd hc (hnew seq)
    · exact .inl hpos
  refine ⟨?_, fun seq hbegan => ?_, hknown, harrivals, hlog⟩
  · rintro seq (hpos | ⟨flight, hget, hseq⟩)
    · refine hsource seq ?_
      have hle := h.copies (one (pid, seq))
      have hzero : flowWeight (one (pid, seq)) new = 0 :=
        Nat.eq_zero_of_not_pos fun hpos => hnew seq (flowWeight_one.mp hpos)
      exact .inr (by omega)
    · rcases h.flights pid flight hget with hold | hcopy
      · exact .inr ⟨flight, hold, hseq⟩
      · exact hsource seq (hseq ▸ hcopy)
  · exact (h.accepted seq pid hbegan).imp_right (hsource seq)

/-- What the client keeps of an identifier has arrived. -/
theorem Keeps.lt (h : Sound c.flow) {seq : Nat} (hkeeps : c.Keeps pid seq) :
    seq < c.flow.nextSeq := by
  rcases hkeeps with hpos | ⟨flight, hget, rfl⟩
  · exact h.copies.arrived _ hpos
  · exact h.flights pid flight hget

/-- A PUBLISH that finds nothing left of its identifier leaves nothing but itself. -/
theorem keeps_of_brought {n seq : Nat} (h : Moved (some (pid, n)) c.flow d.flow)
    (hcopies : c.flow.copies (byId pid) = 0)
    (hflight : OrderedDict.get c.flow.inflightQos2In pid = none) (hkeeps : d.Keeps pid seq) :
    seq = n := by
  have hzero : ∀ seq, c.flow.copies (one (pid, seq)) = 0 := by
    intro seq
    have hle : c.flow.copies (one (pid, seq)) ≤ c.flow.copies (byId pid) := by
      refine copies_mono (fun other => ?_) c.flow
      unfold one byId
      split
      · rename_i heq
        rw [heq, if_pos rfl]
      · exact Nat.zero_le _
    omega
  rcases hkeeps with hpos | ⟨flight, hget, rfl⟩
  · have hle := h.copies (one (pid, seq))
    rw [hzero seq, Nat.zero_add] at hle
    cases flowWeight_one.mp (Nat.lt_of_lt_of_le hpos hle)
    rfl
  · rcases h.flights pid flight hget with hold | hnew | hpos
    · rw [hflight] at hold
      cases hold
    · cases hnew
      rfl
    · rw [hzero] at hpos
      cases hpos

/-- A new connection keeps nothing. -/
theorem not_keeps_start (config : Config) {arrivals : List (Int × Nat × Nat)} {seq : Nat} :
    ¬(SessionConnection.mk (InboundPublishFlow.start config) arrivals).Keeps pid seq := by
  rintro (hpos | ⟨flight, hget, -⟩)
  · rw [SingleCopies.copies_start] at hpos
    cases hpos
  · cases hget

end SessionConnection

/-! ## The session -/

namespace ResumedSession

variable {s t : ResumedSession} {pid : Int} {message : Nat} {flow : BrokerFlow}

/-- The message can be registered, or has been. -/
def Claimed (s : ResumedSession) (pid : Int) (message : Nat) : Prop :=
  s.Saw FlowBegan pid message ∨
    ∃ seq, s.connection.Keeps pid seq ∧ (pid, seq, message) ∈ s.connection.arrivals

/-- What the PUBREC says about a message: it was put, unless the PUBREC went out at once. -/
def Settled (s : ResumedSession) (pid : Int) (message : Nat) : Prop :=
  s.Saw PubrecAtOnce pid message ∨ s.Saw PutInQueue pid message

/-- Until the broker has received a PUBREC, all that the client keeps of the identifier
belongs to the message of the flow. -/
structure Stands (s : ResumedSession) (pid : Int) (flow : BrokerFlow) : Prop where
  settled : flow.received = true → s.Settled pid flow.message
  own : flow.received = false → ∀ seq, s.connection.Keeps pid seq →
    (pid, seq, flow.message) ∈ s.connection.arrivals

/-- The connections go on. -/
theorem Saw.later {P : Int → Nat → List InboundEvent → Prop}
    (hP : ∀ pid seq log log', log <:+ log' → P pid seq log → P pid seq log')
    (hconnections : ∀ c ∈ s.connections, ∃ d ∈ t.connections,
      c.arrivals ⊆ d.arrivals ∧ c.flow.log <:+ d.flow.log)
    (h : s.Saw P pid message) : t.Saw P pid message := by
  obtain ⟨c, hc, seq, harrived, hholds⟩ := h
  obtain ⟨d, hd, harrivals, hlog⟩ := hconnections c hc
  exact ⟨d, hd, seq, harrivals harrived, hP pid seq _ _ hlog hholds⟩

/-- What is settled stays settled. -/
theorem Settled.later (hconnections : ∀ c ∈ s.connections, ∃ d ∈ t.connections,
      c.arrivals ⊆ d.arrivals ∧ c.flow.log <:+ d.flow.log)
    (h : s.Settled pid message) : t.Settled pid message := by
  rcases h with hsaw | hsaw
  · exact .inl (hsaw.later (fun _ _ _ _ hlog h => h.later hlog) hconnections)
  · refine .inr (hsaw.later (fun _ seq _ _ hlog h => ?_) hconnections)
    obtain ⟨oid, detached, hput⟩ := h
    exact ⟨oid, detached, hlog.mem hput⟩

/-- The current connection goes on. -/
theorem connections_later (hpast : t.past = s.past)
    (harrivals : s.connection.arrivals ⊆ t.connection.arrivals)
    (hlog : s.connection.flow.log <:+ t.connection.flow.log) :
    ∀ c ∈ s.connections, ∃ d ∈ t.connections,
      c.arrivals ⊆ d.arrivals ∧ c.flow.log <:+ d.flow.log := by
  intro c hc
  rcases List.mem_cons.mp hc with rfl | hold
  · exact ⟨t.connection, List.mem_cons_self, harrivals, hlog⟩
  · exact ⟨c, List.mem_cons_of_mem _ (hpast ▸ hold), fun _ h => h, List.suffix_refl _⟩

/-- A quiet step claims nothing. -/
theorem Claimed.before (hpast : t.past = s.past) (hquiet : s.connection.Quiet t.connection pid)
    (h : t.Claimed pid message) : s.Claimed pid message := by
  have hnow : ∀ seq, (pid, seq, message) ∈ t.connection.arrivals →
      FlowBegan pid seq s.connection.flow.log ∨ s.connection.Keeps pid seq →
      s.Claimed pid message := by
    intro seq harrived hboth
    have hknown := hquiet.known seq message harrived hboth
    rcases hboth with hbegan | hkeeps
    · exact .inl ⟨s.connection, List.mem_cons_self, seq, hknown, hbegan⟩
    · exact .inr ⟨seq, hkeeps, hknown⟩
  rcases h with ⟨c, hc, seq, harrived, hbegan⟩ | ⟨seq, hkeeps, harrived⟩
  · rcases List.mem_cons.mp hc with rfl | hold
    · exact hnow seq harrived (hquiet.began seq hbegan)
    · exact .inl ⟨c, List.mem_cons_of_mem _ (hpast ▸ hold), seq, harrived, hbegan⟩
  · exact hnow seq harrived (.inr (hquiet.keeps seq hkeeps))

theorem Stands.later (hpast : t.past = s.past) (hquiet : s.connection.Quiet t.connection pid)
    (h : s.Stands pid flow) : t.Stands pid flow where
  settled hreceived :=
    (h.settled hreceived).later (connections_later hpast hquiet.arrivals hquiet.log)
  own hreceived seq hkeeps := hquiet.arrivals (h.own hreceived seq (hquiet.keeps seq hkeeps))

/-- The flows of the broker and those of the client agree. -/
structure Coherent (s : ResumedSession) : Prop where
  sound : Sound s.connection.flow
  booked : s.closed = false → Booked s.connection.flow
  begun : ∀ c ∈ s.connections, ∀ entry ∈ c.arrivals, entry.2.2 < s.begun
  messages : ∀ pid flow, OrderedDict.get s.flows pid = some flow → flow.message < s.begun
  flows : ∀ pid flow, OrderedDict.get s.flows pid = some flow → s.Claimed pid flow.message →
    s.Stands pid flow

namespace Coherent

/-- A step that brings nothing new for any identifier, and leaves the flows of the broker
where they stood. -/
theorem quiet (h : Coherent s) (hsound : Sound t.connection.flow)
    (hbooked : t.closed = false → Booked t.connection.flow) (hpast : t.past = s.past)
    (harrivals : t.connection.arrivals = s.connection.arrivals) (hbegun : t.begun = s.begun)
    (hquiet : ∀ pid, s.connection.Quiet t.connection pid)
    (hflows : ∀ pid flow, OrderedDict.get t.flows pid = some flow →
      ∃ old, OrderedDict.get s.flows pid = some old ∧ old.message = flow.message ∧
        old.received = flow.received) : Coherent t where
  sound := hsound
  booked := hbooked
  begun c hc entry hentry := by
    rw [hbegun]
    rcases List.mem_cons.mp hc with rfl | hold
    · exact h.begun s.connection List.mem_cons_self entry (harrivals ▸ hentry)
    · exact h.begun c (List.mem_cons_of_mem _ (hpast ▸ hold)) entry hentry
  messages pid flow hget := by
    obtain ⟨old, hold, hmessage, -⟩ := hflows pid flow hget
    rw [hbegun, ← hmessage]
    exact h.messages pid old hold
  flows pid flow hget hclaimed := by
    obtain ⟨old, hold, hmessage, hreceived⟩ := hflows pid flow hget
    rw [← hmessage] at hclaimed
    have hstands := (h.flows pid old hold (hclaimed.before hpast (hquiet pid))).later hpast
      (hquiet pid)
    refine ⟨fun htrue => ?_, fun hfalse => ?_⟩
    · exact hmessage ▸ hstands.settled (hreceived.trans htrue)
    · exact hmessage ▸ hstands.own (hreceived.trans hfalse)

/-- A step of the connection. -/
theorem flowStep (h : Coherent s) {a : InboundPublishFlow.Action} {next : InboundPublishFlow}
    (hopen : a.isPublish = true → s.closed = false) (hstep : s.connection.flow.step a = some next) :
    CopyStep s.connection.flow a next ∧ Sound next :=
  h.sound.step (fun hpublish => (h.booked (hopen hpublish)).knowsHeld) hstep

/-- A step of the connection that is no PUBLISH of a QoS 2 flow. -/
theorem move (h : Coherent s) {a : InboundPublishFlow.Action} {next : InboundPublishFlow}
    (hopen : a.isPublish = true → s.closed = false)
    (hother : ∀ packet claim write, a = .publish packet claim write → packet.qos ≠ .exactlyOnce)
    (hstep : s.connection.flow.step a = some next) :
    Sound next ∧ ∀ pid, s.connection.Quiet { s.connection with flow := next } pid := by
  obtain ⟨hcopy, hsound⟩ := h.flowStep hopen hstep
  refine ⟨hsound, fun pid => ?_⟩
  cases hcopy with
  | moved hmoved =>
      exact .of_moved hmoved (fun _ hnone => by cases hnone) (fun _ _ harrived _ => harrived)
        (fun _ harrived => harrived) (log_suffix hstep)
  | brought packet claim write other ha hqos => exact absurd hqos (hother packet claim write ha)

/-- A PUBLISH of a flow whose PUBREC the broker has not received. -/
theorem publish (h : Coherent s) {packet : Publish} {claim : Option Nat} {write : WriteOutcome}
    {next : InboundPublishFlow} (hpid : packet.packetId = some pid)
    (hget : OrderedDict.get s.flows pid = some flow) (hreceived : flow.received = false)
    (hopen : s.closed = false)
    (hstep : s.connection.flow.step (.publish packet claim write) = some next) :
    Coherent (s.arrive pid flow.message next) := by
  obtain ⟨hcopy, hsound⟩ := h.flowStep (fun _ => hopen) hstep
  have hbooked := (h.booked hopen).step (fun hclear => by cases hclear) hstep
  have hbegun : ∀ c ∈ (s.arrive pid flow.message next).connections, ∀ entry ∈ c.arrivals,
      entry.2.2 < s.begun := by
    intro c hc entry hentry
    rcases List.mem_cons.mp hc with rfl | hold
    · rcases List.mem_cons.mp hentry with rfl | hentry
      · exact h.messages pid flow hget
      · exact h.begun s.connection List.mem_cons_self entry hentry
    · exact h.begun c (List.mem_cons_of_mem _ hold) entry hentry
  have hknown : ∀ other seq message, (other, seq, message) ∈
      (s.arrive pid flow.message next).connection.arrivals →
      FlowBegan other seq s.connection.flow.log ∨ s.connection.Keeps other seq →
      (other, seq, message) ∈ s.connection.arrivals := by
    intro other seq message harrived hboth
    rcases List.mem_cons.mp harrived with heq | hold
    · cases heq
      rcases hboth with hbegan | hkeeps
      · exact absurd (h.sound.accepted _ _ hbegan) (Nat.lt_irrefl _)
      · exact absurd (hkeeps.lt h.sound) (Nat.lt_irrefl _)
    · exact hold
  have hquiet : ∀ {new : Option (Int × Nat)} (other : Int), Moved new s.connection.flow next →
      (∀ seq, new ≠ some (other, seq)) →
      s.connection.Quiet (s.arrive pid flow.message next).connection other :=
    fun other hmoved hnew => .of_moved hmoved hnew (hknown other)
      (fun _ harrived => List.mem_cons_of_mem _ harrived) (log_suffix hstep)
  refine ⟨hsound, fun _ => hbooked, hbegun, h.messages, fun other found hfound hclaimed => ?_⟩
  have hold : ∀ {new : Option (Int × Nat)}, Moved new s.connection.flow next →
      (∀ seq, new ≠ some (other, seq)) → (s.arrive pid flow.message next).Stands other found := by
    intro new hmoved hnew
    have hpast : (s.arrive pid flow.message next).past = s.past := rfl
    have hother := hquiet other hmoved hnew
    exact (h.flows other found hfound (hclaimed.before hpast hother)).later hpast hother
  cases hcopy with
  | moved hmoved => exact hold hmoved fun _ hnone => by cases hnone
  | brought packet' claim' write' pid' ha hqos hpid' hmoved hcopies hflight =>
      cases ha
      rw [hpid] at hpid'
      cases hpid'
      by_cases hother : other = pid
      · subst hother
        cases hget.symm.trans hfound
        refine ⟨fun htrue => ?_, fun _ seq hkeeps => ?_⟩
        · rw [hreceived] at htrue
          cases htrue
        · rw [SessionConnection.keeps_of_brought hmoved hcopies hflight hkeeps]
          exact List.mem_cons_self
      · refine hold hmoved fun seq heq => ?_
        cases heq
        exact hother rfl

/-- The flows of the broker change, and the connection does not. -/
theorem setFlows (h : Coherent s) {flows : List (Int × BrokerFlow)} {begun : Nat}
    (hbegun : s.begun ≤ begun)
    (hflows : ∀ pid flow, OrderedDict.get flows pid = some flow → flow.message < begun ∧
      (s.Claimed pid flow.message → s.Stands pid flow)) : Coherent { s with flows, begun } where
  sound := h.sound
  booked := h.booked
  begun c hc entry hentry := Nat.lt_of_lt_of_le (h.begun c hc entry hentry) hbegun
  messages pid flow hget := (hflows pid flow hget).1
  flows pid flow hget hclaimed :=
    ((hflows pid flow hget).2 (hclaimed.before (s := s) rfl (.refl _ pid))).later (s := s) rfl
      (.refl _ pid)

/-- The broker has received a PUBREC. -/
theorem hearPubrec (h : Coherent s) (hget : OrderedDict.get s.flows pid = some flow)
    (hawaits : awaitsPubrel pid s.connection.flow.log = true)
    (hclaimed : s.Claimed pid flow.message) : s.Settled pid flow.message := by
  have hstands := h.flows pid flow hget hclaimed
  cases hreceived : flow.received with
  | true => exact hstands.settled hreceived
  | false =>
      obtain ⟨flight, hflight⟩ := h.sound.registrations.awaiting pid hawaits
      have harrived := hstands.own hreceived _ (.inr ⟨flight, hflight, rfl⟩)
      have hmem := OrderedDict.mem_of_get hflight
      cases hdelivered : flight.delivered with
      | true =>
          exact .inr ⟨s.connection, List.mem_cons_self, _, harrived,
            h.sound.delivered.flights _ hmem hdelivered⟩
      | false =>
          exact .inl ⟨s.connection, List.mem_cons_self, _, harrived,
            h.sound.registrations.atOnce _ hmem hdelivered⟩

/-- The client connects again. -/
theorem reconnect (h : Coherent s) (config : Config) {flows : List (Int × BrokerFlow)}
    (hflows : ∀ pid flow, OrderedDict.get flows pid = some flow →
      ∃ old, OrderedDict.get s.flows pid = some old ∧ old.message = flow.message ∧
        old.received = flow.received) :
    Coherent { s with
      connection := { flow := InboundPublishFlow.start config }, closed := false,
      past := s.connection :: s.past, flows } where
  sound := Sound.start config
  booked _ := Booked.start config
  begun c hc entry hentry := by
    rcases List.mem_cons.mp hc with rfl | hold
    · cases hentry
    · exact h.begun c hold entry hentry
  messages pid flow hget := by
    obtain ⟨old, hold, hmessage, -⟩ := hflows pid flow hget
    rw [← hmessage]
    exact h.messages pid old hold
  flows pid flow hget hclaimed := by
    obtain ⟨old, hold, hmessage, hreceived⟩ := hflows pid flow hget
    refine ⟨fun htrue => ?_, fun _ seq hkeeps => ?_⟩
    · have hbefore : s.Claimed pid old.message := by
        rw [hmessage]
        rcases hclaimed with ⟨c, hc, seq, harrived, hbegan⟩ | ⟨seq, hkeeps, -⟩
        · rcases List.mem_cons.mp hc with rfl | hc
          · cases harrived
          · exact .inl ⟨c, hc, seq, harrived, hbegan⟩
        · exact absurd hkeeps (SessionConnection.not_keeps_start config)
      have hsettled := (h.flows pid old hold hbefore).settled (hreceived.trans htrue)
      rw [← hmessage]
      exact hsettled.later fun c hc =>
        ⟨c, List.mem_cons_of_mem _ hc, fun _ h => h, List.suffix_refl _⟩
    · exact absurd hkeeps (SessionConnection.not_keeps_start config)

/-- **Step lemma.** -/
theorem step (h : Coherent s) {a : Action} (hstep : s.step a = some t) : Coherent t := by
  cases a with
  | beginFlow pid =>
      simp only [ResumedSession.step] at hstep
      split at hstep
      · cases hstep
      · cases hstep
        refine h.setFlows (Nat.le_succ _) fun other found hfound => ?_
        rw [OrderedDict.get_set] at hfound
        split at hfound
        · cases hfound
          refine ⟨Nat.lt_succ_self _, ?_⟩
          rintro (⟨c, hc, seq, harrived, -⟩ | ⟨seq, -, harrived⟩)
          · exact absurd (h.begun c hc _ harrived) (Nat.lt_irrefl _)
          · exact absurd (h.begun s.connection List.mem_cons_self _ harrived) (Nat.lt_irrefl _)
        · exact ⟨Nat.lt_succ_of_lt (h.messages other found hfound), h.flows other found hfound⟩
  | publish packet claim write =>
      obtain ⟨pid, hpid, hrest⟩ := Option.bind_eq_some_iff.mp hstep
      obtain ⟨flow, hget, hrest⟩ := Option.bind_eq_some_iff.mp hrest
      obtain ⟨⟨-, hreceived, hopen⟩, hrest⟩ := Option.ite_none_right_eq_some.mp hrest
      obtain ⟨next, hnext, rfl⟩ := Option.map_eq_some_iff.mp hrest
      exact h.publish hpid hget hreceived hopen hnext
  | hearPubrec pid =>
      obtain ⟨flow, hget, hrest⟩ := Option.bind_eq_some_iff.mp hstep
      obtain ⟨hawaits, hrest⟩ := Option.ite_none_right_eq_some.mp hrest
      cases hrest
      refine h.setFlows (Nat.le_refl _) fun other found hfound => ?_
      rw [OrderedDict.get_set] at hfound
      split at hfound
      · rename_i hsame
        cases hfound
        subst hsame
        refine ⟨h.messages pid flow hget, fun hclaimed => ?_⟩
        have hsettled : s.Settled pid flow.message := h.hearPubrec hget hawaits hclaimed
        exact ⟨fun _ => hsettled, fun hfalse => by cases hfalse⟩
      · exact ⟨h.messages other found hfound, h.flows other found hfound⟩
  | pubrel packet write =>
      obtain ⟨flow, hget, hrest⟩ := Option.bind_eq_some_iff.mp hstep
      obtain ⟨⟨-, hopen⟩, hrest⟩ := Option.ite_none_right_eq_some.mp hrest
      obtain ⟨next, hnext, rfl⟩ := Option.map_eq_some_iff.mp hrest
      obtain ⟨hsound, hquiet⟩ := h.move (fun _ => hopen) (fun _ _ _ ha => by cases ha) hnext
      have hbooked := (h.booked hopen).step (fun hclear => by cases hclear) hnext
      refine h.quiet hsound (fun _ => hbooked) rfl rfl rfl hquiet fun other found hfound => ?_
      rw [OrderedDict.get_set] at hfound
      split at hfound
      · rename_i hsame
        cases hfound
        exact ⟨flow, hsame ▸ hget, rfl, rfl⟩
      · exact ⟨found, hfound, rfl, rfl⟩
  | hearPubcomp pid =>
      obtain ⟨flow, hget, hrest⟩ := Option.bind_eq_some_iff.mp hstep
      obtain ⟨-, hrest⟩ := Option.ite_none_right_eq_some.mp hrest
      cases hrest
      refine h.setFlows (Nat.le_refl _) fun other found hfound => ?_
      rw [OrderedDict.get_pop] at hfound
      obtain ⟨-, hfound⟩ := Option.ite_none_left_eq_some.mp hfound
      exact ⟨h.messages other found hfound, h.flows other found hfound⟩
  | flow action =>
      obtain ⟨hother, hrest⟩ := Option.ite_none_right_eq_some.mp hstep
      obtain ⟨next, hnext, rfl⟩ := Option.map_eq_some_iff.mp hrest
      have hopen : action.isPublish = true → s.closed = false := by
        intro hpublish
        cases action with
        | publish packet claim write => simpa [other] using (Bool.and_eq_true_iff.mp hother).2
        | _ => cases hpublish
      have hqos : ∀ packet claim write, action = .publish packet claim write →
          packet.qos ≠ .exactlyOnce := by
        rintro packet claim write rfl
        exact of_decide_eq_true (Bool.and_eq_true_iff.mp hother).1
      obtain ⟨hsound, hquiet⟩ := h.move hopen hqos hnext
      refine h.quiet hsound (fun hclosed => ?_) rfl rfl rfl hquiet
        fun other found hfound => ⟨found, hfound, rfl, rfl⟩
      obtain ⟨hstill, hclear⟩ := Bool.or_eq_false_iff.mp hclosed
      refine (h.booked hstill).step (fun heq => ?_) hnext
      rw [heq] at hclear
      cases hclear
  | reconnect config =>
      cases hstep
      refine h.reconnect config fun pid flow hget => ?_
      split at hget
      · have hmapped := (OrderedDict.get_map s.flows (fun flow : BrokerFlow =>
          { flow with completed := false }) pid).symm.trans hget
        obtain ⟨old, hold, rfl⟩ := Option.map_eq_some_iff.mp hmapped
        exact ⟨old, hold, rfl, rfl⟩
      · cases hget

theorem start (config : Config) : Coherent (start config) where
  sound := Sound.start config
  booked _ := Booked.start config
  begun c hc entry hentry := by
    rw [List.mem_singleton.mp hc] at hentry
    cases hentry
  messages _ _ h := by cases h
  flows _ _ h := by cases h

end Coherent

end ResumedSession

/-! ## Every PUBCOMP -/

/-- **What a PUBCOMP says about its message.**  On every connection a message the
application acknowledged itself was put in its queue before; any other hand-over is done
after the PUBCOMP, before the client looks at the next inbound packet, and nothing is owed
while the read loop waits for one; a PUBREL without a registered flow is answered with 0x92
and hands nothing over.  Over several connections, whenever the client answers the PUBREL of
a message whose PUBREC never went out without `ack()`, the message was put in a queue before,
be it on an earlier connection. -/
theorem pubcomp_then_hand_over (config : Config) :
    (∀ actions s,
      Transition.run InboundPublishFlow.step (InboundPublishFlow.start config) actions = some s →
      (∀ later earlier pid reasonCode flight,
        s.log = later ++ .sentPubcomp pid reasonCode (some flight) :: earlier →
        flight.delivered = true → WasPut flight.recipient.message.seq earlier) ∧
      (∀ later earlier event, s.log = later ++ event :: earlier → event.arrival = true →
        owed earlier = none) ∧
      (s.readerIdle = true → owed s.log = none) ∧
      ∀ packet write next, s.step (.pubrel packet write) = some next →
        OrderedDict.get s.inflightQos2In packet.packetId = none →
        next.log = .sentPubcomp packet.packetId 0x92 none ::
          .receivedPubrel packet.packetId :: s.log) ∧
    ∀ actions s,
      Transition.run ResumedSession.step (ResumedSession.start config) actions = some s →
      ∀ packet write next flow, s.step (.pubrel packet write) = some next →
        OrderedDict.get s.flows packet.packetId = some flow →
        s.Saw FlowBegan packet.packetId flow.message →
        ¬s.Saw PubrecAtOnce packet.packetId flow.message →
        s.Saw PutInQueue packet.packetId flow.message := by
  constructor
  · intro actions s hrun
    have hdelivered := Delivered.rules.run (Delivered.start config) (Transition.along_true _ _) hrun
    have hpaying := Paying.rules.run (Paying.start config) (Transition.along_true _ _) hrun
    refine ⟨?_, ?_, hpaying.nothing, fun packet write next hstep hget => pubrel_unknown hget hstep⟩
    · intro later earlier pid reasonCode flight hlog
      have heach := hdelivered.log
      rw [hlog] at heach
      exact heach.at flight rfl
    · intro later earlier event hlog
      have heach := hpaying.log
      rw [hlog] at heach
      exact heach.at
  · intro actions s hrun packet write next flow hstep hget hbegan hmanual
    have hcoherent := Transition.invariant (fun _ _ _ h hstep => h.step hstep)
      (ResumedSession.Coherent.start config) hrun
    obtain ⟨found, hfound, hrest⟩ := Option.bind_eq_some_iff.mp hstep
    obtain ⟨⟨hreceived, -⟩, -⟩ := Option.ite_none_right_eq_some.mp hrest
    cases hfound.symm.trans hget
    exact ((hcoherent.flows _ _ hget (.inl hbegan)).settled hreceived).resolve_left hmanual

/-- Before each PUBCOMP its message was put in a queue or delivered to a request, if it
had a recipient that was not detached. -/
def HandedOverBeforePubcomp (s : InboundPublishFlow) : Prop :=
  ∀ later earlier pid reasonCode flight,
    s.log = later ++ .sentPubcomp pid reasonCode (some flight) :: earlier →
    (flight.recipient.request.isSome ∨
      (flight.recipient.subscription.isSome ∧ s.detachedEntry flight.recipient = none)) →
    WasPut flight.recipient.message.seq earlier ∨
      ∃ request, .requestDelivered flight.recipient.message.seq request ∈ earlier

/-- A QoS 2 message for a subscription that acknowledges by itself. -/
def sampleFlow : List Action :=
  [.index (.add (str "t") sampleEntry), .publish (samplePublish .exactlyOnce 7) none .done]

/-- The message was delivered to its request. -/
def HandedToRequest (_ : Int) (seq : Nat) (log : List InboundEvent) : Prop :=
  ∃ request, .requestDelivered seq request ∈ log

/-- The PUBCOMP is sent before the message is put.  If the connection is lost after the
PUBREC, the PUBREL of the next connection is completed and the message was never handed
over. -/
theorem pubcomp_before_hand_over :
    (¬∀ config actions s, Transition.run step (start config) actions = some s →
        HandedOverBeforePubcomp s) ∧
      ∃ s next, Transition.run ResumedSession.step (ResumedSession.start {})
          [.beginFlow 7, .flow (.index (.add (str "t") sampleEntry)),
            .publish (samplePublish .exactlyOnce 7) none .done, .hearPubrec 7,
            .reconnect { sessionPresent := true }] = some s ∧
        s.step (.pubrel { packetId := 7 } .done) = some next ∧
        .sentPubcomp 7 0x92 none ∈ next.connection.flow.log ∧
        s.Saw FlowBegan 7 0 ∧ ¬s.Saw PutInQueue 7 0 ∧ ¬s.Saw HandedToRequest 7 0 := by
  constructor
  · intro h
    have hrun : ∃ s flight earlier, Transition.run step (start {})
        (sampleFlow ++ [.pubrel { packetId := 7 } .suspended]) = some s ∧
        s.log = [] ++ .sentPubcomp 7 0 (some flight) :: earlier ∧
        flight.recipient.subscription.isSome ∧ s.detachedEntry flight.recipient = none ∧
        earlier.all fun event => decide (event.pays = none) :=
      ⟨_, _, _, rfl, rfl, rfl, rfl, by decide⟩
    obtain ⟨s, flight, earlier, hs, hlog, hsome, hdetached, hnone⟩ := hrun
    have hpays : ∀ event ∈ earlier, event.pays = none := by simpa using hnone
    rcases h _ _ s hs [] earlier 7 0 flight hlog (.inr ⟨hsome, hdetached⟩) with
      ⟨oid, detached, hput⟩ | ⟨request, hrequest⟩
    · cases hpays _ hput
    · cases hpays _ hrequest
  · have hrun : ∃ s next first current, Transition.run ResumedSession.step (ResumedSession.start {})
          [.beginFlow 7, .flow (.index (.add (str "t") sampleEntry)),
            .publish (samplePublish .exactlyOnce 7) none .done, .hearPubrec 7,
            .reconnect { sessionPresent := true }] = some s ∧
        s.step (.pubrel { packetId := 7 } .done) = some next ∧
        .sentPubcomp 7 0x92 none ∈ next.connection.flow.log ∧
        s.connections = [current, first] ∧ (7, 1, 0) ∈ first.arrivals ∧
        .accepted 1 7 ∈ first.flow.log ∧
        (current.flow.log ++ first.flow.log).all fun event => decide (event.pays = none) :=
      ⟨_, _, _, _, rfl, rfl, by decide, rfl, by decide, by decide, by decide⟩
    obtain ⟨s, next, first, current, hs, hstep, hpubcomp, hconnections, harrived, hbegan, hnone⟩ :=
      hrun
    have hpays : ∀ c ∈ s.connections, ∀ event ∈ c.flow.log, event.pays = none := by
      intro c hc event hevent
      have hall : ∀ event ∈ current.flow.log ++ first.flow.log, event.pays = none := by
        simpa only [List.all_eq_true, decide_eq_true_eq] using hnone
      simp only [hconnections, List.mem_cons, List.not_mem_nil, or_false] at hc
      rcases hc with rfl | rfl
      · exact hall event (List.mem_append_left _ hevent)
      · exact hall event (List.mem_append_right _ hevent)
    have hsaw : s.Saw FlowBegan 7 0 := ⟨first, by simp [hconnections], 1, harrived, hbegan⟩
    refine ⟨s, next, hs, hstep, hpubcomp, hsaw, ?_, ?_⟩
    · rintro ⟨c, hc, seq, -, oid, detached, hput⟩
      cases hpays c hc _ hput
    · rintro ⟨c, hc, seq, -, request, hrequest⟩
      cases hpays c hc _ hrequest

/-- A subscription that the application acknowledges. -/
def sampleManual : InboundPublishFlow.Action :=
  .index (.add (str "t") { sampleEntry with autoAck := false })

/-- A manual acknowledgement, then the PUBREL, on the same connection or on the next one. -/
theorem pubcomp_then_hand_over_acked :
    (∃ s flight earlier, Transition.run InboundPublishFlow.step (InboundPublishFlow.start {})
        [sampleManual, .publish (samplePublish .exactlyOnce 7) none .done, .get 0, .ack 0,
          .pubrel { packetId := 7 } .done] = some s ∧
      s.log = [] ++ .sentPubcomp 7 0 (some flight) :: earlier ∧ WasPut 1 earlier ∧
      owed s.log = none) ∧
    ∃ s next, Transition.run ResumedSession.step (ResumedSession.start {})
        [.beginFlow 7, .flow sampleManual, .publish (samplePublish .exactlyOnce 7) none .done,
          .flow (.get 0), .flow (.ack 0), .hearPubrec 7,
          .reconnect { sessionPresent := true }] = some s ∧
      s.step (.pubrel { packetId := 7 } .done) = some next ∧
      .sentPubcomp 7 0x92 none ∈ next.connection.flow.log ∧ s.Saw PutInQueue 7 0 := by
  constructor
  · have hrun : ∃ s flight earlier,
        Transition.run InboundPublishFlow.step (InboundPublishFlow.start {})
          [sampleManual, .publish (samplePublish .exactlyOnce 7) none .done, .get 0, .ack 0,
            .pubrel { packetId := 7 } .done] = some s ∧
        s.log = [] ++ .sentPubcomp 7 0 (some flight) :: earlier ∧ flight.delivered = true ∧
        flight.recipient.message.seq = 1 ∧ s.readerIdle = true :=
      ⟨_, _, _, rfl, rfl, rfl, rfl, rfl⟩
    obtain ⟨s, flight, earlier, hs, hlog, hdelivered, hseq, hidle⟩ := hrun
    have hresult := (pubcomp_then_hand_over {}).1 _ s hs
    refine ⟨s, flight, earlier, hs, hlog, ?_, hresult.2.2.1 hidle⟩
    rw [← hseq]
    exact hresult.1 [] earlier 7 0 flight hlog hdelivered
  · have hrun : ∃ s next flow first current,
        Transition.run ResumedSession.step (ResumedSession.start {})
          [.beginFlow 7, .flow sampleManual, .publish (samplePublish .exactlyOnce 7) none .done,
            .flow (.get 0), .flow (.ack 0), .hearPubrec 7,
            .reconnect { sessionPresent := true }] = some s ∧
        s.step (.pubrel { packetId := 7 } .done) = some next ∧
        OrderedDict.get s.flows 7 = some flow ∧ flow.message = 0 ∧
        s.connections = [current, first] ∧ current.arrivals = [] ∧
        first.arrivals = [(7, 1, 0)] ∧ .accepted 1 7 ∈ first.flow.log ∧
        ¬[.sentPubrec 7, .accepted 1 7] <:+: first.flow.log ∧
        .sentPubcomp 7 0x92 none ∈ next.connection.flow.log :=
      ⟨_, _, _, _, _, rfl, rfl, rfl, rfl, rfl, rfl, rfl, by decide, by decide, by decide⟩
    obtain ⟨s, next, flow, first, current, hs, hstep, hget, hmessage, hconnections, hcurrent,
      hfirst, hbegan, hmanual, hpubcomp⟩ := hrun
    refine ⟨s, next, hs, hstep, hpubcomp, ?_⟩
    rw [← hmessage]
    refine (pubcomp_then_hand_over {}).2 _ s hs { packetId := 7 } .done next flow hstep hget ?_ ?_
    · refine ⟨first, by simp [hconnections], 1, ?_, hbegan⟩
      simp [hfirst, hmessage]
    · rintro ⟨c, hc, seq, harrived, hatOnce⟩
      simp only [hconnections, List.mem_cons, List.not_mem_nil, or_false] at hc
      rcases hc with rfl | rfl
      · rw [hcurrent] at harrived
        cases harrived
      · rw [hfirst] at harrived
        have hseq : seq = 1 := congrArg (fun entry => entry.2.1) (List.mem_singleton.mp harrived)
        rw [hseq] at hatOnce
        exact hmanual hatOnce

end Zmqtt
