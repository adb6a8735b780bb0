import Zmqtt.ProtocolRules
import Zmqtt.ReadLoop
import Zmqtt.StreamRoundTrip

/-!
# From the stream to the handlers

A session reads the bytes of the broker in pieces, and `connect` and `run` take packets from
one buffer.  The packets behind the CONNACK may have arrived with it, a handler may suspend
the loop while more bytes arrive, and calls, pings and drains run in between.

None of this shows.  The read loop has always taken the first packets of the stream, the
CONNACK first, and each packet behind it was handed once and in its turn to the part that
handles it.  Once the loop waits for bytes, it has taken every packet that has arrived.
-/

namespace Zmqtt

open Framing

/-! ## What is handed over -/

/-- A packet that the read loop gives to the inbound flow. -/
inductive Arrival
  | publish (packet : Publish)
  | pubrel (packetId : Int)
deriving DecidableEq, Repr

def Packet.arrival? : Packet → Option Arrival
  | .publish packet => some (.publish packet)
  | .pubrel packet => some (.pubrel packet.packetId)
  | _ => none

def InboundEvent.arrival? : InboundEvent → Option Arrival
  | .receivedPublish received => some (.publish received.publish)
  | .receivedPubrel packetId => some (.pubrel packetId)
  | _ => none

/-- The packets that the inbound flow has received, oldest first. -/
def InboundPublishFlow.arrivals (s : InboundPublishFlow) : List Arrival :=
  (s.log.filterMap InboundEvent.arrival?).reverse

/-- A packet that the read loop gives to the outgoing half. -/
def Packet.isAnswer : Packet → Bool
  | .publish _ => false
  | .pubrel _ => false
  | .pingresp => false
  | _ => true

def Event.answer? : Event → Option Packet
  | .handled packet => some packet
  | _ => none

/-- The packets that the outgoing half has handled, oldest first. -/
def Connection.answered (s : Connection) : List Packet := s.log.filterMap Event.answer?

/-- The bytes that a step reads from the transport. -/
def SessionAction.data : SessionAction → Bytes
  | .read data => data
  | _ => []

/-- The bytes that a run reads from the transport. -/
def readBytes (actions : List SessionAction) : Bytes := (actions.map SessionAction.data).flatten

/-! ## The inbound flow -/

namespace InboundPublishFlow

variable {s next : InboundPublishFlow}

theorem arrival_of_plain {event : InboundEvent} (h : event.plain = true) :
    event.arrival? = none := by
  cases event with
  | receivedPublish received => cases h
  | receivedPubrel packetId => cases h
  | _ => rfl

/-- Steps other than the arrival of a packet. -/
def NoArrival (_ : InboundPublishFlow) : Action → Prop
  | .publish _ _ _ => False
  | .pubrel _ _ => False
  | _ => True

/-- What is not the arrival of a packet leaves the arrivals as they are. -/
theorem arrivals_rules (arrivals : List Arrival) :
    FlowRules NoArrival (fun s => s.arrivals = arrivals) fun s _ _ => s.arrivals = arrivals := by
  apply FlowRules.ofLogAlong
    (P := fun _ log => (log.filterMap InboundEvent.arrival?).reverse = arrivals)
  · intro _ event log hplain h
    rwa [List.filterMap_cons_none (arrival_of_plain hplain)]
  · intro s packet claim write hok
    exact hok.elim
  · intro s packet write reasonCode flight hok
    exact hok.elim
  · intro s packet claim write hok
    exact hok.elim

theorem arrivals_cons {event : InboundEvent} {arrival : Arrival}
    (hlog : next.log = event :: s.log) (hevent : event.arrival? = some arrival) :
    next.arrivals = s.arrivals ++ [arrival] := by
  unfold arrivals
  rw [hlog, List.filterMap_cons_some hevent, List.reverse_cons]

theorem arrivals_step {action : Action} (haction : s.NoArrival action)
    (hstep : s.step action = some next) : next.arrivals = s.arrivals :=
  (arrivals_rules s.arrivals).step rfl haction hstep

theorem arrivals_publish {packet : Publish} {claim : Option Nat} {write : WriteOutcome}
    (hstep : s.step (.publish packet claim write) = some next) :
    next.arrivals = s.arrivals ++ [.publish packet] := by
  have hlog : (s.arrived packet).log =
      .receivedPublish { seq := s.nextSeq, publish := packet } :: s.log := by rw [arrived_frame]
  have harrived : (s.arrived packet).arrivals = s.arrivals ++ [.publish packet] :=
    arrivals_cons hlog rfl
  have haborted : ((s.arrived packet).emit (.aborted (some 0x93))).arrivals =
      s.arrivals ++ [.publish packet] := harrived
  exact (arrivals_rules (s.arrivals ++ [.publish packet])).ofArrived harrived haborted hstep

theorem arrivals_pubrel {packet : PubReply} {write : WriteOutcome}
    (hstep : s.step (.pubrel packet write) = some next) :
    next.arrivals = s.arrivals ++ [.pubrel packet.packetId] := by
  obtain ⟨-, heq⟩ := Option.ite_none_right_eq_some.mp hstep
  cases heq
  have hrules := arrivals_rules (s.arrivals ++ [.pubrel packet.packetId])
  have hhandled : (s.handlePubrel packet write).1.arrivals =
      s.arrivals ++ [.pubrel packet.packetId] := by
    have hreceived : (s.emit (.receivedPubrel packet.packetId)).arrivals =
        s.arrivals ++ [.pubrel packet.packetId] := arrivals_cons rfl rfl
    unfold handlePubrel
    simp only
    split
    · exact hreceived
    · exact hreceived
  exact hrules.storeReader (hrules.settle (o := .reader) write hhandled)

end InboundPublishFlow

/-! ## The outgoing half -/

namespace Connection

variable {s next : Connection}

/-- No call touches the record of the packets handled. -/
theorem answered_rules (answered : List Packet) :
    CallRules (fun _ s => s.answered = answered) fun _ _ => True where
  weaken _ h := h
  leave _ _ h := h
  keep _ _ h := h
  addCall _ _ h := h
  index _ _ _ h := h
  wrote packet h := by
    unfold Connection.answered
    rw [List.filterMap_append]
    exact (List.append_nil _).trans h
  openFlight packet _ _ _ _ _ h := by
    unfold Connection.answered Connection.openFlight
    rw [List.filterMap_append]
    exact (List.append_nil _).trans h
  failed kind _ _ _ _ h := by
    unfold Connection.answered Connection.openRequest Connection.closeRequest
    rw [List.filterMap_append]
    exact (List.append_nil _).trans h
  written request _ _ _ _ _ h := by
    unfold Connection.answered Connection.written Connection.openRequest
    rw [List.filterMap_append, List.filterMap_append]
    exact (List.append_nil _).trans ((List.append_nil _).trans h)
  done _ := trivial
  close _ _ h := h

theorem answered_call {action : Action} (haction : action.isCall = true)
    (hstep : s.step action = some next) : next.answered = s.answered := by
  refine (answered_rules s.answered).step rfl hstep
    (fun _ _ _ _ _ _ _ _ _ _ => trivial) ?_ ?_ (fun _ _ => rfl) ?_
  · intro c call _ _ hcancel
    unfold Connection.cancel at hcancel
    split at hcancel <;> cases hcancel <;> rfl
  · intro packet write heq
    subst heq
    cases haction
  · intro heq
    subst heq
    cases haction

theorem answered_append {packet : Packet} (events : List Event)
    (hlog : next.log = s.log ++ [.handled packet] ++ events)
    (hevents : ∀ event ∈ events, event.answer? = none) :
    next.answered = s.answered ++ [packet] := by
  unfold answered
  rw [hlog, List.filterMap_append, List.filterMap_append, List.filterMap_eq_nil_iff.mpr hevents,
    List.append_nil]
  rfl

/-- The packet was handled, or its handler raised and it was not. -/
def Took (s next : Connection) (packet : Packet) : Prop :=
  next.answered = s.answered ++ [packet] ∨
    (next.answered = s.answered ∧ ∃ error, next.reader = .ended (some error))

theorem took_logHandled (s : Connection) (packet : Packet) : s.Took (s.logHandled packet) packet :=
  .inl (answered_append [] (List.append_nil _).symm (by simp))

theorem took_endReader (s : Connection) (packet : Packet) (error : MqttError) :
    s.Took (s.endReader error) packet :=
  .inr ⟨rfl, error, rfl⟩

theorem took_pubrec (s : Connection) (packet : PubReply) (write : WriteOutcome) :
    s.Took (s.handlePubrec packet write) (.pubrec packet) := by
  unfold handlePubrec
  split
  · exact took_endReader s _ _
  · split
    · exact took_endReader s _ _
    · split
      · exact .inl (answered_append [] (List.append_nil _).symm (by simp))
      · simp only
        split
        · exact .inl (answered_append [] (List.append_nil _).symm (by simp))
        · split
          · exact .inl (answered_append [] (List.append_nil _).symm (by simp))
          · exact .inl (answered_append [_] rfl (by simp [Event.answer?]))
          · exact .inl (answered_append [_] rfl (by simp [Event.answer?]))

theorem took_answer (s : Connection) (kind : RequestKind) (packetId : Int) (packet : Packet)
    (unknown : String) : s.Took (s.handleAnswer kind packetId packet unknown) packet := by
  unfold handleAnswer
  simp only
  split
  · exact .inr ⟨rfl, _, rfl⟩
  · split
    · exact .inl (answered_append [] (List.append_nil _).symm (by simp))
    · exact .inr ⟨rfl, _, rfl⟩

/-- **The outgoing half takes each packet once.** -/
theorem took_dispatch (s : Connection) (packet : Packet) (write : WriteOutcome) :
    s.Took (s.dispatch packet write) packet := by
  cases packet with
  | publish packet => exact took_logHandled s _
  | pubrel packet => exact took_logHandled s _
  | pingresp => exact took_logHandled s _
  | puback packet =>
      simp only [dispatch, handlePuback]
      split
      · exact took_endReader s _ _
      · exact .inl (answered_append [] (List.append_nil _).symm (by simp))
  | pubrec packet => exact took_pubrec s packet write
  | pubcomp packet =>
      simp only [dispatch, handlePubcomp]
      split
      · exact took_endReader s _ _
      · exact .inl (answered_append [] (List.append_nil _).symm (by simp))
  | suback packet => exact took_answer s _ _ _ _
  | unsuback packet => exact took_answer s _ _ _ _
  | auth packet =>
      simp only [dispatch]
      split
      · exact took_logHandled s _
      · exact took_endReader s _ _
  | _ => exact took_endReader s _ _

end Connection

/-! ## The session -/

namespace Session

variable {version : Version} {limit : Option Int} {received : Bytes}
  {taken : List (Packet × Bytes)} {s next : Session} {packet : Packet}

/-- `taken` are the packets that the read loop has taken from the bytes `received`.  The first
is the CONNACK, and each of the others has been handed over. -/
structure Followed (version : Version) (limit : Option Int) (received : Bytes)
    (taken : List (Packet × Bytes)) (s : Session) : Prop where
  version_eq : s.buffer.version = version
  limit_eq : s.buffer.maxPacketSize = limit
  consumed : (frameDecoder version limit).Consumed received taken
    (s.buffer.buf.drop s.buffer.offset)
  offset_le : s.buffer.offset ≤ s.buffer.buf.length
  connecting : s.phase = .connecting → taken = []
  running : s.phase = .running → ∃ connack rest,
    taken.map Prod.fst = .connack connack :: rest ∧ connack.returnCode = 0
  arrivals : s.flow.arrivals = (taken.map Prod.fst).tail.filterMap Packet.arrival?
  answered : s.isOpen = true →
    s.connection.answered = (taken.map Prod.fst).tail.filter Packet.isAnswer

theorem followed_start (version : Version) (limit : Option Int)
    (config : InboundPublishFlow.Config) :
    (start version limit config).Followed version limit [] [] where
  version_eq := rfl
  limit_eq := rfl
  consumed := .start
  offset_le := Nat.le_refl _
  connecting _ := rfl
  running h := nomatch h
  arrivals := rfl
  answered _ := rfl

theorem isOpen_of_running (h : s.phase = .running) : s.isOpen = true := by
  rw [isOpen, h]

/-- The session after a step that takes no packet: it goes on, or has ended. -/
structure Beside (s next : Session) : Prop where
  buffer : next.buffer = s.buffer
  phase : next.phase = s.phase ∨ next.isOpen = false
  arrivals : next.flow.arrivals = s.flow.arrivals
  answered : next.connection.answered = s.connection.answered

theorem Followed.beside (h : s.Followed version limit received taken) (hopen : s.isOpen = true)
    (hbeside : s.Beside next) : next.Followed version limit received taken := by
  have hphase : ∀ phase, next.phase = phase → next.isOpen = true → s.phase = phase := by
    intro phase heq hnext
    rcases hbeside.phase with hsame | hclosed
    · rw [← hsame, heq]
    · rw [hclosed] at hnext
      cases hnext
  refine ⟨?_, ?_, ?_, ?_, fun hnext => ?_, fun hnext => ?_, ?_, fun _ => ?_⟩
  · rw [hbeside.buffer, h.version_eq]
  · rw [hbeside.buffer, h.limit_eq]
  · rw [hbeside.buffer]
    exact h.consumed
  · rw [hbeside.buffer]
    exact h.offset_le
  · exact h.connecting (hphase _ hnext (by rw [isOpen, hnext]))
  · exact h.running (hphase _ hnext (by rw [isOpen, hnext]))
  · rw [hbeside.arrivals, h.arrivals]
  · rw [hbeside.answered, h.answered hopen]

theorem setFlow_phase (s : Session) (flow : InboundPublishFlow) :
    (s.setFlow flow).phase = s.phase ∨ (s.setFlow flow).isOpen = false := by
  unfold setFlow
  split
  · exact .inr rfl
  · exact .inl rfl

theorem setConnection_phase (s : Session) (connection : Connection) :
    (s.setConnection connection).phase = s.phase ∨ (s.setConnection connection).isOpen = false := by
  unfold setConnection
  split
  · exact .inr rfl
  · exact .inl rfl

theorem setFlow_fields (s : Session) (flow : InboundPublishFlow) :
    (s.setFlow flow).buffer = s.buffer ∧ (s.setFlow flow).flow = flow ∧
      (s.setFlow flow).connection = s.connection := by
  unfold setFlow
  split <;> exact ⟨rfl, rfl, rfl⟩

theorem setConnection_fields (s : Session) (connection : Connection) :
    (s.setConnection connection).buffer = s.buffer ∧
      (s.setConnection connection).flow = s.flow ∧
      (s.setConnection connection).connection = connection := by
  unfold setConnection
  split <;> exact ⟨rfl, rfl, rfl⟩

theorem setPings_beside (s : Session) (pings : PingConnection) : s.Beside (s.setPings pings) := by
  unfold setPings
  split
  · exact ⟨rfl, .inr rfl, rfl, rfl⟩
  · exact ⟨rfl, .inl rfl, rfl, rfl⟩
  · exact ⟨rfl, .inl rfl, rfl, rfl⟩

theorem setFlow_beside {flow : InboundPublishFlow} (harrivals : flow.arrivals = s.flow.arrivals) :
    s.Beside (s.setFlow flow) := by
  obtain ⟨hbuffer, hflow, hconnection⟩ := setFlow_fields s flow
  exact ⟨hbuffer, setFlow_phase s flow, by rw [hflow, harrivals], by rw [hconnection]⟩

/-! ### A packet is taken -/

/-- The packet at the front has been taken from the buffer. -/
def advance (s : Session) (consumed : Nat) : Session :=
  { s with buffer := { s.buffer with offset := s.buffer.offset + consumed } }

/-- The session after a packet behind the CONNACK: it was handed over, or has ended the
session. -/
structure HandsOver (packet : Packet) (s next : Session) : Prop where
  buffer : next.buffer = s.buffer
  phase : next.phase = s.phase ∨ next.isOpen = false
  arrivals : next.flow.arrivals = s.flow.arrivals ++ packet.arrival?.toList
  answered : next.isOpen = true →
    next.connection.answered = s.connection.answered ++ [packet].filter Packet.isAnswer

theorem dispatch_handsOver {claim : Option Nat} {write : WriteOutcome}
    (hnext : s.dispatch packet claim write = some next) : HandsOver packet s next := by
  have hflow : ∀ flow, flow.arrivals = s.flow.arrivals ++ packet.arrival?.toList →
      packet.isAnswer = false → HandsOver packet s (s.setFlow flow) := by
    intro flow harrivals hanswer
    obtain ⟨hbuffer, hflow, hconnection⟩ := setFlow_fields s flow
    refine ⟨hbuffer, setFlow_phase s flow, by rw [hflow, harrivals], fun _ => ?_⟩
    rw [hconnection, List.filter_singleton, hanswer]
    exact (List.append_nil _).symm
  have hconnection : ∀ connection, s.connection.step (.receive packet write) = some connection →
      packet.arrival? = none → packet.isAnswer = true →
      HandsOver packet s (s.setConnection connection) := by
    intro connection hstep harrival hanswer
    obtain ⟨hbuffer, hflow, hset⟩ := setConnection_fields s connection
    refine ⟨hbuffer, setConnection_phase s connection, ?_, fun hopen => ?_⟩
    · rw [hflow, harrival]
      exact (List.append_nil _).symm
    · obtain ⟨-, heq⟩ := Option.ite_none_right_eq_some.mp hstep
      cases heq
      rw [hset, List.filter_singleton, hanswer]
      rcases s.connection.took_dispatch packet write with htook | ⟨-, error, hended⟩
      · exact htook
      · unfold setConnection at hopen
        simp only [hended] at hopen
        cases hopen
  cases packet with
  | publish packet =>
      obtain ⟨flow, hstep, rfl⟩ := Option.map_eq_some_iff.mp hnext
      exact hflow flow (InboundPublishFlow.arrivals_publish hstep) rfl
  | pubrel packet =>
      obtain ⟨flow, hstep, rfl⟩ := Option.map_eq_some_iff.mp hnext
      exact hflow flow (InboundPublishFlow.arrivals_pubrel hstep) rfl
  | pingresp =>
      cases hnext
      exact ⟨rfl, .inl rfl, (List.append_nil _).symm, fun _ => (List.append_nil _).symm⟩
  | _ =>
      obtain ⟨connection, hstep, rfl⟩ := Option.map_eq_some_iff.mp hnext
      exact hconnection connection hstep rfl rfl

/-- `connect` with a packet: it raises, or the packet is a CONNACK that accepts. -/
theorem acceptConnack_cases (s : Session) (packet : Packet) :
    (∃ escape, s.acceptConnack packet = s.leave escape) ∨
      ∃ connack qos retain, packet = .connack connack ∧ connack.returnCode = 0 ∧
        s.acceptConnack packet = s.begin connack qos retain := by
  cases packet with
  | connack connack =>
      simp only [acceptConnack]
      split
      · exact .inl ⟨_, rfl⟩
      · rename_i hzero
        have hzero := not_not.mp hzero
        split
        · split
          · exact .inl ⟨_, rfl⟩
          · exact .inr ⟨connack, _, _, rfl, hzero, rfl⟩
        · exact .inr ⟨connack, _, _, rfl, hzero, rfl⟩
  | _ => exact .inl ⟨_, rfl⟩

/-- A session that has ended keeps only the count of its packets. -/
theorem Followed.of_left {escape : Escape} (hversion : s.buffer.version = version)
    (hlimit : s.buffer.maxPacketSize = limit)
    (hconsumed : (frameDecoder version limit).Consumed received taken
      (s.buffer.buf.drop s.buffer.offset))
    (hle : s.buffer.offset ≤ s.buffer.buf.length) (hleft : s.phase = .left escape)
    (harrivals : s.flow.arrivals = (taken.map Prod.fst).tail.filterMap Packet.arrival?) :
    s.Followed version limit received taken := by
  refine ⟨hversion, hlimit, hconsumed, hle, fun hphase => ?_, fun hphase => ?_, harrivals,
    fun hopen => ?_⟩
  · cases hleft.symm.trans hphase
  · cases hleft.symm.trans hphase
  · rw [isOpen, hleft] at hopen
    cases hopen

/-- A packet of the stream is taken in `connect`. -/
theorem Followed.accept {bytes : Bytes} {n : Nat} (h : s.Followed version limit received taken)
    (hphase : s.phase = .connecting)
    (hconsumed : (frameDecoder version limit).Consumed received (taken ++ [(packet, bytes)])
      (s.buffer.buf.drop (s.buffer.offset + n)))
    (hle : s.buffer.offset + n ≤ s.buffer.buf.length) :
    ((s.advance n).acceptConnack packet).Followed version limit received
      (taken ++ [(packet, bytes)]) := by
  obtain rfl := h.connecting hphase
  have hopen : s.isOpen = true := by rw [isOpen, hphase]
  rcases (s.advance n).acceptConnack_cases packet with
    ⟨escape, heq⟩ | ⟨connack, qos, retain, rfl, hzero, heq⟩
  · rw [heq]
    exact Followed.of_left h.version_eq h.limit_eq hconsumed hle rfl h.arrivals
  · rw [heq]
    refine ⟨h.version_eq, h.limit_eq, hconsumed, hle, fun heq => ?_,
      fun _ => ⟨connack, [], rfl, hzero⟩, h.arrivals, fun _ => h.answered hopen⟩
    cases heq

/-- A packet of the stream is taken in `run`. -/
theorem Followed.handOver {bytes : Bytes} {n : Nat} (h : s.Followed version limit received taken)
    (hphase : s.phase = .running)
    (hconsumed : (frameDecoder version limit).Consumed received (taken ++ [(packet, bytes)])
      (s.buffer.buf.drop (s.buffer.offset + n)))
    (hle : s.buffer.offset + n ≤ s.buffer.buf.length)
    (hover : HandsOver packet (s.advance n) next) :
    next.Followed version limit received (taken ++ [(packet, bytes)]) := by
  obtain ⟨connack, rest, htaken, hzero⟩ := h.running hphase
  have htail : ((taken ++ [(packet, bytes)]).map Prod.fst).tail =
      (taken.map Prod.fst).tail ++ [packet] := by
    rw [List.map_append, htaken]
    rfl
  refine ⟨?_, ?_, ?_, ?_, fun hnext => ?_, fun _ => ⟨connack, rest ++ [packet], ?_, hzero⟩, ?_,
    fun hopen => ?_⟩
  · rw [hover.buffer]
    exact h.version_eq
  · rw [hover.buffer]
    exact h.limit_eq
  · rw [hover.buffer]
    exact hconsumed
  · rw [hover.buffer]
    exact hle
  · rcases hover.phase with hsame | hclosed
    · rw [hsame] at hnext
      cases hphase.symm.trans hnext
    · rw [isOpen, hnext] at hclosed
      cases hclosed
  · rw [List.map_append, htaken]
    rfl
  · rw [hover.arrivals, htail, List.filterMap_append]
    exact congrArg₂ _ h.arrivals (by cases hp : packet.arrival? <;> simp [hp])
  · rw [hover.answered hopen, htail, List.filter_append]
    exact congrArg (· ++ _) (h.answered (isOpen_of_running hphase))

/-- **A round of the loop** takes no packet, or the next one of the stream. -/
theorem Followed.round {claim : Option Nat} {write : WriteOutcome}
    (h : s.Followed version limit received taken) (hnext : s.next claim write = some next) :
    ∃ taken, next.Followed version limit received taken := by
  have hdecode : s.front = (frameDecoder version limit).decode
      (s.buffer.buf.drop s.buffer.offset) := by
    rw [front, h.version_eq, h.limit_eq]
    rfl
  unfold Session.next at hnext
  cases hfront : s.front with
  | error e =>
      simp only [hfront] at hnext
      cases hnext
      exact ⟨taken, Followed.of_left h.version_eq h.limit_eq h.consumed h.offset_le rfl h.arrivals⟩
  | ok found =>
      cases found with
      | none =>
          simp only [hfront] at hnext
          cases hnext
      | some found =>
          obtain ⟨packet, n⟩ := found
          rw [hfront] at hdecode
          have hconsumed := FrameDecoder.Consumed.frame h.consumed hdecode.symm
          rw [List.drop_drop] at hconsumed
          have hle := ((frameDecoder version limit).consumes hdecode.symm).2
          rw [List.length_drop] at hle
          have hoffset := h.offset_le
          have hle : s.buffer.offset + n ≤ s.buffer.buf.length := by omega
          simp only [hfront] at hnext
          cases hphase : s.phase with
          | connecting =>
              simp only [hphase] at hnext
              cases hnext
              have haccept := h.accept hphase hconsumed hle
              unfold advance at haccept
              rw [hphase] at haccept
              exact ⟨_, haccept⟩
          | running =>
              simp only [hphase] at hnext
              have hover : HandsOver packet (s.advance n) next := by
                unfold advance
                rw [hphase]
                exact dispatch_handsOver hnext
              exact ⟨_, h.handOver hphase hconsumed hle hover⟩
          | left escape =>
              simp only [hphase] at hnext
              cases hnext

/-- **One step** of a session follows the stream. -/
theorem Followed.step {action : SessionAction} (h : s.Followed version limit received taken)
    (hstep : s.step action = some next) :
    ∃ taken, next.Followed version limit (received ++ action.data) taken := by
  obtain ⟨hopen, hstep⟩ := Option.ite_none_right_eq_some.mp hstep
  have hsame : ∀ {t : Session}, s.Beside t →
      ∃ taken, t.Followed version limit (received ++ []) taken := by
    intro t hbeside
    rw [List.append_nil]
    exact ⟨taken, h.beside hopen hbeside⟩
  cases action with
  | read data =>
      obtain ⟨-, hfeed⟩ := Option.ite_none_right_eq_some.mp hstep
      obtain ⟨buffer, hbuffer, rfl⟩ := Option.map_eq_some_iff.mp hfeed
      obtain ⟨hversion, hlimit, hunread, hle⟩ := PacketBuffer.feed_unread hbuffer h.offset_le
      have hmore := h.consumed.append data
      rw [← hunread] at hmore
      exact ⟨taken, hversion.trans h.version_eq, hlimit.trans h.limit_eq, hmore, hle,
        h.connecting, h.running, h.arrivals, fun _ => h.answered hopen⟩
  | next claim write =>
      obtain ⟨-, hnext⟩ := Option.ite_none_right_eq_some.mp hstep
      change ∃ taken, next.Followed version limit (received ++ []) taken
      rw [List.append_nil]
      exact h.round hnext
  | resumeDispatch ok =>
      obtain ⟨connection, hresume, rfl⟩ := Option.map_eq_some_iff.mp hstep
      obtain ⟨-, heq⟩ := Option.ite_none_right_eq_some.mp hresume
      obtain ⟨hbuffer, hflow, hconnection⟩ := setConnection_fields s connection
      refine hsame ⟨hbuffer, setConnection_phase s connection, by rw [hflow], ?_⟩
      rw [hconnection]
      cases heq
      cases ok <;> rfl
  | resumeInbound ok write =>
      obtain ⟨flow, hflow, rfl⟩ := Option.map_eq_some_iff.mp hstep
      have haction : s.flow.NoArrival (.resumeReader ok write) := trivial
      exact hsame (setFlow_beside (InboundPublishFlow.arrivals_step haction hflow))
  | call action =>
      obtain ⟨haction, hcall⟩ := Option.ite_none_right_eq_some.mp hstep
      obtain ⟨connection, hconnection, rfl⟩ := Option.map_eq_some_iff.mp hcall
      exact hsame ⟨rfl, .inl rfl, rfl, Connection.answered_call haction hconnection⟩
  | inbound action =>
      obtain ⟨hother, hinbound⟩ := Option.ite_none_right_eq_some.mp hstep
      obtain ⟨flow, hflow, rfl⟩ := Option.map_eq_some_iff.mp hinbound
      have haction : s.flow.NoArrival action := by
        cases action with
        | publish packet claim write => cases hother
        | pubrel packet write => cases hother
        | _ => trivial
      exact hsame ⟨rfl, .inl rfl, InboundPublishFlow.arrivals_step haction hflow, rfl⟩
  | ping action =>
      obtain ⟨-, hping⟩ := Option.ite_none_right_eq_some.mp hstep
      obtain ⟨pings, -, rfl⟩ := Option.map_eq_some_iff.mp hping
      exact hsame (s.setPings_beside pings)
  | keepalive write =>
      simp only at hstep
      split at hstep
      · cases hstep
        have hpings := { s with keepalive := some s.pings.calls.length }.setPings_beside
          (s.pings.ping write)
        exact hsame ⟨hpings.buffer, hpings.phase, hpings.arrivals, hpings.answered⟩
      · cases hstep

/-- **A run** of a session follows the stream. -/
theorem Followed.run {actions : List SessionAction} :
    ∀ {s : Session} {received : Bytes} {taken : List (Packet × Bytes)},
      s.Followed version limit received taken → Transition.run Session.step s actions = some next →
      ∃ taken, next.Followed version limit (received ++ readBytes actions) taken := by
  induction actions with
  | nil =>
      intro s received taken h hrun
      cases hrun
      rw [readBytes, List.map_nil, List.flatten_nil, List.append_nil]
      exact ⟨taken, h⟩
  | cons action actions ih =>
      intro s received taken h hrun
      obtain ⟨mid, hstep, hrest⟩ := Option.bind_eq_some_iff.mp hrun
      obtain ⟨taken, hmid⟩ := h.step hstep
      obtain ⟨taken, hlast⟩ := ih hmid hrest
      rw [List.append_assoc] at hlast
      exact ⟨taken, hlast⟩

end Session

/-- **A session handles the stream the broker sends.**  Whatever pieces the encodings of some
packets arrive in, and whatever calls, pings and inbound tasks run meanwhile, the read loop
has at any time taken the first `n` packets:

* the PUBLISH and PUBREL packets among them, behind the CONNACK, are those that the inbound
  flow has received, in order;
* while the session is open, the others are those that the outgoing half has handled;
* `run` goes on only behind a CONNACK that accepts;
* no packet fails to decode, and a loop that waits for bytes has taken all that have arrived. -/
theorem stream_handled_in_order (version : Version) (limit : Option Int)
    (config : InboundPublishFlow.Config) (packets : List Packet) (encodings : List Bytes)
    (actions : List SessionAction) (s : Session)
    (hencodings : Encodings version limit packets encodings)
    (hrun : Transition.run Session.step (Session.start version limit config) actions = some s)
    (hstream : readBytes actions <+: encodings.flatten) :
    let arrived := FrameDecoder.complete (framesOf version packets encodings)
      (readBytes actions).length
    ∃ n ≤ arrived,
      let handled := ((packets.map (norm version)).take n).tail
      s.flow.arrivals = handled.filterMap Packet.arrival? ∧
      (s.isOpen = true → s.connection.answered = handled.filter Packet.isAnswer) ∧
      (s.phase = .running → ∃ connack, connack.returnCode = 0 ∧
        (packets.map (norm version)).head? = some (.connack connack) ∧ 0 < n) ∧
      (∀ e, s.front ≠ .error e) ∧
      (s.front = .ok none → n = arrived) := by
  intro arrived
  obtain ⟨taken, h⟩ := (Session.followed_start version limit config).run hrun
  rw [List.nil_append] at h
  have hparse := hencodings.parse_prefix hstream
  have hrest := h.consumed.parse_eq
  rw [show (frameDecoder version limit).parse (readBytes actions) = _ from hparse,
    Prod.mk.injEq] at hrest
  obtain ⟨hframes, hnone⟩ := hrest
  have hdecode : s.front = (frameDecoder version limit).decode
      (s.buffer.buf.drop s.buffer.offset) := by
    rw [Session.front, h.version_eq, h.limit_eq]
    rfl
  -- what has been taken are the first frames of the stream
  have hprefix : taken <+: framesOf version packets encodings :=
    (List.prefix_append _ _).trans (hframes ▸ List.take_prefix _ _)
  have htaken : taken.map Prod.fst = (packets.map (norm version)).take taken.length := by
    rw [← hencodings.framesOf_packets, ← List.map_take, ← List.prefix_iff_eq_take.mp hprefix]
  have hlength := congrArg List.length hframes
  rw [List.length_take, List.length_append] at hlength
  refine ⟨taken.length, by omega, ?_, ?_, ?_, ?_, ?_⟩
  · rw [h.arrivals, htaken]
  · intro hopen
    rw [h.answered hopen, htaken]
  · intro hphase
    obtain ⟨connack, rest, hconnack, hzero⟩ := h.running hphase
    have hpositive : 0 < taken.length := by
      rw [← List.length_map Prod.fst, hconnack]
      exact Nat.succ_pos _
    refine ⟨connack, hzero, ?_, hpositive⟩
    rw [hconnack] at htaken
    have hhead := congrArg List.head? htaken
    rw [List.head?_cons, List.head?_take, if_neg (Nat.ne_of_gt hpositive)] at hhead
    exact hhead.symm
  · intro e hfront
    rw [hfront] at hdecode
    rw [FrameDecoder.parse_of_error hdecode.symm] at hnone
    cases hnone
  · intro hfront
    rw [hfront] at hdecode
    rw [FrameDecoder.parse_of_none hdecode.symm, List.append_nil] at hframes
    have hcomplete : arrived ≤ (framesOf version packets encodings).length :=
      FrameDecoder.complete_le _ _
    rw [← hframes, List.length_take]
    exact Nat.min_eq_left hcomplete

/-- A CONNACK with a PUBLISH right behind it in one read, and a PINGRESP cut in two. -/
def sampleStream : List SessionAction :=
  [.read [0x20, 0x02, 0x00, 0x00, 0x32, 0x05, 0x00, 0x01, 0x74, 0x00, 0x07], .next none .done,
    .next none .done, .read [0xD0], .read [0x00], .next none .done]

theorem stream_handled_in_order_cut :
    ∃ s, Transition.run Session.step (Session.start .v311 none {}) sampleStream = some s ∧
      ∀ e, s.front ≠ .error e := by
  have hrun : (Transition.run Session.step (Session.start .v311 none {}) sampleStream).isSome =
      true := by decide +kernel
  obtain ⟨s, hs⟩ := Option.isSome_iff_exists.mp hrun
  obtain ⟨n, -, -, -, -, hfront, -⟩ := stream_handled_in_order .v311 none {}
    [.connack { sessionPresent := false, returnCode := 0 },
      .publish
        { topic := [116], payload := [], qos := .atLeastOnce, retain := false, dup := false,
          packetId := some 7 },
      .pingresp]
    [[0x20, 0x02, 0x00, 0x00], [0x32, 0x05, 0x00, 0x01, 0x74, 0x00, 0x07], [0xD0, 0x00]]
    sampleStream s (.cons ⟨rfl, rfl⟩ (.cons ⟨rfl, rfl⟩ (.cons ⟨rfl, rfl⟩ .nil))) hs ⟨[], rfl⟩
  exact ⟨s, hs, hfront⟩

end Zmqtt
