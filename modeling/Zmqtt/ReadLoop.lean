import Zmqtt.HandlerErrors
import Zmqtt.PacketBuffer

/-!
# The read loop and the errors of inbound bytes

`connect` reads until it has a CONNACK, `run` takes packet after packet from the buffer and
hands each to its handler.  Both pass on what `decode` raises, but for
`PacketTooLargeError`: nothing turns a `ValueError`, an `IndexError` or a `struct.error` of
a malformed packet into an `MQTTProtocolError`.  Three checks of valid packets miss as well.
`connect` builds a `QoS` from the Maximum QoS of the CONNACK, the handlers of SUBACK and
UNSUBACK resolve their future whatever its state, and a keepalive ping whose time is over
removes its future although a PINGRESP may have taken it.

A session here is the buffer with the outgoing half, the inbound flow and the pings, each with
its own steps; the read loop is the only link between them.
-/

namespace Zmqtt

/-! ## The session -/

/-- What leaves `connect` or `run`. -/
inductive Escape
  | protocolError (msg : String)
  | connectError (returnCode : Int) (properties : Option ConnAckProperties)
  | codec (error : CodecError)
  | dispatch (error : MqttError)
  | inbound (error : InboundError)
  | ping (error : PingError)

def Escape.errorClass : Escape → Option ErrorClass
  | .protocolError _ => some .protocolError
  | .connectError _ _ => some .connectError
  | .dispatch error => error.errorClass
  | .inbound (.protocolError _) => some .protocolError
  | .ping .timeout => some .timeoutError
  | .ping .disconnected => some .disconnectedError
  | _ => none

/-- The exception is not one of the transport or of a cancellation. -/
def Escape.fromBytes : Escape → Bool
  | .dispatch .transport => false
  | .dispatch .cancelled => false
  | .inbound .interrupted => false
  | .ping .disconnected => false
  | .ping .cancelled => false
  | _ => true

inductive SessionPhase
  | connecting
  | running
  | left (escape : Escape)

/-- `MQTTProtocol` from `connect` to the end of `run`.  `keepalive` is the ping that
`_ping_loop` waits for. -/
structure Session where
  buffer : PacketBuffer
  phase : SessionPhase := .connecting
  connection : Connection
  flow : InboundPublishFlow
  pings : PingConnection := {}
  keepalive : Option Nat := none

/-- A step of the read loop, of a call, of the inbound flow or of a ping. -/
inductive SessionAction
  | read (data : Bytes)
  | next (claim : Option Nat) (write : WriteOutcome)
  | resumeDispatch (ok : Bool)
  | resumeInbound (ok : Bool) (write : WriteOutcome)
  | call (action : Connection.Action)
  | inbound (action : InboundPublishFlow.Action)
  | ping (action : PingConnection.Action)
  | keepalive (write : WriteOutcome)

/-- Steps that are not those of the read loop. -/
def Connection.Action.isCall : Connection.Action → Bool
  | .receive _ _ => false
  | .resumeReader _ => false
  | .exit => false
  | _ => true

def InboundPublishFlow.Action.isOther : InboundPublishFlow.Action → Bool
  | .publish _ _ _ => false
  | .pubrel _ _ => false
  | .resumeReader _ _ => false
  | _ => true

namespace Session

/-- The session of a new connection. -/
def start (version : Version) (maximumPacketSize : Option Int)
    (config : InboundPublishFlow.Config) : Session where
  buffer := { version, maxPacketSize := maximumPacketSize }
  connection := { version }
  flow := InboundPublishFlow.start { config with sessionPresent := false }

/-- The answer of `decode` at the offset of the buffer. -/
def front (s : Session) : Except CodecError (Option (Packet × Nat)) :=
  decode (s.buffer.buf.drop s.buffer.offset) s.buffer.version s.buffer.maxPacketSize

/-- No handler of the read loop is suspended. -/
def idle (s : Session) : Bool :=
  decide (s.connection.dead = false) && decide (s.connection.reader = .idle) && s.flow.readerIdle

def leave (s : Session) (escape : Escape) : Session := { s with phase := .left escape }

/-- `_rejecting_oversized_packets`. -/
def rejectOversized : CodecError → Escape
  | .packetTooLarge size limit =>
      .protocolError (s!"Broker sent a packet of {size} bytes, " ++
        s!"exceeding the Maximum Packet Size of {limit} bytes")
  | error => .codec error

/-- `QoS.EXACTLY_ONCE if max_qos is None else QoS(max_qos)`. -/
def maxPublishQos (properties : ConnAckProperties) : Except CodecError QoS :=
  match properties.maximumQos with
  | none => .ok .exactlyOnce
  | some value =>
      if value < 0 then .error (.valueError s!"{value} is not a valid QoS")
      else QoS.fromValue value.toNat

/-- `begin_session` and the return of `connect`. -/
def begin (s : Session) (packet : ConnAck) (maxPublishQos : QoS) (retainAvailable : Bool) :
    Session :=
  { s with
    phase := .running
    connection := { s.connection with maxPublishQos, retainAvailable }
    flow := { s.flow with
      replay := { state := if packet.sessionPresent then .idle else .noSession } } }

/-- The body of the loop of `_await_connack`. -/
def acceptConnack (s : Session) (packet : Packet) : Session :=
  match packet with
  | .connack packet =>
      if packet.returnCode ≠ 0 then s.leave (.connectError packet.returnCode packet.properties)
      else
        match s.buffer.version, packet.properties with
        | .v5, some properties =>
            match maxPublishQos properties with
            | .error e => s.leave (.codec e)
            | .ok qos => s.begin packet qos (decide (properties.retainAvailable ≠ some false))
        | _, _ => s.begin packet .exactlyOnce true
  | _ => s.leave (.protocolError "Expected CONNACK")

/-- The outgoing half after a step of the read loop. -/
def setConnection (s : Session) (connection : Connection) : Session :=
  match connection.reader with
  | .ended (some error) => { s with connection, phase := .left (.dispatch error) }
  | _ => { s with connection }

/-- The inbound flow after a step of the read loop. -/
def setFlow (s : Session) (flow : InboundPublishFlow) : Session :=
  match flow.ended with
  | some error => { s with flow, phase := .left (.inbound error) }
  | none => { s with flow }

/-- The pings after a step of one.  `run` ends with the exception of the keepalive loop. -/
def setPings (s : Session) (pings : PingConnection) : Session :=
  match (s.keepalive.bind fun c => pings.calls[c]?).map PingCall.phase with
  | some (.raised error) => { s with pings, phase := .left (.ping error) }
  | some .returned => { s with pings, keepalive := none }
  | _ => { s with pings }

/-- `_dispatch`: PUBLISH and PUBREL go to the inbound flow, PINGRESP to the pings. -/
def dispatch (s : Session) (packet : Packet) (claim : Option Nat) (write : WriteOutcome) :
    Option Session :=
  match packet with
  | .publish packet => (s.flow.step (.publish packet claim write)).map s.setFlow
  | .pubrel packet => (s.flow.step (.pubrel packet write)).map s.setFlow
  | .pingresp => some { s with pings := s.pings.popWaiter }
  | packet => (s.connection.step (.receive packet write)).map s.setConnection

/-- The next round of `for packet in self._buf`. -/
def next (s : Session) (claim : Option Nat) (write : WriteOutcome) : Option Session :=
  match s.front with
  | .error e => some (s.leave (rejectOversized e))
  | .ok none => none
  | .ok (some (packet, consumed)) =>
      let s := { s with buffer := { s.buffer with offset := s.buffer.offset + consumed } }
      match s.phase with
      | .connecting => some (s.acceptConnack packet)
      | .running => s.dispatch packet claim write
      | .left _ => none

/-- The session has not ended. -/
def isOpen (s : Session) : Bool :=
  match s.phase with
  | .left _ => false
  | _ => true

/-- One step.  The loop reads once the buffer has no further packet. -/
def step (s : Session) (action : SessionAction) : Option Session :=
  if s.isOpen then
    match action with
    | .read data =>
        if s.idle && decide (s.front = .ok none) then
          (s.buffer.feed false data).map fun buffer => { s with buffer }
        else none
    | .next claim write => if s.idle then s.next claim write else none
    | .resumeDispatch ok => (s.connection.step (.resumeReader ok)).map s.setConnection
    | .resumeInbound ok write => (s.flow.step (.resumeReader ok write)).map s.setFlow
    | .call action =>
        if action.isCall then
          (s.connection.step action).map fun connection => { s with connection }
        else none
    | .inbound action =>
        if action.isOther then (s.flow.step action).map fun flow => { s with flow } else none
    | .ping action => if action.isCall then (s.pings.step action).map s.setPings else none
    | .keepalive write =>
        match s.phase, s.keepalive with
        | .running, none =>
            some ({ s with keepalive := some s.pings.calls.length }.setPings (s.pings.ping write))
        | _, _ => none
  else none

/-- What the packet at the front is reported as, if it ends `connect` or `run`: a refusal as
`MQTTConnectError`, a DISCONNECT behind the CONNACK as `MQTTDisconnectedError`, and any other
packet as `MQTTProtocolError`, also when it does not decode. -/
def due (s : Session) : ErrorClass :=
  match s.front, s.phase with
  | .ok (some (.connack packet, _)), .connecting =>
      if packet.returnCode ≠ 0 then .connectError else .protocolError
  | .ok (some (packet, _)), .running => packet.errorClass
  | _, _ => .protocolError

/-- The class of the exception that is due in a step.  A handler that goes on is one of a PUBLISH,
a PUBREC or a PUBREL. -/
def dueIn (s : Session) : SessionAction → ErrorClass
  | .next _ _ => s.due
  | .ping _ => .timeoutError
  | .keepalive _ => .timeoutError
  | _ => .protocolError

/-- An exception that the inbound bytes caused is of the class. -/
def LeavesAs (s : Session) (errorClass : ErrorClass) : Prop :=
  ∀ escape, s.phase = .left escape → escape.fromBytes = true → escape.errorClass = some errorClass

/-- The exception with which a step leaves `connect` or `run` because of the inbound bytes is
an `MQTTError`, of the class that is due. -/
def Reports (s : Session) (action : SessionAction) : Prop :=
  ∀ next, s.step action = some next → next.LeavesAs (s.dueIn action)

/-- The future of an answer, if there is one, waits for it. -/
def unanswered (s : Session) (kind : RequestKind) (packetId : Int) : Bool :=
  (OrderedDict.get (s.connection.state.pending kind) packetId.toNat).all fun future =>
    decide (s.connection.answerFutures[future]? = some .pending)

/-- The next packet of the buffer is one that the code reports well: it decodes or is too
large, a CONNACK has a valid Maximum QoS, and a SUBACK or UNSUBACK is not a second answer.
No PINGRESP has taken the future of a keepalive ping whose time is over. -/
def regular (s : Session) : SessionAction → Bool
  | .next _ _ =>
      match s.front with
      | .error (.packetTooLarge _ _) => true
      | .error _ => false
      | .ok none => true
      | .ok (some (packet, _)) =>
          match s.phase, packet with
          | .connecting, .connack packet =>
              decide (packet.returnCode ≠ 0) || decide (s.buffer.version ≠ .v5) ||
                packet.properties.all fun properties =>
                  properties.maximumQos.all fun value => decide (0 ≤ value ∧ value ≤ 2)
          | .running, .suback packet => s.unanswered .subscribe packet.packetId
          | .running, .unsuback packet => s.unanswered .unsubscribe packet.packetId
          | _, _ => true
  | .ping (.timeout c) => decide (s.keepalive = some c) == false || s.pings.waiters.contains c
  | _ => true

end Session

/-! ## Regular steps -/

namespace Session

variable {s next : Session} {action : SessionAction} {errorClass : ErrorClass}

/-- What holds along a regular run.  An exception is of the class that was due in the step
that left `connect` or `run`. -/
structure Sound (s : Session) (errorClass : ErrorClass) : Prop where
  leaves : s.LeavesAs errorClass
  flow : s.flow.Expected
  pings : ∀ c, s.keepalive = some c → ¬s.pings.Lost c

theorem leavesAs_of_isOpen (h : s.isOpen = true) : s.LeavesAs errorClass := by
  intro escape hphase
  rw [isOpen, hphase] at h
  cases h

/-- Nothing has left an open session, so any class may be due in the next step. -/
theorem Sound.of_isOpen (h : s.Sound errorClass) (hopen : s.isOpen = true)
    (due : ErrorClass) : s.Sound due :=
  ⟨leavesAs_of_isOpen hopen, h.flow, h.pings⟩

theorem sound_start (version : Version) (maximumPacketSize : Option Int)
    (config : InboundPublishFlow.Config) :
    (start version maximumPacketSize config).Sound errorClass := by
  refine ⟨leavesAs_of_isOpen rfl, ⟨fun error h => ?_, fun frame h => ?_⟩, fun c h => ?_⟩
  · cases h
  · cases h
  · cases h

theorem Sound.leave {escape : Escape} (h : s.Sound errorClass)
    (hescape : escape.fromBytes = true → escape.errorClass = some errorClass) :
    (s.leave escape).Sound errorClass := by
  refine ⟨fun other hphase => ?_, h.flow, h.pings⟩
  cases hphase
  exact hescape

theorem Sound.setConnection {connection : Connection} (h : s.Sound errorClass)
    (hended : ∀ error, connection.reader = .ended (some error) →
      error.errorClass = some errorClass ∨ error = .transport) :
    (s.setConnection connection).Sound errorClass := by
  unfold Session.setConnection
  split
  · rename_i error hreader
    refine ⟨fun escape hphase hbytes => ?_, h.flow, h.pings⟩
    cases hphase
    rcases hended error hreader with hmqtt | rfl
    · exact hmqtt
    · cases hbytes
  · exact ⟨h.leaves, h.flow, h.pings⟩

theorem Sound.setFlow {flow : InboundPublishFlow} (h : s.Sound .protocolError)
    (hflow : flow.Expected) : (s.setFlow flow).Sound .protocolError := by
  unfold Session.setFlow
  split
  · rename_i error hended
    have hexpected := hflow.ended error hended
    refine ⟨fun escape hphase hbytes => ?_, hflow, h.pings⟩
    cases hphase
    cases error with
    | protocolError msg => rfl
    | interrupted => cases hbytes
    | valueError msg => cases hexpected
    | keyError => cases hexpected
  · exact ⟨h.leaves, hflow, h.pings⟩

theorem Sound.setPings {pings : PingConnection} (h : s.LeavesAs .timeoutError)
    (hflow : s.flow.Expected) (hpings : ∀ c, s.keepalive = some c → ¬pings.Lost c) :
    (s.setPings pings).Sound .timeoutError := by
  unfold Session.setPings
  split
  · rename_i error hphase
    obtain ⟨call, hcall, hraised⟩ := Option.map_eq_some_iff.mp hphase
    obtain ⟨c, hkeepalive, hcall⟩ := Option.bind_eq_some_iff.mp hcall
    refine ⟨fun escape hleft hbytes => ?_, hflow, hpings⟩
    cases hleft
    cases error with
    | timeout => rfl
    | disconnected => cases hbytes
    | cancelled => cases hbytes
    | valueError => exact absurd ⟨call, hcall, hraised⟩ (hpings c hkeepalive)
  · exact ⟨h, hflow, fun c hkeepalive => nomatch hkeepalive⟩
  · exact ⟨h, hflow, hpings⟩

/-- `QoS(max_qos)` does not raise exactly on the three values. -/
theorem maxPublishQos_ok (properties : ConnAckProperties) :
    (∃ qos, maxPublishQos properties = .ok qos) ↔
      properties.maximumQos.all (fun value => decide (0 ≤ value ∧ value ≤ 2)) = true := by
  unfold maxPublishQos
  cases properties.maximumQos with
  | none => exact ⟨fun _ => rfl, fun _ => ⟨_, rfl⟩⟩
  | some value =>
      simp only [Option.all_some, decide_eq_true_eq]
      constructor
      · rintro ⟨qos, hqos⟩
        split at hqos
        · cases hqos
        · unfold QoS.fromValue at hqos
          split at hqos
          · omega
          · omega
          · omega
          · cases hqos
      · intro hvalue
        obtain ⟨n, rfl⟩ := Int.eq_ofNat_of_zero_le hvalue.1
        rw [if_neg (by omega)]
        obtain rfl | rfl | rfl : n = 0 ∨ n = 1 ∨ n = 2 := by omega
        · exact ⟨_, rfl⟩
        · exact ⟨_, rfl⟩
        · exact ⟨_, rfl⟩

theorem Sound.begin (h : s.Sound errorClass) (packet : ConnAck) (maxPublishQos : QoS)
    (retainAvailable : Bool) : (s.begin packet maxPublishQos retainAvailable).Sound errorClass :=
  ⟨leavesAs_of_isOpen rfl, h.flow.of_sameReader ⟨rfl, rfl⟩, h.pings⟩

/-- A packet is read in `connect`. -/
theorem Sound.acceptConnack {packet : Packet} (h : s.Sound errorClass)
    (hclass : errorClass = match packet with
      | .connack packet => if packet.returnCode ≠ 0 then .connectError else .protocolError
      | _ => .protocolError)
    (hqos : ∀ connack properties, packet = .connack connack → connack.returnCode = 0 →
      s.buffer.version = .v5 → connack.properties = some properties →
      ∃ qos, maxPublishQos properties = .ok qos) : (s.acceptConnack packet).Sound errorClass := by
  cases packet with
  | connack packet =>
      simp only [Session.acceptConnack]
      split
      · rename_i hrefused
        refine h.leave fun _ => ?_
        rw [hclass]
        exact congrArg some (if_pos hrefused).symm
      · rename_i hzero
        split
        · rename_i properties hversion hproperties
          obtain ⟨qos, hok⟩ := hqos packet properties rfl (not_not.mp hzero) hversion hproperties
          simp only [hok]
          exact h.begin packet qos _
        · exact h.begin packet _ _
  | _ => exact h.leave fun _ => congrArg some hclass.symm

/-- A SUBACK or UNSUBACK finds its future pending, or no future. -/
theorem handleAnswer_unanswered {kind : RequestKind} {packetId : Int} {packet : Packet}
    {unknown : String} (hidle : s.connection.reader = .idle) :
    s.unanswered kind packetId = true ↔
      (s.connection.handleAnswer kind packetId packet unknown).reader ≠
        .ended (some .invalidState) := by
  rw [Connection.handleAnswer_reader, unanswered]
  cases OrderedDict.get (s.connection.state.pending kind) packetId.toNat with
  | none => simp
  | some future =>
      simp only [Option.all_some, decide_eq_true_eq, hidle]
      split
      · simpa
      · simpa

/-- A packet is handled in `run`. -/
theorem Sound.dispatch {packet : Packet} {claim : Option Nat} {write : WriteOutcome}
    (h : s.Sound packet.errorClass) (hidle : s.connection.reader = .idle)
    (hpacket : packet.Identified)
    (hsuback : ∀ suback, packet = .suback suback →
      s.unanswered .subscribe suback.packetId = true)
    (hunsuback : ∀ unsuback, packet = .unsuback unsuback →
      s.unanswered .unsubscribe unsuback.packetId = true)
    (hnext : s.dispatch packet claim write = some next) : next.Sound packet.errorClass := by
  have hconnection : ∀ connection, s.connection.step (.receive packet write) = some connection →
      (s.setConnection connection).Sound packet.errorClass := by
    intro connection hstep
    obtain ⟨-, heq⟩ := Option.ite_none_right_eq_some.mp hstep
    cases heq
    apply h.setConnection
    intro error hended
    exact Connection.dispatch_ended hpacket hidle
      (fun suback heq => (handleAnswer_unanswered hidle).mp (hsuback suback heq))
      (fun unsuback heq => (handleAnswer_unanswered hidle).mp (hunsuback unsuback heq)) hended
  cases packet with
  | publish packet =>
      obtain ⟨flow, hflow, rfl⟩ := Option.map_eq_some_iff.mp hnext
      refine h.setFlow (h.flow.step (fun other claim' write' heq => ?_) hflow)
      cases heq
      exact hpacket
  | pubrel packet =>
      obtain ⟨flow, hflow, rfl⟩ := Option.map_eq_some_iff.mp hnext
      refine h.setFlow (h.flow.step (fun other claim' write' heq => ?_) hflow)
      cases heq
  | pingresp =>
      cases hnext
      exact ⟨h.leaves, h.flow, fun c hkeepalive hlost => h.pings c hkeepalive hlost.of_popWaiter⟩
  | _ =>
      obtain ⟨connection, hstep, rfl⟩ := Option.map_eq_some_iff.mp hnext
      exact hconnection connection hstep

/-- A round of the loop over the buffer. -/
theorem Sound.round {claim : Option Nat} {write : WriteOutcome} (h : s.Sound s.due)
    (hidle : s.idle = true) (hok : s.regular (.next claim write) = true)
    (hnext : s.next claim write = some next) : next.Sound s.due := by
  obtain ⟨⟨-, hreader⟩, -⟩ : (s.connection.dead = false ∧ s.connection.reader = .idle) ∧
      s.flow.readerIdle = true := by simpa [idle] using hidle
  unfold Session.next at hnext
  unfold regular at hok
  cases hfront : s.front with
  | error e =>
      simp only [hfront] at hok hnext
      cases hnext
      cases e with
      | packetTooLarge size limit =>
          refine h.leave fun _ => ?_
          simp only [due, hfront]
          rfl
      | _ => cases hok
  | ok found =>
      cases found with
      | none =>
          simp only [hfront] at hnext
          cases hnext
      | some found =>
          obtain ⟨packet, consumed⟩ := found
          simp only [hfront] at hok hnext
          have hread : Sound
              { s with buffer := { s.buffer with offset := s.buffer.offset + consumed } } s.due :=
            ⟨h.leaves, h.flow, h.pings⟩
          cases hphase : s.phase with
          | connecting =>
              simp only [hphase] at hread hok hnext
              cases hnext
              refine hread.acceptConnack ?_ fun connack properties hpacket hzero hversion hsome => ?_
              · cases packet <;> simp only [due, hfront, hphase]
              subst hpacket
              rw [maxPublishQos_ok]
              have hversion : s.buffer.version = .v5 := hversion
              simpa [hzero, hversion, hsome] using hok
          | running =>
              have hdue : s.due = packet.errorClass := by
                simp only [due, hfront, hphase]
              rw [hdue] at hread ⊢
              simp only [hphase] at hread hok hnext
              refine hread.dispatch hreader (decode_identified hfront) (fun suback heq => ?_)
                (fun unsuback heq => ?_) hnext
              · subst heq
                exact hok
              · subst heq
                exact hok
          | left escape =>
              simp only [hphase] at hnext
              cases hnext

/-- **One regular step.** -/
theorem Sound.step (h : s.Sound errorClass) (hok : s.regular action = true)
    (hstep : s.step action = some next) : next.Sound (s.dueIn action) := by
  obtain ⟨hopen, hstep⟩ := Option.ite_none_right_eq_some.mp hstep
  have h : s.Sound (s.dueIn action) := h.of_isOpen hopen _
  cases action with
  | read data =>
      obtain ⟨-, hfeed⟩ := Option.ite_none_right_eq_some.mp hstep
      obtain ⟨buffer, -, rfl⟩ := Option.map_eq_some_iff.mp hfeed
      exact ⟨h.leaves, h.flow, h.pings⟩
  | next claim write =>
      obtain ⟨hidle, hnext⟩ := Option.ite_none_right_eq_some.mp hstep
      exact h.round hidle hok hnext
  | resumeDispatch ok =>
      obtain ⟨connection, hresume, rfl⟩ := Option.map_eq_some_iff.mp hstep
      obtain ⟨-, heq⟩ := Option.ite_none_right_eq_some.mp hresume
      apply h.setConnection
      intro error hended
      cases heq
      cases ok with
      | true => cases hended
      | false =>
          cases hended
          exact .inr rfl
  | resumeInbound ok write =>
      obtain ⟨flow, hflow, rfl⟩ := Option.map_eq_some_iff.mp hstep
      refine h.setFlow (h.flow.step (fun packet claim write' heq => ?_) hflow)
      cases heq
  | call action =>
      obtain ⟨-, hcall⟩ := Option.ite_none_right_eq_some.mp hstep
      obtain ⟨connection, -, rfl⟩ := Option.map_eq_some_iff.mp hcall
      exact ⟨h.leaves, h.flow, h.pings⟩
  | inbound action =>
      obtain ⟨hother, hinbound⟩ := Option.ite_none_right_eq_some.mp hstep
      obtain ⟨flow, hflow, rfl⟩ := Option.map_eq_some_iff.mp hinbound
      refine ⟨h.leaves, h.flow.step (fun packet claim write heq => ?_) hflow, h.pings⟩
      subst heq
      cases hother
  | ping action =>
      obtain ⟨hcalls, hping⟩ := Option.ite_none_right_eq_some.mp hstep
      obtain ⟨pings, hpings, rfl⟩ := Option.map_eq_some_iff.mp hping
      refine Sound.setPings h.leaves h.flow fun c hkeepalive hlost => ?_
      rcases hlost.of_step hcalls hpings with hlost | ⟨rfl, hwaiters⟩
      · exact h.pings c hkeepalive hlost
      · have hwaits : s.pings.waiters.contains c = true := by simpa [regular, hkeepalive] using hok
        rw [hwaiters] at hwaits
        cases hwaits
  | keepalive write =>
      simp only at hstep
      split at hstep
      · cases hstep
        refine Sound.setPings h.leaves h.flow fun c hkeepalive hlost => ?_
        obtain ⟨call, hcall, -⟩ := hlost.of_ping
        cases hkeepalive
        rw [List.getElem?_eq_none (Nat.le_refl _)] at hcall
        cases hcall
      · cases hstep

/-! ### Steps that are not regular -/

/-- `connect` or `run` has been left with an exception that is no `MQTTError`. -/
def Misreported (s : Session) : Prop :=
  ∃ escape, s.phase = .left escape ∧ escape.fromBytes = true ∧ escape.errorClass = none

theorem Misreported.not_leavesAs (h : s.Misreported) : ¬s.LeavesAs errorClass := by
  obtain ⟨escape, hphase, hbytes, hnone⟩ := h
  intro hleaves
  rw [hleaves escape hphase hbytes] at hnone
  cases hnone

/-- A CONNACK with a Maximum QoS that is none. -/
theorem acceptConnack_misreported {packet : ConnAck} {properties : ConnAckProperties}
    (hzero : packet.returnCode = 0) (hversion : s.buffer.version = .v5)
    (hsome : packet.properties = some properties)
    (hqos : ¬∃ qos, maxPublishQos properties = .ok qos) :
    (s.acceptConnack (.connack packet)).Misreported := by
  simp only [acceptConnack]
  rw [if_neg (not_not.mpr hzero), hversion, hsome]
  cases hmax : maxPublishQos properties with
  | ok qos => exact absurd ⟨qos, hmax⟩ hqos
  | error e => exact ⟨.codec e, by simp [hmax, leave], rfl, rfl⟩

/-- A second SUBACK or UNSUBACK for the future. -/
theorem setConnection_misreported {connection : Connection}
    (h : connection.reader = .ended (some .invalidState)) :
    (s.setConnection connection).Misreported := by
  unfold setConnection
  split
  · rename_i error hreader
    rw [h] at hreader
    cases hreader
    exact ⟨_, rfl, rfl, rfl⟩
  · rename_i hother
    exact absurd h (hother _)

theorem setPings_misreported {pings : PingConnection} {c : Nat} (hkeepalive : s.keepalive = some c)
    (h : pings.Lost c) : (s.setPings pings).Misreported := by
  obtain ⟨call, hcall, hphase⟩ := h
  unfold setPings
  rw [hkeepalive, Option.bind_some, hcall, Option.map_some, hphase]
  exact ⟨_, rfl, rfl, rfl⟩

theorem round_misreported {claim : Option Nat} {write : WriteOutcome} (hidle : s.idle = true)
    (hok : s.regular (.next claim write) = false) (hnext : s.next claim write = some next) :
    next.Misreported := by
  obtain ⟨⟨-, hreader⟩, -⟩ : (s.connection.dead = false ∧ s.connection.reader = .idle) ∧
      s.flow.readerIdle = true := by simpa [idle] using hidle
  have hanswer : ∀ (kind : RequestKind) (packetId : Int) (answer : Packet) (unknown : String),
      s.unanswered kind packetId = false →
        (s.connection.handleAnswer kind packetId answer unknown).reader =
          .ended (some .invalidState) := by
    intro kind packetId answer unknown hfalse
    by_contra hvalid
    rw [(handleAnswer_unanswered hreader).mpr hvalid] at hfalse
    cases hfalse
  unfold Session.next at hnext
  unfold regular at hok
  cases hfront : s.front with
  | error e =>
      simp only [hfront] at hok hnext
      cases hnext
      cases e with
      | packetTooLarge size limit => cases hok
      | _ => exact ⟨_, rfl, rfl, rfl⟩
  | ok found =>
      cases found with
      | none =>
          simp only [hfront] at hnext
          cases hnext
      | some found =>
          obtain ⟨packet, consumed⟩ := found
          simp only [hfront] at hok hnext
          cases hphase : s.phase with
          | connecting =>
              simp only [hphase] at hok hnext
              cases packet with
              | connack packet =>
                  simp only [Bool.or_eq_false_iff, decide_eq_false_iff_not, not_not] at hok
                  obtain ⟨⟨hzero, hversion⟩, hproperties⟩ := hok
                  cases hsome : packet.properties with
                  | none =>
                      rw [hsome] at hproperties
                      cases hproperties
                  | some properties =>
                      rw [hsome, Option.all_some] at hproperties
                      cases hnext
                      refine acceptConnack_misreported hzero hversion hsome fun hqos => ?_
                      rw [maxPublishQos_ok, hproperties] at hqos
                      cases hqos
              | _ => cases hok
          | running =>
              simp only [hphase] at hok hnext
              cases packet with
              | suback packet =>
                  obtain ⟨connection, hstep, rfl⟩ := Option.map_eq_some_iff.mp hnext
                  obtain ⟨-, heq⟩ := Option.ite_none_right_eq_some.mp hstep
                  cases heq
                  exact setConnection_misreported (hanswer .subscribe _ _ _ hok)
              | unsuback packet =>
                  obtain ⟨connection, hstep, rfl⟩ := Option.map_eq_some_iff.mp hnext
                  obtain ⟨-, heq⟩ := Option.ite_none_right_eq_some.mp hstep
                  cases heq
                  exact setConnection_misreported (hanswer .unsubscribe _ _ _ hok)
              | _ => cases hok
          | left escape =>
              simp only [hphase] at hnext
              cases hnext

/-- **One step that is not regular.** -/
theorem step_misreported (hok : s.regular action = false) (hstep : s.step action = some next) :
    next.Misreported := by
  obtain ⟨-, hstep⟩ := Option.ite_none_right_eq_some.mp hstep
  cases action with
  | next claim write =>
      obtain ⟨hidle, hnext⟩ := Option.ite_none_right_eq_some.mp hstep
      exact round_misreported hidle hok hnext
  | ping action =>
      obtain ⟨-, hping⟩ := Option.ite_none_right_eq_some.mp hstep
      obtain ⟨pings, hpings, rfl⟩ := Option.map_eq_some_iff.mp hping
      cases action with
      | timeout c =>
          obtain ⟨hkeepalive, hwaiters⟩ : s.keepalive = some c ∧ s.pings.waiters.contains c = false := by
            simpa [regular] using hok
          exact setPings_misreported hkeepalive (PingConnection.lost_of_timeout hwaiters hpings)
      | _ => cases hok
  | _ => cases hok

end Session

open Session

/-- **Which inbound bytes end a session with the `MQTTError` that is due.**  Whatever the broker
sends and whatever calls, tasks and pings do meanwhile, every exception that the bytes cause is
an `MQTTError` of the class that is due to its cause exactly when every packet read decodes or
is too large, the CONNACK has a valid Maximum QoS, no SUBACK or UNSUBACK is a second answer, and
no keepalive ping runs out of time after a PINGRESP has taken its future. -/
theorem inbound_errors_reported (version : Version) (maximumPacketSize : Option Int)
    (config : InboundPublishFlow.Config) (actions : List SessionAction) (s : Session)
    (hrun : Transition.run step (start version maximumPacketSize config) actions = some s) :
    Transition.Along step Reports (start version maximumPacketSize config) actions ↔
      Transition.Along step (fun s action => s.regular action = true)
        (start version maximumPacketSize config) actions := by
  constructor
  · intro hreports
    refine hreports.imp (I := fun _ => True) (fun s action next _ hreports hstep => ?_) trivial hrun
    refine ⟨?_, trivial⟩
    by_contra hirregular
    exact (step_misreported (Bool.eq_false_iff.mpr hirregular) hstep).not_leavesAs
      (hreports next hstep)
  · intro hregular
    refine hregular.imp (I := fun s => ∃ errorClass, s.Sound errorClass) ?_
      ⟨.protocolError, sound_start _ _ _⟩ hrun
    rintro s action next ⟨errorClass, hs⟩ hok hstep
    exact ⟨fun next hstep => (hs.step hok hstep).leaves, _, hs.step hok hstep⟩

/-- A CONNACK with a Maximum QoS of 1, a PUBLISH with QoS 1 and a DISCONNECT. -/
def sampleSession : List SessionAction :=
  [.read [0x20, 0x05, 0x00, 0x00, 0x02, 0x24, 0x01], .next none .done,
    .read [0x32, 0x06, 0x00, 0x01, 0x74, 0x00, 0x07, 0x00, 0xE0, 0x00], .next none .done,
    .next none .done]

theorem inbound_errors_reported_disconnect :
    ∃ s, Transition.run step (start .v5 (some 64) {}) sampleSession = some s ∧
      s.isOpen = false ∧
      Transition.Along step Reports (start .v5 (some 64) {}) sampleSession := by
  have hrun : (Transition.run step (start .v5 (some 64) {}) sampleSession).any
      (fun s => !s.isOpen) = true := by decide +kernel
  obtain ⟨s, hs, hclosed⟩ := (Option.any_eq_true _ _).mp hrun
  refine ⟨s, hs, by simpa using hclosed, ?_⟩
  exact (inbound_errors_reported .v5 (some 64) {} sampleSession s hs).mpr (by decide +kernel)

/-- A PUBLISH with QoS 3 after the CONNACK: `run` ends with a `ValueError`. -/
theorem inbound_errors_not_reported :
    ¬∀ (version : Version) (maximumPacketSize : Option Int) (config : InboundPublishFlow.Config)
        (actions : List SessionAction) (s : Session),
      Transition.run step (start version maximumPacketSize config) actions = some s →
        ∀ action, s.Reports action := by
  intro h
  have hrun : (Transition.run step (start .v311 none {})
      [.read [0x20, 0x02, 0x00, 0x00], .next none .done,
        .read [0x36, 0x05, 0x00, 0x01, 0x74, 0x00, 0x07]]).any
      (fun s => (s.step (.next none .done)).any fun next =>
        match next.phase with
        | .left (.codec _) => true
        | _ => false) = true := by decide +kernel
  obtain ⟨s, hs, hnext⟩ := (Option.any_eq_true _ _).mp hrun
  obtain ⟨next, hstep, hphase⟩ := (Option.any_eq_true _ _).mp hnext
  have hleaves := h .v311 none {} _ s hs (.next none .done) next hstep
  split at hphase
  · rename_i error hleft
    cases hleaves (.codec error) hleft rfl
  · cases hphase

end Zmqtt
