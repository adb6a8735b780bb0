import Zmqtt.InboundRules
import Zmqtt.PingWaiters
import Zmqtt.Reencode

/-!
# The exceptions of the packet handlers

What the handlers of `run` can raise for a packet that has been decoded.  `decode` gives
every PUBLISH with a flow an identifier, and an identifier of two bytes to every PUBREC, so
neither the checks of the inbound flow nor the encoding of a PUBREL fail.  What is left are
protocol errors, exceptions of the transport, the `InvalidStateError` of a second SUBACK or
UNSUBACK, and the `ValueError` of a ping whose time is over after a PINGRESP took its future.
-/

namespace Zmqtt

/-- `MQTTConnectError`, `MQTTProtocolError`, `MQTTDisconnectedError` and `MQTTTimeoutError`: the
subclasses of `MQTTError` that leave `connect` or `run`. -/
inductive ErrorClass
  | connectError
  | protocolError
  | disconnectedError
  | timeoutError
deriving DecidableEq, Repr

/-- The class of an exception of a handler, if it is one of these. -/
def MqttError.errorClass : MqttError → Option ErrorClass
  | .protocolError _ => some .protocolError
  | .disconnected => some .disconnectedError
  | _ => none

/-- What a packet is reported as that `run` does not take. -/
def Packet.errorClass : Packet → ErrorClass
  | .disconnect _ => .disconnectedError
  | _ => .protocolError

/-! ## Decoded packets -/

/-- What the handlers rely on: a PUBLISH with a flow has an identifier, and that of a PUBREC
fits in a PUBREL. -/
def Packet.Identified : Packet → Prop
  | .publish packet => packet.qos ≠ .atMostOnce → packet.packetId.isSome
  | .pubrec packet => ∃ k : Nat, k < 65536 ∧ packet.packetId = k
  | _ => True

/-- A decoded PUBLISH above QoS 0 has an identifier. -/
theorem decodePublish_identified {body : Bytes} {flags : Nat} {version : Version}
    {packet : Publish} (h : decodePublish body flags version = .ok packet) :
    (Packet.publish packet).Identified := by
  intro hqos
  unfold decodePublish at h
  obtain ⟨qos, -, h⟩ := bind_eq_ok.mp h
  obtain ⟨⟨topic, pos⟩, -, h⟩ := bind_eq_ok.mp h
  obtain ⟨⟨packetId, pos'⟩, hid, h⟩ := bind_eq_ok.mp h
  obtain ⟨⟨properties, n⟩, -, h⟩ := bind_eq_ok.mp h
  cases h
  rw [if_pos hqos] at hid
  split at hid
  · cases hid
  · obtain ⟨k, -, hid⟩ := bind_eq_ok.mp hid
    cases hid
    rfl

/-- A decoded identifier has two bytes. -/
theorem decodePubAckVariant_lt {body : Bytes} {version : Version} {packet : PubReply}
    (h : decodePubAckVariant body version = .ok packet) :
    ∃ k : Nat, k < 65536 ∧ packet.packetId = k := by
  unfold decodePubAckVariant at h
  split at h
  · cases h
  obtain ⟨packetId, hid, h⟩ := bind_eq_ok.mp h
  split at h
  · obtain ⟨code, -, h⟩ := bind_eq_ok.mp h
    obtain ⟨⟨properties, n⟩, -, h⟩ := bind_eq_ok.mp h
    cases h
    exact ⟨packetId, unpackH_lt hid, rfl⟩
  · cases h
    exact ⟨packetId, unpackH_lt hid, rfl⟩

/-- What the codec returns has the identifiers that the handlers rely on. -/
theorem decode_identified {buffer : Bytes} {version : Version} {limit : Option Int}
    {packet : Packet} {n : Nat} (h : decode buffer version limit = .ok (some (packet, n))) :
    packet.Identified := by
  obtain ⟨remainingLength, varintBytes, packetType, flags, -, hbody⟩ := decode_some_body h
  cases packetType with
  | publish =>
      obtain ⟨packet, hpacket, rfl⟩ := map_eq_ok hbody
      exact decodePublish_identified hpacket
  | pubrec =>
      obtain ⟨packet, hpacket, rfl⟩ := map_eq_ok hbody
      exact decodePubAckVariant_lt hpacket
  | pingreq =>
      cases hbody
      trivial
  | pingresp =>
      cases hbody
      trivial
  | _ =>
      obtain ⟨packet, -, rfl⟩ := map_eq_ok hbody
      trivial

/-- The PUBREL for an identifier of two bytes encodes. -/
theorem encodes_pubrel {k : Nat} (hk : k < 65536) (version : Version) :
    Encodes (encode (.pubrel { packetId := k }) version) := by
  simp only [encode, encodePubAckVariant]
  rw [if_neg (by simp)]
  apply (fits_packH hk).encodes_bind
  intro idBytes hidBytes
  apply encodes_buildPacket (by decide)
  omega

/-! ## The handlers of the outgoing half -/

namespace Connection

/-- How the read loop stands after a SUBACK or UNSUBACK. -/
theorem handleAnswer_reader (s : Connection) (kind : RequestKind) (packetId : Int)
    (packet : Packet) (unknown : String) :
    (s.handleAnswer kind packetId packet unknown).reader =
      match OrderedDict.get (s.state.pending kind) packetId.toNat with
      | none => .ended (some (.protocolError unknown))
      | some future =>
          if s.answerFutures[future]? = some .pending then s.reader
          else .ended (some .invalidState) := by
  simp only [handleAnswer]
  cases OrderedDict.get (s.state.pending kind) packetId.toNat with
  | none => rfl
  | some future =>
      simp only
      split <;> rfl

/-- A PUBREC that fits in a PUBREL ends the read loop with a protocol error or with that of
the write. -/
theorem handlePubrec_reader {s : Connection} {packet : PubReply} {write : WriteOutcome}
    {error : MqttError} (hpacket : (Packet.pubrec packet).Identified) (hidle : s.reader = .idle)
    (h : (s.handlePubrec packet write).reader = .ended (some error)) :
    error.errorClass = some .protocolError ∨ error = .transport := by
  obtain ⟨k, hk, hid⟩ := hpacket
  obtain ⟨bytes, hencodes⟩ := encodes_pubrel hk s.version
  have hkeeps : s.reader ≠ .ended (some error) := by
    rw [hidle]
    exact fun heq => nomatch heq
  unfold handlePubrec at h
  split at h
  · cases h
    exact .inl rfl
  · split at h
    · cases h
      exact .inl rfl
    · split at h
      · exact absurd h hkeeps
      · rw [← hid] at hencodes
        simp only [hencodes] at h
        cases write with
        | failed =>
            cases h
            exact .inr rfl
        | suspended => cases h
        | done => exact absurd h hkeeps

/-- The exceptions of `_dispatch`, when a SUBACK or UNSUBACK finds its future pending: the class
is that of the packet. -/
theorem dispatch_ended {s : Connection} {packet : Packet} {write : WriteOutcome}
    {error : MqttError} (hpacket : packet.Identified) (hidle : s.reader = .idle)
    (hsuback : ∀ suback, packet = .suback suback →
      (s.handleSuback suback).reader ≠ .ended (some .invalidState))
    (hunsuback : ∀ unsuback, packet = .unsuback unsuback →
      (s.handleUnsuback unsuback).reader ≠ .ended (some .invalidState))
    (h : (s.dispatch packet write).reader = .ended (some error)) :
    error.errorClass = some packet.errorClass ∨ error = .transport := by
  have hkeeps : s.reader ≠ .ended (some error) := by
    rw [hidle]
    exact fun heq => nomatch heq
  have hreply : ∀ (kind : RequestKind) (packetId : Int) (unknown : String),
      (s.handleAnswer kind packetId packet unknown).reader ≠ .ended (some .invalidState) →
      (s.handleAnswer kind packetId packet unknown).reader = .ended (some error) →
        error.errorClass = some .protocolError ∨ error = .transport := by
    intro kind packetId unknown hvalid hended
    rw [handleAnswer_reader] at hvalid hended
    cases hfuture : OrderedDict.get (s.state.pending kind) packetId.toNat with
    | none =>
        simp only [hfuture] at hended
        cases hended
        exact .inl rfl
    | some future =>
        simp only [hfuture] at hvalid hended
        split at hended
        · exact absurd hended hkeeps
        · rename_i hdone
          exact absurd (if_neg hdone) hvalid
  cases packet with
  | publish packet => exact absurd h hkeeps
  | pubrel packet => exact absurd h hkeeps
  | pingresp => exact absurd h hkeeps
  | puback packet =>
      simp only [dispatch, handlePuback] at h
      split at h
      · cases h
        exact .inl rfl
      · exact absurd h hkeeps
  | pubrec packet => exact handlePubrec_reader hpacket hidle h
  | pubcomp packet =>
      simp only [dispatch, handlePubcomp] at h
      split at h
      · cases h
        exact .inl rfl
      · exact absurd h hkeeps
  | suback packet => exact hreply .subscribe packet.packetId _ (hsuback packet rfl) h
  | unsuback packet => exact hreply .unsubscribe packet.packetId _ (hunsuback packet rfl) h
  | auth packet =>
      simp only [dispatch] at h
      split at h
      · exact absurd h hkeeps
      · cases h
        exact .inl rfl
  | _ =>
      cases h
      exact .inl rfl

end Connection

/-! ## The handlers of the inbound flow -/

/-- A protocol error, or an exception of the transport. -/
def InboundError.expected : InboundError → Bool
  | .protocolError _ => true
  | .interrupted => true
  | _ => false

/-- A task raises one of these, or nothing. -/
def Frame.expected : Frame → Bool
  | .raised error => error.expected
  | _ => true

namespace InboundPublishFlow

/-- The read loop stands where it stood. -/
structure SameReader (s t : InboundPublishFlow) : Prop where
  ended : t.ended = s.ended
  frame : OrderedDict.get t.frames .reader = OrderedDict.get s.frames .reader

variable {s t u : InboundPublishFlow} {frame : Frame}

theorem SameReader.trans (h : SameReader s t) (h' : SameReader t u) : SameReader s u :=
  ⟨h'.ended.trans h.ended, h'.frame.trans h.frame⟩

/-- A write raises an exception of the transport only. -/
theorem sent_expected (write : WriteOutcome) (next : Option InboundRecipient) :
    (sent write next).expected = true := by
  cases write with
  | failed => rfl
  | suspended => rfl
  | done => cases next <;> rfl

/-- After a delivery nothing is raised. -/
theorem afterDelivery_expected (seq : Nat) (puback : Option Int) :
    (afterDelivery seq puback).expected = true := by
  cases puback <;> rfl

theorem advance_sameReader (write : WriteOutcome) (s : InboundPublishFlow) (frame : Frame) :
    SameReader s (advance write (s, frame)).1 := by
  obtain ⟨unacknowledged, queued, log, heq⟩ := advance_frame write s frame
  rw [heq]
  exact ⟨rfl, rfl⟩

/-- A call of a task raises what was raised before, or a known error. -/
theorem advance_expected (write : WriteOutcome) (s : InboundPublishFlow)
    (h : frame.expected = true) : (advance write (s, frame)).2.expected = true := by
  cases frame with
  | delivering recipient ackCallback puback =>
      simp only [advance, deliver]
      split
      · exact afterDelivery_expected _ _
      · exact afterDelivery_expected _ _
      · split <;> rfl
  | putting recipient entry ackCallback puback =>
      simp only [advance, finishPut]
      split
      · rfl
      · split
        · rfl
        · exact afterDelivery_expected _ _
  | completing seq packetId => exact sent_expected write none
  | _ => exact h

theorem settle_sameReader (write : WriteOutcome) (x : InboundPublishFlow × Frame) :
    SameReader x.1 (settle write x).1 :=
  ((advance_sameReader write x.1 x.2).trans (advance_sameReader write _ _)).trans
    (advance_sameReader write _ _)

theorem settle_expected (write : WriteOutcome) {x : InboundPublishFlow × Frame}
    (h : x.2.expected = true) : (settle write x).2.expected = true :=
  advance_expected write _ (advance_expected write _ (advance_expected write x.1 h))

theorem deliverReplay_sameReader (s : InboundPublishFlow) (received : Received)
    (recipient : InboundRecipient) (write : WriteOutcome) :
    SameReader s (s.deliverReplay received recipient write).1 := by
  simp only [deliverReplay, deliverQos1Publish, acceptQos2Publish]
  split
  · exact ⟨rfl, rfl⟩
  · split
    · exact ⟨rfl, rfl⟩
    · split <;> exact ⟨rfl, rfl⟩
  · split
    · exact ⟨rfl, rfl⟩
    · exact ⟨rfl, rfl⟩
    · split <;> exact ⟨rfl, rfl⟩

/-- The delivery of a message with its identifier raises what a write raises. -/
theorem deliverReplay_expected {received : Received} (recipient : InboundRecipient)
    (write : WriteOutcome) (hpacket : (Packet.publish received.publish).Identified) :
    (s.deliverReplay received recipient write).2.expected = true := by
  simp only [deliverReplay, deliverQos1Publish, acceptQos2Publish]
  cases hqos : received.publish.qos with
  | atMostOnce => rfl
  | atLeastOnce =>
      obtain ⟨pid, hpid⟩ := Option.isSome_iff_exists.mp (hpacket (by rw [hqos]; decide))
      simp only [hpid]
      split <;> rfl
  | exactlyOnce =>
      obtain ⟨pid, hpid⟩ := Option.isSome_iff_exists.mp (hpacket (by rw [hqos]; decide))
      simp only [hpid]
      split
      · contradiction
      · rfl
      · split
        · exact sent_expected write none
        · rfl

/-- A held message leaves the read loop as it is. -/
theorem hold_sameReader (s : InboundPublishFlow) (b : Nat) (buffer : ReplayBuffer)
    (received : Received) : SameReader s (s.hold b buffer received).1 := by
  unfold hold
  split
  · exact ⟨rfl, rfl⟩
  · split <;> exact ⟨rfl, rfl⟩

/-- A full buffer raises a protocol error. -/
theorem hold_expected {b : Nat} {buffer : ReplayBuffer} {received : Received}
    {error : InboundError} (h : (s.hold b buffer received).2 = .raised error) :
    error.expected = true := by
  unfold hold at h
  split at h
  · cases h
  · split at h
    · cases h
      rfl
    · cases h

theorem selectRecipientOrBuffer_sameReader (s : InboundPublishFlow) (received : Received)
    (claim : Option Nat) : SameReader s (s.selectRecipientOrBuffer received claim).1 := by
  rcases s.selectRecipientOrBuffer_cases received claim with
    ⟨-, h⟩ | ⟨-, -, -, h⟩ | ⟨b, -, h⟩ | ⟨-, h⟩
  · rw [h]
    exact ⟨rfl, rfl⟩
  · rw [h]
    exact ⟨rfl, rfl⟩
  · rw [h]
    exact hold_sameReader s b _ received
  · rw [h]
    have hbuffer : SameReader s (s.setReplay s.replay.addBuffer) := ⟨rfl, rfl⟩
    exact hbuffer.trans (hold_sameReader _ _ _ received)

/-- The look-up of a recipient raises no other error. -/
theorem selectRecipientOrBuffer_expected {received : Received} {claim : Option Nat}
    {error : InboundError} (h : (s.selectRecipientOrBuffer received claim).2 = .raised error) :
    error.expected = true := by
  rcases s.selectRecipientOrBuffer_cases received claim with
    ⟨-, hcase⟩ | ⟨-, -, -, hcase⟩ | ⟨b, -, hcase⟩ | ⟨-, hcase⟩
  · rw [hcase] at h
    cases h
  · rw [hcase] at h
    cases h
  · rw [hcase] at h
    exact hold_expected h
  · rw [hcase] at h
    exact hold_expected h

theorem route_sameReader (s : InboundPublishFlow) (received : Received) (claim : Option Nat)
    (write : WriteOutcome) : SameReader s (s.route received claim write).1 := by
  have hselect := selectRecipientOrBuffer_sameReader s received claim
  unfold route
  generalize s.selectRecipientOrBuffer received claim = x at hselect ⊢
  obtain ⟨t, recipient | - | error⟩ := x
  · exact hselect.trans (deliverReplay_sameReader t received recipient write)
  · exact hselect
  · exact hselect

/-- A PUBLISH with its identifier is routed without another error than these. -/
theorem route_expected {received : Received} (claim : Option Nat) (write : WriteOutcome)
    (hpacket : (Packet.publish received.publish).Identified) :
    (s.route received claim write).2.expected = true := by
  have hselect : ∀ error, (s.selectRecipientOrBuffer received claim).2 = .raised error →
      error.expected = true := fun error h => selectRecipientOrBuffer_expected h
  unfold route
  generalize s.selectRecipientOrBuffer received claim = x at hselect ⊢
  obtain ⟨t, recipient | - | error⟩ := x
  · exact deliverReplay_expected recipient write hpacket
  · rfl
  · exact hselect error rfl

theorem handlePublish_sameReader (s : InboundPublishFlow) (packet : Publish)
    (claim : Option Nat) (write : WriteOutcome) :
    SameReader s (s.handlePublish packet claim write).1 := by
  have harrived : SameReader s (s.arrived packet) := by
    rw [arrived_frame]
    exact ⟨rfl, rfl⟩
  have hemit : ∀ event, SameReader s ((s.arrived packet).emit event) := fun event =>
    ⟨harrived.ended, harrived.frame⟩
  rcases s.handlePublish_cases packet claim write with
    ⟨-, -, h⟩ | ⟨-, msg, h⟩ | ⟨-, -, h⟩ | ⟨-, -, pid, flight, -, -, h⟩ | ⟨-, -, -, h⟩
  · rw [h]
    exact harrived
  · rw [h]
    exact hemit _
  · rw [h]
    exact harrived
  · rw [h]
    exact hemit _
  · rw [h]
    exact harrived.trans (route_sameReader _ _ claim write)

/-- A PUBLISH with an identifier raises a protocol error at most, up to its first write. -/
theorem handlePublish_expected {packet : Publish} (claim : Option Nat) (write : WriteOutcome)
    (hpacket : (Packet.publish packet).Identified) :
    (s.handlePublish packet claim write).2.expected = true := by
  rcases s.handlePublish_cases packet claim write with
    ⟨hqos, hnone, -⟩ | ⟨-, msg, h⟩ | ⟨-, -, h⟩ | ⟨-, -, pid, flight, -, -, h⟩ | ⟨-, -, -, h⟩
  · have hsome := hpacket hqos
    rw [hnone] at hsome
    cases hsome
  · rw [h]
    rfl
  · rw [h]
    rfl
  · rw [h]
    exact sent_expected write none
  · rw [h]
    exact route_expected claim write hpacket

theorem handlePubrel_sameReader (s : InboundPublishFlow) (packet : PubReply)
    (write : WriteOutcome) : SameReader s (s.handlePubrel packet write).1 := by
  simp only [handlePubrel]
  split <;> exact ⟨rfl, rfl⟩

/-- A PUBREL raises what a write raises. -/
theorem handlePubrel_expected (s : InboundPublishFlow) (packet : PubReply)
    (write : WriteOutcome) : (s.handlePubrel packet write).2.expected = true := by
  simp only [handlePubrel]
  split <;> exact sent_expected write _

/-- A task that goes on raises nothing new. -/
theorem resumed_expected (ok : Bool) (h : frame.expected = true) :
    (resumed frame ok).expected = true := by
  unfold resumed
  cases ok with
  | false => rfl
  | true =>
      cases frame with
      | sending next => cases next <;> rfl
      | _ => exact h

/-! ### The other steps -/

theorem raiseFromTask_sameReader (s : InboundPublishFlow) (t : Nat) (task : ReplayTask)
    (unmatched pending : List Received) :
    SameReader s (s.raiseFromTask t task unmatched pending) := by
  simp only [raiseFromTask]
  split
  · split <;> exact ⟨rfl, rfl⟩
  · exact ⟨rfl, rfl⟩

theorem storeTask_sameReader (t : Nat) (task : ReplayTask) (unmatched pending : List Received)
    (current : Received) (x : InboundPublishFlow × Frame) :
    SameReader x.1 (storeTask t task unmatched pending current x) := by
  obtain ⟨s, frame⟩ := x
  have hstored : SameReader s { s with frames := OrderedDict.set s.frames (.task t) frame } := by
    refine ⟨rfl, ?_⟩
    simp only [OrderedDict.get_set]
    rw [if_neg (fun h => by cases h)]
  cases frame with
  | returned =>
      simp only [storeTask]
      split
      · have hreplay : ∀ replay, SameReader s (s.setReplay replay) := fun replay => ⟨rfl, rfl⟩
        exact (hreplay _).trans (raiseFromTask_sameReader _ _ _ _ _)
      · exact ⟨rfl, rfl⟩
  | raised error => exact raiseFromTask_sameReader _ _ _ _ _
  | _ => exact hstored

theorem deliverNext_sameReader {t : Nat} {task : ReplayTask} {claim : Option Nat}
    {write : WriteOutcome} {next : InboundPublishFlow}
    (h : s.deliverNext t task claim write = some next) : SameReader s next := by
  rcases deliverNext_cases h with ⟨unmatched, -, -, -, rfl⟩ | ⟨unmatched, -, -, -, rfl⟩ |
    ⟨unmatched, -, rfl⟩ | ⟨unmatched, received, pending, -, rfl⟩ |
    ⟨unmatched, received, pending, -, -, rfl⟩
  · exact ⟨rfl, rfl⟩
  · simp only [finishDrain]
    split <;> exact ⟨rfl, rfl⟩
  · exact ⟨rfl, rfl⟩
  · exact ⟨rfl, rfl⟩
  · have hreplay : ∀ replay, SameReader s (s.setReplay replay) := fun replay => ⟨rfl, rfl⟩
    have hdelivered := (hreplay _).trans
      (deliverReplay_sameReader (s.setReplay (s.replay.setPhase t
        (.delivering unmatched pending received))) received (s.selectRecipient received claim) write)
    exact (hdelivered.trans (settle_sameReader write _)).trans
      (storeTask_sameReader t task unmatched pending received _)

theorem resumeTask_sameReader {t : Nat} {task : ReplayTask} {ok : Bool} {write : WriteOutcome}
    {next : InboundPublishFlow} (h : s.resumeTask t task ok write = some next) :
    SameReader s next := by
  unfold resumeTask at h
  split at h
  · split at h
    · cases h
      exact ⟨rfl, rfl⟩
    · cases h
  · obtain ⟨frame, -, heq⟩ := Option.map_eq_some_iff.mp h
    cases heq
    have hpop : SameReader s { s with frames := OrderedDict.pop s.frames (.task t) } := by
      refine ⟨rfl, ?_⟩
      simp only [OrderedDict.get_pop]
      rw [if_neg (fun h => by cases h)]
    exact (hpop.trans (settle_sameReader write (_, _))).trans (storeTask_sameReader t task _ _ _ _)
  · cases h

/-- `ack()` leaves the read loop as it is. -/
theorem ack_sameReader (s : InboundPublishFlow) (i : Nat) (message : Message) :
    SameReader s (s.ack i message) := by
  unfold ack
  split
  · exact ⟨rfl, rfl⟩
  · split
    · exact ⟨rfl, rfl⟩
    · simp only
      split <;> exact ⟨rfl, rfl⟩
    · exact ⟨rfl, rfl⟩

/-- The read loop has not ended, and is not about to end, with any other exception. -/
structure Expected (s : InboundPublishFlow) : Prop where
  ended : ∀ error, s.ended = some error → error.expected = true
  frame : ∀ frame, OrderedDict.get s.frames .reader = some frame → frame.expected = true

/-- Steps outside of the read loop keep its errors. -/
theorem Expected.of_sameReader (h : s.Expected) (hsame : SameReader s t) : t.Expected := by
  refine ⟨fun error herror => h.ended error ?_, fun frame hframe => h.frame frame ?_⟩
  · rw [← hsame.ended, herror]
  · rw [← hsame.frame, hframe]

/-- The read loop stores what it raised. -/
theorem Expected.storeReader {x : InboundPublishFlow × Frame} (h : x.1.Expected)
    (hframe : x.2.expected = true) : (storeReader x).Expected := by
  obtain ⟨s, frame⟩ := x
  have hstored : ∀ frame : Frame, frame.expected = true →
      Expected { s with frames := OrderedDict.set s.frames .reader frame } := by
    intro frame hframe
    refine ⟨h.ended, fun other hother => ?_⟩
    simp only [OrderedDict.get_set] at hother
    cases hother
    exact hframe
  cases frame with
  | returned => exact h
  | raised error =>
      refine ⟨fun other hother => ?_, h.frame⟩
      cases hother
      exact hframe
  | _ => exact hstored _ hframe

/-- **One step of the inbound flow.** -/
theorem Expected.step {action : Action} (h : s.Expected)
    (hpacket : ∀ packet claim write, action = .publish packet claim write →
      (Packet.publish packet).Identified)
    (hstep : s.step action = some t) : t.Expected := by
  cases action with
  | publish packet claim write =>
      obtain ⟨-, heq⟩ := Option.ite_none_right_eq_some.mp hstep
      cases heq
      apply Expected.storeReader
      · exact h.of_sameReader ((handlePublish_sameReader s packet claim write).trans
          (settle_sameReader write _))
      · exact settle_expected write
          (handlePublish_expected claim write (hpacket packet claim write rfl))
  | pubrel packet write =>
      obtain ⟨-, heq⟩ := Option.ite_none_right_eq_some.mp hstep
      cases heq
      apply Expected.storeReader
      · exact h.of_sameReader ((handlePubrel_sameReader s packet write).trans
          (settle_sameReader write _))
      · exact settle_expected write (handlePubrel_expected s packet write)
  | resumeReader ok write =>
      obtain ⟨frame, hframe, heq⟩ := Option.map_eq_some_iff.mp hstep
      cases heq
      have hpop : Expected { s with frames := OrderedDict.pop s.frames .reader } := by
        refine ⟨h.ended, fun other hother => ?_⟩
        simp only [OrderedDict.get_pop] at hother
        cases hother
      apply Expected.storeReader
      · exact hpop.of_sameReader (settle_sameReader write (_, _))
      · exact settle_expected write (resumed_expected ok (h.frame frame hframe))
  | get queue =>
      obtain ⟨found, -, heq⟩ := Option.map_eq_some_iff.mp hstep
      cases heq
      exact h.of_sameReader ⟨rfl, rfl⟩
  | ack i =>
      obtain ⟨message, -, heq⟩ := Option.map_eq_some_iff.mp hstep
      cases heq
      exact h.of_sameReader (ack_sameReader s i message)
  | index op =>
      cases hstep
      exact h.of_sameReader ⟨rfl, rfl⟩
  | detach filters queue =>
      cases hstep
      exact h.of_sameReader ⟨rfl, rfl⟩
  | drain =>
      cases hstep
      apply h.of_sameReader
      unfold drain
      split <;> exact ⟨rfl, rfl⟩
  | expireReplay b =>
      simp only [InboundPublishFlow.step, expireReplay] at hstep
      obtain ⟨-, heq⟩ := Option.ite_none_right_eq_some.mp hstep
      split at heq
      · cases heq
        exact h.of_sameReader ⟨rfl, rfl⟩
      · cases heq
        exact h.of_sameReader ⟨rfl, rfl⟩
  | acquireLock i =>
      obtain ⟨task, -, hlock⟩ := Option.bind_eq_some_iff.mp hstep
      obtain ⟨-, heq⟩ := Option.ite_none_right_eq_some.mp hlock
      cases heq
      exact h.of_sameReader ⟨rfl, rfl⟩
  | deliverNext i claim write =>
      obtain ⟨task, -, hnext⟩ := Option.bind_eq_some_iff.mp hstep
      exact h.of_sameReader (deliverNext_sameReader hnext)
  | resumeTask i ok write =>
      obtain ⟨task, -, hnext⟩ := Option.bind_eq_some_iff.mp hstep
      exact h.of_sameReader (resumeTask_sameReader hnext)
  | cancel i =>
      obtain ⟨-, heq⟩ := Option.ite_none_right_eq_some.mp hstep
      cases heq
      exact h.of_sameReader ⟨rfl, rfl⟩
  | clear =>
      cases hstep
      apply h.of_sameReader
      unfold clear
      split <;> exact ⟨rfl, rfl⟩

end InboundPublishFlow

/-! ## Pings -/

/-- The actions of a call of `ping`. -/
def PingConnection.Action.isCall : PingConnection.Action → Bool
  | .answer => false
  | .pingresp => false
  | .cancelPending => false
  | _ => true

/-- `_handle_pingresp`, whatever the broker answers with it. -/
def PingConnection.popWaiter (s : PingConnection) : PingConnection :=
  match s.waiters with
  | [] => s
  | first :: waiters => { s with waiters, calls := s.calls.modify first (settle .answered) }

namespace PingConnection

/-- The call removed a future that was not there. -/
def Lost (s : PingConnection) (c : Nat) : Prop :=
  ∃ call, s.calls[c]? = some call ∧ call.phase = .raised .valueError

variable {s next : PingConnection} {c k : Nat} {call : PingCall}

/-- A call that moves on is lost by its own exception only. -/
theorem Lost.of_setPhase {phase : PingPhase} (hcall : s.calls[c]? = some call)
    (h : (s.setPhase c phase).Lost k) : (k = c ∧ phase = .raised .valueError) ∨ s.Lost k := by
  obtain ⟨other, hother, hphase⟩ := h
  rcases (TaskList.getElem?_modify_iff hcall).mp hother with ⟨rfl, rfl⟩ | ⟨-, hother⟩
  · exact .inl ⟨rfl, hphase⟩
  · exact .inr ⟨other, hother, hphase⟩

/-- A new call is not lost. -/
theorem Lost.of_ping {write : WriteOutcome} (h : (s.ping write).Lost k) : s.Lost k := by
  obtain ⟨other, hother, hphase⟩ := h
  have hnew : ∀ phase : PingPhase, phase ≠ .raised .valueError →
      (s.calls ++ [({ phase } : PingCall)])[k]? = some other → s.Lost k := by
    intro phase hne hother
    rcases TaskList.getElem?_append_iff.mp hother with hother | ⟨-, rfl⟩
    · exact ⟨other, hother, hphase⟩
    · exact absurd hphase hne
  cases write with
  | done => exact hnew .waiting (fun h => nomatch h) hother
  | suspended => exact hnew .sending (fun h => nomatch h) hother
  | failed => exact hnew (.raised .disconnected) (fun h => nomatch h) hother

/-- A waiter that is taken off loses no call. -/
theorem Lost.of_popWaiter (h : s.popWaiter.Lost k) : s.Lost k := by
  unfold popWaiter at h
  split at h
  · exact h
  · obtain ⟨other, hother, hphase⟩ := h
    rw [List.getElem?_modify] at hother
    obtain ⟨call, hcall, heq⟩ := Option.map_eq_some_iff.mp hother
    refine ⟨call, hcall, ?_⟩
    rw [← hphase, ← heq]
    split
    · unfold settle
      split <;> rfl
    · rfl

/-- Only a call whose time is over loses its future. -/
theorem Lost.of_step {action : Action} (hcalls : action.isCall = true)
    (hstep : s.step action = some next) (h : next.Lost k) :
    s.Lost k ∨ (action = .timeout k ∧ s.waiters.contains k = false) := by
  cases action with
  | ping write =>
      cases hstep
      exact .inl h.of_ping
  | sent c ok =>
      obtain ⟨call, hcall, hsent⟩ := Option.bind_eq_some_iff.mp hstep
      unfold sent at hsent
      split at hsent
      · cases hsent
        rcases h.of_setPhase hcall with ⟨-, heq⟩ | h
        · cases ok <;> cases heq
        · exact .inl h
      · cases hsent
  | timeout c =>
      obtain ⟨call, hcall, htimeout⟩ := Option.bind_eq_some_iff.mp hstep
      unfold timeout at htimeout
      split at htimeout
      · split at htimeout
        · cases htimeout
          have h : (s.setPhase c (.raised .timeout)).Lost k := h
          rcases h.of_setPhase hcall with ⟨-, heq⟩ | h
          · cases heq
          · exact .inl h
        · rename_i hwaiters
          cases htimeout
          rcases h.of_setPhase hcall with ⟨rfl, -⟩ | h
          · exact .inr ⟨rfl, by simpa using hwaiters⟩
          · exact .inl h
      · cases htimeout
  | cancel c =>
      obtain ⟨call, hcall, hcancel⟩ := Option.bind_eq_some_iff.mp hstep
      have hset : next = s.setPhase c (.raised .cancelled) := by
        unfold cancel at hcancel
        split at hcancel
        · exact (Option.some.inj hcancel).symm
        · exact (Option.some.inj hcancel).symm
        · cases hcancel
      rw [hset] at h
      rcases h.of_setPhase hcall with ⟨-, heq⟩ | h
      · cases heq
      · exact .inl h
  | wake c =>
      obtain ⟨call, hcall, hwake⟩ := Option.bind_eq_some_iff.mp hstep
      unfold wake at hwake
      split at hwake
      · cases hwake
        rcases h.of_setPhase hcall with ⟨-, heq⟩ | h
        · cases heq
        · exact .inl h
      · cases hwake
        rcases h.of_setPhase hcall with ⟨-, heq⟩ | h
        · cases heq
        · exact .inl h
      · cases hwake
  | answer => cases hcalls
  | pingresp => cases hcalls
  | cancelPending => cases hcalls

/-- A call whose time is over, but whose future a PINGRESP has taken. -/
theorem lost_of_timeout (hwaiters : s.waiters.contains c = false)
    (hstep : s.step (.timeout c) = some next) : next.Lost c := by
  obtain ⟨call, hcall, htimeout⟩ := Option.bind_eq_some_iff.mp hstep
  unfold timeout at htimeout
  split at htimeout
  · rw [if_neg (by simpa using hwaiters)] at htimeout
    cases htimeout
    exact ⟨_, (TaskList.getElem?_modify_iff hcall).mpr (.inl ⟨rfl, rfl⟩), rfl⟩
  · cases htimeout

end PingConnection

end Zmqtt
