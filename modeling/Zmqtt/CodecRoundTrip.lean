import Zmqtt.Codec
import Zmqtt.PropertiesRoundTrip

/-!
# Round trip of the codec

`decode_encode`: whatever follows it, an encoded packet decodes to the packet
itself up to `norm`, and exactly its bytes are consumed.  `norm` names the three
things an encoding forgets: an empty properties object, the identifier of a
QoS 0 PUBLISH, and in a 3.1.1 session every field MQTT 5.0 added.

`decode_frame` separates the fixed header from the body.  For each packet class
there is then one lemma that decodes the body its encoder built.
-/

namespace Zmqtt

/-! ## What a round trip forgets -/

variable {P : Type}

/-- Properties after a round trip in a session of the given version. -/
def normProperties (S : PropertySet P) (version : Version) (props : Option P) : Option P :=
  if version = .v5 then S.norm props else none

/-- A Will after a round trip. -/
def Will.norm (version : Version) (will : Will) : Will :=
  { will with properties := normProperties willSet version will.properties }

/-- A CONNECT after a round trip. -/
def Connect.norm (version : Version) (packet : Connect) : Connect :=
  { packet with
    will := packet.will.map (Will.norm version)
    properties := normProperties connectSet version packet.properties }

/-- A CONNACK after a round trip. -/
def ConnAck.norm (version : Version) (packet : ConnAck) : ConnAck :=
  { packet with properties := normProperties connAckSet version packet.properties }

/-- A PUBLISH after a round trip. -/
def Publish.norm (version : Version) (packet : Publish) : Publish :=
  { packet with
    packetId := if packet.qos = .atMostOnce then none else packet.packetId
    properties := normProperties publishSet version packet.properties }

/-- A PUBACK, PUBREC, PUBREL or PUBCOMP after a round trip. -/
def PubReply.norm (version : Version) (packet : PubReply) : PubReply :=
  { packet with
    reasonCode := if version = .v5 then packet.reasonCode else 0
    properties := normProperties pubAckSet version packet.properties }

/-- A filter of SUBSCRIBE after a round trip. -/
def SubscriptionRequest.norm (version : Version) (sub : SubscriptionRequest) :
    SubscriptionRequest :=
  if version = .v5 then sub else { topicFilter := sub.topicFilter, qos := sub.qos }

/-- A SUBSCRIBE after a round trip. -/
def Subscribe.norm (version : Version) (packet : Subscribe) : Subscribe :=
  { packet with
    subscriptions := packet.subscriptions.map (SubscriptionRequest.norm version)
    properties := normProperties subscribeSet version packet.properties }

/-- A SUBACK after a round trip. -/
def SubAck.norm (version : Version) (packet : SubAck) : SubAck :=
  { packet with properties := normProperties subAckSet version packet.properties }

/-- An UNSUBSCRIBE after a round trip. -/
def Unsubscribe.norm (version : Version) (packet : Unsubscribe) : Unsubscribe :=
  { packet with properties := normProperties unsubscribeSet version packet.properties }

/-- An UNSUBACK after a round trip. -/
def UnsubAck.norm (version : Version) (packet : UnsubAck) : UnsubAck :=
  { packet with
    reasonCodes := if version = .v5 then packet.reasonCodes else []
    properties := normProperties unsubAckSet version packet.properties }

/-- A DISCONNECT after a round trip. -/
def Disconnect.norm (version : Version) (packet : Disconnect) : Disconnect :=
  { reasonCode := if version = .v5 then packet.reasonCode else 0
    properties := normProperties disconnectSet version packet.properties }

/-- An AUTH after a round trip. -/
def Auth.norm (packet : Auth) : Auth :=
  { packet with properties := authSet.norm packet.properties }

/-- A packet after a round trip in a session of the given version. -/
def norm (version : Version) : Packet → Packet
  | .connect packet => .connect (packet.norm version)
  | .connack packet => .connack (packet.norm version)
  | .publish packet => .publish (packet.norm version)
  | .puback packet => .puback (packet.norm version)
  | .pubrec packet => .pubrec (packet.norm version)
  | .pubrel packet => .pubrel (packet.norm version)
  | .pubcomp packet => .pubcomp (packet.norm version)
  | .subscribe packet => .subscribe (packet.norm version)
  | .suback packet => .suback (packet.norm version)
  | .unsubscribe packet => .unsubscribe (packet.norm version)
  | .unsuback packet => .unsuback (packet.norm version)
  | .pingreq => .pingreq
  | .pingresp => .pingresp
  | .disconnect packet => .disconnect (packet.norm version)
  | .auth packet => .auth packet.norm

/-! ## The fixed header -/

/-- The loop of `decode_varint` and the inline loop of `decode`, round by round: both have a
value and a width, both miss a byte, or both run out of rounds. -/
theorem remainingLengthLoop_cases (buffer : Bytes) :
    ∀ (n i multiplier acc : Nat),
      (∃ v w, decodeVarintLoop buffer 1 n i multiplier acc = .ok (v, w) ∧
        remainingLengthLoop buffer n i multiplier acc i = .ok (some (v, w))) ∨
      (decodeVarintLoop buffer 1 n i multiplier acc =
          .error (.valueError "Buffer too short for varint") ∧
        remainingLengthLoop buffer n i multiplier acc i = .ok none) ∨
      (decodeVarintLoop buffer 1 n i multiplier acc =
          .error (.valueError "Varint exceeds 4 bytes") ∧
        remainingLengthLoop buffer n i multiplier acc i =
          .error (.valueError "Remaining-length varint exceeds 4 bytes")) := by
  intro n
  induction n with
  | zero =>
      intro i multiplier acc
      exact .inr (.inr ⟨rfl, rfl⟩)
  | succ n ih =>
      intro i multiplier acc
      rw [decodeVarintLoop, remainingLengthLoop]
      cases buffer[1 + i]? with
      | none => exact .inr (.inl ⟨rfl, rfl⟩)
      | some byte =>
          dsimp only
          by_cases hlast : byte.toNat &&& 0x80 = 0
          · rw [if_pos hlast, if_pos hlast]
            exact .inl ⟨_, _, rfl, rfl⟩
          · rw [if_neg hlast, if_neg hlast]
            exact ih (i + 1) (multiplier * 128) _

/-- Where `decode_varint` returns, the inline loop of `decode` goes on with the
same value and width. -/
theorem remainingLengthLoop_of_decodeVarint {buffer : Bytes} {v w : Nat}
    (h : decodeVarint buffer 1 = .ok (v, w)) :
    remainingLengthLoop buffer 4 0 1 0 0 = .ok (some (v, w)) := by
  unfold decodeVarint at h
  rcases remainingLengthLoop_cases buffer 4 0 1 0 with
    ⟨v', w', hdecode, hloop⟩ | ⟨hdecode, -⟩ | ⟨hdecode, -⟩
  · rw [hdecode] at h
    cases h
    exact hloop
  · rw [hdecode] at h
    cases h
  · rw [hdecode] at h
    cases h

theorem PacketType.value_lt (t : PacketType) : t.value < 16 := by
  cases t <;> decide

theorem PacketType.fromValue_value (t : PacketType) :
    PacketType.fromValue t.value = .ok t := by
  cases t <;> rfl

/-- The two halves of the first byte. -/
theorem first_byte {t f : Nat} (ht : t < 16) (hf : f < 16) :
    (t <<< 4) ||| (f &&& 0x0F) < 256 ∧
      (((t <<< 4) ||| (f &&& 0x0F)) >>> 4) &&& 0x0F = t ∧
      ((t <<< 4) ||| (f &&& 0x0F)) &&& 0x0F = f := by
  have hall : ∀ t < 16, ∀ f < 16, (t <<< 4) ||| (f &&& 0x0F) < 256 ∧
      (((t <<< 4) ||| (f &&& 0x0F)) >>> 4) &&& 0x0F = t ∧
      ((t <<< 4) ||| (f &&& 0x0F)) &&& 0x0F = f := by decide
  exact hall t ht f hf

/-- **Framing.**  A packet built from a body decodes to what the body decodes
to, and exactly the packet is consumed. -/
theorem decode_frame {t : PacketType} {flags : Nat} {body bytes : Bytes} {version : Version}
    {packet : Packet} (hflags : flags < 16) (h : buildPacket t flags body = .ok bytes)
    (hbody : decodeBody t flags body version = .ok packet) (rest : Bytes) :
    decode (bytes ++ rest) version none = .ok (some (packet, bytes.length)) := by
  obtain ⟨first, hfirst, h⟩ := bind_eq_ok.mp h
  obtain ⟨length, hlength, h⟩ := bind_eq_ok.mp h
  cases h
  obtain ⟨-, -, rfl⟩ := bytes1_ok hfirst
  obtain ⟨hlt, htype, hlow⟩ := first_byte t.value_lt hflags
  generalize hfb : (t.value <<< 4) ||| (flags &&& 0x0F) = firstByte at *
  have hval : (UInt8.ofNat (firstByte : Int).toNat).toNat = firstByte := by
    rw [UInt8.toNat_ofNat', Int.toNat_natCast]
    omega
  generalize UInt8.ofNat (firstByte : Int).toNat = fb at *
  have hbuf : ([fb] ++ length ++ body ++ rest).drop 1 = length ++ (body ++ rest) := by simp
  obtain ⟨hvar, -⟩ := decodeVarint_encodeVarint hlength hbuf
  have hheader := remainingLengthLoop_of_decodeVarint hvar
  have hbytes : ([fb] ++ length ++ body ++ rest).drop (1 + length.length) = body ++ rest :=
    drop_after hbuf
  have hslice : slice ([fb] ++ length ++ body ++ rest) (1 + length.length)
      (1 + length.length + body.length) = body := slice_window hbytes
  have hpos : 0 < length.length := by
    rw [(encodeVarint_ok hlength).2.2]
    exact encodeVarintLoop_length_pos _
  have hlen : ¬ ([fb] ++ length ++ body ++ rest).length < 2 := by
    simp only [List.length_append, List.length_singleton]
    omega
  have hfit : ¬ ([fb] ++ length ++ body ++ rest).length < 1 + length.length + body.length := by
    simp only [List.length_append, List.length_singleton]
    omega
  have hzero : byteAt ([fb] ++ length ++ body ++ rest) 0 = .ok fb := rfl
  unfold decode
  rw [if_neg hlen, hzero, ok_bind, hheader, ok_bind]
  simp only [decodeFrame, exceeds, Int.toNat_natCast, hfit, Bool.false_eq_true, if_false, hval,
    htype, hlow, PacketType.fromValue_value, ok_bind, hslice, hbody]
  simp only [List.length_append, List.length_singleton]
  rfl

/-! ## Version-dependent properties -/

/-- A property block has at least its length. -/
theorem encodeProperties_length_pos {S : PropertySet P} {props : Option P} {bytes : Bytes}
    (h : encodeProperties S props = .ok bytes) : 0 < bytes.length := by
  have hzero : ∀ {b : Bytes}, encodeVarint 0 = .ok b → 0 < b.length := by
    intro b hb
    rw [(encodeVarint_ok hb).2.2]
    exact encodeVarintLoop_length_pos _
  cases props with
  | none => exact hzero h
  | some props =>
      simp only [encodeProperties, encodePropsBlock] at h
      split at h
      · exact hzero h
      · obtain ⟨raw, -, h⟩ := bind_eq_ok.mp h
        obtain ⟨length, hlength, h⟩ := bind_eq_ok.mp h
        cases h
        have hpos := encodeVarintLoop_length_pos (raw.length : Int).toNat
        rw [← (encodeVarint_ok hlength).2.2] at hpos
        rw [List.length_append]
        omega

/-- The properties of a packet class, present on the wire only in version 5.0. -/
theorem versionProperties_encode {S : PropertySet P} (hS : S.Lawful) {version : Version}
    {props : Option P} {buf bytes rest : Bytes} {off : Nat}
    (h : (if version = .v5 then encodeProperties S props else .ok []) = .ok bytes)
    (hbuf : buf.drop off = bytes ++ rest) :
    (if version = .v5 then decodeProperties S buf off else .ok (none, 0)) =
      .ok (normProperties S version props, bytes.length) := by
  cases version with
  | v311 =>
      cases h
      rfl
  | v5 => exact decodeProperties_encode hS h hbuf

/-! ## The bodies -/

theorem QoS.fromValue_value (qos : QoS) : QoS.fromValue qos.value = .ok qos := by
  cases qos <;> rfl

theorem RetainHandling.fromValue_value (rh : RetainHandling) :
    RetainHandling.fromValue rh.value = .ok rh := by
  cases rh <;> rfl

/-- The nibble of a PUBLISH holds its quality of service and its two flags. -/
theorem publishFlags_fields (packet : Publish) :
    publishFlags packet < 16 ∧ (publishFlags packet >>> 1) &&& 0x03 = packet.qos.value ∧
      flagSet (publishFlags packet) 0x01 = packet.retain ∧
      flagSet (publishFlags packet) 0x08 = packet.dup := by
  unfold publishFlags
  cases packet.dup <;> cases packet.qos <;> cases packet.retain <;> decide

theorem decodePublish_encode {packet : Publish} {version : Version} {bytes : Bytes}
    (h : encodePublish packet version = .ok bytes) :
    ∃ body, buildPacket .publish (publishFlags packet) body = .ok bytes ∧
      decodePublish body (publishFlags packet) version = .ok (packet.norm version) := by
  obtain ⟨topic, htopic, h⟩ := bind_eq_ok.mp h
  obtain ⟨pid, hpid, h⟩ := bind_eq_ok.mp h
  obtain ⟨props, hprops, h⟩ := bind_eq_ok.mp h
  refine ⟨_, h, ?_⟩
  obtain ⟨-, hqos, hretain, hdup⟩ := publishFlags_fields packet
  generalize hbody : topic ++ pid ++ props ++ packet.payload = body
  have hwin : body.drop 0 = topic ++ (pid ++ (props ++ packet.payload)) := by
    simp [← hbody]
  have hstr := decodeStr_encode htopic hwin
  have hwin2 := drop_after hwin
  rw [Nat.zero_add] at hwin2
  -- the identifier is on the wire exactly for QoS 1 and 2
  have hid : (if packet.qos ≠ .atMostOnce then
        if topic.length + 2 > body.length then
          .error (.valueError "PUBLISH too short for packet ID")
        else do
          let packetId ← unpackH body topic.length
          pure (some (packetId : Int), topic.length + 2)
      else .ok (none, topic.length)) =
      Except.ok (ε := CodecError)
        ((packet.norm version).packetId, topic.length + pid.length) := by
    by_cases hq : packet.qos = .atMostOnce
    · simp only [hq, ne_eq, not_true_eq_false, if_false] at hpid ⊢
      cases hpid
      simp [Publish.norm, hq]
    · simp only [hq, ne_eq, not_false_eq_true, if_true] at hpid ⊢
      cases hp : packet.packetId with
      | none => simp [hp] at hpid
      | some n =>
          simp only [hp] at hpid
          have hl := packH_length hpid
          have hfit := length_of_window hwin2 (by omega)
          obtain ⟨hun, hval⟩ := unpackH_packH hpid hwin2
          rw [if_neg (by omega), hun, ok_bind, hval]
          simp [Publish.norm, hq, hp, hl, pure, Except.pure]
  have hwin3 := drop_after hwin2
  have hdec := versionProperties_encode publishSet_lawful hprops hwin3
  have hwin4 := drop_after hwin3
  unfold decodePublish
  rw [hqos, QoS.fromValue_value, ok_bind, hstr, ok_bind]
  simp only
  rw [hid, ok_bind]
  simp only [decodePublishProperties]
  rw [hdec, ok_bind]
  simp only [hwin4, hretain, hdup]
  rfl

theorem decodeConnack_encode {packet : ConnAck} {version : Version} {bytes : Bytes}
    (h : encodeConnack packet version = .ok bytes) :
    ∃ body, buildPacket .connack 0 body = .ok bytes ∧
      decodeConnack body version = .ok (packet.norm version) := by
  obtain ⟨sp, hsp, h⟩ := bind_eq_ok.mp h
  obtain ⟨code, hcode, h⟩ := bind_eq_ok.mp h
  obtain ⟨props, hprops, h⟩ := bind_eq_ok.mp h
  refine ⟨_, h, ?_⟩
  obtain ⟨-, -, rfl⟩ := bytes1_ok hsp
  obtain ⟨h0, h1, rfl⟩ := bytes1_ok hcode
  have hflag : flagSet (UInt8.ofNat (if packet.sessionPresent then (0x01 : Int) else 0x00).toNat).toNat
      0x01 = packet.sessionPresent := by
    cases packet.sessionPresent <;> rfl
  generalize UInt8.ofNat (if packet.sessionPresent then (0x01 : Int) else 0x00).toNat = first at *
  have hvalue := byte_value h0 h1
  generalize UInt8.ofNat packet.returnCode.toNat = second at *
  have hwin : ([first] ++ [second] ++ props).drop 2 = props ++ [] := by simp
  have hdec := versionProperties_encode connAckSet_lawful hprops hwin
  -- in version 5.0 the properties are never empty on the wire
  have hguard : (if version = .v5 ∧ ([first] ++ [second] ++ props).length > 2 then
        decodeConnackProperties ([first] ++ [second] ++ props) 2 else .ok (none, 0)) =
      .ok (normProperties connAckSet version packet.properties, props.length) := by
    cases version with
    | v311 =>
        rw [if_neg (by simp)]
        exact hdec
    | v5 =>
        have hpos := encodeProperties_length_pos hprops
        rw [if_pos ⟨rfl, by simpa using hpos⟩]
        exact hdec
  have hfirst : byteAt ([first] ++ [second] ++ props) 0 = .ok first := rfl
  have hsecond : byteAt ([first] ++ [second] ++ props) 1 = .ok second := rfl
  unfold decodeConnack
  rw [if_neg (by simp), hfirst, ok_bind, hsecond, ok_bind, hguard, ok_bind]
  simp only [hflag, hvalue]
  rfl

theorem decodePubAckVariant_encode {t : PacketType} {flags : Nat} {packet : PubReply}
    {version : Version} {bytes : Bytes}
    (h : encodePubAckVariant t flags packet version = .ok bytes) :
    ∃ body, buildPacket t flags body = .ok bytes ∧
      decodePubAckVariant body version = .ok (packet.norm version) := by
  unfold encodePubAckVariant at h
  split at h
  · -- long form: reason code and properties
    rename_i hlong
    obtain ⟨rfl, -⟩ := hlong
    obtain ⟨pid, hpid, h⟩ := bind_eq_ok.mp h
    obtain ⟨code, hcode, h⟩ := bind_eq_ok.mp h
    obtain ⟨props, hprops, h⟩ := bind_eq_ok.mp h
    refine ⟨_, h, ?_⟩
    obtain ⟨h0, h1, rfl⟩ := packB_ok hcode
    have hvalue := byte_value h0 h1
    generalize UInt8.ofNat packet.reasonCode.toNat = second at *
    have hpos := encodeProperties_length_pos hprops
    have hl := packH_length hpid
    generalize hbody : pid ++ [second] ++ props = body
    have hlen : body.length = 3 + props.length := by
      rw [← hbody]
      simp only [List.length_append, List.length_singleton, hl]
    have hwin : body.drop 0 = pid ++ (second :: (props ++ [])) := by simp [← hbody]
    obtain ⟨hun, hval⟩ := unpackH_packH hpid hwin
    have hwin2 := drop_after hwin
    rw [Nat.zero_add, hl] at hwin2
    have hbyte := byteAt_window hwin2
    have hdec := decodeProperties_encode pubAckSet_lawful hprops (drop_after_byte hwin2)
    unfold decodePubAckVariant
    rw [if_neg (by omega), hun, ok_bind, if_pos ⟨rfl, by omega⟩, hbyte, ok_bind,
      if_pos (by omega), decodePubackProperties, hdec, ok_bind]
    simp only [hval, hvalue]
    rfl
  · -- short form: only the packet identifier
    rename_i hshort
    obtain ⟨pid, hpid, h⟩ := bind_eq_ok.mp h
    refine ⟨_, h, ?_⟩
    have hl := packH_length hpid
    have hwin : pid.drop 0 = pid ++ [] := by simp
    obtain ⟨hun, hval⟩ := unpackH_packH hpid hwin
    unfold decodePubAckVariant
    rw [if_neg (by omega), hun, ok_bind, if_neg (by omega), hval]
    cases version with
    | v311 => rfl
    | v5 =>
        simp only [true_and, not_or, ne_eq, not_not] at hshort
        simp only [PubReply.norm, if_true, hshort.1, hshort.2]
        rfl

theorem decodeDisconnect_encode {packet : Disconnect} {version : Version} {bytes : Bytes}
    (h : encodeDisconnect packet version = .ok bytes) :
    ∃ body, buildPacket .disconnect 0 body = .ok bytes ∧
      decodeDisconnect body version = .ok (packet.norm version) := by
  unfold encodeDisconnect at h
  split at h
  · rename_i hlong
    obtain ⟨rfl, -⟩ := hlong
    obtain ⟨code, hcode, h⟩ := bind_eq_ok.mp h
    obtain ⟨props, hprops, h⟩ := bind_eq_ok.mp h
    refine ⟨_, h, ?_⟩
    obtain ⟨h0, h1, rfl⟩ := bytes1_ok hcode
    have hvalue := byte_value h0 h1
    generalize UInt8.ofNat packet.reasonCode.toNat = first at *
    have hpos := encodeProperties_length_pos hprops
    have hwin : ([first] ++ props).drop 1 = props ++ [] := by simp
    have hdec := decodeProperties_encode disconnectSet_lawful hprops hwin
    have hlen : ([first] ++ props).length > 1 := by simpa using hpos
    unfold decodeDisconnect
    rw [if_pos ⟨rfl, by omega⟩, if_pos hlen, decodeDisconnectProperties, hdec]
    simp only [List.singleton_append, byteAt, List.getElem?_cons_zero, ok_bind, hvalue]
    rfl
  · rename_i hshort
    refine ⟨_, h, ?_⟩
    unfold decodeDisconnect
    rw [if_neg (by simp)]
    cases version with
    | v311 => rfl
    | v5 =>
        simp only [true_and, not_or, ne_eq, not_not] at hshort
        simp only [Disconnect.norm, if_true, hshort.1, hshort.2]
        rfl

theorem decodeAuth_encode {packet : Auth} {bytes : Bytes} (h : encodeAuth packet = .ok bytes) :
    ∃ body, buildPacket .auth 0 body = .ok bytes ∧ decodeAuth body = .ok packet.norm := by
  obtain ⟨code, hcode, h⟩ := bind_eq_ok.mp h
  obtain ⟨props, hprops, h⟩ := bind_eq_ok.mp h
  refine ⟨_, h, ?_⟩
  obtain ⟨h0, h1, rfl⟩ := bytes1_ok hcode
  have hvalue := byte_value h0 h1
  generalize UInt8.ofNat packet.reasonCode.toNat = first at *
  have hpos := encodeProperties_length_pos hprops
  have hwin : ([first] ++ props).drop 1 = props ++ [] := by simp
  have hdec := decodeProperties_encode authSet_lawful hprops hwin
  have hlen : ([first] ++ props).length > 1 := by simpa using hpos
  unfold decodeAuth
  rw [if_neg (by omega), if_pos hlen, decodeAuthProperties, hdec]
  simp only [List.singleton_append, byteAt, List.getElem?_cons_zero, ok_bind, hvalue]
  rfl

/-! ### Lists of codes, filters and subscriptions -/

/-- The codes of an acknowledgement are its last bytes. -/
theorem codes_encode {codes : List Int} {bytes : Bytes} (h : bytesOf codes = .ok bytes) :
    bytes.map (fun b => (b.toNat : Int)) = codes := by
  induction codes generalizing bytes with
  | nil =>
      cases h
      rfl
  | cons code codes ih =>
      obtain ⟨head, hhead, h⟩ := bind_eq_ok.mp h
      obtain ⟨tail, htail, h⟩ := bind_eq_ok.mp h
      cases h
      obtain ⟨h0, h1, rfl⟩ := bytes1_ok hhead
      rw [List.map_append, ih htail, List.map_singleton, byte_value h0 h1]
      rfl

theorem decodeSuback_encode {packet : SubAck} {version : Version} {bytes : Bytes}
    (h : encodeSuback packet version = .ok bytes) :
    ∃ body, buildPacket .suback 0 body = .ok bytes ∧
      decodeSuback body version = .ok (packet.norm version) := by
  obtain ⟨pid, hpid, h⟩ := bind_eq_ok.mp h
  obtain ⟨props, hprops, h⟩ := bind_eq_ok.mp h
  obtain ⟨codes, hcodes, h⟩ := bind_eq_ok.mp h
  refine ⟨_, h, ?_⟩
  have hl := packH_length hpid
  generalize hbody : pid ++ props ++ codes = body
  have hlen : ¬ body.length < 2 := by
    rw [← hbody]
    simp only [List.length_append, hl]
    omega
  have hwin : body.drop 0 = pid ++ (props ++ codes) := by simp [← hbody]
  obtain ⟨hun, hval⟩ := unpackH_packH hpid hwin
  have hwin2 := drop_after hwin
  rw [Nat.zero_add, hl] at hwin2
  have hdec := versionProperties_encode subAckSet_lawful hprops hwin2
  unfold decodeSuback
  rw [if_neg hlen, hun, ok_bind, decodeSubackProperties, hdec, ok_bind]
  simp only [codesFrom, drop_after hwin2, codes_encode hcodes, hval]
  rfl

theorem decodeUnsuback_encode {packet : UnsubAck} {version : Version} {bytes : Bytes}
    (h : encodeUnsuback packet version = .ok bytes) :
    ∃ body, buildPacket .unsuback 0 body = .ok bytes ∧
      decodeUnsuback body version = .ok (packet.norm version) := by
  cases version with
  | v311 =>
      obtain ⟨pid, hpid, h⟩ := bind_eq_ok.mp h
      refine ⟨_, h, ?_⟩
      have hl := packH_length hpid
      have hwin : pid.drop 0 = pid ++ [] := by simp
      obtain ⟨hun, hval⟩ := unpackH_packH hpid hwin
      unfold decodeUnsuback
      rw [if_neg (by omega), hun, ok_bind, if_neg (by simp), hval]
      rfl
  | v5 =>
      obtain ⟨pid, hpid, h⟩ := bind_eq_ok.mp h
      obtain ⟨props, hprops, h⟩ := bind_eq_ok.mp h
      obtain ⟨codes, hcodes, h⟩ := bind_eq_ok.mp h
      refine ⟨_, h, ?_⟩
      have hl := packH_length hpid
      generalize hbody : pid ++ props ++ codes = body
      have hlen : ¬ body.length < 2 := by
        rw [← hbody]
        simp only [List.length_append, hl]
        omega
      have hwin : body.drop 0 = pid ++ (props ++ codes) := by simp [← hbody]
      obtain ⟨hun, hval⟩ := unpackH_packH hpid hwin
      have hwin2 := drop_after hwin
      rw [Nat.zero_add, hl] at hwin2
      have hdec := decodeProperties_encode unsubAckSet_lawful hprops hwin2
      unfold decodeUnsuback
      rw [if_neg hlen, hun, ok_bind, if_pos rfl, decodeUnsubackProperties, hdec, ok_bind]
      simp only [codesFrom, drop_after hwin2, codes_encode hcodes, hval]
      rfl

/-- The decoder's loop over topic filters undoes the encoder's. -/
theorem decodeTopicFilters_encode (buf : Bytes) :
    ∀ (filters : List Str) (bytes : Bytes) (pos : Nat),
      encodeTopicFilters filters = .ok bytes → buf.drop pos = bytes → pos ≤ buf.length →
      decodeTopicFilters buf pos = .ok filters := by
  intro filters
  induction filters with
  | nil =>
      intro bytes pos h hbuf hpos
      cases h
      have hend : ¬ pos < buf.length := by
        have := congrArg List.length hbuf
        simp only [List.length_drop, List.length_nil] at this
        omega
      rw [decodeTopicFilters, if_neg hend]
  | cons topic filters ih =>
      intro bytes pos h hbuf hpos
      obtain ⟨head, hhead, h⟩ := bind_eq_ok.mp h
      obtain ⟨tail, htail, h⟩ := bind_eq_ok.mp h
      cases h
      have hstr := decodeStr_encode hhead hbuf
      have hsize := decodeStr_size hstr
      have hfit := length_of_window hbuf (by omega)
      have hrec := ih tail (pos + head.length) htail (drop_after hbuf) hfit
      rw [decodeTopicFilters, if_pos (by omega)]
      split
      · rename_i e he
        rw [hstr] at he
        cases he
      · rename_i topic' n hdec
        rw [hstr] at hdec
        cases hdec
        rw [hrec]

theorem decodeUnsubscribe_encode {packet : Unsubscribe} {version : Version} {bytes : Bytes}
    (h : encodeUnsubscribe packet version = .ok bytes) :
    ∃ body, buildPacket .unsubscribe 0b0010 body = .ok bytes ∧
      decodeUnsubscribe body version = .ok (packet.norm version) := by
  obtain ⟨pid, hpid, h⟩ := bind_eq_ok.mp h
  obtain ⟨props, hprops, h⟩ := bind_eq_ok.mp h
  obtain ⟨filters, hfilters, h⟩ := bind_eq_ok.mp h
  refine ⟨_, h, ?_⟩
  have hl := packH_length hpid
  generalize hbody : pid ++ props ++ filters = body
  have hlen : body.length = 2 + props.length + filters.length := by
    rw [← hbody]
    simp only [List.length_append, hl]
  have hwin : body.drop 0 = pid ++ (props ++ filters) := by simp [← hbody]
  obtain ⟨hun, hval⟩ := unpackH_packH hpid hwin
  have hwin2 := drop_after hwin
  rw [Nat.zero_add, hl] at hwin2
  have hdec := versionProperties_encode unsubscribeSet_lawful hprops hwin2
  have hloop := decodeTopicFilters_encode body _ _ _ hfilters (drop_after hwin2) (by omega)
  unfold decodeUnsubscribe
  rw [if_neg (by omega), hun, ok_bind, decodeUnsubscribeProperties, hdec, ok_bind]
  simp only [hloop, ok_bind, hval]
  rfl

/-- The options byte holds the four options of a subscription. -/
theorem options_fields (qos : QoS) (noLocal retainAsPublished : Bool) (rh : RetainHandling) :
    let options := qos.value ||| (noLocal.toNat <<< 2) ||| (retainAsPublished.toNat <<< 3) |||
      (rh.value <<< 4)
    options < 256 ∧ options &&& 0x03 = qos.value ∧ flagSet options 0x04 = noLocal ∧
      flagSet options 0x08 = retainAsPublished ∧ (options >>> 4) &&& 0x03 = rh.value := by
  cases qos <;> cases noLocal <;> cases retainAsPublished <;> cases rh <;> decide

/-- The options byte of a subscription decodes to its fields, in a 3.1.1 session
to the quality of service alone. -/
theorem decodeOptions_encode (sub : SubscriptionRequest) (version : Version) :
    subscriptionOptions sub version < 256 ∧
      decodeOptions sub.topicFilter (subscriptionOptions sub version) version =
        .ok (sub.norm version) := by
  unfold subscriptionOptions decodeOptions
  cases version with
  | v311 =>
      rw [if_neg (by simp)]
      have hqos : sub.qos.value < 256 ∧ sub.qos.value &&& 0x03 = sub.qos.value := by
        cases sub.qos <;> decide
      refine ⟨hqos.1, ?_⟩
      rw [hqos.2, QoS.fromValue_value, ok_bind]
      rfl
  | v5 =>
      obtain ⟨hlt, hqos, hlocal, hretain, hhandling⟩ :=
        options_fields sub.qos sub.noLocal sub.retainAsPublished sub.retainHandling
      rw [if_pos rfl]
      refine ⟨hlt, ?_⟩
      rw [hqos, QoS.fromValue_value, ok_bind, if_pos rfl, hhandling,
        RetainHandling.fromValue_value, ok_bind, hlocal, hretain]
      rfl

/-- The decoder's loop over subscriptions undoes the encoder's. -/
theorem decodeSubscriptions_encode (buf : Bytes) (version : Version) :
    ∀ (subs : List SubscriptionRequest) (bytes : Bytes) (pos : Nat),
      encodeSubscriptions version subs = .ok bytes → buf.drop pos = bytes → pos ≤ buf.length →
      decodeSubscriptions buf version pos = .ok (subs.map (SubscriptionRequest.norm version)) := by
  intro subs
  induction subs with
  | nil =>
      intro bytes pos h hbuf hpos
      cases h
      have hend : ¬ pos < buf.length := by
        have := congrArg List.length hbuf
        simp only [List.length_drop, List.length_nil] at this
        omega
      rw [decodeSubscriptions, if_neg hend]
      rfl
  | cons sub subs ih =>
      intro bytes pos h hbuf hpos
      obtain ⟨topic, htopic, h⟩ := bind_eq_ok.mp h
      obtain ⟨options, hoptions, h⟩ := bind_eq_ok.mp h
      obtain ⟨tail, htail, h⟩ := bind_eq_ok.mp h
      cases h
      obtain ⟨hlt, hfields⟩ := decodeOptions_encode sub version
      obtain ⟨-, -, rfl⟩ := bytes1_ok hoptions
      rw [Int.toNat_natCast] at hbuf
      have hbyte : (UInt8.ofNat (subscriptionOptions sub version)).toNat =
          subscriptionOptions sub version := by
        rw [UInt8.toNat_ofNat']
        omega
      generalize UInt8.ofNat (subscriptionOptions sub version) = byte at *
      rw [List.append_assoc] at hbuf
      have hstr := decodeStr_encode htopic hbuf
      have hsize := decodeStr_size hstr
      have hwin := drop_after hbuf
      have hfit : pos + topic.length + 1 ≤ buf.length :=
        length_of_window (show buf.drop _ = [byte] ++ tail from hwin) (by simp)
      have hrec := ih tail (pos + topic.length + 1) htail (drop_after_byte hwin) hfit
      rw [decodeSubscriptions, if_pos (by omega), hstr]
      simp only
      rw [if_neg (by omega), byteAt_window hwin]
      simp only [hbyte, hfields, hrec, List.map_cons]

theorem decodeSubscribe_encode {packet : Subscribe} {version : Version} {bytes : Bytes}
    (h : encodeSubscribe packet version = .ok bytes) :
    ∃ body, buildPacket .subscribe 0b0010 body = .ok bytes ∧
      decodeSubscribe body version = .ok (packet.norm version) := by
  obtain ⟨pid, hpid, h⟩ := bind_eq_ok.mp h
  obtain ⟨props, hprops, h⟩ := bind_eq_ok.mp h
  obtain ⟨subs, hsubs, h⟩ := bind_eq_ok.mp h
  refine ⟨_, h, ?_⟩
  have hl := packH_length hpid
  generalize hbody : pid ++ props ++ subs = body
  have hlen : body.length = 2 + props.length + subs.length := by
    rw [← hbody]
    simp only [List.length_append, hl]
  have hwin : body.drop 0 = pid ++ (props ++ subs) := by simp [← hbody]
  obtain ⟨hun, hval⟩ := unpackH_packH hpid hwin
  have hwin2 := drop_after hwin
  rw [Nat.zero_add, hl] at hwin2
  have hdec := versionProperties_encode subscribeSet_lawful hprops hwin2
  have hloop := decodeSubscriptions_encode body version _ _ _ hsubs (drop_after hwin2) (by omega)
  unfold decodeSubscribe
  rw [if_neg (by omega), hun, ok_bind, decodeSubscribeProperties, hdec, ok_bind]
  simp only [hloop, ok_bind, hval]
  rfl

/-! ### CONNECT -/

/-- The flags byte tells which parts of the payload are present. -/
theorem connectFlags_fields (packet : Connect) :
    connectFlags packet < 256 ∧
      flagSet (connectFlags packet) 0x02 = packet.cleanSession ∧
      flagSet (connectFlags packet) 0x04 = packet.will.isSome ∧
      flagSet (connectFlags packet) 0x80 = packet.username.isSome ∧
      flagSet (connectFlags packet) 0x40 = packet.password.isSome ∧
      ((connectFlags packet >>> 3) &&& 0x03) =
        (packet.will.elim .atMostOnce Will.qos).value ∧
      flagSet (connectFlags packet) 0x20 = packet.will.elim false Will.retain := by
  unfold connectFlags
  cases packet.username.isSome <;> cases packet.password.isSome <;>
    cases packet.cleanSession <;> cases packet.will with
    | none => decide
    | some will =>
        simp only [Option.isSome_some, Option.elim_some]
        cases will.qos <;> cases will.retain <;> decide

theorem decodeWill_encode {buf bytes rest : Bytes} {pos flags : Nat} {version : Version}
    {will : Option Will} {qos : QoS}
    (h : encodeWill version will = .ok bytes) (hbuf : buf.drop pos = bytes ++ rest)
    (hflag : flagSet flags 0x04 = will.isSome) (hqos : qos = will.elim .atMostOnce Will.qos)
    (hretain : flagSet flags 0x20 = will.elim false Will.retain) :
    decodeWill buf pos flags qos version =
      .ok (will.map (Will.norm version), pos + bytes.length) := by
  unfold decodeWill
  cases will with
  | none =>
      cases h
      rw [hflag]
      rfl
  | some will =>
      obtain ⟨props, hprops, h⟩ := bind_eq_ok.mp h
      obtain ⟨topic, htopic, h⟩ := bind_eq_ok.mp h
      obtain ⟨payload, hpayload, h⟩ := bind_eq_ok.mp h
      cases h
      rw [List.append_assoc, List.append_assoc] at hbuf
      have hdec := versionProperties_encode willSet_lawful hprops hbuf
      have hwin := drop_after hbuf
      have hwin2 := drop_after hwin
      rw [hflag, if_pos Option.isSome_some, decodeWillProperties, hdec, ok_bind]
      simp only
      rw [decodeStr_encode htopic hwin, ok_bind]
      simp only
      rw [decodeBytesField_encode hpayload hwin2, ok_bind]
      simp only [hqos, hretain, List.length_append, Nat.add_assoc]
      rfl

theorem decodeUsername_encode {buf bytes rest : Bytes} {pos flags : Nat} {username : Option Str}
    (h : encodeUsername username = .ok bytes) (hbuf : buf.drop pos = bytes ++ rest)
    (hflag : flagSet flags 0x80 = username.isSome) :
    decodeUsername buf pos flags = .ok (username, bytes.length) := by
  unfold decodeUsername
  rw [hflag]
  cases username with
  | none =>
      cases h
      rfl
  | some username =>
      rw [if_pos Option.isSome_some, decodeStr_encode h hbuf]
      rfl

theorem decodePassword_encode {buf bytes rest : Bytes} {pos flags : Nat}
    {password : Option Bytes}
    (h : encodePassword password = .ok bytes) (hbuf : buf.drop pos = bytes ++ rest)
    (hflag : flagSet flags 0x40 = password.isSome) :
    decodePassword buf pos flags = .ok (password, bytes.length) := by
  unfold decodePassword
  rw [hflag]
  cases password with
  | none =>
      cases h
      rfl
  | some password =>
      rw [if_pos Option.isSome_some, decodeBytesField_encode h hbuf]
      rfl

theorem decodeConnect_encode {packet : Connect} {version : Version} {bytes : Bytes}
    (h : encodeConnect packet version = .ok bytes) :
    ∃ body, buildPacket .connect 0 body = .ok bytes ∧
      decodeConnect body = .ok (packet.norm version) := by
  obtain ⟨name, hname, h⟩ := bind_eq_ok.mp h
  obtain ⟨level, hlevel, h⟩ := bind_eq_ok.mp h
  obtain ⟨flagsByte, hflagsByte, h⟩ := bind_eq_ok.mp h
  obtain ⟨keepalive, hkeepalive, h⟩ := bind_eq_ok.mp h
  obtain ⟨props, hprops, h⟩ := bind_eq_ok.mp h
  obtain ⟨clientId, hclientId, h⟩ := bind_eq_ok.mp h
  obtain ⟨will, hwill, h⟩ := bind_eq_ok.mp h
  obtain ⟨username, husername, h⟩ := bind_eq_ok.mp h
  obtain ⟨password, hpassword, h⟩ := bind_eq_ok.mp h
  refine ⟨_, h, ?_⟩
  obtain ⟨hlt, hclean, hwillFlag, huserFlag, hpassFlag, hqos, hretain⟩ :=
    connectFlags_fields packet
  obtain ⟨-, -, rfl⟩ := bytes1_ok hlevel
  obtain ⟨-, -, rfl⟩ := bytes1_ok hflagsByte
  have hlevelByte : UInt8.ofNat (if version = .v5 then (0x05 : Int) else 0x04).toNat =
      if version = .v5 then (0x05 : UInt8) else 0x04 := by
    cases version <;> rfl
  have hflags : (UInt8.ofNat ((connectFlags packet : Nat) : Int).toNat).toNat =
      connectFlags packet := by
    rw [Int.toNat_natCast, UInt8.toNat_ofNat']
    omega
  rw [hlevelByte]
  generalize UInt8.ofNat ((connectFlags packet : Nat) : Int).toNat = flagsByte at *
  generalize hbody : name ++ [if version = .v5 then (0x05 : UInt8) else 0x04] ++ [flagsByte] ++
    keepalive ++ props ++ (clientId ++ will ++ username ++ password) = body
  have hw0 : body.drop 0 = name ++ ((if version = .v5 then (0x05 : UInt8) else 0x04) ::
      (flagsByte :: (keepalive ++ (props ++ (clientId ++ (will ++ (username ++ password))))))) := by
    simp [← hbody]
  have hstr := decodeStr_encode hname hw0
  have hw1 := drop_after hw0
  rw [Nat.zero_add] at hw1
  have hw2 := drop_after_byte hw1
  have hw3 := drop_after_byte hw2
  obtain ⟨hun, hval⟩ := unpackH_packH hkeepalive hw3
  have hw4 := drop_after hw3
  rw [packH_length hkeepalive] at hw4
  have hdec := versionProperties_encode connectSet_lawful hprops hw4
  have hw5 := drop_after hw4
  have hw6 := drop_after hw5
  have hdecWill := decodeWill_encode hwill hw6 hwillFlag rfl hretain
  have hw7 := drop_after hw6
  have huser := decodeUsername_encode husername hw7 huserFlag
  have hw8 : body.drop (name.length + 1 + 1 + 2 + props.length + clientId.length + will.length +
      username.length) = password ++ [] := by
    rw [List.append_nil]
    exact drop_after hw7
  have hpass := decodePassword_encode hpassword hw8 hpassFlag
  -- the level byte names the version the packet was encoded for
  have hversion : (if (if version = .v5 then (0x05 : UInt8) else 0x04) = 0x05 then Version.v5
      else Version.v311) = version := by
    cases version <;> rfl
  have hlevelOk : ¬ ((if version = .v5 then (0x05 : UInt8) else 0x04) ≠ 0x04 ∧
      (if version = .v5 then (0x05 : UInt8) else 0x04) ≠ 0x05) := by
    cases version <;> decide
  unfold decodeConnect
  rw [hstr, ok_bind]
  simp only [ne_eq, not_true_eq_false, if_false]
  rw [byteAt_window hw1, ok_bind, if_neg hlevelOk, byteAt_window hw2, ok_bind, hversion]
  simp only [hflags]
  rw [hqos, QoS.fromValue_value, ok_bind, hun, ok_bind, decodeConnectProperties, hdec, ok_bind]
  simp only
  rw [decodeStr_encode hclientId hw5, ok_bind]
  simp only
  rw [hdecWill, ok_bind]
  simp only
  rw [huser, ok_bind]
  simp only
  rw [hpass, ok_bind]
  simp only [hclean, hval]
  rfl

/-! ## The whole format -/

/-- What `encode` writes is a fixed header before a body that decodes to the packet. -/
theorem encode_body {packet : Packet} {version : Version} {bytes : Bytes}
    (h : encode packet version = .ok bytes) :
    ∃ t flags body, flags < 16 ∧ buildPacket t flags body = .ok bytes ∧
      decodeBody t flags body version = .ok (norm version packet) := by
  have hzero : 0 < 16 := by decide
  have htwo : 0b0010 < 16 := by decide
  cases packet with
  | connect packet =>
      obtain ⟨body, hbuild, hbody⟩ := decodeConnect_encode h
      exact ⟨_, _, body, hzero, hbuild, by simp only [decodeBody, hbody]; rfl⟩
  | connack packet =>
      obtain ⟨body, hbuild, hbody⟩ := decodeConnack_encode h
      exact ⟨_, _, body, hzero, hbuild, by simp only [decodeBody, hbody]; rfl⟩
  | publish packet =>
      obtain ⟨body, hbuild, hbody⟩ := decodePublish_encode h
      exact ⟨_, _, body, (publishFlags_fields packet).1, hbuild,
        by simp only [decodeBody, hbody]; rfl⟩
  | puback packet =>
      obtain ⟨body, hbuild, hbody⟩ := decodePubAckVariant_encode h
      exact ⟨_, _, body, hzero, hbuild, by simp only [decodeBody, hbody]; rfl⟩
  | pubrec packet =>
      obtain ⟨body, hbuild, hbody⟩ := decodePubAckVariant_encode h
      exact ⟨_, _, body, hzero, hbuild, by simp only [decodeBody, hbody]; rfl⟩
  | pubrel packet =>
      obtain ⟨body, hbuild, hbody⟩ := decodePubAckVariant_encode h
      exact ⟨_, _, body, htwo, hbuild, by simp only [decodeBody, hbody]; rfl⟩
  | pubcomp packet =>
      obtain ⟨body, hbuild, hbody⟩ := decodePubAckVariant_encode h
      exact ⟨_, _, body, hzero, hbuild, by simp only [decodeBody, hbody]; rfl⟩
  | subscribe packet =>
      obtain ⟨body, hbuild, hbody⟩ := decodeSubscribe_encode h
      exact ⟨_, _, body, htwo, hbuild, by simp only [decodeBody, hbody]; rfl⟩
  | suback packet =>
      obtain ⟨body, hbuild, hbody⟩ := decodeSuback_encode h
      exact ⟨_, _, body, hzero, hbuild, by simp only [decodeBody, hbody]; rfl⟩
  | unsubscribe packet =>
      obtain ⟨body, hbuild, hbody⟩ := decodeUnsubscribe_encode h
      exact ⟨_, _, body, htwo, hbuild, by simp only [decodeBody, hbody]; rfl⟩
  | unsuback packet =>
      obtain ⟨body, hbuild, hbody⟩ := decodeUnsuback_encode h
      exact ⟨_, _, body, hzero, hbuild, by simp only [decodeBody, hbody]; rfl⟩
  | pingreq => exact ⟨_, _, [], hzero, h, rfl⟩
  | pingresp => exact ⟨_, _, [], hzero, h, rfl⟩
  | disconnect packet =>
      obtain ⟨body, hbuild, hbody⟩ := decodeDisconnect_encode h
      exact ⟨_, _, body, hzero, hbuild, by simp only [decodeBody, hbody]; rfl⟩
  | auth packet =>
      obtain ⟨body, hbuild, hbody⟩ := decodeAuth_encode h
      exact ⟨_, _, body, hzero, hbuild, by simp only [decodeBody, hbody]; rfl⟩

/-- **Whole-format round trip.**  For every packet the encoder accepts, in either
version and whatever bytes follow, decoding the encoding returns the packet up to
`norm` and the number of bytes the encoding has. -/
theorem decode_encode (packet : Packet) (version : Version) (bytes rest : Bytes)
    (h : encode packet version = .ok bytes) :
    decode (bytes ++ rest) version none = .ok (some (norm version packet, bytes.length)) := by
  obtain ⟨t, flags, body, hflags, hbuild, hbody⟩ := encode_body h
  exact decode_frame hflags hbuild hbody rest

/-- A QoS 0 PUBLISH that carries an identifier and an empty properties object,
with one more byte behind it: both are forgotten, the byte is left. -/
theorem decode_encode_qos0_publish :
    encode (.publish
        { topic := [97], payload := [0x2A], qos := .atMostOnce, retain := true, dup := false,
          packetId := some 7, properties := some {} }) .v5 =
        .ok [0x31, 0x05, 0x00, 0x01, 0x61, 0x00, 0x2A] ∧
      decode ([0x31, 0x05, 0x00, 0x01, 0x61, 0x00, 0x2A] ++ [0xC0]) .v5 none =
        .ok (some (.publish
          { topic := [97], payload := [0x2A], qos := .atMostOnce, retain := true,
            dup := false }, 7)) :=
  ⟨rfl, decode_encode
    (.publish
      { topic := [97], payload := [0x2A], qos := .atMostOnce, retain := true, dup := false,
        packetId := some 7, properties := some {} })
    .v5 [0x31, 0x05, 0x00, 0x01, 0x61, 0x00, 0x2A] [0xC0] rfl⟩

end Zmqtt
