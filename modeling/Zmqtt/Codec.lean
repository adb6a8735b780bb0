import Zmqtt.Packets

/-!
# The codec

`encode` and `decode` of `packets/codec.py`, with the function of each packet
type that they dispatch to.
-/

namespace Zmqtt

/-! ## Encoding -/

/-- `_build_packet`. -/
def buildPacket (packetType : PacketType) (flags : Nat) (body : Bytes) :
    Except CodecError Bytes := do
  let firstByte := (packetType.value <<< 4) ||| (flags &&& 0x0F)
  let first ← bytes1 firstByte
  let length ← encodeVarint body.length
  return first ++ length ++ body

/-- `_packet_id_only`. -/
def packetIdOnly (packetType : PacketType) (flags : Nat) (packetId : Int) :
    Except CodecError Bytes := do
  buildPacket packetType flags (← packH packetId)

/-- `bytes(codes)`. -/
def bytesOf : List Int → Except CodecError Bytes
  | [] => .ok []
  | code :: rest => do
      let head ← bytes1 code
      let tail ← bytesOf rest
      return head ++ tail

/-- The flags byte `_encode_connect` builds. -/
def connectFlags (packet : Connect) : Nat :=
  let flags := 0
  let flags := if packet.cleanSession then flags ||| 0x02 else flags
  let flags :=
    match packet.will with
    | none => flags
    | some will =>
        let flags := flags ||| 0x04
        let flags := flags ||| (will.qos.value <<< 3)
        if will.retain then flags ||| 0x20 else flags
  let flags := if packet.username.isSome then flags ||| 0x80 else flags
  if packet.password.isSome then flags ||| 0x40 else flags

/-- The will part of the CONNECT payload. -/
def encodeWill (version : Version) : Option Will → Except CodecError Bytes
  | none => .ok []
  | some will => do
      let properties ←
        (if version = .v5 then encodeWillProperties will.properties else .ok [])
      let topic ← encodeStr will.topic
      let payload ← encodeBytesField will.payload
      return properties ++ topic ++ payload

/-- The user name of the CONNECT payload. -/
def encodeUsername : Option Str → Except CodecError Bytes
  | none => .ok []
  | some username => encodeStr username

/-- The password of the CONNECT payload. -/
def encodePassword : Option Bytes → Except CodecError Bytes
  | none => .ok []
  | some password => encodeBytesField password

/-- `_encode_connect`. -/
def encodeConnect (packet : Connect) (version : Version) : Except CodecError Bytes := do
  let flags := connectFlags packet
  let protoLevel := if version = .v5 then 0x05 else 0x04
  let name ← encodeStr (str "MQTT")
  let level ← bytes1 protoLevel
  let flagsByte ← bytes1 flags
  let keepalive ← packH packet.keepalive
  let properties ←
    (if version = .v5 then encodeConnectProperties packet.properties else .ok [])
  let clientId ← encodeStr packet.clientId
  let will ← encodeWill version packet.will
  let username ← encodeUsername packet.username
  let password ← encodePassword packet.password
  buildPacket .connect 0
    (name ++ level ++ flagsByte ++ keepalive ++ properties ++
      (clientId ++ will ++ username ++ password))

/-- `_encode_connack`. -/
def encodeConnack (packet : ConnAck) (version : Version) : Except CodecError Bytes := do
  let sp ← bytes1 (if packet.sessionPresent then 0x01 else 0x00)
  let code ← bytes1 packet.returnCode
  let properties ←
    (if version = .v5 then encodeConnackProperties packet.properties else .ok [])
  buildPacket .connack 0 (sp ++ code ++ properties)

/-- The flags nibble of `_encode_publish`. -/
def publishFlags (packet : Publish) : Nat :=
  (packet.dup.toNat <<< 3) ||| (packet.qos.value <<< 1) ||| packet.retain.toNat

/-- `_encode_publish`. -/
def encodePublish (packet : Publish) (version : Version) : Except CodecError Bytes := do
  let topic ← encodeStr packet.topic
  let packetId ←
    (if packet.qos ≠ .atMostOnce then
      match packet.packetId with
      | none => .error (.valueError "Cannot publish without packet id")
      | some packetId => packH packetId
    else .ok [])
  let properties ←
    (if version = .v5 then encodePublishProperties packet.properties else .ok [])
  buildPacket .publish (publishFlags packet) (topic ++ packetId ++ properties ++ packet.payload)

/-- `_encode_pub_ack_variant`. -/
def encodePubAckVariant (packetType : PacketType) (flags : Nat) (packet : PubReply)
    (version : Version) : Except CodecError Bytes :=
  if version = .v5 ∧ (packet.reasonCode ≠ 0 ∨ packet.properties ≠ none) then do
    let packetId ← packH packet.packetId
    let reasonCode ← packB packet.reasonCode
    let properties ← encodePubackProperties packet.properties
    buildPacket packetType flags (packetId ++ reasonCode ++ properties)
  else packetIdOnly packetType flags packet.packetId

/-- The options byte of one subscription. -/
def subscriptionOptions (sub : SubscriptionRequest) (version : Version) : Nat :=
  if version = .v5 then
    sub.qos.value ||| (sub.noLocal.toNat <<< 2) ||| (sub.retainAsPublished.toNat <<< 3) |||
      (sub.retainHandling.value <<< 4)
  else sub.qos.value

/-- The `for sub in packet.subscriptions` loop of `_encode_subscribe`. -/
def encodeSubscriptions (version : Version) :
    List SubscriptionRequest → Except CodecError Bytes
  | [] => .ok []
  | sub :: rest => do
      let topicFilter ← encodeStr sub.topicFilter
      let options ← bytes1 (subscriptionOptions sub version)
      let tail ← encodeSubscriptions version rest
      return topicFilter ++ options ++ tail

/-- `_encode_subscribe`. -/
def encodeSubscribe (packet : Subscribe) (version : Version) : Except CodecError Bytes := do
  let packetId ← packH packet.packetId
  let properties ←
    (if version = .v5 then encodeSubscribeProperties packet.properties else .ok [])
  let subscriptions ← encodeSubscriptions version packet.subscriptions
  buildPacket .subscribe 0b0010 (packetId ++ properties ++ subscriptions)

/-- `_encode_suback`. -/
def encodeSuback (packet : SubAck) (version : Version) : Except CodecError Bytes := do
  let packetId ← packH packet.packetId
  let properties ←
    (if version = .v5 then encodeSubackProperties packet.properties else .ok [])
  let codes ← bytesOf packet.returnCodes
  buildPacket .suback 0 (packetId ++ properties ++ codes)

/-- The `for topic in packet.topic_filters` loop of `_encode_unsubscribe`. -/
def encodeTopicFilters : List Str → Except CodecError Bytes
  | [] => .ok []
  | topic :: rest => do
      let head ← encodeStr topic
      let tail ← encodeTopicFilters rest
      return head ++ tail

/-- `_encode_unsubscribe`. -/
def encodeUnsubscribe (packet : Unsubscribe) (version : Version) : Except CodecError Bytes := do
  let packetId ← packH packet.packetId
  let properties ←
    (if version = .v5 then encodeUnsubscribeProperties packet.properties else .ok [])
  let topicFilters ← encodeTopicFilters packet.topicFilters
  buildPacket .unsubscribe 0b0010 (packetId ++ properties ++ topicFilters)

/-- `_encode_unsuback`. -/
def encodeUnsuback (packet : UnsubAck) (version : Version) : Except CodecError Bytes :=
  if version = .v5 then do
    let packetId ← packH packet.packetId
    let properties ← encodeUnsubackProperties packet.properties
    let codes ← bytesOf packet.reasonCodes
    buildPacket .unsuback 0 (packetId ++ properties ++ codes)
  else packetIdOnly .unsuback 0 packet.packetId

/-- `_encode_disconnect`. -/
def encodeDisconnect (packet : Disconnect) (version : Version) : Except CodecError Bytes :=
  if version = .v5 ∧ (packet.reasonCode ≠ 0 ∨ packet.properties ≠ none) then do
    let reasonCode ← bytes1 packet.reasonCode
    let properties ← encodeDisconnectProperties packet.properties
    buildPacket .disconnect 0 (reasonCode ++ properties)
  else buildPacket .disconnect 0 []

/-- The `Auth` case of `encode`. -/
def encodeAuth (packet : Auth) : Except CodecError Bytes := do
  let reasonCode ← bytes1 packet.reasonCode
  let properties ← encodeAuthProperties packet.properties
  buildPacket .auth 0 (reasonCode ++ properties)

/-- `encode`. -/
def encode (packet : Packet) (version : Version) : Except CodecError Bytes :=
  match packet with
  | .connect packet => encodeConnect packet version
  | .connack packet => encodeConnack packet version
  | .publish packet => encodePublish packet version
  | .puback packet => encodePubAckVariant .puback 0 packet version
  | .pubrec packet => encodePubAckVariant .pubrec 0 packet version
  | .pubrel packet => encodePubAckVariant .pubrel 0b0010 packet version
  | .pubcomp packet => encodePubAckVariant .pubcomp 0 packet version
  | .subscribe packet => encodeSubscribe packet version
  | .suback packet => encodeSuback packet version
  | .unsubscribe packet => encodeUnsubscribe packet version
  | .unsuback packet => encodeUnsuback packet version
  | .pingreq => buildPacket .pingreq 0 []
  | .pingresp => buildPacket .pingresp 0 []
  | .disconnect packet => encodeDisconnect packet version
  | .auth packet => encodeAuth packet

/-! ## Decoding -/

/-- `bool(flags & mask)`. -/
def flagSet (flags mask : Nat) : Bool := flags &&& mask != 0

/-- The will part of `_decode_connect`: the will and the position after it. -/
def decodeWill (buf : Bytes) (pos flags : Nat) (willQos : QoS) (version : Version) :
    Except CodecError (Option Will × Nat) :=
  if flagSet flags 0x04 then do
    let (willProps, n) ←
      (if version = .v5 then decodeWillProperties buf pos else .ok (none, 0))
    let pos := pos + n
    let (topic, n) ← decodeStr buf pos
    let pos := pos + n
    let (payload, n) ← decodeBytesField buf pos
    let pos := pos + n
    return (some {
      topic, payload, qos := willQos, retain := flagSet flags 0x20,
      properties := willProps }, pos)
  else .ok (none, pos)

/-- The user name of a CONNECT payload, when its flag is set. -/
def decodeUsername (buf : Bytes) (pos flags : Nat) : Except CodecError (Option Str × Nat) :=
  if flagSet flags 0x80 then do
    let (username, n) ← decodeStr buf pos
    return (some username, n)
  else .ok (none, 0)

/-- The password of a CONNECT payload, when its flag is set. -/
def decodePassword (buf : Bytes) (pos flags : Nat) : Except CodecError (Option Bytes × Nat) :=
  if flagSet flags 0x40 then do
    let (password, n) ← decodeBytesField buf pos
    return (some password, n)
  else .ok (none, 0)

/-- `_decode_connect`, which detects its own version. -/
def decodeConnect (buf : Bytes) : Except CodecError Connect := do
  let (protoName, pos) ← decodeStr buf 0
  if protoName ≠ str "MQTT" then .error (.invalidProtocolName protoName)
  else do
  let protoLevel ← byteAt buf pos
  if protoLevel ≠ 0x04 ∧ protoLevel ≠ 0x05 then
    .error (.valueError s!"Unsupported protocol level: {protoLevel}")
  else do
  let version := if protoLevel = 0x05 then Version.v5 else Version.v311
  let pos := pos + 1
  let flags ← byteAt buf pos
  let flags := flags.toNat
  let pos := pos + 1
  let willQos ← QoS.fromValue ((flags >>> 3) &&& 0x03)
  let keepalive ← unpackH buf pos
  let pos := pos + 2
  let (properties, n) ←
    (if version = .v5 then decodeConnectProperties buf pos else .ok (none, 0))
  let pos := pos + n
  let (clientId, n) ← decodeStr buf pos
  let pos := pos + n
  let (will, pos) ← decodeWill buf pos flags willQos version
  let (username, n) ← decodeUsername buf pos flags
  let pos := pos + n
  let (password, _) ← decodePassword buf pos flags
  return {
    clientId, cleanSession := flagSet flags 0x02, keepalive := keepalive,
    username, password, will, properties }

/-- `_decode_connack`. -/
def decodeConnack (buf : Bytes) (version : Version) : Except CodecError ConnAck :=
  if buf.length < 2 then .error (.valueError "CONNACK too short")
  else do
  let first ← byteAt buf 0
  let returnCode ← byteAt buf 1
  let (properties, _) ←
    (if version = .v5 ∧ buf.length > 2 then decodeConnackProperties buf 2 else .ok (none, 0))
  return {
    sessionPresent := flagSet first.toNat 0x01, returnCode := returnCode.toNat, properties }

/-- `_decode_publish`. -/
def decodePublish (buf : Bytes) (flags : Nat) (version : Version) :
    Except CodecError Publish := do
  let qos ← QoS.fromValue ((flags >>> 1) &&& 0x03)
  let (topic, pos) ← decodeStr buf 0
  let (packetId, pos) ←
    (if qos ≠ .atMostOnce then
      if pos + 2 > buf.length then .error (.valueError "PUBLISH too short for packet ID")
      else do
        let packetId ← unpackH buf pos
        pure (some (packetId : Int), pos + 2)
    else .ok (none, pos))
  let (properties, n) ←
    (if version = .v5 then decodePublishProperties buf pos else .ok (none, 0))
  let pos := pos + n
  return {
    topic, payload := buf.drop pos, qos, retain := flagSet flags 0x01,
    dup := flagSet flags 0x08, packetId, properties }

/-- `_decode_pub_ack_variant`. -/
def decodePubAckVariant (buf : Bytes) (version : Version) : Except CodecError PubReply :=
  if buf.length < 2 then .error (.valueError "Packet too short for packet ID")
  else do
  let packetId ← unpackH buf 0
  if version = .v5 ∧ buf.length > 2 then
    let reasonCode ← byteAt buf 2
    let (properties, _) ←
      (if buf.length > 3 then decodePubackProperties buf 3 else .ok (none, 0))
    return { packetId := packetId, reasonCode := reasonCode.toNat, properties }
  else
    return { packetId := packetId }

/-- The fields `_decode_subscribe` reads from an options byte. -/
def decodeOptions (topicFilter : Str) (options : Nat) (version : Version) :
    Except CodecError SubscriptionRequest := do
  let qos ← QoS.fromValue (options &&& 0x03)
  if version = .v5 then
    let retainHandling ← RetainHandling.fromValue ((options >>> 4) &&& 0x03)
    return {
      topicFilter, qos, noLocal := flagSet options 0x04,
      retainAsPublished := flagSet options 0x08, retainHandling }
  else return { topicFilter, qos }

/-- The `while pos < len(buf)` loop of `_decode_subscribe`. -/
@[semireducible]
def decodeSubscriptions (buf : Bytes) (version : Version) (pos : Nat) :
    Except CodecError (List SubscriptionRequest) :=
  if pos < buf.length then
    match decodeStr buf pos with
    | .error e => .error e
    | .ok (topicFilter, n) =>
        if pos + n ≥ buf.length then .error (.valueError "SUBSCRIBE missing options byte")
        else
          match byteAt buf (pos + n) with
          | .error e => .error e
          | .ok options =>
              match decodeOptions topicFilter options.toNat version with
              | .error e => .error e
              | .ok sub =>
                  match decodeSubscriptions buf version (pos + n + 1) with
                  | .error e => .error e
                  | .ok rest => .ok (sub :: rest)
  else .ok []
termination_by buf.length - pos

/-- `_decode_subscribe`. -/
def decodeSubscribe (buf : Bytes) (version : Version) : Except CodecError Subscribe :=
  if buf.length < 2 then .error (.valueError "SUBSCRIBE too short")
  else do
  let packetId ← unpackH buf 0
  let (properties, n) ←
    (if version = .v5 then decodeSubscribeProperties buf 2 else .ok (none, 0))
  let subscriptions ← decodeSubscriptions buf version (2 + n)
  return { packetId := packetId, subscriptions, properties }

/-- `tuple(buf[pos:])`. -/
def codesFrom (buf : Bytes) (pos : Nat) : List Int :=
  (buf.drop pos).map fun b => (b.toNat : Int)

/-- `_decode_suback`. -/
def decodeSuback (buf : Bytes) (version : Version) : Except CodecError SubAck :=
  if buf.length < 2 then .error (.valueError "SUBACK too short")
  else do
  let packetId ← unpackH buf 0
  let (properties, n) ←
    (if version = .v5 then decodeSubackProperties buf 2 else .ok (none, 0))
  return { packetId := packetId, returnCodes := codesFrom buf (2 + n), properties }

/-- The `while pos < len(buf)` loop of `_decode_unsubscribe`. -/
@[semireducible]
def decodeTopicFilters (buf : Bytes) (pos : Nat) : Except CodecError (List Str) :=
  if pos < buf.length then
    match h : decodeStr buf pos with
    | .error e => .error e
    | .ok (topicFilter, n) =>
        have : 2 ≤ n := decodeStr_size h
        match decodeTopicFilters buf (pos + n) with
        | .error e => .error e
        | .ok rest => .ok (topicFilter :: rest)
  else .ok []
termination_by buf.length - pos

/-- `_decode_unsubscribe`. -/
def decodeUnsubscribe (buf : Bytes) (version : Version) : Except CodecError Unsubscribe :=
  if buf.length < 2 then .error (.valueError "UNSUBSCRIBE too short")
  else do
  let packetId ← unpackH buf 0
  let (properties, n) ←
    (if version = .v5 then decodeUnsubscribeProperties buf 2 else .ok (none, 0))
  let topicFilters ← decodeTopicFilters buf (2 + n)
  return { packetId := packetId, topicFilters, properties }

/-- `_decode_unsuback`. -/
def decodeUnsuback (buf : Bytes) (version : Version) : Except CodecError UnsubAck :=
  if buf.length < 2 then .error (.valueError "UNSUBACK too short")
  else do
  let packetId ← unpackH buf 0
  if version = .v5 then
    let (properties, n) ← decodeUnsubackProperties buf 2
    return { packetId := packetId, reasonCodes := codesFrom buf (2 + n), properties }
  else return { packetId := packetId }

/-- `_decode_disconnect`. -/
def decodeDisconnect (buf : Bytes) (version : Version) : Except CodecError Disconnect := do
  if version = .v5 ∧ buf.length ≥ 1 then
    let reasonCode ← byteAt buf 0
    let (properties, _) ←
      (if buf.length > 1 then decodeDisconnectProperties buf 1 else .ok (none, 0))
    return { reasonCode := reasonCode.toNat, properties }
  else return {}

/-- The AUTH case of `decode`. -/
def decodeAuth (body : Bytes) : Except CodecError Auth :=
  if body.length < 1 then .error (.valueError "AUTH too short")
  else do
  let reasonCode ← byteAt body 0
  let (properties, _) ←
    (if body.length > 1 then decodeAuthProperties body 1 else .ok (none, 0))
  return { reasonCode := reasonCode.toNat, properties }

/-- The `match packet_type` of `decode`. -/
def decodeBody (packetType : PacketType) (flags : Nat) (body : Bytes) (version : Version) :
    Except CodecError Packet :=
  match packetType with
  | .connect => .connect <$> decodeConnect body
  | .connack => .connack <$> decodeConnack body version
  | .publish => .publish <$> decodePublish body flags version
  | .puback => .puback <$> decodePubAckVariant body version
  | .pubrec => .pubrec <$> decodePubAckVariant body version
  | .pubrel => .pubrel <$> decodePubAckVariant body version
  | .pubcomp => .pubcomp <$> decodePubAckVariant body version
  | .subscribe => .subscribe <$> decodeSubscribe body version
  | .suback => .suback <$> decodeSuback body version
  | .unsubscribe => .unsubscribe <$> decodeUnsubscribe body version
  | .unsuback => .unsuback <$> decodeUnsuback body version
  | .pingreq => .ok .pingreq
  | .pingresp => .ok .pingresp
  | .disconnect => .disconnect <$> decodeDisconnect body version
  | .auth => .auth <$> decodeAuth body

/-- The inline varint loop of `decode` with `n` rounds left: the remaining
length and its width, or `none` while the fixed header is incomplete. -/
def remainingLengthLoop (buffer : Bytes) :
    (n i multiplier remainingLength varintBytes : Nat) →
      Except CodecError (Option (Nat × Nat))
  | 0, _, _, _, _ => .error (.valueError "Remaining-length varint exceeds 4 bytes")
  | n + 1, i, multiplier, remainingLength, varintBytes =>
      match buffer[1 + i]? with
      | none => .ok none
      | some byte =>
          let remainingLength := remainingLength + (byte.toNat &&& 0x7F) * multiplier
          let varintBytes := varintBytes + 1
          if byte.toNat &&& 0x80 = 0 then .ok (some (remainingLength, varintBytes))
          else remainingLengthLoop buffer n (i + 1) (multiplier * 128) remainingLength varintBytes

/-- `max_packet_size is not None and total > max_packet_size`. -/
def exceeds (total : Nat) : Option Int → Bool
  | none => false
  | some limit => decide ((total : Int) > limit)

/-- What `decode` does once the fixed header is complete. -/
def decodeFrame (buffer : Bytes) (firstByte : Nat) (remainingLength varintBytes : Nat)
    (version : Version) (maxPacketSize : Option Int) :
    Except CodecError (Option (Packet × Nat)) :=
  let total := 1 + varintBytes + remainingLength
  if exceeds total maxPacketSize then .error (.packetTooLarge total (maxPacketSize.getD 0))
  else if buffer.length < total then .ok none
  else do
    let packetType ← PacketType.fromValue ((firstByte >>> 4) &&& 0x0F)
    let body := slice buffer (1 + varintBytes) total
    let packet ← decodeBody packetType (firstByte &&& 0x0F) body version
    return some (packet, total)

/-- `decode`: the packet and the bytes consumed, or `none` when the buffer is
shorter than the next packet. -/
def decode (buffer : Bytes) (version : Version) (maxPacketSize : Option Int) :
    Except CodecError (Option (Packet × Nat)) :=
  if buffer.length < 2 then .ok none
  else do
    let firstByte ← byteAt buffer 0
    let header ← remainingLengthLoop buffer 4 0 1 0 0
    match header with
    | none => return none
    | some (remainingLength, varintBytes) =>
        decodeFrame buffer firstByte.toNat remainingLength varintBytes version maxPacketSize

end Zmqtt
