import Zmqtt.OrderedDict
import Zmqtt.Wire

/-!
# MQTT 5.0 properties

The functions of `packets/properties.py`.  A decoded block is a dictionary from
property identifiers to values; each property class is read from, and written
to, such a dictionary.  The eleven encoders and decoders of the source differ
only in the fields they name, so each is `encodeProperties` or
`decodeProperties` applied to its own `PropertySet`.
-/

namespace Zmqtt

/-- `PropertyID`. -/
inductive PropertyID
  | payloadFormatIndicator
  | messageExpiryInterval
  | contentType
  | responseTopic
  | correlationData
  | subscriptionIdentifier
  | sessionExpiryInterval
  | assignedClientIdentifier
  | serverKeepAlive
  | authenticationMethod
  | authenticationData
  | requestProblemInformation
  | willDelayInterval
  | requestResponseInformation
  | responseInformation
  | serverReference
  | reasonString
  | receiveMaximum
  | topicAliasMaximum
  | topicAlias
  | maximumQos
  | retainAvailable
  | userProperty
  | maximumPacketSize
  | wildcardSubscriptionAvailable
  | subscriptionIdentifierAvailable
  | sharedSubscriptionAvailable
deriving DecidableEq, Repr

/-- The identifier's value on the wire. -/
def PropertyID.value : PropertyID → UInt8
  | .payloadFormatIndicator => 0x01
  | .messageExpiryInterval => 0x02
  | .contentType => 0x03
  | .responseTopic => 0x08
  | .correlationData => 0x09
  | .subscriptionIdentifier => 0x0B
  | .sessionExpiryInterval => 0x11
  | .assignedClientIdentifier => 0x12
  | .serverKeepAlive => 0x13
  | .authenticationMethod => 0x15
  | .authenticationData => 0x16
  | .requestProblemInformation => 0x17
  | .willDelayInterval => 0x18
  | .requestResponseInformation => 0x19
  | .responseInformation => 0x1A
  | .serverReference => 0x1C
  | .reasonString => 0x1F
  | .receiveMaximum => 0x21
  | .topicAliasMaximum => 0x22
  | .topicAlias => 0x23
  | .maximumQos => 0x24
  | .retainAvailable => 0x25
  | .userProperty => 0x26
  | .maximumPacketSize => 0x27
  | .wildcardSubscriptionAvailable => 0x28
  | .subscriptionIdentifierAvailable => 0x29
  | .sharedSubscriptionAvailable => 0x2A

/-- `PropertyID(byte)`, which raises `ValueError` for every other byte. -/
def PropertyID.ofByte? (byte : UInt8) : Option PropertyID :=
  match byte.toNat with
  | 0x01 => some .payloadFormatIndicator
  | 0x02 => some .messageExpiryInterval
  | 0x03 => some .contentType
  | 0x08 => some .responseTopic
  | 0x09 => some .correlationData
  | 0x0B => some .subscriptionIdentifier
  | 0x11 => some .sessionExpiryInterval
  | 0x12 => some .assignedClientIdentifier
  | 0x13 => some .serverKeepAlive
  | 0x15 => some .authenticationMethod
  | 0x16 => some .authenticationData
  | 0x17 => some .requestProblemInformation
  | 0x18 => some .willDelayInterval
  | 0x19 => some .requestResponseInformation
  | 0x1A => some .responseInformation
  | 0x1C => some .serverReference
  | 0x1F => some .reasonString
  | 0x21 => some .receiveMaximum
  | 0x22 => some .topicAliasMaximum
  | 0x23 => some .topicAlias
  | 0x24 => some .maximumQos
  | 0x25 => some .retainAvailable
  | 0x26 => some .userProperty
  | 0x27 => some .maximumPacketSize
  | 0x28 => some .wildcardSubscriptionAvailable
  | 0x29 => some .subscriptionIdentifierAvailable
  | 0x2A => some .sharedSubscriptionAvailable
  | _ => none

/-- The wire types the generic decoder distinguishes. -/
inductive WireType
  | byte
  | uint16
  | uint32
  | varint
  | str
  | bytesData
  | userProperty
deriving DecidableEq, Repr

/-- The sets `_WIRE_BYTE .. _WIRE_BYTES_DATA`; `USER_PROPERTY` is handled
separately. -/
def PropertyID.wireType : PropertyID → WireType
  | .payloadFormatIndicator => .byte
  | .requestProblemInformation => .byte
  | .requestResponseInformation => .byte
  | .maximumQos => .byte
  | .retainAvailable => .byte
  | .wildcardSubscriptionAvailable => .byte
  | .subscriptionIdentifierAvailable => .byte
  | .sharedSubscriptionAvailable => .byte
  | .serverKeepAlive => .uint16
  | .receiveMaximum => .uint16
  | .topicAliasMaximum => .uint16
  | .topicAlias => .uint16
  | .messageExpiryInterval => .uint32
  | .sessionExpiryInterval => .uint32
  | .willDelayInterval => .uint32
  | .maximumPacketSize => .uint32
  | .subscriptionIdentifier => .varint
  | .contentType => .str
  | .responseTopic => .str
  | .assignedClientIdentifier => .str
  | .authenticationMethod => .str
  | .reasonString => .str
  | .responseInformation => .str
  | .serverReference => .str
  | .correlationData => .bytesData
  | .authenticationData => .bytesData
  | .userProperty => .userProperty

/-- A value of a property dictionary. -/
inductive PropValue
  | int (n : Int)
  | bool (b : Bool)
  | str (s : Str)
  | bytes (data : Bytes)
  | pairs (kvs : List (Str × Str))
deriving DecidableEq, Repr

/-- `dict[PropertyID, Any]`. -/
abbrev PropDict := List (PropertyID × PropValue)

/-- The `for k, v in value` loop of `encode_props`. -/
def encodeUserProperties (pid : PropertyID) : List (Str × Str) → Except CodecError Bytes
  | [] => .ok []
  | (k, v) :: rest => do
      let key ← encodeStr k
      let value ← encodeStr v
      let tail ← encodeUserProperties pid rest
      return pid.value :: (key ++ value ++ tail)

/-- One round of the loop of `encode_props`.  A value of the wrong type, which no
encoder builds, is a `TypeError`. -/
def encodeProp (pid : PropertyID) (value : PropValue) : Except CodecError Bytes :=
  match pid.wireType, value with
  | .byte, .int n => do return pid.value :: (← packB n)
  | .byte, .bool b => do return pid.value :: (← packB (if b then 1 else 0))
  | .uint16, .int n => do return pid.value :: (← packH n)
  | .uint32, .int n => do return pid.value :: (← packI n)
  | .varint, .int n => do return pid.value :: (← encodeVarint n)
  | .str, .str s => do return pid.value :: (← encodeStr s)
  | .bytesData, .bytes data => do return pid.value :: (← encodeBytesField data)
  | .userProperty, .pairs kvs => encodeUserProperties pid kvs
  | _, _ => .error .typeError

/-- `encode_props`. -/
def encodeProps : PropDict → Except CodecError Bytes
  | [] => .ok []
  | (pid, value) :: rest => do
      let head ← encodeProp pid value
      let tail ← encodeProps rest
      return head ++ tail

/-- `encode_props_block`. -/
def encodePropsBlock (d : PropDict) : Except CodecError Bytes :=
  if d = [] then encodeVarint 0
  else do
    let raw ← encodeProps d
    let length ← encodeVarint raw.length
    return length ++ raw

/-- `list(d.get(USER_PROPERTY, []))`. -/
def userPairs (d : PropDict) : List (Str × Str) :=
  match OrderedDict.get d .userProperty with
  | some (.pairs kvs) => kvs
  | _ => []

/-- The body of the loop of `decode_props_block` after the identifier: the
updated dictionary and the number of bytes read at `pos`. -/
def decodeProp (buf : Bytes) (pid : PropertyID) (pos : Nat) (d : PropDict) :
    Except CodecError (PropDict × Nat) :=
  match pid.wireType with
  | .byte => do
      let b ← byteAt buf pos
      return (OrderedDict.set d pid (.int b.toNat), 1)
  | .uint16 => do
      let n ← unpackH buf pos
      return (OrderedDict.set d pid (.int n), 2)
  | .uint32 => do
      let n ← unpackI buf pos
      return (OrderedDict.set d pid (.int n), 4)
  | .varint => do
      let (n, size) ← decodeVarint buf pos
      return (OrderedDict.set d pid (.int n), size)
  | .str => do
      let (s, size) ← decodeStr buf pos
      return (OrderedDict.set d pid (.str s), size)
  | .bytesData => do
      let (data, size) ← decodeBytesField buf pos
      return (OrderedDict.set d pid (.bytes data), size)
  | .userProperty => do
      let (k, kn) ← decodeStr buf pos
      let (v, vn) ← decodeStr buf (pos + kn)
      return (OrderedDict.set d pid (.pairs (userPairs d ++ [(k, v)])), kn + vn)

/-- The `while pos < end` loop of `decode_props_block`. -/
@[semireducible]
def decodePropsLoop (buf : Bytes) (stop pos : Nat) (d : PropDict) :
    Except CodecError PropDict :=
  if pos < stop then
    match byteAt buf pos with
    | .error e => .error e
    | .ok byte =>
        match PropertyID.ofByte? byte with
        | none => .error (.unknownPropertyId byte)
        | some pid =>
            match decodeProp buf pid (pos + 1) d with
            | .error e => .error e
            | .ok (d', size) => decodePropsLoop buf stop (pos + 1 + size) d'
  else .ok d
termination_by stop - pos

/-- `decode_props_block`: the dictionary and the number of bytes consumed, the
length prefix included. -/
def decodePropsBlock (buf : Bytes) (offset : Nat) : Except CodecError (PropDict × Nat) := do
  let (propsLen, n) ← decodeVarint buf offset
  let d ← decodePropsLoop buf (offset + n + propsLen) (offset + n) []
  return (d, n + propsLen)

/-! ## Reading and writing a dictionary -/

/-- `d.get(pid)` at an integer field. -/
def getInt (d : PropDict) (pid : PropertyID) : Option Int :=
  match OrderedDict.get d pid with
  | some (.int n) => some n
  | _ => none

/-- `bool(d[pid]) if pid in d else None`. -/
def getBool (d : PropDict) (pid : PropertyID) : Option Bool :=
  match OrderedDict.get d pid with
  | some (.int n) => some (decide (n ≠ 0))
  | _ => none

/-- `d.get(pid)` at a string field. -/
def getStr (d : PropDict) (pid : PropertyID) : Option Str :=
  match OrderedDict.get d pid with
  | some (.str s) => some s
  | _ => none

/-- `d.get(pid)` at a binary field. -/
def getBytes (d : PropDict) (pid : PropertyID) : Option Bytes :=
  match OrderedDict.get d pid with
  | some (.bytes data) => some data
  | _ => none

/-- How one property class is written to a dictionary and read back: the listed
fields in the encoder's order, and the decoder's constructor call. -/
structure PropertySet (P : Type) where
  fields : P → List (PropertyID × Option PropValue)
  userProperties : P → List (Str × Str)
  ofDict : PropDict → P

variable {P : Type}

/-- The `if val is not None` comprehension of the encoders. -/
def presentFields (fields : List (PropertyID × Option PropValue)) : PropDict :=
  fields.filterMap fun field => field.2.map fun value => (field.1, value)

/-- `_up`. -/
def up (userProperties : List (Str × Str)) : PropDict :=
  if userProperties = [] then [] else [(.userProperty, .pairs userProperties)]

/-- The dictionary an encoder builds.  No listed field is `USER_PROPERTY`, so
`d.update(_up(props))` appends. -/
def PropertySet.toDict (S : PropertySet P) (props : P) : PropDict :=
  presentFields (S.fields props) ++ up (S.userProperties props)

/-- The common body of `encode_connect_properties .. encode_auth_properties`. -/
def encodeProperties (S : PropertySet P) : Option P → Except CodecError Bytes
  | none => encodeVarint 0
  | some props => encodePropsBlock (S.toDict props)

/-- The common body of `decode_connect_properties .. decode_auth_properties`. -/
def decodeProperties (S : PropertySet P) (buf : Bytes) (offset : Nat) :
    Except CodecError (Option P × Nat) := do
  let (d, n) ← decodePropsBlock buf offset
  if d = [] then return (none, n)
  return (some (S.ofDict d), n)

/-! ## The property classes -/

/-- `ConnectProperties`. -/
@[ext]
structure ConnectProperties where
  sessionExpiryInterval : Option Int := none
  receiveMaximum : Option Int := none
  maximumPacketSize : Option Int := none
  topicAliasMaximum : Option Int := none
  requestResponseInformation : Option Bool := none
  requestProblemInformation : Option Bool := none
  authenticationMethod : Option Str := none
  authenticationData : Option Bytes := none
  userProperties : List (Str × Str) := []
deriving DecidableEq, Repr

/-- `WillProperties`. -/
@[ext]
structure WillProperties where
  willDelayInterval : Option Int := none
  payloadFormatIndicator : Option Int := none
  messageExpiryInterval : Option Int := none
  contentType : Option Str := none
  responseTopic : Option Str := none
  correlationData : Option Bytes := none
  userProperties : List (Str × Str) := []
deriving DecidableEq, Repr

/-- `ConnAckProperties`. -/
@[ext]
structure ConnAckProperties where
  sessionExpiryInterval : Option Int := none
  receiveMaximum : Option Int := none
  maximumQos : Option Int := none
  retainAvailable : Option Bool := none
  maximumPacketSize : Option Int := none
  assignedClientIdentifier : Option Str := none
  topicAliasMaximum : Option Int := none
  reasonString : Option Str := none
  wildcardSubscriptionAvailable : Option Bool := none
  subscriptionIdentifierAvailable : Option Bool := none
  sharedSubscriptionAvailable : Option Bool := none
  serverKeepAlive : Option Int := none
  responseInformation : Option Str := none
  serverReference : Option Str := none
  authenticationMethod : Option Str := none
  authenticationData : Option Bytes := none
  userProperties : List (Str × Str) := []
deriving DecidableEq, Repr

/-- `PublishProperties`. -/
@[ext]
structure PublishProperties where
  payloadFormatIndicator : Option Int := none
  messageExpiryInterval : Option Int := none
  topicAlias : Option Int := none
  responseTopic : Option Str := none
  correlationData : Option Bytes := none
  subscriptionIdentifier : Option Int := none
  contentType : Option Str := none
  userProperties : List (Str × Str) := []
deriving DecidableEq, Repr

/-- `PubAckProperties`, also of PUBREC, PUBREL and PUBCOMP. -/
@[ext]
structure PubAckProperties where
  reasonString : Option Str := none
  userProperties : List (Str × Str) := []
deriving DecidableEq, Repr

/-- `SubscribeProperties`. -/
@[ext]
structure SubscribeProperties where
  subscriptionIdentifier : Option Int := none
  userProperties : List (Str × Str) := []
deriving DecidableEq, Repr

/-- `SubAckProperties`. -/
@[ext]
structure SubAckProperties where
  reasonString : Option Str := none
  userProperties : List (Str × Str) := []
deriving DecidableEq, Repr

/-- `UnsubscribeProperties`. -/
@[ext]
structure UnsubscribeProperties where
  userProperties : List (Str × Str) := []
deriving DecidableEq, Repr

/-- `UnsubAckProperties`. -/
@[ext]
structure UnsubAckProperties where
  reasonString : Option Str := none
  userProperties : List (Str × Str) := []
deriving DecidableEq, Repr

/-- `DisconnectProperties`. -/
@[ext]
structure DisconnectProperties where
  sessionExpiryInterval : Option Int := none
  reasonString : Option Str := none
  serverReference : Option Str := none
  userProperties : List (Str × Str) := []
deriving DecidableEq, Repr

/-- `AuthProperties`. -/
@[ext]
structure AuthProperties where
  authenticationMethod : Option Str := none
  authenticationData : Option Bytes := none
  reasonString : Option Str := none
  userProperties : List (Str × Str) := []
deriving DecidableEq, Repr

def connectSet : PropertySet ConnectProperties where
  fields props := [
    (.sessionExpiryInterval, props.sessionExpiryInterval.map .int),
    (.receiveMaximum, props.receiveMaximum.map .int),
    (.maximumPacketSize, props.maximumPacketSize.map .int),
    (.topicAliasMaximum, props.topicAliasMaximum.map .int),
    (.requestResponseInformation, props.requestResponseInformation.map .bool),
    (.requestProblemInformation, props.requestProblemInformation.map .bool),
    (.authenticationMethod, props.authenticationMethod.map .str),
    (.authenticationData, props.authenticationData.map .bytes)]
  userProperties props := props.userProperties
  ofDict d := {
    sessionExpiryInterval := getInt d .sessionExpiryInterval
    receiveMaximum := getInt d .receiveMaximum
    maximumPacketSize := getInt d .maximumPacketSize
    topicAliasMaximum := getInt d .topicAliasMaximum
    requestResponseInformation := getBool d .requestResponseInformation
    requestProblemInformation := getBool d .requestProblemInformation
    authenticationMethod := getStr d .authenticationMethod
    authenticationData := getBytes d .authenticationData
    userProperties := userPairs d }

def willSet : PropertySet WillProperties where
  fields props := [
    (.willDelayInterval, props.willDelayInterval.map .int),
    (.payloadFormatIndicator, props.payloadFormatIndicator.map .int),
    (.messageExpiryInterval, props.messageExpiryInterval.map .int),
    (.contentType, props.contentType.map .str),
    (.responseTopic, props.responseTopic.map .str),
    (.correlationData, props.correlationData.map .bytes)]
  userProperties props := props.userProperties
  ofDict d := {
    willDelayInterval := getInt d .willDelayInterval
    payloadFormatIndicator := getInt d .payloadFormatIndicator
    messageExpiryInterval := getInt d .messageExpiryInterval
    contentType := getStr d .contentType
    responseTopic := getStr d .responseTopic
    correlationData := getBytes d .correlationData
    userProperties := userPairs d }

def connAckSet : PropertySet ConnAckProperties where
  fields props := [
    (.sessionExpiryInterval, props.sessionExpiryInterval.map .int),
    (.receiveMaximum, props.receiveMaximum.map .int),
    (.maximumQos, props.maximumQos.map .int),
    (.retainAvailable, props.retainAvailable.map .bool),
    (.maximumPacketSize, props.maximumPacketSize.map .int),
    (.assignedClientIdentifier, props.assignedClientIdentifier.map .str),
    (.topicAliasMaximum, props.topicAliasMaximum.map .int),
    (.reasonString, props.reasonString.map .str),
    (.wildcardSubscriptionAvailable, props.wildcardSubscriptionAvailable.map .bool),
    (.subscriptionIdentifierAvailable, props.subscriptionIdentifierAvailable.map .bool),
    (.sharedSubscriptionAvailable, props.sharedSubscriptionAvailable.map .bool),
    (.serverKeepAlive, props.serverKeepAlive.map .int),
    (.responseInformation, props.responseInformation.map .str),
    (.serverReference, props.serverReference.map .str),
    (.authenticationMethod, props.authenticationMethod.map .str),
    (.authenticationData, props.authenticationData.map .bytes)]
  userProperties props := props.userProperties
  ofDict d := {
    sessionExpiryInterval := getInt d .sessionExpiryInterval
    receiveMaximum := getInt d .receiveMaximum
    maximumQos := getInt d .maximumQos
    retainAvailable := getBool d .retainAvailable
    maximumPacketSize := getInt d .maximumPacketSize
    assignedClientIdentifier := getStr d .assignedClientIdentifier
    topicAliasMaximum := getInt d .topicAliasMaximum
    reasonString := getStr d .reasonString
    wildcardSubscriptionAvailable := getBool d .wildcardSubscriptionAvailable
    subscriptionIdentifierAvailable := getBool d .subscriptionIdentifierAvailable
    sharedSubscriptionAvailable := getBool d .sharedSubscriptionAvailable
    serverKeepAlive := getInt d .serverKeepAlive
    responseInformation := getStr d .responseInformation
    serverReference := getStr d .serverReference
    authenticationMethod := getStr d .authenticationMethod
    authenticationData := getBytes d .authenticationData
    userProperties := userPairs d }

def publishSet : PropertySet PublishProperties where
  fields props := [
    (.payloadFormatIndicator, props.payloadFormatIndicator.map .int),
    (.messageExpiryInterval, props.messageExpiryInterval.map .int),
    (.topicAlias, props.topicAlias.map .int),
    (.responseTopic, props.responseTopic.map .str),
    (.correlationData, props.correlationData.map .bytes),
    (.subscriptionIdentifier, props.subscriptionIdentifier.map .int),
    (.contentType, props.contentType.map .str)]
  userProperties props := props.userProperties
  ofDict d := {
    payloadFormatIndicator := getInt d .payloadFormatIndicator
    messageExpiryInterval := getInt d .messageExpiryInterval
    topicAlias := getInt d .topicAlias
    responseTopic := getStr d .responseTopic
    correlationData := getBytes d .correlationData
    subscriptionIdentifier := getInt d .subscriptionIdentifier
    contentType := getStr d .contentType
    userProperties := userPairs d }

def pubAckSet : PropertySet PubAckProperties where
  fields props := [(.reasonString, props.reasonString.map .str)]
  userProperties props := props.userProperties
  ofDict d := {
    reasonString := getStr d .reasonString
    userProperties := userPairs d }

def subscribeSet : PropertySet SubscribeProperties where
  fields props := [(.subscriptionIdentifier, props.subscriptionIdentifier.map .int)]
  userProperties props := props.userProperties
  ofDict d := {
    subscriptionIdentifier := getInt d .subscriptionIdentifier
    userProperties := userPairs d }

def subAckSet : PropertySet SubAckProperties where
  fields props := [(.reasonString, props.reasonString.map .str)]
  userProperties props := props.userProperties
  ofDict d := {
    reasonString := getStr d .reasonString
    userProperties := userPairs d }

def unsubscribeSet : PropertySet UnsubscribeProperties where
  fields _ := []
  userProperties props := props.userProperties
  ofDict d := { userProperties := userPairs d }

def unsubAckSet : PropertySet UnsubAckProperties where
  fields props := [(.reasonString, props.reasonString.map .str)]
  userProperties props := props.userProperties
  ofDict d := {
    reasonString := getStr d .reasonString
    userProperties := userPairs d }

def disconnectSet : PropertySet DisconnectProperties where
  fields props := [
    (.sessionExpiryInterval, props.sessionExpiryInterval.map .int),
    (.reasonString, props.reasonString.map .str),
    (.serverReference, props.serverReference.map .str)]
  userProperties props := props.userProperties
  ofDict d := {
    sessionExpiryInterval := getInt d .sessionExpiryInterval
    reasonString := getStr d .reasonString
    serverReference := getStr d .serverReference
    userProperties := userPairs d }

def authSet : PropertySet AuthProperties where
  fields props := [
    (.authenticationMethod, props.authenticationMethod.map .str),
    (.authenticationData, props.authenticationData.map .bytes),
    (.reasonString, props.reasonString.map .str)]
  userProperties props := props.userProperties
  ofDict d := {
    authenticationMethod := getStr d .authenticationMethod
    authenticationData := getBytes d .authenticationData
    reasonString := getStr d .reasonString
    userProperties := userPairs d }

def encodeConnectProperties := encodeProperties connectSet
def encodeWillProperties := encodeProperties willSet
def encodeConnackProperties := encodeProperties connAckSet
def encodePublishProperties := encodeProperties publishSet
def encodePubackProperties := encodeProperties pubAckSet
def encodeSubscribeProperties := encodeProperties subscribeSet
def encodeSubackProperties := encodeProperties subAckSet
def encodeUnsubscribeProperties := encodeProperties unsubscribeSet
def encodeUnsubackProperties := encodeProperties unsubAckSet
def encodeDisconnectProperties := encodeProperties disconnectSet
def encodeAuthProperties := encodeProperties authSet

def decodeConnectProperties := decodeProperties connectSet
def decodeWillProperties := decodeProperties willSet
def decodeConnackProperties := decodeProperties connAckSet
def decodePublishProperties := decodeProperties publishSet
def decodePubackProperties := decodeProperties pubAckSet
def decodeSubscribeProperties := decodeProperties subscribeSet
def decodeSubackProperties := decodeProperties subAckSet
def decodeUnsubscribeProperties := decodeProperties unsubscribeSet
def decodeUnsubackProperties := decodeProperties unsubAckSet
def decodeDisconnectProperties := decodeProperties disconnectSet
def decodeAuthProperties := decodeProperties authSet

end Zmqtt
