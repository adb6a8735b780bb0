import Zmqtt.Properties

/-!
# Packet classes

The dataclasses of `packets/connect.py`, `publish.py`, `subscribe.py`,
`disconnect.py`, `ping.py` and `auth.py`, with the enumerations they use.
-/

namespace Zmqtt

/-- The protocol versions `"3.1.1"` and `"5.0"`. -/
inductive Version
  | v311
  | v5
deriving DecidableEq, Repr

/-- `QoS`. -/
inductive QoS
  | atMostOnce
  | atLeastOnce
  | exactlyOnce
deriving DecidableEq, Repr

def QoS.value : QoS → Nat
  | .atMostOnce => 0
  | .atLeastOnce => 1
  | .exactlyOnce => 2

/-- `QoS(n)`. -/
def QoS.fromValue (n : Nat) : Except CodecError QoS :=
  match n with
  | 0 => .ok .atMostOnce
  | 1 => .ok .atLeastOnce
  | 2 => .ok .exactlyOnce
  | _ => .error (.valueError s!"{n} is not a valid QoS")

/-- `RetainHandling`. -/
inductive RetainHandling
  | sendOnSubscribe
  | sendIfNotExists
  | doNotSend
deriving DecidableEq, Repr

def RetainHandling.value : RetainHandling → Nat
  | .sendOnSubscribe => 0
  | .sendIfNotExists => 1
  | .doNotSend => 2

/-- `RetainHandling(n)`. -/
def RetainHandling.fromValue (n : Nat) : Except CodecError RetainHandling :=
  match n with
  | 0 => .ok .sendOnSubscribe
  | 1 => .ok .sendIfNotExists
  | 2 => .ok .doNotSend
  | _ => .error (.valueError s!"{n} is not a valid RetainHandling")

/-- `PacketType`. -/
inductive PacketType
  | connect | connack | publish | puback | pubrec | pubrel | pubcomp
  | subscribe | suback | unsubscribe | unsuback | pingreq | pingresp
  | disconnect | auth
deriving DecidableEq, Repr

def PacketType.value : PacketType → Nat
  | .connect => 1
  | .connack => 2
  | .publish => 3
  | .puback => 4
  | .pubrec => 5
  | .pubrel => 6
  | .pubcomp => 7
  | .subscribe => 8
  | .suback => 9
  | .unsubscribe => 10
  | .unsuback => 11
  | .pingreq => 12
  | .pingresp => 13
  | .disconnect => 14
  | .auth => 15

/-- `PacketType(n)`, with the message `decode` puts in place of the enum's own. -/
def PacketType.fromValue (n : Nat) : Except CodecError PacketType :=
  match n with
  | 1 => .ok .connect
  | 2 => .ok .connack
  | 3 => .ok .publish
  | 4 => .ok .puback
  | 5 => .ok .pubrec
  | 6 => .ok .pubrel
  | 7 => .ok .pubcomp
  | 8 => .ok .subscribe
  | 9 => .ok .suback
  | 10 => .ok .unsubscribe
  | 11 => .ok .unsuback
  | 12 => .ok .pingreq
  | 13 => .ok .pingresp
  | 14 => .ok .disconnect
  | 15 => .ok .auth
  | _ => .error (.valueError s!"Unknown MQTT packet type: {n}")

/-- `Will`. -/
structure Will where
  topic : Str
  payload : Bytes
  qos : QoS
  retain : Bool
  properties : Option WillProperties := none
deriving DecidableEq, Repr

/-- `Connect`. -/
structure Connect where
  clientId : Str
  cleanSession : Bool
  keepalive : Int
  username : Option Str := none
  password : Option Bytes := none
  will : Option Will := none
  properties : Option ConnectProperties := none
deriving DecidableEq, Repr

/-- `ConnAck`. -/
structure ConnAck where
  sessionPresent : Bool
  returnCode : Int
  properties : Option ConnAckProperties := none
deriving DecidableEq, Repr

/-- `Publish`. -/
structure Publish where
  topic : Str
  payload : Bytes
  qos : QoS
  retain : Bool
  dup : Bool
  packetId : Option Int := none
  properties : Option PublishProperties := none
deriving DecidableEq, Repr

/-- `PubAck`, `PubRec`, `PubRel` and `PubComp` share their fields. -/
structure PubReply where
  packetId : Int
  reasonCode : Int := 0
  properties : Option PubAckProperties := none
deriving DecidableEq, Repr

/-- `SubscriptionRequest`. -/
structure SubscriptionRequest where
  topicFilter : Str
  qos : QoS
  noLocal : Bool := false
  retainAsPublished : Bool := false
  retainHandling : RetainHandling := .sendOnSubscribe
deriving DecidableEq, Repr

/-- `Subscribe`. -/
structure Subscribe where
  packetId : Int
  subscriptions : List SubscriptionRequest
  properties : Option SubscribeProperties := none
deriving DecidableEq, Repr

/-- `SubAck`. -/
structure SubAck where
  packetId : Int
  returnCodes : List Int
  properties : Option SubAckProperties := none
deriving DecidableEq, Repr

/-- `Unsubscribe`. -/
structure Unsubscribe where
  packetId : Int
  topicFilters : List Str
  properties : Option UnsubscribeProperties := none
deriving DecidableEq, Repr

/-- `UnsubAck`. -/
structure UnsubAck where
  packetId : Int
  reasonCodes : List Int := []
  properties : Option UnsubAckProperties := none
deriving DecidableEq, Repr

/-- `Disconnect`. -/
structure Disconnect where
  reasonCode : Int := 0
  properties : Option DisconnectProperties := none
deriving DecidableEq, Repr

/-- `Auth`. -/
structure Auth where
  reasonCode : Int := 0
  properties : Option AuthProperties := none
deriving DecidableEq, Repr

/-- `AnyPacket`. -/
inductive Packet
  | connect (packet : Connect)
  | connack (packet : ConnAck)
  | publish (packet : Publish)
  | puback (packet : PubReply)
  | pubrec (packet : PubReply)
  | pubrel (packet : PubReply)
  | pubcomp (packet : PubReply)
  | subscribe (packet : Subscribe)
  | suback (packet : SubAck)
  | unsubscribe (packet : Unsubscribe)
  | unsuback (packet : UnsubAck)
  | pingreq
  | pingresp
  | disconnect (packet : Disconnect)
  | auth (packet : Auth)
deriving DecidableEq, Repr

end Zmqtt
