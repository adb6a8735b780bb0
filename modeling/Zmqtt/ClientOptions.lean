import Mathlib.Data.Rat.Defs
import Zmqtt.FilterGrammar
import Zmqtt.Protocol
import Zmqtt.Reencode

/-!
# The checks of the client

`MQTTClient` checks what it is asked for before the protocol engine sees it: the options of
CONNECT once, in `__init__`, and the arguments of `publish`, `subscribe`, `request` and `auth`
at every call.  The codec silently leaves out what 3.1.1 has no place for, and raises on what
it cannot pack.  Behind the checks it leaves out nothing, and the properties of CONNECT can
only fail to encode by their total length.
-/

namespace Zmqtt

/-! ## Options of the connection -/

/-- What the checks raise.  A text that ends with the `repr` of a string keeps the string
instead. -/
inductive OptionError
  | valueError (msg : String) (value : Option Str)
  | runtimeError (msg : String)
  | invalidTopic (error : InvalidTopicError)
  | disconnected (msg : String)
  | encoding (error : CodecError)
deriving DecidableEq, Repr

/-- `_MAX_SUBSCRIPTION_IDENTIFIER`. -/
def maxSubscriptionIdentifier : Nat := 268435455

/-- `_MAX_SESSION_EXPIRY_INTERVAL`. -/
def maxSessionExpiryInterval : Nat := 4294967295

/-- `_MAX_RECEIVE_MAXIMUM`. -/
def maxReceiveMaximum : Nat := 65535

/-- `_MAX_PACKET_SIZE`. -/
def maxPacketSize : Nat := 268435460

/-- `_MAX_STRING_BYTES`. -/
def maxStringBytes : Nat := 65535

/-- The checks of `_validate_user_properties` on one string of a pair. -/
def validateUserString (s : Str) : Except OptionError Unit :=
  match encodeUtf8 s with
  | .error _ => .error (.valueError "user_properties strings must be valid UTF-8: " (some s))
  | .ok bytes =>
      if bytes.length > maxStringBytes then
        .error (.valueError
          s!"user_properties strings must not exceed {maxStringBytes} UTF-8 bytes" none)
      else if s.contains (CodePoint.ofChar (Char.ofNat 0)) then
        .error (.valueError "user_properties strings must not contain U+0000: " (some s))
      else .ok ()

/-- `_validate_user_properties`.  That the items are pairs of strings is their type. -/
def validateUserProperties : List (Str × Str) → Except OptionError (List (Str × Str))
  | [] => .ok []
  | (name, value) :: rest => do
      validateUserString name
      validateUserString value
      let rest ← validateUserProperties rest
      return (name, value) :: rest

/-- The arguments of `MQTTClient.__init__` that are checked or reach CONNECT. -/
structure ClientOptions where
  version : Version := .v311
  clientId : Str := []
  keepalive : Int := 60
  cleanSession : Bool := true
  username : Option Str := none
  password : Option Str := none
  will : Option Will := none
  mqttConnectTimeout : Rat := 30
  sessionExpiryInterval : Int := 0
  receiveMaximum : Option Int := none
  maximumPacketSize : Option Int := none
  userProperties : List (Str × Str) := []
  requestResponseInformation : Option Bool := none
  requestProblemInformation : Option Bool := none
  sessionReplayBufferSize : Int := 1000
  sessionReplayTimeout : Rat := 30

namespace ClientOptions

/-- The names of the options that need MQTT 5.0 and are set. -/
def configured (options : ClientOptions) : List String :=
  ([("receive_maximum", options.receiveMaximum.isSome),
    ("maximum_packet_size", options.maximumPacketSize.isSome),
    ("user_properties", decide (options.userProperties ≠ [])),
    ("request_response_information", options.requestResponseInformation.isSome),
    ("request_problem_information", options.requestProblemInformation.isSome)].filter
      Prod.snd).map Prod.fst

/-- `_build_connect_properties`. -/
def buildConnectProperties (options : ClientOptions) :
    Except OptionError (Option ConnectProperties) :=
  if options.version ≠ .v5 then
    if options.configured ≠ [] then
      .error (.runtimeError ("MQTT 5.0 is required for " ++ ", ".intercalate options.configured))
    else .ok none
  else if ¬(0 ≤ options.sessionExpiryInterval ∧
      options.sessionExpiryInterval ≤ maxSessionExpiryInterval) then
    .error (.valueError s!"session_expiry_interval must be in 0..{maxSessionExpiryInterval}" none)
  else if options.receiveMaximum.any fun n : Int => !decide (1 ≤ n ∧ n ≤ maxReceiveMaximum) then
    .error (.valueError s!"receive_maximum must be in 1..{maxReceiveMaximum}" none)
  else if options.maximumPacketSize.any fun n : Int => !decide (1 ≤ n ∧ n ≤ maxPacketSize) then
    .error (.valueError s!"maximum_packet_size must be in 1..{maxPacketSize}" none)
  else do
    let userProperties ← validateUserProperties options.userProperties
    return some
      { sessionExpiryInterval := some options.sessionExpiryInterval
        receiveMaximum := options.receiveMaximum
        maximumPacketSize := options.maximumPacketSize
        requestResponseInformation := options.requestResponseInformation
        requestProblemInformation := options.requestProblemInformation
        userProperties }

/-- The checks of `MQTTClient.__init__`, and the properties of every CONNECT. -/
def check (options : ClientOptions) : Except OptionError (Option ConnectProperties) :=
  if ¬0 < options.mqttConnectTimeout then
    .error (.valueError "mqtt_connect_timeout must be positive" none)
  else if options.sessionReplayBufferSize < 0 then
    .error (.valueError "session_replay_buffer_size must be non-negative" none)
  else if ¬0 < options.sessionReplayTimeout then
    .error (.valueError "session_replay_timeout must be positive" none)
  else if (options.will.bind Will.properties).isSome ∧ options.version ≠ .v5 then
    .error (.runtimeError "will properties require MQTT 5.0")
  else options.buildConnectProperties

end ClientOptions

/-- A client whose options were accepted. -/
structure ClientSettings where
  options : ClientOptions
  connectProperties : Option ConnectProperties
  accepted : options.check = .ok connectProperties

/-- `self._password.encode() if self._password is not None else None`. -/
def encodePasswordText : Option Str → Except CodecError (Option Bytes)
  | none => .ok none
  | some password => do return some (← encodeUtf8 password)

/-- The CONNECT of `_connect`. -/
def ClientSettings.connectPacket (settings : ClientSettings) : Except CodecError Connect := do
  let password ← encodePasswordText settings.options.password
  return {
    clientId := settings.options.clientId
    cleanSession := settings.options.cleanSession
    keepalive := settings.options.keepalive
    username := settings.options.username
    password
    will := settings.options.will
    properties := settings.connectProperties }

/-! ## Arguments of the calls -/

/-- `validate_publish`. -/
def validatePublish (topic : Str) : Except InvalidTopicError Unit :=
  if topic = [] then .error { msg := "Topic must not be empty" }
  else if topic.contains (CodePoint.ofChar '#') || topic.contains (CodePoint.ofChar '+') then
    .error { msg := "Wildcards not allowed in publish topic: ", topic := some topic }
  else if (topic.drop 1).contains (CodePoint.ofChar '$') then
    .error { msg := "'$' is only valid as the first character of a topic: ", topic := some topic }
  else .ok ()

/-- `validate_response_topic`. -/
def validateResponseTopic (topic : Str) : Except InvalidTopicError Unit := validatePublish topic

/-- The payload of `publish`, `bytes` or `str`. -/
inductive Payload
  | bytes (data : Bytes)
  | text (s : Str)
deriving DecidableEq, Repr

/-- `payload.encode()` on a `str`. -/
def Payload.encoded : Payload → Except CodecError Bytes
  | .bytes data => .ok data
  | .text s => encodeUtf8 s

/-- `MQTTClient.publish` up to the call of the protocol; `connected` says that there is one. -/
def clientPublish (version : Version) (connected : Bool) (topic : Str) (payload : Payload)
    (qos : QoS) (retain : Bool) (properties : Option PublishProperties) :
    Except OptionError Publish :=
  match validatePublish topic with
  | .error e => .error (.invalidTopic e)
  | .ok () =>
      if connected = false then .error (.disconnected "Not connected")
      else if properties.isSome ∧ version ≠ .v5 then
        .error (.runtimeError "properties require MQTT 5.0")
      else
        match payload.encoded with
        | .error e => .error (.encoding e)
        | .ok payload => .ok { topic, payload, qos, retain, dup := false, properties }

/-- The options of `MQTTClient.subscribe` that reach SUBSCRIBE. -/
structure SubscribeOptions where
  filters : List Str
  qos : QoS := .atMostOnce
  noLocal : Bool := false
  retainAsPublished : Bool := false
  retainHandling : RetainHandling := .sendOnSubscribe
  subscriptionIdentifier : Option Int := none
deriving DecidableEq, Repr

namespace SubscribeOptions

/-- An option that needs MQTT 5.0 is set. -/
def usesV5Option (options : SubscribeOptions) : Bool :=
  options.noLocal || options.retainAsPublished ||
    decide (options.retainHandling ≠ .sendOnSubscribe)

/-- The loop of `subscribe` over its filters. -/
def validateFilters : List Str → Except InvalidTopicError Unit
  | [] => .ok ()
  | filter :: rest => do
      validateSubscribeTopic filter
      validateFilters rest

/-- The checks of `MQTTClient.subscribe`. -/
def check (options : SubscribeOptions) (version : Version) : Except OptionError Unit :=
  match validateFilters options.filters with
  | .error e => .error (.invalidTopic e)
  | .ok () =>
      if options.usesV5Option ∧ version ≠ .v5 then
        .error (.runtimeError
          "no_local, retain_as_published, and retain_handling require MQTT 5.0")
      else
        match options.subscriptionIdentifier with
        | none => .ok ()
        | some identifier =>
            if version ≠ .v5 then
              .error (.runtimeError "subscription_identifier requires MQTT 5.0")
            else if ¬(1 ≤ identifier ∧ identifier ≤ maxSubscriptionIdentifier) then
              .error (.valueError "subscription_identifier must be in 1..268435455" none)
            else .ok ()

/-- The requests of `_do_subscribe`. -/
def requests (options : SubscribeOptions) : List SubscriptionRequest :=
  options.filters.map fun topicFilter =>
    { topicFilter
      qos := options.qos
      noLocal := options.noLocal
      retainAsPublished := options.retainAsPublished
      retainHandling := options.retainHandling }

end SubscribeOptions

/-- `n` in hexadecimal, for `n` below 16. -/
def hexDigit (n : Nat) : CodePoint :=
  CodePoint.ofChar (Nat.digitChar (n % 16))

/-- `data.hex()`. -/
def hex (data : Bytes) : Str :=
  data.flatMap fun byte => [hexDigit (byte.toNat / 16), hexDigit byte.toNat]

/-- The reply topic and the correlation data of `MQTTClient.request`; `topicBytes` and
`correlationBytes` are the answers of `os.urandom(16)`. -/
def requestKey (version : Version) (properties : Option PublishProperties)
    (topicBytes correlationBytes : Bytes) : Except OptionError (Str × Bytes) :=
  if version ≠ .v5 then .error (.runtimeError "request() requires MQTT 5.0")
  else
    let correlation :=
      (properties.bind PublishProperties.correlationData).getD correlationBytes
    match properties.bind PublishProperties.responseTopic with
    | none => .ok (str "_zmqtt/reply/" ++ hex topicBytes, correlation)
    | some topic =>
        match validateResponseTopic topic with
        | .error e => .error (.invalidTopic e)
        | .ok () => .ok (topic, correlation)

/-- The properties of the PUBLISH of a request. -/
def requestProperties (properties : Option PublishProperties) (key : Str × Bytes) :
    PublishProperties :=
  { properties.getD {} with responseTopic := some key.1, correlationData := some key.2 }

/-- `MQTTClient.auth` up to the call of the protocol. -/
def clientAuth (version : Version) (connected : Bool) (method : Str) (data : Option Bytes) :
    Except OptionError Auth :=
  if version ≠ .v5 then .error (.runtimeError "AUTH requires MQTT 5.0")
  else if connected = false then .error (.disconnected "Not connected")
  else
    .ok
      { reasonCode := 0x18
        properties := some { authenticationMethod := some method, authenticationData := data } }

/-! ## What the checks accept -/

/-- The bytes of a string on the wire, without its length. -/
def utf8Size (s : Str) : Nat :=
  match encodeUtf8 s with
  | .ok bytes => bytes.length
  | .error _ => 0

/-- The bytes of user properties on the wire. -/
def userPropertiesSize (kvs : List (Str × Str)) : Nat :=
  (kvs.map fun kv => 5 + utf8Size kv.1 + utf8Size kv.2).sum

theorem fits_of_validateUserString {s : Str} (h : validateUserString s = .ok ()) :
    Fits (encodeStr s) (2 + utf8Size s) := by
  unfold validateUserString at h
  cases hencoded : encodeUtf8 s with
  | error e => rw [hencoded] at h; cases h
  | ok bytes =>
      have hlength : bytes.length ≤ maxStringBytes := by
        by_contra hlong
        simp only [hencoded, if_pos (not_le.mp hlong)] at h
        cases h
      have hsize : utf8Size s = bytes.length := by rw [utf8Size, hencoded]
      unfold maxStringBytes at hlength
      rw [hsize, encodeStr, hencoded, ok_bind]
      apply (fits_packH (by omega)).bind
      intro prefixBytes hprefix
      exact fits_ok (by rw [List.length_append]; omega)

/-- User properties that pass the check are kept as they are, and can be encoded. -/
theorem validateUserProperties_ok {kvs kvs' : List (Str × Str)}
    (h : validateUserProperties kvs = .ok kvs') :
    kvs' = kvs ∧ Fits (encodeUserProperties .userProperty kvs) (userPropertiesSize kvs) := by
  induction kvs generalizing kvs' with
  | nil =>
      cases h
      exact ⟨rfl, fits_ok (Nat.le_refl _)⟩
  | cons kv kvs ih =>
      obtain ⟨name, value⟩ := kv
      obtain ⟨⟨⟩, hname, h⟩ := bind_eq_ok.mp h
      obtain ⟨⟨⟩, hvalue, h⟩ := bind_eq_ok.mp h
      obtain ⟨rest, hrest, h⟩ := bind_eq_ok.mp h
      cases h
      obtain ⟨rfl, htail⟩ := ih hrest
      refine ⟨rfl, ?_⟩
      have hsize : userPropertiesSize ((name, value) :: rest) =
          5 + utf8Size name + utf8Size value + userPropertiesSize rest := rfl
      rw [hsize]
      apply (fits_of_validateUserString hname).bind
      intro key hkey
      apply (fits_of_validateUserString hvalue).bind
      intro data hdata
      apply htail.bind
      intro tail htailLength
      apply fits_ok
      simp only [List.length_cons, List.length_append]
      omega

/-- A number in the range of its check. -/
theorem any_outside {limit : Nat} {value : Option Int}
    (h : ¬(value.any fun n : Int => !decide (1 ≤ n ∧ n ≤ limit)) = true) :
    ∀ n, value = some n → 1 ≤ n ∧ n ≤ limit := by
  intro n hn
  simpa [hn] using h

namespace ClientOptions

/-- The properties of the options as they are, on MQTT 5.0. -/
def connectProperties (options : ClientOptions) : ConnectProperties where
  sessionExpiryInterval := some options.sessionExpiryInterval
  receiveMaximum := options.receiveMaximum
  maximumPacketSize := options.maximumPacketSize
  requestResponseInformation := options.requestResponseInformation
  requestProblemInformation := options.requestProblemInformation
  userProperties := options.userProperties

/-- The options are in the ranges of their fields in CONNECT. -/
structure InRange (options : ClientOptions) : Prop where
  expiry : 0 ≤ options.sessionExpiryInterval ∧
    options.sessionExpiryInterval ≤ maxSessionExpiryInterval
  receiveMaximum : ∀ n, options.receiveMaximum = some n → 1 ≤ n ∧ n ≤ maxReceiveMaximum
  packetSize : ∀ n, options.maximumPacketSize = some n → 1 ≤ n ∧ n ≤ maxPacketSize
  userProperties : Fits (encodeUserProperties .userProperty options.userProperties)
    (userPropertiesSize options.userProperties)

/-- **The options that are accepted.**  On MQTT 5.0 the properties are the options, in the
ranges of their fields; on 3.1.1 there are none, and none of the options that need them is
set but the session expiry interval. -/
theorem check_ok {options : ClientOptions} {props : Option ConnectProperties}
    (h : options.check = .ok props) :
    (options.version = .v5 ∧ props = some options.connectProperties ∧ options.InRange) ∨
      (options.version = .v311 ∧ props = none ∧ options.configured = [] ∧
        options.will.bind Will.properties = none) := by
  unfold check at h
  split at h
  · cases h
  split at h
  · cases h
  split at h
  · cases h
  split at h
  · cases h
  rename_i hwill
  unfold buildConnectProperties at h
  cases hversion : options.version with
  | v311 =>
      rw [if_pos (by simp [hversion])] at h
      split at h
      · cases h
      · rename_i hconfigured
        cases h
        refine Or.inr ⟨rfl, rfl, not_not.mp hconfigured, ?_⟩
        simpa [hversion] using hwill
  | v5 =>
      rw [if_neg (by simp [hversion])] at h
      split at h
      · cases h
      rename_i hexpiry
      split at h
      · cases h
      rename_i hreceive
      split at h
      · cases h
      rename_i hsize
      obtain ⟨userProperties, huser, h⟩ := bind_eq_ok.mp h
      cases h
      obtain ⟨rfl, hfits⟩ := validateUserProperties_ok huser
      exact Or.inl ⟨rfl, rfl, not_not.mp hexpiry, any_outside hreceive, any_outside hsize, hfits⟩

end ClientOptions

/-! ## The properties of CONNECT -/

/-- The property of an integer field fits for the values of the field. -/
theorem fits_presentFields_int (pid : PropertyID) (value : Option Int) {d : PropDict} {m n : Nat}
    (hvalue : ∀ k, value = some k → Fits (encodeProp pid (.int k)) m)
    (hd : Fits (encodeProps d) n) :
    Fits (encodeProps (presentFields [(pid, value.map .int)] ++ d)) (m + n) := by
  cases value with
  | none => exact hd.mono (Nat.le_add_left _ _)
  | some k => exact fits_encodeProps_cons (hvalue k rfl) hd

theorem fits_presentFields_bool (pid : PropertyID) (hpid : pid.wireType = .byte)
    (value : Option Bool) {d : PropDict} {n : Nat} (hd : Fits (encodeProps d) n) :
    Fits (encodeProps (presentFields [(pid, value.map .bool)] ++ d)) (2 + n) := by
  cases value with
  | none => exact hd.mono (Nat.le_add_left _ _)
  | some b =>
      have hbyte : (if b then 1 else 0 : Int) = ((b.toNat : Nat) : Int) := by cases b <;> rfl
      have hlt : b.toNat < 256 := by
        have hle := b.toNat_le
        omega
      have hhead : Fits (encodeProp pid (.bool b)) 2 := by
        unfold encodeProp
        simp only [hpid, hbyte]
        exact fits_prop pid (fits_packB hlt)
      exact fits_encodeProps_cons hhead hd

theorem fits_up {kvs : List (Str × Str)} {n : Nat}
    (h : Fits (encodeUserProperties .userProperty kvs) n) : Fits (encodeProps (up kvs)) n := by
  unfold up
  split
  · exact fits_ok (Nat.zero_le _)
  · have hpairs : Fits (encodeProp .userProperty (.pairs kvs)) n := h
    have hnil : Fits (encodeProps []) 0 := ⟨[], rfl, Nat.le_refl _⟩
    exact fits_encodeProps_cons hpairs hnil

namespace ClientOptions

/-- The dictionary of the properties, field by field. -/
theorem toDict_connectProperties (options : ClientOptions) :
    connectSet.toDict options.connectProperties =
      presentFields [(.sessionExpiryInterval, (some options.sessionExpiryInterval).map .int)] ++
      (presentFields [(.receiveMaximum, options.receiveMaximum.map .int)] ++
      (presentFields [(.maximumPacketSize, options.maximumPacketSize.map .int)] ++
      (presentFields
        [(.requestResponseInformation, options.requestResponseInformation.map .bool)] ++
      (presentFields
        [(.requestProblemInformation, options.requestProblemInformation.map .bool)] ++
      up options.userProperties)))) := by
  have hcons : ∀ field (fields : List (PropertyID × Option PropValue)),
      presentFields (field :: fields) = presentFields [field] ++ presentFields fields := by
    intro field fields
    simp only [presentFields, List.filterMap_cons, List.filterMap_nil]
    cases field.2 <;> rfl
  simp only [PropertySet.toDict, connectSet, connectProperties]
  rw [hcons (.sessionExpiryInterval, _), hcons (.receiveMaximum, _), hcons (.maximumPacketSize, _),
    hcons (.topicAliasMaximum, _), hcons (.requestResponseInformation, _),
    hcons (.requestProblemInformation, _)]
  simp [presentFields]

/-- **What is accepted can be encoded.**  No property of CONNECT is refused by the codec. -/
theorem InRange.fits {options : ClientOptions} (h : options.InRange) :
    Fits (encodeProps (connectSet.toDict options.connectProperties))
      (17 + userPropertiesSize options.userProperties) := by
  have hnat : ∀ {k : Int}, 0 ≤ k → ((k.toNat : Nat) : Int) = k := fun hk => Int.toNat_of_nonneg hk
  have huint32 : ∀ (pid : PropertyID) (k : Int), pid.wireType = .uint32 → 0 ≤ k →
      k ≤ maxSessionExpiryInterval → Fits (encodeProp pid (.int k)) 5 := by
    intro pid k hpid hk hle
    have hpack := fits_packI (k := k.toNat) (by unfold maxSessionExpiryInterval at hle; omega)
    rw [hnat hk] at hpack
    unfold encodeProp
    simp only [hpid]
    exact fits_prop pid hpack
  have huint16 : ∀ (pid : PropertyID) (k : Int), pid.wireType = .uint16 → 0 ≤ k →
      k ≤ maxReceiveMaximum → Fits (encodeProp pid (.int k)) 3 := by
    intro pid k hpid hk hle
    have hpack := fits_packH (k := k.toNat) (by unfold maxReceiveMaximum at hle; omega)
    rw [hnat hk] at hpack
    unfold encodeProp
    simp only [hpid]
    exact fits_prop pid hpack
  have huser := fits_up h.userProperties
  have hproblem := fits_presentFields_bool .requestProblemInformation rfl
    options.requestProblemInformation huser
  have hresponse := fits_presentFields_bool .requestResponseInformation rfl
    options.requestResponseInformation hproblem
  have hsize := fits_presentFields_int .maximumPacketSize options.maximumPacketSize
    (fun k hk => by
      have hrange := h.packetSize k hk
      unfold maxPacketSize at hrange
      exact huint32 _ k rfl (by omega) (by unfold maxSessionExpiryInterval; omega)) hresponse
  have hreceive := fits_presentFields_int .receiveMaximum options.receiveMaximum
    (fun k hk => by
      have hrange := h.receiveMaximum k hk
      exact huint16 _ k rfl (by omega) hrange.2) hsize
  have hexpiry := fits_presentFields_int .sessionExpiryInterval
    (some options.sessionExpiryInterval)
    (fun k hk => by
      cases hk
      exact huint32 _ _ rfl h.expiry.1 h.expiry.2) hreceive
  rw [toDict_connectProperties]
  exact hexpiry.mono (by omega)

end ClientOptions

/-! ## Nothing is left out -/

/-- A round trip forgets no more of the packet than which of its properties objects were
empty. -/
def Faithful (version : Version) (packet : Packet) : Prop :=
  norm version packet = packet.dropEmpty

variable {version : Version}

theorem normProperties_of_none {P : Type} {S : PropertySet P} {props : Option P}
    (h : version ≠ .v5 → props = none) : normProperties S version props = S.norm props := by
  unfold normProperties
  split
  · rfl
  · rename_i hversion
    rw [h hversion]
    rfl

/-- The CONNECT of accepted options. -/
theorem ClientSettings.faithful (settings : ClientSettings) {packet : Connect}
    (h : settings.connectPacket = .ok packet) :
    Faithful settings.options.version (.connect packet) ∧
      packet.properties = settings.connectProperties ∧
      connectSet.norm packet.properties = packet.properties := by
  obtain ⟨password, -, h⟩ := bind_eq_ok.mp h
  cases h
  rcases ClientOptions.check_ok settings.accepted with
    ⟨hversion, hprops, -⟩ | ⟨hversion, hprops, -, hwill⟩
  · refine ⟨?_, rfl, ?_⟩
    · simp only [Faithful, norm, Packet.dropEmpty, Connect.norm, Connect.dropEmpty, hversion]
      rfl
    · simp only [hprops]
      rfl
  · refine ⟨?_, rfl, ?_⟩
    · have hnorm : settings.options.will.map (Will.norm .v311) =
          settings.options.will.map Will.dropEmpty := by
        cases hw : settings.options.will with
        | none => rfl
        | some will =>
            rw [hw, Option.bind_some] at hwill
            simp only [Option.map_some, Will.norm, Will.dropEmpty, hwill]
            rfl
      simp only [Faithful, norm, Packet.dropEmpty, Connect.norm, Connect.dropEmpty, hversion,
        hnorm, hprops]
      rfl
    · simp only [hprops]
      rfl

/-- What `publish` hands on. -/
theorem clientPublish_ok {connected : Bool} {topic : Str} {payload : Payload} {qos : QoS}
    {retain : Bool} {properties : Option PublishProperties} {publish : Publish}
    (h : clientPublish version connected topic payload qos retain properties = .ok publish) :
    connected = true ∧ validatePublish topic = .ok () ∧
      (version ≠ .v5 → properties = none) ∧
      ∃ data, payload.encoded = .ok data ∧
        publish = { topic, payload := data, qos, retain, dup := false, properties } := by
  unfold clientPublish at h
  split at h
  · cases h
  rename_i htopic
  split at h
  · cases h
  rename_i hconnected
  split at h
  · cases h
  rename_i hproperties
  split at h
  · cases h
  rename_i data hdata
  cases h
  refine ⟨by simpa using hconnected, htopic, fun hversion => ?_, data, hdata, rfl⟩
  simpa [hversion] using hproperties

/-- A PUBLISH with an identifier exactly if its QoS asks for one. -/
theorem faithful_publish {publish : Publish} {packetId : Option Int}
    (hid : publish.qos = .atMostOnce → packetId = none)
    (hproperties : version ≠ .v5 → publish.properties = none) :
    Faithful version (.publish { publish with packetId }) := by
  have hpid : (if publish.qos = .atMostOnce then none else packetId) = packetId := by
    split
    · rename_i hqos
      exact (hid hqos).symm
    · rfl
  simp only [Faithful, norm, Publish.norm, Packet.dropEmpty, hpid,
    normProperties_of_none hproperties]

/-- The options of `subscribe` that are accepted. -/
theorem SubscribeOptions.check_ok {options : SubscribeOptions}
    (h : options.check version = .ok ()) :
    (∀ filter ∈ options.filters, validateSubscribeTopic filter = .ok ()) ∧
      (version ≠ .v5 → options.usesV5Option = false ∧ options.subscriptionIdentifier = none) ∧
      ∀ identifier, options.subscriptionIdentifier = some identifier →
        1 ≤ identifier ∧ identifier ≤ maxSubscriptionIdentifier := by
  have hfilters : ∀ filters : List Str, validateFilters filters = .ok () →
      ∀ filter ∈ filters, validateSubscribeTopic filter = .ok () := by
    intro filters hok
    induction filters with
    | nil => simp
    | cons filter filters ih =>
        obtain ⟨⟨⟩, hfilter, hrest⟩ := bind_eq_ok.mp hok
        intro other hother
        rcases List.mem_cons.mp hother with rfl | hother
        · exact hfilter
        · exact ih hrest other hother
  unfold check at h
  split at h
  · cases h
  rename_i hvalid
  split at h
  · cases h
  rename_i hv5
  refine ⟨hfilters _ hvalid, fun hversion => ⟨by simpa [hversion] using hv5, ?_⟩,
    fun identifier hidentifier => ?_⟩
  · cases hidentifier : options.subscriptionIdentifier with
    | none => rfl
    | some identifier =>
        rw [hidentifier] at h
        simp only [if_pos hversion] at h
        cases h
  · rw [hidentifier] at h
    simp only at h
    split at h
    · cases h
    split at h
    · cases h
    · rename_i hrange
      exact not_not.mp hrange

/-- The SUBSCRIBE of accepted options. -/
theorem SubscribeOptions.faithful {options : SubscribeOptions}
    (h : options.check version = .ok ()) (packetId : Int) :
    Faithful version (.subscribe
      { packetId, subscriptions := options.requests
        properties := options.subscriptionIdentifier.map fun i =>
          { subscriptionIdentifier := some i } }) := by
  obtain ⟨-, hversion, -⟩ := check_ok h
  have hsubs : options.requests.map (SubscriptionRequest.norm version) = options.requests := by
    by_cases hv5 : version = .v5
    · rw [show SubscriptionRequest.norm version = id from by
        funext sub
        rw [SubscriptionRequest.norm, if_pos hv5, id], List.map_id]
    · obtain ⟨hoptions, -⟩ := hversion hv5
      simp only [usesV5Option, Bool.or_eq_false_iff, decide_eq_false_iff_not, not_not] at hoptions
      simp only [requests, List.map_map]
      congr 1
      funext topicFilter
      simp only [Function.comp, SubscriptionRequest.norm, if_neg hv5, hoptions.1.1, hoptions.1.2,
        hoptions.2]
  have hprops : version ≠ .v5 → options.subscriptionIdentifier.map (fun i =>
      ({ subscriptionIdentifier := some i } : SubscribeProperties)) = none := by
    intro hv5
    rw [(hversion hv5).2]
    rfl
  simp only [Faithful, norm, Subscribe.norm, Packet.dropEmpty, hsubs,
    normProperties_of_none hprops]

/-- The SUBSCRIBE for response topics. -/
theorem faithful_observers (version : Version) (packetId : Int) (topics : List Str) :
    Faithful version (.subscribe { packetId, subscriptions := topics.map observerRequest }) := by
  have hsubs : (topics.map observerRequest).map (SubscriptionRequest.norm version) =
      topics.map observerRequest := by
    rw [List.map_map]
    congr 1
    funext topic
    cases version <;> rfl
  simp only [Faithful, norm, Subscribe.norm, Packet.dropEmpty, hsubs]
  rw [normProperties_of_none fun _ => rfl]

theorem faithful_unsubscribe (version : Version) (packetId : Int) (topicFilters : List Str) :
    Faithful version (.unsubscribe { packetId, topicFilters }) := by
  simp only [Faithful, norm, Unsubscribe.norm, Packet.dropEmpty]
  rw [normProperties_of_none fun _ => rfl]

theorem faithful_pubrel (version : Version) (packetId : Int) :
    Faithful version (.pubrel { packetId }) := by
  simp only [Faithful, norm, PubReply.norm, Packet.dropEmpty, ite_self]
  rw [normProperties_of_none fun _ => rfl]

theorem faithful_auth (version : Version) (packet : Auth) : Faithful version (.auth packet) := rfl

end Zmqtt
