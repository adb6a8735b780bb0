import Zmqtt.CallWrites
import Zmqtt.ClientOptions
import Zmqtt.SessionStream

/-!
# What a client writes

`_connect` hands the limits of the options to the protocol and to the broker, in the same
CONNECT.  The application has a protocol only once `connect` has returned, so its calls run
behind the checks of the client and behind the limits of the CONNACK.

Two things are wider here than in the source.  Any filters may be unsubscribed, and the
observer calls and the PUBLISH of a request come in any order, not as `register`, `publish`
and `close` of one coroutine.
-/

namespace Zmqtt

/-- A client on one connection.  The last three fields record the run: the CONNACK that was
accepted, and what the calls that passed their checks asked for, oldest first. -/
structure ClientSession where
  settings : ClientSettings
  session : Session
  connack : Option ConnAck := none
  published : List Publish := []
  subscribed : List SubscribeOptions := []

/-- A step of the protocol, or a call of the application up to its first suspension. -/
inductive ClientSessionAction
  | session (action : SessionAction)
  | publish (topic : Str) (payload : Payload) (qos : QoS) (retain : Bool)
      (properties : Option PublishProperties) (write : WriteOutcome)
  | subscribe (options : SubscribeOptions) (queue : Nat) (autoAck : Bool)
  | unsubscribe (filters : List Str)
  | observe (properties : Option PublishProperties) (topicBytes correlationBytes : Bytes)
  | publishRequest (topic : Str) (payload : Payload) (qos : QoS)
      (properties : Option PublishProperties) (topicBytes correlationBytes : Bytes)
      (write : WriteOutcome)
  | unobserve (properties : Option PublishProperties) (topicBytes correlationBytes : Bytes)
  | auth (method : Str) (data : Option Bytes) (write : WriteOutcome)

/-- Steps of the protocol that no call of the application begins. -/
def SessionAction.isInner : SessionAction → Bool
  | .call (.publish _ _) => false
  | .call (.call _) => false
  | _ => true

namespace ClientSession

/-- `_connect` up to the first read. -/
def start (settings : ClientSettings) (config : InboundPublishFlow.Config) : ClientSession where
  settings
  session := Session.start settings.options.version
    (settings.connectProperties.bind ConnectProperties.maximumPacketSize)
    { config with
      sessionReplayBufferSize := settings.options.sessionReplayBufferSize.toNat
      receiveMaximum :=
        (settings.connectProperties.bind ConnectProperties.receiveMaximum).map Int.toNat }

def version (c : ClientSession) : Version := c.settings.options.version

/-- `self._protocol is not None`: `connect` has returned. -/
def connected (c : ClientSession) : Bool := c.connack.isSome

/-- The CONNACK that a step of the protocol has accepted. -/
def acceptedConnack (c : ClientSession) (session : Session) : Option ConnAck :=
  match c.session.phase, session.phase, c.session.front with
  | .connecting, .running, .ok (some (.connack packet, _)) => some packet
  | _, _, _ => c.connack

/-- A call reaches the protocol. -/
def call (c : ClientSession) (action : Connection.Action) : Option ClientSession :=
  (c.session.step (.call action)).map fun session => { c with session }

/-- `publish` behind its checks. -/
def sendPublish (c : ClientSession) (checked : Except OptionError Publish) (write : WriteOutcome) :
    Option ClientSession :=
  match checked with
  | .error _ => some c
  | .ok packet =>
      { c with published := c.published ++ [packet] }.call (.publish packet write)

/-- `subscribe` and the `start` of its `Subscription`. -/
def startSubscription (c : ClientSession) (options : SubscribeOptions) (queue : Nat)
    (autoAck : Bool) : Option ClientSession :=
  match options.check c.version with
  | .error _ => some c
  | .ok () =>
      if c.connected then
        { c with subscribed := c.subscribed ++ [options] }.call
          (.call (.subscribe options.requests queue autoAck options.subscriptionIdentifier))
      else some c

/-- `send_auth`. -/
def sendAuth (c : ClientSession) (packet : Auth) (write : WriteOutcome) : ClientSession :=
  match encode (.auth packet) c.version with
  | .error _ => c
  | .ok _ =>
      if write = .failed then c
      else
        { c with
          session := { c.session with
            connection := { c.session.connection with
              log := c.session.connection.log ++ [.wrote (.auth packet)] } } }

def step (c : ClientSession) : ClientSessionAction → Option ClientSession
  | .session action =>
      if action.isInner then
        (c.session.step action).map fun session =>
          { c with session, connack := c.acceptedConnack session }
      else none
  | .publish topic payload qos retain properties write =>
      c.sendPublish (clientPublish c.version c.connected topic payload qos retain properties) write
  | .subscribe options queue autoAck => c.startSubscription options queue autoAck
  | .unsubscribe filters => if c.connected then c.call (.call (.unsubscribe filters)) else some c
  | .observe properties topicBytes correlationBytes =>
      match requestKey c.version properties topicBytes correlationBytes with
      | .error _ => some c
      | .ok key =>
          if c.connected then c.call (.call (.addResponseObserver key.1)) else some c
  | .publishRequest topic payload qos properties topicBytes correlationBytes write =>
      match requestKey c.version properties topicBytes correlationBytes with
      | .error _ => some c
      | .ok key =>
          c.sendPublish (clientPublish c.version c.connected topic payload qos false
            (some (requestProperties properties key))) write
  | .unobserve properties topicBytes correlationBytes =>
      match requestKey c.version properties topicBytes correlationBytes with
      | .error _ => some c
      | .ok key =>
          if c.connected then c.call (.call (.removeResponseObserver key.1)) else some c
  | .auth method data write =>
      match clientAuth c.version c.connected method data with
      | .error _ => some c
      | .ok packet => some (c.sendAuth packet write)

end ClientSession

/-! ## Steps of a session -/

theorem PacketBuffer.feed_limits {buffer next : PacketBuffer} {exported : Bool} {data : Bytes}
    (h : buffer.feed exported data = some next) :
    next.version = buffer.version ∧ next.maxPacketSize = buffer.maxPacketSize := by
  unfold PacketBuffer.feed at h
  split at h
  · split at h <;> cases h
    exact ⟨rfl, rfl⟩
  · split at h <;> cases h
    exact ⟨rfl, rfl⟩

namespace InboundPublishFlow

/-- The limit of the receive quota is set once. -/
theorem receiveMaximum_step {s next : InboundPublishFlow} {action : Action}
    (hstep : s.step action = some next) : next.receiveMaximum = s.receiveMaximum := by
  have hrules : FlowRules (fun _ _ => True) (fun t => t.receiveMaximum = s.receiveMaximum)
      fun t _ _ => t.receiveMaximum = s.receiveMaximum :=
    FlowRules.ofSettings (P := fun _ _ limit => limit = s.receiveMaximum)
      (fun _ h => h) (fun _ _ h => h)
  exact hrules.step rfl trivial hstep

end InboundPublishFlow

/-- A PUBLISH that the broker takes after the CONNACK `packet`. -/
def ConnAck.Allows (packet : ConnAck) (version : Version) (publish : Publish) : Prop :=
  version = .v5 → ∀ properties, packet.properties = some properties →
    (∀ n, properties.maximumQos = some n → publish.qos.value ≤ n) ∧
      (properties.retainAvailable = some false → publish.retain = false)

/-- PUBLISH packets within the limits are those that the broker takes. -/
def ConnAck.LimitsTo (packet : ConnAck) (version : Version) (qos : QoS) (retain : Bool) : Prop :=
  ∀ publish : Publish, publish.qos.value ≤ qos.value → (publish.retain = true → retain = true) →
    packet.Allows version publish

namespace Session

variable {s next : Session} {action : SessionAction}

/-- The limits on what a session reads are those of its start. -/
structure KeepsLimits (s next : Session) : Prop where
  version : next.buffer.version = s.buffer.version
  limit : next.buffer.maxPacketSize = s.buffer.maxPacketSize
  receiveMaximum : next.flow.receiveMaximum = s.flow.receiveMaximum

/-- The outgoing half is untouched, or made a step of its own: the call of the action, or a
step of the read loop. -/
inductive Moves (action : SessionAction) (connection next : Connection) : Prop
  | same (h : next = connection)
  | inner (inner : Connection.Action) (hstep : connection.step inner = some next)
      (hcall : inner.isCall = true → action = .call inner)

/-- A step other than the one that accepts the CONNACK. -/
structure Passes (s : Session) (action : SessionAction) (next : Session) : Prop where
  limits : s.KeepsLimits next
  phase : next.phase = s.phase ∨ next.isOpen = false
  connection : Moves action s.connection next.connection

/-- The step that accepts the CONNACK: `connect` returns. -/
structure Accepts (s : Session) (packet : ConnAck) (next : Session) : Prop where
  limits : s.KeepsLimits next
  connecting : s.phase = .connecting
  running : next.phase = .running
  front : ∃ consumed, s.front = .ok (some (.connack packet, consumed))
  connection : ∃ qos retain,
    next.connection = { s.connection with maxPublishQos := qos, retainAvailable := retain } ∧
    packet.LimitsTo s.buffer.version qos retain

theorem setFlow_passes {flow : InboundPublishFlow} {inner : InboundPublishFlow.Action}
    (hstep : s.flow.step inner = some flow) : s.Passes action (s.setFlow flow) := by
  obtain ⟨hbuffer, hflow, hconnection⟩ := setFlow_fields s flow
  refine ⟨⟨by rw [hbuffer], by rw [hbuffer], ?_⟩, setFlow_phase s flow, .same hconnection⟩
  rw [hflow]
  exact InboundPublishFlow.receiveMaximum_step hstep

theorem setConnection_passes {connection : Connection} {inner : Connection.Action}
    (hstep : s.connection.step inner = some connection) (hinner : inner.isCall = false) :
    s.Passes action (s.setConnection connection) := by
  obtain ⟨hbuffer, hflow, hconnection⟩ := setConnection_fields s connection
  refine ⟨⟨by rw [hbuffer], by rw [hbuffer], by rw [hflow]⟩,
    setConnection_phase s connection, .inner inner ?_ fun hcall => ?_⟩
  · rw [hconnection]
    exact hstep
  · rw [hinner] at hcall
    cases hcall

theorem setPings_passes (pings : PingConnection) : s.Passes action (s.setPings pings) := by
  refine ⟨?_, (s.setPings_beside pings).phase, .same ?_⟩ <;> unfold setPings <;> split
  all_goals first | rfl | exact ⟨rfl, rfl, rfl⟩

/-- A handler of the read loop. -/
theorem dispatch_passes {packet : Packet} {claim : Option Nat} {write : WriteOutcome}
    (hnext : s.dispatch packet claim write = some next) : s.Passes action next := by
  cases packet with
  | publish packet =>
      obtain ⟨flow, hstep, rfl⟩ := Option.map_eq_some_iff.mp hnext
      exact setFlow_passes hstep
  | pubrel packet =>
      obtain ⟨flow, hstep, rfl⟩ := Option.map_eq_some_iff.mp hnext
      exact setFlow_passes hstep
  | pingresp =>
      cases hnext
      exact ⟨⟨rfl, rfl, rfl⟩, .inl rfl, .same rfl⟩
  | _ =>
      obtain ⟨connection, hstep, rfl⟩ := Option.map_eq_some_iff.mp hnext
      exact setConnection_passes hstep rfl

theorem maxPublishQos_value {properties : ConnAckProperties} {qos : QoS}
    (h : maxPublishQos properties = .ok qos) (n : Int) (hn : properties.maximumQos = some n) :
    (qos.value : Int) = n := by
  simp only [maxPublishQos, hn] at h
  split at h
  · cases h
  · rename_i hpositive
    obtain ⟨k, rfl⟩ := Int.eq_ofNat_of_zero_le (not_lt.mp hpositive)
    rw [Int.toNat_natCast] at h
    unfold QoS.fromValue at h
    split at h <;> cases h <;> rfl

/-- The limits of an accepted CONNACK. -/
theorem acceptConnack_limitsTo {packet : ConnAck} {qos : QoS} {retain : Bool}
    (h : s.acceptConnack (.connack packet) = s.begin packet qos retain) :
    packet.LimitsTo s.buffer.version qos retain := by
  have hbegin : ∀ {qos' : QoS} {retain' : Bool},
      s.begin packet qos' retain' = s.begin packet qos retain → qos' = qos ∧ retain' = retain :=
    fun heq => ⟨congrArg (fun t => t.connection.maxPublishQos) heq,
      congrArg (fun t => t.connection.retainAvailable) heq⟩
  have hleave : ∀ {escape : Escape}, s.leave escape ≠ s.begin packet qos retain := by
    intro escape heq
    cases congrArg Session.phase heq
  simp only [acceptConnack] at h
  split at h
  · exact absurd h hleave
  split at h
  · rename_i properties hversion hproperties
    split at h
    · exact absurd h hleave
    · rename_i limit hlimit
      obtain ⟨rfl, rfl⟩ := hbegin h
      intro publish hqos hretain _ properties' heq
      cases hproperties.symm.trans heq
      refine ⟨fun n hn => ?_, fun hfalse => ?_⟩
      · rw [← maxPublishQos_value hlimit n hn]
        exact Int.ofNat_le.mpr hqos
      · by_contra htrue
        simpa [hfalse] using hretain (by simpa using htrue)
  · rename_i hno
    intro publish _ _ hversion properties heq
    exact absurd heq (hno properties hversion)

/-- A round of the loop. -/
theorem next_passes {claim : Option Nat} {write : WriteOutcome}
    (hnext : s.next claim write = some next) :
    s.Passes action next ∨ ∃ packet, s.Accepts packet next := by
  unfold Session.next at hnext
  cases hfront : s.front with
  | error e =>
      simp only [hfront] at hnext
      cases hnext
      exact .inl ⟨⟨rfl, rfl, rfl⟩, .inr rfl, .same rfl⟩
  | ok found =>
      cases found with
      | none =>
          simp only [hfront] at hnext
          cases hnext
      | some found =>
          obtain ⟨packet, consumed⟩ := found
          simp only [hfront] at hnext
          split at hnext
          · rename_i hphase
            cases hnext
            rcases (s.advance consumed).acceptConnack_cases packet with
              ⟨escape, heq⟩ | ⟨connack, qos, retain, rfl, -, heq⟩
            · refine .inl ?_
              change s.Passes action ((s.advance consumed).acceptConnack packet)
              rw [heq]
              exact ⟨⟨rfl, rfl, rfl⟩, .inr rfl, .same rfl⟩
            · refine .inr ⟨connack, ?_⟩
              change s.Accepts connack ((s.advance consumed).acceptConnack (.connack connack))
              rw [heq]
              exact ⟨⟨rfl, rfl, rfl⟩, hphase, rfl, ⟨consumed, hfront⟩, qos, retain,
                rfl,
                (acceptConnack_limitsTo heq :)⟩
          · obtain ⟨hlimits, hphase, hconnection⟩ : (s.advance consumed).Passes action next :=
              dispatch_passes hnext
            exact .inl ⟨⟨hlimits.version, hlimits.limit, hlimits.receiveMaximum⟩, hphase,
              hconnection⟩
          · cases hnext

/-- **Every step of a session**, seen from the outgoing half. -/
theorem step_passes (hstep : s.step action = some next) :
    s.Passes action next ∨ ∃ packet, s.Accepts packet next := by
  obtain ⟨-, hstep⟩ := Option.ite_none_right_eq_some.mp hstep
  cases action with
  | read data =>
      obtain ⟨-, hfeed⟩ := Option.ite_none_right_eq_some.mp hstep
      obtain ⟨buffer, hbuffer, rfl⟩ := Option.map_eq_some_iff.mp hfeed
      obtain ⟨hversion, hlimit⟩ := PacketBuffer.feed_limits hbuffer
      exact .inl ⟨⟨hversion, hlimit, rfl⟩, .inl rfl, .same rfl⟩
  | next claim write =>
      obtain ⟨-, hnext⟩ := Option.ite_none_right_eq_some.mp hstep
      exact next_passes hnext
  | resumeDispatch ok =>
      obtain ⟨connection, hresume, rfl⟩ := Option.map_eq_some_iff.mp hstep
      exact .inl (setConnection_passes hresume rfl)
  | resumeInbound ok write =>
      obtain ⟨flow, hflow, rfl⟩ := Option.map_eq_some_iff.mp hstep
      exact .inl (setFlow_passes hflow)
  | call inner =>
      obtain ⟨-, hcall⟩ := Option.ite_none_right_eq_some.mp hstep
      obtain ⟨connection, hconnection, rfl⟩ := Option.map_eq_some_iff.mp hcall
      exact .inl ⟨⟨rfl, rfl, rfl⟩, .inl rfl, .inner inner hconnection fun _ => rfl⟩
  | inbound inner =>
      obtain ⟨-, hinbound⟩ := Option.ite_none_right_eq_some.mp hstep
      obtain ⟨flow, hflow, rfl⟩ := Option.map_eq_some_iff.mp hinbound
      exact .inl ⟨⟨rfl, rfl, InboundPublishFlow.receiveMaximum_step hflow⟩, .inl rfl, .same rfl⟩
  | ping inner =>
      obtain ⟨-, hping⟩ := Option.ite_none_right_eq_some.mp hstep
      obtain ⟨pings, -, rfl⟩ := Option.map_eq_some_iff.mp hping
      exact .inl (setPings_passes pings)
  | keepalive write =>
      simp only at hstep
      split at hstep
      · cases hstep
        have hpings : Passes { s with keepalive := some s.pings.calls.length } (.keepalive write)
            ({ s with keepalive := some s.pings.calls.length }.setPings (s.pings.ping write)) :=
          setPings_passes _
        obtain ⟨hlimits, hphase, hconnection⟩ := hpings
        exact .inl ⟨⟨hlimits.version, hlimits.limit, hlimits.receiveMaximum⟩, hphase, hconnection⟩
      · cases hstep

end Session

/-! ## Runs of a client -/

/-- A PUBLISH as it was asked for, before it got an identifier. -/
def Packet.published? : Packet → Option Publish
  | .publish packet => some { packet with packetId := none }
  | _ => none

/-- The client asked for the SUBSCRIBE: some accepted options say what is in it, or it is
for the response topics of `request` and carries nothing else. -/
def Subscribe.AskedBy (packet : Subscribe) (subscribed : List SubscribeOptions) : Prop :=
  (∃ options ∈ subscribed, packet.subscriptions = options.requests ∧
    packet.properties = options.subscriptionIdentifier.map fun i =>
      { subscriptionIdentifier := some i }) ∨
  ∃ topics : List Str, packet.subscriptions = topics.map observerRequest ∧ packet.properties = none

namespace ClientSession

/-- The packets written on the connection, oldest first. -/
def sent (c : ClientSession) : List Packet := wire c.session.connection.log

/-- What the calls of the client may ask the protocol for. -/
def Asks (subscribed : List SubscribeOptions) : GuardedCall → Prop
  | .subscribe filters _ _ identifier => ∃ options ∈ subscribed,
      filters = options.requests ∧ identifier = options.subscriptionIdentifier
  | _ => True

/-- A PUBLISH that passed the checks of the client. -/
structure CheckedPublish (version : Version) (publish : Publish) : Prop where
  topic : validatePublish publish.topic = .ok ()
  dup : publish.dup = false
  packetId : publish.packetId = none
  properties : version ≠ .v5 → publish.properties = none

theorem checkedPublish {version : Version} {connected : Bool} {topic : Str} {payload : Payload}
    {qos : QoS} {retain : Bool} {properties : Option PublishProperties} {publish : Publish}
    (h : clientPublish version connected topic payload qos retain properties = .ok publish) :
    CheckedPublish version publish ∧ connected = true := by
  obtain ⟨hconnected, htopic, hversion, data, -, rfl⟩ := clientPublish_ok h
  exact ⟨⟨htopic, rfl, rfl, hversion⟩, hconnected⟩

/-- What is true of a packet on the wire. -/
structure SentWell (version : Version) (connack : Option ConnAck)
    (subscribed : List SubscribeOptions) (packet : Packet) : Prop where
  encodes : Encodes (encode packet version)
  faithful : Faithful version packet
  publish : ∀ publish, packet = .publish publish → ∃ accepted, connack = some accepted ∧
    accepted.Allows version publish ∧ validatePublish publish.topic = .ok () ∧
    publish.dup = false ∧ (publish.packetId.isSome = true ↔ publish.qos ≠ .atMostOnce)
  subscribe : ∀ subscribe, packet = .subscribe subscribe → subscribe.AskedBy subscribed

/-- What holds along the runs of a client. -/
structure Kept (settings : ClientSettings) (limit : Option Int) (receiveMaximum : Option Nat)
    (c : ClientSession) : Prop where
  settings_eq : c.settings = settings
  version_eq : c.session.buffer.version = settings.options.version
  connectionVersion : c.session.connection.version = settings.options.version
  limit_eq : c.session.buffer.maxPacketSize = limit
  receiveMaximum_eq : c.session.flow.receiveMaximum = receiveMaximum
  connecting : c.session.phase = .connecting → c.connack = none
  connack : ∀ accepted, c.connack = some accepted → accepted.LimitsTo settings.options.version
    c.session.connection.maxPublishQos c.session.connection.retainAvailable
  subscribed : ∀ options ∈ c.subscribed, options.check settings.options.version = .ok ()
  admitted : c.session.connection.Admitted (Asks c.subscribed)
  published : (c.sent.filterMap Packet.published?).Sublist c.published
  sentWell : ∀ packet ∈ c.sent,
    SentWell settings.options.version c.connack c.subscribed packet

variable {settings : ClientSettings} {limit : Option Int} {receiveMaximum : Option Nat}
  {c next : ClientSession}

/-! ### A packet -/

theorem Asks.mono {subscribed more : List SubscribeOptions} {guarded : GuardedCall}
    (h : Asks subscribed guarded) (hmore : subscribed ⊆ more) : Asks more guarded := by
  cases guarded with
  | subscribe filters queue autoAck identifier =>
      obtain ⟨options, hoptions, hasked⟩ := h
      exact ⟨options, hmore hoptions, hasked⟩
  | _ => trivial

theorem SentWell.mono {version : Version} {connack : Option ConnAck}
    {subscribed more : List SubscribeOptions} {packet : Packet}
    (h : SentWell version connack subscribed packet) (hmore : subscribed ⊆ more) :
    SentWell version connack more packet := by
  refine ⟨h.encodes, h.faithful, h.publish, fun subscribe heq => ?_⟩
  rcases h.subscribe subscribe heq with ⟨options, hoptions, hasked⟩ | htopics
  · exact .inl ⟨options, hmore hoptions, hasked⟩
  · exact .inr htopics

theorem SentWell.other {version : Version} {connack : Option ConnAck}
    {subscribed : List SubscribeOptions} {packet : Packet}
    (hencodes : Encodes (encode packet version)) (hfaithful : Faithful version packet)
    (hpublish : ∀ publish, packet ≠ .publish publish)
    (hsubscribe : ∀ subscribe, packet ≠ .subscribe subscribe) :
    SentWell version connack subscribed packet :=
  ⟨hencodes, hfaithful, fun _ heq => absurd heq (hpublish _),
    fun _ heq => absurd heq (hsubscribe _)⟩

/-- The packet of a request that the client asked for. -/
theorem Kept.request (h : c.Kept settings limit receiveMaximum) {guarded : GuardedCall}
    {request : Request} (hasks : Asks c.subscribed guarded) (hserves : Serves guarded request)
    (pid : Nat) (hencodes : Encodes (encode (request.packet pid) settings.options.version)) :
    SentWell settings.options.version c.connack c.subscribed (request.packet pid) := by
  have hunsubscribe : ∀ topicFilters : List Str,
      Encodes (encode (.unsubscribe { packetId := pid, topicFilters }) settings.options.version) →
      SentWell settings.options.version c.connack c.subscribed
        (.unsubscribe { packetId := pid, topicFilters }) :=
    fun _ hencodes => .other hencodes (faithful_unsubscribe _ _ _) (by simp) (by simp)
  have hobservers : ∀ topics : List Str,
      Encodes (encode (.subscribe { packetId := pid, subscriptions := topics.map observerRequest })
        settings.options.version) →
      SentWell settings.options.version c.connack c.subscribed
        (.subscribe { packetId := pid, subscriptions := topics.map observerRequest }) := by
    intro topics hencodes
    refine ⟨hencodes, faithful_observers _ _ _, by simp, fun subscribe heq => ?_⟩
    cases heq
    exact .inr ⟨topics, rfl, rfl⟩
  cases hserves with
  | subscribe filters queue autoAck identifier newEntries =>
      obtain ⟨options, hoptions, rfl, rfl⟩ := hasks
      refine ⟨hencodes, SubscribeOptions.faithful (h.subscribed options hoptions) _,
        fun publish heq => absurd heq (by simp [Request.packet]), fun subscribe heq => ?_⟩
      cases heq
      exact .inl ⟨options, hoptions, rfl, rfl⟩
  | unsubscribe observedFilters hfilters => exact hunsubscribe _ hencodes
  | restoreObservers filters acknowledged observedFilters => exact hobservers _ hencodes
  | addObserver topic => exact hobservers [topic] hencodes
  | removeObserver topic => exact hunsubscribe [topic] hencodes

/-- What a step was asked to publish. -/
def asked : Connection.Action → List Publish
  | .publish packet _ => [packet]
  | _ => []

/-- The packet of a step. -/
theorem Kept.wrote (h : c.Kept settings limit receiveMaximum) {inner : Connection.Action}
    {packet : Packet}
    (hmay : Connection.MayWrite (Asks c.subscribed) c.session.connection inner packet)
    (hencodes : Encodes (encode packet settings.options.version))
    (hchecked : ∀ publish ∈ asked inner,
      CheckedPublish settings.options.version publish ∧ c.connected = true) :
    SentWell settings.options.version c.connack c.subscribed packet ∧
      packet.published?.toList = asked inner := by
  cases hmay with
  | @publish publish write packetId hqos hretain hnone hsome =>
      obtain ⟨hpublish, hconnected⟩ := hchecked publish (List.mem_singleton.mpr rfl)
      obtain ⟨accepted, hconnack⟩ := Option.isSome_iff_exists.mp hconnected
      have hzero : publish.qos = .atMostOnce → packetId = none :=
        fun hqos => (hnone hqos).trans hpublish.packetId
      refine ⟨⟨hencodes, faithful_publish hzero hpublish.properties, fun other heq => ?_,
        by simp⟩, ?_⟩
      · cases heq
        refine ⟨accepted, hconnack, h.connack accepted hconnack _ hqos hretain, hpublish.topic,
          hpublish.dup, fun hid hqos => ?_, hsome⟩
        have hnoId : packetId.isSome = true := hid
        rw [hzero hqos] at hnoId
        cases hnoId
      · simp only [Packet.published?, ← hpublish.packetId]
        rfl
  | @request _ guarded request pid hadmits hserves hcaller =>
      refine ⟨h.request hadmits hserves pid hencodes, ?_⟩
      have hpublish : asked inner = [] := by
        cases inner with
        | publish packet write => cases hcaller
        | _ => rfl
      rw [hpublish]
      cases hserves <;> rfl
  | pubrel =>
      exact ⟨.other hencodes (faithful_pubrel _ _) (by simp) (by simp), rfl⟩

/-! ### A step -/

/-- A step of the outgoing half. -/
theorem Kept.inner (h : c.Kept settings limit receiveMaximum) {session : Session}
    {inner : Connection.Action} (hlimits : c.session.KeepsLimits session)
    (hphase : session.phase = .connecting → c.session.phase = .connecting)
    (hstep : c.session.connection.step inner = some session.connection)
    (hasks : ∀ guarded, inner = .call guarded → Asks c.subscribed guarded)
    (hchecked : ∀ publish ∈ asked inner,
      CheckedPublish settings.options.version publish ∧ c.connected = true) :
    { c with session, published := c.published ++ asked inner }.Kept settings limit
      receiveMaximum := by
  obtain ⟨hadmitted, hwrites⟩ := h.admitted.step hasks hstep
  have hconnection := hwrites.limits
  simp only [Connection.limits, Prod.mk.injEq] at hconnection
  obtain ⟨hversion, hqos, hretain⟩ := hconnection
  have hpublished : (c.sent.filterMap Packet.published?).Sublist (c.published ++ asked inner) :=
    h.published.trans (List.sublist_append_left _ _)
  refine
    { settings_eq := h.settings_eq
      version_eq := hlimits.version.trans h.version_eq
      connectionVersion := hversion.trans h.connectionVersion
      limit_eq := hlimits.limit.trans h.limit_eq
      receiveMaximum_eq := hlimits.receiveMaximum.trans h.receiveMaximum_eq
      connecting := fun hsame => h.connecting (hphase hsame)
      connack := by
        simp only [hqos, hretain]
        exact h.connack
      subscribed := h.subscribed
      admitted := hadmitted
      published := ?_
      sentWell := ?_ }
  · rcases hwrites.written with hsame | ⟨packet, hmay, hencodes, hwrote⟩
    · simpa only [sent, hsame] using hpublished
    · rw [h.connectionVersion] at hencodes
      obtain ⟨-, htoList⟩ := h.wrote hmay hencodes hchecked
      simp only [sent, hwrote, List.filterMap_append]
      refine h.published.append ?_
      rw [← htoList]
      cases hpublished : packet.published? <;> simp [hpublished]
  · rcases hwrites.written with hsame | ⟨packet, hmay, hencodes, hwrote⟩
    · simpa only [sent, hsame] using h.sentWell
    · rw [h.connectionVersion] at hencodes
      intro other hother
      simp only [sent, hwrote] at hother
      rcases List.mem_append.mp hother with hother | hother
      · exact h.sentWell other hother
      · cases List.mem_singleton.mp hother
        exact (h.wrote hmay hencodes hchecked).1

/-- A call that asks for nothing to be published. -/
theorem Kept.call (h : c.Kept settings limit receiveMaximum) {inner : Connection.Action}
    (hasks : ∀ guarded, inner = .call guarded → Asks c.subscribed guarded)
    (hchecked : ∀ publish ∈ asked inner,
      CheckedPublish settings.options.version publish ∧ c.connected = true)
    (hcall : { c with published := c.published ++ asked inner }.call inner = some next) :
    next.Kept settings limit receiveMaximum := by
  obtain ⟨session, hsession, rfl⟩ := Option.map_eq_some_iff.mp hcall
  obtain ⟨-, hsession⟩ := Option.ite_none_right_eq_some.mp hsession
  obtain ⟨-, hsession⟩ := Option.ite_none_right_eq_some.mp hsession
  obtain ⟨connection, hconnection, rfl⟩ := Option.map_eq_some_iff.mp hsession
  exact h.inner ⟨rfl, rfl, rfl⟩ (fun hphase => hphase) hconnection hasks hchecked

/-- A call that makes requests. -/
theorem Kept.guarded (h : c.Kept settings limit receiveMaximum) {guarded : GuardedCall}
    (hasks : Asks c.subscribed guarded) (hcall : c.call (.call guarded) = some next) :
    next.Kept settings limit receiveMaximum := by
  have hnone : asked (.call guarded) = [] := rfl
  have hsame : { c with published := c.published ++ asked (.call guarded) } = c := by
    rw [hnone, List.append_nil]
  rw [← hsame] at hcall
  refine h.call (fun other heq => ?_) (fun publish hpublish => ?_) hcall
  · cases heq
    exact hasks
  · rw [hnone] at hpublish
    cases hpublish

/-- A call of a connected client for which any arguments are allowed. -/
theorem Kept.connectedCall (h : c.Kept settings limit receiveMaximum) {guarded : GuardedCall}
    (hasks : Asks c.subscribed guarded)
    (hstep : (if c.connected then c.call (.call guarded) else some c) = some next) :
    next.Kept settings limit receiveMaximum := by
  split at hstep
  · exact h.guarded hasks hstep
  · cases hstep
    exact h

theorem Kept.sendPublish (h : c.Kept settings limit receiveMaximum)
    {checked : Except OptionError Publish} {write : WriteOutcome}
    (hchecked : ∀ publish, checked = .ok publish →
      CheckedPublish settings.options.version publish ∧ c.connected = true)
    (hstep : c.sendPublish checked write = some next) :
    next.Kept settings limit receiveMaximum := by
  unfold ClientSession.sendPublish at hstep
  split at hstep
  · cases hstep
    exact h
  · refine h.call (fun _ heq => by cases heq) (fun publish hpublish => ?_) hstep
    cases List.mem_singleton.mp hpublish
    exact hchecked _ rfl

theorem Kept.startSubscription (h : c.Kept settings limit receiveMaximum)
    {options : SubscribeOptions} {queue : Nat} {autoAck : Bool}
    (hstep : c.startSubscription options queue autoAck = some next) :
    next.Kept settings limit receiveMaximum := by
  unfold ClientSession.startSubscription at hstep
  split at hstep
  · cases hstep
    exact h
  · rename_i hchecked
    split at hstep
    · have hversion : c.version = settings.options.version := by rw [version, h.settings_eq]
      rw [hversion] at hchecked
      have hmore : c.subscribed ⊆ c.subscribed ++ [options] := List.subset_append_left _ _
      have hoptions : options ∈ c.subscribed ++ [options] := by simp
      have hkept : { c with subscribed := c.subscribed ++ [options] }.Kept settings limit
          receiveMaximum :=
        { h with
          subscribed := by
            intro other hother
            rcases List.mem_append.mp hother with hother | hother
            · exact h.subscribed other hother
            · cases List.mem_singleton.mp hother
              exact hchecked
          admitted := h.admitted.mono fun _ hasks => hasks.mono hmore
          sentWell := fun packet hpacket => (h.sentWell packet hpacket).mono hmore }
      have hasks : Asks (c.subscribed ++ [options])
          (.subscribe options.requests queue autoAck options.subscriptionIdentifier) :=
        ⟨options, hoptions, rfl, rfl⟩
      exact hkept.guarded hasks hstep
    · cases hstep
      exact h

theorem Kept.sendAuth (h : c.Kept settings limit receiveMaximum) (packet : Auth)
    (write : WriteOutcome) : (c.sendAuth packet write).Kept settings limit receiveMaximum := by
  unfold ClientSession.sendAuth
  split
  · exact h
  rename_i bytes hencode
  split
  · exact h
  have hversion : c.version = settings.options.version := by rw [version, h.settings_eq]
  rw [hversion] at hencode
  exact
    { h with
      admitted := h.admitted.of_calls rfl
      published := by
        simp only [sent, wire_append, List.filterMap_append]
        exact (List.append_nil _).symm ▸ h.published
      sentWell := by
        intro other hother
        simp only [sent, wire_append] at hother
        rcases List.mem_append.mp hother with hother | hother
        · exact h.sentWell other hother
        · cases List.mem_singleton.mp hother
          exact .other ⟨bytes, hencode⟩ (faithful_auth _ _) (by simp) (by simp) }

/-- A step that no call begins. -/
theorem Kept.session (h : c.Kept settings limit receiveMaximum) {action : SessionAction}
    {session : Session} (hinner : action.isInner = true)
    (hstep : c.session.step action = some session) :
    { c with session, connack := c.acceptedConnack session }.Kept settings limit
      receiveMaximum := by
  rcases Session.step_passes hstep with ⟨hlimits, hphase, hmoves⟩ | ⟨packet, haccepts⟩
  · have hsame : session.phase = .connecting → c.session.phase = .connecting := by
      intro hconnecting
      rcases hphase with heq | hclosed
      · rw [← heq, hconnecting]
      · rw [Session.isOpen, hconnecting] at hclosed
        cases hclosed
    have hconnack : c.acceptedConnack session = c.connack := by
      unfold acceptedConnack
      split
      · rename_i hconnecting hrunning _
        rcases hphase with heq | hclosed
        · cases hconnecting.symm.trans (heq.symm.trans hrunning)
        · rw [Session.isOpen, hrunning] at hclosed
          cases hclosed
      · rfl
    rw [hconnack]
    cases hmoves with
    | same hconnection =>
        exact
          { settings_eq := h.settings_eq
            version_eq := hlimits.version.trans h.version_eq
            connectionVersion := by
              rw [hconnection]
              exact h.connectionVersion
            limit_eq := hlimits.limit.trans h.limit_eq
            receiveMaximum_eq := hlimits.receiveMaximum.trans h.receiveMaximum_eq
            connecting := fun hconnecting => h.connecting (hsame hconnecting)
            connack := by
              rw [hconnection]
              exact h.connack
            subscribed := h.subscribed
            admitted := by
              rw [hconnection]
              exact h.admitted
            published := by
              simp only [sent, hconnection]
              exact h.published
            sentWell := by
              simp only [sent, hconnection]
              exact h.sentWell }
    | inner inner hconnection hcall =>
        have hnone : asked inner = [] ∧ ∀ guarded, inner ≠ .call guarded := by
          cases inner with
          | publish packet write =>
              cases hcall rfl
              cases hinner
          | call guarded =>
              cases hcall rfl
              cases hinner
          | _ => exact ⟨rfl, by simp⟩
        have hkept := h.inner hlimits hsame hconnection
          (fun guarded heq => absurd heq (hnone.2 guarded))
          (fun publish hpublish => by rw [hnone.1] at hpublish; cases hpublish)
        rw [hnone.1, List.append_nil] at hkept
        exact hkept
  · obtain ⟨hlimits, hconnecting, hrunning, ⟨consumed, hfront⟩, qos, retain, hconnection,
      hallows⟩ := haccepts
    have hconnack : c.acceptedConnack session = some packet := by
      unfold acceptedConnack
      rw [hconnecting, hrunning, hfront]
    have hsent : ∀ connack, ({ c with session, connack } : ClientSession).sent = c.sent := by
      intro connack
      simp only [sent, hconnection]
    have hnone := h.connecting hconnecting
    refine
      { settings_eq := h.settings_eq
        version_eq := hlimits.version.trans h.version_eq
        connectionVersion := by
          rw [hconnection]
          exact h.connectionVersion
        limit_eq := hlimits.limit.trans h.limit_eq
        receiveMaximum_eq := hlimits.receiveMaximum.trans h.receiveMaximum_eq
        connecting := fun heq => by cases hrunning.symm.trans heq
        connack := fun accepted heq => ?_
        subscribed := h.subscribed
        admitted := by
          rw [hconnection]
          exact h.admitted.of_calls rfl
        published := by
          rw [hsent]
          exact h.published
        sentWell := fun other hother => ?_ }
    · rw [hconnack] at heq
      cases heq
      rw [hconnection, ← h.version_eq]
      exact hallows
    · rw [hsent] at hother
      obtain ⟨hencodes, hfaithful, hpublish, hsubscribe⟩ := h.sentWell other hother
      refine ⟨hencodes, hfaithful, fun publish heq => ?_, hsubscribe⟩
      obtain ⟨accepted, hsome, -⟩ := hpublish publish heq
      rw [hnone] at hsome
      cases hsome

/-- **One step** of a client. -/
theorem Kept.step (h : c.Kept settings limit receiveMaximum) {action : ClientSessionAction}
    (hstep : c.step action = some next) : next.Kept settings limit receiveMaximum := by
  have hversion : c.version = settings.options.version := by rw [version, h.settings_eq]
  cases action with
  | session action =>
      obtain ⟨hinner, hstep⟩ := Option.ite_none_right_eq_some.mp hstep
      obtain ⟨session, hsession, rfl⟩ := Option.map_eq_some_iff.mp hstep
      exact h.session hinner hsession
  | publish topic payload qos retain properties write =>
      refine h.sendPublish (fun publish hchecked => ?_) hstep
      rw [hversion] at hchecked
      exact checkedPublish hchecked
  | subscribe options queue autoAck => exact h.startSubscription hstep
  | unsubscribe filters =>
      have hasks : Asks c.subscribed (.unsubscribe filters) := trivial
      exact h.connectedCall hasks hstep
  | observe properties topicBytes correlationBytes =>
      simp only [ClientSession.step] at hstep
      split at hstep
      · cases hstep
        exact h
      · rename_i key _
        have hasks : Asks c.subscribed (.addResponseObserver key.1) := trivial
        exact h.connectedCall hasks hstep
  | publishRequest topic payload qos properties topicBytes correlationBytes write =>
      simp only [ClientSession.step] at hstep
      split at hstep
      · cases hstep
        exact h
      · refine h.sendPublish (fun publish hchecked => ?_) hstep
        rw [hversion] at hchecked
        exact checkedPublish hchecked
  | unobserve properties topicBytes correlationBytes =>
      simp only [ClientSession.step] at hstep
      split at hstep
      · cases hstep
        exact h
      · rename_i key _
        have hasks : Asks c.subscribed (.removeResponseObserver key.1) := trivial
        exact h.connectedCall hasks hstep
  | auth method data write =>
      simp only [ClientSession.step] at hstep
      split at hstep
      · cases hstep
        exact h
      · cases hstep
        exact h.sendAuth _ _

theorem kept_start (settings : ClientSettings) (config : InboundPublishFlow.Config) :
    (start settings config).Kept settings
      (settings.connectProperties.bind ConnectProperties.maximumPacketSize)
      ((settings.connectProperties.bind ConnectProperties.receiveMaximum).map Int.toNat) where
  settings_eq := rfl
  version_eq := rfl
  connectionVersion := rfl
  limit_eq := rfl
  receiveMaximum_eq := rfl
  connecting _ := rfl
  connack _ heq := by cases heq
  subscribed _ hoptions := by cases hoptions
  admitted := ⟨by simp [start, Session.start], by simp [start, Session.start]⟩
  published := List.Sublist.refl _
  sentWell _ hpacket := by cases hpacket

theorem Kept.run {config : InboundPublishFlow.Config} {actions : List ClientSessionAction}
    (hrun : Transition.run ClientSession.step (start settings config) actions = some c) :
    c.Kept settings (settings.connectProperties.bind ConnectProperties.maximumPacketSize)
      ((settings.connectProperties.bind ConnectProperties.receiveMaximum).map Int.toNat) :=
  Transition.invariant (fun _ _ _ h hstep => Kept.step h hstep) (kept_start settings config) hrun

end ClientSession

/-- **The broker reads what the application asked for.**  Along every run of a client:

* the PUBLISH packets on the wire are, in the order of the calls, some of those asked for,
  none twice;
* a SUBSCRIBE carries the filters and the options of one `subscribe`, or response topics;
* every packet of these calls, and every PUBREL, reads back as it was written, with no field
  left out.  (An acknowledgement of an inbound message need not: 3.1.1 has no place for its
  reason code.) -/
theorem client_writes_what_was_asked (settings : ClientSettings)
    (config : InboundPublishFlow.Config) (actions : List ClientSessionAction) (c : ClientSession)
    (hrun : Transition.run ClientSession.step (ClientSession.start settings config) actions =
      some c) :
    (c.sent.filterMap Packet.published?).Sublist c.published ∧
    ∀ packet ∈ c.sent,
      (∀ subscribe, packet = .subscribe subscribe → subscribe.AskedBy c.subscribed) ∧
      ∃ bytes, encode packet settings.options.version = .ok bytes ∧
        ∀ rest, decode (bytes ++ rest) settings.options.version none =
          .ok (some (packet.dropEmpty, bytes.length)) := by
  have h := ClientSession.Kept.run hrun
  refine ⟨h.published, fun packet hpacket => ?_⟩
  obtain ⟨⟨bytes, hencode⟩, hfaithful, -, hsubscribe⟩ := h.sentWell packet hpacket
  refine ⟨hsubscribe, bytes, hencode, fun rest => ?_⟩
  rw [← show norm settings.options.version packet = packet.dropEmpty from hfaithful]
  exact encodes_of_encode hencode rfl rest

/-- A client of MQTT 5.0 with limits of its own. -/
def sampleSettings : ClientSettings where
  options := { version := .v5, receiveMaximum := some 5, maximumPacketSize := some 100 }
  connectProperties := some
    { sessionExpiryInterval := some 0, receiveMaximum := some 5, maximumPacketSize := some 100 }
  accepted := rfl

/-- A CONNACK with Maximum QoS 1 and no retained messages, a PUBLISH too many, one within the
limits, and a SUBSCRIBE with an option of 5.0. -/
def sampleCalls : List ClientSessionAction :=
  [.session (.read [0x20, 0x07, 0x00, 0x00, 0x04, 0x24, 0x01, 0x25, 0x00]),
    .session (.next none .done),
    .publish (str "t") (.bytes [1]) .exactlyOnce false none .done,
    .publish (str "t") (.bytes [1]) .atLeastOnce false none .done,
    .subscribe { filters := [str "t"], noLocal := true } 0 true,
    .session (.call (.acquireGuard 2)), .session (.call (.enter 2 .done))]

theorem client_writes_what_was_asked_sample :
    ∃ c, Transition.run ClientSession.step (ClientSession.start sampleSettings {}) sampleCalls =
        some c ∧ c.sent.length = 2 ∧ (c.sent.filterMap Packet.published?).Sublist c.published := by
  have hrun : (Transition.run ClientSession.step (ClientSession.start sampleSettings {})
      sampleCalls).map (fun c => c.sent.length) = some 2 := by decide +kernel
  obtain ⟨c, hc, hsent⟩ := Option.map_eq_some_iff.mp hrun
  exact ⟨c, hc, hsent, (client_writes_what_was_asked sampleSettings {} sampleCalls c hc).1⟩

theorem validatePublish_ok {topic : Str} (h : validatePublish topic = .ok ()) :
    topic ≠ [] ∧ CodePoint.ofChar '#' ∉ topic ∧ CodePoint.ofChar '+' ∉ topic ∧
      CodePoint.ofChar '$' ∉ topic.drop 1 := by
  unfold validatePublish at h
  split at h
  · cases h
  rename_i hempty
  split at h
  · cases h
  rename_i hwildcard
  split at h
  · cases h
  rename_i hdollar
  simp only [Bool.or_eq_true, List.contains_iff_mem, not_or] at hwildcard hdollar
  exact ⟨hempty, hwildcard.1, hwildcard.2, hdollar⟩

/-- **Every PUBLISH on the wire is one the broker takes.**  It was written behind the CONNACK,
within its Maximum QoS and Retain Available, to a topic without wildcards, and it has an
identifier exactly if its QoS asks for one. -/
theorem server_limits_obeyed (settings : ClientSettings) (config : InboundPublishFlow.Config)
    (actions : List ClientSessionAction) (c : ClientSession)
    (hrun : Transition.run ClientSession.step (ClientSession.start settings config) actions =
      some c) :
    ∀ publish, .publish publish ∈ c.sent → ∃ connack, c.connack = some connack ∧
      connack.Allows settings.options.version publish ∧
      (publish.topic ≠ [] ∧ CodePoint.ofChar '#' ∉ publish.topic ∧
        CodePoint.ofChar '+' ∉ publish.topic ∧ CodePoint.ofChar '$' ∉ publish.topic.drop 1) ∧
      publish.dup = false ∧ (publish.packetId.isSome = true ↔ publish.qos ≠ .atMostOnce) := by
  intro publish hpublish
  obtain ⟨connack, hconnack, hallows, htopic, hdup, hid⟩ :=
    ((ClientSession.Kept.run hrun).sentWell _ hpublish).publish publish rfl
  exact ⟨connack, hconnack, hallows, validatePublish_ok htopic, hdup, hid⟩

theorem server_limits_obeyed_sample :
    ∃ c, Transition.run ClientSession.step (ClientSession.start sampleSettings {}) sampleCalls =
        some c ∧
      ∃ publish connack, .publish publish ∈ c.sent ∧ c.connack = some connack ∧
        connack.Allows .v5 publish := by
  have hrun : (Transition.run ClientSession.step (ClientSession.start sampleSettings {})
      sampleCalls).map (fun c => c.sent.filterMap Packet.published?) =
      some [{ topic := str "t", payload := [1], qos := .atLeastOnce, retain := false,
              dup := false }] := by decide +kernel
  obtain ⟨c, hc, hsent⟩ := Option.map_eq_some_iff.mp hrun
  obtain ⟨packet, hpacket, hpublished⟩ := List.mem_filterMap.mp (hsent ▸ List.mem_singleton_self _)
  cases packet with
  | publish publish =>
      obtain ⟨connack, hconnack, hallows, -⟩ :=
        server_limits_obeyed sampleSettings {} sampleCalls c hc publish hpacket
      exact ⟨c, hc, publish, connack, hpacket, hconnack, hallows⟩
  | _ => cases hpublished

/-- A block of properties that can each be written is too long, or it can be written. -/
theorem encodeProperties_iff_length {P : Type} {S : PropertySet P} {properties : P} {raw : Bytes}
    (hraw : encodeProps (S.toDict properties) = .ok raw) :
    (∃ block, encodeProperties S (some properties) = .ok block) ↔ raw.length ≤ 268435455 := by
  simp only [encodeProperties, encodePropsBlock]
  split
  · rename_i hempty
    rw [hempty] at hraw
    cases hraw
    exact ⟨fun _ => Nat.zero_le _, fun _ => ⟨_, rfl⟩⟩
  · rw [hraw]
    constructor
    · rintro ⟨block, hblock⟩
      obtain ⟨written, hwritten, hblock⟩ := bind_eq_ok.mp hblock
      cases hwritten
      obtain ⟨length, hlength, -⟩ := bind_eq_ok.mp hblock
      exact Int.ofNat_le.mp (encodeVarint_ok hlength).2.1
    · intro hle
      obtain ⟨length, hlength, -⟩ := fits_encodeVarint (k := raw.length) (Nat.succ_pos 3)
        (Nat.le_refl 4) (by omega)
      refine ⟨length ++ raw, bind_eq_ok.mpr ⟨raw, rfl, bind_eq_ok.mpr ⟨length, hlength, rfl⟩⟩⟩

/-- **The limits the broker reads are those that are enforced.**  Each property of accepted
options encodes, so that their block can only fail by its total length; and whatever the run,
the Maximum Packet Size and the Receive Maximum that an encoded CONNECT says are the ones the
session keeps to. -/
theorem advertised_limits_enforced (settings : ClientSettings)
    (config : InboundPublishFlow.Config) (actions : List ClientSessionAction) (c : ClientSession)
    (hrun : Transition.run ClientSession.step (ClientSession.start settings config) actions =
      some c) :
    (∀ properties, settings.connectProperties = some properties →
      ∃ raw, encodeProps (connectSet.toDict properties) = .ok raw ∧
        raw.length ≤ 17 + userPropertiesSize settings.options.userProperties ∧
        ((∃ block, encodeConnectProperties (some properties) = .ok block) ↔
          raw.length ≤ 268435455)) ∧
    ∀ packet bytes, settings.connectPacket = .ok packet →
      encode (.connect packet) settings.options.version = .ok bytes → ∃ read : Connect,
      (∀ rest, decode (bytes ++ rest) settings.options.version none =
        .ok (some (.connect read, bytes.length))) ∧
      c.session.buffer.maxPacketSize =
        read.properties.bind ConnectProperties.maximumPacketSize ∧
      c.session.flow.receiveMaximum.map Int.ofNat =
        read.properties.bind ConnectProperties.receiveMaximum ∧
      ∀ limit, read.properties.bind ConnectProperties.maximumPacketSize = some limit →
        ∀ front n, c.session.front = .ok (some (front, n)) → (n : Int) ≤ limit := by
  have h := ClientSession.Kept.run hrun
  -- the properties are none, or those of options in their ranges
  have hrange : ∀ properties, settings.connectProperties = some properties →
      properties = settings.options.connectProperties ∧ settings.options.InRange := by
    intro properties hsome
    rcases ClientOptions.check_ok settings.accepted with ⟨-, hprops, hrange⟩ | ⟨-, hprops, -⟩
    · rw [hprops] at hsome
      cases hsome
      exact ⟨rfl, hrange⟩
    · rw [hprops] at hsome
      cases hsome
  refine ⟨fun properties hsome => ?_, fun packet bytes hconnect hencode => ?_⟩
  · obtain ⟨rfl, hfits⟩ := hrange properties hsome
    obtain ⟨raw, hraw, hlength⟩ := hfits.fits
    exact ⟨raw, hraw, hlength, encodeProperties_iff_length hraw⟩
  obtain ⟨hfaithful, hproperties, hnorm⟩ := settings.faithful hconnect
  have hread : packet.dropEmpty.properties = settings.connectProperties :=
    hnorm.trans hproperties
  refine ⟨packet.dropEmpty, fun rest => ?_, ?_, ?_, ?_⟩
  · have hdecode : decode (bytes ++ rest) settings.options.version none =
        .ok (some (norm settings.options.version (.connect packet), bytes.length)) :=
      encodes_of_encode hencode rfl rest
    rwa [show norm settings.options.version (.connect packet) = _ from hfaithful] at hdecode
  · rw [h.limit_eq, hread]
  · rw [h.receiveMaximum_eq, hread]
    cases hsome : settings.connectProperties with
    | none => rfl
    | some properties =>
        obtain ⟨rfl, hfits⟩ := hrange properties hsome
        rw [Option.bind_some, Option.map_map]
        cases hmaximum : settings.options.connectProperties.receiveMaximum with
        | none => rfl
        | some n =>
            have hn := (hfits.receiveMaximum n hmaximum).1
            have hnat : ((n.toNat : Nat) : Int) = n := Int.toNat_of_nonneg (by omega)
            rw [Option.map_some, Function.comp_apply, Int.ofNat_eq_natCast, hnat]
  · intro limit hlimit front n hfront
    rw [hread] at hlimit
    obtain ⟨properties, hsome, hmaximum⟩ := Option.bind_eq_some_iff.mp hlimit
    obtain ⟨rfl, hfits⟩ := hrange properties hsome
    have hpositive := (hfits.packetSize limit hmaximum).1
    obtain ⟨m, rfl⟩ := Int.eq_ofNat_of_zero_le (show 0 ≤ limit by omega)
    rw [Session.front, h.limit_eq, hlimit] at hfront
    exact Int.ofNat_le.mpr (decode_within_limit hfront)

theorem advertised_limits_enforced_sample :
    ∃ c, Transition.run ClientSession.step (ClientSession.start sampleSettings {}) sampleCalls =
        some c ∧ c.session.buffer.maxPacketSize = some 100 ∧
      ∀ front n, c.session.front = .ok (some (front, n)) → (n : Int) ≤ 100 := by
  have hrun : (Transition.run ClientSession.step (ClientSession.start sampleSettings {})
      sampleCalls).map (fun c => c.session.buffer.maxPacketSize) = some (some 100) := by
    decide +kernel
  obtain ⟨c, hc, hlimit⟩ := Option.map_eq_some_iff.mp hrun
  obtain ⟨read, -, hsize, -, hfront⟩ := (advertised_limits_enforced sampleSettings {} sampleCalls
    c hc).2
    { clientId := [], cleanSession := true, keepalive := 60
      properties := sampleSettings.connectProperties }
    [16, 26, 0, 4, 77, 81, 84, 84, 5, 2, 0, 60, 13, 17, 0, 0, 0, 0, 33, 0, 5, 39, 0, 0, 0, 100, 0,
      0] rfl rfl
  exact ⟨c, hc, hlimit, hfront 100 (hsize ▸ hlimit)⟩

end Zmqtt
