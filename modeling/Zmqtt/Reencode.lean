import Zmqtt.CodecRoundTrip
import Zmqtt.DecodedFields

/-!
# Every decoded packet can be encoded again

`decode` accepts short forms, trailing bytes, ignored flags and all that
`DecodedFields` lists.  Each packet it returns is nevertheless in the domain of
`encode`, and the encoding decodes to the packet itself, an empty properties object
become `None`.

For each packet class one lemma takes the decoder apart and follows the encoder over
the same fields.  A re-encoded body is at most as long as the body that was read and
two property blocks' growth, which leaves room for bodies of 2^27 bytes.
-/

namespace Zmqtt

variable {P : Type} {S : PropertySet P} {version : Version} {body : Bytes} {n pos : Nat}

/-! ## Packets without empty properties objects -/

/-- A Will without an empty properties object. -/
def Will.dropEmpty (will : Will) : Will :=
  { will with properties := willSet.norm will.properties }

/-- A CONNECT without empty properties objects. -/
def Connect.dropEmpty (packet : Connect) : Connect :=
  { packet with
    will := packet.will.map Will.dropEmpty
    properties := connectSet.norm packet.properties }

/-- The packet with every properties object whose fields are all empty replaced by
`None`. -/
def Packet.dropEmpty : Packet → Packet
  | .connect packet => .connect packet.dropEmpty
  | .connack packet => .connack { packet with properties := connAckSet.norm packet.properties }
  | .publish packet => .publish { packet with properties := publishSet.norm packet.properties }
  | .puback packet => .puback { packet with properties := pubAckSet.norm packet.properties }
  | .pubrec packet => .pubrec { packet with properties := pubAckSet.norm packet.properties }
  | .pubrel packet => .pubrel { packet with properties := pubAckSet.norm packet.properties }
  | .pubcomp packet => .pubcomp { packet with properties := pubAckSet.norm packet.properties }
  | .subscribe packet =>
      .subscribe { packet with properties := subscribeSet.norm packet.properties }
  | .suback packet => .suback { packet with properties := subAckSet.norm packet.properties }
  | .unsubscribe packet =>
      .unsubscribe { packet with properties := unsubscribeSet.norm packet.properties }
  | .unsuback packet => .unsuback { packet with properties := unsubAckSet.norm packet.properties }
  | .pingreq => .pingreq
  | .pingresp => .pingresp
  | .disconnect packet =>
      .disconnect { packet with properties := disconnectSet.norm packet.properties }
  | .auth packet => .auth { packet with properties := authSet.norm packet.properties }

/-! ## Pieces of a body -/

/-- The longest body a decoded packet can be encoded to, over the body it was read
from. -/
def maxBodyGrowth : Nat := 2 * maxBlockGrowth + 8

/-- The call returned. -/
def Encodes (x : Except CodecError Bytes) : Prop := ∃ bytes, x = .ok bytes

/-- A computation of bounded size is followed by one that encodes. -/
theorem Fits.encodes_bind {x : Except CodecError Bytes} {f : Bytes → Except CodecError Bytes}
    (hx : Fits x n) (hf : ∀ bytes, bytes.length ≤ n → Encodes (f bytes)) : Encodes (x >>= f) := by
  obtain ⟨bytes, rfl, hlen⟩ := hx
  exact hf bytes hlen

/-- A body of bounded size encodes with its fixed header. -/
theorem encodes_buildPacket {t : PacketType} {flags : Nat} (hflags : flags < 16)
    (hbody : body.length ≤ 2 ^ 27 + maxBodyGrowth) : Encodes (buildPacket t flags body) := by
  have hlt : body.length < 128 ^ 4 := by
    simp only [maxBodyGrowth, maxBlockGrowth, maxPropSize] at hbody
    omega
  apply (fits_bytes1 (first_byte t.value_lt hflags).1).encodes_bind
  intro first _
  apply (fits_encodeVarint (by decide) (Nat.le_refl 4) hlt).encodes_bind
  intro length _
  exact ⟨_, rfl⟩

/-- Properties that are read under a condition, on the version or on the bytes left. -/
theorem fits_optionalProperties (hS : S.Lawful) (hR : S.Reading) {props : Option P} {c : Prop}
    [Decidable c] (hbody : body.length ≤ 2 ^ 27) (hpos : pos ≤ body.length)
    (h : (if c then decodeProperties S body pos else .ok (none, 0)) = .ok (props, n)) :
    pos + n ≤ body.length ∧ Fits (encodeProperties S props) (n + maxBlockGrowth) ∧
      (¬ c → props = none) := by
  by_cases hc : c
  · rw [if_pos hc] at h
    obtain ⟨-, hstop, hfits⟩ := fits_decodeProperties hS hR hbody h
    exact ⟨hstop, hfits, fun hnot => absurd hc hnot⟩
  · rw [if_neg hc] at h
    cases h
    have hzero : Fits (encodeVarint 0) 1 := fits_encodeVarint (by decide) (by decide) (by decide)
    exact ⟨hpos, hzero.mono (by decide), fun _ => rfl⟩

/-- The properties are written on 5.0 only. -/
theorem Fits.versionProperties {props : Option P} (h : Fits (encodeProperties S props) n) :
    Fits (if version = .v5 then encodeProperties S props else .ok []) n := by
  cases version with
  | v311 => exact fits_ok (Nat.zero_le _)
  | v5 => exact h

theorem normProperties_eq {props : Option P} (h : version ≠ .v5 → props = none) :
    normProperties S version props = S.norm props := by
  cases version with
  | v311 =>
      rw [h (by decide)]
      rfl
  | v5 => rfl

/-- Bytes are codes. -/
theorem fits_bytesOf_map (data : Bytes) :
    Fits (bytesOf (data.map fun b => (b.toNat : Int))) data.length := by
  induction data with
  | nil => exact fits_ok (Nat.le_refl _)
  | cons b data ih =>
      have hb : b.toNat < 256 := b.toNat_lt
      apply (fits_bytes1 hb).bind
      intro head hhead
      apply ih.bind
      intro tail htail
      refine fits_ok ?_
      simp only [List.length_append, List.length_cons]
      omega

theorem fits_bytesOf_codesFrom (body : Bytes) (pos : Nat) :
    Fits (bytesOf (codesFrom body pos)) (body.length - pos) := by
  have hfits := fits_bytesOf_map (body.drop pos)
  rwa [List.length_drop] at hfits

/-! ## The bodies -/

/-- A packet that can be encoded, and that a round trip changes only in its empty
properties objects. -/
structure Reencodes (version : Version) (packet : Packet) : Prop where
  encodes : Encodes (encode packet version)
  norm_eq : norm version packet = packet.dropEmpty

/-- A decoded CONNACK encodes. -/
theorem reencodes_connack {packet : ConnAck} (hbody : body.length ≤ 2 ^ 27)
    (h : decodeConnack body version = .ok packet) : Reencodes version (.connack packet) := by
  unfold decodeConnack at h
  split at h
  · cases h
  rename_i hlen
  obtain ⟨first, hfirst, h⟩ := bind_eq_ok.mp h
  obtain ⟨code, hcode, h⟩ := bind_eq_ok.mp h
  obtain ⟨⟨props, n⟩, hprops, h⟩ := bind_eq_ok.mp h
  cases h
  obtain ⟨hstop, hfits, hnone⟩ := fits_optionalProperties connAckSet_lawful connAckSet_reading
    hbody (by omega) hprops
  have hnorm : normProperties connAckSet version props = connAckSet.norm props :=
    normProperties_eq fun hversion => hnone fun hc => hversion hc.1
  have hcode : code.toNat < 256 := code.toNat_lt
  have hflag : Fits (bytes1 (if flagSet first.toNat 0x01 then 0x01 else 0x00)) 1 := by
    cases flagSet first.toNat 0x01 <;> exact fits_bytes1 (by decide)
  constructor
  · apply hflag.encodes_bind
    intro spByte hsp
    apply (fits_bytes1 hcode).encodes_bind
    intro codeByte hcodeByte
    apply hfits.versionProperties.encodes_bind
    intro propsBytes hpropsBytes
    apply encodes_buildPacket (by decide)
    simp only [List.length_append, maxBodyGrowth]
    omega
  · simp only [norm, ConnAck.norm, Packet.dropEmpty, hnorm]

/-- A decoded PUBLISH encodes. -/
theorem reencodes_publish {packet : Publish} {flags : Nat} (hbody : body.length ≤ 2 ^ 27)
    (h : decodePublish body flags version = .ok packet) : Reencodes version (.publish packet) := by
  obtain ⟨qos, hqos, h⟩ := bind_eq_ok.mp h
  obtain ⟨⟨topic, pos⟩, htopic, h⟩ := bind_eq_ok.mp h
  obtain ⟨⟨packetId, pos'⟩, hid, h⟩ := bind_eq_ok.mp h
  obtain ⟨⟨props, n⟩, hprops, h⟩ := bind_eq_ok.mp h
  cases h
  have htopicEnd := (decodeStr_reads htopic).1
  -- the identifier was read exactly for QoS 1 and 2
  have hpacketId : (qos = .atMostOnce ∧ packetId = none ∧ pos' = pos) ∨
      (qos ≠ .atMostOnce ∧ pos' = pos + 2 ∧ pos' ≤ body.length ∧
        ∃ k : Nat, k < 65536 ∧ packetId = some (k : Int)) := by
    by_cases hq : qos = .atMostOnce
    · rw [if_neg (not_not_intro hq)] at hid
      cases hid
      exact .inl ⟨hq, rfl, rfl⟩
    · rw [if_pos hq] at hid
      split at hid
      · cases hid
      · rename_i hlen
        obtain ⟨k, hk, hid⟩ := bind_eq_ok.mp hid
        cases hid
        exact .inr ⟨hq, rfl, by omega, k, unpackH_lt hk, rfl⟩
  have hpos' : pos' ≤ body.length := by omega
  obtain ⟨hstop, hfits, hnone⟩ := fits_optionalProperties publishSet_lawful publishSet_reading
    hbody hpos' hprops
  have hnorm : normProperties publishSet version props = publishSet.norm props :=
    normProperties_eq hnone
  constructor
  · apply (fits_of_decodeStr htopic).encodes_bind
    intro topicBytes htopicBytes
    refine Fits.encodes_bind (n := pos' - pos) ?_ ?_
    · rcases hpacketId with ⟨rfl, rfl, rfl⟩ | ⟨hq, rfl, -, k, hk, rfl⟩
      · exact fits_ok (Nat.zero_le _)
      · simp only [ne_eq, hq, not_false_eq_true, if_true]
        have hfitsId := fits_packH hk
        exact hfitsId.mono (by omega)
    intro idBytes hidBytes
    apply hfits.versionProperties.encodes_bind
    intro propsBytes hpropsBytes
    apply encodes_buildPacket (publishFlags_fields _).1
    simp only [List.length_append, List.length_drop, maxBodyGrowth]
    omega
  · have hpacketId : (if qos = .atMostOnce then none else packetId) = packetId := by
      rcases hpacketId with ⟨-, rfl, -⟩ | ⟨hq, -⟩
      · exact ite_self none
      · exact if_neg hq
    simp only [norm, Publish.norm, Packet.dropEmpty, hnorm, hpacketId]

/-- PUBACK, PUBREC, PUBREL and PUBCOMP. -/
theorem reencodes_pubAckVariant (t : PacketType) {flags : Nat} {packet : PubReply}
    (hflags : flags < 16) (hbody : body.length ≤ 2 ^ 27)
    (h : decodePubAckVariant body version = .ok packet) :
    Encodes (encodePubAckVariant t flags packet version) ∧
      packet.norm version = { packet with properties := pubAckSet.norm packet.properties } := by
  unfold decodePubAckVariant at h
  split at h
  · cases h
  obtain ⟨packetId, hid, h⟩ := bind_eq_ok.mp h
  have hfitsId := fits_packH (unpackH_lt hid)
  have hshort : Encodes (packetIdOnly t flags packetId) := by
    apply hfitsId.encodes_bind
    intro idBytes hidBytes
    apply encodes_buildPacket hflags
    omega
  split at h
  · rename_i hlen hlong
    obtain ⟨rfl, hlong⟩ := hlong
    obtain ⟨code, hcode, h⟩ := bind_eq_ok.mp h
    obtain ⟨⟨props, n⟩, hprops, h⟩ := bind_eq_ok.mp h
    cases h
    have hcode : code.toNat < 256 := code.toNat_lt
    obtain ⟨hstop, hfits, -⟩ := fits_optionalProperties pubAckSet_lawful pubAckSet_reading
      hbody (by omega) hprops
    refine ⟨?_, rfl⟩
    unfold encodePubAckVariant
    split
    · apply hfitsId.encodes_bind
      intro idBytes hidBytes
      apply (fits_packB hcode).encodes_bind
      intro codeByte hcodeByte
      apply hfits.encodes_bind
      intro propsBytes hpropsBytes
      apply encodes_buildPacket hflags
      simp only [List.length_append, maxBodyGrowth]
      omega
    · exact hshort
  · cases h
    refine ⟨?_, ?_⟩
    · unfold encodePubAckVariant
      rw [if_neg (by simp)]
      exact hshort
    · cases version <;> rfl

/-! ### SUBSCRIBE and UNSUBSCRIBE -/

/-- An options byte gives the filter's own subscription, in a 3.1.1 session with
nothing but the quality of service. -/
theorem decodeOptions_ok {topicFilter : Str} {options : Nat} {sub : SubscriptionRequest}
    (h : decodeOptions topicFilter options version = .ok sub) :
    sub.topicFilter = topicFilter ∧ sub.norm version = sub := by
  unfold decodeOptions at h
  obtain ⟨qos, hqos, h⟩ := bind_eq_ok.mp h
  cases version with
  | v311 =>
      cases h
      exact ⟨rfl, rfl⟩
  | v5 =>
      rw [if_pos rfl] at h
      obtain ⟨retainHandling, hretain, h⟩ := bind_eq_ok.mp h
      cases h
      exact ⟨rfl, rfl⟩

/-- One round of the decoder's loop over subscriptions. -/
theorem decodeSubscriptions_round {subs : List SubscriptionRequest} (hpos : pos < body.length)
    (h : decodeSubscriptions body version pos = .ok subs) :
    ∃ sub size rest, subs = sub :: rest ∧ decodeStr body pos = .ok (sub.topicFilter, size) ∧
      pos + size < body.length ∧ sub.norm version = sub ∧
      decodeSubscriptions body version (pos + size + 1) = .ok rest := by
  rw [decodeSubscriptions, if_pos hpos] at h
  split at h
  · cases h
  rename_i topicFilter size hstr
  split at h
  · cases h
  rename_i hlen
  split at h
  · cases h
  rename_i options hoptions
  split at h
  · cases h
  rename_i sub hsub
  split at h
  · cases h
  rename_i rest hrest
  cases h
  obtain ⟨rfl, hnorm⟩ := decodeOptions_ok hsub
  exact ⟨sub, size, rest, rfl, hstr, by omega, hnorm, hrest⟩

/-- The decoded subscriptions fit in the bytes they were read from. -/
theorem fits_decodeSubscriptions :
    ∀ (fuel pos : Nat) (subs : List SubscriptionRequest), body.length - pos ≤ fuel →
      decodeSubscriptions body version pos = .ok subs →
      Fits (encodeSubscriptions version subs) (body.length - pos) ∧
        subs.map (SubscriptionRequest.norm version) = subs := by
  intro fuel
  induction fuel with
  | zero =>
      intro pos subs hfuel h
      rw [decodeSubscriptions, if_neg (by omega)] at h
      cases h
      exact ⟨fits_ok (Nat.zero_le _), rfl⟩
  | succ fuel ih =>
      intro pos subs hfuel h
      by_cases hpos : pos < body.length
      · obtain ⟨sub, size, rest, rfl, hstr, hlen, hnorm, hrest⟩ := decodeSubscriptions_round hpos h
        obtain ⟨hfits, hnorms⟩ := ih _ rest (by omega) hrest
        refine ⟨?_, by rw [List.map_cons, hnorm, hnorms]⟩
        apply (fits_of_decodeStr hstr).bind
        intro topic htopic
        apply (fits_bytes1 (decodeOptions_encode sub version).1).bind
        intro options hoptions
        apply hfits.bind
        intro tail htail
        refine fits_ok ?_
        simp only [List.length_append]
        omega
      · rw [decodeSubscriptions, if_neg hpos] at h
        cases h
        exact ⟨fits_ok (Nat.zero_le _), rfl⟩

/-- A decoded SUBSCRIBE encodes. -/
theorem reencodes_subscribe {packet : Subscribe} (hbody : body.length ≤ 2 ^ 27)
    (h : decodeSubscribe body version = .ok packet) : Reencodes version (.subscribe packet) := by
  unfold decodeSubscribe at h
  split at h
  · cases h
  obtain ⟨packetId, hid, h⟩ := bind_eq_ok.mp h
  obtain ⟨⟨props, n⟩, hprops, h⟩ := bind_eq_ok.mp h
  obtain ⟨subs, hsubs, h⟩ := bind_eq_ok.mp h
  cases h
  obtain ⟨hstop, hfits, hnone⟩ := fits_optionalProperties subscribeSet_lawful subscribeSet_reading
    hbody (by omega) hprops
  have hnorm : normProperties subscribeSet version props = subscribeSet.norm props :=
    normProperties_eq hnone
  obtain ⟨hfitsSubs, hnorms⟩ := fits_decodeSubscriptions _ _ subs (Nat.le_refl _) hsubs
  constructor
  · apply (fits_packH (unpackH_lt hid)).encodes_bind
    intro idBytes hidBytes
    apply hfits.versionProperties.encodes_bind
    intro propsBytes hpropsBytes
    apply hfitsSubs.encodes_bind
    intro subsBytes hsubsBytes
    apply encodes_buildPacket (by decide)
    simp only [List.length_append, maxBodyGrowth]
    omega
  · simp only [norm, Subscribe.norm, Packet.dropEmpty, hnorm, hnorms]

/-- A decoded SUBACK encodes. -/
theorem reencodes_suback {packet : SubAck} (hbody : body.length ≤ 2 ^ 27)
    (h : decodeSuback body version = .ok packet) : Reencodes version (.suback packet) := by
  unfold decodeSuback at h
  split at h
  · cases h
  obtain ⟨packetId, hid, h⟩ := bind_eq_ok.mp h
  obtain ⟨⟨props, n⟩, hprops, h⟩ := bind_eq_ok.mp h
  cases h
  obtain ⟨hstop, hfits, hnone⟩ := fits_optionalProperties subAckSet_lawful subAckSet_reading
    hbody (by omega) hprops
  have hnorm : normProperties subAckSet version props = subAckSet.norm props :=
    normProperties_eq hnone
  constructor
  · apply (fits_packH (unpackH_lt hid)).encodes_bind
    intro idBytes hidBytes
    apply hfits.versionProperties.encodes_bind
    intro propsBytes hpropsBytes
    apply (fits_bytesOf_codesFrom body (2 + n)).encodes_bind
    intro codes hcodes
    apply encodes_buildPacket (by decide)
    simp only [List.length_append, maxBodyGrowth]
    omega
  · simp only [norm, SubAck.norm, Packet.dropEmpty, hnorm]

/-- The decoded topic filters fit in the bytes they were read from. -/
theorem fits_decodeTopicFilters :
    ∀ (fuel pos : Nat) (filters : List Str), body.length - pos ≤ fuel →
      decodeTopicFilters body pos = .ok filters →
      Fits (encodeTopicFilters filters) (body.length - pos) := by
  intro fuel
  induction fuel with
  | zero =>
      intro pos filters hfuel h
      rw [decodeTopicFilters, if_neg (by omega)] at h
      cases h
      exact fits_ok (Nat.zero_le _)
  | succ fuel ih =>
      intro pos filters hfuel h
      by_cases hpos : pos < body.length
      · rw [decodeTopicFilters, if_pos hpos] at h
        split at h
        · cases h
        rename_i topicFilter size hstr
        split at h
        · cases h
        rename_i rest hrest
        cases h
        have hsize := decodeStr_size hstr
        have hend := (decodeStr_reads hstr).1
        apply (fits_of_decodeStr hstr).bind
        intro head hhead
        apply (ih _ rest (by omega) hrest).bind
        intro tail htail
        refine fits_ok ?_
        simp only [List.length_append]
        omega
      · rw [decodeTopicFilters, if_neg hpos] at h
        cases h
        exact fits_ok (Nat.zero_le _)

/-- A decoded UNSUBSCRIBE encodes. -/
theorem reencodes_unsubscribe {packet : Unsubscribe} (hbody : body.length ≤ 2 ^ 27)
    (h : decodeUnsubscribe body version = .ok packet) :
    Reencodes version (.unsubscribe packet) := by
  unfold decodeUnsubscribe at h
  split at h
  · cases h
  obtain ⟨packetId, hid, h⟩ := bind_eq_ok.mp h
  obtain ⟨⟨props, n⟩, hprops, h⟩ := bind_eq_ok.mp h
  obtain ⟨filters, hfilters, h⟩ := bind_eq_ok.mp h
  cases h
  obtain ⟨hstop, hfits, hnone⟩ := fits_optionalProperties unsubscribeSet_lawful
    unsubscribeSet_reading hbody (by omega) hprops
  have hnorm : normProperties unsubscribeSet version props = unsubscribeSet.norm props :=
    normProperties_eq hnone
  constructor
  · apply (fits_packH (unpackH_lt hid)).encodes_bind
    intro idBytes hidBytes
    apply hfits.versionProperties.encodes_bind
    intro propsBytes hpropsBytes
    apply (fits_decodeTopicFilters _ _ filters (Nat.le_refl _) hfilters).encodes_bind
    intro filtersBytes hfiltersBytes
    apply encodes_buildPacket (by decide)
    simp only [List.length_append, maxBodyGrowth]
    omega
  · simp only [norm, Unsubscribe.norm, Packet.dropEmpty, hnorm]

/-- A decoded UNSUBACK encodes. -/
theorem reencodes_unsuback {packet : UnsubAck} (hbody : body.length ≤ 2 ^ 27)
    (h : decodeUnsuback body version = .ok packet) : Reencodes version (.unsuback packet) := by
  unfold decodeUnsuback at h
  split at h
  · cases h
  obtain ⟨packetId, hid, h⟩ := bind_eq_ok.mp h
  have hfitsId := fits_packH (unpackH_lt hid)
  cases version with
  | v311 =>
      cases h
      refine ⟨?_, rfl⟩
      apply hfitsId.encodes_bind
      intro idBytes hidBytes
      apply encodes_buildPacket (by decide)
      omega
  | v5 =>
      obtain ⟨⟨props, n⟩, hprops, h⟩ := bind_eq_ok.mp h
      cases h
      obtain ⟨-, hstop, hfits⟩ := fits_decodeProperties unsubAckSet_lawful unsubAckSet_reading
        hbody hprops
      refine ⟨?_, rfl⟩
      apply hfitsId.encodes_bind
      intro idBytes hidBytes
      apply hfits.encodes_bind
      intro propsBytes hpropsBytes
      apply (fits_bytesOf_codesFrom body (2 + n)).encodes_bind
      intro codes hcodes
      apply encodes_buildPacket (by decide)
      simp only [List.length_append, maxBodyGrowth]
      omega

/-! ### DISCONNECT and AUTH -/

/-- A decoded DISCONNECT encodes. -/
theorem reencodes_disconnect {packet : Disconnect} (hbody : body.length ≤ 2 ^ 27)
    (h : decodeDisconnect body version = .ok packet) :
    Reencodes version (.disconnect packet) := by
  have hshort : Encodes (buildPacket .disconnect 0 []) :=
    encodes_buildPacket (by decide) (Nat.zero_le _)
  unfold decodeDisconnect at h
  split at h
  · rename_i hlong
    obtain ⟨rfl, hlong⟩ := hlong
    obtain ⟨code, hcode, h⟩ := bind_eq_ok.mp h
    obtain ⟨⟨props, n⟩, hprops, h⟩ := bind_eq_ok.mp h
    cases h
    have hcode : code.toNat < 256 := code.toNat_lt
    obtain ⟨hstop, hfits, -⟩ := fits_optionalProperties disconnectSet_lawful disconnectSet_reading
      hbody hlong hprops
    refine ⟨?_, rfl⟩
    change Encodes (encodeDisconnect _ .v5)
    unfold encodeDisconnect
    split
    · apply (fits_bytes1 hcode).encodes_bind
      intro codeByte hcodeByte
      apply hfits.encodes_bind
      intro propsBytes hpropsBytes
      apply encodes_buildPacket (by decide)
      simp only [List.length_append, maxBodyGrowth]
      omega
    · exact hshort
  · cases h
    constructor
    · change Encodes (encodeDisconnect _ version)
      rw [encodeDisconnect, if_neg (by simp)]
      exact hshort
    · cases version <;> rfl

/-- A decoded AUTH encodes. -/
theorem reencodes_auth {packet : Auth} (hbody : body.length ≤ 2 ^ 27)
    (h : decodeAuth body = .ok packet) : Reencodes version (.auth packet) := by
  unfold decodeAuth at h
  split at h
  · cases h
  obtain ⟨code, hcode, h⟩ := bind_eq_ok.mp h
  obtain ⟨⟨props, n⟩, hprops, h⟩ := bind_eq_ok.mp h
  cases h
  have hcode : code.toNat < 256 := code.toNat_lt
  obtain ⟨hstop, hfits, -⟩ := fits_optionalProperties authSet_lawful authSet_reading
    hbody (by omega) hprops
  refine ⟨?_, rfl⟩
  apply (fits_bytes1 hcode).encodes_bind
  intro codeByte hcodeByte
  apply hfits.encodes_bind
  intro propsBytes hpropsBytes
  apply encodes_buildPacket (by decide)
  simp only [List.length_append, maxBodyGrowth]
  omega

/-! ### CONNECT -/

/-- The protocol level a CONNECT of each version carries. -/
def Version.level (version : Version) : UInt8 := if version = .v5 then 0x05 else 0x04

theorem fits_decodeWill {flags pos' : Nat} {qos : QoS} {will : Option Will}
    (hbody : body.length ≤ 2 ^ 27) (hpos : pos ≤ body.length)
    (h : decodeWill body pos flags qos version = .ok (will, pos')) :
    pos ≤ pos' ∧ pos' ≤ body.length ∧
      Fits (encodeWill version will) (pos' - pos + maxBlockGrowth) ∧
      will.map (Will.norm version) = will.map Will.dropEmpty := by
  unfold decodeWill at h
  split at h
  · obtain ⟨⟨props, n⟩, hprops, h⟩ := bind_eq_ok.mp h
    obtain ⟨⟨topic, tn⟩, htopic, h⟩ := bind_eq_ok.mp h
    obtain ⟨⟨payload, pn⟩, hpayload, h⟩ := bind_eq_ok.mp h
    cases h
    obtain ⟨hstop, hfits, hnone⟩ := fits_optionalProperties willSet_lawful willSet_reading
      hbody hpos hprops
    have hnorm : normProperties willSet version props = willSet.norm props :=
      normProperties_eq hnone
    have hend := (decodeBytesField_reads hpayload).1
    refine ⟨by omega, by omega, ?_, ?_⟩
    · apply hfits.versionProperties.bind
      intro propsBytes hpropsBytes
      apply (fits_of_decodeStr htopic).bind
      intro topicBytes htopicBytes
      apply (fits_of_decodeBytesField hpayload).bind
      intro payloadBytes hpayloadBytes
      refine fits_ok ?_
      simp only [List.length_append]
      omega
    · simp only [Option.map_some, Will.norm, Will.dropEmpty, hnorm]
  · cases h
    exact ⟨Nat.le_refl _, hpos, fits_ok (Nat.zero_le _), rfl⟩

theorem fits_decodeUsername {flags : Nat} {username : Option Str} (hpos : pos ≤ body.length)
    (h : decodeUsername body pos flags = .ok (username, n)) :
    pos + n ≤ body.length ∧ Fits (encodeUsername username) n := by
  unfold decodeUsername at h
  split at h
  · obtain ⟨⟨s, size⟩, hstr, h⟩ := bind_eq_ok.mp h
    cases h
    exact ⟨(decodeStr_reads hstr).1, fits_of_decodeStr hstr⟩
  · cases h
    exact ⟨hpos, fits_ok (Nat.zero_le _)⟩

theorem fits_decodePassword {flags : Nat} {password : Option Bytes} (hpos : pos ≤ body.length)
    (h : decodePassword body pos flags = .ok (password, n)) :
    pos + n ≤ body.length ∧ Fits (encodePassword password) n := by
  unfold decodePassword at h
  split at h
  · obtain ⟨⟨data, size⟩, hdata, h⟩ := bind_eq_ok.mp h
    cases h
    exact ⟨(decodeBytesField_reads hdata).1, fits_of_decodeBytesField hdata⟩
  · cases h
    exact ⟨hpos, fits_ok (Nat.zero_le _)⟩

/-- The protocol name takes the first six bytes. -/
theorem decodeStr_protocolName (h : decodeStr body 0 = .ok (str "MQTT", n)) : n = 6 := by
  obtain ⟨length, -, hlen, rfl, hs⟩ := decodeStr_ok.mp h
  have hencode := encodeUtf8_decodeUtf8 hs
  have hmqtt : encodeUtf8 (str "MQTT") = .ok [77, 81, 84, 84] := by rfl
  rw [hmqtt] at hencode
  have hfour := congrArg List.length (Except.ok.inj hencode)
  rw [slice, List.length_drop, List.length_take] at hfour
  simp only [List.length_cons, List.length_nil] at hfour
  omega

/-- A decoded CONNECT encodes. -/
theorem reencodes_connect {packet : Connect} (hbody : body.length ≤ 2 ^ 27)
    (hlevel : ∀ level, body[6]? = some level → level = version.level)
    (h : decodeConnect body = .ok packet) :
    Reencodes version (.connect packet) := by
  unfold decodeConnect at h
  obtain ⟨⟨name, pos⟩, hname, h⟩ := bind_eq_ok.mp h
  dsimp only at h
  split at h
  · cases h
  rename_i hmqtt
  obtain rfl : name = str "MQTT" := not_not.mp hmqtt
  obtain rfl := decodeStr_protocolName hname
  obtain ⟨protoLevel, hprotoLevel, h⟩ := bind_eq_ok.mp h
  obtain rfl := hlevel protoLevel (byteAt_ok.mp hprotoLevel)
  split at h
  · cases h
  have hversion : (if version.level = 0x05 then Version.v5 else Version.v311) = version := by
    cases version <;> rfl
  obtain ⟨flags, hflags, h⟩ := bind_eq_ok.mp h
  obtain ⟨willQos, hwillQos, h⟩ := bind_eq_ok.mp h
  obtain ⟨keepalive, hkeepalive, h⟩ := bind_eq_ok.mp h
  obtain ⟨⟨props, pn⟩, hprops, h⟩ := bind_eq_ok.mp h
  obtain ⟨⟨clientId, cn⟩, hclientId, h⟩ := bind_eq_ok.mp h
  obtain ⟨⟨will, wpos⟩, hwill, h⟩ := bind_eq_ok.mp h
  obtain ⟨⟨username, un⟩, husername, h⟩ := bind_eq_ok.mp h
  obtain ⟨⟨password, qn⟩, hpassword, h⟩ := bind_eq_ok.mp h
  cases h
  rw [hversion] at hprops hwill
  have hkeepaliveEnd := (unpackH_reads hkeepalive).1
  obtain ⟨hstop, hfits, hnone⟩ := fits_optionalProperties connectSet_lawful connectSet_reading
    hbody (by omega) hprops
  have hnorm : normProperties connectSet version props = connectSet.norm props :=
    normProperties_eq hnone
  have hclientEnd := (decodeStr_reads hclientId).1
  obtain ⟨hwpos, hwend, hfitsWill, hwillNorm⟩ := fits_decodeWill hbody hclientEnd hwill
  obtain ⟨huend, hfitsUser⟩ := fits_decodeUsername hwend husername
  obtain ⟨hqend, hfitsPass⟩ := fits_decodePassword huend hpassword
  have hlevelByte : Fits (bytes1 (if version = .v5 then 0x05 else 0x04)) 1 := by
    cases version <;> exact fits_bytes1 (by decide)
  constructor
  · apply (fits_of_decodeStr hname).encodes_bind
    intro nameBytes hnameBytes
    apply hlevelByte.encodes_bind
    intro levelByte hlevelByte
    apply (fits_bytes1 (connectFlags_fields _).1).encodes_bind
    intro flagsByte hflagsByte
    apply (fits_packH (unpackH_lt hkeepalive)).encodes_bind
    intro keepaliveBytes hkeepaliveBytes
    apply hfits.versionProperties.encodes_bind
    intro propsBytes hpropsBytes
    apply (fits_of_decodeStr hclientId).encodes_bind
    intro clientIdBytes hclientIdBytes
    apply hfitsWill.encodes_bind
    intro willBytes hwillBytes
    apply hfitsUser.encodes_bind
    intro userBytes huserBytes
    apply hfitsPass.encodes_bind
    intro passBytes hpassBytes
    apply encodes_buildPacket (by decide)
    simp only [List.length_append, maxBodyGrowth]
    omega
  · simp only [norm, Connect.norm, Packet.dropEmpty, Connect.dropEmpty, hnorm, hwillNorm]

/-! ## Encoding what a round trip returned -/

/-- An empty properties object is written like none. -/
theorem encodeProperties_norm (props : Option P) :
    encodeProperties S (S.norm props) = encodeProperties S props := by
  cases props with
  | none => rfl
  | some props =>
      by_cases hempty : S.isEmpty props = true
      · have hdict := (toDict_eq_nil_iff S props).mpr hempty
        simp only [PropertySet.norm, Option.filter_some, hempty, encodeProperties, hdict,
          encodePropsBlock]
        rfl
      · simp only [PropertySet.norm, Option.filter_some, hempty]
        rfl

theorem versionProperties_norm (props : Option P) :
    (if version = .v5 then encodeProperties S (normProperties S version props) else .ok []) =
      if version = .v5 then encodeProperties S props else .ok [] := by
  cases version with
  | v311 => rfl
  | v5 => exact encodeProperties_norm props

theorem encodeWill_norm (will : Option Will) :
    encodeWill version (will.map (Will.norm version)) = encodeWill version will := by
  cases will with
  | none => rfl
  | some will =>
      simp only [Option.map_some, encodeWill, Will.norm, encodeWillProperties,
        versionProperties_norm]

theorem connectFlags_norm (packet : Connect) :
    connectFlags (packet.norm version) = connectFlags packet := by
  unfold connectFlags Connect.norm
  cases packet.will <;> rfl

theorem encodeSubscriptions_norm (subs : List SubscriptionRequest) :
    encodeSubscriptions version (subs.map (SubscriptionRequest.norm version)) =
      encodeSubscriptions version subs := by
  induction subs with
  | nil => rfl
  | cons sub subs ih =>
      have hfilter : (sub.norm version).topicFilter = sub.topicFilter := by
        cases version <;> rfl
      have hoptions : subscriptionOptions (sub.norm version) version =
          subscriptionOptions sub version := by
        cases version <;> rfl
      simp only [List.map_cons, encodeSubscriptions, hfilter, hoptions, ih]

theorem Encodes.congr {x y : Except CodecError Bytes} (h : Encodes x) (heq : y = x) :
    Encodes y := by
  rw [heq]
  exact h

theorem encodePublish_norm (packet : Publish) :
    encodePublish (packet.norm version) version = encodePublish packet version := by
  obtain ⟨topic, payload, qos, retain, dup, packetId, properties⟩ := packet
  unfold encodePublish
  simp only [Publish.norm, encodePublishProperties, versionProperties_norm]
  cases qos <;> rfl

theorem ne_none_of_norm_ne_none {props : Option P} (h : S.norm props ≠ none) : props ≠ none := by
  rintro rfl
  exact h rfl

/-- The short form is taken for a code of zero and an empty properties object, the
long form otherwise as before. -/
theorem encodes_pubAckVariant_norm {t : PacketType} {flags : Nat} {packet : PubReply}
    (hflags : flags < 16) (h : Encodes (encodePubAckVariant t flags packet version)) :
    Encodes (encodePubAckVariant t flags (packet.norm version) version) := by
  unfold encodePubAckVariant at h ⊢
  cases version with
  | v311 =>
      rw [if_neg (by simp)] at h ⊢
      exact h
  | v5 =>
      by_cases hlong : packet.reasonCode ≠ 0 ∨ pubAckSet.norm packet.properties ≠ none
      · have hbefore : packet.reasonCode ≠ 0 ∨ packet.properties ≠ none :=
          hlong.imp_right ne_none_of_norm_ne_none
        rw [if_pos ⟨rfl, hbefore⟩] at h
        rw [if_pos ⟨rfl, hlong⟩]
        simp only [PubReply.norm, normProperties, if_true, encodePubackProperties,
          encodeProperties_norm]
        exact h
      · rw [if_neg fun hboth => hlong hboth.2]
        -- either form has written the identifier
        have hid : ∃ idBytes, packH packet.packetId = .ok idBytes := by
          obtain ⟨bytes, h⟩ := h
          split at h
          · obtain ⟨idBytes, hidBytes, -⟩ := bind_eq_ok.mp h
            exact ⟨idBytes, hidBytes⟩
          · obtain ⟨idBytes, hidBytes, -⟩ := bind_eq_ok.mp h
            exact ⟨idBytes, hidBytes⟩
        obtain ⟨idBytes, hidBytes⟩ := hid
        have hfits : Fits (packH packet.packetId) 2 :=
          ⟨idBytes, hidBytes, (packH_length hidBytes).le⟩
        apply hfits.encodes_bind
        intro idBytes hidBytes
        apply encodes_buildPacket hflags
        omega

theorem encodes_disconnect_norm {packet : Disconnect}
    (h : Encodes (encodeDisconnect packet version)) :
    Encodes (encodeDisconnect (packet.norm version) version) := by
  unfold encodeDisconnect at h ⊢
  cases version with
  | v311 =>
      rw [if_neg (by simp)] at h ⊢
      exact h
  | v5 =>
      by_cases hlong : packet.reasonCode ≠ 0 ∨ disconnectSet.norm packet.properties ≠ none
      · have hbefore : packet.reasonCode ≠ 0 ∨ packet.properties ≠ none :=
          hlong.imp_right ne_none_of_norm_ne_none
        rw [if_pos ⟨rfl, hbefore⟩] at h
        rw [if_pos ⟨rfl, hlong⟩]
        simp only [Disconnect.norm, normProperties, if_true, encodeDisconnectProperties,
          encodeProperties_norm]
        exact h
      · rw [if_neg fun hboth => hlong hboth.2]
        exact encodes_buildPacket (by decide) (Nat.zero_le _)

/-- What a round trip returns can be encoded like the packet it came from. -/
theorem encodes_norm {packet : Packet} (h : Encodes (encode packet version)) :
    Encodes (encode (norm version packet) version) := by
  cases packet with
  | connect packet =>
      have heq : encodeConnect (packet.norm version) version = encodeConnect packet version := by
        unfold encodeConnect
        rw [connectFlags_norm]
        simp only [Connect.norm, encodeWill_norm, encodeConnectProperties, versionProperties_norm]
      exact h.congr heq
  | connack packet =>
      have heq : encodeConnack (packet.norm version) version = encodeConnack packet version := by
        simp only [encodeConnack, ConnAck.norm, encodeConnackProperties, versionProperties_norm]
        rfl
      exact h.congr heq
  | publish packet =>
      exact h.congr (encodePublish_norm packet)
  | puback packet => exact encodes_pubAckVariant_norm (by decide) h
  | pubrec packet => exact encodes_pubAckVariant_norm (by decide) h
  | pubrel packet => exact encodes_pubAckVariant_norm (by decide) h
  | pubcomp packet => exact encodes_pubAckVariant_norm (by decide) h
  | subscribe packet =>
      have heq : encodeSubscribe (packet.norm version) version =
          encodeSubscribe packet version := by
        simp only [encodeSubscribe, Subscribe.norm, encodeSubscribeProperties,
          versionProperties_norm, encodeSubscriptions_norm]
      exact h.congr heq
  | suback packet =>
      have heq : encodeSuback (packet.norm version) version = encodeSuback packet version := by
        simp only [encodeSuback, SubAck.norm, encodeSubackProperties, versionProperties_norm]
      exact h.congr heq
  | unsubscribe packet =>
      have heq : encodeUnsubscribe (packet.norm version) version =
          encodeUnsubscribe packet version := by
        simp only [encodeUnsubscribe, Unsubscribe.norm, encodeUnsubscribeProperties,
          versionProperties_norm]
      exact h.congr heq
  | unsuback packet =>
      have heq : encodeUnsuback (packet.norm version) version = encodeUnsuback packet version := by
        cases version with
        | v311 => rfl
        | v5 =>
            simp only [encodeUnsuback, UnsubAck.norm, encodeUnsubackProperties, normProperties,
              if_true, encodeProperties_norm]
      exact h.congr heq
  | pingreq => exact h
  | pingresp => exact h
  | disconnect packet => exact encodes_disconnect_norm h
  | auth packet =>
      have heq : encodeAuth packet.norm = encodeAuth packet := by
        simp only [encodeAuth, Auth.norm, encodeAuthProperties, encodeProperties_norm]
      exact h.congr heq

theorem PropertySet.norm_norm (props : Option P) : S.norm (S.norm props) = S.norm props := by
  simp [PropertySet.norm]

theorem normProperties_norm (props : Option P) :
    normProperties S version (normProperties S version props) =
      normProperties S version props := by
  cases version with
  | v311 => rfl
  | v5 => exact PropertySet.norm_norm props

theorem Will.norm_norm (will : Will) :
    Will.norm version (will.norm version) = will.norm version := by
  simp only [Will.norm, normProperties_norm]

theorem SubscriptionRequest.norm_norm (sub : SubscriptionRequest) :
    SubscriptionRequest.norm version (sub.norm version) = sub.norm version := by
  cases version <;> rfl

/-- A second round trip changes nothing. -/
theorem norm_norm (packet : Packet) : norm version (norm version packet) = norm version packet := by
  cases packet with
  | connect packet =>
      simp only [norm, Connect.norm, normProperties_norm, Option.map_map, Function.comp_def,
        Will.norm_norm]
  | subscribe packet =>
      simp only [norm, Subscribe.norm, normProperties_norm, List.map_map, Function.comp_def,
        SubscriptionRequest.norm_norm]
  | publish packet =>
      have hid : (if packet.qos = .atMostOnce then none
          else if packet.qos = .atMostOnce then none else packet.packetId) =
          if packet.qos = .atMostOnce then none else packet.packetId := by
        split <;> rfl
      simp only [norm, Publish.norm, normProperties_norm, hid]
  | puback packet | pubrec packet | pubrel packet | pubcomp packet =>
      simp only [norm, PubReply.norm, normProperties_norm]
      cases version <;> rfl
  | connack packet => simp only [norm, ConnAck.norm, normProperties_norm]
  | suback packet => simp only [norm, SubAck.norm, normProperties_norm]
  | unsubscribe packet => simp only [norm, Unsubscribe.norm, normProperties_norm]
  | unsuback packet =>
      simp only [norm, UnsubAck.norm, normProperties_norm]
      cases version <;> rfl
  | disconnect packet =>
      simp only [norm, Disconnect.norm, normProperties_norm]
      cases version <;> rfl
  | auth packet => simp only [norm, Auth.norm, PropertySet.norm_norm]
  | pingreq | pingresp => rfl

/-! ## The whole format -/

/-- The protocol-level byte of a CONNECT: behind the fixed header and the protocol
name. -/
def protocolLevel (buffer : Bytes) : Option UInt8 :=
  match remainingLengthLoop buffer 4 0 1 0 0 with
  | .ok (some (_, varintBytes)) => buffer[1 + varintBytes + 6]?
  | _ => none

theorem map_eq_ok {α : Type} {x : Except CodecError α} {f : α → Packet} {packet : Packet}
    (h : f <$> x = .ok packet) : ∃ a, x = .ok a ∧ packet = f a := by
  cases x with
  | error e => cases h
  | ok a => exact ⟨a, rfl, (Except.ok.inj h).symm⟩

theorem reencodes_decodeBody {packetType : PacketType} {flags : Nat} {packet : Packet}
    (hbody : body.length ≤ 2 ^ 27)
    (hlevel : ∀ connect, packet = .connect connect →
      ∀ level, body[6]? = some level → level = version.level)
    (h : decodeBody packetType flags body version = .ok packet) : Reencodes version packet := by
  have hzero : 0 < 16 := by decide
  have htwo : 0b0010 < 16 := by decide
  have hping : Encodes (buildPacket .pingreq 0 []) ∧ Encodes (buildPacket .pingresp 0 []) :=
    ⟨encodes_buildPacket (by decide) (Nat.zero_le _),
      encodes_buildPacket (by decide) (Nat.zero_le _)⟩
  cases packetType with
  | connect =>
      obtain ⟨packet, hpacket, rfl⟩ := map_eq_ok h
      exact reencodes_connect hbody (hlevel packet rfl) hpacket
  | connack =>
      obtain ⟨packet, hpacket, rfl⟩ := map_eq_ok h
      exact reencodes_connack hbody hpacket
  | publish =>
      obtain ⟨packet, hpacket, rfl⟩ := map_eq_ok h
      exact reencodes_publish hbody hpacket
  | puback =>
      obtain ⟨packet, hpacket, rfl⟩ := map_eq_ok h
      obtain ⟨hencodes, hnorm⟩ := reencodes_pubAckVariant _ hzero hbody hpacket
      exact ⟨hencodes, congrArg Packet.puback hnorm⟩
  | pubrec =>
      obtain ⟨packet, hpacket, rfl⟩ := map_eq_ok h
      obtain ⟨hencodes, hnorm⟩ := reencodes_pubAckVariant _ hzero hbody hpacket
      exact ⟨hencodes, congrArg Packet.pubrec hnorm⟩
  | pubrel =>
      obtain ⟨packet, hpacket, rfl⟩ := map_eq_ok h
      obtain ⟨hencodes, hnorm⟩ := reencodes_pubAckVariant _ htwo hbody hpacket
      exact ⟨hencodes, congrArg Packet.pubrel hnorm⟩
  | pubcomp =>
      obtain ⟨packet, hpacket, rfl⟩ := map_eq_ok h
      obtain ⟨hencodes, hnorm⟩ := reencodes_pubAckVariant _ hzero hbody hpacket
      exact ⟨hencodes, congrArg Packet.pubcomp hnorm⟩
  | subscribe =>
      obtain ⟨packet, hpacket, rfl⟩ := map_eq_ok h
      exact reencodes_subscribe hbody hpacket
  | suback =>
      obtain ⟨packet, hpacket, rfl⟩ := map_eq_ok h
      exact reencodes_suback hbody hpacket
  | unsubscribe =>
      obtain ⟨packet, hpacket, rfl⟩ := map_eq_ok h
      exact reencodes_unsubscribe hbody hpacket
  | unsuback =>
      obtain ⟨packet, hpacket, rfl⟩ := map_eq_ok h
      exact reencodes_unsuback hbody hpacket
  | pingreq =>
      cases h
      exact ⟨hping.1, rfl⟩
  | pingresp =>
      cases h
      exact ⟨hping.2, rfl⟩
  | disconnect =>
      obtain ⟨packet, hpacket, rfl⟩ := map_eq_ok h
      exact reencodes_disconnect hbody hpacket
  | auth =>
      obtain ⟨packet, hpacket, rfl⟩ := map_eq_ok h
      exact reencodes_auth hbody hpacket

/-- The body a packet was decoded from. -/
theorem decode_some_body {buffer : Bytes} {packet : Packet} {n : Nat} {limit : Option Int}
    (h : decode buffer version limit = .ok (some (packet, n))) :
    ∃ remainingLength varintBytes packetType flags,
      remainingLengthLoop buffer 4 0 1 0 0 = .ok (some (remainingLength, varintBytes)) ∧
      decodeBody packetType flags
        (slice buffer (1 + varintBytes) (1 + varintBytes + remainingLength)) version =
          .ok packet := by
  unfold decode at h
  split at h
  · cases h
  obtain ⟨firstByte, -, h⟩ := bind_eq_ok.mp h
  obtain ⟨header, hheader, h⟩ := bind_eq_ok.mp h
  match header with
  | none => cases h
  | some (remainingLength, varintBytes) =>
      simp only [decodeFrame] at h
      split at h
      · cases h
      split at h
      · cases h
      obtain ⟨packetType, -, h⟩ := bind_eq_ok.mp h
      obtain ⟨packet', hbody, h⟩ := bind_eq_ok.mp h
      cases h
      exact ⟨remainingLength, varintBytes, packetType, _, hheader, hbody⟩

/-- **Every decoded packet can be encoded again.**  In both versions, for every buffer
of at most 2^27 bytes that decodes to a packet (a CONNECT with the version's own
protocol level), the packet encodes, and the encoding decodes to the packet with its
empty properties objects dropped.  That packet comes back unchanged from every further
round. -/
theorem decoded_packet_reencodes (version : Version) (buffer : Bytes) (packet : Packet) (n : Nat)
    (hlen : buffer.length ≤ 2 ^ 27) (h : decode buffer version none = .ok (some (packet, n)))
    (hlevel : ∀ connect, packet = .connect connect →
      protocolLevel buffer = some version.level) :
    (∃ bytes, encode packet version = .ok bytes ∧
        decode bytes version none = .ok (some (packet.dropEmpty, bytes.length))) ∧
      ∃ bytes, encode packet.dropEmpty version = .ok bytes ∧
        decode bytes version none = .ok (some (packet.dropEmpty, bytes.length)) := by
  obtain ⟨remainingLength, varintBytes, packetType, flags, hheader, hbody⟩ := decode_some_body h
  have hlenBody : (slice buffer (1 + varintBytes)
      (1 + varintBytes + remainingLength)).length ≤ 2 ^ 27 := by
    rw [slice, List.length_drop, List.length_take]
    omega
  -- the level byte lies in the body, which begins with the protocol name
  have hlevelBody : ∀ connect, packet = .connect connect → ∀ level,
      (slice buffer (1 + varintBytes) (1 + varintBytes + remainingLength))[6]? = some level →
        level = version.level := by
    intro connect hconnect level hbyte
    have hbuffer := hlevel connect hconnect
    simp only [protocolLevel, hheader] at hbuffer
    rw [slice, List.getElem?_drop, List.getElem?_take] at hbyte
    split at hbyte
    · rw [hbuffer] at hbyte
      exact (Option.some.inj hbyte).symm
    · cases hbyte
  obtain ⟨⟨bytes, hencode⟩, hnorm⟩ := reencodes_decodeBody hlenBody hlevelBody hbody
  obtain ⟨bytes', hencode'⟩ := encodes_norm ⟨bytes, hencode⟩
  have hdecode := decode_encode packet version bytes [] hencode
  have hdecode' := decode_encode _ version bytes' [] hencode'
  rw [List.append_nil, hnorm] at hdecode
  rw [List.append_nil, norm_norm, hnorm] at hdecode'
  rw [hnorm] at hencode'
  exact ⟨⟨bytes, hencode, hdecode⟩, bytes', hencode', hdecode'⟩

/-- A PUBACK with a remaining length of two bytes where one is enough and a property
that is not its own: it decodes with an empty properties object, which the next round
drops. -/
theorem decoded_packet_reencodes_foreign :
    decode [0x40, 0x87, 0x00, 0x00, 0x07, 0x00, 0x03, 0x23, 0x00, 0x05] .v5 none =
        .ok (some (.puback { packetId := 7, properties := some {} }, 10)) ∧
      (∃ bytes, encode (.puback { packetId := 7, properties := some {} }) .v5 = .ok bytes ∧
        decode bytes .v5 none = .ok (some (.puback { packetId := 7 }, bytes.length))) := by
  have hdecode : decode [0x40, 0x87, 0x00, 0x00, 0x07, 0x00, 0x03, 0x23, 0x00, 0x05] .v5 none =
      .ok (some (.puback { packetId := 7, properties := some {} }, 10)) := by rfl
  have hagain := decoded_packet_reencodes .v5 _ _ _ (by decide) hdecode
    (by intro connect hconnect; cases hconnect)
  exact ⟨hdecode, hagain.1⟩

end Zmqtt
