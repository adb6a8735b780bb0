import Zmqtt.CodecRoundTrip
import Zmqtt.SizeLimit

/-!
# A stream of encoded packets

The codec round trip is about one packet and the reader about any bytes.  Here they meet: a
peer writes the encodings of some packets one after the other, and the reader gets the stream
in pieces of any size, from any number of iterations, each left at any packet.

A packet whose encoding has arrived is yielded as the codec returns it; one that has arrived
in part is waited for, and nothing raises.  So the packets that can be read are counted by
the bytes alone (`FrameDecoder.complete`).
-/

namespace Zmqtt

open Framing

variable {version : Version} {limit limit' : Option Int} {packet : Packet} {bytes : Bytes}

/-! ## One packet -/

/-- A decoded packet that another limit allows decodes under it as well. -/
theorem decode_other_limit {buffer : Bytes} {n : Nat}
    (h : decode buffer version limit = .ok (some (packet, n))) (hn : exceeds n limit' = false) :
    decode buffer version limit' = .ok (some (packet, n)) := by
  obtain ⟨remainingLength, width, hheader, rfl, hlimit⟩ := decode_some_header h
  obtain ⟨firstByte, hdecode⟩ := @decode_of_header version buffer _ _ hheader
  rw [hdecode] at h ⊢
  rw [decodeFrame_limit hn hlimit, h]

/-- An encoded packet within the limit is a frame of the reader. -/
theorem encodes_of_encode (h : encode packet version = .ok bytes)
    (hlimit : exceeds bytes.length limit = false) :
    (frameDecoder version limit).Encodes (norm version packet, bytes) := by
  intro rest
  obtain ⟨t, flags, body, hflags, hbuild, hbody⟩ := encode_body h
  exact decode_other_limit (decode_frame hflags hbuild hbody rest) hlimit

/-! ## A sequence of packets -/

/-- The encodings of some packets, each within the limit. -/
def Encodings (version : Version) (limit : Option Int) : List Packet → List Bytes → Prop :=
  List.Forall₂ fun packet bytes =>
    encode packet version = .ok bytes ∧ exceeds bytes.length limit = false

/-- The packets as the reader yields them, each with its bytes. -/
def framesOf (version : Version) (packets : List Packet) (encodings : List Bytes) :
    List (Packet × Bytes) :=
  (packets.map (norm version)).zip encodings

variable {packets : List Packet} {encodings : List Bytes}

theorem Encodings.framesOf_bytes (h : Encodings version limit packets encodings) :
    (framesOf version packets encodings).map Prod.snd = encodings := by
  rw [framesOf, List.map_snd_zip]
  rw [List.length_map, List.Forall₂.length_eq h]

theorem Encodings.framesOf_packets (h : Encodings version limit packets encodings) :
    (framesOf version packets encodings).map Prod.fst = packets.map (norm version) := by
  rw [framesOf, List.map_fst_zip]
  rw [List.length_map, List.Forall₂.length_eq h]

theorem Encodings.encodes (h : Encodings version limit packets encodings) :
    ∀ frame ∈ framesOf version packets encodings, (frameDecoder version limit).Encodes frame := by
  induction h with
  | nil =>
      intro frame hframe
      cases hframe
  | cons hhead _ ih =>
      intro frame hframe
      rcases List.mem_cons.mp hframe with rfl | htail
      · exact encodes_of_encode hhead.1 hhead.2
      · exact ih frame htail

theorem decode_nil (version : Version) (limit : Option Int) : decode [] version limit = .ok none :=
  rfl

/-- The parse of a part of the stream. -/
theorem Encodings.parse_prefix (h : Encodings version limit packets encodings) {s : Bytes}
    (hs : s <+: encodings.flatten) :
    parse version limit s =
      ((framesOf version packets encodings).take
        (FrameDecoder.complete (framesOf version packets encodings) s.length), none) := by
  rw [← h.framesOf_bytes] at hs
  exact FrameDecoder.parse_of_prefix (decode_nil version limit) h.encodes hs

/-- The encodings are the same without a limit. -/
theorem Encodings.unlimited (h : Encodings version limit packets encodings) :
    Encodings version none packets encodings :=
  List.Forall₂.imp (fun _ _ hpacket => ⟨hpacket.1, rfl⟩) h

/-- All packets of the whole stream are complete. -/
theorem Encodings.framesOf_complete (h : Encodings version limit packets encodings) :
    (framesOf version packets encodings).take
        (FrameDecoder.complete (framesOf version packets encodings) encodings.flatten.length) =
      framesOf version packets encodings := by
  have hall := FrameDecoder.complete_all (framesOf version packets encodings)
  rw [h.framesOf_bytes] at hall
  rw [hall, List.take_length]

/-- **The wire format is uniquely decodable.**  A stream of bytes is the encodings of one
sequence of packets only, up to `norm`, and is cut into them in one way only. -/
theorem encodings_unique (version : Version) (limit limit' : Option Int)
    (packets packets' : List Packet) (encodings encodings' : List Bytes)
    (h : Encodings version limit packets encodings)
    (h' : Encodings version limit' packets' encodings')
    (hstream : encodings.flatten = encodings'.flatten) :
    packets.map (norm version) = packets'.map (norm version) ∧ encodings = encodings' := by
  have hframes : framesOf version packets encodings = framesOf version packets' encodings' := by
    have hparse := h.unlimited.parse_prefix (List.prefix_refl _)
    have hparse' := h'.unlimited.parse_prefix (List.prefix_refl _)
    rw [h.framesOf_complete] at hparse
    rw [h'.framesOf_complete, ← hstream, hparse] at hparse'
    exact (Prod.mk.inj hparse').1
  refine ⟨?_, ?_⟩
  · rw [← h.framesOf_packets, ← h'.framesOf_packets, hframes]
  · rw [← h.framesOf_bytes, ← h'.framesOf_bytes, hframes]

/-- A QoS 0 PUBLISH with and without an identifier, before a PINGRESP. -/
theorem encodings_unique_qos0 :
    norm .v311 (.publish
        { topic := [97], payload := [], qos := .atMostOnce, retain := false, dup := false,
          packetId := some 7 }) =
      norm .v311 (.publish
        { topic := [97], payload := [], qos := .atMostOnce, retain := false, dup := false }) :=
  (List.cons.inj (encodings_unique .v311 none (some 8)
    [.publish
        { topic := [97], payload := [], qos := .atMostOnce, retain := false, dup := false,
          packetId := some 7 },
      .pingresp]
    [.publish
        { topic := [97], payload := [], qos := .atMostOnce, retain := false, dup := false },
      .pingresp]
    [[0x30, 0x03, 0x00, 0x01, 0x61], [0xD0, 0x00]] [[0x30, 0x03, 0x00, 0x01, 0x61], [0xD0, 0x00]]
    (.cons ⟨rfl, rfl⟩ (.cons ⟨rfl, rfl⟩ .nil)) (.cons ⟨rfl, rfl⟩ (.cons ⟨rfl, rfl⟩ .nil))
    rfl).1).1

/-! ## The reader -/

variable {reader : Reader} {fed : Bytes} {yielded : List (Packet × Bytes)}

/-- An iteration that raises leaves bytes whose parse fails. -/
theorem Reader.Parsing.raised (h : reader.Parsing version limit fed yielded) {op : ReaderOp}
    {e : CodecError} (hevent : (reader.step op).2 = .ended (some e)) :
    (parse version limit fed).2 = some e := by
  have hadvance : ∀ i, (reader.advance i).2 = .ended (some e) →
      (parse version limit fed).2 = some e := by
    intro i hi
    rcases h.advance i with ⟨packet, bytes, hyielded, -⟩ | ⟨e', hended, -, -, hparse⟩
    · rw [hyielded] at hi
      cases hi
    · rw [hended] at hi
      cases hi
      rw [hparse]
  cases op with
  | feed data =>
      simp only [Reader.step] at hevent
      split at hevent
      · cases hevent
      · cases hevent
  | iter => cases hevent
  | next i =>
      simp only [Reader.step] at hevent
      split at hevent
      · exact hadvance i hevent
      · exact hadvance i hevent
      · cases hevent
      · cases hevent
  | close i => cases hevent

/-- No iteration raises while the bytes fed begin a stream whose parse does not fail. -/
theorem Reader.Parsing.undisturbed {s : Bytes} (hs : (parse version limit s).2 = none)
    (ops : List ReaderOp) :
    ∀ {reader : Reader} {fed : Bytes} {yielded : List (Packet × Bytes)},
      reader.Parsing version limit fed yielded → fed ++ fedBytes (reader.run ops).2 <+: s →
      ∀ e, ReaderEvent.ended (some e) ∉ (reader.run ops).2 := by
  induction ops with
  | nil =>
      intro reader fed yielded _ _ e hmem
      cases hmem
  | cons op ops ih =>
      intro reader fed yielded h hprefix e hmem
      have hfed : fed ++ fedBytes (reader.run (op :: ops)).2 =
          fed ++ fedBytes [(reader.step op).2] ++ fedBytes ((reader.step op).1.run ops).2 := by
        rw [List.append_assoc, ← fedBytes_append]
        rfl
      rcases List.mem_cons.mp hmem with hhead | htail
      · obtain ⟨more, hmore⟩ := (List.prefix_append _ _).trans hprefix
        have herror := FrameDecoder.parse_error_append (h.raised hhead.symm) more
        rw [hmore] at herror
        exact absurd (hs.symm.trans herror) (by simp)
      · rw [hfed] at hprefix
        exact ih (h.step op) hprefix e htail

/-- A feed is accepted, or refused because an iteration is suspended. -/
theorem Reader.step_feed (reader : Reader) (data : Bytes) :
    (reader.step (.feed data)).2 = .fed data ∨
      reader.exported = true ∧ reader.step (.feed data) = (reader, .bufferError) := by
  unfold Reader.step
  simp only
  split
  · rename_i hrefused
    refine Or.inr ⟨?_, rfl⟩
    unfold PacketBuffer.feed at hrefused
    grind
  · exact Or.inl rfl

/-- **A stream of encoded packets comes out as those packets.**  Whatever is done with a new
reader, while the bytes fed to it begin the encodings of some packets:

* the packets yielded are, in order and with their bytes, the first of them, and only
  packets that have arrived completely;
* no iteration raises; a feed raises only while an iteration is suspended, and feeds nothing
  then;
* an iteration run to its end leaves every packet that has arrived completely yielded. -/
theorem encoded_stream_yielded (version : Version) (limit : Option Int) (packets : List Packet)
    (encodings : List Bytes) (ops : List ReaderOp) (reader : Reader) (events : List ReaderEvent)
    (hencodings : Encodings version limit packets encodings)
    (hrun : (Reader.init version limit).run ops = (reader, events))
    (hfed : fedBytes events <+: encodings.flatten) :
    let arrived := (framesOf version packets encodings).take
      (FrameDecoder.complete (framesOf version packets encodings) (fedBytes events).length)
    yieldedPackets events <+: arrived ∧
      (∀ e, ReaderEvent.ended (some e) ∉ events) ∧
      (∀ data, (reader.step (.feed data)).2 = .fed data ∨
        reader.exported = true ∧ reader.step (.feed data) = (reader, .bufferError)) ∧
      (∀ i e, (reader.step (.next i)).2 = .ended e →
        e = none ∧ yieldedPackets events = arrived) ∧
      (∀ i state, reader.iterators[i]? = some state → state ≠ .finished →
        ∃ k more, (reader.run (List.replicate (k + 1) (.next i))).2 = more ++ [.ended none] ∧
          yieldedPackets events ++ yieldedPackets more = arrived) := by
  intro arrived
  have h := (Reader.init_parsing version limit).run ops
  have hstream : (parse version limit encodings.flatten).2 = none := by
    rw [hencodings.parse_prefix (List.prefix_refl _)]
  have hundisturbed := (Reader.init_parsing version limit).undisturbed hstream ops
  rw [hrun] at h hundisturbed
  simp only [List.nil_append] at h hundisturbed
  have hparse : parse version limit (fedBytes events) = (arrived, none) :=
    hencodings.parse_prefix hfed
  refine ⟨?_, hundisturbed hfed, reader.step_feed, fun i e hend => ?_, fun i state hi hlive => ?_⟩
  · have hprefix := h.consumed.prefix_parse (List.prefix_refl _)
    rw [show (frameDecoder version limit).parse (fedBytes events) = (arrived, none) from hparse]
      at hprefix
    exact hprefix
  · rcases hi : reader.iterators[i]? with _ | state
    · simp [Reader.step, hi] at hend
    · by_cases hlive : state = .finished
      · simp [Reader.step, hi, hlive] at hend
      · rw [Reader.step_next hi hlive] at hend
        rcases h.advance i with ⟨packet, bytes, hev, -⟩ | ⟨e', hev, -, -, hended⟩
        · rw [hev] at hend
          cases hend
        · rw [hev] at hend
          cases hend
          rw [hparse] at hended
          obtain ⟨hyielded, hnone⟩ := Prod.mk.inj hended
          exact ⟨hnone.symm, hyielded.symm⟩
  · obtain ⟨k, more, hrun, hyielded⟩ := h.drain i _ hi hlive (Nat.lt_succ_self _)
    rw [hparse] at hrun hyielded
    exact ⟨k, more, hrun, hyielded⟩

/-- A PINGRESP and a PUBLISH with QoS 0, cut inside the second packet: the first is yielded
and the second waited for. -/
theorem encoded_stream_yielded_cut :
    yieldedPackets [.fed [0xD0, 0x00, 0x30], .silent, .yielded .pingresp [0xD0, 0x00],
        .ended none, .fed [0x03, 0x00]] <+: [(.pingresp, [0xD0, 0x00])] :=
  (encoded_stream_yielded .v311 (some 8)
    [.pingresp, .publish
      { topic := [97], payload := [], qos := .atMostOnce, retain := false, dup := false }]
    [[0xD0, 0x00], [0x30, 0x03, 0x00, 0x01, 0x61]]
    [.feed [0xD0, 0x00, 0x30], .iter, .next 0, .next 0, .feed [0x03, 0x00]]
    { buffer := { buf := [0x30, 0x03, 0x00], maxPacketSize := some 8 }, iterators := [.finished] }
    [.fed [0xD0, 0x00, 0x30], .silent, .yielded .pingresp [0xD0, 0x00], .ended none,
      .fed [0x03, 0x00]]
    (.cons ⟨rfl, rfl⟩ (.cons ⟨rfl, rfl⟩ .nil)) rfl (by decide)).1

end Zmqtt
