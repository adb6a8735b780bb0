import Zmqtt.PacketBuffer

/-!
# What the Maximum Packet Size bounds

`decode` compares the size in the fixed header with the limit before it waits for the body.
So with a full iteration after each read, what stays in the buffer is an incomplete header or
the beginning of a packet within the limit, and the packet that is too large ends the
iteration that follows the read with the last byte of its fixed header.
-/

namespace Zmqtt

open Framing

/-! ## The fixed header -/

theorem remainingLengthLoop_some_length {buffer : Bytes} {remainingLength width : Nat} :
    ∀ (n i multiplier length varintBytes : Nat), varintBytes = i →
      remainingLengthLoop buffer n i multiplier length varintBytes =
        .ok (some (remainingLength, width)) → i < width ∧ 1 + width ≤ buffer.length := by
  intro n
  induction n with
  | zero =>
      intro i multiplier length varintBytes _ h
      rw [remainingLengthLoop] at h
      exact absurd h (by simp)
  | succ n ih =>
      intro i multiplier length varintBytes hi h
      rw [remainingLengthLoop] at h
      cases hbyte : buffer[1 + i]? with
      | none => simp [hbyte] at h
      | some byte =>
          simp only [hbyte] at h
          by_cases hlast : byte.toNat &&& 0x80 = 0
          · rw [if_pos hlast, Except.ok.injEq, Option.some.injEq, Prod.mk.injEq] at h
            have hlt := (List.getElem?_eq_some_iff.mp hbyte).1
            omega
          · rw [if_neg hlast] at h
            have hbounds := ih (i + 1) _ _ _ (by omega) h
            omega

/-- The loop reads the bytes of the header only. -/
theorem remainingLengthLoop_take {buffer : Bytes} {remainingLength width k : Nat}
    (hk : 1 + width ≤ k) :
    ∀ (n i multiplier length varintBytes : Nat), varintBytes = i →
      remainingLengthLoop buffer n i multiplier length varintBytes =
        .ok (some (remainingLength, width)) →
      remainingLengthLoop (buffer.take k) n i multiplier length varintBytes =
        .ok (some (remainingLength, width)) := by
  intro n
  induction n with
  | zero =>
      intro i multiplier length varintBytes _ h
      rw [remainingLengthLoop] at h
      exact absurd h (by simp)
  | succ n ih =>
      intro i multiplier length varintBytes hi h
      have hwidth := (remainingLengthLoop_some_length _ _ _ _ _ hi h).1
      rw [remainingLengthLoop] at h ⊢
      rw [List.getElem?_take_of_lt (by omega)]
      cases hbyte : buffer[1 + i]? with
      | none => simp [hbyte] at h
      | some byte =>
          simp only [hbyte] at h ⊢
          by_cases hlast : byte.toNat &&& 0x80 = 0
          · rw [if_pos hlast] at h ⊢
            exact h
          · rw [if_neg hlast] at h ⊢
            exact ih (i + 1) _ _ _ (by omega) h

/-- The header is incomplete only where the buffer ends. -/
theorem remainingLengthLoop_none_length {buffer : Bytes} :
    ∀ (n i multiplier length varintBytes : Nat),
      remainingLengthLoop buffer n i multiplier length varintBytes = .ok none →
      buffer.length ≤ i + n := by
  intro n
  induction n with
  | zero =>
      intro i multiplier length varintBytes h
      rw [remainingLengthLoop] at h
      exact absurd h (by simp)
  | succ n ih =>
      intro i multiplier length varintBytes h
      rw [remainingLengthLoop] at h
      cases hbyte : buffer[1 + i]? with
      | none =>
          have hle := List.getElem?_eq_none_iff.mp hbyte
          omega
      | some byte =>
          simp only [hbyte] at h
          by_cases hlast : byte.toNat &&& 0x80 = 0
          · rw [if_pos hlast] at h
            exact absurd h (by simp)
          · rw [if_neg hlast] at h
            have hle := ih (i + 1) _ _ _ h
            omega

variable {version : Version} {limit : Option Int} {buffer : Bytes}

/-- `decode` once the fixed header is complete. -/
theorem decode_of_header {remainingLength width : Nat}
    (h : remainingLengthLoop buffer 4 0 1 0 0 = .ok (some (remainingLength, width))) :
    ∃ firstByte, ∀ limit, decode buffer version limit =
      decodeFrame buffer firstByte remainingLength width version limit := by
  have hlen := remainingLengthLoop_some_length 4 0 1 0 0 rfl h
  obtain ⟨first, hfirst⟩ : ∃ first, byteAt buffer 0 = .ok first := by
    unfold byteAt
    rw [List.getElem?_eq_getElem (by omega)]
    exact ⟨_, rfl⟩
  refine ⟨first.toNat, fun limit => ?_⟩
  unfold decode
  rw [if_neg (by omega), hfirst, h, ok_bind, ok_bind]

theorem decode_of_incomplete (h : remainingLengthLoop buffer 4 0 1 0 0 = .ok none) :
    decode buffer version limit = .ok none := by
  unfold decode
  split_ifs with hshort
  · rfl
  · unfold byteAt
    rw [List.getElem?_eq_getElem (by omega), h]
    rfl

/-- The header is complete or not, or it is no header. -/
theorem decode_ok_header {result : Option (Packet × Nat)}
    (h : decode buffer version limit = .ok result) :
    buffer.length < 2 ∨ ∃ header, remainingLengthLoop buffer 4 0 1 0 0 = .ok header := by
  unfold decode at h
  split_ifs at h with hshort
  · exact .inl hshort
  · obtain ⟨firstByte, -, h⟩ := bind_eq_ok.mp h
    obtain ⟨header, hheader, -⟩ := bind_eq_ok.mp h
    exact .inr ⟨header, hheader⟩

/-! ## What the limit does -/

theorem exceeds_some {total m : Nat} : exceeds total (some (m : Int)) = true ↔ m < total := by
  simp [exceeds]

/-- A header that shows too large a packet raises, whatever follows. -/
theorem decode_too_large {m remainingLength width : Nat}
    (h : remainingLengthLoop buffer 4 0 1 0 0 = .ok (some (remainingLength, width)))
    (hlarge : m < 1 + width + remainingLength) :
    decode buffer version (some m) =
      .error (.packetTooLarge (1 + width + remainingLength) m) := by
  obtain ⟨firstByte, hdecode⟩ := @decode_of_header version buffer _ _ h
  rw [hdecode]
  unfold decodeFrame
  exact if_pos (exceeds_some.mpr hlarge)

theorem decodeFrame_some {firstByte remainingLength width n : Nat} {packet : Packet}
    (h : decodeFrame buffer firstByte remainingLength width version limit =
      .ok (some (packet, n))) :
    n = 1 + width + remainingLength ∧ exceeds n limit = false := by
  unfold decodeFrame at h
  dsimp only at h
  split_ifs at h with hlarge hshort
  · exact absurd (Except.ok.inj h) (by simp)
  · obtain ⟨packetType, -, h⟩ := bind_eq_ok.mp h
    obtain ⟨body, -, h⟩ := bind_eq_ok.mp h
    have hn : n = 1 + width + remainingLength := by
      have hpair := Option.some.inj (Except.ok.inj h)
      exact (Prod.mk.inj hpair).2.symm
    rw [hn]
    exact ⟨rfl, by simpa using hlarge⟩

/-- The limit plays no role for a packet within it. -/
theorem decodeFrame_limit {firstByte remainingLength width : Nat} {limit' : Option Int}
    (h : exceeds (1 + width + remainingLength) limit = false)
    (h' : exceeds (1 + width + remainingLength) limit' = false) :
    decodeFrame buffer firstByte remainingLength width version limit =
      decodeFrame buffer firstByte remainingLength width version limit' := by
  unfold decodeFrame
  simp only [h, h', Bool.false_eq_true, if_false]

/-- A decoded packet has a complete header, the size it shows, and is within the limit. -/
theorem decode_some_header {n : Nat} {packet : Packet}
    (h : decode buffer version limit = .ok (some (packet, n))) :
    ∃ remainingLength width,
      remainingLengthLoop buffer 4 0 1 0 0 = .ok (some (remainingLength, width)) ∧
        n = 1 + width + remainingLength ∧ exceeds n limit = false := by
  rcases decode_ok_header h with hshort | ⟨header, hheader⟩
  · unfold decode at h
    rw [if_pos hshort] at h
    exact absurd h (by simp)
  · cases header with
    | none =>
        rw [decode_of_incomplete hheader] at h
        exact absurd h (by simp)
    | some header =>
        obtain ⟨remainingLength, width⟩ := header
        obtain ⟨firstByte, hdecode⟩ := @decode_of_header version buffer _ _ hheader
        rw [hdecode] at h
        obtain ⟨hn, hwithin⟩ := decodeFrame_some h
        exact ⟨remainingLength, width, hheader, hn, hwithin⟩

theorem decode_within_limit {m n : Nat} {packet : Packet}
    (h : decode buffer version (some m) = .ok (some (packet, n))) : n ≤ m := by
  obtain ⟨-, -, -, -, hwithin⟩ := decode_some_header h
  rw [← Bool.not_eq_true, exceeds_some] at hwithin
  omega

/-- A packet within the limit is decoded as without one. -/
theorem decode_with_limit {m n : Nat} {packet : Packet}
    (h : decode buffer version none = .ok (some (packet, n))) (hn : n ≤ m) :
    decode buffer version (some m) = .ok (some (packet, n)) := by
  obtain ⟨remainingLength, width, hheader, rfl, hnone⟩ := decode_some_header h
  have hsome : exceeds (1 + width + remainingLength) (some (m : Int)) = false := by
    rw [← Bool.not_eq_true, exceeds_some]
    omega
  obtain ⟨firstByte, hdecode⟩ := @decode_of_header version buffer _ _ hheader
  rw [hdecode] at h ⊢
  rw [decodeFrame_limit hsome hnone, h]

/-- What is left when `decode` asks for more bytes. -/
theorem decode_none_length {m : Nat} (h : decode buffer version (some m) = .ok none) :
    buffer.length < max m 5 := by
  rcases decode_ok_header h with hshort | ⟨header, hheader⟩
  · omega
  · cases header with
    | none =>
        have hle := remainingLengthLoop_none_length 4 0 1 0 0 hheader
        omega
    | some header =>
        obtain ⟨remainingLength, width⟩ := header
        obtain ⟨firstByte, hdecode⟩ := @decode_of_header version buffer _ _ hheader
        rw [hdecode] at h
        unfold decodeFrame at h
        dsimp only at h
        split_ifs at h with hlarge hshort
        · rw [exceeds_some] at hlarge
          omega
        · obtain ⟨packetType, -, h⟩ := bind_eq_ok.mp h
          obtain ⟨body, -, h⟩ := bind_eq_ok.mp h
          exact absurd (Except.ok.inj h) (by simp)

/-- While the header is incomplete, `decode` asks for more bytes. -/
theorem decode_take_header {remainingLength width k : Nat}
    (h : remainingLengthLoop buffer 4 0 1 0 0 = .ok (some (remainingLength, width)))
    (hk : k < 1 + width) : decode (buffer.take k) version limit = .ok none := by
  refine decode_of_incomplete ?_
  by_contra hne
  have hstable := remainingLengthLoop_append (buffer.drop k) 4 0 1 0 0 hne
  rw [List.take_append_drop, h] at hstable
  have hlen := (remainingLengthLoop_some_length 4 0 1 0 0 rfl hstable.symm).2
  rw [List.length_take] at hlen
  omega

/-! ## A full iteration after each read -/

/-- `next` on one generator until it yields no packet, at most `fuel` times. -/
def Reader.iterate (reader : Reader) (i : Nat) : Nat → Reader × List ReaderEvent
  | 0 => (reader, [])
  | fuel + 1 =>
      let (next, event) := reader.step (.next i)
      match event with
      | .yielded packet bytes =>
          let (last, events) := next.iterate i fuel
          (last, .yielded packet bytes :: events)
      | event => (next, [event])

/-- `feed`, and a loop over a new iterator. -/
def Reader.readChunk (reader : Reader) (data : Bytes) : Reader × List ReaderEvent :=
  let (fed, event) := reader.step (.feed data)
  let (last, events) :=
    (fed.step .iter).1.iterate fed.iterators.length (fed.buffer.buf.length + 1)
  (last, event :: events)

/-- The same for one chunk after the other. -/
def Reader.readChunks (reader : Reader) (chunks : List Bytes) : Reader :=
  chunks.foldl (fun reader data => (reader.readChunk data).1) reader

/-- The event of a yielded packet. -/
def yieldOf (frame : Packet × Bytes) : ReaderEvent := .yielded frame.1 frame.2

variable {reader : Reader} {fed : Bytes} {yielded : List (Packet × Bytes)}

/-- The iteration ends with the packets and the exception of the parse. -/
theorem Reader.Parsing.iterate (i : Nat) :
    ∀ (fuel : Nat) {reader : Reader} {yielded : List (Packet × Bytes)} {state : IterState},
      reader.Parsing version limit fed yielded →
      reader.iterators[i]? = some state → state ≠ .finished →
      reader.buffer.buf.length - reader.buffer.offset < fuel →
      ∃ packets e, (reader.iterate i fuel).2 = packets.map yieldOf ++ [.ended e] ∧
        (reader.iterate i fuel).1.Parsing version limit fed (yielded ++ packets) ∧
        (reader.iterate i fuel).1.iterators = reader.iterators.set i .finished ∧
        parse version limit fed = (yielded ++ packets, e) := by
  intro fuel
  induction fuel with
  | zero =>
      intro reader yielded state _ _ _ hlt
      omega
  | succ fuel ih =>
      intro reader yielded state h hi hlive hlt
      rw [Reader.iterate, Reader.step_next hi hlive]
      rcases h.advance i with ⟨packet, bytes, hev, hnext, hiter, hoff, hbuf⟩ |
        ⟨e, hev, hnext, hiter, hparse⟩
      · have hsuspended : (reader.advance i).1.iterators[i]? = some .suspended := by
          rw [hiter, List.getElem?_set_self (List.getElem?_eq_some_iff.mp hi).1]
        have hle := hnext.offset_le
        obtain ⟨packets, e, hevents, hlast, hfinished, hparse⟩ := ih hnext hsuspended (by decide)
          (by rw [hbuf] at hle ⊢; omega)
        refine ⟨(packet, bytes) :: packets, e, ?_, ?_, ?_, ?_⟩
        · simp only [hev, hevents, List.map_cons, List.cons_append]
          rfl
        · simp only [hev]
          rw [List.append_cons]
          exact hlast
        · simp only [hev]
          rw [hfinished, hiter, List.set_set]
        · rw [hparse, List.append_assoc]
          rfl
      · refine ⟨[], e, ?_, ?_, ?_, ?_⟩
        · simp only [hev]
          rfl
        · simp only [hev]
          rw [List.append_nil]
          exact hnext
        · simp only [hev]
          exact hiter
        · rw [List.append_nil]
          exact hparse

/-- Between two chunks: the bytes so far are parsed as far as they go, and no iterator holds a
view. -/
structure Reader.Drained (version : Version) (limit : Option Int) (reader : Reader)
    (fed : Bytes) (yielded : List (Packet × Bytes)) : Prop where
  parsing : reader.Parsing version limit fed yielded
  finished : ∀ state ∈ reader.iterators, state = .finished

/-- **One chunk.**  Without a view on the buffer `feed` does not raise. -/
theorem Reader.Drained.readChunk (h : reader.Drained version limit fed yielded) (data : Bytes) :
    ∃ packets e,
      (reader.readChunk data).2 = .fed data :: (packets.map yieldOf ++ [.ended e]) ∧
      (reader.readChunk data).1.Drained version limit (fed ++ data) (yielded ++ packets) ∧
      parse version limit (fed ++ data) = (yielded ++ packets, e) := by
  have hexported : reader.exported = false := by
    unfold Reader.exported
    rw [List.contains_eq_mem, decide_eq_false_iff_not]
    intro hmem
    exact absurd (h.finished _ hmem) (by decide)
  obtain ⟨buffer, hfeed⟩ : ∃ buffer, reader.buffer.feed reader.exported data = some buffer := by
    unfold PacketBuffer.feed
    rw [hexported]
    split_ifs with hoffset hnone hnone
    · exact absurd hnone (by decide)
    · exact ⟨_, rfl⟩
    · exact absurd hnone.1 (by decide)
    · exact ⟨_, rfl⟩
  have hstep : reader.step (.feed data) = ({ reader with buffer }, .fed data) := by
    simp only [Reader.step, hfeed]
  have hopened : ({ buffer, iterators := reader.iterators ++ [.created] } : Reader).Parsing
      version limit (fed ++ data) yielded := by
    have hfed := h.parsing.step (.feed data)
    rw [hstep] at hfed
    simpa [Reader.step, fedBytes, yieldedPackets] using hfed.step .iter
  have hread : reader.readChunk data =
      ((({ buffer, iterators := reader.iterators ++ [.created] } : Reader).iterate
          reader.iterators.length (buffer.buf.length + 1)).1,
        .fed data :: (({ buffer, iterators := reader.iterators ++ [.created] } : Reader).iterate
          reader.iterators.length (buffer.buf.length + 1)).2) := by
    unfold Reader.readChunk
    rw [hstep]
    rfl
  have hcreated : (reader.iterators ++ [IterState.created])[reader.iterators.length]? =
      some .created := by simp
  obtain ⟨packets, e, hevents, hparsing, hiterators, hparse⟩ :=
    Reader.Parsing.iterate reader.iterators.length (buffer.buf.length + 1) hopened hcreated
      (by decide) (by simp only; omega)
  rw [hread]
  refine ⟨packets, e, by rw [hevents], ⟨hparsing, ?_⟩, hparse⟩
  intro state hstate
  rw [hiterators, List.set_append_right _ _ (Nat.le_refl _), Nat.sub_self] at hstate
  rcases List.mem_append.mp hstate with hold | hnew
  · exact h.finished state hold
  · exact List.mem_singleton.mp hnew

/-- **All chunks.** -/
theorem Reader.Drained.readChunks (chunks : List Bytes) :
    ∀ {reader : Reader} {fed : Bytes} {yielded : List (Packet × Bytes)},
      reader.Drained version limit fed yielded →
      ∃ packets, (reader.readChunks chunks).Drained version limit (fed ++ chunks.flatten)
        (yielded ++ packets) := by
  induction chunks with
  | nil =>
      intro reader fed yielded h
      refine ⟨[], ?_⟩
      rw [List.flatten_nil, List.append_nil, List.append_nil]
      exact h
  | cons data chunks ih =>
      intro reader fed yielded h
      obtain ⟨packets, e, -, hnext, -⟩ := h.readChunk data
      obtain ⟨more, hlast⟩ := ih hnext
      refine ⟨packets ++ more, ?_⟩
      rw [List.flatten_cons, ← List.append_assoc, ← List.append_assoc]
      exact hlast

theorem Reader.init_drained (version : Version) (limit : Option Int) :
    (Reader.init version limit).Drained version limit [] [] :=
  ⟨Reader.init_parsing version limit, fun _ hstate => absurd hstate List.not_mem_nil⟩

/-! ## What a stream with a limit parses to -/

theorem consumed_within {m : Nat} {s r : Bytes} {frames : List (Packet × Bytes)}
    (h : (frameDecoder version (some m)).Consumed s frames r) :
    ∀ frame ∈ frames, frame.2.length ≤ m := by
  induction h with
  | start => exact fun frame hframe => absurd hframe List.not_mem_nil
  | frame before hdecode ih =>
      intro frame hframe
      rcases List.mem_append.mp hframe with hold | hnew
      · exact ih frame hold
      · rw [List.mem_singleton.mp hnew, List.length_take]
        have hle := decode_within_limit hdecode
        omega

/-- Packets within the limit are cut off as without one. -/
theorem consumed_with_limit {m : Nat} {s r : Bytes} {frames : List (Packet × Bytes)}
    (h : (frameDecoder version none).Consumed s frames r)
    (hsizes : ∀ frame ∈ frames, frame.2.length ≤ m) :
    (frameDecoder version (some m)).Consumed s frames r := by
  induction h with
  | start => exact .start
  | @frame r frames packet n before hdecode ih =>
      refine .frame (ih fun frame hframe => hsizes frame (List.mem_append_left _ hframe)) ?_
      have hsize := hsizes _ (List.mem_append_right _ List.mem_cons_self)
      rw [List.length_take, Nat.min_eq_left (decode_consumes hdecode).2] at hsize
      exact decode_with_limit hdecode hsize

/-- The stream with a packet that is too large behind packets within the limit, as far as it
has arrived: before the fixed header of that packet is complete nothing fails, from then on the
iteration raises. -/
theorem parse_too_large {m remainingLength width : Nat} {s front rest : Bytes}
    {frames : List (Packet × Bytes)} (hs : s <+: front ++ rest)
    (hfront : (frameDecoder version none).Consumed front frames [])
    (hsizes : ∀ frame ∈ frames, frame.2.length ≤ m)
    (hheader : remainingLengthLoop rest 4 0 1 0 0 = .ok (some (remainingLength, width)))
    (hlarge : m < 1 + width + remainingLength) :
    (parse version (some m) s).2 =
      if s.length < front.length + (1 + width) then none
      else some (.packetTooLarge (1 + width + remainingLength) m) := by
  have hconsumed := consumed_with_limit hfront hsizes
  -- the parse of the packets in front and of some bytes of the large one
  have hparse : ∀ part, (parse version (some m) (front ++ part)).2 =
      (parse version (some m) part).2 := by
    intro part
    rw [parse, (hconsumed.append part).parse_eq, List.nil_append]
    rfl
  split_ifs with hshort
  · cases herror : (parse version (some m) s).2 with
    | none => rfl
    | some e =>
        exfalso
        have hbefore : s <+: front ++ rest.take width := by
          refine List.prefix_of_prefix_length_le hs ?_ ?_
          · exact (List.prefix_append_right_inj front).mpr (List.take_prefix width rest)
          · have hwidth := (remainingLengthLoop_some_length 4 0 1 0 0 rfl hheader).2
            rw [List.length_append, List.length_take]
            omega
        obtain ⟨more, hmore⟩ := hbefore
        have hsame := FrameDecoder.parse_error_append herror more
        rw [hmore] at hsame
        have hnone : (parse version (some m) (rest.take width)).2 = none := by
          rw [parse, FrameDecoder.parse_of_none (decode_take_header hheader (by omega))]
        have hend := (hparse (rest.take width)).trans hnone
        exact absurd (hsame.symm.trans hend) (by simp)
  · have hfrontPrefix : front <+: s :=
      List.prefix_of_prefix_length_le (List.prefix_append _ _) hs (by omega)
    obtain ⟨part, rfl⟩ := hfrontPrefix
    have hpart : part = rest.take part.length :=
      List.prefix_iff_eq_take.mp ((List.prefix_append_right_inj front).mp hs)
    rw [List.length_append] at hshort
    have hcomplete := @remainingLengthLoop_take rest _ _ part.length (by omega) 4 0 1 0 0 rfl hheader
    rw [← hpart] at hcomplete
    rw [hparse, parse, FrameDecoder.parse_of_error (decode_too_large hcomplete hlarge)]

/-- **Maximum Packet Size bounds what is yielded and what is buffered.**  With a full iteration
after each chunk: every iteration ends; the packets it yields are within the limit; it raises
for the first packet that is too large once the fixed header has arrived, and not before, with
the size the header shows; and if it does not raise, few bytes are left. -/
theorem maximum_packet_size_bounds (version : Version) (m : Nat) (chunks : List Bytes)
    (data : Bytes) :
    ∃ (packets : List (Packet × Bytes)) (e : Option CodecError),
      (((Reader.init version (some m)).readChunks chunks).readChunk data).2 =
        .fed data :: (packets.map yieldOf ++ [.ended e]) ∧
      (∀ frame ∈ packets, frame.2.length ≤ m) ∧
      (∀ (front rest : Bytes) (frames : List (Packet × Bytes)) (remainingLength width : Nat),
        chunks.flatten ++ data <+: front ++ rest →
        (frameDecoder version none).Consumed front frames [] →
        (∀ frame ∈ frames, frame.2.length ≤ m) →
        remainingLengthLoop rest 4 0 1 0 0 = .ok (some (remainingLength, width)) →
        m < 1 + width + remainingLength →
        e = if (chunks.flatten ++ data).length < front.length + (1 + width) then none
          else some (.packetTooLarge (1 + width + remainingLength) m)) ∧
      (e = none →
        let buffer := (((Reader.init version (some m)).readChunks chunks).readChunk data).1.buffer
        (buffer.buf.drop buffer.offset).length < max m 5) := by
  obtain ⟨before, hdrained⟩ := (Reader.init_drained version (some m)).readChunks chunks
  obtain ⟨packets, e, hevents, hnext, hparse⟩ := hdrained.readChunk data
  rw [List.nil_append] at hnext hparse
  refine ⟨packets, e, hevents, fun frame hframe => ?_, ?_, ?_⟩
  · exact consumed_within hnext.parsing.consumed frame (List.mem_append_right _ hframe)
  · intro front rest frames remainingLength width hs hfront hsizes hheader hlarge
    rw [← parse_too_large hs hfront hsizes hheader hlarge, hparse]
  · rintro rfl
    exact decode_none_length
      (FrameDecoder.decode_of_parse_nil (hnext.parsing.consumed.parse_rest hparse))

-- a PINGREQ and the first byte of a PUBLISH, then the length of its body
example :
    (((Reader.init .v311 (some 4)).readChunks [[0xC0, 0x00, 0x30]]).readChunk [0x10]).2 =
      [.fed [0x10], .ended (some (.packetTooLarge 18 4))] := by decide +kernel

end Zmqtt
