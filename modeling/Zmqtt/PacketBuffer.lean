import Zmqtt.Codec
import Zmqtt.Framing

/-!
# The incremental packet reader

`PacketBuffer` collects the bytes of socket reads and yields the packets they
complete.  An iteration is a generator: its first `next` takes a view of the
buffer, every `next` decodes at the shared offset, and the view is released when
the generator ends or is closed.  A `bytearray` with a view on it cannot be
resized, so a `feed` in between raises `BufferError` and changes nothing.

`decode` keeps its answer when more bytes arrive (`decode_append`), so it is a
frame decoder.  The state of a run is then described by one invariant: the bytes
fed are a partial parse whose frames are the packets yielded and whose rest is
the buffer from the offset on.
-/

namespace Zmqtt

open Framing

/-! ## The reader -/

/-- `PacketBuffer`. -/
structure PacketBuffer where
  buf : Bytes := []
  offset : Nat := 0
  version : Version := .v311
  maxPacketSize : Option Int := none
deriving DecidableEq, Repr

/-- `PacketBuffer.feed`, or `none` for the `BufferError` of resizing the buffer
while a view on it is exported. -/
def PacketBuffer.feed (buffer : PacketBuffer) (exported : Bool) (data : Bytes) :
    Option PacketBuffer :=
  if buffer.offset ≠ 0 then
    if exported then none
    else some { buffer with buf := buffer.buf.drop buffer.offset ++ data, offset := 0 }
  -- appending nothing does not resize
  else if exported ∧ data ≠ [] then none
  else some { buffer with buf := buffer.buf ++ data }

/-- Where a generator returned by `__iter__` stands. -/
inductive IterState
  | created
  | suspended
  | finished
deriving DecidableEq, Repr

/-- A packet buffer and the generators made from it. -/
structure Reader where
  buffer : PacketBuffer
  iterators : List IterState := []
deriving DecidableEq, Repr

/-- What the owner of a buffer can do. -/
inductive ReaderOp
  | feed (data : Bytes)
  | iter
  | next (i : Nat)
  | close (i : Nat)
deriving DecidableEq, Repr

/-- What an operation shows.  A yielded packet is recorded with the bytes it was
decoded from; `ended` is the end of an iteration with the exception it raised. -/
inductive ReaderEvent
  | fed (data : Bytes)
  | bufferError
  | yielded (packet : Packet) (bytes : Bytes)
  | ended (exception : Option CodecError)
  | stopIteration
  | silent
deriving DecidableEq, Repr

def Reader.init (version : Version) (maxPacketSize : Option Int) : Reader :=
  { buffer := { version, maxPacketSize } }

/-- A suspended generator holds its view. -/
def Reader.exported (reader : Reader) : Bool :=
  reader.iterators.contains .suspended

/-- One turn of the `while True` loop of `__iter__`, from the start of the
generator or from its `yield`. -/
def Reader.advance (reader : Reader) (i : Nat) : Reader × ReaderEvent :=
  let buffer := reader.buffer
  let view := buffer.buf.drop buffer.offset
  match decode view buffer.version buffer.maxPacketSize with
  | .error e =>
      ({ reader with iterators := reader.iterators.set i .finished }, .ended (some e))
  | .ok none => ({ reader with iterators := reader.iterators.set i .finished }, .ended none)
  | .ok (some (packet, consumed)) =>
      ({ buffer := { buffer with offset := buffer.offset + consumed }
         iterators := reader.iterators.set i .suspended },
        .yielded packet (view.take consumed))

def Reader.step (reader : Reader) : ReaderOp → Reader × ReaderEvent
  | .feed data =>
      match reader.buffer.feed reader.exported data with
      | none => (reader, .bufferError)
      | some buffer => ({ reader with buffer }, .fed data)
  | .iter => ({ reader with iterators := reader.iterators ++ [.created] }, .silent)
  | .next i =>
      match reader.iterators[i]? with
      | some .created => reader.advance i
      | some .suspended => reader.advance i
      | some .finished => (reader, .stopIteration)
      | none => (reader, .silent)
  | .close i => ({ reader with iterators := reader.iterators.set i .finished }, .silent)

/-- Operations one after the other, with what they show. -/
def Reader.run (reader : Reader) : List ReaderOp → Reader × List ReaderEvent
  | [] => (reader, [])
  | op :: ops =>
      let (next, event) := reader.step op
      let (last, events) := next.run ops
      (last, event :: events)

/-- The bytes the reader accepted. -/
def fedBytes : List ReaderEvent → Bytes
  | [] => []
  | .fed data :: events => data ++ fedBytes events
  | _ :: events => fedBytes events

/-- The packets all iterations yielded, with their bytes. -/
def yieldedPackets : List ReaderEvent → List (Packet × Bytes)
  | [] => []
  | .yielded packet bytes :: events => (packet, bytes) :: yieldedPackets events
  | _ :: events => yieldedPackets events

/-! ## More bytes never change an answer -/

theorem remainingLengthLoop_append {buffer : Bytes} (more : Bytes) :
    ∀ (n i multiplier remainingLength varintBytes : Nat),
      remainingLengthLoop buffer n i multiplier remainingLength varintBytes ≠ .ok none →
      remainingLengthLoop (buffer ++ more) n i multiplier remainingLength varintBytes =
        remainingLengthLoop buffer n i multiplier remainingLength varintBytes := by
  intro n
  induction n with
  | zero =>
      intro i multiplier remainingLength varintBytes h
      rfl
  | succ n ih =>
      intro i multiplier remainingLength varintBytes h
      unfold remainingLengthLoop at h ⊢
      cases hbyte : buffer[1 + i]? with
      | none => simp [hbyte] at h
      | some byte =>
          have hlt : 1 + i < buffer.length := by
            by_contra hge
            rw [List.getElem?_eq_none (by omega)] at hbyte
            cases hbyte
          rw [List.getElem?_append_left hlt, hbyte]
          simp only [hbyte] at h
          by_cases hlast : byte.toNat &&& 0x80 = 0
          · simp only [if_pos hlast]
          · simp only [if_neg hlast] at h ⊢
            exact ih _ _ _ _ h

theorem decodeFrame_append {buffer : Bytes} {firstByte remainingLength varintBytes : Nat}
    {version : Version} {maxPacketSize : Option Int} (more : Bytes)
    (h : decodeFrame buffer firstByte remainingLength varintBytes version maxPacketSize ≠
      .ok none) :
    decodeFrame (buffer ++ more) firstByte remainingLength varintBytes version maxPacketSize =
      decodeFrame buffer firstByte remainingLength varintBytes version maxPacketSize := by
  unfold decodeFrame at h ⊢
  by_cases hbig : exceeds (1 + varintBytes + remainingLength) maxPacketSize = true
  · simp only [if_pos hbig]
  · simp only [if_neg hbig] at h ⊢
    by_cases hshort : buffer.length < 1 + varintBytes + remainingLength
    · exact absurd (if_pos hshort) h
    · have hlen : ¬ (buffer ++ more).length < 1 + varintBytes + remainingLength := by
        rw [List.length_append]
        omega
      have hslice : slice (buffer ++ more) (1 + varintBytes)
          (1 + varintBytes + remainingLength) =
          slice buffer (1 + varintBytes) (1 + varintBytes + remainingLength) := by
        unfold slice
        rw [List.take_append_of_le_length (by omega)]
      rw [if_neg hshort, if_neg hlen, hslice]

/-- **Prefix stability.**  An answer of `decode` other than "not yet" stays the
answer when bytes are added behind the buffer. -/
theorem decode_append {buffer : Bytes} {version : Version} {maxPacketSize : Option Int}
    (h : decode buffer version maxPacketSize ≠ .ok none) (more : Bytes) :
    decode (buffer ++ more) version maxPacketSize = decode buffer version maxPacketSize := by
  unfold decode at h ⊢
  by_cases hshort : buffer.length < 2
  · rw [if_pos hshort] at h
    exact absurd rfl h
  · have hlen : ¬ (buffer ++ more).length < 2 := by
      rw [List.length_append]
      omega
    have hfirst : byteAt (buffer ++ more) 0 = byteAt buffer 0 := by
      unfold byteAt
      rw [List.getElem?_append_left (by omega)]
    rw [if_neg hshort] at h
    rw [if_neg hshort, if_neg hlen, hfirst]
    cases hbyte : byteAt buffer 0 with
    | error e => rw [error_bind, error_bind]
    | ok firstByte =>
        rw [hbyte, ok_bind] at h
        rw [ok_bind, ok_bind]
        have hloop : remainingLengthLoop buffer 4 0 1 0 0 ≠ .ok none := by
          intro hnone
          rw [hnone, ok_bind] at h
          exact absurd rfl h
        rw [remainingLengthLoop_append more 4 0 1 0 0 hloop]
        cases hheader : remainingLengthLoop buffer 4 0 1 0 0 with
        | error e => rw [error_bind, error_bind]
        | ok header =>
            rw [hheader, ok_bind] at h
            rw [ok_bind, ok_bind]
            match header with
            | none => rfl
            | some (remainingLength, varintBytes) => exact decodeFrame_append more h

/-- A decoded packet takes at least its first byte and no byte beyond the buffer. -/
theorem decode_consumes {buffer : Bytes} {version : Version} {maxPacketSize : Option Int}
    {packet : Packet} {n : Nat}
    (h : decode buffer version maxPacketSize = .ok (some (packet, n))) :
    0 < n ∧ n ≤ buffer.length := by
  unfold decode at h
  by_cases hshort : buffer.length < 2
  · rw [if_pos hshort] at h
    cases h
  · rw [if_neg hshort] at h
    obtain ⟨firstByte, -, h⟩ := bind_eq_ok.mp h
    obtain ⟨header, -, h⟩ := bind_eq_ok.mp h
    match header with
    | none => cases h
    | some (remainingLength, varintBytes) =>
        simp only [decodeFrame] at h
        split at h
        · cases h
        · split at h
          · cases h
          · obtain ⟨packetType, -, h⟩ := bind_eq_ok.mp h
            obtain ⟨body, -, h⟩ := bind_eq_ok.mp h
            cases h
            omega

/-- `decode` with the version and the limit of one buffer. -/
def frameDecoder (version : Version) (maxPacketSize : Option Int) :
    FrameDecoder UInt8 Packet CodecError where
  decode buffer := decode buffer version maxPacketSize
  consumes := decode_consumes
  stable := decode_append

/-- The packets of a stream, with the exception that ends them if there is one. -/
def parse (version : Version) (maxPacketSize : Option Int) (s : Bytes) :
    List (Packet × Bytes) × Option CodecError :=
  (frameDecoder version maxPacketSize).parse s

/-! ## The invariant of a run -/

/-- The bytes fed are a partial parse: the packets yielded, then what the buffer
holds from its offset on.  The version and the limit never change. -/
structure Reader.Parsing (version : Version) (maxPacketSize : Option Int) (reader : Reader)
    (fed : Bytes) (yielded : List (Packet × Bytes)) : Prop where
  version_eq : reader.buffer.version = version
  limit_eq : reader.buffer.maxPacketSize = maxPacketSize
  consumed : (frameDecoder version maxPacketSize).Consumed fed yielded
    (reader.buffer.buf.drop reader.buffer.offset)
  offset_le : reader.buffer.offset ≤ reader.buffer.buf.length

variable {version : Version} {maxPacketSize : Option Int} {reader : Reader}
  {fed : Bytes} {yielded : List (Packet × Bytes)}

theorem fedBytes_append (xs ys : List ReaderEvent) :
    fedBytes (xs ++ ys) = fedBytes xs ++ fedBytes ys := by
  induction xs with
  | nil => rfl
  | cons x xs ih => cases x <;> simp [fedBytes, ih]

theorem yieldedPackets_append (xs ys : List ReaderEvent) :
    yieldedPackets (xs ++ ys) = yieldedPackets xs ++ yieldedPackets ys := by
  induction xs with
  | nil => rfl
  | cons x xs ih => cases x <;> simp [yieldedPackets, ih]

/-- A `feed` that does not raise puts its bytes behind the unread ones. -/
theorem PacketBuffer.feed_unread {buffer next : PacketBuffer} {exported : Bool} {data : Bytes}
    (h : buffer.feed exported data = some next) (hle : buffer.offset ≤ buffer.buf.length) :
    next.version = buffer.version ∧ next.maxPacketSize = buffer.maxPacketSize ∧
      next.buf.drop next.offset = buffer.buf.drop buffer.offset ++ data ∧
      next.offset ≤ next.buf.length := by
  unfold PacketBuffer.feed at h
  by_cases hoff : buffer.offset ≠ 0
  · rw [if_pos hoff] at h
    split at h
    · cases h
    · cases h
      exact ⟨rfl, rfl, rfl, Nat.zero_le _⟩
  · rw [if_neg hoff] at h
    split at h
    · cases h
    · cases h
      refine ⟨rfl, rfl, List.drop_append_of_le_length hle, ?_⟩
      exact Nat.le_trans hle (by simp)

/-- One turn of an iteration either yields the packet at the offset or ends where
the parse of the unread bytes ends. -/
theorem Reader.Parsing.advance (h : reader.Parsing version maxPacketSize fed yielded) (i : Nat) :
    (∃ packet bytes, (reader.advance i).2 = .yielded packet bytes ∧
        (reader.advance i).1.Parsing version maxPacketSize fed (yielded ++ [(packet, bytes)]) ∧
        (reader.advance i).1.iterators = reader.iterators.set i .suspended ∧
        reader.buffer.offset < (reader.advance i).1.buffer.offset ∧
        (reader.advance i).1.buffer.buf = reader.buffer.buf) ∨
      (∃ e, (reader.advance i).2 = .ended e ∧
        (reader.advance i).1.Parsing version maxPacketSize fed yielded ∧
        (reader.advance i).1.iterators = reader.iterators.set i .finished ∧
        parse version maxPacketSize fed = (yielded, e)) := by
  have hparse := h.consumed.parse_eq
  have hview : decode (reader.buffer.buf.drop reader.buffer.offset) reader.buffer.version
      reader.buffer.maxPacketSize =
      (frameDecoder version maxPacketSize).decode
        (reader.buffer.buf.drop reader.buffer.offset) := by
    rw [h.version_eq, h.limit_eq]
    rfl
  cases hdec : decode (reader.buffer.buf.drop reader.buffer.offset) reader.buffer.version
      reader.buffer.maxPacketSize with
  | error e =>
      simp only [Reader.advance, hdec]
      refine Or.inr ⟨some e, rfl, ⟨h.version_eq, h.limit_eq, h.consumed, h.offset_le⟩, trivial, ?_⟩
      rw [parse, hparse, FrameDecoder.parse_of_error (hview.symm.trans hdec), List.append_nil]
  | ok result =>
      cases result with
      | none =>
          simp only [Reader.advance, hdec]
          refine Or.inr ⟨none, rfl, ⟨h.version_eq, h.limit_eq, h.consumed, h.offset_le⟩, trivial, ?_⟩
          rw [parse, hparse, FrameDecoder.parse_of_none (hview.symm.trans hdec), List.append_nil]
      | some result =>
          obtain ⟨packet, consumed⟩ := result
          obtain ⟨hpos, hle⟩ := decode_consumes hdec
          rw [List.length_drop] at hle
          have hoffset := h.offset_le
          simp only [Reader.advance, hdec]
          refine Or.inl ⟨packet, _, rfl, ⟨h.version_eq, h.limit_eq, ?_, ?_⟩, trivial, ?_, trivial⟩
          · have hnext := FrameDecoder.Consumed.frame h.consumed (hview.symm.trans hdec)
            rwa [List.drop_drop] at hnext
          · simp only
            omega
          · omega

/-- **Step.**  Every operation keeps the invariant. -/
theorem Reader.Parsing.step (h : reader.Parsing version maxPacketSize fed yielded)
    (op : ReaderOp) :
    (reader.step op).1.Parsing version maxPacketSize (fed ++ fedBytes [(reader.step op).2])
      (yielded ++ yieldedPackets [(reader.step op).2]) := by
  have hsame : reader.Parsing version maxPacketSize (fed ++ []) (yielded ++ []) := by
    rwa [List.append_nil, List.append_nil]
  have hadvance : ∀ i, (reader.advance i).1.Parsing version maxPacketSize
      (fed ++ fedBytes [(reader.advance i).2])
      (yielded ++ yieldedPackets [(reader.advance i).2]) := by
    intro i
    rcases h.advance i with ⟨packet, bytes, hev, hnext, -⟩ | ⟨e, hev, hnext, -⟩
    · rw [hev]
      simpa [fedBytes, yieldedPackets] using hnext
    · rw [hev]
      simpa [fedBytes, yieldedPackets] using hnext
  cases op with
  | feed data =>
      simp only [Reader.step]
      cases hfeed : reader.buffer.feed reader.exported data with
      | none => exact hsame
      | some next =>
          obtain ⟨hversion, hlimit, hunread, hle⟩ := PacketBuffer.feed_unread hfeed h.offset_le
          refine ⟨hversion.trans h.version_eq, hlimit.trans h.limit_eq, ?_, hle⟩
          have hmore := h.consumed.append data
          rw [← hunread] at hmore
          simpa [fedBytes, yieldedPackets] using hmore
  | iter =>
      exact ⟨h.version_eq, h.limit_eq, hsame.consumed, h.offset_le⟩
  | next i =>
      simp only [Reader.step]
      cases hi : reader.iterators[i]? with
      | none => exact hsame
      | some state =>
          cases state with
          | created => exact hadvance i
          | suspended => exact hadvance i
          | finished => exact hsame
  | close i =>
      exact ⟨h.version_eq, h.limit_eq, hsame.consumed, h.offset_le⟩

/-- **Run.**  The invariant holds along every sequence of operations. -/
theorem Reader.Parsing.run (ops : List ReaderOp) :
    ∀ {reader : Reader} {fed : Bytes} {yielded : List (Packet × Bytes)},
      reader.Parsing version maxPacketSize fed yielded →
      (reader.run ops).1.Parsing version maxPacketSize (fed ++ fedBytes (reader.run ops).2)
        (yielded ++ yieldedPackets (reader.run ops).2) := by
  induction ops with
  | nil =>
      intro reader fed yielded h
      simpa [Reader.run, fedBytes, yieldedPackets] using h
  | cons op ops ih =>
      intro reader fed yielded h
      have hrest := ih (h.step op)
      rw [List.append_assoc, List.append_assoc, ← fedBytes_append, ← yieldedPackets_append] at hrest
      exact hrest

theorem Reader.init_parsing (version : Version) (maxPacketSize : Option Int) :
    (Reader.init version maxPacketSize).Parsing version maxPacketSize [] [] :=
  ⟨rfl, rfl, .start, Nat.le_refl _⟩

/-! ## An iteration run to its end -/

/-- `next` on a generator that has not ended is a turn of its loop. -/
theorem Reader.step_next {i : Nat} {state : IterState} (hi : reader.iterators[i]? = some state)
    (hlive : state ≠ .finished) : reader.step (.next i) = reader.advance i := by
  cases state with
  | created => simp only [Reader.step, hi]
  | suspended => simp only [Reader.step, hi]
  | finished => exact absurd rfl hlive

/-- **An iteration ends.**  Enough `next` calls on a live generator reach its end,
and by then every packet of the bytes fed has been yielded.  The measure is the
number of unread bytes. -/
theorem Reader.Parsing.drain (i : Nat) :
    ∀ (n : Nat) {reader : Reader} {yielded : List (Packet × Bytes)} {state : IterState},
      reader.Parsing version maxPacketSize fed yielded →
      reader.iterators[i]? = some state → state ≠ .finished →
      reader.buffer.buf.length - reader.buffer.offset < n →
      ∃ k events, (reader.run (List.replicate (k + 1) (.next i))).2 =
          events ++ [.ended (parse version maxPacketSize fed).2] ∧
        yielded ++ yieldedPackets events = (parse version maxPacketSize fed).1 := by
  intro n
  induction n with
  | zero =>
      intro reader yielded state _ _ _ hlt
      omega
  | succ n ih =>
      intro reader yielded state h hi hlive hlt
      have hstep := Reader.step_next hi hlive
      rcases h.advance i with ⟨packet, bytes, hev, hnext, hiter, hoff, hbuf⟩ | ⟨e, hev, -, -, hparse⟩
      · have hsuspended : (reader.advance i).1.iterators[i]? = some .suspended := by
          have hlt : i < reader.iterators.length := by
            by_contra hge
            rw [List.getElem?_eq_none (by omega)] at hi
            cases hi
          rw [hiter, List.getElem?_set_self hlt]
        have hle := hnext.offset_le
        obtain ⟨k, events, hrun, hyield⟩ := ih hnext hsuspended (by decide)
          (by rw [hbuf] at hle ⊢; omega)
        refine ⟨k + 1, .yielded packet bytes :: events, ?_, ?_⟩
        · rw [List.replicate_succ, Reader.run, hstep]
          simp only [hev, hrun, List.cons_append]
        · rw [List.append_assoc] at hyield
          exact hyield
      · refine ⟨0, [], ?_, ?_⟩
        · simp only [Nat.zero_add, List.replicate_one, Reader.run, hstep, hev, hparse,
            List.nil_append]
        · simp only [hparse, yieldedPackets, List.append_nil]

/-- **Framing does not depend on how the stream is cut.**  After any operations on
a new buffer:

* the bytes fed are the bytes of the packets yielded, then the unread buffer;
* the packets yielded begin the packets of every stream the bytes fed begin;
* an iteration that ends now has left exactly the packets of the bytes fed
  yielded, and raises what their parse raises;
* every generator that has not ended does end after finitely many `next`. -/
theorem reader_yields_parse (version : Version) (maxPacketSize : Option Int)
    (ops : List ReaderOp) (reader : Reader) (events : List ReaderEvent)
    (hrun : (Reader.init version maxPacketSize).run ops = (reader, events)) :
    fedBytes events =
        ((yieldedPackets events).map Prod.snd).flatten ++
          reader.buffer.buf.drop reader.buffer.offset ∧
      (∀ s, fedBytes events <+: s →
        yieldedPackets events <+: (parse version maxPacketSize s).1) ∧
      (∀ i e, (reader.step (.next i)).2 = .ended e →
        parse version maxPacketSize (fedBytes events) = (yieldedPackets events, e)) ∧
      (∀ i state, reader.iterators[i]? = some state → state ≠ .finished →
        ∃ k more, (reader.run (List.replicate (k + 1) (.next i))).2 =
            more ++ [.ended (parse version maxPacketSize (fedBytes events)).2] ∧
          yieldedPackets events ++ yieldedPackets more =
            (parse version maxPacketSize (fedBytes events)).1) := by
  have h := (Reader.init_parsing version maxPacketSize).run ops
  rw [hrun] at h
  simp only [List.nil_append] at h
  refine ⟨h.consumed.bytes_eq, fun s hs => h.consumed.prefix_parse hs, ?_, ?_⟩
  · intro i e hend
    rcases hi : reader.iterators[i]? with _ | state
    · simp [Reader.step, hi] at hend
    · by_cases hlive : state = .finished
      · simp [Reader.step, hi, hlive] at hend
      · rw [Reader.step_next hi hlive] at hend
        rcases h.advance i with ⟨packet, bytes, hev, -⟩ | ⟨e', hev, -, -, hparse⟩
        · rw [hev] at hend
          cases hend
        · rw [hev] at hend
          cases hend
          exact hparse
  · intro i state hi hlive
    exact h.drain i _ hi hlive (Nat.lt_succ_self _)

/-- Two packets cut inside both headers, with the second iteration abandoned after
its first packet. -/
theorem reader_yields_parse_split :
    parse .v311 none ([0xC0] ++ [0x00, 0xD0] ++ [0x00]) =
      ([(.pingreq, [0xC0, 0x00]), (.pingresp, [0xD0, 0x00])], none) :=
  (reader_yields_parse .v311 none
    [.feed [0xC0], .iter, .next 0, .feed [0x00, 0xD0], .iter, .next 1, .close 1,
      .feed [0x00], .iter, .next 2]
    { buffer := { buf := [0xD0, 0x00], offset := 2 }
      iterators := [.finished, .finished, .suspended] }
    [.fed [0xC0], .silent, .ended none, .fed [0x00, 0xD0], .silent,
      .yielded .pingreq [0xC0, 0x00], .silent, .fed [0x00], .silent,
      .yielded .pingresp [0xD0, 0x00]]
    rfl).2.2.1 2 none rfl

end Zmqtt
