import Zmqtt.CodecRoundTrip
import Zmqtt.PropertyBlock
import Zmqtt.SizeLimit

/-!
# Variable-length integers

`decode` reads the length of a packet with a loop of its own, since it must ask for more
bytes where `decode_varint` raises.  The two loops have the same rounds, and both undo
`encode_varint`, which writes the shortest form of a value.
-/

namespace Zmqtt

/-! ## What the decoder reads -/

/-- A byte without the continuation bit is a group of seven bits. -/
theorem byte_of_last {byte : UInt8} (h : byte.toNat &&& 0x80 = 0) : byte.toNat < 128 := by
  by_contra hge
  have hlt := byte.toNat_lt
  have hset := and_80_of_ge (n := byte.toNat - 128) (by omega)
  rw [Nat.sub_add_cancel (by omega), h] at hset
  cases hset

/-- One with the bit is a group and the bit. -/
theorem byte_of_continued {byte : UInt8} (h : byte.toNat &&& 0x80 ≠ 0) :
    byte.toNat = byte.toNat % 128 + 128 := by
  have hge : ¬ byte.toNat < 128 := fun hlt => h (and_80_of_lt hlt)
  have hlt := byte.toNat_lt
  omega

/-- **What a decoded varint consists of.**  The rounds from `i` on add up to a value `x`,
which the encoder writes in no more bytes; with as many it writes these bytes. -/
theorem decodeVarintLoop_shortest {buf : Bytes} {pos v size : Nat} :
    ∀ (n i multiplier acc : Nat),
      decodeVarintLoop buf pos n i multiplier acc = .ok (v, size) →
      ∃ x, v = acc + x * multiplier ∧ (encodeVarintLoop x).length ≤ size - i ∧
        (size - i ≤ (encodeVarintLoop x).length →
          (buf.drop (pos + i)).take (size - i) = encodeVarintLoop x) := by
  intro n
  induction n with
  | zero =>
      intro i multiplier acc h
      cases h
  | succ n ih =>
      intro i multiplier acc h
      obtain ⟨hi, hlen, -⟩ := decodeVarintLoop_reads _ _ _ _ h
      rw [decodeVarintLoop] at h
      have hget : buf[pos + i]? = some (buf.get ⟨pos + i, by omega⟩) :=
        List.getElem?_eq_getElem (by omega)
      generalize buf.get ⟨pos + i, by omega⟩ = byte at hget
      have hwindow : buf.drop (pos + i) = byte :: buf.drop (pos + (i + 1)) := by
        obtain ⟨hlt, hbyte⟩ := List.getElem?_eq_some_iff.mp hget
        rw [List.drop_eq_getElem_cons hlt, hbyte, Nat.add_assoc]
      rw [hget] at h
      dsimp only at h
      rw [and_7f] at h
      by_cases hlast : byte.toNat &&& 0x80 = 0
      · -- the last byte is the whole rest of the value
        rw [if_pos hlast] at h
        cases h
        have hbyte := byte_of_last hlast
        have hencode : encodeVarintLoop byte.toNat = [byte] := by
          rw [encodeVarintLoop, shiftRight_7, if_pos (by omega), and_7f,
            Nat.mod_eq_of_lt hbyte, UInt8.ofNat_toNat]
        refine ⟨byte.toNat, by rw [Nat.mod_eq_of_lt hbyte], ?_, fun _ => ?_⟩
        · rw [hencode]
          simp
        · rw [hencode, hwindow]
          simp
      · rw [if_neg hlast] at h
        obtain ⟨x, hv, hshort, hsame⟩ := ih _ _ _ h
        obtain ⟨hi', -, -⟩ := decodeVarintLoop_reads _ _ _ _ h
        have hbyte := byte_of_continued hlast
        have hlow : byte.toNat % 128 < 128 := Nat.mod_lt _ (by decide)
        have hdiv : (byte.toNat % 128 + 128 * x) / 128 = x := by omega
        have hmod : (byte.toNat % 128 + 128 * x) % 128 = byte.toNat % 128 := by omega
        refine ⟨byte.toNat % 128 + 128 * x, ?_, ?_, ?_⟩
        · rw [hv]
          ring
        · rw [encodeVarintLoop, shiftRight_7, hdiv]
          split
          · simp only [List.length_singleton]
            omega
          · simp only [List.length_cons]
            omega
        · rw [encodeVarintLoop, shiftRight_7, hdiv, and_7f, hmod]
          split
          · -- a byte was spent on leading zeros
            simp only [List.length_singleton]
            omega
          · intro hle
            simp only [List.length_cons] at hle
            have hfirst : UInt8.ofNat (byte.toNat % 128 ||| 0x80) = byte := by
              rw [or_80 hlow, ← hbyte, UInt8.ofNat_toNat]
            rw [hfirst, hwindow, show size - i = size - (i + 1) + 1 by omega, List.take_succ_cons,
              hsame (by omega)]

/-- A decoded value lies in the range of the encoder, which writes it in its shortest form. -/
theorem decodeVarint_shortest {buf bytes : Bytes} {value width : Nat}
    (h : decodeVarint buf 0 = .ok (value, width)) (hencode : encodeVarint value = .ok bytes) :
    bytes.length ≤ width ∧ bytes.length ≤ buf.length ∧
      (buf.length ≤ bytes.length → buf = bytes) := by
  obtain ⟨-, -, rfl⟩ := encodeVarint_ok hencode
  obtain ⟨hwidth, hlen, -⟩ := decodeVarint_reads h
  obtain ⟨x, hvalue, hshort, hsame⟩ := decodeVarintLoop_shortest 4 0 1 0 h
  obtain rfl : value = x := by omega
  rw [Int.toNat_natCast]
  rw [Nat.sub_zero] at hshort
  refine ⟨hshort, by omega, fun hle => ?_⟩
  have hall := hsame (by omega)
  rw [Nat.sub_zero, Nat.add_zero, List.drop_zero, List.take_of_length_le (by omega)] at hall
  exact hall

/-! ## The two decoders -/

/-- The inline length loop of `decode` and `decode_varint(buffer, 1)`, and what `decode` does
then. -/
structure SameHeader (buffer : Bytes) (version : Version) (maxPacketSize : Option Int) : Prop where
  goes_on : ∀ r w, remainingLengthLoop buffer 4 0 1 0 0 = .ok (some (r, w)) ↔
    decodeVarint buffer 1 = .ok (r, w)
  incomplete : remainingLengthLoop buffer 4 0 1 0 0 = .ok none ↔
    decodeVarint buffer 1 = .error (.valueError "Buffer too short for varint")
  raises : (∃ e, remainingLengthLoop buffer 4 0 1 0 0 = .error e) ↔
    decodeVarint buffer 1 = .error (.valueError "Varint exceeds 4 bytes")
  decode_goes_on : ∀ r w, decodeVarint buffer 1 = .ok (r, w) →
    ∃ firstByte, buffer[0]? = some firstByte ∧ decode buffer version maxPacketSize =
      decodeFrame buffer firstByte.toNat r w version maxPacketSize
  decode_incomplete : decodeVarint buffer 1 = .error (.valueError "Buffer too short for varint") →
    decode buffer version maxPacketSize = .ok none
  decode_raises : decodeVarint buffer 1 = .error (.valueError "Varint exceeds 4 bytes") →
    decode buffer version maxPacketSize =
      .error (.valueError "Remaining-length varint exceeds 4 bytes")

/-- `encode_varint` at one integer: inverted by the decoder, and the shortest. -/
structure Inverted (n : Int) (bytes : Bytes) : Prop where
  decodes : ∀ rest, decodeVarint (bytes ++ rest) 0 = .ok (n.toNat, bytes.length)
  value : (n.toNat : Int) = n
  shortest : ∀ other width, decodeVarint other 0 = .ok (n.toNat, width) →
    bytes.length ≤ width ∧ bytes.length ≤ other.length ∧
      (other.length ≤ bytes.length → other = bytes)

/-- `decode` in terms of its inline loop. -/
theorem decode_of_loop {buffer : Bytes} (h : 2 ≤ buffer.length) (version : Version)
    (maxPacketSize : Option Int) :
    ∃ firstByte, buffer[0]? = some firstByte ∧ decode buffer version maxPacketSize =
      match remainingLengthLoop buffer 4 0 1 0 0 with
      | .error e => .error e
      | .ok none => .ok none
      | .ok (some (r, w)) => decodeFrame buffer firstByte.toNat r w version maxPacketSize := by
  have hfirst : buffer[0]? = some (buffer.get ⟨0, by omega⟩) :=
    List.getElem?_eq_getElem (by omega)
  have hbyte : byteAt buffer 0 = .ok (buffer.get ⟨0, by omega⟩) := by
    unfold byteAt
    rw [hfirst]
  refine ⟨buffer.get ⟨0, by omega⟩, hfirst, ?_⟩
  unfold decode
  rw [if_neg (by omega), hbyte, ok_bind]
  cases remainingLengthLoop buffer 4 0 1 0 0 with
  | error e => rfl
  | ok header =>
      cases header with
      | none => rfl
      | some header => rfl

theorem sameHeader {buffer : Bytes} (h : 2 ≤ buffer.length) (version : Version)
    (maxPacketSize : Option Int) : SameHeader buffer version maxPacketSize := by
  obtain ⟨firstByte, hfirst, hdecode⟩ := decode_of_loop h version maxPacketSize
  -- one case for each outcome of the loops; the fields about another outcome are empty there
  rcases remainingLengthLoop_cases buffer 4 0 1 0 with
    ⟨r, w, hvarint, hloop⟩ | ⟨hvarint, hloop⟩ | ⟨hvarint, hloop⟩
  all_goals
    rw [hloop] at hdecode
    change decodeVarint buffer 1 = _ at hvarint
    constructor
    all_goals simp [hvarint, hloop, hdecode, hfirst]

/-- **The two varint decoders agree and invert the encoder.** -/
theorem varints_agree :
    (∀ buffer : Bytes, 2 ≤ buffer.length → ∀ version maxPacketSize,
      SameHeader buffer version maxPacketSize) ∧
    (∀ n : Int, 0 ≤ n → n ≤ 268435455 → ∃ bytes, encodeVarint n = .ok bytes ∧ Inverted n bytes) ∧
    (∀ n : Int, ¬ (0 ≤ n ∧ n ≤ 268435455) →
      encodeVarint n = .error (.valueError s!"Value {n} out of varint range")) := by
  refine ⟨fun buffer h version maxPacketSize => sameHeader h version maxPacketSize,
    fun n hn hmax => ?_, fun n hn => ?_⟩
  · have hencode : encodeVarint n = .ok (encodeVarintLoop n.toNat) := by
      unfold encodeVarint
      rw [if_neg (by simp only [maxMqttVarint]; omega)]
    have hvalue : (n.toNat : Int) = n := Int.toNat_of_nonneg hn
    refine ⟨_, hencode, fun rest => ?_, hvalue, fun other width h => ?_⟩
    · have hbuf : (encodeVarintLoop n.toNat ++ rest).drop 0 = encodeVarintLoop n.toNat ++ rest :=
        List.drop_zero
      exact (decodeVarint_encodeVarint hencode hbuf).1
    · exact decodeVarint_shortest h (by rw [hvalue]; exact hencode)
  · unfold encodeVarint
    rw [if_pos (by simp only [maxMqttVarint]; omega)]

/-- A PUBLISH header with a length of two bytes, and the largest length. -/
theorem varints_agree_publish :
    decodeVarint [0x30, 0xC1, 0x02] 1 = .ok (321, 2) ∧
      SameHeader [0x30, 0xC1, 0x02] .v5 none ∧
      encodeVarint 268435455 = .ok [0xFF, 0xFF, 0xFF, 0x7F] ∧
      Inverted 268435455 [0xFF, 0xFF, 0xFF, 0x7F] ∧
      encodeVarint 268435456 = .error (.valueError "Value 268435456 out of varint range") := by
  obtain ⟨hheader, hencode, hrange⟩ := varints_agree
  have hmax : encodeVarint 268435455 = .ok [0xFF, 0xFF, 0xFF, 0x7F] := by decide
  obtain ⟨bytes, hbytes, hinverted⟩ := hencode 268435455 (by decide) (by decide)
  obtain rfl : [0xFF, 0xFF, 0xFF, 0x7F] = bytes := Except.ok.inj (hmax.symm.trans hbytes)
  exact ⟨by decide, hheader _ (by decide) _ _, hmax, hinverted, hrange _ (by decide)⟩

end Zmqtt
