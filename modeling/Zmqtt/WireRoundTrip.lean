import Mathlib.Tactic.Ring
import Zmqtt.Wire

/-!
# Round trips of the wire fields

Every decoder reads a buffer at an absolute offset.  The lemmas below state a
read at `off` under the hypothesis that the buffer from `off` on is an encoding
followed by arbitrary bytes, `buf.drop off = encoded ++ rest`; after the read the
same form holds at `off + encoded.length` by `drop_after`.
-/

namespace Zmqtt

/-! ## Windows of a buffer -/

/-- What follows a field once it has been read. -/
theorem drop_after {buf field rest : Bytes} {off : Nat}
    (h : buf.drop off = field ++ rest) : buf.drop (off + field.length) = rest := by
  rw [← List.drop_drop, h, List.drop_left]

/-- The window after one byte. -/
theorem drop_after_byte {buf rest : Bytes} {b : UInt8} {off : Nat}
    (h : buf.drop off = b :: rest) : buf.drop (off + 1) = rest := by
  rw [← List.drop_drop, h]
  rfl

/-- A nonempty window lies inside the buffer. -/
theorem length_of_window {buf field rest : Bytes} {off : Nat}
    (h : buf.drop off = field ++ rest) (hpos : 0 < field.length) :
    off + field.length ≤ buf.length := by
  have hlen := congrArg List.length h
  simp only [List.length_drop, List.length_append] at hlen
  omega

theorem getElem?_window {buf rest : Bytes} {b : UInt8} {off : Nat}
    (h : buf.drop off = b :: rest) : buf[off]? = some b := by
  have hget := congrArg (fun window => window[0]?) h
  simpa using hget

theorem byteAt_window {buf rest : Bytes} {b : UInt8} {off : Nat}
    (h : buf.drop off = b :: rest) : byteAt buf off = .ok b := by
  simp [byteAt, getElem?_window h]

/-- A field at the start of the window is the slice of its length. -/
theorem slice_window {buf field rest : Bytes} {off : Nat}
    (h : buf.drop off = field ++ rest) : slice buf off (off + field.length) = field := by
  rw [slice, List.drop_take, h]
  simp

/-! ## Bitwise facts -/

theorem and_7f (n : Nat) : n &&& 0x7F = n % 128 := Nat.and_two_pow_sub_one_eq_mod n 7

theorem shiftRight_7 (n : Nat) : n >>> 7 = n / 128 := Nat.shiftRight_eq_div_pow n 7

theorem or_80 {n : Nat} (h : n < 128) : n ||| 0x80 = n + 128 := by
  have hall : ∀ m < 128, m ||| 0x80 = m + 128 := by decide
  exact hall n h

theorem and_80_of_lt {n : Nat} (h : n < 128) : n &&& 0x80 = 0 := by
  have hall : ∀ m < 128, m &&& 0x80 = 0 := by decide
  exact hall n h

theorem and_80_of_ge {n : Nat} (h : n < 128) : (n + 128) &&& 0x80 = 0x80 := by
  have hall : ∀ m < 128, (m + 128) &&& 0x80 = 0x80 := by decide
  exact hall n h

/-! ## Fixed-width fields -/

/-- `bytes([n])` is one byte. -/
theorem bytes1_ok {n : Int} {bytes : Bytes} (h : bytes1 n = .ok bytes) :
    0 ≤ n ∧ n < 256 ∧ bytes = [UInt8.ofNat n.toNat] := by
  unfold bytes1 at h
  split at h
  · rename_i hn
    cases h
    exact ⟨hn.1, hn.2, rfl⟩
  · cases h

/-- `pack('B', n)` is one byte. -/
theorem packB_ok {n : Int} {bytes : Bytes} (h : packB n = .ok bytes) :
    0 ≤ n ∧ n < 256 ∧ bytes = [UInt8.ofNat n.toNat] := by
  unfold packB at h
  split at h
  · rename_i hn
    cases h
    exact ⟨hn.1, by omega, rfl⟩
  · cases h

/-- The byte written for a small integer reads back as that integer. -/
theorem byte_value {n : Int} (h0 : 0 ≤ n) (h1 : n < 256) :
    ((UInt8.ofNat n.toNat).toNat : Int) = n := by
  rw [UInt8.toNat_ofNat']
  omega

/-- `pack('>H', n)` has two bytes. -/
theorem packH_length {n : Int} {bytes : Bytes} (h : packH n = .ok bytes) :
    bytes.length = 2 := by
  unfold packH at h
  split at h
  · cases h; rfl
  · cases h

/-- `unpack` gives back a two-byte number. -/
theorem unpackH_packH {buf bytes rest : Bytes} {off : Nat} {n : Int}
    (h : packH n = .ok bytes) (hbuf : buf.drop off = bytes ++ rest) :
    unpackH buf off = .ok n.toNat ∧ (n.toNat : Int) = n := by
  unfold packH at h
  split at h
  · rename_i hn
    cases h
    constructor
    · simp only [unpackH, hbuf, List.cons_append, List.nil_append, UInt8.toNat_ofNat']
      congr 1
      omega
    · omega
  · cases h

/-- `pack('>I', n)` has four bytes. -/
theorem packI_length {n : Int} {bytes : Bytes} (h : packI n = .ok bytes) :
    bytes.length = 4 := by
  unfold packI at h
  split at h
  · cases h; rfl
  · cases h

/-- `unpack` gives back a four-byte number. -/
theorem unpackI_packI {buf bytes rest : Bytes} {off : Nat} {n : Int}
    (h : packI n = .ok bytes) (hbuf : buf.drop off = bytes ++ rest) :
    unpackI buf off = .ok n.toNat ∧ (n.toNat : Int) = n := by
  unfold packI at h
  split at h
  · rename_i hn
    cases h
    constructor
    · simp only [unpackI, hbuf, List.cons_append, List.nil_append, UInt8.toNat_ofNat']
      congr 1
      omega
    · omega
  · cases h

/-! ## Variable-length integers -/

/-- The decoder's loop undoes the encoder's loop.  The encoder's value is below
`128 ^ n` while the decoder has `n` rounds left, which is what keeps it from
running out of rounds. -/
theorem decodeVarintLoop_encode (buf rest : Bytes) (off : Nat) :
    ∀ (n i multiplier acc v : Nat), v < 128 ^ n → 0 < n →
      buf.drop (off + i) = encodeVarintLoop v ++ rest →
      decodeVarintLoop buf off n i multiplier acc =
        .ok (acc + v * multiplier, i + (encodeVarintLoop v).length) := by
  intro n
  induction n with
  | zero => intro _ _ _ _ _ h0; omega
  | succ n ih =>
      intro i multiplier acc v hv _ hbuf
      rw [encodeVarintLoop] at hbuf ⊢
      simp only [and_7f, shiftRight_7] at hbuf ⊢
      have hmod : v % 128 < 128 := Nat.mod_lt _ (by omega)
      by_cases hz : v / 128 = 0
      · -- last byte: the continuation bit is clear
        rw [if_pos hz] at hbuf ⊢
        have hget : buf[off + i]? = some (UInt8.ofNat (v % 128)) := getElem?_window hbuf
        have hbyte : (UInt8.ofNat (v % 128)).toNat = v % 128 := by
          rw [UInt8.toNat_ofNat']; omega
        have hvm : v % 128 = v := by omega
        simp only [decodeVarintLoop, hget, hbyte, and_7f, and_80_of_lt hmod, if_true]
        simp [hvm]
      · rw [if_neg hz] at hbuf ⊢
        have hget : buf[off + i]? = some (UInt8.ofNat (v % 128 ||| 0x80)) :=
          getElem?_window hbuf
        have hbyte : (UInt8.ofNat (v % 128 ||| 0x80)).toNat = v % 128 + 128 := by
          rw [UInt8.toNat_ofNat', or_80 hmod]; omega
        have htail : buf.drop (off + (i + 1)) = encodeVarintLoop (v / 128) ++ rest :=
          drop_after_byte hbuf
        have hn : 0 < n := by
          rcases Nat.eq_zero_or_pos n with rfl | h
          · simp at hv; omega
          · exact h
        have hlt : v / 128 < 128 ^ n := by
          rw [Nat.div_lt_iff_lt_mul (by omega)]
          calc v < 128 ^ (n + 1) := hv
            _ = 128 ^ n * 128 := Nat.pow_succ 128 n
        have hrec := ih (i + 1) (multiplier * 128) (acc + v % 128 * multiplier)
          (v / 128) hlt hn htail
        have hmask : (v % 128 + 128) % 128 = v % 128 := by omega
        simp only [decodeVarintLoop, hget, hbyte, and_7f, hmask, and_80_of_ge hmod]
        simp only [OfNat.ofNat_ne_zero, if_false, hrec, Except.ok.injEq, Prod.mk.injEq,
          List.length_cons]
        constructor
        · conv_rhs => rw [← Nat.mod_add_div v 128]
          ring
        · omega

/-- What `encode_varint` accepts. -/
theorem encodeVarint_ok {n : Int} {bytes : Bytes} (h : encodeVarint n = .ok bytes) :
    0 ≤ n ∧ n ≤ 268435455 ∧ bytes = encodeVarintLoop n.toNat := by
  unfold encodeVarint at h
  split at h
  · cases h
  · rename_i hn
    simp only [maxMqttVarint] at hn
    cases h
    exact ⟨by omega, by omega, rfl⟩

/-- A variable-length integer has a byte. -/
theorem encodeVarintLoop_length_pos (v : Nat) : 0 < (encodeVarintLoop v).length := by
  rw [encodeVarintLoop]
  split <;> simp

/-- **Varint round trip.**  What `encode_varint` writes, `decode_varint` reads
back, whatever follows. -/
theorem decodeVarint_encodeVarint {buf bytes rest : Bytes} {off : Nat} {n : Int}
    (h : encodeVarint n = .ok bytes) (hbuf : buf.drop off = bytes ++ rest) :
    decodeVarint buf off = .ok (n.toNat, bytes.length) ∧ (n.toNat : Int) = n := by
  obtain ⟨h0, h1, rfl⟩ := encodeVarint_ok h
  refine ⟨?_, by omega⟩
  have hloop := decodeVarintLoop_encode buf rest off 4 0 1 0 n.toNat (by omega) (by omega) (by simpa using hbuf)
  simpa [decodeVarint] using hloop

/-! ## Strings and binary data -/

theorem CodePoint.ofChar_of_toChar? {c : CodePoint} {ch : Char}
    (h : c.toChar? = some ch) : CodePoint.ofChar ch = c := by
  unfold CodePoint.toChar? at h
  by_cases hvalid : c.val.isValidChar
  · rw [dif_pos hvalid] at h
    cases h
    apply Fin.ext
    rfl
  · rw [dif_neg hvalid] at h
    cases h

theorem map_ofChar_of_mapM {s : Str} {chars : List Char}
    (h : s.mapM CodePoint.toChar? = some chars) : chars.map CodePoint.ofChar = s := by
  induction s generalizing chars with
  | nil =>
      simp at h
      simp [h]
  | cons c s ih =>
      simp only [List.mapM_cons, Option.bind_eq_bind, Option.bind_eq_some_iff,
        Option.pure_def, Option.some.injEq] at h
      obtain ⟨ch, hch, tail, htail, rfl⟩ := h
      simp [CodePoint.ofChar_of_toChar? hch, ih htail]

/-- The strict UTF-8 codec reads back what it wrote. -/
theorem decodeUtf8_encodeUtf8 {s : Str} {encoded : Bytes}
    (h : encodeUtf8 s = .ok encoded) : decodeUtf8 encoded = .ok s := by
  unfold encodeUtf8 at h
  cases hchars : s.mapM CodePoint.toChar? with
  | none => simp [hchars] at h
  | some chars =>
      simp only [hchars, Except.ok.injEq] at h
      subst h
      have hdec : ((chars.flatMap String.utf8EncodeChar).toByteArray).utf8Decode? =
          some chars.toArray := List.utf8Decode?_utf8Encode
      simp [decodeUtf8, hdec, map_ofChar_of_mapM hchars]

/-- A bytes field is its length and its data. -/
theorem encodeBytesField_ok {data bytes : Bytes} (h : encodeBytesField data = .ok bytes) :
    ∃ length, packH data.length = .ok length ∧ bytes = length ++ data := by
  obtain ⟨length, hlen, h⟩ := bind_eq_ok.mp h
  cases h
  exact ⟨length, hlen, rfl⟩

/-- A string field is the binary field of the string's UTF-8 form. -/
theorem encodeStr_ok {s : Str} {bytes : Bytes} (h : encodeStr s = .ok bytes) :
    ∃ encoded, encodeUtf8 s = .ok encoded ∧ encodeBytesField encoded = .ok bytes :=
  bind_eq_ok.mp h

/-- What both field decoders compute about the length prefix of a field. -/
theorem field_window {buf bytes rest data : Bytes} {off : Nat}
    (h : encodeBytesField data = .ok bytes) (hbuf : buf.drop off = bytes ++ rest) :
    unpackH buf off = .ok data.length ∧ off + 2 + data.length ≤ buf.length ∧
      slice buf (off + 2) (off + 2 + data.length) = data ∧
      bytes.length = 2 + data.length := by
  obtain ⟨length, hlen, rfl⟩ := encodeBytesField_ok h
  have hl2 := packH_length hlen
  rw [List.append_assoc] at hbuf
  obtain ⟨hun, -⟩ := unpackH_packH hlen hbuf
  have hdata : buf.drop (off + 2) = data ++ rest := by
    rw [← hl2]
    exact drop_after hbuf
  have hfit : off + 2 + data.length ≤ buf.length := by
    have hlens := congrArg List.length hbuf
    simp only [List.length_drop, List.length_append, hl2] at hlens
    omega
  exact ⟨by simpa using hun, hfit, slice_window hdata, by simp [hl2]⟩

/-- **Binary field round trip.** -/
theorem decodeBytesField_encode {buf bytes rest data : Bytes} {off : Nat}
    (h : encodeBytesField data = .ok bytes) (hbuf : buf.drop off = bytes ++ rest) :
    decodeBytesField buf off = .ok (data, bytes.length) := by
  obtain ⟨hun, hfit, hslice, hlen⟩ := field_window h hbuf
  have h1 : ¬ off + 2 > buf.length := by omega
  have h2 : ¬ off + 2 + data.length > buf.length := by omega
  unfold decodeBytesField
  rw [if_neg h1, hun, ok_bind, if_neg h2, hslice, hlen]
  rfl

/-- **String round trip.** -/
theorem decodeStr_encode {buf bytes rest : Bytes} {s : Str} {off : Nat}
    (h : encodeStr s = .ok bytes) (hbuf : buf.drop off = bytes ++ rest) :
    decodeStr buf off = .ok (s, bytes.length) := by
  obtain ⟨encoded, henc, hfield⟩ := encodeStr_ok h
  obtain ⟨hun, hfit, hslice, hlen⟩ := field_window hfield hbuf
  have h1 : ¬ off + 2 > buf.length := by omega
  have h2 : ¬ off + 2 + encoded.length > buf.length := by omega
  unfold decodeStr
  rw [if_neg h1, hun, ok_bind, if_neg h2, hslice, decodeUtf8_encodeUtf8 henc, hlen]
  rfl

end Zmqtt
