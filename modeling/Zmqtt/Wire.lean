import Mathlib.Data.List.Basic

/-!
# Wire-format helpers

The functions of `packets/_wire.py`: variable-length integers, length-prefixed
UTF-8 strings and length-prefixed binary data, together with the pieces of the
Python runtime they stand on (`struct.pack`, `struct.unpack_from`, `bytes([..])`
and the strict UTF-8 codec).

A buffer is a list of bytes read at an absolute offset, as in the source.  A
Python `str` is a list of code points, lone surrogates included: those are the
strings `str.encode("utf-8")` refuses.  Python integers are `Int` where a caller
supplies them and `Nat` where the decoder computes them.
-/

namespace Zmqtt

/-- A Python code point.  The surrogates `0xD800 .. 0xDFFF` are code points. -/
abbrev CodePoint := Fin 0x110000

/-- A Python `str`. -/
abbrev Str := List CodePoint

/-- A Python `bytes` object. -/
abbrev Bytes := List UInt8

/-- The exceptions the codec can raise.  `PacketTooLargeError` and the two
Unicode errors are subclasses of `ValueError`; a text that formats a string or a
byte keeps that value instead. -/
inductive CodecError
  | valueError (msg : String)
  | invalidProtocolName (name : Str)
  | unknownPropertyId (byte : UInt8)
  | unicodeEncodeError
  | unicodeDecodeError
  | structError
  | indexError
  | typeError
  | packetTooLarge (size : Nat) (limit : Int)
deriving DecidableEq, Repr

/-- Code points of a character literal's `Char`. -/
def CodePoint.ofChar (c : Char) : CodePoint :=
  ⟨c.toNat, by
    have h := c.valid
    simp only [UInt32.isValidChar, Nat.isValidChar] at h
    simp only [Char.toNat]
    omega⟩

/-- The character a code point encodes, unless it is a lone surrogate. -/
def CodePoint.toChar? (c : CodePoint) : Option Char :=
  if h : c.val.isValidChar then some (Char.ofNatAux c.val h) else none

/-- A string literal of the source. -/
def str (s : String) : Str := s.toList.map CodePoint.ofChar

/-- `s.encode("utf-8")`. -/
def encodeUtf8 (s : Str) : Except CodecError Bytes :=
  match s.mapM CodePoint.toChar? with
  | some chars => .ok (chars.flatMap String.utf8EncodeChar)
  | none => .error .unicodeEncodeError

/-- `data.decode("utf-8")`. -/
def decodeUtf8 (data : Bytes) : Except CodecError Str :=
  match data.toByteArray.utf8Decode? with
  | some chars => .ok (chars.toList.map CodePoint.ofChar)
  | none => .error .unicodeDecodeError

/-- `bytes([n])`, one byte. -/
def bytes1 (n : Int) : Except CodecError Bytes :=
  if 0 ≤ n ∧ n < 256 then .ok [UInt8.ofNat n.toNat]
  else .error (.valueError "bytes must be in range(0, 256)")

/-- `struct.pack("!B", n)`. -/
def packB (n : Int) : Except CodecError Bytes :=
  if 0 ≤ n ∧ n < 256 then .ok [UInt8.ofNat n.toNat] else .error .structError

/-- `struct.pack("!H", n)`. -/
def packH (n : Int) : Except CodecError Bytes :=
  if 0 ≤ n ∧ n < 65536 then
    .ok [UInt8.ofNat (n.toNat / 256), UInt8.ofNat n.toNat]
  else .error .structError

/-- `struct.pack("!I", n)`. -/
def packI (n : Int) : Except CodecError Bytes :=
  if 0 ≤ n ∧ n < 4294967296 then
    .ok [UInt8.ofNat (n.toNat / 16777216), UInt8.ofNat (n.toNat / 65536),
      UInt8.ofNat (n.toNat / 256), UInt8.ofNat n.toNat]
  else .error .structError

/-- `buf[pos]`. -/
def byteAt (buf : Bytes) (pos : Nat) : Except CodecError UInt8 :=
  match buf[pos]? with
  | some b => .ok b
  | none => .error .indexError

/-- `struct.unpack_from("!H", buf, pos)[0]`. -/
def unpackH (buf : Bytes) (pos : Nat) : Except CodecError Nat :=
  match buf.drop pos with
  | a :: b :: _ => .ok (a.toNat * 256 + b.toNat)
  | _ => .error .structError

/-- `struct.unpack_from("!I", buf, pos)[0]`. -/
def unpackI (buf : Bytes) (pos : Nat) : Except CodecError Nat :=
  match buf.drop pos with
  | a :: b :: c :: d :: _ =>
      .ok (a.toNat * 16777216 + b.toNat * 65536 + c.toNat * 256 + d.toNat)
  | _ => .error .structError

/-- `buf[start:stop]`. -/
def slice (buf : Bytes) (start stop : Nat) : Bytes :=
  (buf.take stop).drop start

/-- `_MAX_MQTT_VARINT`. -/
def maxMqttVarint : Nat := 268435455

/-- The `while True` loop of `encode_varint`. -/
@[semireducible]
def encodeVarintLoop (value : Nat) : Bytes :=
  let byte := value &&& 0x7F
  let rest := value >>> 7
  if rest = 0 then [UInt8.ofNat byte]
  else UInt8.ofNat (byte ||| 0x80) :: encodeVarintLoop rest
termination_by value
decreasing_by
  rename_i h
  have : value >>> 7 = value / 128 := Nat.shiftRight_eq_div_pow value 7
  omega

/-- `encode_varint`. -/
def encodeVarint (value : Int) : Except CodecError Bytes :=
  if value < 0 ∨ value > maxMqttVarint then
    .error (.valueError s!"Value {value} out of varint range")
  else .ok (encodeVarintLoop value.toNat)

/-- The `for i in range(4)` loop of `decode_varint`, with `n` rounds left. -/
def decodeVarintLoop (buf : Bytes) (offset : Nat) :
    (n i multiplier value : Nat) → Except CodecError (Nat × Nat)
  | 0, _, _, _ => .error (.valueError "Varint exceeds 4 bytes")
  | n + 1, i, multiplier, value =>
      match buf[offset + i]? with
      | none => .error (.valueError "Buffer too short for varint")
      | some byte =>
          let value := value + (byte.toNat &&& 0x7F) * multiplier
          if byte.toNat &&& 0x80 = 0 then .ok (value, i + 1)
          else decodeVarintLoop buf offset n (i + 1) (multiplier * 128) value

/-- `decode_varint`: the value and the number of bytes consumed. -/
def decodeVarint (buf : Bytes) (offset : Nat) : Except CodecError (Nat × Nat) :=
  decodeVarintLoop buf offset 4 0 1 0

/-- `encode_bytes_field`. -/
def encodeBytesField (data : Bytes) : Except CodecError Bytes := do
  let length ← packH data.length
  return length ++ data

/-- `encode_str`. -/
def encodeStr (s : Str) : Except CodecError Bytes := do
  let encoded ← encodeUtf8 s
  let length ← packH encoded.length
  return length ++ encoded

/-- `decode_bytes_field`: the data and the number of bytes consumed. -/
def decodeBytesField (buf : Bytes) (offset : Nat) : Except CodecError (Bytes × Nat) :=
  if offset + 2 > buf.length then
    .error (.valueError "Buffer too short for bytes length prefix")
  else do
    let length ← unpackH buf offset
    if offset + 2 + length > buf.length then
      .error (.valueError "Buffer too short for bytes data")
    else return (slice buf (offset + 2) (offset + 2 + length), 2 + length)

/-- `decode_str`: the string and the number of bytes consumed. -/
def decodeStr (buf : Bytes) (offset : Nat) : Except CodecError (Str × Nat) :=
  if offset + 2 > buf.length then
    .error (.valueError "Buffer too short for string length prefix")
  else do
    let length ← unpackH buf offset
    if offset + 2 + length > buf.length then
      .error (.valueError "Buffer too short for string data")
    else do
      let s ← decodeUtf8 (slice buf (offset + 2) (offset + 2 + length))
      return (s, 2 + length)

/-- A computation that returned did so step by step. -/
theorem bind_eq_ok {ε α β : Type} {x : Except ε α} {f : α → Except ε β} {b : β} :
    (x >>= f) = .ok b ↔ ∃ a, x = .ok a ∧ f a = .ok b := by
  cases x <;> simp [bind, Except.bind]

/-- A step that returned hands its result to the next. -/
@[simp] theorem ok_bind {ε α β : Type} (a : α) (f : α → Except ε β) :
    (Except.ok a >>= f) = f a := rfl

/-- A step that raised ends the computation. -/
@[simp] theorem error_bind {ε α β : Type} (e : ε) (f : α → Except ε β) :
    (Except.error e >>= f) = .error e := rfl

/-- A decoded string has consumed at least its length prefix. -/
theorem decodeStr_size {buf : Bytes} {offset n : Nat} {s : Str}
    (h : decodeStr buf offset = .ok (s, n)) : 2 ≤ n := by
  unfold decodeStr at h
  split at h
  · cases h
  obtain ⟨length, -, h⟩ := bind_eq_ok.mp h
  split at h
  · cases h
  obtain ⟨t, -, h⟩ := bind_eq_ok.mp h
  cases h
  omega

end Zmqtt
