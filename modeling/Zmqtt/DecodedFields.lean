import Zmqtt.PropertiesRoundTrip
import Zmqtt.PropertyBlock

/-!
# Decoded fields can be encoded

The decoders accept more than the encoders write: varints with leading zero
groups, repeated and foreign properties, a last property that runs over the end of
its block.  What they return can still be encoded.  `Fits x n` says that the
encoder's call `x` returns at most `n` bytes.  A field fits in the bytes it was
read from, and a property block in those and the bytes its last property may have
taken from behind the block.
-/

namespace Zmqtt

/-- The call returned, with at most `n` bytes. -/
def Fits (x : Except CodecError Bytes) (n : Nat) : Prop :=
  ∃ bytes, x = .ok bytes ∧ bytes.length ≤ n

variable {x y : Except CodecError Bytes} {m n : Nat} {buf : Bytes} {pos size : Nat}

/-- A greater bound. -/
theorem Fits.mono (h : Fits x m) (hle : m ≤ n) : Fits x n := by
  obtain ⟨bytes, hx, hlen⟩ := h
  exact ⟨bytes, hx, by omega⟩

theorem fits_ok {bytes : Bytes} (h : bytes.length ≤ n) : Fits (.ok bytes) n :=
  ⟨bytes, rfl, h⟩

/-- A step that fits, before a rest that fits for each of its results. -/
theorem Fits.bind {f : Bytes → Except CodecError Bytes} (hx : Fits x m)
    (hf : ∀ bytes, bytes.length ≤ m → Fits (f bytes) n) : Fits (x >>= f) n := by
  obtain ⟨bytes, rfl, hlen⟩ := hx
  exact hf bytes hlen

/-! ## Fields -/

theorem fits_bytes1 {k : Nat} (h : k < 256) : Fits (bytes1 k) 1 := by
  have hk : (0 : Int) ≤ k ∧ (k : Int) < 256 := by omega
  rw [bytes1, if_pos hk]
  exact fits_ok (by simp)

theorem fits_packB {k : Nat} (h : k < 256) : Fits (packB k) 1 := by
  have hk : (0 : Int) ≤ k ∧ (k : Int) < 256 := by omega
  rw [packB, if_pos hk]
  exact fits_ok (by simp)

theorem fits_packH {k : Nat} (h : k < 65536) : Fits (packH k) 2 := by
  have hk : (0 : Int) ≤ k ∧ (k : Int) < 65536 := by omega
  rw [packH, if_pos hk]
  exact fits_ok (by simp)

theorem fits_packI {k : Nat} (h : k < 4294967296) : Fits (packI k) 4 := by
  have hk : (0 : Int) ≤ k ∧ (k : Int) < 4294967296 := by omega
  rw [packI, if_pos hk]
  exact fits_ok (by simp)

/-- An unpacked number has two bytes. -/
theorem unpackH_lt {k : Nat} (h : unpackH buf pos = .ok k) : k < 65536 := by
  obtain ⟨a, b, -, -, rfl⟩ := unpackH_ok.mp h
  have ha := a.toNat_lt
  have hb := b.toNat_lt
  omega

/-- An unpacked number has four bytes. -/
theorem unpackI_lt {k : Nat} (h : unpackI buf pos = .ok k) : k < 4294967296 := by
  obtain ⟨a, b, c, d, -, -, -, -, rfl⟩ := unpackI_ok.mp h
  have ha := a.toNat_lt
  have hb := b.toNat_lt
  have hc := c.toNat_lt
  have hd := d.toNat_lt
  omega

/-- A value below `128 ^ n` takes at most `n` groups of seven bits. -/
theorem encodeVarintLoop_length_le :
    ∀ (n v : Nat), 0 < n → v < 128 ^ n → (encodeVarintLoop v).length ≤ n := by
  intro n
  induction n with
  | zero => intro v h0; omega
  | succ n ih =>
      intro v _ hv
      rw [encodeVarintLoop]
      simp only [shiftRight_7]
      split
      · simp
      · rename_i hz
        have hn : 0 < n := by
          rcases Nat.eq_zero_or_pos n with rfl | h
          · simp only [Nat.zero_add, Nat.pow_one] at hv
            omega
          · exact h
        have hlt : v / 128 < 128 ^ n := by
          rw [Nat.div_lt_iff_lt_mul (by omega)]
          exact hv
        have hrest := ih (v / 128) hn hlt
        rw [List.length_cons]
        omega

/-- A number below `128 ^ n` has at most `n` bytes. -/
theorem fits_encodeVarint {k : Nat} (hn : 0 < n) (h4 : n ≤ 4) (h : k < 128 ^ n) :
    Fits (encodeVarint k) n := by
  have hmax : 128 ^ n ≤ 128 ^ 4 := Nat.pow_le_pow_right (by omega) h4
  have hk : ¬ ((k : Int) < 0 ∨ (k : Int) > maxMqttVarint) := by
    simp only [maxMqttVarint]
    omega
  rw [encodeVarint, if_neg hk, Int.toNat_natCast]
  exact fits_ok (encodeVarintLoop_length_le n k hn h)

/-- What a varint's rounds add up to, each a group of seven bits. -/
theorem decodeVarintLoop_lt {v : Nat} :
    ∀ (n i value : Nat), value < 128 ^ i →
      decodeVarintLoop buf pos n i (128 ^ i) value = .ok (v, size) →
      v < 128 ^ size ∧ size ≤ i + n := by
  intro n
  induction n with
  | zero =>
      intro i value _ h
      cases h
  | succ n ih =>
      intro i value hvalue h
      unfold decodeVarintLoop at h
      cases hbyte : buf[pos + i]? with
      | none => simp [hbyte] at h
      | some byte =>
          rw [hbyte] at h
          dsimp only at h
          have hgroup : value + (byte.toNat &&& 0x7F) * 128 ^ i < 128 ^ (i + 1) := by
            have hseven : byte.toNat &&& 0x7F ≤ 127 := by
              rw [and_7f]
              omega
            have hmul := Nat.mul_le_mul_right (128 ^ i) hseven
            rw [Nat.pow_succ]
            omega
          by_cases hlast : byte.toNat &&& 0x80 = 0
          · rw [if_pos hlast] at h
            cases h
            exact ⟨hgroup, by omega⟩
          · rw [if_neg hlast, ← Nat.pow_succ] at h
            obtain ⟨hv, hsize⟩ := ih (i + 1) _ hgroup h
            exact ⟨hv, by omega⟩

/-- A decoded integer is as large as its bytes allow. -/
theorem decodeVarint_lt {v : Nat} (h : decodeVarint buf pos = .ok (v, size)) :
    0 < size ∧ size ≤ 4 ∧ v < 128 ^ size := by
  obtain ⟨hv, hsize⟩ := decodeVarintLoop_lt 4 0 0 (by simp) h
  exact ⟨(decodeVarint_reads h).1, by omega, hv⟩

/-! ## Strings and binary data -/

theorem CodePoint.toChar?_ofChar (c : Char) : (CodePoint.ofChar c).toChar? = some c := by
  have hvalid : (CodePoint.ofChar c).val.isValidChar := c.valid
  rw [CodePoint.toChar?, dif_pos hvalid]
  rfl

theorem mapM_toChar?_map (chars : List Char) :
    (chars.map CodePoint.ofChar).mapM CodePoint.toChar? = some chars := by
  induction chars with
  | nil => rfl
  | cons c chars ih => simp [CodePoint.toChar?_ofChar, ih]

/-- Strict UTF-8 has one form for each string. -/
theorem encodeUtf8_decodeUtf8 {data : Bytes} {s : Str} (h : decodeUtf8 data = .ok s) :
    encodeUtf8 s = .ok data := by
  unfold decodeUtf8 at h
  cases hchars : data.toByteArray.utf8Decode? with
  | none => simp [hchars] at h
  | some chars =>
      simp only [hchars, Except.ok.injEq] at h
      subst h
      have hget : chars.toList.utf8Encode = data.toByteArray := by
        have hsome : data.toByteArray.utf8Decode?.isSome := by rw [hchars]; rfl
        have hencode := ByteArray.utf8Encode_get_utf8Decode? (h := hsome)
        rwa [Option.get_of_eq_some hsome hchars] at hencode
      have hbytes : chars.toList.flatMap String.utf8EncodeChar = data :=
        List.toByteArray_inj.mp hget
      rw [encodeUtf8, mapM_toChar?_map]
      simp only [hbytes]

/-- A bytes field fits with its length. -/
theorem fits_encodeBytesField {data : Bytes} (h : data.length < 65536) :
    Fits (encodeBytesField data) (2 + data.length) := by
  apply (fits_packH h).bind
  intro length hlength
  exact fits_ok (by rw [List.length_append]; omega)

/-- Binary data fits in the field it was read from. -/
theorem fits_of_decodeBytesField {data : Bytes}
    (h : decodeBytesField buf pos = .ok (data, size)) : Fits (encodeBytesField data) size := by
  obtain ⟨length, hlength, hbound, rfl, rfl⟩ := decodeBytesField_ok.mp h
  have hlen : (slice buf (pos + 2) (pos + (2 + length))).length = length := by
    rw [slice, List.length_drop, List.length_take]
    omega
  have hlt := unpackH_lt hlength
  exact (fits_encodeBytesField (by omega)).mono (by omega)

/-- A string fits in the field it was read from. -/
theorem fits_of_decodeStr {s : Str} (h : decodeStr buf pos = .ok (s, size)) :
    Fits (encodeStr s) size := by
  obtain ⟨length, hlength, hbound, rfl, hs⟩ := decodeStr_ok.mp h
  have hfield : decodeBytesField buf pos =
      .ok (slice buf (pos + 2) (pos + (2 + length)), 2 + length) :=
    decodeBytesField_ok.mpr ⟨length, hlength, hbound, rfl, rfl⟩
  have hencode : encodeStr s =
      encodeBytesField (slice buf (pos + 2) (pos + (2 + length))) := by
    rw [encodeStr, encodeUtf8_decodeUtf8 hs, ok_bind]
    rfl
  rw [hencode]
  exact fits_of_decodeBytesField hfield

/-! ## Properties -/

/-- The bytes the value of one property can extend to: two strings. -/
def maxPropSize : Nat := 131074

theorem fits_encodeUserProperties_append {pid : PropertyID} {k v : Str} {kn vn : Nat}
    (hk : Fits (encodeStr k) kn) (hv : Fits (encodeStr v) vn) :
    ∀ {kvs : List (Str × Str)} {t : Nat}, Fits (encodeUserProperties pid kvs) t →
      Fits (encodeUserProperties pid (kvs ++ [(k, v)])) (t + (1 + kn + vn)) := by
  intro kvs
  induction kvs with
  | nil =>
      intro t _
      obtain ⟨key, hkey, hkn⟩ := hk
      obtain ⟨value, hvalue, hvn⟩ := hv
      refine ⟨pid.value :: (key ++ value ++ []), ?_, ?_⟩
      · simp only [List.nil_append, encodeUserProperties, hkey, hvalue, ok_bind]
        rfl
      · simp only [List.append_nil, List.length_cons, List.length_append]
        omega
  | cons kv kvs ih =>
      intro t h
      obtain ⟨k', v'⟩ := kv
      obtain ⟨bytes, h, hlen⟩ := h
      obtain ⟨key, hkey, h⟩ := bind_eq_ok.mp h
      obtain ⟨value, hvalue, h⟩ := bind_eq_ok.mp h
      obtain ⟨tail, htail, h⟩ := bind_eq_ok.mp h
      cases h
      obtain ⟨tail', htail', hlen'⟩ := ih ⟨tail, htail, Nat.le_refl _⟩
      refine ⟨pid.value :: (key ++ value ++ tail'), ?_, ?_⟩
      · simp only [List.cons_append, encodeUserProperties, hkey, hvalue, htail', ok_bind]
        rfl
      · simp only [List.length_cons, List.length_append] at hlen ⊢
        omega

/-- A dictionary fits when its first pair and the others do. -/
theorem fits_encodeProps_cons {pid : PropertyID} {value : PropValue} {d : PropDict}
    (hhead : Fits (encodeProp pid value) m) (htail : Fits (encodeProps d) n) :
    Fits (encodeProps ((pid, value) :: d)) (m + n) := by
  apply hhead.bind
  intro head hm
  apply htail.bind
  intro tail hn
  exact fits_ok (by rw [List.length_append]; omega)

theorem fits_encodeProps_cons_inv {pid : PropertyID} {value : PropValue} {d : PropDict} {t : Nat}
    (h : Fits (encodeProps ((pid, value) :: d)) t) :
    ∃ m n, m + n = t ∧ Fits (encodeProp pid value) m ∧ Fits (encodeProps d) n := by
  obtain ⟨bytes, h, hlen⟩ := h
  obtain ⟨head, hhead, h⟩ := bind_eq_ok.mp h
  obtain ⟨tail, htail, h⟩ := bind_eq_ok.mp h
  cases h
  rw [List.length_append] at hlen
  exact ⟨head.length, t - head.length, by omega, ⟨head, hhead, Nat.le_refl _⟩,
    ⟨tail, htail, by omega⟩⟩

/-- A property that is set, whether or not it was there before. -/
theorem fits_encodeProps_set {pid : PropertyID} {value : PropValue} {s : Nat}
    (hprop : Fits (encodeProp pid value) s) :
    ∀ {d : PropDict} {t : Nat}, Fits (encodeProps d) t →
      Fits (encodeProps (OrderedDict.set d pid value)) (t + s) := by
  intro d
  induction d with
  | nil =>
      intro t h
      exact (fits_encodeProps_cons hprop h).mono (by omega)
  | cons item d ih =>
      intro t h
      obtain ⟨key, old⟩ := item
      obtain ⟨m, n, rfl, hhead, htail⟩ := fits_encodeProps_cons_inv h
      rw [OrderedDict.set]
      split
      · exact (fits_encodeProps_cons hprop htail).mono (by omega)
      · exact (fits_encodeProps_cons hhead (ih htail)).mono (by omega)

/-- A user property joins those read before. -/
theorem fits_encodeProps_user {k v : Str} {kn vn : Nat} (hk : Fits (encodeStr k) kn)
    (hv : Fits (encodeStr v) vn) :
    ∀ {d : PropDict} {t : Nat}, Fits (encodeProps d) t →
      Fits (encodeProps (OrderedDict.set d .userProperty (.pairs (userPairs d ++ [(k, v)]))))
        (t + (1 + kn + vn)) := by
  intro d
  induction d with
  | nil =>
      intro t h
      have hpairs : Fits (encodeProp .userProperty (.pairs ([] ++ [(k, v)]))) (0 + (1 + kn + vn)) :=
        fits_encodeUserProperties_append hk hv (fits_ok (Nat.le_refl _))
      exact (fits_encodeProps_cons hpairs h).mono (by omega)
  | cons item d ih =>
      intro t h
      obtain ⟨key, old⟩ := item
      obtain ⟨m, n, rfl, hhead, htail⟩ := fits_encodeProps_cons_inv h
      by_cases hkey : key = .userProperty
      · subst hkey
        -- the value under this key encodes, so it is a list of pairs
        cases old with
        | pairs kvs =>
            have hpairs : userPairs ((.userProperty, .pairs kvs) :: d) = kvs := rfl
            rw [hpairs, OrderedDict.set, if_pos rfl]
            have hhead' : Fits (encodeProp .userProperty (.pairs (kvs ++ [(k, v)])))
                (m + (1 + kn + vn)) :=
              fits_encodeUserProperties_append hk hv hhead
            exact (fits_encodeProps_cons hhead' htail).mono (by omega)
        | int | bool | str | bytes =>
            obtain ⟨bytes, hbytes, -⟩ := hhead
            cases hbytes
      · have hpairs : userPairs ((key, old) :: d) = userPairs d := by
          simp only [userPairs, OrderedDict.get_cons, if_neg hkey]
        rw [hpairs, OrderedDict.set, if_neg hkey]
        exact (fits_encodeProps_cons hhead (ih htail)).mono (by omega)

/-- The identifier in front of a value that fits. -/
theorem fits_prop (pid : PropertyID) (h : Fits x n) :
    Fits (do return pid.value :: (← x)) (n + 1) := by
  apply h.bind
  intro payload hlen
  exact fits_ok (by rw [List.length_cons]; omega)

/-- **One property.**  After a property was read the dictionary fits in the bytes it
fitted in before and those of the property. -/
theorem fits_decodeProp {pid : PropertyID} {d d' : PropDict} {t : Nat}
    (h : decodeProp buf pid pos d = .ok (d', size)) (hd : Fits (encodeProps d) t) :
    Fits (encodeProps d') (t + (size + 1)) := by
  unfold decodeProp at h
  cases hwire : pid.wireType <;> rw [hwire] at h <;> obtain ⟨a, ha, h⟩ := bind_eq_ok.mp h
  case byte =>
    cases h
    have hlt : a.toNat < 256 := a.toNat_lt
    apply fits_encodeProps_set _ hd
    unfold encodeProp
    simp only [hwire]
    exact fits_prop pid (fits_packB hlt)
  case uint16 =>
    cases h
    apply fits_encodeProps_set _ hd
    unfold encodeProp
    simp only [hwire]
    exact fits_prop pid (fits_packH (unpackH_lt ha))
  case uint32 =>
    cases h
    apply fits_encodeProps_set _ hd
    unfold encodeProp
    simp only [hwire]
    exact fits_prop pid (fits_packI (unpackI_lt ha))
  case varint =>
    cases h
    obtain ⟨hpos, h4, hlt⟩ := decodeVarint_lt ha
    apply fits_encodeProps_set _ hd
    unfold encodeProp
    simp only [hwire]
    exact fits_prop pid (fits_encodeVarint hpos h4 hlt)
  case str =>
    cases h
    apply fits_encodeProps_set _ hd
    unfold encodeProp
    simp only [hwire]
    exact fits_prop pid (fits_of_decodeStr ha)
  case bytesData =>
    cases h
    apply fits_encodeProps_set _ hd
    unfold encodeProp
    simp only [hwire]
    exact fits_prop pid (fits_of_decodeBytesField ha)
  case userProperty =>
    obtain ⟨⟨v, vn⟩, hv, h⟩ := bind_eq_ok.mp h
    cases h
    have hpid : pid = .userProperty := by
      cases pid <;> simp [PropertyID.wireType] at hwire
      rfl
    subst hpid
    exact (fits_encodeProps_user (fits_of_decodeStr ha) (fits_of_decodeStr hv) hd).mono (by omega)

theorem lengthPrefix_lt (buf : Bytes) (pos : Nat) : lengthPrefix buf pos < 65536 := by
  have ha := (buf.getD pos 0).toNat_lt
  have hb := (buf.getD (pos + 1) 0).toNat_lt
  unfold lengthPrefix
  omega

/-- A variable-length integer ends within its bytes. -/
theorem varintExtent_le (buf : Bytes) : ∀ (n pos : Nat), varintExtent buf pos n ≤ n := by
  intro n
  induction n with
  | zero => intro pos; exact Nat.le_refl _
  | succ n ih =>
      intro pos
      have hrest := ih (pos + 1)
      unfold varintExtent
      split <;> omega

/-- A value ends within the greatest size. -/
theorem valueExtent_le (buf : Bytes) (pos : Nat) (wire : WireType) :
    valueExtent buf pos wire ≤ maxPropSize := by
  have hkey := lengthPrefix_lt buf pos
  have hvalue := lengthPrefix_lt buf (pos + (2 + lengthPrefix buf pos))
  have hvarint := varintExtent_le buf 4 pos
  unfold maxPropSize
  cases wire <;> simp only [valueExtent] <;> omega

/-- The dictionary a loop returns fits in the block's bytes and those its last
property may have taken from behind it. -/
theorem fits_decodePropsLoop {stop : Nat} {d₁ : PropDict} :
    ∀ (fuel pos t : Nat) (d : PropDict), stop - pos ≤ fuel → pos ≤ stop →
      Fits (encodeProps d) t → decodePropsLoop buf stop pos d = .ok d₁ →
      Fits (encodeProps d₁) (t + (stop - pos) + (maxPropSize + 1)) := by
  intro fuel
  induction fuel with
  | zero =>
      intro pos t d hfuel hle hd h
      rw [decodePropsLoop, if_neg (by omega)] at h
      cases h
      exact hd.mono (by omega)
  | succ fuel ih =>
      intro pos t d hfuel hle hd h
      by_cases hpos : pos < stop
      · obtain ⟨byte, pid, d', size, -, -, hprop, hrest⟩ := decodePropsLoop_round hpos h
        have hd' := fits_decodeProp hprop hd
        by_cases hover : pos + 1 + size ≤ stop
        · exact (ih _ _ d' (by omega) hover hd' hrest).mono (by omega)
        · -- this property runs over the end, so it is the last
          have hsize : size ≤ maxPropSize := by
            rw [decodeProp_extent hprop]
            exact valueExtent_le _ _ _
          rw [decodePropsLoop, if_neg (by omega)] at hrest
          cases hrest
          exact hd'.mono (by omega)
      · rw [decodePropsLoop, if_neg hpos] at h
        cases h
        exact hd.mono (by omega)

/-- **A property block.**  Its declared end lies in the buffer, and its dictionary
fits in the declared bytes and the overrun of its last property. -/
theorem fits_decodePropsBlock {offset : Nat} {d : PropDict}
    (h : decodePropsBlock buf offset = .ok (d, n)) :
    0 < n ∧ offset + n ≤ buf.length ∧ Fits (encodeProps d) (n + maxPropSize) := by
  obtain ⟨propsLen, m, hlen, rfl, hloop⟩ := decodePropsBlock_ok.mp h
  obtain ⟨hm, hprefix, -⟩ := decodeVarint_reads hlen
  have hstop := decodePropsLoop_stop_le _ _ [] (Nat.le_refl _) hprefix hloop
  have hfits := fits_decodePropsLoop _ (offset + m) 0 [] (Nat.le_refl _) (by omega)
    (fits_ok (Nat.le_refl _)) hloop
  exact ⟨by omega, hstop, hfits.mono (by omega)⟩

/-! ## Property classes -/

/-- The value a property class holds in place of a dictionary's value: itself, or
its truth value at a byte field. -/
def HeldFor (pid : PropertyID) (value held : PropValue) : Prop :=
  held = value ∨ pid.wireType = .byte ∧ ∃ k b, value = .int k ∧ held = .bool b

/-- The field, if present, was read from the dictionary. -/
def ReadFrom (d : PropDict) (field : PropertyID × Option PropValue) : Prop :=
  ∀ held, field.2 = some held →
    ∃ value, OrderedDict.get d field.1 = some value ∧ HeldFor field.1 value held

@[simp] theorem readFrom_getInt (d : PropDict) (pid : PropertyID) :
    ReadFrom d (pid, (getInt d pid).map .int) := by
  intro held h
  simp only [getInt] at h
  split at h
  · rename_i k hget
    cases h
    exact ⟨_, hget, .inl rfl⟩
  · cases h

@[simp] theorem readFrom_getStr (d : PropDict) (pid : PropertyID) :
    ReadFrom d (pid, (getStr d pid).map .str) := by
  intro held h
  simp only [getStr] at h
  split at h
  · rename_i s hget
    cases h
    exact ⟨_, hget, .inl rfl⟩
  · cases h

@[simp] theorem readFrom_getBytes (d : PropDict) (pid : PropertyID) :
    ReadFrom d (pid, (getBytes d pid).map .bytes) := by
  intro held h
  simp only [getBytes] at h
  split at h
  · rename_i data hget
    cases h
    exact ⟨_, hget, .inl rfl⟩
  · cases h

theorem readFrom_getBool (d : PropDict) {pid : PropertyID} (hpid : pid.wireType = .byte) :
    ReadFrom d (pid, (getBool d pid).map .bool) := by
  intro held h
  simp only [getBool] at h
  split at h
  · rename_i k hget
    cases h
    exact ⟨_, hget, .inr ⟨hpid, k, _, rfl, rfl⟩⟩
  · cases h

/-- A property class whose listed fields are read from the dictionary under their
own names. -/
structure PropertySet.Reading {P : Type} (S : PropertySet P) : Prop where
  fields : ∀ d, ∀ field ∈ S.fields (S.ofDict d), ReadFrom d field
  userProperties : ∀ d, S.userProperties (S.ofDict d) = userPairs d

theorem connectSet_reading : connectSet.Reading := by
  refine ⟨fun d => ?_, fun _ => rfl⟩
  simp only [connectSet, List.forall_mem_cons, readFrom_getInt, readFrom_getStr,
    readFrom_getBytes, true_and]
  exact ⟨readFrom_getBool d rfl, readFrom_getBool d rfl, List.forall_mem_nil _⟩

theorem willSet_reading : willSet.Reading :=
  ⟨fun d => by simp [willSet], fun _ => rfl⟩

theorem connAckSet_reading : connAckSet.Reading := by
  refine ⟨fun d => ?_, fun _ => rfl⟩
  simp only [connAckSet, List.forall_mem_cons, readFrom_getInt, readFrom_getStr,
    readFrom_getBytes, true_and]
  exact ⟨readFrom_getBool d rfl, readFrom_getBool d rfl, readFrom_getBool d rfl,
    readFrom_getBool d rfl, List.forall_mem_nil _⟩

theorem publishSet_reading : publishSet.Reading :=
  ⟨fun d => by simp [publishSet], fun _ => rfl⟩

theorem pubAckSet_reading : pubAckSet.Reading :=
  ⟨fun d => by simp [pubAckSet], fun _ => rfl⟩

theorem subscribeSet_reading : subscribeSet.Reading :=
  ⟨fun d => by simp [subscribeSet], fun _ => rfl⟩

theorem subAckSet_reading : subAckSet.Reading :=
  ⟨fun d => by simp [subAckSet], fun _ => rfl⟩

theorem unsubscribeSet_reading : unsubscribeSet.Reading :=
  ⟨fun d => by simp [unsubscribeSet], fun _ => rfl⟩

theorem unsubAckSet_reading : unsubAckSet.Reading :=
  ⟨fun d => by simp [unsubAckSet], fun _ => rfl⟩

theorem disconnectSet_reading : disconnectSet.Reading :=
  ⟨fun d => by simp [disconnectSet], fun _ => rfl⟩

theorem authSet_reading : authSet.Reading :=
  ⟨fun d => by simp [authSet], fun _ => rfl⟩

/-- A held value fits where the dictionary's value does. -/
theorem HeldFor.fits {pid : PropertyID} {value held : PropValue} (h : HeldFor pid value held)
    (hfits : Fits (encodeProp pid value) n) : Fits (encodeProp pid held) n := by
  rcases h with rfl | ⟨hwire, k, b, rfl, rfl⟩
  · exact hfits
  · obtain ⟨bytes, hbytes, hlen⟩ := hfits
    unfold encodeProp at hbytes ⊢
    simp only [hwire] at hbytes ⊢
    obtain ⟨payload, hpayload, hbytes⟩ := bind_eq_ok.mp hbytes
    cases hbytes
    obtain ⟨-, -, rfl⟩ := packB_ok hpayload
    have hbool : Fits (packB (if b then 1 else 0)) 1 := by
      cases b <;> exact fits_packB (by decide)
    exact (fits_prop pid hbool).mono hlen

/-- A dictionary without one property fits as well. -/
theorem fits_encodeProps_pop {pid : PropertyID} :
    ∀ {d : PropDict} {t : Nat}, Fits (encodeProps d) t →
      Fits (encodeProps (OrderedDict.pop d pid)) t := by
  intro d
  induction d with
  | nil => intro t h; exact h
  | cons item d ih =>
      intro t h
      obtain ⟨key, value⟩ := item
      obtain ⟨m, n, rfl, hhead, htail⟩ := fits_encodeProps_cons_inv h
      unfold OrderedDict.pop at ih ⊢
      rw [List.filter_cons]
      split
      · exact fits_encodeProps_cons hhead (ih htail)
      · exact (ih htail).mono (by omega)

/-- A dictionary is one of its properties and the others. -/
theorem fits_encodeProps_get {pid : PropertyID} {value : PropValue} :
    ∀ {d : PropDict} {t : Nat}, OrderedDict.get d pid = some value → Fits (encodeProps d) t →
      ∃ m n, m + n = t ∧ Fits (encodeProp pid value) m ∧
        Fits (encodeProps (OrderedDict.pop d pid)) n := by
  intro d
  induction d with
  | nil => intro t hget; cases hget
  | cons item d ih =>
      intro t hget h
      obtain ⟨key, first⟩ := item
      obtain ⟨m, n, rfl, hhead, htail⟩ := fits_encodeProps_cons_inv h
      rw [OrderedDict.get_cons] at hget
      by_cases hkey : key = pid
      · subst hkey
        rw [if_pos rfl] at hget
        cases hget
        refine ⟨m, n, rfl, hhead, ?_⟩
        have hpop : OrderedDict.pop ((key, value) :: d) key = OrderedDict.pop d key :=
          List.filter_cons_of_neg (by simp)
        rw [hpop]
        exact fits_encodeProps_pop htail
      · rw [if_neg hkey] at hget
        obtain ⟨m', n', rfl, hprop, hrest⟩ := ih hget htail
        have hpop : OrderedDict.pop ((key, first) :: d) pid =
            (key, first) :: OrderedDict.pop d pid :=
          List.filter_cons_of_pos (by simpa using hkey)
        refine ⟨m', m + n', by omega, hprop, ?_⟩
        rw [hpop]
        exact fits_encodeProps_cons hhead hrest

/-- A dictionary of distinct properties, each read from another dictionary, fits
where that one does. -/
theorem fits_encodeProps_of_read :
    ∀ (e d : PropDict) (t : Nat), (OrderedDict.keys e).Nodup →
      (∀ item ∈ e, ReadFrom d (item.1, some item.2)) → Fits (encodeProps d) t →
      Fits (encodeProps e) t := by
  intro e
  induction e with
  | nil =>
      intro d t _ _ _
      exact fits_ok (Nat.zero_le _)
  | cons item e ih =>
      intro d t hnodup hread hd
      obtain ⟨pid, held⟩ := item
      rw [OrderedDict.keys, List.map_cons, List.nodup_cons] at hnodup
      obtain ⟨value, hget, hheld⟩ := hread _ List.mem_cons_self held rfl
      obtain ⟨m, n, rfl, hprop, hrest⟩ := fits_encodeProps_get hget hd
      refine fits_encodeProps_cons (hheld.fits hprop) (ih (OrderedDict.pop d pid) n hnodup.2 ?_ hrest)
      -- the others are still in the dictionary when this property is taken out
      intro other hother held' hheld'
      obtain ⟨value', hget', hfor⟩ := hread other (List.mem_cons_of_mem _ hother) held' hheld'
      have hne : pid ≠ other.1 := by
        have hmem : other.1 ∈ OrderedDict.keys e := List.mem_map_of_mem hother
        intro heq
        exact hnodup.1 (heq ▸ hmem)
      refine ⟨value', ?_, hfor⟩
      rw [OrderedDict.get_pop, if_neg hne]
      exact hget'

variable {P : Type} {S : PropertySet P}

/-- The keys of a stored dictionary are distinct. -/
theorem keys_toDict_nodup (hS : S.Lawful) (props : P) :
    (OrderedDict.keys (S.toDict props)).Nodup := by
  have hsub := keys_presentFields_sublist (S.fields props)
  unfold PropertySet.toDict up
  split
  · rw [List.append_nil]
    exact hsub.nodup (hS.nodup props)
  · rw [OrderedDict.keys, List.map_append, List.map_singleton, List.nodup_append]
    refine ⟨hsub.nodup (hS.nodup props), List.nodup_singleton _, ?_⟩
    intro pid hpid other hother heq
    rw [List.mem_singleton.mp hother] at heq
    exact hS.wire props pid (hsub.subset hpid) (heq ▸ rfl)

theorem toDict_readFrom (hR : S.Reading) (d : PropDict) :
    ∀ item ∈ S.toDict (S.ofDict d), ReadFrom d (item.1, some item.2) := by
  intro item hitem held hheld
  cases hheld
  rcases List.mem_append.mp hitem with hfield | hup
  · obtain ⟨field, hmem, hsome⟩ := List.mem_filterMap.mp hfield
    obtain ⟨value, hvalue, rfl⟩ := Option.map_eq_some_iff.mp hsome
    exact hR.fields d field hmem value hvalue
  · rw [hR.userProperties, up] at hup
    split at hup
    · cases hup
    · rename_i hpairs
      rw [List.mem_singleton.mp hup]
      unfold userPairs at hpairs ⊢
      split at hpairs
      · rename_i kvs hget
        exact ⟨_, hget, .inl rfl⟩
      · exact absurd rfl hpairs

/-- What an encoded block may be longer than the one it was read from: the overrun
of the last property and a longer length. -/
def maxBlockGrowth : Nat := maxPropSize + 4

/-- **Properties.**  A decoded properties object can be encoded, in the bytes of its
block and the growth a block may have. -/
theorem fits_decodeProperties (hS : S.Lawful) (hR : S.Reading) {props : Option P}
    (hbuf : buf.length ≤ 2 ^ 27) (h : decodeProperties S buf pos = .ok (props, n)) :
    0 < n ∧ pos + n ≤ buf.length ∧ Fits (encodeProperties S props) (n + maxBlockGrowth) := by
  obtain ⟨⟨d, n'⟩, hblock, h⟩ := bind_eq_ok.mp h
  obtain ⟨hpos, hstop, hd⟩ := fits_decodePropsBlock hblock
  have hzero : Fits (encodeVarint 0) 1 := fits_encodeVarint (by decide) (by decide) (by decide)
  by_cases hempty : d = []
  · simp only [hempty, if_true] at h
    cases h
    exact ⟨hpos, hstop, hzero.mono (by omega)⟩
  · simp only [hempty, if_false] at h
    cases h
    refine ⟨hpos, hstop, ?_⟩
    have hraw := fits_encodeProps_of_read _ d _ (keys_toDict_nodup hS (S.ofDict d))
      (toDict_readFrom hR d) hd
    rw [encodeProperties, encodePropsBlock]
    split
    · exact hzero.mono (by omega)
    · apply hraw.bind
      intro raw hlen
      have hlt : raw.length < 128 ^ 4 := by
        simp only [maxPropSize] at hlen
        omega
      apply (fits_encodeVarint (by decide) (Nat.le_refl 4) hlt).bind
      intro length hlength
      refine fits_ok ?_
      rw [List.length_append, maxBlockGrowth]
      omega

end Zmqtt
