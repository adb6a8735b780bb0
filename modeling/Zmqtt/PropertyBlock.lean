import Mathlib.Tactic.Common
import Zmqtt.Properties

/-!
# What a property block reads

`decode_props_block` tests only the start of a property against the end of the
block; the value behind it is checked against the end of the buffer.  A block
whose last property runs over the declared end is therefore accepted, and the
value takes in bytes that stand behind the block.

Every reader of the wire format is local: what it returns depends on the bytes
it consumed and on no others.  `Reads` states that of one read; the lemmas give
it for each wire type, then for one property.  The loop then returns the same
dictionary for every buffer with the same block exactly when the block is made
of whole properties.
-/

namespace Zmqtt

variable {α : Type} {buf other : Bytes} {lo hi pos stop size : Nat}

/-! ## Buffers with the same window -/

/-- The two buffers have the same bytes at `lo .. hi - 1`. -/
def SameBytes (buf other : Bytes) (lo hi : Nat) : Prop :=
  ∀ i, lo ≤ i → i < hi → other[i]? = buf[i]?

theorem SameBytes.symm (h : SameBytes buf other lo hi) : SameBytes other buf lo hi :=
  fun i hlo hhi => (h i hlo hhi).symm

theorem SameBytes.mono {lo' hi' : Nat} (h : SameBytes buf other lo hi) (hlo : lo ≤ lo')
    (hhi : hi' ≤ hi) : SameBytes buf other lo' hi' :=
  fun i hi₁ hi₂ => h i (by omega) (by omega)

/-- A buffer cut off at `hi` keeps the bytes before. -/
theorem sameBytes_take (buf : Bytes) (lo hi : Nat) : SameBytes buf (buf.take hi) lo hi := by
  intro i _ hhi
  exact List.getElem?_take_of_lt hhi

/-- A buffer that has a window of another reaches as far as the window. -/
theorem SameBytes.length_le (h : SameBytes buf other lo hi) (hlt : lo < hi)
    (hlen : hi ≤ buf.length) : hi ≤ other.length := by
  have hlast := h (hi - 1) (by omega) (by omega)
  have hbuf : hi - 1 < buf.length := by omega
  rw [List.getElem?_eq_getElem hbuf] at hlast
  obtain ⟨hbound, -⟩ := List.getElem?_eq_some_iff.mp hlast
  omega

theorem SameBytes.slice_eq (h : SameBytes buf other lo hi) :
    slice other lo hi = slice buf lo hi := by
  apply List.ext_getElem?
  intro i
  simp only [slice, List.getElem?_drop, List.getElem?_take]
  split
  · rename_i hi'
    exact h _ (by omega) hi'
  · rfl

/-! ## Local reads -/

/-- A read at `pos` that consumed `size` bytes: they are there, and every buffer
with these bytes gives the same answer. -/
def Reads (read : Bytes → Nat → Except CodecError α) (buf : Bytes) (pos size : Nat) (a : α) :
    Prop :=
  pos + size ≤ buf.length ∧
    ∀ other, SameBytes buf other pos (pos + size) → read other pos = .ok a

theorem byteAt_ok {b : UInt8} : byteAt buf pos = .ok b ↔ buf[pos]? = some b := by
  unfold byteAt
  cases buf[pos]? <;> simp

theorem byteAt_reads {b : UInt8} (h : byteAt buf pos = .ok b) : Reads byteAt buf pos 1 b := by
  rw [byteAt_ok] at h
  obtain ⟨hbound, -⟩ := List.getElem?_eq_some_iff.mp h
  refine ⟨by omega, fun other hsame => ?_⟩
  rw [byteAt_ok, hsame pos (by omega) (by omega), h]

theorem unpackH_ok {n : Nat} :
    unpackH buf pos = .ok n ↔
      ∃ a b, buf[pos]? = some a ∧ buf[pos + 1]? = some b ∧ a.toNat * 256 + b.toNat = n := by
  have h0 : buf[pos]? = (buf.drop pos)[0]? := by simp
  have h1 : buf[pos + 1]? = (buf.drop pos)[1]? := by simp
  rw [h0, h1, unpackH]
  match buf.drop pos with
  | [] => simp
  | [a] => simp
  | a :: b :: _ => simp

theorem unpackH_reads {n : Nat} (h : unpackH buf pos = .ok n) : Reads unpackH buf pos 2 n := by
  obtain ⟨a, b, ha, hb, hn⟩ := unpackH_ok.mp h
  obtain ⟨hbound, -⟩ := List.getElem?_eq_some_iff.mp hb
  refine ⟨by omega, fun other hsame => unpackH_ok.mpr ⟨a, b, ?_, ?_, hn⟩⟩
  · rw [hsame pos (by omega) (by omega), ha]
  · rw [hsame (pos + 1) (by omega) (by omega), hb]

theorem unpackI_ok {n : Nat} :
    unpackI buf pos = .ok n ↔
      ∃ a b c d, buf[pos]? = some a ∧ buf[pos + 1]? = some b ∧ buf[pos + 2]? = some c ∧
        buf[pos + 3]? = some d ∧
        a.toNat * 16777216 + b.toNat * 65536 + c.toNat * 256 + d.toNat = n := by
  have h0 : buf[pos]? = (buf.drop pos)[0]? := by simp
  have h1 : buf[pos + 1]? = (buf.drop pos)[1]? := by simp
  have h2 : buf[pos + 2]? = (buf.drop pos)[2]? := by simp
  have h3 : buf[pos + 3]? = (buf.drop pos)[3]? := by simp
  rw [h0, h1, h2, h3, unpackI]
  match buf.drop pos with
  | [] => simp
  | [a] => simp
  | [a, b] => simp
  | [a, b, c] => simp
  | a :: b :: c :: d :: _ => simp

theorem unpackI_reads {n : Nat} (h : unpackI buf pos = .ok n) : Reads unpackI buf pos 4 n := by
  obtain ⟨a, b, c, d, ha, hb, hc, hd, hn⟩ := unpackI_ok.mp h
  obtain ⟨hbound, -⟩ := List.getElem?_eq_some_iff.mp hd
  refine ⟨by omega, fun other hsame => unpackI_ok.mpr ⟨a, b, c, d, ?_, ?_, ?_, ?_, hn⟩⟩
  · rw [hsame pos (by omega) (by omega), ha]
  · rw [hsame (pos + 1) (by omega) (by omega), hb]
  · rw [hsame (pos + 2) (by omega) (by omega), hc]
  · rw [hsame (pos + 3) (by omega) (by omega), hd]

/-- The loop of `decode_varint` from round `i` on: it ends with the byte that has
no continuation bit. -/
theorem decodeVarintLoop_reads {v : Nat} :
    ∀ (n i multiplier value : Nat),
      decodeVarintLoop buf pos n i multiplier value = .ok (v, size) →
      i < size ∧ pos + size ≤ buf.length ∧
        ∀ other, SameBytes buf other (pos + i) (pos + size) →
          decodeVarintLoop other pos n i multiplier value = .ok (v, size) := by
  intro n
  induction n with
  | zero =>
      intro i multiplier value h
      simp [decodeVarintLoop] at h
  | succ n ih =>
      intro i multiplier value h
      unfold decodeVarintLoop at h ⊢
      cases hbyte : buf[pos + i]? with
      | none => simp [hbyte] at h
      | some byte =>
          obtain ⟨hbound, -⟩ := List.getElem?_eq_some_iff.mp hbyte
          rw [hbyte] at h
          dsimp only at h
          by_cases hlast : byte.toNat &&& 0x80 = 0
          · rw [if_pos hlast] at h
            cases h
            refine ⟨by omega, by omega, fun other hsame => ?_⟩
            rw [hsame (pos + i) (by omega) (by omega), hbyte]
            simp [hlast]
          · rw [if_neg hlast] at h
            obtain ⟨hi, hlen, hother⟩ := ih _ _ _ h
            refine ⟨by omega, hlen, fun other hsame => ?_⟩
            rw [hsame (pos + i) (by omega) (by omega), hbyte]
            dsimp only
            rw [if_neg hlast]
            exact hother other (hsame.mono (by omega) (by omega))

theorem decodeVarint_reads {v : Nat} (h : decodeVarint buf pos = .ok (v, size)) :
    0 < size ∧ Reads decodeVarint buf pos size (v, size) := by
  obtain ⟨hsize, hlen, hother⟩ := decodeVarintLoop_reads 4 0 1 0 h
  exact ⟨hsize, hlen, fun other hsame => hother other (by simpa using hsame)⟩

theorem decodeBytesField_ok {data : Bytes} :
    decodeBytesField buf pos = .ok (data, size) ↔
      ∃ length, unpackH buf pos = .ok length ∧ pos + size ≤ buf.length ∧ size = 2 + length ∧
        data = slice buf (pos + 2) (pos + size) := by
  unfold decodeBytesField
  by_cases hshort : pos + 2 > buf.length
  · rw [if_pos hshort]
    constructor
    · intro h; cases h
    · rintro ⟨length, -, hlen, rfl, -⟩
      omega
  · rw [if_neg hshort, bind_eq_ok]
    constructor
    · rintro ⟨length, hlength, h⟩
      split at h
      · cases h
      · cases h
        exact ⟨length, hlength, by omega, rfl, by rw [Nat.add_assoc]⟩
    · rintro ⟨length, hlength, hlen, rfl, rfl⟩
      refine ⟨length, hlength, ?_⟩
      rw [if_neg (by omega), Nat.add_assoc]
      rfl

theorem decodeStr_ok {s : Str} :
    decodeStr buf pos = .ok (s, size) ↔
      ∃ length, unpackH buf pos = .ok length ∧ pos + size ≤ buf.length ∧ size = 2 + length ∧
        decodeUtf8 (slice buf (pos + 2) (pos + size)) = .ok s := by
  unfold decodeStr
  by_cases hshort : pos + 2 > buf.length
  · rw [if_pos hshort]
    constructor
    · intro h; cases h
    · rintro ⟨length, -, hlen, rfl, -⟩
      omega
  · rw [if_neg hshort, bind_eq_ok]
    constructor
    · rintro ⟨length, hlength, h⟩
      split at h
      · cases h
      · obtain ⟨t, ht, h⟩ := bind_eq_ok.mp h
        cases h
        exact ⟨length, hlength, by omega, rfl, by rwa [← Nat.add_assoc]⟩
    · rintro ⟨length, hlength, hlen, rfl, hs⟩
      refine ⟨length, hlength, ?_⟩
      rw [if_neg (by omega), Nat.add_assoc, bind_eq_ok]
      exact ⟨s, hs, rfl⟩

theorem decodeBytesField_reads {data : Bytes} (h : decodeBytesField buf pos = .ok (data, size)) :
    Reads decodeBytesField buf pos size (data, size) := by
  obtain ⟨length, hlength, hlen, hsize, hdata⟩ := decodeBytesField_ok.mp h
  refine ⟨hlen, fun other hsame => decodeBytesField_ok.mpr ⟨length, ?_, ?_, hsize, ?_⟩⟩
  · exact (unpackH_reads hlength).2 other (hsame.mono (by omega) (by omega))
  · exact hsame.length_le (by omega) hlen
  · rw [hdata, (hsame.mono (by omega) (by omega)).slice_eq]

theorem decodeStr_reads {s : Str} (h : decodeStr buf pos = .ok (s, size)) :
    Reads decodeStr buf pos size (s, size) := by
  obtain ⟨length, hlength, hlen, hsize, hs⟩ := decodeStr_ok.mp h
  refine ⟨hlen, fun other hsame => decodeStr_ok.mpr ⟨length, ?_, ?_, hsize, ?_⟩⟩
  · exact (unpackH_reads hlength).2 other (hsame.mono (by omega) (by omega))
  · exact hsame.length_le (by omega) hlen
  · rw [(hsame.mono (by omega) (by omega)).slice_eq, hs]

/-! ## Whole properties -/

/-- The length prefix of a string or of binary data. -/
def lengthPrefix (buf : Bytes) (pos : Nat) : Nat :=
  (buf.getD pos 0).toNat * 256 + (buf.getD (pos + 1) 0).toNat

/-- The bytes of a variable-length integer: up to the first without the
continuation bit, at most `n`. -/
def varintExtent (buf : Bytes) : (pos n : Nat) → Nat
  | _, 0 => 0
  | pos, n + 1 =>
      if (buf.getD pos 0).toNat &&& 0x80 = 0 then 1 else 1 + varintExtent buf (pos + 1) n

/-- How far a value of each wire type extends, by its own bytes. -/
def valueExtent (buf : Bytes) (pos : Nat) : WireType → Nat
  | .byte => 1
  | .uint16 => 2
  | .uint32 => 4
  | .varint => varintExtent buf pos 4
  | .str => 2 + lengthPrefix buf pos
  | .bytesData => 2 + lengthPrefix buf pos
  | .userProperty =>
      let key := 2 + lengthPrefix buf pos
      key + (2 + lengthPrefix buf (pos + key))

/-- The bytes from `pos` to `stop` are whole properties, one after the other, the
last of which ends at `stop`. -/
inductive WholeProperties (buf : Bytes) (stop : Nat) : Nat → Prop
  | done : WholeProperties buf stop stop
  | next {pos : Nat} {byte : UInt8} {pid : PropertyID} (hpos : pos < stop)
      (hbyte : buf[pos]? = some byte) (hpid : PropertyID.ofByte? byte = some pid)
      (rest : WholeProperties buf stop (pos + 1 + valueExtent buf (pos + 1) pid.wireType)) :
      WholeProperties buf stop pos

/-- The block at `offset` is made of whole properties up to its declared end. -/
def WholeBlock (buf : Bytes) (offset : Nat) : Prop :=
  ∃ propsLen n, decodeVarint buf offset = .ok (propsLen, n) ∧
    WholeProperties buf (offset + n + propsLen) (offset + n)

theorem WholeProperties.le (h : WholeProperties buf stop pos) : pos ≤ stop := by
  cases h with
  | done => omega
  | next hpos => omega

theorem unpackH_lengthPrefix {n : Nat} (h : unpackH buf pos = .ok n) :
    lengthPrefix buf pos = n := by
  obtain ⟨a, b, ha, hb, hn⟩ := unpackH_ok.mp h
  simp [lengthPrefix, List.getD_eq_getElem?_getD, ha, hb, hn]

theorem decodeVarintLoop_extent {v : Nat} :
    ∀ (n i multiplier value : Nat),
      decodeVarintLoop buf pos n i multiplier value = .ok (v, size) →
      size = i + varintExtent buf (pos + i) n := by
  intro n
  induction n with
  | zero =>
      intro i multiplier value h
      simp [decodeVarintLoop] at h
  | succ n ih =>
      intro i multiplier value h
      unfold decodeVarintLoop at h
      unfold varintExtent
      cases hbyte : buf[pos + i]? with
      | none => simp [hbyte] at h
      | some byte =>
          rw [hbyte] at h
          simp only [List.getD_eq_getElem?_getD, hbyte, Option.getD_some]
          dsimp only at h
          by_cases hlast : byte.toNat &&& 0x80 = 0
          · rw [if_pos hlast] at h ⊢
            cases h
            rfl
          · rw [if_neg hlast] at h ⊢
            have hrest := ih _ _ _ h
            rw [hrest, Nat.add_assoc pos i 1]
            omega

/-- A property consumes the extent of its value. -/
theorem decodeProp_extent {pid : PropertyID} {d d' : PropDict}
    (h : decodeProp buf pid pos d = .ok (d', size)) :
    size = valueExtent buf pos pid.wireType := by
  unfold decodeProp at h
  unfold valueExtent
  cases hwire : pid.wireType <;> rw [hwire] at h <;> obtain ⟨a, ha, h⟩ := bind_eq_ok.mp h
  case byte | uint16 | uint32 => cases h; rfl
  case varint =>
    cases h
    simpa using decodeVarintLoop_extent 4 0 1 0 ha
  case str =>
    cases h
    obtain ⟨length, hlength, -, hsize, -⟩ := decodeStr_ok.mp ha
    simpa [unpackH_lengthPrefix hlength] using hsize
  case bytesData =>
    cases h
    obtain ⟨length, hlength, -, hsize, -⟩ := decodeBytesField_ok.mp ha
    simpa [unpackH_lengthPrefix hlength] using hsize
  case userProperty =>
    obtain ⟨⟨v, vn⟩, hv, h⟩ := bind_eq_ok.mp h
    cases h
    obtain ⟨length, hlength, -, hsize, -⟩ := decodeStr_ok.mp ha
    obtain ⟨length', hlength', -, hsize', -⟩ := decodeStr_ok.mp hv
    simp only [unpackH_lengthPrefix hlength, ← hsize, unpackH_lengthPrefix hlength', ← hsize']

/-- A property reads its value's bytes and no others. -/
theorem decodeProp_reads {pid : PropertyID} {d d' : PropDict}
    (h : decodeProp buf pid pos d = .ok (d', size)) :
    Reads (fun buf pos => decodeProp buf pid pos d) buf pos size (d', size) := by
  unfold decodeProp at h
  unfold Reads decodeProp
  cases hwire : pid.wireType <;> rw [hwire] at h <;> obtain ⟨a, ha, h⟩ := bind_eq_ok.mp h
  case byte =>
    cases h
    obtain ⟨hlen, hother⟩ := byteAt_reads ha
    exact ⟨hlen, fun other hsame => bind_eq_ok.mpr ⟨_, hother other hsame, rfl⟩⟩
  case uint16 =>
    cases h
    obtain ⟨hlen, hother⟩ := unpackH_reads ha
    exact ⟨hlen, fun other hsame => bind_eq_ok.mpr ⟨_, hother other hsame, rfl⟩⟩
  case uint32 =>
    cases h
    obtain ⟨hlen, hother⟩ := unpackI_reads ha
    exact ⟨hlen, fun other hsame => bind_eq_ok.mpr ⟨_, hother other hsame, rfl⟩⟩
  case varint =>
    cases h
    obtain ⟨-, hlen, hother⟩ := decodeVarint_reads ha
    exact ⟨hlen, fun other hsame => bind_eq_ok.mpr ⟨_, hother other hsame, rfl⟩⟩
  case str =>
    cases h
    obtain ⟨hlen, hother⟩ := decodeStr_reads ha
    exact ⟨hlen, fun other hsame => bind_eq_ok.mpr ⟨_, hother other hsame, rfl⟩⟩
  case bytesData =>
    cases h
    obtain ⟨hlen, hother⟩ := decodeBytesField_reads ha
    exact ⟨hlen, fun other hsame => bind_eq_ok.mpr ⟨_, hother other hsame, rfl⟩⟩
  case userProperty =>
    obtain ⟨k, kn⟩ := a
    obtain ⟨⟨v, vn⟩, hv, h⟩ := bind_eq_ok.mp h
    cases h
    obtain ⟨-, hkey⟩ := decodeStr_reads ha
    obtain ⟨hlen, hvalue⟩ := decodeStr_reads hv
    refine ⟨by omega, fun other hsame => bind_eq_ok.mpr ⟨(k, kn), ?_,
      bind_eq_ok.mpr ⟨(v, vn), ?_, rfl⟩⟩⟩
    · exact hkey other (hsame.mono (by omega) (by omega))
    · exact hvalue other (hsame.mono (by omega) (by omega))

/-! ## The loop -/

/-- One round of the loop. -/
theorem decodePropsLoop_round {d d₁ : PropDict} (hpos : pos < stop)
    (h : decodePropsLoop buf stop pos d = .ok d₁) :
    ∃ byte pid d' size, buf[pos]? = some byte ∧ PropertyID.ofByte? byte = some pid ∧
      decodeProp buf pid (pos + 1) d = .ok (d', size) ∧
      decodePropsLoop buf stop (pos + 1 + size) d' = .ok d₁ := by
  rw [decodePropsLoop, if_pos hpos] at h
  split at h
  · cases h
  · rename_i byte hbyte
    split at h
    · cases h
    · rename_i pid hpid
      split at h
      · cases h
      · rename_i d' size hprop
        exact ⟨byte, pid, d', size, byteAt_ok.mp hbyte, hpid, hprop, h⟩

theorem decodePropsLoop_next {d d' : PropDict} {byte : UInt8} {pid : PropertyID} (hpos : pos < stop)
    (hbyte : buf[pos]? = some byte) (hpid : PropertyID.ofByte? byte = some pid)
    (hprop : decodeProp buf pid (pos + 1) d = .ok (d', size)) :
    decodePropsLoop buf stop pos d = decodePropsLoop buf stop (pos + 1 + size) d' := by
  rw [decodePropsLoop, if_pos hpos, byteAt_ok.mpr hbyte]
  simp only [hpid, hprop]

/-- The declared end of an accepted block lies in the buffer. -/
theorem decodePropsLoop_stop_le {d₁ : PropDict} :
    ∀ (fuel pos : Nat) (d : PropDict), stop - pos ≤ fuel → pos ≤ buf.length →
      decodePropsLoop buf stop pos d = .ok d₁ → stop ≤ buf.length := by
  intro fuel
  induction fuel with
  | zero => intro pos d hfuel hlen _; omega
  | succ fuel ih =>
      intro pos d hfuel hlen h
      by_cases hpos : pos < stop
      · obtain ⟨byte, pid, d', size, -, -, hprop, hrest⟩ := decodePropsLoop_round hpos h
        exact ih (pos + 1 + size) d' (by omega) (decodeProp_reads hprop).1 hrest
      · omega

/-- Whole properties are read inside the block, so every buffer with the block
gives the same dictionary. -/
theorem WholeProperties.decode_eq {d d₁ : PropDict} (hwhole : WholeProperties buf stop pos)
    (hsame : SameBytes buf other pos stop) (h : decodePropsLoop buf stop pos d = .ok d₁) :
    decodePropsLoop other stop pos d = .ok d₁ := by
  induction hwhole generalizing d with
  | done =>
      rw [decodePropsLoop, if_neg (by omega)] at h ⊢
      exact h
  | @next pos byte pid hpos hbyte hpid rest ih =>
      obtain ⟨byte', pid', d', size, hbyte', hpid', hprop, hrest⟩ := decodePropsLoop_round hpos h
      obtain rfl : byte = byte' := Option.some.inj (hbyte.symm.trans hbyte')
      obtain rfl : pid = pid' := Option.some.inj (hpid.symm.trans hpid')
      have hsize := decodeProp_extent hprop
      subst hsize
      have hle := rest.le
      have hprop' := (decodeProp_reads hprop).2 other (hsame.mono (by omega) (by omega))
      have hbyte'' : other[pos]? = some byte := by rw [hsame pos (by omega) hpos, hbyte]
      rw [decodePropsLoop_next hpos hbyte'' hpid hprop']
      exact ih (hsame.mono (by omega) (by omega)) hrest

/-- A block that can be read from the buffer cut off at its end is made of whole
properties: no value reaches over the cut. -/
theorem wholeProperties_of_cut {d₁ : PropDict} :
    ∀ (fuel pos : Nat) (d : PropDict), stop - pos ≤ fuel → pos ≤ stop →
      decodePropsLoop (buf.take stop) stop pos d = .ok d₁ → WholeProperties buf stop pos := by
  intro fuel
  induction fuel with
  | zero =>
      intro pos d hfuel hle _
      obtain rfl : pos = stop := by omega
      exact .done
  | succ fuel ih =>
      intro pos d hfuel hle h
      by_cases hpos : pos < stop
      · obtain ⟨byte, pid, d', size, hbyte, hpid, hprop, hrest⟩ := decodePropsLoop_round hpos h
        obtain ⟨hend, hother⟩ := decodeProp_reads hprop
        have hcut : pos + 1 + size ≤ stop := by
          rw [List.length_take] at hend
          omega
        have hfull := hother buf ((sameBytes_take buf _ _).symm.mono (Nat.le_refl _) hcut)
        have hbyte' : buf[pos]? = some byte := by rwa [List.getElem?_take_of_lt hpos] at hbyte
        refine .next hpos hbyte' hpid ?_
        rw [← decodeProp_extent hfull]
        exact ih (pos + 1 + size) d' (by omega) hcut hrest
      · obtain rfl : pos = stop := by omega
        exact .done

/-! ## The block -/

theorem decodePropsBlock_ok {offset n : Nat} {d : PropDict} :
    decodePropsBlock buf offset = .ok (d, n) ↔
      ∃ propsLen m, decodeVarint buf offset = .ok (propsLen, m) ∧ n = m + propsLen ∧
        decodePropsLoop buf (offset + n) (offset + m) [] = .ok d := by
  unfold decodePropsBlock
  rw [bind_eq_ok]
  constructor
  · rintro ⟨⟨propsLen, m⟩, hlen, h⟩
    obtain ⟨d', hloop, h⟩ := bind_eq_ok.mp h
    cases h
    exact ⟨propsLen, m, hlen, rfl, by rwa [← Nat.add_assoc]⟩
  · rintro ⟨propsLen, m, hlen, rfl, hloop⟩
    refine ⟨(propsLen, m), hlen, bind_eq_ok.mpr ⟨d, ?_, rfl⟩⟩
    rwa [← Nat.add_assoc] at hloop

/-- The block lies in the buffer, and every buffer with the same block, the one
cut off at its end among them, decodes to the same result. -/
def Confined (buf : Bytes) (offset : Nat) (d : PropDict) (n : Nat) : Prop :=
  offset + n ≤ buf.length ∧
    ∀ other, SameBytes buf other offset (offset + n) →
      decodePropsBlock other offset = .ok (d, n)

/-- **A block is confined to its declared length exactly when it is made of whole
properties.** -/
theorem decodePropsBlock_confined_iff {offset n : Nat} {d : PropDict}
    (h : decodePropsBlock buf offset = .ok (d, n)) :
    Confined buf offset d n ↔ WholeBlock buf offset := by
  obtain ⟨propsLen, m, hlen, rfl, hloop⟩ := decodePropsBlock_ok.mp h
  obtain ⟨-, hprefix, hother⟩ := decodeVarint_reads hlen
  constructor
  · rintro ⟨hbound, hsame⟩
    -- The cut-off buffer is one of those that have the block.
    have hcut := hsame _ (sameBytes_take buf _ _)
    obtain ⟨propsLen', m', hlen', hn, hloop'⟩ := decodePropsBlock_ok.mp hcut
    have hlen'' := hother _ ((sameBytes_take buf offset (offset + (m + propsLen))).mono
      (Nat.le_refl _) (by omega))
    rw [hlen''] at hlen'
    cases hlen'
    refine ⟨propsLen, m, hlen, ?_⟩
    rw [Nat.add_assoc]
    exact wholeProperties_of_cut _ _ [] (Nat.le_refl _) (by omega) hloop'
  · rintro ⟨propsLen', m', hlen', hwhole⟩
    rw [hlen] at hlen'
    cases hlen'
    rw [Nat.add_assoc] at hwhole
    refine ⟨decodePropsLoop_stop_le _ _ [] (Nat.le_refl _) hprefix hloop, fun other hsame => ?_⟩
    refine decodePropsBlock_ok.mpr ⟨propsLen, m, ?_, rfl, ?_⟩
    · exact hother other (hsame.mono (Nat.le_refl _) (by omega))
    · exact hwhole.decode_eq (hsame.mono (by omega) (Nat.le_refl _)) hloop

/-- The two bytes of a topic alias inside a block of length three. -/
theorem decodePropsBlock_confined_topicAlias :
    Confined [3, 0x23, 0, 5, 0x70] 0 [(.topicAlias, .int 5)] 4 := by
  refine (decodePropsBlock_confined_iff (d := [(.topicAlias, .int 5)]) (n := 4) (by rfl)).mpr ?_
  have hbyte : ([3, 0x23, 0, 5, 0x70] : Bytes)[1]? = some 0x23 := rfl
  have hpid : PropertyID.ofByte? 0x23 = some .topicAlias := rfl
  exact ⟨3, 1, rfl, .next (by decide) hbyte hpid .done⟩

/-- The end of a PUBLISH body: topic `a`, a block of length one that holds only the
identifier of a topic alias, and the payload `00 05`.  The alias is read from the
payload, and without the payload the block is refused. -/
theorem topicAlias_read_from_payload :
    decodePropsBlock [0, 1, 0x61, 1, 0x23, 0, 5] 3 = .ok ([(.topicAlias, .int 5)], 2) ∧
      decodePropsBlock ([0, 1, 0x61, 1, 0x23, 0, 5].take 5) 3 = .error .structError ∧
      ¬ ∀ (buf : Bytes) (offset : Nat) (d : PropDict) (n : Nat),
        decodePropsBlock buf offset = .ok (d, n) → Confined buf offset d n := by
  have hfull : decodePropsBlock [0, 1, 0x61, 1, 0x23, 0, 5] 3 =
      .ok ([(.topicAlias, .int 5)], 2) := by rfl
  have hcut : decodePropsBlock ([0, 1, 0x61, 1, 0x23, 0, 5].take 5) 3 = .error .structError := by
    rfl
  refine ⟨hfull, hcut, fun hall => ?_⟩
  have hsame := (hall _ _ _ _ hfull).2 _ (sameBytes_take _ _ _)
  rw [hcut] at hsame
  cases hsame

end Zmqtt
