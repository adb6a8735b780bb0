import Zmqtt.Properties
import Zmqtt.WireRoundTrip

/-!
# Round trip of a property block

A block decodes to the dictionary that was encoded, booleans turned into the
integers the wire carries.  The decoder's loop is followed one property at a
time: `loop_field` and `loop_userProperties` say that a round of the loop moves
the position past the bytes of that property and appends the pair to the
dictionary, so `loop_fields` and `decodePropsBlock_encode` are inductions over
the dictionary.

A property class is `Lawful` when reading its own dictionary back gives the
object; the eleven classes are.
-/

namespace Zmqtt

/-- The value a decoder stores for an encoded value. -/
def wireValue : PropValue → PropValue
  | .bool b => .int (if b then 1 else 0)
  | value => value

/-- The dictionary a decoder builds for an encoded dictionary. -/
def wireDict (d : PropDict) : PropDict :=
  d.map fun item => (item.1, wireValue item.2)

theorem wireDict_append (d e : PropDict) : wireDict (d ++ e) = wireDict d ++ wireDict e :=
  List.map_append

theorem wireDict_up (kvs : List (Str × Str)) : wireDict (up kvs) = up kvs := by
  unfold up
  split <;> rfl

theorem keys_wireDict (d : PropDict) :
    OrderedDict.keys (wireDict d) = OrderedDict.keys d := by
  simp [wireDict, OrderedDict.keys, Function.comp_def]

theorem ofByte?_value (pid : PropertyID) : PropertyID.ofByte? pid.value = some pid := by
  cases pid <;> rfl

/-! ## One property -/

/-- What the encoder can have written for a property other than a user property:
each wire type takes one kind of value, a byte also a boolean. -/
theorem encodeProp_cases {pid : PropertyID} {value : PropValue} {bytes : Bytes}
    (hpid : pid.wireType ≠ .userProperty) (h : encodeProp pid value = .ok bytes) :
    ∃ payload, bytes = pid.value :: payload ∧
      ((pid.wireType = .byte ∧ ∃ n, wireValue value = .int n ∧ packB n = .ok payload) ∨
       (pid.wireType = .uint16 ∧ ∃ n, value = .int n ∧ packH n = .ok payload) ∨
       (pid.wireType = .uint32 ∧ ∃ n, value = .int n ∧ packI n = .ok payload) ∨
       (pid.wireType = .varint ∧ ∃ n, value = .int n ∧ encodeVarint n = .ok payload) ∨
       (pid.wireType = .str ∧ ∃ s, value = .str s ∧ encodeStr s = .ok payload) ∨
       (pid.wireType = .bytesData ∧
         ∃ data, value = .bytes data ∧ encodeBytesField data = .ok payload)) := by
  have hinv : ∀ {x : Except CodecError Bytes},
      (do return pid.value :: (← x)) = Except.ok bytes →
        ∃ payload, bytes = pid.value :: payload ∧ x = .ok payload := by
    intro x hx
    obtain ⟨payload, hp, hx⟩ := bind_eq_ok.mp hx
    exact ⟨payload, (Except.ok.inj hx).symm, hp⟩
  unfold encodeProp at h
  split at h
  case h_1 n hw =>
    obtain ⟨payload, rfl, hp⟩ := hinv h
    exact ⟨payload, rfl, Or.inl ⟨hw, n, rfl, hp⟩⟩
  case h_2 b hw =>
    obtain ⟨payload, rfl, hp⟩ := hinv h
    exact ⟨payload, rfl, Or.inl ⟨hw, _, rfl, hp⟩⟩
  case h_3 n hw =>
    obtain ⟨payload, rfl, hp⟩ := hinv h
    exact ⟨payload, rfl, Or.inr (Or.inl ⟨hw, n, rfl, hp⟩)⟩
  case h_4 n hw =>
    obtain ⟨payload, rfl, hp⟩ := hinv h
    exact ⟨payload, rfl, Or.inr (Or.inr (Or.inl ⟨hw, n, rfl, hp⟩))⟩
  case h_5 n hw =>
    obtain ⟨payload, rfl, hp⟩ := hinv h
    exact ⟨payload, rfl, Or.inr (Or.inr (Or.inr (Or.inl ⟨hw, n, rfl, hp⟩)))⟩
  case h_6 s hw =>
    obtain ⟨payload, rfl, hp⟩ := hinv h
    exact ⟨payload, rfl, Or.inr (Or.inr (Or.inr (Or.inr (Or.inl ⟨hw, s, rfl, hp⟩))))⟩
  case h_7 data hw =>
    obtain ⟨payload, rfl, hp⟩ := hinv h
    exact ⟨payload, rfl, Or.inr (Or.inr (Or.inr (Or.inr (Or.inr ⟨hw, data, rfl, hp⟩))))⟩
  case h_8 kvs hw => exact absurd hw hpid
  case h_9 => cases h

/-- A property other than a user property decodes to the stored form of its
value. -/
theorem decodeProp_encodeProp {buf bytes rest : Bytes} {off : Nat} {pid : PropertyID}
    {value : PropValue} (d : PropDict) (hpid : pid.wireType ≠ .userProperty)
    (h : encodeProp pid value = .ok bytes) (hbuf : buf.drop off = bytes ++ rest) :
    ∃ payload, bytes = pid.value :: payload ∧
      decodeProp buf pid (off + 1) d =
        .ok (OrderedDict.set d pid (wireValue value), payload.length) := by
  obtain ⟨payload, rfl, hcases⟩ := encodeProp_cases hpid h
  have hwin := drop_after_byte hbuf
  refine ⟨payload, rfl, ?_⟩
  unfold decodeProp
  rcases hcases with ⟨hw, n, hv, hp⟩ | ⟨hw, n, rfl, hp⟩ | ⟨hw, n, rfl, hp⟩ | ⟨hw, n, rfl, hp⟩ |
    ⟨hw, s, rfl, hp⟩ | ⟨hw, data, rfl, hp⟩
  · obtain ⟨h0, h1, rfl⟩ := packB_ok hp
    simp only [hw]
    rw [byteAt_window hwin, ok_bind, byte_value h0 h1, hv]
    rfl
  · obtain ⟨hun, hval⟩ := unpackH_packH hp hwin
    simp only [hw]
    rw [hun, ok_bind, hval, packH_length hp]
    rfl
  · obtain ⟨hun, hval⟩ := unpackI_packI hp hwin
    simp only [hw]
    rw [hun, ok_bind, hval, packI_length hp]
    rfl
  · obtain ⟨hun, hval⟩ := decodeVarint_encodeVarint hp hwin
    simp only [hw]
    rw [hun, ok_bind]
    simp only [hval]
    rfl
  · simp only [hw]
    rw [decodeStr_encode hp hwin, ok_bind]
    rfl
  · simp only [hw]
    rw [decodeBytesField_encode hp hwin, ok_bind]
    rfl

/-- One round of the decoder's loop over a known property. -/
theorem decodePropsLoop_step {buf rest : Bytes} {stop pos size : Nat} {pid : PropertyID}
    {d d' : PropDict} (hlt : pos < stop) (hbuf : buf.drop pos = pid.value :: rest)
    (hprop : decodeProp buf pid (pos + 1) d = .ok (d', size)) :
    decodePropsLoop buf stop pos d = decodePropsLoop buf stop (pos + 1 + size) d' := by
  conv_lhs => rw [decodePropsLoop]
  rw [if_pos hlt]
  simp only [byteAt_window hbuf, ofByte?_value, hprop]

/-- The loop reads one encoded field and appends it. -/
theorem loop_field {buf bytes rest : Bytes} {stop pos : Nat} {pid : PropertyID}
    {value : PropValue} {d : PropDict} (hpid : pid.wireType ≠ .userProperty)
    (hnew : pid ∉ OrderedDict.keys d) (h : encodeProp pid value = .ok bytes)
    (hbuf : buf.drop pos = bytes ++ rest) (hstop : pos + bytes.length ≤ stop) :
    decodePropsLoop buf stop pos d =
      decodePropsLoop buf stop (pos + bytes.length) (d ++ [(pid, wireValue value)]) := by
  obtain ⟨payload, rfl, hdec⟩ := decodeProp_encodeProp d hpid h hbuf
  rw [OrderedDict.set_of_not_mem hnew] at hdec
  have hlt : pos < stop := by
    simp only [List.length_cons] at hstop
    omega
  rw [decodePropsLoop_step hlt hbuf hdec, List.length_cons, Nat.add_assoc,
    Nat.add_comm 1 payload.length]

/-! ## User properties -/

theorem userPairs_append_up {d : PropDict} (hnew : PropertyID.userProperty ∉ OrderedDict.keys d)
    (kvs : List (Str × Str)) : userPairs (d ++ up kvs) = kvs := by
  unfold userPairs
  rw [OrderedDict.get_append_of_not_mem hnew]
  by_cases hk : kvs = []
  · simp [up, hk]
  · simp [up, hk, OrderedDict.get]

/-- Storing the pairs read so far with one more pair. -/
theorem set_append_up {d : PropDict} (hnew : PropertyID.userProperty ∉ OrderedDict.keys d)
    (kvs : List (Str × Str)) (kv : Str × Str) :
    OrderedDict.set (d ++ up kvs) .userProperty (.pairs (kvs ++ [kv])) =
      d ++ up (kvs ++ [kv]) := by
  by_cases hk : kvs = []
  · subst hk
    simp only [up, if_true, List.append_nil, List.nil_append]
    rw [OrderedDict.set_of_not_mem hnew]
    simp
  · simp only [up, hk, if_false]
    rw [OrderedDict.set_append_last hnew]
    simp

/-- The loop reads a run of user properties and collects them in one entry. -/
theorem loop_userProperties (buf : Bytes) (stop : Nat) {d : PropDict}
    (hnew : PropertyID.userProperty ∉ OrderedDict.keys d) :
    ∀ (kvs : List (Str × Str)) (prev : List (Str × Str)) (bytes rest : Bytes) (pos : Nat),
      encodeUserProperties .userProperty kvs = .ok bytes →
      buf.drop pos = bytes ++ rest → pos + bytes.length ≤ stop →
      decodePropsLoop buf stop pos (d ++ up prev) =
        decodePropsLoop buf stop (pos + bytes.length) (d ++ up (prev ++ kvs)) := by
  intro kvs
  induction kvs with
  | nil =>
      intro prev bytes rest pos h _ _
      cases h
      simp
  | cons kv kvs ih =>
      intro prev bytes rest pos h hbuf hstop
      obtain ⟨k, v⟩ := kv
      obtain ⟨key, hkey, h⟩ := bind_eq_ok.mp h
      obtain ⟨value, hvalue, h⟩ := bind_eq_ok.mp h
      obtain ⟨tail, htail, h⟩ := bind_eq_ok.mp h
      cases h
      simp only [List.cons_append, List.append_assoc] at hbuf
      have hwin := drop_after_byte hbuf
      have hwin2 := drop_after hwin
      have hwin3 := drop_after hwin2
      have hdec : decodeProp buf .userProperty (pos + 1) (d ++ up prev) =
          .ok (d ++ up (prev ++ [(k, v)]), key.length + value.length) := by
        simp only [decodeProp, PropertyID.wireType]
        rw [decodeStr_encode hkey hwin, ok_bind]
        simp only
        rw [decodeStr_encode hvalue hwin2, ok_bind]
        simp only
        rw [userPairs_append_up hnew, set_append_up hnew]
        rfl
      simp only [List.length_cons, List.length_append] at hstop ⊢
      rw [decodePropsLoop_step (by omega) hbuf hdec]
      have hnext := ih (prev ++ [(k, v)]) tail rest
        (pos + 1 + (key.length + value.length)) htail
        (by rw [← Nat.add_assoc]; exact hwin3) (by omega)
      rw [hnext, List.append_assoc]
      congr 1
      omega

/-! ## The block -/

theorem encodeProps_append (d e : PropDict) {bytes : Bytes}
    (h : encodeProps (d ++ e) = .ok bytes) :
    ∃ left right, encodeProps d = .ok left ∧ encodeProps e = .ok right ∧
      bytes = left ++ right := by
  induction d generalizing bytes with
  | nil => exact ⟨[], bytes, rfl, h, rfl⟩
  | cons item d ih =>
      obtain ⟨head, hhead, h⟩ := bind_eq_ok.mp h
      obtain ⟨tail, htail, h⟩ := bind_eq_ok.mp h
      cases h
      obtain ⟨left, right, hleft, hright, rfl⟩ := ih htail
      refine ⟨head ++ left, right, ?_, hright, by simp⟩
      simp only [encodeProps, hhead, ok_bind, hleft]
      rfl

/-- The loop reads a run of distinct fields and appends them in order. -/
theorem loop_fields {buf : Bytes} {stop : Nat} :
    ∀ (fields d : PropDict) (bytes rest : Bytes) (pos : Nat),
      (∀ pid ∈ OrderedDict.keys fields, pid.wireType ≠ .userProperty) →
      (OrderedDict.keys (d ++ fields)).Nodup →
      encodeProps fields = .ok bytes → buf.drop pos = bytes ++ rest →
      pos + bytes.length ≤ stop →
      decodePropsLoop buf stop pos d =
        decodePropsLoop buf stop (pos + bytes.length) (d ++ wireDict fields) := by
  intro fields
  induction fields with
  | nil =>
      intro d bytes rest pos _ _ h _ _
      cases h
      simp [wireDict]
  | cons field fields ih =>
      intro d bytes rest pos hwire hnodup h hbuf hstop
      obtain ⟨pid, value⟩ := field
      obtain ⟨head, hhead, h⟩ := bind_eq_ok.mp h
      obtain ⟨tail, htail, h⟩ := bind_eq_ok.mp h
      cases h
      rw [List.append_assoc] at hbuf
      have hnew : pid ∉ OrderedDict.keys d := by
        intro hmem
        simp only [OrderedDict.keys, List.map_append, List.nodup_append, List.map_cons] at hnodup
        exact hnodup.2.2 pid hmem pid List.mem_cons_self rfl
      simp only [List.length_append] at hstop ⊢
      rw [loop_field (hwire _ List.mem_cons_self) hnew hhead hbuf (by omega)]
      rw [ih (d ++ [(pid, wireValue value)]) tail rest (pos + head.length)
        (fun name hname => hwire name (List.mem_cons_of_mem _ hname)) ?_ htail (drop_after hbuf) (by omega)]
      · simp [wireDict, Nat.add_assoc]
      · simpa [OrderedDict.keys] using hnodup

theorem decodePropsLoop_done (buf : Bytes) (stop : Nat) (d : PropDict) :
    decodePropsLoop buf stop stop d = .ok d := by
  rw [decodePropsLoop]
  simp

/-- **Property block round trip.**  A block built from distinct fields and user
properties decodes to the stored form of its dictionary, and the decoder
consumes exactly the block. -/
theorem decodePropsBlock_encode {buf bytes rest : Bytes} {off : Nat} (fields : PropDict)
    (kvs : List (Str × Str))
    (hwire : ∀ pid ∈ OrderedDict.keys fields, pid.wireType ≠ .userProperty)
    (hnodup : (OrderedDict.keys fields).Nodup)
    (h : encodePropsBlock (fields ++ up kvs) = .ok bytes)
    (hbuf : buf.drop off = bytes ++ rest) :
    decodePropsBlock buf off = .ok (wireDict (fields ++ up kvs), bytes.length) := by
  by_cases hempty : fields ++ up kvs = []
  · rw [encodePropsBlock, if_pos hempty] at h
    obtain ⟨hvar, -⟩ := decodeVarint_encodeVarint h hbuf
    unfold decodePropsBlock
    rw [hvar, ok_bind]
    simp only [Int.toNat_zero, Nat.add_zero]
    rw [decodePropsLoop_done, ok_bind, hempty]
    rfl
  · rw [encodePropsBlock, if_neg hempty] at h
    obtain ⟨raw, hraw, h⟩ := bind_eq_ok.mp h
    obtain ⟨length, hlength, h⟩ := bind_eq_ok.mp h
    cases h
    rw [List.append_assoc] at hbuf
    obtain ⟨hvar, -⟩ := decodeVarint_encodeVarint hlength hbuf
    have hwin := drop_after hbuf
    obtain ⟨left, right, hleft, hright, rfl⟩ := encodeProps_append _ _ hraw
    rw [List.append_assoc] at hwin
    have hkeys : PropertyID.userProperty ∉ OrderedDict.keys (wireDict fields) := by
      rw [keys_wireDict]
      exact fun hmem => hwire _ hmem rfl
    have hup : encodeUserProperties .userProperty kvs = .ok right := by
      by_cases hk : kvs = []
      · subst hk
        exact hright
      · simp only [up, hk, if_false] at hright
        obtain ⟨head, hhead, hright⟩ := bind_eq_ok.mp hright
        cases hright
        rw [List.append_nil]
        exact hhead
    simp only [Int.toNat_natCast, List.length_append] at hvar
    unfold decodePropsBlock
    rw [hvar, ok_bind]
    simp only
    rw [loop_fields fields [] left (right ++ rest) (off + length.length) hwire
      (by simpa using hnodup) hleft hwin (by omega)]
    have huser := loop_userProperties buf
      (off + length.length + (left.length + right.length)) hkeys kvs [] right rest
      (off + length.length + left.length) hup (drop_after hwin) (by omega)
    have hup0 : wireDict fields ++ up [] = wireDict fields := by simp [up]
    rw [hup0] at huser
    rw [List.nil_append, huser, List.nil_append, Nat.add_assoc (off + length.length),
      decodePropsLoop_done, ok_bind, wireDict_append]
    rw [wireDict_up]
    simp only [List.length_append]
    rfl

/-! ## The property classes -/

variable {P : Type}

/-- A property class whose listed fields are distinct, are not the user
property, and are read back from the stored dictionary. -/
structure PropertySet.Lawful (S : PropertySet P) : Prop where
  nodup : ∀ props, (OrderedDict.keys (S.fields props)).Nodup
  wire : ∀ props, ∀ pid ∈ OrderedDict.keys (S.fields props), pid.wireType ≠ .userProperty
  ofDict_toDict : ∀ props, S.ofDict (wireDict (S.toDict props)) = props

/-- An object with every field `None` and no user property. -/
def PropertySet.isEmpty (S : PropertySet P) (props : P) : Bool :=
  (S.fields props).all (fun field => field.2.isNone) && (S.userProperties props).isEmpty

/-- A properties object after a round trip: an empty one becomes `None`. -/
def PropertySet.norm (S : PropertySet P) (props : Option P) : Option P :=
  props.filter fun props => !S.isEmpty props

theorem keys_presentFields_sublist (fields : List (PropertyID × Option PropValue)) :
    (OrderedDict.keys (presentFields fields)).Sublist (OrderedDict.keys fields) := by
  induction fields with
  | nil => exact List.Sublist.refl _
  | cons field fields ih =>
      obtain ⟨pid, value⟩ := field
      cases value with
      | none => exact List.Sublist.cons _ ih
      | some value => exact List.Sublist.cons_cons _ ih

theorem presentFields_eq_nil_iff (fields : List (PropertyID × Option PropValue)) :
    presentFields fields = [] ↔ fields.all (fun field => field.2.isNone) = true := by
  induction fields with
  | nil => simp [presentFields]
  | cons field fields ih =>
      obtain ⟨pid, value⟩ := field
      cases value with
      | none => simp [presentFields]
      | some value => simp [presentFields]

theorem up_eq_nil_iff (kvs : List (Str × Str)) : up kvs = [] ↔ kvs = [] := by
  unfold up
  split <;> simp_all

theorem toDict_eq_nil_iff (S : PropertySet P) (props : P) :
    S.toDict props = [] ↔ S.isEmpty props = true := by
  simp [PropertySet.toDict, PropertySet.isEmpty, presentFields_eq_nil_iff, up_eq_nil_iff]

/-- A listed field is found in the stored dictionary. -/
theorem get_presentFields {fields : List (PropertyID × Option PropValue)} {pid : PropertyID}
    {value : Option PropValue} (tail : PropDict) (hnodup : (OrderedDict.keys fields).Nodup)
    (htail : pid ∉ OrderedDict.keys tail)
    (h : OrderedDict.get fields pid = some value) :
    OrderedDict.get (wireDict (presentFields fields ++ tail)) pid = value.map wireValue := by
  induction fields with
  | nil => simp at h
  | cons field fields ih =>
      obtain ⟨k, v⟩ := field
      simp only [OrderedDict.keys, List.map_cons, List.nodup_cons] at hnodup
      by_cases hk : k = pid
      · subst hk
        simp only [OrderedDict.get, if_true, Option.some.injEq] at h
        subst h
        cases v with
        | some v => simp [presentFields, wireDict, OrderedDict.get]
        | none =>
            -- the key is absent from the rest of the fields and from the tail
            have hrest : k ∉ OrderedDict.keys (presentFields fields) := fun hmem =>
              hnodup.1 ((keys_presentFields_sublist fields).subset hmem)
            have hnone : k ∉ OrderedDict.keys (wireDict (presentFields fields ++ tail)) := by
              rw [keys_wireDict]
              simp only [OrderedDict.keys, List.map_append, List.mem_append, not_or]
              exact ⟨hrest, htail⟩
            have hdict : presentFields ((k, none) :: fields) = presentFields fields := rfl
            rw [hdict]
            exact (OrderedDict.get_eq_none_iff _ _).mpr hnone
      · simp only [OrderedDict.get, hk, if_false] at h
        have hrec := ih hnodup.2 h
        cases v with
        | none => exact hrec
        | some v =>
            simp only [presentFields, List.filterMap_cons, Option.map_some, List.cons_append,
              wireDict, List.map_cons, OrderedDict.get_cons, hk, if_false]
            exact hrec

theorem not_mem_keys_up {pid : PropertyID} (hpid : pid ≠ .userProperty)
    (kvs : List (Str × Str)) : pid ∉ OrderedDict.keys (up kvs) := by
  unfold up
  split <;> simp [OrderedDict.keys, hpid]

/-- The listed fields of an object are distinct and not the user property. -/
structure PropertySet.Keyed (S : PropertySet P) (props : P) : Prop where
  nodup : (OrderedDict.keys (S.fields props)).Nodup
  wire : ∀ pid ∈ OrderedDict.keys (S.fields props), pid.wireType ≠ .userProperty

namespace PropertySet.Keyed

variable {S : PropertySet P} {props : P} {pid : PropertyID} (hS : S.Keyed props)

include hS

/-- What the stored dictionary has under the identifier of a listed field. -/
theorem get {value : Option PropValue}
    (h : OrderedDict.get (S.fields props) pid = some value) :
    OrderedDict.get (wireDict (S.toDict props)) pid = value.map wireValue := by
  have hkey : pid ∈ OrderedDict.keys (S.fields props) :=
    (OrderedDict.mem_keys_iff _ _).mpr ⟨value, h⟩
  have hpid : pid ≠ .userProperty := fun heq => hS.wire pid hkey (heq ▸ rfl)
  exact get_presentFields _ hS.nodup (not_mem_keys_up hpid _) h

theorem int {x : Option Int} (h : OrderedDict.get (S.fields props) pid = some (x.map .int)) :
    getInt (wireDict (S.toDict props)) pid = x := by
  unfold getInt
  rw [hS.get h]
  cases x <;> rfl

theorem bool {x : Option Bool} (h : OrderedDict.get (S.fields props) pid = some (x.map .bool)) :
    getBool (wireDict (S.toDict props)) pid = x := by
  unfold getBool
  rw [hS.get h]
  cases x with
  | none => rfl
  | some b => cases b <;> rfl

theorem str {x : Option Str} (h : OrderedDict.get (S.fields props) pid = some (x.map .str)) :
    getStr (wireDict (S.toDict props)) pid = x := by
  unfold getStr
  rw [hS.get h]
  cases x <;> rfl

theorem bytes {x : Option Bytes}
    (h : OrderedDict.get (S.fields props) pid = some (x.map .bytes)) :
    getBytes (wireDict (S.toDict props)) pid = x := by
  unfold getBytes
  rw [hS.get h]
  cases x <;> rfl

/-- The user properties come back as they are. -/
theorem pairs : userPairs (wireDict (S.toDict props)) = S.userProperties props := by
  rw [PropertySet.toDict, wireDict_append, wireDict_up]
  apply userPairs_append_up
  rw [keys_wireDict]
  exact fun hmem => hS.wire _ ((keys_presentFields_sublist _).subset hmem) rfl

end PropertySet.Keyed

/-- A class is lawful if the keys of its empty object are, all objects have them, and the
dictionary is read field by field. -/
theorem PropertySet.Lawful.of_keys {S : PropertySet P} (empty : P)
    (hkeys : ∀ props, OrderedDict.keys (S.fields props) = OrderedDict.keys (S.fields empty))
    (hempty : S.Keyed empty)
    (hread : ∀ props, S.Keyed props → S.ofDict (wireDict (S.toDict props)) = props) :
    S.Lawful := by
  have hkeyed : ∀ props, S.Keyed props := by
    intro props
    refine ⟨?_, ?_⟩
    · rw [hkeys]
      exact hempty.nodup
    · rw [hkeys]
      exact hempty.wire
  exact ⟨fun props => (hkeyed props).nodup, fun props => (hkeyed props).wire,
    fun props => hread props (hkeyed props)⟩

theorem connectSet_lawful : connectSet.Lawful :=
  .of_keys {} (fun _ => rfl) ⟨by decide, by decide⟩ fun _ h =>
    ConnectProperties.ext (h.int rfl) (h.int rfl) (h.int rfl) (h.int rfl) (h.bool rfl) (h.bool rfl)
      (h.str rfl) (h.bytes rfl) h.pairs

theorem willSet_lawful : willSet.Lawful :=
  .of_keys {} (fun _ => rfl) ⟨by decide, by decide⟩ fun _ h =>
    WillProperties.ext (h.int rfl) (h.int rfl) (h.int rfl) (h.str rfl) (h.str rfl) (h.bytes rfl)
      h.pairs

theorem connAckSet_lawful : connAckSet.Lawful :=
  .of_keys {} (fun _ => rfl) ⟨by decide, by decide⟩ fun _ h =>
    ConnAckProperties.ext (h.int rfl) (h.int rfl) (h.int rfl) (h.bool rfl) (h.int rfl) (h.str rfl)
      (h.int rfl) (h.str rfl) (h.bool rfl) (h.bool rfl) (h.bool rfl) (h.int rfl) (h.str rfl)
      (h.str rfl) (h.str rfl) (h.bytes rfl) h.pairs

theorem publishSet_lawful : publishSet.Lawful :=
  .of_keys {} (fun _ => rfl) ⟨by decide, by decide⟩ fun _ h =>
    PublishProperties.ext (h.int rfl) (h.int rfl) (h.int rfl) (h.str rfl) (h.bytes rfl) (h.int rfl)
      (h.str rfl) h.pairs

theorem pubAckSet_lawful : pubAckSet.Lawful :=
  .of_keys {} (fun _ => rfl) ⟨by decide, by decide⟩ fun _ h =>
    PubAckProperties.ext (h.str rfl) h.pairs

theorem subscribeSet_lawful : subscribeSet.Lawful :=
  .of_keys {} (fun _ => rfl) ⟨by decide, by decide⟩ fun _ h =>
    SubscribeProperties.ext (h.int rfl) h.pairs

theorem subAckSet_lawful : subAckSet.Lawful :=
  .of_keys {} (fun _ => rfl) ⟨by decide, by decide⟩ fun _ h =>
    SubAckProperties.ext (h.str rfl) h.pairs

theorem unsubscribeSet_lawful : unsubscribeSet.Lawful :=
  .of_keys {} (fun _ => rfl) ⟨by decide, by decide⟩ fun _ h =>
    UnsubscribeProperties.ext h.pairs

theorem unsubAckSet_lawful : unsubAckSet.Lawful :=
  .of_keys {} (fun _ => rfl) ⟨by decide, by decide⟩ fun _ h =>
    UnsubAckProperties.ext (h.str rfl) h.pairs

theorem disconnectSet_lawful : disconnectSet.Lawful :=
  .of_keys {} (fun _ => rfl) ⟨by decide, by decide⟩ fun _ h =>
    DisconnectProperties.ext (h.int rfl) (h.str rfl) (h.str rfl) h.pairs

theorem authSet_lawful : authSet.Lawful :=
  .of_keys {} (fun _ => rfl) ⟨by decide, by decide⟩ fun _ h =>
    AuthProperties.ext (h.str rfl) (h.bytes rfl) (h.str rfl) h.pairs

/-- **Properties round trip.**  The encoded properties of a lawful class decode to
the same object, an empty one to `None`, and exactly its bytes are consumed. -/
theorem decodeProperties_encode {S : PropertySet P} (hS : S.Lawful) {buf bytes rest : Bytes}
    {off : Nat} {props : Option P} (h : encodeProperties S props = .ok bytes)
    (hbuf : buf.drop off = bytes ++ rest) :
    decodeProperties S buf off = .ok (S.norm props, bytes.length) := by
  cases props with
  | none =>
      have hblock : encodePropsBlock ([] ++ up []) = .ok bytes := h
      have hdec := decodePropsBlock_encode [] [] (by simp [OrderedDict.keys])
        (by simp [OrderedDict.keys]) hblock hbuf
      unfold decodeProperties
      rw [hdec, ok_bind]
      rfl
  | some props =>
      have hsub := keys_presentFields_sublist (S.fields props)
      have hdec := decodePropsBlock_encode (presentFields (S.fields props))
        (S.userProperties props) (fun pid hpid => hS.wire props pid (hsub.subset hpid))
        (hsub.nodup (hS.nodup props)) h hbuf
      have hdict : presentFields (S.fields props) ++ up (S.userProperties props) =
          S.toDict props := rfl
      rw [hdict] at hdec
      have hnil : wireDict (S.toDict props) = [] ↔ S.isEmpty props = true := by
        rw [← toDict_eq_nil_iff]
        simp [wireDict]
      unfold decodeProperties
      rw [hdec, ok_bind]
      by_cases hempty : S.isEmpty props = true
      · simp only [hnil.mpr hempty, if_true, PropertySet.norm, Option.filter_some, hempty]
        rfl
      · simp only [mt hnil.mp hempty, if_false, PropertySet.norm, Option.filter_some, hempty,
          hS.ofDict_toDict props]
        rfl

end Zmqtt
