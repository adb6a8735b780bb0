import Mathlib.Data.List.Basic

/-!
# Frames cut out of a stream

A frame decoder looks at the front of a buffer and answers with a frame and its
size, asks for more bytes, or fails.  If more bytes never change an answer that
was already given, the frames a stream contains do not depend on how the stream
arrives.

`Consumed D s frames rest` records a partial parse of `s`.  It can be extended by
one frame at its end and by bytes behind `rest`, which is all an incremental
reader ever does; `Consumed.parse_eq` then compares it with the parse of the
whole stream.
-/

namespace Framing

variable {β α ε : Type}

/-- A decoder of the frame at the front of a buffer, with its answer stable under
more input and every frame nonempty. -/
structure FrameDecoder (β α ε : Type) where
  decode : List β → Except ε (Option (α × Nat))
  consumes : ∀ {s a n}, decode s = .ok (some (a, n)) → 0 < n ∧ n ≤ s.length
  stable : ∀ {s}, decode s ≠ .ok none → ∀ t, decode (s ++ t) = decode s

namespace FrameDecoder

variable (D : FrameDecoder β α ε)

/-- Decode from the start of `s` until the decoder asks for more bytes or fails:
the frames, each with its own bytes, and the failure if there is one. -/
@[semireducible]
def parse (s : List β) : List (α × List β) × Option ε :=
  match h : D.decode s with
  | .error e => ([], some e)
  | .ok none => ([], none)
  | .ok (some (a, n)) =>
      have _size := D.consumes h
      let rest := parse (s.drop n)
      ((a, s.take n) :: rest.1, rest.2)
termination_by s.length
decreasing_by
  rw [List.length_drop]
  omega

variable {D} {s t r : List β} {a : α} {n : Nat} {frames : List (α × List β)}

theorem parse_of_some (h : D.decode s = .ok (some (a, n))) :
    D.parse s = ((a, s.take n) :: (D.parse (s.drop n)).1, (D.parse (s.drop n)).2) := by
  rw [parse]
  split
  · simp_all
  · simp_all
  · simp_all

theorem parse_of_none (h : D.decode s = .ok none) : D.parse s = ([], none) := by
  rw [parse]
  split
  · simp_all
  · rfl
  · simp_all

theorem parse_of_error {e : ε} (h : D.decode s = .error e) : D.parse s = ([], some e) := by
  rw [parse]
  split
  · simp_all
  · simp_all
  · simp_all

/-- `frames` were cut off the front of `s`, one after the other, and `rest` is
what is left of it. -/
inductive Consumed (D : FrameDecoder β α ε) (s : List β) :
    List (α × List β) → List β → Prop
  | start : Consumed D s [] s
  | frame {r : List β} {frames : List (α × List β)} {a : α} {n : Nat}
      (before : Consumed D s frames r) (h : D.decode r = .ok (some (a, n))) :
      Consumed D s (frames ++ [(a, r.take n)]) (r.drop n)

/-- Nothing is lost: the stream is the bytes of the frames and the rest. -/
theorem Consumed.bytes_eq (h : Consumed D s frames r) :
    s = (frames.map Prod.snd).flatten ++ r := by
  induction h with
  | start => rfl
  | frame before hdec ih =>
      rw [ih]
      simp

/-- More bytes at the end of the stream stand behind the rest. -/
theorem Consumed.append (h : Consumed D s frames r) (t : List β) :
    Consumed D (s ++ t) frames (r ++ t) := by
  induction h with
  | start => exact .start
  | @frame r frames a n before hdec ih =>
      have hlen := (D.consumes hdec).2
      have hdec' : D.decode (r ++ t) = .ok (some (a, n)) := by
        rw [D.stable (by simp [hdec]), hdec]
      have hnext := Consumed.frame ih hdec'
      rwa [List.take_append_of_le_length hlen, List.drop_append_of_le_length hlen] at hnext

/-- **A partial parse is a beginning of the whole one.**  The parse of the stream
continues where the partial one stands. -/
theorem Consumed.parse_eq (h : Consumed D s frames r) :
    D.parse s = (frames ++ (D.parse r).1, (D.parse r).2) := by
  induction h with
  | start => rfl
  | frame before hdec ih => rw [ih, parse_of_some hdec, List.append_assoc, List.singleton_append]

/-- The parse of the rest stops at once where the parse of the stream adds no frame. -/
theorem Consumed.parse_rest {e : Option ε} (h : Consumed D s frames r)
    (hparse : D.parse s = (frames, e)) : D.parse r = ([], e) := by
  rw [h.parse_eq, Prod.mk.injEq] at hparse
  exact Prod.ext (List.append_right_eq_self.mp hparse.1) hparse.2

theorem decode_of_parse_nil (h : D.parse s = ([], none)) : D.decode s = .ok none := by
  cases hdecode : D.decode s with
  | error e =>
      rw [parse_of_error hdecode] at h
      exact absurd (Prod.mk.inj h).2 (by simp)
  | ok result =>
      cases result with
      | none => rfl
      | some result =>
          obtain ⟨a, n⟩ := result
          rw [parse_of_some hdecode] at h
          exact absurd (Prod.mk.inj h).1 (by simp)

/-- Bytes behind a failure do not change it. -/
theorem parse_error_append {e : ε} (h : (D.parse s).2 = some e) (t : List β) :
    (D.parse (s ++ t)).2 = some e := by
  induction s using parse.induct D with
  | case1 s e' hdecode =>
      rw [parse_of_error hdecode] at h
      rw [parse_of_error ((D.stable (by simp [hdecode]) t).trans hdecode)]
      exact h
  | case2 s hdecode =>
      rw [parse_of_none hdecode] at h
      exact absurd h (by simp)
  | case3 s a n hdecode _ ih =>
      rw [parse_of_some hdecode] at h
      rw [parse_of_some ((D.stable (by simp [hdecode]) t).trans hdecode),
        List.drop_append_of_le_length (D.consumes hdecode).2]
      exact ih h

/-- The frames taken so far begin the parse of every stream the bytes begin. -/
theorem Consumed.prefix_parse (h : Consumed D s frames r) (hst : s <+: t) :
    frames <+: (D.parse t).1 := by
  obtain ⟨more, rfl⟩ := hst
  rw [(h.append more).parse_eq]
  exact List.prefix_append _ _

/-! ## Frames written one after the other -/

/-- The bytes of the frame decode to it, whatever follows. -/
def Encodes (D : FrameDecoder β α ε) (frame : α × List β) : Prop :=
  ∀ rest, D.decode (frame.2 ++ rest) = .ok (some (frame.1, frame.2.length))

/-- How many frames lie within the first `n` elements of their stream. -/
def complete : List (α × List β) → Nat → Nat
  | [], _ => 0
  | frame :: frames, n =>
      if frame.2.length ≤ n then complete frames (n - frame.2.length) + 1 else 0

theorem complete_all (frames : List (α × List β)) :
    complete frames (frames.map Prod.snd).flatten.length = frames.length := by
  induction frames with
  | nil => rfl
  | cons frame frames ih =>
      rw [List.map_cons, List.flatten_cons, List.length_append, complete,
        if_pos (Nat.le_add_right _ _), Nat.add_sub_cancel_left, ih, List.length_cons]

theorem complete_le (frames : List (α × List β)) (n : Nat) :
    complete frames n ≤ frames.length := by
  induction frames generalizing n with
  | nil => exact Nat.le_refl _
  | cons frame frames ih =>
      rw [complete, List.length_cons]
      split
      · exact Nat.succ_le_succ (ih _)
      · exact Nat.zero_le _

/-- A proper beginning of a frame asks for more bytes. -/
theorem Encodes.decode_beginning {frame : α × List β} (h : D.Encodes frame)
    (hs : frame.2 = s ++ t) (ht : t ≠ []) : D.decode s = .ok none := by
  by_contra hdecode
  have hstable := D.stable hdecode t
  have hframe := h []
  rw [List.append_nil] at hframe
  rw [← hs, hframe] at hstable
  have hle := (D.consumes hstable.symm).2
  have hpos := List.length_pos_iff.mpr ht
  rw [hs, List.length_append] at hle
  omega

/-- **The parse of a stream of frames that has arrived in part.**  It yields the frames that
are complete, and never fails. -/
theorem parse_of_prefix (hnil : D.decode [] = .ok none) :
    ∀ {frames : List (α × List β)} {s : List β}, (∀ frame ∈ frames, D.Encodes frame) →
      s <+: (frames.map Prod.snd).flatten →
      D.parse s = (frames.take (complete frames s.length), none) := by
  intro frames
  induction frames with
  | nil =>
      intro s _ hs
      rw [List.prefix_nil.mp hs, parse_of_none hnil]
      rfl
  | cons frame frames ih =>
      intro s hencodes hs
      have hframe := hencodes frame List.mem_cons_self
      rw [List.map_cons, List.flatten_cons] at hs
      by_cases hlength : frame.2.length ≤ s.length
      · -- the first frame is complete
        obtain ⟨rest, rfl⟩ := List.prefix_of_prefix_length_le (List.prefix_append _ _) hs hlength
        have hrest : rest <+: (frames.map Prod.snd).flatten :=
          (List.prefix_append_right_inj _).mp hs
        have htail := ih (fun frame hmem => hencodes frame (List.mem_cons_of_mem _ hmem)) hrest
        rw [parse_of_some (hframe rest), List.drop_left, List.take_left, htail, complete,
          if_pos hlength, List.take_succ_cons, List.length_append, Nat.add_sub_cancel_left]
      · obtain ⟨more, hmore⟩ := List.prefix_of_prefix_length_le hs (List.prefix_append _ _)
          (Nat.le_of_not_le hlength)
        have hne : more ≠ [] := by
          rintro rfl
          rw [List.append_nil] at hmore
          exact hlength (Nat.le_of_eq (congrArg List.length hmore.symm))
        rw [parse_of_none (hframe.decode_beginning hmore.symm hne), complete, if_neg hlength,
          List.take_zero]

end FrameDecoder

end Framing
