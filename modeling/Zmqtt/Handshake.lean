import Zmqtt.Protocol

/-!
# The QoS 2 handshake of a record

PUBLISH, PUBREC, PUBREL, PUBCOMP: what a run shows of one packet identifier is read by
an automaton over the record.  `handshake k log` is its state; a PUBREC, a PUBREL or a
PUBCOMP out of order leads to `violated`.

The state of the automaton tells what the record looks like.  In particular a completed
flight has, after its PUBLISH, an accepting PUBREC, one PUBREL and its PUBCOMP, and
nothing else of its identifier in between.
-/

namespace Zmqtt

/-! ## The automaton -/

/-- Where the QoS 2 publish under an identifier is, with the number of its flight.
`unsent` is a flight whose PUBLISH was not written when it was acknowledged. -/
inductive Handshake
  | free
  | opened (flight : Nat)
  | sent (flight : Nat)
  | received (flight : Nat)
  | released (flight : Nat)
  | completed (flight : Nat) (ack : PubReply)
  | rejected (flight : Nat) (reasonCode : Int)
  | unsent (flight : Nat)
  | violated
deriving DecidableEq

namespace Handshake

/-- The PUBLISH is written. -/
def publish : Handshake → Handshake
  | .opened flight => .sent flight
  | now => now

/-- A PUBREC is handled: the publish is refused, or its PUBREL comes next. -/
def pubrec (reasonCode : Int) : Handshake → Handshake
  | .sent flight => if reasonCode ≥ 0x80 then .rejected flight reasonCode else .received flight
  | .opened flight => .unsent flight
  | .unsent flight => .unsent flight
  | _ => .violated

/-- The PUBREL is written. -/
def pubrel : Handshake → Handshake
  | .received flight => .released flight
  | .unsent flight => .unsent flight
  | _ => .violated

/-- A PUBCOMP is handled. -/
def pubcomp (ack : PubReply) : Handshake → Handshake
  | .released flight => .completed flight ack
  | .opened flight => .unsent flight
  | .unsent flight => .unsent flight
  | _ => .violated

end Handshake

/-- The handshake of the identifier `k` after one more event; `count` flights were
started before. -/
def Event.handshake (k count : Nat) (now : Handshake) : Event → Handshake
  | .acquired acquirer pid =>
      if pid = k then if acquirer = .publish .exactlyOnce then .opened count else .free else now
  | .wrote (.publish packet) => if packet.packetId = some (k : Int) then now.publish else now
  | .wrote (.pubrel packet) => if packet.packetId = k then now.pubrel else now
  | .handled (.pubrec packet) =>
      if packet.packetId = k then now.pubrec packet.reasonCode else now
  | .handled (.pubcomp packet) => if packet.packetId = k then now.pubcomp packet else now
  | _ => now

/-- The flight an event starts: its QoS and identifier. -/
def Event.flight : Event → Option (QoS × Nat)
  | .acquired (.publish qos) pid => some (qos, pid)
  | _ => none

/-- The flights of a run, in the order of their futures. -/
def flights (log : List Event) : List (QoS × Nat) := log.filterMap Event.flight

/-- The state of the automaton, with the number of flights. -/
def Event.scan (k : Nat) (acc : Nat × Handshake) (event : Event) : Nat × Handshake :=
  (acc.1 + event.flight.toList.length, event.handshake k acc.1 acc.2)

/-- The handshake of the identifier `k` as a run shows it. -/
def handshake (k : Nat) (log : List Event) : Handshake :=
  (log.foldl (Event.scan k) (0, .free)).2

theorem scan_count (k : Nat) (log : List Event) :
    (log.foldl (Event.scan k) (0, .free)).1 = (flights log).length := by
  induction log using List.reverseRecOn with
  | nil => rfl
  | append_singleton log event ih =>
      rw [List.foldl_append, flights, List.filterMap_append, List.length_append]
      show (log.foldl (Event.scan k) (0, .free)).1 + event.flight.toList.length = _
      rw [ih, flights]
      cases hflight : event.flight <;> simp [hflight]

theorem handshake_append (k : Nat) (log : List Event) (event : Event) :
    handshake k (log ++ [event]) =
      event.handshake k (flights log).length (handshake k log) := by
  rw [← scan_count k log, handshake, List.foldl_append]
  rfl

theorem flights_append (log : List Event) (event : Event) :
    flights (log ++ [event]) = flights log ++ event.flight.toList := by
  rw [flights, List.filterMap_append]
  cases hflight : event.flight <;> simp [flights, hflight]

/-- A flight of a shorter record. -/
theorem flights_mono {log log' : List Event} (h : log <+: log') {i : Nat} {item : QoS × Nat}
    (hitem : (flights log)[i]? = some item) : (flights log')[i]? = some item := by
  obtain ⟨more, rfl⟩ := h
  rw [flights, List.filterMap_append, List.getElem?_append_left]
  · exact hitem
  · exact (List.getElem?_eq_some_iff.mp hitem).1

/-! ### Once sent, never unsent -/

/-- The states a flight is in before and after its PUBLISH is written are entered from
its first state only, and that one when the flight starts. -/
theorem Event.handshake_back (k f count : Nat) (now : Handshake) (event : Event) :
    (event.handshake k count now = .opened f →
        now = .opened f ∨ (f = count ∧ event.flight.isSome = true)) ∧
      (event.handshake k count now = .sent f → now = .sent f ∨ now = .opened f) ∧
      (event.handshake k count now = .unsent f → now = .unsent f ∨ now = .opened f) := by
  have hstay : (now = .opened f → now = .opened f ∨ (f = count ∧ event.flight.isSome = true)) ∧
      (now = .sent f → now = .sent f ∨ now = .opened f) ∧
      (now = .unsent f → now = .unsent f ∨ now = .opened f) := ⟨Or.inl, Or.inl, Or.inl⟩
  unfold Event.handshake
  split
  · split
    · split
      · next hacquirer =>
          refine ⟨fun heq => Or.inr ⟨(Handshake.opened.inj heq).symm, ?_⟩, by simp, by simp⟩
          rw [hacquirer]
          rfl
      · simp
    · exact hstay
  · split
    · cases now <;> simp [Handshake.publish]
    · exact hstay
  · split
    · cases now <;> simp [Handshake.pubrel]
    · exact hstay
  · split
    · cases now with
      | sent flight =>
          simp only [Handshake.pubrec]
          split <;> simp
      | _ => simp [Handshake.pubrec]
    · exact hstay
  · split
    · cases now <;> simp [Handshake.pubcomp]
    · exact hstay
  · exact hstay

/-- A flight that has left its first state does not come back to it, so neither to a
state that is entered from there. -/
theorem handshake_keeps {k f : Nat} {log : List Event} (hlt : f < (flights log).length)
    (hopened : handshake k log ≠ .opened f) (more : List Event) :
    handshake k (log ++ more) ≠ .opened f ∧
      (handshake k log ≠ .sent f → handshake k (log ++ more) ≠ .sent f) ∧
      (handshake k log ≠ .unsent f → handshake k (log ++ more) ≠ .unsent f) := by
  induction more using List.reverseRecOn with
  | nil => simp [hopened]
  | append_singleton more event ih =>
      have hcount : f < (flights (log ++ more)).length := by
        rw [flights, List.filterMap_append, List.length_append]
        exact Nat.lt_of_lt_of_le hlt (Nat.le_add_right _ _)
      obtain ⟨hback, hsent, hunsent⟩ := event.handshake_back k f (flights (log ++ more)).length
        (handshake k (log ++ more))
      rw [← List.append_assoc, handshake_append]
      refine ⟨fun heq => ?_, fun hne heq => ?_, fun hne heq => ?_⟩
      · exact (hback heq).elim ih.1 fun h => Nat.ne_of_lt hcount h.1
      · exact (hsent heq).elim (ih.2.1 hne) ih.1
      · exact (hunsent heq).elim (ih.2.2 hne) ih.1

/-- The flight of a state has started. -/
theorem flight_lt {k f : Nat} {log : List Event}
    (h : handshake k log = .opened f ∨ handshake k log = .sent f ∨ handshake k log = .unsent f) :
    f < (flights log).length := by
  induction log using List.reverseRecOn with
  | nil => simp [handshake] at h
  | append_singleton log event ih =>
      obtain ⟨hback, hsent, hunsent⟩ := event.handshake_back k f (flights log).length
        (handshake k log)
      rw [handshake_append] at h
      rw [flights_append, List.length_append]
      have hold : (handshake k log = .opened f ∨ handshake k log = .sent f ∨
          handshake k log = .unsent f) →
          f < (flights log).length + event.flight.toList.length :=
        fun h => Nat.lt_of_lt_of_le (ih h) (Nat.le_add_right _ _)
      rcases h with h | h | h
      · rcases hback h with h | ⟨rfl, hflight⟩
        · exact hold (Or.inl h)
        · obtain ⟨item, hitem⟩ := Option.isSome_iff_exists.mp hflight
          rw [hitem]
          exact Nat.lt_succ_self _
      · exact hold ((hsent h).elim (fun h => Or.inr (Or.inl h)) Or.inl)
      · exact hold ((hunsent h).elim (fun h => Or.inr (Or.inr h)) Or.inl)

/-- A flight whose PUBLISH was written is never one whose PUBLISH was not. -/
theorem not_unsent_of_sent {k f : Nat} {log sent other : List Event} (hsent : sent <+: log)
    (hother : other <+: log) (hstate : handshake k sent = .sent f) :
    handshake k other ≠ .unsent f := by
  intro hunsent
  rcases List.prefix_or_prefix_of_prefix hsent hother with ⟨more, rfl⟩ | ⟨more, rfl⟩
  · exact (handshake_keeps (flight_lt (Or.inr (Or.inl hstate))) (by simp [hstate]) more).2.2
      (by simp [hstate]) hunsent
  · exact (handshake_keeps (flight_lt (Or.inr (Or.inr hunsent))) (by simp [hunsent]) more).2.1
      (by simp [hunsent]) hstate

/-! ## What the record looks like -/

/-- The events that move the handshake of `k` once its PUBLISH is written. -/
def Event.concerns (k : Nat) : Event → Bool
  | .acquired _ pid => pid = k
  | .wrote (.pubrel packet) => packet.packetId = k
  | .handled (.pubrec packet) => packet.packetId = k
  | .handled (.pubcomp packet) => packet.packetId = k
  | _ => false

theorem Event.not_concerns {k : Nat} {event : Event}
    (hacquired : ∀ acquirer pid, event = .acquired acquirer pid → False)
    (hpubrel : ∀ packet, event = .wrote (.pubrel packet) → False)
    (hpubrec : ∀ packet, event = .handled (.pubrec packet) → False)
    (hpubcomp : ∀ packet, event = .handled (.pubcomp packet) → False) :
    event.concerns k = false := by
  unfold Event.concerns
  split
  · next acquirer pid => exact (hacquired acquirer pid rfl).elim
  · next packet => exact (hpubrel packet rfl).elim
  · next packet => exact (hpubrec packet rfl).elim
  · next packet => exact (hpubcomp packet rfl).elim
  · rfl

/-- The record ends with such an event and what does not concern `k`; `before` is said of
the record up to the event. -/
def EndsWith (k : Nat) (event : Event → Prop) (before : List Event → Prop)
    (log : List Event) : Prop :=
  ∃ earlier last quiet, log = earlier ++ last :: quiet ∧ event last ∧ before earlier ∧
    ∀ other ∈ quiet, other.concerns k = false

/-- The flight `f` was started under the identifier `k`. -/
def Opened (k f : Nat) : List Event → Prop :=
  EndsWith k (fun event => event = .acquired (.publish .exactlyOnce) k)
    fun log => (flights log).length = f

/-- Its PUBLISH was written. -/
def Sent (k f : Nat) : List Event → Prop :=
  EndsWith k (fun event => ∃ packet : Publish, event = .wrote (.publish packet) ∧
    packet.packetId = some (k : Int)) (Opened k f)

/-- Then a PUBREC was handled that accepts it. -/
def Accepted (k f : Nat) : List Event → Prop :=
  EndsWith k (fun event => ∃ packet : PubReply, event = .handled (.pubrec packet) ∧
    packet.packetId = k ∧ packet.reasonCode < 0x80) (Sent k f)

/-- Then its PUBREL was written. -/
def Released (k f : Nat) : List Event → Prop :=
  EndsWith k (fun event => ∃ packet : PubReply, event = .wrote (.pubrel packet) ∧
    packet.packetId = k) (Accepted k f)

/-- Then its PUBCOMP was handled. -/
def Completed (k f : Nat) (ack : PubReply) : List Event → Prop :=
  EndsWith k (fun event => event = .handled (.pubcomp ack) ∧ ack.packetId = k) (Released k f)

/-- After its PUBLISH, a PUBREC was handled that refuses it. -/
def Rejected (k f : Nat) (code : Int) : List Event → Prop :=
  EndsWith k (fun event => ∃ packet : PubReply, event = .handled (.pubrec packet) ∧
    packet.packetId = k ∧ packet.reasonCode = code ∧ code ≥ 0x80) (Sent k f)

/-- What the record has of a flight in such a state. -/
def Handshake.Shows (k : Nat) : Handshake → List Event → Prop
  | .opened f => Opened k f
  | .sent f => Sent k f
  | .received f => Accepted k f
  | .released f => Released k f
  | .completed f ack => Completed k f ack
  | .rejected f code => Rejected k f code
  | _ => fun _ => True

/-- One more event that does not concern `k`. -/
theorem EndsWith.append {k : Nat} {event : Event → Prop} {before : List Event → Prop}
    {log : List Event} (h : EndsWith k event before log) {other : Event}
    (hother : other.concerns k = false) : EndsWith k event before (log ++ [other]) := by
  obtain ⟨earlier, last, quiet, rfl, hlast, hbefore, hquiet⟩ := h
  refine ⟨earlier, last, quiet ++ [other], by simp, hlast, hbefore, fun e he => ?_⟩
  rcases List.mem_append.mp he with he | he
  · exact hquiet e he
  · exact List.mem_singleton.mp he ▸ hother

theorem EndsWith.last {k : Nat} {event : Event → Prop} {before : List Event → Prop}
    {log : List Event} {last : Event} (hlast : event last) (hbefore : before log) :
    EndsWith k event before (log ++ [last]) :=
  ⟨log, last, [], rfl, hlast, hbefore, fun _ h => absurd h List.not_mem_nil⟩

theorem Handshake.Shows.append {k : Nat} {now : Handshake} {log : List Event}
    (h : now.Shows k log) {other : Event} (hother : other.concerns k = false) :
    now.Shows k (log ++ [other]) := by
  cases now with
  | opened f => exact EndsWith.append h hother
  | sent f => exact EndsWith.append h hother
  | received f => exact EndsWith.append h hother
  | released f => exact EndsWith.append h hother
  | completed f ack => exact EndsWith.append h hother
  | rejected f code => exact EndsWith.append h hother
  | free => trivial
  | unsent f => trivial
  | violated => trivial

/-- **Step.**  The automaton says what the record looks like. -/
theorem Handshake.Shows.step {k : Nat} {now : Handshake} {log : List Event}
    (h : now.Shows k log) (event : Event) :
    (event.handshake k (flights log).length now).Shows k (log ++ [event]) := by
  have hstay : event.concerns k = false → now.Shows k (log ++ [event]) := h.append
  unfold Event.handshake
  split
  · next acquirer pid =>
      split
      · next hpid =>
          split
          · next hacquirer =>
              subst hpid hacquirer
              exact EndsWith.last rfl rfl
          · trivial
      · next hpid => exact hstay (by simpa [Event.concerns] using hpid)
  · next packet =>
      split
      · next hid =>
          cases now with
          | opened f => exact EndsWith.last ⟨packet, rfl, hid⟩ h
          | _ => exact hstay rfl
      · exact hstay rfl
  · next packet =>
      split
      · next hid =>
          cases now with
          | received f => exact EndsWith.last ⟨packet, rfl, hid⟩ h
          | _ => trivial
      · next hid => exact hstay (by simpa [Event.concerns] using hid)
  · next packet =>
      split
      · next hid =>
          cases now with
          | sent f =>
              simp only [Handshake.pubrec]
              split
              · next hcode => exact EndsWith.last ⟨packet, rfl, hid, rfl, hcode⟩ h
              · next hcode => exact EndsWith.last ⟨packet, rfl, hid, not_le.mp hcode⟩ h
          | _ => trivial
      · next hid => exact hstay (by simpa [Event.concerns] using hid)
  · next packet =>
      split
      · next hid =>
          cases now with
          | released f => exact EndsWith.last ⟨rfl, hid⟩ h
          | _ => trivial
      · next hid => exact hstay (by simpa [Event.concerns] using hid)
  · next hacquired hpublish hpubrel hpubrec hpubcomp =>
      exact hstay (Event.not_concerns hacquired hpubrel hpubrec hpubcomp)

/-- **Run.**  What a record looks like is told by the state of the automaton. -/
theorem handshake_shows (k : Nat) (log : List Event) : (handshake k log).Shows k log := by
  induction log using List.reverseRecOn with
  | nil => trivial
  | append_singleton log event ih =>
      rw [handshake_append]
      exact ih.step event

/-- The record is `shown`, and then nothing that concerns `k` until `k` is acquired
again. -/
def UntilReuse (k : Nat) (shown : List Event → Prop) (log : List Event) : Prop :=
  ∃ before rest, log = before ++ rest ∧ shown before ∧
    (rest = [] ∨ ∃ acquirer more, rest = .acquired acquirer k :: more)

/-- A flight that has ended. -/
def Handshake.isClosed : Handshake → Bool
  | .completed _ _ => true
  | .rejected _ _ => true
  | _ => false

theorem Handshake.closed_moves {now : Handshake} (hclosed : now.isClosed = true) :
    now.publish = now ∧ (∀ code, now.pubrec code = .violated) ∧ now.pubrel = .violated ∧
      ∀ ack, now.pubcomp ack = .violated := by
  cases now with
  | completed f ack => exact ⟨rfl, fun _ => rfl, rfl, fun _ => rfl⟩
  | rejected f code => exact ⟨rfl, fun _ => rfl, rfl, fun _ => rfl⟩
  | _ => cases hclosed

/-- After the end of a flight, any further packet of its handshake is out of order. -/
theorem Event.handshake_closed (k count : Nat) {now : Handshake} (hclosed : now.isClosed = true)
    (event : Event) :
    (event.concerns k = false ∧ event.handshake k count now = now) ∨
      event.handshake k count now = .violated ∨ ∃ acquirer, event = .acquired acquirer k := by
  obtain ⟨hpublish, hpubrec, hpubrel, hpubcomp⟩ := Handshake.closed_moves hclosed
  unfold Event.handshake
  split
  · next acquirer pid =>
      by_cases hpid : pid = k
      · exact Or.inr (Or.inr ⟨acquirer, by rw [hpid]⟩)
      · exact Or.inl ⟨by simpa [Event.concerns] using hpid, if_neg hpid⟩
  · refine Or.inl ⟨rfl, ?_⟩
    rw [hpublish, ite_self]
  · next packet =>
      by_cases hid : packet.packetId = k
      · rw [if_pos hid]
        exact Or.inr (Or.inl hpubrel)
      · exact Or.inl ⟨by simpa [Event.concerns] using hid, if_neg hid⟩
  · next packet =>
      by_cases hid : packet.packetId = k
      · rw [if_pos hid]
        exact Or.inr (Or.inl (hpubrec _))
      · exact Or.inl ⟨by simpa [Event.concerns] using hid, if_neg hid⟩
  · next packet =>
      by_cases hid : packet.packetId = k
      · rw [if_pos hid]
        exact Or.inr (Or.inl (hpubcomp _))
      · exact Or.inl ⟨by simpa [Event.concerns] using hid, if_neg hid⟩
  · next hacquired hpublish hpubrel hpubrec hpubcomp =>
      exact Or.inl ⟨Event.not_concerns hacquired hpubrel hpubrec hpubcomp, rfl⟩

/-- A flight that has ended, in a record without a packet out of order. -/
theorem handshake_untilReuse {k : Nat} {log : List Event} {now : Handshake}
    (hclosed : now.isClosed = true) (hnow : handshake k log = now) (more : List Event)
    (hsound : ∀ earlier, earlier <+: log ++ more → handshake k earlier ≠ .violated) :
    UntilReuse k (now.Shows k) (log ++ more) := by
  induction more generalizing log with
  | nil => exact ⟨log, [], rfl, hnow ▸ handshake_shows k log, Or.inl rfl⟩
  | cons event more ih =>
      rw [List.append_cons] at hsound ⊢
      have hstep := handshake_append k log event
      rw [hnow] at hstep
      rcases Event.handshake_closed k (flights log).length hclosed event with
        ⟨-, hsame⟩ | hviolated | ⟨acquirer, rfl⟩
      · exact ih (hstep.trans hsame) hsound
      · exact absurd (hstep.trans hviolated) (hsound _ ⟨more, rfl⟩)
      · refine ⟨log, .acquired acquirer k :: more, by simp, hnow ▸ handshake_shows k log, ?_⟩
        exact Or.inr ⟨acquirer, more, rfl⟩

end Zmqtt
