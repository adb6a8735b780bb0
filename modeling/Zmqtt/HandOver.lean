import Zmqtt.AckOrder
import Zmqtt.InboundLedger
import Zmqtt.ReplayHeld

/-!
# Hand-over along whole runs

A message is routed at most once as long as no drain is interrupted inside a delivery.
With the ledgers this bounds everything that is done for a message, and with the
places of a message it says which messages are never acknowledged.
-/

namespace Zmqtt

open InboundPublishFlow Tally

variable {P : Nat → List InboundEvent → Prop} {s : InboundPublishFlow} {seq : Nat}

/-- The replay buffer, or a task that drains it, has the message. -/
def Held (s : InboundPublishFlow) (seq : Nat) : Prop := 0 < s.replay.held (weigh seq)

/-- No queue put, no request, no QoS 2 flow and no PUBACK for the message. -/
def Untouched (seq : Nat) (log : List InboundEvent) : Prop :=
  (∀ oid detached, .put seq oid detached ∉ log) ∧ (∀ request, .requestDelivered seq request ∉ log) ∧
    (∀ pid, .accepted seq pid ∉ log) ∧ ∀ pid, .sentPuback seq pid ∉ log

/-! ## A message is routed at most once -/

theorem unit_eq_one (seq : Nat) : unit seq seq = 1 := if_pos rfl

theorem Kept.settled_le_one (h : Kept P s) (seq : Nat) :
    s.replay.held (weigh seq) + tally (settles seq) s.log ≤ 1 := by
  have hbalance := h.places.balance seq
  have harrivals := h.places.arrivals seq
  split at harrivals <;> omega

theorem routes_le_settles (seq : Nat) (log : List InboundEvent) :
    routes seq log ≤ tally (settles seq) log := by
  apply tally_mono
  intro event
  cases event <;> first | exact Nat.le_refl _ | exact Nat.zero_le _

theorem Kept.routes_le_one (h : Kept P s) (seq : Nat) : routes seq s.log ≤ 1 := by
  have hle := h.settled_le_one seq
  have hroutes := routes_le_settles seq s.log
  omega

theorem Kept.routes_eq_zero_of_held (h : Kept P s) (hheld : Held s seq) :
    routes seq s.log = 0 := by
  have hle := h.settled_le_one seq
  have hroutes := routes_le_settles seq s.log
  have hpos : 0 < s.replay.held (weigh seq) := hheld
  omega

/-- A message that is settled otherwise is not routed. -/
theorem Kept.routes_eq_zero_of_settled (h : Kept P s) {event : InboundEvent}
    (hevent : event ∈ s.log) (hsettles : settles seq event = 1) (hne : event ≠ .routed seq) :
    routes seq s.log = 0 := by
  have hle := h.settled_le_one seq
  apply tally_eq_zero
  intro other hother
  cases other with
  | routed n =>
      by_cases hn : n = seq
      · subst hn
        have hboth := add_le_tally (settles n) hevent hother hne
        rw [hsettles] at hboth
        change 1 + unit n n ≤ _ at hboth
        rw [unit_eq_one] at hboth
        omega
      · exact if_neg hn
  | _ => rfl

/-! ## What is done for a message -/

theorem Ledger.Sound.run {L : Ledger} (h : L.Sound seq) {config : Config} {actions : List Action}
    (hrun : Transition.run step (start config) actions = some s) :
    tally L.event s.log ≤ routes seq s.log := by
  have hspent := h.rules.run (h.initially config) (Transition.along_true _ _) hrun
  simp only [Ledger.spent] at hspent
  omega

/-- Events that the ledger gives a weight do not happen to a message that is not routed. -/
theorem Ledger.Sound.notMem {L : Ledger} (h : L.Sound seq) {config : Config}
    {actions : List Action} (hrun : Transition.run step (start config) actions = some s)
    (hroutes : routes seq s.log = 0) {event : InboundEvent} (hevent : L.event event = 1) :
    event ∉ s.log := by
  intro hmem
  have hle := h.run hrun
  have hpos := le_tally L.event hmem
  omega

theorem untouched_of_routes {config : Config} {actions : List Action}
    (hrun : Transition.run step (start config) actions = some s)
    (hroutes : routes seq s.log = 0) : Untouched seq s.log :=
  ⟨fun _ _ => (handOver_sound seq).notMem hrun hroutes (unit_eq_one seq),
    fun _ => (handOver_sound seq).notMem hrun hroutes (unit_eq_one seq),
    fun _ => (registration_sound seq).notMem hrun hroutes (unit_eq_one seq),
    fun _ => (acknowledgement_sound seq).notMem hrun hroutes (unit_eq_one seq)⟩

/-- A message refused by a detached entry is not acknowledged. -/
theorem Kept.not_acknowledged_of_refused (h : Kept P s) {config : Config} {actions : List Action}
    (hrun : Transition.run InboundPublishFlow.step (InboundPublishFlow.start config) actions = some s)
    {oid : Nat}
    (hrefused : .refused seq oid ∈ s.log) (pid : Int) : .sentPuback seq pid ∉ s.log := by
  intro hsent
  have hroutes := h.routes_le_one seq
  have hle := (acknowledgement_sound seq).run hrun
  have hboth := add_le_tally (acknowledgement seq).event hrefused hsent nofun
  change unit seq seq + unit seq seq ≤ _ at hboth
  rw [unit_eq_one] at hboth
  omega

/-- Held, dropped, rejected, or refused by a detached entry. -/
def Withheld (s : InboundPublishFlow) (seq : Nat) : Prop :=
  Held s seq ∨ .dropped seq ∈ s.log ∨ .rejected seq ∈ s.log ∨ ∃ oid, .refused seq oid ∈ s.log

theorem Kept.not_acknowledged (h : Kept P s) {config : Config} {actions : List Action}
    (hrun : Transition.run InboundPublishFlow.step (InboundPublishFlow.start config) actions = some s)
    (hwithheld : Withheld s seq) (pid : Int) : .sentPuback seq pid ∉ s.log := by
  rcases hwithheld with hheld | hdropped | hrejected | ⟨oid, hrefused⟩
  · exact (untouched_of_routes hrun (h.routes_eq_zero_of_held hheld)).2.2.2 pid
  · have hroutes := h.routes_eq_zero_of_settled hdropped (unit_eq_one seq) nofun
    exact (untouched_of_routes hrun hroutes).2.2.2 pid
  · have hroutes := h.routes_eq_zero_of_settled hrejected (unit_eq_one seq) nofun
    exact (untouched_of_routes hrun hroutes).2.2.2 pid
  · exact h.not_acknowledged_of_refused hrun hrefused pid

/-- **Nothing is acknowledged before it is handed over.**  In every run each PUBACK is
justified by what came before it; and as long as no drain is interrupted inside a
delivery, a message that is withheld is not acknowledged. -/
theorem puback_only_after_hand_over (config : Config) (actions : List Action)
    (s : InboundPublishFlow) (hrun : Transition.run step (start config) actions = some s) :
    (∀ later earlier seq pid, s.log = later ++ .sentPuback seq pid :: earlier →
        Justified seq earlier) ∧
      (Transition.Along step Uninterrupted (start config) actions →
        ∀ seq, Withheld s seq → ∀ pid, .sentPuback seq pid ∉ s.log) := by
  have hstart : Ordered (start config) := ⟨trivial, fun _ h => by cases h⟩
  have hordered := Ordered.rules.run hstart (Transition.along_true _ _) hrun
  refine ⟨?_, fun hok seq hwithheld => (Kept.run hok hrun).not_acknowledged hrun hwithheld⟩
  intro later earlier seq pid hlog
  have heach := hordered.log
  rw [hlog] at heach
  exact heach.at

/-- A QoS 1 message that is put and acknowledged, and one that nobody waits for and
that the replay buffer holds. -/
theorem puback_only_after_hand_over_held :
    ∃ s, Transition.run step (start { sessionPresent := true })
        [.index (.add (str "t") sampleEntry),
          .publish (samplePublish .atLeastOnce 7) none .done,
          .index (.remove (str "t")),
          .publish (samplePublish .atLeastOnce 8) none .done] = some s ∧
      .sentPuback 1 7 ∈ s.log ∧ Held s 2 ∧ .sentPuback 2 8 ∉ s.log := by
  have hrun : ∃ s, Transition.run step (start { sessionPresent := true })
      [.index (.add (str "t") sampleEntry),
        .publish (samplePublish .atLeastOnce 7) none .done,
        .index (.remove (str "t")),
        .publish (samplePublish .atLeastOnce 8) none .done] = some s ∧
      .sentPuback 1 7 ∈ s.log ∧ Held s 2 :=
    ⟨_, rfl, by decide, by unfold Held; decide⟩
  obtain ⟨s, hs, hsent, hheld⟩ := hrun
  refine ⟨s, hs, hsent, hheld, ?_⟩
  exact (puback_only_after_hand_over _ _ s hs).2 ⟨trivial, trivial, trivial, trivial, trivial⟩ 2
    (.inl hheld) 8

/-- A QoS 1 message is held, a subscription is added, and a drain takes the message. -/
def sampleDrain : List Action :=
  [.publish (samplePublish .atLeastOnce 7) none .done,
    .index (.add (str "t") sampleEntry),
    .drain, .acquireLock 0, .deliverNext 0 none .done]

/-- A drain that is cancelled while it writes the PUBACK puts the message back: it is held
in the replay buffer although it is acknowledged. -/
theorem held_message_acknowledged :
    ¬∀ config actions s, Transition.run step (start config) actions = some s →
      (∀ later earlier seq pid, s.log = later ++ .sentPuback seq pid :: earlier →
          Justified seq earlier) ∧
        ∀ seq, Withheld s seq → ∀ pid, .sentPuback seq pid ∉ s.log := by
  intro h
  have hrun : ∃ s, Transition.run step (start { sessionPresent := true })
      (sampleDrain ++
        [.deliverNext 0 none .suspended, .cancel 0, .resumeTask 0 false .done]) = some s ∧
      Held s 1 ∧ .sentPuback 1 7 ∈ s.log :=
    ⟨_, rfl, by unfold Held; decide, by decide⟩
  obtain ⟨s, hs, hheld, hsent⟩ := hrun
  exact (h _ _ s hs).2 1 (.inl hheld) 7 hsent

/-! ## Drains -/

/-- A message of the replay buffer that was not dropped is held and nothing was done
for it, or it was handed over and is not held. -/
def Atomic (s : InboundPublishFlow) : Prop :=
  ∀ seq, .buffered seq ∈ s.log → .dropped seq ∉ s.log →
    (s.replay.held (weigh seq) = 1 ∧ Untouched seq s.log) ∨
      (s.replay.held (weigh seq) = 0 ∧ HandedOver seq s.log)

/-- No message is put or delivered, registered, or acknowledged twice. -/
def NeverTwice (s : InboundPublishFlow) : Prop :=
  ∀ seq, tally (handOver seq).event s.log ≤ 1 ∧ tally (registration seq).event s.log ≤ 1 ∧
    tally (acknowledgement seq).event s.log ≤ 1

theorem Kept.neverTwice (h : Kept P s) {config : Config} {actions : List Action}
    (hrun : Transition.run InboundPublishFlow.step (InboundPublishFlow.start config) actions =
      some s) : NeverTwice s := by
  intro seq
  have hroutes := h.routes_le_one seq
  exact ⟨Nat.le_trans ((handOver_sound seq).run hrun) hroutes,
    Nat.le_trans ((registration_sound seq).run hrun) hroutes,
    Nat.le_trans ((acknowledgement_sound seq).run hrun) hroutes⟩

/-- A message that was buffered is held or settled. -/
theorem Kept.held_or_settled (h : Kept P s) (hbuffered : .buffered seq ∈ s.log) :
    1 ≤ s.replay.held (weigh seq) + tally (settles seq) s.log := by
  have hcomplete := h.places.complete seq
  have hpos := le_tally (buffers seq) hbuffered
  change unit seq seq ≤ _ at hpos
  rw [unit_eq_one] at hpos
  omega

theorem Kept.not_rejected (h : Kept P s) (hbuffered : .buffered seq ∈ s.log) :
    .rejected seq ∉ s.log := by
  intro hrejected
  have hle := h.settled_le_one seq
  have hcomplete := h.places.complete seq
  have hboth := add_le_tally (buffers seq) hbuffered hrejected nofun
  change unit seq seq + unit seq seq ≤ _ at hboth
  rw [unit_eq_one] at hboth
  omega

/-- A buffered message that is neither held nor dropped was routed. -/
theorem Kept.routed_of_not_held (h : Kept P s) (hbuffered : .buffered seq ∈ s.log)
    (hdropped : .dropped seq ∉ s.log) (hheld : s.replay.held (weigh seq) = 0) :
    .routed seq ∈ s.log := by
  have hsettled := h.held_or_settled hbuffered
  have hpos : 0 < tally (settles seq) s.log := by omega
  obtain ⟨event, hevent, hweight⟩ := tally_pos_iff.mp hpos
  cases event with
  | routed other =>
      rw [← unit_pos_iff.mp hweight]
      exact hevent
  | dropped other =>
      rw [unit_pos_iff.mp hweight] at hevent
      exact absurd hevent hdropped
  | rejected other =>
      rw [unit_pos_iff.mp hweight] at hevent
      exact absurd hevent (h.not_rejected hbuffered)
  | _ => cases hweight

theorem Kept.atomic (h : Kept HandedOver s) {config : Config} {actions : List Action}
    (hrun : Transition.run InboundPublishFlow.step (InboundPublishFlow.start config) actions =
      some s) : Atomic s := by
  intro seq hbuffered hdropped
  rcases Nat.eq_zero_or_pos (s.replay.held (weigh seq)) with hzero | hpos
  · exact .inr ⟨hzero, h.finished seq hbuffered (h.routed_of_not_held hbuffered hdropped hzero)⟩
  · have hle := h.settled_le_one seq
    exact .inl ⟨by omega, untouched_of_routes hrun (h.routes_eq_zero_of_held hpos)⟩

/-- **A drain is atomic per message, as long as it is not interrupted inside a
delivery** and routes nothing to a detached entry. -/
theorem drain_atomic_uninterrupted (config : Config) (actions : List Action)
    (s : InboundPublishFlow)
    (hok : Transition.Along step Uninterrupted (start config) actions)
    (hattached : Transition.Along step Attached (start config) actions)
    (hrun : Transition.run step (start config) actions = some s) : Atomic s ∧ NeverTwice s := by
  have hstep : ∀ s a next, Kept HandedOver s → Uninterrupted s a ∧ Attached s a →
      s.step a = some next → Kept HandedOver next := by
    intro s a next h hok hstep
    exact h.step lasting_handedOver (fun _ _ h => h) hok.1 (.inl hok.2) hstep
  have hkept := Transition.invariant_along hstep (Kept.start config) (hok.and hattached) hrun
  exact ⟨hkept.atomic hrun, hkept.neverTwice hrun⟩

/-- The drain finishes, and the message is handed over. -/
theorem drain_atomic_uninterrupted_done :
    ∃ s, Transition.run step (start { sessionPresent := true })
        (sampleDrain ++ [.deliverNext 0 none .done]) = some s ∧
      .buffered 1 ∈ s.log ∧ s.replay.held (weigh 1) = 0 ∧ Atomic s ∧ NeverTwice s := by
  have hrun : ∃ s, Transition.run step (start { sessionPresent := true })
      (sampleDrain ++ [.deliverNext 0 none .done]) = some s ∧
      .buffered 1 ∈ s.log ∧ s.replay.held (weigh 1) = 0 :=
    ⟨_, rfl, by decide, by decide⟩
  obtain ⟨s, hs, hbuffered, hheld⟩ := hrun
  refine ⟨s, hs, hbuffered, hheld, drain_atomic_uninterrupted _ _ s ?_ ?_ hs⟩
  · have hdone : WriteOutcome.done ≠ .failed := by decide
    exact ⟨trivial, trivial, trivial, trivial, hdone, hdone, trivial⟩
  · refine ⟨trivial, trivial, trivial, trivial, ?_, ?_, trivial⟩
    · rintro task htask unmatched received pending hphase
      cases htask
      cases hphase
    · rintro task htask unmatched received pending hphase
      cases htask
      cases hphase
      rfl

/-- A drain cancelled while its PUBACK is being written puts the message back, although
it is in the queue of the subscription and acknowledged. -/
theorem drain_not_atomic_cancelled :
    ¬∀ config actions s, Transition.run step (start config) actions = some s → Atomic s := by
  intro h
  have hrun : ∃ s, Transition.run step (start { sessionPresent := true })
      (sampleDrain ++
        [.deliverNext 0 none .suspended, .cancel 0, .resumeTask 0 false .done]) = some s ∧
      .buffered 1 ∈ s.log ∧ .dropped 1 ∉ s.log ∧ s.replay.held (weigh 1) = 1 ∧
      .sentPuback 1 7 ∈ s.log :=
    ⟨_, rfl, by decide, by decide, by decide, by decide⟩
  obtain ⟨s, hs, hbuffered, hdropped, hheld, hsent⟩ := hrun
  rcases h _ _ s hs 1 hbuffered hdropped with ⟨-, -, -, -, hunsent⟩ | ⟨hzero, -⟩
  · exact hunsent 7 hsent
  · rw [hheld] at hzero
    cases hzero

end Zmqtt
