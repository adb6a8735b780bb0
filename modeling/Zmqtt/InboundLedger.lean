import Zmqtt.InboundRules
import Zmqtt.Tally

/-!
# What a routed message pays for

Each time a message is routed it may be handed over once, acknowledged once and
registered once.  A `Ledger` gives a weight to the events that spend this, and to the
places that may still spend it: a suspended task, a registered flight, a message with
its callback.  If no change spends more than it takes away, then along every run what
is spent and what may still be spent is at most the number of times the message was
routed.
-/

namespace Zmqtt

open InboundPublishFlow Tally

/-- The weights of one message. -/
structure Ledger where
  event : InboundEvent → Nat
  frame : Frame → Nat
  flight : InboundQoS2Flight → Nat
  message : Message → Nat

/-- The events that a ledger may give a weight. -/
def InboundEvent.spends : InboundEvent → Bool
  | .refused _ _ => true
  | .put _ _ _ => true
  | .requestDelivered _ _ => true
  | .accepted _ _ => true
  | .sentPuback _ _ => true
  | _ => false

/-- 1 for the message with the arrival number `seq`, 0 for the others. -/
def unit (seq other : Nat) : Nat := if other = seq then 1 else 0

/-- What an event pays for a message. -/
def paid (seq : Nat) : InboundEvent → Nat
  | .routed other => unit seq other
  | _ => 0

theorem paid_routed (seq other : Nat) : paid seq (.routed other) = unit seq other := rfl

/-- How often a message was routed. -/
def routes (seq : Nat) (log : List InboundEvent) : Nat := tally (paid seq) log

theorem routes_emit (seq : Nat) (s : InboundPublishFlow) (event : InboundEvent) :
    routes seq (s.emit event).log = paid seq event + routes seq s.log :=
  tally_cons _ _ _

theorem routes_complete (seq : Nat) (s : InboundPublishFlow) (pid : Int) (event : InboundEvent) :
    routes seq (s.complete pid event).log = paid seq event + routes seq s.log :=
  tally_cons _ _ _

theorem routes_arrived (seq : Nat) (s : InboundPublishFlow) (packet : Publish) :
    routes seq (s.arrived packet).log = routes seq s.log := by
  rw [arrived_frame, routes, tally_cons]
  exact Nat.zero_add _

namespace Ledger

/-- What is spent and what may still be spent. -/
def spent (L : Ledger) (s : InboundPublishFlow) : Nat :=
  tally L.event s.log + tally (fun item => L.frame item.2) s.frames +
    tally (fun item => L.flight item.2) s.inflightQos2In +
    tally (fun item => L.message item.2) s.queued + tally L.message s.taken

/-- No change spends more than it takes away, and routing pays for one. -/
structure Sound (L : Ledger) (seq : Nat) : Prop where
  free : ∀ event, event.spends = false → L.event event = 0
  returned : L.frame .returned = 0
  raised : ∀ e, L.frame (.raised e) = 0
  pause : L.frame (.sending none) = 0
  resume : ∀ next, L.frame (afterSend next) ≤ L.frame (.sending next)
  request : ∀ recipient ackCallback puback request,
    L.event (.requestDelivered recipient.message.seq request) +
      L.frame (afterDelivery recipient.message.seq puback) ≤
      L.frame (.delivering recipient ackCallback puback)
  nobody : ∀ recipient ackCallback puback,
    L.frame (afterDelivery recipient.message.seq puback) ≤
      L.frame (.delivering recipient ackCallback puback)
  refuse : ∀ recipient ackCallback puback oid,
    L.event (.refused recipient.message.seq oid) ≤
      L.frame (.delivering recipient ackCallback puback)
  offer : ∀ recipient entry ackCallback puback,
    L.frame (.putting recipient entry ackCallback puback) ≤
      L.frame (.delivering recipient ackCallback puback)
  put : ∀ recipient entry ackCallback puback detached,
    L.event (.put recipient.message.seq entry.oid detached) +
      L.frame (afterDelivery recipient.message.seq puback) +
      L.message (withCallback recipient.message entry ackCallback) ≤
      L.frame (.putting recipient entry ackCallback puback)
  puback : ∀ other pid, L.event (.sentPuback other pid) ≤ L.frame (.completing other pid)
  resolved : ∀ message, message.resolved = true → L.message message = 0
  ackPuback : ∀ message pid, message.resolved = false →
    message.ackCallback = some (.puback pid false) →
    L.event (.sentPuback message.seq pid) ≤ L.message message
  delivered : ∀ flight, flight.delivered = true → L.flight flight = 0
  pubrel : ∀ flight, flight.delivered = false →
    L.frame (.sending (some flight.recipient)) ≤ L.flight flight
  route : ∀ received recipient ackCallback puback, recipient.message = makeMessage received →
    Begins received recipient ackCallback puback →
    L.frame (.delivering recipient ackCallback puback) ≤ unit seq received.seq
  routeRefused : ∀ other oid, L.event (.refused other oid) ≤ unit seq other
  accept : ∀ recipient pid, L.event (.accepted recipient.message.seq pid) +
    L.flight { packetId := pid, recipient } ≤ unit seq recipient.message.seq
  acceptManual : ∀ recipient pid, L.event (.accepted recipient.message.seq pid) +
    L.frame (.delivering recipient (some (.pubrec pid recipient.subscription)) none) ≤
      unit seq recipient.message.seq
  backlog : ∀ publish, L.message (makeMessage { seq := 0, publish }) = 0

variable {L : Ledger} {seq : Nat} {s : InboundPublishFlow}

theorem spent_emit (L : Ledger) (s : InboundPublishFlow) (event : InboundEvent) :
    L.spent (s.emit event) = L.event event + L.spent s := by
  simp only [spent, emit, tally_cons]
  omega

theorem spent_complete (L : Ledger) (s : InboundPublishFlow) (pid : Int) (event : InboundEvent) :
    L.spent (s.complete pid event) = L.event event + L.spent s :=
  spent_emit L _ event

theorem spent_push (L : Ledger) (s : InboundPublishFlow) (queue : Nat) (message : Message) :
    L.spent (s.push queue message) = L.spent s + L.message message := by
  simp only [spent, push, tally_append, tally_cons, tally_nil]
  omega

theorem spent_sendPubrec (L : Ledger) (s : InboundPublishFlow) (pid : Int)
    (flight : InboundQoS2Flight) :
    L.spent (s.sendPubrec pid flight) ≤
      L.event (.sentPubrec pid) + L.spent s + L.flight flight := by
  have hset := tally_dict_set L.flight s.inflightQos2In pid flight
  unfold sendPubrec
  rw [spent_emit]
  simp only [spent]
  omega

theorem spent_getNowait (L : Ledger) {queue : Nat} {items : List (Nat × Message)}
    {found : Message × List (Nat × Message)} (h : getNowait queue items = some found) :
    tally (fun item => L.message item.2) items =
      tally (fun item => L.message item.2) found.2 + L.message found.1 := by
  induction items generalizing found with
  | nil => cases h
  | cons item rest ih =>
      rw [getNowait] at h
      split at h
      · cases h
        simp only [tally_cons]
        omega
      · obtain ⟨inner, hinner, rfl⟩ := Option.map_eq_some_iff.mp h
        simp only [tally_cons, ih hinner]
        omega

theorem spent_setTaken (L : Ledger) {i : Nat} {message : Message}
    (h : s.taken[i]? = some message) (other : Message) :
    L.spent (s.setTaken i other) + L.message message = L.spent s + L.message other := by
  have hset := tally_set L.message h other
  simp only [spent, setTaken]
  omega

theorem Sound.arrived (h : L.Sound seq) (s : InboundPublishFlow) (packet : Publish) :
    L.spent (s.arrived packet) = L.spent s := by
  rw [arrived_frame]
  simp only [spent, tally_cons, h.free (.receivedPublish _) rfl, Nat.zero_add]

/-- `Message.ack` spends what the callback of the message may spend. -/
theorem Sound.ack (h : L.Sound seq) {i : Nat} {message : Message}
    (hmessage : s.taken[i]? = some message) (hs : L.spent s ≤ routes seq s.log) :
    L.spent (s.ack i message) ≤ routes seq (s.ack i message).log := by
  have hset : ∀ marked : Message, marked.resolved = true →
      L.spent (s.setTaken i marked) + L.message message = L.spent s := by
    intro marked hmarked
    rw [spent_setTaken L hmessage, h.resolved marked hmarked, Nat.add_zero]
  have hacked : ∀ marked : Message,
      L.spent ((s.setTaken i marked).emit (.acked message.seq)) = L.spent (s.setTaken i marked) := by
    intro marked
    rw [spent_emit, h.free _ rfl, Nat.zero_add]
  rcases s.ack_cases i message with heq | ⟨marked, hmarked, -, -, heq | ⟨pid, hres, hcall, heq⟩⟩ |
    ⟨pid, subscription, -, heq⟩
  · rw [heq]
    exact hs
  · have := hset marked hmarked
    rw [heq]
    exact Nat.le_trans (by omega) hs
  · have := hset marked hmarked
    have hpays := h.ackPuback message pid hres hcall
    rw [heq, spent_complete, hacked, routes_complete, routes_emit]
    change _ ≤ _ + (_ + routes seq s.log)
    omega
  · have hmarked := hset { message with resolved := true } rfl
    have hflight := spent_sendPubrec L
      (((s.setTaken i { message with resolved := true }).emit
        (.acked message.seq)).removePendingAck pid) pid
      { packetId := pid, delivered := true
        recipient := { message := { message with resolved := true }, subscription } }
    have hspent := hacked { message with resolved := true }
    rw [h.free (.sentPubrec pid) rfl, h.delivered _ rfl] at hflight
    rw [heq]
    refine Nat.le_trans hflight ?_
    change 0 + L.spent ((s.setTaken i _).emit (.acked message.seq)) + 0 ≤
      routes seq (.sentPubrec pid :: .acked message.seq :: s.log)
    simp only [routes, tally_cons] at hs ⊢
    omega

/-- **What is spent is paid for.** -/
theorem Sound.rules (h : L.Sound seq) :
    FlowRules (fun _ _ => True) (fun s => L.spent s ≤ routes seq s.log)
      fun s _ frame => L.spent s + L.frame frame ≤ routes seq s.log where
  take := by
    intro s o frame hs hget
    have hpop := tally_dict_pop L.frame hget
    simp only [spent] at hs ⊢
    omega
  store := by
    intro s o frame hs _ _
    have hset := tally_dict_set L.frame s.frames o frame
    simp only [spent] at hs ⊢
    omega
  enter := by
    intro s o _ hs
    rw [h.returned]
    exact hs
  leave := by
    intro s o hs
    omega
  raise := by
    intro s o frame e hs
    rw [h.raised]
    omega
  endReader := by
    intro s e hs
    exact Nat.le_trans (Nat.le_add_right _ _) hs
  endTask := by
    intro s t e hs
    omega
  pause := by
    intro s o hs
    rw [h.pause]
    omega
  resume := by
    intro s o next hs
    have := h.resume next
    omega
  request := by
    intro s o recipient ackCallback puback request hs _
    have := h.request recipient ackCallback puback request
    rw [spent_emit, routes_emit]
    omega
  nobody := by
    intro s o recipient ackCallback puback hs _ _
    have := h.nobody recipient ackCallback puback
    omega
  refuse := by
    intro s o recipient ackCallback puback item hs _ _
    have := h.refuse recipient ackCallback puback item.2.oid
    rw [spent_emit, routes_emit, h.returned]
    omega
  offer := by
    intro s o recipient ackCallback puback item hs _ _ _
    have := h.offer recipient item.2 ackCallback puback
    rw [spent_emit, routes_emit, h.free _ rfl]
    omega
  put := by
    intro s o recipient entry ackCallback puback hs _
    have := h.put recipient entry ackCallback puback false
    rw [spent_emit, spent_push, routes_emit]
    change _ ≤ _ + routes seq s.log
    omega
  withdraw := by
    intro s o recipient entry ackCallback puback found hs hfound
    have hput := h.put recipient entry ackCallback puback true
    have hpush := spent_push L s entry.queue (withCallback recipient.message entry ackCallback)
    have hget := spent_getNowait L hfound
    rw [spent_emit, routes_emit, h.returned]
    change _ ≤ _ + routes seq s.log
    simp only [spent] at hs hpush hget ⊢
    simp only [push] at hpush hget
    omega
  puback := by
    intro s o other pid hs
    have := h.puback other pid
    rw [spent_complete, routes_complete, h.returned]
    omega
  replay _ hs := hs
  quiet := by
    intro s event hquiet hs
    have hfree : L.event event = 0 := h.free event (by cases event <;> first | rfl | cases hquiet)
    rw [spent_emit, routes_emit, hfree]
    omega
  get := by
    intro s queue found hfound hs
    have := spent_getNowait L hfound
    simp only [spent, tally_append, tally_cons, tally_nil] at hs ⊢
    omega
  ack _ hmessage hs := h.ack hmessage hs
  index _ hs := hs
  detach := by
    intro s filters queue _ hs
    have := tally_filter_le (fun item : Nat × Message => L.message item.2)
      (fun item => item.1 ≠ queue) s.queued
    simp only [spent, InboundPublishFlow.detach] at hs ⊢
    omega
  arrive := by
    intro s packet claim write _ _ hs
    rw [routes_arrived, h.arrived]
    exact hs
  exceed := by
    intro s packet claim write _ _ hs
    rw [spent_emit, routes_emit, h.free (.aborted _) rfl]
    omega
  resend := by
    intro s pid flight _ hs
    rw [spent_emit, routes_emit, h.free _ rfl]
    omega
  pubrelUnknown := by
    intro s packet write _ _ _ hs
    rw [spent_emit, spent_emit, routes_emit, routes_emit, h.free _ rfl, h.free _ rfl]
    omega
  pubrelKnown := by
    intro s packet write flight _ _ hget hs
    have hpop := tally_dict_pop L.flight hget
    have hnext : L.frame (.sending (if flight.delivered then none else some flight.recipient)) ≤
        L.flight flight := by
      cases hdelivered : flight.delivered with
      | true =>
          simp only [if_pos]
          rw [h.pause]
          exact Nat.zero_le _
      | false => exact h.pubrel flight hdelivered
    unfold closeFlight
    rw [spent_complete, routes_complete, h.free _ rfl]
    change _ ≤ _ + routes seq (s.emit (.receivedPubrel packet.packetId)).log
    rw [routes_emit]
    simp only [spent, emit, tally_cons, h.free (.receivedPubrel _) rfl] at hs ⊢
    omega
  route := by
    intro s o received recipient ackCallback puback hselects _ hbegins _ hs
    have := h.route received recipient ackCallback puback hselects.message hbegins
    rw [spent_emit, routes_emit, h.free _ rfl, paid_routed]
    omega
  routeNowhere := by
    intro s other hs
    rw [spent_emit, routes_emit, h.free _ rfl]
    omega
  routeRefused := by
    intro s other oid hs
    have := h.routeRefused other oid
    rw [spent_emit, spent_emit, routes_emit, routes_emit, h.free (.routed other) rfl, paid_routed]
    omega
  accept := by
    intro s received recipient pid hselects _ _ hs
    have hpays := h.accept recipient pid
    rw [hselects.message] at hpays
    have hflight := spent_sendPubrec L
      ((s.emit (.routed received.seq)).emit (.accepted received.seq pid)) pid
      { packetId := pid, recipient }
    rw [spent_emit, spent_emit, h.free (.sentPubrec pid) rfl, h.free (.routed _) rfl] at hflight
    refine Nat.le_trans hflight ?_
    change L.event (.accepted received.seq pid) + _ ≤ unit seq received.seq at hpays
    rw [sendPubrec, routes_emit]
    change _ ≤ _ + routes seq ((s.emit (.routed received.seq)).emit (.accepted received.seq pid)).log
    rw [routes_emit, routes_emit, paid_routed]
    omega
  acceptManual := by
    intro s o received recipient pid hselects _ _ _ hs
    have hpays := h.acceptManual recipient pid
    rw [hselects.message] at hpays
    change L.event (.accepted received.seq pid) + _ ≤ unit seq received.seq at hpays
    rw [spent_emit, routes_emit]
    change _ + L.spent (s.emit (.routed received.seq)) + _ ≤
      _ + routes seq (s.emit (.routed received.seq)).log
    rw [spent_emit, routes_emit, h.free (.routed _) rfl, paid_routed]
    omega

/-- Nothing is spent before the first packet. -/
theorem Sound.initially (h : L.Sound seq) (config : Config) :
    L.spent (start config) ≤ routes seq (start config).log := by
  have hbacklog : tally (fun item : Nat × Message => L.message item.2) (start config).queued = 0 := by
    apply tally_eq_zero
    intro item hitem
    obtain ⟨entry, -, rfl⟩ := List.mem_map.mp hitem
    exact h.backlog entry.2
  have hspent : L.spent (start config) = 0 := by
    unfold spent
    rw [hbacklog]
    rfl
  omega

end Ledger

/-! ## The three ledgers -/

/-- The message is put in a queue or delivered to a request. -/
def handOver (seq : Nat) : Ledger where
  event
    | .put other _ _ => unit seq other
    | .requestDelivered other _ => unit seq other
    | _ => 0
  frame
    | .delivering recipient _ _ => unit seq recipient.message.seq
    | .putting recipient _ _ _ => unit seq recipient.message.seq
    | .sending (some recipient) => unit seq recipient.message.seq
    | _ => 0
  flight flight := if flight.delivered then 0 else unit seq flight.recipient.message.seq
  message _ := 0

/-- The message is acknowledged with PUBACK, or refused by a detached entry. -/
def acknowledgement (seq : Nat) : Ledger where
  event
    | .sentPuback other _ => unit seq other
    | .refused other _ => unit seq other
    | _ => 0
  frame
    | .delivering recipient ackCallback puback => units recipient ackCallback puback
    | .putting recipient _ ackCallback puback => units recipient ackCallback puback
    | .completing other _ => unit seq other
    | .sending (some recipient) => unit seq recipient.message.seq
    | _ => 0
  flight flight := if flight.delivered then 0 else unit seq flight.recipient.message.seq
  message message :=
    if message.resolved then 0
    else
      match message.ackCallback with
      | some (.puback _ false) => unit seq message.seq
      | _ => 0
where
  /-- Two if the task acknowledges and the message could as well. -/
  units (recipient : InboundRecipient) (ackCallback : Option AckCallback)
      (puback : Option Int) : Nat :=
    if puback.isSome && (ackCallback.isSome || recipient.message.ackCallback.isSome) then
      unit seq recipient.message.seq + unit seq recipient.message.seq
    else unit seq recipient.message.seq

/-- The message is registered as a QoS 2 flow. -/
def registration (seq : Nat) : Ledger where
  event
    | .accepted other _ => unit seq other
    | _ => 0
  frame _ := 0
  flight _ := 0
  message _ := 0

theorem handOver_sound (seq : Nat) : (handOver seq).Sound seq where
  free event h := by cases event <;> first | rfl | cases h
  returned := rfl
  raised _ := rfl
  pause := rfl
  resume next := by cases next <;> exact Nat.le_refl _
  request recipient _ puback _ := by cases puback <;> exact Nat.le_refl _
  nobody recipient _ puback := by cases puback <;> exact Nat.zero_le _
  refuse _ _ _ _ := Nat.zero_le _
  offer _ _ _ _ := Nat.le_refl _
  put recipient _ _ puback _ := by cases puback <;> exact Nat.le_refl _
  puback _ _ := Nat.le_refl _
  resolved _ _ := rfl
  ackPuback _ _ _ _ := Nat.le_refl _
  delivered _ h := if_pos h
  pubrel flight h := Nat.le_of_eq (if_neg (by rw [h]; exact Bool.false_ne_true)).symm
  route received recipient _ _ hmessage _ := by
    change unit seq recipient.message.seq ≤ _
    rw [hmessage]
    exact Nat.le_refl _
  routeRefused _ _ := Nat.zero_le _
  accept _ _ := Nat.le_of_eq (Nat.zero_add _)
  acceptManual _ _ := Nat.le_of_eq (Nat.zero_add _)
  backlog _ := rfl

theorem registration_sound (seq : Nat) : (registration seq).Sound seq where
  free event h := by cases event <;> first | rfl | cases h
  returned := rfl
  raised _ := rfl
  pause := rfl
  resume _ := Nat.le_refl _
  request _ _ _ _ := Nat.le_refl _
  nobody _ _ _ := Nat.le_refl _
  refuse _ _ _ _ := Nat.le_refl _
  offer _ _ _ _ := Nat.le_refl _
  put _ _ _ _ _ := Nat.le_refl _
  puback _ _ := Nat.le_refl _
  resolved _ _ := rfl
  ackPuback _ _ _ _ := Nat.le_refl _
  delivered _ _ := rfl
  pubrel _ _ := Nat.le_refl _
  route _ _ _ _ _ _ := Nat.zero_le _
  routeRefused _ _ := Nat.zero_le _
  accept _ _ := Nat.le_refl _
  acceptManual _ _ := Nat.le_refl _
  backlog _ := rfl

theorem le_units (seq : Nat) (recipient : InboundRecipient) (ackCallback : Option AckCallback)
    (puback : Option Int) :
    unit seq recipient.message.seq ≤ acknowledgement.units seq recipient ackCallback puback := by
  unfold acknowledgement.units
  split <;> omega

theorem acknowledgement_message_le (seq : Nat) (message : Message) :
    (acknowledgement seq).message message ≤ unit seq message.seq := by
  simp only [acknowledgement]
  split
  · exact Nat.zero_le _
  · split
    · exact Nat.le_refl _
    · exact Nat.zero_le _

theorem acknowledgement_sound (seq : Nat) : (acknowledgement seq).Sound seq where
  free event h := by cases event <;> first | rfl | cases h
  returned := rfl
  raised _ := rfl
  pause := rfl
  resume next := by
    cases next with
    | none => exact Nat.le_refl _
    | some recipient => exact Nat.le_refl _
  request recipient ackCallback puback _ := by
    have := le_units seq recipient ackCallback puback
    cases puback with
    | none => exact Nat.zero_le _
    | some pid => exact Nat.le_trans (Nat.le_of_eq (Nat.zero_add _)) this
  nobody recipient ackCallback puback := by
    have := le_units seq recipient ackCallback puback
    cases puback with
    | none => exact Nat.zero_le _
    | some pid => exact this
  refuse recipient ackCallback puback _ := le_units seq recipient ackCallback puback
  offer _ _ _ _ := Nat.le_refl _
  put recipient entry ackCallback puback detached := by
    have hle := acknowledgement_message_le seq (withCallback recipient.message entry ackCallback)
    rw [withCallback_seq] at hle
    cases puback with
    | none =>
        change 0 + 0 + _ ≤ unit seq recipient.message.seq
        omega
    | some pid =>
        change 0 + unit seq recipient.message.seq + _ ≤ _
        by_cases hcallback : (ackCallback.isSome || recipient.message.ackCallback.isSome) = true
        · have hunits : acknowledgement.units seq recipient ackCallback (some pid) =
              unit seq recipient.message.seq + unit seq recipient.message.seq :=
            if_pos (by simpa using hcallback)
          change _ ≤ acknowledgement.units seq recipient ackCallback (some pid)
          omega
        · -- a message without a callback has nothing to spend
          rw [Bool.or_eq_true, not_or, Bool.not_eq_true, Bool.not_eq_true] at hcallback
          have hnone : recipient.message.ackCallback = none := by simpa using hcallback.2
          have hmessage : (acknowledgement seq).message
              (withCallback recipient.message entry ackCallback) = 0 := by
            rw [withCallback, hcallback.1, Bool.and_false, if_neg Bool.false_ne_true]
            simp [acknowledgement, hnone]
          have := le_units seq recipient ackCallback (some pid)
          change _ ≤ acknowledgement.units seq recipient ackCallback (some pid)
          omega
  puback _ _ := Nat.le_refl _
  resolved _ h := if_pos h
  ackPuback message pid hresolved hcallback := by
    simp [acknowledgement, hresolved, hcallback]
  delivered _ h := if_pos h
  pubrel flight h := Nat.le_of_eq (if_neg (by rw [h]; exact Bool.false_ne_true)).symm
  route received recipient ackCallback puback hmessage hbegins := by
    have hnone : (puback.isSome && (ackCallback.isSome || recipient.message.ackCallback.isSome)) =
        false := by
      rw [hmessage]
      rcases hbegins with ⟨-, rfl, rfl⟩ | ⟨-, pid, -, ⟨-, rfl, rfl⟩ | ⟨-, rfl, rfl⟩⟩ <;> rfl
    change acknowledgement.units seq recipient ackCallback puback ≤ _
    rw [acknowledgement.units, hnone, if_neg Bool.false_ne_true, hmessage]
    exact Nat.le_refl _
  routeRefused _ _ := Nat.le_refl _
  accept _ _ := Nat.le_of_eq (Nat.zero_add _)
  acceptManual _ _ := Nat.le_of_eq (Nat.zero_add _)
  backlog _ := rfl

end Zmqtt
