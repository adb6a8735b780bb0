import Zmqtt.History
import Zmqtt.InboundRules

/-!
# Nothing is acknowledged before it is handed over

Every way to a PUBACK passes one of four events of the same message.  The proof keeps
with each suspended task what its next call relies on: a task in `queue.put` was not
detached when it got there, and a task about to acknowledge has handed over.
-/

namespace Zmqtt

open InboundPublishFlow

/-- Put in the queue of its recipient entry, not detached before and after; delivered to a
request; acknowledged by the application; or without a recipient and without a
session. -/
def Justified (seq : Nat) (log : List InboundEvent) : Prop :=
  (∃ oid, .offered seq oid ∈ log ∧ .put seq oid false ∈ log) ∨
    (∃ request, .requestDelivered seq request ∈ log) ∨
    .acked seq ∈ log ∨ .noSubscriber seq ∈ log

/-- A PUBACK is justified by what came before it. -/
def PubackJustified : InboundEvent → List InboundEvent → Prop
  | .sentPuback seq _, earlier => Justified seq earlier
  | _, _ => True

/-- What a task relies on at its next call. -/
def Frame.Backed (log : List InboundEvent) : Frame → Prop
  | .delivering recipient _ puback =>
      puback.isSome → recipient.request = none → recipient.subscription = none →
        .noSubscriber recipient.message.seq ∈ log
  | .putting recipient entry _ _ => .offered recipient.message.seq entry.oid ∈ log
  | .completing seq _ => Justified seq log
  | .sending _ => True
  | .returned => True
  | .raised _ => True

theorem Justified.later {seq : Nat} {log : List InboundEvent} (h : Justified seq log)
    (event : InboundEvent) : Justified seq (event :: log) := by
  rcases h with ⟨oid, hoffered, hput⟩ | ⟨request, hrequest⟩ | hacked | hnobody
  · exact .inl ⟨oid, List.mem_cons_of_mem _ hoffered, List.mem_cons_of_mem _ hput⟩
  · exact .inr (.inl ⟨request, List.mem_cons_of_mem _ hrequest⟩)
  · exact .inr (.inr (.inl (List.mem_cons_of_mem _ hacked)))
  · exact .inr (.inr (.inr (List.mem_cons_of_mem _ hnobody)))

theorem Frame.Backed.later {frame : Frame} {log : List InboundEvent} (h : frame.Backed log)
    (event : InboundEvent) : frame.Backed (event :: log) := by
  cases frame with
  | delivering recipient ackCallback puback =>
      exact fun hpuback hrequest hsubscription =>
        List.mem_cons_of_mem _ (h hpuback hrequest hsubscription)
  | putting recipient entry ackCallback puback => exact List.mem_cons_of_mem _ h
  | completing seq packetId => exact Justified.later h event
  | sending next => trivial
  | returned => trivial
  | raised e => trivial

/-- After a delivery a PUBACK is justified. -/
theorem backed_afterDelivery {seq : Nat} {log : List InboundEvent} {puback : Option Int}
    (h : puback.isSome → Justified seq log) : (afterDelivery seq puback).Backed log := by
  cases puback with
  | none => trivial
  | some pid => exact h rfl

/-- Every PUBACK so far is justified, and every suspended task is backed. -/
structure Ordered (s : InboundPublishFlow) : Prop where
  log : History.Each PubackJustified s.log
  frames : ∀ item ∈ s.frames, item.2.Backed s.log

namespace Ordered

variable {s : InboundPublishFlow}

/-- A change that adds an event to the log, and keeps the frames. -/
theorem extend {t : InboundPublishFlow} (h : Ordered s) {event : InboundEvent}
    (hlog : t.log = event :: s.log) (hframes : t.frames = s.frames)
    (hevent : PubackJustified event s.log) : Ordered t where
  log := by
    rw [hlog]
    exact ⟨hevent, h.log⟩
  frames item hitem := by
    rw [hlog]
    exact (h.frames item (hframes ▸ hitem)).later event

theorem emit (h : Ordered s) {event : InboundEvent} (hevent : PubackJustified event s.log) :
    Ordered (s.emit event) :=
  h.extend rfl rfl hevent

theorem ack (h : Ordered s) (i : Nat) (message : Message) : Ordered (s.ack i message) := by
  have hset : ∀ m, Ordered ((s.setTaken i m).emit (.acked message.seq)) :=
    fun _ => h.extend rfl rfl trivial
  rcases s.ack_cases i message with heq | ⟨marked, -, -, -, heq | ⟨pid, -, -, heq⟩⟩ |
    ⟨pid, subscription, -, heq⟩
  · rw [heq]
    exact h
  · rw [heq]
    exact ⟨h.log, h.frames⟩
  · rw [heq]
    exact (hset marked).extend rfl rfl (.inr (.inr (.inl List.mem_cons_self)))
  · rw [heq]
    exact (hset _).extend rfl rfl trivial

/-- An event of the working task, and what its next call relies on. -/
theorem work (h : Ordered s) {frame : Frame} {event : InboundEvent}
    (hevent : PubackJustified event s.log) (hframe : frame.Backed (event :: s.log)) :
    Ordered (s.emit event) ∧ frame.Backed (s.emit event).log :=
  ⟨h.emit hevent, hframe⟩

theorem rules : FlowRules (fun _ _ => True) Ordered fun s _ frame =>
    Ordered s ∧ frame.Backed s.log where
  take h hget := ⟨⟨h.log, fun item hitem => h.frames item (OrderedDict.mem_of_mem_pop hitem)⟩,
    h.frames _ (OrderedDict.mem_of_get hget)⟩
  store := by
    intro s o frame h _ _
    refine ⟨h.1.log, fun item hitem => ?_⟩
    rcases OrderedDict.mem_of_mem_set hitem with hold | rfl
    · exact h.1.frames item hold
    · exact h.2
  enter _ h := ⟨h, trivial⟩
  leave h := h.1
  raise _ h := ⟨h.1, trivial⟩
  endReader h := ⟨h.1.log, h.1.frames⟩
  endTask h := h.1
  pause h := ⟨h.1, trivial⟩
  resume := by
    intro s o next h
    refine ⟨h.1, ?_⟩
    cases next with
    | none => trivial
    | some recipient => exact nofun
  request h _ := h.1.work trivial
    (backed_afterDelivery fun _ => .inr (.inl ⟨_, List.mem_cons_self⟩))
  nobody h hrequest hsubscription := ⟨h.1, backed_afterDelivery fun hpuback =>
    .inr (.inr (.inr (h.2 hpuback hrequest hsubscription)))⟩
  refuse h _ _ := h.1.work trivial trivial
  offer h _ _ _ := h.1.work trivial List.mem_cons_self
  put h _ := ⟨h.1.extend rfl rfl trivial, backed_afterDelivery fun _ =>
    .inl ⟨_, List.mem_cons_of_mem _ h.2, List.mem_cons_self⟩⟩
  withdraw h _ := ⟨h.1.extend rfl rfl trivial, trivial⟩
  puback h := ⟨h.1.extend rfl rfl h.2, trivial⟩
  replay _ h := ⟨h.log, h.frames⟩
  quiet := by
    intro s event hquiet h
    refine h.emit ?_
    cases event with
    | sentPuback seq packetId => cases hquiet
    | _ => trivial
  get _ h := ⟨h.log, h.frames⟩
  ack _ _ h := ack h _ _
  index _ h := ⟨h.log, h.frames⟩
  detach _ _ h := ⟨h.log, h.frames⟩
  arrive _ _ h := by
    rw [arrived_frame]
    exact h.extend rfl rfl trivial
  exceed _ _ h := h.emit trivial
  resend _ h := h.emit trivial
  pubrelUnknown _ _ _ h := Ordered.emit (h.emit (by trivial)) trivial
  pubrelKnown := by
    intro s packet write flight _ _ _ h
    have hreceived : Ordered (s.emit (.receivedPubrel packet.packetId)) := h.emit trivial
    exact ⟨hreceived.extend rfl rfl trivial, trivial⟩
  route := by
    intro s o received recipient ackCallback puback hselects hnobody _ _ h
    refine h.work trivial fun _ hrequest hsubscription => ?_
    rw [hselects.message]
    exact List.mem_cons_of_mem _ (hnobody hrequest hsubscription)
  routeNowhere _ h := h.emit trivial
  routeRefused _ _ h := Ordered.emit (h.emit (by trivial)) trivial
  accept := by
    intro s received recipient pid _ _ _ h
    have haccepted : Ordered ((s.emit (.routed received.seq)).emit (.accepted received.seq pid)) :=
      Ordered.emit (h.emit (by trivial)) trivial
    exact haccepted.extend rfl rfl trivial
  acceptManual := by
    intro s o received recipient pid _ _ _ _ h
    have hrouted : Ordered (s.emit (.routed received.seq)) := h.emit trivial
    exact ⟨hrouted.extend rfl rfl trivial, nofun⟩

end Ordered

end Zmqtt
