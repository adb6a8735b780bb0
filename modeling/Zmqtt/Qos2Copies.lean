import Zmqtt.BufferViews
import Zmqtt.CompletedFlows

/-!
# The copies of a QoS 2 message

From its arrival to its PUBREC the client has a QoS 2 message at one place: in the replay
buffer, in the hands of a task, or in a queue or with the application, with a callback that
waits for `ack()`.  A step moves such a copy and never makes a second one, so at most one
copy goes by an identifier, and a PUBLISH that gets past the checks of its identifier finds
nothing that is left of an earlier flow.
-/

namespace Zmqtt

open InboundPublishFlow Tally

/-! ## Copies -/

/-- The flow that `ack()` is to continue: its identifier and its arrival. -/
def pubrecFlow (seq : Nat) : Option AckCallback → Option (Int × Nat)
  | some (.pubrec pid _) => some (pid, seq)
  | _ => none

/-- The flow that a message waits to begin. -/
def Message.flow (message : Message) : Option (Int × Nat) :=
  if message.resolved then none else pubrecFlow message.seq message.ackCallback

/-- The flow of the message a task delivers. -/
def Frame.flow : Frame → Option (Int × Nat)
  | .delivering recipient ackCallback _ => pubrecFlow recipient.message.seq ackCallback
  | .putting recipient _ ackCallback _ => pubrecFlow recipient.message.seq ackCallback
  | _ => none

/-- The flow of a message that has not begun it yet. -/
def Received.flow (received : Received) : Option (Int × Nat) :=
  if received.publish.qos = .exactlyOnce then
    received.publish.packetId.map fun pid => (pid, received.seq)
  else none

/-- A message as it is put waits for `ack()` only through the callback set on it. -/
theorem withCallback_flow {message : Message} (hnone : message.ackCallback = none)
    (entry : SubscriptionEntry) (ackCallback : Option AckCallback) {c : Int × Nat}
    (h : (withCallback message entry ackCallback).flow = some c) :
    pubrecFlow message.seq ackCallback = some c := by
  unfold withCallback Message.flow at h
  split at h
  · simp only at h
    split at h
    · cases h
    · exact h
  · rw [hnone] at h
    split at h <;> cases h

theorem afterDelivery_flow (seq : Nat) (puback : Option Int) :
    (afterDelivery seq puback).flow = none := by
  cases puback <;> rfl

namespace InboundPublishFlow

/-- A message in a queue, with the application or in the hands of a task waits for `ack()`. -/
def AwaitsAck (s : InboundPublishFlow) (c : Int × Nat) : Prop :=
  (∃ item ∈ s.queued, item.2.flow = some c) ∨ (∃ message ∈ s.taken, message.flow = some c) ∨
    ∃ o frame, OrderedDict.get s.frames o = some frame ∧ frame.flow = some c

end InboundPublishFlow

/-! ## Who waits for `ack()` -/

/-- The message in hand has no callback yet, and one that waits for `ack()` is not
acknowledged otherwise. -/
def Frame.Plain : Frame → Prop
  | .delivering recipient ackCallback puback =>
      recipient.message.ackCallback = none ∧
        (pubrecFlow recipient.message.seq ackCallback ≠ none → puback = none)
  | .putting recipient _ ackCallback puback =>
      recipient.message.ackCallback = none ∧
        (pubrecFlow recipient.message.seq ackCallback ≠ none → puback = none)
  | .sending (some recipient) => recipient.message.ackCallback = none
  | _ => True

/-- What waits for `ack()` is in `pending_ack_qos2_in`. -/
structure Registered (s : InboundPublishFlow) : Prop where
  flights : ∀ item ∈ s.inflightQos2In, item.2.delivered = false →
    item.2.recipient.message.ackCallback = none
  frames : ∀ item ∈ s.frames, item.2.Plain
  pending : ∀ c, s.AwaitsAck c → c.1 ∈ s.pendingAckQos2In

/-- The same for the message a task works on. -/
structure RegisteredFrame (s : InboundPublishFlow) (frame : Frame) : Prop extends Registered s where
  plain : frame.Plain
  awaits : ∀ c, frame.flow = some c → c.1 ∈ s.pendingAckQos2In

/-- `ack()` leaves nobody behind that waits with the same identifier. -/
def SoleCopy (s : InboundPublishFlow) : Action → Prop
  | .ack i => ∀ message c, s.taken[i]? = some message → message.flow = some c →
      ∀ c', (s.setTaken i { message with resolved := true }).AwaitsAck c' → c'.1 ≠ c.1
  | _ => True

namespace Registered

variable {s next : InboundPublishFlow}

/-- No more waits than before. -/
theorem shrink (h : Registered s)
    (hflights : ∀ item ∈ next.inflightQos2In, item.2.delivered = false →
      item.2.recipient.message.ackCallback = none)
    (hframes : ∀ item ∈ next.frames, item.2.Plain)
    (hpending : ∀ pid ∈ s.pendingAckQos2In, pid ∈ next.pendingAckQos2In)
    (hawaits : ∀ c, next.AwaitsAck c → s.AwaitsAck c ∨ c.1 ∈ next.pendingAckQos2In) :
    Registered next :=
  ⟨hflights, hframes, fun c hc => (hawaits c hc).elim (fun hold => hpending _ (h.pending c hold)) id⟩

theorem emit (h : Registered s) (event : InboundEvent) : Registered (s.emit event) :=
  ⟨h.flights, h.frames, h.pending⟩

/-- A task turns to something that waits for nothing. -/
theorem working (h : Registered s) {frame : Frame} (hplain : frame.Plain)
    (hflow : frame.flow = none) : RegisteredFrame s frame :=
  ⟨h, hplain, fun c hc => by rw [hflow] at hc; cases hc⟩

end Registered

namespace Registered

variable {s next : InboundPublishFlow}

/-- A message that is acknowledged is taken off, and nobody else waits with its identifier. -/
theorem ack (h : Registered s) {i : Nat} {message : Message} (hsole : SoleCopy s (.ack i))
    (htaken : s.taken[i]? = some message) : Registered (s.ack i message) := by
  -- the marked message waits for nothing
  have hmarked : ∀ marked : Message, marked.resolved = true → ∀ c,
      (s.setTaken i marked).AwaitsAck c → s.AwaitsAck c := by
    rintro marked hresolved c (hqueued | ⟨other, hother, hflow⟩ | hframe)
    · exact .inl hqueued
    · rcases List.mem_or_eq_of_mem_set hother with hold | rfl
      · exact .inr (.inl ⟨other, hold, hflow⟩)
      · rw [Message.flow, if_pos hresolved] at hflow
        cases hflow
    · exact .inr (.inr hframe)
  cases hresolved : message.resolved with
  | true =>
      have hsame : s.ack i message = s := by simp [InboundPublishFlow.ack, hresolved]
      rw [hsame]
      exact h
  | false =>
      rcases s.ack_cases i message with heq | ⟨marked, hmark, -, -, heq | ⟨pid, -, -, heq⟩⟩ |
        ⟨pid, subscription, hcallback, heq⟩
      · rw [heq]
        exact h
      · rw [heq]
        exact h.shrink h.flights h.frames (fun _ hp => hp) fun c hc => .inl (hmarked marked hmark c hc)
      · rw [heq]
        exact h.shrink h.flights h.frames (fun _ hp => hp) fun c hc => .inl (hmarked marked hmark c hc)
      · rw [heq]
        have hflow : message.flow = some (pid, message.seq) := by
          simp [Message.flow, hresolved, hcallback, pubrecFlow]
        refine ⟨fun item hitem hdelivered => ?_, h.frames, fun c hc => ?_⟩
        · rcases OrderedDict.mem_of_mem_set hitem with hold | rfl
          · exact h.flights item hold hdelivered
          · cases hdelivered
        · have hne := hsole message _ htaken hflow c hc
          exact Finset.mem_erase.mpr ⟨hne, h.pending c (hmarked _ rfl c hc)⟩

/-- The rules of `pending_ack_qos2_in`. -/
theorem rules : FlowRules SoleCopy Registered fun s _ frame => RegisteredFrame s frame where
  take := by
    intro s o frame h hframe
    have hmem := OrderedDict.mem_of_get hframe
    refine ⟨?_, h.frames _ hmem, fun c hc => h.pending c (.inr (.inr ⟨o, frame, hframe, hc⟩))⟩
    refine h.shrink h.flights (fun item hitem => h.frames item (OrderedDict.mem_of_mem_pop hitem))
      (fun _ hp => hp) fun c hc => .inl ?_
    rcases hc with hqueued | htaken | ⟨owner, other, hget, hflow⟩
    · exact .inl hqueued
    · exact .inr (.inl htaken)
    · rw [OrderedDict.get_pop] at hget
      split at hget
      · cases hget
      · exact .inr (.inr ⟨owner, other, hget, hflow⟩)
  store := by
    intro s o frame h _ _
    refine h.shrink h.flights (fun item hitem => ?_) (fun _ hp => hp) fun c hc => ?_
    · rcases OrderedDict.mem_of_mem_set hitem with hold | rfl
      · exact h.frames item hold
      · exact h.plain
    · rcases hc with hqueued | htaken | ⟨owner, other, hget, hflow⟩
      · exact .inl (.inl hqueued)
      · exact .inl (.inr (.inl htaken))
      · rw [OrderedDict.get_set] at hget
        split at hget
        · cases hget
          exact .inr (h.awaits c hflow)
        · exact .inl (.inr (.inr ⟨owner, other, hget, hflow⟩))
  enter _ h := h.working trivial rfl
  leave h := h.toRegistered
  raise _ h := h.working trivial rfl
  endReader h := ⟨h.flights, h.frames, h.pending⟩
  endTask h := h.toRegistered
  pause h := h.working trivial rfl
  resume := by
    intro s o recipient h
    cases recipient with
    | none => exact h.working trivial rfl
    | some recipient => exact h.working ⟨h.plain, fun hne => absurd rfl hne⟩ rfl
  request h _ := (h.emit _).working (by unfold afterDelivery; split <;> trivial)
    (afterDelivery_flow _ _)
  nobody h _ _ := h.working (by unfold afterDelivery; split <;> trivial) (afterDelivery_flow _ _)
  refuse h _ _ := (h.emit _).working trivial rfl
  offer h _ _ _ := ⟨h.emit _, h.plain, h.awaits⟩
  put := by
    intro s o recipient entry ackCallback puback h _
    refine Registered.working ?_ (by unfold afterDelivery; split <;> trivial)
      (afterDelivery_flow _ _)
    refine h.shrink h.flights h.frames (fun _ hp => hp) fun c hc => ?_
    rcases hc with ⟨item, hitem, hflow⟩ | htaken | hframe
    · rcases List.mem_append.mp hitem with hold | hnew
      · exact .inl (.inl ⟨item, hold, hflow⟩)
      · rw [List.mem_singleton.mp hnew] at hflow
        exact .inr (h.awaits c (withCallback_flow h.plain.1 _ _ hflow))
    · exact .inl (.inr (.inl htaken))
    · exact .inl (.inr (.inr hframe))
  withdraw := by
    intro s o recipient entry ackCallback puback found h hfound
    refine Registered.working ?_ trivial rfl
    refine h.shrink h.flights h.frames (fun _ hp => hp) fun c hc => ?_
    rcases hc with ⟨item, hitem, hflow⟩ | htaken | hframe
    · rcases List.mem_append.mp ((getNowait_mem hfound).2 item hitem) with hold | hnew
      · exact .inl (.inl ⟨item, hold, hflow⟩)
      · rw [List.mem_singleton.mp hnew] at hflow
        exact .inr (h.awaits c (withCallback_flow h.plain.1 _ _ hflow))
    · exact .inl (.inr (.inl htaken))
    · exact .inl (.inr (.inr hframe))
  puback := by
    intro s o seq packetId h
    have hcompleted : Registered (s.complete packetId (.sentPuback seq packetId)) :=
      ⟨h.flights, h.frames, h.pending⟩
    exact hcompleted.working trivial rfl
  replay _ h := ⟨h.flights, h.frames, h.pending⟩
  quiet _ h := h.emit _
  get := by
    intro s queue found hfound h
    obtain ⟨hmem, hrest⟩ := getNowait_mem hfound
    refine h.shrink h.flights h.frames (fun _ hp => hp) fun c hc => .inl ?_
    rcases hc with ⟨item, hitem, hflow⟩ | ⟨message, hmessage, hflow⟩ | hframe
    · exact .inl ⟨item, hrest item hitem, hflow⟩
    · rcases List.mem_append.mp hmessage with hold | hnew
      · exact .inr (.inl ⟨message, hold, hflow⟩)
      · rw [List.mem_singleton.mp hnew] at hflow
        exact .inl ⟨_, hmem, hflow⟩
    · exact .inr (.inr hframe)
  ack hsole htaken h := h.ack hsole htaken
  index _ h := ⟨h.flights, h.frames, h.pending⟩
  detach := by
    intro s filters queue _ h
    refine h.shrink h.flights h.frames (fun _ hp => hp) fun c hc => .inl ?_
    rcases hc with ⟨item, hitem, hflow⟩ | hrest
    · exact .inl ⟨item, (List.mem_filter.mp hitem).1, hflow⟩
    · exact .inr hrest
  arrive _ _ h := by
    rw [arrived_frame]
    exact ⟨h.flights, h.frames, h.pending⟩
  exceed _ _ h := h.emit _
  resend _ h := h.emit _
  pubrelUnknown _ _ _ h := (h.emit _).emit _
  pubrelKnown := by
    intro s packet write flight _ _ hget h
    refine Registered.working ?_ ?_ rfl
    · exact ⟨fun item hitem => h.flights item (OrderedDict.mem_of_mem_pop hitem), h.frames,
        h.pending⟩
    · cases hdelivered : flight.delivered with
      | true => trivial
      | false => exact h.flights _ (OrderedDict.mem_of_get hget) hdelivered
  route := by
    intro s o received recipient ackCallback puback hselects _ hbegins _ h
    have hnone : pubrecFlow recipient.message.seq ackCallback = none := by
      rcases hbegins with ⟨-, rfl, -⟩ | ⟨-, pid, -, ⟨-, rfl, -⟩ | ⟨-, rfl, -⟩⟩ <;> rfl
    refine (h.emit _).working ⟨?_, fun hne => absurd hnone hne⟩ hnone
    rw [hselects.message]
    rfl
  routeNowhere _ h := h.emit _
  routeRefused _ _ h := (h.emit _).emit _
  accept := by
    intro s received recipient pid hselects _ _ h
    refine ⟨fun item hitem hdelivered => ?_, h.frames, h.pending⟩
    rcases OrderedDict.mem_of_mem_set hitem with hold | rfl
    · exact h.flights item hold hdelivered
    · rw [hselects.message]
      rfl
  acceptManual := by
    intro s o received recipient pid hselects _ _ _ h
    refine ⟨?_, ⟨?_, fun _ => rfl⟩, fun c hc => ?_⟩
    · exact h.shrink h.flights h.frames (fun _ hp => Finset.mem_insert_of_mem hp)
        fun c hc => .inl hc
    · rw [hselects.message]
      rfl
    · cases hc
      exact Finset.mem_insert_self _ _

end Registered

/-! ## Counting copies -/

/-- The weight of a copy, if there is one. -/
def flowWeight (weight : Int × Nat → Nat) (copy : Option (Int × Nat)) : Nat := copy.elim 0 weight

/-- The message in delivery. -/
def ReplayPhase.inDelivery : ReplayPhase → Option (Int × Nat)
  | .delivering _ _ current => current.flow
  | _ => none

/-- The copies in the hands of a task. -/
def ReplayPhase.copies (weight : Int × Nat → Nat) (phase : ReplayPhase) : Nat :=
  phase.tally (fun received => flowWeight weight received.flow) +
    flowWeight weight phase.inDelivery

namespace Replay

variable (weight : Int × Nat → Nat) {replay : Replay} {b t : Nat}

/-- The copies in delivery. -/
def inDelivery (replay : Replay) : Nat :=
  tally (fun task => flowWeight weight task.phase.inDelivery) replay.tasks

/-- The copies in the buffers and in the hands of the tasks. -/
def copies (replay : Replay) : Nat :=
  replay.held (fun received => flowWeight weight received.flow) + replay.inDelivery weight

/-- A task moves on. -/
theorem copies_setPhase {task : ReplayTask} (h : replay.tasks[t]? = some task)
    (phase : ReplayPhase) :
    (replay.setPhase t phase).copies weight + task.phase.copies weight =
      replay.copies weight + phase.copies weight := by
  have hheld := held_setPhase (fun received => flowWeight weight received.flow) h phase
  have hcurrent := tally_modify (fun task : ReplayTask => flowWeight weight task.phase.inDelivery)
    h fun task => { task with phase }
  unfold copies ReplayPhase.copies
  change (replay.setPhase t phase).inDelivery weight + _ =
    replay.inDelivery weight + flowWeight weight phase.inDelivery at hcurrent
  omega

/-- A change of a buffer outside its messages. -/
theorem copies_modifyBuffer_same {f : ReplayBuffer → ReplayBuffer}
    (h : ∀ buffer, (f buffer).publishes = buffer.publishes) :
    (replay.modifyBuffer b f).copies weight = replay.copies weight := by
  unfold copies
  rw [held_modifyBuffer_same _ h]
  rfl

/-- A new task has no copy. -/
theorem copies_addTask (buffer : Nat) (expires : Bool) :
    (replay.addTask buffer expires).copies weight = replay.copies weight := by
  have hcurrent : (replay.addTask buffer expires).inDelivery weight = replay.inDelivery weight := by
    simp [inDelivery, addTask, ReplayPhase.inDelivery, flowWeight]
  unfold copies
  rw [held_addTask, hcurrent]

theorem copies_addBuffer : replay.addBuffer.copies weight = replay.copies weight := by
  unfold copies
  rw [held_addBuffer]
  rfl

theorem copies_cancel (t : Nat) : (replay.cancel t).copies weight = replay.copies weight := by
  have hcurrent : (replay.cancel t).inDelivery weight = replay.inDelivery weight := by
    by_cases ht : t < replay.tasks.length
    · have hmodify := tally_modify
        (fun task : ReplayTask => flowWeight weight task.phase.inDelivery)
        (List.getElem?_eq_getElem ht) fun task => { task with cancelRequested := true }
      exact Nat.add_right_cancel hmodify
    · unfold inDelivery cancel
      rw [List.modify_eq_self (by omega)]
  unfold copies
  rw [held_cancel, hcurrent]

theorem copies_cancelExpiration (replay : Replay) (b : Nat) :
    (replay.cancelExpiration b).copies weight = replay.copies weight := by
  have habsent : (replay.modifyBuffer b fun buffer =>
      { buffer with expiration := .absent }).copies weight = replay.copies weight :=
    copies_modifyBuffer_same weight fun _ => rfl
  unfold cancelExpiration
  simp only
  split
  · rw [copies_cancel, habsent]
  · exact habsent

theorem copies_endExpiration (replay : Replay) (b t : Nat) :
    (replay.endExpiration b t).copies weight = replay.copies weight :=
  copies_modifyBuffer_same weight fun _ => rfl

/-- A buffer gains or loses messages. -/
theorem copies_modifyBuffer (replay : Replay) (b : Nat) (f : ReplayBuffer → ReplayBuffer) :
    (replay.modifyBuffer b f).copies weight +
        tally (fun received => flowWeight weight received.flow) (replay.buffer b).publishes ≤
      replay.copies weight +
        tally (fun received => flowWeight weight received.flow) (f (replay.buffer b)).publishes := by
  by_cases hb : b < replay.buffers.length
  · have hheld := held_modifyBuffer (fun received => flowWeight weight received.flow) hb f
    have hcurrent : (replay.modifyBuffer b f).inDelivery weight = replay.inDelivery weight := rfl
    unfold copies
    omega
  · have hsame : replay.modifyBuffer b f = replay := by
      unfold modifyBuffer
      rw [List.modify_eq_self (by omega)]
    have hempty : (replay.buffer b).publishes = [] := by
      rw [buffer, List.getElem?_eq_none (by omega)]
      rfl
    rw [hsame, hempty, tally_nil]
    omega

/-- The lists of a task go back to the buffer. -/
theorem copies_release {task : ReplayTask} (ht : replay.tasks[t]? = some task) (b : Nat)
    (unmatched pending : List Received) :
    (replay.release b t unmatched pending).copies weight + task.phase.copies weight ≤
      replay.copies weight + tally (fun received => flowWeight weight received.flow) unmatched +
        tally (fun received => flowWeight weight received.flow) pending := by
  have hbuffer := copies_modifyBuffer weight replay b fun buffer =>
    { buffer with publishes := unmatched ++ pending ++ buffer.publishes, lock := none }
  have hphase := copies_setPhase weight
    (show (replay.modifyBuffer b fun buffer =>
      { buffer with
        publishes := unmatched ++ pending ++ buffer.publishes
        lock := none }).tasks[t]? = some task from ht) .finished
  change _ = _ + 0 at hphase
  simp only [tally_append] at hbuffer
  unfold release
  omega

end Replay

namespace InboundPublishFlow

variable (weight : Int × Nat → Nat)

/-- The copies in the queues and with the application. -/
def applicationCopies (s : InboundPublishFlow) : Nat :=
  tally (fun item => flowWeight weight item.2.flow) s.queued +
    tally (fun message => flowWeight weight message.flow) s.taken

/-- The copy in the hands of the read loop. -/
def readerCopies (s : InboundPublishFlow) : Nat :=
  flowWeight weight ((OrderedDict.get s.frames .reader).bind Frame.flow)

/-- All copies of messages whose flow waits for its PUBREC. -/
def copies (s : InboundPublishFlow) : Nat :=
  s.applicationCopies weight + s.readerCopies weight + s.replay.copies weight

/-- A greater weight finds no fewer copies. -/
theorem copies_mono {weight weight' : Int × Nat → Nat} (h : ∀ c, weight c ≤ weight' c)
    (s : InboundPublishFlow) : s.copies weight ≤ s.copies weight' := by
  have hflow : ∀ copy, flowWeight weight copy ≤ flowWeight weight' copy := by
    intro copy
    cases copy with
    | none => exact Nat.le_refl _
    | some c => exact h c
  have hreceived : ∀ items : List Received,
      tally (fun received => flowWeight weight received.flow) items ≤
        tally (fun received => flowWeight weight' received.flow) items :=
    fun items => tally_mono (fun received => hflow received.flow) items
  have hphase : ∀ phase : ReplayPhase, phase.tally (fun received => flowWeight weight received.flow) ≤
      phase.tally fun received => flowWeight weight' received.flow := by
    intro phase
    cases phase with
    | waiting => exact Nat.le_refl _
    | looping unmatched pending => exact Nat.add_le_add (hreceived _) (hreceived _)
    | delivering unmatched pending current => exact Nat.add_le_add (hreceived _) (hreceived _)
    | finished => exact Nat.le_refl _
  have hqueued := tally_mono (fun item : Nat × Message => hflow item.2.flow) s.queued
  have htaken := tally_mono (fun message : Message => hflow message.flow) s.taken
  have hreader := hflow ((OrderedDict.get s.frames .reader).bind Frame.flow)
  have hbuffers := tally_mono (fun buffer : ReplayBuffer => hreceived buffer.publishes)
    s.replay.buffers
  have htasks := tally_mono (fun task : ReplayTask => hphase task.phase) s.replay.tasks
  have hinDelivery := tally_mono (fun task : ReplayTask => hflow task.phase.inDelivery)
    s.replay.tasks
  unfold copies applicationCopies readerCopies Replay.copies Replay.held Replay.inDelivery
  omega

end InboundPublishFlow

/-! ## The calls for one message -/

theorem resumed_plain {frame : Frame} (h : frame.Plain) (ok : Bool) : (resumed frame ok).Plain := by
  unfold resumed
  split
  · split
    · rename_i next
      cases next with
      | none => trivial
      | some recipient => exact ⟨h, fun hne => absurd rfl hne⟩
    · exact h
  · trivial

theorem resumed_flow (frame : Frame) (ok : Bool) :
    (resumed frame ok).flow = none ∨ (resumed frame ok).flow = frame.flow := by
  unfold resumed
  split
  · split
    · rename_i next
      cases next <;> exact .inl rfl
    · exact .inr rfl
  · exact .inl rfl

/-- The calls for one message leave its copy where it is, or put it and are done. -/
structure MovesCopy (s : InboundPublishFlow) (frame : Frame) (x : InboundPublishFlow × Frame) :
    Prop where
  same : ∃ unacknowledged queued log, x.1 = { s with unacknowledged, queued, log }
  accepted : ∀ seq pid, .accepted seq pid ∈ x.1.log → .accepted seq pid ∈ s.log
  copy : ((x.2.flow = none ∨ x.2.flow = frame.flow) ∧
      ∀ weight, x.1.applicationCopies weight ≤ s.applicationCopies weight) ∨
    (x.2 = .returned ∧
      ∀ weight, x.1.applicationCopies weight ≤
        s.applicationCopies weight + flowWeight weight frame.flow)
  plain : x.2.Plain

namespace MovesCopy

variable {s : InboundPublishFlow} {frame : Frame} {x : InboundPublishFlow × Frame}

/-- A message in its queue waits for `ack()` through the callback it was put with. -/
theorem applicationCopies_push (s : InboundPublishFlow) {recipient : InboundRecipient}
    (hnone : recipient.message.ackCallback = none) (entry : SubscriptionEntry)
    (ackCallback : Option AckCallback) (weight : Int × Nat → Nat) :
    tally (fun item => flowWeight weight item.2.flow)
        (s.push entry.queue (withCallback recipient.message entry ackCallback)).queued ≤
      tally (fun item => flowWeight weight item.2.flow) s.queued +
        flowWeight weight (pubrecFlow recipient.message.seq ackCallback) := by
  have hnew : flowWeight weight (withCallback recipient.message entry ackCallback).flow ≤
      flowWeight weight (pubrecFlow recipient.message.seq ackCallback) := by
    cases hflow : (withCallback recipient.message entry ackCallback).flow with
    | none => exact Nat.zero_le _
    | some c => rw [withCallback_flow hnone entry ackCallback hflow]
  simp only [push, tally_append, tally_cons, tally_nil]
  omega

/-- A delivery hands the copy on, or is done with it. -/
theorem advance_delivering {recipient : InboundRecipient} {ackCallback : Option AckCallback}
    {puback : Option Int} (write : WriteOutcome)
    (hplain : (Frame.delivering recipient ackCallback puback).Plain) :
    MovesCopy s (.delivering recipient ackCallback puback)
      (advance write (s, .delivering recipient ackCallback puback)) := by
  have hafter : (afterDelivery recipient.message.seq puback).Plain := by
    unfold afterDelivery
    split <;> trivial
  simp only [advance, deliver]
  split
  · refine ⟨⟨_, _, _, rfl⟩, fun seq pid hmem => ?_, .inl ⟨.inl (afterDelivery_flow _ _),
      fun _ => Nat.le_refl _⟩, hafter⟩
    exact (List.mem_cons.mp hmem).resolve_left fun h => by cases h
  · exact ⟨⟨_, _, _, rfl⟩, fun _ _ hmem => hmem, .inl ⟨.inl (afterDelivery_flow _ _),
      fun _ => Nat.le_refl _⟩, hafter⟩
  · split
    · refine ⟨⟨_, _, _, rfl⟩, fun seq pid hmem => ?_, .inl ⟨.inl rfl, fun _ => Nat.le_refl _⟩,
        trivial⟩
      exact (List.mem_cons.mp hmem).resolve_left fun h => by cases h
    · refine ⟨⟨_, _, _, rfl⟩, fun seq pid hmem => ?_, .inl ⟨.inr rfl, fun _ => Nat.le_refl _⟩,
        hplain⟩
      exact (List.mem_cons.mp hmem).resolve_left fun h => by cases h

/-- A put moves the copy to the queue, or drops it with the message. -/
theorem advance_putting {recipient : InboundRecipient} {entry : SubscriptionEntry}
    {ackCallback : Option AckCallback} {puback : Option Int} (write : WriteOutcome)
    (hplain : (Frame.putting recipient entry ackCallback puback).Plain) :
    MovesCopy s (.putting recipient entry ackCallback puback)
      (advance write (s, .putting recipient entry ackCallback puback)) := by
  have hpush := applicationCopies_push s hplain.1 entry ackCallback
  simp only [advance]
  split
  · exact ⟨⟨_, _, _, rfl⟩, fun _ _ hmem => hmem, .inl ⟨.inr rfl, fun _ => Nat.le_refl _⟩, hplain⟩
  · unfold finishPut
    simp only
    split
    · refine ⟨⟨_, _, _, rfl⟩, fun seq pid hmem => ?_, .inr ⟨rfl, fun weight => ?_⟩, trivial⟩
      · exact (List.mem_cons.mp hmem).resolve_left fun h => by cases h
      · obtain ⟨found, hfound⟩ := getNowait_push s entry.queue
          (withCallback recipient.message entry ackCallback)
        obtain ⟨before, after, hqueued, hrest, -⟩ := getNowait_split hfound
        have hless := hpush weight
        rw [hqueued] at hless
        simp only [hfound, Option.elim_some, hrest, applicationCopies, emit, Frame.flow]
        simp only [tally_append, tally_cons] at hless ⊢
        omega
    · have hmoved : ∀ weight,
          (s.push entry.queue (withCallback recipient.message entry ackCallback)).applicationCopies
              weight ≤ s.applicationCopies weight +
            flowWeight weight (Frame.putting recipient entry ackCallback puback).flow := by
        intro weight
        have hless := hpush weight
        unfold applicationCopies
        change _ + tally _ s.taken ≤ _
        simp only [Frame.flow]
        omega
      refine ⟨⟨_, _, _, rfl⟩, fun seq pid hmem => ?_, ?_, by unfold afterDelivery; split <;> trivial⟩
      · exact (List.mem_cons.mp hmem).resolve_left fun h => by cases h
      · by_cases hflow : pubrecFlow recipient.message.seq ackCallback = none
        · refine .inl ⟨.inl (afterDelivery_flow _ _), fun weight => ?_⟩
          have hless := hmoved weight
          simp only [Frame.flow, hflow, flowWeight, Option.elim_none, Nat.add_zero] at hless
          exact hless
        · refine .inr ⟨?_, hmoved⟩
          simp only
          rw [hplain.2 hflow]
          rfl

theorem advance (write : WriteOutcome) (hplain : frame.Plain) :
    MovesCopy s frame (InboundPublishFlow.advance write (s, frame)) := by
  cases frame with
  | delivering recipient ackCallback puback => exact advance_delivering write hplain
  | putting recipient entry ackCallback puback => exact advance_putting write hplain
  | completing seq packetId =>
      refine ⟨⟨_, _, _, rfl⟩, fun other pid hmem => ?_, .inl ⟨.inl ?_, fun _ => Nat.le_refl _⟩, ?_⟩
      · exact (List.mem_cons.mp hmem).resolve_left fun h => by cases h
      · cases write <;> rfl
      · cases write <;> trivial
  | sending next =>
      exact ⟨⟨_, _, _, rfl⟩, fun _ _ hmem => hmem, .inl ⟨.inl rfl, fun _ => Nat.le_refl _⟩, hplain⟩
  | returned =>
      exact ⟨⟨_, _, _, rfl⟩, fun _ _ hmem => hmem, .inl ⟨.inl rfl, fun _ => Nat.le_refl _⟩, hplain⟩
  | raised e =>
      exact ⟨⟨_, _, _, rfl⟩, fun _ _ hmem => hmem, .inl ⟨.inl rfl, fun _ => Nat.le_refl _⟩, hplain⟩

theorem andAdvance (h : MovesCopy s frame x) (write : WriteOutcome) :
    MovesCopy s frame (InboundPublishFlow.advance write x) := by
  have hnext : MovesCopy x.1 x.2 (InboundPublishFlow.advance write (x.1, x.2)) := advance write h.plain
  obtain ⟨unacknowledged, queued, log, hsame⟩ := h.same
  obtain ⟨unacknowledged', queued', log', hsame'⟩ := hnext.same
  refine ⟨⟨unacknowledged', queued', log', ?_⟩,
    fun seq pid hmem => h.accepted seq pid (hnext.accepted seq pid hmem), ?_, hnext.plain⟩
  · change (InboundPublishFlow.advance write (x.1, x.2)).1 = _
    rw [hsame', hsame]
  · rcases h.copy with ⟨hflow, hless⟩ | ⟨hreturned, hless⟩
    · rcases hnext.copy with ⟨hflow', hless'⟩ | ⟨hreturned', hless'⟩
      · refine .inl ⟨?_, fun weight => Nat.le_trans (hless' weight) (hless weight)⟩
        rcases hflow' with hnone | heq
        · exact .inl hnone
        · change (InboundPublishFlow.advance write (x.1, x.2)).2.flow = none ∨
            (InboundPublishFlow.advance write (x.1, x.2)).2.flow = frame.flow
          rw [heq]
          exact hflow
      · refine .inr ⟨hreturned', fun weight => ?_⟩
        have hweight : flowWeight weight x.2.flow ≤ flowWeight weight frame.flow := by
          rcases hflow with hnone | heq
          · rw [hnone]
            exact Nat.zero_le _
          · rw [heq]
        exact Nat.le_trans (hless' weight) (Nat.add_le_add (hless weight) hweight)
    · -- a task that is done does nothing more
      have hdone : InboundPublishFlow.advance write x = x := by
        obtain ⟨s', frame'⟩ := x
        cases hreturned
        rfl
      rw [hdone]
      exact .inr ⟨hreturned, hless⟩

/-- The calls up to the suspension or the end of the task. -/
theorem settle (write : WriteOutcome) (hplain : frame.Plain) :
    MovesCopy s frame (InboundPublishFlow.settle write (s, frame)) :=
  ((advance write hplain).andAdvance write).andAdvance write

end MovesCopy

end Zmqtt
