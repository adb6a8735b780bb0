import Zmqtt.LiveFlows

/-!
# The order in which the application reads

The read loop handles one packet at a time.  So without a resumed session the messages of one
subscription are read in the order in which they were handed over: at their arrival, or, for
QoS 2 with automatic acknowledgement, at their PUBREL.  A full queue, a write that suspends
and a detached subscription delay or drop messages; they do not reorder them.
-/

namespace Zmqtt

open InboundPublishFlow Tally

/-! ## Lines -/

section Lines

variable {κ α : Type} {R : κ × α → κ × α → Prop} {read before after : List (κ × α)} {item : κ × α}

/-- The first item of a key overtakes items of other keys only. -/
theorem pairwise_take (hR : ∀ a b, a.1 ≠ b.1 → R a b)
    (h : (read ++ (before ++ item :: after)).Pairwise R)
    (hbefore : ∀ other ∈ before, other.1 ≠ item.1) :
    (read ++ [item] ++ (before ++ after)).Pairwise R := by
  rw [List.append_assoc, List.singleton_append]
  rw [List.pairwise_append, List.pairwise_append, List.pairwise_cons] at h
  obtain ⟨hread, ⟨hfirst, ⟨hitem, hlast⟩, hcross⟩, hall⟩ := h
  refine List.pairwise_append.mpr ⟨hread, List.pairwise_cons.mpr ⟨fun other hother => ?_, ?_⟩,
    fun a ha b hb => hall a ha b ?_⟩
  · rcases List.mem_append.mp hother with hother | hother
    · exact hR item other (Ne.symm (hbefore other hother))
    · exact hitem other hother
  · exact List.pairwise_append.mpr ⟨hfirst, hlast,
      fun a ha b hb => hcross a ha b (List.mem_cons_of_mem _ hb)⟩
  · rcases List.mem_cons.mp hb with rfl | hb
    · exact List.mem_append_right _ List.mem_cons_self
    · exact (List.mem_append.mp hb).elim (List.mem_append_left _)
        fun hb => List.mem_append_right _ (List.mem_cons_of_mem _ hb)

/-- Items of a positive number differ where each number occurs at most once. -/
theorem pairwise_of_tally (number : α → Nat) {items : List α}
    (h : ∀ n, n ≠ 0 → tally (fun a => unit n (number a)) items ≤ 1) :
    items.Pairwise fun a b => number a ≠ 0 → number a ≠ number b := by
  induction items with
  | nil => exact .nil
  | cons a rest ih =>
      refine .cons (fun b hb hne heq => ?_) (ih fun n hn => Nat.le_trans (Nat.le_add_left _ _) (h n hn))
      have hle := h (number a) hne
      have hb' := le_tally (fun c => unit (number a) (number c)) hb
      rw [tally_cons] at hle
      simp only [← heq, unit_eq_one] at hle hb'
      omega

end Lines

/-! ## Moments of the hand-over -/

/-- A message that is handed over after its PUBREL. -/
def Message.afterPubrel (message : Message) : Bool :=
  decide (message.qos = .exactlyOnce) && message.ackCallback.isNone

/-- The message that a PUBREL releases. -/
def InboundEvent.released? : InboundEvent → Option Nat
  | .sentPubcomp _ _ (some flight) =>
      if flight.delivered then none else some flight.recipient.message.seq
  | _ => none

/-- The messages that were handed over after their PUBREL, in the order of the PUBRELs. -/
def released (log : List InboundEvent) : List Nat :=
  (log.filterMap InboundEvent.released?).reverse

/-- The order of two messages that are handed over at their arrival, or after their PUBREL. -/
def Message.Precedes (log : List InboundEvent) (a b : Message) : Prop :=
  (a.afterPubrel = false → b.afterPubrel = false → a.seq < b.seq) ∧
    (a.afterPubrel = true → b.afterPubrel = true → [a.seq, b.seq].Sublist (released log))

/-- The order of two messages of one queue; those of earlier connections come first. -/
def QueueOrder (log : List InboundEvent) (a b : Nat × Message) : Prop :=
  a.1 = b.1 → (b.2.seq = 0 → a.2.seq = 0) ∧ (a.2.seq ≠ 0 → a.2.Precedes log b.2)

theorem released_cons {event : InboundEvent} (h : event.released? = none)
    (log : List InboundEvent) : released (event :: log) = released log := by
  unfold released
  rw [List.filterMap_cons_none h]

theorem released_append (new log : List InboundEvent) :
    (released log).Sublist (released (new ++ log)) := by
  unfold released
  rw [List.filterMap_append, List.reverse_append]
  exact List.sublist_append_left _ _

theorem QueueOrder.later {log : List InboundEvent} {a b : Nat × Message} (h : QueueOrder log a b)
    (new : List InboundEvent) : QueueOrder (new ++ log) a b := by
  intro hqueue
  obtain ⟨hold, hprecedes⟩ := h hqueue
  refine ⟨hold, fun hne => ?_⟩
  obtain ⟨harrival, hpubrel⟩ := hprecedes hne
  exact ⟨harrival, fun ha hb => (hpubrel ha hb).trans (released_append new log)⟩

/-- The flow, and what was read from the queues, oldest first. -/
structure QueueRun where
  flow : InboundPublishFlow
  read : List (Nat × Message) := []

/-- What a step takes out of a queue. -/
def InboundPublishFlow.reads (s : InboundPublishFlow) : Action → List (Nat × Message)
  | .get queue => (getNowait queue s.queued).elim [] fun found => [(queue, found.1)]
  | _ => []

def QueueRun.step (r : QueueRun) (a : Action) : Option QueueRun :=
  (r.flow.step a).map fun next => { flow := next, read := r.read ++ r.flow.reads a }

/-! ## The invariant -/

/-- The message that a task still has to hand over, as it is put. -/
def Frame.message? : Frame → Option Message
  | .delivering recipient ackCallback _ => some { recipient.message with ackCallback }
  | .putting recipient entry ackCallback _ => some (withCallback recipient.message entry ackCallback)
  | .sending (some recipient) => some { recipient.message with ackCallback := none }
  | _ => none

/-- The callback of a message is for a subscription with manual acknowledgement. -/
def Frame.Fitting : Frame → Prop
  | .delivering recipient ackCallback _ => recipient.message.ackCallback = none ∧
      (ackCallback.isSome → recipient.autoAck = false)
  | .putting recipient _ _ _ => recipient.message.ackCallback = none
  | .sending (some recipient) => recipient.message.ackCallback = none
  | _ => True

namespace InboundPublishFlow

variable {s next : InboundPublishFlow} {read : List (Nat × Message)} {frame : Frame}

/-- The message of a PUBLISH that has arrived. -/
def FromWire (s : InboundPublishFlow) (message : Message) : Prop :=
  ∃ received, .receivedPublish received ∈ s.log ∧
    message = { makeMessage received with ackCallback := message.ackCallback }

/-- A message that may be put next. -/
structure MayPut (read : List (Nat × Message)) (s : InboundPublishFlow) (message : Message) :
    Prop where
  positive : message.seq ≠ 0
  arrived : message.seq < s.nextSeq
  content : s.FromWire message
  latest : message.afterPubrel = false → ∀ item ∈ read ++ s.queued,
    item.2.afterPubrel = false → item.2.seq < message.seq
  last : message.afterPubrel = true → ∃ earlier, released s.log = earlier ++ [message.seq] ∧
    ∀ item ∈ read ++ s.queued, item.2.seq ≠ 0 → item.2.afterPubrel = true → item.2.seq ∈ earlier

/-- A QoS 2 message that waits for its PUBREL. -/
def Waits (s : InboundPublishFlow) (message : Message) : Prop :=
  message.qos = .exactlyOnce ∧ message.ackCallback = none ∧ message.seq ≠ 0 ∧
    message.seq < s.nextSeq ∧ s.FromWire message

/-- The queues are in order. -/
structure InOrder (read : List (Nat × Message)) (s : InboundPublishFlow) : Prop where
  order : (read ++ s.queued).Pairwise (QueueOrder s.log)
  arrived : ∀ item ∈ read ++ s.queued, item.2.seq < s.nextSeq
  content : ∀ item ∈ read ++ s.queued, item.2.seq ≠ 0 → s.FromWire item.2
  released : ∀ item ∈ read ++ s.queued, item.2.seq ≠ 0 → item.2.afterPubrel = true →
    item.2.seq ∈ released s.log
  flights : ∀ item ∈ s.inflightQos2In, item.2.delivered = false → s.Waits item.2.recipient.message
  counted : ∀ n, n ≠ 0 → tally (fun item => unit n item.2.seq) (read ++ s.queued) ≤
    tally (handOver n).event s.log

/-- A task that handles a message is inside `frame`. -/
structure Holding (read : List (Nat × Message)) (s : InboundPublishFlow) (frame : Frame) : Prop where
  inOrder : s.InOrder read
  fitting : frame.Fitting
  next : ∀ message, frame.message? = some message → s.MayPut read message

theorem FromWire.later {message : Message} (h : s.FromWire message) (new : List InboundEvent)
    (hlog : next.log = new ++ s.log) : next.FromWire message := by
  obtain ⟨received, hmem, heq⟩ := h
  exact ⟨received, hlog ▸ List.mem_append_right _ hmem, heq⟩

/-- Messages are dropped, identifiers change, and events happen that release nothing. -/
theorem InOrder.thin (h : s.InOrder read) (hnext : next.nextSeq = s.nextSeq)
    (hqueued : next.queued.Sublist s.queued) (new : List InboundEvent)
    (hlog : next.log = new ++ s.log)
    (hflights : ∀ item ∈ next.inflightQos2In, item ∈ s.inflightQos2In ∨ item.2.delivered = true) :
    next.InOrder read where
  order := by
    have hsub : (read ++ next.queued).Sublist (read ++ s.queued) := hqueued.append_left read
    rw [hlog]
    exact (h.order.sublist hsub).imp fun hab => QueueOrder.later hab new
  arrived item hitem := by
    rw [hnext]
    exact h.arrived item ((hqueued.append_left read).subset hitem)
  content item hitem hne :=
    (h.content item ((hqueued.append_left read).subset hitem) hne).later new hlog
  released item hitem hne hafter := by
    rw [hlog]
    exact (released_append new s.log).subset
      (h.released item ((hqueued.append_left read).subset hitem) hne hafter)
  flights item hitem hdelivered := by
    rcases hflights item hitem with hold | hnew
    · obtain ⟨hqos, hcallback, hne, hlt, hcontent⟩ := h.flights item hold hdelivered
      exact ⟨hqos, hcallback, hne, hnext ▸ hlt, hcontent.later new hlog⟩
    · rw [hdelivered] at hnew
      cases hnew
  counted n hne := by
    have hless := tally_sublist (fun item => unit n item.2.seq) (hqueued.append_left read)
    have hmore : tally (handOver n).event (new ++ s.log) = tally (handOver n).event new +
        tally (handOver n).event s.log := tally_append ..
    have hold := h.counted n hne
    rw [hlog]
    omega

theorem MayPut.thin {message : Message} (h : s.MayPut read message)
    (hnext : next.nextSeq = s.nextSeq) (hqueued : next.queued.Sublist s.queued)
    (new : List InboundEvent) (hnew : next.log = new ++ s.log)
    (hlog : released next.log = released s.log) : next.MayPut read message where
  positive := h.positive
  arrived := hnext ▸ h.arrived
  content := h.content.later new hnew
  latest hkind item hitem := h.latest hkind item ((hqueued.append_left read).subset hitem)
  last hkind := by
    obtain ⟨earlier, heq, hall⟩ := h.last hkind
    exact ⟨earlier, hlog.trans heq,
      fun item hitem => hall item ((hqueued.append_left read).subset hitem)⟩

/-! ### A put -/

/-- The message stands behind all others. -/
theorem MayPut.behind {message : Message} (h : s.MayPut read message) {item : Nat × Message}
    (hitem : item ∈ read ++ s.queued) (queue : Nat) : QueueOrder s.log item (queue, message) := by
  intro _
  refine ⟨fun hzero => absurd hzero h.positive, fun hne => ⟨fun hfirst hlast => ?_,
    fun hfirst hlast => ?_⟩⟩
  · exact h.latest hlast item hitem hfirst
  · obtain ⟨earlier, heq, hall⟩ := h.last hlast
    rw [heq]
    exact (List.singleton_sublist.mpr (hall item hitem hne hfirst)).append (.refl _)

theorem InOrder.push (h : s.InOrder read) {message : Message} (hput : s.MayPut read message)
    (queue oid : Nat) (detached : Bool) :
    ((s.push queue message).emit (.put message.seq oid detached)).InOrder read := by
  have hlater : Zmqtt.released (.put message.seq oid detached :: s.log) = Zmqtt.released s.log :=
    released_cons rfl s.log
  have hitems : read ++ (s.queued ++ [(queue, message)]) =
      read ++ s.queued ++ [(queue, message)] := (List.append_assoc ..).symm
  have hflights : ∀ item ∈ s.inflightQos2In, item.2.delivered = false →
      ((s.push queue message).emit (.put message.seq oid detached)).Waits item.2.recipient.message := by
    intro item hitem hdelivered
    obtain ⟨hqos, hcallback, hne, hlt, hcontent⟩ := h.flights item hitem hdelivered
    exact ⟨hqos, hcallback, hne, hlt, hcontent.later [_] rfl⟩
  refine ⟨?_, fun item hitem => ?_, fun item hitem hne => ?_, fun item hitem hne hafter => ?_,
    hflights, fun n hne => ?_⟩
  · change (read ++ (s.queued ++ [(queue, message)])).Pairwise _
    rw [hitems]
    refine List.pairwise_append.mpr ⟨h.order.imp fun hab => QueueOrder.later hab [_],
      List.pairwise_singleton _ _, fun item hitem other hother => ?_⟩
    rw [List.mem_singleton.mp hother]
    exact QueueOrder.later (hput.behind hitem queue) [_]
  · change item ∈ read ++ (s.queued ++ [(queue, message)]) at hitem
    rw [hitems] at hitem
    rcases List.mem_append.mp hitem with hold | hnew
    · exact h.arrived item hold
    · rw [List.mem_singleton.mp hnew]
      exact hput.arrived
  · change item ∈ read ++ (s.queued ++ [(queue, message)]) at hitem
    rw [hitems] at hitem
    rcases List.mem_append.mp hitem with hold | hnew
    · exact (h.content item hold hne).later [_] rfl
    · rw [List.mem_singleton.mp hnew]
      exact hput.content.later [_] rfl
  · change item ∈ read ++ (s.queued ++ [(queue, message)]) at hitem
    rw [hitems] at hitem
    change item.2.seq ∈ Zmqtt.released (.put message.seq oid detached :: s.log)
    rw [hlater]
    rcases List.mem_append.mp hitem with hold | hnew
    · exact h.released item hold hne hafter
    · rw [List.mem_singleton.mp hnew] at hafter ⊢
      obtain ⟨earlier, heq, -⟩ := hput.last hafter
      rw [heq]
      exact List.mem_append_right _ List.mem_cons_self
  · change tally _ (read ++ (s.queued ++ [(queue, message)])) ≤
      unit n message.seq + tally (handOver n).event s.log
    rw [hitems, tally_append, tally_cons, tally_nil]
    exact (Nat.add_comm ..).trans_le (Nat.add_le_add_left (h.counted n hne) _)

/-! ### A task that handles a message -/

theorem Holding.nothing (h : s.InOrder read) (hfitting : frame.Fitting)
    (hnone : frame.message? = none) : Holding read s frame :=
  ⟨h, hfitting, fun message heq => by rw [hnone] at heq; cases heq⟩

theorem InOrder.afterDelivery (h : s.InOrder read) (seq : Nat) (puback : Option Int) :
    Holding read s (afterDelivery seq puback) := by
  cases puback <;> exact .nothing h trivial rfl

theorem InOrder.emit (h : s.InOrder read) (event : InboundEvent) : (s.emit event).InOrder read :=
  h.thin rfl (.refl _) [event] rfl fun _ hitem => .inl hitem

theorem Holding.emit (h : Holding read s frame) {event : InboundEvent}
    (hevent : event.released? = none) : Holding read (s.emit event) frame :=
  ⟨h.inOrder.emit event, h.fitting,
    fun message heq => (h.next message heq).thin rfl (.refl _) [event] rfl
      (released_cons hevent s.log)⟩

/-- The message of a delivery, as it is put in the queue of a subscription. -/
theorem withCallback_fitting {recipient : InboundRecipient} {entry : SubscriptionEntry}
    {filter : Str} {ackCallback : Option AckCallback} {puback : Option Int}
    (h : (Frame.delivering recipient ackCallback puback).Fitting)
    (hrequest : recipient.request = none) (hentry : recipient.subscription = some (filter, entry)) :
    withCallback recipient.message entry ackCallback = { recipient.message with ackCallback } := by
  obtain ⟨hmessage, hmanual⟩ := h
  unfold withCallback
  cases ackCallback with
  | none =>
      simp only [Option.isSome_none, Bool.and_false, Bool.false_eq_true, if_false]
      rw [← hmessage]
  | some callback =>
      have hauto := hmanual rfl
      simp only [InboundRecipient.autoAck, hrequest, hentry, Option.isSome_none, Option.elim_some,
        Bool.false_or] at hauto
      simp [hauto]

theorem Holding.deliver {recipient : InboundRecipient} {ackCallback : Option AckCallback}
    {puback : Option Int} (h : Holding read s (.delivering recipient ackCallback puback)) :
    Holding read (s.deliver recipient ackCallback puback).1
      (s.deliver recipient ackCallback puback).2 := by
  unfold InboundPublishFlow.deliver
  cases hrequest : recipient.request with
  | some request => exact (h.inOrder.emit _).afterDelivery _ _
  | none =>
      cases hsubscription : recipient.subscription with
      | none => exact h.inOrder.afterDelivery _ _
      | some item =>
          simp only
          split
          · exact .nothing (h.inOrder.emit _) trivial rfl
          · have hoffered : Holding read (s.emit (.offered recipient.message.seq item.2.oid))
                (.delivering recipient ackCallback puback) := h.emit rfl
            refine ⟨hoffered.inOrder, h.fitting.1, fun message heq => hoffered.next message ?_⟩
            rw [← heq]
            exact congrArg some (withCallback_fitting h.fitting hrequest hsubscription).symm

theorem Holding.finishPut {recipient : InboundRecipient} {entry : SubscriptionEntry}
    {ackCallback : Option AckCallback} {puback : Option Int}
    (h : Holding read s (.putting recipient entry ackCallback puback)) :
    Holding read (s.finishPut recipient entry ackCallback puback).1
      (s.finishPut recipient entry ackCallback puback).2 := by
  have hpushed : ∀ detached, ((s.push entry.queue (withCallback recipient.message entry
      ackCallback)).emit (.put recipient.message.seq entry.oid detached)).InOrder read := by
    intro detached
    have hput := h.inOrder.push (h.next _ rfl) entry.queue entry.oid detached
    rwa [withCallback_seq] at hput
  unfold InboundPublishFlow.finishPut
  simp only
  split
  · refine .nothing ((hpushed true).thin rfl ?_ [] rfl fun _ hitem => .inl hitem) trivial rfl
    obtain ⟨found, hfound⟩ := getNowait_push s entry.queue
      (withCallback recipient.message entry ackCallback)
    obtain ⟨before, after, hitems, hrest, -⟩ := getNowait_split hfound
    change ((getNowait entry.queue _).elim _ Prod.snd).Sublist
      (s.push entry.queue (withCallback recipient.message entry ackCallback)).queued
    rw [hfound, Option.elim_some, hrest, hitems]
    exact (List.sublist_cons_self _ after).append_left before
  · exact (hpushed false).afterDelivery _ _

theorem Holding.advance (write : WriteOutcome) (h : Holding read s frame) :
    Holding read (advance write (s, frame)).1 (advance write (s, frame)).2 := by
  cases frame with
  | delivering recipient ackCallback puback => exact h.deliver
  | putting recipient entry ackCallback puback =>
      unfold InboundPublishFlow.advance
      simp only
      split
      · exact h
      · exact h.finishPut
  | completing seq packetId =>
      have hcompleted : (s.complete packetId (.sentPuback seq packetId)).InOrder read :=
        h.inOrder.thin rfl (.refl _) [.sentPuback seq packetId] rfl
          fun _ hitem => .inl hitem
      cases write <;> exact .nothing hcompleted trivial rfl
  | sending recipient => exact h
  | returned => exact h
  | raised error => exact h

theorem Holding.settle (write : WriteOutcome) (h : Holding read s frame) :
    Holding read (settle write (s, frame)).1 (settle write (s, frame)).2 :=
  ((h.advance write).advance write).advance write

/-- Frames, subscriptions and the end of the read loop do not matter. -/
theorem Holding.of_same (h : Holding read s frame) (hnext : next.nextSeq = s.nextSeq)
    (hqueued : next.queued = s.queued) (hlog : next.log = s.log)
    (hflights : next.inflightQos2In = s.inflightQos2In) : Holding read next frame := by
  have hsub : next.queued.Sublist s.queued := hqueued ▸ .refl _
  refine ⟨h.inOrder.thin hnext hsub [] hlog fun _ hitem => .inl (hflights ▸ hitem),
    h.fitting, fun message heq => (h.next message heq).thin hnext hsub [] hlog (by rw [hlog])⟩

/-- A suspended task goes on, or its `await` raises. -/
theorem Holding.resumed (h : Holding read s frame) (ok : Bool) :
    Holding read s (resumed frame ok) := by
  unfold InboundPublishFlow.resumed
  cases ok with
  | false => exact .nothing h.inOrder trivial rfl
  | true =>
      cases frame with
      | sending recipient =>
          cases recipient with
          | none => exact .nothing h.inOrder trivial rfl
          | some recipient => exact ⟨h.inOrder, ⟨h.fitting, fun hsome => by cases hsome⟩, h.next⟩
      | delivering recipient ackCallback puback => exact h
      | putting recipient entry ackCallback puback => exact h
      | completing seq packetId => exact h
      | returned => exact h
      | raised error => exact h

/-! ### Packets -/

/-- A PUBLISH arrives. -/
theorem InOrder.arrive (h : s.InOrder read) (packet : Publish) :
    (s.arrived packet).InOrder read := by
  have hreceived : (InboundEvent.receivedPublish
      { seq := s.nextSeq, publish := packet }).released? = none := rfl
  rw [arrived_frame]
  refine ⟨h.order.imp fun hab => QueueOrder.later hab [_],
    fun item hitem => Nat.lt_succ_of_lt (h.arrived item hitem),
    fun item hitem hne => (h.content item hitem hne).later [_] rfl, fun item hitem hne hafter => ?_,
    fun item hitem hdelivered => ?_, fun n hne => ?_⟩
  · rw [show Zmqtt.released _ = _ from released_cons hreceived s.log]
    exact h.released item hitem hne hafter
  · obtain ⟨hqos, hcallback, hne, hlt, hcontent⟩ := h.flights item hitem hdelivered
    exact ⟨hqos, hcallback, hne, Nat.lt_succ_of_lt hlt, hcontent.later [_] rfl⟩
  · exact Nat.le_trans (h.counted n hne) (Nat.le_add_left _ _)

/-- What has just arrived is later than what the queues have. -/
theorem InOrder.mayPut (h : s.InOrder read) (hpositive : 0 < s.nextSeq) (packet : Publish)
    {message : Message} (hmessage : message = { makeMessage { seq := s.nextSeq, publish := packet }
      with ackCallback := message.ackCallback }) (hkind : message.afterPubrel = false) :
    (s.arrived packet).MayPut read message := by
  have hseq : message.seq = s.nextSeq := by
    rw [hmessage]
    rfl
  rw [arrived_frame]
  refine ⟨?_, ?_, ⟨_, List.mem_cons_self, hmessage⟩, fun _ item hitem _ => ?_, fun hafter => ?_⟩
  · rw [hseq]
    exact Nat.pos_iff_ne_zero.mp hpositive
  · rw [hseq]
    exact Nat.lt_succ_self _
  · rw [hseq]
    exact h.arrived item hitem
  · rw [hkind] at hafter
    cases hafter

/-- The flow of a message begins that has just arrived. -/
theorem InOrder.deliverReplay (h : s.InOrder read) {received : Received}
    {recipient : InboundRecipient} (write : WriteOutcome)
    (hmessage : recipient.message = makeMessage received) (hne : received.seq ≠ 0)
    (hlt : received.seq < s.nextSeq)
    (hreceived : .receivedPublish received ∈ s.log)
    (hput : ∀ message : Message,
      message = { makeMessage received with ackCallback := message.ackCallback } →
      message.afterPubrel = false → s.MayPut read message) :
    Holding read (s.deliverReplay received recipient write).1
      (s.deliverReplay received recipient write).2 := by
  have hseq : recipient.message.seq = received.seq := by rw [hmessage]; rfl
  have hqos' : recipient.message.qos = received.publish.qos := by rw [hmessage]; rfl
  have hcallback : recipient.message.ackCallback = none := by rw [hmessage]; rfl
  have hdelivering : ∀ {ackCallback puback}, (ackCallback.isSome → recipient.autoAck = false) →
      ({ recipient.message with ackCallback } : Message).afterPubrel = false →
      Holding read (s.emit (.routed received.seq)) (.delivering recipient ackCallback puback) := by
    intro ackCallback puback hmanual hkind
    have hholding : Holding read s (.delivering recipient ackCallback puback) := by
      refine ⟨h, ⟨hcallback, hmanual⟩, fun message heq => ?_⟩
      cases heq
      exact hput _ (by rw [hmessage]) hkind
    exact hholding.emit rfl
  unfold InboundPublishFlow.deliverReplay
  cases hqos : received.publish.qos with
  | atMostOnce =>
      refine hdelivering (fun hsome => by cases hsome) ?_
      simp [Message.afterPubrel, hqos', hqos]
  | atLeastOnce =>
      simp only [deliverQos1Publish]
      split
      · exact .nothing (h.emit _) trivial rfl
      · split
        · refine hdelivering (fun hsome => by cases hsome) ?_
          simp [Message.afterPubrel, hqos', hqos]
        · rename_i hauto
          refine hdelivering (fun _ => Bool.not_eq_true _ ▸ hauto) ?_
          simp [Message.afterPubrel, hqos', hqos]
  | exactlyOnce =>
      simp only [acceptQos2Publish]
      split
      · exact .nothing (h.emit _) trivial rfl
      · exact .nothing ((h.emit _).emit _) trivial rfl
      · rename_i pid _ _
        split
        · have haccepted : ((s.emit (.routed received.seq)).emit
              (.accepted received.seq pid)).InOrder read := (h.emit _).emit _
          have hset : ({ (s.emit (.routed received.seq)).emit (.accepted received.seq pid) with
              inflightQos2In := OrderedDict.set s.inflightQos2In pid
                { packetId := pid, recipient } }).InOrder read := by
            refine ⟨haccepted.order, haccepted.arrived, haccepted.content, haccepted.released,
              fun item hitem hdelivered => ?_, haccepted.counted⟩
            rcases OrderedDict.mem_of_mem_set hitem with hold | rfl
            · exact haccepted.flights item hold hdelivered
            · refine ⟨hqos'.trans hqos, hcallback, hseq ▸ hne, hseq ▸ hlt, received,
                List.mem_cons_of_mem _ (List.mem_cons_of_mem _ hreceived), ?_⟩
              rw [hmessage]
          cases write <;> exact .nothing (hset.emit _) trivial rfl
        · rename_i hauto
          have hrouted : Holding read (s.emit (.routed received.seq))
              (.delivering recipient (some (.pubrec pid recipient.subscription)) none) :=
            hdelivering (fun _ => Bool.not_eq_true _ ▸ hauto) (by simp [Message.afterPubrel])
          have hpending : Holding read ((s.emit (.routed received.seq)).addPendingAck pid)
              (.delivering recipient (some (.pubrec pid recipient.subscription)) none) :=
            hrouted.of_same rfl rfl rfl rfl
          exact hpending.emit rfl

/-- `handle_publish` without a session. -/
theorem InOrder.handlePublish (h : s.InOrder read) (hsession : NoSession s)
    (hpositive : 0 < s.nextSeq) (packet : Publish) (claim : Option Nat) (write : WriteOutcome) :
    Holding read (s.handlePublish packet claim write).1 (s.handlePublish packet claim write).2 := by
  have harrived := h.arrive packet
  have hnothing : ∀ {t : InboundPublishFlow}, t.InOrder read →
      Holding read t (InboundPublishFlow.sent write none) :=
    fun ht => by cases write <;> exact .nothing ht trivial rfl
  rcases s.handlePublish_cases packet claim write with
    ⟨-, -, heq⟩ | ⟨-, e, heq⟩ | ⟨-, -, heq⟩ | ⟨-, -, pid, flight, -, -, heq⟩ | ⟨-, -, -, heq⟩
  · rw [heq]
    exact .nothing harrived trivial rfl
  · rw [heq]
    exact .nothing (harrived.emit _) trivial rfl
  · rw [heq]
    exact .nothing harrived trivial rfl
  · rw [heq]
    exact hnothing (harrived.emit _)
  · have hsame : NoSession (s.arrived packet) := by
      rw [NoSession, arrived_frame]
      exact hsession
    obtain ⟨routed, hrouted, hroute⟩ :=
      route_noSession hsame { seq := s.nextSeq, publish := packet } claim write
    have hnext : (s.arrived packet).nextSeq = s.nextSeq + 1 := by rw [arrived_frame]
    have hlog : .receivedPublish { seq := s.nextSeq, publish := packet } ∈ (s.arrived packet).log := by
      rw [arrived_frame]
      exact List.mem_cons_self
    rw [heq, hroute]
    rcases hrouted with rfl | rfl
    · refine harrived.deliverReplay write (selectRecipient_message _ _ _)
        (Nat.pos_iff_ne_zero.mp hpositive) (Nat.lt_of_lt_of_eq (Nat.lt_succ_self _) hnext.symm)
        hlog fun message hmessage hkind => ?_
      exact h.mayPut hpositive packet hmessage hkind
    · refine (harrived.emit _).deliverReplay write (selectRecipient_message _ _ _)
        (Nat.pos_iff_ne_zero.mp hpositive) (Nat.lt_of_lt_of_eq (Nat.lt_succ_self _) hnext.symm)
        (List.mem_cons_of_mem _ hlog) fun message hmessage hkind => ?_
      exact (h.mayPut hpositive packet hmessage hkind).thin rfl (.refl _) [_] rfl
        (released_cons rfl _)

/-- `handle_pubrel`. -/
theorem InOrder.handlePubrel (h : s.InOrder read) (packet : PubReply) (write : WriteOutcome) :
    Holding read (s.handlePubrel packet write).1 (s.handlePubrel packet write).2 := by
  have hreceived := h.emit (.receivedPubrel packet.packetId)
  unfold InboundPublishFlow.handlePubrel
  simp only
  split
  · cases write <;> exact .nothing (hreceived.emit _) trivial rfl
  · rename_i flight hget
    have hclosed : ((s.emit (.receivedPubrel packet.packetId)).closeFlight packet.packetId
        flight).InOrder read :=
      hreceived.thin rfl (.refl _) [.sentPubcomp packet.packetId 0 (some flight)] rfl
        fun item hitem => .inl (OrderedDict.mem_of_mem_pop hitem)
    cases hdelivered : flight.delivered with
    | true => cases write <;> exact .nothing hclosed trivial rfl
    | false =>
        have hwaits : s.Waits flight.recipient.message :=
          h.flights _ (OrderedDict.mem_of_get hget) hdelivered
        obtain ⟨hqos, hcallback, hne, hlt, hcontent⟩ := hwaits
        have hkind : ({ flight.recipient.message with ackCallback := none } : Message).afterPubrel =
            true := by simp [Message.afterPubrel, hqos]
        have hput : ((s.emit (.receivedPubrel packet.packetId)).closeFlight packet.packetId
            flight).MayPut read { flight.recipient.message with ackCallback := none } := by
          obtain ⟨received, hreceived, hmessage⟩ := hcontent
          refine ⟨hne, hlt, ⟨received, List.mem_cons_of_mem _ (List.mem_cons_of_mem _ hreceived), ?_⟩,
            fun hfalse => ?_, fun _ => ⟨Zmqtt.released s.log, ?_, h.released⟩⟩
          · rw [hmessage]
          · rw [hkind] at hfalse
            cases hfalse
          · have hevent : (InboundEvent.sentPubcomp packet.packetId 0 (some flight)).released? =
                some flight.recipient.message.seq := by simp [InboundEvent.released?, hdelivered]
            change Zmqtt.released (.sentPubcomp packet.packetId 0 (some flight) ::
              .receivedPubrel packet.packetId :: s.log) = _
            unfold Zmqtt.released
            rw [List.filterMap_cons_some hevent, List.reverse_cons]
            rfl
        have hnext : ∀ message, some { flight.recipient.message with ackCallback := none } =
            some message → ((s.emit (.receivedPubrel packet.packetId)).closeFlight packet.packetId
              flight).MayPut read message := by
          intro message heq
          cases heq
          exact hput
        cases write with
        | done => exact ⟨hclosed, ⟨hcallback, fun hsome => by cases hsome⟩, hnext⟩
        | suspended => exact ⟨hclosed, hcallback, hnext⟩
        | failed => exact .nothing hclosed trivial rfl

/-! ### Steps -/

/-- The invariant of a connection without a session. -/
structure Sequential (read : List (Nat × Message)) (s : InboundPublishFlow) : Prop where
  session : NoSession s
  started : 0 < s.nextSeq
  inOrder : s.InOrder read
  owners : ∀ item ∈ s.frames, item.1 = .reader
  frames : ∀ item ∈ s.frames, Holding read s item.2

namespace Sequential

theorem frames_nil (h : s.Sequential read) (hidle : OrderedDict.get s.frames .reader = none) :
    s.frames = [] := by
  rw [List.eq_nil_iff_forall_not_mem]
  intro item hitem
  have hkey := (OrderedDict.get_eq_none_iff s.frames .reader).mp hidle
  exact hkey (List.mem_map.mpr ⟨item, hitem, h.owners item hitem⟩)

/-- A handler of the read loop returned, raised, or is suspended. -/
theorem store {x : InboundPublishFlow × Frame} (hheld : Holding read x.1 x.2)
    (hsession : NoSession x.1) (hstarted : 0 < x.1.nextSeq) (hframes : x.1.frames = []) :
    (storeReader x).Sequential read := by
  obtain ⟨s, frame⟩ := x
  have hnone : ∀ (P : Owner × Frame → Prop), ∀ item ∈ s.frames, P item := by
    intro P item hitem
    rw [show s.frames = [] from hframes] at hitem
    cases hitem
  have hset : ({ s with frames := OrderedDict.set s.frames .reader frame }).Sequential read := by
    have hall : ∀ item ∈ OrderedDict.set s.frames .reader frame, item = (.reader, frame) :=
      fun item hitem => (OrderedDict.mem_of_mem_set hitem).elim (hnone (· = (.reader, frame)) item) id
    refine ⟨hsession, hstarted, hheld.inOrder.thin rfl (.refl _) [] rfl fun _ h => .inl h,
      fun item hitem => by rw [hall item hitem], fun item hitem => ?_⟩
    rw [hall item hitem]
    exact hheld.of_same rfl rfl rfl rfl
  cases frame with
  | returned => exact ⟨hsession, hstarted, hheld.inOrder, hnone _, hnone _⟩
  | raised error =>
      exact ⟨hsession, hstarted, hheld.inOrder.thin rfl (.refl _) [] rfl fun _ h => .inl h, hnone _,
        hnone _⟩
  | delivering recipient ackCallback puback => exact hset
  | putting recipient entry ackCallback puback => exact hset
  | completing seq packetId => exact hset
  | sending recipient => exact hset

end Sequential

theorem handlePublish_frames (hsession : NoSession s) (packet : Publish) (claim : Option Nat)
    (write : WriteOutcome) :
    (s.handlePublish packet claim write).1.frames = s.frames ∧
      (s.handlePublish packet claim write).1.nextSeq = s.nextSeq + 1 := by
  have harrived : (s.arrived packet).frames = s.frames ∧
      (s.arrived packet).nextSeq = s.nextSeq + 1 := by
    rw [arrived_frame]
    exact ⟨rfl, rfl⟩
  rcases s.handlePublish_cases packet claim write with
    ⟨-, -, heq⟩ | ⟨-, e, heq⟩ | ⟨-, -, heq⟩ | ⟨-, -, pid, flight, -, -, heq⟩ | ⟨-, -, -, heq⟩
  · rw [heq]
    exact harrived
  · rw [heq]
    exact harrived
  · rw [heq]
    exact harrived
  · rw [heq]
    exact harrived
  · have hsame : NoSession (s.arrived packet) := by
      rw [NoSession, arrived_frame]
      exact hsession
    obtain ⟨routed, hrouted, hroute⟩ :=
      route_noSession hsame { seq := s.nextSeq, publish := packet } claim write
    have haside := Aside.deliverReplay routed { seq := s.nextSeq, publish := packet }
      ((s.arrived packet).selectRecipient { seq := s.nextSeq, publish := packet } claim) write
    rw [heq, hroute, haside.frames, haside.nextSeq]
    rcases hrouted with rfl | rfl <;> exact harrived

theorem InOrder.ack (h : s.InOrder read) (i : Nat) (message : Message) :
    (s.ack i message).InOrder read ∧ (s.ack i message).queued = s.queued ∧
      Zmqtt.released (s.ack i message).log = Zmqtt.released s.log := by
  rcases s.ack_cases i message with heq | ⟨marked, -, -, -, heq | ⟨pid, -, -, heq⟩⟩ |
    ⟨pid, subscription, -, heq⟩
  · rw [heq]
    exact ⟨h, rfl, rfl⟩
  · rw [heq]
    exact ⟨h.thin rfl (.refl _) [] rfl fun _ hitem => .inl hitem, rfl, rfl⟩
  · rw [heq]
    refine ⟨h.thin rfl (.refl _) [.sentPuback message.seq pid, .acked message.seq] rfl
      fun _ hitem => .inl hitem, rfl, ?_⟩
    exact (released_cons rfl _).trans (released_cons rfl _)
  · rw [heq]
    refine ⟨h.thin rfl (.refl _) [.sentPubrec pid, .acked message.seq] rfl fun item hitem => ?_,
      rfl, ?_⟩
    · rcases OrderedDict.mem_of_mem_set hitem with hold | rfl
      · exact .inl hold
      · exact .inr rfl
    · exact (released_cons rfl _).trans (released_cons rfl _)

/-- A message is read. -/
theorem InOrder.get (h : s.InOrder read) {queue : Nat} {found : Message × List (Nat × Message)}
    (hfound : getNowait queue s.queued = some found) :
    ({ s with queued := found.2, taken := s.taken ++ [found.1] }).InOrder
      (read ++ [(queue, found.1)]) ∧
    ∀ item, item ∈ read ++ [(queue, found.1)] ++ found.2 ↔ item ∈ read ++ s.queued := by
  obtain ⟨before, after, hitems, hrest, hbefore⟩ := getNowait_split hfound
  have hmem : ∀ item, item ∈ read ++ [(queue, found.1)] ++ found.2 ↔ item ∈ read ++ s.queued := by
    intro item
    rw [hitems, hrest]
    simp only [List.mem_append, List.mem_cons]
    tauto
  refine ⟨⟨?_, fun item hitem => h.arrived item ((hmem item).mp hitem),
    fun item hitem => h.content item ((hmem item).mp hitem),
    fun item hitem => h.released item ((hmem item).mp hitem), h.flights, fun n hne => ?_⟩, hmem⟩
  · change (read ++ [(queue, found.1)] ++ found.2).Pairwise _
    have horder := h.order
    rw [hitems] at horder
    rw [hrest]
    exact pairwise_take (fun a b hne heq => absurd heq hne) horder hbefore
  · change tally _ (read ++ [(queue, found.1)] ++ found.2) ≤ _
    have hcounted := h.counted n hne
    rw [hitems] at hcounted
    rw [hrest]
    simp only [tally_append, tally_cons, tally_nil] at hcounted ⊢
    omega

namespace Sequential

/-- A step beside the packets: messages are dropped, and nothing is released. -/
theorem thin (h : s.Sequential read) (hsession : NoSession next)
    (hnext : next.nextSeq = s.nextSeq) (hinOrder : next.InOrder read)
    (hqueued : next.queued.Sublist s.queued) (new : List InboundEvent)
    (hnew : next.log = new ++ s.log) (hlog : Zmqtt.released next.log = Zmqtt.released s.log)
    (hframes : next.frames = s.frames) : next.Sequential read where
  session := hsession
  started := hnext ▸ h.started
  inOrder := hinOrder
  owners := hframes ▸ h.owners
  frames item hitem := by
    have hheld := h.frames item (hframes ▸ hitem)
    exact ⟨hinOrder, hheld.fitting,
      fun message heq => (hheld.next message heq).thin hnext hqueued new hnew hlog⟩

/-- **Step lemma.** -/
theorem step (h : s.Sequential read) {a : Action} (hstep : s.step a = some next) :
    next.Sequential (read ++ s.reads a) := by
  have hsession := (live_step h.session hstep).1
  have htasks : s.replay.tasks = [] := by rw [h.session]
  have hnone : s.reads a = [] → next.Sequential read → next.Sequential (read ++ s.reads a) := by
    intro heq hnext
    rwa [heq, List.append_nil]
  cases a with
  | publish packet claim write =>
      obtain ⟨hidle, heq⟩ := Option.ite_none_right_eq_some.mp hstep
      cases heq
      rw [readerIdle, Bool.and_eq_true, Option.isNone_iff_eq_none, Option.isNone_iff_eq_none] at hidle
      obtain ⟨hframes, hnextSeq⟩ := handlePublish_frames h.session packet claim write
      have haside := Aside.settle write (s.handlePublish packet claim write)
      have hheld := (h.inOrder.handlePublish h.session h.started packet claim write).settle write
      refine hnone rfl (store hheld ?_ ?_ ?_)
      · exact haside.replay.trans ((handlePublish_live h.session packet claim write).1.trans h.session)
      · rw [haside.nextSeq, hnextSeq]
        exact Nat.succ_pos _
      · rw [haside.frames, hframes]
        exact h.frames_nil hidle.2
  | pubrel packet write =>
      obtain ⟨hidle, heq⟩ := Option.ite_none_right_eq_some.mp hstep
      cases heq
      rw [readerIdle, Bool.and_eq_true, Option.isNone_iff_eq_none, Option.isNone_iff_eq_none] at hidle
      have haside := (Aside.handlePubrel s packet write).trans (.settle write _)
      have hheld := (h.inOrder.handlePubrel packet write).settle write
      refine hnone rfl (store hheld (haside.replay.trans h.session) ?_ ?_)
      · rw [haside.nextSeq]
        exact h.started
      · rw [haside.frames]
        exact h.frames_nil hidle.2
  | resumeReader ok write =>
      obtain ⟨frame, hframe, rfl⟩ := Option.map_eq_some_iff.mp hstep
      have hresumed := (h.frames _ (OrderedDict.mem_of_get hframe)).resumed ok
      have hpopped : Holding read { s with frames := OrderedDict.pop s.frames .reader }
          (InboundPublishFlow.resumed frame ok) := hresumed.of_same rfl rfl rfl rfl
      have haside := Aside.settle write
        ({ s with frames := OrderedDict.pop s.frames .reader }, InboundPublishFlow.resumed frame ok)
      refine hnone rfl (store (hpopped.settle write) (haside.replay.trans h.session) ?_ ?_)
      · rw [haside.nextSeq]
        exact h.started
      · rw [haside.frames, List.eq_nil_iff_forall_not_mem]
        intro item hitem
        obtain ⟨hmem, hne⟩ := List.mem_filter.mp hitem
        exact of_decide_eq_true hne (h.owners item hmem)
  | get queue =>
      obtain ⟨found, hfound, rfl⟩ := Option.map_eq_some_iff.mp hstep
      obtain ⟨hget, hmem⟩ := h.inOrder.get hfound
      have hreads : s.reads (.get queue) = [(queue, found.1)] := by
        simp only [reads, hfound, Option.elim_some]
      rw [hreads]
      refine ⟨hsession, h.started, hget, h.owners, fun item hitem => ?_⟩
      have hheld := h.frames item hitem
      refine ⟨hget, hheld.fitting, fun message heq => ?_⟩
      obtain ⟨hpositive, harrived, hcontent, hlatest, hlast⟩ := hheld.next message heq
      refine ⟨hpositive, harrived, hcontent, fun hkind other hother => hlatest hkind other
        ((hmem other).mp hother), fun hkind => ?_⟩
      obtain ⟨earlier, hreleased, hall⟩ := hlast hkind
      exact ⟨earlier, hreleased, fun other hother => hall other ((hmem other).mp hother)⟩
  | ack i =>
      obtain ⟨message, -, rfl⟩ := Option.map_eq_some_iff.mp hstep
      obtain ⟨hacked, hqueued, hreleased⟩ := h.inOrder.ack i message
      obtain ⟨-, hframes, hnextSeq, new, hnew, -⟩ := Aside.ack s i message
      exact hnone rfl
        (h.thin hsession hnextSeq hacked (hqueued ▸ .refl _) new hnew hreleased hframes)
  | index op =>
      cases hstep
      refine hnone rfl (h.thin hsession rfl ?_ (.refl _) [] rfl rfl rfl)
      exact h.inOrder.thin rfl (.refl _) [] rfl fun _ hitem => .inl hitem
  | detach filters queue =>
      cases hstep
      refine hnone rfl (h.thin hsession rfl ?_ List.filter_sublist [] rfl rfl rfl)
      exact h.inOrder.thin rfl List.filter_sublist [] rfl fun _ hitem => .inl hitem
  | drain =>
      have hstate : s.replay.state = .noSession := by rw [h.session]
      simp only [InboundPublishFlow.step, drain, hstate, Option.some.injEq] at hstep
      subst hstep
      exact hnone rfl h
  | clear =>
      have hstate : s.replay.state = .noSession := by rw [h.session]
      simp only [InboundPublishFlow.step, clear, hstate, Option.some.injEq] at hstep
      subst hstep
      exact hnone rfl h
  | expireReplay b =>
      have hbuffer : s.replay.buffer b = {} := by
        rw [h.session]
        rfl
      simp [InboundPublishFlow.step, expireReplay, hbuffer] at hstep
  | acquireLock t => simp [InboundPublishFlow.step, htasks] at hstep
  | deliverNext t claim write => simp [InboundPublishFlow.step, htasks] at hstep
  | resumeTask t ok write => simp [InboundPublishFlow.step, htasks] at hstep
  | cancel t => simp [InboundPublishFlow.step, htasks] at hstep

end Sequential

theorem sequential_start {config : Config} (hsession : config.sessionPresent = false) :
    (start config).Sequential [] := by
  have hold : ∀ item ∈ (start config).queued, item.2.seq = 0 := by
    intro item hitem
    obtain ⟨entry, -, rfl⟩ := List.mem_map.mp hitem
    rfl
  refine ⟨by rw [NoSession, start, hsession]; rfl, Nat.one_pos, ?_,
    fun _ hitem => absurd hitem List.not_mem_nil, fun _ hitem => absurd hitem List.not_mem_nil⟩
  refine ⟨?_, fun item hitem => ?_, fun item hitem hne => absurd (hold item hitem) hne,
    fun item hitem hne => absurd (hold item hitem) hne,
    fun _ hitem => absurd hitem List.not_mem_nil, fun n hne => ?_⟩
  · refine (List.pairwise_of_forall_mem_list fun a ha b hb _ => ?_)
    exact ⟨fun _ => hold a ha, fun hne => absurd (hold a ha) hne⟩
  · rw [hold item hitem]
    exact Nat.one_pos
  · have hzero : tally (fun item : Nat × Message => unit n item.2.seq) (start config).queued = 0 := by
      refine tally_eq_zero _ fun item hitem => ?_
      rw [hold item hitem]
      exact if_neg (Ne.symm hne)
    exact hzero.trans_le (Nat.zero_le _)

end InboundPublishFlow

/-! ## Runs -/

namespace QueueRun

def start (config : Config) : QueueRun where
  flow := InboundPublishFlow.start config

/-- **The application reads in order.**  In every run on a connection without a resumed
session, what is read is the content of a PUBLISH that arrived, and none is read twice.  Of two
messages of one queue that need no PUBREL the one that arrived first is read first; of two that
were handed over after their PUBREL the one whose PUBREL arrived first; and messages that an
earlier connection left in the queue are read before all others. -/
theorem queues_read_in_order (config : Config) (actions : List Action) (r : QueueRun)
    (hsession : config.sessionPresent = false)
    (hrun : Transition.run step (start config) actions = some r) :
    (∀ item ∈ r.read, item.2.seq ≠ 0 → r.flow.FromWire item.2) ∧
      r.read.Pairwise fun a b =>
        QueueOrder r.flow.log a b ∧ (a.2.seq ≠ 0 → a.2.seq ≠ b.2.seq) := by
  have hstep : ∀ (r : QueueRun) a next, r.flow.Sequential r.read ∧ Kept Done r.flow ∧
      (∀ seq, (handOver seq).spent r.flow ≤ routes seq r.flow.log) →
      r.step a = some next → next.flow.Sequential next.read ∧ Kept Done next.flow ∧
      (∀ seq, (handOver seq).spent next.flow ≤ routes seq next.flow.log) := by
    rintro r a next ⟨hsequential, hkept, hspent⟩ hstep
    obtain ⟨flow, hflow, rfl⟩ := Option.map_eq_some_iff.mp hstep
    refine ⟨hsequential.step hflow, hkept.step lasting_done (fun _ _ h => .inl h)
      (uninterrupted_of_noSession hsequential.session hflow)
      (.inr fun _ _ oid hrefused => .inr ⟨oid, hrefused⟩) hflow, fun seq => ?_⟩
    exact (handOver_sound seq).rules.step (hspent seq) trivial hflow
  obtain ⟨hsequential, hkept, hspent⟩ := Transition.invariant hstep
    ⟨sequential_start hsession, .start config, fun seq => (handOver_sound seq).initially config⟩ hrun
  have horder := hsequential.inOrder.order.sublist (List.sublist_append_left r.read r.flow.queued)
  have honce : ∀ n, n ≠ 0 → tally (fun item => unit n item.2.seq) r.read ≤ 1 := by
    intro n hn
    have hcounted := hsequential.inOrder.counted n hn
    have hle := hspent n
    have hroutes := hkept.routes_le_one n
    rw [tally_append] at hcounted
    unfold Ledger.spent at hle
    omega
  have hdistinct := pairwise_of_tally (fun item : Nat × Message => item.2.seq) honce
  refine ⟨fun item hitem => hsequential.inOrder.content item (List.mem_append_left _ hitem), ?_⟩
  exact horder.and hdistinct

/-- A QoS 2 message is overtaken by the messages that arrive before its PUBREL. -/
theorem queues_read_in_order_sample :
    ∃ r, Transition.run step (start {})
        [.index (.add (str "t") sampleEntry), .publish (samplePublish .exactlyOnce 7) none .done,
          .publish (samplePublish .atLeastOnce 8) none .done,
          .publish (samplePublish .atLeastOnce 9) none .done, .pubrel { packetId := 7 } .done,
          .get 0, .get 0, .get 0] = some r ∧
      r.read.map (fun item => item.2.seq) = [2, 3, 1] ∧
      r.read.Pairwise fun a b =>
        QueueOrder r.flow.log a b ∧ (a.2.seq ≠ 0 → a.2.seq ≠ b.2.seq) := by
  have hrun : ∃ r, Transition.run step (start {})
      [.index (.add (str "t") sampleEntry), .publish (samplePublish .exactlyOnce 7) none .done,
        .publish (samplePublish .atLeastOnce 8) none .done,
        .publish (samplePublish .atLeastOnce 9) none .done, .pubrel { packetId := 7 } .done,
        .get 0, .get 0, .get 0] = some r ∧ r.read.map (fun item => item.2.seq) = [2, 3, 1] :=
    ⟨_, rfl, by decide⟩
  obtain ⟨r, hr, hread⟩ := hrun
  exact ⟨r, hr, hread, (queues_read_in_order {} _ r rfl hr).2⟩

end QueueRun

end Zmqtt
