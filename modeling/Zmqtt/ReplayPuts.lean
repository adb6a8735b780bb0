import Zmqtt.BufferViews

/-!
# What is put in the queues, and when

`PutsOrdered` says of a flow and of what was put so far: messages of one topic were put in
their order of arrival, and before what still waits in a buffer.  A message that is held
keeps later messages of its topic from being delivered live, since `accept` holds them
too.  So every step of the read loop keeps `PutsOrdered`.
-/

namespace Zmqtt

open InboundPublishFlow

/-! ## What a step puts in the queues -/

namespace InboundPublishFlow

variable {s next : InboundPublishFlow} {write : WriteOutcome} {recipient : InboundRecipient}

/-- What was appended to the queues. -/
def newPuts (s next : InboundPublishFlow) : List (Nat × Message) :=
  next.queued.drop s.queued.length

theorem newPuts_of_eq (h : next.queued = s.queued) : newPuts s next = [] := by
  unfold newPuts
  rw [h, List.drop_length]

theorem newPuts_append {puts : List (Nat × Message)} (h : next.queued = s.queued ++ puts) :
    newPuts s next = puts := by
  unfold newPuts
  rw [h, List.drop_left]

/-- Taking a message leaves the queues one message shorter. -/
theorem length_getNowait {queue : Nat} {queued : List (Nat × Message)}
    {found : Message × List (Nat × Message)} (h : getNowait queue queued = some found) :
    found.2.length + 1 = queued.length := by
  induction queued generalizing found with
  | nil => cases h
  | cons first rest ih =>
      rw [getNowait] at h
      split at h
      · cases h
        rfl
      · obtain ⟨inner, hinner, rfl⟩ := Option.map_eq_some_iff.mp h
        have hlength := ih hinner
        simp only [List.length_cons]
        omega

/-- How the calls for one message end: with the message done and put at most once, or
suspended before a full queue.  `hput` is what holds when the message has a queue. -/
def Handled (s : InboundPublishFlow) (recipient : InboundRecipient) (hput : Prop)
    (x : InboundPublishFlow × Frame) : Prop :=
  (x.2.Settled ∧ newPuts s x.1 = []) ∨
  (x.2.Settled ∧ hput ∧ ∃ queue message, newPuts s x.1 = [(queue, message)] ∧
    message.seq = recipient.message.seq ∧ message.topic = recipient.message.topic) ∨
  (hput ∧ newPuts s x.1 = [] ∧ ∃ entry ackCallback puback,
    x.2 = .putting recipient entry ackCallback puback ∧ x.1.full entry.queue = true)

variable {hput : Prop} {x : InboundPublishFlow × Frame}

/-- Nothing more is called then. -/
theorem Handled.advance (h : Handled s recipient hput x) :
    InboundPublishFlow.advance write x = x := by
  obtain ⟨next, frame⟩ := x
  rcases h with ⟨hsettled, -⟩ | ⟨hsettled, -⟩ | ⟨-, -, entry, ackCallback, puback, hframe, hfull⟩
  · exact advance_settled write next hsettled
  · exact advance_settled write next hsettled
  · simp only at hframe hfull
    rw [hframe, InboundPublishFlow.advance, if_pos hfull]

theorem advance_afterDelivery_queued (s : InboundPublishFlow) (seq : Nat) (puback : Option Int) :
    (advance write (s, afterDelivery seq puback)).1.queued = s.queued := by
  cases puback <;> rfl

/-- The last call after a message was handed over. -/
theorem handled_afterDelivery (hwrite : write ≠ .failed) (hsame : next.queued = s.queued)
    (seq : Nat) (puback : Option Int) :
    Handled s recipient hput (advance write (next, afterDelivery seq puback)) := by
  refine .inl ⟨(advance_afterDelivery hwrite next seq puback).1, newPuts_of_eq ?_⟩
  rw [advance_afterDelivery_queued, hsame]

/-- `queue.put` and what follows. -/
theorem handled_putting (hwrite : write ≠ .failed) (hP : hput) (hsame : next.queued = s.queued)
    (entry : SubscriptionEntry) (ackCallback : Option AckCallback) (puback : Option Int) :
    Handled s recipient hput
      (advance write (advance write (next, .putting recipient entry ackCallback puback))) := by
  by_cases hfull : next.full entry.queue = true
  · have hstays : advance write (next, .putting recipient entry ackCallback puback) =
        (next, .putting recipient entry ackCallback puback) := if_pos hfull
    rw [hstays, hstays]
    exact .inr (.inr ⟨hP, newPuts_of_eq hsame, entry, ackCallback, puback, rfl, hfull⟩)
  · have hfirst : advance write (next, .putting recipient entry ackCallback puback) =
        next.finishPut recipient entry ackCallback puback := if_neg hfull
    rw [hfirst]
    unfold finishPut
    simp only
    split
    · -- the entry was detached meanwhile: one message of its queue is taken out again
      obtain ⟨found, hfound⟩ := getNowait_push next entry.queue
        (withCallback recipient.message entry ackCallback)
      rw [hfound, advance_settled write _ (.inl rfl)]
      refine .inl ⟨.inl rfl, ?_⟩
      have hlength := length_getNowait hfound
      unfold push at hlength
      simp only [List.length_append, List.length_singleton] at hlength
      unfold newPuts
      exact List.drop_eq_nil_of_le (by rw [← hsame]; exact (Nat.succ.inj hlength).le)
    · refine .inr (.inl ⟨(advance_afterDelivery hwrite _ _ puback).1, hP, entry.queue,
        withCallback recipient.message entry ackCallback, newPuts_append ?_, ?_⟩)
      · rw [advance_afterDelivery_queued, ← hsame]
        rfl
      · unfold withCallback
        split <;> exact ⟨rfl, rfl⟩

theorem settle_putting (hwrite : write ≠ .failed) (hP : hput) (hsame : next.queued = s.queued)
    (entry : SubscriptionEntry) (ackCallback : Option AckCallback) (puback : Option Int) :
    Handled s recipient hput
      (settle write (next, .putting recipient entry ackCallback puback)) := by
  have hhandled : Handled s recipient hput
      (advance write (advance write (next, .putting recipient entry ackCallback puback))) :=
    handled_putting hwrite hP hsame entry ackCallback puback
  unfold settle
  rw [hhandled.advance]
  exact hhandled

/-- A message on its way to its recipient. -/
theorem settle_delivering_handled (hwrite : write ≠ .failed) (hsame : next.queued = s.queued)
    (hP : recipient.request = none → recipient.subscription.isSome = true → hput)
    (ackCallback : Option AckCallback) (puback : Option Int) :
    Handled s recipient hput (settle write (next, .delivering recipient ackCallback puback)) := by
  have hfirst : advance write (next, .delivering recipient ackCallback puback) =
      next.deliver recipient ackCallback puback := rfl
  unfold settle
  rw [hfirst]
  unfold deliver
  cases hrequest : recipient.request with
  | some request =>
      have hhandled : Handled s recipient hput (advance write
          (next.emit (.requestDelivered recipient.message.seq request),
            afterDelivery recipient.message.seq puback)) := by
        apply handled_afterDelivery hwrite
        exact hsame
      simp only
      rw [hhandled.advance]
      exact hhandled
  | none =>
      cases hsubscription : recipient.subscription with
      | none =>
          have hhandled : Handled s recipient hput (advance write
              (next, afterDelivery recipient.message.seq puback)) :=
            handled_afterDelivery hwrite hsame _ _
          simp only
          rw [hhandled.advance]
          exact hhandled
      | some item =>
          simp only
          split
          · rw [advance_settled write _ (.inl rfl), advance_settled write _ (.inl rfl)]
            exact .inl ⟨.inl rfl, newPuts_of_eq hsame⟩
          · apply handled_putting hwrite (hP hrequest (by rw [hsubscription]; rfl))
            exact hsame

/-- The delivery of a QoS 1 message. -/
theorem deliverReplay_qos1 (s : InboundPublishFlow) {received : Received}
    (hqos : received.publish.qos = .atLeastOnce) (hid : received.publish.packetId.isSome = true) :
    ∃ ackCallback puback, s.deliverReplay received recipient write =
      (s.emit (.routed received.seq), .delivering recipient ackCallback puback) := by
  obtain ⟨pid, hpid⟩ := Option.isSome_iff_exists.mp hid
  unfold deliverReplay
  rw [hqos]
  simp only [deliverQos1Publish, hpid]
  split
  · exact ⟨_, _, rfl⟩
  · exact ⟨_, _, rfl⟩

/-- A message that goes to a subscription finds none of its topic in the buffer. -/
theorem selectRecipientOrBuffer_topic {received : Received} {claim : Option Nat}
    {recipient : InboundRecipient}
    (h : s.selectRecipientOrBuffer received claim = (s, .recipient recipient))
    (hrequest : (s.selectRecipient received claim).request = none) {b : Nat}
    (hstate : s.replay.state = .buffered b) :
    OrderedDict.get (s.replay.buffer b).topics received.publish.topic = none := by
  unfold selectRecipientOrBuffer at h
  simp only [hstate, hrequest, Option.isSome_none, Bool.false_eq_true, if_false] at h
  split at h
  · rename_i hlive
    exact Option.isNone_iff_eq_none.mp (Bool.and_eq_true_iff.mp hlive).2
  · exact absurd (congrArg Prod.snd h) (hold_ne_recipient _ _ _ _ _)

theorem storeReader_queued (x : InboundPublishFlow × Frame) :
    (storeReader x).queued = x.1.queued := by
  obtain ⟨next, frame⟩ := x
  cases frame <;> rfl

theorem storeTask_queued (t : Nat) (task : ReplayTask) (unmatched pending : List Received)
    (current : Received) (x : InboundPublishFlow × Frame) :
    (storeTask t task unmatched pending current x).queued = x.1.queued := by
  have hraise : ∀ (s : InboundPublishFlow) (unmatched pending : List Received),
      (s.raiseFromTask t task unmatched pending).queued = s.queued := by
    intro s unmatched pending
    unfold raiseFromTask
    split
    · simp only
      split <;> rfl
    · rfl
  obtain ⟨next, frame⟩ := x
  cases frame with
  | returned =>
      simp only [storeTask]
      split
      · exact hraise _ _ _
      · rfl
  | raised error => exact hraise _ _ _
  | _ => rfl

theorem ack_queued (s : InboundPublishFlow) (i : Nat) (message : Message) :
    (s.ack i message).queued = s.queued := by
  unfold ack
  split
  · rfl
  · split
    · rfl
    · simp only
      split <;> rfl
    · rfl

end InboundPublishFlow

/-! ## Messages of one topic -/

variable {s next : InboundPublishFlow} {puts : List (Nat × Message)}

/-- A message of the read loop that may be put next: later than what was put of its
topic, and none of its topic waits. -/
structure Unopposed (s : InboundPublishFlow) (puts : List (Nat × Message)) (message : Message) :
    Prop where
  known : message.seq < s.nextSeq
  last : ∀ put ∈ puts, put.2.topic = message.topic → put.2.seq < message.seq
  alone : ∀ x, s.replay.Waits x → x.publish.topic ≠ message.topic

/-- The frame in which the read loop can be suspended. -/
def ReaderFrame (s : InboundPublishFlow) (puts : List (Nat × Message)) (frame : Frame) : Prop :=
  frame = .sending none ∨ ∃ recipient entry ackCallback puback,
    frame = .putting recipient entry ackCallback puback ∧ Unopposed s puts recipient.message

/-- What was put of a topic stands in the order of arrival and before what waits. -/
structure PutsOrdered (s : InboundPublishFlow) (puts : List (Nat × Message)) : Prop where
  views : s.replay.Views 0 (s.nextSeq - 1)
  started : 0 < s.nextSeq
  plain : ∀ x, s.replay.Waits x →
    x.publish.qos = .atLeastOnce ∧ x.publish.packetId.isSome = true
  sorted : puts.Pairwise fun a b => a.2.topic = b.2.topic → a.2.seq < b.2.seq
  before : ∀ put ∈ puts, ∀ x, s.replay.Waits x → x.publish.topic = put.2.topic →
    put.2.seq < x.seq
  arrived : ∀ put ∈ puts, put.2.seq < s.nextSeq
  reader : ∀ frame, OrderedDict.get s.frames .reader = some frame → ReaderFrame s puts frame
  tasks : ∀ t frame, OrderedDict.get s.frames (.task t) = some frame → frame = .sending none

theorem Unopposed.change {message : Message} (h : Unopposed s puts message)
    (hseq : s.nextSeq ≤ next.nextSeq)
    (hwaits : ∀ x, next.replay.Waits x → s.replay.Waits x) : Unopposed next puts message :=
  ⟨Nat.lt_of_lt_of_le h.known hseq, h.last, fun x hx => h.alone x (hwaits x hx)⟩

theorem ReaderFrame.change {frame : Frame} (h : ReaderFrame s puts frame)
    (hseq : s.nextSeq ≤ next.nextSeq)
    (hwaits : ∀ x, next.replay.Waits x → s.replay.Waits x) : ReaderFrame next puts frame := by
  rcases h with hsending | ⟨recipient, entry, ackCallback, puback, hframe, hunopposed⟩
  · exact .inl hsending
  · exact .inr ⟨recipient, entry, ackCallback, puback, hframe, hunopposed.change hseq hwaits⟩

/-- A message that waits is not one the read loop is about to put. -/
theorem ReaderFrame.put {frame : Frame} (h : ReaderFrame s puts frame) {x : Received}
    (hx : s.replay.Waits x) {message : Message} (htopic : message.topic = x.publish.topic)
    (queue : Nat) : ReaderFrame s (puts ++ [(queue, message)]) frame := by
  rcases h with hsending | ⟨recipient, entry, ackCallback, puback, hframe, hunopposed⟩
  · exact .inl hsending
  · refine .inr ⟨recipient, entry, ackCallback, puback, hframe, hunopposed.known, ?_,
      hunopposed.alone⟩
    intro put hput hequal
    rcases List.mem_append.mp hput with hput | hput
    · exact hunopposed.last put hput hequal
    · rw [List.mem_singleton.mp hput] at hequal
      exact absurd (htopic.symm.trans hequal) (hunopposed.alone x hx)

namespace PutsOrdered

/-- Nothing is put, and nothing more waits. -/
theorem change (h : PutsOrdered s puts) (hviews : next.replay.Views 0 (next.nextSeq - 1))
    (hseq : s.nextSeq ≤ next.nextSeq) (hwaits : ∀ x, next.replay.Waits x → s.replay.Waits x)
    (hframes : next.frames = s.frames) : PutsOrdered next puts where
  views := hviews
  started := Nat.lt_of_lt_of_le h.started hseq
  plain x hx := h.plain x (hwaits x hx)
  sorted := h.sorted
  before put hput x hx := h.before put hput x (hwaits x hx)
  arrived put hput := Nat.lt_of_lt_of_le (h.arrived put hput) hseq
  reader frame hframe := (h.reader frame (hframes ▸ hframe)).change hseq hwaits
  tasks t frame hframe := h.tasks t frame (hframes ▸ hframe)

theorem aside (h : PutsOrdered s puts) (haside : Aside s next) : PutsOrdered next puts := by
  refine h.change ?_ (Nat.le_of_eq haside.nextSeq.symm) ?_ haside.frames
  · rw [haside.replay, haside.nextSeq]
    exact h.views
  · rw [haside.replay]
    exact fun x hx => hx

/-- The replay state changes and nothing more waits. -/
theorem setReplay (h : PutsOrdered s puts) {replay : Replay}
    (hviews : replay.Views 0 (s.nextSeq - 1)) (hwaits : ∀ x, replay.Waits x → s.replay.Waits x) :
    PutsOrdered (s.setReplay replay) puts :=
  h.change hviews (Nat.le_refl _) hwaits rfl

theorem popFrame (h : PutsOrdered s puts) (o : Owner) :
    PutsOrdered { s with frames := OrderedDict.pop s.frames o } puts := by
  refine { h with reader := fun frame hframe => ?_, tasks := fun t frame hframe => ?_ }
  · rw [OrderedDict.get_pop] at hframe
    split at hframe
    · cases hframe
    · exact (h.reader frame hframe).change (Nat.le_refl _) fun _ hx => hx
  · rw [OrderedDict.get_pop] at hframe
    split at hframe
    · cases hframe
    · exact h.tasks t frame hframe

theorem setReader (h : PutsOrdered s puts) {frame : Frame} (hframe : ReaderFrame s puts frame) :
    PutsOrdered { s with frames := OrderedDict.set s.frames .reader frame } puts := by
  refine { h with reader := fun other hother => ?_, tasks := fun t other hother => ?_ }
  · rw [OrderedDict.get_set, if_pos rfl] at hother
    cases hother
    exact hframe.change (Nat.le_refl _) fun _ hx => hx
  · rw [OrderedDict.get_set, if_neg (by simp)] at hother
    exact h.tasks t other hother

theorem setTask (h : PutsOrdered s puts) (t : Nat) :
    PutsOrdered { s with frames := OrderedDict.set s.frames (.task t) (.sending none) } puts := by
  refine { h with reader := fun other hother => ?_, tasks := fun t' other hother => ?_ }
  · rw [OrderedDict.get_set, if_neg (by simp)] at hother
    exact (h.reader other hother).change (Nat.le_refl _) fun _ hx => hx
  · rw [OrderedDict.get_set] at hother
    split at hother
    · exact (Option.some.inj hother).symm
    · exact h.tasks t' other hother

/-- A message is put: later than what was put of its topic, earlier than what waits. -/
theorem put (h : PutsOrdered s puts) {message : Message} (queue : Nat)
    (hknown : message.seq < s.nextSeq)
    (hlast : ∀ put ∈ puts, put.2.topic = message.topic → put.2.seq < message.seq)
    (hfirst : ∀ x, s.replay.Waits x → x.publish.topic = message.topic → message.seq < x.seq)
    (hreader : ∀ frame, OrderedDict.get s.frames .reader = some frame →
      ReaderFrame s (puts ++ [(queue, message)]) frame) :
    PutsOrdered s (puts ++ [(queue, message)]) := by
  have hmem : ∀ {P : Nat × Message → Prop}, (∀ put ∈ puts, P put) → P (queue, message) →
      ∀ put ∈ puts ++ [(queue, message)], P put := by
    intro P hold hnew put hput
    rcases List.mem_append.mp hput with hput | hput
    · exact hold put hput
    · rw [List.mem_singleton.mp hput]
      exact hnew
  refine { h with
    sorted := ?_
    before := hmem h.before hfirst
    arrived := hmem h.arrived hknown
    reader := hreader }
  refine List.pairwise_append.mpr ⟨h.sorted, List.pairwise_singleton _ _, ?_⟩
  intro put hput new hnew htopic
  rw [List.mem_singleton.mp hnew] at htopic ⊢
  exact hlast put hput htopic

/-- The calls for one message are done, with the message put at most once. -/
theorem handled (h : PutsOrdered s puts) {recipient : InboundRecipient} {hput : Prop}
    {x : InboundPublishFlow × Frame} (haside : Aside s x.1) (hsettled : x.2.Settled)
    (hhandled : Handled s recipient hput x) (hknown : hput → recipient.message.seq < s.nextSeq)
    (hlast : hput → ∀ put ∈ puts, put.2.topic = recipient.message.topic →
      put.2.seq < recipient.message.seq)
    (hfirst : hput → ∀ y, s.replay.Waits y → y.publish.topic = recipient.message.topic →
      recipient.message.seq < y.seq)
    (hreader : ∀ frame, OrderedDict.get s.frames .reader = some frame →
      ∀ queue message, message.topic = recipient.message.topic →
        ReaderFrame s (puts ++ [(queue, message)]) frame) :
    PutsOrdered x.1 (puts ++ newPuts s x.1) := by
  have hx := h.aside haside
  rcases hhandled with ⟨-, hnone⟩ | ⟨-, hP, queue, message, hnew, hseq, htopic⟩ |
    ⟨-, -, entry, ackCallback, puback, hframe, -⟩
  · rw [hnone, List.append_nil]
    exact hx
  · rw [hnew]
    refine hx.put queue ?_ ?_ ?_ fun frame hframe => ?_
    · rw [hseq, haside.nextSeq]
      exact hknown hP
    · rw [hseq, htopic]
      exact hlast hP
    · rw [hseq, htopic, haside.replay]
      exact hfirst hP
    · rw [haside.frames] at hframe
      refine (hreader frame hframe queue message htopic).change
        (Nat.le_of_eq haside.nextSeq.symm) fun y hy => ?_
      exact haside.replay ▸ hy
  · rw [hframe] at hsettled
    rcases hsettled with hsettled | hsettled <;> cases hsettled

/-! ### The read loop -/

/-- The read loop is done with its message, or is suspended in it. -/
theorem storeReader (h : PutsOrdered s puts) (hidle : OrderedDict.get s.frames .reader = none)
    {recipient : InboundRecipient} {x : InboundPublishFlow × Frame} (haside : Aside s x.1)
    (hhandled : Handled s recipient (Unopposed s puts recipient.message) x) :
    PutsOrdered (InboundPublishFlow.storeReader x) (puts ++ newPuts s x.1) := by
  have hcases : x.2.Settled ∨ (Unopposed s puts recipient.message ∧ newPuts s x.1 = [] ∧
      ∃ entry ackCallback puback, x.2 = .putting recipient entry ackCallback puback) := by
    rcases hhandled with ⟨hsettled, -⟩ | ⟨hsettled, -⟩ |
      ⟨hunopposed, hnone, entry, ackCallback, puback, hframe, -⟩
    · exact .inl hsettled
    · exact .inl hsettled
    · exact .inr ⟨hunopposed, hnone, entry, ackCallback, puback, hframe⟩
  rcases hcases with hsettled | ⟨hunopposed, hnone, entry, ackCallback, puback, hframe⟩
  · have hdone := h.handled haside hsettled hhandled (fun hunopposed => hunopposed.known)
      (fun hunopposed => hunopposed.last)
      (fun hunopposed y hy htopic => absurd htopic (hunopposed.alone y hy))
      (fun frame hframe => by rw [hidle] at hframe; cases hframe)
    obtain ⟨next, frame⟩ := x
    rcases hsettled with rfl | rfl
    · exact hdone
    · exact hdone.setReader (.inl rfl)
  · have hx := h.aside haside
    obtain ⟨next, frame⟩ := x
    simp only at hframe
    rw [hnone, List.append_nil, hframe]
    refine hx.setReader (.inr ⟨recipient, entry, ackCallback, puback, rfl, ?_⟩)
    refine hunopposed.change (Nat.le_of_eq haside.nextSeq.symm) fun y hy => ?_
    exact haside.replay ▸ hy

/-- A step that leaves the queues as they are puts nothing. -/
theorem quiet (h : PutsOrdered next puts) (hqueued : next.queued = s.queued) :
    PutsOrdered next (puts ++ newPuts s next) := by
  rw [newPuts_of_eq hqueued, List.append_nil]
  exact h

/-- A message is held, unless it is known already or there is no room. -/
theorem hold (h : PutsOrdered s puts) {received : Received} {last b : Nat}
    (hviews : s.replay.Views 0 last) (hlast : last < received.seq)
    (hnext : s.nextSeq = received.seq + 1) (hstate : s.replay.state = .buffered b)
    (hidle : OrderedDict.get s.frames .reader = none)
    (hplain : received.publish.qos = .atLeastOnce ∧ received.publish.packetId.isSome = true)
    (hputs : ∀ put ∈ puts, put.2.seq < received.seq) :
    PutsOrdered (s.hold b (s.replay.buffer b) received).1 puts ∧
      (s.hold b (s.replay.buffer b) received).1.queued = s.queued := by
  unfold InboundPublishFlow.hold
  split
  · exact ⟨h, rfl⟩
  rename_i hfresh
  split
  · exact ⟨h.change h.views (Nat.le_refl _) (fun _ hx => hx) rfl, rfl⟩
  · have hb := h.views.valid.state b hstate
    have happend := hviews.append hstate hlast hfresh (by simp)
    have hcases : ∀ x, (s.replay.modifyBuffer b fun buffer => buffer.append received).Waits x →
        s.replay.Waits x ∨ x = received := fun x hx => Replay.waits_append hb hx
    refine ⟨⟨?_, h.started, fun x hx => ?_, h.sorted, fun put hput x hx htopic => ?_, h.arrived,
      fun frame hframe => ?_, h.tasks⟩, rfl⟩
    · change Replay.Views _ 0 (s.nextSeq - 1)
      rw [hnext]
      exact happend
    · rcases hcases x hx with hold | rfl
      · exact h.plain x hold
      · exact hplain
    · rcases hcases x hx with hold | rfl
      · exact h.before put hput x hold htopic
      · exact hputs put hput
    · have hframe' : OrderedDict.get s.frames .reader = some frame := hframe
      rw [hidle] at hframe'
      cases hframe'

/-- What a held message leaves behind in the read loop. -/
theorem storeReader_held {t : InboundPublishFlow} {received : Received} {claim : Option Nat}
    {write : WriteOutcome} {b : Nat} {buffer : ReplayBuffer}
    (heq : t.selectRecipientOrBuffer received claim = s.hold b buffer received)
    (hheld : PutsOrdered (s.hold b buffer received).1 puts)
    (hqueued : (s.hold b buffer received).1.queued = t.queued) :
    PutsOrdered (InboundPublishFlow.storeReader (settle write (t.route received claim write)))
      (puts ++ newPuts t
        (InboundPublishFlow.storeReader (settle write (t.route received claim write)))) := by
  obtain ⟨frame, hroute, rfl | ⟨e, rfl⟩⟩ := route_held heq write
  · rw [hroute]
    exact hheld.quiet hqueued
  · rw [hroute]
    have hended : PutsOrdered { (s.hold b buffer received).1 with ended := some e } puts :=
      hheld.change hheld.views (Nat.le_refl _) (fun _ hx => hx) rfl
    exact hended.quiet hqueued

/-- A PUBLISH after the checks of its identifier. -/
theorem route (h : PutsOrdered s puts) {received : Received} {last : Nat}
    (hviews : s.replay.Views 0 last) (hlast : last < received.seq)
    (hnext : s.nextSeq = received.seq + 1)
    (hidle : OrderedDict.get s.frames .reader = none)
    (hplain : received.publish.qos = .atLeastOnce ∧ received.publish.packetId.isSome = true)
    (hputs : ∀ put ∈ puts, put.2.seq < received.seq) (claim : Option Nat) {write : WriteOutcome}
    (hwrite : write ≠ .failed) :
    PutsOrdered (InboundPublishFlow.storeReader (settle write (s.route received claim write)))
      (puts ++ newPuts s
        (InboundPublishFlow.storeReader (settle write (s.route received claim write)))) := by
  have hmessage := s.selectRecipient_message received claim
  -- a message that finds its recipient
  have hlive : ∀ {t : InboundPublishFlow}, Aside s t →
      t.queued = s.queued →
      s.selectRecipientOrBuffer received claim =
        (t, .recipient (s.selectRecipient received claim)) →
      ((s.selectRecipient received claim).request = none →
        (s.selectRecipient received claim).subscription.isSome = true →
        Unopposed s puts (s.selectRecipient received claim).message) →
      PutsOrdered (InboundPublishFlow.storeReader (settle write (s.route received claim write)))
        (puts ++ newPuts s
          (InboundPublishFlow.storeReader (settle write (s.route received claim write)))) := by
    intro t haside hqueued heq hunopposed
    obtain ⟨ackCallback, puback, hdeliver⟩ : ∃ ackCallback puback,
        t.deliverReplay received (s.selectRecipient received claim) write =
          (t.emit (.routed received.seq),
            .delivering (s.selectRecipient received claim) ackCallback puback) :=
      t.deliverReplay_qos1 hplain.1 hplain.2
    have hroute : s.route received claim write = (t.emit (.routed received.seq),
        .delivering (s.selectRecipient received claim) ackCallback puback) := by
      unfold InboundPublishFlow.route
      rw [heq]
      exact hdeliver
    have hrouted : PutsOrdered (t.emit (.routed received.seq)) puts :=
      (h.aside haside).change (h.aside haside).views (Nat.le_refl _) (fun _ hx => hx) rfl
    have hfree : OrderedDict.get (t.emit (.routed received.seq)).frames .reader = none := by
      change OrderedDict.get t.frames .reader = none
      rw [haside.frames, hidle]
    have hunopposed' : (s.selectRecipient received claim).request = none →
        (s.selectRecipient received claim).subscription.isSome = true →
        Unopposed (t.emit (.routed received.seq)) puts
          (s.selectRecipient received claim).message := by
      intro hrequest hsubscription
      refine (hunopposed hrequest hsubscription).change (Nat.le_of_eq haside.nextSeq.symm) ?_
      intro x hx
      exact haside.replay ▸ hx
    have hdelivering : Aside (t.emit (.routed received.seq))
        (settle write (t.emit (.routed received.seq),
          .delivering (s.selectRecipient received claim) ackCallback puback)).1 :=
      Aside.settle write (t.emit (.routed received.seq),
        .delivering (s.selectRecipient received claim) ackCallback puback)
    have hstored := hrouted.storeReader hfree hdelivering
      (settle_delivering_handled hwrite rfl hunopposed' ackCallback puback)
    have hnew : newPuts s (InboundPublishFlow.storeReader
        (settle write (t.emit (.routed received.seq),
          .delivering (s.selectRecipient received claim) ackCallback puback))) =
        newPuts (t.emit (.routed received.seq)) (settle write (t.emit (.routed received.seq),
          .delivering (s.selectRecipient received claim) ackCallback puback)).1 := by
      unfold newPuts
      rw [storeReader_queued, ← hqueued]
      rfl
    rw [hroute, hnew]
    exact hstored
  rcases s.selectRecipientOrBuffer_cases received claim with
    ⟨-, heq⟩ | ⟨-, hrequest, hsubscription, heq⟩ | ⟨b, hstate, heq⟩ | ⟨hstate, heq⟩
  · refine hlive (.refl s) rfl heq fun hrequest _ => ?_
    rw [hmessage]
    refine ⟨?_, fun put hput _ => hputs put hput, fun x hx htopic => ?_⟩
    · change received.seq < s.nextSeq
      omega
    · exact hviews.not_waits (fun b hstate => selectRecipientOrBuffer_topic heq hrequest hstate) hx
        htopic
  · refine hlive (.emit s rfl) rfl heq fun _ hsome => ?_
    rw [hsubscription] at hsome
    cases hsome
  · obtain ⟨hheld, hqueued⟩ := h.hold hviews hlast hnext hstate hidle hplain hputs
    exact storeReader_held heq hheld hqueued
  · have hadded : PutsOrdered (s.setReplay s.replay.addBuffer) puts :=
      h.setReplay (h.views.addBuffer fun b => by rw [hstate]; nofun) fun x hx =>
        Replay.waits_addBuffer h.views.valid hx
    have hviews' : (s.setReplay s.replay.addBuffer).replay.Views 0 last :=
      hviews.addBuffer fun b => by rw [hstate]; nofun
    have hbuffer : (s.setReplay s.replay.addBuffer).replay.buffer s.replay.buffers.length = {} := by
      simp [InboundPublishFlow.setReplay, Replay.addBuffer, Replay.buffer]
    obtain ⟨hheld, hqueued⟩ := hadded.hold (b := s.replay.buffers.length) hviews' hlast hnext rfl
      hidle hplain hputs
    rw [hbuffer] at hheld hqueued
    exact storeReader_held heq hheld hqueued

/-- A PUBLISH of quality of service 1 arrives. -/
theorem publish (h : PutsOrdered s puts) (hidle : s.readerIdle = true) {packet : Publish}
    (hqos : packet.qos = .atLeastOnce) (claim : Option Nat) {write : WriteOutcome}
    (hwrite : write ≠ .failed) :
    PutsOrdered
      (InboundPublishFlow.storeReader (settle write (s.handlePublish packet claim write)))
      (puts ++ newPuts s
        (InboundPublishFlow.storeReader (settle write (s.handlePublish packet claim write)))) := by
  have hstarted := h.started
  have harrived : PutsOrdered (s.arrived packet) puts := by
    rw [arrived_frame]
    exact h.change (h.views.later (by simp only; omega)) (Nat.le_succ _) (fun _ hx => hx) rfl
  have hqueued : (s.arrived packet).queued = s.queued := by rw [arrived_frame]
  have hfree : OrderedDict.get (s.arrived packet).frames .reader = none := by
    rw [arrived_frame]
    exact Option.isNone_iff_eq_none.mp (Bool.and_eq_true_iff.mp hidle).2
  rcases s.handlePublish_cases packet claim write with
    ⟨-, -, heq⟩ | ⟨-, msg, heq⟩ | ⟨-, -, heq⟩ | ⟨-, htwo, -⟩ | ⟨-, -, hid, heq⟩
  · rw [heq]
    have hended : PutsOrdered { s.arrived packet with ended := some noPacketId } puts :=
      harrived.change harrived.views (Nat.le_refl _) (fun _ hx => hx) rfl
    exact hended.quiet hqueued
  · rw [heq]
    have hended : PutsOrdered { (s.arrived packet).emit (.aborted (some 0x93)) with
        ended := some (.protocolError msg) } puts :=
      harrived.change harrived.views (Nat.le_refl _) (fun _ hx => hx) rfl
    exact hended.quiet hqueued
  · rw [heq]
    exact harrived.quiet hqueued
  · rw [hqos] at htwo
    cases htwo
  · rw [heq]
    have hviews : (s.arrived packet).replay.Views 0 (s.nextSeq - 1) := by
      rw [arrived_frame]
      exact h.views
    have hnext : (s.arrived packet).nextSeq = s.nextSeq + 1 := by rw [arrived_frame]
    have hnew : newPuts s = newPuts (s.arrived packet) := by
      unfold newPuts
      rw [hqueued]
    rw [hnew]
    have hlast : s.nextSeq - 1 < ({ seq := s.nextSeq, publish := packet } : Received).seq := by
      simp only
      omega
    have hsome : packet.packetId.isSome = true := by
      obtain ⟨pid, hpid, -⟩ := hid (by rw [hqos]; nofun)
      rw [hpid]
      rfl
    exact harrived.route hviews hlast hnext hfree ⟨hqos, hsome⟩ h.arrived claim hwrite

/-- The read loop goes on after a suspension. -/
theorem resumeReader (h : PutsOrdered s puts) {frame : Frame}
    (hframe : OrderedDict.get s.frames .reader = some frame) {write : WriteOutcome}
    (hwrite : write ≠ .failed) :
    PutsOrdered (InboundPublishFlow.storeReader (settle write
        ({ s with frames := OrderedDict.pop s.frames .reader }, resumed frame true)))
      (puts ++ newPuts s (InboundPublishFlow.storeReader (settle write
        ({ s with frames := OrderedDict.pop s.frames .reader }, resumed frame true)))) := by
  have hpopped := h.popFrame .reader
  have hfree : OrderedDict.get (OrderedDict.pop s.frames .reader) .reader = none := by
    rw [OrderedDict.get_pop, if_pos rfl]
  rcases h.reader frame hframe with rfl | ⟨recipient, entry, ackCallback, puback, rfl, hunopposed⟩
  · exact hpopped.quiet rfl
  · have hunopposed' : Unopposed { s with frames := OrderedDict.pop s.frames .reader } puts
        recipient.message := hunopposed.change (Nat.le_refl _) fun _ hx => hx
    have hputting : Aside { s with frames := OrderedDict.pop s.frames .reader } (settle write
        ({ s with frames := OrderedDict.pop s.frames .reader },
          .putting recipient entry ackCallback puback)).1 :=
      Aside.settle write ({ s with frames := OrderedDict.pop s.frames .reader },
        .putting recipient entry ackCallback puback)
    have hstored := hpopped.storeReader hfree hputting
      (settle_putting hwrite hunopposed' rfl entry ackCallback puback)
    have hnew : newPuts s (InboundPublishFlow.storeReader (settle write
        ({ s with frames := OrderedDict.pop s.frames .reader },
          .putting recipient entry ackCallback puback))) =
        newPuts { s with frames := OrderedDict.pop s.frames .reader } (settle write
          ({ s with frames := OrderedDict.pop s.frames .reader },
            .putting recipient entry ackCallback puback)).1 := by
      unfold newPuts
      rw [storeReader_queued]
    change PutsOrdered (InboundPublishFlow.storeReader (settle write
      ({ s with frames := OrderedDict.pop s.frames .reader },
        .putting recipient entry ackCallback puback))) _
    rw [show resumed (.putting recipient entry ackCallback puback) true =
      .putting recipient entry ackCallback puback from rfl, hnew]
    exact hstored

end PutsOrdered

end Zmqtt
