import Zmqtt.Qos2Copies

/-!
# Where the copies go

A step of the flow moves copies of QoS 2 messages, and only the arrival of a PUBLISH brings a
new one.  A message that is registered, or whose flow begins, had a copy before the step.  So
at most one copy goes by an identifier, as long as a PUBLISH meets a replay buffer that knows
the identifiers of what it holds.
-/

namespace Zmqtt

open InboundPublishFlow Tally

/-! ## Steps -/

/-- The copies of one flow. -/
def one (copy : Int × Nat) (other : Int × Nat) : Nat := if other = copy then 1 else 0

/-- The copy of a flow weighs one, and no other. -/
theorem flowWeight_one {copy : Int × Nat} {new : Option (Int × Nat)} :
    0 < flowWeight (one copy) new ↔ new = some copy := by
  cases new with
  | none => simp [flowWeight]
  | some other =>
      simp only [flowWeight, Option.elim_some, one, Option.some.injEq]
      split <;> simp_all

/-- The flow of a copy that was there, or of the one that arrives. -/
def Source (s : InboundPublishFlow) (new : Option (Int × Nat)) (copy : Int × Nat) : Prop :=
  new = some copy ∨ 0 < s.copies (one copy)

/-- A step makes no copy but `new`, and begins the flow of no other message. -/
structure Moved (new : Option (Int × Nat)) (s next : InboundPublishFlow) : Prop where
  copies : ∀ weight, next.copies weight ≤ s.copies weight + flowWeight weight new
  flights : ∀ pid flight, OrderedDict.get next.inflightQos2In pid = some flight →
    OrderedDict.get s.inflightQos2In pid = some flight ∨
      Source s new (pid, flight.recipient.message.seq)
  accepted : ∀ seq pid, .accepted seq pid ∈ next.log →
    .accepted seq pid ∈ s.log ∨ Source s new (pid, seq)

namespace Moved

variable {s mid next : InboundPublishFlow} {new : Option (Int × Nat)}

/-- No flow begins. -/
theorem quiet (hcopies : ∀ weight, next.copies weight ≤ s.copies weight + flowWeight weight new)
    (hinflight : next.inflightQos2In = s.inflightQos2In)
    (haccepted : ∀ seq pid, .accepted seq pid ∈ next.log → .accepted seq pid ∈ s.log) :
    Moved new s next :=
  ⟨hcopies, fun _ _ hget => .inl (hinflight ▸ hget), fun seq pid h => .inl (haccepted seq pid h)⟩

/-- A copy before the second step was there before the first. -/
theorem source (h : Moved new s mid) {copy : Int × Nat} (hsource : Source mid none copy) :
    Source s new copy := by
  rcases hsource with hnone | hpos
  · cases hnone
  · have hle := h.copies (one copy)
    by_cases hnew : new = some copy
    · exact .inl hnew
    · have hzero : flowWeight (one copy) new = 0 :=
        Nat.eq_zero_of_not_pos fun hpos => hnew (flowWeight_one.mp hpos)
      exact .inr (by omega)

/-- A step that makes no copy follows. -/
theorem trans (h : Moved new s mid) (h' : Moved none mid next) : Moved new s next where
  copies weight := by
    have hle := h.copies weight
    have hle' := h'.copies weight
    change _ ≤ _ + 0 at hle'
    omega
  flights pid flight hget := by
    rcases h'.flights pid flight hget with hold | hsource
    · exact h.flights pid flight hold
    · exact .inr (h.source hsource)
  accepted seq pid hmem := by
    rcases h'.accepted seq pid hmem with hold | hsource
    · exact h.accepted seq pid hold
    · exact .inr (h.source hsource)

/-- A step after one that makes no copy. -/
theorem after (h : Moved none s mid) (h' : Moved new mid next) : Moved new s next where
  copies weight := Nat.le_trans (h'.copies weight) (Nat.add_le_add_right (h.copies weight) _)
  flights pid flight hget := by
    rcases h'.flights pid flight hget with hold | hnew | hpos
    · exact (h.flights pid flight hold).imp_right fun hsource => hsource.elim (fun h => by cases h) .inr
    · exact .inr (.inl hnew)
    · exact .inr (.inr (Nat.lt_of_lt_of_le hpos (h.copies _)))
  accepted seq pid hmem := by
    rcases h'.accepted seq pid hmem with hold | hnew | hpos
    · exact (h.accepted seq pid hold).imp_right fun hsource => hsource.elim (fun h => by cases h) .inr
    · exact .inr (.inl hnew)
    · exact .inr (.inr (Nat.lt_of_lt_of_le hpos (h.copies _)))

/-- The replay state changes and holds no more. -/
theorem setReplay {replay : Replay} (h : ∀ weight, replay.copies weight ≤ s.replay.copies weight) :
    Moved none s (s.setReplay replay) :=
  quiet (fun weight => Nat.add_le_add_left (h weight) _) rfl fun _ _ hmem => hmem

theorem emit (s : InboundPublishFlow) {event : InboundEvent}
    (h : ∀ seq pid, event ≠ .accepted seq pid) : Moved none s (s.emit event) :=
  quiet (fun _ => Nat.le_refl _) rfl fun seq pid hmem =>
    (List.mem_cons.mp hmem).resolve_left fun heq => h seq pid heq.symm

end Moved

/-- How the flow of a message begins: its own copy, at most, goes to the task. -/
structure BeginsFlow (s : InboundPublishFlow) (copy : Option (Int × Nat))
    (x : InboundPublishFlow × Frame) : Prop where
  same : ∃ inflightQos2In pendingAckQos2In log,
    x.1 = { s with inflightQos2In, pendingAckQos2In, log }
  flow : x.2.flow = none ∨ x.2.flow = copy
  flights : ∀ pid flight, OrderedDict.get x.1.inflightQos2In pid = some flight →
    OrderedDict.get s.inflightQos2In pid = some flight ∨
      copy = some (pid, flight.recipient.message.seq)
  accepted : ∀ seq pid, .accepted seq pid ∈ x.1.log →
    .accepted seq pid ∈ s.log ∨ copy = some (pid, seq)
  plain : x.2.Plain

/-- Nothing begins. -/
theorem BeginsFlow.quiet {s next : InboundPublishFlow} {frame : Frame} {log : List InboundEvent}
    (copy : Option (Int × Nat)) (hnext : next = { s with log }) (hflow : frame.flow = none)
    (hplain : frame.Plain)
    (haccepted : ∀ seq pid, .accepted seq pid ∈ log → .accepted seq pid ∈ s.log) :
    BeginsFlow s copy (next, frame) := by
  subst hnext
  exact ⟨⟨_, _, _, rfl⟩, .inl hflow, fun _ _ hget => .inl hget,
    fun seq pid hmem => .inl (haccepted seq pid hmem), hplain⟩

theorem mem_of_mem_event {event other : InboundEvent} {log : List InboundEvent}
    (h : other ∈ event :: log) (hne : other ≠ event) : other ∈ log :=
  (List.mem_cons.mp h).resolve_left hne

/-- `_accept_qos2_publish` registers the message itself, or hands its copy to `ack()`. -/
theorem acceptQos2Publish_begins (s : InboundPublishFlow) {received : Received}
    {recipient : InboundRecipient} (hqos : received.publish.qos = .exactlyOnce)
    (hmessage : recipient.message = makeMessage received) (write : WriteOutcome) :
    BeginsFlow s received.flow (s.acceptQos2Publish received recipient write) := by
  unfold acceptQos2Publish
  cases hpid : received.publish.packetId with
  | none => exact .quiet _ rfl rfl trivial fun _ _ hmem => hmem
  | some pid =>
      have hcopy : received.flow = some (pid, received.seq) := by
        simp [Received.flow, hqos, hpid]
      cases s.detachedEntry recipient with
      | some oid =>
          exact .quiet _ rfl rfl trivial fun seq pid hmem =>
            mem_of_mem_event hmem fun h => by cases h
      | none =>
          have haccepted : ∀ seq other, InboundEvent.accepted seq other ∈
              InboundEvent.accepted received.seq pid :: s.log →
              .accepted seq other ∈ s.log ∨ received.flow = some (other, seq) := by
            intro seq other hmem
            rcases List.mem_cons.mp hmem with heq | hold
            · cases heq
              exact .inr hcopy
            · exact .inl hold
          simp only
          split
          · refine ⟨⟨_, _, _, rfl⟩, .inl ?_, fun other flight hget => ?_, fun seq other hmem => ?_, ?_⟩
            · cases write <;> rfl
            · change OrderedDict.get (OrderedDict.set s.inflightQos2In pid _) other = _ at hget
              rw [OrderedDict.get_set] at hget
              split at hget
              · rename_i heq
                cases hget
                refine .inr ?_
                rw [hcopy, hmessage, heq]
                rfl
              · exact .inl hget
            · exact haccepted seq other (mem_of_mem_event hmem fun h => by cases h)
            · cases write <;> trivial
          · refine ⟨⟨_, _, _, rfl⟩, .inr ?_, fun _ _ hget => .inl hget, haccepted, ?_⟩
            · rw [hcopy]
              simp only [Frame.flow, pubrecFlow, hmessage]
              rfl
            · exact ⟨by rw [hmessage]; rfl, fun _ => rfl⟩

/-- `deliver_replay` begins the flow of its own message only. -/
theorem deliverReplay_begins (s : InboundPublishFlow) {received : Received}
    {recipient : InboundRecipient} (hmessage : recipient.message = makeMessage received)
    (write : WriteOutcome) :
    BeginsFlow s received.flow (s.deliverReplay received recipient write) := by
  have hrouted : ∀ seq pid, InboundEvent.accepted seq pid ∈ (s.emit (.routed received.seq)).log →
      .accepted seq pid ∈ s.log :=
    fun seq pid hmem => mem_of_mem_event hmem fun h => by cases h
  have hnone : recipient.message.ackCallback = none := by rw [hmessage]; rfl
  unfold deliverReplay
  cases hqos : received.publish.qos with
  | atMostOnce => exact .quiet _ rfl rfl ⟨hnone, fun hne => absurd rfl hne⟩ hrouted
  | atLeastOnce =>
      simp only [deliverQos1Publish]
      split
      · exact .quiet _ rfl rfl trivial hrouted
      · split <;> exact .quiet _ rfl rfl ⟨hnone, fun hne => absurd rfl hne⟩ hrouted
  | exactlyOnce =>
      have hbegins := acceptQos2Publish_begins (s.emit (.routed received.seq)) hqos hmessage write
      obtain ⟨inflight, pending, log, hsame⟩ := hbegins.same
      refine ⟨⟨inflight, pending, log, hsame⟩, hbegins.flow, hbegins.flights,
        fun seq pid hmem => ?_, hbegins.plain⟩
      exact (hbegins.accepted seq pid hmem).imp_left (hrouted seq pid)

section Steps

variable {s next : InboundPublishFlow} {frame : Frame} {x : InboundPublishFlow × Frame} {t : Nat}
  {task now : ReplayTask} {unmatched pending : List Received} {current : Received}

theorem MovesCopy.inflight (h : MovesCopy s frame x) : x.1.inflightQos2In = s.inflightQos2In := by
  obtain ⟨unacknowledged, queued, log, hsame⟩ := h.same
  rw [hsame]

theorem MovesCopy.replay (h : MovesCopy s frame x) : x.1.replay = s.replay := by
  obtain ⟨unacknowledged, queued, log, hsame⟩ := h.same
  rw [hsame]

/-- What the calls for one message add. -/
theorem MovesCopy.copies (h : MovesCopy s frame x) (weight : Int × Nat → Nat) :
    x.1.copies weight ≤ s.copies weight + flowWeight weight frame.flow ∧
      (x.2 ≠ .returned → x.1.copies weight ≤ s.copies weight) := by
  obtain ⟨unacknowledged, queued, log, hsame⟩ := h.same
  have hreader : x.1.readerCopies weight = s.readerCopies weight := by rw [hsame]; rfl
  have hreplay : x.1.replay.copies weight = s.replay.copies weight := by rw [hsame]
  unfold InboundPublishFlow.copies
  rcases h.copy with ⟨-, hless⟩ | ⟨hreturned, hless⟩
  · have := hless weight
    exact ⟨by omega, fun _ => by omega⟩
  · have := hless weight
    exact ⟨by omega, fun hne => absurd hreturned hne⟩

/-- The read loop is done with its message, or keeps its copy. -/
theorem MovesCopy.storeReader (h : MovesCopy s frame x)
    (hidle : OrderedDict.get s.frames .reader = none) :
    Moved frame.flow s (storeReader x) := by
  obtain ⟨mid, after⟩ := x
  obtain ⟨unacknowledged, queued, log, hsame⟩ := h.same
  replace hsame : mid = { s with unacknowledged, queued, log } := hsame
  have hcopies := fun weight => (h.copies weight).1
  have hnone : ∀ weight, s.readerCopies weight = 0 := by
    intro weight
    rw [InboundPublishFlow.readerCopies, hidle]
    rfl
  have hstored : Moved frame.flow s
      { mid with frames := OrderedDict.set mid.frames .reader after } := by
    refine .quiet (fun weight => ?_) h.inflight h.accepted
    have hthere : ({ mid with frames := OrderedDict.set mid.frames .reader after } :
        InboundPublishFlow).readerCopies weight = flowWeight weight after.flow := by
      unfold InboundPublishFlow.readerCopies
      rw [OrderedDict.get_set, if_pos rfl, Option.bind_some]
    have happlication : mid.applicationCopies weight + flowWeight weight after.flow ≤
        s.applicationCopies weight + flowWeight weight frame.flow := by
      rcases h.copy with ⟨hnone' | heq, hless⟩ | ⟨hreturned, hless⟩
      · rw [show after.flow = none from hnone']
        exact Nat.le_trans (hless weight) (Nat.le_add_right _ _)
      · rw [show after.flow = frame.flow from heq]
        exact Nat.add_le_add_right (hless weight) _
      · rw [show after = .returned from hreturned]
        exact hless weight
    have hreplay : mid.replay = s.replay := by rw [hsame]
    have := hnone weight
    unfold InboundPublishFlow.copies
    change mid.applicationCopies weight + _ + mid.replay.copies weight ≤ _
    rw [hthere, hreplay]
    omega
  cases after with
  | returned => exact .quiet hcopies h.inflight h.accepted
  | raised e => exact .quiet hcopies h.inflight h.accepted
  | _ => exact hstored

/-- The frame of a task is no copy of its own. -/
theorem copies_setTask (s : InboundPublishFlow) (t : Nat) (frame : Frame)
    (weight : Int × Nat → Nat) :
    ({ s with frames := OrderedDict.set s.frames (.task t) frame } : InboundPublishFlow).copies
      weight = s.copies weight := by
  have hreader : OrderedDict.get (OrderedDict.set s.frames (.task t) frame) .reader =
      OrderedDict.get s.frames .reader := by
    rw [OrderedDict.get_set, if_neg fun h => by cases h]
  unfold InboundPublishFlow.copies InboundPublishFlow.readerCopies
  simp only [hreader]
  rfl

/-- A task that raises puts its lists back. -/
theorem raiseFromTask_copies (hnow : s.replay.tasks[t]? = some now) (task : ReplayTask)
    (unmatched pending : List Received) (weight : Int × Nat → Nat) :
    (s.raiseFromTask t task unmatched pending).copies weight + now.phase.copies weight ≤
      s.copies weight + tally (fun received => flowWeight weight received.flow) unmatched +
        tally (fun received => flowWeight weight received.flow) pending := by
  have hreleased := Replay.copies_release weight hnow task.buffer unmatched pending
  have hended := Replay.copies_endExpiration weight
    (s.replay.release task.buffer t unmatched pending) task.buffer t
  have hsum : (s.raiseFromTask t task unmatched pending).copies weight =
      s.applicationCopies weight + s.readerCopies weight +
        (s.replay.release task.buffer t unmatched pending).copies weight := by
    unfold raiseFromTask
    simp only
    split
    · split
      · rw [← hended]
        rfl
      · rw [← hended]
        rfl
    · rfl
  rw [hsum]
  unfold InboundPublishFlow.copies
  omega

/-- A task that raises begins no flow. -/
theorem raiseFromTask_quiet (s : InboundPublishFlow) (t : Nat) (task : ReplayTask)
    (unmatched pending : List Received) :
    (s.raiseFromTask t task unmatched pending).inflightQos2In = s.inflightQos2In ∧
      ∀ seq pid, .accepted seq pid ∈ (s.raiseFromTask t task unmatched pending).log →
        .accepted seq pid ∈ s.log := by
  unfold raiseFromTask
  simp only
  split
  · split
    · exact ⟨rfl, fun _ _ hmem => hmem⟩
    · exact ⟨rfl, fun seq pid hmem => mem_of_mem_event hmem fun h => by cases h⟩
  · exact ⟨rfl, fun _ _ hmem => hmem⟩

/-- A task is done with its message, puts it back, or is suspended in it. -/
theorem MovesCopy.storeTask (h : MovesCopy s frame x) (hnow : s.replay.tasks[t]? = some now)
    (hphase : now.phase = .delivering unmatched pending current)
    (hflow : frame.flow = none ∨ frame.flow = current.flow) :
    Moved none s (storeTask t task unmatched pending current x) := by
  obtain ⟨mid, after⟩ := x
  have hthere : mid.replay.tasks[t]? = some now := by rw [h.replay]; exact hnow
  have hheld : ∀ weight, now.phase.copies weight =
      tally (fun received => flowWeight weight received.flow) unmatched +
        tally (fun received => flowWeight weight received.flow) pending +
          flowWeight weight current.flow := by
    intro weight
    rw [hphase]
    rfl
  have hless : ∀ weight, mid.copies weight ≤ s.copies weight + flowWeight weight current.flow := by
    intro weight
    have hle := (h.copies weight).1
    rcases hflow with hnone | heq
    · rw [hnone] at hle
      exact Nat.le_trans hle (Nat.add_le_add_left (Nat.zero_le _) _)
    · rwa [heq] at hle
  have hstored : after ≠ .returned → Moved none s
      { mid with frames := OrderedDict.set mid.frames (.task t) after } := by
    intro hne
    refine .quiet (fun weight => ?_) h.inflight h.accepted
    rw [copies_setTask]
    exact (h.copies weight).2 hne
  cases after with
  | returned =>
      -- the copy of the task is gone
      have hdiscarded : ∀ weight,
          (mid.replay.modifyBuffer task.buffer fun _ =>
            ((mid.replay.buffer task.buffer).discard current).1).copies weight ≤
              mid.replay.copies weight := by
        intro weight
        have hle := Replay.copies_modifyBuffer weight mid.replay task.buffer
          fun _ => ((mid.replay.buffer task.buffer).discard current).1
        rw [ReplayBuffer.discard_publishes] at hle
        omega
      simp only [InboundPublishFlow.storeTask]
      split
      · obtain ⟨hinflight, haccepted⟩ := raiseFromTask_quiet
          (mid.setReplay (mid.replay.modifyBuffer task.buffer fun _ =>
            ((mid.replay.buffer task.buffer).discard current).1)) t task unmatched pending
        refine .quiet (fun weight => ?_) (hinflight.trans h.inflight)
          fun seq pid hmem => h.accepted seq pid (haccepted seq pid hmem)
        have hraised := raiseFromTask_copies
          (show (mid.setReplay (mid.replay.modifyBuffer task.buffer fun _ =>
            ((mid.replay.buffer task.buffer).discard current).1)).replay.tasks[t]? = some now
            from hthere) task unmatched pending weight
        have hset : (mid.setReplay (mid.replay.modifyBuffer task.buffer fun _ =>
            ((mid.replay.buffer task.buffer).discard current).1)).copies weight ≤
              mid.copies weight := Nat.add_le_add_left (hdiscarded weight) _
        have := hheld weight
        have := hless weight
        change _ ≤ _ + 0
        omega
      · refine .quiet (fun weight => ?_) h.inflight h.accepted
        have hset := Replay.copies_setPhase weight
          (show (mid.replay.modifyBuffer task.buffer fun _ =>
            ((mid.replay.buffer task.buffer).discard current).1).tasks[t]? = some now
            from hthere) (.looping unmatched pending)
        change _ = _ + (_ + _ + 0) at hset
        have := hdiscarded weight
        have := hheld weight
        have := hless weight
        have hmid : mid.copies weight =
          mid.applicationCopies weight + mid.readerCopies weight + mid.replay.copies weight := rfl
        change mid.applicationCopies weight + mid.readerCopies weight + _ ≤ _ + 0
        simp only [InboundPublishFlow.setReplay]
        omega
  | raised e =>
      obtain ⟨hinflight, haccepted⟩ :=
        raiseFromTask_quiet mid t task (unmatched ++ [current]) pending
      refine .quiet (fun weight => ?_) (hinflight.trans h.inflight)
        fun seq pid hmem => h.accepted seq pid (haccepted seq pid hmem)
      have hraised := raiseFromTask_copies hthere task (unmatched ++ [current]) pending weight
      simp only [tally_append, tally_cons, tally_nil] at hraised
      have hmid : mid.copies weight ≤ s.copies weight := (h.copies weight).2 fun h => by cases h
      have := hheld weight
      change (mid.raiseFromTask t task (unmatched ++ [current]) pending).copies weight ≤ _ + 0
      omega
  | delivering recipient ackCallback puback => exact hstored fun h => by cases h
  | putting recipient entry ackCallback puback => exact hstored fun h => by cases h
  | completing seq packetId => exact hstored fun h => by cases h
  | sending next => exact hstored fun h => by cases h

theorem BeginsFlow.copies {copy : Option (Int × Nat)} (h : BeginsFlow s copy x)
    (weight : Int × Nat → Nat) : x.1.copies weight = s.copies weight := by
  obtain ⟨inflight, pending, log, hsame⟩ := h.same
  rw [hsame]
  rfl

theorem BeginsFlow.replay {copy : Option (Int × Nat)} (h : BeginsFlow s copy x) :
    x.1.replay = s.replay := by
  obtain ⟨inflight, pending, log, hsame⟩ := h.same
  rw [hsame]

/-- The read loop delivers a message. -/
theorem BeginsFlow.reader {copy : Option (Int × Nat)} (h : BeginsFlow s copy x)
    (hidle : OrderedDict.get s.frames .reader = none) (write : WriteOutcome) :
    Moved copy s (InboundPublishFlow.storeReader (InboundPublishFlow.settle write x)) := by
  obtain ⟨mid, frame⟩ := x
  have hmidIdle : OrderedDict.get mid.frames .reader = none := by
    obtain ⟨inflight, pending, log, hsame⟩ := h.same
    rw [show mid = _ from hsame]
    exact hidle
  have hmoved := (MovesCopy.settle (s := mid) write h.plain).storeReader hmidIdle
  have hsource : ∀ {c}, Source mid frame.flow c → Source s copy c := by
    rintro c (hnew | hpos)
    · rcases h.flow with hnone | heq
      · rw [show frame.flow = none from hnone] at hnew
        cases hnew
      · exact .inl (heq ▸ hnew)
    · exact .inr ((h.copies (one c)) ▸ hpos)
  refine ⟨fun weight => ?_, fun pid flight hget => ?_, fun seq pid hmem => ?_⟩
  · have hle := hmoved.copies weight
    rw [h.copies weight] at hle
    refine Nat.le_trans hle (Nat.add_le_add_left ?_ _)
    rcases h.flow with hnone | heq
    · rw [show frame.flow = none from hnone]
      exact Nat.zero_le _
    · exact Nat.le_of_eq (congrArg _ heq)
  · rcases hmoved.flights pid flight hget with hold | hnew
    · exact (h.flights pid flight hold).imp_right .inl
    · exact .inr (hsource hnew)
  · rcases hmoved.accepted seq pid hmem with hold | hnew
    · exact (h.accepted seq pid hold).imp_right .inl
    · exact .inr (hsource hnew)

/-- The message in delivery is a copy. -/
theorem inDelivery_le (hnow : s.replay.tasks[t]? = some now)
    (hphase : now.phase = .delivering unmatched pending current) (weight : Int × Nat → Nat) :
    flowWeight weight current.flow ≤ s.copies weight := by
  have hset := Replay.copies_setPhase weight hnow .finished
  have hcopies : now.phase.copies weight =
      tally (fun received => flowWeight weight received.flow) unmatched +
        tally (fun received => flowWeight weight received.flow) pending +
          flowWeight weight current.flow := by
    rw [hphase]
    rfl
  change _ = _ + 0 at hset
  unfold InboundPublishFlow.copies
  omega

/-- A task delivers the message it has taken. -/
theorem BeginsFlow.inTask (h : BeginsFlow s current.flow x) (hnow : s.replay.tasks[t]? = some now)
    (hphase : now.phase = .delivering unmatched pending current) (write : WriteOutcome) :
    Moved none s (InboundPublishFlow.storeTask t task unmatched pending current
      (InboundPublishFlow.settle write x)) := by
  obtain ⟨mid, frame⟩ := x
  have hcopy : ∀ {c}, current.flow = some c → Source s none c := fun hflow =>
    .inr (Nat.lt_of_lt_of_le (flowWeight_one.mpr hflow) (inDelivery_le hnow hphase _))
  have hbegun : Moved none s mid := by
    refine ⟨fun weight => Nat.le_of_eq (h.copies weight), fun pid flight hget => ?_,
      fun seq pid hmem => ?_⟩
    · exact (h.flights pid flight hget).imp_right hcopy
    · exact (h.accepted seq pid hmem).imp_right hcopy
  have hthere : mid.replay.tasks[t]? = some now := by
    rw [h.replay]
    exact hnow
  exact hbegun.trans ((MovesCopy.settle (s := mid) write h.plain).storeTask hthere hphase h.flow)

end Steps

/-! ### The read loop -/

section Reader

variable {s next : InboundPublishFlow} {t : Nat} {task : ReplayTask}

theorem arrived_moved (s : InboundPublishFlow) (packet : Publish) : Moved none s (s.arrived packet) := by
  rw [arrived_frame]
  exact .quiet (fun _ => Nat.le_refl _) rfl fun seq pid hmem =>
    mem_of_mem_event hmem fun h => by cases h

/-- A packet that begins no flow. -/
theorem quiet_reader {mid : InboundPublishFlow} {frame : Frame} (h : Moved none s mid)
    (hidle : OrderedDict.get mid.frames .reader = none) (hplain : frame.Plain)
    (hflow : frame.flow = none) (write : WriteOutcome) :
    Moved none s (storeReader (settle write (mid, frame))) := by
  have hmoved := (MovesCopy.settle (s := mid) write hplain).storeReader hidle
  rw [hflow] at hmoved
  exact h.trans hmoved

/-- A held message has its own copy. -/
theorem hold_moved (s : InboundPublishFlow) (b : Nat) (received : Received) :
    Moved received.flow s (s.hold b (s.replay.buffer b) received).1 := by
  unfold hold
  split
  · exact .quiet (fun _ => Nat.le_add_right _ _) rfl fun _ _ hmem => hmem
  · split
    · refine .quiet (fun _ => Nat.le_add_right _ _) rfl fun seq pid hmem => ?_
      exact mem_of_mem_event (mem_of_mem_event hmem fun h => by cases h) fun h => by cases h
    · refine .quiet (fun weight => ?_) rfl fun seq pid hmem =>
        mem_of_mem_event hmem fun h => by cases h
      have hle := Replay.copies_modifyBuffer weight s.replay b
        fun buffer => buffer.append received
      have happend : ((s.replay.buffer b).append received).publishes =
          (s.replay.buffer b).publishes ++ [received] := rfl
      rw [happend, tally_append, tally_cons, tally_nil] at hle
      have hreplay : (s.replay.modifyBuffer b fun buffer => buffer.append received).copies weight ≤
          s.replay.copies weight + flowWeight weight received.flow := by omega
      have hsum := Nat.add_le_add_left hreplay
        (s.applicationCopies weight + s.readerCopies weight)
      rw [← Nat.add_assoc] at hsum
      exact hsum

/-- A message left to the replay buffer. -/
theorem held_moved {held : InboundPublishFlow} {received : Received} {claim : Option Nat} {b : Nat}
    {new : Option (Int × Nat)} (hmoved : Moved new s (held.hold b (held.replay.buffer b) received).1)
    (write : WriteOutcome)
    (heq : next.selectRecipientOrBuffer received claim =
      held.hold b (held.replay.buffer b) received) :
    Moved new s (storeReader (settle write (next.route received claim write))) := by
  obtain ⟨frame, hroute, rfl | ⟨e, rfl⟩⟩ := route_held heq write
  · rw [hroute]
    exact hmoved
  · rw [hroute]
    exact ⟨hmoved.copies, hmoved.flights, hmoved.accepted⟩

/-- A PUBLISH after the checks of its identifier. -/
theorem route_moved (hidle : OrderedDict.get s.frames .reader = none) (received : Received)
    (claim : Option Nat) (write : WriteOutcome) :
    Moved received.flow s (storeReader (settle write (s.route received claim write))) := by
  have hmessage := s.selectRecipient_message received claim
  rcases s.selectRecipientOrBuffer_cases received claim with
    ⟨-, heq⟩ | ⟨-, -, -, heq⟩ | ⟨b, -, heq⟩ | ⟨-, heq⟩
  · unfold InboundPublishFlow.route
    rw [heq]
    exact (deliverReplay_begins s hmessage write).reader hidle write
  · unfold InboundPublishFlow.route
    rw [heq]
    have hwarned : Moved none s (s.emit (.noSubscriber received.seq)) := .emit s fun _ _ h => by cases h
    exact hwarned.after ((deliverReplay_begins (s.emit (.noSubscriber received.seq)) hmessage
      write).reader hidle write)
  · exact held_moved (hold_moved s b received) write heq
  · -- the buffer is new
    have hbuffer : (s.setReplay s.replay.addBuffer).replay.buffer s.replay.buffers.length = {} := by
      simp [InboundPublishFlow.setReplay, Replay.buffer, Replay.addBuffer]
    have hmoved := hold_moved (s.setReplay s.replay.addBuffer) s.replay.buffers.length received
    have hadded : Moved none s (s.setReplay s.replay.addBuffer) :=
      .setReplay fun weight => Nat.le_of_eq (Replay.copies_addBuffer weight)
    exact held_moved (hadded.after hmoved) write (by rw [hbuffer]; exact heq)

/-- A PUBLISH brings its own copy at most, and only if nothing is left of its identifier. -/
theorem publish_moved (hidle : s.readerIdle = true) (packet : Publish) (claim : Option Nat)
    (write : WriteOutcome) :
    Moved none s (storeReader (settle write (s.handlePublish packet claim write))) ∨
      (Moved ({ seq := s.nextSeq, publish := packet } : Received).flow s
          (storeReader (settle write (s.handlePublish packet claim write))) ∧
        s.Fresh packet ∧
        (packet.qos ≠ .atMostOnce →
          ∃ pid, packet.packetId = some pid ∧ s.replay.containsPacketId pid = false)) := by
  have harrived := arrived_moved s packet
  have hfree : OrderedDict.get (s.arrived packet).frames .reader = none := by
    rw [arrived_frame]
    exact Option.isNone_iff_eq_none.mp (Bool.and_eq_true_iff.mp hidle).2
  rcases s.handlePublish_cases packet claim write with
    ⟨-, -, heq⟩ | ⟨-, msg, heq⟩ | ⟨-, -, heq⟩ | ⟨-, -, pid, flight, -, -, heq⟩ |
    ⟨-, hfresh, hknown, heq⟩
  · rw [heq]
    exact .inl (quiet_reader harrived hfree (by trivial) rfl write)
  · rw [heq]
    exact .inl (quiet_reader (harrived.trans (.emit _ fun _ _ h => by cases h)) hfree (by trivial)
      rfl write)
  · rw [heq]
    exact .inl (quiet_reader harrived hfree (by trivial) rfl write)
  · rw [heq]
    refine .inl (quiet_reader (harrived.trans (.emit _ fun _ _ h => by cases h)) hfree ?_ ?_ write)
    · cases write <;> trivial
    · cases write <;> rfl
  · rw [heq]
    exact .inr ⟨harrived.after (route_moved hfree { seq := s.nextSeq, publish := packet } claim write),
      hfresh, hknown⟩

/-- A PUBREL takes its flow out. -/
theorem pubrel_moved (h : Registered s) (hidle : s.readerIdle = true) (packet : PubReply)
    (write : WriteOutcome) :
    Moved none s (storeReader (settle write (s.handlePubrel packet write))) := by
  have hfree : OrderedDict.get s.frames .reader = none :=
    Option.isNone_iff_eq_none.mp (Bool.and_eq_true_iff.mp hidle).2
  have hreceived : Moved none s (s.emit (.receivedPubrel packet.packetId)) :=
    .emit s fun _ _ h => by cases h
  unfold handlePubrel
  simp only
  split
  · refine quiet_reader (hreceived.trans (.emit _ fun _ _ h => by cases h)) hfree ?_ ?_ write
    · cases write <;> trivial
    · cases write <;> rfl
  · rename_i flight hget
    have hclosed : Moved none (s.emit (.receivedPubrel packet.packetId))
        ((s.emit (.receivedPubrel packet.packetId)).closeFlight packet.packetId flight) := by
      refine ⟨fun _ => Nat.le_refl _, fun pid other hother => .inl ?_, fun seq pid hmem => .inl ?_⟩
      · change OrderedDict.get (OrderedDict.pop s.inflightQos2In packet.packetId) pid = _ at hother
        rw [OrderedDict.get_pop] at hother
        split at hother
        · cases hother
        · exact hother
      · exact mem_of_mem_event hmem fun h => by cases h
    refine quiet_reader (hreceived.trans hclosed) hfree ?_ ?_ write
    · cases hdelivered : flight.delivered with
      | true => cases write <;> trivial
      | false =>
          have hnone := h.flights _ (OrderedDict.mem_of_get hget) hdelivered
          cases write with
          | done => exact ⟨hnone, fun hne => absurd rfl hne⟩
          | suspended => exact hnone
          | failed => trivial
    · cases write with
      | done => split <;> rfl
      | suspended => rfl
      | failed => rfl

/-- The read loop goes on. -/
theorem resumeReader_moved (h : Registered s) {frame : Frame}
    (hframe : OrderedDict.get s.frames .reader = some frame) (ok : Bool) (write : WriteOutcome) :
    Moved none s (storeReader (settle write
      ({ s with frames := OrderedDict.pop s.frames .reader }, resumed frame ok))) := by
  have hpopped : OrderedDict.get (OrderedDict.pop s.frames .reader) .reader = none := by
    rw [OrderedDict.get_pop, if_pos rfl]
  have hplain : (resumed frame ok).Plain :=
    resumed_plain (h.frames _ (OrderedDict.mem_of_get hframe)) ok
  have hmoved := (MovesCopy.settle (s := { s with frames := OrderedDict.pop s.frames .reader })
    write hplain).storeReader hpopped
  -- the copy of the read loop is in its hands again
  have htaken : ∀ weight,
      ({ s with frames := OrderedDict.pop s.frames .reader } : InboundPublishFlow).copies weight +
        flowWeight weight frame.flow = s.copies weight := by
    intro weight
    have hnone : ({ s with frames := OrderedDict.pop s.frames .reader } :
        InboundPublishFlow).readerCopies weight = 0 := by
      rw [InboundPublishFlow.readerCopies, hpopped]
      rfl
    have hsome : s.readerCopies weight = flowWeight weight frame.flow := by
      rw [InboundPublishFlow.readerCopies, hframe, Option.bind_some]
    unfold InboundPublishFlow.copies
    rw [hnone, hsome]
    change s.applicationCopies weight + 0 + s.replay.copies weight + _ = _
    omega
  have hless : ∀ weight, flowWeight weight (resumed frame ok).flow ≤ flowWeight weight frame.flow := by
    intro weight
    rcases resumed_flow frame ok with hnone | heq
    · rw [hnone]
      exact Nat.zero_le _
    · rw [heq]
  have hsource : ∀ {c}, Source { s with frames := OrderedDict.pop s.frames .reader }
      (resumed frame ok).flow c → Source s none c := by
    rintro c (hnew | hpos)
    · have hone := flowWeight_one.mpr hnew
      have := hless (one c)
      have := htaken (one c)
      exact .inr (by omega)
    · have := htaken (one c)
      exact .inr (by omega)
  refine ⟨fun weight => ?_, fun pid flight hget => ?_, fun seq pid hmem => ?_⟩
  · have := hmoved.copies weight
    have := hless weight
    have := htaken weight
    change _ ≤ _ + 0
    omega
  · exact (hmoved.flights pid flight hget).imp_right hsource
  · exact (hmoved.accepted seq pid hmem).imp_right hsource

end Reader

/-! ### The application -/

section Application

variable {s : InboundPublishFlow}

/-- A message goes from its queue to the application. -/
theorem get_moved {queue : Nat} {found : Message × List (Nat × Message)}
    (hfound : getNowait queue s.queued = some found) :
    Moved none s { s with queued := found.2, taken := s.taken ++ [found.1] } := by
  obtain ⟨before, after, hqueued, hrest, -⟩ := getNowait_split hfound
  refine .quiet (fun weight => ?_) rfl fun _ _ hmem => hmem
  refine Nat.le_of_eq (congrArg (· + _ + _) ?_)
  simp only [applicationCopies]
  rw [hqueued, hrest]
  simp only [tally_append, tally_cons, tally_nil]
  omega

/-- `detach` empties a queue. -/
theorem detach_moved (s : InboundPublishFlow) (filters : List Str) (queue : Nat) :
    Moved none s (s.detach filters queue) := by
  refine .quiet (fun weight => ?_) rfl fun _ _ hmem => hmem
  have hless := tally_filter_le (fun item : Nat × Message => flowWeight weight item.2.flow)
    (fun item => decide (item.1 ≠ queue)) s.queued
  exact Nat.add_le_add_right (Nat.add_le_add_right (Nat.add_le_add_right hless _) _) _

/-- `ack()` begins the flow of the message it is called on. -/
theorem ack_moved {i : Nat} {message : Message} (htaken : s.taken[i]? = some message) :
    Moved none s (s.ack i message) := by
  -- the marked message is no copy any more
  have hmarked : ∀ marked : Message, marked.resolved = true → ∀ weight,
      (s.setTaken i marked).copies weight ≤ s.copies weight := by
    intro marked hresolved weight
    have hset := tally_set (fun message : Message => flowWeight weight message.flow) htaken marked
    have hnone : flowWeight weight marked.flow = 0 := by
      rw [Message.flow, if_pos hresolved]
      rfl
    refine Nat.add_le_add_right (Nat.add_le_add_right (Nat.add_le_add_left ?_ _) _) _
    change tally _ (s.taken.set i marked) ≤ _
    omega
  cases hresolved : message.resolved with
  | true =>
      have hsame : s.ack i message = s := by simp [InboundPublishFlow.ack, hresolved]
      rw [hsame]
      exact .quiet (fun _ => Nat.le_refl _) rfl fun _ _ hmem => hmem
  | false =>
      rcases s.ack_cases i message with heq | ⟨marked, hmark, -, -, heq | ⟨pid, -, -, heq⟩⟩ |
        ⟨pid, subscription, hcallback, heq⟩
      · rw [heq]
        exact .quiet (fun _ => Nat.le_refl _) rfl fun _ _ hmem => hmem
      · rw [heq]
        exact .quiet (hmarked marked hmark) rfl fun _ _ hmem => hmem
      · rw [heq]
        refine .quiet (hmarked marked hmark) rfl fun seq other hmem => ?_
        exact mem_of_mem_event (mem_of_mem_event hmem fun h => by cases h) fun h => by cases h
      · rw [heq]
        have hflow : message.flow = some (pid, message.seq) := by
          simp [Message.flow, hresolved, hcallback, pubrecFlow]
        have hcopy : 0 < s.copies (one (pid, message.seq)) := by
          have hle := le_tally (fun message : Message => flowWeight (one (pid, message.seq))
            message.flow) (List.mem_of_getElem? htaken)
          have hle' := le_tally (fun other : Message => flowWeight (one (pid, message.seq))
            other.flow) (List.mem_of_getElem? htaken)
          have hone := flowWeight_one.mpr hflow
          unfold InboundPublishFlow.copies applicationCopies
          omega
        refine ⟨hmarked _ rfl, fun other flight hget => ?_, fun seq other hmem => .inl ?_⟩
        · change OrderedDict.get (OrderedDict.set s.inflightQos2In pid _) other = _ at hget
          rw [OrderedDict.get_set] at hget
          split at hget
          · rename_i heq'
            cases hget
            subst heq'
            exact .inr (.inr hcopy)
          · exact .inl hget
        · exact mem_of_mem_event (mem_of_mem_event hmem fun h => by cases h) fun h => by cases h

end Application

/-! ### The tasks of the replay buffer -/

section Tasks

variable {s next : InboundPublishFlow} {t : Nat} {task : ReplayTask}

/-- Dropped messages begin no flow. -/
theorem dropAll_moved (s : InboundPublishFlow) (dropped : List Received) :
    Moved none s (s.dropAll dropped) := by
  refine .quiet (fun _ => Nat.le_refl _) rfl fun seq pid hmem => ?_
  refine (List.mem_append.mp hmem).resolve_left fun hnew => ?_
  obtain ⟨received, -, heq⟩ := List.mem_map.mp (List.mem_reverse.mp hnew)
  cases heq

/-- `clear` drops what the buffer holds. -/
theorem clear_moved (s : InboundPublishFlow) : Moved none s s.clear := by
  unfold clear
  split
  · exact .quiet (fun _ => Nat.le_refl _) rfl fun _ _ hmem => hmem
  · exact .setReplay fun _ => Nat.le_refl _
  · rename_i b hstate
    refine Moved.trans (.setReplay fun weight => ?_) (dropAll_moved _ _)
    have hcancelled := Replay.copies_cancelExpiration weight s.replay b
    have hemptied := Replay.copies_modifyBuffer weight (s.replay.cancelExpiration b) b
      ReplayBuffer.emptied
    change _ ≤ _ + 0 at hemptied
    change ((s.replay.cancelExpiration b).modifyBuffer b ReplayBuffer.emptied).copies weight ≤ _
    omega

/-- The end of `drain`. -/
theorem finishDrain_moved (htask : s.replay.tasks[t]? = some task) {unmatched : List Received}
    (hphase : task.phase = .looping unmatched []) :
    Moved none s (s.finishDrain t task.buffer unmatched) := by
  have hreleased : ∀ weight, (s.replay.release task.buffer t unmatched []).copies weight ≤
      s.replay.copies weight := by
    intro weight
    have hle := Replay.copies_release weight htask task.buffer unmatched []
    have hcopies : task.phase.copies weight =
        tally (fun received => flowWeight weight received.flow) unmatched + 0 + 0 := by
      rw [hphase]
      rfl
    rw [tally_nil] at hle
    omega
  unfold finishDrain
  simp only
  split
  · exact .setReplay hreleased
  · refine .setReplay fun weight => ?_
    change ((s.replay.release task.buffer t unmatched []).cancelExpiration task.buffer).copies
      weight ≤ _
    rw [Replay.copies_cancelExpiration]
    exact hreleased weight

/-- The end of `expire`. -/
theorem finishExpire_moved (htask : s.replay.tasks[t]? = some task) {unmatched : List Received}
    (hphase : task.phase = .looping unmatched []) :
    Moved none s (s.finishExpire t task.buffer unmatched) := by
  unfold finishExpire
  simp only
  refine Moved.trans (.setReplay fun weight => ?_) (dropAll_moved _ _)
  rw [Replay.copies_endExpiration]
  change ((s.replay.release task.buffer t unmatched []).modifyBuffer task.buffer
    ReplayBuffer.emptied).copies weight ≤ _
  have hreleased := Replay.copies_release weight htask task.buffer unmatched []
  have hemptied := Replay.copies_modifyBuffer weight
    (s.replay.release task.buffer t unmatched []) task.buffer ReplayBuffer.emptied
  have hcopies : task.phase.copies weight =
      tally (fun received => flowWeight weight received.flow) unmatched + 0 + 0 := by
    rw [hphase]
    rfl
  change _ ≤ _ + 0 at hemptied
  rw [tally_nil] at hreleased
  omega

/-- A task goes on with the messages it has. -/
theorem setPhase_moved (htask : s.replay.tasks[t]? = some task) {phase : ReplayPhase}
    (hphase : ∀ weight, phase.copies weight = task.phase.copies weight) :
    Moved none s (s.setReplay (s.replay.setPhase t phase)) := by
  refine .setReplay fun weight => ?_
  have hset := Replay.copies_setPhase weight htask phase
  have := hphase weight
  omega

/-- A round of `_deliver_pending`. -/
theorem deliverNext_moved {claim : Option Nat} {write : WriteOutcome}
    (htask : s.replay.tasks[t]? = some task)
    (hnext : s.deliverNext t task claim write = some next) : Moved none s next := by
  rcases deliverNext_cases hnext with ⟨unmatched, hphase, -, -, rfl⟩ |
    ⟨unmatched, hphase, -, -, rfl⟩ | ⟨unmatched, hphase, rfl⟩ |
    ⟨unmatched, received, pending, hphase, rfl⟩ |
    ⟨unmatched, received, pending, hphase, -, rfl⟩
  · exact finishExpire_moved htask hphase
  · exact finishDrain_moved htask hphase
  · -- the messages of the buffer become the messages of the task
    refine .setReplay fun weight => ?_
    have hbuffer := Replay.copies_modifyBuffer weight s.replay task.buffer
      fun buffer => { buffer with publishes := [] }
    have hset := Replay.copies_setPhase weight
      (show (s.replay.modifyBuffer task.buffer fun buffer =>
        { buffer with publishes := [] }).tasks[t]? = some task from htask)
      (.looping unmatched (s.replay.buffer task.buffer).publishes)
    rw [hphase] at hset
    change _ ≤ _ + 0 at hbuffer
    change _ + (_ + 0 + 0) = _ + (_ + _ + 0) at hset
    omega
  · refine setPhase_moved htask fun weight => ?_
    rw [hphase]
    simp only [ReplayPhase.copies, ReplayPhase.tally, ReplayPhase.inDelivery, tally_append,
      tally_cons, tally_nil]
    omega
  · -- the first message of the task is in delivery
    have htaken : Moved none s
        (s.setReplay (s.replay.setPhase t (.delivering unmatched pending received))) := by
      refine setPhase_moved htask fun weight => ?_
      rw [hphase]
      simp only [ReplayPhase.copies, ReplayPhase.tally, ReplayPhase.inDelivery, tally_cons,
        flowWeight, Option.elim_none]
      omega
    have hnow : (s.setReplay (s.replay.setPhase t
        (.delivering unmatched pending received))).replay.tasks[t]? =
          some { task with phase := .delivering unmatched pending received } := by
      simp only [InboundPublishFlow.setReplay, Replay.setPhase, List.getElem?_modify, if_true, htask]
      rfl
    have hbegins := deliverReplay_begins
      (s.setReplay (s.replay.setPhase t (.delivering unmatched pending received)))
      (s.selectRecipient_message received claim) write
    exact htaken.trans (hbegins.inTask hnow rfl write)

/-- Where the task stands. -/
def Replay.phaseAt (replay : Replay) (t : Nat) : Option ReplayPhase :=
  replay.tasks[t]?.map ReplayTask.phase

/-- A task that is suspended in a message has it in delivery. -/
def TaskFrames (s : InboundPublishFlow) : Prop :=
  ∀ t frame, OrderedDict.get s.frames (.task t) = some frame →
    ∃ unmatched pending current, s.replay.phaseAt t = some (.delivering unmatched pending current) ∧
      (frame.flow = none ∨ frame.flow = current.flow)

theorem popTask_copies (s : InboundPublishFlow) (t : Nat) (weight : Int × Nat → Nat) :
    ({ s with frames := OrderedDict.pop s.frames (.task t) } : InboundPublishFlow).copies weight =
      s.copies weight := by
  have hreader : OrderedDict.get (OrderedDict.pop s.frames (.task t)) .reader =
      OrderedDict.get s.frames .reader := by
    rw [OrderedDict.get_pop, if_neg fun h => by cases h]
  unfold InboundPublishFlow.copies InboundPublishFlow.readerCopies
  simp only [hreader]
  rfl

/-- A suspended task goes on. -/
theorem resumeTask_moved (h : Registered s) (hframes : TaskFrames s) {ok : Bool}
    {write : WriteOutcome} (htask : s.replay.tasks[t]? = some task)
    (hnext : s.resumeTask t task ok write = some next) : Moved none s next := by
  unfold resumeTask at hnext
  cases hphase : task.phase with
  | waiting =>
      simp only [hphase] at hnext
      obtain ⟨-, heq⟩ := Option.ite_none_right_eq_some.mp hnext
      cases heq
      have hfinished : ∀ weight, (s.replay.setPhase t .finished).copies weight ≤
          s.replay.copies weight := by
        intro weight
        have hset := Replay.copies_setPhase weight htask .finished
        change _ = _ + 0 at hset
        omega
      refine .setReplay fun weight => ?_
      split
      · rw [Replay.copies_endExpiration]
        exact hfinished weight
      · exact hfinished weight
  | looping unmatched pending => simp [hphase] at hnext
  | finished => simp [hphase] at hnext
  | delivering unmatched pending current =>
      simp only [hphase] at hnext
      obtain ⟨frame, hframe, rfl⟩ := Option.map_eq_some_iff.mp hnext
      obtain ⟨unmatched', pending', current', hnow, hflow⟩ := hframes t frame hframe
      rw [Replay.phaseAt, htask, Option.map_some, hphase] at hnow
      cases hnow
      have hplain : (resumed frame (ok && !task.cancelRequested)).Plain :=
        resumed_plain (h.frames _ (OrderedDict.mem_of_get hframe)) _
      have hresumed : (resumed frame (ok && !task.cancelRequested)).flow = none ∨
          (resumed frame (ok && !task.cancelRequested)).flow = current.flow := by
        rcases resumed_flow frame (ok && !task.cancelRequested) with hnone | heq
        · exact .inl hnone
        · rw [heq]
          exact hflow
      have hpopped : Moved none s { s with frames := OrderedDict.pop s.frames (.task t) } :=
        .quiet (fun weight => Nat.le_of_eq (popTask_copies s t weight)) rfl fun _ _ hmem => hmem
      exact hpopped.trans ((MovesCopy.settle
        (s := { s with frames := OrderedDict.pop s.frames (.task t) }) write hplain).storeTask
          htask hphase hresumed)

theorem phaseAt_setPhase_ne (replay : Replay) {t' : Nat} (hne : t' ≠ t) (phase : ReplayPhase) :
    (replay.setPhase t phase).phaseAt t' = replay.phaseAt t' := by
  unfold Replay.phaseAt Replay.setPhase
  rw [List.getElem?_modify_ne _ _ (Ne.symm hne)]

theorem phaseAt_setPhase {replay : Replay} (htask : replay.tasks[t]? = some task)
    (phase : ReplayPhase) : (replay.setPhase t phase).phaseAt t = some phase := by
  simp [Replay.phaseAt, Replay.setPhase, htask]

theorem phaseAt_cancel (replay : Replay) (t t' : Nat) :
    (replay.cancel t).phaseAt t' = replay.phaseAt t' := by
  unfold Replay.phaseAt Replay.cancel
  rw [List.getElem?_modify]
  cases replay.tasks[t']? with
  | none => rfl
  | some task => split <;> rfl

theorem phaseAt_cancelExpiration (replay : Replay) (b t : Nat) :
    (replay.cancelExpiration b).phaseAt t = replay.phaseAt t := by
  unfold Replay.cancelExpiration
  simp only
  split
  · exact phaseAt_cancel _ _ _
  · rfl

theorem phaseAt_addTask {replay : Replay} {phase : ReplayPhase} {b : Nat} {expires : Bool}
    (h : replay.phaseAt t = some phase) :
    (replay.addTask b expires).phaseAt t = replay.phaseAt t := by
  obtain ⟨task, htask, rfl⟩ := Option.map_eq_some_iff.mp h
  have hlt := (List.getElem?_eq_some_iff.mp htask).1
  unfold Replay.phaseAt Replay.addTask
  rw [List.getElem?_append_left hlt]

namespace TaskFrames

/-- The suspended tasks stand where they stood. -/
theorem keep (h : TaskFrames s)
    (hframes : ∀ t frame, OrderedDict.get next.frames (.task t) = some frame →
      OrderedDict.get s.frames (.task t) = some frame ∧
        next.replay.phaseAt t = s.replay.phaseAt t) : TaskFrames next := by
  intro t frame hframe
  obtain ⟨hold, hphase⟩ := hframes t frame hframe
  rw [hphase]
  exact h t frame hold

theorem same (h : TaskFrames s) (hframes : next.frames = s.frames)
    (hphases : ∀ t, next.replay.phaseAt t = s.replay.phaseAt t) : TaskFrames next :=
  h.keep fun t _ hframe => ⟨hframes ▸ hframe, hphases t⟩

/-- A task outside of a message has no frame. -/
theorem free (h : TaskFrames s) (htask : s.replay.tasks[t]? = some task)
    (hphase : ∀ unmatched pending current, task.phase ≠ .delivering unmatched pending current) :
    OrderedDict.get s.frames (.task t) = none := by
  cases hframe : OrderedDict.get s.frames (.task t) with
  | none => rfl
  | some frame =>
      obtain ⟨unmatched, pending, current, hnow, -⟩ := h t frame hframe
      rw [Replay.phaseAt, htask] at hnow
      exact absurd (Option.some.inj hnow) (hphase _ _ _)

/-- A task without a frame moves. -/
theorem setPhase (h : TaskFrames s) (hfree : OrderedDict.get s.frames (.task t) = none)
    (hframes : next.frames = s.frames)
    (hphases : ∀ t', t' ≠ t → next.replay.phaseAt t' = s.replay.phaseAt t') : TaskFrames next := by
  refine h.keep fun t' frame hframe => ?_
  rw [hframes] at hframe
  refine ⟨hframe, hphases t' fun heq => ?_⟩
  rw [heq, hfree] at hframe
  cases hframe

/-- The frame of the read loop is not that of a task. -/
theorem storeReader (h : TaskFrames s) (frame : Frame) :
    TaskFrames (InboundPublishFlow.storeReader (s, frame)) := by
  have hstored : TaskFrames { s with frames := OrderedDict.set s.frames .reader frame } := by
    refine h.keep fun t other hother => ⟨?_, rfl⟩
    rwa [OrderedDict.get_set, if_neg fun h => by cases h] at hother
  cases frame with
  | returned => exact h
  | raised e => exact h.same rfl fun _ => rfl
  | _ => exact hstored

theorem popReader (h : TaskFrames s) :
    TaskFrames { s with frames := OrderedDict.pop s.frames .reader } := by
  refine h.keep fun t frame hframe => ⟨?_, rfl⟩
  rwa [OrderedDict.get_pop, if_neg fun h => by cases h] at hframe

theorem movesCopy (h : TaskFrames s) {frame : Frame} {x : InboundPublishFlow × Frame}
    (hmoves : MovesCopy s frame x) : TaskFrames x.1 := by
  obtain ⟨unacknowledged, queued, log, hsame⟩ := hmoves.same
  rw [hsame]
  exact h.same rfl fun _ => rfl

/-- A task that raises is finished. -/
theorem raiseFromTask (h : TaskFrames s) (hfree : OrderedDict.get s.frames (.task t) = none)
    (unmatched pending : List Received) :
    TaskFrames (s.raiseFromTask t task unmatched pending) := by
  have hreleased : ∀ t', t' ≠ t →
      (s.replay.release task.buffer t unmatched pending).phaseAt t' = s.replay.phaseAt t' :=
    fun t' hne => phaseAt_setPhase_ne _ hne _
  unfold InboundPublishFlow.raiseFromTask
  simp only
  split
  · split
    · exact h.setPhase hfree rfl hreleased
    · exact h.setPhase hfree rfl hreleased
  · exact h.setPhase hfree rfl hreleased

/-- A task is finished with its message, or suspended in it. -/
theorem storeTask (h : TaskFrames s) (hfree : OrderedDict.get s.frames (.task t) = none)
    {unmatched pending : List Received} {current : Received}
    (hphase : s.replay.phaseAt t = some (.delivering unmatched pending current)) {frame : Frame}
    (hflow : frame.flow = none ∨ frame.flow = current.flow) :
    TaskFrames (InboundPublishFlow.storeTask t task unmatched pending current (s, frame)) := by
  have hstored : TaskFrames { s with frames := OrderedDict.set s.frames (.task t) frame } := by
    intro t' other hother
    simp only [OrderedDict.get_set] at hother
    split at hother
    · rename_i heq
      cases heq
      cases hother
      exact ⟨unmatched, pending, current, hphase, hflow⟩
    · exact h t' other hother
  cases frame with
  | returned =>
      have hdiscarded : TaskFrames (s.setReplay (s.replay.modifyBuffer task.buffer fun _ =>
          ((s.replay.buffer task.buffer).discard current).1)) := h.same rfl fun _ => rfl
      simp only [InboundPublishFlow.storeTask]
      split
      · exact hdiscarded.raiseFromTask hfree _ _
      · exact hdiscarded.setPhase hfree rfl fun t' hne => phaseAt_setPhase_ne _ hne _
  | raised e => exact h.raiseFromTask hfree _ _
  | _ => exact hstored

/-- A held message moves no task. -/
theorem hold (h : TaskFrames s) (b : Nat) (buffer : ReplayBuffer) (received : Received) :
    TaskFrames (s.hold b buffer received).1 := by
  unfold InboundPublishFlow.hold
  split
  · exact h
  · split
    · exact h.same rfl fun _ => rfl
    · exact h.same rfl fun _ => rfl

theorem begins (h : TaskFrames s) {copy : Option (Int × Nat)} {x : InboundPublishFlow × Frame}
    (hbegins : BeginsFlow s copy x) : TaskFrames x.1 := by
  obtain ⟨inflight, pending, log, hsame⟩ := hbegins.same
  rw [hsame]
  exact h.same rfl fun _ => rfl

theorem route (h : TaskFrames s) (received : Received) (claim : Option Nat)
    (write : WriteOutcome) : TaskFrames (s.route received claim write).1 := by
  have hmessage := s.selectRecipient_message received claim
  have hheld : ∀ {held : InboundPublishFlow} {b : Nat} {buffer : ReplayBuffer}, TaskFrames held →
      s.selectRecipientOrBuffer received claim = held.hold b buffer received →
      TaskFrames (s.route received claim write).1 := by
    intro held b buffer hheld heq
    obtain ⟨frame, hroute, -⟩ := route_held heq write
    rw [hroute]
    exact hheld.hold b buffer received
  rcases s.selectRecipientOrBuffer_cases received claim with
    ⟨-, heq⟩ | ⟨-, -, -, heq⟩ | ⟨b, -, heq⟩ | ⟨-, heq⟩
  · unfold InboundPublishFlow.route
    rw [heq]
    exact h.begins (deliverReplay_begins s hmessage write)
  · have hwarned : TaskFrames (s.emit (.noSubscriber received.seq)) := h.same rfl fun _ => rfl
    unfold InboundPublishFlow.route
    rw [heq]
    exact hwarned.begins (deliverReplay_begins (s.emit (.noSubscriber received.seq)) hmessage write)
  · exact hheld h heq
  · have hadded : TaskFrames (s.setReplay s.replay.addBuffer) := h.same rfl fun _ => rfl
    exact hheld hadded heq

/-- A PUBLISH moves no task. -/
theorem handlePublish (h : TaskFrames s) (packet : Publish) (claim : Option Nat)
    (write : WriteOutcome) : TaskFrames (s.handlePublish packet claim write).1 := by
  have harrived : TaskFrames (s.arrived packet) := by
    rw [arrived_frame]
    exact h.same rfl fun _ => rfl
  rcases s.handlePublish_cases packet claim write with
    ⟨-, -, heq⟩ | ⟨-, msg, heq⟩ | ⟨-, -, heq⟩ | ⟨-, -, pid, flight, -, -, heq⟩ | ⟨-, -, -, heq⟩
  · rw [heq]
    exact harrived
  · rw [heq]
    exact harrived.same rfl fun _ => rfl
  · rw [heq]
    exact harrived
  · rw [heq]
    exact harrived.same rfl fun _ => rfl
  · rw [heq]
    exact harrived.route _ claim write

/-- A PUBREL moves no task. -/
theorem handlePubrel (h : TaskFrames s) (packet : PubReply) (write : WriteOutcome) :
    TaskFrames (s.handlePubrel packet write).1 := by
  have haside := Aside.handlePubrel s packet write
  exact h.same haside.frames fun _ => by rw [haside.replay]

theorem settleReader {x : InboundPublishFlow × Frame} (h : TaskFrames x.1) (write : WriteOutcome) :
    TaskFrames (InboundPublishFlow.storeReader (settle write x)) := by
  have haside := Aside.settle write x
  have hsettled : TaskFrames (settle write x).1 :=
    h.same haside.frames fun _ => by rw [haside.replay]
  exact hsettled.storeReader _

/-- A task works on the message it has in delivery. -/
theorem settleTask {frame : Frame} (h : TaskFrames s) (write : WriteOutcome)
    (hfree : OrderedDict.get s.frames (.task t) = none) {unmatched pending : List Received}
    {current : Received}
    (hphase : s.replay.phaseAt t = some (.delivering unmatched pending current))
    (hplain : frame.Plain) (hflow : frame.flow = none ∨ frame.flow = current.flow) :
    TaskFrames (InboundPublishFlow.storeTask t task unmatched pending current
      (settle write (s, frame))) := by
  have hmoves := MovesCopy.settle (s := s) write hplain
  have hmid := h.movesCopy hmoves
  generalize settle write (s, frame) = x at hmoves hmid
  obtain ⟨mid, after⟩ := x
  obtain ⟨unacknowledged, queued, log, hsame⟩ := hmoves.same
  replace hsame : mid = { s with unacknowledged, queued, log } := hsame
  have hafter : after.flow = none ∨ after.flow = frame.flow := by
    rcases hmoves.copy with ⟨hsameFlow, -⟩ | ⟨hreturned, -⟩
    · exact hsameFlow
    · exact .inl (by rw [show after = .returned from hreturned]; rfl)
  refine hmid.storeTask ?_ ?_ ?_
  · rw [hsame]
    exact hfree
  · rw [hsame]
    exact hphase
  · rcases hafter with hnone | heq
    · exact .inl hnone
    · rw [heq]
      exact hflow

/-- A round of `_deliver_pending` moves its own task only. -/
theorem deliverNext (h : TaskFrames s) {claim : Option Nat} {write : WriteOutcome}
    (htask : s.replay.tasks[t]? = some task)
    (hnext : s.deliverNext t task claim write = some next) : TaskFrames next := by
  rcases deliverNext_cases hnext with ⟨unmatched, hphase, -, -, rfl⟩ |
    ⟨unmatched, hphase, -, -, rfl⟩ | ⟨unmatched, hphase, rfl⟩ |
    ⟨unmatched, received, pending, hphase, rfl⟩ |
    ⟨unmatched, received, pending, hphase, -, rfl⟩
  all_goals
    have hfree : OrderedDict.get s.frames (.task t) = none :=
      h.free htask fun _ _ _ hdelivering => by rw [hphase] at hdelivering; cases hdelivering
  · exact h.setPhase hfree rfl fun t' hne => phaseAt_setPhase_ne _ hne _
  · unfold InboundPublishFlow.finishDrain
    simp only
    split
    · exact h.setPhase hfree rfl fun t' hne => phaseAt_setPhase_ne _ hne _
    · refine h.setPhase hfree rfl fun t' hne => ?_
      exact (phaseAt_cancelExpiration _ _ _).trans (phaseAt_setPhase_ne _ hne _)
  · exact h.setPhase hfree rfl fun t' hne => phaseAt_setPhase_ne _ hne _
  · exact h.setPhase hfree rfl fun t' hne => phaseAt_setPhase_ne _ hne _
  · have htaken : TaskFrames
        (s.setReplay (s.replay.setPhase t (.delivering unmatched pending received))) :=
      h.setPhase hfree rfl fun t' hne => phaseAt_setPhase_ne _ hne _
    have hbegins := deliverReplay_begins
      (s.setReplay (s.replay.setPhase t (.delivering unmatched pending received)))
      (s.selectRecipient_message received claim) write
    obtain ⟨inflight, acknowledging, log, hsame⟩ := hbegins.same
    refine (htaken.begins hbegins).settleTask write ?_ ?_ hbegins.plain hbegins.flow
    · rw [hsame]
      exact hfree
    · rw [hsame]
      exact phaseAt_setPhase htask _

/-- A suspended task goes on, and no other moves. -/
theorem resumeTask (h : TaskFrames s) (hregistered : Registered s) {ok : Bool}
    {write : WriteOutcome} (htask : s.replay.tasks[t]? = some task)
    (hnext : s.resumeTask t task ok write = some next) : TaskFrames next := by
  unfold InboundPublishFlow.resumeTask at hnext
  cases hphase : task.phase with
  | waiting =>
      simp only [hphase] at hnext
      obtain ⟨-, heq⟩ := Option.ite_none_right_eq_some.mp hnext
      cases heq
      have hfree : OrderedDict.get s.frames (.task t) = none :=
        h.free htask fun _ _ _ hdelivering => by rw [hphase] at hdelivering; cases hdelivering
      refine h.setPhase hfree rfl fun t' hne => ?_
      have hfinished := phaseAt_setPhase_ne s.replay hne .finished
      simp only [setReplay]
      split
      · exact hfinished
      · exact hfinished
  | looping unmatched pending => simp [hphase] at hnext
  | finished => simp [hphase] at hnext
  | delivering unmatched pending current =>
      simp only [hphase] at hnext
      obtain ⟨frame, hframe, rfl⟩ := Option.map_eq_some_iff.mp hnext
      obtain ⟨unmatched', pending', current', hnow, hflow⟩ := h t frame hframe
      have hphaseAt : s.replay.phaseAt t = some (.delivering unmatched pending current) := by
        rw [Replay.phaseAt, htask, Option.map_some, hphase]
      rw [hphaseAt] at hnow
      cases hnow
      have hpopped : TaskFrames { s with frames := OrderedDict.pop s.frames (.task t) } := by
        refine h.keep fun t' other hother => ⟨?_, rfl⟩
        simp only [OrderedDict.get_pop] at hother
        split at hother
        · cases hother
        · exact hother
      refine hpopped.settleTask write ?_ hphaseAt
        (resumed_plain (hregistered.frames _ (OrderedDict.mem_of_get hframe)) _) ?_
      · simp [OrderedDict.get_pop]
      · rcases resumed_flow frame (ok && !task.cancelRequested) with hnone | heq
        · exact .inl hnone
        · exact heq ▸ hflow

/-- **Step lemma.** -/
theorem step (h : TaskFrames s) (hregistered : Registered s) {a : Action}
    (hstep : s.step a = some next) : TaskFrames next := by
  cases a with
  | publish packet claim write =>
      obtain ⟨-, heq⟩ := Option.ite_none_right_eq_some.mp hstep
      cases heq
      exact (h.handlePublish packet claim write).settleReader write
  | pubrel packet write =>
      obtain ⟨-, heq⟩ := Option.ite_none_right_eq_some.mp hstep
      cases heq
      exact (h.handlePubrel packet write).settleReader write
  | resumeReader ok write =>
      obtain ⟨frame, -, rfl⟩ := Option.map_eq_some_iff.mp hstep
      exact settleReader (x := ({ s with frames := OrderedDict.pop s.frames .reader },
        resumed frame ok)) h.popReader write
  | get queue =>
      obtain ⟨found, -, rfl⟩ := Option.map_eq_some_iff.mp hstep
      exact h.same rfl fun _ => rfl
  | ack i =>
      obtain ⟨message, -, rfl⟩ := Option.map_eq_some_iff.mp hstep
      have haside := Aside.ack s i message
      exact h.same haside.frames fun _ => by rw [haside.replay]
  | index op =>
      cases hstep
      exact h.same rfl fun _ => rfl
  | detach filters queue =>
      cases hstep
      exact h.same rfl fun _ => rfl
  | drain =>
      cases hstep
      unfold drain
      split
      · refine h.keep fun t frame hframe => ⟨hframe, ?_⟩
        obtain ⟨unmatched, pending, current, hnow, -⟩ := h t frame hframe
        exact phaseAt_addTask hnow
      · exact h
  | expireReplay b =>
      simp only [InboundPublishFlow.step, expireReplay] at hstep
      split at hstep
      · split at hstep
        · cases hstep
          refine h.keep fun t frame hframe => ⟨hframe, ?_⟩
          obtain ⟨unmatched, pending, current, hnow, -⟩ := h t frame hframe
          have hmarked : (s.replay.modifyBuffer b fun buffer =>
              { buffer with expiration := .running s.replay.tasks.length }).phaseAt t = _ := hnow
          exact phaseAt_addTask hmarked
        · cases hstep
          exact h.same rfl fun _ => rfl
      · cases hstep
  | acquireLock t =>
      obtain ⟨task, htask, hlock⟩ := Option.bind_eq_some_iff.mp hstep
      obtain ⟨⟨hphase, -, -⟩, heq⟩ := Option.ite_none_right_eq_some.mp hlock
      cases heq
      have hfree : OrderedDict.get s.frames (.task t) = none :=
        h.free htask fun _ _ _ hdelivering => by rw [hphase] at hdelivering; cases hdelivering
      exact h.setPhase hfree rfl fun t' hne => phaseAt_setPhase_ne _ hne _
  | deliverNext t claim write =>
      obtain ⟨task, htask, hnext⟩ := Option.bind_eq_some_iff.mp hstep
      exact h.deliverNext htask hnext
  | resumeTask t ok write =>
      obtain ⟨task, htask, hnext⟩ := Option.bind_eq_some_iff.mp hstep
      exact h.resumeTask hregistered htask hnext
  | cancel t =>
      obtain ⟨-, heq⟩ := Option.ite_none_right_eq_some.mp hstep
      cases heq
      exact h.same rfl fun _ => phaseAt_cancel _ _ _
  | clear =>
      cases hstep
      unfold clear
      split
      · exact h
      · exact h.same rfl fun _ => rfl
      · exact h.same rfl fun _ => phaseAt_cancelExpiration _ _ _

end TaskFrames

end Tasks

/-! ## One copy for each identifier -/

section Single

variable {s next : InboundPublishFlow}

/-- **Step lemma.**  Only a PUBLISH brings a copy, its own, and only if nothing is left of its
identifier. -/
theorem step_moved (h : Registered s) (hframes : TaskFrames s) {a : Action}
    (hstep : s.step a = some next) :
    Moved none s next ∨ ∃ packet claim write, a = .publish packet claim write ∧
      s.readerIdle = true ∧ Moved ({ seq := s.nextSeq, publish := packet } : Received).flow s next ∧
      s.Fresh packet ∧ (packet.qos ≠ .atMostOnce →
        ∃ pid, packet.packetId = some pid ∧ s.replay.containsPacketId pid = false) := by
  have hquiet : Moved none s s := .quiet (fun _ => Nat.le_refl _) rfl fun _ _ hmem => hmem
  cases a with
  | publish packet claim write =>
      obtain ⟨hidle, heq⟩ := Option.ite_none_right_eq_some.mp hstep
      cases heq
      rcases publish_moved hidle packet claim write with hmoved | ⟨hmoved, hfresh, hknown⟩
      · exact .inl hmoved
      · exact .inr ⟨packet, claim, write, rfl, hidle, hmoved, hfresh, hknown⟩
  | pubrel packet write =>
      obtain ⟨hidle, heq⟩ := Option.ite_none_right_eq_some.mp hstep
      cases heq
      exact .inl (pubrel_moved h hidle packet write)
  | resumeReader ok write =>
      obtain ⟨frame, hframe, rfl⟩ := Option.map_eq_some_iff.mp hstep
      exact .inl (resumeReader_moved h hframe ok write)
  | get queue =>
      obtain ⟨found, hfound, rfl⟩ := Option.map_eq_some_iff.mp hstep
      exact .inl (get_moved hfound)
  | ack i =>
      obtain ⟨message, hmessage, rfl⟩ := Option.map_eq_some_iff.mp hstep
      exact .inl (ack_moved hmessage)
  | index op =>
      cases hstep
      exact .inl (.quiet (fun _ => Nat.le_refl _) rfl fun _ _ hmem => hmem)
  | detach filters queue =>
      cases hstep
      exact .inl (detach_moved s filters queue)
  | drain =>
      cases hstep
      unfold drain
      split
      · exact .inl (.setReplay fun weight => Nat.le_of_eq (Replay.copies_addTask weight _ _))
      · exact .inl hquiet
  | expireReplay b =>
      simp only [InboundPublishFlow.step, expireReplay] at hstep
      split at hstep
      · split at hstep
        · cases hstep
          refine .inl (.setReplay fun weight => ?_)
          rw [Replay.copies_addTask]
          exact Nat.le_of_eq (Replay.copies_modifyBuffer_same weight fun _ => rfl)
        · cases hstep
          exact .inl (.setReplay fun weight =>
            Nat.le_of_eq (Replay.copies_modifyBuffer_same weight fun _ => rfl))
      · cases hstep
  | acquireLock t =>
      obtain ⟨task, htask, hlock⟩ := Option.bind_eq_some_iff.mp hstep
      obtain ⟨⟨hphase, -, -⟩, heq⟩ := Option.ite_none_right_eq_some.mp hlock
      cases heq
      have hlocked : Moved none s (s.setReplay (s.replay.modifyBuffer task.buffer fun buffer =>
          { buffer with lock := some t })) :=
        .setReplay fun weight => Nat.le_of_eq (Replay.copies_modifyBuffer_same weight fun _ => rfl)
      have hthere : (s.setReplay (s.replay.modifyBuffer task.buffer fun buffer =>
          { buffer with lock := some t })).replay.tasks[t]? = some task := htask
      refine .inl (hlocked.trans (setPhase_moved hthere fun weight => ?_))
      rw [hphase]
      rfl
  | deliverNext t claim write =>
      obtain ⟨task, htask, hnext⟩ := Option.bind_eq_some_iff.mp hstep
      exact .inl (deliverNext_moved htask hnext)
  | resumeTask t ok write =>
      obtain ⟨task, htask, hnext⟩ := Option.bind_eq_some_iff.mp hstep
      exact .inl (resumeTask_moved h hframes htask hnext)
  | cancel t =>
      obtain ⟨-, heq⟩ := Option.ite_none_right_eq_some.mp hstep
      cases heq
      exact .inl (.setReplay fun weight => Nat.le_of_eq (Replay.copies_cancel weight t))
  | clear =>
      cases hstep
      exact .inl (clear_moved s)

/-- The copies of all flows of an identifier. -/
def byId (pid : Int) (copy : Int × Nat) : Nat := if copy.1 = pid then 1 else 0

/-- What waits for `ack()` is a copy. -/
theorem awaitsAck_le (hframes : TaskFrames s) {c : Int × Nat} (hc : s.AwaitsAck c)
    (weight : Int × Nat → Nat) : weight c ≤ s.copies weight := by
  have hweight : flowWeight weight (some c) = weight c := rfl
  rcases hc with ⟨item, hitem, hflow⟩ | ⟨message, hmessage, hflow⟩ | ⟨o, frame, hframe, hflow⟩
  · have hle := le_tally (fun item : Nat × Message => flowWeight weight item.2.flow) hitem
    simp only [hflow, hweight] at hle
    unfold InboundPublishFlow.copies applicationCopies
    omega
  · have hle := le_tally (fun message : Message => flowWeight weight message.flow) hmessage
    simp only [hflow, hweight] at hle
    unfold InboundPublishFlow.copies applicationCopies
    omega
  · cases o with
    | reader =>
        have hreader : s.readerCopies weight = weight c := by
          rw [readerCopies, hframe, Option.bind_some, hflow, hweight]
        unfold InboundPublishFlow.copies
        omega
    | task t =>
        obtain ⟨unmatched, pending, current, hnow, hsame⟩ := hframes t frame hframe
        obtain ⟨now, hthere, hphase⟩ := Option.map_eq_some_iff.mp hnow
        have hcurrent : current.flow = some c := by
          rcases hsame with hnone | heq
          · rw [hnone] at hflow
            cases hflow
          · rw [← heq, hflow]
        have hle := inDelivery_le hthere hphase weight
        rwa [hcurrent, hweight] at hle

/-- At most one copy goes by an identifier, and what waits for `ack()` is registered. -/
structure SingleCopies (s : InboundPublishFlow) : Prop where
  registered : Registered s
  frames : TaskFrames s
  single : ∀ pid, s.copies (byId pid) ≤ 1
  arrived : ∀ c, 0 < s.copies (one c) → c.2 < s.nextSeq

namespace SingleCopies

/-- The replay buffer knows the identifiers of what it holds. -/
def KnowsHeld (s : InboundPublishFlow) : Prop :=
  ∀ pid, s.replay.containsPacketId pid = false → s.replay.copies (byId pid) = 0

/-- Nothing is left of an identifier that is in no container. -/
theorem no_copies (h : SingleCopies s) (hknows : KnowsHeld s) {pid : Int}
    (hidle : OrderedDict.get s.frames .reader = none) (hpending : pid ∉ s.pendingAckQos2In)
    (hheld : s.replay.containsPacketId pid = false) : s.copies (byId pid) = 0 := by
  have hnone : ∀ {flow : Option (Int × Nat)}, (∀ c, flow = some c → c.1 ∈ s.pendingAckQos2In) →
      flowWeight (byId pid) flow = 0 := by
    intro flow hflow
    cases flow with
    | none => rfl
    | some c =>
        refine if_neg fun heq => hpending ?_
        exact heq ▸ hflow c rfl
  have hqueued : tally (fun item => flowWeight (byId pid) item.2.flow) s.queued = 0 :=
    tally_eq_zero _ fun item hitem =>
      hnone fun c hc => h.registered.pending c (.inl ⟨item, hitem, hc⟩)
  have htaken : tally (fun message => flowWeight (byId pid) message.flow) s.taken = 0 :=
    tally_eq_zero _ fun message hmessage =>
      hnone fun c hc => h.registered.pending c (.inr (.inl ⟨message, hmessage, hc⟩))
  have hreader : s.readerCopies (byId pid) = 0 := by
    rw [readerCopies, hidle]
    rfl
  have hreplay := hknows pid hheld
  unfold InboundPublishFlow.copies applicationCopies
  omega

/-- Nobody else waits with the identifier of a message that is acknowledged. -/
theorem soleCopy (h : SingleCopies s) (a : Action) : SoleCopy s a := by
  cases a with
  | ack i =>
      intro message c htaken hflow c' hc' heq
      have hframes : TaskFrames (s.setTaken i { message with resolved := true }) :=
        h.frames.same rfl fun _ => rfl
      have hle := awaitsAck_le hframes hc' (byId c.1)
      have hone : byId c.1 c' = 1 := if_pos heq
      have hsame : byId c.1 c = 1 := if_pos rfl
      have hset := tally_set (fun message : Message => flowWeight (byId c.1) message.flow) htaken
        { message with resolved := true }
      have hmarked : flowWeight (byId c.1) ({ message with resolved := true } : Message).flow = 0 :=
        rfl
      have hmessage : flowWeight (byId c.1) message.flow = 1 := by
        rw [hflow]
        exact hsame
      have hsum : (s.setTaken i { message with resolved := true }).copies (byId c.1) + 1 =
          s.copies (byId c.1) := by
        unfold InboundPublishFlow.copies applicationCopies
        change tally _ s.queued + tally _ (s.taken.set i _) + s.readerCopies _ + s.replay.copies _ + 1
          = _
        omega
      have hsingle := h.single c.1
      omega
  | _ => trivial

/-- The messages in the queues of a new connection wait for no `ack()`. -/
theorem copies_start (config : Config) (weight : Int × Nat → Nat) :
    (InboundPublishFlow.start config).copies weight = 0 := by
  have hqueued : tally (fun item => flowWeight weight item.2.flow)
      (InboundPublishFlow.start config).queued = 0 := by
    refine tally_eq_zero _ fun item hitem => ?_
    obtain ⟨entry, -, rfl⟩ := List.mem_map.mp hitem
    rfl
  unfold InboundPublishFlow.copies applicationCopies
  rw [hqueued]
  rfl

/-- A new connection has no copy. -/
theorem start (config : Config) : SingleCopies (start config) where
  registered :=
    { flights := fun _ h => by cases h
      frames := fun _ h => by cases h
      pending := by
        rintro c (⟨item, hitem, hflow⟩ | ⟨message, hmessage, -⟩ | ⟨o, frame, hframe, -⟩)
        · obtain ⟨entry, -, rfl⟩ := List.mem_map.mp hitem
          cases hflow
        · cases hmessage
        · cases hframe }
  frames := fun _ _ h => by cases h
  single pid := by
    rw [copies_start]
    exact Nat.zero_le _
  arrived c hc := by
    rw [copies_start] at hc
    cases hc

end SingleCopies

/-- The arrival of a PUBLISH. -/
def InboundPublishFlow.Action.isPublish : Action → Bool
  | .publish _ _ _ => true
  | _ => false

/-- What a step does with the copies: it moves them, or a PUBLISH brings its own and finds
nothing that is left of its identifier. -/
inductive CopyStep (s : InboundPublishFlow) (a : Action) (next : InboundPublishFlow) : Prop
  | moved (h : Moved none s next)
  | brought (packet : Publish) (claim : Option Nat) (write : WriteOutcome) (pid : Int)
      (ha : a = .publish packet claim write) (hqos : packet.qos = .exactlyOnce)
      (hpid : packet.packetId = some pid) (h : Moved (some (pid, s.nextSeq)) s next)
      (hcopies : s.copies (byId pid) = 0) (hflight : OrderedDict.get s.inflightQos2In pid = none)

/-- **Step lemma.** -/
theorem SingleCopies.step (h : SingleCopies s) {a : Action}
    (hknows : a.isPublish = true → SingleCopies.KnowsHeld s) (hstep : s.step a = some next) :
    CopyStep s a next ∧ SingleCopies next := by
  have hregistered := Registered.rules.step h.registered (h.soleCopy a) hstep
  have hframes := h.frames.step h.registered hstep
  have hseq := nextSeq_le hstep
  have hquiet : Moved none s next → CopyStep s a next ∧ SingleCopies next := by
    intro hmoved
    refine ⟨.moved hmoved, hregistered, hframes, fun pid => ?_, fun c hc => ?_⟩
    · exact Nat.le_trans (hmoved.copies (byId pid)) (h.single pid)
    · exact Nat.lt_of_lt_of_le (h.arrived c (Nat.lt_of_lt_of_le hc (hmoved.copies (one c)))) hseq
  rcases step_moved h.registered h.frames hstep with
    hmoved | ⟨packet, claim, write, rfl, hidle, hmoved, hfresh, hknown⟩
  · exact hquiet hmoved
  · by_cases hqos : packet.qos = .exactlyOnce
    · obtain ⟨pid, hpid, hheld⟩ := hknown (by rw [hqos]; decide)
      obtain ⟨hflight, hpending⟩ := hfresh hqos pid hpid
      have hfree : OrderedDict.get s.frames .reader = none :=
        Option.isNone_iff_eq_none.mp (Bool.and_eq_true_iff.mp hidle).2
      have hnone := h.no_copies (hknows rfl) hfree hpending hheld
      have hnew : ({ seq := s.nextSeq, publish := packet } : Received).flow = some (pid, s.nextSeq) := by
        simp [Received.flow, hqos, hpid]
      rw [hnew] at hmoved
      refine ⟨.brought packet claim write pid rfl hqos hpid hmoved hnone hflight, hregistered,
        hframes, fun other => ?_, fun c hc => ?_⟩
      · have hle := hmoved.copies (byId other)
        have hsingle := h.single other
        simp only [flowWeight, Option.elim_some, byId] at hle
        split at hle
        · rename_i heq
          subst heq
          rw [hnone] at hle
          exact hle
        · exact Nat.le_trans hle hsingle
      · have hle := hmoved.copies (one c)
        by_cases heq : (pid, s.nextSeq) = c
        · rw [← heq]
          exact nextSeq_lt_of_publish hstep
        · simp only [flowWeight, Option.elim_some, one, if_neg heq, Nat.add_zero] at hle
          exact Nat.lt_of_lt_of_le (h.arrived c (Nat.lt_of_lt_of_le hc hle)) hseq
    · have hnone : ({ seq := s.nextSeq, publish := packet } : Received).flow = none := if_neg hqos
      rw [hnone] at hmoved
      exact hquiet hmoved

end Single

end Zmqtt
