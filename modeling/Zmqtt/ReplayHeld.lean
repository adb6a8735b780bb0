import Zmqtt.InboundLedger

/-!
# What the replay buffer holds

A message that arrives without a recipient is held: in the buffer itself, or in the
lists of a drain that is under way.  As long as no drain is interrupted inside a
delivery, a message is in at most one of these places, and it is held, routed, dropped
or refused at most once for each arrival.
-/

namespace Zmqtt

open InboundPublishFlow Tally

/-! ## The held messages -/

/-- The sum of a weight over the messages in the lists of a drain. -/
def ReplayPhase.tally (weight : Received → Nat) : ReplayPhase → Nat
  | .waiting => 0
  | .looping unmatched pending => Tally.tally weight unmatched + Tally.tally weight pending
  | .delivering unmatched pending _ => Tally.tally weight unmatched + Tally.tally weight pending
  | .finished => 0

namespace Replay

/-- The sum of a weight over all held messages. -/
def held (weight : Received → Nat) (replay : Replay) : Nat :=
  tally (fun buffer => tally weight buffer.publishes) replay.buffers +
    tally (fun task => task.phase.tally weight) replay.tasks

variable (weight : Received → Nat) {replay : Replay} {b t : Nat}

theorem buffer_of_lt (h : b < replay.buffers.length) :
    replay.buffers[b]? = some (replay.buffer b) := by
  rw [buffer, List.getElem?_eq_getElem h]
  rfl

theorem buffer_modifyBuffer (h : b < replay.buffers.length) (f : ReplayBuffer → ReplayBuffer) :
    (replay.modifyBuffer b f).buffer b = f (replay.buffer b) := by
  have hbuffer := buffer_of_lt h
  rw [buffer, modifyBuffer]
  simp only [List.getElem?_modify, if_true]
  rw [hbuffer]
  rfl

theorem cancelExpiration_buffer (h : b < replay.buffers.length) :
    (replay.cancelExpiration b).buffer b = { replay.buffer b with expiration := .absent } := by
  have habsent := buffer_modifyBuffer h fun buffer => { buffer with expiration := .absent }
  unfold cancelExpiration
  simp only
  split
  · exact habsent
  · exact habsent

theorem length_cancelExpiration (replay : Replay) (b : Nat) :
    (replay.cancelExpiration b).buffers.length = replay.buffers.length := by
  unfold cancelExpiration
  simp only
  split <;> simp [cancel, modifyBuffer]

theorem held_modifyBuffer (h : b < replay.buffers.length) (f : ReplayBuffer → ReplayBuffer) :
    (replay.modifyBuffer b f).held weight + tally weight (replay.buffer b).publishes =
      replay.held weight + tally weight (f (replay.buffer b)).publishes := by
  have hmodify := tally_modify (fun buffer : ReplayBuffer => tally weight buffer.publishes)
    (buffer_of_lt h) f
  unfold held modifyBuffer
  simp only
  omega

/-- A change of a buffer outside its messages. -/
theorem held_modifyBuffer_same {f : ReplayBuffer → ReplayBuffer}
    (h : ∀ buffer, (f buffer).publishes = buffer.publishes) :
    (replay.modifyBuffer b f).held weight = replay.held weight := by
  by_cases hb : b < replay.buffers.length
  · have := held_modifyBuffer weight hb f
    rw [h] at this
    omega
  · unfold held modifyBuffer
    rw [List.modify_eq_self (by omega)]

theorem held_setPhase {task : ReplayTask} (h : replay.tasks[t]? = some task)
    (phase : ReplayPhase) :
    (replay.setPhase t phase).held weight + task.phase.tally weight =
      replay.held weight + phase.tally weight := by
  have hmodify := tally_modify (fun task : ReplayTask => task.phase.tally weight) h
    fun task => { task with phase }
  unfold held setPhase
  simp only at hmodify ⊢
  omega

theorem held_addTask (buffer : Nat) (expires : Bool) :
    (replay.addTask buffer expires).held weight = replay.held weight := by
  simp only [held, addTask, tally_append, tally_cons, tally_nil, ReplayPhase.tally]
  omega

theorem held_addBuffer : replay.addBuffer.held weight = replay.held weight := by
  simp only [held, addBuffer, tally_append, tally_cons, tally_nil]
  omega

theorem held_cancel (t : Nat) : (replay.cancel t).held weight = replay.held weight := by
  by_cases ht : t < replay.tasks.length
  · have hmodify := tally_modify (fun task : ReplayTask => task.phase.tally weight)
      (List.getElem?_eq_getElem ht) fun task => { task with cancelRequested := true }
    unfold held cancel
    simp only at hmodify ⊢
    omega
  · unfold held cancel
    rw [List.modify_eq_self (by omega)]

theorem held_cancelExpiration (b : Nat) :
    (replay.cancelExpiration b).held weight = replay.held weight := by
  have habsent : (replay.modifyBuffer b fun buffer =>
      { buffer with expiration := .absent }).held weight = replay.held weight :=
    held_modifyBuffer_same weight fun _ => rfl
  unfold cancelExpiration
  simp only
  split
  · rw [held_cancel, habsent]
  · exact habsent

theorem held_endExpiration (b t : Nat) :
    (replay.endExpiration b t).held weight = replay.held weight :=
  held_modifyBuffer_same weight fun _ => rfl

theorem held_advanceState (b : Nat) (next : ReplayState) :
    (replay.advanceState b next).held weight = replay.held weight := rfl

/-- The lists of a drain go back to the buffer. -/
theorem held_release {task : ReplayTask} (hb : b < replay.buffers.length)
    (ht : replay.tasks[t]? = some task) (unmatched pending : List Received) :
    (replay.release b t unmatched pending).held weight + task.phase.tally weight =
      replay.held weight + tally weight unmatched + tally weight pending := by
  have hbuffer := held_modifyBuffer weight hb fun buffer =>
    { buffer with publishes := unmatched ++ pending ++ buffer.publishes, lock := none }
  have htask : (replay.modifyBuffer b fun buffer =>
      { buffer with
        publishes := unmatched ++ pending ++ buffer.publishes
        lock := none }).tasks[t]? = some task := ht
  have hphase := held_setPhase weight htask .finished
  rw [show ReplayPhase.tally weight .finished = 0 from rfl] at hphase
  simp only [tally_append] at hbuffer
  unfold release
  omega

end Replay

namespace Replay

/-- Buffers that are named exist. -/
structure Valid (replay : Replay) : Prop where
  state : ∀ b, replay.state = .buffered b → b < replay.buffers.length
  tasks : ∀ task ∈ replay.tasks, task.buffer < replay.buffers.length

namespace Valid

variable {replay : Replay}

theorem modifyBuffer (h : replay.Valid) (b : Nat) (f : ReplayBuffer → ReplayBuffer) :
    (replay.modifyBuffer b f).Valid where
  state b' hb' := by
    simp only [Replay.modifyBuffer, List.length_modify]
    exact h.state b' hb'
  tasks task htask := by
    simp only [Replay.modifyBuffer, List.length_modify]
    exact h.tasks task htask

/-- A change of a task that keeps its buffer. -/
theorem modifyTask (h : replay.Valid) (t : Nat) {f : ReplayTask → ReplayTask}
    (hf : ∀ task, (f task).buffer = task.buffer) :
    ({ replay with tasks := replay.tasks.modify t f } : Replay).Valid where
  state := h.state
  tasks task htask := by
    obtain ⟨i, hi⟩ := List.mem_iff_getElem?.mp htask
    rw [List.getElem?_modify] at hi
    obtain ⟨old, hold, rfl⟩ := Option.map_eq_some_iff.mp hi
    have hlt := h.tasks old (List.mem_of_getElem? hold)
    split
    · rw [hf]
      exact hlt
    · exact hlt

theorem setPhase (h : replay.Valid) (t : Nat) (phase : ReplayPhase) :
    (replay.setPhase t phase).Valid :=
  h.modifyTask t fun _ => rfl

theorem cancel (h : replay.Valid) (t : Nat) : (replay.cancel t).Valid :=
  h.modifyTask t fun _ => rfl

theorem addTask (h : replay.Valid) {b : Nat} (hb : b < replay.buffers.length) (expires : Bool) :
    (replay.addTask b expires).Valid where
  state := h.state
  tasks task htask := by
    rcases List.mem_append.mp htask with hold | hnew
    · exact h.tasks task hold
    · rw [List.mem_singleton.mp hnew]
      exact hb

theorem addBuffer (h : replay.Valid) : replay.addBuffer.Valid where
  state b hb := by
    cases hb
    simp [Replay.addBuffer]
  tasks task htask := by
    have := h.tasks task htask
    simp only [Replay.addBuffer, List.length_append, List.length_singleton]
    omega

/-- A change of the state to one without a buffer. -/
theorem setState (h : replay.Valid) {state : ReplayState}
    (hstate : ∀ b, state = .buffered b → b < replay.buffers.length) :
    ({ replay with state } : Replay).Valid :=
  ⟨hstate, h.tasks⟩

theorem advanceState (h : replay.Valid) (b : Nat) {next : ReplayState}
    (hnext : ∀ b, next ≠ .buffered b) : (replay.advanceState b next).Valid := by
  refine h.setState fun b' hb' => ?_
  split at hb'
  · exact absurd hb' (hnext b')
  · exact h.state b' hb'

theorem release (h : replay.Valid) (b t : Nat) (unmatched pending : List Received) :
    (replay.release b t unmatched pending).Valid :=
  (h.modifyBuffer b _).setPhase t _

theorem endExpiration (h : replay.Valid) (b t : Nat) : (replay.endExpiration b t).Valid :=
  h.modifyBuffer b _

theorem cancelExpiration (h : replay.Valid) (b : Nat) : (replay.cancelExpiration b).Valid := by
  unfold Replay.cancelExpiration
  simp only
  split
  · exact (h.modifyBuffer b _).cancel _
  · exact h.modifyBuffer b _

end Valid

end Replay

/-! ## Steps beside the buffer -/

/-- Events that say nothing about the place of a message. -/
def InboundEvent.aside : InboundEvent → Bool
  | .receivedPublish _ => false
  | .buffered _ => false
  | .rejected _ => false
  | .dropped _ => false
  | .routed _ => false
  | _ => true

/-- A change that keeps the replay buffers and the frames. -/
structure Aside (s next : InboundPublishFlow) : Prop where
  replay : next.replay = s.replay
  frames : next.frames = s.frames
  nextSeq : next.nextSeq = s.nextSeq
  log : ∃ new, next.log = new ++ s.log ∧ ∀ event ∈ new, event.aside = true

namespace Aside

variable {s next last : InboundPublishFlow}

theorem refl (s : InboundPublishFlow) : Aside s s where
  replay := rfl
  frames := rfl
  nextSeq := rfl
  log := ⟨[], rfl, List.forall_mem_nil _⟩

theorem trans (h : Aside s next) (h' : Aside next last) : Aside s last where
  replay := h'.replay.trans h.replay
  frames := h'.frames.trans h.frames
  nextSeq := h'.nextSeq.trans h.nextSeq
  log := by
    obtain ⟨new, hnew, haside⟩ := h.log
    obtain ⟨new', hnew', haside'⟩ := h'.log
    refine ⟨new' ++ new, by rw [hnew', hnew, List.append_assoc], fun event hevent => ?_⟩
    rcases List.mem_append.mp hevent with hevent | hevent
    · exact haside' event hevent
    · exact haside event hevent

/-- A change of other fields. -/
theorem same (hreplay : next.replay = s.replay) (hframes : next.frames = s.frames)
    (hnextSeq : next.nextSeq = s.nextSeq) (hlog : next.log = s.log) : Aside s next :=
  ⟨hreplay, hframes, hnextSeq, [], hlog, List.forall_mem_nil _⟩

/-- A change of other fields, with an event. -/
theorem event {event : InboundEvent} (hreplay : next.replay = s.replay)
    (hframes : next.frames = s.frames) (hnextSeq : next.nextSeq = s.nextSeq)
    (hlog : next.log = event :: s.log) (haside : event.aside = true) : Aside s next := by
  refine ⟨hreplay, hframes, hnextSeq, [event], hlog, fun other hother => ?_⟩
  rw [List.mem_singleton.mp hother]
  exact haside

theorem emit (s : InboundPublishFlow) {event : InboundEvent} (haside : event.aside = true) :
    Aside s (s.emit event) :=
  .event rfl rfl rfl rfl haside

theorem deliver (s : InboundPublishFlow) (recipient : InboundRecipient)
    (ackCallback : Option AckCallback) (puback : Option Int) :
    Aside s (s.deliver recipient ackCallback puback).1 := by
  unfold InboundPublishFlow.deliver
  cases recipient.request with
  | some request => exact .emit s rfl
  | none =>
      cases recipient.subscription with
      | none => exact .refl s
      | some item =>
          simp only
          split <;> exact .emit s rfl

theorem finishPut (s : InboundPublishFlow) (recipient : InboundRecipient)
    (entry : SubscriptionEntry) (ackCallback : Option AckCallback) (puback : Option Int) :
    Aside s (s.finishPut recipient entry ackCallback puback).1 := by
  unfold InboundPublishFlow.finishPut
  simp only
  split <;> exact .event rfl rfl rfl rfl rfl

theorem advance (write : WriteOutcome) (x : InboundPublishFlow × Frame) :
    Aside x.1 (advance write x).1 := by
  obtain ⟨s, frame⟩ := x
  cases frame with
  | delivering recipient ackCallback puback => exact deliver s _ _ _
  | putting recipient entry ackCallback puback =>
      simp only [InboundPublishFlow.advance]
      split
      · exact .refl s
      · exact finishPut s _ _ _ _
  | completing seq packetId => exact .event rfl rfl rfl rfl rfl
  | sending next => exact .refl s
  | returned => exact .refl s
  | raised e => exact .refl s

theorem settle (write : WriteOutcome) (x : InboundPublishFlow × Frame) :
    Aside x.1 (settle write x).1 :=
  ((advance write x).trans (advance write _)).trans (advance write _)

theorem ack (s : InboundPublishFlow) (i : Nat) (message : Message) : Aside s (s.ack i message) := by
  have hset : ∀ marked, Aside s ((s.setTaken i marked).emit (.acked message.seq)) :=
    fun _ => .event rfl rfl rfl rfl rfl
  rcases s.ack_cases i message with heq | ⟨marked, -, -, -, heq | ⟨pid, -, -, heq⟩⟩ |
    ⟨pid, subscription, -, heq⟩
  · rw [heq]
    exact .refl s
  · rw [heq]
    exact .same rfl rfl rfl rfl
  · rw [heq]
    exact (hset marked).trans (.event rfl rfl rfl rfl rfl)
  · rw [heq]
    exact (hset _).trans (.event rfl rfl rfl rfl rfl)

theorem handlePubrel (s : InboundPublishFlow) (packet : PubReply) (write : WriteOutcome) :
    Aside s (s.handlePubrel packet write).1 := by
  have hreceived : Aside s (s.emit (.receivedPubrel packet.packetId)) := .emit s rfl
  unfold InboundPublishFlow.handlePubrel
  simp only
  split
  · exact hreceived.trans (.emit _ rfl)
  · exact hreceived.trans (.event rfl rfl rfl rfl rfl)

/-- After `routed`, the QoS flows log nothing about the place of the message. -/
theorem deliverReplay (s : InboundPublishFlow) (received : Received)
    (recipient : InboundRecipient) (write : WriteOutcome) :
    Aside (s.emit (.routed received.seq)) (s.deliverReplay received recipient write).1 := by
  unfold InboundPublishFlow.deliverReplay
  generalize s.emit (.routed received.seq) = routed
  cases received.publish.qos with
  | atMostOnce => exact .refl _
  | atLeastOnce =>
      simp only [deliverQos1Publish]
      split
      · exact .refl _
      · split <;> exact .refl _
  | exactlyOnce =>
      simp only [acceptQos2Publish]
      split
      · exact .refl _
      · exact .emit _ rfl
      · split
        · exact (emit _ rfl).trans (.event rfl rfl rfl rfl rfl)
        · exact .event rfl rfl rfl rfl rfl

end Aside

/-! ## One place for each message -/

/-- A message is routed, dropped or rejected. -/
def settles (seq : Nat) : InboundEvent → Nat
  | .routed other => unit seq other
  | .dropped other => unit seq other
  | .rejected other => unit seq other
  | _ => 0

def arrives (seq : Nat) : InboundEvent → Nat
  | .receivedPublish received => unit seq received.seq
  | _ => 0

/-- The replay buffer takes a message or refuses it. -/
def buffers (seq : Nat) : InboundEvent → Nat
  | .buffered other => unit seq other
  | .rejected other => unit seq other
  | _ => 0

/-- The weight of one message among those held. -/
def weigh (seq : Nat) (received : Received) : Nat := unit seq received.seq

/-- The weight of a QoS 1 or QoS 2 message without an identifier. -/
def anonymous (received : Received) : Nat :=
  if received.publish.qos ≠ .atMostOnce ∧ received.publish.packetId = none then 1 else 0

/-- Put in the queue of an entry that was not detached, delivered to a request, or
registered as a QoS 2 flow. -/
def HandedOver (seq : Nat) (log : List InboundEvent) : Prop :=
  (∃ oid, .put seq oid false ∈ log) ∨ (∃ request, .requestDelivered seq request ∈ log) ∨
    ∃ pid, .accepted seq pid ∈ log

/-- Handed over, or left to an entry that is detached. -/
def Done (seq : Nat) (log : List InboundEvent) : Prop :=
  HandedOver seq log ∨ ∃ oid, .refused seq oid ∈ log

/-- Every message is held in at most one place, and only before it is routed. -/
structure Places (s : InboundPublishFlow) : Prop where
  valid : s.replay.Valid
  frames : ∀ t frame, (Owner.task t, frame) ∈ s.frames → frame = .sending none
  identified : s.replay.held anonymous = 0
  arrivals : ∀ seq, tally (arrives seq) s.log ≤ if seq < s.nextSeq then 1 else 0
  balance : ∀ seq, s.replay.held (weigh seq) + tally (settles seq) s.log ≤
    tally (arrives seq) s.log
  complete : ∀ seq, tally (buffers seq) s.log ≤
    s.replay.held (weigh seq) + tally (settles seq) s.log

/-- A message that was held and is routed meets a condition on the log. -/
def Finished (P : Nat → List InboundEvent → Prop) (s : InboundPublishFlow) : Prop :=
  ∀ seq, .buffered seq ∈ s.log → .routed seq ∈ s.log → P seq s.log

theorem HandedOver.later {seq : Nat} {log : List InboundEvent} (h : HandedOver seq log)
    (new : List InboundEvent) : HandedOver seq (new ++ log) := by
  rcases h with ⟨oid, h⟩ | ⟨request, h⟩ | ⟨pid, h⟩
  · exact .inl ⟨oid, List.mem_append_right _ h⟩
  · exact .inr (.inl ⟨request, List.mem_append_right _ h⟩)
  · exact .inr (.inr ⟨pid, List.mem_append_right _ h⟩)

theorem Done.later {seq : Nat} {log : List InboundEvent} (h : Done seq log)
    (new : List InboundEvent) : Done seq (new ++ log) := by
  rcases h with h | ⟨oid, h⟩
  · exact .inl (h.later new)
  · exact .inr ⟨oid, List.mem_append_right _ h⟩

/-- A tally of 1 is an event of the log. -/
theorem tally_pos_iff {weight : InboundEvent → Nat} {log : List InboundEvent} :
    0 < tally weight log ↔ ∃ event ∈ log, 0 < weight event := by
  induction log with
  | nil => simp
  | cons event log ih =>
      rw [tally_cons, Nat.add_pos_iff_pos_or_pos, ih]
      simp

theorem unit_pos_iff {seq other : Nat} : 0 < unit seq other ↔ other = seq := by
  unfold unit
  split <;> simp_all

/-- A property of the log that later events do not take away. -/
def Lasting (P : Nat → List InboundEvent → Prop) : Prop :=
  ∀ seq log new, P seq log → P seq (new ++ log)

theorem lasting_handedOver : Lasting HandedOver := fun _ _ new h => h.later new

theorem lasting_done : Lasting Done := fun _ _ new h => h.later new

variable {s next : InboundPublishFlow} {P : Nat → List InboundEvent → Prop}

/-- Events that are neither `buffered` nor `routed`. -/
theorem Finished.extend (h : Finished P s) (hlasting : Lasting P) {new : List InboundEvent}
    (hlog : next.log = new ++ s.log)
    (hnew : ∀ seq, .buffered seq ∉ new ∧ .routed seq ∉ new) : Finished P next := by
  intro seq hbuffered hrouted
  rw [hlog] at hbuffered hrouted ⊢
  refine hlasting seq s.log new (h seq ?_ ?_)
  · exact (List.mem_append.mp hbuffered).resolve_left (hnew seq).1
  · exact (List.mem_append.mp hrouted).resolve_left (hnew seq).2

theorem Finished.aside (h : Finished P s) (hlasting : Lasting P) (haside : Aside s next) :
    Finished P next := by
  obtain ⟨-, -, -, new, hlog, hnew⟩ := haside
  refine h.extend hlasting hlog fun seq => ⟨fun hmem => ?_, fun hmem => ?_⟩
  · cases hnew _ hmem
  · cases hnew _ hmem

/-- The event of one message, on a log where the other of the two events is missing. -/
theorem Finished.emit (h : Finished P s) (hlasting : Lasting P) {n : Nat} {event : InboundEvent}
    (hlog : next.log = event :: s.log) (hevent : event = .buffered n ∨ event = .routed n)
    (hbuffered : .buffered n ∉ s.log) (hrouted : .routed n ∉ s.log) : Finished P next := by
  intro seq hb hr
  rw [hlog] at hb hr ⊢
  refine hlasting seq s.log [event] (h seq ?_ ?_)
  · rcases List.mem_cons.mp hb with heq | hb
    · rcases hevent with rfl | rfl
      · cases heq
        exact absurd ((List.mem_cons.mp hr).resolve_left nofun) hrouted
      · cases heq
    · exact hb
  · rcases List.mem_cons.mp hr with heq | hr
    · rcases hevent with rfl | rfl
      · cases heq
      · cases heq
        exact absurd ((List.mem_cons.mp hb).resolve_left nofun) hbuffered
    · exact hr

namespace Places

theorem aside (h : Places s) (haside : Aside s next) : Places next := by
  obtain ⟨hreplay, hframes, hnextSeq, new, hlog, hnew⟩ := haside
  have hzero : ∀ weight : InboundEvent → Nat, (∀ event, event.aside = true → weight event = 0) →
      tally weight next.log = tally weight s.log := by
    intro weight hweight
    rw [hlog, tally_append, tally_eq_zero weight fun event hevent =>
      hweight event (hnew event hevent), Nat.zero_add]
  have hsettles : ∀ seq, tally (settles seq) next.log = tally (settles seq) s.log := fun seq =>
    hzero _ fun event hevent => by cases event <;> first | rfl | cases hevent
  have harrives : ∀ seq, tally (arrives seq) next.log = tally (arrives seq) s.log := fun seq =>
    hzero _ fun event hevent => by cases event <;> first | rfl | cases hevent
  have hbuffers : ∀ seq, tally (buffers seq) next.log = tally (buffers seq) s.log := fun seq =>
    hzero _ fun event hevent => by cases event <;> first | rfl | cases hevent
  refine ⟨hreplay ▸ h.valid, hframes ▸ h.frames, hreplay ▸ h.identified, fun seq => ?_,
    fun seq => ?_, fun seq => ?_⟩
  · rw [harrives, hnextSeq]
    exact h.arrivals seq
  · rw [hreplay, hsettles, harrives]
    exact h.balance seq
  · rw [hreplay, hsettles, hbuffers]
    exact h.complete seq

/-- A change of the buffers that keeps what they hold. -/
theorem setReplay (h : Places s) {replay : Replay} (hvalid : replay.Valid)
    (hheld : ∀ weight, replay.held weight = s.replay.held weight) :
    Places (s.setReplay replay) where
  valid := hvalid
  frames := h.frames
  identified := (hheld _).trans h.identified
  arrivals := h.arrivals
  balance seq := by
    change replay.held _ + _ ≤ _
    rw [hheld]
    exact h.balance seq
  complete seq := by
    change _ ≤ replay.held _ + _
    rw [hheld]
    exact h.complete seq

/-- A message leaves the buffers with the event that settles it. -/
theorem settle (h : Places s) {replay : Replay} (new : List InboundEvent) (hvalid : replay.Valid)
    (hanonymous : replay.held anonymous ≤ s.replay.held anonymous)
    (hheld : ∀ seq, replay.held (weigh seq) + tally (settles seq) new =
      s.replay.held (weigh seq))
    (hnew : ∀ seq, tally (arrives seq) new = 0 ∧ tally (buffers seq) new = 0) :
    Places { s.setReplay replay with log := new ++ s.log } where
  valid := hvalid
  frames := h.frames
  identified := Nat.le_zero.mp (h.identified ▸ hanonymous)
  arrivals seq := by
    simp only [tally_append, (hnew seq).1, Nat.zero_add]
    exact h.arrivals seq
  balance seq := by
    have hbalance := h.balance seq
    have hseq := hheld seq
    simp only [tally_append, (hnew seq).1]
    change replay.held _ + _ ≤ _
    omega
  complete seq := by
    have hcomplete := h.complete seq
    have hseq := hheld seq
    simp only [tally_append, (hnew seq).2]
    change _ ≤ replay.held _ + _
    omega

theorem setFrame (h : Places s) {o : Owner} {frame : Frame}
    (hframe : ∀ t, o = .task t → frame = .sending none) :
    Places { s with frames := OrderedDict.set s.frames o frame } where
  valid := h.valid
  frames t other hother := by
    rcases OrderedDict.mem_of_mem_set hother with hold | heq
    · exact h.frames t other hold
    · cases heq
      exact hframe t rfl
  identified := h.identified
  arrivals := h.arrivals
  balance := h.balance
  complete := h.complete

theorem popFrame (h : Places s) (o : Owner) :
    Places { s with frames := OrderedDict.pop s.frames o } where
  valid := h.valid
  frames t other hother := h.frames t other (OrderedDict.mem_of_mem_pop hother)
  identified := h.identified
  arrivals := h.arrivals
  balance := h.balance
  complete := h.complete

theorem storeReader (h : Places s) (frame : Frame) : Places (storeReader (s, frame)) := by
  cases frame with
  | returned => exact h
  | raised e => exact ⟨h.valid, h.frames, h.identified, h.arrivals, h.balance, h.complete⟩
  | delivering recipient ackCallback puback => exact h.setFrame nofun
  | putting recipient entry ackCallback puback => exact h.setFrame nofun
  | completing seq packetId => exact h.setFrame nofun
  | sending next => exact h.setFrame nofun

end Places

/-! ## A PUBLISH arrives -/

/-- A message that has arrived and is neither held nor settled. -/
structure Newcomer (s : InboundPublishFlow) (n : Nat) : Prop where
  arrived : tally (arrives n) s.log = 1
  unsettled : s.replay.held (weigh n) + tally (settles n) s.log = 0

theorem mem_of_tally_zero {weight : InboundEvent → Nat} {log : List InboundEvent}
    (h : tally weight log = 0) {event : InboundEvent} (hevent : 0 < weight event) :
    event ∉ log := by
  intro hmem
  have := tally_pos_iff.mpr ⟨event, hmem, hevent⟩
  omega

theorem unit_self (n : Nat) : 0 < unit n n := unit_pos_iff.mpr rfl

namespace Newcomer

variable {n : Nat}

theorem not_routed (h : Newcomer s n) : .routed n ∉ s.log :=
  mem_of_tally_zero (Nat.eq_zero_of_add_eq_zero_left h.unsettled) (unit_self n)

theorem not_buffered (h : Newcomer s n) (hs : Places s) : .buffered n ∉ s.log := by
  have hcomplete := hs.complete n
  have hzero : tally (buffers n) s.log = 0 := by
    have := h.unsettled
    omega
  exact mem_of_tally_zero hzero (unit_self n)

end Newcomer

namespace Places

variable {n : Nat}

theorem arrived (h : Places s) (packet : Publish) : Places (s.arrived packet) where
  valid := by
    rw [arrived_frame]
    exact h.valid
  frames := by
    rw [arrived_frame]
    exact h.frames
  identified := by
    rw [arrived_frame]
    exact h.identified
  arrivals seq := by
    have hseq := h.arrivals seq
    rw [arrived_frame]
    simp only [tally_cons, arrives, unit]
    split at hseq <;> split <;> split <;> omega
  balance seq := by
    have hseq := h.balance seq
    rw [arrived_frame]
    simp only [tally_cons]
    change _ + (0 + _) ≤ _
    omega
  complete seq := by
    have hseq := h.complete seq
    rw [arrived_frame]
    simp only [tally_cons]
    change 0 + _ ≤ _ + (0 + _)
    omega

/-- A message that has just arrived has no place yet. -/
theorem newcomer (h : Places s) (packet : Publish) : Newcomer (s.arrived packet) s.nextSeq := by
  have harrivals := h.arrivals s.nextSeq
  rw [if_neg (Nat.lt_irrefl _)] at harrivals
  have hbalance := h.balance s.nextSeq
  rw [arrived_frame]
  refine ⟨?_, ?_⟩
  · simp only [tally_cons, arrives, unit, if_true]
    omega
  · simp only [tally_cons]
    change _ + (0 + _) = 0
    omega

/-- A newcomer is routed or rejected. -/
theorem settleNew (h : Places s) (hnew : Newcomer s n) {event : InboundEvent}
    (hsettles : ∀ seq, settles seq event = unit seq n)
    (hother : ∀ seq, arrives seq event = 0 ∧ buffers seq event ≤ unit seq n) :
    Places (s.emit event) where
  valid := h.valid
  frames := h.frames
  identified := h.identified
  arrivals seq := by
    simp only [emit, tally_cons, (hother seq).1, Nat.zero_add]
    exact h.arrivals seq
  balance seq := by
    have hseq := h.balance seq
    simp only [emit, tally_cons, (hother seq).1, hsettles, Nat.zero_add]
    by_cases heq : n = seq
    · subst heq
      have := hnew.arrived
      have := hnew.unsettled
      simp only [unit, if_true]
      omega
    · simp only [unit, if_neg heq]
      omega
  complete seq := by
    have hseq := h.complete seq
    have hbuffers := (hother seq).2
    simp only [emit, tally_cons, hsettles]
    omega

/-- A newcomer is held. -/
theorem append (h : Places s) {received : Received} (hnew : Newcomer s received.seq)
    {replay : Replay} (hvalid : replay.Valid)
    (hheld : ∀ weight, replay.held weight = s.replay.held weight + weight received)
    (hid : anonymous received = 0) :
    Places ((s.setReplay replay).emit (.buffered received.seq)) where
  valid := hvalid
  frames := h.frames
  identified := by
    change replay.held anonymous = 0
    rw [hheld, h.identified, hid]
  arrivals seq := by
    change tally (arrives seq) (.buffered received.seq :: s.log) ≤ _
    rw [tally_cons]
    exact Nat.le_trans (Nat.le_of_eq (Nat.zero_add _)) (h.arrivals seq)
  balance seq := by
    have hseq := h.balance seq
    change replay.held (weigh seq) + tally (settles seq) (.buffered received.seq :: s.log) ≤
      tally (arrives seq) (.buffered received.seq :: s.log)
    rw [tally_cons, tally_cons, hheld]
    change _ + unit seq received.seq + (0 + _) ≤ 0 + _
    by_cases heq : received.seq = seq
    · subst heq
      have := hnew.arrived
      have := hnew.unsettled
      rw [unit, if_pos rfl]
      omega
    · rw [unit, if_neg heq]
      omega
  complete seq := by
    have hseq := h.complete seq
    change tally (buffers seq) (.buffered received.seq :: s.log) ≤
      replay.held (weigh seq) + tally (settles seq) (.buffered received.seq :: s.log)
    rw [tally_cons, tally_cons, hheld]
    change unit seq received.seq + _ ≤ _ + unit seq received.seq + (0 + _)
    omega

end Places

/-- `accept` of a buffered state leaves the message in the buffer, or rejects it. -/
theorem hold_keeps (h : Places s) (hfinished : Finished P s) (hlasting : Lasting P)
    {received : Received} (hnew : Newcomer s received.seq) {b : Nat} (buffer : ReplayBuffer)
    (hb : b < s.replay.buffers.length) (hid : anonymous received = 0) :
    Places (s.hold b buffer received).1 ∧ Finished P (s.hold b buffer received).1 := by
  unfold hold
  split
  · exact ⟨h, hfinished⟩
  · split
    · have hrejected : Places (s.emit (.rejected received.seq)) :=
        h.settleNew hnew (fun _ => rfl) fun _ => ⟨rfl, Nat.le_refl _⟩
      have hlog : Finished P (s.emit (.rejected received.seq)) :=
        hfinished.extend hlasting
          (show _ = [InboundEvent.rejected received.seq] ++ s.log from rfl) (by simp)
      exact ⟨hrejected.aside (.emit _ rfl), hlog.aside hlasting (.emit _ rfl)⟩
    · have hheld : ∀ weight : Received → Nat,
          (s.replay.modifyBuffer b fun buffer => buffer.append received).held weight =
            s.replay.held weight + weight received := by
        intro weight
        have hmodify := Replay.held_modifyBuffer weight hb fun buffer => buffer.append received
        simp only [ReplayBuffer.append, tally_append, tally_cons, tally_nil] at hmodify
        simp only [ReplayBuffer.append]
        omega
      refine ⟨h.append hnew (h.valid.modifyBuffer b _) hheld hid, ?_⟩
      exact hfinished.emit hlasting rfl (.inl rfl) (hnew.not_buffered h) hnew.not_routed

/-! ## A round of a drain -/

/-- A task is done with its message, or waits for the write that is its last call. -/
def Frame.Settled (frame : Frame) : Prop := frame = .returned ∨ frame = .sending none

theorem settled_sent {write : WriteOutcome} (h : write ≠ .failed) : (sent write none).Settled := by
  cases write with
  | done => exact .inl rfl
  | suspended => exact .inr rfl
  | failed => exact absurd rfl h

theorem advance_settled (write : WriteOutcome) (s : InboundPublishFlow) {frame : Frame}
    (h : frame.Settled) : advance write (s, frame) = (s, frame) := by
  rcases h with rfl | rfl <;> rfl

/-- After a delivery that handed over, only the acknowledgement is left. -/
theorem advance_afterDelivery {write : WriteOutcome} (hwrite : write ≠ .failed)
    (s : InboundPublishFlow) (seq : Nat) (puback : Option Int) :
    (advance write (s, afterDelivery seq puback)).2.Settled ∧
      Aside s (advance write (s, afterDelivery seq puback)).1 := by
  cases puback with
  | none => exact ⟨.inl rfl, .refl s⟩
  | some pid => exact ⟨settled_sent hwrite, .advance write (s, .completing seq pid)⟩

/-- What is done stays done beside the buffers. -/
theorem Aside.mem {event : InboundEvent} (h : Aside s next) (hevent : event ∈ s.log) :
    event ∈ next.log := by
  obtain ⟨-, -, -, new, hlog, -⟩ := h
  rw [hlog]
  exact List.mem_append_right new hevent

/-- A delivery that finds its recipient ready goes through without waiting. -/
theorem settle_delivering {write : WriteOutcome} (hwrite : write ≠ .failed)
    (s : InboundPublishFlow) {recipient : InboundRecipient} (hready : s.unready recipient = false)
    (ackCallback : Option AckCallback) (puback : Option Int) :
    (settle write (s, .delivering recipient ackCallback puback)).2.Settled ∧
      ((∃ oid, .refused recipient.message.seq oid ∈
          (settle write (s, .delivering recipient ackCallback puback)).1.log ∧
          s.detachedEntry recipient ≠ none) ∨
        HandedOver recipient.message.seq
          (settle write (s, .delivering recipient ackCallback puback)).1.log) := by
  unfold settle
  cases hrequest : recipient.request with
  | some request =>
      have hfirst : advance write (s, .delivering recipient ackCallback puback) =
          (s.emit (.requestDelivered recipient.message.seq request),
            afterDelivery recipient.message.seq puback) := by
        simp only [advance, deliver, hrequest]
      rw [hfirst]
      obtain ⟨hsettled, haside⟩ := advance_afterDelivery hwrite
        (s.emit (.requestDelivered recipient.message.seq request)) recipient.message.seq puback
      generalize advance write (s.emit (.requestDelivered recipient.message.seq request),
        afterDelivery recipient.message.seq puback) = x at hsettled haside
      rw [advance_settled write x.1 hsettled]
      exact ⟨hsettled, .inr (.inr (.inl ⟨request, haside.mem List.mem_cons_self⟩))⟩
  | none =>
      cases hsubscription : recipient.subscription with
      | none => simp [unready, hrequest, hsubscription] at hready
      | some item =>
          by_cases hdetached : item.2.oid ∈ s.detached
          · have hfirst : advance write (s, .delivering recipient ackCallback puback) =
                (s.emit (.refused recipient.message.seq item.2.oid), .returned) := by
              simp only [advance, deliver, hrequest, hsubscription, if_pos hdetached]
            rw [hfirst, advance_settled write _ (.inl rfl), advance_settled write _ (.inl rfl)]
            refine ⟨.inl rfl, .inl ⟨item.2.oid, List.mem_cons_self, ?_⟩⟩
            simp [detachedEntry, hsubscription, hdetached]
          · have hfirst : advance write (s, .delivering recipient ackCallback puback) =
                (s.emit (.offered recipient.message.seq item.2.oid),
                  .putting recipient item.2 ackCallback puback) := by
              simp only [advance, deliver, hrequest, hsubscription, if_neg hdetached]
            have hroom : s.full item.2.queue = false := by
              simpa [unready, hrequest, hsubscription] using hready
            have hsecond : advance write (s.emit (.offered recipient.message.seq item.2.oid),
                  .putting recipient item.2 ackCallback puback) =
                (((s.emit (.offered recipient.message.seq item.2.oid)).push item.2.queue
                    (withCallback recipient.message item.2 ackCallback)).emit
                  (.put recipient.message.seq item.2.oid false),
                  afterDelivery recipient.message.seq puback) := by
              have hfull : (s.emit (.offered recipient.message.seq item.2.oid)).full item.2.queue =
                  false := hroom
              have hattached : item.2.oid ∉
                  (s.emit (.offered recipient.message.seq item.2.oid)).detached := hdetached
              simp only [advance, hfull, Bool.false_eq_true, if_false, finishPut,
                if_neg hattached]
            rw [hfirst, hsecond]
            obtain ⟨hsettled, haside⟩ := advance_afterDelivery hwrite
              (((s.emit (.offered recipient.message.seq item.2.oid)).push item.2.queue
                (withCallback recipient.message item.2 ackCallback)).emit
                  (.put recipient.message.seq item.2.oid false)) recipient.message.seq puback
            exact ⟨hsettled, .inr (.inl ⟨item.2.oid, haside.mem List.mem_cons_self⟩)⟩

/-- A round of a drain either hands its message over, or leaves it to a detached entry. -/
theorem settle_deliverReplay {write : WriteOutcome} (hwrite : write ≠ .failed)
    (s : InboundPublishFlow) {received : Received} (claim : Option Nat)
    (hready : s.unready (s.selectRecipient received claim) = false)
    (hid : anonymous received = 0) :
    (settle write (s.deliverReplay received (s.selectRecipient received claim) write)).2.Settled ∧
      ((∃ oid, .refused received.seq oid ∈ (settle write
          (s.deliverReplay received (s.selectRecipient received claim) write)).1.log ∧
          s.detachedEntry (s.selectRecipient received claim) ≠ none) ∨
        HandedOver received.seq (settle write
          (s.deliverReplay received (s.selectRecipient received claim) write)).1.log) := by
  have hmessage := s.selectRecipient_message received claim
  have hseq : (s.selectRecipient received claim).message.seq = received.seq := by
    rw [hmessage]
    rfl
  generalize s.selectRecipient received claim = recipient at *
  have hdelivering := settle_delivering hwrite (s.emit (.routed received.seq)) hready
  rw [hseq] at hdelivering
  unfold deliverReplay
  cases hqos : received.publish.qos with
  | atMostOnce => exact hdelivering none none
  | atLeastOnce =>
      simp only [deliverQos1Publish]
      cases hpid : received.publish.packetId with
      | none => simp [anonymous, hqos, hpid] at hid
      | some pid =>
          simp only
          split
          · exact hdelivering none (some pid)
          · exact hdelivering (some (.puback pid false)) none
  | exactlyOnce =>
      simp only [acceptQos2Publish]
      cases hpid : received.publish.packetId with
      | none => simp [anonymous, hqos, hpid] at hid
      | some pid =>
          cases hdetached : (s.emit (.routed received.seq)).detachedEntry recipient with
          | some oid =>
              have hsome : s.detachedEntry recipient = some oid := hdetached
              refine ⟨.inl rfl, .inl ⟨oid, List.mem_cons_self, ?_⟩⟩
              rw [hsome]
              exact Option.some_ne_none oid
          | none =>
              simp only
              split
              · have hsettled : (sent write none).Settled := settled_sent hwrite
                unfold settle
                rw [advance_settled write _ hsettled, advance_settled write _ hsettled,
                  advance_settled write _ hsettled]
                exact ⟨hsettled, .inr (.inr (.inr ⟨pid,
                  List.mem_cons_of_mem _ List.mem_cons_self⟩))⟩
              · obtain ⟨hsettled, -⟩ := settle_delivering hwrite
                  (((s.emit (.routed received.seq)).addPendingAck pid).emit
                    (.accepted received.seq pid)) hready
                  (some (.pubrec pid recipient.subscription)) none
                refine ⟨hsettled, .inr (.inr (.inr ⟨pid, ?_⟩))⟩
                exact (Aside.settle write _).mem List.mem_cons_self

/-- Places and finished messages together. -/
structure Kept (P : Nat → List InboundEvent → Prop) (s : InboundPublishFlow) : Prop where
  places : Places s
  finished : Finished P s

namespace Kept

theorem aside (h : Kept P s) (hlasting : Lasting P) (haside : Aside s next) : Kept P next :=
  ⟨h.places.aside haside, h.finished.aside hlasting haside⟩

theorem setReplay (h : Kept P s) {replay : Replay} (hvalid : replay.Valid)
    (hheld : ∀ weight, replay.held weight = s.replay.held weight) : Kept P (s.setReplay replay) :=
  ⟨h.places.setReplay hvalid hheld, h.finished⟩

theorem storeReader (h : Kept P s) (frame : Frame) : Kept P (storeReader (s, frame)) := by
  refine ⟨h.places.storeReader frame, ?_⟩
  cases frame <;> exact h.finished

/-- A newcomer is routed by the read loop. -/
theorem deliverReplay (h : Kept P s) (hlasting : Lasting P) {received : Received}
    (hnew : Newcomer s received.seq) (recipient : InboundRecipient) (write : WriteOutcome) :
    Kept P (s.deliverReplay received recipient write).1 := by
  have hrouted : Kept P (s.emit (.routed received.seq)) :=
    ⟨h.places.settleNew hnew (fun _ => rfl) fun _ => ⟨rfl, Nat.zero_le _⟩,
      h.finished.emit hlasting rfl (.inr rfl) (hnew.not_buffered h.places) hnew.not_routed⟩
  exact hrouted.aside hlasting (.deliverReplay s received recipient write)

theorem hold (h : Kept P s) (hlasting : Lasting P) {received : Received}
    (hnew : Newcomer s received.seq) {b : Nat} (buffer : ReplayBuffer)
    (hb : b < s.replay.buffers.length) (hid : anonymous received = 0) :
    Kept P (s.hold b buffer received).1 :=
  have hkeeps := hold_keeps h.places h.finished hlasting hnew buffer hb hid
  ⟨hkeeps.1, hkeeps.2⟩

theorem route (h : Kept P s) (hlasting : Lasting P) {received : Received}
    (hnew : Newcomer s received.seq) (hid : anonymous received = 0) (claim : Option Nat)
    (write : WriteOutcome) : Kept P (s.route received claim write).1 := by
  have hheld : ∀ {held : InboundPublishFlow} {b : Nat} {buffer : ReplayBuffer},
      Kept P (held.hold b buffer received).1 →
      s.selectRecipientOrBuffer received claim = held.hold b buffer received →
      Kept P (s.route received claim write).1 := by
    intro held b buffer hheld heq
    obtain ⟨frame, hroute, -⟩ := route_held heq write
    rw [hroute]
    exact hheld
  rcases s.selectRecipientOrBuffer_cases received claim with
    ⟨-, heq⟩ | ⟨-, -, -, heq⟩ | ⟨b, hstate, heq⟩ | ⟨-, heq⟩
  · unfold InboundPublishFlow.route
    rw [heq]
    exact h.deliverReplay hlasting hnew _ write
  · unfold InboundPublishFlow.route
    rw [heq]
    have hnobody : Aside s (s.emit (.noSubscriber received.seq)) := .emit s rfl
    refine (h.aside hlasting hnobody).deliverReplay hlasting ⟨?_, ?_⟩ _ write
    · change tally _ (_ :: s.log) = 1
      rw [tally_cons, hnew.arrived]
      rfl
    · change _ + tally _ (_ :: s.log) = 0
      rw [tally_cons]
      change s.replay.held _ + (0 + _) = 0
      rw [Nat.zero_add]
      exact hnew.unsettled
  · exact hheld (h.hold hlasting hnew _ (h.places.valid.state b hstate) hid) heq
  · have hadd : Kept P (s.setReplay s.replay.addBuffer) :=
      h.setReplay h.places.valid.addBuffer fun weight => Replay.held_addBuffer weight
    have hnew' : Newcomer (s.setReplay s.replay.addBuffer) received.seq := by
      refine ⟨hnew.arrived, ?_⟩
      change s.replay.addBuffer.held _ + _ = 0
      rw [Replay.held_addBuffer]
      exact hnew.unsettled
    refine hheld (hadd.hold hlasting hnew' {} ?_ hid) heq
    simp [InboundPublishFlow.setReplay, Replay.addBuffer]

theorem handlePublish (h : Kept P s) (hlasting : Lasting P) (packet : Publish)
    (claim : Option Nat) (write : WriteOutcome) :
    Kept P (s.handlePublish packet claim write).1 := by
  have harrived : Kept P (s.arrived packet) := by
    refine ⟨h.places.arrived packet, ?_⟩
    rw [arrived_frame]
    exact h.finished.extend hlasting
      (show _ = [InboundEvent.receivedPublish { seq := s.nextSeq, publish := packet }] ++ s.log
        from rfl) (by simp)
  rcases s.handlePublish_cases packet claim write with
    ⟨-, -, heq⟩ | ⟨-, e, heq⟩ | ⟨-, -, heq⟩ | ⟨-, -, pid, flight, -, -, heq⟩ | ⟨-, -, hid, heq⟩
  · rw [heq]
    exact harrived
  · rw [heq]
    exact harrived.aside hlasting (.emit _ rfl)
  · rw [heq]
    exact harrived
  · rw [heq]
    exact harrived.aside hlasting (.emit _ rfl)
  · rw [heq]
    refine harrived.route hlasting (h.places.newcomer packet) ?_ claim write
    rw [anonymous, if_neg]
    rintro ⟨hqos, hnone⟩
    obtain ⟨pid, hpid, -⟩ := hid hqos
    rw [hnone] at hpid
    cases hpid

/-- A task moves on with the messages it has. -/
theorem setPhase (h : Kept P s) {t : Nat} {now : ReplayTask}
    (hnow : s.replay.tasks[t]? = some now) {phase : ReplayPhase}
    (hphase : ∀ weight, phase.tally weight = now.phase.tally weight) :
    Kept P (s.setReplay (s.replay.setPhase t phase)) := by
  refine h.setReplay (h.places.valid.setPhase t phase) fun weight => ?_
  have hset := Replay.held_setPhase weight hnow phase
  rw [hphase] at hset
  omega

/-- The lists of a task that ends go back to its buffer. -/
theorem raiseFromTask (h : Kept P s) (hlasting : Lasting P) {t : Nat} {now task : ReplayTask}
    (hnow : s.replay.tasks[t]? = some now) (hbuffer : now.buffer = task.buffer)
    {unmatched pending : List Received}
    (hphase : ∀ weight, now.phase.tally weight = tally weight unmatched + tally weight pending) :
    Kept P (s.raiseFromTask t task unmatched pending) := by
  have hb : task.buffer < s.replay.buffers.length :=
    hbuffer ▸ h.places.valid.tasks now (List.mem_of_getElem? hnow)
  have hheld : ∀ weight, (s.replay.release task.buffer t unmatched pending).held weight =
      s.replay.held weight := by
    intro weight
    have hrelease := Replay.held_release weight hb hnow unmatched pending
    rw [hphase] at hrelease
    omega
  have hvalid := h.places.valid.release task.buffer t unmatched pending
  unfold InboundPublishFlow.raiseFromTask
  simp only
  split
  · have hended : Kept P (s.setReplay
        ((s.replay.release task.buffer t unmatched pending).endExpiration task.buffer t)) :=
      h.setReplay (hvalid.endExpiration _ _) fun weight =>
        (Replay.held_endExpiration weight _ _).trans (hheld weight)
    split
    · exact hended
    · exact hended.aside hlasting (.emit _ rfl)
  · exact h.setReplay hvalid hheld

/-- A task that is done with its message goes on, or waits for its last write. -/
theorem storeTask (h : Kept P s) (hlasting : Lasting P) {t : Nat} {now task : ReplayTask}
    (hnow : s.replay.tasks[t]? = some now) (hbuffer : now.buffer = task.buffer)
    {unmatched pending : List Received} {current : Received}
    (hphase : now.phase = .delivering unmatched pending current) {frame : Frame}
    (hframe : frame.Settled) :
    Kept P (storeTask t task unmatched pending current (s, frame)) := by
  rcases hframe with rfl | rfl
  · have hb : task.buffer < s.replay.buffers.length :=
      hbuffer ▸ h.places.valid.tasks now (List.mem_of_getElem? hnow)
    have hpublishes : ((s.replay.buffer task.buffer).discard current).1.publishes =
        (s.replay.buffer task.buffer).publishes := by
      unfold ReplayBuffer.discard
      simp only
      split <;> rfl
    have hdiscard : Kept P (s.setReplay (s.replay.modifyBuffer task.buffer fun _ =>
        ((s.replay.buffer task.buffer).discard current).1)) := by
      refine h.setReplay (h.places.valid.modifyBuffer _ _) fun weight => ?_
      have hmodify := Replay.held_modifyBuffer weight hb fun _ =>
        ((s.replay.buffer task.buffer).discard current).1
      rw [hpublishes] at hmodify
      omega
    have htally : ∀ weight, now.phase.tally weight =
        tally weight unmatched + tally weight pending := by
      intro weight
      rw [hphase]
      rfl
    simp only [InboundPublishFlow.storeTask]
    split
    · exact hdiscard.raiseFromTask hlasting hnow hbuffer htally
    · exact hdiscard.setPhase hnow fun weight => (htally weight).symm
  · exact ⟨h.places.setFrame fun _ _ => rfl, h.finished⟩

/-- The messages of a list are dropped from the buffers. -/
theorem dropAll (h : Kept P s) (hlasting : Lasting P) {replay : Replay} {dropped : List Received}
    (hvalid : replay.Valid)
    (hheld : ∀ weight, replay.held weight + tally weight dropped = s.replay.held weight) :
    Kept P ((s.setReplay replay).dropAll dropped) := by
  have htally : ∀ weight : InboundEvent → Nat,
      tally weight (dropped.map fun received => InboundEvent.dropped received.seq).reverse =
        tally (fun received : Received => weight (.dropped received.seq)) dropped := by
    intro weight
    rw [← tally_map weight (fun received : Received => InboundEvent.dropped received.seq)]
    exact tally_reverse weight _
  refine ⟨h.places.settle _ hvalid ?_ (fun seq => ?_) (fun seq => ⟨?_, ?_⟩), ?_⟩
  · have := hheld anonymous
    omega
  · rw [htally]
    exact hheld (weigh seq)
  · rw [htally]
    exact tally_eq_zero _ fun _ _ => rfl
  · rw [htally]
    exact tally_eq_zero _ fun _ _ => rfl
  · refine h.finished.extend hlasting rfl fun seq => ⟨?_, ?_⟩
    · simp
    · simp

theorem finishExpire (h : Kept P s) (hlasting : Lasting P) {t : Nat} {task : ReplayTask}
    {unmatched : List Received} (htask : s.replay.tasks[t]? = some task)
    (hphase : task.phase = .looping unmatched [])
    (hempty : (s.replay.buffer task.buffer).publishes = []) :
    Kept P (s.finishExpire t task.buffer unmatched) := by
  have hb := h.places.valid.tasks task (List.mem_of_getElem? htask)
  have hlength : task.buffer <
      (s.replay.release task.buffer t unmatched []).buffers.length := by
    simpa [Replay.release, Replay.setPhase, Replay.modifyBuffer] using hb
  have hpublishes : ((s.replay.release task.buffer t unmatched []).buffer task.buffer).publishes =
      unmatched := by
    have hbuffer := Replay.buffer_modifyBuffer hb fun buffer =>
      { buffer with publishes := unmatched ++ [] ++ buffer.publishes, lock := none }
    change (Replay.buffer (Replay.modifyBuffer _ _ _) _).publishes = _
    rw [hbuffer, hempty]
    simp
  have hvalid := ((h.places.valid.release task.buffer t unmatched []).modifyBuffer task.buffer
    ReplayBuffer.emptied)
  refine h.dropAll hlasting ((hvalid.advanceState _ ?_).endExpiration _ _) fun weight => ?_
  · intro b
    split <;> nofun
  · have hrelease := Replay.held_release weight hb htask unmatched []
    have hemptied := Replay.held_modifyBuffer weight hlength ReplayBuffer.emptied
    rw [hpublishes] at hemptied
    rw [hphase] at hrelease
    change _ + (tally weight unmatched + 0) = _ + _ + 0 at hrelease
    change _ = _ + 0 at hemptied
    rw [Replay.held_endExpiration, Replay.held_advanceState]
    omega

theorem finishDrain (h : Kept P s) {t : Nat} {task : ReplayTask} {unmatched : List Received}
    (htask : s.replay.tasks[t]? = some task) (hphase : task.phase = .looping unmatched []) :
    Kept P (s.finishDrain t task.buffer unmatched) := by
  have hb := h.places.valid.tasks task (List.mem_of_getElem? htask)
  have hvalid := h.places.valid.release task.buffer t unmatched []
  have hheld : ∀ weight, (s.replay.release task.buffer t unmatched []).held weight =
      s.replay.held weight := by
    intro weight
    have hrelease := Replay.held_release weight hb htask unmatched []
    rw [hphase] at hrelease
    change _ + (tally weight unmatched + 0) = _ + _ + 0 at hrelease
    omega
  unfold InboundPublishFlow.finishDrain
  simp only
  split
  · exact h.setReplay hvalid hheld
  · refine h.setReplay ((hvalid.cancelExpiration _).advanceState _ nofun) fun weight => ?_
    rw [Replay.held_advanceState, Replay.held_cancelExpiration, hheld]

theorem clear (h : Kept P s) (hlasting : Lasting P) : Kept P s.clear := by
  unfold InboundPublishFlow.clear
  cases hstate : s.replay.state with
  | noSession => exact h
  | idle => exact h.setReplay (h.places.valid.setState nofun) fun _ => rfl
  | buffered b =>
      have hb := h.places.valid.state b hstate
      have hvalid := (h.places.valid.cancelExpiration b).modifyBuffer b ReplayBuffer.emptied
      refine h.dropAll hlasting (hvalid.setState nofun) fun weight => ?_
      have hlength := (Replay.length_cancelExpiration s.replay b).symm ▸ hb
      have hemptied := Replay.held_modifyBuffer weight hlength ReplayBuffer.emptied
      rw [Replay.cancelExpiration_buffer hb, Replay.held_cancelExpiration] at hemptied
      exact hemptied

/-- A round that routes its message. -/
theorem deliverRound (h : Kept P s) (hlasting : Lasting P) {t : Nat} {task : ReplayTask}
    {unmatched pending : List Received} {received : Received} {claim : Option Nat}
    {write : WriteOutcome} (hwrite : write ≠ .failed) (htask : s.replay.tasks[t]? = some task)
    (hphase : task.phase = .looping unmatched (received :: pending))
    (hready : s.unready (s.selectRecipient received claim) = false)
    (hdone : ∀ log, HandedOver received.seq log → P received.seq log)
    (hrefused : s.detachedEntry (s.selectRecipient received claim) ≠ none →
      ∀ log oid, .refused received.seq oid ∈ log → P received.seq log) :
    Kept P (InboundPublishFlow.storeTask t task unmatched pending received
      (InboundPublishFlow.settle write
        ((s.setReplay (s.replay.setPhase t (.delivering unmatched pending received))).deliverReplay
          received (s.selectRecipient received claim) write))) := by
  have hheld : ∀ weight, (s.replay.setPhase t (.delivering unmatched pending received)).held weight +
      weight received = s.replay.held weight := by
    intro weight
    have hset := Replay.held_setPhase weight htask (.delivering unmatched pending received)
    rw [hphase] at hset
    change _ + (tally weight unmatched + tally weight (received :: pending)) =
      _ + (tally weight unmatched + tally weight pending) at hset
    rw [tally_cons] at hset
    omega
  have hid : anonymous received = 0 := by
    have := hheld anonymous
    have := h.places.identified
    omega
  have hvalid := h.places.valid.setPhase t (.delivering unmatched pending received)
  have hrouted : Places ((s.setReplay (s.replay.setPhase t
      (.delivering unmatched pending received))).emit (.routed received.seq)) := by
    refine h.places.settle [.routed received.seq] hvalid ?_ (fun seq => ?_) (fun seq => ⟨?_, ?_⟩)
    · have := hheld anonymous
      omega
    · rw [tally_cons, tally_nil, Nat.add_zero]
      exact hheld (weigh seq)
    · rw [tally_cons, tally_nil]
      rfl
    · rw [tally_cons, tally_nil]
      rfl
  have hnow : (s.setReplay (s.replay.setPhase t
      (.delivering unmatched pending received))).replay.tasks[t]? =
        some { task with phase := .delivering unmatched pending received } := by
    simp only [InboundPublishFlow.setReplay, Replay.setPhase, List.getElem?_modify, if_true, htask]
    rfl
  have hdelivered := settle_deliverReplay hwrite (s.setReplay (s.replay.setPhase t
    (.delivering unmatched pending received))) claim hready hid
  have hsame : (s.setReplay (s.replay.setPhase t
      (.delivering unmatched pending received))).selectRecipient received claim =
        s.selectRecipient received claim := rfl
  rw [hsame] at hdelivered
  obtain ⟨hsettled, hspec⟩ := hdelivered
  have haside := (Aside.deliverReplay (s.setReplay (s.replay.setPhase t
    (.delivering unmatched pending received))) received (s.selectRecipient received claim)
      write).trans (.settle write _)
  have hP : P received.seq (InboundPublishFlow.settle write
      ((s.setReplay (s.replay.setPhase t (.delivering unmatched pending received))).deliverReplay
        received (s.selectRecipient received claim) write)).1.log := by
    rcases hspec with ⟨oid, hoid, hdetached⟩ | hhanded
    · exact hrefused hdetached _ oid hoid
    · exact hdone _ hhanded
  generalize InboundPublishFlow.settle write
    ((s.setReplay (s.replay.setPhase t (.delivering unmatched pending received))).deliverReplay
      received (s.selectRecipient received claim) write) = x at hsettled haside hP
  have hkept : Kept P x.1 := by
    refine ⟨hrouted.aside haside, fun seq hbuffered hroutedSeq => ?_⟩
    by_cases heq : seq = received.seq
    · rw [heq]
      exact hP
    · obtain ⟨-, -, -, new, hlog, hnew⟩ := haside
      rw [hlog] at hbuffered hroutedSeq ⊢
      refine hlasting seq _ new (hlasting seq s.log [.routed received.seq] (h.finished seq ?_ ?_))
      · have hmem := (List.mem_append.mp hbuffered).resolve_left fun hmem => by cases hnew _ hmem
        exact (List.mem_cons.mp hmem).resolve_left nofun
      · have hmem := (List.mem_append.mp hroutedSeq).resolve_left fun hmem => by cases hnew _ hmem
        exact (List.mem_cons.mp hmem).resolve_left fun h => heq (InboundEvent.routed.inj h)
  have hnow' : x.1.replay.tasks[t]? =
      some { task with phase := .delivering unmatched pending received } := by
    rw [haside.replay]
    exact hnow
  exact hkept.storeTask hlasting hnow' rfl rfl hsettled

end Kept

/-- No task is interrupted inside the delivery of a message: no transport write of a
delivery raises, and no task that is suspended inside one is cancelled. -/
def Uninterrupted (s : InboundPublishFlow) : Action → Prop
  | .deliverNext _ _ write => write ≠ .failed
  | .resumeTask t ok _ => ∀ task, s.replay.tasks[t]? = some task →
      ∀ unmatched pending current, task.phase = .delivering unmatched pending current →
        ok = true ∧ task.cancelRequested = false
  | _ => True

/-- No round of a drain selects a detached entry. -/
def Attached (s : InboundPublishFlow) : Action → Prop
  | .deliverNext t claim _ => ∀ task, s.replay.tasks[t]? = some task →
      ∀ unmatched received pending, task.phase = .looping unmatched (received :: pending) →
        s.detachedEntry (s.selectRecipient received claim) = none
  | _ => True

namespace Kept

theorem deliverNext (h : Kept P s) (hlasting : Lasting P) {t : Nat} {task : ReplayTask}
    {claim : Option Nat} {write : WriteOutcome} (hwrite : write ≠ .failed)
    (htask : s.replay.tasks[t]? = some task)
    (hdone : ∀ seq log, HandedOver seq log → P seq log)
    (hrefused : ∀ unmatched received pending,
      task.phase = .looping unmatched (received :: pending) →
      s.detachedEntry (s.selectRecipient received claim) ≠ none →
      ∀ log oid, .refused received.seq oid ∈ log → P received.seq log)
    (hnext : s.deliverNext t task claim write = some next) : Kept P next := by
  have hb := h.places.valid.tasks task (List.mem_of_getElem? htask)
  rcases deliverNext_cases hnext with ⟨unmatched, hphase, hempty, -, rfl⟩ |
    ⟨unmatched, hphase, -, -, rfl⟩ | ⟨unmatched, hphase, rfl⟩ |
    ⟨unmatched, received, pending, hphase, rfl⟩ |
    ⟨unmatched, received, pending, hphase, hready, rfl⟩
  · exact h.finishExpire hlasting htask hphase hempty
  · exact h.finishDrain htask hphase
  · -- the messages of the buffer become the messages of the task
    refine h.setReplay ((h.places.valid.modifyBuffer _ _).setPhase _ _) fun weight => ?_
    have hbuffer := Replay.held_modifyBuffer weight hb fun buffer => { buffer with publishes := [] }
    have hnow : (s.replay.modifyBuffer task.buffer fun buffer =>
        { buffer with publishes := [] }).tasks[t]? = some task := htask
    have hset := Replay.held_setPhase weight hnow
      (.looping unmatched (s.replay.buffer task.buffer).publishes)
    rw [hphase] at hset
    change _ = _ + 0 at hbuffer
    change _ + (tally weight unmatched + 0) = _ + (tally weight unmatched + _) at hset
    omega
  · refine h.setPhase htask fun weight => ?_
    rw [hphase]
    change tally weight (unmatched ++ [received]) + _ = tally weight unmatched + tally weight _
    simp only [tally_append, tally_cons, tally_nil]
    omega
  · exact h.deliverRound hlasting hwrite htask hphase hready (hdone received.seq)
      (hrefused unmatched received pending hphase)

theorem resumeTask (h : Kept P s) (hlasting : Lasting P) {t : Nat} {task : ReplayTask} {ok : Bool}
    {write : WriteOutcome} (htask : s.replay.tasks[t]? = some task)
    (hok : ∀ unmatched pending current, task.phase = .delivering unmatched pending current →
      ok = true ∧ task.cancelRequested = false)
    (hnext : s.resumeTask t task ok write = some next) : Kept P next := by
  unfold InboundPublishFlow.resumeTask at hnext
  cases hphase : task.phase with
  | waiting =>
      simp only [hphase] at hnext
      obtain ⟨-, heq⟩ := Option.ite_none_right_eq_some.mp hnext
      cases heq
      have hfinished : Kept P (s.setReplay (s.replay.setPhase t .finished)) := by
        refine h.setPhase htask fun weight => ?_
        rw [hphase]
        rfl
      split
      · exact hfinished.setReplay (hfinished.places.valid.endExpiration _ _) fun weight =>
          Replay.held_endExpiration weight _ _
      · exact hfinished
  | looping unmatched pending => simp [hphase] at hnext
  | finished => simp [hphase] at hnext
  | delivering unmatched pending current =>
      simp only [hphase] at hnext
      obtain ⟨frame, hframe, heq⟩ := Option.map_eq_some_iff.mp hnext
      obtain ⟨rfl, hcancel⟩ := hok unmatched pending current hphase
      rw [h.places.frames t frame (OrderedDict.mem_of_get hframe), hcancel] at heq
      subst heq
      have hpopped : Kept P { s with frames := OrderedDict.pop s.frames (.task t) } :=
        ⟨h.places.popFrame _, h.finished⟩
      exact hpopped.storeTask hlasting htask rfl hphase (.inl rfl)

/-- **Step lemma.** -/
theorem step (h : Kept P s) (hlasting : Lasting P)
    (hdone : ∀ seq log, HandedOver seq log → P seq log)
    {a : Action} (hok : Uninterrupted s a)
    (hrefused : Attached s a ∨ ∀ seq log oid, .refused seq oid ∈ log → P seq log)
    (hstep : s.step a = some next) : Kept P next := by
  cases a with
  | publish packet claim write =>
      obtain ⟨-, heq⟩ := Option.ite_none_right_eq_some.mp hstep
      cases heq
      exact ((h.handlePublish hlasting packet claim write).aside hlasting
        (.settle write _)).storeReader _
  | pubrel packet write =>
      obtain ⟨-, heq⟩ := Option.ite_none_right_eq_some.mp hstep
      cases heq
      exact ((h.aside hlasting (.handlePubrel s packet write)).aside hlasting
        (.settle write _)).storeReader _
  | resumeReader ok write =>
      obtain ⟨frame, -, rfl⟩ := Option.map_eq_some_iff.mp hstep
      have hpopped : Kept P { s with frames := OrderedDict.pop s.frames .reader } :=
        ⟨h.places.popFrame _, h.finished⟩
      exact (hpopped.aside hlasting (.settle write
        ({ s with frames := OrderedDict.pop s.frames .reader }, resumed frame ok))).storeReader _
  | get queue =>
      obtain ⟨found, -, rfl⟩ := Option.map_eq_some_iff.mp hstep
      exact h.aside hlasting (.same rfl rfl rfl rfl)
  | ack i =>
      obtain ⟨message, -, rfl⟩ := Option.map_eq_some_iff.mp hstep
      exact h.aside hlasting (.ack s i message)
  | index op =>
      cases hstep
      exact h.aside hlasting (.same rfl rfl rfl rfl)
  | detach filters queue =>
      cases hstep
      exact h.aside hlasting (.same rfl rfl rfl rfl)
  | drain =>
      cases hstep
      unfold drain
      split
      · rename_i b hstate
        exact h.setReplay (h.places.valid.addTask (h.places.valid.state b hstate) false)
          fun weight => Replay.held_addTask weight _ _
      · exact h
  | expireReplay b =>
      simp only [InboundPublishFlow.step, expireReplay] at hstep
      split at hstep
      · split at hstep
        · rename_i hstate
          cases hstep
          have hb := h.places.valid.state b hstate
          refine h.setReplay ((h.places.valid.modifyBuffer b _).addTask ?_ true) fun weight => ?_
          · simpa [Replay.modifyBuffer] using hb
          · rw [Replay.held_addTask]
            exact Replay.held_modifyBuffer_same weight fun _ => rfl
        · cases hstep
          exact h.setReplay (h.places.valid.modifyBuffer b _) fun weight =>
            Replay.held_modifyBuffer_same weight fun _ => rfl
      · cases hstep
  | acquireLock t =>
      obtain ⟨task, htask, hlock⟩ := Option.bind_eq_some_iff.mp hstep
      obtain ⟨⟨hphase, -, -⟩, heq⟩ := Option.ite_none_right_eq_some.mp hlock
      cases heq
      have hlocked : Kept P (s.setReplay (s.replay.modifyBuffer task.buffer fun buffer =>
          { buffer with lock := some t })) :=
        h.setReplay (h.places.valid.modifyBuffer _ _) fun weight =>
          Replay.held_modifyBuffer_same weight fun _ => rfl
      have hnow : (s.setReplay (s.replay.modifyBuffer task.buffer fun buffer =>
          { buffer with lock := some t })).replay.tasks[t]? = some task := htask
      refine hlocked.setPhase hnow fun weight => ?_
      rw [hphase]
      rfl
  | deliverNext t claim write =>
      obtain ⟨task, htask, hnext⟩ := Option.bind_eq_some_iff.mp hstep
      refine h.deliverNext hlasting hok htask hdone ?_ hnext
      intro unmatched received pending hphase hdetached log oid hoid
      rcases hrefused with hattached | hrefused
      · exact absurd (hattached task htask unmatched received pending hphase) hdetached
      · exact hrefused received.seq log oid hoid
  | resumeTask t ok write =>
      obtain ⟨task, htask, hnext⟩ := Option.bind_eq_some_iff.mp hstep
      exact h.resumeTask hlasting htask (hok task htask) hnext
  | cancel t =>
      obtain ⟨-, heq⟩ := Option.ite_none_right_eq_some.mp hstep
      cases heq
      exact h.setReplay (h.places.valid.cancel t) fun weight => Replay.held_cancel weight t
  | clear =>
      cases hstep
      exact h.clear hlasting

theorem start (config : Config) : Kept P (start config) where
  places :=
    { valid :=
        { state := fun b hb => by
            simp only [InboundPublishFlow.start] at hb
            split at hb <;> cases hb
          tasks := fun _ h => by cases h }
      frames := fun _ _ h => by cases h
      identified := rfl
      arrivals := fun _ => Nat.zero_le _
      balance := fun _ => Nat.le_refl _
      complete := fun _ => Nat.le_refl _ }
  finished := fun _ h => by cases h

/-- Along every run without interruptions, every message has at most one place. -/
theorem run {config : Config} {actions : List Action}
    (hok : Transition.Along InboundPublishFlow.step Uninterrupted
      (InboundPublishFlow.start config) actions)
    (hrun : Transition.run InboundPublishFlow.step (InboundPublishFlow.start config) actions =
      some s) : Kept Done s :=
  Transition.invariant_along
    (fun _ _ _ h hok hstep => h.step lasting_done (fun _ _ h => .inl h) hok
      (.inr fun _ _ oid h => .inr ⟨oid, h⟩) hstep)
    (Kept.start config) hok hrun

end Kept

end Zmqtt
