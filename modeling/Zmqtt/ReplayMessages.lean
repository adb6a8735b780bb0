import Zmqtt.ReplayHeld

/-!
# What the replay buffers hold

The drains of a resumed session take messages out of their buffer, put back those without a
recipient, and keep one at hand while they deliver it; expiry drops them and an interrupted
drain restores them.  Whatever the order, a message that is held is one that has arrived.
-/

namespace Zmqtt

/-- The messages a task of the replay has taken out of its buffer. -/
def ReplayPhase.messages : ReplayPhase → List Received
  | .looping unmatched pending => unmatched ++ pending
  | .delivering unmatched pending current => unmatched ++ pending ++ [current]
  | _ => []

/-- Every message that is held has the property `P`. -/
structure Replay.All (P : Received → Prop) (replay : Replay) : Prop where
  buffers : ∀ buffer ∈ replay.buffers, ∀ received ∈ buffer.publishes, P received
  tasks : ∀ task ∈ replay.tasks, ∀ received ∈ task.phase.messages, P received

namespace Replay.All

variable {P : Received → Prop} {replay : Replay} {b t : Nat}

/-- An element of a modified list was there, or is one that was there and is modified. -/
theorem mem_modify {α : Type} {items : List α} {i : Nat} {f : α → α} {a : α}
    (h : a ∈ items.modify i f) : a ∈ items ∨ ∃ old ∈ items, a = f old := by
  obtain ⟨j, hj⟩ := List.mem_iff_getElem?.mp h
  rw [List.getElem?_modify] at hj
  obtain ⟨old, hold, rfl⟩ := Option.map_eq_some_iff.mp hj
  have hmem := List.mem_of_getElem? hold
  split
  · exact .inr ⟨old, hmem, rfl⟩
  · exact .inl hmem

/-- A weaker condition holds as well. -/
theorem mono (h : replay.All P) {P' : Received → Prop} (hP : ∀ received, P received → P' received) :
    replay.All P' :=
  ⟨fun buffer hbuffer received hmem => hP received (h.buffers buffer hbuffer received hmem),
    fun task htask received hmem => hP received (h.tasks task htask received hmem)⟩

/-- The messages of every buffer meet the condition. -/
theorem buffer (h : replay.All P) (b : Nat) :
    ∀ received ∈ (replay.buffer b).publishes, P received := by
  unfold Replay.buffer
  cases hb : replay.buffers[b]? with
  | none => exact fun _ hmem => by cases hmem
  | some buffer => exact h.buffers buffer (List.mem_of_getElem? hb)

/-- A buffer is changed, and its messages still meet the condition. -/
theorem modifyBuffer (h : replay.All P) {f : ReplayBuffer → ReplayBuffer}
    (hf : ∀ buffer : ReplayBuffer, (∀ received ∈ buffer.publishes, P received) →
      ∀ received ∈ (f buffer).publishes, P received) : (replay.modifyBuffer b f).All P := by
  refine ⟨fun buffer hbuffer => ?_, h.tasks⟩
  rcases mem_modify hbuffer with hold | ⟨old, hold, rfl⟩
  · exact h.buffers buffer hold
  · exact hf old (h.buffers old hold)

/-- A change of a buffer beside its messages. -/
theorem mark (h : replay.All P) {f : ReplayBuffer → ReplayBuffer}
    (hf : ∀ buffer : ReplayBuffer, (f buffer).publishes = buffer.publishes) :
    (replay.modifyBuffer b f).All P :=
  h.modifyBuffer fun buffer hbuffer => by rwa [hf buffer]

/-- A task moves on, and what it has in hand meets the condition. -/
theorem setPhase (h : replay.All P) {phase : ReplayPhase}
    (hphase : ∀ received ∈ phase.messages, P received) : (replay.setPhase t phase).All P := by
  refine ⟨h.buffers, fun task htask => ?_⟩
  rcases mem_modify htask with hold | ⟨old, hold, rfl⟩
  · exact h.tasks task hold
  · exact hphase

/-- The messages in the hands of a task meet the condition. -/
theorem phase (h : replay.All P) {task : ReplayTask} (htask : replay.tasks[t]? = some task) :
    ∀ received ∈ task.phase.messages, P received :=
  h.tasks task (List.mem_of_getElem? htask)

/-- A cancelled task keeps its messages. -/
theorem cancel (h : replay.All P) (t : Nat) : (replay.cancel t).All P := by
  refine ⟨h.buffers, fun task htask => ?_⟩
  rcases mem_modify htask with hold | ⟨old, hold, rfl⟩
  · exact h.tasks task hold
  · exact h.tasks old hold

/-- A new buffer is empty. -/
theorem addBuffer (h : replay.All P) : replay.addBuffer.All P := by
  refine ⟨fun buffer hbuffer => ?_, h.tasks⟩
  rcases List.mem_append.mp hbuffer with hold | hnew
  · exact h.buffers buffer hold
  · cases List.mem_singleton.mp hnew
    exact fun _ hmem => by cases hmem

/-- A new task has no messages. -/
theorem addTask (h : replay.All P) (b : Nat) (expires : Bool) : (replay.addTask b expires).All P := by
  refine ⟨h.buffers, fun task htask => ?_⟩
  rcases List.mem_append.mp htask with hold | hnew
  · exact h.tasks task hold
  · cases List.mem_singleton.mp hnew
    exact fun _ hmem => by cases hmem

/-- The state of the replay is no message. -/
theorem setState (h : replay.All P) (state : ReplayState) : ({ replay with state }).All P :=
  ⟨h.buffers, h.tasks⟩

theorem cancelExpiration (h : replay.All P) (b : Nat) : (replay.cancelExpiration b).All P := by
  have habsent : (replay.modifyBuffer b fun buffer =>
      { buffer with expiration := .absent }).All P := h.mark fun _ => rfl
  unfold Replay.cancelExpiration
  simp only
  split
  · exact habsent.cancel _
  · exact habsent

/-- A task puts its lists back. -/
theorem release (h : replay.All P) {unmatched pending : List Received}
    (hunmatched : ∀ received ∈ unmatched, P received)
    (hpending : ∀ received ∈ pending, P received) :
    (replay.release b t unmatched pending).All P := by
  refine (h.modifyBuffer fun buffer hbuffer received hmem => ?_).setPhase fun _ hmem => by
    cases hmem
  rcases List.mem_append.mp hmem with hmem | hmem
  · rcases List.mem_append.mp hmem with hmem | hmem
    · exact hunmatched received hmem
    · exact hpending received hmem
  · exact hbuffer received hmem

theorem endExpiration (h : replay.All P) : (replay.endExpiration b t).All P :=
  h.mark fun _ => rfl

theorem advanceState (h : replay.All P) (next : ReplayState) :
    (replay.advanceState b next).All P :=
  h.setState _

/-- An emptied buffer has no messages. -/
theorem emptied (h : replay.All P) : (replay.modifyBuffer b ReplayBuffer.emptied).All P :=
  h.modifyBuffer fun _ _ _ hmem => by cases hmem

end Replay.All

namespace InboundPublishFlow

variable {s next : InboundPublishFlow} {P : Received → Prop}

/-- The read loop holds no buffered message. -/
theorem all_storeReader {x : InboundPublishFlow × Frame} (h : x.1.replay.All P) :
    (storeReader x).replay.All P := by
  obtain ⟨s, frame⟩ := x
  cases frame <;> exact h

/-- A task that raises puts back what it had. -/
theorem all_raiseFromTask (h : s.replay.All P) (t : Nat) (task : ReplayTask)
    {unmatched pending : List Received} (hunmatched : ∀ received ∈ unmatched, P received)
    (hpending : ∀ received ∈ pending, P received) :
    (s.raiseFromTask t task unmatched pending).replay.All P := by
  have hreleased : (s.replay.release task.buffer t unmatched pending).All P :=
    h.release hunmatched hpending
  unfold raiseFromTask
  simp only
  split
  · split <;> exact hreleased.endExpiration
  · exact hreleased

/-- A task is done with its message, puts it back, or keeps it. -/
theorem all_storeTask {x : InboundPublishFlow × Frame} (h : x.1.replay.All P) (t : Nat)
    (task : ReplayTask) {unmatched pending : List Received} {current : Received}
    (hunmatched : ∀ received ∈ unmatched, P received)
    (hpending : ∀ received ∈ pending, P received) (hcurrent : P current) :
    (storeTask t task unmatched pending current x).replay.All P := by
  obtain ⟨s, frame⟩ := x
  cases frame with
  | returned =>
      have hdiscard : (s.replay.modifyBuffer task.buffer fun _ =>
          ((s.replay.buffer task.buffer).discard current).1).All P := by
        refine h.modifyBuffer fun _ _ => ?_
        unfold ReplayBuffer.discard
        simp only
        split <;> exact h.buffer task.buffer
      simp only [storeTask]
      split
      · exact all_raiseFromTask hdiscard t task hunmatched hpending
      · refine hdiscard.setPhase fun received hmem => ?_
        rcases List.mem_append.mp hmem with hmem | hmem
        · exact hunmatched received hmem
        · exact hpending received hmem
  | raised e =>
      refine all_raiseFromTask h t task (fun received hmem => ?_) hpending
      rcases List.mem_append.mp hmem with hmem | hmem
      · exact hunmatched received hmem
      · exact List.mem_singleton.mp hmem ▸ hcurrent
  | _ => exact h

/-- A message that is held meets the condition itself. -/
theorem all_hold (h : s.replay.All P) (b : Nat) (buffer : ReplayBuffer) {received : Received}
    (hreceived : P received) : (s.hold b buffer received).1.replay.All P := by
  unfold hold
  split
  · exact h
  · split
    · exact h
    · refine h.modifyBuffer fun buffer hbuffer other hmem => ?_
      rcases List.mem_append.mp hmem with hmem | hmem
      · exact hbuffer other hmem
      · exact List.mem_singleton.mp hmem ▸ hreceived

/-- A PUBLISH is delivered, or held in a buffer. -/
theorem all_route (h : s.replay.All P) {received : Received} (hreceived : P received)
    (claim : Option Nat) (write : WriteOutcome) :
    (s.route received claim write).1.replay.All P := by
  have hheld : ∀ {r : InboundPublishFlow} {b buffer}, r.replay.All P →
      s.selectRecipientOrBuffer received claim = r.hold b buffer received →
      (s.route received claim write).1.replay.All P := by
    intro r b buffer hr heq
    obtain ⟨frame, hroute, -⟩ := route_held heq write
    rw [hroute]
    exact all_hold hr b buffer hreceived
  rcases s.selectRecipientOrBuffer_cases received claim with
    ⟨-, heq⟩ | ⟨-, -, -, heq⟩ | ⟨b, -, heq⟩ | ⟨-, heq⟩
  · unfold route
    rw [heq]
    change (s.deliverReplay received _ write).1.replay.All P
    rw [(Aside.deliverReplay s received _ write).replay]
    exact h
  · unfold route
    rw [heq]
    change ((s.emit _).deliverReplay received _ write).1.replay.All P
    rw [(Aside.deliverReplay _ received _ write).replay]
    exact h
  · exact hheld h heq
  · have hadded : (s.setReplay s.replay.addBuffer).replay.All P := h.addBuffer
    exact hheld hadded heq

/-- A PUBLISH that meets the condition leaves a replay that does. -/
theorem all_handlePublish (h : s.replay.All P) {packet : Publish}
    (hpacket : P { seq := s.nextSeq, publish := packet }) (claim : Option Nat)
    (write : WriteOutcome) : (s.handlePublish packet claim write).1.replay.All P := by
  have harrived : (s.arrived packet).replay.All P := by
    rw [arrived_frame]
    exact h
  rcases s.handlePublish_cases packet claim write with
    ⟨-, -, heq⟩ | ⟨-, msg, heq⟩ | ⟨-, -, heq⟩ | ⟨-, -, pid, flight, -, -, heq⟩ | ⟨-, -, -, heq⟩
  · rw [heq]
    exact harrived
  · rw [heq]
    exact harrived
  · rw [heq]
    exact harrived
  · rw [heq]
    exact harrived
  · rw [heq]
    exact all_route harrived hpacket claim write

/-- A round of `_deliver_pending` takes its message from what is held. -/
theorem all_deliverNext (h : s.replay.All P) {t : Nat} {task : ReplayTask} {claim : Option Nat}
    {write : WriteOutcome} (htask : s.replay.tasks[t]? = some task)
    (hnext : s.deliverNext t task claim write = some next) : next.replay.All P := by
  have hphase := h.phase htask
  have hnil : ∀ received ∈ ([] : List Received), P received := fun _ hmem => by cases hmem
  rcases deliverNext_cases hnext with ⟨unmatched, heq, -, -, rfl⟩ | ⟨unmatched, heq, -, -, rfl⟩ |
    ⟨unmatched, heq, rfl⟩ | ⟨unmatched, received, pending, heq, rfl⟩ |
    ⟨unmatched, received, pending, heq, -, rfl⟩ <;> rw [heq] at hphase
  · have hunmatched : ∀ received ∈ unmatched, P received :=
      fun received hmem => hphase received (List.mem_append_left _ hmem)
    have hemptied : ((s.replay.release task.buffer t unmatched []).modifyBuffer task.buffer
        ReplayBuffer.emptied).All P := (h.release hunmatched hnil).emptied
    exact (hemptied.advanceState _).endExpiration
  · have hunmatched : ∀ received ∈ unmatched, P received :=
      fun received hmem => hphase received (List.mem_append_left _ hmem)
    have hreleased : (s.replay.release task.buffer t unmatched []).All P :=
      h.release hunmatched hnil
    unfold finishDrain
    simp only
    split
    · exact hreleased
    · exact (hreleased.cancelExpiration _).advanceState _
  · have htaken : (s.replay.modifyBuffer task.buffer fun buffer =>
        { buffer with publishes := [] }).All P := h.modifyBuffer fun _ _ _ hmem => by cases hmem
    refine htaken.setPhase fun received hmem => ?_
    rcases List.mem_append.mp hmem with hmem | hmem
    · exact hphase received (List.mem_append_left _ hmem)
    · exact h.buffer task.buffer received hmem
  · refine h.setPhase fun other hmem => hphase other ?_
    simpa [ReplayPhase.messages, List.append_assoc] using hmem
  · have hcurrent : P received := hphase received (by simp [ReplayPhase.messages])
    have hunmatched : ∀ other ∈ unmatched, P other :=
      fun other hmem => hphase other (List.mem_append_left _ hmem)
    have hpending : ∀ other ∈ pending, P other :=
      fun other hmem => hphase other (List.mem_append_right _ (List.mem_cons_of_mem _ hmem))
    refine all_storeTask ?_ t task hunmatched hpending hcurrent
    rw [((Aside.deliverReplay (s.setReplay (s.replay.setPhase t
      (.delivering unmatched pending received))) received _ write).trans (.settle write _)).replay]
    refine h.setPhase fun other hmem => ?_
    rcases List.mem_append.mp hmem with hmem | hmem
    · rcases List.mem_append.mp hmem with hmem | hmem
      · exact hunmatched other hmem
      · exact hpending other hmem
    · exact List.mem_singleton.mp hmem ▸ hcurrent

/-- A task that goes on has the messages it had. -/
theorem all_resumeTask (h : s.replay.All P) {t : Nat} {task : ReplayTask} {proceeds : Bool}
    {write : WriteOutcome} (htask : s.replay.tasks[t]? = some task)
    (hnext : s.resumeTask t task proceeds write = some next) : next.replay.All P := by
  have hphase := h.phase htask
  unfold resumeTask at hnext
  split at hnext
  · split at hnext
    · cases hnext
      have hfinished : (s.replay.setPhase t .finished).All P :=
        h.setPhase fun _ hmem => by cases hmem
      cases task.expires with
      | true => exact hfinished.endExpiration
      | false => exact hfinished
    · cases hnext
  · rename_i unmatched pending current heq
    rw [heq] at hphase
    obtain ⟨frame, -, rfl⟩ := Option.map_eq_some_iff.mp hnext
    refine all_storeTask ?_ t task
      (fun other hmem => hphase other (List.mem_append_left _ (List.mem_append_left _ hmem)))
      (fun other hmem => hphase other (List.mem_append_left _ (List.mem_append_right _ hmem)))
      (hphase current (List.mem_append_right _ (List.mem_singleton_self _)))
    rw [(Aside.settle write _).replay]
    exact h
  · cases hnext

/-- **A step** holds no message but those held before and the PUBLISH that arrives. -/
theorem all_step (h : s.replay.All P) {a : Action}
    (harrive : ∀ packet claim write, a = .publish packet claim write →
      P { seq := s.nextSeq, publish := packet })
    (hstep : s.step a = some next) : next.replay.All P := by
  cases a with
  | publish packet claim write =>
      obtain ⟨-, heq⟩ := Option.ite_none_right_eq_some.mp hstep
      cases heq
      refine all_storeReader ?_
      rw [(Aside.settle write _).replay]
      exact all_handlePublish h (harrive packet claim write rfl) claim write
  | pubrel packet write =>
      obtain ⟨-, heq⟩ := Option.ite_none_right_eq_some.mp hstep
      cases heq
      refine all_storeReader ?_
      rw [((Aside.handlePubrel s packet write).trans (.settle write _)).replay]
      exact h
  | resumeReader proceeds write =>
      obtain ⟨frame, -, rfl⟩ := Option.map_eq_some_iff.mp hstep
      refine all_storeReader ?_
      rw [(Aside.settle write _).replay]
      exact h
  | get queue =>
      obtain ⟨found, -, rfl⟩ := Option.map_eq_some_iff.mp hstep
      exact h
  | ack i =>
      obtain ⟨message, -, rfl⟩ := Option.map_eq_some_iff.mp hstep
      rw [(Aside.ack s i message).replay]
      exact h
  | index op =>
      cases hstep
      exact h
  | detach filters queue =>
      cases hstep
      exact h
  | drain =>
      cases hstep
      unfold drain
      split
      · exact h.addTask _ false
      · exact h
  | expireReplay b =>
      simp only [InboundPublishFlow.step, expireReplay] at hstep
      split at hstep
      · split at hstep <;> cases hstep
        · have hrunning : (s.replay.modifyBuffer b fun buffer =>
              { buffer with expiration := .running s.replay.tasks.length }).All P :=
            h.mark fun _ => rfl
          exact hrunning.addTask b true
        · exact h.mark fun _ => rfl
      · cases hstep
  | acquireLock t =>
      obtain ⟨task, -, hlock⟩ := Option.bind_eq_some_iff.mp hstep
      obtain ⟨-, heq⟩ := Option.ite_none_right_eq_some.mp hlock
      cases heq
      have hlocked : (s.replay.modifyBuffer task.buffer fun buffer =>
          { buffer with lock := some t }).All P := h.mark fun _ => rfl
      exact hlocked.setPhase fun _ hmem => by cases hmem
  | deliverNext t claim write =>
      obtain ⟨task, htask, hnext⟩ := Option.bind_eq_some_iff.mp hstep
      exact all_deliverNext h htask hnext
  | resumeTask t proceeds write =>
      obtain ⟨task, htask, hnext⟩ := Option.bind_eq_some_iff.mp hstep
      exact all_resumeTask h htask hnext
  | cancel t =>
      obtain ⟨-, heq⟩ := Option.ite_none_right_eq_some.mp hstep
      cases heq
      exact h.cancel t
  | clear =>
      cases hstep
      unfold clear
      split
      · exact h
      · exact h.setState _
      · rename_i b _
        exact (h.cancelExpiration b).emptied.setState _

end InboundPublishFlow

end Zmqtt
