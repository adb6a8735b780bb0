import Zmqtt.ReplayBooks
import Zmqtt.ReplayHeld

/-!
# The buffers of a flow, one by one

`BufferRun` is one replay buffer with its tasks.  Every buffer of a flow is such a
machine: a change of the replay state is a step in the view of one buffer and nothing
in the views of the others.  A buffer that the flow has left holds no message.
-/

namespace Zmqtt

/-- The messages of a task without the one in delivery. -/
def ReplayPhase.waits : ReplayPhase → List Received
  | .looping unmatched pending => unmatched ++ pending
  | .delivering unmatched pending _ => unmatched ++ pending
  | _ => []

theorem ReplayPhase.waits_sublist (phase : ReplayPhase) : phase.waits.Sublist phase.inHand := by
  cases phase with
  | delivering unmatched pending current =>
      exact (List.sublist_cons_self current pending).append_left unmatched
  | _ => exact List.Sublist.refl _

/-- A message without a recipient is held, within the limit. -/
theorem ReplayBuffer.accept_append {buffer : ReplayBuffer} {bufferSize : Nat} {received : Received}
    (hfresh : ¬ (received.publish.packetId.elim false fun pid =>
      decide (pid ∈ buffer.packetIds)) = true)
    (hroom : ¬ (bufferSize ≠ 0 ∧ (bufferSize : Int) ≤ buffer.messageCount)) :
    (buffer.accept bufferSize received false false).1 = buffer.append received := by
  unfold ReplayBuffer.accept
  rw [if_neg Bool.false_ne_true, if_neg (by simp), if_neg hfresh, if_neg hroom]

namespace BufferRun

variable {r r' : BufferRun} {t : Nat} {task : ReplayTask}

/-- The held messages without the one in delivery. -/
def waiting (r : BufferRun) : List Received :=
  (r.tasks.flatMap fun task => task.phase.waits) ++ r.buffer.publishes

theorem mem_held_of_waiting {received : Received} (h : received ∈ r.waiting) :
    received ∈ r.held := by
  rcases List.mem_append.mp h with htask | hbuffer
  · obtain ⟨task, hmem, hreceived⟩ := List.mem_flatMap.mp htask
    refine List.mem_append_left _ (List.mem_flatMap.mpr ⟨task, hmem, ?_⟩)
    exact task.phase.waits_sublist.subset hreceived
  · exact List.mem_append_right _ hbuffer

/-! ## What a view depends on -/

/-- The same phases of the tasks, and the same containers and counters. -/
structure Alike (r r' : BufferRun) : Prop where
  phases : r'.tasks.map ReplayTask.phase = r.tasks.map ReplayTask.phase
  publishes : r'.buffer.publishes = r.buffer.publishes
  packetIds : r'.buffer.packetIds = r.buffer.packetIds
  topics : r'.buffer.topics = r.buffer.topics
  messageCount : r'.buffer.messageCount = r.buffer.messageCount
  lock : r'.buffer.lock = r.buffer.lock
  bufferSize : r'.bufferSize = r.bufferSize

namespace Alike

theorem refl (r : BufferRun) : Alike r r := ⟨rfl, rfl, rfl, rfl, rfl, rfl, rfl⟩

theorem held (h : Alike r r') : r'.held = r.held := by
  unfold BufferRun.held
  rw [h.publishes, ← List.flatMap_map ReplayTask.phase, h.phases, List.flatMap_map]

theorem waiting (h : Alike r r') : r'.waiting = r.waiting := by
  unfold BufferRun.waiting
  rw [h.publishes, ← List.flatMap_map ReplayTask.phase, h.phases, List.flatMap_map]

theorem sound (h : Alike r r') (hlast : r.lastSeq ≤ r'.lastSeq) (hsound : r.Sound) : r'.Sound where
  holder t task htask := by
    have hphase : (r'.tasks.map ReplayTask.phase)[t]? = some task.phase := by
      rw [List.getElem?_map, htask]
      rfl
    rw [h.phases, List.getElem?_map] at hphase
    obtain ⟨old, hold, hsame⟩ := Option.map_eq_some_iff.mp hphase
    rw [h.lock, ← hsame]
    exact hsound.holder t old hold
  isTask t hlock := by
    have hlength := congrArg List.length h.phases
    simp only [List.length_map] at hlength
    rw [hlength]
    exact hsound.isTask t (h.lock ▸ hlock)
  books := by
    rw [h.held, h.bufferSize]
    exact hsound.books.congr h.messageCount h.topics h.packetIds
  arrival := by
    rw [h.held]
    exact hsound.arrival
  latest received hmem := by
    rw [h.held] at hmem
    exact Nat.le_trans (hsound.latest received hmem) hlast

end Alike

/-- What waits after a task that has the lock, or takes it, has gone on. -/
theorem Sound.waiting_update (h : r.Sound) (htask : r.tasks[t]? = some task)
    (hlock : r.buffer.lock = none ∨ r.buffer.lock = some t) (buffer : ReplayBuffer)
    (phase : ReplayPhase) :
    (r.update t buffer phase).waiting = phase.waits ++ buffer.publishes := by
  unfold waiting BufferRun.update
  dsimp only
  rw [TaskList.flatMap_modify_only htask]
  intro i other hi hne
  have hempty := h.others_empty hlock i other hi hne
  have hsub := other.phase.waits_sublist
  rw [hempty] at hsub
  exact List.sublist_nil.mp hsub

end BufferRun

/-! ## Views -/

namespace Replay

variable {replay : Replay} {size last b t : Nat} {task : ReplayTask}

/-- The task as the buffer `b` sees it: one of another buffer does nothing. -/
def viewTask (b : Nat) (task : ReplayTask) : ReplayTask :=
  if task.buffer = b then task else { task with phase := .waiting }

/-- A buffer and its tasks. -/
def view (replay : Replay) (size last b : Nat) : BufferRun where
  buffer := replay.buffer b
  bufferSize := size
  tasks := replay.tasks.map (viewTask b)
  lastSeq := last

theorem getElem?_view (htask : replay.tasks[t]? = some task) (hb : task.buffer = b) :
    (replay.view size last b).tasks[t]? = some task := by
  show (replay.tasks.map (viewTask b))[t]? = _
  rw [List.getElem?_map, htask]
  simp [viewTask, hb]

theorem buffer_modifyBuffer_ne {b' : Nat} (hne : b' ≠ b) (f : ReplayBuffer → ReplayBuffer) :
    (replay.modifyBuffer b f).buffer b' = replay.buffer b' := by
  unfold buffer modifyBuffer
  rw [List.getElem?_modify_ne _ _ hne.symm]

/-- A task goes on, with its buffer. -/
theorem view_update (hb : task.buffer < replay.buffers.length)
    (htask : replay.tasks[t]? = some task) (f : ReplayBuffer → ReplayBuffer)
    (phase : ReplayPhase) :
    ((replay.modifyBuffer task.buffer f).setPhase t phase).view size last task.buffer =
      (replay.view size last task.buffer).update t (f (replay.buffer task.buffer)) phase := by
  have hbuffer : ((replay.modifyBuffer task.buffer f).setPhase t phase).buffer task.buffer =
      f (replay.buffer task.buffer) := buffer_modifyBuffer hb f
  have htasks : (replay.tasks.modify t fun task => { task with phase }).map
      (viewTask task.buffer) =
      (replay.tasks.map (viewTask task.buffer)).modify t fun task => { task with phase } := by
    apply List.ext_getElem?
    intro i
    simp only [List.getElem?_map, List.getElem?_modify]
    by_cases hi : t = i
    · subst hi
      simp [htask, viewTask]
    · simp [hi]
  unfold view BufferRun.update
  rw [hbuffer]
  exact congrArg (fun tasks => BufferRun.mk (f (replay.buffer task.buffer)) size tasks last) htasks

/-- The other buffers do not see it. -/
theorem view_update_ne (htask : replay.tasks[t]? = some task) (hne : b ≠ task.buffer)
    (f : ReplayBuffer → ReplayBuffer) (phase : ReplayPhase) :
    ((replay.modifyBuffer task.buffer f).setPhase t phase).view size last b =
      replay.view size last b := by
  have hbuffer : ((replay.modifyBuffer task.buffer f).setPhase t phase).buffer b =
      replay.buffer b := buffer_modifyBuffer_ne hne f
  have htasks : (replay.tasks.modify t fun task => { task with phase }).map (viewTask b) =
      replay.tasks.map (viewTask b) := by
    apply List.ext_getElem?
    intro i
    simp only [List.getElem?_map, List.getElem?_modify]
    by_cases hi : t = i
    · subst hi
      simp [htask, viewTask, hne.symm]
    · simp [hi]
  unfold view
  rw [hbuffer]
  exact congrArg (fun tasks => BufferRun.mk (replay.buffer b) size tasks last) htasks

theorem view_addTask (b' : Nat) (expires : Bool) :
    (replay.addTask b' expires).view size last b =
      { replay.view size last b with
        tasks := (replay.view size last b).tasks ++ [{ buffer := b', expires }] } := by
  unfold view addTask
  simp only [List.map_append, List.map_cons, List.map_nil]
  have hsame : viewTask b { buffer := b', expires } = { buffer := b', expires } := by
    unfold viewTask
    split <;> rfl
  rw [hsame]
  rfl

/-- Every buffer keeps its books, and one that the flow has left holds nothing. -/
structure Views (replay : Replay) (size last : Nat) : Prop where
  valid : replay.Valid
  sound : ∀ b, b < replay.buffers.length → (replay.view size last b).Sound
  left : ∀ b, b < replay.buffers.length → replay.state ≠ .buffered b →
    (replay.view size last b).held = []

/-- A message waits in one of the buffers. -/
def Waits (replay : Replay) (received : Received) : Prop :=
  ∃ b, b < replay.buffers.length ∧ received ∈ (replay.view 0 0 b).waiting

/-! ## Changes of the replay state -/

variable {replay' : Replay} {last' : Nat} {received : Received}

theorem waits_iff (size last : Nat) : replay.Waits received ↔
    ∃ b, b < replay.buffers.length ∧ received ∈ (replay.view size last b).waiting :=
  Iff.rfl

/-- No view changes. -/
structure SameViews (replay replay' : Replay) : Prop where
  length : replay'.buffers.length = replay.buffers.length
  alike : ∀ b, BufferRun.Alike (replay.view 0 0 b) (replay'.view 0 0 b)

namespace SameViews

theorem trans {mid : Replay} (h : SameViews replay mid) (h' : SameViews mid replay') :
    SameViews replay replay' where
  length := h'.length.trans h.length
  alike b := by
    have hfirst := h.alike b
    have hsecond := h'.alike b
    exact ⟨hsecond.phases.trans hfirst.phases, hsecond.publishes.trans hfirst.publishes,
      hsecond.packetIds.trans hfirst.packetIds, hsecond.topics.trans hfirst.topics,
      hsecond.messageCount.trans hfirst.messageCount, hsecond.lock.trans hfirst.lock, rfl⟩

theorem view (h : SameViews replay replay') (size last last' b : Nat) :
    BufferRun.Alike (replay.view size last b) (replay'.view size last' b) :=
  have halike := h.alike b
  ⟨halike.phases, halike.publishes, halike.packetIds, halike.topics, halike.messageCount,
    halike.lock, rfl⟩

theorem waits (h : SameViews replay replay') : replay'.Waits received ↔ replay.Waits received := by
  unfold Waits
  simp only [h.length, (h.alike _).waiting]

/-- The grace period of a buffer begins, ends or is called off. -/
theorem setExpiration (replay : Replay) (b : Nat) (f : ReplayBuffer → Expiration) :
    SameViews replay (replay.modifyBuffer b fun buffer => { buffer with expiration := f buffer }) where
  length := List.length_modify ..
  alike b' := by
    have hbuffer : ∃ expiration, (replay.modifyBuffer b fun buffer =>
        { buffer with expiration := f buffer }).buffer b' =
          { replay.buffer b' with expiration } := by
      unfold Replay.buffer modifyBuffer
      rw [List.getElem?_modify]
      cases replay.buffers[b']? with
      | none => exact ⟨_, rfl⟩
      | some buffer =>
          by_cases heq : b = b'
          · exact ⟨f buffer, by simp [heq]⟩
          · exact ⟨buffer.expiration, by simp [heq]⟩
    obtain ⟨expiration, hbuffer⟩ := hbuffer
    unfold Replay.view
    rw [hbuffer]
    exact ⟨rfl, rfl, rfl, rfl, rfl, rfl, rfl⟩

/-- A task is asked to stop. -/
theorem cancel (replay : Replay) (t : Nat) : SameViews replay (replay.cancel t) where
  length := rfl
  alike b := by
    refine ⟨?_, rfl, rfl, rfl, rfl, rfl, rfl⟩
    show ((replay.tasks.modify t fun task => { task with cancelRequested := true }).map
      (viewTask b)).map ReplayTask.phase = _
    apply List.ext_getElem?
    intro i
    show _ = ((replay.tasks.map (viewTask b)).map ReplayTask.phase)[i]?
    simp only [List.getElem?_map, List.getElem?_modify]
    cases replay.tasks[i]? with
    | none => rfl
    | some task =>
        by_cases heq : t = i
        · by_cases hbuffer : task.buffer = b
          · simp [heq, viewTask, hbuffer]
          · simp [heq, viewTask, hbuffer]
        · simp [heq]

theorem cancelExpiration (replay : Replay) (b : Nat) :
    SameViews replay (replay.cancelExpiration b) := by
  have habsent := setExpiration replay b fun _ => .absent
  unfold Replay.cancelExpiration
  dsimp only
  split
  · exact habsent.trans (cancel _ _)
  · exact habsent

theorem endExpiration (replay : Replay) (b t : Nat) : SameViews replay (replay.endExpiration b t) :=
  setExpiration replay b fun buffer =>
    if buffer.expiration = .running t then .absent else buffer.expiration

end SameViews

namespace Views

theorem of_same (h : Views replay size last) (hsame : SameViews replay replay')
    (hstate : replay'.state = replay.state) (hvalid : replay'.Valid) (hlast : last ≤ last') :
    Views replay' size last' where
  valid := hvalid
  sound b hb := (hsame.view size last last' b).sound hlast (h.sound b (hsame.length ▸ hb))
  left b hb hne := by
    rw [(hsame.view size last last' b).held]
    exact h.left b (hsame.length ▸ hb) (hstate ▸ hne)

/-- More messages have arrived. -/
theorem later (h : Views replay size last) (hlast : last ≤ last') : Views replay size last' :=
  h.of_same ⟨rfl, fun _ => .refl _⟩ rfl h.valid hlast

/-- The flow leaves a buffer that holds nothing. -/
theorem advanceState (h : Views replay size last) {next : ReplayState}
    (hnext : ∀ b, next ≠ .buffered b)
    (hempty : (replay.view size last b).held = []) :
    Views (replay.advanceState b next) size last where
  valid := h.valid.advanceState b hnext
  sound b' hb' := h.sound b' hb'
  left b' hb' hne := by
    by_cases heq : b' = b
    · rw [heq]
      exact hempty
    · refine h.left b' hb' fun hstate => hne ?_
      show (if replay.state = .buffered b then next else replay.state) = _
      rw [hstate, if_neg fun hequal => heq (ReplayState.buffered.inj hequal)]

/-- A task goes on, with its buffer. -/
theorem update (h : Views replay size last) (htask : replay.tasks[t]? = some task)
    {f : ReplayBuffer → ReplayBuffer} {phase : ReplayPhase}
    (hsound : ((replay.view size last task.buffer).update t (f (replay.buffer task.buffer))
      phase).Sound)
    (hheld : (replay.view size last task.buffer).held = [] →
      ((replay.view size last task.buffer).update t (f (replay.buffer task.buffer))
        phase).held = []) :
    Views ((replay.modifyBuffer task.buffer f).setPhase t phase) size last := by
  have hb := h.valid.tasks task (List.mem_of_getElem? htask)
  have hlength : ((replay.modifyBuffer task.buffer f).setPhase t phase).buffers.length =
      replay.buffers.length := List.length_modify ..
  refine ⟨(h.valid.modifyBuffer _ f).setPhase t phase, fun b hb' => ?_, fun b hb' hne => ?_⟩
  · rw [hlength] at hb'
    by_cases heq : b = task.buffer
    · rw [heq, view_update hb htask]
      exact hsound
    · rw [view_update_ne htask heq]
      exact h.sound b hb'
  · rw [hlength] at hb'
    by_cases heq : b = task.buffer
    · rw [heq, view_update hb htask]
      exact hheld (h.left _ hb (heq ▸ hne))
    · rw [view_update_ne htask heq]
      exact h.left b hb' hne

/-- What waits after it. -/
theorem waits_update (h : Views replay size last) (htask : replay.tasks[t]? = some task)
    (hlock : (replay.buffer task.buffer).lock = none ∨
      (replay.buffer task.buffer).lock = some t) {f : ReplayBuffer → ReplayBuffer}
    {phase : ReplayPhase}
    (hwaits : ((replay.modifyBuffer task.buffer f).setPhase t phase).Waits received) :
    received ∈ phase.waits ++ (f (replay.buffer task.buffer)).publishes ∨
      ∃ b, b < replay.buffers.length ∧ b ≠ task.buffer ∧
        received ∈ (replay.view size last b).waiting := by
  have hb := h.valid.tasks task (List.mem_of_getElem? htask)
  obtain ⟨b, hlt, hmem⟩ := (waits_iff size last).mp hwaits
  rw [show ((replay.modifyBuffer task.buffer f).setPhase t phase).buffers.length =
    replay.buffers.length from List.length_modify ..] at hlt
  by_cases heq : b = task.buffer
  · rw [heq, view_update hb htask,
      (h.sound _ hb).waiting_update (getElem?_view htask rfl) hlock] at hmem
    exact .inl hmem
  · rw [view_update_ne htask heq] at hmem
    exact .inr ⟨b, hlt, heq, hmem⟩

/-- A new task waits for the lock of its buffer. -/
theorem addTask (h : Views replay size last) (hb : b < replay.buffers.length) (expires : Bool) :
    Views (replay.addTask b expires) size last where
  valid := h.valid.addTask hb expires
  sound b' hb' := by
    rw [view_addTask]
    exact (h.sound b' hb').addTask _ rfl
  left b' hb' hne := by
    rw [view_addTask, ← h.left b' hb' hne]
    simp [BufferRun.held, ReplayPhase.inHand]

end Views

theorem waits_addTask (b : Nat) (expires : Bool) :
    (replay.addTask b expires).Waits received ↔ replay.Waits received := by
  unfold Waits
  simp only [view_addTask]
  simp [BufferRun.waiting, ReplayPhase.waits, addTask]

/-! ## Messages that are held -/

/-- A message is appended to a buffer. -/
theorem view_append (hb : b < replay.buffers.length) (received : Received) :
    (replay.modifyBuffer b fun buffer => buffer.append received).view size last b =
      { replay.view size last b with buffer := (replay.buffer b).append received } := by
  unfold view
  rw [buffer_modifyBuffer hb]
  rfl

theorem view_append_ne {b' : Nat} (hne : b' ≠ b) (received : Received) :
    (replay.modifyBuffer b fun buffer => buffer.append received).view size last b' =
      replay.view size last b' := by
  unfold view
  rw [buffer_modifyBuffer_ne hne]
  rfl

theorem Views.append (h : Views replay size last) (hstate : replay.state = .buffered b)
    (hseq : last < received.seq)
    (hfresh : ¬ (received.publish.packetId.elim false fun pid =>
      decide (pid ∈ (replay.buffer b).packetIds)) = true)
    (hroom : ¬ (size ≠ 0 ∧ (size : Int) ≤ (replay.buffer b).messageCount)) :
    Views (replay.modifyBuffer b fun buffer => buffer.append received) size received.seq := by
  have hb := h.valid.state b hstate
  refine ⟨h.valid.modifyBuffer b _, fun b' hb' => ?_, fun b' hb' hne => ?_⟩
  · rw [show (replay.modifyBuffer b _).buffers.length = replay.buffers.length from
      List.length_modify ..] at hb'
    by_cases heq : b' = b
    · have haccept := (h.sound b hb).accept false false hseq
      have hbuffer : ((replay.view size last b).buffer.accept (replay.view size last b).bufferSize
          received false false).1 = (replay.buffer b).append received :=
        ReplayBuffer.accept_append hfresh hroom
      rw [hbuffer] at haccept
      rw [heq, view_append hb]
      exact haccept
    · rw [view_append_ne heq]
      exact (h.later (Nat.le_of_lt hseq)).sound b' hb'
  · have heq : b' ≠ b := fun heq => hne (heq ▸ hstate)
    rw [show (replay.modifyBuffer b _).buffers.length = replay.buffers.length from
      List.length_modify ..] at hb'
    rw [view_append_ne heq]
    exact h.left b' hb' hne

theorem waits_append {b : Nat} (hb : b < replay.buffers.length) {other : Received}
    (hwaits : (replay.modifyBuffer b fun buffer => buffer.append received).Waits other) :
    replay.Waits other ∨ other = received := by
  obtain ⟨b', hlt, hmem⟩ := hwaits
  rw [show (replay.modifyBuffer b _).buffers.length = replay.buffers.length from
    List.length_modify ..] at hlt
  by_cases heq : b' = b
  · rw [heq, view_append hb] at hmem
    have hcases : other ∈ (replay.view 0 0 b).waiting ++ [received] := by
      unfold BufferRun.waiting at hmem ⊢
      rw [List.append_assoc]
      exact hmem
    rcases List.mem_append.mp hcases with hold | hnew
    · exact .inl ⟨b, hb, hold⟩
    · exact .inr (List.mem_singleton.mp hnew)
  · rw [view_append_ne heq] at hmem
    exact .inl ⟨b', hlt, hmem⟩

/-- A new buffer holds nothing. -/
theorem view_addBuffer : replay.addBuffer.view size last b = replay.view size last b := by
  have hbuffer : replay.addBuffer.buffer b = replay.buffer b := by
    unfold buffer addBuffer
    dsimp only
    by_cases hlt : b < replay.buffers.length
    · rw [List.getElem?_append_left hlt]
    · rw [List.getElem?_eq_none (l := replay.buffers) (by omega)]
      by_cases heq : b = replay.buffers.length
      · simp [heq]
      · rw [List.getElem?_eq_none (by simp; omega)]
  unfold view
  rw [hbuffer]
  rfl

/-- The view of a buffer that is not there yet. -/
theorem Valid.view_new (h : replay.Valid) :
    (replay.view size last replay.buffers.length).Sound ∧
      (replay.view size last replay.buffers.length).held = [] := by
  have hwaiting : ∀ task ∈ (replay.view size last replay.buffers.length).tasks,
      task.phase = .waiting := by
    intro task htask
    obtain ⟨old, hold, rfl⟩ := List.mem_map.mp htask
    have hlt := h.tasks old hold
    unfold viewTask
    rw [if_neg (by omega)]
  have hbuffer : replay.buffer replay.buffers.length = {} := by
    unfold buffer
    rw [List.getElem?_eq_none (Nat.le_refl _)]
    rfl
  have hheld : (replay.view size last replay.buffers.length).held = [] := by
    refine (BufferRun.Sound.held_idle fun task htask => ?_).trans ?_
    · rw [hwaiting task htask]
      rfl
    · show (replay.buffer replay.buffers.length).publishes = []
      rw [hbuffer]
  refine ⟨⟨fun t task htask => ?_, fun t hlock => ?_, ?_, ?_, fun received hmem => ?_⟩, hheld⟩
  · rw [hwaiting task (List.mem_of_getElem? htask)]
    show _ ↔ (replay.buffer replay.buffers.length).lock = some t
    rw [hbuffer]
    simp [ReplayPhase.inside]
  · have hnone : (replay.buffer replay.buffers.length).lock = some t := hlock
    rw [hbuffer] at hnone
    cases hnone
  · rw [hheld]
    show Books (replay.buffer replay.buffers.length) size []
    rw [hbuffer]
    exact (Books.emptied {} size).congr rfl rfl rfl
  · rw [hheld]
    exact List.Pairwise.nil
  · rw [hheld] at hmem
    exact absurd hmem List.not_mem_nil

theorem Views.addBuffer (h : Views replay size last)
    (hidle : ∀ b, replay.state ≠ .buffered b) : Views replay.addBuffer size last where
  valid := h.valid.addBuffer
  sound b hb := by
    rw [view_addBuffer]
    by_cases hlt : b < replay.buffers.length
    · exact h.sound b hlt
    · have heq : b = replay.buffers.length := by
        simp only [Replay.addBuffer, List.length_append, List.length_singleton] at hb
        omega
      rw [heq]
      exact h.valid.view_new.1
  left b hb hne := by
    rw [view_addBuffer]
    have hlt : b < replay.buffers.length := by
      simp only [Replay.addBuffer, List.length_append, List.length_singleton] at hb
      rcases Nat.lt_or_eq_of_le (Nat.le_of_lt_succ hb) with hlt | heq
      · exact hlt
      · exact absurd (congrArg ReplayState.buffered heq.symm) hne
    exact h.left b hlt (hidle b)

theorem waits_addBuffer (h : replay.Valid) (hwaits : replay.addBuffer.Waits received) :
    replay.Waits received := by
  obtain ⟨b, hlt, hmem⟩ := hwaits
  rw [view_addBuffer] at hmem
  by_cases hold : b < replay.buffers.length
  · exact ⟨b, hold, hmem⟩
  · have heq : b = replay.buffers.length := by
      simp only [addBuffer, List.length_append, List.length_singleton] at hlt
      omega
    have hheld := BufferRun.mem_held_of_waiting hmem
    rw [heq, h.view_new.2] at hheld
    exact absurd hheld List.not_mem_nil

/-! ## Where a message waits -/

/-- A message waits in the buffer that the flow has. -/
theorem Views.current (h : Views replay size last) (hwaits : replay.Waits received) :
    ∃ b, replay.state = .buffered b ∧ received ∈ (replay.view size last b).waiting := by
  obtain ⟨b, hlt, hmem⟩ := (waits_iff size last).mp hwaits
  refine ⟨b, ?_, hmem⟩
  by_contra hne
  have hheld := BufferRun.mem_held_of_waiting hmem
  rw [h.left b hlt hne] at hheld
  exact absurd hheld List.not_mem_nil

/-- The topics of a buffer are those of the messages it holds. -/
theorem Views.not_waits (h : Views replay size last) {topic : Str}
    (hnone : ∀ b, replay.state = .buffered b →
      OrderedDict.get (replay.buffer b).topics topic = none)
    (hwaits : replay.Waits received) : received.publish.topic ≠ topic := by
  intro htopic
  obtain ⟨b, hstate, hmem⟩ := h.current hwaits
  have hpos := topicCount_pos (BufferRun.mem_held_of_waiting hmem) htopic
  have hbooks := (h.sound b (h.valid.state b hstate)).books.topics topic
  rw [if_neg (by omega)] at hbooks
  rw [show (replay.view size last b).buffer = replay.buffer b from rfl, hnone b hstate] at hbooks
  cases hbooks

end Replay

/-! ## Rounds of a pass and the views -/

namespace BufferRun

variable {r : BufferRun} {t : Nat} {task : ReplayTask}

/-- What waits while a task has the lock, or no task has it. -/
theorem Sound.waiting_eq (h : r.Sound) (htask : r.tasks[t]? = some task)
    (hlock : r.buffer.lock = none ∨ r.buffer.lock = some t) :
    r.waiting = task.phase.waits ++ r.buffer.publishes := by
  unfold waiting
  rw [TaskList.flatMap_only htask]
  intro i other hi hne
  have hempty := h.others_empty hlock i other hi hne
  have hsub := other.phase.waits_sublist
  rw [hempty] at hsub
  exact List.sublist_nil.mp hsub

end BufferRun

namespace Replay

variable {replay : Replay} {size last t : Nat} {task : ReplayTask} {received : Received}

/-- A task inside `_deliver_pending` has the lock of its buffer. -/
theorem Views.holder (h : Views replay size last) (htask : replay.tasks[t]? = some task)
    (hinside : task.phase.inside = true) : (replay.buffer task.buffer).lock = some t := by
  have hb := h.valid.tasks task (List.mem_of_getElem? htask)
  exact ((h.sound _ hb).holder t task (getElem?_view htask rfl)).mp hinside

/-- A message that waits in the buffer of a task with the lock. -/
theorem Views.waits_of_mem (h : Views replay size last) (htask : replay.tasks[t]? = some task)
    (hlock : (replay.buffer task.buffer).lock = none ∨
      (replay.buffer task.buffer).lock = some t)
    (hmem : received ∈ task.phase.waits ++ (replay.buffer task.buffer).publishes) :
    replay.Waits received := by
  have hb := h.valid.tasks task (List.mem_of_getElem? htask)
  refine (waits_iff size last).mpr ⟨task.buffer, hb, ?_⟩
  rw [(h.sound _ hb).waiting_eq (getElem?_view htask rfl) hlock]
  exact hmem

/-- A task goes on and nothing more waits. -/
theorem Views.waits_update_of_subset (h : Views replay size last)
    (htask : replay.tasks[t]? = some task)
    (hlock : (replay.buffer task.buffer).lock = none ∨
      (replay.buffer task.buffer).lock = some t) {f : ReplayBuffer → ReplayBuffer}
    {phase : ReplayPhase}
    (hsub : ∀ x ∈ phase.waits ++ (f (replay.buffer task.buffer)).publishes,
      x ∈ task.phase.waits ++ (replay.buffer task.buffer).publishes)
    (hwaits : ((replay.modifyBuffer task.buffer f).setPhase t phase).Waits received) :
    replay.Waits received := by
  rcases h.waits_update htask hlock hwaits with hmem | ⟨b, hb, -, hmem⟩
  · exact h.waits_of_mem htask hlock (hsub received hmem)
  · exact (waits_iff size last).mpr ⟨b, hb, hmem⟩

theorem modifyBuffer_id (replay : Replay) (b : Nat) :
    replay.modifyBuffer b (fun buffer => buffer) = replay := by
  unfold modifyBuffer
  rw [show (fun buffer : ReplayBuffer => buffer) = id from rfl, List.modify_id]

/-- A task moves its messages from one list to another. -/
theorem Views.setPhase (h : Views replay size last) (htask : replay.tasks[t]? = some task)
    (hinside : task.phase.inside = true) {phase : ReplayPhase} (hphase : phase.inside = true)
    (hinHand : phase.inHand = task.phase.inHand) :
    Views (replay.setPhase t phase) size last := by
  have hb := h.valid.tasks task (List.mem_of_getElem? htask)
  have hlock := h.holder htask hinside
  have hview : (replay.view size last task.buffer).tasks[t]? = some task := getElem?_view htask rfl
  have hheld : (replay.view size last task.buffer).held = [] →
      ((replay.view size last task.buffer).update t (replay.buffer task.buffer) phase).held =
        [] := by
    intro hempty
    have hold := (h.sound _ hb).held_eq hview (.inr hlock)
    rw [(h.sound _ hb).held_update hview (.inr hlock), hinHand]
    exact hold.symm.trans hempty
  have hmodify := h.update (f := fun buffer => buffer) htask
    ((h.sound _ hb).advance hview hlock hphase hinHand) hheld
  rwa [modifyBuffer_id] at hmodify

theorem Views.waits_setPhase (h : Views replay size last) (htask : replay.tasks[t]? = some task)
    (hinside : task.phase.inside = true) {phase : ReplayPhase}
    (hsub : ∀ x ∈ phase.waits, x ∈ task.phase.waits)
    (hwaits : (replay.setPhase t phase).Waits received) : replay.Waits received := by
  rw [← modifyBuffer_id (replay.setPhase t phase) task.buffer] at hwaits
  refine h.waits_update_of_subset (f := fun buffer => buffer) htask (.inr (h.holder htask hinside))
    ?_ hwaits
  intro x hx
  rcases List.mem_append.mp hx with hphase | hpublishes
  · exact List.mem_append_left _ (hsub x hphase)
  · exact List.mem_append_right _ hpublishes

/-- A task takes over the messages of its buffer. -/
theorem Views.takeOver (h : Views replay size last) (htask : replay.tasks[t]? = some task)
    {unmatched : List Received} (hphase : task.phase = .looping unmatched []) :
    Views ((replay.modifyBuffer task.buffer fun buffer => { buffer with publishes := [] }).setPhase
      t (.looping unmatched (replay.buffer task.buffer).publishes)) size last := by
  have hb := h.valid.tasks task (List.mem_of_getElem? htask)
  have hlock := h.holder htask (by rw [hphase]; rfl)
  have hview : (replay.view size last task.buffer).tasks[t]? = some task := getElem?_view htask rfl
  have hheld := (h.sound _ hb).held_eq hview (.inr hlock)
  rw [hphase] at hheld
  have hsame : (replay.view size last task.buffer).held =
      (unmatched ++ (replay.buffer task.buffer).publishes) ++ [] := by
    rw [hheld]
    simp [ReplayPhase.inHand, view]
  refine h.update htask ?_ ?_
  · have hbooks := (h.sound _ hb).books
    rw [hsame] at hbooks
    refine (h.sound _ hb).update hview (.inr hlock) hlock (hbooks.congr rfl rfl rfl) ?_
    rw [hsame]
    exact List.Sublist.refl _
  · intro hempty
    rw [(h.sound _ hb).held_update hview (.inr hlock)]
    exact hsame.symm.trans hempty

/-- A waiting task takes the free lock. -/
theorem Views.acquireLock (h : Views replay size last) (htask : replay.tasks[t]? = some task)
    (hphase : task.phase = .waiting) (hfree : (replay.buffer task.buffer).lock = none) :
    Views ((replay.modifyBuffer task.buffer fun buffer => { buffer with lock := some t }).setPhase t
      (.looping [] [])) size last := by
  have hb := h.valid.tasks task (List.mem_of_getElem? htask)
  have hview : (replay.view size last task.buffer).tasks[t]? = some task := getElem?_view htask rfl
  have hheld := (h.sound _ hb).held_eq hview (.inl hfree)
  rw [hphase] at hheld
  refine h.update htask ?_ ?_
  · have hbooks := (h.sound _ hb).books
    rw [hheld] at hbooks
    refine (h.sound _ hb).update hview (.inl hfree) rfl (hbooks.congr rfl rfl rfl) ?_
    rw [hheld]
    exact List.Sublist.refl _
  · intro hempty
    rw [(h.sound _ hb).held_update hview (.inl hfree)]
    exact hheld.symm.trans hempty

/-- A task that waits for the lock ends. -/
theorem Views.stop (h : Views replay size last) (htask : replay.tasks[t]? = some task)
    (hphase : task.phase = .waiting) : Views (replay.setPhase t .finished) size last := by
  have hb := h.valid.tasks task (List.mem_of_getElem? htask)
  have hview : (replay.view size last task.buffer).tasks[t]? = some task := getElem?_view htask rfl
  have hinHand : ReplayPhase.finished.inHand = task.phase.inHand := by rw [hphase]; rfl
  have hsound : ((replay.view size last task.buffer).update t (replay.buffer task.buffer)
      .finished).Sound :=
    (h.sound _ hb).modifyTask hview (by rw [hphase]; rfl) hinHand
  have hmodify := h.update (f := fun buffer => buffer) htask hsound fun hempty => by
    unfold BufferRun.held BufferRun.update
    dsimp only
    rw [TaskList.flatMap_modify_same hview hinHand]
    exact hempty
  rwa [modifyBuffer_id] at hmodify

theorem Views.waits_stop (h : Views replay size last) (htask : replay.tasks[t]? = some task)
    (hphase : task.phase = .waiting) (hwaits : (replay.setPhase t .finished).Waits received) :
    replay.Waits received := by
  have hb := h.valid.tasks task (List.mem_of_getElem? htask)
  have hview : (replay.view 0 0 task.buffer).tasks[t]? = some task := getElem?_view htask rfl
  have hnothing : ReplayPhase.finished.waits = task.phase.waits := by rw [hphase]; rfl
  rw [← modifyBuffer_id (replay.setPhase t .finished) task.buffer] at hwaits
  obtain ⟨b, hlt, hmem⟩ := hwaits
  rw [show ((replay.setPhase t .finished).modifyBuffer task.buffer _).buffers.length =
    replay.buffers.length from List.length_modify ..] at hlt
  refine ⟨b, hlt, ?_⟩
  by_cases heq : b = task.buffer
  · have hmem' : received ∈ ((replay.view 0 0 task.buffer).update t (replay.buffer task.buffer)
        .finished).waiting := by
      rw [← view_update hb htask fun buffer => buffer]
      rw [heq] at hmem
      exact hmem
    unfold BufferRun.waiting BufferRun.update at hmem'
    dsimp only at hmem'
    rw [TaskList.flatMap_modify_same hview hnothing] at hmem'
    rw [heq]
    exact hmem'
  · rw [← view_update_ne htask heq (fun buffer => buffer) .finished]
    exact hmem

theorem cancelExpiration_state (replay : Replay) (b : Nat) :
    (replay.cancelExpiration b).state = replay.state := by
  unfold cancelExpiration
  dsimp only
  split <;> rfl

/-- The `finally` of `_deliver_pending`: every message is back in the buffer. -/
theorem Views.release (h : Views replay size last) (htask : replay.tasks[t]? = some task)
    (hinside : task.phase.inside = true) {unmatched pending : List Received}
    (hinHand : task.phase.inHand = unmatched ++ pending) :
    Views (replay.release task.buffer t unmatched pending) size last := by
  have hb := h.valid.tasks task (List.mem_of_getElem? htask)
  have hlock := h.holder htask hinside
  have hview : (replay.view size last task.buffer).tasks[t]? = some task := getElem?_view htask rfl
  have hheld := (h.sound _ hb).held_eq hview (.inr hlock)
  refine h.update htask ((h.sound _ hb).leave hview hlock hinHand) ?_
  intro hempty
  rw [(h.sound _ hb).held_update hview (.inr hlock)]
  rw [hinHand] at hheld
  exact hheld.symm.trans hempty

theorem release_emptied (replay : Replay) (b t : Nat) (unmatched pending : List Received) :
    (replay.release b t unmatched pending).modifyBuffer b ReplayBuffer.emptied =
      (replay.modifyBuffer b fun buffer => { buffer.emptied with lock := none }).setPhase t
        .finished := by
  unfold release modifyBuffer setPhase
  simp only [List.modify_modify_eq]
  rfl

/-- The end of `expire`: the buffer is emptied. -/
theorem Views.expired (h : Views replay size last) (htask : replay.tasks[t]? = some task)
    {unmatched : List Received} (hphase : task.phase = .looping unmatched []) :
    Views ((replay.modifyBuffer task.buffer fun buffer =>
        { buffer.emptied with lock := none }).setPhase t .finished) size last ∧
      (((replay.modifyBuffer task.buffer fun buffer =>
        { buffer.emptied with lock := none }).setPhase t .finished).view size last
          task.buffer).held = [] := by
  have hb := h.valid.tasks task (List.mem_of_getElem? htask)
  have hlock := h.holder htask (by rw [hphase]; rfl)
  have hview : (replay.view size last task.buffer).tasks[t]? = some task := getElem?_view htask rfl
  have hheld := (h.sound _ hb).held_update hview (.inr hlock)
    { (replay.buffer task.buffer).emptied with lock := none } .finished
  constructor
  · refine h.update htask ?_ fun _ => hheld
    refine (h.sound _ hb).update hview (.inr hlock) rfl ?_ (List.nil_sublist _)
    exact (Books.emptied (replay.buffer task.buffer) size).congr rfl rfl rfl
  · rw [view_update hb htask]
    exact hheld

/-- A delivered message is taken out of the books. -/
theorem Views.discard (h : Views replay size last) (htask : replay.tasks[t]? = some task)
    {unmatched pending : List Received} {current : Received}
    (hphase : task.phase = .delivering unmatched pending current) :
    ((replay.buffer task.buffer).discard current).2 = false ∧
      Views ((replay.modifyBuffer task.buffer fun _ =>
        ((replay.buffer task.buffer).discard current).1).setPhase t
          (.looping unmatched pending)) size last := by
  have hb := h.valid.tasks task (List.mem_of_getElem? htask)
  have hlock := h.holder htask (by rw [hphase]; rfl)
  have hview : (replay.view size last task.buffer).tasks[t]? = some task := getElem?_view htask rfl
  have hinHand : task.phase.inHand = unmatched ++ current :: pending := by
    rw [hphase]
    rfl
  have hheld := (h.sound _ hb).held_eq hview (.inr hlock)
  rw [hinHand] at hheld
  have hmem : current ∈ (replay.view size last task.buffer).held := by
    rw [hheld]
    simp
  have hok : ((replay.buffer task.buffer).discard current).2 = false :=
    (h.sound _ hb).books.discard_ok hmem
  have hsettle := (h.sound _ hb).settleDelivery hview hlock hinHand .returned
  unfold BufferRun.settleDelivery at hsettle
  dsimp only at hsettle
  rw [show (replay.view size last task.buffer).buffer = replay.buffer task.buffer from rfl, hok,
    if_neg Bool.false_ne_true] at hsettle
  refine ⟨hok, h.update htask hsettle fun hempty => ?_⟩
  rw [hempty] at hmem
  exact absurd hmem List.not_mem_nil

/-- Two messages wait in one buffer, the one the flow has. -/
theorem Views.waits_update_inside (h : Views replay size last)
    (htask : replay.tasks[t]? = some task) (hinside : task.phase.inside = true)
    {phase : ReplayPhase} {x : Received} (hreceived : received ∈ task.phase.waits)
    (hwaits : (replay.setPhase t phase).Waits x) :
    x ∈ phase.waits ++ (replay.buffer task.buffer).publishes := by
  have hb := h.valid.tasks task (List.mem_of_getElem? htask)
  have hlock := h.holder htask hinside
  rw [← modifyBuffer_id (replay.setPhase t phase) task.buffer] at hwaits
  rcases h.waits_update (f := fun buffer => buffer) htask (.inr hlock) hwaits with
    hmem | ⟨b, hlt, hne, hmem⟩
  · exact hmem
  · -- a message in another buffer: one of the two buffers was left
    exfalso
    have hown : received ∈ (replay.view size last task.buffer).held := by
      apply BufferRun.mem_held_of_waiting
      rw [(h.sound _ hb).waiting_eq (getElem?_view htask rfl) (.inr hlock)]
      exact List.mem_append_left _ hreceived
    have hother := BufferRun.mem_held_of_waiting hmem
    by_cases hstate : replay.state = .buffered b
    · have hleft : replay.state ≠ .buffered task.buffer := by
        rw [hstate]
        exact fun heq => hne (ReplayState.buffered.inj heq)
      rw [h.left _ hb hleft] at hown
      exact List.not_mem_nil hown
    · rw [h.left b hlt hstate] at hother
      exact List.not_mem_nil hother


/-- The end of `drain`. -/
theorem Views.finishDrain {s : InboundPublishFlow} (h : Views s.replay size last)
    (htask : s.replay.tasks[t]? = some task) {unmatched : List Received}
    (hphase : task.phase = .looping unmatched []) :
    Views (s.finishDrain t task.buffer unmatched).replay size last := by
  have hb := h.valid.tasks task (List.mem_of_getElem? htask)
  have hreleased : Views (s.replay.release task.buffer t unmatched []) size last :=
    h.release htask (by rw [hphase]; rfl) (by rw [hphase]; rfl)
  unfold InboundPublishFlow.finishDrain
  simp only
  split
  · exact hreleased
  · rename_i hcount
    have hempty : ((s.replay.release task.buffer t unmatched []).view size last
        task.buffer).held = [] := by
      have hlength : task.buffer <
          (s.replay.release task.buffer t unmatched []).buffers.length := by
        rw [show (s.replay.release task.buffer t unmatched []).buffers.length =
          s.replay.buffers.length from List.length_modify ..]
        exact hb
      have hbooks := (hreleased.sound _ hlength).books.count
      change ((s.replay.release task.buffer t unmatched []).buffer task.buffer).messageCount = _
        at hbooks
      have hbuffer : (s.replay.release task.buffer t unmatched []).buffer task.buffer =
          { s.replay.buffer task.buffer with
            publishes := unmatched ++ [] ++ (s.replay.buffer task.buffer).publishes
            lock := none } :=
        Replay.buffer_modifyBuffer hb _
      rw [hbuffer] at hbooks
      change (s.replay.buffer task.buffer).messageCount = _ at hbooks
      rw [Decidable.not_not.mp hcount] at hbooks
      exact List.length_eq_zero_iff.mp (Int.ofNat_eq_zero.mp hbooks.symm)
    have hsame := Replay.SameViews.cancelExpiration
      (s.replay.release task.buffer t unmatched []) task.buffer
    have hcancelled := hreleased.of_same hsame (Replay.cancelExpiration_state _ _)
      (hreleased.valid.cancelExpiration _) (Nat.le_refl _)
    refine hcancelled.advanceState (fun _ heq => by cases heq) ?_
    rw [(hsame.view size _ _ task.buffer).held]
    exact hempty

/-- The end of `expire`: what is still held is dropped. -/
theorem Views.finishExpire {s : InboundPublishFlow} (h : Views s.replay size last)
    (htask : s.replay.tasks[t]? = some task) {unmatched : List Received}
    (hphase : task.phase = .looping unmatched []) :
    Views (s.finishExpire t task.buffer unmatched).replay size last := by
  obtain ⟨hviews, hempty⟩ := h.expired htask hphase
  unfold InboundPublishFlow.finishExpire
  simp only
  rw [Replay.release_emptied]
  generalize hnext : (if (s.replay.buffer task.buffer).messageCount ≠ 0 then
    ReplayState.noSession else .idle) = after
  have hafter : ∀ b, after ≠ .buffered b := by
    intro b heq
    rw [← hnext] at heq
    split at heq <;> cases heq
  have hadvanced := hviews.advanceState hafter hempty
  exact hadvanced.of_same (Replay.SameViews.endExpiration _ task.buffer t) rfl
    (hadvanced.valid.endExpiration _ _) (Nat.le_refl _)

end Replay

end Zmqtt
