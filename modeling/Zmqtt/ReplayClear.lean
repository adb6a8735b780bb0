import Zmqtt.ReplayBooks
import Zmqtt.Tally

/-!
# A replay buffer cleared during a drain

When the connection is lost, `clear` empties the containers and the counters of the
buffer without its delivery lock.  A task that waits for the lock finds an empty
buffer and ends.  A task inside a delivery goes on with the messages it has taken
over: a drain discards its message from counters that no longer have it, and an
expiry, which `clear` cancels, puts all its messages back.

So clearing is safe exactly when no task is inside a delivery.
-/

namespace Zmqtt

namespace BufferRun

/-- `clear`.  `expire` has one caller, the expiration task, which is cancelled. -/
def clear (r : BufferRun) : BufferRun :=
  { r with
    buffer := { r.buffer.emptied with expiration := .absent }
    tasks := r.tasks.map fun task =>
      { task with cancelRequested := task.cancelRequested || task.expires } }

/-- A step of the tasks that were there, without failures: nothing arrives and no new
drain begins, since the flow has left the buffer. -/
def Undisturbed : Action → Prop
  | .accept .. => False
  | .drain => False
  | .expire => False
  | .acquireLock _ => True
  | .round _ delivery => delivery ≠ some .raised
  | .resume _ delivery => delivery ≠ .raised
  | .cancel _ => False

/-- The step runs into the `KeyError` of `_discard`. -/
def raisesKeyError (r : BufferRun) : Action → Bool
  | .round t (some .returned) =>
      r.tasks[t]?.elim false fun task =>
        match task.phase with
        | .looping _ (received :: _) => (r.buffer.discard received).2
        | _ => false
  | .resume t .returned =>
      r.tasks[t]?.elim false fun task =>
        match task.phase with
        | .delivering _ _ current =>
            !task.cancelRequested && (r.buffer.discard current).2
        | _ => false
  | _ => false

/-- The buffer holds nothing and says so. -/
structure Vacant (r : BufferRun) : Prop where
  held : r.held = []
  count : r.buffer.messageCount = 0
  topics : r.buffer.topics = []
  packetIds : r.buffer.packetIds = ∅

/-- `clear` at `r` is safe: the tasks go on without a `KeyError`, whenever none of them
is inside `_deliver_pending` the buffer is vacant, and after finitely many steps all
have finished. -/
structure ClearSafe (r : BufferRun) : Prop where
  noKeyError : ∀ actions r' action, (∀ a ∈ actions, Undisturbed a) →
    Transition.run step r.clear actions = some r' → Undisturbed action →
    r'.raisesKeyError action = false
  vacant : ∀ actions r', (∀ a ∈ actions, Undisturbed a) →
    Transition.run step r.clear actions = some r' →
    (∀ task ∈ r'.tasks, task.phase.inside = false) → r'.Vacant
  progress : ∀ actions r', (∀ a ∈ actions, Undisturbed a) →
    Transition.run step r.clear actions = some r' →
    (∃ task ∈ r'.tasks, task.phase ≠ .finished) →
    ∃ action next, Undisturbed action ∧ r'.step action = some next
  finite : ∀ actions r', (∀ a ∈ actions, Undisturbed a) →
    Transition.run step r.clear actions = some r' → actions.length ≤ 2 * r.tasks.length

/-! ## A buffer nobody is delivering from -/

/-- The steps a task has before it. -/
def stepsLeft (task : ReplayTask) : Nat :=
  match task.phase with
  | .waiting => 2
  | .looping _ _ => 1
  | .delivering _ _ _ => 0
  | .finished => 0

/-- The buffer is empty and no task has a message. -/
structure Deserted (r : BufferRun) : Prop where
  publishes : r.buffer.publishes = []
  count : r.buffer.messageCount = 0
  topics : r.buffer.topics = []
  packetIds : r.buffer.packetIds = ∅
  phases : ∀ t task, r.tasks[t]? = some task →
    (task.phase = .waiting ∨ task.phase = .looping [] [] ∨ task.phase = .finished) ∧
      (task.phase = .looping [] [] ↔ r.buffer.lock = some t)
  isTask : ∀ t, r.buffer.lock = some t → t < r.tasks.length

variable {r r' : BufferRun} {t : Nat} {task : ReplayTask}

namespace Deserted

theorem inHand (h : r.Deserted) (hmem : task ∈ r.tasks) : task.phase.inHand = [] := by
  obtain ⟨t, ht⟩ := List.getElem?_of_mem hmem
  obtain ⟨hphase | hphase | hphase, -⟩ := h.phases t task ht <;> rw [hphase] <;> rfl

theorem vacant (h : r.Deserted) : r.Vacant where
  held := by
    have hnone : (r.tasks.flatMap fun task => task.phase.inHand) = [] :=
      List.flatMap_eq_nil_iff.mpr fun task hmem => h.inHand hmem
    rw [held, hnone, h.publishes]
    rfl
  count := h.count
  topics := h.topics
  packetIds := h.packetIds

/-- A task goes on: it takes the free lock, or it ends and leaves the lock free. -/
theorem update (h : r.Deserted) (htask : r.tasks[t]? = some task)
    (hlock : r.buffer.lock = none ∨ r.buffer.lock = some t) {buffer : ReplayBuffer}
    {phase : ReplayPhase} (hbuffer : { buffer with lock := r.buffer.lock } = r.buffer)
    (hphase : phase = .looping [] [] ∧ buffer.lock = some t ∨
      phase = .finished ∧ buffer.lock = none) :
    (r.update t buffer phase).Deserted := by
  obtain ⟨ht, -⟩ := List.getElem?_eq_some_iff.mp htask
  have hfields : buffer.publishes = r.buffer.publishes ∧
      buffer.messageCount = r.buffer.messageCount ∧ buffer.topics = r.buffer.topics ∧
      buffer.packetIds = r.buffer.packetIds := by
    rw [← hbuffer]
    exact ⟨rfl, rfl, rfl, rfl⟩
  obtain ⟨hpublishes, hcount, htopics, hids⟩ := hfields
  refine ⟨hpublishes.trans h.publishes, hcount.trans h.count, htopics.trans h.topics,
    hids.trans h.packetIds, ?_, ?_⟩
  · intro i other hi
    simp only [BufferRun.update] at hi ⊢
    obtain ⟨rfl, rfl⟩ | ⟨heq, hi⟩ := (TaskList.getElem?_modify_iff htask).mp hi
    · rcases hphase with ⟨hphase, hown⟩ | ⟨hphase, hfree⟩
      · simp [hphase, hown]
      · simp [hphase, hfree]
    · obtain ⟨hcases, hholder⟩ := h.phases i other hi
      refine ⟨hcases, ?_⟩
      have hnot : other.phase ≠ .looping [] [] := by
        intro hlooping
        have hi' := hholder.mp hlooping
        rcases hlock with hlock | hlock
        · rw [hlock] at hi'
          cases hi'
        · rw [hlock] at hi'
          exact heq (Option.some.inj hi').symm
      rcases hphase with ⟨-, hown⟩ | ⟨-, hfree⟩
      · simp [hnot, hown, Ne.symm heq]
      · simp [hnot, hfree]
  · intro i hi
    simp only [BufferRun.update, List.length_modify] at hi ⊢
    rcases hphase with ⟨-, hown⟩ | ⟨-, hfree⟩
    · rw [hown] at hi
      cases hi
      exact ht
    · rw [hfree] at hi
      cases hi

/-- A cancelled task ends its wait; whoever has the lock keeps it. -/
theorem endWait (h : r.Deserted) (htask : r.tasks[t]? = some task)
    (hwaiting : task.phase = .waiting) : (r.update t r.buffer .finished).Deserted := by
  refine ⟨h.publishes, h.count, h.topics, h.packetIds, ?_, ?_⟩
  · intro i other hi
    simp only [BufferRun.update] at hi ⊢
    obtain ⟨rfl, rfl⟩ | ⟨-, hi⟩ := (TaskList.getElem?_modify_iff htask).mp hi
    · have hholder := (h.phases i task htask).2
      simp only [hwaiting, reduceCtorEq, false_iff] at hholder
      simp [hholder]
    · exact h.phases i other hi
  · intro i hi
    simp only [BufferRun.update, List.length_modify]
    exact h.isTask i hi

/-- An undisturbed step brings one task nearer to its end. -/
theorem step (h : r.Deserted) {action : Action} (hquiet : Undisturbed action)
    (hstep : r.step action = some r') :
    r'.Deserted ∧ Tally.tally stepsLeft r'.tasks < Tally.tally stepsLeft r.tasks := by
  cases action with
  | accept | drain | expire | cancel => exact hquiet.elim
  | acquireLock t =>
      obtain ⟨task, htask, hacquire⟩ := Option.bind_eq_some_iff.mp hstep
      unfold BufferRun.acquireLock at hacquire
      split at hacquire
      · rename_i hfree
        obtain ⟨hwaiting, -, hlock⟩ := hfree
        cases hacquire
        refine ⟨h.update htask (.inl hlock) rfl (.inl ⟨rfl, rfl⟩), ?_⟩
        have htally := Tally.tally_modify stepsLeft htask
          fun task => { task with phase := .looping [] [] }
        simp only [stepsLeft, hwaiting] at htally
        simp only [BufferRun.update]
        omega
      · cases hacquire
  | round t delivery =>
      obtain ⟨task, htask, hround⟩ := Option.bind_eq_some_iff.mp hstep
      obtain ⟨hphase | hphase | hphase, hholder⟩ := h.phases t task htask
      · simp [BufferRun.round, hphase] at hround
      · have hlock := hholder.mp hphase
        have htally := Tally.tally_modify stepsLeft htask
          fun task => { task with phase := .finished }
        simp only [stepsLeft, hphase] at htally
        simp only [BufferRun.round, hphase, h.publishes, if_true] at hround
        split at hround
        · cases hround
          refine ⟨h.update htask (.inr hlock) ?_ (.inr ⟨rfl, rfl⟩), ?_⟩
          · simp [ReplayBuffer.emptied, ← h.publishes, ← h.count, ← h.topics, ← h.packetIds]
          · simp only [BufferRun.update]
            omega
        · cases hround
          refine ⟨h.update htask (.inr hlock) ?_ (.inr ⟨rfl, rfl⟩), ?_⟩
          · simp
          · simp only [BufferRun.leave, BufferRun.update]
            omega
      · simp [BufferRun.round, hphase] at hround
  | resume t delivery =>
      obtain ⟨task, htask, hresume⟩ := Option.bind_eq_some_iff.mp hstep
      obtain ⟨hphase | hphase | hphase, -⟩ := h.phases t task htask
      · simp only [BufferRun.resume, hphase] at hresume
        split at hresume
        · cases hresume
          refine ⟨h.endWait htask hphase, ?_⟩
          have htally := Tally.tally_modify stepsLeft htask
            fun task => { task with phase := .finished }
          simp only [stepsLeft, hphase] at htally
          simp only [BufferRun.update]
          omega
        · cases hresume
      · simp [BufferRun.resume, hphase] at hresume
      · simp [BufferRun.resume, hphase] at hresume

/-- While a task has not finished, one can go on. -/
theorem progress (h : r.Deserted) (hopen : ∃ task ∈ r.tasks, task.phase ≠ .finished) :
    ∃ action next, Undisturbed action ∧ r.step action = some next := by
  cases hlock : r.buffer.lock with
  | some t =>
      -- the holder of the lock ends its loop
      have ht := h.isTask t hlock
      have htask := List.getElem?_eq_getElem ht
      have hphase := (h.phases t _ htask).2.mpr hlock
      refine ⟨.round t none, ?_⟩
      simp only [BufferRun.step, htask, Option.bind_some, BufferRun.round, hphase, h.publishes,
        if_true]
      split
      · exact ⟨_, by simp [Undisturbed], rfl⟩
      · exact ⟨_, by simp [Undisturbed], rfl⟩
  | none =>
      obtain ⟨task, hmem, hne⟩ := hopen
      obtain ⟨t, htask⟩ := List.getElem?_of_mem hmem
      obtain ⟨hphase | hphase | hphase, hholder⟩ := h.phases t task htask
      · by_cases hcancel : task.cancelRequested = true
        · refine ⟨.resume t .returned, r.update t r.buffer .finished, by simp [Undisturbed], ?_⟩
          simp only [BufferRun.step, htask, Option.bind_some, BufferRun.resume, hphase, hcancel,
            if_true]
        · refine ⟨.acquireLock t, r.update t { r.buffer with lock := some t } (.looping [] []),
            trivial, ?_⟩
          simp only [BufferRun.step, htask, Option.bind_some, BufferRun.acquireLock]
          rw [if_pos ⟨hphase, by simpa using hcancel, hlock⟩]
      · rw [hholder.mp hphase] at hlock
        cases hlock
      · exact absurd hphase hne

theorem noKeyError (h : r.Deserted) (action : Action) : r.raisesKeyError action = false := by
  cases action with
  | accept | drain | expire | acquireLock | cancel => rfl
  | round t delivery =>
      unfold raisesKeyError
      split
      · cases htask : r.tasks[t]? with
        | none => simp_all
        | some task =>
            obtain ⟨hphase | hphase | hphase, -⟩ := h.phases t task htask <;> simp_all
      · simp_all
      · rfl
  | resume t delivery =>
      unfold raisesKeyError
      split
      · simp_all
      · cases htask : r.tasks[t]? with
        | none => simp_all
        | some task =>
            obtain ⟨hphase | hphase | hphase, -⟩ := h.phases t task htask <;> simp_all
      · rfl

end Deserted

/-- A buffer that is cleared while no task is inside `_deliver_pending` is deserted. -/
theorem Sound.clear_deserted (h : r.Sound)
    (hidle : ∀ task ∈ r.tasks, task.phase.inside = false) : r.clear.Deserted := by
  have hlock : r.buffer.lock = none := by
    cases hlock : r.buffer.lock with
    | none => rfl
    | some t =>
        have ht := h.isTask t hlock
        have hinside := (h.holder t _ (List.getElem?_eq_getElem ht)).mpr hlock
        rw [hidle _ (List.getElem_mem ht)] at hinside
        cases hinside
  refine ⟨rfl, rfl, rfl, rfl, ?_, ?_⟩
  · intro t task htask
    simp only [clear, List.getElem?_map, Option.map_eq_some_iff] at htask
    obtain ⟨before, hbefore, rfl⟩ := htask
    have houtside := hidle before (List.mem_of_getElem? hbefore)
    have hfree : r.clear.buffer.lock = none := hlock
    rw [hfree]
    cases hphase : before.phase with
    | waiting => simp
    | finished => simp
    | looping unmatched pending =>
        rw [hphase] at houtside
        cases houtside
    | delivering unmatched pending current =>
        rw [hphase] at houtside
        cases houtside
  · intro t ht
    have hfree : r.clear.buffer.lock = none := hlock
    rw [hfree] at ht
    cases ht

/-- Every undisturbed run after such a `clear` keeps the buffer deserted, and is as
long at most as the steps the tasks had before them. -/
theorem Deserted.run {actions : List Action} :
    ∀ {r : BufferRun}, r.Deserted → (∀ a ∈ actions, Undisturbed a) →
      Transition.run BufferRun.step r actions = some r' →
      r'.Deserted ∧ actions.length + Tally.tally stepsLeft r'.tasks ≤ Tally.tally stepsLeft r.tasks := by
  induction actions with
  | nil =>
      intro r h _ hrun
      cases hrun
      exact ⟨h, by simp⟩
  | cons action actions ih =>
      intro r h hquiet hrun
      obtain ⟨next, hnext, hrest⟩ := Option.bind_eq_some_iff.mp hrun
      obtain ⟨hdeserted, hless⟩ := h.step (hquiet action List.mem_cons_self) hnext
      obtain ⟨hlast, hlength⟩ := ih hdeserted
        (fun a ha => hquiet a (List.mem_cons_of_mem action ha)) hrest
      refine ⟨hlast, ?_⟩
      rw [List.length_cons]
      omega

theorem tally_stepsLeft_le (tasks : List ReplayTask) :
    Tally.tally stepsLeft tasks ≤ 2 * tasks.length := by
  induction tasks with
  | nil => exact Nat.le_refl _
  | cons task tasks ih =>
      have htask : stepsLeft task ≤ 2 := by
        unfold stepsLeft
        split <;> omega
      rw [Tally.tally_cons, List.length_cons]
      omega

/-! ## A buffer somebody is delivering from -/

/-- A task inside a delivery makes `clear` unsafe: a drain runs into the `KeyError`,
and one that is cancelled puts its messages back. -/
theorem Sound.not_clearSafe (h : r.Sound) (htask : r.tasks[t]? = some task)
    {unmatched pending : List Received} {current : Received}
    (hphase : task.phase = .delivering unmatched pending current) : ¬ r.ClearSafe := by
  intro hsafe
  have hcleared : r.clear.tasks[t]? =
      some { task with cancelRequested := task.cancelRequested || task.expires } := by
    simp [clear, htask]
  by_cases hcancel : (task.cancelRequested || task.expires) = true
  · -- the messages of the task are put back into the cleared buffer
    have hlock := (h.holder t task htask).mp (by rw [hphase]; rfl)
    have hstep : r.clear.step (.resume t .returned) =
        some (r.clear.leave t r.clear.buffer (unmatched ++ [current]) pending) := by
      simp only [BufferRun.step, hcleared, Option.bind_some, BufferRun.resume, hphase, hcancel,
        if_true, BufferRun.settleDelivery]
    have hrun : Transition.run BufferRun.step r.clear [.resume t .returned] =
        some (r.clear.leave t r.clear.buffer (unmatched ++ [current]) pending) := by
      simp only [Transition.run, hstep, Option.bind_some]
    have hidle : ∀ other ∈ (r.clear.leave t r.clear.buffer (unmatched ++ [current]) pending).tasks,
        other.phase.inside = false := by
      intro other hother
      obtain ⟨i, hi⟩ := List.getElem?_of_mem hother
      simp only [BufferRun.leave, BufferRun.update] at hi
      obtain ⟨rfl, rfl⟩ | ⟨heq, hi⟩ := (TaskList.getElem?_modify_iff hcleared).mp hi
      · rfl
      · simp only [clear, List.getElem?_map, Option.map_eq_some_iff] at hi
        obtain ⟨before, hbefore, rfl⟩ := hi
        rw [Bool.eq_false_iff]
        intro hinside
        have hi' := (h.holder i before hbefore).mp hinside
        rw [hlock] at hi'
        exact heq (Option.some.inj hi').symm
    have hvacant := hsafe.vacant _ _ (by simp [Undisturbed]) hrun hidle
    have hheld := hvacant.held
    simp [held, BufferRun.leave, BufferRun.update] at hheld
  · have hkey := hsafe.noKeyError [] r.clear (.resume t .returned) (by simp) rfl
      (by simp [Undisturbed])
    have hdiscard : (r.clear.buffer.discard current).2 = true := rfl
    rw [Bool.not_eq_true] at hcancel
    simp only [raisesKeyError, hcleared, Option.elim_some, hphase, hcancel, hdiscard] at hkey
    cases hkey

/-- **Losing the connection during a drain.**  In every reachable state in which the
tasks are at suspension points, `clear` is safe exactly when none of them is inside a
delivery. -/
theorem clear_safe_iff (bufferSize : Nat) (actions : List Action) (r : BufferRun)
    (hrun : Transition.run BufferRun.step { bufferSize } actions = some r)
    (hsuspended : ∀ task ∈ r.tasks, ∀ unmatched pending, task.phase ≠ .looping unmatched pending) :
    r.ClearSafe ↔
      ∀ task ∈ r.tasks, ∀ unmatched pending current,
        task.phase ≠ .delivering unmatched pending current := by
  have h : r.Sound := Transition.invariant (fun _ _ _ h hstep => h.step hstep)
    (Sound.fresh bufferSize) hrun
  constructor
  · intro hsafe task hmem unmatched pending current hphase
    obtain ⟨t, htask⟩ := List.getElem?_of_mem hmem
    exact h.not_clearSafe htask hphase hsafe
  · intro hnone
    have hidle : ∀ task ∈ r.tasks, task.phase.inside = false := by
      intro task hmem
      cases hphase : task.phase with
      | waiting => rfl
      | finished => rfl
      | looping unmatched pending => exact absurd hphase (hsuspended task hmem _ _)
      | delivering unmatched pending current => exact absurd hphase (hnone task hmem _ _ _)
    have hdeserted := h.clear_deserted hidle
    refine ⟨?_, ?_, ?_, ?_⟩
    · intro actions r' action hquiet hrun' _
      exact (hdeserted.run hquiet hrun').1.noKeyError action
    · intro actions r' hquiet hrun' _
      exact (hdeserted.run hquiet hrun').1.vacant
    · intro actions r' hquiet hrun' hopen
      exact (hdeserted.run hquiet hrun').1.progress hopen
    · intro actions r' hquiet hrun'
      have hlength := (hdeserted.run hquiet hrun').2
      have hbound := tally_stepsLeft_le r.clear.tasks
      simp only [clear, List.length_map] at hbound hlength
      omega

/-- The connection is lost while a drain waits for the lock. -/
theorem clear_safe_while_waiting :
    ∃ r, Transition.run BufferRun.step { bufferSize := 2 }
        [.accept { seq := 1, publish := samplePublish .atLeastOnce 7 } false false, .drain] =
          some r ∧ r.ClearSafe := by
  refine ⟨_, rfl, ?_⟩
  refine (clear_safe_iff 2
    [.accept { seq := 1, publish := samplePublish .atLeastOnce 7 } false false, .drain] _ rfl
    ?_).mpr ?_
  · simp
  · simp

/-- The connection is lost while a drain writes the acknowledgement of the only
message: it runs into the `KeyError` and leaves the count at minus one. -/
theorem clear_during_delivery_raises :
    ∃ r after, Transition.run BufferRun.step { bufferSize := 2 }
        [.accept { seq := 1, publish := samplePublish .atLeastOnce 7 } false false, .drain,
          .acquireLock 0, .round 0 none, .round 0 (some .suspended)] = some r ∧
      r.clear.step (.resume 0 .returned) = some after ∧
      r.clear.raisesKeyError (.resume 0 .returned) = true ∧
      after.buffer.messageCount = -1 ∧ ¬ r.ClearSafe := by
  refine ⟨_, _, rfl, rfl, rfl, rfl, fun hsafe => ?_⟩
  have hkey := hsafe.noKeyError [] _ (.resume 0 .returned) (by simp) rfl (by simp [Undisturbed])
  cases hkey

end BufferRun

end Zmqtt
