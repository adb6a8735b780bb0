import Zmqtt.InboundFlow
import Zmqtt.TaskList
import Zmqtt.Transition

/-!
# The books of a replay buffer

One `_PersistentReplayBuffered` under any number of tasks: `accept` calls, and
`drain` and `expire` calls that compete for the delivery lock.  What a recipient is
and how a delivery ends is left to the environment, so this machine has every
interleaving of the buffer's own code and more.

The messages of a buffer stand in `_publishes`, in the lists of the task inside
`_deliver_pending`, and in its hands.  Read in the order `unmatched`, current,
`pending`, `_publishes` they are one list, `held`, and every route through the code
does one of three things to it: a message is added at the end, one is taken out, or
all are dropped.  Moving messages from one container to the next, also on the
exception path, leaves the list as it is.  `Books` says that the three counters
are those of a list.
-/

namespace Zmqtt

/-! ## Counters of a list of messages -/

theorem ReplayBuffer.discard_publishes (buffer : ReplayBuffer) (received : Received) :
    (buffer.discard received).1.publishes = buffer.publishes := by
  cases htopic : OrderedDict.get buffer.topics received.publish.topic <;>
    simp [ReplayBuffer.discard, htopic]

theorem ReplayBuffer.discard_lock (buffer : ReplayBuffer) (received : Received) :
    (buffer.discard received).1.lock = buffer.lock := by
  cases htopic : OrderedDict.get buffer.topics received.publish.topic <;>
    simp [ReplayBuffer.discard, htopic]

/-- The number of messages of a topic. -/
def topicCount (topic : Str) (held : List Received) : Nat :=
  held.countP fun received => received.publish.topic = topic

theorem topicCount_append (topic : Str) (held more : List Received) :
    topicCount topic (held ++ more) = topicCount topic held + topicCount topic more :=
  List.countP_append

theorem topicCount_cons (topic : Str) (received : Received) (held : List Received) :
    topicCount topic (received :: held) =
      topicCount topic held + if received.publish.topic = topic then 1 else 0 := by
  simp [topicCount, List.countP_cons]

@[simp] theorem topicCount_nil (topic : Str) : topicCount topic [] = 0 := rfl

theorem topicCount_pos {topic : Str} {held : List Received} {received : Received}
    (hmem : received ∈ held) (htopic : received.publish.topic = topic) :
    0 < topicCount topic held :=
  List.countP_pos_iff.mpr ⟨received, hmem, by simpa using htopic⟩

/-- The counters of a buffer are those of the messages in `held`. -/
structure Books (buffer : ReplayBuffer) (bufferSize : Nat) (held : List Received) : Prop where
  count : buffer.messageCount = held.length
  topics : ∀ topic, OrderedDict.get buffer.topics topic =
    if topicCount topic held = 0 then none else some (topicCount topic held : Int)
  keys : (OrderedDict.keys buffer.topics).Nodup
  packetIds : ∀ pid, pid ∈ buffer.packetIds ↔
    ∃ received ∈ held, received.publish.packetId = some pid
  distinct : held.Pairwise fun a b =>
    a.publish.packetId.isSome → a.publish.packetId ≠ b.publish.packetId
  bound : 0 < bufferSize → held.length ≤ bufferSize

namespace Books

variable {buffer buffer' : ReplayBuffer} {bufferSize : Nat} {held before after : List Received}
  {received : Received}

/-- The containers of the messages are not counters. -/
theorem congr (h : Books buffer bufferSize held) (hcount : buffer'.messageCount = buffer.messageCount)
    (htopics : buffer'.topics = buffer.topics) (hids : buffer'.packetIds = buffer.packetIds) :
    Books buffer' bufferSize held where
  count := by rw [hcount, h.count]
  topics := by rw [htopics]; exact h.topics
  keys := by rw [htopics]; exact h.keys
  packetIds := by rw [hids]; exact h.packetIds
  distinct := h.distinct
  bound := h.bound

theorem emptied (buffer : ReplayBuffer) (bufferSize : Nat) : Books buffer.emptied bufferSize [] where
  count := rfl
  topics := fun _ => rfl
  keys := .nil
  packetIds := fun pid => by simp [ReplayBuffer.emptied]
  distinct := .nil
  bound := fun _ => Nat.zero_le _

/-- `accept` holds one more message. -/
theorem append (h : Books buffer bufferSize held)
    (hfresh : ∀ pid, received.publish.packetId = some pid → pid ∉ buffer.packetIds)
    (hroom : ¬ (bufferSize ≠ 0 ∧ (bufferSize : Int) ≤ buffer.messageCount)) :
    Books (buffer.append received) bufferSize (held ++ [received]) where
  count := by
    simp only [ReplayBuffer.append, h.count, List.length_append, List.length_singleton]
    omega
  topics := by
    intro topic
    simp only [ReplayBuffer.append, OrderedDict.get_set, h.topics, topicCount_append,
      topicCount_cons, topicCount_nil, Nat.zero_add]
    by_cases htopic : received.publish.topic = topic
    · subst htopic
      rw [if_pos rfl, if_pos rfl, if_neg (Nat.succ_ne_zero _)]
      by_cases hnone : topicCount received.publish.topic held = 0
      · simp [hnone]
      · simp [hnone]
    · rw [if_neg htopic, if_neg htopic, Nat.add_zero]
  keys := OrderedDict.nodup_keys_set h.keys _ _
  packetIds := by
    intro pid
    cases hpid : received.publish.packetId with
    | none =>
        simp only [ReplayBuffer.append, hpid, Option.elim_none, h.packetIds]
        simp [or_and_right, exists_or, hpid]
    | some own =>
        simp only [ReplayBuffer.append, hpid, Option.elim_some, Finset.mem_insert, h.packetIds]
        simp [or_and_right, exists_or, hpid, or_comm, eq_comm]
  distinct := by
    refine List.pairwise_append.mpr ⟨h.distinct, List.pairwise_singleton _ _, ?_⟩
    intro a ha b hb hsome heq
    obtain rfl := List.mem_singleton.mp hb
    obtain ⟨pid, hpid⟩ := Option.isSome_iff_exists.mp hsome
    exact hfresh pid (heq ▸ hpid) ((h.packetIds pid).mpr ⟨a, ha, hpid⟩)
  bound := by
    intro hpos
    have hcount := h.count
    rw [List.length_append, List.length_singleton]
    omega

/-- The lookup of `_discard` finds the topic of a held message. -/
theorem discard_ok (h : Books buffer bufferSize held) (hmem : received ∈ held) :
    (buffer.discard received).2 = false := by
  have hpos := topicCount_pos hmem rfl
  have htopic := h.topics received.publish.topic
  rw [if_neg (by omega)] at htopic
  simp [ReplayBuffer.discard, htopic]

/-- `_discard` takes out one message. -/
theorem discard (h : Books buffer bufferSize (before ++ received :: after)) :
    Books (buffer.discard received).1 bufferSize (before ++ after) := by
  have hsub : (before ++ after).Sublist (before ++ received :: after) :=
    (List.sublist_cons_self received after).append_left before
  have htotal : ∀ topic, topicCount topic (before ++ received :: after) =
      topicCount topic (before ++ after) + if received.publish.topic = topic then 1 else 0 := by
    intro topic
    simp only [topicCount_append, topicCount_cons]
    omega
  have hown : OrderedDict.get buffer.topics received.publish.topic =
      some ((topicCount received.publish.topic (before ++ after) : Int) + 1) := by
    rw [h.topics, htotal, if_pos rfl, if_neg (Nat.succ_ne_zero _)]
    rfl
  refine ⟨?_, ?_, ?_, ?_, h.distinct.sublist hsub, fun hsize => ?_⟩
  · simp only [ReplayBuffer.discard, hown, h.count, List.length_append, List.length_cons]
    omega
  · intro topic
    have hother := h.topics topic
    rw [htotal] at hother
    simp only [ReplayBuffer.discard, hown, Int.add_sub_cancel]
    by_cases htopic : received.publish.topic = topic
    · subst htopic
      by_cases hlast : topicCount received.publish.topic (before ++ after) = 0
      · rw [if_pos (by exact_mod_cast hlast), OrderedDict.get_pop, if_pos rfl, if_pos hlast]
      · rw [if_neg (by exact_mod_cast hlast), OrderedDict.get_set, if_pos rfl, if_neg hlast]
    · rw [if_neg htopic, Nat.add_zero] at hother
      split
      · rw [OrderedDict.get_pop, if_neg htopic, hother]
      · rw [OrderedDict.get_set, if_neg htopic, hother]
  · simp only [ReplayBuffer.discard, hown]
    split
    · exact OrderedDict.nodup_keys_pop h.keys _
    · exact OrderedDict.nodup_keys_set h.keys _ _
  · intro pid
    -- no other held message has the identifier of this one
    have hids := h.packetIds pid
    have hdistinct := h.distinct
    simp only [List.pairwise_append, List.pairwise_cons, List.mem_cons, List.mem_append,
      forall_eq_or_imp] at hdistinct hids
    simp only [ReplayBuffer.discard, hown, List.mem_append]
    cases hown : received.publish.packetId with
    | none => grind
    | some own => grind
  · exact Nat.le_trans hsub.length_le (h.bound hsize)

end Books

/-! ## One buffer and its tasks -/

/-- What `accept` answers: the message goes to its recipient, is held (or is known
already), or meets the limit. -/
inductive Intake
  | recipient
  | held
  | limitExceeded
deriving DecidableEq, Repr

/-- `accept`; `request` and `subscription` say what the recipient has. -/
def ReplayBuffer.accept (buffer : ReplayBuffer) (bufferSize : Nat) (received : Received)
    (request subscription : Bool) : ReplayBuffer × Intake :=
  if request then (buffer, .recipient)
  else if subscription && (OrderedDict.get buffer.topics received.publish.topic).isNone then
    (buffer, .recipient)
  else if received.publish.packetId.elim false fun pid => decide (pid ∈ buffer.packetIds) then
    (buffer, .held)
  else if bufferSize ≠ 0 ∧ (bufferSize : Int) ≤ buffer.messageCount then (buffer, .limitExceeded)
  else (buffer.append received, .held)

/-- How `deliver_replay` goes on: it returns, it raises, or it is suspended. -/
inductive Delivery
  | returned
  | raised
  | suspended
deriving DecidableEq, Repr

/-- A buffer with every task that has called `drain` or `expire` on it.  `lastSeq` is
the last arrival. -/
structure BufferRun where
  buffer : ReplayBuffer := {}
  bufferSize : Nat
  tasks : List ReplayTask := []
  lastSeq : Nat := 0

/-- The messages a task has taken over from `_publishes`. -/
def ReplayPhase.inHand : ReplayPhase → List Received
  | .waiting => []
  | .looping unmatched pending => unmatched ++ pending
  | .delivering unmatched pending current => unmatched ++ current :: pending
  | .finished => []

/-- The task is inside `_deliver_pending`. -/
def ReplayPhase.inside : ReplayPhase → Bool
  | .waiting => false
  | .looping _ _ => true
  | .delivering _ _ _ => true
  | .finished => false

namespace BufferRun

/-- All messages of the buffer, wherever they are. -/
def held (r : BufferRun) : List Received :=
  (r.tasks.flatMap fun task => task.phase.inHand) ++ r.buffer.publishes

def update (r : BufferRun) (t : Nat) (buffer : ReplayBuffer) (phase : ReplayPhase) : BufferRun :=
  { r with buffer, tasks := r.tasks.modify t fun task => { task with phase } }

/-- The `finally` of `_deliver_pending` and the release of the lock. -/
def leave (r : BufferRun) (t : Nat) (buffer : ReplayBuffer) (unmatched pending : List Received) :
    BufferRun :=
  r.update t
    { buffer with publishes := unmatched ++ pending ++ buffer.publishes, lock := none } .finished

/-- The rest of a round after `deliver_replay`. -/
def settleDelivery (r : BufferRun) (t : Nat) (unmatched pending : List Received)
    (current : Received) : Delivery → BufferRun
  | .returned =>
      let discarded := r.buffer.discard current
      if discarded.2 then r.leave t discarded.1 unmatched pending
      else r.update t discarded.1 (.looping unmatched pending)
  | .raised => r.leave t r.buffer (unmatched ++ [current]) pending
  | .suspended => r.update t r.buffer (.delivering unmatched pending current)

/-- One round of `_deliver_pending`, or its end and what follows in `drain` or
`expire`; without a `delivery` the message has no recipient with room. -/
def round (r : BufferRun) (t : Nat) (task : ReplayTask) (delivery : Option Delivery) :
    Option BufferRun :=
  match task.phase with
  | .looping unmatched [] =>
      if r.buffer.publishes = [] then
        if task.expires then
          some (r.update t { r.buffer.emptied with lock := none } .finished)
        else some (r.leave t r.buffer unmatched [])
      else
        some (r.update t { r.buffer with publishes := [] }
          (.looping unmatched r.buffer.publishes))
  | .looping unmatched (received :: pending) =>
      match delivery with
      | none => some (r.update t r.buffer (.looping (unmatched ++ [received]) pending))
      | some delivery => some (r.settleDelivery t unmatched pending received delivery)
  | _ => none

/-- A waiting task takes the free lock. -/
def acquireLock (r : BufferRun) (t : Nat) (task : ReplayTask) : Option BufferRun :=
  if task.phase = .waiting ∧ task.cancelRequested = false ∧ r.buffer.lock = none then
    some (r.update t { r.buffer with lock := some t } (.looping [] []))
  else none

/-- A suspended task wakes up.  A cancellation reaches it in the `await` it is
suspended in. -/
def resume (r : BufferRun) (t : Nat) (task : ReplayTask) (delivery : Delivery) :
    Option BufferRun :=
  match task.phase with
  | .waiting => if task.cancelRequested then some (r.update t r.buffer .finished) else none
  | .delivering unmatched pending current =>
      some (r.settleDelivery t unmatched pending current
        (if task.cancelRequested then .raised else delivery))
  | _ => none

inductive Action
  | accept (received : Received) (request subscription : Bool)
  | drain
  | expire
  | acquireLock (t : Nat)
  | round (t : Nat) (delivery : Option Delivery)
  | resume (t : Nat) (delivery : Delivery)
  | cancel (t : Nat)

/-- One step.  Arrivals are numbered in their order. -/
def step (r : BufferRun) : Action → Option BufferRun
  | .accept received request subscription =>
      if r.lastSeq < received.seq then
        some { r with
          buffer := (r.buffer.accept r.bufferSize received request subscription).1
          lastSeq := received.seq }
      else none
  | .drain => some { r with tasks := r.tasks ++ [{ buffer := 0, expires := false }] }
  | .expire => some { r with tasks := r.tasks ++ [{ buffer := 0, expires := true }] }
  | .acquireLock t => r.tasks[t]?.bind fun task => r.acquireLock t task
  | .round t delivery => r.tasks[t]?.bind fun task => r.round t task delivery
  | .resume t delivery => r.tasks[t]?.bind fun task => r.resume t task delivery
  | .cancel t =>
      if t < r.tasks.length then
        some { r with tasks := r.tasks.modify t fun task => { task with cancelRequested := true } }
      else none

/-! ## What every step keeps -/

variable {r : BufferRun} {t : Nat} {task : ReplayTask}

/-- The task inside `_deliver_pending` is the holder of the lock, and the counters are
those of the held messages, which stand in their order of arrival. -/
structure Sound (r : BufferRun) : Prop where
  holder : ∀ t task, r.tasks[t]? = some task →
    (task.phase.inside = true ↔ r.buffer.lock = some t)
  isTask : ∀ t, r.buffer.lock = some t → t < r.tasks.length
  books : Books r.buffer r.bufferSize r.held
  arrival : r.held.Pairwise fun a b => a.seq < b.seq
  latest : ∀ received ∈ r.held, received.seq ≤ r.lastSeq

theorem inHand_of_not_inside {phase : ReplayPhase} (h : phase.inside = false) :
    phase.inHand = [] := by
  cases phase <;> simp_all [ReplayPhase.inside, ReplayPhase.inHand]

namespace Sound

theorem others_empty (h : r.Sound) (hlock : r.buffer.lock = none ∨ r.buffer.lock = some t) :
    ∀ i other, r.tasks[i]? = some other → i ≠ t → other.phase.inHand = [] := by
  intro i other hi hne
  apply inHand_of_not_inside
  rw [Bool.eq_false_iff]
  intro hinside
  have hi' := (h.holder i other hi).mp hinside
  rcases hlock with hlock | hlock
  · rw [hlock] at hi'
    cases hi'
  · rw [hlock] at hi'
    exact hne (Option.some.inj hi').symm

theorem held_update (h : r.Sound) (htask : r.tasks[t]? = some task)
    (hlock : r.buffer.lock = none ∨ r.buffer.lock = some t) (buffer : ReplayBuffer)
    (phase : ReplayPhase) : (r.update t buffer phase).held = phase.inHand ++ buffer.publishes := by
  unfold held update
  dsimp only
  rw [TaskList.flatMap_modify_only htask (h.others_empty hlock)]

/-- What is held while a task is inside `_deliver_pending`. -/
theorem held_eq (h : r.Sound) (htask : r.tasks[t]? = some task)
    (hlock : r.buffer.lock = none ∨ r.buffer.lock = some t) :
    r.held = task.phase.inHand ++ r.buffer.publishes := by
  unfold held
  rw [TaskList.flatMap_only htask (h.others_empty hlock)]

/-- One task goes on, with the buffer: the lock is its own or free, and of the held
messages none is added. -/
theorem update (h : r.Sound) (htask : r.tasks[t]? = some task)
    (hlock : r.buffer.lock = none ∨ r.buffer.lock = some t) {buffer : ReplayBuffer}
    {phase : ReplayPhase} (hlock' : buffer.lock = if phase.inside then some t else none)
    (hbooks : Books buffer r.bufferSize (phase.inHand ++ buffer.publishes))
    (hsub : (phase.inHand ++ buffer.publishes).Sublist r.held) :
    (r.update t buffer phase).Sound := by
  have hheld := h.held_update htask hlock buffer phase
  obtain ⟨ht, -⟩ := List.getElem?_eq_some_iff.mp htask
  refine ⟨?_, ?_, by rw [hheld]; exact hbooks, ?_, ?_⟩
  · intro i other hi
    simp only [BufferRun.update] at hi ⊢
    rw [hlock']
    obtain ⟨rfl, rfl⟩ | ⟨heq, hi⟩ := (TaskList.getElem?_modify_iff htask).mp hi
    · simp
    · have hothers := h.holder i other hi
      have hnot : other.phase.inside ≠ true := by
        intro hinside
        have hi' := hothers.mp hinside
        rcases hlock with hlock | hlock
        · rw [hlock] at hi'
          cases hi'
        · rw [hlock] at hi'
          exact heq (Option.some.inj hi').symm
      split
      · simp [hnot, Ne.symm heq]
      · simp [hnot]
  · intro i hi
    simp only [BufferRun.update, List.length_modify] at hi ⊢
    rw [hlock'] at hi
    split at hi
    · cases hi
      exact ht
    · cases hi
  · rw [hheld]
    exact h.arrival.sublist hsub
  · intro received hmem
    rw [hheld] at hmem
    exact h.latest received (hsub.subset hmem)

/-- The task leaves `_deliver_pending` with all it has: every message is back in
`_publishes`, in its place. -/
theorem leave (h : r.Sound) (htask : r.tasks[t]? = some task)
    (hlock : r.buffer.lock = some t) {unmatched pending : List Received}
    (hinHand : task.phase.inHand = unmatched ++ pending) :
    (r.leave t r.buffer unmatched pending).Sound := by
  have hheld := h.held_eq htask (.inr hlock)
  rw [hinHand] at hheld
  have hbooks := h.books
  rw [hheld] at hbooks
  refine h.update htask (.inr hlock) rfl (hbooks.congr rfl rfl rfl) ?_
  rw [hheld]
  exact List.Sublist.refl _

/-- The task holds the same messages, in other lists. -/
theorem advance (h : r.Sound) (htask : r.tasks[t]? = some task)
    (hlock : r.buffer.lock = some t) {phase : ReplayPhase} (hinside : phase.inside = true)
    (hinHand : phase.inHand = task.phase.inHand) : (r.update t r.buffer phase).Sound := by
  have hheld := h.held_eq htask (.inr hlock)
  rw [← hinHand] at hheld
  have hbooks := h.books
  rw [hheld] at hbooks
  refine h.update htask (.inr hlock) (by rw [if_pos hinside, hlock]) hbooks ?_
  rw [hheld]

/-- The rest of a round, for a task that has `current` in its hands. -/
theorem settleDelivery (h : r.Sound) (htask : r.tasks[t]? = some task)
    (hlock : r.buffer.lock = some t) {unmatched pending : List Received} {current : Received}
    (hinHand : task.phase.inHand = unmatched ++ current :: pending) (delivery : Delivery) :
    (r.settleDelivery t unmatched pending current delivery).Sound := by
  cases delivery with
  | returned =>
      have hheld := h.held_eq htask (.inr hlock)
      rw [hinHand] at hheld
      have hbooks := h.books
      have hmem : current ∈ r.held := by
        rw [hheld]
        simp
      have hok := hbooks.discard_ok hmem
      have hpublishes := r.buffer.discard_publishes current
      have hlock' := (r.buffer.discard_lock current).trans hlock
      unfold BufferRun.settleDelivery
      dsimp only
      rw [if_neg (by simp [hok])]
      refine h.update htask (.inr hlock) hlock' ?_ ?_
      · rw [hheld, List.append_assoc] at hbooks
        rw [hpublishes]
        simpa [ReplayPhase.inHand] using hbooks.discard
      · rw [hpublishes, hheld]
        simp only [ReplayPhase.inHand, List.append_assoc, List.cons_append]
        exact (List.sublist_cons_self current _).append_left unmatched
  | raised => exact h.leave htask hlock (by simp [hinHand])
  | suspended => exact h.advance htask hlock rfl hinHand.symm

theorem round (h : r.Sound) {next : BufferRun} {delivery : Option Delivery}
    (htask : r.tasks[t]? = some task) (hround : r.round t task delivery = some next) :
    next.Sound := by
  unfold BufferRun.round at hround
  cases hphase : task.phase with
  | waiting => simp [hphase] at hround
  | delivering unmatched pending current => simp [hphase] at hround
  | finished => simp [hphase] at hround
  | looping unmatched pending =>
      have hlock : r.buffer.lock = some t := (h.holder t task htask).mp (by rw [hphase]; rfl)
      rw [hphase] at hround
      cases pending with
      | nil =>
          have hheld := h.held_eq htask (.inr hlock)
          rw [hphase] at hheld
          dsimp only at hround
          by_cases hempty : r.buffer.publishes = []
          · rw [if_pos hempty] at hround
            by_cases hexpires : task.expires = true
            · -- everything is dropped
              rw [if_pos hexpires] at hround
              cases hround
              refine h.update htask (.inr hlock) rfl ?_ (List.nil_sublist _)
              exact (Books.emptied r.buffer r.bufferSize).congr rfl rfl rfl
            · rw [if_neg hexpires] at hround
              cases hround
              exact h.leave htask hlock (by rw [hphase]; rfl)
          · -- the next pass takes over what has arrived
            rw [if_neg hempty] at hround
            cases hround
            have hbooks := h.books
            refine h.update htask (.inr hlock) hlock ?_ ?_
            · rw [hheld] at hbooks
              simp only [ReplayPhase.inHand, List.append_nil] at hbooks ⊢
              exact hbooks.congr rfl rfl rfl
            · rw [hheld]
              simp [ReplayPhase.inHand]
      | cons received pending =>
          cases delivery with
          | none =>
              cases hround
              exact h.advance htask hlock rfl (by simp [hphase, ReplayPhase.inHand])
          | some delivery =>
              cases hround
              exact h.settleDelivery htask hlock (by simp [hphase, ReplayPhase.inHand]) delivery

theorem acquireLock (h : r.Sound) {next : BufferRun} (htask : r.tasks[t]? = some task)
    (hacquire : r.acquireLock t task = some next) : next.Sound := by
  unfold BufferRun.acquireLock at hacquire
  split at hacquire
  · rename_i hfree
    obtain ⟨hwaiting, -, hlock⟩ := hfree
    cases hacquire
    have hheld := h.held_eq htask (.inl hlock)
    rw [hwaiting] at hheld
    have hbooks := h.books
    rw [hheld] at hbooks
    refine h.update htask (.inl hlock) rfl (hbooks.congr rfl rfl rfl) ?_
    rw [hheld]
    exact List.Sublist.refl _
  · cases hacquire

/-- A task changes beside the lock and the messages in its hands. -/
theorem modifyTask (h : r.Sound) (htask : r.tasks[t]? = some task) {f : ReplayTask → ReplayTask}
    (hinside : (f task).phase.inside = task.phase.inside)
    (hinHand : (f task).phase.inHand = task.phase.inHand) :
    Sound { r with tasks := r.tasks.modify t f } := by
  have hheld : held { r with tasks := r.tasks.modify t f } = r.held := by
    simp only [held]
    rw [TaskList.flatMap_modify_same htask hinHand]
  refine ⟨?_, ?_, by rw [hheld]; exact h.books, by rw [hheld]; exact h.arrival, by
    rw [hheld]; exact h.latest⟩
  · intro i other hi
    obtain ⟨rfl, rfl⟩ | ⟨-, hi⟩ := (TaskList.getElem?_modify_iff htask).mp hi
    · rw [hinside]
      exact h.holder i task htask
    · exact h.holder i other hi
  · intro i hi
    rw [List.length_modify]
    exact h.isTask i hi

theorem resume (h : r.Sound) {next : BufferRun} {delivery : Delivery}
    (htask : r.tasks[t]? = some task) (hresume : r.resume t task delivery = some next) :
    next.Sound := by
  unfold BufferRun.resume at hresume
  cases hphase : task.phase with
  | looping unmatched pending => simp [hphase] at hresume
  | finished => simp [hphase] at hresume
  | waiting =>
      rw [hphase] at hresume
      dsimp only at hresume
      split at hresume
      · cases hresume
        -- it never had the lock, and whoever has it keeps it
        exact h.modifyTask htask (by rw [hphase]; rfl) (by rw [hphase]; rfl)
      · cases hresume
  | delivering unmatched pending current =>
      have hlock : r.buffer.lock = some t := (h.holder t task htask).mp (by rw [hphase]; rfl)
      rw [hphase] at hresume
      cases hresume
      exact h.settleDelivery htask hlock (by rw [hphase]; rfl) _

/-- `accept` adds a message at the end, or changes nothing. -/
theorem accept (h : r.Sound) {received : Received} (request subscription : Bool)
    (hseq : r.lastSeq < received.seq) :
    Sound { r with
      buffer := (r.buffer.accept r.bufferSize received request subscription).1
      lastSeq := received.seq } := by
  have hlatest : ∀ other ∈ r.held, other.seq ≤ received.seq :=
    fun other hmem => Nat.le_trans (h.latest other hmem) (Nat.le_of_lt hseq)
  have hsame : Sound { r with lastSeq := received.seq } :=
    ⟨h.holder, h.isTask, h.books, h.arrival, hlatest⟩
  unfold ReplayBuffer.accept
  split
  · exact hsame
  split
  · exact hsame
  split
  · exact hsame
  split
  · exact hsame
  rename_i hfresh hroom
  have hheld : held { r with buffer := r.buffer.append received, lastSeq := received.seq } =
      r.held ++ [received] := by
    simp [held, ReplayBuffer.append]
  refine ⟨h.holder, h.isTask, ?_, ?_, ?_⟩
  · rw [hheld]
    refine h.books.append ?_ hroom
    intro pid hpid hmem
    simp [hpid, hmem] at hfresh
  · rw [hheld]
    refine List.pairwise_append.mpr ⟨h.arrival, List.pairwise_singleton _ _, ?_⟩
    intro a ha b hb
    obtain rfl := List.mem_singleton.mp hb
    exact Nat.lt_of_le_of_lt (h.latest a ha) hseq
  · rw [hheld]
    intro other hmem
    rcases List.mem_append.mp hmem with hmem | hmem
    · exact hlatest other hmem
    · obtain rfl := List.mem_singleton.mp hmem
      exact Nat.le_refl _

/-- A new task waits for the lock. -/
theorem addTask (h : r.Sound) (task : ReplayTask) (hwaiting : task.phase = .waiting) :
    Sound { r with tasks := r.tasks ++ [task] } := by
  have hheld : held { r with tasks := r.tasks ++ [task] } = r.held := by
    simp [held, hwaiting, ReplayPhase.inHand]
  refine ⟨?_, ?_, by rw [hheld]; exact h.books, by rw [hheld]; exact h.arrival, by
    rw [hheld]; exact h.latest⟩
  · intro t other ht
    dsimp only at ht ⊢
    by_cases hlt : t < r.tasks.length
    · rw [List.getElem?_append_left hlt] at ht
      exact h.holder t other ht
    · rw [List.getElem?_append_right (by omega)] at ht
      have hmem := List.mem_of_getElem? ht
      obtain rfl := List.mem_singleton.mp hmem
      have hlock : r.buffer.lock ≠ some t := fun hlock => hlt (h.isTask t hlock)
      simp [hwaiting, ReplayPhase.inside, hlock]
  · intro t hlock
    have := h.isTask t hlock
    simp only [List.length_append, List.length_singleton]
    omega

/-- **Step.**  Every step of the buffer keeps its books. -/
theorem step (h : r.Sound) {action : Action} {next : BufferRun}
    (hstep : r.step action = some next) : next.Sound := by
  cases action with
  | accept received request subscription =>
      simp only [BufferRun.step] at hstep
      split at hstep
      · rename_i hseq
        cases hstep
        exact h.accept request subscription hseq
      · cases hstep
  | drain =>
      cases hstep
      exact h.addTask _ rfl
  | expire =>
      cases hstep
      exact h.addTask _ rfl
  | acquireLock t =>
      obtain ⟨task, htask, hacquire⟩ := Option.bind_eq_some_iff.mp hstep
      exact h.acquireLock htask hacquire
  | round t delivery =>
      obtain ⟨task, htask, hround⟩ := Option.bind_eq_some_iff.mp hstep
      exact h.round htask hround
  | resume t delivery =>
      obtain ⟨task, htask, hresume⟩ := Option.bind_eq_some_iff.mp hstep
      exact h.resume htask hresume
  | cancel t =>
      simp only [BufferRun.step] at hstep
      split at hstep
      · rename_i hlt
        cases hstep
        exact h.modifyTask (List.getElem?_eq_getElem hlt) rfl rfl
      · cases hstep

theorem fresh (bufferSize : Nat) : Sound { bufferSize } where
  holder := fun t task htask => by simp at htask
  isTask := fun t hlock => by simp at hlock
  books := (Books.emptied {} bufferSize).congr rfl rfl rfl
  arrival := .nil
  latest := fun received hmem => absurd hmem List.not_mem_nil

/-- With no task inside `_deliver_pending` the held messages are `_publishes`. -/
theorem held_idle (hidle : ∀ task ∈ r.tasks, task.phase.inside = false) :
    r.held = r.buffer.publishes := by
  have hnone : (r.tasks.flatMap fun task => task.phase.inHand) = [] :=
    List.flatMap_eq_nil_iff.mpr fun task hmem => inHand_of_not_inside (hidle task hmem)
  rw [held, hnone, List.nil_append]

end Sound

theorem settleDelivery_bufferSize (r : BufferRun) (t : Nat) (unmatched pending : List Received)
    (current : Received) (delivery : Delivery) :
    (r.settleDelivery t unmatched pending current delivery).bufferSize = r.bufferSize := by
  cases delivery with
  | returned =>
      simp only [settleDelivery]
      split <;> rfl
  | raised => rfl
  | suspended => rfl

/-- The limit of a buffer is fixed. -/
theorem step_bufferSize {action : Action} {next : BufferRun} (hstep : r.step action = some next) :
    next.bufferSize = r.bufferSize := by
  cases action with
  | accept | cancel =>
      simp only [step] at hstep
      split at hstep
      · cases hstep
        rfl
      · cases hstep
  | drain | expire =>
      cases hstep
      rfl
  | acquireLock t =>
      obtain ⟨task, -, hacquire⟩ := Option.bind_eq_some_iff.mp hstep
      unfold acquireLock at hacquire
      split at hacquire
      · cases hacquire
        rfl
      · cases hacquire
  | round t delivery =>
      obtain ⟨task, -, hround⟩ := Option.bind_eq_some_iff.mp hstep
      unfold round at hround
      cases hphase : task.phase with
      | waiting | delivering | finished => simp [hphase] at hround
      | looping unmatched pending =>
          rw [hphase] at hround
          cases pending with
          | nil =>
              dsimp only at hround
              split at hround
              · split at hround
                · cases hround
                  rfl
                · cases hround
                  rfl
              · cases hround
                rfl
          | cons received pending =>
              cases delivery with
              | none =>
                  cases hround
                  rfl
              | some delivery =>
                  cases hround
                  exact settleDelivery_bufferSize ..
  | resume t delivery =>
      obtain ⟨task, -, hresume⟩ := Option.bind_eq_some_iff.mp hstep
      unfold resume at hresume
      cases hphase : task.phase with
      | looping | finished => simp [hphase] at hresume
      | waiting =>
          rw [hphase] at hresume
          dsimp only at hresume
          split at hresume
          · cases hresume
            rfl
          · cases hresume
      | delivering unmatched pending current =>
          rw [hphase] at hresume
          cases hresume
          exact settleDelivery_bufferSize ..

/-- **Replay buffer bookkeeping.**  In every state of every run the three counters are
those of the held messages, no two of which share an identifier, the limit is
respected, and the lookup of `_discard` finds every held message; while no task is
inside `_deliver_pending` the held messages are `_publishes`, in order of arrival. -/
theorem replay_books (bufferSize : Nat) (actions : List Action) (r : BufferRun)
    (hrun : Transition.run BufferRun.step { bufferSize } actions = some r) :
    r.buffer.messageCount = r.held.length ∧
      (∀ topic n, (topic, n) ∈ r.buffer.topics ↔ n = topicCount topic r.held ∧ n ≠ 0) ∧
      (OrderedDict.keys r.buffer.topics).Nodup ∧
      (∀ pid, pid ∈ r.buffer.packetIds ↔
        ∃ received ∈ r.held, received.publish.packetId = some pid) ∧
      (r.held.Pairwise fun a b =>
        a.publish.packetId.isSome → a.publish.packetId ≠ b.publish.packetId) ∧
      (0 < bufferSize → r.buffer.messageCount ≤ bufferSize) ∧
      (∀ received ∈ r.held, (r.buffer.discard received).2 = false) ∧
      ((∀ task ∈ r.tasks, task.phase.inside = false) →
        r.held = r.buffer.publishes ∧
          r.buffer.publishes.Pairwise fun a b => a.seq < b.seq) := by
  have h : r.Sound := Transition.invariant (fun _ _ _ h hstep => h.step hstep)
    (Sound.fresh bufferSize) hrun
  have hsize : r.bufferSize = bufferSize :=
    Transition.invariant (I := fun r => r.bufferSize = bufferSize)
      (fun _ _ _ hsize hstep => (step_bufferSize hstep).trans hsize) rfl hrun
  obtain ⟨hcount, htopics, hkeys, hids, hdistinct, hbound⟩ := h.books
  refine ⟨hcount, ?_, hkeys, hids, hdistinct, ?_, fun received => h.books.discard_ok, ?_⟩
  · intro topic n
    have htopic := htopics topic
    constructor
    · intro hmem
      rw [OrderedDict.get_of_mem hkeys hmem] at htopic
      split at htopic
      · cases htopic
      · rename_i hne
        cases htopic
        exact ⟨rfl, by exact_mod_cast hne⟩
    · rintro ⟨rfl, hne⟩
      rw [if_neg (by exact_mod_cast hne)] at htopic
      exact OrderedDict.mem_of_get htopic
  · intro hpos
    rw [hcount]
    rw [hsize] at hbound
    exact_mod_cast hbound hpos
  · intro hidle
    have hheld := Sound.held_idle hidle
    refine ⟨hheld, ?_⟩
    rw [← hheld]
    exact h.arrival

/-- A drain has taken over one message when a second one of its topic arrives, and is
suspended inside the delivery of the first. -/
theorem replay_books_during_drain :
    ∃ r, Transition.run BufferRun.step { bufferSize := 2 }
        [.accept { seq := 1, publish := samplePublish .atLeastOnce 7 } false false,
          .drain, .acquireLock 0, .round 0 none,
          .accept { seq := 2, publish := samplePublish .atLeastOnce 8 } false true,
          .round 0 (some .suspended)] = some r ∧
      r.buffer.messageCount = r.held.length ∧
      ∀ received ∈ r.held, (r.buffer.discard received).2 = false := by
  obtain ⟨r, hr⟩ := Option.isSome_iff_exists.mp (show (Transition.run BufferRun.step
    { bufferSize := 2 } [.accept { seq := 1, publish := samplePublish .atLeastOnce 7 } false false,
      .drain, .acquireLock 0, .round 0 none,
      .accept { seq := 2, publish := samplePublish .atLeastOnce 8 } false true,
      .round 0 (some .suspended)]).isSome = true by decide)
  have h := replay_books 2 _ r hr
  exact ⟨r, hr, h.1, h.2.2.2.2.2.2.1⟩

end BufferRun

end Zmqtt
