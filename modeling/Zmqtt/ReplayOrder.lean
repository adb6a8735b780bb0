import Zmqtt.ReplayPuts

/-!
# The order of replayed messages

A message that is held keeps later messages of its topic from being delivered live:
`accept` holds them too.  `_deliver_pending` has no such rule.  A message whose queue
is full is skipped, and while the pass is suspended in the acknowledgement of another
message the application can make room; the next message of the same topic is then put
before the skipped one.

`PutRecord` is the flow with a record of what is put in the queues.  In every run in
which no round delivers past a skipped message of the same topic, messages of one
topic are put in their order of arrival.
-/

namespace Zmqtt

open InboundPublishFlow

variable {s next : InboundPublishFlow} {puts : List (Nat × Message)}

namespace PutsOrdered

/-! ## The tasks -/

variable {t : Nat} {task : ReplayTask} {unmatched pending : List Received} {received : Received}

/-- A task is done with its message, or is suspended in the acknowledgement. -/
theorem storeTask (h : PutsOrdered s puts) {now : ReplayTask}
    (hnow : s.replay.tasks[t]? = some now) (hbuffer : now.buffer = task.buffer)
    (hphase : now.phase = .delivering unmatched pending received) {frame : Frame}
    (hsettled : frame.Settled) :
    PutsOrdered (InboundPublishFlow.storeTask t task unmatched pending received (s, frame))
      puts := by
  rcases hsettled with rfl | rfl
  · obtain ⟨hok, hviews⟩ := h.views.discard hnow hphase
    have hlock := h.views.holder hnow (by rw [hphase]; rfl)
    rw [hbuffer] at hok hviews hlock
    simp only [InboundPublishFlow.storeTask]
    rw [if_neg (by rw [hok]; exact Bool.false_ne_true)]
    refine h.setReplay hviews fun x hx => ?_
    rw [← hbuffer] at hx hlock
    refine h.views.waits_update_of_subset hnow (.inr hlock) ?_ hx
    rw [ReplayBuffer.discard_publishes, hphase]
    exact fun y hy => hy
  · exact h.setTask t

/-- The message of a round waits. -/
theorem waits_round (h : PutsOrdered s puts) (htask : s.replay.tasks[t]? = some task)
    (hphase : task.phase = .looping unmatched (received :: pending)) :
    s.replay.Waits received := by
  have hlock := h.views.holder htask (by rw [hphase]; rfl)
  refine h.views.waits_of_mem htask (.inr hlock) (List.mem_append_left _ ?_)
  rw [hphase]
  exact List.mem_append_right _ List.mem_cons_self

/-- What waits after a round has taken its message is later, unless it was skipped. -/
theorem round_first (h : PutsOrdered s puts) (htask : s.replay.tasks[t]? = some task)
    (hphase : task.phase = .looping unmatched (received :: pending)) {x : Received}
    (hx : (s.replay.setPhase t (.delivering unmatched pending received)).Waits x) :
    x ∈ unmatched ∨ received.seq < x.seq := by
  have hinside : task.phase.inside = true := by rw [hphase]; rfl
  have hmem := h.views.waits_update_inside htask hinside
    (by rw [hphase]; exact List.mem_append_right unmatched List.mem_cons_self) hx
  have hb := h.views.valid.tasks task (List.mem_of_getElem? htask)
  have harrival := (h.views.sound _ hb).arrival
  rw [(h.views.sound _ hb).held_eq (Replay.getElem?_view htask rfl)
    (.inr (h.views.holder htask hinside)), hphase] at harrival
  have hlater : ∀ y ∈ pending ++ (s.replay.buffer task.buffer).publishes, received.seq < y.seq := by
    have hheld : (unmatched ++ received :: (pending ++
        (s.replay.buffer task.buffer).publishes)).Pairwise fun a b => a.seq < b.seq := by
      simp only [ReplayPhase.inHand, List.append_assoc, List.cons_append] at harrival
      exact harrival
    exact (List.pairwise_cons.mp (List.pairwise_append.mp hheld).2.1).1
  have hcases : x ∈ unmatched ++ (pending ++ (s.replay.buffer task.buffer).publishes) := by
    simpa only [ReplayPhase.waits, List.append_assoc] using hmem
  rcases List.mem_append.mp hcases with hskipped | hrest
  · exact .inl hskipped
  · exact .inr (hlater x hrest)

/-- The delivery of a message that is in the hands of a task. -/
theorem deliverReplay (h : PutsOrdered s puts) {recipient : InboundRecipient} {now : ReplayTask}
    {write : WriteOutcome} (hwrite : write ≠ .failed) (hnow : s.replay.tasks[t]? = some now)
    (hbuffer : now.buffer = task.buffer)
    (hphase : now.phase = .delivering unmatched pending received)
    (hplain : received.publish.qos = .atLeastOnce ∧ received.publish.packetId.isSome = true)
    (hsettled : (settle write (s.deliverReplay received recipient write)).2.Settled)
    (hknown : recipient.message.seq < s.nextSeq)
    (hlast : ∀ put ∈ puts, put.2.topic = recipient.message.topic →
      put.2.seq < recipient.message.seq)
    (hfirst : recipient.request = none → ∀ y, s.replay.Waits y →
      y.publish.topic = recipient.message.topic → recipient.message.seq < y.seq)
    (hreader : ∀ frame, OrderedDict.get s.frames .reader = some frame →
      ∀ queue message, message.topic = recipient.message.topic →
        ReaderFrame s (puts ++ [(queue, message)]) frame) :
    PutsOrdered
      (InboundPublishFlow.storeTask t task unmatched pending received
        (settle write (s.deliverReplay received recipient write)))
      (puts ++ newPuts s (InboundPublishFlow.storeTask t task unmatched pending received
        (settle write (s.deliverReplay received recipient write)))) := by
  obtain ⟨ackCallback, puback, hdeliver⟩ : ∃ ackCallback puback,
      s.deliverReplay received recipient write =
        (s.emit (.routed received.seq), .delivering recipient ackCallback puback) :=
    s.deliverReplay_qos1 hplain.1 hplain.2
  have haside : Aside (s.emit (.routed received.seq))
      (settle write (s.emit (.routed received.seq),
        .delivering recipient ackCallback puback)).1 :=
    Aside.settle write (s.emit (.routed received.seq), .delivering recipient ackCallback puback)
  have hhandled : Handled (s.emit (.routed received.seq)) recipient (recipient.request = none)
      (settle write (s.emit (.routed received.seq),
        .delivering recipient ackCallback puback)) :=
    settle_delivering_handled hwrite rfl (fun hrequest _ => hrequest) ackCallback puback
  have hrouted : PutsOrdered (s.emit (.routed received.seq)) puts :=
    h.change h.views (Nat.le_refl _) (fun _ hx => hx) rfl
  rw [hdeliver] at hsettled ⊢
  have hdone := hrouted.handled haside hsettled hhandled (fun _ => hknown) (fun _ => hlast) hfirst
    fun frame hframe queue message htopic =>
      (hreader frame hframe queue message htopic).change (Nat.le_refl _) fun _ hx => hx
  have hnow' : (settle write (s.emit (.routed received.seq),
      .delivering recipient ackCallback puback)).1.replay.tasks[t]? = some now := by
    rw [haside.replay]
    exact hnow
  have hnew : newPuts s (InboundPublishFlow.storeTask t task unmatched pending received
      (settle write (s.emit (.routed received.seq),
        .delivering recipient ackCallback puback))) =
      newPuts (s.emit (.routed received.seq)) (settle write (s.emit (.routed received.seq),
        .delivering recipient ackCallback puback)).1 := by
    unfold newPuts
    rw [storeTask_queued]
    rfl
  rw [hnew]
  exact hdone.storeTask hnow' hbuffer hphase hsettled

/-- A round that delivers its message. -/
theorem deliverRound (h : PutsOrdered s puts) {claim : Option Nat} {write : WriteOutcome}
    (hwrite : write ≠ .failed) (htask : s.replay.tasks[t]? = some task)
    (hphase : task.phase = .looping unmatched (received :: pending))
    (hready : s.unready (s.selectRecipient received claim) = false)
    (hskipped : (s.selectRecipient received claim).request = none →
      ∀ skipped ∈ unmatched, skipped.publish.topic ≠ received.publish.topic) :
    PutsOrdered
      (InboundPublishFlow.storeTask t task unmatched pending received (settle write
        ((s.setReplay (s.replay.setPhase t (.delivering unmatched pending received))).deliverReplay
          received (s.selectRecipient received claim) write)))
      (puts ++ newPuts s
        (InboundPublishFlow.storeTask t task unmatched pending received (settle write
          ((s.setReplay (s.replay.setPhase t (.delivering unmatched pending received))).deliverReplay
            received (s.selectRecipient received claim) write)))) := by
  have hinside : task.phase.inside = true := by rw [hphase]; rfl
  have hwaits := h.waits_round htask hphase
  have hb := h.views.valid.tasks task (List.mem_of_getElem? htask)
  have hknown : received.seq < s.nextSeq := by
    obtain ⟨b, hlt, hmem⟩ := (Replay.waits_iff 0 (s.nextSeq - 1)).mp hwaits
    have hlatest := (h.views.sound b hlt).latest received (BufferRun.mem_held_of_waiting hmem)
    have hstarted := h.started
    change received.seq ≤ s.nextSeq - 1 at hlatest
    omega
  obtain ⟨hqos, hid⟩ := h.plain received hwaits
  have hmessage := s.selectRecipient_message received claim
  have hlast : ∀ put ∈ puts, put.2.topic = received.publish.topic → put.2.seq < received.seq :=
    fun put hput htopic => h.before put hput received hwaits htopic.symm
  have hfirst : (s.selectRecipient received claim).request = none →
      ∀ x, (s.replay.setPhase t (.delivering unmatched pending received)).Waits x →
      x.publish.topic = received.publish.topic → received.seq < x.seq := by
    intro hrequest x hx htopic
    rcases h.round_first htask hphase hx with hmem | hlater
    · exact absurd htopic (hskipped hrequest x hmem)
    · exact hlater
  -- the message is in delivery and does not wait any more
  have hless : ∀ x, (s.replay.setPhase t (.delivering unmatched pending received)).Waits x →
      s.replay.Waits x := by
    intro x hx
    refine h.views.waits_setPhase htask hinside (fun y hy => ?_) hx
    rw [hphase]
    rcases List.mem_append.mp hy with hy | hy
    · exact List.mem_append_left _ hy
    · exact List.mem_append_right _ (List.mem_cons_of_mem _ hy)
  have htaken : PutsOrdered (s.setReplay (s.replay.setPhase t
      (.delivering unmatched pending received))) puts :=
    h.setReplay (h.views.setPhase htask hinside rfl (by rw [hphase]; rfl)) hless
  obtain ⟨hsettled, -⟩ := settle_deliverReplay hwrite (s.setReplay (s.replay.setPhase t
    (.delivering unmatched pending received))) claim hready
      (by rw [anonymous, if_neg fun hnone => by rw [hnone.2] at hid; cases hid])
  have hnow : (s.setReplay (s.replay.setPhase t
      (.delivering unmatched pending received))).replay.tasks[t]? =
        some { task with phase := .delivering unmatched pending received } := by
    simp only [InboundPublishFlow.setReplay, Replay.setPhase, List.getElem?_modify, if_true, htask]
    rfl
  have hreader : ∀ frame, OrderedDict.get s.frames .reader = some frame →
      ∀ queue message, message.topic = received.publish.topic →
        ReaderFrame (s.setReplay (s.replay.setPhase t (.delivering unmatched pending received)))
          (puts ++ [(queue, message)]) frame := by
    intro frame hframe queue message htopic
    have hput := (h.reader frame hframe).put hwaits htopic queue
    exact hput.change (Nat.le_refl _) hless
  refine htaken.deliverReplay hwrite hnow rfl rfl ⟨hqos, hid⟩ hsettled ?_ ?_ ?_ ?_
  · rw [hmessage]
    exact hknown
  · rw [hmessage]
    exact hlast
  · rw [hmessage]
    exact hfirst
  · rw [hmessage]
    exact hreader

/-- The end of `drain`. -/
theorem finishDrain (h : PutsOrdered s puts) (htask : s.replay.tasks[t]? = some task)
    (hphase : task.phase = .looping unmatched []) :
    PutsOrdered (s.finishDrain t task.buffer unmatched) puts := by
  have hlock := h.views.holder htask (by rw [hphase]; rfl)
  have hviews := h.views.finishDrain htask hphase
  have hwaits : ∀ x, (s.replay.release task.buffer t unmatched []).Waits x →
      s.replay.Waits x := by
    intro x hx
    refine h.views.waits_update_of_subset htask (.inr hlock) (fun y hy => ?_) hx
    rw [hphase]
    exact hy
  unfold InboundPublishFlow.finishDrain at hviews ⊢
  simp only at hviews ⊢
  split
  · rename_i hcount
    rw [if_pos hcount] at hviews
    exact h.setReplay hviews hwaits
  · rename_i hcount
    rw [if_neg hcount] at hviews
    exact h.setReplay hviews fun x hx =>
      hwaits x ((Replay.SameViews.cancelExpiration _ task.buffer).waits.mp hx)

/-- The end of `expire`: what is still held is dropped. -/
theorem finishExpire (h : PutsOrdered s puts) (htask : s.replay.tasks[t]? = some task)
    (hphase : task.phase = .looping unmatched []) :
    PutsOrdered (s.finishExpire t task.buffer unmatched) puts := by
  have hlock := h.views.holder htask (by rw [hphase]; rfl)
  have hviews := h.views.finishExpire htask hphase
  have hwaits : ∀ x, ((s.replay.modifyBuffer task.buffer fun buffer =>
      { buffer.emptied with lock := none }).setPhase t .finished).Waits x → s.replay.Waits x := by
    intro x hx
    refine h.views.waits_update_of_subset htask (.inr hlock) (fun y hy => ?_) hx
    cases hy
  unfold InboundPublishFlow.finishExpire at hviews ⊢
  simp only at hviews ⊢
  rw [Replay.release_emptied] at hviews ⊢
  have hreplay := h.setReplay hviews fun x hx =>
    hwaits x ((Replay.SameViews.endExpiration _ task.buffer t).waits.mp hx)
  exact hreplay.change hreplay.views (Nat.le_refl _) (fun _ hx => hx) rfl

/-- A round of `_deliver_pending` that leaves no skipped message of the topic behind. -/
theorem deliverNext (h : PutsOrdered s puts) {claim : Option Nat} {write : WriteOutcome}
    (hwrite : write ≠ .failed) (htask : s.replay.tasks[t]? = some task)
    (hskipped : ∀ unmatched received pending,
      task.phase = .looping unmatched (received :: pending) →
      s.unready (s.selectRecipient received claim) = false →
      (s.selectRecipient received claim).request = none →
      ∀ skipped ∈ unmatched, skipped.publish.topic ≠ received.publish.topic)
    (hnext : s.deliverNext t task claim write = some next) :
    PutsOrdered next (puts ++ newPuts s next) := by
  rcases deliverNext_cases hnext with ⟨unmatched, hphase, -, -, rfl⟩ |
    ⟨unmatched, hphase, -, -, rfl⟩ | ⟨unmatched, hphase, rfl⟩ |
    ⟨unmatched, received, pending, hphase, rfl⟩ |
    ⟨unmatched, received, pending, hphase, hready, rfl⟩
  · exact (h.finishExpire htask hphase).quiet rfl
  · refine (h.finishDrain htask hphase).quiet ?_
    unfold InboundPublishFlow.finishDrain
    simp only
    split <;> rfl
  · have htaken : PutsOrdered (s.setReplay ((s.replay.modifyBuffer task.buffer fun buffer =>
        { buffer with publishes := [] }).setPhase t
          (.looping unmatched (s.replay.buffer task.buffer).publishes))) puts := by
      refine h.setReplay (h.views.takeOver htask hphase) fun x hx => ?_
      have hlock := h.views.holder htask (by rw [hphase]; rfl)
      refine h.views.waits_update_of_subset htask (.inr hlock) (fun y hy => ?_) hx
      rw [hphase]
      simpa [ReplayPhase.waits] using hy
    exact htaken.quiet rfl
  · have hinside : task.phase.inside = true := by rw [hphase]; rfl
    have hmoved : PutsOrdered (s.setReplay (s.replay.setPhase t
        (.looping (unmatched ++ [received]) pending))) puts := by
      have hinHand : (ReplayPhase.looping (unmatched ++ [received]) pending).inHand =
          task.phase.inHand := by
        rw [hphase]
        exact List.append_assoc ..
      refine h.setReplay (h.views.setPhase htask hinside rfl hinHand) fun x hx => ?_
      refine h.views.waits_setPhase htask hinside (fun y hy => ?_) hx
      rw [hphase]
      simpa [ReplayPhase.waits] using hy
    exact hmoved.quiet rfl
  · exact h.deliverRound hwrite htask hphase hready
      (hskipped unmatched received pending hphase hready)

/-- A suspended task goes on. -/
theorem resumeTask (h : PutsOrdered s puts) {ok : Bool} {write : WriteOutcome}
    (htask : s.replay.tasks[t]? = some task)
    (hok : ∀ unmatched pending current, task.phase = .delivering unmatched pending current →
      ok = true ∧ task.cancelRequested = false)
    (hnext : s.resumeTask t task ok write = some next) :
    PutsOrdered next (puts ++ newPuts s next) := by
  unfold InboundPublishFlow.resumeTask at hnext
  cases hphase : task.phase with
  | waiting =>
      simp only [hphase] at hnext
      obtain ⟨-, heq⟩ := Option.ite_none_right_eq_some.mp hnext
      cases heq
      have hstopped : PutsOrdered (s.setReplay (s.replay.setPhase t .finished)) puts :=
        h.setReplay (h.views.stop htask hphase) fun x hx => h.views.waits_stop htask hphase hx
      split
      · have hsame := Replay.SameViews.endExpiration (s.replay.setPhase t .finished) task.buffer t
        have hviews := hstopped.views.of_same hsame rfl
          (hstopped.views.valid.endExpiration _ _) (Nat.le_refl _)
        exact (hstopped.setReplay hviews fun x hx => hsame.waits.mp hx).quiet rfl
      · exact hstopped.quiet rfl
  | looping unmatched pending => simp [hphase] at hnext
  | finished => simp [hphase] at hnext
  | delivering unmatched pending current =>
      simp only [hphase] at hnext
      obtain ⟨frame, hframe, heq⟩ := Option.map_eq_some_iff.mp hnext
      obtain ⟨rfl, hcancel⟩ := hok unmatched pending current hphase
      rw [h.tasks t frame hframe, hcancel] at heq
      subst heq
      have hpopped := h.popFrame (.task t)
      have hstored : PutsOrdered (InboundPublishFlow.storeTask t task unmatched pending current
          ({ s with frames := OrderedDict.pop s.frames (.task t) }, .returned)) puts :=
        hpopped.storeTask htask rfl hphase (.inl rfl)
      exact hstored.quiet (storeTask_queued ..)

end PutsOrdered

/-! ## Runs -/

/-- The flow and what was put in the queues of the subscriptions so far. -/
structure PutRecord where
  flow : InboundPublishFlow
  puts : List (Nat × Message) := []

namespace PutRecord

def step (r : PutRecord) (a : Action) : Option PutRecord :=
  (r.flow.step a).map fun next => ⟨next, r.puts ++ newPuts r.flow next⟩

/-- Messages of one topic stand in a queue in their order of arrival. -/
def InArrivalOrder (r : PutRecord) : Prop :=
  r.puts.Pairwise fun a b => a.1 = b.1 → a.2.topic = b.2.topic → a.2.seq < b.2.seq

end PutRecord

/-- QoS 1 messages, subscriptions, `get_message`, acknowledgements, drains and expiry, without
errors and without cancellation. -/
def Undisturbed (s : InboundPublishFlow) : Action → Prop
  | .publish packet _ write => packet.qos = .atLeastOnce ∧ write ≠ .failed
  | .resumeReader ok write => ok = true ∧ write ≠ .failed
  | .pubrel _ _ => False
  | .detach _ _ => False
  | .cancel _ => False
  | .clear => False
  | a => Uninterrupted s a

/-- The next round of a task puts its message in a queue, and `unmatched` has one of the same
topic. -/
def InboundPublishFlow.overtakes (s : InboundPublishFlow) : Action → Bool
  | .deliverNext t claim _ =>
      s.replay.tasks[t]?.any fun task =>
        match task.phase with
        | .looping unmatched (received :: _) =>
            let recipient := s.selectRecipient received claim
            !s.unready recipient && recipient.request.isNone &&
              unmatched.any fun skipped => skipped.publish.topic = received.publish.topic
        | _ => false
  | _ => false

theorem topic_ne_of_not_overtakes {t : Nat} {task : ReplayTask} {claim : Option Nat}
    {write : WriteOutcome} (h : s.overtakes (.deliverNext t claim write) = false)
    (htask : s.replay.tasks[t]? = some task)
    {unmatched pending : List Received} {received : Received}
    (hphase : task.phase = .looping unmatched (received :: pending))
    (hready : s.unready (s.selectRecipient received claim) = false)
    (hrequest : (s.selectRecipient received claim).request = none) :
    ∀ skipped ∈ unmatched, skipped.publish.topic ≠ received.publish.topic := by
  intro skipped hskipped htopic
  simp only [overtakes, htask, Option.any_some, hphase] at h
  simp only [hready, hrequest, Bool.not_false, Option.isNone_none, Bool.true_and,
    List.any_eq_false, decide_eq_true_eq] at h
  exact h skipped hskipped htopic

namespace PutsOrdered

/-- **Step lemma.** -/
theorem step (h : PutsOrdered s puts) {a : Action} (hok : Undisturbed s a)
    (hovertaking : s.overtakes a = false) (hstep : s.step a = some next) :
    PutsOrdered next (puts ++ newPuts s next) := by
  cases a with
  | publish packet claim write =>
      obtain ⟨hidle, heq⟩ := Option.ite_none_right_eq_some.mp hstep
      cases heq
      exact h.publish hidle hok.1 claim hok.2
  | pubrel packet write => exact hok.elim
  | resumeReader ok write =>
      obtain ⟨frame, hframe, rfl⟩ := Option.map_eq_some_iff.mp hstep
      rw [hok.1]
      exact h.resumeReader hframe hok.2
  | get queue =>
      obtain ⟨found, hfound, rfl⟩ := Option.map_eq_some_iff.mp hstep
      have htaken : PutsOrdered { s with queued := found.2, taken := s.taken ++ [found.1] } puts :=
        h.aside (.same rfl rfl rfl rfl)
      have hnone : newPuts s { s with queued := found.2, taken := s.taken ++ [found.1] } = [] := by
        have hlength := length_getNowait hfound
        exact List.drop_eq_nil_of_le (by simp only; omega)
      rw [hnone, List.append_nil]
      exact htaken
  | ack i =>
      obtain ⟨message, -, rfl⟩ := Option.map_eq_some_iff.mp hstep
      exact (h.aside (.ack s i message)).quiet (ack_queued s i message)
  | index op =>
      cases hstep
      have hindexed : PutsOrdered { s with subscriptions := s.subscriptions.apply op } puts :=
        h.aside (.same rfl rfl rfl rfl)
      exact hindexed.quiet rfl
  | detach filters queue => exact hok.elim
  | drain =>
      cases hstep
      unfold drain
      split
      · rename_i b hstate
        have hadded : PutsOrdered (s.setReplay (s.replay.addTask b false)) puts :=
          h.setReplay (h.views.addTask (h.views.valid.state b hstate) false) fun x hx =>
            (Replay.waits_addTask b false).mp hx
        exact hadded.quiet rfl
      · exact h.quiet rfl
  | expireReplay b =>
      obtain ⟨-, hexpire⟩ := Option.ite_none_right_eq_some.mp hstep
      have hset : ∀ f : ReplayBuffer → Expiration, PutsOrdered (s.setReplay
          (s.replay.modifyBuffer b fun buffer => { buffer with expiration := f buffer })) puts := by
        intro f
        have hsame := Replay.SameViews.setExpiration s.replay b f
        refine h.setReplay ?_ fun x hx => hsame.waits.mp hx
        exact h.views.of_same hsame rfl (h.views.valid.modifyBuffer b _) (Nat.le_refl _)
      split at hexpire
      · rename_i hstate
        cases hexpire
        have hrunning := hset fun _ => .running s.replay.tasks.length
        have hb : b < (s.replay.modifyBuffer b fun buffer =>
            { buffer with expiration := .running s.replay.tasks.length }).buffers.length := by
          rw [show (s.replay.modifyBuffer b _).buffers.length = s.replay.buffers.length from
            List.length_modify ..]
          exact h.views.valid.state b hstate
        have hadded := hrunning.setReplay (hrunning.views.addTask hb true) fun x hx =>
          (Replay.waits_addTask b true).mp hx
        exact hadded.quiet rfl
      · cases hexpire
        exact (hset fun _ => .absent).quiet rfl
  | acquireLock t =>
      obtain ⟨task, htask, hlock⟩ := Option.bind_eq_some_iff.mp hstep
      obtain ⟨⟨hphase, -, hfree⟩, heq⟩ := Option.ite_none_right_eq_some.mp hlock
      cases heq
      have hlocked := h.setReplay (h.views.acquireLock htask hphase hfree) fun x hx =>
        h.views.waits_update_of_subset htask (.inl hfree) (fun y hy => by rw [hphase]; exact hy) hx
      exact hlocked.quiet rfl
  | deliverNext t claim write =>
      obtain ⟨task, htask, hnext⟩ := Option.bind_eq_some_iff.mp hstep
      refine h.deliverNext hok htask (fun unmatched received pending hphase => ?_) hnext
      exact topic_ne_of_not_overtakes hovertaking htask hphase
  | resumeTask t ok write =>
      obtain ⟨task, htask, hnext⟩ := Option.bind_eq_some_iff.mp hstep
      exact h.resumeTask htask (hok task htask) hnext
  | cancel t => exact hok.elim
  | clear => exact hok.elim

theorem start (config : Config) : PutsOrdered (start config) [] where
  views :=
    { valid :=
        { state := fun b hb => by
            simp only [InboundPublishFlow.start] at hb
            split at hb <;> cases hb
          tasks := fun _ h => by cases h }
      sound := fun _ h => by cases h
      left := fun _ h => by cases h }
  started := Nat.one_pos
  plain := fun _ ⟨_, h, _⟩ => by cases h
  sorted := .nil
  before := fun _ h => by cases h
  arrived := fun _ h => by cases h
  reader := fun _ h => by cases h
  tasks := fun _ _ h => by cases h

end PutsOrdered

/-- **Messages of one topic are put in a queue in their order of arrival**, in every run in
which no round overtakes a skipped message. -/
theorem puts_in_arrival_order (config : Config) (actions : List Action) (r : PutRecord)
    (hundisturbed : Transition.Along PutRecord.step (fun r => Undisturbed r.flow)
      { flow := start config } actions)
    (hovertaking : Transition.Along PutRecord.step (fun r a => r.flow.overtakes a = false)
      { flow := start config } actions)
    (hrun : Transition.run PutRecord.step { flow := start config } actions = some r) :
    r.InArrivalOrder := by
  have hstep : ∀ (r : PutRecord) (a : Action) (next : PutRecord), PutsOrdered r.flow r.puts →
      Undisturbed r.flow a ∧ r.flow.overtakes a = false → r.step a = some next →
      PutsOrdered next.flow next.puts := by
    intro r a next h hok hstep
    obtain ⟨flow, hflow, rfl⟩ := Option.map_eq_some_iff.mp hstep
    exact h.step hok.1 hok.2 hflow
  have hordered : PutsOrdered r.flow r.puts :=
    Transition.invariant_along (I := fun r : PutRecord => PutsOrdered r.flow r.puts) hstep
      (PutsOrdered.start config) (hundisturbed.and hovertaking) hrun
  exact hordered.sorted.imp fun horder _ htopic => horder htopic

/-- A resumed session with room for one message in each queue. -/
def sampleSmallQueues : Config := { sessionPresent := true, maxsize := fun _ => 1 }

/-- Three messages of the topic `t` and one of `u` are held; the queue of `t` has room for
one.  A drain is suspended in the acknowledgement of the message of `u`. -/
def sampleReplay : List Action :=
  [.publish (samplePublish .atLeastOnce 1) none .done,
    .publish (samplePublish .atLeastOnce 2) none .done,
    .publish { samplePublish .atLeastOnce 3 with topic := str "u" } none .done,
    .publish (samplePublish .atLeastOnce 4) none .done,
    .index (.add (str "t") sampleEntry),
    .index (.add (str "u") { oid := 1, queue := 1 }),
    .drain, .acquireLock 0, .deliverNext 0 none .done, .deliverNext 0 none .done,
    .deliverNext 0 none .done, .deliverNext 0 none .suspended]

/-- A drain whose queue is full, and a second one after `get_message`. -/
def sampleTwoDrains : List Action :=
  [.publish (samplePublish .atLeastOnce 1) none .done,
    .publish (samplePublish .atLeastOnce 2) none .done,
    .index (.add (str "t") sampleEntry),
    .drain, .acquireLock 0, .deliverNext 0 none .done, .deliverNext 0 none .done,
    .deliverNext 0 none .done, .deliverNext 0 none .done, .get 0,
    .drain, .acquireLock 1, .deliverNext 1 none .done, .deliverNext 1 none .done]

theorem puts_in_arrival_order_two_drains :
    ∃ r, Transition.run PutRecord.step { flow := start sampleSmallQueues } sampleTwoDrains = some r ∧
      (r.puts.map fun put => (put.1, put.2.seq)) = [(0, 1), (0, 2)] ∧ r.InArrivalOrder := by
  have hrun : ∃ r, Transition.run PutRecord.step { flow := start sampleSmallQueues }
      sampleTwoDrains = some r ∧
      (r.puts.map fun put => (put.1, put.2.seq)) = [(0, 1), (0, 2)] := ⟨_, rfl, by decide⟩
  obtain ⟨r, hr, hputs⟩ := hrun
  refine ⟨r, hr, hputs, puts_in_arrival_order _ _ r ?_ (by decide) hr⟩
  have hdone : WriteOutcome.done ≠ .failed := by decide
  exact ⟨⟨rfl, hdone⟩, ⟨rfl, hdone⟩, trivial, trivial, trivial, hdone, hdone, hdone, hdone, trivial,
    trivial, trivial, hdone, hdone, trivial⟩

/-- While the drain is suspended the application takes a message, and the fourth message is
put in the queue before the second. -/
theorem puts_not_in_arrival_order :
    ¬∀ (config : Config) (actions : List Action) (r : PutRecord),
      Transition.Along PutRecord.step (fun r => Undisturbed r.flow) { flow := start config }
        actions →
      Transition.run PutRecord.step { flow := start config } actions = some r →
      r.InArrivalOrder := by
  intro h
  have hrun : ∃ r, Transition.run PutRecord.step { flow := start sampleSmallQueues }
      (sampleReplay ++ [.get 0, .resumeTask 0 true .done, .deliverNext 0 none .done,
        .deliverNext 0 none .done, .get 0, .drain, .acquireLock 1, .deliverNext 1 none .done,
        .deliverNext 1 none .done]) = some r ∧
      (r.puts.map fun put => (put.1, put.2.topic, put.2.seq)) =
        [(0, str "t", 1), (1, str "u", 3), (0, str "t", 4), (0, str "t", 2)] :=
    ⟨_, rfl, by decide⟩
  obtain ⟨r, hr, hputs⟩ := hrun
  have hdone : WriteOutcome.done ≠ .failed := by decide
  have hsuspended : WriteOutcome.suspended ≠ .failed := by decide
  have horder := h _ _ r ?_ hr
  · have hmapped : (r.puts.map fun put => (put.1, put.2.topic, put.2.seq)).Pairwise
        fun a b => a.1 = b.1 → a.2.1 = b.2.1 → a.2.2 < b.2.2 := List.pairwise_map.mpr horder
    rw [hputs] at hmapped
    exact absurd hmapped (by decide)
  · refine ⟨⟨rfl, hdone⟩, ⟨rfl, hdone⟩, ⟨rfl, hdone⟩, ⟨rfl, hdone⟩, trivial, trivial, trivial,
      trivial, hdone, hdone, hdone, hsuspended, trivial, ?_, hdone, hdone, trivial, trivial,
      trivial, hdone, hdone, trivial⟩
    intro task htask unmatched pending current hphase
    cases htask
    exact ⟨rfl, rfl⟩

end Zmqtt
