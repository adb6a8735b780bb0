import Zmqtt.CopyMoves

/-!
# The identifiers of held messages

Until `clear` every buffer of a connection keeps its books: `_packet_ids` has the identifiers
of what the buffer holds, whatever raises inside a delivery.  So a PUBLISH with the identifier
of a held message does not get past the checks, and at most one copy goes by an identifier.
-/

namespace Zmqtt

open InboundPublishFlow Tally

/-- Every buffer keeps its books. -/
structure Booked (s : InboundPublishFlow) : Prop where
  started : 0 < s.nextSeq
  views : s.replay.Views 0 (s.nextSeq - 1)

namespace Booked

variable {s next : InboundPublishFlow} {t : Nat} {task now : ReplayTask}
  {unmatched pending : List Received} {current received : Received}

/-- The replay state is the same, and no less has arrived. -/
theorem same (h : Booked s) (hreplay : next.replay = s.replay) (hseq : s.nextSeq ≤ next.nextSeq) :
    Booked next where
  started := Nat.lt_of_lt_of_le h.started hseq
  views := by
    rw [hreplay]
    exact h.views.later (by omega)

/-- A step outside the replay. -/
theorem aside (h : Booked s) (haside : Aside s next) : Booked next :=
  h.same haside.replay (Nat.le_of_eq haside.nextSeq.symm)

/-- The replay state changes, and its books are kept. -/
theorem setReplay (h : Booked s) {replay : Replay} (hviews : replay.Views 0 (s.nextSeq - 1)) :
    Booked (s.setReplay replay) :=
  ⟨h.started, hviews⟩

/-- Expiration and cancellation of tasks are not in the books. -/
theorem ofSame (h : Booked s) {replay : Replay} (hsame : Replay.SameViews s.replay replay)
    (hstate : replay.state = s.replay.state) (hvalid : replay.Valid) : Booked (s.setReplay replay) :=
  h.setReplay (h.views.of_same hsame hstate hvalid (Nat.le_refl _))

/-! ### Arrivals -/

/-- A message is held, and its identifier noted. -/
theorem hold (h : Booked s) {b : Nat} (hstate : s.replay.state = .buffered b) {last : Nat}
    (hviews : s.replay.Views 0 last) (hlast : last < received.seq)
    (hnext : s.nextSeq = received.seq + 1) :
    Booked (s.hold b (s.replay.buffer b) received).1 := by
  unfold InboundPublishFlow.hold
  split
  · exact h
  · rename_i hfresh
    split
    · exact h.same rfl (Nat.le_refl _)
    · refine ⟨h.started, ?_⟩
      change Replay.Views _ 0 (s.nextSeq - 1)
      rw [hnext]
      exact hviews.append hstate hlast hfresh fun hroom => hroom.1 rfl

/-- A message is delivered, or held in a buffer. -/
theorem route (h : Booked s) {last : Nat} (hviews : s.replay.Views 0 last)
    (hlast : last < received.seq) (hnext : s.nextSeq = received.seq + 1) (claim : Option Nat)
    (write : WriteOutcome) : Booked (s.route received claim write).1 := by
  have hheld : ∀ {held : InboundPublishFlow} {b : Nat} {buffer : ReplayBuffer},
      Booked (held.hold b buffer received).1 →
      s.selectRecipientOrBuffer received claim = held.hold b buffer received →
      Booked (s.route received claim write).1 := by
    intro held b buffer hheld heq
    obtain ⟨frame, hroute, -⟩ := route_held heq write
    rw [hroute]
    exact hheld
  rcases s.selectRecipientOrBuffer_cases received claim with
    ⟨-, heq⟩ | ⟨-, -, -, heq⟩ | ⟨b, hstate, heq⟩ | ⟨hidle, heq⟩
  · unfold InboundPublishFlow.route
    rw [heq]
    exact (h.same rfl (Nat.le_refl _) : Booked (s.emit (.routed received.seq))).aside
      (.deliverReplay s received _ write)
  · unfold InboundPublishFlow.route
    rw [heq]
    have hwarned : Booked ((s.emit (.noSubscriber received.seq)).emit (.routed received.seq)) :=
      h.same rfl (Nat.le_refl _)
    exact hwarned.aside (.deliverReplay (s.emit (.noSubscriber received.seq)) received _ write)
  · exact hheld (h.hold hstate hviews hlast hnext) heq
  · -- the buffer is new
    have hnobuffer : ∀ b, s.replay.state ≠ .buffered b := fun b hbuffered => by
      rw [hidle] at hbuffered
      cases hbuffered
    have hbuffer : (s.setReplay s.replay.addBuffer).replay.buffer s.replay.buffers.length = {} := by
      simp [InboundPublishFlow.setReplay, Replay.buffer, Replay.addBuffer]
    have hadded : Booked (s.setReplay s.replay.addBuffer) := h.setReplay (h.views.addBuffer hnobuffer)
    have hheldThere := hadded.hold rfl (hviews.addBuffer hnobuffer) hlast hnext
    rw [hbuffer] at hheldThere
    exact hheld hheldThere heq

/-- A PUBLISH arrives. -/
theorem handlePublish (h : Booked s) (packet : Publish) (claim : Option Nat)
    (write : WriteOutcome) : Booked (s.handlePublish packet claim write).1 := by
  have hreplay : (s.arrived packet).replay = s.replay := by rw [arrived_frame]
  have hseq : (s.arrived packet).nextSeq = s.nextSeq + 1 := by rw [arrived_frame]
  have harrived : Booked (s.arrived packet) := h.same hreplay (by omega)
  rcases s.handlePublish_cases packet claim write with
    ⟨-, -, heq⟩ | ⟨-, msg, heq⟩ | ⟨-, -, heq⟩ | ⟨-, -, pid, flight, -, -, heq⟩ | ⟨-, -, -, heq⟩
  · rw [heq]
    exact harrived
  · rw [heq]
    exact harrived.same rfl (Nat.le_refl _)
  · rw [heq]
    exact harrived
  · rw [heq]
    exact harrived.same rfl (Nat.le_refl _)
  · rw [heq]
    have hstarted := h.started
    have hviews : (s.arrived packet).replay.Views 0 (s.nextSeq - 1) := hreplay ▸ h.views
    have hlast : s.nextSeq - 1 < s.nextSeq := by omega
    exact harrived.route hviews hlast hseq claim write

/-- The read loop goes on. -/
theorem settleReader {x : InboundPublishFlow × Frame} (h : Booked x.1) (write : WriteOutcome) :
    Booked (InboundPublishFlow.storeReader (settle write x)) := by
  have hsettled := h.aside (.settle write x)
  generalize settle write x = y at hsettled
  obtain ⟨mid, after⟩ := y
  cases after with
  | returned => exact hsettled
  | raised e => exact hsettled.same rfl (Nat.le_refl _)
  | _ => exact hsettled.same rfl (Nat.le_refl _)

/-! ### Tasks -/

/-- A task leaves `_deliver_pending` by an exception. -/
theorem raiseFromTask (h : Booked s) (hnow : s.replay.tasks[t]? = some now)
    (hbuffer : now.buffer = task.buffer) (hinside : now.phase.inside = true)
    (hinHand : now.phase.inHand = unmatched ++ pending) :
    Booked (s.raiseFromTask t task unmatched pending) := by
  have hreleased := h.views.release hnow hinside hinHand
  rw [hbuffer] at hreleased
  have hended := hreleased.of_same (Replay.SameViews.endExpiration _ task.buffer t) rfl
    (hreleased.valid.endExpiration _ _) (Nat.le_refl _)
  unfold InboundPublishFlow.raiseFromTask
  simp only
  split
  · split
    · exact h.setReplay hended
    · exact (h.setReplay hended).same rfl (Nat.le_refl _)
  · exact h.setReplay hreleased

/-- A task discards its message with its identifier, or puts it back. -/
theorem storeTask (h : Booked s) (hnow : s.replay.tasks[t]? = some now)
    (hbuffer : now.buffer = task.buffer)
    (hphase : now.phase = .delivering unmatched pending current) (frame : Frame) :
    Booked (InboundPublishFlow.storeTask t task unmatched pending current (s, frame)) := by
  cases frame with
  | returned =>
      obtain ⟨hok, hviews⟩ := h.views.discard hnow hphase
      rw [hbuffer] at hok hviews
      simp only [InboundPublishFlow.storeTask]
      rw [if_neg (by rw [hok]; exact Bool.false_ne_true)]
      exact h.setReplay hviews
  | raised e =>
      refine h.raiseFromTask hnow hbuffer (by rw [hphase]; rfl) ?_
      rw [hphase]
      simp [ReplayPhase.inHand]
  | _ => exact h.same rfl (Nat.le_refl _)

/-- A round of `_deliver_pending`. -/
theorem deliverNext (h : Booked s) {claim : Option Nat} {write : WriteOutcome}
    (htask : s.replay.tasks[t]? = some task)
    (hnext : s.deliverNext t task claim write = some next) : Booked next := by
  rcases deliverNext_cases hnext with ⟨unmatched, hphase, -, -, rfl⟩ |
    ⟨unmatched, hphase, -, -, rfl⟩ | ⟨unmatched, hphase, rfl⟩ |
    ⟨unmatched, received, pending, hphase, rfl⟩ |
    ⟨unmatched, received, pending, hphase, -, rfl⟩
  · exact ⟨h.started, h.views.finishExpire htask hphase⟩
  · have hdrained : s.nextSeq ≤ (s.finishDrain t task.buffer unmatched).nextSeq := by
      unfold InboundPublishFlow.finishDrain
      simp only
      split <;> exact Nat.le_refl _
    have hviews := h.views.finishDrain htask hphase
    exact ⟨Nat.lt_of_lt_of_le h.started hdrained, hviews.later (by omega)⟩
  · exact h.setReplay (h.views.takeOver htask hphase)
  · refine h.setReplay (h.views.setPhase htask (by rw [hphase]; rfl) rfl ?_)
    rw [hphase]
    exact List.append_assoc ..
  · have htaken : Booked
        (s.setReplay (s.replay.setPhase t (.delivering unmatched pending received))) :=
      h.setReplay (h.views.setPhase htask (by rw [hphase]; rfl) rfl (by rw [hphase]; rfl))
    have hdelivered : Booked ((s.setReplay (s.replay.setPhase t
        (.delivering unmatched pending received))).emit (.routed received.seq)) :=
      htaken.same rfl (Nat.le_refl _)
    have haside := (Aside.deliverReplay
      (s.setReplay (s.replay.setPhase t (.delivering unmatched pending received))) received
      (s.selectRecipient received claim) write).trans (Aside.settle write
        ((s.setReplay (s.replay.setPhase t (.delivering unmatched pending received))).deliverReplay
          received (s.selectRecipient received claim) write))
    have hthere : (settle write ((s.setReplay (s.replay.setPhase t
        (.delivering unmatched pending received))).deliverReplay received
          (s.selectRecipient received claim) write)).1.replay.tasks[t]? =
        some { task with phase := .delivering unmatched pending received } := by
      rw [haside.replay]
      simp only [emit, InboundPublishFlow.setReplay, Replay.setPhase, List.getElem?_modify,
        if_true, htask]
      rfl
    exact (hdelivered.aside haside).storeTask hthere rfl rfl _

/-- A suspended task goes on. -/
theorem resumeTask (h : Booked s) {ok : Bool} {write : WriteOutcome}
    (htask : s.replay.tasks[t]? = some task)
    (hnext : s.resumeTask t task ok write = some next) : Booked next := by
  unfold InboundPublishFlow.resumeTask at hnext
  cases hphase : task.phase with
  | waiting =>
      simp only [hphase] at hnext
      obtain ⟨-, heq⟩ := Option.ite_none_right_eq_some.mp hnext
      cases heq
      have hstopped := h.views.stop htask hphase
      split
      · exact h.setReplay (hstopped.of_same (Replay.SameViews.endExpiration _ task.buffer t) rfl
          (hstopped.valid.endExpiration _ _) (Nat.le_refl _))
      · exact h.setReplay hstopped
  | looping unmatched pending => simp [hphase] at hnext
  | finished => simp [hphase] at hnext
  | delivering unmatched pending current =>
      simp only [hphase] at hnext
      obtain ⟨frame, -, rfl⟩ := Option.map_eq_some_iff.mp hnext
      have hpopped : Booked { s with frames := OrderedDict.pop s.frames (.task t) } :=
        h.same rfl (Nat.le_refl _)
      have haside := Aside.settle write ({ s with frames := OrderedDict.pop s.frames (.task t) },
        resumed frame (ok && !task.cancelRequested))
      have hthere : (settle write ({ s with frames := OrderedDict.pop s.frames (.task t) },
          resumed frame (ok && !task.cancelRequested))).1.replay.tasks[t]? = some task := by
        rw [haside.replay]
        exact htask
      exact (hpopped.aside haside).storeTask hthere rfl hphase _

/-- **Step lemma.** -/
theorem step (h : Booked s) {a : Action} (hclear : a ≠ .clear) (hstep : s.step a = some next) :
    Booked next := by
  cases a with
  | publish packet claim write =>
      obtain ⟨-, heq⟩ := Option.ite_none_right_eq_some.mp hstep
      cases heq
      exact (h.handlePublish packet claim write).settleReader write
  | pubrel packet write =>
      obtain ⟨-, heq⟩ := Option.ite_none_right_eq_some.mp hstep
      cases heq
      exact (h.aside (.handlePubrel s packet write)).settleReader write
  | resumeReader ok write =>
      obtain ⟨frame, -, rfl⟩ := Option.map_eq_some_iff.mp hstep
      exact settleReader (x := ({ s with frames := OrderedDict.pop s.frames .reader },
        resumed frame ok)) (h.same rfl (Nat.le_refl _)) write
  | get queue =>
      obtain ⟨found, -, rfl⟩ := Option.map_eq_some_iff.mp hstep
      exact h.same rfl (Nat.le_refl _)
  | ack i =>
      obtain ⟨message, -, rfl⟩ := Option.map_eq_some_iff.mp hstep
      exact h.aside (.ack s i message)
  | index op =>
      cases hstep
      exact h.same rfl (Nat.le_refl _)
  | detach filters queue =>
      cases hstep
      exact h.same rfl (Nat.le_refl _)
  | drain =>
      cases hstep
      unfold drain
      split
      · rename_i b hstate
        exact h.setReplay (h.views.addTask (h.views.valid.state b hstate) false)
      · exact h
  | expireReplay b =>
      simp only [InboundPublishFlow.step, expireReplay] at hstep
      split at hstep
      · have hsame := fun expiration => Replay.SameViews.setExpiration s.replay b
          fun _ => (expiration : Expiration)
        split at hstep
        · rename_i hstate
          cases hstep
          have hrunning := h.views.of_same (hsame (.running s.replay.tasks.length)) rfl
            (h.views.valid.modifyBuffer b _) (Nat.le_refl _)
          refine h.setReplay (hrunning.addTask ?_ true)
          rw [(hsame _).length]
          exact h.views.valid.state b hstate
        · cases hstep
          exact h.ofSame (hsame .absent) rfl (h.views.valid.modifyBuffer b _)
      · cases hstep
  | acquireLock t =>
      obtain ⟨task, htask, hlock⟩ := Option.bind_eq_some_iff.mp hstep
      obtain ⟨⟨hphase, -, hfree⟩, heq⟩ := Option.ite_none_right_eq_some.mp hlock
      cases heq
      exact h.setReplay (h.views.acquireLock htask hphase hfree)
  | deliverNext t claim write =>
      obtain ⟨task, htask, hnext⟩ := Option.bind_eq_some_iff.mp hstep
      exact h.deliverNext htask hnext
  | resumeTask t ok write =>
      obtain ⟨task, htask, hnext⟩ := Option.bind_eq_some_iff.mp hstep
      exact h.resumeTask htask hnext
  | cancel t =>
      obtain ⟨-, heq⟩ := Option.ite_none_right_eq_some.mp hstep
      cases heq
      exact h.ofSame (Replay.SameViews.cancel s.replay t) rfl (h.views.valid.cancel t)
  | clear => exact absurd rfl hclear

/-! ### Identifiers -/

/-- Every held message is in the books of the buffer that the flow has. -/
theorem containsPacketId (h : Booked s) {b : Nat} (hb : b < s.replay.buffers.length)
    (hheld : received ∈ (s.replay.view 0 (s.nextSeq - 1) b).held) {pid : Int}
    (hpid : received.publish.packetId = some pid) : s.replay.containsPacketId pid = true := by
  have hstate : s.replay.state = .buffered b := by
    by_contra hne
    rw [h.views.left b hb hne] at hheld
    exact List.not_mem_nil hheld
  have hbooks := ((h.views.sound b hb).books.packetIds pid).mpr ⟨received, hheld, hpid⟩
  unfold Replay.containsPacketId
  rw [hstate]
  exact decide_eq_true hbooks

/-- A message with a known identifier is not held twice. -/
theorem knowsHeld (h : Booked s) : SingleCopies.KnowsHeld s := by
  intro pid hunknown
  have hnone : ∀ {b : Nat}, b < s.replay.buffers.length →
      ∀ received ∈ (s.replay.view 0 (s.nextSeq - 1) b).held,
        flowWeight (byId pid) received.flow = 0 := by
    intro b hb received hheld
    have hother : ∀ c, received.flow = some c → byId pid c = 0 := by
      intro c hc
      obtain ⟨-, hmap⟩ := Option.ite_none_right_eq_some.mp hc
      obtain ⟨other, hother, rfl⟩ := Option.map_eq_some_iff.mp hmap
      refine if_neg fun heq => ?_
      have hcontains := h.containsPacketId hb hheld hother
      rw [show other = pid from heq, hunknown] at hcontains
      cases hcontains
    cases hflow : received.flow with
    | none => rfl
    | some c => exact hother c hflow
  have hbuffers : tally (fun buffer => tally (fun received => flowWeight (byId pid) received.flow)
      buffer.publishes) s.replay.buffers = 0 := by
    refine tally_eq_zero _ fun buffer hbuffer => tally_eq_zero _ fun received hreceived => ?_
    obtain ⟨b, hb⟩ := List.getElem?_of_mem hbuffer
    have hlt := (List.getElem?_eq_some_iff.mp hb).1
    refine hnone hlt received (List.mem_append_right _ ?_)
    rwa [show (s.replay.view 0 (s.nextSeq - 1) b).buffer = buffer by
      simp [Replay.view, Replay.buffer, hb]]
  have hinHand : ∀ task ∈ s.replay.tasks, ∀ received ∈ task.phase.inHand,
      flowWeight (byId pid) received.flow = 0 := by
    intro task htask received hreceived
    obtain ⟨t, ht⟩ := List.getElem?_of_mem htask
    refine hnone (h.views.valid.tasks task htask) received (List.mem_append_left _ ?_)
    have hview : (s.replay.view 0 (s.nextSeq - 1) task.buffer).tasks[t]? = some task :=
      Replay.getElem?_view ht rfl
    exact List.mem_flatMap.mpr ⟨task, List.mem_of_getElem? hview, hreceived⟩
  have htasks : tally (fun task : ReplayTask => task.phase.tally
      fun received => flowWeight (byId pid) received.flow) s.replay.tasks = 0 := by
    refine tally_eq_zero _ fun task htask => ?_
    have hzero := hinHand task htask
    cases hphase : task.phase with
    | waiting => rfl
    | finished => rfl
    | looping unmatched pending =>
        rw [hphase] at hzero
        have hall := tally_eq_zero _ hzero
        rwa [ReplayPhase.inHand, tally_append] at hall
    | delivering unmatched pending current =>
        rw [hphase] at hzero
        have hall := tally_eq_zero _ hzero
        rw [ReplayPhase.inHand, tally_append, tally_cons] at hall
        simp only [ReplayPhase.tally]
        omega
  have hdelivery : s.replay.inDelivery (byId pid) = 0 := by
    refine tally_eq_zero _ fun task htask => ?_
    cases hphase : task.phase with
    | delivering unmatched pending current =>
        refine hinHand task htask current ?_
        rw [hphase]
        exact List.mem_append_right _ List.mem_cons_self
    | _ => rfl
  unfold Replay.copies Replay.held
  omega

theorem start (config : Config) : Booked (start config) where
  started := Nat.one_pos
  views :=
    { valid :=
        { state := fun b hb => by
            simp only [InboundPublishFlow.start] at hb
            split at hb <;> cases hb
          tasks := fun _ h => by cases h }
      sound := fun b hb => absurd hb (Nat.not_lt_zero b)
      left := fun b hb _ => absurd hb (Nat.not_lt_zero b) }

end Booked

end Zmqtt
