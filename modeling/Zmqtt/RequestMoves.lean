import Zmqtt.RequestPhases

/-!
# The moves of a request

What a step of one call does to `_pending`, to `_topics` and to the observer tasks, said
once for every step: a request joins its topic, is opened, leaves, settles the topic or
gives it up.  The topic of the call is the only one that changes.
-/

namespace Zmqtt

/-- The call is inside `remove_response_observer`. -/
def RequestPhase.isRemoving : RequestPhase → Bool
  | .removing _ => true
  | _ => false

namespace RequestDispatcher

variable {d d' : RequestDispatcher} {c : Nat} {call : RequestCall}

/-- The observer task of a topic. -/
def readyOf (d : RequestDispatcher) (topic : Str) : Option Nat :=
  (OrderedDict.get d.topics topic).bind fun i => (d.interest i).ready

/-- The call has returned or raised. -/
def isFinished : RequestPhase → Bool
  | .returned => true
  | .raised _ => true
  | _ => false

/-- The topic is as before. -/
structure TopicKept (d d' : RequestDispatcher) (topic : Str) : Prop where
  topics : OrderedDict.get d'.topics topic = OrderedDict.get d.topics topic
  ready : d'.readyOf topic = d.readyOf topic

/-- The task that a new request awaits: that of the listed topic, or a new one. -/
def JoinedTask (d d' : RequestDispatcher) (topic : Str) (t : Nat) : Prop :=
  (d.readyOf topic = some t ∧ d'.readyTasks = d.readyTasks ∧
    OrderedDict.get d'.topics topic = OrderedDict.get d.topics topic) ∨
  (d.readyOf topic = none ∧ t = d.readyTasks.length ∧
    (∃ protocol, d'.readyTasks = d.readyTasks ++ [ReadyTask.mk topic protocol none]) ∧
    (OrderedDict.get d'.topics topic = OrderedDict.get d.topics topic ∨
      ∀ i, OrderedDict.get d'.topics topic = some i → d.interests.length ≤ i))

/-- What becomes of the topic of a request that has left: other requests use it, or the
call waits for its task, or gives it up. -/
inductive Leaving (d d' : RequestDispatcher) (call : RequestCall) : RequestPhase → Prop
  | kept {phase : RequestPhase} (hphase : isFinished phase = true)
      (hkept : TopicKept d d' call.key.1) : Leaving d d' call phase
  | settles {i t : Nat} {error : Option RequestError}
      (hget : OrderedDict.get d.topics call.key.1 = some i) (hkept : TopicKept d d' call.key.1)
      (hready : d.readyOf call.key.1 = some t) (houtcome : d.outcome t = none) :
      Leaving d d' call (.settling i t error)
  | dropped {phase : RequestPhase}
      (hphase : (isFinished phase = true ∧
          ∀ t, d.readyOf call.key.1 = some t → d.outcome t = some false) ∨
        ((∃ error, phase = .removing error) ∧
          ∃ t, d.readyOf call.key.1 = some t ∧ d.outcome t = some true))
      (hfree : ∀ key : RequestKey, key.1 = call.key.1 → OrderedDict.get d'.pending key = none)
      (hgone : OrderedDict.get d'.topics call.key.1 = none) : Leaving d d' call phase

/-- What becomes of the request and the topic of a call that goes to a phase. -/
inductive Move (d d' : RequestDispatcher) (call : RequestCall) : RequestPhase → Prop
  | finished {phase : RequestPhase} (hphase : isFinished phase = true)
      (hrequest : ∀ r, call.phase.request? = some r → OrderedDict.get d.pending call.key ≠ some r)
      (hpending : OrderedDict.get d'.pending call.key = OrderedDict.get d.pending call.key)
      (hkept : TopicKept d d' call.key.1) (htasks : d'.readyTasks = d.readyTasks) :
      Move d d' call phase
  | joined {phase : RequestPhase} {r t : Nat}
      (hphase : (phase = .subscribing r t ∧ d'.outcome t = none) ∨
        (phase = .registered r ∧ d'.outcome t = some true))
      (hfree : OrderedDict.get d.pending call.key = none)
      (hpending : OrderedDict.get d'.pending call.key = some r)
      (hready : d'.readyOf call.key.1 = some t)
      (htask : JoinedTask d d' call.key.1 t) : Move d d' call phase
  | opened {r t : Nat} (hphase : call.phase = .subscribing r t) (houtcome : d.outcome t = some true)
      (hpending : OrderedDict.get d'.pending call.key = OrderedDict.get d.pending call.key)
      (hkept : TopicKept d d' call.key.1) (htasks : d'.readyTasks = d.readyTasks) :
      Move d d' call (.registered r)
  | left {phase : RequestPhase} (hown : call.phase.request?.isSome = true)
      (hpending : OrderedDict.get d'.pending call.key = none) (hleaving : Leaving d d' call phase)
      (htasks : d'.readyTasks = d.readyTasks) : Move d d' call phase
  | settled {phase : RequestPhase} (hown : call.phase.request? = none)
      (hstays : call.phase.isRemoving = false)
      (hpending : OrderedDict.get d'.pending call.key = OrderedDict.get d.pending call.key)
      (hleaving : Leaving d d' call phase) (htasks : d'.readyTasks = d.readyTasks) :
      Move d d' call phase

/-- What a step of one call leaves as it is. -/
structure Carried (c : Nat) (call : RequestCall) (d d' : RequestDispatcher) (phase : RequestPhase) :
    Prop where
  calls : d'.calls = (d.setPhase c phase).calls
  protocol : d'.protocol = d.protocol
  pending : ∀ key, key ≠ call.key → OrderedDict.get d'.pending key = OrderedDict.get d.pending key
  topics : ∀ topic, topic ≠ call.key.1 → TopicKept d d' topic

/-- A step of one call. -/
structure Moves (c : Nat) (call : RequestCall) (d d' : RequestDispatcher) (phase : RequestPhase) :
    Prop extends Carried c call d d' phase where
  move : Move d d' call phase

theorem TopicKept.refl (d : RequestDispatcher) (topic : Str) : TopicKept d d topic := ⟨rfl, rfl⟩

/-- A refcount changes. -/
theorem ready_modifyInterest {f : TopicInterest → TopicInterest}
    (hf : ∀ interest, (f interest).ready = interest.ready) (i j : Nat) :
    ((d.modifyInterest i f).interest j).ready = (d.interest j).ready := by
  unfold modifyInterest interest
  simp only [List.getElem?_modify]
  cases d.interests[j]? with
  | none => rfl
  | some found =>
      by_cases hij : i = j
      · simp [hij, hf]
      · simp [hij]

theorem TopicKept.modifyInterest {f : TopicInterest → TopicInterest}
    (hf : ∀ interest, (f interest).ready = interest.ready) (i : Nat) (topic : Str) :
    TopicKept d (d.modifyInterest i f) topic := by
  refine ⟨rfl, ?_⟩
  unfold readyOf
  simp only [ready_modifyInterest hf]
  rfl

theorem isFinished_elim (error : Option RequestError) :
    isFinished (error.elim .returned .raised) = true := by
  cases error <;> rfl

theorem TopicKept.trans {mid : RequestDispatcher} {topic : Str} (h : TopicKept d mid topic)
    (h' : TopicKept mid d' topic) : TopicKept d d' topic :=
  ⟨h'.topics.trans h.topics, h'.ready.trans h.ready⟩

/-- A topic other than the deleted one. -/
theorem TopicKept.pop {topic other : Str} (hne : other ≠ topic) :
    TopicKept d { d with topics := OrderedDict.pop d.topics topic } other := by
  have hget : OrderedDict.get (OrderedDict.pop d.topics topic) other =
      OrderedDict.get d.topics other := by
    rw [OrderedDict.get_pop, if_neg hne.symm]
  refine ⟨hget, ?_⟩
  unfold readyOf
  rw [hget]
  rfl

/-! ## Leaving -/

/-- Seen from a state that differs in the request of the call only. -/
structure Left (call : RequestCall) (d left : RequestDispatcher) : Prop where
  calls : left.calls = d.calls
  protocol : left.protocol = d.protocol
  pending : ∀ key, key ≠ call.key → OrderedDict.get left.pending key = OrderedDict.get d.pending key
  topics : ∀ topic, TopicKept d left topic
  tasks : left.readyTasks = d.readyTasks

theorem Left.refl (call : RequestCall) (d : RequestDispatcher) : Left call d d :=
  ⟨rfl, rfl, fun _ _ => rfl, fun topic => TopicKept.refl d topic, rfl⟩

/-- The call finishes, and nothing else changes. -/
theorem Left.finish {left : RequestDispatcher} (h : Left call d left)
    (error : Option RequestError) :
    Carried c call d (left.release.finish c error) (error.elim .returned .raised) where
  calls := by
    show left.calls.modify c _ = _
    rw [h.calls]
    rfl
  protocol := h.protocol
  pending := h.pending
  topics topic _ := ⟨(h.topics topic).topics, (h.topics topic).ready⟩

theorem same_dropInterest (c : Nat) (topic : Str) (i : Nat) (observerActive : Bool)
    (error : Option RequestError) :
    (d.dropInterest c topic i observerActive error).pending = d.pending ∧
      (d.dropInterest c topic i observerActive error).readyTasks = d.readyTasks := by
  unfold dropInterest
  dsimp only
  split
  · split <;> exact ⟨rfl, rfl⟩
  · exact ⟨rfl, rfl⟩

/-- The call gives its topic up. -/
theorem Left.dropInterest {left : RequestDispatcher} (h : Left call d left) {i : Nat}
    (hinterests : Interests (some i) left) (hprotocol : d.protocol.isSome = true)
    (hzero : (left.interest i).refcount = 0)
    (hget : OrderedDict.get left.topics call.key.1 = some i) (observerActive : Bool)
    (error : Option RequestError)
    (houtcome : if observerActive then ∃ t, d.readyOf call.key.1 = some t ∧ d.outcome t = some true
      else ∀ t, d.readyOf call.key.1 = some t → d.outcome t = some false) :
    ∃ phase, Carried c call d (left.dropInterest c call.key.1 i observerActive error) phase ∧
      Leaving d (left.dropInterest c call.key.1 i observerActive error) call phase := by
  have hcount := interest_refcount (hinterests.counted _ _ hget)
  have hnone : left.onTopic call.key.1 = 0 := by omega
  have hfree : ∀ key : RequestKey, key.1 = call.key.1 →
      OrderedDict.get left.pending key = none := by
    intro key hkey
    rw [OrderedDict.get_eq_none_iff]
    intro hmem
    exact onTopic_eq_zero.mp hnone key hmem hkey
  have hgone : OrderedDict.get (OrderedDict.pop left.topics call.key.1) call.key.1 = none := by
    rw [OrderedDict.get_pop, if_pos rfl]
  have hsome : left.protocol.isSome = true := h.protocol ▸ hprotocol
  unfold RequestDispatcher.dropInterest
  rw [if_pos ⟨hzero, hget⟩]
  have hcalls : ∀ phase, (RequestDispatcher.setPhase
      { left with topics := OrderedDict.pop left.topics call.key.1 } c phase).calls =
        (d.setPhase c phase).calls := by
    intro phase
    show left.calls.modify c _ = _
    rw [h.calls]
    rfl
  have hothers : ∀ topic, topic ≠ call.key.1 → TopicKept d
      { left with topics := OrderedDict.pop left.topics call.key.1 } topic :=
    fun topic hne => (h.topics topic).trans (TopicKept.pop hne)
  cases observerActive with
  | true =>
      rw [if_pos (by simp [hsome])]
      refine ⟨.removing error, ⟨hcalls _, h.protocol, h.pending, fun topic hne =>
        ⟨(hothers topic hne).topics, (hothers topic hne).ready⟩⟩, ?_⟩
      exact .dropped (.inr ⟨⟨error, rfl⟩, houtcome⟩) hfree hgone
  | false =>
      rw [if_neg (by simp)]
      refine ⟨error.elim .returned .raised, ⟨hcalls _, h.protocol, h.pending, fun topic hne =>
        ⟨(hothers topic hne).topics, (hothers topic hne).ready⟩⟩, ?_⟩
      exact .dropped (.inl ⟨isFinished_elim error, houtcome⟩) hfree hgone

/-- The request is removed from `_pending` and from its topic. -/
theorem left_remove (call : RequestCall) (r i : Nat) :
    Left call d ((d.remove call.key r).modifyInterest i fun interest =>
      { interest with refcount := interest.refcount - 1 }) ∧
    OrderedDict.get ((d.remove call.key r).modifyInterest i fun interest =>
      { interest with refcount := interest.refcount - 1 }).pending call.key = none := by
  refine ⟨⟨rfl, rfl, fun key hne => ?_, fun topic => ?_, rfl⟩, ?_⟩
  · show OrderedDict.get (OrderedDict.pop d.pending call.key) key = _
    rw [OrderedDict.get_pop, if_neg hne.symm]
  · have hkept := TopicKept.modifyInterest (d := d.remove call.key r)
      (f := fun interest => { interest with refcount := interest.refcount - 1 }) (fun _ => rfl) i
      topic
    exact ⟨hkept.topics, hkept.ready⟩
  · show OrderedDict.get (OrderedDict.pop d.pending call.key) call.key = none
    rw [OrderedDict.get_pop, if_pos rfl]

/-- A pending request leaves. -/
theorem leaving_unregister (hinterests : Interests none d) (hprotocol : d.protocol.isSome = true)
    {r : Nat} (hget : OrderedDict.get d.pending call.key = some r) (error : Option RequestError) :
    ∃ phase, Carried c call d (d.unregister c call.key r error) phase ∧
      OrderedDict.get (d.unregister c call.key r error).pending call.key = none ∧
      (d.unregister c call.key r error).readyTasks = d.readyTasks ∧
      Leaving d (d.unregister c call.key r error) call phase := by
  have hlisted := hinterests.listed call.key ((OrderedDict.mem_keys_iff _ _).mpr ⟨r, hget⟩)
  obtain ⟨i, hi⟩ := (OrderedDict.mem_keys_iff _ _).mp hlisted
  have htopics : (d.remove call.key r).topics = d.topics := rfl
  have hremoved := hinterests.removed hget hi
  obtain ⟨hleft, hpending⟩ := left_remove (d := d) call r i
  unfold unregister
  rw [if_neg (not_not.mpr hget)]
  simp only [htopics, hi]
  generalize (d.remove call.key r).modifyInterest i _ = left at *
  have houtcome : left.outcome = d.outcome := by
    funext t
    unfold outcome
    rw [hleft.tasks]
  have hi' : OrderedDict.get left.topics call.key.1 = some i := (hleft.topics _).topics.trans hi
  have hready : d.readyOf call.key.1 = (left.interest i).ready := by
    rw [← (hleft.topics call.key.1).ready]
    unfold readyOf
    rw [hi']
    rfl
  have hcount := interest_refcount (hremoved.counted _ _ hi')
  split
  · exact ⟨_, hleft.finish error, hpending, hleft.tasks, .kept (isFinished_elim error)
      ⟨(hleft.topics _).topics, (hleft.topics _).ready⟩⟩
  · rename_i hlast
    have hzero : (left.interest i).refcount = 0 := by omega
    have hdrop : ∀ observerActive error,
        (if observerActive then ∃ t, d.readyOf call.key.1 = some t ∧ d.outcome t = some true
          else ∀ t, d.readyOf call.key.1 = some t → d.outcome t = some false) →
        ∃ phase, Carried c call d (left.dropInterest c call.key.1 i observerActive error) phase ∧
          OrderedDict.get (left.dropInterest c call.key.1 i observerActive error).pending call.key =
            none ∧
          (left.dropInterest c call.key.1 i observerActive error).readyTasks = d.readyTasks ∧
          Leaving d (left.dropInterest c call.key.1 i observerActive error) call phase := by
      intro observerActive error houtcome
      obtain ⟨phase, hcarried, hleaving⟩ := hleft.dropInterest (c := c) hremoved hprotocol hzero hi'
        observerActive error houtcome
      have hsame := same_dropInterest (d := left) c call.key.1 i observerActive error
      refine ⟨phase, hcarried, ?_, hsame.2.trans hleft.tasks, hleaving⟩
      rw [hsame.1]
      exact hpending
    rw [houtcome]
    split
    · rename_i hnone
      refine hdrop false error fun t ht => ?_
      rw [hready, hnone] at ht
      cases ht
    · rename_i ready hsome
      rw [hsome] at hready
      split
      · rename_i hnone
        refine ⟨.settling i ready error, ⟨?_, hleft.protocol, hleft.pending, fun topic _ =>
          ⟨(hleft.topics topic).topics, (hleft.topics topic).ready⟩⟩, hpending, hleft.tasks, ?_⟩
        · show left.calls.modify c _ = _
          rw [hleft.calls]
          rfl
        · exact .settles hi ⟨(hleft.topics _).topics, (hleft.topics _).ready⟩ hready hnone
      · rename_i htrue
        exact hdrop true error ⟨ready, hready, htrue⟩
      · rename_i hfalse
        refine hdrop false _ fun t ht => ?_
        rw [hready] at ht
        cases ht
        exact hfalse

/-- The request of a call leaves. -/
theorem moves_unregister (hinterests : Interests none d) (hprotocol : d.protocol.isSome = true)
    {r : Nat} (hr : call.phase.request? = some r) (error : Option RequestError) :
    ∃ phase, Moves c call d (d.unregister c call.key r error) phase := by
  by_cases hget : OrderedDict.get d.pending call.key = some r
  · obtain ⟨phase, hcarried, hpending, htasks, hleaving⟩ :=
      leaving_unregister (c := c) hinterests hprotocol hget error
    exact ⟨phase, hcarried, .left (by rw [hr]; rfl) hpending hleaving htasks⟩
  · refine ⟨error.elim .returned .raised, ⟨?_, ?_, fun key _ => ?_, fun topic _ => ?_⟩, ?_⟩
    all_goals unfold unregister; rw [if_pos hget]
    · rfl
    · rfl
    · rfl
    · exact ⟨rfl, rfl⟩
    · refine .finished (isFinished_elim error) (fun r' hr' => ?_) rfl ⟨rfl, rfl⟩ rfl
      rw [hr] at hr'
      cases hr'
      exact hget

/-! ## Joining -/

/-- The topic has an interest, which may be new. -/
theorem findInterest_ready (hinterests : Interests none d) (topic : Str) :
    (∀ other, other ≠ topic → TopicKept d (d.findInterest topic).1 other) ∧
      ((d.findInterest topic).1.interest (d.findInterest topic).2).ready = d.readyOf topic ∧
      ((d.readyOf topic).isSome → (d.findInterest topic).1 = d) ∧
      (OrderedDict.get (d.findInterest topic).1.topics topic = OrderedDict.get d.topics topic ∨
        (d.findInterest topic).2 = d.interests.length) := by
  unfold findInterest
  cases hget : OrderedDict.get d.topics topic with
  | some i =>
      refine ⟨fun other _ => TopicKept.refl d other, ?_, fun _ => rfl, .inl hget⟩
      unfold readyOf
      rw [hget]
      rfl
  | none =>
      have hnone : d.readyOf topic = none := by
        unfold readyOf
        rw [hget]
        rfl
      refine ⟨fun other hne => ?_, ?_, fun hsome => ?_, .inr rfl⟩
      · have hsame : OrderedDict.get (OrderedDict.set d.topics topic d.interests.length) other =
            OrderedDict.get d.topics other := by
          rw [OrderedDict.get_set, if_neg hne.symm]
        refine ⟨hsame, ?_⟩
        unfold readyOf
        rw [hsame]
        cases hother : OrderedDict.get d.topics other with
        | none => rfl
        | some j =>
            have hlt := lt_of_refcount (hinterests.counted _ _ hother)
            show (((d.interests ++ [({} : TopicInterest)])[j]?).getD {}).ready = _
            rw [List.getElem?_append_left hlt]
            rfl
      · rw [hnone]
        show (((d.interests ++ [({} : TopicInterest)])[d.interests.length]?).getD {}).ready = none
        simp
      · rw [hnone] at hsome
        cases hsome

/-- The interest of a topic has a task, which may be new. -/
theorem ensureTopicReady_ready {topic : Str} {i : Nat}
    (hget : OrderedDict.get d.topics topic = some i) (hlt : i < d.interests.length)
    (hsingle : ∀ other, OrderedDict.get d.topics other = some i → other = topic) (protocol : Nat) :
    (∀ other, other ≠ topic → TopicKept d (d.ensureTopicReady topic i protocol).1 other) ∧
      (d.ensureTopicReady topic i protocol).1.readyOf topic =
        some (d.ensureTopicReady topic i protocol).2 ∧
      ((d.readyOf topic = some (d.ensureTopicReady topic i protocol).2 ∧
          (d.ensureTopicReady topic i protocol).1 = d) ∨
        (d.readyOf topic = none ∧ (d.ensureTopicReady topic i protocol).2 = d.readyTasks.length ∧
          (d.ensureTopicReady topic i protocol).1.readyTasks =
            d.readyTasks ++ [ReadyTask.mk topic protocol none])) := by
  have hreadyOf : d.readyOf topic = (d.interest i).ready := by
    unfold readyOf
    rw [hget]
    rfl
  unfold ensureTopicReady
  cases hready : (d.interest i).ready with
  | some ready =>
      rw [hready] at hreadyOf
      exact ⟨fun other _ => TopicKept.refl d other, hreadyOf, .inl ⟨hreadyOf, rfl⟩⟩
  | none =>
      rw [hready] at hreadyOf
      refine ⟨fun other hne => ⟨rfl, ?_⟩, ?_, .inr ⟨hreadyOf, rfl, rfl⟩⟩
      · unfold readyOf
        cases hother : OrderedDict.get d.topics other with
        | none =>
            show (OrderedDict.get d.topics other).bind _ = _
            rw [hother]
            rfl
        | some j =>
            have hij : i ≠ j := fun heq => hne (hsingle other (heq ▸ hother))
            show (OrderedDict.get d.topics other).bind _ = _
            rw [hother]
            show (((d.interests.modify i _)[j]?).getD {}).ready = _
            rw [List.getElem?_modify_ne _ _ hij]
            rfl
      · unfold readyOf
        show (OrderedDict.get d.topics topic).bind _ = _
        rw [hget]
        show (((d.interests.modify i _)[i]?).getD {}).ready = _
        rw [List.getElem?_modify_eq, List.getElem?_eq_getElem hlt]
        rfl

/-- A request has joined its topic and awaits the task `t`. -/
structure Joined (call : RequestCall) (d awaited : RequestDispatcher) (r t : Nat) : Prop where
  calls : awaited.calls = d.calls
  protocol : awaited.protocol = d.protocol
  pending : ∀ key, key ≠ call.key →
    OrderedDict.get awaited.pending key = OrderedDict.get d.pending key
  registered : OrderedDict.get awaited.pending call.key = some r
  topics : ∀ topic, topic ≠ call.key.1 → TopicKept d awaited topic
  ready : awaited.readyOf call.key.1 = some t
  task : JoinedTask d awaited call.key.1 t
  interests : Interests none awaited

theorem joined_enter (hinterests : Interests none d)
    (hfree : OrderedDict.get d.pending call.key = none) (protocol : Nat) :
    Joined call d
      (((d.findInterest call.key.1).1.add call.key (d.findInterest call.key.1).2).ensureTopicReady
        call.key.1 (d.findInterest call.key.1).2 protocol).1
      d.requests.length
      (((d.findInterest call.key.1).1.add call.key (d.findInterest call.key.1).2).ensureTopicReady
        call.key.1 (d.findInterest call.key.1).2 protocol).2 := by
  obtain ⟨hfound, htopic⟩ := hinterests.findInterest call.key.1
  obtain ⟨hfoundcalls, -, hfoundpending, -⟩ := same_findInterest (s := d) call.key.1
  obtain ⟨hfoundothers, hfoundready, hfoundsame, hfoundnew⟩ :=
    findInterest_ready hinterests call.key.1
  have hfoundfields : (d.findInterest call.key.1).1.protocol = d.protocol ∧
      (d.findInterest call.key.1).1.requests = d.requests ∧
      (d.findInterest call.key.1).1.readyTasks = d.readyTasks := by
    unfold findInterest
    split <;> exact ⟨rfl, rfl, rfl⟩
  obtain ⟨hfoundprotocol, hfoundrequests, hfoundtasks⟩ := hfoundfields
  generalize d.findInterest call.key.1 = found at *
  have hfree' : OrderedDict.get found.1.pending call.key = none := hfoundpending ▸ hfree
  have hadded := hfound.add hfree' htopic
  -- the refcount of the interest does not change its task
  have haddedkept : ∀ topic, TopicKept found.1 (found.1.add call.key found.2) topic := by
    intro topic
    have hkept := TopicKept.modifyInterest (d := found.1)
      (f := fun interest => { interest with refcount := interest.refcount + 1 }) (fun _ => rfl)
      found.2 topic
    exact ⟨hkept.topics, hkept.ready⟩
  have haddedready : (found.1.add call.key found.2).readyOf call.key.1 = d.readyOf call.key.1 := by
    rw [(haddedkept call.key.1).ready, ← hfoundready]
    unfold readyOf
    rw [htopic]
    rfl
  have haddedtopic : OrderedDict.get (found.1.add call.key found.2).topics call.key.1 =
      some found.2 := htopic
  have hlt := lt_of_refcount (hadded.counted _ _ haddedtopic)
  obtain ⟨hothers, hready, htask⟩ := ensureTopicReady_ready haddedtopic hlt
    (fun other hother => hadded.single _ _ _ hother haddedtopic) protocol
  have hreadyInterests := hadded.ensureTopicReady call.key.1 found.2 protocol
  have hsame :=
    same_ensureTopicReady (s := found.1.add call.key found.2) call.key.1 found.2 protocol
  have hfields :
      ((found.1.add call.key found.2).ensureTopicReady call.key.1 found.2 protocol).1.pending =
        (found.1.add call.key found.2).pending ∧
      ((found.1.add call.key found.2).ensureTopicReady call.key.1 found.2 protocol).1.protocol =
        found.1.protocol ∧
      ((found.1.add call.key found.2).ensureTopicReady call.key.1 found.2 protocol).1.topics =
        found.1.topics := by
    unfold RequestDispatcher.ensureTopicReady
    split <;> exact ⟨rfl, rfl, rfl⟩
  generalize (found.1.add call.key found.2).ensureTopicReady call.key.1 found.2 protocol =
    awaited at *
  have hpending : ∀ key, OrderedDict.get awaited.1.pending key =
      if call.key = key then some d.requests.length else OrderedDict.get d.pending key := by
    intro key
    rw [hfields.1, ← hfoundrequests, ← hfoundpending]
    exact OrderedDict.get_set ..
  refine ⟨hsame.1.trans hfoundcalls, hfields.2.1.trans hfoundprotocol, fun key hne => ?_, ?_,
    fun topic hne => ?_, hready, ?_, hreadyInterests⟩
  · rw [hpending, if_neg hne.symm]
  · rw [hpending, if_pos rfl]
  · exact ((hfoundothers topic hne).trans (haddedkept topic)).trans (hothers topic hne)
  · rw [haddedready] at htask
    rcases htask with ⟨hold, hsameTasks⟩ | ⟨hnone, hlength, hnew⟩
    · refine .inl ⟨hold, ?_, ?_⟩
      · rw [hsameTasks]
        exact hfoundtasks
      · rw [hsameTasks]
        show OrderedDict.get found.1.topics call.key.1 = _
        rw [hfoundsame (by rw [hold]; rfl)]
    · refine .inr ⟨hnone, ?_, ⟨protocol, ?_⟩, ?_⟩
      · rw [hlength]
        exact congrArg List.length hfoundtasks
      · rw [hnew]
        exact congrArg (· ++ _) hfoundtasks
      · rw [hfields.2.2]
        refine hfoundnew.imp_right fun hindex i hi => ?_
        rw [htopic, hindex] at hi
        exact Nat.le_of_eq (Option.some_inj.mp hi)

theorem outcome_append (tasks : List ReadyTask) (topic : Str) (protocol : Nat)
    (h : d.readyTasks = tasks ++ [ReadyTask.mk topic protocol none]) :
    d.outcome tasks.length = none := by
  unfold outcome
  rw [h]
  simp

/-- The task had failed before: the request leaves at once. -/
theorem Joined.unregister {awaited : RequestDispatcher} {r t : Nat} (h : Joined call d awaited r t)
    (hphase : call.phase = .acquiring) (hprotocol : d.protocol.isSome = true)
    (hfree : OrderedDict.get d.pending call.key = none) (hfailed : awaited.outcome t = some false)
    (error : Option RequestError) :
    ∃ phase, Moves c call d (awaited.unregister c call.key r error) phase := by
  obtain ⟨phase, hcarried, hgone, htasks, hleaving⟩ := leaving_unregister (c := c) h.interests
    (h.protocol ▸ hprotocol) h.registered error
  -- a new task has not failed, so the task and the topic are old ones
  have hold : d.readyOf call.key.1 = some t ∧ awaited.readyTasks = d.readyTasks ∧
      OrderedDict.get awaited.topics call.key.1 = OrderedDict.get d.topics call.key.1 := by
    rcases h.task with hold | ⟨-, rfl, ⟨protocol, hnew⟩, -⟩
    · exact hold
    · rw [outcome_append d.readyTasks _ _ hnew] at hfailed
      cases hfailed
  have hkept : TopicKept d awaited call.key.1 := ⟨hold.2.2, h.ready.trans hold.1.symm⟩
  have houtcome : awaited.outcome = d.outcome := by
    funext t
    unfold outcome
    rw [hold.2.1]
  refine ⟨phase, ⟨?_, hcarried.protocol.trans h.protocol, fun key hne =>
    (hcarried.pending key hne).trans (h.pending key hne), fun topic hne =>
    (h.topics topic hne).trans (hcarried.topics topic hne)⟩, ?_⟩
  · rw [hcarried.calls]
    unfold setPhase
    rw [h.calls]
  · refine .settled (by rw [hphase]; rfl) (by rw [hphase]; rfl) (hgone.trans hfree.symm) ?_
      (htasks.trans hold.2.1)
    cases hleaving with
    | kept hdone hkept' => exact .kept hdone (hkept.trans hkept')
    | settles _ _ hready hnone =>
        rw [h.ready] at hready
        cases hready
        rw [hfailed] at hnone
        cases hnone
    | dropped hcases hnokeys htopicgone =>
        rw [hkept.ready, houtcome] at hcases
        exact .dropped hcases hnokeys htopicgone

theorem moves_enter (hinterests : Interests none d) (hprotocol : d.protocol.isSome = true)
    (hphase : call.phase = .acquiring) : ∃ phase, Moves c call d (d.enter c call.key) phase := by
  unfold enter
  split
  · exact ⟨_, (Left.refl call d).finish _, .finished (isFinished_elim _)
      (fun r hr => by rw [hphase] at hr; cases hr) rfl ⟨rfl, rfl⟩ rfl⟩
  · rename_i hused
    have hfree : OrderedDict.get d.pending call.key = none := by simpa using hused
    split
    · rename_i hnone
      rw [hnone] at hprotocol
      cases hprotocol
    · rename_i protocol _
      have hjoined := joined_enter hinterests hfree protocol
      dsimp only
      generalize (((d.findInterest call.key.1).1.add call.key
        (d.findInterest call.key.1).2).ensureTopicReady call.key.1 (d.findInterest call.key.1).2
          protocol) = awaited at *
      have hmoves : ∀ phase, (phase = .subscribing d.requests.length awaited.2 ∧
            awaited.1.outcome awaited.2 = none) ∨
          (phase = .registered d.requests.length ∧ awaited.1.outcome awaited.2 = some true) →
          Moves c call d (awaited.1.setPhase c phase) phase := by
        intro phase hcases
        refine ⟨⟨?_, hjoined.protocol, hjoined.pending, fun topic hne =>
          ⟨(hjoined.topics topic hne).topics, (hjoined.topics topic hne).ready⟩⟩, ?_⟩
        · show awaited.1.calls.modify c _ = _
          rw [hjoined.calls]
          rfl
        · exact .joined hcases hfree hjoined.registered hjoined.ready hjoined.task
      split
      · rename_i hnone
        exact ⟨_, hmoves _ (.inl ⟨rfl, hnone⟩)⟩
      · rename_i ok hdone
        unfold afterReady
        cases ok with
        | true => exact ⟨_, hmoves _ (.inr ⟨rfl, hdone⟩)⟩
        | false => exact hjoined.unregister hphase hprotocol hfree hdone _

/-! ## Going on -/

/-- A call that settles its topic is not the one to give it up, or its task has failed. -/
def maySettle (d : RequestDispatcher) (key : RequestKey) (i ready : Nat) : Bool :=
  decide (d.outcome ready = some false) || decide ((d.interest i).refcount ≠ 0) ||
    decide (OrderedDict.get d.topics key.1 ≠ some i)

theorem moves_finish (error : Option RequestError) (hrequest : call.phase.request? = none) :
    Moves c call d (d.finish c error) (error.elim .returned .raised) := by
  refine ⟨⟨rfl, rfl, fun _ _ => rfl, fun topic _ => ⟨rfl, rfl⟩⟩, ?_⟩
  refine .finished (isFinished_elim error) (fun r hr => ?_) rfl ⟨rfl, rfl⟩ rfl
  rw [hrequest] at hr
  cases hr

theorem moves_release_finish (error : Option RequestError) (hrequest : call.phase.request? = none) :
    Moves c call d (d.release.finish c error) (error.elim .returned .raised) := by
  refine ⟨(Left.refl call d).finish error, ?_⟩
  refine .finished (isFinished_elim error) (fun r hr => ?_) rfl ⟨rfl, rfl⟩ rfl
  rw [hrequest] at hr
  cases hr

/-- The end of the wait in `unregister`. -/
theorem moves_settled {i ready : Nat} {ok : Bool} {old : Option RequestError}
    (hinterests : Interests none d) (hprotocol : d.protocol.isSome = true)
    (hphase : call.phase = .settling i ready old)
    (hready : OrderedDict.get d.topics call.key.1 = some i → d.readyOf call.key.1 = some ready)
    (htrue : ok = true → d.outcome ready = some true)
    (hfalse : ok = false → d.maySettle call.key i ready = true) (error : Option RequestError) :
    ∃ phase, Moves c call d (d.dropInterest c call.key.1 i ok error) phase := by
  by_cases hlast : (d.interest i).refcount = 0 ∧ OrderedDict.get d.topics call.key.1 = some i
  · have houtcome : if ok then ∃ t, d.readyOf call.key.1 = some t ∧ d.outcome t = some true
        else ∀ t, d.readyOf call.key.1 = some t → d.outcome t = some false := by
      cases ok with
      | true => exact ⟨ready, hready hlast.2, htrue rfl⟩
      | false =>
          intro t ht
          rw [hready hlast.2] at ht
          cases ht
          simpa [maySettle, hlast.1, hlast.2] using hfalse rfl
    obtain ⟨phase, hcarried, hleaving⟩ := (Left.refl call d).dropInterest (c := c)
      (hinterests.exempted i) hprotocol hlast.1 hlast.2 ok error houtcome
    have hsame := same_dropInterest (d := d) c call.key.1 i ok error
    exact ⟨phase, hcarried, .settled (by rw [hphase]; rfl) (by rw [hphase]; rfl) (by rw [hsame.1])
      hleaving hsame.2⟩
  · unfold RequestDispatcher.dropInterest
    rw [if_neg hlast]
    exact ⟨_, moves_release_finish error (by rw [hphase]; rfl)⟩

theorem moves_resume {ok : Bool} (hinterests : Interests none d)
    (hprotocol : d.protocol.isSome = true)
    (hsettling : ∀ i ready error, call.phase = .settling i ready error →
      (OrderedDict.get d.topics call.key.1 = some i → d.readyOf call.key.1 = some ready) ∧
        (ok = false → d.maySettle call.key i ready = true))
    (hresume : d.resume c call ok = some d') : ∃ phase, Moves c call d d' phase := by
  unfold resume at hresume
  split at hresume
  · rename_i hacquiring
    split at hresume
    · cases hresume
    · cases hresume
      exact ⟨_, moves_finish _ (by rw [hacquiring]; rfl)⟩
  · rename_i r ready hsubscribing
    split at hresume
    · cases hresume
    · rename_i hdone
      cases hresume
      unfold afterReady
      cases ok with
      | true =>
          have htrue : d.outcome ready = some true := by simpa using hdone
          refine ⟨.registered r, ⟨rfl, rfl, fun _ _ => rfl, fun topic _ => ⟨rfl, rfl⟩⟩, ?_⟩
          exact .opened hsubscribing htrue rfl ⟨rfl, rfl⟩ rfl
      | false =>
          exact moves_unregister hinterests hprotocol (by rw [hsubscribing]; rfl) _
  · rename_i i ready error hphase
    split at hresume
    · cases hresume
    · rename_i hdone
      cases hresume
      obtain ⟨hready, hfalse⟩ := hsettling i ready error hphase
      refine moves_settled hinterests hprotocol hphase hready ?_ hfalse _
      rintro rfl
      simpa using hdone
  · rename_i error hremoving
    cases hresume
    exact ⟨_, moves_release_finish _ (by rw [hremoving]; rfl)⟩
  · cases hresume

/-- Seen from a state that differs in the futures or in the units of the semaphore. -/
theorem Moves.of_same {e : RequestDispatcher} {phase : RequestPhase}
    (h : Moves c call e d' phase) (hcalls : e.calls = d.calls) (hprotocol : e.protocol = d.protocol)
    (hpending : e.pending = d.pending) (htopics : e.topics = d.topics)
    (hinterests : e.interests = d.interests) (htasks : e.readyTasks = d.readyTasks) :
    Moves c call d d' phase := by
  have hready : e.readyOf = d.readyOf := by
    funext topic
    unfold readyOf interest
    rw [htopics, hinterests]
  have houtcome : e.outcome = d.outcome := by
    funext t
    unfold outcome
    rw [htasks]
  have hkept : ∀ {topic}, TopicKept e d' topic → TopicKept d d' topic := fun hkept =>
    ⟨htopics ▸ hkept.topics, hready ▸ hkept.ready⟩
  have hleaving : Leaving e d' call phase → Leaving d d' call phase := by
    intro hleaving
    cases hleaving with
    | kept hphase htopic => exact .kept hphase (hkept htopic)
    | settles hget htopic hsome hnone =>
        exact .settles (htopics ▸ hget) (hkept htopic) (hready ▸ hsome) (houtcome ▸ hnone)
    | dropped hphase hfree hgone =>
        exact .dropped (by rwa [hready, houtcome] at hphase) hfree hgone
  refine ⟨⟨?_, h.protocol.trans hprotocol, fun key hne => hpending ▸ h.pending key hne,
    fun topic hne => hkept (h.topics topic hne)⟩, ?_⟩
  · rw [h.calls]
    unfold setPhase
    rw [hcalls]
  · cases h.move with
    | finished hphase hrequest hkey htopic htasks' =>
        exact .finished hphase (hpending ▸ hrequest) (hpending ▸ hkey) (hkept htopic)
          (htasks'.trans htasks)
    | joined hphase hfree hkey hready' htask =>
        refine .joined hphase (hpending ▸ hfree) hkey hready' ?_
        unfold JoinedTask at htask ⊢
        rwa [hready, htasks, htopics, hinterests] at htask
    | opened hphase htrue hkey htopic htasks' =>
        exact .opened hphase (houtcome ▸ htrue) (hpending ▸ hkey) (hkept htopic)
          (htasks'.trans htasks)
    | left hown hkey hleave htasks' =>
        exact .left hown hkey (hleaving hleave) (htasks'.trans htasks)
    | settled hnone hstays hkey hleave htasks' =>
        exact .settled hnone hstays (hpending ▸ hkey) (hleaving hleave) (htasks'.trans htasks)

theorem moves_close {timeout : Bool} (hinterests : Interests none d)
    (hprotocol : d.protocol.isSome = true) (hclose : d.close c call timeout = some d') :
    ∃ phase, Moves c call d d' phase := by
  unfold close at hclose
  split at hclose
  · rename_i r hregistered
    cases hclose
    have hmodified : Interests none (d.modifyRequest r fun request => request.close timeout) :=
      hinterests.of_same rfl rfl rfl (fun _ => rfl) rfl
    have hrequest : call.phase.request? = some r := by
      rw [hregistered]
      rfl
    obtain ⟨phase, hmoves⟩ := moves_unregister (c := c) hmodified hprotocol hrequest none
    exact ⟨phase, hmoves.of_same rfl rfl rfl rfl rfl rfl⟩
  · cases hclose

/-- Every step of a call. -/
theorem moves_step {a : Action} (hinterests : Interests none d)
    (hprotocol : d.protocol.isSome = true) (hcall : d.calls[c]? = some call)
    (hc : a.call? = some c)
    (hsettling : ∀ i ready error, call.phase = .settling i ready error →
      (OrderedDict.get d.topics call.key.1 = some i → d.readyOf call.key.1 = some ready) ∧
        (a = .resume c false → d.maySettle call.key i ready = true))
    (hstep : d.step a = some d') : ∃ phase, Moves c call d d' phase := by
  have hsame : ∀ {c' : Nat} {f : RequestCall → Option RequestDispatcher}, some c' = some c →
      d.calls[c']?.bind f = some d' → f call = some d' := by
    intro c' f heq hbind
    cases heq
    rwa [hcall] at hbind
  cases a with
  | acquire c' =>
      obtain ⟨⟨hacquiring, -⟩, heq⟩ := Option.ite_none_right_eq_some.mp (hsame hc hstep)
      cases hc
      cases heq
      have htaken : Interests none { d with capacity := d.capacity - 1 } :=
        hinterests.of_same rfl rfl rfl (fun _ => rfl) rfl
      obtain ⟨phase, hmoves⟩ := moves_enter (c := c) htaken hprotocol hacquiring
      exact ⟨phase, hmoves.of_same rfl rfl rfl rfl rfl rfl⟩
  | resume c' ok =>
      have hresume := hsame hc hstep
      cases hc
      refine moves_resume hinterests hprotocol (fun i ready error hphase => ?_) hresume
      refine ⟨(hsettling i ready error hphase).1, ?_⟩
      rintro rfl
      exact (hsettling i ready error hphase).2 rfl
  | close c' timeout =>
      have hclose := hsame hc hstep
      cases hc
      exact moves_close hinterests hprotocol hclose
  | _ => cases hc

end RequestDispatcher

end Zmqtt
