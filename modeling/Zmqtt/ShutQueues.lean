import Zmqtt.InboundRules

/-!
# A queue that takes no message

A message reaches the queue of a subscription through an entry: the one that the index
gives when the message is routed, and from then on the one that a QoS 2 flow keeps up to
its PUBREL, or a task that waits in `queue.put` or in a transport write before it.  So a
queue takes no message when every entry that leads to it is detached, those in the index
and those of the open deliveries.  From then on its messages are only taken.
-/

namespace Zmqtt

namespace InboundPublishFlow

/-- The messages in a queue, oldest first. -/
def messagesIn (s : InboundPublishFlow) (queue : Nat) : List (Nat × Message) :=
  s.queued.filter fun item => item.1 = queue

/-- The delivery to the recipient puts the message in the queue. -/
def leadsTo (s : InboundPublishFlow) (queue : Nat) (recipient : InboundRecipient) : Bool :=
  recipient.subscription.any fun item =>
    item.2.queue == queue && !s.detached.contains item.2.oid

/-- The task goes on to a delivery to the queue.  A put that waits is made, and withdrawn
when the entry is detached: it takes the oldest message of the queue out again. -/
def frameLeadsTo (s : InboundPublishFlow) (queue : Nat) : Frame → Bool
  | .delivering recipient _ _ => s.leadsTo queue recipient
  | .putting _ entry _ _ =>
      entry.queue == queue &&
        (!s.detached.contains entry.oid || !(s.messagesIn queue).isEmpty)
  | .sending next => next.any (s.leadsTo queue)
  | _ => false

/-- A delivery to the queue is open: a QoS 2 flow that waits for its PUBREL, or a task. -/
def isOpen (s : InboundPublishFlow) (queue : Nat) : Bool :=
  (s.inflightQos2In.any fun item => !item.2.delivered && s.leadsTo queue item.2.recipient) ||
    s.frames.any fun item => s.frameLeadsTo queue item.2

/-- What the index and the flags say of a queue: each entry that leads to it is detached. -/
def Unlisted (index : SubscriptionIndex) (flags : List Nat) (queue : Nat) : Prop :=
  ∀ topic item, ((index.select topic).recipient = some item ∨
      ∃ identifier, (index.selectByIdentifier topic identifier).recipient = some item) →
    item.2.queue = queue → item.2.oid ∈ flags

/-- The index and the flags of a flow, no open delivery to the queue, and what is left of
the messages that were in it. -/
structure Shut (index : SubscriptionIndex) (flags : List Nat) (queue : Nat)
    (before : List (Nat × Message)) (s : InboundPublishFlow) : Prop where
  subscriptions : s.subscriptions = index
  detached : s.detached = flags
  closed : s.isOpen queue = false
  left : s.messagesIn queue <:+ before

variable {s next : InboundPublishFlow} {queue : Nat} {frame : Frame}

/-! ## Open deliveries -/

theorem isOpen_eq_false_iff : s.isOpen queue = false ↔
    (∀ item ∈ s.inflightQos2In, item.2.delivered = false →
      s.leadsTo queue item.2.recipient = false) ∧
    ∀ item ∈ s.frames, s.frameLeadsTo queue item.2 = false := by
  simp [isOpen]

theorem leadsTo_eq_false_iff {recipient : InboundRecipient} :
    s.leadsTo queue recipient = false ↔ ∀ item, recipient.subscription = some item →
      item.2.queue = queue → item.2.oid ∈ s.detached := by
  cases hsubscription : recipient.subscription with
  | none => simp [leadsTo, hsubscription]
  | some item => simp [leadsTo, hsubscription]

/-- An entry stays detached. -/
theorem leadsTo_later {recipient : InboundRecipient} (hdetached : s.detached ⊆ next.detached)
    (h : s.leadsTo queue recipient = false) : next.leadsTo queue recipient = false :=
  leadsTo_eq_false_iff.mpr fun item hitem hqueue =>
    hdetached (leadsTo_eq_false_iff.mp h item hitem hqueue)

theorem frameLeadsTo_putting {recipient : InboundRecipient} {entry : SubscriptionEntry}
    {ackCallback : Option AckCallback} {puback : Option Int} :
    s.frameLeadsTo queue (.putting recipient entry ackCallback puback) = false ↔
      (entry.queue = queue → entry.oid ∈ s.detached ∧ s.messagesIn queue = []) := by
  simp [frameLeadsTo]

/-- An entry stays detached and an empty queue empty. -/
theorem frameLeadsTo_later (hdetached : s.detached ⊆ next.detached)
    (hqueue : s.messagesIn queue = [] → next.messagesIn queue = [])
    (h : s.frameLeadsTo queue frame = false) : next.frameLeadsTo queue frame = false := by
  cases frame with
  | delivering recipient ackCallback puback => exact leadsTo_later hdetached h
  | putting recipient entry ackCallback puback =>
      rw [frameLeadsTo_putting] at h ⊢
      intro heq
      obtain ⟨hmem, hempty⟩ := h heq
      exact ⟨hdetached hmem, hqueue hempty⟩
  | sending recipient =>
      cases recipient with
      | none => rfl
      | some recipient => exact leadsTo_later hdetached h
  | completing seq packetId => rfl
  | returned => rfl
  | raised error => rfl

/-- No delivery to the queue is opened. -/
theorem isOpen_later (h : s.isOpen queue = false)
    (hflights : ∀ item ∈ next.inflightQos2In, item ∈ s.inflightQos2In ∨ item.2.delivered = true ∨
      s.leadsTo queue item.2.recipient = false)
    (hframes : ∀ item ∈ next.frames, item ∈ s.frames ∨ s.frameLeadsTo queue item.2 = false)
    (hdetached : s.detached ⊆ next.detached)
    (hqueue : s.messagesIn queue = [] → next.messagesIn queue = []) :
    next.isOpen queue = false := by
  obtain ⟨hclosed, hidle⟩ := isOpen_eq_false_iff.mp h
  refine isOpen_eq_false_iff.mpr ⟨fun item hitem hpending => ?_, fun item hitem => ?_⟩
  · refine leadsTo_later hdetached ?_
    rcases hflights item hitem with hold | hdelivered | hnew
    · exact hclosed item hold hpending
    · rw [hdelivered] at hpending
      cases hpending
    · exact hnew
  · refine frameLeadsTo_later hdetached hqueue ?_
    rcases hframes item hitem with hold | hnew
    · exact hidle item hold
    · exact hnew

/-! ## The messages of a queue -/

theorem messagesIn_push (s : InboundPublishFlow) {other : Nat} (message : Message)
    (h : other ≠ queue) : (s.push other message).messagesIn queue = s.messagesIn queue := by
  simp [messagesIn, push, h]

theorem messagesIn_getNowait {other : Nat} {found : Message × List (Nat × Message)}
    (h : getNowait other s.queued = some found) :
    (other ≠ queue → found.2.filter (fun item => item.1 = queue) = s.messagesIn queue) ∧
      (other = queue →
        s.messagesIn queue = (queue, found.1) :: found.2.filter fun item => item.1 = queue) := by
  obtain ⟨before, after, hqueued, hrest, hbefore⟩ := getNowait_split h
  unfold messagesIn
  rw [hqueued, hrest]
  constructor
  · intro hother
    simp [hother]
  · rintro rfl
    have hnone : before.filter (fun item => item.1 = other) = [] :=
      List.filter_eq_nil_iff.mpr fun item hitem => by simpa using hbefore item hitem
    simp [hnone]

/-! ## The rules -/

variable {index : SubscriptionIndex} {flags : List Nat} {before : List (Nat × Message)}

/-- The steps of the flow while the connection lives.  Those of the index and the flags
belong to the subscriptions. -/
def Action.ofFlow : Action → Bool
  | .index _ => false
  | .detach .. => false
  | .clear => false
  | _ => true

/-- The flow changes neither the index nor the flags. -/
theorem index_step {action : Action} (hflow : action.ofFlow = true)
    (hstep : s.step action = some next) :
    next.subscriptions = s.subscriptions ∧ next.detached = s.detached := by
  have hrules : FlowRules (fun _ action => action.ofFlow = true)
      (fun t => t.subscriptions = s.subscriptions ∧ t.detached = s.detached)
      fun t _ _ => t.subscriptions = s.subscriptions ∧ t.detached = s.detached :=
    FlowRules.ofSettings (P := fun index flags _ => index = s.subscriptions ∧ flags = s.detached)
      (fun hok _ => by cases hok) (fun _ hok _ => by cases hok)
  exact hrules.step ⟨rfl, rfl⟩ hflow hstep

/-- Changes outside the deliveries. -/
theorem Shut.same (h : s.Shut index flags queue before)
    (hsubscriptions : next.subscriptions = s.subscriptions) (hdetached : next.detached = s.detached)
    (hflights : ∀ item ∈ next.inflightQos2In, item ∈ s.inflightQos2In ∨ item.2.delivered = true ∨
      s.leadsTo queue item.2.recipient = false)
    (hframes : ∀ item ∈ next.frames, item ∈ s.frames ∨ s.frameLeadsTo queue item.2 = false)
    (hleft : next.messagesIn queue <:+ s.messagesIn queue) :
    next.Shut index flags queue before := by
  refine ⟨hsubscriptions.trans h.subscriptions, hdetached.trans h.detached, ?_,
    hleft.trans h.left⟩
  refine isOpen_later h.closed hflights hframes (hdetached ▸ List.Subset.refl _) fun hempty => ?_
  rw [hempty] at hleft
  exact List.eq_nil_of_suffix_nil hleft

/-- Only the log, the books of the identifiers and the replay change. -/
theorem Shut.books (h : s.Shut index flags queue before)
    (hsubscriptions : next.subscriptions = s.subscriptions) (hdetached : next.detached = s.detached)
    (hflights : next.inflightQos2In = s.inflightQos2In) (hframes : next.frames = s.frames)
    (hqueued : next.queued = s.queued) : next.Shut index flags queue before := by
  refine h.same hsubscriptions hdetached (fun item hitem => Or.inl (hflights ▸ hitem))
    (fun item hitem => Or.inl (hframes ▸ hitem)) ?_
  rw [messagesIn, hqueued]
  exact List.suffix_refl _

/-- The recipient of a message that is routed. -/
theorem Shut.routed (h : s.Shut index flags queue before) (hunlisted : Unlisted index flags queue)
    {received : Received} {recipient : InboundRecipient} (hselects : s.Selects received recipient) :
    s.leadsTo queue recipient = false := by
  refine leadsTo_eq_false_iff.mpr fun item hitem hqueue => ?_
  have hselected := hselects.subscription item hitem
  unfold selectSubscription at hselected
  rw [h.subscriptions] at hselected
  rw [h.detached]
  split at hselected
  · exact hunlisted _ item (Or.inl hselected) hqueue
  · exact hunlisted _ item (Or.inr ⟨_, hselected⟩) hqueue

/-- The flow that is registered for a message. -/
theorem Shut.sendPubrec (h : s.Shut index flags queue before) (pid : Int)
    {flight : InboundQoS2Flight}
    (hflight : flight.delivered = true ∨ s.leadsTo queue flight.recipient = false) :
    (s.sendPubrec pid flight).Shut index flags queue before := by
  refine h.same rfl rfl (fun item hitem => ?_) (fun _ hitem => Or.inl hitem) (List.suffix_refl _)
  rcases OrderedDict.mem_of_mem_set hitem with hold | rfl
  · exact Or.inl hold
  · exact Or.inr hflight

/-- The invariant inside a task that handles a message. -/
structure ShutIn (index : SubscriptionIndex) (flags : List Nat) (queue : Nat)
    (before : List (Nat × Message)) (s : InboundPublishFlow) (frame : Frame) : Prop where
  shut : s.Shut index flags queue before
  frame : s.frameLeadsTo queue frame = false

theorem Shut.rules (hunlisted : Unlisted index flags queue) :
    FlowRules (fun _ action => action.ofFlow = true) (Shut index flags queue before)
      fun s _ frame => s.ShutIn index flags queue before frame where
  take {s o frame} h hframe := by
    refine ⟨h.same rfl rfl (fun _ hitem => Or.inl hitem) (fun item hitem => Or.inl ?_)
      (List.suffix_refl _), ?_⟩
    · exact OrderedDict.mem_of_mem_pop hitem
    · exact (isOpen_eq_false_iff.mp h.closed).2 _ (OrderedDict.mem_of_get hframe)
  store {s o frame} h _ _ := by
    refine h.shut.same rfl rfl (fun _ hitem => Or.inl hitem) (fun item hitem => ?_)
      (List.suffix_refl _)
    rcases OrderedDict.mem_of_mem_set hitem with hold | rfl
    · exact Or.inl hold
    · exact Or.inr h.frame
  enter _ h := ⟨h, rfl⟩
  leave h := h.shut
  raise _ h := ⟨h.shut, rfl⟩
  endReader h := h.shut.books rfl rfl rfl rfl rfl
  endTask h := h.shut
  pause h := ⟨h.shut, rfl⟩
  resume {s o recipient} h := by
    refine ⟨h.shut, ?_⟩
    cases recipient with
    | none => rfl
    | some recipient => exact h.frame
  request {s o recipient ackCallback puback request} h _ :=
    ⟨h.shut.books rfl rfl rfl rfl rfl, by cases puback <;> rfl⟩
  nobody {s o recipient ackCallback puback} h _ _ := ⟨h.shut, by cases puback <;> rfl⟩
  refuse h _ _ := ⟨h.shut.books rfl rfl rfl rfl rfl, rfl⟩
  offer {s o recipient ackCallback puback item} h _ hitem hattached := by
    refine ⟨h.shut.books rfl rfl rfl rfl rfl, frameLeadsTo_putting.mpr fun hqueue => ?_⟩
    exact absurd (leadsTo_eq_false_iff.mp h.frame item hitem hqueue) hattached
  put {s o recipient entry ackCallback puback} h hattached := by
    have hother : entry.queue ≠ queue := fun hqueue =>
      hattached (frameLeadsTo_putting.mp h.frame hqueue).1
    refine ⟨h.shut.same rfl rfl (fun _ hitem => Or.inl hitem) (fun _ hitem => Or.inl hitem) ?_,
      by cases puback <;> rfl⟩
    show (s.push entry.queue _).messagesIn queue <:+ _
    rw [messagesIn_push s _ hother]
  withdraw {s o recipient entry ackCallback puback found} h hfound := by
    refine ⟨h.shut.same rfl rfl (fun _ hitem => Or.inl hitem) (fun _ hitem => Or.inl hitem) ?_,
      rfl⟩
    obtain ⟨hkept, htaken⟩ := messagesIn_getNowait hfound
    show found.2.filter (fun item => item.1 = queue) <:+ _
    by_cases hqueue : entry.queue = queue
    · -- the queue was empty, so the message that is taken out is the one that was put
      have hempty := (frameLeadsTo_putting.mp h.frame hqueue).2
      have hpushed := htaken hqueue
      have hlength := congrArg List.length hpushed
      subst hqueue
      have hone : (s.push entry.queue (withCallback recipient.message entry
          ackCallback)).messagesIn entry.queue = s.messagesIn entry.queue ++
            [(entry.queue, withCallback recipient.message entry ackCallback)] := by
        simp [messagesIn, push]
      rw [hone, hempty] at hlength
      have hnone := List.eq_nil_of_length_eq_zero (Nat.succ.inj hlength).symm
      rw [hnone]
      exact List.nil_suffix
    · rw [hkept hqueue, messagesIn_push s _ hqueue]
  puback h := ⟨h.shut.books rfl rfl rfl rfl rfl, rfl⟩
  replay _ h := h.books rfl rfl rfl rfl rfl
  quiet _ h := h.books rfl rfl rfl rfl rfl
  get {s other found} hfound h := by
    refine h.same rfl rfl (fun _ hitem => Or.inl hitem) (fun _ hitem => Or.inl hitem) ?_
    obtain ⟨hkept, htaken⟩ := messagesIn_getNowait hfound
    show found.2.filter (fun item => item.1 = queue) <:+ _
    by_cases hqueue : other = queue
    · rw [htaken hqueue]
      exact List.suffix_cons _ _
    · rw [hkept hqueue]
  ack {s i message} _ _ h := by
    rcases s.ack_cases i message with heq | ⟨marked, -, -, -, heq | ⟨pid, -, -, heq⟩⟩ |
      ⟨pid, subscription, -, heq⟩
    · rw [heq]
      exact h
    · rw [heq]
      exact h.books rfl rfl rfl rfl rfl
    · rw [heq]
      exact h.books rfl rfl rfl rfl rfl
    · rw [heq]
      have hacked : (((s.setTaken i { message with resolved := true }).emit
          (.acked message.seq)).removePendingAck pid).Shut index flags queue before :=
        h.books rfl rfl rfl rfl rfl
      exact hacked.sendPubrec pid (Or.inl rfl)
  index hok _ := by cases hok
  detach _ hok _ := by cases hok
  arrive {s packet claim write} _ _ h := by
    rw [arrived_frame]
    exact h.books rfl rfl rfl rfl rfl
  exceed _ _ h := h.books rfl rfl rfl rfl rfl
  resend _ h := h.books rfl rfl rfl rfl rfl
  pubrelUnknown _ _ _ h := h.books rfl rfl rfl rfl rfl
  pubrelKnown {s packet write flight} _ _ hget h := by
    have hmem := OrderedDict.mem_of_get hget
    refine ⟨h.same rfl rfl (fun item hitem => Or.inl ?_) (fun _ hitem => Or.inl hitem)
      (List.suffix_refl _), ?_⟩
    · exact OrderedDict.mem_of_mem_pop hitem
    · cases hdelivered : flight.delivered with
      | true => rfl
      | false => exact (isOpen_eq_false_iff.mp h.closed).1 _ hmem hdelivered
  route hselects _ _ _ h := ⟨h.books rfl rfl rfl rfl rfl, h.routed hunlisted hselects⟩
  routeNowhere _ h := h.books rfl rfl rfl rfl rfl
  routeRefused _ _ h := h.books rfl rfl rfl rfl rfl
  accept {s received recipient pid} hselects _ _ h := by
    have haccepted : ((s.emit (.routed received.seq)).emit
        (.accepted received.seq pid)).Shut index flags queue before := h.books rfl rfl rfl rfl rfl
    exact haccepted.sendPubrec pid (Or.inr (h.routed hunlisted hselects))
  acceptManual {s o received recipient pid} hselects _ _ _ h :=
    ⟨h.books rfl rfl rfl rfl rfl, h.routed hunlisted hselects⟩

/-- **One step.**  The flow keeps the queue shut. -/
theorem Shut.step (h : s.Shut index flags queue before) (hunlisted : Unlisted index flags queue)
    {action : Action} (hflow : action.ofFlow = true) (hstep : s.step action = some next) :
    next.Shut index flags queue before :=
  (Shut.rules hunlisted).step h hflow hstep

end InboundPublishFlow

end Zmqtt
