import Zmqtt.History
import Zmqtt.InboundRules

/-!
# What a PUBCOMP says about its message

The client completes an inbound QoS 2 flow before it hands the message over, unless
the application acknowledged the message itself.  So a PUBCOMP can leave a hand-over
owed.  The read loop pays it before it turns to the next packet, and only the end of
the connection cancels it.
-/

namespace Zmqtt

open InboundPublishFlow

/-! ## Debts -/

/-- The recipient that still waits for the message of a flow at its PUBCOMP. -/
def InboundQoS2Flight.debt (flight : InboundQoS2Flight) : Option InboundRecipient :=
  if flight.delivered || (flight.recipient.request.isNone && flight.recipient.subscription.isNone)
  then none else some flight.recipient

/-- The message that an event hands over, or refuses because its entry is detached. -/
def InboundEvent.pays : InboundEvent → Option Nat
  | .put seq _ _ => some seq
  | .requestDelivered seq _ => some seq
  | .refused seq _ => some seq
  | _ => none

/-- The flow that an event completes. -/
def InboundEvent.completes : InboundEvent → Option InboundQoS2Flight
  | .sentPubcomp _ _ flight => flight
  | _ => none

/-- An inbound packet. -/
def InboundEvent.arrival : InboundEvent → Bool
  | .receivedPublish _ => true
  | .receivedPubrel _ => true
  | _ => false

/-- The recipient to whom the newest PUBCOMP owes a hand-over that has not happened. -/
def owed : List InboundEvent → Option InboundRecipient
  | [] => none
  | event :: earlier =>
      event.completes.elim ((owed earlier).filter fun recipient =>
        decide (event.pays ≠ some recipient.message.seq)) InboundQoS2Flight.debt

theorem owed_cons {event : InboundEvent} (h : event.completes = none)
    {log : List InboundEvent} {recipient : InboundRecipient}
    (howed : owed (event :: log) = some recipient) :
    owed log = some recipient ∧ event.pays ≠ some recipient.message.seq := by
  simp only [owed, h, Option.elim_none, Option.filter_eq_some_iff, decide_eq_true_eq] at howed
  exact howed

theorem owed_cons_none {event : InboundEvent} (h : event.completes = none)
    {log : List InboundEvent} (hnone : owed log = none) : owed (event :: log) = none := by
  simp [owed, h, hnone]

theorem debt_eq_some {flight : InboundQoS2Flight} {recipient : InboundRecipient}
    (h : flight.debt = some recipient) :
    flight.delivered = false ∧ flight.recipient = recipient ∧
      (recipient.request.isSome ∨ recipient.subscription.isSome) := by
  simp only [InboundQoS2Flight.debt, Option.ite_none_left_eq_some, Bool.or_eq_true,
    Bool.and_eq_true, Option.isNone_iff_eq_none, not_or, Bool.not_eq_true, not_and] at h
  obtain ⟨⟨hdelivered, hsome⟩, heq⟩ := h
  cases heq
  refine ⟨hdelivered, rfl, ?_⟩
  cases hrequest : flight.recipient.request with
  | some request => exact .inl rfl
  | none => exact .inr (Option.isSome_iff_ne_none.mpr (hsome hrequest))

/-- A debt is owed to somebody. -/
theorem owed_recipient {log : List InboundEvent} {recipient : InboundRecipient}
    (h : owed log = some recipient) :
    recipient.request.isSome ∨ recipient.subscription.isSome := by
  induction log with
  | nil => cases h
  | cons event earlier ih =>
      cases hcompletes : event.completes with
      | none => exact ih (owed_cons hcompletes h).1
      | some flight =>
          simp only [owed, hcompletes, Option.elim_some] at h
          exact (debt_eq_some h).2.2

/-- The recipient that a task is about to hand a message to. -/
def Frame.recipient : Frame → Option InboundRecipient
  | .delivering recipient _ _ => some recipient
  | .putting recipient _ _ _ => some recipient
  | .sending next => next
  | _ => none

/-- No packet arrives while a hand-over is owed. -/
def PaidBefore (event : InboundEvent) (earlier : List InboundEvent) : Prop :=
  event.arrival = true → owed earlier = none

/-- A debt is in the hands of the read loop, until the connection ends. -/
structure Paying (s : InboundPublishFlow) : Prop where
  log : History.Each PaidBefore s.log
  stored : ∀ recipient, owed s.log = some recipient →
    ∀ frame, OrderedDict.get s.frames .reader = some frame → frame.recipient = some recipient
  ended : ∀ recipient, owed s.log = some recipient →
    OrderedDict.get s.frames .reader = none → s.ended.isSome

/-- The read loop works on a message, and pays if there is something to pay. -/
structure Working (s : InboundPublishFlow) (frame : Frame) : Prop where
  log : History.Each PaidBefore s.log
  taken : OrderedDict.get s.frames .reader = none
  owes : ∀ recipient, owed s.log = some recipient →
    frame.recipient = some recipient ∨ ∃ e, frame = .raised e

/-- What a task relies on: the read loop on its own frame, the others on the state. -/
def PayingFrame (s : InboundPublishFlow) : Owner → Frame → Prop
  | .reader, frame => Working s frame
  | .task _, _ => Paying s

namespace Paying

variable {s next : InboundPublishFlow} {event : InboundEvent}

theorem extend (h : Paying s) (hlog : next.log = event :: s.log) (hframes : next.frames = s.frames)
    (hended : next.ended = s.ended) (harrival : event.arrival = false)
    (hcompletes : event.completes = none) : Paying next where
  log := by
    rw [hlog]
    exact ⟨fun hevent => absurd (harrival.symm.trans hevent) Bool.false_ne_true, h.log⟩
  stored recipient howed := by
    rw [hlog] at howed
    rw [hframes]
    exact h.stored recipient (owed_cons hcompletes howed).1
  ended recipient howed := by
    rw [hlog] at howed
    rw [hframes, hended]
    exact h.ended recipient (owed_cons hcompletes howed).1

theorem emit (h : Paying s) (harrival : event.arrival = false)
    (hcompletes : event.completes = none) : Paying (s.emit event) :=
  h.extend rfl rfl rfl harrival hcompletes

/-- Nothing is owed when the read loop waits for a packet. -/
theorem nothing (h : Paying s) (hidle : s.readerIdle = true) : owed s.log = none := by
  simp only [readerIdle, Bool.and_eq_true, Option.isNone_iff_eq_none] at hidle
  cases howed : owed s.log with
  | none => rfl
  | some recipient =>
      have hended := h.ended recipient howed hidle.2
      rw [hidle.1] at hended
      cases hended

theorem working (h : Paying s) (hidle : s.readerIdle = true) (frame : Frame) : Working s frame where
  log := h.log
  taken := by
    simp only [readerIdle, Bool.and_eq_true, Option.isNone_iff_eq_none] at hidle
    exact hidle.2
  owes recipient howed := by
    rw [h.nothing hidle] at howed
    cases howed

/-- A packet arrives. -/
theorem arrive (h : Paying s) (hidle : s.readerIdle = true) (hlog : next.log = event :: s.log)
    (hcompletes : event.completes = none) : Paying next := by
  have hnone : owed next.log = none := by
    rw [hlog]
    exact owed_cons_none hcompletes (h.nothing hidle)
  refine ⟨?_, fun recipient howed => ?_, fun recipient howed => ?_⟩
  · rw [hlog]
    exact ⟨fun _ => h.nothing hidle, h.log⟩
  · rw [hnone] at howed
    cases howed
  · rw [hnone] at howed
    cases howed

end Paying

namespace Working

variable {s next : InboundPublishFlow} {frame after : Frame}

/-- The read loop goes on in another frame. -/
theorem move (event : InboundEvent) (h : Working s frame) (hraised : ∀ e, frame ≠ .raised e)
    (hlog : next.log = event :: s.log) (hframes : next.frames = s.frames)
    (harrival : event.arrival = false) (hcompletes : event.completes = none)
    (hafter : ∀ recipient, frame.recipient = some recipient →
      event.pays = some recipient.message.seq ∨ after.recipient = some recipient) :
    Working next after where
  log := by
    rw [hlog]
    exact ⟨fun hevent => absurd (harrival.symm.trans hevent) Bool.false_ne_true, h.log⟩
  taken := hframes ▸ h.taken
  owes recipient howed := by
    rw [hlog] at howed
    obtain ⟨hold, hpays⟩ := owed_cons hcompletes howed
    rcases h.owes recipient hold with hframe | ⟨e, he⟩
    · exact (hafter recipient hframe).elim (fun h => absurd h hpays) .inl
    · exact absurd he (hraised e)

/-- The message of the read loop is handed over or refused. -/
theorem pay (event : InboundEvent) (h : Working s frame) (hraised : ∀ e, frame ≠ .raised e)
    (hlog : next.log = event :: s.log) (hframes : next.frames = s.frames)
    {recipient : InboundRecipient} (hrecipient : frame.recipient = some recipient)
    (hpays : event.pays = some recipient.message.seq)
    (harrival : event.arrival = false) (hcompletes : event.completes = none) :
    Working next after := by
  refine h.move event hraised hlog hframes harrival hcompletes fun other hother => .inl ?_
  rw [hrecipient] at hother
  cases hother
  exact hpays

end Working

/-- The rules of the read loop and those of the other tasks. -/
theorem Paying.rules : FlowRules (fun _ _ => True) Paying PayingFrame where
  take := by
    intro s o frame h hget
    cases o with
    | reader =>
        refine ⟨h.log, ?_, fun recipient howed => .inl (h.stored recipient howed frame hget)⟩
        rw [OrderedDict.get_pop, if_pos rfl]
    | task t =>
        have hsame : OrderedDict.get (OrderedDict.pop s.frames (.task t)) .reader =
            OrderedDict.get s.frames .reader := by
          rw [OrderedDict.get_pop, if_neg (fun h => by cases h)]
        refine ⟨h.log, fun recipient howed => ?_, fun recipient howed => ?_⟩
        · simp only [hsame]
          exact h.stored recipient howed
        · simp only [hsame]
          exact h.ended recipient howed
  store := by
    intro s o frame h hreturned hraised
    cases o with
    | reader =>
        have hstored : OrderedDict.get (OrderedDict.set s.frames .reader frame) .reader =
            some frame := by
          rw [OrderedDict.get_set, if_pos rfl]
        refine ⟨h.log, fun recipient howed other hother => ?_, fun recipient _ hnone => ?_⟩
        · rw [hstored] at hother
          cases hother
          exact (h.owes recipient howed).resolve_right (not_exists.mpr hraised)
        · rw [hstored] at hnone
          cases hnone
    | task t =>
        have hsame : OrderedDict.get (OrderedDict.set s.frames (.task t) frame) .reader =
            OrderedDict.get s.frames .reader := by
          rw [OrderedDict.get_set, if_neg (fun h => by cases h)]
        refine ⟨h.log, fun recipient howed => ?_, fun recipient howed => ?_⟩
        · simp only [hsame]
          exact h.stored recipient howed
        · simp only [hsame]
          exact h.ended recipient howed
  enter := by
    intro s o henters h
    cases o with
    | reader => exact h.working (henters rfl) _
    | task t => exact h
  leave := by
    intro s o h
    cases o with
    | task t => exact h
    | reader =>
        have hnone : owed s.log = none := by
          cases howed : owed s.log with
          | none => rfl
          | some recipient => rcases h.owes recipient howed with h | ⟨e, h⟩ <;> cases h
        refine ⟨h.log, fun recipient howed => ?_, fun recipient howed => ?_⟩
        · rw [hnone] at howed
          cases howed
        · rw [hnone] at howed
          cases howed
  raise := by
    intro s o frame e h
    cases o with
    | task t => exact h
    | reader => exact ⟨h.log, h.taken, fun _ _ => .inr ⟨e, rfl⟩⟩
  endReader := by
    intro s e h
    refine ⟨h.log, fun recipient _ frame hframe => ?_, fun _ _ _ => rfl⟩
    have htaken := h.taken
    rw [show OrderedDict.get s.frames .reader = some frame from hframe] at htaken
    cases htaken
  endTask h := h
  pause := by
    intro s o h
    cases o with
    | task t => exact h
    | reader =>
        refine ⟨h.log, h.taken, fun recipient howed => ?_⟩
        rcases h.owes recipient howed with h | ⟨e, h⟩ <;> cases h
  resume := by
    intro s o next h
    cases o with
    | task t => exact h
    | reader =>
        refine ⟨h.log, h.taken, fun recipient howed => ?_⟩
        rcases h.owes recipient howed with h | ⟨e, h⟩
        · cases h
          exact .inl rfl
        · cases h
  request := by
    intro s o recipient ackCallback puback request h _
    cases o with
    | task t => exact Paying.emit h rfl rfl
    | reader => exact Working.pay (.requestDelivered _ _) h (fun _ h => by cases h) rfl rfl rfl rfl rfl rfl
  nobody := by
    intro s o recipient ackCallback puback h hrequest hsubscription
    cases o with
    | task t => exact h
    | reader =>
        refine ⟨h.log, h.taken, fun other howed => ?_⟩
        rcases h.owes other howed with hother | ⟨e, h⟩
        · cases hother
          have hsome := owed_recipient howed
          rw [hrequest, hsubscription] at hsome
          rcases hsome with h | h <;> cases h
        · cases h
  refuse := by
    intro s o recipient ackCallback puback item h _ _
    cases o with
    | task t => exact Paying.emit h rfl rfl
    | reader => exact Working.pay (.refused _ _) h (fun _ h => by cases h) rfl rfl rfl rfl rfl rfl
  offer := by
    intro s o recipient ackCallback puback item h _ _ _
    cases o with
    | task t => exact Paying.emit h rfl rfl
    | reader =>
        exact Working.move (.offered _ _) h (fun _ h => by cases h) rfl rfl rfl rfl fun _ hother => .inr hother
  put := by
    intro s o recipient entry ackCallback puback h _
    cases o with
    | task t => exact Paying.extend h rfl rfl rfl rfl rfl
    | reader => exact Working.pay (.put _ _ _) h (fun _ h => by cases h) rfl rfl rfl rfl rfl rfl
  withdraw := by
    intro s o recipient entry ackCallback puback found h _
    cases o with
    | task t => exact Paying.extend h rfl rfl rfl rfl rfl
    | reader => exact Working.pay (.put _ _ _) h (fun _ h => by cases h) rfl rfl rfl rfl rfl rfl
  puback := by
    intro s o seq packetId h
    cases o with
    | task t => exact Paying.extend h rfl rfl rfl rfl rfl
    | reader =>
        refine Working.move (.sentPuback _ _) h (fun _ h => by cases h) rfl rfl rfl rfl fun _ hother => ?_
        cases hother
  replay _ h := ⟨h.log, h.stored, h.ended⟩
  quiet := by
    intro s event hquiet h
    cases event with
    | noSubscriber seq => exact h.emit rfl rfl
    | buffered seq => exact h.emit rfl rfl
    | rejected seq => exact h.emit rfl rfl
    | dropped seq => exact h.emit rfl rfl
    | aborted reasonCode => exact h.emit rfl rfl
    | _ => cases hquiet
  get _ h := ⟨h.log, h.stored, h.ended⟩
  ack := by
    intro s i message _ _ h
    have hset : ∀ m, Paying ((s.setTaken i m).emit (.acked message.seq)) :=
      fun _ => h.extend rfl rfl rfl rfl rfl
    rcases s.ack_cases i message with heq | ⟨marked, -, -, -, heq | ⟨pid, -, -, heq⟩⟩ |
      ⟨pid, subscription, -, heq⟩
    · rw [heq]
      exact h
    · rw [heq]
      exact ⟨h.log, h.stored, h.ended⟩
    · rw [heq]
      exact (hset marked).extend rfl rfl rfl rfl rfl
    · rw [heq]
      exact (hset _).extend rfl rfl rfl rfl rfl
  index _ h := ⟨h.log, h.stored, h.ended⟩
  detach _ _ h := ⟨h.log, h.stored, h.ended⟩
  arrive := by
    intro s packet claim write _ hidle h
    rw [arrived_frame]
    exact h.arrive hidle rfl rfl
  exceed _ _ h := h.emit rfl rfl
  resend _ h := h.emit rfl rfl
  pubrelUnknown := by
    intro s packet write _ hidle _ h
    have hreceived : Paying (s.emit (.receivedPubrel packet.packetId)) := h.arrive hidle rfl rfl
    exact hreceived.emit rfl rfl
  pubrelKnown := by
    intro s packet write flight _ hidle _ h
    have hreceived : Paying (s.emit (.receivedPubrel packet.packetId)) := h.arrive hidle rfl rfl
    refine ⟨⟨(fun h => by cases h), hreceived.log⟩, (h.working hidle .returned).taken, fun recipient howed => ?_⟩
    obtain ⟨hdelivered, hrecipient, -⟩ := debt_eq_some howed
    rw [hdelivered, ← hrecipient]
    exact .inl rfl
  route := by
    intro s o received recipient ackCallback puback _ _ _ henters h
    have hrouted : Paying (s.emit (.routed received.seq)) := h.emit rfl rfl
    cases o with
    | task t => exact hrouted
    | reader => exact hrouted.working (henters rfl) _
  routeNowhere _ h := h.emit rfl rfl
  routeRefused := by
    intro s seq oid h
    have hrouted : Paying (s.emit (.routed seq)) := h.emit rfl rfl
    exact hrouted.emit rfl rfl
  accept := by
    intro s received recipient pid _ _ _ h
    have hrouted : Paying (s.emit (.routed received.seq)) := h.emit rfl rfl
    have haccepted : Paying ((s.emit (.routed received.seq)).emit (.accepted received.seq pid)) :=
      hrouted.emit rfl rfl
    exact haccepted.extend rfl rfl rfl rfl rfl
  acceptManual := by
    intro s o received recipient pid _ _ _ henters h
    have hrouted : Paying (s.emit (.routed received.seq)) := h.emit rfl rfl
    have haccepted : Paying (((s.emit (.routed received.seq)).addPendingAck pid).emit
        (.accepted received.seq pid)) :=
      hrouted.extend rfl rfl rfl rfl rfl
    cases o with
    | task t => exact haccepted
    | reader => exact haccepted.working (henters rfl) _

/-! ## Flows that the application acknowledged -/

/-- The message was put in the queue of its subscription. -/
def WasPut (seq : Nat) (log : List InboundEvent) : Prop :=
  ∃ oid detached, .put seq oid detached ∈ log

theorem WasPut.later {seq : Nat} {log : List InboundEvent} (h : WasPut seq log)
    (event : InboundEvent) : WasPut seq (event :: log) := by
  obtain ⟨oid, detached, hput⟩ := h
  exact ⟨oid, detached, List.mem_cons_of_mem _ hput⟩

/-- A flow that needs no hand-over at its PUBCOMP had it before. -/
def PutBefore (event : InboundEvent) (earlier : List InboundEvent) : Prop :=
  ∀ flight, event.completes = some flight → flight.delivered = true →
    WasPut flight.recipient.message.seq earlier

theorem putBefore {event : InboundEvent} (h : event.completes = none)
    (earlier : List InboundEvent) : PutBefore event earlier := by
  intro flight hflight
  rw [h] at hflight
  cases hflight

/-- The message can register its own flow. -/
def Message.registers (message : Message) : Prop :=
  ∃ pid subscription, message.ackCallback = some (.pubrec pid subscription)

/-- What the application has, or may take, was put before. -/
structure Delivered (s : InboundPublishFlow) : Prop where
  log : History.Each PutBefore s.log
  flights : ∀ item ∈ s.inflightQos2In, item.2.delivered = true →
    WasPut item.2.recipient.message.seq s.log
  queued : ∀ item ∈ s.queued, item.2.registers → WasPut item.2.seq s.log
  taken : ∀ message ∈ s.taken, message.registers → WasPut message.seq s.log

namespace Delivered

variable {s next : InboundPublishFlow} {event : InboundEvent}

theorem extend (h : Delivered s) (hlog : next.log = event :: s.log)
    (hflights : ∀ item ∈ next.inflightQos2In, item.2.delivered = true →
      item ∈ s.inflightQos2In ∨ WasPut item.2.recipient.message.seq s.log)
    (hqueued : next.queued = s.queued) (htaken : next.taken = s.taken)
    (hevent : PutBefore event s.log) : Delivered next where
  log := by
    rw [hlog]
    exact ⟨hevent, h.log⟩
  flights item hitem hdelivered := by
    rw [hlog]
    rcases hflights item hitem hdelivered with hold | hput
    · exact (h.flights item hold hdelivered).later event
    · exact hput.later event
  queued item hitem hregisters := by
    rw [hlog]
    exact (h.queued item (hqueued ▸ hitem) hregisters).later event
  taken message hmessage hregisters := by
    rw [hlog]
    exact (h.taken message (htaken ▸ hmessage) hregisters).later event

theorem emit (h : Delivered s) (hcompletes : event.completes = none) : Delivered (s.emit event) :=
  h.extend rfl (fun _ hitem _ => .inl hitem) rfl rfl (putBefore hcompletes _)

/-- A put adds its own message to the queues. -/
theorem put (h : Delivered s) {items : List (Nat × Message)} {seq oid : Nat} {detached : Bool}
    (hitems : ∀ item ∈ items, item ∈ s.queued ∨ item.2.seq = seq) :
    Delivered ({ s with queued := items }.emit (.put seq oid detached)) where
  log := ⟨putBefore rfl _, h.log⟩
  flights item hitem hdelivered := (h.flights item hitem hdelivered).later _
  queued item hitem hregisters := by
    rcases hitems item hitem with hold | hseq
    · exact (h.queued item hold hregisters).later _
    · rw [hseq]
      exact ⟨oid, detached, List.mem_cons_self⟩
  taken message hmessage hregisters := (h.taken message hmessage hregisters).later _

theorem mem_push {queue : Nat} {message : Message} {item : Nat × Message}
    (h : item ∈ (s.push queue message).queued) : item ∈ s.queued ∨ item.2.seq = message.seq := by
  rcases List.mem_append.mp h with hold | hnew
  · exact .inl hold
  · rw [List.mem_singleton.mp hnew]
    exact .inr rfl

theorem setTaken (h : Delivered s) {i : Nat} {message marked : Message}
    (htaken : s.taken[i]? = some message) (hseq : marked.seq = message.seq)
    (hregisters : marked.registers → message.registers) : Delivered (s.setTaken i marked) where
  log := h.log
  flights := h.flights
  queued := h.queued
  taken other hother hother' := by
    rcases List.mem_or_eq_of_mem_set hother with hold | rfl
    · exact h.taken other hold hother'
    · rw [hseq]
      exact h.taken message (List.mem_of_getElem? htaken) (hregisters hother')

theorem ack (h : Delivered s) {i : Nat} {message : Message}
    (htaken : s.taken[i]? = some message) : Delivered (s.ack i message) := by
  rcases s.ack_cases i message with heq | ⟨marked, -, hseq, hcallback, hack⟩ |
    ⟨pid, subscription, hcallback, heq⟩
  · rw [heq]
    exact h
  · have hmarked : Delivered (s.setTaken i marked) := by
      refine h.setTaken htaken hseq ?_
      rintro ⟨pid, subscription, hregisters⟩
      rcases hcallback with hsame | ⟨other, hother⟩
      · exact ⟨pid, subscription, hsame ▸ hregisters⟩
      · rw [hother] at hregisters
        cases hregisters
    rcases hack with heq | ⟨pid, -, -, heq⟩
    · rw [heq]
      exact hmarked
    · rw [heq]
      have hacked : Delivered ((s.setTaken i marked).emit (.acked message.seq)) := hmarked.emit rfl
      exact hacked.extend rfl (fun _ hitem _ => .inl hitem) rfl rfl (putBefore rfl _)
  · rw [heq]
    have hregisters : message.registers := ⟨pid, subscription, hcallback⟩
    have hput := h.taken message (List.mem_of_getElem? htaken) hregisters
    have hmarked : Delivered (s.setTaken i { message with resolved := true }) :=
      h.setTaken htaken rfl fun h => h
    have hacked : Delivered ((s.setTaken i { message with resolved := true }).emit
        (.acked message.seq)) := hmarked.emit rfl
    refine hacked.extend rfl (fun item hitem _ => ?_) rfl rfl (putBefore rfl _)
    rcases OrderedDict.mem_of_mem_set hitem with hold | rfl
    · exact .inl hold
    · exact .inr (hput.later _)

theorem rules : FlowRules (fun _ _ => True) Delivered fun s _ _ => Delivered s where
  take h _ := ⟨h.log, h.flights, h.queued, h.taken⟩
  store h _ _ := ⟨h.log, h.flights, h.queued, h.taken⟩
  enter _ h := h
  leave h := h
  raise _ h := h
  endReader h := ⟨h.log, h.flights, h.queued, h.taken⟩
  endTask h := h
  pause h := h
  resume h := h
  request h _ := h.emit rfl
  nobody h _ _ := h
  refuse h _ _ := h.emit rfl
  offer h _ _ _ := h.emit rfl
  put := by
    intro s o recipient entry ackCallback puback h _
    refine h.put fun item hitem => ?_
    rcases mem_push hitem with hold | hseq
    · exact .inl hold
    · exact .inr (hseq.trans (withCallback_seq _ _ _))
  withdraw := by
    intro s o recipient entry ackCallback puback found h hfound
    refine h.put fun item hitem => ?_
    rcases mem_push ((getNowait_mem hfound).2 item hitem) with hold | hseq
    · exact .inl hold
    · exact .inr (hseq.trans (withCallback_seq _ _ _))
  puback h := h.extend rfl (fun _ hitem _ => .inl hitem) rfl rfl (putBefore rfl _)
  replay _ h := ⟨h.log, h.flights, h.queued, h.taken⟩
  quiet := by
    intro s event hquiet h
    refine h.emit ?_
    cases event with
    | sentPubcomp packetId reasonCode flight => cases hquiet
    | _ => rfl
  get := by
    intro s queue found hfound h
    obtain ⟨hmem, hrest⟩ := getNowait_mem hfound
    refine ⟨h.log, h.flights, fun item hitem => h.queued item (hrest item hitem), ?_⟩
    intro message hmessage hregisters
    rcases List.mem_append.mp hmessage with hold | hnew
    · exact h.taken message hold hregisters
    · rw [List.mem_singleton.mp hnew] at hregisters ⊢
      exact h.queued (queue, found.1) hmem hregisters
  ack _ htaken h := ack h htaken
  index _ h := ⟨h.log, h.flights, h.queued, h.taken⟩
  detach _ _ h := ⟨h.log, h.flights,
    fun item hitem => h.queued item (List.mem_filter.mp hitem).1, h.taken⟩
  arrive _ _ h := by
    rw [arrived_frame]
    exact h.extend rfl (fun _ hitem _ => .inl hitem) rfl rfl (putBefore rfl _)
  exceed _ _ h := h.emit rfl
  resend _ h := h.emit rfl
  pubrelUnknown := by
    intro s packet write _ _ _ h
    have hreceived : Delivered (s.emit (.receivedPubrel packet.packetId)) := h.emit rfl
    exact hreceived.emit rfl
  pubrelKnown := by
    intro s packet write flight _ _ hget h
    have hreceived : Delivered (s.emit (.receivedPubrel packet.packetId)) := h.emit rfl
    refine hreceived.extend rfl (fun item hitem _ => .inl (OrderedDict.mem_of_mem_pop hitem)) rfl
      rfl ?_
    intro other hother hdelivered
    cases hother
    exact (h.flights _ (OrderedDict.mem_of_get hget) hdelivered).later _
  route _ _ _ _ h := h.emit rfl
  routeNowhere _ h := h.emit rfl
  routeRefused := by
    intro s seq oid h
    have hrouted : Delivered (s.emit (.routed seq)) := h.emit rfl
    exact hrouted.emit rfl
  accept := by
    intro s received recipient pid _ _ _ h
    have hrouted : Delivered (s.emit (.routed received.seq)) := h.emit rfl
    have haccepted : Delivered ((s.emit (.routed received.seq)).emit (.accepted received.seq pid)) :=
      hrouted.emit rfl
    refine haccepted.extend rfl (fun item hitem hdelivered => ?_) rfl rfl (putBefore rfl _)
    rcases OrderedDict.mem_of_mem_set hitem with hold | rfl
    · exact .inl hold
    · cases hdelivered
  acceptManual := by
    intro s o received recipient pid _ _ _ _ h
    have hrouted : Delivered (s.emit (.routed received.seq)) := h.emit rfl
    exact hrouted.extend rfl (fun _ hitem _ => .inl hitem) rfl rfl (putBefore rfl _)

theorem start (config : Config) : Delivered (start config) where
  log := trivial
  flights := fun _ h => by cases h
  queued item hitem hregisters := by
    obtain ⟨entry, -, rfl⟩ := List.mem_map.mp hitem
    obtain ⟨pid, subscription, hregisters⟩ := hregisters
    cases hregisters
  taken := fun _ h => by cases h

end Delivered

/-! ## Every PUBCOMP -/

theorem Paying.start (config : Config) : Paying (start config) where
  log := trivial
  stored := fun _ h => by cases h
  ended := fun _ h => by cases h

/-- A PUBREL without a registered flow is completed, and nothing else happens. -/
theorem pubrel_unknown {s next : InboundPublishFlow} {packet : PubReply} {write : WriteOutcome}
    (hget : OrderedDict.get s.inflightQos2In packet.packetId = none)
    (hstep : s.step (.pubrel packet write) = some next) :
    next.log = .sentPubcomp packet.packetId 0x92 none :: .receivedPubrel packet.packetId :: s.log := by
  obtain ⟨-, heq⟩ := Option.ite_none_right_eq_some.mp hstep
  cases heq
  have hunknown : s.handlePubrel packet write =
      ((s.emit (.receivedPubrel packet.packetId)).emit (.sentPubcomp packet.packetId 0x92 none),
        sent write none) := by
    unfold handlePubrel
    simp only [show (s.emit (.receivedPubrel packet.packetId)).inflightQos2In = s.inflightQos2In
      from rfl, hget]
  rw [hunknown]
  cases write <;> rfl

end Zmqtt
