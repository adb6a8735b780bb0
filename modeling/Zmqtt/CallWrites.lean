import Zmqtt.Reencode
import Zmqtt.SubscriptionGuards

/-!
# What the calls write

A step of a call writes at most one packet: the PUBLISH it was given, or the packet of a
request that serves the call.  `Emits c call s requests next` says so of the state after a step of
the call `c`, whatever the way through its code; `requests` are those the step may begin.
-/

namespace Zmqtt

/-- The packets a log shows as written. -/
def Event.written? : Event → Option Packet
  | .wrote packet => some packet
  | _ => none

def wire (log : List Event) : List Packet := log.filterMap Event.written?

theorem wire_append (log : List Event) (event : Event) :
    wire (log ++ [event]) = wire log ++ event.written?.toList := by
  rw [wire, List.filterMap_append]
  cases h : event.written? <;> simp [wire, h]

theorem wire_quiet (log : List Event) {event : Event} (h : event.written? = none) :
    wire (log ++ [event]) = wire log := by
  rw [wire_append, h, Option.toList_none, List.append_nil]

/-- The requests a guarded call makes. -/
inductive Serves : GuardedCall → Request → Prop
  | subscribe (filters : List SubscriptionRequest) (queue : Nat) (autoAck : Bool)
      (identifier : Option Int) (newEntries : List Str) :
      Serves (.subscribe filters queue autoAck identifier)
        (.subscribe filters identifier newEntries)
  | unsubscribe {filters brokerFilters : List Str} (observedFilters : List Str)
      (h : brokerFilters ⊆ filters) :
      Serves (.unsubscribe filters) (.unsubscribe brokerFilters observedFilters)
  | restoreObservers (filters : List Str) (acknowledged : Option (List Str × UnsubAck))
      (observedFilters : List Str) :
      Serves (.unsubscribe filters) (.restoreObservers acknowledged observedFilters)
  | addObserver (topic : Str) : Serves (.addResponseObserver topic) (.addObserver topic)
  | removeObserver (topic : Str) : Serves (.removeResponseObserver topic) (.removeObserver topic)

namespace Connection

variable {s now next : Connection} {c : Nat} {call : Call} {requests : Request → Prop}

/-- What `publish` reads and no step changes. -/
def limits (s : Connection) : Version × QoS × Bool :=
  (s.version, s.maxPublishQos, s.retainAvailable)

/-- In the middle of a step that has written nothing. -/
structure Quiet (s now : Connection) : Prop where
  calls : now.calls = s.calls
  limits : now.limits = s.limits
  written : wire now.log = wire s.log

theorem Quiet.refl (s : Connection) : Quiet s s := ⟨rfl, rfl, rfl⟩

/-- The phase a call is in after the step: inside one of the requests, or outside any and
behind its guards. -/
def Within (requests : Request → Prop) : Phase → Prop
  | .guards _ _ => False
  | .request request _ _ _ => requests request
  | _ => True

/-- The state after a step of the call `c`. -/
structure Emits (c : Nat) (call : Call) (s : Connection) (requests : Request → Prop)
    (next : Connection) : Prop where
  calls : ∃ f, next.calls = s.calls.modify c f ∧ Within requests (f call).phase
  limits : next.limits = s.limits
  written : wire next.log = wire s.log ∨
    ∃ request pid, requests request ∧ Encodes (encode (request.packet pid) s.version) ∧
      wire next.log = wire s.log ++ [request.packet pid]

theorem Quiet.emits (h : Quiet s now) (f : Call → Call)
    (hf : Within requests (f call).phase) :
    Emits c call s requests { now with calls := now.calls.modify c f } :=
  ⟨⟨f, by rw [h.calls], hf⟩, h.limits, .inl h.written⟩

theorem Quiet.finish (h : Quiet s now) (outcome : Outcome) :
    Emits c call s requests (now.finish c outcome) :=
  h.emits _ trivial

theorem Quiet.raiseFromRequest (h : Quiet s now) (request : Request) (error : MqttError) :
    Emits c call s requests (now.raiseFromRequest c request error) := by
  have hindex : ∀ index, Quiet s (now.setSubscriptions index) :=
    fun _ => ⟨h.calls, h.limits, h.written⟩
  cases request with
  | subscribe filters identifier newEntries => exact (hindex _).finish _
  | unsubscribe brokerFilters observedFilters => exact h.finish _
  | restoreObservers acknowledged observedFilters =>
      simp only [Connection.raiseFromRequest]
      split <;> exact h.finish _
  | addObserver topic => exact (hindex _).finish _
  | removeObserver topic => exact h.finish _

/-- **A request** writes its packet, or nothing. -/
theorem Quiet.beginRequest (h : Quiet s now) {request : Request} (hrequest : requests request)
    (write : WriteOutcome) : Emits c call s requests (now.beginRequest c request write) := by
  unfold Connection.beginRequest
  split
  · exact h.raiseFromRequest _ _
  · split
    · exact h.raiseFromRequest _ _
    · next pid pool _ =>
        have hopened : Quiet s (now.openRequest request.kind pid pool) :=
          ⟨h.calls, h.limits, (wire_quiet now.log rfl).trans h.written⟩
        have hclosed : Quiet s ((now.openRequest request.kind pid pool).closeRequest
            request.kind pid) := ⟨hopened.calls, hopened.limits, hopened.written⟩
        simp only
        split
        · exact hclosed.raiseFromRequest _ _
        · next bytes hencode =>
            split
            · exact hclosed.raiseFromRequest _ _
            · have hversion : now.version = s.version := congrArg Prod.fst h.limits
              refine ⟨⟨_, congrArg (List.modify · c _) h.calls, hrequest⟩,
                h.limits, .inr ⟨request, pid, hrequest, ⟨bytes, hversion ▸ hencode⟩, ?_⟩⟩
              rw [← hopened.written]
              exact wire_append _ _

theorem Quiet.returnFromRequest (h : Quiet s now) {request : Request}
    (hrestore : ∀ brokerFilters observedFilters acknowledged,
      request = .unsubscribe brokerFilters observedFilters →
      requests (.restoreObservers acknowledged observedFilters))
    (packet : Packet) (write : WriteOutcome) :
    Emits c call s requests (now.returnFromRequest c request packet write) := by
  unfold Connection.returnFromRequest
  split
  · exact h.emits _ trivial
  · split
    · exact h.finish _
    · exact h.beginRequest (hrestore _ _ _ rfl) write
  · exact h.finish _
  · exact h.finish _
  · exact h.finish _
  · exact h.raiseFromRequest _ _

theorem Quiet.closeRequest (h : Quiet s now) (kind : RequestKind) (pid : Nat) :
    Quiet s (now.closeRequest kind pid) :=
  ⟨h.calls, h.limits, h.written⟩

theorem Emits.answerRequest {request : Request}
    (hrestore : ∀ brokerFilters observedFilters acknowledged,
      request = .unsubscribe brokerFilters observedFilters →
      requests (.restoreObservers acknowledged observedFilters))
    (pid : Nat) (packet : Packet) (write : WriteOutcome) :
    Emits c call s requests (s.answerRequest c request pid packet write) := by
  have hclosed := (Quiet.refl s).closeRequest request.kind pid
  unfold Connection.answerRequest
  simp only
  split
  · split
    · exact hclosed.raiseFromRequest _ _
    · exact hclosed.returnFromRequest hrestore _ _
  · exact hclosed.returnFromRequest hrestore _ _

theorem Emits.failRequest (request : Request) (pid : Nat) (error : MqttError) :
    Emits c call s requests (s.failRequest c request pid error) :=
  ((Quiet.refl s).closeRequest request.kind pid).raiseFromRequest _ _

/-- **A guarded call** begins only requests that serve it. -/
theorem Emits.enter (guarded : GuardedCall) (write : WriteOutcome) :
    Emits c call s (Serves guarded) (s.enter c guarded write) := by
  have hindex : ∀ index, Quiet s (s.setSubscriptions index) := fun _ => ⟨rfl, rfl, rfl⟩
  cases guarded with
  | subscribe filters queue autoAck identifier =>
      have hadded : Quiet s
          { s.setSubscriptions (s.state.subscriptions.addMany
              (s.newEntries filters queue autoAck identifier).1) with
            nextEntry := (s.newEntries filters queue autoAck identifier).2 } := ⟨rfl, rfl, rfl⟩
      have hserves := Serves.subscribe filters queue autoAck identifier
        ((s.newEntries filters queue autoAck identifier).1.map Prod.fst)
      simp only [Connection.enter, Connection.enterSubscribe]
      exact hadded.beginRequest hserves write
  | unsubscribe filters =>
      simp only [Connection.enter, Connection.enterUnsubscribe]
      split
      · exact (Quiet.refl s).finish _
      · split
        · exact (hindex _).beginRequest (.unsubscribe _ (List.filter_subset_self _)) write
        · split
          · exact (hindex _).beginRequest (.restoreObservers _ _ _) write
          · exact (hindex _).finish _
  | addResponseObserver topic =>
      simp only [Connection.enter, Connection.enterAddObserver]
      split
      · exact (Quiet.refl s).finish _
      · split
        · exact (Quiet.refl s).finish _
        · split
          · exact (hindex _).finish _
          · exact (hindex _).beginRequest (.addObserver topic) write
  | removeResponseObserver topic =>
      simp only [Connection.enter, Connection.enterRemoveObserver]
      split
      · exact (Quiet.refl s).finish _
      · split
        · exact (hindex _).finish _
        · exact (hindex _).beginRequest (.removeObserver topic) write

/-! ## Every step -/

/-- The requests a call may be in after a step, by its phase before. -/
def MayBegin (phase : Phase) (request : Request) : Prop :=
  match phase with
  | .guards guarded _ => Serves guarded request
  | .request current _ _ _ => request = current ∨
      ∃ brokerFilters observedFilters acknowledged,
        current = .unsubscribe brokerFilters observedFilters ∧
          request = .restoreObservers acknowledged observedFilters
  | _ => False

theorem Emits.resumeWrite {ok : Bool} (hstep : s.resumeWrite c call ok = some next) :
    Emits c call s (MayBegin call.phase) next := by
  have hquiet := Quiet.refl s
  unfold Connection.resumeWrite at hstep
  split at hstep
  · next request pid future hphase =>
      rw [hphase]
      split at hstep
      · cases hstep
        exact Emits.failRequest _ _ _
      · split at hstep <;> cases hstep
        · exact hquiet.emits _ (.inl rfl)
        · exact Emits.failRequest _ _ _
  · split at hstep
    · cases hstep
      exact hquiet.finish _
    · split at hstep <;> cases hstep
      · exact hquiet.emits _ trivial
      · exact hquiet.finish _
  · split at hstep
    · cases hstep
      exact hquiet.finish _
    · split at hstep <;> cases hstep <;> exact hquiet.finish _
  · cases hstep

theorem Emits.resumeFuture {write : WriteOutcome}
    (hstep : s.resumeFuture c call write = some next) :
    Emits c call s (MayBegin call.phase) next := by
  have hquiet := Quiet.refl s
  unfold Connection.resumeFuture at hstep
  split at hstep
  · next request pid future hphase =>
      rw [hphase]
      split at hstep
      · cases hstep
      · cases hstep
      · split at hstep <;> cases hstep
        · exact Emits.failRequest _ _ _
        · exact Emits.answerRequest (fun broker observed acknowledged heq =>
            .inr ⟨broker, observed, acknowledged, heq, rfl⟩) _ _ _
      · split at hstep <;> cases hstep <;> exact Emits.failRequest _ _ _
      · cases hstep
        exact Emits.failRequest _ _ _
  · split at hstep
    · cases hstep
    · cases hstep
    · split at hstep <;> cases hstep <;> exact hquiet.finish _
    · split at hstep <;> cases hstep <;> exact hquiet.finish _
    · cases hstep
      exact hquiet.finish _
  · cases hstep

/-- A call that stays where it is. -/
theorem within_self {phase : Phase} (h : ∀ guarded todo, phase ≠ .guards guarded todo) :
    Within (MayBegin phase) phase := by
  cases phase with
  | guards guarded todo => exact absurd rfl (h guarded todo)
  | request request pid future writing => exact .inl rfl
  | _ => trivial

/-- What a step of a call does: it stays in front of its guards, or emits. -/
theorem step_call {action : Action} (hcaller : action.caller = some c)
    (hcall : s.calls[c]? = some call) (hstep : s.step action = some next) :
    (∃ f, next.calls = s.calls.modify c f ∧
      (∃ guarded todo todo', call.phase = .guards guarded todo ∧
        (f call).phase = .guards guarded todo') ∧ next.limits = s.limits ∧
        wire next.log = wire s.log) ∨
      Emits c call s (MayBegin call.phase) next := by
  have hquiet := Quiet.refl s
  cases action with
  | acquireGuard c' =>
      cases hcaller
      obtain ⟨_, hcall', hstep⟩ := Option.bind_eq_some_iff.mp hstep
      cases hcall.symm.trans hcall'
      unfold Connection.acquireGuard at hstep
      split at hstep
      · next guarded filter todo hphase =>
          split at hstep
          · cases hstep
            exact .inr (hquiet.finish _)
          · split at hstep
            · cases hstep
              exact .inl ⟨_, rfl, ⟨guarded, _, todo, hphase, rfl⟩, rfl, rfl⟩
            · cases hstep
      · cases hstep
  | enter c' write =>
      cases hcaller
      obtain ⟨_, hcall', hstep⟩ := Option.bind_eq_some_iff.mp hstep
      cases hcall.symm.trans hcall'
      split at hstep
      · next guarded hphase =>
          rw [hphase]
          split at hstep
          · cases hstep
            exact .inr (hquiet.finish _)
          · cases hstep
            exact .inr (Emits.enter guarded write)
      · cases hstep
  | resumeWrite c' ok =>
      cases hcaller
      obtain ⟨_, hcall', hstep⟩ := Option.bind_eq_some_iff.mp hstep
      cases hcall.symm.trans hcall'
      exact .inr (Emits.resumeWrite hstep)
  | resumeFuture c' write =>
      cases hcaller
      obtain ⟨_, hcall', hstep⟩ := Option.bind_eq_some_iff.mp hstep
      cases hcall.symm.trans hcall'
      exact .inr (Emits.resumeFuture hstep)
  | resumeDrain c' ok =>
      cases hcaller
      obtain ⟨_, hcall', hstep⟩ := Option.bind_eq_some_iff.mp hstep
      cases hcall.symm.trans hcall'
      split at hstep
      · split at hstep
        · cases hstep
          exact .inr (hquiet.finish _)
        · split at hstep <;> cases hstep <;> exact .inr (hquiet.finish _)
      · cases hstep
  | cancel c' =>
      cases hcaller
      obtain ⟨_, hcall', hstep⟩ := Option.bind_eq_some_iff.mp hstep
      cases hcall.symm.trans hcall'
      unfold Connection.cancel at hstep
      by_cases hguards : ∃ guarded todo, call.phase = .guards guarded todo
      · obtain ⟨guarded, todo, hphase⟩ := hguards
        simp only [hphase] at hstep
        cases hstep
        exact .inl ⟨_, rfl, ⟨guarded, todo, todo, hphase, hphase⟩, rfl, rfl⟩
      · have hwithin := within_self fun guarded todo heq => hguards ⟨guarded, todo, heq⟩
        simp only at hstep
        split at hstep <;> cases hstep <;> exact .inr ⟨⟨_, rfl, hwithin⟩, rfl, .inl rfl⟩
  | _ => cases hcaller

/-- Every call in progress was admitted. -/
structure Admitted (admits : GuardedCall → Prop) (s : Connection) : Prop where
  guards : ∀ call ∈ s.calls, ∀ guarded todo, call.phase = .guards guarded todo → admits guarded
  requests : ∀ call ∈ s.calls, ∀ request pid future writing,
    call.phase = .request request pid future writing →
    ∃ guarded, admits guarded ∧ Serves guarded request

/-- What a step may write, by its action. -/
inductive MayWrite (admits : GuardedCall → Prop) (s : Connection) : Action → Packet → Prop
  | publish {packet : Publish} {write : WriteOutcome} (packetId : Option Int)
      (hqos : packet.qos.value ≤ s.maxPublishQos.value)
      (hretain : packet.retain = true → s.retainAvailable = true)
      (hnone : packet.qos = .atMostOnce → packetId = packet.packetId)
      (hsome : packet.qos ≠ .atMostOnce → packetId.isSome = true) :
      MayWrite admits s (.publish packet write) (.publish { packet with packetId })
  | request {action : Action} {guarded : GuardedCall} {request : Request} (pid : Nat)
      (hadmits : admits guarded) (hserves : Serves guarded request)
      (hcaller : action.caller.isSome = true) : MayWrite admits s action (request.packet pid)
  | pubrel {packet : PubReply} {write : WriteOutcome} :
      MayWrite admits s (.receive (.pubrec packet) write) (.pubrel { packetId := packet.packetId })

/-- The packets written by a step. -/
structure Writes (admits : GuardedCall → Prop) (s : Connection) (action : Action)
    (next : Connection) : Prop where
  limits : next.limits = s.limits
  written : wire next.log = wire s.log ∨
    ∃ packet, MayWrite admits s action packet ∧ Encodes (encode packet s.version) ∧
      wire next.log = wire s.log ++ [packet]

variable {admits : GuardedCall → Prop}

theorem Admitted.of_calls (h : s.Admitted admits) (hcalls : next.calls = s.calls) :
    next.Admitted admits := by
  constructor
  · rw [hcalls]
    exact h.guards
  · rw [hcalls]
    exact h.requests

theorem Admitted.mono {wider : GuardedCall → Prop} (h : s.Admitted admits)
    (hwider : ∀ guarded, admits guarded → wider guarded) : s.Admitted wider :=
  ⟨fun call hcall guarded todo hphase => hwider _ (h.guards call hcall guarded todo hphase),
    fun call hcall request pid future writing hphase =>
      (h.requests call hcall request pid future writing hphase).imp fun _ h => ⟨hwider _ h.1, h.2⟩⟩

/-- A new call that is not inside a request. -/
theorem Admitted.append (h : s.Admitted admits) {phase : Phase}
    (hcalls : next.calls = s.calls ++ [({ phase := phase } : Call)])
    (hguards : ∀ guarded todo, phase = .guards guarded todo → admits guarded)
    (hrequest : ∀ request pid future writing, phase ≠ .request request pid future writing) :
    next.Admitted admits := by
  constructor
  · intro call hcall guarded todo hphase
    rw [hcalls] at hcall
    rcases List.mem_append.mp hcall with hcall | hcall
    · exact h.guards call hcall guarded todo hphase
    · cases List.mem_singleton.mp hcall
      exact hguards guarded todo hphase
  · intro call hcall request pid future writing hphase
    rw [hcalls] at hcall
    rcases List.mem_append.mp hcall with hcall | hcall
    · exact h.requests call hcall request pid future writing hphase
    · cases List.mem_singleton.mp hcall
      exact absurd hphase (hrequest request pid future writing)

/-- A change of one call. -/
theorem Admitted.modify (h : s.Admitted admits) {f : Call → Call}
    (hcall : s.calls[c]? = some call) (hcalls : next.calls = s.calls.modify c f)
    (hguards : ∀ guarded todo, (f call).phase = .guards guarded todo → admits guarded)
    (hrequest : ∀ request pid future writing,
      (f call).phase = .request request pid future writing →
      ∃ guarded, admits guarded ∧ Serves guarded request) : next.Admitted admits := by
  have hmem : ∀ other ∈ next.calls, other ∈ s.calls ∨ other = f call := by
    intro other hother
    obtain ⟨i, hi⟩ := List.mem_iff_getElem?.mp hother
    rw [hcalls, List.getElem?_modify] at hi
    obtain ⟨old, hold, heq⟩ := Option.map_eq_some_iff.mp hi
    by_cases hc : c = i
    · rw [← hc, hcall] at hold
      cases hold
      rw [if_pos hc] at heq
      exact .inr heq.symm
    · rw [if_neg hc] at heq
      exact .inl (heq ▸ List.mem_of_getElem? hold)
  constructor
  · intro other hother guarded todo hphase
    rcases hmem other hother with hold | rfl
    · exact h.guards other hold guarded todo hphase
    · exact hguards guarded todo hphase
  · intro other hother request pid future writing hphase
    rcases hmem other hother with hold | rfl
    · exact h.requests other hold request pid future writing hphase
    · exact hrequest request pid future writing hphase

/-- The requests that may follow belong to an admitted call. -/
theorem Admitted.follows (h : s.Admitted admits) (hcall : s.calls[c]? = some call)
    {request : Request} (hfollows : MayBegin call.phase request) :
    ∃ guarded, admits guarded ∧ Serves guarded request := by
  have hmem := List.mem_of_getElem? hcall
  cases hphase : call.phase with
  | guards guarded todo =>
      rw [hphase] at hfollows
      exact ⟨guarded, h.guards call hmem guarded todo hphase, hfollows⟩
  | request current pid future writing =>
      rw [hphase] at hfollows
      obtain ⟨guarded, hadmits, hserves⟩ := h.requests call hmem current pid future writing hphase
      rcases hfollows with rfl | ⟨broker, observed, acknowledged, rfl, rfl⟩
      · exact ⟨guarded, hadmits, hserves⟩
      · cases hserves
        exact ⟨_, hadmits, .restoreObservers _ _ _⟩
  | _ =>
      rw [hphase] at hfollows
      exact hfollows.elim

/-- **A step of a call** keeps the calls admitted and writes a packet of one of them. -/
theorem Admitted.step_call {action : Action} (h : s.Admitted admits)
    (hcaller : action.caller = some c) (hcall : s.calls[c]? = some call)
    (hstep : s.step action = some next) : next.Admitted admits ∧ Writes admits s action next := by
  have hmem := List.mem_of_getElem? hcall
  rcases Connection.step_call hcaller hcall hstep with
    ⟨f, hcalls, ⟨guarded, todo, todo', hphase, hkeep⟩, hlimits, hwritten⟩ | hemits
  · refine ⟨h.modify hcall hcalls ?_ ?_, hlimits, .inl hwritten⟩
    · intro other todo'' heq
      cases hkeep.symm.trans heq
      exact h.guards call hmem guarded todo hphase
    · intro request pid future writing heq
      cases hkeep.symm.trans heq
  · obtain ⟨f, hcalls, hwithin⟩ := hemits.calls
    refine ⟨h.modify hcall hcalls ?_ ?_, hemits.limits, ?_⟩
    · intro guarded todo heq
      rw [heq] at hwithin
      exact hwithin.elim
    · intro request pid future writing heq
      rw [heq] at hwithin
      exact h.follows hcall hwithin
    · rcases hemits.written with hquiet | ⟨request, pid, hfollows, hencodes, hwritten⟩
      · exact .inl hquiet
      · obtain ⟨guarded, hadmits, hserves⟩ := h.follows hcall hfollows
        exact .inr ⟨_, .request pid hadmits hserves (by rw [hcaller]; rfl), hencodes, hwritten⟩

/-- A publish writes its PUBLISH, within the limits. -/
theorem Admitted.publish (h : s.Admitted admits) (packet : Publish) (write : WriteOutcome) :
    (s.publish packet write).Admitted admits ∧
      Writes admits s (.publish packet write) (s.publish packet write) := by
  have hfinished : ∀ {t : Connection} (outcome : Outcome), t.calls = s.calls →
      t.limits = s.limits → wire t.log = wire s.log →
      (t.addCall (.finished outcome)).Admitted admits ∧
        Writes admits s (.publish packet write) (t.addCall (.finished outcome)) :=
    fun {t} outcome hcalls hlimits hwritten =>
      ⟨h.append (congrArg (· ++ _) hcalls) (fun _ _ heq => by cases heq)
        (fun _ _ _ _ heq => by cases heq), hlimits, .inl hwritten⟩
  unfold Connection.publish
  split
  · exact hfinished _ rfl rfl rfl
  split
  · exact hfinished _ rfl rfl rfl
  rename_i hqos
  split
  · exact hfinished _ rfl rfl rfl
  rename_i hretain
  have hretain : packet.retain = true → s.retainAvailable = true := by simpa using hretain
  split
  · rename_i hzero
    have hmay : MayWrite admits s (.publish packet write) (.publish packet) :=
      .publish packet.packetId (not_lt.mp hqos) hretain (fun _ => rfl) (fun hne => absurd hzero hne)
    unfold Connection.publishQos0
    split
    · exact hfinished _ rfl rfl rfl
    · rename_i bytes hencode
      split
      · exact hfinished _ rfl rfl rfl
      · refine ⟨h.append rfl (fun _ _ heq => by cases heq)
          (fun _ _ _ _ heq => by cases heq), rfl, .inr ⟨_, hmay, ⟨bytes, hencode⟩, ?_⟩⟩
        exact wire_append _ _
      · refine ⟨h.append rfl (fun _ _ heq => by cases heq)
          (fun _ _ _ _ heq => by cases heq), rfl, .inr ⟨_, hmay, ⟨bytes, hencode⟩, ?_⟩⟩
        exact wire_append _ _
  · rename_i hzero
    unfold Connection.publishAcknowledged
    split
    · exact hfinished _ rfl rfl rfl
    · rename_i pid pool hacquire
      have hopened : wire (s.openFlight { packet with packetId := some (pid : Int) } pid
          pool).log = wire s.log := wire_quiet s.log rfl
      have hmay : MayWrite admits s (.publish packet write)
          (.publish { packet with packetId := some (pid : Int) }) :=
        .publish (some pid) (not_lt.mp hqos) hretain (fun heq => absurd heq hzero) (fun _ => rfl)
      simp only
      split
      · exact hfinished _ rfl rfl hopened
      · rename_i bytes hencode
        split
        · exact hfinished _ rfl rfl hopened
        · refine ⟨h.append rfl (fun _ _ heq => by cases heq)
            (fun _ _ _ _ heq => by cases heq), rfl, .inr ⟨_, hmay, ⟨bytes, hencode⟩, ?_⟩⟩
          rw [← hopened]
          exact wire_append _ _

/-- A handler of the read loop writes a PUBREL, or nothing. -/
theorem dispatch_writes (packet : Packet) (write : WriteOutcome) :
    (s.dispatch packet write).calls = s.calls ∧
      Writes admits s (.receive packet write) (s.dispatch packet write) := by
  have hquiet : ∀ {t : Connection}, t.calls = s.calls → t.limits = s.limits →
      wire t.log = wire s.log →
      t.calls = s.calls ∧ Writes admits s (.receive packet write) t :=
    fun hcalls hlimits hwritten => ⟨hcalls, hlimits, .inl hwritten⟩
  have hhandled : ∀ packet : Packet, wire (s.log ++ [.handled packet]) = wire s.log :=
    fun packet => wire_quiet s.log rfl
  cases packet with
  | publish packet => exact hquiet rfl rfl (hhandled _)
  | pubrel packet => exact hquiet rfl rfl (hhandled _)
  | pingresp => exact hquiet rfl rfl (hhandled _)
  | puback packet =>
      simp only [Connection.dispatch, Connection.handlePuback]
      split
      · exact hquiet rfl rfl rfl
      · exact hquiet rfl rfl (hhandled _)
  | pubrec packet =>
      simp only [Connection.dispatch, Connection.handlePubrec]
      split
      · exact hquiet rfl rfl rfl
      · split
        · exact hquiet rfl rfl rfl
        · split
          · exact hquiet rfl rfl (hhandled _)
          · split
            · exact hquiet rfl rfl (hhandled _)
            · rename_i bytes hencode
              have hwrote : wire (s.log ++ [.handled (.pubrec packet)] ++
                  [.wrote (.pubrel { packetId := packet.packetId })]) =
                  wire s.log ++ [.pubrel { packetId := packet.packetId }] := by
                rw [wire_append, hhandled]
                rfl
              split
              · exact hquiet rfl rfl (hhandled _)
              · exact ⟨rfl, rfl, .inr ⟨_, .pubrel, ⟨bytes, hencode⟩, hwrote⟩⟩
              · exact ⟨rfl, rfl, .inr ⟨_, .pubrel, ⟨bytes, hencode⟩, hwrote⟩⟩
  | pubcomp packet =>
      simp only [Connection.dispatch, Connection.handlePubcomp]
      split
      · exact hquiet rfl rfl rfl
      · exact hquiet rfl rfl (hhandled _)
  | suback packet =>
      simp only [Connection.dispatch, Connection.handleSuback, Connection.handleAnswer]
      split
      · exact hquiet rfl rfl rfl
      · split
        · exact hquiet rfl rfl (hhandled _)
        · exact hquiet rfl rfl rfl
  | unsuback packet =>
      simp only [Connection.dispatch, Connection.handleUnsuback, Connection.handleAnswer]
      split
      · exact hquiet rfl rfl rfl
      · split
        · exact hquiet rfl rfl (hhandled _)
        · exact hquiet rfl rfl rfl
  | disconnect packet => exact hquiet rfl rfl rfl
  | auth packet =>
      simp only [Connection.dispatch]
      split
      · exact hquiet rfl rfl (hhandled _)
      · exact hquiet rfl rfl rfl
  | _ => exact hquiet rfl rfl rfl

/-- **Every step** keeps the calls admitted and writes at most one packet, for which its
action or an admitted call stands. -/
theorem Admitted.step {action : Action} (h : s.Admitted admits)
    (hnew : ∀ guarded, action = .call guarded → admits guarded)
    (hstep : s.step action = some next) : next.Admitted admits ∧ Writes admits s action next := by
  cases hcaller : action.caller with
  | some c =>
      obtain ⟨call, hcall⟩ : ∃ call, s.calls[c]? = some call := by
        cases action <;> cases hcaller <;>
          exact (Option.bind_eq_some_iff.mp hstep).imp fun _ h => h.1
      exact h.step_call hcaller hcall hstep
  | none =>
      cases action with
      | publish packet write =>
          cases hstep
          exact h.publish packet write
      | call guarded =>
          cases hstep
          refine ⟨h.append rfl (fun other todo heq => ?_) (fun _ _ _ _ heq => by cases heq), rfl,
            .inl rfl⟩
          cases heq
          exact hnew _ rfl
      | receive packet write =>
          obtain ⟨-, heq⟩ := Option.ite_none_right_eq_some.mp hstep
          cases heq
          obtain ⟨hcalls, hwrites⟩ := dispatch_writes packet write
          exact ⟨h.of_calls hcalls, hwrites⟩
      | resumeReader ok =>
          obtain ⟨-, heq⟩ := Option.ite_none_right_eq_some.mp hstep
          cases heq
          cases ok <;> exact ⟨h.of_calls rfl, rfl, .inl rfl⟩
      | exit =>
          obtain ⟨-, heq⟩ := Option.ite_none_left_eq_some.mp hstep
          cases heq
          exact ⟨h.of_calls rfl, rfl, .inl rfl⟩
      | _ => cases hcaller

end Connection

end Zmqtt
