import Zmqtt.IndexOwners
import Zmqtt.ProtocolRules
import Zmqtt.SubscriptionGuards
import Zmqtt.SubscriptionScan

/-!
# Which call answers for an entry

A subscribe registers its filters before it is acknowledged and takes them back if it
fails; an unsubscribe removes its filters once it has its guards.  In between the entry
of a filter is claimed by the call.  A step of a call adds only entries that it claims,
and keeps its claims on the entries that are left, unless it is interrupted: an
unsubscribe that is cancelled in front of its guards, or a subscribe that fails in the
drain after its SUBACK, leaves entries behind that no call claims.
-/

namespace Zmqtt

/-- The filters a call answers for: a subscribe, `starts`, for what it has registered,
and an unsubscribe that waits for its guards for what it is to remove. -/
def Phase.claims (starts : Bool) (filter : Str) : Phase → Prop
  | .guards (.unsubscribe filters) _ => starts = false ∧ filter ∈ filters
  | .request (.subscribe _ _ newEntries) _ _ _ => starts = true ∧ filter ∈ newEntries
  | .draining (.subscribed _ queues) => starts = true ∧ filter ∈ queues
  | .finished (.subscribed _ queues) => starts = true ∧ filter ∈ queues
  | _ => False

/-- An unsubscribe that waits for its guards is not asked to stop. -/
def Call.removes (call : Call) : Bool :=
  match call.phase with
  | .guards (.unsubscribe _) _ => !call.cancelRequested
  | _ => true

/-- A subscribe that is acknowledged gets through its drain. -/
def Call.drains (ok : Bool) (call : Call) : Bool :=
  match call.phase with
  | .draining (.subscribed _ _) => ok && !call.cancelRequested
  | _ => true

theorem Call.removes_unclaimed {call : Call} {guarded : GuardedCall} {todo : List Str}
    (hphase : call.phase = .guards guarded todo) (hremoves : call.removes = true)
    (hcancel : call.cancelRequested = true) :
    ∀ starts filter, ¬ call.phase.claims starts filter := by
  rw [Call.removes, hphase] at hremoves
  rw [hphase]
  cases guarded with
  | unsubscribe filters => simp [hcancel] at hremoves
  | _ => exact fun _ _ h => h

namespace Connection

variable {s next now : Connection} {c : Nat} {call : Call}

/-- The registered entries. -/
def entries (s : Connection) : List IndexItem := s.state.subscriptions.entries

@[simp] theorem entries_openRequest (s : Connection) (kind : RequestKind) (pid : Nat)
    (pool : PacketIdPool) : (s.openRequest kind pid pool).entries = s.entries := by
  cases kind <;> rfl

@[simp] theorem entries_closeRequest (s : Connection) (kind : RequestKind) (pid : Nat) :
    (s.closeRequest kind pid).entries = s.entries := by
  cases kind <;> rfl

/-- What a step of a call does to the entries: it adds only what it claims, and keeps
its claims on what is left. -/
structure Moves (s next : Connection) (before after : Phase) : Prop where
  entries : ∀ filter entry, OrderedDict.get next.entries filter = some entry →
    OrderedDict.get s.entries filter = some entry ∨
      (∃ filters autoAck identifier,
        before = .guards (.subscribe filters entry.queue autoAck identifier) []) ∧
        after.claims true filter
  claims : ∀ starts filter, before.claims starts filter →
    filter ∈ OrderedDict.keys next.entries → after.claims starts filter
  guards : ∀ guarded todo, after = .guards guarded todo → ∃ todo', before = .guards guarded todo'

/-- The step is one of the call `c`. -/
def Advances (c : Nat) (call : Call) (s next : Connection) : Prop :=
  ∃ f, next.calls = s.calls.modify c f ∧ Moves s next call.phase (f call).phase

/-- In the middle of a step of a call that claims `fresh`. -/
structure Midway (call : Call) (s now : Connection) (fresh : List Str) : Prop where
  calls : now.calls = s.calls
  entries : ∀ filter entry, OrderedDict.get now.entries filter = some entry →
    OrderedDict.get s.entries filter = some entry ∨
      (∃ filters autoAck identifier,
        call.phase = .guards (.subscribe filters entry.queue autoAck identifier) []) ∧
        filter ∈ fresh
  claims : ∀ starts filter, call.phase.claims starts filter →
    filter ∈ OrderedDict.keys now.entries → starts = true ∧ filter ∈ fresh

variable {fresh : List Str}

theorem Midway.same (h : Midway call s now fresh) (hcalls : next.calls = now.calls)
    (hentries : next.entries = now.entries) : Midway call s next fresh := by
  refine ⟨hcalls.trans h.calls, ?_, ?_⟩
  · rw [hentries]
    exact h.entries
  · rw [hentries]
    exact h.claims

/-- The claimed filters are taken back. -/
theorem Midway.removeMany (h : Midway call s now fresh) :
    Midway call s (now.setSubscriptions (now.state.subscriptions.removeMany fresh)) [] := by
  refine ⟨h.calls, fun filter entry hget => ?_, fun starts filter hclaims hmem => ?_⟩
  · have hget : OrderedDict.get (now.state.subscriptions.removeMany fresh).entries filter =
        some entry := hget
    rw [SubscriptionIndex.get_removeMany] at hget
    split at hget
    · cases hget
    · next hnot => exact Or.inl ((h.entries filter entry hget).resolve_right fun h => hnot h.2)
  · have hmem := (SubscriptionIndex.mem_keys_removeMany fresh now.state.subscriptions).mp hmem
    exact absurd (h.claims starts filter hclaims hmem.2).2 hmem.1

/-- The call goes on to a phase that claims `fresh`. -/
theorem Advances.modify (h : Midway call s now fresh) (f : Call → Call)
    (hfresh : ∀ filter ∈ fresh, (f call).phase.claims true filter)
    (hguards : ∀ guarded todo, (f call).phase ≠ .guards guarded todo) :
    Advances c call s { now with calls := now.calls.modify c f } := by
  refine ⟨f, by rw [← h.calls], ?_, ?_, ?_⟩
  · intro filter entry hget
    exact (h.entries filter entry hget).imp_right fun h => ⟨h.1, hfresh filter h.2⟩
  · intro starts filter hclaims hmem
    obtain ⟨rfl, hmem⟩ := h.claims starts filter hclaims hmem
    exact hfresh filter hmem
  · exact fun guarded todo heq => absurd heq (hguards guarded todo)

theorem Advances.finish (h : Midway call s now []) (outcome : Outcome) :
    Advances c call s (now.finish c outcome) :=
  Advances.modify h _ (fun _ hmem => absurd hmem List.not_mem_nil) fun _ _ heq => by cases heq

/-- The filters a request has registered. -/
def registers : Request → List Str
  | .subscribe _ _ newEntries => newEntries
  | _ => []

theorem Advances.raiseFromRequest (request : Request) (error : MqttError)
    (h : Midway call s now (registers request)) :
    Advances c call s (now.raiseFromRequest c request error) := by
  cases request with
  | subscribe filters identifier newEntries => exact Advances.finish h.removeMany _
  | unsubscribe brokerFilters observedFilters => exact Advances.finish h _
  | restoreObservers acknowledged observedFilters =>
      simp only [Connection.raiseFromRequest]
      split <;> exact Advances.finish h _
  | addObserver topic =>
      have hremoved : Midway call s (now.setSubscriptions
          (now.state.subscriptions.removeResponseObserver topic).1) [] :=
        h.same rfl (SubscriptionIndex.entries_removeResponseObserver _ topic)
      exact Advances.finish hremoved _
  | removeObserver topic => exact Advances.finish h _

theorem claims_request {request : Request} {pid future : Nat} {writing : Bool} {filter : Str} :
    (Phase.request request pid future writing).claims true filter ↔
      filter ∈ registers request := by
  cases request <;> simp [Phase.claims, registers]

theorem Advances.beginRequest (request : Request) (write : WriteOutcome)
    (h : Midway call s now (registers request)) :
    Advances c call s (now.beginRequest c request write) := by
  have hfailed : ∀ pid pool error, Advances c call s
      (((now.openRequest request.kind pid pool).closeRequest request.kind pid).raiseFromRequest c
        request error) := fun pid pool error =>
    Advances.raiseFromRequest request error (h.same rfl (by simp))
  unfold Connection.beginRequest
  split
  · exact Advances.raiseFromRequest request _ h
  · split
    · exact Advances.raiseFromRequest request _ h
    · next pid pool _ =>
        simp only
        split
        · exact hfailed pid pool _
        · split
          · exact hfailed pid pool _
          · have hopened : Midway call s
                { now.openRequest request.kind pid pool with
                  log := (now.openRequest request.kind pid pool).log ++
                    [.wrote (request.packet pid)]
                  requests := (now.openRequest request.kind pid pool).requests ++
                    [(request.kind, pid, now.answerFutures.length)] } (registers request) :=
              h.same rfl (entries_openRequest now request.kind pid pool)
            exact Advances.modify hopened (fun call =>
              { call with
                phase := .request request pid now.answerFutures.length
                  (decide (write = .suspended)) })
              (fun _ hmem => claims_request.mpr hmem) fun _ _ heq => by cases heq

theorem Advances.returnFromRequest (request : Request) (packet : Packet) (write : WriteOutcome)
    (h : Midway call s now (registers request)) :
    Advances c call s (now.returnFromRequest c request packet write) := by
  unfold Connection.returnFromRequest
  split
  · exact Advances.modify h _ (fun _ hmem => ⟨rfl, hmem⟩) fun _ _ heq => by cases heq
  · split
    · exact Advances.finish h _
    · exact Advances.beginRequest _ write h
  · exact Advances.finish h _
  · exact Advances.finish h _
  · exact Advances.finish h _
  · exact Advances.raiseFromRequest request _ h

/-- A call inside its request. -/
theorem Midway.of_request {request : Request} {pid future : Nat} {writing : Bool}
    (hphase : call.phase = .request request pid future writing) :
    Midway call s (s.closeRequest request.kind pid) (registers request) := by
  refine ⟨rfl, fun filter entry hget => ?_, fun starts filter hclaims _ => ?_⟩
  · rw [entries_closeRequest] at hget
    exact Or.inl hget
  · rw [hphase] at hclaims
    cases request with
    | subscribe filters identifier newEntries => exact hclaims
    | _ => exact hclaims.elim

theorem Advances.failRequest {request : Request} {pid future : Nat} {writing : Bool}
    (hphase : call.phase = .request request pid future writing) (error : MqttError) :
    Advances c call s (s.failRequest c request pid error) :=
  Advances.raiseFromRequest request error (.of_request hphase)

theorem Advances.answerRequest {request : Request} {pid future : Nat} {writing : Bool}
    (hphase : call.phase = .request request pid future writing) (packet : Packet)
    (write : WriteOutcome) : Advances c call s (s.answerRequest c request pid packet write) := by
  unfold Connection.answerRequest
  simp only
  split
  · split
    · exact Advances.raiseFromRequest request _ (.of_request hphase)
    · exact Advances.returnFromRequest request _ write (.of_request hphase)
  · exact Advances.returnFromRequest request _ write (.of_request hphase)

/-- A call that claims nothing. -/
theorem Midway.of_unclaimed (hclaims : ∀ starts filter, ¬ call.phase.claims starts filter) :
    Midway call s s [] :=
  ⟨rfl, fun _ _ hget => Or.inl hget, fun starts filter h => absurd h (hclaims starts filter)⟩

/-- A queue of a new entry is that of the subscribe. -/
theorem newEntries_queue {filters : List SubscriptionRequest} {queue : Nat} {autoAck : Bool}
    {identifier : Option Int} {item : IndexItem}
    (h : item ∈ (s.newEntries filters queue autoAck identifier).1) : item.2.queue = queue := by
  unfold Connection.newEntries at h
  refine List.foldlRecOn (motive := fun acc : List IndexItem × Nat =>
    item ∈ acc.1 → item.2.queue = queue) filters _ (fun h => ?_) ?_ h
  · cases h
  · intro acc hacc request _ hmem
    split at hmem
    · exact hacc hmem
    · rcases OrderedDict.mem_of_mem_set hmem with hmem | heq
      · exact hacc hmem
      · rw [heq]

theorem Advances.enter (hdead : s.dead = false) (guarded : GuardedCall) (write : WriteOutcome)
    (hphase : call.phase = .guards guarded []) :
    Advances c call s (s.enter c guarded write) := by
  cases guarded with
  | subscribe filters queue autoAck identifier =>
      simp only [Connection.enter, Connection.enterSubscribe]
      refine Advances.beginRequest _ write ⟨rfl, fun filter entry hget => ?_, ?_⟩
      · have hget : OrderedDict.get (s.state.subscriptions.addMany
            (s.newEntries filters queue autoAck identifier).1).entries filter = some entry := hget
        rcases SubscriptionIndex.mem_of_get_addMany hget with hmem | hget
        · have hqueue : entry.queue = queue := newEntries_queue hmem
          rw [hqueue]
          exact Or.inr ⟨⟨_, _, _, hphase⟩, List.mem_map_of_mem hmem⟩
        · exact Or.inl hget
      · rw [hphase]
        exact fun _ _ hclaims => hclaims.elim
  | unsubscribe filters =>
      have hremoved : Midway call s
          (s.setSubscriptions (s.state.subscriptions.removeMany filters)) [] := by
        refine ⟨rfl, fun filter entry hget => ?_, fun starts filter hclaims hmem => ?_⟩
        · have hget : OrderedDict.get (s.state.subscriptions.removeMany filters).entries filter =
              some entry := hget
          rw [SubscriptionIndex.get_removeMany] at hget
          split at hget
          · cases hget
          · exact Or.inl hget
        · rw [hphase] at hclaims
          have hnot := (SubscriptionIndex.mem_keys_removeMany filters _).mp hmem
          exact absurd hclaims.2 hnot.1
      simp only [Connection.enter, Connection.enterUnsubscribe, hdead]
      split
      · next heq => cases heq
      · split
        · exact Advances.beginRequest (.unsubscribe _ _) write hremoved
        · split
          · exact Advances.beginRequest (.restoreObservers _ _) write hremoved
          · exact Advances.finish hremoved _
  | addResponseObserver topic =>
      have hnone : Midway call s s [] := by
        apply Midway.of_unclaimed
        rw [hphase]
        exact fun _ _ h => h
      have hadded : Midway call s (s.setSubscriptions
          (s.state.subscriptions.addResponseObserver topic).1) [] :=
        hnone.same rfl (SubscriptionIndex.entries_addResponseObserver _ topic)
      simp only [Connection.enter, Connection.enterAddObserver]
      split
      · exact Advances.finish hnone _
      · split
        · exact Advances.finish hnone _
        · split
          · exact Advances.finish hadded _
          · exact Advances.beginRequest (.addObserver topic) write hadded
  | removeResponseObserver topic =>
      have hnone : Midway call s s [] := by
        apply Midway.of_unclaimed
        rw [hphase]
        exact fun _ _ h => h
      have hremoved : Midway call s (s.setSubscriptions
          (s.state.subscriptions.removeResponseObserver topic).1) [] :=
        hnone.same rfl (SubscriptionIndex.entries_removeResponseObserver _ topic)
      simp only [Connection.enter, Connection.enterRemoveObserver]
      split
      · exact Advances.finish hnone _
      · split
        · exact Advances.finish hremoved _
        · exact Advances.beginRequest (.removeObserver topic) write hremoved

/-- The call stays where it is, or goes on to a phase with the same claims. -/
theorem Advances.keep {f : Call → Call} (hcalls : next.calls = s.calls.modify c f)
    (hentries : next.entries = s.entries)
    (hclaims : ∀ starts filter, call.phase.claims starts filter →
      (f call).phase.claims starts filter)
    (hguards : ∀ guarded todo, (f call).phase = .guards guarded todo →
      ∃ todo', call.phase = .guards guarded todo') : Advances c call s next := by
  refine ⟨f, hcalls, ⟨fun filter entry hget => ?_, fun starts filter h _ => hclaims starts filter h,
    hguards⟩⟩
  rw [hentries] at hget
  exact Or.inl hget

theorem Advances.resumeWrite {ok : Bool} (hstep : s.resumeWrite c call ok = some next) :
    Advances c call s next := by
  have hunclaimed : (∀ starts filter, ¬ call.phase.claims starts filter) → Midway call s s [] :=
    Midway.of_unclaimed
  unfold Connection.resumeWrite at hstep
  split at hstep
  · next request pid future hphase =>
      split at hstep
      · cases hstep
        exact Advances.failRequest hphase _
      · split at hstep <;> cases hstep
        · refine Advances.keep (f := fun call => { call with
            phase := .request request pid future false }) rfl rfl ?_ fun _ _ heq => by cases heq
          rw [hphase]
          cases request <;> exact fun _ _ h => h
        · exact Advances.failRequest hphase _
  · next pid future hphase =>
      have hnone := hunclaimed (by rw [hphase]; exact fun _ _ h => h)
      split at hstep
      · cases hstep
        exact Advances.finish hnone _
      · split at hstep <;> cases hstep
        · refine Advances.keep (f := fun call => { call with
            phase := .publish pid future false }) rfl rfl ?_ fun _ _ heq => by cases heq
          rw [hphase]
          exact fun _ _ h => h
        · exact Advances.finish hnone _
  · next hphase =>
      have hnone := hunclaimed (by rw [hphase]; exact fun _ _ h => h)
      split at hstep
      · cases hstep
        exact Advances.finish hnone _
      · split at hstep <;> cases hstep <;> exact Advances.finish hnone _
  · cases hstep

theorem Advances.resumeFuture {write : WriteOutcome}
    (hstep : s.resumeFuture c call write = some next) : Advances c call s next := by
  unfold Connection.resumeFuture at hstep
  split at hstep
  · next request pid future hphase =>
      split at hstep
      · cases hstep
      · cases hstep
      · split at hstep <;> cases hstep
        · exact Advances.failRequest hphase _
        · exact Advances.answerRequest hphase _ write
      · split at hstep <;> cases hstep <;> exact Advances.failRequest hphase _
      · cases hstep
        exact Advances.failRequest hphase _
  · next pid future hphase =>
      have hnone : Midway call s s [] := by
        apply Midway.of_unclaimed
        rw [hphase]
        exact fun _ _ h => h
      split at hstep
      · cases hstep
      · cases hstep
      · split at hstep <;> cases hstep <;> exact Advances.finish hnone _
      · split at hstep <;> cases hstep <;> exact Advances.finish hnone _
      · cases hstep
        exact Advances.finish hnone _
  · cases hstep

theorem Advances.cancel (hstep : s.cancel c call = some next) : Advances c call s next := by
  unfold Connection.cancel at hstep
  simp only at hstep
  split at hstep <;> cases hstep
  · exact Advances.keep rfl rfl (fun _ _ h => h) fun _ todo heq => ⟨todo, heq⟩
  · exact Advances.keep rfl rfl (fun _ _ h => h) fun _ todo heq => ⟨todo, heq⟩
  · exact Advances.keep rfl rfl (fun _ _ h => h) fun _ todo heq => ⟨todo, heq⟩

/-! ## Every step -/

/-- The step interrupts no unsubscribe in front of its guards and no subscribe in its
drain, and the connection stays up. -/
def undisturbed (s : Connection) : Action → Bool
  | .acquireGuard c => s.calls[c]?.all Call.removes
  | .enter c _ => s.calls[c]?.all Call.removes
  | .resumeDrain c ok => s.calls[c]?.all (Call.drains ok)
  | .exit => false
  | _ => true

/-- **A step of a call** adds only entries that the call claims and keeps its claims. -/
theorem step_advances {action : Action} (hdead : s.dead = false)
    (hquiet : s.undisturbed action = true) (hcaller : action.caller = some c)
    (hcall : s.calls[c]? = some call) (hstep : s.step action = some next) :
    Advances c call s next := by
  cases action with
  | acquireGuard c' =>
      cases hcaller
      simp only [undisturbed, hcall, Option.all_some] at hquiet
      obtain ⟨_, hcall', hstep⟩ := Option.bind_eq_some_iff.mp hstep
      cases hcall.symm.trans hcall'
      unfold Connection.acquireGuard at hstep
      split at hstep
      · next guarded filter todo hphase =>
          split at hstep
          · next hcancel =>
              cases hstep
              exact Advances.finish
                (.of_unclaimed (Call.removes_unclaimed hphase hquiet hcancel)) _
          · split at hstep <;> cases hstep
            refine Advances.keep rfl rfl ?_ fun guarded' todo' heq => ?_
            · rw [hphase]
              cases guarded <;> exact fun _ _ h => h
            · cases heq
              exact ⟨_, hphase⟩
      · cases hstep
  | enter c' write =>
      cases hcaller
      simp only [undisturbed, hcall, Option.all_some] at hquiet
      obtain ⟨_, hcall', hstep⟩ := Option.bind_eq_some_iff.mp hstep
      cases hcall.symm.trans hcall'
      split at hstep
      · next guarded hphase =>
          split at hstep
          · next hcancel =>
              cases hstep
              exact Advances.finish
                (.of_unclaimed (Call.removes_unclaimed hphase hquiet hcancel)) _
          · cases hstep
            exact Advances.enter hdead guarded write hphase
      · cases hstep
  | resumeWrite c' ok =>
      cases hcaller
      obtain ⟨_, hcall', hstep⟩ := Option.bind_eq_some_iff.mp hstep
      cases hcall.symm.trans hcall'
      exact Advances.resumeWrite hstep
  | resumeFuture c' write =>
      cases hcaller
      obtain ⟨_, hcall', hstep⟩ := Option.bind_eq_some_iff.mp hstep
      cases hcall.symm.trans hcall'
      exact Advances.resumeFuture hstep
  | resumeDrain c' ok =>
      cases hcaller
      simp only [undisturbed, hcall, Option.all_some] at hquiet
      obtain ⟨_, hcall', hstep⟩ := Option.bind_eq_some_iff.mp hstep
      cases hcall.symm.trans hcall'
      split at hstep
      · next outcome hphase =>
          by_cases hsubscribed : ∃ suback queues, outcome = .subscribed suback queues
          · obtain ⟨suback, queues, rfl⟩ := hsubscribed
            rw [Call.drains, hphase, Bool.and_eq_true, Bool.not_eq_true'] at hquiet
            rw [if_neg (by simp [hquiet.2]), if_pos hquiet.1] at hstep
            cases hstep
            refine Advances.keep rfl rfl ?_ fun _ _ heq => by cases heq
            rw [hphase]
            exact fun _ _ h => h
          · have hnone : Midway call s s [] := by
              apply Midway.of_unclaimed
              rw [hphase]
              cases outcome with
              | subscribed suback queues => exact absurd ⟨_, _, rfl⟩ hsubscribed
              | _ => exact fun _ _ h => h
            split at hstep
            · cases hstep
              exact Advances.finish hnone _
            · split at hstep <;> cases hstep <;> exact Advances.finish hnone _
      · cases hstep
  | cancel c' =>
      cases hcaller
      obtain ⟨_, hcall', hstep⟩ := Option.bind_eq_some_iff.mp hstep
      cases hcall.symm.trans hcall'
      exact Advances.cancel hstep
  | _ => cases hcaller

/-- A publish leaves the index alone, and its call takes no guards. -/
theorem publish_frame (s : Connection) (packet : Publish) (write : WriteOutcome) :
    (s.publish packet write).entries = s.entries ∧
      ∃ new : Call, (s.publish packet write).calls = s.calls ++ [new] ∧
        ∀ guarded todo, new.phase ≠ .guards guarded todo := by
  unfold Connection.publish
  split
  · exact ⟨rfl, _, rfl, fun _ _ heq => by cases heq⟩
  · split
    · exact ⟨rfl, _, rfl, fun _ _ heq => by cases heq⟩
    · split
      · exact ⟨rfl, _, rfl, fun _ _ heq => by cases heq⟩
      · split
        · unfold Connection.publishQos0
          split
          · exact ⟨rfl, _, rfl, fun _ _ heq => by cases heq⟩
          · split <;> exact ⟨rfl, _, rfl, fun _ _ heq => by cases heq⟩
        · unfold Connection.publishAcknowledged
          split
          · exact ⟨rfl, _, rfl, fun _ _ heq => by cases heq⟩
          · next pid pool _ =>
              have hopened : ∀ flight : Publish,
                  (s.openFlight flight pid pool).entries = s.entries := by
                intro flight
                unfold Connection.openFlight entries
                simp only
                split <;> rfl
              simp only
              split
              · exact ⟨hopened _, _, rfl, fun _ _ heq => by cases heq⟩
              · split <;> exact ⟨hopened _, _, rfl, fun _ _ heq => by cases heq⟩

/-- A step of no call leaves the entries and the calls alone, but for a new call. -/
theorem step_frame {action : Action} (hcaller : action.caller = none)
    (hstep : s.step action = some next) :
    next.entries = s.entries ∧ (next.calls = s.calls ∨ ∃ new, next.calls = s.calls ++ [new] ∧
      ∀ guarded todo, new.phase = .guards guarded todo → action = .call guarded) := by
  cases action with
  | publish packet write =>
      cases hstep
      obtain ⟨hentries, new, hcalls, hnew⟩ := publish_frame s packet write
      exact ⟨hentries, Or.inr ⟨new, hcalls, fun guarded todo heq => absurd heq (hnew guarded todo)⟩⟩
  | call guarded =>
      cases hstep
      refine ⟨rfl, Or.inr ⟨_, rfl, fun guarded' todo heq => ?_⟩⟩
      cases heq
      rfl
  | receive packet write =>
      simp only [Connection.step] at hstep
      split at hstep <;> cases hstep
      obtain ⟨hcalls, hindex, -⟩ := dispatch_frame s packet write
      exact ⟨congrArg SubscriptionIndex.entries hindex, Or.inl hcalls⟩
  | resumeReader ok =>
      simp only [Connection.step] at hstep
      split at hstep <;> cases hstep
      split <;> exact ⟨rfl, Or.inl rfl⟩
  | exit =>
      simp only [Connection.step] at hstep
      split at hstep <;> cases hstep
      exact ⟨rfl, Or.inl rfl⟩
  | _ => cases hcaller

/-- A new entry is claimed by the subscribe that was let in; a claim on an entry that is
left stays; and calls come to their guards only at their start. -/
structure Claimed (action : Action) (s next : Connection) : Prop where
  entries : ∀ filter entry, OrderedDict.get next.entries filter = some entry →
    OrderedDict.get s.entries filter = some entry ∨
      ∃ (c : Nat) (call call' : Call), s.calls[c]? = some call ∧
        (∃ filters autoAck identifier,
          call.phase = .guards (.subscribe filters entry.queue autoAck identifier) []) ∧
        next.calls[c]? = some call' ∧ call'.phase.claims true filter
  claims : ∀ (c : Nat) (call : Call) starts filter, s.calls[c]? = some call →
    call.phase.claims starts filter → filter ∈ OrderedDict.keys next.entries →
    ∃ call' : Call, next.calls[c]? = some call' ∧ call'.phase.claims starts filter
  guards : ∀ (c : Nat) (call' : Call) guarded todo, next.calls[c]? = some call' →
    call'.phase = .guards guarded todo →
    action = .call guarded ∨
      ∃ (call : Call) (todo' : List Str), s.calls[c]? = some call ∧
        call.phase = .guards guarded todo'

/-- **Every step** that interrupts no call is of this kind. -/
theorem step_claimed {action : Action} (hguarded : s.Guarded) (hdead : s.dead = false)
    (hquiet : s.undisturbed action = true) (hstep : s.step action = some next) :
    Claimed action s next := by
  cases hcaller : action.caller with
  | none =>
      obtain ⟨hentries, hcalls⟩ := step_frame hcaller hstep
      refine ⟨fun filter entry hget => Or.inl (hentries ▸ hget), ?_, ?_⟩
      · intro c call starts filter hcall hclaims _
        exact ⟨call, step_other hguarded hstep hcall (by simp [hcaller]), hclaims⟩
      · intro c call' guarded todo hcall' hphase
        rcases hcalls with hcalls | ⟨new, hcalls, hnew⟩
        · exact Or.inr ⟨call', todo, hcalls ▸ hcall', hphase⟩
        · rw [hcalls] at hcall'
          by_cases hlt : c < s.calls.length
          · rw [List.getElem?_append_left hlt] at hcall'
            exact Or.inr ⟨call', todo, hcall', hphase⟩
          · rw [List.getElem?_append_right (Nat.le_of_not_lt hlt)] at hcall'
            have heq := List.mem_singleton.mp (List.mem_of_getElem? hcall')
            exact Or.inl (hnew guarded todo (heq ▸ hphase))
  | some c =>
      have hexists : ∃ call, s.calls[c]? = some call := by
        cases action <;> cases hcaller <;>
          exact (Option.bind_eq_some_iff.mp hstep).imp fun _ h => h.1
      obtain ⟨call, hcall⟩ := hexists
      obtain ⟨f, hcalls, hmoves⟩ := step_advances hdead hquiet hcaller hcall hstep
      have hnow : next.calls[c]? = some (f call) := by
        rw [hcalls, List.getElem?_modify_eq, hcall]
        rfl
      refine ⟨?_, ?_, ?_⟩
      · intro filter entry hget
        refine (hmoves.entries filter entry hget).imp_right ?_
        exact fun h => ⟨c, call, f call, hcall, h.1, hnow, h.2⟩
      · intro c' call' starts filter hcall' hclaims hmem
        by_cases heq : c' = c
        · subst heq
          cases hcall.symm.trans hcall'
          exact ⟨f call, hnow, hmoves.claims starts filter hclaims hmem⟩
        · refine ⟨call', step_other hguarded hstep hcall' ?_, hclaims⟩
          rw [hcaller]
          exact fun h => heq (Option.some.inj h).symm
      · intro c' call' guarded todo hcall' hphase
        rw [hcalls] at hcall'
        rcases (TaskList.getElem?_modify_iff hcall).mp hcall' with ⟨rfl, rfl⟩ | ⟨-, hcall'⟩
        · obtain ⟨todo', hbefore⟩ := hmoves.guards guarded todo hphase
          exact Or.inr ⟨call, todo', hcall, hbefore⟩
        · exact Or.inr ⟨call', todo, hcall', hphase⟩

/-- A connection is lost at the end of `run` only. -/
theorem alive_step {action : Action} (halive : s.dead = false) (hexit : action ≠ .exit)
    (hstep : s.step action = some next) : next.dead = false := by
  have hrules : CallRules (fun _ s => s.dead = false) fun _ _ => True :=
    { weaken := fun _ h => h
      leave := fun _ _ h => h
      keep := fun _ _ h => h
      addCall := fun _ _ h => h
      index := fun _ _ _ h => h
      wrote := fun _ h => h
      openFlight := fun _ _ _ _ _ _ h => h
      failed := fun _ _ _ _ _ h => h
      written := fun _ _ _ _ _ _ h => h
      done := fun _ => trivial
      close := fun _ _ h => h }
  refine hrules.step halive hstep (fun _ _ _ _ _ _ _ _ _ _ => trivial) ?_ ?_ (fun _ _ => halive)
    fun h => absurd h hexit
  · intro c call _ _ hcancel
    unfold Connection.cancel at hcancel
    split at hcancel <;> cases hcancel <;> exact halive
  · intro packet write _ _ _
    rw [(dispatch_frame s packet write).2.2]
    exact halive

/-! ## The three views of the index -/

/-- Dictionary, trie and identifier map of the index agree. -/
def Indexed (s : Connection) : Prop := ∃ pairs, s.state.subscriptions.Shows pairs

theorem IndexChange.shows {index index' : SubscriptionIndex} (hchange : IndexChange index index')
    (h : ∃ pairs, index.Shows pairs) : ∃ pairs, index'.Shows pairs := by
  obtain ⟨pairs, h⟩ := h
  cases hchange with
  | addMany items => exact ⟨_, h.addMany items⟩
  | removeMany filters =>
      induction filters generalizing index pairs with
      | nil => exact ⟨pairs, h⟩
      | cons filter rest ih => exact ih _ (h.remove filter)
  | addObserver topic =>
      unfold SubscriptionIndex.addResponseObserver
      split
      · exact ⟨pairs, h⟩
      · exact ⟨pairs, ⟨h.entries_eq, h.nodup, h.wellFormed, h.tree, h.identifiers⟩⟩
  | removeObserver topic =>
      unfold SubscriptionIndex.removeResponseObserver
      split
      · exact ⟨pairs, ⟨h.entries_eq, h.nodup, h.wellFormed, h.tree, h.identifiers⟩⟩
      · exact ⟨pairs, h⟩

/-- **Step.**  The three views stay in step. -/
theorem Indexed.step {action : Action} (h : s.Indexed) (hstep : s.step action = some next) :
    next.Indexed := by
  have hrules : CallRules (fun _ s => s.Indexed) fun _ _ => True :=
    { weaken := fun _ h => h
      leave := fun _ _ h => h
      keep := fun _ _ h => h
      addCall := fun _ _ h => h
      index := fun _ _ hchange h => hchange.shows h
      wrote := fun _ h => h
      openFlight := fun packet _ _ _ _ _ h => by
        unfold Indexed Connection.openFlight
        simp only
        split <;> exact h
      failed := fun kind _ _ _ _ h => by cases kind <;> exact h
      written := fun request _ _ _ _ _ h => by
        unfold Indexed Connection.written
        cases request.kind <;> exact h
      done := fun _ => trivial
      close := fun {_ _ kind _ _} _ _ h => by cases kind <;> exact h }
  refine hrules.step h hstep (fun _ _ _ _ _ _ _ _ _ _ => trivial) ?_ ?_ (fun _ _ => h)
    fun _ => h
  · intro c call _ _ hcancel
    unfold Connection.cancel at hcancel
    split at hcancel <;> cases hcancel <;> exact h
  · intro packet write _ _ _
    unfold Indexed
    rw [(dispatch_frame s packet write).2.1]
    exact h

end Connection

namespace SubscriptionIndex

theorem mem_of_selectFrom {candidates : List IndexItem} {item : IndexItem}
    (h : (selectFrom candidates).recipient = some item) : item ∈ candidates := by
  cases candidates with
  | nil => cases h
  | cons first rest => exact (List.mem_filter.mp (List.mem_of_head? h)).1

variable {index : SubscriptionIndex} {pairs : List IndexItem} {topic : Str} {item : IndexItem}

/-- A recipient that the trie finds is registered. -/
theorem Shows.mem_of_select (h : index.Shows pairs)
    (hselect : (index.select topic).recipient = some item) : item ∈ index.entries := by
  have hmem := mem_of_selectFrom hselect
  rw [matching, List.mem_insertionSort, List.mem_filter, h.wellFormed.collect_eq,
    List.mem_flatMap] at hmem
  obtain ⟨⟨path, -, hmem⟩, -⟩ := hmem
  rw [h.tree] at hmem
  rw [h.entries_eq]
  exact (List.mem_filter.mp hmem).1

/-- So is one that is found by its identifier. -/
theorem Shows.mem_of_selectByIdentifier (h : index.Shows pairs) {identifier : Int}
    (hselect : (index.selectByIdentifier topic identifier).recipient = some item) :
    item ∈ index.entries := by
  unfold selectByIdentifier at hselect
  simp only at hselect
  split at hselect
  · have hmem : item ∈ index.byIdentifier identifier := by
      have hmem := mem_of_selectFrom hselect
      split at hmem
      · exact (List.mem_filter.mp hmem).1
      · exact hmem
    rw [h.identifiers] at hmem
    rw [h.entries_eq]
    exact (List.mem_filter.mp hmem).1
  · exact h.mem_of_select hselect

end SubscriptionIndex

end Zmqtt
