import Zmqtt.PacketIdOwnership
import Zmqtt.ParallelIndex
import Zmqtt.TaskList
import Zmqtt.Transition

/-!
# A failed subscribe leaves the index to the other calls

Beside a connection runs a second index, on which the other calls act as they act on the
index of the connection, and a subscribe that is looked at does not act at all.  While that
subscribe is under way the two differ by the filters it has registered: these are under its
guards, so no other call registers them or asks for them.  A failed subscribe takes its
filters back, and the two indices give the same answers.
-/

namespace Zmqtt

open SubscriptionIndex

/-- The packet identifier of a call. -/
def Phase.packetId : Phase → Option Nat
  | .request _ pid _ _ => some pid
  | _ => none

/-- A subscribe that is not acknowledged yet, with the filters it has registered. -/
def Phase.subscribing : Phase → Option (List Str)
  | .guards (.subscribe ..) _ => some []
  | .request (.subscribe _ _ newEntries) _ _ _ => some newEntries
  | _ => none

namespace Connection

/-! ## The subscribe itself -/

section Own

variable {s next : Connection} {c : Nat} {call : Call} {others : SubscriptionIndex}

/-- What is left of a subscribe that failed in a step: its packet identifier is free and has
no future in `pending_subs`, other identifiers are as they were, and the index gives the
answers of the index of the other calls. -/
structure RolledBack (phase : Phase) (s next : Connection) (others : SubscriptionIndex) :
    Prop where
  packetIds : ∀ pid, pid ∈ next.state.packetIds.inUse ↔
    pid ∈ s.state.packetIds.inUse ∧ phase.packetId ≠ some pid
  pendingSubs : ∀ pid, pid ∈ OrderedDict.keys next.state.pendingSubs ↔
    pid ∈ OrderedDict.keys s.state.pendingSubs ∧ phase.packetId ≠ some pid
  index : next.state.subscriptions.SameAnswers others

/-- What a step of a subscribe that is under way leads to: it is still under way, it is
acknowledged, or it has failed. -/
def Subscribes (c : Nat) (before : Phase) (s next : Connection) (others : SubscriptionIndex) :
    Prop :=
  ∃ call, next.calls[c]? = some call ∧
    ((∃ fresh, call.phase.subscribing = some fresh ∧ (∀ filter ∈ fresh, filter ∈ call.held) ∧
        DiffersBy fresh next.state.subscriptions others) ∨
      (∃ outcome, call.phase = .draining outcome) ∨
      ((∃ error, call.phase = .finished (.raised error)) ∧ RolledBack before s next others))

/-- A request fails before it has an identifier, or with one that it gives back, or it is
written. -/
theorem beginRequest_cases (s : Connection) (c : Nat) (request : Request) (write : WriteOutcome) :
    (∃ error, s.beginRequest c request write = s.raiseFromRequest c request error) ∨
    (∃ pid pool error, s.state.packetIds.acquire = some (pid, pool) ∧
      s.beginRequest c request write =
        ((s.openRequest request.kind pid pool).closeRequest request.kind pid).raiseFromRequest c
          request error) ∨
    (∃ pid pool writing, s.state.packetIds.acquire = some (pid, pool) ∧
      s.beginRequest c request write = s.written c request pid pool writing) := by
  unfold Connection.beginRequest
  cases s.dead with
  | true => exact Or.inl ⟨_, rfl⟩
  | false =>
      cases hacquire : s.state.packetIds.acquire with
      | none => exact Or.inl ⟨_, rfl⟩
      | some acquired =>
          obtain ⟨pid, pool⟩ := acquired
          refine Or.inr ?_
          simp only [Bool.false_eq_true, if_false]
          split
          · exact Or.inl ⟨pid, pool, _, rfl, rfl⟩
          · split
            · exact Or.inl ⟨pid, pool, _, rfl, rfl⟩
            · exact Or.inr ⟨pid, pool, _, rfl, rfl⟩

/-- The failure of a request that has registered `fresh`, after its `finally` block. -/
theorem Subscribes.raised {now : Connection} {before : Phase} {fresh : List Str}
    (filters : List SubscriptionRequest) (identifier : Option Int) (error : MqttError)
    (hcall : now.calls[c]? = some call)
    (happ : DiffersBy fresh now.state.subscriptions others)
    (hids : ∀ pid, pid ∈ now.state.packetIds.inUse ↔
      pid ∈ s.state.packetIds.inUse ∧ before.packetId ≠ some pid)
    (hpending : ∀ pid, pid ∈ OrderedDict.keys now.state.pendingSubs ↔
      pid ∈ OrderedDict.keys s.state.pendingSubs ∧ before.packetId ≠ some pid) :
    Subscribes c before s (now.raiseFromRequest c (.subscribe filters identifier fresh) error)
      others := by
  refine ⟨{ call with phase := .finished (.raised error), held := [] }, ?_, Or.inr (Or.inr ?_)⟩
  · exact (TaskList.getElem?_modify_iff hcall).mpr (Or.inl ⟨rfl, rfl⟩)
  · exact ⟨⟨error, rfl⟩, hids, hpending, happ.rollback.sameAnswers⟩

/-- The request of a subscribe up to its first suspension. -/
theorem Subscribes.beginRequest {now : Connection} {before : Phase} {fresh : List Str}
    (filters : List SubscriptionRequest) (identifier : Option Int) (write : WriteOutcome)
    (hbefore : before.packetId = none) (hcall : now.calls[c]? = some call)
    (hstate : now.state.packetIds = s.state.packetIds ∧ now.state.pendingSubs = s.state.pendingSubs)
    (hbalanced : now.state.Balanced) (hheld : ∀ filter ∈ fresh, filter ∈ call.held)
    (happ : DiffersBy fresh now.state.subscriptions others) :
    Subscribes c before s (now.beginRequest c (.subscribe filters identifier fresh) write)
      others := by
  have hsame : ∀ error, Subscribes c before s
      (now.raiseFromRequest c (.subscribe filters identifier fresh) error) others := by
    intro error
    refine Subscribes.raised filters identifier error hcall happ ?_ ?_
    · simp [hstate.1, hbefore]
    · simp [hstate.2, hbefore]
  rcases now.beginRequest_cases c (.subscribe filters identifier fresh) write with ⟨error, heq⟩ |
    ⟨pid, pool, error, hacquire, heq⟩ | ⟨pid, pool, writing, hacquire, heq⟩
  · rw [heq]
    exact hsame error
  · -- the identifier is taken and given back
    rw [heq]
    obtain ⟨hfree, -, -, hinsert, -⟩ := PacketIdPool.acquire_spec hbalanced.valid hacquire
    have hkey : pid ∉ OrderedDict.keys now.state.pendingSubs :=
      hbalanced.not_mem_of_acquire hacquire (.request .subscribe)
    refine Subscribes.raised filters identifier error hcall happ ?_ ?_
    · intro k
      show k ∈ (pool.release pid).inUse ↔ _
      rw [PacketIdPool.release_inUse, hinsert, Finset.erase_insert hfree, hstate.1]
      simp [hbefore]
    · intro k
      show k ∈ OrderedDict.keys (OrderedDict.pop
        (OrderedDict.set now.state.pendingSubs pid now.answerFutures.length) pid) ↔ _
      rw [OrderedDict.mem_keys_pop, OrderedDict.mem_keys_set, ← hstate.2]
      simp only [hbefore, ne_eq, reduceCtorEq, not_false_eq_true, and_true]
      constructor
      · exact fun h => h.2.resolve_left h.1
      · exact fun h => ⟨fun heq => hkey (heq ▸ h), Or.inr h⟩
  · rw [heq]
    refine ⟨_, (TaskList.getElem?_modify_iff hcall).mpr (Or.inl ⟨rfl, rfl⟩), Or.inl ?_⟩
    exact ⟨fresh, rfl, hheld, happ⟩

/-- A subscribe that ends outside any request, with the index as it was. -/
theorem Subscribes.finish {before : Phase} (error : MqttError) (hcall : s.calls[c]? = some call)
    (hbefore : before.packetId = none) (happ : DiffersBy [] s.state.subscriptions others) :
    Subscribes c before s (s.finish c (.raised error)) others := by
  refine ⟨_, (TaskList.getElem?_modify_iff hcall).mpr (Or.inl ⟨rfl, rfl⟩),
    Or.inr (Or.inr ⟨⟨error, rfl⟩, ?_, ?_, happ.sameAnswers⟩)⟩
  · intro pid
    rw [hbefore]
    exact ⟨fun h => ⟨h, by simp⟩, fun h => h.1⟩
  · intro pid
    rw [hbefore]
    exact ⟨fun h => ⟨h, by simp⟩, fun h => h.1⟩

/-- A subscribe that goes on as it was. -/
theorem Subscribes.keep {before : Phase} {fresh : List Str} {f : Call → Call}
    (hcall : s.calls[c]? = some call) (hcalls : next.calls = s.calls.modify c f)
    (hindex : next.state.subscriptions = s.state.subscriptions)
    (hphase : (f call).phase.subscribing = some fresh)
    (hheld : ∀ filter ∈ fresh, filter ∈ (f call).held)
    (happ : DiffersBy fresh s.state.subscriptions others) : Subscribes c before s next others := by
  refine ⟨f call, ?_, Or.inl ⟨fresh, hphase, hheld, ?_⟩⟩
  · rw [hcalls]
    exact (TaskList.getElem?_modify_iff hcall).mpr (Or.inl ⟨rfl, rfl⟩)
  · rw [hindex]
    exact happ

/-- A request of a subscribe that ends with an exception. -/
theorem Subscribes.failRequest {filters : List SubscriptionRequest} {identifier : Option Int}
    {fresh : List Str} {pid future : Nat} {writing : Bool} (error : MqttError)
    (hcall : s.calls[c]? = some call)
    (happ : DiffersBy fresh s.state.subscriptions others) :
    Subscribes c (.request (.subscribe filters identifier fresh) pid future writing) s
      (s.failRequest c (.subscribe filters identifier fresh) pid error) others := by
  refine Subscribes.raised filters identifier error hcall happ ?_ ?_
  · intro k
    show k ∈ s.state.packetIds.inUse.erase pid ↔ _
    rw [Finset.mem_erase]
    simp [Phase.packetId, and_comm, eq_comm]
  · intro k
    show k ∈ OrderedDict.keys (OrderedDict.pop s.state.pendingSubs pid) ↔ _
    rw [OrderedDict.mem_keys_pop]
    simp [Phase.packetId, and_comm, eq_comm]

/-- The answer of a subscribe: its SUBACK, or one that rejects a filter. -/
theorem Subscribes.answerRequest {filters : List SubscriptionRequest} {identifier : Option Int}
    {fresh : List Str} {pid future : Nat} {writing : Bool} (packet : Packet) (write : WriteOutcome)
    (hcall : s.calls[c]? = some call) (happ : DiffersBy fresh s.state.subscriptions others) :
    Subscribes c (.request (.subscribe filters identifier fresh) pid future writing) s
      (s.answerRequest c (.subscribe filters identifier fresh) pid packet write) others := by
  unfold Connection.answerRequest
  cases packet with
  | suback suback =>
      simp only
      split
      · exact Subscribes.failRequest _ hcall happ
      · exact ⟨_, (TaskList.getElem?_modify_iff hcall).mpr (Or.inl ⟨rfl, rfl⟩),
          Or.inr (Or.inl ⟨_, rfl⟩)⟩
  | _ => exact Subscribes.failRequest .invalidState hcall happ

/-- The body of a subscribe, under its guards. -/
theorem Subscribes.enter {filters : List SubscriptionRequest} {queue : Nat} {autoAck : Bool}
    {identifier : Option Int} (write : WriteOutcome) (hcall : s.calls[c]? = some call)
    (hheld : ∀ filter ∈ filters.map SubscriptionRequest.topicFilter, filter ∈ call.held)
    (hbalanced : s.state.Balanced) (happ : DiffersBy [] s.state.subscriptions others) :
    Subscribes c (.guards (.subscribe filters queue autoAck identifier) []) s
      (s.enterSubscribe c filters queue autoAck identifier write) others := by
  have hkeys : ∀ filter ∈ OrderedDict.keys (s.newEntries filters queue autoAck identifier).1,
      filter ∈ filters.map SubscriptionRequest.topicFilter ∧
        filter ∉ OrderedDict.keys s.state.subscriptions.entries := fun filter hfilter =>
    (mem_keys_newEntries s filters queue autoAck identifier filter).mp hfilter
  refine Subscribes.beginRequest filters identifier write rfl hcall ⟨rfl, rfl⟩ ?_ ?_ ?_
  · refine hbalanced.congr rfl fun slot k => ?_
    cases slot with
    | request kind => cases kind <;> exact Iff.rfl
    | _ => exact Iff.rfl
  · exact fun filter hfilter => hheld filter (hkeys filter hfilter).1
  · exact happ.register_fresh _ fun filter hfilter => (hkeys filter hfilter).2

/-- **A step of a subscribe** that is under way. -/
theorem subscribes_step {action : Action} {fresh : List Str} (hguarded : s.Guarded)
    (howned : s.Owned none) (hcaller : action.caller = some c) (hcall : s.calls[c]? = some call)
    (hphase : call.phase.subscribing = some fresh)
    (hheld : ∀ filter ∈ fresh, filter ∈ call.held)
    (happ : DiffersBy fresh s.state.subscriptions others) (hstep : s.step action = some next) :
    Subscribes c call.phase s next others := by
  cases action with
  | acquireGuard c' =>
      cases hcaller
      obtain ⟨_, hcall', hstep⟩ := Option.bind_eq_some_iff.mp hstep
      cases hcall.symm.trans hcall'
      unfold Connection.acquireGuard at hstep
      split at hstep
      · next guarded filter todo hguards =>
          rw [hguards] at hphase ⊢
          cases guarded <;> cases hphase
          split_ifs at hstep with hcancel hfree
          · cases hstep
            exact Subscribes.finish _ hcall rfl happ
          · cases hstep
            exact Subscribes.keep hcall rfl rfl rfl (fun _ h => absurd h List.not_mem_nil) happ
      · cases hstep
  | enter c' write =>
      cases hcaller
      obtain ⟨_, hcall', hstep⟩ := Option.bind_eq_some_iff.mp hstep
      cases hcall.symm.trans hcall'
      split at hstep
      · next guarded hguards =>
          have hentered : ∀ filter ∈ guarded.filters, filter ∈ call.held := fun filter hfilter =>
            (hguarded.holds call (List.mem_of_getElem? hcall)).entered hguards hfilter
          rw [hguards] at hphase ⊢
          cases guarded <;> cases hphase
          split_ifs at hstep with hcancel
          · cases hstep
            exact Subscribes.finish _ hcall rfl happ
          · cases hstep
            exact Subscribes.enter write hcall hentered howned.balanced happ
      · cases hstep
  | resumeWrite c' ok =>
      cases hcaller
      obtain ⟨_, hcall', hstep⟩ := Option.bind_eq_some_iff.mp hstep
      cases hcall.symm.trans hcall'
      unfold Connection.resumeWrite at hstep
      split at hstep
      · next request pid future hrequest =>
          rw [hrequest] at hphase ⊢
          cases request <;> cases hphase
          split_ifs at hstep with hcancel hok
          · cases hstep
            exact Subscribes.failRequest _ hcall happ
          · cases hstep
            exact Subscribes.keep hcall rfl rfl rfl hheld happ
          · cases hstep
            exact Subscribes.failRequest _ hcall happ
      · next hpublish => rw [hpublish] at hphase; cases hphase
      · next hpublish => rw [hpublish] at hphase; cases hphase
      · cases hstep
  | resumeFuture c' write =>
      cases hcaller
      obtain ⟨_, hcall', hstep⟩ := Option.bind_eq_some_iff.mp hstep
      cases hcall.symm.trans hcall'
      unfold Connection.resumeFuture at hstep
      split at hstep
      · next request pid future hrequest =>
          rw [hrequest] at hphase ⊢
          cases request <;> cases hphase
          split at hstep
          · cases hstep
          · cases hstep
          · next packet _ =>
              split_ifs at hstep with hcancel
              · cases hstep
                exact Subscribes.failRequest _ hcall happ
              · cases hstep
                exact Subscribes.answerRequest packet write hcall happ
          · split_ifs at hstep with hcancel <;> cases hstep <;>
              exact Subscribes.failRequest _ hcall happ
          · cases hstep
            exact Subscribes.failRequest _ hcall happ
      · next hpublish => rw [hpublish] at hphase; cases hphase
      · cases hstep
  | resumeDrain c' ok =>
      cases hcaller
      obtain ⟨_, hcall', hstep⟩ := Option.bind_eq_some_iff.mp hstep
      cases hcall.symm.trans hcall'
      split at hstep
      · next hdraining => rw [hdraining] at hphase; cases hphase
      · cases hstep
  | cancel c' =>
      cases hcaller
      obtain ⟨_, hcall', hstep⟩ := Option.bind_eq_some_iff.mp hstep
      cases hcall.symm.trans hcall'
      unfold Connection.cancel at hstep
      simp only at hstep
      split at hstep <;> cases hstep <;> exact Subscribes.keep hcall rfl rfl hphase hheld happ
  | _ => cases hcaller

end Own

/-! ## Runs -/

section Run

variable {x next : Connection × SubscriptionIndex} {c : Nat}

/-- The index of the calls other than `c` after a step: a step of `c` leaves it alone, every
other step does to it what it does to the index of the connection. -/
def othersIndex (c : Nat) (s : Connection) (others : SubscriptionIndex) (action : Action) :
    SubscriptionIndex :=
  if action.caller = some c then others
  else ((s.setSubscriptions others).step action).elim others fun next => next.state.subscriptions

/-- A step of a connection, with the index of the calls other than `c` beside it. -/
def stepBeside (c : Nat) (x : Connection × SubscriptionIndex) (action : Action) :
    Option (Connection × SubscriptionIndex) :=
  (x.1.step action).map fun next => (next, othersIndex c x.1 x.2 action)

/-- A subscribe is under way and the two indices differ by what it has registered, or it is
over. -/
structure Beside (c : Nat) (x : Connection × SubscriptionIndex) : Prop where
  guarded : x.1.Guarded
  owned : x.1.Owned none
  call : ∃ call, x.1.calls[c]? = some call ∧
    ((∃ fresh, call.phase.subscribing = some fresh ∧ (∀ filter ∈ fresh, filter ∈ call.held) ∧
        DiffersBy fresh x.1.state.subscriptions x.2) ∨
      (∃ outcome, call.phase = .draining outcome) ∨ ∃ outcome, call.phase = .finished outcome)

/-- A step of another call, or of none, keeps the two indices apart. -/
theorem differs_step_others {s next : Connection} {others : SubscriptionIndex} {fresh : List Str}
    {call : Call} {action : Action} (hguarded : s.Guarded) (hcall : s.calls[c]? = some call)
    (hheld : ∀ filter ∈ fresh, filter ∈ call.held)
    (happ : DiffersBy fresh s.state.subscriptions others) (hcaller : action.caller ≠ some c)
    (hstep : s.step action = some next) :
    DiffersBy fresh next.state.subscriptions (othersIndex c s others action) := by
  unfold othersIndex
  rw [if_neg hcaller]
  cases hwho : action.caller with
  | none =>
      have hindex := step_index hwho hstep
      have hothers : ((s.setSubscriptions others).step action).elim others
          (fun next => next.state.subscriptions) = others := by
        cases hbeside : (s.setSubscriptions others).step action with
        | none => rfl
        | some beside => exact step_index hwho hbeside
      rw [hindex, hothers]
      exact happ
  | some i =>
      have hexists : ∃ other, s.calls[i]? = some other := by
        cases action <;> cases hwho <;>
          exact (Option.bind_eq_some_iff.mp hstep).imp fun _ h => h.1
      obtain ⟨other, hother⟩ := hexists
      have hne : i ≠ c := fun heq => hcaller (heq ▸ hwho)
      -- the guards of the other call are not those of the subscribe
      have hdisjoint : ∀ filter ∈ other.held, filter ∉ fresh := fun filter hfilter hfresh =>
        hne (hguarded.exclusive i c other call filter hother hcall hfilter (hheld filter hfresh))
      obtain ⟨F, ⟨edit, hedit, hform⟩, rfl, hrun⟩ :=
        step_runs hwho hother (hguarded.holds other (List.mem_of_getElem? hother)) hstep
      have hself : (F s).state.subscriptions = edit s.state.subscriptions :=
        congrArg (fun s => s.state.subscriptions)
          (hform s.state.subscriptions ⟨fun _ _ => rfl, rfl⟩)
      have hbeside : (s.setSubscriptions others).step action =
          some (F (s.setSubscriptions others)) := hrun others
      rw [hbeside, Option.elim_some, hform others (happ.alike hdisjoint), hself]
      exact hedit _ _ _ hdisjoint happ

/-- A call that is over stays so. -/
theorem over_step {s next : Connection} {call : Call} {action : Action} (hguarded : s.Guarded)
    (hcall : s.calls[c]? = some call)
    (hover : (∃ outcome, call.phase = .draining outcome) ∨
      ∃ outcome, call.phase = .finished outcome)
    (hstep : s.step action = some next) :
    ∃ call', next.calls[c]? = some call' ∧
      ((∃ outcome, call'.phase = .draining outcome) ∨
        ∃ outcome, call'.phase = .finished outcome) := by
  by_cases hcaller : action.caller = some c
  · have hended : ∀ outcome, ∃ call', (s.finish c outcome).calls[c]? = some call' ∧
        ((∃ outcome, call'.phase = .draining outcome) ∨
          ∃ outcome, call'.phase = .finished outcome) := fun outcome =>
      ⟨_, (TaskList.getElem?_modify_iff hcall).mpr (Or.inl ⟨rfl, rfl⟩), Or.inr ⟨outcome, rfl⟩⟩
    rcases hover with ⟨outcome, hphase⟩ | ⟨outcome, hphase⟩
    · cases action with
      | resumeDrain c' ok =>
          cases hcaller
          obtain ⟨_, hcall', hstep⟩ := Option.bind_eq_some_iff.mp hstep
          cases hcall.symm.trans hcall'
          rw [hphase] at hstep
          simp only at hstep
          split_ifs at hstep <;> cases hstep <;> exact hended _
      | cancel c' =>
          cases hcaller
          obtain ⟨_, hcall', hstep⟩ := Option.bind_eq_some_iff.mp hstep
          cases hcall.symm.trans hcall'
          simp only [Connection.cancel, hphase] at hstep
          cases hstep
          exact ⟨_, (TaskList.getElem?_modify_iff hcall).mpr (Or.inl ⟨rfl, rfl⟩),
            Or.inl ⟨outcome, hphase⟩⟩
      | _ =>
          cases hcaller
          all_goals
            obtain ⟨_, hcall', hstep⟩ := Option.bind_eq_some_iff.mp hstep
            cases hcall.symm.trans hcall'
            simp [hphase, Connection.acquireGuard, Connection.resumeWrite,
              Connection.resumeFuture] at hstep
    · have hfinished : call.phase.isFinished = true := by rw [hphase]; rfl
      exact ⟨call, step_finished hguarded hstep hcall hfinished, Or.inr ⟨outcome, hphase⟩⟩
  · exact ⟨call, step_other hguarded hstep hcall hcaller, hover⟩

theorem Beside.step {action : Action} (h : Beside c x) (hstep : stepBeside c x action = some next) :
    Beside c next := by
  obtain ⟨s, others⟩ := x
  obtain ⟨s', hs', rfl⟩ := Option.map_eq_some_iff.mp hstep
  refine ⟨h.guarded.step hs', h.owned.step hs', ?_⟩
  obtain ⟨call, hcall, ⟨fresh, hphase, hheld, happ⟩ | hover⟩ := h.call
  · by_cases hcaller : action.caller = some c
    · have hsame : othersIndex c s others action = others := if_pos hcaller
      obtain ⟨call', hcall', hcase⟩ :=
        subscribes_step h.guarded h.owned hcaller hcall hphase hheld happ hs'
      refine ⟨call', hcall', ?_⟩
      rw [hsame]
      refine hcase.imp_right fun hcase => hcase.imp_right fun hfailed => ?_
      obtain ⟨error, herror⟩ := hfailed.1
      exact ⟨.raised error, herror⟩
    · exact ⟨call, step_other h.guarded hs' hcall hcaller, Or.inl ⟨fresh, hphase, hheld,
        differs_step_others h.guarded hcall hheld happ hcaller hs'⟩⟩
  · obtain ⟨call', hcall', hover'⟩ := over_step h.guarded hcall hover hs'
    exact ⟨call', hcall', Or.inr hover'⟩

end Run

/-- A connection with its restored entries. -/
def restoredConnection (version : Version) (strippedPrefixes : List Str) (maxPublishQos : QoS)
    (retainAvailable : Bool) (restored : List IndexItem) (nextEntry : Nat) : Connection :=
  { (opened version strippedPrefixes maxPublishQos retainAvailable).setSubscriptions
      (SubscriptionIndex.addMany {} restored) with nextEntry }

/-- **A failed subscribe is rolled back.**  In every state that a connection reaches, with a
subscribe that waits for its guards, and however the connection goes on: at the step in which
the subscribe fails before it is acknowledged, its packet identifier is free again and absent
from `pending_subs`, and the index answers as the one that only the other calls changed. -/
theorem failed_subscribe_rolls_back (version : Version) (strippedPrefixes : List Str)
    (maxPublishQos : QoS) (retainAvailable : Bool) (restored : List IndexItem) (nextEntry : Nat)
    (before : List Action) (start : Connection)
    (hbefore : Transition.run step
      (restoredConnection version strippedPrefixes maxPublishQos retainAvailable restored nextEntry)
      before = some start)
    (c : Nat) (waiting : Call) (hwaiting : start.calls[c]? = some waiting)
    (filters : List SubscriptionRequest) (queue : Nat) (autoAck : Bool) (identifier : Option Int)
    (todo : List Str)
    (hguards : waiting.phase = .guards (.subscribe filters queue autoAck identifier) todo)
    (actions : List Action) (s : Connection) (others : SubscriptionIndex)
    (hrun : Transition.run (stepBeside c) (start, start.state.subscriptions) actions =
      some (s, others))
    (action : Action) (next : Connection) (others' : SubscriptionIndex)
    (hstep : stepBeside c (s, others) action = some (next, others'))
    (call call' : Call) (hcall : s.calls[c]? = some call)
    (hopen : call.phase.subscribing.isSome = true) (hcall' : next.calls[c]? = some call')
    (error : MqttError) (hfailed : call'.phase = .finished (.raised error)) :
    RolledBack call.phase s next others' := by
  have hinvariant : start.Guarded ∧ start.Owned none ∧ start.Indexed :=
    Transition.invariant (I := fun s => s.Guarded ∧ s.Owned none ∧ s.Indexed)
      (fun _ _ _ h hstep => ⟨h.1.step hstep, h.2.1.step hstep, h.2.2.step hstep⟩)
      ⟨Guarded.of_no_calls rfl, ownedRules.index _ _ (.addMany _ restored) (opened_owned _ _ _ _),
        _, empty_shows.addMany restored⟩ hbefore
  have hstart : Beside c (start, start.state.subscriptions) := by
    refine ⟨hinvariant.1, hinvariant.2.1, waiting, hwaiting, Or.inl ⟨[], ?_, ?_, ?_⟩⟩
    · rw [hguards]
      rfl
    · exact fun _ h => absurd h List.not_mem_nil
    · exact DiffersBy.refl hinvariant.2.2
  have h : Beside c (s, others) :=
    Transition.invariant (fun _ _ _ h hstep => h.step hstep) hstart hrun
  obtain ⟨s', hs', heq⟩ := Option.map_eq_some_iff.mp hstep
  obtain ⟨rfl, hothers⟩ := Prod.mk.inj heq
  obtain ⟨fresh, hphase⟩ := Option.isSome_iff_exists.mp hopen
  have hcaller : action.caller = some c := by
    by_contra hother
    have hsame := step_other h.guarded hs' hcall hother
    obtain rfl : call = call' := Option.some.inj (hsame.symm.trans hcall')
    rw [hfailed] at hphase
    cases hphase
  obtain ⟨known, hknown, ⟨fresh', hphase', hheld, happ⟩ | ⟨outcome, hover⟩ | ⟨outcome, hover⟩⟩ :=
    h.call
  all_goals obtain rfl : call = known := Option.some.inj (hcall.symm.trans hknown)
  · obtain ⟨after, hafter, hcase⟩ :=
      subscribes_step h.guarded h.owned hcaller hcall hphase' hheld happ hs'
    obtain rfl : after = call' := Option.some.inj (hafter.symm.trans hcall')
    have hsame : others' = others := by
      rw [← hothers]
      exact if_pos hcaller
    rw [hfailed] at hcase
    rcases hcase with ⟨_, hnot, -⟩ | ⟨_, hnot⟩ | ⟨-, hrolled⟩
    · cases hnot
    · cases hnot
    · rw [hsame]
      exact hrolled
  · rw [hover] at hphase
    cases hphase
  · rw [hover] at hphase
    cases hphase

/-- A subscribe to `f`, to `old`, which is registered already, to `g` and to `f` again. -/
def mixedSubscribe : GuardedCall :=
  .subscribe ([str "f", str "old", str "g", str "f"].map fun topicFilter =>
    { topicFilter, qos := .atLeastOnce }) 1 true none

/-- A connection on which it waits for its guards. -/
def mixedStart : Connection :=
  (restoredConnection .v5 [] .exactlyOnce true [(str "old", { oid := 0, queue := 0 })] 1).addCall
    (.guards mixedSubscribe (guardOrder mixedSubscribe.filters))

/-- Beside it `h` is subscribed; the broker rejects `g`. -/
def rejectedRun : List Action :=
  [.acquireGuard 0, .acquireGuard 0, .acquireGuard 0, .enter 0 .done,
    .call (.subscribe [{ topicFilter := str "h", qos := .atMostOnce }] 2 true (some 7)),
    .acquireGuard 1, .enter 1 .done, .receive (.suback { packetId := 2, returnCodes := [0] }) .done,
    .resumeFuture 1 .done, .resumeDrain 1 true,
    .receive (.suback { packetId := 1, returnCodes := [1, 1, 0x87, 1] }) .done]

theorem failed_subscribe_rolls_back_rejected :
    ∃ s others next others' call call',
      Transition.run (stepBeside 0) (mixedStart, mixedStart.state.subscriptions) rejectedRun =
        some (s, others) ∧
      stepBeside 0 (s, others) (.resumeFuture 0 .done) = some (next, others') ∧
      s.calls[0]? = some call ∧ next.calls[0]? = some call' ∧
      call'.phase = .finished (.raised (.subscribeError [(str "g", 0x87)])) ∧
      OrderedDict.keys s.state.subscriptions.entries = [str "old", str "f", str "g", str "h"] ∧
      OrderedDict.keys next.state.subscriptions.entries = [str "old", str "h"] ∧
      RolledBack call.phase s next others' := by
  refine ⟨_, _, _, _, _, _, rfl, rfl, rfl, rfl, rfl, by decide, by decide, ?_⟩
  exact failed_subscribe_rolls_back .v5 [] .exactlyOnce true [(str "old", { oid := 0, queue := 0 })]
    1 [.call mixedSubscribe] mixedStart rfl 0 _ rfl _ _ _ _ _ rfl rejectedRun _ _ rfl
    (.resumeFuture 0 .done) _ _ rfl _ _ rfl rfl rfl _ rfl

end Connection

end Zmqtt
