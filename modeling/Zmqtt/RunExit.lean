import Mathlib.Data.Finset.Max
import Zmqtt.Futures
import Zmqtt.PacketIdOwnership
import Zmqtt.SubscriptionGuards
import Zmqtt.Tally

/-!
# The end of `run`

`MQTTProtocol.run` waits for the read loop and the ping loop.  Once one of them has
failed, or the task of `run` is cancelled, its `finally` block cancels both loops and
waits for them; only then is `_dead` set and every future in the four tables failed.
That second wait is a suspension point like any other: a cancellation that arrives
there leaves the block before `_dead` is set.

After the block has run to its end nothing waits for an answer any more.  The futures
in the tables are done and stay so, calls that are started later are refused, and each
call that is still under way can be woken until it ends: the guards are taken in the
order of their filters, so the call that waits for the last of them waits for nobody.
-/

namespace Zmqtt

/-! ## The task of `run` -/

/-- Where `run` is suspended: in `gather`, in the `finally` block, or ended. -/
inductive RunPhase
  | gathering
  | closing
  | exited
deriving DecidableEq, Repr

/-- A connection with the task of its `run`. -/
structure RunTask where
  connection : Connection
  phase : RunPhase := .gathering

/-- A step of a call, of the read loop or of `run`. -/
inductive RunAction
  | protocol (action : Connection.Action)
  | endGather
  | cleanUp
  | cancelCleanUp
deriving DecidableEq, Repr

namespace RunTask

/-- The steps of a connection other than its end, and the three of `run`.  `gather`
may end at any time: a loop failed, or the task was cancelled. -/
def step (s : RunTask) : RunAction → Option RunTask
  | .protocol action =>
      if action = .exit then none
      else (s.connection.step action).map fun connection => { s with connection }
  | .endGather =>
      if s.phase = .gathering then
        some { connection := { s.connection with reader := .ended none }, phase := .closing }
      else none
  | .cleanUp =>
      if s.phase = .closing then
        (s.connection.step .exit).map fun connection => { connection, phase := .exited }
      else none
  | .cancelCleanUp =>
      -- neither `_dead` is set nor `_cancel_pending` called
      if s.phase = .closing then some { s with phase := .exited } else none

end RunTask

/-- `_remove_response_observer` returns on a dead connection; the other three raise. -/
def GuardedCall.isRefused : GuardedCall → Bool
  | .removeResponseObserver _ => false
  | _ => true

/-- The guard a call waits for. -/
def Phase.nextGuard : Phase → Option Str
  | .guards _ (filter :: _) => some filter
  | _ => none

/-- At most how often a call has to be woken on a dead connection until it ends. -/
def Phase.work : Phase → Nat
  | .guards _ todo => todo.length + 1
  | .request _ _ _ writing => if writing then 3 else 2
  | .publish _ _ writing => if writing then 2 else 1
  | .publishQos0 => 1
  | .draining _ => 1
  | .finished _ => 0

/-! ## Futures in the tables -/

namespace Connection

variable {s next : Connection} {c : Nat} {call : Call}

/-- Every future of the four tables is done. -/
structure Settled (s : Connection) : Prop where
  pending : ∀ kind, ∀ item ∈ s.state.pending kind, isDone s.answerFutures item.2
  qos1 : ∀ item ∈ s.state.inflightQos1, isDone s.flightFutures item.2.future
  qos2 : ∀ item ∈ s.state.inflightQos2Out, isDone s.flightFutures item.2.future

/-! ## While the connection is up -/

/-- The future is that of a flight in one of the two tables. -/
def Flying (s : Connection) (future : Nat) : Prop :=
  (∃ pid flight, OrderedDict.get s.state.inflightQos1 pid = some flight ∧
    flight.future = future) ∨
  ∃ pid flight, OrderedDict.get s.state.inflightQos2Out pid = some flight ∧
    flight.future = future

/-- The futures of the tables exist, and a flight that is not answered is in its
table. -/
structure Tracked (s : Connection) : Prop where
  pending : ∀ kind, ∀ item ∈ s.state.pending kind, item.2 < s.answerFutures.length
  qos1 : ∀ item ∈ s.state.inflightQos1, item.2.future < s.flightFutures.length
  qos2 : ∀ item ∈ s.state.inflightQos2Out, item.2.future < s.flightFutures.length
  flying : ∀ future, s.flightFutures[future]? = some .pending → s.Flying future

/-- Tables and futures unchanged. -/
theorem Tracked.of_same (h : s.Tracked)
    (hpending : ∀ kind, next.state.pending kind = s.state.pending kind)
    (hqos1 : next.state.inflightQos1 = s.state.inflightQos1)
    (hqos2 : next.state.inflightQos2Out = s.state.inflightQos2Out)
    (hanswers : next.answerFutures = s.answerFutures)
    (hflights : next.flightFutures = s.flightFutures) : next.Tracked := by
  refine ⟨?_, ?_, ?_, ?_⟩
  · intro kind
    rw [hpending, hanswers]
    exact h.pending kind
  · rw [hqos1, hflights]
    exact h.qos1
  · rw [hqos2, hflights]
    exact h.qos2
  · unfold Flying
    rw [hqos1, hqos2, hflights]
    exact h.flying

theorem Tracked.openRequest (h : s.Tracked) (kind : RequestKind) (pid : Nat)
    (pool : PacketIdPool) : (s.openRequest kind pid pool).Tracked := by
  have hlength : (s.openRequest kind pid pool).answerFutures.length =
      s.answerFutures.length + 1 := by
    simp [Connection.openRequest]
  refine ⟨?_, ?_, ?_, ?_⟩
  · intro other item hitem
    rw [hlength]
    unfold Connection.openRequest at hitem
    rw [SessionState.pending_setPending] at hitem
    split at hitem
    · rcases OrderedDict.mem_of_mem_set hitem with hitem | rfl
      · exact Nat.lt_succ_of_lt (h.pending kind item hitem)
      · exact Nat.lt_succ_self _
    · exact Nat.lt_succ_of_lt (h.pending other item hitem)
  · cases kind <;> exact h.qos1
  · cases kind <;> exact h.qos2
  · cases kind <;> exact h.flying

theorem Tracked.closeRequest (h : s.Tracked) (kind : RequestKind) (pid : Nat) :
    (s.closeRequest kind pid).Tracked := by
  refine ⟨?_, ?_, ?_, ?_⟩
  · intro other item hitem
    unfold Connection.closeRequest at hitem
    rw [SessionState.pending_setPending] at hitem
    split at hitem
    · exact h.pending kind item (OrderedDict.mem_of_mem_pop hitem)
    · exact h.pending other item hitem
  · cases kind <;> exact h.qos1
  · cases kind <;> exact h.qos2
  · cases kind <;> exact h.flying

/-- A new flight has a new future and an identifier of its own. -/
theorem Tracked.openFlight (h : s.Tracked) (packet : Publish) {pid : Nat} {pool : PacketIdPool}
    (hqos1 : pid ∉ OrderedDict.keys s.state.inflightQos1)
    (hqos2 : pid ∉ OrderedDict.keys s.state.inflightQos2Out) :
    (s.openFlight packet pid pool).Tracked := by
  have hflights : (s.openFlight packet pid pool).flightFutures =
      s.flightFutures ++ [.pending] := rfl
  have hlength : (s.openFlight packet pid pool).flightFutures.length =
      s.flightFutures.length + 1 := by
    rw [hflights, List.length_append]
    rfl
  refine ⟨?_, ?_, ?_, ?_⟩
  · intro kind
    rw [openFlight_pending]
    exact h.pending kind
  · intro item hitem
    rw [hlength]
    unfold Connection.openFlight at hitem
    simp only at hitem
    split at hitem
    · rcases OrderedDict.mem_of_mem_set hitem with hitem | rfl
      · exact Nat.lt_succ_of_lt (h.qos1 item hitem)
      · exact Nat.lt_succ_self _
    · exact Nat.lt_succ_of_lt (h.qos1 item hitem)
  · intro item hitem
    rw [hlength]
    unfold Connection.openFlight at hitem
    simp only at hitem
    split at hitem
    · exact Nat.lt_succ_of_lt (h.qos2 item hitem)
    · rcases OrderedDict.mem_of_mem_set hitem with hitem | rfl
      · exact Nat.lt_succ_of_lt (h.qos2 item hitem)
      · exact Nat.lt_succ_self _
  · intro future hpending
    rw [hflights] at hpending
    unfold Flying Connection.openFlight
    simp only
    by_cases hlt : future < s.flightFutures.length
    · rw [List.getElem?_append_left hlt] at hpending
      rcases h.flying future hpending with ⟨k, flight, hget, heq⟩ | ⟨k, flight, hget, heq⟩
      · have hne : pid ≠ k := by
          rintro rfl
          exact hqos1 ((OrderedDict.mem_keys_iff _ _).mpr ⟨flight, hget⟩)
        left
        refine ⟨k, flight, ?_, heq⟩
        split
        · rw [OrderedDict.get_set, if_neg hne]
          exact hget
        · exact hget
      · have hne : pid ≠ k := by
          rintro rfl
          exact hqos2 ((OrderedDict.mem_keys_iff _ _).mpr ⟨flight, hget⟩)
        right
        refine ⟨k, flight, ?_, heq⟩
        split
        · exact hget
        · rw [OrderedDict.get_set, if_neg hne]
          exact hget
    · have heq : s.flightFutures.length = future := by
        have hbound := (List.getElem?_eq_some_iff.mp hpending).1
        simp only [List.length_append, List.length_singleton] at hbound
        omega
      split
      · left
        exact ⟨pid, _, by rw [OrderedDict.get_set, if_pos rfl], heq⟩
      · right
        exact ⟨pid, _, by rw [OrderedDict.get_set, if_pos rfl], heq⟩

/-- The calls keep the invariant. -/
theorem trackedRules : CallRules (fun active s => s.Owned active ∧ s.Tracked) fun _ _ => True where
  weaken c h := ⟨h.1.weaken c, h.2⟩
  leave f hf h := ⟨ownedRules.leave f hf h.1, h.2.of_same (fun _ => rfl) rfl rfl rfl rfl⟩
  keep f hf h := ⟨ownedRules.keep f hf h.1, h.2.of_same (fun _ => rfl) rfl rfl rfl rfl⟩
  addCall phase hphase h :=
    ⟨ownedRules.addCall phase hphase h.1, h.2.of_same (fun _ => rfl) rfl rfl rfl rfl⟩
  index subscriptions nextEntry hchange h :=
    ⟨ownedRules.index subscriptions nextEntry hchange h.1,
      h.2.of_same (fun kind => by cases kind <;> rfl) rfl rfl rfl rfl⟩
  wrote packet h := ⟨ownedRules.wrote packet h.1, h.2.of_same (fun _ => rfl) rfl rfl rfl rfl⟩
  openFlight packet _ _ hdead hqos hacquire h :=
    ⟨ownedRules.openFlight packet hdead hqos hacquire h.1,
      h.2.openFlight packet (h.1.balanced.not_mem_of_acquire hacquire .qos1)
        (h.1.balanced.not_mem_of_acquire hacquire .qos2)⟩
  failed kind _ _ hdead hacquire h :=
    ⟨ownedRules.failed kind hdead hacquire h.1, (h.2.openRequest kind _ _).closeRequest kind _⟩
  written request writing _ _ hdead hacquire h :=
    ⟨ownedRules.written request writing hdead hacquire h.1,
      (h.2.openRequest request.kind _ _).of_same (fun _ => rfl) rfl rfl rfl rfl⟩
  done _ := trivial
  close hown hclose h := ⟨ownedRules.close hown hclose h.1, h.2.closeRequest _ _⟩

/-- A future is settled, with no change of the tables. -/
theorem Tracked.settleFlight (h : s.Tracked) (future : Nat) {value : FutureState}
    (hvalue : value ≠ .pending) : (s.settleFlight future value).Tracked := by
  have hlength := settle_length s.flightFutures future value
  refine ⟨h.pending, ?_, ?_, ?_⟩
  · intro item hitem
    exact Nat.lt_of_lt_of_eq (h.qos1 item hitem) hlength.symm
  · intro item hitem
    exact Nat.lt_of_lt_of_eq (h.qos2 item hitem) hlength.symm
  · intro other hpending
    exact h.flying other (pending_of_settle hvalue hpending).2

/-- A flight leaves `inflight_qos1` and its future is settled. -/
theorem Tracked.closeQos1 (h : s.Tracked) {pid : Nat} {flight : QoS1Flight}
    (hget : OrderedDict.get s.state.inflightQos1 pid = some flight) {value : FutureState}
    (hvalue : value ≠ .pending) :
    (({ s with
        state := { s.state with
          inflightQos1 := OrderedDict.pop s.state.inflightQos1 pid
          packetIds := s.state.packetIds.release pid } } : Connection).settleFlight flight.future
      value).Tracked := by
  have hlength := settle_length s.flightFutures flight.future value
  refine ⟨?_, ?_, ?_, ?_⟩
  · intro kind
    cases kind
    · exact h.pending .subscribe
    · exact h.pending .unsubscribe
  · intro item hitem
    exact Nat.lt_of_lt_of_eq (h.qos1 item (OrderedDict.mem_of_mem_pop hitem)) hlength.symm
  · intro item hitem
    exact Nat.lt_of_lt_of_eq (h.qos2 item hitem) hlength.symm
  · intro other hpending
    obtain ⟨hne, hpending⟩ := pending_of_settle hvalue hpending
    rcases h.flying other hpending with ⟨k, other', hk, rfl⟩ | hqos2
    · left
      refine ⟨k, other', ?_, rfl⟩
      show OrderedDict.get (OrderedDict.pop _ _) _ = _
      rw [OrderedDict.get_pop, if_neg, hk]
      rintro rfl
      rw [hget] at hk
      exact hne (congrArg QoS1Flight.future (Option.some.inj hk)).symm
    · exact Or.inr hqos2

/-- A flight leaves `inflight_qos2_out` and its future is settled. -/
theorem Tracked.closeQos2 (h : s.Tracked) {pid : Nat} {flight : OutboundQoS2Flight}
    (hget : OrderedDict.get s.state.inflightQos2Out pid = some flight) {value : FutureState}
    (hvalue : value ≠ .pending) :
    ((s.closeQos2 pid).settleFlight flight.future value).Tracked := by
  have hlength := settle_length s.flightFutures flight.future value
  refine ⟨?_, ?_, ?_, ?_⟩
  · intro kind
    cases kind
    · exact h.pending .subscribe
    · exact h.pending .unsubscribe
  · intro item hitem
    exact Nat.lt_of_lt_of_eq (h.qos1 item hitem) hlength.symm
  · intro item hitem
    exact Nat.lt_of_lt_of_eq (h.qos2 item (OrderedDict.mem_of_mem_pop hitem)) hlength.symm
  · intro other hpending
    obtain ⟨hne, hpending⟩ := pending_of_settle hvalue hpending
    rcases h.flying other hpending with hqos1 | ⟨k, other', hk, rfl⟩
    · exact Or.inl hqos1
    · right
      refine ⟨k, other', ?_, rfl⟩
      show OrderedDict.get (OrderedDict.pop _ _) _ = _
      rw [OrderedDict.get_pop, if_neg, hk]
      rintro rfl
      rw [hget] at hk
      exact hne (congrArg OutboundQoS2Flight.future (Option.some.inj hk)).symm

/-- The flight of a PUBREC stays in its table, in its second state. -/
theorem Tracked.advance (h : s.Tracked) {pid : Nat} {flight : OutboundQoS2Flight}
    (hget : OrderedDict.get s.state.inflightQos2Out pid = some flight)
    (state : OutboundQoS2State) :
    ({ s with
        state := { s.state with
          inflightQos2Out := OrderedDict.set s.state.inflightQos2Out pid
            { flight with state } } } : Connection).Tracked := by
  refine ⟨?_, h.qos1, ?_, ?_⟩
  · intro kind
    cases kind
    · exact h.pending .subscribe
    · exact h.pending .unsubscribe
  · intro item hitem
    rcases OrderedDict.mem_of_mem_set hitem with hitem | rfl
    · exact h.qos2 item hitem
    · exact h.qos2 (pid, flight) (OrderedDict.mem_of_get hget)
  · intro other hpending
    rcases h.flying other hpending with hqos1 | ⟨k, other', hk, rfl⟩
    · exact Or.inl hqos1
    · right
      by_cases heq : pid = k
      · subst heq
        rw [hget] at hk
        cases hk
        exact ⟨pid, { flight with state }, by rw [OrderedDict.get_set, if_pos rfl], rfl⟩
      · exact ⟨k, other', by rw [OrderedDict.get_set, if_neg heq, hk], rfl⟩

theorem Tracked.handleAnswer (h : s.Tracked) (kind : RequestKind) (packetId : Int)
    (packet : Packet) (unknown : String) :
    (s.handleAnswer kind packetId packet unknown).Tracked := by
  unfold Connection.handleAnswer
  simp only
  split
  · exact h.of_same (fun _ => rfl) rfl rfl rfl rfl
  · split
    · refine ⟨?_, h.qos1, h.qos2, h.flying⟩
      intro other item hitem
      exact Nat.lt_of_lt_of_eq (h.pending other item hitem) List.length_set.symm
    · exact h.of_same (fun _ => rfl) rfl rfl rfl rfl

theorem Tracked.handlePubrec (h : s.Tracked) (packet : PubReply) (write : WriteOutcome) :
    (s.handlePubrec packet write).Tracked := by
  unfold Connection.handlePubrec
  split
  · exact h.of_same (fun _ => rfl) rfl rfl rfl rfl
  · next flight hget =>
      have hadvanced := h.advance hget .pendingPubcomp
      split
      · exact h.of_same (fun _ => rfl) rfl rfl rfl rfl
      · split
        · exact (h.closeQos2 hget (fun heq => by cases heq)).of_same (fun _ => rfl) rfl rfl rfl rfl
        · simp only
          split
          · exact hadvanced.of_same (fun _ => rfl) rfl rfl rfl rfl
          · split <;> exact hadvanced.of_same (fun _ => rfl) rfl rfl rfl rfl

theorem Tracked.dispatch (h : s.Tracked) (packet : Packet) (write : WriteOutcome) :
    (s.dispatch packet write).Tracked := by
  have hsame : ∀ reader log, ({ s with reader, log } : Connection).Tracked :=
    fun _ _ => h.of_same (fun _ => rfl) rfl rfl rfl rfl
  unfold Connection.dispatch
  split
  · exact hsame _ _
  · exact hsame _ _
  · exact hsame _ _
  · unfold Connection.handlePuback
    split
    · exact hsame _ _
    · next flight hget =>
        exact (h.closeQos1 hget (fun heq => by cases heq)).of_same (fun _ => rfl) rfl rfl rfl rfl
  · exact h.handlePubrec _ write
  · unfold Connection.handlePubcomp
    split
    · exact hsame _ _
    · next flight hget =>
        exact (h.closeQos2 hget (fun heq => by cases heq)).of_same (fun _ => rfl) rfl rfl rfl rfl
  · exact h.handleAnswer _ _ _ _
  · exact h.handleAnswer _ _ _ _
  · exact hsame _ _
  · split <;> exact hsame _ _
  · exact hsame _ _

theorem Tracked.cancel (h : s.Tracked) (hstep : s.cancel c call = some next) : next.Tracked := by
  have hflag : ({ s with calls := s.calls.modify c fun call =>
      { call with cancelRequested := true } } : Connection).Tracked :=
    h.of_same (fun _ => rfl) rfl rfl rfl rfl
  unfold Connection.cancel at hstep
  split at hstep <;> cases hstep
  · refine ⟨?_, h.qos1, h.qos2, h.flying⟩
    intro other item hitem
    exact Nat.lt_of_lt_of_eq (h.pending other item hitem) (settle_length _ _ _).symm
  · exact hflag.settleFlight _ (fun heq => by cases heq)
  · exact hflag

theorem Tracked.exit (h : s.Tracked) : s.exit.Tracked := by
  refine ⟨?_, ?_, ?_, ?_⟩
  · intro kind item hitem
    exact Nat.lt_of_lt_of_eq (h.pending kind item hitem) (failAll_length _ _).symm
  · intro item hitem
    exact Nat.lt_of_lt_of_eq (h.qos1 item hitem) (failAll_length _ _).symm
  · intro item hitem
    exact Nat.lt_of_lt_of_eq (h.qos2 item hitem) (failAll_length _ _).symm
  · intro future hpending
    exact h.flying future (pending_of_failAll hpending).2

theorem Tracked.step {action : Action} (howned : s.Owned none) (h : s.Tracked)
    (hstep : s.step action = some next) : next.Owned none ∧ next.Tracked := by
  refine trackedRules.step ⟨howned, h⟩ hstep (fun _ _ _ _ _ _ _ _ _ _ => trivial) ?_ ?_ ?_ ?_
  · exact fun c call _ _ hcancel => ⟨howned.cancel hcancel, h.cancel hcancel⟩
  · exact fun packet write _ _ _ => ⟨howned.dispatch packet write, h.dispatch packet write⟩
  · exact fun reader _ => ⟨⟨howned.balanced, howned.recorded, howned.holds, howned.unique⟩,
      h.of_same (fun _ => rfl) rfl rfl rfl rfl⟩
  · exact fun _ => ⟨⟨howned.balanced, howned.recorded, howned.holds, howned.unique⟩, h.exit⟩

/-! ## After the end -/

/-- The connection is dead and nobody waits for an answer: every future of the tables
is done, and so is the future of every flight there ever was. -/
structure Ended (s : Connection) : Prop where
  dead : s.dead = true
  settled : s.Settled
  flights : ∀ future : Nat, s.flightFutures[future]? ≠ some .pending

/-- **The end of `run`** fails every future that is not done. -/
theorem Tracked.ended (h : s.Tracked) : s.exit.Ended := by
  refine ⟨rfl, ⟨?_, ?_, ?_⟩, ?_⟩
  · intro kind item hitem
    refine (isDone_failAll _ s.answerFutures).2 item.2 ?_ (h.pending kind item hitem)
    cases kind
    · exact List.mem_append_left _ (List.mem_map_of_mem hitem)
    · exact List.mem_append_right _ (List.mem_map_of_mem hitem)
  · intro item hitem
    refine (isDone_failAll _ s.flightFutures).2 item.2.future ?_ (h.qos1 item hitem)
    exact List.mem_append_left _ (List.mem_map.mpr ⟨item, hitem, rfl⟩)
  · intro item hitem
    refine (isDone_failAll _ s.flightFutures).2 item.2.future ?_ (h.qos2 item hitem)
    exact List.mem_append_right _ (List.mem_map.mpr ⟨item, hitem, rfl⟩)
  · intro future hpending
    obtain ⟨hnot, hpending⟩ := pending_of_failAll hpending
    rcases h.flying future hpending with ⟨pid, flight, hget, rfl⟩ | ⟨pid, flight, hget, rfl⟩
    · exact hnot (List.mem_append_left _
        (List.mem_map.mpr ⟨_, OrderedDict.mem_of_get hget, rfl⟩))
    · exact hnot (List.mem_append_right _
        (List.mem_map.mpr ⟨_, OrderedDict.mem_of_get hget, rfl⟩))

theorem Ended.of_same (h : s.Ended) (hdead : next.dead = s.dead)
    (hpending : ∀ kind, ∀ item ∈ next.state.pending kind, item ∈ s.state.pending kind)
    (hqos1 : next.state.inflightQos1 = s.state.inflightQos1)
    (hqos2 : next.state.inflightQos2Out = s.state.inflightQos2Out)
    (hanswers : ∀ future, isDone s.answerFutures future → isDone next.answerFutures future)
    (hflights : ∀ future, isDone s.flightFutures future → isDone next.flightFutures future)
    (hnone : ∀ future : Nat, next.flightFutures[future]? = some .pending →
      s.flightFutures[future]? = some .pending) : next.Ended := by
  refine ⟨hdead.trans h.dead, ⟨?_, ?_, ?_⟩, fun future hpending => h.flights future (hnone _ hpending)⟩
  · intro kind item hitem
    exact hanswers _ (h.settled.pending kind item (hpending kind item hitem))
  · intro item hitem
    exact hflights _ (h.settled.qos1 item (hqos1 ▸ hitem))
  · intro item hitem
    exact hflights _ (h.settled.qos2 item (hqos2 ▸ hitem))

/-- No call opens anything on a dead connection. -/
theorem endedRules : CallRules (fun _ s => s.Ended) fun _ _ => True where
  weaken _ h := h
  leave _ _ h := ⟨h.dead, ⟨h.settled.pending, h.settled.qos1, h.settled.qos2⟩, h.flights⟩
  keep _ _ h := ⟨h.dead, ⟨h.settled.pending, h.settled.qos1, h.settled.qos2⟩, h.flights⟩
  addCall _ _ h := ⟨h.dead, ⟨h.settled.pending, h.settled.qos1, h.settled.qos2⟩, h.flights⟩
  index _ _ _ h := by
    refine h.of_same rfl ?_ rfl rfl (fun _ h => h) (fun _ h => h) (fun _ h => h)
    intro kind item hitem
    cases kind <;> exact hitem
  wrote _ h := ⟨h.dead, ⟨h.settled.pending, h.settled.qos1, h.settled.qos2⟩, h.flights⟩
  openFlight _ _ _ halive _ _ h := by
    rw [h.dead] at halive
    cases halive
  failed _ _ _ halive _ h := by
    rw [h.dead] at halive
    cases halive
  written _ _ _ _ halive _ h := by
    rw [h.dead] at halive
    cases halive
  done _ := trivial
  close {_ _ kind pid _} _ _ h := by
    refine h.of_same rfl ?_ ?_ ?_ (fun _ h => h) (fun _ h => h) (fun _ h => h)
    · intro other item hitem
      unfold Connection.closeRequest at hitem
      rw [SessionState.pending_setPending] at hitem
      split at hitem
      · next heq =>
          subst heq
          exact OrderedDict.mem_of_mem_pop hitem
      · exact hitem
    · cases kind <;> rfl
    · cases kind <;> rfl

theorem Ended.step {action : Action} (h : s.Ended) (hstep : s.step action = some next) :
    next.Ended := by
  have hsame : ∀ {t : Connection}, t.dead = s.dead → t.state = s.state →
      t.answerFutures = s.answerFutures → t.flightFutures = s.flightFutures → t.Ended := by
    intro t hdead hstate hanswers hflights
    exact h.of_same hdead (fun kind item hitem => hstate ▸ hitem) (hstate ▸ rfl) (hstate ▸ rfl)
      (fun _ h => hanswers ▸ h) (fun _ h => hflights ▸ h) (fun _ h => hflights ▸ h)
  refine endedRules.step h hstep (fun _ _ _ _ _ _ _ _ _ _ => trivial) ?_ ?_ ?_ ?_
  · intro c call _ _ hcancel
    unfold Connection.cancel at hcancel
    split at hcancel <;> cases hcancel
    · exact h.of_same rfl (fun _ _ hitem => hitem) rfl rfl (fun _ => isDone_settle) (fun _ h => h)
        (fun _ h => h)
    · exact h.of_same rfl (fun _ _ hitem => hitem) rfl rfl (fun _ h => h) (fun _ => isDone_settle)
        (fun _ hpending => (pending_of_settle (fun heq => by cases heq) hpending).2)
    · exact hsame rfl rfl rfl rfl
  · intro packet write _ halive _
    rw [h.dead] at halive
    cases halive
  · exact fun reader _ => hsame rfl rfl rfl rfl
  · intro _
    exact h.of_same h.dead.symm (fun _ _ hitem => hitem) rfl rfl (isDone_failAll _ _).1
      (isDone_failAll _ _).1 (fun _ hpending => (pending_of_failAll hpending).2)

/-! ### Calls that are started later -/

/-- A guarded call that a dead connection refuses: it waits for its guards, or it has
raised, `MQTTDisconnectedError` unless it was cancelled. -/
def Refuses (s : Connection) (c : Nat) (guarded : GuardedCall) : Prop :=
  ∃ call, s.calls[c]? = some call ∧
    ((∃ todo, call.phase = .guards guarded todo) ∨
      call.phase = .finished (.raised .disconnected) ∨
      (call.cancelRequested = true ∧ call.phase = .finished (.raised .cancelled)))

theorem publish_dead (hdead : s.dead = true) (packet : Publish) (write : WriteOutcome) :
    s.publish packet write = s.addCall (.finished (.raised .disconnected)) := by
  rw [Connection.publish, if_pos hdead]

theorem raiseFromRequest_calls (s : Connection) (c : Nat) (request : Request)
    (error : MqttError) :
    ∃ outcome, (s.raiseFromRequest c request error).calls = (s.finish c outcome).calls := by
  cases request with
  | subscribe filters identifier newEntries => exact ⟨_, rfl⟩
  | unsubscribe brokerFilters observedFilters => exact ⟨_, rfl⟩
  | restoreObservers acknowledged observedFilters =>
      simp only [Connection.raiseFromRequest]
      split <;> exact ⟨_, rfl⟩
  | addObserver topic => exact ⟨_, rfl⟩
  | removeObserver topic => exact ⟨_, rfl⟩

/-- On a dead connection a request ends at once. -/
theorem beginRequest_dead (hdead : s.dead = true) (request : Request) (write : WriteOutcome) :
    s.beginRequest c request write = s.raiseFromRequest c request .disconnected := by
  rw [Connection.beginRequest, if_pos hdead]

/-- The body of a call on a dead connection ends at once, with an exception unless it
gives up an observer. -/
theorem enter_dead (hdead : s.dead = true) (guarded : GuardedCall) (write : WriteOutcome) :
    ∃ outcome, (s.enter c guarded write).calls = (s.finish c outcome).calls ∧
      (guarded.isRefused = true → outcome = .raised .disconnected) := by
  cases guarded with
  | subscribe filters queue autoAck identifier =>
      simp only [Connection.enter, Connection.enterSubscribe]
      rw [beginRequest_dead]
      · exact ⟨_, rfl, fun _ => rfl⟩
      · exact hdead
  | unsubscribe filters =>
      simp only [Connection.enter, Connection.enterUnsubscribe, if_pos hdead]
      exact ⟨_, rfl, fun _ => rfl⟩
  | addResponseObserver topic =>
      simp only [Connection.enter, Connection.enterAddObserver, if_pos hdead]
      exact ⟨_, rfl, fun _ => rfl⟩
  | removeResponseObserver topic =>
      simp only [Connection.enter, Connection.enterRemoveObserver, hdead, Bool.or_true, if_true]
      split
      · exact ⟨_, rfl, fun h => by cases h⟩
      · exact ⟨_, rfl, fun h => by cases h⟩

theorem finish_getElem (hcall : s.calls[c]? = some call) (outcome : Outcome) :
    (s.finish c outcome).calls[c]? =
      some { call with phase := .finished outcome, held := [] } := by
  rw [Connection.finish, List.getElem?_modify_eq, hcall]
  rfl

theorem Refuses.step {action : Action} {guarded : GuardedCall} (hdead : s.dead = true)
    (hguarded : s.Guarded) (hrefused : guarded.isRefused = true) (h : s.Refuses c guarded)
    (hstep : s.step action = some next) : next.Refuses c guarded := by
  obtain ⟨call, hcall, hphase⟩ := h
  by_cases hcaller : action.caller = some c
  · by_cases hfinished : call.phase.isFinished = true
    · exact ⟨call, step_finished hguarded hstep hcall hfinished, hphase⟩
    · obtain ⟨todo, hphase⟩ : ∃ todo, call.phase = .guards guarded todo := by
        rcases hphase with hphase | hphase | ⟨-, hphase⟩
        · exact hphase
        · rw [hphase] at hfinished
          exact absurd rfl hfinished
        · rw [hphase] at hfinished
          exact absurd rfl hfinished
      cases action with
      | acquireGuard c' =>
          cases hcaller
          rw [Connection.step, hcall, Option.bind_some, Connection.acquireGuard, hphase] at hstep
          split at hstep
          · split at hstep
            · next hcancel =>
                cases hstep
                exact ⟨_, finish_getElem hcall _, Or.inr (Or.inr ⟨hcancel, rfl⟩)⟩
            · split at hstep <;> cases hstep
              next guarded' filter rest heq _ _ =>
                cases heq
                refine ⟨{ call with phase := .guards guarded rest, held := filter :: call.held }, ?_,
                  Or.inl ⟨rest, rfl⟩⟩
                rw [List.getElem?_modify_eq, hcall]
                rfl
          · cases hstep
      | enter c' write =>
          cases hcaller
          rw [Connection.step, hcall, Option.bind_some] at hstep
          simp only [hphase] at hstep
          split at hstep
          · next heq =>
              cases heq
              split at hstep
              · next hcancel =>
                  cases hstep
                  exact ⟨_, finish_getElem hcall _, Or.inr (Or.inr ⟨hcancel, rfl⟩)⟩
              · cases hstep
                obtain ⟨outcome, hcalls, houtcome⟩ := enter_dead hdead guarded write (c := c)
                refine ⟨_, (congrArg (fun calls : List Call => calls[c]?) hcalls).trans
                  (finish_getElem hcall outcome), Or.inr (Or.inl ?_)⟩
                rw [houtcome hrefused]
          · cases hstep
      | resumeWrite c' ok =>
          cases hcaller
          rw [Connection.step, hcall, Option.bind_some, Connection.resumeWrite, hphase] at hstep
          cases hstep
      | resumeFuture c' write =>
          cases hcaller
          rw [Connection.step, hcall, Option.bind_some, Connection.resumeFuture, hphase] at hstep
          cases hstep
      | resumeDrain c' ok =>
          cases hcaller
          rw [Connection.step, hcall, Option.bind_some, hphase] at hstep
          cases hstep
      | cancel c' =>
          cases hcaller
          rw [Connection.step, hcall, Option.bind_some, Connection.cancel, hphase] at hstep
          cases hstep
          refine ⟨{ call with cancelRequested := true }, ?_, Or.inl ⟨todo, hphase⟩⟩
          rw [List.getElem?_modify_eq, hcall]
          rfl
      | publish packet write => cases hcaller
      | call other => cases hcaller
      | receive packet write => cases hcaller
      | resumeReader ok => cases hcaller
      | exit => cases hcaller
  · exact ⟨call, step_other hguarded hstep hcall hcaller, hphase⟩

/-! ### Calls under way -/

/-- The steps that wake the task of a call. -/
def Action.wakes : Action → Bool
  | .acquireGuard _ => true
  | .enter _ _ => true
  | .resumeWrite _ _ => true
  | .resumeFuture _ _ => true
  | .resumeDrain _ _ => true
  | _ => false

def work (s : Connection) : Nat := Tally.tally (fun call => call.phase.work) s.calls

theorem work_modify (hcall : s.calls[c]? = some call) {f : Call → Call}
    (hcalls : next.calls = s.calls.modify c f)
    (hlt : (f call).phase.work < call.phase.work) : next.work < s.work := by
  have hsum := Tally.tally_modify (fun call => call.phase.work) hcall f
  unfold work
  rw [hcalls]
  omega

/-- The call ends. -/
theorem work_finish (hcall : s.calls[c]? = some call)
    (hcalls : ∃ outcome, next.calls = (s.finish c outcome).calls)
    (hopen : 0 < call.phase.work) : next.work < s.work := by
  obtain ⟨outcome, hcalls⟩ := hcalls
  exact work_modify hcall hcalls hopen

/-- An answered request on a dead connection: the call ends, or drains. -/
theorem work_returnFromRequest (hdead : s.dead = true) (hcall : s.calls[c]? = some call)
    (request : Request) (packet : Packet) (write : WriteOutcome)
    (hwork : call.phase.work = 2) :
    (s.returnFromRequest c request packet write).work < s.work := by
  have hopen : 0 < call.phase.work := by omega
  unfold Connection.returnFromRequest
  split
  · exact work_modify hcall rfl (by rw [hwork]; exact Nat.lt_succ_self 1)
  · split
    · exact work_finish hcall ⟨_, rfl⟩ hopen
    · rw [beginRequest_dead hdead]
      exact work_finish hcall (raiseFromRequest_calls s c _ _) hopen
  · exact work_finish hcall ⟨_, rfl⟩ hopen
  · exact work_finish hcall ⟨_, rfl⟩ hopen
  · exact work_finish hcall ⟨_, rfl⟩ hopen
  · exact work_finish hcall (raiseFromRequest_calls s c _ _) hopen

theorem work_answerRequest (hdead : s.dead = true) (hcall : s.calls[c]? = some call)
    (request : Request) (pid : Nat) (packet : Packet) (write : WriteOutcome)
    (hwork : call.phase.work = 2) :
    (s.answerRequest c request pid packet write).work < s.work := by
  have hopen : 0 < call.phase.work := by omega
  have hreturn : ((s.closeRequest request.kind pid).returnFromRequest c request packet
      write).work < s.work :=
    work_returnFromRequest (s := s.closeRequest request.kind pid) hdead hcall request packet write
      hwork
  unfold Connection.answerRequest
  simp only
  split
  · split
    · exact work_finish hcall (raiseFromRequest_calls (s.closeRequest request.kind pid) c _ _) hopen
    · exact hreturn
  · exact hreturn

/-- **Every wake-up on a dead connection brings its call nearer to its end.** -/
theorem work_step {action : Action} (hdead : s.dead = true) (hwakes : action.wakes = true)
    (hstep : s.step action = some next) : next.work < s.work := by
  cases action with
  | acquireGuard c =>
      obtain ⟨call, hcall, hstep⟩ := Option.bind_eq_some_iff.mp hstep
      unfold Connection.acquireGuard at hstep
      split at hstep
      · next hphase =>
          have hwork : call.phase.work = _ := congrArg Phase.work hphase
          split at hstep
          · cases hstep
            exact work_finish hcall ⟨_, rfl⟩ (by rw [hwork]; exact Nat.succ_pos _)
          · split at hstep <;> cases hstep
            exact work_modify hcall rfl (by rw [hwork]; exact Nat.lt_succ_self _)
      · cases hstep
  | enter c write =>
      obtain ⟨call, hcall, hstep⟩ := Option.bind_eq_some_iff.mp hstep
      split at hstep
      · next guarded hphase =>
          have hopen : 0 < call.phase.work := by
            rw [hphase]
            exact Nat.succ_pos _
          split at hstep <;> cases hstep
          · exact work_finish hcall ⟨_, rfl⟩ hopen
          · obtain ⟨outcome, hcalls, -⟩ := enter_dead hdead guarded write (c := c)
            exact work_finish hcall ⟨outcome, hcalls⟩ hopen
      · cases hstep
  | resumeWrite c ok =>
      obtain ⟨call, hcall, hstep⟩ := Option.bind_eq_some_iff.mp hstep
      have hfail : ∀ request pid error, 0 < call.phase.work →
          (s.failRequest c request pid error).work < s.work := fun request pid error hopen =>
        work_finish hcall (raiseFromRequest_calls (s.closeRequest request.kind pid) c request error)
          hopen
      unfold Connection.resumeWrite at hstep
      split at hstep
      · next hphase =>
          have hwork : call.phase.work = 3 := congrArg Phase.work hphase
          split at hstep
          · cases hstep
            exact hfail _ _ _ (by omega)
          · split at hstep <;> cases hstep
            · exact work_modify hcall rfl (by rw [hwork]; exact Nat.lt_succ_self 2)
            · exact hfail _ _ _ (by omega)
      · next hphase =>
          have hwork : call.phase.work = 2 := congrArg Phase.work hphase
          split at hstep
          · cases hstep
            exact work_finish hcall ⟨_, rfl⟩ (by omega)
          · split at hstep <;> cases hstep
            · exact work_modify hcall rfl (by rw [hwork]; exact Nat.lt_succ_self 1)
            · exact work_finish hcall ⟨_, rfl⟩ (by omega)
      · next hphase =>
          have hwork : call.phase.work = 1 := congrArg Phase.work hphase
          split at hstep
          · cases hstep
            exact work_finish hcall ⟨_, rfl⟩ (by omega)
          · split at hstep <;> cases hstep <;> exact work_finish hcall ⟨_, rfl⟩ (by omega)
      · cases hstep
  | resumeFuture c write =>
      obtain ⟨call, hcall, hstep⟩ := Option.bind_eq_some_iff.mp hstep
      unfold Connection.resumeFuture at hstep
      split at hstep
      · next request pid future hphase =>
          have hwork : call.phase.work = 2 := congrArg Phase.work hphase
          have hfail : ∀ error, (s.failRequest c request pid error).work < s.work := fun error =>
            work_finish hcall
              (raiseFromRequest_calls (s.closeRequest request.kind pid) c request error) (by omega)
          split at hstep
          · cases hstep
          · cases hstep
          · split at hstep <;> cases hstep
            · exact hfail _
            · exact work_answerRequest hdead hcall request pid _ write hwork
          · split at hstep <;> cases hstep <;> exact hfail _
          · cases hstep
            exact hfail _
      · next hphase =>
          have hwork : call.phase.work = 1 := congrArg Phase.work hphase
          split at hstep
          · cases hstep
          · cases hstep
          · split at hstep <;> cases hstep <;> exact work_finish hcall ⟨_, rfl⟩ (by omega)
          · split at hstep <;> cases hstep <;> exact work_finish hcall ⟨_, rfl⟩ (by omega)
          · cases hstep
            exact work_finish hcall ⟨_, rfl⟩ (by omega)
      · cases hstep
  | resumeDrain c ok =>
      obtain ⟨call, hcall, hstep⟩ := Option.bind_eq_some_iff.mp hstep
      split at hstep
      · next hphase =>
          have hwork : call.phase.work = 1 := congrArg Phase.work hphase
          split at hstep
          · cases hstep
            exact work_finish hcall ⟨_, rfl⟩ (by omega)
          · split at hstep <;> cases hstep <;> exact work_finish hcall ⟨_, rfl⟩ (by omega)
      · cases hstep
  | publish packet write => cases hwakes
  | call guarded => cases hwakes
  | cancel c => cases hwakes
  | receive packet write => cases hwakes
  | resumeReader ok => cases hwakes
  | exit => cases hwakes

/-! ### No deadlock -/

/-- A call waits for a guard that comes after all it has. -/
theorem Call.Holds.lt_next {observers : List Str} {guarded : GuardedCall} {filter : Str}
    {todo : List Str} (h : call.Holds observers)
    (hphase : call.phase = .guards guarded (filter :: todo)) {topic : Str}
    (htopic : topic ∈ call.held) : strKey topic < strKey filter := by
  unfold Call.Holds at h
  rw [hphase] at h
  have hsorted := guardOrder_sorted guarded.filters
  rw [← h, List.pairwise_append] at hsorted
  exact hsorted.2.2 topic (List.mem_reverse.mpr htopic) filter List.mem_cons_self

/-- A call that is not waiting for a guard can be woken: its write returns, or its
future is done. -/
theorem Ended.wake (h : s.Ended) (howned : s.Owned none) (hflights : s.FlightsExist)
    (hcall : s.calls[c]? = some call) (hopen : call.phase.isFinished = false)
    (hguards : ∀ guarded todo, call.phase ≠ .guards guarded todo) :
    ∃ action, Action.wakes action = true ∧ (s.step action).isSome = true := by
  have hwrite : (s.resumeWrite c call true).isSome = true →
      ∃ action, Action.wakes action = true ∧ (s.step action).isSome = true := by
    intro hsome
    refine ⟨.resumeWrite c true, rfl, ?_⟩
    rw [Connection.step, hcall]
    exact hsome
  have hfuture : (s.resumeFuture c call .done).isSome = true →
      ∃ action, Action.wakes action = true ∧ (s.step action).isSome = true := by
    intro hsome
    refine ⟨.resumeFuture c .done, rfl, ?_⟩
    rw [Connection.step, hcall]
    exact hsome
  cases hphase : call.phase with
  | guards guarded todo => exact absurd hphase (hguards guarded todo)
  | request request pid future writing =>
      cases writing with
      | true =>
          apply hwrite
          simp only [Connection.resumeWrite, hphase]
          by_cases hcancel : call.cancelRequested = true <;> simp [hcancel]
      | false =>
          have hget := howned.holds c (by simp) _ _ _ (owned_of_phase hcall hphase)
          obtain ⟨value, hvalue, hne⟩ := h.settled.pending _ _ (OrderedDict.mem_of_get hget)
          apply hfuture
          simp only [Connection.resumeFuture, hphase, show s.answerFutures[future]? = some value
            from hvalue]
          by_cases hcancel : call.cancelRequested = true <;> cases value <;>
            first | exact absurd rfl hne | simp [hcancel]
  | publishQos0 =>
      apply hwrite
      simp only [Connection.resumeWrite, hphase]
      by_cases hcancel : call.cancelRequested = true <;> simp [hcancel]
  | publish pid future writing =>
      cases writing with
      | true =>
          apply hwrite
          simp only [Connection.resumeWrite, hphase]
          by_cases hcancel : call.cancelRequested = true <;> simp [hcancel]
      | false =>
          have hlt := hflights call (List.mem_of_getElem? hcall) pid future false hphase
          obtain ⟨value, hvalue⟩ : ∃ value, s.flightFutures[future]? = some value :=
            ⟨_, List.getElem?_eq_getElem hlt⟩
          have hne : value ≠ .pending := by
            rintro rfl
            exact h.flights future hvalue
          apply hfuture
          simp only [Connection.resumeFuture, hphase, hvalue]
          by_cases hcancel : call.cancelRequested = true <;> cases value <;>
            first | exact absurd rfl hne | simp [hcancel]
  | draining outcome =>
      refine ⟨.resumeDrain c true, rfl, ?_⟩
      rw [Connection.step, hcall, Option.bind_some]
      simp only [hphase]
      by_cases hcancel : call.cancelRequested = true <;> simp [hcancel]
  | finished outcome =>
      rw [hphase] at hopen
      cases hopen

/-- **No deadlock.**  As long as a call on a dead connection has not ended, some call
can be woken. -/
theorem Ended.exists_wake (h : s.Ended) (howned : s.Owned none) (hguarded : s.Guarded)
    (hflights : s.FlightsExist) (hopen : ∃ call ∈ s.calls, call.phase.isFinished = false) :
    ∃ action, Action.wakes action = true ∧ (s.step action).isSome = true := by
  by_contra hstuck
  -- every call that has not ended waits for a guard
  have hwaits : ∀ call ∈ s.calls, call.phase.isFinished = false →
      ∃ guarded filter todo, call.phase = .guards guarded (filter :: todo) := by
    intro call hmem hopen
    obtain ⟨c, hcall⟩ := List.getElem?_of_mem hmem
    by_cases hguards : ∃ guarded todo, call.phase = .guards guarded todo
    · obtain ⟨guarded, todo, hphase⟩ := hguards
      cases todo with
      | cons filter todo => exact ⟨guarded, filter, todo, hphase⟩
      | nil =>
          refine absurd ⟨.enter c .done, rfl, ?_⟩ hstuck
          rw [Connection.step, hcall, Option.bind_some]
          simp only [hphase]
          by_cases hcancel : call.cancelRequested = true <;> simp [hcancel]
    · refine absurd (h.wake howned hflights hcall hopen ?_) hstuck
      exact fun guarded todo hphase => hguards ⟨guarded, todo, hphase⟩
  -- the one that waits for the last guard
  obtain ⟨first, hfirst, hfirstOpen⟩ := hopen
  obtain ⟨guarded₀, filter₀, todo₀, hphase₀⟩ := hwaits first hfirst hfirstOpen
  obtain ⟨filter, hfilter, hmax⟩ :=
    (s.calls.filterMap fun call => call.phase.nextGuard).toFinset.exists_max_image strKey
      ⟨filter₀, List.mem_toFinset.mpr (List.mem_filterMap.mpr ⟨first, hfirst, by rw [hphase₀]; rfl⟩)⟩
  obtain ⟨call, hmem, hnext⟩ := List.mem_filterMap.mp (List.mem_toFinset.mp hfilter)
  obtain ⟨c, hcall⟩ := List.getElem?_of_mem hmem
  have hcallOpen : call.phase.isFinished = false := by
    unfold Phase.nextGuard at hnext
    split at hnext
    · next hphase => exact hphase ▸ rfl
    · cases hnext
  obtain ⟨guarded, filter', todo, hphase⟩ := hwaits call hmem hcallOpen
  rw [hphase] at hnext
  cases hnext
  have hfree : s.guardFree filter = true := by
    refine List.all_eq_true.mpr fun other hother => ?_
    by_contra hheld
    have hheld : filter ∈ other.held := by simpa using hheld
    have hotherOpen : other.phase.isFinished = false := by
      by_contra hfinished
      have hholds := hguarded.holds other hother
      unfold Call.Holds at hholds
      cases hphase' : other.phase <;> simp [hphase', Phase.isFinished] at hfinished hholds
      rw [hholds] at hheld
      cases hheld
    obtain ⟨guarded', filter', todo', hphase'⟩ := hwaits other hother hotherOpen
    have hlt := Call.Holds.lt_next (hguarded.holds other hother) hphase' hheld
    have hle := hmax filter' (List.mem_toFinset.mpr
      (List.mem_filterMap.mpr ⟨other, hother, by rw [hphase']; rfl⟩))
    exact absurd hlt (not_lt.mpr hle)
  refine hstuck ⟨.acquireGuard c, rfl, ?_⟩
  rw [Connection.step, hcall, Option.bind_some]
  simp only [Connection.acquireGuard, hphase]
  by_cases hcancel : call.cancelRequested = true <;> simp [hcancel, hfree]

/-- No future of a flight is ever forgotten. -/
theorem flightFutures_step {action : Action} (hstep : s.step action = some next) :
    s.flightFutures.length ≤ next.flightFutures.length := by
  have hrules : CallRules (fun _ t => s.flightFutures.length ≤ t.flightFutures.length)
      fun _ _ => True :=
    { weaken := fun _ h => h
      leave := fun _ _ h => h
      keep := fun _ _ h => h
      addCall := fun _ _ h => h
      index := fun _ _ _ h => h
      wrote := fun _ h => h
      openFlight := fun _ _ _ _ _ _ h => Nat.le_trans h (by simp [Connection.openFlight])
      failed := fun _ _ _ _ _ h => h
      written := fun _ _ _ _ _ _ h => h
      done := fun _ => trivial
      close := fun _ _ h => h }
  have hsettle : ∀ future value,
      s.flightFutures.length ≤ (settle s.flightFutures future value).length :=
    fun future value => (settle_length _ future value).ge
  refine hrules.step (Nat.le_refl _) hstep (fun _ _ _ _ _ _ _ _ _ _ => trivial) ?_ ?_
    (fun _ _ => Nat.le_refl _) ?_
  · intro c call _ _ hcancel
    unfold Connection.cancel at hcancel
    split at hcancel <;> cases hcancel
    · exact Nat.le_refl _
    · exact hsettle _ _
    · exact Nat.le_refl _
  · intro packet write _ _ _
    unfold Connection.dispatch
    split
    · exact Nat.le_refl _
    · exact Nat.le_refl _
    · exact Nat.le_refl _
    · unfold Connection.handlePuback
      split
      · exact Nat.le_refl _
      · exact hsettle _ _
    · unfold Connection.handlePubrec
      split
      · exact Nat.le_refl _
      · split
        · exact Nat.le_refl _
        · split
          · exact hsettle _ _
          · simp only
            split
            · exact Nat.le_refl _
            · split <;> exact Nat.le_refl _
    · unfold Connection.handlePubcomp
      split
      · exact Nat.le_refl _
      · exact hsettle _ _
    · unfold Connection.handleSuback Connection.handleAnswer
      simp only
      split
      · exact Nat.le_refl _
      · split <;> exact Nat.le_refl _
    · unfold Connection.handleUnsuback Connection.handleAnswer
      simp only
      split
      · exact Nat.le_refl _
      · split <;> exact Nat.le_refl _
    · exact Nat.le_refl _
    · split <;> exact Nat.le_refl _
    · exact Nat.le_refl _
  · exact fun _ => (failAll_length _ _).ge

end Connection

/-! ## Every run -/

namespace RunTask

/-- `run` on a connection after its handshake. -/
def opened (version : Version) (strippedPrefixes : List Str) (maxPublishQos : QoS)
    (retainAvailable : Bool) : RunTask :=
  { connection := Connection.opened version strippedPrefixes maxPublishQos retainAvailable }

/-- The invariant of runs whose clean-up is not cancelled. -/
structure Sound (s : RunTask) : Prop where
  owned : s.connection.Owned none
  tracked : s.connection.Tracked
  guarded : s.connection.Guarded
  flights : s.connection.FlightsExist
  ended : s.phase = .exited → s.connection.Ended

variable {s next : RunTask}

/-- A step of the connection, other than its end. -/
theorem Sound.protocol (h : s.Sound) {action : Connection.Action} {connection : Connection}
    (hstep : s.connection.step action = some connection) : Sound { s with connection } := by
  obtain ⟨howned, htracked⟩ := h.tracked.step h.owned hstep
  exact ⟨howned, htracked, h.guarded.step hstep,
    h.flights.step h.guarded (Connection.flightFutures_step hstep) hstep,
    fun hexited => (h.ended hexited).step hstep⟩

theorem Sound.step {action : RunAction} (h : s.Sound) (haction : action ≠ .cancelCleanUp)
    (hstep : s.step action = some next) : next.Sound := by
  cases action with
  | protocol action =>
      simp only [RunTask.step] at hstep
      split at hstep
      · cases hstep
      · obtain ⟨connection, hconnection, rfl⟩ := Option.map_eq_some_iff.mp hstep
        exact h.protocol hconnection
  | endGather =>
      simp only [RunTask.step] at hstep
      split at hstep <;> cases hstep
      exact ⟨⟨h.owned.balanced, h.owned.recorded, h.owned.holds, h.owned.unique⟩,
        h.tracked.of_same (fun _ => rfl) rfl rfl rfl rfl, ⟨h.guarded.exclusive, h.guarded.holds⟩,
        h.flights, fun hexited => by cases hexited⟩
  | cleanUp =>
      simp only [RunTask.step] at hstep
      split at hstep
      · obtain ⟨connection, hconnection, rfl⟩ := Option.map_eq_some_iff.mp hstep
        have hnext := h.protocol hconnection
        refine ⟨hnext.owned, hnext.tracked, hnext.guarded, hnext.flights, fun _ => ?_⟩
        simp only [Connection.step] at hconnection
        split at hconnection <;> cases hconnection
        exact h.tracked.ended
      · cases hstep
  | cancelCleanUp => exact absurd rfl haction

/-- After `run` has exited only the calls take steps, and a refused call stays refused. -/
theorem Sound.exited_step {action : RunAction} {c : Nat} {guarded : GuardedCall} (h : s.Sound)
    (hexited : s.phase = .exited) (hrefused : guarded.isRefused = true)
    (hcall : s.connection.Refuses c guarded) (hstep : s.step action = some next) :
    next.Sound ∧ next.phase = .exited ∧ next.connection.Refuses c guarded := by
  cases action with
  | protocol action =>
      simp only [RunTask.step] at hstep
      split at hstep
      · cases hstep
      · obtain ⟨connection, hconnection, rfl⟩ := Option.map_eq_some_iff.mp hstep
        exact ⟨h.protocol hconnection, hexited,
          hcall.step (h.ended hexited).dead h.guarded hrefused hconnection⟩
  | endGather =>
      rw [RunTask.step, hexited] at hstep
      cases hstep
  | cleanUp =>
      rw [RunTask.step, hexited] at hstep
      cases hstep
  | cancelCleanUp =>
      rw [RunTask.step, hexited] at hstep
      cases hstep

theorem opened_sound (version : Version) (strippedPrefixes : List Str) (maxPublishQos : QoS)
    (retainAvailable : Bool) :
    (opened version strippedPrefixes maxPublishQos retainAvailable).Sound := by
  refine ⟨Connection.opened_owned _ _ _ _, ⟨?_, ?_, ?_, ?_⟩, ⟨?_, ?_⟩, ?_, ?_⟩
  · intro kind item hitem
    cases kind <;> cases hitem
  · exact fun item hitem => by cases hitem
  · exact fun item hitem => by cases hitem
  · exact fun future hpending => by cases hpending
  · exact fun _ _ _ _ _ hcall => by cases hcall
  · exact fun call hcall => by cases hcall
  · exact fun call hcall => by cases hcall
  · exact fun hexited => by cases hexited

end RunTask

/-- **No caller waits on a dead connection.**  In every state after `run` has exited,
if no cancellation arrived in the wait of its `finally` block: the futures of the four
tables are done; a publish is refused at once; a subscribe, an unsubscribe or a new
observer is refused whatever happens meanwhile; and as long as calls are under way one
of them can be woken, each time with less to do. -/
theorem no_caller_waits {version : Version} {strippedPrefixes : List Str} {maxPublishQos : QoS}
    {retainAvailable : Bool} {actions : List RunAction} {s : RunTask}
    (hrun : Transition.run RunTask.step
      (RunTask.opened version strippedPrefixes maxPublishQos retainAvailable) actions = some s)
    (hcleanUp : Transition.Along RunTask.step (fun _ action => action ≠ .cancelCleanUp)
      (RunTask.opened version strippedPrefixes maxPublishQos retainAvailable) actions)
    (hexited : s.phase = .exited) :
    s.connection.Settled ∧
      (∀ packet write, s.step (.protocol (.publish packet write)) =
        some { s with connection := s.connection.addCall (.finished (.raised .disconnected)) }) ∧
      (∀ guarded more next, GuardedCall.isRefused guarded = true →
        Transition.run RunTask.step s (.protocol (.call guarded) :: more) = some next →
        next.connection.Refuses s.connection.calls.length guarded) ∧
      ((∃ call ∈ s.connection.calls, call.phase.isFinished = false) →
        ∃ action, action.wakes = true ∧ (s.step (.protocol action)).isSome = true) ∧
      ∀ action next, action.wakes = true → s.step (.protocol action) = some next →
        next.connection.work < s.connection.work := by
  have hsound := Transition.invariant_along
    (fun _ _ _ (h : RunTask.Sound _) hok hstep => h.step hok hstep)
    (RunTask.opened_sound version strippedPrefixes maxPublishQos retainAvailable) hcleanUp hrun
  have hended := hsound.ended hexited
  have hstep : ∀ action, action ≠ Connection.Action.exit → s.step (.protocol action) =
      (s.connection.step action).map fun connection => { s with connection } :=
    fun action hne => if_neg hne
  have hwakes : ∀ action, Connection.Action.wakes action = true →
      action ≠ Connection.Action.exit := by
    rintro action hwakes rfl
    cases hwakes
  refine ⟨hended.settled, ?_, ?_, ?_, ?_⟩
  · intro packet write
    rw [hstep _ (fun heq => by cases heq), Connection.step,
      Connection.publish_dead hended.dead packet write]
    rfl
  · intro guarded more next hrefused hmore
    obtain ⟨started, hstarted, hmore⟩ := Option.bind_eq_some_iff.mp hmore
    cases hstarted
    refine (Transition.invariant (I := fun t => t.Sound ∧ t.phase = .exited ∧
      t.connection.Refuses s.connection.calls.length guarded) ?_ ⟨?_, hexited, ?_⟩ hmore).2.2
    · exact fun t action next h hnext => h.1.exited_step h.2.1 hrefused h.2.2 hnext
    · exact @RunTask.Sound.protocol s hsound (.call guarded) _ rfl
    · exact ⟨_, List.getElem?_concat_length, Or.inl ⟨_, rfl⟩⟩
  · intro hopen
    obtain ⟨action, hwake, hsome⟩ :=
      hended.exists_wake hsound.owned hsound.guarded hsound.flights hopen
    refine ⟨action, hwake, ?_⟩
    rw [hstep action (hwakes action hwake), Option.isSome_map]
    exact hsome
  · intro action next hwake hnext
    rw [hstep action (hwakes action hwake)] at hnext
    obtain ⟨connection, hconnection, rfl⟩ := Option.map_eq_some_iff.mp hnext
    exact Connection.work_step hended.dead hwake hconnection

/-- A publish on topic `a`. -/
def outgoingPublish (qos : QoS) : Publish :=
  { topic := str "a", payload := [], qos, retain := false, dup := false }

/-- A publish waits for its PUBACK when the connection ends: its future is failed, and
once it is woken no call is left. -/
theorem no_caller_waits_publish :
    ∃ s, Transition.run RunTask.step (RunTask.opened .v311 [] .exactlyOnce true)
        [.protocol (.publish (outgoingPublish .atLeastOnce) .done), .endGather, .cleanUp] = some s ∧
      s.phase = .exited ∧ s.connection.Settled ∧
      ∀ action next, Connection.Action.wakes action = true →
        s.step (.protocol action) = some next → next.connection.work < s.connection.work := by
  have h := @no_caller_waits .v311 [] .exactlyOnce true
    [.protocol (.publish (outgoingPublish .atLeastOnce) .done), .endGather, .cleanUp] _ rfl (by decide) rfl
  exact ⟨_, rfl, rfl, h.1, h.2.2.2.2⟩

/-- The task of `run` is cancelled while its `finally` block waits for the two loops:
`run` has exited, the future of a publish in progress is not done, and a publish that
is started later waits as well. -/
theorem cancelled_clean_up_leaves_futures :
    ∃ s, Transition.run RunTask.step (RunTask.opened .v311 [] .exactlyOnce true)
        [.protocol (.publish (outgoingPublish .atLeastOnce) .done), .endGather, .cancelCleanUp,
          .protocol (.publish (outgoingPublish .atLeastOnce) .done)] = some s ∧
      s.phase = .exited ∧ ¬ s.connection.Settled ∧
      s.connection.flightFutures = [.pending, .pending] ∧
      s.connection.state.inflightQos1.map (fun item => item.2.future) = [0, 1] ∧
      s.connection.calls.map Call.phase = [.publish 1 0 false, .publish 2 1 false] := by
  refine ⟨_, rfl, rfl, ?_, rfl, rfl, rfl⟩
  intro h
  obtain ⟨value, hvalue, hne⟩ := h.qos1 _ List.mem_cons_self
  exact hne (Option.some.inj hvalue).symm

end Zmqtt
