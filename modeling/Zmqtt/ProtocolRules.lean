import Zmqtt.Protocol

/-!
# Rules for invariants of calls

The calls of a connection change its tables in few ways: a request opens and
closes its identifier, a publish opens a flight, and everything else a call does
is outside the tables.  `CallRules P` asks a property `P` for these few steps;
`CallRules.step` then gives it for every step of every call, so a proof about the
calls never splits their code again.

While a call runs, its recorded phase is out of date.  `P (some c) s` is the
property in the middle of a step of the call `c`, and `P none s` at a suspension
point of all.  `mayClose` restricts the futures whose request may be given up.
-/

namespace Zmqtt

/-- The request a call is inside of: kind, identifier and future. -/
def Phase.owned : Phase → Option (RequestKind × Nat × Nat)
  | .request req pid future _ => some (req.kind, pid, future)
  | _ => none

namespace Connection

variable {s : Connection} {c : Nat}

def owned (s : Connection) (c : Nat) : Option (RequestKind × Nat × Nat) :=
  s.calls[c]?.bind fun call => call.phase.owned

theorem owned_modify (s : Connection) (c : Nat) (f : Call → Call) (c' : Nat) :
    ({ s with calls := s.calls.modify c f } : Connection).owned c' =
      if c = c' then s.calls[c]?.bind fun call => (f call).phase.owned else s.owned c' := by
  unfold owned
  simp only [List.getElem?_modify]
  by_cases hc : c = c'
  · subst hc
    cases s.calls[c]? <;> simp
  · cases s.calls[c']? <;> simp [hc]

theorem owned_of_phase {call : Call} {request : Request} {pid future : Nat} {writing : Bool}
    (hcall : s.calls[c]? = some call) (hphase : call.phase = .request request pid future writing) :
    s.owned c = some (request.kind, pid, future) := by
  rw [owned, hcall, Option.bind_some, hphase]
  rfl

/-- A change of one call to a phase outside any request. -/
theorem owned_of_leave {f : Call → Call} (hf : ∀ call, (f call).phase.owned = none) {c' : Nat}
    {item : RequestKind × Nat × Nat}
    (h : ({ s with calls := s.calls.modify c f } : Connection).owned c' = some item) :
    c' ≠ c ∧ s.owned c' = some item := by
  rw [owned_modify] at h
  by_cases hc : c = c'
  · rw [if_pos hc] at h
    cases hcall : s.calls[c]? with
    | none =>
        rw [hcall] at h
        cases h
    | some call =>
        rw [hcall, Option.bind_some, hf] at h
        cases h
  · rw [if_neg hc] at h
    exact ⟨Ne.symm hc, h⟩

/-- A change of one call that keeps the request it is inside of. -/
theorem owned_of_keep {f : Call → Call}
    (hf : ∀ call, s.calls[c]? = some call → (f call).phase.owned = call.phase.owned) (c' : Nat) :
    ({ s with calls := s.calls.modify c f } : Connection).owned c' = s.owned c' := by
  rw [owned_modify]
  by_cases hc : c = c'
  · rw [if_pos hc, ← hc, owned]
    cases hcall : s.calls[c]? with
    | none => rfl
    | some call => exact hf call hcall
  · rw [if_neg hc]

/-- The active call inside a request. -/
theorem owned_of_setPhase {request : Request} {pid future : Nat} {writing : Bool} {c' : Nat}
    {item : RequestKind × Nat × Nat}
    (h : (s.setPhase c (.request request pid future writing)).owned c' = some item) :
    (c' = c ∧ item = (request.kind, pid, future)) ∨ (c' ≠ c ∧ s.owned c' = some item) := by
  rw [setPhase, owned_modify] at h
  by_cases hc : c = c'
  · rw [if_pos hc] at h
    cases hcall : s.calls[c]? with
    | none =>
        rw [hcall] at h
        cases h
    | some call =>
        rw [hcall] at h
        exact Or.inl ⟨hc.symm, (Option.some.inj h).symm⟩
  · rw [if_neg hc] at h
    exact Or.inr ⟨Ne.symm hc, h⟩

theorem owned_of_addCall {phase : Phase} (hphase : phase.owned = none) {c : Nat}
    {item : RequestKind × Nat × Nat} (h : (s.addCall phase).owned c = some item) :
    s.owned c = some item := by
  unfold owned addCall at h
  unfold owned
  rcases Nat.lt_trichotomy c s.calls.length with hlt | heq | hgt
  · rwa [List.getElem?_append_left hlt] at h
  · subst heq
    simp [hphase] at h
  · rw [List.getElem?_append_right (by omega), List.getElem?_eq_none (by simp; omega)] at h
    cases h

/-- The state in which a request is suspended for the first time. -/
def written (s : Connection) (c : Nat) (request : Request) (pid : Nat) (pool : PacketIdPool)
    (writing : Bool) : Connection :=
  { (s.openRequest request.kind pid pool).setPhase c
      (.request request pid s.answerFutures.length writing) with
    log := (s.openRequest request.kind pid pool).log ++ [.wrote (request.packet pid)]
    requests := s.requests ++ [(request.kind, pid, s.answerFutures.length)] }

/-- How a call changes the index. -/
inductive IndexChange : SubscriptionIndex → SubscriptionIndex → Prop
  | addMany (index : SubscriptionIndex) (items : List IndexItem) :
      IndexChange index (index.addMany items)
  | removeMany (index : SubscriptionIndex) (filters : List Str) :
      IndexChange index (filters.foldl (fun index f => (index.remove f).1) index)
  | addObserver (index : SubscriptionIndex) (topic : Str) :
      IndexChange index (index.addResponseObserver topic).1
  | removeObserver (index : SubscriptionIndex) (topic : Str) :
      IndexChange index (index.removeResponseObserver topic).1

/-- What a property has to satisfy to hold along every step of every call. -/
structure CallRules (P : Option Nat → Connection → Prop) (mayClose : Connection → Nat → Prop) :
    Prop where
  weaken : ∀ {s} (c), P none s → P (some c) s
  leave : ∀ {s c} (f : Call → Call), (∀ call, (f call).phase.owned = none) → P (some c) s →
    P none { s with calls := s.calls.modify c f }
  keep : ∀ {s c} (f : Call → Call),
    (∀ call, s.calls[c]? = some call → (f call).phase.owned = call.phase.owned) → P none s →
    P none { s with calls := s.calls.modify c f }
  addCall : ∀ {s} (phase : Phase), phase.owned = none → P none s → P none (s.addCall phase)
  index : ∀ {s active} (subscriptions nextEntry),
    IndexChange s.state.subscriptions subscriptions → P active s →
    P active { s.setSubscriptions subscriptions with nextEntry }
  wrote : ∀ {s active} (packet : Publish), P active s →
    P active { s with log := s.log ++ [.wrote (.publish packet)] }
  openFlight : ∀ {s active} (packet : Publish) {pid pool}, s.dead = false →
    packet.qos ≠ .atMostOnce → s.state.packetIds.acquire = some (pid, pool) → P active s →
    P active (s.openFlight packet pid pool)
  failed : ∀ {s active} (kind) {pid pool}, s.dead = false →
    s.state.packetIds.acquire = some (pid, pool) → P active s →
    P active ((s.openRequest kind pid pool).closeRequest kind pid)
  written : ∀ {s c} (request : Request) (writing) {pid pool}, s.dead = false →
    s.state.packetIds.acquire = some (pid, pool) → P (some c) s →
    P none (s.written c request pid pool writing)
  done : ∀ {s future}, s.answerFutures[future]? ≠ some .pending → mayClose s future
  close : ∀ {s c kind pid future}, s.owned c = some (kind, pid, future) → mayClose s future →
    P none s → P (some c) (s.closeRequest kind pid)

namespace CallRules

variable {P : Option Nat → Connection → Prop} {mayClose : Connection → Nat → Prop}
  {active : Option Nat}

theorem finish (R : CallRules P mayClose) (h : P (some c) s) (outcome : Outcome) :
    P none (s.finish c outcome) :=
  R.leave _ (fun _ => rfl) h

theorem setSubscriptions (R : CallRules P mayClose) (h : P active s)
    {subscriptions : SubscriptionIndex}
    (hchange : IndexChange s.state.subscriptions subscriptions) :
    P active (s.setSubscriptions subscriptions) :=
  R.index subscriptions s.nextEntry hchange h

theorem raiseFromRequest (R : CallRules P mayClose) (h : P (some c) s) (request : Request)
    (error : MqttError) : P none (s.raiseFromRequest c request error) := by
  cases request with
  | subscribe filters identifier newEntries =>
      exact R.finish (R.setSubscriptions h (.removeMany _ newEntries)) _
  | unsubscribe brokerFilters observedFilters => exact R.finish h _
  | restoreObservers acknowledged observedFilters =>
      simp only [Connection.raiseFromRequest]
      split <;> exact R.finish h _
  | addObserver topic => exact R.finish (R.setSubscriptions h (.removeObserver _ topic)) _
  | removeObserver topic => exact R.finish h _

/-- A request up to its first suspension, however it fails. -/
theorem beginRequest (R : CallRules P mayClose) (h : P (some c) s) (request : Request)
    (write : WriteOutcome) : P none (s.beginRequest c request write) := by
  unfold Connection.beginRequest
  by_cases hdead : s.dead = true
  · rw [if_pos hdead]
    exact R.raiseFromRequest h _ _
  · rw [if_neg hdead]
    rw [Bool.not_eq_true] at hdead
    cases hacquire : s.state.packetIds.acquire with
    | none => exact R.raiseFromRequest h _ _
    | some result =>
        obtain ⟨pid, pool⟩ := result
        have hfailed := R.failed request.kind hdead hacquire h
        simp only
        cases encode (request.packet pid) s.version with
        | error e => exact R.raiseFromRequest hfailed _ _
        | ok bytes =>
            by_cases hwrite : write = .failed
            · simp only [if_pos hwrite]
              exact R.raiseFromRequest hfailed _ _
            · simp only [if_neg hwrite]
              exact R.written request (decide (write = .suspended)) hdead hacquire h

theorem returnFromRequest (R : CallRules P mayClose) (h : P (some c) s) (request : Request)
    (packet : Packet) (write : WriteOutcome) :
    P none (s.returnFromRequest c request packet write) := by
  unfold Connection.returnFromRequest
  split
  · exact R.leave _ (fun _ => rfl) h
  · split
    · exact R.finish h _
    · exact R.beginRequest h _ _
  · exact R.finish h _
  · exact R.finish h _
  · exact R.finish h _
  · exact R.raiseFromRequest h _ _

theorem failRequest (R : CallRules P mayClose) (h : P none s) (request : Request)
    {pid future : Nat} (hown : s.owned c = some (request.kind, pid, future))
    (hclose : mayClose s future) (error : MqttError) :
    P none (s.failRequest c request pid error) :=
  R.raiseFromRequest (R.close hown hclose h) request error

theorem answerRequest (R : CallRules P mayClose) (h : P none s) (request : Request)
    {pid future : Nat} (hown : s.owned c = some (request.kind, pid, future))
    (hclose : mayClose s future) (packet : Packet) (write : WriteOutcome) :
    P none (s.answerRequest c request pid packet write) := by
  have hclosed := R.close hown hclose h
  unfold Connection.answerRequest
  simp only
  split
  · split
    · exact R.raiseFromRequest hclosed _ _
    · exact R.returnFromRequest hclosed _ _ _
  · exact R.returnFromRequest hclosed _ _ _

theorem enter (R : CallRules P mayClose) (h : P none s) (call : GuardedCall)
    (write : WriteOutcome) : P none (s.enter c call write) := by
  have hactive := R.weaken c h
  cases call with
  | subscribe filters queue autoAck identifier =>
      simp only [Connection.enter, Connection.enterSubscribe]
      exact R.beginRequest (R.index _ _ (.addMany _ _) hactive) _ _
  | unsubscribe filters =>
      simp only [Connection.enter, Connection.enterUnsubscribe]
      split
      · exact R.finish hactive _
      · split
        · exact R.beginRequest (R.setSubscriptions hactive (.removeMany _ filters)) _ _
        · split
          · exact R.beginRequest (R.setSubscriptions hactive (.removeMany _ filters)) _ _
          · exact R.finish (R.setSubscriptions hactive (.removeMany _ filters)) _
  | addResponseObserver topic =>
      simp only [Connection.enter, Connection.enterAddObserver]
      split
      · exact R.finish hactive _
      · split
        · exact R.finish hactive _
        · split
          · exact R.finish (R.setSubscriptions hactive (.addObserver _ topic)) _
          · exact R.beginRequest (R.setSubscriptions hactive (.addObserver _ topic)) _ _
  | removeResponseObserver topic =>
      simp only [Connection.enter, Connection.enterRemoveObserver]
      split
      · exact R.finish hactive _
      · split
        · exact R.finish (R.setSubscriptions hactive (.removeObserver _ topic)) _
        · exact R.beginRequest (R.setSubscriptions hactive (.removeObserver _ topic)) _ _

theorem publish (R : CallRules P mayClose) (h : P none s) (packet : Publish)
    (write : WriteOutcome) : P none (s.publish packet write) := by
  unfold Connection.publish
  by_cases hdead : s.dead = true
  · rw [if_pos hdead]
    exact R.addCall _ rfl h
  · rw [if_neg hdead]
    rw [Bool.not_eq_true] at hdead
    split
    · exact R.addCall _ rfl h
    · split
      · exact R.addCall _ rfl h
      · by_cases hqos : packet.qos = .atMostOnce
        · rw [if_pos hqos]
          unfold Connection.publishQos0
          split
          · exact R.addCall _ rfl h
          · split
            · exact R.addCall _ rfl h
            · exact R.addCall _ rfl (R.wrote packet h)
            · exact R.addCall _ rfl (R.wrote packet h)
        · rw [if_neg hqos]
          unfold Connection.publishAcknowledged
          cases hacquire : s.state.packetIds.acquire with
          | none => exact R.addCall _ rfl h
          | some result =>
              obtain ⟨pid, pool⟩ := result
              have hopen := R.openFlight { packet with packetId := some (pid : Int) } hdead hqos
                hacquire h
              simp only
              split
              · exact R.addCall _ rfl hopen
              · split
                · exact R.addCall _ rfl hopen
                · exact R.addCall _ rfl (R.wrote _ hopen)

theorem acquireGuard (R : CallRules P mayClose) {s' : Connection} (h : P none s) {call : Call}
    (hstep : s.acquireGuard c call = some s') : P none s' := by
  have hactive := R.weaken c h
  unfold Connection.acquireGuard at hstep
  split at hstep
  · split at hstep
    · cases hstep
      exact R.finish hactive _
    · split at hstep
      · cases hstep
        exact R.leave _ (fun _ => rfl) hactive
      · cases hstep
  · cases hstep

/-- A call that is woken in its write gives up its request if it was cancelled or
the write failed. -/
theorem resumeWrite (R : CallRules P mayClose) {s' : Connection} (h : P none s) {call : Call}
    {ok : Bool} (hcall : s.calls[c]? = some call)
    (hclose : ∀ request pid future, call.phase = .request request pid future true →
      call.cancelRequested = true ∨ ok = false → mayClose s future)
    (hstep : s.resumeWrite c call ok = some s') : P none s' := by
  have hactive := R.weaken c h
  unfold Connection.resumeWrite at hstep
  cases hphase : call.phase with
  | request request pid future writing =>
      have hown := owned_of_phase hcall hphase
      cases writing with
      | false => simp [hphase] at hstep
      | true =>
          simp only [hphase] at hstep
          split at hstep
          · next hcancel =>
              cases hstep
              exact R.failRequest h request hown (hclose _ _ _ hphase (Or.inl hcancel)) _
          · split at hstep
            · cases hstep
              apply R.keep _ _ h
              intro other hother
              rw [hcall] at hother
              cases hother
              rw [hphase]
              rfl
            · next hok =>
                cases hstep
                exact R.failRequest h request hown
                  (hclose _ _ _ hphase (Or.inr (by simpa using hok))) _
  | publish pid future writing =>
      cases writing with
      | false => simp [hphase] at hstep
      | true =>
          simp only [hphase] at hstep
          split at hstep
          · cases hstep
            exact R.finish hactive _
          · split at hstep
            · cases hstep
              exact R.leave _ (fun _ => rfl) hactive
            · cases hstep
              exact R.finish hactive _
  | publishQos0 =>
      simp only [hphase] at hstep
      split at hstep
      · cases hstep
        exact R.finish hactive _
      · split at hstep <;> cases hstep <;> exact R.finish hactive _
  | guards guarded todo => simp [hphase] at hstep
  | draining outcome => simp [hphase] at hstep
  | finished outcome => simp [hphase] at hstep

/-- A call that is woken by its future leaves its request. -/
theorem resumeFuture (R : CallRules P mayClose) {s' : Connection} (h : P none s) {call : Call}
    {write : WriteOutcome} (hcall : s.calls[c]? = some call)
    (hstep : s.resumeFuture c call write = some s') : P none s' := by
  have hactive := R.weaken c h
  unfold Connection.resumeFuture at hstep
  cases hphase : call.phase with
  | request request pid future writing =>
      have hown := owned_of_phase hcall hphase
      cases writing with
      | true => simp [hphase] at hstep
      | false =>
          simp only [hphase] at hstep
          split at hstep
          · cases hstep
          · cases hstep
          · next packet hfuture =>
              have hclose : mayClose s future := R.done (by simp [hfuture])
              split at hstep
              · cases hstep
                exact R.failRequest h request hown hclose _
              · cases hstep
                exact R.answerRequest h request hown hclose _ _
          · next error hfuture =>
              have hclose : mayClose s future := R.done (by simp [hfuture])
              split at hstep <;> cases hstep <;> exact R.failRequest h request hown hclose _
          · next hfuture =>
              cases hstep
              exact R.failRequest h request hown (R.done (by simp [hfuture])) _
  | publish pid future writing =>
      cases writing with
      | true => simp [hphase] at hstep
      | false =>
          simp only [hphase] at hstep
          split at hstep
          · cases hstep
          · cases hstep
          · split at hstep <;> cases hstep <;> exact R.finish hactive _
          · split at hstep <;> cases hstep <;> exact R.finish hactive _
          · cases hstep
            exact R.finish hactive _
  | publishQos0 => simp [hphase] at hstep
  | guards guarded todo => simp [hphase] at hstep
  | draining outcome => simp [hphase] at hstep
  | finished outcome => simp [hphase] at hstep

/-- **Every step.**  The steps of the calls are settled by the rules; what remains
is `cancel`, the read loop and the end of the connection. -/
theorem step (R : CallRules P mayClose) {s' : Connection} {action : Action} (h : P none s)
    (hstep : s.step action = some s')
    (hwrite : ∀ c ok call request pid future, action = .resumeWrite c ok →
      s.calls[c]? = some call → call.phase = .request request pid future true →
      call.cancelRequested = true ∨ ok = false → mayClose s future)
    (hcancel : ∀ c call, action = .cancel c → s.calls[c]? = some call →
      s.cancel c call = some s' → P none s')
    (hreceive : ∀ packet write, action = .receive packet write → s.dead = false →
      s.reader = .idle → P none (s.dispatch packet write))
    (hreader : ∀ reader, s.reader = .writing → P none { s with reader })
    (hexit : action = .exit → P none s.exit) : P none s' := by
  cases action with
  | publish packet write =>
      cases hstep
      exact R.publish h packet write
  | call guarded =>
      cases hstep
      exact R.addCall _ rfl h
  | acquireGuard c =>
      obtain ⟨call, hcall, hstep⟩ := Option.bind_eq_some_iff.mp hstep
      exact R.acquireGuard h hstep
  | enter c write =>
      obtain ⟨call, hcall, hstep⟩ := Option.bind_eq_some_iff.mp hstep
      split at hstep
      · split at hstep
        · cases hstep
          exact R.finish (R.weaken c h) _
        · cases hstep
          exact R.enter h _ _
      · cases hstep
  | resumeWrite c ok =>
      obtain ⟨call, hcall, hstep⟩ := Option.bind_eq_some_iff.mp hstep
      exact R.resumeWrite h hcall (fun request pid future => hwrite c ok call request pid future
        rfl hcall) hstep
  | resumeFuture c write =>
      obtain ⟨call, hcall, hstep⟩ := Option.bind_eq_some_iff.mp hstep
      exact R.resumeFuture h hcall hstep
  | resumeDrain c ok =>
      obtain ⟨call, hcall, hstep⟩ := Option.bind_eq_some_iff.mp hstep
      split at hstep
      · split at hstep
        · cases hstep
          exact R.finish (R.weaken c h) _
        · split at hstep <;> cases hstep <;> exact R.finish (R.weaken c h) _
      · cases hstep
  | cancel c =>
      obtain ⟨call, hcall, hstep⟩ := Option.bind_eq_some_iff.mp hstep
      exact hcancel c call rfl hcall hstep
  | receive packet write =>
      simp only [Connection.step] at hstep
      split at hstep
      · next hidle =>
          cases hstep
          exact hreceive packet write rfl hidle.1 hidle.2
      · cases hstep
  | resumeReader ok =>
      simp only [Connection.step] at hstep
      split at hstep
      · next hwriting =>
          cases hstep
          split
          · exact hreader _ hwriting.2
          · exact hreader _ hwriting.2
      · cases hstep
  | exit =>
      simp only [Connection.step] at hstep
      split at hstep
      · cases hstep
      · cases hstep
        exact hexit rfl

end CallRules

/-- A lost connection stays lost. -/
theorem dead_step {next : Connection} {action : Action} (hdead : s.dead = true)
    (hstep : s.step action = some next) : next.dead = true := by
  have hrules : CallRules (fun _ s => s.dead = true) fun _ _ => True :=
    { weaken := fun _ h => h
      leave := fun _ _ h => h
      keep := fun _ _ h => h
      addCall := fun _ _ h => h
      index := fun _ _ _ h => h
      wrote := fun _ h => h
      openFlight := fun _ _ _ _ _ _ h => h
      failed := fun _ _ _ _ _ h => h
      written := fun _ _ _ _ _ _ h => h
      done := fun _ => trivial
      close := fun _ _ h => h }
  refine hrules.step hdead hstep (fun _ _ _ _ _ _ _ _ _ _ => trivial) ?_ ?_ (fun _ _ => hdead)
    fun _ => rfl
  · intro c call _ _ hcancel
    unfold Connection.cancel at hcancel
    split at hcancel <;> cases hcancel <;> exact hdead
  · intro _ _ _ halive _
    rw [hdead] at halive
    cases halive

end Connection

end Zmqtt
