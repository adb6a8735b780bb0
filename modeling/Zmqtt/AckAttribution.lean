import Zmqtt.Futures
import Zmqtt.PacketIdOwnership
import Zmqtt.TaskList

/-!
# Attribution of SUBACK and UNSUBACK

A broker answers the SUBSCRIBE and UNSUBSCRIBE packets it receives in order, so
its n-th acknowledgement is the answer to the n-th such packet written.  The
client attributes it by packet identifier alone.

As long as no call gives up a request whose answer is still to come, the
identifier names the right call: every unanswered request has its own pending
future under its identifier (`Attributed.waiting`), and the next answer resolves
exactly that future.

A call that is cancelled in between breaks this.  Its `finally` block releases the
identifier although the answer is under way, where the QoS 1 and QoS 2 paths keep
theirs: the answer then finds no entry, a cancelled future, or the future of
another call.
-/

namespace Zmqtt

namespace Connection

/-- The next acknowledgement of the broker is one for this packet. -/
def answersNext (s : Connection) (kind : RequestKind) (packetId : Int) : Bool :=
  match s.requests[s.replies.length]? with
  | none => false
  | some (kind', pid, _) => kind' = kind && packetId = (pid : Int)

/-- SUBACK and UNSUBACK come from a broker that answers every request once and in
order; other packets are arbitrary. -/
def fromBroker (s : Connection) : Action → Bool
  | .receive (.suback packet) _ => s.answersNext .subscribe packet.packetId
  | .receive (.unsuback packet) _ => s.answersNext .unsubscribe packet.packetId
  | _ => true

/-- The call is inside a request, in its write or waiting, that is not answered. -/
def unanswered (s : Connection) (c : Nat) (writing : Bool) : Bool :=
  s.calls[c]?.any fun call =>
    match call.phase with
    | .request _ _ future writing' =>
        writing' = writing && s.answerFutures[future]? = some .pending && !s.dead
    | _ => false

/-- The call was cancelled. -/
def cancelRequested (s : Connection) (c : Nat) : Bool :=
  s.calls[c]?.any Call.cancelRequested

/-- A step that gives up a request written and not answered: `cancel` of a call
that waits for its answer, or the end of its write by cancellation or failure. -/
def interrupts (s : Connection) : Action → Bool
  | .cancel c => s.unanswered c false
  | .resumeWrite c ok => s.unanswered c true && (s.cancelRequested c || !ok)
  | _ => false

/-- The packets that answer a request. -/
def isAnswer : Action → Bool
  | .receive (.suback _) _ => true
  | .receive (.unsuback _) _ => true
  | _ => false

/-! ## The invariant -/

variable {s : Connection} {active : Option Nat} {c : Nat}

/-- Requests and answers of a connection, the call `active` in the middle of its
step. -/
structure Attributed (active : Option Nat) (s : Connection) : Prop where
  fresh : ∀ (n : Nat) kind pid future, s.requests[n]? = some (kind, pid, future) →
    future < s.answerFutures.length
  distinct : ∀ (n m : Nat) kind kind' pid pid' future, s.requests[n]? = some (kind, pid, future) →
    s.requests[m]? = some (kind', pid', future) → n = m
  waiting : s.dead = false → ∀ (n : Nat) kind pid future, s.replies.length ≤ n →
    s.requests[n]? = some (kind, pid, future) →
    OrderedDict.get (s.state.pending kind) pid = some future ∧
      s.answerFutures[future]? = some .pending
  resolved : ∀ (future : Nat) packet, s.answerFutures[future]? = some (.result packet) →
    ∃ (n : Nat) (kind : RequestKind) (pid : Nat), s.requests[n]? = some (kind, pid, future) ∧ s.replies[n]? = some packet
  own : ∀ c, some c ≠ active → ∀ kind pid future, s.owned c = some (kind, pid, future) →
    ∃ n : Nat, s.requests[n]? = some (kind, pid, future)

theorem Attributed.of_same {s' : Connection} {active' : Option Nat} (h : s.Attributed active)
    (hrequests : s'.requests = s.requests) (hreplies : s'.replies = s.replies)
    (hfutures : s'.answerFutures = s.answerFutures) (hdead : s'.dead = s.dead)
    (hpending : ∀ kind, s'.state.pending kind = s.state.pending kind)
    (howned : ∀ c, some c ≠ active' → ∀ item, s'.owned c = some item →
      some c ≠ active ∧ s.owned c = some item) :
    s'.Attributed active' := by
  refine ⟨?_, ?_, ?_, ?_, ?_⟩
  · rw [hrequests, hfutures]
    exact h.fresh
  · rw [hrequests]
    exact h.distinct
  · rw [hdead, hrequests, hreplies, hfutures]
    intro halive n kind pid future hn hreq
    rw [hpending]
    exact h.waiting halive n kind pid future hn hreq
  · rw [hrequests, hreplies, hfutures]
    exact h.resolved
  · rw [hrequests]
    intro c hc kind pid future hown
    obtain ⟨hc, hown⟩ := howned c hc _ hown
    exact h.own c hc kind pid future hown

/-- An unanswered request has its identifier in the table. -/
theorem Attributed.mem_of_waiting (h : s.Attributed active) (halive : s.dead = false)
    {n pid future : Nat} {kind : RequestKind} (hn : s.replies.length ≤ n)
    (hreq : s.requests[n]? = some (kind, pid, future)) :
    pid ∈ s.state.slotKeys (.request kind) :=
  (OrderedDict.mem_keys_iff _ _).mpr ⟨future, (h.waiting halive n kind pid future hn hreq).1⟩

/-- A request that fails before it is written leaves the others alone. -/
theorem Attributed.failed (h : s.Attributed active) (howned : s.Owned active)
    (kind : RequestKind) {pid : Nat} {pool : PacketIdPool}
    (hacquire : s.state.packetIds.acquire = some (pid, pool)) :
    ((s.openRequest kind pid pool).closeRequest kind pid).Attributed active := by
  have hfresh := howned.balanced.not_mem_of_acquire hacquire
  refine ⟨?_, h.distinct, ?_, ?_, h.own⟩
  · intro n kind' pid' future hreq
    have hlt := h.fresh n kind' pid' future hreq
    show future < (s.answerFutures ++ [FutureState.pending]).length
    rw [List.length_append]
    omega
  · intro halive n kind' pid' future hn hreq
    obtain ⟨hget, hfuture⟩ := h.waiting halive n kind' pid' future hn hreq
    refine ⟨?_, TaskList.getElem?_append_iff.mpr (Or.inl hfuture)⟩
    unfold closeRequest openRequest
    rw [SessionState.pending_setPending]
    by_cases hkind : kind' = kind
    · subst hkind
      have hne : pid ≠ pid' := by
        rintro rfl
        exact hfresh _ (h.mem_of_waiting halive hn hreq)
      rw [if_pos rfl, OrderedDict.get_pop, if_neg hne, SessionState.pending_setPending, if_pos rfl,
        OrderedDict.get_set, if_neg hne]
      exact hget
    · rw [if_neg hkind, SessionState.pending_setPending, if_neg hkind]
      exact hget
  · intro future packet hresult
    refine h.resolved future packet ((TaskList.getElem?_append_iff.mp hresult).resolve_right ?_)
    simp

/-- A request that is written waits for its own answer. -/
theorem Attributed.written (h : s.Attributed (some c)) (howned : s.Owned (some c))
    (request : Request) (writing : Bool) {pid : Nat} {pool : PacketIdPool}
    (hacquire : s.state.packetIds.acquire = some (pid, pool)) :
    (s.written c request pid pool writing).Attributed none := by
  have hfresh := howned.balanced.not_mem_of_acquire hacquire
  -- a position of the longer list is an old one or the new last one
  have hposition : ∀ {n : Nat} {kind : RequestKind} {pid' future : Nat},
      (s.requests ++ [(request.kind, pid, s.answerFutures.length)])[n]? =
        some (kind, pid', future) →
      s.requests[n]? = some (kind, pid', future) ∨
        (n = s.requests.length ∧ kind = request.kind ∧ pid' = pid ∧
          future = s.answerFutures.length) := by
    intro n kind pid' future hreq
    by_cases hlt : n < s.requests.length
    · rw [List.getElem?_append_left hlt] at hreq
      exact Or.inl hreq
    · rw [List.getElem?_append_right (by omega), List.getElem?_singleton] at hreq
      split at hreq
      · cases hreq
        exact Or.inr ⟨by omega, rfl, rfl, rfl⟩
      · cases hreq
  have hold : ∀ {n : Nat} {item : RequestKind × Nat × Nat}, s.requests[n]? = some item →
      (s.requests ++ [(request.kind, pid, s.answerFutures.length)])[n]? = some item := by
    intro n item hreq
    obtain ⟨hlt, -⟩ := List.getElem?_eq_some_iff.mp hreq
    rwa [List.getElem?_append_left hlt]
  refine ⟨?_, ?_, ?_, ?_, ?_⟩
  · intro n kind pid' future hreq
    show future < (s.answerFutures ++ [FutureState.pending]).length
    rw [List.length_append]
    rcases hposition hreq with hreq | ⟨-, -, -, hfuture⟩
    · have hlt := h.fresh n kind pid' future hreq
      omega
    · rw [hfuture]
      exact Nat.lt_succ_self _
  · intro n m kind kind' pid' pid'' future hreq hreq'
    rcases hposition hreq with hreq | ⟨hn, -, -, hfuture⟩
    · rcases hposition hreq' with hreq' | ⟨hm, -, -, hfuture'⟩
      · exact h.distinct n m kind kind' pid' pid'' future hreq hreq'
      · have hlt := h.fresh n kind pid' future hreq
        omega
    · rcases hposition hreq' with hreq' | ⟨hm, -, -, -⟩
      · have hlt := h.fresh m kind' pid'' future hreq'
        omega
      · omega
  · intro halive n kind pid' future hn hreq
    have hpending : (s.written c request pid pool writing).state.pending kind =
        if kind = request.kind then
          OrderedDict.set (s.state.pending request.kind) pid s.answerFutures.length
        else s.state.pending kind := SessionState.pending_setPending _ _ _ _ _
    rw [hpending]
    rcases hposition hreq with hreq | ⟨-, rfl, rfl, rfl⟩
    · obtain ⟨hget, hfuture⟩ := h.waiting halive n kind pid' future hn hreq
      refine ⟨?_, TaskList.getElem?_append_iff.mpr (Or.inl hfuture)⟩
      by_cases hkind : kind = request.kind
      · have hne : pid ≠ pid' := by
          rintro rfl
          exact hfresh _ (h.mem_of_waiting halive hn hreq)
        rw [if_pos hkind, OrderedDict.get_set, if_neg hne, ← hkind]
        exact hget
      · rw [if_neg hkind]
        exact hget
    · refine ⟨?_, ?_⟩
      · rw [if_pos rfl, OrderedDict.get_set, if_pos rfl]
      · show (s.answerFutures ++ [FutureState.pending])[s.answerFutures.length]? = _
        rw [List.getElem?_concat_length]
  · intro future packet hresult
    obtain ⟨n, kind, pid', hreq, hreply⟩ := h.resolved future packet
      ((TaskList.getElem?_append_iff.mp hresult).resolve_right (by simp))
    exact ⟨n, kind, pid', hold hreq, hreply⟩
  · intro c' _ kind pid' future hown
    have hown' : ((s.openRequest request.kind pid pool).setPhase c
        (.request request pid s.answerFutures.length writing)).owned c' =
          some (kind, pid', future) := hown
    rcases owned_of_setPhase hown' with ⟨-, heq⟩ | ⟨hc, hown'⟩
    · cases heq
      refine ⟨s.requests.length, ?_⟩
      show (s.requests ++ [(request.kind, pid, s.answerFutures.length)])[s.requests.length]? = _
      rw [List.getElem?_concat_length]
    · obtain ⟨n, hreq⟩ := h.own c' (fun heq => hc (Option.some.inj heq)) kind pid' future hown'
      exact ⟨n, hold hreq⟩

/-- A call that leaves its request after the answer, or on a dead connection. -/
theorem Attributed.close (h : s.Attributed none) (howned : s.Owned none) {kind : RequestKind}
    {pid future : Nat} (hown : s.owned c = some (kind, pid, future))
    (hclose : s.dead = true ∨ s.answerFutures[future]? ≠ some .pending) :
    (s.closeRequest kind pid).Attributed (some c) := by
  refine ⟨h.fresh, h.distinct, ?_, h.resolved, fun c' _ => h.own c' (by simp)⟩
  intro halive n kind' pid' future' hn hreq
  obtain ⟨hget, hfuture⟩ := h.waiting halive n kind' pid' future' hn hreq
  refine ⟨?_, hfuture⟩
  unfold closeRequest
  rw [SessionState.pending_setPending]
  by_cases hkind : kind' = kind
  · subst hkind
    have hne : pid ≠ pid' := by
      rintro rfl
      have hmine := howned.holds c (by simp) kind' pid future hown
      rw [hget] at hmine
      cases hmine
      rcases hclose with hdead | hdone
      · have hlive : s.dead = false := halive
        rw [hdead] at hlive
        cases hlive
      · exact hdone hfuture
    rw [if_pos rfl, OrderedDict.get_pop, if_neg hne]
    exact hget
  · rw [if_neg hkind]
    exact hget

/-- **The calls keep requests and answers apart** if they give up no request that
waits for its answer. -/
theorem attributedRules : CallRules (fun active s => Owned active s ∧ Attributed active s)
    fun s future => s.dead = true ∨ s.answerFutures[future]? ≠ some .pending where
  weaken c h := ⟨h.1.weaken c, h.2.of_same rfl rfl rfl rfl (fun _ => rfl)
    (fun _ _ _ hown => ⟨by simp, hown⟩)⟩
  leave f hf h := by
    refine ⟨ownedRules.leave f hf h.1, h.2.of_same rfl rfl rfl rfl (fun _ => rfl) ?_⟩
    intro c' _ item hown
    obtain ⟨hc, hown⟩ := owned_of_leave hf hown
    exact ⟨fun heq => hc (Option.some.inj heq), hown⟩
  keep f hf h := by
    refine ⟨ownedRules.keep f hf h.1, h.2.of_same rfl rfl rfl rfl (fun _ => rfl) ?_⟩
    intro c' hc item hown
    rw [owned_of_keep hf] at hown
    exact ⟨hc, hown⟩
  addCall phase hphase h := ⟨ownedRules.addCall phase hphase h.1,
    h.2.of_same rfl rfl rfl rfl (fun _ => rfl)
      (fun _ hc _ hown => ⟨hc, owned_of_addCall hphase hown⟩)⟩
  index subscriptions nextEntry hchange h := ⟨ownedRules.index subscriptions nextEntry hchange h.1,
    h.2.of_same rfl rfl rfl rfl (fun kind => by cases kind <;> rfl)
      (fun _ hc _ hown => ⟨hc, hown⟩)⟩
  wrote packet h := ⟨h.1.log_wrote (.publish packet),
    h.2.of_same rfl rfl rfl rfl (fun _ => rfl) (fun _ hc _ hown => ⟨hc, hown⟩)⟩
  openFlight packet _ _ _ hqos hacquire h := ⟨h.1.openFlight packet hqos hacquire,
    h.2.of_same rfl rfl rfl rfl (openFlight_pending _ _ _ _)
      (fun _ hc _ hown => ⟨hc, hown⟩)⟩
  failed kind _ _ hdead hacquire h :=
    ⟨ownedRules.failed kind hdead hacquire h.1, h.2.failed h.1 kind hacquire⟩
  written request writing _ _ hdead hacquire h :=
    ⟨ownedRules.written request writing hdead hacquire h.1, h.2.written h.1 request writing hacquire⟩
  done hdone := Or.inr hdone
  close hown hclose h := ⟨h.1.closeOwn hown, h.2.close h.1 hown hclose⟩

/-! ## Cancellation and the end of the connection -/

theorem Attributed.exit (h : s.Attributed none) : s.exit.Attributed none := by
  refine ⟨?_, h.distinct, ?_, ?_, h.own⟩
  · intro n kind pid future hreq
    show future < (failAll s.answerFutures _).length
    rw [failAll_length]
    exact h.fresh n kind pid future hreq
  · intro halive
    cases halive
  · intro future packet hresult
    exact h.resolved future packet (of_failAll (fun heq => by cases heq) hresult)

/-- A future that is not pending, or whose connection is dead, may be cancelled. -/
theorem Attributed.settleAnswer (h : s.Attributed none) {future : Nat}
    (hclose : s.dead = true ∨ s.answerFutures[future]? ≠ some .pending) :
    (s.settleAnswer future .cancelled).Attributed none := by
  refine ⟨?_, h.distinct, ?_, ?_, h.own⟩
  · intro n kind pid future' hreq
    show future' < (settle s.answerFutures _ _).length
    rw [settle_length]
    exact h.fresh n kind pid future' hreq
  · intro halive n kind pid future' hn hreq
    obtain ⟨hget, hfuture⟩ := h.waiting halive n kind pid future' hn hreq
    refine ⟨hget, ?_⟩
    rcases hclose with hdead | hdone
    · have hlive : s.dead = false := halive
      rw [hdead] at hlive
      cases hlive
    · show (settle s.answerFutures future .cancelled)[future']? = _
      rw [settle, if_neg hdone]
      exact hfuture
  · intro future' packet hresult
    exact h.resolved future' packet (of_settle (fun heq => by cases heq) hresult)

theorem Attributed.cancel {s' : Connection} (h : s.Owned none ∧ s.Attributed none) {call : Call}
    (hcall : s.calls[c]? = some call) (hquiet : s.interrupts (.cancel c) = false)
    (hstep : s.cancel c call = some s') : s'.Attributed none := by
  have hrequested := (attributedRules.keep (c := c)
    (fun call => { call with cancelRequested := true }) (fun _ _ => rfl) h).2
  unfold Connection.cancel at hstep
  simp only at hstep
  split at hstep
  · next request pid future hphase =>
      cases hstep
      apply hrequested.settleAnswer
      -- the step does not interrupt, so the future is done or nobody answers any more
      show s.dead = true ∨ s.answerFutures[future]? ≠ some .pending
      simp only [interrupts, unanswered, hcall, hphase, Option.any_some, decide_true,
        Bool.true_and, Bool.and_eq_false_iff, decide_eq_false_iff_not, Bool.not_eq_false'] at hquiet
      exact hquiet.symm
  · cases hstep
    exact hrequested.of_same rfl rfl rfl rfl (fun _ => rfl) (fun _ hc _ hown => ⟨hc, hown⟩)
  · cases hstep
  · cases hstep
    exact hrequested

/-! ## The read loop -/

/-- **The next answer resolves the future of its own request**, and its handler
does not raise. -/
theorem Attributed.handleAnswer (h : s.Attributed none) (halive : s.dead = false)
    {kind : RequestKind} {packetId : Int} (hnext : s.answersNext kind packetId = true)
    (packet : Packet) (unknown : String) :
    (s.handleAnswer kind packetId packet unknown).Attributed none ∧
      (s.handleAnswer kind packetId packet unknown).reader = s.reader := by
  unfold answersNext at hnext
  cases hreq : s.requests[s.replies.length]? with
  | none => simp [hreq] at hnext
  | some item =>
      obtain ⟨kind', pid, future⟩ := item
      simp only [hreq, Bool.and_eq_true, decide_eq_true_eq] at hnext
      obtain ⟨rfl, rfl⟩ := hnext
      obtain ⟨hget, hfuture⟩ := h.waiting halive _ _ _ _ (Nat.le_refl _) hreq
      have heq : s.handleAnswer kind' pid packet unknown =
          { s with
            replies := s.replies ++ [packet]
            answerFutures := s.answerFutures.set future (.result packet) }.logHandled packet := by
        unfold Connection.handleAnswer
        simp only [Int.toNat_natCast, hget, hfuture, if_true]
      rw [heq]
      refine ⟨⟨?_, h.distinct, ?_, ?_, h.own⟩, rfl⟩
      · intro n k p f hreq'
        show f < (s.answerFutures.set future (.result packet)).length
        rw [List.length_set]
        exact h.fresh n k p f hreq'
      · intro _ n k p f hn hreq'
        have hn : (s.replies ++ [packet]).length ≤ n := hn
        rw [List.length_append, List.length_singleton] at hn
        obtain ⟨hget', hfuture'⟩ := h.waiting halive n k p f (by omega) hreq'
        refine ⟨hget', ?_⟩
        have hne : future ≠ f := by
          rintro rfl
          have hsame := h.distinct _ _ _ _ _ _ _ hreq hreq'
          omega
        show (s.answerFutures.set future (.result packet))[f]? = _
        rw [List.getElem?_set_ne hne]
        exact hfuture'
      · intro f p hresult
        have hresult : (s.answerFutures.set future (.result packet))[f]? = some (.result p) :=
          hresult
        show ∃ (n : Nat) (kind : RequestKind) (pid : Nat),
          s.requests[n]? = some (kind, pid, f) ∧ (s.replies ++ [packet])[n]? = some p
        by_cases hf : future = f
        · subst hf
          obtain ⟨hlt, -⟩ := List.getElem?_eq_some_iff.mp hfuture
          rw [List.getElem?_set_self hlt] at hresult
          cases hresult
          exact ⟨s.replies.length, kind', pid, hreq, List.getElem?_concat_length⟩
        · rw [List.getElem?_set_ne hf] at hresult
          obtain ⟨n, k, pid', hreq', hreply⟩ := h.resolved f p hresult
          obtain ⟨hlt, -⟩ := List.getElem?_eq_some_iff.mp hreply
          exact ⟨n, k, pid', hreq', by rwa [List.getElem?_append_left hlt]⟩

/-- Nothing of requests and answers changed. -/
structure SameRequests (s s' : Connection) : Prop where
  requests : s'.requests = s.requests
  replies : s'.replies = s.replies
  futures : s'.answerFutures = s.answerFutures
  dead : s'.dead = s.dead
  pending : ∀ kind, s'.state.pending kind = s.state.pending kind
  calls : s'.calls = s.calls

theorem Attributed.of_sameRequests {s' : Connection} (h : s.Attributed none)
    (hsame : SameRequests s s') : s'.Attributed none := by
  refine h.of_same hsame.requests hsame.replies hsame.futures hsame.dead hsame.pending ?_
  intro c hc item hown
  unfold Connection.owned at hown ⊢
  rw [hsame.calls] at hown
  exact ⟨hc, hown⟩

/-- The handlers of the other packets. -/
theorem dispatch_sameRequests (s : Connection) {packet : Packet} (write : WriteOutcome)
    (hother : isAnswer (.receive packet write) = false) :
    SameRequests s (s.dispatch packet write) := by
  have hsame : ∀ s' : Connection, s'.requests = s.requests → s'.replies = s.replies →
      s'.answerFutures = s.answerFutures → s'.dead = s.dead →
      s'.state.pendingSubs = s.state.pendingSubs →
      s'.state.pendingUnsubs = s.state.pendingUnsubs → s'.calls = s.calls →
      SameRequests s s' := by
    intro s' h1 h2 h3 h4 h5 h6 h7
    refine ⟨h1, h2, h3, h4, ?_, h7⟩
    intro kind
    cases kind with
    | subscribe => exact h5
    | unsubscribe => exact h6
  cases packet with
  | suback packet => cases hother
  | unsuback packet => cases hother
  | puback packet =>
      simp only [dispatch, handlePuback]
      split <;> exact hsame _ rfl rfl rfl rfl rfl rfl rfl
  | pubrec packet =>
      simp only [dispatch, handlePubrec]
      split
      · exact hsame _ rfl rfl rfl rfl rfl rfl rfl
      · split
        · exact hsame _ rfl rfl rfl rfl rfl rfl rfl
        · split
          · exact hsame _ rfl rfl rfl rfl rfl rfl rfl
          · split
            · exact hsame _ rfl rfl rfl rfl rfl rfl rfl
            · split <;> exact hsame _ rfl rfl rfl rfl rfl rfl rfl
  | pubcomp packet =>
      simp only [dispatch, handlePubcomp]
      split <;> exact hsame _ rfl rfl rfl rfl rfl rfl rfl
  | auth packet =>
      simp only [dispatch]
      split <;> exact hsame _ rfl rfl rfl rfl rfl rfl rfl
  | connect packet => exact hsame _ rfl rfl rfl rfl rfl rfl rfl
  | connack packet => exact hsame _ rfl rfl rfl rfl rfl rfl rfl
  | publish packet => exact hsame _ rfl rfl rfl rfl rfl rfl rfl
  | pubrel packet => exact hsame _ rfl rfl rfl rfl rfl rfl rfl
  | subscribe packet => exact hsame _ rfl rfl rfl rfl rfl rfl rfl
  | unsubscribe packet => exact hsame _ rfl rfl rfl rfl rfl rfl rfl
  | pingreq => exact hsame _ rfl rfl rfl rfl rfl rfl rfl
  | pingresp => exact hsame _ rfl rfl rfl rfl rfl rfl rfl
  | disconnect packet => exact hsame _ rfl rfl rfl rfl rfl rfl rfl

theorem Attributed.dispatch (h : s.Attributed none) (halive : s.dead = false) (packet : Packet)
    (write : WriteOutcome) (hbroker : s.fromBroker (.receive packet write) = true) :
    (s.dispatch packet write).Attributed none := by
  cases hanswer : isAnswer (.receive packet write) with
  | false => exact h.of_sameRequests (dispatch_sameRequests s write hanswer)
  | true =>
      cases packet with
      | suback packet => exact (h.handleAnswer halive hbroker _ _).1
      | unsuback packet => exact (h.handleAnswer halive hbroker _ _).1
      | _ => cases hanswer

/-! ## Every step, every run -/

/-- **Step.** -/
theorem Attributed.step {s' : Connection} {action : Action}
    (h : s.Owned none ∧ s.Attributed none) (hbroker : s.fromBroker action = true)
    (hquiet : s.interrupts action = false) (hstep : s.step action = some s') :
    s'.Owned none ∧ s'.Attributed none := by
  refine attributedRules.step h hstep ?_ ?_ ?_ ?_ ?_
  · rintro c ok call request pid future rfl hcall hphase hgive
    have hasked : (s.cancelRequested c || !ok) = true := by
      rw [cancelRequested, hcall, Option.any_some]
      rcases hgive with hgive | hgive
      · simp [hgive]
      · simp [hgive]
    simp only [interrupts, hasked, Bool.and_true, unanswered, hcall, hphase, Option.any_some,
      decide_true, Bool.true_and, Bool.and_eq_false_iff, decide_eq_false_iff_not,
      Bool.not_eq_false'] at hquiet
    exact hquiet.symm
  · rintro c call rfl hcall hcancel
    exact ⟨h.1.cancel hcancel, Attributed.cancel h hcall hquiet hcancel⟩
  · rintro packet write rfl halive _
    exact ⟨h.1.dispatch packet write, h.2.dispatch halive packet write hbroker⟩
  · intro reader _
    exact ⟨⟨h.1.balanced, h.1.recorded, h.1.holds, h.1.unique⟩,
      h.2.of_same rfl rfl rfl rfl (fun _ => rfl) (fun _ hc _ hown => ⟨hc, hown⟩)⟩
  · exact fun _ => ⟨⟨h.1.balanced, h.1.recorded, h.1.holds, h.1.unique⟩, h.2.exit⟩

theorem opened_attributed (version : Version) (strippedPrefixes : List Str)
    (maxPublishQos : QoS) (retainAvailable : Bool) :
    (opened version strippedPrefixes maxPublishQos retainAvailable).Attributed none := by
  refine ⟨?_, ?_, ?_, ?_, ?_⟩
  · intro n kind pid future hreq
    cases hreq
  · intro n m kind kind' pid pid' future hreq
    cases hreq
  · intro _ n kind pid future _ hreq
    cases hreq
  · intro future packet hresult
    cases hresult
  · intro c _ kind pid future hown
    cases hown

end Connection

/-- **Attribution without interruption.**  In every run with a broker that answers
each request once and in order, in which no step gives up a request written and
not answered: a call whose future is resolved has in it the n-th answer of the
broker, where its own packet is the n-th request; and the handler of the next
answer does not raise. -/
theorem answers_attributed (version : Version) (strippedPrefixes : List Str)
    (maxPublishQos : QoS) (retainAvailable : Bool) (actions : List Connection.Action)
    (s : Connection)
    (hrun : Transition.run Connection.step
      (Connection.opened version strippedPrefixes maxPublishQos retainAvailable) actions =
        some s)
    (hsteps : Transition.Along Connection.step
      (fun s action => s.fromBroker action = true ∧ s.interrupts action = false)
      (Connection.opened version strippedPrefixes maxPublishQos retainAvailable) actions) :
    (∀ (c : Nat) call request pid future writing packet, s.calls[c]? = some call →
      call.phase = .request request pid future writing →
      s.answerFutures[future]? = some (.result packet) →
      ∃ n : Nat, s.requests[n]? = some (request.kind, pid, future) ∧
        s.replies[n]? = some packet) ∧
      (∀ action s', Connection.isAnswer action = true → s.fromBroker action = true →
        s.step action = some s' → s'.reader = .idle) := by
  have hstep : ∀ (s : Connection) (action : Connection.Action) (next : Connection),
      s.Owned none ∧ s.Attributed none →
      s.fromBroker action = true ∧ s.interrupts action = false → s.step action = some next →
      next.Owned none ∧ next.Attributed none :=
    fun _ _ _ h hok hstep => Connection.Attributed.step h hok.1 hok.2 hstep
  have h := Transition.invariant_along hstep
    ⟨Connection.opened_owned _ _ _ _, Connection.opened_attributed _ _ _ _⟩ hsteps hrun
  constructor
  · intro c call request pid future writing packet hcall hphase hresult
    have hown := Connection.owned_of_phase hcall hphase
    obtain ⟨n, hreq⟩ := h.2.own c (by simp) _ _ _ hown
    obtain ⟨m, kind, pid', hreq', hreply⟩ := h.2.resolved future packet hresult
    have hsame := h.2.distinct n m _ _ _ _ _ hreq hreq'
    subst hsame
    exact ⟨n, hreq, hreply⟩
  · intro action s' hanswer hbroker hstep
    cases action with
    | receive packet write =>
        simp only [Connection.step] at hstep
        split at hstep
        · next hidle =>
            cases hstep
            cases packet with
            | suback packet =>
                exact (h.2.handleAnswer hidle.1 hbroker _ _).2.trans hidle.2
            | unsuback packet =>
                exact (h.2.handleAnswer hidle.1 hbroker _ _).2.trans hidle.2
            | _ => cases hanswer
        · cases hstep
    | _ => cases hanswer

/-- Two subscribes of one filter.  The second is cancelled while it waits for the
guard; the first is answered while it is still in its write. -/
def cancelledAtGuard : List Connection.Action :=
  [.call (.subscribe [{ topicFilter := [97], qos := .atLeastOnce }] 0 true none),
    .call (.subscribe [{ topicFilter := [97], qos := .atLeastOnce }] 1 true none),
    .acquireGuard 0, .enter 0 .suspended, .cancel 1, .acquireGuard 1,
    .receive (.suback { packetId := 1, returnCodes := [1] }) .done, .resumeWrite 0 true]

theorem answers_attributed_cancelled_at_guard :
    ∃ s, Transition.run Connection.step (Connection.opened .v311 [] .exactlyOnce true)
        cancelledAtGuard = some s ∧
      ∃ n : Nat, s.requests[n]? = some (.subscribe, 1, 0) ∧
        s.replies[n]? = some (.suback { packetId := 1, returnCodes := [1] }) := by
  have hfinal : ∃ s, Transition.run Connection.step
      (Connection.opened .v311 [] .exactlyOnce true) cancelledAtGuard = some s ∧
      s.calls[0]? = some
        { phase := .request (.subscribe [{ topicFilter := [97], qos := .atLeastOnce }] none [[97]])
            1 0 false
          held := [[97]] } ∧
      s.answerFutures[0]? = some (.result (.suback { packetId := 1, returnCodes := [1] })) :=
    ⟨_, rfl, rfl, rfl⟩
  obtain ⟨s, hrun, hcall, hfuture⟩ := hfinal
  have hanswers := answers_attributed .v311 [] .exactlyOnce true cancelledAtGuard s hrun (by decide)
  exact ⟨s, hrun, hanswers.1 0 _ _ 1 0 false _ hcall rfl hfuture⟩

/-- **A cancelled subscribe breaks the attribution.**  The application cancels a
subscribe that waits for its SUBACK.

* Once the call has cleaned up, the SUBACK is a protocol error.
* Before it has, the SUBACK meets a cancelled future, an `InvalidStateError`.
* If another subscribe has taken the identifier meanwhile, the SUBACK resolves the
  future of that call, request 1, although it is the answer to request 0. -/
theorem cancelled_subscribe_breaks_attribution :
    (∃ s, Transition.run Connection.step (Connection.opened .v311 [] .exactlyOnce true)
          [.call (.subscribe [{ topicFilter := [97], qos := .atLeastOnce }] 0 true none),
            .acquireGuard 0, .enter 0 .done, .cancel 0, .resumeFuture 0 .done,
            .receive (.suback { packetId := 1, returnCodes := [1] }) .done] = some s ∧
        s.reader = .ended (some (.protocolError "SUBACK for unknown packet_id 1"))) ∧
      (∃ s, Transition.run Connection.step (Connection.opened .v311 [] .exactlyOnce true)
          [.call (.subscribe [{ topicFilter := [97], qos := .atLeastOnce }] 0 true none),
            .acquireGuard 0, .enter 0 .done, .cancel 0,
            .receive (.suback { packetId := 1, returnCodes := [1] }) .done] = some s ∧
        s.reader = .ended (some .invalidState)) ∧
      (∃ s, Transition.run Connection.step (Connection.opened .v311 [] .exactlyOnce true)
          [.call (.subscribe [{ topicFilter := [97], qos := .atLeastOnce }] 0 true none),
            .acquireGuard 0, .enter 0 .done, .cancel 0, .resumeFuture 0 .done,
            .call (.subscribe [{ topicFilter := [98], qos := .atLeastOnce }] 1 true none),
            .acquireGuard 1, .enter 1 .done,
            .receive (.suback { packetId := 1, returnCodes := [1] }) .done] = some s ∧
        s.requests = [(.subscribe, 1, 0), (.subscribe, 1, 1)] ∧
        s.replies = [.suback { packetId := 1, returnCodes := [1] }] ∧
        s.answerFutures[1]? =
          some (.result (.suback { packetId := 1, returnCodes := [1] }))) ∧
      -- in all three the broker answers every request once and in order
      Transition.Along Connection.step (fun s action => s.fromBroker action = true)
        (Connection.opened .v311 [] .exactlyOnce true)
        [.call (.subscribe [{ topicFilter := [97], qos := .atLeastOnce }] 0 true none),
          .acquireGuard 0, .enter 0 .done, .cancel 0, .resumeFuture 0 .done,
          .call (.subscribe [{ topicFilter := [98], qos := .atLeastOnce }] 1 true none),
          .acquireGuard 1, .enter 1 .done,
          .receive (.suback { packetId := 1, returnCodes := [1] }) .done] :=
  ⟨⟨_, rfl, rfl⟩, ⟨_, rfl, rfl⟩, ⟨_, rfl, rfl, rfl, rfl⟩, by decide⟩

end Zmqtt
