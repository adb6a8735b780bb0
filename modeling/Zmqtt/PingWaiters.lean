import Zmqtt.Protocol
import Zmqtt.TaskList
import Zmqtt.Transition

/-!
# Pings and their answers

A PINGRESP has no identifier, so `_handle_pingresp` gives it to the first future of
`_ping_waiters`.  The broker answers in order, and each `ping()` appends its future where it
writes its PINGREQ, so position is identity as long as the futures are those of the PINGREQs
that are not answered.  A cancelled `ping()` leaves its future there.  One that times out
removes it, and one whose write fails leaves a future without PINGREQ.

`ping()` calls of the user and of the keepalive loop are calls alike.  PINGREQs and PINGRESPs
are named by the call they belong to.
-/

namespace Zmqtt

/-- How the future of a `ping()` stands. -/
inductive PingFuture
  | pending
  | answered
  | failed
deriving DecidableEq, Repr

inductive PingError
  | timeout
  | disconnected
  | cancelled
  | valueError
deriving DecidableEq, Repr

/-- Where a `ping()` stands: in the write, in `wait_for`, or ended. -/
inductive PingPhase
  | sending
  | waiting
  | returned
  | raised (error : PingError)
deriving DecidableEq, Repr

structure PingCall where
  phase : PingPhase
  future : PingFuture := .pending
deriving DecidableEq, Repr

/-- The pings of a connection.  `waiters` is `_ping_waiters`; `unanswered` are the PINGREQs
the broker has to answer, `arriving` the answers under way, both oldest first; `handled` are
the PINGREQs whose PINGRESP has been handled. -/
structure PingConnection where
  waiters : List Nat := []
  calls : List PingCall := []
  unanswered : List Nat := []
  arriving : List Nat := []
  handled : List Nat := []
  dead : Bool := false
deriving DecidableEq, Repr

namespace PingConnection

def setPhase (s : PingConnection) (c : Nat) (phase : PingPhase) : PingConnection :=
  { s with calls := s.calls.modify c fun call => { call with phase } }

/-- `set_result` or `set_exception` on a future that is not done. -/
def settle (future : PingFuture) (call : PingCall) : PingCall :=
  if call.future = .pending then { call with future } else call

/-- `ping` up to its first suspension.  Bytes of a suspended write are under way. -/
def ping (s : PingConnection) (write : WriteOutcome) : PingConnection :=
  let c := s.calls.length
  match write with
  | .done =>
      { s with
        waiters := s.waiters ++ [c]
        calls := s.calls ++ [{ phase := .waiting }]
        unanswered := s.unanswered ++ [c] }
  | .suspended =>
      { s with
        waiters := s.waiters ++ [c]
        calls := s.calls ++ [{ phase := .sending }]
        unanswered := s.unanswered ++ [c] }
  | .failed =>
      { s with
        waiters := s.waiters ++ [c]
        calls := s.calls ++ [{ phase := .raised .disconnected }] }

/-- The suspended write ends. -/
def sent (s : PingConnection) (c : Nat) (call : PingCall) (ok : Bool) : Option PingConnection :=
  match call.phase with
  | .sending => some (s.setPhase c (if ok then .waiting else .raised .disconnected))
  | _ => none

/-- `wait_for` times out.  If the future has been popped meanwhile, `list.remove` raises. -/
def timeout (s : PingConnection) (c : Nat) (call : PingCall) : Option PingConnection :=
  match call.phase with
  | .waiting =>
      if s.waiters.contains c then
        some { s.setPhase c (.raised .timeout) with waiters := s.waiters.erase c }
      else some (s.setPhase c (.raised .valueError))
  | _ => none

/-- The task of the call is cancelled; `shield` keeps the future. -/
def cancel (s : PingConnection) (c : Nat) (call : PingCall) : Option PingConnection :=
  match call.phase with
  | .sending => some (s.setPhase c (.raised .cancelled))
  | .waiting => some (s.setPhase c (.raised .cancelled))
  | _ => none

/-- The future is done and the call goes on. -/
def wake (s : PingConnection) (c : Nat) (call : PingCall) : Option PingConnection :=
  match call.phase, call.future with
  | .waiting, .answered => some (s.setPhase c .returned)
  | .waiting, .failed => some (s.setPhase c (.raised .disconnected))
  | _, _ => none

/-- The broker answers its oldest PINGREQ. -/
def answer (s : PingConnection) : Option PingConnection :=
  match s.unanswered with
  | [] => none
  | c :: rest => some { s with unanswered := rest, arriving := s.arriving ++ [c] }

/-- `_handle_pingresp`, for the PINGRESP that arrived first. -/
def handlePingresp (s : PingConnection) : Option PingConnection :=
  match s.dead, s.arriving with
  | false, c :: rest =>
      let handled := { s with arriving := rest, handled := s.handled ++ [c] }
      match s.waiters with
      | [] => some handled
      | first :: waiters =>
          some { handled with waiters, calls := s.calls.modify first (settle .answered) }
  | _, _ => none

/-- `_cancel_pending`, when `run` ends. -/
def cancelPending (s : PingConnection) : Option PingConnection :=
  if s.dead then none
  else
    some
      { s with
        calls := s.waiters.foldl (fun calls c => calls.modify c (settle .failed)) s.calls
        waiters := []
        dead := true }

inductive Action
  | ping (write : WriteOutcome)
  | sent (c : Nat) (ok : Bool)
  | timeout (c : Nat)
  | cancel (c : Nat)
  | wake (c : Nat)
  | answer
  | pingresp
  | cancelPending

def step (s : PingConnection) : Action → Option PingConnection
  | .ping write => some (s.ping write)
  | .sent c ok => s.calls[c]?.bind fun call => s.sent c call ok
  | .timeout c => s.calls[c]?.bind (s.timeout c)
  | .cancel c => s.calls[c]?.bind (s.cancel c)
  | .wake c => s.calls[c]?.bind (s.wake c)
  | .answer => s.answer
  | .pingresp => s.handlePingresp
  | .cancelPending => s.cancelPending

/-- The call timed out and took its future away. -/
def timedOut (s : PingConnection) (c : Nat) : Bool :=
  (s.calls[c]?).any fun call => call.phase = .raised .timeout

/-- A ping is answered by its own PINGRESP only: a call that returned has had it handled, and
the futures left are those of PINGREQs that are written and not answered. -/
structure OwnAnswers (s : PingConnection) : Prop where
  returned : ∀ c call, s.calls[c]? = some call → call.phase = .returned → c ∈ s.handled
  waiters : ∀ c ∈ s.waiters, (c ∈ s.unanswered ∨ c ∈ s.arriving) ∧ c ∉ s.handled

/-- No write fails before it has written, and no PINGRESP for a ping that timed out comes
while a future waits. -/
def undisturbed (s : PingConnection) : Action → Bool
  | .ping write => write ≠ .failed
  | .pingresp => s.arriving.head?.all fun c => !s.timedOut c || s.waiters.isEmpty
  | _ => true

/-- What holds in an undisturbed run: until the connection is lost the futures are those of
the PINGREQs not answered, less the ones that timed out, in the same order. -/
structure Aligned (s : PingConnection) : Prop where
  known : ∀ c ∈ s.handled ++ (s.arriving ++ s.unanswered), c < s.calls.length
  nodup : (s.handled ++ (s.arriving ++ s.unanswered)).Nodup
  waiting : ∀ c ∈ s.waiters, c ∈ s.arriving ++ s.unanswered
  inOrder : s.dead = false →
    s.waiters = (s.arriving ++ s.unanswered).filter fun c => !s.timedOut c
  answered : ∀ c call, s.calls[c]? = some call →
    call.future = .answered ∨ call.phase = .returned → c ∈ s.handled

variable {s next : PingConnection} {c : Nat} {call : PingCall}

theorem Aligned.ownAnswers (h : Aligned s) : OwnAnswers s := by
  refine ⟨fun c call hc hphase => h.answered c call hc (.inr hphase), fun c hc => ?_⟩
  have hmem := h.waiting c hc
  refine ⟨(List.mem_append.mp hmem).symm, fun hhandled => ?_⟩
  exact (List.nodup_append.mp h.nodup).2.2 c hhandled c hmem rfl

theorem timedOut_iff : s.timedOut c = true ↔
    ∃ call, s.calls[c]? = some call ∧ call.phase = .raised .timeout := by
  unfold timedOut
  cases hc : s.calls[c]? with
  | none => simp
  | some call => simp

/-! ## One step -/

theorem timedOut_append {call : PingCall} (hcall : call.phase ≠ .raised .timeout) (c : Nat) :
    timedOut { s with calls := s.calls ++ [call] } c = s.timedOut c := by
  rw [Bool.eq_iff_iff, timedOut_iff, timedOut_iff]
  simp only [TaskList.getElem?_append_iff]
  constructor
  · rintro ⟨other, hother | ⟨-, rfl⟩, hphase⟩
    · exact ⟨other, hother, hphase⟩
    · exact absurd hphase hcall
  · rintro ⟨other, hother, hphase⟩
    exact ⟨other, .inl hother, hphase⟩

theorem timedOut_modify {f : PingCall → PingCall} (hcall : s.calls[c]? = some call)
    (hf : (f call).phase = .raised .timeout ↔ call.phase = .raised .timeout) (other : Nat) :
    timedOut { s with calls := s.calls.modify c f } other = s.timedOut other := by
  unfold timedOut
  by_cases heq : c = other
  · subst heq
    simp [hcall, hf]
  · rw [List.getElem?_modify_ne _ _ heq]

/-- A new call with its PINGREQ. -/
theorem aligned_new (h : Aligned s) {phase : PingPhase} (hphase : phase ≠ .raised .timeout)
    (hreturned : phase ≠ .returned) :
    Aligned
      { s with
        waiters := s.waiters ++ [s.calls.length]
        calls := s.calls ++ [{ phase }]
        unanswered := s.unanswered ++ [s.calls.length] } := by
  have hnew : s.timedOut s.calls.length = false := by
    unfold timedOut
    rw [List.getElem?_eq_none (le_refl _)]
    rfl
  have hfresh : s.calls.length ∉ s.handled ++ (s.arriving ++ s.unanswered) := fun hmem =>
    Nat.lt_irrefl _ (h.known _ hmem)
  refine ⟨fun c hc => ?_, ?_, fun c hc => ?_, fun hdead => ?_, fun c call hcall hdone => ?_⟩
  · simp only [← List.append_assoc] at hc
    rw [List.length_append, List.length_singleton]
    rcases List.mem_append.mp hc with hold | hnew
    · rw [List.append_assoc] at hold
      exact Nat.lt_succ_of_lt (h.known c hold)
    · rw [List.mem_singleton.mp hnew]
      exact Nat.lt_succ_self _
  · simp only [← List.append_assoc]
    rw [List.append_assoc s.handled, ← List.concat_eq_append]
    exact h.nodup.concat hfresh
  · simp only [← List.append_assoc]
    rcases List.mem_append.mp hc with hold | hnew
    · exact List.mem_append_left _ (h.waiting c hold)
    · exact List.mem_append_right _ hnew
  · have hsame : ∀ c, timedOut
        { s with
          waiters := s.waiters ++ [s.calls.length]
          calls := s.calls ++ [{ phase }]
          unanswered := s.unanswered ++ [s.calls.length] } c = s.timedOut c :=
      timedOut_append hphase
    simp only [hsame, ← List.append_assoc]
    rw [h.inOrder hdead, List.filter_append _ [s.calls.length]]
    simp [hnew]
  · rcases TaskList.getElem?_append_iff.mp hcall with hcall | ⟨-, rfl⟩
    · exact h.answered c call hcall hdone
    · rcases hdone with hfuture | hphase'
      · exact absurd hfuture (by simp)
      · exact absurd hphase' hreturned

/-- A call goes on without a timeout. -/
theorem aligned_setPhase (h : Aligned s) (hcall : s.calls[c]? = some call) {phase : PingPhase}
    (hold : call.phase ≠ .raised .timeout) (hnew : phase ≠ .raised .timeout)
    (hreturned : phase = .returned → call.future = .answered) : Aligned (s.setPhase c phase) := by
  have htimed := timedOut_modify (f := fun call => { call with phase }) hcall
    (by simp [hold, hnew])
  refine ⟨fun other hother => ?_, h.nodup, h.waiting, fun hdead => ?_, ?_⟩
  · rw [setPhase, List.length_modify]
    exact h.known other hother
  · unfold setPhase
    simp only [htimed]
    exact h.inOrder hdead
  · intro other call' hother hdone
    rcases (TaskList.getElem?_modify_iff hcall).mp hother with ⟨rfl, rfl⟩ | ⟨-, hother⟩
    · refine h.answered other call hcall (.inl ?_)
      rcases hdone with hfuture | hphase
      · exact hfuture
      · exact hreturned hphase
    · exact h.answered other call' hother hdone

/-- A call times out: its future leaves the list, and the others keep their order. -/
theorem aligned_timeout (h : Aligned s) (hcall : s.calls[c]? = some call)
    (hwaiter : c ∈ s.waiters) :
    Aligned { s.setPhase c (.raised .timeout) with waiters := s.waiters.erase c } := by
  have htimed : ∀ other, (s.setPhase c (.raised .timeout)).timedOut other =
      (s.timedOut other || decide (other = c)) := by
    intro other
    unfold timedOut setPhase
    by_cases heq : c = other
    · subst heq
      simp [hcall]
    · rw [List.getElem?_modify_ne _ _ heq]
      simp [Ne.symm heq]
  refine ⟨fun other hother => ?_, h.nodup, fun other hother => ?_, fun hdead => ?_, ?_⟩
  · rw [setPhase, List.length_modify]
    exact h.known other hother
  · exact h.waiting other (List.mem_of_mem_erase hother)
  · have horder := h.inOrder hdead
    have hnodup : s.waiters.Nodup := by
      rw [horder]
      exact (List.nodup_append.mp h.nodup).2.1.filter _
    show s.waiters.erase c = (s.arriving ++ s.unanswered).filter fun other =>
      !(s.setPhase c (.raised .timeout)).timedOut other
    rw [hnodup.erase_eq_filter, horder, List.filter_filter]
    apply List.filter_congr
    intro other _
    rw [htimed, Bool.not_or, Bool.and_comm]
    by_cases heq : other = c
    · simp [heq]
    · simp [heq]
  · intro other call' hother hdone
    rcases (TaskList.getElem?_modify_iff hcall).mp hother with ⟨rfl, rfl⟩ | ⟨-, hother⟩
    · refine h.answered other call hcall (.inl ?_)
      rcases hdone with hfuture | hphase
      · exact hfuture
      · exact absurd hphase (by simp)
    · exact h.answered other call' hother hdone

/-- An answered future belongs to a handled PINGRESP, also when one more is settled. -/
theorem answered_settle {handled : List Nat}
    (h : ∀ c call, s.calls[c]? = some call →
      call.future = .answered ∨ call.phase = .returned → c ∈ handled)
    (hc : c ∈ handled) :
    ∀ other call, (s.calls.modify c (settle .answered))[other]? = some call →
      call.future = .answered ∨ call.phase = .returned → other ∈ handled := by
  intro other call hother hdone
  by_cases heq : c = other
  · exact heq ▸ hc
  · rw [List.getElem?_modify_ne _ _ heq] at hother
    exact h other call hother hdone

theorem settle_phase (future : PingFuture) (call : PingCall) :
    (settle future call).phase = call.phase := by
  unfold settle
  split_ifs
  · rfl
  · rfl

/-- Settling a future is no timeout. -/
theorem timedOut_settle (future : PingFuture) (c other : Nat) :
    timedOut { s with calls := s.calls.modify c (settle future) } other = s.timedOut other := by
  cases hcall : s.calls[c]? with
  | none =>
      rw [List.modify_eq_self (List.getElem?_eq_none_iff.mp hcall)]
  | some call => exact timedOut_modify hcall (by rw [settle_phase]) other

/-- The PINGRESP of `c` goes to the future of `c`, or there is none and it has no effect. -/
theorem aligned_pingresp (h : Aligned s) (hok : s.undisturbed .pingresp = true)
    (hstep : s.handlePingresp = some next) : Aligned next := by
  unfold handlePingresp at hstep
  split at hstep
  · next c rest hdead harriving =>
      have horder := h.inOrder hdead
      have hmoved : s.handled ++ (s.arriving ++ s.unanswered) =
          s.handled ++ [c] ++ (rest ++ s.unanswered) := by
        rw [harriving, List.append_assoc]
        rfl
      have hknown := h.known
      have hnodup := h.nodup
      rw [hmoved] at hknown hnodup
      have hhandled : ∀ other call, s.calls[other]? = some call →
          call.future = .answered ∨ call.phase = .returned → other ∈ s.handled ++ [c] :=
        fun other call hother hdone => List.mem_append_left _ (h.answered other call hother hdone)
      rw [harriving, List.cons_append, List.filter_cons] at horder
      by_cases hkeep : s.timedOut c = true
      · -- the future of `c` is gone, so there is no other
        have hnone : s.waiters = [] := by
          rw [undisturbed, harriving] at hok
          simpa [hkeep] using hok
        rw [hnone] at hstep
        obtain rfl := Option.some.inj hstep
        refine ⟨hknown, hnodup, fun other hother => ?_, fun _ => ?_, hhandled⟩
        · exact absurd hother List.not_mem_nil
        · rw [if_neg (by simp [hkeep]), hnone] at horder
          exact horder
      · rw [if_pos (by simpa using hkeep)] at horder
        rw [horder] at hstep
        obtain rfl := Option.some.inj hstep
        refine ⟨?_, hnodup, fun other hother => ?_, fun _ => ?_, ?_⟩
        · simp only [List.length_modify]
          exact hknown
        · exact (List.mem_filter.mp hother).1
        · apply List.filter_congr
          intro other _
          exact congrArg (!·) (timedOut_settle .answered c other).symm
        · exact answered_settle hhandled (List.mem_append_right _ List.mem_cons_self)
  · exact absurd hstep (by simp)

/-- What failing the futures of the waiters leaves of the calls. -/
theorem settleAll_failed (waiters : List Nat) (calls : List PingCall) :
    let failed := waiters.foldl (fun calls c => calls.modify c (settle .failed)) calls
    failed.length = calls.length ∧
      ∀ (other : Nat) (call : PingCall), failed[other]? = some call →
        ∃ old : PingCall, calls[other]? = some old ∧ call.phase = old.phase ∧
          (call.future = .answered → old.future = .answered) := by
  induction waiters generalizing calls with
  | nil => exact ⟨rfl, fun other call hcall => ⟨call, hcall, rfl, id⟩⟩
  | cons c waiters ih =>
      obtain ⟨hlength, hcalls⟩ := ih (calls.modify c (settle .failed))
      refine ⟨hlength.trans (List.length_modify ..), fun other call hcall => ?_⟩
      obtain ⟨mid, hmid, hphase, hfuture⟩ := hcalls other call hcall
      rw [List.getElem?_modify] at hmid
      obtain ⟨old, hold, rfl⟩ := Option.map_eq_some_iff.mp hmid
      refine ⟨old, hold, ?_, fun hanswered => ?_⟩
      · rw [hphase]
        split_ifs
        · exact settle_phase .failed old
        · rfl
      · have hmidFuture := hfuture hanswered
        split_ifs at hmidFuture
        · unfold settle at hmidFuture
          split_ifs at hmidFuture
          exact hmidFuture
        · exact hmidFuture

/-- The connection is lost: no future waits any longer. -/
theorem aligned_cancelPending (h : Aligned s) (hstep : s.cancelPending = some next) :
    Aligned next := by
  unfold cancelPending at hstep
  split_ifs at hstep with hdead
  obtain rfl := Option.some.inj hstep
  obtain ⟨hlength, hcalls⟩ := settleAll_failed s.waiters s.calls
  refine ⟨fun c hc => ?_, h.nodup, fun other hother => absurd hother List.not_mem_nil,
    fun halive => absurd halive (by simp), fun c call hcall hdone => ?_⟩
  · rw [hlength]
    exact h.known c hc
  · obtain ⟨old, hold, hphase, hfuture⟩ := hcalls c call hcall
    refine h.answered c old hold ?_
    rcases hdone with hanswered | hreturned
    · exact .inl (hfuture hanswered)
    · exact .inr (hphase.symm.trans hreturned)

/-- The broker answers. -/
theorem aligned_answer (h : Aligned s) (hstep : s.answer = some next) : Aligned next := by
  unfold answer at hstep
  split at hstep
  · exact absurd hstep (by simp)
  · next c rest hunanswered =>
      obtain rfl := Option.some.inj hstep
      have hmoved : s.arriving ++ [c] ++ rest = s.arriving ++ s.unanswered := by
        rw [hunanswered, List.append_assoc]
        rfl
      refine ⟨?_, ?_, ?_, ?_, h.answered⟩
      · rw [hmoved]
        exact h.known
      · rw [hmoved]
        exact h.nodup
      · rw [hmoved]
        exact h.waiting
      · rw [hmoved]
        exact h.inOrder

/-- **Step.** -/
theorem aligned_step {action : Action} (h : Aligned s) (hok : s.undisturbed action = true)
    (hstep : s.step action = some next) : Aligned next := by
  cases action with
  | ping write =>
      obtain rfl := Option.some.inj hstep
      cases write with
      | done => exact aligned_new h (by simp) (by simp)
      | suspended => exact aligned_new h (by simp) (by simp)
      | failed => exact absurd hok (by simp [undisturbed])
  | sent c ok =>
      obtain ⟨call, hcall, hstep⟩ := Option.bind_eq_some_iff.mp hstep
      unfold sent at hstep
      split at hstep
      · next hphase =>
          obtain rfl := Option.some.inj hstep
          refine aligned_setPhase h hcall (by simp [hphase]) ?_ ?_
          · cases ok <;> simp
          · cases ok <;> simp
      · exact absurd hstep (by simp)
  | timeout c =>
      obtain ⟨call, hcall, hstep⟩ := Option.bind_eq_some_iff.mp hstep
      unfold timeout at hstep
      split at hstep
      · next hphase =>
          split_ifs at hstep with hwaiter
          · obtain rfl := Option.some.inj hstep
            exact aligned_timeout h hcall (List.contains_iff_mem.mp hwaiter)
          · obtain rfl := Option.some.inj hstep
            exact aligned_setPhase h hcall (by simp [hphase]) (by simp) (by simp)
      · exact absurd hstep (by simp)
  | cancel c =>
      obtain ⟨call, hcall, hstep⟩ := Option.bind_eq_some_iff.mp hstep
      unfold cancel at hstep
      split at hstep
      · next hphase =>
          obtain rfl := Option.some.inj hstep
          exact aligned_setPhase h hcall (by simp [hphase]) (by simp) (by simp)
      · next hphase =>
          obtain rfl := Option.some.inj hstep
          exact aligned_setPhase h hcall (by simp [hphase]) (by simp) (by simp)
      · exact absurd hstep (by simp)
  | wake c =>
      obtain ⟨call, hcall, hstep⟩ := Option.bind_eq_some_iff.mp hstep
      unfold wake at hstep
      split at hstep
      · next hphase hfuture =>
          obtain rfl := Option.some.inj hstep
          exact aligned_setPhase h hcall (by simp [hphase]) (by simp) fun _ => hfuture
      · next hphase hfuture =>
          obtain rfl := Option.some.inj hstep
          exact aligned_setPhase h hcall (by simp [hphase]) (by simp) (by simp)
      · exact absurd hstep (by simp)
  | answer => exact aligned_answer h hstep
  | pingresp => exact aligned_pingresp h hok hstep
  | cancelPending => exact aligned_cancelPending h hstep

theorem aligned_init : Aligned {} := by
  refine ⟨fun c hc => absurd hc List.not_mem_nil, List.nodup_nil,
    fun c hc => absurd hc List.not_mem_nil, fun _ => rfl, fun c call hcall => ?_⟩
  exact absurd hcall (by simp)

/-- **A ping is answered by its own PINGRESP** in every state of a run in which no write fails
before its PINGREQ is written and no PINGRESP of a ping that timed out comes while another
future waits. -/
theorem pings_have_own_answers (actions : List Action) (s : PingConnection)
    (hok : Transition.Along step (fun s action => s.undisturbed action = true) {} actions)
    (hrun : Transition.run step {} actions = some s) : OwnAnswers s :=
  Aligned.ownAnswers
    (Transition.invariant_along (fun _ _ _ h hok hstep => aligned_step h hok hstep)
      aligned_init hok hrun)

/-- Two pings at once, the first cancelled, and one that times out before its PINGRESP. -/
def cancelledAndLate : List Action :=
  [.ping .done, .ping .suspended, .cancel 0, .answer, .pingresp, .sent 1 true, .answer, .pingresp,
    .wake 1, .ping .done, .timeout 2, .answer, .pingresp]

theorem pings_have_own_answers_cancelled :
    ∃ s, Transition.run step {} cancelledAndLate = some s ∧
      s.calls.map PingCall.phase = [.raised .cancelled, .returned, .raised .timeout] ∧
      OwnAnswers s := by
  refine ⟨_, rfl, by decide, ?_⟩
  exact pings_have_own_answers cancelledAndLate _ (by decide) rfl

/-- The first ping times out, and its late PINGRESP lets the second one return. -/
theorem ping_takes_answer_of_another :
    ¬ ∀ (actions : List Action) (s : PingConnection),
      Transition.run step {} actions = some s → OwnAnswers s := by
  intro h
  have hown := h [.ping .done, .timeout 0, .ping .done, .answer, .pingresp, .wake 1] _ rfl
  exact absurd (hown.returned 1 { phase := .returned, future := .answered } rfl rfl) (by decide)

end PingConnection

end Zmqtt
