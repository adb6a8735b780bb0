import Zmqtt.ClaimOwners
import Zmqtt.ReplayMessages
import Zmqtt.RequestClaims
import Zmqtt.TaskList

/-!
# Replies and subscriptions

The inbound flow asks the request router about every message for which it selects a
recipient, and completes the claimed request when it hands the message over.  In between the
message may wait: for its PUBREL, in a suspended write, in the replay buffer.  Meanwhile the
request may time out, its key may be registered again, and the connection may be replaced.

The dispatcher and the flows of all connections are stepped together here.  The answer of the
router to a flow is what `claim` returns, and each hand-over to a request is a `deliver`.
The flow of a lost connection may still make steps.
-/

namespace Zmqtt

open Tally

/-- The claimed responses that a step hands over, oldest first. -/
def InboundPublishFlow.delivered (s next : InboundPublishFlow) : List Nat :=
  ((next.log.take (next.log.length - s.log.length)).filterMap InboundEvent.response?).reverse

/-- Steps that neither bind nor claim nor deliver. -/
def RequestDispatcher.Action.isOwn : RequestDispatcher.Action → Bool
  | .bind _ => false
  | .claim _ => false
  | .deliver _ => false
  | _ => true

/-- `_ClaimedResponse.deliver`. -/
def RequestDispatcher.deliver (s : RequestDispatcher) (i : Nat) : RequestDispatcher :=
  s.responses[i]?.elim s (s.complete i)

/-- `claim`, with the index of the response if there is one. -/
def RequestDispatcher.answer (s : RequestDispatcher) (message : Message) :
    RequestDispatcher × Option Nat :=
  let claimed := s.claim message
  (claimed,
    if s.responses.length < claimed.responses.length then some s.responses.length else none)

/-- The dispatcher of a client and the inbound flows of its connections, oldest first.
`origins` has for each claimed response the connection and the arrival number of its
message. -/
structure ReplyRouting where
  dispatcher : RequestDispatcher
  flows : List InboundPublishFlow := []
  origins : List (Nat × Nat) := []

inductive ReplyAction
  | request (action : RequestDispatcher.Action)
  | connect (config : InboundPublishFlow.Config)
  | inbound (f : Nat) (action : InboundPublishFlow.Action)

namespace ReplyRouting

/-- The answer of the router to a step of a flow. -/
def ask (s : ReplyRouting) (received : Option Received) : RequestDispatcher × Option Nat :=
  match received with
  | none => (s.dispatcher, none)
  | some received => s.dispatcher.answer (makeMessage received)

/-- The origin of a claimed response. -/
def claimedFrom (f : Nat) : Option Received → Option Nat → List (Nat × Nat)
  | some received, some _ => [(f, received.seq)]
  | _, _ => []

def step (s : ReplyRouting) : ReplyAction → Option ReplyRouting
  | .request action =>
      if action.isOwn then
        (s.dispatcher.step action).map fun dispatcher => { s with dispatcher }
      else none
  | .connect config =>
      some { s with
        dispatcher := s.dispatcher.bind s.flows.length
        flows := s.flows ++ [InboundPublishFlow.start config] }
  | .inbound f action =>
      s.flows[f]?.bind fun flow =>
        let received := flow.consulted action
        let asked := s.ask received
        (flow.step (action.withClaim asked.2)).map fun next =>
          { dispatcher := (flow.delivered next).foldl RequestDispatcher.deliver asked.1
            flows := s.flows.set f next
            origins := s.origins ++ claimedFrom f received asked.2 }

def start (maxPendingRequests : Nat) : ReplyRouting where
  dispatcher := RequestDispatcher.start maxPendingRequests

/-- The origin of the message that completed a request. -/
def source (s : ReplyRouting) (r : Nat) : Option (Nat × Nat) :=
  s.dispatcher.log.findSome? fun event =>
    match event with
    | .completed i other => if other = r then s.origins[i]? else none
    | _ => none

end ReplyRouting

/-! ## The dispatcher -/

namespace RequestDispatcher

variable {s next last : RequestDispatcher}

/-- No claim was made and none delivered. -/
structure Unanswered (s next : RequestDispatcher) : Prop where
  responses : next.responses = s.responses
  completed : ∀ i r, .completed i r ∈ next.log → .completed i r ∈ s.log

namespace Unanswered

theorem same (hresponses : next.responses = s.responses) (hlog : next.log = s.log) :
    Unanswered s next :=
  ⟨hresponses, fun _ _ h => hlog ▸ h⟩

theorem trans (h : Unanswered s next) (h' : Unanswered next last) : Unanswered s last :=
  ⟨h'.responses.trans h.responses, fun i r hmem => h.completed i r (h'.completed i r hmem)⟩

theorem dropInterest (s : RequestDispatcher) (c : Nat) (topic : Str) (i : Nat)
    (observerActive : Bool) (error : Option RequestError) :
    Unanswered s (s.dropInterest c topic i observerActive error) := by
  unfold RequestDispatcher.dropInterest
  simp only
  split
  · split <;> exact .same rfl rfl
  · exact .same rfl rfl

theorem remove (s : RequestDispatcher) (key : RequestKey) (r : Nat) :
    Unanswered s (s.remove key r) := by
  refine ⟨rfl, fun i other hmem => ?_⟩
  rcases List.mem_cons.mp hmem with heq | hmem
  · cases heq
  · exact hmem

theorem unregister (s : RequestDispatcher) (c : Nat) (key : RequestKey) (r : Nat)
    (error : Option RequestError) : Unanswered s (s.unregister c key r error) := by
  unfold RequestDispatcher.unregister
  split
  · exact .same rfl rfl
  · have hremoved := Unanswered.remove s key r
    simp only
    split
    · exact hremoved.trans (.same rfl rfl)
    · rename_i i _
      have hinterest : Unanswered s ((s.remove key r).modifyInterest i fun interest =>
          { interest with refcount := interest.refcount - 1 }) := hremoved.trans (.same rfl rfl)
      split
      · exact hinterest.trans (.same rfl rfl)
      · split
        · exact hinterest.trans (.dropInterest _ _ _ _ _ _)
        · split
          · exact hinterest.trans (.same rfl rfl)
          · exact hinterest.trans (.dropInterest _ _ _ _ _ _)
          · exact hinterest.trans (.dropInterest _ _ _ _ _ _)

theorem afterReady (s : RequestDispatcher) (c : Nat) (key : RequestKey) (r : Nat) (ok : Bool) :
    Unanswered s (s.afterReady c key r ok) := by
  unfold RequestDispatcher.afterReady
  split
  · exact .same rfl rfl
  · exact .unregister s c key r _

theorem ensureTopicReady (s : RequestDispatcher) (topic : Str) (i protocol : Nat) :
    Unanswered s (s.ensureTopicReady topic i protocol).1 := by
  unfold RequestDispatcher.ensureTopicReady
  split <;> exact .same rfl rfl

theorem enter (s : RequestDispatcher) (c : Nat) (key : RequestKey) :
    Unanswered s (s.enter c key) := by
  unfold RequestDispatcher.enter
  split
  · exact .same rfl rfl
  · split
    · exact .same rfl rfl
    · rename_i protocol _
      have hfound : Unanswered s (s.findInterest key.1).1 := by
        unfold RequestDispatcher.findInterest
        split <;> exact .same rfl rfl
      have hadded : Unanswered s ((s.findInterest key.1).1.add key (s.findInterest key.1).2) := by
        refine hfound.trans ⟨rfl, fun i r hmem => ?_⟩
        rcases List.mem_cons.mp hmem with heq | hmem
        · cases heq
        · exact hmem
      have hready := hadded.trans (.ensureTopicReady _ key.1 (s.findInterest key.1).2 protocol)
      simp only
      split
      · exact hready.trans (.same rfl rfl)
      · exact hready.trans (.afterReady _ c key _ _)

theorem cancelPending (s : RequestDispatcher) : Unanswered s s.cancelPending := by
  refine ⟨rfl, fun i r hmem => ?_⟩
  rcases List.mem_append.mp hmem with hmem | hmem
  · obtain ⟨other, -, heq⟩ := List.mem_map.mp hmem
    cases heq
  · exact hmem

theorem bind (s : RequestDispatcher) (protocol : Nat) : Unanswered s (s.bind protocol) := by
  refine ⟨rfl, fun i r hmem => ?_⟩
  rcases List.mem_cons.mp hmem with heq | hmem
  · cases heq
  · exact hmem

/-- A step that neither claims nor delivers. -/
theorem step {action : Action} (hown : action.isOwn = true) (hstep : s.step action = some next) :
    Unanswered s next := by
  cases action with
  | bind protocol => cases hown
  | claim message => cases hown
  | deliver i => cases hown
  | register key =>
      cases hstep
      exact .same rfl rfl
  | acquire c =>
      obtain ⟨call, -, hcall⟩ := Option.bind_eq_some_iff.mp hstep
      obtain ⟨-, heq⟩ := Option.ite_none_right_eq_some.mp hcall
      cases heq
      have htaken : Unanswered s { s with capacity := s.capacity - 1 } := .same rfl rfl
      exact htaken.trans (.enter _ c call.key)
  | resume c ok =>
      obtain ⟨call, -, hresume⟩ := Option.bind_eq_some_iff.mp hstep
      unfold RequestDispatcher.resume at hresume
      split at hresume
      · split at hresume <;> cases hresume
        exact .same rfl rfl
      · split at hresume <;> cases hresume
        exact .afterReady _ _ _ _ _
      · split at hresume <;> cases hresume
        exact .dropInterest _ _ _ _ _ _
      · cases hresume
        exact .same rfl rfl
      · cases hresume
  | close c timeout =>
      obtain ⟨call, -, hclose⟩ := Option.bind_eq_some_iff.mp hstep
      unfold RequestDispatcher.close at hclose
      split at hclose
      · rename_i r _
        cases hclose
        have hclosed : Unanswered s
            (s.modifyRequest r fun request => request.close timeout) := .same rfl rfl
        exact hclosed.trans (.unregister _ c call.key r none)
      · cases hclose
  | readyDone t ok =>
      cases hstep
      exact .same rfl rfl
  | restore topic i =>
      obtain ⟨protocol, -, rfl⟩ := Option.map_eq_some_iff.mp hstep
      split
      · exact .ensureTopicReady s topic i protocol
      · exact .same rfl rfl
  | cancelPending =>
      cases hstep
      exact .cancelPending s

end Unanswered

theorem claim_cases (s : RequestDispatcher) (message : Message) :
    s.claim message = s ∨ ∃ r response, response.message = message ∧ s.claim message =
      ((s.addResponse response).modifyRequest r fun request => request.setClaimed true).emit
        (.claimed s.responses.length r) := by
  unfold claim
  cases message.properties.bind PublishProperties.correlationData with
  | none => exact .inl rfl
  | some data =>
      simp only
      cases OrderedDict.get s.pending (message.topic, data) with
      | none => exact .inl rfl
      | some r =>
          simp only
          split
          · exact .inl rfl
          · exact .inr ⟨r, _, rfl, rfl⟩

/-- The router claims one more response, or it does not answer. -/
theorem answer_cases (s : RequestDispatcher) (message : Message) :
    (Unanswered s (s.answer message).1 ∧ (s.answer message).2 = none) ∨
    ∃ response, response.message = message ∧
      (s.answer message).1.responses = s.responses ++ [response] ∧
      (s.answer message).2 = some s.responses.length ∧
      ∀ i r, .completed i r ∈ (s.answer message).1.log → .completed i r ∈ s.log := by
  rcases s.claim_cases message with heq | ⟨r, response, hmessage, heq⟩ <;>
    simp only [answer, heq]
  · exact .inl ⟨.same rfl rfl, if_neg (Nat.lt_irrefl _)⟩
  · refine .inr ⟨response, hmessage, rfl, ?_, fun i other hmem => ?_⟩
    · exact if_pos (by simp [emit, modifyRequest, addResponse])
    · exact (List.mem_cons.mp hmem).resolve_left fun heq => by cases heq

/-- A delivery completes the claim it names, if any. -/
theorem deliver_spec (s : RequestDispatcher) (k : Nat) :
    (s.deliver k).responses = s.responses ∧
      ∀ i r, .completed i r ∈ (s.deliver k).log → .completed i r ∈ s.log ∨ i = k := by
  unfold deliver
  cases hresponse : s.responses[k]? with
  | none => exact ⟨rfl, fun _ _ hmem => .inl hmem⟩
  | some response =>
      simp only [Option.elim_some, complete]
      split
      · refine ⟨rfl, fun i r hmem => ?_⟩
        rcases List.mem_cons.mp hmem with heq | hmem
        · cases heq
          exact .inr rfl
        · exact .inl hmem
      · exact ⟨rfl, fun _ _ hmem => .inl hmem⟩

theorem deliverAll_spec (delivered : List Nat) (s : RequestDispatcher) :
    (delivered.foldl deliver s).responses = s.responses ∧
      ∀ i r, .completed i r ∈ (delivered.foldl deliver s).log →
        .completed i r ∈ s.log ∨ i ∈ delivered := by
  induction delivered generalizing s with
  | nil => exact ⟨rfl, fun _ _ hmem => .inl hmem⟩
  | cons k rest ih =>
      obtain ⟨hresponses, hcompleted⟩ := s.deliver_spec k
      obtain ⟨hrest, hlater⟩ := ih (s.deliver k)
      refine ⟨hrest.trans hresponses, fun i r hmem => ?_⟩
      rcases hlater i r hmem with hmem | hmem
      · rcases hcompleted i r hmem with hmem | rfl
        · exact .inl hmem
        · exact .inr List.mem_cons_self
      · exact .inr (List.mem_cons_of_mem _ hmem)

end RequestDispatcher

namespace Exclusive

variable {s : RequestDispatcher}

theorem deliver (h : Exclusive s) (k : Nat) : Exclusive (s.deliver k) := by
  unfold RequestDispatcher.deliver
  cases hresponse : s.responses[k]? with
  | none => exact h
  | some response => exact h.complete hresponse

theorem deliverAll (h : Exclusive s) (delivered : List Nat) :
    Exclusive (delivered.foldl RequestDispatcher.deliver s) := by
  induction delivered generalizing s with
  | nil => exact h
  | cons k rest ih => exact ih (h.deliver k)

/-- A response is claimed for one request. -/
theorem claimed_unique {log : List RequestEvent} (h : History.Each Allowed log) {i r r' : Nat}
    (hr : .claimed i r ∈ log) (hr' : .claimed i r' ∈ log) : r = r' := by
  induction log with
  | nil => cases hr
  | cons event earlier ih =>
      rcases List.mem_cons.mp hr with heq | hmem
      · rcases List.mem_cons.mp hr' with heq' | hmem'
        · rw [← heq] at heq'
          cases heq'
          rfl
        · rw [← heq] at h
          exact absurd hmem' (h.1.2 r')
      · rcases List.mem_cons.mp hr' with heq' | hmem'
        · rw [← heq'] at h
          exact absurd hmem (h.1.2 r)
        · exact ih h.2 hmem hmem'

/-- What was completed was claimed. -/
theorem claimed_of_completed (h : Exclusive s) {i r : Nat} (hmem : .completed i r ∈ s.log) :
    .claimed i r ∈ s.log := by
  obtain ⟨later, earlier, heq⟩ := List.append_of_mem hmem
  have heach := h.log
  rw [heq] at heach
  obtain ⟨between, before, rfl, -⟩ := heach.at.1
  rw [heq]
  simp

/-- A claim completes one request. -/
theorem completed_unique (h : Exclusive s) {i r r' : Nat} (hr : .completed i r ∈ s.log)
    (hr' : .completed i r' ∈ s.log) : r = r' :=
  claimed_unique h.log (h.claimed_of_completed hr) (h.claimed_of_completed hr')

/-- A request is completed by one claim. -/
theorem completing_unique {log : List RequestEvent} (h : History.Each Allowed log) {i j r : Nat}
    (hi : .completed i r ∈ log) (hj : .completed j r ∈ log) : i = j := by
  induction log with
  | nil => cases hi
  | cons event earlier ih =>
      rcases List.mem_cons.mp hi with heq | hmem
      · rcases List.mem_cons.mp hj with heq' | hmem'
        · rw [← heq] at heq'
          cases heq'
          rfl
        · rw [← heq] at h
          exact absurd hmem' (h.1.2 j)
      · rcases List.mem_cons.mp hj with heq' | hmem'
        · rw [← heq'] at h
          exact absurd hmem (h.1.2 i)
        · exact ih h.2 hmem hmem'

end Exclusive

/-! ## One flow -/

namespace InboundPublishFlow

variable {s next : InboundPublishFlow} {a : Action}

theorem mem_log_of_publish {packet : Publish} {claim : Option Nat} {write : WriteOutcome}
    (hstep : s.step (.publish packet claim write) = some next) :
    .receivedPublish { seq := s.nextSeq, publish := packet } ∈ next.log := by
  have harrived : .receivedPublish { seq := s.nextSeq, publish := packet } :: s.log <:+
      (s.arrived packet).log := by
    rw [arrived_frame]
  have hnext := (log_suffix_rules _).ofArrived harrived
    (harrived.trans (List.suffix_cons _ _)) hstep
  exact hnext.subset List.mem_cons_self

/-- What a flow hands over is in its log. -/
theorem mem_delivered {i : Nat} (h : i ∈ s.delivered next) :
    ∃ seq, .requestDelivered seq i ∈ next.log := by
  obtain ⟨event, hevent, hresponse⟩ := List.mem_filterMap.mp (List.mem_reverse.mp h)
  cases event with
  | requestDelivered seq response =>
      cases hresponse
      exact ⟨seq, List.mem_of_mem_take hevent⟩
  | _ => cases hresponse

/-- Every message is routed at most once and handed over at most once, and one that is held
has arrived. -/
structure Orderly (s : InboundPublishFlow) : Prop where
  kept : Kept Done s
  handedOver : ∀ seq, (handOver seq).spent s ≤ routes seq s.log
  held : s.replay.All fun received => .receivedPublish received ∈ s.log

namespace Orderly

theorem start (config : Config) : Orderly (start config) where
  kept := .start config
  handedOver seq := (handOver_sound seq).initially config
  held := ⟨fun _ hmem => absurd hmem List.not_mem_nil, fun _ hmem => absurd hmem List.not_mem_nil⟩

theorem step (h : s.Orderly) (hok : Uninterrupted s a) (hstep : s.step a = some next) :
    next.Orderly where
  kept := h.kept.step lasting_done (fun _ _ h => .inl h) hok
    (.inr fun _ _ oid hrefused => .inr ⟨oid, hrefused⟩) hstep
  handedOver seq := (handOver_sound seq).rules.step (h.handedOver seq) trivial hstep
  held := by
    have hheld : s.replay.All fun received => .receivedPublish received ∈ next.log :=
      h.held.mono fun _ hmem => (log_suffix hstep).subset hmem
    refine all_step hheld (fun packet claim write heq => ?_) hstep
    rw [heq] at hstep
    exact mem_log_of_publish hstep

/-- The message that the router is asked about has arrived. -/
theorem consulted_received (h : s.Orderly) {received : Received}
    (hconsulted : s.consulted a = some received) (hstep : s.step a = some next) :
    .receivedPublish received ∈ next.log := by
  cases a with
  | publish packet claim write =>
      obtain ⟨-, heq⟩ := Option.ite_none_right_eq_some.mp hconsulted
      cases heq
      exact mem_log_of_publish hstep
  | deliverNext t claim write =>
      obtain ⟨task, htask, hphase⟩ := Option.bind_eq_some_iff.mp hconsulted
      refine (log_suffix hstep).subset (h.held.phase htask received ?_)
      split at hphase
      · rename_i unmatched found pending heq
        cases hphase
        rw [heq]
        exact List.mem_append_right _ List.mem_cons_self
      · cases hphase
  | _ => cases hconsulted

/-- A message that is handed over to a request is not put into a queue. -/
theorem not_put (h : s.Orderly) {seq i : Nat} (hdelivered : .requestDelivered seq i ∈ s.log)
    (oid : Nat) (detached : Bool) : .put seq oid detached ∉ s.log := by
  intro hput
  have hroutes := h.kept.routes_le_one seq
  have hspent := h.handedOver seq
  have hboth := add_le_tally (handOver seq).event hdelivered hput fun heq => by cases heq
  have hle : tally (handOver seq).event s.log ≤ (handOver seq).spent s := by
    unfold Ledger.spent
    omega
  change unit seq seq + unit seq seq ≤ _ at hboth
  rw [unit_eq_one] at hboth
  omega

end Orderly

/-! The answer of the router. -/

theorem consulted_withClaim (s : InboundPublishFlow) (a : Action) (claim : Option Nat) :
    s.consulted (a.withClaim claim) = s.consulted a := by
  cases a <;> rfl

theorem claim_withClaim {received : Received} (claim : Option Nat)
    (h : s.consulted a = some received) : (a.withClaim claim).claim = claim := by
  cases a <;> first | rfl | cases h

theorem uninterrupted_withClaim (claim : Option Nat) (h : Uninterrupted s a) :
    Uninterrupted s (a.withClaim claim) := by
  cases a <;> exact h

/-- A claim is made for a message that is routed in the same step. -/
theorem routes_of_claim {received : Received} {i : Nat} (hstep : s.step a = some next)
    (hconsulted : s.consulted a = some received) (hclaim : a.claim = some i) :
    routes received.seq next.log = routes received.seq s.log + 1 := by
  rcases routes_cases hstep with ⟨-, hnone⟩ | ⟨found, t, hfound, hroutes⟩
  · have hempty := hnone (by rw [hconsulted]; rfl)
    rw [hclaim] at hempty
    cases hempty
  · rw [hconsulted] at hfound
    cases hfound
    rw [hroutes.after, routes_emit, hroutes.before, paid_routed, unit_eq_one, Nat.add_comm]

end InboundPublishFlow

/-! ## Connections and requests -/

namespace ReplyRouting

variable {s next : ReplyRouting}

/-- The message with the arrival number `seq` on the connection `f` is the one that the
response `i` was claimed for. -/
def Claims (s : ReplyRouting) (i f seq : Nat) : Prop :=
  ∃ flow received response, s.flows[f]? = some flow ∧ received.seq = seq ∧
    .receivedPublish received ∈ flow.log ∧ 0 < routes seq flow.log ∧
    s.dispatcher.responses[i]? = some response ∧ response.message = makeMessage received

/-- The flow that steps is not interrupted inside a delivery. -/
def Whole (s : ReplyRouting) : ReplyAction → Prop
  | .inbound f action => ∀ flow, s.flows[f]? = some flow → Uninterrupted flow action
  | _ => True

/-- The invariant of the client. -/
structure Traced (s : ReplyRouting) : Prop where
  exclusive : Exclusive s.dispatcher
  orderly : ∀ (f : Nat) (flow : InboundPublishFlow), s.flows[f]? = some flow → flow.Orderly
  owned : ∀ (f : Nat) (flow : InboundPublishFlow), s.flows[f]? = some flow →
    flow.OwnsClaims fun i seq => s.origins[i]? = some (f, seq)
  length : s.origins.length = s.dispatcher.responses.length
  origins : ∀ (i : Nat) f seq, s.origins[i]? = some (f, seq) → s.Claims i f seq
  distinct : s.origins.Nodup
  completed : ∀ i r, .completed i r ∈ s.dispatcher.log → ∃ f seq flow,
    s.origins[i]? = some (f, seq) ∧ s.flows[f]? = some flow ∧
      .requestDelivered seq i ∈ flow.log

namespace Traced

theorem start (maxPendingRequests : Nat) : (start maxPendingRequests).Traced where
  exclusive := .start maxPendingRequests
  orderly _ _ hflow := by cases hflow
  owned _ _ hflow := by cases hflow
  length := rfl
  origins _ _ _ horigin := by cases horigin
  distinct := List.nodup_nil
  completed _ _ hmem := absurd hmem List.not_mem_nil

/-- The dispatcher steps by itself. -/
theorem unanswered (h : s.Traced) {dispatcher : RequestDispatcher}
    (hexclusive : Exclusive dispatcher)
    (hunanswered : RequestDispatcher.Unanswered s.dispatcher dispatcher) :
    ({ s with dispatcher }).Traced where
  exclusive := hexclusive
  orderly := h.orderly
  owned := h.owned
  length := by
    change s.origins.length = dispatcher.responses.length
    rw [hunanswered.responses]
    exact h.length
  origins i f seq horigin := by
    have hclaims := h.origins i f seq horigin
    unfold Claims at hclaims ⊢
    rwa [← hunanswered.responses] at hclaims
  distinct := h.distinct
  completed i r hmem := h.completed i r (hunanswered.completed i r hmem)

/-- A new connection. -/
theorem connect (h : s.Traced) (config : InboundPublishFlow.Config) :
    ({ s with flows := s.flows ++ [InboundPublishFlow.start config] }).Traced := by
  have hold : ∀ {f : Nat} {flow}, s.flows[f]? = some flow →
      (s.flows ++ [InboundPublishFlow.start config])[f]? = some flow :=
    fun hflow => TaskList.getElem?_append_iff.mpr (.inl hflow)
  have hflows : ∀ (f : Nat) flow,
      (s.flows ++ [InboundPublishFlow.start config])[f]? = some flow →
      s.flows[f]? = some flow ∨ flow = InboundPublishFlow.start config := by
    intro f flow hflow
    exact (TaskList.getElem?_append_iff.mp hflow).imp_right fun hnew => hnew.2
  exact {
    exclusive := h.exclusive
    orderly := fun f flow hflow => by
      rcases hflows f flow hflow with hflow | rfl
      · exact h.orderly f flow hflow
      · exact .start config
    owned := fun f flow hflow => by
      rcases hflows f flow hflow with hflow | rfl
      · exact h.owned f flow hflow
      · exact ⟨fun _ hmem => absurd hmem List.not_mem_nil,
          fun _ hmem => absurd hmem List.not_mem_nil,
          fun _ _ hmem => absurd hmem List.not_mem_nil⟩
    length := h.length
    origins := fun i f seq horigin => by
      obtain ⟨flow, received, response, hflow, hrest⟩ := h.origins i f seq horigin
      exact ⟨flow, received, response, hold hflow, hrest⟩
    distinct := h.distinct
    completed := fun i r hmem => by
      obtain ⟨f, seq, flow, horigin, hflow, hdelivered⟩ := h.completed i r hmem
      exact ⟨f, seq, flow, horigin, hold hflow, hdelivered⟩ }

/-- One flow steps, with a claim or without. -/
theorem advance (h : s.Traced) {f : Nat} {flow flow' : InboundPublishFlow}
    {dispatcher : RequestDispatcher} {claimed : List (Nat × Nat)}
    (hflow : s.flows[f]? = some flow) (hexclusive : Exclusive dispatcher)
    (horderly : flow'.Orderly) (hlog : flow.log <:+ flow'.log)
    (howned : flow'.OwnsClaims fun i seq => (s.origins ++ claimed)[i]? = some (f, seq))
    (hlength : (s.origins ++ claimed).length = dispatcher.responses.length)
    (hresponses : s.dispatcher.responses <+: dispatcher.responses)
    (hclaimed : ∀ k f' seq, claimed[k]? = some (f', seq) →
      ReplyRouting.Claims { dispatcher, flows := s.flows.set f flow', origins := s.origins ++ claimed }
        (s.origins.length + k) f' seq)
    (hdistinct : (s.origins ++ claimed).Nodup)
    (hcompleted : ∀ i r, .completed i r ∈ dispatcher.log → .completed i r ∈ s.dispatcher.log) :
    ({ dispatcher, flows := s.flows.set f flow', origins := s.origins ++ claimed } :
      ReplyRouting).Traced := by
  have hlt : f < s.flows.length := (List.getElem?_eq_some_iff.mp hflow).1
  have hset : (s.flows.set f flow')[f]? = some flow' := List.getElem?_set_self hlt
  have hother : ∀ {g}, g ≠ f → (s.flows.set f flow')[g]? = s.flows[g]? :=
    fun hne => List.getElem?_set_ne (Ne.symm hne)
  have horigin : ∀ {i : Nat} {o}, s.origins[i]? = some o → (s.origins ++ claimed)[i]? = some o := by
    intro i o hi
    rw [List.getElem?_append_left (List.getElem?_eq_some_iff.mp hi).1]
    exact hi
  -- what is in the log of a flow stays there
  have hkept : ∀ {g : Nat} {old : InboundPublishFlow}, s.flows[g]? = some old →
      ∃ new, (s.flows.set f flow')[g]? = some new ∧ old.log <:+ new.log := by
    intro g old hold
    by_cases hg : g = f
    · subst hg
      rw [hflow] at hold
      cases hold
      exact ⟨flow', hset, hlog⟩
    · exact ⟨old, (hother hg).trans hold, List.suffix_refl _⟩
  exact {
    exclusive := hexclusive
    orderly := fun g flow hg => by
      by_cases heq : g = f
      · subst heq
        rw [hset] at hg
        cases hg
        exact horderly
      · rw [hother heq] at hg
        exact h.orderly g flow hg
    owned := fun g flow hg => by
      by_cases heq : g = f
      · subst heq
        rw [hset] at hg
        cases hg
        exact howned
      · rw [hother heq] at hg
        exact (h.owned g flow hg).mono fun i seq hi => horigin hi
    length := hlength
    origins := fun i g seq hi => by
      rcases Nat.lt_or_ge i s.origins.length with hi_lt | hge
      · have hi : s.origins[i]? = some (g, seq) := (List.getElem?_append_left hi_lt).symm.trans hi
        obtain ⟨old, received, response, hold, hseq, hreceived, hroutes, hresponse, hmessage⟩ :=
          h.origins i g seq hi
        obtain ⟨new, hnew, hsuffix⟩ := hkept hold
        obtain ⟨added, hadded⟩ := hresponses
        obtain ⟨later, hlater⟩ := hsuffix
        refine ⟨new, received, response, hnew, hseq, hlater ▸ List.mem_append_right _ hreceived,
          ?_, ?_, hmessage⟩
        · rw [← hlater, Zmqtt.routes, tally_append]
          exact Nat.lt_of_lt_of_le hroutes (Nat.le_add_left _ _)
        · change dispatcher.responses[i]? = some response
          rw [← hadded, List.getElem?_append_left (List.getElem?_eq_some_iff.mp hresponse).1]
          exact hresponse
      · have hnew := hclaimed (i - s.origins.length) g seq
          ((List.getElem?_append_right hge).symm.trans hi)
        rwa [Nat.add_sub_cancel' hge] at hnew
    distinct := hdistinct
    completed := fun i r hmem => by
      obtain ⟨g, seq, old, hi, hold, hdelivered⟩ := h.completed i r (hcompleted i r hmem)
      obtain ⟨new, hnew, hsuffix⟩ := hkept hold
      exact ⟨g, seq, new, horigin hi, hnew, hsuffix.subset hdelivered⟩ }

/-- A flow hands claimed messages over. -/
theorem deliverAll (h : s.Traced) {f : Nat} {flow : InboundPublishFlow} {delivered : List Nat}
    (hflow : s.flows[f]? = some flow)
    (hdelivered : ∀ i ∈ delivered, ∃ seq, .requestDelivered seq i ∈ flow.log) :
    ({ s with dispatcher := delivered.foldl RequestDispatcher.deliver s.dispatcher }).Traced := by
  obtain ⟨hresponses, hcompleted⟩ := RequestDispatcher.deliverAll_spec delivered s.dispatcher
  exact {
    exclusive := h.exclusive.deliverAll delivered
    orderly := h.orderly
    owned := h.owned
    length := h.length.trans (congrArg List.length hresponses.symm)
    origins := fun i g seq hi => by
      have hclaims := h.origins i g seq hi
      unfold Claims at hclaims ⊢
      rwa [← hresponses] at hclaims
    distinct := h.distinct
    completed := fun i r hmem => by
      rcases hcompleted i r hmem with hmem | hmem
      · exact h.completed i r hmem
      · obtain ⟨seq, hseq⟩ := hdelivered i hmem
        exact ⟨f, seq, flow, (h.owned f flow hflow).log seq i hseq, hflow, hseq⟩ }

/-- A flow steps, and no claim is made. -/
theorem unclaimed (h : s.Traced) {f : Nat} {flow flow' : InboundPublishFlow}
    {action : InboundPublishFlow.Action} {dispatcher : RequestDispatcher}
    (hflow : s.flows[f]? = some flow) (hok : Uninterrupted flow action)
    (hnext : flow.step (action.withClaim none) = some flow') (hexclusive : Exclusive dispatcher)
    (hunanswered : RequestDispatcher.Unanswered s.dispatcher dispatcher) :
    ({ dispatcher, flows := s.flows.set f flow', origins := s.origins ++ [] } :
      ReplyRouting).Traced := by
  have horderly := (h.orderly f flow hflow).step (flow.uninterrupted_withClaim none hok) hnext
  have howned : flow'.OwnsClaims fun i seq => (s.origins ++ [])[i]? = some (f, seq) := by
    refine ((h.owned f flow hflow).step hnext).mono fun i seq hor => ?_
    rw [List.append_nil]
    refine hor.resolve_right fun hclaimed => ?_
    obtain ⟨received, hconsulted, hclaim, -⟩ := hclaimed
    rw [flow.consulted_withClaim] at hconsulted
    rw [flow.claim_withClaim none hconsulted] at hclaim
    cases hclaim
  refine h.advance hflow hexclusive horderly (flow.log_suffix hnext) howned ?_ ?_
    (fun k f' seq hk => by cases hk) ?_ hunanswered.completed
  · rw [List.append_nil, hunanswered.responses]
    exact h.length
  · rw [hunanswered.responses]
  · rw [List.append_nil]
    exact h.distinct

/-- A flow steps, and the router claims a response for the message it was asked about. -/
theorem claimed (h : s.Traced) {f : Nat} {flow flow' : InboundPublishFlow}
    {action : InboundPublishFlow.Action} {received : Received} {response : ClaimedResponse}
    {dispatcher : RequestDispatcher} (hflow : s.flows[f]? = some flow)
    (hok : Uninterrupted flow action) (hconsulted : flow.consulted action = some received)
    (hnext : flow.step (action.withClaim (some s.dispatcher.responses.length)) = some flow')
    (hexclusive : Exclusive dispatcher) (hmessage : response.message = makeMessage received)
    (hresponses : dispatcher.responses = s.dispatcher.responses ++ [response])
    (hcompleted : ∀ i r, .completed i r ∈ dispatcher.log → .completed i r ∈ s.dispatcher.log) :
    ({ dispatcher, flows := s.flows.set f flow', origins := s.origins ++ [(f, received.seq)] } :
      ReplyRouting).Traced := by
  have hlt : f < s.flows.length := (List.getElem?_eq_some_iff.mp hflow).1
  have horderly := (h.orderly f flow hflow).step (flow.uninterrupted_withClaim _ hok) hnext
  have hasked : flow.consulted (action.withClaim (some s.dispatcher.responses.length)) =
      some received := (flow.consulted_withClaim _ _).trans hconsulted
  have hclaim : (action.withClaim (some s.dispatcher.responses.length)).claim =
      some s.dispatcher.responses.length := flow.claim_withClaim _ hconsulted
  have hroutes := flow.routes_of_claim hnext hasked hclaim
  have howned : flow'.OwnsClaims fun i seq =>
      (s.origins ++ [(f, received.seq)])[i]? = some (f, seq) := by
    refine ((h.owned f flow hflow).step hnext).mono fun i seq hor => ?_
    rw [TaskList.getElem?_append_iff]
    refine hor.imp_right fun hclaimed => ?_
    obtain ⟨other, hother, hi, rfl⟩ := hclaimed
    rw [hasked] at hother
    rw [hclaim] at hi
    cases hother
    cases hi
    exact ⟨h.length.symm, rfl⟩
  refine h.advance hflow hexclusive horderly (flow.log_suffix hnext) howned ?_ ?_ ?_ ?_ hcompleted
  · rw [hresponses, List.length_append, List.length_append, h.length]
    rfl
  · rw [hresponses]
    exact List.prefix_append _ _
  · intro k f' seq hk
    have hmem := List.mem_singleton.mp (List.mem_of_getElem? hk)
    have hzero : k = 0 := by
      have := (List.getElem?_eq_some_iff.mp hk).1
      simpa using this
    cases hmem
    subst hzero
    refine ⟨flow', received, response, List.getElem?_set_self hlt, rfl,
      (h.orderly f flow hflow).consulted_received hasked hnext, by omega, ?_, hmessage⟩
    change dispatcher.responses[s.origins.length + 0]? = some response
    rw [hresponses, TaskList.getElem?_append_iff]
    exact .inr ⟨h.length, rfl⟩
  · -- a second claim for the message would be its second routing
    refine List.nodup_append.mpr ⟨h.distinct, List.nodup_singleton _, fun o ho o' ho' heq => ?_⟩
    cases List.mem_singleton.mp ho'
    subst heq
    obtain ⟨i, hi⟩ := List.mem_iff_getElem?.mp ho
    obtain ⟨old, -, -, hold, -, -, hrouted, -⟩ := h.origins i f received.seq hi
    rw [hflow] at hold
    cases hold
    have hle := horderly.kept.routes_le_one received.seq
    omega

/-- A flow steps with the answer of the router. -/
theorem answered (h : s.Traced) {f : Nat} {flow flow' : InboundPublishFlow}
    {action : InboundPublishFlow.Action} (hflow : s.flows[f]? = some flow)
    (hok : Uninterrupted flow action)
    (hnext : flow.step (action.withClaim (s.ask (flow.consulted action)).2) = some flow') :
    ({ dispatcher := (s.ask (flow.consulted action)).1
       flows := s.flows.set f flow'
       origins := s.origins ++ claimedFrom f (flow.consulted action)
        (s.ask (flow.consulted action)).2 } : ReplyRouting).Traced := by
  cases hconsulted : flow.consulted action with
  | none =>
      rw [hconsulted] at hnext
      exact h.unclaimed hflow hok hnext h.exclusive (.same rfl rfl)
  | some received =>
      have hexclusive := h.exclusive.claim (makeMessage received)
      rw [hconsulted] at hnext
      rcases s.dispatcher.answer_cases (makeMessage received) with
        ⟨hunanswered, hnone⟩ | ⟨response, hmessage, hresponses, hsome, hcompleted⟩
      · have hask : (s.ask (some received)).2 = none := hnone
        rw [hask] at hnext ⊢
        exact h.unclaimed hflow hok hnext hexclusive hunanswered
      · have hask : (s.ask (some received)).2 = some s.dispatcher.responses.length := hsome
        rw [hask] at hnext ⊢
        exact h.claimed hflow hok hconsulted hnext hexclusive hmessage hresponses hcompleted

/-- **Step lemma.** -/
theorem step (h : s.Traced) {a : ReplyAction} (hok : s.Whole a) (hstep : s.step a = some next) :
    next.Traced := by
  cases a with
  | request action =>
      obtain ⟨hown, hmap⟩ := Option.ite_none_right_eq_some.mp hstep
      obtain ⟨dispatcher, hdispatcher, rfl⟩ := Option.map_eq_some_iff.mp hmap
      exact h.unanswered (h.exclusive.step hdispatcher) (.step hown hdispatcher)
  | connect config =>
      cases hstep
      have hbound := h.unanswered (h.exclusive.bind s.flows.length) (.bind _ _)
      exact hbound.connect config
  | inbound f action =>
      obtain ⟨flow, hflow, hmap⟩ := Option.bind_eq_some_iff.mp hstep
      obtain ⟨flow', hnext, rfl⟩ := Option.map_eq_some_iff.mp hmap
      have hlt : f < s.flows.length := (List.getElem?_eq_some_iff.mp hflow).1
      exact (h.answered hflow (hok flow hflow) hnext).deliverAll (List.getElem?_set_self hlt)
        fun i hi => flow.mem_delivered hi

theorem completed_of_source {r : Nat} {origin : Nat × Nat} (h : s.source r = some origin) :
    ∃ i, .completed i r ∈ s.dispatcher.log ∧ s.origins[i]? = some origin := by
  obtain ⟨event, hmem, hevent⟩ := List.exists_of_findSome?_eq_some h
  cases event with
  | completed i other =>
      obtain ⟨heq, horigin⟩ := Option.ite_none_right_eq_some.mp hevent
      exact ⟨i, heq ▸ hmem, horigin⟩
  | _ => cases hevent

theorem source_of_completed (h : s.Traced) {i r : Nat} {origin : Nat × Nat}
    (hmem : .completed i r ∈ s.dispatcher.log) (horigin : s.origins[i]? = some origin) :
    s.source r = some origin := by
  cases hsource : s.source r with
  | none =>
      have hnone := List.findSome?_eq_none_iff.mp hsource _ hmem
      simp [horigin] at hnone
  | some found =>
      obtain ⟨j, hj, hfound⟩ := completed_of_source hsource
      rw [Exclusive.completing_unique h.exclusive.log hj hmem, horigin] at hfound
      exact hfound.symm

end Traced

/-- **Every answer is one message that was received, and nobody else has that message.**  As
long as no flow is interrupted inside a delivery: a request that has its result got the
message of a PUBLISH that arrived on a connection of the client, with the topic and the
correlation data of the request; the message was put into no queue; and no two requests got
the same arrival. -/
theorem replies_routed_once (maxPendingRequests : Nat) (actions : List ReplyAction)
    (s : ReplyRouting)
    (hok : Transition.Along step Whole (start maxPendingRequests) actions)
    (hrun : Transition.run step (start maxPendingRequests) actions = some s) :
    (∀ r request message, s.dispatcher.requests[r]? = some request →
        request.future = .result message →
        ∃ f flow received, s.source r = some (f, received.seq) ∧ s.flows[f]? = some flow ∧
          .receivedPublish received ∈ flow.log ∧ message = makeMessage received ∧
          Answers message request.key ∧ ∀ oid detached, .put received.seq oid detached ∉ flow.log) ∧
      ∀ r r' origin, s.source r = some origin → s.source r' = some origin → r = r' := by
  have h : s.Traced := Transition.invariant_along (fun _ _ _ h hok hstep => h.step hok hstep)
    (.start maxPendingRequests) hok hrun
  constructor
  · intro r request message hrequest hresult
    obtain ⟨hanswers, i, response, hresponse, rfl, hcompleted⟩ :=
      h.exclusive.results r request message hrequest hresult
    obtain ⟨f, seq, flow, horigin, hflow, hdelivered⟩ := h.completed i r hcompleted
    obtain ⟨found, received, claimed, hfound, rfl, hreceived, -, hclaimed, hmessage⟩ :=
      h.origins i f seq horigin
    rw [hflow] at hfound
    rw [hresponse] at hclaimed
    cases hfound
    cases hclaimed
    exact ⟨f, flow, received, h.source_of_completed hcompleted horigin, hflow, hreceived, hmessage,
      hanswers, (h.orderly f flow hflow).not_put hdelivered⟩
  · intro r r' origin hr hr'
    obtain ⟨i, hi, horigin⟩ := Traced.completed_of_source hr
    obtain ⟨j, hj, horigin'⟩ := Traced.completed_of_source hr'
    have hlt : i < s.origins.length := (List.getElem?_eq_some_iff.mp horigin).1
    have hij : i = j := (List.getElem?_inj hlt h.distinct).mp (horigin.trans horigin'.symm)
    subst hij
    exact h.exclusive.completed_unique hi hj

/-- A reply to the request of the run below. -/
def sampleReply (pid : Int) : Publish :=
  { samplePublish .exactlyOnce pid with properties := some { correlationData := some [7] } }

/-- Of two replies with one key the first goes to the request, and the second to the
subscription that matches both. -/
def sampleReplies : List ReplyAction :=
  [.connect {}, .request (.register (str "t", [7])), .request (.acquire 0),
    .request (.readyDone 0 true), .request (.resume 0 true),
    .inbound 0 (.index (.add (str "t") sampleEntry)),
    .inbound 0 (.publish (sampleReply 7) none .done), .inbound 0 (.pubrel { packetId := 7 } .done),
    .inbound 0 (.publish (sampleReply 8) none .done), .inbound 0 (.pubrel { packetId := 8 } .done)]

theorem replies_routed_once_sample :
    ∃ s, Transition.run step (start 1) sampleReplies = some s ∧ s.source 0 = some (0, 1) ∧
      (∃ flow, s.flows[0]? = some flow ∧ .put 2 0 false ∈ flow.log) ∧
      ∀ r, s.source r = some (0, 1) → r = 0 := by
  have hrun : ∃ s, Transition.run step (start 1) sampleReplies = some s ∧
      s.source 0 = some (0, 1) ∧ ∃ flow, s.flows[0]? = some flow ∧ .put 2 0 false ∈ flow.log :=
    ⟨_, rfl, by decide, _, rfl, by decide⟩
  obtain ⟨s, hs, hsource, hput⟩ := hrun
  refine ⟨s, hs, hsource, hput, fun r hr => ?_⟩
  refine (replies_routed_once 1 sampleReplies s ?_ hs).2 r 0 (0, 1) hr hsource
  exact ⟨trivial, trivial, trivial, trivial, trivial, fun _ _ => trivial, fun _ _ => trivial,
    fun _ _ => trivial, fun _ _ => trivial, fun _ _ => trivial, trivial⟩

end ReplyRouting

end Zmqtt
