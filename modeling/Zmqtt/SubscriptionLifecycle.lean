import Zmqtt.EntryClaims
import Zmqtt.PacketIdOwnership
import Zmqtt.Transition

/-!
# Subscriptions of a client

`Subscription` objects of `client.py` on one connection: `start`, `stop`, the exit of
their context and `detach`, against the calls they make of the protocol engine.  The
client keeps its started subscriptions in a list, the engine their entries in its index,
and each object the filters that were registered for it.

A subscription is its place among the objects; so is its queue.  The flag `detached` of
an entry is kept here, by the identity of the entry.  Other tasks may run between the
end of a protocol call and the code of its caller, which is wider than in `asyncio`.
-/

namespace Zmqtt

/-- `Subscription`, without its queue. -/
structure Subscription where
  filters : List Str
  qos : QoS := .atMostOnce
  autoAck : Bool := true
  noLocal : Bool := false
  retainAsPublished : Bool := false
  retainHandling : RetainHandling := .sendOnSubscribe
  subscriptionIdentifier : Option Int := none
  registeredFilters : List Str := []
  detached : Bool := false
deriving DecidableEq, Repr

/-- The requests of `_do_subscribe`. -/
def Subscription.requests (sub : Subscription) : List SubscriptionRequest :=
  sub.filters.map fun topicFilter =>
    { topicFilter
      qos := sub.qos
      noLocal := sub.noLocal
      retainAsPublished := sub.retainAsPublished
      retainHandling := sub.retainHandling }

/-- A `start` or a `stop` in progress, with the protocol call it waits for. -/
structure SubscriptionTask where
  starts : Bool
  subscription : Nat
  call : Nat
deriving DecidableEq, Repr

/-- `MQTTClient` on one connection.  `objects` are all subscriptions that were created,
`subscriptions` those of `_subscriptions`. -/
structure SubscriptionClient where
  protocol : Connection
  objects : List Subscription := []
  subscriptions : List Nat := []
  tasks : List SubscriptionTask := []
  detachedEntries : List Nat := []

namespace SubscriptionClient

/-- The steps of the tasks of a client.  The exit of a context is a `stop`, `cancelled` if
its body was. -/
inductive Action
  | create (sub : Subscription)
  | start (i : Nat)
  | stop (i : Nat) (cancelled : Bool)
  | detach (i : Nat)
  | resume (t : Nat)
  | protocol (action : Connection.Action)

/-- A protocol call by a subscription. -/
def beginTask (s : SubscriptionClient) (starts : Bool) (i : Nat) (call : GuardedCall) :
    SubscriptionClient :=
  { s with
    protocol := s.protocol.addCall (.guards call (guardOrder call.filters))
    tasks := s.tasks ++ [⟨starts, i, s.protocol.calls.length⟩] }

/-- `__aenter__`, up to its first suspension.  A detached subscription raises. -/
def start (s : SubscriptionClient) (i : Nat) (sub : Subscription) : SubscriptionClient :=
  if sub.detached then s
  else { s with subscriptions := s.subscriptions ++ [i] }.beginTask true i
    (.subscribe sub.requests i sub.autoAck sub.subscriptionIdentifier)

/-- `_stop`, up to its first suspension. -/
def stop (s : SubscriptionClient) (i : Nat) (sub : Subscription) (cancelled : Bool) :
    SubscriptionClient :=
  if i ∉ s.subscriptions then s
  else
    let s := { s with subscriptions := s.subscriptions.erase i }
    if cancelled || sub.registeredFilters.isEmpty then s
    else s.beginTask false i (.unsubscribe sub.registeredFilters)

/-- The entries that `MQTTProtocol.detach` marks. -/
def detachedBy (s : SubscriptionClient) (filters : List Str) : List Nat :=
  filters.filterMap fun filter =>
    (OrderedDict.get s.protocol.entries filter).map SubscriptionEntry.oid

/-- `detach`. -/
def detach (s : SubscriptionClient) (i : Nat) (sub : Subscription) : SubscriptionClient :=
  if i ∉ s.subscriptions then s
  else
    { s with
      subscriptions := s.subscriptions.erase i
      objects := s.objects.modify i fun sub => { sub with detached := true }
      detachedEntries := s.detachedEntries ++ s.detachedBy sub.registeredFilters }

/-- The rest of `start` or `stop` once its protocol call has ended. -/
def resume (s : SubscriptionClient) (t : Nat) (task : SubscriptionTask) (outcome : Outcome) :
    SubscriptionClient :=
  let s := { s with tasks := s.tasks.eraseIdx t }
  match outcome with
  | .subscribed _ queues =>
      if task.starts then
        { s with objects := s.objects.modify task.subscription fun sub =>
            { sub with registeredFilters := queues } }
      else s
  | _ => s

/-- The calls that only a subscription makes. -/
def isOwn : Connection.Action → Bool
  | .call (.subscribe ..) => true
  | .call (.unsubscribe _) => true
  | _ => false

def step (s : SubscriptionClient) : Action → Option SubscriptionClient
  | .create sub =>
      some { s with objects := s.objects ++ [{ sub with registeredFilters := [], detached := false }] }
  | .start i => s.objects[i]?.map fun sub => s.start i sub
  | .stop i cancelled => s.objects[i]?.map fun sub => s.stop i sub cancelled
  | .detach i => s.objects[i]?.map fun sub => s.detach i sub
  | .resume t =>
      s.tasks[t]?.bind fun task =>
        s.protocol.calls[task.call]?.bind fun call =>
          match call.phase with
          | .finished outcome => some (s.resume t task outcome)
          | _ => none
  | .protocol action =>
      if isOwn action then none
      else (s.protocol.step action).map fun protocol => { s with protocol }

/-! ## Who answers for an entry -/

variable {s next : SubscriptionClient}

/-- A `start` of the subscription is in progress. -/
def isStarting (s : SubscriptionClient) (i : Nat) : Bool :=
  s.tasks.any fun task => task.starts && task.subscription == i

/-- The condition on a run: the exit of a cancelled body finds no registered filter; a
subscription is started only when it is not in the list, and leaves it only when no
`start` of it is in progress; and no protocol call is interrupted. -/
def orderly (s : SubscriptionClient) : Action → Bool
  | .start i => !s.subscriptions.contains i
  | .stop i cancelled =>
      !s.subscriptions.contains i || (!s.isStarting i &&
        (!cancelled || s.objects[i]?.all fun sub => sub.registeredFilters.isEmpty))
  | .detach i => !s.subscriptions.contains i || !s.isStarting i
  | .protocol action => s.protocol.undisturbed action
  | _ => true

/-- A listed subscription for which the filter is registered. -/
def Lists (s : SubscriptionClient) (filter : Str) (queue : Nat) : Prop :=
  queue ∈ s.subscriptions ∧ s.isStarting queue = false ∧
    ∃ sub, s.objects[queue]? = some sub ∧ filter ∈ sub.registeredFilters

/-- A task of the subscription is in progress, and its protocol call claims the filter. -/
def Handles (s : SubscriptionClient) (filter : Str) (queue : Nat) : Prop :=
  ∃ task ∈ s.tasks, task.subscription = queue ∧
    ∃ call : Call, s.protocol.calls[task.call]? = some call ∧
      call.phase.claims task.starts filter

/-- The invariant: every entry that is not detached is answered for. -/
structure Accounted (s : SubscriptionClient) : Prop where
  alive : s.protocol.dead = false
  guarded : s.protocol.Guarded
  indexed : s.protocol.Indexed
  known : ∀ task ∈ s.tasks, task.subscription < s.objects.length
  starting : ∀ task ∈ s.tasks, task.starts = true → task.subscription ∈ s.subscriptions
  single : s.tasks.Pairwise fun a b =>
    a.starts = true → b.starts = true → a.subscription ≠ b.subscription
  waiting : ∀ (c : Nat) (call : Call) filters queue autoAck identifier todo,
    s.protocol.calls[c]? = some call →
    call.phase = .guards (.subscribe filters queue autoAck identifier) todo →
    ∃ task ∈ s.tasks, task.starts = true ∧ task.subscription = queue ∧ task.call = c
  entries : ∀ filter entry, OrderedDict.get s.protocol.entries filter = some entry →
    entry.oid ∉ s.detachedEntries → s.Lists filter entry.queue ∨ s.Handles filter entry.queue

theorem isStarting_iff {i : Nat} :
    s.isStarting i = true ↔ ∃ task ∈ s.tasks, task.starts = true ∧ task.subscription = i := by
  simp [isStarting]

/-- **Protocol steps.** -/
theorem Accounted.protocol (h : s.Accounted) {action : Connection.Action} {protocol : Connection}
    (hown : isOwn action = false) (hquiet : s.protocol.undisturbed action = true)
    (hstep : s.protocol.step action = some protocol) :
    ({ s with protocol } : SubscriptionClient).Accounted := by
  have hclaimed := Connection.step_claimed h.guarded h.alive hquiet hstep
  have hexit : action ≠ .exit := by
    rintro rfl
    cases hquiet
  refine ⟨Connection.alive_step h.alive hexit hstep, h.guarded.step hstep, h.indexed.step hstep,
    h.known, h.starting, h.single, ?_, ?_⟩
  · intro c call filters queue autoAck identifier todo hcall hphase
    rcases hclaimed.guards c call _ todo hcall hphase with rfl | ⟨before, todo', hbefore, hphase'⟩
    · cases hown
    · exact h.waiting c before filters queue autoAck identifier todo' hbefore hphase'
  · intro filter entry hget hattached
    have hmem : filter ∈ OrderedDict.keys protocol.entries :=
      (OrderedDict.mem_keys_iff _ _).mpr ⟨entry, hget⟩
    rcases hclaimed.entries filter entry hget with
      hold | ⟨c, call, call', hcall, ⟨filters, autoAck, identifier, hphase⟩, hcall', hclaims⟩
    · refine (h.entries filter entry hold hattached).imp_right ?_
      rintro ⟨task, htask, hqueue, call, hcall, hclaims⟩
      exact ⟨task, htask, hqueue, hclaimed.claims task.call call task.starts filter hcall hclaims hmem⟩
    · -- a new entry belongs to the start whose call was let in
      obtain ⟨task, htask, hstarts, hqueue, rfl⟩ :=
        h.waiting c call filters entry.queue autoAck identifier [] hcall hphase
      refine Or.inr ⟨task, htask, hqueue, call', hcall', ?_⟩
      rw [hstarts]
      exact hclaims

/-- A new protocol call leaves the calls that are there. -/
theorem Handles.beginTask {filter : Str} {queue : Nat} (h : s.Handles filter queue)
    {subscriptions : List Nat} (starts : Bool) (i : Nat) (guarded : GuardedCall) :
    ({ s with subscriptions }.beginTask starts i guarded).Handles filter queue := by
  obtain ⟨task, htask, hqueue, call, hcall, hclaims⟩ := h
  refine ⟨task, List.mem_append_left _ htask, hqueue, call, ?_, hclaims⟩
  show (s.protocol.calls ++ _)[task.call]? = some call
  rw [List.getElem?_append_left (List.getElem?_eq_some_iff.mp hcall).1]
  exact hcall

/-- A subscription makes a protocol call and the list changes with it. -/
theorem Accounted.beginTask (h : s.Accounted) {subscriptions : List Nat} {starts : Bool} {i : Nat}
    {guarded : GuardedCall} (hknown : i < s.objects.length)
    (hlisted : ∀ task ∈ s.tasks, task.starts = true → task.subscription ∈ subscriptions)
    (hnew : starts = true → i ∈ subscriptions ∧ s.isStarting i = false)
    (hguarded : ∀ filters queue autoAck identifier,
      guarded = .subscribe filters queue autoAck identifier → starts = true ∧ queue = i)
    (hlists : ∀ filter queue, s.Lists filter queue →
      (queue ∈ subscriptions ∧ (starts = true → i ≠ queue)) ∨
        (starts = false ∧ i = queue ∧
          ∃ filters, guarded = .unsubscribe filters ∧ filter ∈ filters)) :
    ({ s with subscriptions }.beginTask starts i guarded).Accounted := by
  have hstep : s.protocol.step (.call guarded) =
      some (s.protocol.addCall (.guards guarded (guardOrder guarded.filters))) := rfl
  have hlast : (s.protocol.calls ++ [{ phase := .guards guarded (guardOrder guarded.filters) }] :
      List Call)[s.protocol.calls.length]? =
      some { phase := .guards guarded (guardOrder guarded.filters) } :=
    List.getElem?_concat_length
  refine ⟨h.alive, h.guarded.step hstep, h.indexed.step hstep, ?_, ?_, ?_, ?_, ?_⟩
  · intro task htask
    rcases List.mem_append.mp htask with htask | htask
    · exact h.known task htask
    · cases List.mem_singleton.mp htask
      exact hknown
  · intro task htask hstarts
    rcases List.mem_append.mp htask with htask | htask
    · exact hlisted task htask hstarts
    · cases List.mem_singleton.mp htask
      exact (hnew hstarts).1
  · refine List.pairwise_append.mpr ⟨h.single, List.pairwise_singleton _ _, ?_⟩
    intro task htask other hother hstarts hstarts' heq
    cases List.mem_singleton.mp hother
    have hstarting : s.isStarting i = true := isStarting_iff.mpr ⟨task, htask, hstarts, heq⟩
    rw [(hnew hstarts').2] at hstarting
    cases hstarting
  · intro c call filters queue autoAck identifier todo hcall hphase
    have hcall : (s.protocol.calls ++
        [{ phase := .guards guarded (guardOrder guarded.filters) }])[c]? = some call := hcall
    by_cases hlt : c < s.protocol.calls.length
    · rw [List.getElem?_append_left hlt] at hcall
      obtain ⟨task, htask, hfound⟩ :=
        h.waiting c call filters queue autoAck identifier todo hcall hphase
      exact ⟨task, List.mem_append_left _ htask, hfound⟩
    · have hc : c = s.protocol.calls.length := by
        have := (List.getElem?_eq_some_iff.mp hcall).1
        rw [List.length_append, List.length_singleton] at this
        omega
      subst hc
      rw [hlast] at hcall
      cases hcall
      cases hphase
      obtain ⟨rfl, rfl⟩ := hguarded _ _ _ _ rfl
      exact ⟨_, List.mem_append_right _ (List.mem_singleton_self _), rfl, rfl, rfl⟩
  · intro filter entry hget hattached
    rcases h.entries filter entry hget hattached with hlisted | hhandled
    · rcases hlists filter entry.queue hlisted with
        ⟨hqueue, hother⟩ | ⟨hstops, hqueue, filters, hf, hmem⟩
      · refine Or.inl ⟨hqueue, ?_, hlisted.2.2⟩
        have hbefore := hlisted.2.1
        rw [isStarting, List.any_eq_false] at hbefore ⊢
        intro task htask
        rcases List.mem_append.mp htask with htask | htask
        · exact hbefore task htask
        · cases List.mem_singleton.mp htask
          simp only [Bool.and_eq_true, beq_iff_eq, not_and]
          exact hother
      · refine Or.inr ⟨_, List.mem_append_right _ (List.mem_singleton_self _), hqueue, _, hlast, ?_⟩
        rw [hf, hstops]
        exact ⟨rfl, hmem⟩
    · exact Or.inr (hhandled.beginTask starts i guarded)

theorem Accounted.start (h : s.Accounted) {i : Nat} {sub : Subscription}
    (hsub : s.objects[i]? = some sub) (horder : s.orderly (.start i) = true) : (s.start i sub).Accounted := by
  have hi : i ∉ s.subscriptions := by simpa [orderly] using horder
  unfold SubscriptionClient.start
  split
  · exact h
  · refine h.beginTask (List.getElem?_eq_some_iff.mp hsub).1 ?_ ?_ ?_ ?_
    · exact fun task htask hstarts => List.mem_append_left _ (h.starting task htask hstarts)
    · refine fun _ => ⟨List.mem_append_right _ (List.mem_singleton_self i), ?_⟩
      by_contra hstarting
      rw [Bool.not_eq_false] at hstarting
      obtain ⟨task, htask, hstarts, rfl⟩ := isStarting_iff.mp hstarting
      exact hi (h.starting task htask hstarts)
    · intro filters queue autoAck identifier heq
      cases heq
      exact ⟨rfl, rfl⟩
    · intro filter queue hlists
      refine Or.inl ⟨List.mem_append_left _ hlists.1, fun _ heq => hi ?_⟩
      rw [heq]
      exact hlists.1

/-- A subscription leaves the list, and its entries are detached or there are none. -/
theorem Accounted.leave (h : s.Accounted) {i : Nat} (hstarting : s.isStarting i = false)
    (hprotocol : next.protocol = s.protocol) (htasks : next.tasks = s.tasks)
    (hsubscriptions : next.subscriptions = s.subscriptions.erase i)
    (hlength : next.objects.length = s.objects.length)
    (hobjects : ∀ (queue : Nat) (sub : Subscription), s.objects[queue]? = some sub →
      ∃ sub' : Subscription, next.objects[queue]? = some sub' ∧
        sub'.registeredFilters = sub.registeredFilters)
    (hdetached : s.detachedEntries ⊆ next.detachedEntries)
    (hleft : ∀ filter entry, OrderedDict.get s.protocol.entries filter = some entry →
      entry.oid ∉ next.detachedEntries → s.Lists filter entry.queue → entry.queue ≠ i) :
    next.Accounted := by
  have hsame : ∀ j, next.isStarting j = s.isStarting j := fun j => by rw [isStarting, htasks, isStarting]
  refine ⟨hprotocol ▸ h.alive, hprotocol ▸ h.guarded, hprotocol ▸ h.indexed, ?_, ?_,
    htasks ▸ h.single, ?_, ?_⟩
  · rw [htasks, hlength]
    exact h.known
  · rw [htasks, hsubscriptions]
    intro task htask hstarts
    refine (List.mem_erase_of_ne ?_).mpr (h.starting task htask hstarts)
    rintro rfl
    rw [isStarting_iff.mpr ⟨task, htask, hstarts, rfl⟩] at hstarting
    cases hstarting
  · rw [hprotocol, htasks]
    exact h.waiting
  · rw [hprotocol]
    intro filter entry hget hattached
    rcases h.entries filter entry hget (fun hmem => hattached (hdetached hmem)) with hlists | hhandles
    · have hne := hleft filter entry hget hattached hlists
      obtain ⟨hqueue, hnot, sub, hsub, hmem⟩ := hlists
      obtain ⟨sub', hsub', heq⟩ := hobjects _ sub hsub
      refine Or.inl ⟨?_, (hsame _).trans hnot, sub', hsub', heq ▸ hmem⟩
      rw [hsubscriptions]
      exact (List.mem_erase_of_ne hne).mpr hqueue
    · refine Or.inr ?_
      unfold Handles at hhandles ⊢
      rw [htasks, hprotocol]
      exact hhandles

theorem Accounted.stop (h : s.Accounted) {i : Nat} {sub : Subscription} {cancelled : Bool}
    (hsub : s.objects[i]? = some sub) (horder : s.orderly (.stop i cancelled) = true) :
    (s.stop i sub cancelled).Accounted := by
  unfold SubscriptionClient.stop
  by_cases hi : i ∈ s.subscriptions
  · rw [if_neg (not_not.mpr hi)]
    simp only [orderly, hi, List.contains_eq_mem, decide_true, Bool.not_true, Bool.false_or,
      Bool.and_eq_true, Bool.not_eq_true', Bool.or_eq_true, hsub, Option.all_some] at horder
    obtain ⟨hstarting, hcancelled⟩ := horder
    -- a filter that is registered for the subscription is among those of the object
    have hregistered : ∀ {filter : Str}, s.Lists filter i → filter ∈ sub.registeredFilters := by
      rintro filter ⟨-, -, other, hother, hmem⟩
      rw [hsub] at hother
      cases hother
      exact hmem
    simp only
    split
    · next hnone =>
        have hempty : sub.registeredFilters = [] := by
          simp only [Bool.or_eq_true, List.isEmpty_iff] at hnone hcancelled
          rcases hnone with hnone | hnone
          · exact hcancelled.resolve_left (by simp [hnone])
          · exact hnone
        refine h.leave hstarting rfl rfl rfl rfl (fun _ sub hsub => ⟨sub, hsub, rfl⟩)
          (List.Subset.refl _) ?_
        rintro filter entry - - hlists rfl
        rw [hempty] at hregistered
        exact absurd (hregistered hlists) List.not_mem_nil
    · refine h.beginTask (List.getElem?_eq_some_iff.mp hsub).1 ?_ (fun heq => by cases heq) (fun _ _ _ _ heq => by cases heq) ?_
      · intro task htask hstarts
        refine (List.mem_erase_of_ne ?_).mpr (h.starting task htask hstarts)
        rintro rfl
        rw [isStarting_iff.mpr ⟨task, htask, hstarts, rfl⟩] at hstarting
        cases hstarting
      · intro filter queue hlists
        by_cases hqueue : queue = i
        · subst hqueue
          exact Or.inr ⟨rfl, rfl, _, rfl, hregistered hlists⟩
        · exact Or.inl ⟨(List.mem_erase_of_ne hqueue).mpr hlists.1, fun heq => by cases heq⟩
  · rw [if_pos hi]
    exact h

theorem Accounted.detach (h : s.Accounted) {i : Nat} {sub : Subscription}
    (hsub : s.objects[i]? = some sub) (horder : s.orderly (.detach i) = true) :
    (s.detach i sub).Accounted := by
  unfold SubscriptionClient.detach
  by_cases hi : i ∈ s.subscriptions
  · rw [if_neg (not_not.mpr hi)]
    have hstarting : s.isStarting i = false := by simpa [orderly, hi] using horder
    refine h.leave hstarting rfl rfl rfl (List.length_modify _ _ _) ?_
      (List.subset_append_left _ _) ?_
    · intro queue other hother
      refine ⟨if i = queue then { other with detached := true } else other, ?_, ?_⟩
      · rw [List.getElem?_modify, hother]
        rfl
      · split <;> rfl
    · -- the entries of the subscription are marked
      rintro filter entry hget hattached ⟨-, -, other, hother, hmem⟩ rfl
      rw [hsub] at hother
      cases hother
      refine hattached (List.mem_append_right _ ?_)
      exact List.mem_filterMap.mpr ⟨filter, hmem, by rw [hget]; rfl⟩
  · rw [if_pos hi]
    exact h

/-- A task is the one at its place or is left when that is taken out. -/
theorem mem_or_eraseIdx {tasks : List SubscriptionTask} {t : Nat} {task other : SubscriptionTask}
    (htask : tasks[t]? = some task) (hother : other ∈ tasks) :
    other = task ∨ other ∈ tasks.eraseIdx t := by
  obtain ⟨i, hi⟩ := List.getElem?_of_mem hother
  by_cases heq : i = t
  · subst heq
    rw [htask] at hi
    exact Or.inl (Option.some.inj hi).symm
  · exact Or.inr (List.mem_eraseIdx_iff_getElem?.mpr ⟨i, heq, hi⟩)

/-- Once a start is over, no other start of its subscription is in progress. -/
theorem Accounted.other_start (h : s.Accounted) {t : Nat} {task : SubscriptionTask}
    (htask : s.tasks[t]? = some task) (hstarts : task.starts = true) :
    ∀ other ∈ s.tasks.eraseIdx t, other.starts = true →
      other.subscription ≠ task.subscription := by
  intro other hother hstarts' heq
  obtain ⟨i, hne, hi⟩ := List.mem_eraseIdx_iff_getElem?.mp hother
  obtain ⟨hlt, rfl⟩ := List.getElem?_eq_some_iff.mp hi
  obtain ⟨hlt', rfl⟩ := List.getElem?_eq_some_iff.mp htask
  have hpairs := List.pairwise_iff_getElem.mp h.single
  rcases Nat.lt_or_gt_of_ne hne with hless | hless
  · exact hpairs i t hlt hlt' hless hstarts' hstarts heq
  · exact hpairs t i hlt' hlt hless hstarts hstarts' heq.symm

/-- What the rest of a task leaves alone. -/
theorem resume_frame (s : SubscriptionClient) (t : Nat) (task : SubscriptionTask)
    (outcome : Outcome) :
    (s.resume t task outcome).protocol = s.protocol ∧
      (s.resume t task outcome).tasks = s.tasks.eraseIdx t ∧
      (s.resume t task outcome).subscriptions = s.subscriptions ∧
      (s.resume t task outcome).detachedEntries = s.detachedEntries ∧
      (s.resume t task outcome).objects.length = s.objects.length ∧
      ∀ queue, (task.starts = true → queue ≠ task.subscription) →
        (s.resume t task outcome).objects[queue]? = s.objects[queue]? := by
  unfold SubscriptionClient.resume
  simp only
  split
  · split
    · next hstarts =>
        refine ⟨rfl, rfl, rfl, rfl, List.length_modify _ _ _, fun queue hne => ?_⟩
        exact List.getElem?_modify_ne _ _ (Ne.symm (hne hstarts))
    · exact ⟨rfl, rfl, rfl, rfl, rfl, fun _ _ => rfl⟩
  · exact ⟨rfl, rfl, rfl, rfl, rfl, fun _ _ => rfl⟩

/-- The rest of a task whose protocol call has ended. -/
theorem Accounted.resume (h : s.Accounted) {t : Nat} {task : SubscriptionTask} {call : Call}
    {outcome : Outcome} (htask : s.tasks[t]? = some task)
    (hcall : s.protocol.calls[task.call]? = some call) (hphase : call.phase = .finished outcome) :
    (s.resume t task outcome).Accounted := by
  obtain ⟨hprotocol, htasks, hsubscriptions, hdetached, hlength, hobjects⟩ :=
    resume_frame s t task outcome
  have hmem : task ∈ s.tasks := List.mem_of_getElem? htask
  have hsub : s.tasks.eraseIdx t ⊆ s.tasks := (List.eraseIdx_sublist _ _).subset
  have hkept : ∀ queue, s.isStarting queue = false →
      (s.resume t task outcome).isStarting queue = false := by
    intro queue hnot
    rw [isStarting, List.any_eq_false] at hnot ⊢
    rw [htasks]
    exact fun other hother => hnot other (hsub hother)
  refine ⟨hprotocol ▸ h.alive, hprotocol ▸ h.guarded, hprotocol ▸ h.indexed, ?_, ?_, ?_, ?_, ?_⟩
  · rw [htasks, hlength]
    exact fun other hother => h.known other (hsub hother)
  · rw [htasks, hsubscriptions]
    exact fun other hother => h.starting other (hsub hother)
  · rw [htasks]
    exact h.single.sublist (List.eraseIdx_sublist _ _)
  · rw [hprotocol, htasks]
    intro c waiting filters queue autoAck identifier todo hwaiting hguards
    obtain ⟨other, hother, hstarts, hqueue, rfl⟩ :=
      h.waiting c waiting filters queue autoAck identifier todo hwaiting hguards
    refine ⟨other, (mem_or_eraseIdx htask hother).resolve_left ?_, hstarts, hqueue, rfl⟩
    rintro rfl
    rw [hcall] at hwaiting
    cases hwaiting
    rw [hphase] at hguards
    cases hguards
  · rw [hprotocol, hdetached]
    intro filter entry hget hattached
    rcases h.entries filter entry hget hattached with hlists | ⟨other, hother, hqueue, claiming, hclaiming, hclaims⟩
    · obtain ⟨hqueue, hnot, sub, hsub, hfilter⟩ := hlists
      refine Or.inl ⟨hsubscriptions ▸ hqueue, hkept _ hnot, sub, ?_, hfilter⟩
      rw [hobjects, hsub]
      rintro hstarts heq
      rw [isStarting_iff.mpr ⟨task, hmem, hstarts, heq.symm⟩] at hnot
      cases hnot
    · rcases mem_or_eraseIdx htask hother with rfl | hleft
      · -- the start has registered what it claimed
        rw [hcall] at hclaiming
        cases hclaiming
        rw [hphase] at hclaims
        cases outcome with
        | subscribed suback queues =>
            obtain ⟨hstarts, hfilter⟩ := hclaims
            refine Or.inl ⟨?_, ?_, ?_⟩
            · rw [hsubscriptions, ← hqueue]
              exact h.starting other hmem hstarts
            · rw [isStarting, htasks, List.any_eq_false]
              intro task' htask'
              simp only [Bool.and_eq_true, beq_iff_eq, not_and]
              rw [← hqueue]
              exact h.other_start htask hstarts task' htask'
            · rw [← hqueue]
              have hlt := h.known other hmem
              refine ⟨{ s.objects[other.subscription] with registeredFilters := queues }, ?_,
                hfilter⟩
              simp only [SubscriptionClient.resume, if_pos hstarts]
              rw [List.getElem?_modify_eq, List.getElem?_eq_getElem hlt]
              rfl
        | _ => exact hclaims.elim
      · refine Or.inr ⟨other, ?_, hqueue, claiming, ?_, hclaims⟩
        · rw [htasks]
          exact hleft
        · rw [hprotocol]
          exact hclaiming

theorem Accounted.create (h : s.Accounted) (sub : Subscription) :
    ({ s with objects := s.objects ++ [sub] } : SubscriptionClient).Accounted := by
  refine ⟨h.alive, h.guarded, h.indexed, ?_, h.starting, h.single, h.waiting, ?_⟩
  · intro task htask
    rw [List.length_append]
    exact Nat.lt_of_lt_of_le (h.known task htask) (Nat.le_add_right _ _)
  · intro filter entry hget hattached
    refine (h.entries filter entry hget hattached).imp_left ?_
    rintro ⟨hqueue, hnot, other, hother, hfilter⟩
    refine ⟨hqueue, hnot, other, ?_, hfilter⟩
    show (s.objects ++ [sub])[entry.queue]? = some other
    rw [List.getElem?_append_left (List.getElem?_eq_some_iff.mp hother).1]
    exact hother

/-- **Step.**  An orderly step keeps every entry answered for. -/
theorem Accounted.step (h : s.Accounted) {action : Action} (horder : s.orderly action = true)
    (hstep : s.step action = some next) : next.Accounted := by
  cases action with
  | create sub =>
      cases hstep
      exact h.create _
  | start i =>
      obtain ⟨sub, hsub, rfl⟩ := Option.map_eq_some_iff.mp hstep
      exact h.start hsub horder
  | stop i cancelled =>
      obtain ⟨sub, hsub, rfl⟩ := Option.map_eq_some_iff.mp hstep
      exact h.stop hsub horder
  | detach i =>
      obtain ⟨sub, hsub, rfl⟩ := Option.map_eq_some_iff.mp hstep
      exact h.detach hsub horder
  | resume t =>
      obtain ⟨task, htask, hstep⟩ := Option.bind_eq_some_iff.mp hstep
      obtain ⟨call, hcall, hstep⟩ := Option.bind_eq_some_iff.mp hstep
      split at hstep
      · next outcome hphase =>
          cases hstep
          exact h.resume htask hcall hphase
      · cases hstep
  | protocol action =>
      simp only [SubscriptionClient.step] at hstep
      split at hstep
      · cases hstep
      · next hown =>
          obtain ⟨protocol, hprotocol, rfl⟩ := Option.map_eq_some_iff.mp hstep
          exact h.protocol (Bool.eq_false_iff.mpr hown) horder hprotocol

/-- A client after its handshake. -/
def opened (version : Version) (strippedPrefixes : List Str) (maxPublishQos : QoS)
    (retainAvailable : Bool) : SubscriptionClient :=
  { protocol := Connection.opened version strippedPrefixes maxPublishQos retainAvailable }

theorem opened_accounted (version : Version) (strippedPrefixes : List Str) (maxPublishQos : QoS)
    (retainAvailable : Bool) :
    (opened version strippedPrefixes maxPublishQos retainAvailable).Accounted := by
  refine ⟨rfl, .of_no_calls rfl, ⟨[], SubscriptionIndex.empty_shows⟩, ?_, ?_, .nil, ?_, ?_⟩
  · intro _ hmem
    cases hmem
  · intro _ hmem
    cases hmem
  · intro _ _ _ _ _ _ _ hcall
    cases hcall
  · intro _ _ hget
    cases hget

end SubscriptionClient

end Zmqtt
