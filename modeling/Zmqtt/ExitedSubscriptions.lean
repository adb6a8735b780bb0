import Zmqtt.ShutQueues
import Zmqtt.SubscriptionLifecycle

/-!
# Subscriptions that have exited

The subscriptions of a client together with the inbound flow that fills their queues.  The
flow reads the index of the connection and the flags of its entries; `detach` empties the
queue of its subscription.

`stop` removes the entries of the index and nothing else.  A delivery that has begun keeps
its entry: a QoS 2 flow up to its PUBREL, a task that waits in `queue.put` for as long as
the queue is full.  So a subscription that has exited takes no more messages when no such
delivery to it is open, and each of its entries is gone or detached.
-/

namespace Zmqtt

namespace SubscriptionClient

variable {s next : SubscriptionClient} {i : Nat}

/-- What a step leaves of a subscription that is not being started: no new entry leads to
its queue, its flags stay, and it is still not being started. -/
structure LeavesOut (s : SubscriptionClient) (i : Nat) (next : SubscriptionClient) : Prop where
  entries : ∀ filter entry, OrderedDict.get next.protocol.entries filter = some entry →
    entry.queue = i → OrderedDict.get s.protocol.entries filter = some entry
  detached : s.detachedEntries ⊆ next.detachedEntries
  starting : ∀ task ∈ next.tasks, task.starts = true → task.subscription ≠ i

/-- The connection is as it was, and the tasks that start are. -/
theorem LeavesOut.of_same (hidle : ∀ task ∈ s.tasks, task.starts = true → task.subscription ≠ i)
    (hentries : next.protocol.entries = s.protocol.entries)
    (hdetached : s.detachedEntries ⊆ next.detachedEntries)
    (htasks : ∀ task ∈ next.tasks, task ∈ s.tasks ∨ (task.starts = true → task.subscription ≠ i)) :
    s.LeavesOut i next := by
  refine ⟨fun filter entry hget _ => hentries ▸ hget, hdetached, fun task htask hstarts => ?_⟩
  rcases htasks task htask with hold | hnew
  · exact hidle task hold hstarts
  · exact hnew hstarts

/-- **One step** other than a `start` of the subscription. -/
theorem step_leavesOut (h : s.Accounted) {action : Action} (horder : s.orderly action = true)
    (hidle : ∀ task ∈ s.tasks, task.starts = true → task.subscription ≠ i)
    (hstart : action ≠ .start i) (hstep : s.step action = some next) : s.LeavesOut i next := by
  cases action with
  | create sub =>
      cases hstep
      exact .of_same hidle rfl (List.Subset.refl _) fun _ htask => Or.inl htask
  | start j =>
      obtain ⟨sub, -, rfl⟩ := Option.map_eq_some_iff.mp hstep
      unfold start
      split
      · exact .of_same hidle rfl (List.Subset.refl _) fun _ htask => Or.inl htask
      · refine .of_same hidle rfl (List.Subset.refl _) fun task htask => ?_
        refine (List.mem_append.mp htask).imp_right fun hnew => ?_
        cases List.mem_singleton.mp hnew
        rintro - rfl
        exact hstart rfl
  | stop j cancelled =>
      obtain ⟨sub, -, rfl⟩ := Option.map_eq_some_iff.mp hstep
      unfold stop
      split
      · exact .of_same hidle rfl (List.Subset.refl _) fun _ htask => Or.inl htask
      · simp only
        split
        · exact .of_same hidle rfl (List.Subset.refl _) fun _ htask => Or.inl htask
        · refine .of_same hidle rfl (List.Subset.refl _) fun task htask => ?_
          refine (List.mem_append.mp htask).imp_right fun hnew => ?_
          cases List.mem_singleton.mp hnew
          intro hstarts
          cases hstarts
  | detach j =>
      obtain ⟨sub, -, rfl⟩ := Option.map_eq_some_iff.mp hstep
      unfold detach
      split
      · exact .of_same hidle rfl (List.Subset.refl _) fun _ htask => Or.inl htask
      · exact .of_same hidle rfl (List.subset_append_left _ _) fun _ htask => Or.inl htask
  | resume t =>
      obtain ⟨task, -, hstep⟩ := Option.bind_eq_some_iff.mp hstep
      obtain ⟨call, -, hstep⟩ := Option.bind_eq_some_iff.mp hstep
      split at hstep
      · next outcome _ =>
          cases hstep
          have hframe : (s.resume t task outcome).protocol = s.protocol ∧
              (s.resume t task outcome).detachedEntries = s.detachedEntries ∧
              (s.resume t task outcome).tasks = s.tasks.eraseIdx t := by
            unfold resume
            simp only
            split
            · split <;> exact ⟨rfl, rfl, rfl⟩
            · exact ⟨rfl, rfl, rfl⟩
          refine .of_same hidle (by rw [hframe.1]) (hframe.2.1 ▸ List.Subset.refl _) fun other hother => ?_
          rw [hframe.2.2] at hother
          exact Or.inl ((List.eraseIdx_sublist _ _).subset hother)
      · cases hstep
  | protocol action =>
      simp only [SubscriptionClient.step] at hstep
      split at hstep
      · cases hstep
      · obtain ⟨protocol, hprotocol, rfl⟩ := Option.map_eq_some_iff.mp hstep
        have hclaimed := Connection.step_claimed h.guarded h.alive horder hprotocol
        refine ⟨fun filter entry hget hqueue => ?_, List.Subset.refl _, hidle⟩
        rcases hclaimed.entries filter entry hget with
          hold | ⟨c, call, -, hcall, ⟨filters, autoAck, identifier, hphase⟩, -, -⟩
        · exact hold
        · -- a new entry belongs to a start
          obtain ⟨task, htask, hstarts, hsubscription, -⟩ :=
            h.waiting c call filters entry.queue autoAck identifier [] hcall hphase
          exact absurd (hsubscription.trans hqueue) (hidle task htask hstarts)

/-- An entry that the index gives for a message is in it. -/
theorem Accounted.get_of_select (h : s.Accounted) {topic : Str} {item : IndexItem}
    (hselect : (s.protocol.state.subscriptions.select topic).recipient = some item ∨
      ∃ identifier, (s.protocol.state.subscriptions.selectByIdentifier topic
        identifier).recipient = some item) :
    OrderedDict.get s.protocol.entries item.1 = some item.2 := by
  obtain ⟨pairs, hshows⟩ := h.indexed
  have hmem : item ∈ s.protocol.entries := by
    rcases hselect with hselect | ⟨identifier, hselect⟩
    · exact hshows.mem_of_select hselect
    · exact hshows.mem_of_selectByIdentifier hselect
  have hnodup : (OrderedDict.keys s.protocol.entries).Nodup := by
    rw [Connection.entries, hshows.entries_eq]
    exact hshows.nodup
  exact OrderedDict.get_of_mem hnodup hmem

/-- Each entry of a subscription that has exited is detached. -/
theorem Accounted.detached_of_exited (h : s.Accounted) (hlisted : i ∉ s.subscriptions)
    (htasks : ∀ task ∈ s.tasks, task.subscription ≠ i) {filter : Str} {entry : SubscriptionEntry}
    (hget : OrderedDict.get s.protocol.entries filter = some entry) (hqueue : entry.queue = i) :
    entry.oid ∈ s.detachedEntries := by
  by_contra hattached
  rcases h.entries filter entry hget hattached with ⟨hmem, -⟩ | ⟨task, htask, hsubscription, -⟩
  · exact hlisted (hqueue ▸ hmem)
  · exact htasks task htask (hsubscription.trans hqueue)

end SubscriptionClient

/-! ## The queues -/

/-- The subscriptions of a client on one connection, and the flow of its messages. -/
structure ReceivingClient where
  client : SubscriptionClient
  flow : InboundPublishFlow

namespace ReceivingClient

inductive Action
  | client (action : SubscriptionClient.Action)
  | flow (action : InboundPublishFlow.Action)

/-- The read loop hands a packet to the outgoing half. -/
def receives : SubscriptionClient.Action → Bool
  | .protocol (.receive ..) => true
  | _ => false

/-- The flow with the index and the flags of the subscriptions. -/
def follow (flow : InboundPublishFlow) (client : SubscriptionClient) : InboundPublishFlow :=
  { flow with
    subscriptions := client.protocol.state.subscriptions
    detached := client.detachedEntries }

/-- `detach` takes all messages from the queue. -/
def emptied (s : ReceivingClient) : SubscriptionClient.Action → InboundPublishFlow
  | .detach i =>
      if i ∈ s.client.subscriptions then
        { s.flow with queued := s.flow.queued.filter fun item => item.1 ≠ i }
      else s.flow
  | _ => s.flow

def step (s : ReceivingClient) : Action → Option ReceivingClient
  | .client action =>
      if receives action && !s.flow.readerIdle then none
      else (s.client.step action).map fun client =>
        { client, flow := follow (s.emptied action) client }
  | .flow action =>
      if action.ofFlow then (s.flow.step action).map fun flow => { s with flow } else none

/-- The condition on a run. -/
def orderly (s : ReceivingClient) : Action → Bool
  | .client action => s.client.orderly action
  | .flow _ => true

/-- A `start` of the subscription. -/
def Action.starts (i : Nat) : Action → Bool
  | .client (.start j) => j == i
  | _ => false

/-- A client after its handshake. -/
def opened (version : Version) (strippedPrefixes : List Str) (maxPublishQos : QoS)
    (retainAvailable : Bool) (config : InboundPublishFlow.Config) : ReceivingClient :=
  let client := SubscriptionClient.opened version strippedPrefixes maxPublishQos retainAvailable
  { client, flow := follow (InboundPublishFlow.start config) client }

variable {s next : ReceivingClient} {i : Nat} {before : List (Nat × Message)}

/-- The subscriptions are answered for, and the flow sees their index and their flags. -/
structure Follows (s : ReceivingClient) : Prop where
  accounted : s.client.Accounted
  subscriptions : s.flow.subscriptions = s.client.protocol.state.subscriptions
  detached : s.flow.detached = s.client.detachedEntries

theorem Follows.step (h : s.Follows) {action : Action} (horder : s.orderly action = true)
    (hstep : s.step action = some next) : next.Follows := by
  cases action with
  | client action =>
      obtain ⟨-, hstep⟩ := Option.ite_none_left_eq_some.mp hstep
      obtain ⟨client, hclient, rfl⟩ := Option.map_eq_some_iff.mp hstep
      exact ⟨h.accounted.step horder hclient, rfl, rfl⟩
  | flow action =>
      obtain ⟨hflow, hstep⟩ := Option.ite_none_right_eq_some.mp hstep
      obtain ⟨flow, hnext, rfl⟩ := Option.map_eq_some_iff.mp hstep
      obtain ⟨hsubscriptions, hdetached⟩ := InboundPublishFlow.index_step hflow hnext
      exact ⟨h.accounted, hsubscriptions.trans h.subscriptions, hdetached.trans h.detached⟩

/-- The subscription is not being started, its entries are detached, and its queue is shut. -/
structure Silent (i : Nat) (before : List (Nat × Message)) (s : ReceivingClient) : Prop where
  accounted : s.client.Accounted
  starting : ∀ task ∈ s.client.tasks, task.starts = true → task.subscription ≠ i
  entries : ∀ filter entry, OrderedDict.get s.client.protocol.entries filter = some entry →
    entry.queue = i → entry.oid ∈ s.client.detachedEntries
  shut : s.flow.Shut s.client.protocol.state.subscriptions s.client.detachedEntries i before

theorem Silent.unlisted (h : s.Silent i before) :
    InboundPublishFlow.Unlisted s.client.protocol.state.subscriptions s.client.detachedEntries i :=
  fun _ item hselect hqueue =>
    h.entries item.1 item.2 (h.accounted.get_of_select hselect) hqueue

/-- A detach leaves the messages of the other queues. -/
theorem messagesIn_emptied (s : ReceivingClient) (action : SubscriptionClient.Action) :
    (s.emptied action).messagesIn i <:+ s.flow.messagesIn i := by
  unfold emptied
  split
  · rename_i j
    split
    · unfold InboundPublishFlow.messagesIn
      simp only [List.filter_filter]
      by_cases hij : j = i
      · subst hij
        have hnone : s.flow.queued.filter (fun item => decide (item.1 = j) && decide (item.1 ≠ j)) =
            [] := List.filter_eq_nil_iff.mpr fun item _ => by simp
        rw [hnone]
        exact List.nil_suffix
      · have hsame : s.flow.queued.filter (fun item => decide (item.1 = i) && decide (item.1 ≠ j)) =
            s.flow.queued.filter fun item => item.1 = i := by
          apply List.filter_congr
          intro item _
          by_cases hi : item.1 = i
          · simp [hi, Ne.symm hij]
          · simp [hi]
        rw [hsame]
    · exact List.suffix_refl _
  · exact List.suffix_refl _

/-- **Step lemma.**  Without a `start` of the subscription its queue stays shut. -/
theorem Silent.step (h : s.Silent i before) {action : Action} (horder : s.orderly action = true)
    (hstart : action.starts i = false) (hstep : s.step action = some next) :
    next.Silent i before := by
  cases action with
  | client action =>
      obtain ⟨-, hstep⟩ := Option.ite_none_left_eq_some.mp hstep
      obtain ⟨client, hclient, rfl⟩ := Option.map_eq_some_iff.mp hstep
      have hleaves := SubscriptionClient.step_leavesOut h.accounted horder h.starting
        (by rintro rfl; simp [Action.starts] at hstart) hclient
      refine ⟨h.accounted.step horder hclient, hleaves.starting, ?_, rfl, rfl, ?_, ?_⟩
      · intro filter entry hget hqueue
        exact hleaves.detached (h.entries filter entry (hleaves.entries filter entry hget hqueue) hqueue)
      · have hsuffix := s.messagesIn_emptied (i := i) action
        have hframe : (s.emptied action).inflightQos2In = s.flow.inflightQos2In ∧
            (s.emptied action).frames = s.flow.frames := by
          unfold emptied
          split
          · split <;> exact ⟨rfl, rfl⟩
          · exact ⟨rfl, rfl⟩
        refine InboundPublishFlow.isOpen_later h.shut.closed
          (fun item hitem => Or.inl (hframe.1 ▸ hitem)) (fun item hitem => Or.inl (hframe.2 ▸ hitem))
          (h.shut.detached ▸ hleaves.detached) fun hempty => ?_
        rw [hempty] at hsuffix
        exact List.eq_nil_of_suffix_nil hsuffix
      · exact (s.messagesIn_emptied action).trans h.shut.left
  | flow action =>
      obtain ⟨hflow, hstep⟩ := Option.ite_none_right_eq_some.mp hstep
      obtain ⟨flow, hnext, rfl⟩ := Option.map_eq_some_iff.mp hstep
      exact ⟨h.accounted, h.starting, h.entries, h.shut.step h.unlisted hflow hnext⟩

/-- The queue of a subscription that has exited, with no open delivery to it. -/
theorem Follows.silent (h : s.Follows) (hlisted : i ∉ s.client.subscriptions)
    (htasks : ∀ task ∈ s.client.tasks, task.subscription ≠ i) (hclosed : s.flow.isOpen i = false) :
    s.Silent i (s.flow.messagesIn i) :=
  ⟨h.accounted, fun task htask _ => htasks task htask,
    fun _ _ hget hqueue => h.accounted.detached_of_exited hlisted htasks hget hqueue,
    h.subscriptions, h.detached, hclosed, List.suffix_refl _⟩

theorem opened_follows (version : Version) (strippedPrefixes : List Str) (maxPublishQos : QoS)
    (retainAvailable : Bool) (config : InboundPublishFlow.Config) :
    (opened version strippedPrefixes maxPublishQos retainAvailable config).Follows :=
  ⟨SubscriptionClient.opened_accounted _ _ _ _, rfl, rfl⟩

end ReceivingClient

/-- **No orphaned entries.**  In every orderly run: whenever no `start` or `stop` is in
progress, every entry that is not detached belongs to a listed subscription, no message is
selected for the queue of another, and a filter that is neither detached nor registered
for a listed subscription is registered by the next subscription to it; and once a
subscription has exited and no delivery to it is open, the messages in its queue are only
taken until it is started again. -/
theorem no_orphaned_entries (version : Version) (strippedPrefixes : List Str)
    (maxPublishQos : QoS) (retainAvailable : Bool) (config : InboundPublishFlow.Config)
    (actions : List ReceivingClient.Action) (s : ReceivingClient)
    (hrun : Transition.run ReceivingClient.step
      (ReceivingClient.opened version strippedPrefixes maxPublishQos retainAvailable config)
        actions = some s)
    (horder : Transition.Along ReceivingClient.step (fun s action => s.orderly action = true)
      (ReceivingClient.opened version strippedPrefixes maxPublishQos retainAvailable config)
        actions) :
    (s.client.tasks = [] →
      (∀ filter entry, OrderedDict.get s.client.protocol.entries filter = some entry →
        entry.oid ∉ s.client.detachedEntries → entry.queue ∈ s.client.subscriptions) ∧
      (∀ topic item,
        ((s.client.protocol.state.subscriptions.select topic).recipient = some item ∨
          ∃ identifier, (s.client.protocol.state.subscriptions.selectByIdentifier topic
            identifier).recipient = some item) →
        item.2.oid ∉ s.client.detachedEntries → item.2.queue ∈ s.client.subscriptions) ∧
      (∀ (sub : Subscription) (i : Nat),
        (∀ filter ∈ sub.filters,
          (∀ entry, OrderedDict.get s.client.protocol.entries filter = some entry →
            entry.oid ∉ s.client.detachedEntries) ∧
          ∀ j ∈ s.client.subscriptions, ∀ other, s.client.objects[j]? = some other →
            filter ∉ other.registeredFilters) →
        ∀ filter ∈ sub.filters, filter ∈ OrderedDict.keys (s.client.protocol.newEntries
          sub.requests i sub.autoAck sub.subscriptionIdentifier).1)) ∧
    (∀ i, i ∉ s.client.subscriptions → (∀ task ∈ s.client.tasks, task.subscription ≠ i) →
      s.flow.isOpen i = false →
      ∀ more t, Transition.Along ReceivingClient.step
          (fun s action => s.orderly action = true ∧ action.starts i = false) s more →
        Transition.run ReceivingClient.step s more = some t →
        t.flow.messagesIn i <:+ s.flow.messagesIn i) := by
  have h : s.Follows := Transition.invariant_along (fun _ _ _ h horder hstep => h.step horder hstep)
    (ReceivingClient.opened_follows version strippedPrefixes maxPublishQos retainAvailable config)
    horder hrun
  refine ⟨fun hquiet => ?_, fun i hlisted htasks hclosed more t hmore hrest => ?_⟩
  · have hlists : ∀ filter entry, OrderedDict.get s.client.protocol.entries filter = some entry →
        entry.oid ∉ s.client.detachedEntries → s.client.Lists filter entry.queue := by
      intro filter entry hget hattached
      refine (h.accounted.entries filter entry hget hattached).resolve_right ?_
      rintro ⟨task, htask, -⟩
      rw [hquiet] at htask
      cases htask
    refine ⟨fun filter entry hget hattached => (hlists filter entry hget hattached).1, ?_, ?_⟩
    · intro topic item hselect hattached
      exact (hlists item.1 item.2 (h.accounted.get_of_select hselect) hattached).1
    · intro sub i hfree filter hfilter
      rw [Connection.mem_keys_newEntries]
      refine ⟨?_, fun hmem => ?_⟩
      · simpa [Subscription.requests, List.map_map, Function.comp_def] using hfilter
      · obtain ⟨entry, hget⟩ := (OrderedDict.mem_keys_iff _ _).mp hmem
        obtain ⟨hattached, hunlisted⟩ := hfree filter hfilter
        obtain ⟨hqueue, -, other, hother, hregistered⟩ :=
          hlists filter entry hget (hattached entry hget)
        exact hunlisted entry.queue hqueue other hother hregistered
  · have hsilent : t.Silent i (s.flow.messagesIn i) := Transition.invariant_along
      (fun _ _ _ h hok hstep => h.step hok.1 hok.2 hstep)
      (h.silent hlisted htasks hclosed) hmore hrest
    exact hsilent.shut.left

/-- The `start` of a new subscription, up to its return; `call` is its protocol call. -/
def sampleStart (filter : Str) (i call : Nat) : List ReceivingClient.Action :=
  [.client (.create { filters := [filter] }), .client (.start i),
    .client (.protocol (.acquireGuard call)), .client (.protocol (.enter call .done)),
    .client (.protocol (.receive (.suback { packetId := 1, returnCodes := [0] }) .done)),
    .client (.protocol (.resumeFuture call .done)), .client (.protocol (.resumeDrain call true)),
    .client (.resume 0)]

/-- A `stop` of the subscription, up to its return. -/
def sampleStop (i call : Nat) : List ReceivingClient.Action :=
  [.client (.stop i false), .client (.protocol (.acquireGuard call)),
    .client (.protocol (.enter call .done)),
    .client (.protocol (.receive (.unsuback { packetId := 1 }) .done)),
    .client (.protocol (.resumeFuture call .done)), .client (.resume 0)]

/-- Of two subscriptions the first one is stopped with a message in its queue. -/
def stoppedOne : List ReceivingClient.Action :=
  sampleStart (str "t") 0 0 ++ sampleStart (str "b") 1 1 ++
    [.flow (.publish (samplePublish .atLeastOnce 7) none .done)] ++ sampleStop 0 2

/-- Only the entry of the second is left, and the next message is not put in the queue. -/
theorem no_orphaned_entries_stopped_one :
    ∃ s t, Transition.run ReceivingClient.step
        (ReceivingClient.opened .v311 [] .exactlyOnce true {}) stoppedOne = some s ∧
      s.client.protocol.entries.map (fun item => (item.1, item.2.queue)) = [(str "b", 1)] ∧
      (∀ filter entry, OrderedDict.get s.client.protocol.entries filter = some entry →
        entry.oid ∉ s.client.detachedEntries → entry.queue ∈ s.client.subscriptions) ∧
      Transition.run ReceivingClient.step s
        [.flow (.publish (samplePublish .atLeastOnce 8) none .done)] = some t ∧
      t.flow.messagesIn 0 <:+ s.flow.messagesIn 0 := by
  have h := no_orphaned_entries .v311 [] .exactlyOnce true {} stoppedOne _ rfl (by decide)
  refine ⟨_, _, rfl, rfl, (h.1 rfl).1, rfl, ?_⟩
  exact h.2 0 (by decide) (by decide) rfl
    [.flow (.publish (samplePublish .atLeastOnce 8) none .done)] _ (by decide) rfl

/-- The body of a started subscription to `t` is cancelled: its exit leaves the entry of
the index behind, the next message on `t` is put in its queue, and a later subscription to
`t` registers nothing. -/
theorem cancelled_exit_leaves_entry :
    ∃ s entry, Transition.run ReceivingClient.step
        (ReceivingClient.opened .v311 [] .exactlyOnce true {})
        (sampleStart (str "t") 0 0 ++ [.client (.stop 0 true),
          .flow (.publish (samplePublish .atMostOnce 0) none .done)]) = some s ∧
      s.client.tasks = [] ∧ s.client.protocol.dead = false ∧
      OrderedDict.get s.client.protocol.entries (str "t") = some entry ∧
      entry.oid ∉ s.client.detachedEntries ∧ entry.queue ∉ s.client.subscriptions ∧
      (s.flow.messagesIn entry.queue).length = 1 ∧
      (s.client.protocol.newEntries [{ topicFilter := str "t", qos := .atMostOnce }] 1 true
        none).1 = [] :=
  ⟨_, _, rfl, rfl, rfl, rfl, by decide, by decide, rfl, rfl⟩

/-- A QoS 2 message is accepted before a `stop`: its PUBREL puts it in the queue of the
subscription that has exited. -/
theorem open_flight_fills_stopped_queue :
    ∃ s, Transition.run ReceivingClient.step
        (ReceivingClient.opened .v311 [] .exactlyOnce true {})
        (sampleStart (str "t") 0 0 ++
          [.flow (.publish (samplePublish .exactlyOnce 7) none .done)] ++ sampleStop 0 1 ++
          [.flow (.pubrel { packetId := 7 } .done)]) = some s ∧
      s.client.tasks = [] ∧ s.client.subscriptions = [] ∧ s.client.protocol.entries = [] ∧
      (s.flow.messagesIn 0).length = 1 :=
  ⟨_, rfl, rfl, rfl, rfl, rfl⟩

end Zmqtt
