import Zmqtt.ClientRun
import Zmqtt.Decorators
import Zmqtt.RefusedMessages

/-!
# Detached subscriptions over reconnections

`detach()` marks the entries that the installed protocol has for the registered filters of the
subscription, and saves them for the connections to come, on which `_connect` installs them
before the read loop starts.  So it works where the entries are there: before a connection is
lost, while the next one is made, and after the subscription was sent again.  From the
installation of the new protocol until then it finds nothing.  `_reconnect` passes over the
subscription, and after the grace period its messages are acknowledged as messages without a
subscriber.

The run of a client is recorded with the `detach()` calls that returned and with what the index
said each time a recipient was looked up.
-/

namespace Zmqtt

/-! ## The recorded run -/

/-- A recipient is looked up for a message: whether a request claims it, the filters of the
entries that match its topic or have its identifier, and whether it is answered with PUBREC as
a message whose flow is open. -/
structure Lookup where
  received : Received
  claimed : Bool
  filters : List Str
  answered : Bool
deriving DecidableEq, Repr

/-- A `detach()` that returned, with the filters registered at the time and the messages that
had arrived on the connection. -/
structure Detachment where
  subscription : Nat
  filters : List Str
  connection : Nat
  earlier : List Nat
deriving DecidableEq, Repr

/-- The filter by which an entry for a filter is matched. -/
def effectiveFilter (strippedPrefixes : List Str) (filter : Str) : Str :=
  let actual := sharedFilterToActual filter strippedPrefixes
  if actual = [] then filter else actual

namespace InboundPublishFlow

/-- The entry matches the topic of the message or has its identifier. -/
def concerns (publish : Publish) (item : IndexItem) : Bool :=
  topicMatches (actualFilter item) publish.topic ||
    (publish.properties.bind PublishProperties.subscriptionIdentifier).any fun identifier =>
      decide (item.2.subscriptionIdentifier = some identifier)

/-- The PUBLISH has the identifier of a QoS 2 flow that waits for PUBREL. -/
def repeats (s : InboundPublishFlow) : Action → Bool
  | .publish packet _ _ =>
      decide (packet.qos = .exactlyOnce) &&
        packet.packetId.any fun pid => (OrderedDict.get s.inflightQos2In pid).isSome
  | _ => false

/-- What a step looks up. -/
def lookup (s : InboundPublishFlow) (action : Action) : Option Lookup :=
  (s.lookedUp action).map fun item =>
    { received := item.1
      claimed := item.2.isSome
      filters := (s.subscriptions.entries.filter (concerns item.1.publish)).map Prod.fst
      answered := s.repeats action }

end InboundPublishFlow

/-- A client with its detachments and the lookups of the installed connection. -/
structure DetachRun where
  client : Client
  detachments : List Detachment := []
  lookups : List Lookup := []

namespace DetachRun

def newDetachments (s : DetachRun) : Client.Action → List Detachment
  | .detach i =>
      match s.client.objects[i]? with
      | some sub =>
          if i ∈ s.client.subscriptions ∧ s.client.closed = false then
            [{ subscription := i
               filters := sub.registeredFilters
               connection := s.client.connection
               earlier := s.lookups.map fun found => found.received.seq }]
          else []
      | none => []
  | _ => []

def newLookups (s : DetachRun) : Client.Action → List Lookup
  | .inbound action => (s.client.inbound.lookup action).toList
  | _ => []

def record (s : DetachRun) (action : Client.Action) (client : Client) : DetachRun where
  client
  detachments := s.detachments ++ s.newDetachments action
  lookups :=
    if client.connection = s.client.connection then s.lookups ++ s.newLookups action else []

/-- One step before `disconnect()`.  `MQTTClient.subscribe` validates the filters. -/
def step (s : DetachRun) : Client.Action → Option DetachRun
  | .disconnect => none
  | .create sub =>
      if sub.filters.all fun filter => decide (validateSubscribeTopic filter = .ok ()) then
        (s.client.step (.create sub)).map (s.record (.create sub))
      else none
  | action => (s.client.step action).map (s.record action)

/-- The client after its first connection. -/
def opened (config : ClientConfig) (sessionPresent : Bool) : DetachRun where
  client := Client.opened config sessionPresent

/-- The message was answered with PUBACK or with PUBREC: when it was accepted, when the
application acknowledged it, or because its flow is open. -/
def Acknowledged (s : DetachRun) (seq : Nat) : Prop :=
  (∃ pid, .sentPuback seq pid ∈ s.client.inbound.log) ∨
    (∃ later pid event earlier,
      s.client.inbound.log = later ++ .sentPubrec pid :: event :: earlier ∧
        (event = .acked seq ∨ ∃ pid', event = .accepted seq pid')) ∨
    ∃ found ∈ s.lookups, found.received.seq = seq ∧ found.answered = true

/-- The filters that the detached subscription has registered. -/
def registeredBy (s : DetachRun) (d : Detachment) : List Str :=
  d.filters ++ (s.client.objects[d.subscription]?).elim [] Subscription.registeredFilters

/-- The message matches filters, no others, and no pending request. -/
def Only (strippedPrefixes filters : List Str) (found : Lookup) : Prop :=
  found.claimed = false ∧
    (∃ f ∈ filters,
      topicMatches (effectiveFilter strippedPrefixes f) found.received.publish.topic = true) ∧
    ∀ f ∈ found.filters, f ∈ filters

instance (strippedPrefixes filters : List Str) (found : Lookup) :
    Decidable (Only strippedPrefixes filters found) :=
  inferInstanceAs (Decidable (_ ∧ _ ∧ _))

/-- No message that arrived on the installed connection after a `detach()`, and that matches
only filters of the detached subscription, was acknowledged.  The messages of a connection are
numbered from 1. -/
def Suppressed (s : DetachRun) : Prop :=
  ∀ d ∈ s.detachments, ∀ seq, 0 < seq →
    (d.connection = s.client.connection → seq ∉ d.earlier) →
    (∀ found ∈ s.lookups, found.received.seq = seq →
      Only s.client.config.strippedPrefixes (s.registeredBy d) found) →
    ¬s.Acknowledged seq

/-! ### The condition -/

/-- A filter that a detached subscription has registered. -/
def isMarked (s : DetachRun) (filter : Str) : Bool :=
  s.detachments.any fun d => d.filters.contains filter

/-- The filters of a subscribe in progress are known to be registered. -/
def covers (filters : List Str) (registered : Option (List Str)) : Bool :=
  registered.any fun registered => registered.all fun filter => filters.contains filter

/-- `detach()` finds an entry for every filter that the subscription has registered or is
registering. -/
def findsEntries (client : Client) (i : Nat) (sub : Subscription) : Bool :=
  sub.registeredFilters.all (fun filter => client.inbound.subscriptions.contains filter) &&
    client.calls.all (fun call => !call.starts || decide (call.subscription ≠ i) ||
      covers sub.registeredFilters call.registered) &&
    match client.loop with
    | .resubscribing j registered _ => decide (j ≠ i) || covers sub.registeredFilters registered
    | _ => true

/-- No entry of a detached filter is taken out of the index. -/
def keepsMarked (s : DetachRun) (removed : List Str) : Bool :=
  removed.all fun filter => !s.isMarked filter

/-- `detach()` finds its entries, nothing takes them out of the index of a connection whose `run`
has not ended, and no PUBLISH for a detached filter has the identifier of an open QoS 2 flow. -/
def orderly (s : DetachRun) : Client.Action → Bool
  | .detach i =>
      decide (i ∉ s.client.subscriptions) ||
        s.client.objects[i]?.all fun sub => findsEntries s.client i sub
  | .letIn c =>
      s.client.calls[c]?.all fun call =>
        call.starts || !s.client.alive call.connection || s.keepsMarked call.filters
  | .finish c outcome =>
      s.client.calls[c]?.all fun call =>
        !call.starts || !outcome.unregisters || decide (call.connection ≠ s.client.connection) ||
          s.client.run.exit.isSome || call.registered.all s.keepsMarked
  | .endResubscribe outcome =>
      match s.client.loop with
      | .resubscribing _ (some registered) _ =>
          !outcome.unregisters || s.client.run.exit.isSome || s.keepsMarked registered
      | _ => true
  | .inbound (.publish packet claim write) =>
      !s.client.inbound.repeats (.publish packet claim write) ||
        s.detachments.all fun d => d.filters.all fun filter =>
          !topicMatches (effectiveFilter s.client.config.strippedPrefixes filter) packet.topic
  | _ => true

end DetachRun

/-! ## The index -/

/-- An entry of a validated filter, as `_subscribe` makes it. -/
structure Proper (strippedPrefixes : List Str) (filter : Str) (entry : SubscriptionEntry) :
    Prop where
  actual : entry.actualFilter = sharedFilterToActual filter strippedPrefixes
  grammar : GrammarLevels (levels filter)

variable {strippedPrefixes : List Str}

theorem Proper.actualFilter_eq {filter : Str} {entry : SubscriptionEntry}
    (h : Proper strippedPrefixes filter entry) :
    actualFilter (filter, entry) = effectiveFilter strippedPrefixes filter := by
  simp only [actualFilter, effectiveFilter, h.actual]

theorem Proper.hashLast {filter : Str} {entry : SubscriptionEntry}
    (h : Proper strippedPrefixes filter entry) : hashLast (treeParts (filter, entry)) = true := by
  rw [treeParts, h.actualFilter_eq]
  simp only [effectiveFilter]
  split
  · exact hashLast_of_grammar h.grammar
  · obtain ⟨front, hfront⟩ := levels_sharedFilterToActual filter strippedPrefixes
    have hgrammar := h.grammar
    rw [hfront] at hgrammar
    exact hashLast_of_grammar hgrammar.of_append

namespace SubscriptionIndex

variable {index : SubscriptionIndex} {pairs : List IndexItem}

theorem selectFrom_recipient {candidates : List IndexItem} (h : candidates ≠ []) :
    ∃ item ∈ candidates, (selectFrom candidates).recipient = some item := by
  cases hselect : (selectFrom candidates).recipient with
  | some item => exact ⟨item, mem_of_selectFrom hselect, rfl⟩
  | none =>
      have hpicks := selectFrom_picks candidates
      exact absurd (hpicks.none_iff.mp hselect) h

/-- A recipient is an entry that concerns the message. -/
theorem Shows.recipient_concerns {flow : InboundPublishFlow} (h : flow.subscriptions.Shows pairs)
    (hhash : ∀ item ∈ pairs, hashLast (treeParts item) = true) {publish : Publish}
    {chosen : IndexItem} (hchosen : (flow.selectSubscription publish).recipient = some chosen) :
    chosen ∈ pairs ∧ InboundPublishFlow.concerns publish chosen = true := by
  have hselect : (flow.subscriptions.select publish.topic).recipient = some chosen →
      chosen ∈ pairs ∧ InboundPublishFlow.concerns publish chosen = true := by
    intro hrecipient
    rw [h.select_eq hhash] at hrecipient
    obtain ⟨hmem, htopic⟩ := List.mem_filter.mp (mem_of_selectFrom hrecipient)
    exact ⟨hmem, by rw [InboundPublishFlow.concerns, htopic, Bool.true_or]⟩
  unfold InboundPublishFlow.selectSubscription at hchosen
  cases hidentifier : publish.properties.bind PublishProperties.subscriptionIdentifier with
  | none =>
      rw [hidentifier] at hchosen
      exact hselect hchosen
  | some identifier =>
      rw [hidentifier] at hchosen
      simp only [selectByIdentifier] at hchosen
      -- the candidates are some of the entries with the identifier
      have hidentified : ∀ candidates : List IndexItem,
          (∀ item ∈ candidates, item ∈ flow.subscriptions.byIdentifier identifier) →
          (selectFrom candidates).recipient = some chosen →
          chosen ∈ pairs ∧ InboundPublishFlow.concerns publish chosen = true := by
        intro candidates hsubset hrecipient
        have hpair := hsubset chosen (mem_of_selectFrom hrecipient)
        rw [h.identifiers, List.mem_filter] at hpair
        refine ⟨hpair.1, ?_⟩
        rw [InboundPublishFlow.concerns, hidentifier, Option.any_some, hpair.2, Bool.or_true]
      split at hchosen
      · split at hchosen
        · exact hidentified _ (fun item hitem => (List.mem_filter.mp hitem).1) hchosen
        · exact hidentified _ (fun item hitem => hitem) hchosen
      · exact hselect hchosen

/-- A message that an entry matches has a recipient. -/
theorem Shows.exists_recipient {flow : InboundPublishFlow} (h : flow.subscriptions.Shows pairs)
    (hhash : ∀ item ∈ pairs, hashLast (treeParts item) = true) {publish : Publish}
    {item : IndexItem} (hitem : item ∈ pairs)
    (hmatches : topicMatches (actualFilter item) publish.topic = true) :
    ∃ chosen, (flow.selectSubscription publish).recipient = some chosen := by
  have hselect : ∃ chosen, (flow.subscriptions.select publish.topic).recipient = some chosen := by
    rw [h.select_eq hhash]
    have hne : (pairs.filter fun item => topicMatches (actualFilter item) publish.topic) ≠ [] :=
      List.ne_nil_of_mem (List.mem_filter.mpr ⟨hitem, hmatches⟩)
    obtain ⟨chosen, -, hrecipient⟩ := selectFrom_recipient hne
    exact ⟨chosen, hrecipient⟩
  unfold InboundPublishFlow.selectSubscription
  cases publish.properties.bind PublishProperties.subscriptionIdentifier with
  | none => exact hselect
  | some identifier =>
      simp only [selectByIdentifier]
      split
      · split
        · obtain ⟨chosen, -, hrecipient⟩ := selectFrom_recipient ‹_›
          exact ⟨chosen, hrecipient⟩
        · obtain ⟨chosen, -, hrecipient⟩ := selectFrom_recipient ‹_›
          exact ⟨chosen, hrecipient⟩
      · exact hselect

theorem get_addMany_of_not_mem {items : List IndexItem} {filter : Str}
    (h : filter ∉ items.map Prod.fst) :
    OrderedDict.get (index.addMany items).entries filter =
      OrderedDict.get index.entries filter := by
  unfold addMany
  induction items generalizing index with
  | nil => rfl
  | cons item rest ih =>
      rw [List.map_cons, List.mem_cons, not_or] at h
      rw [List.foldl_cons, ih h.2, get_add, if_neg (Ne.symm h.1)]

end SubscriptionIndex

/-- What a client keeps of its entries: the index answers by them, and all that are registered
or saved are proper. -/
structure Client.Indexes (client : Client) : Prop where
  shows : ∃ pairs, client.inbound.subscriptions.Shows pairs
  proper : ∀ f entry, OrderedDict.get client.inbound.subscriptions.entries f = some entry →
    Proper client.config.strippedPrefixes f entry
  saved : ∀ item ∈ client.detachedFilters, Proper client.config.strippedPrefixes item.1 item.2
  valid : ∀ sub ∈ client.objects, ∀ f ∈ sub.filters, GrammarLevels (levels f)

/-- The filter has no entry that is not detached, and an entry until `run` has ended. -/
structure Client.Suppresses (client : Client) (filter : Str) : Prop where
  detached : ∀ entry, OrderedDict.get client.inbound.subscriptions.entries filter = some entry →
    entry.oid ∈ client.inbound.detached
  present : client.run.exit = none → client.inbound.subscriptions.contains filter = true

/-- A message that matches only suppressed filters has a detached recipient, or none. -/
theorem Client.Indexes.recipient_detached {client : Client} {filters : List Str}
    {action : InboundPublishFlow.Action} {received : Received} {claim : Option Nat}
    {found : Lookup} (h : client.Indexes) (hsuppresses : ∀ f ∈ filters, client.Suppresses f)
    (hlooked : client.inbound.lookedUp action = some (received, claim))
    (hfound : client.inbound.lookup action = some found)
    (honly : DetachRun.Only client.config.strippedPrefixes filters found) :
    client.inbound.Refuses received claim ∨
      client.inbound.PassesOver received claim ∧ client.run.exit ≠ none := by
  obtain ⟨pairs, hshows⟩ := h.shows
  have hpairs : ∀ item ∈ pairs,
      OrderedDict.get client.inbound.subscriptions.entries item.1 = some item.2 := by
    intro item hitem
    rw [hshows.entries_eq]
    exact OrderedDict.get_of_mem hshows.nodup hitem
  have hhash : ∀ item ∈ pairs, hashLast (treeParts item) = true := fun item hitem =>
    (h.proper item.1 item.2 (hpairs item hitem)).hashLast
  simp only [InboundPublishFlow.lookup, hlooked, Option.map_some, Option.some.injEq] at hfound
  subst hfound
  obtain ⟨hclaimed, ⟨f, hf, hmatches⟩, hothers⟩ := honly
  have hclaim : claim = none := by simpa using hclaimed
  cases hrecipient : (client.inbound.selectSubscription received.publish).recipient with
  | some chosen =>
      obtain ⟨hchosen, hconcerns⟩ := hshows.recipient_concerns hhash hrecipient
      have hfilter : chosen.1 ∈ filters := by
        apply hothers
        rw [hshows.entries_eq]
        exact List.mem_map.mpr ⟨chosen, List.mem_filter.mpr ⟨hchosen, hconcerns⟩, rfl⟩
      exact Or.inl ⟨hclaim, chosen, hrecipient,
        (hsuppresses chosen.1 hfilter).detached chosen.2 (hpairs chosen hchosen)⟩
  | none =>
      refine Or.inr ⟨⟨hclaim, hrecipient⟩, fun hlive => ?_⟩
      -- until `run` has ended the filter has its entry, which matches
      obtain ⟨entry, hget⟩ := Option.isSome_iff_exists.mp ((hsuppresses f hf).present hlive)
      have hmem : (f, entry) ∈ pairs := by
        rw [← hshows.entries_eq]
        exact OrderedDict.mem_of_get hget
      rw [← (h.proper f entry hget).actualFilter_eq] at hmatches
      obtain ⟨chosen, hchosen⟩ := hshows.exists_recipient hhash hmem hmatches
      rw [hrecipient] at hchosen
      cases hchosen

namespace Client

variable {s : Client}

theorem mem_newEntries {i : Nat} {sub : Subscription} {item : IndexItem}
    (h : item ∈ (s.newEntries i sub).1) :
    item.1 ∈ sub.filters ∧ s.inbound.subscriptions.contains item.1 = false ∧
      item.2.actualFilter = sharedFilterToActual item.1 s.config.strippedPrefixes := by
  refine List.foldlRecOn
    (motive := fun acc : List IndexItem × Nat => ∀ item ∈ acc.1, item.1 ∈ sub.filters ∧
      s.inbound.subscriptions.contains item.1 = false ∧
        item.2.actualFilter = sharedFilterToActual item.1 s.config.strippedPrefixes)
    sub.filters _ ?_ ?_ item h
  · intro item hitem
    cases hitem
  · intro acc hacc filter hfilter item hitem
    by_cases hcontains : s.inbound.subscriptions.contains filter = true
    · rw [if_pos hcontains] at hitem
      exact hacc item hitem
    · rw [if_neg hcontains] at hitem
      rcases OrderedDict.mem_of_mem_set hitem with hold | rfl
      · exact hacc item hold
      · exact ⟨hfilter, by simpa using hcontains, rfl⟩

theorem Suppresses.register {f : Str} (h : s.Suppresses f) (hlive : s.run.exit = none) (i : Nat)
    (sub : Subscription) : (s.register (s.newEntries i sub)).Suppresses f := by
  have hcontains := h.present hlive
  have hget : OrderedDict.get
      (s.register (s.newEntries i sub)).inbound.subscriptions.entries f =
      OrderedDict.get s.inbound.subscriptions.entries f := by
    apply SubscriptionIndex.get_addMany_of_not_mem
    intro hmem
    obtain ⟨item, hitem, rfl⟩ := List.mem_map.mp hmem
    rw [(mem_newEntries hitem).2.1] at hcontains
    cases hcontains
  refine ⟨fun entry hentry => h.detached entry (hget ▸ hentry), fun _ => ?_⟩
  rw [SubscriptionIndex.contains, hget]
  exact hcontains

/-- Entries are removed, others or of a connection whose `run` has ended. -/
theorem Suppresses.unregister {f : Str} (h : s.Suppresses f) {filters : List Str}
    (hf : s.run.exit = none → f ∉ filters) : (s.unregister filters).Suppresses f := by
  have hget : OrderedDict.get (s.unregister filters).inbound.subscriptions.entries f =
      if f ∈ filters then none else OrderedDict.get s.inbound.subscriptions.entries f :=
    SubscriptionIndex.get_removeMany filters _ f
  refine ⟨fun entry hentry => ?_, fun hlive => ?_⟩
  · rw [hget] at hentry
    split at hentry
    · cases hentry
    · exact h.detached entry hentry
  · rw [SubscriptionIndex.contains, hget, if_neg (hf hlive)]
    exact h.present hlive

theorem Indexes.register (h : s.Indexes) {i : Nat} {sub : Subscription}
    (hsub : s.objects[i]? = some sub) : (s.register (s.newEntries i sub)).Indexes where
  shows := by
    obtain ⟨pairs, hshows⟩ := h.shows
    exact ⟨_, hshows.addMany _⟩
  proper f entry hget := by
    rcases SubscriptionIndex.mem_of_get_addMany hget with hnew | hold
    · obtain ⟨hfilter, -, hactual⟩ := mem_newEntries hnew
      exact ⟨hactual, h.valid sub (List.mem_of_getElem? hsub) f hfilter⟩
    · exact h.proper f entry hold
  saved := h.saved
  valid := h.valid

theorem Indexes.unregister (h : s.Indexes) (filters : List Str) :
    (s.unregister filters).Indexes where
  shows := (Connection.IndexChange.removeMany _ filters).shows h.shows
  proper f entry hget := by
    have hget : OrderedDict.get (s.inbound.subscriptions.removeMany filters).entries f =
        some entry := hget
    rw [SubscriptionIndex.get_removeMany] at hget
    split at hget
    · cases hget
    · exact h.proper f entry hget
  saved := h.saved
  valid := h.valid

end Client

end Zmqtt
