import Zmqtt.Detachment
import Zmqtt.Resubscription

/-!
# What a detachment keeps

Over every run in which `detach()` finds the entries it is to mark, the filters of a detached
subscription keep marked entries, on the connection of the `detach()` and on all later ones.
The subscription itself stays as it is: `start()` refuses it, the run loop passes over it, and
the subscribes of it that are still under way register nothing more.

Steps that leave the entries, the subscriptions and the inbound flow alone are treated
together; the others are taken one by one.
-/

namespace Zmqtt

/-- The filters of the detached subscription are known: it has registered no others, and no
subscribe under way does. -/
structure Detachment.Settled (d : Detachment) (client : Client) : Prop where
  object : ∃ sub, client.objects[d.subscription]? = some sub ∧ sub.detached = true ∧
    ∀ f ∈ sub.registeredFilters, f ∈ d.filters
  calls : ∀ call ∈ client.calls, call.starts = true → call.subscription = d.subscription →
    DetachRun.covers d.filters call.registered = true
  loop : ∀ registered pending, client.loop = .resubscribing d.subscription registered pending →
    DetachRun.covers d.filters registered = true

namespace DetachRun

/-- **The invariant.**  A message that no step looked up has left nothing but its arrival;
nor has one that matches only filters of a detached subscription, if it came after the
`detach()`. -/
structure Holds (s : DetachRun) : Prop where
  indexes : s.client.Indexes
  suppresses : ∀ d ∈ s.detachments, ∀ f ∈ d.filters, s.client.Suppresses f
  saves : ∀ d ∈ s.detachments, ∀ f ∈ d.filters, f ∈ OrderedDict.keys s.client.detachedFilters
  settled : ∀ d ∈ s.detachments, d.Settled s.client
  fresh : ∀ seq, 0 < seq → (∀ found ∈ s.lookups, found.received.seq ≠ seq) →
    s.client.inbound.Untouched seq
  calm : ∀ d ∈ s.detachments, ∀ seq, 0 < seq →
    (d.connection = s.client.connection → seq ∉ d.earlier) →
    (∀ found ∈ s.lookups, found.received.seq = seq →
      Only s.client.config.strippedPrefixes d.filters found) →
    s.client.inbound.Untouched seq ∧
      ∀ found ∈ s.lookups, found.received.seq = seq → found.answered = false

end DetachRun

/-! ## Steps of the client -/

/-- Entries, subscriptions and the inbound flow are the same, and the loop has not turned to a
detached subscription. -/
structure Client.Aside (s t : Client) : Prop where
  config : t.config = s.config
  objects : t.objects = s.objects
  detachedFilters : t.detachedFilters = s.detachedFilters
  connection : t.connection = s.connection
  inbound : t.inbound = s.inbound
  calls : t.calls = s.calls
  exit : t.run.exit = none → s.run.exit = none
  loop : ∀ i registered pending, t.loop = .resubscribing i registered pending →
    s.loop = .resubscribing i registered pending ∨ s.isDetached i = false

namespace Client

variable {s t u : Client} {d : Detachment}

/-- Nothing happens. -/
theorem Aside.refl (s : Client) : s.Aside s :=
  ⟨rfl, rfl, rfl, rfl, rfl, rfl, id, fun _ _ _ h => Or.inl h⟩

/-- An event changes none of this. -/
theorem Aside.emit (h : s.Aside t) (event : ClientEvent) : s.Aside (t.emit event) :=
  ⟨h.config, h.objects, h.detachedFilters, h.connection, h.inbound, h.calls, h.exit, h.loop⟩

/-- The loop turns to no subscription. -/
theorem Aside.setLoop (h : s.Aside t) {loop : LoopPhase} (hwaiting : loop.waiting = none) :
    s.Aside (t.setLoop loop) := by
  refine ⟨h.config, h.objects, h.detachedFilters, h.connection, h.inbound, h.calls, h.exit, ?_⟩
  intro i registered pending hloop
  have hloop : loop = .resubscribing i registered pending := hloop
  rw [hloop] at hwaiting
  cases registered <;> cases hwaiting

/-- Another state of the same run is none of this. -/
theorem Aside.setRun (h : s.Aside t) {run : ProtocolRun} (hrun : run.exit = t.run.exit) :
    s.Aside { t with run } :=
  ⟨h.config, h.objects, h.detachedFilters, h.connection, h.inbound, h.calls,
    fun hexit => h.exit (hrun.symm.trans hexit), h.loop⟩

/-- The `finally` of the loop leaves the subscriptions alone. -/
theorem aside_clean (s : Client) (error : Option RunError) : s.Aside (s.clean error) := by
  have hwaiting : (LoopPhase.cleaning error).waiting = none := rfl
  have hexit : (if s.run.exit.isSome then s.run else s.run.cancel).exit = s.run.exit := by
    split <;> rfl
  exact ((Aside.refl s).setRun hexit).setLoop hwaiting

/-- An exception in the loop leaves the subscriptions alone. -/
theorem aside_raiseInLoop (s : Client) (error : RunError) : s.Aside (s.raiseInLoop error) := by
  unfold raiseInLoop
  split
  · exact (Aside.refl s).setLoop rfl
  · exact aside_clean s _

/-- A restoration calls the observers only. -/
theorem aside_restoreFrom (s : Client) (pending : List Nat) : s.Aside (s.restoreFrom pending) := by
  induction pending with
  | nil => exact ((Aside.refl s).emit .restored).setLoop (waiting_restoreTopics s _)
  | cons i rest ih =>
      rw [restoreFrom]
      split
      · exact ih
      · rename_i hflag
        refine ⟨rfl, rfl, rfl, rfl, rfl, rfl, id, ?_⟩
        intro j registered pending hloop
        cases hloop
        exact Or.inr (by simpa using hflag)

/-- The loop goes on without a look at the subscriptions. -/
theorem aside_resume (hresume : s.resume = some t) : s.Aside t := by
  unfold resume at hresume
  split at hresume
  · split at hresume
    · cases hresume
      exact aside_restoreFrom s _
    · cases hresume
  · obtain ⟨error, -, rfl⟩ := Option.map_eq_some_iff.mp hresume
    exact aside_raiseInLoop s error
  · cases hresume
    exact aside_clean s none
  · split at hresume
    · cases hresume
    · split at hresume
      · cases hresume
        exact (Aside.refl s).setLoop rfl
      · cases hresume
        refine ⟨rfl, rfl, rfl, rfl, rfl, rfl, id, ?_⟩
        intro i registered pending hloop
        cases hloop
  · cases hresume

/-- The end of the observers leaves the subscriptions alone. -/
theorem aside_observed {error : Option RunError} (hobserved : s.observed error = some t) :
    s.Aside t := by
  obtain ⟨topic, pending, -, ⟨-, -, rfl⟩ | ⟨failure, -, -, rfl⟩⟩ := observed_cases hobserved
  · exact (Aside.refl s).setLoop (waiting_restoreTopics s _)
  · exact aside_raiseInLoop s failure

/-- A packet of another kind leaves the subscriptions alone. -/
theorem aside_packet (s : Client) (size : Nat) : s.Aside (s.packet size) := by
  unfold packet
  split
  · exact Aside.refl s
  · split
    · exact ((Aside.refl s).emit _).setRun rfl
    · exact Aside.refl s

/-! ## Detached subscriptions -/

end Client

namespace Detachment.Settled

variable {s t : Client} {d : Detachment}

/-- A settled detachment has marked its Subscription. -/
theorem isDetached (h : d.Settled s) : s.isDetached d.subscription = true := by
  obtain ⟨sub, hsub, hdetached, -⟩ := h.object
  rw [Client.isDetached, hsub, Option.any_some, hdetached]

/-- Steps outside keep a settled detachment. -/
theorem aside (h : d.Settled s) (hst : s.Aside t) : d.Settled t where
  object := by
    rw [hst.objects]
    exact h.object
  calls := by
    rw [hst.calls]
    exact h.calls
  loop registered pending hloop := by
    rcases hst.loop _ _ _ hloop with hold | hattached
    · exact h.loop registered pending hold
    · rw [h.isDetached] at hattached
      cases hattached

/-- The calls under way change, and no `start` of the detached subscription comes in. -/
theorem setCalls (h : d.Settled s) (hobjects : t.objects = s.objects) (hloop : t.loop = s.loop)
    (hcalls : ∀ call ∈ t.calls, call ∈ s.calls ∨ (call.starts = true →
      call.subscription = d.subscription → DetachRun.covers d.filters call.registered = true)) :
    d.Settled t where
  object := by
    rw [hobjects]
    exact h.object
  calls call hcall := (hcalls call hcall).elim (h.calls call) fun hnew => hnew
  loop := by
    rw [hloop]
    exact h.loop

/-- A call ends. -/
theorem eraseCall (h : d.Settled s) (hobjects : t.objects = s.objects) (hloop : t.loop = s.loop)
    {c : Nat} (hcalls : t.calls = s.calls.eraseIdx c) : d.Settled t := by
  refine h.setCalls hobjects hloop fun call hcall => Or.inl ?_
  rw [hcalls] at hcall
  exact List.mem_of_mem_eraseIdx hcall

/-- A Subscription gets filters that cover those of the detachment. -/
theorem setRegistered (h : d.Settled s) {i : Nat} {registered : List Str}
    (hi : i = d.subscription → DetachRun.covers d.filters (some registered) = true) :
    d.Settled (s.setRegistered i registered) where
  object := by
    obtain ⟨sub, hsub, hdetached, hfilters⟩ := h.object
    by_cases heq : i = d.subscription
    · subst heq
      refine ⟨{ sub with registeredFilters := registered }, ?_, hdetached, fun f hf => ?_⟩
      · exact (TaskList.getElem?_modify_iff hsub).mpr (Or.inl ⟨rfl, rfl⟩)
      · have hall := hi rfl
        simp only [DetachRun.covers, Option.any_some, List.all_eq_true] at hall
        simpa using hall f hf
    · refine ⟨sub, ?_, hdetached, hfilters⟩
      exact (List.getElem?_modify_ne _ _ heq).trans hsub
  calls := h.calls
  loop := h.loop

end Detachment.Settled

namespace Client

variable {s t : Client} {f : Str}

/-- The invariant of the index says nothing about the rest. -/
theorem Indexes.same (h : s.Indexes) (hconfig : t.config = s.config)
    (hsubscriptions : t.inbound.subscriptions = s.inbound.subscriptions)
    (hsaved : t.detachedFilters = s.detachedFilters)
    (hobjects : ∀ sub ∈ t.objects, ∀ f ∈ sub.filters, GrammarLevels (levels f)) : t.Indexes where
  shows := by
    rw [hsubscriptions]
    exact h.shows
  proper := by
    rw [hconfig, hsubscriptions]
    exact h.proper
  saved := by
    rw [hconfig, hsaved]
    exact h.saved
  valid := hobjects

/-- A subscription changes, and its filters do not. -/
theorem Indexes.valid_modify (h : s.Indexes) (i : Nat) {g : Subscription → Subscription}
    (hg : ∀ sub, (g sub).filters = sub.filters) :
    ∀ sub ∈ s.objects.modify i g, ∀ f ∈ sub.filters, GrammarLevels (levels f) := by
  intro sub hsub f hf
  obtain ⟨j, hj⟩ := List.mem_iff_getElem?.mp hsub
  by_cases heq : i = j
  · subst heq
    rw [List.getElem?_modify_eq] at hj
    obtain ⟨old, hold, rfl⟩ := Option.map_eq_some_iff.mp hj
    rw [hg] at hf
    exact h.valid old (List.mem_of_getElem? hold) f hf
  · rw [List.getElem?_modify_ne _ _ heq] at hj
    exact h.valid sub (List.mem_of_getElem? hj) f hf

/-- A filter stays suppressed while the index, the marks and the run do. -/
theorem Suppresses.same (h : s.Suppresses f)
    (hsubscriptions : t.inbound.subscriptions = s.inbound.subscriptions)
    (hdetached : t.inbound.detached = s.inbound.detached)
    (hexit : t.run.exit = none → s.run.exit = none) : t.Suppresses f where
  detached := by
    rw [hsubscriptions, hdetached]
    exact h.detached
  present hlive := by
    rw [hsubscriptions]
    exact h.present (hexit hlive)

end Client

namespace DetachRun

variable {s : DetachRun} {t u : Client}

/-! ## Steps that record nothing -/

/-- The next client keeps what the detachments of the run rest on. -/
structure Keeps (s : DetachRun) (t : Client) : Prop where
  indexes : t.Indexes
  config : t.config = s.client.config
  connection : t.connection = s.client.connection
  saved : t.detachedFilters = s.client.detachedFilters
  suppresses : ∀ f, s.isMarked f = true → s.client.Suppresses f → t.Suppresses f
  settled : ∀ d ∈ s.detachments, d.Settled t
  untouched : ∀ seq, s.client.inbound.Untouched seq → t.inbound.Untouched seq

/-- A filter of a detachment is marked. -/
theorem isMarked_of_mem {d : Detachment} (hd : d ∈ s.detachments) {f : Str} (hf : f ∈ d.filters) :
    s.isMarked f = true :=
  List.any_eq_true.mpr ⟨d, hd, List.contains_iff_mem.mpr hf⟩

/-- The state of the client itself keeps what the run has recorded. -/
theorem Holds.refl_keeps (h : s.Holds) : s.Keeps s.client :=
  ⟨h.indexes, rfl, rfl, rfl, fun _ _ hsuppresses => hsuppresses, h.settled,
    fun _ huntouched => huntouched⟩

/-- Subscriptions, calls and the loop change. -/
theorem Keeps.same (h : s.Keeps t) (hconfig : u.config = t.config)
    (hconnection : u.connection = t.connection) (hsaved : u.detachedFilters = t.detachedFilters)
    (hinbound : u.inbound = t.inbound) (hexit : u.run.exit = none → t.run.exit = none)
    (hobjects : ∀ sub ∈ u.objects, ∀ f ∈ sub.filters, GrammarLevels (levels f))
    (hsettled : ∀ d ∈ s.detachments, d.Settled t → d.Settled u) : s.Keeps u where
  indexes := h.indexes.same hconfig (by rw [hinbound]) hsaved hobjects
  config := hconfig.trans h.config
  connection := hconnection.trans h.connection
  saved := hsaved.trans h.saved
  suppresses f hf hsuppresses :=
    (h.suppresses f hf hsuppresses).same (by rw [hinbound]) (by rw [hinbound]) hexit
  settled d hd := hsettled d hd (h.settled d hd)
  untouched seq huntouched := by
    rw [hinbound]
    exact h.untouched seq huntouched

/-- Steps outside keep what the run has recorded. -/
theorem Keeps.aside (h : s.Keeps t) (htu : t.Aside u) : s.Keeps u := by
  refine h.same htu.config htu.connection htu.detachedFilters htu.inbound htu.exit ?_
    fun d _ hsettled => hsettled.aside htu
  rw [htu.objects]
  exact h.indexes.valid

/-- A call ends. -/
theorem Keeps.eraseCall (h : s.Keeps t) (c : Nat) :
    s.Keeps { t with calls := t.calls.eraseIdx c } :=
  h.same rfl rfl rfl rfl id h.indexes.valid fun _ _ hsettled => hsettled.eraseCall rfl rfl rfl

theorem Keeps.setRegistered (h : s.Keeps t) {i : Nat} {registered : List Str}
    (hcovers : ∀ d ∈ s.detachments, i = d.subscription →
      covers d.filters (some registered) = true) : s.Keeps (t.setRegistered i registered) :=
  h.same rfl rfl rfl rfl id (h.indexes.valid_modify i fun _ => rfl)
    fun d hd hsettled => hsettled.setRegistered (hcovers d hd)

/-- **A step that records nothing.** -/
theorem Holds.keeps (h : s.Holds) (ht : s.Keeps t) : Holds { s with client := t } where
  indexes := ht.indexes
  suppresses d hd f hf := ht.suppresses f (isMarked_of_mem hd hf) (h.suppresses d hd f hf)
  saves := by
    rw [ht.saved]
    exact h.saves
  settled := ht.settled
  fresh seq hpos hnone := ht.untouched seq (h.fresh seq hpos hnone)
  calm d hd seq hpos hlater honly := by
    simp only [ht.connection] at hlater
    simp only [ht.config] at honly
    obtain ⟨huntouched, hanswered⟩ := h.calm d hd seq hpos hlater honly
    exact ⟨ht.untouched seq huntouched, hanswered⟩

/-- A step that detaches nothing and looks nothing up. -/
theorem Holds.unrecorded (h : s.Holds) {action : Client.Action}
    (hdetachments : s.newDetachments action = []) (hlookups : s.newLookups action = [])
    (ht : s.Keeps t) : (s.record action t).Holds := by
  have hrecord : s.record action t = { s with client := t } := by
    simp only [record, hdetachments, hlookups, List.append_nil, if_pos ht.connection]
  rw [hrecord]
  exact h.keeps ht

/-- A new Subscription object. -/
theorem keeps_create (h : s.Holds) {sub : Subscription}
    (hvalid : ∀ f ∈ sub.filters, validateSubscribeTopic f = .ok ()) :
    s.Keeps
      { s.client with
        objects := s.client.objects ++
          [{ sub with registeredFilters := [], detached := false }] } := by
  refine h.refl_keeps.same rfl rfl rfl rfl id ?_ fun d hd hsettled => ?_
  · intro other hother f hf
    rcases List.mem_append.mp hother with hold | hnew
    · exact h.indexes.valid other hold f hf
    · cases List.mem_singleton.mp hnew
      exact ((validateSubscribeTopic_iff f).mp (hvalid f hf)).2.2
  · obtain ⟨old, hold, hrest⟩ := hsettled.object
    exact ⟨⟨old, TaskList.getElem?_append_iff.mpr (Or.inl hold), hrest⟩, hsettled.calls,
      hsettled.loop⟩

/-- `start()` refuses a detached subscription. -/
theorem keeps_start (h : s.Holds) {i : Nat} {sub : Subscription}
    (hsub : s.client.objects[i]? = some sub) : s.Keeps (s.client.start i sub) := by
  unfold Client.start
  split
  · exact h.refl_keeps.aside (((Client.Aside.refl _).emit _).emit _)
  · rename_i hopen
    refine h.refl_keeps.same rfl rfl rfl rfl id h.indexes.valid fun d hd hsettled => ?_
    refine hsettled.setCalls rfl rfl fun call hcall => ?_
    rcases List.mem_append.mp hcall with hold | hnew
    · exact Or.inl hold
    · refine Or.inr fun _ heq => ?_
      cases List.mem_singleton.mp hnew
      obtain ⟨old, hold, hdetached, -⟩ := hsettled.object
      rw [← heq, hsub] at hold
      cases hold
      simp [hdetached] at hopen

/-- `stop` of a Subscription. -/
theorem keeps_stop (h : s.Holds) (i : Nat) (sub : Subscription) (cancelled : Bool) :
    s.Keeps (s.client.stop i sub cancelled) := by
  unfold Client.stop
  split
  · exact h.refl_keeps.aside ((Client.Aside.refl _).emit _)
  · simp only
    split
    · refine h.refl_keeps.same rfl rfl rfl rfl id h.indexes.valid fun d hd hsettled => ?_
      exact hsettled.setCalls rfl rfl fun call hcall => Or.inl hcall
    · refine h.refl_keeps.same rfl rfl rfl rfl id h.indexes.valid fun d hd hsettled => ?_
      refine hsettled.setCalls rfl rfl fun call hcall => ?_
      rcases List.mem_append.mp hcall with hold | hnew
      · exact Or.inl hold
      · cases List.mem_singleton.mp hnew
        exact Or.inr fun hstarts => by cases hstarts

/-- What is removed is no marked filter. -/
theorem not_mem_of_keepsMarked {removed : List Str} (h : s.keepsMarked removed = true) {f : Str}
    (hf : s.isMarked f = true) : f ∉ removed := by
  intro hmem
  have hfree := List.all_eq_true.mp h f hmem
  rw [hf] at hfree
  cases hfree

/-- The entries of a new call enter the index, while the connection is live. -/
theorem keeps_register (h : s.Holds) {i : Nat} {sub : Subscription}
    (hsub : s.client.objects[i]? = some sub) (hlive : s.client.run.exit = none) :
    s.Keeps (s.client.register (s.client.newEntries i sub)) where
  indexes := h.indexes.register hsub
  config := rfl
  connection := rfl
  saved := rfl
  suppresses _ _ hsuppresses := hsuppresses.register hlive i sub
  settled d hd := ⟨(h.settled d hd).object, (h.settled d hd).calls, (h.settled d hd).loop⟩
  untouched _ huntouched := ⟨huntouched.log, huntouched.frames, huntouched.flights,
    huntouched.queued, huntouched.taken⟩

/-- Filters leave the index, none of them marked while the connection is live. -/
theorem keeps_unregister (h : s.Holds) {removed : List Str}
    (hfree : s.client.run.exit = none → s.keepsMarked removed = true) :
    s.Keeps (s.client.unregister removed) where
  indexes := h.indexes.unregister removed
  config := rfl
  connection := rfl
  saved := rfl
  suppresses _ hf hsuppresses :=
    hsuppresses.unregister fun hlive => not_mem_of_keepsMarked (hfree hlive) hf
  settled d hd := ⟨(h.settled d hd).object, (h.settled d hd).calls, (h.settled d hd).loop⟩
  untouched _ huntouched := ⟨huntouched.log, huntouched.frames, huntouched.flights,
    huntouched.queued, huntouched.taken⟩

/-- The end of a SUBSCRIBE: its entries stay, or are rolled back. -/
theorem keeps_endSubscribe (h : s.Holds) {i : Nat} {registered : List Str}
    {outcome : SubscribeOutcome}
    (hcovers : ∀ d ∈ s.detachments, i = d.subscription → covers d.filters (some registered) = true)
    (hfree : outcome.unregisters = true → s.client.run.exit = none →
      s.keepsMarked registered = true) :
    s.Keeps (s.client.endSubscribe i registered outcome) := by
  have hunregistered : s.Keeps
      (if outcome.unregisters then s.client.unregister registered else s.client) := by
    split
    · exact keeps_unregister h (hfree ‹_›)
    · exact h.refl_keeps
  unfold Client.endSubscribe
  simp only
  split
  · exact hunregistered.setRegistered hcovers
  · exact hunregistered

/-- A subscribe that waits for its guards is not one of a detached subscription. -/
theorem ne_of_waiting {d : Detachment} (hsettled : d.Settled s.client) {call : SubscriptionCall}
    (hcall : call ∈ s.client.calls) (hstarts : call.starts = true)
    (hnone : call.registered = none) : call.subscription ≠ d.subscription := by
  intro heq
  have hcovers := hsettled.calls call hcall hstarts heq
  rw [hnone] at hcovers
  cases hcovers

/-- A call is let in by its guard. -/
theorem keeps_letIn (h : s.Holds) {c : Nat} {call : SubscriptionCall}
    (hcall : s.client.calls[c]? = some call) (horderly : s.orderly (.letIn c) = true)
    (hletIn : s.client.letIn c call = some t) : s.Keeps t := by
  have hmem := List.mem_of_getElem? hcall
  unfold Client.letIn at hletIn
  split at hletIn
  · cases hletIn
  · rename_i hnone
    have hnone : call.registered = none := by simpa using hnone
    split at hletIn
    · rename_i hstarts halive
      have hlive : s.client.run.exit = none := by
        simp only [Client.alive, Bool.and_eq_true, Option.isNone_iff_eq_none] at halive
        exact halive.1.2
      obtain ⟨sub, hsub, rfl⟩ := Option.map_eq_some_iff.mp hletIn
      refine (keeps_register h hsub hlive).same rfl rfl rfl rfl id h.indexes.valid fun d hd hsettled => ?_
      have hne := ne_of_waiting (h.settled d hd) hmem hstarts hnone
      refine hsettled.setCalls rfl rfl fun other hother => ?_
      rcases List.mem_or_eq_of_mem_set hother with hold | rfl
      · exact Or.inl hold
      · exact Or.inr fun _ heq => absurd heq hne
    · cases hletIn
      exact (h.refl_keeps.aside ((Client.Aside.refl _).emit _)).eraseCall c
    · rename_i hstarts halive
      cases hletIn
      have hfree : s.keepsMarked call.filters = true := by
        simpa [orderly, hcall, hstarts, halive] using horderly
      refine (keeps_unregister h fun _ => hfree).same rfl rfl rfl rfl id h.indexes.valid fun d hd hsettled => ?_
      refine hsettled.setCalls rfl rfl fun other hother => ?_
      rcases List.mem_or_eq_of_mem_set hother with hold | rfl
      · exact Or.inl hold
      · exact Or.inr fun htrue => absurd (hstarts.symm.trans htrue) (by simp)
    · cases hletIn
      exact h.refl_keeps.eraseCall c

/-- A call gets its answer, or raises. -/
theorem keeps_finish (h : s.Holds) {c : Nat} {call : SubscriptionCall} {outcome : SubscribeOutcome}
    (hcall : s.client.calls[c]? = some call) (horderly : s.orderly (.finish c outcome) = true)
    (hfinish : s.client.finish c call outcome = some t) : s.Keeps t := by
  have hmem := List.mem_of_getElem? hcall
  unfold Client.finish at hfinish
  split at hfinish
  · rename_i hstarts
    obtain ⟨registered, hregistered, rfl⟩ := Option.map_eq_some_iff.mp hfinish
    have hcovers : ∀ d ∈ s.detachments, call.subscription = d.subscription →
        covers d.filters (some registered) = true := by
      intro d hd heq
      rw [← hregistered]
      exact (h.settled d hd).calls call hmem hstarts heq
    have hended : s.Keeps (if call.connection = s.client.connection then
          s.client.endSubscribe call.subscription registered outcome
        else if outcome.error.isNone then s.client.setRegistered call.subscription registered
        else s.client) := by
      split
      · rename_i hconnection
        refine keeps_endSubscribe h hcovers fun hunregisters hlive => ?_
        simpa [orderly, hcall, hstarts, hunregisters, hconnection, hregistered, hlive]
          using horderly
      · split
        · exact h.refl_keeps.setRegistered hcovers
        · exact h.refl_keeps
    have hleft : ∀ ended, s.Keeps ended → s.Keeps
        (if outcome.error.isNone then
          { ended.emit (.started call.subscription) with calls := ended.calls.eraseIdx c }
        else ended.failStart c call.subscription) := by
      intro ended hkeeps
      split
      · exact (hkeeps.aside ((Client.Aside.refl _).emit _)).eraseCall c
      · exact (hkeeps.aside ((Client.Aside.refl _).emit _)).eraseCall c
    exact hleft _ hended
  · cases hfinish
    exact h.refl_keeps.eraseCall c

/-- The client subscribes again on a new connection. -/
theorem keeps_resubscribe (h : s.Holds) (hresubscribe : s.client.resubscribe = some t) :
    s.Keeps t := by
  unfold Client.resubscribe at hresubscribe
  split at hresubscribe
  · rename_i i pending hloop
    split at hresubscribe
    · cases hresubscribe
      exact h.refl_keeps.aside (Client.aside_raiseInLoop _ _)
    · rename_i hlive
      have hlive : s.client.run.exit = none := by simpa using hlive
      obtain ⟨sub, hsub, rfl⟩ := Option.map_eq_some_iff.mp hresubscribe
      refine (keeps_register h hsub hlive).same rfl rfl rfl rfl id h.indexes.valid fun d hd hsettled => ?_
      refine ⟨hsettled.object, hsettled.calls, fun registered rest heq => ?_⟩
      cases heq
      exact absurd (hsettled.loop none pending hloop) (by simp [covers])
  · cases hresubscribe

/-- The end of the new SUBSCRIBE. -/
theorem keeps_endResubscribe (h : s.Holds) {outcome : SubscribeOutcome}
    (horderly : s.orderly (.endResubscribe outcome) = true)
    (hend : s.client.endResubscribe outcome = some t) : s.Keeps t := by
  obtain ⟨i, registered, pending, hloop, -, heq⟩ := Client.endResubscribe_cases hend
  have hended : s.Keeps (s.client.endSubscribe i registered outcome) := by
    refine keeps_endSubscribe h (fun d hd heq => ?_) fun hunregisters hlive => ?_
    · subst heq
      exact (h.settled d hd).loop _ _ hloop
    · simpa [orderly, hloop, hunregisters, hlive] using horderly
  split at heq
  · cases heq
    exact hended.aside (Client.aside_restoreFrom _ _)
  · cases heq
    exact hended.aside (Client.aside_raiseInLoop _ _)

/-- The end of a run keeps the detached filters for the next connection. -/
theorem keeps_exitRun (h : s.Holds) (hexit : s.client.exitRun = some t) : s.Keeps t := by
  obtain ⟨-, hexit⟩ := Option.ite_none_right_eq_some.mp hexit
  obtain ⟨error, -, rfl⟩ := Option.map_eq_some_iff.mp hexit
  have hpasses : ∀ seq, InboundPublishFlow.Passes seq s.client.inbound s.client.inbound.clear :=
    fun seq => InboundPublishFlow.passes_clear s.client.inbound
  exact
    { indexes := h.indexes.same rfl (hpasses 0).subscriptions rfl h.indexes.valid
      config := rfl
      connection := rfl
      saved := rfl
      suppresses := fun _ _ hsuppresses => hsuppresses.same (hpasses 0).subscriptions
        (hpasses 0).detached (fun hnone => by cases hnone)
      settled := fun d hd =>
        ⟨(h.settled d hd).object, (h.settled d hd).calls, (h.settled d hd).loop⟩
      untouched := fun seq huntouched => (hpasses seq).untouched huntouched }

end DetachRun

end Zmqtt
