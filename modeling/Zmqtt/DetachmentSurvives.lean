import Zmqtt.DetachedRuns

/-!
# Detachment over reconnections

A new connection starts with the saved entries of the detached filters, so `detach()` has its
effect there too, and a message for such a filter is refused.  The exception is a `detach()`
between the installation of a connection and the re-subscription: it finds no entry, saves
nothing, and takes the re-subscription away.
-/

namespace Zmqtt

namespace DetachRun

variable {s : DetachRun} {t : Client}

/-! ## A new connection -/

/-- Of the messages of a new connection there is nothing yet. -/
theorem untouched_openFlow (config : ClientConfig) (sessionPresent : Bool)
    (restored : List IndexItem) {queued : List (Nat × Message)} {seq : Nat}
    (hqueued : ∀ item ∈ queued, item.2.seq ≠ seq) : InboundPublishFlow.Untouched seq
      { Client.openFlow config sessionPresent restored with queued } where
  log _ hevent := by cases hevent
  frames _ hitem := by cases hitem
  flights _ hitem := by cases hitem
  queued := hqueued
  taken _ hmessage := by cases hmessage

/-- What is left in the queues has number 0. -/
theorem untouched_install (client : Client) (sessionPresent : Bool) (pending : List Nat) {seq : Nat}
    (hpos : 0 < seq) : (client.install sessionPresent pending).inbound.Untouched seq := by
  refine untouched_openFlow _ _ _ fun item hitem => ?_
  obtain ⟨old, -, rfl⟩ := List.mem_map.mp hitem
  exact Nat.ne_of_lt hpos

theorem Holds.install (h : s.Holds) (sessionPresent : Bool) (pending : List Nat) :
    Holds { s with client := s.client.install sessionPresent pending, lookups := [] } where
  indexes :=
    { shows := ⟨_, SubscriptionIndex.empty_shows.addMany _⟩
      proper := fun f entry hget => by
        rcases SubscriptionIndex.mem_of_get_addMany hget with hmem | hnone
        · exact h.indexes.saved (f, entry) hmem
        · cases hnone
      saved := h.indexes.saved
      valid := h.indexes.valid }
  suppresses d hd f hf :=
    { detached := fun entry hget => by
        rcases SubscriptionIndex.mem_of_get_addMany hget with hmem | hnone
        · exact List.mem_map.mpr ⟨(f, entry), hmem, rfl⟩
        · cases hnone
      present := fun _ => by
        have hkey : f ∈ OrderedDict.keys
            (SubscriptionIndex.addMany {} s.client.detachedFilters).entries :=
          (SubscriptionIndex.mem_keys_addMany _ _).mpr (Or.inl (h.saves d hd f hf))
        exact Option.isSome_iff_exists.mpr ((OrderedDict.mem_keys_iff _ _).mp hkey) }
  saves := h.saves
  settled d hd := ⟨(h.settled d hd).object, (h.settled d hd).calls, fun _ _ hloop => by cases hloop⟩
  fresh seq hpos _ := untouched_install s.client sessionPresent pending hpos
  calm d hd seq hpos _ _ :=
    ⟨untouched_install s.client sessionPresent pending hpos, fun _ hfound => by cases hfound⟩

theorem holds_attempt (h : s.Holds) {met : Attempt} {sessionPresent : Bool}
    (hattempt : s.client.attempt met sessionPresent = some t) :
    (s.record (.attempt met sessionPresent) t).Holds := by
  have hattempted : s.client.Aside (s.client.emit .attempted) := (Client.Aside.refl _).emit _
  unfold Client.attempt at hattempt
  split at hattempt
  · rename_i failures pending hloop
    simp only at hattempt
    split at hattempt
    · cases hattempt
      have hrecord : s.record (.attempt met sessionPresent)
          ((s.client.emit .attempted).install sessionPresent pending) =
          { s with
            client := (s.client.emit .attempted).install sessionPresent pending
            lookups := [] } := by
        have hconnection : ((s.client.emit .attempted).install sessionPresent pending).connection ≠
            s.client.connection := Nat.succ_ne_self _
        simp only [record, newDetachments, List.append_nil, if_neg hconnection]
      rw [hrecord]
      exact (h.keeps (h.refl_keeps.aside hattempted)).install sessionPresent pending
    · cases hattempt
      refine h.unrecorded rfl rfl ?_
      refine h.refl_keeps.same rfl rfl rfl rfl id h.indexes.valid fun d hd hsettled => ?_
      exact ⟨hsettled.object, hsettled.calls, fun _ _ hloop => by cases hloop⟩
    · cases hattempt
      exact h.unrecorded rfl rfl (h.refl_keeps.aside (hattempted.setLoop rfl))
  · cases hattempt

/-! ## `detach()` -/

theorem mem_detachedBy {client : Client} {filters : List Str} {item : IndexItem} :
    item ∈ client.detachedBy filters ↔ item.1 ∈ filters ∧
      OrderedDict.get client.inbound.subscriptions.entries item.1 = some item.2 := by
  simp only [Client.detachedBy, List.mem_filterMap, Option.map_eq_some_iff]
  constructor
  · rintro ⟨f, hf, entry, hget, rfl⟩
    exact ⟨hf, hget⟩
  · rintro ⟨hf, hget⟩
    exact ⟨item.1, hf, item.2, hget, rfl⟩

/-- `detach()` marks a subscription. -/
theorem settled_modify {d : Detachment} {client : Client} (h : d.Settled client) {i : Nat}
    {sub : Subscription} (hsub : client.objects[i]? = some sub) :
    ∃ sub, (client.objects.modify i fun sub => { sub with detached := true })[d.subscription]? =
      some sub ∧ sub.detached = true ∧ ∀ f ∈ sub.registeredFilters, f ∈ d.filters := by
  obtain ⟨old, hold, hdetached, hfilters⟩ := h.object
  by_cases heq : d.subscription = i
  · rw [heq, hsub] at hold
    cases hold
    exact ⟨_, (TaskList.getElem?_modify_iff hsub).mpr (Or.inl ⟨heq, rfl⟩), rfl, hfilters⟩
  · exact ⟨old, (TaskList.getElem?_modify_iff hsub).mpr (Or.inr ⟨heq, hold⟩), hdetached, hfilters⟩

theorem untouched_detach {flow : InboundPublishFlow} {seq : Nat} (h : flow.Untouched seq)
    (filters : List Str) (queue : Nat) : (flow.detach filters queue).Untouched seq :=
  ⟨h.log, h.frames, h.flights, fun item hitem => h.queued item (List.mem_filter.mp hitem).1,
    h.taken⟩

theorem suppresses_detach {client : Client} {filters : List Str} {queue : Nat} {f : Str}
    (hnext : t.inbound = client.inbound.detach filters queue) (hrun : t.run = client.run)
    (h : client.Suppresses f ∨ f ∈ filters ∧ client.inbound.subscriptions.contains f = true) :
    t.Suppresses f := by
  constructor
  · rw [hnext]
    intro entry hget
    rcases h with hold | ⟨hf, -⟩
    · exact List.mem_append_left _ (hold.detached entry hget)
    · refine List.mem_append_right _ (List.mem_filterMap.mpr ⟨f, hf, ?_⟩)
      have hget : OrderedDict.get client.inbound.subscriptions.entries f = some entry := hget
      rw [hget, Option.map_some]
  · rw [hnext, hrun]
    intro hlive
    exact h.elim (fun hold => hold.present hlive) And.right

/-- A `detach()` that finds its entries settles the subscription. -/
theorem settled_detach {client : Client} {i : Nat} {sub : Subscription}
    (hsub : client.objects[i]? = some sub) (hfinds : findsEntries client i sub = true)
    (hobjects : t.objects = client.objects.modify i fun sub => { sub with detached := true })
    (hcalls : t.calls = client.calls) (hloop : t.loop = client.loop) (connection : Nat)
    (earlier : List Nat) :
    Detachment.Settled ⟨i, sub.registeredFilters, connection, earlier⟩ t := by
  simp only [findsEntries, Bool.and_eq_true, List.all_eq_true] at hfinds
  obtain ⟨⟨-, hfound⟩, hturn⟩ := hfinds
  refine ⟨?_, ?_, ?_⟩
  · rw [hobjects]
    exact ⟨_, (TaskList.getElem?_modify_iff hsub).mpr (Or.inl ⟨rfl, rfl⟩), rfl, fun f hf => hf⟩
  · rw [hcalls]
    intro call hcall hstarts heq
    have heq : call.subscription = i := heq
    simpa [hstarts, heq] using hfound call hcall
  · rw [hloop]
    intro registered pending hresubscribing
    rw [hresubscribing] at hturn
    simpa using hturn

/-- `detach()` finds its entries, and marks and saves them. -/
theorem Holds.mark (h : s.Holds) {i : Nat} {sub : Subscription}
    (hsub : s.client.objects[i]? = some sub) (hfinds : findsEntries s.client i sub = true)
    (hconfig : t.config = s.client.config) (hconnection : t.connection = s.client.connection)
    (hended : t.run = s.client.run)
    (hobjects : t.objects = s.client.objects.modify i fun sub => { sub with detached := true })
    (hcalls : t.calls = s.client.calls) (hloop : t.loop = s.client.loop)
    (hsaved : t.detachedFilters = (s.client.detachedBy sub.registeredFilters).foldl
      (fun filters item => OrderedDict.set filters item.1 item.2) s.client.detachedFilters)
    (hinbound : t.inbound = s.client.inbound.detach sub.registeredFilters i)
    (hnew : s.newDetachments (.detach i) = [⟨i, sub.registeredFilters, s.client.connection,
      s.lookups.map fun found => found.received.seq⟩]) : (s.record (.detach i) t).Holds := by
  have hrecord : s.record (.detach i) t =
      { s with
        client := t
        detachments := s.detachments ++ [⟨i, sub.registeredFilters, s.client.connection,
          s.lookups.map fun found => found.received.seq⟩] } := by
    simp only [record, hnew, newLookups, List.append_nil, if_pos hconnection]
  have hentries : ∀ f ∈ sub.registeredFilters,
      s.client.inbound.subscriptions.contains f = true := by
    simp only [findsEntries, Bool.and_eq_true, List.all_eq_true] at hfinds
    exact hfinds.1.1
  have huntouched : ∀ seq, s.client.inbound.Untouched seq → t.inbound.Untouched seq := by
    intro seq huntouched
    rw [hinbound]
    exact untouched_detach huntouched _ _
  have hkept : ∀ f, f ∈ OrderedDict.keys s.client.detachedFilters ∨ f ∈ sub.registeredFilters →
      f ∈ OrderedDict.keys t.detachedFilters := by
    intro f hf
    rw [hsaved, OrderedDict.mem_keys_foldl_set]
    refine hf.symm.imp_left fun hf => ?_
    obtain ⟨entry, hget⟩ := Option.isSome_iff_exists.mp (hentries f hf)
    exact List.mem_map.mpr ⟨(f, entry), mem_detachedBy.mpr ⟨hf, hget⟩, rfl⟩
  rw [hrecord]
  exact
    { indexes :=
        { shows := by
            rw [hinbound]
            exact h.indexes.shows
          proper := by
            rw [hconfig, hinbound]
            exact h.indexes.proper
          saved := fun item hitem => by
            rw [hsaved] at hitem
            rw [hconfig]
            rcases OrderedDict.mem_of_foldl_set hitem with hnew | hold
            · exact h.indexes.proper _ _ (mem_detachedBy.mp hnew).2
            · exact h.indexes.saved item hold
          valid := by
            rw [hobjects]
            exact h.indexes.valid_modify i fun _ => rfl }
      suppresses := fun d hd f hf => by
        apply suppresses_detach hinbound hended
        rcases List.mem_append.mp hd with hold | hnew
        · exact Or.inl (h.suppresses d hold f hf)
        · cases List.mem_singleton.mp hnew
          exact Or.inr ⟨hf, hentries f hf⟩
      saves := fun d hd f hf => by
        apply hkept
        rcases List.mem_append.mp hd with hold | hnew
        · exact Or.inl (h.saves d hold f hf)
        · cases List.mem_singleton.mp hnew
          exact Or.inr hf
      settled := fun d hd => by
        rcases List.mem_append.mp hd with hold | hnew
        · have hsettled := h.settled d hold
          refine ⟨?_, hcalls ▸ hsettled.calls, hloop ▸ hsettled.loop⟩
          rw [hobjects]
          exact settled_modify hsettled hsub
        · cases List.mem_singleton.mp hnew
          exact settled_detach hsub hfinds hobjects hcalls hloop _ _
      fresh := fun seq hpos hnone => huntouched seq (h.fresh seq hpos hnone)
      calm := fun d hd seq hpos hlater honly => by
        simp only [hconnection] at hlater
        simp only [hconfig] at honly
        rcases List.mem_append.mp hd with hold | hnew
        · obtain ⟨hold, hanswered⟩ := h.calm d hold seq hpos hlater honly
          exact ⟨huntouched seq hold, hanswered⟩
        · -- a message that comes later has not been looked up yet
          cases List.mem_singleton.mp hnew
          have hnone : ∀ found ∈ s.lookups, found.received.seq ≠ seq := by
            intro found hfound hseq
            exact hlater rfl (List.mem_map.mpr ⟨found, hfound, hseq⟩)
          refine ⟨huntouched seq (h.fresh seq hpos hnone), fun found hfound hseq => ?_⟩
          exact absurd hseq (hnone found hfound) }

theorem holds_detach (h : s.Holds) {i : Nat} {sub : Subscription}
    (hsub : s.client.objects[i]? = some sub) (horderly : s.orderly (.detach i) = true) :
    (s.record (.detach i) (s.client.detach i sub)).Holds := by
  unfold Client.detach
  split
  · rename_i hgone
    refine h.unrecorded ?_ rfl (h.refl_keeps.aside ((Client.Aside.refl _).emit _))
    simp [newDetachments, hsub, hgone]
  · rename_i hlisted
    have hlisted : i ∈ s.client.subscriptions := not_not.mp hlisted
    simp only
    split
    · rename_i hclosed
      have hclosed : s.client.closed = true := hclosed
      refine h.unrecorded ?_ rfl ?_
      · simp [newDetachments, hsub, hclosed]
      · refine h.refl_keeps.same rfl rfl rfl rfl id (h.indexes.valid_modify i fun _ => rfl) ?_
        exact fun d hd hsettled => ⟨settled_modify hsettled hsub, hsettled.calls, hsettled.loop⟩
    · rename_i hopen
      have hopen : s.client.closed = false := Bool.eq_false_iff.mpr hopen
      have hfinds : findsEntries s.client i sub = true := by
        simpa [orderly, hlisted, hsub] using horderly
      refine h.mark hsub hfinds rfl rfl rfl rfl rfl rfl rfl rfl ?_
      simp [newDetachments, hsub, hlisted, hopen]

/-! ## Steps of the inbound flow -/

theorem aside_afterPacket (client : Client) (action : InboundPublishFlow.Action)
    (flow : InboundPublishFlow) :
    Client.Aside { client with inbound := flow } (client.afterPacket action flow) := by
  have hlogged : Client.Aside { client with inbound := flow }
      ((Client.quotaExceeded client.inbound action).elim { client with inbound := flow }
        fun msg => Client.emit { client with inbound := flow } (.violated msg)) := by
    cases Client.quotaExceeded client.inbound action with
    | none => exact Client.Aside.refl _
    | some msg => exact (Client.Aside.refl _).emit _
  unfold Client.afterPacket
  simp only
  split
  · exact hlogged
  · generalize (Client.quotaExceeded client.inbound action).elim _ _ = logged at hlogged ⊢
    exact hlogged.setRun rfl

/-- No message yet has this number. -/
theorem exists_unseen (lookups : List Lookup) :
    ∃ seq, 0 < seq ∧ ∀ found ∈ lookups, found.received.seq ≠ seq := by
  obtain ⟨seq, hseq⟩ := Infinite.exists_notMem_finset
    (insert 0 (lookups.map fun found => found.received.seq).toFinset)
  simp only [Finset.mem_insert, List.mem_toFinset, List.mem_map, not_or, not_exists,
    not_and] at hseq
  exact ⟨seq, Nat.pos_of_ne_zero hseq.1, hseq.2⟩

section Inbound

variable {action : InboundPublishFlow.Action} {flow : InboundPublishFlow}

theorem lookup_of_lookedUp {received : Received} {claim : Option Nat}
    (hlooked : flow.lookedUp action = some (received, claim)) :
    ∃ found, flow.lookup action = some found ∧ found.received = received := by
  rw [InboundPublishFlow.lookup, hlooked]
  exact ⟨_, rfl, rfl⟩

/-- A message that is answered because its flow is open matches no detached filter. -/
theorem not_answered {found : Lookup} {d : Detachment} (hd : d ∈ s.detachments)
    (horderly : s.orderly (.inbound action) = true)
    (hfound : s.client.inbound.lookup action = some found)
    (honly : Only s.client.config.strippedPrefixes d.filters found) : found.answered = false := by
  obtain ⟨item, hlooked, rfl⟩ := Option.map_eq_some_iff.mp hfound
  cases action with
  | publish packet claim write =>
      cases hlooked
      rw [Bool.eq_false_iff]
      intro hrepeats
      obtain ⟨-, ⟨f, hf, hmatches⟩, -⟩ := honly
      simp only [orderly, Bool.or_eq_true, Bool.not_eq_true', List.all_eq_true] at horderly
      rcases horderly with hnot | hnone
      · exact absurd (hnot.symm.trans hrepeats) (by simp)
      · exact absurd ((hnone d hd f hf).symm.trans hmatches) (by simp)
  | _ => rfl

theorem holds_inbound (h : s.Holds) (horderly : s.orderly (.inbound action) = true)
    (hstep : s.client.step (.inbound action) = some t) : (s.record (.inbound action) t).Holds := by
  obtain ⟨flow, hflow, hnext⟩ := Client.inbound_cases hstep
  have haside : Client.Aside { s.client with inbound := flow } t := by
    rcases hnext with ⟨-, -, rfl⟩ | ⟨-, rfl⟩
    · exact aside_afterPacket s.client action flow
    · exact Client.Aside.refl _
  -- a PUBLISH is read while `run` has not ended
  have hread : s.client.run.exit ≠ none →
      ∀ packet claim write, action ≠ .publish packet claim write := by
    rintro hended packet claim write rfl
    rcases hnext with ⟨-, hread, -⟩ | ⟨horigin, -⟩
    · simp only [Client.reading, Bool.and_eq_true, Option.isNone_iff_eq_none] at hread
      exact hended hread.2
    · cases horigin
  have hpasses : ∀ seq, (∀ received claim,
      s.client.inbound.lookedUp action = some (received, claim) → received.seq = seq →
        s.client.inbound.Refuses received claim ∨
          s.client.inbound.PassesOver received claim ∧ s.client.run.exit ≠ none) →
      s.client.inbound.Untouched seq →
      InboundPublishFlow.Passes seq s.client.inbound flow := by
    intro seq hrefuses huntouched
    refine InboundPublishFlow.passes_step hflow ?_ ?_ (fun received claim hlooked hseq =>
      (hrefuses received claim hlooked hseq).imp_right fun h => ⟨h.1, hread h.2⟩) huntouched
    · rintro op rfl
      rcases hnext with ⟨horigin, -⟩ | ⟨horigin, -⟩ <;> cases horigin
    · rintro filters queue rfl
      rcases hnext with ⟨horigin, -⟩ | ⟨horigin, -⟩ <;> cases horigin
  have hunseen : ∀ seq, 0 < seq →
      (∀ found ∈ s.lookups ++ s.newLookups (.inbound action), found.received.seq ≠ seq) →
      InboundPublishFlow.Passes seq s.client.inbound flow := by
    intro seq hpos hnone
    refine hpasses seq (fun received claim hlooked hseq => ?_)
      (h.fresh seq hpos fun found hfound => hnone found (List.mem_append_left _ hfound))
    obtain ⟨found, hfound, rfl⟩ := lookup_of_lookedUp hlooked
    exact absurd hseq (hnone found (List.mem_append_right _ (Option.mem_toList.mpr hfound)))
  -- every step of the flow leaves the index alone, as one message that never came shows
  obtain ⟨unseen, hpos, hnone⟩ := exists_unseen (s.lookups ++ s.newLookups (.inbound action))
  have hindex := hunseen unseen hpos hnone
  have hholds : Holds
      { s with
        client := { s.client with inbound := flow }
        lookups := s.lookups ++ s.newLookups (.inbound action) } :=
    { indexes := h.indexes.same rfl hindex.subscriptions rfl h.indexes.valid
      suppresses := fun d hd f hf =>
        (h.suppresses d hd f hf).same hindex.subscriptions hindex.detached id
      saves := h.saves
      settled := fun d hd =>
        ⟨(h.settled d hd).object, (h.settled d hd).calls, (h.settled d hd).loop⟩
      fresh := fun seq hpos hnone => (hunseen seq hpos hnone).untouched
        (h.fresh seq hpos fun found hfound => hnone found (List.mem_append_left _ hfound))
      calm := fun d hd seq hpos hlater honly => by
        obtain ⟨huntouched, hanswered⟩ := h.calm d hd seq hpos hlater
          fun found hfound => honly found (List.mem_append_left _ hfound)
        have hnew : ∀ found, s.client.inbound.lookup action = some found →
            found.received.seq = seq → Only s.client.config.strippedPrefixes d.filters found :=
          fun found hfound => honly found (List.mem_append_right _ (Option.mem_toList.mpr hfound))
        constructor
        · refine (hpasses seq (fun received claim hlooked hseq => ?_) huntouched).untouched
            huntouched
          obtain ⟨found, hfound, rfl⟩ := lookup_of_lookedUp hlooked
          exact h.indexes.recipient_detached (h.suppresses d hd) hlooked hfound
            (hnew found hfound hseq)
        · intro found hfound hseq
          rcases List.mem_append.mp hfound with hold | hlast
          · exact hanswered found hold hseq
          · have hlast := Option.mem_toList.mp hlast
            exact not_answered (s := s) hd horderly hlast (hnew found hlast hseq) }
  have hrecord : s.record (.inbound action) t =
      { s with client := t, lookups := s.lookups ++ s.newLookups (.inbound action) } := by
    simp only [record, newDetachments, List.append_nil, if_pos haside.connection]
  rw [hrecord]
  exact hholds.keeps (hholds.refl_keeps.aside haside)

end Inbound

/-! ## Runs -/

/-- A step of the recorded run is one of the client. -/
theorem step_record {action : Client.Action} {next : DetachRun}
    (hstep : s.step action = some next) :
    ∃ t, s.client.step action = some t ∧ next = s.record action t ∧ action ≠ .disconnect ∧
      ∀ sub, action = .create sub → ∀ f ∈ sub.filters, validateSubscribeTopic f = .ok () := by
  cases action with
  | disconnect => cases hstep
  | create sub =>
      obtain ⟨hvalid, hstep⟩ := Option.ite_none_right_eq_some.mp hstep
      obtain ⟨t, ht, rfl⟩ := Option.map_eq_some_iff.mp hstep
      refine ⟨t, ht, rfl, by simp, fun other heq f hf => ?_⟩
      cases heq
      simpa using List.all_eq_true.mp hvalid f hf
  | request topic =>
      cases hstep
      exact ⟨_, rfl, rfl, by simp, by simp⟩
  | release topic =>
      cases hstep
      exact ⟨_, rfl, rfl, by simp, by simp⟩
  | _ =>
      obtain ⟨t, ht, rfl⟩ := Option.map_eq_some_iff.mp hstep
      exact ⟨t, ht, rfl, by simp, by simp⟩

/-- **One step.** -/
theorem Holds.step (h : s.Holds) {action : Client.Action} {next : DetachRun}
    (horderly : s.orderly action = true) (hstep : s.step action = some next) : next.Holds := by
  obtain ⟨t, ht, rfl, hdisconnect, hvalid⟩ := step_record hstep
  cases action with
  | disconnect => exact absurd rfl hdisconnect
  | create sub =>
      cases ht
      exact h.unrecorded rfl rfl (keeps_create h (hvalid sub rfl))
  | start i =>
      obtain ⟨sub, hsub, rfl⟩ := Option.map_eq_some_iff.mp ht
      exact h.unrecorded rfl rfl (keeps_start h hsub)
  | stop i cancelled =>
      obtain ⟨sub, -, rfl⟩ := Option.map_eq_some_iff.mp ht
      exact h.unrecorded rfl rfl (keeps_stop h i sub cancelled)
  | detach i =>
      obtain ⟨sub, hsub, rfl⟩ := Option.map_eq_some_iff.mp ht
      exact holds_detach h hsub horderly
  | letIn c =>
      obtain ⟨call, hcall, ht⟩ := Option.bind_eq_some_iff.mp ht
      exact h.unrecorded rfl rfl (keeps_letIn h hcall horderly ht)
  | finish c outcome =>
      obtain ⟨call, hcall, ht⟩ := Option.bind_eq_some_iff.mp ht
      exact h.unrecorded rfl rfl (keeps_finish h hcall horderly ht)
  | request topic =>
      cases ht
      exact h.unrecorded rfl rfl
        (h.refl_keeps.aside ⟨rfl, rfl, rfl, rfl, rfl, rfl, id, fun _ _ _ hloop => Or.inl hloop⟩)
  | release topic =>
      cases ht
      exact h.unrecorded rfl rfl
        (h.refl_keeps.aside ⟨rfl, rfl, rfl, rfl, rfl, rfl, id, fun _ _ _ hloop => Or.inl hloop⟩)
  | beginRun =>
      obtain ⟨-, ht⟩ := Option.ite_none_left_eq_some.mp ht
      cases ht
      exact h.unrecorded rfl rfl (h.refl_keeps.aside ((Client.Aside.refl _).setRun rfl))
  | inbound action => exact holds_inbound h horderly ht
  | packet size =>
      obtain ⟨-, ht⟩ := Option.ite_none_right_eq_some.mp ht
      cases ht
      exact h.unrecorded rfl rfl (h.refl_keeps.aside (Client.aside_packet _ size))
  | readFails error =>
      obtain ⟨-, ht⟩ := Option.ite_none_right_eq_some.mp ht
      cases ht
      exact h.unrecorded rfl rfl (h.refl_keeps.aside ((Client.Aside.refl _).setRun rfl))
  | endAbort =>
      obtain ⟨error, -, rfl⟩ := Client.endAbort_cases ht
      exact h.unrecorded rfl rfl (h.refl_keeps.aside ((Client.Aside.refl _).setRun rfl))
  | pingFails error =>
      obtain ⟨-, ht⟩ := Option.ite_none_right_eq_some.mp ht
      cases ht
      exact h.unrecorded rfl rfl (h.refl_keeps.aside ((Client.Aside.refl _).setRun rfl))
  | exitRun => exact h.unrecorded rfl rfl (keeps_exitRun h ht)
  | resume => exact h.unrecorded rfl rfl (h.refl_keeps.aside (Client.aside_resume ht))
  | resubscribe => exact h.unrecorded rfl rfl (keeps_resubscribe h ht)
  | suback granted =>
      obtain ⟨-, rfl⟩ := Client.suback_cases ht
      exact h.unrecorded rfl rfl
        (h.refl_keeps.aside ⟨rfl, rfl, rfl, rfl, rfl, rfl, id, fun _ _ _ hloop => Or.inl hloop⟩)
  | endResubscribe outcome => exact h.unrecorded rfl rfl (keeps_endResubscribe h horderly ht)
  | observerReady topic =>
      obtain ⟨-, ht⟩ := Option.ite_none_right_eq_some.mp ht
      cases ht
      exact h.unrecorded rfl rfl
        (h.refl_keeps.aside ⟨rfl, rfl, rfl, rfl, rfl, rfl, id, fun _ _ _ hloop => Or.inl hloop⟩)
  | observed error => exact h.unrecorded rfl rfl (h.refl_keeps.aside (Client.aside_observed ht))
  | attempt met sessionPresent => exact holds_attempt h ht

theorem holds_opened (config : ClientConfig) (sessionPresent : Bool) :
    (opened config sessionPresent).Holds where
  indexes :=
    { shows := ⟨_, SubscriptionIndex.empty_shows⟩
      proper := fun _ _ hget => by cases hget
      saved := fun _ hitem => by cases hitem
      valid := fun _ hsub => by cases hsub }
  suppresses _ hd := by cases hd
  saves _ hd := by cases hd
  settled _ hd := by cases hd
  fresh _ _ _ := untouched_openFlow config sessionPresent [] fun _ hitem => by cases hitem
  calm _ hd := by cases hd

/-- A message of which nothing is left is not acknowledged. -/
theorem not_acknowledged {seq : Nat} (huntouched : s.client.inbound.Untouched seq)
    (hanswered : ∀ found ∈ s.lookups, found.received.seq = seq → found.answered = false) :
    ¬s.Acknowledged seq := by
  have hlog : ∀ event ∈ s.client.inbound.log, event.admits seq = true → False := by
    intro event hevent hadmits
    rw [huntouched.log event hevent] at hadmits
    cases hadmits
  rintro (⟨pid, hpuback⟩ | ⟨later, pid, event, earlier, heq, hevent⟩ | ⟨found, hfound, hseq, htrue⟩)
  · exact hlog _ hpuback (by simp [InboundEvent.admits])
  · have hmem : event ∈ s.client.inbound.log := by
      rw [heq]
      simp
    rcases hevent with rfl | ⟨pid', rfl⟩
    · exact hlog _ hmem (by simp [InboundEvent.admits])
    · exact hlog _ hmem (by simp [InboundEvent.admits])
  · rw [hanswered found hfound hseq] at htrue
    cases htrue

theorem Holds.suppressed (h : s.Holds) : s.Suppressed := by
  intro d hd seq hpos hlater honly
  have hfilters : ∀ f ∈ s.registeredBy d, f ∈ d.filters := by
    intro f hf
    obtain ⟨sub, hsub, -, hregistered⟩ := (h.settled d hd).object
    rw [registeredBy, hsub, List.mem_append] at hf
    exact hf.elim id (hregistered f)
  obtain ⟨huntouched, hanswered⟩ := h.calm d hd seq hpos hlater fun found hfound hseq => by
    obtain ⟨hclaimed, ⟨f, hf, hmatches⟩, hothers⟩ := honly found hfound hseq
    exact ⟨hclaimed, ⟨f, hfilters f hf, hmatches⟩, fun g hg => hfilters g (hothers g hg)⟩
  exact not_acknowledged huntouched hanswered

/-- **Detachment over reconnections.**  In a run in which each `detach()` finds its entries, and
nothing takes them out of the index of a live connection, no message is acknowledged that
arrives after a `detach()` and matches only filters of the detached subscription. -/
theorem detachment_survives_reconnect (config : ClientConfig) (sessionPresent : Bool)
    (actions : List Client.Action) (s : DetachRun)
    (hrun : Transition.run DetachRun.step (opened config sessionPresent) actions = some s)
    (horderly : Transition.Along DetachRun.step (fun s action => s.orderly action = true)
      (opened config sessionPresent) actions) : s.Suppressed :=
  (Transition.invariant_along (fun _ _ _ hs hok hstep => hs.step hok hstep)
    (holds_opened config sessionPresent) horderly hrun).suppressed

/-- A subscription is started and the connection is lost. -/
def sampleLoss : List Client.Action :=
  [.create { filters := [str "t"], qos := .atLeastOnce }, .start 0, .letIn 0, .finish 0 .granted,
    .beginRun, .resume, .readFails .disconnected, .exitRun, .resume, .resume, .resume]

/-- `detach()` comes while the client connects again. -/
def sampleDetachment : List Client.Action :=
  sampleLoss ++ [.detach 0, .attempt .accepted true, .beginRun, .resume,
    .inbound (.publish (samplePublish .atLeastOnce 1) none .done)]

theorem detachment_survives_reconnect_refused :
    ∃ s, Transition.run DetachRun.step (opened {} true) sampleDetachment = some s ∧
      s.detachments.length = 1 ∧ .refused 1 0 ∈ s.client.inbound.log ∧ s.Suppressed := by
  refine ⟨_, rfl, rfl, by decide, ?_⟩
  exact detachment_survives_reconnect {} true sampleDetachment _ rfl (by decide)

/-- `detach()` comes when the new connection is there, before the subscription is sent again;
then the grace period passes. -/
def sampleLateDetachment : List Client.Action :=
  sampleLoss ++ [.attempt .accepted true, .detach 0, .beginRun, .resume,
    .inbound (.publish (samplePublish .atLeastOnce 1) none .done), .inbound (.expireReplay 0),
    .inbound (.acquireLock 0), .inbound (.deliverNext 0 none .done),
    .inbound (.deliverNext 0 none .done), .inbound (.deliverNext 0 none .done),
    .inbound (.publish (samplePublish .atLeastOnce 2) none .done)]

/-- A message for the detached filter is acknowledged. -/
theorem late_detachment_lost :
    ¬∀ (config : ClientConfig) (sessionPresent : Bool) (actions : List Client.Action)
        (s : DetachRun),
      Transition.run DetachRun.step (opened config sessionPresent) actions = some s →
        s.Suppressed := by
  intro h
  obtain ⟨s, hrun, ⟨d, hd, hlater, honly⟩, hpuback⟩ : ∃ s,
      Transition.run DetachRun.step (opened {} true) sampleLateDetachment = some s ∧
      (∃ d ∈ s.detachments, (d.connection = s.client.connection → 2 ∉ d.earlier) ∧
        ∀ found ∈ s.lookups, found.received.seq = 2 →
          Only s.client.config.strippedPrefixes (s.registeredBy d) found) ∧
      .sentPuback 2 2 ∈ s.client.inbound.log := by
    refine ⟨_, rfl, ?_, ?_⟩
    · decide
    · decide
  exact h {} true sampleLateDetachment s hrun d hd 2 (by decide) hlater honly (Or.inl ⟨2, hpuback⟩)

end DetachRun

end Zmqtt
