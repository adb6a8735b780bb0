import Zmqtt.EntryClaims

/-!
# A call on two indices

Two indices that differ by some filters look the same to a call whose guards are for other
filters.  A step of such a call on the connection with either index is the same step, and
does the same to the index: what the two differ by stays what it was.
-/

namespace Zmqtt

namespace SubscriptionIndex

variable {index others : SubscriptionIndex} {fresh : List Str}

/-- Two indices that differ by the registered filters of a list. -/
structure DiffersBy (fresh : List Str) (index others : SubscriptionIndex) : Prop where
  shows : ∃ pairs, index.Shows pairs ∧
    others.Shows (pairs.filter fun item => !fresh.contains item.1)
  observers : others.responseObservers = index.responseObservers

/-- Two indices with the same entries, in the same order of registration, that give the same
answers to every query. -/
structure SameAnswers (index others : SubscriptionIndex) : Prop where
  entries : index.entries = others.entries
  get : ∀ filter, OrderedDict.get index.entries filter = OrderedDict.get others.entries filter
  matching : ∀ topic, index.matching topic = others.matching topic
  select : ∀ topic, index.select topic = others.select topic
  byIdentifier : ∀ identifier, index.byIdentifier identifier = others.byIdentifier identifier
  selectByIdentifier : ∀ topic identifier,
    index.selectByIdentifier topic identifier = others.selectByIdentifier topic identifier
  hasResponseObserver : ∀ topic,
    index.hasResponseObserver topic = others.hasResponseObserver topic

/-- The same registered pairs give the same answers, whatever the tries look like. -/
theorem Shows.sameAnswers {pairs : List IndexItem} (h : index.Shows pairs)
    (hothers : others.Shows pairs)
    (hobservers : others.responseObservers = index.responseObservers) :
    index.SameAnswers others := by
  have hmatching : ∀ topic, index.matching topic = others.matching topic := by
    intro topic
    have hat : index.root.entriesAt = others.root.entriesAt := by
      funext path
      rw [h.tree, hothers.tree]
    rw [matching, matching, h.wellFormed.collect_eq, hothers.wellFormed.collect_eq, hat]
  have hselect : ∀ topic, index.select topic = others.select topic := by
    intro topic
    rw [select, select, hmatching]
  have hidentified : ∀ i, index.byIdentifier i = others.byIdentifier i := by
    intro i
    rw [h.identifiers, hothers.identifiers]
  have hentries : index.entries = others.entries := h.entries_eq.trans hothers.entries_eq.symm
  refine ⟨hentries, ?_, hmatching, hselect, hidentified, ?_, ?_⟩
  · intro filter
    rw [hentries]
  · intro topic identifier
    rw [selectByIdentifier, selectByIdentifier, hidentified, hselect]
  · intro topic
    rw [hasResponseObserver, hasResponseObserver, hobservers]

/-- Indices that differ by nothing give the same answers. -/
theorem DiffersBy.sameAnswers (h : DiffersBy [] index others) : index.SameAnswers others := by
  obtain ⟨pairs, hshows, hothers⟩ := h.shows
  rw [List.filter_eq_self.mpr (by simp)] at hothers
  exact hshows.sameAnswers hothers h.observers

theorem DiffersBy.refl (h : ∃ pairs, index.Shows pairs) : DiffersBy [] index index := by
  obtain ⟨pairs, hshows⟩ := h
  refine ⟨⟨pairs, hshows, ?_⟩, rfl⟩
  rw [List.filter_eq_self.mpr (by simp)]
  exact hshows

/-- A filter that is not in the list is registered in both or in neither. -/
theorem DiffersBy.contains_eq (h : DiffersBy fresh index others) {filter : Str}
    (hnot : filter ∉ fresh) :
    others.contains filter = index.contains filter := by
  obtain ⟨pairs, hshows, hothers⟩ := h.shows
  rw [Bool.eq_iff_iff, contains_iff, contains_iff, hshows.entries_eq, hothers.entries_eq]
  simp only [OrderedDict.keys, List.mem_map, List.mem_filter]
  constructor
  · rintro ⟨item, ⟨hmem, -⟩, rfl⟩
    exact ⟨item, hmem, rfl⟩
  · rintro ⟨item, hmem, rfl⟩
    exact ⟨item, ⟨hmem, by simpa using hnot⟩, rfl⟩

theorem filter_register (pairs : List IndexItem) (item : IndexItem) (fresh : List Str) :
    (register pairs item).filter (fun other => !fresh.contains other.1) =
      if fresh.contains item.1 then pairs.filter fun other => !fresh.contains other.1
      else register (pairs.filter fun other => !fresh.contains other.1) item := by
  unfold register
  rw [List.filter_append, List.filter_comm]
  by_cases hfresh : item.1 ∈ fresh
  · have hgone : ∀ other ∈ pairs.filter (fun other => !fresh.contains other.1),
        decide (other.1 ≠ item.1) = true := by
      intro other hother
      have hnot := (List.mem_filter.mp hother).2
      have hne : other.1 ≠ item.1 := by
        intro heq
        simp [heq, hfresh] at hnot
      simpa using hne
    rw [List.filter_eq_self.mpr hgone]
    simp [hfresh]
  · simp [hfresh]

/-- Another call registers filters. -/
theorem DiffersBy.addMany (h : DiffersBy fresh index others) (items : List IndexItem)
    (hitems : ∀ item ∈ items, item.1 ∉ fresh) :
    DiffersBy fresh (index.addMany items) (others.addMany items) := by
  obtain ⟨pairs, hshows, hothers⟩ := h.shows
  refine ⟨⟨_, hshows.addMany items, ?_⟩, by simp [h.observers]⟩
  have hfilter : (items.foldl register pairs).filter (fun item => !fresh.contains item.1) =
      items.foldl register (pairs.filter fun item => !fresh.contains item.1) := by
    clear hshows hothers
    induction items generalizing pairs with
    | nil => rfl
    | cons item rest ih =>
        rw [List.foldl_cons, List.foldl_cons, ih (fun other hmem => hitems other
          (List.mem_cons_of_mem _ hmem)), filter_register, if_neg]
        simpa using hitems item List.mem_cons_self
  rw [hfilter]
  exact hothers.addMany items

/-- The call itself registers filters. -/
theorem DiffersBy.register_fresh (h : DiffersBy [] index others) (items : List IndexItem)
    (hnew : ∀ filter ∈ OrderedDict.keys items, filter ∉ OrderedDict.keys index.entries) :
    DiffersBy (OrderedDict.keys items) (index.addMany items) others := by
  obtain ⟨pairs, hshows, hothers⟩ := h.shows
  rw [List.filter_eq_self.mpr (by simp)] at hothers
  rw [hshows.entries_eq] at hnew
  refine ⟨⟨_, hshows.addMany items, ?_⟩, by simp [h.observers]⟩
  have hfilter : ∀ rest : List IndexItem, (∀ item ∈ rest, item.1 ∈ OrderedDict.keys items) →
      ∀ pairs : List IndexItem,
        (rest.foldl register pairs).filter (fun item => !(OrderedDict.keys items).contains item.1) =
          pairs.filter fun item => !(OrderedDict.keys items).contains item.1 := by
    intro rest
    induction rest with
    | nil => exact fun _ pairs => rfl
    | cons item rest ih =>
        intro hmem pairs
        rw [List.foldl_cons, ih (fun other hother => hmem other (List.mem_cons_of_mem _ hother)),
          filter_register, if_pos]
        simpa using hmem item List.mem_cons_self
  rw [hfilter items (fun item hitem => List.mem_map_of_mem hitem), List.filter_eq_self.mpr]
  · exact hothers
  · intro item hitem
    have hnot : item.1 ∉ OrderedDict.keys items := fun hmem =>
      hnew item.1 hmem (List.mem_map_of_mem hitem)
    simpa using hnot

/-- `remove_many` takes its filters out of what the index shows. -/
theorem Shows.removeMany {pairs : List IndexItem} (h : index.Shows pairs) (filters : List Str) :
    (index.removeMany filters).Shows (pairs.filter fun item => !filters.contains item.1) := by
  unfold SubscriptionIndex.removeMany
  induction filters generalizing index pairs with
  | nil =>
      rw [List.filter_eq_self.mpr (by simp)]
      exact h
  | cons filter rest ih =>
      have hrest := ih (h.remove filter)
      rw [List.filter_filter] at hrest
      rw [List.foldl_cons]
      convert hrest using 2
      funext item
      by_cases heq : item.1 = filter <;> simp [heq]

/-- Another call removes filters. -/
theorem DiffersBy.removeMany (h : DiffersBy fresh index others) (filters : List Str) :
    DiffersBy fresh (index.removeMany filters) (others.removeMany filters) := by
  obtain ⟨pairs, hshows, hothers⟩ := h.shows
  refine ⟨⟨_, hshows.removeMany filters, ?_⟩, by simp [h.observers]⟩
  rw [List.filter_comm]
  exact hothers.removeMany filters

/-- The call itself takes its filters back. -/
theorem DiffersBy.rollback (h : DiffersBy fresh index others) :
    DiffersBy [] (index.removeMany fresh) others := by
  obtain ⟨pairs, hshows, hothers⟩ := h.shows
  refine ⟨⟨_, hshows.removeMany fresh, ?_⟩, by simp [h.observers]⟩
  rw [List.filter_eq_self.mpr (by simp)]
  exact hothers

/-- Observers are no entries. -/
theorem Shows.setObservers {pairs : List IndexItem} (h : index.Shows pairs) (topics : List Str) :
    { index with responseObservers := topics }.Shows pairs :=
  ⟨h.entries_eq, h.nodup, h.wellFormed, h.tree, h.identifiers⟩

/-- An observer enters both indices. -/
theorem DiffersBy.addResponseObserver (h : DiffersBy fresh index others) (topic : Str) :
    DiffersBy fresh (index.addResponseObserver topic).1 (others.addResponseObserver topic).1 := by
  obtain ⟨pairs, hshows, hothers⟩ := h.shows
  unfold SubscriptionIndex.addResponseObserver
  rw [h.observers]
  split
  · exact h
  · exact ⟨⟨pairs, hshows.setObservers _, hothers.setObservers _⟩, rfl⟩

/-- An observer leaves both indices. -/
theorem DiffersBy.removeResponseObserver (h : DiffersBy fresh index others) (topic : Str) :
    DiffersBy fresh (index.removeResponseObserver topic).1
      (others.removeResponseObserver topic).1 := by
  obtain ⟨pairs, hshows, hothers⟩ := h.shows
  unfold SubscriptionIndex.removeResponseObserver
  rw [h.observers]
  split
  · exact ⟨⟨pairs, hshows.setObservers _, hothers.setObservers _⟩, rfl⟩
  · exact h

/-- A change of the index by a call whose guards are these: it keeps apart what differs by
other filters. -/
def Edit (guards : List Str) (edit : SubscriptionIndex → SubscriptionIndex) : Prop :=
  ∀ fresh index others, (∀ filter ∈ guards, filter ∉ fresh) → DiffersBy fresh index others →
    DiffersBy fresh (edit index) (edit others)

/-- Two indices that a call with these guards cannot tell apart. -/
structure Alike (guards : List Str) (index others : SubscriptionIndex) : Prop where
  contains : ∀ filter ∈ guards, others.contains filter = index.contains filter
  observers : others.responseObservers = index.responseObservers

/-- Guards for other filters see the same. -/
theorem DiffersBy.alike {guards : List Str} (h : DiffersBy fresh index others)
    (hdisjoint : ∀ filter ∈ guards, filter ∉ fresh) : Alike guards index others :=
  ⟨fun filter hfilter => h.contains_eq (hdisjoint filter hfilter), h.observers⟩

theorem Edit.id (guards : List Str) : Edit guards fun index => index :=
  fun _ _ _ _ h => h

end SubscriptionIndex

open SubscriptionIndex

/-- What a request that fails does to the index. -/
def Request.rollback (request : Request) (index : SubscriptionIndex) : SubscriptionIndex :=
  match request with
  | .subscribe _ _ newEntries => index.removeMany newEntries
  | .addObserver topic => (index.removeResponseObserver topic).1
  | _ => index

theorem Request.rollback_edit (request : Request) (guards : List Str) :
    Edit guards request.rollback := by
  intro fresh index others _ h
  cases request with
  | subscribe filters identifier newEntries => exact h.removeMany newEntries
  | unsubscribe brokerFilters observedFilters => exact h
  | restoreObservers acknowledged observedFilters => exact h
  | addObserver topic => exact h.removeResponseObserver topic
  | removeObserver topic => exact h

namespace Connection

/-! ## Another call acts on both indices in the same way -/

section Follows

variable {s next : Connection} {c : Nat} {call : Call} {guards : List Str}

/-- Whatever the index, the part of a call does the same, and to the index an edit. -/
def Follows (guards : List Str) (F : Connection → Connection) (s : Connection) : Prop :=
  ∃ edit, Edit guards edit ∧
    ∀ index, F (s.setSubscriptions index) = (F s).setSubscriptions (edit index)

/-- The same, for the indices that the call cannot tell apart. -/
def FollowsAlike (guards : List Str) (F : Connection → Connection) (s : Connection) : Prop :=
  ∃ edit, Edit guards edit ∧ ∀ index, Alike guards s.state.subscriptions index →
    F (s.setSubscriptions index) = (F s).setSubscriptions (edit index)

/-- A step that follows any change of the index follows one that its guards do not see. -/
theorem Follows.alike {F : Connection → Connection} (h : Follows guards F s) :
    FollowsAlike guards F s := by
  obtain ⟨edit, hedit, heq⟩ := h
  exact ⟨edit, hedit, fun index _ => heq index⟩

/-- A call ends. -/
theorem Follows.finish (c : Nat) (outcome : Outcome) :
    Follows guards (fun s => s.finish c outcome) s :=
  ⟨_, Edit.id guards, fun _ => rfl⟩

theorem setSubscriptions_openRequest (s : Connection) (index : SubscriptionIndex)
    (kind : RequestKind) (pid : Nat) (pool : PacketIdPool) :
    (s.setSubscriptions index).openRequest kind pid pool =
      (s.openRequest kind pid pool).setSubscriptions index := by
  cases kind <;> rfl

theorem setSubscriptions_closeRequest (s : Connection) (index : SubscriptionIndex)
    (kind : RequestKind) (pid : Nat) :
    (s.setSubscriptions index).closeRequest kind pid =
      (s.closeRequest kind pid).setSubscriptions index := by
  cases kind <;> rfl

theorem setSubscriptions_raiseFromRequest (s : Connection) (index : SubscriptionIndex)
    (request : Request) (error : MqttError) :
    (s.setSubscriptions index).raiseFromRequest c request error =
      (s.raiseFromRequest c request error).setSubscriptions (request.rollback index) := by
  cases request with
  | restoreObservers acknowledged observedFilters =>
      simp only [Connection.raiseFromRequest]
      split <;> rfl
  | _ => rfl

/-- A request raises. -/
theorem Follows.raiseFromRequest (request : Request) (error : MqttError) :
    Follows guards (fun s => s.raiseFromRequest c request error) s :=
  ⟨request.rollback, request.rollback_edit guards,
    fun index => setSubscriptions_raiseFromRequest s index request error⟩

/-- A request is written. -/
theorem Follows.beginRequest (request : Request) (write : WriteOutcome) :
    Follows guards (fun s => s.beginRequest c request write) s := by
  have hdead : ∀ index, (s.setSubscriptions index).dead = s.dead := fun _ => rfl
  have hpool : ∀ index, (s.setSubscriptions index).state.packetIds = s.state.packetIds :=
    fun _ => rfl
  have hversion : ∀ index, (s.setSubscriptions index).version = s.version := fun _ => rfl
  have hrolled : ∀ F : Connection → Connection,
      (∀ index, F (s.setSubscriptions index) = (F s).setSubscriptions (request.rollback index)) →
        Follows guards F s :=
    fun F hF => ⟨request.rollback, request.rollback_edit guards, hF⟩
  by_cases hlost : s.dead = true
  · apply hrolled
    intro index
    simp only [Connection.beginRequest, hdead, hlost, if_true]
    exact setSubscriptions_raiseFromRequest s index request _
  · cases hacquire : s.state.packetIds.acquire with
    | none =>
        apply hrolled
        intro index
        simp only [Connection.beginRequest, hdead, hlost, hpool, hacquire, Bool.false_eq_true,
          if_false]
        exact setSubscriptions_raiseFromRequest s index request _
    | some acquired =>
        obtain ⟨pid, pool⟩ := acquired
        cases hencode : encode (request.packet pid) s.version with
        | error e =>
            apply hrolled
            intro index
            simp only [Connection.beginRequest, hdead, hlost, hpool, hacquire, hversion, hencode,
              Bool.false_eq_true, if_false]
            rw [setSubscriptions_openRequest, setSubscriptions_closeRequest,
              setSubscriptions_raiseFromRequest]
        | ok bytes =>
            by_cases hfailed : write = .failed
            · apply hrolled
              intro index
              simp only [Connection.beginRequest, hdead, hlost, hpool, hacquire, hversion, hencode,
                hfailed, Bool.false_eq_true, if_true, if_false]
              rw [setSubscriptions_openRequest, setSubscriptions_closeRequest,
                setSubscriptions_raiseFromRequest]
            · refine ⟨_, Edit.id guards, fun index => ?_⟩
              simp only [Connection.beginRequest, hdead, hlost, hpool, hacquire, hversion, hencode,
                hfailed, Bool.false_eq_true, if_false]
              rw [setSubscriptions_openRequest]
              rfl

/-- A request returns. -/
theorem Follows.returnFromRequest (request : Request) (packet : Packet) (write : WriteOutcome) :
    Follows guards (fun s => s.returnFromRequest c request packet write) s := by
  unfold Connection.returnFromRequest
  split
  · exact ⟨_, Edit.id guards, fun _ => rfl⟩
  · split
    · exact Follows.finish c _
    · exact Follows.beginRequest _ write
  · exact Follows.finish c _
  · exact Follows.finish c _
  · exact Follows.finish c _
  · exact Follows.raiseFromRequest request _

/-- After the `finally` block of a request. -/
theorem Follows.closed {F : Connection → Connection} {kind : RequestKind} {pid : Nat}
    (h : Follows guards F (s.closeRequest kind pid)) :
    Follows guards (fun s => F (s.closeRequest kind pid)) s := by
  obtain ⟨edit, hedit, heq⟩ := h
  refine ⟨edit, hedit, fun index => ?_⟩
  beta_reduce
  rw [setSubscriptions_closeRequest, heq]

/-- A request fails. -/
theorem Follows.failRequest (request : Request) (pid : Nat) (error : MqttError) :
    Follows guards (fun s => s.failRequest c request pid error) s :=
  Follows.closed (Follows.raiseFromRequest request error)

/-- A request is answered. -/
theorem Follows.answerRequest (request : Request) (pid : Nat) (packet : Packet)
    (write : WriteOutcome) :
    Follows guards (fun s => s.answerRequest c request pid packet write) s := by
  unfold Connection.answerRequest
  simp only
  split
  · split
    · exact Follows.closed (Follows.raiseFromRequest request _)
    · exact Follows.closed (Follows.returnFromRequest request _ write)
  · exact Follows.closed (Follows.returnFromRequest request _ write)

/-- The index is edited, and the call goes on. -/
theorem Follows.edited {F : Connection → Connection} (edit : SubscriptionIndex → SubscriptionIndex)
    (hedit : Edit guards edit) (h : Follows guards F s) :
    ∃ both, Edit guards both ∧ ∀ index,
      F (s.setSubscriptions (edit index)) =
        (F (s.setSubscriptions (edit s.state.subscriptions))).setSubscriptions (both index) := by
  obtain ⟨later, hlater, heq⟩ := h
  refine ⟨later ∘ edit, ?_, fun index => ?_⟩
  · exact fun fresh index others hdisjoint happ =>
      hlater _ _ _ hdisjoint (hedit _ _ _ hdisjoint happ)
  · rw [heq, heq]
    rfl

theorem newEntries_alike {filters : List SubscriptionRequest} {index : SubscriptionIndex}
    (h : Alike (filters.map SubscriptionRequest.topicFilter) s.state.subscriptions index)
    (queue : Nat) (autoAck : Bool) (identifier : Option Int) :
    (s.setSubscriptions index).newEntries filters queue autoAck identifier =
      s.newEntries filters queue autoAck identifier := by
  unfold Connection.newEntries
  apply List.foldl_ext
  intro acc req hreq
  have hcontains : (s.setSubscriptions index).state.subscriptions.contains req.topicFilter =
      s.state.subscriptions.contains req.topicFilter :=
    h.contains _ (List.mem_map_of_mem hreq)
  rw [hcontains]
  rfl

/-- The call looks at its filters, edits the index and goes on. -/
theorem FollowsAlike.of_edited {F G : Connection → Connection}
    (edit : SubscriptionIndex → SubscriptionIndex) (hedit : Edit guards edit)
    (hG : Follows guards G s)
    (hform : ∀ index, Alike guards s.state.subscriptions index →
      F (s.setSubscriptions index) = G (s.setSubscriptions (edit index))) :
    FollowsAlike guards F s := by
  obtain ⟨both, hboth, heq⟩ := Follows.edited edit hedit hG
  refine ⟨both, hboth, fun index halike => ?_⟩
  have hself : F s = G (s.setSubscriptions (edit s.state.subscriptions)) :=
    hform s.state.subscriptions ⟨fun _ _ => rfl, rfl⟩
  rw [hform index halike, heq, hself]

theorem FollowsAlike.enterSubscribe (filters : List SubscriptionRequest) (queue : Nat)
    (autoAck : Bool) (identifier : Option Int) (write : WriteOutcome) :
    FollowsAlike (filters.map SubscriptionRequest.topicFilter)
      (fun s => s.enterSubscribe c filters queue autoAck identifier write) s := by
  set entries := s.newEntries filters queue autoAck identifier with hentries
  have hadd : Edit (filters.map SubscriptionRequest.topicFilter) fun index =>
      index.addMany entries.1 := by
    intro fresh index others hdisjoint happ
    apply happ.addMany
    intro item hitem
    apply hdisjoint
    exact ((mem_keys_newEntries s filters queue autoAck identifier item.1).mp
      (List.mem_map_of_mem hitem)).1
  have hbegin : Follows (filters.map SubscriptionRequest.topicFilter)
      (fun s => { s with nextEntry := entries.2 }.beginRequest c
        (.subscribe filters identifier (entries.1.map Prod.fst)) write) s := by
    obtain ⟨edit, hedit, heq⟩ := Follows.beginRequest (c := c)
      (s := { s with nextEntry := entries.2 })
      (.subscribe filters identifier (entries.1.map Prod.fst)) write
    exact ⟨edit, hedit, heq⟩
  refine FollowsAlike.of_edited _ hadd hbegin fun index halike => ?_
  simp only [Connection.enterSubscribe]
  rw [newEntries_alike halike]
  rfl

theorem FollowsAlike.enterUnsubscribe (filters : List Str) (write : WriteOutcome) :
    FollowsAlike filters (fun s => s.enterUnsubscribe c filters write) s := by
  have hremove : Edit filters fun index => index.removeMany filters :=
    fun fresh index others _ happ => happ.removeMany filters
  have hdead : ∀ index, (s.setSubscriptions index).dead = s.dead := fun _ => rfl
  cases hlost : s.dead with
  | true =>
      refine ⟨_, Edit.id filters, fun index _ => ?_⟩
      simp only [Connection.enterUnsubscribe, hdead, hlost, if_true]
      rfl
  | false =>
      set observed := filters.filter s.state.subscriptions.hasResponseObserver with hobserved
      set broker := filters.filter fun f => !observed.contains f with hbroker
      have hrest : Follows filters (fun s =>
          if broker ≠ [] then s.beginRequest c (.unsubscribe broker observed) write
          else if observed ≠ [] then s.beginRequest c (.restoreObservers none observed) write
          else s.finish c (.unsubscribed none)) s := by
        split
        · exact Follows.beginRequest _ write
        · split
          · exact Follows.beginRequest _ write
          · exact Follows.finish c _
      refine FollowsAlike.of_edited _ hremove hrest fun index halike => ?_
      have hsame : filters.filter index.hasResponseObserver = observed := by
        apply List.filter_congr
        intro filter _
        rw [hasResponseObserver, hasResponseObserver, halike.observers]
      have hindex : (s.setSubscriptions index).state.subscriptions = index := rfl
      simp only [Connection.enterUnsubscribe, hdead, hlost, hindex, hsame, Bool.false_eq_true,
        if_false]
      rfl

theorem FollowsAlike.enterAddObserver (topic : Str) (write : WriteOutcome) :
    FollowsAlike [topic] (fun s => s.enterAddObserver c topic write) s := by
  have hdead : ∀ index, (s.setSubscriptions index).dead = s.dead := fun _ => rfl
  have hadd : Edit [topic] fun index => (index.addResponseObserver topic).1 :=
    fun fresh index others _ happ => happ.addResponseObserver topic
  cases hlost : s.dead with
  | true =>
      refine ⟨_, Edit.id [topic], fun index _ => ?_⟩
      simp only [Connection.enterAddObserver, hdead, hlost, if_true]
      rfl
  | false =>
      have hrest : Follows [topic] (fun s' =>
          if !(s.state.subscriptions.addResponseObserver topic).2 then s'.finish c .observed
          else if s.state.subscriptions.contains topic then s'.finish c .observed
          else s'.beginRequest c (.addObserver topic) write) s := by
        split
        · exact Follows.finish c _
        · split
          · exact Follows.finish c _
          · exact Follows.beginRequest _ write
      refine FollowsAlike.of_edited _ hadd hrest fun index halike => ?_
      have hindex : (s.setSubscriptions index).state.subscriptions = index := rfl
      have hknown : (index.addResponseObserver topic).2 =
          (s.state.subscriptions.addResponseObserver topic).2 := by
        simp only [SubscriptionIndex.addResponseObserver, halike.observers]
        split <;> rfl
      have hcontains : (index.addResponseObserver topic).1.contains topic =
          s.state.subscriptions.contains topic := by
        rw [SubscriptionIndex.contains, entries_addResponseObserver]
        exact halike.contains topic (List.mem_singleton_self topic)
      simp only [Connection.enterAddObserver, hdead, hlost, hindex, hknown, hcontains,
        Bool.false_eq_true, if_false]
      cases hnew : (s.state.subscriptions.addResponseObserver topic).2 with
      | true => rfl
      | false =>
          -- the topic was observed before: nothing is added
          have hsame : (index.addResponseObserver topic).1 = index := by
            rw [hnew] at hknown
            unfold SubscriptionIndex.addResponseObserver at hknown ⊢
            split_ifs at hknown ⊢ with hmem
            rfl
          rw [hsame]
          rfl

theorem FollowsAlike.enterRemoveObserver (topic : Str) (write : WriteOutcome) :
    FollowsAlike [topic] (fun s => s.enterRemoveObserver c topic write) s := by
  have hdead : ∀ index, (s.setSubscriptions index).dead = s.dead := fun _ => rfl
  have hremove : Edit [topic] fun index => (index.removeResponseObserver topic).1 :=
    fun fresh index others _ happ => happ.removeResponseObserver topic
  have hrest : Follows [topic] (fun s' =>
      if !(s.state.subscriptions.removeResponseObserver topic).2 then s'.finish c .observed
      else if s.state.subscriptions.contains topic || s.dead then s'.finish c .observed
      else s'.beginRequest c (.removeObserver topic) write) s := by
    split
    · exact Follows.finish c _
    · split
      · exact Follows.finish c _
      · exact Follows.beginRequest _ write
  refine FollowsAlike.of_edited _ hremove hrest fun index halike => ?_
  have hindex : (s.setSubscriptions index).state.subscriptions = index := rfl
  have hknown : (index.removeResponseObserver topic).2 =
      (s.state.subscriptions.removeResponseObserver topic).2 := by
    simp only [SubscriptionIndex.removeResponseObserver, halike.observers]
    split <;> rfl
  have hcontains : (index.removeResponseObserver topic).1.contains topic =
      s.state.subscriptions.contains topic := by
    rw [SubscriptionIndex.contains, entries_removeResponseObserver]
    exact halike.contains topic (List.mem_singleton_self topic)
  simp only [Connection.enterRemoveObserver, hdead, hindex, hknown, hcontains]
  cases hnew : (s.state.subscriptions.removeResponseObserver topic).2 with
  | true => rfl
  | false =>
      have hsame : (index.removeResponseObserver topic).1 = index := by
        rw [hnew] at hknown
        unfold SubscriptionIndex.removeResponseObserver at hknown ⊢
        split_ifs at hknown ⊢ with hmem
        rfl
      rw [hsame]
      rfl

theorem FollowsAlike.enter (guarded : GuardedCall) (write : WriteOutcome) :
    FollowsAlike guarded.filters (fun s => s.enter c guarded write) s := by
  cases guarded with
  | subscribe filters queue autoAck identifier =>
      exact FollowsAlike.enterSubscribe filters queue autoAck identifier write
  | unsubscribe filters => exact FollowsAlike.enterUnsubscribe filters write
  | addResponseObserver topic => exact FollowsAlike.enterAddObserver topic write
  | removeResponseObserver topic => exact FollowsAlike.enterRemoveObserver topic write

/-- A step of a call, on the connection with another index. -/
def Runs (guards : List Str) (run : Connection → Option Connection) (s next : Connection) : Prop :=
  ∃ F, FollowsAlike guards F s ∧ next = F s ∧
    ∀ index, run (s.setSubscriptions index) = some (F (s.setSubscriptions index))

theorem Runs.setPhase (phase : Phase) {run : Connection → Option Connection}
    (hnext : next = s.setPhase c phase)
    (hrun : ∀ index, run (s.setSubscriptions index) =
      some ((s.setSubscriptions index).setPhase c phase)) : Runs guards run s next :=
  ⟨fun s => s.setPhase c phase, ⟨_, Edit.id guards, fun _ _ => rfl⟩, hnext, hrun⟩

theorem Runs.finish (outcome : Outcome) {run : Connection → Option Connection}
    (hnext : next = s.finish c outcome)
    (hrun : ∀ index, run (s.setSubscriptions index) =
      some ((s.setSubscriptions index).finish c outcome)) : Runs guards run s next :=
  ⟨fun s => s.finish c outcome, (Follows.finish c outcome).alike, hnext, hrun⟩

theorem Runs.failRequest (request : Request) (pid : Nat) (error : MqttError)
    {run : Connection → Option Connection} (hnext : next = s.failRequest c request pid error)
    (hrun : ∀ index, run (s.setSubscriptions index) =
      some ((s.setSubscriptions index).failRequest c request pid error)) :
    Runs guards run s next :=
  ⟨fun s => s.failRequest c request pid error, (Follows.failRequest request pid error).alike,
    hnext, hrun⟩

theorem Runs.resumeWrite {ok : Bool} (hstep : s.resumeWrite c call ok = some next) :
    Runs guards (fun s => s.resumeWrite c call ok) s next := by
  unfold Connection.resumeWrite at hstep
  split at hstep
  · next request pid future hphase =>
      split_ifs at hstep with hcancel hok
      · refine Runs.failRequest request pid .cancelled (Option.some.inj hstep).symm fun index => ?_
        simp [Connection.resumeWrite, hphase, hcancel]
      · refine Runs.setPhase (.request request pid future false) (Option.some.inj hstep).symm
          fun index => ?_
        simp [Connection.resumeWrite, hphase, hcancel, hok]
      · refine Runs.failRequest request pid .transport (Option.some.inj hstep).symm fun index => ?_
        simp [Connection.resumeWrite, hphase, hcancel, hok]
  · next pid future hphase =>
      split_ifs at hstep with hcancel hok
      · refine Runs.finish (.raised .cancelled) (Option.some.inj hstep).symm fun index => ?_
        simp [Connection.resumeWrite, hphase, hcancel]
      · refine Runs.setPhase (.publish pid future false) (Option.some.inj hstep).symm
          fun index => ?_
        simp [Connection.resumeWrite, hphase, hcancel, hok]
      · refine Runs.finish (.raised .transport) (Option.some.inj hstep).symm fun index => ?_
        simp [Connection.resumeWrite, hphase, hcancel, hok]
  · next hphase =>
      split_ifs at hstep with hcancel hok
      · refine Runs.finish (.raised .cancelled) (Option.some.inj hstep).symm fun index => ?_
        simp [Connection.resumeWrite, hphase, hcancel]
      · refine Runs.finish (.published none) (Option.some.inj hstep).symm fun index => ?_
        simp [Connection.resumeWrite, hphase, hcancel, hok]
      · refine Runs.finish (.raised .transport) (Option.some.inj hstep).symm fun index => ?_
        simp [Connection.resumeWrite, hphase, hcancel, hok]
  · cases hstep

theorem Runs.resumeFuture {write : WriteOutcome} (hstep : s.resumeFuture c call write = some next) :
    Runs guards (fun s => s.resumeFuture c call write) s next := by
  have hanswers : ∀ index, (s.setSubscriptions index).answerFutures = s.answerFutures :=
    fun _ => rfl
  have hflights : ∀ index, (s.setSubscriptions index).flightFutures = s.flightFutures :=
    fun _ => rfl
  unfold Connection.resumeFuture at hstep
  split at hstep
  · next request pid future hphase =>
      split at hstep
      · cases hstep
      · cases hstep
      · next packet hfuture =>
          split_ifs at hstep with hcancel
          · refine Runs.failRequest request pid .cancelled (Option.some.inj hstep).symm
              fun index => ?_
            simp [Connection.resumeFuture, hphase, hanswers, hfuture, hcancel]
          · refine ⟨fun s => s.answerRequest c request pid packet write,
              (Follows.answerRequest request pid packet write).alike,
              (Option.some.inj hstep).symm, fun index => ?_⟩
            simp [Connection.resumeFuture, hphase, hanswers, hfuture, hcancel]
      · next error hfuture =>
          split_ifs at hstep with hcancel
          · refine Runs.failRequest request pid .cancelled (Option.some.inj hstep).symm
              fun index => ?_
            simp [Connection.resumeFuture, hphase, hanswers, hfuture, hcancel]
          · refine Runs.failRequest request pid error (Option.some.inj hstep).symm
              fun index => ?_
            simp [Connection.resumeFuture, hphase, hanswers, hfuture, hcancel]
      · next hfuture =>
          refine Runs.failRequest request pid .cancelled (Option.some.inj hstep).symm
            fun index => ?_
          simp [Connection.resumeFuture, hphase, hanswers, hfuture]
  · next pid future hphase =>
      split at hstep
      · cases hstep
      · cases hstep
      · next packet hfuture =>
          split_ifs at hstep with hcancel
          · refine Runs.finish (.raised .cancelled) (Option.some.inj hstep).symm fun index => ?_
            simp [Connection.resumeFuture, hphase, hflights, hfuture, hcancel]
          · refine Runs.finish (publishOutcome packet) (Option.some.inj hstep).symm fun index => ?_
            simp [Connection.resumeFuture, hphase, hflights, hfuture, hcancel]
      · next error hfuture =>
          split_ifs at hstep with hcancel
          · refine Runs.finish (.raised .cancelled) (Option.some.inj hstep).symm fun index => ?_
            simp [Connection.resumeFuture, hphase, hflights, hfuture, hcancel]
          · refine Runs.finish (.raised error) (Option.some.inj hstep).symm fun index => ?_
            simp [Connection.resumeFuture, hphase, hflights, hfuture, hcancel]
      · next hfuture =>
          refine Runs.finish (.raised .cancelled) (Option.some.inj hstep).symm fun index => ?_
          simp [Connection.resumeFuture, hphase, hflights, hfuture]
  · cases hstep

theorem FollowsAlike.mono {guards' : List Str} {F : Connection → Connection}
    (h : FollowsAlike guards F s) (hsub : ∀ filter ∈ guards, filter ∈ guards') :
    FollowsAlike guards' F s := by
  obtain ⟨edit, hedit, heq⟩ := h
  refine ⟨edit, ?_, fun index halike => heq index ⟨?_, halike.observers⟩⟩
  · exact fun fresh index others hdisjoint =>
      hedit fresh index others fun filter hfilter => hdisjoint filter (hsub filter hfilter)
  · exact fun filter hfilter => halike.contains filter (hsub filter hfilter)

/-- **A step of a call** is the same step on an index that the call cannot tell apart, and an
edit of that index. -/
theorem step_runs {action : Action} (hcaller : action.caller = some c)
    (hcall : s.calls[c]? = some call) (hholds : call.Holds s.observers)
    (hstep : s.step action = some next) : Runs call.held (fun s => s.step action) s next := by
  have hcalls : ∀ index, (s.setSubscriptions index).calls[c]? = some call := fun _ => hcall
  cases action with
  | acquireGuard c' =>
      cases hcaller
      have hfree : ∀ index filter, (s.setSubscriptions index).guardFree filter =
          s.guardFree filter := fun _ _ => rfl
      obtain ⟨_, hcall', hstep⟩ := Option.bind_eq_some_iff.mp hstep
      cases hcall.symm.trans hcall'
      unfold Connection.acquireGuard at hstep
      split at hstep
      · next guarded filter todo hphase =>
          split_ifs at hstep with hcancel hguard
          · refine Runs.finish (.raised .cancelled) (Option.some.inj hstep).symm fun index => ?_
            simp [Connection.step, hcalls, Connection.acquireGuard, hphase, hcancel]
          · refine ⟨fun s => { s with calls := s.calls.modify c fun call =>
                { call with phase := .guards guarded todo, held := filter :: call.held } },
              ⟨_, Edit.id _, fun _ _ => rfl⟩, (Option.some.inj hstep).symm, fun index => ?_⟩
            simp [Connection.step, hcalls, Connection.acquireGuard, hphase, hcancel, hfree, hguard]
      · cases hstep
  | enter c' write =>
      cases hcaller
      obtain ⟨_, hcall', hstep⟩ := Option.bind_eq_some_iff.mp hstep
      cases hcall.symm.trans hcall'
      split at hstep
      · next guarded hphase =>
          split_ifs at hstep with hcancel
          · refine Runs.finish (.raised .cancelled) (Option.some.inj hstep).symm fun index => ?_
            simp [Connection.step, hcalls, hphase, hcancel]
          · refine ⟨fun s => s.enter c guarded write, ?_, (Option.some.inj hstep).symm,
              fun index => ?_⟩
            · exact (FollowsAlike.enter guarded write).mono fun filter hfilter =>
                hholds.entered hphase hfilter
            · simp [Connection.step, hcalls, hphase, hcancel]
      · cases hstep
  | resumeWrite c' ok =>
      cases hcaller
      obtain ⟨_, hcall', hstep⟩ := Option.bind_eq_some_iff.mp hstep
      cases hcall.symm.trans hcall'
      have hruns : Runs call.held (fun s => s.resumeWrite c call ok) s next :=
        Runs.resumeWrite hstep
      obtain ⟨F, hF, hnext, hrun⟩ := hruns
      refine ⟨F, hF, hnext, fun index => ?_⟩
      simp only [Connection.step, hcalls, Option.bind_some]
      exact hrun index
  | resumeFuture c' write =>
      cases hcaller
      obtain ⟨_, hcall', hstep⟩ := Option.bind_eq_some_iff.mp hstep
      cases hcall.symm.trans hcall'
      have hruns : Runs call.held (fun s => s.resumeFuture c call write) s next :=
        Runs.resumeFuture hstep
      obtain ⟨F, hF, hnext, hrun⟩ := hruns
      refine ⟨F, hF, hnext, fun index => ?_⟩
      simp only [Connection.step, hcalls, Option.bind_some]
      exact hrun index
  | resumeDrain c' ok =>
      cases hcaller
      obtain ⟨_, hcall', hstep⟩ := Option.bind_eq_some_iff.mp hstep
      cases hcall.symm.trans hcall'
      split at hstep
      · next outcome hphase =>
          split_ifs at hstep with hcancel hok
          · refine Runs.finish (.raised .cancelled) (Option.some.inj hstep).symm fun index => ?_
            simp [Connection.step, hcalls, hphase, hcancel]
          · refine Runs.finish outcome (Option.some.inj hstep).symm fun index => ?_
            simp [Connection.step, hcalls, hphase, hcancel, hok]
          · refine Runs.finish (.raised .transport) (Option.some.inj hstep).symm fun index => ?_
            simp [Connection.step, hcalls, hphase, hcancel, hok]
      · cases hstep
  | cancel c' =>
      cases hcaller
      obtain ⟨_, hcall', hstep⟩ := Option.bind_eq_some_iff.mp hstep
      cases hcall.symm.trans hcall'
      refine ⟨fun s => (s.cancel c call).getD s, ⟨_, Edit.id _, fun index _ => ?_⟩, ?_,
        fun index => ?_⟩
      · unfold Connection.cancel
        simp only
        split <;> rfl
      · show next = (s.cancel c call).getD s
        rw [hstep]
        rfl
      · simp only [Connection.step, hcalls, Option.bind_some]
        unfold Connection.cancel at hstep ⊢
        simp only at hstep ⊢
        split at hstep
        · rfl
        · rfl
        · cases hstep
        · rfl
  | _ => cases hcaller

/-- A step of no call leaves the index alone. -/
theorem step_index {action : Action} (hcaller : action.caller = none)
    (hstep : s.step action = some next) : next.state.subscriptions = s.state.subscriptions := by
  cases action with
  | publish packet write =>
      cases hstep
      have hopened : ∀ (flight : Publish) (pid : Nat) (pool : PacketIdPool),
          (s.openFlight flight pid pool).state.subscriptions = s.state.subscriptions := by
        intro flight pid pool
        unfold Connection.openFlight
        simp only
        split <;> rfl
      unfold Connection.publish
      split_ifs
      · rfl
      · rfl
      · rfl
      · unfold Connection.publishQos0
        split
        · rfl
        · split <;> rfl
      · unfold Connection.publishAcknowledged
        split
        · rfl
        · simp only
          split
          · exact hopened _ _ _
          · split <;> exact hopened _ _ _
  | call guarded =>
      cases hstep
      rfl
  | receive packet write =>
      simp only [Connection.step] at hstep
      split at hstep <;> cases hstep
      exact (dispatch_frame s packet write).2.1
  | resumeReader ok =>
      simp only [Connection.step] at hstep
      split at hstep <;> cases hstep
      split <;> rfl
  | exit =>
      simp only [Connection.step] at hstep
      split at hstep <;> cases hstep
      rfl
  | _ => cases hcaller

end Follows

end Connection

end Zmqtt
