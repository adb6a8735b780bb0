import Zmqtt.ProtocolRules
import Zmqtt.Transition

/-!
# Ownership of packet identifiers

The identifiers in use are exactly the keys of the four tables `inflight_qos1`,
`inflight_qos2_out`, `pending_subs` and `pending_unsubs`, each in one of them.

The tables of flights change in `publish` and in the handlers only, one key at a
time together with the pool.  The tables of requests are emptied by the call that
filled them, in its `finally` block, so there the invariant has to say whose key
is whose: a call inside a request finds its own future under its identifier, and
no two calls share one.  While a call runs, its own phase is out of date; `Owned`
therefore names the call that is `active` in the middle of a step.
-/

namespace Zmqtt

/-! ## The four tables -/

/-- A table that holds packet identifiers. -/
inductive Slot
  | qos1
  | qos2
  | request (kind : RequestKind)
deriving DecidableEq

namespace SessionState

variable {state state' : SessionState} {pid : Nat} {slot : Slot}

/-- The keys of a table. -/
def slotKeys (state : SessionState) : Slot → List Nat
  | .qos1 => OrderedDict.keys state.inflightQos1
  | .qos2 => OrderedDict.keys state.inflightQos2Out
  | .request kind => OrderedDict.keys (state.pending kind)

/-- The identifiers in use are the disjoint union of the tables. -/
structure Balanced (state : SessionState) : Prop where
  valid : state.packetIds.Valid
  inUse_iff : ∀ k, k ∈ state.packetIds.inUse ↔ ∃ slot, k ∈ state.slotKeys slot
  disjoint : ∀ k a b, k ∈ state.slotKeys a → k ∈ state.slotKeys b → a = b

theorem Balanced.not_mem_of_acquire (h : state.Balanced) {pool : PacketIdPool}
    (hacquire : state.packetIds.acquire = some (pid, pool)) (slot : Slot) :
    pid ∉ state.slotKeys slot := by
  intro hmem
  exact (PacketIdPool.acquire_spec h.valid hacquire).1 ((h.inUse_iff pid).mpr ⟨slot, hmem⟩)

/-- A key of a table is in the range of the pool. -/
theorem Balanced.key_pos (h : state.Balanced) (hmem : pid ∈ state.slotKeys slot) : 1 ≤ pid :=
  (Finset.mem_Icc.mp (h.valid.inUse_le ((h.inUse_iff pid).mpr ⟨slot, hmem⟩))).1

/-- An acquired identifier entered in one table. -/
theorem Balanced.opened (h : state.Balanced) {pool : PacketIdPool}
    (hacquire : state.packetIds.acquire = some (pid, pool)) (hpool : state'.packetIds = pool)
    (hkeys : ∀ a k, k ∈ state'.slotKeys a ↔ k ∈ state.slotKeys a ∨ (a = slot ∧ k = pid)) :
    state'.Balanced := by
  obtain ⟨-, -, -, hinsert, hvalid⟩ := PacketIdPool.acquire_spec h.valid hacquire
  have hfresh := h.not_mem_of_acquire hacquire
  subst hpool
  refine ⟨hvalid, ?_, ?_⟩
  · intro k
    rw [hinsert, Finset.mem_insert, h.inUse_iff]
    constructor
    · rintro (rfl | ⟨a, ha⟩)
      · exact ⟨slot, (hkeys slot k).mpr (Or.inr ⟨rfl, rfl⟩)⟩
      · exact ⟨a, (hkeys a k).mpr (Or.inl ha)⟩
    · rintro ⟨a, ha⟩
      rcases (hkeys a k).mp ha with ha | ⟨-, rfl⟩
      · exact Or.inr ⟨a, ha⟩
      · exact Or.inl rfl
  · intro k a b ha hb
    rcases (hkeys a k).mp ha with ha | ⟨rfl, rfl⟩
    · rcases (hkeys b k).mp hb with hb | ⟨rfl, rfl⟩
      · exact h.disjoint k a b ha hb
      · exact absurd ha (hfresh a)
    · rcases (hkeys b k).mp hb with hb | ⟨rfl, -⟩
      · exact absurd hb (hfresh b)
      · rfl

/-- An identifier released and taken out of its table. -/
theorem Balanced.closed (h : state.Balanced) (hmem : pid ∈ state.slotKeys slot)
    (hpool : state'.packetIds = state.packetIds.release pid)
    (hkeys : ∀ a k, k ∈ state'.slotKeys a ↔ k ∈ state.slotKeys a ∧ ¬ (a = slot ∧ k = pid)) :
    state'.Balanced := by
  refine ⟨?_, ?_, ?_⟩
  · rw [hpool]
    exact h.valid.release (h.key_pos hmem)
  · intro k
    rw [hpool, PacketIdPool.release_inUse, Finset.mem_erase, h.inUse_iff]
    constructor
    · rintro ⟨hne, a, ha⟩
      exact ⟨a, (hkeys a k).mpr ⟨ha, fun hpair => hne hpair.2⟩⟩
    · rintro ⟨a, ha⟩
      obtain ⟨ha, hpair⟩ := (hkeys a k).mp ha
      refine ⟨?_, a, ha⟩
      rintro rfl
      exact hpair ⟨h.disjoint _ a slot ha hmem, rfl⟩
  · intro k a b ha hb
    exact h.disjoint k a b ((hkeys a k).mp ha).1 ((hkeys b k).mp hb).1

theorem Balanced.congr (h : state.Balanced) (hpool : state'.packetIds = state.packetIds)
    (hkeys : ∀ a k, k ∈ state'.slotKeys a ↔ k ∈ state.slotKeys a) : state'.Balanced := by
  refine ⟨hpool ▸ h.valid, ?_, ?_⟩
  · intro k
    rw [hpool, h.inUse_iff]
    exact exists_congr fun a => (hkeys a k).symm
  · intro k a b ha hb
    exact h.disjoint k a b ((hkeys a k).mp ha) ((hkeys b k).mp hb)

theorem slotKeys_setPending (state : SessionState) (kind : RequestKind)
    (pending : List (Nat × Nat)) (pool : PacketIdPool) (a : Slot) :
    ({ state.setPending kind pending with packetIds := pool } : SessionState).slotKeys a =
      if a = .request kind then OrderedDict.keys pending else state.slotKeys a := by
  rcases a with _ | _ | other
  · cases kind <;> rfl
  · cases kind <;> rfl
  · cases kind <;> cases other <;> rfl

theorem pending_setPending (state : SessionState) (kind other : RequestKind)
    (pending : List (Nat × Nat)) (pool : PacketIdPool) :
    ({ state.setPending kind pending with packetIds := pool } : SessionState).pending other =
      if other = kind then pending else state.pending other := by
  cases kind <;> cases other <;> rfl

end SessionState

/-! ## Publishes in progress, as a run shows them -/

/-- Whether handling a packet ends the publish that runs under an identifier: its
PUBACK, its PUBCOMP, or a PUBREC that refuses it. -/
def finishes (qos : QoS) (pid : Nat) : Packet → Bool
  | .puback packet => qos = .atLeastOnce && packet.packetId = pid
  | .pubcomp packet => qos = .exactlyOnce && packet.packetId = pid
  | .pubrec packet => qos = .exactlyOnce && packet.packetId = pid && packet.reasonCode ≥ 0x80
  | _ => false

/-- The publish under an identifier after one more event. -/
def Event.publishing (pid : Nat) (owner : Option QoS) : Event → Option QoS
  | .acquired (.publish qos) k => if k = pid then some qos else owner
  | .acquired (.request _) k => if k = pid then none else owner
  | .wrote _ => owner
  | .handled packet => owner.filter fun qos => !finishes qos pid packet

/-- The QoS of the publish that runs under an identifier, if one does. -/
def publishing (pid : Nat) (log : List Event) : Option QoS :=
  log.foldl (Event.publishing pid) none

theorem publishing_append (pid : Nat) (log : List Event) (event : Event) :
    publishing pid (log ++ [event]) = event.publishing pid (publishing pid log) := by
  rw [publishing, List.foldl_append]
  rfl

/-- An element of a list with one more at its end is that one, or is in the list. -/
theorem append_singleton_eq {α : Type} {xs before after : List α} {last x : α}
    (h : xs ++ [last] = before ++ x :: after) :
    (xs = before ∧ last = x) ∨ ∃ rest, xs = before ++ x :: rest := by
  rcases List.eq_nil_or_concat after with rfl | ⟨rest, final, rfl⟩
  · obtain ⟨hxs, hlast⟩ := List.append_inj' h rfl
    exact Or.inl ⟨hxs, (List.cons.inj hlast).1⟩
  · rw [List.concat_eq_append, ← List.cons_append, ← List.append_assoc] at h
    exact Or.inr ⟨rest, (List.append_inj' h rfl).1⟩

/-- The table of a publish. -/
def QoS.slot (qos : QoS) : Slot := if qos = .atLeastOnce then .qos1 else .qos2

/-- Publishes in progress have their identifier in their table, and none was ever
acquired during a publish. -/
structure Recorded (state : SessionState) (log : List Event) : Prop where
  held : ∀ pid qos, publishing pid log = some qos →
    qos ≠ .atMostOnce ∧ pid ∈ state.slotKeys qos.slot
  fresh : ∀ before acquirer pid after, log = before ++ .acquired acquirer pid :: after →
    publishing pid before = none

theorem Recorded.append_other {state state' : SessionState} {log : List Event} {event : Event}
    (h : Recorded state log) (hother : ∀ acquirer pid, event ≠ .acquired acquirer pid)
    (hheld : ∀ pid qos, qos ≠ .atMostOnce → pid ∈ state.slotKeys qos.slot →
      event.publishing pid (some qos) = some qos → pid ∈ state'.slotKeys qos.slot) :
    Recorded state' (log ++ [event]) := by
  constructor
  · intro pid qos hpub
    rw [publishing_append] at hpub
    cases hbefore : publishing pid log with
    | none =>
        rw [hbefore] at hpub
        cases event with
        | acquired acquirer k => exact absurd rfl (hother acquirer k)
        | wrote packet => cases hpub
        | handled packet => cases hpub
    | some old =>
        have heq : old = qos := by
          rw [hbefore] at hpub
          cases event with
          | acquired acquirer k => exact absurd rfl (hother acquirer k)
          | wrote packet => exact Option.some.inj hpub
          | handled packet =>
              rw [Event.publishing, Option.filter_eq_some_iff] at hpub
              exact Option.some.inj hpub.1
        subst heq
        rw [hbefore] at hpub
        obtain ⟨hne, hmem⟩ := h.held pid old hbefore
        exact ⟨hne, hheld pid old hne hmem hpub⟩
  · intro before acquirer pid after heq
    rcases append_singleton_eq heq with ⟨-, hevent⟩ | ⟨rest, hlog⟩
    · exact absurd hevent (hother acquirer pid)
    · exact h.fresh before acquirer pid rest hlog

theorem Recorded.append_acquired {state state' : SessionState} {log : List Event}
    {acquirer : Acquirer} {pid : Nat} (h : Recorded state log)
    (hfresh : ∀ slot, pid ∉ state.slotKeys slot)
    (hkeep : ∀ slot k, k ∈ state.slotKeys slot → k ∈ state'.slotKeys slot)
    (hslot : ∀ qos, acquirer = .publish qos →
      qos ≠ .atMostOnce ∧ pid ∈ state'.slotKeys qos.slot) :
    Recorded state' (log ++ [.acquired acquirer pid]) := by
  have hnone : publishing pid log = none := by
    cases hpub : publishing pid log with
    | none => rfl
    | some qos => exact absurd (h.held pid qos hpub).2 (hfresh _)
  constructor
  · intro k qos hpub
    rw [publishing_append] at hpub
    by_cases hk : pid = k
    · subst hk
      cases acquirer with
      | publish qos' =>
          simp only [Event.publishing, if_pos] at hpub
          cases hpub
          exact hslot qos rfl
      | request kind => simp [Event.publishing] at hpub
    · have hbefore : publishing k log = some qos := by
        cases acquirer with
        | publish qos' => simpa [Event.publishing, hk] using hpub
        | request kind => simpa [Event.publishing, hk] using hpub
      obtain ⟨hne, hmem⟩ := h.held k qos hbefore
      exact ⟨hne, hkeep _ _ hmem⟩
  · intro before other k after heq
    rcases append_singleton_eq heq with ⟨hlog, hevent⟩ | ⟨rest, hlog⟩
    · cases hevent
      rw [← hlog]
      exact hnone
    · exact h.fresh before other k rest hlog

/-! ## Whose request is whose -/

namespace Connection

variable {s : Connection} {active : Option Nat} {c : Nat}

/-- The invariant of a connection on which the call `active`, if any, is in the
middle of its step. -/
structure Owned (active : Option Nat) (s : Connection) : Prop where
  balanced : s.state.Balanced
  recorded : Recorded s.state s.log
  holds : ∀ c, some c ≠ active → ∀ kind pid future, s.owned c = some (kind, pid, future) →
    OrderedDict.get (s.state.pending kind) pid = some future
  unique : ∀ c c', some c ≠ active → some c' ≠ active → ∀ kind pid future future',
    s.owned c = some (kind, pid, future) → s.owned c' = some (kind, pid, future') → c = c'

theorem Owned.weaken (h : s.Owned none) (c : Nat) : s.Owned (some c) :=
  ⟨h.balanced, h.recorded, fun c' _ => h.holds c' (by simp),
    fun a b _ _ => h.unique a b (by simp) (by simp)⟩

/-- Tables and record unchanged, and no call inside a request it was not in. -/
theorem Owned.of_same {s' : Connection} {active' : Option Nat} (h : s.Owned active)
    (hpool : s'.state.packetIds = s.state.packetIds)
    (hqos1 : s'.state.inflightQos1 = s.state.inflightQos1)
    (hqos2 : s'.state.inflightQos2Out = s.state.inflightQos2Out)
    (hpending : ∀ kind, s'.state.pending kind = s.state.pending kind)
    (hlog : s'.log = s.log)
    (howned : ∀ c, some c ≠ active' → ∀ item, s'.owned c = some item →
      some c ≠ active ∧ s.owned c = some item) :
    s'.Owned active' := by
  have hkeys : ∀ a, s'.state.slotKeys a = s.state.slotKeys a := by
    rintro (_ | _ | kind)
    · exact congrArg OrderedDict.keys hqos1
    · exact congrArg OrderedDict.keys hqos2
    · exact congrArg OrderedDict.keys (hpending kind)
  refine ⟨h.balanced.congr hpool (fun a k => by rw [hkeys]), ?_, ?_, ?_⟩
  · rw [hlog]
    refine ⟨?_, h.recorded.fresh⟩
    intro pid qos hpub
    rw [hkeys]
    exact h.recorded.held pid qos hpub
  · intro c hc kind pid future hown
    obtain ⟨hc, hown⟩ := howned c hc _ hown
    rw [hpending]
    exact h.holds c hc kind pid future hown
  · intro a b ha hb kind pid future future' hown hown'
    obtain ⟨ha, hown⟩ := howned a ha _ hown
    obtain ⟨hb, hown'⟩ := howned b hb _ hown'
    exact h.unique a b ha hb kind pid future future' hown hown'

/-- No call but the active one is inside a request of the identifier. -/
def Unowned (s : Connection) (active : Option Nat) (kind : RequestKind) (pid : Nat) : Prop :=
  ∀ c, some c ≠ active → ∀ future, s.owned c ≠ some (kind, pid, future)

theorem Owned.openRequest (h : s.Owned active) (kind : RequestKind) {pid : Nat}
    {pool : PacketIdPool} (hacquire : s.state.packetIds.acquire = some (pid, pool)) :
    (s.openRequest kind pid pool).Owned active ∧
      (s.openRequest kind pid pool).Unowned active kind pid ∧
      OrderedDict.get ((s.openRequest kind pid pool).state.pending kind) pid =
        some s.answerFutures.length := by
  have hfresh := h.balanced.not_mem_of_acquire hacquire
  have hkeys : ∀ a k, k ∈ (s.openRequest kind pid pool).state.slotKeys a ↔
      k ∈ s.state.slotKeys a ∨ (a = .request kind ∧ k = pid) := by
    intro a k
    unfold Connection.openRequest
    rw [SessionState.slotKeys_setPending]
    by_cases ha : a = .request kind
    · subst ha
      rw [if_pos rfl, OrderedDict.mem_keys_set, or_comm]
      simp [SessionState.slotKeys]
    · simp [ha]
  have hpending : ∀ other, (s.openRequest kind pid pool).state.pending other =
      if other = kind then OrderedDict.set (s.state.pending kind) pid s.answerFutures.length
      else s.state.pending other :=
    fun other => SessionState.pending_setPending _ _ _ _ _
  have hunowned : s.Unowned active kind pid := by
    intro c hc future hown
    have hget := h.holds c hc kind pid future hown
    exact hfresh (.request kind) ((OrderedDict.mem_keys_iff _ _).mpr ⟨future, hget⟩)
  refine ⟨⟨h.balanced.opened hacquire rfl hkeys, ?_, ?_, h.unique⟩, hunowned, ?_⟩
  · exact h.recorded.append_acquired hfresh (fun a k hk => (hkeys a k).mpr (Or.inl hk))
      (fun qos heq => by cases heq)
  · intro c hc other k future hown
    rw [hpending]
    by_cases hother : other = kind
    · subst hother
      have hk : pid ≠ k := by
        rintro rfl
        exact hunowned c hc future hown
      rw [if_pos rfl, OrderedDict.get_set, if_neg hk]
      exact h.holds c hc other k future hown
    · rw [if_neg hother]
      exact h.holds c hc other k future hown
  · rw [hpending, if_pos rfl, OrderedDict.get_set, if_pos rfl]

theorem Owned.closeRequest (h : s.Owned active) {kind : RequestKind} {pid future : Nat}
    (hget : OrderedDict.get (s.state.pending kind) pid = some future)
    (hunowned : s.Unowned active kind pid) : (s.closeRequest kind pid).Owned active := by
  have hmem : pid ∈ s.state.slotKeys (.request kind) :=
    (OrderedDict.mem_keys_iff _ _).mpr ⟨future, hget⟩
  have hkeys : ∀ a k, k ∈ (s.closeRequest kind pid).state.slotKeys a ↔
      k ∈ s.state.slotKeys a ∧ ¬ (a = .request kind ∧ k = pid) := by
    intro a k
    unfold Connection.closeRequest
    rw [SessionState.slotKeys_setPending]
    by_cases ha : a = .request kind
    · subst ha
      rw [if_pos rfl, OrderedDict.mem_keys_pop, and_comm]
      simp [SessionState.slotKeys]
    · simp [ha]
  refine ⟨h.balanced.closed hmem rfl hkeys, ?_, ?_, h.unique⟩
  · refine ⟨?_, h.recorded.fresh⟩
    intro k qos hpub
    obtain ⟨hne, hmem⟩ := h.recorded.held k qos hpub
    refine ⟨hne, (hkeys _ k).mpr ⟨hmem, ?_⟩⟩
    rintro ⟨hslot, -⟩
    unfold QoS.slot at hslot
    split at hslot <;> cases hslot
  · intro c hc other k future' hown
    have hold := h.holds c hc other k future' hown
    unfold Connection.closeRequest
    rw [SessionState.pending_setPending]
    by_cases hother : other = kind
    · subst hother
      have hk : pid ≠ k := by
        rintro rfl
        exact hunowned c hc future' hown
      rw [if_pos rfl, OrderedDict.get_pop, if_neg hk]
      exact hold
    · rw [if_neg hother]
      exact hold

theorem Owned.log_wrote (h : s.Owned active) (packet : Packet) :
    ({ s with log := s.log ++ [.wrote packet] } : Connection).Owned active :=
  ⟨h.balanced, h.recorded.append_other (fun _ _ heq => by cases heq) (fun _ _ _ hmem _ => hmem),
    h.holds, h.unique⟩

/-- The active call enters a request that nobody else is in. -/
theorem Owned.enterRequest (h : s.Owned (some c)) (request : Request) {pid future : Nat}
    (writing : Bool) (hget : OrderedDict.get (s.state.pending request.kind) pid = some future)
    (hunowned : s.Unowned (some c) request.kind pid) :
    (s.setPhase c (.request request pid future writing)).Owned none := by
  have hne : ∀ {c'}, c' ≠ c → some c' ≠ some c := fun hc heq => hc (Option.some.inj heq)
  refine ⟨h.balanced, h.recorded, ?_, ?_⟩
  · intro c' _ kind k future' hown
    rcases owned_of_setPhase hown with ⟨-, heq⟩ | ⟨hc, hown⟩
    · cases heq
      exact hget
    · exact h.holds c' (hne hc) kind k future' hown
  · intro a b _ _ kind k f f' hown hown'
    rcases owned_of_setPhase hown with ⟨ha, heq⟩ | ⟨ha, hown⟩
    · rcases owned_of_setPhase hown' with ⟨hb, -⟩ | ⟨hb, hown'⟩
      · exact ha.trans hb.symm
      · cases heq
        exact absurd hown' (hunowned b (hne hb) f')
    · rcases owned_of_setPhase hown' with ⟨hb, heq⟩ | ⟨hb, hown'⟩
      · cases heq
        exact absurd hown (hunowned a (hne ha) f)
      · exact h.unique a b (hne ha) (hne hb) kind k f f' hown hown'

/-- The `finally` block of a call inside a request. -/
theorem Owned.closeOwn (h : s.Owned none) {kind : RequestKind} {pid future : Nat}
    (hown : s.owned c = some (kind, pid, future)) : (s.closeRequest kind pid).Owned (some c) := by
  apply (h.weaken c).closeRequest (h.holds c (by simp) kind pid future hown)
  intro c' hc' future' hown'
  exact hc' (congrArg some (h.unique c' c (by simp) (by simp) kind pid future' future hown' hown))

/-- A publish leaves the tables of requests alone. -/
theorem openFlight_pending (s : Connection) (packet : Publish) (pid : Nat) (pool : PacketIdPool)
    (kind : RequestKind) :
    (s.openFlight packet pid pool).state.pending kind = s.state.pending kind := by
  unfold Connection.openFlight
  by_cases hqos : packet.qos = .atLeastOnce
  · simp only [if_pos hqos]
    cases kind <;> rfl
  · simp only [if_neg hqos]
    cases kind <;> rfl

theorem Owned.openFlight (h : s.Owned active) (packet : Publish) {pid : Nat}
    (hqos : packet.qos ≠ .atMostOnce) {pool : PacketIdPool} (hacquire : s.state.packetIds.acquire = some (pid, pool)) :
    (s.openFlight packet pid pool).Owned active := by
  have hfresh := h.balanced.not_mem_of_acquire hacquire
  have hkeys : ∀ a k, k ∈ (s.openFlight packet pid pool).state.slotKeys a ↔
      k ∈ s.state.slotKeys a ∨ (a = packet.qos.slot ∧ k = pid) := by
    intro a k
    unfold Connection.openFlight QoS.slot
    by_cases hqos : packet.qos = .atLeastOnce
    · simp only [if_pos hqos]
      rcases a with _ | _ | kind
      · simp only [SessionState.slotKeys, OrderedDict.mem_keys_set, true_and]
        exact or_comm
      · simp [SessionState.slotKeys]
      · cases kind <;> simp [SessionState.slotKeys, SessionState.pending]
    · simp only [if_neg hqos]
      rcases a with _ | _ | kind
      · simp [SessionState.slotKeys]
      · simp only [SessionState.slotKeys, OrderedDict.mem_keys_set, true_and]
        exact or_comm
      · cases kind <;> simp [SessionState.slotKeys, SessionState.pending]
  have hpool : (s.openFlight packet pid pool).state.packetIds = pool := by
    unfold Connection.openFlight
    simp only
    split <;> rfl
  refine ⟨h.balanced.opened hacquire hpool hkeys, ?_, ?_, h.unique⟩
  · refine h.recorded.append_acquired hfresh (fun a k hk => (hkeys a k).mpr (Or.inl hk)) ?_
    intro qos heq
    cases heq
    exact ⟨hqos, (hkeys _ pid).mpr (Or.inr ⟨rfl, rfl⟩)⟩
  · intro c hc kind k future hown
    rw [openFlight_pending]
    exact h.holds c hc kind k future hown

/-- **The calls keep the invariant**, whatever they do and wherever they fail. -/
theorem ownedRules : CallRules Owned fun _ _ => True where
  weaken c h := h.weaken c
  leave f hf h := by
    refine h.of_same rfl rfl rfl (fun _ => rfl) rfl ?_
    intro c' _ item hown
    obtain ⟨hc, hown⟩ := owned_of_leave hf hown
    exact ⟨fun heq => hc (Option.some.inj heq), hown⟩
  keep f hf h := by
    refine h.of_same rfl rfl rfl (fun _ => rfl) rfl ?_
    intro c' hc item hown
    rw [owned_of_keep hf] at hown
    exact ⟨hc, hown⟩
  addCall phase hphase h :=
    h.of_same rfl rfl rfl (fun _ => rfl) rfl
      (fun _ hc _ hown => ⟨hc, owned_of_addCall hphase hown⟩)
  index subscriptions nextEntry _ h :=
    h.of_same rfl rfl rfl (fun kind => by cases kind <;> rfl) rfl
      (fun _ hc _ hown => ⟨hc, hown⟩)
  wrote packet h := h.log_wrote (.publish packet)
  openFlight packet _ _ _ hqos hacquire h := h.openFlight packet hqos hacquire
  failed kind _ _ _ hacquire h := by
    obtain ⟨hopen, hunowned, hget⟩ := h.openRequest kind hacquire
    exact hopen.closeRequest hget hunowned
  written request writing pid _ _ hacquire h := by
    obtain ⟨hopen, hunowned, hget⟩ := h.openRequest request.kind hacquire
    have hentered := (hopen.log_wrote (request.packet pid)).enterRequest request writing hget
      hunowned
    exact ⟨hentered.balanced, hentered.recorded, hentered.holds, hentered.unique⟩
  done _ := trivial
  close hown _ h := h.closeOwn hown

/-! ## The handlers -/

theorem Owned.endReader (h : s.Owned active) (error : MqttError) :
    (s.endReader error).Owned active :=
  ⟨h.balanced, h.recorded, h.holds, h.unique⟩

theorem Owned.logHandled (h : s.Owned active) (packet : Packet) :
    (s.logHandled packet).Owned active := by
  refine ⟨h.balanced, ?_, h.holds, h.unique⟩
  exact h.recorded.append_other (fun _ _ heq => by cases heq) (fun _ _ _ hmem _ => hmem)

/-- A flight taken out of its table, its identifier released, by a packet that
ends it. -/
theorem Owned.closeFlight {s' : Connection} (h : s.Owned none) (qos : QoS) {pid : Nat}
    {packet : Packet}
    (hmem : pid ∈ s.state.slotKeys qos.slot)
    (hpool : s'.state.packetIds = s.state.packetIds.release pid)
    (hkeys : ∀ a k, k ∈ s'.state.slotKeys a ↔
      k ∈ s.state.slotKeys a ∧ ¬ (a = qos.slot ∧ k = pid))
    (hpending : ∀ kind, s'.state.pending kind = s.state.pending kind)
    (hcalls : s'.calls = s.calls) (hlog : s'.log = s.log ++ [.handled packet])
    (hfinishes : ∀ other, other ≠ .atMostOnce → other.slot = qos.slot →
      finishes other pid packet = true) :
    s'.Owned none := by
  have howned : ∀ c, s'.owned c = s.owned c := by
    intro c
    unfold Connection.owned
    rw [hcalls]
  refine ⟨h.balanced.closed hmem hpool hkeys, ?_, ?_, ?_⟩
  · rw [hlog]
    refine h.recorded.append_other (fun _ _ heq => by cases heq) ?_
    intro k other hne hk hstays
    refine (hkeys _ k).mpr ⟨hk, ?_⟩
    rintro ⟨hslot, rfl⟩
    simp [Event.publishing, hfinishes other hne hslot] at hstays
  · intro c hc kind k future hown
    rw [howned] at hown
    rw [hpending]
    exact h.holds c hc kind k future hown
  · intro a b ha hb kind k f f' hown hown'
    rw [howned] at hown hown'
    exact h.unique a b ha hb kind k f f' hown hown'

theorem Owned.handlePuback (h : s.Owned none) (packet : PubReply) :
    (s.handlePuback packet).Owned none := by
  unfold Connection.handlePuback
  cases hget : OrderedDict.get s.state.inflightQos1 packet.packetId.toNat with
  | none => exact h.endReader _
  | some flight =>
      have hmem : packet.packetId.toNat ∈ s.state.slotKeys (QoS.atLeastOnce).slot :=
        (OrderedDict.mem_keys_iff _ _).mpr ⟨flight, hget⟩
      have hpos := h.balanced.key_pos hmem
      refine h.closeFlight .atLeastOnce hmem rfl ?_ (fun kind => by cases kind <;> rfl)
        rfl rfl ?_
      · rintro (_ | _ | kind) k
        · show k ∈ OrderedDict.keys (OrderedDict.pop _ _) ↔ _
          rw [OrderedDict.mem_keys_pop]
          simp [SessionState.slotKeys, QoS.slot, and_comm]
        · simp [SessionState.slotKeys, QoS.slot, Connection.logHandled, Connection.settleFlight]
        · cases kind <;> simp [SessionState.slotKeys, SessionState.pending, QoS.slot,
            Connection.logHandled, Connection.settleFlight]
      · intro other _ hslot
        cases other with
        | atMostOnce => cases hslot
        | atLeastOnce =>
            simp only [finishes, decide_true, Bool.true_and, decide_eq_true_eq]
            omega
        | exactlyOnce => cases hslot

/-- A QoS 2 flight ended by a packet. -/
theorem Owned.closeQos2 (h : s.Owned none) {packet : Packet} {flight : OutboundQoS2Flight}
    {pid : Nat} (hget : OrderedDict.get s.state.inflightQos2Out pid = some flight)
    (hfinishes : finishes .exactlyOnce pid packet = true) (future : Nat) (value : FutureState) :
    (((s.closeQos2 pid).settleFlight future value).logHandled packet).Owned none := by
  have hmem : pid ∈ s.state.slotKeys (QoS.exactlyOnce).slot :=
    (OrderedDict.mem_keys_iff _ _).mpr ⟨flight, hget⟩
  refine h.closeFlight .exactlyOnce hmem rfl ?_ (fun kind => by cases kind <;> rfl)
    rfl rfl ?_
  · rintro (_ | _ | kind) k
    · simp [SessionState.slotKeys, QoS.slot, Connection.logHandled, Connection.settleFlight,
        Connection.closeQos2]
    · show k ∈ OrderedDict.keys (OrderedDict.pop _ _) ↔ _
      rw [OrderedDict.mem_keys_pop]
      simp [SessionState.slotKeys, QoS.slot, and_comm]
    · cases kind <;> simp [SessionState.slotKeys, SessionState.pending, QoS.slot,
        Connection.logHandled, Connection.settleFlight, Connection.closeQos2]
  · intro other hne hslot
    cases other with
    | atMostOnce => exact absurd rfl hne
    | atLeastOnce => cases hslot
    | exactlyOnce => exact hfinishes

theorem Owned.handlePubcomp (h : s.Owned none) (packet : PubReply) :
    (s.handlePubcomp packet).Owned none := by
  unfold Connection.handlePubcomp
  cases hget : OrderedDict.get s.state.inflightQos2Out packet.packetId.toNat with
  | none => exact h.endReader _
  | some flight =>
      have hmem : packet.packetId.toNat ∈ s.state.slotKeys .qos2 :=
        (OrderedDict.mem_keys_iff _ _).mpr ⟨flight, hget⟩
      have hpos := h.balanced.key_pos hmem
      apply h.closeQos2 hget
      simp only [finishes, decide_true, Bool.true_and, decide_eq_true_eq]
      omega

theorem Owned.handlePubrec (h : s.Owned none) (packet : PubReply) (write : WriteOutcome) :
    (s.handlePubrec packet write).Owned none := by
  unfold Connection.handlePubrec
  cases hget : OrderedDict.get s.state.inflightQos2Out packet.packetId.toNat with
  | none => exact h.endReader _
  | some flight =>
      have hmem : packet.packetId.toNat ∈ s.state.slotKeys .qos2 :=
        (OrderedDict.mem_keys_iff _ _).mpr ⟨flight, hget⟩
      have hpos := h.balanced.key_pos hmem
      simp only
      split
      · exact h.endReader _
      · split
        · next hcode =>
            apply h.closeQos2 hget
            simp only [finishes, decide_true, Bool.true_and, Bool.and_eq_true, decide_eq_true_eq]
            exact ⟨by omega, hcode⟩
        · -- the flight stays, in its second state
          have hadvanced : ({ s with
              state := { s.state with
                inflightQos2Out := OrderedDict.set s.state.inflightQos2Out packet.packetId.toNat
                  { flight with state := .pendingPubcomp } } } : Connection).Owned none := by
            have hkeys : ∀ a k, k ∈ ({ s.state with
                inflightQos2Out := OrderedDict.set s.state.inflightQos2Out packet.packetId.toNat
                  { flight with state := .pendingPubcomp } } : SessionState).slotKeys a ↔
                k ∈ s.state.slotKeys a := by
              rintro (_ | _ | kind) k
              · exact Iff.rfl
              · show k ∈ OrderedDict.keys (OrderedDict.set _ _ _) ↔ _
                rw [OrderedDict.mem_keys_set]
                exact or_iff_right_of_imp (fun heq => heq ▸ hmem)
              · cases kind <;> exact Iff.rfl
            refine ⟨h.balanced.congr rfl hkeys, ?_, ?_, h.unique⟩
            · refine ⟨?_, h.recorded.fresh⟩
              intro pid qos hpub
              obtain ⟨hne, hk⟩ := h.recorded.held pid qos hpub
              exact ⟨hne, (hkeys _ pid).mpr hk⟩
            · intro c hc kind pid future hown
              have hold := h.holds c hc kind pid future hown
              cases kind <;> exact hold
          have hlogged := hadvanced.logHandled (.pubrec packet)
          split
          · exact hlogged.endReader _
          · split
            · exact hlogged.endReader _
            · have hwrote := hlogged.log_wrote (.pubrel { packetId := packet.packetId })
              exact ⟨hwrote.balanced, hwrote.recorded, hwrote.holds, hwrote.unique⟩
            · exact hlogged.log_wrote _

theorem Owned.handleAnswer (h : s.Owned none) (kind : RequestKind) (packetId : Int)
    (packet : Packet) (unknown : String) :
    (s.handleAnswer kind packetId packet unknown).Owned none := by
  unfold Connection.handleAnswer
  have hcounted : ({ s with replies := s.replies ++ [packet] } : Connection).Owned none :=
    ⟨h.balanced, h.recorded, h.holds, h.unique⟩
  simp only
  split
  · exact hcounted.endReader _
  · split
    · apply Owned.logHandled
      exact ⟨h.balanced, h.recorded, h.holds, h.unique⟩
    · exact hcounted.endReader _

theorem Owned.dispatch (h : s.Owned none) (packet : Packet) (write : WriteOutcome) :
    (s.dispatch packet write).Owned none := by
  cases packet with
  | connect packet => exact h.endReader _
  | connack packet => exact h.endReader _
  | publish packet => exact h.logHandled _
  | puback packet => exact h.handlePuback packet
  | pubrec packet => exact h.handlePubrec packet write
  | pubrel packet => exact h.logHandled _
  | pubcomp packet => exact h.handlePubcomp packet
  | subscribe packet => exact h.endReader _
  | suback packet => exact h.handleAnswer _ _ _ _
  | unsubscribe packet => exact h.endReader _
  | unsuback packet => exact h.handleAnswer _ _ _ _
  | pingreq => exact h.endReader _
  | pingresp => exact h.logHandled _
  | disconnect packet => exact h.endReader _
  | auth packet =>
      simp only [Connection.dispatch]
      split
      · exact h.logHandled _
      · exact h.endReader _

/-! ## Every step, every run -/

theorem Owned.cancel {s' : Connection} (h : s.Owned none) {call : Call}
    (hstep : s.cancel c call = some s') : s'.Owned none := by
  have hrequested := ownedRules.keep (fun call => { call with cancelRequested := true })
    (fun _ _ => rfl) h (c := c)
  unfold Connection.cancel at hstep
  simp only at hstep
  split at hstep
  · cases hstep
    exact ⟨hrequested.balanced, hrequested.recorded, hrequested.holds, hrequested.unique⟩
  · cases hstep
    exact ⟨hrequested.balanced, hrequested.recorded, hrequested.holds, hrequested.unique⟩
  · cases hstep
  · cases hstep
    exact hrequested

/-- **Step.**  Every step of a call, of the read loop or of the end of the
connection keeps the invariant. -/
theorem Owned.step {s' : Connection} {action : Action} (h : s.Owned none)
    (hstep : s.step action = some s') : s'.Owned none :=
  ownedRules.step h hstep (fun _ _ _ _ _ _ _ _ _ _ => trivial)
    (fun _ _ _ _ hcancel => h.cancel hcancel) (fun packet write _ _ _ => h.dispatch packet write)
    (fun _ _ => ⟨h.balanced, h.recorded, h.holds, h.unique⟩)
    (fun _ => ⟨h.balanced, h.recorded, h.holds, h.unique⟩)

/-- A connection after its handshake. -/
def opened (version : Version) (strippedPrefixes : List Str) (maxPublishQos : QoS)
    (retainAvailable : Bool) : Connection :=
  { version, strippedPrefixes, maxPublishQos, retainAvailable }

theorem opened_owned (version : Version) (strippedPrefixes : List Str) (maxPublishQos : QoS)
    (retainAvailable : Bool) :
    (opened version strippedPrefixes maxPublishQos retainAvailable).Owned none := by
  have hkeys : ∀ slot k, k ∉ ({} : SessionState).slotKeys slot := by
    rintro (_ | _ | kind) k hk
    · cases hk
    · cases hk
    · cases kind <;> cases hk
  refine ⟨⟨PacketIdPool.empty_valid, ?_, ?_⟩, ⟨?_, ?_⟩, ?_, ?_⟩
  · intro k
    constructor
    · intro hk
      cases hk
    · rintro ⟨slot, hk⟩
      exact absurd hk (hkeys slot k)
  · intro k a b ha
    exact absurd ha (hkeys a k)
  · intro pid qos hpub
    cases hpub
  · intro before acquirer pid after heq
    cases before <;> cases heq
  · intro c _ kind pid future hown
    cases hown
  · intro a b _ _ kind pid f f' hown
    cases hown

/-- **Run.**  The invariant holds in every reachable state. -/
theorem owned_run {version : Version} {strippedPrefixes : List Str} {maxPublishQos : QoS}
    {retainAvailable : Bool} {actions : List Action}
    (hrun : Transition.run Connection.step
      (opened version strippedPrefixes maxPublishQos retainAvailable) actions = some s) :
    s.Owned none :=
  Transition.invariant (fun _ _ _ h hstep => h.step hstep) (opened_owned _ _ _ _) hrun

end Connection

/-- **Packet-id ownership.**  In every reachable state the identifiers in use are
the disjoint union of the keys of the four tables, all in `1 .. 65535`; and
whenever an identifier was acquired, no publish was in progress under it: its
PUBACK, its PUBCOMP or a PUBREC that refused it had been handled. -/
theorem packet_ids_owned (version : Version) (strippedPrefixes : List Str) (maxPublishQos : QoS)
    (retainAvailable : Bool) (actions : List Connection.Action) (s : Connection)
    (hrun : Transition.run Connection.step
      (Connection.opened version strippedPrefixes maxPublishQos retainAvailable) actions =
        some s) :
    s.state.packetIds.inUse =
        (OrderedDict.keys s.state.inflightQos1).toFinset ∪
          (OrderedDict.keys s.state.inflightQos2Out).toFinset ∪
          (OrderedDict.keys s.state.pendingSubs).toFinset ∪
          (OrderedDict.keys s.state.pendingUnsubs).toFinset ∧
      [OrderedDict.keys s.state.inflightQos1, OrderedDict.keys s.state.inflightQos2Out,
        OrderedDict.keys s.state.pendingSubs, OrderedDict.keys s.state.pendingUnsubs].Pairwise
          List.Disjoint ∧
      (∀ k ∈ s.state.packetIds.inUse, 1 ≤ k ∧ k ≤ 65535) ∧
      (∀ before acquirer pid after, s.log = before ++ .acquired acquirer pid :: after →
        publishing pid before = none) := by
  have h := Connection.owned_run hrun
  have hdisjoint : ∀ a b : Slot, a ≠ b →
      List.Disjoint (s.state.slotKeys a) (s.state.slotKeys b) :=
    fun a b hne k ha hb => hne (h.balanced.disjoint k a b ha hb)
  refine ⟨?_, ?_, ?_, h.recorded.fresh⟩
  · ext k
    rw [h.balanced.inUse_iff]
    simp only [Finset.mem_union, List.mem_toFinset]
    constructor
    · rintro ⟨_ | _ | kind, hk⟩
      · exact Or.inl (Or.inl (Or.inl hk))
      · exact Or.inl (Or.inl (Or.inr hk))
      · cases kind with
        | subscribe => exact Or.inl (Or.inr hk)
        | unsubscribe => exact Or.inr hk
    · rintro (((hk | hk) | hk) | hk)
      · exact ⟨.qos1, hk⟩
      · exact ⟨.qos2, hk⟩
      · exact ⟨.request .subscribe, hk⟩
      · exact ⟨.request .unsubscribe, hk⟩
  · refine .cons ?_ (.cons ?_ (.cons ?_ (.cons ?_ .nil)))
    · simp only [List.mem_cons, List.not_mem_nil, or_false, forall_eq_or_imp, forall_eq]
      exact ⟨hdisjoint .qos1 .qos2 (by decide),
        hdisjoint .qos1 (.request .subscribe) (by decide),
        hdisjoint .qos1 (.request .unsubscribe) (by decide)⟩
    · simp only [List.mem_cons, List.not_mem_nil, or_false, forall_eq_or_imp, forall_eq]
      exact ⟨hdisjoint .qos2 (.request .subscribe) (by decide),
        hdisjoint .qos2 (.request .unsubscribe) (by decide)⟩
    · simp only [List.mem_cons, List.not_mem_nil, or_false, forall_eq]
      exact hdisjoint (.request .subscribe) (.request .unsubscribe) (by decide)
    · intro other hother
      cases hother
  · intro k hk
    exact Finset.mem_Icc.mp (h.balanced.valid.inUse_le hk)

/-- A QoS 1 publish cancelled while it waits, then an unsubscribe: the publish
keeps identifier 1. -/
theorem packet_ids_owned_cancelled_publish :
    ∃ s, Transition.run Connection.step (Connection.opened .v5 [] .exactlyOnce true)
        [.publish
            { topic := [97], payload := [], qos := .atLeastOnce, retain := false, dup := false }
            .done,
          .cancel 0, .resumeFuture 0 .done, .call (.unsubscribe [[97]]), .acquireGuard 1,
          .enter 1 .done] = some s ∧
      s.state.packetIds.inUse =
        (OrderedDict.keys s.state.inflightQos1).toFinset ∪
          (OrderedDict.keys s.state.inflightQos2Out).toFinset ∪
          (OrderedDict.keys s.state.pendingSubs).toFinset ∪
          (OrderedDict.keys s.state.pendingUnsubs).toFinset :=
  Exists.imp (fun s hs => ⟨hs, (packet_ids_owned .v5 [] .exactlyOnce true _ s hs).1⟩)
    (Option.isSome_iff_exists.mp (by decide))

/-! ## Publishes that fail -/

namespace Connection

variable {s : Connection}

/-- `publish` raised, and nothing of its packet was handed to the transport. -/
def RaisesUnwritten (s : Connection) (packet : Publish) (write : WriteOutcome) : Prop :=
  (∃ error, (s.publish packet write).calls =
      s.calls ++ [{ phase := .finished (.raised error) }]) ∧
    ∃ added, (s.publish packet write).log = s.log ++ added ∧ ∀ p, Event.wrote p ∉ added

/-- The identifiers in use and the two tables of flights are the same. -/
def SameFlights (s s' : Connection) : Prop :=
  s'.state.packetIds.inUse = s.state.packetIds.inUse ∧
    s'.state.inflightQos1 = s.state.inflightQos1 ∧
    s'.state.inflightQos2Out = s.state.inflightQos2Out

/-- The call passes its checks and registers a flight, and then the packet cannot
be encoded under the flight's identifier, or its write raises. -/
def StrandsFlight (s : Connection) (packet : Publish) (write : WriteOutcome) : Prop :=
  s.dead = false ∧ packet.qos.value ≤ s.maxPublishQos.value ∧
    (packet.retain && !s.retainAvailable) = false ∧ packet.qos ≠ .atMostOnce ∧
    ∃ pid pool, s.state.packetIds.acquire = some (pid, pool) ∧
      ((∃ e, encode (.publish { packet with packetId := some (pid : Int) }) s.version =
          .error e) ∨ write = .failed)

theorem openFlight_inUse (packet : Publish) (pid : Nat) (pool : PacketIdPool) :
    (s.openFlight packet pid pool).state.packetIds = pool := by
  unfold openFlight
  dsimp only
  split
  · rfl
  · rfl

/-- The ends of an acknowledged publish at its first suspension: no identifier is
free, the flight is stranded, or the packet is on its way. -/
theorem publishAcknowledged_cases (s : Connection) (packet : Publish) (write : WriteOutcome) :
    (s.state.packetIds.acquire = none ∧
        s.publishAcknowledged packet write = s.addCall (.finished (.raised .packetIdsInUse))) ∨
      ∃ pid pool, s.state.packetIds.acquire = some (pid, pool) ∧
        (((∃ e, encode (.publish { packet with packetId := some (pid : Int) }) s.version =
              .error e) ∨ write = .failed) ∧
            (∃ error, s.publishAcknowledged packet write =
              (s.openFlight { packet with packetId := some (pid : Int) } pid pool).addCall
                (.finished (.raised error))) ∨
          (¬ ((∃ e, encode (.publish { packet with packetId := some (pid : Int) }) s.version =
              .error e) ∨ write = .failed) ∧
            ∃ p, (s.publishAcknowledged packet write).log =
              s.log ++ [.acquired (.publish packet.qos) pid, .wrote p])) := by
  unfold publishAcknowledged
  cases hacquire : s.state.packetIds.acquire with
  | none => exact .inl ⟨rfl, rfl⟩
  | some result =>
      obtain ⟨pid, pool⟩ := result
      refine .inr ⟨pid, pool, rfl, ?_⟩
      cases hencode : encode (.publish { packet with packetId := some (pid : Int) }) s.version with
      | error e => exact .inl ⟨.inl ⟨e, rfl⟩, .encoding e, by simp only [hencode]⟩
      | ok bytes =>
          simp only [hencode]
          by_cases hwrite : write = .failed
          · rw [if_pos hwrite]
            exact .inl ⟨.inr hwrite, .transport, rfl⟩
          · rw [if_neg hwrite]
            refine .inr ⟨?_, .publish { packet with packetId := some (pid : Int) }, ?_⟩
            · rintro (⟨e, he⟩ | hfailed)
              · cases he
              · exact hwrite hfailed
            · simp [openFlight]

/-- A publish that is refused by a check, or is sent at QoS 0, opens no flight. -/
theorem publish_sameFlights_or (s : Connection) (packet : Publish) (write : WriteOutcome) :
    s.SameFlights (s.publish packet write) ∧ ¬ s.StrandsFlight packet write ∨
      (s.dead = false ∧ packet.qos.value ≤ s.maxPublishQos.value ∧
        (packet.retain && !s.retainAvailable) = false ∧ packet.qos ≠ .atMostOnce) ∧
        s.publish packet write = s.publishAcknowledged packet write := by
  unfold publish
  by_cases hdead : s.dead = true
  · rw [if_pos hdead]
    exact .inl ⟨⟨rfl, rfl, rfl⟩, fun ⟨hlive, _⟩ => by simp [hdead] at hlive⟩
  rw [if_neg hdead]
  by_cases hqos : packet.qos.value > s.maxPublishQos.value
  · rw [if_pos hqos]
    exact .inl ⟨⟨rfl, rfl, rfl⟩, fun ⟨_, hle, _⟩ => by omega⟩
  rw [if_neg hqos]
  by_cases hretain : (packet.retain && !s.retainAvailable) = true
  · rw [if_pos hretain]
    exact .inl ⟨⟨rfl, rfl, rfl⟩, fun ⟨_, _, hok, _⟩ => by simp [hretain] at hok⟩
  rw [if_neg hretain]
  by_cases hzero : packet.qos = .atMostOnce
  · rw [if_pos hzero]
    refine .inl ⟨?_, fun ⟨_, _, _, hne, _⟩ => hne hzero⟩
    unfold publishQos0
    split
    · exact ⟨rfl, rfl, rfl⟩
    · cases write <;> exact ⟨rfl, rfl, rfl⟩
  · rw [if_neg hzero]
    exact .inr ⟨⟨by simpa using hdead, by omega, by simpa using hretain, hzero⟩, rfl⟩

/-- Every publish of the list, made in its turn, raises unwritten without
stranding a flight. -/
def AllRefused (s : Connection) : List (Publish × WriteOutcome) → Prop
  | [] => True
  | (packet, write) :: rest =>
      s.RaisesUnwritten packet write ∧ ¬ s.StrandsFlight packet write ∧
        (s.publish packet write).AllRefused rest

/-- A failed publish changes nothing exactly when it strands no flight. -/
theorem sameFlights_iff (s : Connection) (packet : Publish) (write : WriteOutcome) :
    (s.RaisesUnwritten packet write → s.SameFlights (s.publish packet write)) ↔
      ¬ s.StrandsFlight packet write := by
  obtain ⟨hsame, hnot⟩ | ⟨⟨hlive, hqos, hretain, hne⟩, hpublish⟩ :=
    s.publish_sameFlights_or packet write
  · exact ⟨fun _ => hnot, fun _ _ => hsame⟩
  obtain ⟨hnone, hraise⟩ | ⟨pid, pool, hacquire, ⟨hbad, error, hraise⟩ | ⟨hgood, p, hlog⟩⟩ :=
    s.publishAcknowledged_cases packet write
  · -- no identifier is free
    constructor
    · rintro - ⟨-, -, -, -, pid, pool, hacquire, -⟩
      rw [hnone] at hacquire
      cases hacquire
    · rintro - -
      rw [hpublish, hraise]
      exact ⟨rfl, rfl, rfl⟩
  · -- the flight is registered before the failure
    constructor
    · intro hunchanged
      have hunwritten : s.RaisesUnwritten packet write := by
        rw [RaisesUnwritten, hpublish, hraise]
        refine ⟨⟨error, rfl⟩, [.acquired (.publish packet.qos) pid], rfl, ?_⟩
        intro p hp
        simp at hp
      have hinUse := (hunchanged hunwritten).1
      rw [hpublish, hraise] at hinUse
      exact absurd (by rw [← hinUse]; simp [addCall, openFlight_inUse])
        (PacketIdPool.acquire_inUse_ne hacquire)
    · intro hnot
      exact absurd ⟨hlive, hqos, hretain, hne, pid, pool, hacquire, hbad⟩ hnot
  · -- the packet was handed to the transport
    constructor
    · rintro - ⟨-, -, -, -, pid', pool', hacquire', hbad⟩
      rw [hacquire] at hacquire'
      cases hacquire'
      exact hgood hbad
    · rintro - ⟨-, added, hadded, hunwritten⟩
      rw [hpublish, hlog] at hadded
      have hadded := List.append_cancel_left hadded
      subst hadded
      exact absurd (by simp) (hunwritten p)

/-- **Failed publishes.**  A publish that raises before its packet is written leaves
the identifiers in use and the flights as they were exactly when it strands no
flight; so any number of publishes that fail in that way take no identifier. -/
theorem failed_publish_unchanged_iff (s : Connection) :
    (∀ packet write, (s.RaisesUnwritten packet write → s.SameFlights (s.publish packet write)) ↔
        ¬ s.StrandsFlight packet write) ∧
      ∀ publishes, s.AllRefused publishes →
        s.SameFlights (publishes.foldl (fun s call => s.publish call.1 call.2) s) := by
  refine ⟨s.sameFlights_iff, fun publishes => ?_⟩
  induction publishes generalizing s with
  | nil => exact fun _ => ⟨rfl, rfl, rfl⟩
  | cons call rest ih =>
      rintro ⟨hraises, hnot, hrest⟩
      obtain ⟨hinUse, hqos1, hqos2⟩ := (s.sameFlights_iff call.1 call.2).mpr hnot hraises
      obtain ⟨hinUse', hqos1', hqos2'⟩ := ih _ hrest
      exact ⟨hinUse'.trans hinUse, hqos1'.trans hqos1, hqos2'.trans hqos2⟩

/-- A QoS 1 publish whose topic alias does not fit in two bytes: identifier 1 and
its flight stay behind. -/
theorem unencodable_publish_strands_flight :
    (opened .v5 [] .exactlyOnce true).RaisesUnwritten
        { topic := str "a", payload := [], qos := .atLeastOnce, retain := false, dup := false
          properties := some { topicAlias := some 65536 } } .done ∧
      ¬ (opened .v5 [] .exactlyOnce true).SameFlights
        ((opened .v5 [] .exactlyOnce true).publish
          { topic := str "a", payload := [], qos := .atLeastOnce, retain := false, dup := false
            properties := some { topicAlias := some 65536 } } .done) := by
  refine ⟨⟨⟨.encoding .structError, by rfl⟩, [.acquired (.publish .atLeastOnce) 1], by rfl, ?_⟩, ?_⟩
  · intro p hp
    simp at hp
  · rintro ⟨-, hqos1, -⟩
    cases hqos1

end Connection

end Zmqtt
