import Zmqtt.Futures
import Zmqtt.Handshake
import Zmqtt.PacketIdOwnership
import Zmqtt.SubscriptionGuards

/-!
# The outbound QoS 2 handshake

The table `inflight_qos2_out` follows the automaton of the record.  A flight that waits
for its PUBREC is one whose PUBLISH was written, a flight that waits for its PUBCOMP is
one whose PUBREL was written, unless the read loop failed in that write and handles
nothing more.  `_handle_pubrec` checks the state of the flight, `_handle_pubcomp` does
not: a PUBCOMP in place of the PUBREC completes the publish.  Along the runs in which no
PUBCOMP comes that early, the order is kept for every identifier.
-/

namespace Zmqtt

/-! ## The table follows the automaton -/

/-- The handshake of a flight in `inflight_qos2_out`.  A flight in its second state whose
PUBREL was not written is left behind by a read loop that has ended. -/
def OutboundQoS2Flight.Follows (flight : OutboundQoS2Flight) (now : Handshake)
    (reader : ReadTask) : Prop :=
  match flight.state with
  | .pendingPubrec => now = .opened flight.future ∨ now = .sent flight.future
  | .pendingPubcomp =>
      now = .released flight.future ∨ now = .unsent flight.future ∨
        (now = .received flight.future ∧ ∃ error, reader = .ended error)

/-- Only a read loop that has ended leaves a PUBREL unwritten. -/
theorem OutboundQoS2Flight.Follows.mono {flight : OutboundQoS2Flight} {now : Handshake}
    {reader reader' : ReadTask} (h : flight.Follows now reader)
    (hended : ∀ error, reader = .ended error → ∃ error, reader' = .ended error) :
    flight.Follows now reader' := by
  unfold OutboundQoS2Flight.Follows at h ⊢
  split at h
  · exact h
  · rcases h with hnow | hnow | ⟨hnow, error, herror⟩
    · exact Or.inl hnow
    · exact Or.inr (Or.inl hnow)
    · exact Or.inr (Or.inr ⟨hnow, hended error herror⟩)

theorem OutboundQoS2Flight.Follows.of_idle {flight : OutboundQoS2Flight} {now : Handshake}
    (h : flight.Follows now .idle) (reader : ReadTask) : flight.Follows now reader :=
  h.mono fun _ heq => by cases heq

/-- The two states of a flight that waits for its PUBREC, once a PUBREC has come. -/
theorem Handshake.pubrec_cases {now : Handshake} {f : Nat} {code : Int}
    (hnow : now = .opened f ∨ now = .sent f) :
    (code ≥ 0x80 → now.pubrec code ∈ [.rejected f code, .unsent f]) ∧
      (¬code ≥ 0x80 → now.pubrec code = .received f ∨ now.pubrec code = .unsent f) := by
  rcases hnow with rfl | rfl
  · exact ⟨fun _ => List.mem_cons_of_mem _ List.mem_cons_self, fun _ => Or.inr rfl⟩
  · constructor
    · intro hcode
      rw [Handshake.pubrec, if_pos hcode]
      exact List.mem_cons_self
    · intro hcode
      rw [Handshake.pubrec, if_neg hcode]
      exact Or.inl rfl

/-- An event no handshake depends on. -/
def Event.neutral (event : Event) : Prop :=
  event.flight = none ∧ ∀ k count now, event.handshake k count now = now

/-- The handshake was in such a state at some point of the record. -/
def Reached (k : Nat) (log : List Event) (states : List Handshake) : Prop :=
  ∃ earlier, earlier <+: log ∧ handshake k earlier ∈ states

theorem Reached.mono {k : Nat} {log log' : List Event} {states : List Handshake}
    (h : Reached k log states) (hlog : log <+: log') : Reached k log' states := by
  obtain ⟨earlier, hearlier, hstate⟩ := h
  exact ⟨earlier, hearlier.trans hlog, hstate⟩

namespace Connection

variable {s next : Connection} {c : Nat} {call : Call}

/-- The invariant of the flights: each is where its handshake is, and the future of a
QoS 2 flight has the outcome of its handshake. -/
structure Handshakes (s : Connection) : Prop where
  count : (flights s.log).length = s.flightFutures.length
  qos1 : ∀ k flight, OrderedDict.get s.state.inflightQos1 k = some flight →
    (flights s.log)[flight.future]? = some (.atLeastOnce, k)
  qos2 : ∀ k flight, OrderedDict.get s.state.inflightQos2Out k = some flight →
    (flights s.log)[flight.future]? = some (.exactlyOnce, k) ∧
      flight.Follows (handshake k s.log) s.reader
  results : ∀ (f k : Nat) (packet : Packet), s.flightFutures[f]? = some (.result packet) →
    (flights s.log)[f]? = some (.exactlyOnce, k) →
    ∃ ack, packet = .pubcomp ack ∧ Reached k s.log [.completed f ack, .unsent f]
  errors : ∀ (f k : Nat) (code : Int),
    s.flightFutures[f]? = some (.exception (.publishError code)) →
    (flights s.log)[f]? = some (.exactlyOnce, k) →
    Reached k s.log [.rejected f code, .unsent f]
  sound : ∀ k earlier, earlier <+: s.log → handshake k earlier ≠ .violated

/-- Tables and record unchanged, and no future got a result or the exception of a
refused publish. -/
theorem Handshakes.of_unsettled (h : s.Handshakes) (hlog : next.log = s.log)
    (hqos1 : next.state.inflightQos1 = s.state.inflightQos1)
    (hqos2 : next.state.inflightQos2Out = s.state.inflightQos2Out)
    (hlength : next.flightFutures.length = s.flightFutures.length)
    (hsettled : ∀ (f : Nat) (value : FutureState), value ≠ .cancelled →
      value ≠ .exception .disconnected → next.flightFutures[f]? = some value →
      s.flightFutures[f]? = some value)
    (hreader : ∀ error, s.reader = .ended error → ∃ error, next.reader = .ended error) :
    next.Handshakes := by
  refine ⟨?_, ?_, ?_, ?_, ?_, ?_⟩
  · rw [hlog, hlength]
    exact h.count
  · rw [hlog, hqos1]
    exact h.qos1
  · rw [hlog, hqos2]
    intro k flight hget
    obtain ⟨hflight, hfollows⟩ := h.qos2 k flight hget
    exact ⟨hflight, hfollows.mono hreader⟩
  · rw [hlog]
    exact fun f k packet hset => h.results f k packet (hsettled f _ (by simp) (by simp) hset)
  · rw [hlog]
    exact fun f k code hset => h.errors f k code (hsettled f _ (by simp) (by simp) hset)
  · rw [hlog]
    exact h.sound

/-- Tables, futures and record unchanged. -/
theorem Handshakes.of_same (h : s.Handshakes) (hlog : next.log = s.log)
    (hqos1 : next.state.inflightQos1 = s.state.inflightQos1)
    (hqos2 : next.state.inflightQos2Out = s.state.inflightQos2Out)
    (hfutures : next.flightFutures = s.flightFutures)
    (hreader : ∀ error, s.reader = .ended error → ∃ error, next.reader = .ended error) :
    next.Handshakes := by
  refine h.of_unsettled hlog hqos1 hqos2 (congrArg List.length hfutures) ?_ hreader
  rw [hfutures]
  exact fun _ _ _ _ hset => hset

/-- One more event that starts no flight.  What the table has afterwards follows the
handshakes, and a future that is settled by the event has their outcome. -/
theorem Handshakes.event (h : s.Handshakes) {event : Event}
    (hlog : next.log = s.log ++ [event]) (hflight : event.flight = none)
    (hlength : next.flightFutures.length = s.flightFutures.length)
    (hqos1 : ∀ k flight, OrderedDict.get next.state.inflightQos1 k = some flight →
      OrderedDict.get s.state.inflightQos1 k = some flight)
    (hqos2 : ∀ k flight, OrderedDict.get next.state.inflightQos2Out k = some flight →
      (flights s.log)[flight.future]? = some (.exactlyOnce, k) ∧
        flight.Follows (event.handshake k (flights s.log).length (handshake k s.log)) next.reader)
    (hresult : ∀ (f k : Nat) (packet : Packet), next.flightFutures[f]? = some (.result packet) →
      (flights s.log)[f]? = some (.exactlyOnce, k) →
      s.flightFutures[f]? = some (.result packet) ∨ ∃ ack, packet = .pubcomp ack ∧
        event.handshake k (flights s.log).length (handshake k s.log) ∈
          [.completed f ack, .unsent f])
    (herror : ∀ (f k : Nat) (code : Int),
      next.flightFutures[f]? = some (.exception (.publishError code)) →
      (flights s.log)[f]? = some (.exactlyOnce, k) →
      s.flightFutures[f]? = some (.exception (.publishError code)) ∨
        event.handshake k (flights s.log).length (handshake k s.log) ∈
          [.rejected f code, .unsent f])
    (hsound : ∀ k, event.handshake k (flights s.log).length (handshake k s.log) ≠ .violated) :
    next.Handshakes := by
  have hflights : flights next.log = flights s.log := by
    rw [hlog, flights_append, hflight, Option.toList_none, List.append_nil]
  have hprefix : s.log <+: next.log := ⟨[event], hlog.symm⟩
  have hnow : ∀ k, handshake k next.log =
      event.handshake k (flights s.log).length (handshake k s.log) := fun k => by
    rw [hlog, handshake_append]
  refine ⟨?_, ?_, ?_, ?_, ?_, ?_⟩
  · rw [hflights, hlength]
    exact h.count
  · intro k flight hget
    rw [hflights]
    exact h.qos1 k flight (hqos1 k flight hget)
  · intro k flight hget
    rw [hflights, hnow]
    exact hqos2 k flight hget
  · intro f k packet hset hf
    rw [hflights] at hf
    rcases hresult f k packet hset hf with hold | ⟨ack, hack, hstate⟩
    · obtain ⟨ack, hack, hreached⟩ := h.results f k packet hold hf
      exact ⟨ack, hack, hreached.mono hprefix⟩
    · exact ⟨ack, hack, next.log, List.prefix_rfl, hnow k ▸ hstate⟩
  · intro f k code hset hf
    rw [hflights] at hf
    rcases herror f k code hset hf with hold | hstate
    · exact (h.errors f k code hold hf).mono hprefix
    · exact ⟨next.log, List.prefix_rfl, hnow k ▸ hstate⟩
  · intro k earlier hearlier
    rw [hlog, List.prefix_concat_iff] at hearlier
    rcases hearlier with rfl | hearlier
    · rw [← hlog, hnow]
      exact hsound k
    · exact h.sound k earlier hearlier

/-- One more event that starts no flight and settles no future. -/
theorem Handshakes.append (h : s.Handshakes) {event : Event}
    (hlog : next.log = s.log ++ [event])
    (hqos1 : next.state.inflightQos1 = s.state.inflightQos1)
    (hfutures : next.flightFutures = s.flightFutures) (hflight : event.flight = none)
    (hqos2 : ∀ k flight, OrderedDict.get next.state.inflightQos2Out k = some flight →
      (flights s.log)[flight.future]? = some (.exactlyOnce, k) ∧
        flight.Follows (event.handshake k (flights s.log).length (handshake k s.log)) next.reader)
    (hsound : ∀ k, event.handshake k (flights s.log).length (handshake k s.log) ≠ .violated) :
    next.Handshakes := by
  refine h.event hlog hflight (congrArg List.length hfutures) ?_ hqos2 ?_ ?_ hsound
  · rw [hqos1]
    exact fun _ _ hget => hget
  · rw [hfutures]
    exact fun _ _ _ hset _ => Or.inl hset
  · rw [hfutures]
    exact fun _ _ _ hset _ => Or.inl hset

theorem Handshakes.append_neutral (h : s.Handshakes) {event : Event}
    (hneutral : Event.neutral event) (hlog : next.log = s.log ++ [event])
    (hqos1 : next.state.inflightQos1 = s.state.inflightQos1)
    (hqos2 : next.state.inflightQos2Out = s.state.inflightQos2Out)
    (hfutures : next.flightFutures = s.flightFutures) (hreader : next.reader = s.reader) :
    next.Handshakes := by
  refine h.append hlog hqos1 hfutures hneutral.1 ?_ ?_
  · intro k flight hget
    rw [hqos2] at hget
    rw [hneutral.2, hreader]
    exact h.qos2 k flight hget
  · intro k
    rw [hneutral.2]
    exact h.sound k s.log List.prefix_rfl

/-! ### The calls -/

/-- The PUBLISH of a flight is written. -/
theorem Handshakes.wrote_publish (h : s.Handshakes) (packet : Publish) :
    ({ s with log := s.log ++ [.wrote (.publish packet)] } : Connection).Handshakes := by
  refine h.append rfl rfl rfl rfl ?_ ?_
  · intro k flight hget
    obtain ⟨hflight, hfollows⟩ := h.qos2 k flight hget
    refine ⟨hflight, ?_⟩
    simp only [Event.handshake]
    split
    · unfold OutboundQoS2Flight.Follows at hfollows ⊢
      split at hfollows
      · rcases hfollows with hnow | hnow <;> rw [hnow] <;> exact Or.inr rfl
      · rcases hfollows with hnow | hnow | ⟨hnow, hended⟩ <;> rw [hnow]
        · exact Or.inl rfl
        · exact Or.inr (Or.inl rfl)
        · exact Or.inr (Or.inr ⟨rfl, hended⟩)
    · exact hfollows
  · intro k
    have hnow := h.sound k s.log List.prefix_rfl
    simp only [Event.handshake]
    split
    · cases hstate : handshake k s.log <;> simp_all [Handshake.publish]
    · exact hnow

/-- An identifier is acquired that no flight has. -/
theorem Handshakes.acquired_request (h : s.Handshakes) {pid : Nat}
    (hfresh : pid ∉ OrderedDict.keys s.state.inflightQos2Out) (kind : RequestKind)
    (hlog : next.log = s.log ++ [.acquired (.request kind) pid])
    (hqos1 : next.state.inflightQos1 = s.state.inflightQos1)
    (hqos2 : next.state.inflightQos2Out = s.state.inflightQos2Out)
    (hfutures : next.flightFutures = s.flightFutures) (hreader : next.reader = s.reader) :
    next.Handshakes := by
  refine h.append hlog hqos1 hfutures rfl ?_ ?_
  · intro k flight hget
    rw [hqos2] at hget
    have hne : pid ≠ k := by
      rintro rfl
      exact hfresh ((OrderedDict.mem_keys_iff _ _).mpr ⟨flight, hget⟩)
    simp only [Event.handshake, if_neg hne, hreader]
    exact h.qos2 k flight hget
  · intro k
    simp only [Event.handshake]
    split
    · split <;> simp
    · exact h.sound k s.log List.prefix_rfl

/-- A flight starts, under an identifier that no flight has. -/
theorem Handshakes.openFlight (h : s.Handshakes) (packet : Publish) {pid : Nat}
    {pool : PacketIdPool} (hqos : packet.qos ≠ .atMostOnce)
    (hqos2 : pid ∉ OrderedDict.keys s.state.inflightQos2Out) :
    (s.openFlight packet pid pool).Handshakes := by
  have hlog : (s.openFlight packet pid pool).log =
      s.log ++ [.acquired (.publish packet.qos) pid] := rfl
  have hprefix : s.log <+: (s.openFlight packet pid pool).log := ⟨_, hlog.symm⟩
  have hflights : flights (s.openFlight packet pid pool).log =
      flights s.log ++ [(packet.qos, pid)] := by
    rw [hlog, flights_append]
    rfl
  have hnew : (flights (s.openFlight packet pid pool).log)[s.flightFutures.length]? =
      some (packet.qos, pid) := by
    rw [hflights, ← h.count, List.getElem?_concat_length]
  have hother : ∀ k, pid ≠ k →
      handshake k (s.openFlight packet pid pool).log = handshake k s.log := by
    intro k hne
    rw [hlog, handshake_append]
    exact if_neg hne
  -- the futures that were there before, and their flights
  have hold : ∀ (f : Nat) (value : FutureState), value ≠ .pending →
      (s.openFlight packet pid pool).flightFutures[f]? = some value →
      s.flightFutures[f]? = some value := by
    intro f value hne hvalue
    have hvalue : (s.flightFutures ++ [.pending])[f]? = some value := hvalue
    by_cases hlt : f < s.flightFutures.length
    · rwa [List.getElem?_append_left hlt] at hvalue
    · rw [List.getElem?_append_right (Nat.le_of_not_lt hlt)] at hvalue
      exact absurd (List.mem_singleton.mp (List.mem_of_getElem? hvalue)) hne
  have holdFlight : ∀ (f : Nat) (value : FutureState) (item : QoS × Nat),
      s.flightFutures[f]? = some value →
      (flights (s.openFlight packet pid pool).log)[f]? = some item →
      (flights s.log)[f]? = some item := by
    intro f value item hvalue hitem
    rw [hflights, List.getElem?_append_left] at hitem
    · exact hitem
    · rw [h.count]
      exact (List.getElem?_eq_some_iff.mp hvalue).1
  refine ⟨?_, ?_, ?_, ?_, ?_, ?_⟩
  · rw [hflights, List.length_append, h.count]
    show _ = (s.flightFutures ++ [FutureState.pending]).length
    rw [List.length_append]
    rfl
  · intro k flight hget
    by_cases hkind : packet.qos = .atLeastOnce
    · simp only [Connection.openFlight, if_pos hkind, OrderedDict.get_set] at hget
      split at hget
      · next heq =>
          subst heq
          cases hget
          rw [hnew, hkind]
      · exact flights_mono hprefix (h.qos1 k flight hget)
    · simp only [Connection.openFlight, if_neg hkind] at hget
      exact flights_mono hprefix (h.qos1 k flight hget)
  · intro k flight hget
    have hbefore : OrderedDict.get s.state.inflightQos2Out k = some flight →
        (flights (s.openFlight packet pid pool).log)[flight.future]? = some (.exactlyOnce, k) ∧
          flight.Follows (handshake k (s.openFlight packet pid pool).log) s.reader := by
      intro hget
      obtain ⟨hflight, hfollows⟩ := h.qos2 k flight hget
      refine ⟨flights_mono hprefix hflight, ?_⟩
      rw [hother k]
      · exact hfollows
      · rintro rfl
        exact hqos2 ((OrderedDict.mem_keys_iff _ _).mpr ⟨flight, hget⟩)
    by_cases hkind : packet.qos = .atLeastOnce
    · simp only [Connection.openFlight, if_pos hkind] at hget
      exact hbefore hget
    · have hexactly : packet.qos = .exactlyOnce := by
        cases hcase : packet.qos <;> simp_all
      simp only [Connection.openFlight, if_neg hkind, OrderedDict.get_set] at hget
      split at hget
      · next heq =>
          subst heq
          cases hget
          refine ⟨by rw [hnew, hexactly], Or.inl ?_⟩
          rw [hlog, handshake_append, Event.handshake, if_pos rfl, hexactly, if_pos rfl, h.count]
      · exact hbefore hget
  · intro f k reply hresult hf
    have hresult := hold f _ (fun heq => by cases heq) hresult
    obtain ⟨ack, hack, hreached⟩ := h.results f k reply hresult (holdFlight f _ _ hresult hf)
    exact ⟨ack, hack, hreached.mono hprefix⟩
  · intro f k code herror hf
    have herror := hold f _ (fun heq => by cases heq) herror
    exact (h.errors f k code herror (holdFlight f _ _ herror hf)).mono hprefix
  · intro k earlier hearlier
    rw [hlog, List.prefix_concat_iff] at hearlier
    rcases hearlier with rfl | hearlier
    · rw [handshake_append]
      simp only [Event.handshake]
      split
      · split <;> simp
      · exact h.sound k s.log List.prefix_rfl
    · exact h.sound k earlier hearlier

/-- The packet of a request is none of the handshake. -/
theorem neutral_request (request : Request) (pid : Nat) :
    Event.neutral (.wrote (request.packet pid)) := by
  cases request <;> exact ⟨rfl, fun _ _ _ => rfl⟩

/-- The calls keep the invariant. -/
theorem handshakeRules : CallRules (fun active s => s.Owned active ∧ s.Handshakes)
    fun _ _ => True where
  weaken c h := ⟨h.1.weaken c, h.2⟩
  leave f hf h := ⟨ownedRules.leave f hf h.1, h.2.of_same rfl rfl rfl rfl Exists.intro⟩
  keep f hf h := ⟨ownedRules.keep f hf h.1, h.2.of_same rfl rfl rfl rfl Exists.intro⟩
  addCall phase hphase h :=
    ⟨ownedRules.addCall phase hphase h.1, h.2.of_same rfl rfl rfl rfl Exists.intro⟩
  index subscriptions nextEntry hchange h :=
    ⟨ownedRules.index subscriptions nextEntry hchange h.1, h.2.of_same rfl rfl rfl rfl Exists.intro⟩
  wrote packet h := ⟨ownedRules.wrote packet h.1, h.2.wrote_publish packet⟩
  openFlight packet _ _ hdead hqos hacquire h :=
    ⟨ownedRules.openFlight packet hdead hqos hacquire h.1,
      h.2.openFlight packet hqos (h.1.balanced.not_mem_of_acquire hacquire .qos2)⟩
  failed kind _ _ hdead hacquire h := by
    refine ⟨ownedRules.failed kind hdead hacquire h.1, ?_⟩
    refine h.2.acquired_request (h.1.balanced.not_mem_of_acquire hacquire .qos2) kind rfl ?_ ?_
      rfl rfl
    · cases kind <;> rfl
    · cases kind <;> rfl
  written request writing pid pool hdead hacquire h := by
    refine ⟨ownedRules.written request writing hdead hacquire h.1, ?_⟩
    have hopened : ((_ : Connection).openRequest request.kind pid pool).Handshakes :=
      h.2.acquired_request (h.1.balanced.not_mem_of_acquire hacquire .qos2) request.kind rfl
        (by cases request.kind <;> rfl) (by cases request.kind <;> rfl) rfl rfl
    exact hopened.append_neutral (neutral_request request pid) rfl rfl rfl rfl rfl
  done _ := trivial
  close {_ _ kind _ _} hown hclose h := by
    refine ⟨ownedRules.close hown hclose h.1, h.2.of_same rfl ?_ ?_ rfl Exists.intro⟩
    · cases kind <;> rfl
    · cases kind <;> rfl

/-! ### The handlers -/

/-- A packet ends a flight: the flight leaves its table, and its future is settled in
accordance with the handshake. -/
theorem Handshakes.settled (h : s.Handshakes) (event : Event) {future : Nat}
    {value : FutureState} (hlog : next.log = s.log ++ [event])
    (hfutures : next.flightFutures = settle s.flightFutures future value)
    (hqos1 : ∀ k flight, OrderedDict.get next.state.inflightQos1 k = some flight →
      OrderedDict.get s.state.inflightQos1 k = some flight)
    (hflight : event.flight = none)
    (hfollows : ∀ k flight, OrderedDict.get next.state.inflightQos2Out k = some flight →
      OrderedDict.get s.state.inflightQos2Out k = some flight ∧
        flight.Follows (event.handshake k (flights s.log).length (handshake k s.log)) next.reader)
    (hresult : ∀ k packet, value = .result packet →
      (flights s.log)[future]? = some (.exactlyOnce, k) → ∃ ack, packet = .pubcomp ack ∧
        event.handshake k (flights s.log).length (handshake k s.log) ∈
          [.completed future ack, .unsent future])
    (herror : ∀ k code, value = .exception (.publishError code) →
      (flights s.log)[future]? = some (.exactlyOnce, k) →
        event.handshake k (flights s.log).length (handshake k s.log) ∈
          [.rejected future code, .unsent future])
    (hsound : ∀ k, event.handshake k (flights s.log).length (handshake k s.log) ≠ .violated) :
    next.Handshakes := by
  refine h.event hlog hflight ?_ hqos1 ?_ ?_ ?_ hsound
  · rw [hfutures, settle_length]
  · intro k flight hget
    obtain ⟨hbefore, hstate⟩ := hfollows k flight hget
    exact ⟨(h.qos2 k flight hbefore).1, hstate⟩
  · intro f k packet hset hf
    rw [hfutures] at hset
    rcases settle_cases hset with hold | ⟨rfl, heq⟩
    · exact Or.inl hold
    · exact Or.inr (hresult k packet heq.symm hf)
  · intro f k code hset hf
    rw [hfutures] at hset
    rcases settle_cases hset with hold | ⟨rfl, heq⟩
    · exact Or.inl hold
    · exact Or.inr (herror k code heq.symm hf)

/-- The flight under an identifier. -/
theorem Handshakes.same_key (h : s.Handshakes) {k k' : Nat} {flight : OutboundQoS2Flight}
    (hget : OrderedDict.get s.state.inflightQos2Out k = some flight)
    (hk' : (flights s.log)[flight.future]? = some (.exactlyOnce, k')) : k' = k := by
  rw [(h.qos2 k flight hget).1] at hk'
  cases hk'
  rfl

theorem Handshakes.handlePuback (h : s.Handshakes) (packet : PubReply) :
    (s.handlePuback packet).Handshakes := by
  unfold Connection.handlePuback
  cases hget : OrderedDict.get s.state.inflightQos1 packet.packetId.toNat with
  | none => exact h.of_same rfl rfl rfl rfl (fun _ _ => ⟨_, rfl⟩)
  | some flight =>
      have hflight := h.qos1 _ flight hget
      refine h.settled (.handled (.puback packet)) rfl rfl ?_ rfl ?_ ?_ ?_ ?_
      · intro k other hk
        have hk : OrderedDict.get (OrderedDict.pop _ _) k = some other := hk
        rw [OrderedDict.get_pop] at hk
        split at hk
        · cases hk
        · exact hk
      · exact fun k other hk => ⟨hk, (h.qos2 k other hk).2⟩
      · intro k reply _ hf
        rw [hflight] at hf
        cases hf
      · intro k code heq
        cases heq
      · exact fun k => h.sound k s.log List.prefix_rfl

/-- The other flights after one has left `inflight_qos2_out`. -/
theorem Handshakes.others (h : s.Handshakes) {k pid : Nat} {flight : OutboundQoS2Flight}
    {event : Event}
    (hevent : ∀ k, k ≠ pid → ∀ count now, event.handshake k count now = now)
    (hget : OrderedDict.get (s.closeQos2 pid).state.inflightQos2Out k = some flight) :
    OrderedDict.get s.state.inflightQos2Out k = some flight ∧
      flight.Follows (event.handshake k (flights s.log).length (handshake k s.log)) s.reader := by
  have hget : OrderedDict.get (OrderedDict.pop s.state.inflightQos2Out pid) k = some flight := hget
  rw [OrderedDict.get_pop] at hget
  split at hget
  · cases hget
  · next hne =>
      rw [hevent k (Ne.symm hne)]
      exact ⟨hget, (h.qos2 k flight hget).2⟩

/-- A packet of another identifier. -/
theorem handshake_other {packet : PubReply} {k : Nat} (hne : k ≠ packet.packetId.toNat) :
    packet.packetId ≠ k := by
  omega

/-- The condition on a run: a PUBCOMP comes for a flight that waits for it, or for
none. -/
def inOrder (s : Connection) : Action → Bool
  | .receive (.pubcomp packet) _ =>
      (OrderedDict.get s.state.inflightQos2Out packet.packetId.toNat).all fun flight =>
        flight.state = .pendingPubcomp
  | _ => true

theorem Handshakes.handlePubcomp (h : s.Handshakes) (howned : s.Owned none)
    (hidle : s.reader = .idle) (packet : PubReply)
    (horder : ∀ flight, OrderedDict.get s.state.inflightQos2Out packet.packetId.toNat =
      some flight → flight.state = .pendingPubcomp) :
    (s.handlePubcomp packet).Handshakes := by
  unfold Connection.handlePubcomp
  cases hget : OrderedDict.get s.state.inflightQos2Out packet.packetId.toNat with
  | none => exact h.of_same rfl rfl rfl rfl (fun _ _ => ⟨_, rfl⟩)
  | some flight =>
      have hkey : packet.packetId.toNat ∈ s.state.slotKeys .qos2 :=
        (OrderedDict.mem_keys_iff _ _).mpr ⟨flight, hget⟩
      have hpos := howned.balanced.key_pos hkey
      have hid : packet.packetId = (packet.packetId.toNat : Int) := by omega
      -- the PUBREL was written, as the read loop is still up
      have hnow : (handshake packet.packetId.toNat s.log).pubcomp packet ∈
          [.completed flight.future packet, .unsent flight.future] := by
        have hfollows := (h.qos2 _ flight hget).2
        unfold OutboundQoS2Flight.Follows at hfollows
        rw [horder flight hget] at hfollows
        rcases hfollows with hnow | hnow | ⟨-, error, hended⟩
        · rw [hnow]
          exact List.mem_cons_self
        · rw [hnow]
          exact List.mem_cons_of_mem _ List.mem_cons_self
        · rw [hidle] at hended
          cases hended
      have hevent : ∀ k count now, Event.handshake k count now (.handled (.pubcomp packet)) =
          if packet.packetId = k then now.pubcomp packet else now := fun _ _ _ => rfl
      refine h.settled (.handled (.pubcomp packet)) rfl rfl (fun _ _ hk => hk) rfl ?_ ?_ ?_ ?_
      · intro k other hk
        exact h.others (fun k hne count now => if_neg (handshake_other hne)) hk
      · intro k reply heq hf
        cases heq
        cases h.same_key hget hf
        refine ⟨packet, rfl, ?_⟩
        rw [hevent, if_pos hid]
        exact hnow
      · intro k code heq
        cases heq
      · intro k
        rw [hevent]
        split
        · next hk =>
            have hk : k = packet.packetId.toNat := by omega
            subst hk
            intro hviolated
            rw [hviolated] at hnow
            simp at hnow
        · exact h.sound k s.log List.prefix_rfl

section Accepted

variable {packet : PubReply} {flight : OutboundQoS2Flight}

/-- The handshake of a flight whose PUBREC is handled. -/
theorem Handshakes.received (h : s.Handshakes)
    (hget : OrderedDict.get s.state.inflightQos2Out packet.packetId.toNat = some flight)
    (hid : packet.packetId = (packet.packetId.toNat : Int))
    (hstate : flight.state = .pendingPubrec) (hcode : ¬packet.reasonCode ≥ 0x80) :
    handshake packet.packetId.toNat (s.log ++ [.handled (.pubrec packet)]) =
        .received flight.future ∨
      handshake packet.packetId.toNat (s.log ++ [.handled (.pubrec packet)]) =
        .unsent flight.future := by
  have hfollows := (h.qos2 _ flight hget).2
  unfold OutboundQoS2Flight.Follows at hfollows
  rw [hstate] at hfollows
  rw [handshake_append, Event.handshake, if_pos hid]
  exact (Handshake.pubrec_cases hfollows).2 hcode

/-- A flight is accepted, and no PUBREL is written: its state in the table changes, and
no future is settled. -/
theorem Handshakes.accepted (h : s.Handshakes)
    (hget : OrderedDict.get s.state.inflightQos2Out packet.packetId.toNat = some flight)
    (hid : packet.packetId = (packet.packetId.toNat : Int))
    (hstate : flight.state = .pendingPubrec) (hcode : ¬packet.reasonCode ≥ 0x80)
    (hlog : next.log = s.log ++ [.handled (.pubrec packet)])
    (hqos1 : next.state.inflightQos1 = s.state.inflightQos1)
    (hqos2 : next.state.inflightQos2Out = OrderedDict.set s.state.inflightQos2Out
      packet.packetId.toNat { flight with state := .pendingPubcomp })
    (hfutures : next.flightFutures = s.flightFutures) (hidle : s.reader = .idle)
    (hended : ∃ error, next.reader = .ended error) : next.Handshakes := by
  have hreceived := h.received hget hid hstate hcode
  have hother : ∀ k, k ≠ packet.packetId.toNat →
      Event.handshake k (flights s.log).length (handshake k s.log) (.handled (.pubrec packet)) =
        handshake k s.log := fun k hne => if_neg (handshake_other hne)
  rw [handshake_append] at hreceived
  refine h.append hlog hqos1 hfutures rfl ?_ ?_
  · intro k other hget'
    rw [hqos2, OrderedDict.get_set] at hget'
    split at hget'
    · next heq =>
        subst heq
        cases hget'
        exact ⟨(h.qos2 _ flight hget).1,
          Or.inr (hreceived.symm.imp_right fun heq => ⟨heq, hended⟩)⟩
    · next hne =>
        obtain ⟨hflight, hfollows⟩ := h.qos2 k other hget'
        rw [hother k (Ne.symm hne)]
        rw [hidle] at hfollows
        exact ⟨hflight, hfollows.of_idle _⟩
  · intro k
    by_cases hk : k = packet.packetId.toNat
    · subst hk
      rcases hreceived with heq | heq <;> rw [heq] <;> simp
    · rw [hother k hk]
      exact h.sound k s.log List.prefix_rfl

/-- A flight is accepted and its PUBREL is written. -/
theorem Handshakes.released (h : s.Handshakes)
    (hget : OrderedDict.get s.state.inflightQos2Out packet.packetId.toNat = some flight)
    (hid : packet.packetId = (packet.packetId.toNat : Int))
    (hstate : flight.state = .pendingPubrec) (hcode : ¬packet.reasonCode ≥ 0x80)
    (hlog : next.log = s.log ++ [.handled (.pubrec packet)] ++
      [.wrote (.pubrel { packetId := packet.packetId })])
    (hqos1 : next.state.inflightQos1 = s.state.inflightQos1)
    (hqos2 : next.state.inflightQos2Out = OrderedDict.set s.state.inflightQos2Out
      packet.packetId.toNat { flight with state := .pendingPubcomp })
    (hfutures : next.flightFutures = s.flightFutures) (hidle : s.reader = .idle) :
    next.Handshakes := by
  -- the PUBREC comes first; a reader that stopped there would leave this state behind
  have hmiddle : ({ next with
      log := s.log ++ [.handled (.pubrec packet)]
      reader := .ended none } : Connection).Handshakes :=
    h.accepted hget hid hstate hcode rfl hqos1 hqos2 hfutures hidle ⟨_, rfl⟩
  have hreleased : (handshake packet.packetId.toNat
        (s.log ++ [.handled (.pubrec packet)])).pubrel = .released flight.future ∨
      (handshake packet.packetId.toNat
        (s.log ++ [.handled (.pubrec packet)])).pubrel = .unsent flight.future := by
    rcases h.received hget hid hstate hcode with heq | heq
    · rw [heq]
      exact Or.inl rfl
    · rw [heq]
      exact Or.inr rfl
  refine hmiddle.append hlog rfl rfl rfl ?_ ?_
  · intro k other hget'
    refine ⟨(hmiddle.qos2 k other hget').1, ?_⟩
    rw [hqos2, OrderedDict.get_set] at hget'
    split at hget'
    · next heq =>
        subst heq
        cases hget'
        simp only [Event.handshake, if_pos hid]
        exact hreleased.imp_right Or.inl
    · next hne =>
        have hfollows := (h.qos2 k other hget').2
        rw [hidle] at hfollows
        simp only [Event.handshake, if_neg (handshake_other (Ne.symm hne)), handshake_append]
        exact hfollows.of_idle _
  · intro k
    simp only [Event.handshake]
    split
    · next hk =>
        have hk : k = packet.packetId.toNat := by omega
        subst hk
        rcases hreleased with heq | heq <;> rw [heq] <;> simp
    · exact hmiddle.sound k _ List.prefix_rfl

end Accepted

theorem Handshakes.handlePubrec (h : s.Handshakes) (howned : s.Owned none)
    (hidle : s.reader = .idle) (packet : PubReply) (write : WriteOutcome) :
    (s.handlePubrec packet write).Handshakes := by
  unfold Connection.handlePubrec
  cases hget : OrderedDict.get s.state.inflightQos2Out packet.packetId.toNat with
  | none => exact h.of_same rfl rfl rfl rfl (fun _ _ => ⟨_, rfl⟩)
  | some flight =>
      have hkey : packet.packetId.toNat ∈ s.state.slotKeys .qos2 :=
        (OrderedDict.mem_keys_iff _ _).mpr ⟨flight, hget⟩
      have hpos := howned.balanced.key_pos hkey
      have hid : packet.packetId = (packet.packetId.toNat : Int) := by omega
      simp only
      split
      · exact h.of_same rfl rfl rfl rfl (fun _ _ => ⟨_, rfl⟩)
      · next hstate =>
          rw [not_not] at hstate
          split
          · next hcode =>
              have hnow := (h.qos2 _ flight hget).2
              unfold OutboundQoS2Flight.Follows at hnow
              rw [hstate] at hnow
              have hrejected := (Handshake.pubrec_cases hnow).1 hcode
              refine h.settled (.handled (.pubrec packet)) rfl rfl (fun _ _ hk => hk) rfl
                ?_ ?_ ?_ ?_
              · intro k other hk
                exact h.others (fun k hne count now => if_neg (handshake_other hne)) hk
              · intro k reply heq
                cases heq
              · intro k code heq hf
                cases heq
                cases h.same_key hget hf
                simp only [Event.handshake, if_pos hid]
                exact hrejected
              · intro k
                simp only [Event.handshake]
                split
                · next hk =>
                    have hk : k = packet.packetId.toNat := by omega
                    subst hk
                    intro hviolated
                    rw [hviolated] at hrejected
                    simp at hrejected
                · exact h.sound k s.log List.prefix_rfl
          · next hcode =>
              split
              · exact h.accepted hget hid hstate hcode rfl rfl rfl rfl hidle ⟨_, rfl⟩
              · split
                · exact h.accepted hget hid hstate hcode rfl rfl rfl rfl hidle ⟨_, rfl⟩
                · exact h.released hget hid hstate hcode rfl rfl rfl rfl hidle
                · exact h.released hget hid hstate hcode rfl rfl rfl rfl hidle

theorem Handshakes.logHandled (h : s.Handshakes) {packet : Packet}
    (hneutral : Event.neutral (.handled packet)) : (s.logHandled packet).Handshakes :=
  h.append_neutral hneutral rfl rfl rfl rfl rfl

theorem Handshakes.endReader (h : s.Handshakes) (error : MqttError) :
    (s.endReader error).Handshakes :=
  h.of_same rfl rfl rfl rfl (fun _ _ => ⟨_, rfl⟩)

theorem Handshakes.handleAnswer (h : s.Handshakes) (kind : RequestKind) (packetId : Int)
    {packet : Packet} (unknown : String) (hneutral : Event.neutral (.handled packet)) :
    (s.handleAnswer kind packetId packet unknown).Handshakes := by
  have hcounted : ({ s with replies := s.replies ++ [packet] } : Connection).Handshakes :=
    h.of_same rfl rfl rfl rfl Exists.intro
  unfold Connection.handleAnswer
  simp only
  split
  · exact hcounted.endReader _
  · split
    · exact h.append_neutral hneutral rfl rfl rfl rfl rfl
    · exact hcounted.endReader _

theorem Handshakes.dispatch (h : s.Handshakes) (howned : s.Owned none)
    (hidle : s.reader = .idle) (packet : Packet) (write : WriteOutcome)
    (horder : s.inOrder (.receive packet write) = true) :
    (s.dispatch packet write).Handshakes := by
  cases packet with
  | connect packet => exact h.endReader _
  | connack packet => exact h.endReader _
  | publish packet => exact h.logHandled ⟨rfl, fun _ _ _ => rfl⟩
  | puback packet => exact h.handlePuback packet
  | pubrec packet => exact h.handlePubrec howned hidle packet write
  | pubrel packet => exact h.logHandled ⟨rfl, fun _ _ _ => rfl⟩
  | pubcomp packet =>
      refine h.handlePubcomp howned hidle packet fun flight hget => ?_
      simp only [inOrder, hget, Option.all_some, decide_eq_true_eq] at horder
      exact horder
  | subscribe packet => exact h.endReader _
  | suback packet => exact h.handleAnswer _ _ _ ⟨rfl, fun _ _ _ => rfl⟩
  | unsubscribe packet => exact h.endReader _
  | unsuback packet => exact h.handleAnswer _ _ _ ⟨rfl, fun _ _ _ => rfl⟩
  | pingreq => exact h.endReader _
  | pingresp => exact h.logHandled ⟨rfl, fun _ _ _ => rfl⟩
  | disconnect packet => exact h.endReader _
  | auth packet =>
      simp only [Connection.dispatch]
      split
      · exact h.logHandled ⟨rfl, fun _ _ _ => rfl⟩
      · exact h.endReader _

theorem Handshakes.cancel (h : s.Handshakes) (hstep : s.cancel c call = some next) :
    next.Handshakes := by
  unfold Connection.cancel at hstep
  simp only at hstep
  split at hstep
  · cases hstep
    exact h.of_same rfl rfl rfl rfl Exists.intro
  · cases hstep
    exact h.of_unsettled rfl rfl rfl (settle_length _ _ _)
      (fun _ _ hvalue _ hset => of_settle hvalue hset) Exists.intro
  · cases hstep
  · cases hstep
    exact h.of_same rfl rfl rfl rfl Exists.intro

theorem Handshakes.exit (h : s.Handshakes) : s.exit.Handshakes :=
  h.of_unsettled rfl rfl rfl (failAll_length _ _) (fun _ _ _ hvalue hset => of_failAll hvalue hset)
    (fun _ _ => ⟨_, rfl⟩)

/-- **Step.**  A step that brings no PUBCOMP too early keeps the invariant. -/
theorem Handshakes.step {action : Action} (h : s.Handshakes) (howned : s.Owned none)
    (horder : s.inOrder action = true) (hstep : s.step action = some next) : next.Handshakes := by
  refine (handshakeRules.step ⟨howned, h⟩ hstep (fun _ _ _ _ _ _ _ _ _ _ => trivial) ?_ ?_ ?_ ?_).2
  · intro c call _ _ hcancel
    exact ⟨howned.cancel hcancel, h.cancel hcancel⟩
  · rintro packet write rfl _ hidle
    exact ⟨howned.dispatch packet write, h.dispatch howned hidle packet write horder⟩
  · intro reader hwriting
    refine ⟨⟨howned.balanced, howned.recorded, howned.holds, howned.unique⟩, ?_⟩
    refine h.of_same rfl rfl rfl rfl fun error hended => ?_
    rw [hwriting] at hended
    cases hended
  · exact fun _ => ⟨⟨howned.balanced, howned.recorded, howned.holds, howned.unique⟩, h.exit⟩

/-! ## The flights of the publish calls -/

/-- The record only grows. -/
theorem log_step {action : Action} (hstep : s.step action = some next) : s.log <+: next.log := by
  have hrules : CallRules (fun _ now => s.log <+: now.log) fun _ _ => True :=
    { weaken := fun _ h => h
      leave := fun _ _ h => h
      keep := fun _ _ h => h
      addCall := fun _ _ h => h
      index := fun _ _ _ h => h
      wrote := fun _ h => h.trans (List.prefix_append _ _)
      openFlight := fun _ _ _ _ _ _ h => h.trans (List.prefix_append _ _)
      failed := fun _ _ _ _ _ h => h.trans (List.prefix_append _ _)
      written := fun _ _ _ _ _ _ h =>
        (h.trans (List.prefix_append _ _)).trans (List.prefix_append _ _)
      done := fun _ => trivial
      close := fun _ _ h => h }
  refine hrules.step List.prefix_rfl hstep (fun _ _ _ _ _ _ _ _ _ _ => trivial) ?_ ?_
    (fun _ _ => List.prefix_rfl) fun _ => List.prefix_rfl
  · intro c call _ _ hcancel
    unfold Connection.cancel at hcancel
    split at hcancel <;> cases hcancel <;> exact List.prefix_rfl
  · intro packet write _ _ _
    obtain ⟨events, hlog, -⟩ := dispatch_log s packet write
    exact ⟨events, hlog.symm⟩

/-- The flight of a publish call: its identifier is that of the call, and the PUBLISH of
a QoS 2 flight was written. -/
def Flown (log : List Event) (phase : Phase) : Prop :=
  ∀ k f writing, phase = .publish k f writing → ∃ qos, (flights log)[f]? = some (qos, k) ∧
    (qos = .exactlyOnce → ∃ earlier, earlier <+: log ∧ handshake k earlier = .sent f)

theorem Flown.mono {log log' : List Event} {phase phase' : Phase} (h : Flown log phase)
    (hlog : log <+: log') (hsame : SameFlight phase phase') : Flown log' phase' := by
  intro k f writing hphase
  obtain ⟨writing', hbefore⟩ := hsame k f writing hphase
  obtain ⟨qos, hflight, hsent⟩ := h k f writing' hbefore
  refine ⟨qos, flights_mono hlog hflight, fun hqos => ?_⟩
  obtain ⟨earlier, hearlier, hstate⟩ := hsent hqos
  exact ⟨earlier, hearlier.trans hlog, hstate⟩

/-- A new call, with its flight and PUBLISH in the record. -/
theorem Flown.of_started (hcount : (flights s.log).length = s.flightFutures.length)
    (h : Started call s next) : Flown next.log call.phase := by
  intro k f writing hphase
  obtain ⟨hf, packet, hid, hlog⟩ := h.record k f writing hphase
  rw [hlog, hf]
  refine ⟨packet.qos, ?_, fun hqos => ⟨_, List.prefix_rfl, ?_⟩⟩
  · rw [flights_append, flights_append, ← hcount]
    simp [Event.flight]
  · rw [handshake_append, handshake_append, hqos, hcount]
    simp [Event.handshake, hid, Handshake.publish]

/-- **Step.**  Every publish call keeps its flight. -/
theorem flown_step {action : Action} (hguarded : s.Guarded)
    (hcount : (flights s.log).length = s.flightFutures.length)
    (h : ∀ call ∈ s.calls, Flown s.log call.phase) (hstep : s.step action = some next) :
    ∀ call ∈ next.calls, Flown next.log call.phase := by
  have hlog := log_step hstep
  have hold : ∀ call ∈ s.calls, Flown next.log call.phase := fun call hmem =>
    (h call hmem).mono hlog fun pid future writing heq => ⟨writing, heq⟩
  intro other hmem
  obtain ⟨hcalls, -⟩ | ⟨new, hcalls, hstarted, -⟩ | ⟨c, call, -, hcall, -, htouch⟩ :=
    step_calls hguarded.holds hstep
  · exact hold other (hcalls ▸ hmem)
  · rw [hcalls] at hmem
    rcases List.mem_append.mp hmem with hmem | hmem
    · exact hold other hmem
    · cases List.mem_singleton.mp hmem
      exact Flown.of_started hcount hstarted
  · obtain ⟨i, hi⟩ := List.getElem?_of_mem hmem
    rcases htouch with ⟨f, hcalls, -, -, hflight, -⟩ | ⟨guarded, filter, todo, -, -, rfl⟩
    · rw [hcalls] at hi
      rcases (TaskList.getElem?_modify_iff hcall).mp hi with ⟨-, rfl⟩ | ⟨-, hi⟩
      · exact (h call (List.mem_of_getElem? hcall)).mono hlog hflight
      · exact hold other (List.mem_of_getElem? hi)
    · rcases (TaskList.getElem?_modify_iff hcall).mp hi with ⟨-, rfl⟩ | ⟨-, hi⟩
      · intro _ _ _ hphase
        cases hphase
      · exact hold other (List.mem_of_getElem? hi)

/-- How a call that waits for its flight can end. -/
theorem publish_returns {action : Action} {k f : Nat} {writing : Bool} {outcome : Outcome}
    (hguarded : s.Guarded) (hcall : s.calls[c]? = some call)
    (hphase : call.phase = .publish k f writing) (hstep : s.step action = some next)
    {call' : Call} (hcall' : next.calls[c]? = some call')
    (hphase' : call'.phase = .finished outcome) :
    outcome = .raised .cancelled ∨ outcome = .raised .transport ∨
      (∃ packet, s.flightFutures[f]? = some (.result packet) ∧ outcome = publishOutcome packet) ∨
      ∃ error, s.flightFutures[f]? = some (.exception error) ∧ outcome = .raised error := by
  have hfinish : ∀ {outcome' : Outcome}, next = s.finish c outcome' → outcome = outcome' := by
    intro outcome' heq
    rw [heq, Connection.finish] at hcall'
    rcases (TaskList.getElem?_modify_iff hcall).mp hcall' with ⟨-, rfl⟩ | ⟨hne, -⟩
    · cases hphase'
      rfl
    · exact absurd rfl hne
  -- the phase of another call, or of this one while it waits, is no end
  have hwaits : ∀ other : Call, next.calls[c]? = some other →
      ∀ k f writing, other.phase = .publish k f writing → False := by
    intro other hother k f writing hpublish
    rw [hother] at hcall'
    cases hcall'
    rw [hpublish] at hphase'
    cases hphase'
  by_cases hcaller : action.caller = some c
  · cases action with
    | resumeWrite c' ok =>
        cases hcaller
        obtain ⟨_, hcall₁, hstep⟩ := Option.bind_eq_some_iff.mp hstep
        cases hcall.symm.trans hcall₁
        unfold Connection.resumeWrite at hstep
        rw [hphase] at hstep
        cases writing with
        | false => cases hstep
        | true =>
            simp only at hstep
            split at hstep
            · exact Or.inl (hfinish (Option.some.inj hstep).symm)
            · split at hstep
              · cases hstep
                refine (hwaits { call with phase := .publish k f false } ?_ k f false rfl).elim
                simp [Connection.setPhase, hcall]
              · exact Or.inr (Or.inl (hfinish (Option.some.inj hstep).symm))
    | resumeFuture c' write =>
        cases hcaller
        obtain ⟨_, hcall₁, hstep⟩ := Option.bind_eq_some_iff.mp hstep
        cases hcall.symm.trans hcall₁
        unfold Connection.resumeFuture at hstep
        rw [hphase] at hstep
        cases writing with
        | true => cases hstep
        | false =>
            simp only at hstep
            split at hstep
            · cases hstep
            · cases hstep
            · next packet hvalue =>
                split at hstep
                · exact Or.inl (hfinish (Option.some.inj hstep).symm)
                · exact Or.inr (Or.inr (Or.inl
                    ⟨packet, hvalue, hfinish (Option.some.inj hstep).symm⟩))
            · next error hvalue =>
                split at hstep
                · exact Or.inl (hfinish (Option.some.inj hstep).symm)
                · exact Or.inr (Or.inr (Or.inr
                    ⟨error, hvalue, hfinish (Option.some.inj hstep).symm⟩))
            · exact Or.inl (hfinish (Option.some.inj hstep).symm)
    | cancel c' =>
        cases hcaller
        obtain ⟨_, hcall₁, hstep⟩ := Option.bind_eq_some_iff.mp hstep
        cases hcall.symm.trans hcall₁
        have hcalls : next.calls =
            s.calls.modify c fun call => { call with cancelRequested := true } := by
          unfold Connection.cancel at hstep
          rw [hphase] at hstep
          cases writing <;> cases hstep <;> rfl
        refine (hwaits { call with cancelRequested := true } ?_ k f writing hphase).elim
        rw [hcalls]
        simp [hcall]
    | acquireGuard c' =>
        cases hcaller
        obtain ⟨_, hcall₁, hstep⟩ := Option.bind_eq_some_iff.mp hstep
        cases hcall.symm.trans hcall₁
        simp [Connection.acquireGuard, hphase] at hstep
    | enter c' write =>
        cases hcaller
        obtain ⟨_, hcall₁, hstep⟩ := Option.bind_eq_some_iff.mp hstep
        cases hcall.symm.trans hcall₁
        simp [hphase] at hstep
    | resumeDrain c' ok =>
        cases hcaller
        obtain ⟨_, hcall₁, hstep⟩ := Option.bind_eq_some_iff.mp hstep
        cases hcall.symm.trans hcall₁
        simp [hphase] at hstep
    | _ => cases hcaller
  · exact (hwaits call (step_other hguarded hstep hcall hcaller) k f writing hphase).elim

/-- What holds in every state of a run in order. -/
structure InFlight (s : Connection) : Prop where
  owned : s.Owned none
  guarded : s.Guarded
  handshakes : s.Handshakes
  flown : ∀ call ∈ s.calls, Flown s.log call.phase

theorem InFlight.step {action : Action} (h : s.InFlight) (horder : s.inOrder action = true)
    (hstep : s.step action = some next) : next.InFlight :=
  ⟨h.owned.step hstep, h.guarded.step hstep, h.handshakes.step h.owned horder hstep,
    flown_step h.guarded h.handshakes.count h.flown hstep⟩

theorem opened_inFlight (version : Version) (strippedPrefixes : List Str) (maxPublishQos : QoS)
    (retainAvailable : Bool) :
    (opened version strippedPrefixes maxPublishQos retainAvailable).InFlight := by
  refine ⟨opened_owned _ _ _ _, .of_no_calls rfl, ⟨rfl, ?_, ?_, ?_, ?_, ?_⟩, ?_⟩
  · intro _ _ hget
    cases hget
  · intro _ _ hget
    cases hget
  · intro _ _ _ hset
    cases hset
  · intro _ _ _ hset
    cases hset
  · intro k earlier hearlier
    rw [List.prefix_nil.mp hearlier]
    simp [handshake]
  · intro _ hmem
    cases hmem

/-- A publish that returns has seen its handshake, and one that was refused its PUBREC. -/
theorem InFlight.returns {action : Action} {k f : Nat} {writing : Bool} {outcome : Outcome}
    (h : s.InFlight) (hcall : s.calls[c]? = some call)
    (hphase : call.phase = .publish k f writing)
    (hqos : (flights s.log)[f]? = some (.exactlyOnce, k)) (hstep : s.step action = some next)
    {call' : Call} (hcall' : next.calls[c]? = some call')
    (hphase' : call'.phase = .finished outcome) :
    (∀ ack, outcome = .published ack →
        ∃ reply, ack = some (.pubcomp reply) ∧ UntilReuse k (Completed k f reply) s.log) ∧
      ∀ code, outcome = .raised (.publishError code) →
        UntilReuse k (Rejected k f code) s.log := by
  -- the PUBLISH of the flight was written, so it is never an unsent one
  obtain ⟨qos, hflight, hsent⟩ :=
    h.flown call (List.mem_of_getElem? hcall) k f writing hphase
  rw [hqos] at hflight
  cases hflight
  obtain ⟨sent, hprefix, hstate⟩ := hsent rfl
  have hreached : ∀ {now : Handshake}, now.isClosed = true → Reached k s.log [now, .unsent f] →
      UntilReuse k (now.Shows k) s.log := by
    rintro now hclosed ⟨earlier, ⟨more, hlog⟩, hnow⟩
    rcases List.mem_cons.mp hnow with hnow | hnow
    · rw [← hlog]
      exact handshake_untilReuse hclosed hnow more (hlog ▸ h.handshakes.sound k)
    · exact absurd (List.mem_singleton.mp hnow)
        (not_unsent_of_sent hprefix ⟨more, hlog⟩ hstate)
  rcases publish_returns h.guarded hcall hphase hstep hcall' hphase' with
    rfl | rfl | ⟨packet, hvalue, rfl⟩ | ⟨error, hvalue, rfl⟩
  · simp
  · simp
  · obtain ⟨reply, rfl, hresult⟩ := h.handshakes.results f k packet hvalue hqos
    constructor
    · intro ack heq
      cases heq
      exact ⟨reply, rfl, hreached rfl hresult⟩
    · intro code heq
      cases heq
  · constructor
    · intro ack heq
      cases heq
    · intro code heq
      cases heq
      exact hreached rfl (h.handshakes.errors f k code hvalue hqos)

/-- The acknowledgement a QoS 2 flight waits for. -/
def awaits (flight : OutboundQoS2Flight) : Packet → Bool
  | .pubrec _ => flight.state = .pendingPubrec
  | .pubcomp _ => flight.state = .pendingPubcomp
  | _ => false

/-- The identifier an acknowledgement names. -/
def acknowledged : Packet → Option Int
  | .puback packet => some packet.packetId
  | .pubrec packet => some packet.packetId
  | .pubcomp packet => some packet.packetId
  | .suback packet => some packet.packetId
  | .unsuback packet => some packet.packetId
  | _ => none

/-- The read loop ends with a protocol error, and nothing is completed. -/
def Refused (s next : Connection) : Prop :=
  (∃ msg, next.reader = .ended (some (.protocolError msg))) ∧
    next.flightFutures = s.flightFutures ∧ next.answerFutures = s.answerFutures ∧
    next.calls = s.calls ∧ next.log = s.log

/-- A table of another kind has no entry under the identifier of a QoS 2 flight. -/
theorem Owned.not_pending {k : Nat} {flight : OutboundQoS2Flight} (h : s.Owned none)
    (hget : OrderedDict.get s.state.inflightQos2Out k = some flight) :
    OrderedDict.get s.state.inflightQos1 k = none ∧
      ∀ kind, OrderedDict.get (s.state.pending kind) k = none := by
  have hmem : k ∈ s.state.slotKeys .qos2 := (OrderedDict.mem_keys_iff _ _).mpr ⟨flight, hget⟩
  constructor
  · cases hother : OrderedDict.get s.state.inflightQos1 k with
    | none => rfl
    | some other =>
        cases h.balanced.disjoint k .qos1 .qos2 ((OrderedDict.mem_keys_iff _ _).mpr ⟨other, hother⟩)
          hmem
  · intro kind
    cases hother : OrderedDict.get (s.state.pending kind) k with
    | none => rfl
    | some other =>
        cases h.balanced.disjoint k (.request kind) .qos2
          ((OrderedDict.mem_keys_iff _ _).mpr ⟨other, hother⟩) hmem

theorem Refused.handleAnswer {k : Nat} (kind : RequestKind) (packet : Packet) (unknown : String)
    (hget : OrderedDict.get (s.state.pending kind) k = none) :
    Refused s (s.handleAnswer kind k packet unknown) := by
  have hget : OrderedDict.get (s.state.pending kind) (k : Int).toNat = none := hget
  unfold Connection.handleAnswer
  simp only [hget]
  exact ⟨⟨_, rfl⟩, rfl, rfl, rfl, rfl⟩

/-- An acknowledgement that the flight under its identifier does not wait for, or a
PUBREC or PUBCOMP without a flight, is refused. -/
theorem Owned.refuses {packet : Packet} {write : WriteOutcome} {k : Nat} (h : s.Owned none)
    (hack : acknowledged packet = some (k : Int))
    (hwrong : (∃ flight, OrderedDict.get s.state.inflightQos2Out k = some flight ∧
        awaits flight packet = false) ∨
      (OrderedDict.get s.state.inflightQos2Out k = none ∧
        ∃ reply, packet = .pubrec reply ∨ packet = .pubcomp reply))
    (horder : s.inOrder (.receive packet write) = true)
    (hstep : s.step (.receive packet write) = some next) : Refused s next := by
  have hnext : next = s.dispatch packet write := by
    simp only [Connection.step] at hstep
    split at hstep <;> cases hstep
    rfl
  subst hnext
  cases packet with
  | puback reply =>
      rcases hwrong with ⟨flight, hget, -⟩ | ⟨-, other, heq | heq⟩
      · have hid : reply.packetId = k := Option.some.inj hack
        have hnone : OrderedDict.get s.state.inflightQos1 reply.packetId.toNat = none := by
          rw [hid]
          exact (h.not_pending hget).1
        simp only [Connection.dispatch, Connection.handlePuback, hnone]
        exact ⟨⟨_, rfl⟩, rfl, rfl, rfl, rfl⟩
      · cases heq
      · cases heq
  | pubrec reply =>
      have hid : reply.packetId = k := Option.some.inj hack
      simp only [Connection.dispatch, Connection.handlePubrec, hid, Int.toNat_natCast]
      rcases hwrong with ⟨flight, hget, hstate⟩ | ⟨hget, -⟩
      · have hstate : flight.state ≠ .pendingPubrec := by simpa [awaits] using hstate
        simp only [hget, if_pos hstate]
        exact ⟨⟨_, rfl⟩, rfl, rfl, rfl, rfl⟩
      · simp only [hget]
        exact ⟨⟨_, rfl⟩, rfl, rfl, rfl, rfl⟩
  | pubcomp reply =>
      have hid : reply.packetId = k := Option.some.inj hack
      simp only [Connection.dispatch, Connection.handlePubcomp, hid, Int.toNat_natCast]
      rcases hwrong with ⟨flight, hget, hstate⟩ | ⟨hget, -⟩
      · simp only [inOrder, hid, Int.toNat_natCast, hget, Option.all_some,
          decide_eq_true_eq] at horder
        simp [awaits, horder] at hstate
      · simp only [hget]
        exact ⟨⟨_, rfl⟩, rfl, rfl, rfl, rfl⟩
  | suback reply =>
      rcases hwrong with ⟨flight, hget, -⟩ | ⟨-, other, heq | heq⟩
      · have hid : reply.packetId = k := Option.some.inj hack
        simp only [Connection.dispatch, Connection.handleSuback, hid]
        exact Refused.handleAnswer _ _ _ ((h.not_pending hget).2 _)
      · cases heq
      · cases heq
  | unsuback reply =>
      rcases hwrong with ⟨flight, hget, -⟩ | ⟨-, other, heq | heq⟩
      · have hid : reply.packetId = k := Option.some.inj hack
        simp only [Connection.dispatch, Connection.handleUnsuback, hid]
        exact Refused.handleAnswer _ _ _ ((h.not_pending hget).2 _)
      · cases heq
      · cases heq
  | _ => cases hack

end Connection

/-- **QoS 2 handshake order.**  In every run in which no PUBCOMP comes for a flight that
still waits for its PUBREC: every waiting publish has a flight of its own; a QoS 2 publish
that returns does so with a PUBCOMP, after PUBLISH, accepting PUBREC, one PUBREL and that
PUBCOMP; one that raises the error of a refused publish does so after PUBLISH and refusing
PUBREC, and no PUBREL follows; and every other acknowledgement for an identifier ends the
read loop with a protocol error. -/
theorem qos2_handshake_order (version : Version) (strippedPrefixes : List Str)
    (maxPublishQos : QoS) (retainAvailable : Bool) (actions : List Connection.Action)
    (s : Connection)
    (hrun : Transition.run Connection.step
      (Connection.opened version strippedPrefixes maxPublishQos retainAvailable) actions = some s)
    (horder : Transition.Along Connection.step (fun s action => s.inOrder action = true)
      (Connection.opened version strippedPrefixes maxPublishQos retainAvailable) actions) :
    (∀ (c k f : Nat) (call : Call) (writing : Bool), s.calls[c]? = some call →
      call.phase = .publish k f writing → ∃ qos, (flights s.log)[f]? = some (qos, k)) ∧
    (∀ (action : Connection.Action) (next : Connection) (c k f : Nat) (call call' : Call)
        (writing : Bool) (outcome : Outcome),
      s.calls[c]? = some call → call.phase = .publish k f writing →
      (flights s.log)[f]? = some (.exactlyOnce, k) → s.step action = some next →
      next.calls[c]? = some call' → call'.phase = .finished outcome →
      (∀ ack, outcome = .published ack →
        ∃ reply, ack = some (.pubcomp reply) ∧ UntilReuse k (Completed k f reply) s.log) ∧
      (∀ code, outcome = .raised (.publishError code) →
        UntilReuse k (Rejected k f code) s.log)) ∧
    (∀ (packet : Packet) (write : WriteOutcome) (next : Connection) (k : Nat),
      Connection.acknowledged packet = some (k : Int) →
      ((∃ flight, OrderedDict.get s.state.inflightQos2Out k = some flight ∧
          Connection.awaits flight packet = false) ∨
        (OrderedDict.get s.state.inflightQos2Out k = none ∧
          ∃ reply, packet = .pubrec reply ∨ packet = .pubcomp reply)) →
      s.inOrder (.receive packet write) = true → s.step (.receive packet write) = some next →
      Connection.Refused s next) := by
  have h : s.InFlight := Transition.invariant_along
    (fun _ _ _ h horder hstep => Connection.InFlight.step h horder hstep)
    (Connection.opened_inFlight _ _ _ _) horder hrun
  refine ⟨?_, ?_, ?_⟩
  · intro c k f call writing hcall hphase
    obtain ⟨qos, hflight, -⟩ := h.flown call (List.mem_of_getElem? hcall) k f writing hphase
    exact ⟨qos, hflight⟩
  · intro action next c k f call call' writing outcome hcall hphase hqos hstep hcall' hphase'
    exact h.returns hcall hphase hqos hstep hcall' hphase'
  · intro packet write next k hack hwrong horder hstep
    exact h.owned.refuses hack hwrong horder hstep

/-- A QoS 2 publish on topic `a`. -/
def qos2Publish : Publish :=
  { topic := str "a", payload := [], qos := .exactlyOnce, retain := false, dup := false }

/-- Two publishes at once; the first is acknowledged up to its PUBCOMP, and returns that. -/
theorem qos2_handshake_order_interleaved :
    ∃ s next, Transition.run Connection.step (Connection.opened .v5 [] .exactlyOnce true)
        [.publish qos2Publish .done, .publish qos2Publish .done,
          .receive (.pubrec { packetId := 1 }) .done, .receive (.pubrec { packetId := 2 }) .done,
          .receive (.pubcomp { packetId := 1 }) .done] = some s ∧
      s.step (.resumeFuture 0 .done) = some next ∧
      next.calls[0]?.map Call.phase =
        some (.finished (.published (some (.pubcomp { packetId := 1 })))) ∧
      UntilReuse 1 (Completed 1 0 { packetId := 1 }) s.log := by
  have h := qos2_handshake_order .v5 [] .exactlyOnce true
    [.publish qos2Publish .done, .publish qos2Publish .done,
      .receive (.pubrec { packetId := 1 }) .done, .receive (.pubrec { packetId := 2 }) .done,
      .receive (.pubcomp { packetId := 1 }) .done] _ rfl (by decide)
  obtain ⟨reply, hreply, huntil⟩ :=
    (h.2.1 (.resumeFuture 0 .done) _ 0 1 0 _ _ false _ rfl rfl rfl rfl rfl rfl).1 _ rfl
  cases hreply
  exact ⟨_, _, rfl, rfl, rfl, huntil⟩

/-- A completed flight has a PUBREL in the record. -/
theorem Completed.exists_pubrel {k f : Nat} {ack : PubReply} {log : List Event}
    (h : Completed k f ack log) : ∃ packet, Event.wrote (.pubrel packet) ∈ log := by
  obtain ⟨before, last, after, rfl, -, ⟨earlier, pubrel, quiet, rfl, ⟨packet, rfl, -⟩, -⟩, -⟩ := h
  exact ⟨packet, by simp⟩

/-- The PUBCOMP comes in place of the PUBREC: the publish returns it, and there was
neither a PUBREC nor a PUBREL. -/
theorem pubcomp_without_pubrec_completes :
    ∃ s next, Transition.run Connection.step (Connection.opened .v5 [] .exactlyOnce true)
        [.publish qos2Publish .done, .receive (.pubcomp { packetId := 1 }) .done] = some s ∧
      s.step (.resumeFuture 0 .done) = some next ∧
      next.calls[0]?.map Call.phase =
        some (.finished (.published (some (.pubcomp { packetId := 1 })))) ∧
      s.log = [.acquired (.publish .exactlyOnce) 1,
        .wrote (.publish { qos2Publish with packetId := some 1 }),
        .handled (.pubcomp { packetId := 1 })] ∧
      s.reader = .idle ∧ ¬ UntilReuse 1 (Completed 1 0 { packetId := 1 }) s.log := by
  have hnot : ¬ UntilReuse 1 (Completed 1 0 { packetId := 1 })
      [.acquired (.publish .exactlyOnce) 1,
        .wrote (.publish { qos2Publish with packetId := some 1 }),
        .handled (.pubcomp { packetId := 1 })] := by
    rintro ⟨before, rest, hlog, hcompleted, -⟩
    obtain ⟨packet, hpacket⟩ := hcompleted.exists_pubrel
    have hmem := List.mem_append_left rest hpacket
    rw [← hlog] at hmem
    simp at hmem
  exact ⟨_, _, rfl, rfl, rfl, rfl, rfl, hnot⟩

end Zmqtt
