import Zmqtt.History
import Zmqtt.RequestDispatcher
import Zmqtt.Transition

/-!
# Responses are claimed exclusively

A claim stays good until the next `bind` and until its request is unregistered.  The
three checks of `complete` see exactly that: the generation counts the binds, and the
identity of the request tells a new registration of the same key from the old one.
-/

namespace Zmqtt

open RequestDispatcher

/-- The request is registered. -/
def isRegistered (r : Nat) : List RequestEvent → Bool
  | [] => false
  | .registered other :: earlier => other = r || isRegistered r earlier
  | .unregistered other :: earlier => other ≠ r && isRegistered r earlier
  | _ :: earlier => isRegistered r earlier

/-- The request was claimed since the latest `bind`. -/
def claimedSince (r : Nat) : List RequestEvent → Bool
  | [] => false
  | .bound :: _ => false
  | .claimed _ other :: earlier => other = r || claimedSince r earlier
  | _ :: earlier => claimedSince r earlier

/-- The response was claimed for the request while that was registered, and since then
there was no `bind` and the request was not unregistered. -/
def Good (i r : Nat) (log : List RequestEvent) : Prop :=
  ∃ later earlier, log = later ++ .claimed i r :: earlier ∧ isRegistered r earlier = true ∧
    .bound ∉ later ∧ .unregistered r ∉ later

/-- Topic and correlation data of a message are those of a request. -/
def Answers (message : Message) (key : RequestKey) : Prop :=
  message.topic = key.1 ∧ message.properties.bind PublishProperties.correlationData = some key.2

/-- What an event requires of the log before it. -/
def Allowed : RequestEvent → List RequestEvent → Prop
  | .claimed i r, earlier => claimedSince r earlier = false ∧ ∀ other, .claimed i other ∉ earlier
  | .completed i r, earlier => Good i r earlier ∧ ∀ j, .completed j r ∉ earlier
  | _, _ => True

theorem Good.later {i r : Nat} {log : List RequestEvent} (h : Good i r log) {event : RequestEvent}
    (hbound : event ≠ .bound) (hunregistered : event ≠ .unregistered r) :
    Good i r (event :: log) := by
  obtain ⟨later, earlier, rfl, hregistered, hnobound, hnounregistered⟩ := h
  refine ⟨event :: later, earlier, rfl, hregistered, ?_, ?_⟩
  · simpa using ⟨hbound.symm, hnobound⟩
  · simpa using ⟨hunregistered.symm, hnounregistered⟩

/-- Keys stay, done futures stay, and no future gets a message. -/
structure Follows (old new : List PendingRequest) : Prop where
  kept : ∀ (r : Nat) request, old[r]? = some request → ∃ request', new[r]? = some request' ∧
    request'.key = request.key ∧ (request.future ≠ .waiting → request'.future = request.future)
  results : ∀ (r : Nat) request' message, new[r]? = some request' →
    request'.future = .result message → ∃ request, old[r]? = some request ∧
      request.future = .result message ∧ request.key = request'.key

/-- A change of one request that a follower may make. -/
def Harmless (f : PendingRequest → PendingRequest) : Prop :=
  ∀ request, (f request).key = request.key ∧
    (request.future ≠ .waiting → (f request).future = request.future) ∧
    ∀ message, (f request).future = .result message → request.future = .result message

theorem harmless_cancel : Harmless PendingRequest.cancel := by
  intro request
  unfold PendingRequest.cancel
  split
  · rename_i hwaiting
    exact ⟨rfl, fun hne => absurd hwaiting hne, fun _ h => by cases h⟩
  · exact ⟨rfl, fun _ => rfl, fun _ h => h⟩

theorem harmless_fail : Harmless PendingRequest.fail := by
  intro request
  unfold PendingRequest.fail
  split
  · rename_i hwaiting
    exact ⟨rfl, fun hne => absurd hwaiting hne, fun _ h => by cases h⟩
  · exact ⟨rfl, fun _ => rfl, fun _ h => h⟩

theorem harmless_setClaimed (claimed : Bool) :
    Harmless fun request => request.setClaimed claimed :=
  fun _ => ⟨rfl, fun _ => rfl, fun _ h => h⟩

theorem harmless_close (timeout : Bool) : Harmless fun request => request.close timeout := by
  cases timeout with
  | false => exact fun _ => ⟨rfl, fun _ => rfl, fun _ h => h⟩
  | true => exact harmless_cancel

theorem getElem?_modify_of {requests : List PendingRequest} {r : Nat} {request : PendingRequest}
    (h : requests[r]? = some request) (f : PendingRequest → PendingRequest) (k : Nat) :
    (requests.modify r f)[k]? = if r = k then some (f request) else requests[k]? := by
  rw [List.getElem?_modify]
  split
  · rename_i heq
    rw [← heq, h]
    rfl
  · cases requests[k]? <;> rfl

namespace Follows

variable {old new : List PendingRequest} {f : PendingRequest → PendingRequest}

/-- Some requests change, each harmlessly. -/
theorem of_map (hf : Harmless f) (change : Nat → Bool)
    (h : ∀ r, new[r]? = old[r]?.map fun request => if change r then f request else request) :
    Follows old new where
  kept r request hrequest := by
    rw [h, hrequest]
    refine ⟨_, rfl, ?_⟩
    split
    · exact ⟨(hf request).1, (hf request).2.1⟩
    · exact ⟨rfl, fun _ => rfl⟩
  results r request' message hrequest' hresult := by
    rw [h] at hrequest'
    obtain ⟨request, hrequest, rfl⟩ := Option.map_eq_some_iff.mp hrequest'
    refine ⟨request, hrequest, ?_⟩
    split at hresult
    · rename_i hchange
      rw [if_pos hchange]
      exact ⟨(hf request).2.2 message hresult, (hf request).1.symm⟩
    · rename_i hchange
      rw [if_neg hchange]
      exact ⟨hresult, rfl⟩

theorem modify (hf : Harmless f) (requests : List PendingRequest) (r : Nat) :
    Follows requests (requests.modify r f) := by
  refine of_map hf (fun k => decide (r = k)) fun k => ?_
  rw [List.getElem?_modify]
  by_cases hk : r = k <;> simp [hk]

theorem mapIdx (hf : Harmless f) (requests : List PendingRequest) (members : List Nat) :
    Follows requests (requests.mapIdx fun r request => if r ∈ members then f request else request) := by
  refine of_map hf (fun k => decide (k ∈ members)) fun k => ?_
  simp only [List.getElem?_mapIdx, decide_eq_true_eq]

theorem append (requests : List PendingRequest) {request : PendingRequest}
    (hwaiting : request.future = .waiting) : Follows requests (requests ++ [request]) where
  kept r old hold := by
    refine ⟨old, ?_, rfl, fun _ => rfl⟩
    rw [List.getElem?_append_left (List.getElem?_eq_some_iff.mp hold).1]
    exact hold
  results r request' message hrequest' hresult := by
    by_cases hlt : r < requests.length
    · rw [List.getElem?_append_left hlt] at hrequest'
      exact ⟨request', hrequest', hresult, rfl⟩
    · rw [List.getElem?_append_right (Nat.le_of_not_lt hlt)] at hrequest'
      have hmem := List.mem_of_getElem? hrequest'
      rw [List.mem_singleton.mp hmem, hwaiting] at hresult
      cases hresult

theorem entry (h : Follows old new) {r : Nat} {key : RequestKey}
    (hentry : ∃ request, old[r]? = some request ∧ request.key = key) :
    ∃ request, new[r]? = some request ∧ request.key = key := by
  obtain ⟨request, hrequest, hkey⟩ := hentry
  obtain ⟨request', hrequest', hkey', -⟩ := h.kept r request hrequest
  exact ⟨request', hrequest', hkey'.trans hkey⟩

theorem done (h : Follows old new) {r : Nat}
    (hdone : ∃ request, old[r]? = some request ∧ request.future ≠ .waiting) :
    ∃ request, new[r]? = some request ∧ request.future ≠ .waiting := by
  obtain ⟨request, hrequest, hfuture⟩ := hdone
  obtain ⟨request', hrequest', -, hkept⟩ := h.kept r request hrequest
  exact ⟨request', hrequest', by rw [hkept hfuture]; exact hfuture⟩

end Follows

/-- The invariant of the dispatcher. -/
structure Exclusive (s : RequestDispatcher) : Prop where
  log : History.Each Allowed s.log
  keys : (OrderedDict.keys s.pending).Nodup
  entries : ∀ key r, (key, r) ∈ s.pending →
    ∃ request, s.requests[r]? = some request ∧ request.key = key
  registered : ∀ r, isRegistered r s.log = true ↔ r ∈ s.registered
  responses : ∀ i response, s.responses[i]? = some response →
    Answers response.message response.key ∧ response.generation ≤ s.generation ∧
      (∃ request, s.requests[response.request]? = some request ∧ request.key = response.key) ∧
      (response.generation = s.generation →
        OrderedDict.get s.pending response.key = some response.request →
          Good i response.request s.log)
  claims : ∀ r, claimedSince r s.log = true →
    ∃ request, s.requests[r]? = some request ∧ (request.claimed = true ∨ r ∉ s.registered)
  made : ∀ i r, .claimed i r ∈ s.log → i < s.responses.length
  completed : ∀ i r, .completed i r ∈ s.log →
    ∃ request, s.requests[r]? = some request ∧ request.future ≠ .waiting
  results : ∀ r request message, s.requests[r]? = some request →
    request.future = .result message → Answers message request.key ∧
      ∃ i response, s.responses[i]? = some response ∧ response.message = message ∧
        .completed i r ∈ s.log

namespace Exclusive

variable {s next : RequestDispatcher}

/-- A change of topics, tasks, calls or capacity. -/
theorem of_same (h : Exclusive s) (hpending : next.pending = s.pending)
    (hgeneration : next.generation = s.generation) (hrequests : next.requests = s.requests)
    (hresponses : next.responses = s.responses) (hlog : next.log = s.log) : Exclusive next where
  log := hlog ▸ h.log
  keys := hpending ▸ h.keys
  entries := by
    rw [hpending, hrequests]
    exact h.entries
  registered := by
    rw [hlog, RequestDispatcher.registered, hpending]
    exact h.registered
  responses := by
    rw [hresponses, hrequests, hpending, hgeneration, hlog]
    exact h.responses
  claims := by
    rw [hlog, hrequests, RequestDispatcher.registered, hpending]
    exact h.claims
  made := by
    rw [hlog, hresponses]
    exact h.made
  completed := by
    rw [hlog, hrequests]
    exact h.completed
  results := by
    rw [hrequests, hresponses, hlog]
    exact h.results

theorem mem_registered {r : Nat} : r ∈ s.registered ↔ ∃ key, (key, r) ∈ s.pending := by
  simp [RequestDispatcher.registered]

/-- A request is registered under one key only. -/
theorem unique (h : Exclusive s) {key key' : RequestKey} {r : Nat} (hkey : (key, r) ∈ s.pending)
    (hkey' : (key', r) ∈ s.pending) : key = key' := by
  obtain ⟨request, hrequest, rfl⟩ := h.entries key r hkey
  obtain ⟨request', hrequest', rfl⟩ := h.entries key' r hkey'
  rw [hrequest] at hrequest'
  cases hrequest'
  rfl

theorem lt_of_registered (h : Exclusive s) {r : Nat} (hr : r ∈ s.registered) :
    r < s.requests.length := by
  obtain ⟨key, hkey⟩ := mem_registered.mp hr
  obtain ⟨request, hrequest, -⟩ := h.entries key r hkey
  exact (List.getElem?_eq_some_iff.mp hrequest).1

/-- Claims stay where a change of one request keeps its flag. -/
theorem claims_modify (h : Exclusive s) {f : PendingRequest → PendingRequest} (r : Nat)
    (hf : ∀ request, request.claimed = true → (f request).claimed = true) {k : Nat}
    (hk : claimedSince k s.log = true) :
    ∃ request, (s.requests.modify r f)[k]? = some request ∧
      (request.claimed = true ∨ k ∉ s.registered) := by
  obtain ⟨request, hrequest, hclaimed⟩ := h.claims k hk
  rw [List.getElem?_modify, hrequest]
  refine ⟨_, rfl, hclaimed.imp_left fun hclaimed => ?_⟩
  split
  · exact hf request hclaimed
  · exact hclaimed

/-- A request changes, and nothing else. -/
theorem modifyRequest (h : Exclusive s) {f : PendingRequest → PendingRequest} (hf : Harmless f)
    (hclaimed : ∀ request, request.claimed = true → (f request).claimed = true) (r : Nat) :
    Exclusive (s.modifyRequest r f) := by
  have hfollows := Follows.modify hf s.requests r
  exact {
    log := h.log
    keys := h.keys
    entries := fun key k hk => hfollows.entry (h.entries key k hk)
    registered := h.registered
    responses := fun i response hresponse => by
      obtain ⟨hanswers, hgeneration, hentry, hgood⟩ := h.responses i response hresponse
      exact ⟨hanswers, hgeneration, hfollows.entry hentry, hgood⟩
    claims := fun k hk => h.claims_modify r hclaimed hk
    made := h.made
    completed := fun i k hk => hfollows.done (h.completed i k hk)
    results := fun k request' message hrequest' hresult => by
      obtain ⟨request, hrequest, hold, hkey⟩ := hfollows.results k request' message hrequest' hresult
      rw [← hkey]
      exact h.results k request message hrequest hold }

theorem mem_pop {key : RequestKey} {r : Nat} (h : Exclusive s)
    (hget : OrderedDict.get s.pending key = some r) (k : Nat) :
    k ∈ (OrderedDict.pop s.pending key).map Prod.snd ↔ k ≠ r ∧ k ∈ s.registered := by
  have hkey := OrderedDict.mem_of_get hget
  simp only [List.mem_map, OrderedDict.pop, List.mem_filter, decide_eq_true_eq]
  constructor
  · rintro ⟨⟨key', k'⟩, ⟨hmem, hne⟩, rfl⟩
    refine ⟨fun heq => hne ?_, mem_registered.mpr ⟨key', hmem⟩⟩
    rw [← show k' = r from heq] at hkey
    exact h.unique hmem hkey
  · rintro ⟨hne, hmem⟩
    obtain ⟨key', hmem⟩ := mem_registered.mp hmem
    refine ⟨(key', k), ⟨hmem, fun heq => hne ?_⟩, rfl⟩
    have hget' := OrderedDict.get_of_mem h.keys hmem
    rw [show key' = key from heq, hget] at hget'
    cases hget'
    rfl

/-- `del self._pending[key]`. -/
theorem remove (h : Exclusive s) {key : RequestKey} {r : Nat}
    (hget : OrderedDict.get s.pending key = some r) : Exclusive (s.remove key r) := by
  have hfollows := Follows.modify harmless_cancel s.requests r
  have hkey := OrderedDict.mem_of_get hget
  exact {
    log := ⟨trivial, h.log⟩
    keys := OrderedDict.nodup_keys_pop h.keys key
    entries := fun key' k hk => hfollows.entry (h.entries key' k (OrderedDict.mem_of_mem_pop hk))
    registered := fun k => by
      have hevent : isRegistered k (.unregistered r :: s.log) =
          (decide (r ≠ k) && isRegistered k s.log) := rfl
      change isRegistered k (.unregistered r :: s.log) = true ↔
        k ∈ (OrderedDict.pop s.pending key).map Prod.snd
      rw [hevent, h.mem_pop hget, Bool.and_eq_true, decide_eq_true_eq, h.registered, ne_comm]
    responses := fun i response hresponse => by
      obtain ⟨hanswers, hgeneration, hentry, hgood⟩ := h.responses i response hresponse
      refine ⟨hanswers, hgeneration, hfollows.entry hentry, fun hsame hpending => ?_⟩
      change OrderedDict.get (OrderedDict.pop s.pending key) response.key = _ at hpending
      rw [OrderedDict.get_pop] at hpending
      split at hpending
      · cases hpending
      · rename_i hne
        refine (hgood hsame hpending).later (fun h => by cases h) fun heq => hne ?_
        cases heq
        exact h.unique hkey (OrderedDict.mem_of_get hpending)
    claims := fun k hk => by
      have hcancel : ∀ request : PendingRequest, request.claimed = true →
          request.cancel.claimed = true := by
        intro request hclaimed
        unfold PendingRequest.cancel
        split <;> exact hclaimed
      obtain ⟨request, hrequest, hclaimed⟩ := h.claims_modify r hcancel hk
      refine ⟨request, hrequest, hclaimed.imp_right fun hnot hmem => hnot ?_⟩
      exact ((h.mem_pop hget k).mp hmem).2
    made := fun j k hk => h.made j k ((List.mem_cons.mp hk).resolve_left fun h => by cases h)
    completed := fun i k hk => hfollows.done (h.completed i k ((List.mem_cons.mp hk).resolve_left
      fun h => by cases h))
    results := fun k request' message hrequest' hresult => by
      obtain ⟨request, hrequest, hold, hkey⟩ := hfollows.results k request' message hrequest' hresult
      rw [← hkey]
      obtain ⟨hanswers, i, response, hresponse, hmessage, hcompleted⟩ :=
        h.results k request message hrequest hold
      exact ⟨hanswers, i, response, hresponse, hmessage, List.mem_cons_of_mem _ hcompleted⟩ }

/-- A new request under a free key. -/
theorem add (h : Exclusive s) {key : RequestKey} (hfree : OrderedDict.get s.pending key = none)
    (i : Nat) : Exclusive (s.add key i) := by
  have hfollows : Follows s.requests (s.requests ++ [{ key := key }]) := Follows.append s.requests rfl
  have hnot : s.requests.length ∉ s.registered := fun hmem =>
    absurd (h.lt_of_registered hmem) (Nat.lt_irrefl _)
  have hkeys := (OrderedDict.get_eq_none_iff s.pending key).mp hfree
  have hset : OrderedDict.set s.pending key s.requests.length =
      s.pending ++ [(key, s.requests.length)] := OrderedDict.set_of_not_mem hkeys _
  exact {
    log := ⟨trivial, h.log⟩
    keys := OrderedDict.nodup_keys_set h.keys key _
    entries := fun key' k hk => by
      rcases OrderedDict.mem_of_mem_set hk with hold | hnew
      · exact hfollows.entry (h.entries key' k hold)
      · cases hnew
        exact ⟨_, List.getElem?_concat_length, rfl⟩
    registered := fun k => by
      have hevent : isRegistered k (.registered s.requests.length :: s.log) =
          (decide (s.requests.length = k) || isRegistered k s.log) := rfl
      change isRegistered k (.registered s.requests.length :: s.log) = true ↔
        k ∈ (OrderedDict.set s.pending key s.requests.length).map Prod.snd
      rw [hevent, hset, Bool.or_eq_true, decide_eq_true_eq, h.registered, List.map_append]
      simp only [RequestDispatcher.registered, List.mem_append, List.map_cons, List.map_nil,
        List.mem_singleton]
      rw [or_comm, eq_comm]
    responses := fun j response hresponse => by
      obtain ⟨hanswers, hgeneration, hentry, hgood⟩ := h.responses j response hresponse
      refine ⟨hanswers, hgeneration, hfollows.entry hentry, fun hsame hpending => ?_⟩
      change OrderedDict.get (OrderedDict.set s.pending key s.requests.length) response.key = _
        at hpending
      rw [OrderedDict.get_set] at hpending
      split at hpending
      · -- the request of a response is older than the new one
        obtain ⟨request, hrequest, -⟩ := hentry
        have hlt := (List.getElem?_eq_some_iff.mp hrequest).1
        rw [← Option.some.inj hpending] at hlt
        exact absurd hlt (Nat.lt_irrefl _)
      · exact (hgood hsame hpending).later (fun h => by cases h) (fun h => by cases h)
    claims := fun k hk => by
      obtain ⟨request, hrequest, hclaimed⟩ := h.claims k hk
      have hlt := (List.getElem?_eq_some_iff.mp hrequest).1
      refine ⟨request, ?_, hclaimed.imp_right fun hnot hmem => hnot ?_⟩
      · change (s.requests ++ [{ key := key }])[k]? = some request
        rw [List.getElem?_append_left hlt]
        exact hrequest
      · obtain ⟨key', hmem⟩ := mem_registered.mp hmem
        rcases OrderedDict.mem_of_mem_set hmem with hold | hnew
        · exact mem_registered.mpr ⟨key', hold⟩
        · cases hnew
          exact absurd hlt (Nat.lt_irrefl _)
    made := fun j k hk => h.made j k ((List.mem_cons.mp hk).resolve_left fun h => by cases h)
    completed := fun j k hk => hfollows.done (h.completed j k ((List.mem_cons.mp hk).resolve_left
      fun h => by cases h))
    results := fun k request' message hrequest' hresult => by
      obtain ⟨request, hrequest, hold, hkey⟩ := hfollows.results k request' message hrequest' hresult
      rw [← hkey]
      obtain ⟨hanswers, j, response, hresponse, hmessage, hcompleted⟩ :=
        h.results k request message hrequest hold
      exact ⟨hanswers, j, response, hresponse, hmessage, List.mem_cons_of_mem _ hcompleted⟩ }

/-- `claim`. -/
theorem claim (h : Exclusive s) (message : Message) : Exclusive (s.claim message) := by
  unfold RequestDispatcher.claim
  cases hdata : message.properties.bind PublishProperties.correlationData with
  | none => exact h
  | some data =>
      simp only
      cases hget : OrderedDict.get s.pending (message.topic, data) with
      | none => exact h
      | some r =>
          obtain ⟨request, hrequest, hkey⟩ := h.entries _ r (OrderedDict.mem_of_get hget)
          have hregistered : r ∈ s.registered :=
            mem_registered.mpr ⟨_, OrderedDict.mem_of_get hget⟩
          simp only [hrequest, Option.elim_some]
          split
          · exact h
          · rename_i hfree
            simp only [Bool.or_eq_true, decide_eq_true_eq, not_or, Bool.not_eq_true] at hfree
            have hfollows := Follows.modify (harmless_setClaimed true) s.requests r
            have hunclaimed : claimedSince r s.log = false := by
              cases hsince : claimedSince r s.log with
              | false => rfl
              | true =>
                  obtain ⟨other, hother, hclaimed⟩ := h.claims r hsince
                  rw [hrequest] at hother
                  cases hother
                  rcases hclaimed with hclaimed | hnot
                  · exact hclaimed.symm.trans hfree.1
                  · exact absurd hregistered hnot
            exact {
              log := ⟨⟨hunclaimed, fun other hmem => Nat.lt_irrefl _ (h.made _ other hmem)⟩, h.log⟩
              keys := h.keys
              entries := fun key' k hk => hfollows.entry (h.entries key' k hk)
              registered := h.registered
              responses := fun i response hresponse => by
                change (s.responses ++ [_])[i]? = _ at hresponse
                by_cases hlt : i < s.responses.length
                · rw [List.getElem?_append_left hlt] at hresponse
                  obtain ⟨hanswers, hgeneration, hentry, hgood⟩ := h.responses i response hresponse
                  refine ⟨hanswers, hgeneration, hfollows.entry hentry, fun hsame hpending => ?_⟩
                  exact (hgood hsame hpending).later (fun h => by cases h) (fun h => by cases h)
                · rw [List.getElem?_append_right (Nat.le_of_not_lt hlt)] at hresponse
                  have hzero : i = s.responses.length := by
                    have := (List.getElem?_eq_some_iff.mp hresponse).1
                    simp only [List.length_singleton] at this
                    omega
                  subst hzero
                  rw [Nat.sub_self] at hresponse
                  cases hresponse
                  refine ⟨⟨rfl, hdata⟩, Nat.le_refl _, ?_, fun _ _ => ?_⟩
                  · exact hfollows.entry ⟨request, hrequest, hkey⟩
                  · exact ⟨[], s.log, rfl, (h.registered r).mpr hregistered, List.not_mem_nil,
                      List.not_mem_nil⟩
              claims := fun k hk => by
                have hevent : (decide (r = k) || claimedSince k s.log) = true := hk
                change ∃ request, (s.requests.modify r _)[k]? = some request ∧ _
                by_cases heq : r = k
                · subst heq
                  rw [getElem?_modify_of hrequest, if_pos rfl]
                  exact ⟨_, rfl, .inl rfl⟩
                · exact h.claims_modify r (fun _ _ => rfl) (by simpa [heq] using hevent)
              made := fun j k hk => by
                change j < (s.responses ++ [_]).length
                rw [List.length_append, List.length_singleton]
                rcases List.mem_cons.mp hk with heq | hold
                · cases heq
                  exact Nat.lt_succ_self _
                · exact Nat.lt_succ_of_lt (h.made j k hold)
              completed := fun j k hk => hfollows.done (h.completed j k
                ((List.mem_cons.mp hk).resolve_left fun h => by cases h))
              results := fun k request' message' hrequest' hresult => by
                obtain ⟨old, hold, hresult, hkey⟩ :=
                  hfollows.results k request' message' hrequest' hresult
                rw [← hkey]
                obtain ⟨hanswers, i, response, hresponse, hmessage, hcompleted⟩ :=
                  h.results k old message' hold hresult
                refine ⟨hanswers, i, response, ?_, hmessage, List.mem_cons_of_mem _ hcompleted⟩
                change (s.responses ++ [_])[i]? = _
                rw [List.getElem?_append_left (List.getElem?_eq_some_iff.mp hresponse).1]
                exact hresponse }

/-- `complete`. -/
theorem complete (h : Exclusive s) {i : Nat} {response : ClaimedResponse}
    (hresponse : s.responses[i]? = some response) : Exclusive (s.complete i response) := by
  unfold RequestDispatcher.complete
  split
  · rename_i hchecks
    obtain ⟨hgeneration, hpending, hwaiting⟩ := hchecks
    obtain ⟨hanswers, -, ⟨request, hrequest, hkey⟩, hgood⟩ := h.responses i response hresponse
    rw [hrequest, Option.elim_some, decide_eq_true_eq] at hwaiting
    have hmodify := getElem?_modify_of hrequest fun request => request.setResult response.message
    have hflag : ∀ request : PendingRequest, request.claimed = true →
        (request.setResult response.message).claimed = true := fun _ hclaimed => hclaimed
    have hentry : ∀ {k : Nat} {key}, (∃ request, s.requests[k]? = some request ∧ request.key = key) →
        ∃ request, (s.requests.modify response.request fun request =>
          request.setResult response.message)[k]? = some request ∧ request.key = key := by
      rintro k key ⟨old, hold, rfl⟩
      rw [hmodify]
      split
      · rename_i heq
        rw [← heq, hrequest] at hold
        cases hold
        exact ⟨_, rfl, rfl⟩
      · exact ⟨old, hold, rfl⟩
    exact {
      log := by
        refine ⟨⟨hgood hgeneration.symm hpending, fun j hmem => ?_⟩, h.log⟩
        obtain ⟨old, hold, hdone⟩ := h.completed j response.request hmem
        rw [hrequest] at hold
        cases hold
        exact hdone hwaiting
      keys := h.keys
      entries := fun key k hk => hentry (h.entries key k hk)
      registered := h.registered
      responses := fun j other hother => by
        obtain ⟨hanswers, hle, hfound, hgood⟩ := h.responses j other hother
        refine ⟨hanswers, hle, hentry hfound, fun hsame hpending => ?_⟩
        exact (hgood hsame hpending).later (fun h => by cases h) (fun h => by cases h)
      claims := fun k hk => h.claims_modify response.request hflag hk
      made := fun j k hk => h.made j k ((List.mem_cons.mp hk).resolve_left fun h => by cases h)
      completed := fun j k hk => by
        change ∃ request, (s.requests.modify _ _)[k]? = some request ∧ _
        rw [hmodify]
        rcases List.mem_cons.mp hk with heq | hold
        · cases heq
          rw [if_pos rfl]
          exact ⟨_, rfl, fun h => by cases h⟩
        · split
          · exact ⟨_, rfl, fun h => by cases h⟩
          · exact h.completed j k hold
      results := fun k request' message hrequest' hresult => by
        change (s.requests.modify _ _)[k]? = some request' at hrequest'
        rw [hmodify] at hrequest'
        split at hrequest'
        · rename_i heq
          cases hrequest'
          cases hresult
          refine ⟨hkey ▸ hanswers, i, response, hresponse, rfl, ?_⟩
          rw [← heq]
          exact List.mem_cons_self
        · obtain ⟨hold, j, other, hother, hmessage, hcompleted⟩ :=
            h.results k request' message hrequest' hresult
          exact ⟨hold, j, other, hother, hmessage, List.mem_cons_of_mem _ hcompleted⟩ }
  · exact h

/-- `bind`. -/
theorem bind (h : Exclusive s) (protocol : Nat) : Exclusive (s.bind protocol) := by
  have hfollows := Follows.mapIdx (harmless_setClaimed false) s.requests s.registered
  exact {
    log := ⟨trivial, h.log⟩
    keys := h.keys
    entries := fun key k hk => hfollows.entry (h.entries key k hk)
    registered := h.registered
    responses := fun i response hresponse => by
      obtain ⟨hanswers, hle, hentry, -⟩ := h.responses i response hresponse
      refine ⟨hanswers, Nat.le_succ_of_le hle, hfollows.entry hentry, fun hsame _ => ?_⟩
      change response.generation = s.generation + 1 at hsame
      omega
    claims := fun k hk => by cases hk
    made := fun j k hk => h.made j k ((List.mem_cons.mp hk).resolve_left fun h => by cases h)
    completed := fun i k hk => hfollows.done (h.completed i k ((List.mem_cons.mp hk).resolve_left
      fun h => by cases h))
    results := fun k request' message hrequest' hresult => by
      obtain ⟨request, hrequest, hold, hkey⟩ := hfollows.results k request' message hrequest' hresult
      rw [← hkey]
      obtain ⟨hanswers, i, response, hresponse, hmessage, hcompleted⟩ :=
        h.results k request message hrequest hold
      exact ⟨hanswers, i, response, hresponse, hmessage, List.mem_cons_of_mem _ hcompleted⟩ }

/-! The log of `cancel_pending`. -/

theorem each_unregistered {log : List RequestEvent} (h : History.Each Allowed log)
    (removed : List Nat) :
    History.Each Allowed (removed.map RequestEvent.unregistered ++ log) := by
  induction removed with
  | nil => exact h
  | cons r rest ih => exact ⟨trivial, ih⟩

theorem isRegistered_unregistered (r : Nat) (removed : List Nat) (log : List RequestEvent) :
    isRegistered r (removed.map RequestEvent.unregistered ++ log) =
      (decide (r ∉ removed) && isRegistered r log) := by
  induction removed with
  | nil => simp
  | cons first rest ih =>
      have hevent : isRegistered r (.unregistered first ::
          (rest.map RequestEvent.unregistered ++ log)) =
            (decide (first ≠ r) && isRegistered r (rest.map RequestEvent.unregistered ++ log)) := rfl
      rw [List.map_cons, List.cons_append, hevent, ih]
      by_cases heq : first = r
      · simp [heq]
      · simp [heq, Ne.symm heq]

theorem claimedSince_unregistered (r : Nat) (removed : List Nat) (log : List RequestEvent) :
    claimedSince r (removed.map RequestEvent.unregistered ++ log) = claimedSince r log := by
  induction removed with
  | nil => rfl
  | cons first rest ih => exact ih

/-- `cancel_pending`. -/
theorem cancelPending (h : Exclusive s) : Exclusive s.cancelPending := by
  have hfollows := Follows.mapIdx harmless_fail s.requests s.registered
  have hcompleted : ∀ {i r}, .completed i r ∈ s.cancelPending.log ↔ .completed i r ∈ s.log := by
    intro i r
    simp [RequestDispatcher.cancelPending]
  exact {
    log := each_unregistered h.log s.registered
    keys := List.nodup_nil
    entries := fun key k hk => by cases hk
    registered := fun k => by
      have hnone : k ∉ s.cancelPending.registered := List.not_mem_nil
      have hlog := isRegistered_unregistered k s.registered s.log
      refine ⟨fun hregistered => ?_, fun hmem => absurd hmem hnone⟩
      rw [show isRegistered k s.cancelPending.log = _ from hlog, Bool.and_eq_true,
        decide_eq_true_eq] at hregistered
      exact absurd ((h.registered k).mp hregistered.2) hregistered.1
    responses := fun i response hresponse => by
      obtain ⟨hanswers, hle, hentry, -⟩ := h.responses i response hresponse
      refine ⟨hanswers, Nat.le_succ_of_le hle, hfollows.entry hentry, fun hsame _ => ?_⟩
      change response.generation = s.generation + 1 at hsame
      omega
    claims := fun k hk => by
      rw [show claimedSince k s.cancelPending.log = _ from
        claimedSince_unregistered k s.registered s.log] at hk
      obtain ⟨request, hrequest, -⟩ := h.claims k hk
      obtain ⟨request', hrequest', -⟩ := hfollows.kept k request hrequest
      exact ⟨request', hrequest', .inr List.not_mem_nil⟩
    made := fun i k hk => h.made i k (by simpa [RequestDispatcher.cancelPending] using hk)
    completed := fun i k hk => hfollows.done (h.completed i k (hcompleted.mp hk))
    results := fun k request' message hrequest' hresult => by
      obtain ⟨request, hrequest, hold, hkey⟩ := hfollows.results k request' message hrequest' hresult
      rw [← hkey]
      obtain ⟨hanswers, i, response, hresponse, hmessage, hmem⟩ :=
        h.results k request message hrequest hold
      exact ⟨hanswers, i, response, hresponse, hmessage, hcompleted.mpr hmem⟩ }

/-! ## Calls -/

theorem finish (h : Exclusive s) (c : Nat) (error : Option RequestError) :
    Exclusive (s.release.finish c error) :=
  h.of_same rfl rfl rfl rfl rfl

theorem dropInterest (h : Exclusive s) (c : Nat) (topic : Str) (i : Nat) (observerActive : Bool)
    (error : Option RequestError) :
    Exclusive (s.dropInterest c topic i observerActive error) := by
  unfold RequestDispatcher.dropInterest
  simp only
  split
  · split <;> exact h.of_same rfl rfl rfl rfl rfl
  · exact h.finish c error

theorem unregister (h : Exclusive s) (c : Nat) (key : RequestKey) (r : Nat)
    (error : Option RequestError) : Exclusive (s.unregister c key r error) := by
  unfold RequestDispatcher.unregister
  split
  · exact h.of_same rfl rfl rfl rfl rfl
  · rename_i hget
    have hremoved := h.remove (not_not.mp hget)
    simp only
    split
    · exact hremoved.finish c _
    · rename_i i _
      have hinterest : Exclusive ((s.remove key r).modifyInterest i fun interest =>
          { interest with refcount := interest.refcount - 1 }) :=
        hremoved.of_same rfl rfl rfl rfl rfl
      split
      · exact hinterest.finish c error
      · split
        · exact hinterest.dropInterest c _ _ _ _
        · split
          · exact hinterest.of_same rfl rfl rfl rfl rfl
          · exact hinterest.dropInterest c _ _ _ _
          · exact hinterest.dropInterest c _ _ _ _

theorem afterReady (h : Exclusive s) (c : Nat) (key : RequestKey) (r : Nat) (ok : Bool) :
    Exclusive (s.afterReady c key r ok) := by
  unfold RequestDispatcher.afterReady
  split
  · exact h.of_same rfl rfl rfl rfl rfl
  · exact h.unregister c key r _

theorem ensureTopicReady (h : Exclusive s) (topic : Str) (i protocol : Nat) :
    Exclusive (s.ensureTopicReady topic i protocol).1 := by
  unfold RequestDispatcher.ensureTopicReady
  split
  · exact h
  · exact h.of_same rfl rfl rfl rfl rfl

theorem findInterest (h : Exclusive s) (topic : Str) : Exclusive (s.findInterest topic).1 ∧
    (s.findInterest topic).1.pending = s.pending := by
  unfold RequestDispatcher.findInterest
  split
  · exact ⟨h, rfl⟩
  · exact ⟨h.of_same rfl rfl rfl rfl rfl, rfl⟩

theorem enter (h : Exclusive s) (c : Nat) (key : RequestKey) : Exclusive (s.enter c key) := by
  unfold RequestDispatcher.enter
  split
  · exact h.finish c _
  · rename_i hfree
    split
    · exact h.finish c _
    · obtain ⟨hfound, hpending⟩ := h.findInterest key.1
      have hadded := hfound.add
        (show OrderedDict.get (s.findInterest key.1).1.pending key = none by
          rw [hpending]
          simpa using hfree) (s.findInterest key.1).2
      rename_i protocol _
      have hready := hadded.ensureTopicReady key.1 (s.findInterest key.1).2 protocol
      simp only
      split
      · exact hready.of_same rfl rfl rfl rfl rfl
      · exact hready.afterReady c key _ _

theorem resume (h : Exclusive s) {c : Nat} {call : RequestCall} {ok : Bool}
    (hresume : s.resume c call ok = some next) : Exclusive next := by
  unfold RequestDispatcher.resume at hresume
  split at hresume
  · split at hresume
    · cases hresume
    · cases hresume
      exact h.of_same rfl rfl rfl rfl rfl
  · split at hresume
    · cases hresume
    · cases hresume
      exact h.afterReady c _ _ _
  · split at hresume
    · cases hresume
    · cases hresume
      exact h.dropInterest c _ _ _ _
  · cases hresume
    exact h.finish c _
  · cases hresume

/-- **Step lemma.** -/
theorem step (h : Exclusive s) {a : Action} (hstep : s.step a = some next) : Exclusive next := by
  cases a with
  | bind protocol =>
      cases hstep
      exact h.bind protocol
  | register key =>
      cases hstep
      exact h.of_same rfl rfl rfl rfl rfl
  | acquire c =>
      obtain ⟨call, -, hcall⟩ := Option.bind_eq_some_iff.mp hstep
      obtain ⟨-, heq⟩ := Option.ite_none_right_eq_some.mp hcall
      cases heq
      have htaken : Exclusive { s with capacity := s.capacity - 1 } :=
        h.of_same rfl rfl rfl rfl rfl
      exact htaken.enter c call.key
  | resume c ok =>
      obtain ⟨call, -, hcall⟩ := Option.bind_eq_some_iff.mp hstep
      exact h.resume hcall
  | close c timeout =>
      obtain ⟨call, -, hcall⟩ := Option.bind_eq_some_iff.mp hstep
      unfold RequestDispatcher.close at hcall
      split at hcall
      · cases hcall
        refine Exclusive.unregister (h.modifyRequest (harmless_close timeout) ?_ _) c call.key _ none
        intro request hclaimed
        cases timeout with
        | false => exact hclaimed
        | true =>
            change (request.cancel).claimed = true
            unfold PendingRequest.cancel
            split <;> exact hclaimed
      · cases hcall
  | readyDone t ok =>
      cases hstep
      exact h.of_same rfl rfl rfl rfl rfl
  | restore topic i =>
      obtain ⟨protocol, -, rfl⟩ := Option.map_eq_some_iff.mp hstep
      split
      · exact h.ensureTopicReady topic i protocol
      · exact h
  | claim message =>
      cases hstep
      exact h.claim message
  | deliver i =>
      obtain ⟨response, hresponse, rfl⟩ := Option.map_eq_some_iff.mp hstep
      exact h.complete hresponse
  | cancelPending =>
      cases hstep
      exact h.cancelPending

end Exclusive

theorem Exclusive.start (maxPendingRequests : Nat) : Exclusive (start maxPendingRequests) where
  log := trivial
  keys := List.nodup_nil
  entries := fun _ _ h => by cases h
  registered := fun _ => ⟨Bool.noConfusion, fun h => absurd h List.not_mem_nil⟩
  responses := fun _ _ h => by cases h
  claims := fun _ h => by cases h
  made := fun _ _ h => by cases h
  completed := fun _ _ h => by cases h
  results := fun _ _ _ h => by cases h

/-- Between two claims of one request there was a `bind`. -/
theorem bound_between {later between earlier : List RequestEvent} {i j r : Nat}
    (h : History.Each Allowed (later ++ .claimed i r :: (between ++ .claimed j r :: earlier))) :
    .bound ∈ between := by
  have hsince : claimedSince r (between ++ .claimed j r :: earlier) = false := h.at.1
  clear h
  induction between with
  | nil =>
      have hclaimed : (decide (r = r) || claimedSince r earlier) = false := hsince
      simp at hclaimed
  | cons event rest ih =>
      cases event with
      | bound => exact List.mem_cons_self
      | claimed k other =>
          have hrest : (decide (other = r) ||
              claimedSince r (rest ++ .claimed j r :: earlier)) = false := hsince
          rw [Bool.or_eq_false_iff] at hrest
          exact List.mem_cons_of_mem _ (ih hrest.2)
      | registered other => exact List.mem_cons_of_mem _ (ih hsince)
      | unregistered other => exact List.mem_cons_of_mem _ (ih hsince)
      | completed k other => exact List.mem_cons_of_mem _ (ih hsince)

/-- **Responses are claimed exclusively, and only on the current connection.**  A future
has a message only from the one claim that completed it, with the topic and the
correlation data of its request.  A claim completes its request at most once, only if
it was made while the request was registered, and only before the next `bind` and
before the request is unregistered.  Every claim is made once, two claims of one
request are separated by a `bind`, and no two registered requests share a key. -/
theorem responses_exclusive (maxPendingRequests : Nat) (actions : List Action)
    (s : RequestDispatcher)
    (hrun : Transition.run step (start maxPendingRequests) actions = some s) :
    (∀ r request message, s.requests[r]? = some request → request.future = .result message →
        Answers message request.key ∧ ∃ i response, s.responses[i]? = some response ∧
          response.message = message ∧ .completed i r ∈ s.log) ∧
      (∀ later earlier i r, s.log = later ++ .completed i r :: earlier →
        Good i r earlier ∧ ∀ j, .completed j r ∉ earlier) ∧
      (∀ later earlier i r, s.log = later ++ .claimed i r :: earlier →
        ∀ other, .claimed i other ∉ earlier) ∧
      (∀ later between earlier i j r,
        s.log = later ++ .claimed i r :: (between ++ .claimed j r :: earlier) → .bound ∈ between) ∧
      ∀ r r' request request', isRegistered r s.log = true → isRegistered r' s.log = true →
        s.requests[r]? = some request → s.requests[r']? = some request' →
        request.key = request'.key → r = r' := by
  have h := Transition.invariant (fun _ _ _ h hstep => Exclusive.step h hstep)
    (Exclusive.start maxPendingRequests) hrun
  have hlog := h.log
  refine ⟨h.results, ?_, ?_, ?_, ?_⟩
  · intro later earlier i r heq
    rw [heq] at hlog
    exact hlog.at
  · intro later earlier i r heq
    rw [heq] at hlog
    exact hlog.at.2
  · intro later between earlier i j r heq
    rw [heq] at hlog
    exact bound_between hlog
  · intro r r' request request' hr hr' hrequest hrequest' hkey
    obtain ⟨key, hmem⟩ := Exclusive.mem_registered.mp ((h.registered r).mp hr)
    obtain ⟨key', hmem'⟩ := Exclusive.mem_registered.mp ((h.registered r').mp hr')
    obtain ⟨found, hfound, rfl⟩ := h.entries key r hmem
    obtain ⟨found', hfound', rfl⟩ := h.entries key' r' hmem'
    rw [hrequest] at hfound
    rw [hrequest'] at hfound'
    cases hfound
    cases hfound'
    have hget := OrderedDict.get_of_mem h.keys hmem
    rw [hkey, OrderedDict.get_of_mem h.keys hmem'] at hget
    exact (Option.some.inj hget).symm

/-- A response to the request of the run below. -/
def sampleResponse : Message :=
  { seq := 1, topic := str "r", payload := [], qos := .exactlyOnce, retain := false
    properties := some { correlationData := some [7] } }

/-- A claim of the first connection completes nothing after the second `bind`; a new claim
does. -/
theorem responses_exclusive_rebound :
    ∃ s, Transition.run step (start 1)
        [.bind 0, .register (str "r", [7]), .acquire 0, .readyDone 0 true, .resume 0 true,
          .claim sampleResponse, .bind 1, .deliver 0, .claim sampleResponse, .deliver 1] = some s ∧
      s.log = [.completed 1 0, .claimed 1 0, .bound, .claimed 0 0, .registered 0, .bound] ∧
      Good 1 0 [.claimed 1 0, .bound, .claimed 0 0, .registered 0, .bound] := by
  have hrun : ∃ s, Transition.run step (start 1)
      [.bind 0, .register (str "r", [7]), .acquire 0, .readyDone 0 true, .resume 0 true,
        .claim sampleResponse, .bind 1, .deliver 0, .claim sampleResponse, .deliver 1] = some s ∧
      s.log = [.completed 1 0, .claimed 1 0, .bound, .claimed 0 0, .registered 0, .bound] :=
    ⟨_, rfl, by decide⟩
  obtain ⟨s, hs, hlog⟩ := hrun
  exact ⟨s, hs, hlog, ((responses_exclusive 1 _ s hs).2.1 [] _ 1 0 hlog).1⟩

end Zmqtt
