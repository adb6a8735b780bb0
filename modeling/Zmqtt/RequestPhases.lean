import Zmqtt.RequestBooks
import Zmqtt.RequestClaims

/-!
# The steps of the request dispatcher

What a step keeps, beyond the books: a future that has a message keeps it, a task fails
only by its own end, and a call waits only for tasks that are there.  `Leaves` says where
`unregister` leaves its call, and when it leaves it with the error it was given.
-/

namespace Zmqtt

/-- The request of a call that is not closed. -/
def RequestPhase.request? : RequestPhase → Option Nat
  | .subscribing r _ => some r
  | .registered r => some r
  | _ => none

/-- The task of `add_response_observer` that a call waits for. -/
def RequestPhase.awaits? : RequestPhase → Option Nat
  | .subscribing _ ready => some ready
  | .settling _ ready _ => some ready
  | _ => none

/-- `unregister` finds that the topic has no other request and that the task of its
observer has failed. -/
def RequestDispatcher.observerFailed (s : RequestDispatcher) (key : RequestKey) (r : Nat) : Bool :=
  decide (OrderedDict.get s.pending key = some r) &&
    (OrderedDict.get s.topics key.1).elim false fun i =>
      decide ((s.interest i).refcount ≤ 1) &&
        decide ((s.interest i).ready.bind s.outcome = some false)

/-! ## What a step keeps -/

/-- Two steps of the requests are one. -/
theorem Follows.trans {old mid new : List PendingRequest} (h : Follows old mid)
    (h' : Follows mid new) : Follows old new where
  kept r request hrequest := by
    obtain ⟨request', hrequest', hkey', hfuture'⟩ := h.kept r request hrequest
    obtain ⟨request'', hrequest'', hkey'', hfuture''⟩ := h'.kept r request' hrequest'
    refine ⟨request'', hrequest'', hkey''.trans hkey', fun hdone => ?_⟩
    have hmid := hfuture' hdone
    exact (hfuture'' (hmid ▸ hdone)).trans hmid
  results r request'' message hrequest'' hresult := by
    obtain ⟨request', hrequest', hresult', hkey'⟩ :=
      h'.results r request'' message hrequest'' hresult
    obtain ⟨request, hrequest, hresult, hkey⟩ := h.results r request' message hrequest' hresult'
    exact ⟨request, hrequest, hresult, hkey.trans hkey'⟩

theorem Follows.refl (requests : List PendingRequest) : Follows requests requests where
  kept _ request hrequest := ⟨request, hrequest, rfl, fun _ => rfl⟩
  results _ request _ hrequest hresult := ⟨request, hrequest, hresult, rfl⟩

namespace RequestDispatcher

variable {s mid next : RequestDispatcher} {c : Nat} {call : RequestCall}

/-- Done futures stay, none gets a message, no task fails, and the interests hold no
tasks but old ones and those that are there. -/
structure Grows (s next : RequestDispatcher) : Prop where
  requests : Follows s.requests next.requests
  failed : ∀ t, next.outcome t = some false → s.outcome t = some false
  tasks : s.readyTasks.length ≤ next.readyTasks.length
  ready : ∀ interest ∈ next.interests, ∀ t, interest.ready = some t →
    (∃ old ∈ s.interests, old.ready = some t) ∨ t < next.readyTasks.length

/-- Every task that an interest holds or a call waits for is there. -/
structure TasksValid (s : RequestDispatcher) : Prop where
  interests : ∀ interest ∈ s.interests, ∀ t, interest.ready = some t → t < s.readyTasks.length
  calls : ∀ call ∈ s.calls, ∀ t, call.phase.awaits? = some t → t < s.readyTasks.length

/-- A call has closed its request, or never had one. -/
def isLeaving : RequestPhase → Bool
  | .settling _ _ _ => true
  | .removing _ => true
  | .returned => true
  | .raised _ => true
  | _ => false

namespace Grows

/-- Two steps of the dispatcher are one. -/
theorem trans (h : Grows s mid) (h' : Grows mid next) : Grows s next where
  requests := h.requests.trans h'.requests
  failed t ht := h.failed t (h'.failed t ht)
  tasks := Nat.le_trans h.tasks h'.tasks
  ready interest hinterest t ht := by
    rcases h'.ready interest hinterest t ht with ⟨mid, hmid, hready⟩ | hlt
    · rcases h.ready mid hmid t hready with hold | hlt
      · exact .inl hold
      · exact .inr (Nat.lt_of_lt_of_le hlt h'.tasks)
    · exact .inr hlt

/-- A step that changes nothing but the requests. -/
theorem of_requests (hrequests : Follows s.requests next.requests)
    (htasks : next.readyTasks = s.readyTasks) (hinterests : next.interests = s.interests) :
    Grows s next where
  requests := hrequests
  failed t ht := by
    unfold outcome at ht ⊢
    rwa [htasks] at ht
  tasks := Nat.le_of_eq (congrArg List.length htasks.symm)
  ready interest hinterest t ht := .inl ⟨interest, hinterests ▸ hinterest, ht⟩

/-- A step that changes none of this. -/
theorem of_same (hrequests : next.requests = s.requests) (htasks : next.readyTasks = s.readyTasks)
    (hinterests : next.interests = s.interests) : Grows s next :=
  of_requests (hrequests ▸ Follows.refl _) htasks hinterests

/-- Interests change, but not the tasks they hold. -/
theorem of_ready (hrequests : Follows s.requests next.requests)
    (htasks : next.readyTasks = s.readyTasks)
    (hready : ∀ interest ∈ next.interests, ∀ t, interest.ready = some t →
      ∃ old ∈ s.interests, old.ready = some t) : Grows s next := by
  have hsame : Grows s { next with interests := s.interests } := of_requests hrequests htasks rfl
  exact { hsame with ready := fun interest hinterest t ht => .inl (hready interest hinterest t ht) }

/-- A change of an interest outside its readiness task. -/
theorem mem_modify_ready {interests : List TopicInterest} {i : Nat}
    {f : TopicInterest → TopicInterest} (hf : ∀ interest, (f interest).ready = interest.ready)
    {interest : TopicInterest} (hmem : interest ∈ interests.modify i f) :
    ∃ old ∈ interests, old.ready = interest.ready := by
  obtain ⟨j, hj⟩ := List.getElem?_of_mem hmem
  rw [List.getElem?_modify] at hj
  obtain ⟨old, hold, rfl⟩ := Option.map_eq_some_iff.mp hj
  refine ⟨old, List.mem_of_getElem? hold, ?_⟩
  split
  · exact (hf old).symm
  · rfl

/-- The refcount of an interest changes. -/
theorem modifyInterest {f : TopicInterest → TopicInterest}
    (hf : ∀ interest, (f interest).ready = interest.ready) (i : Nat) :
    Grows s (s.modifyInterest i f) := by
  refine of_ready (Follows.refl _) rfl fun interest hinterest t ht => ?_
  obtain ⟨old, hold, hready⟩ := mem_modify_ready hf hinterest
  exact ⟨old, hold, hready.trans ht⟩

/-- A topic that is given up starts no task. -/
theorem dropInterest (c : Nat) (topic : Str) (i : Nat) (observerActive : Bool)
    (error : Option RequestError) : Grows s (s.dropInterest c topic i observerActive error) := by
  unfold RequestDispatcher.dropInterest
  dsimp only
  split
  · split <;> exact of_same rfl rfl rfl
  · exact of_same rfl rfl rfl

/-- `unregister` starts no task. -/
theorem unregister (c : Nat) (key : RequestKey) (r : Nat) (error : Option RequestError) :
    Grows s (s.unregister c key r error) := by
  have hremoved : Grows s (s.remove key r) :=
    of_requests (Follows.modify harmless_cancel s.requests r) rfl rfl
  unfold RequestDispatcher.unregister
  dsimp only
  split
  · exact of_same rfl rfl rfl
  · split
    · exact hremoved.trans (of_same rfl rfl rfl)
    · rename_i i _
      have hcounted : Grows s ((s.remove key r).modifyInterest i fun interest =>
          { interest with refcount := interest.refcount - 1 }) :=
        hremoved.trans (modifyInterest (f := fun interest =>
          { interest with refcount := interest.refcount - 1 }) (fun _ => rfl) i)
      split
      · exact hcounted.trans (of_same rfl rfl rfl)
      · split
        · exact hcounted.trans (dropInterest ..)
        · split
          · exact hcounted.trans (of_same rfl rfl rfl)
          · exact hcounted.trans (dropInterest ..)
          · exact hcounted.trans (dropInterest ..)

theorem afterReady (c : Nat) (key : RequestKey) (r : Nat) (ok : Bool) :
    Grows s (s.afterReady c key r ok) := by
  unfold RequestDispatcher.afterReady
  split
  · exact of_same rfl rfl rfl
  · exact unregister ..

/-- `_ensure_topic_ready` starts at most one task. -/
theorem ensureTopicReady (topic : Str) (i protocol : Nat) :
    Grows s (s.ensureTopicReady topic i protocol).1 := by
  unfold RequestDispatcher.ensureTopicReady
  split
  · exact of_same rfl rfl rfl
  · refine ⟨Follows.refl _, fun t ht => ?_, ?_, fun interest hinterest t ht => ?_⟩
    · have hnew :
          ((s.readyTasks ++ [ReadyTask.mk topic protocol none])[t]?).bind ReadyTask.outcome =
            some false := ht
      unfold outcome
      rw [List.getElem?_append] at hnew
      split at hnew
      · exact hnew
      · obtain ⟨task, htask, hfailed⟩ := Option.bind_eq_some_iff.mp hnew
        rw [List.mem_singleton.mp (List.mem_of_getElem? htask)] at hfailed
        cases hfailed
    · show s.readyTasks.length ≤ (s.readyTasks ++ [ReadyTask.mk topic protocol none]).length
      simp
    · -- the interest holds the new task
      have hlength : (s.readyTasks ++ [ReadyTask.mk topic protocol none]).length =
          s.readyTasks.length + 1 := List.length_append
      obtain ⟨j, hj⟩ := List.getElem?_of_mem hinterest
      change (s.interests.modify i _)[j]? = _ at hj
      rw [List.getElem?_modify] at hj
      obtain ⟨old, hold, rfl⟩ := Option.map_eq_some_iff.mp hj
      split at ht
      · cases ht
        exact .inr (hlength ▸ Nat.lt_succ_self _)
      · exact .inl ⟨old, List.mem_of_getElem? hold, ht⟩

theorem findInterest (topic : Str) : Grows s (s.findInterest topic).1 := by
  unfold RequestDispatcher.findInterest
  split
  · exact of_same rfl rfl rfl
  · refine of_ready (Follows.refl _) rfl fun interest hinterest t ht => ?_
    rcases List.mem_append.mp hinterest with hold | hnew
    · exact ⟨interest, hold, ht⟩
    · rw [List.mem_singleton.mp hnew] at ht
      cases ht

theorem add (key : RequestKey) (i : Nat) : Grows s (s.add key i) := by
  refine of_ready (Follows.append _ rfl) rfl fun interest hinterest t ht => ?_
  obtain ⟨old, hold, hready⟩ := mem_modify_ready
    (f := fun interest => { interest with refcount := interest.refcount + 1 }) (fun _ => rfl)
    hinterest
  exact ⟨old, hold, hready.trans ht⟩

theorem enter (c : Nat) (key : RequestKey) : Grows s (s.enter c key) := by
  unfold RequestDispatcher.enter
  dsimp only
  split
  · exact of_same rfl rfl rfl
  · split
    · exact of_same rfl rfl rfl
    · rename_i protocol _
      have hfound := findInterest (s := s) key.1
      have hadded := hfound.trans (add key (s.findInterest key.1).2)
      have hready := hadded.trans (ensureTopicReady key.1 (s.findInterest key.1).2 protocol)
      split
      · exact hready.trans (of_same rfl rfl rfl)
      · exact hready.trans (afterReady ..)

/-- A call goes on. -/
theorem resume {ok : Bool} (hresume : s.resume c call ok = some next) : Grows s next := by
  unfold RequestDispatcher.resume at hresume
  split at hresume
  · split at hresume
    · cases hresume
    · cases hresume
      exact of_same rfl rfl rfl
  · split at hresume
    · cases hresume
    · cases hresume
      exact afterReady ..
  · split at hresume
    · cases hresume
    · cases hresume
      exact dropInterest ..
  · cases hresume
    exact of_same rfl rfl rfl
  · cases hresume

/-- A call closes its request. -/
theorem close {timeout : Bool} (hclose : s.close c call timeout = some next) : Grows s next := by
  unfold RequestDispatcher.close at hclose
  split at hclose
  · rename_i r _
    cases hclose
    have hclosed : Grows s (s.modifyRequest r fun request => request.close timeout) :=
      of_requests (Follows.modify (harmless_close timeout) s.requests r) rfl rfl
    exact hclosed.trans (unregister ..)
  · cases hclose

/-- A reply is claimed by its request. -/
theorem claim (message : Message) : Grows s (s.claim message) := by
  unfold RequestDispatcher.claim
  dsimp only
  split
  · exact of_same rfl rfl rfl
  · split
    · exact of_same rfl rfl rfl
    · split
      · exact of_same rfl rfl rfl
      · exact of_requests (Follows.modify (harmless_setClaimed true) s.requests _) rfl rfl

/-- Every step but the end of a task and the delivery of a response. -/
theorem step {a : Action} (hready : ∀ t ok, a ≠ .readyDone t ok) (hdeliver : ∀ i, a ≠ .deliver i)
    (hstep : s.step a = some next) : Grows s next := by
  cases a with
  | bind protocol =>
      cases hstep
      refine of_ready (Follows.mapIdx (harmless_setClaimed false) s.requests s.registered) rfl
        fun interest hinterest t ht => ?_
      obtain ⟨i, hi, rfl⟩ := List.mem_mapIdx.mp hinterest
      split at ht
      · cases ht
      · exact ⟨_, List.getElem_mem hi, ht⟩
  | register key =>
      cases hstep
      exact of_same rfl rfl rfl
  | acquire c =>
      obtain ⟨call, -, hrest⟩ := Option.bind_eq_some_iff.mp hstep
      obtain ⟨-, heq⟩ := Option.ite_none_right_eq_some.mp hrest
      cases heq
      have htaken : Grows s { s with capacity := s.capacity - 1 } := of_same rfl rfl rfl
      exact htaken.trans (enter ..)
  | resume c ok =>
      obtain ⟨call, -, hrest⟩ := Option.bind_eq_some_iff.mp hstep
      exact resume hrest
  | close c timeout =>
      obtain ⟨call, -, hrest⟩ := Option.bind_eq_some_iff.mp hstep
      exact close hrest
  | readyDone t ok => exact absurd rfl (hready t ok)
  | restore topic i =>
      obtain ⟨protocol, -, rfl⟩ := Option.map_eq_some_iff.mp hstep
      split
      · exact ensureTopicReady ..
      · exact of_same rfl rfl rfl
  | claim message =>
      cases hstep
      exact claim message
  | deliver i => exact absurd rfl (hdeliver i)
  | cancelPending =>
      cases hstep
      exact of_requests (Follows.mapIdx harmless_fail s.requests s.registered) rfl rfl

end Grows

/-! ## The phase a call goes to -/

/-- A call that returns or raises is done with its request. -/
theorem finished_isLeaving (error : Option RequestError) :
    isLeaving (error.elim .returned .raised) = true ∧
      RequestPhase.error? (error.elim .returned .raised) = error ∧
      RequestPhase.awaits? (error.elim .returned .raised) = none := by
  cases error <;> exact ⟨rfl, rfl, rfl⟩

/-- The phases after `close`: with the error given, and waiting for no task that has
ended. -/
structure Leaves (c : Nat) (error : Option RequestError) (s next : RequestDispatcher)
    (phase : RequestPhase) : Prop where
  calls : next.calls = (s.setPhase c phase).calls
  leaving : isLeaving phase = true
  error : phase.error? = error
  awaits : ∀ t, phase.awaits? = some t → s.outcome t = none ∧
    ∃ interest ∈ s.interests, interest.ready = some t

/-- A call ends. -/
theorem leaves_finish {error : Option RequestError}
    (hcalls : next.calls = (s.finish c error).calls) :
    Leaves c error s next (error.elim .returned .raised) where
  calls := hcalls
  leaving := (finished_isLeaving error).1
  error := (finished_isLeaving error).2.1
  awaits t ht := by
    rw [(finished_isLeaving error).2.2] at ht
    cases ht

theorem leaves_dropInterest (c : Nat) (topic : Str) (i : Nat) (observerActive : Bool)
    (error : Option RequestError) :
    ∃ phase, Leaves c error s (s.dropInterest c topic i observerActive error) phase ∧
      phase.awaits? = none := by
  have hfinished := finished_isLeaving error
  unfold dropInterest
  dsimp only
  split
  · split
    · refine ⟨.removing error, ⟨rfl, rfl, rfl, fun t ht => ?_⟩, rfl⟩
      cases ht
    · exact ⟨_, leaves_finish rfl, hfinished.2.2⟩
  · exact ⟨_, leaves_finish rfl, hfinished.2.2⟩

/-- The task of an interest is that of one in the list. -/
theorem ready_mem {i t : Nat} (h : (s.interest i).ready = some t) :
    ∃ interest ∈ s.interests, interest.ready = some t := by
  unfold interest at h
  cases hi : s.interests[i]? with
  | none =>
      rw [hi] at h
      cases h
  | some found =>
      rw [hi] at h
      exact ⟨found, List.mem_of_getElem? hi, h⟩

/-- One request fewer on an interest that is there. -/
theorem interest_decremented {i : Nat} (hi : i < s.interests.length) :
    (s.modifyInterest i fun interest =>
        { interest with refcount := interest.refcount - 1 }).interest i =
      { s.interest i with refcount := (s.interest i).refcount - 1 } := by
  unfold interest modifyInterest
  simp [hi]

theorem leaves_unregister (h : Interests none s) (c : Nat) (key : RequestKey) (r : Nat)
    (error : Option RequestError) :
    ∃ phase error', Leaves c error' s (s.unregister c key r error) phase ∧
      (s.observerFailed key r = false → error' = error) := by
  unfold unregister
  split
  · exact ⟨_, error, leaves_finish rfl, fun _ => rfl⟩
  · rename_i hget
    have hget : OrderedDict.get s.pending key = some r := not_not.mp hget
    have hlisted := h.listed key ((OrderedDict.mem_keys_iff _ _).mpr ⟨r, hget⟩)
    obtain ⟨i, hi⟩ := (OrderedDict.mem_keys_iff _ _).mp hlisted
    have htopics : (s.remove key r).topics = s.topics := rfl
    have hlength : i < (s.remove key r).interests.length := lt_of_refcount (h.counted _ _ hi)
    have hinterest := interest_decremented hlength
    simp only [htopics, hi]
    generalize hleft : (s.remove key r).modifyInterest i _ = left at hinterest ⊢
    have hcalls : left.calls = s.calls := by rw [← hleft]; rfl
    have houtcome : left.outcome = s.outcome := by rw [← hleft]; rfl
    have hready : (left.interest i).ready = (s.interest i).ready := by rw [hinterest]; rfl
    have hcount : (left.interest i).refcount = (s.interest i).refcount - 1 := by rw [hinterest]; rfl
    have hback : ∀ {error next phase}, Leaves c error left next phase → phase.awaits? = none →
        Leaves c error s next phase := by
      intro error next phase hleaves hnone
      refine { hleaves with calls := hleaves.calls.trans ?_, awaits := fun t ht => ?_ }
      · unfold setPhase
        rw [hcalls]
      · rw [hnone] at ht
        cases ht
    have hdrop : ∀ observerActive error, ∃ phase,
        Leaves c error s (left.dropInterest c key.1 i observerActive error) phase := by
      intro observerActive error
      obtain ⟨phase, hleaves, hnone⟩ :=
        leaves_dropInterest (s := left) c key.1 i observerActive error
      exact ⟨phase, hback hleaves hnone⟩
    split
    · refine ⟨_, error, hback (leaves_finish rfl) ?_, fun _ => rfl⟩
      exact (finished_isLeaving error).2.2
    · rename_i hlast
      split
      · obtain ⟨phase, hleaves⟩ := hdrop false error
        exact ⟨phase, error, hleaves, fun _ => rfl⟩
      · rename_i ready hsome
        rw [hready] at hsome
        split
        · rename_i hnone
          rw [houtcome] at hnone
          refine ⟨.settling i ready error, error, ⟨?_, rfl, rfl, ?_⟩, fun _ => rfl⟩
          · unfold setPhase
            rw [hcalls]
          · intro t ht
            cases ht
            exact ⟨hnone, ready_mem hsome⟩
        · obtain ⟨phase, hleaves⟩ := hdrop true error
          exact ⟨phase, error, hleaves, fun _ => rfl⟩
        · rename_i hfailed
          rw [houtcome] at hfailed
          obtain ⟨phase, hleaves⟩ := hdrop false (some .interrupted)
          refine ⟨phase, _, hleaves, fun hobserver => ?_⟩
          have hfound : s.observerFailed key r = true := by
            unfold observerFailed
            simp only [hget, hi, hsome, Option.elim_some, Option.bind_some, hfailed]
            simp
            omega
          rw [hobserver] at hfound
          cases hfound

/-- A call goes to a phase in which it waits for a task that is there, if for any. -/
def Goes (c : Nat) (s next : RequestDispatcher) : Prop :=
  ∃ phase : RequestPhase, next.calls = (s.setPhase c phase).calls ∧
    ∀ t, phase.awaits? = some t → t < next.readyTasks.length

namespace TasksValid

theorem goes (h : TasksValid s) {phase : RequestPhase} {error : Option RequestError}
    (hleaves : Leaves c error s next phase) (hgrows : Grows s next) : Goes c s next := by
  refine ⟨phase, hleaves.calls, fun t ht => ?_⟩
  obtain ⟨-, interest, hinterest, hready⟩ := hleaves.awaits t ht
  exact Nat.lt_of_lt_of_le (h.interests interest hinterest t hready) hgrows.tasks

theorem ready_lt (h : TasksValid s) (hgrows : Grows s next) :
    ∀ interest ∈ next.interests, ∀ t, interest.ready = some t → t < next.readyTasks.length := by
  intro interest hinterest t ht
  rcases hgrows.ready interest hinterest t ht with ⟨old, hold, hready⟩ | hlt
  · exact Nat.lt_of_lt_of_le (h.interests old hold t hready) hgrows.tasks
  · exact hlt

/-- A step that leaves the calls alone. -/
theorem of_same_calls (h : TasksValid s) (hgrows : Grows s next) (hcalls : next.calls = s.calls) :
    TasksValid next where
  interests := h.ready_lt hgrows
  calls call hcall t ht := by
    rw [hcalls] at hcall
    exact Nat.lt_of_lt_of_le (h.calls call hcall t ht) hgrows.tasks

/-- A step of one call. -/
theorem of_goes (h : TasksValid s) (hgrows : Grows s next) (hgoes : Goes c s next) :
    TasksValid next where
  interests := h.ready_lt hgrows
  calls call hcall t ht := by
    obtain ⟨phase, hcalls, hphase⟩ := hgoes
    rw [hcalls] at hcall
    obtain ⟨c', hc'⟩ := List.getElem?_of_mem hcall
    unfold setPhase at hc'
    rw [List.getElem?_modify] at hc'
    obtain ⟨old, hold, rfl⟩ := Option.map_eq_some_iff.mp hc'
    split at ht
    · exact hphase t ht
    · exact Nat.lt_of_lt_of_le (h.calls old (List.mem_of_getElem? hold) t ht) hgrows.tasks

theorem goes_unregister (h : TasksValid s) (hinterests : Interests none s) (c : Nat)
    (key : RequestKey) (r : Nat) (error : Option RequestError) :
    Goes c s (s.unregister c key r error) := by
  obtain ⟨phase, error', hleaves, -⟩ := leaves_unregister hinterests c key r error
  exact h.goes hleaves (Grows.unregister ..)

theorem goes_afterReady (h : TasksValid s) (hinterests : Interests none s) (c : Nat)
    (key : RequestKey) (r : Nat) (ok : Bool) : Goes c s (s.afterReady c key r ok) := by
  unfold afterReady
  split
  · exact ⟨.registered r, rfl, fun t ht => by cases ht⟩
  · exact h.goes_unregister hinterests c key r _

/-- The task that `_ensure_topic_ready` returns is there. -/
theorem ensureTopicReady_lt (h : TasksValid s) (topic : Str) (i protocol : Nat) :
    (s.ensureTopicReady topic i protocol).2 <
      (s.ensureTopicReady topic i protocol).1.readyTasks.length := by
  unfold ensureTopicReady
  split
  · rename_i ready hready
    obtain ⟨interest, hinterest, hsome⟩ := ready_mem hready
    exact h.interests interest hinterest ready hsome
  · show s.readyTasks.length < (s.readyTasks ++ [ReadyTask.mk topic protocol none]).length
    simp

theorem goes_enter (h : TasksValid s) (hinterests : Interests none s) (c : Nat)
    (key : RequestKey) : Goes c s (s.enter c key) := by
  have hfinish : ∀ error : RequestError, Goes c s (s.release.finish c (some error)) :=
    fun error => ⟨.raised error, rfl, fun t ht => by cases ht⟩
  unfold enter
  split
  · exact hfinish _
  · rename_i hused
    have hfree : OrderedDict.get s.pending key = none := by simpa using hused
    split
    · exact hfinish _
    · rename_i protocol _
      obtain ⟨hfound, htopic⟩ := hinterests.findInterest key.1
      obtain ⟨hfoundcalls, -, hfoundpending, -⟩ := same_findInterest (s := s) key.1
      have hvalid := h.of_same_calls (Grows.findInterest key.1) hfoundcalls
      generalize s.findInterest key.1 = found at *
      have hadded := hfound.add (hfoundpending ▸ hfree) htopic
      have haddedvalid := hvalid.of_same_calls (Grows.add key found.2) rfl
      have hready := hadded.ensureTopicReady key.1 found.2 protocol
      have hsame := same_ensureTopicReady (s := found.1.add key found.2) key.1 found.2 protocol
      have hlt := haddedvalid.ensureTopicReady_lt key.1 found.2 protocol
      have hreadyvalid := haddedvalid.of_same_calls (Grows.ensureTopicReady key.1 found.2 protocol)
        hsame.1
      dsimp only
      generalize (found.1.add key found.2).ensureTopicReady key.1 found.2 protocol = awaited at *
      have hcalls : awaited.1.calls = s.calls := hsame.1.trans hfoundcalls
      have hback : ∀ {next}, Goes c awaited.1 next → Goes c s next := by
        rintro next ⟨phase, hnext, hphase⟩
        refine ⟨phase, hnext.trans ?_, hphase⟩
        unfold setPhase
        rw [hcalls]
      apply hback
      split
      · refine ⟨.subscribing s.requests.length awaited.2, rfl, fun t ht => ?_⟩
        cases ht
        exact hlt
      · exact hreadyvalid.goes_afterReady hready c key _ _

theorem goes_dropInterest (h : TasksValid s) (c : Nat) (topic : Str) (i : Nat)
    (observerActive : Bool) (error : Option RequestError) :
    Goes c s (s.dropInterest c topic i observerActive error) := by
  obtain ⟨phase, hleaves, -⟩ := leaves_dropInterest (s := s) c topic i observerActive error
  exact h.goes hleaves (Grows.dropInterest ..)

theorem goes_resume (h : TasksValid s) (hinterests : Interests none s) {ok : Bool}
    (hresume : s.resume c call ok = some next) : Goes c s next := by
  have hfinish : ∀ left : RequestDispatcher, left.calls = s.calls → ∀ error,
      Goes c s (left.finish c error) := by
    intro left hleft error
    refine ⟨error.elim .returned .raised, ?_, fun t ht => ?_⟩
    · unfold finish setPhase
      rw [hleft]
    · rw [(finished_isLeaving error).2.2] at ht
      cases ht
  unfold resume at hresume
  split at hresume
  · split at hresume
    · cases hresume
    · cases hresume
      exact hfinish s rfl _
  · split at hresume
    · cases hresume
    · cases hresume
      exact h.goes_afterReady hinterests ..
  · split at hresume
    · cases hresume
    · cases hresume
      exact h.goes_dropInterest ..
  · cases hresume
    exact hfinish s.release rfl _
  · cases hresume

theorem goes_close (h : TasksValid s) (hinterests : Interests none s) {timeout : Bool}
    (hclose : s.close c call timeout = some next) : Goes c s next := by
  unfold close at hclose
  split at hclose
  · rename_i r _
    cases hclose
    have hclosed : Grows s (s.modifyRequest r fun request => request.close timeout) :=
      Grows.of_requests (Follows.modify (harmless_close timeout) s.requests r) rfl rfl
    have hmodified : Interests none (s.modifyRequest r fun request => request.close timeout) :=
      hinterests.of_same rfl rfl rfl (fun _ => rfl) rfl
    exact (h.of_same_calls hclosed rfl).goes_unregister hmodified c call.key r none
  · cases hclose

/-- A change of tasks or responses only. -/
theorem of_outcomes (h : TasksValid s) (hinterests : next.interests = s.interests)
    (hcalls : next.calls = s.calls) (hlength : next.readyTasks.length = s.readyTasks.length) :
    TasksValid next where
  interests := by
    rw [hinterests, hlength]
    exact h.interests
  calls := by
    rw [hcalls, hlength]
    exact h.calls

/-- A reply changes no call. -/
theorem same_complete (i : Nat) (response : ClaimedResponse) :
    (s.complete i response).interests = s.interests ∧ (s.complete i response).calls = s.calls ∧
      (s.complete i response).readyTasks = s.readyTasks := by
  unfold complete
  split <;> exact ⟨rfl, rfl, rfl⟩

/-- **Step lemma.** -/
theorem step (h : TasksValid s) {maxPendingRequests : Nat}
    (hbalanced : Balanced maxPendingRequests s) {a : Action} (hstep : s.step a = some next) :
    TasksValid next := by
  have hinterests := hbalanced.interests
  cases a with
  | bind protocol =>
      cases hstep
      exact h.of_same_calls (Grows.step (a := .bind protocol) (by simp) (by simp) rfl) rfl
  | register key =>
      cases hstep
      refine ⟨h.interests, fun call hcall t ht => ?_⟩
      rcases List.mem_append.mp hcall with hold | hnew
      · exact h.calls call hold t ht
      · rw [List.mem_singleton.mp hnew] at ht
        cases ht
  | acquire c =>
      obtain ⟨call, -, hrest⟩ := Option.bind_eq_some_iff.mp hstep
      obtain ⟨-, heq⟩ := Option.ite_none_right_eq_some.mp hrest
      cases heq
      have htaken : TasksValid { s with capacity := s.capacity - 1 } := ⟨h.interests, h.calls⟩
      have hinterests' : Interests none { s with capacity := s.capacity - 1 } :=
        hinterests.of_same rfl rfl rfl (fun _ => rfl) rfl
      exact htaken.of_goes (Grows.enter c call.key) (htaken.goes_enter hinterests' c call.key)
  | resume c ok =>
      obtain ⟨call, -, hrest⟩ := Option.bind_eq_some_iff.mp hstep
      exact h.of_goes (Grows.resume hrest) (h.goes_resume hinterests hrest)
  | close c timeout =>
      obtain ⟨call, -, hrest⟩ := Option.bind_eq_some_iff.mp hstep
      exact h.of_goes (Grows.close hrest) (h.goes_close hinterests hrest)
  | readyDone t ok =>
      cases hstep
      exact h.of_outcomes rfl rfl (List.length_modify ..)
  | restore topic i =>
      obtain ⟨protocol, -, rfl⟩ := Option.map_eq_some_iff.mp hstep
      split
      · exact h.of_same_calls (Grows.ensureTopicReady topic i protocol)
          (same_ensureTopicReady topic i protocol).1
      · exact h
  | claim message =>
      cases hstep
      exact h.of_same_calls (Grows.claim message) (hbalanced.claim message).2.1
  | deliver i =>
      obtain ⟨response, -, rfl⟩ := Option.map_eq_some_iff.mp hstep
      obtain ⟨hsame, hcalls, htasks⟩ := same_complete (s := s) i response
      exact h.of_outcomes hsame hcalls (congrArg List.length htasks)
  | cancelPending =>
      cases hstep
      exact h.of_same_calls (Grows.step (a := .cancelPending) (by simp) (by simp) rfl) rfl

end TasksValid

/-- A future that has a message keeps it. -/
theorem result_kept {a : Action} (hstep : s.step a = some next) {r : Nat} {request : PendingRequest}
    (hrequest : s.requests[r]? = some request) {message : Message}
    (hresult : request.future = .result message) :
    ∃ request', next.requests[r]? = some request' ∧ request'.future = .result message := by
  have hdone : request.future ≠ .waiting := by
    rw [hresult]
    exact fun heq => by cases heq
  by_cases hready : ∀ t ok, a ≠ .readyDone t ok
  · by_cases hdeliver : ∀ i, a ≠ .deliver i
    · obtain ⟨request', hrequest', -, hkept⟩ :=
        (Grows.step hready hdeliver hstep).requests.kept r request hrequest
      exact ⟨request', hrequest', (hkept hdone).trans hresult⟩
    · push Not at hdeliver
      obtain ⟨i, rfl⟩ := hdeliver
      obtain ⟨response, -, rfl⟩ := Option.map_eq_some_iff.mp hstep
      unfold complete
      split
      · rename_i hcomplete
        -- the delivery is to another request, whose future was waiting
        have hother : response.request ≠ r := by
          rintro rfl
          have hwaiting := hcomplete.2.2
          rw [hrequest] at hwaiting
          exact hdone (of_decide_eq_true hwaiting)
        refine ⟨request, ?_, hresult⟩
        show (s.requests.modify response.request _)[r]? = some request
        rw [List.getElem?_modify_ne _ _ hother]
        exact hrequest
      · exact ⟨request, hrequest, hresult⟩
  · push Not at hready
    obtain ⟨t, ok, rfl⟩ := hready
    cases hstep
    exact ⟨request, hrequest, hresult⟩

/-- A task fails only by its own end. -/
theorem failed_before {a : Action} (hstep : s.step a = some next) {t : Nat}
    (hfailed : next.outcome t = some false) :
    s.outcome t = some false ∨ a = .readyDone t false := by
  by_cases hready : ∀ t ok, a ≠ .readyDone t ok
  · by_cases hdeliver : ∀ i, a ≠ .deliver i
    · exact .inl ((Grows.step hready hdeliver hstep).failed t hfailed)
    · push Not at hdeliver
      obtain ⟨i, rfl⟩ := hdeliver
      obtain ⟨response, -, rfl⟩ := Option.map_eq_some_iff.mp hstep
      unfold outcome at hfailed ⊢
      rw [(TasksValid.same_complete i response).2.2] at hfailed
      exact .inl hfailed
  · push Not at hready
    obtain ⟨t', ok, rfl⟩ := hready
    cases hstep
    change ((s.readyTasks.modify t' _)[t]?).bind ReadyTask.outcome = some false at hfailed
    unfold outcome
    rw [List.getElem?_modify] at hfailed
    obtain ⟨task', htask', houtcome⟩ := Option.bind_eq_some_iff.mp hfailed
    obtain ⟨task, htask, rfl⟩ := Option.map_eq_some_iff.mp htask'
    rw [htask]
    split at houtcome
    · rename_i heq
      subst heq
      cases hold : task.outcome with
      | none =>
          rw [hold] at houtcome
          obtain rfl : ok = false := by simpa using houtcome
          exact .inr rfl
      | some old =>
          rw [hold] at houtcome
          obtain rfl : old = false := by simpa using houtcome
          exact .inl hold
    · exact .inl houtcome

end RequestDispatcher

end Zmqtt
