import Zmqtt.RequestDispatcher
import Zmqtt.TaskList
import Zmqtt.Transition

/-!
# The books of the request dispatcher

A unit of the semaphore is free, or held by a request of `_pending`, or held by an
`unregister` that has removed its request and waits for the observer of the topic.  A
topic of `_topics` has requests, or an `unregister` that will look at it once more.

`RequestAdmission` adds to the dispatcher which waiting calls the semaphore has woken:
such a call has its unit and has not run yet.
-/

namespace Zmqtt

/-- `unregister` has removed the request of the call and has not returned. -/
def RequestPhase.isUnregistering : RequestPhase → Bool
  | .settling _ _ _ => true
  | .removing _ => true
  | _ => false

/-- The call is inside `register` or `close`. -/
def RequestPhase.inProgress : RequestPhase → Bool
  | .acquiring => true
  | .subscribing _ _ => true
  | .settling _ _ _ => true
  | .removing _ => true
  | _ => false

/-- The error the call raised, or will raise. -/
def RequestPhase.error? : RequestPhase → Option RequestError
  | .settling _ _ error => error
  | .removing error => error
  | .raised error => some error
  | _ => none

namespace RequestDispatcher

/-- The number of `unregister` calls that have removed their request and not returned. -/
def unregistering (s : RequestDispatcher) : Nat :=
  s.calls.countP fun call => call.phase.isUnregistering

/-- The number of pending requests on a topic. -/
def onTopic (s : RequestDispatcher) (topic : Str) : Nat :=
  s.pending.countP fun item => decide (item.1.1 = topic)

/-- Every unit of the semaphore. -/
def permits (s : RequestDispatcher) : Nat := s.capacity + s.pending.length + s.unregistering

/-- The refcount of an interest, if there is such an interest. -/
def refcount? (s : RequestDispatcher) (i : Nat) : Option Int :=
  s.interests[i]?.map TopicInterest.refcount

/-- A call waits in `unregister` for the observer of an interest. -/
def Settles (s : RequestDispatcher) (c i : Nat) : Prop :=
  ∃ call ready error, s.calls[c]? = some call ∧ call.phase = .settling i ready error

/-- Pending requests and interests agree.  An interest without requests has a call that
settles it, unless it is the one that the running call deals with. -/
structure Interests (exempt : Option Nat) (s : RequestDispatcher) : Prop where
  nodup : (OrderedDict.keys s.pending).Nodup
  listed : ∀ key ∈ OrderedDict.keys s.pending, key.1 ∈ OrderedDict.keys s.topics
  counted : ∀ topic i, OrderedDict.get s.topics topic = some i →
    s.refcount? i = some (s.onTopic topic : Int)
  single : ∀ topic topic' i, OrderedDict.get s.topics topic = some i →
    OrderedDict.get s.topics topic' = some i → topic = topic'
  settled : ∀ (c : Nat) (call : RequestCall) i ready error, s.calls[c]? = some call →
    call.phase = .settling i ready error →
      i < s.interests.length ∧ ∀ topic, OrderedDict.get s.topics topic = some i → topic = call.key.1
  needed : ∀ topic i, OrderedDict.get s.topics topic = some i → s.onTopic topic = 0 →
    some i ≠ exempt → ∃ c, s.Settles c i

variable {s next : RequestDispatcher} {c i : Nat} {call : RequestCall} {exempt : Option Nat}

/-! ## Counting -/

/-- A topic without a request. -/
theorem onTopic_eq_zero {topic : Str} :
    s.onTopic topic = 0 ↔ ∀ key ∈ OrderedDict.keys s.pending, key.1 ≠ topic := by
  unfold onTopic OrderedDict.keys
  rw [List.countP_eq_zero]
  simp

theorem interest_refcount {n : Int} (h : s.refcount? i = some n) : (s.interest i).refcount = n := by
  obtain ⟨found, hfound, rfl⟩ := Option.map_eq_some_iff.mp h
  simp [interest, hfound]

theorem lt_of_refcount {n : Int} (h : s.refcount? i = some n) : i < s.interests.length := by
  obtain ⟨found, hfound, -⟩ := Option.map_eq_some_iff.mp h
  exact (List.getElem?_eq_some_iff.mp hfound).1

/-- The count of one interest changes. -/
theorem refcount_modifyInterest (f : TopicInterest → TopicInterest) (g : Int → Int)
    (hf : ∀ interest, (f interest).refcount = g interest.refcount) (j : Nat) :
    (s.modifyInterest i f).refcount? j =
      if i = j then (s.refcount? j).map g else s.refcount? j := by
  unfold refcount? modifyInterest
  simp only [List.getElem?_modify]
  by_cases hij : i = j
  · cases s.interests[j]? <;> simp [hij, hf]
  · cases s.interests[j]? <;> simp [hij]

/-- A call enters or leaves `unregister`. -/
theorem unregistering_setPhase (hcall : s.calls[c]? = some call) (phase : RequestPhase) :
    (s.setPhase c phase).unregistering + (if call.phase.isUnregistering then 1 else 0) =
      s.unregistering + (if phase.isUnregistering then 1 else 0) := by
  unfold unregistering setPhase
  exact TaskList.countP_modify (p := fun call : RequestCall => call.phase.isUnregistering) hcall

/-- The permits follow the phase of a call. -/
theorem permits_setPhase (hcall : s.calls[c]? = some call) (phase : RequestPhase) :
    (s.setPhase c phase).permits + (if call.phase.isUnregistering then 1 else 0) =
      s.permits + (if phase.isUnregistering then 1 else 0) := by
  have hcount := unregistering_setPhase hcall phase
  unfold permits
  show s.capacity + s.pending.length + _ + _ = _
  omega

/-- A call that ends holds no permit. -/
theorem permits_finish (hcall : s.calls[c]? = some call) (error : Option RequestError) :
    (s.finish c error).permits + (if call.phase.isUnregistering then 1 else 0) = s.permits := by
  have hcount := permits_setPhase hcall (error.elim .returned .raised)
  have hdone : (error.elim RequestPhase.returned RequestPhase.raised).isUnregistering = false := by
    cases error <;> rfl
  rw [hdone] at hcount
  exact hcount

theorem permits_release_finish (hcall : s.calls[c]? = some call) (error : Option RequestError) :
    (s.release.finish c error).permits + (if call.phase.isUnregistering then 1 else 0) =
      s.permits + 1 := by
  have hcount := permits_finish (s := s.release) hcall error
  rw [hcount]
  show s.capacity + 1 + s.pending.length + s.unregistering = _
  unfold permits
  omega

/-- A request that is removed gives its permit to `unregister`. -/
theorem permits_remove (h : (OrderedDict.keys s.pending).Nodup) {key : RequestKey} {r : Nat}
    (hget : OrderedDict.get s.pending key = some r) : (s.remove key r).permits + 1 = s.permits := by
  have hlength := (OrderedDict.perm_cons_pop h hget).length_eq
  rw [List.length_cons] at hlength
  show s.capacity + (OrderedDict.pop s.pending key).length + s.unregistering + 1 =
    s.capacity + s.pending.length + s.unregistering
  omega

/-- The requests of a topic after one is removed. -/
theorem onTopic_pop (h : (OrderedDict.keys s.pending).Nodup) {key : RequestKey} {r : Nat}
    (hget : OrderedDict.get s.pending key = some r) (topic : Str) :
    (s.remove key r).onTopic topic + (if key.1 = topic then 1 else 0) = s.onTopic topic := by
  unfold onTopic
  rw [(OrderedDict.perm_cons_pop h hget).countP_eq]
  simp [remove, emit, modifyRequest, List.countP_cons]

/-- The requests of a topic after one is added. -/
theorem onTopic_add {key : RequestKey} (hget : OrderedDict.get s.pending key = none)
    (topic : Str) :
    (s.add key i).onTopic topic = s.onTopic topic + (if key.1 = topic then 1 else 0) := by
  unfold onTopic add
  rw [OrderedDict.set_of_not_mem ((OrderedDict.get_eq_none_iff _ _).mp hget)]
  simp [List.countP_append, List.countP_cons]

/-! ## Interests -/

namespace Interests

theorem of_same (h : Interests exempt s) (hpending : next.pending = s.pending)
    (htopics : next.topics = s.topics) (hcalls : next.calls = s.calls)
    (hrefcounts : ∀ i, next.refcount? i = s.refcount? i)
    (hlength : next.interests.length = s.interests.length) : Interests exempt next where
  nodup := by
    rw [hpending]
    exact h.nodup
  listed := by
    rw [hpending, htopics]
    exact h.listed
  counted topic i hi := by
    rw [htopics] at hi
    rw [hrefcounts, onTopic, hpending]
    exact h.counted topic i hi
  single := by
    rw [htopics]
    exact h.single
  settled := by
    rw [hcalls, htopics, hlength]
    exact h.settled
  needed := by
    unfold onTopic Settles
    rw [hpending, htopics, hcalls]
    exact h.needed

theorem release (h : Interests exempt s) : Interests exempt s.release :=
  h.of_same rfl rfl rfl (fun _ => rfl) rfl

theorem exempted (h : Interests none s) (i : Nat) : Interests (some i) s :=
  { h with needed := fun topic j hj hzero _ => h.needed topic j hj hzero (Option.some_ne_none j) }

/-- The exempted interest has requests, or is no longer listed. -/
theorem complete (h : Interests (some i) s)
    (hi : ∀ topic, OrderedDict.get s.topics topic = some i → s.onTopic topic ≠ 0) :
    Interests none s := by
  refine { h with needed := fun topic j hj hzero _ => h.needed topic j hj hzero ?_ }
  intro heq
  cases heq
  exact hi topic hj hzero

theorem settles_setPhase {phase : RequestPhase} {c' j : Nat} (hne : c' ≠ c) :
    (s.setPhase c phase).Settles c' j ↔ s.Settles c' j := by
  unfold Settles setPhase
  simp only [List.getElem?_modify_ne _ _ (Ne.symm hne)]

/-- A call that settles at most the exempted interest goes on to another phase. -/
theorem setPhase (h : Interests exempt s) {phase : RequestPhase}
    (hc : ∀ j, s.Settles c j → some j = exempt)
    (hphase : ∀ call i ready error, s.calls[c]? = some call → phase = .settling i ready error →
      OrderedDict.get s.topics call.key.1 = some i) :
    Interests exempt (s.setPhase c phase) :=
  { h with
    settled := by
      intro c' call i ready error hcall hsettling
      by_cases heq : c' = c
      · subst heq
        unfold RequestDispatcher.setPhase at hcall
        rw [List.getElem?_modify_eq] at hcall
        obtain ⟨old, hold, rfl⟩ := Option.map_eq_some_iff.mp hcall
        have hget := hphase old i ready error hold hsettling
        exact ⟨lt_of_refcount (h.counted _ _ hget), fun topic htopic => h.single _ _ _ htopic hget⟩
      · unfold RequestDispatcher.setPhase at hcall
        rw [List.getElem?_modify_ne _ _ (Ne.symm heq)] at hcall
        exact h.settled c' call i ready error hcall hsettling
    needed := by
      intro topic i hi hzero hne
      obtain ⟨c', hc'⟩ := h.needed topic i hi hzero hne
      have hother : c' ≠ c := by
        rintro rfl
        exact hne (hc i hc')
      exact ⟨c', (settles_setPhase hother).mpr hc'⟩ }

/-- A call ends. -/
theorem finish (h : Interests exempt s) (hc : ∀ j, s.Settles c j → some j = exempt)
    (error : Option RequestError) : Interests exempt (s.finish c error) := by
  apply h.setPhase hc
  intro call i ready error' _ hphase
  cases error <;> cases hphase

/-- The call settles the exempted interest from now on. -/
theorem settle (h : Interests (some i) s) (hcall : s.calls[c]? = some call)
    (hc : ∀ j, s.Settles c j → j = i) (htopic : OrderedDict.get s.topics call.key.1 = some i)
    (ready : Nat) (error : Option RequestError) :
    Interests none (s.setPhase c (.settling i ready error)) := by
  have hset : Interests (some i) (s.setPhase c (.settling i ready error)) := by
    apply h.setPhase fun j hj => congrArg some (hc j hj)
    intro call' i' ready' error' hcall' hphase
    cases hphase
    obtain rfl : call = call' := Option.some_inj.mp (hcall ▸ hcall')
    exact htopic
  refine { hset with needed := fun topic j hj hzero _ => ?_ }
  by_cases hji : j = i
  · subst hji
    refine ⟨c, { call with phase := .settling j ready error }, ready, error, ?_, rfl⟩
    unfold RequestDispatcher.setPhase
    rw [List.getElem?_modify_eq, hcall]
    rfl
  · exact hset.needed topic j hj hzero (by simpa using hji)

/-- A topic without requests is deleted. -/
theorem pop (h : Interests exempt s) {topic : Str} (hzero : s.onTopic topic = 0) :
    Interests exempt { s with topics := OrderedDict.pop s.topics topic } := by
  have hsub : ∀ topic' j, OrderedDict.get (OrderedDict.pop s.topics topic) topic' = some j →
      OrderedDict.get s.topics topic' = some j := by
    intro topic' j hj
    rw [OrderedDict.get_pop] at hj
    split at hj
    · cases hj
    · exact hj
  exact
    { nodup := h.nodup
      listed := fun key hkey =>
        OrderedDict.mem_keys_pop.mpr ⟨onTopic_eq_zero.mp hzero key hkey, h.listed key hkey⟩
      counted := fun topic' j hj => h.counted topic' j (hsub topic' j hj)
      single := fun topic' topic'' j hj hj' =>
        h.single topic' topic'' j (hsub topic' j hj) (hsub topic'' j hj')
      settled := fun c' call j ready error hcall hphase =>
        ⟨(h.settled c' call j ready error hcall hphase).1, fun topic' htopic' =>
          (h.settled c' call j ready error hcall hphase).2 topic' (hsub topic' j htopic')⟩
      needed := fun topic' j hj => h.needed topic' j (hsub topic' j hj) }

/-- One request leaves, and with it its share of the topic. -/
theorem removed (h : Interests none s) {key : RequestKey} {r : Nat}
    (hget : OrderedDict.get s.pending key = some r)
    (htopic : OrderedDict.get s.topics key.1 = some i) :
    Interests (some i) ((s.remove key r).modifyInterest i fun interest =>
      { interest with refcount := interest.refcount - 1 }) := by
  have honTopic := onTopic_pop h.nodup hget
  have hsub : ∀ key', key' ∈ OrderedDict.keys (OrderedDict.pop s.pending key) →
      key' ∈ OrderedDict.keys s.pending := fun key' hkey' => (OrderedDict.mem_keys_pop.mp hkey').2
  exact
    { nodup := OrderedDict.nodup_keys_pop h.nodup key
      listed := fun key' hkey' => h.listed key' (hsub key' hkey')
      counted := by
        intro topic j hj
        have hold := h.counted topic j hj
        have hcount := honTopic topic
        rw [refcount_modifyInterest _ (fun n => n - 1) (fun _ => rfl)]
        show (if i = j then (s.refcount? j).map _ else s.refcount? j) =
          some ((s.remove key r).onTopic topic : Int)
        rw [hold]
        by_cases hij : i = j
        · have hsame : key.1 = topic := h.single _ _ i htopic (hij ▸ hj)
          rw [if_pos hsame] at hcount
          simp only [hij, if_true, Option.map_some]
          congr 1
          omega
        · have hother : key.1 ≠ topic := fun heq => by
            have hsame : OrderedDict.get s.topics topic = some i := heq ▸ htopic
            exact hij (Option.some_inj.mp (hsame.symm.trans hj))
          rw [if_neg hother] at hcount
          rw [if_neg hij]
          congr 1
          omega
      single := h.single
      settled := by
        intro c' call j ready error hcall hphase
        have hold := h.settled c' call j ready error hcall hphase
        refine ⟨?_, hold.2⟩
        show j < (s.interests.modify i _).length
        rw [List.length_modify]
        exact hold.1
      needed := by
        intro topic j hj hzero hne
        have hcount := honTopic topic
        have hother : key.1 ≠ topic := fun heq => by
          have hsame : OrderedDict.get s.topics topic = some i := heq ▸ htopic
          exact hne (hj.symm.trans hsame)
        rw [if_neg hother] at hcount
        have hzero' : (s.remove key r).onTopic topic = 0 := hzero
        exact h.needed topic j hj (by omega) (Option.some_ne_none j) }

/-- The interest of a topic, which may be new and without requests. -/
theorem findInterest (h : Interests none s) (topic : Str) :
    Interests (some (s.findInterest topic).2) (s.findInterest topic).1 ∧
      OrderedDict.get (s.findInterest topic).1.topics topic = some (s.findInterest topic).2 := by
  unfold RequestDispatcher.findInterest
  cases hget : OrderedDict.get s.topics topic with
  | some i => exact ⟨h.exempted i, hget⟩
  | none =>
      have hzero : s.onTopic topic = 0 := onTopic_eq_zero.mpr fun key hkey heq => by
        have hmem := h.listed key hkey
        rw [heq] at hmem
        exact (OrderedDict.get_eq_none_iff _ _).mp hget hmem
      -- the listed interests are older than the new one
      have hold : ∀ topic' j, OrderedDict.get s.topics topic' = some j → j < s.interests.length :=
        fun topic' j hj => lt_of_refcount (h.counted topic' j hj)
      have hset : ∀ topic' j,
          OrderedDict.get (OrderedDict.set s.topics topic s.interests.length) topic' = some j →
            (topic = topic' ∧ j = s.interests.length) ∨
              (topic ≠ topic' ∧ OrderedDict.get s.topics topic' = some j) := by
        intro topic' j hj
        rw [OrderedDict.get_set] at hj
        split at hj
        · rename_i heq
          exact .inl ⟨heq, (Option.some_inj.mp hj).symm⟩
        · rename_i hne
          exact .inr ⟨hne, hj⟩
      refine ⟨?_, by simp [OrderedDict.get_set]⟩
      exact
        { nodup := h.nodup
          listed := fun key hkey => OrderedDict.mem_keys_set.mpr (.inr (h.listed key hkey))
          counted := by
            intro topic' j hj
            rcases hset topic' j hj with ⟨rfl, rfl⟩ | ⟨-, hj'⟩
            · show Option.map TopicInterest.refcount
                  (s.interests ++ [({} : TopicInterest)])[s.interests.length]? =
                some (s.onTopic topic : Int)
              simp [hzero]
            · have hlt := hold topic' j hj'
              show ((s.interests ++ [({} : TopicInterest)])[j]?).map TopicInterest.refcount =
                some (s.onTopic topic' : Int)
              rw [List.getElem?_append_left hlt]
              exact h.counted topic' j hj'
          single := by
            intro topic' topic'' j hj hj'
            rcases hset topic' j hj with ⟨rfl, rfl⟩ | ⟨-, hleft⟩
            · rcases hset topic'' _ hj' with ⟨rfl, -⟩ | ⟨-, hright⟩
              · rfl
              · exact absurd (hold _ _ hright) (Nat.lt_irrefl _)
            · rcases hset topic'' _ hj' with ⟨rfl, rfl⟩ | ⟨-, hright⟩
              · exact absurd (hold _ _ hleft) (Nat.lt_irrefl _)
              · exact h.single _ _ _ hleft hright
          settled := by
            intro c call j ready error hcall hphase
            obtain ⟨hlt, hown⟩ := h.settled c call j ready error hcall hphase
            refine ⟨?_, fun topic' htopic' => ?_⟩
            · show j < (s.interests ++ [({} : TopicInterest)]).length
              rw [List.length_append]
              omega
            · rcases hset topic' j htopic' with ⟨-, rfl⟩ | ⟨-, hj'⟩
              · exact absurd hlt (Nat.lt_irrefl _)
              · exact hown topic' hj'
          needed := by
            intro topic' j hj hzero' hne
            rcases hset topic' j hj with ⟨-, rfl⟩ | ⟨-, hj'⟩
            · exact absurd rfl hne
            · exact h.needed topic' j hj' hzero' (Option.some_ne_none j) }

/-- A new request joins the exempted interest. -/
theorem add (h : Interests (some i) s) {key : RequestKey}
    (hfree : OrderedDict.get s.pending key = none)
    (htopic : OrderedDict.get s.topics key.1 = some i) : Interests none (s.add key i) := by
  have honTopic := onTopic_add (i := i) hfree
  -- the interests of the other topics are others
  have hother : ∀ topic j, OrderedDict.get s.topics topic = some j → (i = j ↔ key.1 = topic) := by
    intro topic j hj
    constructor
    · intro hij
      exact h.single _ _ i htopic (hij ▸ hj)
    · intro heq
      have hsame : OrderedDict.get s.topics topic = some i := heq ▸ htopic
      exact Option.some_inj.mp (hsame.symm.trans hj)
  exact
    { nodup := OrderedDict.nodup_keys_set h.nodup key _
      listed := by
        intro key' hkey'
        rcases OrderedDict.mem_keys_set.mp hkey' with rfl | hold
        · exact (OrderedDict.mem_keys_iff _ _).mpr ⟨i, htopic⟩
        · exact h.listed key' hold
      counted := by
        intro topic j hj
        have hcount := honTopic topic
        have hmodified := refcount_modifyInterest (s := s) (i := i)
          (fun interest => { interest with refcount := interest.refcount + 1 }) (fun n => n + 1)
          (fun _ => rfl) j
        rw [h.counted topic j hj] at hmodified
        show (s.modifyInterest i _).refcount? j = some ((s.add key i).onTopic topic : Int)
        rw [hmodified, hcount]
        by_cases hij : i = j
        · rw [if_pos hij, if_pos ((hother topic j hj).mp hij)]
          simp
        · rw [if_neg hij, if_neg fun heq => hij ((hother topic j hj).mpr heq)]
          rfl
      single := h.single
      settled := by
        intro c call j ready error hcall hphase
        obtain ⟨hlt, hown⟩ := h.settled c call j ready error hcall hphase
        refine ⟨?_, hown⟩
        show j < (s.interests.modify i _).length
        rw [List.length_modify]
        exact hlt
      needed := by
        intro topic j hj hzero _
        rw [honTopic topic] at hzero
        have hne : key.1 ≠ topic := fun heq => by simp [heq] at hzero
        rw [if_neg hne, Nat.add_zero] at hzero
        apply h.needed topic j hj hzero
        intro heq
        exact hne ((hother topic j hj).mp (Option.some_inj.mp heq).symm) }

theorem dropInterest (h : Interests (some i) s) (hc : ∀ j, s.Settles c j → j = i) {topic : Str}
    (htopic : ∀ topic', OrderedDict.get s.topics topic' = some i → topic' = topic)
    (observerActive : Bool) (error : Option RequestError) :
    Interests none (s.dropInterest c topic i observerActive error) := by
  have hc' : ∀ j, s.Settles c j → some j = some i := fun j hj => congrArg some (hc j hj)
  unfold RequestDispatcher.dropInterest
  split
  · rename_i hlast
    have hzero : s.onTopic topic = 0 := by
      have hrefcount := interest_refcount (h.counted topic i hlast.2)
      omega
    have hpop := h.pop hzero
    -- nothing refers to the interest any more
    have hgone : ∀ topic', OrderedDict.get (OrderedDict.pop s.topics topic) topic' = some i →
        s.onTopic topic' ≠ 0 := by
      intro topic' hget
      rw [OrderedDict.get_pop] at hget
      split at hget
      · cases hget
      · rename_i hne
        exact absurd (htopic topic' hget).symm hne
    dsimp only
    split
    · refine (hpop.setPhase hc' ?_).complete hgone
      intro call' i' ready' error' _ hphase
      cases hphase
    · exact (hpop.release.finish hc' error).complete hgone
  · rename_i hkept
    refine (h.release.finish hc' error).complete ?_
    intro topic' hget hzero
    have hsame := htopic topic' hget
    subst hsame
    have hrefcount := interest_refcount (h.counted topic' i hget)
    have hzero' : s.onTopic topic' = 0 := hzero
    exact hkept ⟨by omega, hget⟩

end Interests

/-! ## One call runs -/

/-- A call has run to its next suspension: the interests are in order, so many units of
the semaphore are accounted for, none is taken, and of the calls it is the one that
changed. -/
structure Ran (c n : Nat) (s next : RequestDispatcher) : Prop where
  interests : Interests none next
  permits : next.permits = n
  capacity : s.capacity ≤ next.capacity
  calls : ∃ phase : RequestPhase, phase.error? ≠ some .keyError ∧
    next.calls = (s.setPhase c phase).calls

theorem Ran.of_same_calls {left : RequestDispatcher} {n : Nat} (h : Ran c n left next)
    (hcalls : left.calls = s.calls) (hcapacity : left.capacity = s.capacity) : Ran c n s next where
  interests := h.interests
  permits := h.permits
  capacity := hcapacity ▸ h.capacity
  calls := by
    obtain ⟨phase, hphase, hnext⟩ := h.calls
    refine ⟨phase, hphase, hnext.trans ?_⟩
    unfold setPhase
    rw [hcalls]

theorem error_finished {error : Option RequestError} (herror : error ≠ some .keyError) :
    RequestPhase.error? (error.elim .returned .raised) ≠ some .keyError := by
  cases error with
  | none => exact (Option.some_ne_none _).symm
  | some error => exact herror

/-- A call that settles nothing. -/
theorem not_settles (hcall : s.calls[c]? = some call)
    (hphase : call.phase.isUnregistering = false) (j : Nat) : ¬ s.Settles c j := by
  rintro ⟨call', ready, error, hcall', hsettling⟩
  obtain rfl : call = call' := Option.some_inj.mp (hcall ▸ hcall')
  rw [hsettling] at hphase
  cases hphase

/-- A call that holds no permit ends. -/
theorem ran_finish (h : Interests none s) (hcall : s.calls[c]? = some call)
    (hphase : call.phase.isUnregistering = false) {error : Option RequestError}
    (herror : error ≠ some .keyError) : Ran c s.permits s (s.finish c error) where
  interests := h.finish (fun j hj => absurd hj (not_settles hcall hphase j)) error
  permits := by
    have hcount := permits_finish hcall error
    simpa [hphase] using hcount
  capacity := Nat.le_refl _
  calls := ⟨_, error_finished herror, rfl⟩

/-- A call gives its permit back and ends. -/
theorem ran_release_finish (h : Interests none s) (hcall : s.calls[c]? = some call)
    (hphase : call.phase.isUnregistering = false) {error : Option RequestError}
    (herror : error ≠ some .keyError) : Ran c (s.permits + 1) s (s.release.finish c error) where
  interests := h.release.finish (fun j hj => absurd hj (not_settles hcall hphase j)) error
  permits := by
    have hcount := permits_release_finish hcall error
    simpa [hphase] using hcount
  capacity := Nat.le_succ _
  calls := ⟨_, error_finished herror, rfl⟩

/-- The topic of a call is given up with its permit. -/
theorem permits_dropInterest (hcall : s.calls[c]? = some call) (topic : Str) (i : Nat)
    (observerActive : Bool) (error : Option RequestError) :
    (s.dropInterest c topic i observerActive error).permits +
      (if call.phase.isUnregistering then 1 else 0) = s.permits + 1 := by
  unfold dropInterest
  dsimp only
  split
  · split
    · exact permits_setPhase (s := { s with topics := OrderedDict.pop s.topics topic }) hcall
        (.removing error)
    · exact permits_release_finish (s := { s with topics := OrderedDict.pop s.topics topic }) hcall
        error
  · exact permits_release_finish hcall error

theorem capacity_dropInterest (c : Nat) (topic : Str) (i : Nat) (observerActive : Bool)
    (error : Option RequestError) :
    s.capacity ≤ (s.dropInterest c topic i observerActive error).capacity := by
  unfold dropInterest
  dsimp only
  split
  · split
    · exact Nat.le_refl _
    · exact Nat.le_succ _
  · exact Nat.le_succ _

theorem calls_dropInterest (topic : Str) (i : Nat) (observerActive : Bool)
    {error : Option RequestError} (herror : error ≠ some .keyError) :
    ∃ phase : RequestPhase, phase.error? ≠ some .keyError ∧
      (s.dropInterest c topic i observerActive error).calls = (s.setPhase c phase).calls := by
  unfold dropInterest
  dsimp only
  split
  · split
    · exact ⟨.removing error, herror, rfl⟩
    · exact ⟨_, error_finished herror, rfl⟩
  · exact ⟨_, error_finished herror, rfl⟩

theorem ran_dropInterest {n : Nat} {topic : Str} {error : Option RequestError}
    (h : Interests (some i) s)
    (hcall : s.calls[c]? = some call) (hc : ∀ j, s.Settles c j → j = i)
    (htopic : ∀ topic', OrderedDict.get s.topics topic' = some i → topic' = topic)
    (hn : s.permits + 1 = n + (if call.phase.isUnregistering then 1 else 0))
    (herror : error ≠ some .keyError) (observerActive : Bool) :
    Ran c n s (s.dropInterest c topic i observerActive error) where
  interests := h.dropInterest hc htopic observerActive error
  permits := by
    have hcount := permits_dropInterest hcall topic i observerActive error
    omega
  capacity := capacity_dropInterest c topic i observerActive error
  calls := calls_dropInterest topic i observerActive herror

/-- A request leaves: the topic of a pending request is always found. -/
theorem ran_unregister {key : RequestKey} {r : Nat} {error : Option RequestError}
    (h : Interests none s) (hcall : s.calls[c]? = some call)
    (hphase : call.phase.isUnregistering = false) (hkey : call.key = key)
    (herror : error ≠ some .keyError) : Ran c s.permits s (s.unregister c key r error) := by
  unfold unregister
  split
  · exact ran_finish h hcall hphase herror
  · rename_i hget
    have hget : OrderedDict.get s.pending key = some r := not_not.mp hget
    have hlisted := h.listed key ((OrderedDict.mem_keys_iff _ _).mpr ⟨r, hget⟩)
    obtain ⟨i, hi⟩ := (OrderedDict.mem_keys_iff _ _).mp hlisted
    have htopics : (s.remove key r).topics = s.topics := rfl
    have hremoved := h.removed hget hi
    have hpermits := permits_remove h.nodup hget
    simp only [htopics, hi]
    generalize hleft : (s.remove key r).modifyInterest i _ = left at hremoved ⊢
    have hcalls : left.calls = s.calls := by rw [← hleft]; rfl
    have hcapacity : left.capacity = s.capacity := by rw [← hleft]; rfl
    have hlefttopics : left.topics = s.topics := by rw [← hleft]; rfl
    have hleftpermits : left.permits + 1 = s.permits := by rw [← hleft]; exact hpermits
    have hcall' : left.calls[c]? = some call := hcalls ▸ hcall
    have hc : ∀ j, left.Settles c j → j = i := fun j hj =>
      absurd hj (not_settles hcall' hphase j)
    have hget' : OrderedDict.get left.topics key.1 = some i := hlefttopics ▸ hi
    have htopic : ∀ topic', OrderedDict.get left.topics topic' = some i → topic' = key.1 :=
      fun topic' htopic' => hremoved.single _ _ _ htopic' hget'
    have hback : ∀ {next}, Ran c s.permits left next → Ran c s.permits s next :=
      fun hran => hran.of_same_calls hcalls hcapacity
    have hdrop : ∀ observerActive {error : Option RequestError}, error ≠ some .keyError →
        Ran c s.permits s (left.dropInterest c key.1 i observerActive error) := by
      intro observerActive error herror
      have hn : left.permits + 1 = s.permits + (if call.phase.isUnregistering then 1 else 0) := by
        simpa [hphase] using hleftpermits
      exact hback (ran_dropInterest hremoved hcall' hc htopic hn herror observerActive)
    split
    · rename_i hpositive
      have hcount := interest_refcount (hremoved.counted _ _ hget')
      have hkept : Interests none left := hremoved.complete fun topic' htopic' hzero => by
        obtain rfl := htopic topic' htopic'
        omega
      exact hback (hleftpermits ▸ ran_release_finish hkept hcall' hphase herror)
    · split
      · exact hdrop false herror
      · rename_i ready _
        split
        · apply hback
          refine ⟨?_, ?_, Nat.le_refl _, .settling i ready error, herror, rfl⟩
          · exact hremoved.settle hcall' hc (hkey ▸ hget') ready error
          · have hcount := permits_setPhase hcall' (.settling i ready error)
            have hsettling : (RequestPhase.settling i ready error).isUnregistering = true := rfl
            rw [hphase, hsettling, if_neg Bool.false_ne_true, if_pos rfl] at hcount
            omega
        · exact hdrop true herror
        · exact hdrop false (by decide)

/-- A call goes on when its observer is ready. -/
theorem ran_afterReady {key : RequestKey} (h : Interests none s) (hcall : s.calls[c]? = some call)
    (hphase : call.phase.isUnregistering = false) (hkey : call.key = key) (r : Nat) (ok : Bool) :
    Ran c s.permits s (s.afterReady c key r ok) := by
  unfold afterReady
  split
  · refine ⟨?_, ?_, Nat.le_refl _, .registered r, (Option.some_ne_none _).symm, rfl⟩
    · apply h.setPhase fun j hj => absurd hj (not_settles hcall hphase j)
      intro call' i' ready' error' _ hregistered
      cases hregistered
    · have hcount := permits_setPhase hcall (.registered r)
      have hregistered : (RequestPhase.registered r).isUnregistering = false := rfl
      simpa [hphase, hregistered] using hcount
  · exact ran_unregister h hcall hphase hkey (by decide)

theorem Interests.ensureTopicReady (h : Interests exempt s) (topic : Str) (i protocol : Nat) :
    Interests exempt (s.ensureTopicReady topic i protocol).1 := by
  unfold RequestDispatcher.ensureTopicReady
  split
  · exact h
  · refine h.of_same rfl rfl rfl (fun j => ?_) (List.length_modify ..)
    have hsame := refcount_modifyInterest (s := s.addReadyTask { topic, protocol }) (i := i)
      (fun interest => { interest with ready := some s.readyTasks.length }) id (fun _ => rfl) j
    rw [hsame]
    show (if i = j then (s.refcount? j).map id else s.refcount? j) = s.refcount? j
    simp

theorem same_ensureTopicReady (topic : Str) (i protocol : Nat) :
    (s.ensureTopicReady topic i protocol).1.calls = s.calls ∧
      (s.ensureTopicReady topic i protocol).1.permits = s.permits ∧
      (s.ensureTopicReady topic i protocol).1.capacity = s.capacity := by
  unfold ensureTopicReady
  split <;> exact ⟨rfl, rfl, rfl⟩

theorem same_findInterest (topic : Str) :
    (s.findInterest topic).1.calls = s.calls ∧ (s.findInterest topic).1.permits = s.permits ∧
      (s.findInterest topic).1.pending = s.pending ∧
      (s.findInterest topic).1.capacity = s.capacity := by
  unfold findInterest
  split <;> exact ⟨rfl, rfl, rfl, rfl⟩

/-- A request takes a permit. -/
theorem permits_add {key : RequestKey} (hfree : OrderedDict.get s.pending key = none) (i : Nat) :
    (s.add key i).permits = s.permits + 1 := by
  have hset := OrderedDict.set_of_not_mem ((OrderedDict.get_eq_none_iff _ _).mp hfree)
    s.requests.length
  show s.capacity + (OrderedDict.set s.pending key s.requests.length).length + s.unregistering =
    s.capacity + s.pending.length + s.unregistering + 1
  rw [hset, List.length_append, List.length_singleton]
  omega

/-- A call with its unit of the semaphore runs. -/
theorem ran_enter (h : Interests none s) (hcall : s.calls[c]? = some call)
    (hphase : call.phase.isUnregistering = false) :
    Ran c (s.permits + 1) s (s.enter c call.key) := by
  unfold enter
  split
  · exact ran_release_finish h hcall hphase (by decide)
  · rename_i hused
    have hfree : OrderedDict.get s.pending call.key = none := by simpa using hused
    split
    · exact ran_release_finish h hcall hphase (by decide)
    · rename_i protocol _
      obtain ⟨hfound, htopic⟩ := h.findInterest call.key.1
      obtain ⟨hfoundcalls, hfoundpermits, hfoundpending, hfoundcapacity⟩ :=
        same_findInterest (s := s) call.key.1
      generalize hsearched : s.findInterest call.key.1 = found at *
      have hfree' : OrderedDict.get found.1.pending call.key = none := hfoundpending ▸ hfree
      have hready := (hfound.add hfree' htopic).ensureTopicReady call.key.1 found.2 protocol
      have hsame := same_ensureTopicReady (s := found.1.add call.key found.2) call.key.1 found.2
        protocol
      have hadded := permits_add hfree' found.2
      dsimp only
      generalize (found.1.add call.key found.2).ensureTopicReady call.key.1 found.2 protocol =
        awaited at *
      have hcalls : awaited.1.calls = s.calls := hsame.1.trans hfoundcalls
      have hpermits : awaited.1.permits = s.permits + 1 := by omega
      have hcapacity : awaited.1.capacity = s.capacity := hsame.2.2.trans hfoundcapacity
      have hcall' : awaited.1.calls[c]? = some call := hcalls ▸ hcall
      rw [← hpermits]
      suffices hran : Ran c awaited.1.permits awaited.1 _ from hran.of_same_calls hcalls hcapacity
      split
      · refine ⟨?_, ?_, Nat.le_refl _, .subscribing s.requests.length awaited.2,
          (Option.some_ne_none _).symm, rfl⟩
        · apply hready.setPhase fun j hj => absurd hj (not_settles hcall' hphase j)
          intro call' i' ready' error' _ hsubscribing
          cases hsubscribing
        · have hcount := permits_setPhase hcall' (.subscribing s.requests.length awaited.2)
          have hsubscribing :
              (RequestPhase.subscribing s.requests.length awaited.2).isUnregistering = false := rfl
          simpa [hphase, hsubscribing] using hcount
      · exact ran_afterReady hready hcall' hphase rfl _ _

/-- A suspended call goes on. -/
theorem ran_resume {ok : Bool} (h : Interests none s) (hcall : s.calls[c]? = some call)
    (herror : call.phase.error? ≠ some .keyError) (hresume : s.resume c call ok = some next) :
    Ran c s.permits s next := by
  unfold resume at hresume
  split at hresume
  · rename_i hacquiring
    split at hresume
    · cases hresume
    · cases hresume
      exact ran_finish h hcall (by rw [hacquiring]; rfl) (by decide)
  · rename_i r ready hsubscribing
    split at hresume
    · cases hresume
    · cases hresume
      exact ran_afterReady h hcall (by rw [hsubscribing]; rfl) rfl r ok
  · rename_i i ready error hsettling
    split at hresume
    · cases hresume
    · cases hresume
      have hc : ∀ j, s.Settles c j → j = i := by
        rintro j ⟨call', ready', error', hcall', hsettling'⟩
        obtain rfl : call = call' := Option.some_inj.mp (hcall ▸ hcall')
        rw [hsettling] at hsettling'
        cases hsettling'
        rfl
      have hown := (h.settled c call i ready error hcall hsettling).2
      have hunregistering : call.phase.isUnregistering = true := by rw [hsettling]; rfl
      refine ran_dropInterest (h.exempted i) hcall hc hown (by simp [hunregistering]) ?_ ok
      cases ok with
      | true =>
          rw [hsettling] at herror
          exact herror
      | false => exact (by decide : some RequestError.interrupted ≠ some .keyError)
  · rename_i error hremoving
    cases hresume
    have hc : ∀ j, s.Settles c j → some j = none := by
      rintro j ⟨call', ready', error', hcall', hsettling'⟩
      obtain rfl : call = call' := Option.some_inj.mp (hcall ▸ hcall')
      rw [hremoving] at hsettling'
      cases hsettling'
    refine ⟨h.release.finish hc _, ?_, Nat.le_succ _, _, error_finished ?_, rfl⟩
    · have hcount := permits_release_finish hcall (if ok then error else some .interrupted)
      have hunregistering : call.phase.isUnregistering = true := by rw [hremoving]; rfl
      simpa [hunregistering] using hcount
    · cases ok with
      | true =>
          rw [hremoving] at herror
          exact herror
      | false => exact (by decide : some RequestError.interrupted ≠ some .keyError)
  · cases hresume

/-- A call closes its request. -/
theorem ran_close {timeout : Bool} (h : Interests none s) (hcall : s.calls[c]? = some call)
    (hclose : s.close c call timeout = some next) :
    Ran c s.permits s next := by
  unfold close at hclose
  split at hclose
  · rename_i r hregistered
    cases hclose
    have hmodified : Interests none (s.modifyRequest r fun request => request.close timeout) :=
      h.of_same rfl rfl rfl (fun _ => rfl) rfl
    have hran := ran_unregister (r := r) hmodified (c := c) hcall (by rw [hregistered]; rfl) rfl
      (Option.some_ne_none RequestError.keyError).symm
    exact ⟨hran.interests, hran.permits, hran.capacity, hran.calls⟩
  · cases hclose

/-! ## Every step -/

/-- The books of the dispatcher between two steps. -/
structure Balanced (maxPendingRequests : Nat) (s : RequestDispatcher) : Prop where
  permits : s.permits = maxPendingRequests
  interests : Interests none s
  errors : ∀ (c : Nat) (call : RequestCall), s.calls[c]? = some call →
    call.phase.error? ≠ some .keyError

/-- The call an action runs. -/
def Action.call? : Action → Option Nat
  | .acquire c => some c
  | .resume c _ => some c
  | .close c _ => some c
  | _ => none

/-- The units of the semaphore an action takes. -/
def Action.taken : Action → Nat
  | .acquire _ => 1
  | _ => 0

variable {maxPendingRequests : Nat}

namespace Balanced

theorem of_ran (h : Balanced maxPendingRequests s) (hinterests : Interests none next)
    (hpermits : next.permits = s.permits)
    (hcalls : ∃ phase : RequestPhase, phase.error? ≠ some .keyError ∧
      next.calls = (s.setPhase c phase).calls) :
    Balanced maxPendingRequests next where
  permits := hpermits.trans h.permits
  interests := hinterests
  errors := by
    obtain ⟨phase, hphase, hcalls⟩ := hcalls
    intro c' call' hcall'
    rw [hcalls] at hcall'
    unfold setPhase at hcall'
    rw [List.getElem?_modify] at hcall'
    obtain ⟨old, hold, rfl⟩ := Option.map_eq_some_iff.mp hcall'
    split
    · exact hphase
    · exact h.errors c' old hold

theorem of_same (h : Balanced maxPendingRequests s) (hpermits : next.permits = s.permits)
    (hinterests : Interests none next) (hcalls : next.calls = s.calls) :
    Balanced maxPendingRequests next where
  permits := hpermits.trans h.permits
  interests := hinterests
  errors := by
    rw [hcalls]
    exact h.errors

/-- A protocol is bound. -/
theorem bind (h : Balanced maxPendingRequests s) (protocol : Nat) :
    Balanced maxPendingRequests (s.bind protocol) := by
  refine h.of_same rfl (h.interests.of_same rfl rfl rfl (fun i => ?_) (List.length_mapIdx ..)) rfl
  unfold refcount? RequestDispatcher.bind
  rw [List.getElem?_mapIdx]
  cases s.interests[i]? with
  | none => rfl
  | some interest =>
      simp only [Option.map_some]
      split <;> rfl

/-- A call begins. -/
theorem register (h : Balanced maxPendingRequests s) (key : RequestKey) :
    Balanced maxPendingRequests { s with calls := s.calls ++ [{ key }] } := by
  have hnew : ∀ (c : Nat) (call : RequestCall),
      (s.calls ++ [RequestCall.mk key .acquiring])[c]? = some call →
        s.calls[c]? = some call ∨ call.phase = .acquiring := by
    intro c call hcall
    rw [List.getElem?_append] at hcall
    split at hcall
    · exact .inl hcall
    · obtain ⟨-, rfl⟩ : c - s.calls.length = 0 ∧ RequestCall.mk key .acquiring = call := by
        simpa [List.getElem?_singleton] using hcall
      exact .inr rfl
  exact
    { permits := by
        rw [← h.permits]
        show s.capacity + s.pending.length +
          List.countP _ (s.calls ++ [RequestCall.mk key .acquiring]) = _
        rw [List.countP_append]
        rfl
      interests :=
        { h.interests with
          settled := by
            intro c call i ready error hcall hsettling
            rcases hnew c call hcall with hold | hacquiring
            · exact h.interests.settled c call i ready error hold hsettling
            · rw [hacquiring] at hsettling
              cases hsettling
          needed := by
            intro topic i hi hzero hne
            obtain ⟨c, call, ready, error, hcall, hsettling⟩ :=
              h.interests.needed topic i hi hzero hne
            refine ⟨c, call, ready, error, ?_, hsettling⟩
            exact (List.getElem?_append_left (List.getElem?_eq_some_iff.mp hcall).1).trans hcall }
      errors := by
        intro c call hcall
        rcases hnew c call hcall with hold | hacquiring
        · exact h.errors c call hold
        · rw [hacquiring]
          exact (Option.some_ne_none _).symm }

/-- The pending requests are cancelled. -/
theorem cancelPending (h : Balanced maxPendingRequests s) :
    Balanced maxPendingRequests s.cancelPending := by
  refine h.of_same ?_ ?_ rfl
  · show s.capacity + s.pending.length + 0 + s.unregistering = _
    rfl
  · exact
      { nodup := List.nodup_nil
        listed := fun key hkey => absurd hkey List.not_mem_nil
        counted := fun topic i hi => by cases hi
        single := fun topic topic' i hi => by cases hi
        settled := fun c call i ready error hcall hsettling =>
          ⟨(h.interests.settled c call i ready error hcall hsettling).1, fun _ hi => by cases hi⟩
        needed := fun topic i hi => by cases hi }

theorem setReadyTasks (h : Balanced maxPendingRequests s) (readyTasks : List ReadyTask) :
    Balanced maxPendingRequests { s with readyTasks } :=
  h.of_same rfl (h.interests.of_same rfl rfl rfl (fun _ => rfl) rfl) rfl

theorem claim (h : Balanced maxPendingRequests s) (message : Message) :
    Balanced maxPendingRequests (s.claim message) ∧ (s.claim message).calls = s.calls ∧
      (s.claim message).capacity = s.capacity := by
  unfold RequestDispatcher.claim
  dsimp only
  split
  · exact ⟨h, rfl, rfl⟩
  · split
    · exact ⟨h, rfl, rfl⟩
    · split
      · exact ⟨h, rfl, rfl⟩
      · exact ⟨h.of_same rfl (h.interests.of_same rfl rfl rfl (fun _ => rfl) rfl) rfl, rfl, rfl⟩

theorem complete (h : Balanced maxPendingRequests s) (i : Nat) (response : ClaimedResponse) :
    Balanced maxPendingRequests (s.complete i response) ∧
      (s.complete i response).calls = s.calls ∧
      (s.complete i response).capacity = s.capacity := by
  unfold RequestDispatcher.complete
  split
  · exact ⟨h.of_same rfl (h.interests.of_same rfl rfl rfl (fun _ => rfl) rfl) rfl, rfl, rfl⟩
  · exact ⟨h, rfl, rfl⟩

end Balanced

/-- What a step keeps: the books, the units that it does not take itself, and the calls
that it does not run. -/
structure Stepped (maxPendingRequests : Nat) (a : Action) (s next : RequestDispatcher) : Prop where
  balanced : Balanced maxPendingRequests next
  capacity : s.capacity ≤ next.capacity + a.taken
  calls : ∀ (c : Nat) (call : RequestCall), s.calls[c]? = some call → a.call? ≠ some c →
    next.calls[c]? = some call

namespace Balanced

theorem calls_of_ran {a : Action} (ha : a.call? = some c)
    (hran : ∃ phase : RequestPhase, phase.error? ≠ some .keyError ∧
      next.calls = (s.setPhase c phase).calls) :
    ∀ (c : Nat) (call : RequestCall), s.calls[c]? = some call → a.call? ≠ some c →
      next.calls[c]? = some call := by
  intro c' call' hcall' hne
  obtain ⟨phase, -, hcalls⟩ := hran
  have hother : c ≠ c' := fun heq => hne (heq ▸ ha)
  rw [hcalls]
  unfold setPhase
  rw [List.getElem?_modify_ne _ _ hother]
  exact hcall'

/-- A call acquires its permit. -/
theorem acquire (h : Balanced maxPendingRequests s) (hcall : s.calls[c]? = some call)
    (hacquiring : call.phase = .acquiring) (hfree : 0 < s.capacity) :
    Stepped maxPendingRequests (.acquire c) s
      ({ s with capacity := s.capacity - 1 }.enter c call.key) := by
  have htaken : Interests none { s with capacity := s.capacity - 1 } :=
    h.interests.of_same rfl rfl rfl (fun _ => rfl) rfl
  have hran := ran_enter htaken hcall (by rw [hacquiring]; rfl)
  have hunits :
      RequestDispatcher.permits { s with capacity := s.capacity - 1 } + 1 = s.permits := by
    show s.capacity - 1 + s.pending.length + s.unregistering + 1 =
      s.capacity + s.pending.length + s.unregistering
    omega
  have hcapacity : s.capacity - 1 ≤ _ := hran.capacity
  exact
    { balanced := h.of_ran hran.interests (hran.permits.trans hunits) hran.calls
      capacity := Nat.le_add_of_sub_le hcapacity
      calls := calls_of_ran (s := s) rfl hran.calls }

theorem of_call (h : Balanced maxPendingRequests s) {a : Action} (ha : a.call? = some c)
    (hran : Ran c s.permits s next) : Stepped maxPendingRequests a s next where
  balanced := h.of_ran hran.interests hran.permits hran.calls
  capacity := Nat.le_trans hran.capacity (Nat.le_add_right _ _)
  calls := calls_of_ran ha hran.calls

theorem of_none (hnext : Balanced maxPendingRequests next) {a : Action}
    (hcalls : next.calls = s.calls) (hcapacity : s.capacity ≤ next.capacity) :
    Stepped maxPendingRequests a s next where
  balanced := hnext
  capacity := Nat.le_trans hcapacity (Nat.le_add_right _ _)
  calls c call hcall _ := by
    rw [hcalls]
    exact hcall

/-- **Step lemma.** -/
theorem step (h : Balanced maxPendingRequests s) {a : Action} (hstep : s.step a = some next) :
    Stepped maxPendingRequests a s next := by
  cases a with
  | bind protocol =>
      cases hstep
      exact (h.bind protocol).of_none rfl (Nat.le_refl _)
  | register key =>
      cases hstep
      refine ⟨h.register key, Nat.le_refl _, fun c call hcall _ => ?_⟩
      exact (List.getElem?_append_left (List.getElem?_eq_some_iff.mp hcall).1).trans hcall
  | acquire c =>
      obtain ⟨call, hcall, hrest⟩ := Option.bind_eq_some_iff.mp hstep
      obtain ⟨⟨hacquiring, hfree⟩, heq⟩ := Option.ite_none_right_eq_some.mp hrest
      cases heq
      exact h.acquire hcall hacquiring hfree
  | resume c ok =>
      obtain ⟨call, hcall, hrest⟩ := Option.bind_eq_some_iff.mp hstep
      exact h.of_call rfl (ran_resume h.interests hcall (h.errors c call hcall) hrest)
  | close c timeout =>
      obtain ⟨call, hcall, hrest⟩ := Option.bind_eq_some_iff.mp hstep
      exact h.of_call rfl (ran_close h.interests hcall hrest)
  | readyDone t ok =>
      cases hstep
      exact (h.setReadyTasks _).of_none rfl (Nat.le_refl _)
  | restore topic i =>
      obtain ⟨protocol, -, rfl⟩ := Option.map_eq_some_iff.mp hstep
      split
      · obtain ⟨hcalls, hpermits, hcapacity⟩ := same_ensureTopicReady (s := s) topic i protocol
        have hready := h.interests.ensureTopicReady topic i protocol
        exact (h.of_same hpermits hready hcalls).of_none hcalls (Nat.le_of_eq hcapacity.symm)
      · exact h.of_none rfl (Nat.le_refl _)
  | claim message =>
      cases hstep
      obtain ⟨hclaim, hcalls, hcapacity⟩ := h.claim message
      exact hclaim.of_none hcalls (Nat.le_of_eq hcapacity.symm)
  | deliver i =>
      obtain ⟨response, -, rfl⟩ := Option.map_eq_some_iff.mp hstep
      obtain ⟨hcomplete, hcalls, hcapacity⟩ := h.complete i response
      exact hcomplete.of_none hcalls (Nat.le_of_eq hcapacity.symm)
  | cancelPending =>
      cases hstep
      exact h.cancelPending.of_none rfl (Nat.le_add_right _ _)

theorem start (maxPendingRequests : Nat) :
    Balanced maxPendingRequests (start maxPendingRequests) where
  permits := rfl
  interests :=
    { nodup := List.nodup_nil
      listed := fun key hkey => absurd hkey List.not_mem_nil
      counted := fun topic i hi => by cases hi
      single := fun topic topic' i hi => by cases hi
      settled := fun c call i ready error hcall => by cases hcall
      needed := fun topic i hi => by cases hi }
  errors := fun c call hcall => by cases hcall

end Balanced

end RequestDispatcher

/-! ## The semaphore -/

/-- The dispatcher and the calls that the semaphore has woken and that have not run yet.
Their units are still in the dispatcher's `capacity`, which a call takes from when it
runs. -/
structure RequestAdmission where
  dispatcher : RequestDispatcher
  granted : List Nat := []

namespace RequestAdmission

open RequestDispatcher

/-- The value of the semaphore. -/
def free (s : RequestAdmission) : Nat := s.dispatcher.capacity - s.granted.length

inductive Action
  | grant (c : Nat)
  | dispatch (action : RequestDispatcher.Action)

/-- Only a call that has been woken runs on from `acquire`. -/
def mayRun (s : RequestAdmission) : RequestDispatcher.Action → Bool
  | .acquire c => decide (c ∈ s.granted)
  | _ => true

/-- A call that has been woken runs, or is cancelled and gives its unit back. -/
def settleGrant (s : RequestAdmission) (action : RequestDispatcher.Action) : List Nat :=
  action.call?.elim s.granted s.granted.erase

def step (s : RequestAdmission) : Action → Option RequestAdmission
  | .grant c =>
      s.dispatcher.calls[c]?.bind fun call =>
        if call.phase = .acquiring ∧ c ∉ s.granted ∧ 0 < s.free then
          some { s with granted := c :: s.granted }
        else none
  | .dispatch action =>
      if s.mayRun action then
        (s.dispatcher.step action).map fun dispatcher =>
          { dispatcher, granted := s.settleGrant action }
      else none

def start (maxPendingRequests : Nat) : RequestAdmission :=
  { dispatcher := RequestDispatcher.start maxPendingRequests }

/-- The books of request and response.  `granted` are the calls woken and not yet run;
`found` says that the look-up in `unregister` finds the topic. -/
structure InBalance (maxPendingRequests : Nat) (s : RequestAdmission) : Prop where
  permits : s.free + s.dispatcher.pending.length + s.dispatcher.unregistering +
    s.granted.length = maxPendingRequests
  granted : s.granted.Nodup ∧ ∀ c ∈ s.granted, ∃ call : RequestCall,
    s.dispatcher.calls[c]? = some call ∧ call.phase = .acquiring
  listed : ∀ key r, OrderedDict.get s.dispatcher.pending key = some r →
    ∃ i, OrderedDict.get s.dispatcher.topics key.1 = some i
  counted : ∀ topic i, OrderedDict.get s.dispatcher.topics topic = some i →
    (s.dispatcher.interest i).refcount = s.dispatcher.onTopic topic
  found : ∀ (c : Nat) (call : RequestCall), s.dispatcher.calls[c]? = some call →
    call.phase ≠ .raised .keyError
  idle : (∀ call ∈ s.dispatcher.calls, call.phase.inProgress = false) → ∀ topic,
    topic ∈ OrderedDict.keys s.dispatcher.topics ↔
      ∃ key ∈ OrderedDict.keys s.dispatcher.pending, key.1 = topic

/-- What holds between two steps. -/
structure Sound (maxPendingRequests : Nat) (s : RequestAdmission) : Prop where
  dispatcher : Balanced maxPendingRequests s.dispatcher
  nodup : s.granted.Nodup
  units : s.granted.length ≤ s.dispatcher.capacity
  waiting : ∀ c ∈ s.granted, ∃ call : RequestCall,
    s.dispatcher.calls[c]? = some call ∧ call.phase = .acquiring

variable {maxPendingRequests : Nat} {s next : RequestAdmission}

namespace Sound

/-- A permit is granted. -/
theorem grant (h : Sound maxPendingRequests s) {c : Nat} {call : RequestCall}
    (hcall : s.dispatcher.calls[c]? = some call) (hacquiring : call.phase = .acquiring)
    (hnew : c ∉ s.granted) (hfree : 0 < s.free) :
    Sound maxPendingRequests { s with granted := c :: s.granted } where
  dispatcher := h.dispatcher
  nodup := List.nodup_cons.mpr ⟨hnew, h.nodup⟩
  units := by
    unfold free at hfree
    show s.granted.length + 1 ≤ s.dispatcher.capacity
    omega
  waiting c' hc' := by
    rcases List.mem_cons.mp hc' with rfl | hold
    · exact ⟨call, hcall, hacquiring⟩
    · exact h.waiting c' hold

/-- A step of the dispatcher. -/
theorem dispatch (h : Sound maxPendingRequests s) {action : RequestDispatcher.Action}
    {dispatcher : RequestDispatcher} (hmay : s.mayRun action)
    (hstep : s.dispatcher.step action = some dispatcher) :
    Sound maxPendingRequests { dispatcher, granted := s.settleGrant action } := by
  have hstepped := h.dispatcher.step hstep
  have hsub : (s.settleGrant action).Sublist s.granted := by
    unfold settleGrant
    cases action.call? with
    | none => exact List.Sublist.refl _
    | some c => exact List.erase_sublist
  refine ⟨hstepped.balanced, h.nodup.sublist hsub, ?_, fun c hc => ?_⟩
  · have hunits := h.units
    have hcapacity := hstepped.capacity
    have hlength := hsub.length_le
    show (s.settleGrant action).length ≤ dispatcher.capacity
    cases action with
    | acquire c =>
        have hmem : c ∈ s.granted := of_decide_eq_true hmay
        have herased : (s.settleGrant (.acquire c)).length = s.granted.length - 1 :=
          List.length_erase_of_mem hmem
        have hpositive := List.length_pos_of_mem hmem
        simp only [RequestDispatcher.Action.taken] at hcapacity
        omega
    | _ =>
        simp only [RequestDispatcher.Action.taken, Nat.add_zero] at hcapacity
        omega
  · -- a call that is still woken has not run
    obtain ⟨call, hcall, hacquiring⟩ := h.waiting c (hsub.subset hc)
    refine ⟨call, hstepped.calls c call hcall ?_, hacquiring⟩
    intro hran
    unfold settleGrant at hc
    rw [hran] at hc
    exact (h.nodup.mem_erase_iff.mp hc).1 rfl

/-- **Step lemma.** -/
theorem step (h : Sound maxPendingRequests s) {a : Action} (hstep : s.step a = some next) :
    Sound maxPendingRequests next := by
  cases a with
  | grant c =>
      obtain ⟨call, hcall, hrest⟩ := Option.bind_eq_some_iff.mp hstep
      obtain ⟨⟨hacquiring, hnew, hfree⟩, heq⟩ := Option.ite_none_right_eq_some.mp hrest
      cases heq
      exact h.grant hcall hacquiring hnew hfree
  | dispatch action =>
      obtain ⟨hmay, hrest⟩ := Option.ite_none_right_eq_some.mp hstep
      obtain ⟨dispatcher, hdispatcher, rfl⟩ := Option.map_eq_some_iff.mp hrest
      exact h.dispatch hmay hdispatcher

theorem start (maxPendingRequests : Nat) :
    Sound maxPendingRequests (start maxPendingRequests) where
  dispatcher := Balanced.start maxPendingRequests
  nodup := List.nodup_nil
  units := Nat.zero_le _
  waiting := fun _ hc => absurd hc List.not_mem_nil

theorem idle (h : Sound maxPendingRequests s)
    (hidle : ∀ call ∈ s.dispatcher.calls, call.phase.inProgress = false) (topic : Str) :
    topic ∈ OrderedDict.keys s.dispatcher.topics ↔
      ∃ key ∈ OrderedDict.keys s.dispatcher.pending, key.1 = topic := by
  have hinterests := h.dispatcher.interests
  constructor
  · intro hmem
    obtain ⟨i, hi⟩ := (OrderedDict.mem_keys_iff _ _).mp hmem
    -- an interest without requests has a call in progress
    have hrequests : s.dispatcher.onTopic topic ≠ 0 := by
      intro hzero
      obtain ⟨c, call, ready, error, hcall, hsettling⟩ :=
        hinterests.needed topic i hi hzero (Option.some_ne_none i)
      have hdone := hidle call (List.mem_of_getElem? hcall)
      rw [hsettling] at hdone
      cases hdone
    rw [Ne, onTopic_eq_zero] at hrequests
    push Not at hrequests
    exact hrequests
  · rintro ⟨key, hkey, rfl⟩
    exact hinterests.listed key hkey

theorem inBalance (h : Sound maxPendingRequests s) : InBalance maxPendingRequests s where
  permits := by
    have hpermits := h.dispatcher.permits
    have hunits := h.units
    unfold RequestDispatcher.permits at hpermits
    unfold free
    omega
  granted := ⟨h.nodup, h.waiting⟩
  listed key r hkey := by
    have hmem := (OrderedDict.mem_keys_iff _ _).mpr ⟨r, hkey⟩
    exact (OrderedDict.mem_keys_iff _ _).mp (h.dispatcher.interests.listed key hmem)
  counted topic i hi := interest_refcount (h.dispatcher.interests.counted topic i hi)
  found c call hcall hraised := by
    have herror := h.dispatcher.errors c call hcall
    rw [hraised] at herror
    exact herror rfl
  idle := h.idle

end Sound

/-- **Permits, requests and topics are in balance in every state of every run.** -/
theorem requests_in_balance (maxPendingRequests : Nat) (actions : List Action)
    (s : RequestAdmission)
    (hrun : Transition.run step (start maxPendingRequests) actions = some s) :
    InBalance maxPendingRequests s :=
  (Transition.invariant (fun _ _ _ h hstep => h.step hstep) (Sound.start maxPendingRequests)
    hrun).inBalance

/-- Two requests share a topic; the second joins while the first, cancelled, waits for
the observer.  The third call has been woken with the unit of a fourth that was cancelled. -/
def sharedTopicRun : List Action :=
  [.dispatch (.bind 0), .dispatch (.register (str "r", [1])), .dispatch (.register (str "r", [2])),
   .dispatch (.register (str "q", [1])), .dispatch (.register (str "q", [2])), .grant 0,
   .dispatch (.acquire 0), .dispatch (.resume 0 false), .grant 1, .dispatch (.acquire 1), .grant 3,
   .dispatch (.resume 3 false), .grant 2]

theorem requests_in_balance_shared :
    ∃ s, Transition.run step (start 3) sharedTopicRun = some s ∧
      (s.free = 0 ∧ s.dispatcher.pending.length = 1 ∧ s.dispatcher.unregistering = 1 ∧
        s.granted = [2]) ∧ InBalance 3 s :=
  ⟨_, rfl, by decide, requests_in_balance 3 sharedTopicRun _ rfl⟩

end RequestAdmission

end Zmqtt
