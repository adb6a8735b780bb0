import Zmqtt.RequestMoves

/-!
# The accounts of the request dispatcher

On one connection every pending request has its call, every listed topic has an observer
task, and a task that has not ended is that of a listed topic.  A step of a call keeps
the accounts, whatever its move is.
-/

namespace Zmqtt

namespace RequestDispatcher

variable {d d' : RequestDispatcher} {c : Nat} {call : RequestCall} {phase : RequestPhase}

/-- What the phase of a call says about its request and its topic. -/
def PhaseFits (d : RequestDispatcher) (key : RequestKey) : RequestPhase → Prop
  | .subscribing r t => OrderedDict.get d.pending key = some r ∧ d.readyOf key.1 = some t
  | .registered r => OrderedDict.get d.pending key = some r ∧
      ∃ t, d.readyOf key.1 = some t ∧ d.outcome t = some true
  | .settling i t _ => OrderedDict.get d.topics key.1 = some i → d.readyOf key.1 = some t
  | _ => True

structure Accounted (d : RequestDispatcher) : Prop where
  interests : Interests none d
  bound : d.protocol.isSome = true
  fits : ∀ (c : Nat) (call : RequestCall), d.calls[c]? = some call →
    PhaseFits d call.key call.phase
  unique : ∀ (c c' : Nat) (call call' : RequestCall), d.calls[c]? = some call →
    d.calls[c']? = some call' → call.phase.request?.isSome = true →
    call'.phase.request?.isSome = true → call.key = call'.key → c = c'
  owned : ∀ key r, OrderedDict.get d.pending key = some r →
    ∃ (c : Nat) (call : RequestCall), d.calls[c]? = some call ∧ call.key = key ∧
      call.phase.request? = some r
  listed : ∀ topic i, OrderedDict.get d.topics topic = some i → (d.readyOf topic).isSome = true
  running : ∀ (t : Nat) (task : ReadyTask), d.readyTasks[t]? = some task → task.outcome = none →
    d.readyOf task.topic = some t
  tasks : ∀ topic t, d.readyOf topic = some t →
    ∃ task, d.readyTasks[t]? = some task ∧ task.topic = topic

/-! ## Phases -/

theorem PhaseFits.pending {key : RequestKey} {r : Nat} (h : PhaseFits d key phase)
    (hr : phase.request? = some r) : OrderedDict.get d.pending key = some r := by
  cases phase with
  | subscribing r' t =>
      cases hr
      exact h.1
  | registered r' =>
      cases hr
      exact h.1
  | _ => cases hr

theorem PhaseFits.ready {key : RequestKey} (h : PhaseFits d key phase)
    (hr : phase.request?.isSome = true) : (d.readyOf key.1).isSome = true := by
  cases phase with
  | subscribing r t => rw [h.2]; rfl
  | registered r =>
      obtain ⟨t, ht, -⟩ := h.2
      rw [ht]
      rfl
  | _ => cases hr

theorem PhaseFits.of_finished (key : RequestKey) (h : isFinished phase = true) :
    PhaseFits d key phase := by
  cases phase with
  | returned => trivial
  | raised error => trivial
  | _ => cases h

theorem request?_of_finished (h : isFinished phase = true) : phase.request? = none := by
  cases phase with
  | returned => rfl
  | raised error => rfl
  | _ => cases h

/-- The phase still fits where the request, the topic and its task are the same. -/
theorem PhaseFits.transfer {key : RequestKey} (h : PhaseFits d key phase)
    (houtcome : d'.outcome = d.outcome)
    (hrequest : phase.request?.isSome = true →
      OrderedDict.get d'.pending key = OrderedDict.get d.pending key ∧
        d'.readyOf key.1 = d.readyOf key.1)
    (hsettling : ∀ i t error, phase = .settling i t error →
      OrderedDict.get d'.topics key.1 = some i →
        OrderedDict.get d.topics key.1 = some i ∧ d'.readyOf key.1 = d.readyOf key.1) :
    PhaseFits d' key phase := by
  cases phase with
  | subscribing r t =>
      obtain ⟨hpending, hready⟩ := hrequest rfl
      exact ⟨hpending.trans h.1, hready.trans h.2⟩
  | registered r =>
      obtain ⟨hpending, hready⟩ := hrequest rfl
      obtain ⟨t, ht, htrue⟩ := h.2
      exact ⟨hpending.trans h.1, t, hready.trans ht, houtcome ▸ htrue⟩
  | settling i t error =>
      intro hget
      obtain ⟨hold, hready⟩ := hsettling i t error rfl hget
      exact hready.trans (h hold)
  | _ => trivial

/-! ## The topic of a step -/

/-- What a step does to the topic of its call. -/
inductive TopicMove (d d' : RequestDispatcher) (topic : Str) : Prop
  | kept (hkept : TopicKept d d' topic) (htasks : d'.readyTasks = d.readyTasks)
  | fresh (hnone : d.readyOf topic = none) (hready : d'.readyOf topic = some d.readyTasks.length)
      (hnew : ∃ protocol, d'.readyTasks = d.readyTasks ++ [ReadyTask.mk topic protocol none])
      (hget : OrderedDict.get d'.topics topic = OrderedDict.get d.topics topic ∨
        ∀ i, OrderedDict.get d'.topics topic = some i → d.interests.length ≤ i)
  | dropped (hdone : ∀ t, d.readyOf topic = some t → d.outcome t ≠ none)
      (hfree : ∀ key : RequestKey, key.1 = topic → OrderedDict.get d'.pending key = none)
      (hgone : OrderedDict.get d'.topics topic = none) (htasks : d'.readyTasks = d.readyTasks)

theorem Leaving.topicMove (h : Leaving d d' call phase) (htasks : d'.readyTasks = d.readyTasks) :
    TopicMove d d' call.key.1 := by
  cases h with
  | kept _ hkept => exact .kept hkept htasks
  | settles _ hkept _ _ => exact .kept hkept htasks
  | dropped hphase hfree hgone =>
      refine .dropped (fun t ht hnone => ?_) hfree hgone htasks
      rcases hphase with ⟨-, hfalse⟩ | ⟨-, t', ht', htrue⟩
      · rw [hfalse t ht] at hnone
        cases hnone
      · rw [ht'] at ht
        cases ht
        rw [htrue] at hnone
        cases hnone

theorem Move.topicMove (h : Move d d' call phase) : TopicMove d d' call.key.1 := by
  cases h with
  | finished _ _ _ hkept htasks => exact .kept hkept htasks
  | opened _ _ _ hkept htasks => exact .kept hkept htasks
  | left _ _ hleaving htasks => exact hleaving.topicMove htasks
  | settled _ _ _ hleaving htasks => exact hleaving.topicMove htasks
  | joined _ _ _ hready htask =>
      rcases htask with ⟨hold, htasks, hget⟩ | ⟨hnone, rfl, hnew, hget⟩
      · exact .kept ⟨hget, hready.trans hold.symm⟩ htasks
      · exact .fresh hnone hready hnew hget

namespace TopicMove

variable {topic : Str}

/-- A task is added, or none. -/
theorem tasks_cases (h : TopicMove d d' topic) :
    d'.readyTasks = d.readyTasks ∨
      (d'.readyOf topic = some d.readyTasks.length ∧ d.readyOf topic = none ∧
        ∃ protocol, d'.readyTasks = d.readyTasks ++ [ReadyTask.mk topic protocol none]) := by
  cases h with
  | kept _ htasks => exact .inl htasks
  | fresh hnone hready hnew _ => exact .inr ⟨hready, hnone, hnew⟩
  | dropped _ _ _ htasks => exact .inl htasks

theorem outcome (h : TopicMove d d' topic) : d'.outcome = d.outcome := by
  funext t
  unfold RequestDispatcher.outcome
  rcases h.tasks_cases with htasks | ⟨-, -, protocol, hnew⟩
  · rw [htasks]
  · rw [hnew]
    rcases Nat.lt_trichotomy t d.readyTasks.length with hlt | rfl | hgt
    · rw [List.getElem?_append_left hlt]
    · simp
    · rw [List.getElem?_eq_none (by simp; omega), List.getElem?_eq_none (by omega)]

/-- The tasks there were are there. -/
theorem getElem?_readyTasks (h : TopicMove d d' topic) {t : Nat} {task : ReadyTask}
    (htask : d.readyTasks[t]? = some task) : d'.readyTasks[t]? = some task := by
  rcases h.tasks_cases with htasks | ⟨-, -, protocol, hnew⟩
  · rwa [htasks]
  · rw [hnew, List.getElem?_append_left (List.getElem?_eq_some_iff.mp htask).1]
    exact htask

/-- A task that is there was there, or is the new one. -/
theorem readyTasks_cases (h : TopicMove d d' topic) {t : Nat} {task : ReadyTask}
    (htask : d'.readyTasks[t]? = some task) :
    d.readyTasks[t]? = some task ∨ (task.topic = topic ∧ d'.readyOf topic = some t) := by
  rcases h.tasks_cases with htasks | ⟨hready, -, protocol, hnew⟩
  · exact .inl (htasks ▸ htask)
  · rw [hnew] at htask
    by_cases hlt : t < d.readyTasks.length
    · exact .inl (List.getElem?_append_left hlt ▸ htask)
    · rw [List.getElem?_append_right (by omega)] at htask
      obtain ⟨hlast, heq⟩ := List.getElem?_eq_some_iff.mp htask
      have ht : t = d.readyTasks.length := by
        simp only [List.length_singleton] at hlast
        omega
      subst ht
      simp only [Nat.sub_self, List.getElem_cons_zero] at heq
      subst heq
      exact .inr ⟨rfl, hready⟩

/-- The interest that an old call waits for. -/
theorem get_topics (h : TopicMove d d' topic) (haccounts : Accounted d) {i : Nat}
    (hlt : i < d.interests.length) (hget : OrderedDict.get d'.topics topic = some i) :
    OrderedDict.get d.topics topic = some i ∧ d'.readyOf topic = d.readyOf topic := by
  cases h with
  | kept hkept _ => exact ⟨hkept.topics ▸ hget, hkept.ready⟩
  | fresh hnone _ _ hcases =>
      rcases hcases with hsame | hfresh
      · have hlisted := haccounts.listed topic i (hsame ▸ hget)
        rw [hnone] at hlisted
        cases hlisted
      · exact absurd (hfresh i hget) (by omega)
  | dropped _ _ hgone _ =>
      rw [hgone] at hget
      cases hget

theorem listed (h : TopicMove d d' topic) (haccounts : Accounted d) {i : Nat}
    (hget : OrderedDict.get d'.topics topic = some i) : (d'.readyOf topic).isSome = true := by
  cases h with
  | kept hkept _ =>
      rw [hkept.ready]
      exact haccounts.listed topic i (hkept.topics ▸ hget)
  | fresh _ hready _ _ =>
      rw [hready]
      rfl
  | dropped _ _ hgone _ =>
      rw [hgone] at hget
      cases hget

/-- A task that has not ended keeps its topic. -/
theorem running (h : TopicMove d d' topic) {t : Nat} (hready : d.readyOf topic = some t)
    (hnone : d.outcome t = none) : d'.readyOf topic = some t := by
  cases h with
  | kept hkept _ => exact hkept.ready.trans hready
  | fresh hfresh _ _ _ =>
      rw [hready] at hfresh
      cases hfresh
  | dropped hdone _ _ _ => exact absurd hnone (hdone t hready)

theorem tasks (h : TopicMove d d' topic) (haccounts : Accounted d) {t : Nat}
    (hready : d'.readyOf topic = some t) :
    ∃ task, d'.readyTasks[t]? = some task ∧ task.topic = topic := by
  have htasks := h
  cases h with
  | kept hkept _ =>
      obtain ⟨task, htask, htopic⟩ := haccounts.tasks topic t (hkept.ready ▸ hready)
      exact ⟨task, htasks.getElem?_readyTasks htask, htopic⟩
  | fresh _ hready' hnew _ =>
      rw [hready'] at hready
      cases hready
      obtain ⟨protocol, hnew⟩ := hnew
      exact ⟨ReadyTask.mk topic protocol none, by rw [hnew]; simp, rfl⟩
  | dropped _ _ hgone _ =>
      unfold readyOf at hready
      rw [hgone] at hready
      cases hready

end TopicMove

/-! ## Calls -/

/-- A phase with a request is entered by a new request, or by one that the call had. -/
theorem Move.request_cases (h : Move d d' call phase) {r : Nat} (hr : phase.request? = some r) :
    (OrderedDict.get d.pending call.key = none ∧ OrderedDict.get d'.pending call.key = some r) ∨
      (call.phase.request? = some r ∧
        OrderedDict.get d'.pending call.key = OrderedDict.get d.pending call.key) := by
  have hleaves : Leaving d d' call phase → False := by
    intro hleaving
    cases hleaving with
    | kept hphase _ => simp [request?_of_finished hphase] at hr
    | settles _ _ _ _ => cases hr
    | dropped hphase _ _ =>
        rcases hphase with ⟨hphase, -⟩ | ⟨⟨error, rfl⟩, -⟩
        · simp [request?_of_finished hphase] at hr
        · cases hr
  cases h with
  | finished hphase _ _ _ _ => simp [request?_of_finished hphase] at hr
  | joined hphase hfree hpending _ _ =>
      left
      rcases hphase with ⟨rfl, -⟩ | ⟨rfl, -⟩
      · cases hr
        exact ⟨hfree, hpending⟩
      · cases hr
        exact ⟨hfree, hpending⟩
  | opened hphase _ hpending _ _ =>
      right
      cases hr
      exact ⟨by rw [hphase]; rfl, hpending⟩
  | left _ _ hleaving _ => exact (hleaves hleaving).elim
  | settled _ _ _ hleaving _ => exact (hleaves hleaving).elim

/-- The key of a step holds what it held, a new request of the call, or nothing after the
request of the call. -/
theorem Move.pending_cases (h : Move d d' call phase) :
    OrderedDict.get d'.pending call.key = OrderedDict.get d.pending call.key ∨
      OrderedDict.get d.pending call.key = none ∨
      (call.phase.request?.isSome = true ∧ OrderedDict.get d'.pending call.key = none) := by
  cases h with
  | finished _ _ hpending _ _ => exact .inl hpending
  | joined _ hfree _ _ _ => exact .inr (.inl hfree)
  | opened _ _ hpending _ _ => exact .inl hpending
  | left hown hpending _ _ => exact .inr (.inr ⟨hown, hpending⟩)
  | settled _ _ hpending _ _ => exact .inl hpending

/-- The phase that a step goes to. -/
theorem Move.fits (h : Move d d' call phase) (hfits : PhaseFits d call.key call.phase) :
    PhaseFits d' call.key phase := by
  have houtcome := h.topicMove.outcome
  have hleaves : Leaving d d' call phase → PhaseFits d' call.key phase := by
    intro hleaving
    cases hleaving with
    | kept hphase _ => exact .of_finished _ hphase
    | settles _ hkept hready _ => exact fun _ => hkept.ready.trans hready
    | dropped hphase _ _ =>
        rcases hphase with ⟨hphase, -⟩ | ⟨⟨error, rfl⟩, -⟩
        · exact .of_finished _ hphase
        · trivial
  cases h with
  | finished hphase _ _ _ _ => exact .of_finished _ hphase
  | joined hphase _ hpending hready _ =>
      rcases hphase with ⟨rfl, -⟩ | ⟨rfl, htrue⟩
      · exact ⟨hpending, hready⟩
      · exact ⟨hpending, _, hready, htrue⟩
  | opened hphase htrue hpending hkept _ =>
      rw [hphase] at hfits
      exact ⟨hpending.trans hfits.1, _, hkept.ready.trans hfits.2, houtcome ▸ htrue⟩
  | left _ _ hleaving _ => exact hleaves hleaving
  | settled _ _ _ hleaving _ => exact hleaves hleaving

namespace Moves

theorem getElem?_calls (h : Moves c call d d' phase) (hcall : d.calls[c]? = some call) {c' : Nat}
    {call' : RequestCall} : d'.calls[c']? = some call' ↔
      (c' = c ∧ call' = { call with phase }) ∨ (c' ≠ c ∧ d.calls[c']? = some call') := by
  rw [h.calls]
  exact TaskList.getElem?_modify_iff hcall

/-- The request of another call. -/
theorem pending_other (h : Moves c call d d' phase) (haccounts : Accounted d)
    (hcall : d.calls[c]? = some call) {c' : Nat} {call' : RequestCall} (hne : c' ≠ c)
    (hcall' : d.calls[c']? = some call') (hr : call'.phase.request?.isSome = true) :
    OrderedDict.get d'.pending call'.key = OrderedDict.get d.pending call'.key := by
  by_cases hkey : call'.key = call.key
  · obtain ⟨r, hrequest⟩ := Option.isSome_iff_exists.mp hr
    have hpending := (haccounts.fits c' call' hcall').pending hrequest
    rw [hkey] at hpending ⊢
    rcases h.move.pending_cases with hsame | hfree | ⟨hown, -⟩
    · exact hsame
    · rw [hpending] at hfree
      cases hfree
    · exact absurd (haccounts.unique c' c call' call hcall' hcall hr hown hkey) hne
  · exact h.pending _ hkey

/-- The topic of another call with a request. -/
theorem ready_other (h : Moves c call d d' phase) (haccounts : Accounted d)
    (hcall : d.calls[c]? = some call) {c' : Nat} {call' : RequestCall} (hne : c' ≠ c)
    (hcall' : d.calls[c']? = some call') (hr : call'.phase.request?.isSome = true) :
    d'.readyOf call'.key.1 = d.readyOf call'.key.1 := by
  by_cases htopic : call'.key.1 = call.key.1
  · have hready := (haccounts.fits c' call' hcall').ready hr
    rw [htopic] at hready ⊢
    cases h.move.topicMove with
    | kept hkept _ => exact hkept.ready
    | fresh hnone _ _ _ =>
        rw [hnone] at hready
        cases hready
    | dropped _ hfree _ _ =>
        obtain ⟨r, hrequest⟩ := Option.isSome_iff_exists.mp hr
        have hpending := (haccounts.fits c' call' hcall').pending hrequest
        rw [← h.pending_other haccounts hcall hne hcall' hr, hfree _ htopic] at hpending
        cases hpending
  · exact (h.topics _ htopic).ready

/-- A step of a call keeps the accounts. -/
theorem accounted (h : Moves c call d d' phase) (haccounts : Accounted d)
    (hcall : d.calls[c]? = some call) (hinterests : Interests none d') : Accounted d' where
  interests := hinterests
  bound := by
    rw [h.protocol]
    exact haccounts.bound
  fits c' call' hcall' := by
    rcases (h.getElem?_calls hcall).mp hcall' with ⟨rfl, rfl⟩ | ⟨hne, hold⟩
    · exact h.move.fits (haccounts.fits _ _ hcall)
    · refine (haccounts.fits _ _ hold).transfer h.move.topicMove.outcome (fun hr =>
        ⟨h.pending_other haccounts hcall hne hold hr, h.ready_other haccounts hcall hne hold hr⟩) ?_
      intro i t error hphase hget
      by_cases htopic : call'.key.1 = call.key.1
      · rw [htopic] at hget ⊢
        have hlt := (haccounts.interests.settled c' call' i t error hold hphase).1
        exact h.move.topicMove.get_topics haccounts hlt hget
      · obtain ⟨hsame, hready⟩ := h.topics _ htopic
        exact ⟨hsame ▸ hget, hready⟩
  unique := by
    -- the call that has moved, and another one
    have hown : ∀ (c' : Nat) (call' : RequestCall), c' ≠ c → d.calls[c']? = some call' →
        phase.request?.isSome = true → call'.phase.request?.isSome = true →
        call.key ≠ call'.key := by
      intro c' call' hne hcall' hr hr' hkey
      obtain ⟨r, hrequest⟩ := Option.isSome_iff_exists.mp hr
      obtain ⟨r', hrequest'⟩ := Option.isSome_iff_exists.mp hr'
      rcases h.move.request_cases hrequest with ⟨hfree, -⟩ | ⟨hold, -⟩
      · have hpending := (haccounts.fits c' call' hcall').pending hrequest'
        rw [← hkey, hfree] at hpending
        cases hpending
      · have hr : call.phase.request?.isSome = true := by
          rw [hold]
          rfl
        exact hne (haccounts.unique c c' call call' hcall hcall' hr hr' hkey).symm
    intro c₁ c₂ call₁ call₂ h₁ h₂ hr₁ hr₂ hkey
    rcases (h.getElem?_calls hcall).mp h₁ with ⟨rfl, rfl⟩ | ⟨hne₁, hold₁⟩
    · rcases (h.getElem?_calls hcall).mp h₂ with ⟨rfl, rfl⟩ | ⟨hne₂, hold₂⟩
      · rfl
      · exact absurd hkey (hown c₂ call₂ hne₂ hold₂ hr₁ hr₂)
    · rcases (h.getElem?_calls hcall).mp h₂ with ⟨rfl, rfl⟩ | ⟨hne₂, hold₂⟩
      · exact absurd hkey.symm (hown c₁ call₁ hne₁ hold₁ hr₂ hr₁)
      · exact haccounts.unique c₁ c₂ call₁ call₂ hold₁ hold₂ hr₁ hr₂ hkey
  owned key r hget := by
    -- the owner of a request that was there, if it is not the call that has moved
    have hother : ∀ {key r}, OrderedDict.get d.pending key = some r →
        (key = call.key → call.phase.request? ≠ some r) →
        ∃ (c : Nat) (call : RequestCall), d'.calls[c]? = some call ∧ call.key = key ∧
          call.phase.request? = some r := by
      intro key r hold hmoved
      obtain ⟨c', call', hcall', hkey, hrequest⟩ := haccounts.owned key r hold
      refine ⟨c', call', (h.getElem?_calls hcall).mpr (.inr ⟨?_, hcall'⟩), hkey, hrequest⟩
      rintro rfl
      rw [hcall] at hcall'
      cases hcall'
      exact hmoved hkey.symm hrequest
    have hself : d'.calls[c]? = some { call with phase } :=
      (h.getElem?_calls hcall).mpr (.inl ⟨rfl, rfl⟩)
    by_cases hkey : key = call.key
    · subst hkey
      cases h.move with
      | finished _ hrequest hpending _ _ =>
          rw [hpending] at hget
          exact hother hget fun _ hr => hrequest r hr hget
      | joined hphase _ hpending _ _ =>
          rw [hpending] at hget
          cases hget
          refine ⟨c, _, hself, rfl, ?_⟩
          rcases hphase with ⟨rfl, -⟩ | ⟨rfl, -⟩ <;> rfl
      | opened hphase _ hpending _ _ =>
          have hfits := haccounts.fits c call hcall
          rw [hphase] at hfits
          rw [hpending, hfits.1] at hget
          cases hget
          exact ⟨c, _, hself, rfl, rfl⟩
      | left _ hpending _ _ =>
          rw [hpending] at hget
          cases hget
      | settled hown _ hpending _ _ =>
          rw [hpending] at hget
          exact hother hget fun _ hr => by rw [hown] at hr; cases hr
    · rw [h.pending key hkey] at hget
      exact hother hget fun heq => absurd heq hkey
  listed topic i hget := by
    by_cases htopic : topic = call.key.1
    · subst htopic
      exact h.move.topicMove.listed haccounts hget
    · obtain ⟨hsame, hready⟩ := h.topics _ htopic
      rw [hready]
      exact haccounts.listed topic i (hsame ▸ hget)
  running t task htask hnone := by
    rcases h.move.topicMove.readyTasks_cases htask with hold | ⟨htopic, hready⟩
    · have hready := haccounts.running t task hold hnone
      by_cases htopic : task.topic = call.key.1
      · rw [htopic] at hready ⊢
        refine h.move.topicMove.running hready ?_
        unfold outcome
        rw [hold]
        exact hnone
      · exact (h.topics _ htopic).ready.trans hready
    · rwa [htopic]
  tasks topic t hready := by
    by_cases htopic : topic = call.key.1
    · subst htopic
      exact h.move.topicMove.tasks haccounts hready
    · obtain ⟨task, htask, hsame⟩ := haccounts.tasks topic t ((h.topics _ htopic).ready ▸ hready)
      exact ⟨task, h.move.topicMove.getElem?_readyTasks htask, hsame⟩

end Moves

/-! ## The other steps -/

/-- A call is made, or a future or a claim changes. -/
structure Unmoved (d d' : RequestDispatcher) : Prop where
  calls : ∃ new : List RequestCall, d'.calls = d.calls ++ new ∧
    ∀ call ∈ new, call.phase = .acquiring
  protocol : d'.protocol = d.protocol
  pending : d'.pending = d.pending
  topics : d'.topics = d.topics
  interests : d'.interests = d.interests
  tasks : d'.readyTasks = d.readyTasks

namespace Unmoved

theorem readyOf (h : Unmoved d d') : d'.readyOf = d.readyOf := by
  funext topic
  unfold RequestDispatcher.readyOf interest
  rw [h.topics, h.interests]

theorem outcome (h : Unmoved d d') : d'.outcome = d.outcome := by
  funext t
  unfold RequestDispatcher.outcome
  rw [h.tasks]

theorem of_same (hcalls : d'.calls = d.calls) (hprotocol : d'.protocol = d.protocol)
    (hpending : d'.pending = d.pending) (htopics : d'.topics = d.topics)
    (hinterests : d'.interests = d.interests) (htasks : d'.readyTasks = d.readyTasks) :
    Unmoved d d' :=
  ⟨⟨[], by rw [hcalls, List.append_nil], fun _ hmem => absurd hmem List.not_mem_nil⟩, hprotocol,
    hpending, htopics, hinterests, htasks⟩

theorem getElem?_calls (h : Unmoved d d') {c : Nat} {call : RequestCall}
    (hcall : d.calls[c]? = some call) : d'.calls[c]? = some call := by
  obtain ⟨new, hcalls, -⟩ := h.calls
  rw [hcalls, List.getElem?_append_left (List.getElem?_eq_some_iff.mp hcall).1]
  exact hcall

theorem calls_cases (h : Unmoved d d') {c : Nat} {call : RequestCall}
    (hcall : d'.calls[c]? = some call) : d.calls[c]? = some call ∨ call.phase = .acquiring := by
  obtain ⟨new, hcalls, hnew⟩ := h.calls
  rw [hcalls] at hcall
  by_cases hlt : c < d.calls.length
  · exact .inl (List.getElem?_append_left hlt ▸ hcall)
  · rw [List.getElem?_append_right (by omega)] at hcall
    exact .inr (hnew call (List.mem_of_getElem? hcall))

/-- A call with a request was there. -/
theorem calls_of_request (h : Unmoved d d') {c : Nat} {call : RequestCall}
    (hcall : d'.calls[c]? = some call) (hr : call.phase.request?.isSome = true) :
    d.calls[c]? = some call := by
  rcases h.calls_cases hcall with hold | hphase
  · exact hold
  · rw [hphase] at hr
    cases hr

theorem accounted (h : Unmoved d d') (haccounts : Accounted d) (hinterests : Interests none d') :
    Accounted d' where
  interests := hinterests
  bound := by
    rw [h.protocol]
    exact haccounts.bound
  fits c call hcall := by
    rcases h.calls_cases hcall with hold | hphase
    · have hfits := haccounts.fits c call hold
      refine hfits.transfer h.outcome (fun _ => ⟨by rw [h.pending], by rw [h.readyOf]⟩) ?_
      intro i t error _ hget
      exact ⟨h.topics ▸ hget, by rw [h.readyOf]⟩
    · rw [hphase]
      trivial
  unique c c' call call' hcall hcall' hr hr' :=
    haccounts.unique c c' call call' (h.calls_of_request hcall hr) (h.calls_of_request hcall' hr')
      hr hr'
  owned key r hget := by
    obtain ⟨c, call, hcall, hrest⟩ := haccounts.owned key r (h.pending ▸ hget)
    exact ⟨c, call, h.getElem?_calls hcall, hrest⟩
  listed topic i hget := by
    rw [h.readyOf]
    exact haccounts.listed topic i (h.topics ▸ hget)
  running t task htask hnone := by
    rw [h.readyOf]
    exact haccounts.running t task (h.tasks ▸ htask) hnone
  tasks topic t hready := by
    rw [h.tasks]
    exact haccounts.tasks topic t (h.readyOf ▸ hready)

end Unmoved

/-- The steps that run no call, on one connection. -/
def Action.isBackground : Action → Bool
  | .register _ => true
  | .claim _ => true
  | .deliver _ => true
  | _ => false

theorem unmoved_step {a : Action} (ha : a.isBackground = true) (hstep : d.step a = some d') :
    Unmoved d d' := by
  cases a with
  | register key =>
      cases hstep
      refine ⟨⟨[{ key }], rfl, fun call hmem => ?_⟩, rfl, rfl, rfl, rfl, rfl⟩
      rw [List.mem_singleton.mp hmem]
  | claim message =>
      cases hstep
      unfold claim
      split
      · exact .of_same rfl rfl rfl rfl rfl rfl
      · dsimp only
        split
        · exact .of_same rfl rfl rfl rfl rfl rfl
        · split <;> exact .of_same rfl rfl rfl rfl rfl rfl
  | deliver i =>
      obtain ⟨response, -, rfl⟩ := Option.map_eq_some_iff.mp hstep
      unfold complete
      split <;> exact .of_same rfl rfl rfl rfl rfl rfl
  | _ => cases ha

/-! ## The end of a task -/

/-- A task ends. -/
def taskDone (d : RequestDispatcher) (t : Nat) (ok : Bool) : RequestDispatcher :=
  { d with readyTasks := d.readyTasks.modify t fun task =>
      { task with outcome := some (task.outcome.getD ok) } }

theorem getElem?_taskDone {t t' : Nat} {ok : Bool} {task : ReadyTask}
    (htask : (d.taskDone t ok).readyTasks[t']? = some task) :
    ∃ old, d.readyTasks[t']? = some old ∧ old.topic = task.topic ∧
      task.outcome = if t = t' then some (old.outcome.getD ok) else old.outcome := by
  unfold taskDone at htask
  rw [List.getElem?_modify] at htask
  obtain ⟨old, hold, rfl⟩ := Option.map_eq_some_iff.mp htask
  refine ⟨old, hold, ?_, ?_⟩ <;> split <;> rfl

/-- What a task that was there has become. -/
theorem getElem?_taskDone_of {t' : Nat} {task : ReadyTask}
    (htask : d.readyTasks[t']? = some task) (t : Nat) (ok : Bool) :
    ∃ new, (d.taskDone t ok).readyTasks[t']? = some new ∧ new.topic = task.topic ∧
      new.outcome = if t = t' then some (task.outcome.getD ok) else task.outcome := by
  unfold taskDone
  simp only [List.getElem?_modify, htask]
  refine ⟨_, rfl, ?_, ?_⟩ <;> split <;> rfl

theorem outcome_taskDone_ne {t t' : Nat} (hne : t ≠ t') (ok : Bool) :
    (d.taskDone t ok).outcome t' = d.outcome t' := by
  unfold outcome taskDone
  rw [List.getElem?_modify_ne _ _ hne]

theorem outcome_taskDone_self {t : Nat} {task : ReadyTask} (htask : d.readyTasks[t]? = some task)
    (hnone : task.outcome = none) (ok : Bool) : (d.taskDone t ok).outcome t = some ok := by
  obtain ⟨new, hnew, -, houtcome⟩ := getElem?_taskDone_of htask t ok
  rw [if_pos rfl, hnone] at houtcome
  unfold outcome
  rw [hnew]
  exact houtcome

/-- A task that has ended has ended as it did. -/
theorem outcome_taskDone_of_some {t t' : Nat} {b : Bool} (h : d.outcome t' = some b) (ok : Bool) :
    (d.taskDone t ok).outcome t' = some b := by
  obtain ⟨task, htask, houtcome⟩ := Option.bind_eq_some_iff.mp h
  obtain ⟨new, hnew, -, hnewOutcome⟩ := getElem?_taskDone_of htask t ok
  unfold outcome
  rw [hnew]
  show new.outcome = some b
  rw [hnewOutcome, houtcome]
  split <;> rfl

theorem Accounted.taskDone (haccounts : Accounted d) (t : Nat) (ok : Bool) :
    Accounted (d.taskDone t ok) where
  interests := haccounts.interests.of_same rfl rfl rfl (fun _ => rfl) rfl
  bound := haccounts.bound
  fits c call hcall := by
    have hfits := haccounts.fits c call hcall
    revert hfits
    cases call.phase with
    | registered r =>
        rintro ⟨hpending, t', hready, htrue⟩
        exact ⟨hpending, t', hready, outcome_taskDone_of_some htrue ok⟩
    | _ => exact id
  unique := haccounts.unique
  owned := haccounts.owned
  listed := haccounts.listed
  running t' task htask hnone := by
    obtain ⟨old, hold, htopic, houtcome⟩ := getElem?_taskDone htask
    rw [hnone] at houtcome
    split at houtcome
    · cases houtcome
    · rw [← htopic]
      exact haccounts.running t' old hold houtcome.symm
  tasks topic t' hready := by
    obtain ⟨task, htask, htopic⟩ := haccounts.tasks topic t' hready
    obtain ⟨new, hnew, hsame, -⟩ := getElem?_taskDone_of htask t ok
    exact ⟨new, hnew, hsame.trans htopic⟩

/-! ## Idle topics -/

/-- A topic that has a task has a call in progress. -/
theorem Accounted.busy (haccounts : Accounted d) {topic : Str} {t : Nat}
    (hready : d.readyOf topic = some t) : ∃ call ∈ d.calls, isFinished call.phase = false := by
  obtain ⟨i, hi, -⟩ := Option.bind_eq_some_iff.mp hready
  by_cases hzero : d.onTopic topic = 0
  · obtain ⟨c, call, ready, error, hcall, hphase⟩ :=
      haccounts.interests.needed topic i hi hzero (Option.some_ne_none i)
    refine ⟨call, List.mem_of_getElem? hcall, ?_⟩
    rw [hphase]
    rfl
  · rw [onTopic_eq_zero] at hzero
    push Not at hzero
    obtain ⟨key, hkey, -⟩ := hzero
    obtain ⟨r, hr⟩ := (OrderedDict.mem_keys_iff _ _).mp hkey
    obtain ⟨c, call, hcall, -, hrequest⟩ := haccounts.owned key r hr
    refine ⟨call, List.mem_of_getElem? hcall, ?_⟩
    cases hphase : isFinished call.phase with
    | false => rfl
    | true =>
        rw [request?_of_finished hphase] at hrequest
        cases hrequest

theorem Accounted.start (maxPendingRequests : Nat) :
    Accounted ((RequestDispatcher.start maxPendingRequests).bind 0) where
  interests := ((Balanced.start maxPendingRequests).bind 0).interests
  bound := rfl
  fits c call hcall := by cases hcall
  unique c c' call call' hcall := by cases hcall
  owned key r hget := by cases hget
  listed topic i hget := by cases hget
  running t task htask := by cases htask
  tasks topic t hready := by cases hready

end RequestDispatcher

end Zmqtt
