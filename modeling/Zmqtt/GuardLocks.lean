import Mathlib.Data.Finset.Max
import Mathlib.Logic.Relation
import Zmqtt.SubscriptionGuards
import Zmqtt.TaskList
import Zmqtt.Transition

/-!
# The locks behind the subscription guards

`_SubscriptionGuards` with its guard objects.  A guard is created when the first call
names its filter, counts the calls that have named it and not yet left, and is dropped
when the last one leaves.  A call counts itself in at all its guards before it waits
for the first, so a guard that anybody waits for is never dropped, and the dictionary
has the guard of every call in progress.

A lock is the call that holds it: `acquire` succeeds when there is none.  The locks of
a call are taken in the order of the filters, so along a chain of waiting calls the
filters that they wait for grow, and no chain closes.
-/

namespace Zmqtt

/-- `_SubscriptionGuard`; `holder` is the call that has the lock. -/
structure SubscriptionGuard where
  holder : Option Nat := none
  users : Int := 0
deriving DecidableEq, Repr

/-- Where a call of `hold` is: waiting for its next lock, in the body of `async with`,
or past its `finally`. -/
inductive HoldPhase
  | acquiring
  | inside
  | finished
deriving DecidableEq, Repr

/-- A call of `hold`. -/
structure Hold where
  filters : List Str
  entries : List (Str × Nat)
  acquired : Nat := 0
  phase : HoldPhase
deriving DecidableEq, Repr

/-- The call has counted itself in and not yet out. -/
def Hold.running (call : Hold) : Bool := decide (call.phase ≠ .finished)

/-- The entries the call is counted at. -/
def Hold.enrolled (call : Hold) : List (Str × Nat) := if call.running then call.entries else []

/-- The entries whose lock the call has. -/
def Hold.locked (call : Hold) : List (Str × Nat) := call.entries.take call.acquired

/-- The call has one more lock; with the last it enters its body. -/
def Hold.advance (call : Hold) : Hold :=
  { call with
    acquired := call.acquired + 1
    phase := if call.acquired + 1 = call.entries.length then .inside else .acquiring }

theorem Hold.advance_running (call : Hold) : call.advance.running = true := by
  unfold Hold.advance Hold.running
  split <;> rfl

/-- `_SubscriptionGuards` with every guard object and every call there was. -/
structure GuardTable where
  objects : List SubscriptionGuard := []
  guards : List (Str × Nat) := []
  holds : List Hold := []
deriving DecidableEq, Repr

namespace GuardTable

def modifyGuard (s : GuardTable) (o : Nat) (f : SubscriptionGuard → SubscriptionGuard) :
    GuardTable :=
  { s with objects := s.objects.modify o f }

/-- `self._guards.setdefault(filter_, _SubscriptionGuard())`. -/
def setdefault (s : GuardTable) (filter : Str) : GuardTable × Nat :=
  match OrderedDict.get s.guards filter with
  | some o => (s, o)
  | none =>
      ({ s with
          objects := s.objects ++ [{}]
          guards := OrderedDict.set s.guards filter s.objects.length },
        s.objects.length)

/-- One round of the first loop of `hold`. -/
def countIn (s : GuardTable) (filter : Str) : GuardTable × Nat :=
  let found := s.setdefault filter
  (found.1.modifyGuard found.2 fun guard => { guard with users := guard.users + 1 }, found.2)

/-- The first loop of `hold`, and its `entries`. -/
def enroll (s : GuardTable) : List Str → GuardTable × List (Str × Nat)
  | [] => (s, [])
  | filter :: rest =>
      let counted := s.countIn filter
      let tail := counted.1.enroll rest
      (tail.1, (filter, counted.2) :: tail.2)

/-- A call that has counted itself in.  Without filters it is in its body at once. -/
def newHold (filters : List Str) (entries : List (Str × Nat)) : Hold :=
  { filters, entries, phase := if entries = [] then .inside else .acquiring }

/-- `hold` up to its first `acquire`. -/
def hold (s : GuardTable) (filters : List Str) : GuardTable :=
  let enrolled := s.enroll (guardOrder filters)
  { enrolled.1 with holds := enrolled.1.holds ++ [newHold filters enrolled.2] }

def holderOf (s : GuardTable) (o : Nat) : Option Nat := s.objects[o]?.elim none SubscriptionGuard.holder

def usersOf (s : GuardTable) (o : Nat) : Int := s.objects[o]?.elim 0 SubscriptionGuard.users

/-- The locks of the entries are released. -/
def release (s : GuardTable) (entries : List (Str × Nat)) : GuardTable :=
  entries.foldl (fun s entry => s.modifyGuard entry.2 fun guard => { guard with holder := none }) s

/-- One round of the last loop of `hold`. -/
def countOut (s : GuardTable) (entry : Str × Nat) : GuardTable :=
  let s := s.modifyGuard entry.2 fun guard => { guard with users := guard.users - 1 }
  if s.usersOf entry.2 = 0 then { s with guards := OrderedDict.pop s.guards entry.1 } else s

/-- The `finally` of `hold`. -/
def leave (s : GuardTable) (c : Nat) (call : Hold) : GuardTable :=
  let s := s.release call.locked.reverse
  let s := call.entries.foldl countOut s
  { s with holds := s.holds.modify c fun call => { call with phase := .finished } }

/-- The call takes a lock. -/
def takeLock (s : GuardTable) (c o : Nat) : GuardTable :=
  { s.modifyGuard o fun guard => { guard with holder := some c } with
    holds := s.holds.modify c Hold.advance }

/-- The lock the call waits for is free, and it takes it. -/
def acquire (s : GuardTable) (c : Nat) (call : Hold) : Option GuardTable :=
  match call.phase, call.entries[call.acquired]? with
  | .acquiring, some (_, o) =>
      if s.holderOf o = none then some (s.takeLock c o) else none
  | _, _ => none

inductive Action
  | hold (filters : List Str)
  | acquire (c : Nat)
  /-- The body returns, raises or is cancelled. -/
  | leave (c : Nat)
  /-- The call is cancelled in `acquire`. -/
  | cancel (c : Nat)

def step (s : GuardTable) : Action → Option GuardTable
  | .hold filters => some (s.hold filters)
  | .acquire c => s.holds[c]?.bind fun call => s.acquire c call
  | .leave c =>
      s.holds[c]?.bind fun call => if call.phase = .inside then some (s.leave c call) else none
  | .cancel c =>
      s.holds[c]?.bind fun call => if call.phase = .acquiring then some (s.leave c call) else none

/-! ## Guards and the calls counted in -/

variable {s : GuardTable} {counted counted' : List (Str × Nat)} {entry : Str × Nat} {o : Nat}
  {filter : Str}

/-- The dictionary has the guards of the counted entries and no others, and every
guard knows how often it is counted. -/
structure Registered (s : GuardTable) (counted : List (Str × Nat)) : Prop where
  users : ∀ o, s.usersOf o = counted.countP fun entry => entry.2 = o
  isObject : ∀ entry ∈ counted, entry.2 < s.objects.length
  mapped : ∀ entry ∈ counted, OrderedDict.get s.guards entry.1 = some entry.2
  used : ∀ filter o, OrderedDict.get s.guards filter = some o → (filter, o) ∈ counted
  single : ∀ entry ∈ counted, ∀ other ∈ counted, entry.2 = other.2 → entry.1 = other.1

theorem Registered.perm (h : s.Registered counted) (hperm : counted.Perm counted') :
    s.Registered counted' where
  users := fun o => by rw [h.users, hperm.countP_eq]
  isObject := fun entry hentry => h.isObject entry (hperm.mem_iff.mpr hentry)
  mapped := fun entry hentry => h.mapped entry (hperm.mem_iff.mpr hentry)
  used := fun filter o hget => hperm.mem_iff.mp (h.used filter o hget)
  single := fun entry hentry other hother =>
    h.single entry (hperm.mem_iff.mpr hentry) other (hperm.mem_iff.mpr hother)

theorem Registered.congr {s' : GuardTable} (h : s.Registered counted)
    (husers : ∀ o, s'.usersOf o = s.usersOf o) (hlength : s'.objects.length = s.objects.length)
    (hguards : s'.guards = s.guards) : s'.Registered counted where
  users := fun o => by rw [husers, h.users]
  isObject := by rw [hlength]; exact h.isObject
  mapped := by rw [hguards]; exact h.mapped
  used := by rw [hguards]; exact h.used
  single := h.single

/-- A new object that reads like none. -/
theorem elim_append_new {α β : Type} (objects : List α) (o : Nat) {new : α} {d : β} {g : α → β}
    (hnew : g new = d) : (objects ++ [new])[o]?.elim d g = objects[o]?.elim d g := by
  rcases Nat.lt_trichotomy o objects.length with hlt | heq | hgt
  · rw [List.getElem?_append_left hlt]
  · subst heq
    simp [hnew]
  · have hnone : (objects ++ [new])[o]? = none := List.getElem?_eq_none (by simp; omega)
    have hnone' : objects[o]? = none := List.getElem?_eq_none (by omega)
    rw [hnone, hnone']

theorem usersOf_modifyUsers (f : Int → Int) (hlt : o < s.objects.length) (o' : Nat) :
    (s.modifyGuard o fun guard => { guard with users := f guard.users }).usersOf o' =
      if o = o' then f (s.usersOf o) else s.usersOf o' := by
  unfold usersOf modifyGuard
  by_cases heq : o = o'
  · subst heq
    simp [hlt]
  · simp [List.getElem?_modify_ne, heq]

theorem holderOf_modifyGuard (f : SubscriptionGuard → SubscriptionGuard) (o o' : Nat) :
    (s.modifyGuard o f).holderOf o' =
      if o = o' then s.objects[o]?.elim none fun guard => (f guard).holder else s.holderOf o' := by
  unfold holderOf modifyGuard
  by_cases heq : o = o'
  · subst heq
    cases hget : s.objects[o]? <;> simp [hget]
  · simp [List.getElem?_modify_ne, heq]

/-- Counting in or out does not touch the locks. -/
theorem holderOf_modifyUsers (s : GuardTable) (o : Nat) (f : Int → Int) (o' : Nat) :
    (s.modifyGuard o fun guard => { guard with users := f guard.users }).holderOf o' =
      s.holderOf o' := by
  rw [holderOf_modifyGuard]
  split
  · rename_i heq
    subst heq
    rfl
  · rfl

/-- A call counts itself in at one guard. -/
theorem Registered.countIn (h : s.Registered counted) (filter : Str) :
    (s.countIn filter).1.Registered ((filter, (s.countIn filter).2) :: counted) := by
  unfold GuardTable.countIn setdefault
  cases hget : OrderedDict.get s.guards filter with
  | some o =>
      have hmem := h.used filter o hget
      have hlt : o < s.objects.length := h.isObject _ hmem
      refine ⟨?_, ?_, ?_, ?_, ?_⟩
      · intro o'
        dsimp only
        rw [usersOf_modifyUsers (fun n => n + 1) hlt, List.countP_cons, h.users, h.users]
        by_cases heq : o = o'
        · subst heq
          simp
        · simp [heq]
      · simp only [modifyGuard, List.length_modify, List.forall_mem_cons]
        exact ⟨hlt, h.isObject⟩
      · simp only [modifyGuard, List.forall_mem_cons]
        exact ⟨hget, h.mapped⟩
      · intro filter' o' hget'
        exact List.mem_cons_of_mem _ (h.used filter' o' hget')
      · -- the entry is one of those that are there
        intro entry hentry other hother
        have hthere : ∀ entry ∈ (filter, o) :: counted, entry ∈ counted := by
          simp only [List.forall_mem_cons]
          exact ⟨hmem, fun _ hentry => hentry⟩
        exact h.single entry (hthere entry hentry) other (hthere other hother)
  | none =>
      have hfresh : ∀ entry ∈ counted, entry.2 ≠ s.objects.length :=
        fun entry hentry => Nat.ne_of_lt (h.isObject entry hentry)
      have hnew : ∀ entry ∈ counted, entry.1 ≠ filter := by
        intro entry hentry heq
        have hmapped := h.mapped entry hentry
        rw [heq, hget] at hmapped
        cases hmapped
      have husers : ∀ o', usersOf { s with
          objects := s.objects ++ [{}]
          guards := OrderedDict.set s.guards filter s.objects.length } o' = s.usersOf o' := by
        intro o'
        exact elim_append_new s.objects o' rfl
      refine ⟨?_, ?_, ?_, ?_, ?_⟩
      · intro o'
        dsimp only
        rw [usersOf_modifyUsers (fun n => n + 1) (by simp), List.countP_cons, husers, husers,
          h.users, h.users]
        by_cases heq : s.objects.length = o'
        · subst heq
          simp
        · simp [heq]
      · simp only [modifyGuard, List.length_modify, List.length_append, List.length_singleton,
          List.forall_mem_cons]
        exact ⟨by omega, fun entry hentry => Nat.lt_succ_of_lt (h.isObject entry hentry)⟩
      · simp only [modifyGuard, List.forall_mem_cons, OrderedDict.get_set]
        refine ⟨by simp, fun entry hentry => ?_⟩
        rw [if_neg (fun heq => hnew entry hentry heq.symm)]
        exact h.mapped entry hentry
      · intro filter' o' hget'
        simp only [modifyGuard, OrderedDict.get_set] at hget'
        split at hget'
        · rename_i heq
          cases hget'
          subst heq
          exact List.mem_cons_self
        · exact List.mem_cons_of_mem _ (h.used filter' o' hget')
      · intro entry hentry other hother heq
        rcases List.mem_cons.mp hentry with rfl | hentry
        · rcases List.mem_cons.mp hother with rfl | hother
          · rfl
          · exact absurd heq.symm (hfresh other hother)
        · rcases List.mem_cons.mp hother with rfl | hother
          · exact absurd heq (hfresh entry hentry)
          · exact h.single entry hentry other hother heq

theorem countIn_holderOf (s : GuardTable) (filter : Str) (o : Nat) :
    (s.countIn filter).1.holderOf o = s.holderOf o := by
  unfold countIn
  dsimp only
  rw [holderOf_modifyUsers _ _ fun n => n + 1]
  unfold setdefault
  split
  · rfl
  · -- a new lock is free
    exact elim_append_new s.objects o rfl

/-- A call counts itself out at one guard, and the last one drops it. -/
theorem Registered.countOut (h : s.Registered (entry :: counted)) :
    (s.countOut entry).Registered counted := by
  obtain ⟨filter, o⟩ := entry
  have hlt : o < s.objects.length := h.isObject _ List.mem_cons_self
  have hget : OrderedDict.get s.guards filter = some o := h.mapped _ List.mem_cons_self
  have husers : ∀ o', (s.modifyGuard o fun guard =>
      { guard with users := guard.users - 1 }).usersOf o' =
        counted.countP fun entry => entry.2 = o' := by
    intro o'
    rw [usersOf_modifyUsers (fun n => n - 1) hlt, h.users, h.users, List.countP_cons,
      List.countP_cons]
    by_cases heq : o = o'
    · subst heq
      simp
    · simp [heq]
  unfold GuardTable.countOut
  dsimp only
  by_cases hlast : (s.modifyGuard o fun guard =>
      { guard with users := guard.users - 1 }).usersOf o = 0
  · rw [if_pos hlast]
    -- nobody else is counted at this guard
    rw [husers] at hlast
    have hnone : ∀ entry ∈ counted, entry.2 ≠ o := by
      intro entry hentry heq
      have hpos : 0 < counted.countP fun entry => entry.2 = o :=
        List.countP_pos_iff.mpr ⟨entry, hentry, by simpa using heq⟩
      omega
    have hother : ∀ entry ∈ counted, entry.1 ≠ filter := by
      intro entry hentry heq
      have hmapped := h.mapped entry (List.mem_cons_of_mem _ hentry)
      rw [heq, hget] at hmapped
      exact hnone entry hentry (Option.some.inj hmapped).symm
    refine ⟨husers, ?_, ?_, ?_, ?_⟩
    · intro entry hentry
      simp only [modifyGuard, List.length_modify]
      exact h.isObject entry (List.mem_cons_of_mem _ hentry)
    · intro entry hentry
      simp only [modifyGuard, OrderedDict.get_pop]
      rw [if_neg (fun heq => hother entry hentry heq.symm)]
      exact h.mapped entry (List.mem_cons_of_mem _ hentry)
    · intro filter' o' hget'
      simp only [modifyGuard, OrderedDict.get_pop] at hget'
      split at hget'
      · cases hget'
      · rename_i hne
        rcases List.mem_cons.mp (h.used filter' o' hget') with heq | hmem
        · cases heq
          exact absurd rfl hne
        · exact hmem
    · exact fun entry hentry other hother' =>
        h.single entry (List.mem_cons_of_mem _ hentry) other (List.mem_cons_of_mem _ hother')
  · rw [if_neg hlast]
    rw [husers] at hlast
    -- somebody else is counted at it, under the same filter
    have hmore : (filter, o) ∈ counted := by
      have hpos : 0 < counted.countP fun entry => entry.2 = o := by omega
      obtain ⟨other, hother, heq⟩ := List.countP_pos_iff.mp hpos
      have heq : other.2 = o := by simpa using heq
      have hfilter := h.single other (List.mem_cons_of_mem _ hother) (filter, o) List.mem_cons_self heq
      obtain rfl : other = (filter, o) := Prod.ext hfilter heq
      exact hother
    refine ⟨husers, ?_, ?_, ?_, ?_⟩
    · intro entry hentry
      simp only [modifyGuard, List.length_modify]
      exact h.isObject entry (List.mem_cons_of_mem _ hentry)
    · exact fun entry hentry => h.mapped entry (List.mem_cons_of_mem _ hentry)
    · intro filter' o' hget'
      rcases List.mem_cons.mp (h.used filter' o' hget') with heq | hmem
      · rw [heq]
        exact hmore
      · exact hmem
    · exact fun entry hentry other hother' =>
        h.single entry (List.mem_cons_of_mem _ hentry) other (List.mem_cons_of_mem _ hother')

theorem countOut_holderOf (s : GuardTable) (entry : Str × Nat) (o : Nat) :
    (s.countOut entry).holderOf o = s.holderOf o := by
  have husers := s.holderOf_modifyUsers entry.2 (fun n => n - 1) o
  unfold countOut
  dsimp only
  split
  · exact husers
  · exact husers

/-! ## The loops of `hold` -/

theorem countIn_holds (s : GuardTable) (filter : Str) : (s.countIn filter).1.holds = s.holds := by
  unfold countIn setdefault
  dsimp only
  split <;> rfl

theorem countOut_holds (s : GuardTable) (entry : Str × Nat) : (s.countOut entry).holds = s.holds := by
  unfold countOut
  dsimp only
  split <;> rfl

theorem enroll_holds (s : GuardTable) (filters : List Str) :
    (s.enroll filters).1.holds = s.holds := by
  induction filters generalizing s with
  | nil => rfl
  | cons filter rest ih => exact (ih _).trans (s.countIn_holds filter)

theorem foldl_countOut_holds (s : GuardTable) (entries : List (Str × Nat)) :
    (entries.foldl countOut s).holds = s.holds := by
  induction entries generalizing s with
  | nil => rfl
  | cons entry rest ih => exact (ih _).trans (s.countOut_holds entry)

/-- The first loop counts the call in at each of its filters, in their order. -/
theorem enroll_spec (filters : List Str) :
    ∀ {s : GuardTable} {counted : List (Str × Nat)}, s.Registered counted →
      (s.enroll filters).1.Registered ((s.enroll filters).2 ++ counted) ∧
        (s.enroll filters).2.map Prod.fst = filters ∧
        ∀ o, (s.enroll filters).1.holderOf o = s.holderOf o := by
  induction filters with
  | nil => exact fun h => ⟨h, rfl, fun _ => rfl⟩
  | cons filter rest ih =>
      intro s counted h
      obtain ⟨hreg, hfilters, hholder⟩ := ih (h.countIn filter)
      refine ⟨hreg.perm List.perm_middle, ?_, fun o => ?_⟩
      · simp only [enroll, List.map_cons, hfilters]
      · exact (hholder o).trans (s.countIn_holderOf filter o)

/-- The last loop counts it out again. -/
theorem countOut_spec (entries : List (Str × Nat)) :
    ∀ {s : GuardTable} {counted : List (Str × Nat)}, s.Registered (entries ++ counted) →
      (entries.foldl countOut s).Registered counted ∧
        ∀ o, (entries.foldl countOut s).holderOf o = s.holderOf o := by
  induction entries with
  | nil => exact fun h => ⟨h, fun _ => rfl⟩
  | cons entry rest ih =>
      intro s counted h
      obtain ⟨hreg, hholder⟩ := ih (Registered.countOut h)
      exact ⟨hreg, fun o => (hholder o).trans (s.countOut_holderOf entry o)⟩

/-- The second loop of `finally` frees the locks it names and nothing else. -/
theorem release_spec (entries : List (Str × Nat)) (s : GuardTable) :
    (∀ o, (s.release entries).holderOf o =
        if o ∈ entries.map Prod.snd then none else s.holderOf o) ∧
      (∀ o, (s.release entries).usersOf o = s.usersOf o) ∧
      (s.release entries).objects.length = s.objects.length ∧
      (s.release entries).guards = s.guards ∧ (s.release entries).holds = s.holds := by
  induction entries generalizing s with
  | nil => exact ⟨fun o => by simp [release], fun _ => rfl, rfl, rfl, rfl⟩
  | cons entry rest ih =>
      obtain ⟨hholder, husers, hlength, hguards, hholds⟩ :=
        ih (s.modifyGuard entry.2 fun guard => { guard with holder := none })
      refine ⟨fun o => ?_, fun o => ?_, ?_, hguards, hholds⟩
      · refine (hholder o).trans ?_
        rw [holderOf_modifyGuard]
        by_cases hmem : o ∈ rest.map Prod.snd
        · simp [hmem]
        · by_cases heq : entry.2 = o
          · subst heq
            cases s.objects[entry.2]? <;> simp
          · have heq' : o ≠ entry.2 := fun h => heq h.symm
            rw [if_neg hmem, if_neg heq, if_neg (by simpa [heq'] using hmem)]
      · refine (husers o).trans ?_
        unfold usersOf modifyGuard
        by_cases heq : entry.2 = o
        · subst heq
          cases hget : s.objects[entry.2]? <;> simp [hget]
        · simp [List.getElem?_modify_ne, heq]
      · refine hlength.trans ?_
        simp [modifyGuard]

theorem hold_holds (s : GuardTable) (filters : List Str) :
    (s.hold filters).holds =
      s.holds ++ [newHold filters (s.enroll (guardOrder filters)).2] := by
  rw [hold, ← s.enroll_holds (guardOrder filters)]

theorem leave_holds (s : GuardTable) (c : Nat) (call : Hold) :
    (s.leave c call).holds = s.holds.modify c fun call => { call with phase := .finished } := by
  simp only [leave, foldl_countOut_holds, (release_spec _ s).2.2.2.2]

/-! ## Calls in progress -/

/-- All entries of the calls in progress. -/
def enrolled (s : GuardTable) : List (Str × Nat) := s.holds.flatMap Hold.enrolled

/-- The dictionary has the guards of the calls in progress, a lock is held by the call
that has it among its locked entries, and each call takes the locks of its filters in
their order until it has them all. -/
structure Sound (s : GuardTable) : Prop where
  registered : s.Registered s.enrolled
  holder : ∀ (o c : Nat), s.holderOf o = some c ↔
    ∃ call : Hold, s.holds[c]? = some call ∧ call.running = true ∧ o ∈ call.locked.map Prod.snd
  order : ∀ (c : Nat) (call : Hold), s.holds[c]? = some call →
    call.entries.map Prod.fst = guardOrder call.filters
  acquiring : ∀ (c : Nat) (call : Hold), s.holds[c]? = some call → call.phase = .acquiring →
    call.acquired < call.entries.length
  inside : ∀ (c : Nat) (call : Hold), s.holds[c]? = some call → call.phase = .inside →
    call.acquired = call.entries.length

variable {next : GuardTable} {c : Nat} {call : Hold}

theorem mem_enrolled (hcall : s.holds[c]? = some call) (hrunning : call.running = true)
    (hentry : entry ∈ call.entries) : entry ∈ s.enrolled := by
  refine List.mem_flatMap.mpr ⟨call, List.mem_of_getElem? hcall, ?_⟩
  rwa [Hold.enrolled, if_pos hrunning]

namespace Sound

theorem newHold_running (filters : List Str) (entries : List (Str × Nat)) :
    (newHold filters entries).running = true := by
  by_cases hempty : entries = [] <;> simp [newHold, Hold.running, hempty]

/-- The calls after a new one. -/
theorem hold_cases {filters : List Str}
    (hcall : (s.hold filters).holds[c]? = some call) :
    s.holds[c]? = some call ∨ call = newHold filters (s.enroll (guardOrder filters)).2 := by
  rw [hold_holds] at hcall
  by_cases hlt : c < s.holds.length
  · rw [List.getElem?_append_left hlt] at hcall
    exact .inl hcall
  · rw [List.getElem?_append_right (by omega)] at hcall
    exact .inr (List.mem_singleton.mp (List.mem_of_getElem? hcall))

/-- A new call counts itself in. -/
theorem hold (h : s.Sound) (filters : List Str) : (s.hold filters).Sound := by
  obtain ⟨hreg, hfilters, hholder⟩ := enroll_spec (guardOrder filters) h.registered
  refine ⟨?_, ?_, ?_, ?_, ?_⟩
  · have henrolled : (s.hold filters).enrolled =
        s.enrolled ++ (s.enroll (guardOrder filters)).2 := by
      simp only [enrolled, hold_holds, List.flatMap_append, List.flatMap_cons,
        List.flatMap_nil, List.append_nil, Hold.enrolled, newHold_running, if_true]
      rfl
    rw [henrolled]
    exact (hreg.perm List.perm_append_comm).congr (fun _ => rfl) rfl rfl
  · intro o c
    have hsame : (s.hold filters).holderOf o = s.holderOf o := hholder o
    rw [hsame, h.holder]
    constructor
    · rintro ⟨call, hcall, hrest⟩
      obtain ⟨hlt, -⟩ := List.getElem?_eq_some_iff.mp hcall
      refine ⟨call, ?_, hrest⟩
      rwa [hold_holds, List.getElem?_append_left hlt]
    · rintro ⟨call, hcall, hrunning, hmem⟩
      rcases hold_cases hcall with hcall | rfl
      · exact ⟨call, hcall, hrunning, hmem⟩
      · -- the new call has no lock
        simp [Hold.locked, newHold] at hmem
  · intro c call hcall
    rcases hold_cases hcall with hcall | rfl
    · exact h.order c call hcall
    · exact hfilters
  · intro c call hcall hphase
    rcases hold_cases hcall with hcall | rfl
    · exact h.acquiring c call hcall hphase
    · unfold newHold at hphase ⊢
      dsimp only at hphase ⊢
      split at hphase
      · cases hphase
      · exact List.length_pos_iff.mpr ‹_›
  · intro c call hcall hphase
    rcases hold_cases hcall with hcall | rfl
    · exact h.inside c call hcall hphase
    · unfold newHold at hphase ⊢
      dsimp only at hphase ⊢
      split at hphase
      · rename_i hempty
        rw [hempty]
        rfl
      · cases hphase

/-- A call in progress leaves: its locks are free and its guards are counted down. -/
theorem leave (h : s.Sound) (hcall : s.holds[c]? = some call) (hrunning : call.running = true) :
    (s.leave c call).Sound := by
  obtain ⟨hfreed, husers, hlength, hguards, -⟩ := release_spec call.locked.reverse s
  have hperm := TaskList.perm_flatMap_modify (g := Hold.enrolled)
    (f := fun call => { call with phase := .finished }) hcall (by simp [Hold.enrolled, Hold.running])
  rw [Hold.enrolled, if_pos hrunning] at hperm
  have hreg := (h.registered.perm hperm).congr husers hlength hguards
  obtain ⟨hreg', hholder'⟩ := countOut_spec call.entries hreg
  have hcases : ∀ {i : Nat} {other : Hold}, (s.leave c call).holds[i]? = some other →
      (i = c ∧ other = { call with phase := .finished }) ∨ (i ≠ c ∧ s.holds[i]? = some other) := by
    intro i other hi
    rw [leave_holds] at hi
    exact (TaskList.getElem?_modify_iff hcall).mp hi
  refine ⟨?_, ?_, ?_, ?_, ?_⟩
  · have henrolled : (s.leave c call).enrolled =
        (s.holds.modify c fun call => { call with phase := .finished }).flatMap Hold.enrolled := by
      rw [enrolled, leave_holds]
    rw [henrolled]
    exact hreg'.congr (fun _ => rfl) rfl rfl
  · intro o i
    have hholder : (s.leave c call).holderOf o =
        if o ∈ call.locked.map Prod.snd then none else s.holderOf o := by
      have hfree := (hholder' o).trans (hfreed o)
      simp only [List.map_reverse, List.mem_reverse] at hfree
      exact hfree
    rw [hholder]
    constructor
    · intro heq
      split at heq
      · cases heq
      · rename_i hnot
        obtain ⟨other, hother, hrest⟩ := (h.holder o i).mp heq
        have hne : i ≠ c := by
          rintro rfl
          rw [hcall] at hother
          cases hother
          exact hnot hrest.2
        refine ⟨other, ?_, hrest⟩
        rwa [leave_holds, List.getElem?_modify_ne _ _ (Ne.symm hne)]
    · rintro ⟨other, hother, hrun, hmem⟩
      rcases hcases hother with ⟨-, rfl⟩ | ⟨hne, hother⟩
      · simp [Hold.running] at hrun
      · have heq := (h.holder o i).mpr ⟨other, hother, hrun, hmem⟩
        rw [if_neg, heq]
        intro hmine
        have hmine := (h.holder o c).mpr ⟨call, hcall, hrunning, hmine⟩
        rw [heq] at hmine
        exact hne (Option.some.inj hmine)
  · intro i other hother
    rcases hcases hother with ⟨-, rfl⟩ | ⟨-, hother⟩
    · exact h.order c call hcall
    · exact h.order i other hother
  · intro i other hother hphase
    rcases hcases hother with ⟨-, rfl⟩ | ⟨-, hother⟩
    · cases hphase
    · exact h.acquiring i other hother hphase
  · intro i other hother hphase
    rcases hcases hother with ⟨-, rfl⟩ | ⟨-, hother⟩
    · cases hphase
    · exact h.inside i other hother hphase

/-- A call takes the free lock it waits for. -/
theorem takeLock (h : s.Sound) (hcall : s.holds[c]? = some call)
    (hphase : call.phase = .acquiring) (hentry : call.entries[call.acquired]? = some (filter, o))
    (hfree : s.holderOf o = none) : (s.takeLock c o).Sound := by
  obtain ⟨hlt, hget⟩ := List.getElem?_eq_some_iff.mp hentry
  have hrunning : call.running = true := by simp [Hold.running, hphase]
  have hobject : o < s.objects.length :=
    h.registered.isObject _ (mem_enrolled hcall hrunning (List.mem_of_getElem? hentry))
  have hlocked : call.advance.locked = call.locked ++ [(filter, o)] := by
    simp only [Hold.locked, Hold.advance]
    rw [List.take_succ_eq_append_getElem hlt, hget]
  have hholder : ∀ o', (s.takeLock c o).holderOf o' = if o = o' then some c else s.holderOf o' := by
    intro o'
    refine (holderOf_modifyGuard _ o o').trans ?_
    rw [List.getElem?_eq_getElem hobject]
    rfl
  have husers : ∀ o', (s.takeLock c o).usersOf o' = s.usersOf o' := by
    intro o'
    unfold usersOf GuardTable.takeLock modifyGuard
    by_cases heq : o = o'
    · subst heq
      simp [hobject]
    · simp [List.getElem?_modify_ne, heq]
  have hnobody : ∀ (i : Nat) (other : Hold), s.holds[i]? = some other → other.running = true →
      o ∉ other.locked.map Prod.snd := by
    intro i other hother hrun hin
    have heq := (h.holder o i).mpr ⟨other, hother, hrun, hin⟩
    rw [hfree] at heq
    cases heq
  have hcases : ∀ {i : Nat} {other : Hold}, (s.takeLock c o).holds[i]? = some other ↔
      (i = c ∧ other = call.advance) ∨ (i ≠ c ∧ s.holds[i]? = some other) :=
    TaskList.getElem?_modify_iff hcall
  refine ⟨?_, ?_, ?_, ?_, ?_⟩
  · have henrolled : (s.takeLock c o).enrolled = s.enrolled := by
      refine TaskList.flatMap_modify_same hcall ?_
      rw [Hold.enrolled, Hold.enrolled, if_pos hrunning, if_pos call.advance_running]
      rfl
    rw [henrolled]
    exact h.registered.congr husers (by simp [GuardTable.takeLock, modifyGuard]) rfl
  · intro o' i
    rw [hholder]
    constructor
    · intro heq
      split at heq
      · rename_i hsame
        cases heq
        subst hsame
        refine ⟨call.advance, hcases.mpr (.inl ⟨rfl, rfl⟩), call.advance_running, ?_⟩
        simp [hlocked]
      · obtain ⟨other, hother, hrun, hin⟩ := (h.holder o' i).mp heq
        by_cases hi : i = c
        · subst hi
          rw [hcall] at hother
          cases hother
          refine ⟨call.advance, hcases.mpr (.inl ⟨rfl, rfl⟩), call.advance_running, ?_⟩
          rw [hlocked, List.map_append]
          exact List.mem_append_left _ hin
        · exact ⟨other, hcases.mpr (.inr ⟨hi, hother⟩), hrun, hin⟩
    · rintro ⟨other, hother, hrun, hin⟩
      obtain ⟨rfl, rfl⟩ | ⟨hi, hother⟩ := hcases.mp hother
      · rw [hlocked, List.map_append] at hin
        rcases List.mem_append.mp hin with hin | hin
        · have heq := (h.holder o' i).mpr ⟨call, hcall, hrunning, hin⟩
          rw [if_neg, heq]
          rintro rfl
          exact hnobody i call hcall hrunning hin
        · rw [if_pos (by simpa using Eq.symm (by simpa using hin))]
      · have heq := (h.holder o' i).mpr ⟨other, hother, hrun, hin⟩
        rw [if_neg, heq]
        rintro rfl
        exact hnobody i other hother hrun hin
  · intro i other hother
    obtain ⟨rfl, rfl⟩ | ⟨-, hother⟩ := hcases.mp hother
    · exact h.order _ call hcall
    · exact h.order i other hother
  · intro i other hother hacq
    obtain ⟨rfl, rfl⟩ | ⟨-, hother⟩ := hcases.mp hother
    · unfold Hold.advance at hacq ⊢
      dsimp only at hacq ⊢
      split at hacq
      · cases hacq
      · omega
    · exact h.acquiring i other hother hacq
  · intro i other hother hin
    obtain ⟨rfl, rfl⟩ | ⟨-, hother⟩ := hcases.mp hother
    · unfold Hold.advance at hin ⊢
      dsimp only at hin ⊢
      split at hin
      · assumption
      · cases hin
    · exact h.inside i other hother hin

/-- **Step.** -/
theorem step (h : s.Sound) {action : Action} (hstep : s.step action = some next) :
    next.Sound := by
  cases action with
  | hold filters =>
      cases hstep
      exact h.hold filters
  | acquire c =>
      obtain ⟨call, hcall, hacquire⟩ := Option.bind_eq_some_iff.mp hstep
      unfold GuardTable.acquire at hacquire
      split at hacquire
      · rename_i filter o hphase hentry
        split at hacquire
        · rename_i hfree
          cases hacquire
          exact h.takeLock hcall hphase hentry hfree
        · cases hacquire
      · cases hacquire
  | leave c =>
      obtain ⟨call, hcall, hleave⟩ := Option.bind_eq_some_iff.mp hstep
      split at hleave
      · rename_i hphase
        cases hleave
        exact h.leave hcall (by simp [Hold.running, hphase])
      · cases hleave
  | cancel c =>
      obtain ⟨call, hcall, hleave⟩ := Option.bind_eq_some_iff.mp hstep
      split at hleave
      · rename_i hphase
        cases hleave
        exact h.leave hcall (by simp [Hold.running, hphase])
      · cases hleave

theorem start : Sound {} where
  registered :=
    ⟨fun o => rfl, fun _ h => absurd h List.not_mem_nil, fun _ h => absurd h List.not_mem_nil,
      fun _ _ h => by simp at h, fun _ h => absurd h List.not_mem_nil⟩
  holder := fun o c => by simp [holderOf]
  order := fun c call h => by simp at h
  acquiring := fun c call h => by simp at h
  inside := fun c call h => by simp at h

end Sound

/-! ## Waiting -/

/-- A call waits for a lock that another one holds. -/
def WaitsFor (s : GuardTable) (c d : Nat) : Prop :=
  ∃ call filter o, s.holds[c]? = some call ∧ call.phase = .acquiring ∧
    call.entries[call.acquired]? = some (filter, o) ∧ s.holderOf o = some d

/-- The filter whose lock a call takes next, as it is ordered. -/
def nextKey (s : GuardTable) (c : Nat) : List Nat :=
  s.holds[c]?.elim [] fun call =>
    call.entries[call.acquired]?.elim [] fun entry => strKey entry.1

theorem mem_filters_iff (horder : call.entries.map Prod.fst = guardOrder call.filters) :
    filter ∈ call.filters ↔ ∃ o, (filter, o) ∈ call.entries := by
  have hmem : filter ∈ guardOrder call.filters ↔ filter ∈ call.filters := by
    rw [guardOrder, List.mem_insertionSort, List.mem_dedup]
  rw [← hmem, ← horder]
  simp

namespace Sound

variable {d e : Nat}

/-- The holder of a lock has it under the filter the other call waits for. -/
theorem waitsFor_shares (h : s.Sound) (hcall : s.holds[c]? = some call)
    (hphase : call.phase = .acquiring) (hentry : call.entries[call.acquired]? = some (filter, o))
    (hheld : s.holderOf o = some d) :
    ∃ other, s.holds[d]? = some other ∧ other.running = true ∧ (filter, o) ∈ other.locked := by
  obtain ⟨other, hother, hrun, hin⟩ := (h.holder o d).mp hheld
  obtain ⟨⟨filter', o'⟩, hlocked, rfl⟩ := List.mem_map.mp hin
  have hmine : (filter, o') ∈ s.enrolled :=
    mem_enrolled hcall (by simp [Hold.running, hphase]) (List.mem_of_getElem? hentry)
  have hits : (filter', o') ∈ s.enrolled :=
    mem_enrolled hother hrun (List.mem_of_mem_take hlocked)
  obtain rfl : filter = filter' := h.registered.single _ hmine _ hits rfl
  exact ⟨other, hother, hrun, hlocked⟩

/-- The locks a call has come before the one it takes next. -/
theorem locked_lt (h : s.Sound) (hcall : s.holds[c]? = some call)
    (hentry : call.entries[call.acquired]? = some (filter, o)) (hlocked : entry ∈ call.locked) :
    strKey entry.1 < strKey filter := by
  have hsorted := guardOrder_sorted call.filters
  rw [← h.order c call hcall] at hsorted
  obtain ⟨hlt, hget⟩ := List.getElem?_eq_some_iff.mp hentry
  have hsplit : call.entries = call.locked ++ (filter, o) :: call.entries.drop (call.acquired + 1) := by
    rw [Hold.locked, ← hget, ← List.drop_eq_getElem_cons hlt, List.take_append_drop]
  rw [hsplit, List.map_append, List.map_cons, List.pairwise_append] at hsorted
  exact hsorted.2.2 entry.1 (List.mem_map_of_mem hlocked) filter List.mem_cons_self

theorem waitsFor_ne (h : s.Sound) (hwait : s.WaitsFor c d) : d ≠ c := by
  rintro rfl
  obtain ⟨call, filter, o, hcall, hphase, hentry, hheld⟩ := hwait
  obtain ⟨other, hother, -, hlocked⟩ := h.waitsFor_shares hcall hphase hentry hheld
  rw [hcall] at hother
  cases hother
  exact lt_irrefl _ (h.locked_lt hcall hentry hlocked)

/-- Along a chain of waiting calls the filters grow. -/
theorem nextKey_lt (h : s.Sound) (hwait : s.WaitsFor c d) (hwait' : s.WaitsFor d e) :
    s.nextKey c < s.nextKey d := by
  obtain ⟨call, filter, o, hcall, hphase, hentry, hheld⟩ := hwait
  obtain ⟨other, filter', o', hother, -, hentry', -⟩ := hwait'
  obtain ⟨other', hother', -, hlocked⟩ := h.waitsFor_shares hcall hphase hentry hheld
  rw [hother] at hother'
  cases hother'
  have hkey := h.locked_lt hother hentry' hlocked
  simpa only [nextKey, hcall, hother, hentry, hentry', Option.elim_some] using hkey

theorem nextKey_chain (h : s.Sound) (hchain : Relation.TransGen s.WaitsFor c d)
    (hwait : s.WaitsFor d e) : s.nextKey c < s.nextKey d := by
  induction hchain generalizing e with
  | single hstep => exact h.nextKey_lt hstep hwait
  | tail _ hstep ih => exact lt_trans (ih hstep) (h.nextKey_lt hstep hwait)

theorem no_cycle (h : s.Sound) (c : Nat) : ¬ Relation.TransGen s.WaitsFor c c := by
  intro hcycle
  obtain ⟨d, hwait, -⟩ := Relation.TransGen.head'_iff.mp hcycle
  exact lt_irrefl _ (h.nextKey_chain hcycle hwait)

/-- A waiting call takes its lock, or waits for the call that has it. -/
theorem acquiring_cases (h : s.Sound) (hcall : s.holds[c]? = some call)
    (hphase : call.phase = .acquiring) :
    (s.step (.acquire c)).isSome = true ∨ ∃ d, s.WaitsFor c d := by
  obtain ⟨⟨filter, o⟩, hentry⟩ : ∃ entry, call.entries[call.acquired]? = some entry :=
    ⟨_, List.getElem?_eq_getElem (h.acquiring c call hcall hphase)⟩
  cases hheld : s.holderOf o with
  | none =>
      left
      simp [GuardTable.step, hcall, GuardTable.acquire, hphase, hentry, hheld]
  | some d => exact .inr ⟨d, call, filter, o, hcall, hphase, hentry, hheld⟩

/-- While a call waits, one is in its body or a lock can be taken. -/
theorem progress (h : s.Sound) (hwaiting : ∃ call ∈ s.holds, call.phase = .acquiring) :
    (∃ call ∈ s.holds, call.phase = .inside) ∨ ∃ c, (s.step (.acquire c)).isSome = true := by
  by_contra hstuck
  simp only [not_or, not_exists, not_and] at hstuck
  obtain ⟨hnobody, hlocked⟩ := hstuck
  have hchain : ∀ (c : Nat) (call : Hold), s.holds[c]? = some call → call.phase = .acquiring →
      ∃ d, s.WaitsFor c d ∧ ∃ other, s.holds[d]? = some other ∧ other.phase = .acquiring := by
    intro c call hcall hphase
    rcases h.acquiring_cases hcall hphase with hfree | ⟨d, hwait⟩
    · exact absurd hfree (hlocked c)
    · refine ⟨d, hwait, ?_⟩
      obtain ⟨call', filter, o, hcall', hphase', hentry, hheld⟩ := hwait
      obtain ⟨other, hother, hrun, -⟩ := h.waitsFor_shares hcall' hphase' hentry hheld
      refine ⟨other, hother, ?_⟩
      cases hother' : other.phase with
      | acquiring => rfl
      | inside => exact absurd hother' (hnobody other (List.mem_of_getElem? hother))
      | finished => simp [Hold.running, hother'] at hrun
  -- the waiting call with the greatest next filter waits for one with a greater
  let waiting := (Finset.range s.holds.length).filter fun c : Nat =>
    s.holds[c]?.map Hold.phase = some .acquiring
  have hmem : ∀ (c : Nat) (call : Hold), s.holds[c]? = some call → call.phase = .acquiring →
      c ∈ waiting := by
    intro c call hcall hphase
    obtain ⟨hlt, -⟩ := List.getElem?_eq_some_iff.mp hcall
    simp only [waiting, Finset.mem_filter, Finset.mem_range]
    exact ⟨hlt, by rw [hcall, Option.map_some, hphase]⟩
  obtain ⟨first, hfirst, hphase⟩ := hwaiting
  obtain ⟨c₀, hc₀⟩ := List.getElem?_of_mem hfirst
  obtain ⟨c, hc, hmax⟩ := Finset.exists_max_image waiting s.nextKey ⟨c₀, hmem c₀ first hc₀ hphase⟩
  simp only [waiting, Finset.mem_filter, Finset.mem_range] at hc
  obtain ⟨-, hacquiring⟩ := hc
  obtain ⟨call, hcall, hacquiring⟩ := Option.map_eq_some_iff.mp hacquiring
  obtain ⟨d, hwait, other, hother, hotherPhase⟩ := hchain c call hcall hacquiring
  obtain ⟨e, hwait', -⟩ := hchain d other hother hotherPhase
  exact absurd (h.nextKey_lt hwait hwait') (not_lt.mpr (hmax d (hmem d other hother hotherPhase)))

end Sound

/-- A call in progress before and after a step keeps its filters and its entries. -/
theorem step_entries {action : Action} (hstep : s.step action = some next) {call' : Hold}
    (hcall : s.holds[c]? = some call) (hcall' : next.holds[c]? = some call') :
    call'.entries = call.entries ∧ call'.filters = call.filters := by
  have hmodify : ∀ (i : Nat) (f : Hold → Hold), next.holds = s.holds.modify i f →
      (∀ call, (f call).entries = call.entries ∧ (f call).filters = call.filters) →
      call'.entries = call.entries ∧ call'.filters = call.filters := by
    intro i f hholds hf
    rw [hholds] at hcall'
    by_cases heq : i = c
    · subst heq
      obtain ⟨-, rfl⟩ | ⟨hne, -⟩ := (TaskList.getElem?_modify_iff hcall).mp hcall'
      · exact hf call
      · exact absurd rfl hne
    · rw [List.getElem?_modify_ne _ _ heq, hcall] at hcall'
      cases hcall'
      exact ⟨rfl, rfl⟩
  cases action with
  | hold filters =>
      cases hstep
      obtain ⟨hlt, -⟩ := List.getElem?_eq_some_iff.mp hcall
      rw [hold_holds, List.getElem?_append_left hlt, hcall] at hcall'
      cases hcall'
      exact ⟨rfl, rfl⟩
  | acquire i =>
      obtain ⟨other, -, hacquire⟩ := Option.bind_eq_some_iff.mp hstep
      unfold acquire at hacquire
      split at hacquire
      · split at hacquire
        · cases hacquire
          exact hmodify i Hold.advance rfl fun call => ⟨rfl, rfl⟩
        · cases hacquire
      · cases hacquire
  | leave i =>
      obtain ⟨other, -, hleft⟩ := Option.bind_eq_some_iff.mp hstep
      split at hleft
      · cases hleft
        exact hmodify i _ (s.leave_holds i other) fun call => ⟨rfl, rfl⟩
      · cases hleft
  | cancel i =>
      obtain ⟨other, -, hleft⟩ := Option.bind_eq_some_iff.mp hstep
      split at hleft
      · cases hleft
        exact hmodify i _ (s.leave_holds i other) fun call => ⟨rfl, rfl⟩
      · cases hleft

/-- **Subscription guards.**  In every reachable state: two calls in their bodies have
no filter in common; a waiting call can take its lock or waits for another call in
progress that has the filter too; no chain of waiting calls closes, and while one waits
there is a call in its body or a lock to take; the dictionary has exactly the filters of
the calls in progress, each with the guard that the call counted itself in at, and no
step replaces it. -/
theorem guards_exclude (actions : List Action) (s : GuardTable)
    (hrun : Transition.run step {} actions = some s) :
    (∀ (c d : Nat) (call other : Hold) (filter : Str), s.holds[c]? = some call → s.holds[d]? = some other →
        call.phase = .inside → other.phase = .inside → filter ∈ call.filters →
        filter ∈ other.filters → c = d) ∧
      (∀ (c : Nat) (call : Hold), s.holds[c]? = some call → call.phase = .acquiring →
        (s.step (.acquire c)).isSome = true ∨
          ∃ (d : Nat) (other : Hold) (filter : Str), s.WaitsFor c d ∧ d ≠ c ∧ s.holds[d]? = some other ∧
            other.running = true ∧ filter ∈ call.filters ∧ filter ∈ other.filters) ∧
      (∀ c, ¬ Relation.TransGen s.WaitsFor c c) ∧
      ((∃ call ∈ s.holds, call.phase = .acquiring) →
        (∃ call ∈ s.holds, call.phase = .inside) ∨ ∃ c, (s.step (.acquire c)).isSome = true) ∧
      (∀ call ∈ s.holds, call.running = true → ∀ filter ∈ call.filters,
        ∃ o, (filter, o) ∈ call.entries ∧ OrderedDict.get s.guards filter = some o) ∧
      (∀ (action : Action) (next : GuardTable) (c : Nat) (call call' : Hold),
        s.step action = some next →
        s.holds[c]? = some call → call.running = true → next.holds[c]? = some call' →
        call'.running = true → ∀ filter ∈ call.filters,
          OrderedDict.get next.guards filter = OrderedDict.get s.guards filter) ∧
      (∀ filter, filter ∈ OrderedDict.keys s.guards ↔
        ∃ call ∈ s.holds, call.running = true ∧ filter ∈ call.filters) ∧
      ((∀ call ∈ s.holds, call.phase = .finished) → s.guards = []) := by
  have h : s.Sound := Transition.invariant (fun _ _ _ h hstep => h.step hstep) Sound.start hrun
  have hguard : ∀ {s : GuardTable}, s.Sound → ∀ {c : Nat} {call : Hold} {filter : Str},
      s.holds[c]? = some call → call.running = true → filter ∈ call.filters →
      ∃ o, (filter, o) ∈ call.entries ∧ OrderedDict.get s.guards filter = some o := by
    intro s h c call filter hcall hrunning hfilter
    obtain ⟨o, hentry⟩ := (mem_filters_iff (h.order c call hcall)).mp hfilter
    exact ⟨o, hentry, h.registered.mapped _ (mem_enrolled hcall hrunning hentry)⟩
  have hkeys : ∀ filter, filter ∈ OrderedDict.keys s.guards ↔
      ∃ call ∈ s.holds, call.running = true ∧ filter ∈ call.filters := by
    intro filter
    rw [OrderedDict.mem_keys_iff]
    constructor
    · rintro ⟨o, hget⟩
      obtain ⟨call, hmem, hentry⟩ := List.mem_flatMap.mp (h.registered.used filter o hget)
      obtain ⟨c, hcall⟩ := List.getElem?_of_mem hmem
      unfold Hold.enrolled at hentry
      split at hentry
      · rename_i hrunning
        exact ⟨call, hmem, hrunning, (mem_filters_iff (h.order c call hcall)).mpr ⟨o, hentry⟩⟩
      · exact absurd hentry List.not_mem_nil
    · rintro ⟨call, hmem, hrunning, hfilter⟩
      obtain ⟨c, hcall⟩ := List.getElem?_of_mem hmem
      obtain ⟨o, -, hget⟩ := hguard h hcall hrunning hfilter
      exact ⟨o, hget⟩
  refine ⟨?_, ?_, h.no_cycle, h.progress, ?_, ?_, hkeys, ?_⟩
  · intro c d call other filter hcall hother hinside hinside' hfilter hfilter'
    -- both have the lock of the one guard of the filter
    have hrunning : call.running = true := by simp [Hold.running, hinside]
    have hrunning' : other.running = true := by simp [Hold.running, hinside']
    obtain ⟨o, hentry, hget⟩ := hguard h hcall hrunning hfilter
    obtain ⟨o', hentry', hget'⟩ := hguard h hother hrunning' hfilter'
    obtain rfl : o = o' := Option.some.inj (hget.symm.trans hget')
    have hlocked : call.locked = call.entries := by
      rw [Hold.locked, h.inside c call hcall hinside, List.take_length]
    have hlocked' : other.locked = other.entries := by
      rw [Hold.locked, h.inside d other hother hinside', List.take_length]
    have hc := (h.holder o c).mpr
      ⟨call, hcall, hrunning, by rw [hlocked]; exact List.mem_map_of_mem hentry⟩
    have hd := (h.holder o d).mpr
      ⟨other, hother, hrunning', by rw [hlocked']; exact List.mem_map_of_mem hentry'⟩
    rw [hc] at hd
    exact Option.some.inj hd
  · intro c call hcall hphase
    rcases h.acquiring_cases hcall hphase with hfree | ⟨d, hwait⟩
    · exact .inl hfree
    · have hne := h.waitsFor_ne hwait
      obtain ⟨call', filter, o, hcall', -, hentry, hheld⟩ := id hwait
      rw [hcall] at hcall'
      cases hcall'
      obtain ⟨other, hother, hrun, hlocked⟩ := h.waitsFor_shares hcall hphase hentry hheld
      refine .inr ⟨d, other, filter, hwait, hne, hother, hrun, ?_, ?_⟩
      · exact (mem_filters_iff (h.order c call hcall)).mpr ⟨o, List.mem_of_getElem? hentry⟩
      · exact (mem_filters_iff (h.order d other hother)).mpr ⟨o, List.mem_of_mem_take hlocked⟩
  · intro call hmem hrunning filter hfilter
    obtain ⟨c, hcall⟩ := List.getElem?_of_mem hmem
    exact hguard h hcall hrunning hfilter
  · intro action next c call call' hstep hcall hrunning hcall' hrunning' filter hfilter
    obtain ⟨hentries, hfilters⟩ := step_entries hstep hcall hcall'
    obtain ⟨o, hentry, hget⟩ := hguard (h.step hstep) hcall' hrunning' (hfilters ▸ hfilter)
    have hbefore := h.registered.mapped _ (mem_enrolled hcall hrunning (hentries ▸ hentry))
    exact hget.trans hbefore.symm
  · intro hfinished
    cases hguards : s.guards with
    | nil => rfl
    | cons item rest =>
        have hmem : item.1 ∈ OrderedDict.keys s.guards := by
          rw [hguards]
          exact List.mem_cons_self
        obtain ⟨call, hcall, hrunning, -⟩ := (hkeys item.1).mp hmem
        simp [Hold.running, hfinished call hcall] at hrunning

/-- Three calls on two filters: the first is in its body, the second has one lock and
waits for the other, the third waits for the lock of the second. -/
theorem guards_exclude_chain :
    ∃ s, Transition.run step {}
        [.hold [str "b"], .acquire 0, .hold [str "b", str "a", str "b"], .acquire 1,
          .hold [str "a"]] = some s ∧
      s.WaitsFor 2 1 ∧ s.WaitsFor 1 0 ∧ ∀ c, ¬ Relation.TransGen s.WaitsFor c c := by
  refine ⟨_, rfl, ⟨_, _, _, rfl, rfl, rfl, rfl⟩, ⟨_, _, _, rfl, rfl, rfl, rfl⟩, ?_⟩
  exact (guards_exclude [.hold [str "b"], .acquire 0, .hold [str "b", str "a", str "b"],
    .acquire 1, .hold [str "a"]] _ rfl).2.2.1

end GuardTable

end Zmqtt
