import Zmqtt.PacketIdPool

/-!
# The least free packet identifier

`acquire` starts its search at a cursor that is moved on by `acquire` and lowered by
`release`.  Every identifier below the cursor is in use, whatever the calls were, so the
first free identifier that the search meets is the least one.
-/

namespace Zmqtt

/-- A packet identifier. -/
abbrev PacketId := { pid : Nat // 1 ≤ pid ∧ pid ≤ 65535 }

namespace PacketIdPool

/-- The calls of a pool.  `release` may be called with an identifier that is free. -/
inductive Op
  | acquire
  | release (pid : PacketId)

/-- One call: what `acquire` returns, or nothing where it raises, and the pool after it. -/
def call (pool : PacketIdPool) : Op → Option Nat × PacketIdPool
  | .acquire =>
      match pool.acquire with
      | none => (none, pool)
      | some (pid, next) => (some pid, next)
  | .release pid => (none, pool.release pid)

/-- A new pool after a sequence of calls. -/
def after (ops : List Op) : PacketIdPool := ops.foldl (fun pool op => (pool.call op).2) {}

/-- The `while` loop of `acquire`, started at `next`, stops at `pid`. -/
inductive Stops (inUse : Finset Nat) : (next pid : Nat) → Prop
  | free {next : Nat} (h : next ∉ inUse) : Stops inUse next next
  | advance {next pid : Nat} (h : next ∈ inUse) (hrest : Stops inUse (next % 65535 + 1) pid) :
      Stops inUse next pid

/-- Every identifier below the cursor is in use. -/
def CursorLow (inUse : Finset Nat) (next : Nat) : Prop := ∀ k, 1 ≤ k → k < next → k ∈ inUse

/-- What a pool does: `acquire` raises exactly when every identifier is in use and then
changes nothing; otherwise its loop stops and it takes the least free identifier.
`release` frees one identifier. -/
structure LeastFree (pool : PacketIdPool) : Prop where
  raises : (pool.call .acquire).1 = none ↔ ∀ k, 1 ≤ k → k ≤ 65535 → k ∈ pool.inUse
  unchanged : (pool.call .acquire).1 = none → (pool.call .acquire).2 = pool
  stops : (∃ k, 1 ≤ k ∧ k ≤ 65535 ∧ k ∉ pool.inUse) →
    ∃ pid, Stops pool.inUse pool.next pid ∧ (pool.call .acquire).1 = some pid
  least : ∀ pid, (pool.call .acquire).1 = some pid → 1 ≤ pid ∧ pid ≤ 65535 ∧ pid ∉ pool.inUse ∧
    (∀ k, 1 ≤ k → k < pid → k ∈ pool.inUse) ∧
    (pool.call .acquire).2.inUse = insert pid pool.inUse
  releases : ∀ (pid : PacketId) k,
    k ∈ (pool.call (.release pid)).2.inUse ↔ k ∈ pool.inUse ∧ k ≠ pid

/-! ## The search -/

/-- The rounds of the search are those of the loop. -/
theorem stops_of_findFree {inUse : Finset Nat} {rounds next pid : Nat}
    (h : findFree inUse rounds next = some pid) : Stops inUse next pid := by
  induction rounds generalizing next with
  | zero => cases h
  | succ rounds ih =>
      rw [findFree] at h
      by_cases hmem : next ∈ inUse
      · rw [if_pos hmem] at h
        exact .advance hmem (ih h)
      · rw [if_neg hmem] at h
        cases h
        exact .free hmem

/-- The cursor moves on over an identifier in use, or wraps around. -/
theorem CursorLow.advance {inUse : Finset Nat} {next : Nat} (h : CursorLow inUse next)
    (hmem : next ∈ inUse) (hle : next ≤ 65535) : CursorLow inUse (next % 65535 + 1) := by
  intro k hpos hlt
  by_cases hwrap : next = 65535
  · subst hwrap
    omega
  · have hsame : next % 65535 = next := Nat.mod_eq_of_lt (by omega)
    rw [hsame] at hlt
    rcases Nat.lt_or_eq_of_le (Nat.le_of_lt_succ hlt) with hbelow | rfl
    · exact h k hpos hbelow
    · exact hmem

/-- The search passes identifiers in use only. -/
theorem Stops.least {inUse : Finset Nat} {next pid : Nat} (h : Stops inUse next pid)
    (hle : next ≤ 65535) (hlow : CursorLow inUse next) : CursorLow inUse pid := by
  induction h with
  | free _ => exact hlow
  | @advance next _ hmem _ ih =>
      have hlt : next % 65535 < 65535 := Nat.mod_lt _ (by omega)
      exact ih (by omega) (hlow.advance hmem hle)

/-! ## Whole runs -/

/-- The pool between two calls. -/
structure Settled (pool : PacketIdPool) : Prop where
  valid : pool.Valid
  low : CursorLow pool.inUse pool.next

namespace Settled

variable {pool : PacketIdPool}

/-- A pool that is full has every identifier in use. -/
theorem full_iff (h : pool.Settled) :
    pool.inUse.card ≥ 65535 ↔ ∀ k, 1 ≤ k → k ≤ 65535 → k ∈ pool.inUse := by
  constructor
  · intro hcard
    have hall : pool.inUse = Finset.Icc 1 65535 :=
      Finset.eq_of_subset_of_card_le h.valid.inUse_le (by rw [Nat.card_Icc]; omega)
    intro k hpos hle
    rw [hall]
    exact Finset.mem_Icc.mpr ⟨hpos, hle⟩
  · intro hall
    have hsub : Finset.Icc 1 65535 ⊆ pool.inUse := by
      intro k hk
      obtain ⟨hpos, hle⟩ := Finset.mem_Icc.mp hk
      exact hall k hpos hle
    have hcard := Finset.card_le_card hsub
    rw [Nat.card_Icc] at hcard
    omega

/-- What `acquire` does: it raises in a full pool, else its loop stops. -/
theorem acquire_cases (h : pool.Settled) :
    (pool.inUse.card ≥ 65535 ∧ pool.acquire = none) ∨
      (pool.inUse.card < 65535 ∧ ∃ pid, Stops pool.inUse pool.next pid ∧
        pool.acquire = some (pid, { inUse := insert pid pool.inUse, next := pid % 65535 + 1 })) := by
  unfold acquire
  by_cases hfull : pool.inUse.card ≥ 65535
  · exact .inl ⟨hfull, if_pos hfull⟩
  · have hfree : pool.inUse.card < 65535 := by omega
    obtain ⟨pid, hpid⟩ := Option.isSome_iff_exists.mp (findFree_isSome h.valid hfree)
    refine .inr ⟨hfree, pid, stops_of_findFree hpid, ?_⟩
    rw [if_neg hfull, hpid]

/-- **Step lemma.** -/
theorem call (h : pool.Settled) (op : Op) : (pool.call op).2.Settled := by
  cases op with
  | acquire =>
      rcases h.acquire_cases with ⟨-, hnone⟩ | ⟨-, pid, hstops, hsome⟩
      · unfold PacketIdPool.call
        rw [hnone]
        exact h
      · obtain ⟨-, -, hle, -, hvalid⟩ := acquire_spec h.valid hsome
        have hbelow := hstops.least h.valid.next_le h.low
        unfold PacketIdPool.call
        rw [hsome]
        refine ⟨hvalid, ?_⟩
        have hinsert : CursorLow (insert pid pool.inUse) pid := fun k hpos hlt =>
          Finset.mem_insert_of_mem (hbelow k hpos hlt)
        exact hinsert.advance (Finset.mem_insert_self _ _) hle
  | release pid =>
      refine ⟨h.valid.release pid.2.1, fun k hpos hlt => ?_⟩
      have hnext : k < pool.next := Nat.lt_of_lt_of_le hlt (Nat.min_le_left _ _)
      have hother : k < pid.1 := Nat.lt_of_lt_of_le hlt (Nat.min_le_right _ _)
      exact Finset.mem_erase.mpr ⟨Nat.ne_of_lt hother, h.low k hpos hnext⟩

theorem leastFree (h : pool.Settled) : pool.LeastFree where
  raises := by
    rw [← h.full_iff]
    rcases h.acquire_cases with ⟨hfull, hnone⟩ | ⟨hfree, pid, -, hsome⟩
    · simp [PacketIdPool.call, hnone, hfull]
    · simp [PacketIdPool.call, hsome, hfree]
  unchanged := by
    intro hraises
    rcases h.acquire_cases with ⟨-, hnone⟩ | ⟨-, pid, -, hsome⟩
    · simp [PacketIdPool.call, hnone]
    · simp [PacketIdPool.call, hsome] at hraises
  stops := by
    intro hfree
    obtain ⟨k, hpos, hle, hnot⟩ := hfree
    rcases h.acquire_cases with ⟨hfull, -⟩ | ⟨-, pid, hstops, hsome⟩
    · exact absurd (h.full_iff.mp hfull k hpos hle) hnot
    · exact ⟨pid, hstops, by simp [PacketIdPool.call, hsome]⟩
  least := by
    intro pid hpid
    rcases h.acquire_cases with ⟨-, hnone⟩ | ⟨-, found, hstops, hsome⟩
    · simp [PacketIdPool.call, hnone] at hpid
    · have hfound : found = pid := by simpa [PacketIdPool.call, hsome] using hpid
      subst hfound
      obtain ⟨hnot, hpos, hle, hinUse, -⟩ := acquire_spec h.valid hsome
      refine ⟨hpos, hle, hnot, hstops.least h.valid.next_le h.low, ?_⟩
      simp [PacketIdPool.call, hsome]
  releases := by
    intro pid k
    show k ∈ pool.inUse.erase pid ↔ _
    rw [Finset.mem_erase, and_comm]

end Settled

theorem after_settled (ops : List Op) : (after ops).Settled := by
  have hrun : ∀ pool : PacketIdPool, pool.Settled →
      (ops.foldl (fun pool op => (pool.call op).2) pool).Settled := by
    induction ops with
    | nil => exact fun pool h => h
    | cons op ops ih => exact fun pool h => ih _ (h.call op)
  refine hrun {} ⟨empty_valid, fun k hpos hlt => ?_⟩
  have hone : k < 1 := hlt
  omega

/-- **The pool hands out the least free identifier**, after every sequence of calls. -/
theorem pool_least_free (ops : List Op) : (after ops).LeastFree :=
  (after_settled ops).leastFree

end PacketIdPool

end Zmqtt
