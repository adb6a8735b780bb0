import Mathlib.Data.Finset.Card
import Mathlib.Order.Interval.Finset.Nat

/-!
# The pool of packet identifiers

`PacketIdPool` of `state.py`.  The search loop of `acquire` is given one round for
each identifier; `findFree_isSome` says that these rounds are enough whenever the
pool is not full.
-/

namespace Zmqtt

/-- `PacketIdPool`. -/
structure PacketIdPool where
  next : Nat := 1
  inUse : Finset Nat := ∅
deriving DecidableEq

namespace PacketIdPool

/-- The `while self._next in self._in_use` loop of `acquire`. -/
def findFree (inUse : Finset Nat) : (rounds next : Nat) → Option Nat
  | 0, _ => none
  | rounds + 1, next =>
      if next ∈ inUse then findFree inUse rounds (next % 65535 + 1) else some next

/-- `acquire`, or `none` for its `RuntimeError`. -/
def acquire (pool : PacketIdPool) : Option (Nat × PacketIdPool) :=
  if pool.inUse.card ≥ 65535 then none
  else
    match findFree pool.inUse 65535 pool.next with
    | none => none
    | some pid => some (pid, { inUse := insert pid pool.inUse, next := pid % 65535 + 1 })

/-- `release`. -/
def release (pool : PacketIdPool) (pid : Nat) : PacketIdPool :=
  { inUse := pool.inUse.erase pid, next := min pool.next pid }

@[simp] theorem release_inUse (pool : PacketIdPool) (pid : Nat) :
    (pool.release pid).inUse = pool.inUse.erase pid := rfl

/-- The identifiers in use and the next candidate are in `1 .. 65535`. -/
structure Valid (pool : PacketIdPool) : Prop where
  next_pos : 1 ≤ pool.next
  next_le : pool.next ≤ 65535
  inUse_le : pool.inUse ⊆ Finset.Icc 1 65535

theorem findFree_spec {inUse : Finset Nat} :
    ∀ {rounds next pid : Nat}, 1 ≤ next → next ≤ 65535 →
      findFree inUse rounds next = some pid → pid ∉ inUse ∧ 1 ≤ pid ∧ pid ≤ 65535 := by
  intro rounds
  induction rounds with
  | zero =>
      intro next pid _ _ h
      cases h
  | succ rounds ih =>
      intro next pid hpos hle h
      rw [findFree] at h
      by_cases hmem : next ∈ inUse
      · rw [if_pos hmem] at h
        have hlt : next % 65535 < 65535 := Nat.mod_lt _ (by omega)
        exact ih (by omega) (by omega) h
      · rw [if_neg hmem] at h
        cases h
        exact ⟨hmem, hpos, hle⟩

/-- What the loop stops at is free, whatever the candidate it starts from. -/
theorem findFree_not_mem {inUse : Finset Nat} :
    ∀ {rounds next pid : Nat}, findFree inUse rounds next = some pid → pid ∉ inUse := by
  intro rounds
  induction rounds with
  | zero =>
      intro next pid h
      cases h
  | succ rounds ih =>
      intro next pid h
      rw [findFree] at h
      by_cases hmem : next ∈ inUse
      · rw [if_pos hmem] at h
        exact ih h
      · rw [if_neg hmem] at h
        cases h
        exact hmem

/-- If the loop gives up, it has met every identifier it passed in use. -/
theorem mem_of_findFree_none {inUse : Finset Nat} :
    ∀ {rounds next : Nat}, 1 ≤ next → findFree inUse rounds next = none →
      ∀ k < rounds, (next - 1 + k) % 65535 + 1 ∈ inUse ∨ (k = 0 ∧ next ∈ inUse) := by
  intro rounds
  induction rounds with
  | zero =>
      intro next _ _ k hk
      omega
  | succ rounds ih =>
      intro next hpos h k hk
      rw [findFree] at h
      by_cases hmem : next ∈ inUse
      · rw [if_pos hmem] at h
        cases k with
        | zero => exact Or.inr ⟨rfl, hmem⟩
        | succ k =>
            have hstep := ih (by omega) h k (by omega)
            have hshift : (next % 65535 + 1 - 1 + k) % 65535 = (next - 1 + (k + 1)) % 65535 := by
              omega
            rcases hstep with hstep | ⟨rfl, hstep⟩
            · rw [hshift] at hstep
              exact Or.inl hstep
            · refine Or.inl ?_
              have heq : (next - 1 + (0 + 1)) % 65535 + 1 = next % 65535 + 1 := by
                congr 2
                omega
              rw [heq]
              exact hstep
      · rw [if_neg hmem] at h
        cases h

/-- **The search ends.**  In a pool that is not full the loop finds an identifier. -/
theorem findFree_isSome {pool : PacketIdPool} (hvalid : pool.Valid)
    (hfree : pool.inUse.card < 65535) :
    (findFree pool.inUse 65535 pool.next).isSome = true := by
  rw [Option.isSome_iff_ne_none]
  intro hnone
  have hall : Finset.Icc 1 65535 ⊆ pool.inUse := by
    intro pid hpid
    rw [Finset.mem_Icc] at hpid
    have hpos := hvalid.next_pos
    have hle := hvalid.next_le
    have hmet := mem_of_findFree_none hpos hnone
      ((pid + 65535 - pool.next) % 65535) (Nat.mod_lt _ (by omega))
    rcases hmet with hmet | ⟨hzero, hmet⟩
    · have heq : (pool.next - 1 + (pid + 65535 - pool.next) % 65535) % 65535 + 1 = pid := by
        omega
      rwa [heq] at hmet
    · have heq : pool.next = pid := by omega
      rwa [heq] at hmet
  have hcard := Finset.card_le_card hall
  rw [Nat.card_Icc] at hcard
  omega

/-- `acquire` returns what its loop found. -/
theorem findFree_of_acquire {pool next : PacketIdPool} {pid : Nat}
    (h : pool.acquire = some (pid, next)) :
    findFree pool.inUse 65535 pool.next = some pid ∧
      next = { inUse := insert pid pool.inUse, next := pid % 65535 + 1 } := by
  unfold acquire at h
  by_cases hfull : pool.inUse.card ≥ 65535
  · rw [if_pos hfull] at h
    cases h
  · rw [if_neg hfull] at h
    cases hfind : findFree pool.inUse 65535 pool.next with
    | none =>
        rw [hfind] at h
        cases h
    | some found =>
        rw [hfind] at h
        cases h
        exact ⟨rfl, rfl⟩

/-- An acquisition changes the identifiers in use. -/
theorem acquire_inUse_ne {pool next : PacketIdPool} {pid : Nat}
    (h : pool.acquire = some (pid, next)) : next.inUse ≠ pool.inUse := by
  obtain ⟨hfind, rfl⟩ := findFree_of_acquire h
  exact Finset.insert_ne_self.mpr (findFree_not_mem hfind)

/-- **What `acquire` gives**: an identifier of the range that was not in use. -/
theorem acquire_spec {pool next : PacketIdPool} {pid : Nat} (hvalid : pool.Valid)
    (h : pool.acquire = some (pid, next)) :
    pid ∉ pool.inUse ∧ 1 ≤ pid ∧ pid ≤ 65535 ∧ next.inUse = insert pid pool.inUse ∧
      next.Valid := by
  obtain ⟨hfind, rfl⟩ := findFree_of_acquire h
  obtain ⟨hnot, hpos, hle⟩ := findFree_spec hvalid.next_pos hvalid.next_le hfind
  refine ⟨hnot, hpos, hle, rfl, ⟨by simp, ?_, ?_⟩⟩
  · have hlt : pid % 65535 < 65535 := Nat.mod_lt _ (by omega)
    simp only
    omega
  · intro k hk
    rcases Finset.mem_insert.mp hk with rfl | hk
    · exact Finset.mem_Icc.mpr ⟨hpos, hle⟩
    · exact hvalid.inUse_le hk

theorem Valid.release {pool : PacketIdPool} (hvalid : pool.Valid) {pid : Nat} (hpos : 1 ≤ pid) :
    (pool.release pid).Valid := by
  refine ⟨?_, ?_, ?_⟩
  · exact Nat.le_min.mpr ⟨hvalid.next_pos, hpos⟩
  · exact (Nat.min_le_left _ _).trans hvalid.next_le
  · intro k hk
    exact hvalid.inUse_le (Finset.mem_of_mem_erase hk)

theorem empty_valid : ({} : PacketIdPool).Valid :=
  ⟨Nat.le_refl _, by decide, Finset.empty_subset _⟩

end PacketIdPool

end Zmqtt
