import Zmqtt.Protocol

/-!
# Futures

What settling futures does to them: a future that is done stays as it is, and only the
value that was set can be new.
-/

namespace Zmqtt

/-- A future that is done. -/
def isDone (futures : List FutureState) (future : Nat) : Prop :=
  ∃ value, futures[future]? = some value ∧ value ≠ .pending

namespace Connection

/-- A value after one future is settled was there before, or is the one set. -/
theorem settle_cases {futures : List FutureState} {future other : Nat} {value now : FutureState}
    (h : (settle futures future value)[other]? = some now) :
    futures[other]? = some now ∨ (other = future ∧ now = value) := by
  unfold settle at h
  split at h
  · rw [List.getElem?_set] at h
    split at h
    · next heq =>
        split at h
        · exact Or.inr ⟨heq.symm, (Option.some.inj h).symm⟩
        · cases h
    · exact Or.inl h
  · exact Or.inl h

/-- A future with another value was there before. -/
theorem of_settle {futures : List FutureState} {future other : Nat} {value old : FutureState}
    (hne : old ≠ value) (h : (settle futures future value)[other]? = some old) :
    futures[other]? = some old :=
  (settle_cases h).resolve_right fun heq => hne heq.2

/-- A future that is not failed was there before. -/
theorem of_failAll {waiting : List Nat} {futures : List FutureState} {other : Nat}
    {old : FutureState} (hne : old ≠ .exception .disconnected)
    (h : (failAll futures waiting)[other]? = some old) : futures[other]? = some old := by
  unfold failAll at h
  induction waiting generalizing futures with
  | nil => exact h
  | cons first rest ih => exact of_settle hne (ih h)

/-- `settle` adds no future. -/
theorem settle_length (futures : List FutureState) (future : Nat) (value : FutureState) :
    (settle futures future value).length = futures.length := by
  unfold settle
  split
  · exact List.length_set
  · rfl

/-- A done future stays done. -/
theorem isDone_settle {futures : List FutureState} {future other : Nat} {value : FutureState}
    (h : isDone futures other) : isDone (settle futures future value) other := by
  obtain ⟨old, hold, hne⟩ := h
  unfold settle
  split
  · next hpending =>
      refine ⟨old, ?_, hne⟩
      rw [List.getElem?_set_ne, hold]
      rintro rfl
      rw [hpending] at hold
      exact hne (Option.some.inj hold).symm
  · exact ⟨old, hold, hne⟩

/-- Settling makes a future done. -/
theorem isDone_settle_self {futures : List FutureState} {future : Nat} {value : FutureState}
    (hvalue : value ≠ .pending) (hlt : future < futures.length) :
    isDone (settle futures future value) future := by
  unfold settle
  split
  · exact ⟨value, by simp [hlt], hvalue⟩
  · next hdone =>
      refine ⟨futures[future], List.getElem?_eq_getElem hlt, fun heq => hdone ?_⟩
      rw [List.getElem?_eq_getElem hlt, heq]

/-- `failAll` adds no future. -/
theorem failAll_length (waiting : List Nat) (futures : List FutureState) :
    (failAll futures waiting).length = futures.length := by
  unfold failAll
  induction waiting generalizing futures with
  | nil => rfl
  | cons first rest ih => exact (ih _).trans (settle_length _ _ _)

/-- Done futures stay done, and those that were waited for are. -/
theorem isDone_failAll (waiting : List Nat) (futures : List FutureState) :
    (∀ other, isDone futures other → isDone (failAll futures waiting) other) ∧
      ∀ future ∈ waiting, future < futures.length → isDone (failAll futures waiting) future := by
  unfold failAll
  induction waiting generalizing futures with
  | nil => exact ⟨fun _ h => h, fun _ h => absurd h List.not_mem_nil⟩
  | cons first rest ih =>
      have hvalue : FutureState.exception .disconnected ≠ .pending := by
        intro heq
        cases heq
      obtain ⟨hkeep, hfail⟩ := ih (settle futures first (.exception .disconnected))
      refine ⟨fun other h => hkeep other (isDone_settle h), fun future hmem hlt => ?_⟩
      rcases List.mem_cons.mp hmem with rfl | hmem
      · exact hkeep _ (isDone_settle_self hvalue hlt)
      · exact hfail future hmem (by rwa [settle_length])

/-- A future that is still pending after another one is settled was pending, and is
another. -/
theorem pending_of_settle {futures : List FutureState} {future other : Nat} {value : FutureState}
    (hvalue : value ≠ .pending)
    (h : (settle futures future value)[other]? = some .pending) :
    other ≠ future ∧ futures[other]? = some .pending := by
  unfold settle at h
  split at h
  · next hpending =>
      by_cases heq : future = other
      · subst heq
        rw [List.getElem?_set_self (List.getElem?_eq_some_iff.mp hpending).1] at h
        exact absurd (Option.some.inj h) hvalue
      · rw [List.getElem?_set_ne heq] at h
        exact ⟨Ne.symm heq, h⟩
  · next hdone =>
      refine ⟨?_, h⟩
      rintro rfl
      exact hdone h

/-- A future that is still pending was not waited for. -/
theorem pending_of_failAll {waiting : List Nat} {futures : List FutureState} {other : Nat}
    (h : (failAll futures waiting)[other]? = some .pending) :
    other ∉ waiting ∧ futures[other]? = some .pending := by
  unfold failAll at h
  induction waiting generalizing futures with
  | nil => exact ⟨List.not_mem_nil, h⟩
  | cons first rest ih =>
      have hvalue : FutureState.exception .disconnected ≠ .pending := by
        intro heq
        cases heq
      obtain ⟨hnot, h⟩ := ih h
      obtain ⟨hne, h⟩ := pending_of_settle hvalue h
      exact ⟨fun hmem => (List.mem_cons.mp hmem).elim hne hnot, h⟩

end Connection

end Zmqtt
