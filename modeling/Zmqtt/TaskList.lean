import Mathlib.Data.List.Flatten
import Mathlib.Data.List.Perm.Basic

/-!
# Lists of tasks

A system keeps its tasks in a list, and a step changes one of them.  Each task has
some items (messages in its hands, locks it waits for), and what all tasks have is
`items.flatMap g`.  The lemmas say what becomes of it when one task changes.
-/

namespace TaskList

variable {α β : Type} {tasks : List α} {f : α → α} {g : α → List β}

/-- The changed task has what it had. -/
theorem flatMap_modify_same {i : Nat} {a : α} (hi : tasks[i]? = some a) (hsame : g (f a) = g a) :
    (tasks.modify i f).flatMap g = tasks.flatMap g := by
  induction tasks generalizing i with
  | nil => cases hi
  | cons first rest ih =>
      cases i with
      | zero =>
          obtain rfl : first = a := by simpa using hi
          simp [hsame]
      | succ i =>
          have hrest := ih (i := i) (by simpa using hi)
          simp [hrest]

/-- No other task has anything. -/
theorem flatMap_only {i : Nat} {a : α} (hi : tasks[i]? = some a)
    (hothers : ∀ j b, tasks[j]? = some b → j ≠ i → g b = []) : tasks.flatMap g = g a := by
  induction tasks generalizing i with
  | nil => cases hi
  | cons first rest ih =>
      cases i with
      | zero =>
          obtain rfl : first = a := by simpa using hi
          have hrest : rest.flatMap g = [] := by
            apply List.flatMap_eq_nil_iff.mpr
            intro b hb
            obtain ⟨j, hj⟩ := List.getElem?_of_mem hb
            exact hothers (j + 1) b (by simpa using hj) (by omega)
          simp [hrest]
      | succ i =>
          have hfirst : g first = [] := hothers 0 first rfl (by omega)
          have hrest := ih (i := i) (by simpa using hi) fun j b hj hne =>
            hothers (j + 1) b (by simpa using hj) (by omega)
          simp [hfirst, hrest]

theorem flatMap_modify_only {i : Nat} {a : α} (hi : tasks[i]? = some a)
    (hothers : ∀ j b, tasks[j]? = some b → j ≠ i → g b = []) :
    (tasks.modify i f).flatMap g = g (f a) := by
  refine flatMap_only (i := i) ?_ fun j b hj hne => hothers j b ?_ hne
  · simp [hi]
  · rwa [List.getElem?_modify_ne _ _ (Ne.symm hne)] at hj

/-- The changed task has something else than it had. -/
theorem perm_flatMap_exchange {i : Nat} {a : α} (hi : tasks[i]? = some a) :
    (g (f a) ++ tasks.flatMap g).Perm (g a ++ (tasks.modify i f).flatMap g) := by
  induction tasks generalizing i with
  | nil => cases hi
  | cons first rest ih =>
      cases i with
      | zero =>
          obtain rfl : first = a := by simpa using hi
          simp only [List.flatMap_cons, List.modify_zero_cons]
          rw [← List.append_assoc, ← List.append_assoc]
          exact List.perm_append_comm.append_right _
      | succ i =>
          have hrest := ih (i := i) (by simpa using hi)
          simp only [List.flatMap_cons, List.modify_succ_cons]
          calc g (f a) ++ (g first ++ rest.flatMap g)
              _ |>.Perm (g first ++ (g (f a) ++ rest.flatMap g)) := by
                rw [← List.append_assoc, ← List.append_assoc]
                exact List.perm_append_comm.append_right _
              _ |>.Perm (g first ++ (g a ++ (rest.modify i f).flatMap g)) :=
                hrest.append_left (g first)
              _ |>.Perm (g a ++ (g first ++ (rest.modify i f).flatMap g)) := by
                rw [← List.append_assoc, ← List.append_assoc]
                exact List.perm_append_comm.append_right _

/-- The changed task gives up what it had. -/
theorem perm_flatMap_modify {i : Nat} {a : α} (hi : tasks[i]? = some a) (hnone : g (f a) = []) :
    (tasks.flatMap g).Perm (g a ++ (tasks.modify i f).flatMap g) := by
  have hexchange := perm_flatMap_exchange (f := f) (g := g) hi
  rwa [hnone, List.nil_append] at hexchange

/-- One entry of a changed list. -/
theorem getElem?_modify_iff {i j : Nat} {a b : α} (hi : tasks[i]? = some a) :
    (tasks.modify i f)[j]? = some b ↔ (j = i ∧ b = f a) ∨ (j ≠ i ∧ tasks[j]? = some b) := by
  by_cases heq : i = j
  · subst heq
    simp [hi, eq_comm]
  · rw [List.getElem?_modify_ne _ _ heq]
    simp [Ne.symm heq]

/-- One entry of a list with a new task. -/
theorem getElem?_append_iff {i : Nat} {a b : α} :
    (tasks ++ [b])[i]? = some a ↔ tasks[i]? = some a ∨ (i = tasks.length ∧ a = b) := by
  by_cases hlt : i < tasks.length
  · rw [List.getElem?_append_left hlt]
    simp [Nat.ne_of_lt hlt]
  · have hnone : tasks[i]? = none := List.getElem?_eq_none (by omega)
    rw [List.getElem?_append_right (by omega), List.getElem?_singleton, hnone]
    by_cases heq : i = tasks.length
    · simp [heq, eq_comm]
    · simp [heq, show i - tasks.length ≠ 0 by omega]

/-- How many tasks meet a condition, after one has changed. -/
theorem countP_modify {p : α → Bool} {i : Nat} {a : α} (hi : tasks[i]? = some a) :
    (tasks.modify i f).countP p + (if p a then 1 else 0) =
      tasks.countP p + (if p (f a) then 1 else 0) := by
  induction tasks generalizing i with
  | nil => cases hi
  | cons first rest ih =>
      cases i with
      | zero =>
          obtain rfl : first = a := by simpa using hi
          simp only [List.modify_zero_cons, List.countP_cons]
          omega
      | succ i =>
          have hrest := ih (i := i) (by simpa using hi)
          simp only [List.modify_succ_cons, List.countP_cons]
          omega

end TaskList
