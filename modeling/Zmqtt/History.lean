import Mathlib.Data.List.Basic

/-!
# Logs with the newest event first

`Each P log` says that every event of a log meets a condition on what came before it.
It is built event by event, and read back at any place of the log.
-/

namespace History

variable {ε : Type} {P : ε → List ε → Prop}

/-- Every event of the log meets `P` with what came before it. -/
def Each (P : ε → List ε → Prop) : List ε → Prop
  | [] => True
  | event :: earlier => P event earlier ∧ Each P earlier

theorem Each.at {event : ε} {later earlier : List ε}
    (h : Each P (later ++ event :: earlier)) : P event earlier := by
  induction later with
  | nil => exact h.1
  | cons first rest ih => exact ih h.2

end History
