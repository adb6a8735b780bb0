import Mathlib.Data.List.Basic

/-!
# Runs of a transition function

A system is a function `step` from a state and an action to the next state, or to
nothing where the action is not enabled.  A run is a list of actions.  `Along`
says that every action of a run meets a condition in the state it is taken in.

Two rules are the inductions over runs: an invariant of the steps that meet a condition
holds along every run whose steps do, and gives at each of them what it gives there.
-/

namespace Transition

variable {σ α : Type} (step : σ → α → Option σ)

/-- The state after a list of actions, if each is enabled in its turn. -/
def run (s : σ) : List α → Option σ
  | [] => some s
  | a :: as => (step s a).bind fun next => run next as

/-- Every action of the run is taken in a state where it meets `ok`. -/
def Along (ok : σ → α → Prop) (s : σ) : List α → Prop
  | [] => True
  | a :: as => ok s a ∧ (step s a).elim True fun next => Along ok next as

/-- Nothing, or a state that meets a decidable property. -/
def elimDecidable {P : σ → Prop} (h : ∀ s, Decidable (P s)) :
    (next : Option σ) → Decidable (next.elim True P)
  | none => .isTrue trivial
  | some s => h s

instance decidableAlong (ok : σ → α → Prop) [∀ s a, Decidable (ok s a)] :
    (s : σ) → (as : List α) → Decidable (Along step ok s as)
  | _, [] => .isTrue trivial
  | s, a :: as =>
      have := elimDecidable (fun next => decidableAlong ok next as) (step s a)
      inferInstanceAs (Decidable (ok s a ∧ _))

variable {step} {s t : σ} {as : List α}

/-- **Invariant rule with a condition on the steps.** -/
theorem invariant_along {ok : σ → α → Prop} {I : σ → Prop}
    (hstep : ∀ s a next, I s → ok s a → step s a = some next → I next) :
    ∀ {s : σ}, I s → ∀ {as : List α}, Along step ok s as →
      run step s as = some t → I t := by
  intro s hs as
  induction as generalizing s with
  | nil =>
      intro _ hrun
      cases hrun
      exact hs
  | cons a as ih =>
      intro halong hrun
      obtain ⟨next, hnext, hrest⟩ := Option.bind_eq_some_iff.mp hrun
      obtain ⟨hok, hrestOk⟩ := halong
      rw [hnext] at hrestOk
      exact ih (hstep s a next hs hok hnext) hrestOk hrest

theorem Along.and {ok ok' : σ → α → Prop} (h : Along step ok s as) (h' : Along step ok' s as) :
    Along step (fun s a => ok s a ∧ ok' s a) s as := by
  induction as generalizing s with
  | nil => trivial
  | cons a as ih =>
      refine ⟨⟨h.1, h'.1⟩, ?_⟩
      have hrest := h.2
      have hrest' := h'.2
      cases hstep : step s a with
      | none => trivial
      | some next =>
          rw [hstep] at hrest hrest'
          exact ih hrest hrest'

theorem along_true (s : σ) (as : List α) : Along step (fun _ _ => True) s as := by
  induction as generalizing s with
  | nil => trivial
  | cons a as ih =>
      refine ⟨trivial, ?_⟩
      cases step s a with
      | none => trivial
      | some next => exact ih next

/-- What an invariant of the steps that meet a condition gives at each of them. -/
theorem Along.imp {ok ok' : σ → α → Prop} {I : σ → Prop}
    (hstep : ∀ s a next, I s → ok s a → step s a = some next → ok' s a ∧ I next)
    (hs : I s) (h : Along step ok s as) (hrun : run step s as = some t) :
    Along step ok' s as := by
  induction as generalizing s with
  | nil => trivial
  | cons a as ih =>
      obtain ⟨next, hnext, hrest⟩ := Option.bind_eq_some_iff.mp hrun
      obtain ⟨hok, hrestOk⟩ := h
      obtain ⟨hok', hI⟩ := hstep s a next hs hok hnext
      rw [hnext] at hrestOk
      refine ⟨hok', ?_⟩
      rw [hnext]
      exact ih hI hrestOk hrest

/-- A condition that an invariant gives at every enabled action. -/
theorem along_of_invariant {ok : σ → α → Prop} {I : σ → Prop}
    (hstep : ∀ s a next, I s → step s a = some next → ok s a ∧ I next)
    (hs : I s) (hrun : run step s as = some t) : Along step ok s as :=
  (along_true s as).imp (fun s a next h _ => hstep s a next h) hs hrun

/-- **Invariant rule.** -/
theorem invariant {I : σ → Prop}
    (hstep : ∀ s a next, I s → step s a = some next → I next)
    (hs : I s) (hrun : run step s as = some t) : I t :=
  invariant_along (fun s a next h _ => hstep s a next h) hs (along_true s as) hrun

end Transition
