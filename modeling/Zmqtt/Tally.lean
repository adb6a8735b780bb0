import Mathlib.Algebra.GroupWithZero.Nat
import Mathlib.Algebra.Order.BigOperators.Group.List
import Mathlib.Algebra.Order.Group.Nat
import Zmqtt.OrderedDict

/-!
# Tallies

A tally is the sum of a weight over a list.  The lemmas say how it changes when one
element is replaced, and when a key of a dictionary is set or removed.
-/

namespace Tally

variable {α β κ : Type} [DecidableEq κ]

/-- The sum of a weight over a list. -/
def tally (weight : α → Nat) (items : List α) : Nat := (items.map weight).sum

variable (weight : α → Nat)

@[simp] theorem tally_nil : tally weight [] = 0 := rfl

@[simp] theorem tally_cons (a : α) (items : List α) :
    tally weight (a :: items) = weight a + tally weight items := rfl

/-- A tally over two lists is the tally of the first and that of the second. -/
@[simp] theorem tally_append (xs ys : List α) :
    tally weight (xs ++ ys) = tally weight xs + tally weight ys := by
  rw [tally, List.map_append, List.sum_append_nat]
  rfl

theorem tally_map (f : β → α) (items : List β) :
    tally weight (items.map f) = tally (fun b => weight (f b)) items :=
  congrArg List.sum List.map_map

theorem tally_reverse (items : List α) : tally weight items.reverse = tally weight items := by
  rw [tally, List.map_reverse, List.sum_reverse_nat]
  rfl

/-- What weighs nothing adds nothing. -/
theorem tally_eq_zero {items : List α} (h : ∀ a ∈ items, weight a = 0) :
    tally weight items = 0 :=
  List.sum_eq_zero (List.forall_mem_map.mpr h)

/-- Fewer items weigh less. -/
theorem tally_sublist {items all : List α} (h : items.Sublist all) :
    tally weight items ≤ tally weight all :=
  (h.map weight).sum_le_sum fun _ _ => Nat.zero_le _

theorem tally_filter_le (p : α → Bool) (items : List α) :
    tally weight (items.filter p) ≤ tally weight items :=
  tally_sublist weight List.filter_sublist

/-- A greater weight gives a greater tally. -/
theorem tally_mono {weight weight' : α → Nat} (h : ∀ a, weight a ≤ weight' a) (items : List α) :
    tally weight items ≤ tally weight' items :=
  List.sum_le_sum fun a _ => h a

/-- An element weighs at most as much as all. -/
theorem le_tally {items : List α} {a : α} (ha : a ∈ items) : weight a ≤ tally weight items :=
  List.le_sum_of_mem (List.mem_map_of_mem ha)

/-- Two different elements weigh at most as much as all. -/
theorem add_le_tally {items : List α} {a b : α} (ha : a ∈ items) (hb : b ∈ items) (hne : a ≠ b) :
    weight a + weight b ≤ tally weight items := by
  induction items with
  | nil => cases ha
  | cons first items ih =>
      rw [tally_cons]
      rcases List.mem_cons.mp ha with rfl | harest
      · rcases List.mem_cons.mp hb with rfl | hbrest
        · exact absurd rfl hne
        · exact Nat.add_le_add_left (le_tally weight hbrest) _
      · rcases List.mem_cons.mp hb with rfl | hbrest
        · rw [Nat.add_comm]
          exact Nat.add_le_add_left (le_tally weight harest) _
        · exact Nat.le_trans (ih harest hbrest) (Nat.le_add_left _ _)

/-- One element is replaced. -/
theorem tally_modify {items : List α} {i : Nat} {a : α} (h : items[i]? = some a) (f : α → α) :
    tally weight (items.modify i f) + weight a = tally weight items + weight (f a) := by
  induction items generalizing i with
  | nil => cases h
  | cons first rest ih =>
      cases i with
      | zero =>
          cases h
          simp only [List.modify_zero_cons, tally_cons]
          omega
      | succ i =>
          have hrest := ih (by simpa using h)
          simp only [List.modify_succ_cons, tally_cons]
          omega

/-- One element is set. -/
theorem tally_set {items : List α} {i : Nat} {a : α} (h : items[i]? = some a) (b : α) :
    tally weight (items.set i b) + weight a = tally weight items + weight b := by
  rw [List.set_eq_modify]
  exact tally_modify weight h fun _ => b

section Dict

variable (weight : α → Nat)

/-- A key that is set adds at most its value. -/
theorem tally_dict_set (d : List (κ × α)) (key : κ) (v : α) :
    tally (fun item => weight item.2) (OrderedDict.set d key v) ≤
      tally (fun item => weight item.2) d + weight v := by
  induction d with
  | nil => simp [OrderedDict.set]
  | cons item rest ih =>
      obtain ⟨k, w⟩ := item
      rw [OrderedDict.set]
      split <;> (simp only [tally_cons]; omega)

/-- A key that is removed takes its value away. -/
theorem tally_dict_pop {d : List (κ × α)} {key : κ} {v : α}
    (h : OrderedDict.get d key = some v) :
    tally (fun item => weight item.2) (OrderedDict.pop d key) + weight v ≤
      tally (fun item => weight item.2) d := by
  induction d with
  | nil => cases h
  | cons item rest ih =>
      obtain ⟨k, w⟩ := item
      rw [OrderedDict.get_cons] at h
      have hrest := tally_filter_le (fun item : κ × α => weight item.2)
        (fun item => decide (item.1 ≠ key)) rest
      unfold OrderedDict.pop at ih ⊢
      split at h
      · rename_i hk
        cases h
        rw [List.filter_cons_of_neg (by simp [hk]), tally_cons]
        simp only
        omega
      · rename_i hk
        rw [List.filter_cons_of_pos (by simp [hk]), tally_cons, tally_cons]
        have := ih h
        omega

end Dict

end Tally
