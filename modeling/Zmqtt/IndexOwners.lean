import Mathlib.Data.Finset.Basic
import Mathlib.Data.Finset.Dedup
import Zmqtt.SubscriptionIndex

/-!
# The filters and observers of the index

What the operations of `SubscriptionIndex` do to the set of registered filters and
to the response observers.  The trie and the identifiers do not matter here.
-/

namespace Zmqtt

namespace SubscriptionIndex

variable {index : SubscriptionIndex} {topic filter : Str}

/-- The filters of the index and the response observers. -/
def owners (index : SubscriptionIndex) : Finset Str :=
  (OrderedDict.keys index.entries).toFinset ∪ index.responseObservers.toFinset

/-- `contains` looks the filter up in the entries. -/
theorem contains_iff (index : SubscriptionIndex) (filter : Str) :
    index.contains filter = true ↔ filter ∈ OrderedDict.keys index.entries := by
  rw [contains, Option.isSome_iff_exists, OrderedDict.mem_keys_iff]

/-- A topic is owned by a subscription or by a response observer. -/
theorem mem_owners : topic ∈ index.owners ↔
    topic ∈ OrderedDict.keys index.entries ∨ topic ∈ index.responseObservers := by
  rw [owners, Finset.mem_union, List.mem_toFinset, List.mem_toFinset]

/-- `remove` takes out its own filter only. -/
theorem mem_keys_remove : topic ∈ OrderedDict.keys (index.remove filter).1.entries ↔
    topic ≠ filter ∧ topic ∈ OrderedDict.keys index.entries := by
  unfold remove
  cases hget : OrderedDict.get index.entries filter with
  | none =>
      have hnot := (OrderedDict.get_eq_none_iff _ _).mp hget
      refine ⟨fun hmem => ⟨?_, hmem⟩, And.right⟩
      rintro rfl
      exact hnot hmem
  | some entry => exact OrderedDict.mem_keys_pop

@[simp] theorem responseObservers_remove (index : SubscriptionIndex) (filter : Str) :
    (index.remove filter).1.responseObservers = index.responseObservers := by
  unfold remove
  split <;> rfl

/-- `add` brings its own filter only. -/
theorem mem_keys_add (entry : SubscriptionEntry) :
    topic ∈ OrderedDict.keys (index.add filter entry).entries ↔
      topic = filter ∨ topic ∈ OrderedDict.keys index.entries := by
  unfold add
  split
  · rw [insert, OrderedDict.mem_keys_set, mem_keys_remove]
    tauto
  · exact OrderedDict.mem_keys_set

@[simp] theorem responseObservers_add (index : SubscriptionIndex) (filter : Str)
    (entry : SubscriptionEntry) :
    (index.add filter entry).responseObservers = index.responseObservers := by
  unfold add
  split
  · exact responseObservers_remove index filter
  · rfl

/-- `add_many` brings the filters of its items. -/
theorem mem_keys_addMany (items : List IndexItem) (index : SubscriptionIndex) :
    topic ∈ OrderedDict.keys (index.addMany items).entries ↔
      topic ∈ OrderedDict.keys items ∨ topic ∈ OrderedDict.keys index.entries := by
  unfold addMany
  induction items generalizing index with
  | nil => simp [OrderedDict.keys]
  | cons item rest ih =>
      rw [List.foldl_cons, ih, mem_keys_add]
      simp only [OrderedDict.keys, List.map_cons, List.mem_cons]
      tauto

@[simp] theorem responseObservers_addMany (items : List IndexItem) (index : SubscriptionIndex) :
    (index.addMany items).responseObservers = index.responseObservers := by
  unfold addMany
  induction items generalizing index with
  | nil => rfl
  | cons item rest ih => rw [List.foldl_cons, ih, responseObservers_add]

/-- The index after `remove` of each filter in turn. -/
def removeMany (index : SubscriptionIndex) (filters : List Str) : SubscriptionIndex :=
  filters.foldl (fun index f => (index.remove f).1) index

/-- `remove_many` takes out the filters of its list. -/
theorem mem_keys_removeMany (filters : List Str) (index : SubscriptionIndex) :
    topic ∈ OrderedDict.keys (index.removeMany filters).entries ↔
      topic ∉ filters ∧ topic ∈ OrderedDict.keys index.entries := by
  unfold removeMany
  induction filters generalizing index with
  | nil => simp
  | cons f rest ih =>
      rw [List.foldl_cons, ih, mem_keys_remove, List.mem_cons]
      tauto

@[simp] theorem responseObservers_removeMany (filters : List Str) (index : SubscriptionIndex) :
    (index.removeMany filters).responseObservers = index.responseObservers := by
  unfold removeMany
  induction filters generalizing index with
  | nil => rfl
  | cons f rest ih => rw [List.foldl_cons, ih, responseObservers_remove]

/-! ## Entries -/

/-- Observers have no entries. -/
theorem entries_addResponseObserver (index : SubscriptionIndex) (topic : Str) :
    (index.addResponseObserver topic).1.entries = index.entries := by
  unfold addResponseObserver
  split <;> rfl

theorem entries_removeResponseObserver (index : SubscriptionIndex) (topic : Str) :
    (index.removeResponseObserver topic).1.entries = index.entries := by
  unfold removeResponseObserver
  split <;> rfl

/-- The entries after `remove`. -/
theorem get_remove (index : SubscriptionIndex) (filter topic : Str) :
    OrderedDict.get (index.remove filter).1.entries topic =
      if filter = topic then none else OrderedDict.get index.entries topic := by
  unfold remove
  cases hget : OrderedDict.get index.entries filter with
  | none =>
      show OrderedDict.get index.entries topic = _
      by_cases heq : filter = topic
      · rw [if_pos heq, ← heq, hget]
      · rw [if_neg heq]
  | some entry => exact OrderedDict.get_pop _ _ _

/-- The entries after `add`. -/
theorem get_add (index : SubscriptionIndex) (filter : Str) (entry : SubscriptionEntry)
    (topic : Str) :
    OrderedDict.get (index.add filter entry).entries topic =
      if filter = topic then some entry else OrderedDict.get index.entries topic := by
  unfold add
  split
  · rw [insert, OrderedDict.get_set, get_remove]
    split <;> rfl
  · exact OrderedDict.get_set _ _ _ _

/-- An entry after `add_many` is one of the new ones or was there before. -/
theorem mem_of_get_addMany {items : List IndexItem} {index : SubscriptionIndex}
    {entry : SubscriptionEntry}
    (h : OrderedDict.get (index.addMany items).entries topic = some entry) :
    (topic, entry) ∈ items ∨ OrderedDict.get index.entries topic = some entry := by
  unfold addMany at h
  induction items generalizing index with
  | nil => exact Or.inr h
  | cons item rest ih =>
      rcases ih h with hmem | hget
      · exact Or.inl (List.mem_cons_of_mem _ hmem)
      · rw [get_add] at hget
        split at hget
        · next heq =>
            cases hget
            rw [← heq]
            exact Or.inl List.mem_cons_self
        · exact Or.inr hget

/-- The entries after `remove_many`. -/
theorem get_removeMany (filters : List Str) (index : SubscriptionIndex) (topic : Str) :
    OrderedDict.get (index.removeMany filters).entries topic =
      if topic ∈ filters then none else OrderedDict.get index.entries topic := by
  unfold removeMany
  induction filters generalizing index with
  | nil => rfl
  | cons f rest ih =>
      rw [List.foldl_cons, ih, get_remove]
      by_cases hrest : topic ∈ rest
      · rw [if_pos hrest, if_pos (List.mem_cons_of_mem _ hrest)]
      · rw [if_neg hrest]
        by_cases heq : f = topic
        · rw [if_pos heq, if_pos (heq ▸ List.mem_cons_self)]
        · rw [if_neg heq, if_neg]
          intro hmem
          exact (List.mem_cons.mp hmem).elim (fun h => heq h.symm) hrest

end SubscriptionIndex

end Zmqtt
