import Mathlib.Data.List.Nodup

/-!
# Insertion-ordered dictionaries

An association list read as a Python `dict`: `get` finds the value of a key,
`set` replaces it in place or appends a new pair, `pop` removes the key.  The
list is in insertion order, so `items` of the dictionary is the list itself.
-/

namespace OrderedDict

variable {κ α : Type*} [DecidableEq κ]

/-- `d.get(key)`. -/
def get (d : List (κ × α)) (key : κ) : Option α :=
  match d with
  | [] => none
  | (k, v) :: rest => if k = key then some v else get rest key

/-- `d[key] = value`. -/
def set (d : List (κ × α)) (key : κ) (value : α) : List (κ × α) :=
  match d with
  | [] => [(key, value)]
  | (k, v) :: rest => if k = key then (key, value) :: rest else (k, v) :: set rest key value

/-- `d.pop(key, None)`, the remaining dictionary. -/
def pop (d : List (κ × α)) (key : κ) : List (κ × α) :=
  d.filter fun item => decide (item.1 ≠ key)

/-- The keys, in insertion order. -/
def keys (d : List (κ × α)) : List κ := d.map Prod.fst

@[simp] theorem get_nil (key : κ) : get ([] : List (κ × α)) key = none := rfl

theorem get_cons (k : κ) (v : α) (rest : List (κ × α)) (key : κ) :
    get ((k, v) :: rest) key = if k = key then some v else get rest key := rfl

/-- A key that is not there. -/
theorem get_eq_none_iff (d : List (κ × α)) (key : κ) :
    get d key = none ↔ key ∉ keys d := by
  induction d with
  | nil => simp [keys]
  | cons item rest ih =>
      obtain ⟨k, v⟩ := item
      simp only [keys] at ih
      by_cases h : k = key
      · simp [get, keys, h]
      · simp [get, keys, h, ih, Ne.symm h]

/-- A key that is there has a value. -/
theorem mem_keys_iff (d : List (κ × α)) (key : κ) :
    key ∈ keys d ↔ ∃ v, get d key = some v := by
  rw [← not_iff_not, ← get_eq_none_iff]
  cases get d key <;> simp

theorem mem_of_get {d : List (κ × α)} {key : κ} {v : α} (h : get d key = some v) :
    (key, v) ∈ d := by
  induction d with
  | nil => simp at h
  | cons item rest ih =>
      obtain ⟨k, w⟩ := item
      by_cases hk : k = key
      · simp [get, hk] at h
        simp [hk, h]
      · simp [get, hk] at h
        exact List.mem_cons_of_mem _ (ih h)

/-- Every value is replaced. -/
theorem get_map {β : Type*} (d : List (κ × α)) (f : α → β) (key : κ) :
    get (d.map fun item => (item.1, f item.2)) key = (get d key).map f := by
  induction d with
  | nil => rfl
  | cons item rest ih =>
      obtain ⟨k, v⟩ := item
      rw [List.map_cons, get_cons, get_cons, ih]
      split <;> rfl

theorem get_append_of_not_mem {d e : List (κ × α)} {key : κ} (h : key ∉ keys d) :
    get (d ++ e) key = get e key := by
  induction d with
  | nil => rfl
  | cons item rest ih =>
      obtain ⟨k, v⟩ := item
      have hk : k ≠ key := fun heq => h (by simp [keys, heq])
      have hrest : key ∉ keys rest := fun hmem =>
        h (List.mem_cons_of_mem _ hmem)
      simp [get, hk, ih hrest]

/-- Setting an absent key appends the pair. -/
theorem set_of_not_mem {d : List (κ × α)} {key : κ} (h : key ∉ keys d) (v : α) :
    set d key v = d ++ [(key, v)] := by
  induction d with
  | nil => rfl
  | cons item rest ih =>
      obtain ⟨k, w⟩ := item
      have hk : k ≠ key := fun heq => h (by simp [keys, heq])
      have hrest : key ∉ keys rest := fun hmem =>
        h (List.mem_cons_of_mem _ hmem)
      simp [set, hk, ih hrest]

/-- Setting the key of the last pair replaces its value. -/
theorem set_append_last {d : List (κ × α)} {key : κ} (h : key ∉ keys d) (v w : α) :
    set (d ++ [(key, v)]) key w = d ++ [(key, w)] := by
  induction d with
  | nil => simp [set]
  | cons item rest ih =>
      obtain ⟨k, u⟩ := item
      have hk : k ≠ key := fun heq => h (by simp [keys, heq])
      have hrest : key ∉ keys rest := fun hmem =>
        h (List.mem_cons_of_mem _ hmem)
      simp [set, hk, ih hrest]

/-- `get` after `set`. -/
theorem get_set (d : List (κ × α)) (key : κ) (v : α) (key' : κ) :
    get (set d key v) key' = if key = key' then some v else get d key' := by
  induction d with
  | nil => rfl
  | cons item rest ih =>
      obtain ⟨k, w⟩ := item
      by_cases hk : k = key
      · subst hk
        by_cases hk' : k = key'
        · simp [set, get, hk']
        · simp [set, get, hk']
      · by_cases hk' : k = key'
        · have hne : key ≠ key' := fun h => hk (hk'.trans h.symm)
          rw [set, if_neg hk, get_cons, get_cons, if_pos hk', if_neg hne, if_pos hk']
        · rw [set, if_neg hk, get_cons, get_cons, if_neg hk', if_neg hk', ih]

/-- `get` after `pop`. -/
theorem get_pop (d : List (κ × α)) (key key' : κ) :
    get (pop d key) key' = if key = key' then none else get d key' := by
  induction d with
  | nil => simp [pop]
  | cons item rest ih =>
      obtain ⟨k, w⟩ := item
      unfold pop at ih ⊢
      by_cases hk : k = key
      · rw [List.filter_cons_of_neg (by simp [hk]), ih, get_cons]
        by_cases hk' : key = key'
        · rw [if_pos hk', if_pos hk']
        · rw [if_neg hk', if_neg hk', if_neg (hk.trans_ne hk')]
      · rw [List.filter_cons_of_pos (by simp [hk]), get_cons, ih, get_cons]
        by_cases hk' : k = key'
        · have hne : key ≠ key' := fun h => hk (hk'.trans h.symm)
          rw [if_pos hk', if_neg hne, if_pos hk']
        · rw [if_neg hk', if_neg hk']

/-- The keys after `set`. -/
theorem mem_keys_set {d : List (κ × α)} {key key' : κ} {v : α} :
    key' ∈ keys (set d key v) ↔ key' = key ∨ key' ∈ keys d := by
  rw [mem_keys_iff, mem_keys_iff]
  simp only [get_set]
  by_cases h : key = key'
  · simp [h]
  · simp [h, Ne.symm h]

/-- The keys after `pop`. -/
theorem mem_keys_pop {d : List (κ × α)} {key key' : κ} :
    key' ∈ keys (pop d key) ↔ key' ≠ key ∧ key' ∈ keys d := by
  rw [mem_keys_iff, mem_keys_iff]
  simp only [get_pop]
  by_cases h : key = key'
  · simp [h]
  · simp [h, Ne.symm h]

theorem mem_of_mem_pop {d : List (κ × α)} {key : κ} {item : κ × α} (h : item ∈ pop d key) :
    item ∈ d :=
  List.mem_of_mem_filter h

/-- An item after `set` was there, or is the new one. -/
theorem mem_of_mem_set {d : List (κ × α)} {key : κ} {v : α} {item : κ × α}
    (h : item ∈ set d key v) : item ∈ d ∨ item = (key, v) := by
  induction d with
  | nil => exact .inr (List.mem_singleton.mp h)
  | cons first rest ih =>
      obtain ⟨k, w⟩ := first
      rw [set] at h
      split at h
      · rcases List.mem_cons.mp h with heq | hrest
        · exact .inr heq
        · exact .inl (List.mem_cons_of_mem _ hrest)
      · rcases List.mem_cons.mp h with heq | hrest
        · exact .inl (heq ▸ List.mem_cons_self)
        · exact (ih hrest).imp_left (List.mem_cons_of_mem _)

/-- The pairs after a `dict.update`. -/
theorem mem_of_foldl_set {items d : List (κ × α)} {item : κ × α}
    (h : item ∈ items.foldl (fun d item => set d item.1 item.2) d) : item ∈ items ∨ item ∈ d := by
  induction items generalizing d with
  | nil => exact Or.inr h
  | cons first rest ih =>
      rcases ih h with hrest | hset
      · exact Or.inl (List.mem_cons_of_mem _ hrest)
      · rcases mem_of_mem_set hset with hold | rfl
        · exact Or.inr hold
        · exact Or.inl List.mem_cons_self

theorem mem_keys_foldl_set {items d : List (κ × α)} {key : κ} :
    key ∈ keys (items.foldl (fun d item => set d item.1 item.2) d) ↔
      key ∈ keys items ∨ key ∈ keys d := by
  induction items generalizing d with
  | nil => simp [keys]
  | cons first rest ih =>
      rw [List.foldl_cons, ih, mem_keys_set]
      simp only [keys, List.map_cons, List.mem_cons]
      tauto

/-- `pop` keeps the order. -/
theorem keys_pop_sublist (d : List (κ × α)) (key : κ) :
    (keys (pop d key)).Sublist (keys d) :=
  List.filter_sublist.map Prod.fst

/-- `set` repeats no key. -/
theorem nodup_keys_set {d : List (κ × α)} (h : (keys d).Nodup) (key : κ) (v : α) :
    (keys (set d key v)).Nodup := by
  induction d with
  | nil => simp [set, keys]
  | cons item rest ih =>
      obtain ⟨k, w⟩ := item
      rw [keys, List.map_cons, List.nodup_cons] at h
      by_cases hk : k = key
      · subst hk
        simpa [set, keys] using h
      · have hnot : k ∉ keys (set rest key v) := by
          rw [mem_keys_set]
          exact fun hmem => hmem.elim hk h.1
        rw [set, if_neg hk, keys, List.map_cons, List.nodup_cons]
        exact ⟨hnot, ih h.2⟩

theorem nodup_keys_pop {d : List (κ × α)} (h : (keys d).Nodup) (key : κ) :
    (keys (pop d key)).Nodup :=
  h.sublist (keys_pop_sublist d key)

/-- In a dictionary every pair of the list is found under its key. -/
theorem get_of_mem {d : List (κ × α)} (h : (keys d).Nodup) {key : κ} {v : α}
    (hmem : (key, v) ∈ d) : get d key = some v := by
  induction d with
  | nil => cases hmem
  | cons item rest ih =>
      obtain ⟨k, w⟩ := item
      rw [keys, List.map_cons, List.nodup_cons] at h
      rcases List.mem_cons.mp hmem with heq | hmem
      · cases heq
        simp [get]
      · have hne : k ≠ key := by
          rintro rfl
          exact h.1 (List.mem_map.mpr ⟨(k, v), hmem, rfl⟩)
        rw [get_cons, if_neg hne]
        exact ih h.2 hmem

/-- `pop` of a key that is not there. -/
theorem pop_of_not_mem {d : List (κ × α)} {key : κ} (h : key ∉ keys d) : pop d key = d := by
  apply List.filter_eq_self.mpr
  intro item hitem
  have hne : item.1 ≠ key := fun heq => h (heq ▸ List.mem_map_of_mem hitem)
  simpa using hne

/-- Removing a key takes its one pair out of the list. -/
theorem perm_cons_pop {d : List (κ × α)} (h : (keys d).Nodup) {key : κ} {v : α}
    (hget : get d key = some v) : d.Perm ((key, v) :: pop d key) := by
  induction d with
  | nil => cases hget
  | cons item rest ih =>
      obtain ⟨k, w⟩ := item
      rw [keys, List.map_cons, List.nodup_cons] at h
      rw [get_cons] at hget
      by_cases hk : k = key
      · obtain rfl : w = v := by simpa [hk] using hget
        have hrest : pop rest key = rest := pop_of_not_mem (hk ▸ h.1)
        have hpop : pop ((k, w) :: rest) key = pop rest key :=
          List.filter_cons_of_neg (by simp [hk])
        rw [hpop, hrest, hk]
      · have hpop : pop ((k, w) :: rest) key = (k, w) :: pop rest key :=
          List.filter_cons_of_pos (by simp [hk])
        rw [if_neg hk] at hget
        rw [hpop]
        exact ((ih h.2 hget).cons (k, w)).trans (List.Perm.swap _ _ _)

end OrderedDict
