import Zmqtt.SubscriptionIndex

/-!
# The subscription trie agrees with a linear scan

The registered pairs, in order of registration, are a list (`registered`).  A trie
is determined for our purpose by what it keeps under each path, `entriesAt`: `add`
appends at one path and `remove` filters at one path, so along any sequence of
operations the trie keeps under a path exactly the registered pairs whose filter
has these levels.

`collect` visits the paths of `patterns`, each once.  Every filter that matches a
topic and has `#` only as its last level is among them, so what `match` returns
is a permutation of the registered pairs that match.
-/

namespace Zmqtt

/-! ## A trie as a function of the path -/

/-- What a trie keeps under a path. -/
def Node.entriesAt (node : Node) : List Str → List IndexItem
  | [] => node.entries
  | part :: parts =>
      (OrderedDict.get (node.mapping part) part).elim [] fun child => child.entriesAt parts

@[simp] theorem Node.setMapping_entries (node : Node) (part : Str) (m : List (Str × Node)) :
    (node.setMapping part m).entries = node.entries := by
  unfold Node.setMapping
  split <;> rfl

theorem Node.mapping_setMapping (node : Node) (part other : Str) (m : List (Str × Node)) :
    (node.setMapping part m).mapping other =
      if isWildcard other = isWildcard part then m else node.mapping other := by
  unfold Node.setMapping Node.mapping
  cases hpart : isWildcard part <;> cases hother : isWildcard other <;> simp

/-- A change of one key of one dictionary is seen at that level only. -/
theorem Node.get_setMapping (node : Node) (part other : Str) (m : List (Str × Node))
    (hsame : ∀ key, key ≠ part →
      OrderedDict.get m key = OrderedDict.get (node.mapping part) key) :
    OrderedDict.get ((node.setMapping part m).mapping other) other =
      if other = part then OrderedDict.get m part
      else OrderedDict.get (node.mapping other) other := by
  rw [Node.mapping_setMapping]
  by_cases heq : other = part
  · subst heq
    rw [if_pos rfl, if_pos rfl]
  · rw [if_neg heq]
    by_cases hwild : isWildcard other = isWildcard part
    · rw [if_pos hwild, hsame other heq]
      unfold Node.mapping
      rw [hwild]
    · rw [if_neg hwild]

@[simp] theorem Node.empty_entriesAt (parts : List Str) : Node.empty.entriesAt parts = [] := by
  cases parts with
  | nil => rfl
  | cons part parts =>
      rw [Node.entriesAt]
      unfold Node.mapping Node.empty
      cases isWildcard part <;> rfl

theorem Node.eq_empty {node : Node} (h : node.isEmpty = true) : node = Node.empty := by
  unfold Node.isEmpty at h
  simp only [Bool.and_eq_true, List.isEmpty_iff] at h
  obtain ⟨⟨hc, hw⟩, he⟩ := h
  cases node
  simp_all [Node.empty]

theorem Node.getD_entriesAt (child : Option Node) (parts : List Str) :
    (child.getD Node.empty).entriesAt parts =
      child.elim [] fun child => child.entriesAt parts := by
  cases child with
  | none => exact Node.empty_entriesAt parts
  | some child => rfl

/-- `add` appends its item at one path. -/
theorem Node.entriesAt_insert (item : IndexItem) :
    ∀ (parts : List Str) (node : Node) (path : List Str),
      (node.insert parts item).entriesAt path =
        if path = parts then node.entriesAt path ++ [item] else node.entriesAt path := by
  intro parts
  induction parts with
  | nil =>
      intro node path
      cases path with
      | nil => rfl
      | cons part path =>
          rw [if_neg (by simp)]
          rfl
  | cons part parts ih =>
      intro node path
      cases path with
      | nil =>
          rw [if_neg (by simp), Node.insert, Node.entriesAt, Node.setMapping_entries]
          rfl
      | cons other path =>
          have hget := Node.get_setMapping node part other
            (OrderedDict.set (node.mapping part) part
              (((OrderedDict.get (node.mapping part) part).getD Node.empty).insert parts item))
            (fun key hkey => by rw [OrderedDict.get_set, if_neg (Ne.symm hkey)])
          rw [Node.insert, Node.entriesAt, hget, Node.entriesAt]
          by_cases heq : other = part
          · subst heq
            rw [if_pos rfl, OrderedDict.get_set, if_pos rfl]
            show Node.entriesAt _ path = _
            rw [ih, Node.getD_entriesAt]
            simp only [List.cons.injEq, true_and]
          · rw [if_neg heq, if_neg (by simp [heq])]

/-- `_remove_entry` filters at one path; a pruned node kept nothing. -/
theorem Node.entriesAt_removeEntry (item : IndexItem) :
    ∀ (parts : List Str) (node : Node) (path : List Str),
      (node.removeEntry parts item).entriesAt path =
        if path = parts then
          (node.entriesAt path).filter fun other =>
            !(other.1 = item.1 && other.2.oid = item.2.oid)
        else node.entriesAt path := by
  intro parts
  induction parts with
  | nil =>
      intro node path
      cases path with
      | nil => rfl
      | cons part path =>
          rw [if_neg (by simp)]
          rfl
  | cons part parts ih =>
      intro node path
      cases hchild : OrderedDict.get (node.mapping part) part with
      | none =>
          simp only [Node.removeEntry, hchild]
          by_cases hpath : path = part :: parts
          · rw [if_pos hpath, hpath, Node.entriesAt, hchild]
            rfl
          · rw [if_neg hpath]
      | some child =>
          -- popping the empty child or storing it back gives the same paths
          have hresult : ∀ other path,
              (node.removeEntry (part :: parts) item).entriesAt (other :: path) =
                if other = part then (child.removeEntry parts item).entriesAt path
                else node.entriesAt (other :: path) := by
            intro other path
            simp only [Node.removeEntry, hchild]
            by_cases hempty : (child.removeEntry parts item).isEmpty = true
            · have hget := Node.get_setMapping node part other
                (OrderedDict.pop (node.mapping part) part)
                (fun key hkey => by rw [OrderedDict.get_pop, if_neg (Ne.symm hkey)])
              rw [if_pos hempty, Node.entriesAt, hget, Node.entriesAt]
              by_cases heq : other = part
              · rw [if_pos heq, if_pos heq, OrderedDict.get_pop, if_pos rfl,
                  Node.eq_empty hempty, Node.empty_entriesAt]
                rfl
              · rw [if_neg heq, if_neg heq]
            · have hget := Node.get_setMapping node part other
                (OrderedDict.set (node.mapping part) part (child.removeEntry parts item))
                (fun key hkey => by rw [OrderedDict.get_set, if_neg (Ne.symm hkey)])
              rw [if_neg hempty, Node.entriesAt, hget, Node.entriesAt]
              by_cases heq : other = part
              · rw [if_pos heq, if_pos heq, OrderedDict.get_set, if_pos rfl]
                rfl
              · rw [if_neg heq, if_neg heq]
          cases path with
          | nil =>
              rw [if_neg (by simp), Node.entriesAt, Node.entriesAt]
              simp only [Node.removeEntry, hchild]
              split <;> exact Node.setMapping_entries _ _ _
          | cons other path =>
              rw [hresult]
              by_cases heq : other = part
              · subst heq
                rw [if_pos rfl, ih, Node.entriesAt, hchild]
                simp only [List.cons.injEq, true_and]
                rfl
              · rw [if_neg heq, if_neg (by simp [heq])]

/-! ## Well-formed tries -/

/-- Both dictionaries of a node hold each key once and only their own kind of
level, and no node below is empty. -/
inductive Node.WellFormed : Node → Prop
  | mk {node : Node}
      (nodup_children : (OrderedDict.keys node.children).Nodup)
      (nodup_wildcard : (OrderedDict.keys node.wildcardChildren).Nodup)
      (literal : ∀ key ∈ OrderedDict.keys node.children, isWildcard key = false)
      (wildcard : ∀ key ∈ OrderedDict.keys node.wildcardChildren, isWildcard key = true)
      (nonempty : ∀ part child, OrderedDict.get (node.mapping part) part = some child →
        child.isEmpty = false)
      (below : ∀ part child, OrderedDict.get (node.mapping part) part = some child →
        child.WellFormed) :
      node.WellFormed

theorem Node.WellFormed.nodup_mapping {node : Node} (h : node.WellFormed) (part : Str) :
    (OrderedDict.keys (node.mapping part)).Nodup := by
  obtain ⟨hc, hw, -, -, -, -⟩ := h
  unfold Node.mapping
  split
  · exact hw
  · exact hc

theorem Node.WellFormed.kind {node : Node} (h : node.WellFormed) {part key : Str}
    (hkey : key ∈ OrderedDict.keys (node.mapping part)) : isWildcard key = isWildcard part := by
  obtain ⟨-, -, hl, hw, -, -⟩ := h
  unfold Node.mapping at hkey
  cases hpart : isWildcard part with
  | false =>
      rw [hpart] at hkey
      exact hl key hkey
  | true =>
      rw [hpart] at hkey
      exact hw key hkey

theorem Node.empty_wellFormed : Node.empty.WellFormed := by
  have hmap : ∀ part, Node.empty.mapping part = [] := by
    intro part
    unfold Node.mapping Node.empty
    cases isWildcard part <;> rfl
  refine .mk List.nodup_nil List.nodup_nil ?_ ?_ ?_ ?_
  · intro key hkey
    cases hkey
  · intro key hkey
    cases hkey
  · intro part child hget
    rw [hmap] at hget
    cases hget
  · intro part child hget
    rw [hmap] at hget
    cases hget

/-- A node stays well formed when one dictionary changes at one key, if the child
it then holds there, if any, is nonempty and well formed. -/
theorem Node.WellFormed.setMapping {node : Node} (h : node.WellFormed) {part : Str}
    {m : List (Str × Node)} (hnodup : (OrderedDict.keys m).Nodup)
    (hkeys : ∀ key ∈ OrderedDict.keys m, isWildcard key = isWildcard part)
    (hsame : ∀ key, key ≠ part →
      OrderedDict.get m key = OrderedDict.get (node.mapping part) key)
    (hchild : ∀ child, OrderedDict.get m part = some child →
      child.isEmpty = false ∧ child.WellFormed) :
    (node.setMapping part m).WellFormed := by
  have hget : ∀ other child,
      OrderedDict.get ((node.setMapping part m).mapping other) other = some child →
      child.isEmpty = false ∧ child.WellFormed := by
    intro other child hother
    rw [Node.get_setMapping node part other m hsame] at hother
    by_cases heq : other = part
    · rw [if_pos heq] at hother
      exact hchild child hother
    · rw [if_neg heq] at hother
      obtain ⟨-, -, -, -, hne, hb⟩ := h
      exact ⟨hne other child hother, hb other child hother⟩
  obtain ⟨hc, hw, hl, hwild, -, -⟩ := h
  unfold Node.setMapping at hget ⊢
  cases hpart : isWildcard part with
  | false =>
      rw [hpart] at hget hkeys
      exact .mk hnodup hw hkeys hwild (fun other child hother => (hget other child hother).1)
        (fun other child hother => (hget other child hother).2)
  | true =>
      rw [hpart] at hget hkeys
      exact .mk hc hnodup hl hkeys (fun other child hother => (hget other child hother).1)
        (fun other child hother => (hget other child hother).2)

/-- Storing a nonempty well-formed child keeps the node well formed. -/
theorem Node.WellFormed.setChild {node child : Node} (h : node.WellFormed) (part : Str)
    (hne : child.isEmpty = false) (hchild : child.WellFormed) :
    (node.setMapping part (OrderedDict.set (node.mapping part) part child)).WellFormed := by
  refine h.setMapping (OrderedDict.nodup_keys_set (h.nodup_mapping part) _ _) ?_ ?_ ?_
  · intro key hkey
    rcases OrderedDict.mem_keys_set.mp hkey with rfl | hkey
    · rfl
    · exact h.kind hkey
  · intro key hkey
    rw [OrderedDict.get_set, if_neg (Ne.symm hkey)]
  · intro other hother
    rw [OrderedDict.get_set, if_pos rfl] at hother
    cases hother
    exact ⟨hne, hchild⟩

theorem Node.insert_nonempty (item : IndexItem) (parts : List Str) (node : Node) :
    (node.insert parts item).isEmpty = false := by
  have hne : (node.insert parts item).entriesAt parts ≠ [] := by
    rw [Node.entriesAt_insert, if_pos rfl]
    simp
  by_contra hempty
  rw [Bool.not_eq_false] at hempty
  rw [Node.eq_empty hempty, Node.empty_entriesAt] at hne
  exact hne rfl

theorem Node.WellFormed.insert (item : IndexItem) :
    ∀ (parts : List Str) {node : Node}, node.WellFormed → (node.insert parts item).WellFormed := by
  intro parts
  induction parts with
  | nil =>
      intro node h
      obtain ⟨hc, hw, hl, hwild, hne, hb⟩ := h
      exact .mk hc hw hl hwild hne hb
  | cons part parts ih =>
      intro node h
      rw [Node.insert]
      have hchild : ((OrderedDict.get (node.mapping part) part).getD Node.empty).WellFormed := by
        cases hget : OrderedDict.get (node.mapping part) part with
        | none => exact Node.empty_wellFormed
        | some child =>
            obtain ⟨-, -, -, -, -, hb⟩ := h
            exact hb part child hget
      exact h.setChild part (Node.insert_nonempty item parts _) (ih hchild)

theorem Node.WellFormed.removeEntry (item : IndexItem) :
    ∀ (parts : List Str) {node : Node},
      node.WellFormed → (node.removeEntry parts item).WellFormed := by
  intro parts
  induction parts with
  | nil =>
      intro node h
      obtain ⟨hc, hw, hl, hwild, hne, hb⟩ := h
      exact .mk hc hw hl hwild hne hb
  | cons part parts ih =>
      intro node h
      cases hget : OrderedDict.get (node.mapping part) part with
      | none =>
          simp only [Node.removeEntry, hget]
          exact h
      | some child =>
          have hchild : child.WellFormed := by
            obtain ⟨-, -, -, -, -, hb⟩ := h
            exact hb part child hget
          simp only [Node.removeEntry, hget]
          by_cases hempty : (child.removeEntry parts item).isEmpty = true
          · rw [if_pos hempty]
            refine h.setMapping (OrderedDict.nodup_keys_pop (h.nodup_mapping part) _) ?_ ?_ ?_
            · intro key hkey
              exact h.kind (OrderedDict.mem_keys_pop.mp hkey).2
            · intro key hkey
              rw [OrderedDict.get_pop, if_neg (Ne.symm hkey)]
            · intro other hother
              rw [OrderedDict.get_pop, if_pos rfl] at hother
              cases hother
          · rw [if_neg hempty]
            exact h.setChild part (by simpa using hempty) (ih hchild)

/-- A nonempty well-formed trie keeps something under some path. -/
theorem Node.WellFormed.exists_entry {node : Node} (h : node.WellFormed)
    (hne : node.isEmpty = false) : ∃ path, node.entriesAt path ≠ [] := by
  induction h with
  | @mk node hc hw hl hwild hnonempty hbelow ih =>
      have hdown : ∀ part, part ∈ OrderedDict.keys (node.mapping part) →
          ∃ path, node.entriesAt path ≠ [] := by
        intro part hpart
        obtain ⟨child, hget⟩ := (OrderedDict.mem_keys_iff _ _).mp hpart
        obtain ⟨path, hpath⟩ := ih part child hget (hnonempty part child hget)
        refine ⟨part :: path, ?_⟩
        rw [Node.entriesAt, hget]
        exact hpath
      by_cases hentries : node.entries = []
      · rcases hchildren : node.children with _ | ⟨⟨part, child⟩, rest⟩
        · rcases hwildcard : node.wildcardChildren with _ | ⟨⟨part, child⟩, rest⟩
          · simp [Node.isEmpty, hentries, hchildren, hwildcard] at hne
          · have hmem : part ∈ OrderedDict.keys node.wildcardChildren := by
              simp [hwildcard, OrderedDict.keys]
            apply hdown part
            rw [Node.mapping, hwild part hmem]
            exact hmem
        · have hmem : part ∈ OrderedDict.keys node.children := by
            simp [hchildren, OrderedDict.keys]
          apply hdown part
          rw [Node.mapping, hl part hmem]
          exact hmem
      · exact ⟨[], hentries⟩

/-- The nodes of a trie other than its root. -/
inductive Node.Below (root : Node) : Node → Prop
  | child {key : Str} {child : Node}
      (h : (key, child) ∈ root.children ++ root.wildcardChildren) : root.Below child
  | step {node : Node} {key : Str} {child : Node} (before : root.Below node)
      (h : (key, child) ∈ node.children ++ node.wildcardChildren) : root.Below child

/-- A child stored in either dictionary is the child for its level. -/
theorem Node.WellFormed.get_of_mem {node child : Node} (h : node.WellFormed) {key : Str}
    (hmem : (key, child) ∈ node.children ++ node.wildcardChildren) :
    OrderedDict.get (node.mapping key) key = some child := by
  obtain ⟨hc, hw, hl, hwild, -, -⟩ := h
  rcases List.mem_append.mp hmem with hmem | hmem
  · rw [Node.mapping, hl key (List.mem_map_of_mem hmem)]
    exact OrderedDict.get_of_mem hc hmem
  · rw [Node.mapping, hwild key (List.mem_map_of_mem hmem)]
    exact OrderedDict.get_of_mem hw hmem

theorem Node.WellFormed.of_below {root node : Node} (h : root.WellFormed)
    (hbelow : root.Below node) : node.isEmpty = false ∧ node.WellFormed := by
  induction hbelow with
  | child hmem =>
      have hget := h.get_of_mem hmem
      obtain ⟨-, -, -, -, hne, hb⟩ := h
      exact ⟨hne _ _ hget, hb _ _ hget⟩
  | step before hmem ih =>
      have hget := ih.2.get_of_mem hmem
      obtain ⟨-, -, -, -, hne, hb⟩ := ih.2
      exact ⟨hne _ _ hget, hb _ _ hget⟩

/-! ## The paths a topic visits -/

/-- The paths `_collect` visits for the levels of a topic, in order. -/
def patterns : List Str → List (List Str)
  | [] => [[str "#"], []]
  | part :: parts =>
      [str "#"] ::
        ((if isWildcard part then [] else (patterns parts).map (part :: ·)) ++
          (patterns parts).map (str "+" :: ·))

/-- `#` stands only as the last level. -/
def hashLast : List Str → Bool
  | [] => true
  | part :: parts => (part ≠ str "#" || parts.isEmpty) && hashLast parts

theorem Node.entriesAt_hash (node : Node) :
    (OrderedDict.get node.wildcardChildren (str "#")).elim [] Node.entries =
      node.entriesAt [str "#"] := rfl

/-- `_collect` reads the paths of `patterns` one after the other. -/
theorem Node.WellFormed.collect_eq :
    ∀ (parts : List Str) {node : Node}, node.WellFormed →
      node.collect parts = (patterns parts).flatMap node.entriesAt := by
  intro parts
  induction parts with
  | nil =>
      intro node _
      simp [Node.collect, patterns, Node.entriesAt_hash, Node.entriesAt]
  | cons part parts ih =>
      intro node h
      have hbelow : ∀ (key : Str), (∀ child,
          OrderedDict.get (node.mapping key) key = some child → child.WellFormed) := by
        obtain ⟨-, -, -, -, -, hb⟩ := h
        exact hb
      have hchild : ∀ key, (OrderedDict.get (node.mapping key) key).elim []
          (fun child => child.collect parts) =
          (patterns parts).flatMap fun path => node.entriesAt (key :: path) := by
        intro key
        cases hget : OrderedDict.get (node.mapping key) key with
        | none => simp [Node.entriesAt, hget]
        | some child =>
            simp only [Node.entriesAt, hget, Option.elim_some]
            exact ih (hbelow key child hget)
      have hplus : (OrderedDict.get node.wildcardChildren (str "+")).elim []
          (fun child => child.collect parts) =
          (patterns parts).flatMap fun path => node.entriesAt (str "+" :: path) :=
        hchild (str "+")
      have hliteral : (OrderedDict.get node.children part).elim []
          (fun child => child.collect parts) =
          (if isWildcard part then [] else (patterns parts).map (part :: ·)).flatMap
            node.entriesAt := by
        cases hwild : isWildcard part with
        | true =>
            have hnone : OrderedDict.get node.children part = none := by
              rw [OrderedDict.get_eq_none_iff]
              intro hmem
              obtain ⟨-, -, hl, -, -, -⟩ := h
              rw [hl part hmem] at hwild
              cases hwild
            rw [hnone]
            rfl
        | false =>
            have hkey := hchild part
            rw [Node.mapping, hwild] at hkey
            rw [if_neg (by decide), List.flatMap_map]
            exact hkey
      rw [Node.collect, Node.entriesAt_hash, hplus, hliteral, patterns, List.flatMap_cons,
        List.flatMap_append, List.flatMap_map]

theorem patterns_nodup (parts : List Str) : (patterns parts).Nodup := by
  induction parts with
  | nil => decide
  | cons part parts ih =>
      have hcons : ∀ key : Str, ((patterns parts).map (key :: ·)).Nodup :=
        fun key => ih.map (fun a b hab => (List.cons.inj hab).2)
      have hplus : str "#" ≠ str "+" := by decide
      rw [patterns, List.nodup_cons]
      constructor
      · intro hmem
        rcases List.mem_append.mp hmem with hmem | hmem
        · cases hwild : isWildcard part with
          | true =>
              rw [hwild] at hmem
              cases hmem
          | false =>
              rw [hwild] at hmem
              obtain ⟨path, -, heq⟩ := List.mem_map.mp hmem
              have hpart := (List.cons.inj heq).1
              simp [isWildcard, hpart] at hwild
        · obtain ⟨path, -, heq⟩ := List.mem_map.mp hmem
          exact hplus (List.cons.inj heq).1.symm
      · cases hwild : isWildcard part with
        | true => simpa using hcons (str "+")
        | false =>
            refine List.Nodup.append (hcons part) (hcons (str "+")) ?_
            intro path hleft hright
            obtain ⟨a, -, rfl⟩ := List.mem_map.mp hleft
            obtain ⟨b, -, heq⟩ := List.mem_map.mp hright
            have hpart := (List.cons.inj heq).1
            simp [isWildcard, ← hpart] at hwild

/-- A filter that matches the topic and has `#` only last is visited. -/
theorem mem_patterns_of_match :
    ∀ (fparts tparts : List Str), matchParts fparts tparts = true → hashLast fparts = true →
      fparts ∈ patterns tparts := by
  intro fparts
  induction fparts with
  | nil =>
      intro tparts hmatch _
      cases tparts with
      | nil => simp [patterns]
      | cons tpart tparts => simp [matchParts] at hmatch
  | cons fpart fparts ih =>
      intro tparts hmatch hhash
      by_cases hlast : fpart = str "#"
      · simp only [hashLast, hlast, ne_eq, not_true_eq_false, decide_false, Bool.false_or,
          Bool.and_eq_true, List.isEmpty_iff] at hhash
        rw [hlast, hhash.1]
        cases tparts <;> simp [patterns]
      · rw [hashLast, Bool.and_eq_true] at hhash
        cases tparts with
        | nil => simp [matchParts, hlast] at hmatch
        | cons tpart tparts =>
            rw [matchParts, if_neg hlast] at hmatch
            by_cases hne : fpart ≠ str "+" ∧ fpart ≠ tpart
            · rw [if_pos hne] at hmatch
              cases hmatch
            · rw [if_neg hne] at hmatch
              have hmem := ih tparts hmatch hhash.2
              rw [patterns, List.mem_cons, List.mem_append]
              by_cases hplus : fpart = str "+"
              · right; right
                rw [hplus]
                exact List.mem_map_of_mem hmem
              · right; left
                have heq : fpart = tpart := by
                  by_contra hneq
                  exact hne ⟨hplus, hneq⟩
                have hwild : isWildcard tpart = false := by
                  rw [← heq]
                  simp [isWildcard, hplus, hlast]
                rw [hwild, ← heq]
                exact List.mem_map_of_mem hmem

/-- Sorting a list by key, key after key, permutes it. -/
theorem flatMap_filter_perm {α κ : Type} [DecidableEq κ] (key : α → κ) (l : List α) :
    ∀ ks : List κ, ks.Nodup →
      (ks.flatMap fun k => l.filter fun a => key a = k).Perm
        (l.filter fun a => key a ∈ ks) := by
  intro ks
  induction ks with
  | nil =>
      intro _
      simp
  | cons k ks ih =>
      intro hnodup
      rw [List.nodup_cons] at hnodup
      have hsplit := List.filter_append_perm (fun a => decide (key a = k))
        (l.filter fun a => key a ∈ k :: ks)
      rw [List.filter_filter, List.filter_filter] at hsplit
      have hleft : (l.filter fun a => decide (key a = k) && decide (key a ∈ k :: ks)) =
          l.filter fun a => key a = k := by
        apply List.filter_congr
        intro a _
        by_cases hk : key a = k <;> simp [hk]
      have hright : (l.filter fun a => !decide (key a = k) && decide (key a ∈ k :: ks)) =
          l.filter fun a => key a ∈ ks := by
        apply List.filter_congr
        intro a _
        by_cases hk : key a = k
        · simp [hk, hnodup.1]
        · simp [hk]
      rw [hleft, hright] at hsplit
      rw [List.flatMap_cons]
      exact ((ih hnodup.2).append_left _).trans hsplit

/-! ## The three views along a run -/

/-- An operation of the index. -/
inductive IndexOp
  | add (filter : Str) (entry : SubscriptionEntry)
  | addMany (entries : List IndexItem)
  | remove (filter : Str)
  | clear

def SubscriptionIndex.apply (index : SubscriptionIndex) : IndexOp → SubscriptionIndex
  | .add filter entry => index.add filter entry
  | .addMany entries => index.addMany entries
  | .remove filter => (index.remove filter).1
  | .clear => index.clear

/-- The items an operation registers. -/
def IndexOp.items : IndexOp → List IndexItem
  | .add filter entry => [(filter, entry)]
  | .addMany entries => entries
  | .remove _ => []
  | .clear => []

/-- Registering a filter again moves it to the end, with its new entry. -/
def register (pairs : List IndexItem) (item : IndexItem) : List IndexItem :=
  (pairs.filter fun other => other.1 ≠ item.1) ++ [item]

/-- The registered pairs after an operation. -/
def registerOp (pairs : List IndexItem) : IndexOp → List IndexItem
  | .add filter entry => register pairs (filter, entry)
  | .addMany entries => entries.foldl register pairs
  | .remove filter => pairs.filter fun other => other.1 ≠ filter
  | .clear => []

/-- The registered pairs after a sequence of operations, in order of
registration. -/
def registered (ops : List IndexOp) : List IndexItem := ops.foldl registerOp []

/-- Dictionary, trie and identifier map all show the registered pairs. -/
structure SubscriptionIndex.Shows (index : SubscriptionIndex) (pairs : List IndexItem) :
    Prop where
  entries_eq : index.entries = pairs
  nodup : (OrderedDict.keys pairs).Nodup
  wellFormed : index.root.WellFormed
  tree : ∀ path, index.root.entriesAt path = pairs.filter fun item => treeParts item = path
  identifiers : ∀ i, index.byIdentifier i =
    pairs.filter fun item => item.2.subscriptionIdentifier = some i

namespace SubscriptionIndex

variable {index : SubscriptionIndex} {pairs : List IndexItem}

/-- In the registered pairs a filter determines its entry. -/
theorem Shows.entry_unique (h : index.Shows pairs) {filter : Str} {entry : SubscriptionEntry}
    (hget : OrderedDict.get pairs filter = some entry) {item : IndexItem} (hmem : item ∈ pairs)
    (hfilter : item.1 = filter) : item = (filter, entry) := by
  obtain ⟨f, e⟩ := item
  cases hfilter
  have hget' := OrderedDict.get_of_mem h.nodup hmem
  rw [hget] at hget'
  cases hget'
  rfl

theorem get_dropIdentifier (byId : List (Int × List IndexItem)) (filter : Str)
    (identifier i : Int) :
    (OrderedDict.get (dropIdentifier byId filter identifier) i).getD [] =
      if identifier = i then
        OrderedDict.pop ((OrderedDict.get byId i).getD []) filter
      else (OrderedDict.get byId i).getD [] := by
  unfold dropIdentifier
  cases hget : OrderedDict.get byId identifier with
  | none =>
      by_cases hi : identifier = i
      · subst hi
        simp [hget, OrderedDict.pop]
      · rw [if_neg hi]
  | some identified =>
      by_cases hempty : (OrderedDict.pop identified filter).isEmpty = true
      · simp only [if_pos hempty, OrderedDict.get_pop]
        by_cases hi : identifier = i
        · subst hi
          simpa [hget] using (List.isEmpty_iff.mp hempty).symm
        · rw [if_neg hi, if_neg hi]
      · simp only [if_neg hempty, OrderedDict.get_set]
        by_cases hi : identifier = i
        · subst hi
          simp [hget]
        · rw [if_neg hi, if_neg hi]

theorem Shows.remove (h : index.Shows pairs) (filter : Str) :
    (index.remove filter).1.Shows (pairs.filter fun other => other.1 ≠ filter) := by
  unfold SubscriptionIndex.remove
  rw [h.entries_eq]
  cases hget : OrderedDict.get pairs filter with
  | none =>
      have hnot := (OrderedDict.get_eq_none_iff _ _).mp hget
      have hsame := OrderedDict.pop_of_not_mem hnot
      rw [OrderedDict.pop] at hsame
      rw [hsame]
      exact h
  | some entry =>
      refine ⟨rfl, OrderedDict.nodup_keys_pop h.nodup filter,
        h.wellFormed.removeEntry _ _, ?_, ?_⟩
      · intro path
        show (index.root.removeEntry _ _).entriesAt path = _
        rw [Node.entriesAt_removeEntry, h.tree]
        by_cases hpath : path = treeParts (filter, entry)
        · rw [if_pos hpath, List.filter_filter, List.filter_filter]
          apply List.filter_congr
          intro item hitem
          by_cases hfilter : item.1 = filter
          · rw [h.entry_unique hget hitem hfilter]
            simp
          · simp [hfilter]
        · rw [if_neg hpath, List.filter_filter]
          apply List.filter_congr
          intro item hitem
          by_cases hfilter : item.1 = filter
          · rw [h.entry_unique hget hitem hfilter]
            simp [Ne.symm hpath]
          · simp [hfilter]
      · intro i
        have hids := h.identifiers i
        unfold SubscriptionIndex.byIdentifier at hids ⊢
        cases hid : entry.subscriptionIdentifier with
        | none =>
            simp only [hid]
            rw [hids, List.filter_filter]
            apply List.filter_congr
            intro item hitem
            by_cases hfilter : item.1 = filter
            · rw [h.entry_unique hget hitem hfilter]
              simp [hid]
            · simp [hfilter]
        | some identifier =>
            simp only [hid]
            rw [get_dropIdentifier, hids]
            by_cases hi : identifier = i
            · rw [if_pos hi, OrderedDict.pop, List.filter_filter, List.filter_filter]
              apply List.filter_congr
              intro item _
              exact Bool.and_comm _ _
            · rw [if_neg hi, List.filter_filter]
              apply List.filter_congr
              intro item hitem
              by_cases hfilter : item.1 = filter
              · rw [h.entry_unique hget hitem hfilter]
                simp [hid, hi]
              · simp [hfilter]

theorem Shows.insert (h : index.Shows pairs) {filter : Str} (entry : SubscriptionEntry)
    (hnew : filter ∉ OrderedDict.keys pairs) :
    (index.insert filter entry).Shows (pairs ++ [(filter, entry)]) := by
  refine ⟨?_, ?_, h.wellFormed.insert _ _, ?_, ?_⟩
  · show OrderedDict.set index.entries filter entry = _
    rw [h.entries_eq, OrderedDict.set_of_not_mem hnew]
  · rw [← OrderedDict.set_of_not_mem hnew]
    exact OrderedDict.nodup_keys_set h.nodup _ _
  · intro path
    show (index.root.insert _ _).entriesAt path = _
    rw [Node.entriesAt_insert, h.tree, List.filter_append]
    by_cases hpath : path = treeParts (filter, entry)
    · simp [hpath]
    · simp [hpath, Ne.symm hpath]
  · intro i
    have hids := h.identifiers i
    unfold SubscriptionIndex.byIdentifier at hids ⊢
    unfold SubscriptionIndex.insert
    rw [List.filter_append]
    cases hid : entry.subscriptionIdentifier with
    | none => simp [hid, hids]
    | some identifier =>
        simp only [OrderedDict.get_set]
        by_cases hi : identifier = i
        · subst hi
          have hnot : filter ∉ OrderedDict.keys
              (pairs.filter fun item => item.2.subscriptionIdentifier = some identifier) := by
            intro hmem
            exact hnew ((List.filter_sublist.map Prod.fst).subset hmem)
          rw [if_pos rfl, hids, Option.getD_some, OrderedDict.set_of_not_mem hnot]
          simp [hid]
        · rw [if_neg hi, hids]
          simp [hid, hi]

/-- **Registering keeps the three views in step**, whether the filter is new or
registered with another entry. -/
theorem Shows.add (h : index.Shows pairs) (filter : Str) (entry : SubscriptionEntry) :
    (index.add filter entry).Shows (register pairs (filter, entry)) := by
  unfold SubscriptionIndex.add SubscriptionIndex.contains
  rw [h.entries_eq]
  by_cases hsome : (OrderedDict.get pairs filter).isSome = true
  · rw [if_pos hsome]
    exact (h.remove filter).insert entry
      (fun hmem => (OrderedDict.mem_keys_pop.mp hmem).1 rfl)
  · rw [if_neg hsome]
    have hnot := (OrderedDict.get_eq_none_iff pairs filter).mp (by simpa using hsome)
    have hsame := OrderedDict.pop_of_not_mem hnot
    rw [OrderedDict.pop] at hsame
    rw [register, hsame]
    exact h.insert entry hnot

theorem empty_shows : ({} : SubscriptionIndex).Shows [] :=
  ⟨rfl, List.nodup_nil, Node.empty_wellFormed, Node.empty_entriesAt, fun _ => rfl⟩

theorem Shows.addMany (entries : List IndexItem) :
    ∀ {index : SubscriptionIndex} {pairs : List IndexItem}, index.Shows pairs →
      (index.addMany entries).Shows (entries.foldl register pairs) := by
  induction entries with
  | nil =>
      intro index pairs h
      exact h
  | cons item entries ih =>
      intro index pairs h
      exact ih (h.add item.1 item.2)

/-- **Step.**  Every operation keeps the three views in step. -/
theorem Shows.apply (h : index.Shows pairs) (op : IndexOp) :
    (index.apply op).Shows (registerOp pairs op) := by
  cases op with
  | add filter entry => exact h.add filter entry
  | addMany entries => exact h.addMany entries
  | remove filter => exact h.remove filter
  | clear => exact empty_shows

/-- **Run.**  So does every sequence of operations. -/
theorem Shows.run (ops : List IndexOp) :
    ∀ {index : SubscriptionIndex} {pairs : List IndexItem}, index.Shows pairs →
      (ops.foldl SubscriptionIndex.apply index).Shows (ops.foldl registerOp pairs) := by
  induction ops with
  | nil =>
      intro index pairs h
      exact h
  | cons op ops ih =>
      intro index pairs h
      exact ih (h.apply op)

end SubscriptionIndex

/-- Every registered pair was registered by some operation. -/
theorem mem_of_mem_registered {item : IndexItem} :
    ∀ (ops : List IndexOp) (pairs : List IndexItem), item ∈ ops.foldl registerOp pairs →
      item ∈ pairs ∨ ∃ op ∈ ops, item ∈ op.items := by
  have hmany : ∀ (entries pairs : List IndexItem), item ∈ entries.foldl register pairs →
      item ∈ pairs ∨ item ∈ entries := by
    intro entries
    induction entries with
    | nil =>
        intro pairs hmem
        exact Or.inl hmem
    | cons first entries ih =>
        intro pairs hmem
        rcases ih _ hmem with hmem | hmem
        · rcases List.mem_append.mp hmem with hmem | hmem
          · exact Or.inl (List.mem_filter.mp hmem).1
          · exact Or.inr (List.mem_cons.mpr (Or.inl (List.mem_singleton.mp hmem)))
        · exact Or.inr (List.mem_cons_of_mem _ hmem)
  intro ops
  induction ops with
  | nil =>
      intro pairs hmem
      exact Or.inl hmem
  | cons op ops ih =>
      intro pairs hmem
      have hstep : item ∈ registerOp pairs op → item ∈ pairs ∨ item ∈ op.items := by
        intro hmem
        cases op with
        | add filter entry => exact hmany [(filter, entry)] pairs hmem
        | addMany entries => exact hmany entries pairs hmem
        | remove filter => exact Or.inl (List.mem_filter.mp hmem).1
        | clear => cases hmem
      rcases ih _ hmem with hmem | ⟨other, hother, hmem⟩
      · rcases hstep hmem with hmem | hmem
        · exact Or.inl hmem
        · exact Or.inr ⟨op, List.mem_cons_self, hmem⟩
      · exact Or.inr ⟨other, List.mem_cons_of_mem _ hother, hmem⟩

/-- What `match` returns is a permutation of the registered pairs that match. -/
theorem SubscriptionIndex.Shows.matching_perm {index : SubscriptionIndex}
    {pairs : List IndexItem} (h : index.Shows pairs)
    (hhash : ∀ item ∈ pairs, hashLast (treeParts item) = true) (topic : Str) :
    (index.matching topic).Perm
      (pairs.filter fun item => topicMatches (actualFilter item) topic) := by
  unfold SubscriptionIndex.matching
  refine (List.perm_insertionSort _ _).trans ?_
  have htree : index.root.entriesAt = fun path => pairs.filter fun item => treeParts item = path :=
    funext h.tree
  rw [h.wellFormed.collect_eq, htree]
  have hperm := (flatMap_filter_perm treeParts pairs (patterns (levels topic))
    (patterns_nodup _)).filter fun item => topicMatches (actualFilter item) topic
  refine hperm.trans ?_
  rw [List.filter_filter]
  apply List.Perm.of_eq
  apply List.filter_congr
  intro item hitem
  cases hmatch : topicMatches (actualFilter item) topic with
  | false => rfl
  | true =>
      have hparts : matchParts (treeParts item) (levels topic) = true := by
        unfold topicMatches at hmatch
        split at hmatch
        · cases hmatch
        · exact hmatch
      have hmem := mem_patterns_of_match _ _ hparts (hhash item hitem)
      simp [hmem]

/-- **The trie agrees with a linear scan.**  After any operations whose filters
have `#` only as their last level: `match` returns the registered pairs that
match the topic, each once; `by_identifier` returns those with the identifier in
order of registration; no node but the root is empty, and without registered
pairs the root is. -/
theorem index_agrees_with_scan (ops : List IndexOp)
    (hhash : ∀ op ∈ ops, ∀ item ∈ op.items, hashLast (treeParts item) = true) :
    (registered ops).Nodup ∧
      (∀ topic, ((ops.foldl SubscriptionIndex.apply {}).matching topic).Perm
        ((registered ops).filter fun item => topicMatches (actualFilter item) topic)) ∧
      (∀ i, (ops.foldl SubscriptionIndex.apply {}).byIdentifier i =
        (registered ops).filter fun item => item.2.subscriptionIdentifier = some i) ∧
      (∀ node, (ops.foldl SubscriptionIndex.apply {}).root.Below node → node.isEmpty = false) ∧
      (registered ops = [] → (ops.foldl SubscriptionIndex.apply {}).root = Node.empty) := by
  have h := SubscriptionIndex.empty_shows.run ops
  refine ⟨List.Nodup.of_map Prod.fst h.nodup, ?_, h.identifiers, ?_, ?_⟩
  · intro topic
    apply h.matching_perm
    intro item hitem
    rcases mem_of_mem_registered ops [] hitem with hmem | ⟨op, hop, hmem⟩
    · cases hmem
    · exact hhash op hop item hmem
  · intro node hbelow
    exact (h.wellFormed.of_below hbelow).1
  · intro hnone
    by_contra hroot
    have hne : (ops.foldl SubscriptionIndex.apply {}).root.isEmpty = false := by
      by_contra hempty
      rw [Bool.not_eq_false] at hempty
      exact hroot (Node.eq_empty hempty)
    obtain ⟨path, hpath⟩ := h.wellFormed.exists_entry hne
    rw [h.tree] at hpath
    rw [registered] at hnone
    rw [hnone] at hpath
    exact hpath rfl

/-- Two filters on one node, one of them registered again with another entry. -/
theorem index_agrees_with_scan_shared :
    (([IndexOp.add (str "a/+") { oid := 1, queue := 1 },
        .add (str "$share/g/a/#") { oid := 2, queue := 2, actualFilter := str "a/#" },
        .add (str "a/+") { oid := 3, queue := 3, actualFilter := str "a/#" }].foldl
          SubscriptionIndex.apply {}).matching (str "a")).Perm
      [(str "$share/g/a/#", { oid := 2, queue := 2, actualFilter := str "a/#" }),
        (str "a/+", { oid := 3, queue := 3, actualFilter := str "a/#" })] :=
  (index_agrees_with_scan _ (by decide)).2.1 (str "a")

end Zmqtt
