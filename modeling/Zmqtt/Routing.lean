import Mathlib.Data.List.Lex
import Zmqtt.MatchRule

/-!
# Which subscription a message goes to

`match` walks the trie and sorts what it finds, so its order is not the order of
registration.  Sorting is stable, and two filters that are equally specific and match the
same topic have the same levels, so they hang at the same node, where entries stand in the
order of registration.  Read for one specificity at a time, the sorted matches are the
registered matches, and this is all `_select_from` depends on.
-/

namespace Zmqtt

/-! ## Stable sorting, one key at a time -/

section Stable

variable {α κ : Type} [DecidableEq κ] {key : α → κ}

theorem filter_orderedInsert {r : α → α → Prop} [DecidableRel r]
    (hr : ∀ a b, key a = key b → r a b) (k : κ) (a : α) (l : List α) :
    ((l.orderedInsert r a).filter fun b => key b = k) = (a :: l).filter fun b => key b = k := by
  induction l with
  | nil => rfl
  | cons b l ih =>
      rw [List.orderedInsert_cons]
      by_cases hab : r a b
      · rw [if_pos hab]
      · rw [if_neg hab, List.filter_cons, ih]
        -- the new element goes behind `b`, so their keys differ
        have hne : key a ≠ key b := fun heq => hab (hr a b heq)
        by_cases hb : key b = k
        · have ha : key a ≠ k := fun ha => hne (ha.trans hb.symm)
          simp [hb, ha]
        · simp [List.filter_cons, hb]

theorem filter_insertionSort {r : α → α → Prop} [DecidableRel r]
    (hr : ∀ a b, key a = key b → r a b) (k : κ) (l : List α) :
    ((l.insertionSort r).filter fun b => key b = k) = l.filter fun b => key b = k := by
  induction l with
  | nil => rfl
  | cons a l ih =>
      rw [List.insertionSort_cons, filter_orderedInsert hr, List.filter_cons, List.filter_cons, ih]

/-- Sorting by keys keeps the order of elements that share theirs. -/
theorem filter_flatMap_of_one_key {q : α → Bool} {l : List α} {ks : List κ} (hnodup : ks.Nodup)
    (hone : ∀ a ∈ l, ∀ b ∈ l, q a = true → q b = true → key a = key b)
    (hmem : ∀ a ∈ l, q a = true → key a ∈ ks) :
    (ks.flatMap fun k => l.filter fun a => key a = k).filter q = l.filter q := by
  have hskip : ∀ {k₀ : κ} {others : List κ}, k₀ ∉ others →
      (∀ a ∈ l, q a = true → key a = k₀) →
      (others.flatMap fun k => l.filter fun a => key a = k).filter q = [] := by
    intro k₀ others hnot hkey
    rw [List.filter_eq_nil_iff]
    intro a ha hq
    obtain ⟨k, hk, ha⟩ := List.mem_flatMap.mp ha
    have hak := of_decide_eq_true (List.mem_filter.mp ha).2
    rw [hkey a (List.mem_filter.mp ha).1 hq] at hak
    exact hnot (hak ▸ hk)
  by_cases hexists : ∃ a ∈ l, q a = true
  · obtain ⟨a, ha, hqa⟩ := hexists
    have hkey : ∀ b ∈ l, q b = true → key b = key a := fun b hb hqb => hone b hb a ha hqb hqa
    obtain ⟨front, back, hks⟩ := List.append_of_mem (hmem a ha hqa)
    rw [hks, List.nodup_append, List.nodup_cons] at hnodup
    obtain ⟨-, ⟨hback, -⟩, hfront⟩ := hnodup
    rw [hks, List.flatMap_append, List.flatMap_cons, List.filter_append, List.filter_append,
      hskip hback hkey, hskip (fun hin => hfront _ hin _ List.mem_cons_self rfl) hkey,
      List.nil_append, List.append_nil, List.filter_filter]
    apply List.filter_congr
    intro b hb
    by_cases hqb : q b = true
    · simp [hqb, hkey b hb hqb]
    · simp [hqb]
  · have hnone : ∀ a ∈ l, ¬ q a = true := fun a ha hqa => hexists ⟨a, ha, hqa⟩
    rw [List.filter_eq_nil_iff.mpr hnone, List.filter_eq_nil_iff]
    intro a ha
    obtain ⟨k, -, ha⟩ := List.mem_flatMap.mp ha
    exact hnone a (List.mem_filter.mp ha).1

end Stable

/-! ## The order of specificities -/

theorem tupleLt_eq_false_iff {a b : List Nat} : tupleLt a b = false ↔ b ≤ a := by
  rw [← Bool.not_eq_true, tupleLt_iff, not_lt]

/-- The tuple an item is sorted by. -/
def specificity (item : IndexItem) : List Nat := filterSpecificity (actualFilter item)

/-- Two equally specific filters that match one topic have the same levels. -/
theorem parts_unique {f g t : List Str} (hf : matchParts f t = true) (hg : matchParts g t = true)
    (hfhash : hashLast f = true) (hghash : hashLast g = true)
    (hrank : f.map segmentRank = g.map segmentRank) : f = g := by
  induction f generalizing g t with
  | nil => simpa using hrank.symm
  | cons fpart f ih =>
      cases g with
      | nil => simp at hrank
      | cons gpart g =>
          rw [List.map_cons, List.map_cons, List.cons.injEq] at hrank
          have hkind : (fpart = str "#" ↔ gpart = str "#") ∧
              (fpart = str "+" ↔ gpart = str "+") := by
            have hranks := hrank.1
            have hne : str "+" ≠ str "#" := by decide
            unfold segmentRank at hranks
            split_ifs at hranks with h₁ h₂ h₃ h₄ h₅ h₆ h₇ h₈
            all_goals simp_all
          rw [hashLast, Bool.and_eq_true] at hfhash hghash
          by_cases hhash : fpart = str "#"
          · have hgpart := hkind.1.mp hhash
            simp only [hhash, hgpart, ne_eq, not_true_eq_false, decide_false, Bool.false_or,
              List.isEmpty_iff] at hfhash hghash
            rw [hhash, hgpart, hfhash.1, hghash.1]
          · have hghash' : gpart ≠ str "#" := fun h => hhash (hkind.1.mpr h)
            cases t with
            | nil => simp [matchParts_nil_right hhash] at hf
            | cons tpart t =>
                rw [matchParts_cons hhash] at hf
                rw [matchParts_cons hghash'] at hg
                have hpart : fpart = gpart := by
                  by_cases hplus : fpart = str "+"
                  · rw [hplus, hkind.2.mp hplus]
                  · have hgplus : gpart ≠ str "+" := fun h => hplus (hkind.2.mpr h)
                    rw [hf.1.resolve_left hplus, hg.1.resolve_left hgplus]
                rw [hpart, ih hf.2 hg.2 hfhash.2 hghash.2 hrank.2]

/-! ## Selecting -/

/-- What a selection from candidates in the order of registration says. -/
structure Picks (candidates : List IndexItem) (selection : SubscriptionSelection) : Prop where
  none_iff : selection.recipient = none ↔ candidates = []
  least : ∀ item, selection.recipient = some item →
    item ∈ candidates ∧
      ∀ other ∈ candidates, tupleLt (specificity other) (specificity item) = false
  earliest : ∀ item, selection.recipient = some item →
    ∃ before after, candidates = before ++ item :: after ∧
      ∀ other ∈ before, specificity other ≠ specificity item
  tied : ∀ item, selection.recipient = some item →
    selection.tiedFilters =
      if 2 ≤ (candidates.filter fun other => specificity other = specificity item).length then
        (candidates.filter fun other => specificity other = specificity item).map Prod.fst
      else []
  untied : selection.recipient = none → selection.tiedFilters = []

namespace SubscriptionIndex

theorem bestKey_cons (first second : IndexItem) (rest : List IndexItem) :
    bestKey first (second :: rest) =
      bestKey (if tupleLt (specificity second) (specificity first) then second else first) rest := by
  unfold bestKey
  rw [List.foldl_cons, apply_ite actualFilter, apply_ite filterSpecificity]
  rfl

/-- `bestKey` is the least specificity of the candidates. -/
theorem bestKey_spec (first : IndexItem) (rest : List IndexItem) :
    (∀ item ∈ first :: rest, bestKey first rest ≤ specificity item) ∧
      ∃ item ∈ first :: rest, specificity item = bestKey first rest := by
  induction rest generalizing first with
  | nil =>
      refine ⟨fun item hitem => ?_, first, List.mem_cons_self, rfl⟩
      rw [List.mem_singleton.mp hitem]
      exact le_refl _
  | cons second rest ih =>
      rw [bestKey_cons]
      by_cases hlt : tupleLt (specificity second) (specificity first) = true
      · rw [if_pos hlt]
        obtain ⟨hle, item, hitem, heq⟩ := ih second
        refine ⟨fun other hother => ?_, item, List.mem_cons_of_mem _ hitem, heq⟩
        rcases List.mem_cons.mp hother with rfl | hother
        · exact (hle second List.mem_cons_self).trans (le_of_lt (tupleLt_iff.mp hlt))
        · exact hle other hother
      · rw [if_neg hlt]
        obtain ⟨hle, item, hitem, heq⟩ := ih first
        have hfirst := hle first List.mem_cons_self
        refine ⟨fun other hother => ?_, item, ?_, heq⟩
        · rcases List.mem_cons.mp hother with rfl | hother
          · exact hfirst
          · rcases List.mem_cons.mp hother with rfl | hother
            · exact hfirst.trans (not_lt.mp fun h => hlt (tupleLt_iff.mpr h))
            · exact hle other (List.mem_cons_of_mem _ hother)
        · rcases List.mem_cons.mp hitem with rfl | hitem
          · exact List.mem_cons_self
          · exact List.mem_cons_of_mem _ (List.mem_cons_of_mem _ hitem)

variable {candidates : List IndexItem}

/-- The first of the candidates that have a property. -/
theorem head?_filter_split {p : IndexItem → Bool} {item : IndexItem}
    (h : (candidates.filter p).head? = some item) :
    item ∈ candidates ∧ p item = true ∧
      ∃ before after, candidates = before ++ item :: after ∧ ∀ other ∈ before, ¬ p other = true := by
  rw [List.head?_filter, List.find?_eq_some_iff_append] at h
  obtain ⟨hp, before, after, hsplit, hbefore⟩ := h
  refine ⟨?_, hp, before, after, hsplit, fun other hother => by simpa using hbefore other hother⟩
  rw [hsplit]
  exact List.mem_append_right _ List.mem_cons_self

/-- `_select_from` picks from the candidates in their own order. -/
theorem selectFrom_picks (candidates : List IndexItem) : Picks candidates (selectFrom candidates) := by
  cases candidates with
  | nil =>
      have hnone : ∀ item, (selectFrom []).recipient ≠ some item := by simp [selectFrom]
      exact ⟨by simp [selectFrom], fun item h => absurd h (hnone item),
        fun item h => absurd h (hnone item), fun item h => absurd h (hnone item), fun _ => rfl⟩
  | cons first rest =>
      obtain ⟨hle, best, hbest, hkey⟩ := bestKey_spec first rest
      have hhead : ∀ item, (selectFrom (first :: rest)).recipient = some item →
          item ∈ first :: rest ∧ specificity item = bestKey first rest ∧
            ∃ before after, first :: rest = before ++ item :: after ∧
              ∀ other ∈ before, specificity other ≠ bestKey first rest := by
        intro item hitem
        obtain ⟨hmem, hp, before, after, hsplit, hbefore⟩ := head?_filter_split hitem
        exact ⟨hmem, of_decide_eq_true hp, before, after, hsplit,
          fun other hother heq => hbefore other hother (decide_eq_true heq)⟩
      have hsome : (selectFrom (first :: rest)).recipient ≠ none := by
        show ((first :: rest).filter fun item =>
          filterSpecificity (actualFilter item) = bestKey first rest).head? ≠ none
        rw [ne_eq, List.head?_eq_none_iff]
        exact List.ne_nil_of_mem (List.mem_filter.mpr ⟨hbest, decide_eq_true hkey⟩)
      refine ⟨?_, ?_, ?_, ?_, fun hnone => absurd hnone hsome⟩
      · simp [hsome]
      · intro item hitem
        obtain ⟨hmem, heq, -⟩ := hhead item hitem
        refine ⟨hmem, fun other hother => tupleLt_eq_false_iff.mpr ?_⟩
        rw [heq]
        exact hle other hother
      · intro item hitem
        obtain ⟨-, heq, before, after, hsplit, hbefore⟩ := hhead item hitem
        exact ⟨before, after, hsplit, fun other hother => by rw [heq]; exact hbefore other hother⟩
      · intro item hitem
        rw [(hhead item hitem).2.1]
        rfl

/-- A selection depends on the candidates of each specificity only. -/
theorem selectFrom_congr {a b : List IndexItem}
    (h : ∀ key, (a.filter fun item => specificity item = key) =
      b.filter fun item => specificity item = key) : selectFrom a = selectFrom b := by
  have hmem : ∀ item, item ∈ a ↔ item ∈ b := by
    intro item
    have hkey : ∀ l : List IndexItem,
        item ∈ l ↔ item ∈ l.filter fun other => specificity other = specificity item := by
      intro l
      simp [List.mem_filter]
    rw [hkey a, h, ← hkey b]
  cases a with
  | nil =>
      have hb : b = [] := List.eq_nil_iff_forall_not_mem.mpr fun item hitem =>
        List.not_mem_nil ((hmem item).mpr hitem)
      rw [hb]
  | cons first rest =>
      cases b with
      | nil => exact absurd ((hmem first).mp List.mem_cons_self) List.not_mem_nil
      | cons bfirst brest =>
          obtain ⟨hale, aitem, haitem, haeq⟩ := bestKey_spec first rest
          obtain ⟨hble, bitem, hbitem, hbeq⟩ := bestKey_spec bfirst brest
          have hbest : bestKey first rest = bestKey bfirst brest := by
            apply le_antisymm
            · rw [← hbeq]
              exact hale bitem ((hmem bitem).mpr hbitem)
            · rw [← haeq]
              exact hble aitem ((hmem aitem).mp haitem)
          have hwinners := h (bestKey first rest)
          rw [hbest] at hwinners
          unfold specificity at hwinners
          unfold selectFrom
          simp only [hbest, hwinners]

end SubscriptionIndex

/-! ## Routing -/

variable {index : SubscriptionIndex} {pairs : List IndexItem}

/-- Of each specificity, `match` returns the registered pairs in their order. -/
theorem SubscriptionIndex.Shows.matching_rank (h : index.Shows pairs)
    (hhash : ∀ item ∈ pairs, hashLast (treeParts item) = true) (topic : Str) (key : List Nat) :
    ((index.matching topic).filter fun item => specificity item = key) =
      (pairs.filter fun item => topicMatches (actualFilter item) topic).filter
        fun item => specificity item = key := by
  have htree : index.root.entriesAt = fun path => pairs.filter fun item => treeParts item = path :=
    funext h.tree
  have hparts : ∀ item : IndexItem, topicMatches (actualFilter item) topic = true →
      matchParts (treeParts item) (levels topic) = true :=
    fun item hmatch => (topicMatches_iff.mp hmatch).2
  unfold SubscriptionIndex.matching
  rw [filter_insertionSort (fun a b heq => ?_), h.wellFormed.collect_eq, htree,
    List.filter_filter, List.filter_filter]
  · apply filter_flatMap_of_one_key (patterns_nodup _)
    · intro a ha b hb hqa hqb
      rw [Bool.and_eq_true, decide_eq_true_eq] at hqa hqb
      exact parts_unique (hparts a hqa.2) (hparts b hqb.2) (hhash a ha) (hhash b hb)
        (hqa.1.trans hqb.1.symm)
    · intro a ha hqa
      rw [Bool.and_eq_true] at hqa
      exact mem_patterns_of_match _ _ (hparts a hqa.2) (hhash a ha)
  · exact tupleLt_eq_false_iff.mpr (le_of_eq heq)

theorem SubscriptionIndex.Shows.select_eq (h : index.Shows pairs)
    (hhash : ∀ item ∈ pairs, hashLast (treeParts item) = true) (topic : Str) :
    index.select topic =
      selectFrom (pairs.filter fun item => topicMatches (actualFilter item) topic) :=
  selectFrom_congr (h.matching_rank hhash topic)

/-- The registered pairs a message with the identifier can go to. -/
def identified (pairs : List IndexItem) (identifier : Int) : List IndexItem :=
  pairs.filter fun item => item.2.subscriptionIdentifier = some identifier

/-- Those that match the topic, or all of them if none does. -/
def identifiedFor (pairs : List IndexItem) (topic : Str) (identifier : Int) : List IndexItem :=
  if (identified pairs identifier).filter (fun item => topicMatches (actualFilter item) topic) ≠ []
  then (identified pairs identifier).filter fun item => topicMatches (actualFilter item) topic
  else identified pairs identifier

theorem SubscriptionIndex.Shows.selectByIdentifier_eq (h : index.Shows pairs) (topic : Str)
    (i : Int) :
    index.selectByIdentifier topic i =
      if identified pairs i ≠ [] then selectFrom (identifiedFor pairs topic i)
      else { index.select topic with identifierMissing := true } := by
  unfold SubscriptionIndex.selectByIdentifier identifiedFor
  rw [h.identifiers i]
  rfl

theorem SubscriptionIndex.selectFrom_identifierMissing (candidates : List IndexItem) :
    (selectFrom candidates).identifierMissing = false := by
  cases candidates <;> rfl

/-- **Routing picks the most specific, earliest registered subscription**, after any operations
whose filters have `#` only as their last level: of all that match, or of those with the
identifier of the message. -/
theorem routing_picks_most_specific (ops : List IndexOp)
    (hhash : ∀ op ∈ ops, ∀ item ∈ op.items, hashLast (treeParts item) = true) (topic : Str) :
    Picks ((registered ops).filter fun item => topicMatches (actualFilter item) topic)
        ((ops.foldl SubscriptionIndex.apply {}).select topic) ∧
      (∀ i, identified (registered ops) i ≠ [] →
        Picks (identifiedFor (registered ops) topic i)
          ((ops.foldl SubscriptionIndex.apply {}).selectByIdentifier topic i)) ∧
      ∀ i, (((ops.foldl SubscriptionIndex.apply {}).selectByIdentifier topic i).identifierMissing =
          true ↔ identified (registered ops) i = []) ∧
        (identified (registered ops) i = [] →
          (ops.foldl SubscriptionIndex.apply {}).selectByIdentifier topic i =
            { (ops.foldl SubscriptionIndex.apply {}).select topic with
              identifierMissing := true }) := by
  have h : (ops.foldl SubscriptionIndex.apply {}).Shows (registered ops) :=
    SubscriptionIndex.empty_shows.run ops
  have hpairs : ∀ item ∈ registered ops, hashLast (treeParts item) = true := by
    intro item hitem
    rcases mem_of_mem_registered ops [] hitem with hmem | ⟨op, hop, hmem⟩
    · exact absurd hmem List.not_mem_nil
    · exact hhash op hop item hmem
  refine ⟨?_, fun i hi => ?_, fun i => ?_⟩
  · rw [h.select_eq hpairs]
    exact SubscriptionIndex.selectFrom_picks _
  · rw [h.selectByIdentifier_eq, if_pos hi]
    exact SubscriptionIndex.selectFrom_picks _
  · rw [h.selectByIdentifier_eq]
    by_cases hi : identified (registered ops) i = []
    · rw [if_neg (not_not.mpr hi)]
      exact ⟨⟨fun _ => hi, fun _ => rfl⟩, fun _ => rfl⟩
    · rw [if_pos hi, SubscriptionIndex.selectFrom_identifierMissing]
      exact ⟨⟨fun hflag => absurd hflag Bool.false_ne_true, fun h => absurd h hi⟩,
        fun h => absurd h hi⟩

/-- Two decorated filters that are one filter for the broker, the first registered again. -/
theorem routing_picks_most_specific_tie :
    (([IndexOp.add (str "$share/g/a/+") { oid := 1, queue := 1, actualFilter := str "a/+" },
        .add (str "a/+") { oid := 2, queue := 2 }, .add (str "#") { oid := 3, queue := 3 },
        .add (str "$share/g/a/+") { oid := 4, queue := 4, actualFilter := str "a/+" }].foldl
          SubscriptionIndex.apply {}).select (str "a/b")).tiedFilters =
        [str "a/+", str "$share/g/a/+"] ∧
      Picks [(str "a/+", { oid := 2, queue := 2 }), (str "#", { oid := 3, queue := 3 }),
          (str "$share/g/a/+", { oid := 4, queue := 4, actualFilter := str "a/+" })]
        { recipient := some (str "a/+", { oid := 2, queue := 2 })
          tiedFilters := [str "a/+", str "$share/g/a/+"] } :=
  ⟨by decide +kernel, (routing_picks_most_specific
    [IndexOp.add (str "$share/g/a/+") { oid := 1, queue := 1, actualFilter := str "a/+" },
      .add (str "a/+") { oid := 2, queue := 2 }, .add (str "#") { oid := 3, queue := 3 },
      .add (str "$share/g/a/+") { oid := 4, queue := 4, actualFilter := str "a/+" }]
    (by decide) (str "a/b")).1⟩

end Zmqtt
