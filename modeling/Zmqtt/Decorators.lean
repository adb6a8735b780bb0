import Zmqtt.Protocol
import Zmqtt.Specificity

/-!
# Decorated filters

A filter may carry a decorator that the broker removes: `$share/<group>/` or one of the
`stripped_prefixes` and a `/`.  `_shared_filter_to_actual` recognises such a prefix as a whole
but removes the first level only, and the index takes an empty rest for a filter without
decorator.  Both paths match as the rest does exactly where the prefix is one level, the rest
is not empty and the trie can reach it.

What is removed are whole levels from the front, so the rest of an accepted filter follows the
grammar of filters again.
-/

namespace Zmqtt

/-- The prefixes are none of `$share`, and none is another one and more levels. -/
structure PlainPrefixes (strippedPrefixes : List Str) : Prop where
  no_share : ∀ p ∈ strippedPrefixes, startsWith p (str "$share") = false
  no_extension : ∀ p ∈ strippedPrefixes, ∀ q ∈ strippedPrefixes,
    startsWith p (q ++ str "/") = false

/-- `p + "/" + r`. -/
def decorated (p r : Str) : Str := p ++ str "/" ++ r

/-- `"$share/" + g + "/" + r`. -/
def shared (g r : Str) : Str := str "$share/" ++ g ++ str "/" ++ r

/-- The filter carries no decorator. -/
def Undecorated (strippedPrefixes : List Str) (filter : Str) : Prop :=
  (∀ p ∈ strippedPrefixes, ∀ r, filter ≠ decorated p r) ∧
    ∀ g r, CodePoint.ofChar '/' ∉ g → filter ≠ shared g r

/-- The index of a connection whose first subscription is `req`. -/
def indexOfOne (strippedPrefixes : List Str) (req : SubscriptionRequest) (queue : Nat)
    (autoAck : Bool) (identifier : Option Int) : SubscriptionIndex :=
  let s : Connection := { strippedPrefixes }
  s.state.subscriptions.addMany (s.newEntries [req] queue autoAck identifier).1

/-- Decorators are transparent: `topic_matches` and the index match as the rest `r` does. -/
structure Transparent (strippedPrefixes : List Str) (p g r : Str) : Prop where
  matches_decorated : ∀ topic,
    topicMatchesFilter (decorated p r) topic strippedPrefixes = topicMatches r topic
  matches_shared : ∀ topic,
    topicMatchesFilter (shared g r) topic strippedPrefixes = topicMatches r topic
  matches_undecorated : ∀ filter, Undecorated strippedPrefixes filter → ∀ topic,
    topicMatchesFilter filter topic strippedPrefixes = topicMatches filter topic
  index_matches : ∀ (req : SubscriptionRequest) (queue : Nat) (autoAck : Bool)
    (identifier : Option Int),
    req.topicFilter = decorated p r ∨ req.topicFilter = shared g r → ∀ topic,
    ((indexOfOne strippedPrefixes req queue autoAck identifier).matching topic ≠ [] ↔
      topicMatches r topic = true)

/-! ## What is stripped -/

theorem startsWith_iff {s head : Str} : startsWith s head = true ↔ head <+: s :=
  List.isPrefixOf_iff_prefix

theorem afterSlash_append {g : Str} (hg : CodePoint.ofChar '/' ∉ g) (r : Str) :
    afterSlash (g ++ CodePoint.ofChar '/' :: r) = some r := by
  induction g with
  | nil =>
      rw [List.nil_append, afterSlash]
      exact if_pos rfl
  | cons c g ih =>
      rw [List.mem_cons, not_or] at hg
      rw [List.cons_append, afterSlash, if_neg (Ne.symm hg.1)]
      exact ih hg.2

theorem afterSlash_eq_some {s r : Str} (h : afterSlash s = some r) :
    ∃ g, CodePoint.ofChar '/' ∉ g ∧ s = g ++ CodePoint.ofChar '/' :: r := by
  induction s with
  | nil => simp [afterSlash] at h
  | cons c s ih =>
      rw [afterSlash] at h
      by_cases hc : c = CodePoint.ofChar '/'
      · rw [if_pos hc] at h
        refine ⟨[], List.not_mem_nil, ?_⟩
        rw [hc, Option.some.inj h]
        rfl
      · rw [if_neg hc] at h
        obtain ⟨g, hg, hs⟩ := ih h
        refine ⟨c :: g, ?_, by rw [hs]; rfl⟩
        rw [List.mem_cons, not_or]
        exact ⟨Ne.symm hc, hg⟩

variable {P : List Str} {p g r filter topic : Str}

/-- Whichever prefix is recognised, the first level goes. -/
theorem stripDecorator_of_mem (h : ∃ q ∈ P, startsWith filter (q ++ str "/") = true) :
    stripDecorator filter P = (afterSlash filter).getD [] := by
  induction P with
  | nil =>
      obtain ⟨q, hq, -⟩ := h
      exact absurd hq List.not_mem_nil
  | cons first P ih =>
      rw [stripDecorator]
      by_cases hfirst : startsWith filter (first ++ str "/") = true
      · rw [if_pos hfirst]
      · rw [if_neg hfirst]
        obtain ⟨q, hq, hstart⟩ := h
        rcases List.mem_cons.mp hq with rfl | hq
        · exact absurd hstart hfirst
        · exact ih ⟨q, hq, hstart⟩

theorem stripDecorator_of_none (h : ∀ q ∈ P, ¬ startsWith filter (q ++ str "/") = true) :
    stripDecorator filter P = filter := by
  induction P with
  | nil => rfl
  | cons first P ih =>
      rw [List.forall_mem_cons] at h
      rw [stripDecorator, if_neg h.1]
      exact ih h.2

theorem startsWith_decorated : startsWith (decorated p r) (p ++ str "/") = true :=
  startsWith_iff.mpr (List.prefix_append _ _)

/-- A filter that starts with a prefix that is none of `$share` is no shared one. -/
theorem decorated_not_shared (hp : startsWith p (str "$share") = false) :
    ¬ startsWith (decorated p r) (str "$share/") = true := by
  intro hshare
  have hstart : str "$share" <+: decorated p r :=
    (by decide : str "$share" <+: str "$share/").trans (startsWith_iff.mp hshare)
  have hslash : p ++ str "/" <+: decorated p r := List.prefix_append _ _
  by_cases hlen : (str "$share").length ≤ p.length
  · have hbefore : p <+: decorated p r := (List.prefix_append _ _).trans hslash
    have hprefix := List.prefix_of_prefix_length_le hstart hbefore hlen
    rw [startsWith_iff.mpr hprefix] at hp
    exact absurd hp (by decide)
  · have hle : (p ++ str "/").length ≤ (str "$share").length := by
      rw [List.length_append]
      have hone : (str "/").length = 1 := rfl
      omega
    have hprefix := List.prefix_of_prefix_length_le hslash hstart hle
    have hmem : CodePoint.ofChar '/' ∈ str "$share" :=
      hprefix.subset (List.mem_append_right _ (by decide))
    exact absurd hmem (by decide)

theorem actual_decorated (hP : PlainPrefixes P) (hp : p ∈ P) :
    sharedFilterToActual (decorated p r) P = (afterSlash (decorated p r)).getD [] := by
  unfold sharedFilterToActual
  rw [if_neg (decorated_not_shared (hP.no_share p hp))]
  exact stripDecorator_of_mem ⟨p, hp, startsWith_decorated⟩

theorem actual_shared (hg : CodePoint.ofChar '/' ∉ g) : sharedFilterToActual (shared g r) P = r := by
  have hstart : startsWith (shared g r) (str "$share/") = true := by
    refine startsWith_iff.mpr ?_
    rw [shared, List.append_assoc, List.append_assoc]
    exact List.prefix_append _ _
  have hrest : (shared g r).drop (str "$share/").length = g ++ CodePoint.ofChar '/' :: r := by
    rw [shared, List.append_assoc, List.append_assoc, List.drop_left]
    rfl
  unfold sharedFilterToActual
  rw [if_pos hstart, hrest, afterSlash_append hg]

theorem actual_undecorated (h : Undecorated P filter) : sharedFilterToActual filter P = filter := by
  have hstrip : stripDecorator filter P = filter := by
    refine stripDecorator_of_none fun q hq hstart => ?_
    obtain ⟨rest, hrest⟩ := startsWith_iff.mp hstart
    exact h.1 q hq rest hrest.symm
  unfold sharedFilterToActual
  split_ifs with hshare
  · obtain ⟨rest, hrest⟩ := startsWith_iff.mp hshare
    rw [← hrest, List.drop_left]
    cases hafter : afterSlash rest with
    | none =>
        rw [hrest]
        exact hstrip
    | some actual =>
        obtain ⟨group, hgroup, heq⟩ := afterSlash_eq_some hafter
        refine absurd ?_ (h.2 group actual hgroup)
        rw [← hrest, heq, shared, List.append_assoc, List.append_assoc]
        rfl
  · exact hstrip

/-! ## An index with one entry -/

/-- The walk visits no path that goes on below `#`. -/
theorem hashLast_of_mem_patterns {tparts path : List Str} (h : path ∈ patterns tparts) :
    hashLast path = true := by
  induction tparts generalizing path with
  | nil =>
      rcases List.mem_cons.mp h with rfl | h
      · rfl
      · rw [List.mem_singleton.mp h]
        rfl
  | cons tpart tparts ih =>
      rw [patterns, List.mem_cons, List.mem_append] at h
      rcases h with rfl | h | h
      · rfl
      · by_cases hwild : isWildcard tpart = true
        · rw [if_pos hwild] at h
          exact absurd h List.not_mem_nil
        · rw [if_neg hwild] at h
          obtain ⟨rest, hrest, rfl⟩ := List.mem_map.mp h
          have hne : tpart ≠ str "#" := by
            rintro rfl
            exact hwild (by decide)
          simp [hashLast, hne, ih hrest]
      · obtain ⟨rest, hrest, rfl⟩ := List.mem_map.mp h
        have hne : str "+" ≠ str "#" := by decide
        simp [hashLast, hne, ih hrest]

/-- An index with one entry matches as its filter does, if the walk can reach the entry. -/
theorem indexOfOne_matches (req : SubscriptionRequest) (queue : Nat) (autoAck : Bool)
    (identifier : Option Int) :
    (indexOfOne P req queue autoAck identifier).matching topic ≠ [] ↔
      let actual := sharedFilterToActual req.topicFilter P
      let effective := if actual = [] then req.topicFilter else actual
      hashLast (levels effective) = true ∧ topicMatches effective topic = true := by
  let item : IndexItem := (req.topicFilter,
    { oid := 0, queue, autoAck, actualFilter := sharedFilterToActual req.topicFilter P
      subscriptionIdentifier := identifier })
  have hshows : (indexOfOne P req queue autoAck identifier).Shows [item] :=
    SubscriptionIndex.empty_shows.add item.1 item.2
  have hmem : ∀ other, other ∈ (indexOfOne P req queue autoAck identifier).matching topic ↔
      other = item ∧ treeParts other ∈ patterns (levels topic) ∧
        topicMatches (actualFilter other) topic = true := by
    intro other
    unfold SubscriptionIndex.matching
    rw [List.mem_insertionSort, List.mem_filter, hshows.wellFormed.collect_eq, List.mem_flatMap]
    simp only [hshows.tree, List.mem_filter, List.mem_singleton, decide_eq_true_eq]
    constructor
    · rintro ⟨⟨path, hpath, heq, rfl⟩, hmatch⟩
      exact ⟨heq, hpath, hmatch⟩
    · rintro ⟨heq, hpath, hmatch⟩
      exact ⟨⟨_, hpath, heq, rfl⟩, hmatch⟩
  constructor
  · intro hne
    obtain ⟨other, hother⟩ := List.exists_mem_of_ne_nil _ hne
    obtain ⟨rfl, hpath, hmatch⟩ := (hmem other).mp hother
    exact ⟨hashLast_of_mem_patterns hpath, hmatch⟩
  · rintro ⟨hhash, hmatch⟩
    refine List.ne_nil_of_mem ((hmem item).mpr ⟨rfl, ?_, hmatch⟩)
    exact mem_patterns_of_match _ _ (topicMatches_iff.mp hmatch).2 hhash

/-! ## Topics a filter matches -/

/-- A topic level that a filter level admits. -/
def sampleLevel (part : Str) : Str := if part = str "+" then [] else part

theorem sampleLevel_fits (part : Str) : part = str "+" ∨ part = sampleLevel part := by
  unfold sampleLevel
  split_ifs with hplus
  · exact .inl hplus
  · exact .inr rfl

theorem startsWith_sampleLevel (part : Str) :
    startsWith (sampleLevel part) (str "$") = startsWith part (str "$") := by
  unfold sampleLevel
  split_ifs with hplus
  · rw [hplus]
    decide
  · rfl

theorem slash_not_mem_sampleLevel {part : Str} (h : CodePoint.ofChar '/' ∉ part) :
    CodePoint.ofChar '/' ∉ sampleLevel part := by
  unfold sampleLevel
  split_ifs with hplus
  · exact List.not_mem_nil
  · exact h

theorem matchParts_sample {front : List Str} (hfront : str "#" ∉ front) (rest : List Str) :
    matchParts (front ++ rest) (front.map sampleLevel) = matchParts rest [] := by
  induction front with
  | nil => rfl
  | cons part front ih =>
      rw [List.mem_cons, not_or] at hfront
      rw [← ih hfront.2, Bool.eq_iff_iff, List.cons_append, List.map_cons,
        matchParts_cons (Ne.symm hfront.1)]
      simp [sampleLevel_fits part]

/-- The topic of the sample levels starts as the filter does. -/
theorem exists_sample {front rest : List Str} (hlevels : levels filter = front ++ rest)
    (hfront : front ≠ []) :
    ∃ topic, levels topic = front.map sampleLevel ∧
      startsWith topic (str "$") = startsWith filter (str "$") := by
  obtain ⟨part, parts, rfl⟩ := List.exists_cons_of_ne_nil hfront
  have hslash : ∀ level ∈ (part :: parts).map sampleLevel, CodePoint.ofChar '/' ∉ level := by
    intro level hlevel
    obtain ⟨source, hsource, rfl⟩ := List.mem_map.mp hlevel
    refine slash_not_mem_sampleLevel (slash_not_mem_level (s := filter) ?_)
    rw [hlevels]
    exact List.mem_append_left _ hsource
  have hjoin := levels_intercalate (by simp) hslash
  refine ⟨_, hjoin, ?_⟩
  rw [startsWith_first hjoin, startsWith_first (hlevels.trans (List.cons_append ..))]
  exact startsWith_sampleLevel part

/-- Every filter matches some topic. -/
theorem exists_topic (filter : Str) : ∃ topic, topicMatches filter topic = true := by
  by_cases hhash : str "#" ∈ levels filter
  · obtain ⟨front, rest, hlevels, hfront⟩ := List.eq_append_cons_of_mem hhash
    by_cases hnil : front = []
    · rw [hnil, List.nil_append] at hlevels
      refine ⟨[], topicMatches_iff.mpr ⟨?_, ?_⟩⟩
      · rw [startsWith_first hlevels]
        decide
      · rw [hlevels]
        exact matchParts_hash
    · obtain ⟨topic, hsample, hstart⟩ := exists_sample hlevels hnil
      refine ⟨topic, topicMatches_iff.mpr ⟨hstart, ?_⟩⟩
      rw [hlevels, hsample, matchParts_sample hfront]
      exact matchParts_hash
  · obtain ⟨topic, hsample, hstart⟩ :=
      exists_sample (List.append_nil (levels filter)).symm (levels_ne_nil filter)
    refine ⟨topic, topicMatches_iff.mpr ⟨hstart, ?_⟩⟩
    have hmatch := matchParts_sample hhash []
    rw [List.append_nil] at hmatch
    rw [hsample, hmatch]
    rfl

theorem hashLast_cases {parts : List Str} (h : hashLast parts = true) :
    str "#" ∉ parts ∨ ∃ front, parts = front ++ [str "#"] ∧ str "#" ∉ front := by
  induction parts with
  | nil => exact .inl List.not_mem_nil
  | cons part parts ih =>
      rw [hashLast, Bool.and_eq_true, Bool.or_eq_true, decide_eq_true_eq, List.isEmpty_iff] at h
      by_cases hhash : part = str "#"
      · refine .inr ⟨[], ?_, List.not_mem_nil⟩
        rw [hhash, h.1.resolve_left (not_not.mpr hhash)]
        rfl
      · have hne : str "#" ≠ part := Ne.symm hhash
        rcases ih h.2 with hnot | ⟨front, hfront, hnot⟩
        · exact .inl (by simp [hne, hnot])
        · exact .inr ⟨part :: front, by rw [hfront]; rfl, by simp [hne, hnot]⟩

theorem hashLast_append {front rest : List Str} (h : hashLast (front ++ rest) = true)
    (hrest : rest ≠ []) : str "#" ∉ front ∧ hashLast rest = true := by
  induction front with
  | nil => exact ⟨List.not_mem_nil, h⟩
  | cons part front ih =>
      rw [List.cons_append, hashLast, Bool.and_eq_true, Bool.or_eq_true, decide_eq_true_eq,
        List.isEmpty_iff] at h
      have hne : part ≠ str "#" := h.1.resolve_right (by simp [hrest])
      obtain ⟨hfront, hlast⟩ := ih h.2
      exact ⟨by simp [Ne.symm hne, hfront], hlast⟩

/-- Levels in front of a filter change what it matches, but for `+` in front of `#`. -/
theorem prepended_matches {q r : Str} (hhash : hashLast (levels q ++ levels r) = true)
    (hsame : ∀ topic, topicMatches (q ++ CodePoint.ofChar '/' :: r) topic = topicMatches r topic) :
    q = str "+" ∧ r = str "#" := by
  obtain ⟨hq, hr⟩ := hashLast_append hhash (levels_ne_nil r)
  have hlen : 0 < (levels q).length := List.length_pos_of_ne_nil (levels_ne_nil q)
  have hlong : ∀ topic, topicMatches r topic = true →
      matchParts (levels q ++ levels r) (levels topic) = true := by
    intro topic hmatch
    rw [← hsame, topicMatches_iff, levels_append_slash] at hmatch
    exact hmatch.2
  rcases hashLast_cases hr with hnot | ⟨front, hfront, hnot⟩
  · -- without `#` the longer filter needs more levels than the topic of `r` has
    exfalso
    obtain ⟨topic, hmatch⟩ := exists_topic r
    have hshort := ((matchParts_iff hnot).mp (topicMatches_iff.mp hmatch).2).1
    have hmore := ((matchParts_iff (by simp [hq, hnot])).mp (hlong topic hmatch)).1
    rw [List.length_append] at hmore
    omega
  · have hall : str "#" ∉ levels q ++ front := by simp [hq, hnot]
    by_cases hnil : front = []
    · rw [hnil, List.nil_append] at hfront
      have hone : ∀ name : Str, startsWith name (str "$") = false → CodePoint.ofChar '/' ∉ name →
          (levels q).length ≤ 1 ∧ LevelsFit (levels q) [name] := by
        intro name hname hslash
        have hmatch : topicMatches r name = true := by
          rw [topicMatches_iff, startsWith_first hfront, hfront, hname]
          exact ⟨rfl, matchParts_hash⟩
        have hmore := hlong name hmatch
        rw [hfront, matchParts_append_hash_iff hq, levels_of_no_slash hslash] at hmore
        exact hmore
      obtain ⟨part, hpart⟩ := List.length_eq_one_iff.mp (le_antisymm (hone [] rfl (by simp)).1 hlen)
      rw [hpart] at hone
      have hempty := (levelsFit_cons.mp (hone [] rfl (by simp)).2).1
      have ha := (levelsFit_cons.mp (hone (str "a") rfl (by decide)).2).1
      rw [plus_of_two hempty ha] at hpart
      exact ⟨levels_injective hpart, levels_injective hfront⟩
    · exfalso
      obtain ⟨topic, hsample, hstart⟩ := exists_sample hfront hnil
      have hmatch : topicMatches r topic = true := by
        refine topicMatches_iff.mpr ⟨hstart, ?_⟩
        rw [hfront, hsample, matchParts_sample hnot]
        rfl
      have hmore := hlong topic hmatch
      rw [hfront, ← List.append_assoc, matchParts_append_hash_iff hall, hsample] at hmore
      have hfits := hmore.1
      rw [List.length_append, List.length_map] at hfits
      omega

/-! ## When decorators are transparent -/

theorem afterSlash_decorated (hp : CodePoint.ofChar '/' ∉ p) :
    (afterSlash (decorated p r)).getD [] = r := by
  have happ : decorated p r = p ++ CodePoint.ofChar '/' :: r := by
    rw [decorated, List.append_assoc]
    rfl
  rw [happ, afterSlash_append hp]
  rfl

/-- Of a prefix with several levels the later ones stay. -/
theorem afterSlash_decorated_levels {first q : Str} (hfirst : CodePoint.ofChar '/' ∉ first) :
    (afterSlash (decorated (first ++ CodePoint.ofChar '/' :: q) r)).getD [] =
      q ++ CodePoint.ofChar '/' :: r := by
  have happ : decorated (first ++ CodePoint.ofChar '/' :: q) r =
      first ++ CodePoint.ofChar '/' :: (q ++ CodePoint.ofChar '/' :: r) := by
    simp [decorated]
    rfl
  rw [happ, afterSlash_append hfirst]
  rfl

/-- A trie that keeps one filter matches as another filter does. -/
def IndexedAs (effective r : Str) : Prop :=
  ∀ topic, (hashLast (levels effective) = true ∧ topicMatches effective topic = true) ↔
    topicMatches r topic = true

/-- Both paths, in terms of the stripped filter. -/
theorem transparent_iff {actual : Str} (hP : PlainPrefixes P) (hp : p ∈ P)
    (hg : CodePoint.ofChar '/' ∉ g) (hactual : (afterSlash (decorated p r)).getD [] = actual) :
    Transparent P p g r ↔
      (∀ topic, topicMatches actual topic = topicMatches r topic) ∧
        IndexedAs (if actual = [] then decorated p r else actual) r ∧
        IndexedAs (if r = [] then shared g r else r) r := by
  have hdecorated : sharedFilterToActual (decorated p r) P = actual :=
    (actual_decorated hP hp).trans hactual
  have hshared : sharedFilterToActual (shared g r) P = r := actual_shared hg
  have hindex : ∀ {filter actual : Str}, sharedFilterToActual filter P = actual →
      ∀ (req : SubscriptionRequest) (queue : Nat) (autoAck : Bool) (identifier : Option Int),
      req.topicFilter = filter →
      ((∀ topic, (indexOfOne P req queue autoAck identifier).matching topic ≠ [] ↔
        topicMatches r topic = true) ↔
      IndexedAs (if actual = [] then filter else actual) r) := by
    intro filter actual hstrip req queue autoAck identifier hreq
    refine forall_congr' fun topic => ?_
    rw [indexOfOne_matches, hreq, hstrip]
  constructor
  · intro h
    refine ⟨fun topic => ?_, ?_, ?_⟩
    · rw [← h.matches_decorated topic, topicMatchesFilter, hdecorated]
    · exact (hindex hdecorated { topicFilter := decorated p r, qos := .atMostOnce } 0 true none
        rfl).mp (h.index_matches _ 0 true none (.inl rfl))
    · exact (hindex hshared { topicFilter := shared g r, qos := .atMostOnce } 0 true none
        rfl).mp (h.index_matches _ 0 true none (.inr rfl))
  · rintro ⟨hmatches, hindexD, hindexS⟩
    refine ⟨fun topic => ?_, fun topic => ?_, fun filter hfilter topic => ?_, ?_⟩
    · rw [topicMatchesFilter, hdecorated]
      exact hmatches topic
    · rw [topicMatchesFilter, hshared]
    · rw [topicMatchesFilter, actual_undecorated hfilter]
    · rintro req queue autoAck identifier (hreq | hreq)
      · exact (hindex hdecorated req queue autoAck identifier hreq).mpr hindexD
      · exact (hindex hshared req queue autoAck identifier hreq).mpr hindexS

/-- What the trie keeps has `#` only as its last level, since every filter matches something. -/
theorem IndexedAs.hashLast {effective r : Str} (h : IndexedAs effective r) :
    Zmqtt.hashLast (levels effective) = true := by
  obtain ⟨topic, hmatch⟩ := exists_topic r
  exact ((h topic).mpr hmatch).1

/-- **Decorators are transparent exactly** where the rest is not empty and has `#` only as its
last level, and the prefix is one level; but for `+/#`, which matches as `#` does. -/
theorem decorators_transparent_iff (hP : PlainPrefixes P) (hp : p ∈ P)
    (hg : CodePoint.ofChar '/' ∉ g) :
    Transparent P p g r ↔
      r ≠ [] ∧ hashLast (levels r) = true ∧
        (CodePoint.ofChar '/' ∉ p ∨
          (∃ first, CodePoint.ofChar '/' ∉ first ∧ p = first ++ str "/+") ∧ r = str "#") := by
  constructor
  · intro h
    obtain ⟨hmatches, hdecorated, hshared⟩ := (transparent_iff hP hp hg rfl).mp h
    have hr : r ≠ [] := by
      rintro rfl
      -- the empty rest matches the empty topic, the shared filter starts with `$`
      have hempty := ((hshared []).mpr (by decide)).2
      rw [if_pos rfl, topicMatches_iff] at hempty
      exact absurd hempty.1 (by simp [shared, startsWith, str])
    rw [if_neg hr] at hshared
    refine ⟨hr, hshared.hashLast, ?_⟩
    by_cases hslash : CodePoint.ofChar '/' ∈ p
    · right
      obtain ⟨first, q, rfl, hfirst⟩ := List.eq_append_cons_of_mem hslash
      rw [afterSlash_decorated_levels hfirst] at hmatches hdecorated
      rw [if_neg (by simp)] at hdecorated
      have hhash := hdecorated.hashLast
      rw [levels_append_slash] at hhash
      obtain ⟨rfl, hrhash⟩ := prepended_matches hhash hmatches
      exact ⟨⟨first, hfirst, rfl⟩, hrhash⟩
    · exact .inl hslash
  · rintro ⟨hr, hhash, hslash | ⟨⟨first, hfirst, rfl⟩, rfl⟩⟩
    · refine (transparent_iff hP hp hg (afterSlash_decorated hslash)).mpr ⟨fun _ => rfl, ?_, ?_⟩
      · rw [if_neg hr]
        exact fun topic => and_iff_right hhash
      · rw [if_neg hr]
        exact fun topic => and_iff_right hhash
    · refine (transparent_iff hP hp hg (afterSlash_decorated_levels hfirst)).mpr
        ⟨topicMatches_plus_hash, ?_, ?_⟩
      · intro topic
        rw [if_neg (by simp)]
        exact (and_iff_right (by decide)).trans (by rw [← topicMatches_plus_hash]; rfl)
      · exact fun topic => and_iff_right hhash

/-- The default prefixes. -/
theorem decorators_transparent_queue :
    Transparent [str "$queue", str "$exclusive"] (str "$queue") (str "g") (str "jobs/#") :=
  (decorators_transparent_iff ⟨by decide, by decide⟩ (by decide) (by decide)).mpr
    ⟨by decide, by decide, .inl (by decide)⟩

/-- Of the prefix `$delayed/5` the second level stays. -/
theorem decorators_not_transparent :
    ¬ ∀ (P : List Str) (p g r : Str), PlainPrefixes P → p ∈ P → CodePoint.ofChar '/' ∉ g →
      Transparent P p g r := by
  intro h
  have hmatch := (h [str "$delayed/5"] (str "$delayed/5") [] (str "t") ⟨by decide, by decide⟩
    (by decide) (by decide)).matches_decorated (str "t")
  exact absurd hmatch (by decide)

/-! ## The grammar of what is stripped -/

/-- The part behind the first `/` has the levels but for the first. -/
theorem levels_afterSlash {s r : Str} (h : afterSlash s = some r) :
    ∃ first, levels s = first :: levels r := by
  obtain ⟨first, hfirst, rfl⟩ := afterSlash_eq_some h
  refine ⟨first, ?_⟩
  rw [levels_append_slash, levels_of_no_slash hfirst]
  rfl

/-- Of a filter with one of the prefixes the first level goes. -/
theorem levels_stripDecorator (filter : Str) (P : List Str) :
    ∃ front, levels filter = front ++ levels (stripDecorator filter P) := by
  by_cases hstart : ∃ q ∈ P, startsWith filter (q ++ str "/") = true
  · rw [stripDecorator_of_mem hstart]
    obtain ⟨q, -, hq⟩ := hstart
    obtain ⟨rest, hrest⟩ := startsWith_iff.mp hq
    have hslash : CodePoint.ofChar '/' ∈ filter := by
      rw [← hrest]
      exact List.mem_append_left _ (List.mem_append_right _ (by decide))
    obtain ⟨first, rest, hfilter, hfirst⟩ := List.eq_append_cons_of_mem hslash
    refine ⟨[first], ?_⟩
    rw [hfilter, afterSlash_append hfirst, levels_append_slash, levels_of_no_slash hfirst]
    rfl
  · refine ⟨[], ?_⟩
    rw [stripDecorator_of_none fun q hq hstart' => hstart ⟨q, hq, hstart'⟩]
    rfl

/-- `_shared_filter_to_actual` removes whole levels from the front. -/
theorem levels_sharedFilterToActual (filter : Str) (P : List Str) :
    ∃ front, levels filter = front ++ levels (sharedFilterToActual filter P) := by
  unfold sharedFilterToActual
  split
  · rename_i hshare
    obtain ⟨rest, hrest⟩ := startsWith_iff.mp hshare
    have hdrop : filter.drop (str "$share/").length = rest := by
      rw [← hrest, List.drop_left]
    rw [hdrop]
    cases hafter : afterSlash rest with
    | none => exact levels_stripDecorator filter P
    | some actual =>
        obtain ⟨group, hgroup⟩ := levels_afterSlash hafter
        refine ⟨[str "$share", group], ?_⟩
        have hshared : filter = str "$share" ++ CodePoint.ofChar '/' :: rest := hrest.symm
        rw [hshared, levels_append_slash, hgroup]
        rfl
  · exact levels_stripDecorator filter P

theorem GrammarLevels.of_append {front rest : List Str} (h : GrammarLevels (front ++ rest)) :
    GrammarLevels rest := by
  induction front with
  | nil => exact h
  | cons part front ih => exact ih h.2

/-- **The validator accepts exactly the grammar of filters**, and what is left of an accepted
filter after stripping has the same levels. -/
theorem subscribe_topic_grammar (s : Str) :
    (validateSubscribeTopic s = .ok () ↔
      s ≠ [] ∧ CodePoint.ofChar '$' ∉ s.drop 1 ∧ GrammarLevels (levels s)) ∧
    (validateSubscribeTopic s = .ok () → ∀ strippedPrefixes : List Str,
      GrammarLevels (levels (sharedFilterToActual s strippedPrefixes))) := by
  refine ⟨validateSubscribeTopic_iff s, fun hvalid strippedPrefixes => ?_⟩
  obtain ⟨-, -, hgrammar⟩ := (validateSubscribeTopic_iff s).mp hvalid
  obtain ⟨front, hfront⟩ := levels_sharedFilterToActual s strippedPrefixes
  rw [hfront] at hgrammar
  exact hgrammar.of_append

/-- A shared filter with both wildcards. -/
theorem subscribe_topic_grammar_shared :
    validateSubscribeTopic (str "$share/g/+/#") = .ok () ∧
      sharedFilterToActual (str "$share/g/+/#") [str "$queue"] = str "+/#" ∧
      GrammarLevels (levels (sharedFilterToActual (str "$share/g/+/#") [str "$queue"])) :=
  ⟨by decide, by decide, (subscribe_topic_grammar _).2 (by decide) _⟩

end Zmqtt
