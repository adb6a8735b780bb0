import Zmqtt.Routing

/-!
# Specificity and inclusion

A filter that matches strictly fewer topic names sorts first.  Inclusion is a statement
about all names, so it is read level by level: with one topic level fixed, the rest of one
filter is included in the rest of the other.  `#` and `+/#` match the same names at the top,
since a topic has a level there; everywhere else inclusion without a smaller tuple forces
equal levels.
-/

namespace Zmqtt

/-- The levels of a topic name. -/
def NameLevels (parts : List Str) : Prop :=
  ∀ part ∈ parts, CodePoint.ofChar '/' ∉ part ∧ WildcardFree part

/-- Every list of levels that fits `fparts` fits `gparts`. -/
def Included (fparts gparts : List Str) : Prop :=
  ∀ tparts, NameLevels tparts → matchParts fparts tparts = true → matchParts gparts tparts = true

/-- The same for the lists that start with one level. -/
def IncludedAt (first : Str) (fparts gparts : List Str) : Prop :=
  ∀ tparts, NameLevels tparts → matchParts fparts (first :: tparts) = true →
    matchParts gparts (first :: tparts) = true

/-- The filter `g` matches every topic name that `f` matches, and one more. -/
def StrictlyContains (g f : Str) : Prop :=
  (∀ topic, WildcardFree topic → topicMatches f topic = true → topicMatches g topic = true) ∧
    ∃ topic, WildcardFree topic ∧ topicMatches g topic = true ∧ topicMatches f topic = false

variable {first fpart gpart : Str} {fparts gparts tparts : List Str}

/-! ## Names -/

theorem nameLevels_cons :
    NameLevels (fpart :: fparts) ↔
      (CodePoint.ofChar '/' ∉ fpart ∧ WildcardFree fpart) ∧ NameLevels fparts :=
  List.forall_mem_cons

theorem nameLevels_nil : NameLevels [] := fun _ hpart => absurd hpart List.not_mem_nil

/-- Topic names are the joined lists of such levels. -/
theorem exists_name (hne : tparts ≠ []) (hname : NameLevels tparts) :
    ∃ topic, WildcardFree topic ∧ levels topic = tparts := by
  have hlevels := levels_intercalate hne fun part hpart => (hname part hpart).1
  refine ⟨[CodePoint.ofChar '/'].intercalate tparts, ⟨fun hmem => ?_, fun hmem => ?_⟩, hlevels⟩
  · obtain ⟨level, hlevel, hmem⟩ := (mem_level_iff (by decide)).mpr hmem
    rw [hlevels] at hlevel
    exact (hname level hlevel).2.1 hmem
  · obtain ⟨level, hlevel, hmem⟩ := (mem_level_iff (by decide)).mpr hmem
    rw [hlevels] at hlevel
    exact (hname level hlevel).2.2 hmem

/-- Every list of filter levels fits some name. -/
theorem exists_match (hgrammar : GrammarLevels fparts)
    (hslash : ∀ part ∈ fparts, CodePoint.ofChar '/' ∉ part) :
    ∃ tparts, NameLevels tparts ∧ matchParts fparts tparts = true := by
  induction fparts with
  | nil => exact ⟨[], nameLevels_nil, rfl⟩
  | cons fpart fparts ih =>
      obtain ⟨hfirst, hrest⟩ := hgrammar
      rw [List.forall_mem_cons] at hslash
      obtain ⟨tparts, hname, hmatch⟩ := ih hrest hslash.2
      rcases hfirst with rfl | hfree | ⟨rfl, rfl⟩
      · refine ⟨[] :: tparts, nameLevels_cons.mpr ⟨?_, hname⟩, ?_⟩
        · exact ⟨List.not_mem_nil, List.not_mem_nil, List.not_mem_nil⟩
        · exact (matchParts_cons (by decide)).mpr ⟨.inl rfl, hmatch⟩
      · refine ⟨fpart :: tparts, nameLevels_cons.mpr ⟨⟨hslash.1, hfree⟩, hname⟩, ?_⟩
        exact (matchParts_cons (hash_ne_of_plain (.inr hfree))).mpr ⟨.inr rfl, hmatch⟩
      · exact ⟨[], nameLevels_nil, matchParts_hash⟩

/-! ## Ranks of levels -/

theorem segmentRank_of_free (h : WildcardFree fpart) : segmentRank fpart = 0 := by
  unfold segmentRank
  rw [if_neg (hash_ne_of_plain (.inr h)), if_neg]
  rintro rfl
  exact h.1 (by decide)

/-! ## Inclusion, level by level -/

/-- Below a level that both filters admit, the rests are included. -/
theorem IncludedAt.tail (h : IncludedAt first (fpart :: fparts) (gpart :: gparts))
    (hfhash : fpart ≠ str "#") (hghash : gpart ≠ str "#")
    (hfit : fpart = str "+" ∨ fpart = first)
    (hsat : ∃ tparts, NameLevels tparts ∧ matchParts fparts tparts = true) :
    (gpart = str "+" ∨ gpart = first) ∧ Included fparts gparts := by
  have hdown : ∀ tparts, NameLevels tparts → matchParts fparts tparts = true →
      (gpart = str "+" ∨ gpart = first) ∧ matchParts gparts tparts = true := by
    intro tparts hname hmatch
    exact (matchParts_cons hghash).mp
      (h tparts hname ((matchParts_cons hfhash).mpr ⟨hfit, hmatch⟩))
  obtain ⟨tparts, hname, hmatch⟩ := hsat
  exact ⟨(hdown tparts hname hmatch).1, fun other hother hfits => (hdown other hother hfits).2⟩

theorem IncludedAt.tail_hash (h : IncludedAt first [str "#"] (gpart :: gparts))
    (hghash : gpart ≠ str "#") :
    (gpart = str "+" ∨ gpart = first) ∧ Included [str "#"] gparts := by
  have hdown : ∀ tparts, NameLevels tparts →
      (gpart = str "+" ∨ gpart = first) ∧ matchParts gparts tparts = true :=
    fun tparts hname => (matchParts_cons hghash).mp (h tparts hname matchParts_hash)
  exact ⟨(hdown [] nameLevels_nil).1, fun other hother _ => (hdown other hother).2⟩

/-- A level that admits two different names is `+`. -/
theorem plus_of_two (hempty : gpart = str "+" ∨ gpart = []) (ha : gpart = str "+" ∨ gpart = str "a") :
    gpart = str "+" := by
  rcases hempty with hplus | rfl
  · exact hplus
  · rcases ha with hplus | ha
    · exact hplus
    · exact absurd ha (by decide)

theorem nameLevel_empty : CodePoint.ofChar '/' ∉ ([] : Str) ∧ WildcardFree [] :=
  ⟨List.not_mem_nil, List.not_mem_nil, List.not_mem_nil⟩

theorem nameLevel_a : CodePoint.ofChar '/' ∉ str "a" ∧ WildcardFree (str "a") :=
  ⟨by decide, by decide, by decide⟩

theorem Included.at (h : Included fparts gparts)
    (hname : CodePoint.ofChar '/' ∉ first ∧ WildcardFree first) :
    IncludedAt first fparts gparts :=
  fun tparts htparts => h (first :: tparts) (nameLevels_cons.mpr ⟨hname, htparts⟩)

/-- What is included in everything is `#`. -/
theorem Included.of_hash (h : Included [str "#"] gparts) (hgrammar : GrammarLevels gparts) :
    gparts = [str "#"] := by
  have hnil := h [] nameLevels_nil matchParts_hash
  cases gparts with
  | nil =>
      have hone := h [[]] (nameLevels_cons.mpr ⟨nameLevel_empty, nameLevels_nil⟩) matchParts_hash
      exact absurd hone (by decide)
  | cons gpart gparts =>
      by_cases hhash : gpart = str "#"
      · rcases hgrammar.1 with hplus | hfree | ⟨-, hnilRest⟩
        · exact absurd (hplus.symm.trans hhash) (by decide)
        · exact absurd hhash (hash_ne_of_plain (.inr hfree))
        · rw [hhash, hnilRest]
      · rw [matchParts_nil_right hhash] at hnil
        exact absurd hnil Bool.false_ne_true

/-- A level that is no `#` is the other's, with the rests included, or ranks lower. -/
theorem rank_lt_or_eq (hf : fpart = str "+" ∨ WildcardFree fpart)
    (hsat : ∃ tparts, NameLevels tparts ∧ matchParts fparts tparts = true)
    (hplus : fpart = str "+" → IncludedAt [] (fpart :: fparts) (gpart :: gparts) ∧
      IncludedAt (str "a") (fpart :: fparts) (gpart :: gparts))
    (hfree : WildcardFree fpart → IncludedAt fpart (fpart :: fparts) (gpart :: gparts)) :
    (fpart = gpart ∧ Included fparts gparts) ∨ segmentRank fpart < segmentRank gpart := by
  have hfhash := hash_ne_of_plain hf
  by_cases hghash : gpart = str "#"
  · right
    rw [hghash]
    rcases hf with rfl | hf
    · decide
    · rw [segmentRank_of_free hf]
      decide
  · rcases hf with rfl | hf
    · left
      obtain ⟨hempty, ha⟩ := hplus rfl
      obtain ⟨hfits, hincluded⟩ := hempty.tail hfhash hghash (.inl rfl) hsat
      have hgplus := plus_of_two hfits (ha.tail hfhash hghash (.inl rfl) hsat).1
      exact ⟨hgplus.symm, hincluded⟩
    · obtain ⟨hgplus | hgeq, hincluded⟩ := (hfree hf).tail hfhash hghash (.inr rfl) hsat
      · right
        rw [hgplus, segmentRank_of_free hf]
        decide
      · exact .inl ⟨hgeq.symm, hincluded⟩

/-- **Inclusion below the first level** is equality or a smaller tuple. -/
theorem Included.rank_lt (h : Included fparts gparts) (hf : GrammarLevels fparts)
    (hg : GrammarLevels gparts) (hslash : ∀ part ∈ fparts, CodePoint.ofChar '/' ∉ part) :
    fparts = gparts ∨ fparts.map segmentRank < gparts.map segmentRank := by
  induction fparts generalizing gparts with
  | nil =>
      cases gparts with
      | nil => exact .inl rfl
      | cons gpart gparts => exact .inr (List.nil_lt_cons _ _)
  | cons fpart fparts ih =>
      rw [List.forall_mem_cons] at hslash
      have hsat := exists_match hf.2 hslash.2
      by_cases hhash : fpart = str "#" ∧ fparts = []
      · rw [hhash.1, hhash.2] at h ⊢
        exact .inl (h.of_hash hg).symm
      · have hplain : fpart = str "+" ∨ WildcardFree fpart := by
          rcases hf.1 with hplus | hfree | hlast
          · exact .inl hplus
          · exact .inr hfree
          · exact absurd hlast hhash
        cases gparts with
        | nil =>
            -- `[]` fits no level, and `fpart` admits one
            obtain ⟨tparts, hname, hmatch⟩ := exists_match hf (List.forall_mem_cons.mpr hslash)
            have hnone := h tparts hname hmatch
            rw [matchParts, List.isEmpty_iff] at hnone
            rw [hnone, matchParts_nil_right (hash_ne_of_plain hplain)] at hmatch
            exact absurd hmatch Bool.false_ne_true
        | cons gpart gparts =>
            rcases rank_lt_or_eq hplain hsat
              (fun _ => ⟨h.at nameLevel_empty, h.at nameLevel_a⟩)
              (fun hfree => h.at ⟨hslash.1, hfree⟩) with ⟨rfl, hincluded⟩ | hlt
            · rcases ih hincluded hf.2 hg.2 hslash.2 with heq | hlt
              · exact .inl (by rw [heq])
              · exact .inr (List.cons_lt_cons_iff.mpr (.inr ⟨rfl, hlt⟩))
            · exact .inr (List.cons_lt_cons_iff.mpr (.inl hlt))

/-! ## Filters -/

/-- Inclusion of filters, at one first level that has `$` where the filter has it. -/
theorem includedAt_of_contains {f g : Str} (hf : levels f = fpart :: fparts)
    (hincl : ∀ topic, WildcardFree topic → topicMatches f topic = true →
      topicMatches g topic = true)
    (hname : CodePoint.ofChar '/' ∉ first ∧ WildcardFree first)
    (hdollar : startsWith first (str "$") = startsWith fpart (str "$")) :
    IncludedAt first (levels f) (levels g) := by
  intro tparts htparts hmatch
  obtain ⟨topic, hfree, hlevels⟩ :=
    exists_name (List.cons_ne_nil first tparts) (nameLevels_cons.mpr ⟨hname, htparts⟩)
  have hmatches : topicMatches f topic = true := by
    rw [topicMatches_iff, startsWith_first hf, startsWith_first hlevels, hlevels]
    exact ⟨hdollar, hmatch⟩
  have hother := (topicMatches_iff.mp (hincl topic hfree hmatches)).2
  rwa [hlevels] at hother

/-- `#` and `+/#` match the same topics. -/
theorem topicMatches_plus_hash (topic : Str) :
    topicMatches (str "+/#") topic = topicMatches (str "#") topic := by
  obtain ⟨first, rest, htopic⟩ := List.exists_cons_of_ne_nil (levels_ne_nil topic)
  have hplus : levels (str "+/#") = [str "+", str "#"] := by decide
  have hhash : levels (str "#") = [str "#"] := by decide
  have hstart : startsWith (str "+/#") (str "$") = startsWith (str "#") (str "$") := by decide
  rw [Bool.eq_iff_iff, topicMatches_iff, topicMatches_iff, hplus, hhash, htopic,
    matchParts_cons (by decide), hstart]
  simp

/-- At the top there is one more pair of filters. -/
theorem top_rank_lt (hf : GrammarLevels (fpart :: fparts)) (hg : GrammarLevels (gpart :: gparts))
    (hslash : ∀ part ∈ fpart :: fparts, CodePoint.ofChar '/' ∉ part)
    (hwild : fpart = str "+" ∨ fpart = str "#" →
      IncludedAt [] (fpart :: fparts) (gpart :: gparts) ∧
        IncludedAt (str "a") (fpart :: fparts) (gpart :: gparts))
    (hfree : WildcardFree fpart → IncludedAt fpart (fpart :: fparts) (gpart :: gparts)) :
    fpart :: fparts = gpart :: gparts ∨
      (fpart :: fparts = [str "#"] ∧ gpart :: gparts = [str "+", str "#"]) ∨
      (fpart :: fparts).map segmentRank < (gpart :: gparts).map segmentRank := by
  by_cases hhash : fpart = str "#" ∧ fparts = []
  · obtain ⟨rfl, rfl⟩ := hhash
    obtain ⟨hempty, ha⟩ := hwild (.inr rfl)
    by_cases hghash : gpart = str "#"
    · rcases hg.1 with hplus | hgfree | ⟨-, hnil⟩
      · exact absurd (hplus.symm.trans hghash) (by decide)
      · exact absurd hghash (hash_ne_of_plain (.inr hgfree))
      · rw [hghash, hnil]
        exact .inl rfl
    · obtain ⟨hfits, hincluded⟩ := hempty.tail_hash hghash
      rw [plus_of_two hfits (ha.tail_hash hghash).1, hincluded.of_hash hg.2]
      exact .inr (.inl ⟨rfl, rfl⟩)
  · have hplain : fpart = str "+" ∨ WildcardFree fpart := by
      rcases hf.1 with hplus | hfree | hlast
      · exact .inl hplus
      · exact .inr hfree
      · exact absurd hlast hhash
    rw [List.forall_mem_cons] at hslash
    rcases rank_lt_or_eq hplain (exists_match hf.2 hslash.2) (fun hplus => hwild (.inl hplus))
      hfree with ⟨rfl, hincluded⟩ | hlt
    · rcases hincluded.rank_lt hf.2 hg.2 hslash.2 with heq | hlt
      · exact .inl (by rw [heq])
      · exact .inr (.inr (List.cons_lt_cons_iff.mpr (.inr ⟨rfl, hlt⟩)))
    · exact .inr (.inr (List.cons_lt_cons_iff.mpr (.inl hlt)))

/-- **Strict inclusion is a smaller tuple.** -/
theorem StrictlyContains.specificity_lt {f g : Str} (h : StrictlyContains g f)
    (hf : GrammarLevels (levels f)) (hg : GrammarLevels (levels g)) :
    filterSpecificity f < filterSpecificity g := by
  obtain ⟨hincl, topic, hfree, hgmatch, hfmatch⟩ := h
  obtain ⟨fpart, fparts, hflevels⟩ := List.exists_cons_of_ne_nil (levels_ne_nil f)
  obtain ⟨gpart, gparts, hglevels⟩ := List.exists_cons_of_ne_nil (levels_ne_nil g)
  have hslash : ∀ part ∈ levels f, CodePoint.ofChar '/' ∉ part :=
    fun part hpart => slash_not_mem_level hpart
  have hwild : fpart = str "+" ∨ fpart = str "#" →
      IncludedAt [] (levels f) (levels g) ∧ IncludedAt (str "a") (levels f) (levels g) := by
    intro hpart
    have hdollar : startsWith fpart (str "$") = false := by
      rcases hpart with rfl | rfl
      · decide
      · decide
    exact ⟨includedAt_of_contains hflevels hincl nameLevel_empty hdollar.symm,
      includedAt_of_contains hflevels hincl nameLevel_a hdollar.symm⟩
  have hliteral : WildcardFree fpart → IncludedAt fpart (levels f) (levels g) := by
    intro hfpart
    refine includedAt_of_contains hflevels hincl ⟨hslash fpart ?_, hfpart⟩ rfl
    rw [hflevels]
    exact List.mem_cons_self
  have hdiffer : ∀ {other : Str}, (∀ name, topicMatches other name = topicMatches f name) →
      g ≠ other := by
    rintro other hsame rfl
    rw [hsame topic, hfmatch] at hgmatch
    exact Bool.false_ne_true hgmatch
  rw [hflevels] at hf hslash hwild hliteral
  rw [hglevels] at hg hwild hliteral
  rcases top_rank_lt hf hg hslash hwild hliteral with heq | ⟨hhash, hplus⟩ | hlt
  · rw [← hflevels, ← hglevels] at heq
    exact absurd (levels_injective heq).symm (hdiffer fun _ => rfl)
  · rw [← hflevels] at hhash
    rw [← hglevels] at hplus
    have hfeq : f = str "#" := levels_injective hhash
    have hgeq : g = str "+/#" := levels_injective hplus
    refine absurd hgeq (hdiffer fun name => ?_)
    rw [hfeq]
    exact topicMatches_plus_hash name
  · unfold filterSpecificity
    rw [hflevels, hglevels]
    exact hlt

theorem hashLast_of_grammar {parts : List Str} (h : GrammarLevels parts) :
    hashLast parts = true := by
  induction parts with
  | nil => rfl
  | cons part parts ih =>
      rw [hashLast, ih h.2, Bool.and_true, Bool.or_eq_true, decide_eq_true_eq, List.isEmpty_iff]
      rcases h.1 with rfl | hfree | ⟨-, hnil⟩
      · exact .inl (by decide)
      · exact .inl (hash_ne_of_plain (.inr hfree))
      · exact .inr hnil

/-- **Specificity respects inclusion**: of two accepted filters the one that matches strictly
fewer topic names has the smaller tuple, so no subscription is chosen whose filter strictly
contains another one that matches. -/
theorem specificity_respects_inclusion :
    (∀ f g : Str, validateSubscribeTopic f = .ok () → validateSubscribeTopic g = .ok () →
      StrictlyContains g f → tupleLt (filterSpecificity f) (filterSpecificity g) = true) ∧
    ∀ ops : List IndexOp,
      (∀ op ∈ ops, ∀ item ∈ op.items, validateSubscribeTopic (actualFilter item) = .ok ()) →
      ∀ (topic : Str) (chosen other : IndexItem),
        ((ops.foldl SubscriptionIndex.apply {}).select topic).recipient = some chosen →
        other ∈ registered ops → topicMatches (actualFilter other) topic = true →
        ¬ StrictlyContains (actualFilter chosen) (actualFilter other) := by
  have hgrammar : ∀ f : Str, validateSubscribeTopic f = .ok () → GrammarLevels (levels f) :=
    fun f hf => ((validateSubscribeTopic_iff f).mp hf).2.2
  constructor
  · intro f g hf hg hcontains
    exact tupleLt_iff.mpr (hcontains.specificity_lt (hgrammar f hf) (hgrammar g hg))
  · intro ops hvalid topic chosen other hchosen hother hmatch hcontains
    have hpairs : ∀ item ∈ registered ops, GrammarLevels (treeParts item) := by
      intro item hitem
      rcases mem_of_mem_registered ops [] hitem with hmem | ⟨op, hop, hmem⟩
      · exact absurd hmem List.not_mem_nil
      · exact hgrammar _ (hvalid op hop item hmem)
    have hshows : (ops.foldl SubscriptionIndex.apply {}).Shows (registered ops) :=
      SubscriptionIndex.empty_shows.run ops
    rw [hshows.select_eq fun item hitem => hashLast_of_grammar (hpairs item hitem)] at hchosen
    obtain ⟨hmem, hleast⟩ := (SubscriptionIndex.selectFrom_picks _).least chosen hchosen
    have hlt := hcontains.specificity_lt (hpairs other hother)
      (hpairs chosen (List.mem_filter.mp hmem).1)
    have hle := hleast other (List.mem_filter.mpr ⟨hother, hmatch⟩)
    exact absurd hlt (not_lt.mpr (tupleLt_eq_false_iff.mp hle))

/-- `a/+` matches strictly less than `a/#`. -/
theorem specificity_respects_inclusion_parent :
    StrictlyContains (str "a/#") (str "a/+") ∧
      tupleLt (filterSpecificity (str "a/+")) (filterSpecificity (str "a/#")) = true := by
  have hcontains : StrictlyContains (str "a/#") (str "a/+") := by
    refine ⟨fun topic _ hmatch => ?_, str "a", ⟨by decide, by decide⟩, by decide, by decide⟩
    have hplus : levels (str "a/+") = [str "a", str "+"] := by decide
    have hhash : levels (str "a/#") = [str "a", str "#"] := by decide
    have hstart : startsWith (str "a/+") (str "$") = startsWith (str "a/#") (str "$") := by decide
    obtain ⟨first, rest, htopic⟩ := List.exists_cons_of_ne_nil (levels_ne_nil topic)
    rw [topicMatches_iff, hplus, htopic, matchParts_cons (by decide), hstart] at hmatch
    rw [topicMatches_iff, hhash, htopic, matchParts_cons (by decide)]
    exact ⟨hmatch.1, hmatch.2.1, matchParts_hash⟩
  exact ⟨hcontains, specificity_respects_inclusion.1 _ _ (by decide) (by decide) hcontains⟩

end Zmqtt
