import Zmqtt.FilterGrammar

/-!
# The matching rule of MQTT

The rule counts levels: as many in the filter as in the topic, or at least those before
`#`, each `+` or equal, and no leading wildcard for a topic that starts with `$`.
`_match_parts` walks both lists and `_topic_matches` compares first characters.  On the
filters the validator accepts both say the same.
-/

namespace Zmqtt

/-- Where both lists have a level, the filter's is `+` or the topic's. -/
def LevelsFit (fparts tparts : List Str) : Prop :=
  ∀ (i : Nat) (fpart tpart : Str), fparts[i]? = some fpart → tparts[i]? = some tpart →
    fpart = str "+" ∨ fpart = tpart

/-- The rule, in the words of the specification. -/
structure FollowsRule (filter topic : Str) : Prop where
  dollar : startsWith topic (str "$") = true →
    ∀ first, (levels filter).head? = some first → isWildcard first = false
  exact : (levels filter).getLast? ≠ some (str "#") →
    (levels filter).length = (levels topic).length ∧ LevelsFit (levels filter) (levels topic)
  hash : (levels filter).getLast? = some (str "#") →
    (levels filter).length - 1 ≤ (levels topic).length ∧
      LevelsFit (levels filter).dropLast (levels topic)

variable {fpart tpart : Str} {fparts tparts : List Str}

theorem levelsFit_nil : LevelsFit [] tparts := by
  intro i fpart tpart hf
  simp at hf

theorem levelsFit_cons :
    LevelsFit (fpart :: fparts) (tpart :: tparts) ↔
      (fpart = str "+" ∨ fpart = tpart) ∧ LevelsFit fparts tparts := by
  constructor
  · intro h
    exact ⟨h 0 fpart tpart rfl rfl, fun i f t hf ht => h (i + 1) f t hf ht⟩
  · rintro ⟨hfirst, hrest⟩ i f t hf ht
    cases i with
    | zero =>
        have hfEq : fpart = f := by simpa using hf
        have htEq : tpart = t := by simpa using ht
        rw [← hfEq, ← htEq]
        exact hfirst
    | succ i => exact hrest i f t hf ht

theorem matchParts_cons (hhash : fpart ≠ str "#") :
    matchParts (fpart :: fparts) (tpart :: tparts) = true ↔
      (fpart = str "+" ∨ fpart = tpart) ∧ matchParts fparts tparts = true := by
  rw [matchParts, if_neg hhash]
  by_cases hfit : fpart = str "+" ∨ fpart = tpart
  · rw [if_neg (by tauto)]
    simp [hfit]
  · rw [if_pos (by tauto)]
    simp [hfit]

theorem matchParts_nil_right (hhash : fpart ≠ str "#") :
    matchParts (fpart :: fparts) [] = false := by
  rw [matchParts, if_neg hhash]

@[simp] theorem matchParts_hash : matchParts (str "#" :: fparts) tparts = true := by
  rw [matchParts.eq_def]
  exact if_pos rfl

/-- Without `#` the levels are as many. -/
theorem matchParts_iff (hhash : str "#" ∉ fparts) :
    matchParts fparts tparts = true ↔
      fparts.length = tparts.length ∧ LevelsFit fparts tparts := by
  induction fparts generalizing tparts with
  | nil =>
      cases tparts with
      | nil => simp [matchParts, levelsFit_nil]
      | cons tpart tparts => simp [matchParts]
  | cons fpart fparts ih =>
      rw [List.mem_cons, not_or] at hhash
      cases tparts with
      | nil => simp [matchParts_nil_right (Ne.symm hhash.1)]
      | cons tpart tparts =>
          rw [matchParts_cons (Ne.symm hhash.1), ih hhash.2, levelsFit_cons, List.length_cons,
            List.length_cons, Nat.add_right_cancel_iff]
          tauto

/-- With `#` last the topic has at least the levels before it. -/
theorem matchParts_append_hash_iff (hhash : str "#" ∉ fparts) :
    matchParts (fparts ++ [str "#"]) tparts = true ↔
      fparts.length ≤ tparts.length ∧ LevelsFit fparts tparts := by
  induction fparts generalizing tparts with
  | nil => simp [levelsFit_nil]
  | cons fpart fparts ih =>
      rw [List.mem_cons, not_or] at hhash
      rw [List.cons_append]
      cases tparts with
      | nil => simp [matchParts_nil_right (Ne.symm hhash.1)]
      | cons tpart tparts =>
          rw [matchParts_cons (Ne.symm hhash.1), ih hhash.2, levelsFit_cons, List.length_cons,
            List.length_cons, Nat.add_le_add_iff_right]
          tauto

theorem topicMatches_iff {filter topic : Str} :
    topicMatches filter topic = true ↔
      startsWith topic (str "$") = startsWith filter (str "$") ∧
        matchParts (levels filter) (levels topic) = true := by
  unfold topicMatches
  split_ifs with h
  · simp only [bne_iff_ne] at h
    simp [h]
  · simp only [bne_iff_ne, not_not] at h
    simp [h]

theorem hash_ne_of_plain {part : Str} (h : part = str "+" ∨ WildcardFree part) :
    part ≠ str "#" := by
  rintro rfl
  rcases h with hplus | hfree
  · exact absurd hplus (by decide)
  · exact hfree.2 (by decide)

/-- What a first level that is no wildcard fits starts with `$` if the level does; a
wildcard does not start with it. -/
theorem dollar_agrees {first tfirst : Str}
    (hfit : first = str "+" ∨ first = str "#" ∨ first = tfirst) :
    startsWith tfirst (str "$") = startsWith first (str "$") ↔
      (startsWith tfirst (str "$") = true → isWildcard first = false) := by
  have hplus : startsWith (str "+") (str "$") = false := by decide
  have hhash : startsWith (str "#") (str "$") = false := by decide
  rcases hfit with rfl | rfl | rfl
  · simp [hplus, isWildcard]
  · simp [hhash, isWildcard]
  · refine ⟨fun _ hdollar => ?_, fun _ => rfl⟩
    by_contra hwild
    rw [Bool.not_eq_false, isWildcard, Bool.or_eq_true, decide_eq_true_eq,
      decide_eq_true_eq] at hwild
    rcases hwild with rfl | rfl
    · exact absurd hdollar (by decide)
    · exact absurd hdollar (by decide)

/-- The first level of a filter that matches. -/
theorem first_fits {filter topic : Str} {first tfirst : Str} {rest trest : List Str}
    (hfilter : levels filter = first :: rest) (htopic : levels topic = tfirst :: trest)
    (hmatch : matchParts (levels filter) (levels topic) = true) :
    first = str "+" ∨ first = str "#" ∨ first = tfirst := by
  by_cases hhash : first = str "#"
  · exact .inr (.inl hhash)
  · rw [hfilter, htopic, matchParts_cons hhash] at hmatch
    tauto

/-- **Matching is the rule of MQTT.** -/
theorem topicMatches_iff_rule (filter topic : Str)
    (hvalid : validateSubscribeTopic filter = .ok ()) :
    topicMatches filter topic = true ↔ FollowsRule filter topic := by
  have hgrammar := ((validateSubscribeTopic_iff filter).mp hvalid).2.2
  obtain ⟨first, rest, hfilter⟩ := List.exists_cons_of_ne_nil (levels_ne_nil filter)
  obtain ⟨tfirst, trest, htopic⟩ := List.exists_cons_of_ne_nil (levels_ne_nil topic)
  have hparts : matchParts (levels filter) (levels topic) = true ↔
      ((levels filter).getLast? ≠ some (str "#") →
        (levels filter).length = (levels topic).length ∧
          LevelsFit (levels filter) (levels topic)) ∧
      ((levels filter).getLast? = some (str "#") →
        (levels filter).length - 1 ≤ (levels topic).length ∧
          LevelsFit (levels filter).dropLast (levels topic)) := by
    rcases hgrammar.cases with hall | ⟨front, hfront, hall⟩
    · have hnot : str "#" ∉ levels filter := fun hmem => hash_ne_of_plain (hall _ hmem) rfl
      have hlast : (levels filter).getLast? ≠ some (str "#") :=
        fun hlast => hnot (List.mem_of_getLast? hlast)
      rw [matchParts_iff hnot]
      simp [hlast]
    · have hnot : str "#" ∉ front := fun hmem => hash_ne_of_plain (hall _ hmem) rfl
      rw [hfront, matchParts_append_hash_iff hnot]
      simp
  have hdollar : matchParts (levels filter) (levels topic) = true →
      (startsWith topic (str "$") = startsWith filter (str "$") ↔
        (startsWith topic (str "$") = true →
          ∀ part, (levels filter).head? = some part → isWildcard part = false)) := by
    intro hmatch
    rw [startsWith_first hfilter, startsWith_first htopic, hfilter,
      dollar_agrees (first_fits hfilter htopic hmatch)]
    simp only [List.head?_cons, Option.some.injEq, forall_eq']
  rw [topicMatches_iff]
  constructor
  · rintro ⟨hstart, hmatch⟩
    exact ⟨(hdollar hmatch).mp hstart, (hparts.mp hmatch).1, (hparts.mp hmatch).2⟩
  · rintro ⟨hstart, hexact, hhash⟩
    have hmatch := hparts.mpr ⟨hexact, hhash⟩
    exact ⟨(hdollar hmatch).mpr hstart, hmatch⟩

/-- `#` matches the level above it. -/
theorem topicMatches_iff_rule_parent :
    topicMatches (str "a/#") (str "a") = true ∧ FollowsRule (str "a/#") (str "a") :=
  ⟨by decide, (topicMatches_iff_rule (str "a/#") (str "a") (by decide)).mp (by decide)⟩

end Zmqtt
