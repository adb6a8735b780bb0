import Zmqtt.SubscriptionScan

/-!
# The grammar of topic filters

`validate_subscribe_topic` of `types/topic.py` checks positions of characters, the trie and
the matching functions work level by level.  A filter is accepted exactly when its levels
follow the grammar: `+` alone, no wildcard, or `#` alone as the last level.
-/

namespace Zmqtt

/-- `MQTTInvalidTopicError`.  The text ends with the `repr` of `topic`, if there is one. -/
structure InvalidTopicError where
  msg : String
  topic : Option Str := none
deriving DecidableEq, Repr

/-- `validate_subscribe_topic`. -/
def validateSubscribeTopic (topic : Str) : Except InvalidTopicError Unit :=
  if topic = [] then .error { msg := "Topic filter must not be empty" }
  else if (topic.drop 1).contains (CodePoint.ofChar '$') then
    .error
      { msg := "'$' is only valid as the first character of a topic filter: ", topic := some topic }
  else if topic.contains (CodePoint.ofChar '#') ∧
      topic.idxOf (CodePoint.ofChar '#') ≠ topic.length - 1 then
    .error { msg := "'#' must be the last character in a topic filter: ", topic := some topic }
  else if topic.contains (CodePoint.ofChar '#') ∧ 0 < topic.idxOf (CodePoint.ofChar '#') ∧
      topic[topic.idxOf (CodePoint.ofChar '#') - 1]? ≠ some (CodePoint.ofChar '/') then
    .error { msg := "'#' must be preceded by '/' in a topic filter: ", topic := some topic }
  else if (levels topic).any fun level =>
      level.contains (CodePoint.ofChar '+') && decide (level ≠ str "+") then
    .error { msg := "'+' must occupy an entire topic level in filter: ", topic := some topic }
  else .ok ()

/-- A level without wildcards. -/
def WildcardFree (level : Str) : Prop :=
  CodePoint.ofChar '+' ∉ level ∧ CodePoint.ofChar '#' ∉ level

/-- The levels of a filter: `+`, no wildcard, or `#` as the last one. -/
def GrammarLevels : List Str → Prop
  | [] => True
  | level :: rest =>
      (level = str "+" ∨ WildcardFree level ∨ (level = str "#" ∧ rest = [])) ∧ GrammarLevels rest

/-! ## Levels of a string -/

variable {s : Str}

theorem levels_ne_nil (s : Str) : levels s ≠ [] := List.splitOn_ne_nil _ _

/-- The levels, joined by `/`. -/
theorem intercalate_levels (s : Str) : [CodePoint.ofChar '/'].intercalate (levels s) = s :=
  List.intercalate_splitOn _

theorem levels_injective : Function.Injective levels := fun a b hab => by
  rw [← intercalate_levels a, hab, intercalate_levels]

theorem levels_intercalate {parts : List Str} (hparts : parts ≠ [])
    (hslash : ∀ part ∈ parts, CodePoint.ofChar '/' ∉ part) :
    levels ([CodePoint.ofChar '/'].intercalate parts) = parts :=
  List.splitOn_intercalate _ hslash hparts

theorem levels_append_slash (a b : Str) :
    levels (a ++ CodePoint.ofChar '/' :: b) = levels a ++ levels b :=
  List.splitOn_append_cons_self a b

theorem levels_of_no_slash (h : CodePoint.ofChar '/' ∉ s) : levels s = [s] :=
  List.splitOn_eq_singleton h

/-- The levels of a string, character by character. -/
theorem levels_cons (c : CodePoint) (s : Str) :
    ∃ level rest, levels s = level :: rest ∧
      levels (c :: s) =
        if c = CodePoint.ofChar '/' then [] :: level :: rest else (c :: level) :: rest := by
  obtain ⟨level, rest, heq⟩ := List.exists_cons_of_ne_nil (levels_ne_nil s)
  refine ⟨level, rest, heq, ?_⟩
  have hcons := List.splitOn_cons_eq_if_modifyHead (a := CodePoint.ofChar '/') c s
  unfold levels at heq ⊢
  rw [hcons, heq]
  by_cases hc : c = CodePoint.ofChar '/'
  · simp [hc]
  · simp [hc]

/-- A character other than `/` is in one of the levels. -/
theorem mem_level_iff {c : CodePoint} (hc : c ≠ CodePoint.ofChar '/') :
    (∃ level ∈ levels s, c ∈ level) ↔ c ∈ s := by
  induction s with
  | nil => simp [levels]
  | cons first s ih =>
      obtain ⟨level, rest, hlevels, hcons⟩ := levels_cons first s
      rw [hlevels] at ih
      rw [hcons, List.mem_cons, ← ih]
      by_cases hfirst : first = CodePoint.ofChar '/'
      · have hne : c ≠ first := fun heq => hc (heq.trans hfirst)
        simp [hfirst, hc]
      · simp only [if_neg hfirst, List.mem_cons, exists_eq_or_imp]
        tauto

theorem slash_not_mem_level {level : Str} (h : level ∈ levels s) : CodePoint.ofChar '/' ∉ level := by
  induction s generalizing level with
  | nil =>
      have hempty : level = [] := by simpa [levels] using h
      rw [hempty]
      exact List.not_mem_nil
  | cons first s ih =>
      obtain ⟨head, rest, hlevels, hcons⟩ := levels_cons first s
      rw [hlevels] at ih
      rw [hcons] at h
      by_cases hfirst : first = CodePoint.ofChar '/'
      · rw [if_pos hfirst] at h
        rcases List.mem_cons.mp h with rfl | hold
        · exact List.not_mem_nil
        · exact ih hold
      · rw [if_neg hfirst] at h
        rcases List.mem_cons.mp h with rfl | hold
        · rw [List.mem_cons]
          rintro (heq | hmem)
          · exact hfirst heq.symm
          · exact ih List.mem_cons_self hmem
        · exact ih (List.mem_cons_of_mem _ hold)

/-- A string starts with `$` where its first level does. -/
theorem startsWith_first {level : Str} {rest : List Str} (h : levels s = level :: rest) :
    startsWith s (str "$") = startsWith level (str "$") := by
  cases s with
  | nil =>
      have hlevel : level = [] := by
        have hnil : [([] : Str)] = level :: rest := h
        exact (List.cons.inj hnil).1.symm
      rw [hlevel]
  | cons c s =>
      obtain ⟨head, tail, -, hcons⟩ := levels_cons c s
      rw [hcons] at h
      by_cases hc : c = CodePoint.ofChar '/'
      · rw [if_pos hc] at h
        rw [← (List.cons.inj h).1, hc]
        rfl
      · rw [if_neg hc] at h
        rw [← (List.cons.inj h).1]
        show (str "$").isPrefixOf (c :: s) = (str "$").isPrefixOf (c :: head)
        have hdollar : str "$" = [CodePoint.ofChar '$'] := rfl
        rw [hdollar, List.isPrefixOf_cons_cons, List.isPrefixOf_cons_cons]
        simp

/-! ## What the validator accepts -/

theorem grammarLevels_of_forall {parts : List Str}
    (h : ∀ part ∈ parts, part = str "+" ∨ WildcardFree part) : GrammarLevels parts := by
  induction parts with
  | nil => trivial
  | cons part parts ih =>
      refine ⟨?_, ih fun other hother => h other (List.mem_cons_of_mem _ hother)⟩
      rcases h part List.mem_cons_self with hplus | hfree
      · exact .inl hplus
      · exact .inr (.inl hfree)

theorem grammarLevels_append_hash {parts : List Str}
    (h : ∀ part ∈ parts, part = str "+" ∨ WildcardFree part) :
    GrammarLevels (parts ++ [str "#"]) := by
  induction parts with
  | nil => exact ⟨.inr (.inr ⟨rfl, rfl⟩), trivial⟩
  | cons part parts ih =>
      refine ⟨?_, ih fun other hother => h other (List.mem_cons_of_mem _ hother)⟩
      rcases h part List.mem_cons_self with hplus | hfree
      · exact .inl hplus
      · exact .inr (.inl hfree)

/-- The levels of the grammar: no `#`, or one at the end. -/
theorem GrammarLevels.cases {parts : List Str} (h : GrammarLevels parts) :
    (∀ part ∈ parts, part = str "+" ∨ WildcardFree part) ∨
      ∃ front, parts = front ++ [str "#"] ∧ ∀ part ∈ front, part = str "+" ∨ WildcardFree part := by
  induction parts with
  | nil => exact .inl fun part hpart => absurd hpart List.not_mem_nil
  | cons part parts ih =>
      obtain ⟨hpart, hrest⟩ := h
      by_cases hlast : part = str "#" ∧ parts = []
      · refine .inr ⟨[], ?_, fun other hother => absurd hother List.not_mem_nil⟩
        rw [hlast.1, hlast.2]
        rfl
      · have hplain : part = str "+" ∨ WildcardFree part := by
          rcases hpart with hplus | hfree | hhash
          · exact .inl hplus
          · exact .inr hfree
          · exact absurd hhash hlast
        rcases ih hrest with hall | ⟨front, hfront, hall⟩
        · refine .inl fun other hother => ?_
          rcases List.mem_cons.mp hother with rfl | hother
          · exact hplain
          · exact hall other hother
        · refine .inr ⟨part :: front, by rw [hfront]; rfl, fun other hother => ?_⟩
          rcases List.mem_cons.mp hother with rfl | hother
          · exact hplain
          · exact hall other hother

/-- What the test for `#` leaves: no `#`, or one as the last level. -/
theorem hash_checks_iff (s : Str) :
    (CodePoint.ofChar '#' ∈ s → s.idxOf (CodePoint.ofChar '#') = s.length - 1 ∧
        (0 < s.idxOf (CodePoint.ofChar '#') →
          s[s.idxOf (CodePoint.ofChar '#') - 1]? = some (CodePoint.ofChar '/'))) ↔
      CodePoint.ofChar '#' ∉ s ∨ s = str "#" ∨
        ∃ front, CodePoint.ofChar '#' ∉ front ∧
          s = front ++ CodePoint.ofChar '/' :: str "#" := by
  have hstr : str "#" = [CodePoint.ofChar '#'] := rfl
  constructor
  · intro h
    by_cases hmem : CodePoint.ofChar '#' ∈ s
    · right
      obtain ⟨hlast, hbefore⟩ := h hmem
      obtain ⟨front, rest, hs, hfront⟩ := List.eq_append_cons_of_mem hmem
      have hidx : s.idxOf (CodePoint.ofChar '#') = front.length := by
        rw [hs, List.idxOf_append_of_notMem hfront]
        simp
      have hrest : rest = [] := by
        rw [hidx, hs, List.length_append, List.length_cons] at hlast
        exact List.eq_nil_of_length_eq_zero (by omega)
      rw [hrest] at hs
      rcases List.eq_nil_or_concat front with hnil | ⟨start, c, hfrontEq⟩
      · left
        rw [hs, hnil, hstr]
        rfl
      · right
        rw [List.concat_eq_append] at hfrontEq
        have hc : c = CodePoint.ofChar '/' := by
          have hget := hbefore (by rw [hidx, hfrontEq]; simp)
          rw [hidx, hs, hfrontEq] at hget
          simpa using hget
        refine ⟨start, fun hstart => hfront ?_, ?_⟩
        · rw [hfrontEq]
          exact List.mem_append_left _ hstart
        · rw [hs, hfrontEq, hc, hstr, List.append_assoc]
          rfl
    · exact .inl hmem
  · rintro (hnot | rfl | ⟨front, hfront, rfl⟩) hmem
    · exact absurd hmem hnot
    · exact ⟨rfl, fun hpos => absurd hpos (Nat.lt_irrefl 0)⟩
    · have hidx : (front ++ CodePoint.ofChar '/' :: str "#").idxOf (CodePoint.ofChar '#') =
          front.length + 1 := by
        rw [List.idxOf_append_of_notMem hfront]
        rfl
      rw [hidx, hstr]
      simp

/-- **The validator accepts the grammar.** -/
theorem validateSubscribeTopic_iff (s : Str) :
    validateSubscribeTopic s = .ok () ↔
      s ≠ [] ∧ CodePoint.ofChar '$' ∉ s.drop 1 ∧ GrammarLevels (levels s) := by
  have hchecks : validateSubscribeTopic s = .ok () ↔
      s ≠ [] ∧ CodePoint.ofChar '$' ∉ s.drop 1 ∧
        (CodePoint.ofChar '#' ∈ s → s.idxOf (CodePoint.ofChar '#') = s.length - 1 ∧
          (0 < s.idxOf (CodePoint.ofChar '#') →
            s[s.idxOf (CodePoint.ofChar '#') - 1]? = some (CodePoint.ofChar '/'))) ∧
        ∀ level ∈ levels s, CodePoint.ofChar '+' ∈ level → level = str "+" := by
    unfold validateSubscribeTopic
    split_ifs with hempty hdollar hhash hslash hplus
    all_goals grind
  have hplain : ∀ level : Str, (CodePoint.ofChar '+' ∈ level → level = str "+") →
      CodePoint.ofChar '#' ∉ level → level = str "+" ∨ WildcardFree level := by
    intro level hplus hhash
    by_cases hmem : CodePoint.ofChar '+' ∈ level
    · exact .inl (hplus hmem)
    · exact .inr ⟨hmem, hhash⟩
  have hback : ∀ level : Str, level = str "+" ∨ WildcardFree level →
      (CodePoint.ofChar '+' ∈ level → level = str "+") ∧ CodePoint.ofChar '#' ∉ level := by
    rintro level (rfl | ⟨hplus, hhash⟩)
    · exact ⟨fun _ => rfl, by decide⟩
    · exact ⟨fun hmem => absurd hmem hplus, hhash⟩
  have hne : CodePoint.ofChar '#' ≠ CodePoint.ofChar '/' := by decide
  rw [hchecks, hash_checks_iff]
  refine and_congr_right fun _ => and_congr_right fun _ => ?_
  constructor
  · rintro ⟨hnot | rfl | ⟨front, hfront, rfl⟩, hplus⟩
    · refine grammarLevels_of_forall fun level hlevel => hplain level (hplus level hlevel) ?_
      exact fun hmem => hnot ((mem_level_iff hne).mp ⟨level, hlevel, hmem⟩)
    · exact ⟨.inr (.inr ⟨rfl, rfl⟩), trivial⟩
    · rw [levels_append_slash] at hplus ⊢
      refine grammarLevels_append_hash fun level hlevel =>
        hplain level (hplus level (List.mem_append_left _ hlevel)) ?_
      exact fun hmem => hfront ((mem_level_iff hne).mp ⟨level, hlevel, hmem⟩)
  · intro hgrammar
    rcases hgrammar.cases with hall | ⟨front, hfront, hall⟩
    · refine ⟨.inl fun hmem => ?_, fun level hlevel => (hback level (hall level hlevel)).1⟩
      obtain ⟨level, hlevel, hmem⟩ := (mem_level_iff hne).mpr hmem
      exact (hback level (hall level hlevel)).2 hmem
    · constructor
      · right
        rcases front with _ | ⟨first, front⟩
        · left
          exact levels_injective hfront
        · right
          have hlevels := @levels_intercalate (first :: front) (by simp)
            (fun part hpart => slash_not_mem_level (s := s) (by
              rw [hfront]
              exact List.mem_append_left _ hpart))
          refine ⟨[CodePoint.ofChar '/'].intercalate (first :: front), fun hmem => ?_, ?_⟩
          · obtain ⟨level, hlevel, hmem⟩ := (mem_level_iff hne).mpr hmem
            rw [hlevels] at hlevel
            exact (hback level (hall level hlevel)).2 hmem
          · apply levels_injective
            rw [hfront, levels_append_slash, hlevels]
            rfl
      · intro level hlevel
        rw [hfront] at hlevel
        rcases List.mem_append.mp hlevel with hlevel | hlevel
        · exact (hback level (hall level hlevel)).1
        · rw [List.mem_singleton.mp hlevel]
          decide

end Zmqtt
