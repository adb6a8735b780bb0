import Zmqtt.Wire

/-!
# Topic filters

The functions of `topic_matching.py`: when a filter matches a topic, which filter
the broker matches for a shared or decorated subscription, and how specific a
filter is.
-/

namespace Zmqtt

/-- `s.split("/")`. -/
def levels (s : Str) : List Str := s.splitOn (CodePoint.ofChar '/')

/-- `s.startswith(head)`. -/
def startsWith (s head : Str) : Bool := head.isPrefixOf s

/-- The part of a string behind its first `/`. -/
def afterSlash : Str → Option Str
  | [] => none
  | c :: rest => if c = CodePoint.ofChar '/' then some rest else afterSlash rest

/-- The loop over `stripped_prefixes` of `_shared_filter_to_actual`. -/
def stripDecorator (filter : Str) : List Str → Str
  | [] => filter
  | decorator :: decorators =>
      if startsWith filter (decorator ++ str "/") then (afterSlash filter).getD []
      else stripDecorator filter decorators

/-- `_shared_filter_to_actual`. -/
def sharedFilterToActual (filter : Str) (strippedPrefixes : List Str) : Str :=
  if startsWith filter (str "$share/") then
    match afterSlash (filter.drop (str "$share/").length) with
    | some actualFilter => actualFilter
    | none => stripDecorator filter strippedPrefixes
  else stripDecorator filter strippedPrefixes

/-- `_match_parts`. -/
def matchParts : (fparts tparts : List Str) → Bool
  | [], tparts => tparts.isEmpty
  | fpart :: fparts, tparts =>
      if fpart = str "#" then true
      else
        match tparts with
        | [] => false
        | tpart :: tparts =>
            if fpart ≠ str "+" ∧ fpart ≠ tpart then false else matchParts fparts tparts

/-- `_topic_matches`. -/
def topicMatches (actualFilter topic : Str) : Bool :=
  if startsWith topic (str "$") != startsWith actualFilter (str "$") then false
  else matchParts (levels actualFilter) (levels topic)

/-- `topic_matches`, the public function. -/
def topicMatchesFilter (topicFilter topic : Str)
    (strippedPrefixes : List Str := [str "$queue", str "$exclusive"]) : Bool :=
  topicMatches (sharedFilterToActual topicFilter strippedPrefixes) topic

/-- Python's `<` on tuples of integers. -/
def tupleLt : List Nat → List Nat → Bool
  | _, [] => false
  | [], _ :: _ => true
  | a :: as, b :: bs => a < b || (a = b && tupleLt as bs)

/-- Python's order of tuples is the order of lists. -/
theorem tupleLt_iff {a b : List Nat} : tupleLt a b = true ↔ a < b := by
  induction a generalizing b with
  | nil =>
      cases b with
      | nil => simp [tupleLt]
      | cons y b => simp [tupleLt]
  | cons x a ih =>
      cases b with
      | nil => simp [tupleLt]
      | cons y b => simp [tupleLt, ih, List.cons_lt_cons_iff]

/-- `_segment_rank`. -/
def segmentRank (seg : Str) : Nat :=
  if seg = str "#" then 2 else if seg = str "+" then 1 else 0

/-- `_filter_specificity`, and `SubscriptionIndex._specificity`. -/
def filterSpecificity (actualFilter : Str) : List Nat :=
  (levels actualFilter).map segmentRank

end Zmqtt
