import Mathlib.Data.List.Sort
import Zmqtt.OrderedDict
import Zmqtt.TopicMatching

/-!
# The subscription index

`SubscriptionIndex` keeps the registered filters three times: in a dictionary, in
a trie over the levels of the filters, and by subscription identifier.  A trie
node has one dictionary for literal levels and one for the levels `+` and `#`.

`detached` is the one field of an entry that changes while it is registered.  The
index never reads it, so it is kept with the state that changes it; an entry here
is the rest of the object, `oid` its identity.
-/

namespace Zmqtt

/-- `SubscriptionEntry`. -/
structure SubscriptionEntry where
  oid : Nat
  queue : Nat
  autoAck : Bool := true
  actualFilter : Str := []
  subscriptionIdentifier : Option Int := none
deriving DecidableEq, Repr

/-- A registered filter and its entry. -/
abbrev IndexItem := Str × SubscriptionEntry

/-- `entry.actual_filter or filter_`. -/
def actualFilter (item : IndexItem) : Str :=
  if item.2.actualFilter = [] then item.1 else item.2.actualFilter

/-- The levels under which a trie keeps an item. -/
def treeParts (item : IndexItem) : List Str := levels (actualFilter item)

/-- `_Node`. -/
structure Node where
  children : List (Str × Node) := []
  wildcardChildren : List (Str × Node) := []
  entries : List IndexItem := []

def Node.empty : Node := {}

/-- `not child.children and not child.wildcard_children and not child.entries`. -/
def Node.isEmpty (node : Node) : Bool :=
  node.children.isEmpty && node.wildcardChildren.isEmpty && node.entries.isEmpty

/-- `part in {"+", "#"}`. -/
def isWildcard (part : Str) : Bool := part = str "+" || part = str "#"

/-- The dictionary of a node that holds the child for a level. -/
def Node.mapping (node : Node) (part : Str) : List (Str × Node) :=
  if isWildcard part then node.wildcardChildren else node.children

/-- The node after a change of the dictionary that holds a level. -/
def Node.setMapping (node : Node) (part : Str) (mapping : List (Str × Node)) : Node :=
  if isWildcard part then { node with wildcardChildren := mapping }
  else { node with children := mapping }

/-- The walk of `add` down the trie, and the append at its end. -/
def Node.insert (node : Node) : List Str → IndexItem → Node
  | [], item => { node with entries := node.entries ++ [item] }
  | part :: parts, item =>
      let child := (OrderedDict.get (node.mapping part) part).getD Node.empty
      node.setMapping part
        (OrderedDict.set (node.mapping part) part (child.insert parts item))

/-- `_remove_entry`. -/
def Node.removeEntry (node : Node) : List Str → IndexItem → Node
  | [], item =>
      { node with
        entries := node.entries.filter fun other =>
          !(other.1 = item.1 && other.2.oid = item.2.oid) }
  | part :: parts, item =>
      match OrderedDict.get (node.mapping part) part with
      | none => node
      | some child =>
          let child := child.removeEntry parts item
          if child.isEmpty then node.setMapping part (OrderedDict.pop (node.mapping part) part)
          else node.setMapping part (OrderedDict.set (node.mapping part) part child)

/-- `_collect`, from the level at `idx` on. -/
def Node.collect (node : Node) : List Str → List IndexItem
  | [] => (OrderedDict.get node.wildcardChildren (str "#")).elim [] Node.entries ++ node.entries
  | part :: parts =>
      (OrderedDict.get node.wildcardChildren (str "#")).elim [] Node.entries ++
        ((OrderedDict.get node.children part).elim [] (fun child => child.collect parts) ++
          (OrderedDict.get node.wildcardChildren (str "+")).elim []
            (fun child => child.collect parts))

/-- `SubscriptionSelection`. -/
structure SubscriptionSelection where
  recipient : Option IndexItem
  identifierMissing : Bool := false
  tiedFilters : List Str := []
deriving DecidableEq, Repr

/-- `SubscriptionIndex`. -/
structure SubscriptionIndex where
  root : Node := {}
  entries : List IndexItem := []
  byIdentifierMap : List (Int × List IndexItem) := []
  responseObservers : List Str := []

namespace SubscriptionIndex

/-- The part of `remove` that keeps `_by_identifier` in step. -/
def dropIdentifier (byId : List (Int × List IndexItem)) (filter : Str) (identifier : Int) :
    List (Int × List IndexItem) :=
  match OrderedDict.get byId identifier with
  | none => byId
  | some identified =>
      let identified := OrderedDict.pop identified filter
      if identified.isEmpty then OrderedDict.pop byId identifier
      else OrderedDict.set byId identifier identified

/-- `remove`. -/
def remove (index : SubscriptionIndex) (filter : Str) :
    SubscriptionIndex × Option SubscriptionEntry :=
  match OrderedDict.get index.entries filter with
  | none => (index, none)
  | some entry =>
      ({ index with
          entries := OrderedDict.pop index.entries filter
          root := index.root.removeEntry (treeParts (filter, entry)) (filter, entry)
          byIdentifierMap :=
            match entry.subscriptionIdentifier with
            | none => index.byIdentifierMap
            | some identifier => dropIdentifier index.byIdentifierMap filter identifier },
        some entry)

/-- What `add` does once the filter is not registered. -/
def insert (index : SubscriptionIndex) (filter : Str) (entry : SubscriptionEntry) :
    SubscriptionIndex :=
  { index with
    root := index.root.insert (treeParts (filter, entry)) (filter, entry)
    entries := OrderedDict.set index.entries filter entry
    byIdentifierMap :=
      match entry.subscriptionIdentifier with
      | none => index.byIdentifierMap
      | some identifier =>
          OrderedDict.set index.byIdentifierMap identifier
            (OrderedDict.set ((OrderedDict.get index.byIdentifierMap identifier).getD [])
              filter entry) }

/-- `contains`. -/
def contains (index : SubscriptionIndex) (filter : Str) : Bool :=
  (OrderedDict.get index.entries filter).isSome

/-- `add`. -/
def add (index : SubscriptionIndex) (filter : Str) (entry : SubscriptionEntry) :
    SubscriptionIndex :=
  if index.contains filter then (index.remove filter).1.insert filter entry
  else index.insert filter entry

/-- `add_many`. -/
def addMany (index : SubscriptionIndex) (entries : List IndexItem) : SubscriptionIndex :=
  entries.foldl (fun index item => index.add item.1 item.2) index

/-- `clear`. -/
def clear (_ : SubscriptionIndex) : SubscriptionIndex := {}

/-- `add_response_observer`. -/
def addResponseObserver (index : SubscriptionIndex) (topic : Str) : SubscriptionIndex × Bool :=
  if topic ∈ index.responseObservers then (index, false)
  else ({ index with responseObservers := topic :: index.responseObservers }, true)

/-- `remove_response_observer`. -/
def removeResponseObserver (index : SubscriptionIndex) (topic : Str) :
    SubscriptionIndex × Bool :=
  if topic ∈ index.responseObservers then
    ({ index with responseObservers := index.responseObservers.erase topic }, true)
  else (index, false)

/-- `has_response_observer`. -/
def hasResponseObserver (index : SubscriptionIndex) (topic : Str) : Bool :=
  topic ∈ index.responseObservers

/-- The order of `sorted(.., key=self._specificity(..))`. -/
def lessSpecific (a b : IndexItem) : Prop :=
  tupleLt (filterSpecificity (actualFilter b)) (filterSpecificity (actualFilter a)) = false

instance : DecidableRel lessSpecific := fun a b =>
  inferInstanceAs (Decidable (tupleLt (filterSpecificity (actualFilter b))
    (filterSpecificity (actualFilter a)) = false))

/-- `match`. -/
def matching (index : SubscriptionIndex) (topic : Str) : List IndexItem :=
  ((index.root.collect (levels topic)).filter fun item =>
    topicMatches (actualFilter item) topic).insertionSort lessSpecific

/-- `by_identifier`. -/
def byIdentifier (index : SubscriptionIndex) (identifier : Int) : List IndexItem :=
  (OrderedDict.get index.byIdentifierMap identifier).getD []

/-- `min(..)` over the specificities of a nonempty list of candidates. -/
def bestKey (first : IndexItem) (rest : List IndexItem) : List Nat :=
  rest.foldl
    (fun key item =>
      let other := filterSpecificity (actualFilter item)
      if tupleLt other key then other else key)
    (filterSpecificity (actualFilter first))

/-- `_select_from`. -/
def selectFrom : List IndexItem → SubscriptionSelection
  | [] => { recipient := none }
  | first :: rest =>
      let winners := (first :: rest).filter fun item =>
        filterSpecificity (actualFilter item) = bestKey first rest
      { recipient := winners.head?
        tiedFilters := if winners.length > 1 then winners.map Prod.fst else [] }

/-- `select`. -/
def select (index : SubscriptionIndex) (topic : Str) : SubscriptionSelection :=
  selectFrom (index.matching topic)

/-- `select_by_identifier`. -/
def selectByIdentifier (index : SubscriptionIndex) (topic : Str) (identifier : Int) :
    SubscriptionSelection :=
  let identified := index.byIdentifier identifier
  if identified ≠ [] then
    let matched := identified.filter fun item => topicMatches (actualFilter item) topic
    selectFrom (if matched ≠ [] then matched else identified)
  else { index.select topic with identifierMissing := true }

end SubscriptionIndex

end Zmqtt
