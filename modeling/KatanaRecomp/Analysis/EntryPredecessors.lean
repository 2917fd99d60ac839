import KatanaRecomp.Lib.BitVecOrder
import KatanaRecomp.Lib.MergeWalk
import KatanaRecomp.Lib.Tally

/-! # The predecessor index of global entries

`GlobalEntryPredecessorIndex`: how often each address was declared a boundary,
and for every address the sources of the edges that lead to it. The counts keep
an edge that two families carry when one of them drops it. -/
namespace KatanaRecomp.Analysis
open Lib
open scoped Lib.BitVecOrder

structure GlobalEntryPredecessorIndex where
  boundaries : Tally (BitVec 32)
  predecessors : OrderedMap (BitVec 32) (Tally (BitVec 32))
  /-- A target leaves the map with its last predecessor. -/
  entered : predecessors.OmitsDefault Tally.empty

namespace GlobalEntryPredecessorIndex

def empty : GlobalEntryPredecessorIndex :=
  ⟨.empty, .empty, fun _ h => Option.some_ne_none _ (h.symm.trans (OrderedMap.find_empty _))⟩

def addBoundary (index : GlobalEntryPredecessorIndex) (address : BitVec 32) :
    GlobalEntryPredecessorIndex := { index with boundaries := index.boundaries.add address }

/-- The sources of the edges to an address. -/
def sources (index : GlobalEntryPredecessorIndex) (target : BitVec 32) : Tally (BitVec 32) :=
  index.predecessors.fetch Tally.empty target

def addEdge (index : GlobalEntryPredecessorIndex) (source target : BitVec 32) :
    GlobalEntryPredecessorIndex :=
  { index with
    predecessors := OrderedMap.store Tally.empty index.predecessors target
      ((index.sources target).add source)
    entered := index.entered.omits_store _ _ }

/-- A target that is not there has no source to remove. -/
def removeEdge (index : GlobalEntryPredecessorIndex) (source target : BitVec 32) :
    GlobalEntryPredecessorIndex :=
  { index with
    predecessors := OrderedMap.store Tally.empty index.predecessors target
      ((index.sources target).remove source)
    entered := index.entered.omits_store _ _ }

end GlobalEntryPredecessorIndex

/-! ## Differences -/

/-- `std::set` of addresses. -/
abbrev AddressSet := OrderedMap (BitVec 32) Unit

def insertAll (set : AddressSet) (addresses : List (BitVec 32)) : AddressSet :=
  addresses.foldl (fun set address => set.emplace address ()) set

structure GlobalEntryPredecessorDelta where
  changedBoundaries : AddressSet := .empty
  changedPredecessorTargets : AddressSet := .empty

namespace GlobalEntryPredecessorDelta

def affectsInterval (delta : GlobalEntryPredecessorDelta) (seed load : BitVec 32) : Bool :=
  if load ≤ seed then true
  else if (delta.changedBoundaries.upperBound seed).head?.any fun entry => entry.1 ≤ load then true
  else (delta.changedPredecessorTargets.upperBound seed).head?.any fun entry => entry.1 ≤ load

def merge (delta other : GlobalEntryPredecessorDelta) : GlobalEntryPredecessorDelta where
  changedBoundaries := insertAll delta.changedBoundaries (other.changedBoundaries.entries.map (·.1))
  changedPredecessorTargets :=
    insertAll delta.changedPredecessorTargets (other.changedPredecessorTargets.entries.map (·.1))

end GlobalEntryPredecessorDelta

/-- Keys come or go between two counts; how often they count does not matter. -/
def membershipChanges (previous current : Tally (BitVec 32)) : List (BitVec 32) :=
  OrderedMap.changedKeys (fun _ _ => false) previous.counts.entries current.counts.entries

namespace GlobalEntryPredecessorIndex

def difference (index next : GlobalEntryPredecessorIndex) : GlobalEntryPredecessorDelta where
  changedBoundaries := insertAll .empty (membershipChanges index.boundaries next.boundaries)
  changedPredecessorTargets := insertAll .empty <|
    OrderedMap.changedKeys (fun previous current => !(membershipChanges previous current).isEmpty)
      index.predecessors.entries next.predecessors.entries

end GlobalEntryPredecessorIndex

/-! ## Closed intervals -/

structure GlobalEntryEdge where
  source : BitVec 32 := 0
  target : BitVec 32 := 0
  deriving DecidableEq

namespace GlobalEntryPredecessorIndex

def predecessorsClose (index : GlobalEntryPredecessorIndex) (seed load : BitVec 32)
    (allowedInternalEdges : List GlobalEntryEdge) : Bool :=
  (index.predecessors.between seed load).all fun target =>
    target.2.counts.entries.all fun source =>
      allowedInternalEdges.any fun edge => edge.source == source.1 && edge.target == target.1

def closes (index : GlobalEntryPredecessorIndex) (seed load : BitVec 32)
    (allowedInternalEdges : List GlobalEntryEdge) (additional : Option GlobalEntryPredecessorIndex) :
    Bool :=
  if load ≤ seed then false
  else if (index.boundaries.counts.upperBound seed).head?.any fun entry => entry.1 ≤ load then false
  else if !index.predecessorsClose seed load allowedInternalEdges then false
  else
    match additional with
    | none => true
    | some additional => additional.predecessorsClose seed load allowedInternalEdges

/-! ## Counts -/

/-- How often an edge was added and not removed since. -/
def edgeCount (index : GlobalEntryPredecessorIndex) (source target : BitVec 32) : Nat :=
  (index.sources target).count source

variable (index : GlobalEntryPredecessorIndex) (source target source' target' : BitVec 32)

@[simp]
theorem sources_addEdge : (index.addEdge source target).sources target' =
    if target' = target then (index.sources target).add source else index.sources target' :=
  OrderedMap.fetch_store _ _ _

@[simp]
theorem sources_removeEdge : (index.removeEdge source target).sources target' =
    if target' = target then (index.sources target).remove source else index.sources target' :=
  OrderedMap.fetch_store _ _ _

theorem edgeCount_addEdge : (index.addEdge source target).edgeCount source' target' =
    index.edgeCount source' target' + if source' = source ∧ target' = target then 1 else 0 := by
  unfold edgeCount
  rw [sources_addEdge]
  by_cases htarget : target' = target
  · simp [htarget]
  · simp [htarget]

theorem edgeCount_removeEdge : (index.removeEdge source target).edgeCount source' target' =
    index.edgeCount source' target' - if source' = source ∧ target' = target then 1 else 0 := by
  unfold edgeCount
  rw [sources_removeEdge]
  by_cases htarget : target' = target
  · simp [htarget]
  · simp [htarget]

end GlobalEntryPredecessorIndex
end KatanaRecomp.Analysis
