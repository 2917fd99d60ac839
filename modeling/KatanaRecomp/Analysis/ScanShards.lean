import KatanaRecomp.Analysis.BasicBlocks
import KatanaRecomp.Analysis.EntryPredecessors
import KatanaRecomp.Lib.RangeMap

/-! # The shards of the control-flow scan

`IncrementalCfaScanCache`: the decoded lines and the functions of the last round,
and the components, each a range of addresses with a copy of the lines in it. A
round takes over the changed lines and functions, collects the components that they
touch and rebuilds these with the bounds that the new functions give them. -/
namespace KatanaRecomp.Analysis
open Lib Sh4
open scoped Lib.BitVecOrder

inductive FunctionOrigin
  | entryPoint | directCall | indirectCall | guardedSnapshot | runtimeCopy | jumpTableCall
  | userOverride | userHint | symbol | storedCodeAddress
  deriving DecidableEq

inductive AnalysisConfidence
  | low | medium | high | certain
  deriving DecidableEq

structure FunctionCandidate where
  address : BitVec 32 := 0
  confidence : AnalysisConfidence := .low
  evidence : ControlFlowEvidence := .unresolved
  origins : List FunctionOrigin := []
  /-- Zero stands for an open end. -/
  size : BitVec 32 := 0

abbrev LineMap := OrderedMap (BitVec 32) DisassemblyLine

abbrev FunctionMap := OrderedMap (BitVec 32) FunctionCandidate

def sameRecursiveLine (left right : DisassemblyLine) : Bool :=
  left.address == right.address && left.opcode == right.opcode &&
    left.isDelaySlot == right.isDelaySlot && left.targetAddress == right.targetAddress

def sameRecursiveFunction (left right : FunctionCandidate) : Bool :=
  left.address == right.address && left.confidence == right.confidence &&
    left.evidence == right.evidence && left.origins == right.origins && left.size == right.size

/-! ## Starts and bounds -/

def orphanShardBytes : BitVec 32 := 4096

def maximumAddress : Nat := 0xFFFFFFFF

/-- The entry of the function that holds the address; else the page of the address,
or the end of the function before it when that lies in the page. -/
def shardStart (functions : FunctionMap) (address : BitVec 32) : BitVec 32 :=
  let page := address &&& ~~~(orphanShardBytes - 1)
  match functions.lastUpTo address with
  | none => page
  | some (entry, owner) =>
    if owner.size = 0 ∨ address.toNat < entry.toNat + owner.size.toNat then entry
    else
      let after := entry.toNat + owner.size.toNat
      if owner.size ≠ 0 ∧ after ≤ maximumAddress then max page (BitVec.ofNat 32 after) else page

/-- An end is cut in front of the next function. -/
def cutBefore (last : Nat) : Option (BitVec 32 × FunctionCandidate) → Nat
  | none => last
  | some next => if next.1 ≠ 0 then min last (next.1 - 1).toNat else last

def shardBounds (functions : FunctionMap) (requestedStart : BitVec 32) : BitVec 32 × BitVec 32 :=
  let next := (functions.upperBound requestedStart).head?
  match functions.find requestedStart with
  | some function =>
    let last :=
      if function.size ≠ 0 then requestedStart.toNat + function.size.toNat - 1 else maximumAddress
    (requestedStart, BitVec.ofNat 32 (min (cutBefore last next) maximumAddress))
  | none =>
    let last := requestedStart.toNat + orphanShardBytes.toNat - 1
    (requestedStart, BitVec.ofNat 32 (min (cutBefore last next) maximumAddress))

/-! ## The cache and what a round brings -/

structure Component where
  beginAddress : BitVec 32 := 0
  endAddress : BitVec 32 := 0
  lines : List DisassemblyLine := []

abbrev ComponentMap := OrderedMap (BitVec 32) Component

def componentContaining (components : ComponentMap) (address : BitVec 32) :
    Option (BitVec 32 × Component) := components.containing Component.endAddress address

structure IncrementalCfaScanCache where
  lines : LineMap := .empty
  functions : FunctionMap := .empty
  components : ComponentMap := .empty

/-- The changes since the last round, or a whole index to take over. -/
inductive RecursiveDelta
  | changes (instructions : List DisassemblyLine)
      (functions : List (BitVec 32 × FunctionCandidate))
  | completeRebase (lines : LineMap) (functions : FunctionMap)

/-- A round. The recognised dispatches whose ingress interval the new predecessors
affect come from the recognition and may be any addresses here. -/
structure ScanInput where
  delta : RecursiveDelta
  ingressDispatches : List (BitVec 32) := []

/-- What `apply` collects before it rebuilds. -/
structure ScanRound where
  lines : LineMap
  functions : FunctionMap
  dirtyAddresses : AddressSet := .empty
  dirtyComponentStarts : AddressSet := .empty

namespace ScanRound
variable (components : ComponentMap)

def markDirty (round : ScanRound) (address : BitVec 32) : ScanRound :=
  { round with dirtyAddresses := round.dirtyAddresses.emplace address () }

def retainOldComponent (round : ScanRound) (address : BitVec 32) : ScanRound :=
  match componentContaining components address with
  | none => round
  | some found =>
    { round with dirtyComponentStarts := round.dirtyComponentStarts.emplace found.1 () }

/-- The target of a line that goes. -/
def releaseTarget (round : ScanRound) (previous : DisassemblyLine) : ScanRound :=
  match previous.targetAddress with
  | none => round
  | some target => (round.retainOldComponent components target).markDirty target

def applyLine (round : ScanRound) (line : DisassemblyLine) : ScanRound :=
  let marked := (round.markDirty line.address).retainOldComponent components line.address
  let released :=
    match marked.lines.find line.address with
    | none => marked
    | some previous => marked.releaseTarget components previous
  let stored := { released with lines := released.lines.insertOrAssign line.address line }
  match line.targetAddress with
  | none => stored
  | some target => stored.markDirty target

/-- A line that the whole index has no more, or has otherwise. -/
def dropLine (round : ScanRound) (previous : BitVec 32 × DisassemblyLine) : ScanRound :=
  let released :=
    (round.retainOldComponent components previous.1).releaseTarget components previous.2
  let marked := released.markDirty previous.1
  { marked with lines := marked.lines.erase previous.1 }

/-- The lines that are the same stay, the others go, and what is missing then comes in. -/
def rebaseLines (round : ScanRound) (next : LineMap) : ScanRound :=
  let gone := round.lines.entries.filter fun previous =>
    !(next.find previous.1).any (sameRecursiveLine previous.2)
  let kept := gone.foldl (dropLine components) round
  next.entries.foldl (fun round entry =>
    if (round.lines.find entry.1).any (sameRecursiveLine · entry.2) then round
    else round.applyLine components entry.2) kept

/-- The address behind a function, where there is one. -/
def markEnd (round : ScanRound) (entry size : BitVec 32) : ScanRound :=
  if entry.toNat + size.toNat ≤ maximumAddress then
    round.markDirty (BitVec.ofNat 32 (entry.toNat + size.toNat))
  else round

def applyFunction (round : ScanRound) (changed : BitVec 32 × FunctionCandidate) : ScanRound :=
  let (entry, function) := changed
  let previous := round.functions.find entry
  let previousSize := (previous.map (·.size)).getD 0
  let nextActive : Bool := function.evidence ≠ .unresolved
  let nextSize := if nextActive then function.size else 0
  let shardContractChanged : Bool :=
    previous.isSome ≠ nextActive || previous.isSome && nextActive && previousSize ≠ nextSize
  let retained :=
    if shardContractChanged then
      let atEntry := round.retainOldComponent components entry
      if 2 ≤ entry then atEntry.retainOldComponent components (entry - 2) else atEntry
    else round
  let ended :=
    if previous.isSome && previousSize ≠ 0 && shardContractChanged then
      retained.markEnd entry previousSize
    else retained
  let stored :=
    { ended with
      functions :=
        if nextActive then ended.functions.insertOrAssign entry function
        else ended.functions.erase entry }
  if shardContractChanged then
    let atEntry := stored.markDirty entry
    let before := if 2 ≤ entry then atEntry.markDirty (entry - 2) else atEntry
    if nextActive && nextSize ≠ 0 then before.markEnd entry nextSize else before
  else stored

end ScanRound

/-- The functions that a whole index changes; one that it has no more loses its evidence. -/
def rebasedFunctions (functions next : FunctionMap) : List (BitVec 32 × FunctionCandidate) :=
  (functions.entries.filterMap fun (entry, function) =>
    match next.find entry with
    | none => some (entry, { function with evidence := .unresolved })
    | some other => if sameRecursiveFunction function other then none else some (entry, other)) ++
  next.entries.filter fun other => (functions.find other.1).isNone

namespace IncrementalCfaScanCache

/-- The first half of `apply`: all that changes but the components. -/
def receive (cache : IncrementalCfaScanCache) (input : ScanInput) : ScanRound :=
  let round : ScanRound := { lines := cache.lines, functions := cache.functions }
  let received :=
    match input.delta with
    | .changes instructions functions =>
      functions.foldl (ScanRound.applyFunction cache.components)
        (instructions.foldl (ScanRound.applyLine cache.components) round)
    | .completeRebase lines functions =>
      (rebasedFunctions cache.functions functions).foldl
        (ScanRound.applyFunction cache.components) (round.rebaseLines cache.components lines)
  input.ingressDispatches.foldl ScanRound.markDirty received

end IncrementalCfaScanCache

/-- The dirty addresses that hold a line have their shards rebuilt. -/
def ScanRound.requestStarts (round : ScanRound) (starts : AddressSet) : AddressSet :=
  let decoded := (round.dirtyAddresses.entries.map (·.1)).filter fun address =>
    (round.lines.find address).isSome
  insertAll starts (decoded.map (shardStart round.functions))

/-- A component with the bounds of its start and the lines within these. -/
def ScanRound.shard (round : ScanRound) (requestedBegin : BitVec 32) : Component :=
  let bounds := shardBounds round.functions requestedBegin
  { beginAddress := bounds.1, endAddress := bounds.2
    lines := (round.lines.within bounds.1 bounds.2).map (·.2) }

def ScanRound.rebuild (round : ScanRound) (components : ComponentMap)
    (requestedBegin : BitVec 32) : ComponentMap :=
  let component := round.shard requestedBegin
  if (components.find component.beginAddress).isSome then components
  else components.insertOrAssign component.beginAddress component

def IncrementalCfaScanCache.apply (cache : IncrementalCfaScanCache) (input : ScanInput) :
    IncrementalCfaScanCache :=
  let round := cache.receive input
  if round.dirtyAddresses.entries.isEmpty then
    { cache with lines := round.lines, functions := round.functions }
  else
    let old := round.requestStarts round.dirtyComponentStarts
    let erased := (old.entries.map (·.1)).foldl OrderedMap.erase cache.components
    let starts := round.requestStarts old
    { lines := round.lines
      functions := round.functions
      components := (starts.entries.map (·.1)).foldl round.rebuild erased }

end KatanaRecomp.Analysis
