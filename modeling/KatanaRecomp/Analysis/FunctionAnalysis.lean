import KatanaRecomp.Lib.Worklist
import KatanaRecomp.Analysis.BasicBlocks

/-! # The functions of a list of blocks

Functions begin at seeds and call targets. An exact range `[entry, end)` takes
its blocks out of every other function, and a call into its middle makes no
function of its own. What a visited block adds to its function does not steer
the traversal, so it is read off the visited blocks afterwards. -/
namespace KatanaRecomp.Analysis
open Lib
open Sh4 (DisassemblyLine)

structure FunctionBoundary where
  entryAddress : BitVec 32 := 0
  size : BitVec 32 := 0
  deriving DecidableEq

structure FunctionInfo where
  id : Nat := 0
  entryAddress : BitVec 32 := 0
  size : BitVec 32 := 0
  blockAddresses : List (BitVec 32) := []
  directCallees : List (BitVec 32) := []
  indirectCallSites : List (BitVec 32) := []
  sharedBlockAddresses : List (BitVec 32) := []
  tailJumpTargets : List (BitVec 32) := []
  deriving DecidableEq

structure ExactFunctionOwnershipRange where
  entry : BitVec 32 := 0
  finish : Nat := 0
  deriving DecidableEq

def ExactFunctionOwnershipRange.Contains (range : ExactFunctionOwnershipRange)
    (address : BitVec 32) : Prop := range.entry ≤ address ∧ address.toNat < range.finish

def canonicalizeAddresses (values : List (BitVec 32)) : List (BitVec 32) :=
  values.dedup.insertionSort fun left right => left ≤ right

def controllingLine (block : BasicBlock) : Option DisassemblyLine :=
  block.lines[findControllingInstruction block.lines]?

/-! ## Exact ranges -/

/-- The end that `exact_ends` holds for an entry. -/
def exactEnd (ranges : List ExactFunctionOwnershipRange) (entry : BitVec 32) : Option Nat :=
  (ranges.find? (·.entry == entry)).map (·.finish)

def acceptBoundary (ranges : List ExactFunctionOwnershipRange) (boundary : FunctionBoundary) :
    Except String (List ExactFunctionOwnershipRange) :=
  let finish := boundary.entryAddress.toNat + boundary.size.toNat
  if boundary.size = 0 then .ok ranges
  else if boundary.size &&& 1 ≠ 0 ∨ 0x100000000 < finish then
    .error "Explizite Funktionsgrenze ist ungueltig."
  else
    match exactEnd ranges boundary.entryAddress with
    | some existing =>
      if existing ≠ finish then .error "Explizite Funktionsgrenzen widersprechen sich."
      else .ok ranges
    | none => .ok (ranges ++ [⟨boundary.entryAddress, finish⟩])

/-- Two neighbours that overlap end together. -/
def neighboursAgree : List ExactFunctionOwnershipRange → Bool
  | first :: next :: rest =>
    (next.finish == first.finish || first.finish ≤ next.entry.toNat) &&
      neighboursAgree (next :: rest)
  | _ => true

def acceptRanges (boundaries : List FunctionBoundary) :
    Except String (List ExactFunctionOwnershipRange) := do
  let ranges ← boundaries.foldlM acceptBoundary []
  let ordered := ranges.insertionSort fun left right => left.entry ≤ right.entry
  if neighboursAgree ordered then return ordered
  else .error "Explizite Funktionsgrenzen ueberlappen sich."

/-- `for_each_exact_function_owner`: the ranges before the upper bound, from the
last one back as long as they reach the address. -/
def exactFunctionOwners (ranges : List ExactFunctionOwnershipRange) (address : BitVec 32) :
    List ExactFunctionOwnershipRange :=
  (ranges.takeWhile fun range => range.entry ≤ address).reverse.takeWhile fun range =>
    address.toNat < range.finish

/-! ## Entries -/

/-- What the traversals read. -/
structure DiscoveryInput where
  blocks : List BasicBlock := []
  boundaries : List FunctionBoundary := []
  resolvedEdges : List ResolvedControlFlowEdge := []
  exactRanges : List ExactFunctionOwnershipRange := []

namespace DiscoveryInput
variable (input : DiscoveryInput)

/-- The block that `block_by_start` holds for an address. -/
def blockByStart (address : BitVec 32) : Option BasicBlock :=
  input.blocks.find? (·.startAddress == address)

def startsBlock (address : BitVec 32) : Bool := (input.blockByStart address).isSome

def isExact (address : BitVec 32) : Bool := (exactEnd input.exactRanges address).isSome

def hasExactOwner (address : BitVec 32) : Bool :=
  !(exactFunctionOwners input.exactRanges address).isEmpty

/-- The target of a direct call at the end of a block. -/
def callTarget (control : DisassemblyLine) : Option (BitVec 32) :=
  if control.instruction.controlFlow = .call then control.targetAddress else none

/-- The seeds and the targets of direct calls. -/
def entryCandidates : List (BitVec 32) := input.boundaries.map (·.entryAddress) ++
    (input.blocks.filterMap controllingLine).filterMap callTarget

def callEdges : List ResolvedControlFlowEdge := input.resolvedEdges.filter (·.kind = .call)

def isComplete (edge : ResolvedControlFlowEdge) : Bool :=
  controlFlowEvidenceComplete (resolvedEdgeEvidence edge)

/-- The entries that are functions: nothing inside an exact range but its entry. -/
def knownEntries : List (BitVec 32) := canonicalizeAddresses
    ((input.entryCandidates ++ (input.callEdges.filter isComplete).map (·.targetAddress)).filter
      fun address => input.startsBlock address &&
        (input.isExact address || !input.hasExactOwner address))

/-- The members of `interior_entries_by_owner` for an owner. -/
def interiorEntries (owner : BitVec 32) : List (BitVec 32) := canonicalizeAddresses
    ((input.entryCandidates ++ input.callEdges.map (·.targetAddress)).filter fun address =>
      input.startsBlock address && !input.isExact address &&
        (exactFunctionOwners input.exactRanges address).any (·.entry == owner))

/-! ## One function -/

/-- The address is in the exact range of the entry. -/
def inCurrentExact (entry address : BitVec 32) : Bool :=
  (exactEnd input.exactRanges entry).any fun finish => entry ≤ address && address.toNat < finish

def isSharedExactEntry (entry candidate : BitVec 32) : Bool :=
  candidate != entry && input.isExact candidate &&
    exactEnd input.exactRanges candidate == exactEnd input.exactRanges entry &&
      input.inCurrentExact entry candidate

/-- Another function begins here. -/
def isOtherEntry (entry address : BitVec 32) : Bool :=
  address != entry && input.knownEntries.contains address && !input.isSharedExactEntry entry address

/-- An exact range is left, or another one entered. -/
def crossesExact (entry address : BitVec 32) : Bool :=
  (input.isExact entry || input.hasExactOwner address) && !input.inCurrentExact entry address

/-- The block, where the function may own it. -/
def ownedBlock (entry address : BitVec 32) : Option BasicBlock :=
  if input.isOtherEntry entry address then none
  else if input.hasExactOwner address && !input.inCurrentExact entry address then none
  else if input.isExact entry && !input.inCurrentExact entry address then none
  else input.blockByStart address

def isLocalTarget (entry target : BitVec 32) : Bool :=
  target == entry || (input.inCurrentExact entry target && !input.isExact target)

def edgesAt (address : BitVec 32) : List ResolvedControlFlowEdge :=
  input.callEdges.filter (·.instructionAddress == address)

/-- The successors that stay in the function. -/
def followedSuccessors (entry : BitVec 32) (block : BasicBlock) (control : DisassemblyLine) :
    List (BitVec 32) := block.successors.filter fun successor =>
    !input.crossesExact entry successor && callTarget control != some successor &&
      !input.isOtherEntry entry successor

def nextBlocks (entry : BitVec 32) (block : BasicBlock) : List (BitVec 32) :=
  (controllingLine block).elim [] fun control =>
    ((callTarget control).toList.filter fun target =>
        input.isLocalTarget entry target && input.startsBlock target) ++
      (((input.edgesAt control.address).filter fun edge =>
        input.isLocalTarget entry edge.targetAddress && isComplete edge &&
          input.startsBlock edge.targetAddress).map (·.targetAddress)) ++
      input.followedSuccessors entry block control

/-- What a block can add to the worklist. -/
def blockCost (address : BitVec 32) : Nat := (input.blockByStart address).elim 0 fun block =>
    1 + input.resolvedEdges.length + block.successors.length

def blockStarts : List (BitVec 32) := input.blocks.map (·.startAddress)

def exploreBlocks (entry : BitVec 32) (fuel : Nat) : Option (List (BitVec 32)) :=
  explore (fun _ address => (input.ownedBlock entry address).map (input.nextBlocks entry))
    (· ++ ·) fuel (entry :: input.interiorEntries entry) []

def blockFuel (entry : BitVec 32) : Nat :=
  (entry :: input.interiorEntries entry).length + (input.blockStarts.map input.blockCost).sum + 1

/-- The addresses of the visited blocks, in order. -/
def visitedBlocks (entry : BitVec 32) : List (BitVec 32) :=
  ((input.exploreBlocks entry (input.blockFuel entry)).getD []).reverse

/-- The functions that a call to an address from outside it calls. -/
def calleesOf (target : BitVec 32) : List (BitVec 32) :=
  if input.isExact target || !input.hasExactOwner target then [target]
  else (exactFunctionOwners input.exactRanges target).map (·.entry)

def controls (entry : BitVec 32) : List (BasicBlock × DisassemblyLine) :=
  (input.visitedBlocks entry).filterMap fun address => do
    let block ← input.blockByStart address
    let control ← controllingLine block
    return (block, control)

def outerCalls (entry : BitVec 32) (control : DisassemblyLine) : List (BitVec 32) :=
  (callTarget control).toList.filter fun target => !input.isLocalTarget entry target

def outerCallEdges (entry : BitVec 32) (control : DisassemblyLine) : List ResolvedControlFlowEdge :=
  (input.edgesAt control.address).filter fun edge => !input.isLocalTarget entry edge.targetAddress

def isTailJump (control : DisassemblyLine) : Bool :=
  control.instruction.controlFlow == .unconditionalBranch ||
    control.instruction.controlFlow == .indirectBranch

def tailJumps (entry : BitVec 32) (block : BasicBlock) (control : DisassemblyLine) :
    List (BitVec 32) :=
  if isTailJump control then
    block.successors.filter fun successor =>
      input.crossesExact entry successor ||
        callTarget control != some successor && input.isOtherEntry entry successor
  else []

def functionAt (entry : BitVec 32) : FunctionInfo :=
  let controls := input.controls entry
  { entryAddress := entry
    size := (exactEnd input.exactRanges entry).elim 0 fun finish =>
      BitVec.ofNat 32 (finish - entry.toNat)
    blockAddresses := canonicalizeAddresses (input.visitedBlocks entry)
    directCallees := canonicalizeAddresses (controls.flatMap fun (_, control) =>
      (input.outerCalls entry control).flatMap input.calleesOf ++
        (input.outerCallEdges entry control).flatMap fun edge =>
          input.calleesOf edge.targetAddress)
    indirectCallSites := canonicalizeAddresses (controls.flatMap fun (_, control) =>
      (if control.instruction.controlFlow = .indirectCall then [control.address] else []) ++
        (input.edgesAt control.address).map fun _ => control.address)
    tailJumpTargets := canonicalizeAddresses (controls.flatMap fun (block, control) =>
      input.tailJumps entry block control) }

/-! ## All functions -/

/-- The entries that the calls of a function add to the worklist. -/
def pendingCallees (entry : BitVec 32) : List (BitVec 32) :=
  ((input.controls entry).flatMap fun (_, control) =>
    (input.outerCalls entry control).flatMap input.calleesOf ++
      ((input.outerCallEdges entry control).filter isComplete).flatMap fun edge =>
        input.calleesOf edge.targetAddress).filter input.startsBlock

def exploreEntries (fuel : Nat) : Option (List (BitVec 32)) := explore (fun processed entry =>
      if input.startsBlock entry then
        some ((input.pendingCallees entry).filter (· ∉ processed))
      else none)
    (· ++ ·) fuel input.knownEntries []

def entryFuel : Nat := input.knownEntries.length +
    (input.blockStarts.map fun entry => (input.pendingCallees entry).length).sum + 1

def orderedFunctions : List FunctionInfo :=
  ((((input.exploreEntries input.entryFuel).getD []).reverse.map input.functionAt).insertionSort
    fun left right => left.entryAddress ≤ right.entryAddress).mapIdx fun index function =>
      { function with id := index }

/-! ## Shared ends -/

/-- A range joins the group of the next one when it overlaps it and ends with it. -/
def joinGroup (range : ExactFunctionOwnershipRange) :
    List (List ExactFunctionOwnershipRange) → List (List ExactFunctionOwnershipRange)
  | (next :: group) :: groups =>
    if next.entry.toNat < range.finish ∧ next.finish = range.finish then
      (range :: next :: group) :: groups
    else [range] :: (next :: group) :: groups
  | groups => [range] :: groups

def rangeGroups (ranges : List ExactFunctionOwnershipRange) :
    List (List ExactFunctionOwnershipRange) := ranges.foldr joinGroup []

def functionForEntry (functions : List FunctionInfo) (entry : BitVec 32) : Option FunctionInfo :=
  functions.find? (·.entryAddress == entry)

/-- The first function with the fewest blocks. -/
def smallestFunction (functions : List FunctionInfo) : Option FunctionInfo :=
  functions.foldl (fun smallest function =>
    match smallest with
    | some best =>
      if function.blockAddresses.length < best.blockAddresses.length then some function
      else some best
    | none => some function) none

/-- Functions whose ranges share their end share the block that reaches it. -/
def checkGroup (functions : List FunctionInfo) (group : List ExactFunctionOwnershipRange) :
    Except String Unit :=
  if group.length ≤ 1 then .ok ()
  else
    match group.mapM fun range => functionForEntry functions range.entry with
    | none => .error "Explizite Funktionsgrenzen ueberlappen sich."
    | some members =>
      let finalHalfword := BitVec.ofNat 32 ((group.head?.elim 0 (·.finish)) - 2)
      let hasProvenSharedTail := (smallestFunction members).any fun smallest =>
        smallest.blockAddresses.any fun address =>
          ((input.blockByStart address).any fun block =>
            !block.lines.isEmpty && block.endAddress == finalHalfword) &&
          members.all fun member => member.blockAddresses.contains address
      if hasProvenSharedTail then .ok ()
      else .error "Explizite Funktionsgrenzen ueberlappen sich."

end DiscoveryInput

def addSharedBlocks (functions : List FunctionInfo) : List FunctionInfo :=
  let owned := functions.flatMap (·.blockAddresses)
  functions.map fun function =>
    { function with
      sharedBlockAddresses := function.blockAddresses.filter fun address =>
        1 < owned.count address }

def discoverFunctionsFromBlocks (blocks : List BasicBlock) (boundaries : List FunctionBoundary)
    (resolvedEdges : List ResolvedControlFlowEdge) : Except String (List FunctionInfo) :=
  if blocks.isEmpty then .ok []
  else do
    let exactRanges ← acceptRanges boundaries
    let input : DiscoveryInput := { blocks, boundaries, resolvedEdges, exactRanges }
    let functions := input.orderedFunctions
    (DiscoveryInput.rangeGroups exactRanges).forM (input.checkGroup functions)
    return addSharedBlocks functions

end KatanaRecomp.Analysis
