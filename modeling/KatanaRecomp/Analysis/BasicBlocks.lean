import KatanaRecomp.Lib.Segments
import KatanaRecomp.Ir.Types
import KatanaRecomp.Sh4.Decoder

/-! # The basic blocks of a list of decoded lines

A line is named by its index. The sets of leaders are lists: which indices are
in them is all that counts, and the blocks follow their order. -/
namespace KatanaRecomp.Analysis
open Lib
open Sh4 (DisassemblyLine ControlFlowKind)

structure BasicBlock where
  id : Nat := 0
  startAddress : BitVec 32 := 0
  endAddress : BitVec 32 := 0
  lines : List DisassemblyLine := []
  successors : List (BitVec 32) := []
  hasIndirectSuccessor : Bool := false

inductive ControlFlowEvidence
  | provenComplete | guardedComplete | guardedPartial | forcedOverride | hintCandidate
  | runtimeOnly | unresolved
  deriving DecidableEq

inductive ResolvedControlFlowKind
  | jump | call
  deriving DecidableEq

structure ResolvedControlFlowEdge where
  instructionAddress : BitVec 32 := 0
  targetAddress : BitVec 32 := 0
  kind : ResolvedControlFlowKind := .jump
  guarded : Bool := false
  evidence : ControlFlowEvidence := .unresolved
  deriving DecidableEq

def controlFlowEvidenceComplete (evidence : ControlFlowEvidence) : Bool :=
  evidence == .provenComplete || evidence == .guardedComplete

def resolvedEdgeEvidence (edge : ResolvedControlFlowEdge) : ControlFlowEvidence :=
  if edge.evidence = .unresolved then
    if edge.guarded then .guardedPartial else .provenComplete
  else edge.evidence

/-! ## Leaders -/

/-- The index that `address_to_index` holds for an address. -/
def addressIndex (lines : List DisassemblyLine) (address : BitVec 32) : Option Nat :=
  lines.findIdx? (·.address == address)

/-- The second line is the delay slot of the first, whatever its own tag says. -/
def pairs (owner slot : DisassemblyLine) : Bool :=
  !owner.isDelaySlot && owner.instruction.hasDelaySlot && slot.address == owner.address + 2

def pairedAt (lines : List DisassemblyLine) (index : Nat) : Bool :=
  match lines[index]?, lines[index + 1]? with
  | some owner, some slot => pairs owner slot
  | _, _ => false

def terminalIndex (lines : List DisassemblyLine) (controlIndex : Nat) : Nat :=
  if pairedAt lines controlIndex then controlIndex + 1 else controlIndex

/-- The lines that do not follow the line before them. -/
def gapLeaders (lines : List DisassemblyLine) : List Nat :=
  (List.range lines.length).filter fun index =>
    index != 0 && match lines[index - 1]?, lines[index]? with
      | some before, some line => line.address != before.address + 2
      | _, _ => false

/-- The lines behind a change of control flow and its delay slot. -/
def controlLeaders (lines : List DisassemblyLine) : List Nat :=
  ((List.range lines.length).filter fun index =>
    (lines[index]?).any (·.instruction.changesControlFlow)).map (terminalIndex lines · + 1)

/-- The addresses that something enters as an ordinary instruction. -/
def normalEntryAddresses (lines : List DisassemblyLine)
    (resolvedEdges : List ResolvedControlFlowEdge)
    (explicitNormalEntryLeaders : List (BitVec 32)) : List (BitVec 32) :=
  lines.filterMap (·.targetAddress) ++ resolvedEdges.map (·.targetAddress) ++
    explicitNormalEntryLeaders

def normalEntryLeaders (lines : List DisassemblyLine) (resolvedEdges : List ResolvedControlFlowEdge)
    (explicitNormalEntryLeaders : List (BitVec 32)) : List Nat :=
  (normalEntryAddresses lines resolvedEdges explicitNormalEntryLeaders).filterMap
    (addressIndex lines)

/-- A boundary in a delay slot counts only where something enters there. -/
def acceptedLeaders (lines : List DisassemblyLine) (normalEntries : List Nat)
    (additionalLeaders : List (BitVec 32)) : List Nat :=
  (additionalLeaders.filterMap (addressIndex lines)).filter fun leader =>
    let followsPhysicalDelayOwner := leader != 0 && pairedAt lines (leader - 1)
    !(lines[leader]?).any (·.isDelaySlot) && !followsPhysicalDelayOwner ||
      normalEntries.contains leader

/-- The members of `leaders` in their order. -/
def orderedLeaders (lines : List DisassemblyLine) (normalEntries : List Nat)
    (additionalLeaders : List (BitVec 32)) : List Nat :=
  let leaders := 0 :: (gapLeaders lines ++ controlLeaders lines ++ normalEntries ++
    acceptedLeaders lines normalEntries additionalLeaders)
  (List.range lines.length).filter leaders.contains

/-! ## Lines of a block -/

/-- Inside a block every delay slot is tagged as one. -/
def restoreSlots : DisassemblyLine → List DisassemblyLine → List DisassemblyLine
  | _, [] => []
  | owner, slot :: rest =>
    let restored := if pairs owner slot then { slot with isDelaySlot := true } else slot
    restored :: restoreSlots restored rest

def restoreBlock : List DisassemblyLine → List DisassemblyLine
  | [] => []
  | first :: rest => first :: restoreSlots first rest

def overlapsNormalDelaySlot (lines : List DisassemblyLine) (normalEntries : List Nat)
    (firstIndex endExclusive : Nat) : Bool :=
  endExclusive < lines.length && firstIndex < endExclusive && normalEntries.contains endExclusive &&
    pairedAt lines (endExclusive - 1)

def beginsNormalDelaySlotEntry (lines : List DisassemblyLine) (normalEntries : List Nat)
    (firstIndex : Nat) : Bool := 0 < firstIndex && normalEntries.contains firstIndex &&
    (lines[firstIndex]?).any (·.isDelaySlot) && pairedAt lines (firstIndex - 1)

def copyEnd (lines : List DisassemblyLine) (normalEntries : List Nat)
    (firstIndex endExclusive : Nat) : Nat :=
  if overlapsNormalDelaySlot lines normalEntries firstIndex endExclusive then endExclusive + 1
  else endExclusive

def tagLast : List DisassemblyLine → List DisassemblyLine
  | [] => []
  | [last] => [{ last with isDelaySlot := true }]
  | line :: next :: rest => line :: tagLast (next :: rest)

def blockLines (lines : List DisassemblyLine) (normalEntries : List Nat)
    (firstIndex endExclusive : Nat) : List DisassemblyLine :=
  let copied := (lines.drop firstIndex).take
    (copyEnd lines normalEntries firstIndex endExclusive - firstIndex)
  let restored := restoreBlock copied
  let closed := if overlapsNormalDelaySlot lines normalEntries firstIndex endExclusive then
    tagLast restored else restored
  if beginsNormalDelaySlotEntry lines normalEntries firstIndex then
    closed.modifyHead fun line => { line with isDelaySlot := false }
  else closed

def cutBlock (lines : List DisassemblyLine) (normalEntries leaders : List Nat) (position : Nat)
    (firstIndex : Nat) : BasicBlock :=
  let endExclusive := segmentEnd lines.length leaders position
  { id := position
    startAddress := (lines[firstIndex]?).elim 0 (·.address)
    endAddress := (lines[copyEnd lines normalEntries firstIndex endExclusive - 1]?).elim 0
      (·.address)
    lines := blockLines lines normalEntries firstIndex endExclusive }

/-! ## Successors -/

def addUniqueSuccessor (successors : List (BitVec 32)) (address : BitVec 32) : List (BitVec 32) :=
  if address ∈ successors then successors else successors ++ [address]

def sortSuccessors (successors : List (BitVec 32)) : List (BitVec 32) :=
  successors.insertionSort fun left right => left ≤ right

/-- The last line, or the line before its delay slot. -/
def findControllingInstruction (lines : List DisassemblyLine) : Nat :=
  let last := lines.length - 1
  match lines[last]?, lines[last - 1]? with
  | some slot, some owner =>
    if slot.isDelaySlot && 0 < last && owner.instruction.hasDelaySlot &&
        slot.address == owner.address + 2 then last - 1
    else last
  | _, _ => last

/-- The controlling instruction has the delay slot it needs. -/
def hasPairedDelaySlot (lines : List DisassemblyLine) : Bool :=
  let control := findControllingInstruction lines
  match lines[control]?, lines[control + 1]? with
  | some owner, some slot =>
    !owner.instruction.hasDelaySlot || slot.isDelaySlot && slot.address == owner.address + 2
  | some owner, none => !owner.instruction.hasDelaySlot
  | none, _ => false

def isIndirect (kind : ControlFlowKind) : Bool := kind == .indirectCall || kind == .indirectBranch

def continuesBehind (kind : ControlFlowKind) : Bool :=
  kind == .conditionalBranch || kind == .call || kind == .indirectCall

def fallthroughAddress (control : DisassemblyLine) : BitVec 32 :=
  control.address + if control.instruction.hasDelaySlot then 4 else 2

/-- The edge behind the block, where a block begins there. -/
def addFallthrough (lines : List DisassemblyLine) (leaders : List Nat) (control : DisassemblyLine)
    (successors : List (BitVec 32)) : List (BitVec 32) :=
  if (addressIndex lines (fallthroughAddress control)).any leaders.contains then
    addUniqueSuccessor successors (fallthroughAddress control)
  else successors

def addTarget (control : DisassemblyLine) (successors : List (BitVec 32)) : List (BitVec 32) :=
  match control.targetAddress with
  | some address =>
    if control.instruction.controlFlow = .call then successors
    else addUniqueSuccessor successors address
  | none => successors

/-- The edges that the controlling instruction itself shows. -/
def addSuccessors (lines : List DisassemblyLine) (leaders : List Nat) (block : BasicBlock) :
    BasicBlock :=
  match block.lines[findControllingInstruction block.lines]? with
  | none => block
  | some control =>
    let kind := control.instruction.controlFlow
    if !hasPairedDelaySlot block.lines then { block with hasIndirectSuccessor := isIndirect kind }
    else if !control.instruction.changesControlFlow then
      { block with successors := addFallthrough lines leaders control block.successors }
    else
      let successors := addTarget control block.successors
      { block with
        successors := sortSuccessors
          (if continuesBehind kind then addFallthrough lines leaders control successors
          else successors)
        hasIndirectSuccessor := block.hasIndirectSuccessor || isIndirect kind }

/-- The block that `block_by_control` holds for an address. -/
def blockByControl (blocks : List BasicBlock) (address : BitVec 32) : Option Nat :=
  blocks.findIdx? fun block =>
    (block.lines[findControllingInstruction block.lines]?).any (·.address == address)

/-- The edge leaves a block that can be left. -/
def acceptsEdge (built : List BasicBlock) (edge : ResolvedControlFlowEdge) : Bool :=
  ((blockByControl built edge.instructionAddress).bind (built[·]?)).any
    fun block => hasPairedDelaySlot block.lines

def addEdge (built : List BasicBlock) (blocks : List BasicBlock) (edge : ResolvedControlFlowEdge) :
    List BasicBlock :=
  match blockByControl built edge.instructionAddress with
  | some index =>
    if acceptsEdge built edge then
      blocks.modify index fun block =>
        { block with
          successors := sortSuccessors
            (if edge.kind = .jump then addUniqueSuccessor block.successors edge.targetAddress
            else block.successors) }
    else blocks
  | none => blocks

/-- Every edge from the address is complete, and there is one. -/
def isCompleteSite (built : List BasicBlock) (resolvedEdges : List ResolvedControlFlowEdge)
    (address : BitVec 32) : Bool :=
  let site := resolvedEdges.filter fun edge =>
    edge.instructionAddress == address && acceptsEdge built edge
  !site.isEmpty && site.all fun edge => controlFlowEvidenceComplete (resolvedEdgeEvidence edge)

def closeSite (built : List BasicBlock) (resolvedEdges : List ResolvedControlFlowEdge)
    (blocks : List BasicBlock) (address : BitVec 32) : List BasicBlock :=
  match blockByControl built address with
  | some index =>
    if isCompleteSite built resolvedEdges address then
      blocks.modify index fun block => { block with hasIndirectSuccessor := false }
    else blocks
  | none => blocks

/-- The blocks before their successors are known. -/
def cutBlocks (lines : List DisassemblyLine) (normalEntries leaders : List Nat) : List BasicBlock :=
  leaders.mapIdx (cutBlock lines normalEntries leaders)

def buildBasicBlocks (lines : List DisassemblyLine) (resolvedEdges : List ResolvedControlFlowEdge)
    (additionalLeaders explicitNormalEntryLeaders : List (BitVec 32)) : List BasicBlock :=
  let normalEntries := normalEntryLeaders lines resolvedEdges explicitNormalEntryLeaders
  let leaders := orderedLeaders lines normalEntries additionalLeaders
  let built := (cutBlocks lines normalEntries leaders).map (addSuccessors lines leaders)
  let joined := resolvedEdges.foldl (addEdge built) built
  (resolvedEdges.map (·.instructionAddress)).foldl (closeSite built resolvedEdges) joined

end KatanaRecomp.Analysis
