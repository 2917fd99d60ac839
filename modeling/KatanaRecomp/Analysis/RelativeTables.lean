import KatanaRecomp.Analysis.EntryPredecessors
import KatanaRecomp.Analysis.FunctionEdges

/-! # Relative jump tables and their producers

A dispatch by `BRAF` or `BSRF` is followed back through its window of contiguous
lines to the table load, and from there to a bound of the index. The producer
names the seed of that bound, the load, and the branches between them; the cache
asks the predecessor index whether anything else leads there.

The image is read for the table and for the target of a fallback only. The
propagation of the index values runs until nothing is pending; here it is given
a number of rounds, and no result stands for a run that needs more. -/
namespace KatanaRecomp.Analysis
open Lib
open Sh4 (DisassemblyLine DecodedInstruction InstructionKind)
open scoped Lib.BitVecOrder

def maximumJumpTableEntries : Nat := 4096

def maximumRecognitionLookback : Nat := 48

/-- What the recognition asks the image. -/
structure TableImage where
  resolveSegmentAddress : BitVec 32 → Nat → Option (BitVec 32)
  /-- The value of a literal that a line loads, as the snapshot has it. -/
  snapshotPcRelativeLongValue : DisassemblyLine → Option (BitVec 32)

def contiguous (left right : DisassemblyLine) : Bool :=
  left.address ≤ 0xFFFFFFFD && left.address + 2 == right.address

def createsArchitecturalResumeEntry (line : DisassemblyLine) : Bool := !line.isDelaySlot &&
    ((line.instruction.kind == .loadSpecialRegister ||
        line.instruction.kind == .loadSpecialRegisterPostIncrement) &&
      (line.instruction.specialRegister == .sr || line.instruction.specialRegister == .fpscr) ||
    line.instruction.kind == .loadTlb || line.instruction.kind == .frchg ||
    line.instruction.kind == .fschg)

def outsideDispatchPath (target pathBegin dispatchAddress : BitVec 32) : Bool :=
  target < pathBegin || dispatchAddress < target

def registerBit (index : Fin 16) : BitVec 16 := 1#16 <<< index.val

/-- `general_register_writes`. -/
def generalRegisterWriteMask (instruction : DecodedInstruction) : BitVec 16 :=
  match instruction.kind with
  | .movImmediate | .addImmediate | .movRegister | .addRegister | .subRegister | .negateRegister
  | .notRegister | .addWithCarry | .addWithOverflow | .subWithCarry | .subWithOverflow
  | .negateWithCarry | .extendUnsignedByte | .extendUnsignedWord | .extendSignedByte
  | .extendSignedWord | .swapBytes | .swapWords | .extractMiddle | .decrementAndTest | .divideStep
  | .moveT | .shiftLogicalLeftOne | .shiftLogicalRightOne | .shiftArithmeticLeftOne
  | .shiftArithmeticRightOne | .shiftLogicalLeftTwo | .shiftLogicalLeftEight
  | .shiftLogicalLeftSixteen | .shiftLogicalRightTwo | .shiftLogicalRightEight
  | .shiftLogicalRightSixteen | .rotateLeft | .rotateRight | .rotateLeftThroughT
  | .rotateRightThroughT | .shiftArithmeticDynamic | .shiftLogicalDynamic | .andRegister
  | .orRegister | .xorRegister | .movByteLoad | .movWordLoad | .movLongLoad
  | .movByteLoadDisplacement | .movWordLoadDisplacement | .movLongLoadDisplacement
  | .movByteLoadR0Indexed | .movWordLoadR0Indexed | .movLongLoadR0Indexed
  | .movByteLoadGbrDisplacement | .movWordLoadGbrDisplacement | .movLongLoadGbrDisplacement
  | .movWordLoadPcRelative | .movLongLoadPcRelative | .storeSpecialRegister =>
    registerBit instruction.destinationRegister
  | .andImmediate | .orImmediate | .xorImmediate | .moveAddressPcRelative => registerBit 0
  | .movByteStorePreDecrement | .movWordStorePreDecrement | .movLongStorePreDecrement
  | .storeSpecialRegisterPreDecrement | .fmovStorePreDecrement =>
    registerBit instruction.destinationRegister
  | .movByteLoadPostIncrement | .movWordLoadPostIncrement | .movLongLoadPostIncrement =>
    registerBit instruction.destinationRegister ||| registerBit instruction.sourceRegister
  | .loadSpecialRegisterPostIncrement =>
    if instruction.specialRegister = .sr then 0x00FF ||| registerBit instruction.sourceRegister
    else registerBit instruction.sourceRegister
  | .loadSpecialRegister => if instruction.specialRegister = .sr then 0x00FF else 0
  | .fmovLoadPostIncrement => registerBit instruction.sourceRegister
  | .multiplyAccumulateWord | .multiplyAccumulateLong =>
    registerBit instruction.destinationRegister ||| registerBit instruction.sourceRegister
  | .unknown => 0xFFFF
  | _ => 0

def writesRegister (instruction : DecodedInstruction) (register : Fin 16) : Bool :=
  generalRegisterWriteMask instruction &&& registerBit register != 0

/-! ## The last writer of a register -/

section
variable (lines : List DisassemblyLine) (dispatchIndex : Nat)

/-- The search from the line before `following`, within the budget. -/
def searchWriter (register : Fin 16) : Nat → Nat → Option Nat
  | budget + 1, index + 1 =>
    if 48 < dispatchIndex - index then none
    else
      match lines[index]?, lines[index + 1]? with
      | some candidate, some following =>
        if !contiguous candidate following then none
        else if candidate.isDelaySlot || candidate.instruction.changesControlFlow then none
        else if writesRegister candidate.instruction register then some index
        else searchWriter register budget index
      | _, _ => none
  | _, _ => none

def previousStraightLineWriter (before : Nat) (register : Fin 16) : Option Nat :=
  if lines.length ≤ before || lines.length ≤ dispatchIndex then none
  else searchWriter lines dispatchIndex register 48 before

/-! ## A compared bound -/

structure BoundedRelativeIndexProof where
  entryCount : Nat := 0
  firstInstructionIndex : Nat := 0
  requiresGlobalIngressProof : Bool := false
  ingressSeedAddress : BitVec 32 := 0
  ingressLoadAddress : BitVec 32 := 0
  internalBranchEdges : List GlobalEntryEdge := []

def pairContiguous (index : Nat) : Bool :=
  match lines[index]?, lines[index + 1]? with
  | some left, some right => contiguous left right
  | _, _ => false

def changesControlFlowAt (index : Nat) : Bool :=
  (lines[index]?).any (·.instruction.changesControlFlow)

variable (image : TableImage)

def resolvedOutsideDispatchPath (target pathBegin dispatchAddress : BitVec 32) : Bool :=
  match image.resolveSegmentAddress target 2, image.resolveSegmentAddress pathBegin 2,
    image.resolveSegmentAddress dispatchAddress 2 with
  | some target, some pathBegin, some dispatch => outsideDispatchPath target pathBegin dispatch
  | _, _, _ => false

/-- Where the branch at the end of a fallback goes. -/
def fallbackTarget (fallbackBegin terminalIndex : Nat) : Option (BitVec 32) :=
  (lines[terminalIndex]?).bind fun terminal =>
    if terminal.instruction.kind = .bra then terminal.targetAddress
    else if terminal.instruction.kind = .jmp ∧ terminalIndex ≠ fallbackBegin then
      (lines[terminalIndex - 1]?).bind fun targetLoad =>
        if contiguous targetLoad terminal &&
            targetLoad.instruction.destinationRegister == terminal.instruction.branchRegister then
          image.snapshotPcRelativeLongValue targetLoad
        else none
    else none

def boundedFallbackExitsDispatchPath (fallbackBegin scaleIndex : Nat) : Bool :=
  if scaleIndex ≤ fallbackBegin || scaleIndex < 2 || dispatchIndex ≤ scaleIndex ||
      lines.length ≤ dispatchIndex then false
  else if (List.range' fallbackBegin (scaleIndex - fallbackBegin)).any
      fun index => !pairContiguous lines index then false
  else if scaleIndex - 2 < fallbackBegin || changesControlFlowAt lines (scaleIndex - 1) then false
  else if (List.range' fallbackBegin (scaleIndex - 2 - fallbackBegin)).any
      (changesControlFlowAt lines) then false
  else
    match fallbackTarget lines image fallbackBegin (scaleIndex - 2), lines[scaleIndex]?,
      lines[dispatchIndex]? with
    | some target, some scale, some dispatch =>
      resolvedOutsideDispatchPath image target scale.address dispatch.address
    | _, _, _ => false

/-- The branch behind the comparison keeps an index out of bounds from the scale. -/
def guardedComparison (scaleIndex compareIndex : Nat) (compare branch scale dispatch : DisassemblyLine)
    (target : BitVec 32) : Bool := contiguous compare branch &&
    if branch.instruction.kind = .bt && compareIndex + 2 == scaleIndex && contiguous branch scale &&
        outsideDispatchPath target scale.address dispatch.address then true
    else if branch.instruction.kind = .bf && target == scale.address &&
        compareIndex + 2 < scaleIndex then
      (lines[compareIndex + 2]?).any (contiguous branch) &&
        boundedFallbackExitsDispatchPath lines dispatchIndex image (compareIndex + 2) scaleIndex
    else false

/-- One round of the search for the comparison: nothing goes on to the next line. -/
def comparisonProof (scaleIndex loadIndex : Nat) (indexRegister : Fin 16) (compareIndex : Nat) :
    Option (Option BoundedRelativeIndexProof) :=
  match lines[compareIndex]?, lines[compareIndex + 1]?, lines[scaleIndex]?, lines[loadIndex]?,
    lines[dispatchIndex]? with
  | some compare, some branch, some scale, some load, some dispatch =>
    if compare.instruction.kind != .compareHigherOrSame ||
        compare.instruction.destinationRegister != indexRegister then none
    else
      branch.targetAddress.bind fun target =>
        if !guardedComparison lines dispatchIndex image scaleIndex compareIndex compare branch scale
            dispatch target then none
        else if compareIndex = 0 then some none
        else some <| (lines[compareIndex - 1]?).bind fun bound =>
          if !contiguous bound compare || bound.instruction.kind != .movImmediate ||
              bound.instruction.destinationRegister != compare.instruction.sourceRegister ||
              bound.instruction.immediate.toInt ≤ 0 ||
              maximumJumpTableEntries < bound.instruction.immediate.toNat then none
          else some
            { entryCount := bound.instruction.immediate.toNat
              firstInstructionIndex := compareIndex - 1
              requiresGlobalIngressProof := true
              ingressSeedAddress := bound.address
              ingressLoadAddress := load.address
              internalBranchEdges :=
                if branch.instruction.kind = .bf then [⟨branch.address, scale.address⟩] else [] }
  | _, _, _, _, _ => none

def boundedEntryCount (scaleIndex loadIndex : Nat) (indexRegister : Fin 16) :
    Option BoundedRelativeIndexProof :=
  if scaleIndex < 2 || loadIndex < scaleIndex || dispatchIndex ≤ loadIndex ||
      lines.length ≤ dispatchIndex then none
  else
    (((List.range' 2 15).filter (· ≤ scaleIndex)).findSome? fun distance =>
      comparisonProof lines dispatchIndex image scaleIndex loadIndex indexRegister
        (scaleIndex - distance)).join

end

/-! ## A finite set of index values -/

/-- What an instruction makes of a known value of the index. -/
def applyIndexWrite (indexRegister : Fin 16) (instruction : DecodedInstruction)
    (incoming : BitVec 32) : Option (BitVec 32) :=
  let shifted := fun shift : Nat =>
    if 2 ^ 32 ≤ incoming.toNat * 2 ^ shift then none else some (incoming <<< shift)
  if !writesRegister instruction indexRegister then some incoming
  else if instruction.destinationRegister ≠ indexRegister then none
  else
    match instruction.kind with
    | .movImmediate =>
      if instruction.immediate.toInt < 0 then none else some instruction.immediate
    | .addImmediate =>
      let value := (incoming.toNat : Int) + instruction.immediate.toInt
      if value < 0 ∨ 2 ^ 32 ≤ value then none else some (BitVec.ofInt 32 value)
    | .shiftLogicalLeftOne => shifted 1
    | .shiftLogicalLeftTwo => shifted 2
    | .shiftLogicalLeftEight => shifted 8
    | .shiftLogicalLeftSixteen => shifted 16
    | .movRegister => if instruction.sourceRegister = indexRegister then some incoming else none
    | _ => none

/-- The state of the propagation. -/
structure ValueSearch where
  states : Nat → List (BitVec 32) := fun _ => []
  pending : List (Nat × BitVec 32) := []
  terminalValues : List (BitVec 32) := []
  internalBranchEdges : List GlobalEntryEdge := []

namespace ValueSearch

def enqueue (loadIndex index : Nat) (value : BitVec 32) (search : ValueSearch) :
    Option ValueSearch :=
  if loadIndex < index then none
  else if value ∈ search.states index then some search
  else if 64 ≤ (search.states index).length then none
  else some
    { search with
      states := Function.update search.states index (search.states index ++ [value])
      pending := search.pending ++ [(index, value)] }

def addTerminal (value : BitVec 32) (search : ValueSearch) : ValueSearch :=
  if value ∈ search.terminalValues then search
  else { search with terminalValues := search.terminalValues ++ [value] }

def addEdge (edge : GlobalEntryEdge) (search : ValueSearch) : ValueSearch :=
  if edge ∈ search.internalBranchEdges then search
  else { search with internalBranchEdges := search.internalBranchEdges ++ [edge] }

section
variable (lines : List DisassemblyLine) (seedIndex loadIndex : Nat) (seed load : DisassemblyLine)
  (indexRegister : Fin 16)

/-- A branch to a later line between the seed and the load is followed both ways. -/
def visitBranch (index : Nat) (line : DisassemblyLine) (value : BitVec 32) (search : ValueSearch) :
    Option ValueSearch := line.targetAddress.bind fun target =>
    let targetIndex := seedIndex + (target - seed.address).toNat / 2
    if target ≤ line.address || target < seed.address || load.address < target ||
        (target - seed.address) &&& 1 != 0 then none
    else if targetIndex ≤ index || loadIndex < targetIndex ||
        (lines[targetIndex]?).all (·.address != target) then none
    else
      (search.enqueue loadIndex targetIndex value).bind fun search =>
        (search.enqueue loadIndex (index + 1) value).map (·.addEdge ⟨line.address, target⟩)

/-- One round: nothing when the seed is rejected. -/
def visit (index : Nat) (incoming : BitVec 32) (search : ValueSearch) : Option ValueSearch :=
  if index = loadIndex then some (search.addTerminal incoming)
  else
    (lines[index]?).bind fun line =>
      if line.isDelaySlot || createsArchitecturalResumeEntry line then none
      else
        (applyIndexWrite indexRegister line.instruction incoming).bind fun value =>
          if line.instruction.kind = .bt ∨ line.instruction.kind = .bf then
            search.visitBranch lines seedIndex loadIndex seed load index line value
          else if line.instruction.changesControlFlow then none
          else search.enqueue loadIndex (index + 1) value

def propagate : Nat → ValueSearch → Option ValueSearch
  | rounds, search =>
    match search.pending with
    | [] => some search
    | (index, incoming) :: pending =>
      match rounds with
      | 0 => none
      | rounds + 1 =>
        (visit lines seedIndex loadIndex seed load indexRegister index incoming
          { search with pending := pending }).bind (propagate rounds)

end
end ValueSearch

section
variable (rounds : Nat) (lines : List DisassemblyLine) (dispatchIndex : Nat)

/-- A visible branch enters behind the seed. -/
def interiorIngress (seedIndex : Nat) (seed load : DisassemblyLine) : Bool :=
  (lines.take seedIndex).any fun line =>
    line.targetAddress.any fun target => seed.address < target && target ≤ load.address

/-- The proof from one seed: nothing goes on to the next line. -/
def finiteValuesFrom (loadIndex : Nat) (indexRegister : Fin 16) (entryWidth seedIndex : Nat) :
    Option BoundedRelativeIndexProof :=
  match lines[seedIndex]?, lines[loadIndex]? with
  | some seed, some load =>
    if seed.isDelaySlot || seed.instruction.kind != .movImmediate ||
        seed.instruction.destinationRegister != indexRegister ||
        seed.instruction.immediate.toInt < 0 then none
    else if (List.range' seedIndex (loadIndex - seedIndex)).any
        fun index => !pairContiguous lines index then none
    else if interiorIngress lines seedIndex seed load then none
    else
      (({} : ValueSearch).enqueue loadIndex (seedIndex + 1) seed.instruction.immediate).bind fun start =>
        (ValueSearch.propagate lines seedIndex loadIndex seed load indexRegister rounds start).bind
          fun search =>
            let maximumIndex := search.terminalValues.foldl (fun m value => max m value.toNat) 0
            let count := maximumIndex / entryWidth + 1
            if search.terminalValues.isEmpty || 64 < search.terminalValues.length ||
                (search.terminalValues.any fun value => value.toNat % entryWidth != 0) ||
                maximumJumpTableEntries < count then none
            else some
              { entryCount := count
                firstInstructionIndex := seedIndex
                requiresGlobalIngressProof := true
                ingressSeedAddress := seed.address
                ingressLoadAddress := load.address
                internalBranchEdges := search.internalBranchEdges }
  | _, _ => none

def boundedFiniteIndexValues (loadIndex : Nat) (indexRegister : Fin 16) (entryWidth : Nat) :
    Option BoundedRelativeIndexProof :=
  if loadIndex = 0 || lines.length ≤ loadIndex || dispatchIndex ≤ loadIndex ||
      lines.length ≤ dispatchIndex || (entryWidth != 2 && entryWidth != 4) then none
  else
    (List.range' (loadIndex - 48) (loadIndex - (loadIndex - 48))).findSome?
      (finiteValuesFrom rounds lines loadIndex indexRegister entryWidth)

variable (image : TableImage)

/-- The line that scales the index, directly or before it is copied. -/
def scaleLine (loadIndex : Nat) (indexRegister : Fin 16) : Option (Nat × Fin 16) :=
  (previousStraightLineWriter lines dispatchIndex loadIndex indexRegister).bind fun writer =>
    (lines[writer]?).bind fun direct =>
      if direct.instruction.destinationRegister ≠ indexRegister then none
      else if direct.instruction.kind = .shiftLogicalLeftOne then some (writer, indexRegister)
      else if direct.instruction.kind = .movRegister then
        (previousStraightLineWriter lines dispatchIndex writer
            direct.instruction.sourceRegister).bind fun copied =>
          (lines[copied]?).bind fun scale =>
            if scale.instruction.kind = .shiftLogicalLeftOne &&
                scale.instruction.destinationRegister == direct.instruction.sourceRegister then
              some (copied, scale.instruction.destinationRegister)
            else none
      else none

def recognizeRelativeIndexProof (loadIndex : Nat) (indexRegister : Fin 16) (entryWidth : Nat) :
    Option BoundedRelativeIndexProof :=
  ((scaleLine lines dispatchIndex loadIndex indexRegister).bind fun scale =>
      boundedEntryCount lines dispatchIndex image scale.1 loadIndex scale.2).or
    (boundedFiniteIndexValues rounds lines dispatchIndex loadIndex indexRegister entryWidth)

/-! ## The producer of a table -/

structure RelativeJumpTableProducerEvidence where
  dispatchAddress : BitVec 32 := 0
  tableAddress : BitVec 32 := 0
  dispatchKind : JumpTableDispatchKind := .jump
  boundedEntryCount : Nat := 0
  instructionAddresses : List (BitVec 32) := []
  requiresGlobalIngressProof : Bool := false
  globalIngressProven : Bool := true
  ingressSeedAddress : BitVec 32 := 0
  ingressLoadAddress : BitVec 32 := 0
  internalBranchEdges : List GlobalEntryEdge := []
  deriving DecidableEq

/-- The producer half of `recognize_relative_jump_table`. -/
def recognizeRelativeJumpTable : Option RelativeJumpTableProducerEvidence :=
  if dispatchIndex < 3 then none
  else
    (lines[dispatchIndex]?).bind fun dispatch =>
    if (dispatch.instruction.kind != .braf && dispatch.instruction.kind != .bsrf) ||
        dispatch.isDelaySlot then none
    else
      (previousStraightLineWriter lines dispatchIndex dispatchIndex
          dispatch.instruction.branchRegister).bind fun loadIndex =>
      (lines[loadIndex]?).bind fun load =>
      if load.instruction.kind != .movWordLoadR0Indexed ||
          load.instruction.destinationRegister != dispatch.instruction.branchRegister ||
          load.instruction.sourceRegister == 0 then none
      else
        (previousStraightLineWriter lines dispatchIndex loadIndex 0).bind fun tableBaseIndex =>
        (lines[tableBaseIndex]?).bind fun tableBase =>
        if tableBase.instruction.kind != .moveAddressPcRelative then none
        else
          (recognizeRelativeIndexProof rounds lines dispatchIndex image loadIndex
              load.instruction.sourceRegister 2).bind fun proof =>
          let tableAddress := (tableBase.address.toNat + 4) / 4 * 4 +
            tableBase.instruction.displacement.toNat
          if 2 ^ 32 ≤ tableAddress then none
          else
            (image.resolveSegmentAddress (BitVec.ofNat 32 tableAddress) (proof.entryCount * 2)).map
              fun resolvedTable =>
                let first := min proof.firstInstructionIndex tableBaseIndex
                { dispatchAddress := dispatch.address
                  tableAddress := resolvedTable
                  dispatchKind := if dispatch.instruction.kind = .bsrf then .call else .jump
                  boundedEntryCount := proof.entryCount
                  instructionAddresses :=
                    ((lines.take (dispatchIndex + 1)).drop first).map (·.address)
                  requiresGlobalIngressProof := proof.requiresGlobalIngressProof
                  globalIngressProven := !proof.requiresGlobalIngressProof
                  ingressSeedAddress := proof.ingressSeedAddress
                  ingressLoadAddress := proof.ingressLoadAddress
                  internalBranchEdges := proof.internalBranchEdges }

end

/-! ## The recognition of the cache -/

/-- The lines before a dispatch, from the nearest, as long as they are contiguous. -/
def lookBack : Nat → DisassemblyLine → List DisassemblyLine → List DisassemblyLine
  | distance + 1, first, previous :: before =>
    if contiguous previous first then previous :: lookBack distance previous before else []
  | _, _, _ => []

def recognitionWindow (lines : OrderedMap (BitVec 32) DisassemblyLine) (dispatch : DisassemblyLine)
    (address : BitVec 32) : List DisassemblyLine :=
  let before := ((lines.entries.takeWhile fun entry => entry.1 < address).map (·.2)).reverse
  let delay := ((lines.upperBound address).head?.map (·.2)).filter (contiguous dispatch)
  (lookBack maximumRecognitionLookback dispatch before).reverse ++ dispatch :: delay.toList

/-- The producer that `apply` keeps for a dispatch. -/
def recognizeDispatch (rounds : Nat) (image : TableImage)
    (globalEntryPredecessors dynamicPredecessors : GlobalEntryPredecessorIndex)
    (lines : OrderedMap (BitVec 32) DisassemblyLine) (address : BitVec 32) :
    Option RelativeJumpTableProducerEvidence := (lines.find address).bind fun dispatch =>
    let before := ((lines.entries.takeWhile fun entry => entry.1 < address).map (·.2)).reverse
    let dispatchIndex := (lookBack maximumRecognitionLookback dispatch before).length
    (recognizeRelativeJumpTable rounds (recognitionWindow lines dispatch address) dispatchIndex
      image).map fun producer =>
        if producer.requiresGlobalIngressProof then
          { producer with
            globalIngressProven := globalEntryPredecessors.closes producer.ingressSeedAddress
              producer.ingressLoadAddress producer.internalBranchEdges (some dynamicPredecessors) }
        else producer

end KatanaRecomp.Analysis
