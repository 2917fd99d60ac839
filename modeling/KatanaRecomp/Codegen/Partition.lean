import KatanaRecomp.Ir.Program
import KatanaRecomp.Lib.Packing

/-! # Partitions of translation units

`partition_translation_units` cuts the functions, in the order of their entries,
into the partitions that are compiled together. -/
namespace KatanaRecomp.Codegen
open Ir Lib ByteFormat

def stablePartitionAddressSpan : Nat := 0x00040000

def stablePartitionAddressKey (address : BitVec 32) : Nat :=
  address.toNat / stablePartitionAddressSpan

structure PartitionOptions where
  maximumFunctions : Nat := 128
  maximumInstructions : Nat := 2048

structure TranslationUnitPartition where
  index : Nat := 0
  firstEntryAddress : BitVec 32 := 0
  lastEntryAddress : BitVec 32 := 0
  instructionCount : Nat := 0
  functionIndices : List Nat := []
  contentSha256 : List Byte := []

def instructionCount (function : Function) : Nat :=
  (function.blocks.map fun block => block.instructions.length).sum

/-- The indices in the order of the entries, each with its function. -/
def entryOrder (functions : List Function) : List (Function × Nat) :=
  functions.zipIdx.insertionSort fun left right => left.1.entryAddress ≤ right.1.entryAddress

/-- The newest partition has no room for the function. -/
def needsPartition (options : PartitionOptions) (back : TranslationUnitPartition)
    (function : Function) : Bool :=
  let count := instructionCount function
  stablePartitionAddressKey back.lastEntryAddress !=
      stablePartitionAddressKey function.entryAddress ||
    decide (back.functionIndices.length ≥ options.maximumFunctions) ||
    (back.instructionCount != 0 && (decide (back.instructionCount ≥ options.maximumInstructions) ||
        decide (count > options.maximumInstructions - back.instructionCount)))

/-- The function at the end of a partition. -/
def extendPartition (partition : TranslationUnitPartition) (item : Function × Nat) :
    TranslationUnitPartition :=
  let functionIndices := partition.functionIndices ++ [item.2]
  { partition with
    functionIndices := functionIndices
    instructionCount := partition.instructionCount + instructionCount item.1
    firstEntryAddress :=
      if functionIndices.length = 1 then item.1.entryAddress else partition.firstEntryAddress
    lastEntryAddress := item.1.entryAddress }

/-- One function of the loop, with the newest partition at the head. -/
def addFunction (options : PartitionOptions) (result : List TranslationUnitPartition)
    (item : Function × Nat) : List TranslationUnitPartition :=
  match result with
  | [] => [extendPartition { index := 0 } item]
  | back :: rest =>
    if needsPartition options back item.1 then
      extendPartition { index := result.length } item :: back :: rest
    else extendPartition back item :: rest

/-- The functions of a partition. -/
def partitionFunctions (functions : List Function) (partition : TranslationUnitPartition) :
    List Function := partition.functionIndices.filterMap (functions[·]?)

def externalEntries (functions : List Function) (partition : TranslationUnitPartition) :
    List (BitVec 32) :=
  let local' := partitionFunctions functions partition
  sortUnique ((local'.flatMap (·.directCallees)).filter fun callee =>
    callee ∉ local'.map (·.entryAddress))

def partitionTranslationUnits (emitJsonInstruction : Instruction → String)
    (functions : List Function) (options : PartitionOptions) :
    Except String (List TranslationUnitPartition) :=
  if options.maximumFunctions = 0 ∨ options.maximumInstructions = 0 then
    .error "Codegen-Partitionsgrenzen duerfen nicht null sein."
  else if hasDuplicateEntry ((entryOrder functions).map (·.1)) then
    .error "Codegen-Partitionierung erhielt doppelte Funktionseinstiege."
  else do
    let result := ((entryOrder functions).foldl (addFunction options) []).reverse
    requireValidProgram functions
    result.mapM fun partition => do
      let contentSha256 ← emitValidatedIrFragmentSha256 emitJsonInstruction
        (partitionFunctions functions partition) (externalEntries functions partition)
      pure { partition with contentSha256 := contentSha256 }

end KatanaRecomp.Codegen
