import KatanaRecomp.Runtime.ModuleCatalog
import KatanaRecomp.Runtime.BlockTable

/-! # Owners of executable bytes

Modules with the same bytes at the same place may share them. A module that goes
invalidates the code on the bytes for which no equivalent owner is left, in the
block table and in the code tracker. -/
namespace KatanaRecomp.Runtime
open ExecutableCodeTracker (countUp)
namespace ExecutableModule

/-- `relocated_physical_range_matches`. -/
def relocatedRangeMatches (left right : ExecutableModule) (physicalBegin : BitVec 32)
    (size : Nat) : Bool :=
  match left.moduleOffset physicalBegin size, right.moduleOffset physicalBegin size with
  | some leftOffset, some rightOffset =>
    if left.relocations.isEmpty && right.relocations.isEmpty then
      decide ((left.bytes.drop leftOffset).take size = (right.bytes.drop rightOffset).take size)
    else (List.range size).all fun offset =>
      left.relocatedByte (leftOffset + offset) = right.relocatedByte (rightOffset + offset)
  | _, _ => false

/-- The physical bytes that two extents have in common. -/
def commonRange (left right : ExecutableModule)
    (leftExtent rightExtent : ExecutableModuleActiveExtent) : Nat × Nat :=
  (max (left.physicalStart + leftExtent.offset) (right.physicalStart + rightExtent.offset),
    min (left.physicalStart + leftExtent.offset + leftExtent.size)
      (right.physicalStart + rightExtent.offset + rightExtent.size))

/-- `overlapping_relocated_bytes_match`. -/
def overlappingBytesMatch (left right : ExecutableModule) : Bool :=
  left.activeExtents.all fun leftExtent => right.activeExtents.all fun rightExtent =>
    let common := commonRange left right leftExtent rightExtent
    decide (common.1 ≥ common.2) ||
      left.relocatedRangeMatches right (BitVec.ofNat 32 common.1) (common.2 - common.1)

/-- `equivalent_native_aot_owner_binding`. -/
def equivalentBinding (left right : ExecutableModule) : Bool :=
  if left.nativeAotTemplateId.isEmpty && right.nativeAotTemplateId.isEmpty then true
  else !left.nativeAotTemplateId.isEmpty &&
    decide (left.nativeAotTemplateId = right.nativeAotTemplateId) &&
    decide (left.contentIdentity = right.contentIdentity) &&
    decide (left.byteIdentity = right.byteIdentity)

/-- What a candidate owns of an extent: the common bytes, where it could run them
and has the same ones. -/
def ownedRange (removed candidate : ExecutableModule)
    (removedExtent candidateExtent : ExecutableModuleActiveExtent) : Option (Nat × Nat) :=
  let common := commonRange removed candidate removedExtent candidateExtent
  if common.1 ≥ common.2 then none
  else if !candidate.materializable (BitVec.ofNat 32 common.1) (common.2 - common.1) ||
      !removed.relocatedRangeMatches candidate (BitVec.ofNat 32 common.1)
        (common.2 - common.1) then none
  else some common

def ownedRanges (removed candidate : ExecutableModule) : List (Nat × Nat) :=
  if !candidate.active || !removed.equivalentBinding candidate then []
  else removed.activeExtents.flatMap fun removedExtent =>
    candidate.activeExtents.filterMap (removed.ownedRange candidate removedExtent)

/-- `extents_without_equivalent_owner`, for the module at an index of the list. -/
def extentsWithoutOwner (removed : ExecutableModule) (removedIndex : Nat)
    (modules : List ExecutableModule) : List ExecutableModuleActiveExtent :=
  (modules.zipIdx.flatMap fun (candidate, index) =>
    if index = removedIndex then [] else removed.ownedRanges candidate).foldl
      (fun remaining range => subtractPhysicalRange removed.guestStart range.1 range.2 remaining)
      removed.activeExtents

end ExecutableModule

def accumulate (value amount : Nat) : Nat := min (value + amount) uint64Max

/-- The code that the extents of a module may have put in the table and the tracker. -/
structure CodeOwners where
  blocks : RuntimeBlockTable
  tracker : ExecutableCodeTracker

/-- `invalidate_active_extents`, with the two counts. -/
def invalidateActiveExtents (guestStart : BitVec 32) :
    Nat × Nat → CodeOwners → List ExecutableModuleActiveExtent → Except Fault (Nat × CodeOwners)
  | counts, code, [] => .ok (max counts.1 counts.2, code)
  | counts, code, extent :: rest =>
    let extentAddress := BitVec.ofNat 32
      ((canonicalPhysicalAddress guestStart).toNat + extent.offset)
    let (invalidated, blocks) := code.blocks.eraseOverlappingPhysical extentAddress extent.size
    match code.tracker.observeWrite extentAddress extent.size .copy true with
    | .error message => .error (.host message)
    | .ok (tracked, tracker) =>
      invalidateActiveExtents guestStart
        (accumulate counts.1 invalidated, accumulate counts.2 tracked.invalidatedBlocks.length)
        ⟨blocks, tracker⟩ rest

namespace ModuleCatalog
variable (catalog : ModuleCatalog)

def indexOf (id : String) : Option Nat :=
  catalog.modules.findIdx? fun module => module.active && module.id = id

/-- The module at an index loses its extents. -/
def retireModule (index : Nat) (module : ExecutableModule) (invalidated : Nat) : ModuleCatalog :=
  { catalog with
    modules := catalog.modules.set index { module with active := false, activeExtents := [] }
    activeExtentPageRefcounts := unindexActiveExtents catalog.activeExtentPageRefcounts module
    metrics := { catalog.metrics with
      invalidatedBlocks := accumulate catalog.metrics.invalidatedBlocks invalidated
      unloads := countUp catalog.metrics.unloads } }

def unload (id : String) (code : CodeOwners) : Except Fault (ModuleCatalog × CodeOwners) :=
  match (catalog.indexOf id).bind fun index =>
      (catalog.modules[index]?).map fun module => (index, module) with
  | none => .error (.host "Unbekanntes aktives Modul.")
  | some (index, module) => do
    let unowned := module.extentsWithoutOwner index catalog.modules
    let (invalidated, code) ← invalidateActiveExtents module.guestStart (0, 0) code unowned
    return (catalog.retireModule index module invalidated, code)

/-- The overlapping modules of a replacement have its bytes. -/
def replacementFits (index : Nat) (module : ExecutableModule) : Bool :=
  catalog.modules.zipIdx.all fun (existing, other) =>
    decide (other = index) || !existing.active ||
      !physicalExtentsOverlap module existing.guestStart existing.activeExtents ||
      module.overlappingBytesMatch existing

def replace (module : ExecutableModule) (code : CodeOwners) :
    Except Fault (ModuleCatalog × CodeOwners) :=
  match (catalog.indexOf module.id).bind fun index =>
      (catalog.modules[index]?).map fun previous => (index, previous) with
  | none => .error (.host "Zu ersetzendes Modul ist nicht aktiv.")
  | some (index, previous) => do
    let generation ← catalog.nextIncarnation module.id module.generation
    let module ← validateAndNormalizeModule { module with generation := generation }
    if !catalog.replacementFits index module then
      throw (.host "Ersatzmodul ueberlappt ein anderes aktives Modul.")
    let unowned := previous.extentsWithoutOwner index catalog.modules
    let (invalidated, code) ← invalidateActiveExtents previous.guestStart (0, 0) code unowned
    let replaced := (catalog.retireModule index previous invalidated).append module
    return ({ replaced with metrics := { replaced.metrics with
      replacements := countUp replaced.metrics.replacements } }, code)

def updateRelocations (id : String) (relocations : List ExecutableModuleRelocation)
    (code : CodeOwners) : Except Fault (ModuleCatalog × CodeOwners) :=
  match (catalog.indexOf id).bind fun index =>
      (catalog.modules[index]?).map fun module => (index, module) with
  | none => .error (.host "Unbekanntes aktives Modul.")
  | some (index, module) => do
    if module.relocationGeneration = uint64Max then
      throw (.host "Ausfuehrbare Modulrelocation hat ihre Generation ausgeschoepft.")
    validateRelocations { module with relocations := relocations }
    let unowned := module.extentsWithoutOwner index catalog.modules
    let (invalidated, code) ← invalidateActiveExtents module.guestStart (0, 0) code unowned
    return ({ catalog with
      modules := catalog.modules.set index { module with
        relocations := relocations
        relocationGeneration := module.relocationGeneration + 1 }
      metrics := { catalog.metrics with
        invalidatedBlocks := accumulate catalog.metrics.invalidatedBlocks invalidated } }, code)

inductive LoadedRangeWriteObservation
  | unobservedChanged | observedChanged | observedByteIdentical
  deriving DecidableEq

/-- Where the loaded range meets an active module, it has its bytes. -/
def loadedBytesAgree (module : ExecutableModule) : Bool := catalog.modules.all fun existing =>
    !existing.active || module.activeExtents.all fun extent =>
      existing.activeExtents.all fun existingExtent =>
        let common := ExecutableModule.commonRange module existing extent existingExtent
        (List.range (common.2 - common.1)).all fun current =>
          existing.relocatedByte (common.1 - existing.physicalStart + current) =
            module.relocatedByte (common.1 - module.physicalStart + current)

def publishLoadedRange (module : ExecutableModule) (code : CodeOwners)
    (observation : LoadedRangeWriteObservation) : Except Fault (ModuleCatalog × CodeOwners) := do
  let module ← validateAndNormalizeModule module
  if (catalog.find module.id).isSome then
    throw (.host "Ausfuehrbare Modulidentitaet ist bereits aktiv.")
  if observation = .observedByteIdentical ∧ !catalog.loadedBytesAgree module then
    throw (.host "Byte-identischer Load widerspricht aktiven Modulbytes.")
  let generation ← catalog.nextIncarnation module.id module.generation
  let module := { module with generation := generation }
  if observation ≠ .unobservedChanged then return (catalog.append module, code)
  let physical := canonicalPhysicalAddress module.guestStart
  let (invalidated, blocks) := code.blocks.eraseOverlappingPhysical physical module.bytes.length
  match code.tracker.observeWrite physical module.bytes.length .copy true with
  | .error message => throw (.host message)
  | .ok (tracked, tracker) =>
    let counted := { catalog with metrics := { catalog.metrics with
      invalidatedBlocks := (catalog.metrics.invalidatedBlocks +
        max invalidated tracked.invalidatedBlocks.length) % 2 ^ 64 } }
    let recorded := counted.recordRuntimeWrite module.guestStart module.bytes.length .copy true
    return (recorded.append module, ⟨blocks, tracker⟩)

end ModuleCatalog
end KatanaRecomp.Runtime
