import KatanaRecomp.Lib.Intervals
import KatanaRecomp.Runtime.ModuleOwners

/-! # Promotion to code

Two ways in which bytes become code: a control transfer into a module that allows it
opens a window of the module, and a control transfer into bytes that the guest wrote
makes a module of them. -/
namespace KatanaRecomp.Runtime
open Lib (mergeIntervals)
namespace ExecutableModule
variable (module : ExecutableModule)

/-! ## Control transfers -/

/-- The offset of the window, among the addresses of the module or among their physical
addresses. -/
def windowBegin (address : BitVec 32) : Nat :=
  if module.guestStart ≤ address ∧ address.toNat < module.endAddress then
    (address - module.guestStart).toNat
  else (canonicalPhysicalAddress address - canonicalPhysicalAddress module.guestStart).toNat

def windowEnd (address maximumBytes : BitVec 32) : Nat :=
  min module.bytes.length (module.windowBegin address + maximumBytes.toNat)

/-- The window and what was materializable by its role, as intervals. -/
def executableIntervals (address maximumBytes : BitVec 32) : List (Nat × Nat) :=
  (module.windowBegin address, module.windowEnd address maximumBytes) ::
    (module.rangeRoles.filter fun range =>
      decide (range.role = .runtimeMaterializable) && decide (range.size ≠ 0)).map fun range =>
        (range.offset, range.offset + range.size)

/-- The roles from `cursor` on: data up to each interval, and code on it. -/
def committedRoles (size : Nat) : Nat → List (Nat × Nat) → List ExecutableModuleRangeRole
  | cursor, [] => if cursor < size then [⟨cursor, size - cursor, .provenData⟩] else []
  | cursor, interval :: rest =>
    (if cursor < interval.1 then [⟨cursor, interval.1 - cursor, .provenData⟩] else []) ++
      ⟨interval.1, interval.2 - interval.1, .runtimeMaterializable⟩ ::
        committedRoles size interval.2 rest

/-- `std::sort` of pairs, by both components. -/
def sortIntervals (intervals : List (Nat × Nat)) : List (Nat × Nat) :=
  intervals.insertionSort fun left right =>
    left.1 < right.1 ∨ (left.1 = right.1 ∧ left.2 ≤ right.2)

def openWindow (address maximumBytes : BitVec 32) : ExecutableModule :=
  { module with
    rangeRoles := committedRoles module.bytes.length 0
      (mergeIntervals (sortIntervals (module.executableIntervals address maximumBytes)))
    executablePermission := true }

end ExecutableModule

namespace ModuleCatalog
variable (catalog : ModuleCatalog)

/-- The module that a control transfer may open. -/
def promotable (address : BitVec 32) : Option Nat := catalog.modules.findIdx? fun module =>
    module.contains address 2 && module.controlTransferPromotionAllowed

def authorizeControlTransfer (address maximumBytes : BitVec 32) : Bool × ModuleCatalog :=
  if address &&& 1 ≠ 0 ∨ maximumBytes < 2 then (false, catalog)
  else
    match catalog.promotable address with
    | none => (catalog.modules.any (·.materializable address 2), catalog)
    | some index =>
      (true, { catalog with
        modules := catalog.modules.modify index (·.openWindow address maximumBytes) })

/-! ## Written bytes -/

def runtimeWriteModuleIdPrefix : String := "guest-runtime-write-"

def runtimeWriteModuleSourceIdentity : String := "guest-runtime-write-v1"

/-- `was_written`. -/
def wasWritten (candidate : BitVec 32) : Bool :=
  catalog.runtimeWritePages.wasWritten (canonicalPhysicalAddress candidate).toNat

/-- `resolve`, as a place in the list. -/
def resolveIndex (address : BitVec 32) (width : Nat) : Option Nat :=
  (catalog.modules.findIdx? (·.materializable address width)).or
    (catalog.modules.findIdx? (·.contains address width))

/-- The bytes in a row that may be read, up to a count. -/
def readRun (allowed : Nat → Bool) (read : Nat → Except Fault (BitVec 8)) :
    Nat → Nat → Except Fault (List (BitVec 8))
  | 0, _ => .ok []
  | count + 1, position =>
    if !allowed position then .ok []
    else do
      let byte ← read position
      let rest ← readRun allowed read count (position + 1)
      return byte :: rest

/-- The module is one of written bytes. -/
def isRuntimeWriteModule (module : ExecutableModule) : Bool :=
  module.id.startsWith runtimeWriteModuleIdPrefix &&
    decide (module.sourceIdentity = runtimeWriteModuleSourceIdentity) &&
    decide (module.kind = .overlay) && module.controlTransferPromotionAllowed &&
    module.relocations.isEmpty

/-- The active extents of the modules, but for one, as physical bytes. -/
def otherExtents (index : Option Nat) : List (Nat × Nat) :=
  catalog.modules.zipIdx.flatMap fun (other, otherIndex) =>
    if !other.active ∨ some otherIndex = index then []
    else other.activeExtents.map fun extent =>
      (other.physicalStart + extent.offset, other.physicalStart + extent.offset + extent.size)

/-- How far a module may grow. -/
def extensionEnd (index currentEnd limit : Nat) : Nat :=
  (catalog.otherExtents (some index)).foldl (fun extensionEnd extent =>
    if extent.2 ≤ currentEnd ∨ extent.1 ≥ extensionEnd then extensionEnd
    else if extent.1 ≤ currentEnd then currentEnd else extent.1) limit

/-- The next byte behind the module continues it. -/
def mayExtend (memory : Memory) (found : ExecutableModule) (position : Nat) : Bool :=
  let logical := found.guestStart.toNat + found.bytes.length + position
  let candidate := BitVec.ofNat 32 logical
  decide (logical ≤ uint32Max) && decide ((canonicalPhysicalAddress candidate).toNat =
      found.physicalStart + found.bytes.length + position) &&
    memory.contains candidate 1 && catalog.wasWritten candidate

/-- The module with the bytes at its end. -/
def expand (found : ExecutableModule) (extension : List (BitVec 8)) : ExecutableModule :=
  { found with
    bytes := found.bytes ++ extension
    activeExtents := found.activeExtents.modify (found.activeExtents.length - 1) fun extent =>
      { extent with size := extent.size + extension.length }
    rangeRoles := found.rangeRoles ++ [⟨found.bytes.length, extension.length, .provenData⟩] }

/-- The control transfer continues a module of written bytes at its end. -/
def extendRuntimeWrite (memory : Memory) (address maximumBytes : BitVec 32) (index : Nat)
    (found : ExecutableModule) : Except Fault (Bool × ModuleCatalog) :=
  if !isRuntimeWriteModule found then .ok (false, catalog)
  else
    match found.moduleOffset address 2 with
    | none => .ok (false, catalog)
    | some offset =>
      if !(found.activeExtents.any fun extent => decide (extent.offset ≤ offset) &&
          decide (offset + 2 ≤ extent.offset + extent.size) &&
          decide (extent.offset + extent.size = found.bytes.length)) then .ok (false, catalog)
      else
        let currentEnd := found.physicalStart + found.bytes.length
        let limit := min ((canonicalPhysicalAddress address).toNat + maximumBytes.toNat) (2 ^ 32)
        let extensionEnd := catalog.extensionEnd index currentEnd limit
        if extensionEnd ≤ currentEnd then .ok (false, catalog)
        else do
          let run ← readRun (catalog.mayExtend memory found) (fun position => memory.readU8
            (BitVec.ofNat 32 (found.guestStart.toNat + found.bytes.length + position)))
            (extensionEnd - currentEnd) 0
          let extension := run.take (run.length / 2 * 2)
          if extension.isEmpty then return (false, catalog)
          let expanded ← validateAndNormalizeModule (expand found extension)
          if catalog.modules.zipIdx.any fun (other, otherIndex) =>
              other.active && decide (otherIndex ≠ index) &&
                physicalExtentsOverlap expanded other.guestStart other.activeExtents then
            throw (.host "Runtimewrite-Erweiterung kollidiert nach Vorvalidierung.")
          return (true, { catalog with
            modules := catalog.modules.set index expanded
            activeExtentPageRefcounts := indexActiveExtents
              (unindexActiveExtents catalog.activeExtentPageRefcounts found) expanded })

/-- The bytes up to the next active extent. -/
def snapshotLimit (physical maximumBytes : Nat) : Nat :=
  (catalog.otherExtents none).foldl (fun limit extent =>
    if extent.1 ≤ physical then limit else min limit (extent.1 - physical)) maximumBytes

/-- The next byte was written and is there. -/
def mayCapture (memory : Memory) (address : BitVec 32) (position : Nat) : Bool :=
  let candidate := address + BitVec.ofNat 32 position
  decide (position ≤ uint32Max - address.toNat) && memory.contains candidate 1 &&
    catalog.wasWritten candidate

/-- The bytes in a row that a condition allows, up to a count. -/
def runLength (allowed : Nat → Bool) : Nat → Nat → Nat
  | 0, _ => 0
  | count + 1, position =>
    if allowed position then runLength allowed count (position + 1) + 1 else 0

/-- A module of written bytes. -/
def runtimeWriteModule (number : Nat) (address : BitVec 32) (bytes : List (BitVec 8)) :
    ExecutableModule where
  id := runtimeWriteModuleIdPrefix ++ toString number
  sourceIdentity := runtimeWriteModuleSourceIdentity
  guestStart := address
  bytes := bytes
  kind := .overlay
  executablePermission := false
  controlTransferPromotionAllowed := true
  rangeRoles := [⟨0, bytes.length, .provenData⟩]

/-- The control transfer makes a module of written bytes. -/
def captureRuntimeWrite (memory : Memory) (address maximumBytes : BitVec 32) :
    Except Fault (Bool × ModuleCatalog) :=
  let limit := catalog.snapshotLimit (canonicalPhysicalAddress address).toNat maximumBytes.toNat
  let size := runLength (catalog.mayCapture memory address) limit 0 / 2 * 2
  if size < 2 then .ok (false, catalog)
  else do
    let bytes ← memory.readBytes address size
    let counted := { catalog with
      nextRuntimeWriteModule := (catalog.nextRuntimeWriteModule + 1) % 2 ^ 64 }
    let published ← counted.publish
      (runtimeWriteModule catalog.nextRuntimeWriteModule address bytes)
    return (true, published)

def promoteRuntimeWrite (memory : Memory) (address maximumBytes : BitVec 32) :
    Except Fault (Bool × ModuleCatalog) :=
  if address &&& 1 ≠ 0 ∨ maximumBytes < 2 then .ok (false, catalog)
  else if !catalog.wasWritten address || !catalog.wasWritten (address + 1) then .ok (false, catalog)
  else
    match (catalog.resolveIndex address 2).bind fun index =>
        (catalog.modules[index]?).map fun found => (index, found) with
    | some (index, found) => catalog.extendRuntimeWrite memory address maximumBytes index found
    | none => catalog.captureRuntimeWrite memory address maximumBytes

end ModuleCatalog
end KatanaRecomp.Runtime
