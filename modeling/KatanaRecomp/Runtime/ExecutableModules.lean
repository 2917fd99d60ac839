import KatanaRecomp.Runtime.CodeTrackerLaws
import KatanaRecomp.Runtime.GuestMemory

/-! # The catalog of executable modules

The part of `ExecutableModuleCatalog` that a disc load uses: validation and
resolution of modules, and the change of the catalog in two steps, prepared and
then committed or cancelled. The index counts the active extents on each page;
a map is its lookup function. -/
namespace KatanaRecomp.Runtime
open ExecutableCodeTracker (pageSpan pageSize countUp)

inductive ExecutableModuleKind
  | module | overlay
  deriving DecidableEq

inductive ExecutableStorageRole
  | runtimeMaterializable | provenData | provenPadding
  deriving DecidableEq

structure ExecutableModuleRangeRole where
  offset : Nat := 0
  size : Nat := 0
  role : ExecutableStorageRole := .runtimeMaterializable

def executableModuleRelocationModuleBase32 : Nat := 1

structure ExecutableModuleRelocation where
  offset : Nat := 0
  type : Nat := 0
  addend : BitVec 32 := 0

structure ExecutableModuleActiveExtent where
  offset : Nat := 0
  size : Nat := 0
  deriving DecidableEq

structure ExecutableModule where
  id : String
  sourceIdentity : String := ""
  contentIdentity : String := ""
  byteIdentity : String := ""
  nativeAotTemplateId : String := ""
  guestStart : BitVec 32 := 0
  bytes : List (BitVec 8) := []
  relocations : List ExecutableModuleRelocation := []
  rangeRoles : List ExecutableModuleRangeRole := []
  activeExtents : List ExecutableModuleActiveExtent := []
  kind : ExecutableModuleKind := .module
  generation : Nat := 1
  relocationGeneration : Nat := 1
  executablePermission : Bool := true
  controlTransferPromotionAllowed : Bool := false
  writable : Bool := true
  active : Bool := true

namespace ExecutableModule
variable (module : ExecutableModule)

def endAddress : Nat := module.guestStart.toNat + module.bytes.length

def physicalStart : Nat := (canonicalPhysicalAddress module.guestStart).toNat

/-- `module_offset`. -/
def moduleOffset (address : BitVec 32) (width : Nat) : Option Nat :=
  let start := (canonicalPhysicalAddress address).toNat
  if width = 0 ∨ start < module.physicalStart ∨
      start + width > module.physicalStart + module.bytes.length then none
  else some (start - module.physicalStart)

def contains (address : BitVec 32) (width : Nat) : Bool :=
  module.active && (module.moduleOffset address width).any fun offset =>
    module.activeExtents.any fun extent =>
      decide (extent.offset ≤ offset) && decide (offset + width ≤ extent.offset + extent.size)

def materializable (address : BitVec 32) (width : Nat) : Bool :=
  module.executablePermission && module.contains address width &&
    (module.moduleOffset address width).all fun start =>
      module.rangeRoles.all fun range =>
        decide (range.role = .runtimeMaterializable) || decide (range.size = 0) ||
          !(decide (start < range.offset + range.size) && decide (range.offset < start + width))

/-- The word at an offset of the bytes, as the relocations read it. -/
def readU32Le (bytes : List (BitVec 8)) (offset : Nat) : BitVec 32 :=
  (List.range 4).foldl (fun value byte =>
    value ||| (bytes.getD (offset + byte) 0).setWidth 32 <<< (byte * 8)) 0

/-- `relocated_module_byte`. -/
def relocatedByte (offset : Nat) : BitVec 8 :=
  match module.relocations.find? fun relocation =>
    decide (relocation.offset ≤ offset) && decide (offset < relocation.offset + 4) with
  | none => module.bytes.getD offset 0
  | some relocation =>
    let relocated := readU32Le module.bytes relocation.offset + module.guestStart +
      relocation.addend
    (relocated >>> ((offset - relocation.offset) * 8)).setWidth 8

end ExecutableModule

/-! ## Validation -/

def canonicalRangeIsLinear (address : BitVec 32) (size : Nat) : Bool :=
  let physicalBegin := (canonicalPhysicalAddress address).toNat
  let finalAddress := address + BitVec.ofNat 32 (size - 1)
  decide (size ≠ 0) && decide (size ≤ 2 ^ 32 - address.toNat) &&
    decide (physicalBegin + size - 1 ≤ uint32Max) &&
    decide ((canonicalPhysicalAddress finalAddress).toNat = physicalBegin + size - 1)

/-- The loop of `normalize_active_extents` over the sorted extents. -/
def normalizeExtents (length : Nat) (normalized : List ExecutableModuleActiveExtent) :
    List ExecutableModuleActiveExtent → Except Fault (List ExecutableModuleActiveExtent)
  | [] => .ok normalized
  | extent :: rest =>
    if extent.size = 0 ∨ extent.offset > length ∨ extent.size > length - extent.offset then
      .error (.host "Aktiver Modulbereich liegt ausserhalb der Modulbytes.")
    else
      match normalized.getLast? with
      | none => normalizeExtents length (normalized ++ [extent]) rest
      | some last =>
        if extent.offset < last.offset + last.size then
          .error (.host "Aktive Modulbereiche ueberlappen sich.")
        else if extent.offset = last.offset + last.size then
          normalizeExtents length
            (normalized.dropLast ++ [{ last with size := last.size + extent.size }]) rest
        else normalizeExtents length (normalized ++ [extent]) rest

def normalizeActiveExtents (module : ExecutableModule) : Except Fault ExecutableModule := do
  let extents := if module.activeExtents.isEmpty then [⟨0, module.bytes.length⟩]
    else module.activeExtents
  let normalized ← normalizeExtents module.bytes.length []
    (extents.insertionSort fun left right => left.offset ≤ right.offset)
  return { module with activeExtents := normalized }

def validateRelocations (module : ExecutableModule) : Except Fault Unit := do
  for relocation in module.relocations do
    if relocation.type ≠ executableModuleRelocationModuleBase32 then
      throw (.host "Ausfuehrbares Modul besitzt einen unbekannten Relocationtyp.")
    if relocation.offset > module.bytes.length ∨ 4 > module.bytes.length - relocation.offset then
      throw (.host "Modulrelocation liegt ausserhalb der Modulbytes.")
  let offsets := (module.relocations.map (·.offset)).insertionSort (· ≤ ·)
  if (offsets.zip offsets.tail).any fun (left, right) => right < left + 4 then
    throw (.host "Modulrelocationen ueberlappen sich.")

def validateAndNormalizeModule (module : ExecutableModule) : Except Fault ExecutableModule := do
  if module.id.isEmpty ∨ module.sourceIdentity.isEmpty ∨ module.bytes.isEmpty ∨
      module.bytes.length > uint32Max ∨ module.guestStart &&& 1 ≠ 0 ∨ module.generation = 0 ∨
      module.relocationGeneration = 0 then
    throw (.host "Ausfuehrbares Modul besitzt keine stabile Identitaet oder Bytes.")
  if module.endAddress > 2 ^ 32 then
    throw (.host "Ausfuehrbares Modul ueberschreitet den Gastadressraum.")
  if !canonicalRangeIsLinear module.guestStart module.bytes.length then
    throw (.host "Ausfuehrbares Modul ueberschreitet eine nichtlineare SH-4-Adressaliasgrenze.")
  let module ← normalizeActiveExtents module
  if module.activeExtents.any fun extent =>
      !canonicalRangeIsLinear (module.guestStart + BitVec.ofNat 32 extent.offset) extent.size then
    throw (.host "Aktiver Modulbereich ueberschreitet eine SH-4-Adressaliasgrenze.")
  validateRelocations module
  if module.rangeRoles.any fun range =>
      range.size = 0 || range.offset > module.bytes.length ||
        range.size > module.bytes.length - range.offset then
    throw (.host "Modulbereichsrolle liegt ausserhalb der Modulbytes.")
  return { module with active := true }

/-- Two modules' extents have a byte of physical memory in common. -/
def physicalExtentsOverlap (left : ExecutableModule) (rightGuestStart : BitVec 32)
    (rightExtents : List ExecutableModuleActiveExtent) : Bool :=
  let rightBase := (canonicalPhysicalAddress rightGuestStart).toNat
  left.activeExtents.any fun leftExtent => rightExtents.any fun rightExtent =>
    let leftBegin := left.physicalStart + leftExtent.offset
    let rightBegin := rightBase + rightExtent.offset
    decide (leftBegin < rightBegin + rightExtent.size) &&
      decide (rightBegin < leftBegin + leftExtent.size)

/-- `subtract_physical_range`: the extents without the range. -/
def subtractPhysicalRange (moduleGuestStart : BitVec 32) (physicalBegin physicalEnd : Nat)
    (extents : List ExecutableModuleActiveExtent) : List ExecutableModuleActiveExtent :=
  let moduleBase := (canonicalPhysicalAddress moduleGuestStart).toNat
  extents.flatMap fun extent =>
    let extentBegin := moduleBase + extent.offset
    let extentEnd := extentBegin + extent.size
    if physicalBegin ≥ extentEnd ∨ extentBegin ≥ physicalEnd then [extent]
    else
      let overlapBegin := max physicalBegin extentBegin
      let overlapEnd := min physicalEnd extentEnd
      (if extentBegin < overlapBegin then
        [{ offset := extent.offset, size := overlapBegin - extentBegin }] else []) ++
      (if overlapEnd < extentEnd then
        [{ offset := overlapEnd - moduleBase, size := extentEnd - overlapEnd }] else [])

/-! ## The catalog -/

structure ExecutableModuleMetrics where
  loads : Nat := 0
  unloads : Nat := 0
  writeIndexScans : Nat := 0

/-- `runtimeWritePages` marks the written bytes of a page. -/
structure ExecutableModuleCatalog where
  modules : List ExecutableModule := []
  runtimeWritePages : Nat → Option (Nat → Bool) := fun _ => none
  activeExtentPageRefcounts : Nat → Option Nat := fun _ => none
  metrics : ExecutableModuleMetrics := {}

namespace ExecutableModuleCatalog
variable (catalog : ExecutableModuleCatalog)

def resolve (address : BitVec 32) (width : Nat) : Option ExecutableModule :=
  (catalog.modules.find? (·.materializable address width)).or
    (catalog.modules.find? (·.contains address width))

/-- The first byte at which the memory and a module differ ends the comparison. -/
def bytesMatch (memory : Memory) (module : ExecutableModule) (offset : Nat)
    (memoryAddress : BitVec 32) : List Nat → Except Fault Bool
  | [] => .ok true
  | current :: rest => do
    let byte ← memory.readU8 (memoryAddress + BitVec.ofNat 32 current)
    if byte ≠ module.relocatedByte (offset + current) then return false
    bytesMatch memory module offset memoryAddress rest

def anyMatches (memory : Memory) (moduleAddress memoryAddress : BitVec 32) (width : Nat) :
    List ExecutableModule → Except Fault Bool
  | [] => .ok false
  | module :: rest =>
    match module.contains moduleAddress width, module.moduleOffset moduleAddress width with
    | true, some offset => do
      let matched ← bytesMatch memory module offset memoryAddress (List.range width)
      if matched then return true
      anyMatches memory moduleAddress memoryAddress width rest
    | _, _ => anyMatches memory moduleAddress memoryAddress width rest

def validateBytesAt (memory : Memory) (moduleAddress memoryAddress : BitVec 32) (width : Nat) :
    Except Fault Bool :=
  if !memory.contains memoryAddress width then .ok false
  else anyMatches memory moduleAddress memoryAddress width catalog.modules

/-- `next_module_incarnation_generation`. -/
def nextIncarnation (id : String) (initial : Nat) : Except Fault Nat :=
  let latest := (catalog.modules.filter (·.id = id)).foldl
    (fun latest module => max latest module.generation) 0
  if latest = 0 then .ok initial
  else if latest = uint64Max then
    .error (.host "Ausfuehrbare Modulinkarnation hat ihre Generation ausgeschoepft.")
  else .ok (latest + 1)

/-! ### The index -/

/-- The pages of an extent. -/
def extentPages (guestStart : BitVec 32) (extent : ExecutableModuleActiveExtent) : List Nat :=
  pageSpan ((canonicalPhysicalAddress guestStart).toNat + extent.offset) extent.size

def extentsPages (guestStart : BitVec 32) (extents : List ExecutableModuleActiveExtent) :
    List Nat := extents.flatMap (extentPages guestStart)

/-- `try_emplace` for each page, with the pages that were new. -/
def reservePages (index : Nat → Option Nat) : List Nat → (Nat → Option Nat) × List Nat
  | [] => (index, [])
  | page :: rest =>
    if (index page).isSome then reservePages index rest
    else
      let (index', inserted) := reservePages (Function.update index page (some 0)) rest
      (index', page :: inserted)

/-- `unindex_active_extents`: a count above zero goes down. -/
def unindexPage (index : Nat → Option Nat) (page : Nat) : Nat → Option Nat :=
  Function.update index page ((index page).map (· - 1))

/-- `index_noalloc`; `none` where the source terminates. -/
def indexPages (index : Nat → Option Nat) : List Nat → Option (Nat → Option Nat)
  | [] => some index
  | page :: rest =>
    match index page with
    | none => none
    | some count => indexPages (Function.update index page (some (countUp count))) rest

/-! ### A prepared change -/

structure ModuleUpdate where
  moduleIndex : Nat
  remainingExtents : List ExecutableModuleActiveExtent
  remainsActive : Bool

structure PreparedDiscLoadCatalog where
  modules : List ExecutableModule := []
  updates : List ModuleUpdate := []
  invalidatedRanges : List (BitVec 32 × Nat) := []
  insertedIndexPages : List Nat := []

def checkInvalidatedRanges (ranges : List (BitVec 32 × Nat)) : Except Fault Unit :=
  if ranges.isEmpty then
    .error (.host "Disc-Ladetransaktion besitzt keine Invalidierungsbereiche.")
  else if ranges.any fun (address, size) =>
      size = 0 || size > 2 ^ 32 - (canonicalPhysicalAddress address).toNat then
    .error (.host "Disc-Ladetransaktion invalidiert ausserhalb des Gastadressraums.")
  else .ok ()

/-- The incoming modules, checked against each other; each takes its generation. -/
def incarnateModules : List ExecutableModule → List ExecutableModule →
    Except Fault (List ExecutableModule)
  | done, [] => .ok done
  | done, module :: rest => do
    done.forM fun previous => do
      if module.id = previous.id then
        throw (.host "Disc-Ladetransaktion verwendet eine Modulidentitaet mehrfach.")
      if physicalExtentsOverlap module previous.guestStart previous.activeExtents then
        throw (.host "Disc-Ladetransaktion besitzt ueberlappende Modulbereiche.")
    let generation ← catalog.nextIncarnation module.id module.generation
    incarnateModules (done ++ [{ module with generation := generation }]) rest

/-- What an active module keeps of its extents. -/
def updateOf (ranges : List (BitVec 32 × Nat)) (index : Nat) (existing : ExecutableModule) :
    Option ModuleUpdate :=
  if !existing.active then none
  else
    let (remaining, changed) := ranges.foldl (fun (extents, changed) (address, size) =>
      let start := (canonicalPhysicalAddress address).toNat
      let remaining := subtractPhysicalRange existing.guestStart start (start + size) extents
      (remaining, changed || decide (remaining ≠ extents))) (existing.activeExtents, false)
    if changed then some ⟨index, remaining, !remaining.isEmpty⟩ else none

def moduleUpdates (ranges : List (BitVec 32 × Nat)) : List ModuleUpdate :=
  (catalog.modules.zipIdx.filterMap fun (existing, index) => updateOf ranges index existing)

/-- An incoming module meets none of the modules that stay. -/
def checkIncoming (updates : List ModuleUpdate) (incoming : ExecutableModule) :
    List (ExecutableModule × Nat) → Except Fault Unit
  | [] => .ok ()
  | (existing, index) :: rest => do
    if existing.active then
      let update := updates.find? (·.moduleIndex = index)
      if existing.id = incoming.id ∧ update.all (·.remainsActive) then
        throw (.host "Disc-Ladetransaktion laesst dieselbe Modulidentitaet aktiv.")
      let extents := (update.map (·.remainingExtents)).getD existing.activeExtents
      if !extents.isEmpty && physicalExtentsOverlap incoming existing.guestStart extents then
        throw (.host "Disc-Ladetransaktion laesst einen ueberlappenden Altbereich aktiv.")
    checkIncoming updates incoming rest

/-- The pages a plan has to find in the index. -/
def plannedPages (modules : List ExecutableModule) (updates : List ModuleUpdate) : List Nat :=
  modules.flatMap (fun module => extentsPages module.guestStart module.activeExtents) ++
    updates.flatMap fun update => extentsPages
      ((catalog.modules[update.moduleIndex]?).elim 0 (·.guestStart)) update.remainingExtents

/-- The plan, and the catalog with the pages it reserves. -/
def prepareDiscLoadCatalog (modules : List ExecutableModule) (ranges : List (BitVec 32 × Nat)) :
    Except Fault (PreparedDiscLoadCatalog × ExecutableModuleCatalog) := do
  checkInvalidatedRanges ranges
  let modules ← modules.mapM validateAndNormalizeModule
  let modules ← catalog.incarnateModules [] modules
  let updates := catalog.moduleUpdates ranges
  modules.forM fun incoming => checkIncoming updates incoming catalog.modules.zipIdx
  let (index, inserted) := reservePages catalog.activeExtentPageRefcounts
    (catalog.plannedPages modules updates)
  return (⟨modules, updates, ranges, inserted⟩,
    { catalog with activeExtentPageRefcounts := index })

/-- Each page that was new and is still unused leaves the index. -/
def cancelDiscLoadCatalog (plan : PreparedDiscLoadCatalog) : ExecutableModuleCatalog :=
  { catalog with
    activeExtentPageRefcounts := plan.insertedIndexPages.foldl (fun index page =>
      if index page = some 0 then Function.update index page none else index)
      catalog.activeExtentPageRefcounts }

/-- The module of an update, in the index and in the list. -/
def commitUpdate (update : ModuleUpdate) : Option ExecutableModuleCatalog :=
  match catalog.modules[update.moduleIndex]? with
  | none => none
  | some module => do
    let unindexed := if module.active then
      (extentsPages module.guestStart module.activeExtents).foldl unindexPage
        catalog.activeExtentPageRefcounts
      else catalog.activeExtentPageRefcounts
    let updated := { module with
      activeExtents := update.remainingExtents, active := update.remainsActive }
    let index ← if update.remainsActive then
      indexPages unindexed (extentsPages module.guestStart update.remainingExtents)
      else some unindexed
    return { catalog with
      modules := catalog.modules.set update.moduleIndex updated
      activeExtentPageRefcounts := index
      metrics := if module.active && !update.remainsActive then
        { catalog.metrics with unloads := countUp catalog.metrics.unloads } else catalog.metrics }

/-- The marks of the written bytes of a range go; a page without marks goes with
them. -/
def clearWritten (pages : Nat → Option (Nat → Bool)) (start size page : Nat) :
    Nat → Option (Nat → Bool) :=
  match pages page with
  | none => pages
  | some written =>
    let kept := fun offset => written offset &&
      !(decide (start ≤ page + offset) && decide (page + offset < start + size))
    Function.update pages page
      (if (List.range pageSize).all fun offset => !kept offset then none else some kept)

def clearRange (range : BitVec 32 × Nat) : ExecutableModuleCatalog :=
  let start := (canonicalPhysicalAddress range.1).toNat
  { catalog with
    runtimeWritePages := (pageSpan start range.2).foldl
      (fun pages page => clearWritten pages start range.2 page) catalog.runtimeWritePages
    metrics := { catalog.metrics with writeIndexScans := countUp catalog.metrics.writeIndexScans } }

def commitModule (module : ExecutableModule) : Option ExecutableModuleCatalog := do
  let index ← if module.active then
    indexPages catalog.activeExtentPageRefcounts
      (extentsPages module.guestStart module.activeExtents)
    else some catalog.activeExtentPageRefcounts
  return { catalog with
    modules := catalog.modules ++ [module]
    activeExtentPageRefcounts := index
    metrics := { catalog.metrics with loads := countUp catalog.metrics.loads } }

/-- `none` where the source terminates. -/
def commitDiscLoadCatalog (plan : PreparedDiscLoadCatalog) : Option ExecutableModuleCatalog := do
  let updated ← plan.updates.foldlM commitUpdate catalog
  let cleared := plan.invalidatedRanges.foldl clearRange updated
  plan.modules.foldlM commitModule cleared

end ExecutableModuleCatalog
end KatanaRecomp.Runtime
