import KatanaRecomp.Runtime.WrittenPages

/-! # The catalog and the stores of the guest

What a disc load uses of the catalog, with the provenance of the stores in words:
publication, the record of a store and of a batch of stores, and the commit of a
disc load. -/
namespace KatanaRecomp.Runtime
open ExecutableCodeTracker (countUp pageOf pageSpan pageSize GuestWriteEvent
  directLinearWriteBatchCapacity)

structure ModuleCatalogMetrics where
  loads : Nat := 0
  unloads : Nat := 0
  replacements : Nat := 0
  invalidatedBlocks : Nat := 0
  writeIndexRejections : Nat := 0
  writeIndexScans : Nat := 0

structure ModuleCatalog where
  modules : List ExecutableModule := []
  runtimeWritePages : RuntimeWritePages := fun _ => none
  activeExtentPageRefcounts : Nat → Option Nat := fun _ => none
  nextRuntimeWriteModule : Nat := 1
  metrics : ModuleCatalogMetrics := {}

namespace ExecutableModule
variable (module : ExecutableModule)

/-- `physical_range_overlaps_active_extents`. -/
def overlapsRange (physicalBegin physicalEnd : Nat) : Bool :=
  module.active && module.activeExtents.any fun extent =>
    decide (physicalBegin < module.physicalStart + extent.offset + extent.size) &&
      decide (module.physicalStart + extent.offset < physicalEnd)

/-- `subtract_physical_range` on a module. -/
def subtractRange (physicalBegin physicalEnd : Nat) : ExecutableModule :=
  if !module.overlapsRange physicalBegin physicalEnd then module
  else
    let remaining := subtractPhysicalRange module.guestStart physicalBegin physicalEnd
      module.activeExtents
    { module with activeExtents := remaining, active := !remaining.isEmpty }

end ExecutableModule

namespace ModuleCatalog
open ExecutableModuleCatalog (extentsPages unindexPage PreparedDiscLoadCatalog)
variable (catalog : ModuleCatalog)

/-! ## The index -/

/-- One more extent on a page, which gets an entry where it has none. -/
def indexPage (index : Nat → Option Nat) (page : Nat) : Nat → Option Nat :=
  Function.update index page (some (countUp ((index page).getD 0)))

/-- `index_active_extents`. -/
def indexActiveExtents (index : Nat → Option Nat) (module : ExecutableModule) : Nat → Option Nat :=
  if module.active then (extentsPages module.guestStart module.activeExtents).foldl indexPage index
  else index

/-- `unindex_active_extents`. -/
def unindexActiveExtents (index : Nat → Option Nat) (module : ExecutableModule) :
    Nat → Option Nat :=
  if module.active then
    (extentsPages module.guestStart module.activeExtents).foldl unindexPage index
  else index

/-- `active_extent_index_may_overlap`. -/
def activeExtentIndexMayOverlap (physicalBegin physicalEnd : Nat) : Bool :=
  if physicalEnd ≤ physicalBegin then false
  else (pageSpan physicalBegin (physicalEnd - physicalBegin)).any fun page =>
    (catalog.activeExtentPageRefcounts page).any (· ≠ 0)

/-! ## Publication -/

def find (id : String) : Option ExecutableModule :=
  catalog.modules.find? fun module => module.active && module.id = id

/-- `next_module_incarnation_generation`. -/
def nextIncarnation (id : String) (initial : Nat) : Except Fault Nat :=
  ({ modules := catalog.modules } : ExecutableModuleCatalog).nextIncarnation id initial

/-- The module goes to the end of the list and into the index. -/
def append (module : ExecutableModule) : ModuleCatalog :=
  { catalog with
    modules := catalog.modules ++ [module]
    activeExtentPageRefcounts := indexActiveExtents catalog.activeExtentPageRefcounts module
    metrics := { catalog.metrics with loads := countUp catalog.metrics.loads } }

def publish (module : ExecutableModule) : Except Fault ModuleCatalog := do
  let module ← validateAndNormalizeModule module
  if (catalog.find module.id).isSome then
    throw (.host "Ausfuehrbare Modulidentitaet ist bereits aktiv.")
  if catalog.modules.any fun existing =>
      existing.active && physicalExtentsOverlap module existing.guestStart existing.activeExtents then
    throw (.host "Ausfuehrbare Module ueberlappen sich.")
  let generation ← catalog.nextIncarnation module.id module.generation
  return catalog.append { module with generation := generation }

/-! ## The stores -/

/-- What a module that a changed store cuts does to the index. -/
def reindexCut (physicalBegin physicalEnd : Nat) (index : Nat → Option Nat)
    (module : ExecutableModule) : Nat → Option Nat :=
  let cut := module.subtractRange physicalBegin physicalEnd
  if cut.activeExtents = module.activeExtents then index
  else indexActiveExtents (unindexActiveExtents index module) cut

/-- The modules lose the stored bytes. -/
def scanModules (physicalBegin physicalEnd : Nat) : ModuleCatalog :=
  let ended := catalog.modules.filter fun module =>
    module.active && !(module.subtractRange physicalBegin physicalEnd).active
  { catalog with
    modules := catalog.modules.map (·.subtractRange physicalBegin physicalEnd)
    activeExtentPageRefcounts := catalog.modules.foldl (reindexCut physicalBegin physicalEnd)
      catalog.activeExtentPageRefcounts
    metrics := { catalog.metrics with
      writeIndexScans := countUp catalog.metrics.writeIndexScans
      unloads := ended.foldl (fun unloads _ => countUp unloads) catalog.metrics.unloads } }

def recordRuntimeWrite (address : BitVec 32) (size : Nat) (source : CodeWriteSource)
    (bytesChanged : Bool) : ModuleCatalog :=
  if size = 0 ∨ size > 2 ^ 32 - address.toNat then catalog
  else if !bytesChanged && !establishesProvenance source then catalog
  else
    let physicalBegin := (canonicalPhysicalAddress address).toNat
    let physicalEnd := physicalBegin + size
    if physicalEnd > 2 ^ 32 then catalog
    else
      let scanned :=
        if !bytesChanged then catalog
        else if !canonicalRangeIsLinear address size ||
            catalog.activeExtentIndexMayOverlap physicalBegin physicalEnd then
          catalog.scanModules physicalBegin physicalEnd
        else { catalog with metrics := { catalog.metrics with
          writeIndexRejections := countUp catalog.metrics.writeIndexRejections } }
      { scanned with
        runtimeWritePages :=
          scanned.runtimeWritePages.recordStore physicalBegin size source bytesChanged }

/-! ## Batches of stores -/

/-- `direct_write_batch_range`: start, end and page. -/
def directWriteBatchRange (event : GuestWriteEvent) : Option (Nat × Nat × Nat) :=
  if event.size ≠ 1 ∧ event.size ≠ 2 ∧ event.size ≠ 4 then none
  else if !canonicalRangeIsLinear event.address event.size then none
  else
    let physicalBegin := (canonicalPhysicalAddress event.address).toNat
    let physicalEnd := physicalBegin + event.size
    if pageOf (physicalEnd - 1) = pageOf physicalBegin then
      some (physicalBegin, physicalEnd, pageOf physicalBegin)
    else none

def admitsEvent (event : GuestWriteEvent) : Bool :=
  match directWriteBatchRange event with
  | none => false
  | some (physicalBegin, physicalEnd, page) =>
    !(event.bytesChanged && catalog.activeExtentIndexMayOverlap physicalBegin physicalEnd) &&
      (!establishesProvenance event.source || (catalog.runtimeWritePages page).isSome)

/-- The store on the bits of its page. -/
def applyEvent (written : Lib.Bitmap 64) (start finish page : Nat) (event : GuestWriteEvent) :
    Lib.Bitmap 64 :=
  let cleared := if event.bytesChanged then
      updateRuntimeWriteBits written (start - page) (finish - page) false
    else written
  if establishesProvenance event.source then
    updateRuntimeWriteBits cleared (start - page) (finish - page) true
  else cleared

/-- The stores to a page, in order; `none` where one is not direct. -/
def applyEvents (page : Nat) : Lib.Bitmap 64 → List GuestWriteEvent → Option (Lib.Bitmap 64)
  | written, [] => some written
  | written, event :: rest =>
    match directWriteBatchRange event with
    | none => none
    | some (start, finish, eventPage) =>
      if eventPage ≠ page then applyEvents page written rest
      else applyEvents page (applyEvent written start finish page event) rest

/-- No page is left without bits; `none` where the source terminates. -/
def leavesPages (events : List GuestWriteEvent) : List Nat → List GuestWriteEvent → Option Bool
  | _, [] => some true
  | seen, event :: rest =>
    match directWriteBatchRange event with
    | none => some false
    | some (_, _, page) =>
      if page ∈ seen then leavesPages events seen rest
      else
        match catalog.runtimeWritePages page with
        | none =>
          if events.any fun other => (directWriteBatchRange other).all fun range =>
              decide (range.2.2 = page) && establishesProvenance other.source then none
          else leavesPages events (page :: seen) rest
        | some found =>
          match applyEvents page found.written events with
          | none => some false
          | some written =>
            if written.isZero then some false else leavesPages events (page :: seen) rest

def canRecordRuntimeWriteBatch (events : List GuestWriteEvent) : Option Bool :=
  if events.length > directLinearWriteBatchCapacity then some false
  else if !events.all catalog.admitsEvent then some false
  else catalog.leavesPages events [] events

/-- Each page of a batch once; `none` where the source terminates. -/
def commitPages (events : List GuestWriteEvent) :
    RuntimeWritePages → List Nat → List GuestWriteEvent → Option RuntimeWritePages
  | pages, _, [] => some pages
  | pages, seen, event :: rest =>
    match directWriteBatchRange event with
    | none => none
    | some (_, _, page) =>
      if page ∈ seen then commitPages events pages seen rest
      else
        match pages page with
        | none => commitPages events pages (page :: seen) rest
        | some found =>
          match applyEvents page found.written events with
          | none => none
          | some written =>
            if written.isZero then none
            else commitPages events (Function.update pages page (some ⟨written⟩)) (page :: seen) rest

def recordRuntimeWriteBatch (events : List GuestWriteEvent) : Option ModuleCatalog :=
  if events.length > directLinearWriteBatchCapacity then none
  else
    (commitPages events catalog.runtimeWritePages [] events).map fun pages =>
      { catalog with
        runtimeWritePages := pages
        metrics := if events.any (·.bytesChanged) then
          { catalog.metrics with
            writeIndexRejections := countUp catalog.metrics.writeIndexRejections }
          else catalog.metrics }

/-! ## Disc loads -/

/-- What a disc load sees of the catalog. -/
def discLoadView : ExecutableModuleCatalog where
  modules := catalog.modules
  runtimeWritePages page := (catalog.runtimeWritePages page).map (·.written.bit)
  activeExtentPageRefcounts := catalog.activeExtentPageRefcounts
  metrics := ⟨catalog.metrics.loads, catalog.metrics.unloads, catalog.metrics.writeIndexScans⟩

/-- The words lose the marks of the invalidated ranges; the rest is the commit of
the view. -/
def commitDiscLoadCatalog (plan : PreparedDiscLoadCatalog) : Option ModuleCatalog := do
  let committed ← catalog.discLoadView.commitDiscLoadCatalog plan
  return { catalog with
    modules := committed.modules
    runtimeWritePages := plan.invalidatedRanges.foldl (fun pages range =>
      pages.updateProvenance (canonicalPhysicalAddress range.1).toNat range.2 false)
      catalog.runtimeWritePages
    activeExtentPageRefcounts := committed.activeExtentPageRefcounts
    metrics := { catalog.metrics with
      loads := committed.metrics.loads
      unloads := committed.metrics.unloads
      writeIndexScans := committed.metrics.writeIndexScans } }

/-- The catalog keeps the pages that the plan reserves. -/
def prepareDiscLoadCatalog (modules : List ExecutableModule) (ranges : List (BitVec 32 × Nat)) :
    Except Fault (PreparedDiscLoadCatalog × ModuleCatalog) := do
  let (plan, reserved) ← catalog.discLoadView.prepareDiscLoadCatalog modules ranges
  return (plan,
    { catalog with activeExtentPageRefcounts := reserved.activeExtentPageRefcounts })

def cancelDiscLoadCatalog (plan : PreparedDiscLoadCatalog) : ModuleCatalog :=
  { catalog with
    activeExtentPageRefcounts :=
      (catalog.discLoadView.cancelDiscLoadCatalog plan).activeExtentPageRefcounts }

end ModuleCatalog
end KatanaRecomp.Runtime
