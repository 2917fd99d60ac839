import KatanaRecomp.Runtime.Cpu

/-! # The tracker of executable code

`ExecutableCodeTracker` knows the blocks compiled from guest memory and makes
them invalid when a write reaches their bytes. A page index narrows the search
for them. Addresses are 32-bit vectors where the source masks them and numbers
where it computes with them in 64 bits; a map is its lookup function, and a
vector that `operator[]` creates empty is the empty list. Counters that the
source only counts up are numbers. Allocation does not fail, so the event that
`record_invalidation_event` prepares is always recorded. -/
namespace KatanaRecomp.Runtime

/-- `std::numeric_limits<std::uint32_t>::max()`. -/
def uint32Max : Nat := 2 ^ 32 - 1

/-- `std::numeric_limits<std::uint64_t>::max()`. -/
def uint64Max : Nat := 2 ^ 64 - 1

def canonicalPhysicalAddress (address : BitVec 32) : BitVec 32 :=
  if address &&& 0xFC000000 = 0x7C000000 then address
  else if address < 0xE0000000 then address &&& 0x1FFFFFFF
  else address

/-- `std::sort` followed by `std::unique`. -/
def sortedUnique {α : Type} [LinearOrder α] (values : List α) : List α :=
  (values.insertionSort (· ≤ ·)).dedup

/-! ## Mutable ranges of a block -/

structure NativeAotTemplateMutableRange where
  offset : BitVec 32 := 0
  size : BitVec 32 := 0
  deriving DecidableEq

def NativeAotTemplateMutableRange.end (range : NativeAotTemplateMutableRange) : Nat :=
  range.offset.toNat + range.size.toNat

/-- The loop of `native_aot_mutable_ranges_valid` behind `previousEnd`. -/
def mutableRangesValidFrom (extent : Nat) : Nat → List NativeAotTemplateMutableRange → Bool
  | _, [] => true
  | previousEnd, range :: rest =>
    if range.size = 0 ∨ range.offset.toNat < previousEnd ∨ range.end > extent then false
    else mutableRangesValidFrom extent range.end rest

def nativeAotMutableRangesValid (ranges : List NativeAotTemplateMutableRange)
    (extent : BitVec 32) : Bool := mutableRangesValidFrom extent.toNat 0 ranges

/-- Some byte from `cursor` up to `endOffset` lies outside the ranges. -/
def leavesMutableRanges (endOffset : Nat) : Nat → List NativeAotTemplateMutableRange → Bool
  | cursor, [] => decide (cursor < endOffset)
  | cursor, range :: rest =>
    if cursor ≥ endOffset then false
    else if range.end ≤ cursor then leavesMutableRanges endOffset cursor rest
    else if range.offset.toNat > cursor then true
    else leavesMutableRanges endOffset (min endOffset range.end) rest

def nativeAotWriteOverlapsImmutable (trackedStart trackedExtent : BitVec 32)
    (mutableRanges : List NativeAotTemplateMutableRange) (writeStart : BitVec 32)
    (writeSize : Nat) : Bool :=
  if trackedExtent = 0 ∨ writeSize = 0 then false
  else if trackedExtent.toNat > 2 ^ 32 - trackedStart.toNat ∨
      writeSize > 2 ^ 32 - writeStart.toNat then true
  else
    let trackedEnd := trackedStart.toNat + trackedExtent.toNat
    let writeEnd := writeStart.toNat + writeSize
    let overlapBegin := max trackedStart.toNat writeStart.toNat
    let overlapEnd := min trackedEnd writeEnd
    if overlapBegin ≥ overlapEnd then false
    else if !nativeAotMutableRangesValid mutableRanges trackedExtent then true
    else leavesMutableRanges (overlapEnd - trackedStart.toNat)
      (overlapBegin - trackedStart.toNat) mutableRanges

/-! ## The state -/

inductive ExecutableBlockOrigin
  | imageSegment | romRamCopy | fallbackDecode | runtimeWrite
  deriving DecidableEq

inductive BlockRegistrationResult
  | inserted | alreadyValid | reactivated

/-- The incoming links are the elements of a `std::set` in order. -/
structure ExecutableBlockRegistration where
  identity : String
  physicalStart : BitVec 32 := 0
  size : BitVec 32 := 0
  provenance : String
  incomingLinks : List String := []
  origin : ExecutableBlockOrigin := .imageSegment
  mutableRanges : List NativeAotTemplateMutableRange := []

structure CodeInvalidationResult where
  invalidatedBlocks : List String := []
  unlinkedSources : List String := []
  changedPages : List Nat := []
  source : CodeWriteSource := .cpu
  byteIdentical : Bool := false

structure CodeInvalidationPage where
  physicalPage : Nat := 0
  generation : Nat := 0

structure CodeInvalidationEvent where
  sequence : Nat := 0
  virtualAddress : BitVec 32 := 0
  physicalAddress : BitVec 32 := 0
  size : Nat := 0
  source : CodeWriteSource := .cpu
  byteIdentical : Bool := false
  pages : List CodeInvalidationPage := []
  invalidatedBlocks : List String := []
  unlinkedSources : List String := []

structure TrackedExecutableBlock where
  block : ExecutableBlockRegistration
  valid : Bool := true

inductive CodeInvalidationLookupMode
  | pageIndex | referenceScan
  deriving DecidableEq

structure CodeInvalidationPerformanceCounters where
  indexedCandidates : Nat := 0
  referenceCandidates : Nat := 0

/-- `eventCapacity` is the capacity of the vector of events, which the
constructor reserves. `invalidationCount` counts all invalidations; the 64-bit
counter of the source is its remainder. -/
structure ExecutableCodeTracker where
  blocks : List TrackedExecutableBlock := []
  identityIndex : String → Option Nat := fun _ => none
  pageBlocks : Nat → List Nat := fun _ => []
  generations : Nat → Option Nat := fun _ => none
  hotspots : Nat → Option Nat := fun _ => none
  invalidationCount : Nat := 0
  invalidationEvents : List CodeInvalidationEvent := []
  oldestInvalidationEvent : Nat := 0
  provenanceCapacity : Nat
  eventCapacity : Nat
  nextProvenanceSequence : Nat := 0
  droppedProvenanceEvents : Nat := 0
  lookupMode : CodeInvalidationLookupMode := .pageIndex
  performanceCounters : CodeInvalidationPerformanceCounters := {}

namespace ExecutableCodeTracker

def pageSize : Nat := 4096

/-- The page of an address. -/
def pageOf (address : Nat) : Nat := address / pageSize * pageSize

/-- The pages that the loops `for (page = first_page;; page += page_size)` visit
for the bytes from `start` on. -/
def pageSpan (start size : Nat) : List Nat :=
  (List.range ((start + size - 1) / pageSize - start / pageSize + 1)).map fun index =>
    pageOf start + index * pageSize

def create (provenanceCapacity : Nat) : Except String ExecutableCodeTracker :=
  if provenanceCapacity = 0 then
    .error "Codeinvalidierungsprovenienz braucht eine positive Kapazitaet."
  else .ok { provenanceCapacity := provenanceCapacity, eventCapacity := provenanceCapacity }

variable (t : ExecutableCodeTracker)

/-! ## Registration -/

/-- The block keeps its place, size and origin under one identity. -/
def sameRegistration (known block : ExecutableBlockRegistration) : Bool :=
  known.physicalStart == block.physicalStart && known.size == block.size &&
    known.provenance == block.provenance && known.origin == block.origin &&
    known.mutableRanges == block.mutableRanges

def checkRegistration (block : ExecutableBlockRegistration) : Except String Unit :=
  if block.identity.isEmpty ∨ block.provenance.isEmpty ∨ block.size = 0 then
    .error "Ausfuehrbarer Block benoetigt Identitaet, Groesse und Provenienz."
  else if block.physicalStart.toNat + block.size.toNat > 2 ^ 32 then
    .error "Ausfuehrbarer Block laeuft ueber den Adressraum hinaus."
  else if !nativeAotMutableRangesValid block.mutableRanges block.size then
    .error "Mutable Codebereiche muessen sortiert, nicht leer, disjunkt und im Block liegen."
  else .ok ()

/-- A block with a new identity behind those there are. -/
def appendBlock (block : ExecutableBlockRegistration) : ExecutableCodeTracker :=
  let index := t.blocks.length
  let pages := pageSpan block.physicalStart.toNat block.size.toNat
  { t with
    blocks := t.blocks ++ [⟨block, true⟩]
    identityIndex := Function.update t.identityIndex block.identity (some index)
    pageBlocks := fun page =>
      if page ∈ pages then t.pageBlocks page ++ [index] else t.pageBlocks page }

def registerBlock (block : ExecutableBlockRegistration) :
    Except String (BlockRegistrationResult × ExecutableCodeTracker) := do
  let block := { block with physicalStart := canonicalPhysicalAddress block.physicalStart }
  checkRegistration block
  match t.identityIndex block.identity with
  | some index =>
    match t.blocks[index]? with
    | some duplicate =>
      if !sameRegistration duplicate.block block then
        .error "Blockidentitaet darf Adresse, Groesse oder Provenienz nicht wechseln."
      else
        let links := sortedUnique (duplicate.block.incomingLinks ++ block.incomingLinks)
        let linked := { duplicate.block with incomingLinks := links }
        .ok (if duplicate.valid then .alreadyValid else .reactivated,
          { t with blocks := t.blocks.set index ⟨linked, true⟩ })
    -- the index of an identity names a block
    | none => .error "Unbekannte Blockidentitaet."
  | none => .ok (.inserted, appendBlock t block)

def retireBlock (identity : String) : Bool × ExecutableCodeTracker :=
  match t.identityIndex identity with
  | none => (false, t)
  | some index =>
    match t.blocks[index]? with
    | some tracked =>
      if tracked.valid then
        (true, { t with blocks := t.blocks.set index { tracked with valid := false } })
      else (false, t)
    | none => (false, t)

/-! ## Invalidation -/

/-- The blocks while a loop over candidates makes some of them invalid, with
those it has made invalid so far. -/
structure Sweep where
  blocks : List TrackedExecutableBlock
  invalidated : List ExecutableBlockRegistration := []
  invalidationCount : Nat

/-- One candidate of such a loop. -/
def sweepBlock (reached : ExecutableBlockRegistration → Bool) (s : Sweep) (index : Nat) : Sweep :=
  match s.blocks[index]? with
  | some tracked =>
    if tracked.valid && reached tracked.block then
      { blocks := s.blocks.set index { tracked with valid := false }
        invalidated := s.invalidated ++ [tracked.block]
        invalidationCount := s.invalidationCount + 1 }
    else s
  | none => s

def sweepBlocks (reached : ExecutableBlockRegistration → Bool) (candidates : List Nat) : Sweep :=
  candidates.foldl (sweepBlock reached) ⟨t.blocks, [], t.invalidationCount⟩

/-- The write reaches bytes of the block that are not mutable. -/
def reachedBy (physical : BitVec 32) (size : Nat) (block : ExecutableBlockRegistration) : Bool :=
  nativeAotWriteOverlapsImmutable block.physicalStart block.size block.mutableRanges physical size

/-- The indices of blocks that a write to the pages may reach. -/
def candidateBlocks (pages : List Nat) : List Nat :=
  match t.lookupMode with
  | .pageIndex => sortedUnique (pages.flatMap t.pageBlocks)
  | .referenceScan => List.range t.blocks.length

def countCandidates (count : Nat) : CodeInvalidationPerformanceCounters :=
  match t.lookupMode with
  | .pageIndex =>
    { t.performanceCounters with
      indexedCandidates := t.performanceCounters.indexedCandidates + count }
  | .referenceScan =>
    { t.performanceCounters with
      referenceCandidates := t.performanceCounters.referenceCandidates + count }

/-- `++map[page]`. -/
def incrementPage (map : Nat → Option Nat) (page : Nat) : Nat → Option Nat :=
  Function.update map page (some ((map page).getD 0 + 1))

def incrementPages (map : Nat → Option Nat) (pages : List Nat) : Nat → Option Nat :=
  pages.foldl incrementPage map

def pageGeneration (address : Nat) : Nat :=
  let page := pageOf (canonicalPhysicalAddress (BitVec.ofNat 32 address)).toNat
  (t.generations page).getD 0

/-- `++counter` unless the counter is at its maximum. -/
def countUp (counter : Nat) : Nat := if counter = uint64Max then counter else counter + 1

/-- The event takes its sequence number and goes into the ring, in place of the
oldest one when the ring is full. -/
def appendEvent (event : CodeInvalidationEvent) : ExecutableCodeTracker :=
  if t.nextProvenanceSequence = uint64Max then
    { t with droppedProvenanceEvents := countUp t.droppedProvenanceEvents }
  else
    let event := { event with
      sequence := t.nextProvenanceSequence
      pages := event.pages.map fun page =>
        { page with generation := t.pageGeneration page.physicalPage } }
    if t.invalidationEvents.length = t.provenanceCapacity then
      { t with
        invalidationEvents := t.invalidationEvents.set t.oldestInvalidationEvent event
        oldestInvalidationEvent := (t.oldestInvalidationEvent + 1) % t.provenanceCapacity
        droppedProvenanceEvents := countUp t.droppedProvenanceEvents
        nextProvenanceSequence := t.nextProvenanceSequence + 1 }
    else
      { t with
        invalidationEvents := t.invalidationEvents ++ [event]
        nextProvenanceSequence := t.nextProvenanceSequence + 1 }

def recordInvalidationEvent (virtualAddress physicalAddress : BitVec 32) (size : Nat)
    (result : CodeInvalidationResult) : ExecutableCodeTracker := t.appendEvent
    { virtualAddress := virtualAddress
      physicalAddress := physicalAddress
      size := size
      source := result.source
      byteIdentical := result.byteIdentical
      pages := result.changedPages.map fun page => { physicalPage := page }
      invalidatedBlocks := result.invalidatedBlocks
      unlinkedSources := result.unlinkedSources }

/-- The range of a write lies in the address space. -/
def inAddressSpace (canonical : BitVec 32) (size : Nat) : Bool :=
  decide (size ≤ uint32Max) && decide (canonical.toNat + size ≤ 2 ^ 32)

/-- What a sweep reports, in the order the source sorts it. -/
def invalidatedIdentities (invalidated : List ExecutableBlockRegistration) : List String :=
  (invalidated.map (·.identity)).insertionSort (· ≤ ·)

def unlinkedSources (invalidated : List ExecutableBlockRegistration) : List String :=
  sortedUnique (invalidated.flatMap (·.incomingLinks))

/-- `observe_write` with bytes that changed, behind its checks. -/
def invalidateRange (address : BitVec 32) (size : Nat) (source : CodeWriteSource) :
    CodeInvalidationResult × ExecutableCodeTracker :=
  let canonical := canonicalPhysicalAddress address
  let pages := pageSpan canonical.toNat size
  let candidates := t.candidateBlocks pages
  let sweep := t.sweepBlocks (reachedBy canonical size) candidates
  let result : CodeInvalidationResult :=
    { invalidatedBlocks := invalidatedIdentities sweep.invalidated
      unlinkedSources := unlinkedSources sweep.invalidated
      changedPages := pages
      source := source }
  let swept : ExecutableCodeTracker :=
    { t with
      blocks := sweep.blocks
      invalidationCount := sweep.invalidationCount
      generations := incrementPages t.generations pages
      hotspots := incrementPages t.hotspots pages
      performanceCounters := t.countCandidates candidates.length }
  (result, swept.recordInvalidationEvent address canonical size result)

def observeWrite (address : BitVec 32) (size : Nat) (source : CodeWriteSource)
    (bytesChanged : Bool) : Except String (CodeInvalidationResult × ExecutableCodeTracker) :=
  let canonical := canonicalPhysicalAddress address
  if size = 0 then .error "Code-Schreibbeobachtung braucht eine Groesse."
  else if !inAddressSpace canonical size then
    .error "Code-Schreibbeobachtung laeuft ueber den Adressraum hinaus."
  else if !bytesChanged then
    let result : CodeInvalidationResult := { source := source, byteIdentical := true }
    .ok (result, t.recordInvalidationEvent address canonical size result)
  else .ok (t.invalidateRange address size source)

/-! ## Batches -/

structure GuestWriteEvent where
  address : BitVec 32 := 0
  size : Nat := 0
  source : CodeWriteSource := .cpu
  bytesChanged : Bool := true
  deriving DecidableEq

def directLinearWriteBatchCapacity : Nat := 32

/-- The physical start and the page of a store that stays on one page. -/
def directWriteBatchRange (event : GuestWriteEvent) : Option (BitVec 32 × Nat) :=
  if (event.size ≠ 1 ∧ event.size ≠ 2 ∧ event.size ≠ 4) ∨
      event.size > 2 ^ 32 - event.address.toNat then none
  else
    let physicalBegin := canonicalPhysicalAddress event.address
    let physicalEnd := physicalBegin.toNat + event.size
    let finalVirtual := event.address + BitVec.ofNat 32 (event.size - 1)
    if physicalEnd > 2 ^ 32 ∨
        (canonicalPhysicalAddress finalVirtual).toNat ≠ physicalEnd - 1 then none
    else if pageOf (physicalEnd - 1) = pageOf physicalBegin.toNat then
      some (physicalBegin, pageOf physicalBegin.toNat)
    else none

def canObserveWriteBatch (events : List GuestWriteEvent) : Bool :=
  decide (events.length ≤ directLinearWriteBatchCapacity) && events.all fun event =>
      match directWriteBatchRange event with
      | none => false
      | some (_, page) =>
        !event.bytesChanged || (t.generations page).isSome && (t.hotspots page).isSome

/-- The ranges of the changed stores; `none` where the source terminates. -/
def changedRanges (events : List GuestWriteEvent) : Option (List (BitVec 32 × Nat × Nat)) :=
  (events.filter (·.bytesChanged)).mapM fun event =>
    (directWriteBatchRange event).map fun (physical, page) => (physical, event.size, page)

/-- The first loop of `observe_write_batch`: each page once, behind the pages in
`previous`. -/
def incrementBatchPages (maps : (Nat → Option Nat) × (Nat → Option Nat)) :
    List Nat → List Nat → Option ((Nat → Option Nat) × (Nat → Option Nat))
  | _, [] => some maps
  | previous, page :: rest =>
    if page ∈ previous then incrementBatchPages maps (page :: previous) rest
    else if (maps.1 page).isSome && (maps.2 page).isSome then
      incrementBatchPages (incrementPage maps.1 page, incrementPage maps.2 page)
        (page :: previous) rest
    else none

/-- The indexed candidates of the pages of a batch, each visited once. -/
def batchCandidates : List Nat → List Nat → List Nat
  | _, [] => []
  | previous, page :: rest =>
    (if page ∈ previous then []
      else (t.pageBlocks page).filter fun candidate =>
        !previous.any fun before => before != page && candidate ∈ t.pageBlocks before) ++
      batchCandidates (page :: previous) rest

/-- The candidates of the changed stores of a batch. -/
def candidatesOfBatch (ranges : List (BitVec 32 × Nat × Nat)) : List Nat :=
  match t.lookupMode with
  | .pageIndex => t.batchCandidates [] (ranges.map (·.2.2))
  | .referenceScan => if ranges.isEmpty then [] else List.range t.blocks.length

/-- One of the changed stores reaches the block. -/
def reachedByAny (ranges : List (BitVec 32 × Nat × Nat)) (block : ExecutableBlockRegistration) :
    Bool := ranges.any fun range => reachedBy range.1 range.2.1 block

/-- The effects of a batch once its pages are counted. -/
def sweepBatch (events : List GuestWriteEvent) (ranges : List (BitVec 32 × Nat × Nat))
    (maps : (Nat → Option Nat) × (Nat → Option Nat)) : ExecutableCodeTracker :=
  let candidates := t.candidatesOfBatch ranges
  let sweep := t.sweepBlocks (reachedByAny ranges) candidates
  { t with
    blocks := sweep.blocks
    invalidationCount := sweep.invalidationCount
    generations := maps.1
    hotspots := maps.2
    performanceCounters := t.countCandidates candidates.length
    droppedProvenanceEvents := countUp^[events.length] t.droppedProvenanceEvents
    nextProvenanceSequence := countUp^[events.length] t.nextProvenanceSequence }

def observeWriteBatch (events : List GuestWriteEvent) : Option ExecutableCodeTracker :=
  if events.length > directLinearWriteBatchCapacity then none
  else
    (changedRanges events).bind fun ranges =>
      (incrementBatchPages (t.generations, t.hotspots) [] (ranges.map (·.2.2))).bind fun maps =>
        if (t.candidatesOfBatch ranges).any fun candidate => candidate ≥ t.blocks.length then none
        else some (t.sweepBatch events ranges maps)

/-! ## Disc-load writes -/

/-- The nodes of the two maps are the pages they will be inserted for. -/
structure PreparedDiscLoadWrite where
  pages : List Nat := []
  blockIndices : List Nat := []
  generationNodes : List Nat := []
  hotspotNodes : List Nat := []
  preparedEvent : CodeInvalidationEvent := {}
  indexedLookup : Bool := true
  candidateCount : Nat := 0

/-- The candidates that the write would make invalid now. -/
def hitBlocks (reached : ExecutableBlockRegistration → Bool) (candidates : List Nat) : List Nat :=
  candidates.filter fun index => t.blocks[index]?.any fun tracked =>
    tracked.valid && reached tracked.block

def prepareDiscLoadWrite (address : BitVec 32) (size : Nat) (source : CodeWriteSource)
    (bytesChanged : Bool) : Except String PreparedDiscLoadWrite :=
  let canonical := canonicalPhysicalAddress address
  if size = 0 then .error "Disc-Codewrite-Admission braucht eine Groesse."
  else if !inAddressSpace canonical size then
    .error "Disc-Codewrite-Admission laeuft ueber den Adressraum."
  else
    let event : CodeInvalidationEvent :=
      { virtualAddress := address, physicalAddress := canonical, size := size
        source := source, byteIdentical := !bytesChanged }
    if bytesChanged then
      let pages := pageSpan canonical.toNat size
      let candidates := t.candidateBlocks pages
      let hits := t.hitBlocks (reachedBy canonical size) candidates
      let invalidated := (hits.filterMap (t.blocks[·]?)).map (·.block)
      .ok
        { pages := pages
          blockIndices := hits
          generationNodes := pages.filter fun page => (t.generations page).isNone
          hotspotNodes := pages.filter fun page => (t.hotspots page).isNone
          preparedEvent :=
            { event with
              pages := pages.map fun page => { physicalPage := page }
              invalidatedBlocks := invalidatedIdentities invalidated
              unlinkedSources := unlinkedSources invalidated }
          indexedLookup := decide (t.lookupMode = .pageIndex)
          candidateCount := candidates.length }
    else .ok { preparedEvent := event }

/-- `map.insert(node)`, which leaves an element that is there alone. -/
def insertNode (map : Nat → Option Nat) (page : Nat) : Nat → Option Nat :=
  if (map page).isSome then map else Function.update map page (some 0)

/-- The loop over the pages of a plan; `none` where the source terminates. -/
def incrementPlanned (maps : (Nat → Option Nat) × (Nat → Option Nat)) :
    List Nat → Option ((Nat → Option Nat) × (Nat → Option Nat))
  | [] => some maps
  | page :: rest =>
    if (maps.1 page).isSome && (maps.2 page).isSome then
      incrementPlanned (incrementPage maps.1 page, incrementPage maps.2 page) rest
    else none

def commitDiscLoadWrite (plan : PreparedDiscLoadWrite) : Option ExecutableCodeTracker := do
  let (generations, hotspots) ← incrementPlanned
    (plan.generationNodes.foldl insertNode t.generations,
      plan.hotspotNodes.foldl insertNode t.hotspots) plan.pages
  let sweep := t.sweepBlocks (fun _ => true) plan.blockIndices
  let committed : ExecutableCodeTracker :=
    { t with
      blocks := sweep.blocks
      invalidationCount := sweep.invalidationCount
      generations := generations
      hotspots := hotspots
      performanceCounters :=
        if plan.indexedLookup then
          { t.performanceCounters with
            indexedCandidates := t.performanceCounters.indexedCandidates + plan.candidateCount }
        else
          { t.performanceCounters with
            referenceCandidates :=
              t.performanceCounters.referenceCandidates + plan.candidateCount } }
  if committed.nextProvenanceSequence ≠ uint64Max ∧
      committed.invalidationEvents.length ≠ committed.provenanceCapacity ∧
      committed.eventCapacity < committed.provenanceCapacity then none
  return committed.appendEvent plan.preparedEvent

/-! ## Queries -/

def valid (identity : String) : Except String Bool :=
  match (t.identityIndex identity).bind (t.blocks[·]?) with
  | some tracked => .ok tracked.valid
  | none => .error "Unbekannte Blockidentitaet."

def dispatchable (identity : String) : Bool :=
  match (t.identityIndex identity).bind (t.blocks[·]?) with
  | some tracked => tracked.valid
  | none => true

/-- The 64-bit counter, which wraps. -/
def invalidationCounter : Nat := t.invalidationCount % 2 ^ 64

/-- The answer, and the stamp the caller holds afterwards. -/
def revalidateDispatchable (identity : String) (validatedInvalidationCount : Nat) : Bool × Nat :=
  if validatedInvalidationCount = t.invalidationCounter then (true, validatedInvalidationCount)
  else if !t.dispatchable identity then (false, validatedInvalidationCount)
  else (true, t.invalidationCounter)

def tracksAddress (address : BitVec 32) (size : Nat) : Bool :=
  let canonical := canonicalPhysicalAddress address
  if size = 0 then false
  else if !inAddressSpace canonical size then false
  else
    (pageSpan canonical.toNat size).any fun page => (t.pageBlocks page).any fun index =>
      match t.blocks[index]? with
      | none => true
      | some tracked =>
        decide (canonical.toNat < tracked.block.physicalStart.toNat + tracked.block.size.toNat) &&
          decide (tracked.block.physicalStart.toNat < canonical.toNat + size)

/-- `invalidation_events()` turns the ring so that the oldest event comes first. -/
def rotateEvents : ExecutableCodeTracker :=
  { t with
    invalidationEvents := t.invalidationEvents.rotate t.oldestInvalidationEvent
    oldestInvalidationEvent := 0 }

/-- `snapshot()`, with the two maps as they are. -/
structure Snapshot where
  blocks : List TrackedExecutableBlock
  pageGenerations : Nat → Option Nat
  hotspots : Nat → Option Nat
  invalidationCount : Nat
  invalidationEvents : List CodeInvalidationEvent
  provenanceCapacity : Nat
  nextProvenanceSequence : Nat
  droppedProvenanceEvents : Nat
  lookupMode : CodeInvalidationLookupMode
  performanceCounters : CodeInvalidationPerformanceCounters

def snapshot : Snapshot where
  blocks := t.blocks
  pageGenerations := t.generations
  hotspots := t.hotspots
  invalidationCount := t.invalidationCounter
  invalidationEvents := t.invalidationEvents.rotate t.oldestInvalidationEvent
  provenanceCapacity := t.provenanceCapacity
  nextProvenanceSequence := t.nextProvenanceSequence
  droppedProvenanceEvents := t.droppedProvenanceEvents
  lookupMode := t.lookupMode
  performanceCounters := t.performanceCounters

end ExecutableCodeTracker
end KatanaRecomp.Runtime
