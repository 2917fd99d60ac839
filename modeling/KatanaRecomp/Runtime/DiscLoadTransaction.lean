import KatanaRecomp.Runtime.BlockTable
import KatanaRecomp.Runtime.ExecutableModules

/-! # Disc-load transactions

`ExecutableDiscLoadTransactionCoordinator::execute` loads bytes of the disc into
guest memory. It checks and stages everything first, then changes memory, module
catalog, code tracker, block table and AOT assemblies. The guest-write observer
consumes the writes of the transaction, so they have no other effect. A call has
no result where the source terminates. The hash is a parameter. -/
namespace KatanaRecomp.Runtime

inductive DiscLoadRoute
  | biosPio | biosDma | biosPioStream | biosDmaStream | taskfileDma | systemBootstrap
  deriving DecidableEq

structure DiscLoadSourceRange where
  known : Bool := false
  byteOffset : Nat := 0
  byteCount : Nat := 0
  deriving DecidableEq

structure DiscLoadRequest where
  sequence : Nat := 0
  route : DiscLoadRoute := .biosPio
  guestDestination : BitVec 32 := 0
  physicalDestination : BitVec 32 := 0
  writeSource : CodeWriteSource := .copy
  contentIdentity : String := ""
  byteIdentity : String := ""
  sourceRange : DiscLoadSourceRange := {}
  bytes : List (BitVec 8) := []
  guestTranslationValidated : Bool := false

/-- `bytes.subspan`. -/
def DiscLoadRequest.subspan (request : DiscLoadRequest) (offset size : Nat) : List (BitVec 8) :=
  (request.bytes.drop offset).take size

structure DiscLoadCommittedRange where
  targetPhysicalAddress : BitVec 32 := 0
  backingPhysicalAddress : BitVec 32 := 0
  sourceOffset : Nat := 0
  size : Nat := 0
  byteIdentity : String := ""
  executableBacking : Bool := false
  moduleActivated : Bool := false
  exactModuleRetained : Bool := false
  sourceRangeKnown : Bool := false
  sourceByteOffset : Nat := 0

structure DiscLoadCommit where
  sequence : Nat := 0
  route : DiscLoadRoute := .biosPio
  guestDestination : BitVec 32 := 0
  physicalDestination : BitVec 32 := 0
  writeSource : CodeWriteSource := .copy
  contentIdentity : String := ""
  byteIdentity : String := ""
  sourceRange : DiscLoadSourceRange := {}
  committedBytes : Nat := 0
  ranges : List DiscLoadCommittedRange := []
  bytesChanged : Bool := false
  identityRebound : Bool := false

structure DiscLoadAotModuleDescriptor where
  opaqueId : String
  templateId : String
  contentIdentity : String
  sourceByteOffset : Nat := 0
  byteSize : Nat := 0
  byteIdentity : String

structure AotCoverageInterval where
  start : Nat := 0
  stop : Nat := 0
  deriving DecidableEq

structure AotAssembly where
  descriptor : DiscLoadAotModuleDescriptor
  targetBase : Option (BitVec 32) := none
  coverage : List AotCoverageInterval := []

/-- The coordinator with the stores it changes. `pendingWrite` is the active flag
of `pending_write_`. -/
structure DiscLoadCoordinator where
  memory : Memory
  modules : ExecutableModuleCatalog
  blocks : RuntimeBlockTable
  tracker : ExecutableCodeTracker
  aotAssemblies : List AotAssembly := []
  pendingWrite : Bool := false
  transactionStarted : Bool := false

def maximumAotCoverageIntervals : Nat := 256

/-- The four bounds of two ranges. -/
def rangesOverlapping (leftBegin leftEnd rightBegin rightEnd : Nat) : Bool :=
  decide (leftBegin < rightEnd) && decide (rightBegin < leftEnd)

/-! ## Coverage -/

/-- One interval of the sorted coverage, joined to the last one it meets. -/
def joinCoverage (joined : List AotCoverageInterval) (interval : AotCoverageInterval) :
    List AotCoverageInterval :=
  match joined.getLast? with
  | none => [interval]
  | some last =>
    if last.stop < interval.start then joined ++ [interval]
    else joined.dropLast ++ [{ last with stop := max last.stop interval.stop }]

def addCoverage (coverage : List AotCoverageInterval) (start stop : Nat) :
    List AotCoverageInterval :=
  if start ≥ stop then coverage
  else
    ((coverage ++ [(⟨start, stop⟩ : AotCoverageInterval)]).insertionSort
      fun left right => toLex (left.start, left.stop) ≤ toLex (right.start, right.stop)).foldl
      joinCoverage []

def coverageContains (coverage : List AotCoverageInterval) (start stop : Nat) : Bool :=
  coverage.any fun interval => decide (interval.start ≤ start) && decide (stop ≤ interval.stop)

section
variable (sha256 : List (BitVec 8) → String)

/-! ## Identities and checks -/

def discLoadByteIdentity (bytes : List (BitVec 8)) : String := "sha256:" ++ sha256 bytes

def utf8Bytes (text : String) : List (BitVec 8) := text.toUTF8.toList.map (·.toBitVec)

def discLoadSourceIdentity (contentIdentity byteIdentity : String) : String :=
  "disc-load-v1:" ++ sha256 (utf8Bytes ("katana-disc-load-source-v1;" ++
    toString contentIdentity.utf8ByteSize ++ ":" ++ contentIdentity ++ ";" ++
    toString byteIdentity.utf8ByteSize ++ ":" ++ byteIdentity))

def validateRequest (request : DiscLoadRequest) : Except Fault Unit := do
  if request.sequence = 0 ∨ request.bytes.isEmpty ∨ request.contentIdentity.isEmpty ∨
      !request.guestTranslationValidated then
    throw (.host "Disc-Ladetransaktion besitzt keinen vollstaendigen Vertrag.")
  if request.writeSource ≠ .copy ∧ request.writeSource ≠ .dma then
    throw (.host "Disc-Ladetransaktion besitzt eine ungueltige Writequelle.")
  if request.bytes.length > 2 ^ 32 - request.physicalDestination.toNat then
    throw (.host "Disc-Ladetransaktion ueberschreitet den Gastadressraum.")
  if request.bytes.length > uint32Max then
    throw (.host "Disc-Ladetransaktion ist nicht als 32-Bit-Bereich darstellbar.")
  if request.sourceRange.known then
    if request.sourceRange.byteCount ≠ request.bytes.length ∨
        request.sourceRange.byteCount > uint64Max - request.sourceRange.byteOffset then
      throw (.host "Disc-Ladetransaktion besitzt einen ungueltigen logischen Quellbereich.")
  else if request.sourceRange.byteOffset ≠ 0 ∨ request.sourceRange.byteCount ≠ 0 then
    throw (.host "Unbekannter Disc-Quellbereich darf keine geratenen Grenzen tragen.")
  if request.byteIdentity ≠ discLoadByteIdentity sha256 request.bytes then
    throw (.host "Disc-Ladetransaktion besitzt eine falsche Byteidentitaet.")

/-- The loop of `validate_disc_load_commit` from `cursor` on. -/
def validateCommittedRanges (request : DiscLoadRequest) :
    Nat → List DiscLoadCommittedRange → Except Fault Unit
  | cursor, [] =>
    if cursor ≠ request.bytes.length then
      .error (.host "Disc-Ladetransaktion hat nicht alle Bytes committed.")
    else .ok ()
  | cursor, range :: rest =>
    if cursor > request.bytes.length ∨ range.size = 0 ∨ range.sourceOffset ≠ cursor ∨
        range.size > request.bytes.length - cursor ∨ range.byteIdentity ≠
          discLoadByteIdentity sha256 (request.subspan range.sourceOffset range.size) ∨
        range.sourceRangeKnown ≠ request.sourceRange.known ∨ (range.sourceRangeKnown ∧
          range.sourceByteOffset ≠ request.sourceRange.byteOffset + cursor) ∨
        (!range.sourceRangeKnown ∧ range.sourceByteOffset ≠ 0) ∨
        (range.moduleActivated ∧ !range.executableBacking) ∨
        (range.moduleActivated ∧ range.exactModuleRetained) then
      .error (.host "Disc-Ladetransaktion besitzt ungueltige Commitbereiche.")
    else validateCommittedRanges request (cursor + range.size) rest

def validateDiscLoadCommit (request : DiscLoadRequest) (commit : DiscLoadCommit) :
    Except Fault Unit :=
  if commit.sequence ≠ request.sequence ∨ commit.route ≠ request.route ∨
      commit.guestDestination ≠ request.guestDestination ∨
      commit.physicalDestination ≠ request.physicalDestination ∨
      commit.writeSource ≠ request.writeSource ∨ commit.contentIdentity ≠ request.contentIdentity ∨
      commit.byteIdentity ≠ request.byteIdentity ∨ commit.sourceRange ≠ request.sourceRange ∨
      commit.committedBytes ≠ request.bytes.length ∨ commit.ranges.isEmpty then
    .error (.host "Disc-Ladetransaktion lieferte einen fremden Commitbeleg.")
  else validateCommittedRanges sha256 request 0 commit.ranges

/-! ## Admission of the ranges -/

/-- A range with its receipt fields and the mask of the bytes that change. -/
structure AdmittedRange where
  range : DiscLoadCommittedRange
  changedMask : List Bool

def AdmittedRange.changed (admitted : AdmittedRange) : Bool := admitted.changedMask.any id

/-- The first loop of `execute`, from `cursor` on. -/
def admitRanges (memory : Memory) (request : DiscLoadRequest) :
    Nat → List DiscLoadCommittedRange → Except Fault (List AdmittedRange)
  | cursor, [] =>
    if cursor ≠ request.bytes.length then
      .error (.host "Disc-Ladetransaktion deckt den Payload nicht vollstaendig ab.")
    else .ok []
  | cursor, range :: rest => do
    if cursor > request.bytes.length ∨ range.size = 0 ∨ range.sourceOffset ≠ cursor ∨
        range.size > request.bytes.length - cursor ∨
        range.targetPhysicalAddress.toNat + range.size > 2 ^ 32 ∨
        range.backingPhysicalAddress.toNat + range.size > 2 ^ 32 ∨
        !memory.isWritableLinearRange range.targetPhysicalAddress range.size then
      throw (.host
        "Disc-Ladetransaktion zielt nicht vollstaendig auf lineares schreibbares RAM.")
    if range.targetPhysicalAddress ≠
          canonicalPhysicalAddress (request.physicalDestination + BitVec.ofNat 32 cursor) ∨
        canonicalPhysicalAddress range.backingPhysicalAddress ≠ range.backingPhysicalAddress then
      throw (.host "Disc-Ladetransaktion besitzt eine inkonsistente Aliasabbildung.")
    let bytes := request.subspan range.sourceOffset range.size
    let previous ← memory.readBytes range.targetPhysicalAddress range.size
    let admitted : AdmittedRange :=
      { range := { range with
          byteIdentity := discLoadByteIdentity sha256 bytes
          sourceRangeKnown := request.sourceRange.known
          sourceByteOffset :=
            if request.sourceRange.known then request.sourceRange.byteOffset + cursor else 0 }
        changedMask := List.zipWith (fun before byte => decide (before ≠ byte)) previous bytes }
    let others ← admitRanges memory request (cursor + range.size) rest
    return admitted :: others

/-! ## Assembly of registered files -/

structure RegisteredSegment where
  start : Nat := 0
  stop : Nat := 0
  assemblyIndex : Nat := 0
  exactFullModuleRetained : Bool := false
  fullModuleActivated : Bool := false

structure PreparedAotUpdate where
  assemblyIndex : Nat
  targetBase : Option (BitVec 32)
  coverage : List AotCoverageInterval

/-- The part of a range that belongs to a registered file, in the bytes of the
disc. -/
def sourceIntersection (request : DiscLoadRequest) (descriptor : DiscLoadAotModuleDescriptor)
    (range : DiscLoadCommittedRange) : Option (Nat × Nat) :=
  let rangeBegin := request.sourceRange.byteOffset + range.sourceOffset
  let start := max rangeBegin descriptor.sourceByteOffset
  let stop := min (rangeBegin + range.size) (descriptor.sourceByteOffset + descriptor.byteSize)
  if start ≥ stop then none else some (start, stop)

/-- One assembly while the ranges go by. -/
structure AssemblyProgress where
  target : Option (BitVec 32)
  coverage : List AotCoverageInterval
  matching : Bool := false
  segments : List (List RegisteredSegment)

/-- The segment of an intersection, with what it leaves of target and coverage. -/
def AssemblyProgress.register (progress : AssemblyProgress) (rangeIndex : Nat)
    (segment : RegisteredSegment) (target : Option (BitVec 32))
    (coverage : List AotCoverageInterval) : AssemblyProgress :=
  { target := target, coverage := coverage, matching := true
    segments := progress.segments.modify rangeIndex (· ++ [segment]) }

/-- An active module that already holds the file at the candidate base. -/
def holdsFile (descriptor : DiscLoadAotModuleDescriptor) (candidate : BitVec 32)
    (module : ExecutableModule) : Bool :=
  module.active && decide (module.bytes.length = descriptor.byteSize) &&
    decide (canonicalPhysicalAddress module.guestStart = candidate) &&
    decide (module.contentIdentity = descriptor.contentIdentity) &&
    decide (module.byteIdentity = descriptor.byteIdentity) &&
    decide (module.nativeAotTemplateId = descriptor.templateId)

/-- One range of a request that loads bytes of the file. -/
def registerRange (modules : ExecutableModuleCatalog) (request : DiscLoadRequest)
    (descriptor : DiscLoadAotModuleDescriptor) (assemblyIndex : Nat)
    (progress : AssemblyProgress) (admitted : AdmittedRange × Nat) : AssemblyProgress :=
  let range := admitted.1.range
  if !range.executableBacking then progress
  else
    match sourceIntersection request descriptor range with
    | none => progress
    | some (start, stop) =>
      let rangeBegin := request.sourceRange.byteOffset + range.sourceOffset
      let relativeBegin := start - rangeBegin
      let relativeEnd := stop - rangeBegin
      let fileBegin := start - descriptor.sourceByteOffset
      let fileEnd := stop - descriptor.sourceByteOffset
      let segment : RegisteredSegment := ⟨relativeBegin, relativeEnd, assemblyIndex, false, false⟩
      let backing := range.backingPhysicalAddress.toNat + relativeBegin
      let candidateBase := backing - fileBegin
      if backing < fileBegin ∨ candidateBase > uint32Max ∨
          candidateBase + descriptor.byteSize > 2 ^ 32 then
        progress.register admitted.2 segment none []
      else
        let candidate := BitVec.ofNat 32 candidateBase
        let known := if progress.target.any (· ≠ candidate) then [] else progress.coverage
        let segmentSize := relativeEnd - relativeBegin
        let changedOverlap := ((admitted.1.changedMask.drop relativeBegin).take segmentSize).any id
        let retained := !changedOverlap && modules.modules.any fun module =>
          holdsFile descriptor candidate module &&
            module.materializable (BitVec.ofNat 32 backing) segmentSize &&
            decide (request.subspan (range.sourceOffset + relativeBegin) segmentSize =
              (module.bytes.drop fileBegin).take segmentSize)
        let current := if changedOverlap && coverageContains known fileBegin fileEnd then []
          else known
        let covered := addCoverage current fileBegin fileEnd
        let segment := { segment with exactFullModuleRetained := retained }
        if covered.length > maximumAotCoverageIntervals then
          progress.register admitted.2 segment none []
        else progress.register admitted.2 segment (some candidate) covered

/-- The bytes of the request over those of the memory. -/
def overlayFile (request : DiscLoadRequest) (descriptor : DiscLoadAotModuleDescriptor)
    (fullBytes : List (BitVec 8)) (admitted : AdmittedRange) : List (BitVec 8) :=
  match sourceIntersection request descriptor admitted.range with
  | none => fullBytes
  | some (start, stop) =>
    let fileOffset := start - descriptor.sourceByteOffset
    let requestOffset := start - request.sourceRange.byteOffset
    fullBytes.take fileOffset ++ request.subspan requestOffset (stop - start) ++
      fullBytes.drop (fileOffset + (stop - start))

/-- The module of a file that is complete in memory. -/
def fullModule (descriptor : DiscLoadAotModuleDescriptor) (target : BitVec 32)
    (fullBytes : List (BitVec 8)) : ExecutableModule :=
  { id := "disc-loaded-aot-" ++ descriptor.opaqueId ++ "-" ++ toString target.toNat
    sourceIdentity :=
      discLoadSourceIdentity sha256 descriptor.contentIdentity descriptor.byteIdentity
    contentIdentity := descriptor.contentIdentity
    byteIdentity := descriptor.byteIdentity
    nativeAotTemplateId := descriptor.templateId
    guestStart := target
    bytes := fullBytes
    activeExtents := [⟨0, descriptor.byteSize⟩]
    kind := .overlay
    executablePermission := true
    controlTransferPromotionAllowed := false
    rangeRoles := [⟨0, descriptor.byteSize, .runtimeMaterializable⟩] }

/-- What the preparation has gathered. -/
structure Staging where
  segments : List (List RegisteredSegment)
  pendingModules : List ExecutableModule := []
  catalogInvalidations : List (BitVec 32 × Nat) := []
  aotUpdates : List PreparedAotUpdate := []

/-- The outcome of a complete file: the target and coverage it leaves, whether
the catalog holds it already, and the module it activates. -/
structure FileOutcome where
  target : Option (BitVec 32)
  coverage : List AotCoverageInterval
  exactFullModule : Bool := false
  activated : Option ExecutableModule := none

def completeFile (memory : Memory) (modules : ExecutableModuleCatalog) (request : DiscLoadRequest)
    (ranges : List AdmittedRange) (descriptor : DiscLoadAotModuleDescriptor)
    (progress : AssemblyProgress) : Except Fault FileOutcome :=
  match progress.target with
  | none => .ok ⟨none, progress.coverage, false, none⟩
  | some target =>
    if progress.matching && decide (progress.coverage = [⟨0, descriptor.byteSize⟩]) &&
        memory.isWritableLinearRange target descriptor.byteSize then do
      let current ← memory.readBytes target descriptor.byteSize
      let fullBytes := ranges.foldl (overlayFile request descriptor) current
      if discLoadByteIdentity sha256 fullBytes ≠ descriptor.byteIdentity then
        return ⟨none, [], false, none⟩
      let exactFullModule := modules.modules.any fun existing =>
        holdsFile descriptor target existing &&
          decide (existing.activeExtents = [⟨0, descriptor.byteSize⟩]) &&
          decide (existing.bytes = fullBytes)
      return ⟨some target, progress.coverage, exactFullModule,
        if exactFullModule then none else some (fullModule sha256 descriptor target fullBytes)⟩
    else .ok ⟨some target, progress.coverage, false, none⟩

/-- A range that reaches the file's target from elsewhere. -/
def foreignRange (descriptor : DiscLoadAotModuleDescriptor) (assemblyIndex : Nat)
    (target : BitVec 32) (segments : List RegisteredSegment) (range : DiscLoadCommittedRange) :
    Bool := rangesOverlapping target.toNat (target.toNat + descriptor.byteSize)
      range.backingPhysicalAddress.toNat (range.backingPhysicalAddress.toNat + range.size) &&
    !segments.any fun segment => decide (segment.assemblyIndex = assemblyIndex)

/-- The request loads bytes of the disc that belong to the file. -/
def loadsFrom (request : DiscLoadRequest) (descriptor : DiscLoadAotModuleDescriptor) : Bool :=
  request.sourceRange.known && rangesOverlapping request.sourceRange.byteOffset
      (request.sourceRange.byteOffset + request.sourceRange.byteCount)
      descriptor.sourceByteOffset (descriptor.sourceByteOffset + descriptor.byteSize)

/-- Target, coverage and segments of an assembly behind the ranges. -/
def loadFile (modules : ExecutableModuleCatalog) (request : DiscLoadRequest)
    (ranges : List AdmittedRange) (segments : List (List RegisteredSegment))
    (assembly : AotAssembly × Nat) : AssemblyProgress :=
  let before : AssemblyProgress :=
    { target := assembly.1.targetBase, coverage := assembly.1.coverage, segments := segments }
  if !loadsFrom request assembly.1.descriptor then before
  else if request.contentIdentity ≠ assembly.1.descriptor.contentIdentity then
    { before with target := none, coverage := [] }
  else
    ranges.zipIdx.foldl (registerRange modules request assembly.1.descriptor assembly.2) before

/-- The loop over the assemblies, one of them. -/
def assembleFile (memory : Memory) (modules : ExecutableModuleCatalog) (request : DiscLoadRequest)
    (ranges : List AdmittedRange) (staging : Staging) (assembly : AotAssembly × Nat) :
    Except Fault Staging := do
  let descriptor := assembly.1.descriptor
  let loaded := loadFile modules request ranges staging.segments assembly
  let foreign := loaded.target.any fun target =>
    (ranges.zip loaded.segments).any fun (admitted, segments) =>
      foreignRange descriptor assembly.2 target segments admitted.range
  let kept := if foreign then { loaded with target := none, coverage := [] } else loaded
  let outcome ← completeFile sha256 memory modules request ranges descriptor kept
  let segments := kept.segments.map fun segments => segments.map fun segment =>
    if segment.assemblyIndex = assembly.2 then
      { segment with
        exactFullModuleRetained := segment.exactFullModuleRetained || outcome.exactFullModule
        fullModuleActivated := outcome.activated.isSome }
    else segment
  return {
    segments := segments
    pendingModules := staging.pendingModules ++ outcome.activated.toList
    catalogInvalidations := staging.catalogInvalidations ++
      outcome.activated.toList.map fun module => (module.guestStart, descriptor.byteSize)
    aotUpdates := if loadsFrom request descriptor || foreign then
      staging.aotUpdates ++ [⟨assembly.2, outcome.target, outcome.coverage⟩]
      else staging.aotUpdates }

/-! ## Segments of the ranges -/

/-- The segments of one range while its cuts go by. -/
structure SegmentStaging where
  pendingModules : List ExecutableModule
  catalogInvalidations : List (BitVec 32 × Nat)
  moduleActivated : Bool := false
  allRetained : Bool := true

/-- The module of a segment that no registered file covers. -/
def loadedModule (request : DiscLoadRequest) (name : String) (address : BitVec 32)
    (bytes : List (BitVec 8)) : ExecutableModule :=
  { id := "gdrom-load-" ++ name
    sourceIdentity := discLoadSourceIdentity sha256 request.contentIdentity
      (discLoadByteIdentity sha256 bytes)
    contentIdentity := request.contentIdentity
    byteIdentity := discLoadByteIdentity sha256 bytes
    guestStart := address
    bytes := bytes
    kind := .overlay
    executablePermission := false
    controlTransferPromotionAllowed := true
    rangeRoles := [⟨0, bytes.length, .provenData⟩] }

/-- The module of a segment of a registered file that is not complete. -/
def pendingModule (request : DiscLoadRequest) (descriptor : DiscLoadAotModuleDescriptor)
    (name : String) (address : BitVec 32) (bytes : List (BitVec 8)) : ExecutableModule :=
  { id := "disc-pending-aot-" ++ descriptor.opaqueId ++ "-" ++ name
    sourceIdentity := discLoadSourceIdentity sha256 request.contentIdentity
      (discLoadByteIdentity sha256 bytes)
    contentIdentity := request.contentIdentity
    byteIdentity := discLoadByteIdentity sha256 bytes
    nativeAotTemplateId := descriptor.templateId
    guestStart := address
    bytes := bytes
    kind := .overlay
    executablePermission := true
    controlTransferPromotionAllowed := false
    rangeRoles := [⟨0, bytes.length, .runtimeMaterializable⟩] }

/-- One segment between two cuts. -/
def stageSegment (memory : Memory) (modules : ExecutableModuleCatalog) (request : DiscLoadRequest)
    (assemblies : List AotAssembly) (range : DiscLoadCommittedRange) (rangeIndex : Nat)
    (registered : List RegisteredSegment) (staging : SegmentStaging)
    (cut : (Nat × Nat) × Nat) : Except Fault SegmentStaging :=
  let start := cut.1.1
  let stop := cut.1.2
  let size := stop - start
  let bytes := request.subspan (range.sourceOffset + start) size
  let address := range.backingPhysicalAddress + BitVec.ofNat 32 start
  let name := toString request.sequence ++ "-" ++ toString rangeIndex ++ "-" ++ toString cut.2
  match registered.find? fun segment =>
    decide (segment.start ≤ start) && decide (stop ≤ segment.stop) with
  | some segment =>
    let activated := staging.moduleActivated || segment.fullModuleActivated
    if segment.exactFullModuleRetained then .ok { staging with moduleActivated := activated }
    else
      let replaced := { staging with
        moduleActivated := activated
        allRetained := false
        catalogInvalidations := staging.catalogInvalidations ++ [(address, size)] }
      if segment.fullModuleActivated then .ok replaced
      else
        match assemblies[segment.assemblyIndex]? with
        -- a segment names an assembly, so this is not reached
        | none => .ok replaced
        | some assembly => .ok { replaced with
            moduleActivated := true
            pendingModules := staging.pendingModules ++
              [pendingModule sha256 request assembly.descriptor name address bytes] }
  | none => do
    let exact ←
      match modules.resolve address size with
      | none => .ok false
      | some existing =>
        if existing.nativeAotTemplateId.isEmpty ∧
            existing.contentIdentity = request.contentIdentity ∧
            existing.byteIdentity = discLoadByteIdentity sha256 bytes then
          modules.validateBytesAt memory address
            (range.targetPhysicalAddress + BitVec.ofNat 32 start) size
        else .ok false
    if exact then return staging
    return {
      pendingModules := staging.pendingModules ++ [loadedModule sha256 request name address bytes]
      catalogInvalidations := staging.catalogInvalidations ++ [(address, size)]
      moduleActivated := true
      allRetained := false }

/-- A range with its verdicts. -/
structure StagedRange where
  admitted : AdmittedRange
  moduleActivated : Bool := false
  retained : Bool := false

/-- The loop over the executable ranges. -/
def stageRanges (memory : Memory) (modules : ExecutableModuleCatalog) (request : DiscLoadRequest)
    (assemblies : List AotAssembly) (pendingModules : List ExecutableModule)
    (catalogInvalidations : List (BitVec 32 × Nat)) :
    List ((AdmittedRange × List RegisteredSegment) × Nat) →
      Except Fault (List StagedRange × List ExecutableModule × List (BitVec 32 × Nat))
  | [] => .ok ([], pendingModules, catalogInvalidations)
  | ((admitted, registered), index) :: rest =>
    let range := admitted.range
    if !range.executableBacking then do
      let (staged, modules', invalidations) ← stageRanges memory modules request assemblies
        pendingModules catalogInvalidations rest
      return (⟨admitted, false, false⟩ :: staged, modules', invalidations)
    else if range.backingPhysicalAddress &&& 1 ≠ 0 then
      .error (.host "Ausfuehrbarer Disc-Ladebereich ist nicht SH-4-ausgerichtet.")
    else do
      let cuts := sortedUnique
        ([0, range.size] ++ registered.flatMap fun segment => [segment.start, segment.stop])
      let segments ← (cuts.zip cuts.tail).zipIdx.foldlM
        (stageSegment sha256 memory modules request assemblies range index registered)
        ⟨pendingModules, catalogInvalidations, false, true⟩
      let (staged, modules', invalidations) ← stageRanges memory modules request assemblies
        segments.pendingModules segments.catalogInvalidations rest
      return (⟨admitted, segments.moduleActivated, segments.allRetained⟩ :: staged, modules',
        invalidations)

/-! ## Commit -/

/-- A range of the memory commit, with the bytes to write and those to restore. -/
structure MemoryWrite where
  address : BitVec 32
  bytes : List (BitVec 8)
  previous : List (BitVec 8)
  changedMask : List Bool

/-- `read_previous_bytes`, range by range. -/
def readPrevious (memory : Memory) (request : DiscLoadRequest) (staged : StagedRange) :
    Except Fault MemoryWrite := do
  let range := staged.admitted.range
  let previous ← memory.readBytes range.targetPhysicalAddress range.size
  return ⟨range.targetPhysicalAddress, request.subspan range.sourceOffset range.size, previous,
    staged.admitted.changedMask⟩

/-- The ranges written so far, the last one first, take their bytes back. -/
def rollback (memory : Memory) (done : List MemoryWrite) : Memory :=
  done.foldl (fun memory write => (memory.commitPrevalidatedLinearTransactionBytes write.address
    write.previous write.changedMask).getD memory) memory

/-- The memory after the ranges, and whether all of them were written. -/
def commitMemory (memory : Memory) (done : List MemoryWrite) : List MemoryWrite → Memory × Bool
  | [] => (memory, true)
  | write :: rest =>
    match memory.commitPrevalidatedLinearTransactionBytes write.address write.bytes
        write.changedMask with
    | some memory' => commitMemory memory' (write :: done) rest
    | none => (rollback memory done, false)

structure PreparedCodeCommit where
  tracker : ExecutableCodeTracker.PreparedDiscLoadWrite
  blocks : RuntimeBlockTable.PreparedDiscLoadInvalidation

/-- The plans for the ranges whose code the tracker knows. -/
def prepareCode (tracker : ExecutableCodeTracker) (blocks : RuntimeBlockTable)
    (request : DiscLoadRequest) : List StagedRange → Except Fault (List PreparedCodeCommit)
  | [] => .ok []
  | staged :: rest => do
    let range := staged.admitted.range
    let semanticChange := staged.admitted.changed || (range.executableBacking && !staged.retained)
    if !semanticChange || !tracker.tracksAddress range.backingPhysicalAddress range.size then
      prepareCode tracker blocks request rest
    else
      let plan ← (tracker.prepareDiscLoadWrite range.backingPhysicalAddress range.size
        request.writeSource true).mapError .host
      let others ← prepareCode tracker blocks request rest
      return ⟨plan, blocks.prepareDiscLoadInvalidation range.backingPhysicalAddress range.size⟩ ::
        others

/-- `none` where the source terminates. -/
def commitCode (stores : ExecutableCodeTracker × RuntimeBlockTable) (plan : PreparedCodeCommit) :
    Option (ExecutableCodeTracker × RuntimeBlockTable) :=
  (stores.1.commitDiscLoadWrite plan.tracker).map fun tracker =>
    (tracker, stores.2.commitDiscLoadInvalidation plan.blocks)

def applyAotUpdate (assemblies : List AotAssembly) (update : PreparedAotUpdate) :
    List AotAssembly := assemblies.modify update.assemblyIndex fun assembly =>
    { assembly with targetBase := update.targetBase, coverage := update.coverage }

/-- The receipt of a range. -/
def StagedRange.receipt (staged : StagedRange) : DiscLoadCommittedRange :=
  if !staged.admitted.range.executableBacking || staged.retained then
    { staged.admitted.range with exactModuleRetained := staged.retained }
  else { staged.admitted.range with moduleActivated := staged.moduleActivated }

def StagedRange.rebound (staged : StagedRange) : Bool :=
  staged.admitted.range.executableBacking && !staged.retained && staged.moduleActivated &&
    !staged.admitted.changed

def discLoadCommit (request : DiscLoadRequest) (staged : List StagedRange) : DiscLoadCommit :=
  { sequence := request.sequence
    route := request.route
    guestDestination := request.guestDestination
    physicalDestination := request.physicalDestination
    writeSource := request.writeSource
    contentIdentity := request.contentIdentity
    byteIdentity := request.byteIdentity
    sourceRange := request.sourceRange
    committedBytes := request.bytes.length
    ranges := staged.map (·.receipt)
    bytesChanged := staged.any (·.admitted.changed)
    identityRebound := staged.any (·.rebound) }

/-! ## The transaction -/

namespace DiscLoadCoordinator
variable (rangeResolver : BitVec 32 → Nat → Except Fault (List DiscLoadCommittedRange))
  (admissionObserver : DiscLoadRequest → List DiscLoadCommittedRange → Except Fault Unit)
  (coordinator : DiscLoadCoordinator)

/-- Everything a transaction decides before it touches a store. -/
structure Staged where
  ranges : List StagedRange
  writes : List MemoryWrite
  pendingModules : List ExecutableModule
  catalogInvalidations : List (BitVec 32 × Nat)
  aotUpdates : List PreparedAotUpdate

def stage (request : DiscLoadRequest) : Except Fault Staged := do
  if coordinator.pendingWrite then
    throw (.host "Verschachtelte Disc-Ladetransaktion ist nicht erlaubt.")
  let resolved ← rangeResolver request.physicalDestination request.bytes.length
  if resolved.isEmpty then
    throw (.host "Disc-Ladetransaktion besitzt keinen committed Zielbereich.")
  let admitted ← admitRanges sha256 coordinator.memory request 0 resolved
  let staging ← coordinator.aotAssemblies.zipIdx.foldlM
    (assembleFile sha256 coordinator.memory coordinator.modules request admitted)
    { segments := List.replicate admitted.length [] }
  let (ranges, pendingModules, catalogInvalidations) ← stageRanges sha256 coordinator.memory
    coordinator.modules request coordinator.aotAssemblies staging.pendingModules
    staging.catalogInvalidations (admitted.zip staging.segments).zipIdx
  let writes ← ranges.mapM (readPrevious coordinator.memory request)
  return ⟨ranges, writes, pendingModules, catalogInvalidations, staging.aotUpdates⟩

/-- The plan of the catalog, if it changes, and the catalog that has reserved for it. -/
def prepareModules (staged : Staged) :
    Except Fault (Option ExecutableModuleCatalog.PreparedDiscLoadCatalog ×
      ExecutableModuleCatalog) :=
  if staged.catalogInvalidations.isEmpty then .ok (none, coordinator.modules)
  else
    (coordinator.modules.prepareDiscLoadCatalog staged.pendingModules
      staged.catalogInvalidations).map fun (plan, modules) => (some plan, modules)

/-- The plans of tracker and block table, and the last admission. -/
def prepareStores (request : DiscLoadRequest) (staged : Staged) :
    Except Fault (List PreparedCodeCommit) := do
  let plans ← prepareCode coordinator.tracker coordinator.blocks request staged.ranges
  admissionObserver request (staged.ranges.map (·.admitted.range))
  return plans

/-- The reserved pages of a plan go again. -/
def cancelModules (modules : ExecutableModuleCatalog)
    (plan : Option ExecutableModuleCatalog.PreparedDiscLoadCatalog) : ExecutableModuleCatalog :=
  plan.elim modules modules.cancelDiscLoadCatalog

/-- The catalog, tracker, block table and assemblies after the memory is written. -/
def commitStores (modules : ExecutableModuleCatalog)
    (plan : Option ExecutableModuleCatalog.PreparedDiscLoadCatalog)
    (code : List PreparedCodeCommit) (staged : Staged) : Option DiscLoadCoordinator := do
  let modules ← plan.elim (some modules) modules.commitDiscLoadCatalog
  let (tracker, blocks) ← code.foldlM commitCode (coordinator.tracker, coordinator.blocks)
  return { coordinator with
    modules := modules
    tracker := tracker
    blocks := blocks
    aotAssemblies := staged.aotUpdates.foldl applyAotUpdate coordinator.aotAssemblies }

/-- `execute` behind the staging. -/
def commitStaged (request : DiscLoadRequest) (staged : Staged) :
    Option (Except Fault DiscLoadCommit × DiscLoadCoordinator) :=
  match coordinator.prepareModules staged with
  | .error fault => some (.error fault, coordinator)
  | .ok (plan, modules) =>
    match coordinator.prepareStores admissionObserver request staged with
    | .error fault =>
      some (.error fault, { coordinator with modules := cancelModules modules plan })
    | .ok code =>
      match commitMemory coordinator.memory [] staged.writes with
      | (memory, false) => some (.error (.host
          "Vorvalidierter linearer Disc-Ladebereich verlor vor dem Commit sein Backing."),
          { coordinator with memory := memory, modules := cancelModules modules plan })
      | (memory, true) =>
        (commitStores { coordinator with memory := memory } modules plan code staged).map
          fun committed =>
            let commit := discLoadCommit request staged.ranges
            match validateDiscLoadCommit sha256 request commit with
            | .error fault => (.error fault, committed)
            | .ok () => (.ok commit, committed)

/-- `none` where the source terminates. -/
def execute (request : DiscLoadRequest) :
    Option (Except Fault DiscLoadCommit × DiscLoadCoordinator) :=
  match validateRequest sha256 request with
  | .error fault => some (.error fault, coordinator)
  | .ok () =>
    let started := { coordinator with transactionStarted := true }
    match started.stage sha256 rangeResolver request with
    | .error fault => some (.error fault, started)
    | .ok staged => started.commitStaged sha256 admissionObserver request staged

end DiscLoadCoordinator
end
end KatanaRecomp.Runtime
