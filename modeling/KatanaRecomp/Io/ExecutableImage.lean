import KatanaRecomp.Lib.ByteFormat
import KatanaRecomp.Lib.StateExcept

/-! # The executable image

An image is a list of segments with entry points, symbols, relocations, address
aliases and immutable ranges. Analyses cache their results under the pair of
instance identity and revision, so every change has to move that pair. In the
direct-mapped model the addresses below `0xE0000000` that agree in their low 29
bits are one physical address, and the layout has to keep its owner unique.
Sizes and ends are 64-bit numbers and wrap as in the source. Segment fields that
nothing here reads (kind, load phase, local name) are left out, as are the
permissions other than `readable`. -/
namespace KatanaRecomp.Io.ExecutableImage
open Lib ByteFormat

def addressSpaceSize : Nat := 0x100000000

def sh4DirectWindowSize : Nat := 0x20000000

def sh4DirectAddressLimit : Nat := 0xE0000000

def uint64Max : Nat := 2 ^ 64 - 1

inductive ImageSourceKind
  | unknown | rawBinary | elfLoadSegment | discBootFile | discModule | runtimeMemory
  deriving DecidableEq

inductive RelocationKind
  | none | absolute32 | pcRelative32 | unsupported
  deriving DecidableEq

inductive GuestCallAbi
  | unknown | superHC
  deriving DecidableEq

inductive InitialSnapshotPolicy
  | immutableOnly | entryPointStraightLineQuiescent
  deriving DecidableEq

inductive ImageAddressModel
  | exact | sh4DirectMapped
  /-- A value of the enumeration without a name. -/
  | unknown
  deriving DecidableEq

structure ImageSegment where
  name : String
  virtualAddress : BitVec 32
  fileOffset : BitVec 64 := 0
  memorySize : BitVec 64
  readable : Bool := false
  bytes : List Byte
  sourceKind : ImageSourceKind := .unknown
  latentSourceSize : BitVec 64 := 0
  deriving DecidableEq

structure ImageSymbol where
  name : String
  address : BitVec 32
  size : BitVec 32 := 0
  deriving DecidableEq

structure ImageRelocation where
  address : BitVec 32
  rawType : BitVec 32
  kind : RelocationKind := .unsupported
  symbolName : String := ""
  symbolAddress : BitVec 32 := 0
  addend : BitVec 32 := 0
  appliedValue : Option (BitVec 32) := none
  deriving DecidableEq

structure ImageAddressAlias where
  sourceStart : BitVec 32
  runtimeStart : BitVec 32
  size : BitVec 64
  deriving DecidableEq

structure ImageImmutableRange where
  address : BitVec 32
  size : BitVec 64
  identity : String
  generation : Nat := 0
  deriving DecidableEq

inductive ImageError
  | segmentName | segmentEmpty | segmentBytes | segmentLatent | segmentAddressSpace | segmentFile
  | segmentOverlap (existing segment : String)
  | segmentAlias
  | windowBoundary | physicalSpace | ambiguousSegments | segmentShadowsAlias | aliasShadowsSegment
  | ambiguousAliases
  | symbolName
  | symbolTwice (name : String)
  | aliasEmpty | aliasAddressSpace | aliasSource | aliasSegment | aliasSourceOverlap
  | aliasRuntimeOverlap
  | rangeEmpty | rangeAddressSpace | rangeSegment | rangeOverlap
  | unknownModel
  | bytesUncommitted | bytesOutside | wordUncommitted | wordOutside

/-! ## Ranges -/

/-- The end of a range as a 64-bit number. -/
def endOf (start : BitVec 32) (size : BitVec 64) : Nat := (start.toNat + size.toNat) % 2 ^ 64

def rangesOverlap (firstBegin firstEnd secondBegin secondEnd : Nat) : Bool :=
  firstBegin < secondEnd && secondBegin < firstEnd

/-- The low 29 bits. -/
def physicalAddress (address : BitVec 32) : Nat := address.toNat % 2 ^ 29

namespace ImageSegment

def endAddress (segment : ImageSegment) : Nat := endOf segment.virtualAddress segment.memorySize

def contains (segment : ImageSegment) (address : BitVec 32) (width : BitVec 64) : Bool :=
  width != 0 && segment.virtualAddress.toNat ≤ address.toNat &&
    address.toNat ≤ endOf address width && endOf address width ≤ segment.endAddress

def byteOffset (segment : ImageSegment) (address : BitVec 32) : Option Nat :=
  if !segment.contains address 1 then none
  else if address.toNat - segment.virtualAddress.toNat ≥ segment.bytes.length then none
  else some (address.toNat - segment.virtualAddress.toNat)

def sourceSize (segment : ImageSegment) : Nat :=
  if segment.latentSourceSize = 0 then segment.bytes.length else segment.latentSourceSize.toNat

end ImageSegment

def ImageAddressAlias.sourceEnd (placement : ImageAddressAlias) : Nat :=
  endOf placement.sourceStart placement.size

def ImageAddressAlias.runtimeEnd (placement : ImageAddressAlias) : Nat :=
  endOf placement.runtimeStart placement.size

/-! ## Unique physical owners -/

def sh4PhysicalRange (start : BitVec 32) (size : BitVec 64) :
    Except ImageError (Option (Nat × Nat)) :=
  if size = 0 ∨ start.toNat ≥ sh4DirectAddressLimit then .ok none
  else if endOf start size > sh4DirectAddressLimit ∨
      start.toNat / 2 ^ 29 ≠ (endOf start size + 2 ^ 64 - 1) % 2 ^ 64 % 2 ^ 32 / 2 ^ 29 then
    .error .windowBoundary
  else if (physicalAddress start + size.toNat) % 2 ^ 64 > sh4DirectWindowSize then
    .error .physicalSpace
  else .ok (some (physicalAddress start, (physicalAddress start + size.toNat) % 2 ^ 64))

/-- The comparison of one owner with another range, which may have no physical address. -/
def requireApart (error : ImageError) (physical : Nat × Nat) (start : BitVec 32)
    (size : BitVec 64) : Except ImageError Unit := do
  match ← sh4PhysicalRange start size with
  | none => .ok ()
  | some other =>
    if rangesOverlap physical.1 physical.2 other.1 other.2 then .error error else .ok ()

def requireSh4UniqueSegment (candidate : ImageSegment) (segments : List ImageSegment)
    (aliases : List ImageAddressAlias) : Except ImageError Unit := do
  match ← sh4PhysicalRange candidate.virtualAddress candidate.memorySize with
  | none => .ok ()
  | some physical =>
    segments.forM fun existing =>
      requireApart .ambiguousSegments physical existing.virtualAddress existing.memorySize
    aliases.forM fun placement =>
      requireApart .segmentShadowsAlias physical placement.runtimeStart placement.size

def requireSh4UniqueAlias (candidate : ImageAddressAlias) (segments : List ImageSegment)
    (aliases : List ImageAddressAlias) : Except ImageError Unit := do
  let _ ← sh4PhysicalRange candidate.sourceStart candidate.size
  match ← sh4PhysicalRange candidate.runtimeStart candidate.size with
  | none => .ok ()
  | some runtime =>
    segments.forM fun segment =>
      requireApart .aliasShadowsSegment runtime segment.virtualAddress segment.memorySize
    aliases.forM fun placement =>
      requireApart .ambiguousAliases runtime placement.runtimeStart placement.size

/-- Every element is checked against those before it. -/
def requireEach {α : Type} (require : α → List α → Except ImageError Unit) (before : List α) :
    List α → Except ImageError Unit
  | [] => .ok ()
  | item :: rest => do
    require item before
    requireEach require (before ++ [item]) rest

def requireSh4UniqueLayout (segments : List ImageSegment) (aliases : List ImageAddressAlias) :
    Except ImageError Unit := do
  requireEach (fun segment before => requireSh4UniqueSegment segment before aliases) [] segments
  requireEach (fun placement before => requireSh4UniqueAlias placement segments before) [] aliases

/-! ## The image -/

structure Image where
  segments : List ImageSegment := []
  entryPoints : List (BitVec 32) := []
  symbols : List ImageSymbol := []
  relocations : List ImageRelocation := []
  addressAliases : List ImageAddressAlias := []
  immutableRanges : List ImageImmutableRange := []
  guestCallAbi : GuestCallAbi := .unknown
  initialSnapshotPolicy : InitialSnapshotPolicy := .immutableOnly
  initialSnapshotEntry : Option (BitVec 32) := none
  addressModel : ImageAddressModel := .exact
  analysisInstanceIdentity : Nat := 0
  analysisRevision : Nat := 0
  immutableGeneration : Nat := 1
  deriving DecidableEq

/-- An image and the process-wide counter of identities. -/
structure Live where
  nextIdentity : Nat
  image : Image

abbrev ImageM := EStateM ImageError Live

/-- `fetch_add` on a 64-bit counter; zero is not an identity. The second number is the new
counter, which counts without a wrap here. -/
def allocateExecutableImageIdentity (nextIdentity : Nat) : Nat × Nat :=
  if nextIdentity % 2 ^ 64 = 0 then ((nextIdentity + 1) % 2 ^ 64, nextIdentity + 2)
  else (nextIdentity % 2 ^ 64, nextIdentity + 1)

def Live.markRootSetMutation (live : Live) : Live :=
  if live.image.analysisRevision = uint64Max then
    let allocated := allocateExecutableImageIdentity live.nextIdentity
    { nextIdentity := allocated.2
      image :=
        { live.image with analysisInstanceIdentity := allocated.1, analysisRevision := 0 } }
  else
    { live with image := { live.image with analysisRevision := live.image.analysisRevision + 1 } }

def Live.markAnalysisMutation (live : Live) : Live := Live.markRootSetMutation
    { live with
      image :=
        { live.image with
          immutableRanges := []
          immutableGeneration :=
            if live.image.immutableGeneration = uint64Max then 1
            else live.image.immutableGeneration + 1 } }

/-- Change the image in place. -/
def edit (f : Image → Image) : ImageM Unit := modify fun live => { live with image := f live.image }

namespace Image

def findSegment (image : Image) (address : BitVec 32) (width : BitVec 64) : Option ImageSegment :=
  image.segments.find? fun segment => segment.contains address width

def findSymbol (image : Image) (name : String) : Option ImageSymbol :=
  image.symbols.find? fun symbol => symbol.name == name

/-! ## Segments -/

def overlapping (image : Image) (segment : ImageSegment) : Option ImageSegment :=
  image.segments.find? fun existing =>
    rangesOverlap segment.virtualAddress.toNat segment.endAddress existing.virtualAddress.toNat
      existing.endAddress

/-- The checks of `add_segment`. -/
def checkSegment (image : Image) (segment : ImageSegment) : Except ImageError Unit :=
  if segment.name.isEmpty then .error .segmentName
  else if segment.memorySize = 0 then .error .segmentEmpty
  else if segment.memorySize.toNat < segment.bytes.length then .error .segmentBytes
  else if segment.latentSourceSize ≠ 0 ∧ (segment.latentSourceSize.toNat < segment.bytes.length ∨
        segment.latentSourceSize.toNat > segment.memorySize.toNat) then
    .error .segmentLatent
  else if segment.endAddress > addressSpaceSize then .error .segmentAddressSpace
  else if segment.fileOffset.toNat > uint64Max - segment.sourceSize then .error .segmentFile
  else match image.overlapping segment with
    | some existing => .error (.segmentOverlap existing.name segment.name)
    | none =>
      if image.addressAliases.any fun placement =>
          rangesOverlap segment.virtualAddress.toNat segment.endAddress
            placement.runtimeStart.toNat placement.runtimeEnd then
        .error .segmentAlias
      else if image.addressModel = .sh4DirectMapped then
        requireSh4UniqueSegment segment image.segments image.addressAliases
      else .ok ()

end Image

/-- The order of `std::sort` on segments. -/
def ImageSegment.notAbove (first second : ImageSegment) : Prop :=
  first.virtualAddress.toNat ≤ second.virtualAddress.toNat

instance : DecidableRel ImageSegment.notAbove := fun first second =>
  inferInstanceAs (Decidable (first.virtualAddress.toNat ≤ second.virtualAddress.toNat))

def addSegment (segment : ImageSegment) : ImageM Unit := do
  let live ← get
  ofChecked (live.image.checkSegment segment)
  edit fun image => { image with segments := image.segments ++ [segment] }
  edit fun image => { image with segments := image.segments.insertionSort ImageSegment.notAbove }
  modify Live.markAnalysisMutation

/-! ## Roots, symbols, relocations -/

def addressNotAbove (first second : BitVec 32) : Prop := first.toNat ≤ second.toNat

instance : DecidableRel addressNotAbove := fun first second =>
  inferInstanceAs (Decidable (first.toNat ≤ second.toNat))

def addEntryPoint (address : BitVec 32) : ImageM Unit := do
  let live ← get
  if address ∈ live.image.entryPoints then pure ()
  else do
    edit fun image => { image with entryPoints := image.entryPoints ++ [address] }
    edit fun image => { image with entryPoints := image.entryPoints.insertionSort addressNotAbove }
    modify Live.markRootSetMutation

def replaceEntryPoints (addresses : List (BitVec 32)) : ImageM Unit := do
  let live ← get
  let replacement := (addresses.insertionSort addressNotAbove).dedup
  if replacement = live.image.entryPoints then pure ()
  else do
    edit fun image => { image with entryPoints := replacement }
    modify Live.markRootSetMutation

/-- By address, then by name. -/
def ImageSymbol.notAbove (first second : ImageSymbol) : Prop :=
  first.address.toNat < second.address.toNat ∨
    first.address = second.address ∧ ¬ second.name < first.name

instance : DecidableRel ImageSymbol.notAbove := fun first second =>
  inferInstanceAs (Decidable (first.address.toNat < second.address.toNat ∨
    first.address = second.address ∧ ¬ second.name < first.name))

def addSymbol (symbol : ImageSymbol) : ImageM Unit := do
  let live ← get
  if symbol.name.isEmpty then throw .symbolName
  else if (live.image.findSymbol symbol.name).isSome then throw (.symbolTwice symbol.name)
  else do
    edit fun image => { image with symbols := image.symbols ++ [symbol] }
    edit fun image => { image with symbols := image.symbols.insertionSort ImageSymbol.notAbove }
    modify Live.markAnalysisMutation

/-- By address, then by type; relocations that agree in both may stand in any order. -/
def ImageRelocation.notAbove (first second : ImageRelocation) : Prop :=
  first.address.toNat < second.address.toNat ∨
    first.address = second.address ∧ first.rawType.toNat ≤ second.rawType.toNat

instance : DecidableRel ImageRelocation.notAbove := fun first second =>
  inferInstanceAs (Decidable (first.address.toNat < second.address.toNat ∨
    first.address = second.address ∧ first.rawType.toNat ≤ second.rawType.toNat))

def addRelocation (relocation : ImageRelocation) : ImageM Unit := do
  edit fun image => { image with relocations := image.relocations ++ [relocation] }
  edit fun image =>
    { image with relocations := image.relocations.insertionSort ImageRelocation.notAbove }
  modify Live.markAnalysisMutation

/-! ## Aliases and immutable ranges -/

/-- The source lies in the committed bytes of the segment that its first address is in. -/
def Image.committed (image : Image) (placement : ImageAddressAlias) : Bool :=
  match image.findSegment placement.sourceStart 1 with
  | none => false
  | some segment => placement.sourceEnd ≤ segment.virtualAddress.toNat + segment.bytes.length

/-- The comparison of a new alias with one that exists. -/
def checkAliasPair (placement existing : ImageAddressAlias) : Except ImageError Unit :=
  if rangesOverlap placement.sourceStart.toNat placement.sourceEnd existing.sourceStart.toNat
      existing.sourceEnd then
    .error .aliasSourceOverlap
  else if rangesOverlap placement.runtimeStart.toNat placement.runtimeEnd existing.runtimeStart.toNat
      existing.runtimeEnd then
    .error .aliasRuntimeOverlap
  else .ok ()

/-- The checks of `add_address_alias`. -/
def Image.checkAlias (image : Image) (placement : ImageAddressAlias) : Except ImageError Unit :=
  if placement.size = 0 then .error .aliasEmpty
  else if placement.sourceEnd > addressSpaceSize ∨ placement.runtimeEnd > addressSpaceSize then
    .error .aliasAddressSpace
  else if !image.committed placement then .error .aliasSource
  else if image.segments.any fun segment =>
      rangesOverlap placement.runtimeStart.toNat placement.runtimeEnd segment.virtualAddress.toNat
        segment.endAddress then
    .error .aliasSegment
  else do
    image.addressAliases.forM (checkAliasPair placement)
    if image.addressModel = .sh4DirectMapped then
      requireSh4UniqueAlias placement image.segments image.addressAliases
    else .ok ()

/-- By runtime address, then by source address. -/
def ImageAddressAlias.notAbove (first second : ImageAddressAlias) : Prop :=
  first.runtimeStart.toNat < second.runtimeStart.toNat ∨ first.runtimeStart = second.runtimeStart ∧
      first.sourceStart.toNat ≤ second.sourceStart.toNat

instance : DecidableRel ImageAddressAlias.notAbove := fun first second =>
  inferInstanceAs (Decidable (first.runtimeStart.toNat < second.runtimeStart.toNat ∨
    first.runtimeStart = second.runtimeStart ∧ first.sourceStart.toNat ≤ second.sourceStart.toNat))

def addAddressAlias (placement : ImageAddressAlias) : ImageM Unit := do
  let live ← get
  ofChecked (live.image.checkAlias placement)
  edit fun image => { image with addressAliases := image.addressAliases ++ [placement] }
  edit fun image =>
    { image with addressAliases := image.addressAliases.insertionSort ImageAddressAlias.notAbove }
  modify Live.markAnalysisMutation

/-- The range lies in the committed bytes of a readable segment that is not runtime memory. -/
def Image.immutableSource (image : Image) (range : ImageImmutableRange) : Bool :=
  match image.findSegment range.address range.size with
  | none => false
  | some segment =>
    segment.readable && segment.sourceKind != .runtimeMemory &&
      range.size.toNat ≤ segment.bytes.length &&
      range.address.toNat - segment.virtualAddress.toNat ≤ segment.bytes.length - range.size.toNat

/-- The checks of `add_immutable_range`. -/
def Image.checkImmutableRange (image : Image) (range : ImageImmutableRange) :
    Except ImageError Unit :=
  if range.size = 0 ∨ range.identity.isEmpty then .error .rangeEmpty
  else if endOf range.address range.size > addressSpaceSize then .error .rangeAddressSpace
  else if !image.immutableSource range then .error .rangeSegment
  else if image.immutableRanges.any fun existing =>
      rangesOverlap range.address.toNat (endOf range.address range.size) existing.address.toNat
        (endOf existing.address existing.size) then
    .error .rangeOverlap
  else .ok ()

def ImageImmutableRange.notAbove (first second : ImageImmutableRange) : Prop :=
  first.address.toNat ≤ second.address.toNat

instance : DecidableRel ImageImmutableRange.notAbove := fun first second =>
  inferInstanceAs (Decidable (first.address.toNat ≤ second.address.toNat))

/-- The revision moves as for a change of the root set, so the new range stays. -/
def addImmutableRange (range : ImageImmutableRange) : ImageM Unit := do
  let live ← get
  ofChecked (live.image.checkImmutableRange range)
  edit fun image =>
    { image with
      immutableRanges :=
        image.immutableRanges ++ [{ range with generation := image.immutableGeneration }] }
  edit fun image =>
    { image with
      immutableRanges := image.immutableRanges.insertionSort ImageImmutableRange.notAbove }
  modify Live.markRootSetMutation

def Image.findImmutableRange (image : Image) (address : BitVec 32) (width : BitVec 64) :
    Option ImageImmutableRange :=
  if width = 0 then none
  else image.immutableRanges.find? fun range =>
    range.address.toNat ≤ address.toNat && address.toNat ≤ endOf address width &&
      endOf address width ≤ endOf range.address range.size &&
      range.generation == image.immutableGeneration

/-! ## Setters -/

/-- A setter does nothing when the value is already there. -/
def setField {α : Type} [DecidableEq α] (read : Image → α) (write : α → Image → Image) (value : α) :
    ImageM Unit := do
  let live ← get
  if read live.image = value then pure ()
  else do
    edit (write value)
    modify Live.markAnalysisMutation

def setGuestCallAbi (abi : GuestCallAbi) : ImageM Unit :=
  setField Image.guestCallAbi (fun value image => { image with guestCallAbi := value }) abi

def setInitialSnapshotPolicy (policy : InitialSnapshotPolicy) : ImageM Unit :=
  setField Image.initialSnapshotPolicy
    (fun value image => { image with initialSnapshotPolicy := value }) policy

def setInitialSnapshotEntry (address : BitVec 32) : ImageM Unit :=
  setField Image.initialSnapshotEntry
    (fun value image => { image with initialSnapshotEntry := value }) (some address)

/-- The check of `set_address_model`. -/
def Image.checkModel (image : Image) : ImageAddressModel → Except ImageError Unit
  | .exact => .ok ()
  | .sh4DirectMapped => requireSh4UniqueLayout image.segments image.addressAliases
  | .unknown => .error .unknownModel

def setAddressModel (model : ImageAddressModel) : ImageM Unit := do
  let live ← get
  ofChecked (live.image.checkModel model)
  setField Image.addressModel (fun value image => { image with addressModel := value }) model

/-! ## Bytes -/

/-- The bytes with some of them overwritten. -/
def overwrite (bytes : List Byte) (offset : Nat) (new : List Byte) : List Byte :=
  bytes.take offset ++ new ++ bytes.drop (offset + new.length)

/-- The first segment that contains the range is rewritten, the others stay. -/
def writeFirst (address : BitVec 32) (width : BitVec 64) (write : List Byte → List Byte) :
    List ImageSegment → List ImageSegment
  | [] => []
  | segment :: rest =>
    if segment.contains address width then { segment with bytes := write segment.bytes } :: rest
    else segment :: writeFirst address width write rest

/-- Where a write goes: into committed bytes, at this offset. -/
def Image.target (image : Image) (address : BitVec 32) (count : Nat) (outside uncommitted : ImageError) :
    Except ImageError (ImageSegment × Nat) :=
  match image.findSegment address (BitVec.ofNat 64 count) with
  | none => .error outside
  | some segment =>
    match segment.byteOffset address with
    | none => .error uncommitted
    | some offset =>
      if count > segment.bytes.length - offset then .error uncommitted else .ok (segment, offset)

def writeBytes (address : BitVec 32) (bytes : List Byte) : ImageM Unit := do
  let live ← get
  if bytes.isEmpty then pure ()
  else do
    let target ← ofChecked (live.image.target address bytes.length .bytesOutside .bytesUncommitted)
    if (target.1.bytes.drop target.2).take bytes.length = bytes then pure ()
    else do
      edit fun image =>
        { image with
          segments := writeFirst address (BitVec.ofNat 64 bytes.length)
            (fun old => overwrite old target.2 bytes) image.segments }
      modify Live.markAnalysisMutation

def writeU32Le (address value : BitVec 32) : ImageM Unit := do
  let live ← get
  let target ← ofChecked (live.image.target address 4 .wordOutside .wordUncommitted)
  edit fun image =>
    { image with
      segments := writeFirst address (BitVec.ofNat 64 4)
        (fun old => overwrite old target.2 (littleEndian 4 value)) image.segments }
  modify Live.markAnalysisMutation

/-! ## Resolution -/

/-- The source address of an alias at an offset, where a segment has the range. -/
def Image.aliasSource (image : Image) (placement : ImageAddressAlias) (offset : Nat)
    (width : BitVec 64) : Option (BitVec 32) :=
  if placement.sourceStart.toNat + offset > 2 ^ 32 - 1 then none
  else
    let candidate := BitVec.ofNat 32 (placement.sourceStart.toNat + offset)
    if (image.findSegment candidate width).isSome then some candidate else none

def Image.exactAlias (image : Image) (address : BitVec 32) (width : BitVec 64)
    (placement : ImageAddressAlias) : Option (BitVec 32) :=
  if address.toNat < placement.runtimeStart.toNat ∨ endOf address width > placement.runtimeEnd then none
  else image.aliasSource placement (address.toNat - placement.runtimeStart.toNat) width

def Image.physicalAlias (image : Image) (physical : Nat) (width : BitVec 64)
    (placement : ImageAddressAlias) : Option (BitVec 32) :=
  let runtimePhysical := physicalAddress placement.runtimeStart
  if placement.runtimeStart.toNat ≥ sh4DirectAddressLimit ∨ physical < runtimePhysical then none
  else if physical - runtimePhysical ≥ placement.size.toNat ∨
      width.toNat > placement.size.toNat - (physical - runtimePhysical) then
    none
  else image.aliasSource placement (physical - runtimePhysical) width

def physicalSegment (physical : Nat) (width : BitVec 64) (segment : ImageSegment) :
    Option (BitVec 32) :=
  let segmentPhysical := physicalAddress segment.virtualAddress
  if segment.virtualAddress.toNat ≥ sh4DirectAddressLimit ∨ physical < segmentPhysical then none
  else if segment.virtualAddress.toNat + (physical - segmentPhysical) > 2 ^ 32 - 1 then none
  else
    let candidate := BitVec.ofNat 32 (segment.virtualAddress.toNat + (physical - segmentPhysical))
    if segment.contains candidate width then some candidate else none

/-- The owner of a physical address: a bound runtime placement, then a resident segment. -/
def Image.resolvePhysical (image : Image) (physical : Nat) (width : BitVec 64) :
    Option (BitVec 32) := (image.addressAliases.findSome? (image.physicalAlias physical width)).or
    (image.segments.findSome? (physicalSegment physical width))

def Image.resolveSegmentAddress (image : Image) (address : BitVec 32) (width : BitVec 64) :
    Option (BitVec 32) :=
  if (image.findSegment address width).isSome then some address
  else if width = 0 then none
  else
    (if endOf address width ≤ addressSpaceSize then
      image.addressAliases.findSome? (image.exactAlias address width)
    else none).or
      (if image.addressModel ≠ .sh4DirectMapped ∨ address.toNat ≥ sh4DirectAddressLimit then none
      else image.resolvePhysical (physicalAddress address) width)

/-! ## Copies and moves -/

/-- A copy has an identity of its own. -/
def copyOf (nextIdentity : Nat) (other : Image) : Live :=
  let allocated := allocateExecutableImageIdentity nextIdentity
  { nextIdentity := allocated.2
    image := { other with analysisInstanceIdentity := allocated.1, analysisRevision := 0 } }

/-- What a move leaves behind: the vectors are empty and the change is marked. -/
def movedFrom (nextIdentity : Nat) (other : Image) : Live := Live.markAnalysisMutation
    { nextIdentity
      image :=
        { other with
          segments := []
          entryPoints := []
          symbols := []
          relocations := []
          addressAliases := []
          immutableRanges := [] } }

/-- Assignment by move binds the ranges to the generation that came with them. -/
def rebound (image : Image) : Image :=
  { image with
    immutableRanges := image.immutableRanges.map fun range =>
        { range with generation := image.immutableGeneration } }

/-! ## Runs -/

inductive Mutation
  | addSegment (segment : ImageSegment)
  | addEntryPoint (address : BitVec 32)
  | replaceEntryPoints (addresses : List (BitVec 32))
  | addSymbol (symbol : ImageSymbol)
  | addRelocation (relocation : ImageRelocation)
  | addAddressAlias (placement : ImageAddressAlias)
  | addImmutableRange (range : ImageImmutableRange)
  | setGuestCallAbi (abi : GuestCallAbi)
  | setInitialSnapshotPolicy (policy : InitialSnapshotPolicy)
  | setInitialSnapshotEntry (address : BitVec 32)
  | setAddressModel (model : ImageAddressModel)
  | writeBytes (address : BitVec 32) (bytes : List Byte)
  | writeU32Le (address value : BitVec 32)

def Mutation.perform : Mutation → ImageM Unit
  | .addSegment segment => ExecutableImage.addSegment segment
  | .addEntryPoint address => ExecutableImage.addEntryPoint address
  | .replaceEntryPoints addresses => ExecutableImage.replaceEntryPoints addresses
  | .addSymbol symbol => ExecutableImage.addSymbol symbol
  | .addRelocation relocation => ExecutableImage.addRelocation relocation
  | .addAddressAlias placement => ExecutableImage.addAddressAlias placement
  | .addImmutableRange range => ExecutableImage.addImmutableRange range
  | .setGuestCallAbi abi => ExecutableImage.setGuestCallAbi abi
  | .setInitialSnapshotPolicy policy => ExecutableImage.setInitialSnapshotPolicy policy
  | .setInitialSnapshotEntry address => ExecutableImage.setInitialSnapshotEntry address
  | .setAddressModel model => ExecutableImage.setAddressModel model
  | .writeBytes address bytes => ExecutableImage.writeBytes address bytes
  | .writeU32Le address value => ExecutableImage.writeU32Le address value

/-- The live images of a process by the variable that holds them. -/
structure World where
  nextIdentity : Nat := 1
  images : Nat → Option Image := fun _ => none

def World.put (world : World) (slot : Nat) (live : Live) : World :=
  { nextIdentity := live.nextIdentity
    images := Function.update world.images slot (some live.image) }

inductive Operation
  | construct (slot : Nat)
  | copyConstruct (slot other : Nat)
  | moveConstruct (slot other : Nat)
  | copyAssign (slot other : Nat)
  | moveAssign (slot other : Nat)
  | destroy (slot : Nat)
  | call (slot : Nat) (mutation : Mutation)

/-- The state a call leaves, whether it returned or threw. -/
def finalState {α : Type} : EStateM.Result ImageError Live α → Live
  | .ok _ live => live
  | .error _ live => live

/-- The new image is a copy of the other one, which the move empties. -/
def World.moveInto (world : World) (slot other : Nat) (image copied : Image) : World :=
  let live := copyOf world.nextIdentity copied
  (world.put slot live).put other (movedFrom live.nextIdentity image)

/-- One operation; where an object is not there, or already is, nothing is done. -/
def step (world : World) : Operation → World
  | .construct slot =>
    if (world.images slot).isSome then world else world.put slot (copyOf world.nextIdentity {})
  | .copyConstruct slot other =>
    match world.images slot, world.images other with
    | none, some image => world.put slot (copyOf world.nextIdentity image)
    | _, _ => world
  | .moveConstruct slot other =>
    match world.images slot, world.images other with
    | none, some image => world.moveInto slot other image image
    | _, _ => world
  | .copyAssign slot other =>
    match world.images slot, world.images other with
    | some _, some image =>
      if slot = other then world else world.put slot (copyOf world.nextIdentity image)
    | _, _ => world
  | .moveAssign slot other =>
    match world.images slot, world.images other with
    | some _, some image =>
      if slot = other then world else world.moveInto slot other image (rebound image)
    | _, _ => world
  | .destroy slot => { world with images := Function.update world.images slot none }
  | .call slot mutation =>
    match world.images slot with
    | none => world
    | some image =>
      world.put slot (finalState (mutation.perform { nextIdentity := world.nextIdentity, image }))

def run (operations : List Operation) : World := operations.foldl step {}

end KatanaRecomp.Io.ExecutableImage
