import KatanaRecomp.Lib.OrderedMap
import KatanaRecomp.Runtime.CodeTracker

/-! # The table of runtime blocks

`RuntimeBlockTable` finds the native block of a guest address. Records stay
under their id for the lifetime of the table, so a pointer to a record is its
id. The variant's generations and the table's own counters are numbers: they are
compared and counted up. A hash map is its lookup function, a `std::map` whose
order the source uses is an `OrderedMap`, and a `std::set` of ids is a list in
order. An operation that throws returns the table as it leaves it. -/
namespace KatanaRecomp.Runtime
open Lib

/-! ## Blocks -/

structure CodeAddressMapping where
  sourceStart : BitVec 32 := 0
  runtimeStart : BitVec 32 := 0
  extent : BitVec 32 := 0

def validateCodeAddressMapping (mapping : CodeAddressMapping) : Except String Unit :=
  if mapping.extent = 0 then .error "AOT-Codeadressabbildung benoetigt eine Ausdehnung."
  else if mapping.sourceStart.toNat + mapping.extent.toNat > 2 ^ 32 then
    .error "AOT-Codeadressabbildung laeuft am Quellbereich ueber 32 Bit hinaus."
  else if mapping.runtimeStart.toNat + mapping.extent.toNat > 2 ^ 32 then
    .error "AOT-Codeadressabbildung laeuft am Runtimebereich ueber 32 Bit hinaus."
  else .ok ()

/-- The enumerator's number. -/
def BlockEndKind.code : BlockEndKind → Nat
  | .fallthrough => 0
  | .staticBranch => 1
  | .conditionalBranch => 2
  | .dynamicBranch => 3
  | .call => 4
  | .return => 5
  | .exceptionReturn => 6
  | .sleep => 7
  | .exception => 8
  | .interruptSafepoint => 9

structure BlockVariantKey where
  addressSpaceGeneration : Nat := 0
  mmuGeneration : Nat := 0
  watchpointGeneration : Nat := 0
  fpscrMode : Nat := 0
  runtimeGeneration : Nat := 0

/-- The order of the defaulted `operator<=>`. -/
def BlockVariantKey.order (variant : BlockVariantKey) : Nat ×ₗ Nat ×ₗ Nat ×ₗ Nat ×ₗ Nat :=
  toLex (variant.addressSpaceGeneration, toLex (variant.mmuGeneration,
    toLex (variant.watchpointGeneration, toLex (variant.fpscrMode, variant.runtimeGeneration))))

theorem BlockVariantKey.order_injective : Function.Injective BlockVariantKey.order := by
  rintro ⟨⟩ ⟨⟩ h
  simp only [order, EmbeddingLike.apply_eq_iff_eq, Prod.mk.injEq] at h
  obtain ⟨rfl, rfl, rfl, rfl, rfl⟩ := h
  rfl

instance : LinearOrder BlockVariantKey :=
  LinearOrder.lift' BlockVariantKey.order BlockVariantKey.order_injective

inductive StaticVariantPolicy
  | exact | directP1P2RuntimeStateAgnostic
  deriving DecidableEq

def StaticVariantPolicy.code : StaticVariantPolicy → Nat
  | .exact => 0
  | .directP1P2RuntimeStateAgnostic => 1

inductive NativeAotTemplateValidationMode
  | sourceModule | runtimeBlock
  deriving DecidableEq

def NativeAotTemplateValidationMode.code : NativeAotTemplateValidationMode → Nat
  | .sourceModule => 0
  | .runtimeBlock => 1

structure RuntimeAotTemplateContract where
  mapping : CodeAddressMapping
  validationExtent : BitVec 32 := 0
  mutableRanges : List NativeAotTemplateMutableRange := []
  validationMode : NativeAotTemplateValidationMode := .sourceModule

inductive RuntimeBlockFastpathKind
  | none | compositeCallback | memoryFill | mmioWait | countedLoop
  deriving DecidableEq

/-- A pointer is `none` or its address. -/
structure RuntimeBlockFastpathBinding where
  kind : RuntimeBlockFastpathKind := .none
  descriptor : Option Nat := .none

structure RuntimeBlock where
  virtualStart : BitVec 32 := 0
  physicalOrigin : BitVec 32 := 0
  size : BitVec 32 := 0
  endKind : BlockEndKind := .fallthrough
  variant : BlockVariantKey := {}
  function : Option Nat := .none
  provenance : String := ""
  runtimeRegistered : Bool := false
  aotTemplate : Option RuntimeAotTemplateContract := .none
  staticVariantPolicy : StaticVariantPolicy := .exact
  fastpath : RuntimeBlockFastpathBinding := {}

/-! ## Keys -/

structure VariantAddressKey where
  variant : BlockVariantKey
  address : BitVec 32 := 0

def VariantAddressKey.order (key : VariantAddressKey) : BlockVariantKey ×ₗ Nat :=
  toLex (key.variant, key.address.toNat)

theorem VariantAddressKey.order_injective : Function.Injective VariantAddressKey.order := by
  rintro ⟨_, _⟩ ⟨_, _⟩ h
  simp only [order, EmbeddingLike.apply_eq_iff_eq, Prod.mk.injEq, BitVec.toNat_inj] at h
  obtain ⟨rfl, rfl⟩ := h
  rfl

instance : LinearOrder VariantAddressKey :=
  LinearOrder.lift' VariantAddressKey.order VariantAddressKey.order_injective

structure PhysicalLookupKey where
  variant : BlockVariantKey
  physical : BitVec 32 := 0
  virtualStart : BitVec 32 := 0

def PhysicalLookupKey.order (key : PhysicalLookupKey) : BlockVariantKey ×ₗ Nat ×ₗ Nat :=
  toLex (key.variant, toLex (key.physical.toNat, key.virtualStart.toNat))

theorem PhysicalLookupKey.order_injective : Function.Injective PhysicalLookupKey.order := by
  rintro ⟨_, _, _⟩ ⟨_, _, _⟩ h
  simp only [order, EmbeddingLike.apply_eq_iff_eq, Prod.mk.injEq, BitVec.toNat_inj] at h
  obtain ⟨rfl, rfl, rfl⟩ := h
  rfl

instance : LinearOrder PhysicalLookupKey :=
  LinearOrder.lift' PhysicalLookupKey.order PhysicalLookupKey.order_injective

namespace RuntimeBlock
variable (block : RuntimeBlock)

def key : VariantAddressKey := ⟨block.variant, block.virtualStart⟩

def physicalKey : PhysicalLookupKey := ⟨block.variant, block.physicalOrigin, block.virtualStart⟩

def orderKey : Nat ×ₗ BlockVariantKey ×ₗ Nat ×ₗ String :=
  toLex (block.virtualStart.toNat, toLex (block.variant,
    toLex (block.physicalOrigin.toNat, block.provenance)))

/-- The order of the blocks that a contextual registration compares. -/
def contextualKey : BlockVariantKey ×ₗ Nat ×ₗ Nat ×ₗ String :=
  toLex (block.variant, toLex (block.virtualStart.toNat,
    toLex (block.physicalOrigin.toNat, block.provenance)))

def validationPhysicalStart : BitVec 32 :=
  match block.aotTemplate with
  | none => block.physicalOrigin
  | some contract =>
    if contract.validationMode = .runtimeBlock then block.physicalOrigin
    else block.physicalOrigin - (block.virtualStart - contract.mapping.runtimeStart)

def validationExtent : BitVec 32 :=
  match block.aotTemplate with
  | none => block.size
  | some contract =>
    if contract.validationMode = .runtimeBlock then block.size else contract.validationExtent

def validationMutableRanges : List NativeAotTemplateMutableRange :=
  match block.aotTemplate with
  | none => []
  | some contract =>
    if contract.validationMode = .sourceModule then contract.mutableRanges else []

end RuntimeBlock

def rangesOverlap (leftStart leftSize rightStart rightSize : BitVec 32) : Bool :=
  decide (leftStart.toNat < rightStart.toNat + rightSize.toNat) &&
    decide (rightStart.toNat < leftStart.toNat + leftSize.toNat)

def compatiblePhysicalOverlap (left right : RuntimeBlock) : Bool :=
  let overlapStart := max left.virtualStart.toNat right.virtualStart.toNat
  let leftPhysical := (canonicalPhysicalAddress left.physicalOrigin).toNat +
    (overlapStart - left.virtualStart.toNat)
  let rightPhysical := (canonicalPhysicalAddress right.physicalOrigin).toNat +
    (overlapStart - right.virtualStart.toNat)
  decide (leftPhysical = rightPhysical)

def directP1P2BlockBindingContiguous (virtualStart physicalOrigin size : BitVec 32) : Bool :=
  let segment := virtualStart >>> 29
  if (segment ≠ 4 ∧ segment ≠ 5) ∨ virtualStart &&& 1 ≠ 0 ∨ physicalOrigin &&& 1 ≠ 0 ∨
      size < 2 ∨ size &&& 1 ≠ 0 ∨ physicalOrigin ≠ canonicalPhysicalAddress physicalOrigin ∨
      canonicalPhysicalAddress virtualStart ≠ physicalOrigin then false
  else
    let virtualLast := virtualStart.toNat + (size.toNat - 2)
    let physicalLast := physicalOrigin.toNat + (size.toNat - 2)
    decide (virtualLast ≤ uint32Max) && decide (physicalLast ≤ uint32Max) &&
      decide ((canonicalPhysicalAddress (BitVec.ofNat 32 virtualLast)).toNat = physicalLast)

/-- `std::hex` with `std::setw(8)` and a fill of zeros. -/
def hexWord (value : BitVec 32) : String := String.ofList ((List.range 8).map fun digit =>
    Nat.digitChar ((value >>> (28 - 4 * digit)).toNat % 16))

/-- The text ends with the contract of the template, one part for each of its
mutable ranges. -/
def stableTemplateIdentity (contract : RuntimeAotTemplateContract) : String :=
  "-ts" ++ hexWord contract.mapping.sourceStart ++ "-tr" ++ hexWord contract.mapping.runtimeStart ++
    "-te" ++ toString contract.mapping.extent.toNat ++
    "-tv" ++ toString contract.validationExtent.toNat ++
    "-tmv" ++ toString contract.validationMode.code ++
    String.join (contract.mutableRanges.map fun range =>
      "-tm" ++ toString range.offset.toNat ++ "x" ++ toString range.size.toNat)

/-- The text before the provenance. -/
def stableLocation (block : RuntimeBlock) : String :=
  "v" ++ hexWord block.virtualStart ++ "-p" ++ hexWord block.physicalOrigin ++
    "-s" ++ toString block.size.toNat ++ "-e" ++ toString block.endKind.code ++
    "-a" ++ toString block.variant.addressSpaceGeneration ++
    "-m" ++ toString block.variant.mmuGeneration ++
    "-w" ++ toString block.variant.watchpointGeneration ++
    "-f" ++ toString block.variant.fpscrMode ++ "-r" ++ toString block.variant.runtimeGeneration ++
    (if block.staticVariantPolicy ≠ .exact then
      "-vp" ++ toString block.staticVariantPolicy.code else "") ++ "-"

def stableRuntimeBlockIdentity (block : RuntimeBlock) : String :=
  stableLocation block ++ block.provenance ++ (block.aotTemplate.map stableTemplateIdentity).getD ""

/-! ## Checks of a registration -/

/-- The checks of a template behind those of its mapping. -/
def checkTemplateExtent (block : RuntimeBlock) (contract : RuntimeAotTemplateContract) :
    Except String Unit :=
  let extent := contract.validationExtent.toNat
  let sourceModuleValidation := decide (contract.validationMode = .sourceModule)
  let mappingRuntimeEnd := contract.mapping.runtimeStart.toNat + contract.mapping.extent.toNat
  let blockOffset := block.virtualStart - contract.mapping.runtimeStart
  let validationStart :=
    if sourceModuleValidation then block.physicalOrigin - blockOffset else block.physicalOrigin
  let sourceValidationStart := contract.mapping.sourceStart.toNat +
    (if sourceModuleValidation then 0 else blockOffset.toNat)
  let runtimeValidationStart :=
    if sourceModuleValidation then contract.mapping.runtimeStart else block.virtualStart
  let validationLastOffset := contract.validationExtent - 1
  if contract.validationExtent = 0 ∨
      (sourceModuleValidation ∧ contract.validationExtent < contract.mapping.extent) ∨
      (!sourceModuleValidation ∧
        (contract.validationExtent ≠ block.size ∨ contract.mutableRanges ≠ [])) ∨
      !nativeAotMutableRangesValid contract.mutableRanges contract.validationExtent then
    .error ("AOT-Templatevalidierung besitzt keinen konsistenten Proofbereich: " ++
      block.provenance)
  else if block.virtualStart < contract.mapping.runtimeStart ∨
      block.virtualStart.toNat + block.size.toNat > mappingRuntimeEnd then
    .error ("Runtimeblock liegt ausserhalb seiner AOT-Templateabbildung: " ++ block.provenance)
  else if blockOffset > block.physicalOrigin then
    .error ("AOT-Templateblock kann seinen physischen Validierungsanfang nicht darstellen: " ++
      block.provenance)
  else if sourceValidationStart + extent > 2 ^ 32 ∨ runtimeValidationStart.toNat + extent > 2 ^ 32 ∨
      validationStart.toNat + extent > 2 ^ 32 then
    .error ("AOT-Templatevalidierung laeuft ueber den Gastadressraum hinaus: " ++ block.provenance)
  else if canonicalPhysicalAddress block.virtualStart = block.physicalOrigin ∧
      canonicalPhysicalAddress (runtimeValidationStart + validationLastOffset) ≠
        validationStart + validationLastOffset then
    .error ("AOT-Templatevalidierung kreuzt eine nicht zusammenhaengende Aliasgrenze: " ++
      block.provenance)
  else if sourceModuleValidation ∧ blockOffset.toNat + block.size.toNat > extent then
    .error ("AOT-Templatevalidierung deckt die Runtimeblockbytes nicht ab: " ++ block.provenance)
  else if contract.mutableRanges.any fun range =>
      decide (blockOffset.toNat < range.end) &&
        decide (range.offset.toNat < blockOffset.toNat + block.size.toNat) then
    .error ("AOT-Mutable-Range ueberlappt ausfuehrbare Runtimeblockbytes: " ++ block.provenance)
  else .ok ()

def checkTemplate (block : RuntimeBlock) (runtimeRegistered : Bool)
    (contract : RuntimeAotTemplateContract) : Except String Unit :=
  if !runtimeRegistered then
    .error ("AOT-Templateabbildungen sind ausschliesslich fuer Runtimebloecke zulaessig: " ++
      block.provenance)
  else
    match validateCodeAddressMapping contract.mapping with
    | .error message => .error message
    | .ok _ => checkTemplateExtent block contract

/-- The template of a block that has one. -/
def checkBlockTemplate (block : RuntimeBlock) (runtimeRegistered : Bool) : Except String Unit :=
  match block.aotTemplate with
  | none => .ok ()
  | some contract => checkTemplate block runtimeRegistered contract

/-- The checks that `insert` makes of the block by itself, once its physical
origin is canonical. -/
def checkBlock (block : RuntimeBlock) (runtimeRegistered : Bool) : Except String Unit :=
  if block.size = 0 ∨ block.function = none ∨ block.provenance.isEmpty then
    .error "Blockeintrag benoetigt Groesse, Backendfunktion und Provenienz."
  else if decide (block.fastpath.kind = .none) ≠ decide (block.fastpath.descriptor = none) then
    .error ("Fastpathbindung benoetigt konsistent Typ und Deskriptor: " ++ block.provenance)
  else if block.virtualStart.toNat + block.size.toNat > 2 ^ 32 then
    .error ("Blockbereich laeuft ueber den 32-Bit-Gastadressraum hinaus: " ++ block.provenance)
  else if !runtimeRegistered ∧ block.staticVariantPolicy = .directP1P2RuntimeStateAgnostic ∧
      !directP1P2BlockBindingContiguous block.virtualStart block.physicalOrigin block.size then
    .error ("Direkte Static-AOT-Bindung kreuzt eine Aliasgrenze: " ++ block.provenance)
  else
    match checkBlockTemplate block runtimeRegistered with
    | .error message => .error message
    | .ok _ =>
      if block.physicalOrigin.toNat + block.size.toNat > 2 ^ 32 then
        .error ("Physischer Blockbereich laeuft ueber 32 Bit hinaus: " ++ block.provenance)
      else .ok ()

/-- The first part of `insert`, with the block as it will be stored. -/
def prepareBlock (block : RuntimeBlock) (runtimeRegistered : Bool) : Except String RuntimeBlock :=
  let block := { block with physicalOrigin := canonicalPhysicalAddress block.physicalOrigin }
  match checkBlock block runtimeRegistered with
  | .error message => .error message
  | .ok _ => .ok { block with runtimeRegistered := runtimeRegistered }

/-! ## The state -/

structure RuntimeBlockHandle where
  id : Nat := 0
  generation : Nat := 0

inductive RuntimeBlockLookupMode
  | direct | referenceTree

structure RuntimeBlockLookupCounters where
  directProbes : Nat := 0
  referenceProbes : Nat := 0

inductive StaticAotInvalidationContract
  | conservative | coordinated
  deriving DecidableEq

structure Record where
  block : RuntimeBlock
  identity : String
  generation : Nat := 1
  active : Bool := true
  staticBlock : Bool := false

/-- The entry's record is that of its id. -/
structure StaticAotEntry where
  id : Nat := 0
  generation : Nat := 1

/-- Zero is empty, `uint32Max` is ambiguous, every other slot is a one-based
index of an entry. A shadow list that is not allocated is empty. -/
structure StaticAotPage where
  entries : Nat → Nat := fun _ => 0
  dynamicEntries : Nat → List Nat := fun _ => []

/-- `staticAotPages` is `none` while the vector is empty. -/
structure RuntimeBlockTable where
  records : Nat → Option Record := fun _ => none
  identities : String → Option Nat := fun _ => none
  activeVirtualRanges : OrderedMap VariantAddressKey Nat := .empty
  staticVirtualIndex : OrderedMap VariantAddressKey Nat := .empty
  dynamicVirtualIndex : OrderedMap VariantAddressKey Nat := .empty
  staticDirectVirtualIndex : VariantAddressKey → Option Nat := fun _ => none
  dynamicDirectVirtualIndex : VariantAddressKey → Option Nat := fun _ => none
  staticPhysicalIndex : OrderedMap PhysicalLookupKey Nat := .empty
  dynamicPhysicalIndex : OrderedMap PhysicalLookupKey Nat := .empty
  activePhysicalPages : Nat → List Nat := fun _ => []
  nextId : Nat := 1
  activeCount : Nat := 0
  staticSealed : Bool := false
  contextualVirtualOverlaps : Bool := false
  codeTracker : Option Nat := none
  lookupMode : RuntimeBlockLookupMode := .direct
  lookupCounters : RuntimeBlockLookupCounters := {}
  rejectedGenerations : VariantAddressKey → Option Nat := fun _ => none
  dispatchLifetime : Nat
  dispatchGeneration : Nat := 1
  staticAotInvalidation : StaticAotInvalidationContract := .conservative
  staticAotPages : Option (Nat → Option StaticAotPage) := none
  staticAotEntries : List StaticAotEntry := []

namespace RuntimeBlockTable

def physicalPageSize : Nat := 4096

def staticAotPageCount : Nat := 2 ^ 17

/-- The pages from the first to the last byte. -/
def physicalPages (start size : Nat) : List Nat :=
  let firstPage := start / physicalPageSize
  let lastPage := (start + size - 1) / physicalPageSize
  (List.range (lastPage - firstPage + 1)).map (firstPage + ·)

/-- `set.insert(id)`. -/
def insertId (id : Nat) (ids : List Nat) : List Nat :=
  if id ∈ ids then ids else ids.orderedInsert (· ≤ ·) id

/-- `map.emplace(key, id)` of a hash map. -/
def emplaceDirect (index : VariantAddressKey → Option Nat) (key : VariantAddressKey) (id : Nat) :
    VariantAddressKey → Option Nat := Function.update index key (some ((index key).getD id))

variable (t : RuntimeBlockTable)

/-! ## Lookups

The trackers of the program are known by the number that stands for their
address. -/

section
variable (trackers : Nat → ExecutableCodeTracker)

def dispatchable (record : Record) : Bool := record.active && (match t.codeTracker with
      | none => true
      | some tracker => (trackers tracker).dispatchable record.identity)

/-- The handle of the record an index names, when it may run. -/
def handleOf (id : Nat) : Option RuntimeBlockHandle :=
  match t.records id with
  | none => none
  | some record =>
    if t.dispatchable trackers record then some ⟨id, record.generation⟩ else none

def lookupIndex (index : OrderedMap VariantAddressKey Nat) (key : VariantAddressKey) :
    Option RuntimeBlockHandle := (index.find key).bind (t.handleOf trackers)

def lookupDirectIndex (index : VariantAddressKey → Option Nat) (key : VariantAddressKey) :
    Option RuntimeBlockHandle × RuntimeBlockTable := ((index key).bind (t.handleOf trackers),
    { t with
      lookupCounters := { t.lookupCounters with
        directProbes := t.lookupCounters.directProbes + 1 } })

def lookup (virtualAddress : BitVec 32) (variant : BlockVariantKey) :
    Option RuntimeBlockHandle × RuntimeBlockTable :=
  let key : VariantAddressKey := ⟨variant, virtualAddress⟩
  match t.lookupMode with
  | .direct =>
    match t.lookupDirectIndex trackers t.dynamicDirectVirtualIndex key with
    | (some dynamic, t) => (some dynamic, t)
    | (none, t) => t.lookupDirectIndex trackers t.staticDirectVirtualIndex key
  | .referenceTree =>
    let t := { t with
      lookupCounters := { t.lookupCounters with
        referenceProbes := t.lookupCounters.referenceProbes + 2 } }
    match t.lookupIndex trackers t.dynamicVirtualIndex key with
    | some dynamic => (some dynamic, t)
    | none => (t.lookupIndex trackers t.staticVirtualIndex key, t)

def resolve (handle : RuntimeBlockHandle) : Option RuntimeBlock :=
  match t.records handle.id with
  | none => none
  | some record =>
    if record.generation ≠ handle.generation ∨ !t.dispatchable trackers record then none
    else some record.block

/-- The entries of one variant and physical address, in order of the virtual
start. -/
def lookupPhysicalIndex (index : OrderedMap PhysicalLookupKey Nat) (physicalAddress : BitVec 32)
    (variant : BlockVariantKey) : Option RuntimeBlockHandle :=
  let canonical := canonicalPhysicalAddress physicalAddress
  ((index.lowerBound ⟨variant, canonical, 0⟩).takeWhile fun entry =>
    decide (entry.1.variant = variant) && decide (entry.1.physical = canonical)).findSome?
      fun entry => t.handleOf trackers entry.2

def lookupPhysical (physicalAddress : BitVec 32) (variant : BlockVariantKey) :
    Option RuntimeBlockHandle :=
  match t.lookupPhysicalIndex trackers t.staticPhysicalIndex physicalAddress variant,
    t.lookupPhysicalIndex trackers t.dynamicPhysicalIndex physicalAddress variant with
  | none, dynamicBlock => dynamicBlock
  | staticBlock, none => staticBlock
  | some staticBlock, some dynamicBlock =>
    match t.resolve trackers staticBlock, t.resolve trackers dynamicBlock with
    | none, _ => some dynamicBlock
    | _, none => some staticBlock
    | some staticRecord, some dynamicRecord =>
      if staticRecord.orderKey < dynamicRecord.orderKey then some staticBlock
      else some dynamicBlock

end

/-! ## Activation -/

/-- The generations and the lifetimes of the state count their steps from one. This
is what the 64 bits of the source hold, which wrap and skip zero. -/
def wrapped (count : Nat) : Nat := (count + (2 ^ 64 - 2)) % (2 ^ 64 - 1) + 1

/-- `++generation`, once more where that gives zero. -/
def advanceGeneration (generation : Nat) : Nat := generation + 1

/-- The entry of a slot moves on. -/
def advanceEntry (entries : List StaticAotEntry) (slot : Nat) : List StaticAotEntry :=
  if slot ≠ 0 ∧ slot ≠ uint32Max ∧ slot ≤ entries.length then
    entries.modify (slot - 1) fun entry =>
      { entry with generation := advanceGeneration entry.generation }
  else entries

def pageIndex (physicalOrigin : BitVec 32) : Nat := physicalOrigin.toNat / physicalPageSize

def halfword (physicalOrigin : BitVec 32) : Nat := physicalOrigin.toNat % physicalPageSize / 2

def setPage (page : Nat) (staticPage : StaticAotPage) : RuntimeBlockTable :=
  { t with
    staticAotPages := t.staticAotPages.map fun pages =>
      Function.update pages page (some staticPage) }

/-- A dynamic record enters or leaves the shadow list of its halfword, and the
static entry there moves on. -/
def moveShadow (block : RuntimeBlock) (change : List Nat → List Nat) : RuntimeBlockTable :=
  if block.physicalOrigin &&& 1 ≠ 0 then t
  else
    match t.staticAotPages.bind (· (pageIndex block.physicalOrigin)) with
    | none => t
    | some staticPage =>
      let index := halfword block.physicalOrigin
      let shadow := change (staticPage.dynamicEntries index)
      { t.setPage (pageIndex block.physicalOrigin) { staticPage with
          dynamicEntries := Function.update staticPage.dynamicEntries index shadow } with
        staticAotEntries := advanceEntry t.staticAotEntries (staticPage.entries index) }

/-- The entries of a block in the indices of its kind. -/
def listActive (id : Nat) (record : Record) : RuntimeBlockTable :=
  let block := record.block
  if record.staticBlock then
    { t with
      staticVirtualIndex := t.staticVirtualIndex.emplace block.key id
      staticDirectVirtualIndex := emplaceDirect t.staticDirectVirtualIndex block.key id
      staticPhysicalIndex := t.staticPhysicalIndex.emplace block.physicalKey id }
  else
    { t with
      dynamicVirtualIndex := t.dynamicVirtualIndex.emplace block.key id
      dynamicDirectVirtualIndex := emplaceDirect t.dynamicDirectVirtualIndex block.key id
      dynamicPhysicalIndex := t.dynamicPhysicalIndex.emplace block.physicalKey id }

/-- The pages that the bytes of a block's validation lie on. -/
def validationPages (block : RuntimeBlock) : List Nat :=
  physicalPages block.validationPhysicalStart.toNat block.validationExtent.toNat

/-- The entries of a block in every index of active blocks. -/
def placeActive (id : Nat) (record : Record) : RuntimeBlockTable :=
  { t.listActive id record with
    activeVirtualRanges := t.activeVirtualRanges.emplace record.block.key id
    activePhysicalPages := fun page =>
      if page ∈ validationPages record.block then insertId id (t.activePhysicalPages page)
      else t.activePhysicalPages page }

def indexActive (id : Nat) (record : Record) : RuntimeBlockTable :=
  let placed := t.placeActive id record
  let shadowed :=
    if record.staticBlock then placed else placed.moveShadow record.block (· ++ [id])
  { shadowed with dispatchGeneration := advanceGeneration t.dispatchGeneration }

/-- The record of an id becomes the given active one. -/
def activate (id : Nat) (record : Record) : RuntimeBlockTable :=
  let stored := { t with records := Function.update t.records id (some record) }
  { stored.indexActive id record with activeCount := t.activeCount + 1 }

/-! ## The sealed static index -/

structure StaticAotIndex where
  pages : Nat → Option StaticAotPage := fun _ => none
  entries : List StaticAotEntry := []

def placeStatic (index : StaticAotIndex) (id : Nat) : StaticAotIndex :=
  match t.records id with
  | none => index
  | some record =>
    let block := record.block
    if !record.active || !record.staticBlock ||
        block.staticVariantPolicy != .directP1P2RuntimeStateAgnostic ||
        !directP1P2BlockBindingContiguous block.virtualStart block.physicalOrigin block.size ||
        decide (pageIndex block.physicalOrigin ≥ staticAotPageCount) then index
    else
      let page := (index.pages (pageIndex block.physicalOrigin)).getD {}
      let slot := page.entries (halfword block.physicalOrigin)
      let fill (slot : Nat) : Nat → Option StaticAotPage :=
        Function.update index.pages (pageIndex block.physicalOrigin)
          (some { page with
            entries := Function.update page.entries (halfword block.physicalOrigin) slot })
      if slot = 0 then
        { pages := fill (index.entries.length + 1)
          entries := index.entries ++ [{ id := id }] }
      -- a second record of the slot makes it ambiguous, and so it stays
      else { index with pages := fill uint32Max }

def placeShadow (pages : Nat → Option StaticAotPage) (id : Nat) : Nat → Option StaticAotPage :=
  match t.records id with
  | none => pages
  | some record =>
    let origin := record.block.physicalOrigin
    if !record.active || record.staticBlock || decide (origin &&& 1 ≠ 0) then pages
    else
      match pages (pageIndex origin) with
      | none => pages
      | some page =>
        let shadow := page.dynamicEntries (halfword origin) ++ [id]
        Function.update pages (pageIndex origin) (some { page with
          dynamicEntries := Function.update page.dynamicEntries (halfword origin) shadow })

def rebuildStaticAotIndex : RuntimeBlockTable :=
  let index := (List.range t.nextId).foldl t.placeStatic {}
  { t with
    staticAotPages := some ((List.range t.nextId).foldl t.placeShadow index.pages)
    staticAotEntries := index.entries }

def sealStatic : RuntimeBlockTable :=
  if t.staticSealed then t else { t.rebuildStaticAotIndex with staticSealed := true }

/-! ## Registration -/

/-- The active range of an entry overlaps the block. -/
def overlapsActive (block : RuntimeBlock) (ignoredId : Nat) (entry : VariantAddressKey × Nat) :
    Bool := entry.2 != ignoredId && (t.records entry.2).any fun active =>
    rangesOverlap block.virtualStart block.size active.block.virtualStart active.block.size

/-- The active ranges of a variant, in order of their start. -/
def activeRanges (variant : BlockVariantKey) : List (VariantAddressKey × Nat) :=
  (t.activeVirtualRanges.lowerBound ⟨variant, 0⟩).takeWhile fun entry =>
    decide (entry.1.variant = variant)

def overlappingActiveVirtual (block : RuntimeBlock) (ignoredId : Nat) : Option Nat :=
  if t.contextualVirtualOverlaps then
    ((t.activeRanges block.variant).find? (t.overlapsActive block ignoredId)).map (·.2)
  else
    let overlaps (entry : VariantAddressKey × Nat) : Bool :=
      decide (entry.1.variant = block.variant) && t.overlapsActive block ignoredId entry
    match (t.activeVirtualRanges.lowerBound block.key).head?.filter overlaps with
    | some next => some next.2
    | none => ((t.activeVirtualRanges.previous block.key).filter overlaps).map (·.2)

/-- The provenance of a record. -/
def provenanceOf (id : Nat) : String := ((t.records id).map (·.block.provenance)).getD ""

/-- The active block that a registration collides with. -/
def collision (block : RuntimeBlock) (allowContextualOverlap : Bool) (ignoredId : Nat) :
    Option Nat :=
  if !allowContextualOverlap then t.overlappingActiveVirtual block ignoredId
  else (t.activeVirtualRanges.find block.key).filter (· != ignoredId)

/-- The registration of an identity that the table knows. -/
def reactivate (block : RuntimeBlock) (identity : String) (known : Nat)
    (runtimeRegistered allowContextualOverlap : Bool) :
    Except String RuntimeBlockHandle × RuntimeBlockTable :=
  match t.records known with
  -- an identity names a record
  | none => (.error identity, t)
  | some record =>
    if record.active then (.error ("Blockidentitaet ist bereits aktiv: " ++ identity), t)
    else if !runtimeRegistered || record.staticBlock then
      (.error ("Nur dynamische Runtimebloecke koennen reaktiviert werden: " ++ identity), t)
    else
      match t.collision block allowContextualOverlap known with
      | some overlap =>
        (.error ("Reaktivierter Block ueberlappt einen aktiven Block: " ++
          t.provenanceOf overlap ++ " <-> " ++ block.provenance), t)
      | none =>
        (.ok ⟨known, record.generation⟩,
          t.activate known { record with block := block, active := true })

/-- The registration of a new identity. -/
def insertNew (block : RuntimeBlock) (identity : String)
    (runtimeRegistered allowContextualOverlap : Bool) :
    Except String RuntimeBlockHandle × RuntimeBlockTable :=
  match t.collision block allowContextualOverlap 0 with
  | some overlap =>
    (.error ((if allowContextualOverlap then "Doppelter kontextueller Blockeinstieg: "
        else "Doppelter oder ueberlappender virtueller Block: ") ++
      t.provenanceOf overlap ++ " <-> " ++ block.provenance), t)
  | none =>
    let id := t.nextId
    let record : Record :=
      { block := block, identity := identity, staticBlock := !runtimeRegistered }
    (.ok ⟨id, record.generation⟩,
      { t with
        nextId := t.nextId + 1
        identities := Function.update t.identities identity (some id) }.activate id record)

def insert (block : RuntimeBlock) (runtimeRegistered allowContextualOverlap : Bool) :
    Except String RuntimeBlockHandle × RuntimeBlockTable :=
  match prepareBlock block runtimeRegistered with
  | .error message => (.error message, t)
  | .ok block =>
    let t := { t with
      rejectedGenerations := Function.update t.rejectedGenerations block.key none }
    let identity := stableRuntimeBlockIdentity block
    match t.identities identity with
    | some known => t.reactivate block identity known runtimeRegistered allowContextualOverlap
    | none => t.insertNew block identity runtimeRegistered allowContextualOverlap

def registerStatic (block : RuntimeBlock) : Except String RuntimeBlockHandle × RuntimeBlockTable :=
  if t.staticSealed then (.error "Statische Blockregistry ist bereits versiegelt.", t)
  else t.insert block false false

def registerBootstrapStatic (block : RuntimeBlock) :
    Except String RuntimeBlockHandle × RuntimeBlockTable :=
  if t.staticSealed then
    (.error "Statischer Bootstrapblock muss vor der statischen Registry installiert werden.", t)
  else t.insert block false false

/-- The exact variant of a static block at another mapping. -/
def staticVariant (source : RuntimeBlock) (virtualAddress physicalAddress : BitVec 32)
    (targetVariant : BlockVariantKey) : RuntimeBlock :=
  { source with
    virtualStart := virtualAddress
    physicalOrigin := canonicalPhysicalAddress physicalAddress
    variant := targetVariant
    staticVariantPolicy := .exact
    provenance := source.provenance ++ "-mmu-variant" }

def registerStaticVariant (trackers : Nat → ExecutableCodeTracker)
    (virtualAddress physicalAddress : BitVec 32) (sourceVariant targetVariant : BlockVariantKey) :
    Except String (Option RuntimeBlockHandle) × RuntimeBlockTable :=
  match t.lookup trackers virtualAddress targetVariant with
  | (some existing, t) => (.ok (some existing), t)
  | (none, t) =>
    let (found, t) := t.lookup trackers virtualAddress sourceVariant
    let source := found.or (t.lookupPhysical trackers physicalAddress sourceVariant)
    match source.bind (t.resolve trackers) with
    | none => (.ok none, t)
    | some resolved =>
      if resolved.runtimeRegistered ||
          resolved.physicalOrigin != canonicalPhysicalAddress physicalAddress then (.ok none, t)
      else
        let variant := staticVariant resolved virtualAddress physicalAddress targetVariant
        let (handle, t) := t.insert variant false false
        (handle.map some, t)

/-- The loop of a bulk registration, up to the first block that is rejected. -/
def insertAll (allowContextualOverlap : Bool) : RuntimeBlockTable → List RuntimeBlock →
      Except String (List RuntimeBlockHandle) × RuntimeBlockTable
  | t, [] => (.ok [], t)
  | t, block :: rest =>
    match t.insert block false allowContextualOverlap with
    | (.error message, t) => (.error message, t)
    | (.ok handle, t) =>
      let (handles, t) := insertAll allowContextualOverlap t rest
      (handles.map (handle :: ·), t)

def sortBlocks (blocks : List RuntimeBlock) : List RuntimeBlock :=
  blocks.insertionSort fun left right => left.orderKey ≤ right.orderKey

/-- The blocks are inserted in order; the registry is sealed behind the last. -/
def insertSorted (allowContextualOverlap : Bool) (blocks : List RuntimeBlock) :
    Except String (List RuntimeBlockHandle) × RuntimeBlockTable :=
  match insertAll allowContextualOverlap t (sortBlocks blocks) with
  | (.error message, t) => (.error message, t)
  | (.ok handles, t) => (.ok handles, t.sealStatic)

def registerStaticBulk (blocks : List RuntimeBlock) :
    Except String (List RuntimeBlockHandle) × RuntimeBlockTable :=
  if t.staticSealed then (.error "Statische Blockregistry ist bereits versiegelt.", t)
  else t.insertSorted false blocks

/-- The blocks behind `left` that may overlap it. -/
def contextualNeighbours (left : RuntimeBlock) : List RuntimeBlock → Except String Bool
  | [] => .ok false
  | right :: rest =>
    if left.variant ≠ right.variant then .ok false
    else if right.virtualStart.toNat ≥ left.virtualStart.toNat + left.size.toNat then .ok false
    else if !rangesOverlap left.virtualStart left.size right.virtualStart right.size then
      contextualNeighbours left rest
    else if left.virtualStart = right.virtualStart ∨ !compatiblePhysicalOverlap left right then
      .error ("Kontextuelle Blockueberlappung ist nicht eindeutig abbildbar: " ++
        left.provenance ++ " <-> " ++ right.provenance)
    else (contextualNeighbours left rest).map fun _ => true

def contextualOverlaps : List RuntimeBlock → Except String Bool
  | [] => .ok false
  | left :: rest => do
    let here ← contextualNeighbours left rest
    let behind ← contextualOverlaps rest
    return here || behind

/-- The active records in order of their id. -/
def activeRecords : List Record := ((List.range t.nextId).filterMap t.records).filter (·.active)

def registerStaticContextualBulk (blocks : List RuntimeBlock) :
    Except String (List RuntimeBlockHandle) × RuntimeBlockTable :=
  if t.staticSealed then (.error "Statische Blockregistry ist bereits versiegelt.", t)
  else if t.activeRecords.any fun record =>
      !record.staticBlock || record.block.runtimeRegistered then
    (.error "Kontextuelle statische Registry enthaelt bereits einen Runtimeblock.", t)
  else
    let validationBlocks := (t.activeRecords.map (·.block) ++ blocks).insertionSort
      fun left right => left.contextualKey ≤ right.contextualKey
    match contextualOverlaps validationBlocks with
    | .error message => (.error message, t)
    | .ok hasContextualOverlap =>
      { t with contextualVirtualOverlaps := hasContextualOverlap }.insertSorted true blocks

/-- The check of a runtime block with a template against the active blocks of
its variant. -/
def runtimeOverlaps (block : RuntimeBlock) : List (VariantAddressKey × Nat) → Except String Bool
  | [] => .ok false
  | entry :: rest =>
    match t.records entry.2 with
    -- an active range names a record
    | none => .error block.provenance
    | some active =>
      if !rangesOverlap block.virtualStart block.size active.block.virtualStart
          active.block.size then runtimeOverlaps block rest
      else if block.virtualStart = active.block.virtualStart ∨
          !compatiblePhysicalOverlap block active.block then
        .error ("Kontextuelle Runtime-AOT-Ueberlappung ist nicht eindeutig abbildbar: " ++
          active.block.provenance ++ " <-> " ++ block.provenance)
      else (runtimeOverlaps block rest).map fun _ => true

/-- The insertion of a runtime block, and the seal behind it. -/
def insertRuntime (block : RuntimeBlock) (sealAfterRegistration : Bool) :
    Except String RuntimeBlockHandle × RuntimeBlockTable :=
  match t.insert block true block.aotTemplate.isSome with
  | (.error message, t) => (.error message, t)
  | (.ok handle, t) => (.ok handle, if sealAfterRegistration then t.sealStatic else t)

def registerRuntime (block : RuntimeBlock) : Except String RuntimeBlockHandle × RuntimeBlockTable :=
  let overlap :=
    if block.aotTemplate.isSome then t.runtimeOverlaps block (t.activeRanges block.variant)
    else .ok false
  match overlap with
  | .error message => (.error message, t)
  | .ok hasContextualOverlap =>
    { t with
      contextualVirtualOverlaps := t.contextualVirtualOverlaps || hasContextualOverlap
      }.insertRuntime block (!t.staticSealed)

def markRejected (virtualAddress : BitVec 32) (variant : BlockVariantKey) : RuntimeBlockTable :=
  let key : VariantAddressKey := ⟨variant, virtualAddress⟩
  { t with
    rejectedGenerations := Function.update t.rejectedGenerations key
      (some (ExecutableCodeTracker.countUp ((t.rejectedGenerations key).getD 0))) }

/-! ## Deactivation -/

/-- The static entry of a record moves on and leaves its slot. -/
def dropStaticEntry (id : Nat) (block : RuntimeBlock) : RuntimeBlockTable :=
  match t.staticAotPages.bind (· (pageIndex block.physicalOrigin)) with
  | none => t
  | some staticPage =>
    let index := halfword block.physicalOrigin
    let slot := staticPage.entries index
    if slot ≠ 0 ∧ slot ≠ uint32Max ∧ (t.staticAotEntries[slot - 1]?).any (·.id == id) then
      { t.setPage (pageIndex block.physicalOrigin)
          { staticPage with entries := Function.update staticPage.entries index 0 } with
        staticAotEntries := advanceEntry t.staticAotEntries slot }
    else t

/-- A record leaves the indices of active blocks. A static record stays in the
indices of static blocks. -/
def unlistActive (id : Nat) (record : Record) : RuntimeBlockTable :=
  let block := record.block
  let kept := { t with
    activeVirtualRanges := t.activeVirtualRanges.erase block.key
    activePhysicalPages := fun page =>
      if page ∈ validationPages block then (t.activePhysicalPages page).filter (· ≠ id)
      else t.activePhysicalPages page }
  if record.staticBlock then kept
  else
    { kept with
      dynamicVirtualIndex := t.dynamicVirtualIndex.erase block.key
      dynamicDirectVirtualIndex := Function.update t.dynamicDirectVirtualIndex block.key none
      dynamicPhysicalIndex := t.dynamicPhysicalIndex.erase block.physicalKey }

def retire (id : Nat) (record : Record) : RuntimeBlockTable :=
  let unlisted := t.unlistActive id record
  let moved :=
    if record.staticBlock then unlisted.dropStaticEntry id record.block
    else unlisted.moveShadow record.block (·.filter (· ≠ id))
  { moved with
    records := Function.update t.records id (some { record with
      active := false, generation := advanceGeneration record.generation })
    dispatchGeneration := advanceGeneration t.dispatchGeneration
    activeCount := t.activeCount - 1 }

def deactivate (id : Nat) : RuntimeBlockTable :=
  match t.records id with
  | none => t
  | some record => if record.active then t.retire id record else t

/-- The loop that deactivates each of the ids. -/
def deactivateAll (ids : List Nat) : RuntimeBlockTable := ids.foldl deactivate t

def eraseIdentity (identity : String) : Bool × RuntimeBlockTable :=
  match t.identities identity with
  | none => (false, t)
  | some id =>
    if (t.records id).any (·.active) then (true, t.deactivate id) else (false, t)

/-- The bytes of a write that lie in the address space. -/
def writeExtent (canonical : BitVec 32) (size : Nat) : Nat :=
  if size ≥ 2 ^ 32 - canonical.toNat then 2 ^ 32 - canonical.toNat else size

/-- The write reaches bytes that the block was validated with. -/
def reachesBlock (canonical : BitVec 32) (extent : Nat) (block : RuntimeBlock) : Bool :=
  nativeAotWriteOverlapsImmutable block.validationPhysicalStart block.validationExtent
    block.validationMutableRanges canonical extent

/-- The active blocks that a write reaches. -/
def reachedIds (physicalAddress : BitVec 32) (size : Nat) : List Nat :=
  let canonical := canonicalPhysicalAddress physicalAddress
  let extent := writeExtent canonical size
  let pages := physicalPages canonical.toNat extent
  (sortedUnique (pages.flatMap t.activePhysicalPages)).filter fun id =>
    (t.records id).any fun record => reachesBlock canonical extent record.block

def eraseOverlappingPhysical (physicalAddress : BitVec 32) (size : Nat) : Nat × RuntimeBlockTable :=
  if size = 0 then (0, t)
  else
    let invalidated := t.reachedIds physicalAddress size
    (invalidated.length, t.deactivateAll invalidated)

structure PreparedDiscLoadInvalidation where
  ids : List Nat := []

def prepareDiscLoadInvalidation (physicalAddress : BitVec 32) (size : Nat) :
    PreparedDiscLoadInvalidation :=
  if size = 0 then {}
  else
    { ids := (t.reachedIds physicalAddress size).filter fun id =>
        (t.records id).any (·.active) }

def commitDiscLoadInvalidation (plan : PreparedDiscLoadInvalidation) : RuntimeBlockTable :=
  t.deactivateAll plan.ids

/-- The state of a batch: the table, the records it has visited, and the pages
of the stores so far. -/
structure BatchSweep where
  table : RuntimeBlockTable
  visited : List Nat := []

/-- One candidate of a page: each record is judged once for the whole batch. -/
def sweepCandidate (reached : RuntimeBlock → Bool) (s : BatchSweep) (id : Nat) : BatchSweep :=
  match s.table.records id with
  | none => s
  | some record =>
    if !record.active || decide (id ∈ s.visited) then s
    else
      { table := if reached record.block then s.table.deactivate id else s.table
        visited := id :: s.visited }

/-- The pages of the changed stores, each once. -/
def sweepPages (reached : RuntimeBlock → Bool) : BatchSweep → List Nat → List Nat → BatchSweep
  | s, _, [] => s
  | s, seen, page :: rest =>
    let swept :=
      if page ∈ seen then s
      else (s.table.activePhysicalPages page).foldl (sweepCandidate reached) s
    sweepPages reached swept (page :: seen) rest

/-- `none` where the source terminates. -/
def eraseOverlappingPhysicalBatch (events : List ExecutableCodeTracker.GuestWriteEvent) :
    Option RuntimeBlockTable :=
  if events.length > ExecutableCodeTracker.directLinearWriteBatchCapacity then none
  else
    (ExecutableCodeTracker.changedRanges events).map fun ranges =>
      let reached (block : RuntimeBlock) : Bool :=
        ranges.any fun range => reachesBlock range.1 range.2.1 block
      (sweepPages reached { table := t } [] (ranges.map (·.2.2 / physicalPageSize))).table

def bindCodeTracker (tracker : Option Nat) (staticAotInvalidation : StaticAotInvalidationContract) :
    RuntimeBlockTable :=
  if t.codeTracker = tracker ∧ t.staticAotInvalidation = staticAotInvalidation then t
  else
    { t with
      codeTracker := tracker
      staticAotInvalidation := staticAotInvalidation
      staticAotEntries := t.staticAotEntries.map fun entry =>
        { entry with generation := advanceGeneration entry.generation }
      dispatchGeneration := advanceGeneration t.dispatchGeneration }

/-- `clear()`, with the lifetime it is given. The ids go on. -/
def clear (lifetime : Nat) : RuntimeBlockTable :=
  { nextId := t.nextId
    codeTracker := t.codeTracker
    lookupMode := t.lookupMode
    dispatchLifetime := lifetime
    dispatchGeneration := advanceGeneration t.dispatchGeneration }

/-! ## Static-AOT dispatch -/

inductive BlockDispatchGenerationGuardKind
  | none | staticAot | materializer
  deriving DecidableEq

/-- The generations that only a materializer's guard holds are left out. -/
structure BlockDispatchGenerationGuard where
  block : RuntimeBlockHandle := {}
  kind : BlockDispatchGenerationGuardKind := .none
  tableLifetime : Nat := 0
  tableGeneration : Nat := 0
  staticEntryIndex : Nat := 0
  runtimeRegistered : Bool := false

structure ValidatedBlockExecution where
  block : RuntimeBlockHandle := {}
  function : Option Nat := none
  virtualStart : BitVec 32 := 0
  physicalOrigin : BitVec 32 := 0
  size : BitVec 32 := 0
  variant : BlockVariantKey := {}
  endKind : BlockEndKind := .fallthrough
  runtimeRegistered : Bool := false
  provenance : String := ""
  fastpath : RuntimeBlockFastpathBinding := {}
  generationGuard : BlockDispatchGenerationGuard := {}
  generationGuardReusable : Bool := false

section
variable (trackers : Nat → ExecutableCodeTracker)

/-- What a lookup and a guard both ask of the record of a static entry. -/
def staticallyBound (record : Record) : Bool :=
  t.dispatchable trackers record && record.staticBlock && !record.block.runtimeRegistered &&
    record.block.function.isSome &&
    record.block.staticVariantPolicy == .directP1P2RuntimeStateAgnostic &&
    directP1P2BlockBindingContiguous record.block.virtualStart record.block.physicalOrigin
      record.block.size

/-- The address may have a static entry. -/
def staticAddress (physicalAddress virtualAddress : BitVec 32) : Bool :=
  t.staticSealed && decide (physicalAddress &&& 1 = 0) && decide (virtualAddress &&& 1 = 0) &&
    (decide (virtualAddress >>> 29 = 4) || decide (virtualAddress >>> 29 = 5)) &&
    decide (t.staticAotInvalidation = .coordinated) &&
    decide (canonicalPhysicalAddress virtualAddress = canonicalPhysicalAddress physicalAddress)

/-- The page of an address, where there is one. -/
def staticPageOf (canonical : BitVec 32) : Option StaticAotPage :=
  t.staticAotPages.bind (· (pageIndex canonical))

/-- The entry of a slot that is neither empty nor ambiguous. -/
def staticEntry (slot : Nat) : Option StaticAotEntry :=
  if slot = 0 ∨ slot = uint32Max then none
  else t.staticAotEntries[slot - 1]?.filter (·.id != 0)

/-- The record of an entry answers for the address and the variant. -/
def entryMatches (canonical : BitVec 32) (variant : BlockVariantKey) (record : Record) : Bool :=
  t.staticallyBound trackers record && decide (2 ≤ record.block.size) &&
    decide (record.block.physicalOrigin = canonical) &&
    decide (record.block.variant.runtimeGeneration = variant.runtimeGeneration)

def staticExecution (canonical : BitVec 32) (variant : BlockVariantKey) (entryIndex : Nat)
    (entry : StaticAotEntry) (record : Record) : ValidatedBlockExecution :=
  let block : RuntimeBlockHandle := ⟨entry.id, record.generation⟩
  { block := block
    function := record.block.function
    virtualStart := record.block.virtualStart
    physicalOrigin := canonical
    size := record.block.size
    variant := variant
    endKind := record.block.endKind
    runtimeRegistered := false
    provenance := record.block.provenance
    fastpath := record.block.fastpath
    generationGuard :=
      { block := block
        kind := .staticAot
        tableLifetime := wrapped t.dispatchLifetime
        tableGeneration := wrapped entry.generation
        staticEntryIndex := entryIndex
        runtimeRegistered := false }
    generationGuardReusable := true }

def lookupSealedStaticAot (physicalAddress virtualAddress : BitVec 32)
    (variant : BlockVariantKey) : Option ValidatedBlockExecution := do
  let canonical := canonicalPhysicalAddress physicalAddress
  guard (t.staticAddress physicalAddress virtualAddress)
  let page ← t.staticPageOf canonical
  let entryIndex := page.entries (halfword canonical)
  let entry ← t.staticEntry entryIndex
  let record ← t.records entry.id
  guard (t.entryMatches trackers canonical variant record)
  return t.staticExecution canonical variant entryIndex entry record

/-- A dispatchable dynamic record of the variant shadows the halfword. -/
def shadowed (canonical : BitVec 32) (variant : BlockVariantKey) : Bool :=
  (t.staticPageOf canonical).any fun page =>
    (page.dynamicEntries (halfword canonical)).any fun id => (t.records id).any fun candidate =>
      t.dispatchable trackers candidate && !candidate.staticBlock &&
        decide (candidate.block.variant = variant)

def lookupStaticAot (physicalAddress virtualAddress : BitVec 32) (variant : BlockVariantKey) :
    Option ValidatedBlockExecution := do
  let execution ← t.lookupSealedStaticAot trackers physicalAddress virtualAddress variant
  guard (!t.shadowed trackers (canonicalPhysicalAddress physicalAddress) variant)
  return execution

def staticDispatchGenerationGuardCurrent (generationGuard : BlockDispatchGenerationGuard) : Bool :=
  t.staticSealed && decide (generationGuard.kind = .staticAot) &&
    !generationGuard.runtimeRegistered && decide (t.staticAotInvalidation = .coordinated) &&
    decide (generationGuard.tableLifetime = wrapped t.dispatchLifetime) &&
    decide (generationGuard.staticEntryIndex ≠ 0) &&
    (t.staticAotEntries[generationGuard.staticEntryIndex - 1]?).any fun entry =>
      decide (entry.id ≠ 0) && decide (generationGuard.block.id = entry.id) &&
        decide (generationGuard.tableGeneration = wrapped entry.generation) &&
        (t.records entry.id).any fun record =>
          decide (generationGuard.block.generation = record.generation) &&
            t.staticallyBound trackers record

end
end RuntimeBlockTable
end KatanaRecomp.Runtime
