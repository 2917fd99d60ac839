import KatanaRecomp.Runtime.CodeTracker

/-! # The address space of the guest

`RuntimeAddressSpace` holds the UTLB and a four-entry ITLB in front of it. An
instruction translation looks in the ITLB first and fills it from the UTLB;
everything that only inspects a translation goes to the UTLB. A translation
moves the ITLB even where it throws, so it gives its outcome beside the state
after it. A snapshot copies every member, so it is a value of the same type. The
guards of dispatch and the text of a `TranslationError` are left out. -/
namespace KatanaRecomp.Runtime

inductive AddressTranslationMode
  | noMmu | mmu
  deriving DecidableEq

inductive TranslationAccess
  | instruction | read | write
  deriving DecidableEq

inductive InstructionTranslationPath
  | direct | mapped | invalid
  deriving DecidableEq

structure TlbMapping where
  virtualPage : BitVec 32 := 0
  physicalPage : BitVec 32 := 0
  pageSize : BitVec 32 := 4096
  asid : BitVec 8 := 0
  slot : BitVec 8 := 0
  valid : Bool := true
  readable : Bool := true
  writable : Bool := true
  executable : Bool := true
  userAccess : Bool := true
  dirty : Bool := true
  shared : Bool := false
  deriving DecidableEq

structure TranslationResult where
  virtualAddress : BitVec 32 := 0
  physicalAddress : BitVec 32 := 0
  mmuGeneration : BitVec 64 := 0
  noMmuFastpath : Bool := false
  utlbSlot : BitVec 8 := 0xFF
  itlbSlot : BitVec 8 := 0xFF
  itlbRefilled : Bool := false
  deriving DecidableEq

structure TranslationError where
  access : TranslationAccess
  address : BitVec 32
  cause : ExceptionCause
  deriving DecidableEq

def mmucrAtMask : BitVec 32 := 0x00000001
def mmucrSvMask : BitVec 32 := 0x00000100
def mmucrSqmdMask : BitVec 32 := 0x00000200
def mmucrTranslationMask : BitVec 32 := mmucrAtMask ||| mmucrSvMask ||| mmucrSqmdMask
def mmucrItlbContextMask : BitVec 32 := mmucrAtMask ||| mmucrSvMask
def sh4OnChipRamAddress : BitVec 32 := 0x7C000000

def validPageSize (pageSize : BitVec 32) : Bool :=
  pageSize == 1024 || pageSize == 4096 || pageSize == 65536 || pageSize == 1048576

/-- Also the type of `RuntimeAddressSpaceSnapshot`. -/
structure RuntimeAddressSpace where
  mode : AddressTranslationMode := .noMmu
  mmucr : BitVec 32 := 0
  asid : BitVec 8 := 0
  addressSpaceGeneration : BitVec 64 := 0
  mmuGeneration : BitVec 64 := 0
  watchpointGeneration : BitVec 64 := 0
  mappings : List TlbMapping := []
  itlb : Fin 4 → TlbMapping := fun _ => {}
  itlbValid : Fin 4 → Bool := fun _ => false
  itlbLru : Fin 4 → BitVec 8 := fun _ => 0
  itlbSourceSlots : Fin 4 → BitVec 8 := fun _ => 0xFF

namespace RuntimeAddressSpace
variable (s : RuntimeAddressSpace)

/-! ## Registers and the UTLB -/

def setMode (mode : AddressTranslationMode) : RuntimeAddressSpace :=
  if s.mode ≠ mode then
    { s with mode := mode, addressSpaceGeneration := s.addressSpaceGeneration + 1 }
  else s

def clearItlb : RuntimeAddressSpace :=
  { s with itlbValid := fun _ => false, itlbLru := fun _ => 0, itlbSourceSlots := fun _ => 0xFF }

def writeMmucr (value : BitVec 32) : RuntimeAddressSpace :=
  if s.mmucr ≠ value then
    let translationChanged := (s.mmucr ^^^ value) &&& mmucrTranslationMask ≠ 0
    let itlbContextChanged := (s.mmucr ^^^ value) &&& mmucrItlbContextMask ≠ 0
    let next := { s with mmucr := value }
    let next := if itlbContextChanged then next.clearItlb else next
    if translationChanged then { next with mmuGeneration := next.mmuGeneration + 1 } else next
  else s

def writePteh (value : BitVec 32) : RuntimeAddressSpace :=
  let asid := value.setWidth 8
  if s.asid ≠ asid then { s with asid := asid, mmuGeneration := s.mmuGeneration + 1 } else s

/-- The first mapping of the slot gives way, else the mapping goes to the end. -/
def replaceSlot (mapping : TlbMapping) : List TlbMapping → List TlbMapping
  | [] => [mapping]
  | value :: rest =>
    if value.slot = mapping.slot then mapping :: rest else value :: replaceSlot mapping rest

/-- The mapping that `ldtlb` stores, its pages aligned. -/
def alignedMapping (mapping : TlbMapping) : TlbMapping :=
  { mapping with
    virtualPage := mapping.virtualPage / mapping.pageSize * mapping.pageSize
    physicalPage :=
      canonicalPhysicalAddress mapping.physicalPage / mapping.pageSize * mapping.pageSize }

def ldtlb (mapping : TlbMapping) : Except Fault RuntimeAddressSpace :=
  if validPageSize mapping.pageSize = false then
    .error (.host "SH-4-TLB-Seitengroesse ist ungueltig.")
  else
    let next := { s with mappings := replaceSlot (alignedMapping mapping) s.mappings }
    let next := next.clearItlb
    .ok { next with mmuGeneration := next.mmuGeneration + 1 }

def clearTlb : RuntimeAddressSpace :=
  let next := { s with mappings := [] }
  let next := next.clearItlb
  { next with mmuGeneration := next.mmuGeneration + 1 }

def bumpAddressSpace : RuntimeAddressSpace :=
  { s with addressSpaceGeneration := s.addressSpaceGeneration + 1 }

def bumpWatchpoints : RuntimeAddressSpace :=
  { s with watchpointGeneration := s.watchpointGeneration + 1 }

/-! ## Translation -/

def instructionTranslationPath (address : BitVec 32) (privileged : Bool) :
    InstructionTranslationPath :=
  if !privileged && decide (address ≥ 0x80000000) then .invalid
  else if address &&& 0xFC000000 = sh4OnChipRamAddress then .direct
  else
    let segment := address >>> 29
    if segment = 4 ∨ segment = 5 then (if privileged then .direct else .invalid)
    else if segment ≥ 7 then .invalid
    else if s.mode = .noMmu then .direct
    else if segment = 6 ∧ privileged = false then .invalid
    else .mapped

/-- `MMUCR.SV` is set. -/
def singleVirtual : Bool := s.mmucr &&& mmucrSvMask != 0

/-- The lambda `matches` of `translate_mapped`. -/
def hits (address : BitVec 32) (privileged : Bool) (value : TlbMapping) : Bool :=
  let start := value.virtualPage.toNat
  let stop := start + value.pageSize.toNat
  let asidMatch := value.shared || (privileged && s.singleVirtual) || value.asid == s.asid
  value.valid && decide (start ≤ address.toNat) && decide (address.toNat < stop) && asidMatch

def finishTranslation (address : BitVec 32) (access : TranslationAccess) (privileged : Bool)
    (mapping : TlbMapping) (utlbSlot itlbSlot : BitVec 8) (itlbRefilled : Bool) :
    Except TranslationError TranslationResult :=
  if !privileged && !mapping.userAccess then
    .error ⟨access, address, if access = .write then .tlbProtectionWrite else .tlbProtectionRead⟩
  else if access = .write ∧ (mapping.writable = false ∨ mapping.dirty = false) then
    .error ⟨access, address, if mapping.writable then .initialPageWrite else .tlbProtectionWrite⟩
  else if access = .instruction ∧ mapping.executable = false ∨
      access = .read ∧ mapping.readable = false then
    .error ⟨access, address, .tlbProtectionRead⟩
  else
    .ok
      { virtualAddress := address
        physicalAddress := mapping.physicalPage + (address - mapping.virtualPage)
        mmuGeneration := s.mmuGeneration
        noMmuFastpath := false
        utlbSlot := utlbSlot
        itlbSlot := itlbSlot
        itlbRefilled := itlbRefilled }

/-- `std::count` over the valid flags. -/
def itlbValidCount : BitVec 8 := BitVec.ofNat 8 ((List.finRange 4).filter s.itlbValid).length

/-- Every other valid entry ranked above `oldRank` moves down one. -/
def lowerRanks (touched : Fin 4) (oldRank : BitVec 8) : Fin 4 → BitVec 8 := fun index =>
  if index ≠ touched ∧ s.itlbValid index = true ∧ s.itlbLru index > oldRank then
    s.itlbLru index - 1
  else s.itlbLru index

def touchItlb (touched : Fin 4) : RuntimeAddressSpace :=
  let ranks := s.lowerRanks touched (s.itlbLru touched)
  let rank := if s.itlbValidCount = 0 then 0 else s.itlbValidCount - 1
  { s with itlbLru := Function.update ranks touched rank }

/-- `std::min_element` over the ranks: the first of the smallest. -/
def leastRecent : Fin 4 := (List.finRange 4).foldl
    (fun best index => if s.itlbLru index < s.itlbLru best then index else best) 0

/-- The first free entry of the ITLB, else the one used longest ago. -/
def replacement : Fin 4 :=
  ((List.finRange 4).find? fun index => !s.itlbValid index).getD s.leastRecent

def refillItlb (mapping : TlbMapping) : RuntimeAddressSpace :=
  let replacement := s.replacement
  let replacingValidEntry := s.itlbValid replacement
  let oldRank := s.itlbLru replacement
  let next :=
    { s with
      itlb := Function.update s.itlb replacement mapping
      itlbValid := Function.update s.itlbValid replacement true
      itlbSourceSlots := Function.update s.itlbSourceSlots replacement mapping.slot }
  let ranks := if replacingValidEntry then next.lowerRanks replacement oldRank else next.itlbLru
  { next with itlbLru := Function.update ranks replacement (next.itlbValidCount - 1) }

/-- The ITLB entry that answers, the first that matches. -/
def itlbHit (address : BitVec 32) (privileged : Bool) : Option (Fin 4) :=
  (List.finRange 4).find? fun index => s.itlbValid index && s.hits address privileged (s.itlb index)

/-- `find_if` over the UTLB and again behind the entry found. -/
def utlbLookup (address : BitVec 32) (access : TranslationAccess) (privileged : Bool) :
    Except TranslationError TlbMapping :=
  match s.mappings.dropWhile fun value => !s.hits address privileged value with
  | [] =>
    .error ⟨access, address, if access = .write then .tlbMissWrite else .tlbMissRead⟩
  | found :: rest =>
    if rest.any (s.hits address privileged) then .error ⟨access, address, .tlbMultipleHit⟩
    else .ok found

def translateMapped (address : BitVec 32) (access : TranslationAccess)
    (privileged updateInstructionTlb : Bool) :
    Except TranslationError TranslationResult × RuntimeAddressSpace :=
  let throughItlb := access = .instruction ∧ updateInstructionTlb = true
  match (if throughItlb then s.itlbHit address privileged else none) with
  | some index =>
    (s.finishTranslation address access privileged (s.itlb index) 0xFF
      (BitVec.ofNat 8 index) false, s.touchItlb index)
  | none =>
    match s.utlbLookup address access privileged with
    | .error fault => (.error fault, s)
    | .ok found =>
      if throughItlb then
        -- the ITLB keeps the entry even where the access is refused
        (s.finishTranslation address access privileged found found.slot
          (BitVec.ofNat 8 s.replacement) true, s.refillItlb found)
      else (s.finishTranslation address access privileged found found.slot 0xFF false, s)

def directTranslation (address physical : BitVec 32) : TranslationResult :=
  { virtualAddress := address, physicalAddress := physical, mmuGeneration := s.mmuGeneration
    noMmuFastpath := true }

def translateImpl (address : BitVec 32) (access : TranslationAccess)
    (privileged updateInstructionTlb : Bool) :
    Except TranslationError TranslationResult × RuntimeAddressSpace :=
  let readCause : ExceptionCause :=
    if access = .write then .addressErrorWrite else .addressErrorRead
  if access = .instruction then
    if address &&& 1 ≠ 0 then (.error ⟨access, address, .addressErrorRead⟩, s)
    else
      match s.instructionTranslationPath address privileged with
      | .direct => (.ok (s.directTranslation address (canonicalPhysicalAddress address)), s)
      | .mapped => s.translateMapped address access privileged updateInstructionTlb
      | .invalid => (.error ⟨access, address, readCause⟩, s)
  else if !privileged && decide (address ≥ 0x80000000) then (.error ⟨access, address, readCause⟩, s)
  else if address &&& 0xFC000000 = sh4OnChipRamAddress then
    (.ok (s.directTranslation address address), s)
  else
    let segment := address >>> 29
    if segment = 4 ∨ segment = 5 then
      if privileged then (.ok (s.directTranslation address (canonicalPhysicalAddress address)), s)
      else (.error ⟨access, address, readCause⟩, s)
    else if segment ≥ 7 then
      if privileged then (.ok (s.directTranslation address address), s)
      else (.error ⟨access, address, readCause⟩, s)
    else if s.mode = .noMmu then
      (.ok (s.directTranslation address (canonicalPhysicalAddress address)), s)
    else if segment = 6 ∧ privileged = false then (.error ⟨access, address, readCause⟩, s)
    else s.translateMapped address access privileged updateInstructionTlb

def translate (address : BitVec 32) (access : TranslationAccess) (privileged : Bool) :
    Except TranslationError TranslationResult × RuntimeAddressSpace :=
  s.translateImpl address access privileged true

def inspectTranslation (address : BitVec 32) (access : TranslationAccess) (privileged : Bool) :
    Except TranslationError TranslationResult := (s.translateImpl address access privileged false).1

/-! ## Restoring a snapshot -/

/-- The lambda `valid_mapping` of `validate_state_restore`. -/
def validMapping (mapping : TlbMapping) : Bool :=
  validPageSize mapping.pageSize && decide (mapping.slot < 64) &&
    mapping.virtualPage % mapping.pageSize == 0 && mapping.physicalPage % mapping.pageSize == 0 &&
    canonicalPhysicalAddress mapping.physicalPage == mapping.physicalPage

/-- The loop over the UTLB with the slots seen so far. -/
def utlbRestorable : List (BitVec 8) → List TlbMapping → Bool
  | _, [] => true
  | seen, mapping :: rest =>
    if validMapping mapping = false ∨ mapping.slot ∈ seen then false
    else utlbRestorable (mapping.slot :: seen) rest

/-- The check of one valid ITLB entry against the UTLB it came from. -/
def itlbEntryRestorable (seenRanks : List (BitVec 8)) (index : Fin 4) : Bool :=
  let source := s.itlbSourceSlots index
  let rank := s.itlbLru index
  decide (source < 64) && (s.mappings.find? fun value => value.slot == source) == some (s.itlb index) &&
    validMapping (s.itlb index) && decide (rank < s.itlbValidCount) && decide (rank ∉ seenRanks)

def validateItlb : List (BitVec 8) → List (Fin 4) → Except Fault Unit
  | _, [] => .ok ()
  | seenRanks, index :: rest =>
    if s.itlbValid index = false then
      if s.itlbSourceSlots index ≠ 0xFF then
        .error (.host "MMU-Handoff besitzt eine inkonsistente ITLB-Quelle.")
      else validateItlb seenRanks rest
    else if s.itlbEntryRestorable seenRanks index = false then
      .error (.host "MMU-Handoff besitzt einen inkonsistenten ITLB-Zustand.")
    else validateItlb (s.itlbLru index :: seenRanks) rest

/-- The mode of a snapshot has no third value here. -/
def validateStateRestore (state : RuntimeAddressSpace) : Except Fault Unit :=
  if state.mappings.length > 64 ∨ s.addressSpaceGeneration = BitVec.allOnes 64 ∨
      s.mmuGeneration = BitVec.allOnes 64 then
    .error (.host "MMU-Handoff kann nicht guard-sicher importiert werden.")
  else if utlbRestorable [] state.mappings = false then
    .error (.host "MMU-Handoff besitzt eine ungueltige UTLB-Abbildung.")
  else state.validateItlb [] (List.finRange 4)

/-- The generations of the snapshot are not trusted. -/
def commitValidatedStateRestore (state : RuntimeAddressSpace) : RuntimeAddressSpace :=
  { state with
    addressSpaceGeneration := s.addressSpaceGeneration + 1
    mmuGeneration := s.mmuGeneration + 1
    watchpointGeneration := s.watchpointGeneration }

def restoreStatePassive (state : RuntimeAddressSpace) : Except Fault RuntimeAddressSpace := do
  s.validateStateRestore state
  return s.commitValidatedStateRestore state

/-! ## Runs -/

inductive Operation
  | setMode (mode : AddressTranslationMode)
  | writeMmucr (value : BitVec 32)
  | writePteh (value : BitVec 32)
  | ldtlb (mapping : TlbMapping)
  | clearTlb
  | clearItlb
  | bumpAddressSpace
  | bumpWatchpoints
  | translate (address : BitVec 32) (access : TranslationAccess) (privileged : Bool)
  | restore (state : RuntimeAddressSpace)

/-- What an operation leaves, also where it throws. -/
def apply : Operation → RuntimeAddressSpace
  | .setMode mode => s.setMode mode
  | .writeMmucr value => s.writeMmucr value
  | .writePteh value => s.writePteh value
  | .ldtlb mapping => (s.ldtlb mapping).toOption.getD s
  | .clearTlb => s.clearTlb
  | .clearItlb => s.clearItlb
  | .bumpAddressSpace => s.bumpAddressSpace
  | .bumpWatchpoints => s.bumpWatchpoints
  | .translate address access privileged => (s.translate address access privileged).2
  | .restore state => (s.restoreStatePassive state).toOption.getD s

end RuntimeAddressSpace
end KatanaRecomp.Runtime
