import KatanaRecomp.Runtime.GuestMemory
import KatanaRecomp.Runtime.BlockDispatch

/-! # Main memory and its mirrors

`map_dreamcast_main_ram` shows one backing of 16 MiB at four mirrors in each of
seven areas. A guest store through any of them changes the backing and is
reported with the address it was made at. The write observer of the boot runtime
folds that address onto the first mirror before it tells the code tracker and
the block table. No disc load transaction is under way, which would take the
report instead; the module catalog, which the observer also tells, is left out. -/
namespace KatanaRecomp.Runtime
open ExecutableCodeTracker (GuestWriteEvent)
namespace MainRam

def dreamcastMainRamSize : Nat := 2 ^ 24

def dreamcastMainRamMirrorsPerArea : Nat := 4

def dreamcastMainRamAreaBases : List (BitVec 32) :=
  [0x0C000000, 0x2C000000, 0x4C000000, 0x6C000000, 0x8C000000, 0xAC000000, 0xCC000000]

def mainRamAliasBase (areaBase : BitVec 32) (mirrorIndex : Nat) : BitVec 32 :=
  areaBase + BitVec.ofNat 32 (mirrorIndex * dreamcastMainRamSize)

/-- The number of the main memory among the devices. -/
def mainRam : Nat := 0

def mainRamRegions : List MappedRegion := dreamcastMainRamAreaBases.flatMap fun areaBase =>
    (List.range dreamcastMainRamMirrorsPerArea).map fun mirrorIndex =>
      { baseAddress := mainRamAliasBase areaBase mirrorIndex
        size := dreamcastMainRamSize
        device := mainRam }

def mapDreamcastMainRam (lookupMode : MemoryLookupMode) (storage : Nat → BitVec 8) : Memory where
  regions := mainRamRegions
  lookupMode := lookupMode
  storage := fun _ => storage
  apart := by decide

end MainRam

namespace Memory
open MainRam
variable (memory : Memory)

/-! ## Stores

Alignment is for the caller to refuse. -/

def resolveWritable (address : BitVec 32) (width : Nat) : Except Fault MappedRegion :=
  if address.toNat + width > 2 ^ 32 then .error (.memory ⟨.write, .addressOverflow, address⟩)
  else
    match memory.regionAt address width with
    | some mapped =>
      if !mapped.readWrite then .error (.memory ⟨.write, .readOnly, address⟩)
      else if !mapped.linear then .error (.memory ⟨.write, .deviceRejected, address⟩)
      else .ok mapped
    | none =>
      if memory.regions.any (·.covers address 1) then
        .error (.memory ⟨.write, .crossRegion, address⟩)
      else .error (.memory ⟨.write, .unmapped, address⟩)

/-- The bytes of a device from `offset` on. -/
def bytesAt (device offset width : Nat) : List (BitVec 8) :=
  (List.range width).map fun index => memory.storage device (offset + index)

/-- `write_u8_at`, `write_u16_at` and `write_u32_at`, with the bytes of the value. -/
def writeScalar (address : BitVec 32) (bytes : List (BitVec 8)) (source : CodeWriteSource) :
    Except Fault (Memory × List GuestWriteEvent) := do
  let mapped ← memory.resolveWritable address bytes.length
  let offset := mapped.offset address
  .ok (memory.store mapped.device offset bytes,
    [{ address := address
       size := bytes.length
       source := source
       bytesChanged := decide (memory.bytesAt mapped.device offset bytes.length ≠ bytes) }])

/-- The loop that commits the bytes of `write_bytes_at_impl`, from `index` on. -/
def commitBytes (address : BitVec 32) : Nat → Memory → List (BitVec 8) → Memory
  | _, memory, [] => memory
  | index, memory, byte :: rest =>
    match memory.cell (address + BitVec.ofNat 32 index) with
    | some (device, offset) => commitBytes address (index + 1) (memory.store device offset [byte]) rest
    | none => commitBytes address (index + 1) memory rest

/-- The byte at the address differs from the one there is. -/
def byteChanges (address : BitVec 32) (byte : BitVec 8) : Bool :=
  match memory.cell address with
  | some (device, offset) => decide (memory.storage device offset ≠ byte)
  | none => true

def writeBytes (address : BitVec 32) (bytes : List (BitVec 8)) (source : CodeWriteSource) :
    Except Fault (Memory × List GuestWriteEvent) :=
  if bytes.isEmpty then .ok (memory, [])
  else if bytes.length > 2 ^ 32 - address.toNat then
    .error (.memory ⟨.write, .addressOverflow, address⟩)
  else do
    let _ ← (List.range bytes.length).mapM fun index =>
      memory.resolveWritable (address + BitVec.ofNat 32 index) 1
    .ok (commitBytes address 0 memory bytes,
      [{ address := address
         size := bytes.length
         source := source
         bytesChanged := bytes.zipIdx.any fun (byte, index) =>
           memory.byteChanges (address + BitVec.ofNat 32 index) byte }])

/-- The window that `map_dreamcast_main_ram` binds. -/
def directLinearPhysicalBase : Nat := 0x0C000000

def directLinearPhysicalSpan : Nat := dreamcastMainRamSize * dreamcastMainRamMirrorsPerArea

def directLinearOffset (physicalAddress : BitVec 32) (width : Nat) : Option Nat :=
  if width = 0 ∨ width > dreamcastMainRamSize ∨ physicalAddress.toNat % width ≠ 0 then none
  else if physicalAddress.toNat < directLinearPhysicalBase then none
  else
    let relative := physicalAddress.toNat - directLinearPhysicalBase
    if relative ≥ directLinearPhysicalSpan ∨ width > directLinearPhysicalSpan - relative then none
    else
      let offset := relative % dreamcastMainRamSize
      if width ≤ dreamcastMainRamSize - offset then some offset else none

/-- `try_write_direct_linear_*` with direct writes enabled; a store that is not taken does
nothing. -/
def tryWriteDirectLinear (physicalAddress : BitVec 32) (bytes : List (BitVec 8))
    (source : CodeWriteSource) : Memory × List GuestWriteEvent :=
  match directLinearOffset physicalAddress bytes.length with
  | none => (memory, [])
  | some offset =>
    (memory.store mainRam offset bytes,
      [{ address := physicalAddress
         size := bytes.length
         source := source
         bytesChanged := decide (memory.bytesAt mainRam offset bytes.length ≠ bytes) }])

end Memory

/-- A store of the guest, by the path it takes through `Memory`. -/
inductive GuestStore
  | scalar (address : BitVec 32) (bytes : List (BitVec 8))
  | range (address : BitVec 32) (bytes : List (BitVec 8))
  | directLinear (physicalAddress : BitVec 32) (bytes : List (BitVec 8))

def GuestStore.perform (memory : Memory) (source : CodeWriteSource) :
    GuestStore → Except Fault (Memory × List GuestWriteEvent)
  | .scalar address bytes => memory.writeScalar address bytes source
  | .range address bytes => memory.writeBytes address bytes source
  | .directLinear physicalAddress bytes =>
    .ok (memory.tryWriteDirectLinear physicalAddress bytes source)

namespace MainRam

/-! ## The observers -/

structure BackingExtent where
  backing : BitVec 32
  sourceOffset : Nat
  extentSize : Nat
  mainRam : Bool

def area3Begin : Nat := 0x0C000000

def area3End : Nat := 0x10000000

/-- The loop of `for_each_dreamcast_executable_backing_extent`, with `remaining` bytes to go; a
turn takes one of them at least. -/
def backingExtentsFrom : Nat → Nat → Nat → Nat → List BackingExtent
  | 0, _, _, _ => []
  | turns + 1, cursor, sourceOffset, remaining =>
    if remaining = 0 then []
    else
      let backingOffset := (cursor - area3Begin) % dreamcastMainRamSize
      let extentSize := min remaining (dreamcastMainRamSize - backingOffset)
      { backing := BitVec.ofNat 32 (area3Begin + backingOffset)
        sourceOffset := sourceOffset
        extentSize := extentSize
        mainRam := true } ::
        backingExtentsFrom turns (cursor + extentSize) (sourceOffset + extentSize)
          (remaining - extentSize)

def forEachDreamcastExecutableBackingExtent (address : BitVec 32) (size : Nat) :
    List BackingExtent :=
  let physical := (canonicalPhysicalAddress address).toNat
  if size ≠ 0 ∧ area3Begin ≤ physical ∧ physical < area3End ∧ size ≤ area3End - physical then
    backingExtentsFrom size physical 0 size
  else
    [{ backing := canonicalPhysicalAddress address
       sourceOffset := 0
       extentSize := size
       mainRam := false }]

/-- The code tracker and the block table. -/
structure CodeState where
  tracker : ExecutableCodeTracker
  table : RuntimeBlockTable

namespace CodeState
variable (s : CodeState)

/-- `observe_write`, and `erase_overlapping_physical` if bytes changed. An exception ends the
program, because the observer is `noexcept`. -/
def invalidate (address : BitVec 32) (size : Nat) (source : CodeWriteSource) (bytesChanged : Bool) :
    Option CodeState :=
  match s.tracker.observeWrite address size source bytesChanged with
  | .error _ => none
  | .ok (result, tracker) =>
    if result.byteIdentical then some { s with tracker := tracker }
    else some { tracker := tracker, table := (s.table.eraseOverlappingPhysical address size).2 }

/-- The event as `Memory` reports it. -/
def observeReported (event : GuestWriteEvent) : Option CodeState :=
  s.invalidate event.address event.size event.source event.bytesChanged

def observeExtent (event : GuestWriteEvent) (extent : BackingExtent) : Option CodeState :=
  if !extent.mainRam && !s.tracker.tracksAddress extent.backing extent.extentSize then some s
  else s.invalidate extent.backing extent.extentSize event.source event.bytesChanged

/-- The write observer of the boot runtime. -/
def observeGuestWrite (event : GuestWriteEvent) : Option CodeState :=
  (forEachDreamcastExecutableBackingExtent event.address event.size).foldlM
    (fun s extent => s.observeExtent event extent) s

end CodeState
end MainRam
end KatanaRecomp.Runtime
