import KatanaRecomp.Lib.ByteFormat
import KatanaRecomp.Lib.Patch
import KatanaRecomp.Runtime.CodeTracker
import KatanaRecomp.Runtime.MemoryMapLookup

/-! # The bytes of the address space and who hears of a store

`Memory` keeps the bytes of the linear devices; a byte has a place, the device
and the offset in it, and every region of the device shows it. A 32-bit VRAM
device is not linear itself and passes its words to a linear device. Observers
are told of a store after its bytes are visible; `delivered` is what they heard.
An observer does not touch the memory here. The counters, the devices that are
neither linear nor VRAM and what the sink hears of a single store are left out. -/
namespace KatanaRecomp.Runtime
open Lib ByteFormat
open ExecutableCodeTracker (GuestWriteEvent)

inductive GuestWriteObserverContract
  | general | stableForPrevalidatedLinearWrites
  deriving DecidableEq

inductive MemoryWatchpointAccess
  | read | write | readWrite

/-- A call of an observer: of a trace handler or a watchpoint, of the observer of
guest writes, of the sink of guest accesses. -/
inductive MemoryNotification
  | access (operation : MemoryAccessOperation) (address : BitVec 32) (width : MemoryAccessWidth)
      (value : BitVec 32) (regionName : String)
  | guestWrite (event : GuestWriteEvent)
  | writeRange (address : BitVec 32) (size : Nat) (source : CodeWriteSource)
      (changedBytes : List Bool)
  deriving DecidableEq

/-- The window of direct access: mirrors of one linear device in a row. -/
structure DirectLinearWindow where
  backing : Nat
  backingSize : Nat
  physicalBase : BitVec 32
  physicalSpan : BitVec 32
  powerOfTwo : ∃ exponent, backingSize = 2 ^ exponent
  small : backingSize < 2 ^ 32

/-- `direct_linear_backing_mask_`. -/
def DirectLinearWindow.backingMask (window : DirectLinearWindow) : BitVec 32 :=
  BitVec.ofNat 32 (window.backingSize - 1)

/-- The device and the offset of a byte. -/
abbrev MemoryPlace : Type := Nat × Nat

def dreamcastVramSize : Nat := 0x00800000
def dreamcastVramBankSize : Nat := 0x00400000

/-- `dreamcast_vram_32bit_to_linear_offset`: the words of the two banks alternate. -/
def vram32BitToLinearOffset (offset : Nat) : Nat :=
  let bank := offset / dreamcastVramBankSize
  let offsetInBank := offset % dreamcastVramBankSize
  let wordInBank := offsetInBank / 4
  let byteInWord := offsetInBank % 4
  (wordInBank * 2 + bank) * 4 + byteInWord

structure MemoryState where
  map : MemoryMap
  wellMapped : map.WellMapped
  storage : MemoryPlace → BitVec 8
  /-- The linear device behind a 32-bit VRAM device. -/
  vramBacking : Nat → Option Nat := fun _ => none
  vramSized : ∀ mapped ∈ map.regions, vramBacking mapped.device ≠ none →
    mapped.size = dreamcastVramSize
  directLinearWindow : Option DirectLinearWindow := none
  directLinearWritesEnabled : Bool := false
  directLinearGeneration : BitVec 64 := 1
  traceHandler : Bool := false
  watchpoints : List MemoryWatchpointAccess := []
  mmioAccessTracking : Bool := false
  mmioTraceHandler : Bool := false
  guestMemoryAccessSink : Bool := false
  guestWriteObserver : Option GuestWriteObserverContract := none
  /-- `admit` of the batch observer. -/
  guestWriteBatchObserver : Option (List GuestWriteEvent → Bool) := none
  guestWriteObserverGeneration : BitVec 64 := 1
  delivered : List MemoryNotification := []

/-- The arguments of `write_u8`, `write_u16` or `write_u32`. -/
structure ScalarStore where
  address : BitVec 32
  width : MemoryAccessWidth
  value : BitVec (8 * width.bytes)
  source : CodeWriteSource := .cpu

def ScalarStore.bytes (store : ScalarStore) : List (BitVec 8) :=
  littleEndian store.width.bytes store.value

def ScalarStore.event (store : ScalarStore) (bytesChanged : Bool) : GuestWriteEvent where
  address := store.address
  size := store.width.bytes
  source := store.source
  bytesChanged := bytesChanged

namespace MemoryState
variable (memory : MemoryState)

def withStorage (storage : MemoryPlace → BitVec 8) : MemoryState :=
  { memory with storage := storage }

def deliver (notification : MemoryNotification) : MemoryState :=
  { memory with delivered := memory.delivered ++ [notification] }

def accessObserversActive : Bool := memory.traceHandler || !memory.watchpoints.isEmpty

/-- `guest_write_observer_allows_prevalidated_linear_writes`. -/
def observerAllowsPrevalidatedWrites : Bool :=
  match memory.guestWriteObserver with
  | none => true
  | some contract => decide (contract = .stableForPrevalidatedLinearWrites)

def notifyGuestWrite (event : GuestWriteEvent) : MemoryState :=
  if memory.guestWriteObserver.isSome then memory.deliver (.guestWrite event) else memory

/-- The bytes from a position of a device on. -/
def storeBytes (device offset : Nat) (bytes : List (BitVec 8)) : MemoryState :=
  memory.withStorage ((rowPatch device offset bytes).apply memory.storage)

def readRange (device offset size : Nat) : List (BitVec 8) :=
  (List.range size).map fun index => memory.storage (device, offset + index)

/-! ## A single store -/

def resolveWritable (address : BitVec 32) (width : MemoryAccessWidth) :
    Except LookupError NamedRegion :=
  match memory.map.resolve address width .write with
  | .error error => .error error
  | .ok mapped =>
    if mapped.readWrite then .ok mapped
    else
      .error
        { operation := .write, reason := .readOnly, address := address, width := width,
          regionName := mapped.name }

/-- What `write_u8_at` and its siblings do behind the store of the bytes. -/
def notifyScalar (mapped : NamedRegion) (store : ScalarStore) (observerChanged : Bool) :
    MemoryState := let observed := if memory.accessObserversActive then
      memory.deliver (.access .write store.address store.width (store.value.setWidth 32) mapped.name)
    else memory
  observed.notifyGuestWrite (store.event observerChanged)

/-- The change of a linear store is exact where somebody listens; a store to
another device always counts as a change. -/
def writeScalar (store : ScalarStore) : Except LookupError MemoryState :=
  match memory.resolveWritable store.address store.width with
  | .error error => .error error
  | .ok mapped =>
    let offset := mapped.offset store.address
    if mapped.linear then
      let exactChanged := assemble (8 * store.width.bytes) 0
          (memory.readRange mapped.device offset store.width.bytes) != store.value
      let observerChanged :=
        if memory.guestWriteObserver.isSome || memory.guestMemoryAccessSink then exactChanged
        else true
      .ok ((memory.storeBytes mapped.device offset store.bytes).notifyScalar mapped store
        observerChanged)
    else
      match memory.vramBacking mapped.device with
      | none =>
        .error
          { operation := .write, reason := .deviceRejected, address := store.address,
            width := store.width, regionName := mapped.name }
      | some backing =>
        .ok ((memory.storeBytes backing (vram32BitToLinearOffset offset) store.bytes).notifyScalar
          mapped store true)

/-! ## A byte at a guest address -/

/-- The place of the byte that a linear region shows at an address. -/
def placeAt (address : BitVec 32) : Option MemoryPlace :=
  match memory.map.scanRegion address 1 with
  | none => none
  | some mapped => if mapped.linear then some (mapped.device, mapped.offset address) else none

def writeByte (address : BitVec 32) (value : BitVec 8) : MemoryState :=
  match memory.placeAt address with
  | none => memory
  | some place => memory.withStorage (Function.update memory.storage place value)

/-- One byte after the other, from the address on. -/
def writeRow (address : BitVec 32) (bytes : List (BitVec 8)) : MemoryState := bytes.zipIdx.foldl
    (fun memory entry => memory.writeByte (address + BitVec.ofNat 32 entry.2) entry.1) memory

/-! ## Rows of bytes -/

variable {memory} {mapped : NamedRegion} {address : BitVec 32}

@[simp] theorem withStorage_storage (storage : MemoryPlace → BitVec 8) :
    (memory.withStorage storage).storage = storage := rfl

@[simp] theorem withStorage_withStorage (first second : MemoryPlace → BitVec 8) :
    (memory.withStorage first).withStorage second = memory.withStorage second := rfl

@[simp] theorem withStorage_self : memory.withStorage memory.storage = memory := rfl

@[simp] theorem scanRegion_byte (hmem : mapped ∈ memory.map.regions) (hholds : mapped.Holds address) :
    memory.map.scanRegion address 1 = some mapped := by
  have hcovers : mapped.covers address 1 = true := MappedRegion.covers_iff.mpr hholds
  cases hscan : memory.map.scanRegion address 1 with
  | none => exact absurd hcovers (by simpa using List.find?_eq_none.mp hscan mapped hmem)
  | some other =>
    have hother : other.covers address 1 = true := by
      unfold MemoryMap.scanRegion at hscan
      simpa using List.find?_some hscan
    rw [memory.wellMapped.holds_unique hmem (List.mem_of_find?_eq_some hscan) hholds
      (MappedRegion.holds_of_covers Nat.one_ne_zero hother)]

theorem placeAt_of_mem (hmem : mapped ∈ memory.map.regions) (hholds : mapped.Holds address)
    (hlinear : mapped.linear = true) :
    memory.placeAt address = some (mapped.device, mapped.offset address) := by
  unfold placeAt
  rw [scanRegion_byte hmem hholds]
  exact if_pos hlinear

/-- A byte inside a range that does not leave the address space. -/
theorem toNat_add_index {index size : Nat} (hindex : index < size)
    (hspace : address.toNat + size ≤ 2 ^ 32) :
    (address + BitVec.ofNat 32 index).toNat = address.toNat + index := by
  rw [BitVec.toNat_add, BitVec.toNat_ofNat, Nat.mod_eq_of_lt (by omega : index < 2 ^ 32),
    Nat.mod_eq_of_lt (by omega)]

theorem writeByte_of_mem (hmem : mapped ∈ memory.map.regions) (hholds : mapped.Holds address)
    (hlinear : mapped.linear = true) (value : BitVec 8) : memory.writeByte address value =
      memory.withStorage
        (Function.update memory.storage (mapped.device, mapped.offset address) value) := by
  unfold writeByte
  rw [placeAt_of_mem hmem hholds hlinear]

theorem foldl_writeByte_of_mem (hlinear : mapped.linear = true) (hbase : mapped.Holds address)
    (bytes : List (BitVec 8)) :
    ∀ (memory : MemoryState) (start : Nat), mapped ∈ memory.map.regions →
      address.toNat + start + bytes.length ≤ mapped.regionEnd → (bytes.zipIdx start).foldl
          (fun memory entry => memory.writeByte (address + BitVec.ofNat 32 entry.2) entry.1)
          memory = memory.storeBytes mapped.device (mapped.offset address + start) bytes := by
  induction bytes with
  | nil =>
    intro memory start hmem hend
    unfold storeBytes
    rw [rowPatch_nil]
    rfl
  | cons first row ih =>
    intro memory start hmem hend
    rw [List.length_cons] at hend
    have hspace := (memory.wellMapped.occupied mapped hmem).2
    have haddress : (address + BitVec.ofNat 32 start).toNat = address.toNat + start :=
      toNat_add_index (Nat.lt_succ_self start) (by omega)
    have hholds : mapped.Holds (address + BitVec.ofNat 32 start) := by
      obtain ⟨hlow, hhigh⟩ := hbase
      exact ⟨by omega, by omega⟩
    have hoffset : mapped.offset (address + BitVec.ofNat 32 start) =
        mapped.offset address + start := by
      have hlow := hbase.1
      unfold MappedRegion.offset
      omega
    rw [List.zipIdx_cons, List.foldl_cons]
    have hfirst := writeByte_of_mem hmem hholds hlinear first
    rw [hoffset] at hfirst
    have hrest := ih (memory.withStorage
        (Function.update memory.storage (mapped.device, mapped.offset address + start) first))
      (start + 1) hmem (by omega)
    rw [hfirst, hrest]
    unfold storeBytes
    rw [withStorage_storage, withStorage_withStorage, rowPatch_cons, Nat.add_assoc]

/-- A row inside one linear region goes to the device in one piece. -/
theorem writeRow_of_mem (hmem : mapped ∈ memory.map.regions) (hlinear : mapped.linear = true)
    (hholds : mapped.Holds address) (bytes : List (BitVec 8))
    (hend : address.toNat + bytes.length ≤ mapped.regionEnd) : memory.writeRow address bytes =
      memory.storeBytes mapped.device (mapped.offset address) bytes :=
  foldl_writeByte_of_mem hlinear hholds bytes memory 0 hmem hend

@[simp] theorem length_readRange (device offset size : Nat) :
    (memory.readRange device offset size).length = size := by simp [readRange]

theorem getElem_readRange {device offset size index : Nat}
    (hindex : index < (memory.readRange device offset size).length) :
    (memory.readRange device offset size)[index] = memory.storage (device, offset + index) := by
  simp [readRange]

/-- What a store of a row leaves at a position of a device. -/
theorem storeBytes_storage (device offset : Nat) (bytes : List (BitVec 8)) (position : Nat) :
    (memory.storeBytes device offset bytes).storage (device, position) =
      if offset ≤ position then (bytes[position - offset]?).getD (memory.storage (device, position))
      else memory.storage (device, position) := by
  show (rowPatch device offset bytes (device, position)).getD _ = _
  unfold rowPatch
  by_cases hposition : offset ≤ position
  · rw [if_pos ⟨rfl, hposition⟩, if_pos hposition]
  · rw [if_neg fun h => hposition h.2, if_neg hposition]
    rfl

theorem storeBytes_storage_other {device other : Nat} (hne : other ≠ device) (offset : Nat)
    (bytes : List (BitVec 8)) (position : Nat) :
    (memory.storeBytes device offset bytes).storage (other, position) =
      memory.storage (other, position) := by
  show (rowPatch device offset bytes (other, position)).getD _ = _
  unfold rowPatch
  rw [if_neg fun h => hne h.1]
  rfl

/-- A row differs from what it replaces where the store changes. -/
theorem readRange_ne_iff (device offset : Nat) (bytes : List (BitVec 8)) :
    memory.readRange device offset bytes.length ≠ bytes ↔
      (memory.storeBytes device offset bytes).storage ≠ memory.storage := by
  rw [show (memory.storeBytes device offset bytes).storage =
    (rowPatch device offset bytes).apply memory.storage from rfl, ← Patch.changes_iff,
    rowPatch_changes_iff]
  constructor
  · intro hne
    by_contra hsame
    refine hne (List.ext_getElem (length_readRange device offset bytes.length) ?_)
    intro index hleft hright
    rw [getElem_readRange]
    by_contra hbyte
    exact hsame ⟨index, bytes[index], List.getElem?_eq_getElem hright, fun h => hbyte h.symm⟩
  · intro hrow heq
    obtain ⟨index, content, hcontent, hne⟩ := hrow
    obtain ⟨hindex, rfl⟩ := List.getElem?_eq_some_iff.mp hcontent
    have hread : index < (memory.readRange device offset bytes.length).length := by simpa using hindex
    exact hne ((List.getElem_of_eq heq.symm hindex).trans (getElem_readRange hread))

theorem assemble_bne_iff (device offset : Nat) {count : Nat} (value : BitVec (8 * count)) :
    (assemble (8 * count) 0 (memory.readRange device offset count) != value) = true ↔
      (memory.storeBytes device offset (littleEndian count value)).storage ≠ memory.storage := by
  rw [← readRange_ne_iff, length_littleEndian, bne_iff_ne]
  constructor
  · intro hne heq
    rw [heq, assemble_littleEndian rfl] at hne
    exact hne rfl
  · intro hne heq
    refine hne ?_
    rw [← heq, littleEndian_assemble rfl _ (length_readRange device offset count)]

/-! ## What the observers heard -/

/-- The observers hear a row of notifications; nothing else moves. -/
def tell (memory : MemoryState) (told : List MemoryNotification) : MemoryState :=
  { memory with delivered := memory.delivered ++ told }

/-- What an observer of guest writes hears. -/
def heardByGuestWriteObserver : MemoryNotification → Option GuestWriteEvent
  | .guestWrite event => some event
  | .access _ _ _ _ _ => none
  | .writeRange _ _ _ _ => none

@[simp] theorem tell_nil : memory.tell [] = memory := by
  unfold tell
  rw [List.append_nil]

@[simp] theorem tell_tell (first second : List MemoryNotification) :
    (memory.tell first).tell second = memory.tell (first ++ second) := by
  unfold tell
  rw [List.append_assoc]

theorem deliver_eq_tell (notification : MemoryNotification) :
    memory.deliver notification = memory.tell [notification] := rfl

/-- The observers hear something, and the one of guest writes hears the events. -/
def Told (memory : MemoryState) (events : List GuestWriteEvent) (next : MemoryState) : Prop :=
  ∃ told, next = memory.tell told ∧ told.filterMap heardByGuestWriteObserver = events

theorem Told.nothing (memory : MemoryState) : Told memory [] memory := ⟨[], tell_nil.symm, rfl⟩

theorem Told.trans {middle last : MemoryState} {first second : List GuestWriteEvent}
    (hfirst : Told memory first middle) (hsecond : Told middle second last) :
    Told memory (first ++ second) last := by
  obtain ⟨told, rfl, rfl⟩ := hfirst
  obtain ⟨more, rfl, rfl⟩ := hsecond
  exact ⟨told ++ more, tell_tell told more, List.filterMap_append⟩

theorem notifyGuestWrite_told (memory : MemoryState) (event : GuestWriteEvent) :
    Told memory (if memory.guestWriteObserver.isSome then [event] else [])
      (memory.notifyGuestWrite event) := by
  unfold notifyGuestWrite
  split
  · exact ⟨_, deliver_eq_tell _, rfl⟩
  · exact Told.nothing memory

theorem Told.guestWriteObserver {next : MemoryState} {events : List GuestWriteEvent}
    (h : Told memory events next) : next.guestWriteObserver = memory.guestWriteObserver := by
  obtain ⟨told, rfl, -⟩ := h
  rfl

end MemoryState
end KatanaRecomp.Runtime
