import KatanaRecomp.Runtime.MemoryState

/-! # Stores through the window of direct access

A store through the window goes to the backing at once and is told to the
observer. A batch collects such stores: each finds its change behind the stores
that wait before it, and the flush stores all of them and tells the batch
observer once, or replays them one by one where the observer does not admit
them. -/
namespace KatanaRecomp.Runtime
open Lib ByteFormat
open ExecutableCodeTracker (GuestWriteEvent directLinearWriteBatchCapacity)

/-- `DirectLinearWriteBatch::Entry`. -/
structure DirectLinearWriteEntry where
  physicalAddress : BitVec 32
  backingOffset : Nat
  value : BitVec 32
  width : MemoryAccessWidth
  source : CodeWriteSource
  bytesChanged : Bool

/-- `owned` where the batch has an owner. -/
structure DirectLinearWriteBatch where
  owned : Bool := false
  entries : List DirectLinearWriteEntry := []
  events : List GuestWriteEvent := []
  directGeneration : BitVec 64 := 0
  observerGeneration : BitVec 64 := 0

namespace DirectLinearWriteEntry

def bytes (entry : DirectLinearWriteEntry) : List (BitVec 8) :=
  littleEndian entry.width.bytes entry.value

/-- The byte at an offset of the backing, seen through the entry. -/
def byteThrough (offset : Nat) (previous : BitVec 8) (staged : DirectLinearWriteEntry) : BitVec 8 :=
  if offset < staged.backingOffset ∨ offset ≥ staged.backingOffset + staged.width.bytes then previous
  else (staged.value >>> ((offset - staged.backingOffset) * 8)).setWidth 8

/-- The store that the entry replays. -/
def scalar (entry : DirectLinearWriteEntry) : ScalarStore where
  address := entry.physicalAddress
  width := entry.width
  value := entry.value.setWidth (8 * entry.width.bytes)
  source := entry.source

end DirectLinearWriteEntry

namespace MemoryState
variable (memory : MemoryState)

/-- The backing of the window and the offset in it. -/
def directLinearOffset (physicalAddress : BitVec 32) (width : Nat) : Option MemoryPlace :=
  match memory.directLinearWindow with
  | none => none
  | some window =>
    if width = 0 ∨ width > window.backingSize ∨
        physicalAddress &&& BitVec.ofNat 32 (width - 1) ≠ 0 then none
    else if physicalAddress < window.physicalBase then none
    else
      let relative := physicalAddress - window.physicalBase
      if relative ≥ window.physicalSpan ∨ width > (window.physicalSpan - relative).toNat then none
      else
        let offset := (relative &&& window.backingMask).toNat
        if width ≤ window.backingSize - offset then some (window.backing, offset) else none

/-! ## A store at once -/

/-- `none` where the source returns `false`. -/
def tryWriteDirectLinear (store : ScalarStore) : Option MemoryState :=
  if memory.directLinearWritesEnabled = false then none
  else
    match memory.directLinearOffset store.address store.width.bytes with
    | none => none
    | some (backing, offset) =>
      let previous := assemble (8 * store.width.bytes) 0
        (memory.readRange backing offset store.width.bytes)
      some ((memory.storeBytes backing offset store.bytes).notifyGuestWrite
        (store.event (previous != store.value)))

def tryWriteDirectLinearU8 (physicalAddress : BitVec 32) (value : BitVec 8)
    (source : CodeWriteSource) : Option MemoryState := memory.tryWriteDirectLinear
    { address := physicalAddress, width := .byte, value := value, source := source }

def tryWriteDirectLinearU16 (physicalAddress : BitVec 32) (value : BitVec 16)
    (source : CodeWriteSource) : Option MemoryState := memory.tryWriteDirectLinear
    { address := physicalAddress, width := .halfword, value := value, source := source }

def tryWriteDirectLinearU32 (physicalAddress : BitVec 32) (value : BitVec 32)
    (source : CodeWriteSource) : Option MemoryState := memory.tryWriteDirectLinear
    { address := physicalAddress, width := .word, value := value, source := source }

/-! ## A batch -/

/-- One of the two observers of guest writes has no partner. -/
def observersUnpaired : Bool :=
  memory.guestWriteObserver.isSome != memory.guestWriteBatchObserver.isSome

def beginDirectLinearWriteBatch : DirectLinearWriteBatch :=
  if !memory.directLinearWritesEnabled || memory.mmioAccessTracking || memory.mmioTraceHandler ||
      memory.observersUnpaired then {}
  else
    { owned := true, directGeneration := memory.directLinearGeneration,
      observerGeneration := memory.guestWriteObserverGeneration }

def directLinearWriteBatchCurrent (batch : DirectLinearWriteBatch) : Bool :=
  batch.owned && decide (batch.directGeneration = memory.directLinearGeneration) &&
    decide (batch.observerGeneration = memory.guestWriteObserverGeneration) &&
    memory.directLinearWritesEnabled && !memory.mmioAccessTracking && !memory.mmioTraceHandler &&
    !memory.observersUnpaired

/-- `none` where the source returns `false`. -/
def tryStage (batch : DirectLinearWriteBatch) (store : ScalarStore) :
    Option DirectLinearWriteBatch :=
  if !batch.owned || decide (batch.entries.length = directLinearWriteBatchCapacity) ||
      !memory.directLinearWriteBatchCurrent batch then none
  else
    match memory.directLinearOffset store.address store.width.bytes with
    | none => none
    | some (backing, offset) =>
      let value := store.value.setWidth 32
      let changed := (List.range store.width.bytes).any fun byte =>
        let previous := batch.entries.foldl
          (DirectLinearWriteEntry.byteThrough (offset + byte)) (memory.storage (backing, offset + byte))
        previous != (value >>> (byte * 8)).setWidth 8
      some
        { batch with
          entries := batch.entries ++
            [{ physicalAddress := store.address, backingOffset := offset, value := value,
               width := store.width, source := store.source, bytesChanged := changed }],
          events := batch.events ++ [store.event changed] }

def tryStageU8 (batch : DirectLinearWriteBatch) (physicalAddress : BitVec 32) (value : BitVec 8)
    (source : CodeWriteSource) : Option DirectLinearWriteBatch := memory.tryStage batch
    { address := physicalAddress, width := .byte, value := value, source := source }

def tryStageU16 (batch : DirectLinearWriteBatch) (physicalAddress : BitVec 32)
    (value : BitVec 16) (source : CodeWriteSource) : Option DirectLinearWriteBatch :=
  memory.tryStage batch
    { address := physicalAddress, width := .halfword, value := value, source := source }

def tryStageU32 (batch : DirectLinearWriteBatch) (physicalAddress : BitVec 32)
    (value : BitVec 32) (source : CodeWriteSource) : Option DirectLinearWriteBatch :=
  memory.tryStage batch
    { address := physicalAddress, width := .word, value := value, source := source }

/-- The bytes of an entry go to the backing of the window. -/
def storeEntry (entry : DirectLinearWriteEntry) : MemoryState :=
  match memory.directLinearWindow with
  | none => memory
  | some window => memory.storeBytes window.backing entry.backingOffset entry.bytes

/-- Through the window, else the ordinary way; `none` where that throws. -/
def replayEntry (entry : DirectLinearWriteEntry) : Option MemoryState :=
  match memory.tryWriteDirectLinear entry.scalar with
  | some next => some next
  | none => (memory.writeScalar entry.scalar).toOption

def replayEntries : List DirectLinearWriteEntry → MemoryState → Option MemoryState
  | [], memory => some memory
  | entry :: rest, memory =>
    match memory.replayEntry entry with
    | none => none
    | some next => replayEntries rest next

/-- `none` where the source terminates. -/
def flushDirectLinearWriteBatch (batch : DirectLinearWriteBatch) : Option MemoryState :=
  if batch.entries.isEmpty then some memory
  else
    let admitted :=
      match memory.guestWriteBatchObserver with
      | none => true
      | some accepts => accepts batch.events
    if memory.directLinearWriteBatchCurrent batch && admitted then
      let stored := batch.entries.foldl storeEntry memory
      some
        (if memory.guestWriteBatchObserver.isSome then
          batch.events.foldl (fun memory event => memory.deliver (.guestWrite event)) stored
        else stored)
    else replayEntries batch.entries memory

/-- `flush` of the batch; one without an owner has nothing to do. -/
def flush (batch : DirectLinearWriteBatch) : Option MemoryState :=
  if batch.owned then memory.flushDirectLinearWriteBatch batch else some memory

end MemoryState
end KatanaRecomp.Runtime
