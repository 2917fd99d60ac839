import KatanaRecomp.Runtime.MemoryState

/-! # Batches of linear writes

A batch is admitted as a whole before a byte is stored. What a write changes is
found by laying the earlier writes of the batch over the bytes it replaces; the
writes may meet in one device under different addresses. Then every write is
stored, and after that every observer is told. -/
namespace KatanaRecomp.Runtime
open Lib
open ExecutableCodeTracker (GuestWriteEvent)

structure LinearMemoryTransactionWrite where
  address : BitVec 32
  bytes : List (BitVec 8)

structure PreparedWrite where
  address : BitVec 32
  bytes : List (BitVec 8)
  device : Nat
  offset : Nat
  regionName : String
  changedBytes : List Bool
  changed : Bool

/-- `PreparedLinearTransactionBatch::Data`; `guest_write_events` mirrors `writes`. -/
structure PreparedLinearTransactionBatch where
  source : CodeWriteSource
  observer : Option GuestWriteObserverContract
  observerGeneration : BitVec 64
  writes : List PreparedWrite
  guestWriteEvents : List GuestWriteEvent

namespace PreparedWrite

/-- The part of an earlier write that lies over the bytes at `offset`. -/
def overlay (device offset : Nat) (current : List (BitVec 8)) (previous : PreparedWrite) :
    List (BitVec 8) :=
  if previous.device ≠ device then current
  else
    let overlapBegin := max offset previous.offset
    let overlapEnd := min (offset + current.length) (previous.offset + previous.bytes.length)
    if overlapBegin ≥ overlapEnd then current
    else
      current.mapIdx fun index byte =>
        if overlapBegin ≤ offset + index ∧ offset + index < overlapEnd then
          previous.bytes.getD (offset + index - previous.offset) byte
        else byte

def event (source : CodeWriteSource) (write : PreparedWrite) : GuestWriteEvent where
  address := write.address
  size := write.bytes.length
  source := source
  bytesChanged := write.changed

end PreparedWrite

namespace MemoryState
variable (memory : MemoryState)

def startsInMappedRegion (candidate : BitVec 32) : Bool :=
  (memory.map.indexedRegion candidate 1).isSome || memory.map.regions.any fun mapped =>
      decide (mapped.baseAddress.toNat ≤ candidate.toNat) &&
        decide (candidate.toNat < mapped.regionEnd)

def linearTransactionAddress (address : BitVec 32) (size : Nat) : BitVec 32 :=
  match memory.directLinearWindow with
  | none => address
  | some window =>
    if size = 0 ∨ memory.startsInMappedRegion address ∨
        address &&& 0xC0000000 ≠ (0x80000000 : BitVec 32) then address
    else
      let physical := address &&& 0x1FFFFFFF
      if physical < window.physicalBase then address
      else
        let relative := physical - window.physicalBase
        if relative ≥ window.physicalSpan ∨ size > (window.physicalSpan - relative).toNat then
          address
        else physical

/-- A write of the batch behind the earlier ones; `none` where the batch is refused. -/
def prepareWrite (prepared : List PreparedWrite) (write : LinearMemoryTransactionWrite) :
    Option PreparedWrite :=
  if write.bytes.length > 2 ^ 32 - write.address.toNat then none
  else
    let address := memory.linearTransactionAddress write.address write.bytes.length
    match memory.map.resolve address .byte .write with
    | .error _ => none
    | .ok mapped =>
      if address.toNat + write.bytes.length > mapped.regionEnd ∨ mapped.readWrite = false ∨
          mapped.linear = false then none
      else
        let offset := mapped.offset address
        if offset > mapped.size ∨ write.bytes.length > mapped.size - offset then none
        else
          let before := prepared.foldl (PreparedWrite.overlay mapped.device offset)
            (memory.readRange mapped.device offset write.bytes.length)
          let changedBytes := List.zipWith (fun old new => old != new) before write.bytes
          some
            { address := address, bytes := write.bytes, device := mapped.device, offset := offset,
              regionName := mapped.name, changedBytes := changedBytes,
              changed := changedBytes.any id }

/-- The loop of the preparation; an empty write is passed over. -/
def prepareWrites (prepared : List PreparedWrite) :
    List LinearMemoryTransactionWrite → Option (List PreparedWrite)
  | [] => some prepared
  | write :: rest =>
    if write.bytes.isEmpty then prepareWrites prepared rest
    else
      match memory.prepareWrite prepared write with
      | none => none
      | some item => prepareWrites (prepared ++ [item]) rest

def storePrepared (write : PreparedWrite) : MemoryState :=
  memory.storeBytes write.device write.offset write.bytes

/-! ## With the diagnostics -/

/-- One call of the trace handlers and watchpoints for each byte. -/
def notifyAccesses (write : PreparedWrite) : MemoryState := write.bytes.zipIdx.foldl
    (fun memory entry =>
      memory.deliver (.access .write (write.address + BitVec.ofNat 32 entry.2) .byte
        (entry.1.setWidth 32) write.regionName)) memory

def notifyGuestMemoryWriteRange (address : BitVec 32) (size : Nat) (source : CodeWriteSource)
    (changedBytes : List Bool) : MemoryState :=
  if !memory.guestMemoryAccessSink || size == 0 || decide (changedBytes.length < size) then memory
  else memory.deliver (.writeRange address size source changedBytes)

def notifyPrepared (source : CodeWriteSource) (write : PreparedWrite) : MemoryState :=
  let observed := if memory.accessObserversActive then memory.notifyAccesses write else memory
  let told := observed.notifyGuestWrite (write.event source)
  told.notifyGuestMemoryWriteRange write.address write.bytes.length source write.changedBytes

/-- The answer of the source beside the memory after the call. -/
def commitLinearTransactionBatch (writes : List LinearMemoryTransactionWrite)
    (source : CodeWriteSource) : Bool × MemoryState :=
  match memory.prepareWrites [] writes with
  | none => (false, memory)
  | some prepared =>
    let stored := prepared.foldl storePrepared memory
    (true, prepared.foldl (fun memory write => memory.notifyPrepared source write) stored)

/-! ## In two phases -/

def prepareLinearTransactionBatch (writes : List LinearMemoryTransactionWrite)
    (source : CodeWriteSource) : Option PreparedLinearTransactionBatch :=
  if memory.accessObserversActive || memory.mmioAccessTracking || memory.mmioTraceHandler ||
      memory.guestMemoryAccessSink || !memory.observerAllowsPrevalidatedWrites then none
  else
    match memory.prepareWrites [] writes with
    | none => none
    | some prepared =>
      some
        { source := source, observer := memory.guestWriteObserver,
          observerGeneration := memory.guestWriteObserverGeneration, writes := prepared,
          guestWriteEvents := prepared.map (PreparedWrite.event source) }

/-- `none` where the source terminates. -/
def commitPreparedLinearTransactionBatch (prepared : PreparedLinearTransactionBatch) :
    Option MemoryState :=
  if prepared.observerGeneration ≠ memory.guestWriteObserverGeneration then none
  else
    let stored := prepared.writes.foldl storePrepared memory
    some (prepared.guestWriteEvents.foldl
        (fun memory event =>
          if prepared.observer.isSome then memory.deliver (.guestWrite event) else memory)
        stored)

end MemoryState
end KatanaRecomp.Runtime
