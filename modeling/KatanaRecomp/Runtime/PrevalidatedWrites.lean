import KatanaRecomp.Runtime.MemoryState

/-! # Bulk writes that are validated before they start

Four bulk writes stand for a loop of single stores: a fill with a byte, a
pattern of a word, a copy of words, and one word rewritten with the values of an
arithmetic sequence. Each finds the region and every change first and has then
nothing left that can fail. A region that is not linear is admitted for words
that its device shows in one piece of a linear device. -/
namespace KatanaRecomp.Runtime
open Lib ByteFormat
open ExecutableCodeTracker (GuestWriteEvent)

structure LinearMemoryProjection where
  backing : Nat
  byteOffsets : List Nat
  contiguous : Bool

/-- `Vram32BitMemoryDevice::linear_projection`. -/
def vramLinearProjection (backing size offset byteCount : Nat) : Option LinearMemoryProjection :=
  if offset > size ∨ byteCount > size - offset then none
  else
    let byteOffsets := (List.range byteCount).map fun index => vram32BitToLinearOffset (offset + index)
    some
      { backing := backing, byteOffsets := byteOffsets,
        contiguous := (List.range byteCount).all fun index =>
          index == 0 || byteOffsets.getD index 0 == byteOffsets.getD (index - 1) 0 + 1 }

/-- `PreparedLinearFill`. -/
structure PreparedLinearFill where
  device : Nat
  offset : Nat
  address : BitVec 32
  size : Nat
  value : BitVec 8
  source : CodeWriteSource
  observer : Bool
  changedBytes : List Bool

/-- `PreparedLinearU32Pattern`. -/
structure PreparedLinearU32Pattern where
  device : Nat
  linear : Bool
  offset : Nat
  address : BitVec 32
  wordCount : Nat
  value : BitVec 32
  source : CodeWriteSource
  observer : Bool
  changedWords : List Bool

/-- `PreparedLinearU32Copy`. -/
structure PreparedLinearU32Copy where
  device : Nat
  linear : Bool
  offset : Nat
  address : BitVec 32
  bytes : List (BitVec 8)
  source : CodeWriteSource
  observer : Bool
  changedWords : List Bool

/-- `PreparedRepeatedU32Sequence`. -/
structure PreparedRepeatedU32Sequence where
  device : Nat
  offset : Nat
  address : BitVec 32
  wordCount : Nat
  finalValue : BitVec 32
  source : CodeWriteSource
  observer : Bool
  changedWords : List Bool

/-- The bytes of a word of a row. -/
def wordBytes (bytes : List (BitVec 8)) (word : Nat) : List (BitVec 8) :=
  (bytes.drop (4 * word)).take 4

namespace MemoryState
variable (memory : MemoryState)

/-- Where no diagnostics listen and the lookup is indexed. -/
def admitsPrevalidatedWrites : Bool :=
  decide (memory.map.lookupMode = .indexed) && !memory.accessObserversActive &&
    !memory.mmioAccessTracking && !memory.mmioTraceHandler && !memory.guestMemoryAccessSink &&
    memory.observerAllowsPrevalidatedWrites

/-- The only region of the scan that holds the range. -/
def onlyRegion (address : BitVec 32) (size : Nat) : Option NamedRegion :=
  match memory.map.regions.filter fun candidate => candidate.covers address size with
  | [mapped] => some mapped
  | _ => none

def prevalidatedWritableRegion (address : BitVec 32) (size : Nat) : Option NamedRegion :=
  if memory.map.lookupMode ≠ .indexed ∨ size = 0 ∨ size > 2 ^ 32 - address.toNat then none
  else
    match (memory.map.indexedRegion address size).or (memory.onlyRegion address size) with
    | none => none
    | some mapped =>
      if mapped.readWrite = false then none
      else if mapped.offset address > mapped.size ∨ size > mapped.size - mapped.offset address then
        none
      else some mapped

def prevalidatedWritableLinearRegion (address : BitVec 32) (size : Nat) : Option NamedRegion :=
  match memory.prevalidatedWritableRegion address size with
  | none => none
  | some mapped => if mapped.linear then some mapped else none

/-- The linear device and the offset behind a word; the four bytes have to lie
in one piece. -/
def projectedWord (mapped : NamedRegion) (wordOffset : Nat) : Option MemoryPlace :=
  match memory.vramBacking mapped.device with
  | none => none
  | some backing =>
    if wordOffset > 2 ^ 32 - 1 then none
    else
      match vramLinearProjection backing mapped.size wordOffset 4 with
      | none => none
      | some projection =>
        let projectedOffset := projection.byteOffsets.getD 0 0
        if projection.contiguous = false ∨ projection.byteOffsets.length ≠ 4 then none
        else if projectedOffset > mapped.size ∨ 4 > mapped.size - projectedOffset ∨
            projection.byteOffsets.getD 1 0 ≠ projectedOffset + 1 ∨
            projection.byteOffsets.getD 2 0 ≠ projectedOffset + 2 ∨
            projection.byteOffsets.getD 3 0 ≠ projectedOffset + 3 then none
        else some (projection.backing, projectedOffset)

/-- Which words of a row differ from what they replace; empty without an
observer, `none` where a word is not projected. -/
def changedWords (mapped : NamedRegion) (offset wordCount : Nat)
    (newBytes : Nat → List (BitVec 8)) : Option (List Bool) :=
  if mapped.linear then
    some
      (if memory.guestWriteObserver.isSome then
        (List.range wordCount).map fun word =>
          memory.readRange mapped.device (offset + 4 * word) 4 != newBytes word
      else [])
  else
    match (List.range wordCount).mapM fun word => memory.projectedWord mapped (offset + 4 * word) with
    | none => none
    | some places =>
      some
        (if memory.guestWriteObserver.isSome then
          places.zipIdx.map fun entry =>
            memory.readRange entry.1.1 entry.1.2 4 != newBytes entry.2
        else [])

/-- `write_u32` of a device that is not linear. -/
def deviceWriteU32 (device offset : Nat) (value : BitVec 32) : MemoryState :=
  match memory.vramBacking device with
  | none => memory
  | some backing =>
    memory.storeBytes backing (vram32BitToLinearOffset offset) (littleEndian 4 value)

/-- One event for each flag, `step` bytes apart. -/
def notifyChanges (observer : Bool) (address : BitVec 32) (step size : Nat)
    (source : CodeWriteSource) (changed : List Bool) : MemoryState :=
  if observer then
    changed.zipIdx.foldl
      (fun memory entry =>
        memory.deliver (.guestWrite
            { address := address + BitVec.ofNat 32 (step * entry.2), size := size,
              source := source, bytesChanged := entry.1 })) memory
  else memory

/-! ## A fill with a byte -/

def preparePrevalidatedLinearFill (address : BitVec 32) (size : Nat) (value : BitVec 8)
    (source : CodeWriteSource) : Option PreparedLinearFill :=
  if size = 0 ∨ memory.admitsPrevalidatedWrites = false then none
  else
    match memory.prevalidatedWritableLinearRegion address size with
    | none => none
    | some mapped =>
      let offset := mapped.offset address
      some
        { device := mapped.device, offset := offset, address := address, size := size,
          value := value, source := source, observer := memory.guestWriteObserver.isSome,
          changedBytes :=
            if memory.guestWriteObserver.isSome then
              (List.range size).map fun index =>
                memory.storage (mapped.device, offset + index) != value
            else [] }

def commitPreparedLinearFill (prepared : PreparedLinearFill) : MemoryState :=
  (memory.storeBytes prepared.device prepared.offset
      (List.replicate prepared.size prepared.value)).notifyChanges
    prepared.observer prepared.address 1 1 prepared.source prepared.changedBytes

def commitPrevalidatedLinearFill (address : BitVec 32) (size : Nat) (value : BitVec 8)
    (source : CodeWriteSource) : Bool × MemoryState :=
  match memory.preparePrevalidatedLinearFill address size value source with
  | none => (false, memory)
  | some prepared => (true, memory.commitPreparedLinearFill prepared)

/-! ## A pattern of a word -/

def preparePrevalidatedLinearU32Pattern (address : BitVec 32) (wordCount : Nat)
    (value : BitVec 32) (source : CodeWriteSource) : Option PreparedLinearU32Pattern :=
  if wordCount = 0 ∨ wordCount > (2 ^ 64 - 1) / 4 ∨ address.toNat % 4 ≠ 0 ∨
      memory.admitsPrevalidatedWrites = false then none
  else
    match memory.prevalidatedWritableRegion address (wordCount * 4) with
    | none => none
    | some mapped =>
      match memory.changedWords mapped (mapped.offset address) wordCount
          fun _ => littleEndian 4 value with
      | none => none
      | some changed =>
        some
          { device := mapped.device, linear := mapped.linear, offset := mapped.offset address,
            address := address, wordCount := wordCount, value := value, source := source,
            observer := memory.guestWriteObserver.isSome, changedWords := changed }

def commitPreparedLinearU32Pattern (prepared : PreparedLinearU32Pattern) : MemoryState :=
  let stored := (List.range prepared.wordCount).foldl
    (fun memory word =>
      if prepared.linear then
        memory.storeBytes prepared.device (prepared.offset + 4 * word)
          (littleEndian 4 prepared.value)
      else memory.deviceWriteU32 prepared.device (prepared.offset + 4 * word) prepared.value)
    memory
  stored.notifyChanges prepared.observer prepared.address 4 4 prepared.source prepared.changedWords

def commitPrevalidatedLinearU32Pattern (address : BitVec 32) (wordCount : Nat)
    (value : BitVec 32) (source : CodeWriteSource) : Bool × MemoryState :=
  match memory.preparePrevalidatedLinearU32Pattern address wordCount value source with
  | none => (false, memory)
  | some prepared => (true, memory.commitPreparedLinearU32Pattern prepared)

/-! ## A copy of words -/

def preparePrevalidatedLinearU32Copy (address : BitVec 32) (bytes : List (BitVec 8))
    (source : CodeWriteSource) : Option PreparedLinearU32Copy :=
  if bytes = [] ∨ bytes.length % 4 ≠ 0 ∨ address.toNat % 4 ≠ 0 ∨
      memory.admitsPrevalidatedWrites = false then none
  else
    match memory.prevalidatedWritableRegion address bytes.length with
    | none => none
    | some mapped =>
      match memory.changedWords mapped (mapped.offset address) (bytes.length / 4)
          (wordBytes bytes) with
      | none => none
      | some changed =>
        some
          { device := mapped.device, linear := mapped.linear, offset := mapped.offset address,
            address := address, bytes := bytes, source := source,
            observer := memory.guestWriteObserver.isSome, changedWords := changed }

def commitPreparedLinearU32Copy (prepared : PreparedLinearU32Copy) : MemoryState :=
  let stored :=
    if prepared.linear then memory.storeBytes prepared.device prepared.offset prepared.bytes
    else
      (List.range (prepared.bytes.length / 4)).foldl
        (fun memory word =>
          memory.deviceWriteU32 prepared.device (prepared.offset + 4 * word)
            (assemble 32 0 (wordBytes prepared.bytes word))) memory
  stored.notifyChanges prepared.observer prepared.address 4 4 prepared.source prepared.changedWords

def commitPrevalidatedLinearU32Copy (address : BitVec 32) (bytes : List (BitVec 8))
    (source : CodeWriteSource) : Bool × MemoryState :=
  match memory.preparePrevalidatedLinearU32Copy address bytes source with
  | none => (false, memory)
  | some prepared => (true, memory.commitPreparedLinearU32Copy prepared)

/-! ## One word rewritten -/

/-- Which values of the sequence differ from the value before them, and the last
value written. -/
def repeatedChanges (step : BitVec 32) :
    Nat → BitVec 32 → BitVec 32 → BitVec 32 → List Bool × BitVec 32
  | 0, _, _, finalValue => ([], finalValue)
  | count + 1, previous, next, _ =>
    ((previous != next) :: (repeatedChanges step count next (next + step) next).1,
      (repeatedChanges step count next (next + step) next).2)

/-- A device that is not linear has to prepare the write itself, which a VRAM
device does not. -/
def preparePrevalidatedRepeatedU32Sequence (address : BitVec 32) (wordCount : Nat)
    (firstValue step : BitVec 32) (source : CodeWriteSource) : Option PreparedRepeatedU32Sequence :=
  if wordCount = 0 ∨ address.toNat % 4 ≠ 0 ∨ memory.admitsPrevalidatedWrites = false then none
  else
    match memory.prevalidatedWritableRegion address 4 with
    | none => none
    | some mapped =>
      if mapped.linear = false then none
      else
        let offset := mapped.offset address
        let outcome :=
          if memory.guestWriteObserver.isSome then
            repeatedChanges step wordCount
              (assemble 32 0 (memory.readRange mapped.device offset 4)) firstValue firstValue
          else ([], firstValue + BitVec.ofNat 32 ((wordCount - 1) * step.toNat))
        some
          { device := mapped.device, offset := offset, address := address,
            wordCount := wordCount, finalValue := outcome.2, source := source,
            observer := memory.guestWriteObserver.isSome, changedWords := outcome.1 }

def commitPreparedRepeatedU32Sequence (prepared : PreparedRepeatedU32Sequence) : MemoryState :=
  (memory.storeBytes prepared.device prepared.offset
      (littleEndian 4 prepared.finalValue)).notifyChanges
    prepared.observer prepared.address 0 4 prepared.source prepared.changedWords

def commitPrevalidatedRepeatedU32Sequence (address : BitVec 32) (wordCount : Nat)
    (firstValue step : BitVec 32) (source : CodeWriteSource) : Bool × MemoryState :=
  match memory.preparePrevalidatedRepeatedU32Sequence address wordCount firstValue step source with
  | none => (false, memory)
  | some prepared => (true, memory.commitPreparedRepeatedU32Sequence prepared)

end MemoryState
end KatanaRecomp.Runtime
