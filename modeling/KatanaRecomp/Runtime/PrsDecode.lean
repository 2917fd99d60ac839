import KatanaRecomp.Lib.BackReference
import KatanaRecomp.Lib.StateExcept

/-! # The decoder of Sega PRS

`decompress_sega_prs`: control bits, the lowest first, and data bytes stand in one
stream. A control byte is read at the place where its first bit is needed. -/
namespace KatanaRecomp.Runtime.Prs
open Lib

abbrev Byte := BitVec 8

inductive PrsDecodeFailure
  | invalidLimits | invalidInput | compressedInputLimit | decompressedOutputLimit

structure PrsDecodeError where
  failure : PrsDecodeFailure
  sourceOffset : Nat
  operation : String

/-- The reader's place in the source, as what is left of it behind the offset. -/
structure Reader where
  rest : List Byte
  offset : Nat := 0
  control : Byte := 0
  remainingControlBits : Nat := 0

namespace Reader

def readByte (reader : Reader) : Except PrsDecodeError (Byte × Reader) :=
  match reader.rest with
  | [] => .error ⟨.invalidInput, reader.offset, "prs-truncated-token"⟩
  | byte :: rest => .ok (byte, { reader with rest, offset := reader.offset + 1 })

/-- The control byte that the next bit comes from. -/
def refill (reader : Reader) : Except PrsDecodeError Reader :=
  if reader.remainingControlBits = 0 then do
    let read ← reader.readByte
    pure { read.2 with control := read.1, remainingControlBits := 8 }
  else .ok reader

def readBit (reader : Reader) : Except PrsDecodeError (Bool × Reader) := do
  let filled ← reader.refill
  pure (filled.control.getLsbD 0,
    { filled with
      control := filled.control >>> 1, remainingControlBits := filled.remainingControlBits - 1 })

end Reader

def appendByte (output : List Byte) (value : Byte) (maximumOutputBytes sourceOffset : Nat) :
    Except PrsDecodeError (List Byte) :=
  if output.length = maximumOutputBytes then
    .error ⟨.decompressedOutputLimit, sourceOffset, "prs-output-limit"⟩
  else .ok (output ++ [value])

def appendCopy (output : List Byte) (distance length maximumOutputBytes sourceOffset : Nat) :
    Except PrsDecodeError (List Byte) :=
  if distance = 0 ∨ distance > output.length then
    .error ⟨.invalidInput, sourceOffset, "prs-invalid-back-reference"⟩
  else if length > maximumOutputBytes - output.length then
    .error ⟨.decompressedOutputLimit, sourceOffset, "prs-output-limit"⟩
  else .ok (appendBack distance length output)

/-- A round of the loop: it goes on, or the output is whole. -/
inductive Round
  | next (reader : Reader) (output : List Byte)
  | finished (output : List Byte)

def decodeLiteral (maximum : Nat) (reader : Reader) (output : List Byte) :
    Except PrsDecodeError Round := do
  let value ← reader.readByte
  let output ← appendByte output value.1 maximum value.2.offset
  pure (.next value.2 output)

def decodeShortCopy (maximum : Nat) (reader : Reader) (output : List Byte) :
    Except PrsDecodeError Round := do
  let first ← reader.readBit
  let second ← first.2.readBit
  let encodedOffset ← second.2.readByte
  let length := (first.1.toNat * 2 ||| second.1.toNat) + 2
  let output ← appendCopy output (256 - encodedOffset.1.toNat) length maximum encodedOffset.2.offset
  pure (.next encodedOffset.2 output)

def decodeLongCopy (maximum : Nat) (reader : Reader) (output : List Byte) :
    Except PrsDecodeError Round := do
  let low ← reader.readByte
  let high ← low.2.readByte
  let encoded : BitVec 16 := low.1.setWidth 16 ||| high.1.setWidth 16 <<< 8
  if encoded = 0 then
    if high.2.rest ≠ [] then
      throw ⟨.invalidInput, high.2.offset, "prs-data-after-terminator"⟩
    else pure (.finished output)
  else
    let distance := 8192 - (encoded >>> 3).toNat
    if encoded &&& 7 = 0 then do
      let length ← high.2.readByte
      let output ← appendCopy output distance (length.1.toNat + 1) maximum length.2.offset
      pure (.next length.2 output)
    else do
      let output ← appendCopy output distance ((encoded &&& 7).toNat + 2) maximum high.2.offset
      pure (.next high.2 output)

def decodeRound (maximum : Nat) (reader : Reader) (output : List Byte) :
    Except PrsDecodeError Round :=
  if reader.rest = [] then .error ⟨.invalidInput, reader.offset, "prs-missing-terminator"⟩
  else do
    let literal ← reader.readBit
    if literal.1 then decodeLiteral maximum literal.2 output
    else do
      let long ← literal.2.readBit
      if long.1 then decodeLongCopy maximum long.2 output
      else decodeShortCopy maximum long.2 output

/-! ## The loop ends -/

/-- The bits that a reader has left. -/
def Reader.size (reader : Reader) : Nat := reader.rest.length * 8 + reader.remainingControlBits

theorem Reader.size_readByte {reader : Reader} {read : Byte × Reader}
    (h : reader.readByte = .ok read) : read.2.size + 8 = reader.size := by
  unfold Reader.readByte at h
  split at h
  · cases h
  · rename_i byte rest hrest
    cases h
    unfold Reader.size
    rw [hrest, List.length_cons]
    dsimp only
    omega

theorem Reader.size_readBit {reader : Reader} {read : Bool × Reader}
    (h : reader.readBit = .ok read) : read.2.size + 1 = reader.size := by
  unfold Reader.readBit at h
  obtain ⟨filled, hfilled, h⟩ := bind_eq_ok h
  cases h
  unfold Reader.refill at hfilled
  split at hfilled
  · rename_i hempty
    obtain ⟨next, hnext, hfilled⟩ := bind_eq_ok hfilled
    cases hfilled
    have hsize := Reader.size_readByte hnext
    unfold Reader.readByte at hnext
    split at hnext <;> cases hnext
    unfold Reader.size at hsize ⊢
    dsimp only at hsize ⊢
    omega
  · rename_i hleft
    cases hfilled
    unfold Reader.size
    dsimp only
    omega

theorem decodeRound_size {maximum : Nat} {reader next : Reader} {output output' : List Byte}
    (h : decodeRound maximum reader output = .ok (.next next output')) : next.size < reader.size := by
  unfold decodeRound at h
  split at h
  · cases h
  obtain ⟨literal, hliteral, h⟩ := bind_eq_ok h
  have hfirst := Reader.size_readBit hliteral
  split at h
  · unfold decodeLiteral at h
    obtain ⟨value, hvalue, h⟩ := bind_eq_ok h
    obtain ⟨appended, -, h⟩ := bind_eq_ok h
    cases h
    have := Reader.size_readByte hvalue
    omega
  · obtain ⟨long, hlong, h⟩ := bind_eq_ok h
    have hsecond := Reader.size_readBit hlong
    split at h
    · unfold decodeLongCopy at h
      obtain ⟨low, hlow, h⟩ := bind_eq_ok h
      obtain ⟨high, hhigh, h⟩ := bind_eq_ok h
      have hlowSize := Reader.size_readByte hlow
      have hhighSize := Reader.size_readByte hhigh
      dsimp only at h
      split at h
      · split at h <;> cases h
      · split at h
        · obtain ⟨length, hlength, h⟩ := bind_eq_ok h
          obtain ⟨copied, -, h⟩ := bind_eq_ok h
          cases h
          have := Reader.size_readByte hlength
          omega
        · obtain ⟨copied, -, h⟩ := bind_eq_ok h
          cases h
          omega
    · unfold decodeShortCopy at h
      obtain ⟨first, hone, h⟩ := bind_eq_ok h
      obtain ⟨second, htwo, h⟩ := bind_eq_ok h
      obtain ⟨encoded, hencoded, h⟩ := bind_eq_ok h
      obtain ⟨copied, -, h⟩ := bind_eq_ok h
      cases h
      have := Reader.size_readBit hone
      have := Reader.size_readBit htwo
      have := Reader.size_readByte hencoded
      omega

def decodeLoop (maximum : Nat) (reader : Reader) (output : List Byte) :
    Except PrsDecodeError (List Byte) :=
  match _h : decodeRound maximum reader output with
  | .error e => .error e
  | .ok (.finished output) => .ok output
  | .ok (.next next output') => decodeLoop maximum next output'
termination_by reader.size
decreasing_by exact decodeRound_size _h

def decompressSegaPrs (source : List Byte) (maximumCompressedBytes maximumDecompressedBytes : Nat) :
    Except PrsDecodeError (List Byte) :=
  if maximumCompressedBytes = 0 ∨ maximumDecompressedBytes = 0 then
    .error ⟨.invalidLimits, 0, "prs-limits"⟩
  else if source = [] then .error ⟨.invalidInput, 0, "prs-empty"⟩
  else if source.length > maximumCompressedBytes then
    .error ⟨.compressedInputLimit, 0, "prs-input-limit"⟩
  else decodeLoop maximumDecompressedBytes { rest := source } []

end KatanaRecomp.Runtime.Prs
