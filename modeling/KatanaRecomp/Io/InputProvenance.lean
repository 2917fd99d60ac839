import KatanaRecomp.Lib.ByteFormat

/-! # SHA-256 of byte strings

`sha256_bytes` in the portable version of the repository. The result is the
hexadecimal text, as bytes, because that is what the containers store. -/
namespace KatanaRecomp.Io.InputProvenance
open Lib.ByteFormat

def roundConstants : List (BitVec 32) :=
  [ 0x428A2F98, 0x71374491, 0xB5C0FBCF, 0xE9B5DBA5, 0x3956C25B, 0x59F111F1, 0x923F82A4,
    0xAB1C5ED5, 0xD807AA98, 0x12835B01, 0x243185BE, 0x550C7DC3, 0x72BE5D74, 0x80DEB1FE,
    0x9BDC06A7, 0xC19BF174, 0xE49B69C1, 0xEFBE4786, 0x0FC19DC6, 0x240CA1CC, 0x2DE92C6F,
    0x4A7484AA, 0x5CB0A9DC, 0x76F988DA, 0x983E5152, 0xA831C66D, 0xB00327C8, 0xBF597FC7,
    0xC6E00BF3, 0xD5A79147, 0x06CA6351, 0x14292967, 0x27B70A85, 0x2E1B2138, 0x4D2C6DFC,
    0x53380D13, 0x650A7354, 0x766A0ABB, 0x81C2C92E, 0x92722C85, 0xA2BFE8A1, 0xA81A664B,
    0xC24B8B70, 0xC76C51A3, 0xD192E819, 0xD6990624, 0xF40E3585, 0x106AA070, 0x19A4C116,
    0x1E376C08, 0x2748774C, 0x34B0BCB5, 0x391C0CB3, 0x4ED8AA4A, 0x5B9CCA4F, 0x682E6FF3,
    0x748F82EE, 0x78A5636F, 0x84C87814, 0x8CC70208, 0x90BEFFFA, 0xA4506CEB, 0xBEF9A3F7, 0xC67178F2 ]

/-- The eight words of `state_`. -/
structure Sha256 where
  a : BitVec 32 := 0x6A09E667
  b : BitVec 32 := 0xBB67AE85
  c : BitVec 32 := 0x3C6EF372
  d : BitVec 32 := 0xA54FF53A
  e : BitVec 32 := 0x510E527F
  f : BitVec 32 := 0x9B05688C
  g : BitVec 32 := 0x1F83D9AB
  h : BitVec 32 := 0x5BE0CD19

/-- The words of a block in big-endian order. -/
def blockWords : List Byte → List (BitVec 32)
  | first :: second :: third :: fourth :: rest => (first ++ second ++ third ++ fourth) :: blockWords rest
  | _ => []

/-- The message schedule, newest word first, extended by `count` words. -/
def extendWords : Nat → List (BitVec 32) → List (BitVec 32)
  | 0, words => words
  | count + 1, words =>
    let word (back : Nat) := words.getD (back - 1) 0
    let s0 := (word 15).rotateRight 7 ^^^ (word 15).rotateRight 18 ^^^ word 15 >>> 3
    let s1 := (word 2).rotateRight 17 ^^^ (word 2).rotateRight 19 ^^^ word 2 >>> 10
    extendWords count ((word 16 + s0 + word 7 + s1) :: words)

namespace Sha256

def round (state : Sha256) (constant word : BitVec 32) : Sha256 :=
  let ⟨a, b, c, d, e, f, g, h⟩ := state
  let sigma1 := e.rotateRight 6 ^^^ e.rotateRight 11 ^^^ e.rotateRight 25
  let choice := (e &&& f) ^^^ (~~~e &&& g)
  let first := h + sigma1 + choice + constant + word
  let sigma0 := a.rotateRight 2 ^^^ a.rotateRight 13 ^^^ a.rotateRight 22
  let majority := (a &&& b) ^^^ (a &&& c) ^^^ (b &&& c)
  let second := sigma0 + majority
  ⟨first + second, a, b, c, d + first, e, f, g⟩

def transform (state : Sha256) (block : List Byte) : Sha256 :=
  let words := (extendWords 48 (blockWords block).reverse).reverse
  let last := (roundConstants.zip words).foldl
    (fun state (constant, word) => state.round constant word) state
  ⟨state.a + last.a, state.b + last.b, state.c + last.c, state.d + last.d, state.e + last.e,
    state.f + last.f, state.g + last.g, state.h + last.h⟩

/-- `update` on an empty buffer: the whole blocks, and what stays in the buffer. -/
def update : Nat → Sha256 → List Byte → Sha256 × List Byte
  | 0, state, bytes => (state, bytes)
  | blocks + 1, state, bytes => update blocks (state.transform (bytes.take 64)) (bytes.drop 64)

def fill (buffer : List Byte) (size : Nat) : List Byte :=
  buffer ++ List.replicate (size - buffer.length) 0

/-- The text of one word with `setw(8)` and `setfill('0')`. -/
def hexDigits (word : BitVec 32) : List Byte := (List.range 8).map fun index =>
    let nibble := (word >>> (28 - 4 * index)).truncate 4
    if nibble < 10 then 0x30 + nibble.zeroExtend 8 else 0x57 + nibble.zeroExtend 8

def text (state : Sha256) : List Byte :=
  [state.a, state.b, state.c, state.d, state.e, state.f, state.g, state.h].flatMap hexDigits

def finish (state : Sha256) (buffer : List Byte) (totalBytes : Nat) : List Byte :=
  let bitCount : BitVec 64 := BitVec.ofNat 64 totalBytes * 8
  let buffer := buffer ++ [0x80]
  let (state, buffer) :=
    if buffer.length > 56 then (state.transform (fill buffer 64), []) else (state, buffer)
  (state.transform (fill buffer 56 ++ (littleEndian 8 bitCount).reverse)).text

end Sha256

def sha256Bytes (bytes : List Byte) : List Byte :=
  let (state, buffer) := Sha256.update (bytes.length / 64) {} bytes
  state.finish buffer bytes.length

theorem length_sha256Bytes (bytes : List Byte) : (sha256Bytes bytes).length = 64 := by
  unfold sha256Bytes
  generalize Sha256.update (bytes.length / 64) {} bytes = result
  obtain ⟨state, buffer⟩ := result
  dsimp only [Sha256.finish, Sha256.text]
  simp [Sha256.hexDigits]

end KatanaRecomp.Io.InputProvenance
