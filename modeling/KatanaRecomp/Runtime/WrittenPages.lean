import KatanaRecomp.Lib.Bitmap
import KatanaRecomp.Runtime.ExecutableModules

/-! # Provenance of guest writes

One bit for each byte of physical memory, kept by pages of 64 words: whether the
last store to the byte came from guest code. A page without bits is not kept. -/
namespace KatanaRecomp.Runtime
open Lib (Bitmap runMask getLsbD_runMask)
open ExecutableCodeTracker (pageOf pageSpan pageSize GuestWriteEvent)

/-- The bits of a mask, set or cleared. -/
def maskedWord (word mask : BitVec 64) (set : Bool) : BitVec 64 :=
  if set then word ||| mask else word &&& ~~~mask

theorem getLsbD_maskedWord (word mask : BitVec 64) (set : Bool) {k : Nat} (hk : k < 64) :
    (maskedWord word mask set).getLsbD k = if mask.getLsbD k then set else word.getLsbD k := by
  unfold maskedWord
  cases set with
  | true =>
    rw [if_pos rfl, BitVec.getLsbD_or]
    cases mask.getLsbD k with
    | true => simp
    | false => simp
  | false =>
    rw [if_neg Bool.false_ne_true, BitVec.getLsbD_and, BitVec.getLsbD_not]
    cases mask.getLsbD k with
    | true => simp
    | false => simp [hk]

/-- `update_runtime_write_bits`. -/
def updateRuntimeWriteBits {n : Nat} (written : Bitmap n) (offset endOffset : Nat) (set : Bool) :
    Bitmap n :=
  if offset < endOffset then
    let word := offset / 64
    let firstBit := offset % 64
    let wordEnd := min endOffset ((word + 1) * 64)
    let lastBit := wordEnd - word * 64
    let mask := runMask firstBit lastBit
    updateRuntimeWriteBits
      (written.setIfInBounds word (maskedWord (written.word word) mask set)) wordEnd endOffset set
  else written
termination_by endOffset - offset

theorem bit_updateRuntimeWriteBits {n : Nat} (written : Bitmap n) (offset endOffset : Nat)
    (set : Bool) {position : Nat} (hposition : position < 64 * n) :
    (updateRuntimeWriteBits written offset endOffset set).bit position =
      if offset ≤ position ∧ position < endOffset then set else written.bit position := by
  fun_induction updateRuntimeWriteBits written offset endOffset set with
  | case1 written offset hlt word firstBit wordEnd lastBit mask ih =>
    rw [ih]
    have hk : position % 64 < 64 := Nat.mod_lt _ (by decide)
    have hmask : mask.getLsbD (position % 64) =
        (decide (offset % 64 ≤ position % 64) && decide (position % 64 < lastBit)) :=
      getLsbD_runMask hk
    have hbit : Bitmap.bit (written.setIfInBounds word
          (maskedWord (written.word word) mask set)) position =
        if position / 64 = word then
          if mask.getLsbD (position % 64) then set
          else (written.word word).getLsbD (position % 64)
        else written.bit position := by
      unfold Bitmap.bit
      rw [Bitmap.word_setIfInBounds _ _ (by omega)]
      split
      · exact getLsbD_maskedWord _ _ _ hk
      · rfl
    rw [hbit]
    by_cases hafter : wordEnd ≤ position ∧ position < endOffset
    · rw [if_pos hafter, if_pos ⟨by omega, hafter.2⟩]
    · rw [if_neg hafter]
      by_cases hword : position / 64 = word
      · rw [if_pos hword, hmask]
        by_cases hin : offset ≤ position ∧ position < endOffset
        · rw [if_pos hin, if_pos]
          simp only [Bool.and_eq_true, decide_eq_true_eq]
          omega
        · rw [if_neg hin, if_neg]
          · unfold Bitmap.bit
            rw [hword]
          · simp only [Bool.and_eq_true, decide_eq_true_eq]
            omega
      · rw [if_neg hword, if_neg (by omega)]
  | case2 written offset hlt => rw [if_neg (by omega)]

/-- `establishes_runtime_write_provenance`. -/
def establishesProvenance : CodeWriteSource → Bool
  | .cpu | .fpu | .storeQueue | .fallback => true
  | .dma | .copy => false

structure RuntimeWritePage where
  written : Bitmap 64 := Bitmap.empty

/-- The map of the pages. -/
abbrev RuntimeWritePages := Nat → Option RuntimeWritePage

namespace RuntimeWritePages

/-- `update_provenance` on the part of a range that lies on one page. -/
def updatePage (set : Bool) (physicalBegin size page : Nat) (found : Option RuntimeWritePage) :
    Option RuntimeWritePage :=
  let found := if set then some (found.getD {}) else found
  found.bind fun found =>
    let offset := max physicalBegin page - page
    let endOffset := min (physicalBegin + size) (page + pageSize) - page
    let written := updateRuntimeWriteBits found.written offset endOffset set
    if !set && written.isZero then none else some ⟨written⟩

/-- `update_provenance`, and the loop of `commit_disc_load_catalog` over an
invalidated range. -/
def updateProvenance (pages : RuntimeWritePages) (physicalBegin size : Nat) (set : Bool) :
    RuntimeWritePages := (pageSpan physicalBegin size).foldl (fun pages page =>
    Function.update pages page (updatePage set physicalBegin size page (pages page))) pages

variable (pages : RuntimeWritePages)

/-- A store that is recorded: changed bytes lose their provenance before the source
of the store establishes it. -/
def recordStore (physicalBegin size : Nat) (source : CodeWriteSource) (bytesChanged : Bool) :
    RuntimeWritePages :=
  let cleared := if bytesChanged then pages.updateProvenance physicalBegin size false else pages
  if establishesProvenance source then cleared.updateProvenance physicalBegin size true
  else cleared

/-- `was_written`, for a physical byte. -/
def wasWritten (physical : Nat) : Bool := (pages (pageOf physical)).any fun found =>
    let offset := physical - pageOf physical
    decide (found.written.word (offset / 64) &&& (1#64 <<< (offset % 64)) ≠ 0)

/-- `runtime_write_provenance_covers`. -/
def covers (address : BitVec 32) (size : Nat) : Bool :=
  if size = 0 ∨ address.toNat + size > 2 ^ 32 then false
  else
    let physical := (canonicalPhysicalAddress address).toNat
    if physical + size > 2 ^ 32 ∨
        (canonicalPhysicalAddress (address + BitVec.ofNat 32 size - 1)).toNat ≠
          physical + size - 1 then false
    else (List.range size).all fun offset => pages.wasWritten (physical + offset)

end RuntimeWritePages
end KatanaRecomp.Runtime
