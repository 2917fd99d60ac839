import KatanaRecomp.Runtime.AliasInvalidation

/-! # Writes into immutable bytes of a block

A registered block keeps its mutable ranges in order and apart, so the walk over them
with the clipped write finds the first byte that no range holds. -/
namespace KatanaRecomp.Runtime

def nativeAotOffsetIsMutable (offset : Nat) : List NativeAotTemplateMutableRange → Bool
  | [] => false
  | range :: rest =>
    if offset < range.offset.toNat then false
    else if offset - range.offset.toNat < range.size.toNat then true
    else nativeAotOffsetIsMutable offset rest

section
variable {extent previousEnd : Nat} {range : NativeAotTemplateMutableRange}
  {ranges : List NativeAotTemplateMutableRange}

theorem mutableRangesValidFrom_cons
    (h : mutableRangesValidFrom extent previousEnd (range :: ranges) = true) :
    previousEnd ≤ range.offset.toNat ∧ mutableRangesValidFrom extent range.end ranges = true := by
  unfold mutableRangesValidFrom at h
  split at h
  · cases h
  · rename_i hrange
    exact ⟨by omega, h⟩

variable (h : mutableRangesValidFrom extent previousEnd ranges = true)
include h

theorem le_offset_of_valid : ∀ range ∈ ranges, previousEnd ≤ range.offset.toNat := by
  induction ranges generalizing previousEnd with
  | nil => exact fun range hrange => absurd hrange List.not_mem_nil
  | cons first rest ih =>
    obtain ⟨hfirst, hrest⟩ := mutableRangesValidFrom_cons h
    intro range hrange
    obtain rfl | hrange := List.mem_cons.mp hrange
    · exact hfirst
    · have hlater := ih hrest range hrange
      unfold NativeAotTemplateMutableRange.end at hlater
      omega

/-- The rule for one byte: it lies in no range. -/
theorem nativeAotOffsetIsMutable_eq_false (offset : Nat) :
    nativeAotOffsetIsMutable offset ranges = false ↔
      ∀ range ∈ ranges, offset < range.offset.toNat ∨ range.end ≤ offset := by
  induction ranges generalizing previousEnd with
  | nil => simp [nativeAotOffsetIsMutable]
  | cons first rest ih =>
    have hrest := (mutableRangesValidFrom_cons h).2
    unfold nativeAotOffsetIsMutable
    rw [List.forall_mem_cons, ← ih hrest]
    unfold NativeAotTemplateMutableRange.end
    by_cases hbelow : offset < first.offset.toNat
    · rw [if_pos hbelow, eq_self, true_iff, ih hrest]
      refine ⟨.inl hbelow, fun range hrange => .inl ?_⟩
      have hlater := le_offset_of_valid hrest range hrange
      unfold NativeAotTemplateMutableRange.end at hlater
      omega
    rw [if_neg hbelow]
    by_cases hinside : offset - first.offset.toNat < first.size.toNat
    · rw [if_pos hinside]
      refine iff_of_false (by decide) fun hout => ?_
      omega
    · rw [if_neg hinside]
      refine (and_iff_right ?_).symm
      omega

/-- The walk stops at a byte that no range holds. -/
theorem byte_of_leavesMutableRanges {cursor endOffset : Nat}
    (hleaves : leavesMutableRanges endOffset cursor ranges = true) :
    ∃ byte, cursor ≤ byte ∧ byte < endOffset ∧
      ∀ range ∈ ranges, byte < range.offset.toNat ∨ range.end ≤ byte := by
  induction ranges generalizing previousEnd cursor with
  | nil =>
    exact ⟨cursor, le_rfl, of_decide_eq_true hleaves, fun range hrange =>
      absurd hrange List.not_mem_nil⟩
  | cons first rest ih =>
    have hrest := (mutableRangesValidFrom_cons h).2
    simp only [List.forall_mem_cons]
    unfold leavesMutableRanges at hleaves
    split at hleaves
    · cases hleaves
    split at hleaves
    · obtain ⟨byte, hlow, hhigh, hfree⟩ := ih hrest hleaves
      exact ⟨byte, hlow, hhigh, .inr (by omega), hfree⟩
    split at hleaves
    · rename_i hgap
      refine ⟨cursor, le_rfl, by omega, .inl hgap, fun range hrange => .inl ?_⟩
      have hlater := le_offset_of_valid hrest range hrange
      unfold NativeAotTemplateMutableRange.end at hlater
      omega
    · obtain ⟨byte, hlow, hhigh, hfree⟩ := ih hrest hleaves
      exact ⟨byte, by omega, hhigh, .inr (by omega), hfree⟩

omit h

end

/-- For a block that is registered, a write inside the address space overlaps immutable code
exactly where one of its bytes in the block is not mutable. -/
theorem write_overlaps_immutable_iff {block : ExecutableBlockRegistration}
    (hblock : ExecutableCodeTracker.checkRegistration block = .ok ()) {writeStart : BitVec 32}
    {writeSize : Nat} (hwrite : writeStart.toNat + writeSize ≤ 2 ^ 32) :
    nativeAotWriteOverlapsImmutable block.physicalStart block.size block.mutableRanges writeStart
        writeSize = true ↔ ∃ byte, (writeStart.toNat ≤ byte ∧ byte < writeStart.toNat + writeSize) ∧
        (block.physicalStart.toNat ≤ byte ∧ byte < block.physicalStart.toNat + block.size.toNat) ∧
        nativeAotOffsetIsMutable (byte - block.physicalStart.toNat) block.mutableRanges = false := by
  unfold ExecutableCodeTracker.checkRegistration at hblock
  split at hblock
  · cases hblock
  split at hblock
  · cases hblock
  split at hblock
  · cases hblock
  rename_i hinside hvalid
  rw [Bool.not_eq_true, Bool.not_eq_false'] at hvalid
  constructor
  · intro hoverlap
    unfold nativeAotWriteOverlapsImmutable at hoverlap
    split at hoverlap
    · cases hoverlap
    split at hoverlap
    · omega
    dsimp only at hoverlap
    split at hoverlap
    · cases hoverlap
    rw [hvalid, Bool.not_true, if_neg Bool.false_ne_true] at hoverlap
    obtain ⟨byte, hlow, hhigh, hfree⟩ := byte_of_leavesMutableRanges hvalid hoverlap
    refine ⟨byte + block.physicalStart.toNat, by omega, by omega, ?_⟩
    rw [Nat.add_sub_cancel]
    exact (nativeAotOffsetIsMutable_eq_false hvalid byte).mpr hfree
  · rintro ⟨byte, ⟨hlow, hhigh⟩, ⟨hstart, hend⟩, himmutable⟩
    have hfree := (nativeAotOffsetIsMutable_eq_false hvalid _).mp himmutable
    exact MainRam.nativeAotWriteOverlapsImmutable_of_byte ⟨hstart, hend, hfree⟩ hlow hhigh

/-- Of sixteen bytes the four in the middle may change. -/
def patchedBlock : ExecutableBlockRegistration where
  identity := "patched"
  physicalStart := 0x0C010000
  size := 16
  provenance := "image"
  mutableRanges := [⟨4, 4⟩]

theorem write_overlaps_immutable_iff_patched :
    nativeAotWriteOverlapsImmutable 0x0C010000 16 [⟨4, 4⟩] 0x0C010006 4 = true ↔
      ∃ byte, ((0x0C010006 : BitVec 32).toNat ≤ byte ∧ byte < (0x0C010006 : BitVec 32).toNat + 4) ∧
        ((0x0C010000 : BitVec 32).toNat ≤ byte ∧
          byte < (0x0C010000 : BitVec 32).toNat + (16 : BitVec 32).toNat) ∧
        nativeAotOffsetIsMutable (byte - (0x0C010000 : BitVec 32).toNat) [⟨4, 4⟩] = false := by
  have hblock : ExecutableCodeTracker.checkRegistration patchedBlock = .ok () := by decide
  exact write_overlaps_immutable_iff hblock (by decide)

end KatanaRecomp.Runtime
