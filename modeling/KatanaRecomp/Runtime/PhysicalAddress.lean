import KatanaRecomp.Runtime.CodeTracker

/-! # The fold onto physical addresses

`canonical_physical_address` drops the segment bits of an address, but for the
on-chip memory and the control area. What it does to a number, and that a folded
page is folded. -/
namespace KatanaRecomp.Runtime
variable (address : BitVec 32)
include address

theorem and_segment : address &&& (0xFC000000 : BitVec 32) = (address >>> 26) <<< 26 := by
  have hmask : ∀ place : Fin 32,
      (0xFC000000 : BitVec 32).getLsbD place = decide (26 ≤ place.val) := by decide
  refine BitVec.eq_of_getLsbD_eq fun place hplace => ?_
  rw [BitVec.getLsbD_and, hmask ⟨place, hplace⟩, BitVec.getLsbD_shiftLeft]
  by_cases hlow : place < 26
  · simp [hlow, show ¬ 26 ≤ place by omega]
  · simp [hplace, hlow, show 26 ≤ place by omega]

theorem toNat_and_segment :
    (address &&& (0xFC000000 : BitVec 32)).toNat = address.toNat / 2 ^ 26 * 2 ^ 26 := by
  have hlt := address.isLt
  rw [and_segment, BitVec.toNat_shiftLeft, BitVec.toNat_ushiftRight, Nat.shiftLeft_eq,
    Nat.shiftRight_eq_div_pow, Nat.mod_eq_of_lt (by omega)]

/-- The address lies in the on-chip memory. -/
theorem onChip_iff :
    address &&& (0xFC000000 : BitVec 32) = 0x7C000000 ↔ address.toNat / 2 ^ 26 = 31 := by
  rw [← BitVec.toNat_inj, toNat_and_segment]
  change address.toNat / 2 ^ 26 * 2 ^ 26 = 31 * 2 ^ 26 ↔ _
  omega

/-- The on-chip memory and the control area are not folded. -/
theorem toNat_canonicalPhysicalAddress_eq : (canonicalPhysicalAddress address).toNat =
      if address.toNat / 2 ^ 26 = 31 ∨ 0xE0000000 ≤ address.toNat then address.toNat
      else address.toNat % 2 ^ 29 := by
  unfold canonicalPhysicalAddress
  by_cases honChip : address.toNat / 2 ^ 26 = 31
  · rw [if_pos ((onChip_iff address).mpr honChip), if_pos (Or.inl honChip)]
  · rw [if_neg (mt (onChip_iff address).mp honChip)]
    by_cases hcontrol : 0xE0000000 ≤ address.toNat
    · have hnot : ¬ address < (0xE0000000 : BitVec 32) := by
        rw [BitVec.lt_def]
        exact Nat.not_lt.mpr hcontrol
      rw [if_neg hnot, if_pos (Or.inr hcontrol)]
    · have hbelow : address < (0xE0000000 : BitVec 32) := by
        rw [BitVec.lt_def]
        exact Nat.not_le.mp hcontrol
      rw [if_pos hbelow, if_neg (not_or.mpr ⟨honChip, hcontrol⟩), BitVec.toNat_and]
      exact Nat.and_two_pow_sub_one_eq_mod address.toNat 29

/-- What the fold keeps, by the 64-MiB area. -/
theorem canonicalPhysicalAddress_eq_self_iff : canonicalPhysicalAddress address = address ↔
      address.toNat / 2 ^ 26 = 31 ∨ 56 ≤ address.toNat / 2 ^ 26 ∨ address.toNat / 2 ^ 26 < 8 := by
  rw [← BitVec.toNat_inj, toNat_canonicalPhysicalAddress_eq]
  split_ifs <;> omega

theorem canonicalPhysicalAddress_idem :
    canonicalPhysicalAddress (canonicalPhysicalAddress address) =
      canonicalPhysicalAddress address := by
  have hfold := toNat_canonicalPhysicalAddress_eq address
  rw [canonicalPhysicalAddress_eq_self_iff]
  split_ifs at hfold <;> omega

omit address

/-- A page of a folded address is folded: the bounds of the fold are bounds of pages. -/
theorem canonicalPhysicalAddress_page (address pageSize : BitVec 32)
    (hsize : ∃ places ≤ 26, pageSize.toNat = 2 ^ places) :
    canonicalPhysicalAddress (canonicalPhysicalAddress address / pageSize * pageSize) =
      canonicalPhysicalAddress address / pageSize * pageSize := by
  obtain ⟨places, hplaces, hsize⟩ := hsize
  obtain ⟨rest, hrest⟩ := Nat.pow_dvd_pow 2 hplaces
  have hpos : 0 < 2 ^ places := Nat.two_pow_pos places
  have hfolded := (canonicalPhysicalAddress_eq_self_iff _).mp (canonicalPhysicalAddress_idem address)
  have hlt := (canonicalPhysicalAddress address).isLt
  set folded := canonicalPhysicalAddress address
  have hle := Nat.div_mul_le_self folded.toNat (2 ^ places)
  have hpage : (folded / pageSize * pageSize).toNat = folded.toNat / 2 ^ places * 2 ^ places := by
    rw [BitVec.toNat_mul, BitVec.toNat_udiv, hsize, Nat.mod_eq_of_lt (by omega)]
  -- rounding down keeps the number of the 64-MiB area
  have harea : folded.toNat / 2 ^ places * 2 ^ places / 2 ^ 26 = folded.toNat / 2 ^ 26 := by
    rw [hrest, ← Nat.div_div_eq_div_mul, ← Nat.div_div_eq_div_mul, Nat.mul_div_cancel _ hpos]
  rwa [canonicalPhysicalAddress_eq_self_iff, hpage, harea]

end KatanaRecomp.Runtime
