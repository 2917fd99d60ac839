import KatanaRecomp.Runtime.AddressSpace

/-! # The access counter of the UTLB

`advance_utlb_access_counter` adds a number of accesses to the URC field of MMUCR at
once. The counter runs up to the boundary that URB sets and starts again there; a
counter at or above the boundary starts again with the next access. -/
namespace KatanaRecomp.Runtime

/-- What the counter reads and writes of the CPU. -/
structure UtlbCounterCpu where
  mmucr : BitVec 32 := 0
  addressSpace : Option RuntimeAddressSpace := none

def mmucrUrcMask : BitVec 32 := 0x3F <<< 10

def mmucrUrc (mmucr : BitVec 32) : Nat := ((mmucr >>> 10) &&& 0x3F).toNat

def mmucrUrb (mmucr : BitVec 32) : Nat := ((mmucr >>> 18) &&& 0x3F).toNat

def utlbBoundary (mmucr : BitVec 32) : Nat := if mmucrUrb mmucr = 0 then 64 else mmucrUrb mmucr

def nextUrc (boundary urc accesses : Nat) : Nat :=
  if urc ≥ boundary then (accesses - 1) % boundary else (urc + accesses % boundary) % boundary

def withUrc (mmucr : BitVec 32) (urc : Nat) : BitVec 32 :=
  (mmucr &&& ~~~mmucrUrcMask) ||| (BitVec.ofNat 32 urc <<< 10)

def advanceUtlbAccessCounter (cpu : UtlbCounterCpu) (accesses : Nat) : UtlbCounterCpu :=
  if accesses = 0 then cpu
  else
    let next := nextUrc (utlbBoundary cpu.mmucr) (mmucrUrc cpu.mmucr) accesses
    { mmucr := withUrc cpu.mmucr next
      addressSpace := cpu.addressSpace.map (·.writeMmucr (withUrc cpu.mmucr next)) }

/-! ## The closed form -/

theorem nextUrc_lt {boundary : Nat} (hboundary : 0 < boundary) (urc accesses : Nat) :
    nextUrc boundary urc accesses < boundary := by
  unfold nextUrc
  split
  · exact Nat.mod_lt _ hboundary
  · exact Nat.mod_lt _ hboundary

theorem nextUrc_add {boundary first : Nat} (hboundary : 0 < boundary) (hfirst : first ≠ 0)
    (urc second : Nat) : nextUrc boundary urc (first + second) =
      nextUrc boundary (nextUrc boundary urc first) second := by
  have hinside := nextUrc_lt hboundary urc first
  rw [nextUrc.eq_1 boundary (nextUrc boundary urc first), if_neg (by omega), Nat.add_mod_mod]
  unfold nextUrc
  by_cases hout : urc ≥ boundary
  · rw [if_pos hout, if_pos hout, Nat.mod_add_mod]
    congr 1
    omega
  · rw [if_neg hout, if_neg hout, Nat.mod_add_mod, Nat.add_mod_mod]
    have hswap : urc + first % boundary + second = urc + second + first % boundary := by omega
    rw [hswap, Nat.add_mod_mod]
    congr 1
    omega

/-! ## The field -/

theorem getLsbD_mmucrUrcMask (bit : Nat) :
    mmucrUrcMask.getLsbD bit = decide (10 ≤ bit ∧ bit < 16) := by
  by_cases hbit : bit < 32
  · interval_cases bit <;> rfl
  · rw [BitVec.getLsbD_of_ge _ _ (by omega), eq_comm, decide_eq_false_iff_not]
    omega

variable {urc : Nat}

theorem getLsbD_withUrc (hurc : urc < 64) (mmucr : BitVec 32) (bit : Nat) :
    (withUrc mmucr urc).getLsbD bit =
      if 10 ≤ bit ∧ bit < 16 then urc.testBit (bit - 10) else mmucr.getLsbD bit := by
  unfold withUrc
  have hhigh : ∀ i, 6 ≤ i → urc.testBit i = false := fun i hi =>
    Nat.testBit_lt_two_pow (lt_of_lt_of_le hurc (Nat.pow_le_pow_right Nat.two_pos hi))
  by_cases hbit : bit < 32
  · rw [BitVec.getLsbD_or, BitVec.getLsbD_and, BitVec.getLsbD_not, getLsbD_mmucrUrcMask,
      BitVec.getLsbD_shiftLeft, BitVec.getLsbD_ofNat]
    by_cases hfield : 10 ≤ bit ∧ bit < 16
    · have hlow : ¬ bit < 10 := by omega
      have hbound : bit - 10 < 32 := by omega
      simp [hbit, hfield, hlow, hbound]
    · by_cases hlow : bit < 10
      · simp [hbit, hlow, hfield]
      · simp [hbit, hfield, hhigh (bit - 10) (by omega)]
  · rw [BitVec.getLsbD_of_ge _ _ (by omega), if_neg (by omega), BitVec.getLsbD_of_ge _ _ (by omega)]

theorem getLsbD_sixBits (bit : Nat) : (0x3F : BitVec 32).getLsbD bit = decide (bit < 6) := by
  by_cases hbit : bit < 32
  · interval_cases bit <;> rfl
  · rw [BitVec.getLsbD_of_ge _ _ (by omega), eq_comm, decide_eq_false_iff_not]
    omega

theorem mmucrUrc_withUrc (hurc : urc < 64) (mmucr : BitVec 32) :
    mmucrUrc (withUrc mmucr urc) = urc := by
  unfold mmucrUrc
  refine Nat.eq_of_testBit_eq fun bit => ?_
  rw [BitVec.testBit_toNat, BitVec.getLsbD_and, getLsbD_sixBits, BitVec.getLsbD_ushiftRight,
    getLsbD_withUrc hurc]
  by_cases hbit : bit < 6
  · simp [hbit]
    omega
  · have hhigh : urc.testBit bit = false := Nat.testBit_lt_two_pow
      (lt_of_lt_of_le hurc (Nat.pow_le_pow_right Nat.two_pos (Nat.le_of_not_lt hbit)))
    simp [hbit, hhigh]

theorem utlbBoundary_withUrc (hurc : urc < 64) (mmucr : BitVec 32) :
    utlbBoundary (withUrc mmucr urc) = utlbBoundary mmucr := by
  have hsame : mmucrUrb (withUrc mmucr urc) = mmucrUrb mmucr := by
    unfold mmucrUrb
    refine Nat.eq_of_testBit_eq fun bit => ?_
    rw [BitVec.testBit_toNat, BitVec.testBit_toNat, BitVec.getLsbD_and, BitVec.getLsbD_and,
      BitVec.getLsbD_ushiftRight, BitVec.getLsbD_ushiftRight, getLsbD_withUrc hurc,
      if_neg (by omega)]
  unfold utlbBoundary
  rw [hsame]

theorem withUrc_withUrc {first second : Nat} (hfirst : first < 64) (hsecond : second < 64)
    (mmucr : BitVec 32) : withUrc (withUrc mmucr first) second = withUrc mmucr second := by
  refine BitVec.eq_of_getLsbD_eq fun bit hbit => ?_
  rw [getLsbD_withUrc hsecond, getLsbD_withUrc hfirst, getLsbD_withUrc hsecond]
  split
  · rfl
  · rfl

theorem utlbBoundary_pos (mmucr : BitVec 32) : 0 < utlbBoundary mmucr := by
  unfold utlbBoundary
  split
  · decide
  · omega

theorem utlbBoundary_le (mmucr : BitVec 32) : utlbBoundary mmucr ≤ 64 := by
  have hfield : mmucrUrb mmucr ≤ 63 := by
    unfold mmucrUrb
    rw [BitVec.toNat_and]
    exact Nat.and_le_right
  unfold utlbBoundary
  split
  · decide
  · omega

theorem nextUrc_lt_field (mmucr : BitVec 32) (urc accesses : Nat) :
    nextUrc (utlbBoundary mmucr) urc accesses < 64 :=
  lt_of_lt_of_le (nextUrc_lt (utlbBoundary_pos mmucr) urc accesses) (utlbBoundary_le mmucr)

/-! ## The address space -/

/-- A mask that has no bit of the counter does not see it. -/
theorem withUrc_masked (hurc : urc < 64) {mask : BitVec 32}
    (hmask : mask &&& mmucrUrcMask = 0) (value mmucr : BitVec 32) :
    (value ^^^ withUrc mmucr urc) &&& mask = (value ^^^ mmucr) &&& mask := by
  refine BitVec.eq_of_getLsbD_eq fun bit hbit => ?_
  have hclear : (mask &&& mmucrUrcMask).getLsbD bit = (0#32).getLsbD bit := by rw [hmask]; rfl
  rw [BitVec.getLsbD_and, getLsbD_mmucrUrcMask, BitVec.getLsbD_zero] at hclear
  rw [BitVec.getLsbD_and, BitVec.getLsbD_and, BitVec.getLsbD_xor, BitVec.getLsbD_xor,
    getLsbD_withUrc hurc]
  by_cases hfield : 10 ≤ bit ∧ bit < 16
  · rw [decide_eq_true hfield, Bool.and_true] at hclear
    rw [hclear, Bool.and_false, Bool.and_false]
  · rw [if_neg hfield]

/-- The comparisons of `write_mmucr` cover the write of the value that is there. -/
theorem writeMmucr_eq (s : RuntimeAddressSpace) (value : BitVec 32) : s.writeMmucr value =
      { (if (s.mmucr ^^^ value) &&& mmucrItlbContextMask ≠ 0 then s.clearItlb else s) with
        mmucr := value
        mmuGeneration := if (s.mmucr ^^^ value) &&& mmucrTranslationMask ≠ 0 then
          s.mmuGeneration + 1 else s.mmuGeneration } := by
  unfold RuntimeAddressSpace.writeMmucr RuntimeAddressSpace.clearItlb
  split
  · dsimp only
    split_ifs <;> rfl
  · rename_i hsame
    rw [not_not] at hsame
    simp [← hsame]

/-- Of the register the address space only compares bits outside the counter. -/
theorem writeMmucr_withUrc {first second : Nat} (hfirst : first < 64) (hsecond : second < 64)
    (s : RuntimeAddressSpace) (mmucr : BitVec 32) :
    (s.writeMmucr (withUrc mmucr first)).writeMmucr (withUrc mmucr second) =
      s.writeMmucr (withUrc mmucr second) := by
  have hcontext : mmucrItlbContextMask &&& mmucrUrcMask = 0 := by decide
  have htranslation : mmucrTranslationMask &&& mmucrUrcMask = 0 := by decide
  have hsettled : ∀ {mask : BitVec 32}, mask &&& mmucrUrcMask = 0 →
      ¬ (withUrc mmucr first ^^^ withUrc mmucr second) &&& mask ≠ 0 := by
    intro mask hmask
    rw [withUrc_masked hsecond hmask, BitVec.xor_comm, withUrc_masked hfirst hmask,
      BitVec.xor_self, BitVec.zero_and]
    exact not_not.mpr rfl
  rw [writeMmucr_eq (s.writeMmucr _), writeMmucr_eq s, writeMmucr_eq s]
  dsimp only
  rw [if_neg (hsettled hcontext), if_neg (hsettled htranslation), withUrc_masked hfirst hcontext,
    withUrc_masked hfirst htranslation, withUrc_masked hsecond hcontext,
    withUrc_masked hsecond htranslation]

/-! ## Batches -/

theorem advanceUtlbAccessCounter_add (cpu : UtlbCounterCpu) (first second : Nat) :
    advanceUtlbAccessCounter cpu (first + second) =
      advanceUtlbAccessCounter (advanceUtlbAccessCounter cpu first) second := by
  by_cases hfirst : first = 0
  · rw [hfirst, Nat.zero_add]
    rfl
  by_cases hsecond : second = 0
  · rw [hsecond]
    rfl
  have hurc := fun accesses => nextUrc_lt_field cpu.mmucr (mmucrUrc cpu.mmucr) accesses
  have hnext := nextUrc_lt_field cpu.mmucr
    (nextUrc (utlbBoundary cpu.mmucr) (mmucrUrc cpu.mmucr) first) second
  unfold advanceUtlbAccessCounter
  rw [if_neg (by omega), if_neg hfirst, if_neg hsecond]
  dsimp only
  rw [utlbBoundary_withUrc (hurc first), mmucrUrc_withUrc (hurc first),
    withUrc_withUrc (hurc first) hnext, nextUrc_add (utlbBoundary_pos _) hfirst]
  congr 1
  cases cpu.addressSpace with
  | none => rfl
  | some s => exact congrArg some (writeMmucr_withUrc (hurc first) hnext s cpu.mmucr).symm

theorem advanceUtlbAccessCounter_mmucr (cpu : UtlbCounterCpu) (accesses : Nat) :
    (advanceUtlbAccessCounter cpu accesses).mmucr &&& ~~~mmucrUrcMask =
      cpu.mmucr &&& ~~~mmucrUrcMask := by
  unfold advanceUtlbAccessCounter
  split
  · rfl
  · refine BitVec.eq_of_getLsbD_eq fun bit hbit => ?_
    rw [BitVec.getLsbD_and, BitVec.getLsbD_and, BitVec.getLsbD_not, getLsbD_mmucrUrcMask,
      getLsbD_withUrc (nextUrc_lt_field _ _ _)]
    split
    · rename_i hfield
      simp [hfield]
    · rfl

/-- Two batches are one batch, a batch is its single accesses, and of MMUCR only the counter
changes. -/
theorem utlb_accesses_batch (cpu : UtlbCounterCpu) :
    (∀ first second, advanceUtlbAccessCounter cpu (first + second) =
      advanceUtlbAccessCounter (advanceUtlbAccessCounter cpu first) second) ∧
    (∀ accesses, advanceUtlbAccessCounter cpu accesses =
      (fun state => advanceUtlbAccessCounter state 1)^[accesses] cpu) ∧
    ∀ accesses, (advanceUtlbAccessCounter cpu accesses).mmucr &&& ~~~mmucrUrcMask =
      cpu.mmucr &&& ~~~mmucrUrcMask := by
  refine ⟨advanceUtlbAccessCounter_add cpu, fun accesses => ?_, advanceUtlbAccessCounter_mmucr cpu⟩
  induction accesses with
  | zero => rfl
  | succ accesses ih =>
    rw [advanceUtlbAccessCounter_add, ih, Function.iterate_succ_apply']

/-- From any counter on, as many accesses as the boundary has entries reach each of them once. -/
theorem utlb_accesses_cycle (cpu : UtlbCounterCpu) (slot : Fin (utlbBoundary cpu.mmucr)) :
    ∃! k : Fin (utlbBoundary cpu.mmucr),
      mmucrUrc (advanceUtlbAccessCounter cpu (1 + k)).mmucr = slot := by
  have hpos := utlbBoundary_pos cpu.mmucr
  have hfirst := nextUrc_lt hpos (mmucrUrc cpu.mmucr) 1
  have hvalue : ∀ k, mmucrUrc (advanceUtlbAccessCounter cpu (1 + k)).mmucr =
      (nextUrc (utlbBoundary cpu.mmucr) (mmucrUrc cpu.mmucr) 1 + k) % utlbBoundary cpu.mmucr := by
    intro k
    unfold advanceUtlbAccessCounter
    rw [if_neg (by omega), mmucrUrc_withUrc (nextUrc_lt_field ..), nextUrc_add hpos one_ne_zero,
      nextUrc, if_neg hfirst.not_ge, Nat.add_mod_mod]
  simp only [hvalue]
  generalize nextUrc (utlbBoundary cpu.mmucr) (mmucrUrc cpu.mmucr) 1 = first at *
  have hslot := slot.isLt
  have hreach : (first + (slot + utlbBoundary cpu.mmucr - first) % utlbBoundary cpu.mmucr) %
      utlbBoundary cpu.mmucr = slot := by
    rw [Nat.add_mod_mod, Nat.add_sub_cancel' (by omega), Nat.add_mod_right, Nat.mod_eq_of_lt hslot]
  refine ⟨⟨_, Nat.mod_lt _ hpos⟩, hreach, fun k hk => Fin.ext ?_⟩
  exact Nat.ModEq.eq_of_lt_of_lt (Nat.ModEq.add_left_cancel' first (hk.trans hreach.symm)) k.isLt
    (Nat.mod_lt _ hpos)

end KatanaRecomp.Runtime
