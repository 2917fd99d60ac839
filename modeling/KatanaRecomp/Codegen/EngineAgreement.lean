import KatanaRecomp.Runtime.Interpreter
import KatanaRecomp.Codegen.Emitter

namespace KatanaRecomp.Codegen
open KatanaRecomp.Runtime Ir Lib
open Sh4 (DisassemblyLine)

@[simp] theorem registerIndex_registerByte (n : Fin 16) : registerIndex (registerByte n) = n := by
  revert n
  decide

theorem registerByte_beq (m n : Fin 16) : (registerByte m == registerByte n) = (m == n) := by
  revert m n
  decide

section
variable (line : DisassemblyLine)

theorem lowered_destination : registerIndex (lowerInstruction line).destinationRegister =
      line.instruction.destinationRegister := registerIndex_registerByte _

theorem lowered_source :
    registerIndex (lowerInstruction line).sourceRegister = line.instruction.sourceRegister :=
  registerIndex_registerByte _

theorem lowered_same_register :
    ((lowerInstruction line).sourceRegister == (lowerInstruction line).destinationRegister) =
      (line.instruction.sourceRegister == line.instruction.destinationRegister) :=
  registerByte_beq _ _

theorem lowered_operation :
    (lowerInstruction line).operation = lowerOperation line.instruction.kind := rfl

theorem lowered_immediate : (lowerInstruction line).immediate = line.instruction.immediate := rfl

theorem lowered_displacement :
    (lowerInstruction line).displacement = line.instruction.displacement := rfl

theorem lowered_effectiveAddress : (lowerInstruction line).effectiveAddress =
      loweredEffectiveAddress (lowerOperation line.instruction.kind) line.address
        line.instruction.displacement := rfl

theorem lowered_specialRegister : (lowerInstruction line).specialRegister =
      lowerSpecialRegister line.instruction.specialRegister := rfl

theorem lowered_forwarded : (lowerInstruction line).forwardedValueRegister = none := rfl

end

/-! ## Register statements -/

theorem tBit_eq_carry (cpu : CpuState) : tBit 32 cpu = Interpreter.carry cpu := rfl

theorem signBit_eq_shift (value : BitVec 32) : signBit value = (value >>> 31 != 0) := by
  rw [signBit, Word.and_sign_ne_zero, Word.shift_sign_ne_zero]

theorem signedWord_eq (value : BitVec 32) :
    signedWord (value &&& 0x0000FFFF) = (value.setWidth 16).signExtend 32 :=
  (Word.signExtend_word_sub value).symm

theorem signedLong_eq (value : BitVec 32) : signedLong value = value.signExtend 64 :=
  (Word.signExtend_long_sub value).symm

/-- The amount of a right shift is between 1 and 32. -/
theorem shift_amount (count : BitVec 32) : (((~~~count) &&& 0x1F) + 1).toNat ≤ 32 := by
  have hmask : ((~~~count) &&& 0x1F).toNat ≤ 31 := by
    rw [BitVec.toNat_and]
    exact Nat.and_le_right
  have hone : (1 : BitVec 32).toNat = 1 := rfl
  rw [BitVec.toNat_add, hone]
  omega

theorem shiftLeft_guarded (value amount : BitVec 32) :
    (if amount == 0 then value else value <<< amount) = value <<< amount := by
  by_cases h : amount = 0
  · subst h
    simp
  · rw [if_neg (by simpa using h)]

theorem shiftLogicalDynamic_eq (value count : BitVec 32) :
    shiftLogicalDynamic value count = Interpreter.shiftDynamic false value count := by
  unfold shiftLogicalDynamic Interpreter.shiftDynamic
  rw [Word.zero_sle, Word.and_sign_eq_zero, shiftLeft_guarded]
  rfl

theorem shiftArithmeticDynamic_eq (value count : BitVec 32) :
    shiftArithmeticDynamic value count = Interpreter.shiftDynamic true value count := by
  unfold shiftArithmeticDynamic Interpreter.shiftDynamic
  rw [Word.zero_sle, Word.and_sign_eq_zero, shiftLeft_guarded, Word.slt_zero, signBit,
    Word.and_sign_ne_zero]
  have hamount := shift_amount count
  generalize ((~~~count) &&& 0x1F) + 1 = amount at hamount ⊢
  have hsub : (32 - amount).toNat = 32 - amount.toNat := by
    have h32 : (32 : BitVec 32).toNat = 32 := rfl
    rw [BitVec.toNat_sub, h32]
    have := amount.isLt
    omega
  have hfill : (value >>> amount ||| if value.msb then (0xFFFFFFFF : BitVec 32) <<< (32 - amount)
      else 0) = value.sshiftRight' amount := by
    rw [BitVec.sshiftRight_eq', Word.sshiftRight_eq_fill value amount.toNat hamount,
      BitVec.shiftLeft_eq', BitVec.ushiftRight_eq', hsub]
    rfl
  simp only [hfill, Bool.true_and, if_true]

theorem divideStep_eq (cpu : CpuState) (n m : Fin 16) :
    divideStep cpu n m = Interpreter.divideStep cpu n m := by
  unfold divideStep Interpreter.divideStep
  rw [signBit_eq_shift, tBit_eq_carry]

theorem mova_address (address displacement delta : BitVec 32) (hdelta : delta &&& 3 = 0) :
    (address &&& 0xFFFFFFFC) + 4 + displacement + delta =
      Interpreter.addDisplacement ((address + delta + 4) &&& ~~~3) displacement := by
  have hmask : (~~~3 : BitVec 32) = 0xFFFFFFFC := by decide
  have hfour : (delta + 4) &&& 3 = 0 := by
    rw [BitVec.add_comm, Word.add_and_three _ _ hdelta]
    decide
  unfold Interpreter.addDisplacement
  rw [hmask, BitVec.add_assoc address, Word.align_add _ _ hfour]
  ring

/-- The instructions that align the address they compute from `pc`. -/
def alignsPc : Sh4.InstructionKind → Bool
  | .movLongLoadPcRelative | .moveAddressPcRelative => true
  | _ => false

theorem registerStatement_lowered (delta : BitVec 32) (line : DisassemblyLine)
    (hdelta : alignsPc line.instruction.kind → delta &&& 3 = 0) (cpu : CpuState) :
    registerStatement delta (lowerInstruction line) cpu =
      Interpreter.executeRegister line.instruction (line.address + delta) cpu := by
  unfold registerStatement Interpreter.executeRegister
  simp only [lowered_destination, lowered_source, lowered_operation, lowered_immediate,
    lowered_effectiveAddress]
  generalize line.instruction.destinationRegister = n
  generalize line.instruction.sourceRegister = m
  generalize line.instruction.kind = kind at hdelta
  cases kind
  all_goals dsimp only [lowerOperation]
  -- what is left is written with different idioms in the two engines
  case addWithCarry =>
    simp only [tBit, Interpreter.carry, ← Word.carry_out, ← Word.add_carry, CpuState.setR]
  case subWithCarry =>
    simp only [tBit, Interpreter.carry, ← Word.borrow_out, ← Word.sub_borrow, CpuState.setR]
  case negateWithCarry =>
    simp only [tBit, Interpreter.carry, ← Word.neg_borrow_out, ← Word.neg_borrow, CpuState.setR]
  case addWithOverflow => simp only [Word.add_overflow, CpuState.setR]
  case subWithOverflow => simp only [Word.sub_overflow, CpuState.setR]
  case extendSignedByte => rw [Word.signExtend_byte_fill]
  case extendSignedWord => rw [Word.signExtend_word_fill]
  case swapBytes => rw [Word.second_byte]
  case swapWords => rfl
  case extractMiddle => rw [BitVec.or_comm]
  case moveT => rfl
  case shiftLogicalLeftOne | shiftArithmeticLeftOne => rw [signBit_eq_shift]
  case shiftArithmeticRightOne => rw [Word.sshiftRight_one]
  case rotateLeft | rotateLeftThroughT => simp only [signBit_eq_shift, CpuState.setR, tBit_eq_carry]
  case rotateRight => simp only [Word.rotateRight_low_bit, CpuState.setR]
  case rotateRightThroughT => rfl
  case shiftArithmeticDynamic => rw [shiftArithmeticDynamic_eq]
  case shiftLogicalDynamic => rw [shiftLogicalDynamic_eq]
  case multiplyLong => rw [Word.setWidth_mul_wide]
  case multiplySignedWord => rw [signedWord_eq, signedWord_eq, BitVec.mul_comm]
  case doubleMultiplySignedLong => simp only [signedLong_eq, BitVec.mul_comm]
  case divideInitializeSigned =>
    simp only [signBit_eq_shift, bne_comm]
  case divideStep => rw [divideStep_eq]
  case compareGreaterOrEqual => rw [Word.ule_xor_sign]
  case compareGreaterThan => rw [Word.ult_xor_sign]
  case comparePositiveOrZero => rw [Word.and_sign_eq_zero, Word.zero_sle]
  case comparePositive => rw [Word.and_sign_eq_zero, Word.zero_slt]
  case moveAddressPcRelative =>
    simp only [loweredEffectiveAddress, relocatedCodeAddress]
    rw [mova_address _ _ _ (hdelta rfl)]

/-! ## Special registers -/

/-- The special registers an instruction of each transfer kind can name. -/
def transferableSpecial (kind : Sh4.InstructionKind) (reg : Sh4.SpecialRegister) : Bool :=
  match kind with
  | .storeSpecialRegister | .storeSpecialRegisterPreDecrement => reg != .none
  | .loadSpecialRegister | .loadSpecialRegisterPostIncrement => reg != .none && reg != .sgr
  | _ => true

theorem specialRead_lowered (reg : Sh4.SpecialRegister) (h : reg ≠ .none) :
    ∃ read, specialRegisterReadExpression (lowerSpecialRegister reg) = .ok read ∧
      ∀ cpu, Interpreter.specialRead cpu reg = some (read cpu) := by
  cases reg <;> first | exact absurd rfl h | exact ⟨_, rfl, fun _ => rfl⟩

theorem specialWrite_lowered (reg : Sh4.SpecialRegister) (h : reg ≠ .none) (hsgr : reg ≠ .sgr) :
    ∃ write, emitSpecialRegisterWrite (lowerSpecialRegister reg) = .ok write ∧
      ∀ cpu value, Interpreter.specialWrite cpu reg value = some (write value cpu) := by
  cases reg <;>
    first | exact absurd rfl h | exact absurd rfl hsgr | exact ⟨_, rfl, fun _ _ => rfl⟩

/-! ## Memory statements -/

/-- The saturation of the emitted code tests the upper bound first. -/
theorem saturate_eq_clamp (value low high : BitVec 64) (h : low.sle high) :
    (if high.slt value then high else if value.slt low then low else value) =
      Interpreter.clamp value low high := by
  unfold Interpreter.clamp
  by_cases hl : value.slt low
  · have hh : ¬ high.slt value := by
      rw [BitVec.slt_iff_toInt_lt] at hl ⊢
      rw [BitVec.sle_iff_toInt_le] at h
      omega
    simp only [hl, hh, if_true, Bool.false_eq_true, if_false]
  · simp only [hl, Bool.false_eq_true, if_false]

section
variable {M : Type} (P : Platform M) (delta : BitVec 32) (line : DisassemblyLine)

theorem multiplyAccumulateWord_lowered : multiplyAccumulateWord P (lowerInstruction line) =
      Interpreter.multiplyAccumulate P true line.instruction.destinationRegister
        line.instruction.sourceRegister := by
  have hsaturate := fun value =>
    saturate_eq_clamp value 0xFFFFFFFF80000000 0x000000007FFFFFFF (by decide)
  unfold multiplyAccumulateWord Interpreter.multiplyAccumulate Interpreter.accumulate
    guestReadSigned
  simp only [lowered_destination, lowered_source, lowered_same_register, beq_iff_eq, if_true,
    bind_assoc, pure_bind, Word.signExtend_read_word, Bool.and_true, signedLong_eq, hsaturate]
  refine bind_congr fun cpu => bind_congr fun destination => bind_congr fun source =>
    bind_congr fun _ => bind_congr fun _ => congrArg Guest.modifyCpu (funext fun cpu => ?_)
  cases cpu.s <;> rfl

theorem multiplyAccumulateLong_lowered : multiplyAccumulateLong P (lowerInstruction line) =
      Interpreter.multiplyAccumulate P false line.instruction.destinationRegister
        line.instruction.sourceRegister := by
  have hsaturate := fun value =>
    saturate_eq_clamp value 0xFFFF800000000000 0x00007FFFFFFFFFFF (by decide)
  unfold multiplyAccumulateLong Interpreter.multiplyAccumulate Interpreter.accumulate
  simp only [lowered_destination, lowered_source, lowered_same_register, beq_iff_eq, if_false,
    bind_assoc, pure_bind, signedLong_eq, hsaturate, Bool.and_false, Bool.false_eq_true]

/-- The emitted code increments the address it read, the interpreter the
register: the same value, since the register was not the destination. -/
theorem loadPostIncrement_lowered (bytes : BitVec 32) (read : BitVec 32 → Guest M (BitVec 32))
    (hread : ∀ address, Guest.KeepsCpu (read address)) :
    loadPostIncrement (lowerInstruction line) bytes read =
      Interpreter.loadPostIncrement line.instruction.destinationRegister
        line.instruction.sourceRegister bytes read := by
  unfold loadPostIncrement Interpreter.loadPostIncrement
  simp only [lowered_destination, lowered_source, lowered_same_register]
  generalize line.instruction.destinationRegister = n
  generalize line.instruction.sourceRegister = m
  funext σ
  rw [Guest.bind_run, Guest.bind_run, Guest.getCpu_run]
  refine (hread _).bind_congr fun value σ' hσ' => ?_
  by_cases h : n = m
  · simp [h]
  · have hm : m ≠ n := fun e => h e.symm
    simp [h, hm, hσ']

theorem readSpecial_lowered (reg : Sh4.SpecialRegister) (h : reg ≠ .none) :
    ∃ read, specialRegisterReadExpression (lowerSpecialRegister reg) = .ok read ∧
      ∀ σ : Machine M, Interpreter.readSpecial reg σ = (.ok (read σ.cpu), σ) := by
  obtain ⟨read, hread, heq⟩ := specialRead_lowered reg h
  refine ⟨read, hread, fun σ => ?_⟩
  simp only [Interpreter.readSpecial, Guest.bind_run, Guest.getCpu_run, heq, Guest.pure_run]

theorem writeSpecial_lowered (reg : Sh4.SpecialRegister) (h : reg ≠ .none) (hsgr : reg ≠ .sgr) :
    ∃ write, emitSpecialRegisterWrite (lowerSpecialRegister reg) = .ok write ∧
      ∀ value, (Interpreter.writeSpecial reg value : Guest M Unit) =
        Guest.modifyCpu (write value) := by
  obtain ⟨write, hwrite, heq⟩ := specialWrite_lowered reg h hsgr
  refine ⟨write, hwrite, fun value => funext fun σ => ?_⟩
  simp only [Interpreter.writeSpecial, heq, Guest.modifyCpu_run]

/-- FMOV from memory leaves the general registers alone. -/
theorem fmovLoad_preserves_r (n : Fin 16) (address : BitVec 32) :
    Guest.Preserves CpuState.r (Interpreter.fmovLoad P n address) := by
  have hread (address : BitVec 32) : Guest.Preserves CpuState.r (guestRead P 32 address) :=
    (Guest.KeepsCpu.guestRead P 32 address).preserves _
  refine (Guest.KeepsCpu.getCpu.preserves _).bind fun cpu => ?_
  split
  · refine (hread _).bind fun low => (hread _).bind fun high => fun σ => ?_
    dsimp only [Guest.modifyCpu_run, CpuState.writeFpuPairBits]
    split <;> rfl
  · exact (hread _).bind fun value σ => rfl

theorem memoryStatement_lowered (hdelta : alignsPc line.instruction.kind → delta &&& 3 = 0)
    (hspecial : transferableSpecial line.instruction.kind line.instruction.specialRegister) :
    memoryStatement P delta (lowerInstruction line) =
      .ok (Interpreter.executeMemory P line.instruction (line.address + delta)) := by
  unfold memoryStatement Interpreter.executeMemory
  simp only [lowered_destination, lowered_source, lowered_operation, lowered_immediate,
    lowered_displacement, lowered_effectiveAddress, lowered_specialRegister, lowered_forwarded]
  generalize line.instruction.kind = kind at *
  cases kind
  all_goals dsimp only [lowerOperation]
  case multiplyAccumulateWord => rw [multiplyAccumulateWord_lowered]
  case multiplyAccumulateLong => rw [multiplyAccumulateLong_lowered]
  case andByteImmediate | xorByteImmediate | orByteImmediate =>
    simp [byteStatement, Interpreter.modifyByte]
  case movLongStorePreDecrement => simp [storePreDecrement, Interpreter.storePreDecrement]
  case movByteLoadPostIncrement | movWordLoadPostIncrement =>
    rw [loadPostIncrement_lowered line _ _ (Guest.KeepsCpu.guestReadSigned P _)]
  case movLongLoadPostIncrement =>
    rw [loadPostIncrement_lowered line _ _ (Guest.KeepsCpu.guestRead P _)]
  case movByteStoreR0Indexed | movWordStoreR0Indexed | movLongStoreR0Indexed =>
    simp only [BitVec.add_comm]
  case movByteLoadR0Indexed | movWordLoadR0Indexed | movLongLoadR0Indexed | fmovLoadR0Indexed
      | fmovStoreR0Indexed =>
    simp only [BitVec.add_comm]
    rfl
  case movWordLoadPcRelative =>
    have haddress : line.address + 4 + line.instruction.displacement + delta =
        Interpreter.addDisplacement (line.address + delta + 4) line.instruction.displacement := by
      unfold Interpreter.addDisplacement
      ring
    simp only [loweredEffectiveAddress, relocatedCodeAddress, haddress]
    rfl
  case movLongLoadPcRelative =>
    simp only [loweredEffectiveAddress, relocatedCodeAddress, mova_address _ _ _ (hdelta rfl)]
    rfl
  case storeSpecialRegister =>
    obtain ⟨read, hread, heq⟩ := readSpecial_lowered (M := M) line.instruction.specialRegister
      (by simpa [transferableSpecial] using hspecial)
    rw [hread]
    refine congrArg (fun p => Except.ok (some p)) (funext fun σ => ?_)
    simp only [Interpreter.loadInto, Guest.bind_run, heq, Guest.modifyCpu_run]
  case storeSpecialRegisterPreDecrement =>
    obtain ⟨read, hread, heq⟩ := readSpecial_lowered (M := M) line.instruction.specialRegister
      (by simpa [transferableSpecial] using hspecial)
    rw [hread]
    refine congrArg (fun p => Except.ok (some p)) (funext fun σ => ?_)
    simp only [Guest.bind_run, heq, Guest.getCpu_run, storePreDecrement,
      Interpreter.storePreDecrement, BitVec.setWidth_eq]
  case loadSpecialRegister =>
    obtain ⟨write, hwrite, heq⟩ := writeSpecial_lowered (M := M) line.instruction.specialRegister
      (by simpa [transferableSpecial] using (Bool.and_eq_true_iff.mp hspecial).1)
      (by simpa [transferableSpecial] using (Bool.and_eq_true_iff.mp hspecial).2)
    rw [hwrite]
    refine congrArg (fun p => Except.ok (some p)) (funext fun σ => ?_)
    simp only [heq, Guest.bind_run, Guest.getCpu_run, Guest.modifyCpu_run]
  case loadSpecialRegisterPostIncrement =>
    obtain ⟨write, hwrite, heq⟩ := writeSpecial_lowered (M := M) line.instruction.specialRegister
      (by simpa [transferableSpecial] using (Bool.and_eq_true_iff.mp hspecial).1)
      (by simpa [transferableSpecial] using (Bool.and_eq_true_iff.mp hspecial).2)
    rw [hwrite]
    refine congrArg (fun p => Except.ok (some p)) (funext fun σ => ?_)
    simp only [heq, Guest.bind_run (Guest.getCpu), Guest.getCpu_run]
    refine (Guest.KeepsCpu.guestRead P _ _).bind_congr fun value σ' hσ' => ?_
    simp only [Guest.bind_run, Guest.modifyCpu_run, hσ']
  case fmovLoadPostIncrement =>
    refine congrArg (fun p => Except.ok (some p)) (funext fun σ => ?_)
    rw [Guest.bind_run, Guest.bind_run, Guest.getCpu_run]
    have hr := fmovLoad_preserves_r P line.instruction.destinationRegister
      (σ.cpu.r line.instruction.sourceRegister) σ
    change (Interpreter.fmovLoad P _ _ >>= _) σ = (Interpreter.fmovLoad P _ _ >>= _) σ
    rw [Guest.bind_run, Guest.bind_run]
    rcases hload : Interpreter.fmovLoad P line.instruction.destinationRegister
      (σ.cpu.r line.instruction.sourceRegister) σ with ⟨_ | _, σ'⟩
    · rfl
    · rw [hload] at hr
      rw [← hr]
      rfl
  all_goals rfl

end
end KatanaRecomp.Codegen
