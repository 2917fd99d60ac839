import Mathlib

/-! # Machine words

C++ idioms on fixed-width words and the arithmetic they compute: sign tests by
mask or shift, sign extension by subtraction or by filling, carries through a
wider word, shifts with sign fill and alignment. -/
namespace KatanaRecomp.Lib.Word

/-! ## Register numbers

A literal of `Fin n` needs that `n` is not zero. With these instances a
definition refers to one fact by name for every literal it contains. -/

instance fin16 : NeZero 16 := ⟨by decide⟩

instance fin8 : NeZero 8 := ⟨by decide⟩

instance fin4 : NeZero 4 := ⟨by decide⟩

/-! ## Masks -/

theorem and_low_bits {w k : Nat} (hk : k ≤ w) (x mask : BitVec w)
    (hmask : mask.toNat = 2 ^ k - 1) : x &&& mask = (x.setWidth k).setWidth w := by
  apply BitVec.eq_of_toNat_eq
  have hlt : x.toNat % 2 ^ k < 2 ^ w :=
    lt_of_lt_of_le (Nat.mod_lt _ (by positivity)) (Nat.pow_le_pow_right (by omega) hk)
  rw [BitVec.toNat_and, hmask, Nat.and_two_pow_sub_one_eq_mod, BitVec.toNat_setWidth,
    BitVec.toNat_setWidth, Nat.mod_eq_of_lt hlt]

theorem and_twoPow_ne_zero {w : Nat} (x : BitVec w) (k : Nat) (hk : k < w) :
    (x &&& BitVec.twoPow w k != 0) = x.getLsbD k := by
  rw [BitVec.and_twoPow]
  cases x.getLsbD k with
  | false => simp
  | true =>
    have hne : BitVec.twoPow w k ≠ 0#w := by
      intro h
      have := congrArg BitVec.toNat h
      rw [BitVec.toNat_twoPow_of_lt hk] at this
      simp at this
    simpa using hne

theorem xor_eq_add_of_and_eq_zero {w : Nat} (x y : BitVec w) (h : x &&& y = 0#w) :
    x ^^^ y = x + y := by
  rw [BitVec.add_eq_or_of_and_eq_zero x y h]
  ext i hi
  have hbit : (x &&& y)[i] = false := by simp [h]
  rw [BitVec.getElem_and] at hbit
  rw [BitVec.getElem_xor, BitVec.getElem_or]
  cases hx : x[i] <;> simp_all

/-! ## Sign tests -/

variable (x : BitVec 32)
include x

theorem and_sign_ne_zero : (x &&& 0x80000000 != 0) = x.msb := by
  have sign : (0x80000000 : BitVec 32) = BitVec.twoPow 32 31 := by decide
  rw [sign, and_twoPow_ne_zero x 31 (by decide), BitVec.msb_eq_getLsbD_last]

theorem and_sign_eq_zero : (x &&& 0x80000000 == 0) = !x.msb := by
  rw [← and_sign_ne_zero, bne, Bool.not_not]

theorem shift_sign_ne_zero : (x >>> 31 != 0) = x.msb := by
  rw [BitVec.msb_eq_decide, bne, Bool.eq_iff_iff]
  simp [BitVec.toNat_eq, Nat.shiftRight_eq_div_pow]

theorem slt_zero : x.slt 0 = x.msb := BitVec.slt_zero_eq_msb

theorem zero_sle : (0 : BitVec 32).sle x = !x.msb := BitVec.zero_sle_eq_not_msb

theorem zero_slt : (0 : BitVec 32).slt x = (x != 0 && !x.msb) := by
  rw [BitVec.slt_eq_sle_and_ne, zero_sle, Bool.and_comm, bne_comm]

/-- Flipping the sign bit moves a word by half the range. -/
theorem toNat_xor_sign :
    (x ^^^ 0x80000000).toNat = if x.msb then x.toNat - 2 ^ 31 else x.toNat + 2 ^ 31 := by
  cases hm : x.msb with
  | false =>
    have h : x &&& 0x80000000 = 0#32 := by
      have := and_sign_eq_zero x
      rw [hm] at this
      exact eq_of_beq this
    rw [xor_eq_add_of_and_eq_zero _ _ h, BitVec.toNat_add]
    have := BitVec.toNat_lt_of_msb_false hm
    simp
    omega
  | true =>
    have hs : (x ^^^ 0x80000000).msb = false := by
      rw [BitVec.msb_xor, hm]
      decide
    have h : (x ^^^ 0x80000000) &&& 0x80000000 = 0#32 := by
      have := and_sign_eq_zero (x ^^^ 0x80000000)
      rw [hs] at this
      exact eq_of_beq this
    have hx := xor_eq_add_of_and_eq_zero _ _ h
    rw [BitVec.xor_assoc, BitVec.xor_self, BitVec.xor_zero] at hx
    have hn := congrArg BitVec.toNat hx
    have hl := BitVec.toNat_lt_of_msb_false hs
    rw [BitVec.toNat_add] at hn
    simp only [BitVec.reduceToNat, if_true] at hn ⊢
    omega

omit x

/-- The unsigned comparison of two words with flipped signs is the signed one. -/
theorem ult_xor_sign (x y : BitVec 32) : (x ^^^ 0x80000000).ult (y ^^^ 0x80000000) = x.slt y := by
  rw [Bool.eq_iff_iff, BitVec.slt_iff_toInt_lt, BitVec.ult_iff_lt, BitVec.lt_def,
    toNat_xor_sign, toNat_xor_sign, BitVec.toInt_eq_msb_cond, BitVec.toInt_eq_msb_cond]
  have hx := x.isLt
  have hy := y.isLt
  cases hxm : x.msb <;> cases hym : y.msb <;> rw [BitVec.msb_eq_decide] at hxm hym <;>
    simp only [decide_eq_true_eq, decide_eq_false_iff_not, Bool.false_eq_true, if_false, if_true,
      Nat.add_one_sub_one] at hxm hym ⊢ <;> omega

theorem ule_xor_sign (x y : BitVec 32) : (x ^^^ 0x80000000).ule (y ^^^ 0x80000000) = x.sle y := by
  rw [BitVec.ule_eq_not_ult, ult_xor_sign, BitVec.sle_eq_not_slt]

/-! ## Carries and overflow -/

/-- A 32-bit addition with carry computed in 64 bits. -/
theorem add_carry (x y : BitVec 32) (c : Bool) : x + y + (if c then 1 else 0) =
      (x.setWidth 64 + y.setWidth 64 + if c then 1 else 0).setWidth 32 := by
  apply BitVec.eq_of_toNat_eq
  cases c <;> simp

theorem carry_out (x y : BitVec 32) (c : Bool) :
    ((x + y).ult x || (x + y + if c then 1 else 0).ult (x + y)) =
      (0xFFFFFFFF : BitVec 64).ult (x.setWidth 64 + y.setWidth 64 + if c then 1 else 0) := by
  rw [Bool.eq_iff_iff]
  cases c <;> simp [BitVec.ult_iff_lt, BitVec.lt_def] <;> omega

/-- A 32-bit subtraction with borrow computed in 64 bits. -/
theorem sub_borrow (x y : BitVec 32) (c : Bool) : x - y - (if c then 1 else 0) =
      (x.setWidth 64 - (y.setWidth 64 + if c then 1 else 0)).setWidth 32 := by
  apply BitVec.eq_of_toNat_eq
  cases c <;> simp [BitVec.toNat_sub] <;> omega

theorem borrow_out (x y : BitVec 32) (c : Bool) : (x.ult y || (x - y).ult (if c then 1 else 0)) =
      (x.setWidth 64).ult (y.setWidth 64 + if c then 1 else 0) := by
  rw [Bool.eq_iff_iff]
  cases c <;> simp [BitVec.ult_iff_lt, BitVec.lt_def, BitVec.toNat_sub] <;> omega

theorem neg_borrow (y : BitVec 32) (c : Bool) :
    0 - y - (if c then 1 else 0) = (0 - (y.setWidth 64 + if c then 1 else 0)).setWidth 32 := by
  apply BitVec.eq_of_toNat_eq
  cases c with
  | false => simp
  | true =>
    simp [BitVec.toNat_sub]
    omega

theorem neg_borrow_out (y : BitVec 32) (c : Bool) :
    (y != 0 || (0 - y).ult (0 - y - if c then 1 else 0)) =
      (y.setWidth 64 + (if c then 1 else 0) != 0) := by
  rw [Bool.eq_iff_iff]
  cases c <;>
    simp [BitVec.ult_iff_lt, BitVec.lt_def, BitVec.toNat_sub, BitVec.toNat_eq] <;> omega

/-- Signed overflow of a sum: by the signs, or by the sign bit of a mask. -/
theorem add_overflow (x y z : BitVec 32) :
    ((!x.slt 0 && !y.slt 0 && z.slt 0) || (x.slt 0 && y.slt 0 && !z.slt 0)) =
      ((~~~(x ^^^ y) &&& (x ^^^ z)) &&& 0x80000000 != 0) := by
  rw [and_sign_ne_zero, slt_zero, slt_zero, slt_zero, BitVec.msb_and, BitVec.msb_not,
    BitVec.msb_xor, BitVec.msb_xor]
  cases x.msb <;> cases y.msb <;> cases z.msb <;> rfl

theorem sub_overflow (x y z : BitVec 32) :
    ((!x.slt 0 && y.slt 0 && z.slt 0) || (x.slt 0 && !y.slt 0 && !z.slt 0)) =
      (((x ^^^ y) &&& (x ^^^ z)) &&& 0x80000000 != 0) := by
  rw [and_sign_ne_zero, slt_zero, slt_zero, slt_zero, BitVec.msb_and, BitVec.msb_xor,
    BitVec.msb_xor]
  cases x.msb <;> cases y.msb <;> cases z.msb <;> rfl

/-! ## Sign extension -/

theorem signExtend_eq_sub {w v : Nat} (hw : w < v) (x : BitVec w) :
    x.signExtend v = if x.msb then x.setWidth v - BitVec.twoPow v w else x.setWidth v := by
  apply BitVec.eq_of_toNat_eq
  rw [BitVec.toNat_signExtend]
  have hpow : 2 ^ w < 2 ^ v := Nat.pow_lt_pow_right (by omega) hw
  have hx := x.isLt
  cases x.msb with
  | false => simp
  | true =>
    simp only [if_true, BitVec.toNat_sub, BitVec.toNat_twoPow, BitVec.toNat_setWidth]
    rw [Nat.mod_eq_of_lt (by omega : 2 ^ w < 2 ^ v), Nat.mod_eq_of_lt (by omega : x.toNat < 2 ^ v),
      Nat.mod_eq_of_lt (by omega), Nat.add_comm]

theorem word_sign_ne_zero (x : BitVec 16) : (x.setWidth 32 &&& 0x8000 != 0) = x.msb := by
  have sign : (0x8000 : BitVec 32) = BitVec.twoPow 32 15 := by decide
  rw [sign, and_twoPow_ne_zero _ _ (by decide), BitVec.msb_eq_getLsbD_last, BitVec.getLsbD_setWidth]
  rfl

theorem signExtend_byte_fill (x : BitVec 32) : (x.setWidth 8).signExtend 32 =
      if x &&& 0xFF &&& 0x80 != 0 then (x &&& 0xFF) ||| 0xFFFFFF00 else x &&& 0xFF := by
  rw [and_low_bits (k := 8) (by decide) x 0xFF (by decide)]
  generalize x.setWidth 8 = b
  revert b
  decide

theorem signExtend_word_fill (x : BitVec 32) : (x.setWidth 16).signExtend 32 =
      if x &&& 0xFFFF &&& 0x8000 != 0 then (x &&& 0xFFFF) ||| 0xFFFF0000 else x &&& 0xFFFF := by
  have hdisjoint : (x &&& 0xFFFF) &&& 0xFFFF0000 = 0#32 := by
    rw [BitVec.and_assoc]
    exact BitVec.and_zero
  have hfill : (0xFFFF0000 : BitVec 32) = -BitVec.twoPow 32 16 := by decide
  rw [← BitVec.add_eq_or_of_and_eq_zero _ _ hdisjoint, hfill, ← BitVec.sub_eq_add_neg,
    and_low_bits (k := 16) (by decide) x 0xFFFF (by decide), word_sign_ne_zero,
    signExtend_eq_sub (by decide)]

theorem signExtend_word_sub (x : BitVec 32) : (x.setWidth 16).signExtend 32 =
      if x &&& 0xFFFF &&& 0x8000 != 0 then (x &&& 0xFFFF) - 0x10000 else x &&& 0xFFFF := by
  have hpow : (0x10000 : BitVec 32) = BitVec.twoPow 32 16 := by decide
  rw [hpow, and_low_bits (k := 16) (by decide) x 0xFFFF (by decide), word_sign_ne_zero,
    signExtend_eq_sub (by decide)]

theorem signExtend_long_sub (x : BitVec 32) : x.signExtend 64 =
      if x &&& 0x80000000 != 0 then x.setWidth 64 - 0x100000000 else x.setWidth 64 := by
  have hpow : (0x100000000 : BitVec 64) = BitVec.twoPow 64 32 := by decide
  rw [hpow, and_sign_ne_zero, signExtend_eq_sub (by decide)]

/-- A word read from memory, extended through 32 bits or directly. -/
theorem signExtend_read_word (x : BitVec 16) : (x.signExtend 32).signExtend 64 =
      if x.setWidth 32 &&& 0x8000 != 0 then (x.setWidth 32).setWidth 64 - 0x10000
      else (x.setWidth 32).setWidth 64 := by
  have htwice : (x.signExtend 32).signExtend 64 = x.signExtend 64 := by
    apply BitVec.eq_of_toInt_eq
    rw [BitVec.toInt_signExtend_of_le (by decide), BitVec.toInt_signExtend_of_le (by decide),
      BitVec.toInt_signExtend_of_le (by decide)]
  have hpow : (0x10000 : BitVec 64) = BitVec.twoPow 64 16 := by decide
  rw [htwice, hpow, word_sign_ne_zero, signExtend_eq_sub (by decide),
    BitVec.setWidth_setWidth (by decide)]

/-! ## Shifts and rotations -/

/-- An arithmetic shift is a logical one with the sign filled in. -/
theorem sshiftRight_eq_fill (x : BitVec 32) (k : Nat) (hk : k ≤ 32) :
    x.sshiftRight k = (x >>> k) ||| (if x.msb then BitVec.allOnes 32 <<< (32 - k) else 0) := by
  ext i hi
  rw [BitVec.getElem_sshiftRight, BitVec.getElem_or, BitVec.getElem_ushiftRight]
  by_cases h : k + i < 32
  · have hi' : i < 32 - k := by omega
    cases x.msb with
    | false => simp [h]
    | true => simp [h, hi', BitVec.getElem_shiftLeft]
  · have hi' : ¬ i < 32 - k := by omega
    have hout : x.getLsbD (k + i) = false := BitVec.getLsbD_of_ge x _ (by omega)
    cases x.msb with
    | false => simp [h, hout]
    | true => simp only [h, hout, hi', dif_neg, if_true, BitVec.getElem_shiftLeft,
        BitVec.getElem_allOnes, not_false_eq_true, decide_false, Bool.not_false, Bool.true_and,
        Bool.false_or]

theorem sshiftRight_one (x : BitVec 32) : x.sshiftRight 1 = (x >>> 1) ||| (x &&& 0x80000000) := by
  have sign : (0x80000000 : BitVec 32) = BitVec.twoPow 32 31 := by decide
  rw [sshiftRight_eq_fill x 1 (by decide), sign, BitVec.and_twoPow, BitVec.msb_eq_getLsbD_last]
  rfl

theorem rotateRight_low_bit (x : BitVec 32) : (x &&& 1) <<< 31 = x <<< 31 := by
  apply BitVec.eq_of_toNat_eq
  have := Nat.and_two_pow_sub_one_eq_mod x.toNat 1
  simp only [pow_one, Nat.add_one_sub_one] at this
  simp [Nat.shiftLeft_eq]
  omega

theorem second_byte (x : BitVec 32) : (x >>> 8) &&& (0xFF : BitVec 32) = (x &&& 0xFF00) >>> 8 := by
  have h : (0xFF : BitVec 32) = (0xFF00 : BitVec 32) >>> 8 := by decide
  rw [h, BitVec.ushiftRight_and_distrib]

/-! ## Narrowing -/

theorem setWidth_mul_wide (x y : BitVec 32) :
    (x.setWidth 64 * y.setWidth 64).setWidth 32 = x * y := by
  rw [BitVec.setWidth_mul _ _ (by decide)]
  simp

/-! ## Alignment -/

theorem align_eq_sub (x : BitVec 32) : x &&& 0xFFFFFFFC = x - (x &&& 3) := by
  have h : x = (x &&& 0xFFFFFFFC) + (x &&& 3) := by
    rw [BitVec.add_eq_or_of_and_eq_zero, ← BitVec.and_or_distrib_left]
    · have hall : (0xFFFFFFFC ||| 3 : BitVec 32) = BitVec.allOnes 32 := by decide
      rw [hall, BitVec.and_allOnes]
    · have hnone : (0xFFFFFFFC &&& 3 : BitVec 32) = 0#32 := by decide
      rw [BitVec.and_assoc, BitVec.and_comm x 3, ← BitVec.and_assoc _ 3, hnone]
      simp
  rw [eq_comm, BitVec.sub_eq_iff_eq_add]
  exact h

theorem add_and_three (x y : BitVec 32) (hy : y &&& 3 = 0) : (x + y) &&& 3 = x &&& 3 := by
  apply BitVec.eq_of_toNat_eq
  have hy' := congrArg BitVec.toNat hy
  have hmod (n : Nat) : n &&& 3 = n % 4 := Nat.and_two_pow_sub_one_eq_mod n 2
  simp only [BitVec.toNat_and, BitVec.toNat_add, BitVec.reduceToNat, hmod] at hy' ⊢
  omega

/-- Alignment commutes with a displacement by whole longs. -/
theorem align_add (x y : BitVec 32) (hy : y &&& 3 = 0) :
    (x + y) &&& 0xFFFFFFFC = (x &&& 0xFFFFFFFC) + y := by
  rw [align_eq_sub, align_eq_sub, add_and_three x y hy]
  ring

end KatanaRecomp.Lib.Word
