import KatanaRecomp.Lib.LongDivision
import KatanaRecomp.Runtime.Interpreter

/-! # Step division

DIV1 computes one bit of a quotient without restoring the remainder: Q and the high
register hold a partial remainder of 33 bits, which is the remainder of the prefix of the
dividend divided so far, or that minus the divisor. With signs the same run is seen in a
mirror: a negative dividend turns the remainder and the dividend around, and signs that
differ turn the quotient around, whose bits ROTCL moves into the low register behind the
dividend. -/
namespace KatanaRecomp.Runtime.Interpreter
open Sh4 (DecodedInstruction InstructionKind)
open Lib.LongDivision

/-! ## The step on words -/

/-- The new high register and the new Q of DIV1. -/
def divideWord (word divisor : BitVec 32) (q m t : Bool) : BitVec 32 × Bool :=
  let sign := word >>> 31 != 0
  let shifted := (word <<< 1) ||| (if t then 1 else 0)
  let difference := shifted - divisor
  let sum := shifted + divisor
  let borrow := shifted.ult difference
  let carryOut := sum.ult shifted
  if !q then
    if !m then (difference, sign != borrow) else (sum, (!sign) != carryOut)
  else
    if !m then (sum, sign != carryOut) else (difference, (!sign) != borrow)

theorem divideStep_eq (cpu : CpuState) (n m : Fin 16) : divideStep cpu n m =
      { cpu.setR n (divideWord (cpu.r n) (cpu.r m) cpu.q cpu.m cpu.t).1 with
        q := (divideWord (cpu.r n) (cpu.r m) cpu.q cpu.m cpu.t).2
        t := (divideWord (cpu.r n) (cpu.r m) cpu.q cpu.m cpu.t).2 == cpu.m } := rfl

theorem toNat_shiftIn (word : BitVec 32) (t : Bool) :
    ((word <<< 1) ||| (if t then 1 else 0)).toNat = (2 * word.toNat + t.toNat) % 2 ^ 32 := by
  have heven : (word <<< 1).toNat = 2 ^ 1 * (word.toNat % 2 ^ 31) := by
    rw [BitVec.toNat_shiftLeft, Nat.shiftLeft_eq]
    omega
  have hbit : (if t then (1 : BitVec 32) else 0).toNat = t.toNat := by cases t <;> rfl
  have hsmall : t.toNat < 2 ^ 1 := by cases t <;> decide
  rw [BitVec.toNat_or, heven, hbit, ← Nat.two_pow_add_eq_or_of_lt hsmall]
  omega

theorem signBit_eq (word : BitVec 32) : (word >>> 31 != 0) = decide (2 ^ 31 ≤ word.toNat) := by
  have hlt := word.isLt
  have hzero : word >>> 31 = 0 ↔ ¬ 2 ^ 31 ≤ word.toNat := by
    rw [← BitVec.toNat_inj, BitVec.toNat_ushiftRight, Nat.shiftRight_eq_div_pow]
    change word.toNat / 2 ^ 31 = 0 ↔ _
    omega
  by_cases hset : 2 ^ 31 ≤ word.toNat
  · simp only [hset, decide_true, bne_iff_ne, ne_eq]
    exact fun heq => hzero.mp heq hset
  · simp only [hset, decide_false]
    rw [hzero.mpr hset]
    rfl

/-- Q and the word are a signed number of 33 bits. -/
def Holds (partialRemainder : Int) (word : BitVec 32) (q : Bool) : Prop :=
  (word.toNat : Int) = partialRemainder + if q then 2 ^ 32 else 0

/-- The number that DIV1 makes of a number: doubled, with T taken in, and moved towards zero by
the divisor. -/
def nextPartial (magnitude : Nat) (partialRemainder : Int) (t : Bool) : Int :=
  2 * partialRemainder + t.toNat +
    if partialRemainder < 0 then (magnitude : Int) else -(magnitude : Int)

theorem Holds.neg_iff {partialRemainder : Int} {word : BitVec 32} {q : Bool}
    (h : Holds partialRemainder word q) : partialRemainder < 0 ↔ q = true := by
  have hlt := word.isLt
  unfold Holds at h
  cases q
  · simp only [Bool.false_eq_true, if_false, iff_false] at h ⊢
    omega
  · simp only [if_true, iff_true] at h ⊢
    omega

theorem Holds.divideWord {partialRemainder : Int} {q negative t : Bool} {magnitude : Nat}
    {word divisor : BitVec 32} (hword : Holds partialRemainder word q)
    (hdivisor : divisor.toNat = if negative then 2 ^ 32 - magnitude else magnitude)
    (hmagnitude : 0 < magnitude ∧ magnitude < 2 ^ 32)
    (hnext : -2 ^ 32 ≤ nextPartial magnitude partialRemainder t ∧
      nextPartial magnitude partialRemainder t < 2 ^ 32) :
    Holds (nextPartial magnitude partialRemainder t)
      (divideWord word divisor q negative t).1 (divideWord word divisor q negative t).2 := by
  have hlt := word.isLt
  have hneg := hword.neg_iff
  have hshifted := toNat_shiftIn word t
  have hbit : t.toNat < 2 := by cases t <;> decide
  unfold Interpreter.divideWord
  rw [signBit_eq]
  generalize (word <<< 1) ||| (if t then (1 : BitVec 32) else 0) = shifted at hshifted ⊢
  have hdifference : (shifted - divisor).toNat =
      (2 ^ 32 - divisor.toNat + shifted.toNat) % 2 ^ 32 := BitVec.toNat_sub ..
  have hsum : (shifted + divisor).toNat = (shifted.toNat + divisor.toNat) % 2 ^ 32 :=
    BitVec.toNat_add ..
  unfold nextPartial at hnext ⊢
  unfold Holds at hword ⊢
  simp only [BitVec.ult_eq_decide]
  generalize t.toNat = bit at *
  generalize shifted - divisor = difference at *
  generalize shifted + divisor = sum at *
  cases q <;> cases negative
  all_goals
    simp only [hneg, Bool.not_true, Bool.not_false, if_true, if_false, Bool.false_eq_true] at *
    by_cases hsign : 2 ^ 31 ≤ word.toNat
  all_goals
    by_cases hborrow : shifted.toNat < difference.toNat
    all_goals
      by_cases hcarry : sum.toNat < shifted.toNat
      all_goals
        simp only [hsign, hborrow, hcarry, decide_true, decide_false]
        simp
        omega

/-! ## Signs -/

/-- The number turned around, where the dividend is negative. -/
def turned (flip : Bool) (number : Int) : Int := if flip then -1 - number else number

/-- The high register and Q hold the remainder, or the remainder minus the divisor. -/
def PartialRemainder (flip : Bool) (magnitude remainder : Nat) (word : BitVec 32) (q : Bool) :
    Prop := ∃ number : Int, (number = remainder ∨ number = remainder - magnitude) ∧
    Holds (turned flip number) word q

/-- Whether the divisor has to be added back or not, the next number is the same. -/
theorem nextPartial_turned {flip t : Bool} {magnitude remainder bit : Nat} {number : Int}
    (hremainder : remainder < magnitude) (hbit : bit < 2)
    (hnumber : number = remainder ∨ number = remainder - magnitude)
    (ht : t.toNat = mirror flip 2 bit) : nextPartial magnitude (turned flip number) t =
      turned flip (2 * remainder + bit - magnitude) := by
  unfold nextPartial turned
  rw [ht]
  cases flip
  · simp only [mirror_false, Bool.false_eq_true, if_false]
    split_ifs <;> omega
  · simp only [mirror_true, if_true]
    split_ifs <;> omega

theorem PartialRemainder.divideWord {flip negative q t : Bool} {magnitude remainder bit : Nat}
    {word divisor : BitVec 32} (hword : PartialRemainder flip magnitude remainder word q)
    (hremainder : remainder < magnitude) (hmagnitude : magnitude < 2 ^ 32) (hbit : bit < 2)
    (hdivisor : divisor.toNat = if negative then 2 ^ 32 - magnitude else magnitude)
    (ht : t.toNat = mirror flip 2 bit) : PartialRemainder flip magnitude
        (2 * remainder + bit - magnitude * quotientBit magnitude remainder bit)
        (divideWord word divisor q negative t).1 (divideWord word divisor q negative t).2 ∧
      (divideWord word divisor q negative t).2 =
        (flip ^^ decide (quotientBit magnitude remainder bit = 0)) := by
  obtain ⟨number, hnumber, hholds⟩ := hword
  have hturned := nextPartial_turned hremainder hbit hnumber ht
  have hrange : -2 ^ 32 ≤ turned flip (2 * remainder + bit - magnitude) ∧
      turned flip (2 * remainder + bit - magnitude) < 2 ^ 32 := by
    unfold turned
    split_ifs <;> omega
  have hnext := hholds.divideWord hdivisor (by omega)
    (hturned.symm ▸ hrange)
  rw [hturned] at hnext
  have hneg := hnext.neg_iff
  generalize Interpreter.divideWord word divisor q negative t = result at hnext hneg ⊢
  refine ⟨⟨_, ?_, hnext⟩, ?_⟩
  · unfold quotientBit
    split_ifs <;> omega
  · unfold turned at hneg
    unfold quotientBit
    rw [Bool.eq_iff_iff, ← hneg]
    cases flip
    · simp only [Bool.false_eq_true, if_false]
      split_ifs <;> simp <;> omega
    · simp only [if_true]
      split_ifs <;> simp <;> omega

/-! ## The loop -/

/-- An instruction that names registers only. -/
def registerInstruction (kind : InstructionKind) (source destination : Fin 16) :
    DecodedInstruction :=
  { kind := kind
    sourceRegister := source
    destinationRegister := destination }

/-- The instructions one after the other, two bytes each. -/
def executeRegisters : BitVec 32 → List DecodedInstruction → CpuState → CpuState
  | _, [], cpu => cpu
  | pc, i :: rest, cpu => executeRegisters (pc + 2) rest (executeRegister i pc cpu)

theorem executeRegisters_cons (pc : BitVec 32) (i : DecodedInstruction)
    (rest : List DecodedInstruction) (cpu : CpuState) : executeRegisters pc (i :: rest) cpu =
      executeRegisters (pc + 2) rest (executeRegister i pc cpu) := rfl

theorem executeRegisters_append (pc : BitVec 32) (front back : List DecodedInstruction)
    (cpu : CpuState) : ∃ pc', executeRegisters pc (front ++ back) cpu =
      executeRegisters pc' back (executeRegisters pc front cpu) := by
  induction front generalizing pc cpu with
  | nil => exact ⟨pc, rfl⟩
  | cons i rest ih => exact ih (pc + 2) (executeRegister i pc cpu)

/-- ROTCL of the low register and DIV1 of the divisor into the high one, `count` times. -/
def divideSteps (divisor high low : Fin 16) : Nat → List DecodedInstruction
  | 0 => []
  | count + 1 =>
    registerInstruction .rotateLeftThroughT 0 low ::
      registerInstruction .divideStep divisor high :: divideSteps divisor high low count

section
variable (divisor high low : Fin 16)

/-- The registers when `count` bits of the dividend have been divided. Behind the bits of the
dividend that are left, the low register holds the bits of the quotient but for the last one,
which is in T. -/
structure Divided (flip negative : Bool) (magnitude upper lower count : Nat) (cpu : CpuState) :
    Prop where
  divisorSign : cpu.m = negative
  divisorWord : (cpu.r divisor).toNat = if negative then 2 ^ 32 - magnitude else magnitude
  remainder : PartialRemainder flip magnitude (leading upper lower 32 count % magnitude)
    (cpu.r high) cpu.q
  lastBit : cpu.t.toNat = mirror (flip ^^ negative) 2 (leading upper lower 32 count / magnitude % 2)
  lowWord : (cpu.r low).toNat =
    mirror flip (2 ^ (32 - count)) (lower % 2 ^ (32 - count)) * 2 ^ count +
      mirror (flip ^^ negative) (2 ^ count) (leading upper lower 32 count / magnitude / 2)

variable {divisor high low}

theorem rotcl_eq (pc : BitVec 32) (cpu : CpuState) :
    executeRegister (registerInstruction .rotateLeftThroughT 0 low) pc cpu =
      { cpu.setR low ((cpu.r low <<< 1) ||| (if cpu.t then 1 else 0)) with
        t := cpu.r low >>> 31 != 0 } := rfl

theorem div1_eq (pc : BitVec 32) (cpu : CpuState) :
    executeRegister (registerInstruction .divideStep divisor high) pc cpu =
      divideStep cpu high divisor := rfl

/-- The quotient of a prefix has no more bits than were taken in. -/
theorem quotient_lt {magnitude upper lower count : Nat} (hupper : upper < magnitude)
    (hlower : lower < 2 ^ 32) (hcount : count ≤ 32) :
    leading upper lower 32 count / magnitude < 2 ^ count := by
  have hpart : lower / 2 ^ (32 - count) < 2 ^ count := by
    rw [Nat.div_lt_iff_lt_mul (Nat.two_pow_pos _), ← pow_add]
    rwa [show count + (32 - count) = 32 by omega]
  rw [Nat.div_lt_iff_lt_mul (by omega)]
  unfold leading
  have hle : (upper + 1) * 2 ^ count ≤ magnitude * 2 ^ count := Nat.mul_le_mul_right _ hupper
  rw [Nat.mul_comm (2 ^ count)]
  rw [Nat.add_mul] at hle
  omega

/-- What ROTCL takes out of the low register and what it leaves there. -/
theorem lowWord_rotcl {flip different : Bool} {quotient lower count : Nat} {word : BitVec 32}
    {t : Bool} (hcount : count < 32) (hquotient : quotient < 2 ^ count)
    (ht : t.toNat = mirror different 2 (quotient % 2))
    (hword : word.toNat = mirror flip (2 ^ (32 - count)) (lower % 2 ^ (32 - count)) * 2 ^ count +
      mirror different (2 ^ count) (quotient / 2)) :
    (word >>> 31 != 0).toNat = mirror flip 2 (lower / 2 ^ (32 - (count + 1)) % 2) ∧
      ((word <<< 1) ||| (if t then 1 else 0)).toNat =
        mirror flip (2 ^ (32 - (count + 1))) (lower % 2 ^ (32 - (count + 1))) * 2 ^ (count + 1) +
          mirror different (2 ^ (count + 1)) quotient := by
  have hrest : 2 ^ (32 - count) = 2 * 2 ^ (32 - (count + 1)) := by
    rw [← pow_succ']
    congr 1
    omega
  have hplaces : 2 ^ count * (2 * 2 ^ (32 - (count + 1))) = 2 ^ 32 := by
    rw [← hrest, ← pow_add]
    congr 1
    omega
  have hhalf : 2 ^ count * 2 ^ (32 - (count + 1)) = 2 ^ 31 := by
    rw [← pow_add]
    congr 1
    omega
  have hpos : 0 < 2 ^ (32 - (count + 1)) := Nat.two_pow_pos _
  rw [hrest] at hword
  have hbit : t.toNat < 2 := by cases t <;> decide
  have hupper : lower % (2 * 2 ^ (32 - (count + 1))) < 2 * 2 ^ (32 - (count + 1)) :=
    Nat.mod_lt _ (by omega)
  obtain ⟨hfirst, hothers⟩ := mirror_split flip hupper
  have hlast : mirror different (2 ^ count) (quotient / 2) < 2 ^ count :=
    mirror_lt different (by omega)
  obtain ⟨hout, hin⟩ := shift_split (mirror flip (2 * 2 ^ (32 - (count + 1)))
    (lower % (2 * 2 ^ (32 - (count + 1))))) (2 ^ (32 - (count + 1))) hlast hbit
  rw [← hword] at hout hin
  rw [hhalf, hfirst, Nat.mul_comm 2, Nat.mod_mul_right_div_self] at hout
  rw [hplaces, hothers, Nat.mod_mul_left_mod] at hin
  have hjoin := mirror_join different (by omega : quotient / 2 < 2 ^ count)
    (by omega : quotient % 2 < 2)
  rw [Nat.div_add_mod'] at hjoin
  constructor
  · rw [signBit_eq, ← hout]
    have hlt := word.isLt
    by_cases hset : 2 ^ 31 ≤ word.toNat
    · simp only [hset, decide_true, Bool.toNat_true]
      omega
    · simp only [hset, decide_false, Bool.toNat_false]
      omega
  · rw [toNat_shiftIn, hin, ht, pow_succ 2 count, hjoin]
    ring

/-- The registers after ROTCL and DIV1. -/
theorem round_registers (hhigh : high ≠ low) (hdivisor : divisor ≠ low) (hapart : divisor ≠ high)
    (pc : BitVec 32) (cpu : CpuState) :
    let next := executeRegisters pc [registerInstruction .rotateLeftThroughT 0 low,
      registerInstruction .divideStep divisor high] cpu
    let result := divideWord (cpu.r high) (cpu.r divisor) cpu.q cpu.m (cpu.r low >>> 31 != 0)
    next.m = cpu.m ∧ next.q = result.2 ∧ next.t = (result.2 == cpu.m) ∧
      next.r high = result.1 ∧ next.r divisor = cpu.r divisor ∧
        next.r low = ((cpu.r low <<< 1) ||| (if cpu.t then 1 else 0)) := by
  have hkept : ∀ k : Fin 16, k ≠ low → ∀ value, (cpu.setR low value).r k = cpu.r k := by
    intro k hk value
    rw [CpuState.setR_r, if_neg hk]
  have hrotated : executeRegisters pc [registerInstruction .rotateLeftThroughT 0 low,
      registerInstruction .divideStep divisor high] cpu =
        divideStep { cpu.setR low ((cpu.r low <<< 1) ||| (if cpu.t then 1 else 0)) with
          t := cpu.r low >>> 31 != 0 } high divisor := rfl
  have hsame : (divideWord
      ((cpu.setR low ((cpu.r low <<< 1) ||| (if cpu.t then 1 else 0))).r high)
      ((cpu.setR low ((cpu.r low <<< 1) ||| (if cpu.t then 1 else 0))).r divisor)
      cpu.q cpu.m (cpu.r low >>> 31 != 0)) =
        divideWord (cpu.r high) (cpu.r divisor) cpu.q cpu.m (cpu.r low >>> 31 != 0) := by
    rw [hkept high hhigh, hkept divisor hdivisor]
  intro next result
  have hnext : next = _ := hrotated.trans (divideStep_eq _ high divisor)
  rw [hnext]
  refine ⟨rfl, congrArg Prod.snd hsame, congrArg (· == cpu.m) (congrArg Prod.snd hsame), ?_, ?_, ?_⟩
  · change Function.update _ high _ high = _
    rw [Function.update_self]
    exact congrArg Prod.fst hsame
  · change Function.update _ high _ divisor = _
    rw [Function.update_of_ne hapart]
    exact hkept divisor hdivisor _
  · change Function.update (Function.update cpu.r low _) high _ low = _
    rw [Function.update_of_ne hhigh.symm, Function.update_self]

/-- One bit of the dividend. -/
theorem Divided.step {flip negative : Bool} {magnitude upper lower count : Nat} {cpu : CpuState}
    (h : Divided divisor high low flip negative magnitude upper lower count cpu)
    (hhigh : high ≠ low) (hdivisor : divisor ≠ low) (hapart : divisor ≠ high)
    (hupper : upper < magnitude) (hlower : lower < 2 ^ 32) (hmagnitude : magnitude < 2 ^ 32)
    (hcount : count < 32) (pc : BitVec 32) :
    Divided divisor high low flip negative magnitude upper lower (count + 1)
      (executeRegisters pc [registerInstruction .rotateLeftThroughT 0 low,
        registerInstruction .divideStep divisor high] cpu) := by
  have hquotient := quotient_lt hupper hlower hcount.le
  obtain ⟨hbitOut, hlow⟩ := lowWord_rotcl hcount hquotient h.lastBit h.lowWord
  have hremainder := Nat.mod_lt (leading upper lower 32 count) (by omega : 0 < magnitude)
  have hbit : lower / 2 ^ (32 - (count + 1)) % 2 < 2 := Nat.mod_lt _ (by omega)
  obtain ⟨hnext, hq⟩ := h.remainder.divideWord hremainder hmagnitude hbit h.divisorWord hbitOut
  obtain ⟨hdiv, hmod⟩ := div_mod_step (leading upper lower 32 count)
    (by omega : 0 < magnitude) hbit
  rw [← leading_succ hcount] at hdiv hmod
  have hsmall : quotientBit magnitude (leading upper lower 32 count % magnitude)
      (lower / 2 ^ (32 - (count + 1)) % 2) < 2 := by
    unfold quotientBit
    split <;> omega
  obtain ⟨hm, hqNext, htNext, hhighNext, hdivisorNext, hlowNext⟩ :=
    round_registers hhigh hdivisor hapart pc cpu
  rw [h.divisorSign] at hm hqNext htNext hhighNext
  generalize executeRegisters pc _ cpu = next at hm hqNext htNext hhighNext hdivisorNext hlowNext ⊢
  refine ⟨hm, ?_, ?_, ?_, ?_⟩
  · rw [hdivisorNext]
    exact h.divisorWord
  · rw [hhighNext, hqNext, hmod]
    exact hnext
  · have hparity : (2 * (leading upper lower 32 count / magnitude) + quotientBit magnitude
        (leading upper lower 32 count % magnitude) (lower / 2 ^ (32 - (count + 1)) % 2)) % 2 =
          quotientBit magnitude (leading upper lower 32 count % magnitude)
            (lower / 2 ^ (32 - (count + 1)) % 2) := by omega
    rw [htNext, hq, hdiv, hparity]
    generalize quotientBit magnitude _ _ = bit at hsmall ⊢
    have hcases : bit = 0 ∨ bit = 1 := by omega
    rcases hcases with rfl | rfl
    · cases flip <;> cases negative <;> rfl
    · cases flip <;> cases negative <;> rfl
  · have hhalf : leading upper lower 32 (count + 1) / magnitude / 2 =
        leading upper lower 32 count / magnitude := by omega
    rw [hlowNext, hlow, hhalf]

theorem Divided.steps {flip negative : Bool} {magnitude upper lower : Nat}
    (hhigh : high ≠ low) (hdivisor : divisor ≠ low) (hapart : divisor ≠ high)
    (hupper : upper < magnitude) (hlower : lower < 2 ^ 32) (hmagnitude : magnitude < 2 ^ 32) :
    ∀ {rest count : Nat} {cpu : CpuState},
      Divided divisor high low flip negative magnitude upper lower count cpu →
      count + rest ≤ 32 → ∀ pc,
        Divided divisor high low flip negative magnitude upper lower (count + rest)
          (executeRegisters pc (divideSteps divisor high low rest) cpu)
  | 0, _, _, h, _, _ => h
  | rest + 1, count, cpu, h, hbound, pc => by
    have hstep := h.step hhigh hdivisor hapart hupper hlower hmagnitude (by omega) pc
    have hrest := Divided.steps hhigh hdivisor hapart hupper hlower hmagnitude
      hstep (by omega : count + 1 + rest ≤ 32) (pc + 2 + 2)
    rw [divideSteps, executeRegisters_cons, executeRegisters_cons]
    rwa [show count + 1 + rest = count + (rest + 1) by omega] at hrest

/-- The last ROTCL shifts the quotient into its place and the first of its digits, its sign, into
T. -/
theorem lowWord_last {different : Bool} {quotient : Nat} {word : BitVec 32} {t : Bool}
    (hquotient : quotient < 2 ^ 32) (ht : t.toNat = mirror different 2 (quotient % 2))
    (hword : word.toNat = mirror different (2 ^ 32) (quotient / 2)) :
    ((word <<< 1) ||| (if t then 1 else 0)).toNat = mirror different (2 ^ 32) quotient ∧
      (word >>> 31 != 0) = different := by
  rw [toNat_shiftIn, signBit_eq]
  cases different with
  | false =>
    rw [mirror_false] at ht hword ⊢
    refine ⟨by omega, decide_eq_false ?_⟩
    omega
  | true =>
    rw [mirror_true] at ht hword ⊢
    refine ⟨by omega, decide_eq_true ?_⟩
    omega

theorem Divided.finish {flip negative : Bool} {magnitude upper lower : Nat} {cpu : CpuState}
    (h : Divided divisor high low flip negative magnitude upper lower 32 cpu)
    (hupper : upper < magnitude) (hlower : lower < 2 ^ 32) (pc : BitVec 32) :
    ((executeRegister (registerInstruction .rotateLeftThroughT 0 low) pc cpu).r low).toNat =
        mirror (flip ^^ negative) (2 ^ 32) ((upper * 2 ^ 32 + lower) / magnitude) ∧
      (executeRegister (registerInstruction .rotateLeftThroughT 0 low) pc cpu).t =
        (flip ^^ negative) := by
  have hquotient := quotient_lt hupper hlower (le_refl 32)
  have hlast := h.lastBit
  have hword := h.lowWord
  have hnone : mirror flip (2 ^ (32 - 32)) (lower % 2 ^ (32 - 32)) = 0 := by
    rw [Nat.sub_self, pow_zero, Nat.mod_one]
    cases flip <;> rfl
  rw [hnone, Nat.zero_mul, Nat.zero_add] at hword
  obtain ⟨hlow, ht⟩ := lowWord_last hquotient hlast hword
  rw [← leading_all, rotcl_eq]
  refine ⟨?_, ht⟩
  rw [← hlow, CpuState.setR_r, if_pos rfl]

/-- Before the first bit. -/
theorem Divided.start {flip negative : Bool} {magnitude upper lower : Nat} {cpu : CpuState}
    (hm : cpu.m = negative)
    (hdivisor : (cpu.r divisor).toNat = if negative then 2 ^ 32 - magnitude else magnitude)
    (hhigh : Holds (turned flip upper) (cpu.r high) cpu.q) (ht : cpu.t = (flip ^^ negative))
    (hlow : (cpu.r low).toNat = mirror flip (2 ^ 32) lower) (hupper : upper < magnitude)
    (hlower : lower < 2 ^ 32) :
    Divided divisor high low flip negative magnitude upper lower 0 cpu := by
  have hzero : upper / magnitude = 0 := Nat.div_eq_of_lt hupper
  refine ⟨hm, hdivisor, ?_, ?_, ?_⟩
  · rw [leading_zero hlower, Nat.mod_eq_of_lt hupper]
    exact ⟨upper, Or.inl rfl, hhigh⟩
  · rw [leading_zero hlower, hzero, ht]
    cases flip <;> cases negative <;> rfl
  · have hnone : mirror (flip ^^ negative) (2 ^ 0) 0 = 0 := by
      cases flip <;> cases negative <;> rfl
    rw [leading_zero hlower, hzero, Nat.zero_div, hnone, Nat.sub_zero, Nat.mod_eq_of_lt hlower,
      pow_zero, Nat.mul_one, Nat.add_zero, hlow]

/-- The whole loop and the ROTCL behind it. -/
theorem Divided.loop {flip negative : Bool} {magnitude upper lower : Nat} {cpu : CpuState}
    (h : Divided divisor high low flip negative magnitude upper lower 0 cpu)
    (hhigh : high ≠ low) (hdivisor : divisor ≠ low) (hapart : divisor ≠ high)
    (hupper : upper < magnitude) (hlower : lower < 2 ^ 32) (hmagnitude : magnitude < 2 ^ 32)
    (pc : BitVec 32) : let finished := executeRegisters pc (divideSteps divisor high low 32 ++
      [registerInstruction .rotateLeftThroughT 0 low]) cpu
    (finished.r low).toNat =
        mirror (flip ^^ negative) (2 ^ 32) ((upper * 2 ^ 32 + lower) / magnitude) ∧
      finished.t = (flip ^^ negative) := by
  have hsteps := h.steps hhigh hdivisor hapart hupper hlower hmagnitude (by omega : 0 + 32 ≤ 32) pc
  obtain ⟨pc', happend⟩ := executeRegisters_append pc (divideSteps divisor high low 32)
    [registerInstruction .rotateLeftThroughT 0 low] cpu
  rw [happend]
  exact hsteps.finish hupper hlower pc'

end

/-! ## Unsigned division -/

/-- The double word in the registers `high` and `low` by the divisor. -/
def unsignedDivision (divisor high low : Fin 16) : List DecodedInstruction :=
  registerInstruction .divideInitializeUnsigned 0 0 ::
    (divideSteps divisor high low 32 ++ [registerInstruction .rotateLeftThroughT 0 low])

theorem unsignedDivision_quotient {divisor high low : Fin 16} (hhigh : high ≠ low)
    (hdivisor : divisor ≠ low) (hapart : divisor ≠ high) (pc : BitVec 32) {cpu : CpuState}
    (h : (cpu.r high).toNat < (cpu.r divisor).toNat) :
    ((executeRegisters pc (unsignedDivision divisor high low) cpu).r low).toNat =
      ((cpu.r high).toNat * 2 ^ 32 + (cpu.r low).toNat) / (cpu.r divisor).toNat := by
  have hstart : Divided divisor high low false false (cpu.r divisor).toNat (cpu.r high).toNat
      (cpu.r low).toNat 0
        (executeRegister (registerInstruction .divideInitializeUnsigned 0 0) pc cpu) :=
    Divided.start rfl rfl (Int.add_zero _).symm rfl rfl h (cpu.r low).isLt
  have hloop := hstart.loop hhigh hdivisor hapart h (cpu.r low).isLt (cpu.r divisor).isLt (pc + 2)
  rw [unsignedDivision, executeRegisters_cons]
  exact hloop.1

/-! ## Signed division -/

/-- The sequence for the division of two words: the dividend gets its sign in `high` and, where it
is negative, becomes its one's complement; behind the loop the one's complement of a negative
quotient becomes its two's complement. -/
def signedDivision (divisor dividend high zero : Fin 16) : List DecodedInstruction :=
  registerInstruction .movRegister dividend zero ::
    registerInstruction .rotateLeftThroughT 0 zero ::
    registerInstruction .subWithCarry high high ::
    registerInstruction .xorRegister zero zero ::
    registerInstruction .subWithCarry zero dividend ::
    registerInstruction .divideInitializeSigned divisor high ::
    ((divideSteps divisor high dividend 32 ++ [registerInstruction .rotateLeftThroughT 0 dividend]) ++
      [registerInstruction .addWithCarry zero dividend])

/-- The sign of a word. -/
def isNegative (word : BitVec 32) : Bool := decide (2 ^ 31 ≤ word.toNat)

/-- The absolute value of a word. -/
def magnitude (word : BitVec 32) : Nat :=
  if isNegative word then 2 ^ 32 - word.toNat else word.toNat

theorem toInt_eq (word : BitVec 32) :
    word.toInt = if isNegative word then -(magnitude word : Int) else magnitude word := by
  have hlt := word.isLt
  unfold magnitude isNegative
  rw [BitVec.toInt_eq_toNat_cond]
  by_cases hset : 2 ^ 31 ≤ word.toNat
  · simp only [hset, decide_true, if_true]
    rw [if_neg (by omega)]
    omega
  · simp only [hset, decide_false, if_false, Bool.false_eq_true]
    rw [if_pos (by omega)]

theorem magnitude_le (word : BitVec 32) : magnitude word ≤ 2 ^ 31 := by
  have hlt := word.isLt
  unfold magnitude isNegative
  by_cases hset : 2 ^ 31 ≤ word.toNat
  · simp only [hset, decide_true, if_true]
    omega
  · simp only [hset, decide_false, if_false, Bool.false_eq_true]
    omega

section
variable {divisor dividend high zero : Fin 16}

theorem movRegister_eq (source destination : Fin 16) (pc : BitVec 32) (cpu : CpuState) :
    executeRegister (registerInstruction .movRegister source destination) pc cpu =
      cpu.setR destination (cpu.r source) := rfl

theorem divideInitializeSigned_eq (source destination : Fin 16) (pc : BitVec 32) (cpu : CpuState) :
    executeRegister (registerInstruction .divideInitializeSigned source destination) pc cpu =
      { cpu with
        q := cpu.r destination >>> 31 != 0
        m := cpu.r source >>> 31 != 0
        t := (cpu.r destination >>> 31 != 0) != (cpu.r source >>> 31 != 0) } := rfl

/-- What one instruction leaves alone. -/
def KeepsBut (n : Fin 16) (cpu next : CpuState) : Prop := ∀ k ≠ n, next.r k = cpu.r k

theorem keepsBut_setR (n : Fin 16) (cpu : CpuState) (value : BitVec 32) :
    KeepsBut n cpu (cpu.setR n value) := by
  intro k hk
  rw [CpuState.setR_r, if_neg hk]

theorem rotcl_spec (n : Fin 16) (pc : BitVec 32) (cpu : CpuState) :
    (executeRegister (registerInstruction .rotateLeftThroughT 0 n) pc cpu).t =
        isNegative (cpu.r n) ∧
      KeepsBut n cpu (executeRegister (registerInstruction .rotateLeftThroughT 0 n) pc cpu) :=
  ⟨signBit_eq (cpu.r n), keepsBut_setR n cpu _⟩

/-- A register minus itself and T: the sign that T is, in every bit. -/
theorem subWithCarry_self (n : Fin 16) (pc : BitVec 32) (cpu : CpuState) :
    let next := executeRegister (registerInstruction .subWithCarry n n) pc cpu
    next.t = cpu.t ∧ next.r n = (if cpu.t then -1 else 0) ∧ KeepsBut n cpu next := by
  have hself : cpu.r n - cpu.r n = 0 := BitVec.sub_self _
  refine ⟨?_, ?_, keepsBut_setR n cpu _⟩
  · change ((cpu.r n).ult (cpu.r n) || (cpu.r n - cpu.r n).ult (carry cpu)) = cpu.t
    rw [hself, carry]
    cases cpu.t <;> simp [BitVec.ult]
  · change Function.update cpu.r n (cpu.r n - cpu.r n - carry cpu) n = _
    rw [Function.update_self, hself, carry]
    cases cpu.t <;> rfl

theorem xorRegister_self (n : Fin 16) (pc : BitVec 32) (cpu : CpuState) :
    let next := executeRegister (registerInstruction .xorRegister n n) pc cpu
    next.t = cpu.t ∧ next.r n = 0 ∧ KeepsBut n cpu next := by
  refine ⟨rfl, ?_, keepsBut_setR n cpu _⟩
  change Function.update cpu.r n (cpu.r n ^^^ cpu.r n) n = 0
  rw [Function.update_self]
  exact BitVec.xor_self

theorem subWithCarry_zero {source n : Fin 16} (pc : BitVec 32) {cpu : CpuState}
    (hsource : cpu.r source = 0) :
    let next := executeRegister (registerInstruction .subWithCarry source n) pc cpu
    next.r n = cpu.r n - carry cpu ∧ KeepsBut n cpu next := by
  refine ⟨?_, keepsBut_setR n cpu _⟩
  change Function.update cpu.r n (cpu.r n - cpu.r source - carry cpu) n = _
  rw [Function.update_self, hsource, sub_zero]

theorem addWithCarry_zero {source n : Fin 16} (pc : BitVec 32) {cpu : CpuState}
    (hsource : cpu.r source = 0) :
    (executeRegister (registerInstruction .addWithCarry source n) pc cpu).r n =
      cpu.r n + carry cpu := by
  change Function.update cpu.r n (cpu.r n + cpu.r source + carry cpu) n = _
  rw [Function.update_self, hsource, add_zero]

/-- The registers when DIV0S has set the flags. -/
structure Prepared (divisor dividend high zero : Fin 16) (cpu next : CpuState) : Prop where
  m : next.m = isNegative (cpu.r divisor)
  q : next.q = isNegative (cpu.r dividend)
  t : next.t = (isNegative (cpu.r dividend) ^^ isNegative (cpu.r divisor))
  divisorWord : next.r divisor = cpu.r divisor
  dividendWord : next.r dividend = cpu.r dividend - if isNegative (cpu.r dividend) then 1 else 0
  highWord : next.r high = if isNegative (cpu.r dividend) then -1 else 0
  zeroWord : next.r zero = 0

theorem executeRegisters_prepared (hdistinct : [divisor, dividend, high, zero].Nodup)
    (pc : BitVec 32) (cpu : CpuState) : Prepared divisor dividend high zero cpu
      (executeRegisters pc
        [registerInstruction .movRegister dividend zero,
          registerInstruction .rotateLeftThroughT 0 zero,
          registerInstruction .subWithCarry high high, registerInstruction .xorRegister zero zero,
          registerInstruction .subWithCarry zero dividend,
          registerInstruction .divideInitializeSigned divisor high] cpu) := by
  simp only [List.nodup_cons, List.mem_cons, not_or, List.not_mem_nil, not_false_eq_true,
    and_true] at hdistinct
  obtain ⟨⟨hdividend, hhigh, hzero⟩, ⟨hhigh', hzero'⟩, hzero'', -⟩ := hdistinct
  simp only [executeRegisters, movRegister_eq]
  -- MOV and ROTCL put the sign of the dividend into T
  have hmoved := keepsBut_setR zero cpu (cpu.r dividend)
  have hcopy : (cpu.setR zero (cpu.r dividend)).r zero = cpu.r dividend := by
    rw [CpuState.setR_r, if_pos rfl]
  generalize cpu.setR zero (cpu.r dividend) = moved at *
  obtain ⟨hsign, hrotated⟩ := rotcl_spec zero (pc + 2) moved
  rw [hcopy] at hsign
  generalize executeRegister _ (pc + 2) moved = rotated at *
  -- SUBC spreads it over the high register, XOR clears the copy
  obtain ⟨hsign', hspread, hextended⟩ := subWithCarry_self high (pc + 2 + 2) rotated
  generalize executeRegister _ (pc + 2 + 2) rotated = extended at *
  obtain ⟨hsign'', hclear, hcleared⟩ := xorRegister_self zero (pc + 2 + 2 + 2) extended
  generalize executeRegister _ (pc + 2 + 2 + 2) extended = cleared at *
  obtain ⟨hcomplement, hcomplemented⟩ :=
    subWithCarry_zero (n := dividend) (pc + 2 + 2 + 2 + 2) hclear
  generalize executeRegister _ (pc + 2 + 2 + 2 + 2) cleared = complemented at *
  have hhighWord : complemented.r high = if isNegative (cpu.r dividend) then -1 else 0 := by
    rw [hcomplemented high (Ne.symm hhigh'), hcleared high hzero'', hspread, hsign]
  have hdivisorWord : complemented.r divisor = cpu.r divisor := by
    rw [hcomplemented divisor hdividend, hcleared divisor hzero, hextended divisor hhigh,
      hrotated divisor hzero, hmoved divisor hzero]
  have hhighSign : (complemented.r high >>> 31 != 0) = isNegative (cpu.r dividend) := by
    rw [hhighWord]
    cases isNegative (cpu.r dividend) <;> rfl
  have hdivisorSign : (complemented.r divisor >>> 31 != 0) = isNegative (cpu.r divisor) := by
    rw [hdivisorWord]
    exact signBit_eq _
  rw [divideInitializeSigned_eq, hhighSign, hdivisorSign]
  refine ⟨rfl, rfl, rfl, hdivisorWord, ?_, hhighWord, ?_⟩
  · change complemented.r dividend = _
    rw [hcomplement, carry, hsign'', hsign', hsign, hcleared dividend hzero',
      hextended dividend hhigh', hrotated dividend hzero', hmoved dividend hzero']
  · change complemented.r zero = 0
    rw [hcomplemented zero (Ne.symm hzero'), hclear]

/-- The digits of the quotient as a signed word. -/
theorem toInt_quotient {different : Bool} {quotient : Nat} {word : BitVec 32}
    (hword : word.toNat = (mirror different (2 ^ 32) quotient + different.toNat) % 2 ^ 32)
    (hquotient : quotient ≤ 2 ^ 31) (hfits : different = false → quotient < 2 ^ 31) :
    word.toInt = if different then -(quotient : Int) else quotient := by
  rw [BitVec.toInt_eq_toNat_cond]
  cases different with
  | false =>
    have hsmall := hfits rfl
    rw [mirror_false, Bool.toNat_false] at hword
    simp only [Bool.false_eq_true, if_false]
    split_ifs <;> omega
  | true =>
    rw [mirror_true, Bool.toNat_true] at hword
    simp only [if_true]
    split_ifs <;> omega

/-- The quotient towards zero, by signs and absolute values. -/
theorem tdiv_eq (dividend divisor : BitVec 32) : dividend.toInt.tdiv divisor.toInt =
      if (isNegative dividend ^^ isNegative divisor) then
        -((magnitude dividend / magnitude divisor : Nat) : Int)
      else (magnitude dividend / magnitude divisor : Nat) := by
  rw [toInt_eq, toInt_eq]
  cases isNegative dividend <;> cases isNegative divisor <;>
    simp [Int.neg_tdiv, Int.tdiv_neg]

variable (divisor) in
theorem divideSteps_keeps {k : Fin 16} (hhigh : k ≠ high) (hlow : k ≠ dividend) (count : Nat)
    (pc : BitVec 32) (cpu : CpuState) :
    (executeRegisters pc (divideSteps divisor high dividend count ++
      [registerInstruction .rotateLeftThroughT 0 dividend]) cpu).r k = cpu.r k := by
  induction count generalizing pc cpu with
  | zero => exact (rotcl_spec dividend pc cpu).2 k hlow
  | succ count ih =>
    rw [divideSteps, List.cons_append, List.cons_append, executeRegisters_cons,
      executeRegisters_cons, ih, div1_eq, divideStep_eq]
    change ((executeRegister (registerInstruction .rotateLeftThroughT 0 dividend) pc cpu).setR
      high _).r k = _
    rw [CpuState.setR_r, if_neg hhigh]
    exact (rotcl_spec dividend pc cpu).2 k hlow

theorem magnitude_pos {word : BitVec 32} (h : word ≠ 0) : 0 < magnitude word := by
  have hlt := word.isLt
  have hne : word.toNat ≠ 0 := fun heq => h (BitVec.eq_of_toNat_eq heq)
  unfold magnitude
  split <;> omega

theorem toNat_of_magnitude (word : BitVec 32) :
    word.toNat = if isNegative word then 2 ^ 32 - magnitude word else magnitude word := by
  have hlt := word.isLt
  unfold magnitude
  split <;> omega

theorem Prepared.divided {cpu next : CpuState} (h : Prepared divisor dividend high zero cpu next)
    (hdivisor : cpu.r divisor ≠ 0) :
    Divided divisor high dividend (isNegative (cpu.r dividend)) (isNegative (cpu.r divisor))
      (magnitude (cpu.r divisor)) 0 (magnitude (cpu.r dividend)) 0 next := by
  have hle := magnitude_le (cpu.r dividend)
  refine Divided.start h.m ?_ ?_ h.t ?_ (magnitude_pos hdivisor) (by omega)
  · rw [h.divisorWord]
    exact toNat_of_magnitude (cpu.r divisor)
  · rw [h.highWord, h.q]
    cases isNegative (cpu.r dividend) <;> rfl
  · have hword := toNat_of_magnitude (cpu.r dividend)
    have hnegative : isNegative (cpu.r dividend) = true → 2 ^ 31 ≤ (cpu.r dividend).toNat :=
      of_decide_eq_true
    rw [h.dividendWord]
    generalize magnitude (cpu.r dividend) = absolute at hword hle ⊢
    cases hsign : isNegative (cpu.r dividend)
    · rw [hsign] at hword
      simpa using hword
    · have hhigh := hnegative hsign
      rw [hsign] at hword
      simp only [if_true] at hword
      rw [mirror_true, if_pos rfl, BitVec.toNat_sub]
      change (2 ^ 32 - 1 + (cpu.r dividend).toNat) % 2 ^ 32 = _
      omega

/-- The absolute quotient fits, but for the smallest word divided by minus one. -/
theorem quotient_fits {dividend divisor : BitVec 32} (hdivisor : divisor ≠ 0)
    (hfits : ¬ (dividend = BitVec.intMin 32 ∧ divisor = -1))
    (hsame : (isNegative dividend ^^ isNegative divisor) = false) :
    magnitude dividend / magnitude divisor < 2 ^ 31 := by
  have hle := magnitude_le dividend
  have hpos := magnitude_pos hdivisor
  rw [Nat.div_lt_iff_lt_mul hpos]
  by_contra hlarge
  have hone : magnitude divisor = 1 ∧ magnitude dividend = 2 ^ 31 := by
    constructor <;> nlinarith
  have hdividendWord := toNat_of_magnitude dividend
  have hdivisorWord := toNat_of_magnitude divisor
  have hdividendSign : isNegative dividend = decide (2 ^ 31 ≤ dividend.toNat) := rfl
  rw [hone.1] at hdivisorWord
  rw [hone.2] at hdividendWord
  have hnegative : isNegative dividend = true := by
    rw [hdividendSign, decide_eq_true_eq]
    split at hdividendWord <;> omega
  rw [hnegative] at hsame hdividendWord
  have hnegative' : isNegative divisor = true := by simpa using hsame
  rw [hnegative'] at hdivisorWord
  refine hfits ⟨BitVec.eq_of_toNat_eq ?_, BitVec.eq_of_toNat_eq ?_⟩
  · simpa using hdividendWord
  · simpa using hdivisorWord

theorem signedDivision_quotient (hdistinct : [divisor, dividend, high, zero].Nodup)
    (pc : BitVec 32) {cpu : CpuState} (hdivisor : cpu.r divisor ≠ 0)
    (hfits : ¬ (cpu.r dividend = BitVec.intMin 32 ∧ cpu.r divisor = -1)) :
    ((executeRegisters pc (signedDivision divisor dividend high zero) cpu).r dividend).toInt =
      (cpu.r dividend).toInt.tdiv (cpu.r divisor).toInt := by
  have hprepared := executeRegisters_prepared hdistinct pc cpu
  simp only [List.nodup_cons, List.mem_cons, not_or, List.not_mem_nil, not_false_eq_true,
    and_true] at hdistinct
  obtain ⟨⟨hdividend, hhigh, hzero⟩, ⟨hhigh', hzero'⟩, hzero'', -⟩ := hdistinct
  have hdividendLe := magnitude_le (cpu.r dividend)
  have hdivisorLe := magnitude_le (cpu.r divisor)
  rw [signedDivision]
  simp only [executeRegisters_cons] at hprepared ⊢
  rw [executeRegisters] at hprepared
  generalize executeRegister _ _ _ = prepared at hprepared ⊢
  generalize pc + 2 + 2 + 2 + 2 + 2 + 2 = start
  have hloop := (hprepared.divided hdivisor).loop (Ne.symm hhigh') hdividend hhigh
    (magnitude_pos hdivisor) (by omega) (by omega) start
  have hkept := divideSteps_keeps divisor (Ne.symm hzero'') (Ne.symm hzero') 32 start
    prepared
  obtain ⟨last, hback⟩ := executeRegisters_append start
    (divideSteps divisor high dividend 32 ++ [registerInstruction .rotateLeftThroughT 0 dividend])
    [registerInstruction .addWithCarry zero dividend] prepared
  rw [hback]
  generalize executeRegisters start _ prepared = finished at hloop hkept ⊢
  obtain ⟨hword, hsign⟩ := hloop
  rw [hprepared.zeroWord] at hkept
  rw [executeRegisters_cons, executeRegisters, addWithCarry_zero last hkept, tdiv_eq]
  rw [Nat.zero_mul, Nat.zero_add] at hword
  refine toInt_quotient ?_ ?_ (quotient_fits hdivisor hfits)
  · rw [BitVec.toNat_add, hword, carry, hsign]
    cases isNegative (cpu.r dividend) ^^ isNegative (cpu.r divisor) <;> rfl
  · exact (Nat.div_le_self _ _).trans hdividendLe

end

/-- Step division divides: 64 bits by 32 without signs where the quotient fits, and 32 bits by 32
with signs, towards zero. -/
theorem stepDivision_quotient : (∀ (divisor high low : Fin 16) (pc : BitVec 32) (cpu : CpuState),
        [divisor, high, low].Nodup → (cpu.r high).toNat < (cpu.r divisor).toNat →
          ((executeRegisters pc (unsignedDivision divisor high low) cpu).r low).toNat =
            ((cpu.r high).toNat * 2 ^ 32 + (cpu.r low).toNat) / (cpu.r divisor).toNat) ∧
      ∀ (divisor dividend high zero : Fin 16) (pc : BitVec 32) (cpu : CpuState),
        [divisor, dividend, high, zero].Nodup → cpu.r divisor ≠ 0 →
          ¬ (cpu.r dividend = BitVec.intMin 32 ∧ cpu.r divisor = -1) →
            ((executeRegisters pc (signedDivision divisor dividend high zero) cpu).r
              dividend).toInt = (cpu.r dividend).toInt.tdiv (cpu.r divisor).toInt := by
  constructor
  · intro divisor high low pc cpu hdistinct hsmall
    simp only [List.nodup_cons, List.mem_cons, not_or, List.not_mem_nil, not_false_eq_true,
      and_true] at hdistinct
    obtain ⟨⟨hapart, hdivisor⟩, hhigh, -⟩ := hdistinct
    exact unsignedDivision_quotient hhigh hdivisor hapart pc hsmall
  · intro divisor dividend high zero pc cpu hdistinct hdivisor hfits
    exact signedDivision_quotient hdistinct pc hdivisor hfits

/-- R0 = 7, R1 = 1, R2 = -23. -/
def divisionSample : CpuState :=
  { r := fun k => if k = 0 then 7 else if k = 1 then 1 else if k = 2 then -23 else 0 }

theorem stepDivision_quotient_sample :
    ((executeRegisters 0 (unsignedDivision 0 1 2) divisionSample).r 2).toNat = 1227133509 ∧
      ((executeRegisters 0 (signedDivision 0 2 1 3) divisionSample).r 2).toInt = -3 := by
  obtain ⟨hunsigned, hsigned⟩ := stepDivision_quotient
  constructor
  · exact (hunsigned 0 1 2 0 divisionSample (by decide) (by decide)).trans (by decide)
  · exact (hsigned 0 2 1 3 0 divisionSample (by decide) (by decide) (by decide)).trans (by decide)

end KatanaRecomp.Runtime.Interpreter
