import Mathlib.Tactic.Ring
import Mathlib.Data.BitVec

/-! # The share of a dispatch

`dispatch_share_ppm` scales a quotient by a million without the product: it doubles a term
and adds it where the scale has a bit. The words are numbers here. The machine wraps silently
where a step here ends with none, so a result says that no step wrapped. -/
namespace KatanaRecomp.Runtime.Dispatch

def dispatchScale : Nat := 1000000

def addExact (left right : Nat) : Option Nat :=
  if left + right < 2 ^ 64 then some (left + right) else none

def subExact (left right : Nat) : Option Nat :=
  if right ≤ left then some (left - right) else none

/-- A quotient and a remainder by the denominator. -/
structure ShareTerm where
  quotient : Nat := 0
  remainder : Nat := 0

/-- `left` gets `right` added, the carry of the remainders to the quotient. -/
def ShareTerm.add (denominator : Nat) (left right : ShareTerm) : Option ShareTerm := do
  let quotient ← addExact left.quotient right.quotient
  let room ← subExact denominator left.remainder
  if right.remainder ≥ room then
    return ⟨← addExact quotient 1, ← subExact right.remainder room⟩
  else
    return ⟨quotient, ← addExact left.remainder right.remainder⟩

/-- What a bit of the multiplier adds to the result. -/
def ShareTerm.addBit (denominator bit : Nat) (result term : ShareTerm) : Option ShareTerm :=
  if bit ≠ 0 then result.add denominator term else some result

def shareLoop (denominator multiplier : Nat) (result term : ShareTerm) : Option ShareTerm := do
  if hdone : multiplier = 0 then return result
  else
    let result ← result.addBit denominator (multiplier % 2) term
    if multiplier / 2 = 0 then return result
    else shareLoop denominator (multiplier / 2) result (← term.add denominator term)
termination_by multiplier
decreasing_by exact Nat.div_lt_self (Nat.pos_of_ne_zero hdone) Nat.one_lt_two

def dispatchSharePpm (numerator denominator : BitVec 64) : Option Nat := do
  if denominator = 0 then return 0
  else if numerator ≥ denominator then return dispatchScale
  else
    let result ← shareLoop denominator.toNat dispatchScale {}
      ⟨numerator.toNat / denominator.toNat, numerator.toNat % denominator.toNat⟩
    return min result.quotient dispatchScale

/-! ## Terms -/

/-- The number that the term stands for. -/
def ShareTerm.value (denominator : Nat) (term : ShareTerm) : Nat :=
  denominator * term.quotient + term.remainder

section
variable {denominator : Nat} {left right : ShareTerm}

/-- A sum that stays under the scale is formed without wrapping. -/
theorem ShareTerm.add_spec (hword : denominator < 2 ^ 64) (hleft : left.remainder < denominator)
    (hright : right.remainder < denominator)
    (hsmall : left.value denominator + right.value denominator < denominator * dispatchScale) :
    ∃ sum, left.add denominator right = some sum ∧ sum.remainder < denominator ∧
      sum.value denominator = left.value denominator + right.value denominator := by
  unfold value at hsmall ⊢
  have hquotients : left.quotient + right.quotient < 1000000 := by
    refine Nat.lt_of_mul_lt_mul_left (a := denominator) ?_
    rw [Nat.mul_add]
    unfold dispatchScale at hsmall
    omega
  unfold add addExact subExact
  rw [if_pos (by omega), if_pos (by omega)]
  simp only [Option.bind_eq_bind, Option.bind_some]
  by_cases hcarry : right.remainder ≥ denominator - left.remainder
  · rw [if_pos hcarry, if_pos (by omega), if_pos hcarry]
    refine ⟨_, rfl, ?_, ?_⟩
    · dsimp only
      omega
    · dsimp only
      rw [Nat.mul_add, Nat.mul_add]
      omega
  · rw [if_neg hcarry, if_pos (by omega)]
    refine ⟨_, rfl, ?_, ?_⟩
    · dsimp only
      omega
    · dsimp only
      rw [Nat.mul_add]
      omega

/-- While the scale's bits are used up, the result and the remaining multiple of the term
add up to the same number. -/
theorem shareLoop_spec {multiplier : Nat} {result term : ShareTerm} (hword : denominator < 2 ^ 64)
    (hresult : result.remainder < denominator) (hterm : term.remainder < denominator)
    (hsmall : result.value denominator + multiplier * term.value denominator <
      denominator * dispatchScale) :
    ∃ final, shareLoop denominator multiplier result term = some final ∧
      final.remainder < denominator ∧ final.value denominator =
        result.value denominator + multiplier * term.value denominator := by
  induction multiplier using Nat.strong_induction_on generalizing result term with
  | _ multiplier ih =>
  unfold shareLoop
  by_cases hdone : multiplier = 0
  · rw [dif_pos hdone, hdone, Nat.zero_mul]
    exact ⟨result, rfl, hresult, rfl⟩
  rw [dif_neg hdone]
  have hsplit : multiplier * term.value denominator = multiplier % 2 * term.value denominator +
        multiplier / 2 * (term.value denominator + term.value denominator) := by
    conv_lhs => rw [← Nat.div_add_mod multiplier 2]
    ring
  rw [hsplit] at hsmall ⊢
  -- the result after the low bit of the multiplier
  obtain ⟨after, hafter, hreduced, hvalue⟩ : ∃ after,
      result.addBit denominator (multiplier % 2) term = some after ∧
        after.remainder < denominator ∧ after.value denominator =
          result.value denominator + multiplier % 2 * term.value denominator := by
    unfold ShareTerm.addBit
    by_cases hbit : multiplier % 2 = 0
    · rw [if_neg (not_not.mpr hbit), hbit, Nat.zero_mul]
      exact ⟨result, rfl, hresult, rfl⟩
    · have hone : multiplier % 2 = 1 := by omega
      rw [hone, Nat.one_mul] at hsmall
      rw [if_pos hbit, hone, Nat.one_mul]
      exact ShareTerm.add_spec hword hresult hterm (by omega)
  rw [hafter]
  simp only [Option.bind_eq_bind, Option.bind_some]
  by_cases hlast : multiplier / 2 = 0
  · rw [if_pos hlast, hlast, Nat.zero_mul, Nat.add_zero, ← hvalue]
    exact ⟨after, rfl, hreduced, rfl⟩
  rw [if_neg hlast]
  have hdouble := Nat.le_mul_of_pos_left (term.value denominator + term.value denominator)
    (Nat.pos_of_ne_zero hlast)
  obtain ⟨next, hnext, hnextReduced, hnextValue⟩ := ShareTerm.add_spec hword hterm hterm (by omega)
  rw [hnext, Option.bind_some, ← Nat.add_assoc, ← hvalue, ← hnextValue]
  refine ih (multiplier / 2) (Nat.div_lt_self (Nat.pos_of_ne_zero hdone) Nat.one_lt_two) hreduced
    hnextReduced ?_
  rw [hvalue, hnextValue]
  omega

end

/-- No step wraps, and the share is the exact quotient, at most the scale. -/
theorem dispatchSharePpm_exact (numerator denominator : BitVec 64) :
    dispatchSharePpm numerator denominator =
      some (min 1000000 (numerator.toNat * 1000000 / denominator.toNat)) := by
  unfold dispatchSharePpm
  by_cases hzero : denominator = 0
  · rw [if_pos hzero, hzero]
    simp
  rw [if_neg hzero]
  have hpos : 0 < denominator.toNat := Nat.pos_of_ne_zero fun h => hzero (BitVec.eq_of_toNat_eq h)
  by_cases hwhole : numerator ≥ denominator
  · have hle : denominator.toNat ≤ numerator.toNat := BitVec.le_def.mp hwhole
    rw [if_pos hwhole, Nat.min_eq_left]
    · rfl
    · rw [Nat.le_div_iff_mul_le hpos]
      omega
  rw [if_neg hwhole]
  have hlt : numerator.toNat < denominator.toNat :=
    Nat.lt_of_not_le fun hle => hwhole (BitVec.le_def.mpr hle)
  have hstart : (⟨numerator.toNat / denominator.toNat, numerator.toNat % denominator.toNat⟩ :
      ShareTerm).value denominator.toNat = numerator.toNat := Nat.div_add_mod _ _
  have hnone : ({} : ShareTerm).value denominator.toNat = 0 := rfl
  have hscaled : dispatchScale * numerator.toNat < denominator.toNat * dispatchScale := by
    rw [Nat.mul_comm]
    exact Nat.mul_lt_mul_of_pos_right hlt (by decide)
  obtain ⟨final, hfinal, hreduced, hvalue⟩ := @shareLoop_spec denominator.toNat dispatchScale {}
    ⟨numerator.toNat / denominator.toNat, numerator.toNat % denominator.toNat⟩ denominator.isLt
    hpos (Nat.mod_lt _ hpos) (by rwa [hstart, hnone, Nat.zero_add])
  rw [hstart, hnone, Nat.zero_add, Nat.mul_comm] at hvalue
  have hquotient : numerator.toNat * 1000000 / denominator.toNat = final.quotient := by
    rw [show 1000000 = dispatchScale from rfl, ← hvalue, ShareTerm.value,
      Nat.mul_add_div hpos, Nat.div_eq_of_lt hreduced, Nat.add_zero]
  rw [hfinal, hquotient, Nat.min_comm]
  rfl

end KatanaRecomp.Runtime.Dispatch
