import Mathlib.Tactic.Ring
import Mathlib.Tactic.Linarith

/-! # Long division, one bit of the dividend after the other

The quotient and the remainder of a prefix of the dividend give those of the next prefix.
Words that hold the one's complement of a number are its mirror image, and shifting,
splitting and joining words commutes with it. -/
namespace KatanaRecomp.Lib.LongDivision

/-! ## Prefixes of the dividend -/

/-- The dividend without its last `width - count` bits. -/
def leading (high low width count : Nat) : Nat := high * 2 ^ count + low / 2 ^ (width - count)

theorem leading_zero {high low width : Nat} (hlow : low < 2 ^ width) :
    leading high low width 0 = high := by
  unfold leading
  rw [Nat.sub_zero, Nat.div_eq_of_lt hlow]
  simp

theorem leading_all (high low width : Nat) :
    leading high low width width = high * 2 ^ width + low := by
  simp [leading]

/-- The next prefix has one more bit. -/
theorem leading_succ {high low width count : Nat} (hcount : count < width) :
    leading high low width (count + 1) =
      2 * leading high low width count + low / 2 ^ (width - (count + 1)) % 2 := by
  have hsplit : 2 ^ (width - count) = 2 ^ (width - (count + 1)) * 2 := by
    rw [← pow_succ]
    congr 1
    omega
  unfold leading
  rw [hsplit, ← Nat.div_div_eq_div_mul, pow_succ]
  have hbit := Nat.div_add_mod (low / 2 ^ (width - (count + 1))) 2
  have hhigh : high * (2 ^ count * 2) = 2 * (high * 2 ^ count) := by ring
  omega

/-! ## One step -/

/-- The next bit of the quotient. -/
def quotientBit (divisor remainder bit : Nat) : Nat :=
  if divisor ≤ 2 * remainder + bit then 1 else 0

theorem div_mod_step (number : Nat) {divisor bit : Nat} (hdivisor : 0 < divisor) (hbit : bit < 2) :
    (2 * number + bit) / divisor =
        2 * (number / divisor) + quotientBit divisor (number % divisor) bit ∧
      (2 * number + bit) % divisor =
        2 * (number % divisor) + bit - divisor * quotientBit divisor (number % divisor) bit := by
  have hparts := Nat.div_add_mod number divisor
  have hlt := Nat.mod_lt number hdivisor
  set quotient := number / divisor
  set remainder := number % divisor
  have hnumber : 2 * number + bit = divisor * (2 * quotient) + (2 * remainder + bit) := by
    rw [← hparts]
    ring
  rw [hnumber, Nat.mul_add_div hdivisor, Nat.mul_add_mod]
  unfold quotientBit
  split
  · rename_i hle
    have hrest : 2 * remainder + bit = divisor * 1 + (2 * remainder + bit - divisor) := by omega
    rw [hrest, Nat.mul_add_div hdivisor, Nat.mul_add_mod, Nat.div_eq_of_lt (by omega),
      Nat.mod_eq_of_lt (by omega)]
    omega
  · rename_i hnot
    rw [Nat.div_eq_of_lt (by omega), Nat.mod_eq_of_lt (by omega)]
    omega

/-! ## One's complement -/

/-- The number counted from the other end, where `flip` says so. -/
def mirror (flip : Bool) (bound number : Nat) : Nat :=
  if flip then bound - 1 - number else number

@[simp] theorem mirror_false (bound number : Nat) : mirror false bound number = number := rfl

@[simp] theorem mirror_true (bound number : Nat) :
    mirror true bound number = bound - 1 - number := rfl

theorem mirror_lt (flip : Bool) {bound number : Nat} (h : number < bound) :
    mirror flip bound number < bound := by
  cases flip <;> simp <;> omega

/-- Joining two words mirrors each of them. -/
theorem mirror_join (flip : Bool) {bound bound' number number' : Nat} (h : number < bound)
    (h' : number' < bound') : mirror flip (bound * bound') (number * bound' + number') =
      mirror flip bound number * bound' + mirror flip bound' number' := by
  cases flip with
  | false => rfl
  | true =>
    obtain ⟨rest, hrest⟩ := Nat.exists_eq_add_of_lt h
    have hbound : bound * bound' = number * bound' + rest * bound' + bound' := by
      rw [hrest]
      ring
    have hleft : bound - 1 - number = rest := by omega
    rw [mirror_true, mirror_true, mirror_true, hbound, hleft]
    omega

/-- So does splitting one. -/
theorem mirror_split (flip : Bool) {bound bound' number : Nat} (h : number < bound * bound') :
    mirror flip (bound * bound') number / bound' = mirror flip bound (number / bound') ∧
      mirror flip (bound * bound') number % bound' = mirror flip bound' (number % bound') := by
  have hpos : 0 < bound' := by
    rcases Nat.eq_zero_or_pos bound' with hzero | hpos
    · rw [hzero, Nat.mul_zero] at h
      exact absurd h (Nat.not_lt_zero _)
    · exact hpos
  have hupper : number / bound' < bound := (Nat.div_lt_iff_lt_mul hpos).mpr h
  have hlower := Nat.mod_lt number hpos
  have hjoin := mirror_join flip hupper hlower
  rw [Nat.div_add_mod'] at hjoin
  have hsmall := mirror_lt flip hlower
  rw [hjoin]
  constructor
  · rw [Nat.mul_comm, Nat.mul_add_div hpos, Nat.div_eq_of_lt hsmall, Nat.add_zero]
  · rw [Nat.mul_comm, Nat.mul_add_mod, Nat.mod_eq_of_lt hsmall]

/-- A word shifted to the left by one bit that enters it: the upper part loses its first bit, the
lower part takes the new one. -/
theorem shift_split (upper places' : Nat) {lower places bit : Nat} (hlower : lower < places)
    (hbit : bit < 2) : (upper * places + lower) / (places * places') = upper / places' ∧
      (2 * (upper * places + lower) + bit) % (places * (2 * places')) =
        upper % places' * (2 * places) + (2 * lower + bit) := by
  have hpos : 0 < places := by omega
  constructor
  · rw [← Nat.div_div_eq_div_mul, Nat.mul_comm upper, Nat.mul_add_div hpos,
      Nat.div_eq_of_lt hlower, Nat.add_zero]
  · rcases Nat.eq_zero_or_pos places' with hzero | hpos'
    · simp only [hzero, Nat.mul_zero, Nat.mod_zero]
      ring
    · have hparts := Nat.div_add_mod upper places'
      have hrest := Nat.mod_lt upper hpos'
      have hword : 2 * (upper * places + lower) + bit = places * (2 * places') *
          (upper / places') + (upper % places' * (2 * places) + (2 * lower + bit)) := by
        calc 2 * (upper * places + lower) + bit
            = 2 * ((places' * (upper / places') + upper % places') * places + lower) + bit := by
              rw [hparts]
          _ = _ := by ring
      have hsmall : upper % places' * (2 * places) + (2 * lower + bit) <
          places * (2 * places') := by nlinarith
      rw [hword, Nat.mul_add_mod, Nat.mod_eq_of_lt hsmall]

end KatanaRecomp.Lib.LongDivision
