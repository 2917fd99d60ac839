import Mathlib.Data.List.Nodup

/-! # Bits of a vector of words

A run of bits of a word as a mask, the bits of a vector of 64-bit words under
their position in the whole vector, and a table of which some entries change. -/
namespace KatanaRecomp.Lib

/-- The bits from `first` up to `last`. -/
def runMask (first last : Nat) : BitVec 64 :=
  let mask := BitVec.allOnes 64 <<< first
  if last < 64 then mask &&& ((1#64 <<< last) - 1#64) else mask

theorem getLsbD_lowMask {last k : Nat} (hlast : last < 64) :
    ((1#64 <<< last) - 1#64).getLsbD k = decide (k < last) := by
  have hpow : 2 ^ last < 2 ^ 64 := Nat.pow_lt_pow_right (by decide) hlast
  have hpos : 0 < 2 ^ last := Nat.two_pow_pos last
  have hnat : ((1#64 <<< last) - 1#64).toNat = 2 ^ last - 1 := by
    rw [BitVec.toNat_sub, BitVec.toNat_shiftLeft, BitVec.toNat_ofNat, Nat.shiftLeft_eq]
    omega
  rw [BitVec.getLsbD, hnat, Nat.testBit_two_pow_sub_one]

theorem getLsbD_runMask {first last k : Nat} (hk : k < 64) :
    (runMask first last).getLsbD k = (decide (first ≤ k) && decide (k < last)) := by
  have hhigh : (BitVec.allOnes 64 <<< first).getLsbD k = decide (first ≤ k) := by
    rw [BitVec.getLsbD_shiftLeft, BitVec.getLsbD_allOnes]
    by_cases hle : first ≤ k
    · simp [hk, hle, show k - first < 64 by omega]
    · simp [hle, show k < first by omega]
  unfold runMask
  dsimp only
  split
  · rename_i hlast
    rw [BitVec.getLsbD_and, hhigh, getLsbD_lowMask hlast]
  · rename_i hlast
    rw [hhigh, decide_eq_true (show k < last by omega), Bool.and_true]

/-- The test of one bit, as a program spells it. -/
theorem and_shiftLeft_ne_zero {word : BitVec 64} {k : Nat} (hk : k < 64) :
    (word &&& (1#64 <<< k) ≠ 0) ↔ word.getLsbD k = true := by
  have hbit : ∀ j, (word &&& (1#64 <<< k)).getLsbD j = (word.getLsbD k && decide (j = k)) := by
    intro j
    rw [BitVec.getLsbD_and, BitVec.getLsbD_shiftLeft, BitVec.getLsbD_one]
    by_cases hj : j = k
    · subst hj
      simp [hk]
    · by_cases hlt : j < k
      · simp [hj, hlt]
      · simp [hj, show j - k ≠ 0 by omega]
  constructor
  · intro hne
    by_contra hclear
    refine hne (BitVec.eq_of_getLsbD_eq fun j _ => ?_)
    rw [hbit, Bool.eq_false_iff.mpr hclear, Bool.false_and]
    exact BitVec.getLsbD_zero.symm
  · intro hset hzero
    have hk' := hbit k
    rw [hzero, hset] at hk'
    simp at hk'

abbrev Bitmap (n : Nat) := Vector (BitVec 64) n

namespace Bitmap
variable {n : Nat}

def empty : Bitmap n := Vector.replicate n 0

def word (words : Bitmap n) (index : Nat) : BitVec 64 := words[index]?.getD 0

def bit (words : Bitmap n) (position : Nat) : Bool :=
  (words.word (position / 64)).getLsbD (position % 64)

def isZero (words : Bitmap n) : Bool := words.all (· == 0)

theorem word_setIfInBounds (words : Bitmap n) {index other : Nat} (value : BitVec 64)
    (hother : other < n) : word (words.setIfInBounds index value) other =
      if other = index then value else words.word other := by
  unfold word
  rw [Vector.getElem?_setIfInBounds]
  by_cases h : index = other
  · subst h
    rw [if_pos rfl, if_pos hother, if_pos rfl]
    rfl
  · rw [if_neg h, if_neg (Ne.symm h)]

theorem bit_empty (position : Nat) : (empty : Bitmap n).bit position = false := by
  unfold bit word empty
  by_cases h : position / 64 < n
  · rw [Vector.getElem?_replicate, if_pos h]
    exact BitVec.getLsbD_zero
  · rw [Vector.getElem?_replicate, if_neg h]
    exact BitVec.getLsbD_zero

theorem word_eq_of_bits {words others : Bitmap n}
    (h : ∀ position < 64 * n, words.bit position = others.bit position) {index : Nat}
    (hindex : index < n) : words.word index = others.word index := by
  refine BitVec.eq_of_getLsbD_eq fun k hk => ?_
  have hbit := h (64 * index + k) (by omega)
  unfold bit at hbit
  rwa [show (64 * index + k) / 64 = index by omega, show (64 * index + k) % 64 = k by omega] at hbit

theorem ext_bits {words others : Bitmap n}
    (h : ∀ position < 64 * n, words.bit position = others.bit position) : words = others := by
  refine Vector.ext fun index hindex => ?_
  have hword := word_eq_of_bits h hindex
  unfold word at hword
  rwa [Vector.getElem?_eq_getElem hindex, Vector.getElem?_eq_getElem hindex] at hword

theorem isZero_iff {words : Bitmap n} : words.isZero = true ↔ words = empty := by
  unfold isZero
  rw [Vector.all_eq_true]
  constructor
  · intro hall
    refine Vector.ext fun index hindex => ?_
    simpa [empty] using hall index hindex
  · rintro rfl index hindex
    simp [empty]

theorem isZero_iff_bits {words : Bitmap n} :
    words.isZero = true ↔ ∀ position < 64 * n, words.bit position = false := by
  rw [isZero_iff]
  constructor
  · intro hwords position _
    rw [hwords, bit_empty]
  · intro hclear
    exact ext_bits fun position hposition => by rw [hclear position hposition, bit_empty]

end Bitmap

/-- Each key of a list takes its new entry from its old one, and no other key changes. -/
theorem foldl_update_apply {κ β : Type} [DecidableEq κ] (f : κ → β → β) {keys : List κ}
    (hnodup : keys.Nodup) (table : κ → β) (key : κ) :
    keys.foldl (fun table key => Function.update table key (f key (table key))) table key =
      if key ∈ keys then f key (table key) else table key := by
  induction keys generalizing table with
  | nil => simp
  | cons first rest ih =>
    obtain ⟨hfirst, hrest⟩ := List.nodup_cons.mp hnodup
    rw [List.foldl_cons, ih hrest]
    by_cases hkey : key = first
    · subst hkey
      rw [if_neg hfirst, Function.update_self, if_pos List.mem_cons_self]
    · rw [Function.update_of_ne hkey]
      by_cases hin : key ∈ rest
      · rw [if_pos hin, if_pos (List.mem_cons_of_mem _ hin)]
      · rw [if_neg hin, if_neg fun h => (List.mem_cons.mp h).elim hkey hin]

end KatanaRecomp.Lib
