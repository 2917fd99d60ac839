import Mathlib.Order.Defs.LinearOrder

/-! # Machine words as keys

The order of the unsigned values, for maps whose keys are machine words. -/
namespace KatanaRecomp.Lib.BitVecOrder

scoped instance linearOrder {w : Nat} : LinearOrder (BitVec w) :=
  { (inferInstance : LE (BitVec w)), (inferInstance : LT (BitVec w)) with
    le_refl := BitVec.le_refl
    le_trans := fun _ _ _ => BitVec.le_trans
    le_antisymm := fun _ _ => BitVec.le_antisymm
    le_total := BitVec.le_total
    lt_iff_le_not_ge := fun a b => by
      rw [BitVec.lt_def, BitVec.le_def, BitVec.le_def]
      omega
    toDecidableLE := inferInstance
    toDecidableLT := inferInstance
    toDecidableEq := inferInstance }

end KatanaRecomp.Lib.BitVecOrder
