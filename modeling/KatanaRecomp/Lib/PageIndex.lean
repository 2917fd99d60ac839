import Mathlib.Data.List.Basic

/-! # An index of pages by their owner

Ranges of pages are entered one after the other. A page that no range covers has
no owner; a page that a single range covers names it; a page that two ranges
cover names neither. -/
namespace KatanaRecomp.Lib

inductive PageOwner
  | unmapped | ambiguous
  | owner (index : Nat)

structure PageRange where
  first : Nat
  last : Nat

namespace PageOwner

def claim (index : Nat) : PageOwner → PageOwner
  | unmapped => owner index
  | ambiguous => ambiguous
  | owner other => if other = index then owner other else ambiguous

end PageOwner

namespace PageIndex

def claimPage (index : Nat) (slots : Nat → PageOwner) (page : Nat) : Nat → PageOwner :=
  Function.update slots page ((slots page).claim index)

/-- One page after the other, from the first to the last. -/
def claimRange (slots : Nat → PageOwner) (index : Nat) (range : PageRange) : Nat → PageOwner :=
  (List.range' range.first (range.last + 1 - range.first)).foldl (claimPage index) slots

def rebuild (ranges : List PageRange) : Nat → PageOwner :=
  ranges.zipIdx.foldl (fun slots entry => claimRange slots entry.2 entry.1) fun _ => .unmapped

end PageIndex
end KatanaRecomp.Lib
