import KatanaRecomp.Lib.MapTotals

/-! # Counted keys

A map from keys to how often each was added and not removed since. No count is
zero: a key leaves the map with its last removal, and removing a key that is
not there does nothing. -/
namespace KatanaRecomp.Lib

structure Tally (κ : Type) [LinearOrder κ] where
  counts : OrderedMap κ Nat
  positive : counts.OmitsDefault 0

namespace Tally
variable {κ : Type} [LinearOrder κ]

def empty : Tally κ :=
  ⟨.empty, fun _ h => Option.some_ne_none _ (h.symm.trans (OrderedMap.find_empty _))⟩

instance : DecidableEq (Tally κ) := fun tally tally' =>
  decidable_of_iff (tally.counts = tally'.counts)
    ⟨fun h => by cases tally; cases tally'; cases h; rfl, congrArg counts⟩

def count (tally : Tally κ) (key : κ) : Nat := tally.counts.fetch 0 key

def add (tally : Tally κ) (key : κ) : Tally κ :=
  ⟨OrderedMap.store 0 tally.counts key (tally.count key + 1), tally.positive.omits_store _ _⟩

def remove (tally : Tally κ) (key : κ) : Tally κ :=
  if (tally.counts.find key).isNone then tally
  else
    ⟨OrderedMap.store 0 tally.counts key (tally.count key - 1), tally.positive.omits_store _ _⟩

variable {tally tally' : Tally κ} {key : κ}

@[simp]
theorem count_empty (key : κ) : (empty : Tally κ).count key = 0 := rfl

theorem count_of_isNone (h : (tally.counts.find key).isNone) : tally.count key = 0 := by
  rw [count, OrderedMap.fetch, Option.isNone_iff_eq_none.mp h, Option.getD_none]

/-- The keys of the map are the keys that are counted. -/
theorem mem_keys_iff : (tally.counts.find key).isSome ↔ 0 < tally.count key := by
  have hpositive := tally.positive key
  unfold count OrderedMap.fetch
  cases h : tally.counts.find key with
  | none => simp
  | some n =>
    have hne : n ≠ 0 := fun hzero => hpositive (hzero ▸ h)
    simpa using Nat.pos_of_ne_zero hne

@[simp]
theorem count_add (key' : κ) :
    (tally.add key).count key' = tally.count key' + if key' = key then 1 else 0 := by
  refine (OrderedMap.fetch_store key (tally.count key + 1) key').trans ?_
  by_cases h : key' = key
  · rw [if_pos h, if_pos h, h]
  · rw [if_neg h, if_neg h]
    rfl

@[simp]
theorem count_remove (key' : κ) :
    (tally.remove key).count key' = tally.count key' - if key' = key then 1 else 0 := by
  unfold remove
  split
  · rename_i habsent
    by_cases h : key' = key
    · rw [h, count_of_isNone habsent, Nat.zero_sub]
    · rw [if_neg h, Nat.sub_zero]
  · refine (OrderedMap.fetch_store key (tally.count key - 1) key').trans ?_
    by_cases h : key' = key
    · rw [if_pos h, if_pos h, h]
    · rw [if_neg h, if_neg h]
      rfl

end Tally
end KatanaRecomp.Lib
