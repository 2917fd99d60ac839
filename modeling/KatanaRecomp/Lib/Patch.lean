import Mathlib.Data.List.Basic

/-! # Stores that wait

A patch gives some places of a store new contents. Patches that wait are applied
in the order of their arrival; a reader that looks through them sees what the
store will hold. Whether a patch changes the store is asked of the store with
every earlier patch in place. -/
namespace KatanaRecomp.Lib
variable {κ β : Type}

/-- The new contents of the places that the patch covers. -/
def Patch (κ β : Type) : Type := κ → Option β

namespace Patch

def apply (patch : Patch κ β) (store : κ → β) : κ → β :=
  fun place => (patch place).getD (store place)

/-- Some place holds something else after the patch. -/
def Changes (patch : Patch κ β) (store : κ → β) : Prop :=
  ∃ place content, patch place = some content ∧ content ≠ store place

theorem changes_iff {patch : Patch κ β} {store : κ → β} :
    patch.Changes store ↔ patch.apply store ≠ store := by
  constructor
  · intro hchanges heq
    obtain ⟨place, content, hpatch, hne⟩ := hchanges
    have hplace : patch.apply store place = content := by
      unfold apply
      rw [hpatch]
      rfl
    exact hne (hplace.symm.trans (congrFun heq place))
  · intro hne
    obtain ⟨place, hplace⟩ := Function.ne_iff.mp hne
    unfold apply at hplace
    cases hpatch : patch place with
    | none =>
      rw [hpatch] at hplace
      exact absurd rfl hplace
    | some content =>
      rw [hpatch] at hplace
      exact ⟨place, content, hpatch, hplace⟩

end Patch

/-! ## A row of bytes -/

section
variable {ι : Type} [DecidableEq ι]

/-- New contents from a position of a device on. -/
def rowPatch (device : ι) (offset : Nat) (row : List β) : Patch (ι × Nat) β :=
  fun place =>
    if place.1 = device ∧ offset ≤ place.2 then row[place.2 - offset]? else none

theorem rowPatch_at (device : ι) (offset : Nat) (row : List β) (index : Nat) :
    rowPatch device offset row (device, offset + index) = row[index]? := by
  unfold rowPatch
  rw [if_pos ⟨rfl, Nat.le_add_right offset index⟩, Nat.add_sub_cancel_left]

theorem rowPatch_eq_some_iff {device : ι} {offset : Nat} {row : List β} {place : ι × Nat}
    {content : β} : rowPatch device offset row place = some content ↔
      ∃ index, place = (device, offset + index) ∧ row[index]? = some content := by
  constructor
  · intro hpatch
    unfold rowPatch at hpatch
    split at hpatch
    · rename_i hplace
      refine ⟨place.2 - offset, ?_, hpatch⟩
      rw [Nat.add_sub_cancel' hplace.2, ← hplace.1]
    · cases hpatch
  · intro hrow
    obtain ⟨index, rfl, hcontent⟩ := hrow
    rw [rowPatch_at, hcontent]

/-- A row changes the store where one of its contents differs. -/
theorem rowPatch_changes_iff {device : ι} {offset : Nat} {row : List β} {store : ι × Nat → β} :
    (rowPatch device offset row).Changes store ↔
      ∃ index content, row[index]? = some content ∧ content ≠ store (device, offset + index) := by
  constructor
  · intro hchanges
    obtain ⟨place, content, hpatch, hne⟩ := hchanges
    obtain ⟨index, rfl, hcontent⟩ := rowPatch_eq_some_iff.mp hpatch
    exact ⟨index, content, hcontent, hne⟩
  · intro hrow
    obtain ⟨index, content, hcontent, hne⟩ := hrow
    exact ⟨_, content, rowPatch_eq_some_iff.mpr ⟨index, rfl, hcontent⟩, hne⟩

theorem rowPatch_nil (device : ι) (offset : Nat) (store : ι × Nat → β) :
    (rowPatch device offset ([] : List β)).apply store = store := by
  funext place
  unfold Patch.apply rowPatch
  split
  · rfl
  · rfl

/-- A row is its first content and the row behind it. -/
theorem rowPatch_cons (device : ι) (offset : Nat) (first : β) (row : List β)
    (store : ι × Nat → β) : (rowPatch device offset (first :: row)).apply store =
      (rowPatch device (offset + 1) row).apply (Function.update store (device, offset) first) := by
  funext place
  obtain ⟨other, position⟩ := place
  unfold Patch.apply rowPatch
  by_cases hdevice : other = device
  · subst hdevice
    obtain hbefore | heq | hbehind := Nat.lt_trichotomy position offset
    · rw [if_neg fun h => absurd h.2 (Nat.not_le.mpr hbefore),
        if_neg fun h => absurd h.2 (by show ¬ offset + 1 ≤ position; omega), Function.update_of_ne]
      exact fun h => Nat.ne_of_lt hbefore (congrArg Prod.snd h)
    · subst heq
      rw [if_pos ⟨rfl, Nat.le_refl _⟩,
        if_neg fun h => absurd h.2 (Nat.not_succ_le_self position), Nat.sub_self,
        Option.getD_none, Function.update_self]
      rfl
    · obtain ⟨index, rfl⟩ := Nat.exists_eq_add_of_lt hbehind
      rw [if_pos ⟨rfl, by show offset ≤ offset + index + 1; omega⟩,
        if_pos ⟨rfl, by show offset + 1 ≤ offset + index + 1; omega⟩, Function.update_of_ne]
      · show ((first :: row)[offset + index + 1 - offset]?).getD _ =
          (row[offset + index + 1 - (offset + 1)]?).getD _
        rw [show offset + index + 1 - offset = index + 1 by omega,
          show offset + index + 1 - (offset + 1) = index by omega, List.getElem?_cons_succ]
      · intro h
        have hposition : offset + index + 1 = offset := congrArg Prod.snd h
        omega
  · rw [if_neg fun h => hdevice h.1, if_neg fun h => hdevice h.1, Function.update_of_ne]
    exact fun h => hdevice (congrArg Prod.fst h)

end
end KatanaRecomp.Lib
