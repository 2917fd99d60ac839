import Mathlib.Data.List.FinRange

/-! # An order of use

The elements in use, the one used longest ago first. A use puts its element last,
so it takes one place off every element behind the old place: what a cache that
keeps ranks instead of the order computes. -/
namespace KatanaRecomp.Lib

/-- The element goes to the end, new or not. -/
def use {α : Type} [DecidableEq α] (order : List α) (element : α) : List α :=
  order.erase element ++ [element]

namespace Recency
variable {α : Type} [DecidableEq α] {order : List α} {element other : α}

theorem mem_use : other ∈ use order element ↔ other = element ∨ other ∈ order := by
  unfold use
  rw [List.mem_append, List.mem_singleton]
  by_cases heq : other = element
  · simp [heq]
  · rw [List.mem_erase_of_ne heq]
    tauto

variable (h : order.Nodup)
include h

theorem nodup_use : (use order element).Nodup := by
  unfold use
  rw [List.nodup_append]
  refine ⟨h.erase element, List.nodup_singleton element, ?_⟩
  intro kept hkept last hlast heq
  rw [List.mem_singleton.mp hlast] at heq
  exact (h.mem_erase_iff.mp hkept).1 heq

/-- The element used is the last one. -/
theorem idxOf_use_self : (use order element).idxOf element = (use order element).length - 1 := by
  have hgone : element ∉ order.erase element := fun hmem => (h.mem_erase_iff.mp hmem).1 rfl
  unfold use
  rw [List.idxOf_append_of_notMem hgone, List.length_append, List.idxOf_cons_self]
  simp

/-- What stood behind the element moves up one place. -/
theorem idxOf_erase (hmem : other ∈ order) (hne : other ≠ element) :
    (order.erase element).idxOf other =
      if order.idxOf element < order.idxOf other then order.idxOf other - 1
      else order.idxOf other := by
  induction order with
  | nil => exact absurd hmem List.not_mem_nil
  | cons head rest ih =>
    rw [List.nodup_cons] at h
    by_cases hhead : head = element
    · rw [hhead, List.erase_cons_head, List.idxOf_cons_self, List.idxOf_cons_ne _ hne.symm]
      simp
    · rw [List.erase_cons_tail (by simpa using hhead), List.idxOf_cons_ne rest hhead]
      by_cases hother : head = other
      · simp [hother]
      · have hrest : other ∈ rest := by
          rcases List.mem_cons.mp hmem with heq | hrest
          · exact absurd heq.symm hother
          · exact hrest
        have htail := ih h.2 hrest
        rw [List.idxOf_cons_ne _ hother, List.idxOf_cons_ne _ hother, htail]
        split_ifs <;> omega

theorem idxOf_use_of_ne (hmem : other ∈ order) (hne : other ≠ element) :
    (use order element).idxOf other =
      if order.idxOf element < order.idxOf other then order.idxOf other - 1
      else order.idxOf other := by
  have hkept : other ∈ order.erase element := (List.mem_erase_of_ne hne).mpr hmem
  unfold use
  rw [List.idxOf_append_of_mem hkept, idxOf_erase h hmem hne]

/-- The places of the elements are the numbers below the length. -/
theorem map_idxOf : order.map (order.idxOf ·) = List.range order.length := by
  refine List.ext_getElem (by simp) fun place hplace _ => ?_
  rw [List.getElem_map, List.getElem_range]
  exact h.idxOf_getElem place _

theorem idxOf_eq_last (hlast : order.getLast? = some element) :
    order.idxOf element + 1 = order.length := by
  obtain ⟨front, rfl⟩ := List.getLast?_eq_some_iff.mp hlast
  have hfront : element ∉ front := by
    rw [List.nodup_append] at h
    exact fun hmem => h.2.2 element hmem element List.mem_cons_self rfl
  rw [List.idxOf_append_of_notMem hfront, List.idxOf_cons_self]
  simp

omit h

end Recency
end KatanaRecomp.Lib
