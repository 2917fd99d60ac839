import Mathlib.Data.List.Range

/-! # Copies from what was written last

A back reference appends byte after byte the one that stands a fixed distance
before the end. When it runs into its own output it repeats with that distance. -/
namespace KatanaRecomp.Lib
variable {α : Type}

/-- Append, a number of times, the element at a distance from the end. -/
def appendBack (distance length : Nat) (output : List α) : List α := (List.range length).foldl
    (fun output _ => output ++ (output[output.length - distance]?).toList) output

/-- What a back reference stands for: the last stretch, repeated. -/
def repeated (distance length : Nat) (output : List α) : List α :=
  (List.range length).filterMap fun i => output[output.length - distance + i % distance]?

section
variable {distance length : Nat} {output : List α}

theorem appendBack_succ : appendBack distance (length + 1) output =
    appendBack distance length output ++
      ((appendBack distance length output)[(appendBack distance length output).length -
        distance]?).toList := by
  unfold appendBack
  rw [List.range_succ, List.foldl_append]
  rfl

theorem repeated_succ : repeated distance (length + 1) output = repeated distance length output ++
      (output[output.length - distance + length % distance]?).toList := by
  unfold repeated
  rw [List.range_succ, List.filterMap_append]
  cases h : output[output.length - distance + length % distance]? <;> simp [h]

variable (hpositive : 0 < distance)
include hpositive

section
variable (hwithin : distance ≤ output.length)
include hwithin

theorem length_repeated : (repeated distance length output).length = length := by
  induction length with
  | zero => rfl
  | succ length ih =>
    have hmod := Nat.mod_lt length hpositive
    have hinside : output.length - distance + length % distance < output.length := by omega
    rw [repeated_succ, List.length_append, ih, List.getElem?_eq_getElem hinside]
    rfl

theorem getElem?_repeated {i : Nat}
    (hi : i < length) : (repeated distance length output)[i]? =
      output[output.length - distance + i % distance]? := by
  induction length with
  | zero => omega
  | succ length ih =>
    have hlength : (repeated distance length output).length = length :=
      length_repeated hpositive hwithin
    rw [repeated_succ]
    by_cases hlast : i < length
    · rw [List.getElem?_append_left (by omega)]
      exact ih hlast
    · obtain rfl : i = length := by omega
      have hmod := Nat.mod_lt i hpositive
      have hinside : output.length - distance + i % distance < output.length := by omega
      rw [List.getElem?_append_right (by omega), hlength, List.getElem?_eq_getElem hinside]
      simp

/-- Byte after byte and all at once come to the same, also where they overlap. -/
theorem appendBack_eq :
    appendBack distance length output = output ++ repeated distance length output := by
  induction length with
  | zero => simp [appendBack, repeated]
  | succ length ih =>
    have hlength : (repeated distance length output).length = length :=
      length_repeated hpositive hwithin
    rw [appendBack_succ, repeated_succ, ih, List.append_assoc]
    congr 2
    rw [List.length_append, hlength]
    by_cases hshort : length < distance
    · -- the source still lies in what was there before
      rw [List.getElem?_append_left (by omega), Nat.mod_eq_of_lt hshort]
      congr 2
      omega
    · have hindex : output.length + length - distance - output.length = length - distance := by omega
      rw [List.getElem?_append_right (by omega), hindex,
        getElem?_repeated hpositive hwithin (by omega)]
      congr 3
      exact (Nat.mod_eq_sub_mod (by omega)).symm

theorem length_appendBack :
    (appendBack distance length output).length = output.length + length := by
  rw [appendBack_eq hpositive hwithin, List.length_append, length_repeated hpositive hwithin]

end

omit hpositive

end
end KatanaRecomp.Lib
