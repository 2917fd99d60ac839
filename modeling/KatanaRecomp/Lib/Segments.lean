import Mathlib.Data.List.Basic

/-! # A range cut into segments

Each cut begins a segment that ends at the next cut, the last one at the end of
the range. Cuts in strict order make segments that lie side by side. -/
namespace KatanaRecomp.Lib

/-- Where the segment at a position among the cuts ends. -/
def segmentEnd (total : Nat) (cuts : List Nat) (position : Nat) : Nat :=
  cuts.getD (position + 1) total

namespace Segments
variable {total : Nat} {cuts : List Nat} {position first : Nat}

theorem getElem?_lt (hsorted : cuts.Pairwise (· < ·)) {earlier later low high : Nat}
    (hlow : cuts[earlier]? = some low) (hhigh : cuts[later]? = some high)
    (hlt : earlier < later) : low < high := by
  obtain ⟨hearlier, rfl⟩ := List.getElem?_eq_some_iff.mp hlow
  obtain ⟨hlater, rfl⟩ := List.getElem?_eq_some_iff.mp hhigh
  exact List.pairwise_iff_getElem.mp hsorted earlier later hearlier hlater hlt

/-- A segment ends at the next cut, or with the range. -/
theorem segmentEnd_cases (total : Nat) (cuts : List Nat) (position : Nat) :
    cuts[position + 1]? = some (segmentEnd total cuts position) ∨
      cuts.length ≤ position + 1 ∧ segmentEnd total cuts position = total := by
  unfold segmentEnd
  rw [List.getD_eq_getElem?_getD]
  cases hnext : cuts[position + 1]? with
  | some next => exact Or.inl rfl
  | none => exact Or.inr ⟨List.getElem?_eq_none_iff.mp hnext, rfl⟩

theorem lt_segmentEnd (hsorted : cuts.Pairwise (· < ·)) (hwithin : ∀ cut ∈ cuts, cut < total)
    (hfirst : cuts[position]? = some first) : first < segmentEnd total cuts position := by
  obtain hnext | ⟨-, hend⟩ := segmentEnd_cases total cuts position
  · exact getElem?_lt hsorted hfirst hnext (Nat.lt_succ_self position)
  · rw [hend]
    exact hwithin first (List.mem_of_getElem? hfirst)

theorem segmentEnd_le (hwithin : ∀ cut ∈ cuts, cut < total) :
    segmentEnd total cuts position ≤ total := by
  obtain hnext | ⟨-, hend⟩ := segmentEnd_cases total cuts position
  · exact Nat.le_of_lt (hwithin _ (List.mem_of_getElem? hnext))
  · exact Nat.le_of_eq hend

/-- A segment that ends inside the range ends at a cut. -/
theorem segmentEnd_mem (hinside : segmentEnd total cuts position < total) :
    segmentEnd total cuts position ∈ cuts := by
  obtain hnext | ⟨-, hend⟩ := segmentEnd_cases total cuts position
  · exact List.mem_of_getElem? hnext
  · omega

/-- No cut is inside a segment. -/
theorem segmentEnd_le_of_mem (hsorted : cuts.Pairwise (· < ·))
    (hfirst : cuts[position]? = some first) {cut : Nat} (hmem : cut ∈ cuts) (hlt : first < cut) :
    segmentEnd total cuts position ≤ cut := by
  obtain ⟨place, hplace⟩ := List.mem_iff_getElem?.mp hmem
  have hbehind : position < place := by
    by_contra hnot
    obtain heq | hbefore := Nat.eq_or_lt_of_le (Nat.le_of_not_lt hnot)
    · rw [heq, hfirst] at hplace
      have hsame := Option.some.inj hplace
      omega
    · have hless := getElem?_lt hsorted hplace hfirst hbefore
      omega
  obtain hnext | ⟨hshort, -⟩ := segmentEnd_cases total cuts position
  · obtain heq | hbefore := Nat.eq_or_lt_of_le (Nat.succ_le_of_lt hbehind)
    · rw [← heq, Nat.succ_eq_add_one, hnext] at hplace
      exact Nat.le_of_eq (Option.some.inj hplace)
    · exact Nat.le_of_lt (getElem?_lt hsorted hnext hplace hbefore)
  · have hplaced := (List.getElem?_eq_some_iff.mp hplace).1
    omega

/-- Two segments lie one behind the other. -/
theorem segmentEnd_le_first (hsorted : cuts.Pairwise (· < ·)) {later start : Nat}
    (hfirst : cuts[position]? = some first) (hstart : cuts[later]? = some start)
    (hlt : position < later) : segmentEnd total cuts position ≤ start :=
  segmentEnd_le_of_mem hsorted hfirst (List.mem_of_getElem? hstart)
    (getElem?_lt hsorted hfirst hstart hlt)

/-- What is behind some cut is in a segment. -/
theorem exists_segment {place : Nat} (hplace : place < total) (hcut : ∃ cut ∈ cuts, cut ≤ place) :
    ∃ position first, cuts[position]? = some first ∧ first ≤ place ∧
      place < segmentEnd total cuts position := by
  induction cuts with
  | nil =>
    obtain ⟨cut, hmem, -⟩ := hcut
    exact absurd hmem List.not_mem_nil
  | cons first rest ih =>
    by_cases hrest : ∃ cut ∈ rest, cut ≤ place
    · obtain ⟨position, start, hstart, hle, hlt⟩ := ih hrest
      exact ⟨position + 1, start, hstart, hle, hlt⟩
    · obtain ⟨cut, hmem, hle⟩ := hcut
      have hfirst : first ≤ place := by
        obtain heq | hbehind := List.mem_cons.mp hmem
        · rw [← heq]
          exact hle
        · exact absurd ⟨cut, hbehind, hle⟩ hrest
      refine ⟨0, first, rfl, hfirst, ?_⟩
      obtain hnext | ⟨-, hend⟩ := segmentEnd_cases total (first :: rest) 0
      · by_contra hnot
        exact hrest ⟨_, List.mem_of_getElem? hnext, Nat.le_of_not_lt hnot⟩
      · rw [hend]
        exact hplace

end Segments
end KatanaRecomp.Lib
