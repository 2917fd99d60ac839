import Mathlib.Data.List.Sort
import Mathlib.Order.Nat

/-! # Merging and tiling intervals

Half-open intervals of positions: a sorted list merged into separate intervals, and
pieces that follow one another without a gap. -/
namespace KatanaRecomp.Lib

/-- The interval that is open, and the sorted ones to come. -/
def mergeFrom (current : Nat × Nat) : List (Nat × Nat) → List (Nat × Nat)
  | [] => [current]
  | next :: rest =>
    if next.1 > current.2 then current :: mergeFrom next rest
    else mergeFrom (current.1, max current.2 next.2) rest

def mergeIntervals : List (Nat × Nat) → List (Nat × Nat)
  | [] => []
  | first :: rest => mergeFrom first rest

/-- The position lies in one of the intervals. -/
def Reaches (intervals : List (Nat × Nat)) (position : Nat) : Prop :=
  ∃ interval ∈ intervals, interval.1 ≤ position ∧ position < interval.2

variable {position : Nat} {rest : List (Nat × Nat)}

theorem reaches_cons {interval : Nat × Nat} : Reaches (interval :: rest) position ↔
      (interval.1 ≤ position ∧ position < interval.2) ∨ Reaches rest position := by
  simp [Reaches]

theorem reaches_perm {left right : List (Nat × Nat)} (h : left.Perm right) :
    Reaches left position ↔ Reaches right position := by
  simp [Reaches, h.mem_iff]

variable {current : Nat × Nat}

theorem reaches_mergeFrom
    (hsorted : (current :: rest).Pairwise fun left right => left.1 ≤ right.1) :
    Reaches (mergeFrom current rest) position ↔ Reaches (current :: rest) position := by
  induction rest generalizing current with
  | nil => rfl
  | cons next rest ih =>
    obtain ⟨hcurrent, hrest⟩ := List.pairwise_cons.mp hsorted
    have hnext : current.1 ≤ next.1 := hcurrent next List.mem_cons_self
    unfold mergeFrom
    split
    · rw [reaches_cons, ih hrest, ← reaches_cons]
    · have hjoined : ((current.1, max current.2 next.2) :: rest).Pairwise
          fun left right => left.1 ≤ right.1 :=
        List.pairwise_cons.mpr ⟨fun other h => hcurrent other (List.mem_cons_of_mem _ h),
          (List.pairwise_cons.mp hrest).2⟩
      rw [ih hjoined, reaches_cons, reaches_cons, reaches_cons]
      dsimp only
      constructor
      · rintro (h | h)
        · omega
        · exact .inr (.inr h)
      · rintro (h | h | h)
        · exact .inl (by omega)
        · exact .inl (by omega)
        · exact .inr h

variable {intervals : List (Nat × Nat)}

theorem reaches_mergeIntervals (hsorted : intervals.Pairwise fun left right => left.1 ≤ right.1) :
    Reaches (mergeIntervals intervals) position ↔ Reaches intervals position := by
  cases intervals with
  | nil => rfl
  | cons first rest => exact reaches_mergeFrom hsorted

/-- Intervals inside a space, in order and apart. -/
structure Separate (size : Nat) (intervals : List (Nat × Nat)) : Prop where
  nonempty : ∀ interval ∈ intervals, interval.1 < interval.2
  inside : ∀ interval ∈ intervals, interval.2 ≤ size
  apart : intervals.Pairwise fun left right => left.2 < right.1

variable {size : Nat}

theorem separate_mergeFrom (hsorted : (current :: rest).Pairwise fun left right => left.1 ≤ right.1)
    (hnonempty : ∀ interval ∈ current :: rest, interval.1 < interval.2)
    (hinside : ∀ interval ∈ current :: rest, interval.2 ≤ size) :
    Separate size (mergeFrom current rest) ∧
      ∀ interval ∈ mergeFrom current rest, current.1 ≤ interval.1 := by
  induction rest generalizing current with
  | nil =>
    refine ⟨⟨hnonempty, hinside, List.pairwise_singleton _ _⟩, ?_⟩
    intro interval hmem
    rw [List.mem_singleton.mp hmem]
  | cons next rest ih =>
    obtain ⟨hcurrent, hrest⟩ := List.pairwise_cons.mp hsorted
    obtain ⟨hfirst, hnonempty⟩ := List.forall_mem_cons.mp hnonempty
    obtain ⟨hbound, hinside⟩ := List.forall_mem_cons.mp hinside
    unfold mergeFrom
    split
    · rename_i hgap
      obtain ⟨hseparate, hafter⟩ := ih hrest hnonempty hinside
      refine ⟨⟨List.forall_mem_cons.mpr ⟨hfirst, hseparate.nonempty⟩,
        List.forall_mem_cons.mpr ⟨hbound, hseparate.inside⟩,
        List.pairwise_cons.mpr ⟨fun other h => ?_, hseparate.apart⟩⟩,
        List.forall_mem_cons.mpr ⟨le_rfl, fun other h => ?_⟩⟩
      · have hother := hafter other h
        omega
      · have hother := hafter other h
        omega
    · obtain ⟨hnext, hnonempty⟩ := List.forall_mem_cons.mp hnonempty
      obtain ⟨hnextBound, hinside⟩ := List.forall_mem_cons.mp hinside
      have hjoined : ((current.1, max current.2 next.2) :: rest).Pairwise
          fun left right => left.1 ≤ right.1 :=
        List.pairwise_cons.mpr ⟨fun other h => hcurrent other (List.mem_cons_of_mem _ h),
          (List.pairwise_cons.mp hrest).2⟩
      refine ih hjoined (List.forall_mem_cons.mpr ⟨?_, hnonempty⟩)
        (List.forall_mem_cons.mpr ⟨?_, hinside⟩)
      · dsimp only
        omega
      · dsimp only
        omega

theorem separate_mergeIntervals (hsorted : intervals.Pairwise fun left right => left.1 ≤ right.1)
    (hnonempty : ∀ interval ∈ intervals, interval.1 < interval.2)
    (hinside : ∀ interval ∈ intervals, interval.2 ≤ size) :
    Separate size (mergeIntervals intervals) := by
  cases intervals with
  | nil => exact ⟨fun _ h => (nomatch h), fun _ h => (nomatch h), List.Pairwise.nil⟩
  | cons first rest => exact (separate_mergeFrom hsorted hnonempty hinside).1

/-- Pieces, each an offset and a size, that fill the positions from `cursor` up to `size`. -/
def TilesFrom (size cursor : Nat) : List (Nat × Nat) → Prop
  | [] => cursor = size
  | piece :: rest => piece.1 = cursor ∧ 0 < piece.2 ∧ TilesFrom size (cursor + piece.2) rest

variable {pieces : List (Nat × Nat)}

theorem TilesFrom.le {cursor : Nat} (h : TilesFrom size cursor pieces) : cursor ≤ size := by
  induction pieces generalizing cursor with
  | nil => exact Nat.le_of_eq h
  | cons piece rest ih =>
    have hle := ih h.2.2
    omega

theorem TilesFrom.reaches {cursor : Nat}
    (h : TilesFrom size cursor pieces) (hlow : cursor ≤ position) (hhigh : position < size) :
    ∃ piece ∈ pieces, piece.1 ≤ position ∧ position < piece.1 + piece.2 := by
  induction pieces generalizing cursor with
  | nil =>
    have hend : cursor = size := h
    omega
  | cons piece rest ih =>
    obtain ⟨hstart, -, hrest⟩ := h
    by_cases hin : position < cursor + piece.2
    · exact ⟨piece, List.mem_cons_self, by omega, by omega⟩
    · obtain ⟨other, hother, hposition⟩ := ih hrest (by omega)
      exact ⟨other, List.mem_cons_of_mem _ hother, hposition⟩

end KatanaRecomp.Lib
