import KatanaRecomp.Lib.StateExcept
import KatanaRecomp.Analysis.FunctionAnalysis

/-! # Exact function ranges

Accepted ranges are in the order of their entries, each entry once, and two of
them overlap only when they end together. So the walk back from the upper bound
finds every range that contains an address. -/
namespace KatanaRecomp.Analysis
open Lib

/-- The boundary declares the range. -/
def Declares (boundary : FunctionBoundary) (range : ExactFunctionOwnershipRange) : Prop :=
  boundary.size ≠ 0 ∧ range.entry = boundary.entryAddress ∧
    range.finish = boundary.entryAddress.toNat + boundary.size.toNat

section
variable {ranges next : List ExactFunctionOwnershipRange} {entry : BitVec 32} {finish : Nat}

theorem exactEnd_eq_some (h : exactEnd ranges entry = some finish) :
    (⟨entry, finish⟩ : ExactFunctionOwnershipRange) ∈ ranges := by
  unfold exactEnd at h
  obtain ⟨range, hfind, rfl⟩ := Option.map_eq_some_iff.mp h
  have hentry : range.entry = entry := by simpa using List.find?_some hfind
  rw [← hentry]
  exact List.mem_of_find?_eq_some hfind

theorem exactEnd_eq_none (h : exactEnd ranges entry = none) : entry ∉ ranges.map (·.entry) := by
  unfold exactEnd at h
  rw [Option.map_eq_none_iff, List.find?_eq_none] at h
  intro hmem
  obtain ⟨range, hrange, rfl⟩ := List.mem_map.mp hmem
  exact h range hrange (beq_self_eq_true range.entry)

variable {range : ExactFunctionOwnershipRange}

/-- Where no entry has two ranges, the end of a range is the one of its entry. -/
theorem exactEnd_of_mem (hnodup : (ranges.map (·.entry)).Nodup) (hmem : range ∈ ranges) :
    exactEnd ranges range.entry = some range.finish := by
  cases hfound : exactEnd ranges range.entry with
  | none => exact absurd (List.mem_map_of_mem hmem) (exactEnd_eq_none hfound)
  | some found =>
    have hsame := List.inj_on_of_nodup_map hnodup (exactEnd_eq_some hfound) hmem rfl
    rw [← hsame]

/-- A boundary that is accepted declares nothing, a range that is there, or a new one. -/
theorem acceptBoundary_cases {boundary : FunctionBoundary}
    (h : acceptBoundary ranges boundary = .ok next) : (boundary.size = 0 ∧ next = ranges) ∨
      ∃ range, Declares boundary range ∧ (range ∈ ranges ∧ next = ranges ∨
          range.entry ∉ ranges.map (·.entry) ∧ next = ranges ++ [range]) := by
  unfold acceptBoundary at h
  dsimp only at h
  split at h
  · rename_i hzero
    exact Or.inl ⟨hzero, (Except.ok.inj h).symm⟩
  rename_i hsize
  split at h
  · cases h
  right
  refine ⟨⟨boundary.entryAddress, boundary.entryAddress.toNat + boundary.size.toNat⟩,
    ⟨hsize, rfl, rfl⟩, ?_⟩
  split at h
  · rename_i existing hexisting
    split at h
    · cases h
    · rename_i hsame
      rw [not_not] at hsame
      rw [← hsame]
      exact Or.inl ⟨exactEnd_eq_some hexisting, (Except.ok.inj h).symm⟩
  · rename_i hnone
    exact Or.inr ⟨exactEnd_eq_none hnone, (Except.ok.inj h).symm⟩

variable {boundaries : List FunctionBoundary}

/-- The ranges collected are those the boundaries declare, each entry once. -/
theorem foldlM_acceptBoundary (h : boundaries.foldlM acceptBoundary ranges = .ok next)
    (hnodup : (ranges.map (·.entry)).Nodup) : (next.map (·.entry)).Nodup ∧ ∀ range, range ∈ next ↔
      range ∈ ranges ∨ ∃ boundary ∈ boundaries, Declares boundary range := by
  induction boundaries generalizing ranges with
  | nil =>
    have hsame : ranges = next := Except.ok.inj h
    rw [← hsame]
    exact ⟨hnodup, fun range => by simp⟩
  | cons boundary rest ih =>
    rw [List.foldlM_cons] at h
    obtain ⟨after, haccept, hrest⟩ := bind_eq_ok h
    obtain ⟨hzero, hsame⟩ | ⟨range, hdeclares, hadded⟩ := acceptBoundary_cases haccept
    · rw [hsame] at hrest
      obtain ⟨hunique, hmem⟩ := ih hrest hnodup
      refine ⟨hunique, fun other => (hmem other).trans ?_⟩
      rw [List.exists_mem_cons_iff]
      refine or_congr_right (iff_or_self.mpr fun hother => ?_)
      exact absurd hzero hother.1
    · have hnext : (after.map (·.entry)).Nodup ∧
          ∀ other, other ∈ after ↔ other ∈ ranges ∨ Declares boundary other := by
        have honly : ∀ other, Declares boundary other → other = range := by
          rintro ⟨entry, finish⟩ ⟨-, hentry, hfinish⟩
          obtain ⟨-, hentry', hfinish'⟩ := hdeclares
          cases range
          simp_all
        obtain ⟨hmem, rfl⟩ | ⟨hnew, rfl⟩ := hadded
        · refine ⟨hnodup, fun other => (or_iff_left_of_imp fun hother => ?_).symm⟩
          rw [honly other hother]
          exact hmem
        · constructor
          · rw [List.map_append, List.nodup_append]
            refine ⟨hnodup, List.nodup_singleton _, ?_⟩
            intro old hold last hlast heq
            rw [List.map_singleton, List.mem_singleton] at hlast
            rw [heq, hlast] at hold
            exact hnew hold
          · intro other
            rw [List.mem_append, List.mem_singleton]
            refine or_congr_right ⟨fun heq => ?_, honly other⟩
            rw [heq]
            exact hdeclares
      obtain ⟨hunique, hmem⟩ := ih hrest hnext.1
      refine ⟨hunique, fun other => (hmem other).trans ?_⟩
      rw [hnext.2, List.exists_mem_cons_iff, or_assoc]

/-- What `acceptRanges` lets through. -/
structure AcceptedRanges (boundaries : List FunctionBoundary)
    (ranges : List ExactFunctionOwnershipRange) : Prop where
  declared : ∀ range, range ∈ ranges ↔ ∃ boundary ∈ boundaries, Declares boundary range
  sorted : ranges.Pairwise fun range next => range.entry < next.entry
  agree : ranges.Pairwise fun range next =>
    next.entry.toNat < range.finish → next.finish = range.finish

/-- Neighbours that agree make all ranges agree. -/
theorem agree_of_neighbours (hsorted : ranges.Pairwise fun range next => range.entry < next.entry)
    (h : neighboursAgree ranges = true) : ranges.Pairwise fun range next =>
      next.entry.toNat < range.finish → next.finish = range.finish := by
  induction ranges with
  | nil => exact List.Pairwise.nil
  | cons first rest ih =>
    obtain ⟨hfirst, hrest⟩ := List.pairwise_cons.mp hsorted
    cases rest with
    | nil => exact List.pairwise_singleton _ first
    | cons second rest =>
      unfold neighboursAgree at h
      rw [Bool.and_eq_true_iff, Bool.or_eq_true_iff, beq_iff_eq, decide_eq_true_eq] at h
      obtain ⟨hagree, hbehind⟩ := h
      have htail := ih hrest hbehind
      refine List.pairwise_cons.mpr ⟨?_, htail⟩
      intro range hmem hinside
      obtain rfl | hmem := List.mem_cons.mp hmem
      · omega
      · have hless := (List.pairwise_cons.mp hrest).1 range hmem
        have hlater := (List.pairwise_cons.mp htail).1 range hmem
        rw [BitVec.lt_def] at hless
        have hends : second.finish = first.finish := by omega
        rw [← hends] at hinside ⊢
        exact hlater hinside

theorem acceptRanges_spec
    (h : acceptRanges boundaries = .ok ranges) : AcceptedRanges boundaries ranges := by
  unfold acceptRanges at h
  obtain ⟨collected, hcollect, hrest⟩ := bind_eq_ok h
  dsimp only at hrest
  split at hrest
  · rename_i hagree
    have hsame := Except.ok.inj hrest
    obtain ⟨hnodup, hmem⟩ := foldlM_acceptBoundary hcollect List.nodup_nil
    have hperm := List.perm_insertionSort
      (fun left right : ExactFunctionOwnershipRange => left.entry ≤ right.entry) collected
    rw [hsame] at hperm hagree
    have hunique : (ranges.map (·.entry)).Nodup := ((hperm.map _).nodup_iff).mpr hnodup
    have hordered : ranges.Pairwise fun range next => range.entry ≤ next.entry := by
      rw [← hsame]
      exact List.pairwise_insertionSort _ collected
    have hsorted : ranges.Pairwise fun range next => range.entry < next.entry := by
      have hdistinct := List.pairwise_map.mp hunique
      refine (hordered.and hdistinct).imp ?_
      rintro range next ⟨hle, hne⟩
      have hvalue : range.entry.toNat ≠ next.entry.toNat :=
        fun heq => hne (BitVec.eq_of_toNat_eq heq)
      rw [BitVec.le_def] at hle
      rw [BitVec.lt_def]
      omega
    refine ⟨fun range => ?_, hsorted, agree_of_neighbours hsorted hagree⟩
    rw [hperm.mem_iff, hmem]
    simp
  · cases hrest

/-- Where the test holds of all before an element that passes it, `takeWhile` keeps it. -/
theorem mem_takeWhile_iff {α : Type} {p : α → Bool} {l : List α}
    (h : l.Pairwise fun before a => p a = true → p before = true) {a : α} :
    a ∈ l.takeWhile p ↔ a ∈ l ∧ p a = true := by
  induction l with
  | nil => simp
  | cons first rest ih =>
    obtain ⟨hfirst, hrest⟩ := List.pairwise_cons.mp h
    by_cases hp : p first = true
    · rw [List.takeWhile_cons_of_pos hp, List.mem_cons, ih hrest, List.mem_cons]
      constructor
      · rintro (rfl | ⟨hmem, ha⟩)
        · exact ⟨Or.inl rfl, hp⟩
        · exact ⟨Or.inr hmem, ha⟩
      · rintro ⟨rfl | hmem, ha⟩
        · exact Or.inl rfl
        · exact Or.inr ⟨hmem, ha⟩
    · rw [List.takeWhile_cons_of_neg hp, List.mem_cons]
      constructor
      · intro hnone
        exact absurd hnone List.not_mem_nil
      · rintro ⟨rfl | hmem, ha⟩
        · exact absurd ha hp
        · exact absurd (hfirst a hmem ha) hp

/-- The walk back from the upper bound finds every range that contains the address. -/
theorem mem_exactFunctionOwners (h : AcceptedRanges boundaries ranges) {address : BitVec 32} :
    range ∈ exactFunctionOwners ranges address ↔ range ∈ ranges ∧ range.Contains address := by
  unfold exactFunctionOwners ExactFunctionOwnershipRange.Contains
  have hbefore : ranges.Pairwise fun before range =>
      decide (range.entry ≤ address) = true → decide (before.entry ≤ address) = true := by
    refine h.sorted.imp ?_
    intro before range hlt hle
    rw [decide_eq_true_eq] at hle ⊢
    exact BitVec.le_trans (BitVec.le_of_lt hlt) hle
  have hback : (ranges.takeWhile fun range => range.entry ≤ address).reverse.Pairwise
      fun later range => decide (address.toNat < range.finish) = true →
        decide (address.toNat < later.finish) = true := by
    rw [List.pairwise_reverse]
    have hkept := h.agree.sublist (List.takeWhile_sublist
      fun range : ExactFunctionOwnershipRange => decide (range.entry ≤ address))
    refine hkept.imp_of_mem ?_
    intro range later hrange hlater hagree hinside
    rw [decide_eq_true_eq] at hinside ⊢
    have hle := ((mem_takeWhile_iff hbefore).mp hlater).2
    rw [decide_eq_true_eq, BitVec.le_def] at hle
    have hends := hagree (by omega)
    omega
  rw [mem_takeWhile_iff hback, List.mem_reverse, mem_takeWhile_iff hbefore, decide_eq_true_eq,
    decide_eq_true_eq, and_assoc]

end
end KatanaRecomp.Analysis
