import KatanaRecomp.Analysis.FunctionRanges

/-! # Owners of an address among exact ranges

The discovery walks back over all ranges that reach an address. The lowering takes the
last range in front of the address and walks back over those that end with it, where
a scan of the whole list once took the first range with the address behind its entry. -/
namespace KatanaRecomp.Analysis

def FunctionBoundary.finish (boundary : FunctionBoundary) : Nat :=
  boundary.entryAddress.toNat + boundary.size.toNat

/-- The address lies in the range behind its entry. -/
def FunctionBoundary.owns (address : BitVec 32) (boundary : FunctionBoundary) : Bool :=
  decide (boundary.entryAddress < address) && decide (address.toNat < boundary.finish)

theorem FunctionBoundary.owns_iff {address : BitVec 32} {boundary : FunctionBoundary} :
    boundary.owns address = true ↔
      boundary.entryAddress < address ∧ address.toNat < boundary.finish := by
  unfold owns
  rw [Bool.and_eq_true, decide_eq_true_eq, decide_eq_true_eq]

def exactBoundaries (boundaries : List FunctionBoundary) : List FunctionBoundary :=
  boundaries.filter (·.size ≠ 0)

/-- The loop over the boundaries before `owner`, the nearest first. -/
def earliestOwner (address : BitVec 32) (finish : Nat) (owner : FunctionBoundary) :
    List FunctionBoundary → FunctionBoundary
  | [] => owner
  | previous :: earlier =>
    if previous.finish ≠ finish ∨ address ≤ previous.entryAddress then owner
    else earliestOwner address finish previous earlier

/-- The boundaries before `std::upper_bound`, the nearest first. -/
def boundariesBefore (boundaries : List FunctionBoundary) (address : BitVec 32) :
    List FunctionBoundary :=
  ((exactBoundaries boundaries).takeWhile (·.entryAddress ≤ address)).reverse

def findExactBoundaryOwner (boundaries : List FunctionBoundary) (address : BitVec 32) :
    Option FunctionBoundary :=
  match boundariesBefore boundaries address with
  | [] => none
  | owner :: earlier =>
    if address ≤ owner.entryAddress ∨ address.toNat ≥ owner.finish then none
    else some (earliestOwner address owner.finish owner earlier)

/-- The scan for the first range that owns the address. -/
def firstOwner (boundaries : List FunctionBoundary) (address : BitVec 32) :
    Option FunctionBoundary := (exactBoundaries boundaries).find? (·.owns address)

/-! ## The walk back -/

/-- Behind a range that owns the address no range before it fails to, up to the last one. -/
def ReachesBack (address : BitVec 32) (before : List FunctionBoundary) : Prop :=
  before.Pairwise fun owner previous =>
    previous.owns address = true → owner.owns address = true ∧ previous.finish = owner.finish

theorem find?_reverse_earliestOwner {address : BitVec 32} {owner : FunctionBoundary}
    {earlier : List FunctionBoundary} (howns : owner.owns address = true)
    (h : ReachesBack address (owner :: earlier)) :
    (owner :: earlier).reverse.find? (·.owns address) =
      some (earliestOwner address owner.finish owner earlier) := by
  induction earlier generalizing owner with
  | nil => simp [howns, earliestOwner]
  | cons previous earlier ih =>
    obtain ⟨howner, hrest⟩ := List.pairwise_cons.mp h
    rw [List.reverse_cons, List.find?_append]
    unfold earliestOwner
    by_cases hprevious : previous.owns address = true
    · obtain ⟨-, hfinish⟩ := howner previous List.mem_cons_self hprevious
      have hentry : ¬ address ≤ previous.entryAddress :=
        BitVec.not_le.mpr (FunctionBoundary.owns_iff.mp hprevious).1
      rw [if_neg (by rw [not_or, not_not]; exact ⟨hfinish, hentry⟩), ih hprevious hrest, hfinish]
      rfl
    · have hnone : (previous :: earlier).reverse.find? (·.owns address) = none := by
        rw [List.find?_eq_none]
        intro other hother howns'
        obtain rfl | hother := List.mem_cons.mp (List.mem_reverse.mp hother)
        · exact hprevious howns'
        · exact hprevious ((List.pairwise_cons.mp hrest).1 other hother howns').1
      have hstop : previous.finish ≠ owner.finish ∨ address ≤ previous.entryAddress := by
        rw [FunctionBoundary.owns_iff] at howns hprevious
        rw [BitVec.lt_def] at hprevious
        rw [BitVec.le_def]
        omega
      rw [hnone, Option.none_or, if_pos hstop, List.find?_singleton, if_pos howns]

/-! ## Accepted boundaries -/

/-- As a `std::map` lists them. -/
abbrev InOrder (boundaries : List FunctionBoundary) : Prop :=
  boundaries.Pairwise fun before next => before.entryAddress < next.entryAddress

/-- The first one is entered before the other, and where they overlap they end together. -/
def FunctionBoundary.Precedes (before next : FunctionBoundary) : Prop :=
  before.entryAddress < next.entryAddress ∧
    (next.entryAddress.toNat < before.finish → next.finish = before.finish)

section
variable {boundaries : List FunctionBoundary} {ranges : List ExactFunctionOwnershipRange}

theorem agree_of_mem (h : AcceptedRanges boundaries ranges) {range next : ExactFunctionOwnershipRange}
    (hrange : range ∈ ranges) (hnext : next ∈ ranges) (hlt : range.entry < next.entry) :
    next.entry.toNat < range.finish → next.finish = range.finish := by
  obtain ⟨front, rear, rfl⟩ := List.append_of_mem hrange
  have hsorted := h.sorted
  have hagree := h.agree
  rw [List.pairwise_append, List.pairwise_cons] at hsorted hagree
  obtain hnext | hnext := List.mem_append.mp hnext
  · exact absurd hlt (BitVec.not_lt.mpr
      (BitVec.le_of_lt (hsorted.2.2 next hnext range List.mem_cons_self)))
  obtain rfl | hnext := List.mem_cons.mp hnext
  · exact absurd hlt (BitVec.lt_irrefl _)
  · exact hagree.2.1.1 next hnext

/-- Boundaries in order that are accepted end together where they overlap. -/
theorem exactBoundaries_agree
    (hsorted : InOrder boundaries) (h : AcceptedRanges boundaries ranges) :
    (exactBoundaries boundaries).Pairwise FunctionBoundary.Precedes := by
  have hrange : ∀ boundary ∈ exactBoundaries boundaries,
      (⟨boundary.entryAddress, boundary.finish⟩ : ExactFunctionOwnershipRange) ∈ ranges := by
    intro boundary hboundary
    obtain ⟨hmem, hsize⟩ := List.mem_filter.mp hboundary
    exact (h.declared _).mpr ⟨boundary, hmem, of_decide_eq_true hsize, rfl, rfl⟩
  refine (hsorted.sublist List.filter_sublist).imp_of_mem ?_
  intro before next hbefore hnext hlt
  refine ⟨hlt, agree_of_mem h (hrange before hbefore) (hrange next hnext) hlt⟩

theorem pairwise_boundariesBefore
    (hsorted : InOrder boundaries) (h : AcceptedRanges boundaries ranges) (address : BitVec 32) :
    (boundariesBefore boundaries address).Pairwise fun next before => before.Precedes next :=
  List.pairwise_reverse.mpr ((exactBoundaries_agree hsorted h).sublist (List.takeWhile_sublist _))

section
variable {address : BitVec 32} {owner : FunctionBoundary} {earlier : List FunctionBoundary}
  (hback : (owner :: earlier).Pairwise fun next before => before.Precedes next)
include hback

theorem entry_lt_of_nearest (hbehind : owner.entryAddress < address) :
    ∀ boundary ∈ owner :: earlier, boundary.entryAddress < address := by
  intro boundary hboundary
  obtain rfl | hboundary := List.mem_cons.mp hboundary
  · exact hbehind
  · exact BitVec.lt_trans ((List.pairwise_cons.mp hback).1 boundary hboundary).1 hbehind

/-- Where the nearest boundary has the address behind its entry, the ranges before it that own
the address end with it. -/
theorem reachesBack_of_nearest
    (hbehind : owner.entryAddress < address) : ReachesBack address (owner :: earlier) := by
  refine hback.imp_of_mem ?_
  rintro next before hnext - ⟨hlt, hends⟩ howns
  have hnextLt := entry_lt_of_nearest hback hbehind next hnext
  have hnextNat := BitVec.lt_def.mp hnextLt
  rw [FunctionBoundary.owns_iff] at howns ⊢
  have hsame := hends (by omega)
  exact ⟨⟨hnextLt, by omega⟩, hsame.symm⟩

omit hback

end

/-- The address is an entry that lies inside another range. -/
def EnteredInside (boundaries : List FunctionBoundary) (address : BitVec 32) : Prop :=
  (∃ inner ∈ exactBoundaries boundaries, inner.entryAddress = address) ∧
    ∃ outer ∈ exactBoundaries boundaries, outer.owns address = true

/-- The nearest boundary is the one with the greatest entry up to the address. -/
theorem mem_boundariesBefore (hsorted : InOrder boundaries) {address : BitVec 32}
    {boundary : FunctionBoundary} : boundary ∈ boundariesBefore boundaries address ↔
      boundary ∈ exactBoundaries boundaries ∧ boundary.entryAddress ≤ address := by
  have hclosed : (exactBoundaries boundaries).Pairwise fun before next =>
      decide (next.entryAddress ≤ address) = true →
        decide (before.entryAddress ≤ address) = true := by
    refine (hsorted.sublist List.filter_sublist).imp ?_
    intro before next hlt hle
    rw [decide_eq_true_eq] at hle ⊢
    exact BitVec.le_trans (BitVec.le_of_lt hlt) hle
  unfold boundariesBefore
  rw [List.mem_reverse, mem_takeWhile_iff hclosed, decide_eq_true_eq]

theorem findExactBoundaryOwner_eq_iff
    (hsorted : InOrder boundaries) (h : AcceptedRanges boundaries ranges) (address : BitVec 32) :
    findExactBoundaryOwner boundaries address = firstOwner boundaries address ↔
      ¬ EnteredInside boundaries address := by
  have hmem := fun boundary => @mem_boundariesBefore _ hsorted address boundary
  have howner : ∀ outer ∈ exactBoundaries boundaries, outer.owns address = true →
      outer ∈ boundariesBefore boundaries address := fun outer houter howns =>
    (hmem outer).mpr ⟨houter, BitVec.le_of_lt (FunctionBoundary.owns_iff.mp howns).1⟩
  have hnone : (∀ outer ∈ exactBoundaries boundaries, ¬ outer.owns address = true) →
      firstOwner boundaries address = none := fun hno => List.find?_eq_none.mpr hno
  unfold findExactBoundaryOwner
  cases hbefore : boundariesBefore boundaries address with
  | nil =>
    have hno : ∀ outer ∈ exactBoundaries boundaries, ¬ outer.owns address = true := by
      intro outer houter howns
      have hempty := howner outer houter howns
      rw [hbefore] at hempty
      exact List.not_mem_nil hempty
    refine iff_of_true (hnone hno).symm ?_
    rintro ⟨-, outer, houter, howns⟩
    exact hno outer houter howns
  | cons owner earlier =>
    have hback := pairwise_boundariesBefore hsorted h address
    rw [hbefore] at hback howner
    have hhere : owner ∈ boundariesBefore boundaries address := by
      rw [hbefore]
      exact List.mem_cons_self
    obtain ⟨hexact, hle⟩ := (hmem owner).mp hhere
    dsimp only
    by_cases hentry : address ≤ owner.entryAddress
    · rw [if_pos (.inl hentry)]
      constructor
      · rintro heq ⟨-, outer, houter, howns⟩
        exact List.find?_eq_none.mp heq.symm outer houter howns
      · intro hapart
        refine (hnone fun outer houter howns =>
          hapart ⟨⟨owner, hexact, ?_⟩, outer, houter, howns⟩).symm
        exact BitVec.le_antisymm hle hentry
    have hbehind : owner.entryAddress < address := BitVec.not_le.mp hentry
    have hreaches := reachesBack_of_nearest hback hbehind
    have hapart : ¬ EnteredInside boundaries address := by
      rintro ⟨⟨inner, hinner, hsame⟩, -⟩
      have hlisted := (hmem inner).mpr ⟨hinner, by rw [hsame]; exact BitVec.le_refl _⟩
      rw [hbefore] at hlisted
      have hlt := entry_lt_of_nearest hback hbehind inner hlisted
      rw [hsame] at hlt
      exact BitVec.lt_irrefl _ hlt
    refine iff_of_true ?_ hapart
    by_cases howned : owner.owns address = true
    · have hend : ¬ address.toNat ≥ owner.finish :=
        Nat.not_le.mpr (FunctionBoundary.owns_iff.mp howned).2
      have hfound := find?_reverse_earliestOwner howned hreaches
      rw [← hbefore, boundariesBefore, List.reverse_reverse] at hfound
      rw [if_neg (by rw [not_or]; exact ⟨hentry, hend⟩), firstOwner,
        ← List.takeWhile_append_dropWhile (p := fun boundary : FunctionBoundary =>
          decide (boundary.entryAddress ≤ address)) (l := exactBoundaries boundaries),
        List.find?_append, hfound, Option.some_or]
    · have hend : address.toNat ≥ owner.finish :=
        Nat.le_of_not_lt fun hlt => howned (FunctionBoundary.owns_iff.mpr ⟨hbehind, hlt⟩)
      rw [if_pos (.inr hend)]
      refine (hnone fun outer houter howns => howned ?_).symm
      obtain rfl | hearlier := List.mem_cons.mp (howner outer houter howns)
      · exact howns
      · exact ((List.pairwise_cons.mp hreaches).1 outer hearlier howns).1

end

/-- The owners visited are the accepted ranges that contain the address, each once. -/
def VisitsExactly (ranges : List ExactFunctionOwnershipRange) (address : BitVec 32) : Prop :=
  (exactFunctionOwners ranges address).Nodup ∧
    ∀ range, range ∈ exactFunctionOwners ranges address ↔ range ∈ ranges ∧ range.Contains address

/-- The discovery always visits the ranges with the address. The lowering finds the first owner
exactly where the address is not an entry inside another range. -/
theorem exact_owner_lookups_complete_iff {boundaries : List FunctionBoundary}
    {ranges : List ExactFunctionOwnershipRange} (hsorted : InOrder boundaries)
    (haccept : acceptRanges boundaries = .ok ranges) (address : BitVec 32) :
    ((∀ seeds accepted, acceptRanges seeds = .ok accepted → VisitsExactly accepted address) ∧
        findExactBoundaryOwner boundaries address = firstOwner boundaries address) ↔
      ¬ EnteredInside boundaries address := by
  rw [findExactBoundaryOwner_eq_iff hsorted (acceptRanges_spec haccept) address]
  refine and_iff_right fun seeds accepted hseeds => ?_
  have h := acceptRanges_spec hseeds
  refine ⟨?_, fun range => mem_exactFunctionOwners h⟩
  have hnodup : accepted.Nodup := h.sorted.imp fun hlt heq => by
    rw [heq] at hlt
    exact BitVec.lt_irrefl _ hlt
  exact (List.nodup_reverse.mpr (hnodup.sublist (List.takeWhile_sublist _))).sublist
    (List.takeWhile_sublist _)

/-- Two ranges that end together, the second entered inside the first. -/
def nestedBoundaries : List FunctionBoundary :=
  [⟨0x8C010000, 0x20⟩, ⟨0x8C010010, 0x10⟩]

theorem acceptRanges_nestedBoundaries : acceptRanges nestedBoundaries =
    .ok [⟨0x8C010000, 0x8C010020⟩, ⟨0x8C010010, 0x8C010020⟩] := by
  decide +kernel

theorem exact_owner_lookups_complete_iff_nested :
    ((∀ seeds accepted, acceptRanges seeds = .ok accepted → VisitsExactly accepted 0x8C010014) ∧
        findExactBoundaryOwner nestedBoundaries 0x8C010014 =
          firstOwner nestedBoundaries 0x8C010014) ↔ ¬ EnteredInside nestedBoundaries 0x8C010014 :=
  exact_owner_lookups_complete_iff (by decide) acceptRanges_nestedBoundaries 0x8C010014

/-- At the inner entry the scan finds the outer range, the search none. -/
theorem inner_entry_has_no_owner : (∃ ranges, acceptRanges nestedBoundaries = .ok ranges) ∧
      firstOwner nestedBoundaries 0x8C010010 = some ⟨0x8C010000, 0x20⟩ ∧
      findExactBoundaryOwner nestedBoundaries 0x8C010010 = none := by
  exact ⟨⟨_, acceptRanges_nestedBoundaries⟩, by decide, by decide⟩

end KatanaRecomp.Analysis
