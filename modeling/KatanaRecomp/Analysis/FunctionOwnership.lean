import KatanaRecomp.Analysis.FunctionRanges

/-! # Which function owns a block

The traversals end, every entry that counts makes a function, an exact range
keeps its blocks to its own functions, and whatever a function owns is reached
from its entry or from an entry inside its range. -/
namespace KatanaRecomp.Analysis
open Lib
open Sh4 (DisassemblyLine)
open DiscoveryInput (callTarget isComplete)

/-- Some boundary declares a range of the entry that contains the address. -/
def InRangeOf (boundaries : List FunctionBoundary) (entry address : BitVec 32) : Prop :=
  ∃ boundary ∈ boundaries, ∃ range, Declares boundary range ∧ range.entry = entry ∧
    range.Contains address

def HasExactRange (boundaries : List FunctionBoundary) (entry : BitVec 32) : Prop :=
  ∃ boundary ∈ boundaries, ∃ range, Declares boundary range ∧ range.entry = entry

def StartsBlock (blocks : List BasicBlock) (address : BitVec 32) : Prop :=
  ∃ block ∈ blocks, block.startAddress = address

/-- A seed or the target of a direct call. -/
def IsCandidate (blocks : List BasicBlock) (boundaries : List FunctionBoundary)
    (address : BitVec 32) : Prop := (∃ boundary ∈ boundaries, boundary.entryAddress = address) ∨
    ∃ block ∈ blocks, ∃ control, controllingLine block = some control ∧
      callTarget control = some address

/-- A resolved call to the address, complete if that is asked for. -/
def HasCallEdge (resolvedEdges : List ResolvedControlFlowEdge) (address : BitVec 32) : Prop :=
  ∃ edge ∈ resolvedEdges, edge.kind = .call ∧ edge.targetAddress = address

def HasCompleteCallEdge (resolvedEdges : List ResolvedControlFlowEdge) (address : BitVec 32) :
    Prop := ∃ edge ∈ resolvedEdges, isComplete edge = true ∧ edge.kind = .call ∧
    edge.targetAddress = address

/-- The address begins a block and a function: a seed or a call target that is the
entry of an exact range or in none. -/
def IsKnownEntry (blocks : List BasicBlock) (boundaries : List FunctionBoundary)
    (resolvedEdges : List ResolvedControlFlowEdge) (address : BitVec 32) : Prop :=
  (IsCandidate blocks boundaries address ∨ HasCompleteCallEdge resolvedEdges address) ∧
    StartsBlock blocks address ∧
    (HasExactRange boundaries address ∨ ∀ entry, ¬ InRangeOf boundaries entry address)

/-- The address begins a block inside the exact range of the owner, which a seed or
a call names. -/
def IsInteriorEntry (blocks : List BasicBlock) (boundaries : List FunctionBoundary)
    (resolvedEdges : List ResolvedControlFlowEdge) (owner address : BitVec 32) : Prop :=
  (IsCandidate blocks boundaries address ∨ HasCallEdge resolvedEdges address) ∧
    StartsBlock blocks address ∧ ¬ HasExactRange boundaries address ∧
    InRangeOf boundaries owner address

/-- A successor edge that is not the call at the end of the block. -/
def FollowsTo (blocks : List BasicBlock) (address next : BitVec 32) : Prop :=
  ∃ block, blocks.find? (·.startAddress == address) = some block ∧ next ∈ block.successors ∧
    ∀ control, controllingLine block = some control → callTarget control ≠ some next

/-- What the functions of a program have to be. -/
structure FunctionsOwn (blocks : List BasicBlock) (boundaries : List FunctionBoundary)
    (resolvedEdges : List ResolvedControlFlowEdge) (functions : List FunctionInfo) : Prop where
  known : ∀ address, IsKnownEntry blocks boundaries resolvedEdges address →
    ∃ function ∈ functions, function.entryAddress = address
  within : ∀ function ∈ functions, HasExactRange boundaries function.entryAddress →
    ∀ address ∈ function.blockAddresses, InRangeOf boundaries function.entryAddress address
  exclusive : ∀ function ∈ functions, ∀ address ∈ function.blockAddresses, ∀ entry,
    InRangeOf boundaries entry address → InRangeOf boundaries function.entryAddress address
  reachable : ∀ function ∈ functions, ∀ address ∈ function.blockAddresses, ∃ root,
    (root = function.entryAddress ∨
      IsInteriorEntry blocks boundaries resolvedEdges function.entryAddress root) ∧
    Relation.ReflTransGen (FollowsTo blocks) root address

/-! ## The tests of the traversal -/

section
variable {input : DiscoveryInput} {entry address : BitVec 32}

theorem nodup_of_accepted {boundaries : List FunctionBoundary}
    {ranges : List ExactFunctionOwnershipRange} (h : AcceptedRanges boundaries ranges) :
    (ranges.map (·.entry)).Nodup := by
  unfold List.Nodup
  rw [List.pairwise_map]
  refine h.sorted.imp ?_
  intro range next hlt heq
  rw [heq] at hlt
  exact absurd hlt (BitVec.lt_irrefl _)

variable (h : AcceptedRanges input.boundaries input.exactRanges)
include h

theorem isExact_iff : input.isExact entry = true ↔ HasExactRange input.boundaries entry := by
  unfold DiscoveryInput.isExact HasExactRange
  constructor
  · intro hsome
    obtain ⟨finish, hfinish⟩ := Option.isSome_iff_exists.mp hsome
    obtain ⟨boundary, hmem, hdeclares⟩ := (h.declared _).mp (exactEnd_eq_some hfinish)
    exact ⟨boundary, hmem, _, hdeclares, rfl⟩
  · rintro ⟨boundary, hmem, range, hdeclares, rfl⟩
    rw [exactEnd_of_mem (nodup_of_accepted h) ((h.declared range).mpr ⟨boundary, hmem, hdeclares⟩)]
    rfl

theorem inCurrentExact_iff :
    input.inCurrentExact entry address = true ↔ InRangeOf input.boundaries entry address := by
  unfold DiscoveryInput.inCurrentExact InRangeOf ExactFunctionOwnershipRange.Contains
  rw [Option.any_eq_true]
  constructor
  · rintro ⟨finish, hfinish, hinside⟩
    obtain ⟨boundary, hmem, hdeclares⟩ := (h.declared _).mp (exactEnd_eq_some hfinish)
    rw [Bool.and_eq_true_iff, decide_eq_true_eq, decide_eq_true_eq] at hinside
    exact ⟨boundary, hmem, _, hdeclares, rfl, hinside⟩
  · rintro ⟨boundary, hmem, range, hdeclares, rfl, hinside⟩
    refine ⟨range.finish, ?_, ?_⟩
    · exact exactEnd_of_mem (nodup_of_accepted h)
        ((h.declared range).mpr ⟨boundary, hmem, hdeclares⟩)
    · rw [Bool.and_eq_true_iff, decide_eq_true_eq, decide_eq_true_eq]
      exact hinside

theorem hasExactOwner_iff :
    input.hasExactOwner address = true ↔ ∃ entry, InRangeOf input.boundaries entry address := by
  unfold DiscoveryInput.hasExactOwner InRangeOf
  rw [Bool.not_eq_true', List.isEmpty_eq_false_iff_exists_mem]
  constructor
  · rintro ⟨range, hrange⟩
    obtain ⟨hmem, hinside⟩ := (mem_exactFunctionOwners h).mp hrange
    obtain ⟨boundary, hboundary, hdeclares⟩ := (h.declared range).mp hmem
    exact ⟨range.entry, boundary, hboundary, range, hdeclares, rfl, hinside⟩
  · rintro ⟨entry, boundary, hboundary, range, hdeclares, -, hinside⟩
    exact ⟨range, (mem_exactFunctionOwners h).mpr
      ⟨(h.declared range).mpr ⟨boundary, hboundary, hdeclares⟩, hinside⟩⟩

omit h

theorem startsBlock_iff : input.startsBlock address = true ↔ StartsBlock input.blocks address := by
  unfold DiscoveryInput.startsBlock DiscoveryInput.blockByStart StartsBlock
  rw [List.find?_isSome]
  simp

theorem mem_entryCandidates :
    address ∈ input.entryCandidates ↔ IsCandidate input.blocks input.boundaries address := by
  unfold DiscoveryInput.entryCandidates IsCandidate
  rw [List.mem_append, List.mem_map, List.mem_filterMap]
  simp only [List.mem_filterMap]
  constructor
  · rintro (hseed | ⟨control, ⟨block, hblock, hcontrol⟩, htarget⟩)
    · exact Or.inl hseed
    · exact Or.inr ⟨block, hblock, control, hcontrol, htarget⟩
  · rintro (hseed | ⟨block, hblock, control, hcontrol, htarget⟩)
    · exact Or.inl hseed
    · exact Or.inr ⟨control, ⟨block, hblock, hcontrol⟩, htarget⟩

theorem mem_canonicalizeAddresses {values : List (BitVec 32)} :
    address ∈ canonicalizeAddresses values ↔ address ∈ values := by
  unfold canonicalizeAddresses
  rw [(List.perm_insertionSort _ _).mem_iff, List.mem_dedup]

include h

theorem mem_knownEntries : address ∈ input.knownEntries ↔
      IsKnownEntry input.blocks input.boundaries input.resolvedEdges address := by
  unfold DiscoveryInput.knownEntries IsKnownEntry HasCompleteCallEdge DiscoveryInput.callEdges
  rw [mem_canonicalizeAddresses, List.mem_filter, List.mem_append, mem_entryCandidates,
    Bool.and_eq_true_iff, Bool.or_eq_true_iff, startsBlock_iff, isExact_iff h, Bool.not_eq_true',
    ← Bool.not_eq_true, hasExactOwner_iff h, not_exists]
  refine and_congr_left' (or_congr_right ?_)
  simp [and_assoc]

theorem mem_interiorEntries : address ∈ input.interiorEntries entry ↔
      IsInteriorEntry input.blocks input.boundaries input.resolvedEdges entry address := by
  unfold DiscoveryInput.interiorEntries IsInteriorEntry HasCallEdge DiscoveryInput.callEdges
  have howner : (exactFunctionOwners input.exactRanges address).any (·.entry == entry) = true ↔
      InRangeOf input.boundaries entry address := by
    rw [List.any_eq_true]
    unfold InRangeOf
    constructor
    · rintro ⟨range, hrange, hentry⟩
      obtain ⟨hmem, hinside⟩ := (mem_exactFunctionOwners h).mp hrange
      obtain ⟨boundary, hboundary, hdeclares⟩ := (h.declared range).mp hmem
      exact ⟨boundary, hboundary, range, hdeclares, by simpa using hentry, hinside⟩
    · rintro ⟨boundary, hboundary, range, hdeclares, hentry, hinside⟩
      exact ⟨range, (mem_exactFunctionOwners h).mpr
        ⟨(h.declared range).mpr ⟨boundary, hboundary, hdeclares⟩, hinside⟩, by simpa using hentry⟩
  rw [mem_canonicalizeAddresses, List.mem_filter, List.mem_append, mem_entryCandidates,
    Bool.and_eq_true_iff, Bool.and_eq_true_iff, startsBlock_iff, Bool.not_eq_true',
    ← Bool.not_eq_true, isExact_iff h, howner, and_assoc]
  refine and_congr_left' (or_congr_right ?_)
  simp [and_assoc]

omit h

end

/-! ## The traversals end -/

section
variable (input : DiscoveryInput)

theorem remaining_nil (cost : BitVec 32 → Nat) (leading : List (BitVec 32)) :
    Explore.remaining cost leading [] = (leading.map cost).sum := by
  simp [Explore.remaining]

theorem blockByStart_of_notMem {address : BitVec 32} (h : address ∉ input.blockStarts) :
    input.blockByStart address = none := by
  unfold DiscoveryInput.blockByStart
  rw [List.find?_eq_none]
  intro block hmem heq
  apply h
  unfold DiscoveryInput.blockStarts
  rw [List.mem_map]
  exact ⟨block, hmem, by simpa using heq⟩

theorem nextBlocks_length_le (entry : BitVec 32) (block : BasicBlock) :
    (input.nextBlocks entry block).length ≤
      1 + input.resolvedEdges.length + block.successors.length := by
  unfold DiscoveryInput.nextBlocks
  cases controllingLine block with
  | none => simp
  | some control =>
    have htarget := Nat.le_trans (List.length_filter_le (fun target =>
      input.isLocalTarget entry target && input.startsBlock target) (callTarget control).toList)
      Option.length_toList_le
    have hedges := List.length_filter_le (fun edge =>
      input.isLocalTarget entry edge.targetAddress && isComplete edge &&
        input.startsBlock edge.targetAddress) (input.edgesAt control.address)
    have hat := List.length_filter_le (·.instructionAddress == control.address) input.callEdges
    have hcalls := List.length_filter_le (fun edge : ResolvedControlFlowEdge =>
      decide (edge.kind = .call)) input.resolvedEdges
    have hfollowed := List.length_filter_le (fun successor =>
      !input.crossesExact entry successor && callTarget control != some successor &&
        !input.isOtherEntry entry successor) block.successors
    simp only [Option.elim_some, List.length_append, List.length_map]
    unfold DiscoveryInput.followedSuccessors
    unfold DiscoveryInput.edgesAt at hedges ⊢
    unfold DiscoveryInput.callEdges at hedges hat ⊢
    omega

theorem ownedBlock_eq_some {entry address : BitVec 32} {block : BasicBlock}
    (h : input.ownedBlock entry address = some block) : input.blockByStart address = some block ∧
      (input.hasExactOwner address = true → input.inCurrentExact entry address = true) ∧
      (input.isExact entry = true → input.inCurrentExact entry address = true) := by
  unfold DiscoveryInput.ownedBlock at h
  split at h
  · cases h
  split at h
  · cases h
  rename_i howner
  split at h
  · cases h
  rename_i hexact
  refine ⟨h, fun hhas => ?_, fun hhas => ?_⟩
  · simpa [hhas] using howner
  · simpa [hhas] using hexact

theorem exploreBlocks_ends (entry : BitVec 32) :
    ∃ visited, input.exploreBlocks entry (input.blockFuel entry) = some visited := by
  unfold DiscoveryInput.exploreBlocks
  apply Explore.explore_ends input.blockCost input.blockStarts
  · exact fun old new => List.length_append
  · intro address hnot
    unfold DiscoveryInput.blockCost
    rw [blockByStart_of_notMem input hnot]
    rfl
  · intro seen address next hnext
    obtain ⟨block, howned, rfl⟩ := Option.map_eq_some_iff.mp hnext
    unfold DiscoveryInput.blockCost
    rw [(ownedBlock_eq_some input howned).1]
    exact nextBlocks_length_le input entry block
  · rw [remaining_nil]
    unfold DiscoveryInput.blockFuel
    omega

theorem exploreEntries_ends :
    ∃ processed, input.exploreEntries input.entryFuel = some processed := by
  unfold DiscoveryInput.exploreEntries
  apply Explore.explore_ends (fun entry => if entry ∈ input.blockStarts then
    (input.pendingCallees entry).length else 0) input.blockStarts
  · exact fun old new => List.length_append
  · intro entry hnot
    exact if_neg hnot
  · intro seen entry next hnext
    split at hnext
    · rename_i hstarts
      have hmem : entry ∈ input.blockStarts := by
        by_contra hnot
        unfold DiscoveryInput.startsBlock at hstarts
        rw [blockByStart_of_notMem input hnot] at hstarts
        cases hstarts
      rw [if_pos hmem, ← Option.some.inj hnext]
      exact List.length_filter_le _ _
    · cases hnext
  · rw [remaining_nil]
    have hsame : input.blockStarts.map (fun entry => if entry ∈ input.blockStarts then
        (input.pendingCallees entry).length else 0) =
        input.blockStarts.map fun entry => (input.pendingCallees entry).length :=
      List.map_congr_left fun entry hmem => if_pos hmem
    rw [hsame]
    unfold DiscoveryInput.entryFuel
    omega

end

/-! ## What a function owns -/

section
variable {input : DiscoveryInput} {entry address : BitVec 32}

/-- The address is reached from the entry of the function or from one inside its range. -/
def IsReached (input : DiscoveryInput) (entry address : BitVec 32) : Prop := ∃ root, (root = entry ∨
      IsInteriorEntry input.blocks input.boundaries input.resolvedEdges entry root) ∧
    Relation.ReflTransGen (FollowsTo input.blocks) root address

variable (h : AcceptedRanges input.boundaries input.exactRanges)
include h

/-- A local call target is the entry itself or an entry inside its range. -/
theorem isReached_of_local
    {target : BitVec 32} (hcalled : IsCandidate input.blocks input.boundaries target ∨
      HasCallEdge input.resolvedEdges target)
    (hstarts : input.startsBlock target = true) (hlocal : input.isLocalTarget entry target = true) :
    IsReached input entry target := by
  refine ⟨target, ?_, Relation.ReflTransGen.refl⟩
  unfold DiscoveryInput.isLocalTarget at hlocal
  rw [Bool.or_eq_true_iff, beq_iff_eq, Bool.and_eq_true_iff, inCurrentExact_iff h,
    Bool.not_eq_true', ← Bool.not_eq_true, isExact_iff h] at hlocal
  obtain heq | ⟨hinside, hnot⟩ := hlocal
  · exact Or.inl heq
  · exact Or.inr ⟨hcalled, startsBlock_iff.mp hstarts, hnot, hinside⟩

/-- What a reached block leads to is reached. -/
theorem isReached_of_nextBlocks
    {block : BasicBlock} (hblock : input.blockByStart address = some block)
    (hreached : IsReached input entry address) :
    ∀ next ∈ input.nextBlocks entry block, IsReached input entry next := by
  intro next hnext
  unfold DiscoveryInput.nextBlocks at hnext
  cases hcontrol : controllingLine block with
  | none =>
    rw [hcontrol] at hnext
    exact absurd hnext List.not_mem_nil
  | some control =>
    rw [hcontrol, Option.elim_some, List.mem_append, List.mem_append, List.mem_filter,
      List.mem_map] at hnext
    obtain (⟨htarget, htests⟩ | ⟨edge, hedge, rfl⟩) | hfollowed := hnext
    · rw [Bool.and_eq_true_iff] at htests
      refine isReached_of_local h (Or.inl (Or.inr ?_)) htests.2 htests.1
      exact ⟨block, List.mem_of_find?_eq_some hblock, control, hcontrol,
        Option.mem_toList.mp htarget⟩
    · obtain ⟨hat, htests⟩ := List.mem_filter.mp hedge
      rw [Bool.and_eq_true_iff, Bool.and_eq_true_iff] at htests
      refine isReached_of_local h (Or.inr ?_) htests.2 htests.1.1
      have hcall := List.mem_filter.mp (List.mem_filter.mp hat).1
      exact ⟨edge, hcall.1, by simpa using hcall.2, rfl⟩
    · unfold DiscoveryInput.followedSuccessors at hfollowed
      obtain ⟨hsuccessor, htests⟩ := List.mem_filter.mp hfollowed
      rw [Bool.and_eq_true_iff, Bool.and_eq_true_iff, bne_iff_ne] at htests
      obtain ⟨root, hroot, hpath⟩ := hreached
      refine ⟨root, hroot, hpath.tail ⟨block, hblock, hsuccessor, ?_⟩⟩
      intro other hother
      rw [hcontrol] at hother
      rw [← Option.some.inj hother]
      exact htests.1.2

/-- What holds of the blocks that a traversal visits. -/
theorem visitedBlocks_spec : ∀ address ∈ input.visitedBlocks entry, IsReached input entry address ∧
      (input.hasExactOwner address = true → input.inCurrentExact entry address = true) ∧
      (input.isExact entry = true → input.inCurrentExact entry address = true) := by
  obtain ⟨visited, hvisited⟩ := exploreBlocks_ends input entry
  intro address hmem
  unfold DiscoveryInput.visitedBlocks at hmem
  rw [hvisited, Option.getD_some, List.mem_reverse] at hmem
  unfold DiscoveryInput.exploreBlocks at hvisited
  refine Explore.explore_sound (P := IsReached input entry)
    (Q := fun address => IsReached input entry address ∧
      (input.hasExactOwner address = true → input.inCurrentExact entry address = true) ∧
      (input.isExact entry = true → input.inCurrentExact entry address = true))
    ?_ ?_ ?_ ?_ hvisited address hmem
  · exact fun old new place hplace => List.mem_append.mp hplace
  · intro seen place next hreached hexpand
    obtain ⟨block, howned, rfl⟩ := Option.map_eq_some_iff.mp hexpand
    obtain ⟨hblock, htests⟩ := ownedBlock_eq_some input howned
    exact ⟨⟨hreached, htests⟩, isReached_of_nextBlocks h hblock hreached⟩
  · intro root hroot
    refine ⟨root, ?_, Relation.ReflTransGen.refl⟩
    obtain heq | hinterior := List.mem_cons.mp hroot
    · exact Or.inl heq
    · exact Or.inr ((mem_interiorEntries h).mp hinterior)
  · exact fun place hnone => absurd hnone List.not_mem_nil

omit h

/-- Every function is one of an entry, and every known entry has one. -/
theorem mem_orderedFunctions {function : FunctionInfo} (hmem : function ∈ input.orderedFunctions) :
    function.blockAddresses =
      canonicalizeAddresses (input.visitedBlocks function.entryAddress) := by
  unfold DiscoveryInput.orderedFunctions at hmem
  obtain ⟨index, hindex, rfl⟩ := List.mem_mapIdx.mp hmem
  have hfunction := List.getElem_mem hindex
  rw [(List.perm_insertionSort _ _).mem_iff, List.mem_map] at hfunction
  obtain ⟨entry, -, hentry⟩ := hfunction
  simp only [← hentry]
  rfl

theorem exists_orderedFunction (hknown : entry ∈ input.knownEntries)
    (hstarts : input.startsBlock entry = true) :
    ∃ function ∈ input.orderedFunctions, function.entryAddress = entry := by
  obtain ⟨processed, hprocessed⟩ := exploreEntries_ends input
  have hentry : entry ∈ processed := by
    have hcomplete := hprocessed
    unfold DiscoveryInput.exploreEntries at hcomplete
    refine (Explore.explore_complete (A := fun entry => input.startsBlock entry = true)
      ?_ ?_ hcomplete).2.1 entry hknown hstarts
    · exact fun old new place hplace => List.mem_append.mpr hplace
    · intro seen place hplace
      rw [if_pos hplace]
      exact Option.some_ne_none _
  have hmem : input.functionAt entry ∈ (((input.exploreEntries input.entryFuel).getD []).reverse.map
        input.functionAt).insertionSort fun left right => left.entryAddress ≤ right.entryAddress := by
    rw [(List.perm_insertionSort _ _).mem_iff, hprocessed, Option.getD_some]
    exact List.mem_map_of_mem (List.mem_reverse.mpr hentry)
  obtain ⟨index, hindex, heq⟩ := List.getElem_of_mem hmem
  refine ⟨_, List.mem_mapIdx.mpr ⟨index, hindex, rfl⟩, ?_⟩
  rw [heq]
  rfl

theorem orderedFunctions_own (h : AcceptedRanges input.boundaries input.exactRanges) :
    FunctionsOwn input.blocks input.boundaries input.resolvedEdges input.orderedFunctions := by
  constructor
  case known =>
    intro address hknown
    exact exists_orderedFunction ((mem_knownEntries h).mpr hknown) (startsBlock_iff.mpr hknown.2.1)
  case within =>
    intro function hmem hexact address haddress
    rw [mem_orderedFunctions hmem, mem_canonicalizeAddresses] at haddress
    exact (inCurrentExact_iff h).mp
      ((visitedBlocks_spec h address haddress).2.2 ((isExact_iff h).mpr hexact))
  case exclusive =>
    intro function hmem address haddress entry hinside
    rw [mem_orderedFunctions hmem, mem_canonicalizeAddresses] at haddress
    exact (inCurrentExact_iff h).mp
      ((visitedBlocks_spec h address haddress).2.1 ((hasExactOwner_iff h).mpr ⟨entry, hinside⟩))
  case reachable =>
    intro function hmem address haddress
    rw [mem_orderedFunctions hmem, mem_canonicalizeAddresses] at haddress
    exact (visitedBlocks_spec h address haddress).1

end

/-! ## Discovery -/

/-- Naming the shared blocks changes neither the entries nor the blocks. -/
theorem FunctionsOwn.addSharedBlocks {blocks : List BasicBlock}
    {boundaries : List FunctionBoundary} {resolvedEdges : List ResolvedControlFlowEdge}
    {functions : List FunctionInfo} (h : FunctionsOwn blocks boundaries resolvedEdges functions) :
    FunctionsOwn blocks boundaries resolvedEdges (addSharedBlocks functions) := by
  have hback : ∀ function ∈ Analysis.addSharedBlocks functions, ∃ plain ∈ functions,
      function.entryAddress = plain.entryAddress ∧
        function.blockAddresses = plain.blockAddresses := by
    intro function hmem
    obtain ⟨plain, hplain, rfl⟩ := List.mem_map.mp hmem
    exact ⟨plain, hplain, rfl, rfl⟩
  constructor
  case known =>
    intro address hknown
    obtain ⟨plain, hplain, hentry⟩ := h.known address hknown
    exact ⟨_, List.mem_map_of_mem hplain, hentry⟩
  case within =>
    intro function hmem hexact address haddress
    obtain ⟨plain, hplain, hentry, hblocks⟩ := hback function hmem
    rw [hentry] at hexact ⊢
    rw [hblocks] at haddress
    exact h.within plain hplain hexact address haddress
  case exclusive =>
    intro function hmem address haddress entry hinside
    obtain ⟨plain, hplain, hentry, hblocks⟩ := hback function hmem
    rw [hentry]
    rw [hblocks] at haddress
    exact h.exclusive plain hplain address haddress entry hinside
  case reachable =>
    intro function hmem address haddress
    obtain ⟨plain, hplain, hentry, hblocks⟩ := hback function hmem
    rw [hentry]
    rw [hblocks] at haddress
    exact h.reachable plain hplain address haddress

/-- Both traversals of a discovery come to their end within their rounds. -/
def TraversalsEnd (input : DiscoveryInput) : Prop :=
  (∃ processed, input.exploreEntries input.entryFuel = some processed) ∧
    ∀ entry, ∃ visited, input.exploreBlocks entry (input.blockFuel entry) = some visited

/-- Discovery ends; a known entry that is the entry of an exact range, or in none,
has a function; an exact range is owned by its own functions alone; and what a
function owns is reached from its entry or an entry inside its exact range. -/
theorem discoverFunctionsFromBlocks_own (blocks : List BasicBlock)
    (boundaries : List FunctionBoundary) (resolvedEdges : List ResolvedControlFlowEdge) :
    (∀ exactRanges, TraversalsEnd { blocks, boundaries, resolvedEdges, exactRanges }) ∧
      ∀ functions, discoverFunctionsFromBlocks blocks boundaries resolvedEdges = .ok functions →
        FunctionsOwn blocks boundaries resolvedEdges functions := by
  refine ⟨fun exactRanges => ⟨exploreEntries_ends _, exploreBlocks_ends _⟩, ?_⟩
  intro functions h
  unfold discoverFunctionsFromBlocks at h
  split at h
  · rename_i hempty
    have hnone : functions = [] := (Except.ok.inj h).symm
    rw [List.isEmpty_iff] at hempty
    rw [hnone, hempty]
    constructor
    case known =>
      rintro address ⟨-, ⟨block, hblock, -⟩, -⟩
      exact absurd hblock List.not_mem_nil
    all_goals
      intro function hmem
      exact absurd hmem List.not_mem_nil
  · obtain ⟨exactRanges, haccept, hrest⟩ := bind_eq_ok h
    obtain ⟨-, -, hfunctions⟩ := bind_eq_ok hrest
    rw [← Except.ok.inj hfunctions]
    apply FunctionsOwn.addSharedBlocks
    have haccepted : AcceptedRanges boundaries exactRanges := acceptRanges_spec haccept
    exact @orderedFunctions_own { blocks, boundaries, resolvedEdges, exactRanges } haccepted

/-! ## A call into an exact range -/

def returnLine (address : BitVec 32) : DisassemblyLine :=
  { address := address, opcode := 0x000B
    instruction := { opcode := 0x000B, controlFlow := .return, hasDelaySlot := true } }

def slotLine (address : BitVec 32) : DisassemblyLine :=
  { address := address, opcode := 0x0009, instruction := { opcode := 0x0009, kind := .nop }
    isDelaySlot := true }

def callLine (address target : BitVec 32) : DisassemblyLine :=
  { address := address, opcode := 0xB006
    instruction :=
      { opcode := 0xB006, kind := .bsr, displacement := 0xC, controlFlow := .call
        hasDelaySlot := true }
    targetAddress := some target }

/-- A call over the block behind it to the block after that. -/
def callBlocks : List BasicBlock :=
  [{ startAddress := 0x100, endAddress := 0x102, lines := [callLine 0x100 0x110, slotLine 0x102]
     successors := [0x104] },
    { startAddress := 0x104, endAddress := 0x106, lines := [returnLine 0x104, slotLine 0x106] },
    { startAddress := 0x110, endAddress := 0x112, lines := [returnLine 0x110, slotLine 0x112] }]

/-- An exact range of all three blocks, and a seed inside it. -/
def callBoundaries : List FunctionBoundary :=
  [{ entryAddress := 0x100, size := 0x20 }, { entryAddress := 0x110 }]

def callFunction : FunctionInfo :=
  { entryAddress := 0x100, size := 0x20, blockAddresses := [0x100, 0x104, 0x110] }

theorem discover_callBlocks :
    discoverFunctionsFromBlocks callBlocks callBoundaries [] = .ok [callFunction] := by
  decide +kernel

theorem callBlocks_own : FunctionsOwn callBlocks callBoundaries [] [callFunction] :=
  (discoverFunctionsFromBlocks_own callBlocks callBoundaries []).2 _ discover_callBlocks

/-- The successors of the first two blocks do not leave them. -/
theorem callBlocks_closed {address next : BitVec 32} (haddress : address = 0x100 ∨ address = 0x104)
    (h : FollowsTo callBlocks address next) : next = 0x100 ∨ next = 0x104 := by
  obtain ⟨block, hblock, hsuccessor, -⟩ := h
  obtain rfl | rfl := haddress
  · have hfirst : callBlocks.find? (·.startAddress == 0x100) = callBlocks[0]? := rfl
    rw [hfirst] at hblock
    rw [← Option.some.inj hblock] at hsuccessor
    exact Or.inr (List.mem_singleton.mp hsuccessor)
  · have hsecond : callBlocks.find? (·.startAddress == 0x104) = callBlocks[1]? := rfl
    rw [hsecond] at hblock
    rw [← Option.some.inj hblock] at hsuccessor
    exact absurd hsuccessor List.not_mem_nil

/-- The seed inside the range has no function, and its block is owned by the
function around it though no successor edge leads there. -/
theorem callBlocks_not_own :
    ∃ functions, discoverFunctionsFromBlocks callBlocks callBoundaries [] = .ok functions ∧
      (∃ boundary ∈ callBoundaries, StartsBlock callBlocks boundary.entryAddress ∧
        ∀ function ∈ functions, function.entryAddress ≠ boundary.entryAddress) ∧
      ∃ function ∈ functions, ∃ address ∈ function.blockAddresses,
        ¬ Relation.ReflTransGen (FollowsTo callBlocks) function.entryAddress address := by
  refine ⟨[callFunction], discover_callBlocks, ?_, callFunction, List.mem_singleton_self _, 0x110,
    by decide, ?_⟩
  · refine ⟨{ entryAddress := 0x110 }, by decide, ⟨_, List.mem_of_getElem? (i := 2) rfl, rfl⟩, ?_⟩
    decide
  · intro hpath
    have hclosed : ∀ address, Relation.ReflTransGen (FollowsTo callBlocks)
        callFunction.entryAddress address → address = 0x100 ∨ address = 0x104 := by
      intro address hpath
      induction hpath with
      | refl => exact Or.inl rfl
      | tail hbefore hstep ih => exact callBlocks_closed ih hstep
    exact absurd (hclosed _ hpath) (by decide)

end KatanaRecomp.Analysis
