import KatanaRecomp.Analysis.RelativeTables

/-! # Where a recognised table lies

A window is contiguous, so an index into it is an address. A recognised bound
has its seed before its load and its load before the dispatch, and the branches
that it names leave from lines between the seed and the load. -/
namespace KatanaRecomp.Analysis
open Lib
open Sh4 (DisassemblyLine DecodedInstruction InstructionKind)
open scoped Lib.BitVecOrder

/-! ## Contiguous windows -/

def Contiguous (lines : List DisassemblyLine) : Prop :=
  lines.IsChain fun left right => contiguous left right = true

variable {lines : List DisassemblyLine} {left right : DisassemblyLine}

theorem Contiguous.pair (h : Contiguous lines) {index : Nat} (hleft : lines[index]? = some left)
    (hright : lines[index + 1]? = some right) : contiguous left right = true := by
  obtain ⟨hlt, rfl⟩ := List.getElem?_eq_some_iff.mp hright
  obtain ⟨hlt', rfl⟩ := List.getElem?_eq_some_iff.mp hleft
  exact List.isChain_iff_getElem.mp h index hlt

theorem contiguous_toNat (h : contiguous left right = true) :
    right.address.toNat = left.address.toNat + 2 := by
  obtain ⟨hroom, hnext⟩ := Bool.and_eq_true_iff.mp h
  have hbound := of_decide_eq_true hroom
  rw [← eq_of_beq hnext]
  rw [BitVec.le_def] at hbound
  rw [BitVec.toNat_add]
  have hlimit : (0xFFFFFFFD : BitVec 32).toNat = 0xFFFFFFFD := rfl
  have htwo : (2 : BitVec 32).toNat = 2 := rfl
  omega

theorem Contiguous.address (h : Contiguous lines)
    {first index : Nat} {start line : DisassemblyLine} (hstart : lines[first]? = some start)
    (hle : first ≤ index) (hline : lines[index]? = some line) :
    line.address.toNat = start.address.toNat + 2 * (index - first) := by
  induction index, hle using Nat.le_induction generalizing line with
  | base =>
    rw [hstart] at hline
    cases hline
    omega
  | succ index hle ih =>
    have hlt : index < lines.length := by
      have := (List.getElem?_eq_some_iff.mp hline).1
      omega
    have hbefore := List.getElem?_eq_getElem hlt
    have hstep := contiguous_toNat (h.pair hbefore hline)
    have hfrom := ih hbefore
    omega

theorem lookBack_contiguous (distance : Nat) (first : DisassemblyLine)
    (before : List DisassemblyLine) : (first :: lookBack distance first before).IsChain
      fun right left => contiguous left right = true := by
  induction distance generalizing first before with
  | zero => exact List.isChain_singleton first
  | succ distance ih =>
    cases before with
    | nil => exact List.isChain_singleton first
    | cons previous before =>
      unfold lookBack
      split
      · rename_i hcontiguous
        exact List.isChain_cons_cons.mpr ⟨hcontiguous, ih previous before⟩
      · exact List.isChain_singleton first

theorem recognitionWindow_contiguous (lines : OrderedMap (BitVec 32) DisassemblyLine)
    (dispatch : DisassemblyLine) (address : BitVec 32) :
    Contiguous (recognitionWindow lines dispatch address) := by
  unfold Contiguous recognitionWindow
  dsimp only
  generalize ((lines.entries.takeWhile fun entry => entry.1 < address).map (·.2)).reverse = before
  have hback : ((dispatch :: lookBack maximumRecognitionLookback dispatch before).reverse).IsChain
      fun left right => contiguous left right = true :=
    List.isChain_reverse.mpr (lookBack_contiguous maximumRecognitionLookback dispatch before)
  rw [List.reverse_cons] at hback
  cases hdelay : ((lines.upperBound address).head?.map (·.2)).filter (contiguous dispatch) with
  | none => exact hback
  | some delay =>
    have hnext : contiguous dispatch delay = true := (Option.filter_eq_some_iff.mp hdelay).2
    exact List.isChain_split.mpr ⟨hback, List.isChain_pair.mpr hnext⟩

/-! ## Recognised bounds -/

variable {rounds : Nat} {lines : List DisassemblyLine} {dispatchIndex : Nat} {image : TableImage}

/-- The source of an edge is a line strictly between two others. -/
def LeavesBetween (lines : List DisassemblyLine) (seedIndex loadIndex : Nat)
    (edge : GlobalEntryEdge) : Prop :=
  ∃ index line, seedIndex < index ∧ index < loadIndex ∧ lines[index]? = some line ∧
    line.address = edge.source

/-- The seed, the load and the branches between them. -/
def Placed (lines : List DisassemblyLine) (loadIndex : Nat) (seedAddress loadAddress : BitVec 32)
    (edges : List GlobalEntryEdge) : Prop :=
  ∃ seedIndex seed load, seedIndex < loadIndex ∧ lines[seedIndex]? = some seed ∧
    lines[loadIndex]? = some load ∧ seedAddress = seed.address ∧ loadAddress = load.address ∧
    ∀ edge ∈ edges, LeavesBetween lines seedIndex loadIndex edge

/-- What a proof of a bound gives. -/
structure BoundedRelativeIndexProof.Sound (lines : List DisassemblyLine) (loadIndex : Nat)
    (proof : BoundedRelativeIndexProof) : Prop where
  requires : proof.requiresGlobalIngressProof = true
  placed : Placed lines loadIndex proof.ingressSeedAddress proof.ingressLoadAddress
    proof.internalBranchEdges

variable {proof : BoundedRelativeIndexProof} {indexRegister : Fin 16}

theorem comparisonProof_sound {scaleIndex loadIndex compareIndex : Nat}
    (hscale : compareIndex + 2 ≤ scaleIndex) (hload : scaleIndex ≤ loadIndex)
    (h : comparisonProof lines dispatchIndex image scaleIndex loadIndex indexRegister compareIndex =
      some (some proof)) : proof.Sound lines loadIndex := by
  unfold comparisonProof at h
  split at h
  · rename_i compare branch scale load dispatch hcompare hbranch hscaleLine hloadLine hdispatch
    split at h
    · cases h
    · obtain ⟨target, -, h⟩ := Option.bind_eq_some_iff.mp h
      split at h
      · cases h
      split at h
      · cases h
      rename_i hpositive
      obtain ⟨bound, hbound, h⟩ := Option.bind_eq_some_iff.mp (Option.some.inj h)
      split at h
      · cases h
      cases h
      refine ⟨rfl, compareIndex - 1, bound, load, by omega, hbound, hloadLine, rfl, rfl, ?_⟩
      intro edge hedge
      dsimp only at hedge
      split at hedge
      · rw [List.mem_singleton.mp hedge]
        exact ⟨compareIndex + 1, branch, by omega, by omega, hbranch, rfl⟩
      · exact absurd hedge List.not_mem_nil
  · cases h

theorem boundedEntryCount_sound {scaleIndex loadIndex : Nat}
    (h : boundedEntryCount lines dispatchIndex image scaleIndex loadIndex indexRegister =
      some proof) : proof.Sound lines loadIndex ∧ loadIndex < dispatchIndex := by
  unfold boundedEntryCount at h
  split at h
  · cases h
  rename_i hguard
  simp only [Bool.or_eq_true, decide_eq_true_eq, not_or, not_lt, not_le] at hguard
  obtain ⟨distance, hdistance, hproof⟩ :=
    List.exists_of_findSome?_eq_some (Option.join_eq_some_iff.mp h)
  obtain ⟨hrange, hle⟩ := List.mem_filter.mp hdistance
  have hlow := (List.mem_range'_1.mp hrange).1
  have hfit := of_decide_eq_true hle
  exact ⟨comparisonProof_sound (by omega) (by omega) hproof, by omega⟩

/-! ## The propagation of index values -/

/-- Only lines behind the seed and up to the load are pending, and the edges leave from
lines between the two. -/
structure ValueSearch.Within (lines : List DisassemblyLine) (seedIndex loadIndex : Nat)
    (search : ValueSearch) : Prop where
  pending : ∀ entry ∈ search.pending, seedIndex < entry.1 ∧ entry.1 ≤ loadIndex
  edges : ∀ edge ∈ search.internalBranchEdges, LeavesBetween lines seedIndex loadIndex edge

namespace ValueSearch.Within
variable {seedIndex loadIndex index : Nat} {seed load line : DisassemblyLine}
  {indexRegister : Fin 16} {value : BitVec 32} {search search' : ValueSearch}
  (h : search.Within lines seedIndex loadIndex)
include h

theorem enqueue (hindex : seedIndex < index)
    (hrun : search.enqueue loadIndex index value = some search') :
    search'.Within lines seedIndex loadIndex := by
  unfold ValueSearch.enqueue at hrun
  split at hrun
  · cases hrun
  rename_i hload
  split at hrun
  · cases hrun
    exact h
  split at hrun
  · cases hrun
  · cases hrun
    refine ⟨fun entry hentry => ?_, h.edges⟩
    rcases List.mem_append.mp hentry with hbefore | hnew
    · exact h.pending entry hbefore
    · rw [List.mem_singleton.mp hnew]
      exact ⟨hindex, not_lt.mp hload⟩

theorem addTerminal : (search.addTerminal value).Within lines seedIndex loadIndex := by
  unfold ValueSearch.addTerminal
  split
  · exact h
  · exact ⟨h.pending, h.edges⟩

theorem addEdge {edge : GlobalEntryEdge} (hedge : LeavesBetween lines seedIndex loadIndex edge) :
    (search.addEdge edge).Within lines seedIndex loadIndex := by
  unfold ValueSearch.addEdge
  split
  · exact h
  · refine ⟨h.pending, fun other hother => ?_⟩
    rcases List.mem_append.mp hother with hbefore | hnew
    · exact h.edges other hbefore
    · rw [List.mem_singleton.mp hnew]
      exact hedge

theorem visitBranch (hlow : seedIndex < index)
    (hhigh : index < loadIndex) (hline : lines[index]? = some line)
    (hrun : search.visitBranch lines seedIndex loadIndex seed load index line value =
      some search') : search'.Within lines seedIndex loadIndex := by
  unfold ValueSearch.visitBranch at hrun
  obtain ⟨target, -, hrun⟩ := Option.bind_eq_some_iff.mp hrun
  dsimp only at hrun
  split at hrun
  · cases hrun
  split at hrun
  · cases hrun
  rename_i hlater
  simp only [Bool.or_eq_true, decide_eq_true_eq, not_or, not_le] at hlater
  obtain ⟨taken, htaken, hrun⟩ := Option.bind_eq_some_iff.mp hrun
  obtain ⟨fallthrough, hfallthrough, rfl⟩ := Option.map_eq_some_iff.mp hrun
  have hboth := (h.enqueue (by omega) htaken).enqueue (by omega) hfallthrough
  exact hboth.addEdge ⟨index, line, hlow, hhigh, hline, rfl⟩

theorem visit (hlow : seedIndex < index) (hhigh : index ≤ loadIndex)
    (hrun : search.visit lines seedIndex loadIndex seed load indexRegister index value =
      some search') : search'.Within lines seedIndex loadIndex := by
  unfold ValueSearch.visit at hrun
  split at hrun
  · cases hrun
    exact h.addTerminal
  rename_i hnot
  obtain ⟨line, hline, hrun⟩ := Option.bind_eq_some_iff.mp hrun
  split at hrun
  · cases hrun
  obtain ⟨written, -, hrun⟩ := Option.bind_eq_some_iff.mp hrun
  split at hrun
  · exact h.visitBranch hlow (by omega) hline hrun
  split at hrun
  · cases hrun
  · exact h.enqueue (by omega) hrun

theorem propagate
    (hrun : search.propagate lines seedIndex loadIndex seed load indexRegister rounds =
      some search') : search'.Within lines seedIndex loadIndex := by
  induction rounds generalizing search with
  | zero =>
    unfold ValueSearch.propagate at hrun
    split at hrun
    · cases hrun
      exact h
    · cases hrun
  | succ rounds ih =>
    unfold ValueSearch.propagate at hrun
    split at hrun
    · cases hrun
      exact h
    · rename_i first incoming pending hpending
      obtain ⟨visited, hvisited, hrun⟩ := Option.bind_eq_some_iff.mp hrun
      have hfirst := h.pending (first, incoming) (by rw [hpending]; exact List.mem_cons_self)
      have hrest : ({ search with pending := pending } : ValueSearch).Within lines seedIndex
          loadIndex := ⟨fun entry hentry => h.pending entry (by
          rw [hpending]
          exact List.mem_cons_of_mem _ hentry), h.edges⟩
      exact ih (hrest.visit hfirst.1 hfirst.2 hvisited) hrun

omit h

end ValueSearch.Within

theorem finiteValuesFrom_sound {loadIndex entryWidth seedIndex : Nat} (hlt : seedIndex < loadIndex)
    (h : finiteValuesFrom rounds lines loadIndex indexRegister entryWidth seedIndex =
      some proof) : proof.Sound lines loadIndex := by
  unfold finiteValuesFrom at h
  split at h
  · rename_i seed load hseed hload
    split at h
    · cases h
    split at h
    · cases h
    split at h
    · cases h
    obtain ⟨start, hstart, h⟩ := Option.bind_eq_some_iff.mp h
    obtain ⟨search, hsearch, h⟩ := Option.bind_eq_some_iff.mp h
    have hempty : ({} : ValueSearch).Within lines seedIndex loadIndex :=
      ⟨fun _ hentry => absurd hentry List.not_mem_nil, fun _ hedge => absurd hedge List.not_mem_nil⟩
    have hwithin := (hempty.enqueue (Nat.lt_succ_self _) hstart).propagate hsearch
    dsimp only at h
    split at h
    · cases h
    · cases h
      exact ⟨rfl, seedIndex, seed, load, hlt, hseed, hload, rfl, rfl, hwithin.edges⟩
  · cases h

variable {loadIndex entryWidth : Nat}

theorem boundedFiniteIndexValues_sound
    (h : boundedFiniteIndexValues rounds lines dispatchIndex loadIndex indexRegister entryWidth =
      some proof) : proof.Sound lines loadIndex ∧ loadIndex < dispatchIndex := by
  unfold boundedFiniteIndexValues at h
  obtain ⟨hguard, h⟩ := Option.ite_none_left_eq_some.mp h
  have hload : loadIndex < dispatchIndex := by
    by_contra hle
    have hbehind : decide (dispatchIndex ≤ loadIndex) = true := decide_eq_true (not_lt.mp hle)
    exact hguard (by rw [hbehind, Bool.or_true, Bool.true_or, Bool.true_or])
  obtain ⟨seedIndex, hrange, hproof⟩ := List.exists_of_findSome?_eq_some h
  have hseed := (List.mem_range'_1.mp hrange).2
  exact ⟨finiteValuesFrom_sound (by omega) hproof, hload⟩

theorem recognizeRelativeIndexProof_sound
    (h : recognizeRelativeIndexProof rounds lines dispatchIndex image loadIndex indexRegister
      entryWidth = some proof) : proof.Sound lines loadIndex ∧ loadIndex < dispatchIndex := by
  unfold recognizeRelativeIndexProof at h
  rcases Option.or_eq_some_iff.mp h with hbound | ⟨-, hvalues⟩
  · obtain ⟨scale, -, hcount⟩ := Option.bind_eq_some_iff.mp hbound
    exact boundedEntryCount_sound hcount
  · exact boundedFiniteIndexValues_sound hvalues

/-- What a recognised producer gives. -/
structure RelativeJumpTableProducerEvidence.Sound (lines : List DisassemblyLine)
    (dispatchIndex : Nat) (producer : RelativeJumpTableProducerEvidence) : Prop where
  requires : producer.requiresGlobalIngressProof = true
  dispatch : ∃ dispatch, lines[dispatchIndex]? = some dispatch ∧
    producer.dispatchAddress = dispatch.address
  placed : ∃ loadIndex, loadIndex < dispatchIndex ∧ Placed lines loadIndex
    producer.ingressSeedAddress producer.ingressLoadAddress producer.internalBranchEdges

theorem recognizeRelativeJumpTable_sound {producer : RelativeJumpTableProducerEvidence}
    (h : recognizeRelativeJumpTable rounds lines dispatchIndex image = some producer) :
    producer.Sound lines dispatchIndex := by
  unfold recognizeRelativeJumpTable at h
  obtain ⟨-, h⟩ := Option.ite_none_left_eq_some.mp h
  obtain ⟨dispatch, hdispatch, h⟩ := Option.bind_eq_some_iff.mp h
  obtain ⟨-, h⟩ := Option.ite_none_left_eq_some.mp h
  obtain ⟨loadIndex, -, h⟩ := Option.bind_eq_some_iff.mp h
  obtain ⟨load, -, h⟩ := Option.bind_eq_some_iff.mp h
  obtain ⟨-, h⟩ := Option.ite_none_left_eq_some.mp h
  obtain ⟨tableBaseIndex, -, h⟩ := Option.bind_eq_some_iff.mp h
  obtain ⟨tableBase, -, h⟩ := Option.bind_eq_some_iff.mp h
  obtain ⟨-, h⟩ := Option.ite_none_left_eq_some.mp h
  obtain ⟨proof, hproof, h⟩ := Option.bind_eq_some_iff.mp h
  obtain ⟨hsound, hlt⟩ := recognizeRelativeIndexProof_sound hproof
  obtain ⟨-, h⟩ := Option.ite_none_left_eq_some.mp h
  obtain ⟨resolved, -, rfl⟩ := Option.map_eq_some_iff.mp h
  exact ⟨hsound.requires, ⟨dispatch, hdispatch, rfl⟩, loadIndex, hlt, hsound.placed⟩

end KatanaRecomp.Analysis
