import KatanaRecomp.Analysis.EntryPredecessorLaws
import KatanaRecomp.Analysis.RelativeTableLaws

/-! # What a closed ingress says about runs

A program enters at the boundaries of the index and leaves the sequence of
instructions along edges of the index or of the additional one, at once or after
a delay slot. Where the interval from a seed to a load is closed, the part of a
run since its last entry into the interval began at the seed; behind the load
nothing is asked of the edges, so a run may enter there. -/
namespace KatanaRecomp.Analysis
open Lib
open Sh4 (DisassemblyLine)
open scoped Lib.BitVecOrder

/-- The instruction that is executed, and the delayed branch when it is in the slot of one. -/
structure ProgramState where
  address : BitVec 32
  branch : Option (BitVec 32) := none

section
variable (index additional : GlobalEntryPredecessorIndex)

/-- One of the indices has the edge. -/
def Transfers (source target : BitVec 32) : Prop :=
  index.HasEdge source target ∨ additional.HasEdge source target

inductive ProgramStep : ProgramState → ProgramState → Prop
  | sequential (address : BitVec 32) (branch : Option (BitVec 32)) :
    ProgramStep ⟨address, branch⟩ ⟨address + 2, none⟩
  | transfer {source target : BitVec 32} (h : Transfers index additional source target) :
    ProgramStep ⟨source, none⟩ ⟨target, none⟩
  | delayed (source : BitVec 32) : ProgramStep ⟨source, none⟩ ⟨source + 2, some source⟩
  | delayedTransfer {slot source target : BitVec 32}
    (h : Transfers index additional source target) : ProgramStep ⟨slot, some source⟩ ⟨target, none⟩
  | entry (state : ProgramState) {address : BitVec 32} (h : index.IsBoundary address) :
    ProgramStep state ⟨address, none⟩

/-- The states of a run from the last to the first. An odd address is not executed. -/
inductive ProgramRun : List ProgramState → Prop
  | start {address : BitVec 32} (hboundary : index.IsBoundary address)
    (heven : address.toNat % 2 = 0) : ProgramRun [⟨address, none⟩]
  | step {state next : ProgramState} {earlier : List ProgramState}
    (hrun : ProgramRun (state :: earlier)) (hstep : ProgramStep index additional state next)
    (heven : next.address.toNat % 2 = 0) : ProgramRun (next :: state :: earlier)

end

def inRange (first last : BitVec 32) (state : ProgramState) : Bool :=
  first ≤ state.address && state.address ≤ last

/-- The states since the last entry into a range. -/
def stretch (first last : BitVec 32) (run : List ProgramState) : List ProgramState :=
  run.takeWhile (inRange first last)

theorem inRange_iff {first last : BitVec 32} {state : ProgramState} :
    inRange first last state = true ↔ first ≤ state.address ∧ state.address ≤ last := by
  simp [inRange]

variable {index additional : GlobalEntryPredecessorIndex} {state next : ProgramState}
  {earlier run : List ProgramState} {seed load last : BitVec 32} {edges : List GlobalEntryEdge}

theorem ProgramRun.even (h : ProgramRun index additional (state :: earlier)) :
    state.address.toNat % 2 = 0 := by
  cases h with
  | start hboundary heven => exact heven
  | step hrun hstep heven => exact heven

/-- A delay slot lies behind its branch. -/
theorem ProgramRun.slot {slot source : BitVec 32}
    (h : ProgramRun index additional (⟨slot, some source⟩ :: earlier)) :
    slot = source + 2 ∧ source.toNat % 2 = 0 := by
  cases h with
  | step hrun hstep heven =>
    cases hstep with
    | delayed => exact ⟨rfl, hrun.even⟩

/-- Nothing but the branches between the seed and the load leads behind the seed. -/
structure Closed (index additional : GlobalEntryPredecessorIndex) (seed load : BitVec 32) :
    Prop where
  boundaries : ∀ address, index.IsBoundary address → seed < address → load < address
  transfers : ∀ source target, Transfers index additional source target → seed < target →
    target ≤ load → seed ≤ source ∧ source < load

section
variable (hclosed : Closed index additional seed load)
include hclosed

theorem Closed.inRange_of_step
    (hseed : seed.toNat % 2 = 0) (hload : load.toNat % 2 = 0) (hlast : load ≤ last)
    (hrun : ProgramRun index additional (state :: earlier))
    (hstep : ProgramStep index additional state next) (heven : next.address.toNat % 2 = 0)
    (hlow : seed < next.address) (hhigh : next.address ≤ load) :
    inRange seed last state = true := by
  have hstate := hrun.even
  rw [inRange_iff]
  have htwo : (2 : BitVec 32).toNat = 2 := rfl
  -- an even address before one behind the seed is not below the seed
  have hsequential : ∀ address : BitVec 32, address.toNat % 2 = 0 → seed < address + 2 →
      address + 2 ≤ load → seed ≤ address ∧ address ≤ last := by
    intro address heven hbehind hbefore
    rw [BitVec.lt_def, BitVec.toNat_add] at hbehind
    rw [BitVec.le_def, BitVec.toNat_add] at hbefore
    rw [BitVec.le_def] at hlast ⊢
    rw [BitVec.le_def]
    have hlt := address.isLt
    omega
  cases hstep with
  | sequential address branch => exact hsequential address hstate hlow hhigh
  | transfer h =>
    obtain ⟨hfrom, hto⟩ := hclosed.transfers _ _ h hlow hhigh
    exact ⟨hfrom, hto.le.trans hlast⟩
  | delayed source => exact hsequential source hstate hlow hhigh
  | delayedTransfer h =>
    obtain ⟨hfrom, hto⟩ := hclosed.transfers _ _ h hlow hhigh
    obtain ⟨rfl, hsource⟩ := hrun.slot
    rw [BitVec.le_def] at hfrom hlast
    rw [BitVec.lt_def] at hto
    rw [BitVec.le_def, BitVec.le_def, BitVec.toNat_add]
    have hlt := load.isLt
    omega
  | entry state h => exact absurd (hclosed.boundaries _ h hlow) hhigh.not_gt

/-- The first state of a stretch is at the seed or behind the load. -/
theorem Closed.stretch_first
    (hseed : seed.toNat % 2 = 0) (hload : load.toNat % 2 = 0) (hlast : load ≤ last)
    (hrun : ProgramRun index additional run) {first : ProgramState}
    (hfirst : (stretch seed last run).getLast? = some first) :
    first.address = seed ∨ load < first.address := by
  unfold stretch at hfirst
  induction hrun with
  | start hboundary heven =>
    rw [List.takeWhile_cons] at hfirst
    split at hfirst
    · rename_i hrange
      cases hfirst
      rcases eq_or_lt_of_le (inRange_iff.mp hrange).1 with heq | hlow
      · exact .inl heq.symm
      · exact .inr (hclosed.boundaries _ hboundary hlow)
    · cases hfirst
  | @step state next earlier hrun hstep heven ih =>
    rw [List.takeWhile_cons] at hfirst
    split at hfirst
    · rename_i hrange
      by_cases hstay : inRange seed last state = true
      · refine ih ?_
        rw [List.takeWhile_cons_of_pos hstay] at hfirst ⊢
        rwa [List.getLast?_cons_cons] at hfirst
      · -- the step enters the range
        rw [List.takeWhile_cons_of_neg hstay] at hfirst
        cases hfirst
        rcases eq_or_lt_of_le (inRange_iff.mp hrange).1 with heq | hlow
        · exact .inl heq.symm
        · refine .inr (not_le.mp fun hhigh => hstay ?_)
          exact hclosed.inRange_of_step hseed hload hlast hrun hstep heven hlow hhigh
    · cases hfirst

end

/-! ## Recognised tables -/

variable {rounds : Nat} {image : TableImage} {lines : OrderedMap (BitVec 32) DisassemblyLine}
  {address : BitVec 32} {window : List DisassemblyLine} {dispatchIndex : Nat}
  {producer : RelativeJumpTableProducerEvidence}

theorem recognizeDispatch_spec
    (h : recognizeDispatch rounds image index additional lines address = some producer) :
    (∃ dispatch dispatchIndex, lines.find address = some dispatch ∧
      producer.Sound (recognitionWindow lines dispatch address) dispatchIndex) ∧
      producer.globalIngressProven = index.closes producer.ingressSeedAddress
        producer.ingressLoadAddress producer.internalBranchEdges (some additional) := by
  unfold recognizeDispatch at h
  obtain ⟨dispatch, hdispatch, h⟩ := Option.bind_eq_some_iff.mp h
  obtain ⟨recognized, hrecognized, rfl⟩ := Option.map_eq_some_iff.mp h
  have hsound := recognizeRelativeJumpTable_sound hrecognized
  rw [if_pos hsound.requires]
  exact ⟨⟨dispatch, _, hdispatch, hsound.requires, hsound.dispatch, hsound.placed⟩, rfl⟩

/-- The addresses of a producer in the order of its window. -/
structure RelativeJumpTableProducerEvidence.Ordered (window : List DisassemblyLine)
    (producer : RelativeJumpTableProducerEvidence) : Prop where
  seed_load : ∃ distance, producer.ingressLoadAddress.toNat =
    producer.ingressSeedAddress.toNat + 2 * distance
  load_dispatch : ∃ distance, producer.dispatchAddress.toNat =
    producer.ingressLoadAddress.toNat + 2 * distance
  sources : ∀ edge ∈ producer.internalBranchEdges,
    producer.ingressSeedAddress ≤ edge.source ∧ edge.source < producer.ingressLoadAddress
  lines : ∀ address : BitVec 32, address.toNat % 2 = producer.ingressSeedAddress.toNat % 2 →
    producer.ingressSeedAddress ≤ address → address ≤ producer.dispatchAddress →
    ∃ line ∈ window, line.address = address

theorem RelativeJumpTableProducerEvidence.Sound.ordered (hwindow : Contiguous window)
    (h : producer.Sound window dispatchIndex) : producer.Ordered window := by
  obtain ⟨dispatch, hdispatch, hdispatchAddress⟩ := h.dispatch
  obtain ⟨loadIndex, hloadIndex, seedIndex, seed, load, hseedIndex, hseed, hload, hseedAddress,
    hloadAddress, hedges⟩ := h.placed
  have hseedLoad := hwindow.address hseed hseedIndex.le hload
  have hloadDispatch := hwindow.address hload hloadIndex.le hdispatch
  refine ⟨⟨loadIndex - seedIndex, ?_⟩, ⟨dispatchIndex - loadIndex, ?_⟩, ?_, ?_⟩
  · rw [hseedAddress, hloadAddress, hseedLoad]
  · rw [hloadAddress, hdispatchAddress, hloadDispatch]
  · intro edge hedge
    obtain ⟨lineIndex, line, hlow, hhigh, hline, hsource⟩ := hedges edge hedge
    have hfrom := hwindow.address hseed hlow.le hline
    rw [hseedAddress, hloadAddress, ← hsource, BitVec.le_def, BitVec.lt_def]
    omega
  · intro address heven hlow hhigh
    rw [hseedAddress] at heven hlow
    rw [hdispatchAddress] at hhigh
    rw [BitVec.le_def] at hlow hhigh
    -- the line at the distance of the address from the seed
    have hdistance : seedIndex + (address.toNat - seed.address.toNat) / 2 ≤ dispatchIndex := by
      omega
    have hlt : seedIndex + (address.toNat - seed.address.toNat) / 2 < window.length := by
      have := (List.getElem?_eq_some_iff.mp hdispatch).1
      omega
    have hline := List.getElem?_eq_getElem hlt
    have hthere := hwindow.address hseed (Nat.le_add_right _ _) hline
    refine ⟨_, List.getElem_mem hlt, BitVec.eq_of_toNat_eq ?_⟩
    omega

theorem closed_of_closes (hordered : producer.Ordered window)
    (h : index.closes producer.ingressSeedAddress producer.ingressLoadAddress
      producer.internalBranchEdges (some additional) = true) :
    Closed index additional producer.ingressSeedAddress producer.ingressLoadAddress := by
  obtain ⟨-, hboundaries, hedges, hadditional⟩ := GlobalEntryPredecessorIndex.closes_iff.mp h
  refine ⟨hboundaries, fun source target htransfer hlow hhigh => ?_⟩
  rcases htransfer with hedge | hedge
  · exact hordered.sources _ (hedges source target hedge hlow hhigh)
  · exact hordered.sources _ (hadditional additional rfl source target hedge hlow hhigh)

theorem ProgramRun.forall_even (h : ProgramRun index additional run) :
    ∀ state ∈ run, state.address.toNat % 2 = 0 := by
  induction h with
  | start hboundary heven =>
    intro state hstate
    rw [List.mem_singleton.mp hstate]
    exact heven
  | step hrun hstep heven ih =>
    intro state hstate
    rcases List.mem_cons.mp hstate with rfl | hearlier
    · exact heven
    · exact ih state hearlier

theorem stretch_cons {first : BitVec 32} (hrange : inRange first last state = true) :
    ∃ oldest, (stretch first last (state :: earlier)).getLast? = some oldest := by
  rw [stretch, List.takeWhile_cons_of_pos hrange]
  exact ⟨_, List.getLast?_eq_some_getLast (List.cons_ne_nil _ _)⟩

/-- The lines of a window, by address. -/
def InWindow (lines : OrderedMap (BitVec 32) DisassemblyLine) (address : BitVec 32)
    (state : ProgramState) : Prop := ∃ dispatch, lines.find address = some dispatch ∧
    ∃ line ∈ recognitionWindow lines dispatch address, line.address = state.address

/-- A run that stands at a line from the load to the dispatch of a table whose ingress is proven
has executed only lines of the window since it entered, and entered at the seed or behind the
load. -/
theorem stretch_of_proven
    (hrecognized : recognizeDispatch rounds image index additional lines address = some producer)
    (hproven : producer.globalIngressProven = true)
    (hrun : ProgramRun index additional (state :: earlier))
    (hload : producer.ingressLoadAddress ≤ state.address)
    (hlast : state.address ≤ producer.dispatchAddress)
    (hparity : state.address.toNat % 2 = producer.ingressSeedAddress.toNat % 2) : ∃ first,
      (stretch producer.ingressSeedAddress state.address (state :: earlier)).getLast? = some first ∧
      (first.address = producer.ingressSeedAddress ∨ producer.ingressLoadAddress < first.address) ∧
      ∀ inside ∈ stretch producer.ingressSeedAddress state.address (state :: earlier),
        InWindow lines address inside := by
  obtain ⟨⟨dispatch, dispatchIndex, hdispatch, hsound⟩, hcloses⟩ :=
    recognizeDispatch_spec hrecognized
  have hordered := hsound.ordered (recognitionWindow_contiguous lines dispatch address)
  have hclosed := closed_of_closes hordered (hcloses ▸ hproven)
  have hseed : producer.ingressSeedAddress.toNat % 2 = 0 := hparity ▸ hrun.even
  have hloadEven : producer.ingressLoadAddress.toNat % 2 = 0 := by
    obtain ⟨distance, hdistance⟩ := hordered.seed_load
    omega
  have hseedLoad : producer.ingressSeedAddress ≤ producer.ingressLoadAddress := by
    obtain ⟨distance, hdistance⟩ := hordered.seed_load
    rw [BitVec.le_def]
    omega
  have hrange : inRange producer.ingressSeedAddress state.address state = true :=
    inRange_iff.mpr ⟨hseedLoad.trans hload, le_rfl⟩
  obtain ⟨first, hfirst⟩ := stretch_cons hrange
  refine ⟨first, hfirst, hclosed.stretch_first hseed hloadEven hload hrun hfirst, ?_⟩
  intro inside hinside
  have hinRange := inRange_iff.mp (List.mem_takeWhile_imp hinside)
  have heven := hrun.forall_even inside ((List.takeWhile_sublist _).subset hinside)
  exact ⟨dispatch, hdispatch,
    hordered.lines inside.address (by omega) hinRange.1 (hinRange.2.trans hlast)⟩

/-- A run that reaches the load of a table whose ingress is proven entered at the seed; one that
reaches the dispatch did so or entered behind the load. A difference that spares an interval
leaves the answer for it as it is. -/
theorem proven_ingress_dominates
    (hrecognized : recognizeDispatch rounds image index additional lines address = some producer)
    (hproven : producer.globalIngressProven = true) :
    (∀ state earlier, ProgramRun index additional (state :: earlier) →
      state.address = producer.ingressLoadAddress → ∃ first,
        (stretch producer.ingressSeedAddress producer.ingressLoadAddress
          (state :: earlier)).getLast? = some first ∧ first.address = producer.ingressSeedAddress ∧
        ∀ inside ∈ stretch producer.ingressSeedAddress producer.ingressLoadAddress
          (state :: earlier), InWindow lines address inside) ∧
    (∀ state earlier, ProgramRun index additional (state :: earlier) →
      state.address = producer.dispatchAddress → ∃ first,
        (stretch producer.ingressSeedAddress producer.dispatchAddress
          (state :: earlier)).getLast? = some first ∧ (first.address = producer.ingressSeedAddress ∨
          producer.ingressLoadAddress < first.address) ∧
        ∀ inside ∈ stretch producer.ingressSeedAddress producer.dispatchAddress
          (state :: earlier), InWindow lines address inside) ∧
    (∀ (previous current : GlobalEntryPredecessorIndex) (seed load : BitVec 32)
      (allowed : List GlobalEntryEdge) (other : Option GlobalEntryPredecessorIndex),
      (previous.difference current).affectsInterval seed load = false →
        previous.closes seed load allowed other = current.closes seed load allowed other) ∧
    ∀ (previous current previousOther currentOther : GlobalEntryPredecessorIndex)
      (seed load : BitVec 32) (allowed : List GlobalEntryEdge), ((previous.difference current).merge
          (previousOther.difference currentOther)).affectsInterval seed load = false →
        previous.closes seed load allowed (some previousOther) =
          current.closes seed load allowed (some currentOther) := by
  obtain ⟨⟨dispatch, dispatchIndex, -, hsound⟩, -⟩ := recognizeDispatch_spec hrecognized
  have hordered := hsound.ordered (recognitionWindow_contiguous lines dispatch address)
  obtain ⟨toLoad, hseedLoad⟩ := hordered.seed_load
  obtain ⟨toDispatch, hloadDispatch⟩ := hordered.load_dispatch
  have hbefore : producer.ingressLoadAddress ≤ producer.dispatchAddress := by
    rw [BitVec.le_def]
    omega
  refine ⟨?_, ?_, ?_, ?_⟩
  · intro state earlier hrun hstate
    obtain ⟨first, hfirst, hentered, hinside⟩ := stretch_of_proven hrecognized hproven hrun
      hstate.ge (hstate ▸ hbefore) (by rw [hstate]; omega)
    rw [hstate] at hfirst hinside
    refine ⟨first, hfirst, hentered.resolve_right fun hbehind => ?_, hinside⟩
    -- the stretch ends at the load
    have hmem := List.mem_of_getLast? hfirst
    exact absurd (inRange_iff.mp (List.mem_takeWhile_imp hmem)).2 hbehind.not_ge
  · intro state earlier hrun hstate
    obtain hstretch := stretch_of_proven hrecognized hproven hrun (hstate ▸ hbefore) hstate.le
      (by rw [hstate]; omega)
    rwa [hstate] at hstretch
  · intro previous current seed load allowed other hspared
    have hspares := (GlobalEntryPredecessorDelta.spares_of_affectsInterval hspared).2
    exact GlobalEntryPredecessorIndex.closes_eq_of_spares hspares other
  · intro previous current previousOther currentOther seed load allowed hspared
    obtain ⟨hspares, hother⟩ :=
      (GlobalEntryPredecessorDelta.spares_of_affectsInterval hspared).2.of_merge
    rw [GlobalEntryPredecessorIndex.closes_eq_of_spares hspares,
      GlobalEntryPredecessorIndex.closes_eq_of_additional hother]

/-! ## A table -/

/-- Five lines: the table base, the seed of the index, the load, a line between, the dispatch. -/
def tableLines : OrderedMap (BitVec 32) DisassemblyLine where
  entries :=
    [ (0x1000, { address := 0x1000, opcode := 0xC702,
                 instruction := { kind := .moveAddressPcRelative, displacement := 8 } }),
      (0x1002, { address := 0x1002, opcode := 0xE104,
                 instruction := { kind := .movImmediate, destinationRegister := 1,
                                  immediate := 4 } }),
      (0x1004, { address := 0x1004, opcode := 0x021D,
                 instruction := { kind := .movWordLoadR0Indexed, destinationRegister := 2,
                                  sourceRegister := 1 } }),
      (0x1006, { address := 0x1006, opcode := 0x0009, instruction := { kind := .nop } }),
      (0x1008, { address := 0x1008, opcode := 0x0223,
                 instruction := { kind := .braf, branchRegister := 2,
                                  controlFlow := .indirectBranch, hasDelaySlot := true } }) ]
  sorted := by decide

def tableImage : TableImage where
  resolveSegmentAddress := fun address _ => some address
  snapshotPcRelativeLongValue := fun _ => none

def tableProducer : RelativeJumpTableProducerEvidence where
  dispatchAddress := 0x1008
  tableAddress := 0x100C
  boundedEntryCount := 3
  instructionAddresses := [0x1000, 0x1002, 0x1004, 0x1006, 0x1008]
  requiresGlobalIngressProof := true
  ingressSeedAddress := 0x1002
  ingressLoadAddress := 0x1004

/-- A function entry at the line between the load and the dispatch. -/
def enteredIndex : GlobalEntryPredecessorIndex :=
  (GlobalEntryPredecessorIndex.empty.addBoundary 0x1000).addBoundary 0x1006

theorem recognizeDispatch_tableLines :
    recognizeDispatch 1 tableImage enteredIndex .empty tableLines 0x1008 = some tableProducer := by
  decide +kernel

/-- The run starts between the load and the dispatch and goes on to the dispatch. -/
theorem run_between_load_and_dispatch :
    ProgramRun enteredIndex .empty [⟨0x1008, none⟩, ⟨0x1006, none⟩] :=
  .step (.start (by unfold GlobalEntryPredecessorIndex.IsBoundary; decide +kernel) rfl)
    (.sequential 0x1006 none) rfl

/-- The ingress of the table is proven, and a run reaches its dispatch without its seed. -/
theorem dispatch_without_seed :
    recognizeDispatch 1 tableImage enteredIndex .empty tableLines 0x1008 = some tableProducer ∧
      tableProducer.globalIngressProven = true ∧
      ∃ state earlier, ProgramRun enteredIndex .empty (state :: earlier) ∧
        state.address = tableProducer.dispatchAddress ∧
        ∀ executed ∈ state :: earlier, executed.address ≠ tableProducer.ingressSeedAddress :=
  ⟨recognizeDispatch_tableLines, rfl, _, _, run_between_load_and_dispatch, rfl, by decide⟩

/-- A run from the table base reaches the load through the seed. -/
theorem proven_ingress_dominates_tableLines :
    ProgramRun enteredIndex .empty [⟨0x1004, none⟩, ⟨0x1002, none⟩, ⟨0x1000, none⟩] ∧ ∃ first,
        (stretch 0x1002 0x1004 [⟨0x1004, none⟩, ⟨0x1002, none⟩, ⟨0x1000, none⟩]).getLast? =
          some first ∧ first.address = 0x1002 := by
  have hrun : ProgramRun enteredIndex .empty [⟨0x1004, none⟩, ⟨0x1002, none⟩, ⟨0x1000, none⟩] :=
    .step (.step (.start (by unfold GlobalEntryPredecessorIndex.IsBoundary; decide +kernel) rfl)
      (.sequential 0x1000 none) rfl) (.sequential 0x1002 none) rfl
  obtain ⟨first, hfirst, hseed, -⟩ :=
    (proven_ingress_dominates recognizeDispatch_tableLines rfl).1 _ _ hrun rfl
  exact ⟨hrun, first, hfirst, hseed⟩

end KatanaRecomp.Analysis
