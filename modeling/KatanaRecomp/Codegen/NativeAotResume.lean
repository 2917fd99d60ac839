import KatanaRecomp.Ir.Types
import KatanaRecomp.Sh4.Timing

/-! # Resume entries inside a native block

An instruction after which a native block may return is followed by a resume entry where the
block goes on there. The addresses of a valid block ascend, so one cursor finds the next
instruction for all of them; any other block is searched as a whole. -/
namespace KatanaRecomp.Codegen.NativeAot
open Ir

def requiresArchitecturalResume (i : Instruction) : Bool :=
  ((i.operation = .loadSpecialRegister || i.operation = .loadSpecialRegisterPostIncrement) &&
      (i.specialRegister = .sr || i.specialRegister = .fpscr)) ||
    i.operation = .loadTlb || i.operation = .frchg || i.operation = .fschg

def hasProvenLinearRamAccess (i : Instruction) : Bool :=
  i.memoryEffects.access ≠ .none && i.memoryEffects.region = .normalRam

def requiresDirectWriteResume (i : Instruction) : Bool :=
  i.delaySlot.role = .none && i.memoryEffects.access = .write

def mayReturnAtInstructionFallthrough (i : Instruction) : Bool := i.delaySlot.role = .none &&
    (requiresArchitecturalResume i ||
      ((Sh4.opcodeTiming i.originalOpcode).requiresCycleFlush && !hasProvenLinearRamAccess i) ||
      requiresDirectWriteResume i)

/-- The address behind an instruction where it can be a resume entry of the block. -/
def resumeAddress (block : BasicBlock) (i : Instruction) : Option (BitVec 32) :=
  if !mayReturnAtInstructionFallthrough i || i.sourceAddress > 0xFFFFFFFD then none
  else if i.sourceAddress + 2 = block.startAddress then none
  else some (i.sourceAddress + 2)

def isEntryAt (resume : BitVec 32) (candidate : Instruction) : Bool :=
  candidate.sourceAddress = resume && candidate.delaySlot.role ≠ .slot

/-- The loop with the cursor; it is what is left of the instructions from its index on. -/
def walkEntries (block : BasicBlock) :
    List Instruction → List Instruction → List (BitVec 32) → List (BitVec 32)
  | _, [], entries => entries
  | cursor, i :: rest, entries =>
    match resumeAddress block i with
    | none => walkEntries block cursor rest entries
    | some resume =>
      let cursor := cursor.dropWhile (·.sourceAddress < resume)
      walkEntries block cursor rest
        (if cursor.head?.any (isEntryAt resume) then entries ++ [resume] else entries)

/-- The loop with the search of the whole block. -/
def searchEntries (block : BasicBlock) : List Instruction → List (BitVec 32) → List (BitVec 32)
  | [], entries => entries
  | i :: rest, entries =>
    match resumeAddress block i with
    | none => searchEntries block rest entries
    | some resume =>
      searchEntries block rest
        (if block.instructions.any (isEntryAt resume) then entries ++ [resume] else entries)

/-- `std::sort` followed by `std::unique`. -/
def sortedEntries (entries : List (BitVec 32)) : List (BitVec 32) :=
  entries.dedup.insertionSort fun left right => left ≤ right

def singlePassEntries (block : BasicBlock) : List (BitVec 32) :=
  sortedEntries (walkEntries block block.instructions block.instructions [])

def fallbackEntries (block : BasicBlock) : List (BitVec 32) :=
  sortedEntries (searchEntries block block.instructions [])

/-- `std::adjacent_find` finds no pair that does not ascend. -/
def strictlyIncreasingAddresses (block : BasicBlock) : Bool :=
  decide (block.instructions.IsChain fun left right => left.sourceAddress < right.sourceAddress)

def internalResumeEntries (block : BasicBlock) : List (BitVec 32) :=
  if strictlyIncreasingAddresses block then singlePassEntries block else fallbackEntries block

/-! ## The cursor -/

section
variable {block : BasicBlock}

def Ascending (instructions : List Instruction) : Prop :=
  instructions.Pairwise fun left right => left.sourceAddress < right.sourceAddress

theorem resumeAddress_toNat {i : Instruction} {resume : BitVec 32}
    (h : resumeAddress block i = some resume) : resume.toNat = i.sourceAddress.toNat + 2 := by
  unfold resumeAddress at h
  split at h
  · cases h
  rename_i hlow
  rw [Bool.not_eq_true, Bool.or_eq_false_iff, decide_eq_false_iff_not, gt_iff_lt,
    BitVec.lt_def] at hlow
  split at h
  · cases h
  obtain rfl := Option.some.inj h
  have hmax : (0xFFFFFFFD : BitVec 32).toNat = 0xFFFFFFFD := rfl
  have htwo : (2 : BitVec 32).toNat = 2 := rfl
  rw [BitVec.toNat_add, htwo]
  omega

/-- In front of the first instruction that is not below the resume address there is none at it. -/
theorem any_isEntryAt_dropWhile {cursor : List Instruction} (hcursor : Ascending cursor)
    (resume : BitVec 32) :
    (cursor.dropWhile (·.sourceAddress < resume)).head?.any (isEntryAt resume) =
      cursor.any (isEntryAt resume) := by
  induction cursor with
  | nil => rfl
  | cons first rest ih =>
    obtain ⟨hfirst, hrest⟩ := List.pairwise_cons.mp hcursor
    rw [List.any_cons]
    by_cases hbelow : first.sourceAddress < resume
    · have hother : isEntryAt resume first = false := by
        unfold isEntryAt
        rw [decide_eq_false (fun heq => by rw [heq] at hbelow; exact BitVec.lt_irrefl _ hbelow),
          Bool.false_and]
      rw [List.dropWhile_cons, if_pos (decide_eq_true hbelow), ih hrest, hother, Bool.false_or]
    · rw [List.dropWhile_cons, if_neg (by rwa [decide_eq_true_eq]), List.head?_cons,
        Option.any_some]
      have hnone : rest.any (isEntryAt resume) = false := by
        rw [List.any_eq_false]
        intro later hlater hentry
        unfold isEntryAt at hentry
        rw [Bool.and_eq_true, decide_eq_true_eq] at hentry
        have hlt := hfirst later hlater
        rw [hentry.1] at hlt
        exact hbelow hlt
      rw [hnone, Bool.or_false]

/-- What the cursor has passed lies below every resume address to come. -/
structure Passed (block : BasicBlock) (cursor rest : List Instruction) : Prop where
  suffix : cursor <:+ block.instructions
  below : ∀ passed ∈ block.instructions, passed ∉ cursor →
    ∀ i ∈ rest, passed.sourceAddress.toNat < i.sourceAddress.toNat + 2

theorem walkEntries_eq {cursor rest : List Instruction} {entries : List (BitVec 32)}
    (hblock : Ascending block.instructions) (hrest : Ascending rest)
    (h : Passed block cursor rest) :
    walkEntries block cursor rest entries = searchEntries block rest entries := by
  induction rest generalizing cursor entries with
  | nil => rfl
  | cons i rest ih =>
    obtain ⟨hfirst, hlater⟩ := List.pairwise_cons.mp hrest
    unfold walkEntries searchEntries
    cases hresume : resumeAddress block i with
    | none =>
      exact ih hlater ⟨h.suffix, fun passed hpassed hnot other hother =>
        h.below passed hpassed hnot other (List.mem_cons_of_mem _ hother)⟩
    | some resume =>
      have hvalue := resumeAddress_toNat hresume
      have hcursor : Ascending cursor := hblock.sublist h.suffix.sublist
      have hsame : cursor.any (isEntryAt resume) = block.instructions.any (isEntryAt resume) := by
        rw [Bool.eq_iff_iff, List.any_eq_true, List.any_eq_true]
        constructor
        · rintro ⟨candidate, hmem, hentry⟩
          exact ⟨candidate, h.suffix.subset hmem, hentry⟩
        · rintro ⟨candidate, hmem, hentry⟩
          refine ⟨candidate, ?_, hentry⟩
          by_contra hnot
          have hbelow := h.below candidate hmem hnot i List.mem_cons_self
          unfold isEntryAt at hentry
          rw [Bool.and_eq_true, decide_eq_true_eq] at hentry
          rw [hentry.1] at hbelow
          omega
      dsimp only
      rw [any_isEntryAt_dropWhile hcursor, hsame]
      refine ih hlater ⟨(List.dropWhile_suffix _).trans h.suffix, ?_⟩
      intro passed hpassed hnot other hother
      have hnext := BitVec.lt_def.mp (hfirst other hother)
      by_cases hin : passed ∈ cursor
      · rw [← List.takeWhile_append_dropWhile (p := fun candidate : Instruction =>
          decide (candidate.sourceAddress < resume)) (l := cursor)] at hin
        obtain htaken | hdropped := List.mem_append.mp hin
        · have hkept := List.mem_takeWhile_imp htaken
          rw [decide_eq_true_eq, BitVec.lt_def] at hkept
          omega
        · exact absurd hdropped hnot
      · have hbelow := h.below passed hpassed hin i List.mem_cons_self
        omega

end

/-- The search with the cursor finds what the search of the whole block finds. -/
theorem internalResumeEntries_eq (block : BasicBlock) :
    internalResumeEntries block = fallbackEntries block := by
  unfold internalResumeEntries
  split
  · rename_i hincreasing
    have hblock : Ascending block.instructions :=
      List.isChain_iff_pairwise.mp (of_decide_eq_true hincreasing)
    unfold singlePassEntries fallbackEntries
    rw [walkEntries_eq hblock hblock ⟨List.suffix_rfl, fun passed hpassed hnot =>
      absurd hpassed hnot⟩]
  · rfl

theorem mem_searchEntries {block : BasicBlock} {instructions : List Instruction}
    {entries : List (BitVec 32)} {entry : BitVec 32} :
    entry ∈ searchEntries block instructions entries ↔ entry ∈ entries ∨
      (∃ i ∈ instructions, resumeAddress block i = some entry) ∧
        block.instructions.any (isEntryAt entry) = true := by
  induction instructions generalizing entries with
  | nil => simp [searchEntries]
  | cons i rest ih =>
    unfold searchEntries
    cases hresume : resumeAddress block i with
    | none => simp [ih, hresume]
    | some resume =>
      by_cases hany : block.instructions.any (isEntryAt resume) = true
      · simp only [hany, if_true, ih]
        grind
      · simp only [hany, ih]
        grind

theorem pairwise_sortedEntries (entries : List (BitVec 32)) :
    (sortedEntries entries).Pairwise (· < ·) := by
  have hsorted : (sortedEntries entries).Pairwise (· ≤ ·) :=
    haveI : Std.Total (α := BitVec 32) (· ≤ ·) := ⟨BitVec.le_total⟩
    haveI : IsTrans (BitVec 32) (· ≤ ·) := ⟨fun _ _ _ => BitVec.le_trans⟩
    List.pairwise_insertionSort _ _
  have hnodup : (sortedEntries entries).Nodup :=
    (List.perm_insertionSort _ _).nodup_iff.mpr (List.nodup_dedup _)
  exact (hsorted.and hnodup).imp fun h => BitVec.lt_of_le_ne h.1 h.2

/-- The entries ascend, and they are the addresses behind an instruction after which the block may
return, its own start excepted, at which an instruction of it other than a delay slot goes on. -/
theorem mem_internalResumeEntries_iff (block : BasicBlock) :
    (internalResumeEntries block).Pairwise (· < ·) ∧
      ∀ entry, entry ∈ internalResumeEntries block ↔
        (∃ i ∈ block.instructions, resumeAddress block i = some entry) ∧
        ∃ next ∈ block.instructions, next.sourceAddress = entry ∧ next.delaySlot.role ≠ .slot := by
  have hentries : internalResumeEntries block =
      sortedEntries (searchEntries block block.instructions []) := by
    unfold internalResumeEntries singlePassEntries fallbackEntries
    split
    · rename_i hincreasing
      have hblock := List.isChain_iff_pairwise.mp (of_decide_eq_true hincreasing)
      rw [walkEntries_eq hblock hblock ⟨List.suffix_rfl, fun _ hpassed hnot =>
        absurd hpassed hnot⟩]
    · rfl
  rw [hentries]
  refine ⟨pairwise_sortedEntries _, fun entry => ?_⟩
  unfold sortedEntries
  rw [List.mem_insertionSort, List.mem_dedup, mem_searchEntries, List.any_eq_true]
  simp [isEntryAt]

end KatanaRecomp.Codegen.NativeAot
