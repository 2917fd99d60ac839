import KatanaRecomp.Analysis.BasicBlocks

/-! # How the lines are cut into blocks

Which indices are leaders, and which lines the block of a leader copies. A copy
differs from the line in its delay-slot tag at most. -/
namespace KatanaRecomp.Analysis
open Lib
open Sh4 (DisassemblyLine)

def controlAt (lines : List DisassemblyLine) (index : Nat) : Bool :=
  (lines[index]?).any (·.instruction.changesControlFlow)

/-- The line stands at one of the addresses. -/
def entryAt (lines : List DisassemblyLine) (entries : List (BitVec 32)) (index : Nat) : Bool :=
  (lines[index]?).any (·.address ∈ entries)

/-! ## Pairs and addresses -/

section
variable {lines : List DisassemblyLine} {index other : Nat}

theorem controlAt_iff : controlAt lines index = true ↔
      ∃ line, lines[index]? = some line ∧ line.instruction.changesControlFlow = true := by
  unfold controlAt
  cases lines[index]? <;> simp

theorem pairedAt_iff : pairedAt lines index = true ↔ ∃ owner slot, lines[index]? = some owner ∧
      lines[index + 1]? = some slot ∧ pairs owner slot = true := by
  unfold pairedAt
  cases lines[index]? <;> cases lines[index + 1]? <;> simp

theorem pairs_spec {owner slot : DisassemblyLine} (h : pairs owner slot = true) :
    owner.instruction.hasDelaySlot = true ∧ slot.address = owner.address + 2 := by
  simp only [pairs, Bool.and_eq_true_iff, beq_iff_eq] at h
  exact ⟨h.1.2, h.2⟩

theorem lt_length_of_pairedAt (h : pairedAt lines index = true) : index + 1 < lines.length := by
  obtain ⟨owner, slot, -, hslot, -⟩ := pairedAt_iff.mp h
  exact (List.getElem?_eq_some_iff.mp hslot).1

/-- Lines in the order of their addresses have no address twice. -/
theorem index_unique (hsorted : lines.Pairwise fun line next => line.address < next.address)
    {line same : DisassemblyLine} (hline : lines[index]? = some line)
    (hsame : lines[other]? = some same) (heq : line.address = same.address) : index = other := by
  obtain ⟨hindex, rfl⟩ := List.getElem?_eq_some_iff.mp hline
  obtain ⟨hother, rfl⟩ := List.getElem?_eq_some_iff.mp hsame
  have hless := List.pairwise_iff_getElem.mp hsorted
  obtain hlt | rfl | hlt := Nat.lt_trichotomy index other
  · have h := hless index other hindex hother hlt
    rw [heq] at h
    exact absurd h (BitVec.lt_irrefl _)
  · rfl
  · have h := hless other index hother hindex hlt
    rw [heq] at h
    exact absurd h (BitVec.lt_irrefl _)

theorem addressIndex_spec {address : BitVec 32} (h : addressIndex lines address = some index) :
    ∃ line, lines[index]? = some line ∧ line.address = address := by
  unfold addressIndex at h
  obtain ⟨hlt, haddress, -⟩ := List.findIdx?_eq_some_iff_getElem.mp h
  exact ⟨lines[index], List.getElem?_eq_getElem hlt, by simpa using haddress⟩

section
variable (hsorted : lines.Pairwise fun line next => line.address < next.address)
include hsorted

theorem addressIndex_of_getElem?
    {line : DisassemblyLine} (hline : lines[index]? = some line) :
    addressIndex lines line.address = some index := by
  cases hfound : addressIndex lines line.address with
  | some found =>
    obtain ⟨same, hsame, heq⟩ := addressIndex_spec hfound
    rw [index_unique hsorted hsame hline heq]
  | none =>
    unfold addressIndex at hfound
    rw [List.findIdx?_eq_none_iff] at hfound
    have h := hfound line (List.mem_of_getElem? hline)
    simp at h

theorem mem_normalEntryLeaders
    {resolvedEdges : List ResolvedControlFlowEdge} {explicit : List (BitVec 32)} :
    index ∈ normalEntryLeaders lines resolvedEdges explicit ↔
      entryAt lines (normalEntryAddresses lines resolvedEdges explicit) index = true := by
  unfold normalEntryLeaders entryAt
  rw [List.mem_filterMap]
  constructor
  · rintro ⟨address, hmem, hindex⟩
    obtain ⟨line, hline, rfl⟩ := addressIndex_spec hindex
    rw [hline]
    simpa using hmem
  · intro h
    cases hline : lines[index]? with
    | none =>
      rw [hline] at h
      cases h
    | some line =>
      rw [hline] at h
      exact ⟨line.address, by simpa using h, addressIndex_of_getElem? hsorted hline⟩

end
end

/-! ## Leaders -/

section
variable {lines : List DisassemblyLine} {entries : List Nat} {additional : List (BitVec 32)}
  {index : Nat}

theorem orderedLeaders_sorted : (orderedLeaders lines entries additional).Pairwise (· < ·) :=
  List.pairwise_lt_range.filter _

theorem orderedLeaders_lt : ∀ leader ∈ orderedLeaders lines entries additional,
    leader < lines.length := by
  intro leader hmem
  exact List.mem_range.mp (List.mem_of_mem_filter hmem)

theorem mem_orderedLeaders : index ∈ orderedLeaders lines entries additional ↔
    index < lines.length ∧ (index = 0 ∨ index ∈ gapLeaders lines ∨ index ∈ controlLeaders lines ∨
      index ∈ entries ∨ index ∈ acceptedLeaders lines entries additional) := by
  unfold orderedLeaders
  simp

theorem entry_mem (hlt : index < lines.length) (h : index ∈ entries) :
    index ∈ orderedLeaders lines entries additional :=
  mem_orderedLeaders.mpr ⟨hlt, Or.inr (Or.inr (Or.inr (Or.inl h)))⟩

variable (entries additional) in
theorem terminal_mem (hcontrol : controlAt lines index = true)
    (hlt : terminalIndex lines index + 1 < lines.length) :
    terminalIndex lines index + 1 ∈ orderedLeaders lines entries additional := by
  refine mem_orderedLeaders.mpr ⟨hlt, Or.inr (Or.inr (Or.inl ?_))⟩
  unfold controlLeaders
  rw [List.mem_map]
  refine ⟨index, ?_, rfl⟩
  rw [List.mem_filter, List.mem_range]
  refine ⟨?_, hcontrol⟩
  have hle : index ≤ terminalIndex lines index := by
    unfold terminalIndex
    split <;> omega
  omega

variable (entries additional) in
/-- A line that does not begin a block follows the line before it. -/
theorem follows_of_not_leader (hlt : index + 1 < lines.length)
    (hnot : index + 1 ∉ orderedLeaders lines entries additional) :
    ∃ line next, lines[index]? = some line ∧ lines[index + 1]? = some next ∧
      next.address = line.address + 2 := by
  have hline := List.getElem?_eq_getElem (Nat.lt_of_succ_lt hlt)
  have hnext := List.getElem?_eq_getElem hlt
  refine ⟨_, _, hline, hnext, ?_⟩
  by_contra hgap
  apply hnot
  refine mem_orderedLeaders.mpr ⟨hlt, Or.inr (Or.inl ?_)⟩
  unfold gapLeaders
  rw [List.mem_filter, List.mem_range]
  refine ⟨hlt, ?_⟩
  simp only [Nat.add_sub_cancel, hline, hnext]
  simpa using hgap

/-- A delay slot begins a block only where something enters, or where its owner
is a delay slot itself. -/
theorem not_leader_of_pairedAt (hpaired : pairedAt lines index = true)
    (hentry : index + 1 ∉ entries) (hbefore : ¬ (0 < index ∧ controlAt lines (index - 1) = true ∧
      pairedAt lines (index - 1) = true)) :
    index + 1 ∉ orderedLeaders lines entries additional := by
  rw [mem_orderedLeaders]
  rintro ⟨-, hzero | hgap | hcontrol | hnormal | haccepted⟩
  · omega
  · unfold gapLeaders at hgap
    obtain ⟨owner, slot, howner, hslot, hpairs⟩ := pairedAt_iff.mp hpaired
    have haddress := (pairs_spec hpairs).2
    rw [List.mem_filter] at hgap
    simp [howner, hslot, haddress] at hgap
  · unfold controlLeaders at hcontrol
    obtain ⟨control, hmem, heq⟩ := List.mem_map.mp hcontrol
    have hchanges := (List.mem_filter.mp hmem).2
    unfold terminalIndex at heq
    split at heq
    · rename_i hown
      apply hbefore
      have hprevious : index - 1 = control := by omega
      rw [hprevious]
      exact ⟨by omega, hchanges, hown⟩
    · rename_i hunpaired
      have hsame : control = index := by omega
      rw [hsame] at hunpaired
      exact hunpaired hpaired
  · exact hentry hnormal
  · unfold acceptedLeaders at haccepted
    obtain ⟨-, haccept⟩ := List.mem_filter.mp haccepted
    simp [hpaired, hentry] at haccept

end

/-! ## The lines of a block -/

/-- A line without its tag. -/
def untagged (line : DisassemblyLine) : DisassemblyLine := { line with isDelaySlot := false }

theorem restoreSlots_untagged (owner : DisassemblyLine) (lines : List DisassemblyLine) :
    (restoreSlots owner lines).map untagged = lines.map untagged := by
  induction lines generalizing owner with
  | nil => rfl
  | cons slot rest ih =>
    simp only [restoreSlots, List.map_cons, ih]
    split <;> rfl

theorem tagLast_untagged (lines : List DisassemblyLine) :
    (tagLast lines).map untagged = lines.map untagged := by
  induction lines with
  | nil => rfl
  | cons line rest ih =>
    cases rest with
    | nil => rfl
    | cons next rest =>
      unfold tagLast
      rw [List.map_cons, ih]
      rfl

section
variable {lines : List DisassemblyLine} {entries : List Nat} {first stop : Nat}

theorem restoreBlock_untagged (copied : List DisassemblyLine) :
    (restoreBlock copied).map untagged = copied.map untagged := by
  cases copied with
  | nil => rfl
  | cons head rest => simp only [restoreBlock, List.map_cons, restoreSlots_untagged]

theorem modifyHead_untagged (copied : List DisassemblyLine) :
    (copied.modifyHead fun line => { line with isDelaySlot := false }).map untagged =
      copied.map untagged := by
  cases copied <;> rfl

variable (lines entries first stop) in
theorem blockLines_untagged : (blockLines lines entries first stop).map untagged =
      ((lines.drop first).take (copyEnd lines entries first stop - first)).map untagged := by
  have hclosed : (if overlapsNormalDelaySlot lines entries first stop then
      tagLast (restoreBlock ((lines.drop first).take (copyEnd lines entries first stop - first)))
      else restoreBlock ((lines.drop first).take
        (copyEnd lines entries first stop - first))).map untagged =
      ((lines.drop first).take (copyEnd lines entries first stop - first)).map untagged := by
    split
    · rw [tagLast_untagged, restoreBlock_untagged]
    · exact restoreBlock_untagged _
  unfold blockLines
  dsimp only
  split
  · rw [modifyHead_untagged, hclosed]
  · exact hclosed

variable (lines entries first stop) in
theorem copyEnd_cases : copyEnd lines entries first stop = stop ∧
        overlapsNormalDelaySlot lines entries first stop = false ∨
      copyEnd lines entries first stop = stop + 1 ∧
        overlapsNormalDelaySlot lines entries first stop = true := by
  unfold copyEnd
  cases overlapsNormalDelaySlot lines entries first stop
  · exact Or.inl ⟨rfl, rfl⟩
  · exact Or.inr ⟨rfl, rfl⟩

theorem overlaps_iff : overlapsNormalDelaySlot lines entries first stop = true ↔
    stop < lines.length ∧ first < stop ∧ stop ∈ entries ∧ pairedAt lines (stop - 1) = true := by
  unfold overlapsNormalDelaySlot
  simp [and_assoc]

variable (entries first) in
theorem copyEnd_le (hstop : stop ≤ lines.length) :
    copyEnd lines entries first stop ≤ lines.length := by
  obtain ⟨hend, -⟩ | ⟨hend, hover⟩ := copyEnd_cases lines entries first stop
  · omega
  · have hlt := (overlaps_iff.mp hover).1
    omega

theorem le_copyEnd : stop ≤ copyEnd lines entries first stop := by
  unfold copyEnd
  split <;> omega

variable (entries first) in
theorem blockLines_length (hstop : stop ≤ lines.length) :
    (blockLines lines entries first stop).length = copyEnd lines entries first stop - first := by
  have h := congrArg List.length (blockLines_untagged lines entries first stop)
  have hle := copyEnd_le entries first hstop
  rw [List.length_map, List.length_map, List.length_take, List.length_drop] at h
  omega

/-- The lines of a block are those from its leader on. -/
theorem blockLines_getElem? {offset : Nat}
    (hoffset : first + offset < copyEnd lines entries first stop) :
    ((blockLines lines entries first stop)[offset]?).map untagged =
      (lines[first + offset]?).map untagged := by
  rw [← List.getElem?_map, blockLines_untagged, List.getElem?_map, List.getElem?_take_of_lt,
    List.getElem?_drop]
  omega

end
end KatanaRecomp.Analysis
