import KatanaRecomp.Analysis.BlockEdges

/-! # The structure of the basic blocks

Lines in the order of their addresses are covered by blocks without gaps, every
edge to one of them reaches the start of a block, and blocks share a line only
where something enters a delay slot. A change of control flow stands at the end
of its block unless a delayed branch without a tag is itself the delay slot of
another one and something enters behind it. -/
namespace KatanaRecomp.Analysis
open Lib
open Sh4 (DisassemblyLine)

section
variable {lines : List DisassemblyLine} {resolvedEdges : List ResolvedControlFlowEdge}
  {additional explicit : List (BitVec 32)} {position first : Nat}

/-- The second line follows the first as its delay slot. -/
def IsSlotOf (control slot : DisassemblyLine) : Prop :=
  control.instruction.hasDelaySlot = true ∧ slot.address = control.address + 2

/-- What the blocks of a list of lines have to be, given the addresses at which
something enters. -/
structure WellCut (lines : List DisassemblyLine) (entries : List (BitVec 32))
    (blocks : List BasicBlock) : Prop where
  copies : ∀ block ∈ blocks, ∀ copy ∈ block.lines, ∃ line ∈ lines, untagged copy = untagged line
  covers : ∀ line ∈ lines, ∃ block ∈ blocks, ∃ copy ∈ block.lines, untagged copy = untagged line
  contiguous : ∀ block ∈ blocks,
    block.lines.IsChain fun line next => next.address = line.address + 2
  control : ∀ block ∈ blocks, ∀ before control after, block.lines = before ++ control :: after →
    control.instruction.changesControlFlow = true →
      after = [] ∨ ∃ slot, after = [slot] ∧ IsSlotOf control slot
  successors : ∀ block ∈ blocks, ∀ address ∈ block.successors,
    address ∈ lines.map (·.address) → ∃ other ∈ blocks, other.startAddress = address
  overlap : ∀ (position later : Nat) (block other : BasicBlock), position ≠ later →
    blocks[position]? = some block → blocks[later]? = some other →
      ∀ line ∈ block.lines, ∀ copy ∈ other.lines, line.address = copy.address →
        line.address ∈ entries ∧ ∃ owner slot : DisassemblyLine, [owner, slot] <:+: lines ∧
          pairs owner slot = true ∧ slot.address = line.address

/-- A delayed branch is the delay slot of another, neither has a tag, nothing but
the slot's own delay slot is entered, and no branch in front takes the first. -/
def ChainsDelaySlots (lines : List DisassemblyLine) (entries : List (BitVec 32)) : Prop :=
  ∃ index, controlAt lines index = true ∧ pairedAt lines index = true ∧
    pairedAt lines (index + 1) = true ∧ entryAt lines entries (index + 2) = true ∧
    entryAt lines entries (index + 1) = false ∧
    ¬ (0 < index ∧ controlAt lines (index - 1) = true ∧ pairedAt lines (index - 1) = true)

/-- The segment of a leader: where it ends, and the lines its block copies. -/
theorem linesFrom_spec
    (hfirst : (blockLeaders lines resolvedEdges additional explicit)[position]? = some first) :
    ∃ stop, stop = segmentEnd lines.length
        (blockLeaders lines resolvedEdges additional explicit) position ∧
      first < stop ∧ stop ≤ lines.length ∧
      (∀ leader ∈ blockLeaders lines resolvedEdges additional explicit,
        first < leader → stop ≤ leader) ∧
      linesFrom lines resolvedEdges additional explicit position first =
        blockLines lines (normalEntryLeaders lines resolvedEdges explicit) first stop :=
  ⟨_, rfl, Segments.lt_segmentEnd orderedLeaders_sorted orderedLeaders_lt hfirst,
    Segments.segmentEnd_le orderedLeaders_lt,
    fun _ hmem hlt => Segments.segmentEnd_le_of_mem orderedLeaders_sorted hfirst hmem hlt, rfl⟩

variable {stop : Nat} {copy : DisassemblyLine}

/-- A copied line, and where it was copied from. -/
theorem exists_source {offset : Nat} {entries : List Nat} (hstop : stop ≤ lines.length)
    (hcopy : (blockLines lines entries first stop)[offset]? = some copy) :
    first + offset < copyEnd lines entries first stop ∧
      ∃ line, lines[first + offset]? = some line ∧ untagged copy = untagged line := by
  have hlt := (List.getElem?_eq_some_iff.mp hcopy).1
  rw [blockLines_length entries first hstop] at hlt
  have hwithin : first + offset < copyEnd lines entries first stop := by omega
  have hsame := blockLines_getElem? hwithin
  rw [hcopy] at hsame
  cases hline : lines[first + offset]? with
  | none =>
    rw [hline] at hsame
    cases hsame
  | some line =>
    rw [hline] at hsame
    exact ⟨hwithin, line, rfl, Option.some.inj hsame⟩

variable {index : Nat} {line : DisassemblyLine}

theorem exists_copy {entries : List Nat} (hline : lines[index]? = some line) (hle : first ≤ index)
    (hlt : index < copyEnd lines entries first stop) :
    ∃ copy, (blockLines lines entries first stop)[index - first]? = some copy ∧
      untagged copy = untagged line := by
  have hplace : first + (index - first) = index := by omega
  have hsame : ((blockLines lines entries first stop)[index - first]?).map untagged =
      (lines[first + (index - first)]?).map untagged := blockLines_getElem? (by omega)
  rw [hplace, hline] at hsame
  cases hcopy : (blockLines lines entries first stop)[index - first]? with
  | none =>
    rw [hcopy] at hsame
    cases hsame
  | some copy =>
    rw [hcopy] at hsame
    exact ⟨copy, rfl, Option.some.inj hsame⟩

variable (h : untagged copy = untagged line)
include h

theorem address_of_untagged : copy.address = line.address :=
  congrArg (·.address) h

theorem instruction_of_untagged : copy.instruction = line.instruction := congrArg (·.instruction) h

theorem target_of_untagged : copy.targetAddress = line.targetAddress := congrArg (·.targetAddress) h

omit h

/-- Behind the first line of a block every line follows the one before. -/
theorem follows_inside (hstop : stop ≤ lines.length)
    (hbetween : ∀ leader ∈ blockLeaders lines resolvedEdges additional explicit,
      first < leader → stop ≤ leader)
    (hle : first ≤ index)
    (hlt : index + 1 < copyEnd lines (normalEntryLeaders lines resolvedEdges explicit) first stop) :
    ∃ line next, lines[index]? = some line ∧ lines[index + 1]? = some next ∧
      next.address = line.address + 2 := by
  obtain ⟨hend, -⟩ | ⟨hend, hover⟩ := copyEnd_cases lines
    (normalEntryLeaders lines resolvedEdges explicit) first stop
  · refine follows_of_not_leader (normalEntryLeaders lines resolvedEdges explicit) additional
      (by omega) fun hmem => ?_
    have h := hbetween (index + 1) hmem (by omega)
    omega
  · obtain ⟨hinside, -, -, hpaired⟩ := overlaps_iff.mp hover
    by_cases hlast : index + 1 = stop
    · have hindex : stop - 1 = index := by omega
      rw [hindex] at hpaired
      obtain ⟨owner, slot, howner, hslot, hpairs⟩ := pairedAt_iff.mp hpaired
      exact ⟨owner, slot, howner, hslot, (pairs_spec hpairs).2⟩
    · refine follows_of_not_leader (normalEntryLeaders lines resolvedEdges explicit) additional
        (by omega) fun hmem => ?_
      have h := hbetween (index + 1) hmem (by omega)
      omega

theorem blockLines_contiguous (hstop : stop ≤ lines.length)
    (hbetween : ∀ leader ∈ blockLeaders lines resolvedEdges additional explicit,
      first < leader → stop ≤ leader) :
    (blockLines lines (normalEntryLeaders lines resolvedEdges explicit) first stop).IsChain
      fun line next => next.address = line.address + 2 := by
  rw [List.isChain_iff_getElem]
  intro offset hoffset
  have hcopy := List.getElem?_eq_getElem (Nat.lt_of_succ_lt hoffset)
  have hnext := List.getElem?_eq_getElem hoffset
  obtain ⟨-, line, hline, hsame⟩ := exists_source hstop hcopy
  obtain ⟨hlt, after, hafter, hsameAfter⟩ := exists_source hstop hnext
  rw [address_of_untagged hsame, address_of_untagged hsameAfter]
  obtain ⟨line', after', hline', hafter', hfollow⟩ :=
    follows_inside hstop hbetween (Nat.le_add_right first offset) hlt
  rw [hline] at hline'
  rw [Nat.add_assoc, hafter] at hafter'
  rw [Option.some.inj hline', Option.some.inj hafter']
  exact hfollow

theorem index_of_address {address : BitVec 32} {entries : List (BitVec 32)}
    (hline : lines[index]? = some line)
    (hentry : entryAt lines entries index = true) (haddress : line.address = address) :
    address ∈ entries := by
  unfold entryAt at hentry
  rw [hline] at hentry
  rw [← haddress]
  simpa using hentry

variable (hsorted : lines.Pairwise fun line next => line.address < next.address)
include hsorted

/-- A change of control flow inside a block ends it, with its delay slot, or the
lines chain delay slots there. -/
theorem control_ends
    (hnochain : ¬ ChainsDelaySlots lines (normalEntryAddresses lines resolvedEdges explicit))
    (hfirst : first < stop)
    (hbetween : ∀ leader ∈ blockLeaders lines resolvedEdges additional explicit,
      first < leader → stop ≤ leader) (hstop : stop ≤ lines.length)
    (hcontrol : controlAt lines index = true) (hle : first ≤ index)
    (hlt : index < copyEnd lines (normalEntryLeaders lines resolvedEdges explicit) first stop) :
    copyEnd lines (normalEntryLeaders lines resolvedEdges explicit) first stop = index + 1 ∨
      pairedAt lines index = true ∧
        copyEnd lines (normalEntryLeaders lines resolvedEdges explicit) first stop = index + 2 := by
  have hterminal : stop ≤ terminalIndex lines index + 1 := by
    by_contra hbehind
    have hmem := terminal_mem (normalEntryLeaders lines resolvedEdges explicit) additional hcontrol
      (by omega)
    have hself : index ≤ terminalIndex lines index := by
      unfold terminalIndex
      split <;> omega
    have h := hbetween _ hmem (by omega)
    omega
  obtain ⟨hend, -⟩ | ⟨hend, hover⟩ := copyEnd_cases lines
    (normalEntryLeaders lines resolvedEdges explicit) first stop
  · unfold terminalIndex at hterminal
    split at hterminal
    · rename_i hpaired
      by_cases hlast : stop = index + 1
      · exact Or.inl (by omega)
      · exact Or.inr ⟨hpaired, by omega⟩
    · exact Or.inl (by omega)
  · obtain ⟨hinside, -, hentry, hpaired⟩ := overlaps_iff.mp hover
    by_cases hslot : index = stop
    · exact Or.inl (by omega)
    unfold terminalIndex at hterminal
    split at hterminal
    · rename_i hown
      refine Or.inr ⟨hown, ?_⟩
      by_contra hlong
      have hstopAt : stop = index + 2 := by omega
      have hbehind : stop - 1 = index + 1 := by omega
      rw [hbehind] at hpaired
      rw [hstopAt] at hentry
      have hnot : index + 1 ∉ blockLeaders lines resolvedEdges additional explicit := by
        intro hmem
        have h := hbetween _ hmem (by omega)
        omega
      apply hnochain
      refine ⟨index, hcontrol, hown, hpaired, (mem_normalEntryLeaders hsorted).mp hentry, ?_, ?_⟩
      · rw [← Bool.not_eq_true]
        intro hat
        exact hnot (entry_mem (lt_length_of_pairedAt hown)
          ((mem_normalEntryLeaders hsorted).mpr hat))
      · rintro ⟨hpositive, hbefore, hbeforePaired⟩
        apply hnot
        have hterm : terminalIndex lines (index - 1) + 1 = index + 1 := by
          unfold terminalIndex
          rw [if_pos hbeforePaired]
          omega
        rw [← hterm]
        apply terminal_mem _ _ hbefore
        have hlength := lt_length_of_pairedAt hown
        omega
    · rename_i hunpaired
      exfalso
      have hindex : stop - 1 = index := by omega
      rw [hindex] at hpaired
      exact hunpaired hpaired

/-- Only the last line of a block is another's too, and that is an entered delay slot. -/
theorem shared_line {start : Nat} (hlater : stop ≤ start) (hle : start ≤ index)
    (hlt : index < copyEnd lines (normalEntryLeaders lines resolvedEdges explicit) first stop) :
    entryAt lines (normalEntryAddresses lines resolvedEdges explicit) index = true ∧
      0 < index ∧ pairedAt lines (index - 1) = true := by
  obtain ⟨hend, -⟩ | ⟨hend, hover⟩ := copyEnd_cases lines
    (normalEntryLeaders lines resolvedEdges explicit) first stop
  · omega
  · obtain ⟨-, hfirst, hentry, hpaired⟩ := overlaps_iff.mp hover
    have hindex : index = stop := by omega
    rw [hindex]
    exact ⟨(mem_normalEntryLeaders hsorted).mp hentry, by omega, hpaired⟩

omit hsorted

theorem infix_of_getElem? {α : Type} {l : List α} {a b : α}
    (ha : l[index]? = some a) (hb : l[index + 1]? = some b) : [a, b] <:+: l := by
  obtain ⟨hlt, rfl⟩ := List.getElem?_eq_some_iff.mp ha
  obtain ⟨hlt', rfl⟩ := List.getElem?_eq_some_iff.mp hb
  refine ⟨l.take index, l.drop (index + 2), ?_⟩
  rw [List.append_assoc, List.cons_append, List.cons_append, List.nil_append,
    ← List.drop_eq_getElem_cons hlt', ← List.drop_eq_getElem_cons hlt, List.take_append_drop]

variable (resolvedEdges additional explicit) in
theorem exists_segment_of_lt (hlt : index < lines.length) :
    ∃ position first, (blockLeaders lines resolvedEdges additional explicit)[position]? =
        some first ∧ first ≤ index ∧ index < segmentEnd lines.length
          (blockLeaders lines resolvedEdges additional explicit) position := by
  apply Segments.exists_segment hlt
  refine ⟨0, ?_, Nat.zero_le index⟩
  exact mem_orderedLeaders.mpr ⟨by omega, Or.inl rfl⟩

/-- The successors of a block that are among the lines begin blocks. -/
theorem buildBasicBlocks_edges
    (hsorted : lines.Pairwise fun line next => line.address < next.address) :
    ∀ block ∈ buildBasicBlocks lines resolvedEdges additional explicit,
      EdgesBeginBlocks lines (blockLeaders lines resolvedEdges additional explicit) block := by
  have hentry : ∀ address ∈ normalEntryAddresses lines resolvedEdges explicit,
      BeginsBlock lines (blockLeaders lines resolvedEdges additional explicit) address := by
    intro address hmem index hindex
    obtain ⟨line, hline, rfl⟩ := addressIndex_spec hindex
    apply entry_mem (List.getElem?_eq_some_iff.mp hline).1
    rw [mem_normalEntryLeaders hsorted]
    unfold entryAt
    rw [hline]
    simpa using hmem
  unfold buildBasicBlocks
  dsimp only
  apply forall_mem_foldl
  · exact fun blocks hblocks site hsite => closeSite_edges hblocks
  apply forall_mem_foldl
  · intro blocks hblocks edge hedge
    refine addEdge_edges (hentry _ ?_) hblocks
    unfold normalEntryAddresses
    exact List.mem_append_left _ (List.mem_append_right _ (List.mem_map_of_mem hedge))
  intro block hmem
  obtain ⟨cut, hcut, rfl⟩ := List.mem_map.mp hmem
  obtain ⟨position, hposition, rfl⟩ := List.mem_mapIdx.mp hcut
  apply addSuccessors_edges
  · intro copy hcopy address htarget
    apply hentry
    obtain ⟨offset, hoffset⟩ := List.mem_iff_getElem?.mp hcopy
    obtain ⟨-, line, hline, hsame⟩ :=
      exists_source (Segments.segmentEnd_le orderedLeaders_lt) hoffset
    unfold normalEntryAddresses
    refine List.mem_append_left _ (List.mem_append_left _ (List.mem_filterMap.mpr ?_))
    refine ⟨line, List.mem_of_getElem? hline, ?_⟩
    rw [← target_of_untagged hsame]
    exact htarget
  · intro address hnone
    exact absurd hnone List.not_mem_nil

/-- The lines from the leader of a block, up to what its block copies. -/
theorem block_spec {position : Nat} {block : BasicBlock}
    (h : (buildBasicBlocks lines resolvedEdges additional explicit)[position]? = some block) :
    ∃ first stop, (blockLeaders lines resolvedEdges additional explicit)[position]? = some first ∧
      stop = segmentEnd lines.length
        (blockLeaders lines resolvedEdges additional explicit) position ∧
      first < stop ∧ stop ≤ lines.length ∧
      (∀ leader ∈ blockLeaders lines resolvedEdges additional explicit,
        first < leader → stop ≤ leader) ∧ block.lines =
        blockLines lines (normalEntryLeaders lines resolvedEdges explicit) first stop := by
  obtain ⟨first, hfirst, -, hlines⟩ := buildBasicBlocks_getElem? h
  obtain ⟨stop, hstopAt, hlt, hstop, hbetween, hfrom⟩ := linesFrom_spec hfirst
  exact ⟨first, stop, hfirst, hstopAt, hlt, hstop, hbetween, hlines.trans hfrom⟩

include hsorted

/-- Where the lines do not chain delay slots, the blocks are well cut. -/
theorem wellCut_of_not_chains
    (hnochain : ¬ ChainsDelaySlots lines (normalEntryAddresses lines resolvedEdges explicit)) :
    WellCut lines (normalEntryAddresses lines resolvedEdges explicit)
      (buildBasicBlocks lines resolvedEdges additional explicit) := by
  constructor
  case copies =>
    intro block hblock copy hcopy
    obtain ⟨position, hat⟩ := List.mem_iff_getElem?.mp hblock
    obtain ⟨first, stop, -, -, -, hstop, -, hlines⟩ := block_spec hat
    rw [hlines] at hcopy
    obtain ⟨offset, hoffset⟩ := List.mem_iff_getElem?.mp hcopy
    obtain ⟨-, line, hline, hsame⟩ := exists_source hstop hoffset
    exact ⟨line, List.mem_of_getElem? hline, hsame⟩
  case covers =>
    intro line hmem
    obtain ⟨index, hline⟩ := List.mem_iff_getElem?.mp hmem
    obtain ⟨position, first, hfirst, hle, hlt⟩ := exists_segment_of_lt resolvedEdges
      additional explicit (List.getElem?_eq_some_iff.mp hline).1
    obtain ⟨block, hblock, -, hlines⟩ := exists_block hfirst
    have hcopied : index < copyEnd lines (normalEntryLeaders lines resolvedEdges explicit) first
        (segmentEnd lines.length (blockLeaders lines resolvedEdges additional explicit) position) :=
      Nat.lt_of_lt_of_le hlt le_copyEnd
    obtain ⟨copy, hcopy, hsame⟩ := exists_copy hline hle hcopied
    refine ⟨block, List.mem_of_getElem? hblock, copy, ?_, hsame⟩
    rw [hlines]
    exact List.mem_of_getElem? hcopy
  case contiguous =>
    intro block hblock
    obtain ⟨position, hat⟩ := List.mem_iff_getElem?.mp hblock
    obtain ⟨first, stop, -, -, -, hstop, hbetween, hlines⟩ := block_spec hat
    rw [hlines]
    exact blockLines_contiguous hstop hbetween
  case control =>
    intro block hblock before control after hsplit hchanges
    obtain ⟨position, hat⟩ := List.mem_iff_getElem?.mp hblock
    obtain ⟨first, stop, -, -, hlt, hstop, hbetween, hlines⟩ := block_spec hat
    rw [hlines] at hsplit
    have hplace : (blockLines lines (normalEntryLeaders lines resolvedEdges explicit) first
        stop)[before.length]? = some control := by
      rw [hsplit]
      simp
    have hlength := blockLines_length (normalEntryLeaders lines resolvedEdges explicit) first hstop
    rw [hsplit, List.length_append, List.length_cons] at hlength
    obtain ⟨hwithin, line, hline, hsame⟩ := exists_source hstop hplace
    have hcontrol : controlAt lines (first + before.length) = true := by
      unfold controlAt
      rw [hline, Option.any_some, ← instruction_of_untagged hsame]
      exact hchanges
    obtain hlast | ⟨hpaired, hnext⟩ := control_ends hsorted hnochain hlt hbetween hstop hcontrol
      (Nat.le_add_right first before.length) hwithin
    · left
      apply List.eq_nil_of_length_eq_zero
      omega
    · right
      have hone : after.length = 1 := by omega
      obtain ⟨slot, rfl⟩ := List.length_eq_one_iff.mp hone
      refine ⟨slot, rfl, ?_⟩
      have hslotAt : (blockLines lines (normalEntryLeaders lines resolvedEdges explicit) first
          stop)[before.length + 1]? = some slot := by
        rw [hsplit]
        simp
      obtain ⟨-, next, hnextLine, hsameNext⟩ := exists_source hstop hslotAt
      obtain ⟨owner, slot', howner, hslot', hpairs⟩ := pairedAt_iff.mp hpaired
      rw [hline] at howner
      rw [← Nat.add_assoc, hslot'] at hnextLine
      obtain ⟨hdelayed, haddress⟩ := pairs_spec hpairs
      unfold IsSlotOf
      rw [instruction_of_untagged hsame, address_of_untagged hsame, address_of_untagged hsameNext,
        Option.some.inj howner, ← Option.some.inj hnextLine]
      exact ⟨hdelayed, haddress⟩
  case successors =>
    intro block hblock address hmem hknown
    obtain ⟨line, hline, rfl⟩ := List.mem_map.mp hknown
    obtain ⟨index, hat⟩ := List.mem_iff_getElem?.mp hline
    have hleader := buildBasicBlocks_edges hsorted block hblock _ hmem index
      (addressIndex_of_getElem? hsorted hat)
    obtain ⟨position, hposition⟩ := List.mem_iff_getElem?.mp hleader
    obtain ⟨other, hother, hstart, -⟩ := exists_block hposition
    refine ⟨other, List.mem_of_getElem? hother, ?_⟩
    rw [hstart, hat]
    rfl
  case overlap =>
    intro position later block other hne hblock hother line hline copy hcopy heq
    obtain ⟨first, stop, hfirst, hstopAt, -, hstop, -, hlines⟩ := block_spec hblock
    obtain ⟨start, last, hstart, hlastAt, -, hlast, -, hcopies⟩ := block_spec hother
    rw [hlines] at hline
    rw [hcopies] at hcopy
    obtain ⟨offset, hoffset⟩ := List.mem_iff_getElem?.mp hline
    obtain ⟨offset', hoffset'⟩ := List.mem_iff_getElem?.mp hcopy
    obtain ⟨hwithin, source, hsource, hsame⟩ := exists_source hstop hoffset
    obtain ⟨hwithin', source', hsource', hsame'⟩ := exists_source hlast hoffset'
    have hindex : first + offset = start + offset' := by
      apply index_unique hsorted hsource hsource'
      rw [← address_of_untagged hsame, ← address_of_untagged hsame', heq]
    have hshared : entryAt lines (normalEntryAddresses lines resolvedEdges explicit)
        (first + offset) = true ∧ 0 < first + offset ∧
          pairedAt lines (first + offset - 1) = true := by
      obtain hbefore | hbehind := Nat.lt_or_gt_of_ne hne
      · have hapart : stop ≤ start := by
          rw [hstopAt]
          exact Segments.segmentEnd_le_first orderedLeaders_sorted hfirst hstart hbefore
        exact shared_line hsorted hapart (by omega) hwithin
      · have hapart : last ≤ first := by
          rw [hlastAt]
          exact Segments.segmentEnd_le_first orderedLeaders_sorted hstart hfirst hbehind
        rw [hindex]
        exact shared_line hsorted hapart (by omega) hwithin'
    obtain ⟨hentry, hpositive, hpaired⟩ := hshared
    refine ⟨index_of_address hsource hentry (address_of_untagged hsame).symm, ?_⟩
    obtain ⟨owner, slot, howner, hslot, hpairs⟩ := pairedAt_iff.mp hpaired
    rw [Nat.sub_add_cancel hpositive, hsource] at hslot
    refine ⟨owner, slot, ?_, hpairs, ?_⟩
    · exact infix_of_getElem? howner (by rw [Nat.sub_add_cancel hpositive, hsource, hslot])
    · rw [← Option.some.inj hslot]
      exact (address_of_untagged hsame).symm

/-- A chain of delay slots leaves a change of control flow two lines before the
end of its block. -/
theorem not_wellCut_of_chains
    (hchain : ChainsDelaySlots lines (normalEntryAddresses lines resolvedEdges explicit)) :
    ¬ WellCut lines (normalEntryAddresses lines resolvedEdges explicit)
      (buildBasicBlocks lines resolvedEdges additional explicit) := by
  intro hcut
  obtain ⟨index, hcontrol, hown, hnext, hentry, hnoentry, hbefore⟩ := hchain
  have hinside := lt_length_of_pairedAt hnext
  obtain ⟨position, first, hfirst, hle, hlt⟩ := exists_segment_of_lt resolvedEdges additional
    explicit (Nat.lt_of_succ_lt (Nat.lt_of_succ_lt hinside))
  obtain ⟨block, hblock, -, -⟩ := exists_block hfirst
  obtain ⟨first', stop, hfirst', hstopAt, -, hstop, hbetween, hlines⟩ := block_spec hblock
  rw [hfirst] at hfirst'
  rw [← Option.some.inj hfirst'] at hbetween hlines
  rw [← hstopAt] at hlt
  have hnot : index + 1 ∉ blockLeaders lines resolvedEdges additional explicit := by
    apply not_leader_of_pairedAt hown _ hbefore
    rw [mem_normalEntryLeaders hsorted, hnoentry]
    exact Bool.false_ne_true
  have hbehind : index + 2 ∈ normalEntryLeaders lines resolvedEdges explicit :=
    (mem_normalEntryLeaders hsorted).mpr hentry
  have hstopLe : stop ≤ index + 2 := hbetween _ (entry_mem hinside hbehind) (by omega)
  have hstopNe : stop ≠ index + 1 := by
    intro heq
    have hmem : segmentEnd lines.length (blockLeaders lines resolvedEdges additional explicit)
        position ∈ blockLeaders lines resolvedEdges additional explicit :=
      Segments.segmentEnd_mem (by omega)
    rw [← hstopAt, heq] at hmem
    exact hnot hmem
  have hstopEq : stop = index + 2 := by omega
  have hover : overlapsNormalDelaySlot lines (normalEntryLeaders lines resolvedEdges explicit)
      first stop = true := by
    rw [overlaps_iff, hstopEq]
    exact ⟨hinside, by omega, hbehind, hnext⟩
  have hend : copyEnd lines (normalEntryLeaders lines resolvedEdges explicit) first stop =
      index + 3 := by
    unfold copyEnd
    rw [if_pos hover, hstopEq]
  obtain ⟨line, hline, hchanges⟩ := controlAt_iff.mp hcontrol
  have hcopied : index < copyEnd lines (normalEntryLeaders lines resolvedEdges explicit)
      first stop := by omega
  obtain ⟨copy, hcopy, hsame⟩ := exists_copy hline hle hcopied
  have hlength := blockLines_length (normalEntryLeaders lines resolvedEdges explicit) first hstop
  obtain ⟨hplace, hget⟩ := List.getElem?_eq_some_iff.mp hcopy
  have hsplit : block.lines = block.lines.take (index - first) ++
      copy :: block.lines.drop (index - first + 1) := by
    rw [hlines, ← hget, ← List.drop_eq_getElem_cons hplace, List.take_append_drop]
  rw [← instruction_of_untagged hsame] at hchanges
  have hafter : (block.lines.drop (index - first + 1)).length = 2 := by
    rw [List.length_drop, hlines]
    omega
  obtain hnone | ⟨slot, hone, -⟩ :=
    hcut.control block (List.mem_of_getElem? hblock) _ copy _ hsplit hchanges
  · rw [hnone] at hafter
    cases hafter
  · rw [hone] at hafter
    cases hafter

omit hsorted

/-- The blocks of lines in the order of their addresses are well cut exactly where
the lines chain no delay slots. -/
theorem buildBasicBlocks_wellCut_iff
    (hsorted : lines.Pairwise fun line next => line.address < next.address) :
    WellCut lines (normalEntryAddresses lines resolvedEdges explicit)
        (buildBasicBlocks lines resolvedEdges additional explicit) ↔
      ¬ ChainsDelaySlots lines (normalEntryAddresses lines resolvedEdges explicit) :=
  ⟨fun hcut hchain => not_wellCut_of_chains hsorted hchain hcut, wellCut_of_not_chains hsorted⟩

end

/-- `RTS` and `NOP`, the second tagged as the delay slot of the first. -/
def returnLines : List DisassemblyLine :=
  [{ address := 0x8C010000, opcode := 0x000B, instruction := Sh4.decode 0x000B },
    { address := 0x8C010002, opcode := 0x0009, instruction := Sh4.decode 0x0009
      isDelaySlot := true }]

theorem returnLines_wellCut : WellCut returnLines (normalEntryAddresses returnLines [] [0x8C010002])
      (buildBasicBlocks returnLines [] [] [0x8C010002]) := by
  apply (buildBasicBlocks_wellCut_iff (by decide)).mpr
  rintro ⟨index, -, -, hpaired, -⟩
  have hlt := lt_length_of_pairedAt hpaired
  have hlength : returnLines.length = 2 := rfl
  have hzero : index = 0 := by omega
  rw [hzero] at hpaired
  exact absurd hpaired (by decide)

/-- `RTS` twice and `NOP`: the second `RTS` is an entry point as well and so has
lost its tag, and something enters the `NOP`. -/
def chainedReturns : List DisassemblyLine :=
  [{ address := 0x8C010000, opcode := 0x000B, instruction := Sh4.decode 0x000B },
    { address := 0x8C010002, opcode := 0x000B, instruction := Sh4.decode 0x000B },
    { address := 0x8C010004, opcode := 0x0009, instruction := Sh4.decode 0x0009
      isDelaySlot := true }]

theorem chainedReturns_not_wellCut :
    chainedReturns.Pairwise (fun line next => line.address < next.address) ∧
      ¬ WellCut chainedReturns (normalEntryAddresses chainedReturns [] [0x8C010004])
        (buildBasicBlocks chainedReturns [] [0x8C010002] [0x8C010004]) := by
  have hsorted : chainedReturns.Pairwise (fun line next => line.address < next.address) := by
    decide
  refine ⟨hsorted, not_wellCut_of_chains hsorted ?_⟩
  refine ⟨0, by decide, by decide, by decide, by decide, by decide, ?_⟩
  rintro ⟨hpositive, -⟩
  exact absurd hpositive (Nat.lt_irrefl 0)

end KatanaRecomp.Analysis
