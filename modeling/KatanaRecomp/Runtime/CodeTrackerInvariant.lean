import KatanaRecomp.Runtime.CodeTracker

/-! # What holds of a tracker in use

A block is listed under every page it has bytes on, so a write finds each block
it reaches among the candidates of its pages. What a loop over candidates does
then depends on the blocks alone, and the number of valid blocks and the
invalidation count have a constant sum. -/
namespace KatanaRecomp.Runtime.ExecutableCodeTracker

/-! ## Pages -/

variable {size : Nat}

theorem mem_pageSpan {start page : Nat} (hsize : 0 < size) : page ∈ pageSpan start size ↔
      ∃ k, start / pageSize ≤ k ∧ k ≤ (start + size - 1) / pageSize ∧ page = k * pageSize := by
  have hle : start / pageSize ≤ (start + size - 1) / pageSize := Nat.div_le_div_right (by omega)
  simp only [pageSpan, List.mem_map, List.mem_range, pageOf]
  constructor
  · rintro ⟨index, hindex, rfl⟩
    exact ⟨start / pageSize + index, by omega, by omega, by rw [Nat.add_mul]⟩
  · rintro ⟨k, hlow, hhigh, rfl⟩
    refine ⟨k - start / pageSize, by omega, ?_⟩
    rw [← Nat.add_mul]
    congr 1
    omega

theorem pageOf_mem_pageSpan {start byte : Nat} (hlow : start ≤ byte)
    (hhigh : byte < start + size) : pageOf byte ∈ pageSpan start size := by
  refine (mem_pageSpan (by omega)).mpr ⟨byte / pageSize, ?_, ?_, rfl⟩
  · exact Nat.div_le_div_right hlow
  · exact Nat.div_le_div_right (by omega)

variable {block : ExecutableBlockRegistration} {physical : BitVec 32}

/-- A write that reaches a block overlaps it. -/
theorem overlap_of_reachedBy (h : reachedBy physical size block = true)
    (hblock : block.physicalStart.toNat + block.size.toNat ≤ 2 ^ 32)
    (hwrite : physical.toNat + size ≤ 2 ^ 32) : block.physicalStart.toNat < physical.toNat + size ∧
      physical.toNat < block.physicalStart.toNat + block.size.toNat := by
  unfold reachedBy nativeAotWriteOverlapsImmutable at h
  split at h
  · cases h
  · split at h
    · rename_i _ hout
      omega
    · dsimp only at h
      split at h
      · cases h
      · rename_i hoverlap
        simp only [ge_iff_le, not_le, lt_min_iff, max_lt_iff] at hoverlap
        omega

theorem share_page {start start' size' : Nat} (hsize : 0 < size) (hsize' : 0 < size')
    (hleft : start < start' + size') (hright : start' < start + size) :
    ∃ page, page ∈ pageSpan start size ∧ page ∈ pageSpan start' size' :=
  ⟨pageOf (max start start'), pageOf_mem_pageSpan (by omega) (by omega),
    pageOf_mem_pageSpan (by omega) (by omega)⟩

/-! ## Sweeps -/

/-- Making the reached blocks invalid, without an index. -/
def invalidateIf (reached : ExecutableBlockRegistration → Bool)
    (tracked : TrackedExecutableBlock) : TrackedExecutableBlock :=
  if tracked.valid && reached tracked.block then { tracked with valid := false } else tracked

theorem invalidateIf_block (reached : ExecutableBlockRegistration → Bool)
    (tracked : TrackedExecutableBlock) : (invalidateIf reached tracked).block = tracked.block := by
  unfold invalidateIf
  split <;> rfl

/-- The candidate is no block, or the write does not reach it. -/
def Spared (reached : ExecutableBlockRegistration → Bool) (blocks : List TrackedExecutableBlock)
    (index : Nat) : Prop := ∀ tracked, blocks[index]? = some tracked → reached tracked.block = false

variable {index : Nat} {reached : ExecutableBlockRegistration → Bool}

theorem sweepBlock_spared {s : Sweep}
    (h : Spared reached s.blocks index) : sweepBlock reached s index = s := by
  unfold sweepBlock
  split
  · rename_i tracked hget
    rw [h tracked hget]
    simp
  · rfl

theorem sweepBlock_registrations (reached : ExecutableBlockRegistration → Bool) (s : Sweep)
    (index : Nat) : (sweepBlock reached s index).blocks.map (·.block) = s.blocks.map (·.block) := by
  unfold sweepBlock
  split
  · rename_i tracked hget
    split
    · rw [List.map_set]
      apply List.ext_getElem?
      intro other
      rw [List.getElem?_set]
      split
      · rename_i hother
        subst hother
        obtain ⟨hlt, hat⟩ := List.getElem?_eq_some_iff.mp hget
        simp [hlt, hat]
      · rfl
    · rfl
  · rfl

variable {blocks : List TrackedExecutableBlock} {blocks' : List TrackedExecutableBlock}

theorem Spared.congr (h : Spared reached blocks index)
    (heq : blocks'.map (·.block) = blocks.map (·.block)) : Spared reached blocks' index := by
  intro tracked hget
  have hblock : (blocks.map (·.block))[index]? = some tracked.block := by
    rw [← heq, List.getElem?_map, hget]
    rfl
  rw [List.getElem?_map] at hblock
  obtain ⟨tracked', hget', hsame⟩ := Option.map_eq_some_iff.mp hblock
  rw [← hsame]
  exact h tracked' hget'

/-- A sweep need not visit what the write does not reach. -/
theorem sweep_filter {visited : Nat → Bool} (candidates : List Nat) (s : Sweep)
    (h : ∀ index ∈ candidates, visited index = false → Spared reached s.blocks index) :
    (candidates.filter visited).foldl (sweepBlock reached) s =
      candidates.foldl (sweepBlock reached) s := by
  induction candidates generalizing s with
  | nil => rfl
  | cons index rest ih =>
    have hrest : ∀ other ∈ rest, visited other = false →
        Spared reached (sweepBlock reached s index).blocks other := fun other hmem hnot =>
      (h other (List.mem_cons_of_mem _ hmem) hnot).congr (sweepBlock_registrations reached s index)
    cases hvisited : visited index with
    | true =>
      rw [List.filter_cons_of_pos hvisited, List.foldl_cons, List.foldl_cons]
      exact ih _ hrest
    | false =>
      rw [List.filter_cons_of_neg (by simp [hvisited]), List.foldl_cons,
        sweepBlock_spared (h index List.mem_cons_self hvisited)]
      refine ih s fun other hmem hnot => ?_
      exact h other (List.mem_cons_of_mem _ hmem) hnot

/-- The blocks that a sweep leaves, one by one. -/
theorem sweep_getElem? (reached : ExecutableBlockRegistration → Bool) (candidates : List Nat)
    (s : Sweep) (index : Nat) : (candidates.foldl (sweepBlock reached) s).blocks[index]? =
      if index ∈ candidates then s.blocks[index]?.map (invalidateIf reached)
      else s.blocks[index]? := by
  induction candidates generalizing s with
  | nil => simp
  | cons candidate rest ih =>
    have hstep : (sweepBlock reached s candidate).blocks[index]? =
        if index = candidate then s.blocks[index]?.map (invalidateIf reached)
        else s.blocks[index]? := by
      unfold sweepBlock
      by_cases hindex : index = candidate
      · subst hindex
        simp only [if_true]
        cases hget : s.blocks[index]? with
        | none => simp [hget]
        | some tracked =>
          have hlt : index < s.blocks.length := by
            by_contra hge
            rw [List.getElem?_eq_none (by omega)] at hget
            cases hget
          simp only [Option.map_some, invalidateIf]
          split
          · simp [hlt]
          · exact hget
      · simp only [hindex, if_false]
        cases hget : s.blocks[candidate]? with
        | none => rfl
        | some tracked =>
          dsimp only
          split
          · rw [List.getElem?_set_ne (Ne.symm hindex)]
          · rfl
    rw [List.foldl_cons, ih, hstep]
    have hidem : ∀ tracked : TrackedExecutableBlock,
        invalidateIf reached (invalidateIf reached tracked) = invalidateIf reached tracked := by
      intro tracked
      unfold invalidateIf
      cases hv : tracked.valid && reached tracked.block <;> simp [hv]
    by_cases hindex : index = candidate
    · simp only [hindex, List.mem_cons, true_or, if_true]
      split
      · rw [Option.map_map]
        congr 1
        funext tracked
        exact hidem tracked
      · rfl
    · simp only [List.mem_cons, hindex, false_or, if_false]

/-- A sweep that visits every block it reaches. -/
theorem sweep_blocks {candidates : List Nat}
    {s : Sweep} (h : ∀ index, index ∉ candidates → Spared reached s.blocks index) :
    (candidates.foldl (sweepBlock reached) s).blocks = s.blocks.map (invalidateIf reached) := by
  apply List.ext_getElem?
  intro index
  rw [sweep_getElem?, List.getElem?_map]
  split
  · rfl
  · rename_i hnot
    cases hget : s.blocks[index]? with
    | none => rfl
    | some tracked =>
      have hspared := h index hnot tracked hget
      simp [invalidateIf, hspared]

/-- The number of valid blocks. -/
def validCount (blocks : List TrackedExecutableBlock) : Nat := blocks.countP (·.valid)

variable {tracked : TrackedExecutableBlock}

theorem validCount_set (hget : blocks[index]? = some tracked) (hvalid : tracked.valid = true) :
    validCount (blocks.set index { tracked with valid := false }) + 1 = validCount blocks := by
  induction blocks generalizing index with
  | nil => simp at hget
  | cons head rest ih =>
    cases index with
    | zero =>
      simp only [List.getElem?_cons_zero, Option.some.injEq] at hget
      subst hget
      simp [validCount, List.set_cons_zero, hvalid]
    | succ index =>
      simp only [List.getElem?_cons_succ] at hget
      have hrest := ih hget
      unfold validCount at *
      rw [List.set_cons_succ, List.countP_cons, List.countP_cons]
      omega

theorem sweep_count (reached : ExecutableBlockRegistration → Bool) (candidates : List Nat)
    (s : Sweep) : (candidates.foldl (sweepBlock reached) s).invalidationCount +
        validCount (candidates.foldl (sweepBlock reached) s).blocks =
      s.invalidationCount + validCount s.blocks := by
  induction candidates generalizing s with
  | nil => rfl
  | cons candidate rest ih =>
    rw [List.foldl_cons, ih]
    unfold sweepBlock
    split
    · rename_i tracked hget
      split
      · rename_i hhit
        have hvalid : tracked.valid = true := (Bool.and_eq_true_iff.mp hhit).1
        have := validCount_set hget hvalid
        dsimp only
        omega
      · rfl
    · rfl

/-! ## The invariant -/

structure WellFormed (t : ExecutableCodeTracker) : Prop where
  inSpace : ∀ tracked ∈ t.blocks, 0 < tracked.block.size.toNat ∧
    tracked.block.physicalStart.toNat + tracked.block.size.toNat ≤ 2 ^ 32
  listed : ∀ index tracked, t.blocks[index]? = some tracked →
    ∀ page ∈ pageSpan tracked.block.physicalStart.toNat tracked.block.size.toNat,
      index ∈ t.pageBlocks page
  bounded : ∀ page, ∀ index ∈ t.pageBlocks page, index < t.blocks.length
  identified : ∀ identity index, t.identityIndex identity = some index →
    ∃ tracked, t.blocks[index]? = some tracked ∧ tracked.block.identity = identity
  named : ∀ index tracked, t.blocks[index]? = some tracked →
    t.identityIndex tracked.block.identity = some index
  positive : 0 < t.provenanceCapacity
  reserved : t.provenanceCapacity ≤ t.eventCapacity
  ringSize : t.invalidationEvents.length ≤ t.provenanceCapacity
  ringStart : t.oldestInvalidationEvent < t.provenanceCapacity
  ringFilling : t.invalidationEvents.length < t.provenanceCapacity → t.oldestInvalidationEvent = 0
  sequence : t.nextProvenanceSequence ≤ uint64Max

/-- The indices of an operation's changes are kept: it moves neither the blocks
nor the page lists. -/
structure SamePlaces (t t' : ExecutableCodeTracker) : Prop where
  registrations : t'.blocks.map (·.block) = t.blocks.map (·.block)
  identityIndex : t'.identityIndex = t.identityIndex
  pageBlocks : t'.pageBlocks = t.pageBlocks
  provenanceCapacity : t'.provenanceCapacity = t.provenanceCapacity
  eventCapacity : t'.eventCapacity = t.eventCapacity

/-- The ring of events is in order. -/
structure RingOk (t : ExecutableCodeTracker) : Prop where
  ringSize : t.invalidationEvents.length ≤ t.provenanceCapacity
  ringStart : t.oldestInvalidationEvent < t.provenanceCapacity
  ringFilling : t.invalidationEvents.length < t.provenanceCapacity → t.oldestInvalidationEvent = 0
  sequence : t.nextProvenanceSequence ≤ uint64Max

variable {t : ExecutableCodeTracker}

theorem WellFormed.ring (h : WellFormed t) : RingOk t :=
  ⟨h.ringSize, h.ringStart, h.ringFilling, h.sequence⟩

/-- Equal registrations at an index. -/
theorem getElem?_of_registrations (heq : blocks'.map (·.block) = blocks.map (·.block))
    (hget : blocks'[index]? = some tracked) :
    ∃ before, blocks[index]? = some before ∧ before.block = tracked.block := by
  have hblock : (blocks.map (·.block))[index]? = some tracked.block := by
    rw [← heq, List.getElem?_map, hget]
    rfl
  rw [List.getElem?_map] at hblock
  exact Option.map_eq_some_iff.mp hblock

variable {t' : ExecutableCodeTracker}

theorem WellFormed.transfer (h : WellFormed t)
    (hplaces : SamePlaces t t') (hring : RingOk t') : WellFormed t' where
  inSpace := by
    intro tracked hmem
    obtain ⟨index, hget⟩ := List.mem_iff_getElem?.mp hmem
    obtain ⟨before, hbefore, hblock⟩ := getElem?_of_registrations hplaces.registrations hget
    rw [← hblock]
    exact h.inSpace before (List.mem_of_getElem? hbefore)
  listed := by
    intro index tracked hget page hpage
    obtain ⟨before, hbefore, hblock⟩ := getElem?_of_registrations hplaces.registrations hget
    rw [← hblock] at hpage
    rw [hplaces.pageBlocks]
    exact h.listed index before hbefore page hpage
  bounded := by
    intro page index hmem
    have hlength : t'.blocks.length = t.blocks.length := by
      have := congrArg List.length hplaces.registrations
      simpa using this
    rw [hplaces.pageBlocks] at hmem
    rw [hlength]
    exact h.bounded page index hmem
  identified := by
    intro identity index hindex
    rw [hplaces.identityIndex] at hindex
    obtain ⟨before, hbefore, hidentity⟩ := h.identified identity index hindex
    obtain ⟨tracked, hget, hblock⟩ := getElem?_of_registrations hplaces.registrations.symm hbefore
    exact ⟨tracked, hget, by rw [hblock, hidentity]⟩
  named := by
    intro index tracked hget
    obtain ⟨before, hbefore, hblock⟩ := getElem?_of_registrations hplaces.registrations hget
    rw [hplaces.identityIndex, ← hblock]
    exact h.named index before hbefore
  positive := by rw [hplaces.provenanceCapacity]; exact h.positive
  reserved := by rw [hplaces.provenanceCapacity, hplaces.eventCapacity]; exact h.reserved
  ringSize := hring.ringSize
  ringStart := hring.ringStart
  ringFilling := hring.ringFilling
  sequence := hring.sequence

theorem create_wellFormed {capacity : Nat} (h : create capacity = .ok t) : WellFormed t := by
  unfold create at h
  split at h
  · cases h
  · cases h
    constructor <;> simp <;> omega

/-! ## Candidates -/

/-- Among the candidates of its pages a write finds every block it reaches. -/
theorem WellFormed.spared (h : WellFormed t)
    (hsize : 0 < size) (hspace : physical.toNat + size ≤ 2 ^ 32)
    (hnot : ∀ page ∈ pageSpan physical.toNat size, index ∉ t.pageBlocks page) :
    Spared (reachedBy physical size) t.blocks index := by
  intro tracked hget
  by_contra hreached
  rw [Bool.not_eq_false] at hreached
  obtain ⟨hpositive, hblock⟩ := h.inSpace tracked (List.mem_of_getElem? hget)
  obtain ⟨hleft, hright⟩ := overlap_of_reachedBy hreached hblock hspace
  obtain ⟨page, hmine, hwrite⟩ := share_page hpositive hsize hleft hright
  exact hnot page hwrite (h.listed index tracked hget page hmine)

theorem mem_sortedUnique {α : Type} [LinearOrder α] {values : List α} {a : α} :
    a ∈ sortedUnique values ↔ a ∈ values := by
  simp [sortedUnique]

theorem sortedUnique_pairwise {α : Type} [LinearOrder α] (values : List α) :
    (sortedUnique values).Pairwise (· < ·) := by
  have hsorted : (sortedUnique values).Pairwise (· ≤ ·) :=
    (List.pairwise_insertionSort (· ≤ ·) values).sublist (List.dedup_sublist _)
  have hnodup : (sortedUnique values).Pairwise (· ≠ ·) := List.nodup_dedup _
  exact (hsorted.and hnodup).imp fun ⟨hle, hne⟩ => lt_of_le_of_ne hle hne

/-- The indexed candidates are those of a scan that lie on one of the pages. -/
theorem WellFormed.candidates_eq (h : WellFormed t)
    (pages : List Nat) : sortedUnique (pages.flatMap t.pageBlocks) =
      (List.range t.blocks.length).filter fun index =>
        decide (∃ page ∈ pages, index ∈ t.pageBlocks page) := by
  apply List.Pairwise.eq_of_mem_iff (sortedUnique_pairwise _) (List.pairwise_lt_range.filter _)
  intro index
  rw [mem_sortedUnique, List.mem_filter, List.mem_flatMap, List.mem_range, decide_eq_true_eq]
  constructor
  · rintro ⟨page, hpage, hindex⟩
    exact ⟨h.bounded page index hindex, page, hpage, hindex⟩
  · exact fun ⟨_, hex⟩ => hex

/-- Both ways of looking for candidates make the same sweep. -/
theorem WellFormed.sweepBlocks_eq (h : WellFormed t) (hsize : 0 < size)
    (hspace : physical.toNat + size ≤ 2 ^ 32) :
    t.sweepBlocks (reachedBy physical size) (t.candidateBlocks (pageSpan physical.toNat size)) =
      t.sweepBlocks (reachedBy physical size) (List.range t.blocks.length) := by
  unfold candidateBlocks
  cases t.lookupMode with
  | referenceScan => rfl
  | pageIndex =>
    dsimp only
    rw [h.candidates_eq]
    refine sweep_filter _ _ fun index _ hnot => ?_
    refine h.spared hsize hspace fun page hpage hindex => ?_
    simp only [decide_eq_false_iff_not, not_exists, not_and] at hnot
    exact hnot page hpage hindex

theorem sweepBlocks_range_blocks (t : ExecutableCodeTracker)
    (reached : ExecutableBlockRegistration → Bool) :
    (t.sweepBlocks reached (List.range t.blocks.length)).blocks =
      t.blocks.map (invalidateIf reached) := by
  unfold sweepBlocks
  refine sweep_blocks fun index hnot tracked hget => ?_
  rw [List.mem_range, not_lt] at hnot
  rw [List.getElem?_eq_none hnot] at hget
  cases hget

/-! ## The operations keep the invariant -/

theorem sweepBlocks_registrations (t : ExecutableCodeTracker)
    (reached : ExecutableBlockRegistration → Bool) (candidates : List Nat) :
    (t.sweepBlocks reached candidates).blocks.map (·.block) = t.blocks.map (·.block) := by
  unfold sweepBlocks
  suffices hfold : ∀ s : Sweep, (candidates.foldl (sweepBlock reached) s).blocks.map (·.block) =
      s.blocks.map (·.block) from hfold _
  induction candidates with
  | nil => exact fun _ => rfl
  | cons candidate rest ih =>
    intro s
    rw [List.foldl_cons, ih, sweepBlock_registrations]

theorem appendEvent_places (t : ExecutableCodeTracker) (event : CodeInvalidationEvent) :
    SamePlaces t (t.appendEvent event) := by
  unfold appendEvent
  split
  · exact ⟨rfl, rfl, rfl, rfl, rfl⟩
  · dsimp only
    split <;> exact ⟨rfl, rfl, rfl, rfl, rfl⟩

theorem appendEvent_ring (h : RingOk t)
    (event : CodeInvalidationEvent) : RingOk (t.appendEvent event) := by
  have hpositive : 0 < t.provenanceCapacity := Nat.zero_lt_of_lt h.ringStart
  unfold appendEvent
  split
  · exact ⟨h.ringSize, h.ringStart, h.ringFilling, h.sequence⟩
  · rename_i hlast
    have hcounted : t.nextProvenanceSequence + 1 ≤ uint64Max := by
      have := h.sequence
      omega
    dsimp only
    split
    · rename_i hfull
      refine ⟨?_, Nat.mod_lt _ hpositive, ?_, hcounted⟩
      · simp [hfull]
      · intro hlt
        simp [hfull] at hlt
    · rename_i hroom
      have hlt : t.invalidationEvents.length < t.provenanceCapacity :=
        lt_of_le_of_ne h.ringSize hroom
      refine ⟨?_, h.ringStart, fun _ => h.ringFilling hlt, hcounted⟩
      simp only [List.length_append, List.length_singleton]
      omega

theorem SamePlaces.trans {t'' : ExecutableCodeTracker} (h : SamePlaces t t')
    (h' : SamePlaces t' t'') : SamePlaces t t'' :=
  ⟨h'.registrations.trans h.registrations, h'.identityIndex.trans h.identityIndex,
    h'.pageBlocks.trans h.pageBlocks, h'.provenanceCapacity.trans h.provenanceCapacity,
    h'.eventCapacity.trans h.eventCapacity⟩

theorem invalidateRange_places (t : ExecutableCodeTracker) (address : BitVec 32) (size : Nat)
    (source : CodeWriteSource) : SamePlaces t (t.invalidateRange address size source).2 := by
  refine SamePlaces.trans ?_ (appendEvent_places _ _)
  exact ⟨sweepBlocks_registrations t _ _, rfl, rfl, rfl, rfl⟩

theorem invalidateRange_ring (h : RingOk t) (address : BitVec 32)
    (size : Nat) (source : CodeWriteSource) : RingOk (t.invalidateRange address size source).2 := by
  refine appendEvent_ring ?_ _
  exact ⟨h.ringSize, h.ringStart, h.ringFilling, h.sequence⟩

variable {result : CodeInvalidationResult} {source : CodeWriteSource} {address : BitVec 32}
  {bytesChanged : Bool}

/-- The two ways a write is observed. -/
theorem observeWrite_cases
    (h : t.observeWrite address size source bytesChanged = .ok (result, t')) :
    0 < size ∧ (canonicalPhysicalAddress address).toNat + size ≤ 2 ^ 32 ∧
      ((bytesChanged = false ∧ t' = t.recordInvalidationEvent address
          (canonicalPhysicalAddress address) size result ∧
          result = { source := source, byteIdentical := true }) ∨
        (bytesChanged = true ∧ (result, t') = t.invalidateRange address size source)) := by
  unfold observeWrite at h
  dsimp only at h
  split at h
  · cases h
  · rename_i hsize
    split at h
    · cases h
    · rename_i hspace
      simp only [inAddressSpace, Bool.not_eq_true', Bool.not_eq_false, Bool.and_eq_true,
        decide_eq_true_eq] at hspace
      refine ⟨by omega, hspace.2, ?_⟩
      split at h
      · rename_i hsame
        cases h
        exact .inl ⟨by simpa using hsame, rfl, rfl⟩
      · rename_i hchanged
        exact .inr ⟨by simpa using hchanged, (Except.ok.inj h).symm⟩

theorem WellFormed.observeWrite (ht : WellFormed t)
    (h : t.observeWrite address size source bytesChanged = .ok (result, t')) : WellFormed t' := by
  obtain ⟨_, _, ⟨_, rfl, _⟩ | ⟨_, hrange⟩⟩ := observeWrite_cases h
  · exact ht.transfer (appendEvent_places _ _) (appendEvent_ring ht.ring _)
  · have ht' : t' = (t.invalidateRange address size source).2 := congrArg Prod.snd hrange
    rw [ht']
    exact ht.transfer (invalidateRange_places _ _ _ _) (invalidateRange_ring ht.ring _ _ _)

theorem checkRegistration_ok (h : checkRegistration block = .ok ()) :
    0 < block.size.toNat ∧ block.physicalStart.toNat + block.size.toNat ≤ 2 ^ 32 := by
  unfold checkRegistration at h
  split at h
  · cases h
  · rename_i hempty
    split at h
    · cases h
    · rename_i hspace
      have hsize : block.size ≠ 0 := fun hzero => hempty (.inr (.inr hzero))
      have hne : block.size.toNat ≠ 0 := fun hzero => hsize (BitVec.eq_of_toNat_eq hzero)
      omega

/-- What a registration does: a new block at the end, or links and validity for
the block that has the identity. -/
theorem registerBlock_cases
    {result : BlockRegistrationResult} (h : t.registerBlock block = .ok (result, t')) :
    let canonical := { block with physicalStart := canonicalPhysicalAddress block.physicalStart }
    (t.identityIndex block.identity = none ∧ t' = t.appendBlock canonical ∧
      0 < canonical.size.toNat ∧ canonical.physicalStart.toNat + canonical.size.toNat ≤ 2 ^ 32) ∨
    (∃ index duplicate links, t.identityIndex block.identity = some index ∧
      t.blocks[index]? = some duplicate ∧
      t' = { t with blocks :=
        t.blocks.set index ⟨{ duplicate.block with incomingLinks := links }, true⟩ }) := by
  intro canonical
  unfold registerBlock at h
  simp only [bind, Except.bind] at h
  split at h
  · cases h
  · rename_i hcheck
    split at h
    · rename_i index hindex
      split at h
      · rename_i duplicate hget
        split at h
        · cases h
        · cases h
          exact .inr ⟨index, duplicate, _, hindex, hget, rfl⟩
      · cases h
    · rename_i hnone
      cases h
      exact .inl ⟨hnone, rfl, checkRegistration_ok hcheck⟩

theorem WellFormed.appendBlock (ht : WellFormed t) (hnew : t.identityIndex block.identity = none)
    (hsize : 0 < block.size.toNat)
    (hspace : block.physicalStart.toNat + block.size.toNat ≤ 2 ^ 32) :
    WellFormed (t.appendBlock block) := by
  have hget : ∀ {index : Nat} {tracked : TrackedExecutableBlock}, (t.blocks ++ [⟨block, true⟩])[index]? = some tracked →
      t.blocks[index]? = some tracked ∨ index = t.blocks.length ∧ tracked = ⟨block, true⟩ := by
    intro index tracked hget
    rcases lt_trichotomy index t.blocks.length with hlt | heq | hgt
    · rw [List.getElem?_append_left hlt] at hget
      exact .inl hget
    · subst heq
      simp only [List.getElem?_append_right (Nat.le_refl _), Nat.sub_self,
        List.getElem?_cons_zero, Option.some.injEq] at hget
      exact .inr ⟨rfl, hget.symm⟩
    · rw [List.getElem?_eq_none (by simp; omega)] at hget
      cases hget
  have hold : ∀ {index : Nat} {tracked : TrackedExecutableBlock}, t.blocks[index]? = some tracked →
      (t.blocks ++ [(⟨block, true⟩ : TrackedExecutableBlock)])[index]? = some tracked := by
    intro index tracked hget
    rw [List.getElem?_append_left (List.getElem?_eq_some_iff.mp hget).1]
    exact hget
  refine
    { inSpace := ?_, listed := ?_, bounded := ?_, identified := ?_, named := ?_
      positive := ht.positive, reserved := ht.reserved, ringSize := ht.ringSize
      ringStart := ht.ringStart, ringFilling := ht.ringFilling, sequence := ht.sequence }
  · intro tracked hmem
    rcases List.mem_append.mp hmem with hmem | hmem
    · exact ht.inSpace tracked hmem
    · rw [List.mem_singleton.mp hmem]
      exact ⟨hsize, hspace⟩
  · intro index tracked hindex page hpage
    show index ∈ if page ∈ pageSpan block.physicalStart.toNat block.size.toNat
      then t.pageBlocks page ++ [t.blocks.length] else t.pageBlocks page
    rcases hget hindex with hindex | ⟨rfl, rfl⟩
    · have hmem := ht.listed index tracked hindex page hpage
      split
      · exact List.mem_append_left _ hmem
      · exact hmem
    · rw [if_pos hpage]
      exact List.mem_append_right _ (List.mem_singleton.mpr rfl)
  · intro page index hmem
    have hmem : index ∈ if page ∈ pageSpan block.physicalStart.toNat block.size.toNat
      then t.pageBlocks page ++ [t.blocks.length] else t.pageBlocks page := hmem
    show index < (t.blocks ++ [_]).length
    rw [List.length_append, List.length_singleton]
    split at hmem
    · rcases List.mem_append.mp hmem with hmem | hmem
      · have := ht.bounded page index hmem
        omega
      · rw [List.mem_singleton.mp hmem]
        omega
    · have := ht.bounded page index hmem
      omega
  · intro identity index hindex
    have hindex : Function.update t.identityIndex block.identity (some t.blocks.length) identity =
      some index := hindex
    by_cases hid : identity = block.identity
    · subst hid
      rw [Function.update_self, Option.some.injEq] at hindex
      subst hindex
      refine ⟨⟨block, true⟩, ?_, rfl⟩
      simp [ExecutableCodeTracker.appendBlock]
    · rw [Function.update_of_ne hid] at hindex
      obtain ⟨tracked, hget, hname⟩ := ht.identified identity index hindex
      exact ⟨tracked, hold hget, hname⟩
  · intro index tracked hindex
    show Function.update t.identityIndex block.identity (some t.blocks.length)
      tracked.block.identity = some index
    rcases hget hindex with hindex | ⟨rfl, rfl⟩
    · have hname := ht.named index tracked hindex
      rw [Function.update_of_ne, hname]
      intro hid
      rw [hid, hnew] at hname
      cases hname
    · exact Function.update_self ..

/-- Links and validity of a block are no part of what the invariant reads. -/
theorem WellFormed.setBlock (ht : WellFormed t)
    {before after : TrackedExecutableBlock} (hget : t.blocks[index]? = some before)
    (hidentity : after.block.identity = before.block.identity)
    (hstart : after.block.physicalStart = before.block.physicalStart)
    (hsize : after.block.size = before.block.size) :
    WellFormed { t with blocks := t.blocks.set index after } := by
  have hback : ∀ {other : Nat} {tracked : TrackedExecutableBlock}, (t.blocks.set index after)[other]? = some tracked →
      ∃ old, t.blocks[other]? = some old ∧ tracked.block.identity = old.block.identity ∧
        tracked.block.physicalStart = old.block.physicalStart ∧
        tracked.block.size = old.block.size := by
    intro other tracked hother
    rw [List.getElem?_set] at hother
    split at hother
    · rename_i heq
      subst heq
      split at hother
      · cases hother
        exact ⟨before, hget, hidentity, hstart, hsize⟩
      · cases hother
    · exact ⟨tracked, hother, rfl, rfl, rfl⟩
  refine
    { inSpace := ?_, listed := ?_, bounded := ?_, identified := ?_, named := ?_
      positive := ht.positive, reserved := ht.reserved, ringSize := ht.ringSize
      ringStart := ht.ringStart, ringFilling := ht.ringFilling, sequence := ht.sequence }
  · intro tracked hmem
    obtain ⟨other, hother⟩ := List.mem_iff_getElem?.mp hmem
    obtain ⟨old, hold, _, hs, hz⟩ := hback hother
    rw [hs, hz]
    exact ht.inSpace old (List.mem_of_getElem? hold)
  · intro other tracked hother page hpage
    obtain ⟨old, hold, _, hs, hz⟩ := hback hother
    rw [hs, hz] at hpage
    exact ht.listed other old hold page hpage
  · intro page other hmem
    show other < (t.blocks.set index after).length
    rw [List.length_set]
    exact ht.bounded page other hmem
  · intro identity other hother
    obtain ⟨old, hold, hname⟩ := ht.identified identity other hother
    show ∃ tracked, (t.blocks.set index after)[other]? = some tracked ∧ _
    rw [List.getElem?_set]
    split
    · rename_i heq
      subst heq
      rw [hget, Option.some.injEq] at hold
      subst hold
      rw [if_pos (List.getElem?_eq_some_iff.mp hget).1]
      exact ⟨after, rfl, hidentity.trans hname⟩
    · exact ⟨old, hold, hname⟩
  · intro other tracked hother
    obtain ⟨old, hold, hname, _⟩ := hback hother
    rw [hname]
    exact ht.named other old hold

theorem WellFormed.registerBlock (ht : WellFormed t) {result : BlockRegistrationResult}
    (h : t.registerBlock block = .ok (result, t')) : WellFormed t' := by
  rcases registerBlock_cases h with ⟨hnew, rfl, hsize, hspace⟩ | ⟨index, before, links, _, hget, rfl⟩
  · exact ht.appendBlock hnew hsize hspace
  · exact ht.setBlock hget rfl rfl rfl

theorem retireBlock_cases (t : ExecutableCodeTracker) (identity : String) :
    (t.retireBlock identity).2 = t ∨
      ∃ index tracked, t.identityIndex identity = some index ∧ t.blocks[index]? = some tracked ∧
        tracked.valid = true ∧ (t.retireBlock identity).2 =
          { t with blocks := t.blocks.set index { tracked with valid := false } } := by
  unfold retireBlock
  split
  · exact .inl rfl
  · rename_i index hindex
    split
    · rename_i tracked hget
      split
      · rename_i hvalid
        exact .inr ⟨index, tracked, hindex, hget, hvalid, rfl⟩
      · exact .inl rfl
    · exact .inl rfl

theorem WellFormed.retireBlock (ht : WellFormed t)
    (identity : String) : WellFormed (t.retireBlock identity).2 := by
  rcases retireBlock_cases t identity with heq | ⟨index, tracked, _, hget, _, heq⟩
  · rw [heq]
    exact ht
  · rw [heq]
    exact ht.setBlock hget rfl rfl rfl

theorem WellFormed.rotateEvents (ht : WellFormed t) : WellFormed t.rotateEvents := by
  refine ht.transfer ⟨rfl, rfl, rfl, rfl, rfl⟩ ⟨?_, ht.positive, fun _ => rfl, ht.sequence⟩
  show (t.invalidationEvents.rotate _).length ≤ t.provenanceCapacity
  rw [List.length_rotate]
  exact ht.ringSize

variable {events : List GuestWriteEvent}

theorem observeWriteBatch_cases
    (h : t.observeWriteBatch events = some t') : ∃ ranges maps, changedRanges events = some ranges ∧
      incrementBatchPages (t.generations, t.hotspots) [] (ranges.map (·.2.2)) = some maps ∧
      t' = t.sweepBatch events ranges maps := by
  unfold observeWriteBatch at h
  split at h
  · cases h
  · obtain ⟨ranges, hranges, h⟩ := Option.bind_eq_some_iff.mp h
    obtain ⟨maps, hmaps, h⟩ := Option.bind_eq_some_iff.mp h
    split at h
    · cases h
    · exact ⟨ranges, maps, hranges, hmaps, (Option.some.inj h).symm⟩

theorem countUp_iterate_le (n : Nat) {counter : Nat} (h : counter ≤ uint64Max) :
    countUp^[n] counter ≤ uint64Max := by
  induction n generalizing counter with
  | zero => exact h
  | succ n ih =>
    rw [Function.iterate_succ_apply]
    refine ih ?_
    unfold countUp
    split
    · exact h
    · omega

theorem WellFormed.observeWriteBatch (ht : WellFormed t)
    (h : t.observeWriteBatch events = some t') : WellFormed t' := by
  obtain ⟨ranges, maps, _, _, rfl⟩ := observeWriteBatch_cases h
  refine ht.transfer ⟨sweepBlocks_registrations t _ _, rfl, rfl, rfl, rfl⟩
    ⟨ht.ringSize, ht.ringStart, ht.ringFilling, ?_⟩
  exact countUp_iterate_le _ ht.sequence

theorem WellFormed.commitDiscLoadWrite (ht : WellFormed t)
    {plan : PreparedDiscLoadWrite} (h : t.commitDiscLoadWrite plan = some t') : WellFormed t' := by
  unfold ExecutableCodeTracker.commitDiscLoadWrite at h
  simp only [bind, Option.bind, pure] at h
  split at h
  · cases h
  · split at h
    · cases h
    · cases h
      refine ht.transfer (SamePlaces.trans ?_ (appendEvent_places _ _)) (appendEvent_ring ?_ _)
      · exact ⟨sweepBlocks_registrations t _ _, rfl, rfl, rfl, rfl⟩
      · exact ⟨ht.ringSize, ht.ringStart, ht.ringFilling, ht.sequence⟩

/-! ## Histories -/

/-- What the owner of a tracker may do with it. -/
inductive Operation
  | registerBlock (block : ExecutableBlockRegistration)
  | retireBlock (identity : String)
  | observeWrite (address : BitVec 32) (size : Nat) (source : CodeWriteSource)
      (bytesChanged : Bool)
  | observeWriteBatch (events : List GuestWriteEvent)
  | discLoadWrite (plan : PreparedDiscLoadWrite)
  | invalidationEvents
  | setLookupMode (mode : CodeInvalidationLookupMode)
  | resetPerformanceCounters

/-- A call that throws leaves the tracker as it was, and one that terminates has
no successor. -/
def apply (t : ExecutableCodeTracker) : Operation → Option ExecutableCodeTracker
  | .registerBlock block =>
    match t.registerBlock block with
    | .ok (_, t') => some t'
    | .error _ => some t
  | .retireBlock identity => some (t.retireBlock identity).2
  | .observeWrite address size source bytesChanged =>
    match t.observeWrite address size source bytesChanged with
    | .ok (_, t') => some t'
    | .error _ => some t
  | .observeWriteBatch events => t.observeWriteBatch events
  | .discLoadWrite plan => t.commitDiscLoadWrite plan
  | .invalidationEvents => some t.rotateEvents
  | .setLookupMode mode => some { t with lookupMode := mode }
  | .resetPerformanceCounters => some { t with performanceCounters := {} }

def run (t : ExecutableCodeTracker) (operations : List Operation) : Option ExecutableCodeTracker :=
  operations.foldlM apply t

theorem WellFormed.apply (ht : WellFormed t)
    {operation : Operation} (h : t.apply operation = some t') : WellFormed t' := by
  cases operation with
  | registerBlock block =>
    unfold ExecutableCodeTracker.apply at h
    dsimp only at h
    split at h
    · rename_i hregister
      cases h
      exact ht.registerBlock hregister
    · cases h
      exact ht
  | retireBlock identity =>
    cases h
    exact ht.retireBlock identity
  | observeWrite address size source bytesChanged =>
    unfold ExecutableCodeTracker.apply at h
    dsimp only at h
    split at h
    · rename_i hobserve
      cases h
      exact ht.observeWrite hobserve
    · cases h
      exact ht
  | observeWriteBatch events => exact ht.observeWriteBatch h
  | discLoadWrite plan => exact ht.commitDiscLoadWrite h
  | invalidationEvents =>
    cases h
    exact ht.rotateEvents
  | setLookupMode mode =>
    cases h
    exact ht.transfer ⟨rfl, rfl, rfl, rfl, rfl⟩ ⟨ht.ringSize, ht.ringStart, ht.ringFilling, ht.sequence⟩
  | resetPerformanceCounters =>
    cases h
    exact ht.transfer ⟨rfl, rfl, rfl, rfl, rfl⟩ ⟨ht.ringSize, ht.ringStart, ht.ringFilling, ht.sequence⟩

theorem WellFormed.run (ht : WellFormed t)
    {operations : List Operation} (h : t.run operations = some t') : WellFormed t' := by
  induction operations generalizing t with
  | nil =>
    cases h
    exact ht
  | cons operation rest ih =>
    obtain ⟨next, hnext, hrest⟩ := Option.bind_eq_some_iff.mp h
    exact ih (ht.apply hnext) hrest

end KatanaRecomp.Runtime.ExecutableCodeTracker
