import KatanaRecomp.Runtime.CodeTrackerInvariant

/-! # Lookup modes, batches and dispatch stamps

The page index and the scan over all blocks find the same blocks, and a batch of
stores makes invalid what the stores would one after the other. A caller that
has validated a block may skip its validation while the invalidation count stays
the same, which is safe as long as the block is not retired. -/
namespace KatanaRecomp.Runtime.ExecutableCodeTracker

/-! ## The two lookup modes -/

/-- The tracker in another mode, with other performance counters. -/
def inMode (t : ExecutableCodeTracker) (mode : CodeInvalidationLookupMode)
    (counters : CodeInvalidationPerformanceCounters) : ExecutableCodeTracker :=
  { t with lookupMode := mode, performanceCounters := counters }

/-- The operations of a history in one mode. -/
def Operation.isScalar : Operation → Bool
  | .registerBlock _ | .retireBlock _ | .observeWrite .. | .invalidationEvents
  | .resetPerformanceCounters => true
  | _ => false

section
variable (mode : CodeInvalidationLookupMode) (counters : CodeInvalidationPerformanceCounters)

section
variable (t : ExecutableCodeTracker)
include t

theorem registerBlock_inMode (block : ExecutableBlockRegistration) :
    (t.inMode mode counters).registerBlock block =
      (t.registerBlock block).map fun (result, t') => (result, t'.inMode mode counters) := by
  unfold registerBlock
  simp only [bind, Except.bind, inMode]
  split
  · rfl
  · split
    · split
      · split <;> rfl
      · rfl
    · rfl

theorem retireBlock_inMode (identity : String) : ((t.inMode mode counters).retireBlock identity).2 =
      (t.retireBlock identity).2.inMode mode counters := by
  unfold retireBlock
  simp only [inMode]
  split
  · rfl
  · split
    · split <;> rfl
    · rfl

theorem appendEvent_inMode (event : CodeInvalidationEvent) :
    (t.inMode mode counters).appendEvent event = (t.appendEvent event).inMode mode counters := by
  unfold appendEvent
  by_cases hlast : t.nextProvenanceSequence = uint64Max
  · simp [inMode, hlast]
  · by_cases hfull : t.invalidationEvents.length = t.provenanceCapacity
    · simp [inMode, hlast, hfull, pageGeneration]
    · simp [inMode, hlast, hfull, pageGeneration]

end

variable {t : ExecutableCodeTracker}

section
variable (ht : WellFormed t)
include ht

theorem wellFormed_inMode : WellFormed (t.inMode mode counters) :=
  ht.transfer ⟨rfl, rfl, rfl, rfl, rfl⟩ ⟨ht.ringSize, ht.ringStart, ht.ringFilling, ht.sequence⟩

/-- A write has the same effects in both modes, counters apart. -/
theorem invalidateRange_inMode
    {address : BitVec 32} {size : Nat} (source : CodeWriteSource) (hsize : 0 < size)
    (hspace : (canonicalPhysicalAddress address).toNat + size ≤ 2 ^ 32) :
    ∃ counters', (t.inMode mode counters).invalidateRange address size source =
      ((t.invalidateRange address size source).1,
        (t.invalidateRange address size source).2.inMode mode counters') := by
  have hhere := ht.sweepBlocks_eq hsize hspace
  have hthere := (wellFormed_inMode mode counters ht).sweepBlocks_eq hsize hspace
  have hsame : (t.inMode mode counters).sweepBlocks
      (reachedBy (canonicalPhysicalAddress address) size)
      (List.range (t.inMode mode counters).blocks.length) =
      t.sweepBlocks (reachedBy (canonicalPhysicalAddress address) size)
        (List.range t.blocks.length) := rfl
  unfold invalidateRange recordInvalidationEvent
  dsimp only
  rw [hhere, hthere, hsame]
  refine ⟨(t.inMode mode counters).countCandidates ((t.inMode mode counters).candidateBlocks
    (pageSpan (canonicalPhysicalAddress address).toNat size)).length, ?_⟩
  rw [← appendEvent_inMode]
  rfl

theorem observeWrite_inMode
    (address : BitVec 32) (size : Nat) (source : CodeWriteSource) (bytesChanged : Bool) :
    ∃ counters', (t.inMode mode counters).observeWrite address size source bytesChanged =
      (t.observeWrite address size source bytesChanged).map fun (result, t') =>
        (result, t'.inMode mode counters') := by
  unfold observeWrite
  dsimp only
  split
  · exact ⟨counters, rfl⟩
  · rename_i hsize
    split
    · exact ⟨counters, rfl⟩
    · rename_i hspace
      simp only [inAddressSpace, Bool.not_eq_true', Bool.not_eq_false, Bool.and_eq_true,
        decide_eq_true_eq] at hspace
      split
      · refine ⟨counters, ?_⟩
        unfold recordInvalidationEvent
        rw [appendEvent_inMode]
        rfl
      · obtain ⟨counters', heq⟩ := invalidateRange_inMode mode counters ht source
          (Nat.pos_of_ne_zero hsize) hspace.2
        exact ⟨counters', by rw [heq]; rfl⟩

theorem apply_inMode {operation : Operation}
    (h : operation.isScalar = true) : ∃ t' counters', t.apply operation = some t' ∧
      (t.inMode mode counters).apply operation = some (t'.inMode mode counters') := by
  cases operation with
  | registerBlock block =>
    unfold apply
    dsimp only
    rw [registerBlock_inMode]
    cases t.registerBlock block with
    | error e => exact ⟨t, counters, rfl, rfl⟩
    | ok result => exact ⟨result.2, counters, rfl, rfl⟩
  | retireBlock identity =>
    refine ⟨_, counters, rfl, ?_⟩
    rw [← retireBlock_inMode]
    rfl
  | observeWrite address size source bytesChanged =>
    unfold apply
    dsimp only
    obtain ⟨counters', heq⟩ := observeWrite_inMode mode counters ht address size source bytesChanged
    rw [heq]
    cases t.observeWrite address size source bytesChanged with
    | error e => exact ⟨t, counters, rfl, rfl⟩
    | ok result => exact ⟨result.2, counters', rfl, rfl⟩
  | invalidationEvents => exact ⟨_, counters, rfl, rfl⟩
  | resetPerformanceCounters => exact ⟨_, {}, rfl, rfl⟩
  | observeWriteBatch events => cases h
  | discLoadWrite plan => cases h
  | setLookupMode mode => cases h

theorem run_inMode {operations : List Operation}
    (h : ∀ operation ∈ operations, operation.isScalar = true) :
    ∃ t' counters', t.run operations = some t' ∧
      (t.inMode mode counters).run operations = some (t'.inMode mode counters') := by
  induction operations generalizing t counters with
  | nil => exact ⟨t, counters, rfl, rfl⟩
  | cons operation rest ih =>
    obtain ⟨next, counters', hhere, hthere⟩ :=
      apply_inMode mode counters ht (h operation List.mem_cons_self)
    obtain ⟨t', counters'', hrest, hrest'⟩ := ih counters' (ht.apply hhere)
      fun other hmem => h other (List.mem_cons_of_mem _ hmem)
    refine ⟨t', counters'', ?_, ?_⟩
    · unfold run at *
      rw [List.foldlM_cons, hhere]
      exact hrest
    · unfold run at *
      rw [List.foldlM_cons, hthere]
      exact hrest'

end
end

variable {t : ExecutableCodeTracker} {address : BitVec 32}

/-- A registered block that shares a byte with a range is found under its pages. -/
theorem WellFormed.tracksAddress (ht : WellFormed t) {size : Nat}
    (hspace : inAddressSpace (canonicalPhysicalAddress address) size = true)
    {tracked : TrackedExecutableBlock} (hmem : tracked ∈ t.blocks) {byte : Nat}
    (hblock : tracked.block.physicalStart.toNat ≤ byte ∧
      byte < tracked.block.physicalStart.toNat + tracked.block.size.toNat)
    (hrange : (canonicalPhysicalAddress address).toNat ≤ byte ∧
      byte < (canonicalPhysicalAddress address).toNat + size) :
    t.tracksAddress address size = true := by
  obtain ⟨index, hget⟩ := List.mem_iff_getElem?.mp hmem
  have hlisted := ht.listed index tracked hget (pageOf byte) (pageOf_mem_pageSpan hblock.1 hblock.2)
  unfold ExecutableCodeTracker.tracksAddress
  dsimp only
  rw [if_neg (by omega), if_neg (by simp [hspace])]
  refine List.any_eq_true.mpr ⟨pageOf byte, pageOf_mem_pageSpan hrange.1 hrange.2, ?_⟩
  refine List.any_eq_true.mpr ⟨index, hlisted, ?_⟩
  rw [hget]
  simp only [Bool.and_eq_true, decide_eq_true_eq]
  omega

/-- A tracker with the page index and one that scans all blocks hold the same
blocks, generations, counts and events after every history, and an address range
inside the address space that is not tracked has no byte in common with a
registered block. A range that runs past the end counts as not tracked. -/
theorem lookup_modes_agree {capacity : Nat} {initial : ExecutableCodeTracker}
    (hcreate : create capacity = .ok initial) {operations : List Operation}
    (hscalar : ∀ operation ∈ operations, operation.isScalar = true) : ∃ indexed scanned,
      initial.run operations = some indexed ∧
      ({ initial with lookupMode := .referenceScan } : ExecutableCodeTracker).run operations =
        some scanned ∧ indexed.blocks = scanned.blocks ∧ indexed.generations = scanned.generations ∧
      indexed.hotspots = scanned.hotspots ∧ indexed.invalidationCount = scanned.invalidationCount ∧
      indexed.snapshot.invalidationEvents = scanned.snapshot.invalidationEvents ∧
      indexed.nextProvenanceSequence = scanned.nextProvenanceSequence ∧
      indexed.droppedProvenanceEvents = scanned.droppedProvenanceEvents ∧
      (∀ (t : ExecutableCodeTracker) address size,
        inAddressSpace (canonicalPhysicalAddress address) size = false →
        t.tracksAddress address size = false) ∧
      ∀ t ∈ [indexed, scanned], ∀ address size,
        inAddressSpace (canonicalPhysicalAddress address) size = true →
        t.tracksAddress address size = false → ∀ tracked ∈ t.blocks, ∀ byte,
          tracked.block.physicalStart.toNat ≤ byte →
          byte < tracked.block.physicalStart.toNat + tracked.block.size.toNat →
          ¬((canonicalPhysicalAddress address).toNat ≤ byte ∧
            byte < (canonicalPhysicalAddress address).toNat + size) := by
  have hinitial := create_wellFormed hcreate
  obtain ⟨indexed, counters, hindexed, hscanned⟩ :=
    run_inMode .referenceScan initial.performanceCounters hinitial hscalar
  have hwell := hinitial.run hindexed
  refine ⟨indexed, _, hindexed, hscanned, rfl, rfl, rfl, rfl, rfl, rfl, rfl, ?_, ?_⟩
  · intro t address size hpast
    unfold tracksAddress
    dsimp only
    rw [hpast]
    exact ite_self _
  intro t ht address size hspace hnot tracked hmem byte hlow hhigh hrange
  have hwellt : WellFormed t := by
    rcases List.mem_cons.mp ht with rfl | ht
    · exact hwell
    · rw [List.mem_singleton.mp ht]
      exact wellFormed_inMode _ _ hwell
  rw [hwellt.tracksAddress hspace hmem ⟨hlow, hhigh⟩ hrange] at hnot
  cases hnot

/-- A block of sixteen bytes at the end of the address space. -/
def topBlock : ExecutableBlockRegistration :=
  { identity := "top", physicalStart := 0xFFFFFFF0, size := 16, provenance := "image" }

/-- A range that runs over the end of the address space counts as untracked. -/
theorem tracksAddress_past_end : ∃ initial t, create 1 = .ok initial ∧
      initial.run [.registerBlock topBlock] = some t ∧ t.tracksAddress 0xFFFFFFF0 17 = false ∧
      ∃ tracked ∈ t.blocks, tracked.block.physicalStart = 0xFFFFFFF0 ∧ tracked.block.size = 16 :=
  ⟨_, _, rfl, rfl, rfl, _, List.mem_singleton.mpr rfl, rfl, rfl⟩

theorem lookup_modes_agree_top : ∃ initial indexed, create 1 = .ok initial ∧
      initial.run [.registerBlock topBlock, .observeWrite 0xFFFFFFF8 4 .cpu true] = some indexed ∧
      ∃ scanned, ({ initial with lookupMode := .referenceScan } : ExecutableCodeTracker).run
          [.registerBlock topBlock, .observeWrite 0xFFFFFFF8 4 .cpu true] = some scanned ∧
        indexed.blocks = scanned.blocks := by
  have hscalar : ∀ operation ∈
      [Operation.registerBlock topBlock, .observeWrite 0xFFFFFFF8 4 .cpu true],
      operation.isScalar = true := by decide
  have hcreate : create 1 = .ok { provenanceCapacity := 1, eventCapacity := 1 } := rfl
  obtain ⟨indexed, scanned, hindexed, hscanned, hblocks, _⟩ := lookup_modes_agree hcreate hscalar
  exact ⟨_, indexed, hcreate, hindexed, scanned, hscanned, hblocks⟩

/-! ## Batches -/

theorem invalidateIf_invalidateIf (p q : ExecutableBlockRegistration → Bool)
    (tracked : TrackedExecutableBlock) :
    invalidateIf q (invalidateIf p tracked) = invalidateIf (fun block => p block || q block) tracked := by
  obtain ⟨block, valid⟩ := tracked
  cases valid <;> cases hp : p block <;> cases hq : q block <;> simp [invalidateIf, hp, hq]

theorem map_invalidateIf_false (blocks : List TrackedExecutableBlock) :
    blocks.map (invalidateIf fun _ => false) = blocks := by
  have hid : (invalidateIf fun _ => false) = id := by
    funext tracked
    simp [invalidateIf]
  rw [hid, List.map_id]

variable {event : GuestWriteEvent}

/-- A store that a batch admits lies on one page. -/
theorem directWriteBatchRange_spec {physical : BitVec 32} {page : Nat}
    (h : directWriteBatchRange event = some (physical, page)) :
    physical = canonicalPhysicalAddress event.address ∧ 0 < event.size ∧
      inAddressSpace physical event.size = true ∧ pageSpan physical.toNat event.size = [page] := by
  unfold directWriteBatchRange at h
  split at h
  · cases h
  · rename_i hsize
    dsimp only at h
    split at h
    · cases h
    · rename_i hend
      split at h
      · rename_i hpage
        cases h
        have hsmall : event.size = 1 ∨ event.size = 2 ∨ event.size = 4 := by omega
        have hdiv : ((canonicalPhysicalAddress event.address).toNat + event.size - 1) / pageSize =
            (canonicalPhysicalAddress event.address).toNat / pageSize := by
          simp only [pageOf, pageSize] at hpage ⊢
          omega
        refine ⟨rfl, by omega, ?_, ?_⟩
        · unfold inAddressSpace uint32Max
          rw [Bool.and_eq_true]
          exact ⟨decide_eq_true (by omega), decide_eq_true (by omega)⟩
        · simp [pageSpan, hdiv]
      · cases h

/-- The stores of a batch observed one after the other. -/
def replay (t : ExecutableCodeTracker) (events : List GuestWriteEvent) :
    Except String ExecutableCodeTracker := events.foldlM (fun t event =>
    (t.observeWrite event.address event.size event.source event.bytesChanged).map (·.2)) t

/-- The pages of the changed stores of a batch, store by store. -/
def touchedPages (events : List GuestWriteEvent) : List Nat :=
  ((changedRanges events).getD []).map (·.2.2)

theorem changedRanges_cons_same (rest : List GuestWriteEvent)
    (h : event.bytesChanged = false) : changedRanges (event :: rest) = changedRanges rest := by
  unfold changedRanges
  rw [List.filter_cons_of_neg (by simp [h])]

variable {ranges : List (BitVec 32 × Nat × Nat)}

theorem changedRanges_cons_changed {rest : List GuestWriteEvent} (h : event.bytesChanged = true)
    (hranges : changedRanges (event :: rest) = some ranges) :
    ∃ physical page others, directWriteBatchRange event = some (physical, page) ∧
      changedRanges rest = some others ∧ ranges = (physical, event.size, page) :: others := by
  unfold changedRanges at hranges ⊢
  rw [List.filter_cons_of_pos (by simp [h]), List.mapM_cons] at hranges
  obtain ⟨range, hrange, hranges⟩ := Option.bind_eq_some_iff.mp hranges
  obtain ⟨others, hothers, hranges⟩ := Option.bind_eq_some_iff.mp hranges
  obtain ⟨⟨physical, page⟩, hphysical, rfl⟩ := Option.map_eq_some_iff.mp hrange
  exact ⟨physical, page, others, hphysical, hothers, (Option.some.inj hranges).symm⟩

theorem appendEvent_keeps (t : ExecutableCodeTracker) (event : CodeInvalidationEvent) :
    (t.appendEvent event).blocks = t.blocks ∧
      (t.appendEvent event).invalidationCount = t.invalidationCount ∧
      (t.appendEvent event).generations = t.generations ∧
      (t.appendEvent event).hotspots = t.hotspots := by
  unfold appendEvent
  split
  · exact ⟨rfl, rfl, rfl, rfl⟩
  · dsimp only
    split <;> exact ⟨rfl, rfl, rfl, rfl⟩

variable {t' : ExecutableCodeTracker}

/-- What one observed write does to blocks, count and generations. -/
theorem WellFormed.observeWrite_effects (ht : WellFormed t)
    {size : Nat} {source : CodeWriteSource} {bytesChanged : Bool}
    {result : CodeInvalidationResult}
    (h : t.observeWrite address size source bytesChanged = .ok (result, t')) :
    t'.blocks = t.blocks.map (invalidateIf fun block =>
        bytesChanged && reachedBy (canonicalPhysicalAddress address) size block) ∧
      t'.invalidationCount + validCount t'.blocks = t.invalidationCount + validCount t.blocks ∧
      t'.generations = incrementPages t.generations
        (if bytesChanged then pageSpan (canonicalPhysicalAddress address).toNat size else []) := by
  obtain ⟨hsize, hspace, ⟨hsame, rfl, _⟩ | ⟨hchanged, hrange⟩⟩ := observeWrite_cases h
  · obtain ⟨hblocks, hcount, hgenerations, _⟩ := appendEvent_keeps t _
    unfold recordInvalidationEvent
    rw [hblocks, hcount, hgenerations, hsame]
    exact ⟨(map_invalidateIf_false _).symm, rfl, rfl⟩
  · have ht' : t' = (t.invalidateRange address size source).2 := congrArg Prod.snd hrange
    subst ht'
    unfold invalidateRange recordInvalidationEvent
    dsimp only
    rw [(appendEvent_keeps _ _).1, (appendEvent_keeps _ _).2.1, (appendEvent_keeps _ _).2.2.1,
      ht.sweepBlocks_eq hsize hspace, hchanged]
    refine ⟨?_, ?_, rfl⟩
    · simp only [Bool.true_and]
      exact sweepBlocks_range_blocks t _
    · exact sweep_count _ _ _

variable {events : List GuestWriteEvent}

/-- A replay of stores that a batch admits, with the blocks, the count and the
generations it leaves. -/
theorem WellFormed.replay (ht : WellFormed t)
    (hadmitted : ∀ event ∈ events, (directWriteBatchRange event).isSome)
    (hranges : changedRanges events = some ranges) : ∃ t', t.replay events = .ok t' ∧
      t'.blocks = t.blocks.map (invalidateIf (reachedByAny ranges)) ∧
      t'.invalidationCount + validCount t'.blocks = t.invalidationCount + validCount t.blocks ∧
      t'.generations = incrementPages t.generations (ranges.map (·.2.2)) := by
  induction events generalizing t ranges with
  | nil =>
    cases hranges
    exact ⟨t, rfl, (map_invalidateIf_false _).symm, rfl, rfl⟩
  | cons event rest ih =>
    obtain ⟨⟨physical, page⟩, hrange⟩ :=
      Option.isSome_iff_exists.mp (hadmitted event List.mem_cons_self)
    obtain ⟨hphysical, hsize, hspace, hspan⟩ := directWriteBatchRange_spec hrange
    have hobserve : ∃ result next, t.observeWrite event.address event.size event.source
        event.bytesChanged = .ok (result, next) := by
      unfold ExecutableCodeTracker.observeWrite
      dsimp only
      rw [if_neg (by omega), if_neg (by rw [← hphysical]; simp [hspace])]
      cases event.bytesChanged <;> exact ⟨_, _, rfl⟩
    obtain ⟨result, next, hobserve⟩ := hobserve
    obtain ⟨hblocks, hcount, hgenerations⟩ := ht.observeWrite_effects hobserve
    rw [← hphysical] at hblocks hgenerations
    have hrest : ∀ other ∈ rest, (directWriteBatchRange other).isSome := fun other hmem =>
      hadmitted other (List.mem_cons_of_mem _ hmem)
    have hnext : t.replay (event :: rest) = next.replay rest := by
      unfold ExecutableCodeTracker.replay
      rw [List.foldlM_cons, hobserve]
      rfl
    rw [hnext]
    cases hchanged : event.bytesChanged with
    | false =>
      rw [changedRanges_cons_same rest hchanged] at hranges
      obtain ⟨t', hreplay, hblocks', hcount', hgenerations'⟩ :=
        ih (ht.observeWrite hobserve) hrest hranges
      have hunchanged : next.blocks = t.blocks := by
        rw [hblocks, hchanged]
        exact map_invalidateIf_false _
      refine ⟨t', hreplay, ?_, ?_, ?_⟩
      · rw [hblocks', hunchanged]
      · rw [hcount', hcount]
      · rw [hgenerations', hgenerations, hchanged]
        rfl
    | true =>
      obtain ⟨physical', page', others, hrange', hothers, rfl⟩ :=
        changedRanges_cons_changed hchanged hranges
      rw [hrange] at hrange'
      cases hrange'
      obtain ⟨t', hreplay, hblocks', hcount', hgenerations'⟩ :=
        ih (ht.observeWrite hobserve) hrest hothers
      refine ⟨t', hreplay, ?_, ?_, ?_⟩
      · rw [hblocks', hblocks, hchanged, List.map_map]
        congr 1
        funext tracked
        exact invalidateIf_invalidateIf _ _ tracked
      · rw [hcount', hcount]
      · rw [hgenerations', hgenerations, hchanged, if_pos rfl, hspan]
        rfl

/-! ### The pages of a batch -/

variable {map : Nat → Option Nat}

theorem incrementPage_isSome {page other : Nat}
    (h : (map other).isSome) : (incrementPage map page other).isSome := by
  unfold incrementPage
  by_cases heq : other = page
  · rw [heq, Function.update_self]
    rfl
  · rw [Function.update_of_ne heq]
    exact h

/-- Each page of a batch is counted once. -/
theorem incrementBatchPages_spec (pages previous : List Nat)
    (generations hotspots : Nat → Option Nat)
    (hgenerations : ∀ page ∈ pages, (generations page).isSome)
    (hhotspots : ∀ page ∈ pages, (hotspots page).isSome) :
    ∃ maps, incrementBatchPages (generations, hotspots) previous pages = some maps ∧
      ∀ page, maps.1 page = (generations page).map
        (· + if page ∈ pages ∧ page ∉ previous then 1 else 0) := by
  induction pages generalizing previous generations hotspots with
  | nil => exact ⟨(generations, hotspots), rfl, fun page => by simp⟩
  | cons head rest ih =>
    unfold incrementBatchPages
    by_cases hseen : head ∈ previous
    · rw [if_pos hseen]
      obtain ⟨maps, hmaps, hpages⟩ := ih (head :: previous) generations hotspots
        (fun page hmem => hgenerations page (List.mem_cons_of_mem _ hmem))
        (fun page hmem => hhotspots page (List.mem_cons_of_mem _ hmem))
      refine ⟨maps, hmaps, fun page => ?_⟩
      rw [hpages]
      have hiff : (page ∈ rest ∧ page ∉ head :: previous) ↔
          (page ∈ head :: rest ∧ page ∉ previous) := by
        simp only [List.mem_cons, not_or]
        constructor
        · exact fun ⟨hrest, _, hprevious⟩ => ⟨.inr hrest, hprevious⟩
        · rintro ⟨rfl | hrest, hprevious⟩
          · exact absurd hseen hprevious
          · exact ⟨hrest, fun heq => hprevious (heq ▸ hseen), hprevious⟩
      simp only [hiff]
    · have hg := hgenerations head List.mem_cons_self
      have hh := hhotspots head List.mem_cons_self
      rw [if_neg hseen, if_pos (by simp [hg, hh])]
      obtain ⟨maps, hmaps, hpages⟩ := ih (head :: previous) (incrementPage generations head)
        (incrementPage hotspots head)
        (fun page hmem => incrementPage_isSome (hgenerations page (List.mem_cons_of_mem _ hmem)))
        (fun page hmem => incrementPage_isSome (hhotspots page (List.mem_cons_of_mem _ hmem)))
      refine ⟨maps, hmaps, fun page => ?_⟩
      rw [hpages]
      by_cases heq : page = head
      · subst heq
        obtain ⟨generation, hgeneration⟩ := Option.isSome_iff_exists.mp hg
        simp [incrementPage, hgeneration, hseen]
      · simp [incrementPage, heq]

/-- Each store of a replay counts its page. -/
theorem incrementPages_apply (pages : List Nat)
    (h : ∀ page ∈ pages, (map page).isSome) (page : Nat) :
    incrementPages map pages page = (map page).map (· + pages.count page) := by
  induction pages generalizing map with
  | nil => simp [incrementPages]
  | cons head rest ih =>
    have hrest : ∀ other ∈ rest, (incrementPage map head other).isSome := fun other hmem =>
      incrementPage_isSome (h other (List.mem_cons_of_mem _ hmem))
    have hfold : incrementPages map (head :: rest) page =
        incrementPages (incrementPage map head) rest page := rfl
    rw [hfold, ih hrest]
    by_cases heq : page = head
    · subst heq
      obtain ⟨generation, hgeneration⟩ := Option.isSome_iff_exists.mp (h page List.mem_cons_self)
      simp only [incrementPage, Function.update_self, hgeneration, Option.getD_some,
        Option.map_some, List.count_cons_self, Option.some.injEq]
      omega
    · simp [incrementPage, Function.update_of_ne heq, List.count_cons_of_ne (Ne.symm heq)]

/-! ### The candidates of a batch -/

/-- Every block listed under a page of the batch is visited. -/
theorem mem_batchCandidates (t : ExecutableCodeTracker) (previous : List Nat) {pages : List Nat}
    {page index : Nat} (hpage : page ∈ pages) (hindex : index ∈ t.pageBlocks page) :
    index ∈ t.batchCandidates previous pages ∨
      ∃ before ∈ previous, index ∈ t.pageBlocks before := by
  induction pages generalizing previous with
  | nil => cases hpage
  | cons head rest ih =>
    unfold batchCandidates
    rcases List.mem_cons.mp hpage with rfl | hrest
    · by_cases hearlier : ∃ before ∈ previous, index ∈ t.pageBlocks before
      · exact .inr hearlier
      · left
        apply List.mem_append_left
        have hunseen : page ∉ previous := fun hmem => hearlier ⟨page, hmem, hindex⟩
        rw [if_neg hunseen, List.mem_filter]
        refine ⟨hindex, ?_⟩
        simp only [Bool.not_eq_true', List.any_eq_false, Bool.and_eq_true, decide_eq_true_eq,
          not_and]
        exact fun before hmem _ hbefore => hearlier ⟨before, hmem, hbefore⟩
    · rcases ih (head :: previous) hrest with hmem | ⟨before, hbefore, hmem⟩
      · exact .inl (List.mem_append_right _ hmem)
      · rcases List.mem_cons.mp hbefore with rfl | hbefore
        · by_cases hearlier : ∃ before ∈ previous, index ∈ t.pageBlocks before
          · exact .inr hearlier
          · left
            apply List.mem_append_left
            have hunseen : before ∉ previous := fun hmem' => hearlier ⟨before, hmem', hmem⟩
            rw [if_neg hunseen, List.mem_filter]
            refine ⟨hmem, ?_⟩
            simp only [Bool.not_eq_true', List.any_eq_false, Bool.and_eq_true, decide_eq_true_eq,
              not_and]
            exact fun other hother _ hlisted => hearlier ⟨other, hother, hlisted⟩
        · exact .inr ⟨before, hbefore, hmem⟩

theorem WellFormed.batchCandidates_lt (ht : WellFormed t)
    {pages previous : List Nat} {index : Nat} (h : index ∈ t.batchCandidates previous pages) :
    index < t.blocks.length := by
  induction pages generalizing previous with
  | nil => cases h
  | cons head rest ih =>
    unfold batchCandidates at h
    rcases List.mem_append.mp h with h | h
    · split at h
      · cases h
      · exact ht.bounded head index (List.mem_filter.mp h).1
    · exact ih h

theorem WellFormed.candidatesOfBatch_lt (ht : WellFormed t) {index : Nat}
    (h : index ∈ t.candidatesOfBatch ranges) : index < t.blocks.length := by
  unfold candidatesOfBatch at h
  split at h
  · exact ht.batchCandidates_lt h
  · split at h
    · cases h
    · exact List.mem_range.mp h

/-- The ranges of a batch, each on its page. -/
theorem changedRanges_mem (h : changedRanges events = some ranges) {range : BitVec 32 × Nat × Nat}
    (hmem : range ∈ ranges) : ∃ event ∈ events, event.bytesChanged = true ∧
      directWriteBatchRange event = some (range.1, range.2.2) ∧ range.2.1 = event.size := by
  induction events generalizing ranges with
  | nil =>
    cases h
    cases hmem
  | cons event rest ih =>
    cases hchanged : event.bytesChanged with
    | false =>
      rw [changedRanges_cons_same rest hchanged] at h
      obtain ⟨other, hother, hspec⟩ := ih h hmem
      exact ⟨other, List.mem_cons_of_mem _ hother, hspec⟩
    | true =>
      obtain ⟨physical, page, others, hrange, hothers, rfl⟩ := changedRanges_cons_changed hchanged h
      rcases List.mem_cons.mp hmem with rfl | hmem
      · exact ⟨event, List.mem_cons_self, hchanged, hrange, rfl⟩
      · obtain ⟨other, hother, hspec⟩ := ih hothers hmem
        exact ⟨other, List.mem_cons_of_mem _ hother, hspec⟩

theorem WellFormed.sweepBatch_blocks (ht : WellFormed t)
    (hranges : changedRanges events = some ranges) :
    (t.sweepBlocks (reachedByAny ranges) (t.candidatesOfBatch ranges)).blocks =
      t.blocks.map (invalidateIf (reachedByAny ranges)) := by
  unfold candidatesOfBatch
  cases t.lookupMode with
  | referenceScan =>
    cases ranges with
    | nil =>
      refine sweep_blocks fun index _ tracked _ => rfl
    | cons range rest => exact sweepBlocks_range_blocks t _
  | pageIndex =>
    refine sweep_blocks fun index hnot tracked hget => ?_
    -- a store that reached the block would have it among the blocks of its page
    by_contra hreached
    rw [Bool.not_eq_false] at hreached
    obtain ⟨range, hmem, hreach⟩ := List.any_eq_true.mp hreached
    obtain ⟨event, _, _, hdirect, hsize⟩ := changedRanges_mem hranges hmem
    obtain ⟨_, hpositive, hspace, hspan⟩ := directWriteBatchRange_spec hdirect
    simp only [inAddressSpace, Bool.and_eq_true, decide_eq_true_eq] at hspace
    rw [hsize] at hreach
    have hlisted : ¬∀ page ∈ pageSpan range.1.toNat event.size, index ∉ t.pageBlocks page := by
      intro hall
      have hspared := ht.spared hpositive hspace.2 hall tracked hget
      rw [hreach] at hspared
      cases hspared
    rw [hspan] at hlisted
    simp only [List.mem_singleton, forall_eq, not_not] at hlisted
    have hpage : range.2.2 ∈ ranges.map (·.2.2) := List.mem_map_of_mem hmem
    rcases mem_batchCandidates t [] hpage hlisted with hin | ⟨_, hnil, _⟩
    · exact hnot hin
    · cases hnil

/-- A batch that is admitted leaves the blocks and the invalidation count that
its stores leave when they are observed one by one; it counts each touched page
once where the replay counts every store, and a stamp that the replay has made
stale is stale. -/
theorem batch_refines_replay {capacity : Nat} {initial t : ExecutableCodeTracker}
    (hcreate : create capacity = .ok initial) {operations : List Operation}
    (hrun : initial.run operations = some t) {events : List GuestWriteEvent}
    (hadmitted : t.canObserveWriteBatch events = true) :
    ∃ batched replayed, t.observeWriteBatch events = some batched ∧ t.replay events = .ok replayed ∧
      batched.blocks = replayed.blocks ∧ batched.invalidationCount = replayed.invalidationCount ∧
      (∀ page, batched.generations page = (t.generations page).map
          (· + if page ∈ touchedPages events then 1 else 0) ∧
        replayed.generations page = (t.generations page).map
          (· + (touchedPages events).count page)) ∧
      ∀ stamp, stamp ≠ replayed.invalidationCount → stamp ≠ batched.invalidationCount := by
  have ht : WellFormed t := (create_wellFormed hcreate).run hrun
  unfold canObserveWriteBatch at hadmitted
  rw [Bool.and_eq_true, decide_eq_true_eq, List.all_eq_true] at hadmitted
  obtain ⟨hlength, hevents⟩ := hadmitted
  have hsome : ∀ event ∈ events, (directWriteBatchRange event).isSome := by
    intro event hmem
    have := hevents event hmem
    cases hrange : directWriteBatchRange event with
    | none => rw [hrange] at this; cases this
    | some range => rfl
  obtain ⟨ranges, hranges⟩ : ∃ ranges, changedRanges events = some ranges := by
    clear hevents hlength
    induction events with
    | nil => exact ⟨[], rfl⟩
    | cons event rest ih =>
      obtain ⟨others, hothers⟩ := ih fun other hmem => hsome other (List.mem_cons_of_mem _ hmem)
      cases hchanged : event.bytesChanged with
      | false => exact ⟨others, by rw [changedRanges_cons_same rest hchanged, hothers]⟩
      | true =>
        obtain ⟨range, hrange⟩ := Option.isSome_iff_exists.mp (hsome event List.mem_cons_self)
        refine ⟨(range.1, event.size, range.2) :: others, ?_⟩
        unfold changedRanges at hothers ⊢
        rw [List.filter_cons_of_pos (by simp [hchanged]), List.mapM_cons, hothers, hrange]
        rfl
  have htouched : touchedPages events = ranges.map (·.2.2) := by
    unfold touchedPages
    rw [hranges]
    rfl
  have hpages : ∀ page ∈ ranges.map (·.2.2),
      (t.generations page).isSome ∧ (t.hotspots page).isSome := by
    intro page hmem
    obtain ⟨range, hrange, rfl⟩ := List.mem_map.mp hmem
    obtain ⟨event, hevent, hchanged, hdirect, _⟩ := changedRanges_mem hranges hrange
    have := hevents event hevent
    rw [hdirect] at this
    simpa [hchanged] using this
  obtain ⟨maps, hmaps, hcounted⟩ := incrementBatchPages_spec (ranges.map (·.2.2)) []
    t.generations t.hotspots (fun page hmem => (hpages page hmem).1) (fun page hmem => (hpages page hmem).2)
  obtain ⟨replayed, hreplay, hblocks, hcount, hgenerations⟩ := ht.replay hsome hranges
  have hbatch : t.observeWriteBatch events = some (t.sweepBatch events ranges maps) := by
    unfold observeWriteBatch
    rw [if_neg (by omega), hranges, Option.bind_some, hmaps, Option.bind_some, if_neg]
    simp only [ge_iff_le, List.any_eq_true, decide_eq_true_eq, not_exists, not_and, not_le]
    exact fun index hmem => ht.candidatesOfBatch_lt hmem
  have hbatchBlocks : (t.sweepBatch events ranges maps).blocks = replayed.blocks := by
    rw [hblocks]
    exact ht.sweepBatch_blocks hranges
  have hbatchCount : (t.sweepBatch events ranges maps).invalidationCount =
      replayed.invalidationCount := by
    have hsum : (t.sweepBatch events ranges maps).invalidationCount +
        validCount (t.sweepBatch events ranges maps).blocks =
        t.invalidationCount + validCount t.blocks := sweep_count _ _ _
    rw [hbatchBlocks] at hsum
    omega
  refine ⟨_, replayed, hbatch, hreplay, hbatchBlocks, hbatchCount, ?_, ?_⟩
  · intro page
    rw [htouched]
    refine ⟨?_, ?_⟩
    · have hpage := hcounted page
      simp only [List.not_mem_nil, not_false_eq_true, and_true] at hpage
      exact hpage
    · rw [hgenerations]
      exact incrementPages_apply _ (fun other hmem => (hpages other hmem).1) page
  · intro stamp hstale
    rw [hbatchCount]
    exact hstale

/-- Two stores into one block, of which only the first makes it invalid. -/
theorem batch_refines_replay_twice :
    let initial : ExecutableCodeTracker := { provenanceCapacity := 1, eventCapacity := 1 }
    let operations : List Operation :=
      [.observeWrite 0xFFFFFFF8 4 .cpu true, .registerBlock topBlock]
    let events : List GuestWriteEvent :=
      [{ address := 0xFFFFFFF8, size := 4 }, { address := 0xFFFFFFFC, size := 2 }]
    ∃ t batched replayed, initial.run operations = some t ∧
      t.canObserveWriteBatch events = true ∧ t.observeWriteBatch events = some batched ∧
      t.replay events = .ok replayed ∧ batched.blocks = replayed.blocks := by
  intro initial operations events
  have hcreate : create 1 = .ok initial := rfl
  obtain ⟨t, hrun, hadmitted⟩ : ∃ t, initial.run operations = some t ∧
      t.canObserveWriteBatch events = true := ⟨_, rfl, by decide +kernel⟩
  obtain ⟨batched, replayed, hbatch, hreplay, hblocks, _⟩ :=
    batch_refines_replay hcreate hrun hadmitted
  exact ⟨t, batched, replayed, hrun, hadmitted, hbatch, hreplay, hblocks⟩

/-! ## Dispatch stamps -/

theorem sweep_count_le (reached : ExecutableBlockRegistration → Bool) (candidates : List Nat)
    (s : Sweep) :
    s.invalidationCount ≤ (candidates.foldl (sweepBlock reached) s).invalidationCount := by
  induction candidates generalizing s with
  | nil => exact Nat.le_refl _
  | cons candidate rest ih =>
    refine Nat.le_trans ?_ (ih _)
    unfold sweepBlock
    split
    · split
      · exact Nat.le_succ _
      · exact Nat.le_refl _
    · exact Nat.le_refl _

variable {reached : ExecutableBlockRegistration → Bool} {candidates : List Nat}

/-- A sweep that has counted nothing has changed no block. -/
theorem sweep_unchanged {s : Sweep}
    (h : (candidates.foldl (sweepBlock reached) s).invalidationCount = s.invalidationCount) :
    (candidates.foldl (sweepBlock reached) s).blocks = s.blocks := by
  induction candidates generalizing s with
  | nil => rfl
  | cons candidate rest ih =>
    rw [List.foldl_cons] at h ⊢
    have hrest := sweep_count_le reached rest (sweepBlock reached s candidate)
    have hstep : sweepBlock reached s candidate = s := by
      unfold sweepBlock at h hrest ⊢
      split
      · rename_i tracked hget
        rw [hget] at h hrest
        dsimp only at h hrest
        split
        · rename_i hhit
          rw [if_pos hhit] at h hrest
          dsimp only at hrest
          omega
        · rfl
      · rfl
    rw [hstep] at h ⊢
    exact ih h

theorem sweepBlocks_count_le (t : ExecutableCodeTracker)
    (reached : ExecutableBlockRegistration → Bool) (candidates : List Nat) :
    t.invalidationCount ≤ (t.sweepBlocks reached candidates).invalidationCount :=
  sweep_count_le reached candidates ⟨t.blocks, [], t.invalidationCount⟩

theorem sweepBlocks_unchanged
    (h : (t.sweepBlocks reached candidates).invalidationCount = t.invalidationCount) :
    (t.sweepBlocks reached candidates).blocks = t.blocks := by
  unfold sweepBlocks at h ⊢
  exact sweep_unchanged h

/-- The block of an identity, if it is registered. -/
def trackedBlock (t : ExecutableCodeTracker) (identity : String) : Option TrackedExecutableBlock :=
  (t.identityIndex identity).bind (t.blocks[·]?)

variable {identity : String}

theorem valid_eq_ok {b : Bool} :
    t.valid identity = .ok b ↔ ∃ tracked, t.trackedBlock identity = some tracked ∧
      tracked.valid = b := by
  unfold valid trackedBlock
  cases (t.identityIndex identity).bind (t.blocks[·]?) with
  | none => simp
  | some tracked => simp

/-- An operation leaves a valid block valid unless it retires the block or counts
an invalidation. -/
theorem WellFormed.apply_valid (ht : WellFormed t)
    {operation : Operation} (h : t.apply operation = some t')
    (hretire : operation ≠ .retireBlock identity) : t.invalidationCount ≤ t'.invalidationCount ∧
      (t'.invalidationCount = t.invalidationCount → t.valid identity = .ok true →
        t'.valid identity = .ok true) := by
  have hkeep : ∀ {u : ExecutableCodeTracker}, u.identityIndex = t.identityIndex →
      u.blocks = t.blocks → t.valid identity = .ok true → u.valid identity = .ok true := by
    intro u hindex hblocks hvalid
    unfold valid at hvalid ⊢
    rw [hindex, hblocks]
    exact hvalid
  cases operation with
  | registerBlock block =>
    unfold ExecutableCodeTracker.apply at h
    dsimp only at h
    split at h
    · rename_i result u hregister
      cases h
      rcases registerBlock_cases hregister with ⟨hnew, rfl, _⟩ | ⟨index, before, links, _, hget, rfl⟩
      · refine ⟨Nat.le_refl _, fun _ hvalid => ?_⟩
        obtain ⟨tracked, htracked, hv⟩ := valid_eq_ok.mp hvalid
        refine valid_eq_ok.mpr ⟨tracked, ?_, hv⟩
        obtain ⟨index, hindex, hget⟩ := Option.bind_eq_some_iff.mp htracked
        have hne : identity ≠ block.identity := by
          intro heq
          rw [heq, hnew] at hindex
          cases hindex
        refine Option.bind_eq_some_iff.mpr ⟨index, ?_, ?_⟩
        · exact (Function.update_of_ne hne _ _).trans hindex
        · have hlt := (List.getElem?_eq_some_iff.mp hget).1
          exact (List.getElem?_append_left hlt).trans hget
      · refine ⟨Nat.le_refl _, fun _ hvalid => ?_⟩
        obtain ⟨tracked, htracked, hv⟩ := valid_eq_ok.mp hvalid
        obtain ⟨other, hother, hget'⟩ := Option.bind_eq_some_iff.mp htracked
        by_cases heq : index = other
        · subst heq
          refine valid_eq_ok.mpr ⟨⟨{ before.block with incomingLinks := links }, true⟩, ?_, rfl⟩
          refine Option.bind_eq_some_iff.mpr ⟨index, hother, ?_⟩
          exact List.getElem?_set_self (List.getElem?_eq_some_iff.mp hget).1
        · refine valid_eq_ok.mpr ⟨tracked, Option.bind_eq_some_iff.mpr ⟨other, hother, ?_⟩, hv⟩
          exact (List.getElem?_set_ne heq).trans hget'
    · cases h
      exact ⟨Nat.le_refl _, fun _ hvalid => hvalid⟩
  | retireBlock other =>
    cases h
    rcases retireBlock_cases t other with heq | ⟨index, tracked, hindex, hget, _, heq⟩
    · rw [heq]
      exact ⟨Nat.le_refl _, fun _ hvalid => hvalid⟩
    · rw [heq]
      refine ⟨Nat.le_refl _, fun _ hvalid => ?_⟩
      obtain ⟨mine, hmine, hv⟩ := valid_eq_ok.mp hvalid
      obtain ⟨place, hplace, hget'⟩ := Option.bind_eq_some_iff.mp hmine
      have hne : index ≠ place := by
        rintro rfl
        obtain ⟨a, ha, hother⟩ := ht.identified other index hindex
        obtain ⟨b, hb, hidentity⟩ := ht.identified identity index hplace
        rw [ha, Option.some.injEq] at hb
        subst hb
        exact hretire (by rw [← hother, hidentity])
      refine valid_eq_ok.mpr ⟨mine, Option.bind_eq_some_iff.mpr ⟨place, hplace, ?_⟩, hv⟩
      exact (List.getElem?_set_ne hne).trans hget'
  | observeWrite address size source bytesChanged =>
    unfold ExecutableCodeTracker.apply at h
    dsimp only at h
    split at h
    · rename_i result u hobserve
      cases h
      obtain ⟨_, _, ⟨_, rfl, _⟩ | ⟨_, hrange⟩⟩ := observeWrite_cases hobserve
      · refine ⟨Nat.le_of_eq (appendEvent_keeps t _).2.1.symm, fun _ => ?_⟩
        exact hkeep (appendEvent_places t _).identityIndex (appendEvent_keeps t _).1
      · have hu : t' = (t.invalidateRange address size source).2 := congrArg Prod.snd hrange
        have hplaces := (invalidateRange_places t address size source).identityIndex
        rw [hu]
        unfold invalidateRange recordInvalidationEvent at hplaces ⊢
        dsimp only at hplaces ⊢
        rw [(appendEvent_keeps _ _).2.1]
        refine ⟨sweepBlocks_count_le t _ _, fun hcount => hkeep hplaces ?_⟩
        rw [(appendEvent_keeps _ _).1]
        exact sweepBlocks_unchanged hcount
    · cases h
      exact ⟨Nat.le_refl _, fun _ hvalid => hvalid⟩
  | observeWriteBatch events =>
    obtain ⟨ranges, maps, _, _, rfl⟩ := observeWriteBatch_cases h
    exact ⟨sweepBlocks_count_le t _ _, fun hcount => hkeep rfl (sweepBlocks_unchanged hcount)⟩
  | discLoadWrite plan =>
    obtain ⟨maps, _, h⟩ := Option.bind_eq_some_iff.mp h
    dsimp only at h
    split at h
    · cases h
    · cases h
      rw [(appendEvent_keeps _ _).2.1]
      refine ⟨sweepBlocks_count_le t _ _, fun hcount => hkeep (appendEvent_places _ _).identityIndex ?_⟩
      rw [(appendEvent_keeps _ _).1]
      exact sweepBlocks_unchanged hcount
  | invalidationEvents =>
    cases h
    exact ⟨Nat.le_refl _, fun _ => hkeep rfl rfl⟩
  | setLookupMode mode =>
    cases h
    exact ⟨Nat.le_refl _, fun _ => hkeep rfl rfl⟩
  | resetPerformanceCounters =>
    cases h
    exact ⟨Nat.le_refl _, fun _ => hkeep rfl rfl⟩

theorem WellFormed.run_valid {u : ExecutableCodeTracker} (ht : WellFormed t)
    {operations : List Operation} (h : t.run operations = some u)
    (hretire : .retireBlock identity ∉ operations) : t.invalidationCount ≤ u.invalidationCount ∧
      (u.invalidationCount = t.invalidationCount → t.valid identity = .ok true →
        u.valid identity = .ok true) := by
  induction operations generalizing t with
  | nil =>
    cases h
    exact ⟨Nat.le_refl _, fun _ hvalid => hvalid⟩
  | cons operation rest ih =>
    obtain ⟨next, hnext, hrest⟩ := Option.bind_eq_some_iff.mp h
    rw [List.mem_cons, not_or] at hretire
    obtain ⟨hle, hstep⟩ := ht.apply_valid hnext (Ne.symm hretire.1)
    obtain ⟨hle', hrun⟩ := ih (ht.apply hnext) hrest hretire.2
    refine ⟨hle.trans hle', fun hcount hvalid => ?_⟩
    exact hrun (by omega) (hstep (by omega) hvalid)

/-- A block that was registered and dispatchable when its stamp was taken is
valid whenever the stamp still is the counter, in every state of a history that
does not retire it and invalidates too few blocks for the counter to come round. -/
theorem stamp_current_valid {capacity : Nat} {initial t u : ExecutableCodeTracker}
    (hcreate : create capacity = .ok initial) {before after : List Operation}
    (hbefore : initial.run before = some t) {identity : String}
    (hregistered : (t.identityIndex identity).isSome)
    (hdispatchable : t.dispatchable identity = true) {stamp : Nat}
    (hstamp : stamp = t.invalidationCounter) (hretire : .retireBlock identity ∉ after)
    (hafter : t.run after = some u) (hfew : u.invalidationCount < t.invalidationCount + 2 ^ 64)
    (hfast : stamp = u.invalidationCounter) : u.valid identity = .ok true := by
  have ht : WellFormed t := (create_wellFormed hcreate).run hbefore
  have hvalid : t.valid identity = .ok true := by
    obtain ⟨index, hindex⟩ := Option.isSome_iff_exists.mp hregistered
    obtain ⟨tracked, hget, _⟩ := ht.identified identity index hindex
    have htracked : (t.identityIndex identity).bind (t.blocks[·]?) = some tracked := by
      rw [hindex]
      exact hget
    unfold dispatchable at hdispatchable
    unfold valid
    rw [htracked] at hdispatchable ⊢
    exact congrArg Except.ok hdispatchable
  obtain ⟨hle, hkept⟩ := ht.run_valid hafter hretire
  have hcounter : u.invalidationCount % 2 ^ 64 = t.invalidationCount % 2 ^ 64 :=
    hfast.symm.trans hstamp
  exact hkept (by omega) hvalid

/-- A retired block passes with the stamp it had before. -/
theorem stamp_current_retired : ∃ initial t u, create 1 = .ok initial ∧
      initial.run [.registerBlock topBlock, .observeWrite 0xFFFFFFF8 4 .cpu true,
        .registerBlock topBlock] = some t ∧ t.revalidateDispatchable "top" 0 = (true, 1) ∧
      t.run [.retireBlock "top"] = some u ∧
      u.revalidateDispatchable "top" 1 = (true, 1) ∧ u.valid "top" = .ok false :=
  ⟨_, _, _, rfl, rfl, by decide +kernel, rfl, by decide +kernel, by decide +kernel⟩

theorem stamp_current_valid_unrelated :
    let initial : ExecutableCodeTracker := { provenanceCapacity := 1, eventCapacity := 1 }
    let before : List Operation := [.registerBlock topBlock,
      .observeWrite 0xFFFFFFF8 4 .cpu true, .registerBlock topBlock]
    ∃ t u, initial.run before = some t ∧
      t.run [.observeWrite 0x100 4 .cpu true] = some u ∧ u.valid "top" = .ok true := by
  intro initial before
  have hcreate : create 1 = .ok initial := rfl
  obtain ⟨t, u, hbefore, hregistered, hdispatchable, hstamp, hafter, hfew, hfast⟩ :
      ∃ t u, initial.run before = some t ∧ (t.identityIndex "top").isSome ∧
        t.dispatchable "top" = true ∧ 1 = t.invalidationCounter ∧
        t.run [.observeWrite 0x100 4 .cpu true] = some u ∧
        u.invalidationCount < t.invalidationCount + 2 ^ 64 ∧ 1 = u.invalidationCounter :=
    ⟨_, _, rfl, by decide +kernel, by decide +kernel, by decide +kernel, rfl, by decide +kernel,
      by decide +kernel⟩
  refine ⟨t, u, hbefore, hafter, ?_⟩
  exact stamp_current_valid hcreate hbefore hregistered hdispatchable hstamp (by simp) hafter hfew
    hfast

end KatanaRecomp.Runtime.ExecutableCodeTracker
