import KatanaRecomp.Runtime.CodeTrackerLaws

/-! # The writes of a disc load

A disc load prepares a plan for each of its ranges before it commits the first
one, so every plan describes the blocks as they were then. The commits leave the
tracker as direct observation of the writes would, except for what an event
says about a block that an earlier write of the same load had reached. -/
namespace KatanaRecomp.Runtime
namespace ExecutableCodeTracker

/-- A range that a disc load writes. -/
structure DiscLoadWrite where
  address : BitVec 32
  size : Nat
  source : CodeWriteSource

namespace DiscLoadWrite
variable (w : DiscLoadWrite)

def physical : BitVec 32 := canonicalPhysicalAddress w.address

def pages : List Nat := pageSpan w.physical.toNat w.size

def reaches (block : ExecutableBlockRegistration) : Bool := reachedBy w.physical w.size block

/-- The checks that observation and preparation share. -/
def Admissible : Prop := 0 < w.size ∧ inAddressSpace w.physical w.size = true

/-- The event of the write, given the blocks it reports. -/
def event (hits : List ExecutableBlockRegistration) : CodeInvalidationEvent :=
  { virtualAddress := w.address, physicalAddress := w.physical, size := w.size
    source := w.source
    pages := w.pages.map fun page => { physicalPage := page }
    invalidatedBlocks := invalidatedIdentities hits
    unlinkedSources := unlinkedSources hits }

end DiscLoadWrite

variable (t : ExecutableCodeTracker)

/-- The plans of a load, all against one state. -/
def prepareAll (writes : List DiscLoadWrite) : Except String (List PreparedDiscLoadWrite) :=
  writes.mapM fun w => t.prepareDiscLoadWrite w.address w.size w.source true

def commitAll (plans : List PreparedDiscLoadWrite) : Option ExecutableCodeTracker :=
  plans.foldlM commitDiscLoadWrite t

/-- `observe_write` for each of the writes, with bytes that changed. -/
def observeAll (writes : List DiscLoadWrite) : Except String ExecutableCodeTracker :=
  writes.foldlM (fun t w => (t.observeWrite w.address w.size w.source true).map (·.2)) t

/-- The `j`-th write reaches a valid block that a write before it reaches too. -/
def Rehits (writes : List DiscLoadWrite) (j : Nat) : Prop :=
  ∃ i w w', i < j ∧ writes[i]? = some w ∧ writes[j]? = some w' ∧
    ∃ tracked ∈ t.blocks, tracked.valid = true ∧ w.reaches tracked.block = true ∧
      w'.reaches tracked.block = true

/-- Of `count` writes the event of the `j`-th takes a sequence number, and is
still in the ring after the last one. -/
def Retains (count j : Nat) : Prop :=
  let recorded := min count (uint64Max - t.nextProvenanceSequence)
  j < recorded ∧ recorded ≤ j + t.provenanceCapacity

/-! ## The events in order -/

/-- The events, the oldest one first. -/
def log : List CodeInvalidationEvent := t.invalidationEvents.rotate t.oldestInvalidationEvent

/-- The event as it is recorded. -/
def stamped (event : CodeInvalidationEvent) : CodeInvalidationEvent :=
  { event with
    sequence := t.nextProvenanceSequence
    pages := event.pages.map fun page =>
      { page with generation := t.pageGeneration page.physicalPage } }

theorem set_rotate_succ {α : Type} {l : List α} {index : Nat} (h : index < l.length) (a : α) :
    (l.set index a).rotate (index + 1) = (l.rotate index).drop 1 ++ [a] := by
  have hlength : (l.set index a).length = l.length := List.length_set
  have htake : (l.set index a).take (index + 1) = l.take index ++ [a] := by
    rw [List.take_add_one, List.take_set_of_le le_rfl, List.getElem?_set_self h]
    rfl
  have hdrop : (l.set index a).drop (index + 1) = l.drop (index + 1) :=
    List.drop_set_of_lt (by omega)
  have hdropSelf : (l.drop index ++ l.take index).drop 1 = l.drop (index + 1) ++ l.take index := by
    rw [List.drop_append_of_le_length (by rw [List.length_drop]; omega), List.drop_drop]
  rw [List.rotate_eq_drop_append_take (by omega), List.rotate_eq_drop_append_take h.le,
    hdropSelf, htake, hdrop, List.append_assoc]

theorem appendEvent_log {t : ExecutableCodeTracker} (h : RingOk t)
    (event : CodeInvalidationEvent) : (t.appendEvent event).log =
      if t.nextProvenanceSequence = uint64Max then t.log
      else (t.log ++ [t.stamped event]).rtake t.provenanceCapacity := by
  unfold appendEvent
  by_cases hlast : t.nextProvenanceSequence = uint64Max
  · rw [if_pos hlast, if_pos hlast]
    rfl
  · rw [if_neg hlast, if_neg hlast]
    by_cases hfull : t.invalidationEvents.length = t.provenanceCapacity
    · rw [if_pos hfull]
      have hstart : t.oldestInvalidationEvent < t.invalidationEvents.length := hfull ▸ h.ringStart
      show (t.invalidationEvents.set t.oldestInvalidationEvent (t.stamped event)).rotate
        ((t.oldestInvalidationEvent + 1) % t.provenanceCapacity) = _
      have hmod : (t.oldestInvalidationEvent + 1) % t.provenanceCapacity =
          (t.oldestInvalidationEvent + 1) %
            (t.invalidationEvents.set t.oldestInvalidationEvent (t.stamped event)).length := by
        rw [List.length_set, hfull]
      rw [hmod, List.rotate_mod, set_rotate_succ hstart]
      have hlength : t.log.length = t.provenanceCapacity := by
        rw [log, List.length_rotate, hfull]
      rw [List.rtake, List.length_append, hlength, List.length_singleton,
        Nat.add_sub_cancel_left, List.drop_append_of_le_length]
      · rfl
      · rw [hlength]
        exact Nat.succ_le_of_lt (Nat.zero_lt_of_lt h.ringStart)
    · rw [if_neg hfull]
      have hroom : t.invalidationEvents.length < t.provenanceCapacity :=
        Nat.lt_of_le_of_ne h.ringSize hfull
      have hzero : t.oldestInvalidationEvent = 0 := h.ringFilling hroom
      show (t.invalidationEvents ++ [t.stamped event]).rotate t.oldestInvalidationEvent = _
      rw [log, hzero, List.rotate_zero, List.rotate_zero, List.rtake,
        List.length_append, List.length_singleton, Nat.sub_eq_zero_of_le hroom, List.drop_zero]

theorem rtake_concat_rtake {α : Type} (l : List α) (n : Nat) (a : α) :
    (l.rtake n ++ [a]).rtake n = (l ++ [a]).rtake n := by
  cases n with
  | zero => simp
  | succ n =>
    rw [List.rtake_concat_succ, List.rtake_concat_succ]
    congr 1
    simp only [List.rtake, List.length_drop, List.drop_drop]
    congr 1
    omega

/-- Two logs over one beginning, of one length, agree on their last entries. -/
theorem rtake_append_inj {α : Type} {l a b : List α} (hlength : a.length = b.length) (n : Nat) :
    (l ++ a).rtake n = (l ++ b).rtake n ↔ ∀ i, a.length ≤ i + n → a[i]? = b[i]? := by
  simp only [List.rtake, List.length_append, ← hlength]
  constructor
  · intro h i hi
    have hget := congrArg (·[l.length + i - (l.length + a.length - n)]?) h
    simp only [List.getElem?_drop] at hget
    rw [Nat.add_sub_cancel' (by omega), List.getElem?_append_right (by omega),
      List.getElem?_append_right (by omega), Nat.add_sub_cancel_left] at hget
    exact hget
  · intro h
    apply List.ext_getElem?
    intro i
    rw [List.getElem?_drop, List.getElem?_drop]
    by_cases hin : l.length + a.length - n + i < l.length
    · rw [List.getElem?_append_left hin, List.getElem?_append_left hin]
    · rw [List.getElem?_append_right (by omega), List.getElem?_append_right (by omega)]
      exact h _ (by omega)

/-! ## The blocks a write reports -/

/-- The valid blocks a write reaches, in the order of their indices. -/
def hitsOf (reached : ExecutableBlockRegistration → Bool)
    (blocks : List TrackedExecutableBlock) : List ExecutableBlockRegistration :=
  (blocks.filter fun tracked => tracked.valid && reached tracked.block).map (·.block)

theorem filterMap_range_filter {α : Type} (p : α → Bool) (l : List α) :
    ((List.range l.length).filter fun i => l[i]?.any p).filterMap (l[·]?) = l.filter p := by
  induction l using List.reverseRecOn with
  | nil => rfl
  | append_singleton l a ih =>
    have hlow : ∀ i ∈ List.range l.length, (l ++ [a])[i]? = l[i]? := fun i hi =>
      List.getElem?_append_left (List.mem_range.mp hi)
    have hfilter : (List.range l.length).filter (fun i => (l ++ [a])[i]?.any p) =
        (List.range l.length).filter fun i => l[i]?.any p :=
      List.filter_congr fun i hi => by rw [hlow i hi]
    have hmap : ((List.range l.length).filter fun i => l[i]?.any p).filterMap ((l ++ [a])[·]?) =
        ((List.range l.length).filter fun i => l[i]?.any p).filterMap (l[·]?) :=
      List.filterMap_congr fun i hi => hlow i (List.mem_of_mem_filter hi)
    rw [List.length_append, List.length_singleton, List.range_succ, List.filter_append, hfilter,
      List.filterMap_append, hmap, ih, List.filter_append]
    congr 1
    cases hp : p a <;> simp [hp]

theorem WellFormed.hitBlocks_eq {t : ExecutableCodeTracker} (ht : WellFormed t)
    {physical : BitVec 32} {size : Nat} (hsize : 0 < size)
    (hspace : physical.toNat + size ≤ 2 ^ 32) :
    t.hitBlocks (reachedBy physical size) (t.candidateBlocks (pageSpan physical.toNat size)) =
      t.hitBlocks (reachedBy physical size) (List.range t.blocks.length) := by
  unfold candidateBlocks
  split
  · rw [ht.candidates_eq]
    unfold hitBlocks
    rw [List.filter_filter]
    refine List.filter_congr fun index _ => ?_
    by_cases hvisited : ∃ page ∈ pageSpan physical.toNat size, index ∈ t.pageBlocks page
    · rw [decide_eq_true hvisited, Bool.and_true]
    · have hspared := ht.spared hsize hspace fun page hpage hindex =>
        hvisited ⟨page, hpage, hindex⟩
      rw [decide_eq_false hvisited, Bool.and_false, eq_comm, Option.any_eq_false]
      intro tracked hget
      rw [hspared tracked hget, Bool.and_false]
  · rfl

theorem sweep_range_invalidated (reached : ExecutableBlockRegistration → Bool)
    (blocks : List TrackedExecutableBlock) (count : Nat) {n : Nat} (hn : n ≤ blocks.length) :
    ((List.range n).foldl (sweepBlock reached) ⟨blocks, [], count⟩).invalidated =
      hitsOf reached (blocks.take n) := by
  induction n with
  | zero => rfl
  | succ n ih =>
    have hget : ((List.range n).foldl (sweepBlock reached) ⟨blocks, [], count⟩).blocks[n]? =
        blocks[n]? := by
      rw [sweep_getElem?, if_neg (by simp)]
    obtain ⟨tracked, htracked⟩ : ∃ tracked, blocks[n]? = some tracked :=
      ⟨_, List.getElem?_eq_getElem hn⟩
    rw [List.range_succ, List.foldl_append, List.foldl_cons, List.foldl_nil, sweepBlock, hget,
      List.take_add_one, htracked]
    simp only [hitsOf, List.filter_append, List.map_append]
    rw [← hitsOf, ← ih (by omega)]
    cases hhit : tracked.valid && reached tracked.block <;> simp [hhit]

theorem sweepBlocks_range_invalidated (t : ExecutableCodeTracker)
    (reached : ExecutableBlockRegistration → Bool) :
    (t.sweepBlocks reached (List.range t.blocks.length)).invalidated = hitsOf reached t.blocks := by
  rw [sweepBlocks, sweep_range_invalidated reached t.blocks _ le_rfl, List.take_length]

theorem validCount_invalidateIf (reached : ExecutableBlockRegistration → Bool)
    (blocks : List TrackedExecutableBlock) :
    validCount (blocks.map (invalidateIf reached)) + (hitsOf reached blocks).length =
      validCount blocks := by
  unfold validCount hitsOf
  induction blocks with
  | nil => rfl
  | cons tracked rest ih =>
    rw [List.length_map] at ih ⊢
    obtain ⟨block, valid⟩ := tracked
    cases valid <;> cases hreached : reached block <;>
      simp [invalidateIf, hreached] at ih ⊢ <;> omega

variable {reached : ExecutableBlockRegistration → Bool}

/-- The blocks a sweep leaves determine its count. -/
theorem sweepBlocks_count {t : ExecutableCodeTracker}
    {visited : ExecutableBlockRegistration → Bool} {candidates : List Nat}
    (hblocks : (t.sweepBlocks visited candidates).blocks = t.blocks.map (invalidateIf reached)) :
    (t.sweepBlocks visited candidates).invalidationCount =
      t.invalidationCount + (hitsOf reached t.blocks).length := by
  have hcount := sweep_count visited candidates ⟨t.blocks, [], t.invalidationCount⟩
  have hvalid := validCount_invalidateIf reached t.blocks
  rw [← hblocks] at hvalid
  unfold sweepBlocks at hvalid ⊢
  simp only at hcount
  omega

/-! ## One write -/

/-- The state after the sweep of a write, before its event. -/
def sweptBy (w : DiscLoadWrite) : ExecutableCodeTracker :=
  { t with
    blocks := t.blocks.map (invalidateIf w.reaches)
    invalidationCount := t.invalidationCount + (hitsOf w.reaches t.blocks).length
    generations := incrementPages t.generations w.pages
    hotspots := incrementPages t.hotspots w.pages
    performanceCounters := t.countCandidates (t.candidateBlocks w.pages).length }

/-- The state after a write whose event reports the blocks. -/
def writtenBy (w : DiscLoadWrite) (hits : List ExecutableBlockRegistration) :
    ExecutableCodeTracker := (t.sweptBy w).appendEvent (w.event hits)

variable {w : DiscLoadWrite}

theorem DiscLoadWrite.Admissible.inSpace (hw : w.Admissible) :
    w.physical.toNat + w.size ≤ 2 ^ 32 := by
  have h := hw.2
  simp only [inAddressSpace, Bool.and_eq_true, decide_eq_true_eq] at h
  exact h.2

theorem WellFormed.observeWrite_written {t : ExecutableCodeTracker} (ht : WellFormed t)
    (hw : w.Admissible) :
    ∃ result, t.observeWrite w.address w.size w.source true =
      .ok (result, t.writtenBy w (hitsOf w.reaches t.blocks)) := by
  have hsweep := ht.sweepBlocks_eq hw.1 hw.inSpace
  have hblocks := sweepBlocks_range_blocks t w.reaches
  have hcount := sweepBlocks_count hblocks
  have hinvalidated := sweepBlocks_range_invalidated t w.reaches
  have hspace : (!inAddressSpace (canonicalPhysicalAddress w.address) w.size) = false := by
    rw [Bool.not_eq_false']
    exact hw.2
  refine ⟨(t.invalidateRange w.address w.size w.source).1, ?_⟩
  simp only [ExecutableCodeTracker.observeWrite, hw.1.ne', hspace, Bool.not_true, Bool.false_eq_true, if_false]
  congr 1
  refine Prod.ext rfl ?_
  have hsweep' : t.sweepBlocks (reachedBy (canonicalPhysicalAddress w.address) w.size)
      (t.candidateBlocks (pageSpan (canonicalPhysicalAddress w.address).toNat w.size)) =
        t.sweepBlocks w.reaches (List.range t.blocks.length) := hsweep
  simp only [invalidateRange, hsweep', hblocks, hcount, hinvalidated]
  rfl

/-! ## Plans -/

/-- The plan of a write, when it has one. -/
def planned (w : DiscLoadWrite) : PreparedDiscLoadWrite :=
  { pages := w.pages
    blockIndices := t.hitBlocks w.reaches (t.candidateBlocks w.pages)
    generationNodes := w.pages.filter fun page => (t.generations page).isNone
    hotspotNodes := w.pages.filter fun page => (t.hotspots page).isNone
    preparedEvent := w.event (((t.hitBlocks w.reaches (t.candidateBlocks w.pages)).filterMap
      (t.blocks[·]?)).map (·.block))
    indexedLookup := decide (t.lookupMode = .pageIndex)
    candidateCount := (t.candidateBlocks w.pages).length }

theorem prepareDiscLoadWrite_eq_ok {plan : PreparedDiscLoadWrite} :
    t.prepareDiscLoadWrite w.address w.size w.source true = .ok plan ↔
      w.Admissible ∧ plan = t.planned w := by
  have hphysical : canonicalPhysicalAddress w.address = w.physical := rfl
  unfold prepareDiscLoadWrite DiscLoadWrite.Admissible
  rw [hphysical]
  dsimp only
  by_cases hsize : w.size = 0
  · simp [hsize]
  · by_cases hspace : inAddressSpace w.physical w.size = true
    · simp only [hsize, hspace, Bool.not_true, Bool.false_eq_true, if_false, if_true,
        Except.ok.injEq, and_true]
      exact ⟨fun h => ⟨by omega, h.symm⟩, fun h => h.2.symm⟩
    · simp [hsize, hspace]

variable {writes : List DiscLoadWrite}

theorem prepareAll_eq_ok {plans : List PreparedDiscLoadWrite}
    (h : t.prepareAll writes = .ok plans) :
    (∀ w ∈ writes, w.Admissible) ∧ plans = writes.map t.planned := by
  unfold prepareAll at h
  induction writes generalizing plans with
  | nil =>
    cases h
    exact ⟨fun w hw => (List.not_mem_nil hw).elim, rfl⟩
  | cons w rest ih =>
    rw [List.mapM_cons] at h
    simp only [bind, Except.bind, pure, Except.pure] at h
    split at h
    · cases h
    · rename_i plan hplan
      obtain ⟨hw, rfl⟩ := (prepareDiscLoadWrite_eq_ok t).mp hplan
      split at h
      · cases h
      · rename_i others hothers
        cases h
        obtain ⟨hrest, rfl⟩ := ih hothers
        exact ⟨List.forall_mem_cons.mpr ⟨hw, hrest⟩, rfl⟩

theorem incrementPages_eq (map : Nat → Option Nat) (pages : List Nat) (page : Nat) :
    incrementPages map pages page =
      if page ∈ pages then some ((map page).getD 0 + pages.count page) else map page := by
  induction pages generalizing map with
  | nil => rfl
  | cons head rest ih =>
    have hfold : incrementPages map (head :: rest) page =
        incrementPages (incrementPage map head) rest page := rfl
    rw [hfold, ih]
    by_cases heq : page = head
    · subst heq
      by_cases hmem : page ∈ rest
      · simp only [incrementPage, Function.update_self, hmem, if_true, List.mem_cons, true_or,
          Option.getD_some, List.count_cons_self, Option.some.injEq]
        omega
      · simp [incrementPage, hmem, List.count_eq_zero_of_not_mem hmem]
    · simp [incrementPage, heq, List.count_cons_of_ne (Ne.symm heq)]

theorem insertNodes_eq (map : Nat → Option Nat) (nodes : List Nat) (page : Nat) :
    nodes.foldl insertNode map page =
      if page ∈ nodes ∧ map page = none then some 0 else map page := by
  induction nodes generalizing map with
  | nil => simp
  | cons head rest ih =>
    rw [List.foldl_cons, ih]
    unfold insertNode
    by_cases hsome : (map head).isSome
    · rw [if_pos hsome]
      by_cases heq : page = head
      · subst heq
        simp [Option.isSome_iff_ne_none.mp hsome]
      · simp [heq]
    · rw [if_neg hsome]
      by_cases heq : page = head
      · subst heq
        simp [Option.not_isSome_iff_eq_none.mp hsome]
      · simp [heq]

theorem incrementPlanned_eq {generations hotspots : Nat → Option Nat} {pages : List Nat}
    (hgenerations : ∀ page ∈ pages, (generations page).isSome)
    (hhotspots : ∀ page ∈ pages, (hotspots page).isSome) :
    incrementPlanned (generations, hotspots) pages =
      some (incrementPages generations pages, incrementPages hotspots pages) := by
  induction pages generalizing generations hotspots with
  | nil => rfl
  | cons head rest ih =>
    rw [incrementPlanned, hgenerations head List.mem_cons_self,
      hhotspots head List.mem_cons_self, Bool.and_self, if_pos rfl]
    exact ih
      (fun page hpage => incrementPage_isSome (hgenerations page (List.mem_cons_of_mem _ hpage)))
      (fun page hpage => incrementPage_isSome (hhotspots page (List.mem_cons_of_mem _ hpage)))

/-- The nodes prepared for the pages that `known` lacks complete a later map. -/
theorem planned_nodes {known map : Nat → Option Nat} (pages : List Nat)
    (h : ∀ page, (known page).isSome → (map page).isSome) :
    let nodes := pages.filter fun page => (known page).isNone
    (∀ page ∈ pages, (nodes.foldl insertNode map page).isSome) ∧
      incrementPages (nodes.foldl insertNode map) pages = incrementPages map pages := by
  intro nodes
  have hnode : ∀ page ∈ pages, map page = none → page ∈ nodes := by
    intro page hpage hnone
    refine List.mem_filter.mpr ⟨hpage, ?_⟩
    rw [Option.isNone_iff_eq_none, ← Option.not_isSome_iff_eq_none]
    intro hsome
    have hmap := h page hsome
    rw [hnone] at hmap
    cases hmap
  constructor
  · intro page hpage
    rw [insertNodes_eq]
    cases hmap : map page with
    | none => rw [if_pos ⟨hnode page hpage hmap, rfl⟩]; rfl
    | some _ => rw [if_neg (by simp)]; rfl
  · funext page
    rw [incrementPages_eq, incrementPages_eq, insertNodes_eq]
    by_cases hpage : page ∈ pages
    · rw [if_pos hpage, if_pos hpage]
      cases hmap : map page with
      | none => rw [if_pos ⟨hnode page hpage hmap, rfl⟩]; rfl
      | some _ => rw [if_neg (by simp)]
    · rw [if_neg hpage, if_neg hpage, if_neg]
      exact fun hmem => hpage (List.mem_of_mem_filter hmem.1)

/-! ## A load in progress -/

/-- `c` comes from `t` by the writes `done`; the events apart. -/
structure After (t c : ExecutableCodeTracker) (done : List DiscLoadWrite) : Prop where
  wellFormed : WellFormed c
  blocks : c.blocks = t.blocks.map (invalidateIf fun block => done.any (·.reaches block))
  pageBlocks : c.pageBlocks = t.pageBlocks
  lookupMode : c.lookupMode = t.lookupMode
  provenanceCapacity : c.provenanceCapacity = t.provenanceCapacity
  generations : ∀ page, (t.generations page).isSome → (c.generations page).isSome
  hotspots : ∀ page, (t.hotspots page).isSome → (c.hotspots page).isSome
  sequence : c.nextProvenanceSequence = min (t.nextProvenanceSequence + done.length) uint64Max

variable {t}

theorem WellFormed.after (ht : WellFormed t) : After t t [] where
  wellFormed := ht
  blocks := (map_invalidateIf_false t.blocks).symm
  pageBlocks := rfl
  lookupMode := rfl
  provenanceCapacity := rfl
  generations := fun _ h => h
  hotspots := fun _ h => h
  sequence := (Nat.min_eq_left ht.sequence).symm

theorem appendEvent_lookupMode (t : ExecutableCodeTracker) (event : CodeInvalidationEvent) :
    (t.appendEvent event).lookupMode = t.lookupMode := by
  unfold appendEvent
  split
  · rfl
  · dsimp only
    split <;> rfl

theorem appendEvent_sequence (ht : RingOk t)
    (event : CodeInvalidationEvent) : (t.appendEvent event).nextProvenanceSequence =
      min (t.nextProvenanceSequence + 1) uint64Max := by
  have hsequence := ht.sequence
  unfold appendEvent
  split
  · rename_i hlast
    simp only [hlast]
    omega
  · dsimp only
    split <;> simp only <;> omega

theorem incrementPages_isSome {map : Nat → Option Nat} (pages : List Nat) {page : Nat}
    (h : (map page).isSome) : (incrementPages map pages page).isSome := by
  rw [incrementPages_eq]
  split
  · rfl
  · exact h

theorem sweptBy_places (t : ExecutableCodeTracker) (w : DiscLoadWrite) :
    SamePlaces t (t.sweptBy w) where
  registrations := by
    simp only [sweptBy, List.map_map]
    exact List.map_congr_left fun tracked _ => invalidateIf_block w.reaches tracked
  identityIndex := rfl
  pageBlocks := rfl
  provenanceCapacity := rfl
  eventCapacity := rfl

theorem sweptBy_ring (ht : RingOk t) (w : DiscLoadWrite) :
    RingOk (t.sweptBy w) := ⟨ht.ringSize, ht.ringStart, ht.ringFilling, ht.sequence⟩

variable {c : ExecutableCodeTracker} {done : List DiscLoadWrite}

theorem After.write (h : After t c done)
    (w : DiscLoadWrite) (hits : List ExecutableBlockRegistration) :
    After t (c.writtenBy w hits) (done ++ [w]) := by
  obtain ⟨hblocks, -, hgenerations, hhotspots⟩ := appendEvent_keeps (c.sweptBy w) (w.event hits)
  have hring : RingOk (c.sweptBy w) := sweptBy_ring h.wellFormed.ring w
  have hplaces : SamePlaces c (c.writtenBy w hits) :=
    (sweptBy_places c w).trans (appendEvent_places _ _)
  refine ⟨h.wellFormed.transfer hplaces (appendEvent_ring hring _), ?_,
    hplaces.pageBlocks.trans h.pageBlocks, (appendEvent_lookupMode _ _).trans h.lookupMode,
    hplaces.provenanceCapacity.trans h.provenanceCapacity, ?_, ?_, ?_⟩
  · rw [writtenBy, hblocks]
    simp only [sweptBy, h.blocks, List.map_map, List.any_append, List.any_cons, List.any_nil,
      Bool.or_false]
    exact List.map_congr_left fun tracked _ => invalidateIf_invalidateIf _ _ tracked
  · intro page hpage
    rw [writtenBy, hgenerations]
    exact incrementPages_isSome w.pages (h.generations page hpage)
  · intro page hpage
    rw [writtenBy, hhotspots]
    exact incrementPages_isSome w.pages (h.hotspots page hpage)
  · rw [writtenBy, appendEvent_sequence hring, List.length_append, List.length_singleton]
    have hsequence := h.sequence
    simp only [sweptBy]
    omega

theorem After.candidateBlocks
    (h : After t c done) (pages : List Nat) : c.candidateBlocks pages = t.candidateBlocks pages := by
  have hlength : c.blocks.length = t.blocks.length := by rw [h.blocks, List.length_map]
  simp only [ExecutableCodeTracker.candidateBlocks, h.lookupMode, h.pageBlocks, hlength]

theorem mem_hitBlocks
    {index : Nat} : index ∈ t.hitBlocks reached (List.range t.blocks.length) ↔
      ∃ tracked, t.blocks[index]? = some tracked ∧ tracked.valid = true ∧
        reached tracked.block = true := by
  simp only [hitBlocks, List.mem_filter, List.mem_range, Option.any_eq_true, Bool.and_eq_true]
  constructor
  · exact fun h => h.2
  · rintro ⟨tracked, hget, hhit⟩
    exact ⟨(List.getElem?_eq_some_iff.mp hget).1, tracked, hget, hhit⟩

/-- The blocks of the plan are those the write would reach now. -/
theorem After.sweep_planned (h : After t c done) (w : DiscLoadWrite) :
    (c.sweepBlocks (fun _ => true) (t.hitBlocks w.reaches (List.range t.blocks.length))).blocks =
      c.blocks.map (invalidateIf w.reaches) := by
  apply List.ext_getElem?
  intro index
  rw [sweepBlocks, sweep_getElem?, List.getElem?_map, h.blocks, List.getElem?_map]
  cases hget : t.blocks[index]? with
  | none => simp
  | some tracked =>
    simp only [Option.map_some]
    obtain ⟨block, valid⟩ := tracked
    by_cases hhit : index ∈ t.hitBlocks w.reaches (List.range t.blocks.length)
    · rw [if_pos hhit]
      obtain ⟨tracked, hsame, -, hreached⟩ := mem_hitBlocks.mp hhit
      cases Option.some.inj (hget.symm.trans hsame)
      simp only [invalidateIf_invalidateIf]
      simp only at hreached
      simp [invalidateIf, hreached]
    · rw [if_neg hhit]
      have hspared : (valid && w.reaches block) = false := by
        rw [Bool.eq_false_iff]
        intro hboth
        rw [Bool.and_eq_true] at hboth
        exact hhit (mem_hitBlocks.mpr ⟨_, hget, hboth⟩)
      simp only [invalidateIf_invalidateIf]
      cases valid
      · simp [invalidateIf]
      · rw [Bool.true_and] at hspared
        simp [invalidateIf, hspared]

theorem planned_hits (ht : WellFormed t)
    (hw : w.Admissible) : t.hitBlocks w.reaches (t.candidateBlocks w.pages) =
      t.hitBlocks w.reaches (List.range t.blocks.length) := ht.hitBlocks_eq hw.1 hw.inSpace

theorem hitBlocks_registrations (t : ExecutableCodeTracker)
    (reached : ExecutableBlockRegistration → Bool) :
    ((t.hitBlocks reached (List.range t.blocks.length)).filterMap (t.blocks[·]?)).map (·.block) =
      hitsOf reached t.blocks := by
  rw [hitBlocks, filterMap_range_filter, hitsOf]

/-- The commit of a plan does what the write does now, and reports what it would
have reached at the start. -/
theorem After.commit (ht : WellFormed t)
    (h : After t c done) (hw : w.Admissible) :
    c.commitDiscLoadWrite (t.planned w) = some (c.writtenBy w (hitsOf w.reaches t.blocks)) := by
  obtain ⟨hgenerations, hincremented⟩ := planned_nodes w.pages h.generations
  obtain ⟨hhotspots, hincremented'⟩ := planned_nodes w.pages h.hotspots
  have hmaps := incrementPlanned_eq hgenerations hhotspots
  rw [hincremented, hincremented'] at hmaps
  have hblocks := h.sweep_planned w
  have hcount := sweepBlocks_count hblocks
  have hreserved : ¬ c.eventCapacity < c.provenanceCapacity := by
    have hreserved := h.wellFormed.reserved
    omega
  simp only [commitDiscLoadWrite, planned, planned_hits ht hw, hitBlocks_registrations, hmaps,
    bind, Option.bind, hreserved, and_false, if_false, pure, hblocks, hcount]
  simp only [writtenBy, sweptBy, countCandidates, h.candidateBlocks, h.lookupMode]
  cases t.lookupMode <;> rfl

/-! ## Both ways side by side -/

/-- Two trackers that differ in the contents of their events only. -/
def SameButEvents (c o : ExecutableCodeTracker) : Prop :=
  c = { o with invalidationEvents := c.invalidationEvents } ∧
    c.invalidationEvents.length = o.invalidationEvents.length

variable {o : ExecutableCodeTracker} (h : SameButEvents c o)
include h

theorem SameButEvents.appendEvent (event event' : CodeInvalidationEvent) :
    SameButEvents (c.appendEvent event) (o.appendEvent event') := by
  obtain ⟨hsame, hlength⟩ := h
  generalize c.invalidationEvents = events at hsame hlength
  subst hsame
  unfold ExecutableCodeTracker.appendEvent
  simp only [hlength]
  by_cases hlast : o.nextProvenanceSequence = uint64Max
  · simp only [hlast, if_true]
    exact ⟨rfl, hlength⟩
  · by_cases hfull : o.invalidationEvents.length = o.provenanceCapacity
    · simp only [hlast, hfull, if_true, if_false]
      exact ⟨rfl, by simp [hlength]⟩
    · simp only [hlast, hfull, if_false]
      exact ⟨rfl, by simp [hlength]⟩

theorem SameButEvents.sweptBy (w : DiscLoadWrite) : SameButEvents (c.sweptBy w) (o.sweptBy w) := by
  obtain ⟨hsame, hlength⟩ := h
  generalize c.invalidationEvents = events at hsame hlength
  subst hsame
  exact ⟨rfl, hlength⟩

theorem SameButEvents.stamped
    (event : CodeInvalidationEvent) : c.stamped event = o.stamped event := by
  rw [h.1]
  rfl

theorem SameButEvents.snapshot_iff : c.snapshot = o.snapshot ↔ c.log = o.log := by
  obtain ⟨hsame, -⟩ := h
  generalize c.invalidationEvents = events at hsame
  subst hsame
  simp only [snapshot, log, invalidationCounter, Snapshot.mk.injEq, true_and, and_true]

omit h

/-- A block that is invalid already is not reported. -/
theorem hitsOf_invalidateIf (reached earlier : ExecutableBlockRegistration → Bool)
    (blocks : List TrackedExecutableBlock) : hitsOf reached (blocks.map (invalidateIf earlier)) =
      ((blocks.filter fun tracked => tracked.valid && reached tracked.block).filter
        fun tracked => !earlier tracked.block).map (·.block) := by
  induction blocks with
  | nil => rfl
  | cons tracked rest ih =>
    unfold hitsOf at ih ⊢
    obtain ⟨block, valid⟩ := tracked
    cases valid <;> cases hearlier : earlier block <;> cases hreached : reached block <;>
      simp [invalidateIf, hearlier, hreached] at ih ⊢ <;> exact ih

/-- The events of two reports of one write agree exactly when it reaches no
valid block that was reached before. -/
theorem event_eq_iff (t : ExecutableCodeTracker) (w : DiscLoadWrite)
    (earlier : ExecutableBlockRegistration → Bool) (blocks : List TrackedExecutableBlock) :
    t.stamped (w.event (hitsOf w.reaches blocks)) =
        t.stamped (w.event (hitsOf w.reaches (blocks.map (invalidateIf earlier)))) ↔
      ¬ ∃ tracked ∈ blocks, tracked.valid = true ∧ earlier tracked.block = true ∧
        w.reaches tracked.block = true := by
  rw [hitsOf_invalidateIf]
  constructor
  · rintro heq ⟨tracked, hmem, hvalid, hearlier, hreached⟩
    have hlength := congrArg (fun event => event.invalidatedBlocks.length) heq
    simp only [stamped, DiscLoadWrite.event, invalidatedIdentities, List.length_insertionSort,
      List.length_map, hitsOf] at hlength
    have hall := List.length_filter_eq_length_iff.mp hlength.symm tracked
      (List.mem_filter.mpr ⟨hmem, by rw [hvalid, hreached]; rfl⟩)
    rw [hearlier] at hall
    cases hall
  · intro hnone
    have hall : ∀ tracked ∈ blocks.filter fun tracked => tracked.valid && w.reaches tracked.block,
        (!earlier tracked.block) = true := by
      intro tracked hmem
      obtain ⟨hmem, hhit⟩ := List.mem_filter.mp hmem
      rw [Bool.and_eq_true] at hhit
      rw [Bool.not_eq_true', Bool.eq_false_iff]
      exact fun hearlier => hnone ⟨tracked, hmem, hhit.1, hearlier, hhit.2⟩
    rw [List.filter_eq_self.mpr hall, hitsOf]

/-- `Rehits` looks at the writes up to the `j`-th. -/
theorem rehits_append {j : Nat}
    (hj : j < writes.length) (rest : List DiscLoadWrite) :
    t.Rehits (writes ++ rest) j ↔ t.Rehits writes j := by
  unfold Rehits
  rw [List.getElem?_append_left hj]
  constructor
  · rintro ⟨i, w, w', hi, hw, h⟩
    rw [List.getElem?_append_left (by omega)] at hw
    exact ⟨i, w, w', hi, hw, h⟩
  · rintro ⟨i, w, w', hi, hw, h⟩
    have hlow : i < writes.length := by omega
    exact ⟨i, w, w', hi, (List.getElem?_append_left hlow).trans hw, h⟩

theorem rehits_last (t : ExecutableCodeTracker) (writes : List DiscLoadWrite) (w : DiscLoadWrite) :
    t.Rehits (writes ++ [w]) writes.length ↔ ∃ tracked ∈ t.blocks, tracked.valid = true ∧
        (writes.any (·.reaches tracked.block)) = true ∧ w.reaches tracked.block = true := by
  unfold Rehits
  constructor
  · rintro ⟨i, w₁, w₂, hi, hw₁, hw₂, tracked, hmem, hvalid, hreached, hlast⟩
    rw [List.getElem?_append_left hi] at hw₁
    rw [List.getElem?_concat_length] at hw₂
    cases hw₂
    exact ⟨tracked, hmem, hvalid,
      List.any_eq_true.mpr ⟨w₁, List.mem_of_getElem? hw₁, hreached⟩, hlast⟩
  · rintro ⟨tracked, hmem, hvalid, hany, hlast⟩
    obtain ⟨w₁, hw₁, hreached⟩ := List.any_eq_true.mp hany
    obtain ⟨i, hget⟩ := List.mem_iff_getElem?.mp hw₁
    have hi : i < writes.length := (List.getElem?_eq_some_iff.mp hget).1
    exact ⟨i, w₁, w, hi, by rw [List.getElem?_append_left hi]; exact hget,
      List.getElem?_concat_length, tracked, hmem, hvalid, hreached, hlast⟩

/-- Both ways after the writes `done`. `committed` and `observed` are the events
they recorded. -/
structure Coupled (t : ExecutableCodeTracker) (done : List DiscLoadWrite)
    (c o : ExecutableCodeTracker) (committed observed : List CodeInvalidationEvent) : Prop where
  same : SameButEvents c o
  afterCommits : After t c done
  afterWrites : After t o done
  commitLog : c.log = (t.log ++ committed).rtake t.provenanceCapacity
  writeLog : o.log = (t.log ++ observed).rtake t.provenanceCapacity
  committedLength : committed.length = min done.length (uint64Max - t.nextProvenanceSequence)
  observedLength : observed.length = min done.length (uint64Max - t.nextProvenanceSequence)
  agree : ∀ j < committed.length, committed[j]? = observed[j]? ↔ ¬ t.Rehits done j

theorem WellFormed.coupled (ht : WellFormed t) :
    Coupled t [] t t [] [] := by
  have hwhole : t.log = (t.log ++ []).rtake t.provenanceCapacity := by
    rw [List.append_nil, List.rtake, log, List.length_rotate,
      Nat.sub_eq_zero_of_le ht.ringSize, List.drop_zero]
  exact ⟨⟨rfl, rfl⟩, ht.after, ht.after, hwhole, hwhole, by simp, by simp, by simp⟩

/-- One event more in a log that keeps the last ones. -/
theorem After.log_write
    (h : After t c done) {events : List CodeInvalidationEvent}
    (hlog : c.log = (t.log ++ events).rtake t.provenanceCapacity)
    (hroom : t.nextProvenanceSequence + done.length < uint64Max) (w : DiscLoadWrite)
    (hits : List ExecutableBlockRegistration) : (c.writtenBy w hits).log =
      (t.log ++ (events ++ [(c.sweptBy w).stamped (w.event hits)])).rtake t.provenanceCapacity := by
  have hnext : (c.sweptBy w).nextProvenanceSequence ≠ uint64Max := by
    show c.nextProvenanceSequence ≠ uint64Max
    have hsequence := h.sequence
    omega
  have hswept : (c.sweptBy w).log = c.log := rfl
  have hcapacity : (c.sweptBy w).provenanceCapacity = t.provenanceCapacity := h.provenanceCapacity
  rw [writtenBy, appendEvent_log (sweptBy_ring h.wellFormed.ring w), if_neg hnext, hswept, hlog,
    hcapacity, rtake_concat_rtake, List.append_assoc]

/-- Once the sequence numbers are used up, a write leaves the log alone. -/
theorem After.log_full
    (h : After t c done) (hfull : uint64Max ≤ t.nextProvenanceSequence + done.length)
    (w : DiscLoadWrite) (hits : List ExecutableBlockRegistration) :
    (c.writtenBy w hits).log = c.log := by
  have hnext : (c.sweptBy w).nextProvenanceSequence = uint64Max := by
    show c.nextProvenanceSequence = uint64Max
    have hsequence := h.sequence
    omega
  rw [writtenBy, appendEvent_log (sweptBy_ring h.wellFormed.ring w), if_pos hnext]
  rfl

variable {committed observed : List CodeInvalidationEvent}

/-- One write, committed from its plan and observed. -/
theorem Coupled.write (h : Coupled t done c o committed observed)
    (w : DiscLoadWrite) : ∃ committed' observed',
      Coupled t (done ++ [w]) (c.writtenBy w (hitsOf w.reaches t.blocks))
        (o.writtenBy w (hitsOf w.reaches o.blocks)) committed' observed' := by
  have hsame := (h.same.sweptBy w).appendEvent (w.event (hitsOf w.reaches t.blocks))
    (w.event (hitsOf w.reaches o.blocks))
  have hcommits := h.afterCommits.write w (hitsOf w.reaches t.blocks)
  have hwrites := h.afterWrites.write w (hitsOf w.reaches o.blocks)
  have hlength := h.committedLength
  have hlength' := h.observedLength
  by_cases hroom : t.nextProvenanceSequence + done.length < uint64Max
  · -- the write takes a sequence number: both logs grow by its event
    refine ⟨_, _, hsame, hcommits, hwrites, h.afterCommits.log_write h.commitLog hroom w _,
      h.afterWrites.log_write h.writeLog hroom w _, ?_, ?_, ?_⟩
    · simp only [List.length_append, List.length_singleton]
      omega
    · simp only [List.length_append, List.length_singleton]
      omega
    · intro j hj
      rw [List.length_append, List.length_singleton] at hj
      by_cases hlast : j < committed.length
      · rw [List.getElem?_append_left hlast, List.getElem?_append_left (by omega),
          rehits_append (by omega)]
        exact h.agree j hlast
      · have hdone : j = done.length := by omega
        have hcommitted : j = committed.length := by omega
        have hobserved : j = observed.length := by omega
        rw [hdone, rehits_last, ← hdone, hcommitted, List.getElem?_concat_length, ← hcommitted,
          hobserved, List.getElem?_concat_length, Option.some_inj,
          (h.same.sweptBy w).stamped, h.afterWrites.blocks]
        exact event_eq_iff _ w _ t.blocks
  · -- the numbers are used up: neither log moves
    refine ⟨committed, observed, hsame, hcommits, hwrites,
      (h.afterCommits.log_full (by omega) w _).trans h.commitLog,
      (h.afterWrites.log_full (by omega) w _).trans h.writeLog, ?_, ?_, ?_⟩
    · rw [List.length_append, List.length_singleton]
      omega
    · rw [List.length_append, List.length_singleton]
      omega
    · intro j hj
      rw [rehits_append (by omega)]
      exact h.agree j hj

/-- All the writes of a load. -/
theorem Coupled.run (ht : WellFormed t)
    (h : Coupled t done c o committed observed) {rest : List DiscLoadWrite}
    (hrest : ∀ w ∈ rest, w.Admissible) :
    ∃ c' o' committed' observed', c.commitAll (rest.map t.planned) = some c' ∧
      o.observeAll rest = .ok o' ∧ Coupled t (done ++ rest) c' o' committed' observed' := by
  induction rest generalizing c o done committed observed with
  | nil =>
    refine ⟨c, o, committed, observed, rfl, rfl, ?_⟩
    rw [List.append_nil]
    exact h
  | cons w rest ih =>
    obtain ⟨hw, hrest⟩ := List.forall_mem_cons.mp hrest
    have hcommit := h.afterCommits.commit ht hw
    obtain ⟨result, hobserve⟩ := h.afterWrites.wellFormed.observeWrite_written hw
    obtain ⟨committed', observed', hnext⟩ := h.write w
    obtain ⟨c', o', committed'', observed'', hcommits, hobserves, hcoupled⟩ := ih hnext hrest
    refine ⟨c', o', committed'', observed'', ?_, ?_, ?_⟩
    · rw [commitAll, List.map_cons, List.foldlM_cons, hcommit]
      exact hcommits
    · rw [observeAll, List.foldlM_cons, hobserve]
      exact hobserves
    · rw [List.append_assoc] at hcoupled
      exact hcoupled

/-- Preparing a load and committing it ends as direct observation does, unless
an event that is kept reports a block that an earlier write had reached. -/
theorem disc_load_commit_observes_iff {capacity : Nat} {initial t : ExecutableCodeTracker}
    (hcreate : create capacity = .ok initial) {operations : List Operation}
    (hrun : initial.run operations = some t) {writes : List DiscLoadWrite}
    {plans : List PreparedDiscLoadWrite} (hplans : t.prepareAll writes = .ok plans) :
    ∃ committed observed, t.commitAll plans = some committed ∧ t.observeAll writes = .ok observed ∧
      (committed.snapshot = observed.snapshot ↔
        ∀ j, t.Retains writes.length j → ¬ t.Rehits writes j) := by
  have ht : WellFormed t := (create_wellFormed hcreate).run hrun
  obtain ⟨hadmissible, rfl⟩ := prepareAll_eq_ok t hplans
  obtain ⟨c, o, committed, observed, hcommit, hobserve, hcoupled⟩ := ht.coupled.run ht hadmissible
  refine ⟨c, o, hcommit, hobserve, ?_⟩
  rw [List.nil_append] at hcoupled
  have hlength := hcoupled.committedLength
  have hlength' := hcoupled.observedLength
  rw [hcoupled.same.snapshot_iff, hcoupled.commitLog, hcoupled.writeLog,
    rtake_append_inj (hlength.trans hlength'.symm)]
  constructor
  · intro h j hkept
    unfold Retains at hkept
    exact (hcoupled.agree j (by omega)).mp (h j (by omega))
  · intro h j hkept
    by_cases hj : j < committed.length
    · refine (hcoupled.agree j hj).mpr (h j ?_)
      unfold Retains
      omega
    · rw [List.getElem?_eq_none (by omega), List.getElem?_eq_none (by omega)]

/-- Two ranges of one load that meet in a block of the image. -/
def splitBlock : ExecutableBlockRegistration :=
  { identity := "split", physicalStart := 0x0C010FFC, size := 8, provenance := "image" }

def splitWrites : List DiscLoadWrite :=
  [⟨0x0C010FFC, 4, .dma⟩, ⟨0x0C011000, 4, .dma⟩]

/-- The event of the second range reports the block again. -/
theorem disc_load_commit_reports_twice :
    ∃ initial t plans committed observed, create 2 = .ok initial ∧
      initial.run [.registerBlock splitBlock] = some t ∧
      t.prepareAll splitWrites = .ok plans ∧ t.commitAll plans = some committed ∧
      t.observeAll splitWrites = .ok observed ∧ committed.snapshot ≠ observed.snapshot := by
  refine ⟨_, _, _, _, _, rfl, rfl, rfl, rfl, rfl, ?_⟩
  intro hsame
  have hevents := congrArg (fun snapshot => snapshot.invalidationEvents.map
    (·.invalidatedBlocks)) hsame
  exact absurd hevents (by decide +kernel)

/-- The first range lies behind the block. -/
def apartWrites : List DiscLoadWrite := [⟨0x0C012000, 4, .dma⟩, ⟨0x0C011000, 4, .dma⟩]

theorem disc_load_commit_observes_apart :
    ∃ initial t plans committed observed, create 2 = .ok initial ∧
      initial.run [.registerBlock splitBlock] = some t ∧
      t.prepareAll apartWrites = .ok plans ∧ t.commitAll plans = some committed ∧
      t.observeAll apartWrites = .ok observed ∧ committed.snapshot = observed.snapshot := by
  refine ⟨_, _, _, _, _, rfl, rfl, rfl, rfl, rfl, ?_⟩
  obtain ⟨committed, observed, hcommit, hobserve, hiff⟩ := disc_load_commit_observes_iff
    (rfl : create 2 = .ok _) (rfl : run _ [.registerBlock splitBlock] = some _)
    (rfl : prepareAll _ apartWrites = .ok _)
  cases hcommit
  cases hobserve
  refine hiff.mpr ?_
  rintro j - ⟨i, w, w', hi, hw, hw', tracked, hmem, -, hreached, -⟩
  have hj : j < 2 := (List.getElem?_eq_some_iff.mp hw').1
  obtain rfl : i = 0 := by omega
  cases hw
  cases List.mem_singleton.mp hmem
  exact absurd hreached (by decide)

end ExecutableCodeTracker
end KatanaRecomp.Runtime
