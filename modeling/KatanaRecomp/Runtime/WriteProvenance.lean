import KatanaRecomp.Runtime.ModuleCatalog

/-! # The provenance of a byte is its last store

A byte is marked when the last event that concerned it was a store of guest code,
over every history of stores and disc loads; a batch of stores leaves what its
stores leave one after another. -/
namespace KatanaRecomp.Runtime
open Lib (Bitmap)
open ExecutableCodeTracker (pageOf pageSpan pageSize GuestWriteEvent mem_pageSpan
  pageOf_mem_pageSpan directLinearWriteBatchCapacity)

namespace RuntimeWritePages

/-! ## Pages -/

/-- The words of a page; a page that is not kept has none set. -/
def wordsOf (found : Option RuntimeWritePage) : Bitmap 64 := found.elim .empty (·.written)

theorem eq_some_of_wordsOf {found : Option RuntimeWritePage} (h : (wordsOf found).isZero = false) :
    found = some ⟨wordsOf found⟩ := by
  cases found with
  | none =>
    have hzero : (wordsOf none).isZero = true := Bitmap.isZero_iff.mpr rfl
    rw [hzero] at h
    cases h
  | some found => rfl

theorem updateRuntimeWriteBits_empty (offset endOffset : Nat) :
    updateRuntimeWriteBits (.empty : Bitmap 64) offset endOffset false = .empty := by
  refine Bitmap.ext_bits fun position hposition => ?_
  rw [bit_updateRuntimeWriteBits _ _ _ _ hposition, Bitmap.bit_empty]
  split
  · rfl
  · rfl

theorem wordsOf_updatePage (set : Bool) (physicalBegin size page : Nat)
    (found : Option RuntimeWritePage) : wordsOf (updatePage set physicalBegin size page found) =
      updateRuntimeWriteBits (wordsOf found) (max physicalBegin page - page)
        (min (physicalBegin + size) (page + pageSize) - page) set := by
  cases set with
  | true =>
    cases found with
    | none => rfl
    | some found => rfl
  | false =>
    cases found with
    | none => exact (updateRuntimeWriteBits_empty _ _).symm
    | some found =>
      simp only [updatePage, Bool.false_eq_true, if_false, Option.bind_some, Bool.not_false,
        Bool.true_and]
      split
      · rename_i hzero
        exact (Bitmap.isZero_iff.mp hzero).symm
      · rfl

theorem nodup_pageSpan (start size : Nat) : (pageSpan start size).Nodup := by
  refine List.Nodup.map (fun left right h => ?_) List.nodup_range
  have hmul : left * pageSize = right * pageSize := Nat.add_left_cancel h
  exact Nat.eq_of_mul_eq_mul_right (by decide) hmul

variable (pages : RuntimeWritePages)

theorem updateProvenance_apply (physicalBegin size : Nat) (set : Bool) (page : Nat) :
    pages.updateProvenance physicalBegin size set page =
      if page ∈ pageSpan physicalBegin size then
        updatePage set physicalBegin size page (pages page)
      else pages page :=
  Lib.foldl_update_apply (updatePage set physicalBegin size) (nodup_pageSpan _ _) pages page

theorem wasWritten_eq (physical : Nat) : pages.wasWritten physical =
      (wordsOf (pages (pageOf physical))).bit (physical - pageOf physical) := by
  have hmod : (physical - pageOf physical) % 64 < 64 := Nat.mod_lt _ (by decide)
  unfold wasWritten
  cases pages (pageOf physical) with
  | none => exact (Bitmap.bit_empty _).symm
  | some found =>
    rw [Option.any_some, Bool.eq_iff_iff, decide_eq_true_iff, Lib.and_shiftLeft_ne_zero hmod]
    rfl

theorem sub_pageOf_lt (physical : Nat) : physical - pageOf physical < 64 * 64 := by
  unfold pageOf pageSize
  omega

variable {physicalBegin size : Nat}

/-- An update marks, or clears, the bytes of its range and no others. -/
theorem wasWritten_updateProvenance (hsize : 0 < size) (set : Bool)
    (physical : Nat) : (pages.updateProvenance physicalBegin size set).wasWritten physical =
      if physicalBegin ≤ physical ∧ physical < physicalBegin + size then set
      else pages.wasWritten physical := by
  rw [wasWritten_eq, wasWritten_eq, updateProvenance_apply]
  by_cases hpage : pageOf physical ∈ pageSpan physicalBegin size
  · rw [if_pos hpage, wordsOf_updatePage,
      bit_updateRuntimeWriteBits _ _ _ _ (sub_pageOf_lt physical)]
    have hstart : pageOf physical ≤ physical := Nat.div_mul_le_self _ _
    have hend : physical < pageOf physical + pageSize := by
      unfold pageOf pageSize
      omega
    congr 1
    exact propext ⟨fun h => by omega, fun h => by omega⟩
  · rw [if_neg hpage, if_neg fun h => hpage (pageOf_mem_pageSpan h.1 h.2)]

theorem wasWritten_recordStore (hsize : 0 < size)
    (source : CodeWriteSource) (bytesChanged : Bool) (physical : Nat) :
    (pages.recordStore physicalBegin size source bytesChanged).wasWritten physical =
      if physicalBegin ≤ physical ∧ physical < physicalBegin + size then
        establishesProvenance source || (!bytesChanged && pages.wasWritten physical)
      else pages.wasWritten physical := by
  unfold recordStore
  cases establishesProvenance source with
  | true =>
    simp only [if_true, Bool.true_or]
    rw [wasWritten_updateProvenance _ hsize]
    split
    · rfl
    · rename_i hout
      cases bytesChanged with
      | true => rw [if_pos rfl, wasWritten_updateProvenance _ hsize, if_neg hout]
      | false => rfl
  | false =>
    cases bytesChanged with
    | true => exact wasWritten_updateProvenance _ hsize false physical
    | false => exact (ite_self _).symm

/-! ## What a range covers -/

theorem covers_iff (address : BitVec 32) (size : Nat) : pages.covers address size = true ↔
      canonicalRangeIsLinear address size = true ∧ ∀ offset < size, pages.wasWritten
          ((canonicalPhysicalAddress address).toNat + offset) = true := by
  have hsame : size ≠ 0 → address.toNat + size ≤ 2 ^ 32 →
      address + BitVec.ofNat 32 size - 1 = address + BitVec.ofNat 32 (size - 1) := by
    intro hsize hfit
    have hone : (1 : BitVec 32).toNat = 1 := rfl
    refine BitVec.eq_of_toNat_eq ?_
    simp only [BitVec.toNat_sub, BitVec.toNat_add, BitVec.toNat_ofNat, hone]
    omega
  unfold covers canonicalRangeIsLinear
  simp only [Bool.and_eq_true, decide_eq_true_eq]
  by_cases hbad : size = 0 ∨ address.toNat + size > 2 ^ 32
  · rw [if_pos hbad]
    have haddress := address.isLt
    constructor
    · intro h
      cases h
    · rintro ⟨⟨⟨⟨hsize, hfit⟩, -⟩, -⟩, -⟩
      omega
  · rw [if_neg hbad, hsame (by omega) (by omega)]
    have haddress := address.isLt
    have hmax : uint32Max = 2 ^ 32 - 1 := rfl
    split
    · rename_i hfar
      constructor
      · intro h
        cases h
      · rintro ⟨⟨⟨-, hend⟩, hfinal⟩, -⟩
        omega
    · rename_i hnear
      rw [List.all_eq_true]
      constructor
      · intro hall
        exact ⟨⟨⟨⟨by omega, by omega⟩, by omega⟩, by omega⟩,
          fun offset hoffset => hall offset (List.mem_range.mpr hoffset)⟩
      · rintro ⟨-, hall⟩ offset hoffset
        exact hall offset (List.mem_range.mp hoffset)

end RuntimeWritePages

namespace ModuleCatalog
open ExecutableModuleCatalog (PreparedDiscLoadCatalog checkInvalidatedRanges)
variable {catalog : ModuleCatalog}

/-! ## Histories -/

variable {address : BitVec 32} {size : Nat}

section
variable (h : canonicalRangeIsLinear address size = true)
include h

theorem linear_bounds
    : size ≠ 0 ∧ size ≤ 2 ^ 32 - address.toNat ∧
      (canonicalPhysicalAddress address).toNat + size ≤ 2 ^ 32 := by
  unfold canonicalRangeIsLinear at h
  simp only [Bool.and_eq_true, decide_eq_true_eq] at h
  have hmax : uint32Max = 2 ^ 32 - 1 := rfl
  exact ⟨h.1.1.1, h.1.1.2, by omega⟩

theorem recordRuntimeWrite_pages
    (source : CodeWriteSource)
    (bytesChanged : Bool) :
    (catalog.recordRuntimeWrite address size source bytesChanged).runtimeWritePages =
      catalog.runtimeWritePages.recordStore (canonicalPhysicalAddress address).toNat size source
        bytesChanged := by
  obtain ⟨hsize, hfit, hend⟩ := linear_bounds h
  unfold recordRuntimeWrite
  rw [if_neg (by omega)]
  split
  · rename_i hquiet
    simp only [Bool.and_eq_true, Bool.not_eq_true'] at hquiet
    simp only [RuntimeWritePages.recordStore, hquiet.1, hquiet.2, Bool.false_eq_true, if_false]
  · dsimp only
    rw [if_neg (by omega)]
    dsimp only
    congr 1
    split
    · rfl
    split
    · rfl
    · rfl

end

/-- An event that the provenance depends on. -/
inductive ProvenanceEvent
  | store (address : BitVec 32) (size : Nat) (source : CodeWriteSource) (bytesChanged : Bool)
  | discLoad (invalidatedRanges : List (BitVec 32 × Nat))

/-- What an event says about a byte: it comes from guest code, it does not, or nothing. -/
def ProvenanceEvent.verdict (physical : Nat) : ProvenanceEvent → Option Bool
  | .store address size source bytesChanged =>
    if (canonicalPhysicalAddress address).toNat ≤ physical ∧
        physical < (canonicalPhysicalAddress address).toNat + size then
      if establishesProvenance source then some true
      else if bytesChanged then some false else none
    else none
  | .discLoad ranges =>
    if ranges.any fun range =>
        decide ((canonicalPhysicalAddress range.1).toNat ≤ physical) &&
          decide (physical < (canonicalPhysicalAddress range.1).toNat + range.2) then some false
    else none

theorem verdict_store {source : CodeWriteSource} {bytesChanged : Bool} (physical : Nat) :
    (ProvenanceEvent.store address size source bytesChanged).verdict physical =
      if (canonicalPhysicalAddress address).toNat ≤ physical ∧
          physical < (canonicalPhysicalAddress address).toNat + size then
        if establishesProvenance source then some true
        else if bytesChanged then some false else none
      else none := rfl

theorem verdict_discLoad (ranges : List (BitVec 32 × Nat)) (physical : Nat) :
    (ProvenanceEvent.discLoad ranges).verdict physical =
      if ranges.any fun range =>
        decide ((canonicalPhysicalAddress range.1).toNat ≤ physical) &&
          decide (physical < (canonicalPhysicalAddress range.1).toNat + range.2) then some false
      else none := rfl

/-- Stores to linear ranges and disc loads, from a catalog without provenance on; between
them anything may happen to the catalog that is no store and no disc load. -/
inductive ProvenanceHistory : List ProvenanceEvent → ModuleCatalog → Prop
  | start {catalog : ModuleCatalog} (h : catalog.runtimeWritePages = fun _ => none) :
      ProvenanceHistory [] catalog
  | store {events : List ProvenanceEvent} {catalog : ModuleCatalog} {address : BitVec 32}
      {size : Nat} (source : CodeWriteSource) (bytesChanged : Bool)
      (h : ProvenanceHistory events catalog) (hlinear : canonicalRangeIsLinear address size = true) :
      ProvenanceHistory (events ++ [.store address size source bytesChanged])
        (catalog.recordRuntimeWrite address size source bytesChanged)
  | discLoad {events : List ProvenanceEvent} {catalog committed : ModuleCatalog}
      {plan : PreparedDiscLoadCatalog} (h : ProvenanceHistory events catalog)
      (hranges : checkInvalidatedRanges plan.invalidatedRanges = .ok ())
      (hcommit : catalog.commitDiscLoadCatalog plan = some committed) :
      ProvenanceHistory (events ++ [.discLoad plan.invalidatedRanges]) committed
  | other {events : List ProvenanceEvent} {catalog after : ModuleCatalog}
      (h : ProvenanceHistory events catalog)
      (hsame : after.runtimeWritePages = catalog.runtimeWritePages) : ProvenanceHistory events after

theorem wasWritten_clearRanges (ranges : List (BitVec 32 × Nat))
    (hsizes : ∀ range ∈ ranges, range.2 ≠ 0) (pages : RuntimeWritePages) (physical : Nat) :
    (ranges.foldl (fun pages range => pages.updateProvenance
      (canonicalPhysicalAddress range.1).toNat range.2 false) pages).wasWritten physical =
      ((ProvenanceEvent.discLoad ranges).verdict physical).getD (pages.wasWritten physical) := by
  induction ranges generalizing pages with
  | nil => rfl
  | cons range rest ih =>
    obtain ⟨hsize, hrest⟩ := List.forall_mem_cons.mp hsizes
    rw [List.foldl_cons, ih hrest,
      RuntimeWritePages.wasWritten_updateProvenance _ (Nat.pos_of_ne_zero hsize)]
    rw [verdict_discLoad, verdict_discLoad, List.any_cons]
    by_cases hin : (canonicalPhysicalAddress range.1).toNat ≤ physical ∧
        physical < (canonicalPhysicalAddress range.1).toNat + range.2
    · rw [if_pos hin]
      simp only [hin.1, hin.2, decide_true, Bool.and_self, Bool.true_or, if_true, Option.getD_some]
      split
      · rfl
      · rfl
    · have hout : (decide ((canonicalPhysicalAddress range.1).toNat ≤ physical) &&
          decide (physical < (canonicalPhysicalAddress range.1).toNat + range.2)) = false := by
        simpa only [Bool.and_eq_false_iff, decide_eq_false_iff_not, not_and_or] using hin
      rw [if_neg hin, hout, Bool.false_or]

theorem commit_pages {plan : PreparedDiscLoadCatalog} {committed : ModuleCatalog}
    (h : catalog.commitDiscLoadCatalog plan = some committed) :
    committed.runtimeWritePages = plan.invalidatedRanges.foldl (fun pages range =>
      pages.updateProvenance (canonicalPhysicalAddress range.1).toNat range.2 false)
      catalog.runtimeWritePages := by
  unfold commitDiscLoadCatalog at h
  cases hview : catalog.discLoadView.commitDiscLoadCatalog plan with
  | none =>
    rw [hview] at h
    cases h
  | some view =>
    rw [hview] at h
    cases h
    rfl

theorem sizes_of_checkInvalidatedRanges {ranges : List (BitVec 32 × Nat)}
    (h : checkInvalidatedRanges ranges = .ok ()) : ∀ range ∈ ranges, range.2 ≠ 0 := by
  intro range hrange hzero
  unfold checkInvalidatedRanges at h
  split at h
  · cases h
  split at h
  · cases h
  · rename_i hnone
    refine hnone (List.any_eq_true.mpr ⟨range, hrange, ?_⟩)
    simp [hzero]

/-- One event: its verdict, or what was there before. -/
theorem wasWritten_store (h : canonicalRangeIsLinear address size = true) (source : CodeWriteSource)
    (bytesChanged : Bool) (physical : Nat) :
    (catalog.recordRuntimeWrite address size source bytesChanged).runtimeWritePages.wasWritten
        physical = ((ProvenanceEvent.store address size source bytesChanged).verdict physical).getD
        (catalog.runtimeWritePages.wasWritten physical) := by
  rw [recordRuntimeWrite_pages h, RuntimeWritePages.wasWritten_recordStore _
    (Nat.pos_of_ne_zero (linear_bounds h).1)]
  rw [verdict_store]
  split
  · cases establishesProvenance source with
    | true => rfl
    | false =>
      cases bytesChanged with
      | true => rfl
      | false => rfl
  · rfl

theorem getLast?_filterMap_append {α β : Type} (f : α → Option β) (list : List α) (a : α) :
    ((list ++ [a]).filterMap f).getLast? = (f a).or (list.filterMap f).getLast? := by
  rw [List.filterMap_append]
  cases hf : f a with
  | none => simp [hf]
  | some b => simp [hf]

/-- The run: the last verdict on a byte decides. -/
theorem ProvenanceHistory.wasWritten {events : List ProvenanceEvent}
    (h : ProvenanceHistory events catalog) (physical : Nat) :
    catalog.runtimeWritePages.wasWritten physical =
      (events.filterMap (·.verdict physical)).getLast?.getD false := by
  induction h with
  | start h =>
    unfold RuntimeWritePages.wasWritten
    rw [h]
    rfl
  | store source bytesChanged _ hlinear ih =>
    rw [wasWritten_store hlinear, ih, getLast?_filterMap_append]
    cases ProvenanceEvent.verdict physical _ with
    | none => rfl
    | some verdict => rfl
  | discLoad _ hranges hcommit ih =>
    rw [commit_pages hcommit, wasWritten_clearRanges _ (sizes_of_checkInvalidatedRanges hranges),
      ih, getLast?_filterMap_append]
    cases ProvenanceEvent.verdict physical _ with
    | none => rfl
    | some verdict => rfl
  | other _ hsame ih => rw [hsame, ih]

/-! ## Batches -/

variable {page start finish : Nat} {event : GuestWriteEvent}

section
variable (h : directWriteBatchRange event = some (start, finish, page))
include h

theorem directWriteBatchRange_eq_some : canonicalRangeIsLinear event.address event.size = true ∧
      start = (canonicalPhysicalAddress event.address).toNat ∧ finish = start + event.size ∧
      page = pageOf start ∧ pageOf (finish - 1) = page := by
  unfold directWriteBatchRange at h
  split at h
  · cases h
  split at h
  · cases h
  · rename_i hlinear
    dsimp only at h
    split at h
    · rename_i hpage
      cases h
      exact ⟨by simpa using hlinear, rfl, rfl, rfl, hpage⟩
    · cases h

theorem pageSpan_direct : ∀ other, other ∈ pageSpan start event.size ↔ other = page := by
  obtain ⟨hlinear, -, rfl, rfl, hlast⟩ := directWriteBatchRange_eq_some h
  have hsize := (linear_bounds hlinear).1
  have hsame : (start + event.size - 1) / pageSize = start / pageSize :=
    Nat.eq_of_mul_eq_mul_right (show 0 < pageSize by decide) hlast
  intro other
  rw [mem_pageSpan (Nat.pos_of_ne_zero hsize), hsame]
  constructor
  · rintro ⟨k, hlow, hhigh, rfl⟩
    rw [Nat.le_antisymm hhigh hlow]
    rfl
  · intro hother
    exact ⟨start / pageSize, le_rfl, le_rfl, hother⟩

/-- The offsets of a direct store on its page. -/
theorem direct_offsets : max start page - page = start - page ∧
      min (start + event.size) (page + pageSize) - page = finish - page := by
  obtain ⟨hlinear, -, rfl, rfl, hlast⟩ := directWriteBatchRange_eq_some h
  have hsize := (linear_bounds hlinear).1
  unfold pageOf pageSize at *
  omega

theorem wordsOf_recordStore_page (pages : RuntimeWritePages) : RuntimeWritePages.wordsOf
        (pages.recordStore start event.size event.source event.bytesChanged page) =
      applyEvent (RuntimeWritePages.wordsOf (pages page)) start finish page event := by
  have hpage : page ∈ pageSpan start event.size := (pageSpan_direct h page).mpr rfl
  obtain ⟨hstart, hend⟩ := direct_offsets h
  unfold RuntimeWritePages.recordStore applyEvent
  cases event.bytesChanged with
  | true =>
    cases establishesProvenance event.source with
    | true =>
      simp only [if_true]
      rw [RuntimeWritePages.updateProvenance_apply, if_pos hpage,
        RuntimeWritePages.wordsOf_updatePage, RuntimeWritePages.updateProvenance_apply,
        if_pos hpage, RuntimeWritePages.wordsOf_updatePage, hstart, hend]
    | false =>
      simp only [if_true, Bool.false_eq_true, if_false]
      rw [RuntimeWritePages.updateProvenance_apply, if_pos hpage,
        RuntimeWritePages.wordsOf_updatePage, hstart, hend]
  | false =>
    cases establishesProvenance event.source with
    | true =>
      simp only [if_true, Bool.false_eq_true, if_false]
      rw [RuntimeWritePages.updateProvenance_apply, if_pos hpage,
        RuntimeWritePages.wordsOf_updatePage, hstart, hend]
    | false => rfl

theorem recordStore_other_page {other : Nat} (hother : other ≠ page) (pages : RuntimeWritePages) :
    pages.recordStore start event.size event.source event.bytesChanged other = pages other := by
  have hout : other ∉ pageSpan start event.size := fun hin => hother ((pageSpan_direct h other).mp hin)
  unfold RuntimeWritePages.recordStore
  cases event.bytesChanged with
  | true =>
    cases establishesProvenance event.source with
    | true =>
      simp only [if_true]
      rw [RuntimeWritePages.updateProvenance_apply, if_neg hout,
        RuntimeWritePages.updateProvenance_apply, if_neg hout]
    | false =>
      simp only [if_true, Bool.false_eq_true, if_false]
      rw [RuntimeWritePages.updateProvenance_apply, if_neg hout]
  | false =>
    cases establishesProvenance event.source with
    | true =>
      simp only [if_true, Bool.false_eq_true, if_false]
      rw [RuntimeWritePages.updateProvenance_apply, if_neg hout]
    | false => rfl

end

variable {pages : RuntimeWritePages}

/-- A page that is not kept stays away under stores that establish nothing. -/
theorem recordStore_page_none (h : directWriteBatchRange event = some (start, finish, page))
    (hnone : pages page = none) (hsource : establishesProvenance event.source = false) :
    pages.recordStore start event.size event.source event.bytesChanged page = none := by
  have hpage : page ∈ pageSpan start event.size := (pageSpan_direct h page).mpr rfl
  unfold RuntimeWritePages.recordStore
  rw [hsource]
  cases event.bytesChanged with
  | true =>
    simp only [if_true, Bool.false_eq_true, if_false]
    rw [RuntimeWritePages.updateProvenance_apply, if_pos hpage, hnone]
    rfl
  | false => exact hnone

def storeAll (pages : RuntimeWritePages) (events : List GuestWriteEvent) : RuntimeWritePages :=
  events.foldl (fun pages event => pages.recordStore
    (canonicalPhysicalAddress event.address).toNat event.size event.source event.bytesChanged) pages

/-- `record_runtime_write` for each of the stores. -/
def recordAll (catalog : ModuleCatalog) (events : List GuestWriteEvent) : ModuleCatalog :=
  events.foldl (fun catalog event => catalog.recordRuntimeWrite event.address event.size
    event.source event.bytesChanged) catalog

def Direct (event : GuestWriteEvent) : Prop := ∃ range, directWriteBatchRange event = some range

/-- The store touches the page. -/
def Touches (page : Nat) (event : GuestWriteEvent) : Prop :=
  ∃ start finish, directWriteBatchRange event = some (start, finish, page)

variable {events : List GuestWriteEvent} (h : ∀ event ∈ events, Direct event)
include h

theorem applyEvents_eq_storeAll (pages : RuntimeWritePages) (page : Nat) :
    applyEvents page (RuntimeWritePages.wordsOf (pages page)) events =
      some (RuntimeWritePages.wordsOf (storeAll pages events page)) := by
  induction events generalizing pages with
  | nil => rfl
  | cons event rest ih =>
    obtain ⟨⟨⟨start, finish, eventPage⟩, hrange⟩, hrest⟩ := List.forall_mem_cons.mp h
    have hstart := (directWriteBatchRange_eq_some hrange).2.1
    have hnext := ih hrest (pages.recordStore start event.size event.source event.bytesChanged)
    rw [applyEvents, hrange]
    dsimp only
    rw [show storeAll pages (event :: rest) = storeAll (pages.recordStore start event.size
      event.source event.bytesChanged) rest by rw [hstart]; rfl, ← hnext]
    split
    · rename_i hother
      rw [recordStore_other_page hrange (Ne.symm hother)]
    · rename_i hsame
      cases not_ne_iff.mp hsame
      rw [wordsOf_recordStore_page hrange]

theorem storeAll_of_untouched
    (huntouched : ∀ event ∈ events, ¬ Touches page event) (pages : RuntimeWritePages) :
    storeAll pages events page = pages page := by
  induction events generalizing pages with
  | nil => rfl
  | cons event rest ih =>
    obtain ⟨⟨⟨start, finish, eventPage⟩, hrange⟩, hrest⟩ := List.forall_mem_cons.mp h
    obtain ⟨hevent, huntouched⟩ := List.forall_mem_cons.mp huntouched
    have hother : page ≠ eventPage := by
      rintro rfl
      exact hevent ⟨start, finish, hrange⟩
    refine (ih hrest huntouched _).trans ?_
    change pages.recordStore (canonicalPhysicalAddress event.address).toNat event.size event.source
      event.bytesChanged page = pages page
    rw [← (directWriteBatchRange_eq_some hrange).2.1]
    exact recordStore_other_page hrange hother pages

theorem storeAll_of_none (hsources : ∀ event ∈ events, Touches page event →
      establishesProvenance event.source = false)
    (hnone : pages page = none) : storeAll pages events page = none := by
  induction events generalizing pages with
  | nil => exact hnone
  | cons event rest ih =>
    obtain ⟨⟨⟨start, finish, eventPage⟩, hrange⟩, hrest⟩ := List.forall_mem_cons.mp h
    obtain ⟨hsource, hsources⟩ := List.forall_mem_cons.mp hsources
    refine ih hrest hsources ?_
    change pages.recordStore (canonicalPhysicalAddress event.address).toNat event.size event.source
      event.bytesChanged page = none
    rw [← (directWriteBatchRange_eq_some hrange).2.1]
    by_cases hpage : page = eventPage
    · subst hpage
      exact recordStore_page_none hrange hnone (hsource ⟨start, finish, hrange⟩)
    · rw [recordStore_other_page hrange hpage, hnone]

omit h

theorem record_direct (h : directWriteBatchRange event = some (start, finish, page))
    (hapart : event.bytesChanged = true →
      catalog.activeExtentIndexMayOverlap start finish = false) :
    (catalog.recordRuntimeWrite event.address event.size event.source
        event.bytesChanged).modules = catalog.modules ∧
      (catalog.recordRuntimeWrite event.address event.size event.source
        event.bytesChanged).activeExtentPageRefcounts = catalog.activeExtentPageRefcounts := by
  obtain ⟨hlinear, rfl, rfl, -, -⟩ := directWriteBatchRange_eq_some h
  obtain ⟨hsize, hfit, hend⟩ := linear_bounds hlinear
  unfold recordRuntimeWrite
  rw [if_neg (by omega)]
  split
  · exact ⟨rfl, rfl⟩
  dsimp only
  rw [if_neg (by omega)]
  split
  · exact ⟨rfl, rfl⟩
  · rename_i hchanged
    rw [Bool.not_eq_true', Bool.not_eq_false] at hchanged
    rw [hlinear, hapart hchanged]
    exact ⟨rfl, rfl⟩

theorem recordAll_direct (h : ∀ event ∈ events, ∃ start finish page,
      directWriteBatchRange event = some (start, finish, page) ∧
      (event.bytesChanged = true → catalog.activeExtentIndexMayOverlap start finish = false)) :
    (catalog.recordAll events).modules = catalog.modules ∧
      (catalog.recordAll events).runtimeWritePages = storeAll catalog.runtimeWritePages events := by
  induction events generalizing catalog with
  | nil => exact ⟨rfl, rfl⟩
  | cons event rest ih =>
    obtain ⟨⟨start, finish, page, hrange, hapart⟩, hrest⟩ := List.forall_mem_cons.mp h
    obtain ⟨hmodules, hindex⟩ := record_direct hrange hapart
    obtain ⟨hmodules', hpages'⟩ := @ih (catalog.recordRuntimeWrite event.address event.size
      event.source event.bytesChanged) (by
        intro other hother
        obtain ⟨start, finish, page, hrange, hapart⟩ := hrest other hother
        refine ⟨start, finish, page, hrange, fun hchanged => ?_⟩
        have hsame := hapart hchanged
        unfold activeExtentIndexMayOverlap at hsame ⊢
        rwa [hindex])
    refine ⟨hmodules'.trans hmodules, hpages'.trans ?_⟩
    rw [recordRuntimeWrite_pages (directWriteBatchRange_eq_some hrange).1]
    rfl

/-- What a batch makes of a page that it touches. -/
def PageCommitted (events : List GuestWriteEvent) (page : Nat)
    (before after : Option RuntimeWritePage) : Prop :=
  (before = none ∧ after = none) ∨ ∃ found written, before = some found ∧
    applyEvents page found.written events = some written ∧ written.isZero = false ∧
    after = some ⟨written⟩

/-- The pages that were admitted are the pages that are committed. -/
theorem commitPages_of_leavesPages {rest : List GuestWriteEvent} {seen : List Nat}
    (hagree : ∀ page, page ∉ seen → pages page = catalog.runtimeWritePages page)
    (h : catalog.leavesPages events seen rest = some true) :
    ∃ final, commitPages events pages seen rest = some final ∧ ∀ page,
      (page ∉ seen ∧ (∃ event ∈ rest, Touches page event) →
        PageCommitted events page (catalog.runtimeWritePages page) (final page)) ∧
      (page ∈ seen ∨ (∀ event ∈ rest, ¬ Touches page event) → final page = pages page) := by
  induction rest generalizing seen pages with
  | nil => exact ⟨pages, rfl, fun page => ⟨fun h => (nomatch h.2), fun _ => rfl⟩⟩
  | cons event rest ih =>
    unfold leavesPages at h
    unfold commitPages
    cases hrange : directWriteBatchRange event with
    | none =>
      rw [hrange] at h
      cases h
    | some range =>
      obtain ⟨start, finish, page⟩ := range
      rw [hrange] at h
      dsimp only at h ⊢
      have honly : ∀ other, Touches other event → other = page := by
        rintro other ⟨start', finish', h'⟩
        rw [hrange] at h'
        cases h'
        rfl
      have htouch : Touches page event := ⟨start, finish, hrange⟩
      by_cases hseen : page ∈ seen
      · rw [if_pos hseen] at h ⊢
        obtain ⟨final, hfinal, hpages⟩ := ih hagree h
        refine ⟨final, hfinal, fun other => ⟨?_, ?_⟩⟩
        · rintro ⟨hother, candidate, hcandidate, htouches⟩
          rcases List.mem_cons.mp hcandidate with rfl | hin
          · exact absurd (honly other htouches ▸ hseen) hother
          · exact (hpages other).1 ⟨hother, candidate, hin, htouches⟩
        · rintro (hother | hother)
          · exact (hpages other).2 (.inl hother)
          · exact (hpages other).2 (.inr fun candidate hin =>
              hother candidate (List.mem_cons_of_mem _ hin))
      · rw [if_neg hseen] at h ⊢
        rw [hagree page hseen]
        -- the page of this store is settled; `next` is the map behind it
        have hstep : ∀ next : RuntimeWritePages,
            (∀ other, other ≠ page → next other = pages other) →
            PageCommitted events page (catalog.runtimeWritePages page) (next page) →
            catalog.leavesPages events (page :: seen) rest = some true →
            ∃ final, commitPages events next (page :: seen) rest = some final ∧ ∀ other,
              (other ∉ seen ∧ (∃ candidate ∈ event :: rest, Touches other candidate) →
                PageCommitted events other (catalog.runtimeWritePages other) (final other)) ∧
              (other ∈ seen ∨ (∀ candidate ∈ event :: rest, ¬ Touches other candidate) →
                final other = pages other) := by
          intro next hothers hcommitted hleaves
          have hnext : ∀ other, other ∉ page :: seen →
              next other = catalog.runtimeWritePages other := by
            intro other hother
            rw [List.mem_cons, not_or] at hother
            rw [hothers other hother.1, hagree other hother.2]
          obtain ⟨final, hfinal, hpages⟩ := ih hnext hleaves
          refine ⟨final, hfinal, fun other => ⟨?_, ?_⟩⟩
          · rintro ⟨hother, candidate, hcandidate, htouches⟩
            by_cases hpage : other = page
            · subst hpage
              rw [(hpages other).2 (.inl List.mem_cons_self)]
              exact hcommitted
            · rcases List.mem_cons.mp hcandidate with rfl | hin
              · exact absurd (honly other htouches) hpage
              · exact (hpages other).1 ⟨fun h => (List.mem_cons.mp h).elim hpage hother,
                  candidate, hin, htouches⟩
          · intro hother
            have hpage : other ≠ page := by
              rintro rfl
              rcases hother with hin | hnone
              · exact hseen hin
              · exact hnone event List.mem_cons_self htouch
            rw [← hothers other hpage]
            rcases hother with hin | hnone
            · exact (hpages other).2 (.inl (List.mem_cons_of_mem _ hin))
            · exact (hpages other).2 (.inr fun candidate hin =>
                hnone candidate (List.mem_cons_of_mem _ hin))
        cases hfound : catalog.runtimeWritePages page with
        | none =>
          rw [hfound] at h hstep
          dsimp only at h ⊢
          split at h
          · cases h
          · exact hstep pages (fun _ _ => rfl) (.inl ⟨rfl, (hagree page hseen).trans hfound⟩) h
        | some found =>
          rw [hfound] at h hstep
          dsimp only at h ⊢
          cases happly : applyEvents page found.written events with
          | none =>
            rw [happly] at h
            cases h
          | some written =>
            rw [happly] at h
            dsimp only at h ⊢
            split at h
            · cases h
            · rename_i hzero
              rw [if_neg hzero]
              refine hstep _ (fun other hother => Function.update_of_ne hother _ _)
                (.inr ⟨found, written, rfl, happly, Bool.eq_false_iff.mpr hzero,
                  Function.update_self _ _ _⟩) h

theorem admits_of_canRecord (h : catalog.canRecordRuntimeWriteBatch events = some true) :
    events.length ≤ directLinearWriteBatchCapacity ∧
      (∀ event ∈ events, catalog.admitsEvent event = true) ∧
      catalog.leavesPages events [] events = some true := by
  unfold canRecordRuntimeWriteBatch at h
  split at h
  · cases h
  split at h
  · cases h
  · rename_i hlength hall
    rw [Bool.not_eq_true', Bool.not_eq_false, List.all_eq_true] at hall
    exact ⟨Nat.le_of_not_lt hlength, hall, h⟩

theorem admitsEvent_iff : catalog.admitsEvent event = true ↔ ∃ start finish page,
      directWriteBatchRange event = some (start, finish, page) ∧
      (event.bytesChanged = true → catalog.activeExtentIndexMayOverlap start finish = false) ∧
      (establishesProvenance event.source = true →
        (catalog.runtimeWritePages page).isSome = true) := by
  unfold admitsEvent
  cases hrange : directWriteBatchRange event with
  | none => simp
  | some range =>
    obtain ⟨start, finish, page⟩ := range
    simp only [Option.some.injEq, Prod.mk.injEq]
    cases event.bytesChanged with
    | true =>
      cases establishesProvenance event.source with
      | true => simp
      | false => simp
    | false =>
      cases establishesProvenance event.source with
      | true => simp
      | false => simp

/-- A batch that is admitted leaves what its stores leave in turn. -/
theorem batch_agrees (h : catalog.canRecordRuntimeWriteBatch events = some true) :
    ∃ committed, catalog.recordRuntimeWriteBatch events = some committed ∧
      committed.modules = (catalog.recordAll events).modules ∧
      committed.runtimeWritePages = (catalog.recordAll events).runtimeWritePages := by
  obtain ⟨hlength, hadmits, hleaves⟩ := admits_of_canRecord h
  have hall : ∀ event ∈ events, ∃ start finish page,
      directWriteBatchRange event = some (start, finish, page) ∧
      (event.bytesChanged = true → catalog.activeExtentIndexMayOverlap start finish = false) :=
    fun event hevent => by
      obtain ⟨start, finish, page, hrange, hapart, -⟩ := admitsEvent_iff.mp (hadmits event hevent)
      exact ⟨start, finish, page, hrange, hapart⟩
  have hdirect : ∀ event ∈ events, Direct event := fun event hevent => by
    obtain ⟨start, finish, page, hrange, -⟩ := hall event hevent
    exact ⟨_, hrange⟩
  obtain ⟨hmodules, hpages⟩ := recordAll_direct hall
  obtain ⟨final, hfinal, hcommitted⟩ := commitPages_of_leavesPages (fun _ _ => rfl) hleaves
  obtain ⟨committed, hcommit, hsame, hwritten⟩ : ∃ committed,
      catalog.recordRuntimeWriteBatch events = some committed ∧
      committed.modules = catalog.modules ∧ committed.runtimeWritePages = final := by
    unfold recordRuntimeWriteBatch
    rw [if_neg (Nat.not_lt.mpr hlength), hfinal]
    exact ⟨_, rfl, rfl, rfl⟩
  refine ⟨committed, hcommit, hsame.trans hmodules.symm, ?_⟩
  rw [hwritten, hpages]
  funext page
  by_cases htouched : ∃ event ∈ events, Touches page event
  · rcases (hcommitted page).1 ⟨List.not_mem_nil, htouched⟩ with
      ⟨hnone, hafter⟩ | ⟨found, written, hfound, happly, hzero, hafter⟩
    · -- no store of guest code was admitted for a page that is not there
      have hsources : ∀ event ∈ events, Touches page event →
          establishesProvenance event.source = false := by
        rintro event hevent ⟨start, finish, hrange⟩
        obtain ⟨start', finish', page', hrange', -, hpage⟩ :=
          admitsEvent_iff.mp (hadmits event hevent)
        rw [hrange] at hrange'
        cases hrange'
        by_contra hsource
        have hsome := hpage (Bool.not_eq_false _ ▸ hsource)
        rw [hnone] at hsome
        cases hsome
      rw [hafter, storeAll_of_none hdirect hsources hnone]
    · have hwords := applyEvents_eq_storeAll hdirect catalog.runtimeWritePages page
      rw [hfound] at hwords
      have hsame : RuntimeWritePages.wordsOf (storeAll catalog.runtimeWritePages events page) =
          written := Option.some.inj (hwords.symm.trans happly)
      have hkept := @RuntimeWritePages.eq_some_of_wordsOf
        (storeAll catalog.runtimeWritePages events page) (hsame ▸ hzero)
      rw [hafter, hkept, hsame]
  · rw [not_exists] at htouched
    have huntouched : ∀ event ∈ events, ¬ Touches page event := fun event hevent htouches =>
      htouched event ⟨hevent, htouches⟩
    rw [(hcommitted page).2 (.inr huntouched), storeAll_of_untouched hdirect huntouched]

/-- The mark of a byte is the verdict of the last event that concerned it, a range is
covered when it is linear and all its bytes are marked, and an admitted batch is its
stores. -/
theorem runtime_write_provenance_is_exact :
    (∀ {events : List ProvenanceEvent} {catalog : ModuleCatalog}, ProvenanceHistory events catalog →
      (∀ physical, catalog.runtimeWritePages.wasWritten physical = true ↔
        (events.filterMap (·.verdict physical)).getLast? = some true) ∧
      ∀ address size, catalog.runtimeWritePages.covers address size = true ↔
        canonicalRangeIsLinear address size = true ∧ ∀ offset < size,
          catalog.runtimeWritePages.wasWritten
            ((canonicalPhysicalAddress address).toNat + offset) = true) ∧
    ∀ {catalog : ModuleCatalog} {events : List GuestWriteEvent},
      catalog.canRecordRuntimeWriteBatch events = some true →
      ∃ committed, catalog.recordRuntimeWriteBatch events = some committed ∧
        committed.modules = (catalog.recordAll events).modules ∧
        committed.runtimeWritePages = (catalog.recordAll events).runtimeWritePages := by
  refine ⟨fun {events catalog} h => ⟨fun physical => ?_, RuntimeWritePages.covers_iff _⟩,
    batch_agrees⟩
  rw [h.wasWritten physical]
  cases (events.filterMap (·.verdict physical)).getLast? with
  | none => simp
  | some verdict => simp

/-- A store of guest code covers its bytes, and a batch of one store is that store. -/
theorem runtime_write_provenance_is_exact_sample :
    let written := ModuleCatalog.recordRuntimeWrite {} 0x8C010000 4 .cpu true
    let kept : ModuleCatalog := { runtimeWritePages := fun _ => some {} }
    let store : GuestWriteEvent := ⟨0x8C010002, 2, .cpu, true⟩
    written.runtimeWritePages.covers 0x8C010000 4 = true ∧
    ∃ committed, kept.recordRuntimeWriteBatch [store] = some committed ∧
      committed.modules = (kept.recordAll [store]).modules ∧
      committed.runtimeWritePages = (kept.recordAll [store]).runtimeWritePages := by
  intro written kept store
  have hlinear : canonicalRangeIsLinear 0x8C010000 4 = true := by decide
  have hhistory : ProvenanceHistory [.store 0x8C010000 4 .cpu true] written :=
    .store .cpu true (.start rfl) hlinear
  obtain ⟨hmarks, hcovers⟩ := runtime_write_provenance_is_exact.1 hhistory
  refine ⟨(hcovers _ _).mpr ⟨hlinear, fun offset hoffset => (hmarks _).mpr ?_⟩,
    runtime_write_provenance_is_exact.2 ?_⟩
  · have hcases : offset = 0 ∨ offset = 1 ∨ offset = 2 ∨ offset = 3 := by omega
    rcases hcases with rfl | rfl | rfl | rfl
    · decide
    · decide
    · decide
    · decide
  · have hzero : (applyEvent .empty 0x0C010002 0x0C010004 0x0C010000 store).isZero = false := by
      by_contra hzero
      rw [Bool.not_eq_false, Bitmap.isZero_iff_bits] at hzero
      have hbit := hzero 2 (by decide)
      change (updateRuntimeWriteBits _ 2 4 true).bit 2 = false at hbit
      rw [bit_updateRuntimeWriteBits _ _ _ _ (by decide)] at hbit
      cases hbit
    have hrange : directWriteBatchRange store = some (0x0C010002, 0x0C010004, 0x0C010000) := by
      decide
    have hadmits : kept.admitsEvent store = true := admitsEvent_iff.mpr
      ⟨_, _, _, hrange, fun _ => by decide, fun _ => rfl⟩
    have happly : applyEvents 0x0C010000 ({} : RuntimeWritePage).written [store] =
        some (applyEvent .empty 0x0C010002 0x0C010004 0x0C010000 store) := by
      rw [applyEvents, hrange]
      rfl
    have hleaves : kept.leavesPages [store] [] [store] = some true := by
      unfold leavesPages
      rw [hrange]
      dsimp only
      rw [if_neg List.not_mem_nil, show kept.runtimeWritePages 0x0C010000 = some {} from rfl]
      dsimp only
      rw [happly]
      dsimp only
      rw [hzero]
      rfl
    simp [canRecordRuntimeWriteBatch, directLinearWriteBatchCapacity, hadmits, hleaves]

/-- Two marked bytes on the two sides of an alias boundary are not covered as one range,
and an empty range is never covered. -/
theorem covers_leaves_out_boundaries :
    let low := ModuleCatalog.recordRuntimeWrite {} 0x1FFFFFFF 1 .cpu true
    let both := low.recordRuntimeWrite 0x20000000 1 .cpu true
    ProvenanceHistory [.store 0x1FFFFFFF 1 .cpu true, .store 0x20000000 1 .cpu true] both ∧
      (∀ offset < 2, both.runtimeWritePages.wasWritten
        (canonicalPhysicalAddress (0x1FFFFFFF + BitVec.ofNat 32 offset)).toNat = true) ∧
      both.runtimeWritePages.covers 0x1FFFFFFF 2 = false ∧
      both.runtimeWritePages.covers 0x1FFFFFFF 0 = false := by
  intro low both
  have hlow : canonicalRangeIsLinear 0x1FFFFFFF 1 = true := by decide
  have hhigh : canonicalRangeIsLinear 0x20000000 1 = true := by decide
  have hhistory : ProvenanceHistory
      [.store 0x1FFFFFFF 1 .cpu true, .store 0x20000000 1 .cpu true] both :=
    .store .cpu true (.store .cpu true (.start rfl) hlow) hhigh
  have hwritten : ∀ physical, physical = 0x1FFFFFFF ∨ physical = 0 →
      both.runtimeWritePages.wasWritten physical = true := by
    rintro physical (rfl | rfl)
    · rw [hhistory.wasWritten]
      decide
    · rw [hhistory.wasWritten]
      decide
  refine ⟨hhistory, fun offset hoffset => hwritten _ ?_, rfl, rfl⟩
  have hcases : offset = 0 ∨ offset = 1 := by omega
  rcases hcases with rfl | rfl
  · exact .inl (by decide)
  · exact .inr (by decide)

end ModuleCatalog
end KatanaRecomp.Runtime
