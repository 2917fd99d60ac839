import KatanaRecomp.Runtime.BlockTableRanges

/-! # The paths of physical invalidation

A write to physical memory reaches the blocks that are validated by its bytes. The
scalar erasure, the batch with its restarted iteration, the two phases of a disc load
and the page filter all find them through the lists of the pages, which name exactly
the active blocks with bytes on the page. -/
namespace KatanaRecomp.Runtime.RuntimeBlockTable
open Lib
variable {t t' : RuntimeBlockTable} {fresh : Prop}

/-! ## The lists of the pages -/

structure PagesIndexed (t : RuntimeBlockTable) : Prop where
  nodup : ∀ page, (t.activePhysicalPages page).Nodup
  listed : ∀ page id, id ∈ t.activePhysicalPages page ↔
    ∃ record, t.ActiveRecord id record ∧ page ∈ validationPages record.block

variable {id : Nat} {ids : List Nat} {id' : Nat}

theorem mem_insertId : id' ∈ insertId id ids ↔ id' = id ∨ id' ∈ ids := by
  unfold insertId
  split
  · rename_i hmem
    refine ⟨.inr, ?_⟩
    rintro (rfl | h)
    · exact hmem
    · exact h
  · exact List.mem_orderedInsert _

theorem nodup_insertId (h : ids.Nodup) : (insertId id ids).Nodup := by
  unfold insertId
  split
  · exact h
  · rename_i hmem
    exact (List.perm_orderedInsert _ _ _).nodup_iff.mpr (List.nodup_cons.mpr ⟨hmem, h⟩)

theorem activate_activePhysicalPages (t : RuntimeBlockTable) (id : Nat) (record : Record) :
    (t.activate id record).activePhysicalPages = fun page =>
      if page ∈ validationPages record.block then insertId id (t.activePhysicalPages page)
      else t.activePhysicalPages page := by
  obtain ⟨pages, entries, hframe⟩ := activate_frame t id record
  rw [hframe]

theorem retire_activePhysicalPages (t : RuntimeBlockTable) (id : Nat) (record : Record) :
    (t.retire id record).activePhysicalPages = fun page =>
      if page ∈ validationPages record.block then (t.activePhysicalPages page).filter (· ≠ id)
      else t.activePhysicalPages page := by
  obtain ⟨pages, entries, hframe⟩ := retire_frame t id record
  rw [hframe]
  unfold unlistActive
  dsimp only
  split
  · rfl
  · rfl

variable {record : Record} {record' : Record}

theorem activeRecord_retire_iff :
    (t.retire id record).ActiveRecord id' record' ↔ id' ≠ id ∧ t.ActiveRecord id' record' := by
  unfold ActiveRecord
  rw [retire_records, Function.update_apply]
  split
  · rename_i hid
    refine ⟨?_, fun h => absurd hid h.1⟩
    rintro ⟨hrecord, hactive⟩
    cases hrecord
    cases hactive
  · rename_i hid
    exact (and_iff_right hid).symm

theorem activeRecord_activate_iff (hactive : record.active = true)
    : (t.activate id record).ActiveRecord id' record' ↔
      id' = id ∧ record' = record ∨ id' ≠ id ∧ t.ActiveRecord id' record' := by
  refine ⟨activeRecord_activate, ?_⟩
  unfold ActiveRecord
  rw [activate_records, Function.update_apply]
  rintro (⟨rfl, rfl⟩ | ⟨hne, h⟩)
  · rw [if_pos rfl]
    exact ⟨rfl, hactive⟩
  · rw [if_neg hne]
    exact h

variable (hp : PagesIndexed t)
include hp

theorem PagesIndexed.activate
    (hinactive : ∀ old, ¬ t.ActiveRecord id old) (hactive : record.active = true) :
    PagesIndexed (t.activate id record) := by
  constructor
  · intro page
    rw [activate_activePhysicalPages]
    dsimp only
    split
    · exact nodup_insertId (hp.nodup page)
    · exact hp.nodup page
  · intro page id'
    have hsplit : (∃ record', (t.activate id record).ActiveRecord id' record' ∧
        page ∈ validationPages record'.block) ↔ (id' = id ∧ page ∈ validationPages record.block) ∨
          (id' ≠ id ∧ id' ∈ t.activePhysicalPages page) := by
      rw [hp.listed]
      simp only [activeRecord_activate_iff hactive]
      constructor
      · rintro ⟨record', ⟨rfl, rfl⟩ | ⟨hne, h⟩, hpage⟩
        · exact .inl ⟨rfl, hpage⟩
        · exact .inr ⟨hne, record', h, hpage⟩
      · rintro (⟨rfl, hpage⟩ | ⟨hne, record', h, hpage⟩)
        · exact ⟨record, .inl ⟨rfl, rfl⟩, hpage⟩
        · exact ⟨record', .inr ⟨hne, h⟩, hpage⟩
    have hfresh : id ∉ t.activePhysicalPages page := by
      rw [hp.listed]
      rintro ⟨old, hold, -⟩
      exact hinactive old hold
    rw [hsplit, activate_activePhysicalPages]
    dsimp only
    by_cases hid : id' = id
    · subst hid
      by_cases hpage : page ∈ validationPages record.block
      · simp [hpage, mem_insertId]
      · simp [hpage, hfresh]
    · by_cases hpage : page ∈ validationPages record.block
      · simp [hpage, mem_insertId, hid]
      · simp [hpage, hid]

theorem PagesIndexed.retire
    (hrecord : t.ActiveRecord id record) : PagesIndexed (t.retire id record) := by
  constructor
  · intro page
    rw [retire_activePhysicalPages]
    dsimp only
    split
    · exact (hp.nodup page).filter _
    · exact hp.nodup page
  · intro page id'
    have hlisted : id' ∈ (t.retire id record).activePhysicalPages page ↔
        id' ≠ id ∧ id' ∈ t.activePhysicalPages page := by
      rw [retire_activePhysicalPages]
      dsimp only
      split
      · rw [List.mem_filter, decide_eq_true_eq, and_comm]
      · -- the id is not on a page without a byte of its block
        rename_i hpage
        refine ⟨fun h => ⟨?_, h⟩, And.right⟩
        rintro rfl
        obtain ⟨other, hother, hmem⟩ := (hp.listed page _).mp h
        cases Option.some.inj (hother.1.symm.trans hrecord.1)
        exact hpage hmem
    rw [hlisted, hp.listed]
    simp only [activeRecord_retire_iff]
    constructor
    · rintro ⟨hne, record', h, hmem⟩
      exact ⟨record', ⟨hne, h⟩, hmem⟩
    · rintro ⟨record', ⟨hne, h⟩, hmem⟩
      exact ⟨hne, record', h, hmem⟩

theorem PagesIndexed.of_eq (hrecords : t'.records = t.records)
    (hpages : t'.activePhysicalPages = t.activePhysicalPages) : PagesIndexed t' := by
  constructor
  · rw [hpages]
    exact hp.nodup
  · unfold ActiveRecord
    rw [hpages, hrecords]
    exact hp.listed

theorem PagesIndexed.change (ht : Indexed t) (h : Change fresh t t') : PagesIndexed t' := by
  cases h with
  | bookkeeping => exact hp.of_eq rfl rfl
  | insertNew record hfree hsize hactive =>
    have hgrown : PagesIndexed { t with
        nextId := t.nextId + 1
        identities := Function.update t.identities record.identity (some t.nextId) } :=
      hp.of_eq rfl rfl
    refine hgrown.activate ?_ hactive
    rintro old ⟨hold, -⟩
    exact absurd (ht.ids _ old hold).2 (lt_irrefl _)
  | reactivate id known record hknown hinactive hdynamic hfree hsize hactive =>
    refine hp.activate ?_ hactive
    rintro old ⟨hold, hactive'⟩
    cases Option.some.inj (hknown.symm.trans hold)
    rw [hinactive] at hactive'
    cases hactive'
  | retire id record hrecord hactive => exact hp.retire ⟨hrecord, hactive⟩
  | sealIndex hopen =>
    simp only [sealStatic, hopen]
    exact hp.of_eq rfl rfl
  | bind tracker contract =>
    simp only [bindCodeTracker]
    split
    · exact hp
    · exact hp.of_eq rfl rfl

theorem PagesIndexed.changes (ht : Indexed t) (h : Changes fresh t t') :
    PagesIndexed t' ∧ Indexed t' := by
  induction h with
  | refl => exact ⟨hp, ht⟩
  | tail _ hstep ih => exact ⟨ih.1.change ih.2 hstep, ih.2.change hstep⟩

omit hp

theorem PagesIndexed.of_inactive (hrecords : ∀ id, t.records id = none)
    (hpages : ∀ page, t.activePhysicalPages page = []) : PagesIndexed t := by
  constructor
  · intro page
    rw [hpages]
    exact List.nodup_nil
  · intro page id
    rw [hpages]
    refine ⟨fun h => (nomatch h), ?_⟩
    rintro ⟨record, ⟨hrecord, -⟩, -⟩
    rw [hrecords] at hrecord
    cases hrecord

theorem PagesIndexed.deactivate (hp : PagesIndexed t) (id : Nat) :
    PagesIndexed (t.deactivate id) := by
  unfold RuntimeBlockTable.deactivate
  split
  · exact hp
  rename_i record hrecord
  split
  · rename_i hactive
    exact hp.retire ⟨hrecord, hactive⟩
  · exact hp

/-! ## Bytes and pages -/

variable {size : Nat}

theorem mem_physicalPages_iff {start page : Nat} : page ∈ physicalPages start size ↔
      start / physicalPageSize ≤ page ∧ page ≤ (start + size - 1) / physicalPageSize ∨
        page = start / physicalPageSize := by
  unfold physicalPages
  simp only [List.mem_map, List.mem_range]
  constructor
  · rintro ⟨offset, hoffset, rfl⟩
    by_cases hle : start / physicalPageSize ≤ (start + size - 1) / physicalPageSize
    · exact .inl ⟨Nat.le_add_right _ _, by omega⟩
    · exact .inr (by omega)
  · rintro (⟨hlow, hhigh⟩ | rfl)
    · exact ⟨page - start / physicalPageSize, by omega, by omega⟩
    · exact ⟨0, by omega, rfl⟩

theorem page_of_byte {start byte : Nat} (hlow : start ≤ byte) (hhigh : byte < start + size) :
    byte / physicalPageSize ∈ physicalPages start size :=
  mem_physicalPages_iff.mpr (.inl ⟨Nat.div_le_div_right hlow, Nat.div_le_div_right (by omega)⟩)

/-- The bytes that a checked block is validated with lie in the address space. -/
theorem checkBlock_extent {stored : RuntimeBlock} {runtimeRegistered : Bool}
    (hcheck : checkBlock stored runtimeRegistered = .ok ()) : 0 < stored.validationExtent.toNat ∧
      stored.validationPhysicalStart.toNat + stored.validationExtent.toNat ≤ 2 ^ 32 := by
  have hsize := checkBlock_size hcheck
  unfold checkBlock at hcheck
  split at hcheck
  · cases hcheck
  split at hcheck
  · cases hcheck
  split at hcheck
  · cases hcheck
  split at hcheck
  · cases hcheck
  split at hcheck
  · cases hcheck
  rename_i htemplate
  split at hcheck
  · cases hcheck
  rename_i hphysical
  unfold RuntimeBlock.validationExtent RuntimeBlock.validationPhysicalStart
  unfold checkBlockTemplate checkTemplate at htemplate
  cases hcontract : stored.aotTemplate with
  | none => exact ⟨hsize, not_lt.mp hphysical⟩
  | some contract =>
    rw [hcontract] at htemplate
    dsimp only at htemplate ⊢
    by_cases hmode : contract.validationMode = .runtimeBlock
    · rw [if_pos hmode, if_pos hmode]
      exact ⟨hsize, not_lt.mp hphysical⟩
    rw [if_neg hmode, if_neg hmode]
    split at htemplate
    · cases htemplate
    split at htemplate
    · cases htemplate
    have hsource : contract.validationMode = .sourceModule := by
      cases hcases : contract.validationMode with
      | sourceModule => rfl
      | runtimeBlock => exact absurd hcases hmode
    simp only [checkTemplateExtent, hsource, decide_true, if_true] at htemplate
    split at htemplate
    · cases htemplate
    rename_i hextent
    split at htemplate
    · cases htemplate
    split at htemplate
    · cases htemplate
    split at htemplate
    · cases htemplate
    rename_i hspace
    have hnonzero : contract.validationExtent ≠ 0 := fun hzero => hextent (.inl hzero)
    have hpositive : contract.validationExtent.toNat ≠ 0 := fun hzero =>
      hnonzero (BitVec.eq_of_toNat_eq hzero)
    exact ⟨Nat.pos_of_ne_zero hpositive, by omega⟩

variable {block : RuntimeBlock}

theorem Prepared.extent (h : Prepared block) : 0 < block.validationExtent.toNat ∧
      block.validationPhysicalStart.toNat + block.validationExtent.toNat ≤ 2 ^ 32 := by
  obtain ⟨source, runtimeRegistered, hprepared⟩ := h
  simp only [prepareBlock] at hprepared
  split at hprepared
  · cases hprepared
  · rename_i hcheck
    cases hprepared
    exact checkBlock_extent hcheck

variable {canonical : BitVec 32}

/-- A write that reaches a block shares a byte with its validation. -/
theorem reachesBlock_byte (hblock : Prepared block)
    {extent : Nat} (hwrite : canonical.toNat + extent ≤ 2 ^ 32)
    (h : reachesBlock canonical extent block = true) :
    ∃ byte, (canonical.toNat ≤ byte ∧ byte < canonical.toNat + extent) ∧
      block.validationPhysicalStart.toNat ≤ byte ∧
      byte < block.validationPhysicalStart.toNat + block.validationExtent.toNat := by
  obtain ⟨hpositive, hspace⟩ := hblock.extent
  simp only [reachesBlock, nativeAotWriteOverlapsImmutable] at h
  split at h
  · cases h
  split at h
  · rename_i hoverflow
    omega
  split at h
  · cases h
  rename_i hoverlap
  exact ⟨max block.validationPhysicalStart.toNat canonical.toNat, by omega, by omega, by omega⟩

theorem reachesBlock_page (hblock : Prepared block)
    {extent : Nat} (hwrite : canonical.toNat + extent ≤ 2 ^ 32)
    (h : reachesBlock canonical extent block = true) :
    ∃ page ∈ physicalPages canonical.toNat extent, page ∈ validationPages block := by
  obtain ⟨byte, ⟨hlow, hhigh⟩, hlow', hhigh'⟩ := reachesBlock_byte hblock hwrite h
  exact ⟨byte / physicalPageSize, page_of_byte hlow hhigh, page_of_byte hlow' hhigh'⟩

/-! ## The scalar erasure -/

structure PagesOk (t : RuntimeBlockTable) : Prop where
  indexed : PagesIndexed t
  prepared : ∀ id record, t.ActiveRecord id record → Prepared record.block

theorem activeRecord_deactivate_iff :
    (t.deactivate id).ActiveRecord id' record' ↔ id' ≠ id ∧ t.ActiveRecord id' record' := by
  have hkept : (∀ record, ¬ t.ActiveRecord id record) →
      (t.ActiveRecord id' record' ↔ id' ≠ id ∧ t.ActiveRecord id' record') := by
    intro hinactive
    refine ⟨fun h => ⟨?_, h⟩, And.right⟩
    rintro rfl
    exact hinactive record' h
  unfold RuntimeBlockTable.deactivate
  split
  · rename_i hnone
    refine hkept ?_
    rintro record ⟨hrecord, -⟩
    rw [hnone] at hrecord
    cases hrecord
  rename_i record hrecord
  split
  · exact activeRecord_retire_iff
  · rename_i hinactive
    refine hkept ?_
    rintro other ⟨hother, hactive⟩
    cases Option.some.inj (hrecord.symm.trans hother)
    exact hinactive hactive

theorem PagesOk.deactivate (hok : PagesOk t) (id : Nat) : PagesOk (t.deactivate id) :=
  ⟨hok.indexed.deactivate id, fun id' record h =>
    hok.prepared id' record (activeRecord_deactivate_iff.mp h).2⟩

theorem activeRecord_deactivateAll_iff :
    (t.deactivateAll ids).ActiveRecord id record ↔ id ∉ ids ∧ t.ActiveRecord id record := by
  induction ids generalizing t with
  | nil => exact (and_iff_right List.not_mem_nil).symm
  | cons first rest ih =>
    refine ih.trans ?_
    rw [activeRecord_deactivate_iff, List.mem_cons, not_or, ← and_assoc, and_comm (a := id ∉ rest)]

theorem PagesOk.deactivateAll (hok : PagesOk t) (ids : List Nat) :
    PagesOk (t.deactivateAll ids) := by
  induction ids generalizing t with
  | nil => exact hok
  | cons first rest ih => exact ih (hok.deactivate first)

theorem writeExtent_le (canonical : BitVec 32) (size : Nat) :
    canonical.toNat + writeExtent canonical size ≤ 2 ^ 32 := by
  have hlt := canonical.isLt
  unfold writeExtent
  split <;> omega

variable {physicalAddress : BitVec 32}

/-- The lists of the pages lead to exactly the active blocks that are reached. -/
theorem PagesOk.mem_reachedIds (hok : PagesOk t) :
    id ∈ t.reachedIds physicalAddress size ↔ ∃ record, t.ActiveRecord id record ∧
        reachesBlock (canonicalPhysicalAddress physicalAddress)
          (writeExtent (canonicalPhysicalAddress physicalAddress) size) record.block = true := by
  unfold reachedIds sortedUnique
  rw [List.mem_filter, List.mem_dedup, List.mem_insertionSort, List.mem_flatMap]
  constructor
  · rintro ⟨⟨page, -, hlisted⟩, hreached⟩
    obtain ⟨record, hrecord, -⟩ := (hok.indexed.listed page id).mp hlisted
    rw [hrecord.1] at hreached
    exact ⟨record, hrecord, hreached⟩
  · rintro ⟨record, hrecord, hreached⟩
    obtain ⟨page, hpage, hvalidated⟩ :=
      reachesBlock_page (hok.prepared id record hrecord) (writeExtent_le _ _) hreached
    refine ⟨⟨page, hpage, (hok.indexed.listed page id).mpr ⟨record, hrecord, hvalidated⟩⟩, ?_⟩
    rw [hrecord.1]
    exact hreached

theorem PagesOk.activeRecord_erase_iff (hok : PagesOk t) (hsize : size ≠ 0) :
    (t.eraseOverlappingPhysical physicalAddress size).2.ActiveRecord id record ↔
      t.ActiveRecord id record ∧ reachesBlock (canonicalPhysicalAddress physicalAddress)
          (writeExtent (canonicalPhysicalAddress physicalAddress) size) record.block = false := by
  unfold eraseOverlappingPhysical
  rw [if_neg hsize]
  dsimp only
  rw [activeRecord_deactivateAll_iff, hok.mem_reachedIds, and_comm]
  refine and_congr_right fun hrecord => ?_
  constructor
  · intro hnot
    rw [← Bool.not_eq_true]
    exact fun hreached => hnot ⟨record, hrecord, hreached⟩
  · rintro hclear ⟨other, hother, hreached⟩
    cases Option.some.inj (hrecord.1.symm.trans hother.1)
    rw [hclear] at hreached
    cases hreached

theorem PagesOk.erase (hok : PagesOk t) (physicalAddress : BitVec 32) (size : Nat) :
    PagesOk (t.eraseOverlappingPhysical physicalAddress size).2 := by
  unfold eraseOverlappingPhysical
  split
  · exact hok
  · exact hok.deactivateAll _

/-- The scalar erasures of the changed stores, in order. -/
def eraseChanged (t : RuntimeBlockTable) (events : List ExecutableCodeTracker.GuestWriteEvent) :
    RuntimeBlockTable := (events.filter (·.bytesChanged)).foldl
    (fun t event => (t.eraseOverlappingPhysical event.address event.size).2) t

theorem PagesOk.activeRecord_foldl_erase_iff
    {events : List ExecutableCodeTracker.GuestWriteEvent} (hsizes : ∀ event ∈ events, event.size ≠ 0)
    (hok : PagesOk t) :
    (events.foldl (fun t event => (t.eraseOverlappingPhysical event.address event.size).2)
        t).ActiveRecord id record ↔ t.ActiveRecord id record ∧ ∀ event ∈ events,
        reachesBlock (canonicalPhysicalAddress event.address)
          (writeExtent (canonicalPhysicalAddress event.address) event.size) record.block = false := by
  induction events generalizing t with
  | nil => simp
  | cons event rest ih =>
    obtain ⟨hsize, hrest⟩ := List.forall_mem_cons.mp hsizes
    rw [List.foldl_cons, ih hrest (hok.erase event.address event.size),
      hok.activeRecord_erase_iff hsize, List.forall_mem_cons, and_assoc]

/-! ## The disc load -/

/-- The plan of a disc load names what the scalar erasure names. -/
theorem PagesOk.commit_prepare (hok : PagesOk t) (physicalAddress : BitVec 32) (size : Nat) :
    t.commitDiscLoadInvalidation (t.prepareDiscLoadInvalidation physicalAddress size) =
      (t.eraseOverlappingPhysical physicalAddress size).2 := by
  unfold commitDiscLoadInvalidation prepareDiscLoadInvalidation eraseOverlappingPhysical
  split
  · rfl
  dsimp only
  rw [List.filter_eq_self.mpr]
  intro id hid
  obtain ⟨record, hrecord, -⟩ := hok.mem_reachedIds.mp hid
  rw [hrecord.1]
  exact hrecord.2

/-! ## The page filter -/

/-- `may_overlap_active_physical`. -/
def mayOverlapActivePhysical (t : RuntimeBlockTable) (address : BitVec 32) (size : Nat) : Bool :=
  if size = 0 then false
  else if size > 2 ^ 32 - address.toNat then true
  else
    let canonical := canonicalPhysicalAddress address
    let finalAddress := address + BitVec.ofNat 32 (size - 1)
    let expectedFinal := canonical.toNat + size - 1
    if expectedFinal > uint32Max ∨
        (canonicalPhysicalAddress finalAddress).toNat ≠ expectedFinal then true
    else
      (physicalPages canonical.toNat size).any fun page =>
        (t.activePhysicalPages page).any fun id =>
          (t.records id).any fun record =>
            record.active && decide (canonical.toNat <
                record.block.validationPhysicalStart.toNat + record.block.validationExtent.toNat) &&
              decide (record.block.validationPhysicalStart.toNat < expectedFinal + 1)

theorem PagesOk.erase_of_mayOverlap (hok : PagesOk t) {address : BitVec 32}
    (h : t.mayOverlapActivePhysical address size = false) :
    t.eraseOverlappingPhysical address size = (0, t) := by
  unfold mayOverlapActivePhysical at h
  unfold eraseOverlappingPhysical
  split
  · rfl
  rename_i hsize
  rw [if_neg hsize] at h
  split at h
  · cases h
  dsimp only at h
  split at h
  · cases h
  rename_i hfinal
  rw [not_or, not_lt] at hfinal
  have hextent : (canonicalPhysicalAddress address).toNat + size ≤ 2 ^ 32 := by
    have hbound : uint32Max = 2 ^ 32 - 1 := rfl
    omega
  have hwhole : writeExtent (canonicalPhysicalAddress address) size = size := by
    unfold writeExtent
    split <;> omega
  have hnone : t.reachedIds address size = [] := by
    refine List.eq_nil_iff_forall_not_mem.mpr fun id hid => ?_
    obtain ⟨record, hrecord, hreached⟩ := hok.mem_reachedIds.mp hid
    have hblock := hok.prepared id record hrecord
    obtain ⟨byte, ⟨hlow, hhigh⟩, hlow', hhigh'⟩ :=
      reachesBlock_byte hblock (writeExtent_le _ _) hreached
    rw [hwhole] at hhigh
    refine Bool.eq_false_iff.mp h (List.any_eq_true.mpr ⟨byte / physicalPageSize, ?_, ?_⟩)
    · exact page_of_byte hlow hhigh
    · have hlisted : id ∈ t.activePhysicalPages (byte / physicalPageSize) :=
        (hok.indexed.listed _ id).mpr ⟨record, hrecord, page_of_byte hlow' hhigh'⟩
      refine List.any_eq_true.mpr ⟨id, hlisted, ?_⟩
      rw [hrecord.1]
      simp only [Option.any_some, hrecord.2, Bool.true_and, Bool.and_eq_true, decide_eq_true_eq]
      omega
  rw [hnone]
  rfl

/-! ## The batch -/

section
variable {reached : RuntimeBlock → Bool} {s : BatchSweep}

/-- The record of the id was judged, if it is still active. -/
def Judged (reached : RuntimeBlock → Bool) (t : RuntimeBlockTable) (id : Nat) : Prop :=
  ∀ record, t.ActiveRecord id record → reached record.block = false

/-- What a batch has done to a table. -/
structure Swept (reached : RuntimeBlock → Bool) (t : RuntimeBlockTable) (s : BatchSweep) : Prop where
  ok : PagesOk s.table
  before : ∀ id record, s.table.ActiveRecord id record → t.ActiveRecord id record
  after : ∀ id record, t.ActiveRecord id record →
    s.table.ActiveRecord id record ∨ reached record.block = true
  visited : ∀ id ∈ s.visited, Judged reached s.table id

theorem Swept.start (hok : PagesOk t) : Swept reached t { table := t } :=
  ⟨hok, fun _ _ h => h, fun _ _ h => .inl h, fun _ h => (nomatch h)⟩

/-- A candidate is judged, and judgements last. -/
theorem Swept.candidate (h : Swept reached t s) (id : Nat) :
    Swept reached t (sweepCandidate reached s id) ∧
      Judged reached (sweepCandidate reached s id).table id ∧
      ∀ id', Judged reached s.table id' → Judged reached (sweepCandidate reached s id).table id' := by
  unfold sweepCandidate
  split
  · rename_i hnone
    refine ⟨h, fun record hrecord => ?_, fun _ hjudged => hjudged⟩
    rw [hrecord.1] at hnone
    cases hnone
  rename_i record hrecord
  have hsame : ∀ other, s.table.ActiveRecord id other → other = record := fun other hother =>
    Option.some.inj (hother.1.symm.trans hrecord)
  split
  · rename_i hskip
    refine ⟨h, fun other hother => ?_, fun _ hjudged => hjudged⟩
    rw [Bool.or_eq_true, Bool.not_eq_true', decide_eq_true_eq] at hskip
    rcases hskip with hinactive | hvisited
    · have hactive := hother.2
      rw [hsame other hother, hinactive] at hactive
      cases hactive
    · exact h.visited id hvisited other hother
  rename_i hfresh
  rw [Bool.or_eq_true, Bool.not_eq_true', not_or, Bool.not_eq_false] at hfresh
  have hactive : s.table.ActiveRecord id record := ⟨hrecord, hfresh.1⟩
  dsimp only
  split
  · rename_i hreached
    have hjudged : Judged reached (s.table.deactivate id) id := fun other hother =>
      absurd rfl (activeRecord_deactivate_iff.mp hother).1
    have hlasts : ∀ id', Judged reached s.table id' →
        Judged reached (s.table.deactivate id) id' := fun id' hold other hother =>
      hold other (activeRecord_deactivate_iff.mp hother).2
    refine ⟨⟨h.ok.deactivate id, ?_, ?_, ?_⟩, hjudged, hlasts⟩
    · exact fun id' other hother => h.before id' other (activeRecord_deactivate_iff.mp hother).2
    · intro id' other hother
      rcases h.after id' other hother with hkept | hgone
      · by_cases hid : id' = id
        · subst hid
          rw [hsame other hkept]
          exact .inr hreached
        · exact .inl (activeRecord_deactivate_iff.mpr ⟨hid, hkept⟩)
      · exact .inr hgone
    · exact List.forall_mem_cons.mpr
        ⟨hjudged, fun id' hid' => hlasts id' (h.visited id' hid')⟩
  · rename_i hclear
    have hjudged : Judged reached s.table id := by
      intro other hother
      rw [hsame other hother]
      exact Bool.eq_false_iff.mpr hclear
    exact ⟨⟨h.ok, h.before, h.after, List.forall_mem_cons.mpr ⟨hjudged, h.visited⟩⟩, hjudged,
      fun _ hold => hold⟩

theorem Swept.candidates (h : Swept reached t s) (ids : List Nat) :
    Swept reached t (ids.foldl (sweepCandidate reached) s) ∧
      (∀ id ∈ ids, Judged reached (ids.foldl (sweepCandidate reached) s).table id) ∧
      ∀ id, Judged reached s.table id →
        Judged reached (ids.foldl (sweepCandidate reached) s).table id := by
  induction ids generalizing s with
  | nil => exact ⟨h, fun _ hid => (nomatch hid), fun _ hjudged => hjudged⟩
  | cons id rest ih =>
    obtain ⟨hswept, hhere, hlasts⟩ := h.candidate id
    obtain ⟨hfinal, hrest, hlasts'⟩ := ih hswept
    exact ⟨hfinal, List.forall_mem_cons.mpr ⟨hlasts' id hhere, hrest⟩,
      fun id' hjudged => hlasts' id' (hlasts id' hjudged)⟩

/-- The blocks with bytes on the page are judged. -/
def PageJudged (reached : RuntimeBlock → Bool) (t : RuntimeBlockTable) (page : Nat) : Prop :=
  ∀ id record, t.ActiveRecord id record → page ∈ validationPages record.block →
    reached record.block = false

theorem Swept.page (h : Swept reached t s) (page : Nat) :
    let after := (s.table.activePhysicalPages page).foldl (sweepCandidate reached) s
    Swept reached t after ∧ PageJudged reached after.table page ∧
      ∀ page', PageJudged reached s.table page' → PageJudged reached after.table page' := by
  intro after
  obtain ⟨hswept, hjudged, -⟩ := h.candidates (s.table.activePhysicalPages page)
  have hback : ∀ id record, after.table.ActiveRecord id record → s.table.ActiveRecord id record := by
    intro id record hrecord
    have hshrinks : Shrinks s.table after.table := by
      have hpages := sweepPages_shrinks reached s [] [page]
      simpa [sweepPages] using hpages
    obtain ⟨old, hold, -⟩ := hshrinks.active id record hrecord
    have hinitial := hswept.before id record hrecord
    have hinitial' := h.before id old hold
    cases Option.some.inj (hinitial.1.symm.trans hinitial'.1)
    exact hold
  refine ⟨hswept, fun id record hrecord hpage => ?_, fun page' hold id record hrecord hpage => ?_⟩
  · have hlisted := (h.ok.indexed.listed page id).mpr ⟨record, hback id record hrecord, hpage⟩
    exact hjudged id hlisted record hrecord
  · exact hold id record (hback id record hrecord) hpage

theorem Swept.pages (h : Swept reached t s) (seen pages : List Nat)
    (hseen : ∀ page ∈ seen, PageJudged reached s.table page) :
    Swept reached t (sweepPages reached s seen pages) ∧ ∀ page, page ∈ seen ∨ page ∈ pages →
        PageJudged reached (sweepPages reached s seen pages).table page := by
  induction pages generalizing s seen with
  | nil => exact ⟨h, fun page hpage => hseen page (hpage.resolve_right List.not_mem_nil)⟩
  | cons page rest ih =>
    have hsplit : ∀ page', page' ∈ seen ∨ page' ∈ page :: rest ↔
        page' ∈ page :: seen ∨ page' ∈ rest := by
      intro page'
      simp only [List.mem_cons]
      tauto
    simp only [hsplit]
    unfold sweepPages
    dsimp only
    split
    · rename_i hmem
      exact ih h (page :: seen) (List.forall_mem_cons.mpr ⟨hseen page hmem, hseen⟩)
    · obtain ⟨hswept, hhere, hlasts⟩ := h.page page
      exact ih hswept (page :: seen)
        (List.forall_mem_cons.mpr ⟨hhere, fun page' hpage' => hlasts page' (hseen page' hpage')⟩)

/-- A batch leaves exactly the blocks that none of its stores reaches, where every
store lies on a page of the batch. -/
theorem PagesOk.activeRecord_sweep_iff (hok : PagesOk t) {pages : List Nat}
    (hpages : ∀ block, Prepared block → reached block = true →
      ∃ page ∈ pages, page ∈ validationPages block) :
    (sweepPages reached { table := t } [] pages).table.ActiveRecord id record ↔
      t.ActiveRecord id record ∧ reached record.block = false := by
  have hstart : Swept reached t { table := t } := Swept.start hok
  obtain ⟨hswept, hjudged⟩ := hstart.pages [] pages fun _ h => (nomatch h)
  constructor
  · intro hrecord
    have hinitial := hswept.before id record hrecord
    refine ⟨hinitial, ?_⟩
    rw [← Bool.not_eq_true]
    intro hreached
    obtain ⟨page, hpage, hvalidated⟩ :=
      hpages record.block (hok.prepared id record hinitial) hreached
    have hclear := hjudged page (.inr hpage) id record hrecord hvalidated
    rw [hreached] at hclear
    cases hclear
  · rintro ⟨hrecord, hclear⟩
    rcases hswept.after id record hrecord with hkept | hgone
    · exact hkept
    · rw [hclear] at hgone
      cases hgone

end

/-! ## The restarted iteration -/

section

/-- One page of `erase_overlapping_physical_batch`, with the number of blocks that
were deactivated. The epoch mark of a record is its place in `visited`; behind a
deactivation the list of the page is looked up again and the iteration starts over. -/
def iteratePage (reached : RuntimeBlock → Bool) (page : Nat) :
    Nat → BatchSweep × Nat → List Nat → Option (BatchSweep × Nat)
  | 0, _, _ => none
  | _ + 1, s, [] => some s
  | fuel + 1, (s, invalidated), id :: rest =>
    match s.table.records id with
    | none => iteratePage reached page fuel (s, invalidated) rest
    | some record =>
      if !record.active || decide (id ∈ s.visited) then
        iteratePage reached page fuel (s, invalidated) rest
      else if !reached record.block then
        iteratePage reached page fuel ({ s with visited := id :: s.visited }, invalidated) rest
      else
        let table := s.table.deactivate id
        iteratePage reached page fuel ({ table := table, visited := id :: s.visited },
          invalidated + 1) (table.activePhysicalPages page)

/-- The loop over the changed stores. -/
def iteratePages (reached : RuntimeBlock → Bool) (fuel : Nat) :
    BatchSweep × Nat → List Nat → List Nat → Option (BatchSweep × Nat)
  | s, _, [] => some s
  | s, seen, page :: rest =>
    if page ∈ seen then iteratePages reached fuel s (page :: seen) rest
    else
      (iteratePage reached page fuel s (s.1.table.activePhysicalPages page)).bind fun s =>
        iteratePages reached fuel s (page :: seen) rest

/-- `erase_overlapping_physical_batch` as it iterates; `none` where the source
terminates the program or the steps run out. -/
def eraseOverlappingPhysicalBatchWithin (t : RuntimeBlockTable) (fuel : Nat)
    (events : List ExecutableCodeTracker.GuestWriteEvent) : Option (Nat × RuntimeBlockTable) :=
  if events.length > ExecutableCodeTracker.directLinearWriteBatchCapacity then none
  else
    (ExecutableCodeTracker.changedRanges events).bind fun ranges =>
      let reached (block : RuntimeBlock) : Bool :=
        ranges.any fun range => reachesBlock range.1 range.2.1 block
      (iteratePages reached fuel ({ table := t }, 0) []
        (ranges.map (·.2.2 / physicalPageSize))).map fun s => (s.2, s.1.table)

variable {reached : RuntimeBlock → Bool}

theorem deactivate_activePhysicalPages {page : Nat}
    (hrecord : t.ActiveRecord id record) (hpage : page ∈ validationPages record.block) :
    (t.deactivate id).activePhysicalPages page = (t.activePhysicalPages page).filter (· ≠ id) := by
  unfold RuntimeBlockTable.deactivate
  rw [hrecord.1]
  dsimp only
  rw [if_pos hrecord.2, retire_activePhysicalPages]
  exact if_pos hpage

variable {s : BatchSweep}

theorem foldl_visited (h : ∀ id ∈ ids, id ∈ s.visited) :
    ids.foldl (sweepCandidate reached) s = s := by
  induction ids with
  | nil => rfl
  | cons id rest ih =>
    obtain ⟨hid, hrest⟩ := List.forall_mem_cons.mp h
    have hstays : sweepCandidate reached s id = s := by
      unfold sweepCandidate
      split
      · rfl
      · rw [if_pos (by simp [hid])]
    rw [List.foldl_cons, hstays, ih hrest]

/-- The iteration ends, with the outcome of one pass over the list it began with: what
it meets a second time is marked, and every restart finds the list shorter. -/
theorem iteratePage_eq {page steps : Nat} {front cursor : List Nat}
    (hp : PagesIndexed s.table) (hlist : s.table.activePhysicalPages page = front ++ cursor)
    (hfront : ∀ id ∈ front, id ∈ s.visited) (invalidated : Nat) (hsteps : cursor.length + 1 +
      (front ++ cursor).length * ((front ++ cursor).length + 1) ≤ steps) :
    ∃ count, ∀ fuel, steps ≤ fuel → iteratePage reached page fuel (s, invalidated) cursor =
        some (cursor.foldl (sweepCandidate reached) s, count) := by
  induction steps generalizing s front cursor invalidated with
  | zero => omega
  | succ steps ih =>
    cases cursor with
    | nil =>
      refine ⟨invalidated, fun fuel hfuel => ?_⟩
      obtain ⟨more, rfl⟩ : ∃ more, fuel = more + 1 := ⟨fuel - 1, by omega⟩
      rfl
    | cons id rest =>
      have hlisted : id ∈ s.table.activePhysicalPages page := by
        rw [hlist]
        exact List.mem_append_right _ List.mem_cons_self
      obtain ⟨record, hrecord, hpage⟩ := (hp.listed page id).mp hlisted
      have hshift : front ++ id :: rest = (front ++ [id]) ++ rest := by simp
      rw [List.length_cons] at hsteps
      have hstep : ∀ {next : BatchSweep}, next.table = s.table →
          (∀ other ∈ front ++ [id], other ∈ next.visited) →
          (∀ fuel, iteratePage reached page (fuel + 1) (s, invalidated) (id :: rest) =
            iteratePage reached page fuel (next, invalidated) rest) →
          sweepCandidate reached s id = next → ∃ count, ∀ fuel, steps + 1 ≤ fuel →
            iteratePage reached page fuel (s, invalidated) (id :: rest) =
              some ((id :: rest).foldl (sweepCandidate reached) s, count) := by
        intro next htable hvisited hnext hcandidate
        have hlist' : next.table.activePhysicalPages page = (front ++ [id]) ++ rest := by
          rw [htable, hlist, hshift]
        obtain ⟨count, hcount⟩ := ih (s := next) (htable ▸ hp) hlist' hvisited invalidated (by
          rw [← hshift]
          omega)
        refine ⟨count, fun fuel hfuel => ?_⟩
        obtain ⟨more, rfl⟩ : ∃ more, fuel = more + 1 := ⟨fuel - 1, by omega⟩
        rw [hnext, hcount more (by omega), List.foldl_cons, hcandidate]
      by_cases hvisited : id ∈ s.visited
      · refine hstep rfl ?_ (fun fuel => ?_) ?_
        · intro other hother
          rcases List.mem_append.mp hother with hold | hnew
          · exact hfront other hold
          · rw [List.mem_singleton.mp hnew]
            exact hvisited
        · simp [iteratePage, hrecord.1, hvisited]
        · simp [sweepCandidate, hrecord.1, hvisited]
      have hmarked : ∀ other ∈ front ++ [id], other ∈ id :: s.visited := by
        intro other hother
        rcases List.mem_append.mp hother with hold | hnew
        · exact List.mem_cons_of_mem _ (hfront other hold)
        · rw [List.mem_singleton.mp hnew]
          exact List.mem_cons_self
      cases hreached : reached record.block with
      | false =>
        refine @hstep { s with visited := id :: s.visited } rfl hmarked
          (fun fuel => ?_) ?_
        · simp [iteratePage, hrecord.1, hrecord.2, hvisited, hreached]
        · simp [sweepCandidate, hrecord.1, hrecord.2, hvisited, hreached]
      | true =>
        have hnodup : (front ++ id :: rest).Nodup := hlist ▸ hp.nodup page
        have hapart : id ∉ front ++ rest := by
          have hmiddle := List.nodup_middle.mp hnodup
          exact (List.nodup_cons.mp hmiddle).1
        have hshorter : (s.table.deactivate id).activePhysicalPages page = [] ++ (front ++ rest) := by
          rw [deactivate_activePhysicalPages hrecord hpage, hlist, List.nil_append,
            List.filter_append, List.filter_cons_of_neg (by simp), ← List.filter_append]
          refine List.filter_eq_self.mpr fun other hother => ?_
          rw [decide_eq_true_eq]
          rintro rfl
          exact hapart hother
        have hlength : (front ++ id :: rest).length = (front ++ rest).length + 1 := by
          rw [List.length_append, List.length_append, List.length_cons]
          omega
        obtain ⟨count, hcount⟩ := ih
          (s := { table := s.table.deactivate id, visited := id :: s.visited })
          (hp.deactivate id) hshorter (fun _ h => absurd h List.not_mem_nil) (invalidated + 1) (by
            rw [hlength] at hsteps
            rw [List.nil_append]
            nlinarith)
        refine ⟨count, fun fuel hfuel => ?_⟩
        obtain ⟨more, rfl⟩ : ∃ more, fuel = more + 1 := ⟨fuel - 1, by omega⟩
        have hcandidate : sweepCandidate reached s id =
            { table := s.table.deactivate id, visited := id :: s.visited } := by
          simp [sweepCandidate, hrecord.1, hrecord.2, hvisited, hreached]
        have hskipped : front.foldl (sweepCandidate reached)
            { table := s.table.deactivate id, visited := id :: s.visited } =
              { table := s.table.deactivate id, visited := id :: s.visited } :=
          foldl_visited fun other hother => List.mem_cons_of_mem _ (hfront other hother)
        have hagain := hcount more (by omega)
        rw [List.foldl_append, hskipped] at hagain
        rw [List.foldl_cons, hcandidate, ← hagain, ← List.nil_append (front ++ rest), ← hshorter]
        simp [iteratePage, hrecord.1, hrecord.2, hvisited, hreached]

theorem PagesIndexed.candidates (hp : PagesIndexed s.table) (ids : List Nat) :
    PagesIndexed (ids.foldl (sweepCandidate reached) s).table := by
  induction ids generalizing s with
  | nil => exact hp
  | cons id rest ih =>
    refine ih ?_
    unfold sweepCandidate
    split
    · exact hp
    split
    · exact hp
    · dsimp only
      split
      · exact hp.deactivate id
      · exact hp

theorem iteratePages_eq {s : BatchSweep} (hp : PagesIndexed s.table) (invalidated : Nat)
    (seen pages : List Nat) : ∃ bound count, ∀ fuel, bound ≤ fuel →
      iteratePages reached fuel (s, invalidated) seen pages =
        some (sweepPages reached s seen pages, count) := by
  induction pages generalizing s invalidated seen with
  | nil => exact ⟨0, invalidated, fun _ _ => rfl⟩
  | cons page rest ih =>
    by_cases hseen : page ∈ seen
    · obtain ⟨bound, count, hcount⟩ := ih hp invalidated (page :: seen)
      refine ⟨bound, count, fun fuel hfuel => ?_⟩
      rw [iteratePages, sweepPages, if_pos hseen, if_pos hseen]
      exact hcount fuel hfuel
    · obtain ⟨steps, here, hhere⟩ : ∃ steps count, ∀ fuel, steps ≤ fuel →
          iteratePage reached page fuel (s, invalidated) (s.table.activePhysicalPages page) =
            some ((s.table.activePhysicalPages page).foldl (sweepCandidate reached) s, count) :=
        ⟨_, iteratePage_eq hp (List.nil_append _).symm (fun _ h => absurd h List.not_mem_nil)
          invalidated le_rfl⟩
      have hnext : PagesIndexed ((s.table.activePhysicalPages page).foldl
          (sweepCandidate reached) s).table := hp.candidates (s.table.activePhysicalPages page)
      obtain ⟨bound, count, hcount⟩ := ih hnext here (page :: seen)
      refine ⟨max bound steps, count, fun fuel hfuel => ?_⟩
      rw [iteratePages, sweepPages, if_neg hseen, if_neg hseen,
        hhere fuel ((le_max_right _ _).trans hfuel), Option.bind_some]
      exact hcount fuel ((le_max_left _ _).trans hfuel)

/-- With enough steps the iteration is the pass of the batch. -/
theorem eraseOverlappingPhysicalBatchWithin_eq (hp : PagesIndexed t)
    (events : List ExecutableCodeTracker.GuestWriteEvent) :
    ∃ bound invalidated, ∀ fuel, bound ≤ fuel → t.eraseOverlappingPhysicalBatchWithin fuel events =
        (t.eraseOverlappingPhysicalBatch events).map fun table => (invalidated, table) := by
  unfold eraseOverlappingPhysicalBatchWithin eraseOverlappingPhysicalBatch
  split
  · exact ⟨0, 0, fun _ _ => rfl⟩
  cases ExecutableCodeTracker.changedRanges events with
  | none => exact ⟨0, 0, fun _ _ => rfl⟩
  | some ranges =>
    obtain ⟨bound, count, hcount⟩ := @iteratePages_eq
      (fun block => ranges.any fun range => reachesBlock range.1 range.2.1 block) { table := t }
      hp 0 [] (ranges.map (·.2.2 / physicalPageSize))
    refine ⟨bound, count, fun fuel hfuel => ?_⟩
    rw [Option.bind_some]
    dsimp only
    rw [hcount fuel hfuel]
    rfl

end

/-! ## The stores of a batch -/

section
open ExecutableCodeTracker

/-- The range that an admitted store writes. -/
def storeRange (event : GuestWriteEvent) : BitVec 32 × Nat × Nat :=
  (canonicalPhysicalAddress event.address, event.size,
    pageOf (canonicalPhysicalAddress event.address).toNat)

variable {event : GuestWriteEvent}

/-- An admitted store stays in the address space and on one page. -/
theorem directWriteBatchRange_admits
    (h : (directWriteBatchRange event).isSome = true) : directWriteBatchRange event =
        some (canonicalPhysicalAddress event.address,
          pageOf (canonicalPhysicalAddress event.address).toNat) ∧
      0 < event.size ∧ (canonicalPhysicalAddress event.address).toNat + event.size ≤ 2 ^ 32 ∧
      ((canonicalPhysicalAddress event.address).toNat + event.size - 1) / physicalPageSize =
        (canonicalPhysicalAddress event.address).toNat / physicalPageSize := by
  unfold directWriteBatchRange at h ⊢
  split at h
  · cases h
  rename_i hsize
  rw [if_neg hsize]
  dsimp only at h ⊢
  split at h
  · cases h
  rename_i hend
  rw [if_neg hend]
  split at h
  · rename_i hpage
    rw [if_pos hpage]
    refine ⟨rfl, by omega, by omega, ?_⟩
    unfold pageOf at hpage
    exact Nat.eq_of_mul_eq_mul_right (by decide) hpage
  · cases h

variable {events : List GuestWriteEvent}

theorem changedRanges_of_admitted (h : ∀ event ∈ events, event.bytesChanged = true →
      (directWriteBatchRange event).isSome = true) :
    changedRanges events = some ((events.filter (·.bytesChanged)).map storeRange) := by
  unfold changedRanges
  have hchanged : ∀ event ∈ events.filter (·.bytesChanged),
      (directWriteBatchRange event).isSome = true := by
    intro event hevent
    obtain ⟨hmem, hbytes⟩ := List.mem_filter.mp hevent
    exact h event hmem hbytes
  generalize events.filter (·.bytesChanged) = changed at hchanged
  induction changed with
  | nil => rfl
  | cons event rest ih =>
    obtain ⟨hevent, hrest⟩ := List.forall_mem_cons.mp hchanged
    rw [List.mapM_cons, ih hrest, (directWriteBatchRange_admits hevent).1]
    rfl

theorem writeExtent_of_admitted (h : (directWriteBatchRange event).isSome = true) :
    writeExtent (canonicalPhysicalAddress event.address) event.size = event.size := by
  obtain ⟨-, -, hspace, -⟩ := directWriteBatchRange_admits h
  unfold writeExtent
  split <;> omega

/-- The batch leaves what the scalar erasures of its changed stores leave. -/
theorem PagesOk.batch_eq_scalar (hok : PagesOk t)
    (hcapacity : events.length ≤ directLinearWriteBatchCapacity)
    (hadmitted : ∀ event ∈ events, event.bytesChanged = true →
      (directWriteBatchRange event).isSome = true) :
    ∃ table, t.eraseOverlappingPhysicalBatch events = some table ∧
      ∀ id record, table.ActiveRecord id record ↔ (t.eraseChanged events).ActiveRecord id record := by
  unfold eraseOverlappingPhysicalBatch
  rw [if_neg (by omega), changedRanges_of_admitted hadmitted]
  refine ⟨_, rfl, fun id record => ?_⟩
  have hchanged : ∀ event ∈ events.filter (·.bytesChanged),
      (directWriteBatchRange event).isSome = true := by
    intro event hevent
    obtain ⟨hmem, hbytes⟩ := List.mem_filter.mp hevent
    exact hadmitted event hmem hbytes
  unfold eraseChanged
  rw [hok.activeRecord_foldl_erase_iff fun event hevent =>
    (directWriteBatchRange_admits (hchanged event hevent)).2.1.ne']
  generalize events.filter (·.bytesChanged) = changed at hchanged ⊢
  rw [hok.activeRecord_sweep_iff]
  · refine and_congr_right fun _ => ?_
    rw [List.any_map, List.any_eq_false]
    refine forall_congr' fun event => forall_congr' fun hevent => ?_
    rw [writeExtent_of_admitted (hchanged event hevent), Bool.not_eq_true]
    rfl
  · -- a store lies on the one page that the batch looks at for it
    intro block hblock hreached
    obtain ⟨range, hrange, hreaches⟩ := List.any_eq_true.mp hreached
    obtain ⟨event, hevent, rfl⟩ := List.mem_map.mp hrange
    obtain ⟨-, -, hspace, hpage⟩ := directWriteBatchRange_admits (hchanged event hevent)
    obtain ⟨page, hmem, hvalidated⟩ := reachesBlock_page hblock hspace hreaches
    refine ⟨page, List.mem_map.mpr ⟨_, List.mem_map_of_mem hevent, ?_⟩, hvalidated⟩
    have hwhole : pageOf (canonicalPhysicalAddress event.address).toNat / physicalPageSize =
        (canonicalPhysicalAddress event.address).toNat / physicalPageSize :=
      Nat.mul_div_cancel _ (by decide)
    have honly : page = (canonicalPhysicalAddress event.address).toNat / physicalPageSize := by
      rcases mem_physicalPages_iff.mp hmem with ⟨hlow, hhigh⟩ | heq
      · change page ≤ ((canonicalPhysicalAddress event.address).toNat + event.size - 1) /
          physicalPageSize at hhigh
        rw [hpage] at hhigh
        exact le_antisymm hhigh hlow
      · exact heq
    rw [honly]
    exact hwhole

end
end KatanaRecomp.Runtime.RuntimeBlockTable

namespace KatanaRecomp.Runtime.BlockDispatch
open RuntimeBlockTable ExecutableCodeTracker

theorem pagesOk_run {trackers : Nat → ExecutableCodeTracker} {lifetime : Nat}
    {mode : RuntimeBlockLookupMode} {operations : List Operation} {s : BlockDispatch}
    (hrun : (start trackers lifetime mode).run operations = some s) : PagesOk s.table := by
  have hready := ready_start trackers lifetime mode
  have hranges : RangesOk (start trackers lifetime mode).table := .of_inactive fun _ => rfl
  have hpages : PagesIndexed (start trackers lifetime mode).table :=
    .of_inactive (fun _ => rfl) fun _ => rfl
  refine ⟨?_, (rangesOk_run hready hranges hrun).2.prepared⟩
  refine (@run_induction False (fun s => PagesIndexed s.table) _ _ hready operations
    (fun h => h.elim) hrun hpages ?_).2
  intro s s' operation hs hstep hp
  cases hstep with
  | table table hchanges => exact (hp.changes hs.indexed hchanges).1
  | clear => exact .of_inactive (fun _ => rfl) fun _ => rfl
  | tracker => exact hp
  | allocate => exact hp

section
variable {trackers : Nat → ExecutableCodeTracker} {lifetime : Nat} {mode : RuntimeBlockLookupMode}
  {operations : List Operation} {s : BlockDispatch}

/-- After any run: the iteration of a batch ends, with the blocks active that the scalar
erasures of its changed stores leave active; a disc load in two phases is the scalar
erasure; and where the page filter sees nothing, there is nothing to erase. -/
theorem invalidation_paths_agree (hrun : (start trackers lifetime mode).run operations = some s) :
    (∀ events : List GuestWriteEvent, events.length ≤ directLinearWriteBatchCapacity →
      (∀ event ∈ events, event.bytesChanged = true → (directWriteBatchRange event).isSome = true) →
      ∃ bound invalidated table, (∀ fuel, bound ≤ fuel →
          s.table.eraseOverlappingPhysicalBatchWithin fuel events = some (invalidated, table)) ∧
        ∀ id record,
          table.ActiveRecord id record ↔ (s.table.eraseChanged events).ActiveRecord id record) ∧
    (∀ physicalAddress size, s.table.commitDiscLoadInvalidation
          (s.table.prepareDiscLoadInvalidation physicalAddress size) =
        (s.table.eraseOverlappingPhysical physicalAddress size).2) ∧
    ∀ address size, s.table.mayOverlapActivePhysical address size = false →
      s.table.eraseOverlappingPhysical address size = (0, s.table) := by
  have hok := pagesOk_run hrun
  refine ⟨fun events hcapacity hadmitted => ?_, hok.commit_prepare,
    fun address size h => hok.erase_of_mayOverlap h⟩
  obtain ⟨bound, invalidated, hbound⟩ := eraseOverlappingPhysicalBatchWithin_eq hok.indexed events
  obtain ⟨table, htable, hactive⟩ := hok.batch_eq_scalar hcapacity hadmitted
  refine ⟨bound, invalidated, table, fun fuel hfuel => ?_, hactive⟩
  rw [hbound fuel hfuel, htable]
  rfl

/-- A store into the loaded block, and a page without a block. -/
theorem invalidation_paths_agree_sample :
    ∃ s, (start emptyTrackers 1 .direct).run [.registerStatic loadedBlock] = some s ∧
      (∃ bound invalidated table, ∀ fuel, bound ≤ fuel →
        s.table.eraseOverlappingPhysicalBatchWithin fuel [⟨0x8C010000, 4, .cpu, true⟩] =
          some (invalidated, table)) ∧
      s.table.eraseOverlappingPhysical 0x0C020000 4 = (0, s.table) := by
  have hrun : (start emptyTrackers 1 .direct).run [.registerStatic loadedBlock] =
      some ((start emptyTrackers 1 .direct).withTable
        (({ dispatchLifetime := 1 } : RuntimeBlockTable).registerStatic loadedBlock).2) := rfl
  obtain ⟨hbatch, -, hfilter⟩ := invalidation_paths_agree hrun
  obtain ⟨bound, invalidated, table, hwithin, -⟩ :=
    hbatch [⟨0x8C010000, 4, .cpu, true⟩] (by decide) (by decide)
  exact ⟨_, hrun, ⟨bound, invalidated, table, hwithin⟩, hfilter 0x0C020000 4 rfl⟩

end
end KatanaRecomp.Runtime.BlockDispatch
