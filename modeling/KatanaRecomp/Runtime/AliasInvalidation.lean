import KatanaRecomp.Lib.StateExcept
import KatanaRecomp.Runtime.CodeTrackerLaws
import KatanaRecomp.Runtime.MainRam
import KatanaRecomp.Runtime.PhysicalAddress

/-! # Stores through mirrors reach the compiled code

Every store that changes a byte of main memory is reported once, as changed, at
an address of that byte. The report alone names one of the four mirrors, and
code is kept under one of them: a store through another mirror leaves it valid.
The observer of the boot runtime folds the report onto the first mirror, where
it reaches every block that lies there. -/
namespace KatanaRecomp.Runtime.MainRam
open Lib ExecutableCodeTracker RuntimeBlockTable

/-! ## Addresses -/

/-- Where a region of main memory can lie. -/
structure MainRamBase (base : Nat) : Prop where
  aligned : base % 2 ^ 24 = 0
  area : area3Begin ≤ base % 2 ^ 29
  below : base % 2 ^ 29 + 2 ^ 24 ≤ area3End
  notOnChip : base + 2 ^ 24 ≤ 0x7C000000 ∨ 2 ^ 31 ≤ base
  notControl : base + 2 ^ 24 ≤ 0xE0000000

variable {mapped : MappedRegion}

theorem mainRamRegion (h : mapped ∈ mainRamRegions) :
    MainRamBase mapped.baseAddress.toNat ∧ mapped.size = 2 ^ 24 ∧ mapped.device = mainRam ∧
      mapped.readWrite = true ∧ mapped.linear = true := by
  have hall : ∀ mapped ∈ mainRamRegions, (mapped.baseAddress.toNat % 2 ^ 24 = 0 ∧
      area3Begin ≤ mapped.baseAddress.toNat % 2 ^ 29 ∧
      mapped.baseAddress.toNat % 2 ^ 29 + 2 ^ 24 ≤ area3End ∧
      (mapped.baseAddress.toNat + 2 ^ 24 ≤ 0x7C000000 ∨ 2 ^ 31 ≤ mapped.baseAddress.toNat) ∧
      mapped.baseAddress.toNat + 2 ^ 24 ≤ 0xE0000000) ∧ mapped.size = 2 ^ 24 ∧
      mapped.device = mainRam ∧ mapped.readWrite = true ∧ mapped.linear = true := by decide
  obtain ⟨⟨haligned, harea, hbelow, honChip, hcontrol⟩, hrest⟩ := hall mapped h
  exact ⟨⟨haligned, harea, hbelow, honChip, hcontrol⟩, hrest⟩

/-- Below the control area and outside the on-chip memory, the address without its segment. -/
theorem toNat_canonicalPhysicalAddress {address : BitVec 32}
    (honChip : address.toNat < 0x7C000000 ∨ 2 ^ 31 ≤ address.toNat)
    (hcontrol : address.toNat < 0xE0000000) :
    (canonicalPhysicalAddress address).toNat = address.toNat % 2 ^ 29 := by
  rw [toNat_canonicalPhysicalAddress_eq, if_neg (by omega)]

/-- The bytes of a reported store lie in main memory behind one another. -/
structure InMainRam (address : BitVec 32) (size : Nat) : Prop where
  low : area3Begin ≤ (canonicalPhysicalAddress address).toNat
  high : (canonicalPhysicalAddress address).toNat + size ≤ area3End
  physical : (canonicalPhysicalAddress address).toNat = address.toNat % 2 ^ 29

variable {address : BitVec 32}

/-- A range that one region covers. -/
theorem inMainRam_of_covers (hmem : mapped ∈ mainRamRegions) {width : Nat} (hwidth : 0 < width)
    (hcovers : mapped.covers address width = true) :
    InMainRam address width ∧ mapped.device = mainRam ∧
      mapped.offset address = (canonicalPhysicalAddress address).toNat % 2 ^ 24 ∧
      mapped.offset address + width ≤ 2 ^ 24 := by
  obtain ⟨⟨haligned, harea, hbelow, honChip, hcontrol⟩, hsize, hdevice, -, -⟩ := mainRamRegion hmem
  simp only [MappedRegion.covers, MappedRegion.regionEnd, hsize, Bool.and_eq_true,
    decide_eq_true_eq] at hcovers
  have hcanonical := @toNat_canonicalPhysicalAddress address (by omega) (by omega)
  unfold MappedRegion.offset
  refine ⟨⟨?_, ?_, hcanonical⟩, hdevice, ?_, ?_⟩
  · omega
  · omega
  · omega
  · omega

/-! ## Stores -/

variable {memory : Memory}

theorem resolveWritable_ok (hregions : memory.regions = mainRamRegions) {width : Nat}
    (h : memory.resolveWritable address width = .ok mapped) :
    mapped ∈ memory.regions ∧ mapped ∈ mainRamRegions ∧ mapped.covers address width = true ∧
      address.toNat + width ≤ 2 ^ 32 := by
  unfold Memory.resolveWritable at h
  split at h
  · cases h
  rename_i hspace
  split at h
  · rename_i found hfound
    obtain ⟨hmem, hcovers⟩ := Memory.regionAt_spec hfound
    split at h
    · cases h
    split at h
    · cases h
    · cases h
      exact ⟨hmem, hregions ▸ hmem, hcovers, by omega⟩
  · split at h
    · cases h
    · cases h

variable {offset : Nat} {bytes : List (BitVec 8)}

/-- A byte that a store changes is one of its bytes, and differs from the one it finds. -/
theorem store_changed {device : Nat} {at_ : Nat}
    (h : (memory.store device offset bytes).storage mainRam at_ ≠ memory.storage mainRam at_) :
    device = mainRam ∧ offset ≤ at_ ∧ at_ < offset + bytes.length ∧
      memory.bytesAt device offset bytes.length ≠ bytes := by
  unfold Memory.store at h
  dsimp only at h
  split at h
  · rename_i hhere
    obtain ⟨rfl, hle⟩ := hhere
    cases hbyte : bytes[at_ - offset]? with
    | none =>
      rw [hbyte] at h
      exact absurd rfl h
    | some byte =>
      rw [hbyte, Option.getD_some] at h
      have hlt : at_ - offset < bytes.length := (List.getElem?_eq_some_iff.mp hbyte).1
      refine ⟨rfl, hle, by omega, ?_⟩
      intro hsame
      rw [← hsame] at hbyte
      unfold Memory.bytesAt at hbyte
      rw [List.getElem?_map, List.getElem?_range hlt, Option.map_some,
        show offset + (at_ - offset) = at_ by omega] at hbyte
      exact h (Option.some.inj hbyte).symm
  · exact absurd rfl h

/-- What is reported of a store that changes the byte at `offset` of main memory. -/
structure Reports (event : GuestWriteEvent) (offset : Nat) : Prop where
  changed : event.bytesChanged = true
  inMainRam : InMainRam event.address event.size
  byte : ∃ index < event.size,
    ((canonicalPhysicalAddress event.address).toNat + index) % 2 ^ 24 = offset

theorem commitBytes_changed {index : Nat}
    (h : (Memory.commitBytes address index memory bytes).storage mainRam offset ≠
      memory.storage mainRam offset) : ∃ i byte, bytes[i]? = some byte ∧
      memory.cell (address + BitVec.ofNat 32 (index + i)) = some (mainRam, offset) ∧
      memory.storage mainRam offset ≠ byte := by
  induction bytes generalizing memory index with
  | nil => exact absurd rfl h
  | cons byte rest ih =>
    unfold Memory.commitBytes at h
    -- A later byte may go to the same place, so the step's own change comes first.
    split at h
    · rename_i device at_ hcell
      by_cases hstep : (memory.store device at_ [byte]).storage mainRam offset =
          memory.storage mainRam offset
      · rw [← hstep] at h
        obtain ⟨i, byte', hbyte, hcell', hne⟩ := ih h
        refine ⟨i + 1, byte', hbyte, ?_, by rw [hstep] at hne; exact hne⟩
        rw [← hcell', show index + 1 + i = index + (i + 1) by omega]
        rfl
      · obtain ⟨rfl, hle, hlt, hne⟩ := store_changed hstep
        obtain rfl : at_ = offset := by
          rw [List.length_singleton] at hlt
          omega
        refine ⟨0, byte, rfl, hcell, ?_⟩
        intro hsame
        exact hne (by simp [Memory.bytesAt, hsame])
    · obtain ⟨i, byte', hbyte, hcell', hne⟩ := ih h
      exact ⟨i + 1, byte', hbyte, by rw [← hcell', show index + 1 + i = index + (i + 1) by omega],
        hne⟩

variable {size : Nat}

/-- Bytes in a row that each lie in main memory lie there behind one another. -/
theorem inMainRam_of_bytes (hspace : size ≤ 2 ^ 32 - address.toNat)
    (hbytes : ∀ index < size, InMainRam (address + BitVec.ofNat 32 index) 1) :
    ∀ count, 0 < count → count ≤ size → InMainRam address count ∧
      ∀ index < count, (canonicalPhysicalAddress (address + BitVec.ofNat 32 index)).toNat =
        (canonicalPhysicalAddress address).toNat + index := by
  have hsum : ∀ index < size, (address + BitVec.ofNat 32 index).toNat = address.toNat + index := by
    intro index hindex
    have hlt := address.isLt
    rw [BitVec.toNat_add, BitVec.toNat_ofNat, Nat.mod_eq_of_lt (by omega : index < 2 ^ 32),
      Nat.mod_eq_of_lt (by omega)]
  have hend : area3End = 2 ^ 28 := rfl
  intro count hpos hcount
  induction count with
  | zero => exact absurd hpos (lt_irrefl 0)
  | succ count ih =>
    obtain ⟨hlow, hhigh, hphysical⟩ := hbytes count (by omega)
    rw [hsum count (by omega)] at hphysical
    cases count with
    | zero =>
      have hzero : address + BitVec.ofNat 32 0 = address := by simp
      rw [hzero] at hlow hhigh hphysical
      refine ⟨⟨hlow, hhigh, hphysical⟩, ?_⟩
      intro index hindex
      obtain rfl : index = 0 := by omega
      rw [hzero, Nat.add_zero]
    | succ count =>
      obtain ⟨⟨hlow', hhigh', hphysical'⟩, hrow⟩ := ih (by omega) (by omega)
      have hnext : (canonicalPhysicalAddress (address + BitVec.ofNat 32 (count + 1))).toNat =
          (canonicalPhysicalAddress address).toNat + (count + 1) := by
        rw [hphysical, hphysical']
        rw [hphysical'] at hhigh'
        omega
      refine ⟨⟨hlow', by omega, hphysical'⟩, ?_⟩
      intro index hindex
      by_cases hlast : index = count + 1
      · rw [hlast]
        exact hnext
      · exact hrow index (by omega)

section
variable (hregions : memory.regions = mainRamRegions)
include hregions

theorem cell_of_resolveWritable (h : memory.resolveWritable address 1 = .ok mapped) :
    InMainRam address 1 ∧ memory.cell address =
      some (mainRam, (canonicalPhysicalAddress address).toNat % 2 ^ 24) := by
  obtain ⟨hmem, hmain, hcovers, hspace⟩ := resolveWritable_ok hregions h
  obtain ⟨hin, hdevice, hoffset, -⟩ := inMainRam_of_covers hmain Nat.one_pos hcovers
  have hlinear := (mainRamRegion hmain).2.2.2.2
  have hcell := Memory.cell_byte hmem hcovers hlinear Nat.one_pos hspace
  rw [hdevice, hoffset] at hcell
  refine ⟨hin, ?_⟩
  rw [← show address + BitVec.ofNat 32 0 = address by simp]
  simpa using hcell

/-- Every store that changes a byte of main memory reports it. -/
theorem perform_reports {memory' : Memory}
    {store : GuestStore} {source : CodeWriteSource} {events : List GuestWriteEvent}
    (h : store.perform memory source = .ok (memory', events))
    (hchanged : memory'.storage mainRam offset ≠ memory.storage mainRam offset) :
    ∃ event, events = [event] ∧ Reports event offset := by
  cases store with
  | scalar address bytes =>
    obtain ⟨mapped, hmapped, h⟩ := bind_eq_ok h
    cases h
    obtain ⟨-, hmain, hcovers, -⟩ := resolveWritable_ok hregions hmapped
    obtain ⟨-, hle, hlt, hne⟩ := store_changed hchanged
    obtain ⟨hin, hdevice, hoffset, -⟩ := inMainRam_of_covers hmain (by omega) hcovers
    refine ⟨_, rfl, decide_eq_true hne, hin, offset - mapped.offset address, ?_, ?_⟩
    · dsimp only
      omega
    · dsimp only
      have hfit := (inMainRam_of_covers hmain (by omega) hcovers).2.2.2
      omega
  | range address bytes =>
    simp only [GuestStore.perform, Memory.writeBytes] at h
    split at h
    · cases h
      exact absurd rfl hchanged
    split at h
    · cases h
    rename_i hspace
    obtain ⟨resolved, hresolved, h⟩ := bind_eq_ok h
    cases h
    have heach : ∀ index < bytes.length, ∃ mapped,
        memory.resolveWritable (address + BitVec.ofNat 32 index) 1 = .ok mapped := by
      intro index hindex
      have hall := (List.forall₂_iff_get.mp (mapM_eq_ok hresolved)).2 index (by simpa using hindex)
      have hlength := (List.forall₂_iff_get.mp (mapM_eq_ok hresolved)).1
      have hall' := hall (by rw [← hlength]; simpa using hindex)
      simp only [List.get_eq_getElem, List.getElem_range] at hall'
      exact ⟨_, hall'⟩
    have hcells : ∀ index < bytes.length, InMainRam (address + BitVec.ofNat 32 index) 1 ∧
        memory.cell (address + BitVec.ofNat 32 index) = some (mainRam,
          (canonicalPhysicalAddress (address + BitVec.ofNat 32 index)).toNat % 2 ^ 24) := by
      intro index hindex
      obtain ⟨mapped, hmapped⟩ := heach index hindex
      exact cell_of_resolveWritable hregions hmapped
    obtain ⟨i, byte, hbyte, hcell, hne⟩ := commitBytes_changed hchanged
    rw [Nat.zero_add] at hcell
    have hi : i < bytes.length := (List.getElem?_eq_some_iff.mp hbyte).1
    obtain ⟨hin, hrow⟩ := inMainRam_of_bytes (by omega) (fun index hindex => (hcells index hindex).1)
      bytes.length (by omega) le_rfl
    refine ⟨_, rfl, ?_, hin, i, hi, ?_⟩
    · dsimp only
      rw [List.any_eq_true]
      refine ⟨(byte, i), ?_, ?_⟩
      · rw [List.mk_mem_zipIdx_iff_getElem?]
        exact hbyte
      · unfold Memory.byteChanges
        dsimp only
        rw [hcell]
        exact decide_eq_true hne
    · dsimp only
      rw [(hcells i hi).2] at hcell
      rw [← hrow i hi]
      exact congrArg Prod.snd (Option.some.inj hcell)
  | directLinear physicalAddress bytes =>
    simp only [GuestStore.perform, Memory.tryWriteDirectLinear] at h
    split at h
    · cases h
      exact absurd rfl hchanged
    rename_i start hstart
    cases h
    obtain ⟨-, hle, hlt, hne⟩ := store_changed hchanged
    have hbase : Memory.directLinearPhysicalBase = 0x0C000000 := rfl
    have hspan : Memory.directLinearPhysicalSpan = 0x04000000 := rfl
    have hsize : dreamcastMainRamSize = 0x01000000 := rfl
    unfold Memory.directLinearOffset at hstart
    rw [hbase, hspan, hsize] at hstart
    dsimp only at hstart
    split at hstart
    · cases hstart
    split at hstart
    · cases hstart
    split at hstart
    · cases hstart
    split at hstart
    · rename_i hlow hinside hfit
      have hoffset := Option.some.inj hstart
      have hcanonical := @toNat_canonicalPhysicalAddress physicalAddress (by omega) (by omega)
      have hbegin : area3Begin = 0x0C000000 := rfl
      have hend : area3End = 0x10000000 := rfl
      refine ⟨_, rfl, decide_eq_true hne, ⟨?_, ?_, hcanonical⟩, offset - start, ?_, ?_⟩
      · dsimp only
        omega
      · dsimp only
        omega
      · dsimp only
        omega
      · dsimp only
        omega
    · cases hstart

end

/-! ## Extents -/

/-- The physical address that the observer folds a byte of main memory to. -/
def firstMirror (offset : Nat) : Nat := area3Begin + offset

/-- An extent of main memory lies in the first mirror. -/
structure GoodExtent (extent : BackingExtent) : Prop where
  mainRam : extent.mainRam = true
  positive : 0 < extent.extentSize
  low : area3Begin ≤ extent.backing.toNat
  high : extent.backing.toNat + extent.extentSize ≤ area3Begin + 2 ^ 24

theorem backingExtentsFrom_spec (turns : Nat) {cursor sourceOffset remaining : Nat}
    (hcursor : area3Begin ≤ cursor) (hturns : remaining ≤ turns) :
    (∀ extent ∈ backingExtentsFrom turns cursor sourceOffset remaining, GoodExtent extent) ∧
      ∀ index < remaining, ∃ extent ∈ backingExtentsFrom turns cursor sourceOffset remaining,
        extent.backing.toNat ≤ firstMirror ((cursor + index) % 2 ^ 24) ∧
          firstMirror ((cursor + index) % 2 ^ 24) < extent.backing.toNat + extent.extentSize := by
  have hsize : dreamcastMainRamSize = 2 ^ 24 := rfl
  have hbegin : area3Begin = 12 * 2 ^ 24 := rfl
  induction turns generalizing cursor sourceOffset remaining with
  | zero =>
    obtain rfl : remaining = 0 := by omega
    simp [backingExtentsFrom]
  | succ turns ih =>
    unfold backingExtentsFrom
    split
    · rename_i hzero
      subst hzero
      simp
    · rename_i hpositive
      dsimp only
      rw [hsize]
      have hback : (BitVec.ofNat 32 (area3Begin + (cursor - area3Begin) % 2 ^ 24)).toNat =
          area3Begin + (cursor - area3Begin) % 2 ^ 24 := by
        rw [BitVec.toNat_ofNat, Nat.mod_eq_of_lt (by omega)]
      generalize hextent : min remaining (2 ^ 24 - (cursor - area3Begin) % 2 ^ 24) = extentSize
      obtain ⟨hgood, hcovers⟩ := @ih (cursor + extentSize) (sourceOffset + extentSize)
        (remaining - extentSize) (by omega) (by omega)
      constructor
      · intro extent hmem
        rcases List.mem_cons.mp hmem with rfl | hmem
        · refine ⟨rfl, ?_, ?_, ?_⟩
          · dsimp only
            omega
          · dsimp only
            rw [hback]
            omega
          · dsimp only
            rw [hback]
            omega
        · exact hgood extent hmem
      · intro index hindex
        unfold firstMirror at hcovers ⊢
        by_cases hhere : index < extentSize
        · refine ⟨_, List.mem_cons_self, ?_, ?_⟩
          · dsimp only
            rw [hback]
            omega
          · dsimp only
            rw [hback]
            omega
        · obtain ⟨extent, hmem, hlow, hhigh⟩ := hcovers (index - extentSize) (by omega)
          refine ⟨extent, List.mem_cons_of_mem _ hmem, ?_, ?_⟩
          · rw [show cursor + index = cursor + extentSize + (index - extentSize) by omega]
            exact hlow
          · rw [show cursor + index = cursor + extentSize + (index - extentSize) by omega]
            exact hhigh

variable {event : GuestWriteEvent}

/-- The extents of a report lie in the first mirror, and hold the byte it is about. -/
theorem Reports.extents (h : Reports event offset) :
    (∀ extent ∈ forEachDreamcastExecutableBackingExtent event.address event.size,
        GoodExtent extent) ∧
      ∃ extent ∈ forEachDreamcastExecutableBackingExtent event.address event.size,
        extent.backing.toNat ≤ firstMirror offset ∧
          firstMirror offset < extent.backing.toNat + extent.extentSize := by
  obtain ⟨-, ⟨hlow, hhigh, -⟩, index, hindex, rfl⟩ := h
  unfold forEachDreamcastExecutableBackingExtent
  rw [if_pos ⟨by omega, hlow, by omega, by omega⟩]
  obtain ⟨hgood, hcovers⟩ := @backingExtentsFrom_spec event.size
    (canonicalPhysicalAddress event.address).toNat 0 event.size hlow le_rfl
  exact ⟨hgood, hcovers index hindex⟩

/-! ## Bytes of blocks -/

/-- A byte of a block that is not in one of its mutable ranges. -/
structure ImmutableByte (start extent : BitVec 32) (ranges : List NativeAotTemplateMutableRange)
    (byte : Nat) : Prop where
  low : start.toNat ≤ byte
  high : byte < start.toNat + extent.toNat
  free : ∀ range ∈ ranges, byte - start.toNat < range.offset.toNat ∨ range.end ≤ byte - start.toNat

variable {ranges : List NativeAotTemplateMutableRange}

theorem leavesMutableRanges_of_byte {endOffset byte : Nat} {cursor : Nat} (hcursor : cursor ≤ byte)
    (hend : byte < endOffset)
    (hfree : ∀ range ∈ ranges, byte < range.offset.toNat ∨ range.end ≤ byte) :
    leavesMutableRanges endOffset cursor ranges = true := by
  induction ranges generalizing cursor with
  | nil => exact decide_eq_true (by omega)
  | cons range rest ih =>
    have hhere := hfree range List.mem_cons_self
    have hrest := fun other hother => hfree other (List.mem_cons_of_mem _ hother)
    unfold leavesMutableRanges
    split
    · omega
    split
    · exact ih hcursor hrest
    split
    · rfl
    · exact ih (by omega) hrest

theorem nativeAotWriteOverlapsImmutable_of_byte {start extent writeStart : BitVec 32} {byte : Nat}
    (h : ImmutableByte start extent ranges byte) (hlow : writeStart.toNat ≤ byte)
    (hhigh : byte < writeStart.toNat + size) :
    nativeAotWriteOverlapsImmutable start extent ranges writeStart size = true := by
  obtain ⟨hstart, hend, hfree⟩ := h
  unfold nativeAotWriteOverlapsImmutable
  split
  · rename_i hempty
    rcases hempty with rfl | rfl
    · simp at hend
      omega
    · omega
  split
  · rfl
  dsimp only
  split
  · omega
  split
  · rfl
  · exact leavesMutableRanges_of_byte (by omega) (by omega) hfree

/-! ## The pages of active blocks -/

/-- Every active record is listed on the pages its bytes lie on. -/
def Paged (t : RuntimeBlockTable) : Prop :=
  ∀ id record, t.records id = some record → record.active = true →
    ∀ page ∈ validationPages record.block, id ∈ t.activePhysicalPages page

variable {id : Nat}

theorem mem_insertId {other : Nat} {ids : List Nat} :
    other ∈ insertId id ids ↔ other = id ∨ other ∈ ids := by
  unfold insertId
  split
  · rename_i hmem
    constructor
    · exact .inr
    · rintro (rfl | h)
      · exact hmem
      · exact h
  · exact List.mem_orderedInsert _

variable {t : RuntimeBlockTable}

theorem Paged.activate (ht : Paged t) (id : Nat) (record : Record) :
    Paged (t.activate id record) := by
  obtain ⟨pages, entries, hframe⟩ := activate_frame t id record
  have hpages : (t.activate id record).activePhysicalPages = fun page =>
      if page ∈ validationPages record.block then insertId id (t.activePhysicalPages page)
      else t.activePhysicalPages page := by
    rw [hframe]
  intro other found hfound hactive page hpage
  rw [activate_records] at hfound
  rw [hpages]
  dsimp only
  by_cases hsame : other = id
  · subst hsame
    rw [Function.update_self] at hfound
    cases hfound
    rw [if_pos hpage, mem_insertId]
    exact .inl rfl
  · rw [Function.update_of_ne hsame] at hfound
    have hlisted := ht other found hfound hactive page hpage
    split
    · exact mem_insertId.mpr (.inr hlisted)
    · exact hlisted

theorem Paged.retire (ht : Paged t) (id : Nat) (record : Record) : Paged (t.retire id record) := by
  obtain ⟨pages, entries, hframe⟩ := retire_frame t id record
  have hpages : (t.retire id record).activePhysicalPages = fun page =>
      if page ∈ validationPages record.block then (t.activePhysicalPages page).filter (· ≠ id)
      else t.activePhysicalPages page := by
    rw [hframe]
    cases hstatic : record.staticBlock <;> simp [unlistActive, hstatic]
  intro other found hfound hactive page hpage
  rw [retire_records] at hfound
  rw [hpages]
  dsimp only
  by_cases hsame : other = id
  · subst hsame
    rw [Function.update_self] at hfound
    cases hfound
    cases hactive
  · rw [Function.update_of_ne hsame] at hfound
    have hlisted := ht other found hfound hactive page hpage
    split
    · rw [List.mem_filter]
      exact ⟨hlisted, decide_eq_true hsame⟩
    · exact hlisted

variable {t' : RuntimeBlockTable}

theorem Paged.change {fresh : Prop} (ht : Paged t) (h : Change fresh t t') : Paged t' := by
  cases h with
  | bookkeeping => exact ht
  | insertNew record =>
    have hgrown : Paged { t with
        nextId := t.nextId + 1
        identities := Function.update t.identities record.identity (some t.nextId) } := ht
    exact hgrown.activate _ record
  | reactivate id known record => exact ht.activate id record
  | retire id record => exact ht.retire id record
  | sealIndex hopen =>
    simp only [sealStatic, hopen]
    exact ht
  | bind tracker contract =>
    simp only [bindCodeTracker]
    split
    · exact ht
    · exact ht

theorem Paged.changes {fresh : Prop} (ht : Paged t) (h : Changes fresh t t') : Paged t' := by
  induction h with
  | refl => exact ht
  | tail _ hstep ih => exact ih.change hstep

theorem mem_physicalPages {start byte : Nat} (hlow : start ≤ byte) (hhigh : byte < start + size) :
    byte / physicalPageSize ∈ physicalPages start size := by
  unfold physicalPages physicalPageSize
  dsimp only
  rw [List.mem_map]
  refine ⟨byte / 4096 - start / 4096, ?_, ?_⟩
  · rw [List.mem_range]
    omega
  · omega

/-! ## Deactivation -/

/-- The record of an id, before and after a step that only deactivates. -/
structure Faded (t t' : RuntimeBlockTable) (id : Nat) (record record' : Record) : Prop where
  found : t'.records id = some record'
  block : record'.block = record.block
  inactive : record.active = false → record'.active = false

variable {record : Record}

theorem deactivate_faded (t : RuntimeBlockTable) (other : Nat)
    (h : t.records id = some record) : ∃ record', Faded t (t.deactivate other) id record record' ∧
      (id = other → record'.active = false) := by
  unfold deactivate
  cases hother : t.records other with
  | none =>
    refine ⟨record, ⟨h, rfl, fun h => h⟩, ?_⟩
    rintro rfl
    rw [h] at hother
    cases hother
  | some found =>
    dsimp only
    split
    · by_cases hsame : id = other
      · subst hsame
        rw [h] at hother
        cases hother
        refine ⟨{ record with active := false, generation := advanceGeneration record.generation },
          ⟨?_, rfl, fun _ => rfl⟩, fun _ => rfl⟩
        rw [retire_records, Function.update_self]
      · exact ⟨record, ⟨by rw [retire_records, Function.update_of_ne hsame, h], rfl, fun h => h⟩,
          fun hcontra => absurd hcontra hsame⟩
    · rename_i hinactive
      refine ⟨record, ⟨h, rfl, fun h => h⟩, ?_⟩
      rintro rfl
      rw [h] at hother
      cases hother
      simpa using hinactive

theorem deactivateAll_faded (ids : List Nat)
    (h : t.records id = some record) : ∃ record', Faded t (t.deactivateAll ids) id record record' ∧
      (id ∈ ids → record'.active = false) := by
  induction ids generalizing t record with
  | nil => exact ⟨record, ⟨h, rfl, fun h => h⟩, fun hmem => absurd hmem List.not_mem_nil⟩
  | cons first rest ih =>
    obtain ⟨next, ⟨hnext, hblock, hkeep⟩, hfirst⟩ := deactivate_faded t first h
    obtain ⟨last, ⟨hlast, hblock', hkeep'⟩, hrest⟩ := ih hnext
    refine ⟨last, ⟨hlast, hblock'.trans hblock, fun h => hkeep' (hkeep h)⟩, ?_⟩
    intro hmem
    rcases List.mem_cons.mp hmem with rfl | hmem
    · exact hkeep' (hfirst rfl)
    · exact hrest hmem

/-- The bytes that a block of the table was validated with. -/
def RuntimeImmutable (block : RuntimeBlock) (byte : Nat) : Prop :=
  ImmutableByte block.validationPhysicalStart block.validationExtent block.validationMutableRanges
    byte

theorem eraseOverlappingPhysical_faded (ht : Paged t) (hsize : 0 < size)
    (hspace : (canonicalPhysicalAddress address).toNat + size ≤ 2 ^ 32)
    (h : t.records id = some record) :
    ∃ record', Faded t (t.eraseOverlappingPhysical address size).2 id record record' ∧
      ∀ byte, RuntimeImmutable record.block byte → (canonicalPhysicalAddress address).toNat ≤ byte →
        byte < (canonicalPhysicalAddress address).toNat + size → record'.active = false := by
  have hextent : writeExtent (canonicalPhysicalAddress address) size = size := by
    unfold writeExtent
    split
    · omega
    · rfl
  unfold eraseOverlappingPhysical
  rw [if_neg (by omega)]
  obtain ⟨record', hfaded, hreached⟩ := deactivateAll_faded (t.reachedIds address size) h
  refine ⟨record', hfaded, ?_⟩
  intro byte himmutable hlow hhigh
  cases hactive : record.active with
  | false => exact hfaded.inactive hactive
  | true =>
    refine hreached ?_
    unfold reachedIds
    dsimp only
    rw [hextent, List.mem_filter, mem_sortedUnique, List.mem_flatMap]
    refine ⟨⟨byte / physicalPageSize, mem_physicalPages hlow hhigh, ?_⟩, ?_⟩
    · exact ht id record h hactive _ (mem_physicalPages himmutable.low himmutable.high)
    · rw [h]
      exact nativeAotWriteOverlapsImmutable_of_byte himmutable hlow hhigh

/-! ## Invalidation -/

def TrackedImmutable (block : ExecutableBlockRegistration) (byte : Nat) : Prop :=
  ImmutableByte block.physicalStart block.size block.mutableRanges byte

/-- What holds of the tracker and the table in every run. -/
structure Sound (s : CodeState) : Prop where
  tracker : WellFormed s.tracker
  table : Paged s.table

/-- Blocks only become invalid, and those with an immutable byte that `hit` names do. -/
structure Invalidates (s s' : CodeState) (hit : Nat → Prop) : Prop where
  tracked : ∀ (index : Nat) (before : TrackedExecutableBlock),
    s.tracker.blocks[index]? = some before → ∃ after : TrackedExecutableBlock, s'.tracker.blocks[index]? = some after ∧ after.block = before.block ∧
      (before.valid = false → after.valid = false) ∧
      ∀ byte, TrackedImmutable before.block byte → hit byte → after.valid = false
  active : ∀ (id : Nat) (before : Record), s.table.records id = some before →
    ∃ after : Record, s'.table.records id = some after ∧ after.block = before.block ∧
      (before.active = false → after.active = false) ∧
      ∀ byte, RuntimeImmutable before.block byte → hit byte → after.active = false

theorem Invalidates.refl (s : CodeState) : Invalidates s s fun _ => False :=
  ⟨fun _ before h => ⟨before, h, rfl, fun h => h, fun _ _ hit => hit.elim⟩,
    fun _ before h => ⟨before, h, rfl, fun h => h, fun _ _ hit => hit.elim⟩⟩

theorem Invalidates.trans {s s' s'' : CodeState} {hit hit' : Nat → Prop}
    (h : Invalidates s s' hit) (h' : Invalidates s' s'' hit') :
    Invalidates s s'' fun byte => hit byte ∨ hit' byte := by
  constructor
  · intro index before hbefore
    obtain ⟨middle, hmiddle, hblock, hkeep, hinvalid⟩ := h.tracked index before hbefore
    obtain ⟨after, hafter, hblock', hkeep', hinvalid'⟩ := h'.tracked index middle hmiddle
    refine ⟨after, hafter, hblock'.trans hblock, fun h => hkeep' (hkeep h), ?_⟩
    rintro byte himmutable (hhit | hhit)
    · exact hkeep' (hinvalid byte himmutable hhit)
    · exact hinvalid' byte (hblock ▸ himmutable) hhit
  · intro id before hbefore
    obtain ⟨middle, hmiddle, hblock, hkeep, hinvalid⟩ := h.active id before hbefore
    obtain ⟨after, hafter, hblock', hkeep', hinvalid'⟩ := h'.active id middle hmiddle
    refine ⟨after, hafter, hblock'.trans hblock, fun h => hkeep' (hkeep h), ?_⟩
    rintro byte himmutable (hhit | hhit)
    · exact hkeep' (hinvalid byte himmutable hhit)
    · exact hinvalid' byte (hblock ▸ himmutable) hhit

/-- A changed write in the address space invalidates what it reaches. -/
theorem Sound.invalidate {s : CodeState} (hs : Sound s) {address : BitVec 32} {size : Nat}
    (hsize : 0 < size) (hsmall : size ≤ uint32Max)
    (hspace : (canonicalPhysicalAddress address).toNat + size ≤ 2 ^ 32) (source : CodeWriteSource) :
    ∃ s', s.invalidate address size source true = some s' ∧ Sound s' ∧
      Invalidates s s' fun byte => (canonicalPhysicalAddress address).toNat ≤ byte ∧
        byte < (canonicalPhysicalAddress address).toNat + size := by
  obtain ⟨result, tracker, hobserve, hresult⟩ : ∃ result tracker,
      s.tracker.observeWrite address size source true = .ok (result, tracker) ∧
        result.byteIdentical = false := by
    have hinside : inAddressSpace (canonicalPhysicalAddress address) size = true := by
      simp only [inAddressSpace, Bool.and_eq_true, decide_eq_true_eq]
      exact ⟨hsmall, hspace⟩
    refine ⟨(s.tracker.invalidateRange address size source).1,
      (s.tracker.invalidateRange address size source).2, ?_, rfl⟩
    simp only [observeWrite, hinside, Nat.pos_iff_ne_zero.mp hsize, if_false, Bool.not_true,
      Bool.false_eq_true]
  refine ⟨{ tracker := tracker, table := (s.table.eraseOverlappingPhysical address size).2 },
    ?_, ?_, ?_, ?_⟩
  · simp only [CodeState.invalidate, hobserve, hresult, Bool.false_eq_true, if_false]
  · exact ⟨hs.tracker.observeWrite hobserve,
      hs.table.changes (@eraseOverlappingPhysical_changes True s.table address size)⟩
  · intro index before hbefore
    have hblocks := (hs.tracker.observeWrite_effects hobserve).1
    dsimp only
    rw [hblocks, List.getElem?_map, hbefore]
    refine ⟨_, rfl, invalidateIf_block _ _, ?_, ?_⟩
    · intro hinvalid
      unfold invalidateIf
      split
      · rfl
      · exact hinvalid
    · intro byte himmutable hhit
      have hreached : reachedBy (canonicalPhysicalAddress address) size before.block = true :=
        nativeAotWriteOverlapsImmutable_of_byte himmutable hhit.1 hhit.2
      cases hvalid : before.valid <;> simp [invalidateIf, hreached, hvalid]
  · intro id before hbefore
    obtain ⟨after, ⟨hafter, hblock, hkeep⟩, hinvalid⟩ :=
      eraseOverlappingPhysical_faded hs.table hsize hspace hbefore
    exact ⟨after, hafter, hblock, hkeep, fun byte himmutable hhit =>
      hinvalid byte himmutable hhit.1 hhit.2⟩

/-- The extents of a report, one after the other. -/
theorem Sound.extents {s : CodeState} (hs : Sound s)
    (hchanged : event.bytesChanged = true) {extents : List BackingExtent}
    (hgood : ∀ extent ∈ extents, GoodExtent extent) :
    ∃ s', extents.foldlM (fun s extent => CodeState.observeExtent s event extent) s = some s' ∧
      Invalidates s s' fun byte => ∃ extent ∈ extents,
        extent.backing.toNat ≤ byte ∧ byte < extent.backing.toNat + extent.extentSize := by
  induction extents generalizing s with
  | nil =>
    refine ⟨s, rfl, ?_⟩
    simpa using Invalidates.refl s
  | cons extent rest ih =>
    obtain ⟨hmainRam, hpositive, hlow, hhigh⟩ := hgood extent List.mem_cons_self
    have hbegin : area3Begin = 12 * 2 ^ 24 := rfl
    have hcanonical : (canonicalPhysicalAddress extent.backing).toNat = extent.backing.toNat := by
      rw [toNat_canonicalPhysicalAddress (by omega) (by omega), Nat.mod_eq_of_lt (by omega)]
    obtain ⟨s', hstep, hs', hinvalidates⟩ := @Sound.invalidate s hs extent.backing
      extent.extentSize hpositive (by unfold uint32Max; omega) (by omega) event.source
    obtain ⟨s'', hrest, hinvalidates'⟩ := ih hs' fun other hother =>
      hgood other (List.mem_cons_of_mem _ hother)
    refine ⟨s'', ?_, ?_⟩
    · rw [List.foldlM_cons]
      unfold CodeState.observeExtent at hrest ⊢
      rw [hmainRam, hchanged] at *
      simp only [Bool.not_true, Bool.false_and, Bool.false_eq_true, if_false, hstep]
      exact hrest
    · have hboth := hinvalidates.trans hinvalidates'
      rw [hcanonical] at hboth
      refine ⟨?_, ?_⟩
      · intro index before hbefore
        obtain ⟨after, hafter, hblock, hkeep, hinvalid⟩ := hboth.tracked index before hbefore
        refine ⟨after, hafter, hblock, hkeep, ?_⟩
        rintro byte himmutable ⟨other, hmem, hhit⟩
        rcases List.mem_cons.mp hmem with rfl | hmem
        · exact hinvalid byte himmutable (.inl hhit)
        · exact hinvalid byte himmutable (.inr ⟨other, hmem, hhit⟩)
      · intro id before hbefore
        obtain ⟨after, hafter, hblock, hkeep, hinvalid⟩ := hboth.active id before hbefore
        refine ⟨after, hafter, hblock, hkeep, ?_⟩
        rintro byte himmutable ⟨other, hmem, hhit⟩
        rcases List.mem_cons.mp hmem with rfl | hmem
        · exact hinvalid byte himmutable (.inl hhit)
        · exact hinvalid byte himmutable (.inr ⟨other, hmem, hhit⟩)

/-! ## Runs -/

/-- One of the trackers, and the table. -/
def codeState (s : BlockDispatch) (index : Nat) : CodeState := ⟨s.trackers index, s.table⟩

theorem sound_of_run {trackers : Nat → ExecutableCodeTracker} {lifetime : Nat}
    {mode : RuntimeBlockLookupMode} {operations : List BlockDispatch.Operation} {s : BlockDispatch}
    (hcreated : ∀ index, ∃ capacity, ExecutableCodeTracker.create capacity = .ok (trackers index))
    (hrun : (BlockDispatch.start trackers lifetime mode).run operations = some s) (index : Nat) :
    Sound (codeState s index) := by
  have hinvariant := BlockDispatch.run_induction
    (motive := fun s => Paged s.table ∧ ∀ index, WellFormed (s.trackers index))
    (BlockDispatch.ready_start trackers lifetime mode) (fun h : False => h.elim) hrun
  obtain ⟨-, hpaged, htrackers⟩ := hinvariant (by
      refine ⟨fun id record hrecord => (by cases hrecord), ?_⟩
      intro index
      obtain ⟨capacity, hcapacity⟩ := hcreated index
      exact create_wellFormed hcapacity)
    (by
      rintro s s' operation - hstep ⟨hpaged, htrackers⟩
      cases hstep with
      | table table hchanges => exact ⟨hpaged.changes hchanges, htrackers⟩
      | clear => exact ⟨fun id record hrecord => (by cases hrecord), htrackers⟩
      | tracker which operation tracker happly =>
        refine ⟨hpaged, ?_⟩
        intro index
        by_cases hsame : index = which
        · subst hsame
          dsimp only
          rw [Function.update_self]
          exact (htrackers index).apply happly
        · dsimp only
          rw [Function.update_of_ne hsame]
          exact htrackers index
      | allocate => exact ⟨hpaged, htrackers⟩)
  exact ⟨htrackers index, hpaged⟩

/-- In every state of a run, a store that changes a byte of main memory through any mirror and any
segment is taken by the observer of the boot runtime, and invalidates every tracked and every
active block of the first mirror that has the byte. The report without the folding does so for
the blocks of the mirror that the store was made through. -/
theorem store_invalidates_aliases {trackers : Nat → ExecutableCodeTracker} {lifetime : Nat}
    {mode : RuntimeBlockLookupMode} {operations : List BlockDispatch.Operation} {s : BlockDispatch}
    (hcreated : ∀ index, ∃ capacity, ExecutableCodeTracker.create capacity = .ok (trackers index))
    (hrun : (BlockDispatch.start trackers lifetime mode).run operations = some s) (index : Nat)
    {memory memory' : Memory} (hregions : memory.regions = mainRamRegions)
    {store : GuestStore} {source : CodeWriteSource} {events : List GuestWriteEvent}
    (hstore : store.perform memory source = .ok (memory', events)) {offset : Nat}
    (hchanged : memory'.storage mainRam offset ≠ memory.storage mainRam offset) :
    ∃ event, events = [event] ∧ (∃ s', (codeState s index).observeGuestWrite event = some s' ∧
        Invalidates (codeState s index) s' fun byte => byte = area3Begin + offset) ∧
      ∃ s', (codeState s index).observeReported event = some s' ∧
        Invalidates (codeState s index) s' fun byte =>
          (canonicalPhysicalAddress event.address).toNat ≤ byte ∧
            byte < (canonicalPhysicalAddress event.address).toNat + event.size := by
  have hsound := sound_of_run hcreated hrun index
  obtain ⟨event, hevents, hreports⟩ := perform_reports hregions hstore hchanged
  refine ⟨event, hevents, ?_, ?_⟩
  · obtain ⟨hgood, extent, hmem, hlow, hhigh⟩ := hreports.extents
    obtain ⟨s', hobserve, hinvalidates⟩ := hsound.extents hreports.changed hgood
    refine ⟨s', hobserve, ?_, ?_⟩
    · intro index before hbefore
      obtain ⟨after, hafter, hblock, hkeep, hinvalid⟩ := hinvalidates.tracked index before hbefore
      refine ⟨after, hafter, hblock, hkeep, ?_⟩
      rintro byte himmutable rfl
      exact hinvalid _ himmutable ⟨extent, hmem, hlow, hhigh⟩
    · intro id before hbefore
      obtain ⟨after, hafter, hblock, hkeep, hinvalid⟩ := hinvalidates.active id before hbefore
      refine ⟨after, hafter, hblock, hkeep, ?_⟩
      rintro byte himmutable rfl
      exact hinvalid _ himmutable ⟨extent, hmem, hlow, hhigh⟩
  · obtain ⟨hchangedEvent, ⟨hlow, hhigh, -⟩, byte, hbyte, -⟩ := hreports
    have hend : area3End = 2 ^ 28 := rfl
    obtain ⟨s', hobserve, -, hinvalidates⟩ := @Sound.invalidate _ hsound event.address event.size
      (by omega) (by unfold uint32Max; omega) (by omega) event.source
    refine ⟨s', ?_, hinvalidates⟩
    unfold CodeState.observeReported
    rw [hchangedEvent]
    exact hobserve

/-- A block of the first mirror, in the table and in a tracker. -/
def loading : List BlockDispatch.Operation :=
  [ .registerStatic BlockDispatch.loadedBlock,
    .tracker 0 (.registerBlock { identity := "loaded", physicalStart := 0x0C010000, size := 4
                                 provenance := "loaded" }) ]

def loadedDispatch : BlockDispatch :=
  { BlockDispatch.start BlockDispatch.emptyTrackers 1 .direct with
    table := (({ dispatchLifetime := 1 } : RuntimeBlockTable).registerStatic
      BlockDispatch.loadedBlock).2
    trackers := Function.update BlockDispatch.emptyTrackers 0
      ((BlockDispatch.emptyTrackers 0).appendBlock
        { identity := "loaded", physicalStart := 0x0C010000, size := 4, provenance := "loaded" }) }

theorem run_loading :
    (BlockDispatch.start BlockDispatch.emptyTrackers 1 .direct).run loading = some loadedDispatch :=
  rfl

/-- The first byte of the block is stored through the second mirror. -/
def mirrorStore : GuestStore := .scalar 0x0D010000 [1]

def mirrorEvent : GuestWriteEvent := { address := 0x0D010000, size := 1 }

theorem perform_mirrorStore :
    mirrorStore.perform (mapDreamcastMainRam .referenceScan fun _ => 0) .cpu =
      .ok ((mapDreamcastMainRam .referenceScan fun _ => 0).store mainRam 0x10000 [1],
        [mirrorEvent]) := rfl

/-- The report as it is leaves the block valid and active, though its first byte has changed. -/
theorem mirror_store_missed : ∃ s memory' event s',
      (BlockDispatch.start BlockDispatch.emptyTrackers 1 .direct).run loading = some s ∧
      mirrorStore.perform (mapDreamcastMainRam .referenceScan fun _ => 0) .cpu =
        .ok (memory', [event]) ∧ memory'.storage mainRam 0x10000 ≠ 0 ∧
      (codeState s 0).observeReported event = some s' ∧
      (∃ tracked, s'.tracker.blocks[0]? = some tracked ∧ tracked.valid = true ∧
        TrackedImmutable tracked.block 0x0C010000) ∧
      ∃ record, s'.table.records 1 = some record ∧ record.active = true ∧
        RuntimeImmutable record.block 0x0C010000 := by
  obtain ⟨s', hs', htracked, hactive⟩ : ∃ s',
      (codeState loadedDispatch 0).observeReported mirrorEvent = some s' ∧
      s'.tracker.blocks = (codeState loadedDispatch 0).tracker.blocks ∧
      s'.table.records 1 = (codeState loadedDispatch 0).table.records 1 := ⟨_, rfl, rfl, rfl⟩
  refine ⟨loadedDispatch, _, mirrorEvent, s', run_loading, perform_mirrorStore, by decide, hs',
    ⟨⟨{ identity := "loaded", physicalStart := 0x0C010000, size := 4, provenance := "loaded" },
      true⟩, ?_, rfl, ⟨by decide, by decide, by simp⟩⟩,
    { block := BlockDispatch.loadedBlock
      identity := stableRuntimeBlockIdentity BlockDispatch.loadedBlock, staticBlock := true }, ?_,
    rfl, ⟨by decide, by decide, by simp [RuntimeBlock.validationMutableRanges,
      BlockDispatch.loadedBlock]⟩⟩
  · rw [htracked]
    rfl
  · rw [hactive]
    rfl

/-- The observer folds the report, and the block is gone. -/
theorem store_invalidates_aliases_mirror :
    ∃ s' after record, (codeState loadedDispatch 0).observeGuestWrite mirrorEvent = some s' ∧
      s'.tracker.blocks[0]? = some after ∧ after.valid = false ∧
      s'.table.records 1 = some record ∧ record.active = false := by
  have hcreated : ∀ index, ∃ capacity, ExecutableCodeTracker.create capacity =
      .ok (BlockDispatch.emptyTrackers index) := fun _ => ⟨1, rfl⟩
  have hchanged : ((mapDreamcastMainRam .referenceScan fun _ => 0).store mainRam 0x10000
      [1]).storage mainRam 0x10000 ≠
        (mapDreamcastMainRam .referenceScan fun _ => 0).storage mainRam 0x10000 := by decide
  obtain ⟨event, hevent, ⟨s', hobserve, hinvalidates⟩, -⟩ :=
    store_invalidates_aliases hcreated run_loading 0 rfl perform_mirrorStore hchanged
  obtain rfl : mirrorEvent = event := by simpa using hevent
  obtain ⟨after, hafter, -, -, hinvalid⟩ := hinvalidates.tracked 0
    ⟨{ identity := "loaded", physicalStart := 0x0C010000, size := 4, provenance := "loaded" }, true⟩
    rfl
  obtain ⟨record, hrecord, -, -, hinactive⟩ := hinvalidates.active 1
    { block := BlockDispatch.loadedBlock
      identity := stableRuntimeBlockIdentity BlockDispatch.loadedBlock, staticBlock := true } rfl
  exact ⟨s', after, record, hobserve, hafter,
    hinvalid 0x0C010000 ⟨by decide, by decide, by simp⟩ rfl, hrecord,
    hinactive 0x0C010000 ⟨by decide, by decide, by simp [RuntimeBlock.validationMutableRanges,
      BlockDispatch.loadedBlock]⟩ rfl⟩

end KatanaRecomp.Runtime.MainRam
