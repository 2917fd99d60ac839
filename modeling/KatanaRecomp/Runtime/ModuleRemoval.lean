import KatanaRecomp.Runtime.AliasInvalidation
import KatanaRecomp.Runtime.BlockTablePages
import KatanaRecomp.Runtime.CatalogRuns

/-! # What a removed module leaves behind

A module that is unloaded or replaced takes its code with it, but for the bytes that
another module has as well. Each extent without an owner is invalidated by one write, so
that write has to reach the bytes that the extent names: it does where the module crosses
no mirror boundary. -/
namespace KatanaRecomp.Runtime
open Lib (bind_eq_ok)
open ExecutableCodeTracker
open RuntimeBlockTable
open MainRam (ImmutableByte RuntimeImmutable TrackedImmutable nativeAotWriteOverlapsImmutable_of_byte)

namespace ExecutableModule

/-- The physical address of a byte of the module is not folded onto another one. -/
def Unfolded (module : ExecutableModule) (offset : Nat) : Prop :=
  (canonicalPhysicalAddress (BitVec.ofNat 32 (module.physicalStart + offset))).toNat =
    module.physicalStart + offset

/-- Too short to reach from the first mirror to the on-chip memory, a module is not folded: the
check of its ends is enough. -/
theorem Sound.unfolded {module : ExecutableModule} (h : module.Sound)
    (hshort : module.bytes.length ≤ 0x5C000001) {offset : Nat}
    (hoffset : offset < module.bytes.length) : module.Unfolded offset := by
  obtain ⟨⟨⟨-, hend⟩, hlast⟩, hsame⟩ : ((module.bytes.length ≠ 0 ∧
      module.bytes.length ≤ 2 ^ 32 - module.guestStart.toNat) ∧
      module.physicalStart + module.bytes.length - 1 ≤ uint32Max) ∧
      (canonicalPhysicalAddress (module.guestStart +
        BitVec.ofNat 32 (module.bytes.length - 1))).toNat =
          module.physicalStart + module.bytes.length - 1 := by
    have hlinear := h.linear
    unfold canonicalRangeIsLinear at hlinear
    simp only [Bool.and_eq_true, decide_eq_true_eq] at hlinear
    exact hlinear
  have heven : module.guestStart.toNat % 2 = 0 := by
    have hbit := congrArg BitVec.toNat h.aligned
    rw [BitVec.toNat_and] at hbit
    simpa [Nat.and_one_is_mod] using hbit
  have hlt := module.guestStart.isLt
  have hfinal : (module.guestStart + BitVec.ofNat 32 (module.bytes.length - 1)).toNat =
      module.guestStart.toNat + (module.bytes.length - 1) := by
    rw [BitVec.toNat_add, BitVec.toNat_ofNat, Nat.mod_eq_of_lt (by omega), Nat.mod_eq_of_lt]
    omega
  have hphysical := toNat_canonicalPhysicalAddress_eq module.guestStart
  change module.physicalStart = _ at hphysical
  unfold uint32Max at hlast
  unfold Unfolded
  rw [toNat_canonicalPhysicalAddress_eq, hfinal] at hsame
  rw [toNat_canonicalPhysicalAddress_eq, BitVec.toNat_ofNat,
    Nat.mod_eq_of_lt (by omega : module.physicalStart + offset < 2 ^ 32)]
  split_ifs at hphysical hsame ⊢ <;> omega

end ExecutableModule

/-! ## Owners of a byte -/

namespace ExecutableModule
variable {removed candidate : ExecutableModule} {modules : List ExecutableModule}

/-- Another module has the byte in an active extent, may run it, and has the same byte and
binding. -/
structure Owns (removed candidate : ExecutableModule) (offset : Nat) : Prop where
  materializable :
    candidate.materializable (BitVec.ofNat 32 (removed.physicalStart + offset)) 1 = true
  binding : removed.equivalentBinding candidate = true
  sameByte : candidate.relocatedByte (removed.physicalStart + offset - candidate.physicalStart) =
    removed.relocatedByte offset

/-- A module other than the removed one owns the byte. -/
def OwnedElsewhere (modules : List ExecutableModule) (removed : ExecutableModule)
    (place offset : Nat) : Prop :=
  ∃ index candidate, index ≠ place ∧ modules[index]? = some candidate ∧
    removed.Owns candidate offset

variable {offset : Nat} {module : ExecutableModule}

theorem moduleOffset_some {address : BitVec 32} {width : Nat}
    (h : module.moduleOffset address width = some offset) :
    module.physicalStart ≤ (canonicalPhysicalAddress address).toNat ∧
      (canonicalPhysicalAddress address).toNat + width ≤
        module.physicalStart + module.bytes.length ∧
      offset = (canonicalPhysicalAddress address).toNat - module.physicalStart := by
  unfold moduleOffset at h
  dsimp only at h
  split at h
  · cases h
  · cases h
    omega

theorem relocatedByte_of_isEmpty (h : module.relocations.isEmpty = true) (offset : Nat) :
    module.relocatedByte offset = module.bytes.getD offset 0 := by
  unfold relocatedByte
  rw [List.isEmpty_iff.mp h]
  rfl

/-- Ranges that match have the same relocated bytes. -/
theorem relocatedByte_of_matches {address : BitVec 32} {size index : Nat}
    (h : removed.relocatedRangeMatches candidate address size = true) (hindex : index < size) :
    removed.relocatedByte
        ((canonicalPhysicalAddress address).toNat - removed.physicalStart + index) =
      candidate.relocatedByte
        ((canonicalPhysicalAddress address).toNat - candidate.physicalStart + index) := by
  unfold relocatedRangeMatches at h
  split at h
  · rename_i leftOffset rightOffset hleft hright
    obtain ⟨-, -, rfl⟩ := moduleOffset_some hleft
    obtain ⟨-, -, rfl⟩ := moduleOffset_some hright
    split at h
    · rename_i hplain
      obtain ⟨hremoved, hcandidate⟩ := Bool.and_eq_true_iff.mp hplain
      rw [relocatedByte_of_isEmpty hremoved, relocatedByte_of_isEmpty hcandidate]
      have hbyte := congrArg (·[index]?) (of_decide_eq_true h)
      simp only [List.getElem?_take_of_lt hindex, List.getElem?_drop] at hbyte
      rw [List.getD_eq_getElem?_getD, List.getD_eq_getElem?_getD, hbyte]
    · exact of_decide_eq_true (List.all_eq_true.mp h index (List.mem_range.mpr hindex))
  · cases h

/-- A byte of a range that may run may run. -/
theorem materializable_byte {start size byte : Nat} (hsize : 0 < size)
    (hstart : (canonicalPhysicalAddress (BitVec.ofNat 32 start)).toNat = start)
    (hbyte : (canonicalPhysicalAddress (BitVec.ofNat 32 byte)).toNat = byte)
    (hlow : start ≤ byte) (hhigh : byte < start + size)
    (h : candidate.materializable (BitVec.ofNat 32 start) size = true) :
    candidate.materializable (BitVec.ofNat 32 byte) 1 = true := by
  rw [materializable_eq] at h ⊢
  obtain ⟨offset, hoffset, hrange⟩ := (Option.any_eq_true _ _).mp h
  obtain ⟨hbegin, hend, rfl⟩ := moduleOffset_some hoffset
  rw [hstart] at hbegin hend hrange
  obtain ⟨hpermission, ⟨hactive, extent, hextent, hfrom, hto⟩, hclear⟩ :=
    (materializableRange_iff hsize).mp hrange
  have hplace : candidate.moduleOffset (BitVec.ofNat 32 byte) 1 =
      some (byte - candidate.physicalStart) := by
    unfold moduleOffset
    dsimp only
    rw [hbyte, if_neg (by omega)]
  rw [hplace, Option.any_some, materializableRange_iff Nat.one_pos]
  refine ⟨hpermission, ⟨hactive, extent, hextent, by omega, by omega⟩, ?_⟩
  intro position hfirst hlast
  exact hclear position (by omega) (by omega)

/-- The bytes of a range that a candidate owns. -/
theorem owns_of_ownedRange {removedExtent candidateExtent : ExecutableModuleActiveExtent}
    {range : Nat × Nat} (hunfolded : ∀ place, removedExtent.offset ≤ place →
      place < removedExtent.offset + removedExtent.size → removed.Unfolded place)
    (hbinding : removed.equivalentBinding candidate = true)
    (h : removed.ownedRange candidate removedExtent candidateExtent = some range)
    (hlow : range.1 ≤ removed.physicalStart + offset)
    (hhigh : removed.physicalStart + offset < range.2) : removed.Owns candidate offset := by
  unfold ownedRange at h
  dsimp only at h
  split at h
  · cases h
  split at h
  · cases h
  rename_i hsome hmatching
  cases h
  simp only [Bool.or_eq_true, Bool.not_eq_true', not_or, Bool.not_eq_false] at hmatching
  obtain ⟨hmaterializable, hmatches⟩ := hmatching
  -- The range begins inside the extent of the removed module.
  have hbegin : removed.physicalStart + removedExtent.offset ≤
      (commonRange removed candidate removedExtent candidateExtent).1 := le_max_left _ _
  have hend : (commonRange removed candidate removedExtent candidateExtent).2 ≤
      removed.physicalStart + removedExtent.offset + removedExtent.size := min_le_left _ _
  generalize commonRange removed candidate removedExtent candidateExtent = range at *
  have hstart := hunfolded (range.1 - removed.physicalStart) (by omega) (by omega)
  have hbyte := hunfolded offset (by omega) (by omega)
  unfold Unfolded at hstart hbyte
  rw [show removed.physicalStart + (range.1 - removed.physicalStart) = range.1 by omega] at hstart
  have hcandidate : candidate.physicalStart ≤ range.1 := by
    rw [materializable_eq] at hmaterializable
    obtain ⟨_, hoffset, -⟩ := (Option.any_eq_true _ _).mp hmaterializable
    rw [← hstart]
    exact (moduleOffset_some hoffset).1
  refine ⟨materializable_byte (by omega) hstart hbyte hlow (by omega) hmaterializable, hbinding, ?_⟩
  have hsame := @relocatedByte_of_matches _ _ _ _ (removed.physicalStart + offset - range.1)
    hmatches (by omega)
  rw [hstart] at hsame
  rw [show removed.physicalStart + offset - candidate.physicalStart =
      range.1 - candidate.physicalStart + (removed.physicalStart + offset - range.1) by omega,
    ← hsame]
  congr 1
  omega

variable {extents : List ExecutableModuleActiveExtent} {guestStart : BitVec 32}

/-- What the extents without an owner leave out is owned. -/
theorem inExtents_foldl_subtract {ranges : List (Nat × Nat)} : InExtents (ranges.foldl
        (fun remaining range => subtractPhysicalRange guestStart range.1 range.2 remaining)
        extents) offset ↔ InExtents extents offset ∧ ∀ range ∈ ranges,
        ¬ (range.1 ≤ (canonicalPhysicalAddress guestStart).toNat + offset ∧
          (canonicalPhysicalAddress guestStart).toNat + offset < range.2) := by
  induction ranges generalizing extents with
  | nil => simp
  | cons range rest ih =>
    rw [List.foldl_cons, ih, inExtents_subtract, List.forall_mem_cons, and_assoc]

theorem inExtents_withoutOwner {place : Nat} (hin : InExtents removed.activeExtents offset)
    (hunfolded : ∀ offset, InExtents removed.activeExtents offset → removed.Unfolded offset) :
    OwnedElsewhere modules removed place offset ∨
      InExtents (removed.extentsWithoutOwner place modules) offset := by
  unfold extentsWithoutOwner
  rw [inExtents_foldl_subtract]
  refine or_iff_not_imp_right.mpr fun howned => ?_
  simp only [hin, true_and, not_forall, not_not] at howned
  obtain ⟨range, hrange, hlow, hhigh⟩ := howned
  obtain ⟨⟨candidate, index⟩, hcandidate, hrange⟩ := List.mem_flatMap.mp hrange
  dsimp only at hrange
  split at hrange
  · cases hrange
  rename_i hother
  unfold ownedRanges at hrange
  split at hrange
  · cases hrange
  rename_i hequivalent
  simp only [Bool.or_eq_true, Bool.not_eq_true', not_or, Bool.not_eq_false] at hequivalent
  obtain ⟨removedExtent, hremovedExtent, hrange⟩ := List.mem_flatMap.mp hrange
  obtain ⟨candidateExtent, -, hrange⟩ := List.mem_filterMap.mp hrange
  refine ⟨index, candidate, hother, List.mem_zipIdx_iff_getElem?.mp hcandidate, ?_⟩
  refine owns_of_ownedRange (fun place hfirst hlast => ?_) hequivalent.2 hrange hlow hhigh
  exact hunfolded place ⟨removedExtent, hremovedExtent, hfirst, hlast⟩

theorem foldl_subtract_inside {length : Nat} (ranges : List (Nat × Nat))
    (h : ∀ extent ∈ extents, extent.size ≠ 0 ∧ extent.offset + extent.size ≤ length) :
    ∀ extent ∈ ranges.foldl
        (fun remaining range => subtractPhysicalRange guestStart range.1 range.2 remaining) extents,
      extent.size ≠ 0 ∧ extent.offset + extent.size ≤ length := by
  induction ranges generalizing extents with
  | nil => exact h
  | cons range rest ih =>
    rw [List.foldl_cons]
    refine ih fun piece hpiece => ?_
    rw [subtractPhysicalRange_eq] at hpiece
    obtain ⟨extent, hextent, hcut⟩ := List.mem_flatMap.mp hpiece
    obtain ⟨hsize, hinside⟩ := h extent hextent
    obtain ⟨-, hend, hpieceSize⟩ := mem_cutExtent hsize hcut
    exact ⟨hpieceSize, hend.trans hinside⟩

/-- The extents without an owner begin at bytes of the module, and lie inside it. -/
theorem withoutOwner_inside {place length : Nat} {extent : ExecutableModuleActiveExtent}
    (h : SoundExtents length removed.activeExtents)
    (hextent : extent ∈ removed.extentsWithoutOwner place modules) :
    extent.size ≠ 0 ∧ extent.offset + extent.size ≤ length ∧
      InExtents removed.activeExtents extent.offset := by
  unfold extentsWithoutOwner at hextent
  obtain ⟨hsize, hinside⟩ := foldl_subtract_inside _ h.inside extent hextent
  have hbegin := inExtents_foldl_subtract.mp
    ⟨extent, hextent, le_rfl, Nat.lt_add_of_pos_right (Nat.pos_of_ne_zero hsize)⟩
  exact ⟨hsize, hinside, hbegin.1⟩

end ExecutableModule

/-! ## Code on a byte -/

namespace CodeOwners
variable {code code' : CodeOwners}

/-- No code that is still valid was validated with the byte. -/
structure Clear (code : CodeOwners) (byte : Nat) : Prop where
  blocks : ∀ id record, code.blocks.ActiveRecord id record → ¬ RuntimeImmutable record.block byte
  tracker : ∀ tracked ∈ code.tracker.blocks, tracked.valid = true →
    ¬ TrackedImmutable tracked.block byte

/-- What holds of the table and the tracker in every run. -/
structure Sound (code : CodeOwners) : Prop where
  blocks : PagesOk code.blocks
  tracker : WellFormed code.tracker

/-- One write clears the bytes that it reaches, and leaves the others as clear as they were. -/
theorem Sound.write (h : code.Sound) {address : BitVec 32} {size : Nat}
    {result : CodeInvalidationResult} {tracker : ExecutableCodeTracker}
    (hcall : code.tracker.observeWrite address size .copy true = .ok (result, tracker)) :
    CodeOwners.Sound ⟨(code.blocks.eraseOverlappingPhysical address size).2, tracker⟩ ∧
      ∀ byte, code.Clear byte ∨ ((canonicalPhysicalAddress address).toNat ≤ byte ∧
          byte < (canonicalPhysicalAddress address).toNat + size) →
        Clear ⟨(code.blocks.eraseOverlappingPhysical address size).2, tracker⟩ byte := by
  obtain ⟨hsize, hspace, -⟩ := observeWrite_cases hcall
  obtain ⟨htracked, -, -⟩ := h.tracker.observeWrite_effects hcall
  have hextent : writeExtent (canonicalPhysicalAddress address) size = size := by
    unfold writeExtent
    split
    · omega
    · rfl
  refine ⟨⟨h.blocks.erase address size, h.tracker.observeWrite hcall⟩, fun byte hbyte => ?_⟩
  constructor
  · intro id record hrecord himmutable
    obtain ⟨hbefore, hmissed⟩ := (h.blocks.activeRecord_erase_iff hsize.ne').mp hrecord
    rcases hbyte with hclear | ⟨hlow, hhigh⟩
    · exact hclear.blocks id record hbefore himmutable
    · rw [hextent] at hmissed
      have hreached := nativeAotWriteOverlapsImmutable_of_byte himmutable hlow hhigh
      unfold reachesBlock at hmissed
      rw [hmissed] at hreached
      cases hreached
  · intro tracked hmem hvalid himmutable
    rw [htracked] at hmem
    obtain ⟨before, hbefore, rfl⟩ := List.mem_map.mp hmem
    rw [invalidateIf_block] at himmutable
    unfold invalidateIf at hvalid
    split at hvalid
    · cases hvalid
    · rename_i hmissed
      rcases hbyte with hclear | ⟨hlow, hhigh⟩
      · exact hclear.tracker before hbefore hvalid himmutable
      · have hreached : reachedBy (canonicalPhysicalAddress address) size before.block = true :=
          nativeAotWriteOverlapsImmutable_of_byte himmutable hlow hhigh
        rw [hvalid] at hmissed
        exact hmissed hreached

/-- All extents are written, each where it lies. -/
theorem Sound.invalidate {guestStart : BitVec 32} {counts : Nat × Nat} {invalidated : Nat}
    {extents : List ExecutableModuleActiveExtent} (h : code.Sound)
    (hunfolded : ∀ extent ∈ extents, (canonicalPhysicalAddress (BitVec.ofNat 32
        ((canonicalPhysicalAddress guestStart).toNat + extent.offset))).toNat =
        (canonicalPhysicalAddress guestStart).toNat + extent.offset)
    (hcall : invalidateActiveExtents guestStart counts code extents = .ok (invalidated, code')) :
    code'.Sound ∧ ∀ offset, code.Clear ((canonicalPhysicalAddress guestStart).toNat + offset) ∨
          InExtents extents offset →
        code'.Clear ((canonicalPhysicalAddress guestStart).toNat + offset) := by
  induction extents generalizing code counts with
  | nil =>
    cases hcall
    refine ⟨h, fun offset hoffset => ?_⟩
    rcases hoffset with hclear | ⟨_, hnone, -⟩
    · exact hclear
    · exact absurd hnone List.not_mem_nil
  | cons extent rest ih =>
    obtain ⟨hhere, hrest⟩ := List.forall_mem_cons.mp hunfolded
    unfold invalidateActiveExtents at hcall
    dsimp only at hcall
    split at hcall
    · cases hcall
    rename_i tracked tracker hobserve
    obtain ⟨hsound, hwritten⟩ := h.write hobserve
    obtain ⟨hsound', hcleared⟩ := ih hsound hrest hcall
    refine ⟨hsound', fun offset hoffset => hcleared offset ?_⟩
    rw [hhere] at hwritten
    rcases hoffset with hclear | ⟨piece, hpiece, hlow, hhigh⟩
    · exact .inl (hwritten _ (.inl hclear))
    · rcases List.mem_cons.mp hpiece with rfl | hpiece
      · exact .inl (hwritten _ (.inr ⟨by omega, by omega⟩))
      · exact .inr ⟨piece, hpiece, hlow, hhigh⟩

end CodeOwners

/-! ## Removal -/

namespace ModuleCatalog
variable {catalog after : ModuleCatalog} {code code' : CodeOwners} {removed : ExecutableModule}
  {place : Nat}

/-- The module at a place is unloaded, or replaced by another one. -/
inductive Removes (catalog : ModuleCatalog) (code : CodeOwners) (place : Nat)
    (after : ModuleCatalog) (code' : CodeOwners) : Prop
  | unload {id : String} (hplace : catalog.indexOf id = some place)
      (hcall : catalog.unload id code = .ok (after, code'))
  | replace {module : ExecutableModule} (hplace : catalog.indexOf module.id = some place)
      (hcall : catalog.replace module code = .ok (after, code'))

/-- A removal invalidates the extents without an owner and leaves the other modules. -/
theorem Removes.spec (h : catalog.Removes code place after code')
    (hremoved : catalog.modules[place]? = some removed) :
    (∃ invalidated, invalidateActiveExtents removed.guestStart (0, 0) code
      (removed.extentsWithoutOwner place catalog.modules) = .ok (invalidated, code')) ∧
      ∀ index module, index ≠ place → catalog.modules[index]? = some module →
        after.modules[index]? = some module := by
  cases h with
  | unload hplace hcall =>
    unfold ModuleCatalog.unload at hcall
    rw [hplace, Option.bind_some, hremoved] at hcall
    obtain ⟨⟨invalidated, code''⟩, hinvalidated, hcall⟩ := bind_eq_ok hcall
    cases hcall
    refine ⟨⟨invalidated, hinvalidated⟩, fun index module hother hmodule => ?_⟩
    change (catalog.modules.set place _)[index]? = _
    rw [List.getElem?_set_ne (Ne.symm hother), hmodule]
  | replace hplace hcall =>
    unfold ModuleCatalog.replace at hcall
    rw [hplace, Option.bind_some, hremoved] at hcall
    obtain ⟨generation, -, hcall⟩ := bind_eq_ok hcall
    obtain ⟨normalized, -, hcall⟩ := bind_eq_ok hcall
    dsimp only at hcall
    split at hcall
    · cases hcall
    obtain ⟨⟨invalidated, code''⟩, hinvalidated, hcall⟩ := bind_eq_ok hcall
    cases hcall
    refine ⟨⟨invalidated, hinvalidated⟩, fun index module hother hmodule => ?_⟩
    change (catalog.modules.set place _ ++ _)[index]? = _
    have hlt := (List.getElem?_eq_some_iff.mp hmodule).1
    rw [List.getElem?_append_left (by rwa [List.length_set]),
      List.getElem?_set_ne (Ne.symm hother), hmodule]

/-- After an unload or a replacement in a run, each byte of the removed module's extents has
another owner, or no valid code was validated with it. The module lies in its mirror. -/
theorem removal_clears_unowned_bytes (hrun : Run catalog)
    {trackers : Nat → ExecutableCodeTracker} {lifetime : Nat} {mode : RuntimeBlockLookupMode}
    {operations : List BlockDispatch.Operation} {s : BlockDispatch}
    (hcreated : ∀ index, ∃ capacity, ExecutableCodeTracker.create capacity = .ok (trackers index))
    (hdispatch : (BlockDispatch.start trackers lifetime mode).run operations = some s) (index : Nat)
    (hremoves : catalog.Removes ⟨s.table, s.trackers index⟩ place after code')
    (hremoved : catalog.modules[place]? = some removed)
    (hunfolded : ∀ offset, InExtents removed.activeExtents offset → removed.Unfolded offset) :
    ∀ offset, InExtents removed.activeExtents offset →
      removed.OwnedElsewhere after.modules place offset ∨
        code'.Clear (removed.physicalStart + offset) := by
  intro offset hin
  have hsound : CodeOwners.Sound ⟨s.table, s.trackers index⟩ :=
    ⟨BlockDispatch.pagesOk_run hdispatch, (MainRam.sound_of_run hcreated hdispatch index).tracker⟩
  obtain ⟨⟨invalidated, hinvalidated⟩, hothers⟩ := hremoves.spec hremoved
  have hextents := (hrun.allSound removed (List.mem_of_getElem? hremoved)).extents
  rcases ExecutableModule.inExtents_withoutOwner hin hunfolded with
    ⟨other, candidate, hother, hcandidate, howns⟩ | hunowned
  · exact .inl ⟨other, candidate, hother, hothers other candidate hother hcandidate, howns⟩
  · refine .inr ((hsound.invalidate (fun extent hextent => ?_) hinvalidated).2 offset
      (.inr hunowned))
    exact hunfolded extent.offset (ExecutableModule.withoutOwner_inside hextents hextent).2.2

/-- A module of four bytes is unloaded, and the block that was compiled from it is gone. -/
theorem removal_clears_unowned_bytes_sample :
    ∃ after code', (ModuleCatalog.append {} (promotableModule [] true)).unload "overlay"
        ⟨MainRam.loadedDispatch.table, MainRam.loadedDispatch.trackers 0⟩ = .ok (after, code') ∧
      code'.Clear 0x0C010000 := by
  have hrun : Run (ModuleCatalog.append {} (promotableModule [] true)) := run_promotableModule rfl
  obtain ⟨after, code', hcall, hlength⟩ : ∃ after code',
      (ModuleCatalog.append {} (promotableModule [] true)).unload "overlay"
        ⟨MainRam.loadedDispatch.table, MainRam.loadedDispatch.trackers 0⟩ = .ok (after, code') ∧
      after.modules.length = 1 := ⟨_, _, rfl, rfl⟩
  have hsound := hrun.allSound (promotableModule [] true) List.mem_cons_self
  have hin : InExtents (promotableModule [] true).activeExtents 0 :=
    ⟨⟨0, 4⟩, List.mem_cons_self, le_rfl, by decide⟩
  have hunfolded : ∀ offset, InExtents (promotableModule [] true).activeExtents offset →
      (promotableModule [] true).Unfolded offset := by
    rintro offset ⟨extent, hextent, -, hhigh⟩
    rw [List.mem_singleton.mp hextent] at hhigh
    exact hsound.unfolded (by decide) hhigh
  refine ⟨after, code', hcall, ?_⟩
  rcases removal_clears_unowned_bytes hrun (fun _ => ⟨1, rfl⟩) MainRam.run_loading 0
      (.unload rfl hcall) rfl hunfolded 0 hin with
    ⟨other, candidate, hother, hcandidate, -⟩ | hclear
  · have hlt := (List.getElem?_eq_some_iff.mp hcandidate).1
    omega
  · exact hclear

/-! ## A module across the mirrors -/

variable {extents : List ExecutableModuleActiveExtent} {guestStart : BitVec 32}

/-- Writes in the address space go through. -/
theorem invalidateActiveExtents_ok (hspace : ∀ extent ∈ extents, extent.size ≠ 0 ∧
      inAddressSpace (canonicalPhysicalAddress (BitVec.ofNat 32
        ((canonicalPhysicalAddress guestStart).toNat + extent.offset))) extent.size = true)
    (counts : Nat × Nat) (code : CodeOwners) :
    ∃ invalidated code', invalidateActiveExtents guestStart counts code extents =
      .ok (invalidated, code') := by
  induction extents generalizing counts code with
  | nil => exact ⟨_, _, rfl⟩
  | cons extent rest ih =>
    obtain ⟨⟨hsize, hinside⟩, hrest⟩ := List.forall_mem_cons.mp hspace
    unfold invalidateActiveExtents observeWrite
    simp only [hsize, hinside, if_false, Bool.not_true, Bool.false_eq_true]
    exact ih hrest _ _

/-- A block that no write of the extents reaches stays active. -/
theorem activeRecord_of_missed {counts : Nat × Nat} {invalidated id : Nat}
    {record : Record} (h : PagesOk code.blocks) (hrecord : code.blocks.ActiveRecord id record)
    (hmissed : ∀ extent ∈ extents, extent.size ≠ 0 ∧
      (reachesBlock (canonicalPhysicalAddress (BitVec.ofNat 32
        ((canonicalPhysicalAddress guestStart).toNat + extent.offset)))
        (writeExtent (canonicalPhysicalAddress (BitVec.ofNat 32
          ((canonicalPhysicalAddress guestStart).toNat + extent.offset))) extent.size)
        record.block) = false)
    (hcall : invalidateActiveExtents guestStart counts code extents = .ok (invalidated, code')) :
    code'.blocks.ActiveRecord id record := by
  induction extents generalizing code counts with
  | nil =>
    cases hcall
    exact hrecord
  | cons extent rest ih =>
    obtain ⟨⟨hsize, hhere⟩, hrest⟩ := List.forall_mem_cons.mp hmissed
    unfold invalidateActiveExtents at hcall
    dsimp only at hcall
    split at hcall
    · cases hcall
    · exact ih (h.erase _ _) ((h.activeRecord_erase_iff hsize).mpr ⟨hrecord, hhere⟩) hrest hcall

/-- A module from the end of the first mirror to the on-chip memory: its ends lie in line, but
the bytes between them do not. -/
def crossingModule (bytes : List (BitVec 8)) (extents : List ExecutableModuleActiveExtent) :
    ExecutableModule where
  id := "overlay"
  sourceIdentity := "disc"
  guestStart := 0x1FFFFFFC
  bytes := bytes
  activeExtents := extents

variable {bytes : List (BitVec 8)}

theorem publish_crossingModule (hlength : bytes.length = 0x5C000005) :
    ModuleCatalog.publish {} (crossingModule bytes []) =
      .ok (ModuleCatalog.append {} (crossingModule bytes [⟨0, 0x5C000005⟩])) := by
  have hbytes : bytes.isEmpty = false := by
    rw [List.isEmpty_eq_false_iff]
    rintro rfl
    cases hlength
  have hvalid : validateAndNormalizeModule (crossingModule bytes []) =
      .ok (crossingModule bytes [⟨0, 0x5C000005⟩]) := by
    unfold validateAndNormalizeModule crossingModule normalizeActiveExtents
      ExecutableModule.endAddress
    simp +decide [hbytes, hlength, normalizeExtents, uint32Max, validateRelocations, pure, bind,
      Except.pure, Except.bind, throw, MonadExcept.throw, throwThe, MonadExceptOf.throw]
  unfold ModuleCatalog.publish
  rw [hvalid]
  rfl

/-- The catalog after a store across the end of the first mirror. -/
def crossedCatalog (bytes : List (BitVec 8)) : ModuleCatalog :=
  (ModuleCatalog.append {} (crossingModule bytes [⟨0, 0x5C000005⟩])).recordRuntimeWrite 0x1FFFFFFE 4
    .cpu true

/-- What the store leaves of the module. -/
def crossedModule (bytes : List (BitVec 8)) : ExecutableModule :=
  crossingModule bytes [⟨0, 2⟩, ⟨6, 0x5BFFFFFF⟩]

theorem crossedCatalog_modules (bytes : List (BitVec 8)) :
    (crossedCatalog bytes).modules = [crossedModule bytes] := by
  have hbase : canonicalPhysicalAddress 0x1FFFFFFC#32 = 0x1FFFFFFC#32 := by decide
  have hcut : (crossingModule bytes [⟨0, 0x5C000005⟩]).subtractRange 0x1FFFFFFE 0x20000002 =
      crossedModule bytes := by
    simp [ExecutableModule.subtractRange, ExecutableModule.overlapsRange,
      ExecutableModule.physicalStart, subtractPhysicalRange, crossedModule, crossingModule, hbase]
  have hlinear : canonicalRangeIsLinear 0x1FFFFFFE 4 = false := by decide
  unfold crossedCatalog recordRuntimeWrite
  rw [if_neg (of_decide_eq_false rfl), if_neg (of_decide_eq_false rfl)]
  dsimp only
  rw [if_neg (of_decide_eq_false rfl), hlinear]
  change [(crossingModule bytes [⟨0, 0x5C000005⟩]).subtractRange 0x1FFFFFFE 0x20000002] = _
  rw [hcut]

theorem run_crossedCatalog (hlength : bytes.length = 0x5C000005) : Run (crossedCatalog bytes) :=
  .store 0x1FFFFFFE 4 .cpu true (.publish .start (publish_crossingModule hlength))

/-- No other module owns the bytes. -/
theorem extentsWithoutOwner_crossedModule (bytes : List (BitVec 8)) :
    (crossedModule bytes).extentsWithoutOwner 0 (crossedCatalog bytes).modules =
      [⟨0, 2⟩, ⟨6, 0x5BFFFFFF⟩] := by
  rw [crossedCatalog_modules]
  rfl

/-- A block in the on-chip memory. -/
def onChipBlock : RuntimeBlock where
  virtualStart := 0x7C000000
  physicalOrigin := 0x7C000000
  size := 4
  function := some 1
  provenance := "loaded"

def onChipRecord : Record where
  block := onChipBlock
  identity := stableRuntimeBlockIdentity onChipBlock
  staticBlock := true

def onChipDispatch : BlockDispatch :=
  { BlockDispatch.start BlockDispatch.emptyTrackers 1 .direct with
    table := (({ dispatchLifetime := 1 } : RuntimeBlockTable).registerStatic onChipBlock).2 }

theorem run_onChipDispatch :
    (BlockDispatch.start BlockDispatch.emptyTrackers 1 .direct).run [.registerStatic onChipBlock] =
      some onChipDispatch := rfl

theorem activeRecord_onChipDispatch : onChipDispatch.table.ActiveRecord 1 onChipRecord := ⟨rfl, rfl⟩

theorem unload_returns {catalog : ModuleCatalog} {id : String} {index : Nat}
    {module : ExecutableModule} {code code' : CodeOwners} {invalidated : Nat}
    (hindex : catalog.indexOf id = some index) (hmodule : catalog.modules[index]? = some module)
    (hinvalidated : invalidateActiveExtents module.guestStart (0, 0) code
      (module.extentsWithoutOwner index catalog.modules) = .ok (invalidated, code')) :
    catalog.unload id code = .ok (catalog.retireModule index module invalidated, code') := by
  simp only [unload, hindex, Option.bind_some, hmodule, Option.map_some, hinvalidated]
  rfl

/-- The second extent is written at the address that its first byte is folded onto, and the
write stops before the last byte of the module: the block there stays active. -/
theorem crossedModule_removed (bytes : List (BitVec 8)) :
    ∃ after code', (crossedCatalog bytes).Removes
        ⟨onChipDispatch.table, onChipDispatch.trackers 0⟩ 0 after code' ∧
      ¬ ((crossedModule bytes).OwnedElsewhere after.modules 0 0x5C000004 ∨
        code'.Clear ((crossedModule bytes).physicalStart + 0x5C000004)) := by
  have hindex : (crossedCatalog bytes).indexOf "overlay" = some 0 := by
    unfold indexOf
    rw [crossedCatalog_modules]
    rfl
  have hspace : ∀ extent ∈ ([⟨0, 2⟩, ⟨6, 0x5BFFFFFF⟩] : List ExecutableModuleActiveExtent),
      extent.size ≠ 0 ∧ inAddressSpace (canonicalPhysicalAddress (BitVec.ofNat 32
        ((canonicalPhysicalAddress 0x1FFFFFFC).toNat + extent.offset))) extent.size = true := by
    decide +kernel
  have hmissed : ∀ extent ∈ ([⟨0, 2⟩, ⟨6, 0x5BFFFFFF⟩] : List ExecutableModuleActiveExtent),
      extent.size ≠ 0 ∧ (reachesBlock (canonicalPhysicalAddress (BitVec.ofNat 32
        ((canonicalPhysicalAddress 0x1FFFFFFC).toNat + extent.offset)))
        (writeExtent (canonicalPhysicalAddress (BitVec.ofNat 32
          ((canonicalPhysicalAddress 0x1FFFFFFC).toNat + extent.offset))) extent.size)
        onChipRecord.block) = false := by
    decide +kernel
  obtain ⟨invalidated, code', hinvalidated⟩ := invalidateActiveExtents_ok hspace (0, 0)
    ⟨onChipDispatch.table, onChipDispatch.trackers 0⟩
  have hcall : (crossedCatalog bytes).unload "overlay"
      ⟨onChipDispatch.table, onChipDispatch.trackers 0⟩ =
        .ok ((crossedCatalog bytes).retireModule 0 (crossedModule bytes) invalidated, code') := by
    refine unload_returns hindex (by rw [crossedCatalog_modules, List.getElem?_cons_zero]) ?_
    rw [extentsWithoutOwner_crossedModule]
    exact hinvalidated
  refine ⟨_, code', .unload hindex hcall, ?_⟩
  rintro (⟨index, candidate, hother, hcandidate, -⟩ | hclear)
  · have hlt := (List.getElem?_eq_some_iff.mp hcandidate).1
    unfold retireModule at hlt
    dsimp only at hlt
    rw [List.length_set, crossedCatalog_modules, List.length_singleton] at hlt
    omega
  · have hactive := activeRecord_of_missed (BlockDispatch.pagesOk_run run_onChipDispatch)
      activeRecord_onChipDispatch hmissed hinvalidated
    have hbyte : (crossedModule bytes).physicalStart + 0x5C000004 = 0x7C000000 := by
      change (canonicalPhysicalAddress 0x1FFFFFFC).toNat + 0x5C000004 = 0x7C000000
      decide
    rw [hbyte] at hclear
    exact hclear.blocks 1 onChipRecord hactive ⟨by decide, by decide, by
      simp [RuntimeBlock.validationMutableRanges, onChipRecord, onChipBlock]⟩

/-- A module of which a store has left two extents is unloaded, and a block on its last bytes
stays active without an owner. -/
theorem removal_misses_folded_bytes : ∃ catalog after s code' removed, Run catalog ∧
      (BlockDispatch.start BlockDispatch.emptyTrackers 1 .direct).run
        [.registerStatic onChipBlock] = some s ∧ catalog.modules[0]? = some removed ∧
      catalog.Removes ⟨s.table, s.trackers 0⟩ 0 after code' ∧
      InExtents removed.activeExtents 0x5C000004 ∧
      ¬ (removed.OwnedElsewhere after.modules 0 0x5C000004 ∨
        code'.Clear (removed.physicalStart + 0x5C000004)) := by
  obtain ⟨after, code', hremoves, hleft⟩ := crossedModule_removed (List.replicate 0x5C000005 0)
  refine ⟨_, after, onChipDispatch, code', crossedModule (List.replicate 0x5C000005 0),
    run_crossedCatalog List.length_replicate, run_onChipDispatch, ?_, hremoves, ?_, hleft⟩
  · rw [crossedCatalog_modules, List.getElem?_cons_zero]
  · exact ⟨⟨6, 0x5BFFFFFF⟩, List.mem_cons_of_mem _ List.mem_cons_self, by decide, by decide⟩

end ModuleCatalog
end KatanaRecomp.Runtime
