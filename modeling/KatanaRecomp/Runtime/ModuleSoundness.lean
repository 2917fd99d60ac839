import KatanaRecomp.Lib.StateExcept
import KatanaRecomp.Runtime.ModuleCatalog

/-! # What validation makes of a module

Extents and roles lie inside the bytes, and the extents are in order and apart. A range
that is taken from the extents takes its own bytes and no others. -/
namespace KatanaRecomp.Runtime
open Lib (bind_eq_ok)

/-! ## Extents -/

/-- Extents inside the bytes, in order and with gaps between them. -/
structure SoundExtents (length : Nat) (extents : List ExecutableModuleActiveExtent) : Prop where
  inside : ∀ extent ∈ extents, extent.size ≠ 0 ∧ extent.offset + extent.size ≤ length
  apart : extents.Pairwise fun left right => left.offset + left.size < right.offset

theorem SoundExtents.nil (length : Nat) : SoundExtents length [] :=
  ⟨fun _ h => (nomatch h), List.Pairwise.nil⟩

/-- What a range leaves of one extent. -/
def cutExtent (moduleBase physicalBegin physicalEnd : Nat) (extent : ExecutableModuleActiveExtent) :
    List ExecutableModuleActiveExtent :=
  let extentBegin := moduleBase + extent.offset
  let extentEnd := extentBegin + extent.size
  if physicalBegin ≥ extentEnd ∨ extentBegin ≥ physicalEnd then [extent]
  else
    let overlapBegin := max physicalBegin extentBegin
    let overlapEnd := min physicalEnd extentEnd
    (if extentBegin < overlapBegin then
      [{ offset := extent.offset, size := overlapBegin - extentBegin }] else []) ++
    (if overlapEnd < extentEnd then
      [{ offset := overlapEnd - moduleBase, size := extentEnd - overlapEnd }] else [])

theorem subtractPhysicalRange_eq (guestStart : BitVec 32) (physicalBegin physicalEnd : Nat)
    (extents : List ExecutableModuleActiveExtent) :
    subtractPhysicalRange guestStart physicalBegin physicalEnd extents =
      extents.flatMap (cutExtent (canonicalPhysicalAddress guestStart).toNat physicalBegin
        physicalEnd) := rfl

variable {physicalBegin physicalEnd : Nat} {extent : ExecutableModuleActiveExtent}
  {moduleBase : Nat}

theorem mem_cutExtent {piece : ExecutableModuleActiveExtent} (hsize : extent.size ≠ 0)
    (h : piece ∈ cutExtent moduleBase physicalBegin physicalEnd extent) :
    extent.offset ≤ piece.offset ∧
      piece.offset + piece.size ≤ extent.offset + extent.size ∧ piece.size ≠ 0 := by
  unfold cutExtent at h
  dsimp only at h
  split at h
  · rw [List.mem_singleton.mp h]
    exact ⟨le_rfl, le_rfl, hsize⟩
  · rcases List.mem_append.mp h with hleft | hright
    · split at hleft
      · rw [List.mem_singleton.mp hleft]
        dsimp only
        omega
      · cases hleft
    · split at hright
      · rw [List.mem_singleton.mp hright]
        dsimp only
        omega
      · cases hright

theorem cutExtent_pairwise (hrange : physicalBegin < physicalEnd) :
    (cutExtent moduleBase physicalBegin physicalEnd extent).Pairwise fun left right =>
      left.offset + left.size < right.offset := by
  unfold cutExtent
  dsimp only
  split
  · exact List.pairwise_singleton _ _
  · split
    · split
      · refine List.pairwise_pair.mpr ?_
        dsimp only
        omega
      · exact List.pairwise_singleton _ _
    · split
      · exact List.pairwise_singleton _ _
      · exact List.Pairwise.nil

/-- The offset lies in one of the extents. -/
def InExtents (extents : List ExecutableModuleActiveExtent) (offset : Nat) : Prop :=
  ∃ extent ∈ extents, extent.offset ≤ offset ∧ offset < extent.offset + extent.size

theorem inExtents_cutExtent {offset : Nat} :
    InExtents (cutExtent moduleBase physicalBegin physicalEnd extent) offset ↔
      (extent.offset ≤ offset ∧ offset < extent.offset + extent.size) ∧
        ¬ (physicalBegin ≤ moduleBase + offset ∧ moduleBase + offset < physicalEnd) := by
  unfold InExtents cutExtent
  dsimp only
  split
  · simp only [List.mem_singleton, exists_eq_left]
    omega
  · constructor
    · rintro ⟨piece, hpiece, hlow, hhigh⟩
      rcases List.mem_append.mp hpiece with hleft | hright
      · split at hleft
        · rw [List.mem_singleton.mp hleft] at hlow hhigh
          dsimp only at hlow hhigh
          omega
        · cases hleft
      · split at hright
        · rw [List.mem_singleton.mp hright] at hlow hhigh
          dsimp only at hlow hhigh
          omega
        · cases hright
    · rintro ⟨⟨hlow, hhigh⟩, hout⟩
      by_cases hbefore : moduleBase + offset < physicalBegin
      · refine ⟨⟨extent.offset, max physicalBegin (moduleBase + extent.offset) -
          (moduleBase + extent.offset)⟩, List.mem_append_left _ ?_, hlow, ?_⟩
        · rw [if_pos (by omega)]
          exact List.mem_singleton_self _
        · dsimp only
          omega
      · refine ⟨⟨min physicalEnd (moduleBase + extent.offset + extent.size) - moduleBase,
          moduleBase + extent.offset + extent.size -
            min physicalEnd (moduleBase + extent.offset + extent.size)⟩,
          List.mem_append_right _ ?_, ?_, ?_⟩
        · rw [if_pos (by omega)]
          exact List.mem_singleton_self _
        · dsimp only
          omega
        · dsimp only
          omega

variable {extents : List ExecutableModuleActiveExtent}

/-- A range takes its own bytes and no others. -/
theorem inExtents_subtract {guestStart : BitVec 32} {offset : Nat} :
    InExtents (subtractPhysicalRange guestStart physicalBegin physicalEnd extents) offset ↔
      InExtents extents offset ∧
        ¬ (physicalBegin ≤ (canonicalPhysicalAddress guestStart).toNat + offset ∧
          (canonicalPhysicalAddress guestStart).toNat + offset < physicalEnd) := by
  rw [subtractPhysicalRange_eq]
  constructor
  · rintro ⟨piece, hpiece, hoffset⟩
    obtain ⟨extent, hextent, hcut⟩ := List.mem_flatMap.mp hpiece
    obtain ⟨hin, hout⟩ := inExtents_cutExtent.mp ⟨piece, hcut, hoffset⟩
    exact ⟨⟨extent, hextent, hin⟩, hout⟩
  · rintro ⟨⟨extent, hextent, hin⟩, hout⟩
    obtain ⟨piece, hcut, hoffset⟩ := inExtents_cutExtent.mpr ⟨hin, hout⟩
    exact ⟨piece, List.mem_flatMap.mpr ⟨extent, hextent, hcut⟩, hoffset⟩

theorem SoundExtents.subtract {length : Nat} (h : SoundExtents length extents)
    (guestStart : BitVec 32) (hrange : physicalBegin < physicalEnd) :
    SoundExtents length (subtractPhysicalRange guestStart physicalBegin physicalEnd extents) := by
  rw [subtractPhysicalRange_eq]
  constructor
  · intro piece hpiece
    obtain ⟨extent, hextent, hcut⟩ := List.mem_flatMap.mp hpiece
    obtain ⟨hsize, hinside⟩ := h.inside extent hextent
    obtain ⟨-, hend, hpieceSize⟩ := mem_cutExtent hsize hcut
    exact ⟨hpieceSize, hend.trans hinside⟩
  · refine List.pairwise_flatMap.mpr ⟨fun extent _ => cutExtent_pairwise hrange, ?_⟩
    refine h.apart.imp_of_mem fun {left right} hleft hright hapart piece hpiece other hother => ?_
    obtain ⟨-, hend, -⟩ := mem_cutExtent (h.inside left hleft).1 hpiece
    obtain ⟨hstart, -, -⟩ := mem_cutExtent (h.inside right hright).1 hother
    omega

theorem normalizeExtents_sound {length : Nat} {normalized rest extents :
      List ExecutableModuleActiveExtent} (hnormalized : SoundExtents length normalized)
    (h : normalizeExtents length normalized rest = .ok extents) : SoundExtents length extents := by
  induction rest generalizing normalized with
  | nil =>
    cases h
    exact hnormalized
  | cons extent rest ih =>
    unfold normalizeExtents at h
    split at h
    · cases h
    rename_i hfits
    have hextent : extent.size ≠ 0 ∧ extent.offset + extent.size ≤ length := by omega
    split at h
    · rename_i hlast
      rw [List.getLast?_eq_none_iff.mp hlast] at h
      refine ih ⟨fun other hother => ?_, List.pairwise_singleton _ _⟩ h
      rw [List.mem_singleton.mp hother]
      exact hextent
    · rename_i last hlast
      obtain ⟨front, hfront⟩ := List.getLast?_eq_some_iff.mp hlast
      subst hfront
      obtain ⟨hfrontApart, -, hbefore⟩ := List.pairwise_append.mp hnormalized.apart
      have hlastFits := hnormalized.inside last (List.mem_append_right _ List.mem_cons_self)
      split at h
      · cases h
      split at h
      · rename_i hadjacent
        rw [List.dropLast_concat] at h
        refine ih ⟨fun other hother => ?_, List.pairwise_append.mpr
          ⟨hfrontApart, List.pairwise_singleton _ _, fun left hleft right hright => ?_⟩⟩ h
        · rcases List.mem_append.mp hother with hold | hnew
          · exact hnormalized.inside other (List.mem_append_left _ hold)
          · rw [List.mem_singleton.mp hnew]
            dsimp only
            omega
        · rw [List.mem_singleton.mp hright]
          exact hbefore left hleft last List.mem_cons_self
      · refine ih ⟨fun other hother => ?_, List.pairwise_append.mpr
          ⟨hnormalized.apart, List.pairwise_singleton _ _, fun left hleft right hright => ?_⟩⟩ h
        · rcases List.mem_append.mp hother with hold | hnew
          · exact hnormalized.inside other hold
          · rw [List.mem_singleton.mp hnew]
            exact hextent
        · rw [List.mem_singleton.mp hright]
          rcases List.mem_append.mp hleft with hold | hsame
          · have hleftLast := hbefore left hold last List.mem_cons_self
            omega
          · rw [List.mem_singleton.mp hsame]
            omega

/-! ## Modules -/

/-- What validation establishes and the catalog keeps. -/
structure ExecutableModule.Sound (module : ExecutableModule) : Prop where
  named : module.id.isEmpty = false ∧ module.sourceIdentity.isEmpty = false
  filled : module.bytes.isEmpty = false ∧ module.bytes.length ≤ uint32Max
  aligned : module.guestStart &&& 1 = 0
  generations : module.generation ≠ 0 ∧ module.relocationGeneration ≠ 0
  ending : module.endAddress ≤ 2 ^ 32
  linear : canonicalRangeIsLinear module.guestStart module.bytes.length = true
  extents : SoundExtents module.bytes.length module.activeExtents
  roles : ∀ range ∈ module.rangeRoles,
    range.size ≠ 0 ∧ range.offset + range.size ≤ module.bytes.length

namespace ExecutableModule
variable {module : ExecutableModule} {normalized : ExecutableModule}

theorem normalizeActiveExtents_ok (h : normalizeActiveExtents module = .ok normalized) :
    ∃ extents, normalized = { module with activeExtents := extents } ∧
      SoundExtents module.bytes.length extents := by
  unfold normalizeActiveExtents at h
  obtain ⟨extents, hextents, hsame⟩ := bind_eq_ok h
  cases hsame
  exact ⟨extents, rfl, normalizeExtents_sound (.nil _) hextents⟩

/-- Validation keeps a module but for its extents, and what it keeps is sound. -/
theorem validate_ok (h : validateAndNormalizeModule module = .ok normalized) :
    ∃ extents, normalized = { module with activeExtents := extents, active := true } ∧
      normalized.Sound := by
  unfold validateAndNormalizeModule at h
  dsimp only at h
  split at h
  · cases h
  rename_i hidentity
  split at h
  · cases h
  rename_i hending
  split at h
  · cases h
  rename_i hlinear
  obtain ⟨extended, hextended, h⟩ := bind_eq_ok h
  obtain ⟨extents, rfl, hextents⟩ := normalizeActiveExtents_ok hextended
  dsimp only at h
  split at h
  · cases h
  obtain ⟨_, -, h⟩ := bind_eq_ok h
  split at h
  · cases h
  rename_i hroles
  cases h
  simp only [not_or, Bool.not_eq_true] at hidentity
  obtain ⟨hid, hsource, hbytes, hsize, haligned, hgeneration, hrelocation⟩ := hidentity
  refine ⟨extents, rfl, ⟨hid, hsource⟩, ⟨hbytes, Nat.le_of_not_lt hsize⟩, not_ne_iff.mp haligned,
    ⟨hgeneration, hrelocation⟩, Nat.le_of_not_lt hending, ?_, hextents, fun range hrange => ?_⟩
  · rwa [Bool.not_eq_true', Bool.not_eq_false] at hlinear
  · rw [Bool.not_eq_true, List.any_eq_false] at hroles
    have hrole := hroles range hrange
    simp only [Bool.or_eq_true, decide_eq_true_eq, not_or] at hrole
    change range.size ≠ 0 ∧ range.offset + range.size ≤ module.bytes.length
    omega

variable (h : module.Sound)
include h

theorem Sound.withGeneration {generation : Nat} (hne : generation ≠ 0) :
    Sound { module with generation := generation } :=
  ⟨h.named, h.filled, h.aligned, ⟨hne, h.generations.2⟩, h.ending, h.linear, h.extents, h.roles⟩

theorem Sound.withExtents (hextents : SoundExtents module.bytes.length extents) (active : Bool) :
    Sound { module with activeExtents := extents, active := active } :=
  ⟨h.named, h.filled, h.aligned, h.generations, h.ending, h.linear, hextents, h.roles⟩

theorem Sound.subtractRange (hrange : physicalBegin < physicalEnd) :
    (module.subtractRange physicalBegin physicalEnd).Sound := by
  unfold ExecutableModule.subtractRange
  split
  · exact h
  · exact h.withExtents (h.extents.subtract module.guestStart hrange) _

theorem Sound.withRelocations (relocations : List ExecutableModuleRelocation) :
    Sound { module with
      relocations := relocations, relocationGeneration := module.relocationGeneration + 1 } :=
  ⟨h.named, h.filled, h.aligned, ⟨h.generations.1, Nat.succ_ne_zero _⟩, h.ending, h.linear,
    h.extents, h.roles⟩

omit h

end ExecutableModule
end KatanaRecomp.Runtime
