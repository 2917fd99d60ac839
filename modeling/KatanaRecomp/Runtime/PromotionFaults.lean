import KatanaRecomp.Runtime.MainRam
import KatanaRecomp.Runtime.WritePromotion

/-! # When a promotion throws

The limits of a promotion are taken from where the other extents begin, and the check at
its end is about all bytes. The two disagree on an extent that ends behind the first byte
of the target, and on an extent that two modules have in common. -/
namespace KatanaRecomp.Runtime
open Lib (bind_eq_ok mapM_eq_ok)

/-! ## Validation -/

/-- Extents in order and with gaps are normal. -/
theorem normalizeExtents_of_sound {length : Nat} {normalized rest : List ExecutableModuleActiveExtent}
    (h : SoundExtents length (normalized ++ rest)) :
    normalizeExtents length normalized rest = .ok (normalized ++ rest) := by
  induction rest generalizing normalized with
  | nil =>
    rw [List.append_nil]
    rfl
  | cons extent rest ih =>
    have hfits := h.inside extent (List.mem_append_right _ List.mem_cons_self)
    have hshift : normalized ++ extent :: rest = (normalized ++ [extent]) ++ rest := by
      rw [List.append_assoc, List.singleton_append]
    unfold normalizeExtents
    rw [if_neg (by omega)]
    rw [hshift] at h ⊢
    cases hlast : normalized.getLast? with
    | none => exact ih h
    | some last =>
      have hgap : last.offset + last.size < extent.offset := by
        obtain ⟨hboth, -, -⟩ := List.pairwise_append.mp h.apart
        obtain ⟨-, -, hbefore⟩ := List.pairwise_append.mp hboth
        exact hbefore last (List.mem_of_getLast? hlast) extent (List.mem_singleton_self _)
      dsimp only
      rw [if_neg (by omega), if_neg (by omega)]
      exact ih h

namespace ExecutableModule
variable {module : ExecutableModule}

theorem normalizeActiveExtents_of_sound (h : SoundExtents module.bytes.length module.activeExtents)
    (hsome : module.activeExtents ≠ []) : normalizeActiveExtents module = .ok module := by
  have hsorted : module.activeExtents.Pairwise fun left right => left.offset ≤ right.offset :=
    h.apart.imp fun hlt => by omega
  unfold normalizeActiveExtents
  rw [if_neg (by simpa using hsome)]
  dsimp only
  rw [hsorted.insertionSort_eq]
  rw [@normalizeExtents_of_sound module.bytes.length [] module.activeExtents h]
  rfl

/-- A sound module without relocations passes where its extents lie in line. -/
theorem validate_returns {extents : List ExecutableModuleActiveExtent} (h : module.Sound)
    (hnormal : normalizeActiveExtents module = .ok { module with activeExtents := extents })
    (hlinear : ∀ extent ∈ extents,
      canonicalRangeIsLinear (module.guestStart + BitVec.ofNat 32 extent.offset) extent.size = true)
    (hrelocations : module.relocations = []) : validateAndNormalizeModule module =
      .ok { module with activeExtents := extents, active := true } := by
  have hidentity : ¬ (module.id.isEmpty = true ∨ module.sourceIdentity.isEmpty = true ∨
      module.bytes.isEmpty = true ∨ module.bytes.length > uint32Max ∨
      module.guestStart &&& 1 ≠ 0 ∨ module.generation = 0 ∨ module.relocationGeneration = 0) := by
    have hlength := h.filled.2
    simp only [h.named.1, h.named.2, h.filled.1, h.aligned, h.generations.1, h.generations.2,
      ne_eq, not_true_eq_false, Bool.false_eq_true, false_or, or_false]
    omega
  have hending := h.ending
  have hroles : ¬ (module.rangeRoles.any fun range => range.size = 0 ||
      range.offset > module.bytes.length || range.size > module.bytes.length - range.offset) = true := by
    rw [Bool.not_eq_true, List.any_eq_false]
    intro range hrange
    have hrole := h.roles range hrange
    simp only [Bool.or_eq_true, decide_eq_true_eq]
    omega
  have hextents : ¬ (extents.any fun extent => !canonicalRangeIsLinear
      (module.guestStart + BitVec.ofNat 32 extent.offset) extent.size) = true := by
    rw [Bool.not_eq_true, List.any_eq_false]
    intro extent hextent
    rw [hlinear extent hextent]
    decide
  unfold validateAndNormalizeModule
  rw [if_neg hidentity, if_neg (Nat.not_lt.mpr hending), h.linear, if_neg (by decide), hnormal]
  change (if (extents.any fun extent => !canonicalRangeIsLinear
      (module.guestStart + BitVec.ofNat 32 extent.offset) extent.size) = true then _ else _) = _
  rw [if_neg hextents]
  unfold validateRelocations
  dsimp only
  rw [hrelocations]
  change (if (module.rangeRoles.any fun range => range.size = 0 ||
      range.offset > module.bytes.length || range.size > module.bytes.length - range.offset) = true
    then _ else _) = _
  rw [if_neg hroles]
  rfl

/-- The extents of a module that passed lie in line. -/
theorem validate_linear {normalized : ExecutableModule}
    (h : validateAndNormalizeModule module = .ok normalized) : ∀ extent ∈ normalized.activeExtents,
      canonicalRangeIsLinear (normalized.guestStart + BitVec.ofNat 32 extent.offset) extent.size =
        true := by
  unfold validateAndNormalizeModule at h
  dsimp only at h
  split at h
  · cases h
  split at h
  · cases h
  split at h
  · cases h
  obtain ⟨extended, -, h⟩ := bind_eq_ok h
  split at h
  · cases h
  rename_i hlinear
  obtain ⟨_, -, h⟩ := bind_eq_ok h
  split at h
  · cases h
  cases h
  intro extent hextent
  rw [Bool.not_eq_true, List.any_eq_false] at hlinear
  have hhere := hlinear extent hextent
  rw [Bool.not_eq_true', Bool.not_eq_false] at hhere
  exact hhere

/-- A module that is active on all of its bytes is apart from an extent when they are. -/
theorem physicalExtentsOverlap_single {rightGuestStart : BitVec 32}
    {rightExtents : List ExecutableModuleActiveExtent} {size : Nat} {active : Bool} :
    physicalExtentsOverlap { module with activeExtents := [⟨0, size⟩], active := active }
        rightGuestStart rightExtents = false ↔ ∀ extent ∈ rightExtents,
        (canonicalPhysicalAddress rightGuestStart).toNat + extent.offset + extent.size ≤
            module.physicalStart ∨ module.physicalStart + size ≤
            (canonicalPhysicalAddress rightGuestStart).toNat + extent.offset := by
  rw [ModuleCatalog.physicalExtentsOverlap_eq_false, List.forall_mem_singleton]
  rfl

/-- A range lies in line when its last byte does. -/
theorem canonicalRangeIsLinear_iff {address : BitVec 32} {size : Nat} (hsize : size ≠ 0)
    (hspace : address.toNat + size ≤ 2 ^ 32) : canonicalRangeIsLinear address size = true ↔
      (canonicalPhysicalAddress (BitVec.ofNat 32 (address.toNat + (size - 1)))).toNat =
        (canonicalPhysicalAddress address).toNat + (size - 1) := by
  have hlt := (canonicalPhysicalAddress (BitVec.ofNat 32 (address.toNat + (size - 1)))).isLt
  unfold canonicalRangeIsLinear
  rw [ModuleCatalog.add_ofNat_eq]
  simp only [Bool.and_eq_true, decide_eq_true_eq]
  unfold uint32Max
  omega

end ExecutableModule

namespace ModuleCatalog
variable {catalog after : ModuleCatalog} {memory : Memory} {address maximumBytes : BitVec 32}

/-! ## Captures -/

/-- The module of written bytes passes where its last byte lies in line. -/
theorem capture_validates {number : Nat} {bytes : List (BitVec 8)} (heven : address &&& 1 = 0)
    (hfilled : bytes ≠ []) (hspace : address.toNat + bytes.length ≤ 2 ^ 32)
    (hsize : bytes.length ≤ uint32Max) :
    (∃ normalized, validateAndNormalizeModule (runtimeWriteModule number address bytes) =
      .ok normalized) ↔
      (canonicalPhysicalAddress (BitVec.ofNat 32 (address.toNat + (bytes.length - 1)))).toNat =
        (canonicalPhysicalAddress address).toNat + (bytes.length - 1) := by
  have hlength : bytes.length ≠ 0 := fun hzero => hfilled (List.eq_nil_of_length_eq_zero hzero)
  rw [← ExecutableModule.canonicalRangeIsLinear_iff hlength hspace]
  constructor
  · rintro ⟨normalized, hnormalized⟩
    obtain ⟨extents, rfl, hsound⟩ := ExecutableModule.validate_ok hnormalized
    exact hsound.linear
  · intro hlinear
    have hsound : ExecutableModule.Sound (runtimeWriteModule number address bytes) := by
      refine ⟨⟨?_, rfl⟩, ⟨?_, hsize⟩, heven, ⟨Nat.one_ne_zero, Nat.one_ne_zero⟩, hspace, hlinear,
        .nil _, ?_⟩
      · unfold runtimeWriteModule runtimeWriteModuleIdPrefix
        simp
      · simpa [runtimeWriteModule] using hfilled
      · intro range hrange
        rw [List.mem_singleton.mp hrange]
        exact ⟨hlength, (Nat.zero_add _).le⟩
    refine ⟨_, ExecutableModule.validate_returns hsound
      (normalizeActiveExtents_whole rfl hfilled) ?_ rfl⟩
    intro extent hextent
    rw [List.mem_singleton.mp hextent]
    change canonicalRangeIsLinear (address + 0#32) bytes.length = true
    rw [BitVec.add_zero]
    exact hlinear

/-- A publication goes through where the module passes, its identity is free and no active
extent has one of its bytes. -/
theorem publish_returns_iff {module : ExecutableModule} : (∃ after, catalog.publish module = .ok after) ↔
    ∃ normalized, validateAndNormalizeModule module = .ok normalized ∧
      (catalog.find normalized.id).isSome = false ∧
      (∀ existing ∈ catalog.modules, existing.active = true →
        physicalExtentsOverlap normalized existing.guestStart existing.activeExtents = false) ∧
      ∃ generation, catalog.nextIncarnation normalized.id normalized.generation = .ok generation := by
  constructor
  · rintro ⟨after, h⟩
    unfold publish at h
    obtain ⟨normalized, hnormalized, h⟩ := bind_eq_ok h
    dsimp only at h
    split at h
    · cases h
    rename_i hfree
    split at h
    · cases h
    rename_i hapart
    obtain ⟨generation, hgeneration, h⟩ := bind_eq_ok h
    refine ⟨normalized, hnormalized, by simpa using hfree, fun existing hexisting hactive => ?_,
      generation, hgeneration⟩
    rw [Bool.not_eq_true, List.any_eq_false] at hapart
    have hclear := hapart existing hexisting
    rw [hactive, Bool.true_and, Bool.not_eq_true] at hclear
    exact hclear
  · rintro ⟨normalized, hnormalized, hfree, hapart, generation, hgeneration⟩
    have hclear : ¬ (catalog.modules.any fun existing => existing.active &&
        physicalExtentsOverlap normalized existing.guestStart existing.activeExtents) = true := by
      rw [Bool.not_eq_true, List.any_eq_false]
      intro existing hexisting hboth
      obtain ⟨hactive, hoverlap⟩ := Bool.and_eq_true_iff.mp hboth
      rw [hapart existing hexisting hactive] at hoverlap
      cases hoverlap
    refine ⟨catalog.append { normalized with generation := generation }, ?_⟩
    unfold publish
    rw [hnormalized]
    change (if (catalog.find normalized.id).isSome = true then _ else _) = _
    rw [hfree, if_neg Bool.false_ne_true, if_neg hclear]
    change (catalog.nextIncarnation normalized.id normalized.generation >>= _) = _
    rw [hgeneration]
    rfl

theorem mapM_returns_iff {α β ε : Type} {f : α → Except ε β} {l : List α} :
    (∃ results, l.mapM f = .ok results) ↔ ∀ a ∈ l, ∃ b, f a = .ok b := by
  induction l with
  | nil => exact iff_of_true ⟨[], rfl⟩ fun _ h => absurd h List.not_mem_nil
  | cons a rest ih =>
    rw [List.forall_mem_cons, ← ih, List.mapM_cons]
    constructor
    · rintro ⟨results, h⟩
      obtain ⟨b, hb, h⟩ := bind_eq_ok h
      obtain ⟨others, hothers, -⟩ := bind_eq_ok h
      exact ⟨⟨b, hb⟩, others, hothers⟩
    · rintro ⟨⟨b, hb⟩, others, hothers⟩
      refine ⟨b :: others, ?_⟩
      rw [hb, hothers]
      rfl

/-- When a capture goes through: each byte of it can be read, the last one lies in line, no
active extent ends behind the first one, and the identity of the module is free. -/
structure CaptureReady (catalog : ModuleCatalog) (memory : Memory)
    (address maximumBytes : BitVec 32) : Prop where
  readable : ∀ position, catalog.Captures memory address maximumBytes (position / 2 * 2 + 1) →
    ∃ byte, memory.readU8 (BitVec.ofNat 32 (address.toNat + position)) = .ok byte
  inLine : ∀ pair, catalog.Captures memory address maximumBytes (2 * pair + 1) →
    ¬ catalog.Captures memory address maximumBytes (2 * pair + 3) →
      (canonicalPhysicalAddress (BitVec.ofNat 32 (address.toNat + (2 * pair + 1)))).toNat =
        (canonicalPhysicalAddress address).toNat + (2 * pair + 1)
  clear : catalog.Captures memory address maximumBytes 1 →
    ∀ extent ∈ catalog.otherExtents none, extent.2 ≠ (canonicalPhysicalAddress address).toNat + 1
  fresh : catalog.Captures memory address maximumBytes 1 →
    (catalog.find (runtimeWriteModuleIdPrefix ++ toString catalog.nextRuntimeWriteModule)).isSome =
      false ∧ ∃ generation, catalog.nextIncarnation
        (runtimeWriteModuleIdPrefix ++ toString catalog.nextRuntimeWriteModule) 1 = .ok generation

/-- An extent that begins at the target or before it, and does not contain it, ends behind its
first byte at the latest. -/
theorem otherExtents_of_unresolved (hsound : AllSound catalog)
    (hnone : catalog.resolveIndex address 2 = none) : ∀ extent ∈ catalog.otherExtents none,
      extent.1 < extent.2 ∧ (extent.1 ≤ (canonicalPhysicalAddress address).toNat →
        extent.2 ≤ (canonicalPhysicalAddress address).toNat + 1) := by
  refine forall_otherExtents.mpr fun place other hother hactive _ extent hextent => ?_
  have hmem := List.mem_of_getElem? hother
  obtain ⟨hsize, hinside⟩ := (hsound other hmem).extents.inside extent hextent
  refine ⟨by dsimp only; omega, fun hlow => ?_⟩
  dsimp only at hlow ⊢
  by_contra hhigh
  have hcontains : other.contains address 2 = true := by
    have hoffset : other.moduleOffset address 2 =
        some ((canonicalPhysicalAddress address).toNat - other.physicalStart) := by
      unfold ExecutableModule.moduleOffset
      dsimp only
      rw [if_neg (by omega)]
    unfold ExecutableModule.contains
    rw [hactive, Bool.true_and, hoffset, Option.any_some, List.any_eq_true]
    refine ⟨extent, hextent, ?_⟩
    simp only [Bool.and_eq_true, decide_eq_true_eq]
    omega
  unfold resolveIndex at hnone
  obtain ⟨-, hnone⟩ := Option.or_eq_none_iff.mp hnone
  have hmissed := List.findIdx?_eq_none_iff.mp hnone other hmem
  rw [hcontains] at hmissed
  cases hmissed

/-- When the catalog takes the captured bytes. -/
theorem capture_publishes_iff (hsound : AllSound catalog)
    (hnone : catalog.resolveIndex address 2 = none) (heven : address &&& 1 = 0)
    {number : Nat} {bytes : List (BitVec 8)} (htwo : 2 ≤ bytes.length)
    (hspace : address.toNat + bytes.length ≤ 2 ^ 32) (hsize : bytes.length ≤ uint32Max)
    (hlimit : ∀ extent ∈ catalog.otherExtents none,
      (canonicalPhysicalAddress address).toNat < extent.1 →
        (canonicalPhysicalAddress address).toNat + bytes.length ≤ extent.1) :
    (∃ after, catalog.publish (runtimeWriteModule number address bytes) = .ok after) ↔
      (canonicalPhysicalAddress (BitVec.ofNat 32 (address.toNat + (bytes.length - 1)))).toNat =
          (canonicalPhysicalAddress address).toNat + (bytes.length - 1) ∧
        (∀ extent ∈ catalog.otherExtents none,
          extent.2 ≠ (canonicalPhysicalAddress address).toNat + 1) ∧
        (catalog.find (runtimeWriteModuleIdPrefix ++ toString number)).isSome = false ∧
        ∃ generation, catalog.nextIncarnation (runtimeWriteModuleIdPrefix ++ toString number) 1 =
          .ok generation := by
  have hfilled : bytes ≠ [] := by
    rintro rfl
    cases htwo
  have hclear : (∀ existing ∈ catalog.modules, existing.active = true → physicalExtentsOverlap
        { runtimeWriteModule number address bytes with
          activeExtents := [⟨0, bytes.length⟩], active := true }
        existing.guestStart existing.activeExtents = false) ↔ ∀ extent ∈ catalog.otherExtents none,
        extent.2 ≠ (canonicalPhysicalAddress address).toNat + 1 := by
    have hall : (∀ existing ∈ catalog.modules, existing.active = true → physicalExtentsOverlap
          { runtimeWriteModule number address bytes with
            activeExtents := [⟨0, bytes.length⟩], active := true }
          existing.guestStart existing.activeExtents = false) ↔
        ∀ extent ∈ catalog.otherExtents none, extent.2 ≤ (canonicalPhysicalAddress address).toNat ∨
            (canonicalPhysicalAddress address).toNat + bytes.length ≤ extent.1 := by
      rw [forall_otherExtents]
      simp only [ExecutableModule.physicalExtentsOverlap_single]
      constructor
      · intro h place other hother hactive _ extent hextent
        exact h other (List.mem_of_getElem? hother) hactive extent hextent
      · intro h existing hexisting hactive extent hextent
        obtain ⟨place, hplace⟩ := List.mem_iff_getElem?.mp hexisting
        exact h place existing hplace hactive (by simp) extent hextent
    rw [hall]
    have hunresolved := otherExtents_of_unresolved hsound hnone
    constructor
    · intro h extent hextent hends
      have hapart := h extent hextent
      have hcontent := hunresolved extent hextent
      omega
    · intro h extent hextent
      have hends := h extent hextent
      have hcontent := hunresolved extent hextent
      have hbehind := hlimit extent hextent
      omega
  rw [publish_returns_iff, ← hclear,
    ← @capture_validates address number bytes heven hfilled hspace hsize]
  constructor
  · rintro ⟨normalized, hnormalized, hfree, hapart, hgeneration⟩
    refine ⟨⟨normalized, hnormalized⟩, ?_⟩
    rw [validate_normal (normalizeActiveExtents_whole rfl hfilled) hnormalized] at hfree hapart hgeneration
    exact ⟨hapart, hfree, hgeneration⟩
  · rintro ⟨⟨normalized, hnormalized⟩, hapart, hfree, hgeneration⟩
    refine ⟨normalized, hnormalized, ?_⟩
    rw [validate_normal (normalizeActiveExtents_whole rfl hfilled) hnormalized]
    exact ⟨hfree, hapart, hgeneration⟩

theorem readBytes_returns_iff {size : Nat} : (∃ bytes, memory.readBytes address size = .ok bytes) ↔
    ∀ position < size,
      ∃ byte, memory.readU8 (BitVec.ofNat 32 (address.toNat + position)) = .ok byte := by
  unfold Memory.readBytes
  rw [mapM_returns_iff]
  simp only [List.mem_range, add_ofNat_eq]

/-- A capture goes through exactly when it is ready. -/
theorem capture_returns_iff (hsound : AllSound catalog)
    (hnone : catalog.resolveIndex address 2 = none) (heven : address &&& 1 = 0) :
    (∃ promoted after, catalog.captureRuntimeWrite memory address maximumBytes =
      .ok (promoted, after)) ↔ CaptureReady catalog memory address maximumBytes := by
  have hcaptures := fun position => @captures_iff catalog memory address maximumBytes position
  unfold captureRuntimeWrite
  dsimp only
  generalize hrun : runLength (catalog.mayCapture memory address)
    (catalog.snapshotLimit (canonicalPhysicalAddress address).toNat maximumBytes.toNat) 0 = run at *
  split
  · rename_i hsmall
    refine iff_of_true ⟨false, catalog, rfl⟩ ⟨fun position h => ?_, fun pair h => ?_, fun h => ?_,
      fun h => ?_⟩
    · rw [hcaptures] at h
      omega
    · rw [hcaptures] at h
      omega
    · rw [hcaptures] at h
      omega
    · rw [hcaptures] at h
      omega
  · rename_i hsize
    obtain ⟨⟨hmaximum, hbehind⟩, hlast⟩ := (hcaptures (run / 2 * 2 - 1)).mpr (by omega)
    have hspace : run / 2 * 2 - 1 ≤ uint32Max - address.toNat := by
      have hallowed := hlast _ le_rfl
      unfold mayCapture at hallowed
      simp only [Bool.and_eq_true, decide_eq_true_eq] at hallowed
      exact hallowed.1.1
    have hmax : uint32Max = 2 ^ 32 - 1 := rfl
    have hlt := maximumBytes.isLt
    have hlt' := address.isLt
    have hpublishes : ∀ bytes : List (BitVec 8), bytes.length = run / 2 * 2 →
        ((∃ after, catalog.publish (runtimeWriteModule catalog.nextRuntimeWriteModule address bytes) =
          .ok after) ↔ _) := fun bytes hbytes =>
      capture_publishes_iff hsound hnone heven (by omega) (by omega) (by omega)
        fun extent hextent hlow => by
          have hhere := hbehind extent hextent hlow
          omega
    have hcounted : ∀ {module : ExecutableModule}, (∃ after, publish { catalog with
        nextRuntimeWriteModule := (catalog.nextRuntimeWriteModule + 1) % 2 ^ 64 } module =
          .ok after) ↔ ∃ after, catalog.publish module = .ok after := by
      intro module
      rw [publish_returns_iff, publish_returns_iff]
      rfl
    constructor
    · rintro ⟨promoted, after, h⟩
      obtain ⟨bytes, hbytes, h⟩ := bind_eq_ok h
      obtain ⟨published, hpublished, -⟩ := bind_eq_ok h
      have hlength := (mapM_eq_ok hbytes).length_eq
      rw [List.length_range] at hlength
      obtain ⟨hinLine, hclear, hfree, hgeneration⟩ :=
        (hpublishes bytes hlength.symm).mp (hcounted.mp ⟨published, hpublished⟩)
      refine ⟨fun position h => ?_, fun pair h hend => ?_, fun _ => hclear,
        fun _ => ⟨hfree, hgeneration⟩⟩
      · rw [hcaptures] at h
        exact readBytes_returns_iff.mp ⟨bytes, hbytes⟩ position (by omega)
      · rw [hcaptures] at h hend
        rw [show 2 * pair + 1 = bytes.length - 1 by omega]
        exact hinLine
    · rintro ⟨hreadable, hinLine, hclear, hfresh⟩
      obtain ⟨bytes, hbytes⟩ := (@readBytes_returns_iff memory address (run / 2 * 2)).mpr
        fun position hposition => hreadable position ((hcaptures _).mpr (by omega))
      have hlength := (mapM_eq_ok hbytes).length_eq
      rw [List.length_range] at hlength
      have hone := (hcaptures 1).mpr (by omega)
      have hlastInLine := hinLine (run / 2 - 1) ((hcaptures _).mpr (by omega)) fun h => by
        rw [hcaptures] at h
        omega
      rw [show 2 * (run / 2 - 1) + 1 = bytes.length - 1 by omega] at hlastInLine
      obtain ⟨published, hpublished⟩ := hcounted.mpr ((hpublishes bytes hlength.symm).mpr
        ⟨hlastInLine, hclear hone, (hfresh hone).1, (hfresh hone).2⟩)
      refine ⟨true, published, ?_⟩
      rw [hbytes]
      change (publish { catalog with
        nextRuntimeWriteModule := (catalog.nextRuntimeWriteModule + 1) % 2 ^ 64 } _ >>= _) = _
      rw [hpublished]
      rfl

/-! ## Extensions -/

/-- The target lies in an extent of written bytes that ends with its module. -/
def EndsAt (found : ExecutableModule) (address : BitVec 32) : Prop :=
  isRuntimeWriteModule found = true ∧ ∃ offset, found.moduleOffset address 2 = some offset ∧
    (found.activeExtents.any fun extent => decide (extent.offset ≤ offset) &&
      decide (offset + 2 ≤ extent.offset + extent.size) &&
      decide (extent.offset + extent.size = found.bytes.length)) = true

theorem modify_last {α : Type} (front : List α) (last : α) (f : α → α) :
    (front ++ [last]).modify front.length f = front ++ [f last] := by
  induction front with
  | nil => rfl
  | cons first rest ih =>
    rw [List.cons_append, List.length_cons, List.modify_succ_cons, ih, List.cons_append]

variable {found : ExecutableModule} (h : EndsAt found address)
include h

section
variable (hsound : found.Sound)
include hsound

/-- The extent that grows is the last one. -/
theorem EndsAt.last : ∃ front last, found.activeExtents = front ++ [last] ∧
      last.offset + last.size = found.bytes.length ∧ ∀ extension, (expand found extension).activeExtents =
        front ++ [{ last with size := last.size + extension.length }] := by
  obtain ⟨-, offset, -, htail⟩ := h
  obtain ⟨tail, hmem, htail⟩ := List.any_eq_true.mp htail
  simp only [Bool.and_eq_true, decide_eq_true_eq] at htail
  have hne := List.ne_nil_of_mem hmem
  obtain ⟨front, last, hsplit⟩ := (List.eq_nil_or_concat found.activeExtents).resolve_left hne
  rw [List.concat_eq_append] at hsplit
  refine ⟨front, last, hsplit, ?_, fun extension => ?_⟩
  · rw [hsplit] at hmem
    rcases List.mem_append.mp hmem with hfront | hlast
    · have hapart := hsound.extents.apart
      rw [hsplit] at hapart
      have hbefore := (List.pairwise_append.mp hapart).2.2 tail hfront last
        (List.mem_singleton_self _)
      have hinside := hsound.extents.inside last (hsplit ▸ List.mem_append_right _
        (List.mem_singleton_self _))
      omega
    · rw [← List.mem_singleton.mp hlast]
      exact htail.2
  · unfold expand
    dsimp only
    rw [hsplit, List.length_append, List.length_singleton, Nat.add_sub_cancel, modify_last]

/-- The longer module has its extents in order. -/
theorem expand_extents (extension : List (BitVec 8)) :
    SoundExtents (expand found extension).bytes.length (expand found extension).activeExtents := by
  obtain ⟨front, last, hsplit, hlast, hexpand⟩ := h.last hsound
  have hextents := hsound.extents
  have hlength : (expand found extension).bytes.length =
      found.bytes.length + extension.length := List.length_append
  rw [hexpand, hlength]
  rw [hsplit] at hextents
  obtain ⟨hinside, hapart⟩ := hextents
  refine ⟨fun extent hextent => ?_, ?_⟩
  · rcases List.mem_append.mp hextent with hfront | hnew
    · have hold := hinside extent (List.mem_append_left _ hfront)
      omega
    · have hold := hinside last (List.mem_append_right _ (List.mem_singleton_self _))
      rw [List.mem_singleton.mp hnew]
      dsimp only
      omega
  · obtain ⟨hfront, -, hbefore⟩ := List.pairwise_append.mp hapart
    refine List.pairwise_append.mpr ⟨hfront, List.pairwise_singleton _ _, fun left hleft right
      hright => ?_⟩
    rw [List.mem_singleton.mp hright]
    exact hbefore left hleft last (List.mem_singleton_self _)

theorem expand_normal (extension : List (BitVec 8)) :
    normalizeActiveExtents (expand found extension) = .ok (expand found extension) := by
  obtain ⟨front, last, -, -, hexpand⟩ := h.last hsound
  refine ExecutableModule.normalizeActiveExtents_of_sound (expand_extents h hsound extension) ?_
  rw [hexpand]
  exact List.append_ne_nil_of_right_ne_nil _ (List.cons_ne_nil _ _)

end

omit h

theorem toNat_add_ofNat {offset : Nat} (h : address.toNat + offset < 2 ^ 32) :
    (address + BitVec.ofNat 32 offset).toNat = address.toNat + offset := by
  rw [add_ofNat_eq, BitVec.toNat_ofNat, Nat.mod_eq_of_lt h]

/-- The longer module passes where its extents lay in line before, and where its length is still
a size. -/
theorem extend_validates {found : ExecutableModule} {extension : List (BitVec 8)}
    (h : EndsAt found address) (hsound : found.Sound) (hsome : extension ≠ [])
    (hspace : found.guestStart.toNat + found.bytes.length + extension.length ≤ 2 ^ 32)
    (hlast : (canonicalPhysicalAddress (BitVec.ofNat 32 (found.guestStart.toNat +
      (found.bytes.length + extension.length - 1)))).toNat =
        found.physicalStart + (found.bytes.length + extension.length - 1)) :
    (∃ normalized, validateAndNormalizeModule (expand found extension) = .ok normalized) ↔
      found.bytes.length + extension.length ≤ uint32Max ∧ ∀ extent ∈ found.activeExtents,
        canonicalRangeIsLinear (found.guestStart + BitVec.ofNat 32 extent.offset) extent.size =
          true := by
  obtain ⟨front, last, hsplit, hends, hexpand⟩ := h.last hsound
  have hextents := expand_extents h hsound extension
  have hcount : 0 < extension.length := List.length_pos_of_ne_nil hsome
  have hfilled : found.bytes.length ≠ 0 := by
    have hempty := hsound.filled.1
    intro hzero
    rw [List.eq_nil_of_length_eq_zero hzero] at hempty
    cases hempty
  have hlength : (expand found extension).bytes.length =
      found.bytes.length + extension.length := List.length_append
  have hnormal := expand_normal h hsound extension
  -- The last extent lies in line before and after, as the last byte of the module does.
  have hold : (canonicalPhysicalAddress (BitVec.ofNat 32 (found.guestStart.toNat +
      (found.bytes.length - 1)))).toNat = found.physicalStart + (found.bytes.length - 1) :=
    (ExecutableModule.canonicalRangeIsLinear_iff hfilled (by omega)).mp hsound.linear
  have hlastSize := (hsound.extents.inside last (hsplit ▸ List.mem_append_right _
    (List.mem_singleton_self _))).1
  have hgrown : canonicalRangeIsLinear (found.guestStart + BitVec.ofNat 32 last.offset)
        (last.size + extension.length) = true ↔
      canonicalRangeIsLinear (found.guestStart + BitVec.ofNat 32 last.offset) last.size = true := by
    have hstart := @toNat_add_ofNat found.guestStart last.offset (by omega)
    rw [ExecutableModule.canonicalRangeIsLinear_iff (by omega) (by omega),
      ExecutableModule.canonicalRangeIsLinear_iff hlastSize (by omega), hstart,
      show found.guestStart.toNat + last.offset + (last.size + extension.length - 1) =
        found.guestStart.toNat + (found.bytes.length + extension.length - 1) by omega, hlast,
      show found.guestStart.toNat + last.offset + (last.size - 1) =
        found.guestStart.toNat + (found.bytes.length - 1) by omega, hold]
    omega
  have hall : (∀ extent ∈ (expand found extension).activeExtents,
        canonicalRangeIsLinear (found.guestStart + BitVec.ofNat 32 extent.offset) extent.size =
          true) ↔ ∀ extent ∈ found.activeExtents,
        canonicalRangeIsLinear (found.guestStart + BitVec.ofNat 32 extent.offset) extent.size =
          true := by
    rw [hexpand, hsplit, List.forall_mem_append, List.forall_mem_append, List.forall_mem_singleton,
      List.forall_mem_singleton, hgrown]
  rw [← hall, ← hlength]
  constructor
  · rintro ⟨normalized, hnormalized⟩
    have hlinear := ExecutableModule.validate_linear hnormalized
    obtain ⟨extents, hsame, hnew⟩ := ExecutableModule.validate_ok hnormalized
    have hkept := validate_normal hnormal hnormalized
    rw [hkept] at hlinear
    rw [hsame] at hnew
    exact ⟨hnew.filled.2, hlinear⟩
  · rintro ⟨hsize, hlinear⟩
    refine ⟨_, ExecutableModule.validate_returns ?_ hnormal hlinear ?_⟩
    · refine ⟨hsound.named, ⟨?_, hsize⟩, hsound.aligned, hsound.generations, ?_, ?_, hextents, ?_⟩
      · rw [List.isEmpty_eq_false_iff]
        exact List.ne_nil_of_length_pos (by omega)
      · unfold ExecutableModule.endAddress
        rw [hlength]
        change found.guestStart.toNat + _ ≤ _
        omega
      · rw [ExecutableModule.canonicalRangeIsLinear_iff (by omega) (by
          rw [hlength]
          change found.guestStart.toNat + _ ≤ _
          omega), hlength]
        exact hlast
      · intro range hrange
        rw [hlength]
        rcases List.mem_append.mp hrange with hkeep | hnew
        · have hrole := hsound.roles range hkeep
          omega
        · rw [List.mem_singleton.mp hnew]
          dsimp only
          omega
    · have hkind := h.1
      unfold isRuntimeWriteModule at hkind
      exact List.isEmpty_iff.mp (Bool.and_eq_true_iff.mp hkind).2

/-- When an extension goes through: each byte of it can be read, and where there are two of them
the length stays a size, the extents lie in line, and no other module has a byte of the module. -/
structure ExtensionReady (catalog : ModuleCatalog) (memory : Memory)
    (address maximumBytes : BitVec 32) (index : Nat) (found : ExecutableModule) : Prop where
  readable : ∀ position, catalog.Continues memory address maximumBytes index found position →
    ∃ byte, memory.readU8 (BitVec.ofNat 32
      (found.guestStart.toNat + found.bytes.length + position)) = .ok byte
  room : ∀ position,
    catalog.Continues memory address maximumBytes index found (position / 2 * 2 + 1) →
      found.bytes.length + position < uint32Max
  linear : catalog.Continues memory address maximumBytes index found 1 →
    ∀ extent ∈ found.activeExtents,
      canonicalRangeIsLinear (found.guestStart + BitVec.ofNat 32 extent.offset) extent.size = true
  alone : catalog.Continues memory address maximumBytes index found 1 →
    ∀ offset, InExtents found.activeExtents offset → ∀ extent ∈ catalog.otherExtents (some index),
        ¬ (extent.1 ≤ found.physicalStart + offset ∧ found.physicalStart + offset < extent.2)

/-- The longer module is apart from the other ones exactly when the module was. -/
theorem extension_apart_iff {index : Nat} {found : ExecutableModule}
    {extension : List (BitVec 8)} {active : Bool} (h : EndsAt found address) (hsound : found.Sound)
    (hfilled : ∀ extent ∈ catalog.otherExtents (some index), extent.1 < extent.2)
    (hnew : ∀ extent ∈ catalog.otherExtents (some index),
      extent.2 ≤ found.physicalStart + found.bytes.length ∨
        found.physicalStart + found.bytes.length + extension.length ≤ extent.1) :
    (catalog.modules.zipIdx.any fun (other, otherIndex) =>
        other.active && decide (otherIndex ≠ index) && physicalExtentsOverlap
          { expand found extension with active := active } other.guestStart other.activeExtents) =
      false ↔ ∀ offset, InExtents found.activeExtents offset →
        ∀ extent ∈ catalog.otherExtents (some index), ¬ (extent.1 ≤ found.physicalStart + offset ∧
            found.physicalStart + offset < extent.2) := by
  obtain ⟨front, last, hsplit, hends, hexpand⟩ := h.last hsound
  have hall : (catalog.modules.zipIdx.any fun (other, otherIndex) =>
        other.active && decide (otherIndex ≠ index) && physicalExtentsOverlap
          { expand found extension with active := active } other.guestStart other.activeExtents) =
      false ↔
      ∀ extent ∈ catalog.otherExtents (some index), ∀ piece ∈ (expand found extension).activeExtents,
        extent.2 ≤ found.physicalStart + piece.offset ∨
          found.physicalStart + piece.offset + piece.size ≤ extent.1 := by
    rw [forall_otherExtents, List.any_eq_false]
    constructor
    · intro hclear place other hother hactive hplace extent hextent piece hpiece
      have hhere := hclear (other, place) (List.mem_zipIdx_iff_getElem?.mpr hother)
      dsimp only at hhere
      have hne : place ≠ index := fun hsame => hplace (congrArg some hsame)
      rw [hactive, decide_eq_true hne, Bool.true_and, Bool.true_and, Bool.not_eq_true,
        physicalExtentsOverlap_eq_false] at hhere
      exact hhere piece hpiece extent hextent
    · rintro hclear ⟨other, place⟩ hother hoverlap
      simp only [Bool.and_eq_true, decide_eq_true_eq] at hoverlap
      obtain ⟨⟨hactive, hplace⟩, hoverlap⟩ := hoverlap
      have hapart : physicalExtentsOverlap { expand found extension with active := active }
          other.guestStart other.activeExtents = false := by
        rw [physicalExtentsOverlap_eq_false]
        intro piece hpiece extent hextent
        exact hclear place other (List.mem_zipIdx_iff_getElem?.mp hother) hactive
          (by simpa using hplace) extent hextent piece hpiece
      rw [hapart] at hoverlap
      cases hoverlap
  rw [hall, hexpand]
  constructor
  · rintro hclear offset ⟨piece, hpiece, hlow, hhigh⟩ extent hextent ⟨hbegin, hend⟩
    rw [hsplit] at hpiece
    rcases List.mem_append.mp hpiece with hfront | hlast
    · have hapart := hclear extent hextent piece (List.mem_append_left _ hfront)
      omega
    · have hapart := hclear extent hextent _ (List.mem_append_right _ (List.mem_singleton_self _))
      rw [List.mem_singleton.mp hlast] at hlow hhigh
      dsimp only at hapart
      omega
  · intro hclear extent hextent piece hpiece
    have hcontent := hfilled extent hextent
    by_contra hmeets
    rw [not_or, Nat.not_le, Nat.not_le] at hmeets
    rcases List.mem_append.mp hpiece with hfront | hlast
    · have hsize := (hsound.extents.inside piece (hsplit ▸ List.mem_append_left _ hfront)).1
      refine hclear (max (found.physicalStart + piece.offset) extent.1 - found.physicalStart)
        ⟨piece, hsplit ▸ List.mem_append_left _ hfront, ?_, ?_⟩ extent hextent ⟨?_, ?_⟩
      · omega
      · omega
      · omega
      · omega
    · have hlastMem : last ∈ found.activeExtents :=
        hsplit ▸ List.mem_append_right _ (List.mem_singleton_self _)
      have hsize := (hsound.extents.inside last hlastMem).1
      have hnewApart := hnew extent hextent
      rw [List.mem_singleton.mp hlast] at hmeets
      dsimp only at hmeets
      refine hclear (max (found.physicalStart + last.offset) extent.1 - found.physicalStart)
        ⟨last, hlastMem, ?_, ?_⟩ extent hextent ⟨?_, ?_⟩
      · omega
      · omega
      · omega
      · omega

theorem otherExtents_filled (hsound : AllSound catalog) {index : Option Nat} :
    ∀ extent ∈ catalog.otherExtents index, extent.1 < extent.2 := by
  refine forall_otherExtents.mpr fun place other hother _ _ extent hextent => ?_
  have hsize := ((hsound other (List.mem_of_getElem? hother)).extents.inside extent hextent).1
  dsimp only
  omega

/-- An extension goes through exactly when it is ready. -/
theorem extend_returns_iff (hsound : AllSound catalog) {index : Nat}
    (hfound : catalog.modules[index]? = some found) :
    (∃ promoted after, catalog.extendRuntimeWrite memory address maximumBytes index found =
      .ok (promoted, after)) ↔
      (EndsAt found address → ExtensionReady catalog memory address maximumBytes index found) := by
  have hfoundSound := hsound found (List.mem_of_getElem? hfound)
  have hcontinues := fun position =>
    @continues_iff catalog memory address maximumBytes index found position
  unfold extendRuntimeWrite
  split
  · rename_i hkind
    refine iff_of_true ⟨false, catalog, rfl⟩ fun h => ?_
    rw [h.1] at hkind
    cases hkind
  rename_i hkind
  rw [Bool.not_eq_true', Bool.not_eq_false] at hkind
  split
  · rename_i hnone
    refine iff_of_true ⟨false, catalog, rfl⟩ fun ⟨_, offset, hoffset, _⟩ => ?_
    rw [hnone] at hoffset
    cases hoffset
  rename_i offset hoffset
  split
  · rename_i htail
    refine iff_of_true ⟨false, catalog, rfl⟩ fun ⟨_, other, hother, hends⟩ => ?_
    rw [hoffset] at hother
    cases hother
    rw [hends] at htail
    cases htail
  rename_i htail
  rw [Bool.not_eq_true', Bool.not_eq_false] at htail
  have hends : EndsAt found address := ⟨hkind, offset, hoffset, htail⟩
  rw [forall_prop_of_true hends]
  dsimp only
  split
  · rename_i hfull
    rw [Nat.sub_eq_zero_of_le hfull] at hcontinues
    have hnone : ∀ position,
        ¬ catalog.Continues memory address maximumBytes index found position := by
      intro position h
      exact Nat.not_lt_zero _ ((hcontinues position).mp h)
    exact iff_of_true ⟨false, catalog, rfl⟩ ⟨fun position h => (hnone _ h).elim,
      fun position h => (hnone _ h).elim, fun h => (hnone _ h).elim, fun h => (hnone _ h).elim⟩
  generalize hcount : catalog.extensionEnd index (found.physicalStart + found.bytes.length)
      (min ((canonicalPhysicalAddress address).toNat + maximumBytes.toNat) (2 ^ 32)) -
        (found.physicalStart + found.bytes.length) = count at *
  have hread : (∃ run, readRun (catalog.mayExtend memory found) (fun position => memory.readU8
        (BitVec.ofNat 32 (found.guestStart.toNat + found.bytes.length + position))) count 0 =
          .ok run) ↔ ∀ position,
      catalog.Continues memory address maximumBytes index found position →
        ∃ byte, memory.readU8 (BitVec.ofNat 32
          (found.guestStart.toNat + found.bytes.length + position)) = .ok byte := by
    constructor
    · rintro ⟨run, hrun⟩ position hposition
      obtain ⟨hlength, hbytes⟩ := readRun_ok hrun
      have hlt : position < run.length := hlength ▸ (hcontinues position).mp hposition
      have hbyte := hbytes position run[position] (List.getElem?_eq_getElem hlt)
      rw [Nat.zero_add] at hbyte
      exact ⟨_, hbyte⟩
    · intro hreadable
      refine readRun_returns fun position hposition => ?_
      rw [Nat.zero_add]
      exact hreadable position ((hcontinues position).mpr hposition)
  by_cases hreadable : ∀ position,
      catalog.Continues memory address maximumBytes index found position →
        ∃ byte, memory.readU8 (BitVec.ofNat 32
          (found.guestStart.toNat + found.bytes.length + position)) = .ok byte
  case neg =>
    refine iff_of_false (fun ⟨promoted, after, h⟩ => ?_) fun h => hreadable h.readable
    obtain ⟨run, hrun, -⟩ := bind_eq_ok h
    exact hreadable (hread.mp ⟨run, hrun⟩)
  obtain ⟨run, hrun⟩ := hread.mpr hreadable
  obtain ⟨hlength, -⟩ := readRun_ok hrun
  rw [hrun]
  have hcount' : (run.take (run.length / 2 * 2)).length = run.length / 2 * 2 := by
    rw [List.length_take]
    omega
  rw [← hlength] at hcontinues
  by_cases hsmall : run.length < 2
  · have hempty : (run.take (run.length / 2 * 2)).isEmpty = true := by
      rw [List.isEmpty_iff, ← List.length_eq_zero_iff]
      omega
    refine iff_of_true ⟨false, catalog, ?_⟩ ⟨hreadable, fun position h => ?_, fun h => ?_,
      fun h => ?_⟩
    · change (if (run.take (run.length / 2 * 2)).isEmpty = true then _ else _) = _
      rw [if_pos hempty]
      rfl
    · rw [hcontinues] at h
      omega
    · rw [hcontinues] at h
      omega
    · rw [hcontinues] at h
      omega
  · have hsome : run.take (run.length / 2 * 2) ≠ [] := List.ne_nil_of_length_pos (by omega)
    obtain ⟨⟨-, hothers⟩, hlast⟩ := (hcontinues (run.length / 2 * 2 - 1)).mpr (by omega)
    have hallowed := hlast _ le_rfl
    unfold mayExtend at hallowed
    simp only [Bool.and_eq_true, decide_eq_true_eq] at hallowed
    obtain ⟨⟨⟨hlogical, hinLine⟩, -⟩, -⟩ := hallowed
    have hmax : uint32Max = 2 ^ 32 - 1 := rfl
    have hvalidates := @extend_validates address found (run.take (run.length / 2 * 2)) hends
      hfoundSound hsome (by omega) (by
        rw [hcount', show found.guestStart.toNat + (found.bytes.length + run.length / 2 * 2 - 1) =
          found.guestStart.toNat + found.bytes.length + (run.length / 2 * 2 - 1) by omega, hinLine]
        omega)
    have hapart := @extension_apart_iff catalog address index found
      (run.take (run.length / 2 * 2)) true hends hfoundSound (otherExtents_filled hsound)
      fun extent hextent => by
        have hhere := hothers extent hextent
        omega
    have hready : ExtensionReady catalog memory address maximumBytes index found ↔
        (∃ normalized, validateAndNormalizeModule (expand found (run.take (run.length / 2 * 2))) =
          .ok normalized) ∧ (catalog.modules.zipIdx.any fun (other, otherIndex) =>
          other.active && decide (otherIndex ≠ index) && physicalExtentsOverlap
            { expand found (run.take (run.length / 2 * 2)) with active := true }
            other.guestStart other.activeExtents) = false := by
      rw [hvalidates, hapart, hcount']
      have hone := (hcontinues 1).mpr (by omega)
      constructor
      · rintro ⟨-, hroom, hlinear, halone⟩
        have hhere := hroom (run.length / 2 * 2 - 1) ((hcontinues _).mpr (by omega))
        exact ⟨⟨by omega, hlinear hone⟩, halone hone⟩
      · rintro ⟨⟨hroom, hlinear⟩, halone⟩
        refine ⟨hreadable, fun position h => ?_, fun _ => hlinear, fun _ => halone⟩
        rw [hcontinues] at h
        omega
    rw [hready]
    constructor
    · rintro ⟨promoted, after, h⟩
      change (if (run.take (run.length / 2 * 2)).isEmpty = true then _ else _) = _ at h
      rw [if_neg (by rwa [List.isEmpty_iff])] at h
      obtain ⟨normalized, hnormalized, h⟩ := bind_eq_ok h
      rw [validate_normal (expand_normal hends hfoundSound _) hnormalized] at h
      split at h
      · cases h
      · rename_i hclear
        rw [Bool.not_eq_true] at hclear
        exact ⟨⟨normalized, hnormalized⟩, hclear⟩
    · rintro ⟨⟨normalized, hnormalized⟩, hclear⟩
      have hkept := validate_normal (expand_normal hends hfoundSound _) hnormalized
      let longer : ExecutableModule :=
        { expand found (run.take (run.length / 2 * 2)) with active := true }
      refine ⟨true, { catalog with
        modules := catalog.modules.set index longer
        activeExtentPageRefcounts := indexActiveExtents
          (unindexActiveExtents catalog.activeExtentPageRefcounts found) longer }, ?_⟩
      change (if (run.take (run.length / 2 * 2)).isEmpty = true then _ else _) = _
      rw [if_neg (by rwa [List.isEmpty_iff]), hnormalized]
      rw [hkept]
      change (if (catalog.modules.zipIdx.any fun (other, otherIndex) =>
          other.active && decide (otherIndex ≠ index) && physicalExtentsOverlap
            { expand found (run.take (run.length / 2 * 2)) with active := true }
            other.guestStart other.activeExtents) = true then _ else _) = _
      rw [hclear, if_neg Bool.false_ne_true]
      rfl

/-! ## Promotions -/

/-- When a promotion goes through. -/
structure PromotionReady (catalog : ModuleCatalog) (memory : Memory)
    (address maximumBytes : BitVec 32) : Prop where
  capture : catalog.resolveIndex address 2 = none → CaptureReady catalog memory address maximumBytes
  extend : ∀ index found, catalog.resolveIndex address 2 = some index →
    catalog.modules[index]? = some found → catalog.wasWritten address = true →
      catalog.wasWritten (address + 1) = true → EndsAt found address →
        ExtensionReady catalog memory address maximumBytes index found

theorem resolveIndex_lt {index : Nat} (h : catalog.resolveIndex address 2 = some index) :
    ∃ found, catalog.modules[index]? = some found := by
  unfold resolveIndex at h
  rcases Option.or_eq_some_iff.mp h with hfirst | ⟨-, hsecond⟩
  · obtain ⟨hlt, -⟩ := List.findIdx?_eq_some_iff_getElem.mp hfirst
    exact ⟨_, List.getElem?_eq_getElem hlt⟩
  · obtain ⟨hlt, -⟩ := List.findIdx?_eq_some_iff_getElem.mp hsecond
    exact ⟨_, List.getElem?_eq_getElem hlt⟩

theorem promote_returns_iff (hsound : AllSound catalog) (heven : address &&& 1 = 0)
    (hmaximum : ¬ maximumBytes < 2) :
    (∃ promoted after, catalog.promoteRuntimeWrite memory address maximumBytes =
      .ok (promoted, after)) ↔ PromotionReady catalog memory address maximumBytes := by
  unfold promoteRuntimeWrite
  rw [if_neg (by rw [heven]; simpa using hmaximum)]
  by_cases hwritten : catalog.wasWritten address = true ∧ catalog.wasWritten (address + 1) = true
  case neg =>
    rw [if_pos (by
      rw [Bool.or_eq_true, Bool.not_eq_true', Bool.not_eq_true']
      rw [not_and_or, Bool.not_eq_true, Bool.not_eq_true] at hwritten
      exact hwritten)]
    have hnone : ¬ catalog.Captures memory address maximumBytes 1 := by
      rintro ⟨-, hallowed⟩
      have hfirst := hallowed 0 (Nat.zero_le 1)
      have hsecond := hallowed 1 le_rfl
      unfold mayCapture at hfirst hsecond
      simp only [Bool.and_eq_true] at hfirst hsecond
      have hzero : address + BitVec.ofNat 32 0 = address := BitVec.add_zero address
      rw [hzero] at hfirst
      exact hwritten ⟨hfirst.2, hsecond.2⟩
    have hodd : ∀ position, 1 ≤ position →
        ¬ catalog.Captures memory address maximumBytes position := by
      intro position hposition h
      rw [captures_iff] at h hnone
      omega
    refine iff_of_true ⟨false, catalog, rfl⟩ ⟨fun _ => ⟨fun position h => ?_, fun pair h => ?_,
      fun h => (hnone h).elim, fun h => (hnone h).elim⟩, fun _ _ _ _ hfirst hsecond => ?_⟩
    · exact (hodd _ (by omega) h).elim
    · exact (hodd _ (by omega) h).elim
    · exact (hwritten ⟨hfirst, hsecond⟩).elim
  obtain ⟨hfirst, hsecond⟩ := hwritten
  rw [if_neg (by rw [hfirst, hsecond]; decide)]
  cases hresolved : catalog.resolveIndex address 2 with
  | none =>
    rw [Option.bind_none]
    refine (capture_returns_iff hsound hresolved heven).trans ⟨fun h => ⟨fun _ => h, ?_⟩, fun h =>
      h.capture hresolved⟩
    intro index found hindex
    rw [hresolved] at hindex
    cases hindex
  | some index =>
    obtain ⟨found, hfound⟩ := resolveIndex_lt hresolved
    rw [Option.bind_some, hfound]
    refine (extend_returns_iff hsound hfound).trans ⟨fun h => ⟨fun hnone => ?_, ?_⟩, fun h =>
      h.extend index found hresolved hfound hfirst hsecond⟩
    · rw [hresolved] at hnone
      cases hnone
    · intro other otherFound hother hotherFound _ _ hends
      rw [hresolved] at hother
      cases hother
      rw [hfound] at hotherFound
      cases hotherFound
      exact h hends

/-- In every run, a promotion returns without a fault, and then has added written bytes of memory
to one module and to no extent of another, or has left the catalog, exactly when it is ready. -/
theorem runtime_write_promotion_returns_iff (hrun : Run catalog) (heven : address &&& 1 = 0)
    (hmaximum : ¬ maximumBytes < 2) :
    (∃ promoted after, catalog.promoteRuntimeWrite memory address maximumBytes =
        .ok (promoted, after) ∧ ((promoted = false ∧ after = catalog) ∨
        (promoted = true ∧ Promotes catalog memory address maximumBytes after))) ↔
      PromotionReady catalog memory address maximumBytes := by
  rw [← promote_returns_iff hrun.allSound heven hmaximum]
  constructor
  · rintro ⟨promoted, after, h, -⟩
    exact ⟨promoted, after, h⟩
  · rintro ⟨promoted, after, h⟩
    exact ⟨promoted, after, h, promote_promotes h⟩

/-- Main memory as the boot runtime maps it. -/
def bootMemory : Memory := MainRam.mapDreamcastMainRam .referenceScan fun _ => 0

/-- Nothing of what the guest stored is a module yet. -/
theorem runtime_write_promotion_returns_iff_sample : ∃ promoted after,
      (ModuleCatalog.recordRuntimeWrite {} 0x8C010000 4 .cpu true).promoteRuntimeWrite bootMemory
          0x8C010000 4 = .ok (promoted, after) ∧
        ((promoted = false ∧ after = ModuleCatalog.recordRuntimeWrite {} 0x8C010000 4 .cpu true) ∨
          (promoted = true ∧ Promotes (ModuleCatalog.recordRuntimeWrite {} 0x8C010000 4 .cpu true)
            bootMemory 0x8C010000 4 after)) := by
  have hrun : Run (ModuleCatalog.recordRuntimeWrite {} 0x8C010000 4 .cpu true) :=
    .store 0x8C010000 4 .cpu true .start
  refine (runtime_write_promotion_returns_iff hrun rfl (by decide)).mpr
    ⟨fun _ => ⟨fun position h => ?_, fun pair h _ => ?_, fun _ extent hextent => ?_,
      fun _ => ⟨rfl, 1, rfl⟩⟩, fun index found hindex => ?_⟩
  · have hlt : position / 2 * 2 + 1 < 4 := h.1.1
    have hposition : position < 4 := by omega
    interval_cases position <;> exact ⟨_, rfl⟩
  · have hlt : 2 * pair + 1 < 4 := h.1.1
    have hpair : pair < 2 := by omega
    interval_cases pair <;> decide
  · cases hextent
  · cases hindex

/-- A module of which a store has cut the second byte; the first one was stored as it was. -/
def patchedCatalog : ModuleCatalog :=
  ((ModuleCatalog.append {} (promotableModule [] true)).recordRuntimeWrite 0x8C010001 1 .cpu
    true).recordRuntimeWrite 0x8C010000 1 .cpu false

theorem run_patchedCatalog : Run patchedCatalog :=
  .store 0x8C010000 1 .cpu false (.store 0x8C010001 1 .cpu true (run_promotableModule rfl))

theorem patchedCatalog_written :
    patchedCatalog.wasWritten 0x8C010000 = true ∧ patchedCatalog.wasWritten 0x8C010001 = true := by
  unfold patchedCatalog ModuleCatalog.wasWritten
  rw [wasWritten_store rfl, wasWritten_store rfl, wasWritten_store rfl, wasWritten_store rfl]
  exact ⟨rfl, rfl⟩

/-- The first byte of the target is still in an extent of the module: the copy of the two bytes
overlaps it, and the promotion throws. -/
theorem promotion_throws_on_odd_extent : Run patchedCatalog ∧ (0x8C010000 : BitVec 32) &&& 1 = 0 ∧
      ∃ fault, patchedCatalog.promoteRuntimeWrite bootMemory 0x8C010000 2 = .error fault := by
  refine ⟨run_patchedCatalog, rfl, ?_⟩
  have hnone : patchedCatalog.resolveIndex 0x8C010000 2 = none := rfl
  have hcaptures : patchedCatalog.Captures bootMemory 0x8C010000 2 1 := by
    refine ⟨⟨by decide, ?_⟩, fun earlier hearlier => ?_⟩
    · change ∀ extent ∈ [(0x0C010000, 0x0C010001), (0x0C010002, 0x0C010004)], _
      decide
    · unfold mayCapture
      interval_cases earlier
      · change (_ && _ && patchedCatalog.wasWritten 0x8C010000) = true
        rw [patchedCatalog_written.1]
        rfl
      · change (_ && _ && patchedCatalog.wasWritten 0x8C010001) = true
        rw [patchedCatalog_written.2]
        rfl
  cases hcall : patchedCatalog.promoteRuntimeWrite bootMemory 0x8C010000 2 with
  | error fault => exact ⟨fault, rfl⟩
  | ok result =>
    have hready := (promote_returns_iff run_patchedCatalog.allSound rfl (by decide)).mp
      ⟨result.1, result.2, hcall⟩
    exact ((hready.capture hnone).clear hcaptures (0x0C010000, 0x0C010001)
      List.mem_cons_self rfl).elim

end ModuleCatalog
end KatanaRecomp.Runtime
