import KatanaRecomp.Runtime.CatalogRuns

/-! # Promotion of written bytes

A control transfer into bytes that the guest wrote copies them into a module, or continues
the module that ends there. What is copied is a run of written bytes that stops before the
next active extent; whether the catalog takes the copy depends on the extents around it. -/
namespace KatanaRecomp.Runtime
open Lib (bind_eq_ok mapM_eq_ok)
namespace ModuleCatalog
variable {catalog after : ModuleCatalog} {memory : Memory} {address maximumBytes : BitVec 32}

/-! ## Runs of bytes -/

variable {allowed : Nat → Bool}

theorem lt_runLength_iff {count start position : Nat} :
    position < runLength allowed count start ↔
      position < count ∧ ∀ earlier ≤ position, allowed (start + earlier) = true := by
  induction count generalizing start position with
  | zero =>
    unfold runLength
    exact iff_of_false (Nat.not_lt_zero _) fun h => Nat.not_lt_zero _ h.1
  | succ count ih =>
    unfold runLength
    split
    · rename_i hfirst
      cases position with
      | zero =>
        refine iff_of_true (Nat.succ_pos _) ⟨Nat.succ_pos _, fun earlier hearlier => ?_⟩
        obtain rfl : earlier = 0 := Nat.le_zero.mp hearlier
        exact hfirst
      | succ position =>
        rw [Nat.add_lt_add_iff_right, ih, Nat.add_lt_add_iff_right]
        refine and_congr_right fun _ => ⟨fun h earlier hearlier => ?_, fun h earlier hearlier => ?_⟩
        · cases earlier with
          | zero => exact hfirst
          | succ earlier =>
            rw [Nat.add_comm earlier 1, ← Nat.add_assoc]
            exact h earlier (Nat.le_of_succ_le_succ hearlier)
        · rw [Nat.add_assoc, Nat.add_comm 1 earlier]
          exact h (earlier + 1) (Nat.succ_le_succ hearlier)
    · rename_i hfirst
      refine iff_of_false (Nat.not_lt_zero _) fun h => hfirst ?_
      exact h.2 0 (Nat.zero_le _)

variable {read : Nat → Except Fault (BitVec 8)}

/-- What is read of a run. -/
theorem readRun_ok
    {count start : Nat} {bytes : List (BitVec 8)} (h : readRun allowed read count start = .ok bytes) :
    bytes.length = runLength allowed count start ∧
      ∀ position byte, bytes[position]? = some byte → read (start + position) = .ok byte := by
  induction count generalizing start bytes with
  | zero =>
    cases h
    exact ⟨rfl, fun position byte hbyte => by cases hbyte⟩
  | succ count ih =>
    unfold readRun at h
    unfold runLength
    split at h
    · rename_i hstop
      cases h
      rw [if_neg (by simpa using hstop)]
      exact ⟨rfl, fun position byte hbyte => by cases hbyte⟩
    · rename_i hfirst
      obtain ⟨byte, hbyte, h⟩ := bind_eq_ok h
      obtain ⟨rest, hrest, h⟩ := bind_eq_ok h
      cases h
      obtain ⟨hlength, hreads⟩ := ih hrest
      rw [if_pos (by simpa using hfirst), List.length_cons, hlength]
      refine ⟨rfl, fun position found hfound => ?_⟩
      cases position with
      | zero =>
        cases hfound
        exact hbyte
      | succ position =>
        rw [Nat.add_comm position 1, ← Nat.add_assoc]
        exact hreads position found hfound

/-- A run of bytes that may all be read is read. -/
theorem readRun_returns {count start : Nat}
    (h : ∀ position < runLength allowed count start, ∃ byte, read (start + position) = .ok byte) :
    ∃ bytes, readRun allowed read count start = .ok bytes := by
  induction count generalizing start with
  | zero => exact ⟨[], rfl⟩
  | succ count ih =>
    unfold readRun
    unfold runLength at h
    split
    · exact ⟨[], rfl⟩
    · rename_i hfirst
      rw [if_pos (by simpa using hfirst)] at h
      obtain ⟨byte, hbyte⟩ := h 0 (Nat.succ_pos _)
      obtain ⟨rest, hrest⟩ := @ih (start + 1) fun position hposition => by
        rw [Nat.add_assoc, Nat.add_comm 1 position]
        exact h (position + 1) (Nat.succ_lt_succ hposition)
      refine ⟨byte :: rest, ?_⟩
      rw [Nat.add_zero] at hbyte
      rw [hbyte]
      change (do
        let rest ← readRun allowed read count (start + 1)
        return byte :: rest) = _
      rw [hrest]
      rfl

/-! ## How far a run goes -/

/-- The extents of the other active modules. -/
theorem forall_otherExtents {index : Option Nat} {p : Nat × Nat → Prop} :
    (∀ extent ∈ catalog.otherExtents index, p extent) ↔
      ∀ (place : Nat) (other : ExecutableModule), catalog.modules[place]? = some other →
        other.active = true → some place ≠ index → ∀ extent ∈ other.activeExtents,
          p (other.physicalStart + extent.offset,
            other.physicalStart + extent.offset + extent.size) := by
  unfold otherExtents
  constructor
  · intro h place other hother hactive hplace extent hextent
    refine h _ (List.mem_flatMap.mpr ⟨(other, place), List.mem_zipIdx_iff_getElem?.mpr hother, ?_⟩)
    dsimp only
    rw [if_neg (by simp [hactive, hplace])]
    exact List.mem_map_of_mem hextent
  · intro h pair hpair
    obtain ⟨⟨other, place⟩, hother, hpair⟩ := List.mem_flatMap.mp hpair
    dsimp only at hpair
    split at hpair
    · cases hpair
    rename_i hused
    simp only [Bool.not_eq_true', not_or, Bool.not_eq_false] at hused
    obtain ⟨extent, hextent, rfl⟩ := List.mem_map.mp hpair
    exact h place other (List.mem_zipIdx_iff_getElem?.mp hother) hused.1 hused.2 extent hextent

variable {extents : List (Nat × Nat)}

theorem lt_foldl_snapshot {physical limit position : Nat} :
    position < extents.foldl (fun limit extent =>
        if extent.1 ≤ physical then limit else min limit (extent.1 - physical)) limit ↔
      position < limit ∧ ∀ extent ∈ extents, physical < extent.1 → physical + position < extent.1 := by
  induction extents generalizing limit with
  | nil => simp
  | cons extent rest ih =>
    rw [List.foldl_cons, ih, List.forall_mem_cons, ← and_assoc]
    refine and_congr_left fun _ => ?_
    split
    · omega
    · omega

theorem lt_foldl_extension {currentEnd limit position : Nat} :
    currentEnd + position < extents.foldl (fun extensionEnd extent =>
        if extent.2 ≤ currentEnd ∨ extent.1 ≥ extensionEnd then extensionEnd
        else if extent.1 ≤ currentEnd then currentEnd else extent.1) limit ↔
      currentEnd + position < limit ∧
        ∀ extent ∈ extents, extent.2 ≤ currentEnd ∨ currentEnd + position < extent.1 := by
  induction extents generalizing limit with
  | nil => simp
  | cons extent rest ih =>
    rw [List.foldl_cons, ih, List.forall_mem_cons, ← and_assoc]
    refine and_congr_left fun _ => ?_
    split
    · omega
    · split
      · omega
      · omega

/-- The byte at a position behind the address goes into a new module: up to it, the bytes are
there and were written, and no extent begins. -/
def Captures (catalog : ModuleCatalog) (memory : Memory) (address maximumBytes : BitVec 32)
    (position : Nat) : Prop :=
  (position < maximumBytes.toNat ∧ ∀ extent ∈ catalog.otherExtents none,
    (canonicalPhysicalAddress address).toNat < extent.1 →
      (canonicalPhysicalAddress address).toNat + position < extent.1) ∧
  ∀ earlier ≤ position, catalog.mayCapture memory address earlier = true

theorem captures_iff {position : Nat} : catalog.Captures memory address maximumBytes position ↔
      position < runLength (catalog.mayCapture memory address)
        (catalog.snapshotLimit (canonicalPhysicalAddress address).toNat maximumBytes.toNat) 0 := by
  rw [lt_runLength_iff]
  unfold snapshotLimit Captures
  rw [lt_foldl_snapshot]
  simp only [Nat.zero_add]

/-- The byte at a position behind a module continues it: up to it, the bytes are there, lie
in line and were written, and no other module has one. -/
def Continues (catalog : ModuleCatalog) (memory : Memory) (address maximumBytes : BitVec 32)
    (index : Nat) (found : ExecutableModule) (position : Nat) : Prop :=
  (found.physicalStart + found.bytes.length + position <
      min ((canonicalPhysicalAddress address).toNat + maximumBytes.toNat) (2 ^ 32) ∧
    ∀ extent ∈ catalog.otherExtents (some index),
      extent.2 ≤ found.physicalStart + found.bytes.length ∨
        found.physicalStart + found.bytes.length + position < extent.1) ∧
  ∀ earlier ≤ position, catalog.mayExtend memory found earlier = true

theorem continues_iff {index : Nat} {found : ExecutableModule} {position : Nat} :
    catalog.Continues memory address maximumBytes index found position ↔
      position < runLength (catalog.mayExtend memory found)
        (catalog.extensionEnd index (found.physicalStart + found.bytes.length)
          (min ((canonicalPhysicalAddress address).toNat + maximumBytes.toNat) (2 ^ 32)) -
            (found.physicalStart + found.bytes.length)) 0 := by
  rw [lt_runLength_iff, Nat.lt_sub_iff_add_lt']
  unfold extensionEnd Continues
  rw [lt_foldl_extension]
  simp only [Nat.zero_add]

/-! ## What a promotion adds -/

/-- The bytes of a module from an offset on are new: copied from memory, written by the guest,
at most as many from the address on as allowed, and apart from the extents that were there. -/
structure NewBytes (catalog : ModuleCatalog) (memory : Memory) (address maximumBytes : BitVec 32)
    (index : Option Nat) (module : ExecutableModule) (start : Nat) : Prop where
  some : start < module.bytes.length
  copied : ∀ offset byte, start ≤ offset → module.bytes[offset]? = .some byte →
    memory.readU8 (BitVec.ofNat 32 (module.guestStart.toNat + offset)) = .ok byte
  written : ∀ offset, start ≤ offset → offset < module.bytes.length →
    catalog.wasWritten (BitVec.ofNat 32 (module.guestStart.toNat + offset)) = true
  bounded : module.physicalStart + module.bytes.length ≤
    (canonicalPhysicalAddress address).toNat + maximumBytes.toNat
  apart : ∀ extent ∈ catalog.otherExtents index, extent.2 ≤ module.physicalStart + start ∨
    module.physicalStart + module.bytes.length ≤ extent.1

/-- One module of written bytes is new, or is longer than before. -/
inductive Promotes (catalog : ModuleCatalog) (memory : Memory) (address maximumBytes : BitVec 32)
    (after : ModuleCatalog) : Prop
  | captured {module : ExecutableModule} (hkind : isRuntimeWriteModule module = true)
      (hmodules : after.modules = catalog.modules ++ [module])
      (hpages : after.runtimeWritePages = catalog.runtimeWritePages)
      (hstart : module.guestStart = address)
      (hnew : NewBytes catalog memory address maximumBytes none module 0)
  | extended {index : Nat} {found module : ExecutableModule}
      (hkind : isRuntimeWriteModule module = true) (hfound : catalog.modules[index]? = some found)
      (hmodules : after.modules = catalog.modules.set index module)
      (hpages : after.runtimeWritePages = catalog.runtimeWritePages)
      (hstart : module.guestStart = found.guestStart)
      (hkept : module.bytes.take found.bytes.length = found.bytes)
      (hnew : NewBytes catalog memory address maximumBytes (some index) module found.bytes.length)

theorem isRuntimeWriteModule_capture (number : Nat) (address : BitVec 32)
    (bytes : List (BitVec 8)) : isRuntimeWriteModule (runtimeWriteModule number address bytes) = true := by
  unfold isRuntimeWriteModule runtimeWriteModule
  simp

variable {module : ExecutableModule}

/-- What a publication goes through. -/
theorem publish_spec (h : catalog.publish module = .ok after) :
    ∃ normalized generation, validateAndNormalizeModule module = .ok normalized ∧
      (∀ existing ∈ catalog.modules, existing.active = true →
        physicalExtentsOverlap normalized existing.guestStart existing.activeExtents = false) ∧
      after = catalog.append { normalized with generation := generation } := by
  unfold publish at h
  obtain ⟨normalized, hnormalized, h⟩ := bind_eq_ok h
  dsimp only at h
  split at h
  · cases h
  split at h
  · cases h
  rename_i hapart
  obtain ⟨generation, hgeneration, h⟩ := bind_eq_ok h
  cases h
  refine ⟨normalized, generation, hnormalized, fun existing hexisting hactive => ?_, rfl⟩
  rw [Bool.not_eq_true, List.any_eq_false] at hapart
  have hclear := hapart existing hexisting
  rw [hactive, Bool.true_and, Bool.not_eq_true] at hclear
  exact hclear

theorem physicalExtentsOverlap_eq_false {left : ExecutableModule} {rightGuestStart : BitVec 32}
    {rightExtents : List ExecutableModuleActiveExtent} :
    physicalExtentsOverlap left rightGuestStart rightExtents = false ↔
      ∀ leftExtent ∈ left.activeExtents, ∀ rightExtent ∈ rightExtents,
        (canonicalPhysicalAddress rightGuestStart).toNat + rightExtent.offset + rightExtent.size ≤
            left.physicalStart + leftExtent.offset ∨
          left.physicalStart + leftExtent.offset + leftExtent.size ≤
            (canonicalPhysicalAddress rightGuestStart).toNat + rightExtent.offset := by
  unfold physicalExtentsOverlap
  simp only [List.any_eq_false, Bool.not_eq_true, Bool.and_eq_false_iff, decide_eq_false_iff_not,
    Nat.not_lt]

theorem normalizeActiveExtents_whole
    (hnone : module.activeExtents = []) (hfilled : module.bytes ≠ []) :
    normalizeActiveExtents module =
      .ok { module with activeExtents := [⟨0, module.bytes.length⟩] } := by
  have hlength : module.bytes.length ≠ 0 := fun hzero =>
    hfilled (List.eq_nil_of_length_eq_zero hzero)
  unfold normalizeActiveExtents
  rw [hnone]
  simp [normalizeExtents, hlength, bind, Except.bind, pure, Except.pure]

/-- A module that passes has its extents in normal form, and is otherwise as it was. -/
theorem validate_normal {module normalized : ExecutableModule}
    {extents : List ExecutableModuleActiveExtent}
    (hnormal : normalizeActiveExtents module = .ok { module with activeExtents := extents })
    (h : validateAndNormalizeModule module = .ok normalized) :
    normalized = { module with activeExtents := extents, active := true } := by
  unfold validateAndNormalizeModule at h
  dsimp only at h
  split at h
  · cases h
  split at h
  · cases h
  split at h
  · cases h
  rw [hnormal] at h
  obtain ⟨extended, hextended, h⟩ := bind_eq_ok h
  cases hextended
  dsimp only at h
  split at h
  · cases h
  obtain ⟨_, -, h⟩ := bind_eq_ok h
  split at h
  · cases h
  cases h
  rfl

theorem add_ofNat_eq (address : BitVec 32) (offset : Nat) :
    address + BitVec.ofNat 32 offset = BitVec.ofNat 32 (address.toNat + offset) := by
  rw [BitVec.ofNat_add, BitVec.ofNat_toNat, BitVec.setWidth_eq]

variable {promoted : Bool}

/-- The bytes that a capture copies are the ones that it may copy. -/
theorem capture_promotes
    (h : catalog.captureRuntimeWrite memory address maximumBytes = .ok (promoted, after)) :
    (promoted = false ∧ after = catalog) ∨
      (promoted = true ∧ Promotes catalog memory address maximumBytes after) := by
  unfold captureRuntimeWrite at h
  dsimp only at h
  split at h
  · cases h
    exact .inl ⟨rfl, rfl⟩
  rename_i hsize
  obtain ⟨bytes, hbytes, h⟩ := bind_eq_ok h
  obtain ⟨published, hpublished, h⟩ := bind_eq_ok h
  cases h
  refine .inr ⟨rfl, ?_⟩
  have hread := mapM_eq_ok hbytes
  have hlength := hread.length_eq
  rw [List.length_range] at hlength
  have hcaptured : ∀ position < bytes.length,
      catalog.Captures memory address maximumBytes position := by
    intro position hposition
    rw [captures_iff]
    omega
  obtain ⟨normalized, generation, hnormalized, hapart, rfl⟩ := publish_spec hpublished
  have hfilled : bytes ≠ [] := by
    rintro rfl
    rw [List.length_nil] at hlength
    omega
  rw [validate_normal (normalizeActiveExtents_whole rfl hfilled) hnormalized] at hapart ⊢
  obtain ⟨⟨hlast, -⟩, -⟩ := hcaptured (bytes.length - 1) (by omega)
  refine .captured ?_ rfl rfl rfl
    ⟨?_, fun offset byte _ hbyte => ?_, fun offset _ hoffset => ?_, ?_, ?_⟩
  · exact isRuntimeWriteModule_capture catalog.nextRuntimeWriteModule address bytes
  · exact List.length_pos_of_ne_nil hfilled
  · change bytes[offset]? = _ at hbyte
    obtain ⟨hoffset, hbyte⟩ := List.getElem?_eq_some_iff.mp hbyte
    have hhere := (List.forall₂_iff_get.mp hread).2 offset (by simpa using hlength ▸ hoffset) hoffset
    simp only [List.get_eq_getElem, List.getElem_range] at hhere
    rw [hbyte, add_ofNat_eq] at hhere
    exact hhere
  · have hallowed := (hcaptured offset hoffset).2 offset le_rfl
    unfold mayCapture at hallowed
    simp only [Bool.and_eq_true] at hallowed
    rw [add_ofNat_eq] at hallowed
    exact hallowed.2
  · change (canonicalPhysicalAddress address).toNat + bytes.length ≤ _
    omega
  · refine forall_otherExtents.mpr fun place other hother hactive _ extent hextent => ?_
    exact physicalExtentsOverlap_eq_false.mp
      (hapart other (List.mem_of_getElem? hother) hactive) ⟨0, bytes.length⟩ List.mem_cons_self
      extent hextent

theorem getElem?_take_even {run : List (BitVec 8)} {position : Nat} {byte : BitVec 8}
    (h : (run.take (run.length / 2 * 2))[position]? = some byte) : run[position]? = some byte := by
  rw [List.getElem?_take] at h
  split at h
  · exact h
  · cases h

/-- The bytes that an extension copies are the ones that continue the module. -/
theorem extend_promotes {index : Nat} {found : ExecutableModule}
    (hfound : catalog.modules[index]? = some found)
    (h : catalog.extendRuntimeWrite memory address maximumBytes index found = .ok (promoted, after)) :
    (promoted = false ∧ after = catalog) ∨
      (promoted = true ∧ Promotes catalog memory address maximumBytes after) := by
  unfold extendRuntimeWrite at h
  split at h
  · cases h
    exact .inl ⟨rfl, rfl⟩
  rename_i hkind
  split at h
  · cases h
    exact .inl ⟨rfl, rfl⟩
  split at h
  · cases h
    exact .inl ⟨rfl, rfl⟩
  dsimp only at h
  split at h
  · cases h
    exact .inl ⟨rfl, rfl⟩
  obtain ⟨run, hrun, h⟩ := bind_eq_ok h
  split at h
  · cases h
    exact .inl ⟨rfl, rfl⟩
  rename_i hsome
  obtain ⟨expanded, hexpanded, h⟩ := bind_eq_ok h
  split at h
  · cases h
  cases h
  refine .inr ⟨rfl, ?_⟩
  obtain ⟨extents, rfl, -⟩ := ExecutableModule.validate_ok hexpanded
  obtain ⟨hlength, hread⟩ := readRun_ok hrun
  have hcontinues : ∀ position < run.length,
      catalog.Continues memory address maximumBytes index found position := by
    intro position hposition
    rwa [continues_iff, ← hlength]
  have hcount : (run.take (run.length / 2 * 2)).length = run.length / 2 * 2 := by
    rw [List.length_take]
    omega
  have hpositive : 0 < run.length / 2 * 2 := by
    rw [← hcount]
    refine List.length_pos_of_ne_nil fun hnil => hsome ?_
    rw [hnil]
    rfl
  obtain ⟨⟨hlast, hapart⟩, -⟩ := hcontinues (run.length / 2 * 2 - 1) (by omega)
  have hbytes : (found.bytes ++ run.take (run.length / 2 * 2)).length =
      found.bytes.length + run.length / 2 * 2 := by rw [List.length_append, hcount]
  refine @Promotes.extended _ _ _ _ _ index found _ ?_ hfound rfl rfl rfl ?_
    ⟨?_, fun offset byte hstart hbyte => ?_, fun offset hstart hoffset => ?_, ?_, ?_⟩
  · rw [Bool.not_eq_true', Bool.not_eq_false] at hkind
    exact hkind
  · exact List.take_left
  · change _ < (found.bytes ++ run.take (run.length / 2 * 2)).length
    omega
  · change (found.bytes ++ run.take (run.length / 2 * 2))[offset]? = _ at hbyte
    rw [List.getElem?_append_right hstart] at hbyte
    have hhere := hread _ byte (getElem?_take_even hbyte)
    rw [show found.guestStart.toNat + found.bytes.length + (0 + (offset - found.bytes.length)) =
      found.guestStart.toNat + offset by omega] at hhere
    exact hhere
  · change offset < (found.bytes ++ run.take (run.length / 2 * 2)).length at hoffset
    have hallowed := (hcontinues (offset - found.bytes.length) (by omega)).2 _ le_rfl
    unfold mayExtend at hallowed
    simp only [Bool.and_eq_true] at hallowed
    rw [show found.guestStart.toNat + found.bytes.length + (offset - found.bytes.length) =
      found.guestStart.toNat + offset by omega] at hallowed
    exact hallowed.2
  · change found.physicalStart + (found.bytes ++ run.take (run.length / 2 * 2)).length ≤ _
    omega
  · intro extent hextent
    change extent.2 ≤ found.physicalStart + found.bytes.length ∨
      found.physicalStart + (found.bytes ++ run.take (run.length / 2 * 2)).length ≤ extent.1
    have hclear := hapart extent hextent
    omega

/-- A promotion that returns has added bytes to one module, or has left the catalog. -/
theorem promote_promotes
    (h : catalog.promoteRuntimeWrite memory address maximumBytes = .ok (promoted, after)) :
    (promoted = false ∧ after = catalog) ∨
      (promoted = true ∧ Promotes catalog memory address maximumBytes after) := by
  unfold promoteRuntimeWrite at h
  split at h
  · cases h
    exact .inl ⟨rfl, rfl⟩
  split at h
  · cases h
    exact .inl ⟨rfl, rfl⟩
  split at h
  · rename_i hresolved
    obtain ⟨place, -, hmap⟩ := Option.bind_eq_some_iff.mp hresolved
    obtain ⟨found, hfound, hpair⟩ := Option.map_eq_some_iff.mp hmap
    cases hpair
    exact extend_promotes hfound h
  · exact capture_promotes h

end ModuleCatalog
end KatanaRecomp.Runtime
