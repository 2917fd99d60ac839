import KatanaRecomp.Runtime.ControlTransfer
import KatanaRecomp.Runtime.DiscLoadAtomicity
import KatanaRecomp.Runtime.WriteProvenance

/-! # Runs of the catalog

The operations of the catalog in any order, and what all of them keep: every module is
what validation makes of a module. -/
namespace KatanaRecomp.Runtime
open Lib (bind_eq_ok mapM_eq_ok)
open ExecutableCodeTracker (GuestWriteEvent)

namespace ModuleCatalog
open ExecutableModuleCatalog (PreparedDiscLoadCatalog ModuleUpdate moduleUpdates)
variable {catalog after : ModuleCatalog}

/-- What the catalog goes through. A disc load is prepared and committed in one go, or
cancelled; a capture that fails has used up its number. -/
inductive Run : ModuleCatalog → Prop
  | start : Run {}
  | publish {catalog after : ModuleCatalog} {module : ExecutableModule} (h : Run catalog)
      (hcall : catalog.publish module = .ok after) : Run after
  | publishLoadedRange {catalog after : ModuleCatalog} {module : ExecutableModule}
      {code code' : CodeOwners} {observation : LoadedRangeWriteObservation} (h : Run catalog)
      (hcall : catalog.publishLoadedRange module code observation = .ok (after, code')) : Run after
  | unload {catalog after : ModuleCatalog} {id : String} {code code' : CodeOwners}
      (h : Run catalog) (hcall : catalog.unload id code = .ok (after, code')) : Run after
  | replace {catalog after : ModuleCatalog} {module : ExecutableModule} {code code' : CodeOwners}
      (h : Run catalog) (hcall : catalog.replace module code = .ok (after, code')) : Run after
  | updateRelocations {catalog after : ModuleCatalog} {id : String}
      {relocations : List ExecutableModuleRelocation} {code code' : CodeOwners} (h : Run catalog)
      (hcall : catalog.updateRelocations id relocations code = .ok (after, code')) : Run after
  | authorize {catalog : ModuleCatalog} (address maximumBytes : BitVec 32) (h : Run catalog) :
      Run (catalog.authorizeControlTransfer address maximumBytes).2
  | store {catalog : ModuleCatalog} (address : BitVec 32) (size : Nat) (source : CodeWriteSource)
      (bytesChanged : Bool) (h : Run catalog) :
      Run (catalog.recordRuntimeWrite address size source bytesChanged)
  | batch {catalog after : ModuleCatalog} {events : List GuestWriteEvent} (h : Run catalog)
      (hcall : catalog.recordRuntimeWriteBatch events = some after) : Run after
  | promote {catalog after : ModuleCatalog} {memory : Memory} {address maximumBytes : BitVec 32}
      {promoted : Bool} (h : Run catalog)
      (hcall : catalog.promoteRuntimeWrite memory address maximumBytes = .ok (promoted, after)) :
      Run after
  | promoteFailed {catalog : ModuleCatalog} (h : Run catalog) :
      Run { catalog with
        nextRuntimeWriteModule := (catalog.nextRuntimeWriteModule + 1) % 2 ^ 64 }
  | discLoad {catalog reserved after : ModuleCatalog} {modules : List ExecutableModule}
      {ranges : List (BitVec 32 × Nat)} {plan : PreparedDiscLoadCatalog} (h : Run catalog)
      (hprepare : catalog.prepareDiscLoadCatalog modules ranges = .ok (plan, reserved))
      (hcommit : reserved.commitDiscLoadCatalog plan = some after) : Run after
  | discLoadCancelled {catalog reserved : ModuleCatalog} {modules : List ExecutableModule}
      {ranges : List (BitVec 32 × Nat)} {plan : PreparedDiscLoadCatalog} (h : Run catalog)
      (hprepare : catalog.prepareDiscLoadCatalog modules ranges = .ok (plan, reserved)) :
      Run (reserved.cancelDiscLoadCatalog plan)

/-! ## Every module is sound -/

def AllSound (catalog : ModuleCatalog) : Prop := ∀ module ∈ catalog.modules, module.Sound

theorem AllSound.of_modules (h : AllSound catalog) (hsame : after.modules = catalog.modules) :
    AllSound after := by
  intro module hmodule
  rw [hsame] at hmodule
  exact h module hmodule

variable {module : ExecutableModule}

theorem AllSound.append (h : AllSound catalog) (hmodule : module.Sound)
    (happend : after.modules = catalog.modules ++ [module]) : AllSound after := by
  intro other hother
  rw [happend] at hother
  rcases List.mem_append.mp hother with hold | hnew
  · exact h other hold
  · rw [List.mem_singleton.mp hnew]
    exact hmodule

variable {index : Nat}

theorem AllSound.set (h : AllSound catalog)
    (hmodule : module.Sound) (hset : after.modules = catalog.modules.set index module) :
    AllSound after := by
  intro other hother
  rw [hset] at hother
  rcases List.mem_or_eq_of_mem_set hother with hold | rfl
  · exact h other hold
  · exact hmodule

theorem nextIncarnation_ne_zero {id : String} {initial generation : Nat} (hinitial : initial ≠ 0)
    (h : catalog.nextIncarnation id initial = .ok generation) : generation ≠ 0 := by
  unfold nextIncarnation ExecutableModuleCatalog.nextIncarnation at h
  dsimp only at h
  split at h
  · cases h
    exact hinitial
  split at h
  · cases h
  · cases h
    exact Nat.succ_ne_zero _

theorem publish_ok (h : catalog.publish module = .ok after) :
    ∃ published, published.Sound ∧ after = catalog.append published := by
  unfold publish at h
  obtain ⟨normalized, hnormalized, h⟩ := bind_eq_ok h
  obtain ⟨extents, -, hsound⟩ := ExecutableModule.validate_ok hnormalized
  dsimp only at h
  split at h
  · cases h
  split at h
  · cases h
  obtain ⟨generation, hgeneration, h⟩ := bind_eq_ok h
  cases h
  exact ⟨_, hsound.withGeneration (nextIncarnation_ne_zero hsound.generations.1 hgeneration), rfl⟩

theorem AllSound.publish (h : AllSound catalog)
    (hcall : catalog.publish module = .ok after) : AllSound after := by
  obtain ⟨published, hsound, rfl⟩ := publish_ok hcall
  exact h.append hsound rfl

theorem AllSound.recordRuntimeWrite (h : AllSound catalog) (address : BitVec 32) (size : Nat)
    (source : CodeWriteSource) (bytesChanged : Bool) :
    AllSound (catalog.recordRuntimeWrite address size source bytesChanged) := by
  unfold ModuleCatalog.recordRuntimeWrite
  split
  · exact h
  rename_i hsize
  split
  · exact h
  dsimp only
  split
  · exact h
  split
  · exact h
  split
  · intro module hmodule
    obtain ⟨old, hold, rfl⟩ := List.mem_map.mp hmodule
    exact (h old hold).subtractRange (by omega)
  · exact h

variable {code code' : CodeOwners}

theorem AllSound.publishLoadedRange (h : AllSound catalog)
    {observation : LoadedRangeWriteObservation}
    (hcall : catalog.publishLoadedRange module code observation = .ok (after, code')) :
    AllSound after := by
  unfold ModuleCatalog.publishLoadedRange at hcall
  obtain ⟨normalized, hnormalized, hcall⟩ := bind_eq_ok hcall
  obtain ⟨extents, -, hsound⟩ := ExecutableModule.validate_ok hnormalized
  dsimp only at hcall
  split at hcall
  · cases hcall
  split at hcall
  · cases hcall
  obtain ⟨generation, hgeneration, hcall⟩ := bind_eq_ok hcall
  have hpublished := hsound.withGeneration
    (nextIncarnation_ne_zero hsound.generations.1 hgeneration)
  split at hcall
  · cases hcall
    exact h.append hpublished rfl
  · split at hcall
    · cases hcall
    · cases hcall
      refine AllSound.append (AllSound.recordRuntimeWrite ?_ _ _ _ _) hpublished rfl
      exact h.of_modules rfl

variable {id : String}

/-- The module at the place of an id. -/
theorem indexOf_some (h : ((catalog.indexOf id).bind fun index =>
      (catalog.modules[index]?).map fun module => (index, module)) = some (index, module)) :
    catalog.indexOf id = some index ∧ catalog.modules[index]? = some module := by
  obtain ⟨found, hfound, hmodule⟩ := Option.bind_eq_some_iff.mp h
  obtain ⟨other, hother, hpair⟩ := Option.map_eq_some_iff.mp hmodule
  cases hpair
  exact ⟨hfound, hother⟩

variable (h : AllSound catalog)
include h

theorem AllSound.retireModule
    (hmodule : catalog.modules[index]? = some module) (invalidated : Nat) :
    AllSound (catalog.retireModule index module invalidated) :=
  h.set ((h module (List.mem_of_getElem? hmodule)).withExtents (.nil _) false) rfl

theorem AllSound.unload (hcall : catalog.unload id code = .ok (after, code')) : AllSound after := by
  unfold ModuleCatalog.unload at hcall
  split at hcall
  · cases hcall
  · rename_i hfound
    obtain ⟨⟨invalidated, code''⟩, -, hcall⟩ := bind_eq_ok hcall
    cases hcall
    exact h.retireModule (indexOf_some hfound).2 invalidated

theorem AllSound.replace
    (hcall : catalog.replace module code = .ok (after, code')) : AllSound after := by
  unfold ModuleCatalog.replace at hcall
  split at hcall
  · cases hcall
  · rename_i hfound
    obtain ⟨generation, -, hcall⟩ := bind_eq_ok hcall
    obtain ⟨normalized, hnormalized, hcall⟩ := bind_eq_ok hcall
    obtain ⟨extents, -, hsound⟩ := ExecutableModule.validate_ok hnormalized
    dsimp only at hcall
    split at hcall
    · cases hcall
    obtain ⟨⟨invalidated, code''⟩, -, hcall⟩ := bind_eq_ok hcall
    cases hcall
    exact (h.retireModule (indexOf_some hfound).2 invalidated).append hsound rfl

theorem AllSound.updateRelocations {relocations : List ExecutableModuleRelocation}
    (hcall : catalog.updateRelocations id relocations code = .ok (after, code')) :
    AllSound after := by
  unfold ModuleCatalog.updateRelocations at hcall
  split at hcall
  · cases hcall
  · rename_i hfound
    dsimp only at hcall
    split at hcall
    · cases hcall
    obtain ⟨_, -, hcall⟩ := bind_eq_ok hcall
    obtain ⟨⟨invalidated, code''⟩, -, hcall⟩ := bind_eq_ok hcall
    cases hcall
    have hold := h _ (List.mem_of_getElem? (indexOf_some hfound).2)
    exact h.set (hold.withRelocations relocations) rfl

omit h

/-- The module that a control transfer may open contains the target. -/
theorem promotable_spec {address : BitVec 32}
    (h : catalog.promotable address = some index) (hmodule : catalog.modules[index]? = some module) :
    module.contains address 2 = true := by
  obtain ⟨hlt, hfound, -⟩ := List.findIdx?_eq_some_iff_getElem.mp h
  rw [List.getElem?_eq_getElem hlt] at hmodule
  cases hmodule
  exact (Bool.and_eq_true_iff.mp hfound).1

section
variable (h : AllSound catalog)
include h

theorem AllSound.authorize (address maximumBytes : BitVec 32) :
    AllSound (catalog.authorizeControlTransfer address maximumBytes).2 := by
  unfold authorizeControlTransfer
  split
  · exact h
  rename_i hcheck
  split
  · exact h
  rename_i index hindex
  intro module hmodule
  obtain ⟨place, hplace⟩ := List.mem_iff_getElem?.mp hmodule
  change (catalog.modules.modify index _)[place]? = some module at hplace
  rw [List.getElem?_modify] at hplace
  obtain ⟨old, hold, hsame⟩ := Option.map_eq_some_iff.mp hplace
  have hsound := h old (List.mem_of_getElem? hold)
  by_cases hhere : index = place
  · subst hhere
    rw [if_pos rfl] at hsame
    rw [← hsame]
    exact hsound.openWindow (promotable_spec hindex hold) fun hlt => hcheck (.inr hlt)
  · rw [if_neg hhere] at hsame
    exact hsame ▸ hsound

theorem AllSound.batch {events : List GuestWriteEvent}
    (hcall : catalog.recordRuntimeWriteBatch events = some after) : AllSound after := by
  unfold recordRuntimeWriteBatch at hcall
  split at hcall
  · cases hcall
  · obtain ⟨pages, -, rfl⟩ := Option.map_eq_some_iff.mp hcall
    exact h

theorem AllSound.promote {memory : Memory} {address maximumBytes : BitVec 32} {promoted : Bool}
    (hcall : catalog.promoteRuntimeWrite memory address maximumBytes = .ok (promoted, after)) :
    AllSound after := by
  unfold promoteRuntimeWrite at hcall
  split at hcall
  · cases hcall
    exact h
  split at hcall
  · cases hcall
    exact h
  split at hcall
  · unfold extendRuntimeWrite at hcall
    split at hcall
    · cases hcall
      exact h
    split at hcall
    · cases hcall
      exact h
    split at hcall
    · cases hcall
      exact h
    dsimp only at hcall
    split at hcall
    · cases hcall
      exact h
    obtain ⟨run, -, hcall⟩ := bind_eq_ok hcall
    split at hcall
    · cases hcall
      exact h
    obtain ⟨expanded, hexpanded, hcall⟩ := bind_eq_ok hcall
    split at hcall
    · cases hcall
    · cases hcall
      obtain ⟨extents, -, hsound⟩ := ExecutableModule.validate_ok hexpanded
      exact h.set hsound rfl
  · unfold captureRuntimeWrite at hcall
    dsimp only at hcall
    split at hcall
    · cases hcall
      exact h
    obtain ⟨bytes, -, hcall⟩ := bind_eq_ok hcall
    obtain ⟨published, hpublished, hcall⟩ := bind_eq_ok hcall
    cases hcall
    have hcounted : AllSound { catalog with
        nextRuntimeWriteModule := (catalog.nextRuntimeWriteModule + 1) % 2 ^ 64 } :=
      h.of_modules rfl
    exact hcounted.publish hpublished

end

/-! ## Disc loads -/

/-- The extents of an update fit the module they are for. -/
def UpdateFits (modules : List ExecutableModule) (update : ModuleUpdate) : Prop :=
  ∃ module, modules[update.moduleIndex]? = some module ∧
    SoundExtents module.bytes.length update.remainingExtents

variable {ranges : List (BitVec 32 × Nat)}

theorem SoundExtents.subtractAll {length : Nat} (guestStart : BitVec 32)
    (hsizes : ∀ range ∈ ranges, range.2 ≠ 0)
    (extents : List ExecutableModuleActiveExtent) (changed : Bool) (h : SoundExtents length extents) :
    SoundExtents length (ranges.foldl (fun (extents, changed) (address, size) =>
      let start := (canonicalPhysicalAddress address).toNat
      let remaining := subtractPhysicalRange guestStart start (start + size) extents
      (remaining, changed || decide (remaining ≠ extents))) (extents, changed)).1 := by
  induction ranges generalizing extents changed with
  | nil => exact h
  | cons range rest ih =>
    obtain ⟨hsize, hrest⟩ := List.forall_mem_cons.mp hsizes
    exact ih hrest _ _ (h.subtract guestStart (by omega))

variable {modules : List ExecutableModule}

theorem validated_sound {validated : List ExecutableModule}
    (h : List.Forall₂ (fun raw module => validateAndNormalizeModule raw = .ok module) modules
      validated) : ∀ module ∈ validated, module.Sound := by
  induction h with
  | nil => exact fun _ h => absurd h List.not_mem_nil
  | cons hvalid _ ih =>
    exact List.forall_mem_cons.mpr ⟨(ExecutableModule.validate_ok hvalid).choose_spec.2, ih⟩

theorem moduleUpdates_fit (h : AllSound catalog) (hsizes : ∀ range ∈ ranges, range.2 ≠ 0) :
    ∀ update ∈ catalog.discLoadView.moduleUpdates ranges, UpdateFits catalog.modules update := by
  intro update hupdate
  obtain ⟨⟨module, index⟩, hmem, hupdate⟩ := List.mem_filterMap.mp hupdate
  have hget : catalog.modules[index]? = some module := List.mem_zipIdx_iff_getElem?.mp hmem
  simp only [ExecutableModuleCatalog.updateOf] at hupdate
  split at hupdate
  · cases hupdate
  · split at hupdate
    · cases hupdate
      exact ⟨module, hget, SoundExtents.subtractAll _ hsizes _ _
        (h module (List.mem_of_getElem? hget)).extents⟩
    · cases hupdate

variable {view : ExecutableModuleCatalog}

theorem incarnateModules_sound {done modules incarnated :
      List ExecutableModule} (hdone : ∀ module ∈ done, module.Sound)
    (hmodules : ∀ module ∈ modules, module.Sound)
    (h : view.incarnateModules done modules = .ok incarnated) :
    ∀ module ∈ incarnated, module.Sound := by
  induction modules generalizing done with
  | nil =>
    cases h
    exact hdone
  | cons module rest ih =>
    obtain ⟨hmodule, hrest⟩ := List.forall_mem_cons.mp hmodules
    unfold ExecutableModuleCatalog.incarnateModules at h
    obtain ⟨_, -, h⟩ := bind_eq_ok h
    obtain ⟨generation, hgeneration, h⟩ := bind_eq_ok h
    refine ih (fun other hother => ?_) hrest h
    rcases List.mem_append.mp hother with hold | hnew
    · exact hdone other hold
    · rw [List.mem_singleton.mp hnew]
      refine hmodule.withGeneration ?_
      exact @nextIncarnation_ne_zero { modules := view.modules } _ _ _ hmodule.generations.1
        hgeneration

variable {plan : PreparedDiscLoadCatalog} {reserved : ModuleCatalog}

/-- What a disc load is about to commit. -/
theorem prepare_fits (h : AllSound catalog)
    (hprepare : catalog.prepareDiscLoadCatalog modules ranges = .ok (plan, reserved)) :
    reserved.modules = catalog.modules ∧ (∀ module ∈ plan.modules, module.Sound) ∧
      ∀ update ∈ plan.updates, UpdateFits catalog.modules update := by
  unfold prepareDiscLoadCatalog at hprepare
  obtain ⟨⟨plan', view⟩, hview, hsame⟩ := bind_eq_ok hprepare
  cases hsame
  have hranges : ∀ range ∈ ranges, range.2 ≠ 0 := by
    unfold ExecutableModuleCatalog.prepareDiscLoadCatalog at hview
    obtain ⟨_, hchecked, -⟩ := bind_eq_ok hview
    exact sizes_of_checkInvalidatedRanges hchecked
  refine ⟨rfl, ?_, ?_⟩
  · unfold ExecutableModuleCatalog.prepareDiscLoadCatalog at hview
    obtain ⟨_, -, hview⟩ := bind_eq_ok hview
    obtain ⟨normalized, hnormalized, hview⟩ := bind_eq_ok hview
    obtain ⟨incarnated, hincarnated, hview⟩ := bind_eq_ok hview
    obtain ⟨_, -, hview⟩ := bind_eq_ok hview
    cases hview
    exact incarnateModules_sound (fun _ h => absurd h List.not_mem_nil)
      (validated_sound (mapM_eq_ok hnormalized)) hincarnated
  · obtain ⟨-, -, hupdates, -⟩ := ExecutableModuleCatalog.prepareDiscLoadCatalog_spec hview
    rw [hupdates]
    exact moduleUpdates_fit h hranges

variable {next : ExecutableModuleCatalog}

theorem commitUpdate_modules {update : ModuleUpdate} (h : view.commitUpdate update = some next) :
    ∃ module, view.modules[update.moduleIndex]? = some module ∧
      next.modules = view.modules.set update.moduleIndex { module with
        activeExtents := update.remainingExtents, active := update.remainsActive } := by
  unfold ExecutableModuleCatalog.commitUpdate at h
  split at h
  · cases h
  rename_i module hmodule
  dsimp only at h
  split at h
  · obtain ⟨index, -, hnext⟩ := Option.bind_eq_some_iff.mp h
    cases hnext
    exact ⟨module, hmodule, rfl⟩
  · cases h
    exact ⟨module, hmodule, rfl⟩

/-- Sound modules with the bytes that they had. -/
structure SameBytes (before modules : List ExecutableModule) : Prop where
  sound : ∀ module ∈ modules, module.Sound
  bytes : modules.map (·.bytes) = before.map (·.bytes)

theorem SameBytes.updates {before : List ExecutableModule}
    {updates : List ModuleUpdate} (h : SameBytes before view.modules)
    (hfits : ∀ update ∈ updates, UpdateFits before update)
    (hcommit : updates.foldlM ExecutableModuleCatalog.commitUpdate view = some next) :
    SameBytes before next.modules := by
  induction updates generalizing view with
  | nil =>
    cases hcommit
    exact h
  | cons update rest ih =>
    obtain ⟨⟨old, hold, hextents⟩, hrest⟩ := List.forall_mem_cons.mp hfits
    rw [List.foldlM_cons] at hcommit
    obtain ⟨middle, hmiddle, hcommit⟩ := Option.bind_eq_some_iff.mp hcommit
    obtain ⟨module, hmodule, hmodules⟩ := commitUpdate_modules hmiddle
    have hsame : module.bytes = old.bytes := by
      have hbytes := congrArg (·[update.moduleIndex]?) h.bytes
      simp only [List.getElem?_map, hmodule, hold, Option.map_some, Option.some.injEq] at hbytes
      exact hbytes
    refine ih ⟨fun other hother => ?_, ?_⟩ hrest hcommit
    · rw [hmodules] at hother
      rcases List.mem_or_eq_of_mem_set hother with hin | rfl
      · exact h.sound other hin
      · rw [← hsame] at hextents
        exact (h.sound module (List.mem_of_getElem? hmodule)).withExtents hextents _
    · rw [hmodules, ← h.bytes]
      refine List.ext_getElem? fun place => ?_
      rw [List.getElem?_map, List.getElem?_map, List.getElem?_set]
      split
      · rename_i hplace
        subst hplace
        split
        · rw [hmodule]
          rfl
        · rw [List.getElem?_eq_none (by omega)]
      · rfl

theorem clearRanges_modules (ranges : List (BitVec 32 × Nat)) (view : ExecutableModuleCatalog) :
    (ranges.foldl ExecutableModuleCatalog.clearRange view).modules = view.modules := by
  induction ranges generalizing view with
  | nil => rfl
  | cons range rest ih => exact (ih _).trans rfl

theorem commitModules_modules
    (h : modules.foldlM ExecutableModuleCatalog.commitModule view = some next) :
    next.modules = view.modules ++ modules := by
  induction modules generalizing view with
  | nil =>
    cases h
    exact (List.append_nil _).symm
  | cons module rest ih =>
    rw [List.foldlM_cons] at h
    obtain ⟨middle, hmiddle, h⟩ := Option.bind_eq_some_iff.mp h
    have hmodules : middle.modules = view.modules ++ [module] := by
      unfold ExecutableModuleCatalog.commitModule at hmiddle
      dsimp only at hmiddle
      split at hmiddle
      · obtain ⟨index, -, hnext⟩ := Option.bind_eq_some_iff.mp hmiddle
        cases hnext
        rfl
      · cases hmiddle
        rfl
    rw [ih h, hmodules, List.append_assoc]
    rfl

theorem AllSound.discLoad (h : AllSound catalog)
    (hprepare : catalog.prepareDiscLoadCatalog modules ranges = .ok (plan, reserved))
    (hcommit : reserved.commitDiscLoadCatalog plan = some after) : AllSound after := by
  obtain ⟨hmodules, hincoming, hupdates⟩ := prepare_fits h hprepare
  unfold commitDiscLoadCatalog at hcommit
  obtain ⟨view, hview, hafter⟩ := Option.bind_eq_some_iff.mp hcommit
  cases hafter
  unfold ExecutableModuleCatalog.commitDiscLoadCatalog at hview
  obtain ⟨updated, hupdated, hview⟩ := Option.bind_eq_some_iff.mp hview
  have hstart : SameBytes catalog.modules reserved.discLoadView.modules := by
    refine ⟨?_, ?_⟩
    · change ∀ module ∈ reserved.modules, module.Sound
      rw [hmodules]
      exact h
    · change reserved.modules.map _ = _
      rw [hmodules]
  have hsound := (hstart.updates hupdates hupdated).sound
  intro module hmodule
  change module ∈ view.modules at hmodule
  rw [commitModules_modules hview, clearRanges_modules] at hmodule
  rcases List.mem_append.mp hmodule with hold | hnew
  · exact hsound module hold
  · exact hincoming module hnew

/-- Every module that a run has is sound. -/
theorem Run.allSound (h : Run catalog) : AllSound catalog := by
  induction h with
  | start => exact fun _ h => absurd h List.not_mem_nil
  | publish _ hcall ih => exact ih.publish hcall
  | publishLoadedRange _ hcall ih => exact ih.publishLoadedRange hcall
  | unload _ hcall ih => exact ih.unload hcall
  | replace _ hcall ih => exact ih.replace hcall
  | updateRelocations _ hcall ih => exact ih.updateRelocations hcall
  | authorize address maximumBytes _ ih => exact ih.authorize address maximumBytes
  | store address size source bytesChanged _ ih =>
    exact ih.recordRuntimeWrite address size source bytesChanged
  | batch _ hcall ih => exact ih.batch hcall
  | promote _ hcall ih => exact ih.promote hcall
  | promoteFailed _ ih => exact ih.of_modules rfl
  | discLoad _ hprepare hcommit ih => exact ih.discLoad hprepare hcommit
  | discLoadCancelled _ hprepare ih =>
    exact ih.of_modules (prepare_fits ih hprepare).1

/-! ## Control transfers in a run -/

/-- In every run, a control transfer that promotes a module only widens it exactly when the
module was no code before, or its bytes without a role lie in the window. -/
theorem control_transfer_widens_iff (hrun : Run catalog) {address maximumBytes : BitVec 32}
    {index : Nat} {module : ExecutableModule} (hpromotable : catalog.promotable address = some index)
    (hmodule : catalog.modules[index]? = some module)
    (hcall : (catalog.authorizeControlTransfer address maximumBytes).1 = true) : ∃ promoted,
      (catalog.authorizeControlTransfer address maximumBytes).2.modules[index]? = some promoted ∧
      (ExecutableModule.WidensOnly module promoted (module.windowBegin address)
          (module.windowEnd address maximumBytes) ↔
        (module.executablePermission = true → ∀ offset, module.Inside 1 offset →
          module.Unlabelled offset → module.windowBegin address ≤ offset ∧
            offset < module.windowEnd address maximumBytes)) := by
  have hsound := hrun.allSound module (List.mem_of_getElem? hmodule)
  unfold authorizeControlTransfer at hcall ⊢
  split at hcall
  · cases hcall
  rename_i hcheck
  rw [if_neg hcheck, hpromotable]
  refine ⟨module.openWindow address maximumBytes, ?_, ExecutableModule.openWindow_widens_iff hsound
    (promotable_spec hpromotable hmodule) fun hlt => hcheck (.inr hlt)⟩
  change (catalog.modules.modify index _)[index]? = _
  rw [List.getElem?_modify_eq, hmodule]
  rfl

/-- A module of four bytes that a control transfer may open. -/
def promotableModule (roles : List ExecutableModuleRangeRole) (permission : Bool) :
    ExecutableModule where
  id := "overlay"
  sourceIdentity := "disc"
  guestStart := 0x8C010000
  bytes := [9, 0, 9, 0]
  rangeRoles := roles
  activeExtents := [⟨0, 4⟩]
  executablePermission := permission
  controlTransferPromotionAllowed := true

theorem run_promotableModule {roles : List ExecutableModuleRangeRole} {permission : Bool}
    (h : ModuleCatalog.publish {} (promotableModule roles permission) =
      .ok (ModuleCatalog.append {} (promotableModule roles permission))) :
    Run (ModuleCatalog.append {} (promotableModule roles permission)) := .publish .start h

/-- Two bytes of a loaded module of data become code. -/
theorem control_transfer_widens_iff_sample : ∃ promoted,
      ((ModuleCatalog.append {} (promotableModule [⟨0, 4, .provenData⟩] false)
        ).authorizeControlTransfer 0x8C010002 2).2.modules[0]? = some promoted ∧
      ExecutableModule.WidensOnly (promotableModule [⟨0, 4, .provenData⟩] false) promoted 2 4 := by
  have hrun : Run (ModuleCatalog.append {} (promotableModule [⟨0, 4, .provenData⟩] false)) :=
    run_promotableModule rfl
  have hpromotable : (ModuleCatalog.append {} (promotableModule [⟨0, 4, .provenData⟩] false)
      ).promotable 0x8C010002 = some 0 := rfl
  have hcall : ((ModuleCatalog.append {} (promotableModule [⟨0, 4, .provenData⟩] false)
      ).authorizeControlTransfer 0x8C010002 2).1 = true := rfl
  obtain ⟨promoted, hpromoted, hwidens⟩ := control_transfer_widens_iff hrun hpromotable rfl hcall
  exact ⟨promoted, hpromoted, hwidens.mpr fun hpermission => nomatch hpermission⟩

/-- A module without roles was code on all of its bytes; the control transfer leaves the
window only. -/
theorem control_transfer_closes_unlabelled_bytes :
    let catalog := ModuleCatalog.append {} (promotableModule [] true)
    Run catalog ∧ catalog.promotable 0x8C010000 = some 0 ∧
      (catalog.authorizeControlTransfer 0x8C010000 2).1 = true ∧
      (catalog.modules[0]?).map (·.materializable 0x8C010002 2) = some true ∧
      ((catalog.authorizeControlTransfer 0x8C010000 2).2.modules[0]?).map
        (·.materializable 0x8C010002 2) = some false :=
  ⟨run_promotableModule rfl, rfl, rfl, rfl, rfl⟩

end ModuleCatalog
end KatanaRecomp.Runtime
