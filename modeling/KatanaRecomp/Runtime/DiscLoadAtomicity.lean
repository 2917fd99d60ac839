import KatanaRecomp.Lib.StateExcept
import KatanaRecomp.Runtime.DiscLoadTransaction
import KatanaRecomp.Runtime.DiscLoadWrites

/-! # Atomicity of disc loads

A transaction that throws leaves every store as it was: what it prepares before
the last admission is given back, and a range whose backing is gone takes the
ranges before it with it. A transaction that returns has written all its bytes,
and its receipt passes the check it is put through at the end. -/
namespace KatanaRecomp.Runtime
open Lib (bind_eq_ok mapM_eq_ok)

/-! ## Memory -/

namespace Memory

theorem ext_storage {memory memory' : Memory} (hmap : SameMap memory memory')
    (h : ∀ device offset, memory'.storage device offset = memory.storage device offset) :
    memory' = memory := by
  obtain ⟨regions, lookupMode, storage, apart⟩ := memory
  obtain ⟨regions', lookupMode', storage', apart'⟩ := memory'
  obtain ⟨hregions, hmode⟩ := hmap
  cases hregions
  cases hmode
  have hstorage : storage' = storage := by
    funext device offset
    exact h device offset
  cases hstorage
  rfl

theorem store_sameMap (memory : Memory) (device offset : Nat) (bytes : List (BitVec 8)) :
    SameMap memory (memory.store device offset bytes) := ⟨rfl, rfl⟩

variable {bytes : List (BitVec 8)}

theorem store_at {memory : Memory} {device offset index : Nat}
    {byte : BitVec 8} (h : bytes[index]? = some byte) :
    (memory.store device offset bytes).storage device (offset + index) = byte := by
  simp [store, h]

theorem store_other {memory : Memory} {device offset other at_ : Nat}
    (h : ¬ (other = device ∧ offset ≤ at_ ∧ at_ < offset + bytes.length)) :
    (memory.store device offset bytes).storage other at_ = memory.storage other at_ := by
  simp only [store]
  split
  · rename_i hin
    rw [List.getElem?_eq_none (by omega)]
    rfl
  · rfl

end Memory

/-- The bytes to restore are those of the memory. -/
structure MemoryWrite.ReadFrom (write : MemoryWrite) (memory : Memory) : Prop where
  length : write.previous.length = write.bytes.length
  inSpace : write.address.toNat + write.bytes.length ≤ 2 ^ 32
  previous : ∀ index < write.bytes.length, ∃ byte,
    memory.readU8 (write.address + BitVec.ofNat 32 index) = .ok byte ∧
      write.previous[index]? = some byte

/-- A write that was committed, at its place in a device. -/
structure MemoryWrite.PlacedAt (write : MemoryWrite) (memory : Memory) (device offset : Nat) :
    Prop where
  length : write.previous.length = write.bytes.length
  inSpace : write.address.toNat + write.bytes.length ≤ 2 ^ 32
  cell : ∀ index < write.bytes.length,
    memory.cell (write.address + BitVec.ofNat 32 index) = some (device, offset + index)
  previous : ∀ index < write.bytes.length,
    write.previous[index]? = some (memory.storage device (offset + index))
  again : ∀ later bytes, Memory.SameMap memory later → bytes.length = write.bytes.length →
    later.commitPrevalidatedLinearTransactionBytes write.address bytes write.changedMask =
      some (later.store device offset bytes)

variable {memory current : Memory}

theorem MemoryWrite.ReadFrom.placed {write : MemoryWrite} {current' : Memory}
    (h : write.ReadFrom memory) (hmap : Memory.SameMap memory current)
    (hcommit : current.commitPrevalidatedLinearTransactionBytes write.address write.bytes
      write.changedMask = some current') : ∃ device offset, write.PlacedAt memory device offset ∧
      current' = current.store device offset write.bytes := by
  have hback : Memory.SameMap current memory := ⟨hmap.regions.symm, hmap.lookupMode.symm⟩
  obtain ⟨device, offset, rfl, hcell, hagain⟩ := Memory.commit_spec hcommit
  have hcell' : ∀ index < write.bytes.length,
      memory.cell (write.address + BitVec.ofNat 32 index) = some (device, offset + index) := by
    intro index hindex
    rw [← hmap.cell]
    exact hcell index hindex h.inSpace
  refine ⟨device, offset, ⟨h.length, h.inSpace, hcell', ?_, ?_⟩, rfl⟩
  · intro index hindex
    obtain ⟨byte, hread, hprevious⟩ := h.previous index hindex
    rw [Memory.readU8_of_cell (hcell' index hindex)] at hread
    cases hread
    exact hprevious
  · intro later bytes hlater hlength
    exact hagain later bytes (hback.trans hlater) hlength

/-- The committed writes, each with its place. -/
abbrev PlacedWrites : Type := List (MemoryWrite × Nat × Nat)

/-- The place in the device belongs to one of the writes. -/
def PlacedWrites.Touched (done : PlacedWrites) (device at_ : Nat) : Prop :=
  ∃ placed ∈ done, device = placed.2.1 ∧ placed.2.2 ≤ at_ ∧ at_ < placed.2.2 + placed.1.bytes.length

/-- The memory differs from `memory` at the places of the writes only. -/
structure WrittenOver (memory current : Memory) (done : PlacedWrites) : Prop where
  sameMap : Memory.SameMap memory current
  placed : ∀ placed ∈ done, placed.1.PlacedAt memory placed.2.1 placed.2.2
  kept : ∀ device at_, ¬ done.Touched device at_ →
    current.storage device at_ = memory.storage device at_

variable {done : PlacedWrites} {device offset : Nat}

theorem WrittenOver.write {write : MemoryWrite}
    (h : WrittenOver memory current done)
    (hplaced : write.PlacedAt memory device offset) :
    WrittenOver memory (current.store device offset write.bytes)
      ((write, device, offset) :: done) := by
  refine ⟨h.sameMap.trans (Memory.store_sameMap _ _ _ _), ?_, ?_⟩
  · intro placed hmem
    rcases List.mem_cons.mp hmem with rfl | hmem
    · exact hplaced
    · exact h.placed placed hmem
  · intro device' at_ huntouched
    rw [Memory.store_other, h.kept]
    · rintro ⟨placed, hmem, htouched⟩
      exact huntouched ⟨placed, List.mem_cons_of_mem _ hmem, htouched⟩
    · exact fun hin => huntouched ⟨_, List.mem_cons_self, hin⟩

/-- Taking back the last write leaves the ones before it. -/
theorem WrittenOver.restore {write : MemoryWrite}
    (h : WrittenOver memory current ((write, device, offset) :: done)) :
    WrittenOver memory (current.store device offset write.previous) done := by
  have hplaced : write.PlacedAt memory device offset := h.placed _ List.mem_cons_self
  refine ⟨h.sameMap.trans (Memory.store_sameMap _ _ _ _),
    fun placed hmem => h.placed placed (List.mem_cons_of_mem _ hmem), ?_⟩
  intro device' at_ huntouched
  by_cases hin : device' = device ∧ offset ≤ at_ ∧ at_ < offset + write.bytes.length
  · obtain ⟨rfl, hlow, hhigh⟩ := hin
    obtain ⟨index, rfl⟩ := Nat.exists_eq_add_of_le hlow
    exact Memory.store_at (hplaced.previous index (by omega))
  · rw [Memory.store_other, h.kept]
    · rintro ⟨placed, hmem, htouched⟩
      rcases List.mem_cons.mp hmem with rfl | hmem
      · exact hin htouched
      · exact huntouched ⟨placed, hmem, htouched⟩
    · rw [hplaced.length]
      exact hin

theorem WrittenOver.rollback
    (h : WrittenOver memory current done) : rollback current (done.map (·.1)) = memory := by
  induction done generalizing current with
  | nil =>
    refine Memory.ext_storage h.sameMap fun device at_ => h.kept device at_ ?_
    rintro ⟨placed, hmem, -⟩
    cases hmem
  | cons placed rest ih =>
    obtain ⟨write, device, offset⟩ := placed
    have hplaced := h.placed _ List.mem_cons_self
    have hcommit := hplaced.again current write.previous h.sameMap hplaced.length
    rw [List.map_cons, KatanaRecomp.Runtime.rollback, List.foldl_cons, hcommit, Option.getD_some]
    exact ih h.restore

variable {writes : List MemoryWrite}

/-- A commit of the memory writes every range or none. -/
theorem WrittenOver.commitMemory (h : WrittenOver memory current done)
    (hwrites : ∀ write ∈ writes, write.ReadFrom memory) {memory' : Memory} {written : Bool}
    (hcommit : commitMemory current (done.map (·.1)) writes = (memory', written)) :
    (written = false → memory' = memory) ∧
      (written = true → ∃ places : PlacedWrites, places.map (·.1) = writes ∧
        (∀ placed ∈ places, placed.1.PlacedAt memory placed.2.1 placed.2.2) ∧
        memory' = places.foldl (fun current placed =>
          current.store placed.2.1 placed.2.2 placed.1.bytes) current) := by
  induction writes generalizing current done with
  | nil =>
    cases hcommit
    exact ⟨fun hfalse => (Bool.noConfusion hfalse), fun _ => ⟨[], rfl, by simp, rfl⟩⟩
  | cons write rest ih =>
    obtain ⟨hwrite, hrest⟩ := List.forall_mem_cons.mp hwrites
    rw [KatanaRecomp.Runtime.commitMemory] at hcommit
    split at hcommit
    · rename_i next hnext
      obtain ⟨device, offset, hplaced, rfl⟩ := hwrite.placed h.sameMap hnext
      obtain ⟨hnone, hall⟩ := ih (h.write hplaced) hrest hcommit
      refine ⟨hnone, fun htrue => ?_⟩
      obtain ⟨places, hplaces, hplacedAt, rfl⟩ := hall htrue
      exact ⟨(write, device, offset) :: places, by rw [List.map_cons, hplaces],
        List.forall_mem_cons.mpr ⟨hplaced, hplacedAt⟩, rfl⟩
    · cases hcommit
      exact ⟨fun _ => h.rollback, fun htrue => Bool.noConfusion htrue⟩

/-- No byte of one write lies in the cell of a byte of the other. -/
def MemoryWrite.Apart (memory : Memory) (left right : MemoryWrite) : Prop :=
  ∀ i < left.bytes.length, ∀ j < right.bytes.length,
    memory.cell (left.address + BitVec.ofNat 32 i) ≠ memory.cell (right.address + BitVec.ofNat 32 j)

variable {places : PlacedWrites}

theorem foldl_store_keeps {device at_ : Nat} (h : ¬ places.Touched device at_) (current : Memory) :
    (places.foldl (fun current placed => current.store placed.2.1 placed.2.2 placed.1.bytes)
      current).storage device at_ = current.storage device at_ := by
  induction places generalizing current with
  | nil => rfl
  | cons placed rest ih =>
    rw [List.foldl_cons, ih, Memory.store_other]
    · exact fun hin => h ⟨placed, List.mem_cons_self, hin⟩
    · rintro ⟨other, hmem, htouched⟩
      exact h ⟨other, List.mem_cons_of_mem _ hmem, htouched⟩

theorem foldl_store_sameMap (places : PlacedWrites) (current : Memory) :
    Memory.SameMap current (places.foldl
      (fun current placed => current.store placed.2.1 placed.2.2 placed.1.bytes) current) := by
  induction places generalizing current with
  | nil => exact ⟨rfl, rfl⟩
  | cons placed rest ih => exact (Memory.store_sameMap current _ _ _).trans (ih _)

/-- After writes that lie apart, each of them is read back. -/
theorem foldl_store_reads (hmap : Memory.SameMap memory current)
    (hplaced : ∀ placed ∈ places, placed.1.PlacedAt memory placed.2.1 placed.2.2)
    (hapart : (places.map (·.1)).Pairwise (MemoryWrite.Apart memory)) :
    ∀ write ∈ places.map (·.1), ∀ index byte, write.bytes[index]? = some byte →
      (places.foldl (fun current placed => current.store placed.2.1 placed.2.2 placed.1.bytes)
        current).readU8 (write.address + BitVec.ofNat 32 index) = .ok byte := by
  induction places generalizing current with
  | nil =>
    intro write hmem
    cases hmem
  | cons placed rest ih =>
    obtain ⟨hfirst, hrest⟩ := List.forall_mem_cons.mp hplaced
    rw [List.map_cons, List.pairwise_cons] at hapart
    intro write hmem index byte hbyte
    rw [List.map_cons, List.mem_cons] at hmem
    rcases hmem with rfl | hmem
    · have hindex : index < placed.1.bytes.length := (List.getElem?_eq_some_iff.mp hbyte).1
      have hcell := hfirst.cell index hindex
      have hfinal := (hmap.trans (Memory.store_sameMap current placed.2.1 placed.2.2
        placed.1.bytes)).trans (foldl_store_sameMap rest _)
      rw [← hfinal.cell] at hcell
      rw [List.foldl_cons, Memory.readU8_of_cell hcell, foldl_store_keeps, Memory.store_at hbyte]
      -- another write at this place would share the cell
      rintro ⟨other, hother, hdevice, hlow, hhigh⟩
      obtain ⟨j, hj⟩ := Nat.exists_eq_add_of_le hlow
      have hshared := (hrest other hother).cell j (by omega)
      refine hapart.1 other.1 (List.mem_map_of_mem hother) index hindex j (by omega) ?_
      rw [hfirst.cell index hindex, hshared, hdevice, hj]
    · exact ih (hmap.trans (Memory.store_sameMap _ _ _ _)) hrest hapart.2 write hmem index byte
        hbyte

/-! ## The module catalog -/

namespace ExecutableModuleCatalog

theorem reservePages_spec (index : Nat → Option Nat) (pages : List Nat) :
    (∀ page, (reservePages index pages).1 page =
      if page ∈ (reservePages index pages).2 then some 0 else index page) ∧
    (∀ page ∈ (reservePages index pages).2, index page = none) ∧
    ∀ page ∈ pages, ((reservePages index pages).1 page).isSome := by
  induction pages generalizing index with
  | nil => simp [reservePages]
  | cons head rest ih =>
    rw [reservePages]
    by_cases hsome : (index head).isSome
    · rw [if_pos hsome]
      obtain ⟨hindex, hnew, hpresent⟩ := ih index
      refine ⟨hindex, hnew, List.forall_mem_cons.mpr ⟨?_, hpresent⟩⟩
      rw [hindex head]
      split
      · rfl
      · exact hsome
    · rw [if_neg hsome]
      obtain ⟨hindex, hnew, hpresent⟩ := ih (Function.update index head (some 0))
      have hnone : index head = none := Option.not_isSome_iff_eq_none.mp hsome
      refine ⟨?_, ?_, List.forall_mem_cons.mpr ⟨?_, hpresent⟩⟩
      · intro page
        simp only [hindex page, List.mem_cons]
        by_cases heq : page = head
        · subst heq
          simp
        · simp [heq]
      · intro page hpage
        rcases List.mem_cons.mp hpage with rfl | hpage
        · exact hnone
        · have hfree := hnew page hpage
          by_cases heq : page = head
          · exact heq ▸ hnone
          · rwa [Function.update_of_ne heq] at hfree
      · simp only [hindex head]
        split
        · rfl
        · rw [Function.update_self]
          rfl

theorem cancel_pages (index : Nat → Option Nat) (pages : List Nat) (page : Nat) :
    pages.foldl (fun index page =>
      if index page = some 0 then Function.update index page none else index) index page =
      if page ∈ pages ∧ index page = some 0 then none else index page := by
  induction pages generalizing index with
  | nil => simp
  | cons head rest ih =>
    rw [List.foldl_cons, ih]
    by_cases hzero : index head = some 0
    · rw [if_pos hzero]
      by_cases heq : page = head
      · subst heq
        simp [hzero]
      · simp [heq]
    · rw [if_neg hzero]
      by_cases heq : page = head
      · subst heq
        simp [hzero]
      · simp [heq]

variable {catalog : ExecutableModuleCatalog} {ranges : List (BitVec 32 × Nat)}
  {catalog' : ExecutableModuleCatalog} {modules : List ExecutableModule}
  {plan : PreparedDiscLoadCatalog}

/-- What a plan reserves, and that cancelling gives it back. -/
theorem prepareDiscLoadCatalog_spec
    (h : catalog.prepareDiscLoadCatalog modules ranges = .ok (plan, catalog')) :
    catalog'.cancelDiscLoadCatalog plan = catalog ∧ catalog'.modules = catalog.modules ∧
      plan.updates = catalog.moduleUpdates ranges ∧
      ∀ page ∈ catalog.plannedPages plan.modules plan.updates,
        (catalog'.activeExtentPageRefcounts page).isSome := by
  unfold prepareDiscLoadCatalog at h
  obtain ⟨_, -, h⟩ := bind_eq_ok h
  obtain ⟨normalized, -, h⟩ := bind_eq_ok h
  obtain ⟨incarnated, -, h⟩ := bind_eq_ok h
  obtain ⟨_, -, h⟩ := bind_eq_ok h
  obtain ⟨hindex, hnew, hpresent⟩ := reservePages_spec catalog.activeExtentPageRefcounts
    (catalog.plannedPages incarnated (catalog.moduleUpdates ranges))
  cases h
  refine ⟨?_, rfl, rfl, hpresent⟩
  obtain ⟨modules', written, refcounts, metrics⟩ := catalog
  simp only [cancelDiscLoadCatalog, ExecutableModuleCatalog.mk.injEq, true_and, and_true]
  funext page
  rw [cancel_pages, hindex]
  by_cases hinserted : page ∈ (reservePages refcounts
      (plannedPages ⟨modules', written, refcounts, metrics⟩ incarnated
        (moduleUpdates ⟨modules', written, refcounts, metrics⟩ ranges))).2
  · have hnone := hnew page hinserted
    simp only at hnone
    simp [hinserted, hnone]
  · simp [hinserted]

/-- The index keeps the pages it has. -/
def Keeps (index index' : Nat → Option Nat) : Prop :=
  ∀ page, (index page).isSome → (index' page).isSome

theorem Keeps.update (index : Nat → Option Nat) (page count : Nat) :
    Keeps index (Function.update index page (some count)) := by
  intro other hother
  by_cases heq : other = page
  · rw [heq, Function.update_self]
    rfl
  · rwa [Function.update_of_ne heq]

theorem Keeps.unindex (index : Nat → Option Nat) (pages : List Nat) :
    Keeps index (pages.foldl unindexPage index) := by
  induction pages generalizing index with
  | nil => exact fun _ h => h
  | cons head rest ih =>
    intro page hpage
    refine ih (unindexPage index head) page ?_
    unfold unindexPage
    by_cases heq : page = head
    · subst heq
      rw [Function.update_self, Option.isSome_map]
      exact hpage
    · rwa [Function.update_of_ne heq]

variable {pages : List Nat}

theorem indexPages_some {index : Nat → Option Nat} (h : ∀ page ∈ pages, (index page).isSome) :
    ∃ index', indexPages index pages = some index' ∧ Keeps index index' := by
  induction pages generalizing index with
  | nil => exact ⟨index, rfl, fun _ h => h⟩
  | cons head rest ih =>
    obtain ⟨hhead, hrest⟩ := List.forall_mem_cons.mp h
    obtain ⟨count, hcount⟩ := Option.isSome_iff_exists.mp hhead
    have hkeeps := Keeps.update index head (ExecutableCodeTracker.countUp count)
    obtain ⟨index', hindex', hkeeps'⟩ := ih fun page hpage => hkeeps page (hrest page hpage)
    refine ⟨index', ?_, fun page hpage => hkeeps' page (hkeeps page hpage)⟩
    rw [indexPages, hcount]
    exact hindex'

/-- The catalog in the middle of a commit: the modules start where they did, and
the reserved pages are there. -/
structure Committing (catalog current : ExecutableModuleCatalog) (pages : List Nat) : Prop where
  starts : current.modules.map (·.guestStart) = catalog.modules.map (·.guestStart)
  reserved : ∀ page ∈ pages, (current.activeExtentPageRefcounts page).isSome

theorem Committing.update {update : ModuleUpdate} {current : ExecutableModuleCatalog}
    (h : Committing catalog current pages) {module : ExecutableModule}
    (hmodule : catalog.modules[update.moduleIndex]? = some module)
    (hpages : ∀ page ∈ extentsPages module.guestStart update.remainingExtents, page ∈ pages) :
    ∃ current', current.commitUpdate update = some current' ∧ Committing catalog current' pages := by
  have hstart : (current.modules.map (·.guestStart))[update.moduleIndex]? =
      some module.guestStart := by
    rw [h.starts, List.getElem?_map, hmodule]
    rfl
  rw [List.getElem?_map, Option.map_eq_some_iff] at hstart
  obtain ⟨existing, hexisting, hguest⟩ := hstart
  have hunindexed : ∀ page ∈ pages, ((if existing.active then
      (extentsPages existing.guestStart existing.activeExtents).foldl unindexPage
        current.activeExtentPageRefcounts
      else current.activeExtentPageRefcounts) page).isSome := by
    intro page hpage
    split
    · exact Keeps.unindex _ _ page (h.reserved page hpage)
    · exact h.reserved page hpage
  have hset : ∀ updated : ExecutableModule, updated.guestStart = existing.guestStart →
      (current.modules.set update.moduleIndex updated).map (·.guestStart) =
        catalog.modules.map (·.guestStart) := by
    intro updated hsame
    have hvalue : (current.modules.map (·.guestStart))[update.moduleIndex]? =
        some existing.guestStart := by
      rw [List.getElem?_map, hexisting]
      rfl
    obtain ⟨hlt, hget⟩ := List.getElem?_eq_some_iff.mp hvalue
    rw [← h.starts, List.map_set, hsame, ← hget]
    exact List.set_getElem_self hlt
  unfold commitUpdate
  rw [hexisting]
  dsimp only
  cases hremains : update.remainsActive with
  | false =>
    exact ⟨_, rfl, hset _ rfl, hunindexed⟩
  | true =>
    obtain ⟨index', hindex', hkeeps⟩ := indexPages_some (fun page hpage =>
      hunindexed page (hpages page (hguest ▸ hpage)))
    simp only [if_true, hindex']
    exact ⟨_, rfl, hset _ rfl, fun page hpage => hkeeps page (hunindexed page hpage)⟩

theorem Committing.updates {current : ExecutableModuleCatalog}
    (h : Committing catalog current pages) {updates : List ModuleUpdate}
    (hupdates : ∀ update ∈ updates, ∃ module, catalog.modules[update.moduleIndex]? = some module ∧
        ∀ page ∈ extentsPages module.guestStart update.remainingExtents, page ∈ pages) :
    ∃ current', updates.foldlM commitUpdate current = some current' ∧
      Committing catalog current' pages := by
  induction updates generalizing current with
  | nil => exact ⟨current, rfl, h⟩
  | cons update rest ih =>
    obtain ⟨⟨module, hmodule, hpages⟩, hrest⟩ := List.forall_mem_cons.mp hupdates
    obtain ⟨next, hnext, hcommitting⟩ := h.update hmodule hpages
    obtain ⟨current', hcurrent', hdone⟩ := ih hcommitting hrest
    refine ⟨current', ?_, hdone⟩
    rw [List.foldlM_cons, hnext]
    exact hcurrent'

theorem clearRanges_index (ranges : List (BitVec 32 × Nat)) (catalog : ExecutableModuleCatalog) :
    (ranges.foldl clearRange catalog).activeExtentPageRefcounts =
      catalog.activeExtentPageRefcounts := by
  induction ranges generalizing catalog with
  | nil => rfl
  | cons range rest ih => exact (ih _).trans rfl

theorem commitModules_some (catalog : ExecutableModuleCatalog) (modules : List ExecutableModule)
    (h : ∀ module ∈ modules, ∀ page ∈ extentsPages module.guestStart module.activeExtents,
      (catalog.activeExtentPageRefcounts page).isSome) :
    ∃ catalog', modules.foldlM commitModule catalog = some catalog' := by
  induction modules generalizing catalog with
  | nil => exact ⟨catalog, rfl⟩
  | cons module rest ih =>
    obtain ⟨hmodule, hrest⟩ := List.forall_mem_cons.mp h
    obtain ⟨index, hindex, hkeeps⟩ := indexPages_some hmodule
    obtain ⟨next, hnext, hnextKeeps⟩ : ∃ next, catalog.commitModule module = some next ∧
        Keeps catalog.activeExtentPageRefcounts next.activeExtentPageRefcounts := by
      unfold commitModule
      cases module.active with
      | false => exact ⟨_, rfl, fun _ h => h⟩
      | true =>
        simp only [if_true, hindex]
        exact ⟨_, rfl, hkeeps⟩
    obtain ⟨catalog', hcatalog'⟩ := ih next fun other hother page hpage =>
      hnextKeeps page (hrest other hother page hpage)
    refine ⟨catalog', ?_⟩
    rw [List.foldlM_cons, hnext]
    exact hcatalog'

theorem mem_moduleUpdates {update : ModuleUpdate} (h : update ∈ catalog.moduleUpdates ranges) :
    ∃ module, catalog.modules[update.moduleIndex]? = some module := by
  obtain ⟨⟨module, index⟩, hmem, hupdate⟩ := List.mem_filterMap.mp h
  have hget : catalog.modules[index]? = some module := List.mem_zipIdx_iff_getElem?.mp hmem
  simp only [updateOf] at hupdate
  split at hupdate
  · cases hupdate
  · split at hupdate
    · cases hupdate
      exact ⟨module, hget⟩
    · cases hupdate

/-- The commit of a plan finds every page in the index. -/
theorem commitDiscLoadCatalog_some
    (h : catalog.prepareDiscLoadCatalog modules ranges = .ok (plan, catalog')) :
    ∃ committed, catalog'.commitDiscLoadCatalog plan = some committed := by
  obtain ⟨-, hmodules, hupdates, hpresent⟩ := prepareDiscLoadCatalog_spec h
  have hcommitting : Committing catalog catalog'
      (catalog.plannedPages plan.modules plan.updates) := ⟨by rw [hmodules], hpresent⟩
  obtain ⟨updated, hupdated, hdone⟩ := hcommitting.updates fun update hupdate => by
    have hmem : update ∈ catalog.moduleUpdates ranges := by
      rw [← hupdates]
      exact hupdate
    obtain ⟨module, hmodule⟩ := mem_moduleUpdates hmem
    refine ⟨module, hmodule, fun page hpage => ?_⟩
    refine List.mem_append_right _ (List.mem_flatMap.mpr ⟨update, hupdate, ?_⟩)
    rw [hmodule]
    exact hpage
  obtain ⟨committed, hcommitted⟩ := commitModules_some
    (plan.invalidatedRanges.foldl clearRange updated) plan.modules
    fun module hmodule page hpage => by
      rw [clearRanges_index]
      exact hdone.reserved page
        (List.mem_append_left _ (List.mem_flatMap.mpr ⟨module, hmodule, hpage⟩))
  refine ⟨committed, ?_⟩
  rw [commitDiscLoadCatalog, hupdated]
  exact hcommitted

end ExecutableModuleCatalog

/-! ## Tracker and block table -/

open ExecutableCodeTracker (DiscLoadWrite)

variable {request : DiscLoadRequest} {tracker : ExecutableCodeTracker}
  {plans : List PreparedCodeCommit}

/-- The plans of the tracker are plans of writes against its state. -/
theorem prepareCode_spec {blocks : RuntimeBlockTable} {staged : List StagedRange}
    (h : prepareCode tracker blocks request staged = .ok plans) :
    ∃ writes : List DiscLoadWrite, (∀ w ∈ writes, w.Admissible) ∧
      plans.map (·.tracker) = writes.map tracker.planned := by
  induction staged generalizing plans with
  | nil =>
    cases h
    exact ⟨[], by simp, rfl⟩
  | cons first rest ih =>
    rw [prepareCode] at h
    split at h
    · exact ih h
    · obtain ⟨plan, hplan, h⟩ := bind_eq_ok h
      obtain ⟨others, hothers, h⟩ := bind_eq_ok h
      cases h
      obtain ⟨writes, hwrites, hothers'⟩ := ih hothers
      let w : DiscLoadWrite := ⟨first.admitted.range.backingPhysicalAddress,
        first.admitted.range.size, request.writeSource⟩
      have hprepared : tracker.prepareDiscLoadWrite w.address w.size w.source true = .ok plan := by
        cases hresult : tracker.prepareDiscLoadWrite w.address w.size w.source true with
        | error what =>
          rw [hresult] at hplan
          cases hplan
        | ok plan' =>
          rw [hresult] at hplan
          cases hplan
          rfl
      obtain ⟨hw, rfl⟩ := (ExecutableCodeTracker.prepareDiscLoadWrite_eq_ok tracker).mp hprepared
      refine ⟨w :: writes, List.forall_mem_cons.mpr ⟨hw, hwrites⟩, ?_⟩
      rw [List.map_cons, List.map_cons, hothers']

theorem commitCode_some (stores : ExecutableCodeTracker × RuntimeBlockTable)
    (h : stores.1.commitAll (plans.map (·.tracker)) = some tracker) :
    ∃ stores', plans.foldlM commitCode stores = some stores' := by
  induction plans generalizing stores with
  | nil => exact ⟨stores, rfl⟩
  | cons plan rest ih =>
    rw [ExecutableCodeTracker.commitAll, List.map_cons, List.foldlM_cons] at h
    obtain ⟨next, hnext, hrest⟩ := Option.bind_eq_some_iff.mp h
    obtain ⟨stores', hstores'⟩ := ih (next, stores.2.commitDiscLoadInvalidation plan.blocks) hrest
    refine ⟨stores', ?_⟩
    rw [List.foldlM_cons, commitCode, hnext]
    exact hstores'

/-! ## The staged ranges -/

section
variable (sha256 : List (BitVec 8) → String)

/-- The ranges lie behind each other from `cursor` on, up to the last byte. -/
def Tiles (total : Nat) : Nat → List DiscLoadCommittedRange → Prop
  | cursor, [] => cursor = total
  | cursor, range :: rest =>
    0 < range.size ∧ range.sourceOffset = cursor ∧ cursor + range.size ≤ total ∧
      Tiles total (cursor + range.size) rest

/-- The receipt fields apart, a receipt is the admitted range. -/
theorem StagedRange.receipt_cases (staged : StagedRange) :
    ∃ activated retained, staged.receipt = { staged.admitted.range with
      moduleActivated := activated, exactModuleRetained := retained } ∧
      (activated = true → activated = staged.admitted.range.moduleActivated ∨
        staged.admitted.range.executableBacking = true) ∧ (activated = true → retained = true →
        staged.admitted.range.moduleActivated = true ∨
          staged.admitted.range.exactModuleRetained = true) := by
  unfold StagedRange.receipt
  split
  · refine ⟨_, _, rfl, fun h => .inl rfl, fun h _ => .inl h⟩
  · rename_i hbacking
    refine ⟨_, _, rfl, fun _ => .inr ?_, fun _ h => .inr h⟩
    simp only [Bool.or_eq_true, Bool.not_eq_true', not_or, Bool.not_eq_false] at hbacking
    exact hbacking.1

variable {ranges : List DiscLoadCommittedRange} {staged : List StagedRange}

/-- What the admission of the ranges gives, for any verdicts on them. -/
theorem admitRanges_spec {cursor : Nat} {admitted : List AdmittedRange}
    (h : admitRanges sha256 memory request cursor ranges = .ok admitted)
    (hfresh : ∀ range ∈ ranges, range.moduleActivated = false ∧ range.exactModuleRetained = false)
    (hstaged : staged.map (·.admitted) = admitted) :
    validateCommittedRanges sha256 request cursor (staged.map (·.receipt)) = .ok () ∧
      Tiles request.bytes.length cursor (staged.map (·.receipt)) ∧
      ∀ s ∈ staged, s.admitted.range.targetPhysicalAddress.toNat + s.admitted.range.size ≤ 2 ^ 32 ∧
        s.admitted.range.sourceOffset + s.admitted.range.size ≤ request.bytes.length := by
  induction ranges generalizing cursor admitted staged with
  | nil =>
    rw [admitRanges] at h
    split at h
    · cases h
    · rename_i hend
      cases h
      rw [List.map_eq_nil_iff] at hstaged
      subst hstaged
      refine ⟨?_, not_not.mp hend, by simp⟩
      rw [List.map_nil, validateCommittedRanges, if_neg hend]
  | cons range rest ih =>
    rw [admitRanges] at h
    split at h
    · cases h
    rename_i hbounds
    dsimp only at h
    split at h
    · cases h
    obtain ⟨previous, -, h⟩ := bind_eq_ok h
    obtain ⟨others, hothers, h⟩ := bind_eq_ok h
    cases h
    obtain ⟨hflags, hrest⟩ := List.forall_mem_cons.mp hfresh
    obtain ⟨first, others', rfl, hfirst, hmap⟩ := List.map_eq_cons_iff.mp hstaged
    obtain ⟨hvalid, htiles, hin⟩ := ih hothers hrest hmap
    simp only [not_or, Nat.not_lt, not_not] at hbounds
    obtain ⟨hcursor, hsize, hoffset, hfits, htarget, -, -⟩ := hbounds
    have hrange : first.admitted.range = { range with
        byteIdentity := discLoadByteIdentity sha256 (request.subspan range.sourceOffset range.size)
        sourceRangeKnown := request.sourceRange.known
        sourceByteOffset :=
          if request.sourceRange.known then request.sourceRange.byteOffset + cursor else 0 } := by
      rw [hfirst]
    have hpositive : 0 < range.size := Nat.pos_of_ne_zero hsize
    have hend : cursor + range.size ≤ request.bytes.length := by omega
    obtain ⟨activated, retained, hreceipt, hactivated, hboth⟩ := first.receipt_cases
    rw [hrange] at hreceipt hactivated hboth
    simp only [hflags.1, hflags.2] at hactivated hboth
    refine ⟨?_, ?_, List.forall_mem_cons.mpr ⟨?_, hin⟩⟩
    · rw [List.map_cons, validateCommittedRanges, hreceipt, if_neg, hoffset]
      · exact hvalid
      · simp only [hoffset]
        cases hknown : request.sourceRange.known <;> cases activated <;> cases retained <;> simp_all
    · rw [List.map_cons, Tiles, hreceipt]
      exact ⟨hpositive, hoffset, hend, htiles⟩
    · rw [hrange]
      exact ⟨htarget, by simp only [hoffset]; exact hend⟩

/-! The segments keep one list for each range. -/

theorem registerRange_length (modules : ExecutableModuleCatalog) (request : DiscLoadRequest)
    (descriptor : DiscLoadAotModuleDescriptor) (assemblyIndex : Nat) (progress : AssemblyProgress)
    (admitted : AdmittedRange × Nat) :
    (registerRange modules request descriptor assemblyIndex progress admitted).segments.length =
      progress.segments.length := by
  have hregister : ∀ segment target coverage,
      (progress.register admitted.2 segment target coverage).segments.length =
        progress.segments.length := fun segment target coverage => List.length_modify _ _ _
  unfold registerRange
  dsimp only
  split
  · rfl
  · split
    · rfl
    · split
      · exact hregister _ _ _
      · rw [apply_ite (fun progress : AssemblyProgress => progress.segments.length), hregister,
          hregister, ite_self]

theorem registerRanges_length (modules : ExecutableModuleCatalog) (request : DiscLoadRequest)
    (descriptor : DiscLoadAotModuleDescriptor) (assemblyIndex : Nat) (progress : AssemblyProgress)
    (ranges : List (AdmittedRange × Nat)) :
    (ranges.foldl (registerRange modules request descriptor assemblyIndex)
      progress).segments.length = progress.segments.length := by
  induction ranges generalizing progress with
  | nil => rfl
  | cons admitted rest ih =>
    rw [List.foldl_cons, ih, registerRange_length]

theorem loadFile_length (modules : ExecutableModuleCatalog) (request : DiscLoadRequest)
    (ranges : List AdmittedRange) (segments : List (List RegisteredSegment))
    (assembly : AotAssembly × Nat) :
    (loadFile modules request ranges segments assembly).segments.length = segments.length := by
  unfold loadFile
  dsimp only
  split
  · rfl
  · split
    · rfl
    · exact registerRanges_length modules request _ _ _ _

variable {modules : ExecutableModuleCatalog} {staging staging' : Staging}

theorem assembleFile_length {ranges : List AdmittedRange} {assembly : AotAssembly × Nat}
    (h : assembleFile sha256 memory modules request ranges staging assembly = .ok staging') :
    staging'.segments.length = staging.segments.length := by
  have hkept : ∀ (foreign : Bool) (loaded : AssemblyProgress),
      (if foreign then { loaded with target := none, coverage := [] } else loaded).segments =
        loaded.segments := by
    intro foreign loaded
    cases foreign <;> rfl
  unfold assembleFile at h
  obtain ⟨outcome, -, h⟩ := bind_eq_ok h
  cases h
  rw [List.length_map, hkept, loadFile_length]

theorem assembleFiles_length {ranges : List AdmittedRange} {assemblies : List (AotAssembly × Nat)}
    (h : assemblies.foldlM (assembleFile sha256 memory modules request ranges) staging =
      .ok staging') : staging'.segments.length = staging.segments.length := by
  induction assemblies generalizing staging with
  | nil =>
    cases h
    rfl
  | cons assembly rest ih =>
    rw [List.foldlM_cons] at h
    obtain ⟨next, hnext, hrest⟩ := bind_eq_ok h
    rw [ih hrest, assembleFile_length sha256 hnext]

theorem stageRanges_admitted {assemblies : List AotAssembly}
    {pendingModules modules' : List ExecutableModule}
    {catalogInvalidations invalidations : List (BitVec 32 × Nat)}
    {ranges : List ((AdmittedRange × List RegisteredSegment) × Nat)}
    (h : stageRanges sha256 memory modules request assemblies pendingModules catalogInvalidations
      ranges = .ok (staged, modules', invalidations)) :
    staged.map (·.admitted) = ranges.map (·.1.1) := by
  induction ranges generalizing pendingModules catalogInvalidations staged modules' invalidations
    with
  | nil =>
    cases h
    rfl
  | cons range rest ih =>
    obtain ⟨⟨admitted, registered⟩, index⟩ := range
    rw [stageRanges] at h
    dsimp only at h
    split at h
    · obtain ⟨⟨others, modules'', invalidations'⟩, hothers, h⟩ := bind_eq_ok h
      cases h
      rw [List.map_cons, List.map_cons, ih hothers]
    · split at h
      · cases h
      · obtain ⟨segments, -, h⟩ := bind_eq_ok h
        obtain ⟨⟨others, modules'', invalidations'⟩, hothers, h⟩ := bind_eq_ok h
        cases h
        rw [List.map_cons, List.map_cons, ih hothers]

theorem readBytes_spec {address : BitVec 32} {size : Nat}
    {bytes : List (BitVec 8)} (h : memory.readBytes address size = .ok bytes) :
    bytes.length = size ∧ ∀ index < size, ∃ byte,
      memory.readU8 (address + BitVec.ofNat 32 index) = .ok byte ∧ bytes[index]? = some byte := by
  have hall := mapM_eq_ok h
  have hlength : size = bytes.length := by
    have := hall.length_eq
    rwa [List.length_range] at this
  refine ⟨hlength.symm, fun index hindex => ?_⟩
  have hget := hall.get (by rw [List.length_range]; exact hindex) (hlength ▸ hindex)
  refine ⟨bytes[index], ?_, List.getElem?_eq_getElem _⟩
  simpa using hget

theorem readPrevious_spec {staged : StagedRange}
    {write : MemoryWrite} (h : readPrevious memory request staged = .ok write)
    (htarget : staged.admitted.range.targetPhysicalAddress.toNat + staged.admitted.range.size ≤
      2 ^ 32)
    (hsource : staged.admitted.range.sourceOffset + staged.admitted.range.size ≤
      request.bytes.length) : write.address = staged.admitted.range.targetPhysicalAddress ∧
      write.bytes = request.subspan staged.admitted.range.sourceOffset staged.admitted.range.size ∧
      write.bytes.length = staged.admitted.range.size ∧ write.ReadFrom memory := by
  unfold readPrevious at h
  obtain ⟨previous, hprevious, h⟩ := bind_eq_ok h
  cases h
  obtain ⟨hlength, hbytes⟩ := readBytes_spec hprevious
  have hsize : (request.subspan staged.admitted.range.sourceOffset
      staged.admitted.range.size).length = staged.admitted.range.size := by
    rw [DiscLoadRequest.subspan, List.length_take, List.length_drop]
    omega
  refine ⟨rfl, rfl, hsize, ⟨hlength.trans hsize.symm, ?_, ?_⟩⟩
  · rw [hsize]
    exact htarget
  · rw [hsize]
    exact hbytes

/-! ## The transaction -/

namespace DiscLoadCoordinator
variable (rangeResolver : BitVec 32 → Nat → Except Fault (List DiscLoadCommittedRange))
  (admissionObserver : DiscLoadRequest → List DiscLoadCommittedRange → Except Fault Unit)
  {staged : Staged} {coordinator : DiscLoadCoordinator}

theorem stage_spec (h : coordinator.stage sha256 rangeResolver request = .ok staged) :
    ∃ resolved admitted, rangeResolver request.physicalDestination request.bytes.length =
        .ok resolved ∧ resolved ≠ [] ∧
      admitRanges sha256 coordinator.memory request 0 resolved = .ok admitted ∧
      staged.ranges.map (·.admitted) = admitted ∧
      List.Forall₂ (fun range write => readPrevious coordinator.memory request range = .ok write)
        staged.ranges staged.writes := by
  unfold stage at h
  split at h
  · cases h
  dsimp only at h
  obtain ⟨resolved, hresolved, h⟩ := bind_eq_ok h
  split at h
  · cases h
  rename_i hsome
  obtain ⟨admitted, hadmitted, h⟩ := bind_eq_ok h
  obtain ⟨staging, hstaging, h⟩ := bind_eq_ok h
  obtain ⟨⟨ranges, pendingModules, invalidations⟩, hranges, h⟩ := bind_eq_ok h
  obtain ⟨writes, hwrites, h⟩ := bind_eq_ok h
  cases h
  refine ⟨resolved, admitted, hresolved, ?_, hadmitted, ?_, mapM_eq_ok hwrites⟩
  · rintro rfl
    exact hsome rfl
  · have hlength := assembleFiles_length sha256 hstaging
    rw [List.length_replicate] at hlength
    have hzip : ((admitted.zip staging.segments).zipIdx.map fun entry => entry.1) =
        admitted.zip staging.segments := List.zipIdx_map_fst 0 _
    calc ranges.map (·.admitted)
        = (admitted.zip staging.segments).zipIdx.map (·.1.1) := stageRanges_admitted sha256 hranges
      _ = ((admitted.zip staging.segments).zipIdx.map fun entry => entry.1).map Prod.fst := by
          rw [List.map_map]
          rfl
      _ = admitted := by rw [hzip, List.map_fst_zip hlength.ge]

/-- Every store is as before. -/
structure SameStores (before after : DiscLoadCoordinator) : Prop where
  memory : after.memory = before.memory
  modules : after.modules = before.modules
  blocks : after.blocks = before.blocks
  tracker : after.tracker = before.tracker
  aotAssemblies : after.aotAssemblies = before.aotAssemblies

/-- No two bytes of different ranges lie in one cell of the memory. -/
def TargetsApart (memory : Memory) (ranges : List DiscLoadCommittedRange) : Prop :=
  ranges.Pairwise fun left right => ∀ i < left.size, ∀ j < right.size,
    memory.cell (left.targetPhysicalAddress + BitVec.ofNat 32 i) ≠
      memory.cell (right.targetPhysicalAddress + BitVec.ofNat 32 j)

/-- The bytes of the request are in memory. -/
def Loaded (memory : Memory) (request : DiscLoadRequest) (ranges : List DiscLoadCommittedRange) :
    Prop := ∀ range ∈ ranges, ∀ index < range.size,
    memory.readU8 (range.targetPhysicalAddress + BitVec.ofNat 32 index) =
      .ok (request.bytes.getD (range.sourceOffset + index) 0)

/-- What a call leaves behind. -/
def Atomic (before : DiscLoadCoordinator) (request : DiscLoadRequest) :
    Except Fault DiscLoadCommit × DiscLoadCoordinator → Prop
  | (.error _, after) => SameStores before after
  | (.ok commit, after) => Tiles request.bytes.length 0 commit.ranges ∧
      (TargetsApart before.memory commit.ranges → Loaded after.memory request commit.ranges)

variable {plan : Option ExecutableModuleCatalog.PreparedDiscLoadCatalog}

theorem cancelModules_prepared (h : coordinator.prepareModules staged = .ok (plan, modules)) :
    cancelModules modules plan = coordinator.modules ∧
      ∃ committed, plan.elim (some modules) modules.commitDiscLoadCatalog = some committed := by
  unfold prepareModules at h
  split at h
  · cases h
    exact ⟨rfl, _, rfl⟩
  · cases hprepare : coordinator.modules.prepareDiscLoadCatalog staged.pendingModules
        staged.catalogInvalidations with
    | error fault =>
      rw [hprepare] at h
      cases h
    | ok prepared =>
      rw [hprepare] at h
      cases h
      exact ⟨(ExecutableModuleCatalog.prepareDiscLoadCatalog_spec hprepare).1,
        ExecutableModuleCatalog.commitDiscLoadCatalog_some hprepare⟩

/-- The stores commit without a fault once their plans exist. -/
theorem commitStores_some {code : List PreparedCodeCommit}
    (ht : ExecutableCodeTracker.WellFormed coordinator.tracker)
    (hmodules : coordinator.prepareModules staged = .ok (plan, modules))
    (hcode : coordinator.prepareStores admissionObserver request staged = .ok code)
    (memory : Memory) :
    ∃ committed, commitStores { coordinator with memory := memory } modules plan code staged =
      some committed ∧ committed.memory = memory := by
  obtain ⟨-, catalog, hcatalog⟩ := cancelModules_prepared hmodules
  obtain ⟨plans, hplans, h⟩ := bind_eq_ok hcode
  obtain ⟨_, -, h⟩ := bind_eq_ok h
  cases h
  obtain ⟨writes, hadmissible, hwrites⟩ := prepareCode_spec hplans
  obtain ⟨tracker, _, _, _, htracker, -, -⟩ := ht.coupled.run ht hadmissible
  rw [← hwrites] at htracker
  obtain ⟨stores, hstores⟩ := commitCode_some (coordinator.tracker, coordinator.blocks) htracker
  refine ⟨{ coordinator with
    memory := memory
    modules := catalog
    tracker := stores.1
    blocks := stores.2
    aotAssemblies := staged.aotUpdates.foldl applyAotUpdate coordinator.aotAssemblies }, ?_, rfl⟩
  unfold commitStores
  rw [hcatalog]
  dsimp only [bind, Option.bind]
  rw [hstores]
  rfl

variable (hfresh : ∀ destination size ranges, rangeResolver destination size = .ok ranges →
  ∀ range ∈ ranges, range.moduleActivated = false ∧ range.exactModuleRetained = false)

include hfresh in
/-- The receipt of a staged transaction passes its check and tiles the payload. -/
theorem commit_valid (h : coordinator.stage sha256 rangeResolver request = .ok staged) :
    validateDiscLoadCommit sha256 request (discLoadCommit request staged.ranges) = .ok () ∧
      Tiles request.bytes.length 0 (discLoadCommit request staged.ranges).ranges := by
  obtain ⟨resolved, admitted, hresolved, hsome, hadmitted, hstaged, -⟩ :=
    stage_spec sha256 rangeResolver h
  obtain ⟨hvalid, htiles, -⟩ := admitRanges_spec sha256 hadmitted (hfresh _ _ _ hresolved) hstaged
  refine ⟨?_, htiles⟩
  have hranges : (discLoadCommit request staged.ranges).ranges ≠ [] := by
    intro hempty
    have hnone : staged.ranges = [] := List.map_eq_nil_iff.mp hempty
    rw [hnone] at hstaged
    subst hstaged
    cases resolved with
    | nil => exact hsome rfl
    | cons range rest =>
      rw [admitRanges] at hadmitted
      split at hadmitted
      · cases hadmitted
      dsimp only at hadmitted
      split at hadmitted
      · cases hadmitted
      obtain ⟨previous, -, hadmitted⟩ := bind_eq_ok hadmitted
      obtain ⟨others, -, hadmitted⟩ := bind_eq_ok hadmitted
      cases hadmitted
  rw [validateDiscLoadCommit, if_neg]
  · exact hvalid
  · simp only [discLoadCommit, ne_eq, not_true_eq_false, false_or, List.isEmpty_iff]
    exact hranges

theorem receipt_fields (staged : StagedRange) :
    staged.receipt.targetPhysicalAddress = staged.admitted.range.targetPhysicalAddress ∧
      staged.receipt.sourceOffset = staged.admitted.range.sourceOffset ∧
      staged.receipt.size = staged.admitted.range.size := by
  unfold StagedRange.receipt
  split <;> exact ⟨rfl, rfl, rfl⟩

include hfresh in
/-- The writes of a staged transaction, range by range. -/
theorem writes_spec (h : coordinator.stage sha256 rangeResolver request = .ok staged) :
    (∀ write ∈ staged.writes, write.ReadFrom coordinator.memory) ∧
      List.Forall₂ (fun range write => write.address = range.targetPhysicalAddress ∧
        write.bytes = request.subspan range.sourceOffset range.size ∧
        write.bytes.length = range.size)
        (discLoadCommit request staged.ranges).ranges staged.writes := by
  obtain ⟨resolved, admitted, hresolved, -, hadmitted, hstaged, hwrites⟩ :=
    stage_spec sha256 rangeResolver h
  obtain ⟨-, -, hin⟩ := admitRanges_spec sha256 hadmitted (hfresh _ _ _ hresolved) hstaged
  simp only [discLoadCommit]
  clear h hstaged hadmitted hresolved
  generalize staged.ranges = ranges at hwrites hin
  generalize staged.writes = writes at hwrites
  induction hwrites with
  | nil => exact ⟨by simp, .nil⟩
  | cons hwrite hrest ih =>
    rename_i range write ranges writes
    obtain ⟨⟨htarget, hsource⟩, hin⟩ := List.forall_mem_cons.mp hin
    obtain ⟨haddress, hbytes, hlength, hread⟩ := readPrevious_spec hwrite htarget hsource
    obtain ⟨hreads, hall⟩ := ih hin
    obtain ⟨hreceiptTarget, hreceiptOffset, hreceiptSize⟩ := receipt_fields range
    refine ⟨List.forall_mem_cons.mpr ⟨hread, hreads⟩, .cons ?_ hall⟩
    rw [hreceiptTarget, hreceiptOffset, hreceiptSize]
    exact ⟨haddress, hbytes, hlength⟩

variable (h : List.Forall₂ (fun range write => write.address = range.targetPhysicalAddress ∧
  write.bytes = request.subspan range.sourceOffset range.size ∧
  write.bytes.length = range.size) ranges writes)
include h

/-- Ranges that lie apart have writes that do. -/
theorem apart_writes (hapart : TargetsApart memory ranges) :
    writes.Pairwise (MemoryWrite.Apart memory) := by
  induction h with
  | nil => exact .nil
  | cons hfirst hrest ih =>
    rename_i range write ranges writes
    obtain ⟨hhead, htail⟩ := List.pairwise_cons.mp hapart
    refine List.pairwise_cons.mpr ⟨?_, ih htail⟩
    intro other hother i hi j hj
    obtain ⟨range', hrange', haddress, -, hlength⟩ :
        ∃ range' ∈ ranges, other.address = range'.targetPhysicalAddress ∧
          other.bytes = request.subspan range'.sourceOffset range'.size ∧
          other.bytes.length = range'.size := by
      obtain ⟨k, hk⟩ := List.mem_iff_getElem?.mp hother
      obtain ⟨hlt, rfl⟩ := List.getElem?_eq_some_iff.mp hk
      have hlt' : k < ranges.length := hrest.length_eq ▸ hlt
      exact ⟨ranges[k], List.getElem_mem _, hrest.get hlt' hlt⟩
    rw [hfirst.1, haddress]
    exact hhead range' hrange' i (hfirst.2.2 ▸ hi) j (hlength ▸ hj)

/-- Writes that are read back load the ranges. -/
theorem loaded_of_writes (hread : ∀ write ∈ writes, ∀ index byte, write.bytes[index]? = some byte →
      memory.readU8 (write.address + BitVec.ofNat 32 index) = .ok byte) :
    Loaded memory request ranges := by
  induction h with
  | nil =>
    intro range hrange
    cases hrange
  | cons hfirst hrest ih =>
    rename_i first write ranges writes
    obtain ⟨hwrite, hothers⟩ := List.forall_mem_cons.mp hread
    intro range hrange index hindex
    rcases List.mem_cons.mp hrange with rfl | hrange
    · obtain ⟨haddress, hbytes, hlength⟩ := hfirst
      have hlt : index < write.bytes.length := hlength ▸ hindex
      rw [← haddress, hwrite index _ (List.getElem?_eq_getElem hlt)]
      congr 1
      have hget : write.bytes[index]? = request.bytes[range.sourceOffset + index]? := by
        rw [hbytes, DiscLoadRequest.subspan, List.getElem?_take_of_lt hindex, List.getElem?_drop]
      rw [List.getD_eq_getElem?_getD, ← hget, List.getElem?_eq_getElem hlt, Option.getD_some]
    · exact ih hothers range hrange index hindex

omit h

theorem commitStaged_atomic (coordinator : DiscLoadCoordinator)
    (ht : ExecutableCodeTracker.WellFormed coordinator.tracker)
    (hfresh : ∀ destination size ranges, rangeResolver destination size = .ok ranges →
      ∀ range ∈ ranges, range.moduleActivated = false ∧ range.exactModuleRetained = false)
    (hstage : coordinator.stage sha256 rangeResolver request = .ok staged) :
    ∃ result, coordinator.commitStaged sha256 admissionObserver request staged = some result ∧
      Atomic coordinator request result := by
  obtain ⟨hreads, hwrites⟩ := writes_spec sha256 rangeResolver hfresh hstage
  obtain ⟨hvalid, htiles⟩ := commit_valid sha256 rangeResolver hfresh hstage
  unfold commitStaged
  cases hmodules : coordinator.prepareModules staged with
  | error fault => exact ⟨_, rfl, rfl, rfl, rfl, rfl, rfl⟩
  | ok prepared =>
    obtain ⟨plan, modules⟩ := prepared
    obtain ⟨hcancel, -⟩ := cancelModules_prepared hmodules
    dsimp only
    cases hcode : prepareStores admissionObserver coordinator request staged with
    | error fault => exact ⟨_, rfl, rfl, hcancel, rfl, rfl, rfl⟩
    | ok code =>
      have hstart : WrittenOver coordinator.memory coordinator.memory [] :=
        ⟨⟨rfl, rfl⟩, by simp, fun _ _ _ => rfl⟩
      dsimp only
      cases hcommit : commitMemory coordinator.memory [] staged.writes with
      | mk memory written =>
        obtain ⟨hnone, hall⟩ := hstart.commitMemory hreads hcommit
        cases written with
        | false => exact ⟨_, rfl, hnone rfl, hcancel, rfl, rfl, rfl⟩
        | true =>
          obtain ⟨committed, hcommitted, hmemory⟩ :=
            commitStores_some admissionObserver ht hmodules hcode memory
          refine ⟨(.ok (discLoadCommit request staged.ranges), committed), ?_, htiles, ?_⟩
          · simp only [hcommitted, Option.map_some, hvalid]
          · intro hapart
            obtain ⟨places, hplaces, hplaced, hfinal⟩ := hall rfl
            have hapart' := apart_writes hwrites hapart
            rw [← hplaces] at hapart'
            have hread := foldl_store_reads ⟨rfl, rfl⟩ hplaced hapart'
            rw [hplaces, ← hfinal, ← hmemory] at hread
            exact loaded_of_writes hwrites hread

/-- `execute` always ends, and either throws and changes no store or loads the
whole payload. -/
theorem execute_atomic {capacity : Nat} {initial : ExecutableCodeTracker}
    (hcreate : ExecutableCodeTracker.create capacity = .ok initial)
    {operations : List ExecutableCodeTracker.Operation} {coordinator : DiscLoadCoordinator}
    (hrun : initial.run operations = some coordinator.tracker)
    (hfresh : ∀ destination size ranges, rangeResolver destination size = .ok ranges →
      ∀ range ∈ ranges, range.moduleActivated = false ∧ range.exactModuleRetained = false)
    (request : DiscLoadRequest) :
    ∃ result, coordinator.execute sha256 rangeResolver admissionObserver request = some result ∧
      Atomic coordinator request result := by
  have ht : ExecutableCodeTracker.WellFormed coordinator.tracker :=
    (ExecutableCodeTracker.create_wellFormed hcreate).run hrun
  unfold execute
  cases validateRequest sha256 request with
  | error fault => exact ⟨_, rfl, rfl, rfl, rfl, rfl, rfl⟩
  | ok _ =>
    dsimp only
    cases hstage : stage sha256 rangeResolver { coordinator with transactionStarted := true }
        request with
    | error fault => exact ⟨_, rfl, rfl, rfl, rfl, rfl, rfl⟩
    | ok staged =>
      obtain ⟨⟨result, after⟩, hresult, hatomic⟩ :=
        commitStaged_atomic sha256 rangeResolver admissionObserver
          { coordinator with transactionStarted := true } ht hfresh hstage
      refine ⟨(result, after), hresult, ?_⟩
      cases result with
      | error fault =>
        exact ⟨hatomic.memory, hatomic.modules, hatomic.blocks, hatomic.tracker,
          hatomic.aotAssemblies⟩
      | ok commit => exact hatomic

end DiscLoadCoordinator
end

namespace DiscLoadCoordinator

/-- The digest of the two bytes of an `rts`. -/
def rtsDigest (bytes : List (BitVec 8)) : String :=
  if bytes = [0x0B, 0x00] then "cbe2268747c9c8072c7f9926f2288f270637dc55bb9d14d3368361d5e47d25be" else ""

def rtsRequest : DiscLoadRequest :=
  { sequence := 1, guestDestination := 0x8C010000, physicalDestination := 0x0C010000
    contentIdentity := "disc"
    byteIdentity := discLoadByteIdentity rtsDigest [0x0B, 0x00]
    bytes := [0x0B, 0x00], guestTranslationValidated := true }

/-- Main memory as one range. -/
def mainMemoryRange (address : BitVec 32) (size : Nat) :
    Except Fault (List DiscLoadCommittedRange) :=
  .ok [{ targetPhysicalAddress := address, backingPhysicalAddress := address, size := size }]

def mainMemoryCoordinator : DiscLoadCoordinator :=
  { memory := { regions := [{ baseAddress := 0x0C000000, size := 0x1000000, device := 0 }] }
    modules := {}
    blocks := { dispatchLifetime := 1 }
    tracker := { provenanceCapacity := 1, eventCapacity := 1 } }

theorem execute_atomic_rts :
    ∃ commit after, mainMemoryCoordinator.execute rtsDigest mainMemoryRange (fun _ _ => .ok ())
        rtsRequest = some (.ok commit, after) ∧ Loaded after.memory rtsRequest commit.ranges := by
  have hfresh : ∀ destination size ranges, mainMemoryRange destination size = .ok ranges →
      ∀ range ∈ ranges, range.moduleActivated = false ∧ range.exactModuleRetained = false := by
    intro destination size ranges hranges range hrange
    cases hranges
    cases List.mem_singleton.mp hrange
    exact ⟨rfl, rfl⟩
  have hcreate : ExecutableCodeTracker.create 1 = .ok mainMemoryCoordinator.tracker := rfl
  have hrun : ExecutableCodeTracker.run mainMemoryCoordinator.tracker [] =
      some mainMemoryCoordinator.tracker := rfl
  obtain ⟨result, hresult, hatomic⟩ := execute_atomic rtsDigest mainMemoryRange
    (fun _ _ => .ok ()) hcreate hrun hfresh rtsRequest
  have hok : ((mainMemoryCoordinator.execute rtsDigest mainMemoryRange (fun _ _ => .ok ())
      rtsRequest).map fun result => result.1.toOption.map (·.ranges.length)) = some (some 1) := by
    decide +kernel
  rw [hresult] at hok
  obtain ⟨outcome, after⟩ := result
  cases outcome with
  | error fault => cases hok
  | ok commit =>
    have hlength : commit.ranges.length = 1 := Option.some.inj (Option.some.inj hok)
    obtain ⟨range, hrange⟩ := List.length_eq_one_iff.mp hlength
    refine ⟨commit, after, hresult, hatomic.2 ?_⟩
    rw [hrange]
    exact List.pairwise_singleton _ _

end DiscLoadCoordinator
end KatanaRecomp.Runtime
