import KatanaRecomp.Runtime.LinearTransaction

/-! # A batch is its writes one after another

Laying the earlier writes over the bytes of the memory gives the bytes of the
memory after these writes, so a change is found against the right bytes whatever
addresses the writes came under. A refused batch leaves everything as it was. -/
namespace KatanaRecomp.Runtime
open Lib
open ExecutableCodeTracker (GuestWriteEvent)

namespace MemoryState
variable {memory : MemoryState} {mapped : NamedRegion} {address : BitVec 32}

/-! ## The writes one after another -/

/-- A single write, byte by byte at its guest address. -/
def applyWrite (memory : MemoryState) (write : LinearMemoryTransactionWrite) : MemoryState :=
  memory.writeRow (memory.linearTransactionAddress write.address write.bytes.length) write.bytes

/-- The writes of a list in order, with the event of each write that is not
empty: it names the write and says whether it changes a byte of the memory that
the writes before it left. -/
inductive Sequential (source : CodeWriteSource) :
    MemoryState → List LinearMemoryTransactionWrite → List GuestWriteEvent → MemoryState → Prop
  | done (memory : MemoryState) : Sequential source memory [] [] memory
  | empty {memory last : MemoryState} {write : LinearMemoryTransactionWrite}
      {rest : List LinearMemoryTransactionWrite} {events : List GuestWriteEvent}
      (hempty : write.bytes = []) (hrest : Sequential source memory rest events last) :
      Sequential source memory (write :: rest) events last
  | write {memory last : MemoryState} {write : LinearMemoryTransactionWrite}
      {rest : List LinearMemoryTransactionWrite} {event : GuestWriteEvent}
      {events : List GuestWriteEvent} (hbytes : write.bytes ≠ [])
      (haddress : event.address = memory.linearTransactionAddress write.address write.bytes.length)
      (hsize : event.size = write.bytes.length) (hsource : event.source = source)
      (hchanged : event.bytesChanged = true ↔ (memory.applyWrite write).storage ≠ memory.storage)
      (hrest : Sequential source (memory.applyWrite write) rest events last) :
      Sequential source memory (write :: rest) (event :: events) last

/-! ## Resolution of a byte -/

variable {operation : MemoryAccessOperation} {width : MemoryAccessWidth}

theorem resolveScan_ok :
    ∀ regions : List NamedRegion,
      MemoryMap.resolveScan address width operation regions = .ok mapped →
        mapped ∈ regions ∧ mapped.covers address width.bytes = true := by
  intro regions
  induction regions with
  | nil =>
    intro h
    cases h
  | cons first rest ih =>
    intro h
    unfold MemoryMap.resolveScan at h
    split at h
    · rename_i hcovers
      cases h
      exact ⟨List.mem_cons_self, hcovers⟩
    · split at h
      · cases h
      · obtain ⟨hmem, hcovers⟩ := ih h
        exact ⟨List.mem_cons_of_mem first hmem, hcovers⟩

theorem resolve_ok {map : MemoryMap} (h : map.resolve address width operation = .ok mapped) :
    mapped ∈ map.regions ∧ mapped.covers address width.bytes = true := by
  unfold MemoryMap.resolve at h
  split at h
  · cases h
  · split at h
    · cases h
    · split at h
      · rename_i hindexed
        cases h
        obtain ⟨-, hmem, hcovers⟩ := MemoryMap.indexedRegion_cases hindexed
        exact ⟨hmem, hcovers⟩
      · exact resolveScan_ok map.regions h

/-! ## The overlay -/

theorem overlay_readRange (previous : PreparedWrite) (memory : MemoryState)
    (device offset size : Nat) :
    previous.overlay device offset (memory.readRange device offset size) =
      (memory.storePrepared previous).readRange device offset size := by
  unfold PreparedWrite.overlay storePrepared
  by_cases hdevice : previous.device = device
  · subst hdevice
    rw [if_neg fun h => h rfl]
    dsimp only
    rw [length_readRange]
    split
    · rename_i hapart
      refine List.ext_getElem (by simp) fun index hleft hright => ?_
      rw [length_readRange] at hleft
      rw [getElem_readRange, getElem_readRange, storeBytes_storage]
      split
      · rw [List.getElem?_eq_none (by omega)]
        rfl
      · rfl
    · rename_i hoverlap
      refine List.ext_getElem (by simp) fun index hleft hright => ?_
      rw [List.length_mapIdx, length_readRange] at hleft
      rw [List.getElem_mapIdx, getElem_readRange, getElem_readRange, storeBytes_storage]
      split
      · rw [if_pos (by omega), List.getD_eq_getElem?_getD]
      · split
        · rw [List.getElem?_eq_none (by omega)]
          rfl
        · rfl
  · rw [if_pos hdevice]
    refine List.ext_getElem (by simp) fun index hleft hright => ?_
    rw [getElem_readRange, getElem_readRange, storeBytes_storage_other fun h => hdevice h.symm]

theorem foldl_overlay (device offset size : Nat) (prepared : List PreparedWrite) :
    ∀ memory : MemoryState, prepared.foldl (PreparedWrite.overlay device offset)
          (memory.readRange device offset size) =
        (prepared.foldl storePrepared memory).readRange device offset size := by
  induction prepared with
  | nil => exact fun memory => rfl
  | cons previous rest ih =>
    intro memory
    rw [List.foldl_cons, List.foldl_cons, overlay_readRange]
    exact ih (memory.storePrepared previous)

/-- The flags of a preparation find a change where the row changes the store. -/
theorem zipWith_any_iff (device offset : Nat) (bytes : List (BitVec 8)) :
    (List.zipWith (fun old new => old != new)
          (memory.readRange device offset bytes.length) bytes).any id = true ↔
      (memory.storeBytes device offset bytes).storage ≠ memory.storage := by
  rw [show (memory.storeBytes device offset bytes).storage =
    (rowPatch device offset bytes).apply memory.storage from rfl, ← Patch.changes_iff,
    rowPatch_changes_iff, List.any_eq_true]
  constructor
  · intro hany
    obtain ⟨flag, hflag, htrue⟩ := hany
    obtain ⟨index, hindex, heq⟩ := List.getElem_of_mem hflag
    rw [List.length_zipWith, length_readRange] at hindex
    have hbyte : index < bytes.length := by omega
    rw [List.getElem_zipWith, getElem_readRange] at heq
    refine ⟨index, bytes[index], List.getElem?_eq_getElem hbyte, fun hsame => ?_⟩
    rw [← heq, hsame] at htrue
    simp at htrue
  · intro hrow
    obtain ⟨index, content, hcontent, hne⟩ := hrow
    obtain ⟨hindex, rfl⟩ := List.getElem?_eq_some_iff.mp hcontent
    refine ⟨true, List.mem_iff_getElem.mpr ⟨index, by simpa using hindex, ?_⟩, rfl⟩
    rw [List.getElem_zipWith, getElem_readRange]
    exact bne_iff_ne.mpr fun h => hne h.symm

/-! ## One write behind the earlier ones -/

theorem foldl_storePrepared (prepared : List PreparedWrite) : ∀ memory : MemoryState,
      ∃ storage, prepared.foldl storePrepared memory = memory.withStorage storage := by
  induction prepared with
  | nil => exact fun memory => ⟨memory.storage, rfl⟩
  | cons write rest ih =>
    intro memory
    obtain ⟨storage, hstorage⟩ := ih (memory.storePrepared write)
    exact ⟨storage, hstorage⟩

theorem prepareWrite_spec {prepared : List PreparedWrite} {write : LinearMemoryTransactionWrite}
    {item : PreparedWrite} (hitem : memory.prepareWrite prepared write = some item) :
    let before := prepared.foldl storePrepared memory
    item.address = before.linearTransactionAddress write.address write.bytes.length ∧
      item.bytes = write.bytes ∧ before.storePrepared item = before.applyWrite write ∧
      (item.changed = true ↔ (before.applyWrite write).storage ≠ before.storage) := by
  intro before
  obtain ⟨storage, hbefore⟩ := foldl_storePrepared prepared memory
  have hplace : before = memory.withStorage storage := hbefore
  unfold prepareWrite at hitem
  split at hitem
  · cases hitem
  · dsimp only at hitem
    split at hitem
    · cases hitem
    · rename_i mapped hresolve
      obtain ⟨hmem, hcovers⟩ := resolve_ok hresolve
      split at hitem
      · cases hitem
      · rename_i hadmitted
        simp only [not_or, Bool.not_eq_false, not_lt] at hadmitted
        obtain ⟨hend, -, hlinear⟩ := hadmitted
        split at hitem
        · cases hitem
        · have hrow : before.applyWrite write = before.storeBytes mapped.device (mapped.offset
                (memory.linearTransactionAddress write.address write.bytes.length))
              write.bytes := by
            rw [hplace]
            exact @writeRow_of_mem (memory.withStorage storage) mapped _ hmem hlinear
              (MappedRegion.covers_iff.mp hcovers) write.bytes hend
          have hoverlay := foldl_overlay mapped.device
            (mapped.offset (memory.linearTransactionAddress write.address write.bytes.length))
            write.bytes.length prepared memory
          cases hitem
          refine ⟨?_, rfl, hrow.symm, ?_⟩
          · rw [hplace]
            rfl
          · rw [hrow, ← zipWith_any_iff]
            show List.any (List.zipWith _ (prepared.foldl _ _) _) id = true ↔ _
            rw [hoverlay]

theorem prepareWrites_spec (source : CodeWriteSource) (writes : List LinearMemoryTransactionWrite) :
    ∀ (prepared all : List PreparedWrite), memory.prepareWrites prepared writes = some all →
      ∃ items, all = prepared ++ items ∧
        Sequential source (prepared.foldl storePrepared memory) writes
          (items.map (PreparedWrite.event source)) (all.foldl storePrepared memory) := by
  induction writes with
  | nil =>
    intro prepared all hall
    cases hall
    exact ⟨[], (List.append_nil prepared).symm, Sequential.done _⟩
  | cons write rest ih =>
    intro prepared all hall
    unfold prepareWrites at hall
    split at hall
    · rename_i hempty
      obtain ⟨items, hitems, hrest⟩ := ih prepared all hall
      exact ⟨items, hitems, Sequential.empty (List.isEmpty_iff.mp hempty) hrest⟩
    · rename_i hbytes
      split at hall
      · cases hall
      · rename_i item hitem
        have hbytes : write.bytes ≠ [] := fun h => hbytes (List.isEmpty_iff.mpr h)
        obtain ⟨items, hitems, hrest⟩ := ih (prepared ++ [item]) all hall
        obtain ⟨haddress, hcopy, hstore, hchanged⟩ := prepareWrite_spec hitem
        refine ⟨item :: items, by rw [hitems, List.append_assoc]; rfl, ?_⟩
        rw [List.foldl_append] at hrest
        change Sequential source ((prepared.foldl storePrepared memory).storePrepared item) _ _ _
          at hrest
        rw [hstore] at hrest
        exact Sequential.write hbytes haddress (congrArg List.length hcopy) rfl hchanged hrest

/-! ## The observers -/

theorem foldl_access_told (write : PreparedWrite) (entries : List (BitVec 8 × Nat)) :
    ∀ memory : MemoryState, Told memory [] (entries.foldl
          (fun memory entry =>
            memory.deliver (.access .write (write.address + BitVec.ofNat 32 entry.2) .byte
              (entry.1.setWidth 32) write.regionName)) memory) := by
  induction entries with
  | nil => exact Told.nothing
  | cons entry rest ih =>
    intro memory
    have hfirst : Told memory []
        (memory.deliver (.access .write (write.address + BitVec.ofNat 32 entry.2) .byte
          (entry.1.setWidth 32) write.regionName)) := ⟨_, deliver_eq_tell _, rfl⟩
    exact hfirst.trans (ih _)

theorem notifyGuestMemoryWriteRange_told (memory : MemoryState) (address : BitVec 32) (size : Nat)
    (source : CodeWriteSource) (changedBytes : List Bool) :
    Told memory [] (memory.notifyGuestMemoryWriteRange address size source changedBytes) := by
  unfold notifyGuestMemoryWriteRange
  split
  · exact Told.nothing memory
  · exact ⟨_, deliver_eq_tell _, rfl⟩

theorem notifyPrepared_told (memory : MemoryState) (source : CodeWriteSource) (write : PreparedWrite) :
    Told memory (if memory.guestWriteObserver.isSome then [write.event source] else [])
      (memory.notifyPrepared source write) := by
  have hobserved : Told memory []
      (if memory.accessObserversActive then memory.notifyAccesses write else memory) := by
    split
    · exact foldl_access_told write write.bytes.zipIdx memory
    · exact Told.nothing memory
  have hwrite := notifyGuestWrite_told
    (if memory.accessObserversActive then memory.notifyAccesses write else memory)
    (write.event source)
  rw [hobserved.guestWriteObserver] at hwrite
  have hrange := notifyGuestMemoryWriteRange_told
    ((if memory.accessObserversActive then memory.notifyAccesses write
      else memory).notifyGuestWrite (write.event source))
    write.address write.bytes.length source write.changedBytes
  have hall := (hobserved.trans hwrite).trans hrange
  rw [List.nil_append, List.append_nil] at hall
  exact hall

theorem foldl_notifyPrepared_told (source : CodeWriteSource) (prepared : List PreparedWrite) :
    ∀ memory : MemoryState, Told memory
        (if memory.guestWriteObserver.isSome then prepared.map (PreparedWrite.event source) else [])
        (prepared.foldl (fun memory write => memory.notifyPrepared source write) memory) := by
  induction prepared with
  | nil =>
    intro memory
    rw [List.map_nil, ite_self]
    exact Told.nothing memory
  | cons write rest ih =>
    intro memory
    have hfirst := notifyPrepared_told memory source write
    have hrest := ih (memory.notifyPrepared source write)
    rw [hfirst.guestWriteObserver] at hrest
    have hall := hfirst.trans hrest
    rw [List.map_cons]
    cases hobserver : memory.guestWriteObserver.isSome with
    | false =>
      rw [hobserver] at hall
      exact hall
    | true =>
      rw [hobserver] at hall
      exact hall

theorem foldl_deliver_told (heard : Bool) (events : List GuestWriteEvent) : ∀ memory : MemoryState,
      Told memory (if heard then events else [])
        (events.foldl
          (fun memory event => if heard then memory.deliver (.guestWrite event) else memory)
          memory) := by
  induction events with
  | nil =>
    intro memory
    rw [ite_self]
    exact Told.nothing memory
  | cons event rest ih =>
    intro memory
    cases heard with
    | false => exact ih memory
    | true =>
      have hfirst : Told memory [event] (memory.deliver (.guestWrite event)) :=
        ⟨_, deliver_eq_tell _, rfl⟩
      exact hfirst.trans (ih (memory.deliver (.guestWrite event)))

/-! ## The batch -/

/-- What a caller of either form is promised: every byte of the writes in order
is in place, and the observer of guest writes, if there is one, heard the event
of every write that is not empty. -/
def CommitsSequentially (memory : MemoryState) (writes : List LinearMemoryTransactionWrite)
    (source : CodeWriteSource) (next : MemoryState) : Prop :=
  ∃ events last, Sequential source memory writes events last ∧
    Told last (if memory.guestWriteObserver.isSome then events else []) next

theorem commitLinearTransactionBatch_sequential (memory : MemoryState)
    (writes : List LinearMemoryTransactionWrite) (source : CodeWriteSource) :
    (memory.commitLinearTransactionBatch writes source = (false, memory) ∨
      ∃ next, memory.commitLinearTransactionBatch writes source = (true, next) ∧
        memory.CommitsSequentially writes source next) ∧
    (memory.prepareLinearTransactionBatch writes source = none ∨
      ∃ prepared next, memory.prepareLinearTransactionBatch writes source = some prepared ∧
        memory.commitPreparedLinearTransactionBatch prepared = some next ∧
        memory.CommitsSequentially writes source next) := by
  cases hprepared : memory.prepareWrites [] writes with
  | none =>
    constructor
    · left
      unfold commitLinearTransactionBatch
      rw [hprepared]
    · left
      unfold prepareLinearTransactionBatch
      rw [hprepared]
      exact ite_self none
  | some prepared =>
    obtain ⟨items, hitems, hsequential⟩ := prepareWrites_spec source writes [] prepared hprepared
    rw [List.nil_append] at hitems
    subst hitems
    obtain ⟨storage, hstored⟩ := foldl_storePrepared prepared memory
    have hobserver : (prepared.foldl storePrepared memory).guestWriteObserver =
        memory.guestWriteObserver := by
      rw [hstored]
      rfl
    constructor
    · right
      refine ⟨_, by unfold commitLinearTransactionBatch; rw [hprepared], ?_⟩
      refine ⟨_, _, hsequential, ?_⟩
      rw [← hobserver]
      exact foldl_notifyPrepared_told source prepared _
    · by_cases hguard : (memory.accessObserversActive || memory.mmioAccessTracking ||
          memory.mmioTraceHandler || memory.guestMemoryAccessSink ||
          !memory.observerAllowsPrevalidatedWrites) = true
      · left
        unfold prepareLinearTransactionBatch
        exact if_pos hguard
      · right
        refine ⟨_, _, by
          unfold prepareLinearTransactionBatch
          rw [if_neg hguard, hprepared], by
          unfold commitPreparedLinearTransactionBatch
          exact if_neg fun h => h rfl, ?_⟩
        exact ⟨_, _, hsequential, foldl_deliver_told memory.guestWriteObserver.isSome _ _⟩

end MemoryState
end KatanaRecomp.Runtime
