import KatanaRecomp.Runtime.DirectWriteBatch

/-! # A staged batch is its stores at once

Nothing moves while stores are staged, so a store that is staged would be taken
by the window at once as well. The entries that wait show a later store the
bytes that the earlier stores would have left; hence its change is the one that
the store at once would report, and both ways of a flush end where the stores
one by one end. -/
namespace KatanaRecomp.Runtime
open Lib ByteFormat
open ExecutableCodeTracker (GuestWriteEvent)

namespace MemoryState
variable {memory : MemoryState}

/-- Stores through the window in a row; `none` where one is not taken. -/
def writeDirect : List ScalarStore → MemoryState → Option MemoryState
  | [], memory => some memory
  | store :: rest, memory =>
    match memory.tryWriteDirectLinear store with
    | none => none
    | some next => writeDirect rest next

/-- The batch after a row of calls, and the stores that were staged. -/
def stageAll (memory : MemoryState) (batch : DirectLinearWriteBatch) :
    List ScalarStore → DirectLinearWriteBatch × List ScalarStore
  | [] => (batch, [])
  | store :: rest =>
    match memory.tryStage batch store with
    | none => stageAll memory batch rest
    | some next => ((stageAll memory next rest).1, store :: (stageAll memory next rest).2)

/-! ## An entry and its store -/

theorem bytes_le_four (width : MemoryAccessWidth) : width.bytes ≤ 4 := by
  cases width <;> decide

theorem littleEndian_setWidth (width : MemoryAccessWidth) (value : BitVec (8 * width.bytes)) :
    littleEndian width.bytes (value.setWidth 32) = littleEndian width.bytes value := by
  unfold littleEndian
  refine List.map_congr_left fun byte hbyte => ?_
  have hbyte : byte < width.bytes := List.mem_range.mp hbyte
  have hfour := bytes_le_four width
  apply BitVec.eq_of_getLsbD_eq
  intro bit hbit
  have hplace : byte * 8 + bit < 32 := by omega
  simp [BitVec.getLsbD_setWidth, BitVec.getLsbD_ushiftRight, hplace]

theorem setWidth_setWidth (width : MemoryAccessWidth) (value : BitVec (8 * width.bytes)) :
    (value.setWidth 32).setWidth (8 * width.bytes) = value := by
  have hfour := bytes_le_four width
  apply BitVec.eq_of_getLsbD_eq
  intro bit hbit
  have hplace : bit < 32 := by omega
  simp [hplace, hbit]

/-! ## Reading through the entries that wait -/

theorem byteThrough_storage (entry : DirectLinearWriteEntry) (window : DirectLinearWindow)
    (hwindow : memory.directLinearWindow = some window) (position : Nat) :
    DirectLinearWriteEntry.byteThrough position (memory.storage (window.backing, position)) entry =
      (memory.storeEntry entry).storage (window.backing, position) := by
  unfold DirectLinearWriteEntry.byteThrough storeEntry
  rw [hwindow]
  dsimp only
  rw [storeBytes_storage]
  by_cases hbefore : position < entry.backingOffset
  · rw [if_pos (Or.inl hbefore), if_neg (Nat.not_le.mpr hbefore)]
  · have hle : entry.backingOffset ≤ position := Nat.not_lt.mp hbefore
    rw [if_pos hle]
    by_cases hbehind : position ≥ entry.backingOffset + entry.width.bytes
    · rw [if_pos (Or.inr hbehind), List.getElem?_eq_none]
      · rfl
      · unfold DirectLinearWriteEntry.bytes
        rw [length_littleEndian]
        omega
    · rw [if_neg (not_or.mpr ⟨hbefore, hbehind⟩)]
      have hindex : position - entry.backingOffset < entry.width.bytes := by omega
      unfold DirectLinearWriteEntry.bytes littleEndian
      rw [List.getElem?_map, List.getElem?_range hindex]
      rfl

theorem foldl_byteThrough (window : DirectLinearWindow) (position : Nat)
    (entries : List DirectLinearWriteEntry) :
    ∀ memory : MemoryState, memory.directLinearWindow = some window →
      entries.foldl (DirectLinearWriteEntry.byteThrough position)
          (memory.storage (window.backing, position)) =
        (entries.foldl storeEntry memory).storage (window.backing, position) := by
  induction entries with
  | nil => exact fun memory hwindow => rfl
  | cons entry rest ih =>
    intro memory hwindow
    rw [List.foldl_cons, List.foldl_cons, byteThrough_storage entry window hwindow]
    refine ih (memory.storeEntry entry) ?_
    unfold storeEntry
    rw [hwindow]
    exact hwindow

theorem foldl_storeEntry (entries : List DirectLinearWriteEntry) : ∀ memory : MemoryState,
      ∃ storage, entries.foldl storeEntry memory = memory.withStorage storage := by
  induction entries with
  | nil => exact fun memory => ⟨memory.storage, rfl⟩
  | cons entry rest ih =>
    intro memory
    obtain ⟨storage, hstorage⟩ := ih (memory.storeEntry entry)
    refine ⟨storage, ?_⟩
    rw [List.foldl_cons, hstorage]
    unfold storeEntry
    split
    · rfl
    · rfl

/-- The change that staging finds is the one of the store at once. -/
theorem any_changed_eq (memory : MemoryState) (backing offset : Nat) (store : ScalarStore) :
    ((List.range store.width.bytes).any fun byte =>
        memory.storage (backing, offset + byte) !=
          ((store.value.setWidth 32) >>> (byte * 8)).setWidth 8) =
      (assemble (8 * store.width.bytes) 0
        (memory.readRange backing offset store.width.bytes) != store.value) := by
  rw [Bool.eq_iff_iff, assemble_bne_iff, ← littleEndian_setWidth, ← readRange_ne_iff,
    length_littleEndian, List.any_eq_true]
  constructor
  · intro hany heq
    obtain ⟨byte, hbyte, hne⟩ := hany
    have hbyte : byte < store.width.bytes := List.mem_range.mp hbyte
    have hsame := congrArg (fun row : List (BitVec 8) => row[byte]?) heq
    simp only [readRange, littleEndian, List.getElem?_map, List.getElem?_range hbyte,
      Option.map_some, Option.some.injEq] at hsame
    exact bne_iff_ne.mp hne hsame
  · intro hne
    by_contra hnone
    refine hne (List.map_congr_left fun byte hbyte => ?_)
    by_contra hbad
    exact hnone ⟨byte, hbyte, bne_iff_ne.mpr hbad⟩

/-! ## Staging keeps the promise of the batch -/

/-- The stores behind a batch, taken by the window one by one, leave the stored
entries, and the observer hears the events of the batch. -/
structure Staged (memory : MemoryState) (batch : DirectLinearWriteBatch)
    (accepted : List ScalarStore) : Prop where
  scalars : batch.entries.map DirectLinearWriteEntry.scalar = accepted
  written : writeDirect accepted memory = some ((batch.entries.foldl storeEntry memory).tell
      (if memory.guestWriteObserver.isSome then batch.events.map .guestWrite else []))
  matched : batch.events.length = batch.entries.length
  current : batch.entries ≠ [] →
    batch.owned = true ∧ memory.directLinearWriteBatchCurrent batch = true

theorem writeDirect_append (first second : List ScalarStore) : ∀ memory : MemoryState,
      writeDirect (first ++ second) memory = (writeDirect first memory).bind (writeDirect second) := by
  induction first with
  | nil => exact fun memory => rfl
  | cons store rest ih =>
    intro memory
    simp only [List.cons_append, writeDirect]
    cases hnext : memory.tryWriteDirectLinear store with
    | none => rfl
    | some next => exact ih next

theorem directLinearOffset_window {address : BitVec 32} {width backing offset : Nat}
    (h : memory.directLinearOffset address width = some (backing, offset)) :
    ∃ window, memory.directLinearWindow = some window ∧ backing = window.backing := by
  unfold directLinearOffset at h
  cases hwindow : memory.directLinearWindow with
  | none =>
    rw [hwindow] at h
    cases h
  | some window =>
    rw [hwindow] at h
    refine ⟨window, rfl, ?_⟩
    dsimp only at h
    split at h
    · cases h
    · split at h
      · cases h
      · split at h
        · cases h
        · split at h
          · cases h
            rfl
          · cases h

theorem notifyGuestWrite_eq_tell (event : GuestWriteEvent) : memory.notifyGuestWrite event =
      memory.tell (if memory.guestWriteObserver.isSome then [.guestWrite event] else []) := by
  unfold notifyGuestWrite
  split
  · rfl
  · exact tell_nil.symm

variable {store : ScalarStore}

/-- A store at once behind stored entries and what the observers heard. -/
theorem tryWriteDirectLinear_behind (storage : MemoryPlace → BitVec 8)
    (told : List MemoryNotification) {backing offset : Nat}
    (henabled : memory.directLinearWritesEnabled = true)
    (hoffset : memory.directLinearOffset store.address store.width.bytes = some (backing, offset)) :
    ((memory.withStorage storage).tell told).tryWriteDirectLinear store =
      some (((memory.withStorage storage).storeBytes backing offset store.bytes).tell
        (told ++ if memory.guestWriteObserver.isSome then
            [.guestWrite (store.event (assemble (8 * store.width.bytes) 0
              ((memory.withStorage storage).readRange backing offset store.width.bytes) !=
                store.value))]
          else [])) := by
  have hoffset' : ((memory.withStorage storage).tell told).directLinearOffset store.address
      store.width.bytes = some (backing, offset) := hoffset
  have henabled' : ¬ ((memory.withStorage storage).tell told).directLinearWritesEnabled = false :=
    Bool.eq_false_iff.not.mpr fun h => h henabled
  unfold tryWriteDirectLinear
  rw [if_neg henabled', hoffset']
  dsimp only
  rw [notifyGuestWrite_eq_tell, ← tell_tell]
  rfl

theorem storeEntry_of_store {entry : DirectLinearWriteEntry}
    {window : DirectLinearWindow} {offset : Nat}
    (hwindow : memory.directLinearWindow = some window) (hoffset : entry.backingOffset = offset)
    (hbytes : entry.bytes = store.bytes) :
    memory.storeEntry entry = memory.storeBytes window.backing offset store.bytes := by
  unfold storeEntry
  rw [hwindow, hoffset, hbytes]

variable {batch : DirectLinearWriteBatch}

variable {accepted : List ScalarStore}

theorem Staged.tryStage {next : DirectLinearWriteBatch}
    (h : Staged memory batch accepted) (hnext : memory.tryStage batch store = some next) :
    Staged memory next (accepted ++ [store]) := by
  unfold MemoryState.tryStage at hnext
  split at hnext
  · cases hnext
  · rename_i hguard
    simp only [Bool.or_eq_true, Bool.not_eq_true', decide_eq_true_eq, not_or,
      Bool.not_eq_false] at hguard
    obtain ⟨⟨howned, -⟩, hcurrent⟩ := hguard
    split at hnext
    · cases hnext
    · rename_i backing offset hoffset
      obtain ⟨window, hwindow, rfl⟩ := directLinearOffset_window hoffset
      obtain ⟨storage, hstored⟩ := foldl_storeEntry batch.entries memory
      have henabled : memory.directLinearWritesEnabled = true := by
        unfold directLinearWriteBatchCurrent at hcurrent
        simp only [Bool.and_eq_true] at hcurrent
        exact hcurrent.1.1.1.2
      have hchanged := any_changed_eq (batch.entries.foldl storeEntry memory)
        window.backing offset store
      simp only [← foldl_byteThrough window _ batch.entries memory hwindow] at hchanged
      cases hnext
      constructor
      · rw [List.map_append, h.scalars, List.map_singleton]
        unfold DirectLinearWriteEntry.scalar
        rw [setWidth_setWidth]
      · rw [writeDirect_append, h.written, Option.bind_some]
        rw [List.foldl_append, hstored] at *
        simp only [writeDirect]
        have hentry (changed : Bool) : (memory.withStorage storage).storeEntry
            { physicalAddress := store.address, backingOffset := offset,
              value := store.value.setWidth 32, width := store.width, source := store.source,
              bytesChanged := changed } =
            (memory.withStorage storage).storeBytes window.backing offset store.bytes :=
          storeEntry_of_store hwindow rfl (littleEndian_setWidth store.width store.value)
        rw [tryWriteDirectLinear_behind storage _ henabled hoffset, hchanged, List.foldl_cons,
          List.foldl_nil, hentry]
        cases memory.guestWriteObserver.isSome with
        | false => rfl
        | true =>
          rw [if_pos rfl, if_pos rfl, if_pos rfl, List.map_append]
          rfl
      · rw [List.length_append, List.length_append, h.matched]
        rfl
      · exact fun _ => ⟨howned, hcurrent⟩

theorem Staged.stageAll (stores : List ScalarStore) :
    ∀ (batch : DirectLinearWriteBatch) (accepted : List ScalarStore), Staged memory batch accepted →
        Staged memory (memory.stageAll batch stores).1
          (accepted ++ (memory.stageAll batch stores).2) := by
  induction stores with
  | nil =>
    intro batch accepted h
    rw [show (memory.stageAll batch []).2 = [] from rfl, List.append_nil]
    exact h
  | cons store rest ih =>
    intro batch accepted h
    simp only [MemoryState.stageAll]
    split
    · exact ih batch accepted h
    · rename_i next hnext
      have hrest := ih next (accepted ++ [store]) (h.tryStage hnext)
      rwa [List.append_assoc] at hrest

/-! ## The flush -/

/-- A replay takes the window for every store that the window takes. -/
theorem replayEntries_of_writeDirect (entries : List DirectLinearWriteEntry) :
    ∀ memory last : MemoryState,
      writeDirect (entries.map DirectLinearWriteEntry.scalar) memory = some last →
        replayEntries entries memory = some last := by
  induction entries with
  | nil => exact fun memory last h => h
  | cons entry rest ih =>
    intro memory last h
    simp only [List.map_cons, writeDirect] at h
    split at h
    · cases h
    · rename_i next hnext
      simp only [replayEntries, replayEntry, hnext]
      exact ih next last h

theorem foldl_deliver_eq_tell (events : List GuestWriteEvent) : ∀ memory : MemoryState,
      events.foldl (fun memory event => memory.deliver (.guestWrite event)) memory =
        memory.tell (events.map .guestWrite) := by
  induction events with
  | nil => exact fun memory => tell_nil.symm
  | cons event rest ih =>
    intro memory
    rw [List.foldl_cons, ih, deliver_eq_tell, tell_tell]
    rfl

theorem Staged.flush (h : Staged memory batch accepted) :
    ∃ last, memory.flush batch = some last ∧ writeDirect accepted memory = some last := by
  refine ⟨_, ?_, h.written⟩
  have hwritten := h.written
  rw [← h.scalars] at hwritten
  unfold MemoryState.flush flushDirectLinearWriteBatch
  by_cases hentries : batch.entries = []
  · have hevents : batch.events = [] := List.length_eq_zero_iff.mp (by rw [h.matched, hentries]; rfl)
    rw [hentries, hevents, List.map_nil, ite_self, List.foldl_nil, tell_nil, List.isEmpty_nil,
      if_pos rfl, ite_self]
  · obtain ⟨howned, hcurrent⟩ := h.current hentries
    have hpaired : memory.guestWriteBatchObserver.isSome = memory.guestWriteObserver.isSome := by
      unfold directLinearWriteBatchCurrent observersUnpaired at hcurrent
      simp only [Bool.and_eq_true, Bool.not_eq_true', bne_eq_false_iff_eq] at hcurrent
      exact hcurrent.2.symm
    have hdirect : (if memory.guestWriteBatchObserver.isSome then
          batch.events.foldl (fun memory event => memory.deliver (.guestWrite event))
            (batch.entries.foldl storeEntry memory)
        else batch.entries.foldl storeEntry memory) = (batch.entries.foldl storeEntry memory).tell
          (if memory.guestWriteObserver.isSome then batch.events.map .guestWrite else []) := by
      rw [foldl_deliver_eq_tell, hpaired]
      split
      · rfl
      · exact tell_nil.symm
    rw [if_pos howned, if_neg fun hempty => hentries (List.isEmpty_iff.mp hempty)]
    dsimp only
    rw [hdirect, replayEntries_of_writeDirect batch.entries memory _ hwritten, ite_self]

/-- Staged stores and a flush do what the same stores do at once, for a batch
of any owner and generation; the flush never ends in `std::terminate`. -/
theorem flush_staged (memory : MemoryState) (owned : Bool)
    (directGeneration observerGeneration : BitVec 64) (stores : List ScalarStore) :
    let batch : DirectLinearWriteBatch :=
      { owned := owned, directGeneration := directGeneration,
        observerGeneration := observerGeneration }
    let staged := memory.stageAll batch stores
    ∃ last, memory.flush staged.1 = some last ∧ writeDirect staged.2 memory = some last := by
  intro batch staged
  have hbatch : Staged memory batch [] := by
    refine ⟨rfl, ?_, rfl, fun hentries => absurd rfl hentries⟩
    rw [show batch.events = [] from rfl, List.map_nil, ite_self, tell_nil]
    rfl
  exact (Staged.stageAll stores batch [] hbatch).flush

end MemoryState
end KatanaRecomp.Runtime
