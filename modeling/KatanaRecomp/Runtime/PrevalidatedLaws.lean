import KatanaRecomp.Runtime.ScalarLoop

/-! # A bulk write stands for its loop

The region of a bulk write holds the whole range, so every store of the loop
lands in it. The bytes of a fill, a pattern and a copy go to different places,
hence their changes can be found beforehand; the values of a rewritten word are
each compared with the value before. -/
namespace KatanaRecomp.Runtime
open Lib ByteFormat
open ExecutableCodeTracker (GuestWriteEvent)

namespace MemoryState
variable {memory : MemoryState} {mapped : NamedRegion} {address : BitVec 32}

/-! ## The region -/

theorem onlyRegion_spec {size : Nat} (h : memory.onlyRegion address size = some mapped) :
    mapped ∈ memory.map.regions ∧ mapped.covers address size = true := by
  unfold onlyRegion at h
  split at h
  · rename_i found hfilter
    cases h
    have hmem : mapped ∈ memory.map.regions.filter
        fun candidate => candidate.covers address size := by
      rw [hfilter]
      exact List.mem_singleton_self mapped
    exact ⟨List.mem_of_mem_filter hmem, by simpa using (List.mem_filter.mp hmem).2⟩
  · cases h

/-- A bulk write has a region that holds the whole range and can be written. -/
theorem prevalidatedWritableRegion_spec {size : Nat}
    (h : memory.prevalidatedWritableRegion address size = some mapped) :
    mapped ∈ memory.map.regions ∧ mapped.covers address size = true ∧ mapped.readWrite = true ∧
      0 < size ∧ mapped.offset address + size ≤ mapped.size := by
  unfold prevalidatedWritableRegion at h
  split at h
  · cases h
  · rename_i hguard
    split at h
    · cases h
    · rename_i found hfound
      split at h
      · cases h
      · rename_i hwritable
        split at h
        · cases h
        · cases h
          have hregion : mapped ∈ memory.map.regions ∧ mapped.covers address size = true := by
            obtain hindexed | ⟨-, honly⟩ := Option.or_eq_some_iff.mp hfound
            · exact (MemoryMap.indexedRegion_cases hindexed).2
            · exact onlyRegion_spec honly
          refine ⟨hregion.1, hregion.2, Bool.not_eq_false _ ▸ hwritable, ?_, ?_⟩
          · omega
          · omega

theorem resolve_of_covers {width : MemoryAccessWidth} (operation : MemoryAccessOperation)
    (hmem : mapped ∈ memory.map.regions) (hcovers : mapped.covers address width.bytes = true)
    (haligned : address.toNat % width.bytes = 0) :
    memory.map.resolve address width operation = .ok mapped := by
  have hwidth : width.bytes ≠ 0 := by cases width <;> decide
  have hspace := (memory.wellMapped.occupied mapped hmem).2
  have hend := (MappedRegion.covers_iff.mp hcovers).2
  have halign : memory.map.requireAlignment address width operation = .ok () := by
    unfold MemoryMap.requireAlignment
    split
    · rfl
    · rw [if_neg fun h => h haligned]
  unfold MemoryMap.resolve
  rw [halign]
  dsimp only
  rw [if_neg (by omega)]
  have honly : ∀ other ∈ memory.map.regions, other.Holds address → other = mapped :=
    fun other hother hholds => memory.wellMapped.holds_unique hmem hother
      (MappedRegion.holds_of_covers hwidth hcovers) hholds
  cases hindexed : memory.map.indexedRegion address width.bytes with
  | none => exact MemoryMap.resolveScan_of_covers hcovers _ hmem honly
  | some other =>
    obtain ⟨-, hother, hotherCovers⟩ := MemoryMap.indexedRegion_cases hindexed
    dsimp only
    rw [honly other hother (MappedRegion.holds_of_covers hwidth hotherCovers)]

theorem isSome_placeAt (hmem : mapped ∈ memory.map.regions) (hholds : mapped.Holds address) :
    (memory.placeAt address).isSome = mapped.linear := by
  unfold placeAt
  rw [scanRegion_byte hmem hholds]
  dsimp only
  cases mapped.linear with
  | true => rfl
  | false => rfl

variable {place : MemoryPlace}

/-- A store inside the range of a bulk write lands in its region. -/
theorem lands_of_covers {size index : Nat} {store : ScalarStore}
    (hmem : mapped ∈ memory.map.regions) (hcovers : mapped.covers address size = true)
    (hindex : index + store.width.bytes ≤ size)
    (hstore : store.address = address + BitVec.ofNat 32 index)
    (haligned : (address.toNat + index) % store.width.bytes = 0)
    (hlinear : mapped.linear = true → place = (mapped.device, mapped.offset address + index))
    (hprojected : mapped.linear = false → memory.vramBacking mapped.device = some place.1 ∧
      place.2 = vram32BitToLinearOffset (mapped.offset address + index)) :
    memory.Lands mapped (store, place) := by
  have hwidth : 0 < store.width.bytes := by cases store.width <;> decide
  obtain ⟨hbase, hend⟩ := MappedRegion.covers_iff.mp hcovers
  have hspace := (memory.wellMapped.occupied mapped hmem).2
  have haddress : store.address.toNat = address.toNat + index := by
    rw [hstore]
    exact toNat_add_index (by omega : index < size) (by omega)
  have hoffset : mapped.offset store.address = mapped.offset address + index := by
    unfold MappedRegion.offset
    omega
  constructor
  · refine resolve_of_covers .write hmem (MappedRegion.covers_iff.mpr ?_) ?_
    · show mapped.baseAddress.toNat ≤ store.address.toNat ∧
        store.address.toNat + store.width.bytes ≤ mapped.regionEnd
      exact ⟨by omega, by omega⟩
    · rw [haddress]
      exact haligned
  · rw [hoffset]
    exact hlinear
  · rw [hoffset]
    exact hprojected

theorem quiet_of_admits (h : memory.admitsPrevalidatedWrites ≠ false) : memory.Quiet := by
  have hadmits := Bool.eq_true_of_not_eq_false h
  unfold admitsPrevalidatedWrites at hadmits
  simp only [Bool.and_eq_true, Bool.not_eq_true'] at hadmits
  exact ⟨hadmits.1.1.1.1.2, hadmits.1.2⟩

/-- The events of a bulk write, one for each flag. -/
theorem notifyChanges_eq_hear (memory : MemoryState) (address : BitVec 32) (step size : Nat) (source : CodeWriteSource)
    (changed : List Bool) :
    memory.notifyChanges memory.guestWriteObserver.isSome address step size source changed =
      memory.hear (changed.zipIdx.map fun entry =>
        { address := address + BitVec.ofNat 32 (step * entry.2), size := size,
          source := source, bytesChanged := entry.1 }) := by
  unfold notifyChanges hear
  split
  · generalize changed.zipIdx = entries
    suffices h : ∀ memory : MemoryState, entries.foldl (fun memory entry => memory.deliver
          (.guestWrite
            { address := address + BitVec.ofNat 32 (step * entry.2), size := size,
              source := source, bytesChanged := entry.1 })) memory =
        memory.tell ((entries.map fun entry =>
          ({ address := address + BitVec.ofNat 32 (step * entry.2), size := size,
             source := source, bytesChanged := entry.1 } : GuestWriteEvent)).map .guestWrite) from
      h memory
    induction entries with
    | nil => exact fun memory => tell_nil.symm
    | cons entry rest ih =>
      intro memory
      rw [List.foldl_cons, ih, deliver_eq_tell, tell_tell]
      rfl
  · exact tell_nil.symm

/-! ## Rows of chunks -/

theorem storeBytes_append (memory : MemoryState) (device offset : Nat)
    (first second : List (BitVec 8)) : memory.storeBytes device offset (first ++ second) =
      (memory.storeBytes device offset first).storeBytes device (offset + first.length) second := by
  have hstorage : (memory.storeBytes device offset (first ++ second)).storage =
      ((memory.storeBytes device offset first).storeBytes device (offset + first.length)
        second).storage := by
    funext place
    obtain ⟨other, position⟩ := place
    by_cases hdevice : other = device
    · subst hdevice
      rw [storeBytes_storage, storeBytes_storage, storeBytes_storage]
      obtain hbefore | hle := Nat.lt_or_ge position offset
      · rw [if_neg (by omega), if_neg (by omega), if_neg (by omega)]
      · rw [if_pos hle, if_pos hle]
        obtain hfirst | hsecond := Nat.lt_or_ge position (offset + first.length)
        · rw [if_neg (by omega), List.getElem?_append_left (by omega)]
        · rw [if_pos hsecond, List.getElem?_append_right (by omega),
            List.getElem?_eq_none (by omega : first.length ≤ position - offset), Nat.sub_sub]
          rfl
    · rw [storeBytes_storage_other hdevice, storeBytes_storage_other hdevice,
        storeBytes_storage_other hdevice]
  unfold storeBytes at hstorage ⊢
  exact congrArg memory.withStorage hstorage

/-- Chunks of one size, stored one behind the other, are one row. -/
theorem foldl_storeBytes_chunks (memory : MemoryState) (device offset step : Nat)
    (chunk : Nat → List (BitVec 8)) (count : Nat)
    (hchunk : ∀ index < count, (chunk index).length = step) : (List.range count).foldl
        (fun memory index => memory.storeBytes device (offset + step * index) (chunk index)) memory =
      memory.storeBytes device offset ((List.range count).flatMap chunk) := by
  induction count with
  | zero =>
    unfold storeBytes
    rw [List.range_zero, List.flatMap_nil, rowPatch_nil]
    rfl
  | succ count ih =>
    have hlength : ((List.range count).flatMap chunk).length = step * count := by
      rw [List.length_flatMap, List.map_congr_left fun index hindex =>
        hchunk index (Nat.lt_succ_of_lt (List.mem_range.mp hindex)), List.map_const',
        List.sum_replicate, List.length_range, smul_eq_mul, Nat.mul_comm]
    rw [List.range_succ, List.foldl_append, ih fun index hindex =>
      hchunk index (Nat.lt_succ_of_lt hindex), List.flatMap_append, storeBytes_append, hlength,
      List.flatMap_singleton]
    rfl

/-! ## Landings over a range -/

/-- The flags over a range and the events of the landings over the same range. -/
theorem zipIdx_map_range {α β : Type} (count : Nat) (flag : Nat → α) (build : α × Nat → β) :
    ((List.range count).map flag).zipIdx.map build =
      (List.range count).map fun index => build (flag index, index) := by
  refine List.ext_getElem (by simp) fun index hleft hright => ?_
  simp

theorem pairwise_map_range {α : Type} {related : α → α → Prop} (count : Nat) (value : Nat → α)
    (h : ∀ left right, left < right → right < count → related (value left) (value right)) :
    ((List.range count).map value).Pairwise related := by
  refine List.pairwise_map.mpr ((List.pairwise_lt_range).imp_of_mem ?_)
  intro left right hleft hright hlt
  exact h left right hlt (List.mem_range.mp hright)

theorem landAll_map_range (memory : MemoryState) (count : Nat) (landing : Nat → Landing) :
    memory.landAll ((List.range count).map landing) =
      (List.range count).foldl (fun memory index => memory.land (landing index)) memory := by
  unfold landAll
  rw [List.foldl_map]

theorem hear_congr {first second : List GuestWriteEvent}
    (h : memory.guestWriteObserver.isSome = true → first = second) :
    memory.hear first = memory.hear second := by
  unfold hear
  split
  · rename_i hobserver
    rw [h hobserver]
  · rfl

/-- A bulk write over a range of landings that share no byte. -/
theorem standsFor_of_range (count step size : Nat) (source : CodeWriteSource)
    (store : Nat → ScalarStore) (place : Nat → MemoryPlace) (hquiet : memory.Quiet)
    (hwritable : mapped.readWrite = true)
    (hlands : ∀ index < count, memory.Lands mapped (store index, place index))
    (hapart : ∀ left right, left < right → right < count →
      Landing.Apart (store left, place left) (store right, place right))
    (hplace : (memory.placeAt address).isSome = mapped.linear)
    (hevent : ∀ index changed, (store index).event changed =
      { address := address + BitVec.ofNat 32 (step * index), size := size,
        source := source, bytesChanged := changed }) :
    memory.StandsFor address ((List.range count).map store) (true, ((List.range count).foldl
            (fun memory index => memory.land (store index, place index)) memory).notifyChanges
          memory.guestWriteObserver.isSome address step size source
          (if memory.guestWriteObserver.isSome then
            (List.range count).map fun index => memory.changedBy (store index, place index)
          else [])) := by
  have hlandings : ∀ landing ∈ (List.range count).map fun index => (store index, place index),
      memory.Lands mapped landing := by
    intro landing hlanding
    obtain ⟨index, hindex, rfl⟩ := List.mem_map.mp hlanding
    exact hlands index (List.mem_range.mp hindex)
  have hall := standsFor_of_landings hquiet hwritable hlandings hplace
  rw [List.map_map] at hall
  have hstored := landAll_map_range memory count fun index => (store index, place index)
  obtain ⟨storage, hstorage⟩ :=
    landAll_eq ((List.range count).map fun index => (store index, place index)) memory
  have hnotified := notifyChanges_eq_hear (memory.withStorage storage) address step size
    source (if memory.guestWriteObserver.isSome then
      (List.range count).map fun index => memory.changedBy (store index, place index)
      else [])
  rw [← hstored, hstorage]
  rw [hstorage] at hall
  change memory.StandsFor address _ (true, (memory.withStorage storage).notifyChanges
    (memory.withStorage storage).guestWriteObserver.isSome address step size source _)
  rw [hnotified]
  refine Eq.mp (congrArg (fun next => memory.StandsFor address _ (true, next)) ?_) hall
  refine hear_congr fun hobserver => ?_
  have hobserver : memory.guestWriteObserver.isSome = true := hobserver
  rw [if_pos hobserver, exactEvents_of_apart _ memory (pairwise_map_range count _ hapart),
    zipIdx_map_range, List.map_map]
  exact List.map_congr_left fun index hindex => hevent index _

/-! ## A fill -/

def fillStore (address : BitVec 32) (value : BitVec 8) (source : CodeWriteSource) (index : Nat) :
    ScalarStore where
  address := address + BitVec.ofNat 32 index
  width := .byte
  value := value
  source := source

/-- The loop of `write_u8` calls. -/
def fillStores (address : BitVec 32) (size : Nat) (value : BitVec 8) (source : CodeWriteSource) :
    List ScalarStore := (List.range size).map (fillStore address value source)

theorem fillStore_bytes (value : BitVec 8) (source : CodeWriteSource) (index : Nat) :
    (fillStore address value source index).bytes = [value] := by
  show littleEndian 1 value = [value]
  simp [littleEndian]

theorem changedBy_fillStore (value : BitVec 8) (source : CodeWriteSource) (index device offset : Nat) :
    memory.changedBy (fillStore address value source index, (device, offset)) =
      (memory.storage (device, offset) != value) := by
  unfold changedBy
  rw [fillStore_bytes]
  show ([memory.storage (device, offset + 0)] != [value]) = _
  rw [Nat.add_zero]
  simp [bne]

theorem prevalidatedLinearFill_standsFor (memory : MemoryState) (address : BitVec 32) (size : Nat)
    (value : BitVec 8) (source : CodeWriteSource) :
    memory.StandsFor address (fillStores address size value source)
        (memory.commitPrevalidatedLinearFill address size value source) ∧
      ((memory.commitPrevalidatedLinearFill address size value source).1 = true →
        (memory.placeAt address).isSome = true) := by
  unfold commitPrevalidatedLinearFill
  cases hprepared : memory.preparePrevalidatedLinearFill address size value source with
  | none => exact ⟨Or.inl rfl, fun hplan => by cases hplan⟩
  | some prepared =>
    unfold preparePrevalidatedLinearFill at hprepared
    split at hprepared
    · cases hprepared
    · rename_i hguard
      split at hprepared
      · cases hprepared
      · rename_i mapped hmapped
        unfold prevalidatedWritableLinearRegion at hmapped
        split at hmapped
        · cases hmapped
        · rename_i found hfound
          split at hmapped
          · rename_i hlinear
            cases hmapped
            cases hprepared
            obtain ⟨hmem, hcovers, hwritable, hsize, -⟩ := prevalidatedWritableRegion_spec hfound
            have hplace := isSome_placeAt hmem
              (MappedRegion.holds_of_covers (Nat.pos_iff_ne_zero.mp hsize) hcovers)
            have hall := standsFor_of_range size 1 1 source (fillStore address value source)
              (fun index => (mapped.device, mapped.offset address + index))
              (quiet_of_admits fun h => hguard (Or.inr h)) hwritable
              (fun index hindex => lands_of_covers hmem hcovers
                (show index + 1 ≤ size by omega) rfl (Nat.mod_one _) (fun _ => rfl)
                fun hnot => absurd hnot (by rw [hlinear]; exact Bool.true_eq_false.mp))
              (fun left right hlt hright => Or.inr (Or.inl
                (show mapped.offset address + left + 1 ≤ mapped.offset address + right by omega)))
              hplace (fun index changed => by rw [Nat.one_mul]; rfl)
            simp only [changedBy_fillStore] at hall
            have hland (memory : MemoryState) (index : Nat) :
                memory.land (fillStore address value source index,
                    (mapped.device, mapped.offset address + index)) =
                  memory.storeBytes mapped.device (mapped.offset address + 1 * index) [value] := by
              rw [Nat.one_mul, ← fillStore_bytes value source index]
              rfl
            have hrow : (List.range size).flatMap (fun _ => [value]) = List.replicate size value :=
              List.eq_replicate_iff.mpr ⟨by simp, by simp⟩
            simp only [hland] at hall
            rw [foldl_storeBytes_chunks memory mapped.device (mapped.offset address) 1
              (fun _ => [value]) size fun _ _ => rfl, hrow] at hall
            exact ⟨hall, fun _ => hplace.trans hlinear⟩
          · cases hmapped

/-! ## Words -/

def wordStore (address : BitVec 32) (valueAt : Nat → BitVec 32) (source : CodeWriteSource)
    (word : Nat) : ScalarStore where
  address := address + BitVec.ofNat 32 (4 * word)
  width := .word
  value := valueAt word
  source := source

/-- The loop of `write_u32` calls. -/
def wordStores (address : BitVec 32) (count : Nat) (valueAt : Nat → BitVec 32)
    (source : CodeWriteSource) : List ScalarStore :=
  (List.range count).map (wordStore address valueAt source)

variable {valueAt : Nat → BitVec 32} {source : CodeWriteSource}

theorem words_standsFor_linear {count : Nat}
    (hquiet : memory.Quiet) (hmem : mapped ∈ memory.map.regions)
    (hcovers : mapped.covers address (4 * count) = true) (hcount : 0 < count)
    (hwritable : mapped.readWrite = true) (haligned : address.toNat % 4 = 0)
    (hlinear : mapped.linear = true) :
    memory.StandsFor address (wordStores address count valueAt source)
      (true, (memory.storeBytes mapped.device (mapped.offset address)
            ((List.range count).flatMap fun word => littleEndian 4 (valueAt word))).notifyChanges
          memory.guestWriteObserver.isSome address 4 4 source
          (if memory.guestWriteObserver.isSome then
            (List.range count).map fun word =>
              memory.readRange mapped.device (mapped.offset address + 4 * word) 4 !=
                littleEndian 4 (valueAt word)
          else [])) := by
  have hall := standsFor_of_range count 4 4 source (wordStore address valueAt source)
    (fun word => (mapped.device, mapped.offset address + 4 * word)) hquiet hwritable
    (fun word hword => lands_of_covers hmem hcovers (show 4 * word + 4 ≤ 4 * count by omega) rfl
      (show (address.toNat + 4 * word) % 4 = 0 by omega) (fun _ => rfl)
      fun hnot => absurd hnot (by rw [hlinear]; exact Bool.true_eq_false.mp))
    (fun left right hlt hright => Or.inr (Or.inl
      (show mapped.offset address + 4 * left + 4 ≤ mapped.offset address + 4 * right by omega)))
    (isSome_placeAt hmem (MappedRegion.holds_of_covers (by omega) hcovers))
    (fun word changed => rfl)
  have hchunks := foldl_storeBytes_chunks memory mapped.device (mapped.offset address) 4
    (fun word => littleEndian 4 (valueAt word)) count fun _ _ => length_littleEndian _
  rw [← hchunks]
  exact hall

/-! ## Projected words -/

/-- Two words of the aperture lie in different words of the backing. -/
theorem vram32BitToLinearOffset_apart {left right : Nat} (hleft : left % 4 = 0)
    (hright : right % 4 = 0) (hlt : left < right) (hsize : right < dreamcastVramSize) :
    vram32BitToLinearOffset left + 4 ≤ vram32BitToLinearOffset right ∨
      vram32BitToLinearOffset right + 4 ≤ vram32BitToLinearOffset left := by
  unfold dreamcastVramSize at hsize
  unfold vram32BitToLinearOffset dreamcastVramBankSize
  dsimp only
  omega

theorem aligned_of_contiguous {offset : Nat}
    (hfourth : vram32BitToLinearOffset (offset + 3) = vram32BitToLinearOffset offset + 3) :
    offset % 4 = 0 := by
  unfold vram32BitToLinearOffset dreamcastVramBankSize at *
  dsimp only at *
  omega

/-- A projected word is an aligned word of the aperture. -/
theorem projectedWord_spec {offset : Nat} (h : memory.projectedWord mapped offset = some place) :
    memory.vramBacking mapped.device = some place.1 ∧
      place.2 = vram32BitToLinearOffset offset ∧ offset % 4 = 0 ∧ offset + 4 ≤ mapped.size := by
  unfold projectedWord at h
  cases hbacking : memory.vramBacking mapped.device with
  | none =>
    rw [hbacking] at h
    cases h
  | some backing =>
    rw [hbacking] at h
    dsimp only at h
    split at h
    · cases h
    · unfold vramLinearProjection at h
      by_cases hsize : offset > mapped.size ∨ 4 > mapped.size - offset
      · rw [if_pos hsize] at h
        cases h
      · rw [if_neg hsize] at h
        dsimp only at h
        split at h
        · cases h
        · split at h
          · cases h
          · rename_i hcontiguous
            cases h
            simp only [not_or, not_not] at hcontiguous
            obtain ⟨-, -, -, -, hfourth⟩ := hcontiguous
            exact ⟨rfl, rfl, aligned_of_contiguous hfourth, by omega⟩

theorem mapM_eq_map {α β : Type} {f : α → Option β} (g : α → β) :
    ∀ {list : List α} {values : List β}, list.mapM f = some values →
      (∀ a ∈ list, ∀ b, f a = some b → b = g a) →
        values = list.map g ∧ ∀ a ∈ list, f a = some (g a) := by
  intro list
  induction list with
  | nil =>
    intro values hvalues hall
    cases hvalues
    exact ⟨rfl, fun a hmem => absurd hmem List.not_mem_nil⟩
  | cons first rest ih =>
    intro values hvalues hall
    rw [List.mapM_cons] at hvalues
    obtain ⟨value, hvalue, hrest⟩ := Option.bind_eq_some_iff.mp hvalues
    obtain ⟨others, hothers, heq⟩ := Option.bind_eq_some_iff.mp hrest
    cases heq
    have hfirst := hall first List.mem_cons_self value hvalue
    obtain ⟨hmap, heach⟩ := ih hothers fun a hmem => hall a (List.mem_cons_of_mem first hmem)
    refine ⟨by rw [hmap, hfirst]; rfl, fun a hmem => ?_⟩
    obtain heq | hmem := List.mem_cons.mp hmem
    · rw [heq, hvalue, hfirst]
    · exact heach a hmem

theorem words_standsFor_projected {count backing : Nat}
    (hquiet : memory.Quiet) (hmem : mapped ∈ memory.map.regions)
    (hcovers : mapped.covers address (4 * count) = true) (hcount : 0 < count)
    (hwritable : mapped.readWrite = true) (haligned : address.toNat % 4 = 0)
    (hlinear : mapped.linear = false) (hbacking : memory.vramBacking mapped.device = some backing)
    (hwords : ∀ word < count, (mapped.offset address + 4 * word) % 4 = 0 ∧
      mapped.offset address + 4 * word + 4 ≤ mapped.size) :
    memory.StandsFor address (wordStores address count valueAt source)
      (true, ((List.range count).foldl
            (fun memory word =>
              memory.deviceWriteU32 mapped.device (mapped.offset address + 4 * word)
                (valueAt word)) memory).notifyChanges
          memory.guestWriteObserver.isSome address 4 4 source
          (if memory.guestWriteObserver.isSome then
            (List.range count).map fun word =>
              memory.readRange backing
                (vram32BitToLinearOffset (mapped.offset address + 4 * word)) 4 !=
                littleEndian 4 (valueAt word)
          else [])) := by
  have hsize := memory.vramSized mapped hmem (by rw [hbacking]; exact Option.some_ne_none backing)
  have hall := standsFor_of_range count 4 4 source (wordStore address valueAt source)
    (fun word => (backing, vram32BitToLinearOffset (mapped.offset address + 4 * word))) hquiet
    hwritable
    (fun word hword => lands_of_covers hmem hcovers (show 4 * word + 4 ≤ 4 * count by omega) rfl
      (show (address.toNat + 4 * word) % 4 = 0 by omega)
      (fun hyes => absurd hyes (by rw [hlinear]; exact Bool.false_ne_true))
      fun _ => ⟨hbacking, rfl⟩)
    (fun left right hlt hright => Or.inr (vram32BitToLinearOffset_apart
      (hwords left (hlt.trans hright)).1 (hwords right hright).1 (by omega)
      (by have := (hwords right hright).2; omega)))
    (isSome_placeAt hmem (MappedRegion.holds_of_covers (by omega) hcovers))
    (fun word changed => rfl)
  have hwrite : ∀ (words : List Nat) (storage : MemoryPlace → BitVec 8),
      words.foldl (fun memory word => memory.deviceWriteU32 mapped.device
          (mapped.offset address + 4 * word) (valueAt word)) (memory.withStorage storage) =
        words.foldl (fun memory word => memory.land (wordStore address valueAt source word,
          (backing, vram32BitToLinearOffset (mapped.offset address + 4 * word))))
          (memory.withStorage storage) := by
    intro words
    induction words with
    | nil => exact fun storage => rfl
    | cons word rest ih =>
      intro storage
      rw [List.foldl_cons, List.foldl_cons]
      unfold deviceWriteU32
      have hsame : (memory.withStorage storage).vramBacking mapped.device = some backing := hbacking
      rw [hsame]
      exact ih _
  have hfold := hwrite (List.range count) memory.storage
  rw [withStorage_self] at hfold
  rw [hfold]
  exact hall

/-- What a plan for words has found: the flags, and outside a linear region
that every word is projected. -/
theorem changedWords_spec {offset count : Nat} {newBytes : Nat → List (BitVec 8)}
    {changed : List Bool} (hcount : 0 < count)
    (h : memory.changedWords mapped offset count newBytes = some changed) :
    (mapped.linear = true ∧ changed =
      if memory.guestWriteObserver.isSome then
        (List.range count).map fun word =>
          memory.readRange mapped.device (offset + 4 * word) 4 != newBytes word
      else []) ∨
    ∃ backing, mapped.linear = false ∧ memory.vramBacking mapped.device = some backing ∧
      (∀ word < count, (offset + 4 * word) % 4 = 0 ∧ offset + 4 * word + 4 ≤ mapped.size) ∧
      changed =
        if memory.guestWriteObserver.isSome then
          (List.range count).map fun word =>
            memory.readRange backing (vram32BitToLinearOffset (offset + 4 * word)) 4 !=
              newBytes word
        else [] := by
  unfold changedWords at h
  cases hlinear : mapped.linear with
  | true =>
    rw [hlinear, if_pos rfl] at h
    cases h
    exact Or.inl ⟨rfl, rfl⟩
  | false =>
    rw [hlinear, if_neg Bool.false_ne_true] at h
    split at h
    · cases h
    · rename_i places hplaces
      cases h
      obtain ⟨hmap, heach⟩ := mapM_eq_map (fun word =>
          ((memory.vramBacking mapped.device).getD 0,
            vram32BitToLinearOffset (offset + 4 * word))) hplaces (by
        intro word hword place hplace
        obtain ⟨hbacking, hoffset, -, -⟩ := projectedWord_spec hplace
        rw [hbacking, ← hoffset]
        rfl)
      obtain ⟨hbacking, -, -, -⟩ := projectedWord_spec (heach 0 (List.mem_range.mpr hcount))
      refine Or.inr ⟨_, rfl, hbacking, fun word hword => ?_, ?_⟩
      · obtain ⟨-, -, haligned, hsize⟩ := projectedWord_spec (heach word (List.mem_range.mpr hword))
        exact ⟨haligned, hsize⟩
      · rw [hmap, zipIdx_map_range]

theorem prevalidatedLinearU32Pattern_standsFor (memory : MemoryState) (address : BitVec 32)
    (wordCount : Nat) (value : BitVec 32) (source : CodeWriteSource) :
    memory.StandsFor address (wordStores address wordCount (fun _ => value) source)
      (memory.commitPrevalidatedLinearU32Pattern address wordCount value source) := by
  unfold commitPrevalidatedLinearU32Pattern
  cases hprepared : memory.preparePrevalidatedLinearU32Pattern address wordCount value source with
  | none => exact Or.inl rfl
  | some prepared =>
    unfold preparePrevalidatedLinearU32Pattern at hprepared
    split at hprepared
    · cases hprepared
    · rename_i hguard
      simp only [not_or, not_not] at hguard
      obtain ⟨hzero, -, haligned, hadmits⟩ := hguard
      have hcount : 0 < wordCount := Nat.pos_of_ne_zero hzero
      split at hprepared
      · cases hprepared
      · rename_i mapped hmapped
        obtain ⟨hmem, hcovers, hwritable, -, -⟩ := prevalidatedWritableRegion_spec hmapped
        rw [Nat.mul_comm] at hcovers
        split at hprepared
        · cases hprepared
        · rename_i changed hchanged
          cases hprepared
          unfold commitPreparedLinearU32Pattern
          dsimp only
          obtain ⟨hlinear, rfl⟩ | ⟨backing, hlinear, hbacking, hwords, rfl⟩ :=
            changedWords_spec hcount hchanged
          · have hchunks := foldl_storeBytes_chunks memory mapped.device (mapped.offset address) 4
              (fun _ => littleEndian 4 value) wordCount fun _ _ => length_littleEndian _
            simp only [hlinear, if_true]
            rw [hchunks]
            exact words_standsFor_linear (quiet_of_admits hadmits) hmem hcovers hcount hwritable
              haligned hlinear
          · simp only [hlinear, Bool.false_eq_true, if_false]
            exact words_standsFor_projected (quiet_of_admits hadmits) hmem hcovers hcount hwritable
              haligned hlinear hbacking hwords

/-! ## A copy -/

/-- The word of a row of bytes. -/
def copiedWord (bytes : List (BitVec 8)) (word : Nat) : BitVec 32 :=
  assemble 32 0 (wordBytes bytes word)

theorem littleEndian_copiedWord {bytes : List (BitVec 8)} {count word : Nat}
    (hlength : bytes.length = 4 * count) (hword : word < count) :
    littleEndian 4 (copiedWord bytes word) = wordBytes bytes word := by
  refine littleEndian_assemble rfl _ ?_
  unfold wordBytes
  rw [List.length_take, List.length_drop]
  omega

theorem flatMap_wordBytes (count : Nat) : ∀ bytes : List (BitVec 8), bytes.length = 4 * count →
      (List.range count).flatMap (wordBytes bytes) = bytes := by
  induction count with
  | zero =>
    intro bytes hlength
    rw [List.length_eq_zero_iff.mp hlength]
    rfl
  | succ count ih =>
    intro bytes hlength
    have hrest := ih (bytes.drop 4) (by rw [List.length_drop]; omega)
    rw [List.range_succ_eq_map, List.flatMap_cons, List.flatMap_map]
    have hshift : (fun word => wordBytes bytes word.succ) = wordBytes (bytes.drop 4) := by
      funext word
      unfold wordBytes
      rw [List.drop_drop, Nat.mul_succ, Nat.add_comm]
    rw [hshift, hrest]
    exact List.take_append_drop 4 bytes

theorem prevalidatedLinearU32Copy_standsFor (memory : MemoryState) (address : BitVec 32)
    (bytes : List (BitVec 8)) (source : CodeWriteSource) : memory.StandsFor address
      (wordStores address (bytes.length / 4) (copiedWord bytes) source)
      (memory.commitPrevalidatedLinearU32Copy address bytes source) := by
  unfold commitPrevalidatedLinearU32Copy
  cases hprepared : memory.preparePrevalidatedLinearU32Copy address bytes source with
  | none => exact Or.inl rfl
  | some prepared =>
    unfold preparePrevalidatedLinearU32Copy at hprepared
    split at hprepared
    · cases hprepared
    · rename_i hguard
      simp only [not_or, not_not] at hguard
      obtain ⟨hempty, hwhole, haligned, hadmits⟩ := hguard
      have hpositive : 0 < bytes.length := List.length_pos_iff.mpr hempty
      have hlength : bytes.length = 4 * (bytes.length / 4) := by omega
      have hcount : 0 < bytes.length / 4 := by omega
      split at hprepared
      · cases hprepared
      · rename_i mapped hmapped
        obtain ⟨hmem, hcovers, hwritable, -, -⟩ := prevalidatedWritableRegion_spec hmapped
        rw [hlength] at hcovers
        split at hprepared
        · cases hprepared
        · rename_i changed hchanged
          cases hprepared
          unfold commitPreparedLinearU32Copy
          dsimp only
          have hword (word : Nat) (hin : word ∈ List.range (bytes.length / 4)) :
              wordBytes bytes word = littleEndian 4 (copiedWord bytes word) :=
            (littleEndian_copiedWord hlength (List.mem_range.mp hin)).symm
          have hflags (old : Nat → List (BitVec 8)) :
              (List.range (bytes.length / 4)).map (fun word => old word != wordBytes bytes word) =
                (List.range (bytes.length / 4)).map fun word =>
                  old word != littleEndian 4 (copiedWord bytes word) :=
            List.map_congr_left fun word hin => by rw [hword word hin]
          have hrow : (List.range (bytes.length / 4)).flatMap
              (fun word => littleEndian 4 (copiedWord bytes word)) = bytes :=
            (List.flatMap_congr fun word hin => (hword word hin).symm).trans
              (flatMap_wordBytes _ bytes hlength)
          obtain ⟨hlinear, rfl⟩ | ⟨backing, hlinear, hbacking, hwords, rfl⟩ :=
            changedWords_spec hcount hchanged
          · rw [hflags]
            simp only [hlinear, if_true]
            have hall : memory.StandsFor address
                (wordStores address (bytes.length / 4) (copiedWord bytes) source) _ :=
              words_standsFor_linear (quiet_of_admits hadmits) hmem hcovers hcount hwritable
                haligned hlinear
            rw [hrow] at hall
            exact hall
          · rw [hflags]
            simp only [hlinear, Bool.false_eq_true, if_false]
            exact words_standsFor_projected (quiet_of_admits hadmits) hmem hcovers hcount hwritable
              haligned hlinear hbacking hwords

/-! ## One word rewritten -/

def repeatedStore (address : BitVec 32) (firstValue step : BitVec 32) (source : CodeWriteSource)
    (word : Nat) : ScalarStore where
  address := address
  width := .word
  value := firstValue + BitVec.ofNat 32 word * step
  source := source

/-- The loop of `write_u32` calls at one address. -/
def repeatedStores (address : BitVec 32) (count : Nat) (firstValue step : BitVec 32)
    (source : CodeWriteSource) : List ScalarStore :=
  (List.range count).map (repeatedStore address firstValue step source)

theorem sequence_succ (firstValue step : BitVec 32) (word : Nat) :
    firstValue + BitVec.ofNat 32 (word + 1) * step =
      firstValue + step + BitVec.ofNat 32 word * step := by
  rw [BitVec.ofNat_add, BitVec.add_mul, BitVec.add_assoc,
    BitVec.add_comm (BitVec.ofNat 32 word * step)]
  simp

theorem sequence_zero (firstValue step : BitVec 32) :
    firstValue + BitVec.ofNat 32 0 * step = firstValue := by simp

theorem repeatedStore_succ (firstValue step : BitVec 32) (source : CodeWriteSource) (word : Nat) :
    repeatedStore address firstValue step source (word + 1) =
      repeatedStore address (firstValue + step) step source word := by
  unfold repeatedStore
  rw [sequence_succ]

theorem readRange_storeBytes (memory : MemoryState) (device offset : Nat)
    (bytes : List (BitVec 8)) :
    (memory.storeBytes device offset bytes).readRange device offset bytes.length = bytes := by
  refine List.ext_getElem (length_readRange device offset bytes.length) ?_
  intro index hleft hright
  rw [getElem_readRange, storeBytes_storage, if_pos (Nat.le_add_right offset index),
    Nat.add_sub_cancel_left, List.getElem?_eq_getElem hright]
  rfl

/-- Only the last of two rows of one length at one place stays. -/
theorem storeBytes_overwrite (memory : MemoryState) (device offset : Nat)
    {first second : List (BitVec 8)} (hlength : first.length = second.length) :
    (memory.storeBytes device offset first).storeBytes device offset second =
      memory.storeBytes device offset second := by
  have hstorage : ((memory.storeBytes device offset first).storeBytes device offset
      second).storage = (memory.storeBytes device offset second).storage := by
    funext place
    obtain ⟨other, position⟩ := place
    by_cases hdevice : other = device
    · subst hdevice
      rw [storeBytes_storage, storeBytes_storage, storeBytes_storage]
      split
      · obtain hinside | hbehind := Nat.lt_or_ge (position - offset) second.length
        · rw [List.getElem?_eq_getElem hinside]
          rfl
        · rw [List.getElem?_eq_none hbehind, List.getElem?_eq_none (by omega)]
          rfl
      · rfl
    · rw [storeBytes_storage_other hdevice, storeBytes_storage_other hdevice,
        storeBytes_storage_other hdevice]
  unfold storeBytes at hstorage ⊢
  exact congrArg memory.withStorage hstorage

theorem landAll_repeated (firstValue step : BitVec 32) (source : CodeWriteSource)
    (device offset count : Nat) : memory.landAll ((List.range (count + 1)).map fun word =>
        (repeatedStore address firstValue step source word, (device, offset))) =
      memory.storeBytes device offset
        (littleEndian 4 (firstValue + BitVec.ofNat 32 count * step)) := by
  induction count with
  | zero => rfl
  | succ count ih =>
    rw [List.range_succ, List.map_append, landAll, List.foldl_append]
    change (memory.landAll _).land _ = _
    rw [ih]
    exact storeBytes_overwrite memory device offset (by rw [length_littleEndian]; rfl)

theorem exactEvents_repeated (step : BitVec 32) (source : CodeWriteSource)
    (device offset count : Nat) : ∀ (memory : MemoryState) (firstValue finalValue : BitVec 32),
      exactEvents memory ((List.range count).map fun word =>
          (repeatedStore address firstValue step source word, (device, offset))) =
        (repeatedChanges step count (assemble 32 0 (memory.readRange device offset 4)) firstValue
          finalValue).1.map fun changed =>
            { address := address, size := 4, source := source, bytesChanged := changed } := by
  induction count with
  | zero => exact fun memory firstValue finalValue => rfl
  | succ count ih =>
    intro memory firstValue finalValue
    rw [List.range_succ_eq_map, List.map_cons, List.map_map, exactEvents, repeatedChanges,
      List.map_cons]
    have hfirst : memory.changedBy
        (repeatedStore address firstValue step source 0, (device, offset)) =
        (assemble 32 0 (memory.readRange device offset 4) != firstValue) := by
      rw [changedBy_eq_assemble]
      show (assemble 32 0 (memory.readRange device offset 4) !=
        firstValue + BitVec.ofNat 32 0 * step) = _
      rw [sequence_zero]
    have hland : memory.land (repeatedStore address firstValue step source 0, (device, offset)) =
        memory.storeBytes device offset (littleEndian 4 firstValue) := by
      show memory.storeBytes device offset
        (littleEndian 4 (firstValue + BitVec.ofNat 32 0 * step)) = _
      rw [sequence_zero]
    have hread : assemble 32 0 ((memory.storeBytes device offset
        (littleEndian 4 firstValue)).readRange device offset 4) = firstValue := by
      have hrange := readRange_storeBytes memory device offset (littleEndian 4 firstValue)
      rw [length_littleEndian] at hrange
      rw [hrange]
      exact @assemble_littleEndian 4 32 rfl firstValue
    have hrest := ih (memory.storeBytes device offset (littleEndian 4 firstValue))
      (firstValue + step) firstValue
    rw [hread] at hrest
    rw [hfirst, hland, ← hrest]
    refine congrArg₂ List.cons rfl (congrArg _ (List.map_congr_left fun word hword => ?_))
    exact congrArg (·, (device, offset)) (repeatedStore_succ firstValue step source word)

theorem repeatedChanges_final (step : BitVec 32) (count : Nat) :
    ∀ previous firstValue finalValue : BitVec 32,
      (repeatedChanges step (count + 1) previous firstValue finalValue).2 =
        firstValue + BitVec.ofNat 32 count * step := by
  induction count with
  | zero =>
    intro previous firstValue finalValue
    simp [repeatedChanges]
  | succ count ih =>
    intro previous firstValue finalValue
    rw [repeatedChanges]
    dsimp only
    rw [ih]
    exact (sequence_succ firstValue step count).symm

/-- The closed form of the last value. -/
theorem sequence_closed (firstValue step : BitVec 32) (count : Nat) :
    firstValue + BitVec.ofNat 32 (count * step.toNat) =
      firstValue + BitVec.ofNat 32 count * step := by
  rw [BitVec.ofNat_mul, BitVec.ofNat_toNat, BitVec.setWidth_eq]

theorem zipIdx_map_fst {α β : Type} (list : List α) (build : α → β) :
    list.zipIdx.map (fun entry => build entry.1) = list.map build := by
  refine List.ext_getElem (by simp) fun index hleft hright => ?_
  simp

theorem prevalidatedRepeatedU32Sequence_standsFor (memory : MemoryState) (address : BitVec 32)
    (wordCount : Nat) (firstValue step : BitVec 32) (source : CodeWriteSource) :
    memory.StandsFor address (repeatedStores address wordCount firstValue step source)
        (memory.commitPrevalidatedRepeatedU32Sequence address wordCount firstValue step source) ∧
      ((memory.commitPrevalidatedRepeatedU32Sequence address wordCount firstValue step source).1 =
        true → (memory.placeAt address).isSome = true) := by
  unfold commitPrevalidatedRepeatedU32Sequence
  cases hprepared : memory.preparePrevalidatedRepeatedU32Sequence address wordCount firstValue step
      source with
  | none => exact ⟨Or.inl rfl, fun hplan => by cases hplan⟩
  | some prepared =>
    unfold preparePrevalidatedRepeatedU32Sequence at hprepared
    split at hprepared
    · cases hprepared
    · rename_i hguard
      simp only [not_or, not_not] at hguard
      obtain ⟨hzero, haligned, hadmits⟩ := hguard
      obtain ⟨count, rfl⟩ := Nat.exists_eq_succ_of_ne_zero hzero
      split at hprepared
      · cases hprepared
      · rename_i mapped hmapped
        obtain ⟨hmem, hcovers, hwritable, -, -⟩ := prevalidatedWritableRegion_spec hmapped
        split at hprepared
        · cases hprepared
        · rename_i hlinear
          have hlinear := Bool.eq_true_of_not_eq_false hlinear
          cases hprepared
          have hlands : ∀ landing ∈ (List.range (count + 1)).map fun word =>
              (repeatedStore address firstValue step source word,
                (mapped.device, mapped.offset address)), memory.Lands mapped landing := by
            intro landing hlanding
            obtain ⟨word, -, rfl⟩ := List.mem_map.mp hlanding
            exact lands_of_covers hmem hcovers (show 0 + 4 ≤ 4 by omega)
              (BitVec.add_zero address).symm (show (address.toNat + 0) % 4 = 0 from haligned)
              (fun _ => rfl) fun hnot => absurd hnot (by rw [hlinear]; exact Bool.true_eq_false.mp)
          have hplace := isSome_placeAt hmem (MappedRegion.holds_of_covers (by decide) hcovers)
          have hall := standsFor_of_landings (quiet_of_admits hadmits) hwritable hlands hplace
          rw [List.map_map] at hall
          refine ⟨Eq.mp (congrArg (fun next => memory.StandsFor address _ (true, next)) ?_) hall,
            fun _ => hplace.trans hlinear⟩
          have hnotified (finalValue : BitVec 32) (changed : List Bool) := notifyChanges_eq_hear
            (memory.storeBytes mapped.device (mapped.offset address) (littleEndian 4 finalValue))
            address 0 4 source changed
          simp only [Nat.zero_mul, BitVec.add_zero, zipIdx_map_fst] at hnotified
          rw [landAll_repeated, exactEvents_repeated step source _ _ _ memory firstValue firstValue]
          unfold commitPreparedRepeatedU32Sequence
          dsimp only
          by_cases hobserver : memory.guestWriteObserver.isSome = true
          · simp only [if_pos hobserver]
            rw [repeatedChanges_final]
            exact (hnotified _ _).symm
          · simp only [if_neg hobserver]
            rw [Nat.succ_sub_one, sequence_closed]
            refine Eq.trans (hear_congr fun h => absurd h hobserver) (hnotified _ []).symm

/-! ## All bulk writes -/

/-- Every bulk write stands for its loop, and ends as the loop does exactly where it has
no plan or the flags agree. Outside a linear region only the pattern and the copy have
a plan. -/
theorem prevalidatedWrites_standFor (memory : MemoryState) (address : BitVec 32) :
    (∀ size value source,
      memory.Compared address (fillStores address size value source)
          (memory.commitPrevalidatedLinearFill address size value source) ∧
        ((memory.commitPrevalidatedLinearFill address size value source).1 = true →
          (memory.placeAt address).isSome = true)) ∧
    (∀ wordCount value source,
      memory.Compared address (wordStores address wordCount (fun _ => value) source)
        (memory.commitPrevalidatedLinearU32Pattern address wordCount value source)) ∧
    (∀ bytes source,
      memory.Compared address (wordStores address (bytes.length / 4) (copiedWord bytes) source)
        (memory.commitPrevalidatedLinearU32Copy address bytes source)) ∧
    ∀ wordCount firstValue step source,
      memory.Compared address (repeatedStores address wordCount firstValue step source)
          (memory.commitPrevalidatedRepeatedU32Sequence address wordCount firstValue step source) ∧
        ((memory.commitPrevalidatedRepeatedU32Sequence address wordCount firstValue step
          source).1 = true → (memory.placeAt address).isSome = true) :=
  ⟨fun size value source =>
      (memory.prevalidatedLinearFill_standsFor address size value source).imp_left StandsFor.compared,
    fun wordCount value source =>
      (memory.prevalidatedLinearU32Pattern_standsFor address wordCount value source).compared,
    fun bytes source => (memory.prevalidatedLinearU32Copy_standsFor address bytes source).compared,
    fun wordCount firstValue step source =>
      (memory.prevalidatedRepeatedU32Sequence_standsFor address wordCount firstValue step
        source).imp_left StandsFor.compared⟩

/-- The 32-bit aperture of an empty VRAM, with an observer. -/
def vramAperture : NamedRegion where
  baseAddress := 0x05000000
  size := dreamcastVramSize
  device := 1
  linear := false
  name := "dreamcast-vram-32bit"

def vramMap : MemoryMap where
  regions := [vramAperture]
  regionPageIndex := PageIndex.rebuild [vramAperture.pages]

theorem vramMap_wellMapped : vramMap.WellMapped where
  sorted := List.pairwise_singleton _ _
  occupied := fun mapped hmem => by
    rw [List.mem_singleton.mp hmem]
    decide
  indexed := rfl

def vramMemory : MemoryState where
  map := vramMap
  wellMapped := vramMap_wellMapped
  storage := fun _ => 0
  vramBacking := fun device => if device = 1 then some 0 else none
  vramSized := fun mapped hmem _ => by
    rw [List.mem_singleton.mp hmem]
    rfl
  guestWriteObserver := some .stableForPrevalidatedLinearWrites

/-- A zero over a zero is no change for the pattern and a change for `write_u32`. -/
theorem vramPattern_events :
    ¬ ∀ (memory : MemoryState) (address : BitVec 32) (wordCount : Nat) (value : BitVec 32)
        (source : CodeWriteSource),
      (memory.commitPrevalidatedLinearU32Pattern address wordCount value source).1 = true →
        (writeScalars (wordStores address wordCount (fun _ => value) source) memory).map
            (·.delivered) = .ok (memory.commitPrevalidatedLinearU32Pattern address wordCount value
            source).2.delivered := by
  intro h
  have hplan : (vramMemory.commitPrevalidatedLinearU32Pattern 0x05000000 1 0 .cpu).1 = true := by
    decide +kernel
  have hbulk : (vramMemory.commitPrevalidatedLinearU32Pattern 0x05000000 1 0 .cpu).2.delivered =
      [.guestWrite { address := 0x05000000, size := 4, source := .cpu, bytesChanged := false }] := by
    decide +kernel
  have hloop : ((writeScalars (wordStores 0x05000000 1 (fun _ => 0) .cpu) vramMemory).map
      (·.delivered)).toOption = some [.guestWrite
        { address := 0x05000000, size := 4, source := .cpu, bytesChanged := true }] := by
    decide +kernel
  have hsame := congrArg Except.toOption (h vramMemory 0x05000000 1 0 .cpu hplan)
  rw [hbulk, hloop] at hsame
  revert hsame
  decide

end MemoryState
end KatanaRecomp.Runtime
