import KatanaRecomp.Runtime.Cpu

/-! # Guest memory

`Memory` maps regions of the address space to devices; several regions may show
one device. The bytes of the linear devices are the guest's memory. A read of a
device that is not linear is left to the device and has no answer here; the
observers of accesses are left out. -/
namespace KatanaRecomp.Runtime

inductive MemoryLookupMode
  | indexed | referenceScan
  deriving DecidableEq

/-- A region shows its whole device. -/
structure MappedRegion where
  baseAddress : BitVec 32
  size : Nat
  readWrite : Bool := true
  device : Nat
  linear : Bool := true
  deriving DecidableEq

namespace MappedRegion
variable (mapped : MappedRegion)

def regionEnd : Nat := mapped.baseAddress.toNat + mapped.size

def covers (address : BitVec 32) (width : Nat) : Bool :=
  decide (mapped.baseAddress.toNat ≤ address.toNat) &&
    decide (address.toNat + width ≤ mapped.regionEnd)

/-- `region_offset`. -/
def offset (address : BitVec 32) : Nat := address.toNat - mapped.baseAddress.toNat

/-- The region lies on the page of the region index. -/
def touches (page : Nat) : Bool :=
  decide (mapped.baseAddress.toNat / 2 ^ 16 ≤ page) && decide (page ≤ (mapped.regionEnd - 1) / 2 ^ 16)

end MappedRegion

/-- `map_region` keeps the regions apart and in the address space. -/
structure Memory where
  regions : List MappedRegion := []
  lookupMode : MemoryLookupMode := .indexed
  /-- The bytes of each device. -/
  storage : Nat → Nat → BitVec 8 := fun _ _ => 0
  apart : regions.Pairwise fun left right =>
    left.regionEnd ≤ right.baseAddress.toNat ∨ right.regionEnd ≤ left.baseAddress.toNat := by decide

namespace Memory
variable (memory : Memory)

/-- The page index names a region where a single one lies on the page. -/
def indexedRegion (address : BitVec 32) (width : Nat) : Option MappedRegion :=
  if memory.lookupMode ≠ .indexed ∨ width = 0 ∨ address.toNat + width > 2 ^ 32 then none
  else
    match memory.regions.filter (·.touches (address.toNat / 2 ^ 16)) with
    | [mapped] => if mapped.covers address width then some mapped else none
    | _ => none

/-- The index, and the scan of the regions behind it. -/
def regionAt (address : BitVec 32) (width : Nat) : Option MappedRegion :=
  (memory.indexedRegion address width).or (memory.regions.find? (·.covers address width))

def contains (address : BitVec 32) (width : Nat) : Bool :=
  decide (width ≠ 0) && decide (address.toNat + width ≤ 2 ^ 32) &&
    (memory.regionAt address width).isSome

def isWritableLinearRange (address : BitVec 32) (width : Nat) : Bool :=
  decide (width ≠ 0) && decide (address.toNat + width ≤ 2 ^ 32) &&
    (memory.regionAt address width).any fun mapped => mapped.readWrite && mapped.linear

def isReadableLinearRange (address : BitVec 32) (width : Nat) : Bool :=
  decide (width ≠ 0) && decide (address.toNat + width ≤ 2 ^ 32) &&
    (memory.regionAt address width).any (·.linear)

def readU8 (address : BitVec 32) : Except Fault (BitVec 8) :=
  match memory.regionAt address 1 with
  | none => .error (.memory ⟨.read, .unmapped, address⟩)
  | some mapped =>
    if mapped.linear then .ok (memory.storage mapped.device (mapped.offset address))
    else .error (.memory ⟨.read, .deviceRejected, address⟩)

/-- `size` reads in a row. -/
def readBytes (address : BitVec 32) (size : Nat) : Except Fault (List (BitVec 8)) :=
  (List.range size).mapM fun index => memory.readU8 (address + BitVec.ofNat 32 index)

/-- The bytes from `offset` on in a device. -/
def store (device offset : Nat) (bytes : List (BitVec 8)) : Memory :=
  { memory with
    storage := fun other at_ =>
      if other = device ∧ offset ≤ at_ then (bytes[at_ - offset]?).getD (memory.storage other at_)
      else memory.storage other at_ }

/-- `none` where the source returns `false`. -/
def commitPrevalidatedLinearTransactionBytes (address : BitVec 32) (bytes : List (BitVec 8))
    (changedBytes : List Bool) : Option Memory :=
  if bytes.isEmpty ∨ changedBytes.length ≠ bytes.length then none
  else
    (memory.indexedRegion address bytes.length).bind fun mapped =>
      if mapped.readWrite && mapped.linear then
        some (memory.store mapped.device (mapped.offset address) bytes)
      else none

/-! ## Cells -/

/-- The place of a byte in its device. -/
def cell (address : BitVec 32) : Option (Nat × Nat) :=
  (memory.regionAt address 1).bind fun mapped =>
    if mapped.linear then some (mapped.device, mapped.offset address) else none

variable {address : BitVec 32} {memory} {memory' : Memory}

theorem readU8_of_cell {device offset : Nat} (h : memory.cell address = some (device, offset)) :
    memory.readU8 address = .ok (memory.storage device offset) := by
  unfold cell at h
  unfold readU8
  cases hmapped : memory.regionAt address 1 with
  | none =>
    rw [hmapped] at h
    cases h
  | some mapped =>
    rw [hmapped, Option.bind_some] at h
    split at h
    · rename_i hlinear
      cases h
      simp only [hlinear, if_true]
    · cases h

variable {width : Nat} {mapped : MappedRegion}

theorem indexedRegion_spec (h : memory.indexedRegion address width = some mapped) :
    mapped ∈ memory.regions ∧ mapped.covers address width = true := by
  unfold indexedRegion at h
  split at h
  · cases h
  · split at h
    · rename_i mapped' hfilter
      split at h
      · rename_i hcovers
        cases h
        have hmem : mapped ∈ memory.regions.filter (·.touches (address.toNat / 2 ^ 16)) := by
          rw [hfilter]
          exact List.mem_singleton_self _
        exact ⟨List.mem_of_mem_filter hmem, hcovers⟩
      · cases h
    · cases h

theorem regionAt_spec (h : memory.regionAt address width = some mapped) :
    mapped ∈ memory.regions ∧ mapped.covers address width = true := by
  unfold regionAt at h
  rcases Option.or_eq_some_iff.mp h with hindexed | ⟨-, hfound⟩
  · exact indexedRegion_spec hindexed
  · have hcovers := List.find?_some hfound
    exact ⟨List.mem_of_find?_eq_some hfound, hcovers⟩

/-- A byte lies in one region at most. -/
theorem region_unique {left right : MappedRegion}
    (hleft : left ∈ memory.regions) (hright : right ∈ memory.regions)
    (hcovers : left.covers address 1 = true) (hcovers' : right.covers address 1 = true) :
    left = right := by
  by_contra hne
  have hsymm : Std.Symm fun left right : MappedRegion =>
      left.regionEnd ≤ right.baseAddress.toNat ∨ right.regionEnd ≤ left.baseAddress.toNat :=
    ⟨fun _ _ h => h.symm⟩
  have hapart := memory.apart.forall hleft hright hne
  simp only [MappedRegion.covers, Bool.and_eq_true, decide_eq_true_eq] at hcovers hcovers'
  omega

variable {index : Nat}

theorem covers_byte (h : mapped.covers address width = true) (hindex : index < width)
    (hspace : address.toNat + width ≤ 2 ^ 32) :
    mapped.covers (address + BitVec.ofNat 32 index) 1 = true ∧
      mapped.offset (address + BitVec.ofNat 32 index) = mapped.offset address + index := by
  have hsum : (address + BitVec.ofNat 32 index).toNat = address.toNat + index := by
    rw [BitVec.toNat_add, BitVec.toNat_ofNat, Nat.mod_eq_of_lt (by omega : index < 2 ^ 32),
      Nat.mod_eq_of_lt (by omega)]
  simp only [MappedRegion.covers, MappedRegion.offset, hsum, Bool.and_eq_true,
    decide_eq_true_eq] at h ⊢
  omega

/-- The bytes of a range that one region covers. -/
theorem regionAt_byte (hmem : mapped ∈ memory.regions)
    (hcovers : mapped.covers address width = true) (hindex : index < width)
    (hspace : address.toNat + width ≤ 2 ^ 32) :
    memory.regionAt (address + BitVec.ofNat 32 index) 1 = some mapped := by
  obtain ⟨hbyte, -⟩ := covers_byte hcovers hindex hspace
  obtain ⟨found, hfound⟩ : ∃ found, memory.regionAt (address + BitVec.ofNat 32 index) 1 =
      some found := by
    unfold regionAt
    cases memory.indexedRegion (address + BitVec.ofNat 32 index) 1 with
    | some found => exact ⟨found, rfl⟩
    | none =>
      rw [Option.none_or, ← Option.isSome_iff_exists, List.find?_isSome]
      exact ⟨mapped, hmem, hbyte⟩
  obtain ⟨hfoundMem, hfoundCovers⟩ := regionAt_spec hfound
  rw [hfound, region_unique hfoundMem hmem hfoundCovers hbyte]

theorem cell_byte (hmem : mapped ∈ memory.regions)
    (hcovers : mapped.covers address width = true) (hlinear : mapped.linear = true)
    (hindex : index < width) (hspace : address.toNat + width ≤ 2 ^ 32) :
    memory.cell (address + BitVec.ofNat 32 index) =
      some (mapped.device, mapped.offset address + index) := by
  rw [cell, regionAt_byte hmem hcovers hindex hspace, Option.bind_some, if_pos hlinear,
    (covers_byte hcovers hindex hspace).2]

/-- A commit only changes bytes of devices. -/
structure SameMap (memory memory' : Memory) : Prop where
  regions : memory'.regions = memory.regions
  lookupMode : memory'.lookupMode = memory.lookupMode

theorem SameMap.cell (h : SameMap memory memory')
    (address : BitVec 32) : memory'.cell address = memory.cell address := by
  simp only [Memory.cell, regionAt, indexedRegion, h.regions, h.lookupMode]

theorem SameMap.trans {memory memory' memory'' : Memory} (h : SameMap memory memory')
    (h' : SameMap memory' memory'') : SameMap memory memory'' :=
  ⟨h'.regions.trans h.regions, h'.lookupMode.trans h.lookupMode⟩

/-- What a commit writes, and that it can be made again with other bytes. -/
theorem commit_spec {bytes : List (BitVec 8)} {mask : List Bool}
    (h : memory.commitPrevalidatedLinearTransactionBytes address bytes mask = some memory') :
    ∃ device offset, memory' = memory.store device offset bytes ∧
      (∀ index < bytes.length, address.toNat + bytes.length ≤ 2 ^ 32 →
        memory.cell (address + BitVec.ofNat 32 index) = some (device, offset + index)) ∧
      ∀ later bytes', SameMap memory later → bytes'.length = bytes.length →
        later.commitPrevalidatedLinearTransactionBytes address bytes' mask =
          some (later.store device offset bytes') := by
  unfold commitPrevalidatedLinearTransactionBytes at h
  split at h
  · cases h
  · rename_i hchecks
    obtain ⟨mapped, hmapped, hstore⟩ := Option.bind_eq_some_iff.mp h
    split at hstore
    · rename_i haccess
      cases hstore
      obtain ⟨hmem, hcovers⟩ := indexedRegion_spec hmapped
      refine ⟨mapped.device, mapped.offset address, rfl, ?_, ?_⟩
      · intro index hindex hspace
        rw [Bool.and_eq_true] at haccess
        exact cell_byte hmem hcovers haccess.2 hindex hspace
      · intro later bytes' hmap hlength
        have hchecks' : ¬ (bytes'.isEmpty ∨ mask.length ≠ bytes'.length) := by
          rw [List.isEmpty_iff_length_eq_zero] at hchecks ⊢
          rw [hlength]
          exact hchecks
        have hmapped' : later.indexedRegion address bytes'.length = some mapped := by
          rw [← hmapped, hlength]
          simp only [indexedRegion, hmap.regions, hmap.lookupMode]
        rw [commitPrevalidatedLinearTransactionBytes, if_neg hchecks', hmapped', Option.bind_some,
          if_pos haccess]
    · cases hstore

end Memory
end KatanaRecomp.Runtime
