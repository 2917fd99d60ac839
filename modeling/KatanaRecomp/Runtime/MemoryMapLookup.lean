import KatanaRecomp.Runtime.MemoryMap

/-! # The page index and the scan give one answer

The regions of a map lie side by side in the order of their bases, so at most
one of them holds an address. A region that the page index names is in the list
and holds the range, hence the scan finds the same one; where the index names
none the lookup is the scan. -/
namespace KatanaRecomp.Runtime
open Lib

/-- The regions share no address. -/
def MappedRegion.Apart (left right : MappedRegion) : Prop :=
  left.regionEnd ≤ right.baseAddress.toNat ∨ right.regionEnd ≤ left.baseAddress.toNat

def MappedRegion.Holds (mapped : MappedRegion) (address : BitVec 32) : Prop :=
  mapped.baseAddress.toNat ≤ address.toNat ∧ address.toNat < mapped.regionEnd

/-- The left region ends before the right one begins. -/
def MappedRegion.Before (left right : MappedRegion) : Prop :=
  left.baseAddress.toNat < right.baseAddress.toNat ∧ left.regionEnd ≤ right.baseAddress.toNat

variable {left right : MappedRegion}

theorem MappedRegion.Apart.symm (h : left.Apart right) :
    right.Apart left := h.elim Or.inr Or.inl

variable {address : BitVec 32} {mapped : MappedRegion}

theorem MappedRegion.covers_iff {width : Nat} :
    mapped.covers address width = true ↔
      mapped.baseAddress.toNat ≤ address.toNat ∧ address.toNat + width ≤ mapped.regionEnd := by
  simp only [MappedRegion.covers, Bool.and_eq_true, decide_eq_true_eq]

theorem MappedRegion.holds_of_covers {width : Nat}
    (hwidth : width ≠ 0) (hcovers : mapped.covers address width = true) : mapped.Holds address := by
  obtain ⟨hbase, hend⟩ := MappedRegion.covers_iff.mp hcovers
  exact ⟨hbase, by omega⟩

theorem MappedRegion.Apart.not_holds
    (happart : left.Apart right) (hleft : left.Holds address) : ¬ right.Holds address := by
  intro hright
  obtain ⟨hleftBase, hleftEnd⟩ := hleft
  obtain ⟨hrightBase, hrightEnd⟩ := hright
  obtain hbefore | hbehind := happart
  · omega
  · omega

namespace MemoryMap

/-- What `map_region` keeps: the regions are sorted and disjoint, none is empty
or leaves the address space, and the page index is the one built from them. -/
structure WellMapped (map : MemoryMap) : Prop where
  sorted : map.regions.Pairwise fun left right => left.Before right.toMappedRegion
  occupied : ∀ mapped ∈ map.regions, 0 < mapped.size ∧ mapped.regionEnd ≤ 2 ^ 32
  indexed : map.regionPageIndex = PageIndex.rebuild (map.regions.map fun mapped => mapped.pages)

variable {map : MemoryMap} {address : BitVec 32} {width : Nat} {mapped : NamedRegion}

/-! ## Mapping a region -/

theorem wellMapped_empty (policy : MemoryAlignmentPolicy) (mode : MemoryLookupMode) :
    WellMapped { alignmentPolicy := policy, lookupMode := mode } where
  sorted := List.Pairwise.nil
  occupied := fun _ hmem => absurd hmem List.not_mem_nil
  indexed := rfl

theorem WellMapped.setLookupMode (hmap : map.WellMapped) (mode : MemoryLookupMode) :
    (map.setLookupMode mode).WellMapped := ⟨hmap.sorted, hmap.occupied, hmap.indexed⟩

theorem WellMapped.apart (hmap : map.WellMapped) :
    map.regions.Pairwise fun left right => left.Apart right.toMappedRegion :=
  hmap.sorted.imp fun hbefore => Or.inl hbefore.2

theorem apart_of_not_overlaps (region : NamedRegion) (hfree : map.overlapsRegion region = false)
    (hmem : mapped ∈ map.regions) : mapped.Apart region.toMappedRegion := by
  have hfree := List.any_eq_false.mp hfree mapped hmem
  rw [Bool.and_eq_true, decide_eq_true_iff, decide_eq_true_iff] at hfree
  by_cases hstart : region.baseAddress.toNat < mapped.regionEnd
  · exact Or.inr (Nat.not_lt.mp fun hbase => hfree ⟨hstart, hbase⟩)
  · exact Or.inl (Nat.not_lt.mp hstart)

theorem before_of_apart
    (hle : left.baseAddress.toNat ≤ right.baseAddress.toNat) (happart : left.Apart right)
    (hleft : 0 < left.size) (hright : 0 < right.size) : left.Before right := by
  have hleftEnd : left.regionEnd = left.baseAddress.toNat + left.size := rfl
  have hrightEnd : right.regionEnd = right.baseAddress.toNat + right.size := rfl
  obtain hbefore | hbehind := happart
  · exact ⟨by omega, hbefore⟩
  · omega

theorem WellMapped.insertRegion (hmap : map.WellMapped) (region : NamedRegion)
    (hsize : 0 < region.size) (hend : region.regionEnd ≤ 2 ^ 32)
    (hfree : map.overlapsRegion region = false) : (map.insertRegion region).WellMapped := by
  have hperm := List.mergeSort_perm (map.regions ++ [region]) fun left right =>
    decide (left.baseAddress.toNat ≤ right.baseAddress.toNat)
  have hoccupied : ∀ mapped ∈ map.regions ++ [region], 0 < mapped.size ∧
      mapped.regionEnd ≤ 2 ^ 32 := by
    intro mapped hmem
    obtain hold | hnew := List.mem_append.mp hmem
    · exact hmap.occupied mapped hold
    · rw [List.mem_singleton.mp hnew]
      exact ⟨hsize, hend⟩
  have happart : (map.regions ++ [region]).Pairwise fun left right =>
      left.Apart right.toMappedRegion := by
    refine List.pairwise_append.mpr ⟨hmap.apart, List.pairwise_singleton _ _, ?_⟩
    intro mapped hmem other hother
    rw [List.mem_singleton.mp hother]
    exact apart_of_not_overlaps region hfree hmem
  have hsorted : ((map.regions ++ [region]).mergeSort fun left right =>
      decide (left.baseAddress.toNat ≤ right.baseAddress.toNat)).Pairwise fun left right =>
        decide (left.baseAddress.toNat ≤ right.baseAddress.toNat) = true := by
    refine List.pairwise_mergeSort ?_ ?_ _
    · intro first second third hfirst hsecond
      rw [decide_eq_true_iff] at *
      exact Nat.le_trans hfirst hsecond
    · intro first second
      rw [Bool.or_eq_true, decide_eq_true_iff, decide_eq_true_iff]
      exact Nat.le_total _ _
  have happart' := (hperm.pairwise_iff fun {_ _} h => MappedRegion.Apart.symm h).mpr happart
  constructor
  · refine (hsorted.and happart').imp_of_mem ?_
    intro left right hleft hright hboth
    exact before_of_apart (decide_eq_true_iff.mp hboth.1) hboth.2
      (hoccupied left (hperm.mem_iff.mp hleft)).1 (hoccupied right (hperm.mem_iff.mp hright)).1
  · intro mapped hmem
    exact hoccupied mapped (hperm.mem_iff.mp hmem)
  · rfl

variable {request : MapRequest}

theorem mapRegion_cases {next : MemoryMap} (hnext : map.mapRegion request = .ok next) :
    ∃ device, request.device = some device ∧ 0 < device.size ∧
      device.size ≤ 2 ^ 32 - request.baseAddress.toNat ∧
      map.overlapsRegion (request.region device) = false ∧
      next = map.insertRegion (request.region device) := by
  unfold mapRegion at hnext
  split at hnext
  · cases hnext
  · split at hnext
    · cases hnext
    · rename_i device hdevice
      split at hnext
      · cases hnext
      · rename_i hsize
        split at hnext
        · cases hnext
        · rename_i hspace
          split at hnext
          · cases hnext
          · rename_i hfree
            cases hnext
            exact ⟨device, hdevice, Nat.pos_of_ne_zero hsize, Nat.not_lt.mp hspace,
              Bool.eq_false_iff.mpr hfree, rfl⟩

theorem WellMapped.mapRegion (hmap : map.WellMapped) {next : MemoryMap}
    (hnext : map.mapRegion request = .ok next) : next.WellMapped := by
  obtain ⟨device, -, hsize, hspace, hfree, rfl⟩ := mapRegion_cases hnext
  refine hmap.insertRegion _ hsize ?_ hfree
  show request.baseAddress.toNat + device.size ≤ 2 ^ 32
  have hbase := request.baseAddress.isLt
  omega

theorem WellMapped.mapRegions (requests : List MapRequest) :
    ∀ map : MemoryMap, map.WellMapped → (map.mapRegions requests).WellMapped := by
  induction requests with
  | nil => exact fun map hmap => hmap
  | cons request rest ih =>
    intro map hmap
    refine ih _ ?_
    show ((map.mapRegion request).toOption.getD map).WellMapped
    cases hnext : map.mapRegion request with
    | error error => exact hmap
    | ok next => exact hmap.mapRegion hnext

/-! ## The region that holds an address -/

theorem WellMapped.holds_unique (hmap : map.WellMapped) {other : NamedRegion}
    (hmem : mapped ∈ map.regions) (hother : other ∈ map.regions) (hholds : mapped.Holds address)
    (hotherHolds : other.Holds address) : other = mapped := by
  have hsymm : Std.Symm fun left right : NamedRegion => left.Apart right.toMappedRegion :=
    ⟨fun _ _ happart => happart.symm⟩
  by_contra hne
  exact (hmap.apart.forall hother hmem hne).not_holds hotherHolds hholds

theorem indexedRegion_cases (hindexed : map.indexedRegion address width = some mapped) :
    width ≠ 0 ∧ mapped ∈ map.regions ∧ mapped.covers address width = true := by
  unfold indexedRegion at hindexed
  split at hindexed
  · cases hindexed
  · rename_i hmode
    split at hindexed
    · cases hindexed
    · split at hindexed
      · cases hindexed
      · cases hindexed
      · split at hindexed
        · cases hindexed
        · rename_i hslot
          split at hindexed
          · cases hindexed
          · rename_i hinside
            cases hindexed
            refine ⟨fun hzero => hmode (Or.inr hzero), List.mem_of_getElem? hslot, ?_⟩
            exact MappedRegion.covers_iff.mpr (by omega)

theorem WellMapped.scanRegion_of_indexedRegion (hmap : map.WellMapped)
    (hindexed : map.indexedRegion address width = some mapped) :
    map.scanRegion address width = some mapped := by
  obtain ⟨hwidth, hmem, hcovers⟩ := indexedRegion_cases hindexed
  cases hscan : map.scanRegion address width with
  | none => exact absurd hcovers (by simpa using List.find?_eq_none.mp hscan mapped hmem)
  | some other =>
    have hother : other.covers address width = true := by
      unfold scanRegion at hscan
      simpa using List.find?_some hscan
    rw [hmap.holds_unique hmem (List.mem_of_find?_eq_some hscan)
      (MappedRegion.holds_of_covers hwidth hcovers) (MappedRegion.holds_of_covers hwidth hother)]

/-- Only one region of the list holds the first byte, so the scan passes the
others by. -/
theorem resolveScan_of_covers {width : MemoryAccessWidth} {operation : MemoryAccessOperation}
    (hcovers : mapped.covers address width.bytes = true) :
    ∀ regions : List NamedRegion, mapped ∈ regions →
      (∀ other ∈ regions, other.Holds address → other = mapped) →
      resolveScan address width operation regions = .ok mapped := by
  have hwidth : width.bytes ≠ 0 := by cases width <;> decide
  intro regions
  induction regions with
  | nil => exact fun hmem => absurd hmem List.not_mem_nil
  | cons first rest ih =>
    intro hmem honly
    unfold resolveScan
    split
    · rename_i hfirst
      rw [honly first List.mem_cons_self (MappedRegion.holds_of_covers hwidth hfirst)]
    · rename_i hfirst
      have hne : first ≠ mapped := by
        rintro rfl
        exact hfirst hcovers
      have hoff : ¬ first.Holds address := fun hholds =>
        hne (honly first List.mem_cons_self hholds)
      unfold MappedRegion.Holds at hoff
      rw [if_neg hoff]
      have hrest : mapped ∈ rest := (List.mem_cons.mp hmem).resolve_left hne.symm
      exact ih hrest fun other hother => honly other (List.mem_cons_of_mem first hother)

theorem WellMapped.resolveScan_of_indexedRegion (hmap : map.WellMapped) {width : MemoryAccessWidth}
    (operation : MemoryAccessOperation)
    (hindexed : map.indexedRegion address width.bytes = some mapped) :
    resolveScan address width operation map.regions = .ok mapped := by
  obtain ⟨hwidth, hmem, hcovers⟩ := indexedRegion_cases hindexed
  refine resolveScan_of_covers hcovers map.regions hmem fun other hother hholds => ?_
  exact hmap.holds_unique hmem hother (MappedRegion.holds_of_covers hwidth hcovers) hholds

/-! ## Each lookup is the one of the scan -/

@[simp] theorem indexedRegion_reference :
    (map.setLookupMode .referenceScan).indexedRegion address width = none := by
  have hmode : (map.setLookupMode .referenceScan).lookupMode ≠ .indexed :=
    MemoryLookupMode.noConfusion
  unfold indexedRegion
  exact if_pos (Or.inl hmode)

variable (hmap : map.WellMapped)
include hmap

theorem WellMapped.resolve_reference (address : BitVec 32)
    (width : MemoryAccessWidth) (operation : MemoryAccessOperation) :
    (map.setLookupMode .referenceScan).resolve address width operation =
      map.resolve address width operation := by
  have halignment : (map.setLookupMode .referenceScan).requireAlignment address width operation =
      map.requireAlignment address width operation := rfl
  unfold resolve
  rw [indexedRegion_reference, halignment]
  cases map.requireAlignment address width operation with
  | error error => rfl
  | ok checked =>
    by_cases hspace : width.bytes > 2 ^ 32 - address.toNat
    · simp only [if_pos hspace]
    · simp only [if_neg hspace]
      cases hindexed : map.indexedRegion address width.bytes with
      | none => rfl
      | some mapped => exact hmap.resolveScan_of_indexedRegion operation hindexed

theorem WellMapped.contains_reference (address : BitVec 32) (width : Nat) :
    (map.setLookupMode .referenceScan).contains address width = map.contains address width := by
  unfold contains
  rw [indexedRegion_reference]
  cases hindexed : map.indexedRegion address width with
  | none => rfl
  | some mapped =>
    have hscan : (map.setLookupMode .referenceScan).scanRegion address width = some mapped :=
      hmap.scanRegion_of_indexedRegion hindexed
    rw [hscan]
    rfl

theorem WellMapped.rangeSatisfies_reference (check : NamedRegion → Bool)
    (address : BitVec 32) (width : Nat) :
    (map.setLookupMode .referenceScan).rangeSatisfies check address width =
      map.rangeSatisfies check address width := by
  unfold rangeSatisfies
  rw [indexedRegion_reference]
  cases hindexed : map.indexedRegion address width with
  | none => rfl
  | some mapped =>
    have hscan : (map.setLookupMode .referenceScan).scanRegion address width = some mapped :=
      hmap.scanRegion_of_indexedRegion hindexed
    rw [hscan]

theorem WellMapped.mapsDevice_reference (address : BitVec 32) (width : Nat) (device : Option Nat) :
    (map.setLookupMode .referenceScan).mapsDevice address width device =
      map.mapsDevice address width device := by
  cases device with
  | none => rfl
  | some device => exact hmap.rangeSatisfies_reference _ address width

omit hmap

/-! ## After any row of calls -/

/-- The regions of a memory that the calls of `map_region` filled. -/
def afterMapping (policy : MemoryAlignmentPolicy) (mode : MemoryLookupMode)
    (requests : List MapRequest) : MemoryMap :=
  mapRegions { alignmentPolicy := policy, lookupMode := mode } requests

theorem lookupModes_agree (policy : MemoryAlignmentPolicy) (mode : MemoryLookupMode)
    (requests : List MapRequest) :
    let map := afterMapping policy mode requests
    let indexed := map.setLookupMode .indexed
    let reference := map.setLookupMode .referenceScan
    (∀ address width operation,
      indexed.resolve address width operation = reference.resolve address width operation) ∧
    (∀ address width, indexed.contains address width = reference.contains address width) ∧
    (∀ address width device,
      indexed.mapsDevice address width device = reference.mapsDevice address width device) ∧
    (∀ address width, indexed.isWritableLinearRange address width =
        reference.isWritableLinearRange address width) ∧ (∀ address width,
      indexed.isReadableLinearRange address width = reference.isReadableLinearRange address width) ∧
    map.regions.Pairwise fun left right =>
      left.baseAddress.toNat < right.baseAddress.toNat ∧
        left.regionEnd ≤ right.baseAddress.toNat := by
  intro map indexed reference
  have hmap : map.WellMapped := WellMapped.mapRegions requests _ (wellMapped_empty policy mode)
  have hindexed : indexed.WellMapped := hmap.setLookupMode .indexed
  refine ⟨?_, ?_, ?_, ?_, ?_, hmap.sorted⟩
  · intro address width operation
    exact (hindexed.resolve_reference address width operation).symm
  · intro address width
    exact (hindexed.contains_reference address width).symm
  · intro address width device
    exact (hindexed.mapsDevice_reference address width device).symm
  · intro address width
    exact (hindexed.rangeSatisfies_reference _ address width).symm
  · intro address width
    exact (hindexed.rangeSatisfies_reference _ address width).symm

end MemoryMap
end KatanaRecomp.Runtime
