import KatanaRecomp.Lib.PageIndex
import KatanaRecomp.Runtime.GuestMemory

/-! # The regions of the address space and their page index

`map_region` takes a region that lies in the address space and beside the other
regions, sorts the regions by their base and builds the page index anew. A
lookup asks the index first and scans the regions where the index has no answer.
A device is named by a number. The counters of a lookup, the observers and the
windows of direct access are left out. -/
namespace KatanaRecomp.Runtime
open Lib

inductive MemoryAlignmentPolicy
  | strict | permissive
  deriving DecidableEq

inductive MemoryAccessWidth
  | byte | halfword | word
  deriving DecidableEq

/-- `width_bytes`. -/
def MemoryAccessWidth.bytes : MemoryAccessWidth → Nat
  | byte => 1
  | halfword => 2
  | word => 4

/-- What a lookup throws: the operation, the reason and the address, the width
and the name of the region that was hit. -/
structure LookupError extends MemoryAccessError where
  width : MemoryAccessWidth
  regionName : String := ""

/-- A `MemoryDevice` as `map_region` sees it. -/
structure DeviceInfo where
  id : Nat
  size : Nat
  linear : Bool := true

structure NamedRegion extends MappedRegion where
  name : String
  deriving DecidableEq

/-- The arguments of `map_region`; a null device is `none`. -/
structure MapRequest where
  name : String
  baseAddress : BitVec 32
  device : Option DeviceInfo
  readWrite : Bool := true

inductive MapRegionError
  | unnamed | noDevice | emptyDevice | outsideAddressSpace | overlap

structure MemoryMap where
  alignmentPolicy : MemoryAlignmentPolicy := .strict
  lookupMode : MemoryLookupMode := .indexed
  regions : List NamedRegion := []
  regionPageIndex : Nat → PageOwner := fun _ => .unmapped

def MappedRegion.pages (mapped : MappedRegion) : PageRange where
  first := mapped.baseAddress.toNat / 2 ^ 16
  last := (mapped.regionEnd - 1) / 2 ^ 16

/-- The region of a request with its device. -/
def MapRequest.region (request : MapRequest) (device : DeviceInfo) : NamedRegion where
  baseAddress := request.baseAddress
  size := device.size
  readWrite := request.readWrite
  device := device.id
  linear := device.linear
  name := request.name

namespace MemoryMap
variable (map : MemoryMap)

def setLookupMode (mode : MemoryLookupMode) : MemoryMap := { map with lookupMode := mode }

def rebuildRegionIndex : MemoryMap :=
  { map with regionPageIndex := PageIndex.rebuild (map.regions.map fun mapped => mapped.pages) }

def overlapsRegion (region : NamedRegion) : Bool := map.regions.any fun existing =>
    decide (region.baseAddress.toNat < existing.regionEnd) &&
      decide (existing.baseAddress.toNat < region.regionEnd)

/-- `push_back` and `std::sort`; the bases of the regions differ. -/
def insertRegion (region : NamedRegion) : MemoryMap := rebuildRegionIndex
    { map with
      regions := (map.regions ++ [region]).mergeSort fun left right =>
        decide (left.baseAddress.toNat ≤ right.baseAddress.toNat) }

def mapRegion (request : MapRequest) : Except MapRegionError MemoryMap :=
  if request.name = "" then .error .unnamed
  else
    match request.device with
    | none => .error .noDevice
    | some device =>
      if device.size = 0 then .error .emptyDevice
      else if device.size > 2 ^ 32 - request.baseAddress.toNat then .error .outsideAddressSpace
      else if map.overlapsRegion (request.region device) then .error .overlap
      else .ok (map.insertRegion (request.region device))

/-- A call that throws leaves the regions as they are. -/
def mapRegions (requests : List MapRequest) : MemoryMap :=
  requests.foldl (fun map request => (map.mapRegion request).toOption.getD map) map

/-! ## Lookups -/

def indexedRegion (address : BitVec 32) (width : Nat) : Option NamedRegion :=
  if map.lookupMode ≠ .indexed ∨ width = 0 then none
  else if address.toNat + width > 2 ^ 32 then none
  else
    match map.regionPageIndex (address >>> 16).toNat with
    | .unmapped => none
    | .ambiguous => none
    | .owner slot =>
      match map.regions[slot]? with
      | none => none
      | some mapped =>
        if address.toNat < mapped.baseAddress.toNat ∨ address.toNat + width > mapped.regionEnd then
          none
        else some mapped

/-- The first region of the scan that holds the whole range. -/
def scanRegion (address : BitVec 32) (width : Nat) : Option NamedRegion :=
  map.regions.find? fun mapped => mapped.covers address width

def requireAlignment (address : BitVec 32) (width : MemoryAccessWidth)
    (operation : MemoryAccessOperation) : Except LookupError Unit :=
  if map.alignmentPolicy = .permissive then .ok ()
  else if address.toNat % width.bytes ≠ 0 then
    .error { operation := operation, reason := .misaligned, address := address, width := width }
  else .ok ()

/-- The scan of `resolve`: it stops at the region that holds the access and at
the region that holds only its first byte. -/
def resolveScan (address : BitVec 32) (width : MemoryAccessWidth)
    (operation : MemoryAccessOperation) : List NamedRegion → Except LookupError NamedRegion
  | [] =>
    .error { operation := operation, reason := .unmapped, address := address, width := width }
  | mapped :: rest =>
    if mapped.covers address width.bytes then .ok mapped
    else if mapped.baseAddress.toNat ≤ address.toNat ∧ address.toNat < mapped.regionEnd then
      .error
        { operation := operation, reason := .crossRegion, address := address, width := width,
          regionName := mapped.name }
    else resolveScan address width operation rest

def resolve (address : BitVec 32) (width : MemoryAccessWidth)
    (operation : MemoryAccessOperation) : Except LookupError NamedRegion :=
  match map.requireAlignment address width operation with
  | .error error => .error error
  | .ok () =>
    if width.bytes > 2 ^ 32 - address.toNat then
      .error
        { operation := operation, reason := .addressOverflow, address := address, width := width }
    else
      match map.indexedRegion address width.bytes with
      | some mapped => .ok mapped
      | none => resolveScan address width operation map.regions

def contains (address : BitVec 32) (width : Nat) : Bool :=
  if width = 0 then false
  else if width > 2 ^ 32 - address.toNat then false
  else
    match map.indexedRegion address width with
    | some _ => true
    | none => (map.scanRegion address width).isSome

/-- What a range check says of the region that holds the range. -/
def rangeSatisfies (check : NamedRegion → Bool) (address : BitVec 32) (width : Nat) : Bool :=
  if width = 0 ∨ width > 2 ^ 32 - address.toNat then false
  else
    match map.indexedRegion address width with
    | some mapped => check mapped
    | none =>
      match map.scanRegion address width with
      | some mapped => check mapped
      | none => false

def mapsDevice (address : BitVec 32) (width : Nat) (device : Option Nat) : Bool :=
  match device with
  | none => false
  | some device => map.rangeSatisfies (fun mapped => mapped.device == device) address width

def isWritableLinearRange (address : BitVec 32) (width : Nat) : Bool :=
  map.rangeSatisfies (fun mapped => mapped.readWrite && mapped.linear) address width

def isReadableLinearRange (address : BitVec 32) (width : Nat) : Bool :=
  map.rangeSatisfies (fun mapped => mapped.linear) address width

end MemoryMap
end KatanaRecomp.Runtime
