import KatanaRecomp.Runtime.NativePortSaveFiles

/-! # The save provider as a map

Along every run of requests, a unit behaves as the map of its files. -/
namespace KatanaRecomp.Runtime.NativePortSave
open Lib ByteFormat

/-! ## Admitted units -/

/-- What the constructor has checked of a unit. -/
structure Admitted (provider : NativePortSaveProvider) (unit : NativePortSaveUnitConfig) : Prop where
  profile : provider.profileIdentity.length ≤ maximumProfileIdentityBytes
  identity : unit.present = true → unit.identity.length ≤ maximumMediumIdentityBytes
  blockBytes : 0 < unit.blockBytes.toNat
  blockCount : unit.blockCount.toNat ≤ maximumBlockCount
  capacity : maximumSerialized unit ≤ provider.maximumSavePayloadBytes

variable {maximumSavePayloadBytes : Nat} {unit : NativePortSaveUnitConfig}

variable {units : List NativePortSaveUnitConfig}

variable {endpoint : NativePortSaveEndpoint} {provider : NativePortSaveProvider}

theorem findUnit_eq_some (h : findUnit provider endpoint = some unit) :
    validEndpoint endpoint = true ∧ unit ∈ provider.units := by
  unfold findUnit at h
  split at h
  · cases h
  · rename_i hvalid
    exact ⟨by simpa using hvalid, List.mem_of_find?_eq_some h⟩

variable {validContract nativeSaveBackend : Bool} {profileIdentity : Text}

section
variable (h : NativePortSaveProvider.create validContract profileIdentity units nativeSaveBackend
  maximumSavePayloadBytes = .ok provider)
include h

theorem create_ok :
    validIdentity profileIdentity maximumProfileIdentityBytes = true ∧
      checkUnits maximumSavePayloadBytes [] units = .ok () ∧
      provider = { profileIdentity, units, maximumSavePayloadBytes } := by
  unfold NativePortSaveProvider.create at h
  split at h
  · cases h
  split at h
  · cases h
  rename_i hconfig _
  cases hunits : checkUnits maximumSavePayloadBytes [] units with
  | error e =>
    rw [hunits] at h
    cases h
  | ok done =>
    rw [hunits] at h
    cases h
    simp only [Bool.or_eq_true, not_or, Bool.not_eq_true', Bool.not_eq_false] at hconfig
    exact ⟨hconfig.1.2, rfl, rfl⟩

end

/-! ## What a slot holds -/

def encoded (provider : NativePortSaveProvider) (unit : NativePortSaveUnitConfig)
    (volume : StoredVolume) : List Byte :=
  volumeMagic ++ writeVolume unit provider.profileIdentity volume

/-- Nothing yet, or a volume that the provider has stored. -/
inductive Holds (provider : NativePortSaveProvider) (unit : NativePortSaveUnitConfig) :
    Slot → StoredVolume → BitVec 64 → Prop
  | empty : Holds provider unit none {} 0
  | stored {volume : StoredVolume} {generation : BitVec 64} (hpresent : unit.present = true)
      (hfits : volume.Fits unit) (hgeneration : generation ≠ 0) :
      Holds provider unit (some (encoded provider unit volume, generation)) volume generation

variable {provider : NativePortSaveProvider} {unit : NativePortSaveUnitConfig} {slot : Slot}
  {volume : StoredVolume} {generation : BitVec 64} (hadmitted : Admitted provider unit)
include hadmitted

section
variable (hpresent : unit.present = true)
include hpresent

theorem Admitted.namesFit :
    NamesFit unit provider.profileIdentity := ⟨hadmitted.profile, hadmitted.identity hpresent⟩

theorem Admitted.decodeVolume_encoded (hfits : volume.Fits unit) :
    decodeVolume (encoded provider unit volume) unit provider.profileIdentity = .ok volume :=
  NativePortSave.decodeVolume_encoded (hadmitted.namesFit hpresent) hfits.toWellFormed

theorem Admitted.encodeVolume_eq (hfits : volume.Fits unit) :
    encodeVolume volume unit provider.profileIdentity = .ok (encoded provider unit volume) :=
  encodeVolume_of_wellFormed (hadmitted.namesFit hpresent) hfits.toWellFormed

end

omit hadmitted

namespace Holds
section
variable (h : Holds provider unit slot volume generation)
include h

theorem fits : volume.Fits unit := by
  cases h with
  | empty => exact fits_empty
  | stored _ hfits _ => exact hfits

end

end Holds

/-! ## Load and store -/

/-- The load of the request succeeds. -/
def Circumstances.Loads (circumstances : Circumstances) : Prop :=
  circumstances.loadThrows = none ∧ circumstances.decodeFails = false

/-- An error that is no verdict on what is stored. -/
def NativePortSaveError.Readable (error : NativePortSaveError) : Prop :=
  error ≠ .corrupt ∧ error ≠ .incompatible

theorem ofThrown_readable (thrown : Thrown) : (LoadedVolume.ofThrown thrown).error.Readable := by
  cases thrown <;> exact ⟨nofun, nofun⟩

theorem ofThrown_error_ne_none (thrown : Thrown) :
    (LoadedVolume.ofThrown thrown).error ≠ .none := by
  cases thrown <;> exact nofun

include hadmitted

theorem loadVolume_cases
    (h : Holds provider unit slot volume generation) (circumstances : Circumstances) :
    loadVolume provider unit slot circumstances = { generation, volume } ∨
      (loadVolume provider unit slot circumstances).error ≠ .none ∧
        (loadVolume provider unit slot circumstances).error.Readable ∧ ¬ circumstances.Loads := by
  cases hthrows : circumstances.loadThrows with
  | some thrown =>
    refine .inr ?_
    unfold loadVolume
    rw [hthrows]
    refine ⟨ofThrown_error_ne_none thrown, ofThrown_readable thrown, ?_⟩
    rintro ⟨hnone, -⟩
    rw [hthrows] at hnone
    cases hnone
  | none =>
    unfold loadVolume
    rw [hthrows]
    cases h with
    | empty => exact .inl rfl
    | stored hpresent hfits _ =>
      cases hdecode : circumstances.decodeFails with
      | true =>
        refine .inr ⟨nofun, ⟨nofun, nofun⟩, ?_⟩
        rintro ⟨-, hfalse⟩
        rw [hdecode] at hfalse
        cases hfalse
      | false =>
        refine .inl ?_
        simp only [hadmitted.decodeVolume_encoded hpresent hfits, Bool.false_eq_true, if_false]

theorem Admitted.encoded_small (hpresent : unit.present = true) (hfits : volume.Fits unit) :
    ¬ (encoded provider unit volume).length > provider.maximumSavePayloadBytes := by
  have hlength := length_encoded_le (hadmitted.namesFit hpresent) hadmitted.blockBytes
    hadmitted.blockCount hfits.toWellFormed hfits.payloads
  exact not_lt.mpr (hlength.trans hadmitted.capacity)

variable {circumstances : Circumstances}

theorem storeVolume_eq (hpresent : unit.present = true)
    (hfits : volume.Fits unit) (slot : Slot) {stored : BitVec 64}
    (hstore : circumstances.store = .ok stored) (hstored : stored ≠ 0) :
    storeVolume provider unit slot volume circumstances =
      ({ generation := stored }, some (encoded provider unit volume, stored)) := by
  have hsave : storeSave provider slot (encoded provider unit volume) circumstances =
      (.ok stored, some (encoded provider unit volume, stored)) := by
    unfold storeSave
    rw [if_neg (hadmitted.encoded_small hpresent hfits), hstore]
  simp only [storeVolume, hadmitted.encodeVolume_eq hpresent hfits, hsave, if_neg hstored]

theorem storeVolume_thrown (hpresent : unit.present = true)
    (hfits : volume.Fits unit) (slot : Slot) {thrown : Thrown}
    (hstore : circumstances.store = .error thrown) :
    storeVolume provider unit slot volume circumstances = (.ofThrown thrown, slot) := by
  have hsave : storeSave provider slot (encoded provider unit volume) circumstances =
      (.error thrown, slot) := by
    unfold storeSave
    rw [if_neg (hadmitted.encoded_small hpresent hfits), hstore]
  simp only [storeVolume, hadmitted.encodeVolume_eq hpresent hfits, hsave]

omit hadmitted

/-! ## What a request can do -/

def Request.expectedGeneration : Request → Option (BitVec 64)
  | .query => none
  | .list expectedGeneration => some expectedGeneration
  | .read request => some request.expectedGeneration
  | .write request => some request.expectedGeneration
  | .remove request => some request.expectedGeneration

def Request.readOnly : Request → Bool
  | .query => true
  | .list _ => true
  | .read _ => true
  | .write _ => false
  | .remove _ => false

/-- A request leaves the slot alone, or it completes and stores the changed files. -/
inductive Outcome (provider : NativePortSaveProvider) (unit : NativePortSaveUnitConfig) (slot : Slot)
    (volume : StoredVolume) (generation : BitVec 64) (request : Request) :
    NativePortSaveResult × Slot → Prop
  | keeps {result : NativePortSaveResult} (hreadable : result.error.Readable)
      (hkeeps : request.readOnly = true ∨ result.error ≠ .none) :
      Outcome provider unit slot volume generation request (result, slot)
  | stores {result : NativePortSaveResult} {volume' : StoredVolume} {generation' : BitVec 64}
      (hwrites : request.readOnly = false) (herror : result.error = .none)
      (hpresent : unit.present = true) (hfits : volume'.Fits unit)
      (hgeneration : generation' ≠ 0) (hfiles : volume'.fileMap = volume.fileMap.apply request .none)
      (hmatches : ∀ expected ∈ request.expectedGeneration,
        generationMatches expected generation = true) :
      Outcome provider unit slot volume generation request
        (result, some (encoded provider unit volume', generation'))

/-- The platform never returns a generation of zero. -/
def Circumstances.Counts (circumstances : Circumstances) : Prop :=
  ∀ stored, circumstances.store = .ok stored → stored ≠ 0

section
variable {request : Request} {circumstances : Circumstances} {result : NativePortSaveResult}

theorem outcome_keeps_error {error : NativePortSaveError}
    (herror : result.error = error) (hnone : error ≠ .none) (hreadable : error.Readable) :
    Outcome provider unit slot volume generation request (result, slot) := by
  subst herror
  exact .keeps hreadable (.inr hnone)

theorem outcome_whenLoaded (hadmitted : Admitted provider unit)
    (h : Holds provider unit slot volume generation) {expected : BitVec 64}
    (proceed : LoadedVolume → NativePortSaveResult × Slot)
    (hproceed : generationMatches expected generation = true →
      Outcome provider unit slot volume generation request (proceed { generation, volume })) :
    Outcome provider unit slot volume generation request
      (whenLoaded unit slot (loadVolume provider unit slot circumstances) expected
        (proceed (loadVolume provider unit slot circumstances))) := by
  unfold whenLoaded
  rcases loadVolume_cases hadmitted h circumstances with hloaded | ⟨herror, hreadable, -⟩
  · rw [hloaded, if_neg (not_not.mpr rfl)]
    split
    · exact outcome_keeps_error rfl nofun ⟨nofun, nofun⟩
    · rename_i hmatches
      exact hproceed (by simpa using hmatches)
  · rw [if_pos herror]
    exact outcome_keeps_error rfl herror hreadable

/-- The store of an edited volume. -/
theorem outcome_store (hadmitted : Admitted provider unit) (hpresent : unit.present = true)
    (hcounts : circumstances.Counts) (hwrites : request.readOnly = false)
    {volume' : StoredVolume} (hfits : volume'.Fits unit)
    (hfiles : volume'.fileMap = volume.fileMap.apply request .none)
    (hmatches : ∀ expected ∈ request.expectedGeneration,
      generationMatches expected generation = true)
    (result : NativePortSaveResult) (transferred : Nat) :
    Outcome provider unit slot volume generation request
      (afterStore unit result volume' (storeVolume provider unit slot volume' circumstances).1
          transferred, (storeVolume provider unit slot volume' circumstances).2) := by
  cases hstore : circumstances.store with
  | error thrown =>
    rw [storeVolume_thrown hadmitted hpresent hfits slot hstore]
    have hthrown := ofThrown_error_ne_none thrown
    refine outcome_keeps_error ?_ hthrown (ofThrown_readable thrown)
    simp only [afterStore, if_neg hthrown]
  | ok stored =>
    rw [storeVolume_eq hadmitted hpresent hfits slot hstore (hcounts stored hstore)]
    exact .stores hwrites rfl hpresent hfits (hcounts stored hstore) hfiles hmatches

theorem newFile_good {request : NativePortSaveWriteRequest}
    (hmetadata : validMetadata request.metadata = true)
    (hpayload : request.payload.length ≤ unit.blockBytes.toNat * unit.blockCount.toNat) :
    (newFile unit request).Good unit := by
  simp only [validMetadata, Bool.and_eq_true] at hmetadata
  obtain ⟨⟨⟨hfileId, happlication⟩, htitle⟩, hdescription⟩ := hmetadata
  refine ⟨hfileId, happlication, htitle, hdescription, ?_, rfl⟩
  have hsmall : unit.blockBytes.toNat * unit.blockCount.toNat < 2 ^ 32 * 2 ^ 32 :=
    Nat.mul_lt_mul'' unit.blockBytes.isLt unit.blockCount.isLt
  have hlength : request.payload.length < 2 ^ 64 := by omega
  exact Nat.mod_eq_of_lt hlength

theorem outcome_write (hadmitted : Admitted provider unit) (hpresent : unit.present = true)
    (h : Holds provider unit slot volume generation) (hcounts : circumstances.Counts)
    {request : NativePortSaveWriteRequest} (hmetadata : validMetadata request.metadata = true)
    (hpayload : request.payload.length ≤ unit.blockBytes.toNat * unit.blockCount.toNat)
    (hmatches : generationMatches request.expectedGeneration generation = true) :
    Outcome provider unit slot volume generation (.write request)
      (writeLoaded provider unit slot circumstances request { generation, volume }) := by
  unfold writeLoaded
  simp only
  split
  · exact outcome_keeps_error rfl nofun ⟨nofun, nofun⟩
  split
  · exact outcome_keeps_error rfl nofun ⟨nofun, nofun⟩
  cases hinsert : insertFile unit volume (newFile unit request) with
  | error error =>
    obtain ⟨rfl, -⟩ := insertFile_error hinsert
    exact outcome_keeps_error rfl nofun ⟨nofun, nofun⟩
  | ok inserted =>
    simp only
    split
    · exact outcome_keeps_error rfl nofun ⟨nofun, nofun⟩
    · rename_i hwellFormed
      have hwritten : (sortFiles inserted).WellFormed unit :=
        volumeIsWellFormed_iff.mp (by simpa using hwellFormed)
      have hfits : (sortFiles inserted).Fits unit :=
        (written_fits_iff h.fits hinsert (newFile_good hmetadata hpayload) hpayload).mpr hwritten.used
      have hfiles : (sortFiles inserted).fileMap = volume.fileMap.apply (.write request) .none :=
        fileMap_written h.fits hinsert
      refine outcome_store hadmitted hpresent hcounts rfl hfits hfiles ?_ _ _
      intro expected hexpected
      cases hexpected
      exact hmatches

theorem outcome_remove (hadmitted : Admitted provider unit) (hpresent : unit.present = true)
    (h : Holds provider unit slot volume generation) (hcounts : circumstances.Counts)
    {request : NativePortSaveRemoveRequest}
    (hmatches : generationMatches request.expectedGeneration generation = true) :
    Outcome provider unit slot volume generation (.remove request)
      (removeLoaded provider unit slot circumstances request { generation, volume }) := by
  unfold removeLoaded
  simp only
  cases hfound : findFile volume request.fileId with
  | none => exact outcome_keeps_error rfl nofun ⟨nofun, nofun⟩
  | some found =>
    have hfiles : (volume.without request.fileId).fileMap =
        volume.fileMap.apply (.remove request) .none := fileMap_without h.fits request.fileId
    refine outcome_store hadmitted hpresent hcounts rfl (without_fits h.fits request.fileId) hfiles
      ?_ _ _
    intro expected hexpected
    cases hexpected
    exact hmatches

theorem readFound_readable (hresult : result.error = .none)
    (request : NativePortSaveReadRequest) (found : StoredFile) :
    (readFound result request found).error.Readable := by
  unfold readFound
  simp only
  split
  · exact ⟨nofun, nofun⟩
  split
  · exact ⟨nofun, nofun⟩
  split
  · exact ⟨nofun, nofun⟩
  · rw [hresult]
    exact ⟨nofun, nofun⟩

/-- Everything a request can do. -/
theorem perform_outcome (hadmitted : Admitted provider unit) {endpoint : NativePortSaveEndpoint}
    (hunit : findUnit provider endpoint = some unit)
    (h : Holds provider unit slot volume generation) (hcounts : circumstances.Counts) :
    Outcome provider unit slot volume generation request
      (perform provider endpoint slot circumstances request) := by
  unfold perform
  rw [(findUnit_eq_some hunit).1, hunit]
  simp only [Bool.not_true, Bool.false_eq_true, if_false]
  split
  · exact outcome_keeps_error rfl nofun ⟨nofun, nofun⟩
  rename_i habsent
  have hpresent : unit.present = true := by simpa using habsent
  cases request with
  | query =>
    refine .keeps ?_ (.inl rfl)
    rcases loadVolume_cases hadmitted h circumstances with hloaded | ⟨-, hreadable, -⟩
    · simp only [hloaded]
      exact ⟨nofun, nofun⟩
    · exact hreadable
  | list expectedGeneration =>
    refine outcome_whenLoaded hadmitted h _ fun _ => ?_
    unfold listLoaded
    split
    · exact outcome_keeps_error rfl nofun ⟨nofun, nofun⟩
    · exact .keeps ⟨nofun, nofun⟩ (.inl rfl)
  | read request =>
    simp only
    split
    · exact outcome_keeps_error rfl nofun ⟨nofun, nofun⟩
    refine outcome_whenLoaded hadmitted h _ fun _ => ?_
    unfold readLoaded
    split
    · exact outcome_keeps_error rfl nofun ⟨nofun, nofun⟩
    · exact .keeps (readFound_readable rfl request _) (.inl rfl)
  | write request =>
    simp only
    split
    · exact outcome_keeps_error rfl nofun ⟨nofun, nofun⟩
    split
    · exact outcome_keeps_error rfl nofun ⟨nofun, nofun⟩
    split
    · exact outcome_keeps_error rfl nofun ⟨nofun, nofun⟩
    rename_i hmetadata hpayload
    exact outcome_whenLoaded hadmitted h _ (outcome_write hadmitted hpresent h hcounts
      (by simpa using hmetadata) (not_lt.mp hpayload))
  | remove request =>
    simp only
    split
    · exact outcome_keeps_error rfl nofun ⟨nofun, nofun⟩
    split
    · exact outcome_keeps_error rfl nofun ⟨nofun, nofun⟩
    exact outcome_whenLoaded hadmitted h _ (outcome_remove hadmitted hpresent h hcounts)

end
end KatanaRecomp.Runtime.NativePortSave
