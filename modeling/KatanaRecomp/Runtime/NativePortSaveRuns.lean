import KatanaRecomp.Runtime.NativePortSaveLaws

/-! # Runs of the save provider

The answers of a unit come from the map of its files, and the map after a run is
the one that the completed writes and removes leave. -/
namespace KatanaRecomp.Runtime.NativePortSave
open Lib ByteFormat
section
variable {provider : NativePortSaveProvider} {unit : NativePortSaveUnitConfig} {slot : Slot}
  {volume : StoredVolume} {generation : BitVec 64} {circumstances : Circumstances}
  {endpoint : NativePortSaveEndpoint}

/-! ## Through the load -/

variable {expected : BitVec 64}

/-- The bytes that a read is about. -/
def NativePortSaveReadRequest.part (request : NativePortSaveReadRequest) (payload : List Byte) :
    List Byte := (payload.drop request.byteOffset.toNat).take
    (request.requested (payload.length - request.byteOffset.toNat))

/-- The offset and the count stay within the file. -/
def NativePortSaveReadRequest.InRange (request : NativePortSaveReadRequest)
    (payload : List Byte) : Prop := request.byteOffset.toNat ≤ payload.length ∧
    request.requested (payload.length - request.byteOffset.toNat) ≤
      payload.length - request.byteOffset.toNat

variable {result : NativePortSaveResult} {request : NativePortSaveReadRequest}

variable (hadmitted : Admitted provider unit)
include hadmitted

section
variable (hunit : findUnit provider endpoint = some unit)
include hunit

section
variable (h : Holds provider unit slot volume generation)
include h

end
end

omit hadmitted

/-! ## Write -/

theorem apply_of_readOnly {files : FileMap} {request : Request} (h : request.readOnly = true)
    (error : NativePortSaveError) : files.apply request error = files := by
  cases request with
  | write request => cases h
  | remove request => cases h
  | query => rfl
  | list expectedGeneration => rfl
  | read request => rfl

theorem Outcome.holds {request : Request} {outcome : NativePortSaveResult × Slot}
    (houtcome : Outcome provider unit slot volume generation request outcome)
    (h : Holds provider unit slot volume generation) :
    ∃ volume' generation', Holds provider unit outcome.2 volume' generation' ∧
      volume'.fileMap = volume.fileMap.apply request outcome.1.error := by
  cases houtcome with
  | keeps _ hkeeps =>
    refine ⟨volume, generation, h, ?_⟩
    rcases hkeeps with hreadOnly | herror
    · exact (apply_of_readOnly hreadOnly _).symm
    · exact (FileMap.apply_of_error herror).symm
  | stores _ herror hpresent hfits hgeneration hfiles _ =>
    refine ⟨_, _, .stored hpresent hfits hgeneration, ?_⟩
    rw [hfiles, herror]

section
variable {request : Request} {outcome : NativePortSaveResult × Slot}
  (houtcome : Outcome provider unit slot volume generation request outcome)
include houtcome

theorem Outcome.readable : outcome.1.error.Readable := by
  cases houtcome with
  | keeps hreadable _ => exact hreadable
  | stores _ hnone =>
    rw [hnone]
    exact ⟨nofun, nofun⟩

end

theorem mem_entries_iff (h : volume.Fits unit) (metadata : NativePortSaveFileMetadata) :
    (∃ entry ∈ volume.files.map StoredFile.entry, entry.metadata = metadata) ↔
      ∃ payload, volume.fileMap metadata.fileId = some (metadata, payload) := by
  unfold StoredVolume.fileMap
  constructor
  · rintro ⟨entry, hentry, rfl⟩
    obtain ⟨file, hfile, rfl⟩ := List.mem_map.mp hentry
    have hfound : findFile volume file.entry.fileId = some file :=
      KeyedList.lookup_of_mem h.nodup hfile
    refine ⟨file.payload, ?_⟩
    change (findFile volume file.entry.fileId).map _ = _
    rw [hfound]
    rfl
  · rintro ⟨payload, hfile⟩
    obtain ⟨file, hfound, heq⟩ := Option.map_eq_some_iff.mp hfile
    exact ⟨file.entry, List.mem_map_of_mem (KeyedList.mem_of_lookup hfound), congrArg Prod.fst heq⟩

end

/-! ## Runs -/

section
variable {provider : NativePortSaveProvider} {unit : NativePortSaveUnitConfig}
  {endpoint : NativePortSaveEndpoint}

end

end KatanaRecomp.Runtime.NativePortSave
