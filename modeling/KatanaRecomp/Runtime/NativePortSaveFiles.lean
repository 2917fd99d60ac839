import KatanaRecomp.Runtime.NativePortSaveCodec

/-! # The files of a unit

What a unit is for: a finite map from file names to metadata and bytes. The
provider keeps it as the sorted files of a volume, and the platform keeps the
volume as bytes. -/
namespace KatanaRecomp.Runtime.NativePortSave
open Lib ByteFormat

abbrev FileMap := Text → Option (NativePortSaveFileMetadata × List Byte)

namespace FileMap

/-- What a request that completed with `error` does to the files. -/
def apply (files : FileMap) (request : Request) (error : NativePortSaveError) : FileMap :=
  match request, error with
  | .write request, .none =>
    Function.update files request.metadata.fileId (some (request.metadata, request.payload))
  | .remove request, .none => Function.update files request.fileId none
  | _, _ => files

/-- The blocks of all the files. -/
noncomputable def blocks (files : FileMap) (unit : NativePortSaveUnitConfig) : Nat :=
  finsum fun fileId => (files fileId).elim 0 fun content => blocksOf unit content.2.length

theorem apply_of_error {files : FileMap} {request : Request} {error : NativePortSaveError}
    (h : error ≠ .none) : files.apply request error = files := by
  unfold apply
  split
  · exact absurd rfl h
  · exact absurd rfl h
  · rfl

end FileMap

/-! ## Volumes as maps -/

def StoredFile.fileId (file : StoredFile) : Text := file.entry.fileId

def NativePortSaveDirectoryEntry.metadata (entry : NativePortSaveDirectoryEntry) :
    NativePortSaveFileMetadata :=
  { fileId := entry.fileId
    applicationId := entry.applicationId
    title := entry.title
    description := entry.description
    userFlags := entry.userFlags }

def StoredFile.metadata (file : StoredFile) : NativePortSaveFileMetadata := file.entry.metadata

def StoredVolume.fileMap (volume : StoredVolume) : FileMap := fun fileId =>
  (findFile volume fileId).map fun file => (file.metadata, file.payload)

theorem findFile_eq_lookup (volume : StoredVolume) (fileId : Text) :
    findFile volume fileId = KeyedList.lookup StoredFile.fileId volume.files fileId := rfl

theorem nameKey_injective : Function.Injective nameKey :=
  List.map_injective_iff.mpr fun _ _ => BitVec.eq_of_toNat_eq

variable {files : List StoredFile}

theorem nodup_of_sorted (h : files.Pairwise StoredFile.Before) :
    (files.map StoredFile.fileId).Nodup := by
  apply List.pairwise_map.mpr
  refine h.imp fun {left right} hlt heq => ?_
  have hkey : nameKey left.entry.fileId = nameKey right.entry.fileId := congrArg nameKey heq
  exact absurd hlt (by simp [StoredFile.Before, hkey])

/-- A volume that the provider can build for a unit. -/
structure StoredVolume.Fits (volume : StoredVolume) (unit : NativePortSaveUnitConfig) : Prop
    extends volume.WellFormed unit where
  payloads : ∀ file ∈ volume.files,
    file.payload.length ≤ unit.blockBytes.toNat * unit.blockCount.toNat

variable {unit : NativePortSaveUnitConfig} {volume : StoredVolume}

theorem StoredVolume.Fits.nodup (h : volume.Fits unit) :
    (volume.files.map StoredFile.fileId).Nodup := nodup_of_sorted h.sorted

theorem fits_empty : StoredVolume.Fits {} unit where
  count := Nat.zero_le _
  used := Nat.zero_le _
  good := by simp
  sorted := List.Pairwise.nil
  payloads := by simp

theorem fileMap_perm {volume' : StoredVolume} (hperm : volume.files.Perm volume'.files)
    (hkeys : (volume.files.map StoredFile.fileId).Nodup) : volume.fileMap = volume'.fileMap := by
  funext fileId
  unfold StoredVolume.fileMap
  rw [findFile_eq_lookup, findFile_eq_lookup, KeyedList.lookup_perm hperm hkeys]

/-- The file in front of the files with other names. -/
def StoredVolume.withFile (volume : StoredVolume) (file : StoredFile) : StoredVolume :=
  { files := file :: KeyedList.others StoredFile.fileId volume.files file.fileId }

theorem fileMap_withFile (file : StoredFile) : (volume.withFile file).fileMap =
      Function.update volume.fileMap file.fileId (some (file.metadata, file.payload)) := by
  funext fileId
  unfold StoredVolume.fileMap
  rw [findFile_eq_lookup, StoredVolume.withFile, KeyedList.lookup_cons_others]
  by_cases hname : fileId = file.fileId
  · rw [hname, Function.update_self, Function.update_self]
    rfl
  · rw [Function.update_of_ne hname, Function.update_of_ne hname, findFile_eq_lookup]

variable {file : StoredFile}

theorem perm_replaceFile (hkeys : (files.map StoredFile.fileId).Nodup)
    (hfound : (KeyedList.lookup StoredFile.fileId files file.fileId).isSome) :
    (replaceFile file files).Perm
      (file :: KeyedList.others StoredFile.fileId files file.fileId) := by
  induction files with
  | nil => simp [KeyedList.lookup] at hfound
  | cons first rest ih =>
    obtain ⟨hfresh, hrest⟩ := List.nodup_cons.mp hkeys
    unfold replaceFile KeyedList.others
    rw [List.filter_cons]
    by_cases hname : first.fileId = file.fileId
    · have hothers : KeyedList.others StoredFile.fileId rest file.fileId = rest := by
        apply KeyedList.others_of_lookup_none
        apply KeyedList.lookup_eq_none_iff.mpr
        intro other hother heq
        exact hfresh (hname ▸ heq ▸ List.mem_map_of_mem hother)
      have hsame : (first.entry.fileId == file.entry.fileId) = true := beq_iff_eq.mpr hname
      rw [if_pos hsame, if_neg (by simp [hname])]
      exact List.Perm.cons _ (List.Perm.of_eq hothers.symm)
    · have hother : ¬ (first.entry.fileId == file.entry.fileId) = true :=
        fun h => hname (beq_iff_eq.mp h)
      rw [KeyedList.lookup_cons, if_neg hname] at hfound
      rw [if_neg hother, if_pos (by simpa using hname)]
      exact ((ih hrest hfound).cons first).trans (List.Perm.swap _ _ _)

theorem perm_insertFile {inserted : StoredVolume} (hvolume : volume.Fits unit)
    (hinsert : insertFile unit volume file = .ok inserted) :
    inserted.files.Perm (volume.withFile file).files := by
  unfold insertFile at hinsert
  cases hfound : findFile volume file.entry.fileId with
  | some existing =>
    rw [hfound] at hinsert
    cases hinsert
    rw [findFile_eq_lookup] at hfound
    exact perm_replaceFile hvolume.nodup (Option.isSome_of_eq_some hfound)
  | none =>
    rw [hfound] at hinsert
    simp only at hinsert
    split at hinsert
    · cases hinsert
    · cases hinsert
      rw [findFile_eq_lookup] at hfound
      have hothers : KeyedList.others StoredFile.fileId volume.files file.fileId = volume.files :=
        KeyedList.others_of_lookup_none hfound
      unfold StoredVolume.withFile
      rw [hothers]
      exact List.perm_append_singleton file volume.files

theorem insertFile_error {error : NativePortSaveError}
    (hinsert : insertFile unit volume file = .error error) :
    error = .directoryFull ∧ findFile volume file.entry.fileId = none ∧
      volume.files.length = unit.maximumFileCount.toNat := by
  unfold insertFile at hinsert
  cases hfound : findFile volume file.entry.fileId with
  | some existing =>
    rw [hfound] at hinsert
    cases hinsert
  | none =>
    rw [hfound] at hinsert
    simp only at hinsert
    split at hinsert
    · cases hinsert
      exact ⟨rfl, rfl, ‹_›⟩
    · cases hinsert

instance : Std.Total StoredFile.notAbove where
  total left right := by
    unfold StoredFile.notAbove
    rw [not_lt, not_lt]
    exact le_total _ _

instance : IsTrans StoredFile StoredFile.notAbove where
  trans left middle right := by
    unfold StoredFile.notAbove
    rw [not_lt, not_lt, not_lt]
    exact le_trans

theorem perm_sortFiles (volume : StoredVolume) : (sortFiles volume).files.Perm volume.files :=
  List.perm_insertionSort _ _

theorem sorted_sortFiles (hkeys : (volume.files.map StoredFile.fileId).Nodup) :
    (sortFiles volume).files.Pairwise StoredFile.Before := by
  have hkeys' : ((sortFiles volume).files.map StoredFile.fileId).Nodup :=
    ((perm_sortFiles volume).map _).nodup_iff.mpr hkeys
  have hsorted : (sortFiles volume).files.Pairwise StoredFile.notAbove :=
    List.pairwise_insertionSort _ _
  refine (hsorted.and (List.pairwise_map.mp hkeys')).imp fun {left right} h => ?_
  have hle : nameKey left.entry.fileId ≤ nameKey right.entry.fileId := not_lt.mp h.1
  exact lt_of_le_of_ne hle fun heq => h.2 (nameKey_injective heq)

/-! ## What a write or remove stores -/

section
variable {file : StoredFile} {inserted : StoredVolume} (hvolume : volume.Fits unit)
  (hinsert : insertFile unit volume file = .ok inserted)
include hvolume hinsert

theorem perm_written : (sortFiles inserted).files.Perm (volume.withFile file).files :=
  (perm_sortFiles inserted).trans (perm_insertFile hvolume hinsert)

theorem nodup_inserted : (inserted.files.map StoredFile.fileId).Nodup :=
  ((perm_insertFile hvolume hinsert).map _).nodup_iff.mpr
    (KeyedList.cons_others_nodup hvolume.nodup)

theorem fileMap_written : (sortFiles inserted).fileMap =
      Function.update volume.fileMap file.fileId (some (file.metadata, file.payload)) := by
  rw [← fileMap_withFile, fileMap_perm (perm_written hvolume hinsert)]
  exact nodup_of_sorted (sorted_sortFiles (nodup_inserted hvolume hinsert))

theorem mem_written {other : StoredFile} (hother : other ∈ (sortFiles inserted).files) :
    other = file ∨ other ∈ volume.files := by
  rcases List.mem_cons.mp ((perm_written hvolume hinsert).mem_iff.mp hother) with heq | hmem
  · exact .inl heq
  · exact .inr (List.mem_filter.mp hmem).1

theorem length_written_le : (sortFiles inserted).files.length ≤ unit.maximumFileCount.toNat := by
  have hcount := hvolume.count
  rw [(perm_written hvolume hinsert).length_eq]
  unfold insertFile at hinsert
  cases hfound : findFile volume file.entry.fileId with
  | some existing =>
    have hmem : existing ∈ volume.files := List.mem_of_find?_eq_some hfound
    have hname : existing.entry.fileId = file.entry.fileId := by
      simpa using List.find?_some hfound
    have hshorter : (KeyedList.others StoredFile.fileId volume.files file.fileId).length <
        volume.files.length := by
      apply List.length_filter_lt_length_iff_exists.mpr
      refine ⟨existing, hmem, ?_⟩
      simpa [StoredFile.fileId] using hname
    unfold StoredVolume.withFile
    rw [List.length_cons]
    omega
  | none =>
    rw [hfound] at hinsert
    simp only at hinsert
    split at hinsert
    · cases hinsert
    · rename_i hroom
      have hothers : (KeyedList.others StoredFile.fileId volume.files file.fileId).length ≤
          volume.files.length := List.length_filter_le _ _
      unfold StoredVolume.withFile
      rw [List.length_cons]
      omega

/-- Only the blocks can be missing. -/
theorem written_fits_iff (hfile : file.Good unit)
    (hpayload : file.payload.length ≤ unit.blockBytes.toNat * unit.blockCount.toNat) :
    (sortFiles inserted).Fits unit ↔ usedBlocks (sortFiles inserted) ≤ unit.blockCount.toNat := by
  constructor
  · intro h
    exact h.used
  · intro hused
    refine ⟨⟨length_written_le hvolume hinsert, hused, ?_,
      sorted_sortFiles (nodup_inserted hvolume hinsert)⟩, ?_⟩
    · intro other hother
      rcases mem_written hvolume hinsert hother with rfl | hmem
      · exact hfile
      · exact hvolume.good other hmem
    · intro other hother
      rcases mem_written hvolume hinsert hother with rfl | hmem
      · exact hpayload
      · exact hvolume.payloads other hmem

end

/-- The volume without a file. -/
def StoredVolume.without (volume : StoredVolume) (fileId : Text) : StoredVolume :=
  { files := volume.files.eraseP fun file => file.entry.fileId == fileId }

section
variable (hvolume : volume.Fits unit)
include hvolume

theorem without_eq_others (fileId : Text) :
    (volume.without fileId).files = KeyedList.others StoredFile.fileId volume.files fileId := by
  rw [← KeyedList.eraseP_eq_others hvolume.nodup]
  rfl

theorem fileMap_without (fileId : Text) :
    (volume.without fileId).fileMap = Function.update volume.fileMap fileId none := by
  funext other
  unfold StoredVolume.fileMap
  rw [findFile_eq_lookup, without_eq_others hvolume, KeyedList.lookup_others]
  by_cases hname : other = fileId
  · rw [hname, Function.update_self, Function.update_self]
    rfl
  · rw [Function.update_of_ne hname, Function.update_of_ne hname, findFile_eq_lookup]

theorem without_fits (fileId : Text) : (volume.without fileId).Fits unit := by
  have hsublist : (volume.without fileId).files.Sublist volume.files := List.eraseP_sublist
  refine ⟨⟨hsublist.length_le.trans hvolume.count, le_trans ?_ hvolume.used, ?_,
    hvolume.sorted.sublist hsublist⟩, ?_⟩
  · unfold usedBlocks
    exact min_le_min_right _ ((hsublist.map _).sum_le_sum fun _ _ => Nat.zero_le _)
  · intro file hfile
    exact hvolume.good file (hsublist.subset hfile)
  · intro file hfile
    exact hvolume.payloads file (hsublist.subset hfile)

end
end KatanaRecomp.Runtime.NativePortSave
