import KatanaRecomp.Runtime.NativePortSave

/-! # The volume format

The decoder takes exactly what the encoder writes. A volume that the provider
built also stays below the size that the constructor admitted the unit with. -/
namespace KatanaRecomp.Runtime.NativePortSave
open Lib ByteFormat

/-! ## Fields -/

variable {maximumBytes : Nat}

theorem readString_parses (hmaximum : maximumBytes < 2 ^ 16) :
    Parses (readString maximumBytes) writeString (fun value => value.length ≤ maximumBytes) := by
  have hword : Parses (word VolumeError.corrupt 2 16) (littleEndian 2) (fun _ => True) :=
    .word _ rfl
  refine .of_rest (hword.bind (fun value : Text => BitVec.ofNat 16 value.length) fun size _ =>
    .check (fun value => maximumBytes < (BitVec.ofNat 16 value.length).toNat) ?_ fun hsize =>
    (Parses.take VolumeError.corrupt size.toNat).rest (fun value => value.length ≤ maximumBytes)
      fun value => ?_) ?_ ?_
  · rintro value ⟨rfl, -⟩
    rfl
  · constructor
    · intro hlength
      refine ⟨⟨?_, trivial⟩, by omega⟩
      rw [hlength, BitVec.ofNat_toNat, BitVec.setWidth_eq]
    · rintro ⟨⟨rfl, -⟩, hlength⟩
      rw [BitVec.toNat_ofNat, Nat.mod_eq_of_lt (by omega)]
  · intro value
    rfl
  · intro value
    rw [BitVec.toNat_ofNat]
    constructor
    · rintro ⟨-, -, hlength⟩
      exact hlength
    · intro hlength
      rw [Nat.mod_eq_of_lt (by omega)]
      exact ⟨trivial, by omega, hlength⟩

/-- The strings of a file fit their fields, and its size is the one of the payload. -/
def StoredFile.Decodable (file : StoredFile) : Prop :=
  file.entry.fileId.length ≤ maximumFileIdBytes ∧
    file.entry.applicationId.length ≤ maximumApplicationIdBytes ∧
    file.entry.title.length ≤ maximumTitleBytes ∧
    file.entry.description.length ≤ maximumDescriptionBytes ∧
    file.payload.length = file.entry.byteSize.toNat

theorem readFile_parses : Parses readFile writeFile StoredFile.Decodable := by
  have hname : Parses (readString maximumFileIdBytes) writeString _ := readString_parses (by decide)
  have happlication : Parses (readString maximumApplicationIdBytes) writeString _ :=
    readString_parses (by decide)
  have htitle : Parses (readString maximumTitleBytes) writeString _ := readString_parses (by decide)
  have hdescription : Parses (readString maximumDescriptionBytes) writeString _ :=
    readString_parses (by decide)
  have hword : Parses (word VolumeError.corrupt 4 32) (littleEndian 4) (fun _ => True) :=
    .word _ rfl
  have hlong : Parses (word VolumeError.corrupt 8 64) (littleEndian 8) (fun _ => True) :=
    .word _ rfl
  refine .of_rest
    (hname.bind (fun file : StoredFile => file.entry.fileId) fun fileId _ =>
    happlication.bind (fun file => file.entry.applicationId) fun applicationId _ =>
    htitle.bind (fun file => file.entry.title) fun title _ =>
    hdescription.bind (fun file => file.entry.description) fun description _ =>
    hword.bind (fun file => file.entry.userFlags) fun userFlags _ =>
    hword.bind (fun file => file.entry.allocatedBlocks) fun allocatedBlocks _ =>
    hlong.bind (fun file => file.entry.byteSize) fun byteSize _ =>
    .congr (fun file => file.payload.length = file.entry.byteSize.toNat)
      ((Parses.take VolumeError.corrupt byteSize.toNat).bind StoredFile.payload fun payload _ =>
      .pure (fun _ => True) fun file => ?_) ?_) ?_ ?_
  · constructor
    · rintro ⟨⟨rfl, rfl, rfl, rfl, rfl, rfl, rfl, rfl, -⟩, -⟩
      rfl
    · rintro rfl
      exact ⟨⟨rfl, rfl, rfl, rfl, rfl, rfl, rfl, rfl, trivial⟩, trivial⟩
  · rintro file ⟨rfl, -⟩
    exact and_iff_left trivial
  · intro file
    simp [writeFile]
  · intro file
    simp [StoredFile.Decodable]

/-- What follows the magic bytes. -/
def writeVolume (unit : NativePortSaveUnitConfig) (profileIdentity : Text)
    (volume : StoredVolume) : List Byte :=
  littleEndian 4 volumeFormatVersion ++ (littleEndian 4 unit.blockBytes ++
    (littleEndian 4 unit.blockCount ++ (writeString profileIdentity ++ (writeString unit.identity ++
      (littleEndian 4 (BitVec.ofNat 32 volume.files.length) ++ volume.files.flatMap writeFile)))))

/-- The volume fits the unit as far as the reader looks. -/
structure StoredVolume.Decodable (volume : StoredVolume) (unit : NativePortSaveUnitConfig)
    (profileIdentity : Text) : Prop where
  profile : profileIdentity.length ≤ maximumProfileIdentityBytes
  identity : unit.identity.length ≤ maximumMediumIdentityBytes
  count : volume.files.length ≤ unit.maximumFileCount.toNat
  files : ∀ file ∈ volume.files, file.Decodable

theorem readVolume_parses (unit : NativePortSaveUnitConfig) (profileIdentity : Text) :
    Parses (readVolume unit profileIdentity) (writeVolume unit profileIdentity)
      (fun volume => volume.Decodable unit profileIdentity) := by
  have hword : Parses (word VolumeError.corrupt 4 32) (littleEndian 4) (fun _ => True) :=
    .word _ rfl
  have hprofile : Parses (readString maximumProfileIdentityBytes) writeString _ :=
    readString_parses (by decide)
  have hmedium : Parses (readString maximumMediumIdentityBytes) writeString _ :=
    readString_parses (by decide)
  refine .of_rest
    (hword.bind (fun _ => volumeFormatVersion) fun format _ =>
    hword.bind (fun _ => unit.blockBytes) fun blockBytes _ =>
    hword.bind (fun _ => unit.blockCount) fun blockCount _ =>
    hprofile.bind (fun _ => profileIdentity) fun storedProfileIdentity _ =>
    hmedium.bind (fun _ => unit.identity) fun identity _ =>
    hword.bind (fun volume : StoredVolume => BitVec.ofNat 32 volume.files.length) fun fileCount _ =>
    .check (fun volume => unit.maximumFileCount.toNat < (BitVec.ofNat 32 volume.files.length).toNat)
      ?_ fun hcount =>
    .check (fun _ => False) ?_ fun hsame =>
    .congr (fun volume => volume.files.length ≤ unit.maximumFileCount.toNat ∧
        ∀ file ∈ volume.files, file.Decodable)
      ((readFile_parses.sequence fileCount.toNat).bind StoredVolume.files fun files hfiles =>
      .pure (fun _ => True) fun volume => ?_) ?_) ?_ ?_
  · rintro volume ⟨rfl, rfl, rfl, rfl, rfl, rfl, -⟩
    simp
  · rintro volume ⟨rfl, rfl, rfl, rfl, rfl, rfl, -⟩
    simp
  · simp only [not_or, not_not, not_lt] at hcount hsame
    obtain ⟨rfl, -⟩ := hcount
    obtain ⟨rfl, rfl, rfl, rfl⟩ := hsame
    constructor
    · rintro ⟨⟨rfl, -⟩, -⟩
      rfl
    · rintro rfl
      refine ⟨⟨rfl, ?_, rfl, rfl, rfl, rfl, rfl, trivial⟩, trivial⟩
      rw [hfiles.1, BitVec.ofNat_toNat, BitVec.setWidth_eq]
  · rintro volume ⟨rfl, -⟩
    have hwide := unit.maximumFileCount.isLt
    simp only [not_or, not_lt] at hcount
    rw [BitVec.toNat_ofNat] at hcount ⊢
    constructor
    · rintro ⟨⟨hlength, hall⟩, -⟩
      exact ⟨by omega, hall⟩
    · rintro ⟨hlength, hall⟩
      exact ⟨⟨by rw [Nat.mod_eq_of_lt (by omega)], hall⟩, trivial⟩
  · intro volume
    simp [writeVolume]
  · intro volume
    have hwide := unit.maximumFileCount.isLt
    constructor
    · rintro ⟨-, -, -, hprofile, hidentity, -, -, -, hlength, hall⟩
      exact ⟨hprofile, hidentity, hlength, hall⟩
    · intro h
      have hlength : volume.files.length % 2 ^ 32 = volume.files.length :=
        Nat.mod_eq_of_lt (by have := h.count; omega)
      refine ⟨trivial, trivial, trivial, h.profile, h.identity, trivial, ?_, id, h.count, h.files⟩
      rw [BitVec.toNat_ofNat, hlength, not_lt]
      exact h.count

/-! ## Well-formed volumes -/

/-- The checks on one file alone. -/
structure StoredFile.Good (unit : NativePortSaveUnitConfig) (file : StoredFile) : Prop where
  fileId : validPathIdentifier file.entry.fileId maximumFileIdBytes
  applicationId : validPathIdentifier file.entry.applicationId maximumApplicationIdBytes
  title : validText file.entry.title maximumTitleBytes
  description : validText file.entry.description maximumDescriptionBytes
  byteSize : file.entry.byteSize.toNat = file.payload.length
  blocks : file.entry.allocatedBlocks = requiredBlocks file.payload.length unit.blockBytes

def StoredFile.Before (left right : StoredFile) : Prop :=
  nameKey left.entry.fileId < nameKey right.entry.fileId

variable {file : StoredFile} {unit : NativePortSaveUnitConfig}

theorem fileIsWellFormed_iff {previous : Text} : fileIsWellFormed unit previous file = true ↔
      file.Good unit ∧ (previous = [] ∨ nameKey previous < nameKey file.entry.fileId) := by
  simp only [fileIsWellFormed, Bool.and_eq_true, Bool.or_eq_true, beq_iff_eq, decide_eq_true_eq,
    List.isEmpty_iff]
  constructor
  · rintro ⟨⟨⟨⟨⟨⟨hfileId, happlication⟩, htitle⟩, hdescription⟩, hsize⟩, hblocks⟩, horder⟩
    exact ⟨⟨hfileId, happlication, htitle, hdescription, hsize, hblocks⟩, horder⟩
  · rintro ⟨⟨hfileId, happlication, htitle, hdescription, hsize, hblocks⟩, horder⟩
    exact ⟨⟨⟨⟨⟨⟨hfileId, happlication⟩, htitle⟩, hdescription⟩, hsize⟩, hblocks⟩, horder⟩

variable {value : Text}

section
variable (h : validPathIdentifier value maximumBytes = true)
include h

theorem length_le_of_validPathIdentifier
    : value.length ≤ maximumBytes := by
  simp only [validPathIdentifier, Bool.and_eq_true, decide_eq_true_eq] at h
  exact h.1.1.1.1.2

theorem ne_nil_of_validPathIdentifier
    : value ≠ [] := by
  simp only [validPathIdentifier, Bool.and_eq_true, Bool.not_eq_true', List.isEmpty_eq_false_iff] at h
  exact h.1.1.1.1.1

end

theorem length_le_of_validText
    (h : validText value maximumBytes = true) : value.length ≤ maximumBytes := by
  simp only [validText, Bool.and_eq_true, decide_eq_true_eq] at h
  exact h.1

theorem StoredFile.Good.decodable (h : file.Good unit) : file.Decodable :=
  ⟨length_le_of_validPathIdentifier h.fileId, length_le_of_validPathIdentifier h.applicationId,
    length_le_of_validText h.title, length_le_of_validText h.description, h.byteSize.symm⟩

variable {files : List StoredFile}

theorem filesAreWellFormed_iff (previous : Text) : filesAreWellFormed unit previous files = true ↔
      (∀ file ∈ files, file.Good unit) ∧ files.Pairwise StoredFile.Before ∧
        (previous = [] ∨ ∀ file ∈ files, nameKey previous < nameKey file.entry.fileId) := by
  induction files generalizing previous with
  | nil => simp [filesAreWellFormed]
  | cons first rest ih =>
    simp only [filesAreWellFormed, Bool.and_eq_true, fileIsWellFormed_iff, ih, List.forall_mem_cons,
      List.pairwise_cons]
    constructor
    · rintro ⟨⟨hfirst, hprevious⟩, hrest, hsorted, hafter⟩
      have hname : first.entry.fileId ≠ [] := ne_nil_of_validPathIdentifier hfirst.fileId
      have hafter' : ∀ file ∈ rest, first.Before file := hafter.resolve_left hname
      refine ⟨⟨hfirst, hrest⟩, ⟨hafter', hsorted⟩, hprevious.imp_right fun hlt => ⟨hlt, ?_⟩⟩
      intro file hfile
      exact lt_trans hlt (hafter' file hfile)
    · rintro ⟨⟨hfirst, hrest⟩, ⟨hafter, hsorted⟩, hprevious⟩
      exact ⟨⟨hfirst, hprevious.imp_right And.left⟩, hrest, hsorted, .inr hafter⟩

/-- A volume as `volume_is_well_formed` accepts it. -/
structure StoredVolume.WellFormed (volume : StoredVolume) (unit : NativePortSaveUnitConfig) :
    Prop where
  count : volume.files.length ≤ unit.maximumFileCount.toNat
  used : usedBlocks volume ≤ unit.blockCount.toNat
  good : ∀ file ∈ volume.files, file.Good unit
  sorted : volume.files.Pairwise StoredFile.Before

theorem volumeIsWellFormed_iff {volume : StoredVolume} :
    volumeIsWellFormed volume unit = true ↔ volume.WellFormed unit := by
  simp only [volumeIsWellFormed, Bool.and_eq_true, decide_eq_true_eq, filesAreWellFormed_iff]
  constructor
  · rintro ⟨⟨hcount, hused⟩, hgood, hsorted, -⟩
    exact ⟨hcount, hused, hgood, hsorted⟩
  · rintro ⟨hcount, hused, hgood, hsorted⟩
    exact ⟨⟨hcount, hused⟩, hgood, hsorted, .inl trivial⟩

/-! ## Round trip -/

/-- The texts of provider and unit, as the constructor admits them. -/
structure NamesFit (unit : NativePortSaveUnitConfig) (profileIdentity : Text) : Prop where
  profile : profileIdentity.length ≤ maximumProfileIdentityBytes
  identity : unit.identity.length ≤ maximumMediumIdentityBytes

variable {unit : NativePortSaveUnitConfig} {profileIdentity : Text} {volume : StoredVolume}

theorem not_tooLong (hmaximum : maximumBytes < 2 ^ 16)
    (h : value.length ≤ maximumBytes) : tooLong value = false := by
  simp only [tooLong, decide_eq_false_iff_not]
  omega

theorem encodeVolume_of_wellFormed (hnames : NamesFit unit profileIdentity)
    (hvolume : volume.WellFormed unit) : encodeVolume volume unit profileIdentity =
      .ok (volumeMagic ++ writeVolume unit profileIdentity volume) := by
  have hfits : (tooLong profileIdentity || tooLong unit.identity || volume.files.any fun file =>
        tooLong file.entry.fileId || tooLong file.entry.applicationId || tooLong file.entry.title ||
          tooLong file.entry.description) = false := by
    rw [not_tooLong (by decide) hnames.profile, not_tooLong (by decide) hnames.identity,
      Bool.or_false, Bool.false_or, List.any_eq_false]
    intro file hfile
    obtain ⟨hfileId, happlication, htitle, hdescription, -⟩ := (hvolume.good file hfile).decodable
    rw [not_tooLong (by decide) hfileId, not_tooLong (by decide) happlication,
      not_tooLong (by decide) htitle, not_tooLong (by decide) hdescription]
    decide
  unfold encodeVolume
  rw [volumeIsWellFormed_iff.mpr hvolume, hfits]
  simp [writeVolume]

theorem decodeVolume_encoded (hnames : NamesFit unit profileIdentity)
    (hvolume : volume.WellFormed unit) :
    decodeVolume (volumeMagic ++ writeVolume unit profileIdentity volume) unit profileIdentity =
      .ok volume := by
  have hdecodable : volume.Decodable unit profileIdentity :=
    ⟨hnames.profile, hnames.identity, hvolume.count, fun file hfile =>
      (hvolume.good file hfile).decodable⟩
  have hread : readVolume unit profileIdentity (writeVolume unit profileIdentity volume) =
      .ok (volume, []) := (readVolume_parses unit profileIdentity _ _ _).mpr ⟨by simp, hdecodable⟩
  unfold decodeVolume
  rw [List.take_left, List.drop_left, hread, if_neg (not_not.mpr rfl)]
  change (if _ then _ else _) = _
  rw [volumeIsWellFormed_iff.mpr hvolume]
  rfl

/-! ## Size -/

/-- The blocks of so many bytes, without the bound of a 32-bit number. -/
def blocksOf (unit : NativePortSaveUnitConfig) (byteCount : Nat) : Nat :=
  (byteCount + unit.blockBytes.toNat - 1) / unit.blockBytes.toNat

theorem blocksOf_le_iff (hblock : 0 < unit.blockBytes.toNat) {byteCount count : Nat} :
    blocksOf unit byteCount ≤ count ↔ byteCount ≤ unit.blockBytes.toNat * count := by
  unfold blocksOf
  rw [Nat.div_le_iff_le_mul_add_pred hblock]
  omega

theorem toNat_requiredBlocks (hblock : 0 < unit.blockBytes.toNat) {byteCount : Nat}
    (hfits : byteCount ≤ unit.blockBytes.toNat * unit.blockCount.toNat) :
    (requiredBlocks byteCount unit.blockBytes).toNat = blocksOf unit byteCount := by
  have hcount := unit.blockCount.isLt
  have hle : blocksOf unit byteCount ≤ unit.blockCount.toNat := (blocksOf_le_iff hblock).mpr hfits
  unfold requiredBlocks
  split
  · rename_i hzero
    subst hzero
    unfold blocksOf
    rw [Nat.div_eq_of_lt (by omega)]
    rfl
  · rename_i hpositive
    have heq : 1 + (byteCount - 1) / unit.blockBytes.toNat = blocksOf unit byteCount := by
      unfold blocksOf
      rw [show byteCount + unit.blockBytes.toNat - 1 = byteCount - 1 + unit.blockBytes.toNat by omega,
        Nat.add_div_right _ hblock, Nat.add_comm]
    rw [heq, BitVec.toNat_ofNat, Nat.mod_eq_of_lt (by omega)]

theorem length_writeString (value : Text) : (writeString value).length = 2 + value.length := by
  simp [writeString]

theorem length_writeFile_le (hfile : file.Good unit) :
    (writeFile file).length ≤ maximumSerializedFileMetadataBytes + file.payload.length := by
  obtain ⟨hfileId, happlication, htitle, hdescription, -⟩ := hfile.decodable
  simp only [writeFile, List.length_append, length_writeString, length_littleEndian,
    maximumSerializedFileMetadataBytes]
  omega

theorem length_flatMap_writeFile_le
    (hfiles : ∀ file ∈ files, file.Good unit) : (files.flatMap writeFile).length ≤
      files.length * maximumSerializedFileMetadataBytes +
        (files.map fun file => file.payload.length).sum := by
  induction files with
  | nil => simp
  | cons first rest ih =>
    have hfirst := length_writeFile_le (hfiles first List.mem_cons_self)
    have hrest := ih fun file hfile => hfiles file (List.mem_cons_of_mem _ hfile)
    rw [List.flatMap_cons, List.length_append, List.length_cons, List.map_cons, List.sum_cons,
      Nat.succ_mul]
    omega

/-- The payloads of the files, each of them small enough for the unit, fit into their blocks. -/
theorem sum_payload_le (hblock : 0 < unit.blockBytes.toNat)
    (hfiles : ∀ file ∈ files, file.Good unit)
    (hfits : ∀ file ∈ files, file.payload.length ≤ unit.blockBytes.toNat * unit.blockCount.toNat) :
    (files.map fun file => file.payload.length).sum ≤
      unit.blockBytes.toNat * (files.map fun file => file.entry.allocatedBlocks.toNat).sum := by
  induction files with
  | nil => simp
  | cons first rest ih =>
    have hrest := ih (fun file hfile => hfiles file (List.mem_cons_of_mem _ hfile))
      fun file hfile => hfits file (List.mem_cons_of_mem _ hfile)
    have hblocks : first.entry.allocatedBlocks.toNat = blocksOf unit first.payload.length := by
      rw [(hfiles first List.mem_cons_self).blocks]
      exact toNat_requiredBlocks hblock (hfits first List.mem_cons_self)
    have hfirst : first.payload.length ≤
        unit.blockBytes.toNat * first.entry.allocatedBlocks.toNat :=
      (blocksOf_le_iff hblock).mp hblocks.ge
    rw [List.map_cons, List.sum_cons, List.map_cons, List.sum_cons, Nat.mul_add]
    omega

/-- The number of blocks is too small for the sum to be cut off. -/
theorem usedBlocks_le_iff (hcount : unit.blockCount.toNat ≤ maximumBlockCount) :
    usedBlocks volume ≤ unit.blockCount.toNat ↔
      (volume.files.map fun file => file.entry.allocatedBlocks.toNat).sum ≤
        unit.blockCount.toNat := by
  have hsmall : unit.blockCount.toNat < 2 ^ 32 - 1 := lt_of_le_of_lt hcount (by decide)
  unfold usedBlocks
  rw [min_le_iff]
  omega

theorem length_encoded_le (hnames : NamesFit unit profileIdentity)
    (hblock : 0 < unit.blockBytes.toNat) (hcount : unit.blockCount.toNat ≤ maximumBlockCount)
    (hvolume : volume.WellFormed unit) (hfits : ∀ file ∈ volume.files,
      file.payload.length ≤ unit.blockBytes.toNat * unit.blockCount.toNat) :
    (volumeMagic ++ writeVolume unit profileIdentity volume).length ≤ maximumSerialized unit := by
  have hprofile := hnames.profile
  have hidentity := hnames.identity
  have hfiles := length_flatMap_writeFile_le hvolume.good
  have hpayload : (volume.files.map fun file => file.payload.length).sum ≤
      unit.blockBytes.toNat * unit.blockCount.toNat :=
    (sum_payload_le hblock hvolume.good hfits).trans
      (Nat.mul_le_mul_left _ ((usedBlocks_le_iff hcount).mp hvolume.used))
  have hmetadata : volume.files.length * maximumSerializedFileMetadataBytes ≤
      unit.maximumFileCount.toNat * maximumSerializedFileMetadataBytes :=
    Nat.mul_le_mul_right _ hvolume.count
  have hmagic : volumeMagic.length = 8 := rfl
  simp only [writeVolume, List.length_append, length_writeString, length_littleEndian,
    maximumSerialized, maximumSerializedVolumeHeaderBytes, hmagic]
  omega

end KatanaRecomp.Runtime.NativePortSave
