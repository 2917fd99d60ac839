import KatanaRecomp.Lib.ByteSequence
import KatanaRecomp.Lib.KeyedList

/-! # The save provider

`NativePortSaveProvider` keeps the files of a memory unit in one volume, which
every request decodes from the platform store and a write or remove encodes
again. The platform is a parameter: what it answers to the load and to the store
of a request is part of the request's circumstances, except that it refuses a
payload over its budget and otherwise replaces the payload as a whole. The check
of the owner thread and the completion callback are left out. -/
namespace KatanaRecomp.Runtime.NativePortSave
open Lib.ByteFormat

abbrev Text := List Byte

def maximumProfileIdentityBytes : Nat := 128

def maximumMediumIdentityBytes : Nat := 96

def maximumFileIdBytes : Nat := 64

def maximumApplicationIdBytes : Nat := 64

def maximumTitleBytes : Nat := 128

def maximumDescriptionBytes : Nat := 256

def maximumBlockBytes : Nat := 64 * 1024

def maximumBlockCount : Nat := 16384

def maximumFileCount : Nat := 512

def maximumSerializedVolumeHeaderBytes : Nat :=
  8 + 4 + 4 + 4 + 2 + maximumProfileIdentityBytes + 2 + maximumMediumIdentityBytes + 4

def maximumSerializedFileMetadataBytes : Nat :=
  2 + maximumFileIdBytes + 2 + maximumApplicationIdBytes + 2 + maximumTitleBytes + 2 +
    maximumDescriptionBytes + 4 + 4 + 8

/-- `KNSVOL`, 1, 0. -/
def volumeMagic : List Byte := [0x4B, 0x4E, 0x53, 0x56, 0x4F, 0x4C, 0x01, 0x00]

def volumeFormatVersion : BitVec 32 := 1

/-! ## Identifiers and texts -/

def identifierCharacter (character : Byte) : Bool :=
  (0x61 ≤ character && character ≤ 0x7A) || (0x41 ≤ character && character ≤ 0x5A) ||
    (0x30 ≤ character && character ≤ 0x39) || character == 0x2D || character == 0x5F ||
    character == 0x2E

/-- Two full stops in a row. -/
def hasDots : Text → Bool
  | 0x2E :: 0x2E :: _ => true
  | _ :: rest => hasDots rest
  | [] => false

def validPathIdentifier (value : Text) (maximumBytes : Nat) : Bool :=
  !value.isEmpty && value.length ≤ maximumBytes && value.head? != some 0x2E &&
    value.getLast? != some 0x2E && !hasDots value && value.all identifierCharacter

def validText (value : Text) (maximumBytes : Nat) : Bool := value.length ≤ maximumBytes &&
    value.all fun character => character == 0x09 || (0x20 ≤ character && character != 0x7F)

def validIdentity (value : Text) (maximumBytes : Nat) : Bool :=
  !value.isEmpty && validText value maximumBytes

/-! ## Units and requests -/

structure NativePortSaveEndpoint where
  controllerIndex : BitVec 8
  storageIndex : BitVec 8
  deriving DecidableEq

structure NativePortSaveUnitConfig where
  endpoint : NativePortSaveEndpoint
  identity : Text
  present : Bool := false
  writable : Bool := true
  blockBytes : BitVec 32 := 512
  blockCount : BitVec 32 := 200
  maximumFileCount : BitVec 32 := 32

inductive NativePortSaveError
  | none | absent | notFound | alreadyExists | invalidArgument | readOnly | insufficientBlocks
  | directoryFull | bufferTooSmall | generationConflict | corrupt | incompatible | resourceLimit
  | platformFailure
  deriving DecidableEq

structure NativePortSaveFileMetadata where
  fileId : Text
  applicationId : Text
  title : Text
  description : Text
  userFlags : BitVec 32 := 0
  deriving DecidableEq

structure NativePortSaveDirectoryEntry where
  fileId : Text
  applicationId : Text
  title : Text
  description : Text
  userFlags : BitVec 32
  allocatedBlocks : BitVec 32
  byteSize : BitVec 64

structure StoredFile where
  entry : NativePortSaveDirectoryEntry
  payload : List Byte

structure StoredVolume where
  files : List StoredFile := []

def validEndpoint (endpoint : NativePortSaveEndpoint) : Bool :=
  endpoint.controllerIndex.toNat < 4 && endpoint.storageIndex.toNat < 6

def validMetadata (metadata : NativePortSaveFileMetadata) : Bool :=
  validPathIdentifier metadata.fileId maximumFileIdBytes &&
    validPathIdentifier metadata.applicationId maximumApplicationIdBytes &&
    validText metadata.title maximumTitleBytes &&
    validText metadata.description maximumDescriptionBytes

def requiredBlocks (byteCount : Nat) (blockBytes : BitVec 32) : BitVec 32 :=
  if byteCount = 0 then 0 else BitVec.ofNat 32 (1 + (byteCount - 1) / blockBytes.toNat)

/-- The sum of the blocks, capped as a 32-bit number. -/
def usedBlocks (volume : StoredVolume) : Nat :=
  min (volume.files.map fun file => file.entry.allocatedBlocks.toNat).sum (2 ^ 32 - 1)

/-- The order of file names: by bytes, from the first one. -/
def nameKey (name : Text) : List Nat := name.map BitVec.toNat

def fileIsWellFormed (unit : NativePortSaveUnitConfig) (previous : Text) (file : StoredFile) : Bool :=
  validPathIdentifier file.entry.fileId maximumFileIdBytes &&
    validPathIdentifier file.entry.applicationId maximumApplicationIdBytes &&
    validText file.entry.title maximumTitleBytes &&
    validText file.entry.description maximumDescriptionBytes &&
    file.entry.byteSize.toNat == file.payload.length &&
    file.entry.allocatedBlocks == requiredBlocks file.payload.length unit.blockBytes &&
    (previous.isEmpty || decide (nameKey previous < nameKey file.entry.fileId))

def filesAreWellFormed (unit : NativePortSaveUnitConfig) (previous : Text) : List StoredFile → Bool
  | [] => true
  | file :: rest =>
    fileIsWellFormed unit previous file && filesAreWellFormed unit file.entry.fileId rest

def volumeIsWellFormed (volume : StoredVolume) (unit : NativePortSaveUnitConfig) : Bool :=
  volume.files.length ≤ unit.maximumFileCount.toNat && usedBlocks volume ≤ unit.blockCount.toNat &&
    filesAreWellFormed unit [] volume.files

/-! ## The volume as bytes -/

/-- Two bytes of length and the characters. -/
def writeString (value : Text) : List Byte := littleEndian 2 (BitVec.ofNat 16 value.length) ++ value

def writeFile (file : StoredFile) : List Byte :=
  writeString file.entry.fileId ++ writeString file.entry.applicationId ++
    writeString file.entry.title ++ writeString file.entry.description ++
    littleEndian 4 file.entry.userFlags ++ littleEndian 4 file.entry.allocatedBlocks ++
    littleEndian 8 file.entry.byteSize ++ file.payload

/-- What the encoding of a volume throws. -/
inductive EncodeError
  | volume | string

def tooLong (value : Text) : Bool := value.length > 2 ^ 16 - 1

def encodeVolume (volume : StoredVolume) (unit : NativePortSaveUnitConfig)
    (profileIdentity : Text) : Except EncodeError (List Byte) :=
  if !volumeIsWellFormed volume unit then .error .volume
  else if tooLong profileIdentity || tooLong unit.identity || volume.files.any fun file =>
        tooLong file.entry.fileId || tooLong file.entry.applicationId || tooLong file.entry.title ||
          tooLong file.entry.description then
    .error .string
  else .ok (volumeMagic ++ littleEndian 4 volumeFormatVersion ++ littleEndian 4 unit.blockBytes ++
      littleEndian 4 unit.blockCount ++ writeString profileIdentity ++ writeString unit.identity ++
      littleEndian 4 (BitVec.ofNat 32 volume.files.length) ++ volume.files.flatMap writeFile)

inductive VolumeError
  | corrupt | incompatible

def readString (maximumBytes : Nat) : Reader VolumeError Text := do
  let size ← word .corrupt 2 16
  reject (size.toNat > maximumBytes) .corrupt
  take .corrupt size.toNat

def readFile : Reader VolumeError StoredFile := do
  let fileId ← readString maximumFileIdBytes
  let applicationId ← readString maximumApplicationIdBytes
  let title ← readString maximumTitleBytes
  let description ← readString maximumDescriptionBytes
  let userFlags ← word .corrupt 4 32
  let allocatedBlocks ← word .corrupt 4 32
  let byteSize ← word .corrupt 8 64
  let payload ← take .corrupt byteSize.toNat
  pure
    { entry :=
        { fileId, applicationId, title, description, userFlags, allocatedBlocks, byteSize }
      payload }

def readVolume (unit : NativePortSaveUnitConfig) (profileIdentity : Text) :
    Reader VolumeError StoredVolume := do
  let format ← word .corrupt 4 32
  let blockBytes ← word .corrupt 4 32
  let blockCount ← word .corrupt 4 32
  let storedProfileIdentity ← readString maximumProfileIdentityBytes
  let identity ← readString maximumMediumIdentityBytes
  let fileCount ← word .corrupt 4 32
  reject (format ≠ volumeFormatVersion ∨ fileCount.toNat > unit.maximumFileCount.toNat) .corrupt
  reject (blockBytes ≠ unit.blockBytes ∨ blockCount ≠ unit.blockCount ∨
    storedProfileIdentity ≠ profileIdentity ∨ identity ≠ unit.identity) .incompatible
  let files ← sequence readFile fileCount.toNat
  pure { files }

def decodeVolume (bytes : List Byte) (unit : NativePortSaveUnitConfig) (profileIdentity : Text) :
    Except VolumeError StoredVolume :=
  if bytes.take volumeMagic.length ≠ volumeMagic then .error .corrupt
  else do
    let (volume, rest) ← readVolume unit profileIdentity (bytes.drop volumeMagic.length)
    if rest ≠ [] ∨ volumeIsWellFormed volume unit = false then .error .corrupt else pure volume

/-! ## The provider -/

structure NativePortSaveProvider where
  profileIdentity : Text
  units : List NativePortSaveUnitConfig
  maximumSavePayloadBytes : Nat

inductive ConfigError
  | config | backend | unitConfig | duplicateEndpoint | unitCapacity

/-- The longest volume of a unit. -/
def maximumSerialized (unit : NativePortSaveUnitConfig) : Nat :=
  unit.blockBytes.toNat * unit.blockCount.toNat + maximumSerializedVolumeHeaderBytes +
    unit.maximumFileCount.toNat * maximumSerializedFileMetadataBytes

def checkUnit (maximumSavePayloadBytes : Nat) (before : List NativePortSaveUnitConfig)
    (unit : NativePortSaveUnitConfig) : Except ConfigError Unit :=
  if !validEndpoint unit.endpoint || unit.blockBytes == 0 ||
      unit.blockBytes.toNat > maximumBlockBytes || unit.blockCount == 0 ||
      unit.blockCount.toNat > maximumBlockCount || unit.maximumFileCount == 0 ||
      unit.maximumFileCount.toNat > maximumFileCount ||
      (unit.present && !validIdentity unit.identity maximumMediumIdentityBytes) then
    .error .unitConfig
  else if before.any fun previous => previous.endpoint == unit.endpoint then
    .error .duplicateEndpoint
  else if maximumSerialized unit > maximumSavePayloadBytes then .error .unitCapacity
  else .ok ()

def checkUnits (maximumSavePayloadBytes : Nat) (before : List NativePortSaveUnitConfig) :
    List NativePortSaveUnitConfig → Except ConfigError Unit
  | [] => .ok ()
  | unit :: rest => do
    checkUnit maximumSavePayloadBytes before unit
    checkUnits maximumSavePayloadBytes (before ++ [unit]) rest

/-- The constructor; version and provider name are checked like the profile identity and do not
matter afterwards. -/
def NativePortSaveProvider.create (validContract : Bool) (profileIdentity : Text)
    (units : List NativePortSaveUnitConfig) (nativeSaveBackend : Bool)
    (maximumSavePayloadBytes : Nat) : Except ConfigError NativePortSaveProvider := do
  if !validContract || !validIdentity profileIdentity maximumProfileIdentityBytes ||
      units.length > 4 * 6 then
    .error .config
  else if !nativeSaveBackend || maximumSavePayloadBytes == 0 then .error .backend
  else do
    checkUnits maximumSavePayloadBytes [] units
    pure { profileIdentity, units, maximumSavePayloadBytes }

/-! ## The platform store -/

/-- What is stored for a unit: nothing yet, or a payload with its generation. -/
abbrev Slot := Option (List Byte × BitVec 64)

/-- What a call of the platform or of the allocator can throw. -/
inductive Thrown
  | platform (code : BitVec 32)
  | badAlloc
  | other

/-- How the platform answers within one request. -/
structure Circumstances where
  loadThrows : Option Thrown := none
  /-- Memory runs out while the loaded payload is decoded. -/
  decodeFails : Bool := false
  /-- Memory runs out while the provider copies. -/
  memoryFails : Bool := false
  /-- The store throws, or returns this generation. -/
  store : Except Thrown (BitVec 64)

structure LoadedVolume where
  error : NativePortSaveError := .none
  generation : BitVec 64 := 0
  platformErrorCode : BitVec 32 := 0
  volume : StoredVolume := {}

def LoadedVolume.ofThrown : Thrown → LoadedVolume
  | .platform code => { error := .platformFailure, platformErrorCode := code }
  | .badAlloc => { error := .resourceLimit }
  | .other => { error := .platformFailure }

def loadVolume (provider : NativePortSaveProvider) (unit : NativePortSaveUnitConfig) (slot : Slot)
    (circumstances : Circumstances) : LoadedVolume :=
  match circumstances.loadThrows, slot with
  | some thrown, _ => .ofThrown thrown
  | none, none => {}
  | none, some (payload, generation) =>
    if circumstances.decodeFails then { error := .resourceLimit, generation }
    else match decodeVolume payload unit provider.profileIdentity with
    | .ok volume => { generation, volume }
    | .error .corrupt => { error := .corrupt, generation }
    | .error .incompatible => { error := .incompatible, generation }

/-- The platform refuses a payload over its budget; a store that throws keeps the old one. -/
def storeSave (provider : NativePortSaveProvider) (slot : Slot) (payload : List Byte)
    (circumstances : Circumstances) : Except Thrown (BitVec 64) × Slot :=
  if payload.length > provider.maximumSavePayloadBytes then (.error (.platform 0), slot)
  else match circumstances.store with
    | .error thrown => (.error thrown, slot)
    | .ok generation => (.ok generation, some (payload, generation))

def storeVolume (provider : NativePortSaveProvider) (unit : NativePortSaveUnitConfig) (slot : Slot)
    (volume : StoredVolume) (circumstances : Circumstances) : LoadedVolume × Slot :=
  match encodeVolume volume unit provider.profileIdentity with
  | .error .volume => ({ error := .platformFailure }, slot)
  | .error .string => ({ error := .resourceLimit }, slot)
  | .ok bytes =>
    match storeSave provider slot bytes circumstances with
    | (.error thrown, slot) => (.ofThrown thrown, slot)
    | (.ok generation, slot) =>
      ({ error := if generation = 0 then .platformFailure else .none, generation }, slot)

/-! ## Requests -/

structure NativePortSaveUnitStatus where
  present : Bool := false
  writable : Bool := false
  blockBytes : BitVec 32 := 0
  blockCount : BitVec 32 := 0
  usedBlocks : Nat := 0
  freeBlocks : Nat := 0
  directoryEntries : Nat := 0
  generation : BitVec 64 := 0

structure NativePortSaveResult where
  error : NativePortSaveError := .none
  generation : BitVec 64 := 0
  transferredBytes : Nat := 0
  requiredBytes : Nat := 0
  platformErrorCode : BitVec 32 := 0
  status : NativePortSaveUnitStatus := {}
  /-- The entries of a list. -/
  entries : List NativePortSaveDirectoryEntry := []
  /-- What a read copied to the destination. -/
  data : List Byte := []

def makeStatus (unit : NativePortSaveUnitConfig) (volume : StoredVolume) (generation : BitVec 64) :
    NativePortSaveUnitStatus :=
  { present := unit.present
    writable := unit.writable
    blockBytes := unit.blockBytes
    blockCount := unit.blockCount
    usedBlocks := usedBlocks volume
    freeBlocks := unit.blockCount.toNat - usedBlocks volume
    directoryEntries := volume.files.length
    generation }

def nativePortSaveAnyGeneration : BitVec 64 := 0xFFFFFFFFFFFFFFFF

def generationMatches (expected actual : BitVec 64) : Bool :=
  expected == nativePortSaveAnyGeneration || expected == actual

def findUnit (provider : NativePortSaveProvider) (endpoint : NativePortSaveEndpoint) :
    Option NativePortSaveUnitConfig :=
  if !validEndpoint endpoint then none
  else provider.units.find? fun unit => unit.endpoint == endpoint

def findFile (volume : StoredVolume) (fileId : Text) : Option StoredFile :=
  volume.files.find? fun file => file.entry.fileId == fileId

/-- The completion of a request that has loaded the volume. -/
def afterLoad (unit : NativePortSaveUnitConfig) (loaded : LoadedVolume) : NativePortSaveResult :=
  { error := loaded.error
    generation := loaded.generation
    platformErrorCode := loaded.platformErrorCode
    status := makeStatus unit loaded.volume loaded.generation }

structure NativePortSaveReadRequest where
  fileId : Text
  destinationSize : Nat
  byteOffset : BitVec 64 := 0
  byteCount : BitVec 64 := 0
  expectedGeneration : BitVec 64 := nativePortSaveAnyGeneration

structure NativePortSaveWriteRequest where
  metadata : NativePortSaveFileMetadata
  payload : List Byte
  expectedGeneration : BitVec 64 := nativePortSaveAnyGeneration
  replaceExisting : Bool := true

structure NativePortSaveRemoveRequest where
  fileId : Text
  expectedGeneration : BitVec 64 := nativePortSaveAnyGeneration

inductive Request
  | query
  | list (expectedGeneration : BitVec 64)
  | read (request : NativePortSaveReadRequest)
  | write (request : NativePortSaveWriteRequest)
  | remove (request : NativePortSaveRemoveRequest)

/-- How many bytes a read asks for; zero stands for all that remain. -/
def NativePortSaveReadRequest.requested (request : NativePortSaveReadRequest) (remaining : Nat) :
    Nat :=
  if request.byteCount = 0 then remaining else request.byteCount.toNat

/-- The part of a file that a read asks for. -/
def readFound (result : NativePortSaveResult) (request : NativePortSaveReadRequest)
    (found : StoredFile) : NativePortSaveResult :=
  if request.byteOffset.toNat > found.payload.length then { result with error := .invalidArgument }
  else
    let remaining := found.payload.length - request.byteOffset.toNat
    let requested := request.requested remaining
    if requested > remaining then { result with error := .invalidArgument }
    else if request.destinationSize < requested then
      { result with error := .bufferTooSmall, requiredBytes := requested }
    else
      { result with
        requiredBytes := requested
        transferredBytes := requested
        data := (found.payload.drop request.byteOffset.toNat).take requested }

def newFile (unit : NativePortSaveUnitConfig) (request : NativePortSaveWriteRequest) : StoredFile :=
  { entry :=
      { fileId := request.metadata.fileId
        applicationId := request.metadata.applicationId
        title := request.metadata.title
        description := request.metadata.description
        userFlags := request.metadata.userFlags
        allocatedBlocks := requiredBlocks request.payload.length unit.blockBytes
        byteSize := BitVec.ofNat 64 request.payload.length }
    payload := request.payload }

/-- The order of `std::sort` on files. -/
def StoredFile.notAbove (left right : StoredFile) : Prop :=
  ¬ nameKey right.entry.fileId < nameKey left.entry.fileId

instance : DecidableRel StoredFile.notAbove := fun left right =>
  inferInstanceAs (Decidable (¬ nameKey right.entry.fileId < nameKey left.entry.fileId))

def sortFiles (volume : StoredVolume) : StoredVolume :=
  { files := volume.files.insertionSort StoredFile.notAbove }

/-- The file with this name is overwritten in place. -/
def replaceFile (file : StoredFile) : List StoredFile → List StoredFile
  | [] => []
  | first :: rest =>
    if first.entry.fileId == file.entry.fileId then file :: rest else first :: replaceFile file rest

/-- The volume with the new file, where the directory has room for it. -/
def insertFile (unit : NativePortSaveUnitConfig) (volume : StoredVolume) (file : StoredFile) :
    Except NativePortSaveError StoredVolume :=
  match findFile volume file.entry.fileId with
  | some _ => .ok { files := replaceFile file volume.files }
  | none =>
    if volume.files.length = unit.maximumFileCount.toNat then .error .directoryFull
    else .ok { files := volume.files ++ [file] }

/-- The result of a store, after the volume was edited. -/
def afterStore (unit : NativePortSaveUnitConfig) (result : NativePortSaveResult)
    (volume : StoredVolume) (stored : LoadedVolume) (transferred : Nat) : NativePortSaveResult :=
  let result :=
    { result with
      error := stored.error
      generation := stored.generation
      platformErrorCode := stored.platformErrorCode }
  if stored.error = .none then
    { result with
      transferredBytes := transferred
      status := makeStatus unit volume stored.generation }
  else result

def writeLoaded (provider : NativePortSaveProvider) (unit : NativePortSaveUnitConfig) (slot : Slot)
    (circumstances : Circumstances) (request : NativePortSaveWriteRequest) (loaded : LoadedVolume) :
    NativePortSaveResult × Slot :=
  let result := afterLoad unit loaded
  if (findFile loaded.volume request.metadata.fileId).isSome && !request.replaceExisting then
    ({ result with error := .alreadyExists }, slot)
  else if circumstances.memoryFails then ({ result with error := .resourceLimit }, slot)
  else match insertFile unit loaded.volume (newFile unit request) with
    | .error error => ({ result with error }, slot)
    | .ok volume =>
      let volume := sortFiles volume
      if !volumeIsWellFormed volume unit then ({ result with error := .insufficientBlocks }, slot)
      else
        let (stored, slot) := storeVolume provider unit slot volume circumstances
        (afterStore unit result volume stored request.payload.length, slot)

def removeLoaded (provider : NativePortSaveProvider) (unit : NativePortSaveUnitConfig) (slot : Slot)
    (circumstances : Circumstances) (request : NativePortSaveRemoveRequest)
    (loaded : LoadedVolume) : NativePortSaveResult × Slot :=
  let result := afterLoad unit loaded
  match findFile loaded.volume request.fileId with
  | none => ({ result with error := .notFound }, slot)
  | some found =>
    let volume : StoredVolume :=
      { files := loaded.volume.files.eraseP fun file => file.entry.fileId == request.fileId }
    let (stored, slot) := storeVolume provider unit slot volume circumstances
    (afterStore unit result volume stored found.payload.length, slot)

def listLoaded (unit : NativePortSaveUnitConfig) (slot : Slot) (circumstances : Circumstances)
    (loaded : LoadedVolume) : NativePortSaveResult × Slot :=
  if circumstances.memoryFails then ({ afterLoad unit loaded with error := .resourceLimit }, slot)
  else ({ afterLoad unit loaded with entries := loaded.volume.files.map StoredFile.entry }, slot)

def readLoaded (unit : NativePortSaveUnitConfig) (slot : Slot) (request : NativePortSaveReadRequest)
    (loaded : LoadedVolume) : NativePortSaveResult × Slot :=
  match findFile loaded.volume request.fileId with
  | none => ({ afterLoad unit loaded with error := .notFound }, slot)
  | some found => (readFound (afterLoad unit loaded) request found, slot)

/-- A request continues after the load when it succeeded with the expected generation. -/
def whenLoaded (unit : NativePortSaveUnitConfig) (slot : Slot) (loaded : LoadedVolume)
    (expectedGeneration : BitVec 64) (proceed : NativePortSaveResult × Slot) :
    NativePortSaveResult × Slot :=
  if loaded.error ≠ .none then (afterLoad unit loaded, slot)
  else if !generationMatches expectedGeneration loaded.generation then
    ({ afterLoad unit loaded with error := .generationConflict }, slot)
  else proceed

def perform (provider : NativePortSaveProvider) (endpoint : NativePortSaveEndpoint) (slot : Slot)
    (circumstances : Circumstances) (request : Request) : NativePortSaveResult × Slot :=
  if !validEndpoint endpoint then ({ error := .invalidArgument }, slot)
  else match findUnit provider endpoint with
    | none => ({ error := .absent }, slot)
    | some unit =>
      if !unit.present then ({ error := .absent }, slot)
      else
        let loaded := loadVolume provider unit slot circumstances
        match request with
        | .query => (afterLoad unit loaded, slot)
        | .list expectedGeneration =>
          whenLoaded unit slot loaded expectedGeneration (listLoaded unit slot circumstances loaded)
        | .read request =>
          if !validPathIdentifier request.fileId maximumFileIdBytes then
            ({ error := .invalidArgument }, slot)
          else
            whenLoaded unit slot loaded request.expectedGeneration
              (readLoaded unit slot request loaded)
        | .write request =>
          if !unit.writable then ({ error := .readOnly }, slot)
          else if !validMetadata request.metadata then ({ error := .invalidArgument }, slot)
          else if request.payload.length > unit.blockBytes.toNat * unit.blockCount.toNat then
            ({ error := .insufficientBlocks }, slot)
          else
            whenLoaded unit slot loaded request.expectedGeneration
              (writeLoaded provider unit slot circumstances request loaded)
        | .remove request =>
          if !unit.writable then ({ error := .readOnly }, slot)
          else if !validPathIdentifier request.fileId maximumFileIdBytes then
            ({ error := .invalidArgument }, slot)
          else
            whenLoaded unit slot loaded request.expectedGeneration
              (removeLoaded provider unit slot circumstances request loaded)

/-- The stored slots of all units; a request touches the one of its endpoint. -/
abbrev Storage := NativePortSaveEndpoint → Slot

structure Step where
  endpoint : NativePortSaveEndpoint
  circumstances : Circumstances
  request : Request

def step (provider : NativePortSaveProvider) (storage : Storage) (s : Step) : Storage :=
  Function.update storage s.endpoint
    (perform provider s.endpoint (storage s.endpoint) s.circumstances s.request).2

def run (provider : NativePortSaveProvider) (storage : Storage) (steps : List Step) : Storage :=
  steps.foldl (step provider) storage

end KatanaRecomp.Runtime.NativePortSave
