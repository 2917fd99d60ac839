import KatanaRecomp.Lib.ByteFormat
import KatanaRecomp.Lib.CrashDisk

/-! # Persistent working copies

A `PersistentImage` is the working copy of a read-only source (a flash or VMU
image). It lives in a container file with the hashes of the source and of the
payload. `publish` never writes the container in place: it writes a temporary
file, moves the old container aside as the recovery file, and renames the
temporary one. `load` falls back to the recovery file. -/
namespace KatanaRecomp.Runtime.PersistentStorage
open Lib ByteFormat CrashDisk

inductive StorageError
  | badSize | badSignature | badContract | truncated | badIdentity
  | sourceMissing | sourceSize | sourceChanged
  | outsideImage
  | noTemporaryPath | notWritten | recoveryNotRemoved
  | filesystem
  deriving DecidableEq

abbrev Bytes := List Byte

/-- The configuration as the constructor lets it through; the length bound is that of a vector. -/
structure PersistentImageConfig where
  kind : Bytes
  hasSource : Bool
  expectedSize : Nat
  erasedValue : Byte := 0xFF
  sourceLessInitialWorkingCopy : Option Bytes := none
  kind_size : kind.length ≤ 32
  expectedSize_pos : 0 < expectedSize
  expectedSize_lt : expectedSize < 2 ^ 63
  initial_size : ∀ initial ∈ sourceLessInitialWorkingCopy,
    hasSource = false ∧ initial.length = expectedSize

/-! ## The container -/

section

-- `katana::io::sha256_bytes`, as the 64 characters of its text.
variable (sha256 : Bytes → Bytes)

/-- `KATWCP1\n`. -/
def containerMagic : Bytes := [0x4B, 0x41, 0x54, 0x57, 0x43, 0x50, 0x31, 0x0A]

def contractVersion : BitVec 32 := 1

def sha256TextSize : Nat := 64

def fixedHeaderSize : Nat := containerMagic.length + 4 + 4 + 8 + sha256TextSize + sha256TextSize

def encodeContainer (config : PersistentImageConfig) (sourceSha256 payload : Bytes) : Bytes :=
  [ containerMagic, littleEndian 4 contractVersion,
    littleEndian 4 (BitVec.ofNat 32 config.kind.length),
    littleEndian 8 (BitVec.ofNat 64 payload.length), sourceSha256, sha256 payload, config.kind,
    payload ].flatten

def slice (bytes : Bytes) (offset size : Nat) : Bytes := (bytes.drop offset).take size

/-- `decode_container` on the content of the file. -/
def decodeContainer (config : PersistentImageConfig) (sourceSha256 bytes : Bytes) :
    Except StorageError Bytes :=
  if bytes.length > fixedHeaderSize + config.kind.length + config.expectedSize then .error .badSize
  else if bytes.length < fixedHeaderSize ∨ slice bytes 0 8 ≠ containerMagic then
    .error .badSignature
  else
    let version : BitVec 32 := assemble 32 0 (slice bytes 8 4)
    let kindSize : BitVec 32 := assemble 32 0 (slice bytes 12 4)
    let payloadSize : BitVec 64 := assemble 64 0 (slice bytes 16 8)
    if version ≠ contractVersion ∨ kindSize.toNat ≠ config.kind.length ∨
        payloadSize.toNat ≠ config.expectedSize then
      .error .badContract
    else
      let kindOffset := 24 + sha256TextSize + sha256TextSize
      let payloadOffset := kindOffset + kindSize.toNat
      if payloadOffset > bytes.length ∨ payloadSize.toNat ≠ bytes.length - payloadOffset then
        .error .truncated
      else
        let payload := bytes.drop payloadOffset
        if slice bytes 24 sha256TextSize ≠ sourceSha256 ∨
            slice bytes kindOffset kindSize.toNat ≠ config.kind ∨
            slice bytes (24 + sha256TextSize) sha256TextSize ≠ sha256 payload then
          .error .badIdentity
        else .ok payload

end

/-! ## The files -/

inductive FileName
  | source | working | recovery
  | temporary (attempt : Nat)
  deriving DecidableEq

abbrev StorageM := DiskM FileName Bytes StorageError

abbrev StorageFiles := Files FileName Bytes

inductive PersistentImageRecovery
  | createdFromSource | loadedPrimary | restoredRecovery
  deriving DecidableEq

structure PersistentImage where
  source : Bytes
  working : Bytes
  sourceSha256 : Bytes
  recovery : PersistentImageRecovery
  saveCount : BitVec 64 := 0
  dirty : Bool := false
  deriving DecidableEq

/-- The first free name of the 1024. -/
@[irreducible] def freeTemporary (files : StorageFiles) : Option Nat :=
  (List.range 1024).map (· + 1) |>.find? fun attempt => (files (.temporary attempt)).isNone

def temporaryPath : StorageM FileName := do
  let disk ← get
  match freeTemporary disk.files with
  | some attempt => pure (.temporary attempt)
  | none => raise .noTemporaryPath

def fileExists (name : FileName) : StorageM Bool := do
  let disk ← get
  pure (disk.files name).isSome

/-- The old container out of the way: aside when it is to be kept, else removed. -/
def clearPrimary (preservePrimary : Bool) : StorageM Bool := do
  let present ← fileExists .working
  if preservePrimary && present then do
    removeFile .recoveryNotRemoved .recovery
    renameFile .filesystem .working .recovery
    pure true
  else if present then do
    removeFile .filesystem .working
    pure false
  else pure false

/-- The temporary file takes its place; if that fails the kept container goes back. -/
def install (temporary : FileName) (movedPrimary : Bool) : StorageM Unit :=
  onThrow (renameFile .filesystem temporary .working) fun error => do
    let present ← fileExists .working
    if movedPrimary && !present then ignoring (renameFile .filesystem .recovery .working)
    else pure ()
    raise error

section
variable (sha256 : Bytes → Bytes)

/-- `publish`; after the last rename the process may still stop before the caller goes on. -/
def publish (config : PersistentImageConfig) (image : PersistentImage) (preservePrimary : Bool) :
    StorageM Unit := do
  attempt .filesystem id
  let temporary ← temporaryPath
  onThrow
    (do
      writeFile .notWritten temporary (encodeContainer sha256 config image.sourceSha256 image.working)
      let movedPrimary ← clearPrimary preservePrimary
      install temporary movedPrimary)
    fun error => do
      ignoring (removeFile .filesystem temporary)
      raise error
  checkpoint

/-- The source of the configuration, or an erased image of its size. -/
def readSource (config : PersistentImageConfig) (files : StorageFiles) : Except StorageError Bytes :=
  if config.hasSource then
    match files .source with
    | none => .error .sourceMissing
    | some source =>
      if source.length > config.expectedSize then .error .badSize
      else if source.length ≠ config.expectedSize then .error .sourceSize
      else .ok source
  else .ok (List.replicate config.expectedSize config.erasedValue)

def liftExcept {α : Type} (result : Except StorageError α) : StorageM α :=
  match result with
  | .ok value => pure value
  | .error error => raise error

/-- The branch of `load` without a usable working file. -/
def loadWithoutPrimary (config : PersistentImageConfig) (source : Bytes) :
    StorageM PersistentImage := do
  let disk ← get
  match disk.files .recovery with
  | some bytes => do
    let working ← liftExcept (decodeContainer sha256 config (sha256 source) bytes)
    let image : PersistentImage :=
      { source, working, sourceSha256 := sha256 source, recovery := .restoredRecovery }
    publish sha256 config image false
    pure image
  | none => do
    let image : PersistentImage :=
      { source
        working := config.sourceLessInitialWorkingCopy.getD source
        sourceSha256 := sha256 source
        recovery := .createdFromSource }
    publish sha256 config image false
    pure image

def load (config : PersistentImageConfig) : StorageM PersistentImage := do
  let disk ← get
  let source ← liftExcept (readSource config disk.files)
  match disk.files .working with
  | some bytes =>
    match decodeContainer sha256 config (sha256 source) bytes with
    | .ok working =>
      pure { source, working, sourceSha256 := sha256 source, recovery := .loadedPrimary }
    | .error error =>
      if (disk.files .recovery).isNone then raise error
      else loadWithoutPrimary sha256 config source
  | none => loadWithoutPrimary sha256 config source

def verifySourceUnchanged (config : PersistentImageConfig) (image : PersistentImage)
    (files : StorageFiles) : Except StorageError Unit :=
  if config.hasSource then
    match files .source with
    | none => .error .sourceMissing
    | some current =>
      if current.length > config.expectedSize then .error .badSize
      else if current.length ≠ config.expectedSize ∨ sha256 current ≠ image.sourceSha256 then
        .error .sourceChanged
      else .ok ()
  else .ok ()

def save (config : PersistentImageConfig) (image : PersistentImage) : StorageM PersistentImage := do
  if !image.dirty then pure image
  else do
    let disk ← get
    liftExcept (verifySourceUnchanged sha256 config image disk.files)
    publish sha256 config image true
    pure { image with
      dirty := false
      saveCount := if image.saveCount ≠ BitVec.allOnes 64 then image.saveCount + 1
        else image.saveCount }

end

namespace PersistentImage

def writeByte (image : PersistentImage) (offset : Nat) (value : Byte) :
    Except StorageError PersistentImage :=
  if offset ≥ image.working.length then .error .outsideImage
  else if image.working[offset]? = some value then .ok image
  else .ok { image with working := image.working.set offset value, dirty := true }

def write (image : PersistentImage) (offset : Nat) (bytes : Bytes) :
    Except StorageError PersistentImage :=
  if offset > image.working.length ∨ bytes.length > image.working.length - offset then
    .error .outsideImage
  else if bytes = slice image.working offset bytes.length then .ok image
  else
    .ok { image with
      working := image.working.take offset ++ bytes ++ image.working.drop (offset + bytes.length)
      dirty := true }

end PersistentImage

/-! ## Sessions -/

/-- The files with the image of the running process, if one runs. -/
structure Session where
  files : StorageFiles
  image : Option PersistentImage := none

/-- What the program and its surroundings can do; the outcomes are those of the disk's steps. -/
inductive Action
  | reopen (outcomes : List Outcome)
  | writeByte (offset : Nat) (value : Byte)
  | write (offset : Nat) (bytes : Bytes)
  | save (outcomes : List Outcome)
  | replaceSource (content : Option Bytes)

section
variable (sha256 : Bytes → Bytes) (config : PersistentImageConfig)

/-- `open` of a new process. -/
def Session.reopen (s : Session) (outcomes : List Outcome) : Session :=
  match load sha256 config ⟨s.files, outcomes⟩ with
  | .ok image disk => { files := disk.files, image := some image }
  | .error _ disk => { files := disk.files, image := none }

/-- A save that throws leaves the image of the process as it is. -/
def Session.save (s : Session) (image : PersistentImage) (outcomes : List Outcome) : Session :=
  match PersistentStorage.save sha256 config image ⟨s.files, outcomes⟩ with
  | .ok image disk => { files := disk.files, image := some image }
  | .error (.thrown _) disk => { files := disk.files, image := some image }
  | .error .stopped disk => { files := disk.files, image := none }

def Session.edit (s : Session) (result : Except StorageError PersistentImage) : Session :=
  match result with
  | .ok image => { s with image := some image }
  | .error _ => s

def step (s : Session) : Action → Session
  | .reopen outcomes => s.reopen sha256 config outcomes
  | .replaceSource content => { s with files := Function.update s.files .source content }
  | .writeByte offset value =>
    match s.image with
    | some image => s.edit (image.writeByte offset value)
    | none => s
  | .write offset bytes =>
    match s.image with
    | some image => s.edit (image.write offset bytes)
    | none => s
  | .save outcomes =>
    match s.image with
    | some image => s.save sha256 config image outcomes
    | none => s

def run (s : Session) (actions : List Action) : Session := actions.foldl (step sha256 config) s

end
end KatanaRecomp.Runtime.PersistentStorage
