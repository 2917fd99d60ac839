import KatanaRecomp.Io.InputProvenance
import KatanaRecomp.Runtime.PersistentStorage

/-! # Crash consistency of the working copies

The decoder accepts exactly the containers of its own configuration. Whatever
a process does and wherever it stops, the two container files always hold the
payload that was last saved, or the one whose saving was interrupted, where
`load` looks for it. -/
namespace KatanaRecomp.Runtime.PersistentStorage
open Lib ByteFormat CrashDisk Io.InputProvenance

/-! ## The container -/

theorem drop_eq_slice (bytes : Bytes) (offset size : Nat) :
    bytes.drop offset = slice bytes offset size ++ bytes.drop (offset + size) := by
  unfold slice
  rw [← List.drop_drop, List.take_append_drop]

variable {bytes : Bytes}

theorem length_slice {offset size : Nat} (h : offset + size ≤ bytes.length) :
    (slice bytes offset size).length = size := by
  unfold slice
  rw [List.length_take, List.length_drop]
  omega

/-- Every file that is long enough is cut into the fields of a container. -/
theorem eq_slices (kind : Nat) :
    bytes = slice bytes 0 8 ++ (slice bytes 8 4 ++ (slice bytes 12 4 ++ (slice bytes 16 8 ++
      (slice bytes 24 64 ++ (slice bytes 88 64 ++ (slice bytes 152 kind ++
        bytes.drop (152 + kind))))))) := by
  conv_lhs => rw [← List.drop_zero (l := bytes)]
  rw [drop_eq_slice bytes 0 8, drop_eq_slice bytes 8 4, drop_eq_slice bytes 12 4,
    drop_eq_slice bytes 16 8, drop_eq_slice bytes 24 64, drop_eq_slice bytes 88 64,
    drop_eq_slice bytes 152 kind]

theorem slice_skip {front rest : Bytes} {k : Nat} (hfront : front.length = k) (offset size : Nat) :
    slice (front ++ rest) (k + offset) size = slice rest offset size := by
  unfold slice
  rw [← hfront, ← List.drop_drop, List.drop_left]

theorem slice_here {front rest : Bytes} {k : Nat} (hfront : front.length = k) :
    slice (front ++ rest) 0 k = front := by
  unfold slice
  rw [← hfront, List.drop_zero, List.take_left]

variable {source payload : Bytes}

/-- The fields are found where the decoder looks for them. -/
theorem slices_of_fields {magic version kindSize payloadSize payloadSha kind : Bytes}
    (hmagic : magic.length = 8) (hversion : version.length = 4) (hkindSize : kindSize.length = 4)
    (hpayloadSize : payloadSize.length = 8) (hsource : source.length = 64)
    (hpayloadSha : payloadSha.length = 64)
    (hbytes : bytes = magic ++ (version ++ (kindSize ++ (payloadSize ++ (source ++ (payloadSha ++
      (kind ++ payload))))))) :
    slice bytes 0 8 = magic ∧ slice bytes 8 4 = version ∧ slice bytes 12 4 = kindSize ∧
      slice bytes 16 8 = payloadSize ∧ slice bytes 24 64 = source ∧
      slice bytes 88 64 = payloadSha ∧ slice bytes 152 kind.length = kind ∧
      bytes.drop (152 + kind.length) = payload ∧
      bytes.length = 152 + kind.length + payload.length := by
  have hlength : bytes.length = 152 + kind.length + payload.length := by
    rw [hbytes]
    simp only [List.length_append]
    omega
  have hslice : ∀ offset size, slice bytes (152 + offset) size = slice (kind ++ payload) offset size := by
    intro offset size
    rw [hbytes, show 152 + offset = 8 + (4 + (4 + (8 + (64 + (64 + offset))))) by omega,
      slice_skip hmagic, slice_skip hversion, slice_skip hkindSize, slice_skip hpayloadSize,
      slice_skip hsource, slice_skip hpayloadSha]
  refine ⟨?_, ?_, ?_, ?_, ?_, ?_, ?_, ?_, hlength⟩
  · rw [hbytes]
    exact slice_here hmagic
  · rw [hbytes, show (8 : Nat) = 8 + 0 by rfl, slice_skip hmagic]
    exact slice_here hversion
  · rw [hbytes, show (12 : Nat) = 8 + (4 + 0) by rfl, slice_skip hmagic, slice_skip hversion]
    exact slice_here hkindSize
  · rw [hbytes, show (16 : Nat) = 8 + (4 + (4 + 0)) by rfl, slice_skip hmagic, slice_skip hversion,
      slice_skip hkindSize]
    exact slice_here hpayloadSize
  · rw [hbytes, show (24 : Nat) = 8 + (4 + (4 + (8 + 0))) by rfl, slice_skip hmagic,
      slice_skip hversion, slice_skip hkindSize, slice_skip hpayloadSize]
    exact slice_here hsource
  · rw [hbytes, show (88 : Nat) = 8 + (4 + (4 + (8 + (64 + 0)))) by rfl, slice_skip hmagic,
      slice_skip hversion, slice_skip hkindSize, slice_skip hpayloadSize, slice_skip hsource]
    exact slice_here hpayloadSha
  · rw [show (152 : Nat) = 152 + 0 by rfl, hslice]
    exact slice_here rfl
  · have hrest := hslice kind.length payload.length
    unfold slice at hrest
    rw [List.drop_left, List.take_length, List.take_of_length_le] at hrest
    · exact hrest
    · rw [List.length_drop]
      omega

section
variable {sha256 : Bytes → Bytes} (hsha : ∀ bytes, (sha256 bytes).length = 64)
  {config : PersistentImageConfig} {sourceSha256 : Bytes}

include hsha

theorem decodeContainer_encode (hsource : sourceSha256.length = 64)
    (hpayload : payload.length = config.expectedSize) : decodeContainer sha256 config sourceSha256
      (encodeContainer sha256 config sourceSha256 payload) = .ok payload := by
  have hkind := config.kind_size
  have hsize := config.expectedSize_lt
  have hencode : encodeContainer sha256 config sourceSha256 payload =
      containerMagic ++ (littleEndian 4 contractVersion ++
        (littleEndian 4 (BitVec.ofNat 32 config.kind.length) ++
        (littleEndian 8 (BitVec.ofNat 64 payload.length) ++ (sourceSha256 ++ (sha256 payload ++
        (config.kind ++ payload)))))) := by
    simp [encodeContainer]
  generalize hbytes : encodeContainer sha256 config sourceSha256 payload = bytes at hencode
  obtain ⟨hmagic, hversion, hkindSize, hpayloadSize, hsourceField, hpayloadSha, hkindField, hrest,
    hlength⟩ := slices_of_fields rfl (length_littleEndian _) (length_littleEndian _)
    (length_littleEndian _) hsource (hsha payload) hencode
  have hkindNat : (BitVec.ofNat 32 config.kind.length).toNat = config.kind.length := by
    rw [BitVec.toNat_ofNat, Nat.mod_eq_of_lt (by omega)]
  have hpayloadNat : (BitVec.ofNat 64 payload.length).toNat = config.expectedSize := by
    rw [BitVec.toNat_ofNat, Nat.mod_eq_of_lt (by omega), hpayload]
  have hheader : fixedHeaderSize = 152 := rfl
  have htext : sha256TextSize = 64 := rfl
  have hword : ∀ value : BitVec 32, assemble 32 0 (littleEndian 4 value) = value :=
    fun value => @assemble_littleEndian 4 32 rfl value
  have hlong : ∀ value : BitVec 64, assemble 64 0 (littleEndian 8 value) = value :=
    fun value => @assemble_littleEndian 8 64 rfl value
  unfold decodeContainer
  simp only [hmagic, hversion, hkindSize, hpayloadSize, hword, hlong, hkindNat, hpayloadNat, hheader,
    htext, Nat.reduceAdd, hsourceField, hpayloadSha, hkindField, hrest, hlength]
  rw [if_neg (by omega), if_neg (by simp; omega), if_neg (by simp), if_neg (by omega),
    if_neg (by simp)]

omit hsha in
theorem decodeContainer_ok (h : decodeContainer sha256 config sourceSha256 bytes = .ok payload) :
    bytes = encodeContainer sha256 config sourceSha256 payload ∧
      payload.length = config.expectedSize := by
  unfold decodeContainer at h
  split at h
  · cases h
  split at h
  · cases h
  rename_i hheader
  have htext : sha256TextSize = 64 := rfl
  simp only [htext] at h
  split at h
  · cases h
  rename_i hcontract
  split at h
  · cases h
  rename_i hlength
  split at h
  · cases h
  rename_i hidentity
  cases h
  have hheaderSize : fixedHeaderSize = 152 := rfl
  rw [hheaderSize, not_or, not_not] at hheader
  simp only [not_or, not_not, ne_eq] at hcontract hlength hidentity
  obtain ⟨hlong, hmagic⟩ := hheader
  obtain ⟨hversion, hkindSize, hpayloadSize⟩ := hcontract
  obtain ⟨hoffset, hrest⟩ := hlength
  obtain ⟨hsource, hkind, hpayloadSha⟩ := hidentity
  have hword : ∀ {w count offset : Nat} (value : BitVec w), w = 8 * count →
      offset + count ≤ bytes.length → assemble w 0 (slice bytes offset count) = value →
      slice bytes offset count = littleEndian count value := by
    intro w count offset value hw hfits hvalue
    rw [← hvalue, littleEndian_assemble hw _ (length_slice hfits)]
  have hpayloadLength : (bytes.drop (24 + 64 + 64 +
      (assemble 32 0 (slice bytes 12 4)).toNat)).length = config.expectedSize := by
    rw [List.length_drop, ← hpayloadSize]
    omega
  refine ⟨?_, hpayloadLength⟩
  have hversion' := hword contractVersion rfl (show 8 + 4 ≤ bytes.length by omega) hversion
  have hkindSize' := hword (BitVec.ofNat 32 config.kind.length) rfl
    (show 12 + 4 ≤ bytes.length by omega) (by rw [← hkindSize]; simp)
  have hpayloadSize' := hword (BitVec.ofNat 64 config.expectedSize) rfl
    (show 16 + 8 ≤ bytes.length by omega) (by rw [← hpayloadSize]; simp)
  unfold encodeContainer
  rw [hpayloadLength, ← hpayloadSha, ← hversion', ← hkindSize', ← hpayloadSize', ← hsource, ← hkind,
    ← hmagic]
  simp only [List.flatten_cons, List.flatten_nil, List.append_nil]
  exact eq_slices _

/-- The decoder accepts exactly the containers of its own kind, size and source, with a payload
that has the stored hash. -/
theorem decodeContainer_ok_iff (hsource : sourceSha256.length = 64) :
    decodeContainer sha256 config sourceSha256 bytes = .ok payload ↔
      bytes = encodeContainer sha256 config sourceSha256 payload ∧
        payload.length = config.expectedSize := by
  constructor
  · exact decodeContainer_ok
  · rintro ⟨rfl, hpayload⟩
    exact decodeContainer_encode hsha hsource hpayload

end

/-! ## Publishing -/

/-- Where the two container files stand. -/
structure At (files : StorageFiles) (working recovery : Option Bytes) : Prop where
  working : files .working = working
  recovery : files .recovery = recovery

theorem At.temporary {files : StorageFiles} {working recovery : Option Bytes}
    (h : At files working recovery) (attempt : Nat) (content : Option Bytes) :
    At (Function.update files (.temporary attempt) content) working recovery :=
  ⟨by simp [h.working], by simp [h.recovery]⟩

/-- What the container files can be like when `publish` does not return. -/
inductive Interrupted (working recovery : Option Bytes) (preservePrimary : Bool)
    (container : Bytes) : Halt StorageError → StorageFiles → Prop
  /-- Nothing has moved yet, or everything is back. -/
  | unchanged {halt files} : At files working recovery →
      Interrupted working recovery preservePrimary container halt files
  /-- The old recovery file is gone, the old container in place. -/
  | noRecovery {halt files old} : preservePrimary = true → working = some old →
      At files working none → Interrupted working recovery preservePrimary container halt files
  /-- The old container is the recovery file. -/
  | moved {halt files old} : preservePrimary = true → working = some old →
      At files none working → Interrupted working recovery preservePrimary container halt files
  /-- The old container is removed. -/
  | removed {halt files} : preservePrimary = false → At files none recovery →
      Interrupted working recovery preservePrimary container halt files
  /-- The new container is in place. -/
  | installed {files} : At files (some container) (match preservePrimary, working with
      | true, some old => some old
      | _, _ => recovery) →
      Interrupted working recovery preservePrimary container .stopped files

variable {working recovery : Option Bytes} {files : StorageFiles}
  {fail : Halt StorageError → StorageFiles → Prop}

theorem fileExists_leaves {name : FileName} {post : Bool → StorageFiles → Prop}
    (h : post (files name).isSome files) : Leaves (fileExists name) files post fail :=
  .get fun _ => .pure h

/-- The files in front of the last rename. -/
structure Cleared (working recovery : Option Bytes) (preservePrimary : Bool) (temporary : FileName)
    (container : Bytes) (movedPrimary : Bool) (files : StorageFiles) : Prop where
  moved : movedPrimary = (preservePrimary && working.isSome)
  at_ : At files none (if movedPrimary then working else recovery)
  written : files temporary = some container

theorem clearPrimary_leaves {container : Bytes} {attempt : Nat} (hat : At files working recovery)
    (hwritten : files (.temporary attempt) = some container) (preservePrimary : Bool) :
    Leaves (clearPrimary preservePrimary) files
      (Cleared working recovery preservePrimary (.temporary attempt) container)
      (Interrupted working recovery preservePrimary container) := by
  unfold clearPrimary
  refine .bind (fileExists_leaves ?_)
  rw [hat.working]
  refine .ite ?_ ?_
  · intro hboth
    rw [Bool.and_eq_true] at hboth
    obtain ⟨hpreserve, hpresent⟩ := hboth
    obtain ⟨old, rfl⟩ := Option.isSome_iff_exists.mp hpresent
    refine .bind (.removeFile ?_ (.unchanged hat) (.unchanged hat))
    have hremoved : At (Function.update files .recovery none) (some old) none :=
      ⟨by simp [hat.working], by simp⟩
    refine .bind (.renameFile ?_ (.noRecovery hpreserve rfl hremoved)
      (.noRecovery hpreserve rfl hremoved))
    refine .pure ⟨by simp [hpreserve], ⟨by simp, ?_⟩, ?_⟩
    · simp [hat.working]
    · simp [hwritten]
  intro hnot
  refine .ite ?_ ?_
  · intro hpresent
    obtain ⟨old, rfl⟩ := Option.isSome_iff_exists.mp hpresent
    have hpreserve : preservePrimary = false := by
      simpa using hnot
    refine .bind (.removeFile ?_ (.unchanged hat) (.unchanged hat))
    refine .pure ⟨by simp [hpreserve], ⟨by simp, ?_⟩, ?_⟩
    · simp [hat.recovery]
    · simp [hwritten]
  · intro habsent
    have hnone : working = none := by
      cases working with
      | none => rfl
      | some old => exact absurd rfl habsent
    subst hnone
    refine .pure ⟨by simp, ?_, hwritten⟩
    simpa using hat

/-- The files behind `publish`. -/
def Published (working recovery : Option Bytes) (preservePrimary : Bool) (container : Bytes)
    (files : StorageFiles) : Prop := At files (some container) (match preservePrimary, working with
    | true, some old => some old
    | _, _ => recovery)

theorem install_leaves {container : Bytes} {attempt : Nat} {preservePrimary movedPrimary : Bool}
    (h : Cleared working recovery preservePrimary (.temporary attempt) container movedPrimary files) :
    Leaves (install (.temporary attempt) movedPrimary) files
      (fun _ t => Published working recovery preservePrimary container t)
      (Interrupted working recovery preservePrimary container) := by
  obtain ⟨hmoved, hat, hwritten⟩ := h
  have hcut : ∀ halt, Interrupted working recovery preservePrimary container halt files := by
    intro halt
    cases hpreserve : preservePrimary with
    | false =>
      rw [hpreserve] at hmoved
      rw [hmoved] at hat
      exact .removed rfl hat
    | true =>
      cases hworking : working with
      | none =>
        rw [hpreserve, hworking] at hmoved
        rw [hmoved] at hat
        exact .unchanged hat
      | some old =>
        rw [hpreserve, hworking] at hmoved
        rw [hmoved, hworking] at hat
        exact .moved rfl rfl hat
  unfold install
  refine .onThrow (.renameFile ?_ ?_ (hcut _))
  · refine ⟨by simp [hwritten], ?_⟩
    have hrecovery := hat.recovery
    cases preservePrimary <;> cases working <;> simp_all
  · refine .bind (fileExists_leaves (.ite ?_ ?_))
    · intro hback
      rw [hat.working, Bool.and_eq_true] at hback
      have hpreserve : preservePrimary = true ∧ working.isSome = true := by
        rw [hback.1] at hmoved
        simpa using hmoved.symm
      obtain ⟨old, rfl⟩ := Option.isSome_iff_exists.mp hpreserve.2
      refine .bind (.ignoring (.renameFile ?_ (.raise (hcut _)) (hcut _)))
      refine .raise (.noRecovery hpreserve.1 rfl ⟨?_, by simp⟩)
      have hrecovery := hat.recovery
      rw [hback.1] at hrecovery
      simpa using hrecovery
    · intro _
      exact .raise (hcut _)

/-- What follows a throw touches the temporary file only. -/
theorem Interrupted.cleanup {container : Bytes} {preservePrimary : Bool}
    {error : StorageError} {files files' : StorageFiles}
    (h : Interrupted working recovery preservePrimary container (.thrown error) files)
    (hfiles : ∀ {working recovery}, At files working recovery → At files' working recovery)
    (halt : Halt StorageError) :
    Interrupted working recovery preservePrimary container halt files' := by
  cases h with
  | unchanged hat => exact .unchanged (hfiles hat)
  | noRecovery hpreserve hworking hat => exact .noRecovery hpreserve hworking (hfiles hat)
  | moved hpreserve hworking hat => exact .moved hpreserve hworking (hfiles hat)
  | removed hpreserve hat => exact .removed hpreserve (hfiles hat)

theorem temporaryPath_leaves
    (hfail : fail (.thrown .noTemporaryPath) files) : Leaves temporaryPath files
      (fun temporary t => t = files ∧ ∃ attempt, temporary = .temporary attempt) fail := by
  unfold temporaryPath
  refine .get fun outcomes => ?_
  dsimp only
  split
  · exact .pure ⟨rfl, _, rfl⟩
  · exact .raise hfail

/-- The guarded part of `publish`. -/
theorem deliver_leaves
    (hat : At files working recovery) (attempt : Nat) (container : Bytes) (preservePrimary : Bool) :
    Leaves (do
        writeFile .notWritten (.temporary attempt) container
        let movedPrimary ← clearPrimary preservePrimary
        install (.temporary attempt) movedPrimary) files
      (fun _ t => Published working recovery preservePrimary container t)
      (Interrupted working recovery preservePrimary container) := by
  refine .bind (.writeFile ?_ (.unchanged hat) (.unchanged hat))
  have hat' := hat.temporary attempt (some container)
  have hwritten : Function.update files (.temporary attempt) (some container)
      (.temporary attempt) = some container := Function.update_self ..
  refine .bind ((clearPrimary_leaves hat' hwritten preservePrimary).mono ?_ fun _ _ h => h)
  intro moved t ht
  exact install_leaves ht

theorem publish_leaves (sha256 : Bytes → Bytes) (config : PersistentImageConfig)
    (image : PersistentImage) (preservePrimary : Bool)
    (hat : At files working recovery) :
    Leaves (publish sha256 config image preservePrimary) files
      (fun _ t => Published working recovery preservePrimary
        (encodeContainer sha256 config image.sourceSha256 image.working) t)
      (Interrupted working recovery preservePrimary
        (encodeContainer sha256 config image.sourceSha256 image.working)) := by
  unfold publish
  generalize encodeContainer sha256 config image.sourceSha256 image.working = container
  refine .bind (.attempt ?_ (.unchanged hat) (.unchanged hat))
  refine .bind ((temporaryPath_leaves (.unchanged hat)).mono ?_ fun _ _ h => h)
  rintro temporary t ⟨rfl, attempt, rfl⟩
  refine .bind (.onThrow ((deliver_leaves hat attempt container preservePrimary).mono ?_ ?_))
  · intro _ u hu
    exact .checkpoint hu (.installed hu)
  · intro halt u hu
    cases halt with
    | stopped => exact hu
    | thrown error =>
      refine .bind (.ignoring (.removeFile ?_ ?_ (hu.cleanup (fun h => h) _)))
      · exact .raise (hu.cleanup (fun h => h.temporary attempt none) _)
      · exact .raise (hu.cleanup (fun h => h) _)

/-! ## What is on the disk -/

/-- The payloads that were promised to be on the disk: that of the last save or load that
completed, and that of a save that was interrupted after it. -/
structure History where
  last : Option Bytes := none
  interrupted : Option Bytes := none

/-- The history behind an `open` that did not return: its first publication may have completed. -/
def History.created (history : History) (config : PersistentImageConfig)
    (before after : StorageFiles) : History :=
  if before .working = none ∧ before .recovery = none ∧ after .working ≠ none then
    { last := (readSource config before).toOption.map config.sourceLessInitialWorkingCopy.getD }
  else history

/-- The history behind a `save` that did not return. -/
def History.halted (history : History) (payload : Bytes) : Halt StorageError → History
  | .thrown _ => history
  | .stopped => { history with interrupted := some payload }

section
variable (sha256 : Bytes → Bytes) (config : PersistentImageConfig)

/-- A completed `open` or `save` starts anew, a throw changes nothing, and a save that the process
did not survive adds its payload. -/
def History.follow (history : History) (s : Session) : Action → History
  | .reopen outcomes =>
    match load sha256 config ⟨s.files, outcomes⟩ with
    | .ok image _ => { last := some image.working }
    | .error _ disk => history.created config s.files disk.files
  | .save outcomes =>
    match s.image with
    | none => history
    | some image =>
      match save sha256 config image ⟨s.files, outcomes⟩ with
      | .ok image' _ => if image.dirty then { last := some image'.working } else history
      | .error halt _ => history.halted image.working halt
  | _ => history

def History.ofRun : Session → History → List Action → History
  | _, history, [] => history
  | s, history, action :: rest =>
    History.ofRun (step sha256 config s action) (history.follow sha256 config s action) rest

end

variable {config : PersistentImageConfig} {history : History} {before after : StorageFiles}

theorem History.created_of_present
    (h : before .working ≠ none ∨ before .recovery ≠ none) :
    history.created config before after = history := by
  unfold created
  refine if_neg ?_
  rintro ⟨hworking, hrecovery, -⟩
  rcases h with h | h
  · exact h hworking
  · exact h hrecovery

theorem History.created_of_absent (h : after .working = none) :
    history.created config before after = history := by
  unfold created
  refine if_neg ?_
  rintro ⟨-, -, hpresent⟩
  exact hpresent h

theorem History.created_self : history.created config files files = history := by
  by_cases h : files .working = none
  · exact created_of_absent h
  · exact created_of_present (.inl h)

/-- A file that is missing or holds a container of this configuration and source. -/
def Holds (sha256 : Bytes → Bytes) (config : PersistentImageConfig) (sourceSha256 : Bytes)
    (content : Option Bytes) (payload : Option Bytes) : Prop :=
  content = payload.map (encodeContainer sha256 config sourceSha256) ∧
    ∀ p ∈ payload, p.length = config.expectedSize

/-- The container files of one source, with their payloads. -/
structure Stored (sha256 : Bytes → Bytes) (config : PersistentImageConfig) (sourceSha256 : Bytes)
    (files : StorageFiles) (working recovery : Option Bytes) : Prop where
  working : Holds sha256 config sourceSha256 (files .working) working
  recovery : Holds sha256 config sourceSha256 (files .recovery) recovery
  sha256_size : sourceSha256.length = 64

/-- The promised payload is where `load` finds it. -/
def Kept (history : History) (working recovery : Option Bytes) : Prop :=
  ∀ p, history.last = some p → (∃ q, working = some q ∧ (q = p ∨ history.interrupted = some q)) ∨
      working = none ∧ recovery = some p

/-- The invariant of a run: all containers belong to one source, and a running process has
its payload's predecessor on the disk. -/
structure Consistent (sha256 : Bytes → Bytes) (config : PersistentImageConfig) (s : Session)
    (history : History) : Prop where
  stored : ∃ sourceSha256 working recovery,
    Stored sha256 config sourceSha256 s.files working recovery ∧ Kept history working recovery ∧
      ∀ image, s.image = some image → image.sourceSha256 = sourceSha256
  image : ∀ image, s.image = some image → image.working.length = config.expectedSize ∧
    history.last.isSome = true ∧ history.interrupted = none ∧
      (image.dirty = false → history.last = some image.working)

variable {sha256 : Bytes → Bytes} {sourceSha256 : Bytes}

theorem Stored.of_at {w r : Option Bytes}
    (hat : At files working recovery) (hworking : Holds sha256 config sourceSha256 working w)
    (hrecovery : Holds sha256 config sourceSha256 recovery r) (hsource : sourceSha256.length = 64) :
    Stored sha256 config sourceSha256 files w r :=
  ⟨by rw [hat.working]; exact hworking, by rw [hat.recovery]; exact hrecovery, hsource⟩

theorem Holds.none : Holds sha256 config sourceSha256 none none := ⟨rfl, by simp⟩

theorem Holds.container (h : payload.length = config.expectedSize) :
    Holds sha256 config sourceSha256 (some (encodeContainer sha256 config sourceSha256 payload))
      (some payload) := ⟨rfl, by simpa using h⟩

theorem Holds.eq_none {payload : Option Bytes}
    (h : Holds sha256 config sourceSha256 Option.none payload) : payload = Option.none := by
  cases payload with
  | none => rfl
  | some p => cases h.1

section
variable {sha256 : Bytes → Bytes} (hsha : ∀ bytes, (sha256 bytes).length = 64)
  {config : PersistentImageConfig} {sourceSha256 : Bytes}

include hsha

theorem encodeContainer_injective {config' : PersistentImageConfig} {source' payload' : Bytes}
    (hsource : source.length = 64) (hsource' : source'.length = 64)
    (h : encodeContainer sha256 config source payload =
      encodeContainer sha256 config' source' payload') :
    config.kind = config'.kind ∧ source = source' ∧ payload = payload' := by
  have hfields : ∀ (config : PersistentImageConfig) (source payload : Bytes), source.length = 64 →
      slice (encodeContainer sha256 config source payload) 12 4 =
          littleEndian 4 (BitVec.ofNat 32 config.kind.length) ∧
        slice (encodeContainer sha256 config source payload) 24 64 = source ∧
        slice (encodeContainer sha256 config source payload) 152 config.kind.length = config.kind ∧
        (encodeContainer sha256 config source payload).drop (152 + config.kind.length) =
          payload := by
    intro config source payload hsource
    obtain ⟨-, -, hkindSize, -, hfield, -, hkind, hrest, -⟩ := slices_of_fields
      (show containerMagic.length = 8 from rfl)
      (@length_littleEndian 4 _ contractVersion)
      (@length_littleEndian 4 _ (BitVec.ofNat 32 config.kind.length))
      (@length_littleEndian 8 _ (BitVec.ofNat 64 payload.length)) hsource (hsha payload)
      (show encodeContainer sha256 config source payload = _ by simp [encodeContainer]; rfl)
    exact ⟨hkindSize, hfield, hkind, hrest⟩
  obtain ⟨hsize, hfield, hkind, hrest⟩ := hfields config source payload hsource
  obtain ⟨hsize', hfield', hkind', hrest'⟩ := hfields config' source' payload' hsource'
  rw [h] at hsize hfield hkind hrest
  have hlength : config.kind.length = config'.kind.length := by
    have hword := congrArg (assemble 32 0) (hsize.symm.trans hsize')
    rw [@assemble_littleEndian 4 32 rfl, @assemble_littleEndian 4 32 rfl] at hword
    have hnat := congrArg BitVec.toNat hword
    have hbound := config.kind_size
    have hbound' := config'.kind_size
    rwa [BitVec.toNat_ofNat, BitVec.toNat_ofNat, Nat.mod_eq_of_lt (by omega),
      Nat.mod_eq_of_lt (by omega)] at hnat
  rw [hlength] at hkind hrest
  exact ⟨hkind.symm.trans hkind', hfield.symm.trans hfield', hrest.symm.trans hrest'⟩

/-- A stored container is read by a process of the same source only. -/
theorem Holds.decode {content payload : Option Bytes}
    (h : Holds sha256 config sourceSha256 content payload) (hsource : sourceSha256.length = 64)
    {found sha result : Bytes} (hcontent : content = some found) (hsha' : sha.length = 64)
    (hdecode : decodeContainer sha256 config sha found = .ok result) :
    payload = some result ∧ sha = sourceSha256 := by
  obtain ⟨hencode, -⟩ := h
  rw [hcontent] at hencode
  cases payload with
  | none => cases hencode
  | some p =>
    have hfound : found = encodeContainer sha256 config sourceSha256 p := Option.some.inj hencode
    obtain ⟨hfound', -⟩ := decodeContainer_ok hdecode
    rw [hfound] at hfound'
    obtain ⟨-, hsame, hpayload⟩ := encodeContainer_injective hsha hsource hsha' hfound'
    exact ⟨by rw [hpayload], hsame.symm⟩

theorem Holds.decodes {content payload : Option Bytes}
    (h : Holds sha256 config sourceSha256 content payload) (hsource : sourceSha256.length = 64)
    {found : Bytes} (hcontent : content = some found) :
    ∃ result, decodeContainer sha256 config sourceSha256 found = .ok result := by
  obtain ⟨hencode, hsize⟩ := h
  rw [hcontent] at hencode
  cases payload with
  | none => cases hencode
  | some p =>
    refine ⟨p, ?_⟩
    rw [Option.some.inj hencode]
    exact decodeContainer_encode hsha hsource (hsize p rfl)

end

theorem readSource_size
    (h : readSource config files = .ok source) : source.length = config.expectedSize := by
  unfold readSource at h
  split at h
  · split at h
    · cases h
    split at h
    · cases h
    split at h
    · cases h
    · rename_i hsize
      cases h
      exact not_not.mp hsize
  · cases h
    exact List.length_replicate

theorem initial_size (hsource : source.length = config.expectedSize) :
    (config.sourceLessInitialWorkingCopy.getD source).length = config.expectedSize := by
  cases hinitial : config.sourceLessInitialWorkingCopy with
  | none => exact hsource
  | some initial => exact (config.initial_size initial hinitial).2

theorem liftExcept_leaves {α : Type} {result : Except StorageError α}
    {post : α → StorageFiles → Prop} (hok : ∀ value, result = .ok value → post value files)
    (herror : ∀ error, result = .error error → fail (.thrown error) files) :
    Leaves (liftExcept result) files post fail := by
  cases result with
  | ok value => exact .pure (hok value rfl)
  | error error => exact .raise (herror error rfl)

/-- What an image is that `load` returns. -/
structure Loaded (sha256 : Bytes → Bytes) (config : PersistentImageConfig) (history : History)
    (image : PersistentImage) (files : StorageFiles) : Prop where
  stored : ∃ recovery, Stored sha256 config image.sourceSha256 files (some image.working) recovery
  clean : image.dirty = false
  size : image.working.length = config.expectedSize
  promised : ∀ p, history.last = some p →
    (image.working = p ∨ history.interrupted = some image.working) ∧
      image.recovery ≠ .createdFromSource

/-- The disk still keeps the promise. -/
def Promised (sha256 : Bytes → Bytes) (config : PersistentImageConfig) (history : History)
    (files : StorageFiles) : Prop := ∃ sourceSha256 working recovery,
    Stored sha256 config sourceSha256 files working recovery ∧ Kept history working recovery

section
variable {sha256 : Bytes → Bytes} (hsha : ∀ bytes, (sha256 bytes).length = 64)
  {config : PersistentImageConfig} {sourceSha256 : Bytes} {history : History}
  {files : StorageFiles} {working recovery : Option Bytes}

include hsha

/-- `load` without a working file: the recovery file, or a new image. -/
theorem loadWithoutPrimary_leaves (hsource : readSource config files = .ok source)
    (hstored : Stored sha256 config sourceSha256 files working recovery)
    (hkept : Kept history working recovery) (habsent : files .working = none) :
    Leaves (loadWithoutPrimary sha256 config source) files (Loaded sha256 config history)
      (fun _ t => Promised sha256 config (history.created config files t) t) := by
  have hnone : working = none := by
    have hholds := hstored.working
    rw [habsent] at hholds
    exact hholds.eq_none
  subst hnone
  have hpromised : Promised sha256 config (history.created config files files) files := by
    rw [History.created_self]
    exact ⟨_, _, _, hstored, hkept⟩
  have hsize := hstored.sha256_size
  have hat : At files none (files .recovery) := ⟨habsent, rfl⟩
  unfold loadWithoutPrimary
  refine .get fun outcomes => ?_
  dsimp only
  cases hrecovery : files .recovery with
  | some bytes =>
    dsimp only
    refine .bind (liftExcept_leaves ?_ fun _ _ => hpromised)
    intro result hdecode
    obtain ⟨hresult, hsame⟩ := Holds.decode hsha hstored.recovery hsize hrecovery (hsha source)
      hdecode
    subst hresult
    have hlength := (hstored.recovery).2 result rfl
    have hlast : ∀ p, history.last = some p → result = p := by
      intro p hp
      rcases hkept p hp with ⟨q, hq, -⟩ | ⟨-, hq⟩
      · cases hq
      · exact Option.some.inj hq
    rw [hrecovery] at hat
    have hholds := hstored.recovery
    rw [hrecovery] at hholds
    have hnew : ∀ t, At t (some (encodeContainer sha256 config (sha256 source) result)) (some bytes) →
        Stored sha256 config sourceSha256 t (some result) (some result) := by
      intro t ht
      rw [hsame] at ht
      exact .of_at ht (.container hlength) hholds hsize
    refine .bind ((publish_leaves sha256 config _ false hat).mono ?_ ?_)
    · intro _ t ht
      refine .pure ⟨⟨some result, ?_⟩, rfl, hlength, ?_⟩
      · have hstored' := hnew t ht
        rw [← hsame] at hstored'
        exact hstored'
      · intro p hp
        exact ⟨.inl (hlast p hp), by simp⟩
    · intro halt t ht
      rw [History.created_of_present (.inr (by rw [hrecovery]; simp))]
      cases ht with
      | unchanged hat' => exact ⟨_, _, _, .of_at hat' .none hholds hsize, hkept⟩
      | noRecovery hpreserve => cases hpreserve
      | moved hpreserve => cases hpreserve
      | removed _ hat' => exact ⟨_, _, _, .of_at hat' .none hholds hsize, hkept⟩
      | installed hat' =>
        refine ⟨_, _, _, hnew t hat', ?_⟩
        intro p hp
        exact .inl ⟨result, rfl, .inl (hlast p hp)⟩
  | none =>
    dsimp only
    have hrecoveryNone : recovery = none := by
      have hholds := hstored.recovery
      rw [hrecovery] at hholds
      exact hholds.eq_none
    subst hrecoveryNone
    have hlast : history.last = none := by
      cases hlast : history.last with
      | none => rfl
      | some p =>
        rcases hkept p hlast with ⟨q, hq, -⟩ | ⟨-, hq⟩
        · cases hq
        · cases hq
    have hvacuous : ∀ w r : Option Bytes, Kept history w r := by
      intro w r p hp
      rw [hlast] at hp
      cases hp
    have hinitial := initial_size (readSource_size hsource)
    rw [hrecovery] at hat
    refine .bind ((publish_leaves sha256 config _ false hat).mono ?_ ?_)
    · intro _ t ht
      refine .pure ⟨⟨none, .of_at ht (.container hinitial) .none (hsha source)⟩, rfl, hinitial, ?_⟩
      intro p hp
      rw [hlast] at hp
      cases hp
    · intro halt t ht
      cases ht with
      | unchanged hat' =>
        rw [History.created_of_absent hat'.working]
        exact ⟨_, _, _, .of_at hat' .none .none hsize, hvacuous _ _⟩
      | noRecovery hpreserve => cases hpreserve
      | moved hpreserve => cases hpreserve
      | removed _ hat' =>
        rw [History.created_of_absent hat'.working]
        exact ⟨_, _, _, .of_at hat' .none .none hsize, hvacuous _ _⟩
      | installed hat' =>
        refine ⟨_, _, _, .of_at hat' (.container hinitial) .none (hsha source), ?_⟩
        have hcreated : history.created config files t =
            { last := some (config.sourceLessInitialWorkingCopy.getD source) } := by
          unfold History.created
          rw [if_pos ⟨habsent, hrecovery, by rw [hat'.working]; simp⟩, hsource]
          rfl
        rw [hcreated]
        intro p hp
        exact .inl ⟨_, rfl, .inl (Option.some.inj hp)⟩

theorem load_leaves (hstored : Stored sha256 config sourceSha256 files working recovery)
    (hkept : Kept history working recovery) :
    Leaves (load sha256 config) files (Loaded sha256 config history)
      (fun _ t => Promised sha256 config (history.created config files t) t) := by
  have hpromised : Promised sha256 config (history.created config files files) files := by
    rw [History.created_self]
    exact ⟨_, _, _, hstored, hkept⟩
  have hsize := hstored.sha256_size
  unfold load
  refine .get fun outcomes => ?_
  dsimp only
  refine .bind (liftExcept_leaves ?_ fun _ _ => hpromised)
  intro source hsource
  cases hworking : files .working with
  | none => exact loadWithoutPrimary_leaves hsha hsource hstored hkept hworking
  | some bytes =>
    dsimp only
    cases hdecode : decodeContainer sha256 config (sha256 source) bytes with
    | ok result =>
      obtain ⟨hresult, hsame⟩ := Holds.decode hsha hstored.working hsize hworking (hsha source)
        hdecode
      subst hresult
      refine .pure ⟨⟨recovery, ?_⟩, rfl, hstored.working.2 result rfl, ?_⟩
      · rw [← hsame] at hstored
        exact hstored
      · intro p hp
        refine ⟨?_, by simp⟩
        rcases hkept p hp with ⟨q, hq, hcases⟩ | ⟨hq, -⟩
        · cases hq
          exact hcases
        · cases hq
    | error error =>
      refine .ite (fun _ => .raise hpromised) fun hpresent => ?_
      -- The primary container is in order, so it is the source that is another one, and the
      -- recovery container is refused as well.
      have hother : sha256 source ≠ sourceSha256 := by
        intro hsame
        obtain ⟨result, hok⟩ := Holds.decodes hsha hstored.working hsize hworking
        rw [hsame, hok] at hdecode
        cases hdecode
      unfold loadWithoutPrimary
      refine .get fun outcomes => ?_
      dsimp only
      cases hrecovery : files .recovery with
      | none =>
        rw [hrecovery] at hpresent
        exact absurd rfl hpresent
      | some bytes' =>
        refine .bind (liftExcept_leaves ?_ fun _ _ => hpromised)
        intro result hok
        obtain ⟨-, hsame⟩ := Holds.decode hsha hstored.recovery hsize hrecovery (hsha source) hok
        exact absurd hsame hother

end

/-! ## Saving -/

section
variable (h : Kept history working recovery)
include h

theorem Kept.interrupted (payload : Bytes) (hnone : history.interrupted = none) :
    Kept { history with interrupted := some payload } working recovery := by
  intro p hp
  rcases h p hp with ⟨q, hq, hcases⟩ | hmoved
  · refine .inl ⟨q, hq, ?_⟩
    rcases hcases with rfl | hcontra
    · exact .inl rfl
    · rw [hnone] at hcontra
      cases hcontra
  · exact .inr hmoved

theorem Kept.halted (payload : Bytes) (hnone : history.interrupted = none)
    (halt : Halt StorageError) : Kept (history.halted payload halt) working recovery := by
  cases halt with
  | thrown error => exact h
  | stopped => exact h.interrupted payload hnone

/-- The working container is as good in the recovery file. -/
theorem Kept.moved (hnone : history.interrupted = none)
    (hworking : working ≠ none) : Kept history none working := by
  intro p hp
  rcases h p hp with ⟨q, hq, hcases⟩ | ⟨hcontra, -⟩
  · rcases hcases with rfl | hcontra
    · exact .inr ⟨rfl, hq⟩
    · rw [hnone] at hcontra
      cases hcontra
  · exact absurd hcontra hworking

/-- The recovery container is needed only when there is no other. -/
theorem Kept.withoutRecovery (hworking : working ≠ none) : Kept history working none := by
  intro p hp
  rcases h p hp with hq | ⟨hcontra, -⟩
  · exact .inl hq
  · exact absurd hcontra hworking

end

section
variable {sha256 : Bytes → Bytes} {config : PersistentImageConfig} {sourceSha256 : Bytes}
  {history : History} {files : StorageFiles} {working recovery : Option Bytes}

/-- The old container of a `publish` that keeps it has a payload. -/
theorem Stored.working_ne_none (h : Stored sha256 config sourceSha256 files working recovery)
    {old : Bytes} (hold : files .working = some old) : working ≠ none := by
  rintro rfl
  have hholds := h.working.1
  rw [hold] at hholds
  cases hholds

variable {image : PersistentImage}

section
variable (hstored : Stored sha256 config image.sourceSha256 files working recovery)
include hstored

theorem Interrupted.kept
    (hkept : Kept history working recovery) (hnone : history.interrupted = none)
    (hlength : image.working.length = config.expectedSize) {halt : Halt StorageError}
    {files' : StorageFiles} (h : Interrupted (files .working) (files .recovery) true
      (encodeContainer sha256 config image.sourceSha256 image.working) halt files') :
    ∃ w r, Stored sha256 config image.sourceSha256 files' w r ∧
      Kept (history.halted image.working halt) w r := by
  have hsize := hstored.sha256_size
  cases h with
  | unchanged hat =>
    exact ⟨_, _, .of_at hat hstored.working hstored.recovery hsize, hkept.halted _ hnone _⟩
  | noRecovery _ hold hat =>
    have hpresent := hstored.working_ne_none hold
    exact ⟨_, _, .of_at hat hstored.working .none hsize,
      (hkept.withoutRecovery hpresent).halted _ hnone _⟩
  | moved _ hold hat =>
    have hpresent := hstored.working_ne_none hold
    exact ⟨_, _, .of_at hat .none hstored.working hsize, (hkept.moved hnone hpresent).halted _ hnone _⟩
  | removed hpreserve => cases hpreserve
  | installed hat =>
    have hinterrupted : ∀ r, Kept { history with interrupted := some image.working }
        (some image.working) r := fun r p hp => .inl ⟨_, rfl, .inr rfl⟩
    cases hold : files .working with
    | none =>
      rw [hold] at hat
      exact ⟨_, _, .of_at hat (.container hlength) hstored.recovery hsize, hinterrupted _⟩
    | some old =>
      rw [hold] at hat
      have hholds := hstored.working
      rw [hold] at hholds
      exact ⟨_, _, .of_at hat (.container hlength) hholds hsize, hinterrupted _⟩

/-- A save that returns has stored the payload; one that does not has kept the promise. -/
theorem save_leaves (hkept : Kept history working recovery) (hnone : history.interrupted = none)
    (hlength : image.working.length = config.expectedSize) (hdirty : image.dirty = true) :
    Leaves (save sha256 config image) files
      (fun image' t => image'.working = image.working ∧ image'.sourceSha256 = image.sourceSha256 ∧
        ∃ r, Stored sha256 config image.sourceSha256 t (some image.working) r)
      (fun halt t => ∃ w r, Stored sha256 config image.sourceSha256 t w r ∧
        Kept (history.halted image.working halt) w r) := by
  unfold save
  rw [hdirty]
  refine .get fun outcomes => ?_
  dsimp only
  refine .bind (liftExcept_leaves ?_ fun _ _ => ⟨_, _, hstored, hkept⟩)
  intro _ _
  refine .bind ((publish_leaves sha256 config image true ⟨rfl, rfl⟩).mono ?_ ?_)
  · intro _ t ht
    refine .pure ⟨rfl, rfl, ?_⟩
    unfold Published at ht
    cases hold : files .working with
    | none =>
      rw [hold] at ht
      exact ⟨_, .of_at ht (.container hlength) hstored.recovery hstored.sha256_size⟩
    | some old =>
      rw [hold] at ht
      have hholds := hstored.working
      rw [hold] at hholds
      exact ⟨_, .of_at ht (.container hlength) hholds hstored.sha256_size⟩
  · intro halt t ht
    exact ht.kept hstored hkept hnone hlength

end

/-- Nothing is written, and nothing can throw, for an image that is not dirty. -/
theorem save_clean (h : image.dirty = false)
    (disk : Disk FileName Bytes) : save sha256 config image disk = .ok image disk := by
  unfold save
  rw [h]
  rfl

end

/-! ## Editing -/

variable {image : PersistentImage} {image' : PersistentImage}

theorem writeByte_ok {offset : Nat} {value : Byte} (h : image.writeByte offset value = .ok image') :
    image' = image ∨ image'.dirty = true ∧ image'.working.length = image.working.length ∧
      image'.sourceSha256 = image.sourceSha256 := by
  unfold PersistentImage.writeByte at h
  split at h
  · cases h
  split at h
  · cases h
    exact .inl rfl
  · cases h
    exact .inr ⟨rfl, List.length_set, rfl⟩

theorem write_ok {offset : Nat} (h : image.write offset bytes = .ok image') :
    image' = image ∨ image'.dirty = true ∧ image'.working.length = image.working.length ∧
      image'.sourceSha256 = image.sourceSha256 := by
  unfold PersistentImage.write at h
  split at h
  · cases h
  rename_i hinside
  split at h
  · cases h
    exact .inl rfl
  · cases h
    refine .inr ⟨rfl, ?_, rfl⟩
    simp only [List.length_append, List.length_take, List.length_drop]
    omega

namespace Consistent
variable {sha256 : Bytes → Bytes} {config : PersistentImageConfig} {s : Session} {history : History}

theorem edit (h : Consistent sha256 config s history)
    (himage : s.image = some image) {result : Except StorageError PersistentImage}
    (hresult : ∀ image', result = .ok image' → image' = image ∨ image'.dirty = true ∧
      image'.working.length = image.working.length ∧ image'.sourceSha256 = image.sourceSha256) :
    Consistent sha256 config (s.edit result) history := by
  unfold Session.edit
  cases hcases : result with
  | error error => exact h
  | ok image' =>
    dsimp only
    rcases hresult image' hcases with rfl | ⟨hdirty, hlength, hsource⟩
    · rw [← himage]
      exact h
    · obtain ⟨sourceSha256, working, recovery, hstored, hkept, hown⟩ := h.stored
      obtain ⟨hsize, hlast, hnone, -⟩ := h.image image himage
      refine ⟨⟨sourceSha256, working, recovery, hstored, hkept, ?_⟩, ?_⟩
      · rintro _ ⟨⟩
        exact hsource.trans (hown image himage)
      · rintro _ ⟨⟩
        refine ⟨hlength.trans hsize, hlast, hnone, ?_⟩
        intro hclean
        rw [hdirty] at hclean
        cases hclean

theorem replaceSource (h : Consistent sha256 config s history) (content : Option Bytes) :
    Consistent sha256 config { s with files := Function.update s.files .source content } history := by
  obtain ⟨sourceSha256, working, recovery, hstored, hkept, hown⟩ := h.stored
  have hat : At (Function.update s.files .source content) (s.files .working) (s.files .recovery) :=
    ⟨by simp, by simp⟩
  exact ⟨⟨sourceSha256, working, recovery,
    .of_at hat hstored.working hstored.recovery hstored.sha256_size, hkept, hown⟩, h.image⟩

theorem reopen (hsha : ∀ bytes, (sha256 bytes).length = 64)
    (h : Consistent sha256 config s history) (outcomes : List Outcome) :
    Consistent sha256 config (step sha256 config s (.reopen outcomes))
      (history.follow sha256 config s (.reopen outcomes)) := by
  obtain ⟨sourceSha256, working, recovery, hstored, hkept, -⟩ := h.stored
  have hleaves := load_leaves hsha hstored hkept outcomes
  unfold Ensures at hleaves
  simp only [step, Session.reopen, History.follow]
  cases hload : load sha256 config ⟨s.files, outcomes⟩ with
  | ok image disk =>
    rw [hload] at hleaves
    obtain ⟨⟨r, hstored'⟩, -, hsize, -⟩ := hleaves
    refine ⟨⟨_, _, _, hstored', ?_, ?_⟩, ?_⟩
    · intro p hp
      exact .inl ⟨_, rfl, .inl (Option.some.inj hp)⟩
    · rintro _ ⟨⟩
      rfl
    · rintro _ ⟨⟩
      exact ⟨hsize, rfl, rfl, fun _ => rfl⟩
  | error halt disk =>
    rw [hload] at hleaves
    obtain ⟨_, _, _, hstored', hkept'⟩ := hleaves
    exact ⟨⟨_, _, _, hstored', hkept', by rintro _ ⟨⟩⟩, by rintro _ ⟨⟩⟩

theorem save (h : Consistent sha256 config s history)
    (himage : s.image = some image) (outcomes : List Outcome) :
    Consistent sha256 config (step sha256 config s (.save outcomes))
      (history.follow sha256 config s (.save outcomes)) := by
  obtain ⟨sourceSha256, working, recovery, hstored, hkept, hown⟩ := h.stored
  obtain ⟨hsize, hlast, hnone, hclean⟩ := h.image image himage
  obtain rfl := hown image himage
  simp only [step, Session.save, History.follow, himage]
  cases hdirty : image.dirty with
  | false =>
    rw [save_clean hdirty]
    have hsame : ({ files := s.files, image := some image } : Session) = s := by rw [← himage]
    simpa [hdirty, hsame] using h
  | true =>
    have hleaves := save_leaves hstored hkept hnone hsize hdirty outcomes
    unfold Ensures at hleaves
    cases hsave : PersistentStorage.save sha256 config image ⟨s.files, outcomes⟩ with
    | ok image' disk =>
      rw [hsave] at hleaves
      obtain ⟨hworking, hsource, r, hstored'⟩ := hleaves
      refine ⟨⟨_, _, _, hstored', ?_, ?_⟩, ?_⟩
      · intro p hp
        exact .inl ⟨_, rfl, .inl (hworking.symm.trans (Option.some.inj hp))⟩
      · rintro _ ⟨⟩
        exact hsource
      · rintro _ ⟨⟩
        exact ⟨by rw [hworking]; exact hsize, rfl, rfl, fun _ => rfl⟩
    | error halt disk =>
      rw [hsave] at hleaves
      obtain ⟨_, _, hstored', hkept'⟩ := hleaves
      cases halt with
      | stopped => exact ⟨⟨_, _, _, hstored', hkept', by rintro _ ⟨⟩⟩, by rintro _ ⟨⟩⟩
      | thrown error =>
        refine ⟨⟨_, _, _, hstored', hkept', ?_⟩, ?_⟩
        · rintro _ ⟨⟩
          rfl
        · rintro _ ⟨⟩
          exact ⟨hsize, hlast, hnone, hclean⟩

/-- One step. -/
theorem step (hsha : ∀ bytes, (sha256 bytes).length = 64)
    (h : Consistent sha256 config s history) (action : Action) :
    Consistent sha256 config (step sha256 config s action)
      (history.follow sha256 config s action) := by
  cases action with
  | reopen outcomes => exact h.reopen hsha outcomes
  | replaceSource content => exact h.replaceSource content
  | writeByte offset value =>
    simp only [PersistentStorage.step, History.follow]
    split
    · exact h.edit ‹_› fun _ => writeByte_ok
    · exact h
  | write offset bytes =>
    simp only [PersistentStorage.step, History.follow]
    split
    · exact h.edit ‹_› fun _ => write_ok
    · exact h
  | save outcomes =>
    cases himage : s.image with
    | some image => exact h.save himage outcomes
    | none =>
      simp only [PersistentStorage.step, History.follow, himage]
      exact h

theorem run (hsha : ∀ bytes, (sha256 bytes).length = 64) (actions : List Action)
    (h : Consistent sha256 config s history) :
    Consistent sha256 config (run sha256 config s actions)
      (History.ofRun sha256 config s history actions) := by
  induction actions generalizing s history with
  | nil => exact h
  | cons action rest ih => exact ih (h.step hsha action)

/-- Where no container has been written yet. -/
theorem init (hsha : ∀ bytes, (sha256 bytes).length = 64) {files : StorageFiles}
    (hworking : files .working = none) (hrecovery : files .recovery = none) :
    Consistent sha256 config { files } {} := by
  have hat : At files none none := ⟨hworking, hrecovery⟩
  exact ⟨⟨sha256 [], none, none, .of_at hat .none .none (hsha _), by rintro _ ⟨⟩, by rintro _ ⟨⟩⟩,
    by rintro _ ⟨⟩⟩

end Consistent

/-! ## The repository's hash -/

/-- A container whose payload was exchanged. -/
def exchangePayload (config : PersistentImageConfig) (container payload : Bytes) : Bytes :=
  container.take (fixedHeaderSize + config.kind.length) ++ payload

theorem decodeContainer_other {config config' : PersistentImageConfig}
    {source' payload' result : Bytes} (hsource : source.length = 64)
    (hsource' : source'.length = 64) (h : decodeContainer sha256Bytes config source
      (encodeContainer sha256Bytes config' source' payload') = .ok result) :
    config'.kind = config.kind ∧ payload'.length = config.expectedSize ∧ source' = source ∧
      result = payload' := by
  obtain ⟨hbytes, hlength⟩ := decodeContainer_ok h
  obtain ⟨hkind, hsame, hpayload⟩ :=
    encodeContainer_injective length_sha256Bytes hsource' hsource hbytes
  subst hpayload
  exact ⟨hkind, hlength, hsame, rfl⟩

theorem decodeContainer_exchanged {payload' : Bytes} (hsource : source.length = 64) {result : Bytes}
    (h : decodeContainer sha256Bytes config source (exchangePayload config
      (encodeContainer sha256Bytes config source payload) payload') = .ok result) :
    result = payload' ∧ sha256Bytes payload' = sha256Bytes payload := by
  obtain ⟨hbytes, -⟩ := decodeContainer_ok h
  have hheader : ∀ payload, encodeContainer sha256Bytes config source payload =
      (containerMagic ++ littleEndian 4 contractVersion ++
        littleEndian 4 (BitVec.ofNat 32 config.kind.length) ++
        littleEndian 8 (BitVec.ofNat 64 payload.length) ++ source ++ sha256Bytes payload ++
        config.kind) ++ payload := by
    intro payload
    simp [encodeContainer]
  have hsize : ∀ payload, (containerMagic ++ littleEndian 4 contractVersion ++
      littleEndian 4 (BitVec.ofNat 32 config.kind.length) ++
      littleEndian 8 (BitVec.ofNat 64 payload.length) ++ source ++ sha256Bytes payload ++
      config.kind).length = fixedHeaderSize + config.kind.length := by
    intro payload
    simp only [List.length_append, length_littleEndian, hsource, length_sha256Bytes]
    rfl
  unfold exchangePayload at hbytes
  rw [hheader payload, hheader result, List.take_left' (hsize payload)] at hbytes
  obtain ⟨hsame, hpayload⟩ := List.append_inj hbytes ((hsize payload).trans (hsize result).symm)
  obtain ⟨hsame, -⟩ := List.append_inj' hsame rfl
  obtain ⟨-, hhash⟩ := List.append_inj' hsame (by rw [length_sha256Bytes, length_sha256Bytes])
  subst hpayload
  exact ⟨rfl, hhash.symm⟩

/-- Whatever a run from an empty directory does and wherever its processes stop, the next `load`
that succeeds finds the payload that was last published or the one whose saving was interrupted,
a save that throws changes nothing in the process, and only the container of the own kind, size,
source and payload is accepted. -/
theorem crash_consistency (config : PersistentImageConfig) (files : StorageFiles)
    (hworking : files .working = none) (hrecovery : files .recovery = none)
    (actions : List Action) : (∀ outcomes image disk p,
      load sha256Bytes config ⟨(run sha256Bytes config { files } actions).files, outcomes⟩ =
        .ok image disk → (History.ofRun sha256Bytes config { files } {} actions).last = some p →
      (image.working = p ∨
        (History.ofRun sha256Bytes config { files } {} actions).interrupted = some image.working) ∧
      image.recovery ≠ .createdFromSource) ∧ (∀ outcomes image error disk,
      (run sha256Bytes config { files } actions).image = some image →
      save sha256Bytes config image ⟨(run sha256Bytes config { files } actions).files, outcomes⟩ =
        .error (.thrown error) disk → image.dirty = true ∧
        (run sha256Bytes config { files } (actions ++ [.save outcomes])).image = some image) ∧
    (∀ source payload bytes, source.length = 64 →
      (decodeContainer sha256Bytes config source bytes = .ok payload ↔
        bytes = encodeContainer sha256Bytes config source payload ∧
          payload.length = config.expectedSize)) ∧
    (∀ config' source source' payload' result, source.length = 64 → source'.length = 64 →
      decodeContainer sha256Bytes config source
        (encodeContainer sha256Bytes config' source' payload') = .ok result →
      config'.kind = config.kind ∧ payload'.length = config.expectedSize ∧ source' = source ∧
        result = payload') ∧ (∀ source payload payload', source.length = 64 → payload' ≠ payload →
      (sha256Bytes payload' = sha256Bytes payload → payload' = payload) →
      ∃ error, decodeContainer sha256Bytes config source (exchangePayload config
        (encodeContainer sha256Bytes config source payload) payload') = .error error) := by
  have hrun : Consistent sha256Bytes config (run sha256Bytes config { files } actions)
      (History.ofRun sha256Bytes config { files } {} actions) :=
    (Consistent.init length_sha256Bytes hworking hrecovery).run length_sha256Bytes actions
  refine ⟨?_, ?_, ?_, ?_, ?_⟩
  · intro outcomes image disk p hload hlast
    obtain ⟨_, _, _, hstored, hkept, -⟩ := hrun.stored
    have hleaves := load_leaves length_sha256Bytes hstored hkept outcomes
    unfold Ensures at hleaves
    rw [hload] at hleaves
    exact hleaves.promised p hlast
  · intro outcomes image error disk himage hsave
    have hdirty : image.dirty = true := by
      cases hclean : image.dirty with
      | true => rfl
      | false =>
        rw [save_clean hclean] at hsave
        cases hsave
    refine ⟨hdirty, ?_⟩
    unfold run at himage hsave ⊢
    rw [List.foldl_append]
    simp only [List.foldl_cons, List.foldl_nil, step, himage, Session.save, hsave]
  · intro source payload bytes hsource
    exact decodeContainer_ok_iff length_sha256Bytes hsource
  · intro config' source source' payload' result hsource hsource' h
    exact decodeContainer_other hsource hsource' h
  · intro source payload payload' hsource hne hcollision
    cases hdecode : decodeContainer sha256Bytes config source (exchangePayload config
      (encodeContainer sha256Bytes config source payload) payload') with
    | error error => exact ⟨error, rfl⟩
    | ok result => exact absurd (hcollision (decodeContainer_exchanged hsource hdecode).2) hne

/-- A flash image of one byte without a source. -/
def oneByteFlash : PersistentImageConfig where
  kind := [0x46]
  hasSource := false
  expectedSize := 1
  kind_size := by decide
  expectedSize_pos := by decide
  expectedSize_lt := by decide
  initial_size := by simp

/-- The second save moves the old container aside and is then cut off. -/
def interruptedSave : List Action :=
  [ .reopen [], .writeByte 0 1, .save [], .writeByte 0 2,
    .save [.happens, .happens, .happens, .happens, .stops] ]

theorem crash_consistency_oneByteFlash : (∃ image disk, load sha256Bytes oneByteFlash
        ⟨(run sha256Bytes oneByteFlash { files := fun _ => none } interruptedSave).files, []⟩ =
          .ok image disk ∧ image.recovery ≠ .createdFromSource) ∧
    (∃ image : PersistentImage, image.dirty = true ∧
      (run sha256Bytes oneByteFlash { files := fun _ => none }
        ([.reopen [], .writeByte 0 1] ++ [.save [.fails]])).image = some image) ∧
    decodeContainer sha256Bytes oneByteFlash (sha256Bytes [0xFF])
      (encodeContainer sha256Bytes oneByteFlash (sha256Bytes [0xFF]) [7]) = .ok [7] ∧
    (∃ error, decodeContainer sha256Bytes oneByteFlash (sha256Bytes [0xFF])
      (exchangePayload oneByteFlash
        (encodeContainer sha256Bytes oneByteFlash (sha256Bytes [0xFF]) [7]) [8]) =
          .error error) := by
  have hcodec := (crash_consistency oneByteFlash (fun _ => none) rfl rfl []).2.2
  have hread := (hcodec.1 (sha256Bytes [0xFF]) [7] _ (length_sha256Bytes _)).mpr ⟨rfl, rfl⟩
  have hsame := hcodec.2.1 oneByteFlash _ _ _ _ (length_sha256Bytes _) (length_sha256Bytes _) hread
  refine ⟨?_, ?_, hsame.2.2.2 ▸ hread, hcodec.2.2 _ [7] [8] (length_sha256Bytes _) (by decide)
    fun h => absurd h (by decide +kernel)⟩
  · have hlast : (History.ofRun sha256Bytes oneByteFlash { files := fun _ => none } {}
        interruptedSave).last = some [1] := by decide +kernel
    have hok : returned (load sha256Bytes oneByteFlash
        ⟨(run sha256Bytes oneByteFlash { files := fun _ => none } interruptedSave).files, []⟩) =
          true := by decide +kernel
    cases hload : load sha256Bytes oneByteFlash
        ⟨(run sha256Bytes oneByteFlash { files := fun _ => none } interruptedSave).files, []⟩ with
    | error halt disk =>
      rw [hload] at hok
      cases hok
    | ok image disk =>
      have h := crash_consistency oneByteFlash (fun _ => none) rfl rfl interruptedSave
      exact ⟨image, disk, rfl, (h.1 [] image disk [1] hload hlast).2⟩
  · have hedited : (run sha256Bytes oneByteFlash { files := fun _ => none }
        [.reopen [], .writeByte 0 1]).image = some
          { source := [0xFF], working := [1], sourceSha256 := sha256Bytes [0xFF]
            recovery := .createdFromSource, dirty := true } := by decide +kernel
    have hthrown : thrownError (save sha256Bytes oneByteFlash
          { source := [0xFF], working := [1], sourceSha256 := sha256Bytes [0xFF]
            recovery := .createdFromSource, dirty := true }
          ⟨(run sha256Bytes oneByteFlash { files := fun _ => none }
            [.reopen [], .writeByte 0 1]).files, [.fails]⟩) = some .filesystem := by
      decide +kernel
    obtain ⟨disk, hsave⟩ := eq_of_thrownError hthrown
    have h := crash_consistency oneByteFlash (fun _ => none) rfl rfl [.reopen [], .writeByte 0 1]
    exact ⟨_, h.2.1 [.fails] _ _ disk hedited hsave⟩

end KatanaRecomp.Runtime.PersistentStorage
