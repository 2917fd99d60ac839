import KatanaRecomp.Lib.ByteFormat
import KatanaRecomp.Lib.StateExcept

/-! # The system replay

`SystemReplayLog` records the events of a run: all of them (`exactEvents`), or
the first ones as witnesses and a digest over all (`digestStream`). A sealed log
is the expectation of a second run, which `DeterministicSystemReplay` compares
event by event and `DeterministicSystemReplayDigest` by witnesses, digest and
counters. A 64-bit counter is a natural number, since the log refuses an event
before one of its counters overflows. The serialization is left out. -/
namespace KatanaRecomp.Runtime.SystemReplay
open Lib ByteFormat

def uint64Max : Nat := 2 ^ 64 - 1

/-! ## Events -/

/-- The enumeration has one byte; `unknown` are the values without a name. -/
inductive SystemReplayEventKind
  | cpuSafepoint | mmioRead | mmioWrite | dma | interrupt | timer | schedulerCallback | video
  | audio | externalInput | hostEvent | blockDispatchHit | blockDispatchMiss
  | controlledFallback | guestException | guestCheckpoint
  | unknown (above : Fin 240)
  deriving DecidableEq

def SystemReplayEventKind.toByte : SystemReplayEventKind → Byte
  | .cpuSafepoint => 0
  | .mmioRead => 1
  | .mmioWrite => 2
  | .dma => 3
  | .interrupt => 4
  | .timer => 5
  | .schedulerCallback => 6
  | .video => 7
  | .audio => 8
  | .externalInput => 9
  | .hostEvent => 10
  | .blockDispatchHit => 11
  | .blockDispatchMiss => 12
  | .controlledFallback => 13
  | .guestException => 14
  | .guestCheckpoint => 15
  | .unknown above => BitVec.ofNat 8 (16 + above.val)

inductive SystemReplayProfile
  | general | deterministicV1
  | unknown (above : Fin 254)
  deriving DecidableEq

def SystemReplayProfile.toByte : SystemReplayProfile → Byte
  | .general => 0
  | .deterministicV1 => 1
  | .unknown above => BitVec.ofNat 8 (2 + above.val)

inductive SystemReplayStorageMode
  | exactEvents | digestStream
  | unknown (above : Fin 254)
  deriving DecidableEq

structure SystemReplayEvent where
  sequence : BitVec 64 := 0
  guestCycle : BitVec 64 := 0
  kind : SystemReplayEventKind := .cpuSafepoint
  code : List Byte := []
  address : Option (BitVec 32) := none
  value : Option (BitVec 32) := none
  detail : BitVec 64 := 0
  auxiliary : BitVec 64 := 0
  injected : Bool := false
  timeEpoch : BitVec 64 := 0
  deriving DecidableEq

inductive ReplayError
  | event | profile | capacity | storageMode
  | unknownCoverage | coverageSealed | coverageLate
  | recordSealed | noHook | timeBackwards | capacityExhausted | sequenceOverflow | counterOverflow
  | notExternal | sealedTwice | incomplete | notSealed
  | replayIncomplete | replayUnsealed | replayHooks | replayClasses | replayDigest
  | digestMode | digestIncomplete | digestUnsealed | digestHooks | digestClasses
  | finished | finishedTwice | digestFinished | digestFinishedTwice
  /-- `SystemReplayMismatch` at an event. -/
  | additionalEvent (index : Nat)
  | differentEvent (index : Nat)
  | differentWitness (index : Nat)
  | missingEvent (index : Nat)
  | differentDigest (index : Nat)
  | differentState (index : Nat)

/-- The bytes of a text in the source; all of them are ASCII. -/
def text (value : String) : List Byte := value.toList.map fun c => BitVec.ofNat 8 c.toNat

def maximumCodeLength : Nat := 64

/-- Lower-case letters, digits and `-`, `_`, `.`. -/
def codeByte (value : Byte) : Bool :=
  (0x61 ≤ value && value ≤ 0x7A) || (0x30 ≤ value && value ≤ 0x39) ||
    value == 0x2D || value == 0x5F || value == 0x2E

def stableCode (value : List Byte) : Bool :=
  !value.isEmpty && value.length ≤ maximumCodeLength && value.all codeByte

def externalKind : SystemReplayEventKind → Bool
  | .externalInput | .hostEvent => true
  | _ => false

def knownEventKind : SystemReplayEventKind → Bool
  | .unknown _ => false
  | _ => true

def validateEvent (event : SystemReplayEvent) : Except ReplayError Unit :=
  if !knownEventKind event.kind || !stableCode event.code ||
      externalKind event.kind != event.injected then
    .error .event
  else .ok ()

/-! ## Coverage -/

/-- The classes of events; class `i` is bit `i` of a mask. -/
inductive SystemReplayCoverage
  | cpuSafepoint | schedulerCallback | acceptedInterrupt | video | audio | input | mmio | dma
  | blockDispatch | guestException | controlledFallback | guestCheckpoint

def SystemReplayCoverage.mask : SystemReplayCoverage → BitVec 32
  | .cpuSafepoint => 0x001
  | .schedulerCallback => 0x002
  | .acceptedInterrupt => 0x004
  | .video => 0x008
  | .audio => 0x010
  | .input => 0x020
  | .mmio => 0x040
  | .dma => 0x080
  | .blockDispatch => 0x100
  | .guestException => 0x200
  | .controlledFallback => 0x400
  | .guestCheckpoint => 0x800

def allCoverage : BitVec 32 := 0xFFF

def contingentNegativeCoverage : BitVec 32 :=
  SystemReplayCoverage.guestException.mask ||| SystemReplayCoverage.controlledFallback.mask

def deterministicExpectedObservedCoverage : BitVec 32 := allCoverage &&& ~~~contingentNegativeCoverage

def systemReplayRequiredCoverage : SystemReplayProfile → BitVec 32
  | .general => 0
  | _ => allCoverage

def systemReplayExpectedObservedCoverage : SystemReplayProfile → BitVec 32
  | .general => 0
  | _ => deterministicExpectedObservedCoverage

def systemReplayEventCoverage (event : SystemReplayEvent) : BitVec 32 :=
  match event.kind with
  | .cpuSafepoint => SystemReplayCoverage.cpuSafepoint.mask
  | .mmioRead | .mmioWrite => SystemReplayCoverage.mmio.mask
  | .dma => SystemReplayCoverage.dma.mask
  | .interrupt =>
    if event.code = text "interrupt-accepted" then SystemReplayCoverage.acceptedInterrupt.mask
    else 0
  | .schedulerCallback => SystemReplayCoverage.schedulerCallback.mask
  | .video => SystemReplayCoverage.video.mask
  | .audio => SystemReplayCoverage.audio.mask
  | .externalInput => SystemReplayCoverage.input.mask
  | .blockDispatchHit | .blockDispatchMiss => SystemReplayCoverage.blockDispatch.mask
  | .guestException => SystemReplayCoverage.guestException.mask
  | .controlledFallback => SystemReplayCoverage.controlledFallback.mask
  | .guestCheckpoint => SystemReplayCoverage.guestCheckpoint.mask
  | .timer | .hostEvent | .unknown _ => 0

def systemReplayCoverageClassCount : Nat := 12

abbrev SystemReplayEventCounts := Fin systemReplayCoverageClassCount → Nat

/-- Every class of the mask counts one event more. -/
def SystemReplayEventCounts.count (counts : SystemReplayEventCounts) (coverage : BitVec 32) :
    SystemReplayEventCounts :=
  fun i => if coverage.getLsbD i.val then counts i + 1 else counts i

/-! ## The digest -/

def fnvOffset : BitVec 64 := 14695981039346656037

def fnvPrime : BitVec 64 := 1099511628211

def hashByte (hash : BitVec 64) (value : Byte) : BitVec 64 := (hash ^^^ value.setWidth 64) * fnvPrime

def hashBytes (hash : BitVec 64) (values : List Byte) : BitVec 64 := values.foldl hashByte hash

def hashU64 (hash value : BitVec 64) : BitVec 64 := hashBytes hash (littleEndian 8 value)

def hashOptional (hash : BitVec 64) : Option (BitVec 32) → BitVec 64
  | none => hashByte hash 0
  | some value => hashU64 (hashByte hash 1) (value.setWidth 64)

def hashEvent (hash : BitVec 64) (event : SystemReplayEvent) : BitVec 64 :=
  let hash := hashU64 hash event.sequence
  let hash := hashU64 hash event.guestCycle
  let hash := hashByte hash event.kind.toByte
  let hash := hashBytes hash event.code
  let hash := hashByte hash 0
  let hash := hashOptional hash event.address
  let hash := hashOptional hash event.value
  let hash := hashU64 hash event.detail
  let hash := hashU64 hash event.auxiliary
  let hash := hashByte hash (if event.injected then 1 else 0)
  hashU64 hash event.timeEpoch

def systemReplaySchemaVersion : BitVec 64 := 8

def orderingDigestDomain : List Byte := text "katana-system-replay-order-v2"

def orderingDigestCountsDomain : List Byte := text "katana-system-replay-counts-v1"

def orderingDigestSeed (profile : SystemReplayProfile) (enabled : BitVec 32) : BitVec 64 :=
  let hash := hashBytes fnvOffset orderingDigestDomain
  let hash := hashByte hash 0
  let hash := hashU64 hash systemReplaySchemaVersion
  let hash := hashByte hash profile.toByte
  hashU64 hash (enabled.setWidth 64)

def finalizeOrderingDigest (eventStreamDigest : BitVec 64) (eventCount : Nat)
    (observedCoverage : BitVec 32) (eventCounts : SystemReplayEventCounts) : BitVec 64 :=
  let hash := hashBytes fnvOffset orderingDigestCountsDomain
  let hash := hashByte hash 0
  let hash := hashU64 hash systemReplaySchemaVersion
  let hash := hashU64 hash eventStreamDigest
  let hash := hashU64 hash (BitVec.ofNat 64 eventCount)
  let hash := hashU64 hash (observedCoverage.setWidth 64)
  (List.ofFn eventCounts).foldl (fun hash count => hashU64 hash (BitVec.ofNat 64 count)) hash

/-! ## The log -/

def maximumCapacity : Nat := 65536

structure SystemReplayConfig where
  capacity : Nat := 4096
  profile : SystemReplayProfile := .general
  storageMode : SystemReplayStorageMode := .exactEvents

structure SystemReplayLog where
  config : SystemReplayConfig
  events : List SystemReplayEvent := []
  eventCount : Nat := 0
  lastGuestCycle : Option (BitVec 64) := none
  lastTimeEpoch : Option (BitVec 64) := none
  finalGuestStateHash : Option (BitVec 64) := none
  droppedEvents : Nat := 0
  orderingDigestState : BitVec 64 := 0
  enabledCoverage : BitVec 32 := 0
  observedCoverage : BitVec 32 := 0
  requiredCoverage : BitVec 32 := 0
  eventCounts : SystemReplayEventCounts := fun _ => 0
  orderingDigestInitialized : Bool := false

/-- A throw leaves the object as it then is. -/
abbrev ReplayM := EStateM ReplayError SystemReplayLog

def SystemReplayLog.create (config : SystemReplayConfig) : Except ReplayError SystemReplayLog :=
  if config.profile ≠ .general ∧ config.profile ≠ .deterministicV1 then .error .profile
  else if config.capacity = 0 ∨ maximumCapacity < config.capacity then .error .capacity
  else if config.storageMode ≠ .exactEvents ∧ config.storageMode ≠ .digestStream then
    .error .storageMode
  else .ok { config, requiredCoverage := systemReplayRequiredCoverage config.profile }

namespace SystemReplayLog

def isSealed (log : SystemReplayLog) : Bool := log.finalGuestStateHash.isSome

def enableCoverage (log : SystemReplayLog) (coverage : BitVec 32) :
    Except ReplayError SystemReplayLog :=
  if coverage &&& ~~~allCoverage ≠ 0 then .error .unknownCoverage
  else if log.isSealed then .error .coverageSealed
  else if log.eventCount ≠ 0 ∨ log.droppedEvents ≠ 0 ∨ log.orderingDigestInitialized then
    .error .coverageLate
  else .ok { log with enabledCoverage := log.enabledCoverage ||| coverage }

def noteDroppedEvent (log : SystemReplayLog) : SystemReplayLog :=
  if log.isSealed then log
  else if log.droppedEvents ≠ uint64Max then { log with droppedEvents := log.droppedEvents + 1 }
  else log

/-- The pair of reset epoch and guest cycle lies before that of the last event. -/
def runsBackwards (log : SystemReplayLog) (event : SystemReplayEvent) : Bool :=
  match log.lastTimeEpoch, log.lastGuestCycle with
  | some timeEpoch, some guestCycle =>
    event.timeEpoch < timeEpoch || (event.timeEpoch == timeEpoch && event.guestCycle < guestCycle)
  | _, _ => false

/-- The checks that `record` makes before it looks at the capacity. -/
def checkEvent (log : SystemReplayLog) (event : SystemReplayEvent) : Except ReplayError Unit :=
  if log.isSealed then .error .recordSealed
  else do
    validateEvent event
    if log.config.profile = .deterministicV1 ∧
        systemReplayEventCoverage event &&& ~~~log.enabledCoverage ≠ 0 then
      .error .noHook
    else if log.runsBackwards event then .error .timeBackwards
    else .ok ()

/-- The checks behind it. -/
def checkCounters (log : SystemReplayLog) (event : SystemReplayEvent) : Except ReplayError Unit :=
  if log.eventCount = uint64Max then .error .sequenceOverflow
  else if ∃ i : Fin systemReplayCoverageClassCount,
      (systemReplayEventCoverage event).getLsbD i.val = true ∧ log.eventCounts i = uint64Max then
    .error .counterOverflow
  else .ok ()

def retainsEvent (log : SystemReplayLog) : Bool :=
  log.config.storageMode == .exactEvents || log.events.length < log.config.capacity

/-- The event takes the next sequence number. -/
def accept (log : SystemReplayLog) (event : SystemReplayEvent) : SystemReplayLog :=
  let event := { event with sequence := BitVec.ofNat 64 log.eventCount }
  let digest :=
    if log.orderingDigestInitialized then log.orderingDigestState
    else orderingDigestSeed log.config.profile log.enabledCoverage
  let coverage := systemReplayEventCoverage event
  { log with
    events := if log.retainsEvent then log.events ++ [event] else log.events
    orderingDigestState := hashEvent digest event
    orderingDigestInitialized := true
    observedCoverage := log.observedCoverage ||| coverage
    eventCounts := log.eventCounts.count coverage
    lastGuestCycle := some event.guestCycle
    lastTimeEpoch := some event.timeEpoch
    eventCount := log.eventCount + 1 }

def record (event : SystemReplayEvent) : ReplayM Unit := do
  let log ← get
  ofChecked (log.checkEvent event)
  if log.config.storageMode = .exactEvents ∧ log.events.length = log.config.capacity then do
    modify noteDroppedEvent
    throw .capacityExhausted
  else do
    ofChecked (log.checkCounters event)
    modify fun log => log.accept event

def tryRecord (event : SystemReplayEvent) : ReplayM Bool := do
  let droppedBefore := (← get).droppedEvents
  tryCatch (do record event; pure true) fun _ => do
    modify fun log => if log.droppedEvents = droppedBefore then log.noteDroppedEvent else log
    pure false

def inject (event : SystemReplayEvent) : ReplayM Unit :=
  if !externalKind event.kind then throw .notExternal
  else record { event with injected := true }

def sealWith (finalGuestStateHash : BitVec 64) : ReplayM Unit := do
  let log ← get
  if log.isSealed then throw .sealedTwice
  else if log.droppedEvents ≠ 0 then throw .incomplete
  else set { log with finalGuestStateHash := some finalGuestStateHash }

def summarizedEventCount (log : SystemReplayLog) : Nat := log.eventCount - log.events.length

def exactEventStreamAvailable (log : SystemReplayLog) : Bool :=
  log.droppedEvents == 0 && log.summarizedEventCount == 0

def orderingDigest (log : SystemReplayLog) : BitVec 64 :=
  let eventStreamDigest :=
    if log.orderingDigestInitialized then log.orderingDigestState
    else orderingDigestSeed log.config.profile log.enabledCoverage
  finalizeOrderingDigest eventStreamDigest log.eventCount log.observedCoverage log.eventCounts

def hooksComplete (log : SystemReplayLog) : Bool :=
  log.requiredCoverage &&& ~~~log.enabledCoverage == 0

def observedComplete (log : SystemReplayLog) : Bool :=
  systemReplayExpectedObservedCoverage log.config.profile &&& ~~~log.observedCoverage == 0

def finalStateHash (log : SystemReplayLog) : Except ReplayError (BitVec 64) :=
  match log.finalGuestStateHash with
  | some hash => .ok hash
  | none => .error .notSealed

end SystemReplayLog

/-! ## The exact replay -/

structure DeterministicSystemReplay where
  expected : List SystemReplayEvent
  expectedGuestStateHash : BitVec 64
  position : Nat := 0
  finished : Bool := false

namespace DeterministicSystemReplay

def create (expected : SystemReplayLog) : Except ReplayError DeterministicSystemReplay :=
  if expected.droppedEvents ≠ 0 then .error .replayIncomplete
  else if !expected.isSealed then .error .replayUnsealed
  else if !expected.hooksComplete then .error .replayHooks
  else if !expected.observedComplete then .error .replayClasses
  else if expected.config.storageMode ≠ .exactEvents ∨ !expected.exactEventStreamAvailable then
    .error .replayDigest
  else do
    let expectedGuestStateHash ← expected.finalStateHash
    pure { expected := expected.events, expectedGuestStateHash }

def observe (event : SystemReplayEvent) : EStateM ReplayError DeterministicSystemReplay Unit := do
  let replay ← get
  if replay.finished then throw .finished
  else do
    ofChecked (validateEvent event)
    if replay.position ≥ replay.expected.length then throw (.additionalEvent replay.position)
    else if some { event with sequence := BitVec.ofNat 64 replay.position } ≠
        replay.expected[replay.position]? then
      throw (.differentEvent replay.position)
    else set { replay with position := replay.position + 1 }

def finish (finalGuestStateHash : BitVec 64) :
    EStateM ReplayError DeterministicSystemReplay Unit := do
  let replay ← get
  if replay.finished then throw .finishedTwice
  else if replay.position ≠ replay.expected.length then throw (.missingEvent replay.position)
  else if finalGuestStateHash ≠ replay.expectedGuestStateHash then
    throw (.differentState replay.position)
  else set { replay with finished := true }

/-- A second run: its events, then its final state. -/
def verify (observed : List SystemReplayEvent) (finalGuestStateHash : BitVec 64) :
    EStateM ReplayError DeterministicSystemReplay Unit := do
  observed.forM observe
  finish finalGuestStateHash

end DeterministicSystemReplay

/-! ## The digest replay -/

structure DeterministicSystemReplayDigest where
  observed : SystemReplayLog
  expectedWitnesses : List SystemReplayEvent
  expectedEventCount : Nat
  expectedOrderingDigest : BitVec 64
  expectedGuestStateHash : BitVec 64
  expectedObservedCoverage : BitVec 32
  expectedEventCounts : SystemReplayEventCounts
  finished : Bool := false

namespace DeterministicSystemReplayDigest

def create (expected : SystemReplayLog) : Except ReplayError DeterministicSystemReplayDigest := do
  let observed ← SystemReplayLog.create
    { capacity := expected.config.capacity
      profile := expected.config.profile
      storageMode := .digestStream }
  if expected.config.storageMode ≠ .digestStream then .error .digestMode
  else if expected.droppedEvents ≠ 0 then .error .digestIncomplete
  else if !expected.isSealed then .error .digestUnsealed
  else if !expected.hooksComplete then .error .digestHooks
  else if !expected.observedComplete then .error .digestClasses
  else do
    let observed ← observed.enableCoverage expected.enabledCoverage
    let expectedGuestStateHash ← expected.finalStateHash
    pure
      { observed
        expectedWitnesses := expected.events
        expectedEventCount := expected.eventCount
        expectedOrderingDigest := expected.orderingDigest
        expectedGuestStateHash
        expectedObservedCoverage := expected.observedCoverage
        expectedEventCounts := expected.eventCounts }

/-- A call of the log of the second run. -/
def onObserved {α : Type} (call : ReplayM α) :
    EStateM ReplayError DeterministicSystemReplayDigest α := fun replay =>
  match call replay.observed with
  | .ok value observed => .ok value { replay with observed }
  | .error e observed => .error e { replay with observed }

def observe (event : SystemReplayEvent) :
    EStateM ReplayError DeterministicSystemReplayDigest Unit := do
  let replay ← get
  let eventIndex := replay.observed.eventCount
  if replay.finished then throw .digestFinished
  else if eventIndex ≥ replay.expectedEventCount then throw (.additionalEvent eventIndex)
  else do
    onObserved (SystemReplayLog.record event)
    let replay ← get
    if eventIndex < replay.expectedWitnesses.length ∧
        replay.observed.events.getLast? ≠ replay.expectedWitnesses[eventIndex]? then
      throw (.differentWitness eventIndex)
    else pure ()

/-- Digest, coverage and counters of the second run are the expected ones. -/
def agrees (replay : DeterministicSystemReplayDigest) : Bool :=
  replay.observed.orderingDigest == replay.expectedOrderingDigest &&
    replay.observed.observedCoverage == replay.expectedObservedCoverage &&
    decide (replay.observed.eventCounts = replay.expectedEventCounts)

def finish (finalGuestStateHash : BitVec 64) :
    EStateM ReplayError DeterministicSystemReplayDigest Unit := do
  let replay ← get
  if replay.finished then throw .digestFinishedTwice
  else if replay.observed.eventCount ≠ replay.expectedEventCount then
    throw (.missingEvent replay.observed.eventCount)
  else do
    onObserved (SystemReplayLog.sealWith finalGuestStateHash)
    let replay ← get
    if !replay.agrees then throw (.differentDigest replay.observed.eventCount)
    else if finalGuestStateHash ≠ replay.expectedGuestStateHash then
      throw (.differentState replay.observed.eventCount)
    else set { replay with finished := true }

def verify (observed : List SystemReplayEvent) (finalGuestStateHash : BitVec 64) :
    EStateM ReplayError DeterministicSystemReplayDigest Unit := do
  observed.forM observe
  finish finalGuestStateHash

end DeterministicSystemReplayDigest

/-! ## Recordings -/

/-- The calls that hand an event to a log. -/
inductive Call
  | record (event : SystemReplayEvent)
  | tryRecord (event : SystemReplayEvent)
  | inject (event : SystemReplayEvent)

/-- The event of a call as the log sees it. -/
def Call.event : Call → SystemReplayEvent
  | .record event | .tryRecord event => event
  | .inject event => { event with injected := true }

/-- The call; the value says whether the event was taken. -/
def Call.perform : Call → ReplayM Bool
  | .record event => do SystemReplayLog.record event; pure true
  | .tryRecord event => SystemReplayLog.tryRecord event
  | .inject event => do SystemReplayLog.inject event; pure true

/-- The log after a call, whether it returned or threw. -/
def after (log : SystemReplayLog) (call : Call) : SystemReplayLog :=
  match call.perform log with
  | .ok _ next => next
  | .error _ next => next

def feed (log : SystemReplayLog) (calls : List Call) : SystemReplayLog := calls.foldl after log

/-- The call returned and its event was taken. -/
def taken (log : SystemReplayLog) (call : Call) : Bool :=
  match call.perform log with
  | .ok value _ => value
  | .error _ _ => false

/-- The sequence field aside. -/
def SystemReplayEvent.unsequenced (event : SystemReplayEvent) : SystemReplayEvent :=
  { event with sequence := 0 }

/-- The events that the calls have brought into the log. -/
def accepted (log : SystemReplayLog) : List Call → List SystemReplayEvent
  | [] => []
  | call :: calls =>
    (if taken log call then [call.event.unsequenced] else []) ++ accepted (after log call) calls

/-- A new log with its coverage hooks. -/
def started (config : SystemReplayConfig) (coverage : BitVec 32) :
    Except ReplayError SystemReplayLog := do
  let log ← SystemReplayLog.create config
  log.enableCoverage coverage

/-- What a call leaves unless it throws. -/
def returned : EStateM.Result ReplayError SystemReplayLog Unit → Except ReplayError SystemReplayLog
  | .ok _ log => .ok log
  | .error e _ => .error e

/-- A sealed recording. -/
def recording (config : SystemReplayConfig) (coverage : BitVec 32) (calls : List Call)
    (finalGuestStateHash : BitVec 64) : Except ReplayError SystemReplayLog := do
  let log ← started config coverage
  returned (SystemReplayLog.sealWith finalGuestStateHash (feed log calls))

end KatanaRecomp.Runtime.SystemReplay
