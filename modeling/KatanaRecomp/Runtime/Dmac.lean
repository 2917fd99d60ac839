import KatanaRecomp.Lib.ByteFormat
import KatanaRecomp.Lib.StateExcept
import KatanaRecomp.Lib.Word
import KatanaRecomp.Runtime.Scheduler

/-! # The DMA controller

`Sh4Dmac` has four channels and at most one event: it stands where the next
units of the selected channel are moved. Most calls end in `reevaluate`, which
looks whether the planned channel is still enabled and plans another one
otherwise. After a restore the plan waits without an event until the scheduler
is given it back. The memory is a parameter of the model. The observers of
completions and faults do not call the controller and are left out, as is
`start_byte_transfer`, which is five register writes in a row. -/
namespace KatanaRecomp.Runtime.Dmac
open Lib ByteFormat Scheduler

/-- Why a snapshot is refused. -/
inductive RestoreError
  | timing | controller | channels | operation | ambiguousEvent | incompleteEvent
  | inactiveChannel | planWithoutEvent | faultChannel | onDemandChannel
  deriving DecidableEq

inductive DmacError
  | timing | channel | noRequests | progressionContract | mixedProgression | requestOverflow
  | delayOverflow | unknownEvent | unexpectedEvent | completionInThePast
  | resetDuringAdvance | resetGenerationOverflow
  | restore (error : RestoreError)
  | scheduler (error : SchedulerError)
  /-- Thrown by the callback of another device. -/
  | device
  deriving DecidableEq

/-! ## Registers -/

def transferCountMask : BitVec 32 := 0x00FFFFFF
def sourceModeMask : BitVec 32 := 0x00003000
def destinationModeMask : BitVec 32 := 0x0000C000
def requestSourceMask : BitVec 32 := 0x00000F00
def transferSizeMask : BitVec 32 := 0x00000070
def operationWritableMask : BitVec 32 := 0x00008301
def onDemandQueueDepth : Nat := 4

def channelEnable : BitVec 32 := 0x00000001
def transferEnd : BitVec 32 := 0x00000002
def interruptEnable : BitVec 32 := 0x00000004
def masterEnable : BitVec 32 := 0x00000001
def nmiFlag : BitVec 32 := 0x00000002
def addressErrorFlag : BitVec 32 := 0x00000004
def onDemandEnable : BitVec 32 := 0x00008000

def controlWritableMask : BitVec 32 :=
  sourceModeMask ||| destinationModeMask ||| requestSourceMask ||| transferSizeMask |||
    interruptEnable ||| channelEnable ||| 0x00000080

structure DmaTiming where
  guestCyclesPerByte : BitVec 64 := 1
  maximumBatchUnits : BitVec 64 := 256
  deriving DecidableEq

inductive DmaExecutionMode
  | singleUnitReference | deterministicBatch
  deriving DecidableEq

def DmaExecutionMode.byte : DmaExecutionMode → Byte
  | .singleUnitReference => 0
  | .deterministicBatch => 1

def DmaExecutionMode.ofByte (value : Byte) : DmaExecutionMode :=
  if value = 0 then .singleUnitReference else .deterministicBatch

inductive DmaExternalDestinationProgression
  | addressMode | incrementByTransferUnit
  deriving DecidableEq

def DmaExternalDestinationProgression.byte : DmaExternalDestinationProgression → Byte
  | .addressMode => 0
  | .incrementByTransferUnit => 1

def DmaExternalDestinationProgression.ofByte (value : Byte) : DmaExternalDestinationProgression :=
  if value = 0 then .addressMode else .incrementByTransferUnit

/-- `enum class DmaFaultReason : std::uint8_t`. A restored fault may hold any byte. -/
structure DmaFaultReason where
  value : Byte

namespace DmaFaultReason

def none : DmaFaultReason := ⟨0⟩
def invalidTransferSize : DmaFaultReason := ⟨1⟩
def invalidRequestSource : DmaFaultReason := ⟨2⟩
def prohibitedAddressMode : DmaFaultReason := ⟨3⟩
def misalignedAddress : DmaFaultReason := ⟨4⟩
def memoryAccess : DmaFaultReason := ⟨5⟩
def externalContractMismatch : DmaFaultReason := ⟨6⟩

end DmaFaultReason

structure DmaFault where
  reason : DmaFaultReason := .none
  channel : BitVec 64 := 0
  source : BitVec 32 := 0
  destination : BitVec 32 := 0
  transferSize : BitVec 64 := 0

structure DmaPerformanceCounters where
  schedulerCallbacks : BitVec 64 := 0
  completedBatches : BitVec 64 := 0

structure Channel where
  source : BitVec 32 := 0
  destination : BitVec 32 := 0
  count : BitVec 32 := 0
  control : BitVec 32 := 0
  pendingRequests : BitVec 32 := 0
  pendingOnDemandRequests : BitVec 32 := 0
  completedUnits : BitVec 64 := 0
  externalDestinationProgression : DmaExternalDestinationProgression := .addressMode
  interruptPending : Bool := false

namespace Channel

def requestSource (value : Channel) : Nat := ((value.control &&& requestSourceMask) >>> 8).toNat

def automatic (value : Channel) : Bool := 4 ≤ value.requestSource && value.requestSource ≤ 6

def transferSize (value : Channel) : Nat :=
  match ((value.control &&& transferSizeMask) >>> 4).toNat with
  | 0 => 8
  | 1 => 1
  | 2 => 2
  | 3 => 4
  | 4 => 32
  | _ => 0

end Channel

def addressMode (control : BitVec 32) (shift : Nat) : Nat := ((control >>> shift) &&& 3).toNat

namespace Channel

def updateAddress (address : BitVec 32) (mode size : Nat) : BitVec 32 :=
  if mode = 1 then address + BitVec.ofNat 32 size
  else if mode = 2 then address - BitVec.ofNat 32 size
  else address

def updateAddresses (value : Channel) (size : Nat) : Channel :=
  { value with
    source := updateAddress value.source (addressMode value.control 12) size
    destination :=
      if value.externalDestinationProgression = .incrementByTransferUnit then
        value.destination + BitVec.ofNat 32 size
      else updateAddress value.destination (addressMode value.control 14) size }

/-- The end flag survives a write only where it is written as set. -/
def writeControl (current : Channel) (value : BitVec 32) : Channel :=
  let preservedTe := (current.control &&& transferEnd) &&& (value &&& transferEnd)
  let control := (value &&& controlWritableMask) ||| preservedTe
  { current with
    control
    interruptPending := if control &&& transferEnd = 0 then false else current.interruptPending }

/-- The transfer has ended. -/
def ended (value : Channel) : Channel :=
  let control := value.control ||| transferEnd
  { value with control, interruptPending := control &&& interruptEnable != 0 }

/-- The registers after one unit; a count of zero stands for 2^24 units. -/
def unitMoved (value : Channel) (size : Nat) : Channel :=
  let value :=
    { value with
      completedUnits := value.completedUnits + 1
      count := if value.count = 0 then transferCountMask else value.count - 1 }
  let value := value.updateAddresses size
  if value.count = 0 then value.ended else value

/-- A unit of a channel that is not automatic uses up a request; there may be none left. -/
def takeRequest (value : Channel) (operation : BitVec 32) : Option Channel :=
  if value.automatic then some value
  else if value.pendingRequests ≠ 0 then
    some { value with pendingRequests := value.pendingRequests - 1 }
  else if operation &&& onDemandEnable ≠ 0 ∧ value.pendingOnDemandRequests ≠ 0 then
    some { value with pendingOnDemandRequests := value.pendingOnDemandRequests - 1 }
  else none

end Channel

structure Sh4Dmac where
  timing : DmaTiming := {}
  executionMode : DmaExecutionMode := .singleUnitReference
  channels : Fin 4 → Channel := fun _ => {}
  operation : BitVec 32 := 0
  event : Option Nat := none
  scheduledChannel : Option (Fin 4) := none
  scheduledUnits : BitVec 64 := 0
  lastFault : Option DmaFault := none
  lastOnDemandChannel : Option (Fin 4) := none
  roundRobinCursor : Fin 4 := 0
  performanceCounters : DmaPerformanceCounters := {}
  eventRehydrationPending : Bool := false

/-- The orders of the three fixed priority modes. -/
def fixedOrders : List (List (Fin 4)) := [[0, 1, 2, 3], [0, 2, 3, 1], [2, 0, 1, 3]]

namespace Sh4Dmac

def priority (dmac : Sh4Dmac) : Nat := ((dmac.operation >>> 8) &&& 3).toNat

def enabled (dmac : Sh4Dmac) (index : Fin 4) : Bool := dmac.operation &&& masterEnable != 0 &&
    dmac.operation &&& (addressErrorFlag ||| nmiFlag) == 0 &&
    (dmac.channels index).control &&& channelEnable != 0 &&
    (dmac.channels index).control &&& transferEnd == 0

def eligible (dmac : Sh4Dmac) (index : Fin 4) : Bool := dmac.enabled index &&
    ((dmac.channels index).automatic || (dmac.channels index).pendingRequests != 0 ||
      (dmac.operation &&& onDemandEnable != 0 &&
        (dmac.channels index).pendingOnDemandRequests != 0))

def selectChannel (dmac : Sh4Dmac) : Option (Fin 4) :=
  if dmac.priority < fixedOrders.length then
    (fixedOrders.getD dmac.priority []).find? dmac.eligible
  else
    ([0, 1, 2, 3].map fun offset : Fin 4 => dmac.roundRobinCursor + offset).find? dmac.eligible

def updateChannel (dmac : Sh4Dmac) (index : Fin 4) (f : Channel → Channel) : Sh4Dmac :=
  { dmac with channels := Function.update dmac.channels index (f (dmac.channels index)) }

def withoutEvent (dmac : Sh4Dmac) : Sh4Dmac :=
  { dmac with
    event := none
    scheduledChannel := none
    scheduledUnits := 0
    eventRehydrationPending := false }

def discardOnDemandRequests (dmac : Sh4Dmac) : Sh4Dmac :=
  { dmac with
    channels := fun index => { dmac.channels index with pendingOnDemandRequests := 0 }
    lastOnDemandChannel := none }

def discardExternalRequests (dmac : Sh4Dmac) : Sh4Dmac := discardOnDemandRequests
    { dmac with
      channels := fun index =>
        { dmac.channels index with
          pendingRequests := 0
          externalDestinationProgression := .addressMode } }

def writeOperation (dmac : Sh4Dmac) (value : BitVec 32) : Sh4Dmac :=
  let wasOnDemand := dmac.operation &&& onDemandEnable != 0
  let preservedFlags := (dmac.operation &&& (addressErrorFlag ||| nmiFlag)) &&&
    (value &&& (addressErrorFlag ||| nmiFlag))
  let dmac := { dmac with operation := (value &&& operationWritableMask) ||| preservedFlags }
  let dmac :=
    if wasOnDemand && dmac.operation &&& onDemandEnable == 0 then dmac.discardOnDemandRequests
    else dmac
  if dmac.operation &&& addressErrorFlag = 0 then { dmac with lastFault := none } else dmac

/-- The fault register and flag. -/
def recordFault (dmac : Sh4Dmac) (index : Fin 4) (reason : DmaFaultReason) (size : BitVec 64) :
    Sh4Dmac :=
  { dmac with
    operation := dmac.operation ||| addressErrorFlag
    lastFault := some
      { reason
        channel := BitVec.ofNat 64 index
        source := (dmac.channels index).source
        destination := (dmac.channels index).destination
        transferSize := size } }

/-- The units of the next event: as many as fit before the next event of the scheduler. -/
def batchUnits (dmac : Sh4Dmac) (nextEventCycle : Option Nat) (currentCycle : Nat)
    (index : Fin 4) (size : Nat) : Nat :=
  let value := dmac.channels index
  if dmac.executionMode = .singleUnitReference ∨ value.automatic = false ∨ dmac.priority = 3 then 1
  else
    let remaining := if value.count = 0 then transferCountMask.toNat + 1 else value.count.toNat
    let units := min remaining dmac.timing.maximumBatchUnits.toNat
    if dmac.timing.guestCyclesPerByte.toNat > Scheduler.uint64Max / size then 1
    else
      let unitCycles := dmac.timing.guestCyclesPerByte.toNat * size
      let units := match nextEventCycle with
        | some foreignCycle =>
          if foreignCycle > currentCycle then
            let beforeForeign := (foreignCycle - currentCycle - 1) / unitCycles
            if beforeForeign ≠ 0 then min units beforeForeign else 1
          else units
        | none => units
      max 1 units

/-- Why the unit cannot be moved, before the memory is asked. -/
def transferFault (dmac : Sh4Dmac) (index : Fin 4) (size : Nat) : Option DmaFaultReason :=
  let value := dmac.channels index
  let requestSource := value.requestSource
  let channel2ExternalMemoryToDevice :=
    index = 2 ∧ requestSource = 2 ∧ dmac.operation &&& onDemandEnable ≠ 0
  if size = 0 then some .invalidTransferSize
  else if requestSource = 1 ∨ requestSource = 7 ∨ requestSource = 15 ∨
      (index > 1 ∧ requestSource ≤ 3 ∧ ¬ channel2ExternalMemoryToDevice) then
    some .invalidRequestSource
  else if addressMode value.control 12 = 3 ∨ addressMode value.control 14 = 3 then
    some .prohibitedAddressMode
  else if value.source.toNat % size ≠ 0 ∨ value.destination.toNat % size ≠ 0 then
    some .misalignedAddress
  else if value.source.toNat > 0xFFFFFFFF - (size - 1) ∨
      value.destination.toNat > 0xFFFFFFFF - (size - 1) then
    some .memoryAccess
  else none

/-- Everything goes back to its initial value but the timing and the execution mode. -/
def reset (dmac : Sh4Dmac) : Sh4Dmac :=
  { timing := dmac.timing, executionMode := dmac.executionMode }

end Sh4Dmac

/-! ## Snapshots -/

structure Sh4DmacChannelSnapshot where
  source : BitVec 32 := 0
  destination : BitVec 32 := 0
  count : BitVec 32 := 0
  control : BitVec 32 := 0
  pendingRequests : BitVec 32 := 0
  pendingOnDemandRequests : BitVec 32 := 0
  completedUnits : BitVec 64 := 0
  /-- The byte of the enumeration, which a decoded snapshot takes over unchecked. -/
  externalDestinationProgression : Byte := 0
  interruptPending : Bool := false

structure Sh4DmacSnapshot where
  channels : Fin 4 → Sh4DmacChannelSnapshot := fun _ => {}
  operation : BitVec 32 := 0
  timing : DmaTiming := {}
  executionMode : Byte := 0
  eventId : Option Nat := none
  eventRehydrationPending : Bool := false
  scheduledChannel : Option Nat := none
  scheduledUnits : BitVec 64 := 0
  lastFault : Option DmaFault := none
  lastOnDemandChannel : Option Nat := none
  roundRobinCursor : BitVec 64 := 0
  performanceCounters : DmaPerformanceCounters := {}

def Channel.snapshot (source : Channel) : Sh4DmacChannelSnapshot :=
  { source := source.source
    destination := source.destination
    count := source.count
    control := source.control
    pendingRequests := source.pendingRequests
    pendingOnDemandRequests := source.pendingOnDemandRequests
    completedUnits := source.completedUnits
    externalDestinationProgression := source.externalDestinationProgression.byte
    interruptPending := source.interruptPending }

def Sh4Dmac.snapshot (dmac : Sh4Dmac) : Sh4DmacSnapshot :=
  { channels := fun index => (dmac.channels index).snapshot
    operation := dmac.operation
    timing := dmac.timing
    executionMode := dmac.executionMode.byte
    eventId := dmac.event
    eventRehydrationPending := dmac.eventRehydrationPending
    scheduledChannel := dmac.scheduledChannel.map Fin.val
    scheduledUnits := dmac.scheduledUnits
    lastFault := dmac.lastFault
    lastOnDemandChannel := dmac.lastOnDemandChannel.map Fin.val
    roundRobinCursor := BitVec.ofNat 64 dmac.roundRobinCursor
    performanceCounters := dmac.performanceCounters }

/-- What the loop over the channels refuses. -/
def Sh4DmacChannelSnapshot.Bad (current : Sh4DmacChannelSnapshot) (index : Fin 4) : Prop :=
  current.count > transferCountMask ∨
    current.control &&& ~~~(controlWritableMask ||| transferEnd) ≠ 0 ∨
    current.pendingOnDemandRequests.toNat > (if index = 0 then 1 else onDemandQueueDepth) ∨
    current.externalDestinationProgression > 1

instance (current : Sh4DmacChannelSnapshot) (index : Fin 4) : Decidable (current.Bad index) :=
  inferInstanceAs (Decidable (_ ∨ _))

namespace Sh4DmacSnapshot

def hasEvent (state : Sh4DmacSnapshot) : Bool := state.eventId.isSome || state.eventRehydrationPending

/-- The snapshot's own channel is enabled. -/
def enabledState (state : Sh4DmacSnapshot) (index : Fin 4) : Bool :=
  state.operation &&& masterEnable != 0 &&
    state.operation &&& (addressErrorFlag ||| nmiFlag) == 0 &&
    (state.channels index).control &&& channelEnable != 0 &&
    (state.channels index).control &&& transferEnd == 0

/-- The checks on the planned event. -/
def validateEvent (state : Sh4DmacSnapshot) : Except RestoreError Unit :=
  if state.eventId.isSome ∧ state.eventRehydrationPending then .error .ambiguousEvent
  else if state.hasEvent then
    match state.scheduledChannel with
    | none => .error .incompleteEvent
    | some channel =>
      if h : channel < 4 then
        if state.scheduledUnits = 0 then .error .incompleteEvent
        else if !state.enabledState ⟨channel, h⟩ then .error .inactiveChannel
        else .ok ()
      else .error .incompleteEvent
  else if state.scheduledChannel.isSome ∨ state.scheduledUnits ≠ 0 then .error .planWithoutEvent
  else .ok ()

end Sh4DmacSnapshot

def Sh4Dmac.validateStateRestore (dmac : Sh4Dmac) (state : Sh4DmacSnapshot) :
    Except RestoreError Unit := do
  if state.timing ≠ dmac.timing then throw .timing
  else if state.executionMode > 1 ∨ state.roundRobinCursor.toNat ≥ 4 then throw .controller
  else if ∃ index, (state.channels index).Bad index then throw .channels
  else if state.operation &&& ~~~(operationWritableMask ||| addressErrorFlag ||| nmiFlag) ≠ 0 then
    throw .operation
  else do
    state.validateEvent
    if ∃ fault ∈ state.lastFault, fault.channel.toNat ≥ 4 then throw .faultChannel
    else if ∃ channel ∈ state.lastOnDemandChannel, channel ≥ 4 then throw .onDemandChannel
    else pure ()

def Sh4DmacChannelSnapshot.channel (source : Sh4DmacChannelSnapshot) : Channel :=
  { source := source.source
    destination := source.destination
    count := source.count
    control := source.control
    pendingRequests := source.pendingRequests
    pendingOnDemandRequests := source.pendingOnDemandRequests
    completedUnits := source.completedUnits
    externalDestinationProgression := .ofByte source.externalDestinationProgression
    interruptPending := source.interruptPending }

/-- The members a validated snapshot sets; its channel numbers are below four. -/
def Sh4Dmac.restored (dmac : Sh4Dmac) (state : Sh4DmacSnapshot) : Sh4Dmac :=
  { timing := dmac.timing
    executionMode := .ofByte state.executionMode
    channels := fun index => (state.channels index).channel
    operation := state.operation
    event := none
    scheduledChannel := state.scheduledChannel.map (Fin.ofNat 4)
    scheduledUnits := state.scheduledUnits
    lastFault := state.lastFault
    lastOnDemandChannel := state.lastOnDemandChannel.map (Fin.ofNat 4)
    roundRobinCursor := Fin.ofNat 4 state.roundRobinCursor.toNat
    performanceCounters := state.performanceCounters
    eventRehydrationPending := state.hasEvent }

end KatanaRecomp.Runtime.Dmac
