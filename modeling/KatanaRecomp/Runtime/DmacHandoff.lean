import KatanaRecomp.Runtime.Dmac

/-! # The payload of the DMA controller

`encodeSh4DmacState` writes every member of a snapshot but the id of its event,
for which the flag of the awaited event stands. -/
namespace KatanaRecomp.Runtime.Dmac
open Lib ByteFormat

inductive DmacStateError
  | truncated | invalidBoolean | invalidMagic | unknownVersion | trailingData

abbrev DmacStateReader := Reader DmacStateError

def readU8 : DmacStateReader (BitVec 8) := word .truncated 1 8
def readU32 : DmacStateReader (BitVec 32) := word .truncated 4 32
def readU64 : DmacStateReader (BitVec 64) := word .truncated 8 64
def readBoolean : DmacStateReader Bool := boolean .truncated .invalidBoolean

/-- `KATDMA1`. -/
def sh4DmacStateMagic : List Byte := [0x4B, 0x41, 0x54, 0x44, 0x4D, 0x41, 0x31]

def sh4DmacStateContractVersion : BitVec 32 := 1

def writeChannelState (channel : Sh4DmacChannelSnapshot) : List Byte :=
  [ littleEndian 4 channel.source, littleEndian 4 channel.destination, littleEndian 4 channel.count,
    littleEndian 4 channel.control, littleEndian 4 channel.pendingRequests,
    littleEndian 4 channel.pendingOnDemandRequests, littleEndian 8 channel.completedUnits,
    littleEndian 1 channel.externalDestinationProgression,
    writeBoolean channel.interruptPending ].flatten

def writeFault (fault : DmaFault) : List Byte :=
  [ littleEndian 1 fault.reason.value,
    littleEndian 8 fault.channel, littleEndian 4 fault.source, littleEndian 4 fault.destination,
    littleEndian 8 fault.transferSize ].flatten

/-- `static_cast<std::uint32_t>` of a channel number. -/
def writeIndex (index : Nat) : List Byte := littleEndian 4 (BitVec.ofNat 32 index)

def encodeSh4DmacState (state : Sh4DmacSnapshot) : List Byte :=
  [ sh4DmacStateMagic,
    littleEndian 4 sh4DmacStateContractVersion, writeChannelState (state.channels 0),
    writeChannelState (state.channels 1), writeChannelState (state.channels 2),
    writeChannelState (state.channels 3), littleEndian 4 state.operation,
    littleEndian 8 state.timing.guestCyclesPerByte, littleEndian 8 state.timing.maximumBatchUnits,
    littleEndian 1 state.executionMode, writeBoolean state.hasEvent,
    writeOptional writeIndex state.scheduledChannel, littleEndian 8 state.scheduledUnits,
    writeOptional writeFault state.lastFault, writeOptional writeIndex state.lastOnDemandChannel,
    littleEndian 8 state.roundRobinCursor,
    littleEndian 8 state.performanceCounters.schedulerCallbacks,
    littleEndian 8 state.performanceCounters.completedBatches ].flatten

def readChannelState : DmacStateReader Sh4DmacChannelSnapshot := do
  let source ← readU32
  let destination ← readU32
  let count ← readU32
  let control ← readU32
  let pendingRequests ← readU32
  let pendingOnDemandRequests ← readU32
  let completedUnits ← readU64
  let externalDestinationProgression ← readU8
  let interruptPending ← readBoolean
  pure
    { source, destination, count, control, pendingRequests, pendingOnDemandRequests
      completedUnits, externalDestinationProgression, interruptPending }

def readFault : DmacStateReader DmaFault := do
  let reason ← readU8
  let channel ← readU64
  let source ← readU32
  let destination ← readU32
  let transferSize ← readU64
  pure { reason := ⟨reason⟩, channel, source, destination, transferSize }

def readIndex : DmacStateReader Nat := do
  let index ← readU32
  pure index.toNat

def expectMagic : DmacStateReader Unit := do
  let actual ← take .truncated sh4DmacStateMagic.length
  reject (actual ≠ sh4DmacStateMagic) .invalidMagic

def expectVersion : DmacStateReader Unit := do
  let actual ← readU32
  reject (actual ≠ sh4DmacStateContractVersion) .unknownVersion

def readState : DmacStateReader Sh4DmacSnapshot := do
  expectMagic
  expectVersion
  let first ← readChannelState
  let second ← readChannelState
  let third ← readChannelState
  let fourth ← readChannelState
  let operation ← readU32
  let guestCyclesPerByte ← readU64
  let maximumBatchUnits ← readU64
  let executionMode ← readU8
  let eventRehydrationPending ← readBoolean
  let scheduledChannel ← optional readBoolean readIndex
  let scheduledUnits ← readU64
  let lastFault ← optional readBoolean readFault
  let lastOnDemandChannel ← optional readBoolean readIndex
  let roundRobinCursor ← readU64
  let schedulerCallbacks ← readU64
  let completedBatches ← readU64
  pure
    { channels := ![first, second, third, fourth]
      operation
      timing := { guestCyclesPerByte, maximumBatchUnits }
      executionMode
      eventId := none
      eventRehydrationPending
      scheduledChannel
      scheduledUnits
      lastFault
      lastOnDemandChannel
      roundRobinCursor
      performanceCounters := { schedulerCallbacks, completedBatches } }

def decodeSh4DmacState (bytes : List Byte) : Except DmacStateError Sh4DmacSnapshot :=
  readAll .trailingData readState bytes

/-! ## The round trip -/

theorem readU8_parses : Parses readU8 (littleEndian 1) (fun _ => True) := .word _ rfl
theorem readU32_parses : Parses readU32 (littleEndian 4) (fun _ => True) := .word _ rfl
theorem readU64_parses : Parses readU64 (littleEndian 8) (fun _ => True) := .word _ rfl
theorem readBoolean_parses : Parses readBoolean writeBoolean (fun _ => True) := .boolean _ _

theorem readChannelState_parses : Parses readChannelState writeChannelState (fun _ => True) := by
  refine .of_rest
    (readU32_parses.bind Sh4DmacChannelSnapshot.source fun source _ =>
    readU32_parses.bind Sh4DmacChannelSnapshot.destination fun destination _ =>
    readU32_parses.bind Sh4DmacChannelSnapshot.count fun count _ =>
    readU32_parses.bind Sh4DmacChannelSnapshot.control fun control _ =>
    readU32_parses.bind Sh4DmacChannelSnapshot.pendingRequests fun requests _ =>
    readU32_parses.bind Sh4DmacChannelSnapshot.pendingOnDemandRequests fun onDemand _ =>
    readU64_parses.bind Sh4DmacChannelSnapshot.completedUnits fun completed _ =>
    readU8_parses.bind Sh4DmacChannelSnapshot.externalDestinationProgression fun progression _ =>
    readBoolean_parses.bind Sh4DmacChannelSnapshot.interruptPending fun interrupt _ =>
    .pure (fun _ => True) fun channel => ?_) ?_ ?_
  · constructor
    · rintro ⟨⟨rfl, rfl, rfl, rfl, rfl, rfl, rfl, rfl, rfl, -⟩, -⟩
      rfl
    · rintro rfl
      exact ⟨⟨rfl, rfl, rfl, rfl, rfl, rfl, rfl, rfl, rfl, trivial⟩, trivial⟩
  · intro channel
    simp [writeChannelState]
  · simp

theorem readFault_parses : Parses readFault writeFault (fun _ => True) := by
  refine .of_rest
    (readU8_parses.bind (fun fault : DmaFault => fault.reason.value) fun reason _ =>
    readU64_parses.bind DmaFault.channel fun channel _ =>
    readU32_parses.bind DmaFault.source fun source _ =>
    readU32_parses.bind DmaFault.destination fun destination _ =>
    readU64_parses.bind DmaFault.transferSize fun size _ =>
    .pure (fun _ => True) fun fault => ?_) ?_ ?_
  · constructor
    · rintro ⟨⟨rfl, rfl, rfl, rfl, rfl, -⟩, -⟩
      rfl
    · rintro rfl
      exact ⟨⟨rfl, rfl, rfl, rfl, rfl, trivial⟩, trivial⟩
  · intro fault
    simp [writeFault]
  · simp

theorem readIndex_parses : Parses readIndex writeIndex (fun index => index < 2 ^ 32) := by
  refine .of_rest (readU32_parses.bind (fun index : Nat => BitVec.ofNat 32 index) fun value _ =>
    .pure (fun index => index < 2 ^ 32) fun index => ?_) ?_ ?_
  · constructor
    · rintro ⟨⟨rfl, -⟩, hindex⟩
      rw [BitVec.toNat_ofNat, Nat.mod_eq_of_lt hindex]
    · rintro rfl
      exact ⟨⟨by simp, trivial⟩, value.isLt⟩
  · intro index
    simp [writeIndex]
  · simp

/-- What the payload carries of a snapshot. -/
def Sh4DmacSnapshot.cleared (state : Sh4DmacSnapshot) : Sh4DmacSnapshot :=
  { state with eventId := none, eventRehydrationPending := state.hasEvent }

/-- A snapshot as the decoder leaves it. -/
structure Sh4DmacSnapshot.Decodable (state : Sh4DmacSnapshot) : Prop where
  scheduledChannel : ∀ index ∈ state.scheduledChannel, index < 2 ^ 32
  lastOnDemandChannel : ∀ index ∈ state.lastOnDemandChannel, index < 2 ^ 32
  event : state.eventId = none

theorem readState_parses : Parses readState encodeSh4DmacState Sh4DmacSnapshot.Decodable := by
  have hmagic : Parses expectMagic (fun _ => sh4DmacStateMagic) (fun _ => True) :=
    (Parses.take DmacStateError.truncated sh4DmacStateMagic.length).constant .invalidMagic rfl
  have hversion : Parses expectVersion (fun _ => littleEndian 4 sh4DmacStateContractVersion)
      (fun _ => True) := readU32_parses.constant .unknownVersion trivial
  refine .of_rest
    (hmagic.bind (fun _ => ()) fun _ _ =>
    hversion.bind (fun _ => ()) fun _ _ =>
    readChannelState_parses.bind (fun state : Sh4DmacSnapshot => state.channels 0) fun first _ =>
    readChannelState_parses.bind (fun state : Sh4DmacSnapshot => state.channels 1) fun second _ =>
    readChannelState_parses.bind (fun state : Sh4DmacSnapshot => state.channels 2) fun third _ =>
    readChannelState_parses.bind (fun state : Sh4DmacSnapshot => state.channels 3) fun fourth _ =>
    readU32_parses.bind Sh4DmacSnapshot.operation fun operation _ =>
    readU64_parses.bind (fun state : Sh4DmacSnapshot => state.timing.guestCyclesPerByte)
      fun cycles _ =>
    readU64_parses.bind (fun state : Sh4DmacSnapshot => state.timing.maximumBatchUnits)
      fun batch _ =>
    readU8_parses.bind Sh4DmacSnapshot.executionMode fun mode _ =>
    readBoolean_parses.bind Sh4DmacSnapshot.hasEvent fun hasEvent _ =>
    (readBoolean_parses.optional readIndex_parses).bind Sh4DmacSnapshot.scheduledChannel
      fun channel _ =>
    readU64_parses.bind Sh4DmacSnapshot.scheduledUnits fun units _ =>
    (readBoolean_parses.optional readFault_parses).bind Sh4DmacSnapshot.lastFault fun fault _ =>
    (readBoolean_parses.optional readIndex_parses).bind Sh4DmacSnapshot.lastOnDemandChannel
      fun onDemand _ =>
    readU64_parses.bind Sh4DmacSnapshot.roundRobinCursor fun cursor _ =>
    readU64_parses.bind (fun state : Sh4DmacSnapshot =>
      state.performanceCounters.schedulerCallbacks) fun callbacks _ =>
    readU64_parses.bind (fun state : Sh4DmacSnapshot =>
      state.performanceCounters.completedBatches) fun batches _ =>
    .pure (fun state : Sh4DmacSnapshot => state.eventId = none) fun state => ?_) ?_ ?_
  · constructor
    · rintro ⟨⟨rfl, rfl, rfl, rfl, rfl, rfl, rfl, rfl, rfl, rfl, rfl, rfl, rfl, rfl, rfl, rfl, -⟩,
        hevent⟩
      obtain ⟨channels, operation, timing, mode, event, pending, channel, units, fault, onDemand,
        cursor, counters⟩ := state
      cases hevent
      congr 1
      funext i
      fin_cases i <;> rfl
    · rintro rfl
      exact ⟨⟨rfl, rfl, rfl, rfl, rfl, rfl, rfl, rfl, rfl, rfl, rfl, rfl, rfl, rfl, rfl, rfl, rfl,
        rfl, trivial⟩, rfl⟩
  · intro state
    simp [encodeSh4DmacState]
  · intro state
    simp only [true_and, implies_true]
    exact ⟨fun ⟨hchannel, honDemand, hevent⟩ => ⟨hchannel, honDemand, hevent⟩,
      fun h => ⟨h.scheduledChannel, h.lastOnDemandChannel, h.event⟩⟩

theorem decode_encode {state : Sh4DmacSnapshot}
    (hchannel : ∀ index ∈ state.scheduledChannel, index < 2 ^ 32)
    (honDemand : ∀ index ∈ state.lastOnDemandChannel, index < 2 ^ 32) :
    decodeSh4DmacState (encodeSh4DmacState state) = .ok state.cleared := by
  refine (readState_parses.readAll_ok_iff .trailingData).mpr ⟨?_, hchannel, honDemand, rfl⟩
  rfl

end KatanaRecomp.Runtime.Dmac
