import KatanaRecomp.Lib.ByteFormat
import KatanaRecomp.Runtime.Timers

/-! # The handoff payloads of the timers

Three snapshots travel as bytes when the platform is handed over: the timer
unit, the clock domain and the real-time clock. Event ids and deadlines stay
behind, they belong to the scheduler's own payload, and so do the ids of the
clock's observers. Encoder and decoder check their input field by field, each
with its own list of conditions. -/
namespace KatanaRecomp.Runtime.Timer
open Lib ByteFormat

inductive HandoffError
  | truncated | invalidBoolean | trailingBytes | invalidMagic
  | tmuVersion | invalidPeriod | inconsistentChannel | invalidChannel
  | clockVersion | frequencyOutOfRange
  | rtcVersion | invalidCalendar | inconsistentRtc | futurePhaseOrigin | invalidRate
  | invalidDivider

/-! ## Writer and reader -/

def writeBoolean (value : Bool) : List Byte := littleEndian 1 (if value then 1 else 0 : BitVec 8)

abbrev TimerStateReader := Reader HandoffError

def readU8 : TimerStateReader (BitVec 8) := word .truncated 1 8
def readU16 : TimerStateReader (BitVec 16) := word .truncated 2 16
def readU32 : TimerStateReader (BitVec 32) := word .truncated 4 32
def readU64 : TimerStateReader (BitVec 64) := word .truncated 8 64

def readBoolean : TimerStateReader Bool := do
  let value ← readU8
  reject (value > 1) .invalidBoolean
  pure (value != 0)

def expectMagic (expected : List Byte) : TimerStateReader Unit := do
  let actual ← take .truncated expected.length
  reject (actual ≠ expected) .invalidMagic

def expectVersion (expected : BitVec 32) (error : HandoffError) : TimerStateReader Unit := do
  let actual ← readU32
  reject (actual ≠ expected) error

/-! ## The timer unit -/

structure Sh4TmuChannelSnapshot where
  constant : BitVec 32
  storedCounter : BitVec 32
  effectiveCounter : BitVec 32
  control : BitVec 16
  anchorCycle : BitVec 64
  anchorCounter : BitVec 32
  underflows : BitVec 64
  event : Option Nat
  eventDeadline : Option Nat
  eventRehydrationPending : Bool
  running : Bool

structure Sh4TmuSnapshot where
  schedulerCycle : BitVec 64
  guestCyclesPerPeripheralCycle : BitVec 64
  channels : Fin 3 → Sh4TmuChannelSnapshot

def Timers.channelSnapshot (s : Timers) (value : Channel) :
    Except TimerError Sh4TmuChannelSnapshot := do
  let effectiveCounter ← s.effectiveCounter value
  pure
    { constant := value.constant
      storedCounter := value.counter
      effectiveCounter
      control := value.control
      anchorCycle := value.anchorCycle
      anchorCounter := value.anchorCounter
      underflows := value.underflows
      event := value.event
      eventDeadline := value.eventDeadline
      eventRehydrationPending := value.eventRehydrationPending
      running := value.running }

/-- `Sh4Tmu::snapshot`. -/
def Timers.tmuSnapshot (s : Timers) : Except TimerError Sh4TmuSnapshot := do
  let first ← s.channelSnapshot (s.channels 0)
  let second ← s.channelSnapshot (s.channels 1)
  let third ← s.channelSnapshot (s.channels 2)
  pure
    { schedulerCycle := s.now
      guestCyclesPerPeripheralCycle := s.guestCyclesPerPeripheralCycle
      channels := ![first, second, third] }

/-- `KATTMU1\n`. -/
def sh4TmuStateMagic : List Byte := [0x4B, 0x41, 0x54, 0x54, 0x4D, 0x55, 0x31, 0x0A]

def contractVersion : BitVec 32 := 1

/-- The register conditions that encoder and decoder share. -/
def Sh4TmuChannelSnapshot.BadRegisters (channel : Sh4TmuChannelSnapshot)
    (schedulerCycle : BitVec 64) : Prop :=
  channel.control &&& ~~~0x013F ≠ 0 ∨ channel.control &&& 0x7 = 5 ∨ channel.control &&& 0x7 = 7 ∨
    channel.anchorCycle > schedulerCycle

instance (channel : Sh4TmuChannelSnapshot) (cycle : BitVec 64) :
    Decidable (channel.BadRegisters cycle) := inferInstanceAs (Decidable (_ ∨ _))

/-- The event conditions of the encoder, for a channel as for the clock. -/
def BadEvent (active : Bool) (event eventDeadline : Option Nat) (pending : Bool) : Prop :=
  event.isSome ∧ pending ∨ active ∧ (¬ (event.isSome ∨ pending) ∨ ¬ eventDeadline.isSome) ∨
    ¬ active ∧ (event.isSome ∨ eventDeadline.isSome ∨ pending)

instance (active : Bool) (event deadline : Option Nat) (pending : Bool) :
    Decidable (BadEvent active event deadline pending) := inferInstanceAs (Decidable (_ ∨ _))

/-- What the encoder refuses in a channel. -/
def Sh4TmuChannelSnapshot.Inconsistent (channel : Sh4TmuChannelSnapshot)
    (schedulerCycle : BitVec 64) : Prop := channel.BadRegisters schedulerCycle ∨
    BadEvent channel.running channel.event channel.eventDeadline channel.eventRehydrationPending

instance (channel : Sh4TmuChannelSnapshot) (cycle : BitVec 64) :
    Decidable (channel.Inconsistent cycle) := inferInstanceAs (Decidable (_ ∨ _))

/-- What the decoder refuses in a channel. -/
def Sh4TmuChannelSnapshot.Invalid (channel : Sh4TmuChannelSnapshot)
    (schedulerCycle : BitVec 64) : Prop := channel.BadRegisters schedulerCycle ∨
    ¬ channel.running ∧ channel.effectiveCounter ≠ channel.storedCounter

instance (channel : Sh4TmuChannelSnapshot) (cycle : BitVec 64) :
    Decidable (channel.Invalid cycle) := inferInstanceAs (Decidable (_ ∨ _))

def writeChannel (channel : Sh4TmuChannelSnapshot) : List Byte :=
  [ littleEndian 4 channel.constant,
    littleEndian 4 channel.storedCounter, littleEndian 4 channel.effectiveCounter,
    littleEndian 2 channel.control, littleEndian 8 channel.anchorCycle,
    littleEndian 4 channel.anchorCounter, littleEndian 8 channel.underflows,
    writeBoolean channel.running ].flatten

def writeTmuState (state : Sh4TmuSnapshot) : List Byte :=
  [ sh4TmuStateMagic, littleEndian 4 contractVersion, littleEndian 8 state.schedulerCycle,
    littleEndian 8 state.guestCyclesPerPeripheralCycle, writeChannel (state.channels 0),
    writeChannel (state.channels 1), writeChannel (state.channels 2) ].flatten

def encodeSh4TmuState (state : Sh4TmuSnapshot) : Except HandoffError (List Byte) :=
  if state.guestCyclesPerPeripheralCycle = 0 then .error .invalidPeriod
  else if ∃ i, (state.channels i).Inconsistent state.schedulerCycle then
    .error .inconsistentChannel
  else .ok (writeTmuState state)

def readChannel (schedulerCycle : BitVec 64) : TimerStateReader Sh4TmuChannelSnapshot := do
  let constant ← readU32
  let storedCounter ← readU32
  let effectiveCounter ← readU32
  let control ← readU16
  let anchorCycle ← readU64
  let anchorCounter ← readU32
  let underflows ← readU64
  let running ← readBoolean
  let channel : Sh4TmuChannelSnapshot :=
    { constant, storedCounter, effectiveCounter, control, anchorCycle, anchorCounter, underflows
      event := none, eventDeadline := none, eventRehydrationPending := false, running }
  reject (channel.Invalid schedulerCycle) .invalidChannel
  pure channel

def readTmuState : TimerStateReader Sh4TmuSnapshot := do
  expectMagic sh4TmuStateMagic
  expectVersion contractVersion .tmuVersion
  let schedulerCycle ← readU64
  let guestCyclesPerPeripheralCycle ← readU64
  reject (guestCyclesPerPeripheralCycle = 0) .invalidPeriod
  let first ← readChannel schedulerCycle
  let second ← readChannel schedulerCycle
  let third ← readChannel schedulerCycle
  pure
    { schedulerCycle, guestCyclesPerPeripheralCycle
      channels := ![first, second, third] }

def decodeSh4TmuState (bytes : List Byte) : Except HandoffError Sh4TmuSnapshot :=
  readAll .trailingBytes readTmuState bytes

/-! ## The clock domain -/

/-- `KATCLK1\n`. -/
def sh4RtcClockStateMagic : List Byte := [0x4B, 0x41, 0x54, 0x43, 0x4C, 0x4B, 0x31, 0x0A]

/-- What the constructor of the clock domain throws on. -/
def BadFrequency (guestCyclesPerSecond : BitVec 64) : Prop := guestCyclesPerSecond = 0 ∨
    guestCyclesPerSecond.toNat > Scheduler.uint64Max / sourceFrequencyHz

instance (frequency : BitVec 64) : Decidable (BadFrequency frequency) :=
  inferInstanceAs (Decidable (_ ∨ _))

def writeClockState (state : Sh4RtcClockDomain) : List Byte :=
  [ sh4RtcClockStateMagic,
    littleEndian 4 contractVersion, littleEndian 8 state.guestCyclesPerSecond,
    littleEndian 8 state.epochCycle ].flatten

/-- The clock's snapshot has the members of the clock itself, the observers by their ids. -/
def encodeSh4RtcClockState (state : Sh4RtcClockDomain) : Except HandoffError (List Byte) :=
  if BadFrequency state.guestCyclesPerSecond then .error .frequencyOutOfRange
  else .ok (writeClockState state)

def readClockState : TimerStateReader Sh4RtcClockDomain := do
  expectMagic sh4RtcClockStateMagic
  expectVersion contractVersion .clockVersion
  let guestCyclesPerSecond ← readU64
  let epochCycle ← readU64
  reject (BadFrequency guestCyclesPerSecond) .frequencyOutOfRange
  pure { guestCyclesPerSecond, epochCycle, nextObserverId := 0, observerIds := [] }

def decodeSh4RtcClockState (bytes : List Byte) : Except HandoffError Sh4RtcClockDomain :=
  readAll .trailingBytes readClockState bytes

/-! ## The real-time clock -/

structure Sh4RtcSnapshot where
  dateTime : RtcDateTime
  clock : Sh4RtcClockDomain
  schedulerCycle : BitVec 64
  event : Option Nat
  eventDeadline : Option Nat
  eventRehydrationPending : Bool
  periodicRate : RtcPeriodicRate
  divider256hzPhase : BitVec 8
  counter64hz : BitVec 8
  periodicPhaseTicks : BitVec 64
  ticks : BitVec 64
  periodicEvents : BitVec 64
  calendarRunning : Bool
  rtcEnabled : Bool
  periodicPending : Bool
  carryFlag : Bool
  carryEnabled : Bool
  alarmRegisters : Fin 6 → BitVec 8
  alarmPending : Bool
  alarmEnabled : Bool

/-- `Sh4Rtc::snapshot`. -/
def Timers.rtcSnapshot (s : Timers) : Sh4RtcSnapshot :=
  { dateTime := s.rtc.dateTime
    clock := s.clock
    schedulerCycle := s.now
    event := s.rtc.event
    eventDeadline := s.rtc.eventDeadline
    eventRehydrationPending := s.rtc.eventRehydrationPending
    periodicRate := s.rtc.periodicRate
    divider256hzPhase := s.rtc.divider256hzPhase
    counter64hz := s.rtc.counter64hz
    periodicPhaseTicks := s.rtc.periodicPhaseTicks
    ticks := s.rtc.ticks
    periodicEvents := s.rtc.periodicEvents
    calendarRunning := s.rtc.calendarRunning
    rtcEnabled := s.rtc.rtcEnabled
    periodicPending := s.rtc.periodicPending
    carryFlag := s.rtc.carryFlag
    carryEnabled := s.rtc.carryEnabled
    alarmRegisters := s.rtc.alarmRegisters
    alarmPending := s.rtc.alarmPending
    alarmEnabled := s.rtc.alarmEnabled }

/-- `KATRTC1\n`. -/
def sh4RtcStateMagic : List Byte := [0x4B, 0x41, 0x54, 0x52, 0x54, 0x43, 0x31, 0x0A]

/-- The enumerator's value. -/
def RtcPeriodicRate.code : RtcPeriodicRate → BitVec 32
  | .disabled => 0
  | .every1Over256Second => 1
  | .every1Over64Second => 2
  | .every1Over16Second => 3
  | .every1Over4Second => 4
  | .every1Over2Second => 5
  | .everySecond => 6
  | .every2Seconds => 7

/-- The cast back; the decoder has refused what is above the last enumerator. -/
def RtcPeriodicRate.ofCode (code : BitVec 32) : RtcPeriodicRate :=
  match code.toNat with
  | 0 => .disabled
  | 1 => .every1Over256Second
  | 2 => .every1Over64Second
  | 3 => .every1Over16Second
  | 4 => .every1Over4Second
  | 5 => .every1Over2Second
  | 6 => .everySecond
  | _ => .every2Seconds

/-- What the encoder refuses besides the date and the frequency. -/
def Sh4RtcSnapshot.Inconsistent (state : Sh4RtcSnapshot) : Prop :=
  state.clock.epochCycle > state.schedulerCycle ∨
    state.periodicRate.code > RtcPeriodicRate.every2Seconds.code ∨
    state.divider256hzPhase > 1 ∨ state.counter64hz > 0x7F ∨
    BadEvent state.rtcEnabled state.event state.eventDeadline state.eventRehydrationPending

instance (state : Sh4RtcSnapshot) : Decidable state.Inconsistent :=
  inferInstanceAs (Decidable (_ ∨ _))

def writeDateTime (value : RtcDateTime) : List Byte :=
  [ littleEndian 2 value.year,
    littleEndian 1 value.month, littleEndian 1 value.day, littleEndian 1 value.dayOfWeek,
    littleEndian 1 value.hour, littleEndian 1 value.minute, littleEndian 1 value.second ].flatten

def writeRtcState (state : Sh4RtcSnapshot) : List Byte :=
  [ sh4RtcStateMagic, littleEndian 4 contractVersion, writeDateTime state.dateTime,
    littleEndian 8 state.clock.guestCyclesPerSecond, littleEndian 8 state.clock.epochCycle,
    littleEndian 8 state.schedulerCycle, littleEndian 4 state.periodicRate.code,
    littleEndian 1 state.divider256hzPhase, littleEndian 1 state.counter64hz,
    littleEndian 8 state.periodicPhaseTicks, littleEndian 8 state.ticks,
    littleEndian 8 state.periodicEvents, writeBoolean state.calendarRunning,
    writeBoolean state.rtcEnabled, writeBoolean state.periodicPending, writeBoolean state.carryFlag,
    writeBoolean state.carryEnabled, List.ofFn state.alarmRegisters,
    writeBoolean state.alarmPending, writeBoolean state.alarmEnabled ].flatten

def encodeSh4RtcState (state : Sh4RtcSnapshot) : Except HandoffError (List Byte) :=
  if ¬ state.dateTime.Valid then .error .invalidCalendar
  else if BadFrequency state.clock.guestCyclesPerSecond then .error .frequencyOutOfRange
  else if state.Inconsistent then .error .inconsistentRtc
  else .ok (writeRtcState state)

def readDateTime : TimerStateReader RtcDateTime := do
  let year ← readU16
  let month ← readU8
  let day ← readU8
  let dayOfWeek ← readU8
  let hour ← readU8
  let minute ← readU8
  let second ← readU8
  let value : RtcDateTime := { year, month, day, dayOfWeek, hour, minute, second }
  reject (¬ value.Valid) .invalidCalendar
  pure value

def readPeriodicRate : TimerStateReader RtcPeriodicRate := do
  let code ← readU32
  reject (code > RtcPeriodicRate.every2Seconds.code) .invalidRate
  pure (RtcPeriodicRate.ofCode code)

def readAlarmRegisters : TimerStateReader (Fin 6 → BitVec 8) := do
  let bytes ← take .truncated 6
  pure fun i => bytes.getD i 0

def readRtcState : TimerStateReader Sh4RtcSnapshot := do
  expectMagic sh4RtcStateMagic
  expectVersion contractVersion .rtcVersion
  let dateTime ← readDateTime
  let guestCyclesPerSecond ← readU64
  let epochCycle ← readU64
  reject (BadFrequency guestCyclesPerSecond) .frequencyOutOfRange
  let schedulerCycle ← readU64
  reject (epochCycle > schedulerCycle) .futurePhaseOrigin
  let periodicRate ← readPeriodicRate
  let divider256hzPhase ← readU8
  let counter64hz ← readU8
  reject (divider256hzPhase > 1 ∨ counter64hz > 0x7F) .invalidDivider
  let periodicPhaseTicks ← readU64
  let ticks ← readU64
  let periodicEvents ← readU64
  let calendarRunning ← readBoolean
  let rtcEnabled ← readBoolean
  let periodicPending ← readBoolean
  let carryFlag ← readBoolean
  let carryEnabled ← readBoolean
  let alarmRegisters ← readAlarmRegisters
  let alarmPending ← readBoolean
  let alarmEnabled ← readBoolean
  pure
    { dateTime
      clock := { guestCyclesPerSecond, epochCycle, nextObserverId := 0, observerIds := [] }
      schedulerCycle
      event := none, eventDeadline := none, eventRehydrationPending := false
      periodicRate, divider256hzPhase, counter64hz, periodicPhaseTicks, ticks, periodicEvents
      calendarRunning, rtcEnabled, periodicPending, carryFlag, carryEnabled, alarmRegisters
      alarmPending, alarmEnabled }

def decodeSh4RtcState (bytes : List Byte) : Except HandoffError Sh4RtcSnapshot :=
  readAll .trailingBytes readRtcState bytes

end KatanaRecomp.Runtime.Timer
