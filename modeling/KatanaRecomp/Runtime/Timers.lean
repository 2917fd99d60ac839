import KatanaRecomp.Lib.StateExcept
import KatanaRecomp.Runtime.Scheduler

/-! # The SH-4 timer unit and real-time clock

`Sh4Tmu` and `Sh4Rtc` hang on one `EventScheduler` and share one
`Sh4RtcClockDomain`, as the Dreamcast platform builds them. A running channel
keeps an anchor (a cycle and the counter at that cycle) and an event at its
next underflow; the clock domain carries the phase origin that both devices
count 16384 Hz ticks from. A call that throws keeps what it had already
changed. -/
namespace KatanaRecomp.Runtime.Timer
open Lib Scheduler

inductive TimerError
  | frequencyOutOfRange | periodIsZero
  | beforePhaseOrigin | tickIntervalBackwards
  | tickIndexOverflow | tickPhaseOverflow | phaseDeadlineOverflow | targetTickOverflow
  | eventDeadlineOverflow
  | noFixedPeriod | unsupportedClockSource | invalidChannel
  | calendarRunning | invalidCalendar | invalidAlarmRegister
  | resetDuringAdvance | resetGenerationOverflow
  | scheduler (error : SchedulerError)
  | device

/-! ## The clock domain -/

def sourceFrequencyHz : Nat := 16384

structure Sh4RtcClockDomain where
  guestCyclesPerSecond : BitVec 64
  epochCycle : BitVec 64 := 0
  nextObserverId : Nat := 1
  observerIds : List Nat := []

/-- The constructor: it throws on a frequency whose products could wrap. -/
def Sh4RtcClockDomain.create (guestCyclesPerSecond : BitVec 64) :
    Except TimerError Sh4RtcClockDomain :=
  if guestCyclesPerSecond = 0 ∨
      guestCyclesPerSecond.toNat > Scheduler.uint64Max / sourceFrequencyHz then
    .error .frequencyOutOfRange
  else .ok { guestCyclesPerSecond }

def checkedAdd (left right : Nat) (error : TimerError) : Except TimerError Nat :=
  if right > Scheduler.uint64Max - left then .error error else .ok (left + right)

def checkedMultiply (left right : Nat) (error : TimerError) : Except TimerError Nat :=
  if right ≠ 0 ∧ left > Scheduler.uint64Max / right then .error error else .ok (left * right)

namespace Sh4RtcClockDomain

def ticksAt (clock : Sh4RtcClockDomain) (guestCycle : Nat) : Except TimerError Nat :=
  if guestCycle < clock.epochCycle.toNat then .error .beforePhaseOrigin
  else do
    let elapsed := guestCycle - clock.epochCycle.toNat
    let wholeSeconds := elapsed / clock.guestCyclesPerSecond.toNat
    let remainder := elapsed % clock.guestCyclesPerSecond.toNat
    let seconds ← checkedMultiply wholeSeconds sourceFrequencyHz .tickIndexOverflow
    let phase ← checkedMultiply remainder sourceFrequencyHz .tickPhaseOverflow
    checkedAdd seconds (phase / clock.guestCyclesPerSecond.toNat) .tickIndexOverflow

def cycleAtOrAfterTick (clock : Sh4RtcClockDomain) (tick : Nat) : Except TimerError Nat := do
  let wholeSeconds := tick / sourceFrequencyHz
  let remainder := tick % sourceFrequencyHz
  let partialProduct ←
    checkedMultiply remainder clock.guestCyclesPerSecond.toNat .phaseDeadlineOverflow
  let partialCycles := partialProduct / sourceFrequencyHz +
    (if partialProduct % sourceFrequencyHz = 0 then 0 else 1)
  let seconds ← checkedMultiply wholeSeconds clock.guestCyclesPerSecond.toNat .phaseDeadlineOverflow
  let relative ← checkedAdd seconds partialCycles .phaseDeadlineOverflow
  checkedAdd clock.epochCycle.toNat relative .phaseDeadlineOverflow

def elapsedTicks (clock : Sh4RtcClockDomain) (firstCycle lastCycle : Nat) : Except TimerError Nat :=
  if lastCycle < firstCycle then .error .tickIntervalBackwards
  else do
    let last ← clock.ticksAt lastCycle
    let first ← clock.ticksAt firstCycle
    pure (last - first)

def deadlineAfter (clock : Sh4RtcClockDomain) (guestCycle sourceTicks : Nat) :
    Except TimerError Nat :=
  if sourceTicks = 0 then .ok guestCycle
  else do
    let now ← clock.ticksAt guestCycle
    let target ← checkedAdd now sourceTicks .targetTickOverflow
    clock.cycleAtOrAfterTick target

/-- `add_phase_observer`; the callbacks themselves are the timer unit's. -/
def addPhaseObserver (clock : Sh4RtcClockDomain) : Sh4RtcClockDomain :=
  { clock with
    nextObserverId := clock.nextObserverId + 1
    observerIds := clock.observerIds ++ [clock.nextObserverId] }

end Sh4RtcClockDomain

/-! ## The devices -/

structure Channel where
  constant : BitVec 32 := 0xFFFFFFFF
  counter : BitVec 32 := 0xFFFFFFFF
  control : BitVec 16 := 0
  anchorCycle : BitVec 64 := 0
  anchorCounter : BitVec 32 := 0xFFFFFFFF
  underflows : BitVec 64 := 0
  event : Option Nat := none
  eventDeadline : Option Nat := none
  eventRehydrationPending : Bool := false
  running : Bool := false

structure RtcDateTime where
  year : BitVec 16 := 2000
  month : BitVec 8 := 1
  day : BitVec 8 := 1
  dayOfWeek : BitVec 8 := 6
  hour : BitVec 8 := 0
  minute : BitVec 8 := 0
  second : BitVec 8 := 0
  deriving DecidableEq

inductive RtcPeriodicRate
  | disabled | every1Over256Second | every1Over64Second | every1Over16Second
  | every1Over4Second | every1Over2Second | everySecond | every2Seconds

structure Sh4Rtc where
  dateTime : RtcDateTime := {}
  event : Option Nat := none
  eventDeadline : Option Nat := none
  eventRehydrationPending : Bool := false
  periodicRate : RtcPeriodicRate := .disabled
  divider256hzPhase : BitVec 8 := 0
  counter64hz : BitVec 8 := 0
  periodicPhaseTicks : BitVec 64 := 0
  ticks : BitVec 64 := 0
  periodicEvents : BitVec 64 := 0
  calendarRunning : Bool := false
  rtcEnabled : Bool := false
  periodicPending : Bool := false
  carryFlag : Bool := false
  carryEnabled : Bool := false
  alarmRegisters : Fin 6 → BitVec 8 := fun _ => 0
  alarmPending : Bool := false
  alarmEnabled : Bool := false

/-- What a pending event calls: a channel's underflow, the clock tick, or the code of some
other device. -/
inductive TimerCallback
  | underflow (index : Fin 3)
  | tick
  | device (id : Nat)

/-- The two devices on their scheduler; `phase` is where its `advance_to` stands. -/
structure Timers where
  scheduler : EventScheduler TimerCallback
  phase : Phase := .idle
  resetGeneration : Nat := 0
  clock : Sh4RtcClockDomain
  guestCyclesPerPeripheralCycle : BitVec 64
  channels : Fin 3 → Channel := fun _ => {}
  rtc : Sh4Rtc := {}

/-- The platform's construction: the clock domain, the timer unit, which registers its phase
observer, and the real-time clock. -/
def Timers.create (guestCyclesPerSecond guestCyclesPerPeripheralCycle : BitVec 64)
    (guestCycleBudget : Option Nat) : Except TimerError Timers := do
  let clock ← Sh4RtcClockDomain.create guestCyclesPerSecond
  let timers : Timers :=
    { scheduler := { guestCycleBudget := guestCycleBudget }
      clock := clock.addPhaseObserver
      guestCyclesPerPeripheralCycle }
  if guestCyclesPerPeripheralCycle = 0 then throw .periodIsZero else pure timers

abbrev TimersM := EStateM TimerError Timers

def Timers.setChannel (s : Timers) (index : Fin 3) (value : Channel) : Timers :=
  { s with channels := Function.update s.channels index value }

/-- `scheduler_.current_cycle()`, as the `std::uint64_t` it is. -/
def Timers.now (s : Timers) : BitVec 64 := BitVec.ofNat 64 s.scheduler.currentCycle

/-- `scheduler_.schedule_at` with the error passed on. -/
def schedule (guestCycle : Nat) (callback : TimerCallback) (kind : SchedulerEventKind) :
    TimersM Nat := fun s =>
  match scheduleAt s.scheduler guestCycle (some callback) kind with
  | .ok (id, scheduler) => .ok id { s with scheduler }
  | .error e => .error (.scheduler e) s

/-! ## The timer unit -/

def underflowFlag : BitVec 16 := 0x0100

def Channel.source (value : Channel) : BitVec 16 := value.control &&& 0x7

def Channel.usesRtcClock (value : Channel) : Bool := value.source == 6

def divisors : List Nat := [4, 16, 64, 256, 1024]

def tickPeriod (guestCyclesPerPeripheralCycle : BitVec 64) (value : Channel) :
    Except TimerError Nat :=
  match divisors[value.source.toNat]? with
  | some divisor =>
    checkedMultiply guestCyclesPerPeripheralCycle.toNat divisor .eventDeadlineOverflow
  | none => .error .noFixedPeriod

/-- The ticks of a running channel since its anchor. -/
def Timers.ticksSinceAnchor (s : Timers) (value : Channel) : Except TimerError Nat :=
  if value.usesRtcClock then
    s.clock.elapsedTicks value.anchorCycle.toNat s.scheduler.currentCycle
  else do
    let period ← tickPeriod s.guestCyclesPerPeripheralCycle value
    pure ((s.scheduler.currentCycle - value.anchorCycle.toNat) / period)

def Timers.effectiveCounter (s : Timers) (value : Channel) : Except TimerError (BitVec 32) :=
  if !value.running || s.scheduler.currentCycle < value.anchorCycle.toNat then .ok value.counter
  else do
    let ticks ← s.ticksSinceAnchor value
    pure (value.anchorCounter - BitVec.ofNat 32 ticks)

/-- Where `synchronize` puts the anchor: behind the last whole tick. -/
def Timers.synchronizedAnchor (s : Timers) (value : Channel) (ticks : Nat) :
    Except TimerError Nat :=
  if value.usesRtcClock then s.clock.deadlineAfter value.anchorCycle.toNat ticks
  else do
    let period ← tickPeriod s.guestCyclesPerPeripheralCycle value
    pure (value.anchorCycle.toNat + ticks * period)

def synchronize (index : Fin 3) : TimersM Unit := do
  let s ← get
  let value := s.channels index
  if !value.running then pure ()
  else if s.scheduler.currentCycle < value.anchorCycle.toNat then
    modify fun s => s.setChannel index
      { value with anchorCycle := s.now, anchorCounter := value.counter }
  else do
    let ticks ← ofChecked (s.ticksSinceAnchor value)
    if ticks = 0 then pure ()
    else do
      let counter := value.anchorCounter - BitVec.ofNat 32 ticks
      let counted := { value with counter, anchorCounter := counter }
      modify fun s => s.setChannel index counted
      -- The anchor moves last: a throw here leaves the new counter on the old anchor.
      let anchor ← ofChecked (s.synchronizedAnchor value ticks)
      modify fun s => s.setChannel index { counted with anchorCycle := BitVec.ofNat 64 anchor }

def dropEvent (scheduler : EventScheduler TimerCallback) (event : Option Nat) :
    EventScheduler TimerCallback :=
  match event with
  | some id => (cancel scheduler id).2
  | none => scheduler

def Channel.withoutEvent (value : Channel) : Channel :=
  { value with event := none, eventDeadline := none, eventRehydrationPending := false }

def cancelEvent (index : Fin 3) : TimersM Unit := modify fun s =>
  { s.setChannel index (s.channels index).withoutEvent with
    scheduler := dropEvent s.scheduler (s.channels index).event }

def underflowDeadline (s : Timers) (value : Channel) : Except TimerError Nat :=
  let ticks := value.counter.toNat + 1
  if value.usesRtcClock then s.clock.deadlineAfter value.anchorCycle.toNat ticks
  else do
    let period ← tickPeriod s.guestCyclesPerPeripheralCycle value
    let cycles ← checkedMultiply ticks period .eventDeadlineOverflow
    checkedAdd value.anchorCycle.toNat cycles .eventDeadlineOverflow

def underflowKind (index : Fin 3) : SchedulerEventKind :=
  match index with
  | 0 => .sh4Tmu0
  | 1 => .sh4Tmu1
  | 2 => .sh4Tmu2

def scheduleUnderflow (index : Fin 3) : TimersM Unit := do
  cancelEvent index
  modify fun s =>
    let value := s.channels index
    s.setChannel index { value with anchorCycle := s.now, anchorCounter := value.counter }
  let s ← get
  let deadline ← ofChecked (underflowDeadline s (s.channels index))
  let eventId ← schedule deadline (.underflow index) (underflowKind index)
  modify fun s => s.setChannel index
    { s.channels index with
      event := some eventId, eventDeadline := some deadline, eventRehydrationPending := false }

def handleUnderflow (index : Fin 3) : TimersM Unit := do
  modify fun s =>
    let value := (s.channels index).withoutEvent
    s.setChannel index
      { value with
        counter := value.constant
        anchorCounter := value.constant
        anchorCycle := s.now
        control := value.control ||| underflowFlag
        underflows := value.underflows + 1 }
  let s ← get
  if (s.channels index).running then scheduleUnderflow index else pure ()

def channelIndices : List (Fin 3) := List.finRange 3

/-- The first half of `handle_rtc_phase_reset`. -/
def beforePhaseReset (index : Fin 3) : TimersM Unit := do
  let s ← get
  let value := s.channels index
  if !value.running || !value.usesRtcClock then pure ()
  else do
    if s.scheduler.currentCycle ≥ value.anchorCycle.toNat then synchronize index else pure ()
    cancelEvent index

/-- Its second half. -/
def afterPhaseReset (guestCycle : BitVec 64) (index : Fin 3) : TimersM Unit := do
  let s ← get
  let value := s.channels index
  if !value.running || !value.usesRtcClock then pure ()
  else do
    modify fun s => s.setChannel index
      { value with anchorCycle := guestCycle, anchorCounter := value.counter }
    scheduleUnderflow index

/-- `reset_phase`: the timer unit is the only observer. -/
def resetPhase (guestCycle : BitVec 64) : TimersM Unit := do
  channelIndices.forM beforePhaseReset
  modify fun s => { s with clock := { s.clock with epochCycle := guestCycle } }
  channelIndices.forM (afterPhaseReset guestCycle)

/-- The part of the reset handler for one channel behind the phase reset. -/
def restartChannel (index : Fin 3) : TimersM Unit := do
  let s ← get
  let value := s.channels index
  if value.running && !value.usesRtcClock then do
    modify fun s => s.setChannel index
      { value with anchorCycle := s.now, anchorCounter := value.counter }
    scheduleUnderflow index
  else pure ()

/-- `Sh4Tmu::handle_scheduler_reset`. -/
def tmuHandleSchedulerReset : TimersM Unit := do
  channelIndices.forM cancelEvent
  let s ← get
  resetPhase s.now
  channelIndices.forM restartChannel

/-- `channel(index)`: the checked access of the public calls. -/
def channel (index : Nat) : TimersM (Fin 3) :=
  if h : index < 3 then pure ⟨index, h⟩ else throw .invalidChannel

def writeConstant (index : Nat) (newValue : BitVec 32) : TimersM Unit := do
  let index ← channel index
  modify fun s => s.setChannel index { s.channels index with constant := newValue }

def writeCounter (index : Nat) (newValue : BitVec 32) : TimersM Unit := do
  let index ← channel index
  modify fun s => s.setChannel index
    { s.channels index with counter := newValue, anchorCounter := newValue, anchorCycle := s.now }
  let s ← get
  if (s.channels index).running then scheduleUnderflow index else pure ()

def writeControl (index : Nat) (newValue : BitVec 16) : TimersM Unit := do
  let source := newValue &&& 0x7
  if source = 5 ∨ source = 7 then throw .unsupportedClockSource
  else do
    let index ← channel index
    synchronize index
    modify fun s =>
      let value := s.channels index
      let retainedFlag := value.control &&& newValue &&& underflowFlag
      s.setChannel index { value with control := newValue &&& 0x003F ||| retainedFlag }
    let s ← get
    if (s.channels index).running then scheduleUnderflow index else pure ()

/-- One round of `write_start`. -/
def startChannel (channelMask : BitVec 8) (index : Fin 3) : TimersM Unit := do
  let s ← get
  let shouldRun := channelMask.getLsbD index
  if (s.channels index).running = shouldRun then pure ()
  else if !shouldRun then do
    synchronize index
    modify fun s => s.setChannel index { s.channels index with running := false }
    cancelEvent index
  else do
    modify fun s => s.setChannel index { s.channels index with running := true }
    scheduleUnderflow index

def writeStart (channelMask : BitVec 8) : TimersM Unit :=
  channelIndices.forM (startChannel channelMask)

/-- `counter(index)` as a register read: it materializes the count. -/
def readCounter (index : Nat) : TimersM (BitVec 32) := do
  let index ← channel index
  synchronize index
  return ((← get).channels index).counter

def resetChannel (index : Fin 3) : TimersM Unit := do
  cancelEvent index
  modify fun s => s.setChannel index {}

/-- `Sh4Tmu::reset`. -/
def tmuReset : TimersM Unit := channelIndices.forM resetChannel

/-! ## The real-time clock -/

def leapYear (year : BitVec 16) : Bool :=
  year.toNat % 4 = 0 && (year.toNat % 100 ≠ 0 || year.toNat % 400 = 0)

def daysInMonth (year : BitVec 16) (month : BitVec 8) : BitVec 8 :=
  let days : List (BitVec 8) := [31, 28, 31, 30, 31, 30, 31, 31, 30, 31, 30, 31]
  days.getD (month.toNat - 1) 0 + (if month = 2 ∧ leapYear year = true then 1 else 0)

/-- What `validate` checks, negated: the calendar fields are in range. -/
def RtcDateTime.Valid (value : RtcDateTime) : Prop :=
  value.year ≤ 9999 ∧ 1 ≤ value.month ∧ value.month ≤ 12 ∧ 1 ≤ value.day ∧
    value.day ≤ daysInMonth value.year value.month ∧ value.dayOfWeek ≤ 6 ∧ value.hour ≤ 23 ∧
    value.minute ≤ 59 ∧ value.second ≤ 59

instance (value : RtcDateTime) : Decidable value.Valid := inferInstanceAs (Decidable (_ ∧ _))

def periodicTicks : RtcPeriodicRate → Nat
  | .disabled => 0
  | .every1Over256Second => 1
  | .every1Over64Second => 4
  | .every1Over16Second => 16
  | .every1Over4Second => 64
  | .every1Over2Second => 128
  | .everySecond => 256
  | .every2Seconds => 512

def Timers.setRtc (s : Timers) (rtc : Sh4Rtc) : Timers := { s with rtc }

def Sh4Rtc.withoutEvent (rtc : Sh4Rtc) : Sh4Rtc :=
  { rtc with event := none, eventDeadline := none, eventRehydrationPending := false }

/-- `Sh4Rtc::cancel_event`. -/
def cancelTick : TimersM Unit := modify fun s =>
  { s.setRtc s.rtc.withoutEvent with scheduler := dropEvent s.scheduler s.rtc.event }

def scheduleTick : TimersM Unit := do
  let s ← get
  let deadline ← ofChecked (s.clock.deadlineAfter s.scheduler.currentCycle 64)
  let eventId ← schedule deadline .tick .sh4Rtc
  modify fun s => s.setRtc
    { s.rtc with
      event := some eventId, eventDeadline := some deadline, eventRehydrationPending := false }

def scheduleTickIfEnabled : TimersM Unit := do
  let s ← get
  if s.rtc.rtcEnabled then scheduleTick else pure ()

def setDateTime (value : RtcDateTime) : TimersM Unit := do
  let s ← get
  if s.rtc.calendarRunning then throw .calendarRunning
  else if ¬ value.Valid then throw .invalidCalendar
  else modify fun s => s.setRtc { s.rtc with dateTime := value }

def setRtcEnabled (enabled : Bool) : TimersM Unit := do
  modify fun s => s.setRtc { s.rtc with rtcEnabled := enabled }
  let s ← get
  if !enabled then cancelTick
  else if s.rtc.event.isNone && !s.rtc.eventRehydrationPending then scheduleTick
  else pure ()

/-- `Sh4Rtc::start`. -/
def startCalendar : TimersM Unit := do
  modify fun s => s.setRtc { s.rtc with calendarRunning := true }
  setRtcEnabled true

def resetDivider : TimersM Unit := do
  cancelTick
  modify fun s => s.setRtc
    { s.rtc with
      divider256hzPhase := 0, counter64hz := 0, periodicPhaseTicks := 0, periodicPending := false }
  let s ← get
  resetPhase s.now
  scheduleTickIfEnabled

/-- The setters that only assign members: `stop`, the interrupt enables, the periodic rate and
the acknowledgements. -/
inductive RtcAssignment
  | stop
  | setPeriodicRate (rate : RtcPeriodicRate)
  | setCarryInterruptEnabled (enabled : Bool)
  | setAlarmInterruptEnabled (enabled : Bool)
  | acknowledgePeriodicInterrupt
  | acknowledgeCarryInterrupt
  | acknowledgeAlarmInterrupt

def RtcAssignment.apply (rtc : Sh4Rtc) : RtcAssignment → Sh4Rtc
  | .stop => { rtc with calendarRunning := false }
  | .setPeriodicRate rate => { rtc with periodicRate := rate }
  | .setCarryInterruptEnabled enabled => { rtc with carryEnabled := enabled }
  | .setAlarmInterruptEnabled enabled => { rtc with alarmEnabled := enabled }
  | .acknowledgePeriodicInterrupt => { rtc with periodicPending := false }
  | .acknowledgeCarryInterrupt => { rtc with carryFlag := false }
  | .acknowledgeAlarmInterrupt => { rtc with alarmPending := false }

def writeAlarmRegister (index : Nat) (value : BitVec 8) : TimersM Unit :=
  if h : index < 6 then
    modify fun s => s.setRtc
      { s.rtc with alarmRegisters := Function.update s.rtc.alarmRegisters ⟨index, h⟩ value }
  else throw .invalidAlarmRegister

def incrementSecond (value : RtcDateTime) : RtcDateTime :=
  let value := { value with second := value.second + 1 }
  if value.second ≤ 59 then value
  else
    let value := { value with second := 0, minute := value.minute + 1 }
    if value.minute ≤ 59 then value
    else
      let value := { value with minute := 0, hour := value.hour + 1 }
      if value.hour ≤ 23 then value
      else
        let value :=
          { value with
            hour := 0
            dayOfWeek := BitVec.ofNat 8 ((value.dayOfWeek.toNat + 1) % 7)
            day := value.day + 1 }
        if value.day ≤ daysInMonth value.year value.month then value
        else
          let value := { value with day := 1, month := value.month + 1 }
          if value.month ≤ 12 then value
          else
            { value with
              month := 1, year := BitVec.ofNat 16 ((value.year.toNat + 1) % 10000) }

def bcd (value : BitVec 8) : BitVec 8 := BitVec.ofNat 8 (value.toNat / 10 * 16 ||| value.toNat % 10)

/-- The fields an alarm is compared with, in register order. -/
def alarmFields (value : RtcDateTime) : Fin 6 → BitVec 8 :=
  ![bcd value.second, bcd value.minute, bcd value.hour, value.dayOfWeek, bcd value.day,
    bcd value.month]

def updateAlarm (rtc : Sh4Rtc) : Sh4Rtc :=
  let enabled := (List.finRange 6).filter fun i => rtc.alarmRegisters i &&& 0x80 ≠ 0
  let matching := enabled.all fun i => rtc.alarmRegisters i &&& 0x7F = alarmFields rtc.dateTime i
  if matching && !enabled.isEmpty then { rtc with alarmPending := true } else rtc

/-- `tick` up to its rescheduling. -/
def Sh4Rtc.ticked (rtc : Sh4Rtc) : Sh4Rtc :=
  let rtc := rtc.withoutEvent
  let rtc := { rtc with ticks := rtc.ticks + 1, periodicPhaseTicks := rtc.periodicPhaseTicks + 1 }
  let period := periodicTicks rtc.periodicRate
  let rtc :=
    if period ≠ 0 ∧ rtc.periodicPhaseTicks.toNat % period = 0 then
      { rtc with periodicPending := true, periodicEvents := rtc.periodicEvents + 1 }
    else rtc
  let rtc := { rtc with divider256hzPhase := rtc.divider256hzPhase ^^^ 1 }
  if rtc.divider256hzPhase = 0 then
    let rtc := { rtc with counter64hz := (rtc.counter64hz + 1) &&& 0x7F }
    if rtc.counter64hz = 0 then
      let rtc := { rtc with carryFlag := true }
      if rtc.calendarRunning then
        updateAlarm { rtc with dateTime := incrementSecond rtc.dateTime }
      else rtc
    else rtc
  else rtc

/-- `Sh4Rtc::tick`. -/
def tick : TimersM Unit := do
  modify fun s => s.setRtc s.rtc.ticked
  scheduleTickIfEnabled

/-- `Sh4Rtc::handle_scheduler_reset`. -/
def rtcHandleSchedulerReset : TimersM Unit := do
  modify fun s => s.setRtc s.rtc.withoutEvent
  let s ← get
  resetPhase s.now
  scheduleTickIfEnabled

/-! ## The scheduler around them -/

/-- Why `EventScheduler::reset` refuses, if it does. -/
def resetRefused (s : Timers) : Option TimerError :=
  if s.scheduler.advanceInProgress then some .resetDuringAdvance
  else if s.resetGeneration = Scheduler.uint64Max then some .resetGenerationOverflow
  else none

/-- `clear` and the rewound clock. -/
def rewound (s : Timers) : Timers :=
  { s with
    scheduler :=
      { s.scheduler with
        events := ∅, eventKeys := ∅, currentCycle := 0, processedEventCount := 0 }
    resetGeneration := s.resetGeneration + 1 }

/-- Both observers run, whatever the first one throws; the first error is thrown on. -/
def runObservers (first second : TimersM Unit) : TimersM Unit := fun s =>
  match first s with
  | .ok _ t => second t
  | .error e t =>
    match second t with
    | .ok _ u => .error e u
    | .error _ u => .error e u

/-- `EventScheduler::reset`; the timer unit registered its observer first. -/
def resetScheduler : TimersM Unit := do
  let s ← get
  match resetRefused s with
  | some e => throw e
  | none => do
    modify rewound
    runObservers tmuHandleSchedulerReset rtcHandleSchedulerReset

/-- A callback of one of the two devices inside `advance_to`: a throw leaves the advance. -/
def runCallback (a : Advance) (callback : TimersM Unit) : TimersM Unit := fun s =>
  match callback { s with phase := .callback a } with
  | .ok _ t => .ok () { t with phase := .loop a }
  | .error e t => .error e { t with scheduler := endAdvance t.scheduler, phase := .idle }

/-- One round of the loop of `advance_to`. Another device's callback is left running: what it
does are the actions up to its return or throw. -/
def advanceRound (a : Advance) : TimersM Unit := fun s =>
  match loopHead s.scheduler a with
  | .returns _ scheduler => .ok () { s with scheduler, phase := .idle }
  | .fire key a' scheduler =>
    match s.scheduler.events[key]? with
    | some ⟨.underflow index, _⟩ => runCallback a' (handleUnderflow index) { s with scheduler }
    | some ⟨.tick, _⟩ => runCallback a' tick { s with scheduler }
    | _ => .ok () { s with scheduler, phase := .callback a' }

def deviceSchedules (s : Timers) : Except SchedulerError (Nat × EventScheduler TimerCallback) →
      EStateM.Result TimerError Timers Unit
  | .ok (_, scheduler) => .ok () { s with scheduler }
  | .error e => .error (.scheduler e) s

def advanceBegins (s : Timers) : Except SchedulerError (Advance × EventScheduler TimerCallback) →
      EStateM.Result TimerError Timers Unit
  | .ok (a, scheduler) => .ok () { s with scheduler, phase := .loop a }
  | .error e => .error (.scheduler e) s

inductive Action
  | writeConstant (index : Nat) (value : BitVec 32)
  | writeCounter (index : Nat) (value : BitVec 32)
  | writeControl (index : Nat) (value : BitVec 16)
  | writeStart (channelMask : BitVec 8)
  | readCounter (index : Nat)
  | tmuReset
  | setDateTime (value : RtcDateTime)
  | startCalendar
  | setRtcEnabled (enabled : Bool)
  | resetDivider
  | assignRtc (assignment : RtcAssignment)
  | writeAlarmRegister (index : Nat) (value : BitVec 8)
  | resetPhase
  | resetScheduler
  | deviceScheduleAt (guestCycle : BitVec 64) (id : Nat) (kind : SchedulerEventKind)
  | deviceScheduleAfter (guestCycles : BitVec 64) (id : Nat) (kind : SchedulerEventKind)
  | deviceScheduleAtOrNow (guestCycle : BitVec 64) (id : Nat) (kind : SchedulerEventKind)
  | deviceCancel (eventId : Nat)
  | advanceTo (guestCycle : BitVec 64) (eventBudget : Nat)
  | advanceBy (guestCycles : BitVec 64) (eventBudget : Nat)
  | advanceRound
  | callbackReturns
  | callbackThrows

/-- An action of the caller, between advances or inside another device's callback. -/
def callerAction (s : Timers) : Action → EStateM.Result TimerError Timers Unit
  | .writeConstant index value => writeConstant index value s
  | .writeCounter index value => writeCounter index value s
  | .writeControl index value => writeControl index value s
  | .writeStart channelMask => writeStart channelMask s
  | .readCounter index => (do let _ ← readCounter index) s
  | .tmuReset => tmuReset s
  | .setDateTime value => setDateTime value s
  | .startCalendar => startCalendar s
  | .setRtcEnabled enabled => setRtcEnabled enabled s
  | .resetDivider => resetDivider s
  | .assignRtc assignment => .ok () (s.setRtc (assignment.apply s.rtc))
  | .writeAlarmRegister index value => writeAlarmRegister index value s
  -- The manual reset of the platform calls it with cycle zero.
  | .resetPhase => resetPhase 0 s
  | .resetScheduler => resetScheduler s
  | .deviceScheduleAt cycle id kind =>
    deviceSchedules s (scheduleAt s.scheduler cycle.toNat (some (.device id)) kind)
  | .deviceScheduleAfter cycles id kind =>
    deviceSchedules s (scheduleAfter s.scheduler cycles.toNat (some (.device id)) kind)
  | .deviceScheduleAtOrNow cycle id kind =>
    deviceSchedules s (scheduleAtOrNow s.scheduler cycle.toNat (some (.device id)) kind)
  | .deviceCancel id => .ok () { s with scheduler := (cancel s.scheduler id).2 }
  | .advanceTo cycle budget => advanceBegins s (beginAdvance s.scheduler cycle.toNat budget)
  | .advanceBy cycles budget => advanceBegins s (beginAdvanceBy s.scheduler cycles.toNat budget)
  | .callbackReturns =>
    match s.phase with
    | .callback a => .ok () { s with phase := .loop a }
    | _ => .ok () s
  | .callbackThrows =>
    match s.phase with
    | .callback _ => .error .device { s with scheduler := endAdvance s.scheduler, phase := .idle }
    | _ => .ok () s
  | .advanceRound => .ok () s

/-- One action; an action its phase does not admit does nothing. -/
def perform (s : Timers) (action : Action) : EStateM.Result TimerError Timers Unit :=
  match s.phase, action with
  | .loop a, .advanceRound => advanceRound a s
  | .loop _, _ => .ok () s
  | _, action => callerAction s action

def resultState : EStateM.Result TimerError Timers Unit → Timers
  | .ok _ t => t
  | .error _ t => t

def step (s : Timers) (action : Action) : Timers := resultState (perform s action)

def run (s : Timers) (actions : List Action) : Timers := actions.foldl step s

end KatanaRecomp.Runtime.Timer
