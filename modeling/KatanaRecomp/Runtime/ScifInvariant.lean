import KatanaRecomp.Runtime.SchedulerUse
import KatanaRecomp.Runtime.ScifHandoff

/-! # What holds of the serial port between two calls

`Settled` says that the derived status bits are those of the FIFOs and that the
scheduler holds the port's event exactly while a byte can be sent. Every path
of the port ends in `updateInterrupts`, or in that and `scheduleTransmit`, so
one lemma for each ending carries them all. -/
namespace KatanaRecomp.Runtime.Scif
open Lib ByteFormat Scheduler

/-! ## Registers -/

/-- Only bits of the mask are set. -/
def Within (value mask : BitVec 16) : Prop := value &&& ~~~mask = 0

theorem within_iff {value mask : BitVec 16} :
    Within value mask ↔ ∀ i, i < 16 → value.getLsbD i = true → mask.getLsbD i = true := by
  unfold Within
  constructor
  · intro h i hi hvalue
    have hbit := congrArg (fun x => x.getLsbD i) h
    simpa [hi, hvalue] using hbit
  · intro h
    refine BitVec.eq_of_getLsbD_eq ?_
    intro i hi
    cases hvalue : value.getLsbD i with
    | false => simp [hvalue]
    | true => simp [hi, hvalue, h i hi hvalue]

theorem Within.or {x y mask : BitVec 16} (hx : Within x mask) (hy : Within y mask) :
    Within (x ||| y) mask := by
  rw [within_iff] at hx hy ⊢
  intro i hi h
  rw [BitVec.getLsbD_or, Bool.or_eq_true] at h
  exact h.elim (hx i hi) (hy i hi)

theorem Within.and {x mask : BitVec 16} (hx : Within x mask) (y : BitVec 16) :
    Within (x &&& y) mask := by
  rw [within_iff] at hx ⊢
  intro i hi h
  rw [BitVec.getLsbD_and, Bool.and_eq_true] at h
  exact hx i hi h.1

/-- A written register keeps the bits of its mask only. -/
theorem within_written (value mask : BitVec 32) :
    Within ((value &&& mask).setWidth 16) (mask.setWidth 16) := by
  rw [within_iff]
  intro i hi h
  simp only [BitVec.getLsbD_setWidth, hi, decide_true, Bool.true_and, BitVec.getLsbD_and,
    Bool.and_eq_true] at h ⊢
  exact h.2

/-- The registers are ones that writes can leave, and the FIFOs have room for what they hold. -/
structure Registers (scif : Sh4Scif) : Prop where
  transmitFifo : scif.transmitFifo.length ≤ fifoCapacity
  receiveFifo : scif.receiveFifo.length ≤ fifoCapacity
  mode : Within scif.mode 0x007B
  control : Within scif.control 0x00FA
  status : Within scif.status 0x00FF
  statusLastRead : Within scif.statusLastRead 0x00FF
  fifoControl : Within scif.fifoControl 0x00FF
  port : Within scif.port 0x00F3
  lineStatus : Within scif.lineStatus 0x0001

/-! ## The derived bits -/

/-- The four derived bits show the levels of the FIFOs. -/
structure Derived (scif : Sh4Scif) : Prop where
  transmitEmpty : scif.status.getLsbD 5 =
    decide (scif.transmitFifo.length ≤ transmitLevel scif.fifoControl)
  transmitEnd : scif.status.getLsbD 6 = scif.transmitFifo.isEmpty
  receiveReady : scif.status.getLsbD 0 = !scif.receiveFifo.isEmpty
  receiveFull : scif.status.getLsbD 1 =
    (!scif.receiveFifo.isEmpty && decide (receiveLevel scif.fifoControl ≤ scif.receiveFifo.length))

theorem getLsbD_mask (i : Nat) (hi : i < 16) :
    statusTransmitEmpty.getLsbD i = decide (i = 5) ∧ statusTransmitEnd.getLsbD i = decide (i = 6) ∧
      statusReceiveReady.getLsbD i = decide (i = 0) ∧
      statusReceiveFull.getLsbD i = decide (i = 1) := by
  interval_cases i <;> exact ⟨rfl, rfl, rfl, rfl⟩

/-- `if (on) status |= bit; else status &= ~bit;`. -/
theorem getLsbD_assigned {status bit : BitVec 16} {on : Prop} [Decidable on] {n i : Nat}
    (hi : i < 16) (hbit : bit.getLsbD i = decide (i = n)) :
    (if on then status ||| bit else status &&& ~~~bit).getLsbD i =
      if i = n then decide on else status.getLsbD i := by
  split
  · rename_i hon
    rw [BitVec.getLsbD_or, hbit]
    by_cases hn : i = n
    · simp [hn, hon]
    · simp [hn]
  · rename_i hoff
    rw [BitVec.getLsbD_and, BitVec.getLsbD_not, hbit]
    by_cases hn : i = n
    · simp [hn, hoff]
    · simp only [hn, hi, decide_true, decide_false, Bool.not_false, Bool.and_true, if_false]

/-- Bits 5, 6, 0 and 1 are the derived ones, the others stay. -/
theorem getLsbD_derivedStatus (status fifoControl : BitVec 16) (transmitFifo receiveFifo : List Byte)
    (idle : Bool) (i : Nat) (hi : i < 16) :
    (derivedStatus status fifoControl transmitFifo receiveFifo idle).getLsbD i =
      if i = 5 then decide (transmitFifo.length ≤ transmitLevel fifoControl)
      else if i = 6 then idle
      else if i = 0 then !receiveFifo.isEmpty
      else if i = 1 then
        !receiveFifo.isEmpty && decide (receiveLevel fifoControl ≤ receiveFifo.length)
      else status.getLsbD i := by
  obtain ⟨hempty, hend, hready, hfull⟩ := getLsbD_mask i hi
  have hfirst := @getLsbD_assigned status _ (transmitFifo.length ≤ transmitLevel fifoControl) _
    5 i hi hempty
  unfold derivedStatus
  dsimp only
  generalize (if transmitFifo.length ≤ transmitLevel fifoControl then
      status ||| statusTransmitEmpty else status &&& ~~~statusTransmitEmpty) = first at hfirst ⊢
  have hsecond := @getLsbD_assigned first _ (idle = true) _ 6 i hi hend
  generalize (if idle then first ||| statusTransmitEnd
      else first &&& ~~~statusTransmitEnd) = second at hsecond ⊢
  rw [hfirst] at hsecond
  cases hreceive : receiveFifo.isEmpty with
  | true =>
    simp only [if_true, BitVec.getLsbD_and, BitVec.getLsbD_not, BitVec.getLsbD_or, hsecond, hfull,
      hready, hi]
    by_cases h5 : i = 5
    · simp [h5]
    by_cases h6 : i = 6
    · simp [h6]
    by_cases h0 : i = 0
    · simp [h0]
    by_cases h1 : i = 1
    · simp [h1]
    · simp [h5, h6, h0, h1]
  | false =>
    have hthird := @getLsbD_assigned (second ||| statusReceiveReady) _
      (receiveFifo.length ≥ receiveLevel fifoControl) _ 1 i hi hfull
    rw [if_neg (by simp), hthird, BitVec.getLsbD_or, hsecond, hready]
    by_cases h5 : i = 5
    · simp [h5]
    by_cases h6 : i = 6
    · simp [h6]
    by_cases h0 : i = 0
    · simp [h0]
    by_cases h1 : i = 1
    · simp [h1]
    · simp [h5, h6, h0, h1]

theorem derivedStatus_within {status : BitVec 16} (h : Within status 0x00FF)
    (fifoControl : BitVec 16) (transmitFifo receiveFifo : List Byte) (idle : Bool) :
    Within (derivedStatus status fifoControl transmitFifo receiveFifo idle) 0x00FF := by
  rw [within_iff] at h ⊢
  intro i hi hbit
  rw [getLsbD_derivedStatus _ _ _ _ _ i hi] at hbit
  rcases Nat.lt_or_ge i 8 with hlow | hhigh
  · interval_cases i <;> rfl
  · refine h i hi ?_
    rwa [if_neg (by omega), if_neg (by omega), if_neg (by omega), if_neg (by omega)] at hbit

theorem refreshStatus_derived {scif : Sh4Scif}
    (hpending : scif.transmitEventRehydrationPending = false)
    (hsending : scif.transmitEvent.isSome = true → scif.requiresEvent = true) :
    Derived scif.refreshStatus := by
  have hidle : (scif.transmitEvent.isNone && !scif.transmitEventRehydrationPending &&
      scif.transmitFifo.isEmpty) = scif.transmitFifo.isEmpty := by
    rw [hpending]
    cases hevent : scif.transmitEvent with
    | none => simp
    | some id =>
      have hrequires := hsending (by rw [hevent]; rfl)
      unfold Sh4Scif.requiresEvent at hrequires
      simp only [Bool.and_eq_true, Bool.not_eq_true'] at hrequires
      simp [hrequires.1.1]
  unfold Sh4Scif.refreshStatus
  rw [hidle]
  constructor
  all_goals
    dsimp only
    rw [getLsbD_derivedStatus _ _ _ _ _ _ (by decide)]
    simp

theorem refreshStatus_registers {scif : Sh4Scif} (h : Registers scif) :
    Registers scif.refreshStatus := { h with status := derivedStatus_within h.status _ _ _ _ }

/-! ## The event -/

/-- The port waits for nothing. -/
structure Quiet (s : Port) : Prop where
  event : s.device.transmitEvent = none
  deadline : s.device.transmitEventDeadline = none
  none : ∀ key, key ∉ s.scheduler.events

/-- The port waits for the end of a frame. -/
structure Sending (s : Port) (key : EventKey) : Prop where
  event : s.device.transmitEvent = some key.id
  deadline : s.device.transmitEventDeadline = some key.deadline
  only : ∀ k, k ∈ s.scheduler.events ↔ k = key
  ahead : s.scheduler.currentCycle < key.deadline

/-- The scheduler holds what the port thinks it holds. -/
structure Events (s : Port) : Prop where
  scheduler : SchedulerOk s.scheduler s.phase
  pending : s.device.transmitEventRehydrationPending = false
  event : Quiet s ∨ ∃ key, Sending s key

structure Settled (s : Port) : Prop extends Events s where
  registers : Registers s.device
  derived : Derived s.device
  armed : s.device.transmitEvent.isSome = s.device.requiresEvent

/-- The members an operation on the registers leaves alone. -/
structure SameEvent (scif scif' : Sh4Scif) : Prop where
  event : scif'.transmitEvent = scif.transmitEvent
  deadline : scif'.transmitEventDeadline = scif.transmitEventDeadline
  pending : scif'.transmitEventRehydrationPending = scif.transmitEventRehydrationPending

variable {s : Port}

theorem Events.setDevice (hs : Events s) {device : Sh4Scif}
    (hsame : SameEvent s.device device) (lines : Sh4ScifInterrupt → Bool) :
    Events { s with device, lines } := by
  refine ⟨hs.scheduler, hsame.pending.trans hs.pending, ?_⟩
  rcases hs.event with hquiet | ⟨key, hsending⟩
  · exact .inl ⟨hsame.event.trans hquiet.event, hsame.deadline.trans hquiet.deadline, hquiet.none⟩
  · exact .inr ⟨key, hsame.event.trans hsending.event, hsame.deadline.trans hsending.deadline,
      hsending.only, hsending.ahead⟩

variable {fail : ScifError → Port → Prop}

theorem onDevice_ensures {f : Sh4Scif → Sh4Scif} {post : Unit → Port → Prop}
    (h : post () { s with device := f s.device }) : Ensures (onDevice f) s post fail := .update h

/-- What a call leaves: a settled port with these bytes sent and waiting. -/
structure Leaves (t : Port) (sent waiting : List Byte) : Prop where
  settled : Settled t
  sent : t.device.transmittedBytes = sent
  waiting : t.device.transmitFifo = waiting

theorem updateInterrupts_ensures (hs : Events s) (hregisters : Registers s.device)
    (hsending : s.device.transmitEvent.isSome = true → s.device.requiresEvent = true) :
    Ensures updateInterrupts s
      (fun _ t => t.scheduler = s.scheduler ∧ t.phase = s.phase ∧
        t.device = s.device.refreshStatus ∧ Events t ∧ Registers t.device ∧ Derived t.device) fail := by
  have hsame : SameEvent s.device s.device.refreshStatus := ⟨rfl, rfl, rfl⟩
  refine .update ⟨rfl, rfl, rfl, hs.setDevice hsame _, ?_, ?_⟩
  · exact refreshStatus_registers hregisters
  · exact refreshStatus_derived hs.pending hsending

/-- A path that changes the registers only ends here. -/
theorem refreshed_ensures (hs : Events s) (hregisters : Registers s.device)
    (harmed : s.device.transmitEvent.isSome = s.device.requiresEvent) : Ensures updateInterrupts s
      (fun _ t => Leaves t s.device.transmittedBytes s.device.transmitFifo) fail := by
  refine (updateInterrupts_ensures hs hregisters fun h => by rw [← harmed, h]).mono ?_
    fun _ _ h => h
  rintro _ t ⟨-, -, hdevice, hevents, hregisters', hderived⟩
  refine ⟨{ hevents with registers := hregisters', derived := hderived, armed := ?_ }, ?_, ?_⟩
  · rw [hdevice]
    exact harmed
  · rw [hdevice]
    rfl
  · rw [hdevice]
    rfl

theorem cancelTransmit_ensures (hs : Events s) : Ensures cancelTransmit s
      (fun _ t => Events t ∧ Quiet t ∧ t.device = s.device.withoutEvent ∧ t.phase = s.phase ∧
        t.scheduler.currentCycle = s.scheduler.currentCycle ∧
        t.scheduler.nextEventId = s.scheduler.nextEventId) fail := by
  refine .update ?_
  rcases hs.event with hquiet | ⟨key, hsending⟩
  · rw [hquiet.event]
    have hquiet' : Quiet { s with device := s.device.withoutEvent } := ⟨rfl, rfl, hquiet.none⟩
    exact ⟨⟨hs.scheduler, rfl, .inl hquiet'⟩, hquiet', rfl, rfl, rfl, rfl⟩
  · rw [hsending.event]
    have hmem : key ∈ s.scheduler.events := (hsending.only key).mpr rfl
    have hindexed := hs.scheduler.consistent.indexed key hmem
    have hcancel : cancel s.scheduler key.id = (true, (cancel s.scheduler key.id).2) := by
      unfold cancel
      rw [hindexed]
    obtain ⟨key', hid, hremoved, hcycle⟩ := cancel_spec hs.scheduler.consistent hcancel
    have hkey : key' = key := (hsending.only key').mp hremoved.was
    subst hkey
    have hquiet' : Quiet { s with
        scheduler := (cancel s.scheduler key'.id).2, device := s.device.withoutEvent } := by
      refine ⟨rfl, rfl, ?_⟩
      intro k hk
      obtain ⟨hne, hk⟩ := (hremoved.events k).mp hk
      exact hne ((hsending.only k).mp hk)
    exact ⟨⟨(hs.scheduler.cancelled key'.id).1, rfl, .inl hquiet'⟩, hquiet', rfl, rfl, hcycle,
      hremoved.nextEventId⟩

/-! ## Frames -/

/-- The longest frame: 12 bits at the slowest clock. -/
def maxFrameCycles : Nat := 128 * 256 * 64 * 12

theorem frameCycles_ok (scif : Sh4Scif) :
    ∃ cycles, scif.frameCycles = .ok cycles ∧ 0 < cycles ∧ cycles ≤ maxFrameCycles := by
  have hscale : (scif.mode &&& 3).toNat ≤ 3 := by
    rw [BitVec.toNat_and]
    exact Nat.and_le_right
  have hrate := scif.bitRate.isLt
  unfold Sh4Scif.frameCycles
  dsimp only
  generalize (scif.mode &&& 3).toNat = scale at hscale
  have hclock : 0 < 1 <<< (scale * 2) ∧ 1 <<< (scale * 2) ≤ 64 := by
    interval_cases scale <;> decide
  generalize 1 <<< (scale * 2) = clock at hclock
  have hbits : ∃ bits, 1 + (if scif.mode &&& 0x40 ≠ 0 then 7 else 8) +
      (if scif.mode &&& 0x20 ≠ 0 then 1 else 0) + (if scif.mode &&& 0x08 ≠ 0 then 2 else 1) = bits ∧
      0 < bits ∧ bits ≤ 12 := by
    refine ⟨_, rfl, ?_, ?_⟩
    · omega
    · split <;> split <;> split <;> omega
  obtain ⟨bits, hbits, hpositive, hsmall⟩ := hbits
  rw [hbits]
  have hdivisor : 128 * (scif.bitRate.toNat + 1) * clock ≤ 128 * 256 * 64 :=
    Nat.mul_le_mul (Nat.mul_le_mul le_rfl (by omega)) hclock.2
  have hquotient : 128 * 256 * 64 ≤ Scheduler.uint64Max / bits := by
    rw [Nat.le_div_iff_mul_le hpositive]
    unfold Scheduler.uint64Max
    omega
  rw [if_neg (by omega)]
  refine ⟨_, rfl, ?_, ?_⟩
  · exact Nat.mul_pos (Nat.mul_pos (by omega) hclock.1) hpositive
  · exact Nat.mul_le_mul hdivisor hsmall

/-- A frame from here ends before the last cycle, and there is an event id left for it. -/
structure FrameFits (s : Port) : Prop where
  cycle : s.scheduler.currentCycle + maxFrameCycles ≤ Scheduler.uint64Max
  eventId : s.scheduler.nextEventId < Scheduler.uint64Max

theorem schedule_ensures (hs : Events s) (hquiet : Quiet s) (hfits : FrameFits s)
    {deadline : Nat} (hahead : s.scheduler.currentCycle < deadline)
    (hbound : deadline ≤ Scheduler.uint64Max) : Ensures (schedule deadline) s
      (fun id t => t = { s with scheduler := t.scheduler } ∧ SchedulerOk t.scheduler s.phase ∧
        (∀ k, k ∈ t.scheduler.events ↔ k = ⟨deadline, id⟩) ∧
        t.scheduler.currentCycle = s.scheduler.currentCycle ∧
        t.scheduler.nextEventId = s.scheduler.nextEventId + 1) (fun _ _ => False) := by
  unfold Ensures schedule
  cases hschedule : scheduleAt s.scheduler deadline (some .completeTransmit) .scifTransmit with
  | error e =>
    have herror := hs.scheduler.scheduleAt_error hahead.le hschedule
    subst herror
    unfold scheduleAt at hschedule
    have hid := hfits.eventId
    dsimp only at hschedule
    rw [if_neg (by omega), if_neg (by omega)] at hschedule
    split at hschedule
    · cases hschedule
    split at hschedule
    · cases hschedule
    · cases hschedule
  | ok result =>
    obtain ⟨id, scheduler'⟩ := result
    have hscheduled := scheduleAt_spec hschedule
    refine ⟨rfl, hs.scheduler.scheduled hscheduled hbound, ?_, hscheduled.currentCycle,
      hscheduled.nextEventId⟩
    intro k
    rw [hscheduled.events]
    exact ⟨fun h => h.resolve_right (hquiet.none k), .inl⟩

/-- A path that may start a frame ends here. -/
theorem scheduleTransmit_ensures (hs : Events s) (hregisters : Registers s.device)
    (hderived : Derived s.device)
    (hsending : s.device.transmitEvent.isSome = true → s.device.requiresEvent = true)
    (hfits : FrameFits s) : Ensures scheduleTransmit s
      (fun _ t => Leaves t s.device.transmittedBytes s.device.transmitFifo ∧ t.phase = s.phase)
      (fun _ _ => False) := by
  unfold scheduleTransmit
  refine .bind (.get (.ite ?_ ?_))
  · intro hskip
    have harmed : s.device.transmitEvent.isSome = s.device.requiresEvent := by
      rw [hs.pending] at hskip
      cases hevent : s.device.transmitEvent.isSome with
      | true => rw [hsending hevent]
      | false =>
        rw [hevent] at hskip
        simpa using hskip
    exact .pure ⟨⟨{ hs with registers := hregisters, derived := hderived, armed := harmed },
      rfl, rfl⟩, rfl⟩
  intro hstart
  simp only [Bool.or_eq_true, not_or, Bool.not_eq_true, Bool.not_eq_true', Bool.not_eq_false]
    at hstart
  obtain ⟨⟨hnone, -⟩, hrequires⟩ := hstart
  have hquiet : Quiet s := by
    rcases hs.event with hquiet | ⟨key, hsend⟩
    · exact hquiet
    · rw [hsend.event] at hnone
      cases hnone
  obtain ⟨cycles, hcycles, hpositive, hsmall⟩ := frameCycles_ok s.device
  have hroom := hfits.cycle
  refine .bind (.ofChecked ?_ ?_)
  swap
  · intro e he
    rw [hcycles] at he
    cases he
  intro n hn
  rw [hcycles] at hn
  cases hn
  rw [if_neg (by omega)]
  refine .bind ((schedule_ensures hs hquiet hfits (by omega) (by omega)).mono ?_ fun _ _ h => h)
  rintro id t ⟨ht, hscheduler, honly, hcycle, -⟩
  rw [ht]
  refine .bind (onDevice_ensures ?_)
  generalize hdevice : ({ s.device with
    transmitEvent := some id
    transmitEventDeadline := some (s.scheduler.currentCycle + cycles)
    transmitEventRehydrationPending := false } : Sh4Scif) = device
  have hsend : Sending { s with scheduler := t.scheduler, device }
      ⟨s.scheduler.currentCycle + cycles, id⟩ := by
    subst hdevice
    refine ⟨rfl, rfl, honly, ?_⟩
    change t.scheduler.currentCycle < _
    rw [hcycle]
    change s.scheduler.currentCycle < s.scheduler.currentCycle + cycles
    omega
  have hevents : Events { s with scheduler := t.scheduler, device } := by
    refine ⟨hscheduler, ?_, .inr ⟨_, hsend⟩⟩
    subst hdevice
    rfl
  refine (updateInterrupts_ensures hevents ?_ ?_).mono ?_ fun _ _ h => h
  · subst hdevice
    exact { hregisters with }
  · subst hdevice
    exact fun _ => hrequires
  · rintro _ u ⟨-, hphase, hu, hevents', hregisters', hderived'⟩
    refine ⟨⟨{ hevents' with registers := hregisters', derived := hderived', armed := ?_ }, ?_, ?_⟩,
      hphase⟩
    all_goals
      rw [hu]
      subst hdevice
    · exact hrequires.symm
    · rfl
    · rfl

/-- The common end of most paths. -/
theorem finish_ensures (hs : Events s) (hregisters : Registers s.device)
    (hsending : s.device.transmitEvent.isSome = true → s.device.requiresEvent = true)
    (hfits : FrameFits s) : Ensures (updateInterrupts >>= fun _ => scheduleTransmit) s
      (fun _ t => Leaves t s.device.transmittedBytes s.device.transmitFifo ∧ t.phase = s.phase)
      (fun _ _ => False) := by
  refine .bind ((updateInterrupts_ensures hs hregisters hsending).mono ?_ fun _ _ h => h)
  rintro _ t ⟨hscheduler, hphase, hdevice, hevents, hregisters', hderived⟩
  have hfits' : FrameFits t := by
    refine ⟨?_, ?_⟩
    · rw [hscheduler]
      exact hfits.cycle
    · rw [hscheduler]
      exact hfits.eventId
  refine (scheduleTransmit_ensures hevents hregisters' hderived ?_ hfits').mono ?_ fun _ _ h => h
  · rw [hdevice]
    exact hsending
  · rintro _ u ⟨hleaves, hu⟩
    rw [hdevice] at hleaves
    exact ⟨hleaves, hu.trans hphase⟩

end KatanaRecomp.Runtime.Scif
