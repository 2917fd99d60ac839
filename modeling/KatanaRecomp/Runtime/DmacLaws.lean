import KatanaRecomp.Runtime.DmacHandoff
import KatanaRecomp.Runtime.DmacRuns

/-! # The plan of the DMA controller is exact

In a run that neither exhausts the scheduler's numbers nor ends a planned
transfer behind its event, the controller has an event, or awaits one, exactly
for an enabled channel with units to move, and its snapshot can be handed over. -/
namespace KatanaRecomp.Runtime.Dmac
open Lib ByteFormat Scheduler
variable {μ : Type}

/-- The controller's event is there exactly when its registers say so. -/
structure PlanExact (m : Machine μ) : Prop where
  planned : (m.device.event.isSome = true ∨ m.device.eventRehydrationPending = true) ↔
    m.device.scheduledChannel.isSome = true ∧ m.device.scheduledUnits > 0
  held : ∀ id, m.device.event = some id → ∃ key index, key.id = id ∧
    m.device.scheduledChannel = some index ∧ Holds m.scheduler key index
  enabled : ∀ index, m.device.scheduledChannel = some index → m.device.enabled index = true
  selected : m.device.selectChannel.isSome = true →
    m.device.event.isSome = true ∨ m.device.eventRehydrationPending = true

theorem pos_of_ne_zero {units : BitVec 64} (h : units ≠ 0) : units > 0 := by
  bv_omega

variable {m : Machine μ}

theorem Settled.planExact (hm : Settled m) : PlanExact m := by
  refine ⟨?_, ?_, hm.active, fun h => hm.selected (m.device.selectChannel_isSome_iff.mp h)⟩
  · rcases hm.plan with hidle | ⟨key, index, hplanned⟩ | ⟨index, hawaiting⟩
    · rw [hidle.event, hidle.pending, hidle.channel]
      simp
    · rw [hplanned.event, hplanned.channel]
      exact ⟨fun _ => ⟨rfl, pos_of_ne_zero hplanned.units⟩, fun _ => .inl rfl⟩
    · rw [hawaiting.pending, hawaiting.channel]
      exact ⟨fun _ => ⟨rfl, pos_of_ne_zero hawaiting.units⟩, fun _ => .inr rfl⟩
  · intro id hevent
    rcases hm.plan with hidle | ⟨key, index, hplanned⟩ | ⟨index, hawaiting⟩
    · rw [hidle.event] at hevent
      cases hevent
    · rw [hplanned.event] at hevent
      cases hevent
      exact ⟨key, index, rfl, hplanned.channel, hplanned.held⟩
    · rw [hawaiting.event] at hevent
      cases hevent

/-! ## Handoff -/

theorem Channel.Registers.not_bad {value : Channel} {index : Fin 4} (h : value.Registers index) :
    ¬ value.snapshot.Bad index := by
  unfold Sh4DmacChannelSnapshot.Bad
  have hbyte : ¬ value.externalDestinationProgression.byte > 1 := by
    cases value.externalDestinationProgression <;> decide
  have hcount : ¬ value.count > transferCountMask := BitVec.not_lt.mpr h.count
  have honDemand := h.onDemand
  unfold onDemandCapacity at honDemand
  rintro (hbad | hbad | hbad | hbad)
  · exact hcount hbad
  · exact hbad h.control
  · exact absurd honDemand (Nat.not_le.mpr hbad)
  · exact hbyte hbad

theorem Settled.validateEvent (hm : Settled m) : m.device.snapshot.validateEvent = .ok () := by
  have henabled : ∀ index, m.device.scheduledChannel = some index →
      m.device.snapshot.enabledState index = true := hm.active
  unfold Sh4DmacSnapshot.validateEvent Sh4DmacSnapshot.hasEvent
  have hchannel : m.device.snapshot.scheduledChannel = m.device.scheduledChannel.map Fin.val := rfl
  have hevent : m.device.snapshot.eventId = m.device.event := rfl
  have hpending : m.device.snapshot.eventRehydrationPending = m.device.eventRehydrationPending :=
    rfl
  have hunits : m.device.snapshot.scheduledUnits = m.device.scheduledUnits := rfl
  rw [hchannel, hevent, hpending, hunits]
  rcases hm.plan with hidle | ⟨key, index, hplanned⟩ | ⟨index, hawaiting⟩
  · rw [hidle.event, hidle.pending, hidle.channel, hidle.units]
    simp
  · rw [hplanned.event, hplanned.pending, hplanned.channel]
    have hindex := henabled index hplanned.channel
    simp [hindex]
    exact hplanned.units
  · rw [hawaiting.event, hawaiting.pending, hawaiting.channel]
    have hindex := henabled index hawaiting.channel
    simp [hindex]
    exact hawaiting.units

theorem Settled.validateStateRestore (hm : Settled m) :
    m.device.validateStateRestore m.device.snapshot = .ok () := by
  have hmode : ¬ m.device.executionMode.byte > 1 := by
    cases m.device.executionMode <;> decide
  have hcursor : (BitVec.ofNat 64 m.device.roundRobinCursor.val).toNat < 4 := by
    rw [BitVec.toNat_ofNat]
    omega
  unfold Sh4Dmac.validateStateRestore
  have htiming : ¬ m.device.snapshot.timing ≠ m.device.timing := not_not.mpr rfl
  rw [if_neg htiming, if_neg, if_neg, if_neg, hm.validateEvent]
  · change (if _ then _ else _) = _
    rw [if_neg, if_neg]
    · rfl
    · rintro ⟨channel, hmem, hge⟩
      obtain ⟨index, -, rfl⟩ := Option.map_eq_some_iff.mp hmem
      omega
    · rintro ⟨fault, hmem, hge⟩
      exact absurd (hm.registers.fault fault hmem) (by omega)
  · exact not_not.mpr hm.registers.operation
  · rintro ⟨index, hbad⟩
    exact (hm.registers.channels index).not_bad hbad
  · rintro (hbad | hbad)
    · exact hmode hbad
    · exact absurd hcursor (Nat.not_lt.mpr hbad)

theorem snapshot_roundTrip (dmac : Sh4Dmac) :
    decodeSh4DmacState (encodeSh4DmacState dmac.snapshot) = .ok dmac.snapshot.cleared := by
  refine decode_encode ?_ ?_
  · intro index hmem
    obtain ⟨channel, -, rfl⟩ := Option.map_eq_some_iff.mp hmem
    omega
  · intro index hmem
    obtain ⟨channel, -, rfl⟩ := Option.map_eq_some_iff.mp hmem
    omega

/-- In every state of a run that spares the plan. -/
theorem run_planExact (copy : MemoryPort μ) (budget : Option Nat) (memory : μ) (timing : DmaTiming)
    (mode : DmaExecutionMode) {m : Machine μ}
    (hcreate : Machine.create budget memory timing mode = .ok m) (actions : List (Action μ))
    (hspares : SparesRun copy m actions) :
    let t := run copy m actions
    PlanExact t ∧ t.device.validateStateRestore t.device.snapshot = .ok () ∧
      decodeSh4DmacState (encodeSh4DmacState t.device.snapshot) = .ok t.device.snapshot.cleared := by
  have hsettled := run_keeps copy (create_settled hcreate) hspares
  exact ⟨hsettled.planExact, hsettled.validateStateRestore, snapshot_roundTrip _⟩

/-- A memory that takes every copy. -/
def openMemory : MemoryPort Unit := fun _ memory => (true, memory)

/-- A new controller with the default timing. -/
def freshMachine : Machine Unit :=
  { scheduler := { guestCycleBudget := none }, device := {}, memory := () }

/-- An automatic byte transfer of channel 0, enabled. -/
def automaticControl : BitVec 32 := 0x00005411

/-- A channel is enabled, and then the controller. -/
theorem run_planExact_enabled :
    let actions := [Action.writeControl 0 automaticControl, .writeOperation masterEnable]
    Machine.create none () {} .singleUnitReference = .ok freshMachine ∧
      SparesRun openMemory freshMachine actions ∧
      PlanExact (run openMemory freshMachine actions) := by
  intro actions
  have hcreate : Machine.create none () {} .singleUnitReference = .ok freshMachine := rfl
  have hspares : SparesRun openMemory freshMachine actions := by
    refine ⟨⟨⟨⟨?_, ?_⟩, ?_⟩, ?_⟩, ⟨⟨⟨?_, ?_⟩, ?_⟩, ?_⟩, trivial⟩
    · decide
    · decide
    · intro a hphase
      cases hphase
    · intro i _ hpending
      cases hpending
    · decide
    · decide
    · intro a hphase
      cases hphase
    · intro hpending
      cases hpending
  exact ⟨hcreate, hspares, (run_planExact openMemory none () {} .singleUnitReference hcreate actions
    hspares).1⟩

/-! ## An end behind the event -/

/-- The first event of a scheduler. -/
theorem scheduleAfter_first (cycles : Nat) (hcycles : cycles ≤ Scheduler.uint64Max)
    (callback : DmacCallback) (kind : SchedulerEventKind) :
    ∃ scheduler, scheduleAfter ({} : EventScheduler DmacCallback) cycles (some callback) kind =
      .ok (1, scheduler) := by
  unfold scheduleAfter scheduleAt
  rw [if_neg (by simpa using hcycles)]
  dsimp only
  rw [if_neg (by omega), if_neg (by decide), if_neg (by simp), if_neg (by simp)]
  exact ⟨_, rfl⟩

theorem reevaluate_rests (hevent : m.device.event = none)
    (hselect : m.device.selectChannel = none) : reevaluate m = .ok () m := by
  simp only [reevaluate, scheduleNext, bind, EStateM.bind, get, getThe, MonadStateOf.get,
    EStateM.get, hevent, hselect, Option.isSome_none, Bool.false_eq_true, if_false, pure,
    EStateM.pure]

/-- What `reevaluate` does where every check of `schedule` passes. -/
theorem reevaluate_plans {m : Machine μ} {index : Fin 4} {size units unitDelay delay id : Nat}
    {scheduler : EventScheduler DmacCallback} (hevent : m.device.event = none)
    (hselect : m.device.selectChannel = some index)
    (hsize : (m.device.channels index).transferSize = size) (hne : size ≠ 0)
    (hunits : m.device.batchUnits (nextEventCycle m.scheduler) m.scheduler.currentCycle index size =
      units)
    (hunitDelay : checkedDelay m.device.timing.guestCyclesPerByte.toNat size = .ok unitDelay)
    (hdelay : checkedDelay unitDelay units = .ok delay)
    (hscheduled : scheduleAfter m.scheduler delay (some (.transfer index)) .sh4Dmac =
      .ok (id, scheduler)) : reevaluate m = .ok ()
      { m with
        scheduler
        device :=
          { m.device with
            scheduledUnits := BitVec.ofNat 64 units
            scheduledChannel := some index
            event := some id
            eventRehydrationPending := false } } := by
  simp only [reevaluate, scheduleNext, schedule, plan, onDevice, ofChecked, bind, EStateM.bind, get,
    getThe, MonadStateOf.get, EStateM.get, modify, modifyGet, MonadStateOf.modifyGet,
    EStateM.modifyGet, hevent, hselect, hsize, hne, hunits, hunitDelay, hdelay, hscheduled,
    Option.isSome_none, Bool.false_eq_true, if_false, pure, EStateM.pure]

theorem finishExternalTransfer_ends {m : Machine μ} (index : Fin 4)
    (h : m.device.canFinish index = true) : finishExternalTransfer index.val m =
      .ok true { m with device := m.device.updateChannel index Channel.ended } := by
  unfold finishExternalTransfer
  rw [dif_pos index.isLt]
  simp only [bind, EStateM.bind, get, getThe, MonadStateOf.get, EStateM.get, h, if_true, onDevice,
    modify, modifyGet, MonadStateOf.modifyGet, EStateM.modifyGet, pure, EStateM.pure]

/-- The channel is enabled. -/
def enabledDevice : Sh4Dmac :=
  { channels := Function.update (fun _ => {}) 0 { control := automaticControl } }

/-- The controller is enabled too: the event of one byte is planned. -/
def plannedDevice : Sh4Dmac :=
  { enabledDevice with
    operation := masterEnable
    event := some 1
    scheduledChannel := some 0
    scheduledUnits := 1 }

theorem run_enabled : ∃ scheduler, run openMemory freshMachine
      [Action.writeControl 0 automaticControl, .writeOperation masterEnable] =
    { scheduler, device := plannedDevice, memory := () } := by
  obtain ⟨scheduler, hscheduler⟩ := scheduleAfter_first 1 (by decide) (.transfer 0) .sh4Dmac
  refine ⟨scheduler, ?_⟩
  have hfirst : step openMemory freshMachine (.writeControl 0 automaticControl) =
      { freshMachine with device := enabledDevice } := by
    have hwritten : freshMachine.device.updateChannel 0
        (fun channel => channel.writeControl automaticControl) = enabledDevice := rfl
    change resultState (writeControl 0 automaticControl freshMachine) = _
    unfold writeControl writeChannel withChannel
    rw [dif_pos (by decide)]
    change resultState (reevaluate
      { freshMachine with
        device := freshMachine.device.updateChannel 0
          fun channel => channel.writeControl automaticControl }) = _
    rw [hwritten, reevaluate_rests rfl (by decide)]
    rfl
  have hsecond : step openMemory { freshMachine with device := enabledDevice }
      (.writeOperation masterEnable) = { scheduler, device := plannedDevice, memory := () } := by
    change resultState (reevaluate
      { freshMachine with device := enabledDevice.writeOperation masterEnable }) = _
    rw [@reevaluate_plans Unit _ 0 1 1 1 1 1 scheduler rfl (by decide) (by decide) (by decide)
      (by decide) (by decide) (by decide) hscheduler]
    rfl
  rw [← hsecond, ← hfirst]
  rfl

/-- The channel has nothing left to move by its count, so the end of an external transfer is
accepted: the end flag is set and the event stays. -/
theorem finish_leaves_event :
    let m := run openMemory freshMachine
      [Action.writeControl 0 automaticControl, .writeOperation masterEnable,
        .finishExternalTransfer 0]
    m.device.event = some 1 ∧ m.device.scheduledChannel = some 0 ∧ ¬ PlanExact m ∧
      m.device.validateStateRestore m.device.snapshot = .error .inactiveChannel := by
  obtain ⟨scheduler, hrun⟩ := run_enabled
  have hsplit : run openMemory freshMachine
      [Action.writeControl 0 automaticControl, .writeOperation masterEnable,
        .finishExternalTransfer 0] =
      step openMemory { scheduler, device := plannedDevice, memory := () }
        (.finishExternalTransfer 0) := by
    rw [← hrun]
    rfl
  have hfinished : step openMemory { scheduler, device := plannedDevice, memory := () }
      (.finishExternalTransfer 0) =
      { scheduler, device := plannedDevice.updateChannel 0 Channel.ended, memory := () } := by
    have hcan : plannedDevice.canFinish 0 = true := by decide
    have hends := @finishExternalTransfer_ends Unit
      { scheduler, device := plannedDevice, memory := () } 0 hcan
    change resultState ((finishExternalTransfer 0 >>= fun _ => pure () : DmacM Unit Unit) _) = _
    simp only [bind, EStateM.bind]
    rw [show finishExternalTransfer 0 { scheduler, device := plannedDevice, memory := () } = _
      from hends]
    rfl
  intro m
  have hm : m = { scheduler, device := plannedDevice.updateChannel 0 Channel.ended, memory := () } :=
    hsplit.trans hfinished
  have hrejected : (plannedDevice.updateChannel 0 Channel.ended).validateStateRestore
      (plannedDevice.updateChannel 0 Channel.ended).snapshot = .error .inactiveChannel := by decide
  have hdisabled : (plannedDevice.updateChannel 0 Channel.ended).enabled 0 = false := by decide
  rw [hm]
  refine ⟨rfl, rfl, ?_, hrejected⟩
  intro hexact
  have henabled : (plannedDevice.updateChannel 0 Channel.ended).enabled 0 = true :=
    hexact.enabled 0 rfl
  rw [hdisabled] at henabled
  cases henabled

end KatanaRecomp.Runtime.Dmac
