import KatanaRecomp.Runtime.DmacInvariant

/-! # The calls of the DMA controller

Each call leaves a settled machine, whether it returns or throws, as long as the
scheduler's numbers have room for one more event. -/
namespace KatanaRecomp.Runtime.Dmac
open Lib ByteFormat Scheduler
variable {μ : Type}

/-! ## Endings -/

/-- What a call that takes the event away leaves. -/
structure Cleared (m t : Machine μ) : Prop where
  scheduler : SchedulerOk t.scheduler t.phase
  idle : Idle t
  device : t.device = m.device.withoutEvent
  phase : t.phase = m.phase
  cycle : t.scheduler.currentCycle = m.scheduler.currentCycle
  eventId : t.scheduler.nextEventId = m.scheduler.nextEventId

variable {m t : Machine μ} {fail : DmacError → Machine μ → Prop}

theorem cancelEvent_ensures (hm : Events m) :
    Ensures cancelEvent m (fun _ t => Cleared m t) fail := by
  refine .update ?_
  have hquiet : NoEvent m.scheduler → Cleared m { m with device := m.device.withoutEvent } :=
    fun hnone => ⟨hm.scheduler, ⟨rfl, rfl, rfl, rfl, hnone⟩, rfl, rfl, rfl, rfl⟩
  rcases hm.plan with hidle | ⟨key, index, hplanned⟩ | ⟨index, hawaiting⟩
  · rw [hidle.event]
    exact hquiet hidle.none
  · rw [hplanned.event]
    have hkey := hm.scheduler.consistent.indexed key hplanned.held.mem
    have hcancel : cancel m.scheduler key.id = (true, (cancel m.scheduler key.id).2) := by
      unfold cancel
      rw [hkey]
    obtain ⟨_, -, hremoved, hcycle⟩ := cancel_spec hm.scheduler.consistent hcancel
    refine ⟨(hm.scheduler.cancelled key.id).1, ⟨rfl, rfl, rfl, rfl, ?_⟩, rfl, rfl, hcycle,
      hremoved.nextEventId⟩
    intro key' index' hheld'
    obtain ⟨hne, hheld'⟩ := (holds_erased (cancel_getElem? hkey) key' index').mp hheld'
    exact hne (hplanned.only key' index' hheld')
  · rw [hawaiting.event]
    exact hquiet hawaiting.none

/-- A machine without a plan and without an enabled channel. -/
theorem settled_of_disabled (hscheduler : SchedulerOk m.scheduler m.phase)
    (hregisters : m.device.Registers) (hidle : Idle m)
    (hdisabled : ∀ index, m.device.enabled index = false) : Settled m := by
  refine ⟨⟨hscheduler, hregisters, .inl hidle⟩, ?_, ?_⟩
  · intro index hchannel
    rw [hidle.channel] at hchannel
    cases hchannel
  · rintro ⟨index, heligible⟩
    unfold Sh4Dmac.eligible at heligible
    rw [hdisabled index] at heligible
    cases heligible

variable {dmac : Sh4Dmac}

theorem Sh4Dmac.enabled_of_operation_eq_zero (h : dmac.operation = 0)
    (index : Fin 4) : dmac.enabled index = false := by
  unfold Sh4Dmac.enabled
  rw [h]
  simp

/-- A flag is raised, the plan dropped and the requests thrown away. -/
theorem flagged_ensures (hm : Events m) {f : Sh4Dmac → Sh4Dmac} {flag : BitVec 32}
    (hflag : flag = addressErrorFlag ∨ flag = nmiFlag) (hsame : SamePlan m.device (f m.device))
    (hregisters : (f m.device).Registers)
    (hset : (f m.device).operation = m.device.operation ||| flag)
    :
    Ensures (onDevice f >>= fun _ => cancelEvent >>= fun _ =>
        onDevice Sh4Dmac.discardExternalRequests) m
      (fun _ t => Settled t ∧ t.phase = m.phase) fail := by
  refine .bind (onDevice_ensures (.bind ?_))
  refine (cancelEvent_ensures (hm.setDevice hsame hregisters)).mono ?_ fun _ _ h => h
  rintro _ t ht
  refine onDevice_ensures ⟨?_, ht.phase⟩
  have hdevice : t.device = (f m.device).withoutEvent := ht.device
  have hkept : t.device.Registers := by
    rw [hdevice]
    exact ⟨hregisters.channels, hregisters.operation, hregisters.fault⟩
  refine settled_of_disabled ht.scheduler hkept.discardExternalRequests
    ⟨ht.idle.event, ht.idle.pending, ht.idle.channel, ht.idle.units, ht.idle.none⟩ ?_
  intro index
  refine Sh4Dmac.enabled_eq_false hflag ?_ index
  change t.device.operation &&& flag ≠ 0
  have hoperation : t.device.operation = m.device.operation ||| flag := by
    rw [hdevice]
    exact hset
  rw [hoperation]
  have habsorbed : (m.device.operation ||| flag) &&& flag = flag := by
    ext i hi
    simp only [BitVec.getElem_and, BitVec.getElem_or]
    cases m.device.operation[i] <;> simp
  rw [habsorbed]
  rcases hflag with rfl | rfl <;> decide

theorem setFault_ensures (hm : Events m) (index : Fin 4) (reason : DmaFaultReason)
    (size : BitVec 64) :
    Ensures (setFault index reason size) m (fun _ t => Settled t ∧ t.phase = m.phase) fail := by
  refine flagged_ensures hm (.inl rfl) ⟨rfl, rfl, rfl, rfl⟩ ⟨hm.registers.channels, ?_, ?_⟩ rfl
  · exact or_within hm.registers.operation (by decide)
  · intro fault hfault
    cases hfault
    change (BitVec.ofNat 64 index.val).toNat < 4
    rw [BitVec.toNat_ofNat]
    omega

/-- The longest delay of an event: the largest unit times the largest batch. -/
def maxDelay (timing : DmaTiming) : Nat := timing.guestCyclesPerByte.toNat * 32 *
    max 1 (min (transferCountMask.toNat + 1) timing.maximumBatchUnits.toNat)

/-- The longest delay ends before the last cycle, and there is an event id left. -/
structure Room (m : Machine μ) : Prop where
  cycle : m.scheduler.currentCycle + maxDelay m.device.timing ≤ Scheduler.uint64Max
  eventId : m.scheduler.nextEventId < Scheduler.uint64Max

theorem Channel.transferSize_le (value : Channel) : value.transferSize ≤ 32 := by
  unfold Channel.transferSize
  split <;> omega

variable {index : Fin 4}

theorem Sh4Dmac.batchUnits_bounds
    (hcount : (dmac.channels index).count ≤ transferCountMask) (nextEventCycle : Option Nat)
    (currentCycle size : Nat) : 1 ≤ dmac.batchUnits nextEventCycle currentCycle index size ∧
      dmac.batchUnits nextEventCycle currentCycle index size ≤
        max 1 (min (transferCountMask.toNat + 1) dmac.timing.maximumBatchUnits.toNat) := by
  have hremaining : (if (dmac.channels index).count = 0 then transferCountMask.toNat + 1
      else (dmac.channels index).count.toNat) ≤ transferCountMask.toNat + 1 := by
    have := BitVec.le_def.mp hcount
    split <;> omega
  unfold Sh4Dmac.batchUnits
  dsimp only
  generalize (if (dmac.channels index).count = 0 then transferCountMask.toNat + 1
      else (dmac.channels index).count.toNat) = remaining at hremaining
  generalize transferCountMask.toNat + 1 = most at hremaining
  split
  · omega
  split
  · omega
  cases nextEventCycle with
  | none => dsimp only; omega
  | some foreignCycle =>
    dsimp only
    split
    · generalize (foreignCycle - currentCycle - 1) /
        (dmac.timing.guestCyclesPerByte.toNat * size) = before
      split <;> omega
    · omega

theorem checkedDelay_eq_ok {cycles bytes : Nat} (hbytes : 0 < bytes)
    (hfits : cycles * bytes ≤ Scheduler.uint64Max) :
    checkedDelay cycles bytes = .ok (cycles * bytes) := by
  have hle : cycles ≤ Scheduler.uint64Max / bytes := (Nat.le_div_iff_mul_le hbytes).mpr hfits
  unfold checkedDelay
  rw [if_neg (by omega)]

/-- The event of a planned channel is put on the scheduler. -/
theorem plan_ensures (hm : SchedulerOk m.scheduler m.phase) (hnone : NoEvent m.scheduler)
    (hid : m.scheduler.nextEventId < Scheduler.uint64Max) (index : Fin 4) (cycle : Nat)
    (hcycle : m.scheduler.currentCycle ≤ cycle) (hbound : cycle ≤ Scheduler.uint64Max)
    {call : EventScheduler DmacCallback → Except SchedulerError (Nat × EventScheduler DmacCallback)}
    (hcall : call m.scheduler = scheduleAt m.scheduler cycle (some (.transfer index)) .sh4Dmac)
    {post : Nat → Machine μ → Prop}
    (hpost : ∀ id scheduler, SchedulerOk scheduler m.phase → Holds scheduler ⟨cycle, id⟩ index →
      (∀ key index', Holds scheduler key index' → key = ⟨cycle, id⟩) →
        post id { m with scheduler }) : Ensures (plan call) m post fail := by
  unfold Ensures plan
  rw [hcall]
  cases hschedule : scheduleAt m.scheduler cycle (some (.transfer index)) .sh4Dmac with
  | error e =>
    have herror := hm.scheduleAt_error hcycle hschedule
    subst herror
    unfold scheduleAt at hschedule
    dsimp only at hschedule
    rw [if_neg (by omega), if_neg (by omega)] at hschedule
    split at hschedule
    · cases hschedule
    split at hschedule
    · cases hschedule
    · cases hschedule
  | ok result =>
    obtain ⟨id, scheduler⟩ := result
    have hevents := holds_scheduled hschedule
    refine hpost id scheduler (hm.scheduled (scheduleAt_spec hschedule) hbound) ?_ ?_
    · exact (hevents _ index).mpr (.inl ⟨rfl, rfl⟩)
    · intro key index' hheld
      rcases (hevents key index').mp hheld with ⟨heq, -⟩ | ⟨-, hheld⟩
      · exact heq
      · exact absurd hheld (hnone key index')

theorem schedule_ensures (hm : Events m) (hevent : m.device.event = none)
    (hroom : Room m) (henabled : m.device.enabled index = true) :
    Ensures (schedule index) m (fun _ t => Settled t ∧ t.phase = m.phase)
      (fun _ _ => False) := by
  have hnone : NoEvent m.scheduler := by
    rcases hm.plan with hidle | ⟨key, planned, hplanned⟩ | ⟨planned, hawaiting⟩
    · exact hidle.none
    · rw [hplanned.event] at hevent
      cases hevent
    · exact hawaiting.none
  unfold schedule
  refine .bind (.get (.ite (fun _ => setFault_ensures hm index _ _) fun hsize => ?_))
  have hsmall := (m.device.channels index).transferSize_le
  generalize (m.device.channels index).transferSize = size at hsize hsmall
  obtain ⟨hpositive, hunits⟩ := Sh4Dmac.batchUnits_bounds (hm.registers.channels index).count
    (nextEventCycle m.scheduler) m.scheduler.currentCycle size
  generalize m.device.batchUnits (nextEventCycle m.scheduler) m.scheduler.currentCycle index size =
    units at hpositive hunits
  have hroomCycle := hroom.cycle
  unfold maxDelay at hroomCycle
  generalize m.device.timing.guestCyclesPerByte.toNat = cycles at hroomCycle
  -- Both factors are bounded by those of the longest delay.
  have hdelay : cycles * size * units ≤ cycles * 32 *
      max 1 (min (transferCountMask.toNat + 1) m.device.timing.maximumBatchUnits.toNat) :=
    Nat.mul_le_mul (Nat.mul_le_mul le_rfl hsmall) hunits
  have hunitDelay : cycles * size ≤ cycles * size * units := Nat.le_mul_of_pos_right _ hpositive
  have hmost : max 1 (min (transferCountMask.toNat + 1) m.device.timing.maximumBatchUnits.toNat) ≤
      2 ^ 24 := by
    have : transferCountMask.toNat + 1 = 2 ^ 24 := by decide
    omega
  rw [checkedDelay_eq_ok (by omega) (by omega)]
  refine .bind (onDevice_ensures (.bind (.ofChecked ?_ ?_)))
  swap
  · intro e he
    cases he
  intro unitDelay hunitDelay'
  cases hunitDelay'
  rw [checkedDelay_eq_ok (by omega) (by omega)]
  refine .bind (.ofChecked ?_ ?_)
  swap
  · intro e he
    cases he
  intro delay hdelay'
  cases hdelay'
  refine .bind ?_
  refine plan_ensures ?_ ?_ ?_ index (m.scheduler.currentCycle + cycles * size * units)
    ?_ (by omega) ?_ ?_
  · exact hm.scheduler
  · exact hnone
  · exact hroom.eventId
  · exact Nat.le_add_right _ _
  · unfold scheduleAfter
    rw [if_neg (by dsimp only; omega)]
  intro id scheduler hscheduler hheld honly
  refine onDevice_ensures ⟨⟨⟨hscheduler, ?_, .inr (.inl ⟨_, index, rfl, rfl, rfl, ?_, hheld,
    honly⟩)⟩, ?_, fun _ => .inl rfl⟩, rfl⟩
  · exact ⟨hm.registers.channels, hm.registers.operation, hm.registers.fault⟩
  · change BitVec.ofNat 64 units ≠ 0
    intro hzero
    have := congrArg BitVec.toNat hzero
    rw [BitVec.toNat_ofNat, Nat.mod_eq_of_lt (by omega)] at this
    simp at this
    omega
  · intro index' hindex'
    cases hindex'
    exact henabled

theorem Cleared.registers (h : Cleared m t) (hm : m.device.Registers) : t.device.Registers := by
  rw [h.device]
  exact ⟨hm.channels, hm.operation, hm.fault⟩

theorem Cleared.room (h : Cleared m t) (hroom : Room m) : Room t := by
  refine ⟨?_, ?_⟩
  · rw [h.cycle, h.device]
    exact hroom.cycle
  · rw [h.eventId]
    exact hroom.eventId

/-- With no event there is a plan to make, or one that is awaited. -/
theorem scheduleNext_ensures (hm : Events m) (hevent : m.device.event = none)
    (hroom : Room m) (hpending : ∀ index, m.device.scheduledChannel = some index →
      m.device.enabled index = true ∨ m.device.selectChannel.isSome = true) :
    Ensures scheduleNext m (fun _ t => Settled t ∧ t.phase = m.phase) (fun _ _ => False) := by
  unfold scheduleNext
  refine .bind (.get ?_)
  cases hselect : m.device.selectChannel with
  | some next =>
    exact schedule_ensures hm hevent hroom (Sh4Dmac.enabled_of_selectChannel hselect)
  | none =>
    refine .pure ⟨⟨hm, ?_, ?_⟩, rfl⟩
    · intro index hchannel
      rcases hpending index hchannel with henabled | hsome
      · exact henabled
      · rw [hselect] at hsome
        cases hsome
    · intro heligible
      rw [← Sh4Dmac.selectChannel_isSome_iff, hselect] at heligible
      cases heligible

theorem reevaluate_ensures (hm : Events m) (hroom : Room m)
    (hpending : m.device.eventRehydrationPending = true →
      ∀ index, m.device.scheduledChannel = some index →
        m.device.enabled index = true ∨ m.device.selectChannel.isSome = true) :
    Ensures reevaluate m (fun _ t => Settled t ∧ t.phase = m.phase) (fun _ _ => False) := by
  unfold reevaluate
  refine .bind (.get (.ite ?_ ?_))
  · intro hsome
    refine .ite ?_ ?_
    · intro hany
      refine .pure ⟨⟨hm, ?_, fun _ => .inl hsome⟩, rfl⟩
      intro index hchannel
      rw [hchannel] at hany
      exact hany
    · intro _
      refine .bind ((cancelEvent_ensures hm).mono ?_ fun _ _ h => h)
      rintro _ t ht
      refine (scheduleNext_ensures ⟨ht.scheduler, ht.registers hm.registers, .inl ht.idle⟩
        ht.idle.event (ht.room hroom) ?_).mono (fun _ u hu => ⟨hu.1, hu.2.trans ht.phase⟩) fun _ _ h => h
      intro index hchannel
      rw [ht.idle.channel] at hchannel
      cases hchannel
  · intro hnone
    have hevent : m.device.event = none := by simpa using hnone
    refine scheduleNext_ensures hm hevent hroom ?_
    intro index hchannel
    rcases hm.plan with hidle | ⟨key, planned, hplanned⟩ | ⟨planned, hawaiting⟩
    · rw [hidle.channel] at hchannel
      cases hchannel
    · rw [hplanned.event] at hevent
      cases hevent
    · exact hpending hawaiting.pending index hchannel

/-! ## Register writes -/

variable {f : Channel → Channel}

theorem Sh4Dmac.enabled_updateChannel
    (hcontrol : (f (dmac.channels index)).control = (dmac.channels index).control)
    (other : Fin 4) : (dmac.updateChannel index f).enabled other = dmac.enabled other := by
  have hsame : ((dmac.updateChannel index f).channels other).control =
      (dmac.channels other).control := by
    change (Function.update dmac.channels index _ other).control = _
    rcases eq_or_ne other index with rfl | hne
    · rw [Function.update_self, hcontrol]
    · rw [Function.update_of_ne hne]
  unfold Sh4Dmac.enabled
  rw [hsame]
  rfl

section
variable (hm : Settled m)
include hm

/-- Registers that decide nothing about the plan are changed, and the plan is looked at again. -/
theorem changed_ensures (hroom : Room m) {d : Sh4Dmac}
    (hsame : SamePlan m.device d) (hregisters : d.Registers) (htiming : d.timing = m.device.timing)
    (hpending : m.device.eventRehydrationPending = true →
      ∀ index, m.device.scheduledChannel = some index →
        d.enabled index = true ∨ d.selectChannel.isSome = true) :
    Ensures reevaluate { m with device := d } (fun _ t => Settled t) (fun _ t => Settled t) := by
  have hroom' : Room { m with device := d } := by
    refine ⟨?_, hroom.eventId⟩
    change m.scheduler.currentCycle + maxDelay d.timing ≤ _
    rw [htiming]
    exact hroom.cycle
  refine (reevaluate_ensures (hm.toEvents.setDevice hsame hregisters) hroom' ?_).mono
    (fun _ _ h => h.1) fun _ _ h => h.elim
  intro hp index hchannel
  exact hpending (hsame.pending ▸ hp) index (hsame.channel ▸ hchannel)

theorem withChannel_ensures {α : Type} (index : Nat)
    {call : Fin 4 → DmacM μ α} (hcall : ∀ i : Fin 4, i.val = index →
      Ensures (call i) m (fun _ t => Settled t) (fun _ t => Settled t)) :
    Ensures (withChannel index call) m (fun _ t => Settled t) (fun _ t => Settled t) := by
  unfold withChannel
  split
  · exact hcall _ rfl
  · exact .throw hm

theorem writeChannel_ensures (hroom : Room m) (index : Nat)
    (hf : ∀ i value, Channel.Registers value i → (f value).Registers i)
    (hpending : ∀ i : Fin 4, i.val = index → m.device.eventRehydrationPending = true →
      ∀ planned, m.device.scheduledChannel = some planned →
        (m.device.updateChannel i f).enabled planned = true ∨
          (m.device.updateChannel i f).selectChannel.isSome = true) :
    Ensures (writeChannel index f) m (fun _ t => Settled t) (fun _ t => Settled t) := by
  refine withChannel_ensures hm index fun i hi => .bind (onDevice_ensures ?_)
  exact changed_ensures hm hroom ⟨rfl, rfl, rfl, rfl⟩ (hm.registers.update i (hf i _)) rfl
    (hpending i hi)

/-- A write that leaves the control register alone. -/
theorem writeChannel_quiet (hroom : Room m) (index : Nat)
    (hf : ∀ i value, Channel.Registers value i → (f value).Registers i)
    (hcontrol : ∀ value, (f value).control = value.control) :
    Ensures (writeChannel index f) m (fun _ t => Settled t) (fun _ t => Settled t) := by
  refine writeChannel_ensures hm hroom index hf ?_
  intro i _ _ planned hplanned
  rw [Sh4Dmac.enabled_updateChannel (hcontrol _)]
  exact .inl (hm.active planned hplanned)

end

/-- A write does not take the channel away that waits for its event, unless another one takes
its place. -/
def KeepsAwaited (before after : Sh4Dmac) : Prop :=
  before.eventRehydrationPending = true → ∀ planned, before.scheduledChannel = some planned →
    after.enabled planned = true ∨ after.selectChannel.isSome = true

theorem writeOperation_samePlan (dmac : Sh4Dmac) (value : BitVec 32) :
    SamePlan dmac (dmac.writeOperation value) ∧
      (dmac.writeOperation value).timing = dmac.timing := by
  unfold Sh4Dmac.writeOperation
  dsimp only
  split <;> split <;> exact ⟨⟨rfl, rfl, rfl, rfl⟩, rfl⟩

section
variable (hm : Settled m)
include hm

section
variable (hroom : Room m)
include hroom

theorem writeOperation_ensures
    (value : BitVec 32) (hkeeps : KeepsAwaited m.device (m.device.writeOperation value)) :
    Ensures (writeOperation value) m (fun _ t => Settled t) (fun _ t => Settled t) := by
  obtain ⟨hsame, htiming⟩ := writeOperation_samePlan m.device value
  refine .bind (onDevice_ensures ?_)
  exact changed_ensures hm hroom hsame (hm.registers.writeOperation value) htiming hkeeps

/-! ## Requests -/

theorem requestTransfer_ensures (index : Nat)
    (requests : BitVec 32) (progression : DmaExternalDestinationProgression) :
    Ensures (requestTransfer index requests progression) m (fun _ t => Settled t)
      (fun _ t => Settled t) := by
  refine withChannel_ensures hm index fun i _ => .bind (.get ?_)
  refine .ite (fun _ => .throw hm) fun _ => .ite (fun _ => .throw hm) fun _ =>
    .ite (fun _ => .throw hm) fun _ => .ite (fun _ => .throw hm) fun _ => ?_
  refine .bind (onDevice_ensures ?_)
  refine changed_ensures hm hroom ⟨rfl, rfl, rfl, rfl⟩
    (hm.registers.update i fun h => ⟨h.count, h.control, h.onDemand⟩) rfl ?_
  intro _ planned hplanned
  rw [Sh4Dmac.enabled_updateChannel rfl]
  exact .inl (hm.active planned hplanned)

theorem requestOnDemandTransfer_ensures (index : Nat) :
    Ensures (requestOnDemandTransfer index) m (fun _ t => Settled t) (fun _ t => Settled t) := by
  refine withChannel_ensures hm index fun i _ => .bind (.get (.ite ?_ fun _ => .pure hm))
  intro haccepts
  have hroomLeft : (m.device.channels i).pendingOnDemandRequests.toNat < onDemandCapacity i := by
    unfold Sh4Dmac.acceptsOnDemand at haccepts
    simp only [Bool.and_eq_true, decide_eq_true_eq] at haccepts
    exact haccepts.1.2
  have hcapacity : onDemandCapacity i ≤ 4 := by
    unfold onDemandCapacity onDemandQueueDepth
    split <;> omega
  have hregisters := hm.registers.update i (f := fun value =>
      { value with pendingOnDemandRequests := value.pendingOnDemandRequests + 1 }) fun h =>
    ⟨h.count, h.control, by dsimp only; bv_omega⟩
  refine .bind (onDevice_ensures (.bind ?_))
  refine @Ensures.mono _ _ _ _ (fun _ t => Settled t) _ _ _ _ (changed_ensures hm hroom
    ⟨rfl, rfl, rfl, rfl⟩ ⟨hregisters.channels, hregisters.operation, hregisters.fault⟩ rfl ?_)
    (fun _ _ h => .pure h) fun _ _ h => h
  intro _ planned hplanned
  have hsame : (m.device.updateChannel i fun value =>
      { value with pendingOnDemandRequests := value.pendingOnDemandRequests + 1 }).enabled planned =
        m.device.enabled planned := Sh4Dmac.enabled_updateChannel rfl planned
  exact .inl (hsame.trans (hm.active planned hplanned))

theorem repeatOnDemandTransfer_ensures :
    Ensures repeatOnDemandTransfer m (fun _ t => Settled t) (fun _ t => Settled t) := by
  unfold repeatOnDemandTransfer
  refine .bind (.get ?_)
  cases m.device.lastOnDemandChannel with
  | none => exact .pure hm
  | some index => exact requestOnDemandTransfer_ensures hm hroom index

end

/-! ## Transfers of other devices -/

theorem mismatch_refuses (index : Fin 4) (unitSize : BitVec 64) :
    Ensures (mismatch index unitSize) m (fun moved t => moved = false ∧ Settled t)
      (fun _ t => Settled t) :=
  .bind ((setFault_ensures hm.toEvents index _ unitSize).mono (fun _ _ h => .pure ⟨rfl, h.1⟩)
    fun _ _ h => h)

theorem mismatch_ensures (index : Fin 4) (unitSize : BitVec 64) :
    Ensures (mismatch index unitSize) m (fun _ t => Settled t) (fun _ t => Settled t) :=
  (mismatch_refuses hm index unitSize).mono (fun _ _ h => h.2) fun _ _ h => h

theorem validateExternalTransfer_ensures (index : Nat)
    (source : BitVec 32) (bytes unitSize : BitVec 64) (expected : Byte) :
    Ensures (validateExternalTransfer index source bytes unitSize expected) m
      (fun _ t => Settled t) (fun _ t => Settled t) := by
  unfold validateExternalTransfer
  split
  · refine .bind (.get (.ite (fun _ => mismatch_ensures hm _ _) fun _ =>
      .ite (fun _ => mismatch_ensures hm _ _) fun _ => .pure hm))
  · exact .pure hm

/-- Registers are changed and the plan is not looked at again. -/
theorem Settled.setDevice {d : Sh4Dmac} (hsame : SamePlan m.device d) (hregisters : d.Registers)
    (henabled : ∀ index, m.device.scheduledChannel = some index → d.enabled index = true)
    (heligible : ∀ index, d.eligible index = true → m.device.eligible index = true) :
    Settled { m with device := d } := by
  refine ⟨hm.toEvents.setDevice hsame hregisters, ?_, ?_⟩
  · intro index hchannel
    exact henabled index (hsame.channel ▸ hchannel)
  · rintro ⟨index, h⟩
    have hplan := hm.selected ⟨index, heligible index h⟩
    rw [← hsame.event, ← hsame.pending] at hplan
    exact hplan

theorem Settled.progressed {bytes : Nat} (hcan : m.device.canProgress index bytes = true) :
    Settled { m with device := m.device.updateChannel index fun value => value.progressed bytes } := by
  unfold Sh4Dmac.canProgress at hcan
  simp only [Bool.and_eq_true, decide_eq_true_eq] at hcan
  refine hm.setDevice ⟨rfl, rfl, rfl, rfl⟩ (hm.registers.update index fun h => h.progressed hcan.2)
    ?_ ?_
  · intro planned hplanned
    rw [Sh4Dmac.enabled_updateChannel rfl]
    exact hm.active planned hplanned
  · intro other heligible
    unfold Sh4Dmac.eligible at heligible ⊢
    rw [Sh4Dmac.enabled_updateChannel rfl] at heligible
    rcases eq_or_ne other index with rfl | hne
    · unfold Sh4Dmac.updateChannel at heligible
      dsimp only at heligible
      rw [Function.update_self] at heligible
      exact heligible
    · unfold Sh4Dmac.updateChannel at heligible
      dsimp only at heligible
      rw [Function.update_of_ne hne] at heligible
      exact heligible

theorem progressExternalTransfer_ensures (index : Nat)
    (bytes : BitVec 64) : Ensures (progressExternalTransfer index bytes) m (fun _ t => Settled t)
      (fun _ t => Settled t) := by
  unfold progressExternalTransfer
  split
  · refine .bind (.get (.ite ?_ fun _ => mismatch_ensures hm _ _))
    intro hcan
    exact .bind (onDevice_ensures (.pure (hm.progressed hcan)))
  · exact .pure hm

end

theorem Sh4Dmac.enabled_ended (dmac : Sh4Dmac) {other : Fin 4} (hne : other ≠ index) :
    (dmac.updateChannel index Channel.ended).enabled other = dmac.enabled other := by
  unfold Sh4Dmac.enabled Sh4Dmac.updateChannel
  dsimp only
  rw [Function.update_of_ne hne]

theorem Sh4Dmac.enabled_ended_self (dmac : Sh4Dmac) (index : Fin 4) :
    (dmac.updateChannel index Channel.ended).enabled index = false := by
  have hset : ((dmac.channels index).control ||| transferEnd) &&& transferEnd ≠ 0 := by
    intro hzero
    have hbit := congrArg (fun x => x.getLsbD 1) hzero
    simp [transferEnd] at hbit
  unfold Sh4Dmac.enabled Sh4Dmac.updateChannel
  dsimp only
  rw [Function.update_self]
  change (_ && _ && _ && ((dmac.channels index).control ||| transferEnd) &&& transferEnd == 0) = false
  rw [beq_eq_false_iff_ne.mpr hset, Bool.and_false]

/-- The end flag is set on a channel that is not the planned one. -/
theorem Settled.finished (hm : Settled m) (hother : m.device.scheduledChannel ≠ some index) :
    Settled { m with device := m.device.updateChannel index Channel.ended } := by
  refine hm.setDevice ⟨rfl, rfl, rfl, rfl⟩ (hm.registers.update index fun h => h.ended) ?_ ?_
  · intro planned hplanned
    have hne : planned ≠ index := by
      rintro rfl
      exact hother hplanned
    rw [m.device.enabled_ended hne]
    exact hm.active planned hplanned
  · intro other heligible
    rcases eq_or_ne other index with rfl | hne
    · unfold Sh4Dmac.eligible at heligible
      rw [m.device.enabled_ended_self] at heligible
      cases heligible
    · unfold Sh4Dmac.eligible at heligible ⊢
      rw [m.device.enabled_ended hne] at heligible
      unfold Sh4Dmac.updateChannel at heligible
      dsimp only at heligible
      rw [Function.update_of_ne hne] at heligible
      exact heligible

/-- The call does not end the transfer of the channel whose event is planned. -/
def Sh4Dmac.SparesFinish (dmac : Sh4Dmac) (index : Nat) : Prop :=
  ∀ planned : Fin 4, planned.val = index → dmac.scheduledChannel = some planned →
    dmac.canFinish planned = false

theorem finishExternalTransfer_ensures (hm : Settled m) (index : Nat)
    (hspares : m.device.SparesFinish index) :
    Ensures (finishExternalTransfer index) m (fun _ t => Settled t) (fun _ t => Settled t) := by
  unfold finishExternalTransfer
  split
  · rename_i hindex
    refine .bind (.get (.ite ?_ fun _ => mismatch_ensures hm _ _))
    intro hcan
    refine .bind (onDevice_ensures (.pure (hm.finished ?_)))
    intro hplanned
    rw [hspares ⟨index, hindex⟩ rfl hplanned] at hcan
    cases hcan
  · exact .pure hm

/-- The same of a call that moves what is left first. -/
def Sh4Dmac.SparesComplete (dmac : Sh4Dmac) (index : Nat) (bytes : BitVec 64) : Prop :=
  ∀ planned : Fin 4, planned.val = index → dmac.scheduledChannel = some planned →
    (dmac.isRemainder planned bytes.toNat && dmac.canProgress planned bytes.toNat) = false

section
variable (hm : Settled m)
include hm

theorem completeExternalTransfer_ensures (index : Nat)
    (bytes : BitVec 64) (hspares : m.device.SparesComplete index bytes) :
    Ensures (completeExternalTransfer index bytes) m (fun _ t => Settled t)
      (fun _ t => Settled t) := by
  unfold completeExternalTransfer
  split
  swap
  · exact .pure hm
  rename_i hindex
  refine .bind (.get (.ite ?_ fun _ => (setFault_ensures hm.toEvents _ _ _).mono
    (fun _ _ h => h.1) fun _ _ h => h))
  intro hremainder
  refine .bind ?_
  unfold progressExternalTransfer
  rw [dif_pos hindex]
  refine .bind (.get (.ite ?_ ?_))
  · intro hcan
    have hother : m.device.scheduledChannel ≠ some ⟨index, hindex⟩ := by
      intro hplanned
      have := hspares ⟨index, hindex⟩ rfl hplanned
      rw [hremainder, hcan] at this
      cases this
    refine .bind (onDevice_ensures (.pure ?_))
    refine .ite (fun _ => ?_) fun h => absurd rfl h
    refine .bind ((finishExternalTransfer_ensures (hm.progressed hcan) index ?_).mono
      (fun _ _ h => .pure h) fun _ _ h => h)
    intro planned hval hplanned
    have heq : planned = ⟨index, hindex⟩ := Fin.ext hval
    subst heq
    exact absurd hplanned hother
  · intro _
    refine (mismatch_refuses hm _ _).mono ?_ fun _ _ h => h
    rintro moved t ⟨rfl, ht⟩
    exact .ite (fun h => by cases h) fun _ => .pure ht

theorem reportExternalFault_ensures (index : Nat) (reason : DmaFaultReason) (unitSize : BitVec 64) :
    Ensures (reportExternalFault index reason unitSize) m (fun _ t => Settled t)
      (fun _ t => Settled t) := by
  unfold reportExternalFault
  split
  · exact (setFault_ensures hm.toEvents _ _ _).mono (fun _ _ h => h.1) fun _ _ h => h
  · exact .pure hm

theorem signalNmi_ensures : Ensures signalNmi m (fun _ t => Settled t) (fun _ t => Settled t) := by
  refine (flagged_ensures hm.toEvents (.inr rfl) ⟨rfl, rfl, rfl, rfl⟩
    ⟨hm.registers.channels, ?_, hm.registers.fault⟩ rfl).mono (fun _ _ h => h.1) fun _ _ h => h
  exact or_within hm.registers.operation (by decide)

/-! ## Mode and reset -/

theorem setExecutionMode_ensures (hroom : Room m) (mode : DmaExecutionMode) :
    Ensures (setExecutionMode mode) m (fun _ t => Settled t) (fun _ t => Settled t) := by
  unfold setExecutionMode
  refine .bind (.get (.ite (fun _ => .pure hm) fun _ => ?_))
  refine .bind ((cancelEvent_ensures hm.toEvents).mono ?_ fun _ _ h => h)
  rintro _ t ht
  refine .bind (onDevice_ensures ?_)
  have hregisters := ht.registers hm.registers
  have hroom' := ht.room hroom
  generalize hchanged : ({ t with device := { t.device with executionMode := mode } } :
    Machine μ) = u
  have hevents : Events u := by
    subst hchanged
    exact ⟨ht.scheduler, ⟨hregisters.channels, hregisters.operation, hregisters.fault⟩,
      .inl ⟨ht.idle.event, ht.idle.pending, ht.idle.channel, ht.idle.units, ht.idle.none⟩⟩
  have huroom : Room u := by
    subst hchanged
    exact ⟨hroom'.cycle, hroom'.eventId⟩
  refine (reevaluate_ensures hevents huroom ?_).mono (fun _ _ h => h.1) fun _ _ h => h.elim
  intro hpending
  subst hchanged
  exact absurd (ht.idle.pending.symm.trans hpending) (by decide)

end

theorem resetDevice_ensures {m : Machine μ} (hm : Settled m) :
    Ensures resetDevice m (fun _ t => Settled t) (fun _ t => Settled t) := by
  refine .bind ((cancelEvent_ensures hm.toEvents).mono ?_ fun _ _ h => h)
  rintro _ t ht
  refine onDevice_ensures (settled_of_disabled ht.scheduler ?_ ⟨rfl, rfl, rfl, rfl, ht.idle.none⟩ ?_)
  · exact Sh4Dmac.Registers.initial t.device.reset rfl rfl rfl
  · exact Sh4Dmac.enabled_of_operation_eq_zero rfl

end KatanaRecomp.Runtime.Dmac
