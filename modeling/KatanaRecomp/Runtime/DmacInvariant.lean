import KatanaRecomp.Runtime.DmacMachine
import KatanaRecomp.Runtime.SchedulerUse

/-! # What holds of the DMA controller between two calls

`Settled` says that the controller's event, or the one it waits to be given
back, is exactly the one of the planned channel, that this channel is enabled
and that no channel waits without a plan. A call changes registers and ends in
`reevaluate`, in a fault or without either, so there is one lemma for each of
these endings. -/
namespace KatanaRecomp.Runtime.Dmac
open Lib Scheduler
variable {μ : Type}

/-! ## Registers -/

theorem or_within {x y mask : BitVec 32} (hx : x &&& ~~~mask = 0) (hy : y &&& ~~~mask = 0) :
    (x ||| y) &&& ~~~mask = 0 := by
  have hsplit : (x ||| y) &&& ~~~mask = (x &&& ~~~mask) ||| (y &&& ~~~mask) := by
    ext i hi
    simp [Bool.and_or_distrib_right]
  rw [hsplit, hx, hy]
  rfl

/-- Masked off bits stay off under a wider mask. -/
theorem and_within (x : BitVec 32) {part mask : BitVec 32} (hpart : part &&& ~~~mask = 0) :
    (x &&& part) &&& ~~~mask = 0 := by
  rw [BitVec.and_assoc, hpart]
  exact BitVec.and_zero

/-- What the register writes of a channel leave in it. -/
structure Channel.Registers (value : Channel) (index : Fin 4) : Prop where
  count : value.count ≤ transferCountMask
  control : value.control &&& ~~~(controlWritableMask ||| transferEnd) = 0
  onDemand : value.pendingOnDemandRequests.toNat ≤ onDemandCapacity index

structure Sh4Dmac.Registers (dmac : Sh4Dmac) : Prop where
  channels : ∀ index, (dmac.channels index).Registers index
  operation : dmac.operation &&& ~~~(operationWritableMask ||| addressErrorFlag ||| nmiFlag) = 0
  fault : ∀ fault ∈ dmac.lastFault, fault.channel.toNat < 4

theorem Channel.Registers.initial (index : Fin 4) : ({} : Channel).Registers index :=
  ⟨by decide, by decide, Nat.zero_le _⟩

theorem Sh4Dmac.Registers.initial (dmac : Sh4Dmac) (hchannels : dmac.channels = fun _ => {})
    (hoperation : dmac.operation = 0) (hfault : dmac.lastFault = none) : dmac.Registers := by
  refine ⟨?_, ?_, ?_⟩
  · intro index
    rw [hchannels]
    exact Channel.Registers.initial index
  · rw [hoperation]
    decide
  · intro fault hmem
    rw [hfault] at hmem
    cases hmem

variable {dmac : Sh4Dmac}

theorem Sh4Dmac.Registers.update (h : dmac.Registers) (index : Fin 4) {f : Channel → Channel}
    (hf : (dmac.channels index).Registers index → (f (dmac.channels index)).Registers index) :
    (dmac.updateChannel index f).Registers := by
  refine ⟨?_, h.operation, h.fault⟩
  intro other
  change (Function.update dmac.channels index _ other).Registers other
  rcases eq_or_ne other index with rfl | hne
  · rw [Function.update_self]
    exact hf (h.channels other)
  · rw [Function.update_of_ne hne]
    exact h.channels other

variable {index : Fin 4} {value : Channel}

section
variable (h : value.Registers index)
include h

theorem Channel.Registers.ended : value.ended.Registers index :=
  ⟨h.count, or_within h.control (by decide), h.onDemand⟩

theorem Channel.Registers.writeControl (written : BitVec 32) :
    (value.writeControl written).Registers index := by
  refine ⟨h.count, or_within (and_within _ (by decide)) ?_, h.onDemand⟩
  rw [← BitVec.and_assoc (value.control &&& transferEnd)]
  exact and_within _ (by decide)

theorem Channel.Registers.unitMoved (size : Nat) : (value.unitMoved size).Registers index := by
  have hcount : (if value.count = 0 then transferCountMask else value.count - 1) ≤
      transferCountMask := by
    have hbound := h.count
    unfold transferCountMask at hbound ⊢
    split <;> bv_omega
  unfold Channel.unitMoved
  dsimp only
  generalize (if value.count = 0 then transferCountMask else value.count - 1) = count at hcount
  have hmoved : Channel.Registers (Channel.updateAddresses
      { value with completedUnits := value.completedUnits + 1, count } size) index :=
    ⟨hcount, h.control, h.onDemand⟩
  split
  · exact hmoved.ended
  · exact hmoved

theorem Channel.Registers.takeRequest {next : Channel} {operation : BitVec 32}
    (htake : value.takeRequest operation = some next) : next.Registers index := by
  unfold Channel.takeRequest at htake
  split at htake
  · cases htake
    exact h
  split at htake
  · cases htake
    exact { h with }
  split at htake
  · rename_i hsome
    cases htake
    refine ⟨h.count, h.control, ?_⟩
    have hbound := h.onDemand
    have hne := hsome.2
    change (value.pendingOnDemandRequests - 1).toNat ≤ _
    bv_omega
  · cases htake

theorem Channel.Registers.progressed
    {bytes : Nat} (hunits : bytes / value.transferSize ≤ value.count.toNat) :
    (value.progressed bytes).Registers index := by
  refine ⟨?_, h.control, h.onDemand⟩
  have hbound := h.count
  change value.count - BitVec.ofNat 32 (bytes / value.transferSize) ≤ transferCountMask
  generalize bytes / value.transferSize = units at hunits
  unfold transferCountMask at hbound ⊢
  bv_omega

end

variable (h : dmac.Registers)
include h

theorem Sh4Dmac.Registers.discardOnDemandRequests : dmac.discardOnDemandRequests.Registers :=
  ⟨fun index => ⟨(h.channels index).count, (h.channels index).control, Nat.zero_le _⟩,
    h.operation, h.fault⟩

theorem Sh4Dmac.Registers.forgetFault : Sh4Dmac.Registers
      (if dmac.operation &&& addressErrorFlag = 0 then { dmac with lastFault := none } else dmac) := by
  split
  · exact ⟨h.channels, h.operation, fun fault hfault => by cases hfault⟩
  · exact h

theorem Sh4Dmac.Registers.writeOperation
    (value : BitVec 32) : (dmac.writeOperation value).Registers := by
  have hoperation : ((value &&& operationWritableMask) |||
      ((dmac.operation &&& (addressErrorFlag ||| nmiFlag)) &&&
        (value &&& (addressErrorFlag ||| nmiFlag)))) &&&
      ~~~(operationWritableMask ||| addressErrorFlag ||| nmiFlag) = 0 := by
    refine or_within (and_within _ (by decide)) ?_
    rw [← BitVec.and_assoc]
    exact and_within _ (by decide)
  unfold Sh4Dmac.writeOperation
  dsimp only
  generalize (value &&& operationWritableMask) |||
    ((dmac.operation &&& (addressErrorFlag ||| nmiFlag)) &&&
      (value &&& (addressErrorFlag ||| nmiFlag))) = operation at hoperation
  have hstored : Sh4Dmac.Registers { dmac with operation } := ⟨h.channels, hoperation, h.fault⟩
  have hkept : Sh4Dmac.Registers
      (if (dmac.operation &&& onDemandEnable != 0 && operation &&& onDemandEnable == 0) = true then
        Sh4Dmac.discardOnDemandRequests { dmac with operation }
      else { dmac with operation }) := by
    split
    · exact hstored.discardOnDemandRequests
    · exact hstored
  exact hkept.forgetFault

theorem Sh4Dmac.Registers.discardExternalRequests : dmac.discardExternalRequests.Registers :=
  ⟨fun index => ⟨(h.channels index).count, (h.channels index).control, Nat.zero_le _⟩,
    h.operation, h.fault⟩

omit h

/-! ## Selection -/

theorem Sh4Dmac.selectChannel_isSome_iff (dmac : Sh4Dmac) :
    dmac.selectChannel.isSome = true ↔ ∃ index, dmac.eligible index = true := by
  have hfixed : ∀ priority < fixedOrders.length, ∀ index : Fin 4,
      index ∈ fixedOrders.getD priority [] := by decide
  have hcursor : ∀ cursor index : Fin 4,
      index ∈ [0, 1, 2, 3].map fun offset : Fin 4 => cursor + offset := by decide
  unfold Sh4Dmac.selectChannel
  split
  · rename_i hpriority
    rw [List.find?_isSome]
    exact ⟨fun ⟨index, _, h⟩ => ⟨index, h⟩, fun ⟨index, h⟩ => ⟨index, hfixed _ hpriority index, h⟩⟩
  · rw [List.find?_isSome]
    exact ⟨fun ⟨index, _, h⟩ => ⟨index, h⟩, fun ⟨index, h⟩ => ⟨index, hcursor _ index, h⟩⟩

theorem Sh4Dmac.enabled_of_selectChannel
    (h : dmac.selectChannel = some index) : dmac.enabled index = true := by
  have heligible : dmac.eligible index = true := by
    unfold Sh4Dmac.selectChannel at h
    split at h
    · exact List.find?_some h
    · exact List.find?_some h
  unfold Sh4Dmac.eligible at heligible
  simp only [Bool.and_eq_true] at heligible
  exact heligible.1

/-- A flagged error or interrupt disables every channel. -/
theorem Sh4Dmac.enabled_eq_false {flag : BitVec 32}
    (hflag : flag = addressErrorFlag ∨ flag = nmiFlag) (hset : dmac.operation &&& flag ≠ 0)
    (index : Fin 4) : dmac.enabled index = false := by
  have hne : dmac.operation &&& (addressErrorFlag ||| nmiFlag) ≠ 0 := by
    intro hzero
    apply hset
    have hpart : dmac.operation &&& flag =
        (dmac.operation &&& (addressErrorFlag ||| nmiFlag)) &&& flag := by
      rw [BitVec.and_assoc]
      rcases hflag with rfl | rfl <;> rfl
    rw [hpart, hzero]
    exact BitVec.zero_and
  unfold Sh4Dmac.enabled
  rw [beq_eq_false_iff_ne.mpr hne]
  simp

/-! ## The plan -/

/-- The scheduler holds an event of the channel. -/
def Holds (scheduler : EventScheduler DmacCallback) (key : EventKey) (index : Fin 4) : Prop :=
  ∃ kind, scheduler.events[key]? = some (⟨.transfer index, kind⟩ : ScheduledEvent DmacCallback)

variable {scheduler : EventScheduler DmacCallback}

theorem Holds.mem {key : EventKey} (h : Holds scheduler key index) : key ∈ scheduler.events := by
  obtain ⟨kind, hheld⟩ := h
  rw [Std.TreeMap.mem_iff_isSome_getElem?, hheld]
  rfl

/-- The scheduler holds no event of the controller. -/
def NoEvent (scheduler : EventScheduler DmacCallback) : Prop :=
  ∀ key index, ¬ Holds scheduler key index

/-- Nothing is planned. -/
structure Idle (m : Machine μ) : Prop where
  event : m.device.event = none
  pending : m.device.eventRehydrationPending = false
  channel : m.device.scheduledChannel = none
  units : m.device.scheduledUnits = 0
  none : NoEvent m.scheduler

/-- The scheduler holds the event `key` for the channel, and no other one. -/
structure Planned (m : Machine μ) (key : EventKey) (index : Fin 4) : Prop where
  event : m.device.event = some key.id
  pending : m.device.eventRehydrationPending = false
  channel : m.device.scheduledChannel = some index
  units : m.device.scheduledUnits ≠ 0
  held : Holds m.scheduler key index
  only : ∀ key' index', Holds m.scheduler key' index' → key' = key

/-- The channel's event is still to be given back. -/
structure Awaiting (m : Machine μ) (index : Fin 4) : Prop where
  event : m.device.event = none
  pending : m.device.eventRehydrationPending = true
  channel : m.device.scheduledChannel = some index
  units : m.device.scheduledUnits ≠ 0
  none : NoEvent m.scheduler

variable {s s' : EventScheduler DmacCallback}

theorem holds_scheduled {cycle id : Nat} {callback : DmacCallback} {kind : SchedulerEventKind}
    (h : scheduleAt s cycle (some callback) kind = .ok (id, s')) (key : EventKey)
    (index : Fin 4) : Holds s' key index ↔
      key = ⟨cycle, id⟩ ∧ callback = .transfer index ∨ key ≠ ⟨cycle, id⟩ ∧ Holds s key index := by
  unfold Holds
  rw [scheduleAt_getElem? h]
  split
  · rename_i heq
    constructor
    · rintro ⟨kind', hheld⟩
      cases hheld
      exact .inl ⟨heq, rfl⟩
    · rintro (⟨-, rfl⟩ | ⟨hne, -⟩)
      · exact ⟨kind, rfl⟩
      · exact absurd heq hne
  · rename_i hne
    constructor
    · intro hheld
      exact .inr ⟨hne, hheld⟩
    · rintro (⟨heq, -⟩ | ⟨-, hheld⟩)
      · exact absurd heq hne
      · exact hheld

/-- An event is taken off the scheduler. -/
theorem holds_erased {erased : EventKey}
    (h : ∀ key, s'.events[key]? = if key = erased then none else s.events[key]?) (key : EventKey)
    (index : Fin 4) : Holds s' key index ↔ key ≠ erased ∧ Holds s key index := by
  unfold Holds
  rw [h]
  split
  · rename_i heq
    constructor
    · rintro ⟨kind, hheld⟩
      cases hheld
    · rintro ⟨hne, -⟩
      exact absurd heq hne
  · rename_i hne
    exact ⟨fun hheld => ⟨hne, hheld⟩, fun hheld => hheld.2⟩

structure Events (m : Machine μ) : Prop where
  scheduler : SchedulerOk m.scheduler m.phase
  registers : m.device.Registers
  plan : Idle m ∨ (∃ key index, Planned m key index) ∨ ∃ index, Awaiting m index

structure Settled (m : Machine μ) : Prop extends Events m where
  active : ∀ index, m.device.scheduledChannel = some index → m.device.enabled index = true
  selected : (∃ index, m.device.eligible index = true) →
    m.device.event.isSome = true ∨ m.device.eventRehydrationPending = true

/-- The registers that say what is planned are the same. -/
structure SamePlan (d d' : Sh4Dmac) : Prop where
  event : d'.event = d.event
  pending : d'.eventRehydrationPending = d.eventRehydrationPending
  channel : d'.scheduledChannel = d.scheduledChannel
  units : d'.scheduledUnits = d.scheduledUnits

theorem Events.transfer {m t : Machine μ} (hm : Events m) (hscheduler : t.scheduler = m.scheduler)
    (hphase : t.phase = m.phase) (hsame : SamePlan m.device t.device)
    (hregisters : t.device.Registers) : Events t := by
  refine ⟨?_, hregisters, ?_⟩
  · rw [hscheduler, hphase]
    exact hm.scheduler
  rcases hm.plan with hidle | ⟨key, index, hplanned⟩ | ⟨index, hawaiting⟩
  · exact .inl ⟨hsame.event.trans hidle.event, hsame.pending.trans hidle.pending,
      hsame.channel.trans hidle.channel, hsame.units.trans hidle.units, hscheduler ▸ hidle.none⟩
  · exact .inr (.inl ⟨key, index, hsame.event.trans hplanned.event,
      hsame.pending.trans hplanned.pending, hsame.channel.trans hplanned.channel,
      hsame.units ▸ hplanned.units, hscheduler ▸ hplanned.held, hscheduler ▸ hplanned.only⟩)
  · exact .inr (.inr ⟨index, hsame.event.trans hawaiting.event,
      hsame.pending.trans hawaiting.pending, hsame.channel.trans hawaiting.channel,
      hsame.units ▸ hawaiting.units, hscheduler ▸ hawaiting.none⟩)

variable {m : Machine μ}

theorem Events.setDevice (hm : Events m) {d : Sh4Dmac}
    (hsame : SamePlan m.device d) (hregisters : d.Registers) : Events { m with device := d } :=
  hm.transfer rfl rfl hsame hregisters

/-- The controller's events stay what they are while the clock and the phase of the scheduler
move. -/
theorem Settled.forward (hm : Settled m) {phase : Phase} (hscheduler : SchedulerOk scheduler phase)
    (hevents : ∀ key index, Holds scheduler key index ↔ Holds m.scheduler key index) :
    Settled { m with scheduler, phase } := by
  have hnone : NoEvent m.scheduler → NoEvent scheduler :=
    fun h key index hheld => h key index ((hevents key index).mp hheld)
  refine ⟨⟨hscheduler, hm.registers, ?_⟩, hm.active, hm.selected⟩
  rcases hm.plan with hidle | ⟨key, index, hplanned⟩ | ⟨index, hawaiting⟩
  · exact .inl ⟨hidle.event, hidle.pending, hidle.channel, hidle.units, hnone hidle.none⟩
  · exact .inr (.inl ⟨key, index, hplanned.event, hplanned.pending, hplanned.channel,
      hplanned.units, (hevents key index).mpr hplanned.held, fun key' index' h =>
        hplanned.only key' index' ((hevents key' index').mp h)⟩)
  · exact .inr (.inr ⟨index, hawaiting.event, hawaiting.pending, hawaiting.channel,
      hawaiting.units, hnone hawaiting.none⟩)

theorem onDevice_ensures {f : Sh4Dmac → Sh4Dmac}
    {post : Unit → Machine μ → Prop} {fail : DmacError → Machine μ → Prop}
    (h : post () { m with device := f m.device }) : Ensures (onDevice f) m post fail := .update h

end KatanaRecomp.Runtime.Dmac
