import KatanaRecomp.Runtime.Restart

/-! # Precise memory exceptions of the interpreter

When an access of an instruction or of its delay slot throws, the exception is
entered with every register as it was before the instruction, or before the
branch that owns the slot. Entry selects bank one, so R0..R7 may have changed
places with the bank; RTE undoes that. -/
namespace KatanaRecomp.Runtime
open Sh4 (DecodedInstruction)

/-! ## Bits of SR -/

namespace CpuState

theorem flag_and (mask other : BitVec 32) (value : Bool) :
    flag mask value &&& other = flag (mask &&& other) value := by
  cases value
  · exact BitVec.zero_and
  · rfl

@[simp] theorem flag_zero (value : Bool) : flag 0#32 value = 0#32 := by
  cases value <;> rfl

theorem flag_bit (value : BitVec 32) (k : Nat) :
    flag (BitVec.twoPow 32 k) (value &&& BitVec.twoPow 32 k != 0) =
      value &&& BitVec.twoPow 32 k := by
  rw [BitVec.and_twoPow]
  split
  · by_cases h : BitVec.twoPow 32 k = 0#32
    · simp [h]
    · simp [flag, h]
  · simp [flag]

variable (cpu : CpuState)

/-- The part of SR under a mask: stored bits and flags separately. -/
theorem readSr_and (mask : BitVec 32) : cpu.readSr &&& mask =
      (cpu.sr &&& (~~~(srMMask ||| srQMask ||| srSMask ||| srTMask) &&& mask)) |||
        flag (srMMask &&& mask) cpu.m ||| flag (srQMask &&& mask) cpu.q |||
        flag (srSMask &&& mask) cpu.s ||| flag (srTMask &&& mask) cpu.t := by
  unfold readSr
  simp only [BitVec.and_or_distrib_right, flag_and, BitVec.and_assoc]

theorem flag_ne_zero {mask : BitVec 32} (hmask : mask ≠ 0) (value : Bool) :
    (flag mask value != 0) = value := by
  cases value
  · rfl
  · simpa [flag] using hmask

/-- The writable part of SR as it is read shows the flags. -/
theorem readSr_flags : (cpu.readSr &&& srWritableMask &&& srMMask != 0) = cpu.m ∧
      (cpu.readSr &&& srWritableMask &&& srQMask != 0) = cpu.q ∧
      (cpu.readSr &&& srWritableMask &&& srSMask != 0) = cpu.s ∧
      (cpu.readSr &&& srWritableMask &&& srTMask != 0) = cpu.t := by
  have hflag {mask : BitVec 32} {value : Bool} (hmask : mask ≠ 0)
      (h : cpu.readSr &&& (srWritableMask &&& mask) = flag mask value) :
      (cpu.readSr &&& srWritableMask &&& mask != 0) = value := by
    rw [BitVec.and_assoc, h, flag_ne_zero hmask]
  refine ⟨hflag (by decide) ?_, hflag (by decide) ?_, hflag (by decide) ?_, hflag (by decide) ?_⟩
  all_goals
    rw [readSr_and]
    simp [srMMask, srQMask, srSMask, srTMask, srWritableMask]

theorem bankOne_readSr : bankOne (cpu.readSr &&& srWritableMask) = bankOne cpu.sr := by
  have h : cpu.readSr &&& srWritableMask &&& (srMdMask ||| srRbMask) =
      cpu.sr &&& (srMdMask ||| srRbMask) := by
    rw [BitVec.and_assoc, readSr_and]
    simp [srMMask, srQMask, srSMask, srTMask, srWritableMask, srMdMask, srRbMask]
  unfold bankOne
  rw [h]

theorem bankOne_entry (value : BitVec 32) :
    bankOne ((value ||| srMdMask ||| srRbMask ||| srBlMask) &&& srWritableMask) = true := by
  have h : (value ||| srMdMask ||| srRbMask ||| srBlMask) &&& srWritableMask &&&
      (srMdMask ||| srRbMask) = srMdMask ||| srRbMask := by
    have habsorb (x mask : BitVec 32) : x &&& mask ||| mask = mask := by
      ext k hk
      simp
    rw [BitVec.and_assoc, BitVec.or_assoc, BitVec.or_assoc, BitVec.and_or_distrib_right]
    exact habsorb value (srMdMask ||| srRbMask)
  unfold bankOne
  rw [h, beq_self_eq_true]

/-- A stored SR reads back as its writable part. -/
theorem readSr_writeSr (value : BitVec 32) :
    (cpu.writeSr value).readSr = value &&& srWritableMask := by
  have hbits (x : BitVec 32) :
      (x &&& ~~~(srMMask ||| srQMask ||| srSMask ||| srTMask)) ||| flag srMMask (x &&& srMMask != 0)
        ||| flag srQMask (x &&& srQMask != 0) ||| flag srSMask (x &&& srSMask != 0)
        ||| flag srTMask (x &&& srTMask != 0) = x := by
    have hm := flag_bit x 9
    have hq := flag_bit x 8
    have hs := flag_bit x 1
    have ht := flag_bit x 0
    change flag srMMask (x &&& srMMask != 0) = x &&& srMMask at hm
    change flag srQMask (x &&& srQMask != 0) = x &&& srQMask at hq
    change flag srSMask (x &&& srSMask != 0) = x &&& srSMask at hs
    change flag srTMask (x &&& srTMask != 0) = x &&& srTMask at ht
    rw [hm, hq, hs, ht, ← BitVec.and_or_distrib_left, ← BitVec.and_or_distrib_left,
      ← BitVec.and_or_distrib_left, ← BitVec.and_or_distrib_left]
    exact BitVec.and_allOnes
  exact hbits _

theorem swapBanks_swapBanks : cpu.swapBanks.swapBanks = cpu := by
  have hr : cpu.swapBanks.swapBanks.r = cpu.r := by
    funext n
    by_cases h : n.val < 8 <;> simp [swapBanks, h]
  have hbank : cpu.swapBanks.swapBanks.rBank = cpu.rBank := by
    funext n
    have h : (n.castLE (by decide) : Fin 16).val < 8 := n.isLt
    simp [swapBanks]
  calc cpu.swapBanks.swapBanks
      = { cpu with r := cpu.swapBanks.swapBanks.r, rBank := cpu.swapBanks.swapBanks.rBank } := rfl
    _ = cpu := by rw [hr, hbank]

/-- The registers a program sees, without the bookkeeping of exceptions: SR
without the bits that cannot be written. -/
def visible : CpuState where
  r := cpu.r
  rBank := cpu.rBank
  fr := cpu.fr
  xf := cpu.xf
  pc := cpu.pc
  pr := cpu.pr
  gbr := cpu.gbr
  vbr := cpu.vbr
  dbr := cpu.dbr
  mach := cpu.mach
  macl := cpu.macl
  fpul := cpu.fpul
  fpscr := cpu.fpscr
  sr := cpu.readSr &&& srWritableMask
  t := cpu.t
  s := cpu.s
  q := cpu.q
  m := cpu.m

end CpuState

/-! ## Exception entry -/

/-- An exception was entered from `before` without losing anything: SPC and SSR
name where and how to go on, the general registers are at most in the other
bank, and RTE brings every register back. -/
structure Precise (before after : CpuState) : Prop where
  spc : after.spc = before.pc
  ssr : after.ssr = before.readSr
  kept : after.fr = before.fr ∧ after.xf = before.xf ∧ after.pr = before.pr ∧
    after.gbr = before.gbr ∧ after.mach = before.mach ∧ after.macl = before.macl ∧
    after.fpul = before.fpul
  banks : if CpuState.bankOne before.sr then after.r = before.r ∧ after.rBank = before.rBank
    else after.r = before.swapBanks.r ∧ after.rBank = before.swapBanks.rBank
  resumed : (returnFromException after).visible = before.visible

/-- The memory fault resets the CPU: a TLB multiple hit, or a general exception
while SR.BL blocks exceptions. -/
def resets (cpu : CpuState) (error : MemoryAccessError) : Bool :=
  memoryExceptionCause error == .tlbMultipleHit ||
    (exceptionMetadata (memoryExceptionCause error)).vectorOffset == generalExceptionVector &&
      cpu.readSr &&& srBlMask != 0

section
variable (sink : Option (CpuState → ManualResetRequest → CpuState))

/-- SR and its flags, in the bank that is there. -/
def CpuState.withSr (cpu : CpuState) (value : BitVec 32) : CpuState :=
  { cpu with
    sr := value
    m := value &&& srMMask != 0
    q := value &&& srQMask != 0
    s := value &&& srSMask != 0
    t := value &&& srTMask != 0 }

theorem CpuState.writeSr_same {cpu : CpuState} {value : BitVec 32}
    (h : bankOne cpu.sr = bankOne (value &&& srWritableMask)) :
    cpu.writeSr value = cpu.withSr (value &&& srWritableMask) := by
  have hsame : (bankOne cpu.sr != bankOne (value &&& srWritableMask)) = false := by simp [h]
  simp only [writeSr, hsame]
  rfl

theorem CpuState.writeSr_other {cpu : CpuState} {value : BitVec 32}
    (h : bankOne cpu.sr ≠ bankOne (value &&& srWritableMask)) :
    cpu.writeSr value = cpu.swapBanks.withSr (value &&& srWritableMask) := by
  have hother : (bankOne cpu.sr != bankOne (value &&& srWritableMask)) = true := by simpa using h
  simp only [writeSr, hother]
  rfl

/-- SR as an exception enters with it. -/
def entrySr (sr : BitVec 32) : BitVec 32 := sr ||| srMdMask ||| srRbMask ||| srBlMask

/-- The write of SR on entry and the write of SR by RTE: the banks come back. -/
theorem CpuState.writeSr_entry_return (cpu : CpuState) :
    (cpu.writeSr (entrySr cpu.readSr)).writeSr cpu.readSr =
      cpu.withSr (cpu.readSr &&& srWritableMask) := by
  have hentry : bankOne (entrySr cpu.readSr &&& srWritableMask) = true := bankOne_entry cpu.readSr
  cases hbank : bankOne cpu.sr with
  | true =>
    have hback : bankOne (entrySr cpu.readSr &&& srWritableMask) =
        bankOne (cpu.readSr &&& srWritableMask) := by
      rw [hentry, bankOne_readSr, hbank]
    rw [writeSr_same (hbank.trans hentry.symm), writeSr_same hback]
    rfl
  | false =>
    have hthere : bankOne cpu.sr ≠ bankOne (entrySr cpu.readSr &&& srWritableMask) := by
      rw [hentry, hbank]
      decide
    have hback : bankOne (entrySr cpu.readSr &&& srWritableMask) ≠
        bankOne (cpu.readSr &&& srWritableMask) := by
      rw [hentry, bankOne_readSr, hbank]
      decide
    rw [writeSr_other hthere, writeSr_other hback]
    calc (cpu.swapBanks.withSr _).swapBanks.withSr (cpu.readSr &&& srWritableMask)
        = cpu.swapBanks.swapBanks.withSr (cpu.readSr &&& srWritableMask) := rfl
      _ = cpu.withSr (cpu.readSr &&& srWritableMask) := by rw [swapBanks_swapBanks]

theorem CpuState.visible_withSr (cpu : CpuState) :
    (cpu.withSr (cpu.readSr &&& srWritableMask)).visible = cpu.visible := by
  obtain ⟨hm, hq, hs, ht⟩ := cpu.readSr_flags
  have hread : (cpu.withSr (cpu.readSr &&& srWritableMask)).readSr = cpu.readSr &&& srWritableMask :=
    cpu.readSr_writeSr cpu.readSr
  unfold visible
  rw [hread, BitVec.and_assoc, BitVec.and_self]
  unfold withSr
  dsimp only
  rw [hm, hq, hs, ht]

/-- Entering an exception from registers that already hold SPC and SSR. -/
theorem precise_of_entered (entered : CpuState) (hssr : entered.ssr = entered.readSr)
    (vector : BitVec 32) : Precise (entered.withPc entered.spc)
      ((entered.writeSr (entrySr entered.readSr)).withPc vector) := by
  have hentry : CpuState.bankOne (entrySr entered.readSr &&& srWritableMask) = true :=
    CpuState.bankOne_entry entered.readSr
  have hfields : (entered.writeSr (entrySr entered.readSr)).spc = entered.spc ∧
      (entered.writeSr (entrySr entered.readSr)).ssr = entered.ssr := by
    unfold CpuState.writeSr
    dsimp only
    split <;> exact ⟨rfl, rfl⟩
  have hresumed : (returnFromException
      ((entered.writeSr (entrySr entered.readSr)).withPc vector)).visible =
        (entered.withPc entered.spc).visible :=
    calc (returnFromException ((entered.writeSr (entrySr entered.readSr)).withPc vector)).visible
        = ((((entered.writeSr (entrySr entered.readSr)).withPc vector).writeSr
            (entered.writeSr (entrySr entered.readSr)).ssr).withPc
            (entered.writeSr (entrySr entered.readSr)).spc).visible := rfl
      _ = ((entered.withSr (entered.readSr &&& srWritableMask)).withPc entered.spc).visible := by
        rw [hfields.1, hfields.2, hssr, CpuState.writeSr_withPc, entered.writeSr_entry_return]
        rfl
      _ = (entered.withPc entered.spc).visible :=
        congrArg (fun cpu => cpu.withPc entered.spc) entered.visible_withSr
  cases hbank : CpuState.bankOne entered.sr with
  | true =>
    have hbanks : CpuState.bankOne (entered.withPc entered.spc).sr = true := hbank
    rw [CpuState.writeSr_same (hbank.trans hentry.symm)] at hresumed ⊢
    refine ⟨rfl, hssr, ⟨rfl, rfl, rfl, rfl, rfl, rfl, rfl⟩, ?_, hresumed⟩
    rw [if_pos hbanks]
    exact ⟨rfl, rfl⟩
  | false =>
    have hbanks : ¬ CpuState.bankOne (entered.withPc entered.spc).sr = true := by
      rw [Bool.not_eq_true]
      exact hbank
    have hother : CpuState.bankOne entered.sr ≠
        CpuState.bankOne (entrySr entered.readSr &&& srWritableMask) := by
      rw [hentry, hbank]
      decide
    rw [CpuState.writeSr_other hother] at hresumed ⊢
    refine ⟨rfl, hssr, ⟨rfl, rfl, rfl, rfl, rfl, rfl, rfl⟩, ?_, hresumed⟩
    rw [if_neg hbanks]
    exact ⟨rfl, rfl⟩

theorem enterException_precise (cpu : CpuState) (request : ExceptionRequest) {pc : BitVec 32}
    (hpc : request.returnPc = pc)
    (hblocked : (!(exceptionMetadata request.cause request.eventCode).interrupt &&
      (exceptionMetadata request.cause request.eventCode).vectorOffset == generalExceptionVector &&
      cpu.readSr &&& srBlMask != 0) = false) :
    Precise (cpu.withPc pc) (enterException sink cpu request) := by
  subst hpc
  unfold enterException
  simp only [hblocked, Bool.false_eq_true, if_false]
  have h := precise_of_entered { cpu with
    exceptionGeneration := nextExceptionGeneration cpu.exceptionGeneration
    ssr := cpu.readSr
    spc := request.returnPc
    sgr := cpu.r 15
    tea := request.faultAddress.getD cpu.tea
    intevt := if (exceptionMetadata request.cause request.eventCode).interrupt then
      (exceptionMetadata request.cause request.eventCode).eventCode else cpu.intevt
    expevt := if (exceptionMetadata request.cause request.eventCode).interrupt then cpu.expevt
      else (exceptionMetadata request.cause request.eventCode).eventCode
    lastExceptionCause := (exceptionMetadata request.cause request.eventCode).cause
    exceptionInDelaySlot := request.inDelaySlot
    lastExceptionInstructionPc := request.instructionPc
    lastExceptionOwnerPc := request.delaySlotOwnerPc.getD request.instructionPc
    lastExceptionGeneration := nextExceptionGeneration cpu.exceptionGeneration
    trapPending := true
    sleeping := false } rfl
    (cpu.vbr + (exceptionMetadata request.cause request.eventCode).vectorOffset)
  exact ⟨h.spc, h.ssr, h.kept, h.banks, h.resumed⟩

theorem exceptionMetadata_memory (error : MemoryAccessError) (eventCode : BitVec 32) :
    exceptionMetadata (memoryExceptionCause error) eventCode =
      exceptionMetadata (memoryExceptionCause error) := by
  obtain ⟨operation, reason, address⟩ := error
  cases operation <;> cases reason <;> rfl

theorem enterMemoryException_precise (cpu : CpuState) (error : MemoryAccessError)
    (pc : BitVec 32) (owner : Option (BitVec 32)) (hreset : resets cpu error = false) :
    Precise (cpu.withPc (owner.getD pc)) (enterMemoryException sink cpu error pc owner) := by
  rw [resets, Bool.or_eq_false_iff] at hreset
  obtain ⟨hmultiple, hblocked⟩ := hreset
  have hcause : memoryExceptionCause error ≠ .tlbMultipleHit := by simpa using hmultiple
  have hprecise (cpu' : CpuState) (hread : cpu'.readSr = cpu.readSr) :
      Precise (cpu'.withPc (owner.getD pc)) (enterException sink cpu'
        { cause := memoryExceptionCause error
          eventCode := (exceptionMetadata (memoryExceptionCause error)).eventCode
          returnPc := owner.getD pc
          faultAddress := error.address
          inDelaySlot := owner.isSome
          instructionPc := pc
          delaySlotOwnerPc := owner }) := by
    refine enterException_precise sink cpu' _ rfl ?_
    rw [exceptionMetadata_memory, hread, Bool.and_assoc, hblocked, Bool.and_false]
  unfold enterMemoryException
  simp only [if_neg hcause]
  split
  · -- PTEH is no register the program sees
    have h := hprecise { cpu with pteh := faultPteh cpu.pteh error.address } rfl
    exact ⟨h.spc, h.ssr, h.kept, h.banks, h.resumed⟩
  · exact hprecise cpu rfl

end

/-! ## Faults of an instruction -/

/-- No memory fault leaves the program. -/
def Guest.Contained {M α : Type} (x : Guest M α) : Prop := ∀ σ e, (x σ).1 ≠ .error (.memory e)

/-- A memory fault of the program leaves every register as it was. -/
def Guest.Atomic {M α : Type} (x : Guest M α) : Prop :=
  ∀ σ e, (x σ).1 = .error (.memory e) → (x σ).2.cpu = σ.cpu

namespace Guest
variable {M α β : Type}

theorem Contained.atomic {x : Guest M α} (h : Contained x) : Atomic x :=
  fun σ e he => absurd he (h σ e)

theorem Contained.pure (a : α) : Contained (Pure.pure a : Guest M α) := fun _ _ h => nomatch h

theorem Contained.host (what : String) : Contained (throwFault (.host what) : Guest M α) :=
  fun _ _ h => nomatch h

theorem Contained.modifyCpu (f : CpuState → CpuState) : Contained (Guest.modifyCpu f : Guest M Unit) :=
  fun _ _ h => nomatch h

theorem Contained.getCpu : Contained (Guest.getCpu : Guest M CpuState) := fun _ _ h => nomatch h

theorem Contained.bind {x : Guest M α} {k : α → Guest M β} (hx : Contained x)
    (hk : ∀ a, Contained (k a)) : Contained (x >>= k) := by
  intro σ e
  have h := hx σ e
  rw [bind_run]
  rcases hxσ : x σ with ⟨_ | a, σ'⟩
  · simpa [hxσ] using h
  · exact hk a σ' e

theorem Contained.catchMemory (x : Guest M α) {handler : MemoryAccessError → Guest M α}
    (h : ∀ error, Contained (handler error)) : Contained (catchMemory x handler) := by
  intro σ e
  unfold Guest.catchMemory
  split
  · exact h _ _ e
  · rename_i hnot
    intro he
    exact hnot e (x σ).2 (Prod.ext he rfl)

theorem Atomic.getCpu_bind {k : CpuState → Guest M β} (hk : ∀ cpu, Atomic (k cpu)) :
    Atomic (Guest.getCpu >>= k) := fun σ e he => hk σ.cpu σ e he

end Guest

namespace Interpreter
open Guest
variable {M : Type} (P : Platform M) (H : FpuHelpers)

theorem executeDelaySlot_contained (slot : Guest M StepResult) (next owner : BitVec 32) :
    Contained (executeDelaySlot P slot next owner) :=
  .catchMemory slot fun _ => (Contained.modifyCpu _).bind fun _ => .pure _

theorem afterSlot_contained (slot : StepResult) (target : BitVec 32) (kind : BlockEndKind) :
    Contained (afterSlot slot target kind : Guest M StepResult) := by
  unfold afterSlot
  split
  · exact .pure _
  · exact (Contained.modifyCpu _).bind fun _ => .pure _

theorem delayThen_contained (slot : Guest M StepResult) (pc target : BitVec 32)
    (kind : BlockEndKind) : Contained (delayThen P slot pc target kind) :=
  (executeDelaySlot_contained P slot _ _).bind fun _ => afterSlot_contained _ _ _

theorem callDelayThen_contained (slot : Guest M StepResult) (pc target : BitVec 32) :
    Contained (callDelayThen P slot pc target) := by
  refine Contained.getCpu.bind fun cpu => (Contained.modifyCpu _).bind fun _ =>
    (delayThen_contained P slot pc target .call).bind fun result => ?_
  split
  · exact (Contained.modifyCpu _).bind fun _ => .pure _
  · exact .pure _

theorem directBranch_contained (i : DecodedInstruction) (pc : BitVec 32)
    {f : BitVec 32 → Guest M StepResult} (hf : ∀ target, Contained (f target)) :
    Contained (directBranch i pc f) := by
  unfold directBranch
  split
  · exact hf _
  · exact .host _

theorem executeData_atomic (i : DecodedInstruction) (pc : BitVec 32)
    (owner : Option (BitVec 32)) : Atomic (executeData P H i pc owner) := by
  unfold executeData
  cases hprogram : executeMemory P i pc with
  | some program =>
    exact ((executeMemory_restartable P i pc program hprogram).andCommit fun _ => .pure _).atomic
  | none => exact (executeFpu_commits H i pc owner).restartable.atomic

/-- Control flow contains the faults of its slot; what is left accesses memory
before it commits. -/
theorem executeInstruction_atomic (slot : Guest M StepResult) (i : DecodedInstruction)
    (pc : BitVec 32) (owner : Option (BitVec 32)) :
    Atomic (executeInstruction P H slot i pc owner) := by
  have hdelay := fun target kind => delayThen_contained P slot pc target kind
  have hcall := fun target => callDelayThen_contained P slot pc target
  have htaken (target : BitVec 32) : Contained (takenBranch target : Guest M StepResult) :=
    (Contained.modifyCpu _).bind fun _ => .pure _
  refine .getCpu_bind fun cpu => ?_
  split
  case h_2 =>
    exact (Contained.bind (.modifyCpu _) fun _ =>
      (executeDelaySlot_contained P slot _ _).bind fun _ => afterSlot_contained _ _ _).atomic
  case h_8 | h_9 =>
    split
    · exact (directBranch_contained _ _ htaken).atomic
    · exact (Contained.pure _).atomic
  case h_10 | h_11 =>
    split
    · exact (directBranch_contained _ _ fun target => hdelay target _).atomic
    · exact (hdelay _ _).atomic
  all_goals first
    | exact (Contained.bind (.modifyCpu _) fun _ => .pure _).atomic
    | exact (directBranch_contained _ _ fun target => hdelay target _).atomic
    | exact (directBranch_contained _ _ hcall).atomic
    | exact (hdelay _ _).atomic
    | exact (hcall _).atomic
    | exact executeData_atomic P H i pc owner

variable {τ ρ : Machine M} {pc : BitVec 32} {e : MemoryAccessError} {slot : Guest M StepResult}
  {owner : Option (BitVec 32)} {i : DecodedInstruction}

theorem dispatch_fault (h : dispatch P H slot i pc owner ρ = (.error (.memory e), τ)) :
    ∃ p, τ.cpu = ρ.cpu.withPc p := by
  unfold dispatch at h
  rw [bind_run, getCpu_run] at h
  dsimp only at h
  split at h
  · cases h
  · split at h
    · cases h
    · rw [bind_run, modifyCpu_run] at h
      have hatomic := executeInstruction_atomic P H slot i pc owner
        { ρ with cpu := ρ.cpu.withPc (pc + 2) } e
      dsimp only at h
      rw [h] at hatomic
      exact ⟨pc + 2, hatomic rfl⟩

variable {σ : Machine M}

/-- A memory fault of `executeWith` has counted the attempt and perhaps moved
`pc`, and changed no other register. -/
theorem executeWith_fault (h : executeWith P H slot pc owner σ = (.error (.memory e), τ)) :
    ∃ p, τ.cpu = (attempt pc σ.cpu).withPc p := by
  rcases hfetch : P.fetchU16 σ.cpu.privilegedMode σ.mem pc with ⟨error | opcode, mem⟩
  · have hfetch' : P.fetchU16 (attempt pc σ.cpu).privilegedMode σ.mem pc = (.error error, mem) :=
      hfetch
    have hrun : executeWith P H slot pc owner σ =
        (.error (.memory error), ⟨attempt pc σ.cpu, P.addGuestInstructionCycles 1 mem⟩) := by
      unfold executeWith
      rw [bind_run]
      change (fetchDecode P pc >>= _) ⟨attempt pc σ.cpu, σ.mem⟩ = _
      rw [bind_run, fetchDecode]
      simp only [hfetch']
    rw [hrun] at h
    obtain ⟨-, rfl⟩ := Prod.mk.inj h
    exact ⟨σ.cpu.pc, rfl⟩
  · rw [executeWith_run P H slot owner hfetch, bind_run] at h
    rcases chargeCycles_cases P (Sh4.decode opcode) ⟨attempt pc σ.cpu, mem⟩ with
      ⟨what, mem', -, -, hcharge⟩ | ⟨mem', hcharge⟩
    · rw [hcharge] at h
      cases h
    · rw [hcharge] at h
      refine dispatch_fault P H h

/-- The branches with a delay slot, RTE apart. -/
def ownsSlot : Sh4.InstructionKind → Bool
  | .bra | .bsr | .braf | .bsrf | .btS | .bfS | .jmp | .jsr | .rts => true
  | _ => false

def isCall : Sh4.InstructionKind → Bool
  | .bsr | .bsrf | .jsr => true
  | _ => false

/-- A call has set PR when its slot begins. -/
def linked (kind : Sh4.InstructionKind) (pc : BitVec 32) (cpu : CpuState) : CpuState :=
  if isCall kind then { cpu with pr := pc + 4 } else cpu

/-- A call whose slot has raised an exception gives PR back. -/
def unlinked (kind : Sh4.InstructionKind) (pr : BitVec 32) (cpu : CpuState) : CpuState :=
  if isCall kind then { cpu with pr := pr } else cpu

/-- The branch at `σ.cpu.pc` is legal and has come to its slot in the machine. -/
inductive SlotStart (σ : Machine M) : Machine M → Prop
  | intro {opcode : BitVec 16} {mem mem' : M}
    (fetch : P.fetchU16 σ.cpu.privilegedMode σ.mem σ.cpu.pc = (.ok opcode, mem))
    (owns : ownsSlot (Sh4.decode opcode).kind)
    (charge : chargeCycles P (Sh4.decode opcode) ⟨attempt σ.cpu.pc σ.cpu, mem⟩ =
      (.ok (), ⟨attempt σ.cpu.pc σ.cpu, mem'⟩))
    (legal : isIllegal (Sh4.decode opcode) none σ.cpu = false) :
    SlotStart σ ⟨linked (Sh4.decode opcode).kind σ.cpu.pc
      ((attempt σ.cpu.pc σ.cpu).withPc (σ.cpu.pc + 2)), mem'⟩

/-- An access of the instruction at `pc`, or of the slot it owns, throws. -/
inductive Faults (σ : Machine M) (error : MemoryAccessError) : Prop
  | instruction (h : (executeOne P H σ.cpu.pc none σ).1 = .error (.memory error))
  | slot {ρ : Machine M} (start : SlotStart P σ ρ)
    (h : (executeSlot P H (σ.cpu.pc + 2) σ.cpu.pc ρ).1 = .error (.memory error))

/-- What a branch returns when its slot has raised an exception. -/
def slotException : StepResult := ⟨true, .exception, 2, 2⟩

theorem delayThen_fault {target : BitVec 32} {kind : BlockEndKind}
    (h : slot ρ = (.error (.memory e), τ)) : delayThen P slot pc target kind ρ = (.ok slotException,
        { τ with cpu := enterMemoryException P.manualResetSink τ.cpu e (pc + 2) (some pc) }) := by
  have hcatch : executeDelaySlot P slot (pc + 2) pc ρ = (.ok exceptionResult,
      { τ with cpu := enterMemoryException P.manualResetSink τ.cpu e (pc + 2) (some pc) }) := by
    unfold executeDelaySlot Guest.catchMemory
    rw [h]
    rfl
  unfold delayThen
  rw [bind_run, hcatch]
  rfl

theorem callDelayThen_fault {target : BitVec 32}
    (h : slot { ρ with cpu := { ρ.cpu with pr := pc + 4 } } = (.error (.memory e), τ)) :
    callDelayThen P slot pc target ρ = (.ok slotException,
        ⟨{ enterMemoryException P.manualResetSink τ.cpu e (pc + 2) (some pc) with pr := ρ.cpu.pr },
          τ.mem⟩) := by
  unfold callDelayThen
  rw [bind_run, getCpu_run]
  dsimp only
  rw [bind_run, modifyCpu_run]
  dsimp only
  rw [bind_run, delayThen_fault P h]
  rfl

theorem executeInstruction_slot_fault (slot : Guest M StepResult)
    (howns : ownsSlot i.kind) (pc : BitVec 32)
    (h : slot { ρ with cpu := linked i.kind pc ρ.cpu } = (.error (.memory e), τ)) :
    executeInstruction P H slot i pc none ρ = (.ok slotException, ⟨unlinked i.kind ρ.cpu.pr
          (enterMemoryException P.manualResetSink τ.cpu e (pc + 2) (some pc)), τ.mem⟩) := by
  unfold executeInstruction
  rw [bind_run, getCpu_run]
  dsimp only
  generalize hkind : i.kind = kind at *
  cases kind
  case bra =>
    simp only [directBranch, Sh4.calculateDirectBranchTarget, hkind]
    exact delayThen_fault P h
  case bsr =>
    simp only [directBranch, Sh4.calculateDirectBranchTarget, hkind]
    exact callDelayThen_fault P h
  case btS | bfS =>
    simp only [directBranch, Sh4.calculateDirectBranchTarget, hkind]
    split <;> exact delayThen_fault P h
  case bsrf | jsr => exact callDelayThen_fault P h
  case braf | jmp | rts => exact delayThen_fault P h
  all_goals cases howns

theorem executeOne_slot_fault (hstart : SlotStart P σ ρ)
    (h : executeSlot P H (σ.cpu.pc + 2) σ.cpu.pc ρ = (.error (.memory e), τ)) :
    ∃ kind, ρ.cpu = linked kind σ.cpu.pc ((attempt σ.cpu.pc σ.cpu).withPc (σ.cpu.pc + 2)) ∧
      executeOne P H σ.cpu.pc none σ = (.ok slotException,
        ⟨unlinked kind σ.cpu.pr (enterMemoryException P.manualResetSink τ.cpu e (σ.cpu.pc + 2)
          (some σ.cpu.pc)), τ.mem⟩) := by
  obtain ⟨hfetch, howns, hcharge, hlegal⟩ := hstart
  rename_i opcode mem mem'
  refine ⟨(Sh4.decode opcode).kind, rfl, ?_⟩
  have hfpu : isFpuInstruction (Sh4.decode opcode) = false := by
    unfold isFpuInstruction
    generalize (Sh4.decode opcode).kind = kind at howns
    cases kind <;> first | rfl | cases howns
  have hlegal' : isIllegal (Sh4.decode opcode) none (attempt σ.cpu.pc σ.cpu) = false := hlegal
  have hrun := executeInstruction_slot_fault P H (executeSlot P H (σ.cpu.pc + 2) σ.cpu.pc)
    howns σ.cpu.pc (ρ := ⟨(attempt σ.cpu.pc σ.cpu).withPc (σ.cpu.pc + 2), mem'⟩) h
  unfold executeOne
  rw [executeWith_run P H _ none hfetch, bind_run, hcharge]
  dsimp only
  unfold dispatch
  simp only [bind_run, getCpu_run, hlegal', hfpu, Bool.and_false, Bool.false_eq_true, if_false]
  exact hrun

variable {before after : CpuState}

/-- Giving PR back to a precise entry from a call's slot. -/
theorem precise_unlink {kind : Sh4.InstructionKind} (h : Precise (linked kind pc before) after) :
    Precise before (unlinked kind before.pr after) := by
  unfold linked at h
  unfold unlinked
  split at h
  · rename_i hcall
    rw [if_pos hcall]
    obtain ⟨hfr, hxf, -, hgbr, hmach, hmacl, hfpul⟩ := h.kept
    refine ⟨h.spc, h.ssr, ⟨hfr, hxf, rfl, hgbr, hmach, hmacl, hfpul⟩, h.banks, ?_⟩
    have hpr : (returnFromException { after with pr := before.pr }).visible =
        { (returnFromException after).visible with pr := before.pr } := by
      unfold returnFromException CpuState.writeSr
      dsimp only
      split <;> rfl
    rw [hpr, h.resumed]
    rfl
  · rename_i hcall
    rw [if_neg hcall]
    exact h

/-- The counters of an attempt are no registers a program sees. -/
theorem precise_of_attempt {p q : BitVec 32}
    (h : Precise (((attempt pc before).withPc p).withPc q) after) :
    Precise (before.withPc q) after := ⟨h.spc, h.ssr, h.kept, h.banks, h.resumed⟩

theorem linked_withPc (kind : Sh4.InstructionKind) (pc q : BitVec 32) (cpu : CpuState) :
    (linked kind pc cpu).withPc q = linked kind pc (cpu.withPc q) := by
  unfold linked
  split <;> rfl

variable {result : StepResult}

theorem step_of_executeOne
    (h : executeOne P H σ.cpu.pc none σ = (.ok result, τ)) : step P H σ = (.ok result, τ) := by
  unfold step
  rw [bind_run, getCpu_run]
  dsimp only
  unfold Guest.catchMemory
  rw [h]

variable {error : MemoryAccessError}

theorem step_of_fault (h : executeOne P H σ.cpu.pc none σ = (.error (.memory error), τ)) :
    step P H σ = (.ok exceptionResult,
      ⟨enterMemoryException P.manualResetSink τ.cpu error σ.cpu.pc none, τ.mem⟩) := by
  unfold step
  rw [bind_run, getCpu_run]
  dsimp only
  unfold Guest.catchMemory
  rw [h]
  rfl

/-- One round of the loop with a fault: the exception is entered precisely. -/
theorem step_fault (hfault : Faults P H σ error) (hreset : resets σ.cpu error = false) :
    ∃ result τ, step P H σ = (.ok result, τ) ∧ result.controlFlow = true ∧
      result.endKind = .exception ∧ Precise σ.cpu τ.cpu := by
  obtain h | ⟨hstart, h⟩ := hfault
  · obtain ⟨τ, hτ⟩ : ∃ τ, executeOne P H σ.cpu.pc none σ = (.error (.memory error), τ) :=
      ⟨_, Prod.ext h rfl⟩
    obtain ⟨p, hcpu⟩ := executeWith_fault P H hτ
    have hprecise := enterMemoryException_precise P.manualResetSink τ.cpu error σ.cpu.pc none
      (by rw [hcpu]; exact hreset)
    refine ⟨exceptionResult, _, step_of_fault P H hτ, rfl, rfl, ?_⟩
    rw [hcpu] at hprecise ⊢
    exact precise_of_attempt hprecise
  · rename_i ρ
    obtain ⟨τ, hτ⟩ : ∃ τ, executeSlot P H (σ.cpu.pc + 2) σ.cpu.pc ρ = (.error (.memory error), τ) :=
      ⟨_, Prod.ext h rfl⟩
    obtain ⟨kind, hρ, hrun⟩ := executeOne_slot_fault P H hstart hτ
    obtain ⟨p, hcpu⟩ := executeWith_fault P H hτ
    rw [hρ] at hcpu
    have hbits : resets τ.cpu error = resets σ.cpu error := by
      rw [hcpu]
      unfold linked
      split <;> rfl
    have hprecise := enterMemoryException_precise P.manualResetSink τ.cpu error (σ.cpu.pc + 2)
      (some σ.cpu.pc) (hbits.trans hreset)
    refine ⟨slotException, _, step_of_executeOne P H hrun, rfl, rfl, ?_⟩
    rw [hcpu] at hprecise ⊢
    have howner := precise_of_attempt hprecise
    rw [linked_withPc] at howner
    exact precise_of_attempt (precise_unlink howner)

/-! ## The block -/

/-- The machine at the head of the loop after `n` rounds that fell through. -/
def loopHead (attemptsBefore maximumInstructions : BitVec 64) : Nat → Machine M → Option (Machine M)
  | n, σ =>
    if (σ.cpu.attemptedGuestInstructions - attemptsBefore).ult maximumInstructions then
      match n with
      | 0 => some σ
      | n + 1 =>
        match step P H σ with
        | (.ok result, τ) =>
          if result.controlFlow then none
          else loopHead attemptsBefore maximumInstructions n τ
        | (.error _, _) => none
    else none

/-- What the loop does from a head it has come to. -/
theorem blockLoop_head {attemptsBefore maximumInstructions : BitVec 64} {n fuel : Nat}
    {σ₀ : Machine M}
    (h : loopHead P H attemptsBefore maximumInstructions n σ₀ = some σ) (hfuel : n < fuel)
    (hstep : step P H σ = (.ok result, τ)) (hflow : result.controlFlow = true) :
    blockLoop P H attemptsBefore maximumInstructions fuel σ₀ = (.ok result.endKind, τ) := by
  induction n generalizing σ₀ fuel with
  | zero =>
    obtain ⟨fuel, rfl⟩ := Nat.exists_eq_succ_of_ne_zero (Nat.ne_zero_of_lt hfuel)
    unfold loopHead at h
    split at h
    · rename_i hbudget
      cases h
      unfold blockLoop
      rw [bind_run, getCpu_run]
      dsimp only
      rw [if_pos hbudget, bind_run, hstep]
      dsimp only
      rw [if_pos hflow]
      rfl
    · cases h
  | succ n ih =>
    obtain ⟨fuel, rfl⟩ := Nat.exists_eq_succ_of_ne_zero (Nat.ne_zero_of_lt hfuel)
    unfold loopHead at h
    split at h
    · rename_i hbudget
      rcases hround : step P H σ₀ with ⟨_ | round, τ'⟩
      · simp only [hround] at h
        cases h
      · simp only [hround] at h
        split at h
        · cases h
        · rename_i hthrough
          unfold blockLoop
          rw [bind_run, getCpu_run]
          dsimp only
          rw [if_pos hbudget, bind_run, hround]
          dsimp only
          rw [if_neg hthrough]
          exact ih h (Nat.lt_of_succ_lt_succ hfuel)
    · cases h

/-- In every block the interpreter executes, after any number of instructions
that fell through, a memory fault of the next instruction or of the slot it owns
ends the block with a precise exception, unless the fault resets the CPU. -/
theorem memory_fault_precise (maximumInstructions : BitVec 64) (hbudget : maximumInstructions ≠ 0)
    (n fuel : Nat) (hfuel : n < fuel) (σ₀ σ : Machine M)
    (hhead : loopHead P H σ₀.cpu.attemptedGuestInstructions maximumInstructions n σ₀ = some σ)
    (error : MemoryAccessError) (hfault : Faults P H σ error)
    (hreset : resets σ.cpu error = false) :
    ∃ τ, executeDynamicSh4Block P H fuel maximumInstructions σ₀ = (.ok .exception, τ) ∧
      Precise σ.cpu τ.cpu := by
  obtain ⟨result, τ, hstep, hflow, hend, hprecise⟩ := step_fault P H hfault hreset
  refine ⟨τ, ?_, hprecise⟩
  unfold executeDynamicSh4Block
  rw [if_neg hbudget, bind_run, getCpu_run]
  exact hend ▸ blockLoop_head P H hhead hfuel hstep hflow

/-- `MOV.L @R1,R0` behind a NOP, with every data access unmapped. -/
def loadBehindNop : Platform Unit :=
  Platform.answering (fun address => if address = 0 then 0x0009 else 0x6012) (some .unmapped)

theorem memory_fault_precise_load :
    ∃ τ, executeDynamicSh4Block loadBehindNop FpuHelpers.idle 2 8 ⟨{}, ()⟩ = (.ok .exception, τ) ∧
      Precise (step loadBehindNop FpuHelpers.idle ⟨{}, ()⟩).2.cpu τ.cpu :=
  memory_fault_precise loadBehindNop FpuHelpers.idle 8 (by decide) 1 2 (by decide) ⟨{}, ()⟩
    (step loadBehindNop FpuHelpers.idle ⟨{}, ()⟩).2 rfl ⟨.read, .unmapped, 0⟩ (.instruction rfl)
    (by decide)

/-- In user mode the faulting load leaves the other bank's register in R0. -/
theorem memory_fault_banked :
    (executeDynamicSh4Block loadBehindNop FpuHelpers.idle 2 8 ⟨{ r := fun _ => 4 }, ()⟩).1 =
        .ok .exception ∧
      (executeDynamicSh4Block loadBehindNop FpuHelpers.idle 2 8 ⟨{ r := fun _ => 4 }, ()⟩).2.cpu.r
        0 ≠ 4 := ⟨rfl, by decide⟩

end Interpreter

/-! ## The two register banks -/

namespace CpuState
open Interpreter

/-- R0..R7 of one bank, wherever the last write of SR has put them. -/
def bank (cpu : CpuState) (one : Bool) (n : Fin 8) : BitVec 32 :=
  if bankOne cpu.sr = one then cpu.r (n.castAdd 8) else cpu.rBank n

variable (cpu : CpuState) (n : Fin 8) (value : BitVec 32)

theorem bank_writeSr : (cpu.writeSr value).bank = cpu.bank := by
  funext one n
  by_cases h : bankOne cpu.sr = bankOne (value &&& srWritableMask)
  · rw [writeSr_same h]
    unfold bank
    rw [h]
    rfl
  · have hother := Bool.eq_not_of_ne (Ne.symm h)
    rw [writeSr_other h]
    simp only [bank, withSr, swapBanks, hother]
    cases one <;> cases bankOne cpu.sr <;> simp <;> rfl

abbrev BankWrite := Bool × Fin 8 × BitVec 32

def writeBank (banks : Bool → Fin 8 → BitVec 32) (write : BankWrite) : Bool → Fin 8 → BitVec 32 :=
  Function.update banks write.1 (Function.update (banks write.1) write.2.1 write.2.2)

theorem bank_setR : (cpu.setR (n.castAdd 8) value).bank =
      writeBank cpu.bank (bankOne cpu.sr, n, value) := by
  funext one k
  unfold bank setR writeBank
  by_cases hone : one = bankOne cpu.sr
  · by_cases hk : k.val = n <;> simp [hone, hk, Function.update, Fin.ext_iff]
  · simp [hone, Ne.symm hone]

theorem bank_setBank : bank { cpu with rBank := Function.update cpu.rBank n value } =
      writeBank cpu.bank (!bankOne cpu.sr, n, value) := by
  funext one k
  unfold bank writeBank
  by_cases hone : one = bankOne cpu.sr
  · simp [hone]
  · by_cases hk : k = n <;> simp [Bool.eq_not_of_ne hone, hk]

/-- What LDC writes to the bank not selected. -/
def ldcWrites (reg : Sh4.SpecialRegister) : List BankWrite :=
  (bankIndex reg).toList.map fun n => (!bankOne cpu.sr, n, value)

theorem bank_specialWrite {after reg} (h : specialWrite cpu reg value = some after) :
    after.bank = (cpu.ldcWrites value reg).foldl writeBank cpu.bank := by
  cases reg <;> cases h
  case sr => exact bank_writeSr cpu value
  case fpscr =>
    simp only [writeFpscr]
    split <;> rfl
  all_goals first | rfl | exact bank_setBank cpu _ value

variable (sink : Option (CpuState → ManualResetRequest → CpuState)) (start : CpuState)

/-- Runs of register writes, LDC, exception entries and RTE, with what they write to the banks. -/
inductive BankRun : List BankWrite → CpuState → Prop
  | start : BankRun [] start
  | setR {writes cpu} (n value) (h : BankRun writes cpu) :
      BankRun (writes ++ [(bankOne cpu.sr, n, value)]) (cpu.setR (n.castAdd 8) value)
  | ldc {writes cpu after} (reg value) (h : BankRun writes cpu)
      (hwrite : specialWrite cpu reg value = some after) :
      BankRun (writes ++ cpu.ldcWrites value reg) after
  | enter {writes cpu} (request : ExceptionRequest) (h : BankRun writes cpu)
      (hblocked : (!(exceptionMetadata request.cause request.eventCode).interrupt &&
        (exceptionMetadata request.cause request.eventCode).vectorOffset ==
          generalExceptionVector && cpu.readSr &&& srBlMask != 0) = false) :
      BankRun writes (enterException sink cpu request)
  | resume {writes cpu} (h : BankRun writes cpu) : BankRun writes (returnFromException cpu)
  | other {writes cpu after} (h : BankRun writes cpu) (hsr : after.sr = cpu.sr)
      (hr : ∀ n < 8, after.r n = cpu.r n) (hbank : after.rBank = cpu.rBank) : BankRun writes after

variable {sink start}

/-- However often SR moves the banks, each register holds what was last written to it. -/
theorem banks_after_run {writes cpu} (h : BankRun sink start writes cpu) :
    cpu.bank = writes.foldl writeBank start.bank := by
  induction h with
  | start => rfl
  | setR n value _ ih =>
    rw [List.foldl_append, ← ih]
    exact bank_setR ..
  | ldc reg value _ hwrite ih =>
    rw [List.foldl_append, ← ih]
    exact bank_specialWrite _ _ hwrite
  | enter request _ hblocked ih =>
    unfold enterException
    simp only [hblocked, Bool.false_eq_true, if_false]
    exact (bank_writeSr _ _).trans ih
  | resume _ ih => exact (bank_writeSr _ _).trans ih
  | other _ hsr hr hbank ih =>
    funext one n
    rw [← ih, bank, hsr, hr _ n.isLt, hbank]
    rfl

theorem banks_after_run_trap : ∃ cpu, bank cpu =
    [(false, 0, 5), (true, 0, 7), (false, 0, 9)].foldl writeBank (bank {}) :=
  have h : BankRun none {} _ _ :=
    .resume (.ldc .bank0 9 (.setR 0 7 (.enter ⟨.trap, 0, 0, none, false, 0, none⟩
      (.setR 0 5 .start) (by decide))) rfl)
  ⟨_, banks_after_run h⟩

end CpuState
end KatanaRecomp.Runtime
