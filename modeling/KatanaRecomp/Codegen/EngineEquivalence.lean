import KatanaRecomp.Runtime.Restart
import KatanaRecomp.Codegen.EngineAgreement

/-! # Two engines, one instruction

The emitted statement of a lowered instruction and `executeOne` on the opcode
it was lowered from end in the same machine, the program counter and the
attempt counters apart: the interpreter counts and moves `pc` before it looks
at the opcode, the emitted code leaves `pc` to the end of the block. -/
namespace KatanaRecomp.Codegen
open KatanaRecomp.Runtime Ir
open Sh4 (DisassemblyLine DecodedInstruction)

/-! ## What the decoder promises -/

/-- The kinds that `execute_one` handles as control flow. -/
def isControlKind : Sh4.InstructionKind → Bool
  | .trapAlways | .returnFromException | .sleep | .bra | .bsr | .braf | .bsrf | .bt | .bf | .btS
  | .bfS | .jmp | .jsr | .rts => true
  | _ => false

/-- The ways an opcode can be decoded, table by table. -/
theorem decode_cases (opcode : BitVec 16) : (∃ encoding ∈ Sh4.specialRegisterEncodingMetadata,
        (Sh4.decode opcode).kind = encoding.kind ∧
          (Sh4.decode opcode).specialRegister = encoding.specialRegister ∧
          (Sh4.decode opcode).controlFlow = .none) ∨
      (∃ kind ∈ Sh4.fpuKinds, (Sh4.decode opcode).kind = kind ∧
        (Sh4.decode opcode).destinationRegister = (Sh4.fpuOperands kind opcode).1 ∧
        (Sh4.decode opcode).sourceRegister = (Sh4.fpuOperands kind opcode).2 ∧
        (Sh4.decode opcode).isPrivileged = false ∧ (Sh4.decode opcode).controlFlow = .none) ∨
      (∃ kind ∈ Sh4.decodeOrder, Sh4.decode opcode = Sh4.decodeOperands kind opcode) ∨
      Sh4.decode opcode = { opcode := opcode } := by
  unfold Sh4.decode Sh4.decodeSpecialRegisterTransfer Sh4.decodeFpuInstruction
  cases hspecial : Sh4.specialRegisterEncodingMetadata.find? (·.matches opcode) with
  | some encoding => exact .inl ⟨encoding, List.mem_of_find?_eq_some hspecial, rfl, rfl, rfl⟩
  | none =>
    cases hfpu : Sh4.fpuKinds.find? (Sh4.matchesMetadata opcode) with
    | some kind =>
      exact .inr (.inl ⟨kind, List.mem_of_find?_eq_some hfpu, rfl, rfl, rfl, rfl, rfl⟩)
    | none =>
      cases horder : Sh4.decodeOrder.find? (Sh4.matchesMetadata opcode) with
      | some kind => exact .inr (.inr (.inl ⟨kind, List.mem_of_find?_eq_some horder, rfl⟩))
      | none => exact .inr (.inr (.inr rfl))

theorem decodeOperands_kind (kind : Sh4.InstructionKind) (opcode : BitVec 16) :
    (Sh4.decodeOperands kind opcode).kind = kind := by
  cases kind <;> rfl

theorem decodeOperands_controlFlow (kind : Sh4.InstructionKind) (opcode : BitVec 16) :
    (Sh4.decodeOperands kind opcode).changesControlFlow = isControlKind kind := by
  cases kind <;> rfl

theorem specialEncoding_transferable : ∀ encoding ∈ Sh4.specialRegisterEncodingMetadata,
      transferableSpecial encoding.kind encoding.specialRegister = true ∧
        isControlKind encoding.kind = false := by
  decide

def isSpecialTransfer : Sh4.InstructionKind → Bool
  | .storeSpecialRegister | .storeSpecialRegisterPreDecrement | .loadSpecialRegister
  | .loadSpecialRegisterPostIncrement => true
  | _ => false

theorem transferableSpecial_of_not_transfer {kind : Sh4.InstructionKind}
    (h : isSpecialTransfer kind = false) (reg : Sh4.SpecialRegister) :
    transferableSpecial kind reg := by
  cases kind <;> first | rfl | cases h

theorem fpuKinds_plain :
    ∀ kind ∈ Sh4.fpuKinds, isControlKind kind = false ∧ isSpecialTransfer kind = false := by
  decide

set_option maxRecDepth 2000 in
theorem decodeOrder_plain : ∀ kind ∈ Sh4.decodeOrder, isSpecialTransfer kind = false := by
  decide

theorem decode_controlKind (opcode : BitVec 16) :
    (Sh4.decode opcode).changesControlFlow = isControlKind (Sh4.decode opcode).kind := by
  rcases decode_cases opcode with ⟨encoding, hmem, hkind, -, hflow⟩ | ⟨kind, hmem, hkind, -, -, -, hflow⟩ |
    ⟨kind, -, heq⟩ | heq
  · rw [DecodedInstruction.changesControlFlow, hflow, hkind,
      (specialEncoding_transferable encoding hmem).2]
    rfl
  · rw [DecodedInstruction.changesControlFlow, hflow, hkind, (fpuKinds_plain kind hmem).1]
    rfl
  · rw [heq, decodeOperands_controlFlow, decodeOperands_kind]
  · rw [heq]
    rfl

theorem decode_transferable (opcode : BitVec 16) :
    transferableSpecial (Sh4.decode opcode).kind (Sh4.decode opcode).specialRegister := by
  rcases decode_cases opcode with ⟨encoding, hmem, hkind, hreg, -⟩ | ⟨kind, hmem, hkind, -⟩ |
    ⟨kind, hmem, heq⟩ | heq
  · rw [hkind, hreg]
    exact (specialEncoding_transferable encoding hmem).1
  · rw [hkind]
    exact transferableSpecial_of_not_transfer (fpuKinds_plain kind hmem).2 _
  · rw [heq, decodeOperands_kind]
    exact transferableSpecial_of_not_transfer (decodeOrder_plain kind hmem) _
  · rw [heq]
    rfl

/-! ## The statement of an instruction -/

section
variable {M : Type} (P : Platform M) (H : FpuHelpers) (delta : BitVec 32) (line : DisassemblyLine)

/-- The step result as the emitted code shows it: an early return or not. -/
def raised (result : StepResult) : Bool := result.endKind == .exception

theorem executeInstruction_data (slot : Guest M StepResult) {i : DecodedInstruction}
    (hknown : i.isKnown) (hflow : isControlKind i.kind = false) (pc : BitVec 32)
    (owner : Option (BitVec 32)) : Interpreter.executeInstruction P H slot i pc owner =
      Interpreter.executeData P H i pc owner := by
  have hunknown : i.kind ≠ .unknown := by simpa [DecodedInstruction.isKnown] using hknown
  unfold Interpreter.executeInstruction
  generalize i.kind = kind at hflow hunknown
  cases kind <;> first | exact absurd rfl hunknown | (cases hflow; done) | rfl

theorem callRaising_raised (c : FpuHelperCall) :
    raised <$> (Interpreter.callRaising H c : Guest M StepResult) = H.call c := by
  funext σ
  rw [Interpreter.callRaising, map_bind, Guest.bind_run]
  simp only [FpuHelpers.call]
  cases (H.run c σ.cpu).1 <;> rfl

/-- FTRC apart, the FPU statements of the two engines are the same. -/
theorem fpuStatement_lowered (hdelta : alignsPc line.instruction.kind → delta &&& 3 = 0) (owner : Option (BitVec 32))
    (hftrc : line.instruction.kind = .ftrc →
      line.instruction.sourceRegister = line.instruction.destinationRegister) :
    fpuStatement H delta (lowerInstruction line) owner =
      raised <$> (Interpreter.executeFpu H line.instruction (line.address + delta) owner :
        Guest M StepResult) := by
  have hregister : (Guest.modifyCpu (registerStatement delta (lowerInstruction line)) >>= fun _ =>
          pure false : Guest M Bool) = raised <$> (Guest.modifyCpu
            (Interpreter.executeRegister line.instruction (line.address + delta)) >>= fun _ =>
          pure {} : Guest M StepResult) := by
    rw [funext (registerStatement_lowered delta line hdelta)]
    rfl
  unfold fpuStatement Interpreter.executeFpu
  simp only [lowered_destination, lowered_source, lowered_operation]
  generalize hk : line.instruction.kind = kind at *
  cases kind
  case ftrc =>
    rw [hftrc rfl]
    rfl
  case fadd | fsub | fmul | fdiv | fsqrt | fsrra | fsca => exact (callRaising_raised H _).symm
  all_goals first
    | rfl
    | exact hregister

/-- The statement of a lowered data instruction: the interpreter's accesses, or
the emitter's own FPU and register statements. -/
def lineStatement : Guest M Bool :=
  match Interpreter.executeMemory P line.instruction (line.address + delta) with
  | some program => do
    program
    return false
  | none => fpuStatement H delta (lowerInstruction line) (slotOwner delta (lowerInstruction line))

section
variable (hdelta : alignsPc line.instruction.kind → delta &&& 3 = 0)
include hdelta

/-- The emitter prints a statement for every decoded data instruction. -/
theorem emitSimpleInstructionRaw_ok
    (hline : line.instruction = Sh4.decode line.opcode) (hknown : line.instruction.isKnown)
    (hflow : line.instruction.changesControlFlow = false) :
    emitSimpleInstructionRaw P H delta (lowerInstruction line) =
      .ok (lineStatement P H delta line) := by
  have hkind : isControlKind line.instruction.kind = false := by
    rw [hline, ← decode_controlKind, ← hline]
    exact hflow
  have hunknown : line.instruction.kind ≠ .unknown := by
    simpa [DecodedInstruction.isKnown] using hknown
  have hspecial : transferableSpecial line.instruction.kind line.instruction.specialRegister := by
    rw [hline]
    exact decode_transferable line.opcode
  have hcontrol : isControlFlow (lowerInstruction line).operation = false := by
    rw [lowered_operation]
    generalize line.instruction.kind = kind at hkind
    cases kind <;> first | rfl | cases hkind
  have hop : (lowerInstruction line).operation ≠ .unknown := by
    rw [lowered_operation]
    generalize line.instruction.kind = kind at hunknown
    cases kind <;> first | exact absurd rfl hunknown | exact Operation.noConfusion
  unfold emitSimpleInstructionRaw lineStatement
  simp only [hcontrol, hop, Bool.false_eq_true, if_false]
  rw [memoryStatement_lowered P delta line hdelta hspecial]
  cases Interpreter.executeMemory P line.instruction (line.address + delta) <;> rfl

/-- Apart from an FTRC that names a register, it is the interpreter's program. -/
theorem lineStatement_eq (hftrc : line.instruction.kind = .ftrc →
      line.instruction.sourceRegister = line.instruction.destinationRegister) :
    lineStatement P H delta line =
      raised <$> Interpreter.executeData P H line.instruction (line.address + delta)
        (slotOwner delta (lowerInstruction line)) := by
  unfold lineStatement Interpreter.executeData
  cases Interpreter.executeMemory P line.instruction (line.address + delta) with
  | some program =>
    rw [map_bind]
    rfl
  | none => exact fpuStatement_lowered H delta line hdelta _ hftrc

end
end

/-! ## One whole instruction -/

/-- The machine without what the two engines account for at different moments:
the program counter and the counters of the attempt. -/
def architectural {M : Type} (σ : Machine M) : Machine M :=
  { σ with cpu := { σ.cpu with pc := 0, attemptedGuestInstructions := 0, activeInstructionPc := 0 } }

theorem architectural_of_erasePc {M : Type} {σ σ' : Machine M} (h : σ.erasePc = σ'.erasePc) :
    architectural σ = architectural σ' := by
  rw [Machine.eq_withPc h]
  rfl

/-- An emitted program and the interpreter end alike: the same fault, or both
or neither with an exception entered, in the same architectural machine. -/
structure Agrees {M : Type} (emitted : Except Fault Bool × Machine M)
    (interpreted : Except Fault StepResult × Machine M) : Prop where
  outcome : emitted.1 = interpreted.1.map raised
  machine : architectural emitted.2 = architectural interpreted.2

section
variable {M : Type} (P : Platform M) (H : FpuHelpers) (delta : BitVec 32) (line : DisassemblyLine)

/-- The guards and the statement of an emitted instruction. -/
def guarded (i : Instruction) (statement : Guest M Bool) : Guest M Bool := do
  let cpu ← Guest.getCpu
  match guardException P delta i cpu with
  | some raised => do
    Guest.modifyCpu fun _ => raised
    return true
  | none => statement

variable {ρ : Machine M}

theorem guarded_some {i : Instruction} (statement : Guest M Bool) {cpu : CpuState}
    (h : guardException P delta i ρ.cpu = some cpu) :
    guarded P delta i statement ρ = (.ok true, { ρ with cpu := cpu }) := by
  unfold guarded
  simp only [Guest.bind_run, Guest.getCpu_run, h]
  rfl

theorem guarded_none {i : Instruction} (statement : Guest M Bool)
    (h : guardException P delta i ρ.cpu = none) : guarded P delta i statement ρ = statement ρ := by
  unfold guarded
  simp only [Guest.bind_run, Guest.getCpu_run, h]

/-- Both engines charge the same cycles: the flush in front of them fails in
both, or both go on from one machine. -/
theorem prologue_cases {σ : Machine M} {mem : M} (hline : line.instruction = Sh4.decode line.opcode)
    (hfetch : P.fetchU16 σ.cpu.privilegedMode σ.mem (line.address + delta) =
      (.ok line.opcode, mem)) :
    (∃ e τ τ', (∃ what, (P.flushPendingGuestCycles mem).1 = .error what) ∧
      architectural τ = architectural τ' ∧
      (∀ k : Unit → Guest M Bool, (instructionPrologue P delta (lowerInstruction line) >>= k)
        { σ with mem := mem } = (.error e, τ)) ∧
      ∀ slot owner, Interpreter.executeWith P H slot (line.address + delta) owner σ =
        (.error e, τ')) ∨ ∃ ρ, ρ.cpu = Interpreter.attempt (line.address + delta) σ.cpu ∧
      (∀ k : Unit → Guest M Bool, (instructionPrologue P delta (lowerInstruction line) >>= k)
        { σ with mem := mem } = k () ρ) ∧
      ∀ slot owner, Interpreter.executeWith P H slot (line.address + delta) owner σ =
        Interpreter.dispatch P H slot line.instruction (line.address + delta) owner ρ := by
  have htiming : Sh4.opcodeTiming (lowerInstruction line).originalOpcode =
      Sh4.instructionTiming line.instruction := by
    rw [hline]
    rfl
  have hrun (slot : Guest M StepResult) (owner : Option (BitVec 32)) :=
    Interpreter.executeWith_run P H slot owner hfetch
  rw [← hline] at hrun
  unfold instructionPrologue
  rw [htiming]
  unfold Interpreter.chargeCycles at hrun
  dsimp only at hrun ⊢
  cases hrequires : (Sh4.instructionTiming line.instruction).requiresCycleFlush with
  | false =>
    refine .inr ⟨⟨Interpreter.attempt (line.address + delta) σ.cpu,
      P.addGuestInstructionCycles _ mem⟩, rfl, fun _ => rfl, fun slot owner => ?_⟩
    rw [hrun slot owner, hrequires]
    rfl
  | true =>
    simp only [hrequires, if_true] at hrun
    rcases hflush : P.flushPendingGuestCycles mem with ⟨e | ⟨⟩, mem'⟩
    · refine .inl ⟨.host e, ⟨σ.cpu, mem'⟩,
        ⟨Interpreter.attempt (line.address + delta) σ.cpu, mem'⟩, ⟨e, rfl⟩, rfl,
        fun k => ?_, fun slot owner => ?_⟩
      · simp [Guest.host, hflush, Except.mapError]
      · simp [hrun, Guest.host, hflush, Except.mapError]
    · refine .inr ⟨⟨Interpreter.attempt (line.address + delta) σ.cpu,
        P.addGuestInstructionCycles (Sh4.instructionTiming line.instruction).guestCycles mem'⟩,
        rfl, fun k => ?_, fun slot owner => ?_⟩
      · simp [Guest.host, hflush, Except.mapError]
        rfl
      · simp [hrun, Guest.host, hflush, Except.mapError]

theorem executeData_blind (i : DecodedInstruction) (pc : BitVec 32) (owner : Option (BitVec 32)) :
    Guest.PcBlind (Interpreter.executeData P H i pc owner) := by
  unfold Interpreter.executeData
  cases hprogram : Interpreter.executeMemory P i pc with
  | some program =>
    exact (executeMemory_restartable P i pc program hprogram).blind.bind fun _ => .pure _
  | none => exact (executeFpu_commits H i pc owner).blind

theorem fpuDisabled_eq (cpu : CpuState) : cpu.fpuDisabled = (cpu.sr &&& srFdMask != 0) := by
  have hand (x y : BitVec 32) (hy : y &&& srFdMask = 0) :
      (x ||| y) &&& srFdMask = x &&& srFdMask := by
    rw [BitVec.and_or_distrib_right, hy]
    exact BitVec.or_zero
  have hflag (mask : BitVec 32) (b : Bool) (hmask : mask &&& srFdMask = 0) :
      CpuState.flag mask b &&& srFdMask = 0 := by
    cases b
    · exact BitVec.zero_and
    · exact hmask
  unfold CpuState.fpuDisabled CpuState.readSr
  rw [hand _ _ (hflag _ _ (by decide)), hand _ _ (hflag _ _ (by decide)),
    hand _ _ (hflag _ _ (by decide)), hand _ _ (hflag _ _ (by decide)), BitVec.and_assoc]
  rfl

theorem isFpuOperation_lowered :
    isFpuOperation (lowerInstruction line) = Interpreter.isFpuInstruction line.instruction := by
  unfold isFpuOperation Interpreter.isFpuInstruction
  rw [lowered_operation, lowered_specialRegister]
  generalize line.instruction.kind = kind
  generalize line.instruction.specialRegister = register
  cases kind <;> first | rfl | (cases register <;> rfl)

/-- The FPU is disabled and the instruction needs it. -/
def fpuBlocked (i : DecodedInstruction) (cpu : CpuState) : Bool :=
  Interpreter.isFpuInstruction i && cpu.sr &&& srFdMask != 0

/-- An instruction no guard of the interpreter stops runs with `pc` moved on. -/
theorem dispatch_eq_executeData (slot : Guest M StepResult) {i : DecodedInstruction}
    (hknown : i.isKnown) (hkind : isControlKind i.kind = false) {pc : BitVec 32}
    {owner : Option (BitVec 32)}
    (hlegal : Interpreter.isIllegal i owner ρ.cpu = false) (hfd : fpuBlocked i ρ.cpu = false) :
    Interpreter.dispatch P H slot i pc owner ρ =
      Interpreter.executeData P H i pc owner { ρ with cpu := ρ.cpu.withPc (pc + 2) } := by
  have hblocked : (ρ.cpu.fpuDisabled && Interpreter.isFpuInstruction i) = false := by
    rw [fpuDisabled_eq, Bool.and_comm]
    exact hfd
  unfold Interpreter.dispatch
  simp only [Guest.bind_run, Guest.getCpu_run, hlegal, hblocked, Bool.false_eq_true, if_false,
    executeInstruction_data P H slot hknown hkind]
  rfl

/-- Behind the privilege and the FPU-disable guards, which both engines have, a
statement is reached that has to agree where the mode guard stays silent. -/
theorem guarded_agrees (slot : Guest M StepResult) (statement : Guest M Bool)
    (hline : line.instruction = Sh4.decode line.opcode) (hknown : line.instruction.isKnown)
    (hflow : line.instruction.changesControlFlow = false)
    (hstatement : fpuBlocked line.instruction ρ.cpu = false →
      fpuModeInvalid (lowerInstruction line) ρ.cpu.fpscr = false ∧
        statement = raised <$> Interpreter.executeData P H line.instruction (line.address + delta)
          (slotOwner delta (lowerInstruction line))) :
    Agrees (guarded P delta (lowerInstruction line) statement ρ)
      (Interpreter.dispatch P H slot line.instruction (line.address + delta)
        (slotOwner delta (lowerInstruction line)) ρ) := by
  have hkind : isControlKind line.instruction.kind = false := by
    rw [hline, ← decode_controlKind, ← hline]
    exact hflow
  have hillegal : Interpreter.isIllegal line.instruction (slotOwner delta (lowerInstruction line))
      ρ.cpu = ((lowerInstruction line).isPrivileged && !ρ.cpu.privilegedMode) := by
    simp [Interpreter.isIllegal, hknown, hflow, lowerInstruction]
  have hblocked : (ρ.cpu.fpuDisabled && Interpreter.isFpuInstruction line.instruction) =
      fpuBlocked line.instruction ρ.cpu := by
    rw [fpuDisabled_eq, Bool.and_comm]
    rfl
  have hblocked' : (isFpuOperation (lowerInstruction line) && ρ.cpu.sr &&& srFdMask != 0) =
      fpuBlocked line.instruction ρ.cpu := by
    rw [isFpuOperation_lowered]
    rfl
  cases hprivileged : ((lowerInstruction line).isPrivileged && !ρ.cpu.privilegedMode) with
  | true =>
    rw [guarded_some P delta statement (by rw [guardException, hprivileged, if_pos rfl])]
    unfold Interpreter.dispatch
    simp only [Guest.bind_run, Guest.getCpu_run, hillegal, hprivileged, if_true]
    exact ⟨rfl, rfl⟩
  | false =>
  cases hfd : fpuBlocked line.instruction ρ.cpu with
  | true =>
    rw [guarded_some P delta statement (by
      rw [guardException, hprivileged, hblocked', hfd, if_neg Bool.false_ne_true, if_pos rfl])]
    unfold Interpreter.dispatch
    simp only [Guest.bind_run, Guest.getCpu_run, hillegal, hprivileged, hblocked, hfd, if_true]
    exact ⟨rfl, rfl⟩
  | false =>
    obtain ⟨hmode, heq⟩ := hstatement hfd
    rw [dispatch_eq_executeData P H slot hknown hkind (hillegal.trans hprivileged) hfd,
      guarded_none P delta statement (by
        rw [guardException, hprivileged, hblocked', hfd, hmode]
        rfl), heq]
    -- the interpreter has moved `pc` on already
    obtain ⟨hresult, hmachine⟩ := executeData_blind P H line.instruction (line.address + delta)
      (slotOwner delta (lowerInstruction line)) ρ
      { ρ with cpu := ρ.cpu.withPc (line.address + delta + 2) } rfl
    have hmap := Guest.map_run raised (Interpreter.executeData P H line.instruction
      (line.address + delta) (slotOwner delta (lowerInstruction line))) ρ
    refine ⟨?_, ?_⟩
    · exact (congrArg Prod.fst hmap).trans (congrArg (Except.map raised) hresult)
    · exact (congrArg (fun x => architectural x.2) hmap).trans (architectural_of_erasePc hmachine)

/-- The emitted code of a line, as its prologue, guards and statement. -/
theorem emitGuardedSimpleInstruction_eq {statement : Guest M Bool}
    (h : emitSimpleInstructionRaw P H delta (lowerInstruction line) = .ok statement) :
    emitGuardedSimpleInstruction P H delta (lowerInstruction line) =
      .ok (instructionPrologue P delta (lowerInstruction line) >>= fun _ =>
        guarded P delta (lowerInstruction line) statement) := by
  unfold emitGuardedSimpleInstruction
  rw [h]
  rfl

/-- The emitted code of a line and the interpreter at its address, on the
machine the fetch leaves. -/
theorem emitGuardedSimpleInstruction_agrees
    (hdelta : alignsPc line.instruction.kind → delta &&& 3 = 0)
    (hline : line.instruction = Sh4.decode line.opcode) (hknown : line.instruction.isKnown)
    (hflow : line.instruction.changesControlFlow = false) {σ : Machine M} {mem : M}
    (hfetch : P.fetchU16 σ.cpu.privilegedMode σ.mem (line.address + delta) = (.ok line.opcode, mem))
    (hstatement : fpuBlocked line.instruction σ.cpu = false →
      fpuModeInvalid (lowerInstruction line) σ.cpu.fpscr = false ∧ (line.instruction.kind = .ftrc →
          line.instruction.sourceRegister = line.instruction.destinationRegister)) :
    ∃ program, emitGuardedSimpleInstruction P H delta (lowerInstruction line) = .ok program ∧
      Agrees (program { σ with mem := mem }) (Interpreter.executeOne P H (line.address + delta)
          (slotOwner delta (lowerInstruction line)) σ) := by
  refine ⟨_, emitGuardedSimpleInstruction_eq P H delta line
    (emitSimpleInstructionRaw_ok P H delta line hdelta hline hknown hflow), ?_⟩
  unfold Interpreter.executeOne
  rcases prologue_cases P H delta line hline hfetch with
    ⟨e, τ, τ', -, hmachine, hemitted, hinterpreted⟩ | ⟨ρ, hcpu, hemitted, hinterpreted⟩
  · rw [hemitted, hinterpreted]
    exact ⟨rfl, hmachine⟩
  · rw [hemitted, hinterpreted]
    refine guarded_agrees P H delta line _ _ hline hknown hflow fun hfd => ?_
    rw [hcpu] at hfd ⊢
    obtain ⟨hmode, hftrc⟩ := hstatement hfd
    exact ⟨hmode, lineStatement_eq P H delta line hdelta hftrc⟩

end

/-! ## The integer instructions -/

theorem fpuModeInvalid_integer {line : DisassemblyLine}
    (hinteger : line.instruction.kind ∉ Sh4.fpuKinds) (fpscr : BitVec 32) :
    fpuModeInvalid (lowerInstruction line) fpscr = false := by
  unfold fpuModeInvalid
  rw [lowered_operation]
  generalize line.instruction.kind = kind at hinteger
  cases kind <;> first | rfl | exact absurd (by decide) hinteger

/-- On the integer instructions the two engines agree from every machine: the
guarded statement of the lowered line ends as `executeOne` does. The platform is
arbitrary, so agreement on it is agreement on the accesses and on their order. -/
theorem integer_engines_agree {M : Type} (P : Platform M) (H : FpuHelpers) (delta : BitVec 32)
    (line : DisassemblyLine) (hdelta : alignsPc line.instruction.kind → delta &&& 3 = 0)
    (hline : line.instruction = Sh4.decode line.opcode) (hknown : line.instruction.isKnown)
    (hflow : line.instruction.changesControlFlow = false)
    (hinteger : line.instruction.kind ∉ Sh4.fpuKinds) (σ : Machine M) (mem : M)
    (hfetch : P.fetchU16 σ.cpu.privilegedMode σ.mem (line.address + delta) =
      (.ok line.opcode, mem)) :
    ∃ program, emitGuardedSimpleInstruction P H delta (lowerInstruction line) = .ok program ∧
      Agrees (program { σ with mem := mem }) (Interpreter.executeOne P H (line.address + delta)
          (slotOwner delta (lowerInstruction line)) σ) := by
  refine emitGuardedSimpleInstruction_agrees P H delta line hdelta hline hknown hflow hfetch
    fun _ => ⟨fpuModeInvalid_integer hinteger _, fun hftrc => ?_⟩
  exact absurd (hftrc ▸ by decide) hinteger

/-- `LDC R1,VBR`. -/
def loadVbrLine : DisassemblyLine := { address := 0, opcode := 0x412E, instruction := Sh4.decode 0x412E }

theorem integer_engines_agree_loadVbr :
    ∃ program, emitGuardedSimpleInstruction (Platform.answering (fun _ => 0x412E) none)
        FpuHelpers.idle 0 (lowerInstruction loadVbrLine) = .ok program ∧
      Agrees (program ⟨{ sr := srMdMask }, ()⟩)
        (Interpreter.executeOne (Platform.answering (fun _ => 0x412E) none) FpuHelpers.idle 0
          none ⟨{ sr := srMdMask }, ()⟩) :=
  integer_engines_agree (Platform.answering (fun _ => 0x412E) none) FpuHelpers.idle 0
    loadVbrLine (fun _ => rfl) rfl (by decide) (by decide) (by decide) ⟨{ sr := srMdMask }, ()⟩ () rfl

/-- The bare statement does not check the privilege the instruction needs. -/
theorem raw_statement_unprivileged :
    ∃ program, emitSimpleInstructionRaw (Platform.answering (fun _ => 0x412E) none)
        FpuHelpers.idle 0 (lowerInstruction loadVbrLine) = .ok program ∧
      (program ⟨{ r := fun _ => 4 }, ()⟩).2.cpu.vbr ≠
        (Interpreter.executeOne (Platform.answering (fun _ => 0x412E) none) FpuHelpers.idle 0
          none ⟨{ r := fun _ => 4 }, ()⟩).2.cpu.vbr := ⟨_, rfl, by decide⟩

end KatanaRecomp.Codegen
