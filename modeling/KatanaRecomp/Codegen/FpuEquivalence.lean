import KatanaRecomp.Codegen.EngineEquivalence

/-! # The FPU instructions in the two engines

The emitted code checks the PR, SZ and rounding modes an FPU instruction needs
and `executeOne` does not; and `executeOne` takes the operand of FTRC from the
field the decoder leaves at zero. Where neither matters the engines agree. -/
namespace KatanaRecomp.Codegen
open KatanaRecomp.Runtime Ir
open Sh4 (DisassemblyLine DecodedInstruction)

/-! ## Decoded FPU instructions -/

theorem fpuKinds_decoded : ∀ kind ∈ Sh4.fpuKinds, kind ≠ .unknown ∧
      (∀ encoding ∈ Sh4.specialRegisterEncodingMetadata, encoding.kind ≠ kind) ∧
      kind ∉ Sh4.decodeOrder := by
  decide +kernel

/-- An FPU kind comes from the FPU table, operands and all. -/
theorem decode_fpu {opcode : BitVec 16} (h : (Sh4.decode opcode).kind ∈ Sh4.fpuKinds) :
    (Sh4.decode opcode).isKnown ∧ (Sh4.decode opcode).changesControlFlow = false ∧
      (Sh4.decode opcode).isPrivileged = false ∧ (Sh4.decode opcode).destinationRegister =
        (Sh4.fpuOperands (Sh4.decode opcode).kind opcode).1 ∧ (Sh4.decode opcode).sourceRegister =
        (Sh4.fpuOperands (Sh4.decode opcode).kind opcode).2 := by
  obtain ⟨hunknown, hspecial, horder⟩ := fpuKinds_decoded _ h
  rcases decode_cases opcode with ⟨encoding, hmem, hkind, -⟩ |
    ⟨kind, hmem, hkind, hdestination, hsource, hprivileged, hflow⟩ | ⟨kind, hmem, heq⟩ | heq
  · exact absurd hkind.symm (hspecial encoding hmem)
  · refine ⟨?_, ?_, hprivileged, hkind ▸ hdestination, hkind ▸ hsource⟩
    · simpa [DecodedInstruction.isKnown] using hunknown
    · rw [DecodedInstruction.changesControlFlow, hflow]
      rfl
  · rw [heq, decodeOperands_kind] at horder
    exact absurd hmem horder
  · rw [heq] at hunknown
    exact absurd rfl hunknown

variable {i : DecodedInstruction}

theorem isFpuInstruction_of_mem (h : i.kind ∈ Sh4.fpuKinds) :
    Interpreter.isFpuInstruction i = true := by
  have hall : ∀ kind ∈ Sh4.fpuKinds, ∀ register,
      Interpreter.isFpuInstruction { kind := kind, specialRegister := register } = true := by
    intro kind hkind register
    fin_cases hkind <;> rfl
  exact hall i.kind h i.specialRegister

theorem fpu_alignsPc {delta : BitVec 32} (h : i.kind ∈ Sh4.fpuKinds)
    (haligns : alignsPc i.kind) : delta &&& 3 = 0 := by
  have hnone : ∀ kind ∈ Sh4.fpuKinds, alignsPc kind = false := by decide
  rw [hnone _ h] at haligns
  cases haligns

/-! ## Where the engines agree -/

/-- From registers `cpu` the two engines agree on the line, whatever the
platform and whatever the arithmetic helpers compute. -/
def EnginesAgree (delta : BitVec 32) (line : DisassemblyLine) (cpu : CpuState) : Prop :=
  ∀ (M : Type) (P : Platform M) (H : FpuHelpers) (mem mem' : M),
    P.fetchU16 cpu.privilegedMode mem (line.address + delta) = (.ok line.opcode, mem') →
      ∃ program, emitGuardedSimpleInstruction P H delta (lowerInstruction line) = .ok program ∧
        Agrees (program ⟨cpu, mem'⟩) (Interpreter.executeOne P H (line.address + delta)
            (slotOwner delta (lowerInstruction line)) ⟨cpu, mem⟩)

/-- The operand of FTRC as the instruction set encodes it. -/
def truncatesNamedRegister (line : DisassemblyLine) : Bool :=
  line.instruction.kind == .ftrc && Sh4.fieldN line.opcode != 0

section
variable (delta : BitVec 32) {line : DisassemblyLine}
  (hline : line.instruction = Sh4.decode line.opcode) (hfpu : line.instruction.kind ∈ Sh4.fpuKinds)

include hline hfpu

theorem ftrc_operands (hftrc : line.instruction.kind = .ftrc) :
    line.instruction.destinationRegister = 0 ∧
      line.instruction.sourceRegister = Sh4.fieldN line.opcode := by
  obtain ⟨-, -, -, hdestination, hsource⟩ := decode_fpu (hline ▸ hfpu)
  rw [← hline, hftrc] at hdestination hsource
  exact ⟨hdestination, hsource⟩

omit hline in
theorem fpuBlocked_eq (cpu : CpuState) :
    fpuBlocked line.instruction cpu = (cpu.sr &&& srFdMask != 0) := by
  rw [fpuBlocked, isFpuInstruction_of_mem hfpu, Bool.true_and]

/-- Agreement of the two engines on a platform that answers every access, from
registers that leave the FPU enabled: the guarded statement against the
interpreter's program. -/
theorem EnginesAgree.enabled {cpu : CpuState} (h : EnginesAgree delta line cpu)
    (hfd : cpu.sr &&& srFdMask = 0) (H : FpuHelpers) :
    ∃ ρ : Machine Unit, ρ.cpu = Interpreter.attempt (line.address + delta) cpu ∧ Agrees
        (guarded (Platform.answering (fun _ => line.opcode) none) delta (lowerInstruction line)
          (lineStatement (Platform.answering (fun _ => line.opcode) none) H delta line) ρ)
        (Interpreter.executeData (Platform.answering (fun _ => line.opcode) none) H
          line.instruction (line.address + delta) (slotOwner delta (lowerInstruction line))
          { ρ with cpu := ρ.cpu.withPc (line.address + delta + 2) }) := by
  obtain ⟨hknown, hflow, hprivileged, -, -⟩ := decode_fpu (hline ▸ hfpu)
  rw [← hline] at hknown hflow hprivileged
  have hkind : isControlKind line.instruction.kind = false := by
    rw [hline, ← decode_controlKind, ← hline]
    exact hflow
  obtain ⟨program, hprogram, hagrees⟩ :=
    h Unit (Platform.answering (fun _ => line.opcode) none) H () () rfl
  rw [emitGuardedSimpleInstruction_eq _ H delta line
    (emitSimpleInstructionRaw_ok _ H delta line (fpu_alignsPc hfpu) hline hknown hflow)] at hprogram
  cases hprogram
  have hfetch : (Platform.answering (fun _ => line.opcode) none).fetchU16 cpu.privilegedMode ()
      (line.address + delta) = (.ok line.opcode, ()) := rfl
  rcases prologue_cases (Platform.answering (fun _ => line.opcode) none) H delta line
      (σ := ⟨cpu, ()⟩) hline hfetch with
    ⟨-, -, -, ⟨what, hflush⟩, -⟩ | ⟨ρ, hcpu, hemitted, hinterpreted⟩
  · cases hflush
  · refine ⟨ρ, hcpu, ?_⟩
    have hlegal : Interpreter.isIllegal line.instruction
        (slotOwner delta (lowerInstruction line)) ρ.cpu = false := by
      simp [Interpreter.isIllegal, hknown, hflow, hprivileged]
    have hunblocked : fpuBlocked line.instruction ρ.cpu = false := by
      rw [fpuBlocked_eq hfpu, hcpu]
      simp [Interpreter.attempt, hfd]
    rw [hemitted, Interpreter.executeOne, hinterpreted,
      dispatch_eq_executeData _ H _ hknown hkind hlegal hunblocked] at hagrees
    exact hagrees

end

/-- Helpers that leave behind which register they were to truncate. -/
def FpuHelpers.naming : FpuHelpers where
  run call cpu :=
    match call with
    | .truncateToFpul source => (false, { cpu with fpul := BitVec.ofNat 32 source.val })
    | _ => (false, cpu)
  ignoresPc call _ _ := by
    cases call <;> exact ⟨rfl, rfl⟩

theorem executeFpu_idle {M : Type} (i : DecodedInstruction) (pc : BitVec 32)
    (owner : Option (BitVec 32)) (σ : Machine M) :
    ((Interpreter.executeFpu FpuHelpers.idle i pc owner : Guest M StepResult) σ).1 = .ok {} := by
  unfold Interpreter.executeFpu
  generalize i.kind = kind
  cases kind <;> rfl

/-- With helpers that raise nothing, an instruction of the interpreter ends
without an exception. -/
theorem executeData_idle {M : Type} (P : Platform M) (i : DecodedInstruction) (pc : BitVec 32)
    (owner : Option (BitVec 32)) (σ : Machine M) :
    (Interpreter.executeData P FpuHelpers.idle i pc owner σ).1.map raised ≠ .ok true := by
  cases hprogram : Interpreter.executeMemory P i pc with
  | none =>
    have heq : Interpreter.executeData P FpuHelpers.idle i pc owner =
        Interpreter.executeFpu FpuHelpers.idle i pc owner := by
      rw [Interpreter.executeData, hprogram]
    rw [heq, executeFpu_idle]
    exact fun h => nomatch h
  | some program =>
    have heq : Interpreter.executeData P FpuHelpers.idle i pc owner =
        program >>= fun _ => pure {} := by
      rw [Interpreter.executeData, hprogram]
    rw [heq, Guest.bind_run]
    rcases program σ with ⟨_ | _, _⟩ <;> exact fun h => nomatch h

section
variable {M : Type} (P : Platform M) (H : FpuHelpers)

theorem executeMemory_ftrc (h : i.kind = .ftrc) (pc : BitVec 32) :
    Interpreter.executeMemory P i pc = none := by
  unfold Interpreter.executeMemory
  rw [h]

theorem executeData_ftrc (h : i.kind = .ftrc) (pc : BitVec 32)
    (owner : Option (BitVec 32)) : Interpreter.executeData P H i pc owner =
      Interpreter.callFpu H (.truncateToFpul i.destinationRegister) := by
  rw [Interpreter.executeData, executeMemory_ftrc P h]
  unfold Interpreter.executeFpu
  rw [h]

theorem lineStatement_ftrc (delta : BitVec 32) {line : DisassemblyLine}
    (h : line.instruction.kind = .ftrc) :
    lineStatement P H delta line = callFpu H (.truncateToFpul line.instruction.sourceRegister) := by
  rw [lineStatement, executeMemory_ftrc P h]
  unfold fpuStatement
  rw [lowered_operation, lowered_source, h]
  rfl

end

section
variable {delta : BitVec 32} {line : DisassemblyLine} {cpu : CpuState}
  (hline : line.instruction = Sh4.decode line.opcode) (hfpu : line.instruction.kind ∈ Sh4.fpuKinds)
  (hfd : cpu.sr &&& srFdMask = 0) (h : EnginesAgree delta line cpu)

include hline hfpu hfd h

omit h in
/-- The mode guard is the only one that can stop an enabled FPU instruction. -/
theorem guardException_enabled {P : Platform Unit} {ρ : Machine Unit}
    (hcpu : ρ.cpu = Interpreter.attempt (line.address + delta) cpu) :
    guardException P delta (lowerInstruction line) ρ.cpu =
      if fpuModeInvalid (lowerInstruction line) cpu.fpscr then
        some (raiseIllegalInstruction P.manualResetSink ρ.cpu
          (relocatedCodeAddress delta line.address) (slotOwner delta (lowerInstruction line)))
      else none := by
  have hprivileged : (lowerInstruction line).isPrivileged = false := by
    obtain ⟨-, -, hprivileged, -⟩ := decode_fpu (hline ▸ hfpu)
    rw [← hline] at hprivileged
    exact hprivileged
  unfold guardException
  rw [hprivileged, hcpu]
  simp [Interpreter.attempt, hfd]
  rfl

theorem EnginesAgree.modeValid : fpuModeInvalid (lowerInstruction line) cpu.fpscr = false := by
  by_contra hinvalid
  rw [Bool.not_eq_false] at hinvalid
  obtain ⟨ρ, hcpu, hagrees⟩ := h.enabled delta hline hfpu hfd FpuHelpers.idle
  have hguard := guardException_enabled hline hfpu hfd (P := Platform.answering (fun _ =>
    line.opcode) none) hcpu
  rw [hinvalid, if_pos rfl] at hguard
  have houtcome := hagrees.outcome
  rw [guarded_some _ _ _ hguard] at houtcome
  exact executeData_idle _ _ _ _ _ houtcome.symm

theorem EnginesAgree.register_zero : truncatesNamedRegister line = false := by
  have hmode := h.modeValid hline hfpu hfd
  rw [truncatesNamedRegister, Bool.and_eq_false_imp]
  intro hkind
  have hftrc : line.instruction.kind = .ftrc := by simpa using hkind
  obtain ⟨hdestination, hsource⟩ := ftrc_operands hline hfpu hftrc
  obtain ⟨ρ, hcpu, hagrees⟩ := h.enabled delta hline hfpu hfd FpuHelpers.naming
  have hguard := guardException_enabled hline hfpu hfd (P := Platform.answering (fun _ =>
    line.opcode) none) hcpu
  rw [hmode] at hguard
  have hfpul := congrArg (fun σ => σ.cpu.fpul) hagrees.machine
  rw [guarded_none _ _ _ hguard, lineStatement_ftrc _ _ _ hftrc, executeData_ftrc _ _ hftrc,
    hdestination, hsource] at hfpul
  have hnumber : BitVec.ofNat 32 (Sh4.fieldN line.opcode).val = 0 := hfpul
  have hinj : ∀ n : Fin 16, BitVec.ofNat 32 n.val = 0 → n = 0 := by decide
  rw [hinj _ hnumber]
  rfl

end

/-- The engines agree on an FPU instruction exactly where the FPU is disabled,
or FPSCR passes the mode guard and the instruction is no FTRC of another
register than the zeroth. -/
theorem fpu_engines_agree_iff (delta : BitVec 32) (line : DisassemblyLine)
    (hline : line.instruction = Sh4.decode line.opcode)
    (hfpu : line.instruction.kind ∈ Sh4.fpuKinds) (cpu : CpuState) : EnginesAgree delta line cpu ↔
      cpu.sr &&& srFdMask ≠ 0 ∨ fpuModeInvalid (lowerInstruction line) cpu.fpscr = false ∧
          truncatesNamedRegister line = false := by
  constructor
  · intro h
    by_cases hfd : cpu.sr &&& srFdMask = 0
    · exact .inr ⟨h.modeValid hline hfpu hfd, h.register_zero hline hfpu hfd⟩
    · exact .inl hfd
  · intro h M P H mem mem' hfetch
    obtain ⟨hknown, hflow, -⟩ := decode_fpu (hline ▸ hfpu)
    rw [← hline] at hknown hflow
    refine emitGuardedSimpleInstruction_agrees P H delta line (fpu_alignsPc hfpu) hline hknown
      hflow (σ := ⟨cpu, mem⟩) hfetch fun hunblocked => ?_
    rw [fpuBlocked_eq hfpu] at hunblocked
    obtain hfd | ⟨hmode, hzero⟩ := h
    · exact absurd (by simpa using hunblocked) hfd
    · refine ⟨hmode, fun hftrc => ?_⟩
      obtain ⟨hdestination, hsource⟩ := ftrc_operands hline hfpu hftrc
      rw [hdestination, hsource]
      simpa [truncatesNamedRegister, hftrc] using hzero

/-- `FTRC FR1,FPUL`. -/
def truncateLine : DisassemblyLine := { address := 0, opcode := 0xF13D, instruction := Sh4.decode 0xF13D }

/-- `FSCHG`. -/
def toggleSizeLine : DisassemblyLine := { address := 0, opcode := 0xF3FD, instruction := Sh4.decode 0xF3FD }

theorem fpu_engines_agree_iff_truncate : EnginesAgree 0 truncateLine {} ↔
      (0 : BitVec 32) &&& srFdMask ≠ 0 ∨ fpuModeInvalid (lowerInstruction truncateLine) 0 = false ∧
          truncatesNamedRegister truncateLine = false :=
  fpu_engines_agree_iff 0 truncateLine rfl (by decide) {}

/-- `FTRC FR1,FPUL` truncates FR1 when emitted and FR0 when interpreted; FSCHG
under FPSCR.PR is illegal when emitted and toggles SZ when interpreted. -/
theorem fpu_engines_diverge :
    (∃ program, emitGuardedSimpleInstruction (Platform.answering (fun _ => 0xF13D) none)
        FpuHelpers.naming 0 (lowerInstruction truncateLine) = .ok program ∧
      (program ⟨{}, ()⟩).2.cpu.fpul = 1 ∧
        (Interpreter.executeOne (Platform.answering (fun _ => 0xF13D) none) FpuHelpers.naming 0
          none ⟨{}, ()⟩).2.cpu.fpul = 0) ∧
    ∃ program, emitGuardedSimpleInstruction (Platform.answering (fun _ => 0xF3FD) none)
        FpuHelpers.naming 0 (lowerInstruction toggleSizeLine) = .ok program ∧
      (program ⟨{ fpscr := fpscrPrMask }, ()⟩).1 = .ok true ∧
        (Interpreter.executeOne (Platform.answering (fun _ => 0xF3FD) none) FpuHelpers.naming 0
          none ⟨{ fpscr := fpscrPrMask }, ()⟩).1 = .ok {} :=
  ⟨⟨_, rfl, by decide, by decide⟩, ⟨_, rfl, rfl, rfl⟩⟩

end KatanaRecomp.Codegen
