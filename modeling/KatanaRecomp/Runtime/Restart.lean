import KatanaRecomp.Runtime.Interpreter

/-! # Restartable programs

A memory instruction of the interpreter accesses memory first and commits to
registers afterwards: a fault leaves every register as it was. It also never
reads `pc`, which the interpreter has already moved on. -/
namespace KatanaRecomp.Runtime
open Sh4 (DecodedInstruction)

/-! ## Programs that do not read the program counter -/

def Machine.erasePc {M : Type} (σ : Machine M) : Machine M := { σ with cpu := σ.cpu.withPc 0 }

theorem Machine.eq_withPc {M : Type} {σ σ' : Machine M} (h : σ.erasePc = σ'.erasePc) :
    σ' = { σ with cpu := σ.cpu.withPc σ'.cpu.pc } := by
  obtain ⟨⟨⟩, _⟩ := σ
  obtain ⟨⟨⟩, _⟩ := σ'
  simp only [erasePc, CpuState.withPc, Machine.mk.injEq, CpuState.mk.injEq] at h ⊢
  tauto

namespace Guest
variable {M α β : Type}

/-- Two machines that differ in `pc` only stay so, with the same result. -/
def PcBlind (x : Guest M α) : Prop :=
  ∀ σ σ', σ.erasePc = σ'.erasePc → (x σ).1 = (x σ').1 ∧ (x σ).2.erasePc = (x σ').2.erasePc

namespace PcBlind

theorem pure (a : α) : PcBlind (Pure.pure a : Guest M α) := fun _ _ h => ⟨rfl, h⟩

theorem throwFault (e : Fault) : PcBlind (Guest.throwFault e : Guest M α) :=
  fun _ _ h => ⟨rfl, h⟩

theorem bind {x : Guest M α} {k : α → Guest M β} (hx : PcBlind x) (hk : ∀ a, PcBlind (k a)) :
    PcBlind (x >>= k) := by
  intro σ σ' h
  obtain ⟨hr, hs⟩ := hx σ σ' h
  simp only [Guest.bind_run]
  rcases hxσ : x σ with ⟨_ | a, τ⟩ <;> rcases hxσ' : x σ' with ⟨_ | a', τ'⟩ <;>
    rw [hxσ, hxσ'] at hr hs <;> cases hr
  · exact ⟨rfl, hs⟩
  · exact hk a τ τ' hs

theorem getCpu_bind {k : CpuState → Guest M β} (hk : ∀ cpu, PcBlind (k cpu))
    (hpc : ∀ cpu pc, k (cpu.withPc pc) = k cpu) : PcBlind (Guest.getCpu >>= k) := by
  intro σ σ' h
  have hk' : k σ'.cpu = k σ.cpu := by
    rw [Machine.eq_withPc h]
    exact hpc _ _
  simp only [Guest.bind_run, Guest.getCpu_run, hk']
  exact hk _ σ σ' h

theorem access (op : Bool → M → Except MemoryAccessError α × M) : PcBlind (Guest.access op) := by
  intro σ σ' h
  rw [Machine.eq_withPc h]
  exact ⟨rfl, rfl⟩

theorem modifyCpu {f : CpuState → CpuState}
    (hf : ∀ cpu pc, (f (cpu.withPc pc)).withPc 0 = (f cpu).withPc 0) :
    PcBlind (Guest.modifyCpu f : Guest M Unit) := by
  intro σ σ' h
  rw [Machine.eq_withPc h]
  refine ⟨rfl, ?_⟩
  simp only [Guest.modifyCpu_run, Machine.erasePc, hf]

theorem modifyMem (f : M → M) : PcBlind (Guest.modifyMem f : Guest M Unit) := by
  intro σ σ' h
  rw [Machine.eq_withPc h]
  exact ⟨rfl, rfl⟩

theorem call (H : FpuHelpers) (c : FpuHelperCall) : PcBlind (H.call c : Guest M Bool) := by
  intro σ σ' h
  rw [Machine.eq_withPc h]
  obtain ⟨hflag, hcpu⟩ := H.ignoresPc c σ.cpu σ'.cpu.pc
  simp only [FpuHelpers.call, Machine.erasePc, hflag, hcpu, and_self]

end PcBlind

/-! ## Accesses, commits and their composition -/

/-- The program touches the platform only. -/
structure Accesses (x : Guest M α) : Prop where
  blind : PcBlind x
  keeps : KeepsCpu x

/-- The program raises no memory fault. -/
structure Commits (x : Guest M α) : Prop where
  blind : PcBlind x
  total : ∀ σ e, (x σ).1 ≠ .error (.memory e)

/-- A memory fault of the program leaves every register as it was. -/
structure Restartable (x : Guest M α) : Prop where
  blind : PcBlind x
  atomic : ∀ σ e, (x σ).1 = .error (.memory e) → (x σ).2.cpu = σ.cpu

theorem Accesses.restartable {x : Guest M α} (h : Accesses x) : Restartable x :=
  ⟨h.blind, fun σ _ _ => h.keeps σ⟩

theorem Commits.restartable {x : Guest M α} (h : Commits x) : Restartable x :=
  ⟨h.blind, fun σ e he => absurd he (h.total σ e)⟩

theorem Accesses.bind {x : Guest M α} {k : α → Guest M β} (hx : Accesses x)
    (hk : ∀ a, Accesses (k a)) : Accesses (x >>= k) :=
  ⟨hx.blind.bind fun a => (hk a).blind, hx.keeps.bind fun a => (hk a).keeps⟩

theorem Commits.bind {x : Guest M α} {k : α → Guest M β} (hx : Commits x)
    (hk : ∀ a, Commits (k a)) : Commits (x >>= k) := by
  refine ⟨hx.blind.bind fun a => (hk a).blind, fun σ e => ?_⟩
  have h := hx.total σ e
  rw [Guest.bind_run]
  rcases hxσ : x σ with ⟨_ | a, σ'⟩
  · simpa [hxσ] using h
  · exact (hk a).total σ' e

/-- Accesses in front of a restartable program. -/
theorem Accesses.andThen {x : Guest M α} {k : α → Guest M β} (hx : Accesses x)
    (hk : ∀ a, Restartable (k a)) : Restartable (x >>= k) := by
  refine ⟨hx.blind.bind fun a => (hk a).blind, fun σ e => ?_⟩
  have h : (x σ).2.cpu = σ.cpu := hx.keeps σ
  rw [Guest.bind_run]
  rcases hxσ : x σ with ⟨_ | a, σ'⟩
  · rw [hxσ] at h
    exact fun _ => h
  · rw [hxσ] at h
    exact fun he => ((hk a).atomic σ' e he).trans h

/-- A commit behind a restartable program. -/
theorem Restartable.andCommit {x : Guest M α} {k : α → Guest M β} (hx : Restartable x)
    (hk : ∀ a, Commits (k a)) : Restartable (x >>= k) := by
  refine ⟨hx.blind.bind fun a => (hk a).blind, fun σ e => ?_⟩
  have h := hx.atomic σ e
  rw [Guest.bind_run]
  rcases hxσ : x σ with ⟨_ | a, σ'⟩
  · simpa [hxσ] using h
  · exact fun he => absurd he ((hk a).total σ' e)

theorem Restartable.getCpu_bind {k : CpuState → Guest M β} (hk : ∀ cpu, Restartable (k cpu))
    (hpc : ∀ cpu pc, k (cpu.withPc pc) = k cpu) : Restartable (Guest.getCpu >>= k) :=
  ⟨.getCpu_bind (fun cpu => (hk cpu).blind) hpc, fun σ e he => (hk σ.cpu).atomic σ e he⟩

theorem Accesses.getCpu_bind {k : CpuState → Guest M β} (hk : ∀ cpu, Accesses (k cpu))
    (hpc : ∀ cpu pc, k (cpu.withPc pc) = k cpu) : Accesses (Guest.getCpu >>= k) :=
  ⟨.getCpu_bind (fun cpu => (hk cpu).blind) hpc, fun σ => (hk σ.cpu).keeps σ⟩

theorem Accesses.pure (a : α) : Accesses (Pure.pure a : Guest M α) := ⟨.pure a, .pure a⟩

theorem Accesses.access (op : Bool → M → Except MemoryAccessError α × M) :
    Accesses (Guest.access op) := ⟨.access op, .access op⟩

theorem Accesses.guestRead (P : Platform M) (w : Nat) (address : BitVec 32) :
    Accesses (guestRead P w address) := .access _

theorem Accesses.guestReadSigned (P : Platform M) (w : Nat) (address : BitVec 32) :
    Accesses (guestReadSigned P w address) := (Accesses.guestRead P w address).bind fun _ => .pure _

theorem Accesses.guestWrite (P : Platform M) (w : Nat) (address : BitVec 32) (value : BitVec w)
    (source : CodeWriteSource) : Accesses (guestWrite P w address value source) := .access _

theorem Commits.pure (a : α) : Commits (Pure.pure a : Guest M α) :=
  ⟨.pure a, fun _ _ h => nomatch h⟩

theorem Commits.modifyCpu {f : CpuState → CpuState}
    (hf : ∀ cpu pc, (f (cpu.withPc pc)).withPc 0 = (f cpu).withPc 0) :
    Commits (Guest.modifyCpu f : Guest M Unit) := ⟨.modifyCpu hf, fun _ _ h => nomatch h⟩

theorem Commits.modifyMem (f : M → M) : Commits (Guest.modifyMem f : Guest M Unit) :=
  ⟨.modifyMem f, fun _ _ h => nomatch h⟩

theorem Commits.call (H : FpuHelpers) (c : FpuHelperCall) : Commits (H.call c : Guest M Bool) :=
  ⟨.call H c, fun _ _ h => nomatch h⟩

end Guest

/-! ## The memory instructions -/

section
open Interpreter Guest

variable {M : Type} (P : Platform M)

theorem CpuState.writeSr_withPc (cpu : CpuState) (pc value : BitVec 32) :
    (cpu.withPc pc).writeSr value = (cpu.writeSr value).withPc pc := by
  unfold CpuState.writeSr CpuState.swapBanks CpuState.withPc
  dsimp only
  split <;> rfl

theorem CpuState.writeFpscr_withPc (cpu : CpuState) (pc value : BitVec 32) :
    (cpu.withPc pc).writeFpscr value = (cpu.writeFpscr value).withPc pc := by
  unfold CpuState.writeFpscr CpuState.withPc
  dsimp only
  split <;> rfl

theorem CpuState.writeFpuPairBits_withPc (cpu : CpuState) (pc : BitVec 32) (index : Fin 16)
    (bits : BitVec 64) :
    (cpu.withPc pc).writeFpuPairBits index bits = (cpu.writeFpuPairBits index bits).withPc pc := by
  unfold CpuState.writeFpuPairBits CpuState.withPc
  dsimp only
  split <;> rfl

theorem accumulate_withPc (word : Bool) (product : BitVec 64) (cpu : CpuState) (pc : BitVec 32) :
    Interpreter.accumulate word product (cpu.withPc pc) =
      (Interpreter.accumulate word product cpu).withPc pc := by
  unfold Interpreter.accumulate CpuState.withPc
  dsimp only
  split
  · rfl
  · split <;> rfl

theorem loadInto_restartable (n : Fin 16) {read : Guest M (BitVec 32)} (h : Restartable read) :
    Restartable (loadInto n read) := h.andCommit fun _ => .modifyCpu fun _ _ => rfl

theorem loadPostIncrement_restartable (n m : Fin 16) (bytes : BitVec 32)
    {read : BitVec 32 → Guest M (BitVec 32)} (h : ∀ address, Accesses (read address)) :
    Restartable (loadPostIncrement n m bytes read) := by
  refine .getCpu_bind (fun cpu => (h _).restartable.andCommit fun value =>
    Commits.bind (.modifyCpu fun _ _ => rfl) fun _ => ?_) fun _ _ => rfl
  split
  · exact .modifyCpu fun _ _ => rfl
  · exact .pure _

theorem storePreDecrement_restartable (w : Nat) (n : Fin 16) (bytes : BitVec 32)
    (value : BitVec w) : Restartable (storePreDecrement P w n bytes value) :=
  .getCpu_bind (fun _ => (Accesses.guestWrite P _ _ _ _).restartable.andCommit fun _ =>
    .modifyCpu fun _ _ => rfl) fun _ _ => rfl

theorem modifyByte_accesses (f : BitVec 8 → BitVec 8) : Accesses (modifyByte P f) :=
  .getCpu_bind (fun _ => (Accesses.guestRead P _ _).bind fun _ => .guestWrite P _ _ _ _)
    fun _ _ => rfl

theorem fmovLoad_restartable (n : Fin 16) (address : BitVec 32) :
    Restartable (fmovLoad P n address) := by
  refine .getCpu_bind (fun cpu => ?_) fun _ _ => rfl
  split
  · refine (Accesses.guestRead P _ _).andThen fun low =>
      (Accesses.guestRead P _ _).restartable.andCommit fun high => .modifyCpu fun cpu pc => ?_
    rw [CpuState.writeFpuPairBits_withPc]
    rfl
  · exact (Accesses.guestRead P _ _).restartable.andCommit fun value => .modifyCpu fun _ _ => rfl

theorem fmovStore_accesses (m : Fin 16) (address : BitVec 32) :
    Accesses (fmovStore P m address) := by
  refine .getCpu_bind (fun cpu => ?_) fun _ _ => rfl
  split
  · exact (Accesses.guestWrite P _ _ _ _).bind fun _ => .guestWrite P _ _ _ _
  · exact .guestWrite P _ _ _ _

theorem multiplyAccumulate_restartable (word : Bool) (n m : Fin 16) :
    Restartable (multiplyAccumulate P word n m) := by
  have hread (address : BitVec 32) : Accesses (if word then do
      let value ← guestReadSigned P 16 address
      return value.signExtend 64
    else do
      let value ← guestRead P 32 address
      return value.signExtend 64 : Guest M (BitVec 64)) := by
    split
    · exact (Accesses.guestReadSigned P _ _).bind fun _ => .pure _
    · exact (Accesses.guestRead P _ _).bind fun _ => .pure _
  refine .getCpu_bind (fun cpu => (hread _).andThen fun destination =>
    (hread _).restartable.andCommit fun source =>
      Commits.bind (.modifyCpu fun _ _ => rfl) fun _ =>
        Commits.bind (.modifyCpu fun _ _ => rfl) fun _ => .modifyCpu fun cpu pc => ?_) fun _ _ => rfl
  rw [accumulate_withPc]
  rfl

theorem readSpecial_accesses (reg : Sh4.SpecialRegister) :
    Accesses (readSpecial reg : Guest M (BitVec 32)) := by
  refine .getCpu_bind (fun cpu => ?_) fun cpu pc => ?_
  · split
    · exact .pure _
    · exact ⟨.throwFault _, fun _ => rfl⟩
  · have h : specialRead (cpu.withPc pc) reg = specialRead cpu reg := by
      cases reg <;> rfl
    rw [h]

theorem writeSpecial_commits (reg : Sh4.SpecialRegister) (value : BitVec 32) :
    Commits (writeSpecial reg value : Guest M Unit) := by
  have h (cpu : CpuState) (pc : BitVec 32) : specialWrite (cpu.withPc pc) reg value =
      (specialWrite cpu reg value).map fun cpu' => cpu'.withPc pc := by
    cases reg <;> first
      | rfl
      | exact congrArg some (cpu.writeSr_withPc pc value)
      | exact congrArg some (cpu.writeFpscr_withPc pc value)
  constructor
  · intro σ σ' hσ
    rw [Machine.eq_withPc hσ]
    unfold writeSpecial
    simp only [h]
    cases specialWrite σ.cpu reg value <;> exact ⟨rfl, rfl⟩
  · intro σ e
    unfold writeSpecial
    split
    · exact fun he => nomatch he
    · exact fun he => nomatch he

theorem executeMemory_restartable (i : DecodedInstruction) (pc : BitVec 32)
    (program : Guest M Unit) (h : executeMemory P i pc = some program) : Restartable program := by
  have hread := fun w address => Accesses.guestRead P w address
  have hsigned := fun w address => Accesses.guestReadSigned P w address
  have hwrite := fun w address (value : BitVec w) source => Accesses.guestWrite P w address value source
  unfold executeMemory at h
  dsimp only at h
  -- one alternative per shape of program
  split at h <;> cases h <;> first
    | exact multiplyAccumulate_restartable P _ _ _
    | exact (modifyByte_accesses P _).restartable
    | exact loadPostIncrement_restartable _ _ _ (hsigned _)
    | exact loadPostIncrement_restartable _ _ _ (hread _)
    | exact loadInto_restartable _ (hsigned _ _).restartable
    | exact loadInto_restartable _ (hread _ _).restartable
    | exact loadInto_restartable _ (readSpecial_accesses _).restartable
    | exact (readSpecial_accesses _).andThen fun _ => storePreDecrement_restartable P _ _ _ _
    | exact (Commits.modifyMem _).restartable
    | refine .getCpu_bind (fun cpu => ?_) fun _ _ => rfl
      first
        | exact (hwrite _ _ _ _).restartable
        | exact loadInto_restartable _ (hsigned _ _).restartable
        | exact loadInto_restartable _ (hread _ _).restartable
        | exact storePreDecrement_restartable P _ _ _ _
        | exact fmovLoad_restartable P _ _
        | exact (fmovStore_accesses P _ _).restartable
        | exact (writeSpecial_commits _ _).restartable
        | exact (Accesses.access _).restartable
        | exact (hread _ _).restartable.andCommit fun _ => .modifyCpu fun _ _ => rfl
        | exact (hread _ _).restartable.andCommit fun _ =>
            Commits.bind (.modifyCpu fun _ _ => rfl) fun _ => writeSpecial_commits _ _
        | exact (hread _ _).andThen fun _ => (hwrite _ _ _ _).restartable.andCommit fun _ =>
            .modifyCpu fun _ _ => rfl
        | exact (fmovLoad_restartable P _ _).andCommit fun _ => .modifyCpu fun _ _ => rfl
        | exact (fmovStore_accesses P _ _).restartable.andCommit fun _ => .modifyCpu fun _ _ => rfl

end

/-! ## The other instructions -/

section
open Interpreter Guest

variable {M : Type} (H : FpuHelpers)

theorem executeRegister_withPc (i : DecodedInstruction) (pc pc' : BitVec 32) (cpu : CpuState) :
    executeRegister i pc (cpu.withPc pc') = (executeRegister i pc cpu).withPc pc' := by
  unfold executeRegister
  dsimp only
  split <;> rfl

theorem callFpu_commits (c : FpuHelperCall) : Commits (callFpu H c : Guest M StepResult) :=
  (Commits.call H c).bind fun _ => .pure _

theorem callRaising_commits (c : FpuHelperCall) : Commits (callRaising H c : Guest M StepResult) := by
  refine (Commits.call H c).bind fun raised => ?_
  split
  · exact .pure _
  · exact .pure _

theorem executeFpu_commits (i : DecodedInstruction) (pc : BitVec 32) (owner : Option (BitVec 32)) :
    Commits (executeFpu H i pc owner : Guest M StepResult) := by
  have hmodify {f : CpuState → CpuState} (hf : ∀ cpu p, f (cpu.withPc p) = (f cpu).withPc p) :
      Commits (do Guest.modifyCpu f; return {} : Guest M StepResult) :=
    (Commits.modifyCpu fun cpu p => by rw [hf]; rfl).bind fun _ => .pure _
  unfold executeFpu
  dsimp only
  split
  case h_1 =>
    refine hmodify fun cpu p => ?_
    by_cases h : cpu.fpuTransferPair
    · have h' : (cpu.withPc p).fpuTransferPair := h
      rw [if_pos h, if_pos h', CpuState.writeFpuPairBits_withPc]
      rfl
    · have h' : ¬ (cpu.withPc p).fpuTransferPair := h
      rw [if_neg h, if_neg h']
      rfl
  all_goals first
    | exact callFpu_commits H _
    | exact callRaising_commits H _
    | exact hmodify fun _ _ => rfl
    | exact hmodify fun cpu p => CpuState.writeFpscr_withPc _ _ _
    | exact hmodify fun cpu p => executeRegister_withPc _ _ _ _

end

/-! ## The frame of an instruction -/

namespace Interpreter
variable {M : Type} (P : Platform M) (H : FpuHelpers)

/-- The registers once an attempt at `pc` has begun. -/
def attempt (pc : BitVec 32) (cpu : CpuState) : CpuState :=
  { cpu with
    attemptedGuestInstructions := cpu.attemptedGuestInstructions + 1
    activeInstructionPc := pc }

/-- What `executeWith` does once the cycles are charged. -/
def dispatch (executeSlot : Guest M StepResult) (i : DecodedInstruction) (pc : BitVec 32)
    (owner : Option (BitVec 32)) : Guest M StepResult := do
  let cpu ← Guest.getCpu
  if isIllegal i owner cpu then
    Guest.modifyCpu fun cpu => raiseIllegalInstruction P.manualResetSink cpu pc owner
    return exceptionResult
  if cpu.fpuDisabled && isFpuInstruction i then
    Guest.modifyCpu fun cpu => raiseFpuDisabled P.manualResetSink cpu pc owner
    return exceptionResult
  Guest.modifyCpu fun cpu => cpu.withPc (pc + 2)
  executeInstruction P H executeSlot i pc owner

/-- A fetch that succeeds leads to the charge and the dispatch of what it read. -/
theorem executeWith_run (executeSlot : Guest M StepResult) {pc : BitVec 32}
    (owner : Option (BitVec 32)) {σ : Machine M} {opcode : BitVec 16} {mem : M}
    (hfetch : P.fetchU16 σ.cpu.privilegedMode σ.mem pc = (.ok opcode, mem)) :
    executeWith P H executeSlot pc owner σ = (chargeCycles P (Sh4.decode opcode) >>= fun _ =>
        dispatch P H executeSlot (Sh4.decode opcode) pc owner) ⟨attempt pc σ.cpu, mem⟩ := by
  have hdecode : fetchDecode P pc ⟨attempt pc σ.cpu, σ.mem⟩ =
      (.ok (Sh4.decode opcode), ⟨attempt pc σ.cpu, mem⟩) := by
    have hfetch' : P.fetchU16 (attempt pc σ.cpu).privilegedMode σ.mem pc = (.ok opcode, mem) :=
      hfetch
    simp only [fetchDecode, hfetch']
  unfold executeWith
  rw [Guest.bind_run]
  change (fetchDecode P pc >>= _) ⟨attempt pc σ.cpu, σ.mem⟩ = _
  rw [Guest.bind_run, hdecode]
  rfl

/-- The cycles of an instruction: a host error of the flush, or a machine with
the same registers. -/
theorem chargeCycles_cases (i : DecodedInstruction) (σ : Machine M) :
    (∃ e mem, (Sh4.instructionTiming i).requiresCycleFlush ∧
      P.flushPendingGuestCycles σ.mem = (.error e, mem) ∧
      chargeCycles P i σ = (.error (.host e), { σ with mem := mem })) ∨
    ∃ mem, chargeCycles P i σ = (.ok (), { σ with mem := mem }) := by
  unfold chargeCycles
  dsimp only
  cases (Sh4.instructionTiming i).requiresCycleFlush with
  | false => exact .inr ⟨_, rfl⟩
  | true =>
    rcases hflush : P.flushPendingGuestCycles σ.mem with ⟨e | ⟨⟩, mem⟩
    · exact .inl ⟨e, mem, rfl, rfl, by simp [Guest.host, hflush, Except.mapError]⟩
    · exact .inr ⟨_, by simp [Guest.host, hflush, Except.mapError]; rfl⟩

end Interpreter
end KatanaRecomp.Runtime
