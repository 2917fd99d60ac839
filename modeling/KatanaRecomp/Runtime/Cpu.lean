import KatanaRecomp.Lib.Word

/-! # The SH-4 register file

The architectural part of `CpuState` with the exception bookkeeping that
exception entry writes. The MMU registers beyond `pteh`, the prefetch and cycle
counters and the block provenance belong to the platform here. -/
namespace KatanaRecomp.Runtime

inductive ExceptionCause
  | none | trap | illegalInstruction | slotIllegalInstruction | fpuDisabled | slotFpuDisabled
  | addressErrorRead | addressErrorWrite | tlbMissRead | tlbMissWrite | initialPageWrite
  | tlbProtectionRead | tlbProtectionWrite | tlbMultipleHit | busErrorRead | busErrorWrite
  | interrupt | fpuException
  deriving DecidableEq

structure CpuState where
  r : Fin 16 → BitVec 32 := fun _ => 0
  rBank : Fin 8 → BitVec 32 := fun _ => 0
  fr : Fin 16 → BitVec 32 := fun _ => 0
  xf : Fin 16 → BitVec 32 := fun _ => 0
  pc : BitVec 32 := 0
  pr : BitVec 32 := 0
  gbr : BitVec 32 := 0
  vbr : BitVec 32 := 0
  ssr : BitVec 32 := 0
  spc : BitVec 32 := 0
  sgr : BitVec 32 := 0
  dbr : BitVec 32 := 0
  tra : BitVec 32 := 0
  tea : BitVec 32 := 0
  expevt : BitVec 32 := 0
  intevt : BitVec 32 := 0
  pteh : BitVec 32 := 0
  mach : BitVec 32 := 0
  macl : BitVec 32 := 0
  fpul : BitVec 32 := 0
  fpscr : BitVec 32 := 0
  sr : BitVec 32 := 0
  t : Bool := false
  s : Bool := false
  q : Bool := false
  m : Bool := false
  trapPending : Bool := false
  exceptionGeneration : BitVec 64 := 0
  lastExceptionCause : ExceptionCause := .none
  exceptionInDelaySlot : Bool := false
  lastExceptionInstructionPc : BitVec 32 := 0
  lastExceptionOwnerPc : BitVec 32 := 0
  lastExceptionGeneration : BitVec 64 := 0
  sleeping : Bool := false
  attemptedGuestInstructions : BitVec 64 := 0
  activeInstructionPc : BitVec 32 := 0

def srTMask : BitVec 32 := 0x00000001
def srSMask : BitVec 32 := 0x00000002
def srInterruptMask : BitVec 32 := 0x000000F0
def srQMask : BitVec 32 := 0x00000100
def srMMask : BitVec 32 := 0x00000200
def srFdMask : BitVec 32 := 0x00008000
def srBlMask : BitVec 32 := 0x10000000
def srRbMask : BitVec 32 := 0x20000000
def srMdMask : BitVec 32 := 0x40000000
def srWritableMask : BitVec 32 := 0x700083F3

def fpscrRoundingModeMask : BitVec 32 := 0x00000003
def fpscrPrMask : BitVec 32 := 0x00080000
def fpscrSzMask : BitVec 32 := 0x00100000
def fpscrFrMask : BitVec 32 := 0x00200000
def fpscrWritableMask : BitVec 32 := 0x003FFFFF

namespace CpuState
variable (cpu : CpuState)

/-- `cpu.r[n] = value`. -/
def setR (n : Fin 16) (value : BitVec 32) : CpuState :=
  { cpu with r := Function.update cpu.r n value }

/-- `cpu.pc = value`. -/
def withPc (value : BitVec 32) : CpuState := { cpu with pc := value }

/-- `cpu.fr[n] = value`. -/
def setFr (n : Fin 16) (value : BitVec 32) : CpuState :=
  { cpu with fr := Function.update cpu.fr n value }

/-- The flag that one masked bit of SR sets. -/
def flag (mask : BitVec 32) (value : Bool) : BitVec 32 := if value then mask else 0

def readSr : BitVec 32 :=
  (cpu.sr &&& ~~~(srMMask ||| srQMask ||| srSMask ||| srTMask)) ||| flag srMMask cpu.m |||
    flag srQMask cpu.q ||| flag srSMask cpu.s ||| flag srTMask cpu.t

/-- SR selects register bank one: privileged mode with RB set. -/
def bankOne (sr : BitVec 32) : Bool := sr &&& (srMdMask ||| srRbMask) == (srMdMask ||| srRbMask)

/-- R0..R7 and the other bank exchange places. -/
def swapBanks : CpuState :=
  { cpu with
    r := fun n => if h : n.val < 8 then cpu.rBank ⟨n.val, h⟩ else cpu.r n
    rBank := fun n => cpu.r (n.castLE (by decide)) }

def writeSr (value : BitVec 32) : CpuState :=
  let masked := value &&& srWritableMask
  let cpu' := if bankOne cpu.sr != bankOne masked then cpu.swapBanks else cpu
  { cpu' with
    sr := masked
    m := masked &&& srMMask != 0
    q := masked &&& srQMask != 0
    s := masked &&& srSMask != 0
    t := masked &&& srTMask != 0 }

def readFpscr : BitVec 32 := cpu.fpscr

def writeFpscr (value : BitVec 32) : CpuState :=
  let masked := value &&& fpscrWritableMask
  let oldFr := cpu.fpscr &&& fpscrFrMask != 0
  let newFr := masked &&& fpscrFrMask != 0
  let cpu' := if oldFr != newFr then { cpu with fr := cpu.xf, xf := cpu.fr } else cpu
  { cpu' with fpscr := masked }

def toggleFpuRegisterBank : CpuState := cpu.writeFpscr (cpu.readFpscr ^^^ fpscrFrMask)

def fpuTransferPair : Bool := cpu.readFpscr &&& fpscrSzMask != 0

def privilegedMode : Bool := cpu.sr &&& srMdMask != 0

def fpuDisabled : Bool := cpu.readSr &&& srFdMask != 0

/-! ## Register pairs of a 64-bit FMOV -/

def evenRegister (index : Fin 16) : Fin 16 := index &&& 0xE

/-- The even and the odd register a pair index names. -/
def pairLow (index : Fin 16) : Fin 16 := evenRegister index

def pairHigh (index : Fin 16) : Fin 16 := evenRegister index + 1

def readFpuPairBits (index : Fin 16) : BitVec 64 :=
  let bank := if index.val % 2 = 1 then cpu.xf else cpu.fr
  (bank (pairLow index)).setWidth 64 ||| (bank (pairHigh index)).setWidth 64 <<< 32

def writeFpuPairBits (index : Fin 16) (bits : BitVec 64) : CpuState :=
  let store (bank : Fin 16 → BitVec 32) :=
    Function.update (Function.update bank (pairLow index) (bits.setWidth 32))
      (pairHigh index) ((bits >>> 32).setWidth 32)
  if index.val % 2 = 1 then { cpu with xf := store cpu.xf } else { cpu with fr := store cpu.fr }

@[simp] theorem setR_r (n k : Fin 16) (value : BitVec 32) :
    (cpu.setR n value).r k = if k = n then value else cpu.r k := by
  simp [setR, Function.update_apply]

end CpuState

/-! ## The machine and its faults -/

inductive MemoryAccessOperation
  | read | write
  deriving DecidableEq

inductive MemoryAccessErrorReason
  | misaligned | unmapped | crossRegion | readOnly | addressOverflow | deviceRejected | tlbMiss
  | tlbMultipleHit | initialPageWrite | tlbProtection
  deriving DecidableEq

structure MemoryAccessError where
  operation : MemoryAccessOperation
  reason : MemoryAccessErrorReason
  address : BitVec 32
  deriving DecidableEq

/-- What a C++ call can throw: a guest memory fault, or an error of the host
program that no guest handler sees. -/
inductive Fault
  | memory (error : MemoryAccessError)
  | host (what : String)
  deriving DecidableEq

inductive CodeWriteSource
  | cpu | fpu | dma | storeQueue | copy | fallback
  deriving DecidableEq

inductive BlockEndKind
  | fallthrough | staticBranch | conditionalBranch | dynamicBranch | call | return
  | exceptionReturn | sleep | exception | interruptSafepoint
  deriving DecidableEq

inductive ManualResetReason
  | blockedGeneralException | tlbMultipleHit

structure ManualResetRequest where
  reason : ManualResetReason
  cause : ExceptionCause
  eventCode : BitVec 32
  faultAddress : Option (BitVec 32)
  instructionPc : BitVec 32
  ownerPc : BitVec 32
  inDelaySlot : Bool

/-- The guest memory, devices and scheduler behind a CPU, with state `M`. An
access sees the privilege mode of the CPU and may change the platform even when
it throws. The manual-reset sink is a callback a host may install; the operand
cache is coherent, so its maintenance operations have no effect. -/
structure Platform (M : Type) where
  fetchU16 : Bool → M → BitVec 32 → Except MemoryAccessError (BitVec 16) × M
  read : (w : Nat) → Bool → M → BitVec 32 → Except MemoryAccessError (BitVec w) × M
  write : (w : Nat) → Bool → M → BitVec 32 → BitVec w → CodeWriteSource →
    Except MemoryAccessError Unit × M
  prefetch : Bool → M → BitVec 32 → Except MemoryAccessError Unit × M
  loadTlb : M → M
  addGuestInstructionCycles : Nat → M → M
  flushPendingGuestCycles : M → Except String Unit × M
  manualResetSink : Option (CpuState → ManualResetRequest → CpuState)

/-- A platform that only answers: it fetches from `code`, and every data access
reads zero or fails for one reason. -/
def Platform.answering (code : BitVec 32 → BitVec 16) (fault : Option MemoryAccessErrorReason) :
    Platform Unit where
  fetchU16 _ _ address := (.ok (code address), ())
  read _ _ _ address := (fault.elim (.ok 0) fun reason => .error ⟨.read, reason, address⟩, ())
  write _ _ _ address _ _ :=
    (fault.elim (.ok ()) fun reason => .error ⟨.write, reason, address⟩, ())
  prefetch _ _ address := (fault.elim (.ok ()) fun reason => .error ⟨.read, reason, address⟩, ())
  loadTlb _ := ()
  addGuestInstructionCycles _ _ := ()
  flushPendingGuestCycles _ := (.ok (), ())
  manualResetSink := none

structure Machine (M : Type) where
  cpu : CpuState
  mem : M

/-- Code that runs on a machine: what it changed before a throw stays changed. -/
def Guest (M α : Type) : Type := Machine M → Except Fault α × Machine M

namespace Guest
variable {M α β : Type}

def pure (a : α) : Guest M α := fun σ => (.ok a, σ)

def bind (x : Guest M α) (f : α → Guest M β) : Guest M β := fun σ =>
  match x σ with
  | (.ok a, σ') => f a σ'
  | (.error e, σ') => (.error e, σ')

instance : Monad (Guest M) where
  pure := pure
  bind := bind

def throwFault (e : Fault) : Guest M α := fun σ => (.error e, σ)

def getCpu : Guest M CpuState := fun σ => (.ok σ.cpu, σ)

def modifyCpu (f : CpuState → CpuState) : Guest M Unit := fun σ =>
  (.ok (), { σ with cpu := f σ.cpu })

def modifyMem (f : M → M) : Guest M Unit := fun σ => (.ok (), { σ with mem := f σ.mem })

/-- Run a platform access at the CPU's privilege. -/
def access (op : Bool → M → Except MemoryAccessError α × M) : Guest M α := fun σ =>
  ((op σ.cpu.privilegedMode σ.mem).1.mapError .memory,
    { σ with mem := (op σ.cpu.privilegedMode σ.mem).2 })

/-- Run host code that may throw. -/
def host (op : M → Except String α × M) : Guest M α := fun σ =>
  ((op σ.mem).1.mapError .host, { σ with mem := (op σ.mem).2 })

/-- `try … catch (const MemoryAccessError&)`. -/
def catchMemory (x : Guest M α) (handler : MemoryAccessError → Guest M α) : Guest M α := fun σ =>
  match x σ with
  | (.error (.memory e), σ') => handler e σ'
  | result => result

@[simp] theorem pure_run (a : α) (σ : Machine M) : (Pure.pure a : Guest M α) σ = (.ok a, σ) := rfl

@[simp] theorem bind_run (x : Guest M α) (f : α → Guest M β) (σ : Machine M) :
    (x >>= f) σ = match x σ with
      | (.ok a, σ') => f a σ'
      | (.error e, σ') => (.error e, σ') := rfl

@[simp] theorem getCpu_run (σ : Machine M) : getCpu σ = (.ok σ.cpu, σ) := rfl

@[simp] theorem modifyCpu_run (f : CpuState → CpuState) (σ : Machine M) :
    modifyCpu f σ = (.ok (), { σ with cpu := f σ.cpu }) := rfl

@[simp] theorem modifyMem_run (f : M → M) (σ : Machine M) :
    modifyMem f σ = (.ok (), { σ with mem := f σ.mem }) := rfl

theorem id_map_eq (x : Guest M α) : id <$> x = x := by
  funext σ
  change Guest.bind x (fun a => Guest.pure (id a)) σ = x σ
  unfold Guest.bind
  rcases x σ with ⟨_ | _, _⟩ <;> rfl

theorem bind_assoc_eq {γ : Type} (x : Guest M α) (f : α → Guest M β) (g : β → Guest M γ) :
    x >>= f >>= g = x >>= fun a => f a >>= g := by
  funext σ
  simp only [bind_run]
  rcases x σ with ⟨_ | _, _⟩ <;> rfl

instance : LawfulMonad (Guest M) := LawfulMonad.mk' _ id_map_eq (fun _ _ => rfl) bind_assoc_eq

theorem map_run (f : α → β) (x : Guest M α) (σ : Machine M) :
    (f <$> x) σ = ((x σ).1.map f, (x σ).2) := by
  rw [map_eq_pure_bind, bind_run]
  rcases x σ with ⟨_ | _, _⟩ <;> rfl

end Guest

section
variable {M : Type} (P : Platform M)

def guestRead (w : Nat) (address : BitVec 32) : Guest M (BitVec w) :=
  Guest.access fun privileged mem => P.read w privileged mem address

/-- `guest_read_s8_at` and `guest_read_s16_at`: the value in 32 bits. -/
def guestReadSigned (w : Nat) (address : BitVec 32) : Guest M (BitVec 32) := do
  let value ← guestRead P w address
  return value.signExtend 32

def guestWrite (w : Nat) (address : BitVec 32) (value : BitVec w)
    (source : CodeWriteSource := .cpu) : Guest M Unit :=
  Guest.access fun privileged mem => P.write w privileged mem address value source

def prefetch (address : BitVec 32) : Guest M Unit :=
  Guest.access fun privileged mem => P.prefetch privileged mem address

/-- The counters of `GuestInstructionAttempt` that the modelled code reads. -/
def beginAttempt (pc : BitVec 32) : Guest M Unit := Guest.modifyCpu fun cpu =>
    { cpu with
      attemptedGuestInstructions := cpu.attemptedGuestInstructions + 1
      activeInstructionPc := pc }

end

/-! ## What a program leaves alone -/

/-- The program leaves the part `f` of the registers alone. -/
def Guest.Preserves {M α γ : Type} (f : CpuState → γ) (x : Guest M α) : Prop :=
  ∀ σ, f (x σ).2.cpu = f σ.cpu

theorem Guest.Preserves.bind {M α β γ : Type} {f : CpuState → γ} {x : Guest M α}
    {k : α → Guest M β} (hx : Preserves f x) (hk : ∀ a, Preserves f (k a)) :
    Preserves f (x >>= k) := by
  intro σ
  have h := hx σ
  rw [Guest.bind_run]
  rcases hxσ : x σ with ⟨_ | a, σ'⟩
  · rw [hxσ] at h
    exact h
  · rw [hxσ] at h
    exact (hk a σ').trans h

/-- The program may change the platform but no register. -/
def Guest.KeepsCpu {M α : Type} (x : Guest M α) : Prop := Preserves id x

namespace Guest.KeepsCpu
variable {M α β γ : Type} {x : Guest M α}

theorem preserves (hx : KeepsCpu x) (f : CpuState → γ) : Preserves f x :=
  fun σ => congrArg f (hx σ)

theorem pure (a : α) : KeepsCpu (Pure.pure a : Guest M α) := fun _ => rfl

theorem getCpu : KeepsCpu (Guest.getCpu : Guest M CpuState) := fun _ => rfl

theorem access (op : Bool → M → Except MemoryAccessError α × M) : KeepsCpu (Guest.access op) :=
  fun _ => rfl

theorem guestRead (P : Platform M) (w : Nat) (address : BitVec 32) :
    KeepsCpu (guestRead P w address) := access _

theorem guestReadSigned (P : Platform M) (w : Nat) (address : BitVec 32) :
    KeepsCpu (guestReadSigned P w address) := (guestRead P w address).bind fun _ => pure _

/-- After a program that keeps the registers, two continuations need to agree
on the registers it was started with only. -/
theorem bind_congr (hx : KeepsCpu x) {k k' : α → Guest M β} {σ : Machine M}
    (h : ∀ a σ', σ'.cpu = σ.cpu → k a σ' = k' a σ') : (x >>= k) σ = (x >>= k') σ := by
  have hσ : (x σ).2.cpu = σ.cpu := hx σ
  simp only [Guest.bind_run]
  rcases hxσ : x σ with ⟨_ | a, σ'⟩
  · rfl
  · rw [hxσ] at hσ
    exact h a σ' hσ

end Guest.KeepsCpu

/-! ## FPU arithmetic -/

inductive FpuBinaryOperation
  | add | subtract | multiply | divide

/-- A call of one of the arithmetic helpers with its register arguments and, for
those that can raise an FPU exception, the owner of the delay slot. -/
inductive FpuHelperCall
  | binary (operation : FpuBinaryOperation) (source destination : Fin 16)
    (owner : Option (BitVec 32))
  | squareRoot (destination : Fin 16) (owner : Option (BitVec 32))
  | reciprocalSquareRoot (destination : Fin 16) (owner : Option (BitVec 32))
  | sineCosine (destination : Fin 16) (owner : Option (BitVec 32))
  | absolute (destination : Fin 16)
  | negate (destination : Fin 16)
  | innerProduct (source destination : Fin 16)
  | transformVector (destination : Fin 16)
  | multiplyAccumulate (source destination : Fin 16)
  | compareEqual (source destination : Fin 16)
  | compareGreater (source destination : Fin 16)
  | floatFromFpul (destination : Fin 16)
  | truncateToFpul (source : Fin 16)
  | convertDoubleToSingle (source : Fin 16)
  | convertSingleToDouble (destination : Fin 16)

/-- The arithmetic helpers, uninterpreted: whether the call entered an FPU
exception, and the new state. They find the instruction through
`activeInstructionPc`; that the source takes `pc` where this is 0 is left out. -/
structure FpuHelpers where
  run : FpuHelperCall → CpuState → Bool × CpuState
  ignoresPc : ∀ call cpu pc, (run call (cpu.withPc pc)).1 = (run call cpu).1 ∧
      (run call (cpu.withPc pc)).2.withPc 0 = (run call cpu).2.withPc 0

/-- Helpers that change nothing and raise nothing. -/
def FpuHelpers.idle : FpuHelpers where
  run _ cpu := (false, cpu)
  ignoresPc _ _ _ := ⟨rfl, rfl⟩

def FpuHelpers.call {M : Type} (H : FpuHelpers) (call : FpuHelperCall) : Guest M Bool := fun σ =>
  (.ok (H.run call σ.cpu).1, { σ with cpu := (H.run call σ.cpu).2 })

end KatanaRecomp.Runtime
