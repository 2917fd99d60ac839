import KatanaRecomp.Lib.ChaoticIteration
import KatanaRecomp.Ir.RegisterUseDef

/-! # Register liveness of a function

The blocks' uses and definitions, the backward iteration over the edges inside
the function, and the registers it finds worth a native local. An open
successor, outside the function or chosen at run time, wants every register. -/
namespace KatanaRecomp.Ir
open Lib

structure BlockRegisterLiveness where
  startAddress : BitVec 32 := 0
  usesBeforeDef : RegisterMask := 0
  defs : RegisterMask := 0
  liveIn : RegisterMask := 0
  liveOut : RegisterMask := 0
  hasOpenSuccessor : Bool := false
  deriving DecidableEq

structure RegisterLocalizationPlan where
  blocks : List BlockRegisterLiveness := []
  referencedRegisters : RegisterMask := 0
  candidateRegisters : RegisterMask := 0
  closedControlFlow : Bool := true

/-- The block scan meets one more instruction. -/
def BlockRegisterLiveness.noteInstruction (live : BlockRegisterLiveness) (i : Instruction) :
    BlockRegisterLiveness :=
  let useDef := instructionRegisterUseDef i
  { live with
    usesBeforeDef := live.usesBeforeDef ||| useDef.uses &&& ~~~live.defs
    defs := live.defs ||| useDef.defs }

/-- The index that `block_indexes` holds for an address. -/
def blockIndex (function : Function) (address : BitVec 32) : Option Nat :=
  function.blocks.findIdx? (·.startAddress == address)

def internalSuccessors (function : Function) (block : BasicBlock) : List Nat :=
  block.successors.filterMap (blockIndex function)

def hasOpenSuccessor (function : Function) (block : BasicBlock) : Bool :=
  block.hasIndirectSuccessor ||
    block.successors.any fun successor => (blockIndex function successor).isNone

/-- A block before the iteration. -/
def scanBlock (function : Function) (block : BasicBlock) : BlockRegisterLiveness :=
  { block.instructions.foldl BlockRegisterLiveness.noteInstruction
      { startAddress := block.startAddress } with
    hasOpenSuccessor := hasOpenSuccessor function block }

def scanBlocks (function : Function) : List BlockRegisterLiveness :=
  function.blocks.map (scanBlock function)

def successorTable (function : Function) : List (List Nat) :=
  function.blocks.map (internalSuccessors function)

/-- What the successors of a block want, as far as it is known. -/
def wantedAfter (successors : List Nat) (isOpen : Bool) (blocks : List BlockRegisterLiveness) :
    RegisterMask :=
  successors.foldl (fun live successor => live ||| (blocks.getD successor {}).liveIn)
    (if isOpen then trackedRegisterMask else 0)

/-- What a block wants before it, given what is wanted after it. -/
def BlockRegisterLiveness.wantedBefore (live : BlockRegisterLiveness) (liveOut : RegisterMask) :
    RegisterMask := live.usesBeforeDef ||| liveOut &&& ~~~live.defs

/-- The body of the loop over the blocks, and whether it sets `changed`. -/
def relaxBlock (successors : List (List Nat)) (index : Nat) (blocks : List BlockRegisterLiveness) :
    List BlockRegisterLiveness × Bool :=
  let live := blocks.getD index {}
  let liveOut := wantedAfter (successors.getD index []) live.hasOpenSuccessor blocks
  let liveIn := live.wantedBefore liveOut
  if liveOut != live.liveOut || liveIn != live.liveIn then
    (blocks.set index { live with liveOut := liveOut, liveIn := liveIn }, true)
  else (blocks, false)

/-- The blocks from the last to the first. -/
def relaxOrder (function : Function) : List Nat := (List.range function.blocks.length).reverse

/-- A round that is not the last adds a bit to one of the two masks of a block. -/
def livenessFuel (function : Function) : Nat := 64 * function.blocks.length + 1

def solveLiveness (function : Function) (fuel : Nat) : Option (List BlockRegisterLiveness) :=
  relaxUntilStable (relaxBlock (successorTable function)) (relaxOrder function) fuel
    (scanBlocks function)

/-- The walk back over a block: what is live before it, and its candidates. -/
def blockCandidates (instructions : List Instruction) (liveOut : RegisterMask) :
    RegisterMask × RegisterMask := instructions.foldr
    (fun i (liveAfter, candidates) =>
      let useDef := instructionRegisterUseDef i
      (useDef.uses ||| liveAfter &&& ~~~useDef.defs,
        candidates ||| (useDef.defs &&& liveAfter ||| useDef.uses &&& liveAfter)))
    (liveOut, 0)

def makeRegisterLocalizationPlan (function : Function) : Except String RegisterLocalizationPlan :=
  if (function.blocks.map (·.startAddress)).Nodup then
    let blocks := (solveLiveness function (livenessFuel function)).getD (scanBlocks function)
    .ok {
      blocks := blocks
      referencedRegisters := (function.blocks.flatMap (·.instructions)).foldl
        (fun mask i =>
          mask ||| ((instructionRegisterUseDef i).uses ||| (instructionRegisterUseDef i).defs)) 0
      candidateRegisters := ((function.blocks.zip blocks).foldl
        (fun mask (block, live) =>
          mask ||| (blockCandidates block.instructions live.liveOut).2) 0) &&& trackedRegisterMask
      closedControlFlow := !function.blocks.any (hasOpenSuccessor function) }
  else .error "Register-Liveness erhielt doppelte Basic-Block-Startadresse."

/-! ## What liveness means -/

def Uses (i : Instruction) (register : TrackedRegister) : Prop :=
  registerMaskContains (instructionRegisterUseDef i).uses register = true

def Defines (i : Instruction) (register : TrackedRegister) : Prop :=
  registerMaskContains (instructionRegisterUseDef i).defs register = true

/-- Some instruction uses the register and none before it defines it. -/
def UsesFirst (instructions : List Instruction) (register : TrackedRegister) : Prop :=
  ∃ before i after, instructions = before ++ i :: after ∧ Uses i register ∧
    ∀ earlier ∈ before, ¬ Defines earlier register

/-- No instruction defines the register. -/
def Keeps (instructions : List Instruction) (register : TrackedRegister) : Prop :=
  ∀ i ∈ instructions, ¬ Defines i register

/-- The block leaves the function: where to is not known, or is not one of its blocks. -/
def LeavesFunction (function : Function) (block : BasicBlock) : Prop :=
  block.hasIndirectSuccessor = true ∨
    ∃ successor ∈ block.successors, ∀ other ∈ function.blocks, other.startAddress ≠ successor

/-- The register goes through a block unchanged and along an edge into the next. -/
def PassesTo (function : Function) (register : TrackedRegister) (block next : BasicBlock) : Prop :=
  next ∈ function.blocks ∧ next.startAddress ∈ block.successors ∧ Keeps block.instructions register

/-- Some path from the start of the block uses the register, or leaves the
function with it, before it is defined. -/
def LiveAt (function : Function) (register : TrackedRegister) (block : BasicBlock) : Prop :=
  ∃ last, Relation.ReflTransGen (PassesTo function register) block last ∧
    (UsesFirst last.instructions register ∨
      LeavesFunction function last ∧ Keeps last.instructions register)

/-! ## The block scan -/

section
variable {i : Instruction} {instructions : List Instruction} {register : TrackedRegister}

theorem usesFirst_nil : ¬ UsesFirst [] register := by
  rintro ⟨before, i, after, hsplit, -⟩
  exact absurd hsplit (by simp)

theorem usesFirst_cons : UsesFirst (i :: instructions) register ↔
      Uses i register ∨ ¬ Defines i register ∧ UsesFirst instructions register := by
  constructor
  · rintro ⟨before, j, after, hsplit, huse, hkeep⟩
    cases before with
    | nil =>
      obtain ⟨rfl, -⟩ := List.cons.inj hsplit
      exact Or.inl huse
    | cons first before =>
      obtain ⟨rfl, hrest⟩ := List.cons.inj hsplit
      have hfirst := hkeep i List.mem_cons_self
      exact Or.inr ⟨hfirst, before, j, after, hrest, huse,
        fun earlier hmem => hkeep earlier (List.mem_cons_of_mem i hmem)⟩
  · rintro (huse | ⟨hfirst, before, j, after, hsplit, huse, hkeep⟩)
    · exact ⟨[], i, instructions, rfl, huse, fun earlier hmem => absurd hmem List.not_mem_nil⟩
    · refine ⟨i :: before, j, after, by rw [hsplit, List.cons_append], huse, ?_⟩
      intro earlier hmem
      obtain rfl | hmem := List.mem_cons.mp hmem
      · exact hfirst
      · exact hkeep earlier hmem

theorem keeps_cons :
    Keeps (i :: instructions) register ↔ ¬ Defines i register ∧ Keeps instructions register :=
  List.forall_mem_cons

variable (instructions register) in
theorem foldl_noteInstruction (live : BlockRegisterLiveness) :
    (registerMaskContains (instructions.foldl BlockRegisterLiveness.noteInstruction live).defs
        register = true ↔
      registerMaskContains live.defs register = true ∨ ¬ Keeps instructions register) ∧
    (registerMaskContains
        (instructions.foldl BlockRegisterLiveness.noteInstruction live).usesBeforeDef
        register = true ↔ registerMaskContains live.usesBeforeDef register = true ∨
        registerMaskContains live.defs register = false ∧ UsesFirst instructions register) := by
  induction instructions generalizing live with
  | nil =>
    have hkeeps : Keeps [] register := fun i hmem => absurd hmem List.not_mem_nil
    simp [hkeeps, usesFirst_nil]
  | cons i rest ih =>
    obtain ⟨hdefs, huses⟩ := ih (live.noteInstruction i)
    rw [List.foldl_cons, hdefs, huses, keeps_cons, usesFirst_cons]
    have hnext : registerMaskContains (live.noteInstruction i).defs register = true ↔
        registerMaskContains live.defs register = true ∨ Defines i register := by
      simp [BlockRegisterLiveness.noteInstruction, Defines]
    have hused : registerMaskContains (live.noteInstruction i).usesBeforeDef register = true ↔
        registerMaskContains live.usesBeforeDef register = true ∨
          Uses i register ∧ registerMaskContains live.defs register = false := by
      simp [BlockRegisterLiveness.noteInstruction, Uses]
    rw [← Bool.not_eq_true, ← Bool.not_eq_true, hnext, hused, ← Bool.not_eq_true]
    by_cases hdef : registerMaskContains live.defs register = true <;>
      by_cases hhere : Defines i register <;> simp [hdef, hhere, or_assoc]

/-- The masks of a scanned block say what its instructions use first and define. -/
theorem scanBlock_uses (function : Function) (block : BasicBlock) :
    registerMaskContains (scanBlock function block).usesBeforeDef register = true ↔
      UsesFirst block.instructions register := by
  have h := (foldl_noteInstruction block.instructions register
    { startAddress := block.startAddress }).2
  simpa [scanBlock] using h

theorem scanBlock_defs (function : Function) (block : BasicBlock) :
    registerMaskContains (scanBlock function block).defs register = false ↔
      Keeps block.instructions register := by
  have h := (foldl_noteInstruction block.instructions register
    { startAddress := block.startAddress }).1
  rw [← Bool.not_eq_true]
  simpa [scanBlock] using not_congr h

end
end KatanaRecomp.Ir
