import KatanaRecomp.Sh4.Decoder
import KatanaRecomp.Ir.Effects

/-! # The verifier

`verifyFunction` lists what is wrong with a function; an empty list is what the
passes and the backend require. The sets of addresses seen so far are lists, and
the decode cache of the source is left out. -/
namespace KatanaRecomp.Ir

structure VerificationIssue where
  address : BitVec 32
  message : String

/-- `add_issue` under a condition. -/
def issueIf (condition : Bool) (address : BitVec 32) (message : String) : List VerificationIssue :=
  if condition then [⟨address, message⟩] else []

/-- `std::sort` and `std::unique` on addresses. -/
def sortUnique (values : List (BitVec 32)) : List (BitVec 32) :=
  (values.insertionSort (· ≤ ·)).eraseReps

/-- Sorted without duplicates, as `is_sorted` and `adjacent_find` test it. -/
def isCanonical : List (BitVec 32) → Bool
  | [] => true
  | [_] => true
  | a :: b :: rest => decide (a < b) && isCanonical (b :: rest)

/-! ## Classes of operations -/

def isControlFlow : Operation → Bool
  | .trapAlways | .returnFromException | .sleep | .branch | .call | .branchIfTrue | .branchIfFalse
  | .jumpRegister | .callRegister | .return => true
  | _ => false

def requiresDirectTarget (operation : Operation) : Bool :=
  operation == .branch || operation == .call || operation == .branchIfTrue ||
    operation == .branchIfFalse

def requiresEffectiveAddress (operation : Operation) : Bool :=
  operation == .loadWordSignedPcRelative || operation == .loadLongPcRelative ||
    operation == .moveAddressPcRelative

def requiresSpecialRegister (operation : Operation) : Bool :=
  operation == .storeSpecialRegister || operation == .storeSpecialRegisterPreDecrement ||
    operation == .loadSpecialRegister || operation == .loadSpecialRegisterPostIncrement

def isIndirect (operation : Operation) : Bool :=
  operation == .jumpRegister || operation == .callRegister

def isDeadGprWriteTombstone (i : Instruction) : Bool := i.operation == .nop &&
    match i.originalOperation with
    | .movImmediate | .constant32 | .movRegister | .addImmediate | .addRegister | .subRegister
    | .negateRegister | .notRegister | .andRegister | .orRegister | .xorRegister => true
    | _ => false

/-! ## One instruction -/

def verifyMemoryEffects (i : Instruction) : List VerificationIssue :=
  let effects := i.memoryEffects
  let hasAccess := effects.access != .none
  let hasUpdate := effects.addressUpdate != .none
  issueIf (hasAccess != (effects.width != .none) || hasAccess != (effects.accessCount != 0))
      i.sourceAddress "Speicherzugriff, Breite und Zugriffszahl sind inkonsistent." ++
    issueIf (hasUpdate != (effects.updatedRegisterCount != 0) || effects.width != i.widths.memory)
      i.sourceAddress "Speicher- und Adressupdate-Metadaten sind inkonsistent." ++
    issueIf (!hasAccess && effects.region != .unknown) i.sourceAddress
      "Speicherregion ist ohne Speicherzugriff gesetzt."

/-- `verify_delay_slot`, with the instruction before and those behind. -/
def verifyDelaySlot (previous : Option Instruction) (i : Instruction) (rest : List Instruction) :
    List VerificationIssue :=
  let decoded := Sh4.decode i.originalOpcode
  let role := i.delaySlot.role
  issueIf (role == .owner && !decoded.hasDelaySlot) i.sourceAddress
      "Delay-Slot-Owner verwendet keinen verzoegerten Originalopcode." ++
    issueIf (role != .owner && decoded.hasDelaySlot) i.sourceAddress
      "Verzoegerter Originalopcode besitzt keine Owner-Rolle." ++
    match role, i.delaySlot.counterpartAddress with
    | .none, peer =>
      issueIf peer.isSome i.sourceAddress "Delay-Slot-Rolle None besitzt eine Gegenadresse."
    | _, none =>
      [⟨i.sourceAddress, "Delay-Slot-Beziehung besitzt keine Gegenadresse."⟩]
    | .owner, some peer =>
      issueIf (!isControlFlow i.operation) i.sourceAddress
          "Delay-Slot-Owner ist keine Kontrollflussinstruktion." ++ match rest with
        | [] => [⟨i.sourceAddress, "Delay-Slot-Owner besitzt keinen folgenden Slot."⟩]
        | slot :: behind =>
          issueIf (peer != i.sourceAddress + 2 || slot.sourceAddress != i.sourceAddress + 2 ||
              peer != slot.sourceAddress || slot.delaySlot.role != .slot ||
              slot.delaySlot.counterpartAddress != some i.sourceAddress) i.sourceAddress
              "Delay-Slot-Owner und folgender Slot sind nicht gegenseitig verknuepft." ++
            issueIf (!behind.isEmpty) i.sourceAddress
              "Nach einem Delay-Slot-Paar stehen weitere Blockinstruktionen."
    | .slot, some peer =>
      match previous with
      | none => [⟨i.sourceAddress, "Delay Slot besitzt keinen vorhergehenden Owner."⟩]
      | some owner =>
        issueIf (i.sourceAddress != owner.sourceAddress + 2 || peer != i.sourceAddress - 2 ||
            peer != owner.sourceAddress || owner.delaySlot.role != .owner ||
            owner.delaySlot.counterpartAddress != some i.sourceAddress) i.sourceAddress
            "Delay Slot und vorhergehender Owner sind nicht gegenseitig verknuepft." ++
          issueIf (isControlFlow i.operation || decoded.changesControlFlow) i.sourceAddress
            "Kontrollflussinstruktion ist als Delay Slot ungueltig."

/-- The load takes the value of the store directly in front of it. -/
def isValidForward (previous : Option Instruction) (i : Instruction) (forwarded : BitVec 8) : Bool :=
  match previous with
  | none => false
  | some store =>
    i.operation == .loadLong && store.operation == .storeLong &&
      store.destinationRegister == i.sourceRegister && store.sourceRegister == forwarded &&
      i.memoryEffects.region == .normalRam && store.memoryEffects.region == .normalRam

/-- The metadata of an instruction that its operation determines. -/
def verifyMetadata (i : Instruction) : List VerificationIssue :=
  issueIf (i.widths != operationOperandWidths i.operation) i.sourceAddress
      "Operandbreiten passen nicht zur Operation." ++
    issueIf (i.statusEffects != instructionStatusEffects i.operation i.specialRegister)
      i.sourceAddress "Statusregistereffekte passen nicht zur Operation." ++
    issueIf (i.memoryEffects !=
        { instructionMemoryEffects i.operation i.destinationRegister i.sourceRegister with
          region := i.memoryEffects.region }) i.sourceAddress
      "Speichereffekte passen nicht zur Operation." ++
    issueIf (i.accumulatorEffects != operationAccumulatorEffects i.operation i.specialRegister)
      i.sourceAddress "Akkumulatoreffekte passen nicht zur Operation." ++ verifyMemoryEffects i

/-- The targets of control flow that an instruction carries. -/
def verifyTargets (i : Instruction) : List VerificationIssue :=
  issueIf (requiresDirectTarget i.operation && i.targetAddress.isNone) i.sourceAddress
      "Direkter Kontrollfluss besitzt kein Ziel." ++
    issueIf (requiresEffectiveAddress i.operation && i.effectiveAddress.isNone) i.sourceAddress
      "Operation besitzt keine erforderliche effektive Adresse." ++
    issueIf (requiresSpecialRegister i.operation && i.specialRegister == .none) i.sourceAddress
      "Spezialregisteroperation besitzt kein Spezialregister." ++
    issueIf (!i.resolvedTargets.isEmpty && !isIndirect i.operation) i.sourceAddress
      "Aufgeloeste Ziele gehoeren nicht zu indirektem Kontrollfluss." ++
    issueIf (!isIndirect i.operation && i.dynamicTargetClass != .notApplicable) i.sourceAddress
      "Dynamische Zielklasse gehoert nicht zu indirektem Kontrollfluss." ++
    issueIf (i.dynamicTargetClass == .runtimeOnly && !i.resolvedTargets.isEmpty) i.sourceAddress
      "Runtime-only-Kontrollfluss darf keine geratenen Ziele tragen." ++
    issueIf (i.dynamicTargetClass == .exactGuarded && i.resolvedTargets.length != 1)
      i.sourceAddress "Exact-Guarded-Kontrollfluss benoetigt genau ein erlaubtes Ziel." ++
    issueIf (i.dynamicTargetClass == .guardedComplete && i.resolvedTargets.isEmpty)
      i.sourceAddress "Guarded-Complete-Kontrollfluss benoetigt mindestens ein erlaubtes Ziel." ++
    issueIf (i.branchRegisterRelative && !isIndirect i.operation) i.sourceAddress
      "Registerrelativer Basiswert gehoert nicht zu indirektem Kontrollfluss." ++
    issueIf (!isCanonical i.resolvedTargets) i.sourceAddress
      "Aufgeloeste Kontrollflussziele sind nicht kanonisch."

/-- The registers an instruction names are general registers. -/
def namesGeneralRegisters (i : Instruction) : Bool :=
  i.destinationRegister < 16 && i.sourceRegister < 16 && i.branchRegister < 16 &&
    i.forwardedValueRegister.all (· < 16)

/-- One instruction of a block, behind `previous` and the addresses in `seen`. -/
def verifyInstruction (seen : List (BitVec 32)) (previous : Option Instruction)
    (sawControlFlow : Bool) (i : Instruction) (rest : List Instruction) : List VerificationIssue :=
  issueIf (previous.any fun before => i.sourceAddress ≤ before.sourceAddress) i.sourceAddress
      "Instruktionsadressen sind nicht streng aufsteigend." ++
    issueIf (i.sourceAddress &&& 1 != 0) i.sourceAddress
      "Instruktionsadresse ist nicht 2-Byte-ausgerichtet." ++
    issueIf (i.sourceAddress ∈ seen) i.sourceAddress "Instruktionsadresse ist doppelt vorhanden." ++
    issueIf (i.originalOperation != .unknown && i.operation != i.originalOperation &&
        i.operation != .constant32 && !isDeadGprWriteTombstone i) i.sourceAddress
      "Transformierte IR-Operation ist nicht als synthetische Operation modelliert." ++
    issueIf (!namesGeneralRegisters i) i.sourceAddress
      "Allgemeines Register liegt ausserhalb R0 bis R15." ++ verifyMetadata i ++
    issueIf (i.forwardedValueRegister.any fun forwarded => !isValidForward previous i forwarded)
      i.sourceAddress "Load-Forwarding besitzt keinen passenden direkten Store." ++
    verifyDelaySlot previous i rest ++
    issueIf (sawControlFlow && i.delaySlot.role != .slot) i.sourceAddress
      "Normale Instruktion folgt einer Terminalinstruktion." ++ verifyTargets i

def verifyInstructions (seen : List (BitVec 32)) (previous : Option Instruction)
    (sawControlFlow : Bool) : List Instruction → List VerificationIssue
  | [] => []
  | i :: rest =>
    verifyInstruction seen previous sawControlFlow i rest ++
      verifyInstructions (i.sourceAddress :: seen) (some i)
        (sawControlFlow || isControlFlow i.operation) rest

/-! ## Blocks and the function -/

/-- The instructions of the blocks, with the addresses seen in blocks before. -/
def verifyBlocks (seenBlocks seen : List (BitVec 32)) : List BasicBlock → List VerificationIssue
  | [] => []
  | block :: rest =>
    issueIf (block.startAddress ∈ seenBlocks) block.startAddress
        "Blockadresse ist doppelt vorhanden." ++ (match block.instructions with
        | [] => [⟨block.startAddress, "Block besitzt keine Instruktionen."⟩]
        | first :: _ =>
          issueIf (first.sourceAddress != block.startAddress) block.startAddress
              "Blockstart stimmt nicht mit der ersten Instruktion ueberein." ++
            verifyInstructions seen none false block.instructions) ++
      verifyBlocks (block.startAddress :: seenBlocks)
        (block.instructions.map (·.sourceAddress) ++ seen) rest

/-- The instruction that decides where a block goes. -/
def controllingInstruction (block : BasicBlock) : Option Instruction :=
  match block.instructions.reverse with
  | [] => none
  | [last] => some last
  | last :: before :: _ => if last.delaySlot.role = .slot then some before else some last

/-- The address behind a block. -/
def blockFallthrough (block : BasicBlock) : BitVec 32 :=
  (block.instructions.getLast?.elim 0 fun last => last.sourceAddress) + 2

def expectedSuccessors (blockAddresses : List (BitVec 32)) (block : BasicBlock)
    (control : Instruction) : List (BitVec 32) :=
  let fallthrough := blockFallthrough block
  let targets := match control.operation with
    | .branch => control.targetAddress.toList
    | .branchIfTrue | .branchIfFalse => control.targetAddress.toList ++ [fallthrough]
    | .jumpRegister => control.resolvedTargets
    | .return | .returnFromException | .trapAlways | .sleep => []
    | _ => [fallthrough]
  targets.filter (· ∈ blockAddresses)

def expectedCallees (control : Instruction) : List (BitVec 32) :=
  match control.operation with
  | .call => control.targetAddress.toList
  | .callRegister => control.resolvedTargets
  | _ => []

def expectedIndirectSites (control : Instruction) : List (BitVec 32) :=
  match control.operation with
  | .callRegister => [control.sourceAddress]
  | _ => []

def verifyOwnershipTargets (blockAddresses : List (BitVec 32)) (block : BasicBlock)
    (control : Instruction) : List VerificationIssue :=
  let targets := block.guardedCaseOwnershipTargets
  issueIf (!isCanonical targets) block.startAddress
      "Guarded Case-Ownership-Ziele sind nicht kanonisch." ++ if targets.isEmpty then []
    else
      issueIf (control.operation != .jumpRegister || !control.branchRegisterRelative ||
          (control.dynamicTargetClass != .guardedPartial &&
            control.dynamicTargetClass != .runtimeOnly) ||
          !block.hasIndirectSuccessor) block.startAddress
          "Guarded Case-Ownership passt nicht zu einem bewachten registerrelativen Sprung." ++
        (targets.filter (· ∉ blockAddresses)).map fun _ =>
          ⟨block.startAddress, "Guarded Case-Ownership verweist ausserhalb der Funktion."⟩

/-- The successor metadata of one block. -/
def verifySuccessors (blockAddresses : List (BitVec 32)) (block : BasicBlock) :
    List VerificationIssue :=
  match controllingInstruction block with
  | none => []
  | some control =>
    let actual := sortUnique block.successors
    issueIf (actual != block.successors) block.startAddress
        "Blocknachfolger sind nicht kanonisch sortiert und eindeutig." ++
      issueIf (actual != sortUnique (expectedSuccessors blockAddresses block control))
        block.startAddress "Blocknachfolger passen nicht zur Terminaloperation." ++
      verifyOwnershipTargets blockAddresses block control ++
      issueIf ((!isIndirect control.operation && block.hasIndirectSuccessor) ||
          (isIndirect control.operation && control.resolvedTargets.isEmpty &&
            !block.hasIndirectSuccessor)) block.startAddress
        "Indirekte CFG-Markierung passt nicht zur Terminaloperation."

/-- The lists of calls that a function carries. -/
def verifyCalls (function : Function) : List VerificationIssue :=
  let controls := function.blocks.filterMap controllingInstruction
  let callees := sortUnique (controls.flatMap expectedCallees)
  let sites := sortUnique (controls.flatMap expectedIndirectSites)
  issueIf (sortUnique function.directCallees != function.directCallees ||
      sortUnique function.directCallees != callees) function.entryAddress
      "Direkte Callee-Metadaten sind nicht kanonisch oder veraltet." ++
    issueIf (sortUnique function.indirectCallSites != function.indirectCallSites ||
        sortUnique function.indirectCallSites != sites) function.entryAddress
      "Indirekte Callsite-Metadaten sind nicht kanonisch oder veraltet."

/-- The order in which issues are reported. -/
def issueLe (left right : VerificationIssue) : Bool :=
  if left.address ≠ right.address then left.address < right.address
  else decide (left.message ≤ right.message)

def verifyFunction (function : Function) : List VerificationIssue :=
  if function.blocks.isEmpty then
    [⟨function.entryAddress, "Funktion besitzt keine Bloecke."⟩]
  else
    let blockAddresses := function.blocks.map (·.startAddress)
    (verifyBlocks [] [] function.blocks ++
      issueIf (function.entryAddress ∉ blockAddresses) function.entryAddress
        "Funktionseintritt besitzt keinen gleichnamigen Block." ++
      function.blocks.flatMap (verifySuccessors blockAddresses) ++
      verifyCalls function).insertionSort fun left right => issueLe left right

end KatanaRecomp.Ir
