import KatanaRecomp.Io.InputProvenance
import KatanaRecomp.Ir.Verifier

/-! # Programs

The verification of all functions of a program, and the digest of the JSON text of
some of them. The text of one instruction is a parameter. -/
namespace KatanaRecomp.Ir
open Lib.ByteFormat Io.InputProvenance

/-! ## Verification -/

/-- The callees that a function needs an entry for. -/
def requiredCallees (function : Function) : List (BitVec 32) :=
  sortUnique (function.blocks.flatMap fun block =>
    match controllingInstruction block with
    | none => []
    | some control =>
      if control.operation = .call then control.targetAddress.toList
      else if control.operation = .callRegister ∧ !block.hasIndirectSuccessor then
        control.resolvedTargets
      else [])

/-- The loop over the functions, behind the entries of those before. -/
def verifyEntries (seen : List (BitVec 32)) : List Function → List VerificationIssue
  | [] => []
  | function :: rest =>
    verifyFunction function ++ issueIf (function.entryAddress ∈ seen) function.entryAddress
        "Funktionseintritt ist im Programm doppelt vorhanden." ++
      verifyEntries (function.entryAddress :: seen) rest

/-- `hex_address`. -/
def hexAddress (address : BitVec 32) : String :=
  "0x" ++ String.ofList ((List.range 8).map fun digit =>
    (Nat.digitChar ((address >>> (28 - 4 * digit)).toNat % 16)).toUpper)

def verifyProgram (functions : List Function) : List VerificationIssue :=
  (verifyEntries [] functions ++ functions.flatMap fun function =>
    (requiredCallees function).flatMap fun callee =>
      issueIf (callee ∉ functions.map (·.entryAddress)) function.entryAddress
        ("Callee " ++ hexAddress callee ++
          " besitzt keinen eindeutigen Funktionseintritt.")).insertionSort
    fun left right => issueLe left right

def requireValidProgram (functions : List Function) : Except String Unit :=
  match verifyProgram functions with
  | [] => .ok ()
  | issue :: _ =>
    .error ("Ungueltiges Katana-IR-Programm: " ++ hexAddress issue.address ++ ": " ++ issue.message)

/-- Two neighbours have one entry address. -/
def hasDuplicateEntry : List Function → Bool
  | left :: right :: rest =>
    decide (left.entryAddress = right.entryAddress) || hasDuplicateEntry (right :: rest)
  | _ => false

/-! ## The fragment -/

def commaSeparated (texts : List String) : String := String.intercalate "," texts

def emitJsonAddresses (addresses : List (BitVec 32)) : String :=
  "[" ++ commaSeparated (addresses.map fun address => "\"" ++ hexAddress address ++ "\"") ++ "]"

def sortedValues (values : List (BitVec 32)) : List (BitVec 32) := values.insertionSort (· ≤ ·)

def booleanName (value : Bool) : String :=
  if value then "true" else "false"

section
variable (emitJsonInstruction : Instruction → String)

def emitJsonBlock (block : BasicBlock) : String :=
  let instructions := block.instructions.insertionSort fun left right =>
    left.sourceAddress ≤ right.sourceAddress
  "\x7b\"start_address\":\"" ++ hexAddress block.startAddress ++
    "\",\"successors\":" ++ emitJsonAddresses (sortedValues block.successors) ++
    ",\"guarded_case_ownership_targets\":" ++
    emitJsonAddresses (sortedValues block.guardedCaseOwnershipTargets) ++
    ",\"has_indirect_successor\":" ++ booleanName block.hasIndirectSuccessor ++
    ",\"instructions\":[" ++ commaSeparated (instructions.map emitJsonInstruction) ++ "]\x7d"

def emitJsonFunction (function : Function) : String :=
  let blocks := function.blocks.insertionSort fun left right =>
    left.startAddress ≤ right.startAddress
  "\x7b\"entry_address\":\"" ++ hexAddress function.entryAddress ++
    "\",\"direct_callees\":" ++ emitJsonAddresses (sortedValues function.directCallees) ++
    ",\"indirect_call_sites\":" ++ emitJsonAddresses (sortedValues function.indirectCallSites) ++
    ",\"blocks\":[" ++ commaSeparated (blocks.map (emitJsonBlock emitJsonInstruction)) ++ "]\x7d"

/-- `emit_ir_fragment_json_to`; the report version is 1. -/
def emitIrFragmentJson (orderedFunctions : List Function) : String :=
  "\x7b\"schema\":\"katana-ir-v2\",\"functions\":[" ++
    commaSeparated (orderedFunctions.map (emitJsonFunction emitJsonInstruction)) ++
    "],\"report_version\":1,\"report_type\":\"ir\",\"status\":\"success\"\x7d\n"

/-- The digest of the text; the external entries are part of the call only. -/
def emitValidatedIrFragmentSha256 (functions : List Function)
    (_externalFunctionEntries : List (BitVec 32)) : Except String (List Byte) :=
  let orderedFunctions := functions.insertionSort fun left right =>
    left.entryAddress ≤ right.entryAddress
  if hasDuplicateEntry orderedFunctions then
    .error "IR-Fragment-Hash besitzt doppelte Funktionseinstiege."
  else
    .ok (sha256Bytes ((emitIrFragmentJson emitJsonInstruction orderedFunctions).toList.map
      fun character => BitVec.ofNat 8 character.toNat))

end
end KatanaRecomp.Ir
