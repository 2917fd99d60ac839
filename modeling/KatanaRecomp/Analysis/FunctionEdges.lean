import KatanaRecomp.Lib.ByteFormat
import KatanaRecomp.Lib.BitVecOrder
import KatanaRecomp.Lib.MapTotals
import KatanaRecomp.Analysis.BasicBlocks

/-! # The edges of one indirect site

What a resolved site and its jump table contribute to the program: four
families of edges, each sorted and without duplicates, and the token by which
the families enter the fingerprints of a state. -/
namespace KatanaRecomp.Analysis
open Lib ByteFormat
open scoped Lib.BitVecOrder

inductive AnalysisEvidenceOrigin
  | localValue | entrySnapshot | functionSummary | jumpTable | userOverride | userHint
  | runtimeClassification
  deriving DecidableEq

inductive IndirectControlFlowKind
  | jump | call
  deriving DecidableEq

inductive IndirectControlFlowOriginClass
  | notApplicable | callback | parameter | stack | objectVTable | table | unboundedMemory
  | runtimePointer

structure IndirectControlFlowResolution where
  kind : IndirectControlFlowKind := .jump
  evidence : ControlFlowEvidence := .unresolved
  originClass : IndirectControlFlowOriginClass := .notApplicable
  evidenceOrigins : List AnalysisEvidenceOrigin := []
  target : Option (BitVec 32) := none
  targets : List (BitVec 32) := []
  analysisCandidates : List (BitVec 32) := []

inductive JumpTableDispatchKind
  | jump | call
  deriving DecidableEq

structure JumpTableEntry where
  target : BitVec 32 := 0
  accepted : Bool := false

structure JumpTableAnalysis where
  dispatchKind : JumpTableDispatchKind := .jump
  resolved : Bool := false
  aotCandidatesOnly : Bool := false
  evidence : ControlFlowEvidence := .unresolved
  entries : List JumpTableEntry := []

/-- A resolved edge with the fields that the basic blocks do not read. -/
structure FunctionEdge extends ResolvedControlFlowEdge where
  evidenceOrigins : List AnalysisEvidenceOrigin := []
  analysisCandidateCarrier : Bool := false
  deriving DecidableEq

structure FunctionEdgeFamilies where
  semantic : List FunctionEdge := []
  candidateCalls : List FunctionEdge := []
  candidateTails : List FunctionEdge := []
  predecessorOnly : List FunctionEdge := []
  deriving DecidableEq

/-! ## Canonical order -/

/-- The fields in the order of `std::tie`. -/
def compareFunctionEdges (left right : FunctionEdge) : Ordering :=
  (compare left.instructionAddress right.instructionAddress).then <|
  (compare left.targetAddress right.targetAddress).then <|
  (compare left.kind.ctorIdx right.kind.ctorIdx).then <|
  (compare left.guarded.toNat right.guarded.toNat).then <|
  (compare left.evidence.ctorIdx right.evidence.ctorIdx).then <|
  (compare (left.evidenceOrigins.map (·.ctorIdx)) (right.evidenceOrigins.map (·.ctorIdx))).then <|
  compare left.analysisCandidateCarrier.toNat right.analysisCandidateCarrier.toNat

def functionEdgeLess (left right : FunctionEdge) : Bool := compareFunctionEdges left right == .lt

/-- `std::sort` and `std::unique`. -/
def sortUnique {α : Type} [DecidableEq α] (less : α → α → Bool) (values : List α) : List α :=
  (values.mergeSort fun left right => !less right left).destutter (· ≠ ·)

def canonicalizeFunctionEdges (edges : List FunctionEdge) : List FunctionEdge :=
  sortUnique functionEdgeLess edges

/-! ## The families of a site -/

section
variable (canonicalCodeAddress : BitVec 32 → Option (BitVec 32)) (site : BitVec 32)

def canonicalTarget (target : BitVec 32) : BitVec 32 := (canonicalCodeAddress target).getD target

def resolvedTargets (resolution : IndirectControlFlowResolution) : List (BitVec 32) :=
  sortUnique (fun left right => left < right)
    ((resolution.targets ++ resolution.target.toList).map (canonicalTarget canonicalCodeAddress))

def resolvedEdge (resolution : IndirectControlFlowResolution) (target : BitVec 32) :
    FunctionEdge where
  instructionAddress := site
  targetAddress := target
  kind := if resolution.kind = .call then .call else .jump
  guarded := resolution.evidence != .provenComplete
  evidence := resolution.evidence
  evidenceOrigins := resolution.evidenceOrigins

/-- An edge that carries a candidate to the function values. -/
def candidateEdge (kind : ResolvedControlFlowKind) (origins : List AnalysisEvidenceOrigin)
    (target : BitVec 32) : FunctionEdge where
  instructionAddress := site
  targetAddress := canonicalTarget canonicalCodeAddress target
  kind := kind
  guarded := true
  evidence := .guardedPartial
  evidenceOrigins := origins
  analysisCandidateCarrier := true

def addResolution (resolution : IndirectControlFlowResolution) (next : FunctionEdgeFamilies) :
    FunctionEdgeFamilies :=
  let next := { next with
    semantic := next.semantic ++
      (resolvedTargets canonicalCodeAddress resolution).map (resolvedEdge site resolution) }
  let candidates := fun kind => resolution.analysisCandidates.map
    (candidateEdge canonicalCodeAddress site kind resolution.evidenceOrigins)
  match resolution.kind, resolution.originClass with
  | .call, _ => { next with candidateCalls := next.candidateCalls ++ candidates .call }
  | .jump, .table => { next with predecessorOnly := next.predecessorOnly ++ candidates .jump }
  | .jump, _ => { next with candidateTails := next.candidateTails ++ candidates .call }

def tableKind (table : JumpTableAnalysis) : ResolvedControlFlowKind :=
  if table.dispatchKind = .call then .call else .jump

def tableOrigin (table : JumpTableAnalysis) : AnalysisEvidenceOrigin :=
  if table.evidence = .hintCandidate then .userHint
  else if table.evidence = .forcedOverride then .userOverride
  else .jumpTable

def tableEdge (table : JumpTableAnalysis) (entry : JumpTableEntry) : FunctionEdge where
  instructionAddress := site
  targetAddress := canonicalTarget canonicalCodeAddress entry.target
  kind := tableKind table
  guarded := table.evidence != .provenComplete
  evidence := table.evidence
  evidenceOrigins := [tableOrigin table]

/-- A table that is not resolved only says what may be entered. -/
def addTable (table : JumpTableAnalysis) (next : FunctionEdgeFamilies) : FunctionEdgeFamilies :=
  if table.resolved && !table.aotCandidatesOnly then
    { next with
      semantic := next.semantic ++ table.entries.map (tableEdge canonicalCodeAddress site table) }
  else
    { next with
      predecessorOnly := next.predecessorOnly ++ (table.entries.filter (·.accepted)).map fun entry =>
        candidateEdge canonicalCodeAddress site (tableKind table) [.jumpTable] entry.target }

def canonicalizeFamilies (families : FunctionEdgeFamilies) : FunctionEdgeFamilies where
  semantic := canonicalizeFunctionEdges families.semantic
  candidateCalls := canonicalizeFunctionEdges families.candidateCalls
  candidateTails := canonicalizeFunctionEdges families.candidateTails
  predecessorOnly := canonicalizeFunctionEdges families.predecessorOnly

/-- The families that a refresh finds for a site. -/
def siteFamilies (resolutions : OrderedMap (BitVec 32) IndirectControlFlowResolution)
    (tables : OrderedMap (BitVec 32) JumpTableAnalysis) : FunctionEdgeFamilies :=
  let next := (resolutions.find site).elim {} fun resolution =>
    addResolution canonicalCodeAddress site resolution {}
  canonicalizeFamilies <| (tables.find site).elim next fun table =>
    addTable canonicalCodeAddress site table next

end

namespace FunctionEdgeFamilies

/-- The edges of all four families. -/
def edges (families : FunctionEdgeFamilies) : List FunctionEdge :=
  families.semantic ++ families.candidateCalls ++ families.candidateTails ++
    families.predecessorOnly

/-- How many edges lead from one address to another. -/
def edgeCount (families : FunctionEdgeFamilies) (source target : BitVec 32) : Nat :=
  families.edges.countP fun edge =>
    edge.instructionAddress = source ∧ edge.targetAddress = target

end FunctionEdgeFamilies

/-! ## The token of a site -/

def encodeEdge (edge : FunctionEdge) : List Byte :=
  littleEndian 4 edge.instructionAddress ++ littleEndian 4 edge.targetAddress ++
    littleEndian 4 (BitVec.ofNat 32 edge.kind.ctorIdx) ++
    littleEndian 1 (BitVec.ofNat 8 edge.guarded.toNat) ++
    littleEndian 1 (BitVec.ofNat 8 edge.evidence.ctorIdx) ++
    littleEndian 1 (BitVec.ofNat 8 edge.analysisCandidateCarrier.toNat) ++
    littleEndian 8 (BitVec.ofNat 64 edge.evidenceOrigins.length) ++
    edge.evidenceOrigins.flatMap fun origin => littleEndian 1 (BitVec.ofNat 8 origin.ctorIdx)

def encodeFamily (edges : List FunctionEdge) : List Byte :=
  littleEndian 8 (BitVec.ofNat 64 edges.length) ++ edges.flatMap encodeEdge

def encodeFamilies (site : BitVec 32) (families : FunctionEdgeFamilies) : List Byte :=
  littleEndian 4 site ++ encodeFamily families.semantic ++ encodeFamily families.candidateCalls ++
    encodeFamily families.candidateTails ++ encodeFamily families.predecessorOnly

/-- The value of a hexadecimal digit. -/
def digitValue (digit : Byte) : BitVec 64 :=
  if 0x30 ≤ digit ∧ digit ≤ 0x39 then digit.setWidth 64 - 0x30 else digit.setWidth 64 - 0x61 + 10

/-- The number that sixteen digits of a digest stand for. -/
def parseDigits (digest : List Byte) (offset : Nat) : BitVec 64 := (List.range 16).foldl
    (fun result index => result <<< 4 ||| digitValue (digest.getD (offset + index) 0)) 0

/-- `state_token` with the hash it uses. -/
def stateToken (sha256Bytes : List Byte → List Byte) (site : BitVec 32)
    (families : FunctionEdgeFamilies) : BitVec 64 × BitVec 64 :=
  if families = {} then (0, 0)
  else
    let digest := sha256Bytes (encodeFamilies site families)
    (parseDigits digest 0, parseDigits digest 16)

theorem stateToken_empty (sha256Bytes : List Byte → List Byte) (site : BitVec 32) :
    stateToken sha256Bytes site {} = (0, 0) := if_pos rfl

end KatanaRecomp.Analysis
