import KatanaRecomp.Analysis.EntryPredecessors
import KatanaRecomp.Analysis.FunctionEdges

/-! # The journal of function edges

`FunctionEdgeJournal`: the families of every indirect site, kept next to a chain
of layers that shares the unchanged sites of earlier states, two fingerprints,
the predecessor index, and the changes that the function values have not seen.
The ledger remembers the states that the contract iteration has passed.

A root is named by its address in memory, which `make_shared` picks; comparing
two roots first compares their addresses. -/
namespace KatanaRecomp.Analysis
open Lib ByteFormat
open scoped Lib.BitVecOrder

abbrev FamilyMap := OrderedMap (BitVec 32) FunctionEdgeFamilies

/-- The changes of one refresh: no value where the families became empty. -/
abbrev StateChanges := OrderedMap (BitVec 32) (Option FunctionEdgeFamilies)

/-- `FunctionEdgeJournalStateRoot` behind its pointer. -/
inductive StateRoot where
  | null
  | node (address : Nat) (base : StateRoot) (changes : StateChanges)

structure FunctionProgramEdgeSiteDelta where
  instructionAddress : BitVec 32 := 0
  values : List FunctionEdge := []

/-- The lists of a program delta that the journal appends to. -/
structure FunctionProgramDelta where
  changedSemanticEdgeSites : List FunctionProgramEdgeSiteDelta := []
  changedCandidateCallSites : List FunctionProgramEdgeSiteDelta := []
  changedCandidateTailSites : List FunctionProgramEdgeSiteDelta := []

abbrev DeltaMap := OrderedMap (BitVec 32) FunctionProgramEdgeSiteDelta

structure FunctionEdgeJournal where
  families : FamilyMap := .empty
  pendingSemantic : DeltaMap := .empty
  pendingCandidateCalls : DeltaMap := .empty
  pendingCandidateTails : DeltaMap := .empty
  predecessorIndex : GlobalEntryPredecessorIndex := .empty
  stateRoot : StateRoot := .null
  fingerprintA : BitVec 64 := 0
  fingerprintB : BitVec 64 := 0
  stateEntryCount : Nat := 0

namespace StateRoot

/-- The address of a root, zero for the null pointer. -/
def address : StateRoot → Nat
  | null => 0
  | node address _ _ => address

/-- The layers from the newest to the oldest. -/
def chain : StateRoot → List StateChanges
  | null => []
  | node _ base changes => changes :: base.chain

def writeChange (values : FamilyMap) (change : BitVec 32 × Option FunctionEdgeFamilies) :
    FamilyMap :=
  match change.2 with
  | some families => values.insertOrAssign change.1 families
  | none => values.erase change.1

def applyLayer (values : FamilyMap) (layer : StateChanges) : FamilyMap :=
  layer.entries.foldl writeChange values

def flatten (root : StateRoot) : FamilyMap := root.chain.reverse.foldl applyLayer .empty

end StateRoot

def exactStateEqual (left right : StateRoot) : Bool :=
  if left.address = right.address then true
  else left.flatten = right.flatten

def stageFamilyDelta (site : BitVec 32) (old next : List FunctionEdge) (pending : DeltaMap) :
    DeltaMap :=
  if old = next then pending
  else pending.insertOrAssign site { instructionAddress := site, values := next }

def appendDeltaMap (source : DeltaMap) (destination : List FunctionProgramEdgeSiteDelta) :
    List FunctionProgramEdgeSiteDelta := destination ++ source.entries.map (·.2)

namespace FunctionEdgeJournal

def removePredecessors (families : FunctionEdgeFamilies) (index : GlobalEntryPredecessorIndex) :
    GlobalEntryPredecessorIndex :=
  families.edges.foldl (fun index edge => index.removeEdge edge.instructionAddress
    edge.targetAddress) index

def addPredecessors (families : FunctionEdgeFamilies) (index : GlobalEntryPredecessorIndex) :
    GlobalEntryPredecessorIndex :=
  families.edges.foldl (fun index edge => index.addEdge edge.instructionAddress
    edge.targetAddress) index

/-- How the number of sites with edges follows one replacement. -/
def countEntry (count : Nat) (old next : FunctionEdgeFamilies) : Nat :=
  let count := if old = {} ∧ next ≠ {} then count + 1 else count
  if old ≠ {} ∧ next = {} then count - 1 else count

section
variable (sha256Bytes : List Byte → List Byte)

/-- A site gets new families. -/
def replaceSite (journal : FunctionEdgeJournal) (site : BitVec 32) (old next : FunctionEdgeFamilies) :
    FunctionEdgeJournal where
  predecessorIndex := addPredecessors next (removePredecessors old journal.predecessorIndex)
  fingerprintA := journal.fingerprintA ^^^
    ((stateToken sha256Bytes site old).1 ^^^ (stateToken sha256Bytes site next).1)
  fingerprintB := journal.fingerprintB ^^^
    ((stateToken sha256Bytes site old).2 ^^^ (stateToken sha256Bytes site next).2)
  stateEntryCount := countEntry journal.stateEntryCount old next
  pendingSemantic := stageFamilyDelta site old.semantic next.semantic journal.pendingSemantic
  pendingCandidateCalls :=
    stageFamilyDelta site old.candidateCalls next.candidateCalls journal.pendingCandidateCalls
  pendingCandidateTails :=
    stageFamilyDelta site old.candidateTails next.candidateTails journal.pendingCandidateTails
  families :=
    if next = {} then journal.families.erase site else journal.families.insertOrAssign site next
  stateRoot := journal.stateRoot

/-- One round of the loop over the sites. -/
def refreshSite (next : BitVec 32 → FunctionEdgeFamilies)
    (state : FunctionEdgeJournal × StateChanges) (site : BitVec 32) :
    FunctionEdgeJournal × StateChanges :=
  let old := state.1.families.fetch {} site
  if old = next site then state
  else
    (state.1.replaceSite sha256Bytes site old (next site),
      state.2.emplace site (if next site = {} then none else some (next site)))

/-- `refresh`, where a new root would lie at the given address. -/
def refresh (address : Nat) (sites : Finset (BitVec 32))
    (resolutions : OrderedMap (BitVec 32) IndirectControlFlowResolution)
    (tables : OrderedMap (BitVec 32) JumpTableAnalysis)
    (canonicalCodeAddress : BitVec 32 → Option (BitVec 32)) (journal : FunctionEdgeJournal) :
    FunctionEdgeJournal :=
  let next := fun site => siteFamilies canonicalCodeAddress site resolutions tables
  let (journal, stateChanges) :=
    (sites.sort (· ≤ ·)).foldl (refreshSite sha256Bytes next) (journal, .empty)
  if stateChanges.entries.isEmpty then journal
  else { journal with stateRoot := .node address journal.stateRoot stateChanges }

end

def appendPendingDelta (journal : FunctionEdgeJournal) (delta : FunctionProgramDelta) :
    FunctionProgramDelta where
  changedSemanticEdgeSites := appendDeltaMap journal.pendingSemantic delta.changedSemanticEdgeSites
  changedCandidateCallSites :=
    appendDeltaMap journal.pendingCandidateCalls delta.changedCandidateCallSites
  changedCandidateTailSites :=
    appendDeltaMap journal.pendingCandidateTails delta.changedCandidateTailSites

def clearPendingDelta (journal : FunctionEdgeJournal) : FunctionEdgeJournal :=
  { journal with
    pendingSemantic := .empty
    pendingCandidateCalls := .empty
    pendingCandidateTails := .empty }

end FunctionEdgeJournal

/-! ## The ledger of passed states -/

abbrev LedgerKey := Bool × BitVec 64 × BitVec 64 × Nat

/-- `CandidateContractCycleLedger`: the roots of the passed states by key. -/
structure CandidateContractCycleLedger where
  states : LedgerKey → List StateRoot := fun _ => []
  size : Nat := 0

def FunctionEdgeJournal.stateFingerprint (journal : FunctionEdgeJournal) :
    BitVec 64 × BitVec 64 × Nat :=
  (journal.fingerprintA, journal.fingerprintB, journal.stateEntryCount)

def CandidateContractCycleLedger.alreadySeen (ledger : CandidateContractCycleLedger)
    (boundaryContractsActive : Bool) (journal : FunctionEdgeJournal) :
    Bool × CandidateContractCycleLedger :=
  let key := (boundaryContractsActive, journal.stateFingerprint)
  if (ledger.states key).any (exactStateEqual · journal.stateRoot) then (true, ledger)
  else
    (false,
      { states := fun other =>
          if other = key then ledger.states other ++ [journal.stateRoot] else ledger.states other
        size := ledger.size + 1 })

end KatanaRecomp.Analysis
