import KatanaRecomp.Analysis.FunctionEdgeJournalLaws

/-! # Runs of the journal

The caller refreshes sites, collects and clears the pending changes, and asks
the ledger whether a state was there before. Next to the journal a run keeps
what the statements speak of: the families of the last clear and the states
that were passed to the ledger. -/
namespace KatanaRecomp.Analysis
open Lib ByteFormat
open scoped Lib.BitVecOrder

inductive JournalCall where
  | refresh (sites : Finset (BitVec 32))
      (resolutions : OrderedMap (BitVec 32) IndirectControlFlowResolution)
      (tables : OrderedMap (BitVec 32) JumpTableAnalysis)
      (canonicalCodeAddress : BitVec 32 → Option (BitVec 32))
  | appendPendingDelta
  | clearPendingDelta
  | alreadySeen (boundaryContractsActive : Bool)

structure JournalRun where
  journal : FunctionEdgeJournal := {}
  ledger : CandidateContractCycleLedger := {}
  /-- The program delta that the caller is putting together. -/
  delta : FunctionProgramDelta := {}
  /-- Where the next root will lie. -/
  nextAddress : Nat := 1
  /-- The families as of the last clear. -/
  cleared : FamilyMap := .empty
  /-- The states that were passed to the ledger. -/
  passed : List (Bool × FamilyMap) := []

/-- What a site has of one of the families. -/
def siteEdges (family : FunctionEdgeFamilies → List FunctionEdge) (families : FamilyMap)
    (site : BitVec 32) : List FunctionEdge := family (families.fetch {} site)

/-- The consumer puts the new edges of each changed site in place of the old. -/
def replayDelta (edges : BitVec 32 → List FunctionEdge)
    (changes : List FunctionProgramEdgeSiteDelta) : BitVec 32 → List FunctionEdge :=
  changes.foldl (fun edges change => Function.update edges change.instructionAddress change.values)
    edges

namespace JournalRun
variable (sha256Bytes : List Byte → List Byte)

def step (run : JournalRun) : JournalCall → JournalRun
  | .refresh sites resolutions tables canonicalCodeAddress =>
    { run with
      journal := run.journal.refresh sha256Bytes run.nextAddress sites resolutions tables
        canonicalCodeAddress
      nextAddress := run.nextAddress + 1 }
  | .appendPendingDelta => { run with delta := run.journal.appendPendingDelta run.delta }
  | .clearPendingDelta =>
    { run with journal := run.journal.clearPendingDelta, cleared := run.journal.families }
  | .alreadySeen active =>
    { run with
      ledger := (run.ledger.alreadySeen active run.journal).2
      passed := (active, run.journal.families) :: run.passed }

def after (calls : List JournalCall) : JournalRun := calls.foldl (step sha256Bytes) {}

end JournalRun

/-- Everything a journal keeps says the same. -/
structure JournalRun.Consistent (sha256Bytes : List Byte → List Byte) (run : JournalRun) :
    Prop where
  flattened : run.journal.families = run.journal.stateRoot.flatten
  entries : run.journal.stateEntryCount = run.journal.families.entries.length
  nonempty : ∀ entry ∈ run.journal.families.entries, entry.2 ≠ {}
  counted : ∀ source target, run.journal.predecessorIndex.edgeCount source target =
    (run.journal.families.entries.flatMap (·.2.edges)).countP fun edge =>
      edge.instructionAddress = source ∧ edge.targetAddress = target
  fingerprintA : run.journal.fingerprintA = (run.journal.families.entries.map fun entry =>
      (stateToken sha256Bytes entry.1 entry.2).1).foldr (· ^^^ ·) 0
  fingerprintB : run.journal.fingerprintB = (run.journal.families.entries.map fun entry =>
      (stateToken sha256Bytes entry.1 entry.2).2).foldr (· ^^^ ·) 0
  semantic : replayDelta (siteEdges (·.semantic) run.cleared)
      (run.journal.appendPendingDelta {}).changedSemanticEdgeSites =
    siteEdges (·.semantic) run.journal.families
  candidateCalls : replayDelta (siteEdges (·.candidateCalls) run.cleared)
      (run.journal.appendPendingDelta {}).changedCandidateCallSites =
    siteEdges (·.candidateCalls) run.journal.families
  candidateTails : replayDelta (siteEdges (·.candidateTails) run.cleared)
      (run.journal.appendPendingDelta {}).changedCandidateTailSites =
    siteEdges (·.candidateTails) run.journal.families
  seen : ∀ active, (run.ledger.alreadySeen active run.journal).1 = true ↔
    (active, run.journal.families) ∈ run.passed

/-! ## Pending changes -/

/-- The pending changes of one family lead from the old edges to the new. -/
structure LeadsTo (pending : DeltaMap) (old new : BitVec 32 → List FunctionEdge) : Prop where
  addresses : ∀ site change, pending.find site = some change → change.instructionAddress = site
  values : ∀ site, new site = ((pending.find site).map (·.values)).getD (old site)

variable {pending : DeltaMap} {old new : BitVec 32 → List FunctionEdge}

theorem LeadsTo.refl (edges : BitVec 32 → List FunctionEdge) : LeadsTo .empty edges edges where
  addresses _ _ h := absurd (h.symm.trans (OrderedMap.find_empty _)) (Option.some_ne_none _)
  values _ := rfl

/-- One site gets other edges. -/
theorem LeadsTo.stage (h : LeadsTo pending old new) {site : BitVec 32}
    {next : List FunctionEdge} {new' : BitVec 32 → List FunctionEdge}
    (hnew : ∀ site', new' site' = if site' = site then next else new site') :
    LeadsTo (stageFamilyDelta site (new site) next pending) old new' := by
  unfold stageFamilyDelta
  split
  · rename_i hsame
    refine ⟨h.addresses, fun site' => ?_⟩
    rw [hnew, ← h.values]
    split
    · rename_i hsite
      rw [hsite, hsame]
    · rfl
  · refine ⟨fun site' change hfind => ?_, fun site' => ?_⟩
    · rw [OrderedMap.find_insertOrAssign] at hfind
      split at hfind
      · rename_i hsite
        cases hfind
        exact hsite.symm
      · exact h.addresses site' change hfind
    · rw [hnew, OrderedMap.find_insertOrAssign]
      split
      · rfl
      · exact h.values site'

theorem LeadsTo.replay (h : LeadsTo pending old new) :
    replayDelta old (appendDeltaMap pending []) = new := by
  have hkeys : ∀ entry ∈ pending.entries, entry.2.instructionAddress = entry.1 := fun entry hentry =>
    h.addresses entry.1 entry.2 (OrderedMap.mem_entries_iff.mp hentry)
  have hfold : replayDelta old (appendDeltaMap pending []) = pending.entries.foldl
      (fun edges entry => Function.update edges entry.1 entry.2.values) old := by
    rw [replayDelta, appendDeltaMap, List.nil_append, List.foldl_map]
    refine List.foldl_ext _ _ _ fun edges entry hentry => ?_
    rw [hkeys entry hentry]
  have hwrite : ∀ (edges : BitVec 32 → List FunctionEdge)
      (entry : BitVec 32 × FunctionProgramEdgeSiteDelta) site,
      (Function.update edges entry.1 entry.2.values) site =
        if site = entry.1 then entry.2.values else edges site :=
    fun edges entry site => Function.update_apply edges entry.1 entry.2.values site
  funext site
  rw [hfold, h.values]
  exact OrderedMap.read_foldl_entries id _ (·.values) hwrite pending old site

/-- The three pending maps lead from the families of the last clear to the current ones. -/
structure FunctionEdgeJournal.Pends (journal : FunctionEdgeJournal) (cleared : FamilyMap) :
    Prop where
  semantic : LeadsTo journal.pendingSemantic (siteEdges (·.semantic) cleared)
    (siteEdges (·.semantic) journal.families)
  candidateCalls : LeadsTo journal.pendingCandidateCalls (siteEdges (·.candidateCalls) cleared)
    (siteEdges (·.candidateCalls) journal.families)
  candidateTails : LeadsTo journal.pendingCandidateTails (siteEdges (·.candidateTails) cleared)
    (siteEdges (·.candidateTails) journal.families)

variable {sha256Bytes : List Byte → List Byte} {journal : FunctionEdgeJournal}
  {cleared : FamilyMap} {layer : StateChanges}

theorem siteEdges_store (family : FunctionEdgeFamilies → List FunctionEdge) (families : FamilyMap)
    (site : BitVec 32) (next : FunctionEdgeFamilies) (site' : BitVec 32) :
    siteEdges family (OrderedMap.store {} families site next) site' =
      if site' = site then family next else siteEdges family families site' := by
  unfold siteEdges
  rw [OrderedMap.fetch_store]
  split <;> rfl

theorem FunctionEdgeJournal.Pends.replaceSite (h : journal.Pends cleared) (site : BitVec 32)
    (next : FunctionEdgeFamilies) :
    (journal.replaceSite sha256Bytes site (journal.families.fetch {} site) next).Pends cleared where
  semantic := h.semantic.stage (siteEdges_store (·.semantic) journal.families site next)
  candidateCalls :=
    h.candidateCalls.stage (siteEdges_store (·.candidateCalls) journal.families site next)
  candidateTails :=
    h.candidateTails.stage (siteEdges_store (·.candidateTails) journal.families site next)

/-! ## A refresh -/

namespace FunctionEdgeJournal

/-- The rounds of a refresh over sites that the layer does not name yet. -/
theorem foldl_refreshSite (next : BitVec 32 → FunctionEdgeFamilies) {sites : List (BitVec 32)}
    (hnodup : sites.Nodup) {journal : FunctionEdgeJournal} {layer : StateChanges}
    (hdescribes : journal.Describes sha256Bytes layer) (hpends : journal.Pends cleared)
    (hfresh : ∀ site ∈ sites, layer.find site = none) :
    let refreshed := sites.foldl (refreshSite sha256Bytes next) (journal, layer)
    refreshed.1.Describes sha256Bytes refreshed.2 ∧ refreshed.1.Pends cleared ∧
      refreshed.1.stateRoot = journal.stateRoot := by
  induction sites generalizing journal layer with
  | nil => exact ⟨hdescribes, hpends, rfl⟩
  | cons site rest ih =>
    obtain ⟨hnotin, hrest⟩ := List.nodup_cons.mp hnodup
    rw [List.foldl_cons]
    by_cases hsame : journal.families.fetch {} site = next site
    · have hround : refreshSite sha256Bytes next (journal, layer) site = (journal, layer) :=
        if_pos hsame
      rw [hround]
      exact ih hrest hdescribes hpends fun site' hsite' =>
        hfresh site' (List.mem_cons_of_mem _ hsite')
    · have hround : refreshSite sha256Bytes next (journal, layer) site =
          (journal.replaceSite sha256Bytes site (journal.families.fetch {} site) (next site),
            layer.emplace site (if next site = {} then none else some (next site))) := if_neg hsame
      rw [hround]
      refine ih hrest (hdescribes.replaceSite (hfresh site List.mem_cons_self) (next site))
        (hpends.replaceSite site (next site)) fun site' hsite' => ?_
      have hne : site' ≠ site := fun h => hnotin (h ▸ hsite')
      rw [OrderedMap.find_emplace, if_neg hne]
      exact hfresh site' (List.mem_cons_of_mem _ hsite')

/-- A refresh keeps the journal consistent, and makes at most one root over the old. -/
theorem refresh_spec (hdescribes : journal.Describes sha256Bytes .empty)
    (hpends : journal.Pends cleared) (address : Nat) (sites : Finset (BitVec 32))
    (resolutions : OrderedMap (BitVec 32) IndirectControlFlowResolution)
    (tables : OrderedMap (BitVec 32) JumpTableAnalysis)
    (canonicalCodeAddress : BitVec 32 → Option (BitVec 32)) :
    let refreshed :=
      journal.refresh sha256Bytes address sites resolutions tables canonicalCodeAddress
    refreshed.Describes sha256Bytes .empty ∧ refreshed.Pends cleared ∧
      (refreshed.stateRoot = journal.stateRoot ∨
        ∃ changes, refreshed.stateRoot = .node address journal.stateRoot changes) := by
  have hfold := foldl_refreshSite
    (fun site => siteFamilies canonicalCodeAddress site resolutions tables)
    (sites.sort_nodup (· ≤ ·)) hdescribes hpends fun site _ => OrderedMap.find_empty site
  unfold refresh
  dsimp only at hfold ⊢
  generalize (sites.sort (· ≤ ·)).foldl (refreshSite sha256Bytes
    (fun site => siteFamilies canonicalCodeAddress site resolutions tables))
    (journal, OrderedMap.empty) = refreshed at hfold ⊢
  obtain ⟨refreshed, changes⟩ := refreshed
  obtain ⟨hdescribes', hpends', hroot⟩ := hfold
  dsimp only at hdescribes' hpends' hroot ⊢
  split
  · rename_i hempty
    have hchanges : changes = .empty := OrderedMap.ext (List.isEmpty_iff.mp hempty)
    rw [hchanges] at hdescribes'
    exact ⟨hdescribes', hpends', .inl hroot⟩
  · refine ⟨⟨hdescribes'.omits, ?_, hdescribes'.counted, hdescribes'.fingerprintA,
      hdescribes'.fingerprintB, hdescribes'.entries⟩,
      ⟨hpends'.semantic, hpends'.candidateCalls, hpends'.candidateTails⟩,
      .inr ⟨changes, by rw [hroot]⟩⟩
    rw [StateRoot.applyLayer_empty, StateRoot.flatten_node]
    exact hdescribes'.flattened

end FunctionEdgeJournal

/-! ## The ledger -/

/-- The address of a root names it. -/
def StateRoot.Named (named : Nat → StateRoot) (nextAddress : Nat) (root : StateRoot) : Prop :=
  root.address < nextAddress ∧ named root.address = root

variable {named : Nat → StateRoot}

/-- A new root takes an address that no other has. -/
theorem StateRoot.Named.update {nextAddress : Nat} {root : StateRoot}
    (h : root.Named named nextAddress) (new : StateRoot) :
    root.Named (Function.update named nextAddress new) (nextAddress + 1) := by
  refine ⟨by have := h.1; omega, ?_⟩
  rw [Function.update_of_ne h.1.ne]
  exact h.2

theorem exactStateEqual_iff {nextAddress : Nat} {left right : StateRoot}
    (hleft : left.Named named nextAddress) (hright : right.Named named nextAddress) :
    exactStateEqual left right = true ↔ left.flatten = right.flatten := by
  unfold exactStateEqual
  split
  · rename_i haddress
    have hsame : left = right := by rw [← hleft.2, ← hright.2, haddress]
    exact iff_of_true rfl (congrArg StateRoot.flatten hsame)
  · exact decide_eq_true_iff

/-- The key that the families of a state give it. -/
def ledgerKey (sha256Bytes : List Byte → List Byte) (active : Bool) (families : FamilyMap) :
    LedgerKey :=
  (active, FunctionEdgeJournal.tokens (fun site family => (stateToken sha256Bytes site family).1)
      families,
    FunctionEdgeJournal.tokens (fun site family => (stateToken sha256Bytes site family).2) families,
    FunctionEdgeJournal.occupiedSites families)

/-- The invariant of a run. -/
structure JournalRun.Sound (sha256Bytes : List Byte → List Byte) (run : JournalRun) : Prop where
  describes : run.journal.Describes sha256Bytes .empty
  pends : run.journal.Pends run.cleared
  roots : ∃ named : Nat → StateRoot, run.journal.stateRoot.Named named run.nextAddress ∧
    ∀ key, ∀ root ∈ run.ledger.states key, root.Named named run.nextAddress
  kept : ∀ key, ∀ root ∈ run.ledger.states key, (key.1, root.flatten) ∈ run.passed
  found : ∀ active families, (active, families) ∈ run.passed →
    ∃ root ∈ run.ledger.states (ledgerKey sha256Bytes active families), root.flatten = families

namespace JournalRun
variable {run : JournalRun} (h : run.Sound sha256Bytes)
include h

theorem Sound.flattened : run.journal.stateRoot.flatten = run.journal.families := by
  have hflattened := h.describes.flattened
  rwa [StateRoot.applyLayer_empty] at hflattened

theorem Sound.key (active : Bool) :
    (active, run.journal.stateFingerprint) = ledgerKey sha256Bytes active run.journal.families := by
  rw [FunctionEdgeJournal.stateFingerprint, h.describes.fingerprintA, h.describes.fingerprintB,
    h.describes.entries]
  rfl

theorem Sound.any_iff (active : Bool) :
    (run.ledger.states (active, run.journal.stateFingerprint)).any
        (exactStateEqual · run.journal.stateRoot) = true ↔
      (active, run.journal.families) ∈ run.passed := by
  obtain ⟨named, hroot, hstates⟩ := h.roots
  rw [List.any_eq_true]
  constructor
  · intro hany
    obtain ⟨root, hmem, hequal⟩ := hany
    have hflatten := (exactStateEqual_iff (hstates _ root hmem) hroot).mp hequal
    have hpassed := h.kept _ root hmem
    rwa [hflatten, h.flattened] at hpassed
  · intro hpassed
    obtain ⟨root, hmem, hflatten⟩ := h.found active run.journal.families hpassed
    rw [← h.key] at hmem
    refine ⟨root, hmem, (exactStateEqual_iff (hstates _ root hmem) hroot).mpr ?_⟩
    rw [hflatten, h.flattened]

theorem Sound.seen_iff (active : Bool) : (run.ledger.alreadySeen active run.journal).1 = true ↔
      (active, run.journal.families) ∈ run.passed := by
  rw [← h.any_iff active]
  unfold CandidateContractCycleLedger.alreadySeen
  dsimp only
  split
  · rename_i hany
    exact iff_of_true rfl hany
  · rename_i hany
    exact iff_of_false Bool.false_ne_true hany

/-! ### Each call keeps the invariant -/

theorem Sound.refresh (sites : Finset (BitVec 32))
    (resolutions : OrderedMap (BitVec 32) IndirectControlFlowResolution)
    (tables : OrderedMap (BitVec 32) JumpTableAnalysis)
    (canonicalCodeAddress : BitVec 32 → Option (BitVec 32)) :
    (run.step sha256Bytes (.refresh sites resolutions tables canonicalCodeAddress)).Sound
      sha256Bytes := by
  obtain ⟨hdescribes, hpends, hroot⟩ := FunctionEdgeJournal.refresh_spec h.describes h.pends
    run.nextAddress sites resolutions tables canonicalCodeAddress
  obtain ⟨named, hnamed, hstates⟩ := h.roots
  refine ⟨hdescribes, hpends, ?_, h.kept, h.found⟩
  rcases hroot with hsame | ⟨changes, hnew⟩
  · refine ⟨Function.update named run.nextAddress .null, ?_, fun key root hmem =>
      (hstates key root hmem).update _⟩
    exact hsame ▸ hnamed.update _
  · refine ⟨Function.update named run.nextAddress
      (.node run.nextAddress run.journal.stateRoot changes), ?_, fun key root hmem =>
      (hstates key root hmem).update _⟩
    dsimp only [step]
    rw [hnew]
    exact ⟨Nat.lt_succ_self _, Function.update_self _ _ _⟩

theorem Sound.clearPendingDelta : (run.step sha256Bytes .clearPendingDelta).Sound sha256Bytes where
  describes := ⟨h.describes.omits, h.describes.flattened, h.describes.counted,
    h.describes.fingerprintA, h.describes.fingerprintB, h.describes.entries⟩
  pends := ⟨.refl _, .refl _, .refl _⟩
  roots := h.roots
  kept := h.kept
  found := h.found

theorem Sound.alreadySeen (active : Bool) :
    (run.step sha256Bytes (.alreadySeen active)).Sound sha256Bytes := by
  have hany := h.any_iff active
  obtain ⟨named, hroot, hstates⟩ := h.roots
  by_cases hseen : (active, run.journal.families) ∈ run.passed
  · -- a repeated state leaves the ledger as it is
    have hledger : (run.ledger.alreadySeen active run.journal).2 = run.ledger := by
      unfold CandidateContractCycleLedger.alreadySeen
      dsimp only
      rw [if_pos (hany.mpr hseen)]
    refine ⟨h.describes, h.pends, ⟨named, hroot, ?_⟩, ?_, ?_⟩
    · intro key root hmem
      exact hstates key root (hledger ▸ hmem)
    · intro key root hmem
      exact List.mem_cons_of_mem _ (h.kept key root (hledger ▸ hmem))
    · intro other families hpassed
      have hbefore : (other, families) ∈ run.passed := by
        rcases List.mem_cons.mp hpassed with hnow | hbefore
        · exact hnow ▸ hseen
        · exact hbefore
      obtain ⟨root, hmem, hflatten⟩ := h.found other families hbefore
      refine ⟨root, ?_, hflatten⟩
      change root ∈ (run.ledger.alreadySeen active run.journal).2.states _
      rw [hledger]
      exact hmem
  · have hstates' : ∀ key, (run.ledger.alreadySeen active run.journal).2.states key =
        if key = (active, run.journal.stateFingerprint) then
          run.ledger.states key ++ [run.journal.stateRoot]
        else run.ledger.states key := by
      intro key
      unfold CandidateContractCycleLedger.alreadySeen
      dsimp only
      rw [if_neg (fun htrue => hseen (hany.mp htrue))]
    have hmem' : ∀ key root, root ∈ (run.ledger.alreadySeen active run.journal).2.states key ↔
        root ∈ run.ledger.states key ∨
          key = (active, run.journal.stateFingerprint) ∧ root = run.journal.stateRoot := by
      intro key root
      rw [hstates']
      by_cases hkey : key = (active, run.journal.stateFingerprint) <;> simp [hkey]
    refine ⟨h.describes, h.pends, ⟨named, hroot, ?_⟩, ?_, ?_⟩
    · intro key root hmem
      rcases (hmem' key root).mp hmem with hbefore | ⟨-, rfl⟩
      · exact hstates key root hbefore
      · exact hroot
    · intro key root hmem
      rcases (hmem' key root).mp hmem with hbefore | ⟨rfl, rfl⟩
      · exact List.mem_cons_of_mem _ (h.kept key root hbefore)
      · rw [h.flattened]
        exact List.mem_cons_self
    · intro other families hpassed
      rcases List.mem_cons.mp hpassed with hnow | hbefore
      · obtain ⟨rfl, rfl⟩ := Prod.mk.inj hnow
        refine ⟨run.journal.stateRoot, (hmem' _ _).mpr (.inr ⟨?_, rfl⟩), h.flattened⟩
        exact (h.key other).symm
      · obtain ⟨root, hmem, hflatten⟩ := h.found other families hbefore
        exact ⟨root, (hmem' _ _).mpr (.inl hmem), hflatten⟩

omit h

theorem Sound.step (h : run.Sound sha256Bytes) (call : JournalCall) :
    (run.step sha256Bytes call).Sound sha256Bytes := by
  cases call with
  | refresh sites resolutions tables canonicalCodeAddress =>
    exact h.refresh sites resolutions tables canonicalCodeAddress
  | appendPendingDelta => exact ⟨h.describes, h.pends, h.roots, h.kept, h.found⟩
  | clearPendingDelta => exact h.clearPendingDelta
  | alreadySeen active => exact h.alreadySeen active

theorem sound_start : ({} : JournalRun).Sound sha256Bytes where
  describes := ⟨fun _ hfind => Option.some_ne_none _ (hfind.symm.trans (OrderedMap.find_empty _)),
    rfl, fun _ _ => rfl, rfl, rfl, rfl⟩
  pends := ⟨.refl _, .refl _, .refl _⟩
  roots := ⟨fun _ => .null, ⟨Nat.zero_lt_one, rfl⟩, fun _ _ hmem => absurd hmem List.not_mem_nil⟩
  kept _ _ hmem := absurd hmem List.not_mem_nil
  found _ _ hmem := absurd hmem List.not_mem_nil

theorem sound_after (calls : List JournalCall) : (after sha256Bytes calls).Sound sha256Bytes := by
  unfold after
  generalize hstart : ({} : JournalRun) = run
  have hsound : run.Sound sha256Bytes := hstart ▸ sound_start
  clear hstart
  induction calls generalizing run with
  | nil => exact hsound
  | cons call rest ih => exact ih (run.step sha256Bytes call) (hsound.step call)

/-! ### What the invariant says -/

theorem carriedEdges_eq (families : FamilyMap) (source target : BitVec 32) :
    FunctionEdgeJournal.carriedEdges families source target =
      (families.entries.flatMap (·.2.edges)).countP fun edge =>
        edge.instructionAddress = source ∧ edge.targetAddress = target := by
  unfold FunctionEdgeJournal.carriedEdges OrderedMap.total
  induction families.entries with
  | nil => rfl
  | cons first rest ih =>
    rw [List.foldr_cons, ih, List.flatMap_cons, List.countP_append]
    rfl

theorem tokens_eq (token : BitVec 32 → FunctionEdgeFamilies → BitVec 64) (families : FamilyMap) :
    FunctionEdgeJournal.tokens token families =
      (families.entries.map fun entry => token entry.1 entry.2).foldr (· ^^^ ·) 0 := by
  rw [List.foldr_map]
  rfl

theorem Sound.consistent (h : run.Sound sha256Bytes) : run.Consistent sha256Bytes where
  flattened := h.flattened.symm
  entries := h.describes.entries.trans
    (FunctionEdgeJournal.occupiedSites_eq_length h.describes.omits)
  nonempty entry hentry hempty := h.describes.omits entry.1 (by
    rw [OrderedMap.mem_entries_iff.mp hentry, hempty])
  counted source target := (h.describes.counted source target).trans (carriedEdges_eq _ _ _)
  fingerprintA := h.describes.fingerprintA.trans (tokens_eq _ _)
  fingerprintB := h.describes.fingerprintB.trans (tokens_eq _ _)
  semantic := h.pends.semantic.replay
  candidateCalls := h.pends.candidateCalls.replay
  candidateTails := h.pends.candidateTails.replay
  seen := h.seen_iff

/-- After every sequence of calls the five representations agree, and the ledger recognises
exactly the states that were passed to it before. -/
theorem journal_consistent (sha256Bytes : List Byte → List Byte) (calls : List JournalCall) :
    (after sha256Bytes calls).Consistent sha256Bytes := (sound_after calls).consistent

end JournalRun
end KatanaRecomp.Analysis
