import KatanaRecomp.Codegen.CacheBudgetLaws

/-! # When the root budget is enforced

The sweep stops at the headroom. A reservation that would fit with every candidate
removed is refused when the headroom does not, or when the root has more entries than a
scan may visit. -/
namespace KatanaRecomp.Codegen.Cache
open Lib

theorem BudgetFits.mono {limits : CodegenCacheRootLimits}
    {reservedBytes reservedArtifacts reservedBytes' reservedArtifacts' : Nat}
    {totalBytes artifactCount totalBytes' artifactCount' : Nat}
    (h : BudgetFits limits reservedBytes reservedArtifacts totalBytes artifactCount)
    (hbytes : reservedBytes' ≤ reservedBytes) (hartifacts : reservedArtifacts' ≤ reservedArtifacts)
    (htotal : totalBytes' ≤ totalBytes) (hcount : artifactCount' ≤ artifactCount) :
    BudgetFits limits reservedBytes' reservedArtifacts' totalBytes' artifactCount' := by
  obtain ⟨hbytes', htotal', hartifacts', hcount'⟩ := h
  exact ⟨by omega, by omega, by omega, by omega⟩

/-- The budget over a list of records. -/
def RecordsFit (limits : CodegenCacheRootLimits) (reservedBytes reservedArtifacts : Nat)
    (records : List RootArtifactRecord) : Prop := BudgetFits limits reservedBytes reservedArtifacts
    (records.map RootArtifactRecord.bytes).sum records.length

variable {reservedBytes reservedArtifacts : Nat} {limits : CodegenCacheRootLimits}

theorem RecordsFit.perm {records records' : List RootArtifactRecord}
    (h : RecordsFit limits reservedBytes reservedArtifacts records)
    (hperm : records.Perm records') : RecordsFit limits reservedBytes reservedArtifacts records' :=
  BudgetFits.mono h le_rfl le_rfl (hperm.map RootArtifactRecord.bytes).sum_eq.ge hperm.length_eq.ge

theorem RecordsFit.of_append {kept records : List RootArtifactRecord}
    (h : RecordsFit limits reservedBytes reservedArtifacts (kept ++ records)) :
    RecordsFit limits reservedBytes reservedArtifacts records :=
  BudgetFits.mono h le_rfl le_rfl (by simp) (by simp)

theorem CacheState.Sound.fits_iff {s : CacheState} (h : s.Sound)
    (limits : CodegenCacheRootLimits) (reservedBytes reservedArtifacts : Nat) :
    rootBudgetFits s.accounting limits reservedBytes reservedArtifacts ↔
      RecordsFit limits reservedBytes reservedArtifacts s.accounting.artifacts := by
  unfold rootBudgetFits RecordsFit
  rw [h.total]

/-- Evictions from the front of the order leave the later candidates and the rest. -/
theorem Evicted.artifacts_perm {s t : CacheState} {protectedPath : Path}
    {removed kept : List RootArtifactRecord} (h : Evicted removed s t)
    (hcandidates : (removed ++ kept).Perm
      (s.accounting.artifacts.filter (isCandidate protectedPath))) :
    t.accounting.artifacts.Perm (kept ++ s.remaining protectedPath) := by
  have hsplit := List.filter_append_perm (isCandidate protectedPath) s.accounting.artifacts
  have hall : (removed ++ t.accounting.artifacts).Perm
      (removed ++ (kept ++ s.remaining protectedPath)) := by
    rw [← List.append_assoc]
    exact (h.artifacts.trans hsplit.symm).trans (hcandidates.symm.append_right _)
  exact (List.perm_append_left_iff removed).mp hall

section
variable {io : SecureIo}

/-- With nobody else writing, the first reconciliation decides. -/
theorem reconcile_spec (hio : io.Undisturbed) (limits : CodegenCacheRootLimits)
    (protectedPath : Path) (reservedBytes reservedArtifacts : Nat) {s : CacheState}
    (hs : s.Sound) (left : Nat) : ∃ removed kept t, Evicted removed s t ∧
      (removed ++ kept).Perm (s.accounting.artifacts.filter (isCandidate protectedPath)) ∧
      (removed ++ kept).Pairwise (fun a b => olderRootArtifact a b = true) ∧
      (reconcile io limits protectedPath reservedBytes reservedArtifacts (left + 1) s =
          (.ok (), t) ∧
        RecordsFit limits reservedBytes reservedArtifacts (s.remaining protectedPath) ∧
        rootBudgetFits t.accounting limits reservedBytes reservedArtifacts ∨
      reconcile io limits protectedPath reservedBytes reservedArtifacts (left + 1) s =
          (.error .notFreed, t) ∧
        ¬RecordsFit limits reservedBytes reservedArtifacts (s.remaining protectedPath)) := by
  obtain ⟨ordered, hcandidates, hperm, hsorted⟩ := candidates_eq hs.distinct protectedPath
  by_cases hfit : rootBudgetFits s.accounting limits reservedBytes reservedArtifacts
  · have hevicted := Evicted.nil hs
    have hleft : s.accounting.artifacts.Perm (ordered ++ s.remaining protectedPath) :=
      hevicted.artifacts_perm hperm
    have hrecords := ((hs.fits_iff limits reservedBytes reservedArtifacts).mp hfit).perm hleft
    refine ⟨[], ordered, s, hevicted, hperm, hsorted, .inl ⟨?_, hrecords.of_append, hfit⟩⟩
    rw [reconcile, if_pos hfit]
  · have hnodup : (ordered.map RootArtifactRecord.identity).Nodup :=
      (hperm.map _).nodup_iff.mpr (hs.distinct.sublist (List.filter_sublist.map _))
    have hmem : ∀ artifact ∈ ordered, artifact ∈ s.accounting.artifacts := fun artifact h =>
      List.mem_of_mem_filter (hperm.mem_iff.mp h)
    obtain ⟨removed, kept, t, rfl, hevicted, hend⟩ :=
      evictCandidates_spec hio ordered hs hnodup hmem hfit
    have hleft := hevicted.artifacts_perm hperm
    refine ⟨removed, kept, t, hevicted, hperm, hsorted, ?_⟩
    rw [reconcile, if_neg hfit, hcandidates]
    rcases hend with ⟨hsweep, hfit'⟩ | ⟨hsweep, rfl, hfit'⟩
    · left
      have hrecords := ((hevicted.sound.fits_iff _ _ _).mp hfit').perm hleft
      rw [hsweep]
      exact ⟨rfl, hrecords.of_append, hfit'⟩
    · right
      rw [hsweep]
      refine ⟨rfl, fun hrecords => hfit' ?_⟩
      exact (hevicted.sound.fits_iff _ _ _).mpr (hrecords.perm hleft.symm)

end

/-! ## From the root's contents -/

section
variable {s : CacheState} {found : Inventory} (h : s.Matches found)
include h

theorem CacheState.Matches.sound : s.Sound := by
  have hfound := CacheRoot.inventory_sound h.inventory
  have hidentity : (found.artifacts.map RootArtifactRecord.identity).Perm
      (s.accounting.artifacts.map RootArtifactRecord.identity) := by
    have hperm := h.artifacts.map RootArtifactRecord.identity
    rw [CacheState.recalledArtifacts, List.map_map] at hperm
    exact hperm
  refine ⟨hidentity.nodup_iff.mp hfound.distinct, ?_, ?_⟩
  · rw [← h.total, hfound.total, h.bytes_perm.sum_eq]
  · intro artifact hartifact
    exact hfound.held (artifact.recalled s.accounting.accessSequences)
      (h.artifacts.mem_iff.mpr (List.mem_map_of_mem hartifact))

variable {artifact : RootArtifactRecord}

/-- A record that the inventory found already has its remembered sequence. -/
theorem CacheState.Matches.recalled_of_mem (hartifact : artifact ∈ found.artifacts) :
    artifact.recalled s.accounting.accessSequences = artifact := by
  obtain ⟨before, -, rfl⟩ := List.mem_map.mp (h.artifacts.mem_iff.mp hartifact)
  rfl

theorem CacheState.Matches.filter_perm (keep : RootArtifactRecord → Bool)
    (hkeep : ∀ artifact : RootArtifactRecord,
      keep (artifact.recalled s.accounting.accessSequences) = keep artifact) :
    (found.artifacts.filter keep).Perm ((s.accounting.artifacts.filter keep).map
        (RootArtifactRecord.recalled s.accounting.accessSequences)) := by
  have hperm := h.artifacts.filter keep
  rw [CacheState.recalledArtifacts, List.filter_map] at hperm
  have hcomp : keep ∘ RootArtifactRecord.recalled s.accounting.accessSequences = keep :=
    funext hkeep
  rwa [hcomp] at hperm

variable {accounting : RootAccounting}

section
variable (hartifacts : accounting.artifacts = found.artifacts)
include hartifacts

/-- The state behind a rescan. -/
theorem CacheState.Matches.rescanned_sound (htotal : accounting.totalBytes = found.totalBytes) :
    ({ s with accounting } : CacheState).Sound := by
  have hfound := CacheRoot.inventory_sound h.inventory
  refine ⟨?_, ?_, ?_⟩
  · simpa [hartifacts] using hfound.distinct
  · simpa [hartifacts, htotal] using hfound.total
  · simpa [hartifacts] using hfound.held

theorem CacheState.Matches.remaining_fits
    (limits : CodegenCacheRootLimits)
    (protectedPath : Path) (reservedBytes reservedArtifacts : Nat) :
    RecordsFit limits reservedBytes reservedArtifacts
        (({ s with accounting } : CacheState).remaining protectedPath) ↔
      FitsEmptied limits protectedPath reservedBytes reservedArtifacts s := by
  have hperm := h.filter_perm (fun artifact => !isCandidate protectedPath artifact)
    (fun _ => rfl)
  have hbytes := hperm.map RootArtifactRecord.bytes
  rw [List.map_map] at hbytes
  have hlength := hperm.length_eq
  rw [List.length_map] at hlength
  unfold RecordsFit FitsEmptied CacheState.remaining
  simp only [hartifacts]
  rw [hbytes.sum_eq, hlength]
  rfl

end

/-- No component of a candidate's path is transient. -/
theorem CacheState.Matches.candidate_spared {protectedPath : Path}
    (hartifact : artifact ∈ found.artifacts)
    (hcandidate : isCandidate protectedPath artifact = true) :
    artifact.identity ≠ rootArtifactIdentity protectedPath ∧
      ∀ component ∈ artifact.path, transientCacheComponent component = false := by
  have hlayout := (CacheRoot.inventory_sound h.inventory).layout artifact hartifact
  unfold isCandidate at hcandidate
  rw [Bool.and_eq_true, bne_iff_ne] at hcandidate
  refine ⟨hcandidate.2, ?_⟩
  rw [hcandidate.1] at hlayout
  unfold safeRootArtifactLayout safeRootRelativeComponents at hlayout
  split_ifs at hlayout
  · simp only [Option.some.injEq, Bool.not_eq_true', List.any_eq_false] at hlayout
    intro component hcomponent
    simpa using hlayout component hcomponent

omit h

end

/-! ## What an enforcement does -/

/-- The part of an eviction that always holds: nothing goes when the reservation fits; what
goes are the oldest candidates, and accounting and root stay equal; a return fits. -/
structure EvictsOldest (limits : CodegenCacheRootLimits) (protectedPath : Path)
    (reservedBytes reservedArtifacts : Nat) (s : CacheState)
    (outcome : Except CacheError Unit × CacheState) : Prop where
  strict : StrictOnDistinct olderRootArtifact
  untouched : rootBudgetFits s.accounting limits reservedBytes reservedArtifacts →
    outcome = (.ok (), s)
  oldest : ∃ removed kept,
    (removed ++ kept).Perm (s.recalledArtifacts.filter (isCandidate protectedPath)) ∧
    (removed ++ kept).Pairwise (fun a b => olderRootArtifact a b = true) ∧
    (removed ++ outcome.2.accounting.artifacts.map
      (RootArtifactRecord.recalled s.accounting.accessSequences)).Perm s.recalledArtifacts ∧
    (∀ artifact ∈ removed, artifact.identity ≠ rootArtifactIdentity protectedPath ∧
      ∀ component ∈ artifact.path, transientCacheComponent component = false) ∧
    ∀ entry : RootEntry, entry.type ≠ .directory → (entry ∈ outcome.2.root.entries ↔
        entry ∈ s.root.entries ∧ ∀ artifact ∈ removed, entry.relative ≠ artifact.path)
  total : outcome.2.accounting.totalBytes =
    (outcome.2.accounting.artifacts.map RootArtifactRecord.bytes).sum
  fits : outcome.1 = .ok () →
    rootBudgetFits outcome.2.accounting limits reservedBytes reservedArtifacts

/-- Exact eviction: it throws only where the reservation does not fit without the candidates. -/
structure EvictsExactly (limits : CodegenCacheRootLimits) (protectedPath : Path)
    (reservedBytes reservedArtifacts : Nat) (s : CacheState)
    (outcome : Except CacheError Unit × CacheState) : Prop
    extends EvictsOldest limits protectedPath reservedBytes reservedArtifacts s outcome where
  throws : ∀ e, outcome.1 = .error e →
    ¬FitsEmptied limits protectedPath reservedBytes reservedArtifacts s

section
variable {io : SecureIo} {s : CacheState} {found : Inventory} {limits : CodegenCacheRootLimits}
  {protectedPath : Path} {reservedBytes reservedArtifacts : Nat}

/-- A state that no eviction touched. -/
theorem CacheState.Matches.evictsOldest_self (h : s.Matches found) {result : Except CacheError Unit}
    (hresult : result = .ok () ↔
      rootBudgetFits s.accounting limits reservedBytes reservedArtifacts) :
    EvictsOldest limits protectedPath reservedBytes reservedArtifacts s (result, s) where
  strict := olderRootArtifact_strict
  untouched hfit := by rw [hresult.mpr hfit]
  oldest := by
    have hdistinct : ((s.accounting.scanned found).artifacts.map
        RootArtifactRecord.identity).Nodup := (CacheRoot.inventory_sound h.inventory).distinct
    obtain ⟨ordered, -, hperm, hsorted⟩ := candidates_eq hdistinct protectedPath
    refine ⟨[], ordered, hperm.trans (h.artifacts.filter _), hsorted, ?_, by simp, by simp⟩
    rw [List.nil_append]
    rfl
  total := h.sound.total
  fits := hresult.mp

/-- The outcome of an enforcement, case by case. -/
theorem enforceRootBudget_spec (hio : io.Undisturbed) (h : s.Matches found)
    (limits : CodegenCacheRootLimits) (protectedPath : Path)
    (reservedBytes reservedArtifacts : Nat) :
    let outcome := enforceRootBudget io limits protectedPath reservedBytes reservedArtifacts s
    EvictsOldest limits protectedPath reservedBytes reservedArtifacts s outcome ∧
      ((∃ e, outcome.1 = .error e) ↔
        ¬rootBudgetFits s.accounting limits reservedBytes reservedArtifacts ∧
        ¬(s.root.entries.length ≤ limits.maximumScanEntries ∧
          FitsEmptied limits protectedPath (evictionReservedBytes limits reservedBytes)
            (evictionReservedArtifacts limits reservedArtifacts) s)) := by
  intro outcome
  by_cases hfit : rootBudgetFits s.accounting limits reservedBytes reservedArtifacts
  · have houtcome : outcome = (.ok (), s) := by
      simp only [outcome, enforceRootBudget, h.initialized, Bool.not_true, Bool.false_eq_true,
        if_false, if_pos hfit]
    rw [houtcome]
    exact ⟨h.evictsOldest_self (by simp [hfit]), by simp [hfit]⟩
  by_cases hscan : s.root.entries.length ≤ limits.maximumScanEntries
  · obtain ⟨accounting, hscanned, hartifacts, htotal⟩ := h.scan_of_le hscan
    have hfit' : ¬rootBudgetFits accounting limits reservedBytes reservedArtifacts := by
      rwa [h.scanned_fits hartifacts htotal]
    have houtcome : outcome = reconcile io limits protectedPath
        (evictionReservedBytes limits reservedBytes)
        (evictionReservedArtifacts limits reservedArtifacts) 3 { s with accounting } := by
      simp only [outcome, enforceRootBudget, h.initialized, Bool.not_true, Bool.false_eq_true,
        if_false, if_neg hfit, hscanned, if_neg hfit']
    obtain ⟨removed, kept, t, hevicted, hperm, hsorted, hend⟩ :=
      reconcile_spec hio limits protectedPath (evictionReservedBytes limits reservedBytes)
        (evictionReservedArtifacts limits reservedArtifacts)
        (h.rescanned_sound hartifacts htotal) 2
    rw [h.remaining_fits hartifacts] at hend
    simp only [hartifacts] at hperm
    have hall : (removed ++ t.accounting.artifacts).Perm found.artifacts := by
      simpa [hartifacts] using hevicted.artifacts
    have hrecalled : t.accounting.artifacts.map
        (RootArtifactRecord.recalled s.accounting.accessSequences) = t.accounting.artifacts := by
      refine (List.map_congr_left ?_).trans (List.map_id _)
      intro artifact hartifact
      exact h.recalled_of_mem (hall.mem_iff.mp (List.mem_append_right _ hartifact))
    have hcandidate : ∀ artifact ∈ removed, artifact ∈ found.artifacts ∧
        isCandidate protectedPath artifact = true := by
      intro artifact hartifact
      exact List.mem_filter.mp (hperm.mem_iff.mp (List.mem_append_left _ hartifact))
    have hstate : outcome.2 = t := by
      rcases hend with ⟨hrun, -⟩ | ⟨hrun, -⟩ <;> rw [houtcome, hrun]
    refine ⟨⟨olderRootArtifact_strict, fun h => absurd h hfit, ?_, ?_, ?_⟩, ?_⟩
    · refine ⟨removed, kept, hperm.trans (h.artifacts.filter _), hsorted, ?_, ?_, ?_⟩
      · rw [hstate, hrecalled]
        exact hall.trans h.artifacts
      · intro artifact hartifact
        exact h.candidate_spared (hcandidate artifact hartifact).1 (hcandidate artifact hartifact).2
      · rw [hstate]
        exact hevicted.files
    · rw [hstate]
      exact hevicted.sound.total
    · intro hok
      rcases hend with ⟨-, -, hroom⟩ | ⟨hrun, -⟩
      · rw [hstate]
        exact hroom.mono (le_max_left _ _) (le_max_left _ _) le_rfl le_rfl
      · rw [houtcome, hrun] at hok
        cases hok
    · rcases hend with ⟨hrun, hemptied, -⟩ | ⟨hrun, hemptied⟩
      · rw [houtcome, hrun]
        simp [hscan, hemptied]
      · rw [houtcome, hrun]
        simp [hfit, hemptied]
  · have hscanned := h.scan_of_lt (not_le.mp hscan)
    have houtcome : outcome = (.error .inventoryBudget, s) := by
      simp only [outcome, enforceRootBudget, h.initialized, Bool.not_true, Bool.false_eq_true,
        if_false, if_neg hfit, hscanned]
    rw [houtcome]
    exact ⟨h.evictsOldest_self (by simp [hfit]), by simp [hfit, hscan]⟩

/-- The eviction is exact where the headroom thresholds agree with the reservation. -/
theorem enforceRootBudget_exactly_iff (hio : io.Undisturbed) (h : s.Matches found)
    (limits : CodegenCacheRootLimits) (protectedPath : Path)
    (reservedBytes reservedArtifacts : Nat) :
    EvictsExactly limits protectedPath reservedBytes reservedArtifacts s
        (enforceRootBudget io limits protectedPath reservedBytes reservedArtifacts s) ↔
      rootBudgetFits s.accounting limits reservedBytes reservedArtifacts ∨
        ¬FitsEmptied limits protectedPath reservedBytes reservedArtifacts s ∨
        s.root.entries.length ≤ limits.maximumScanEntries ∧
          FitsEmptied limits protectedPath (evictionReservedBytes limits reservedBytes)
            (evictionReservedArtifacts limits reservedArtifacts) s := by
  obtain ⟨holdest, hthrows⟩ :=
    enforceRootBudget_spec hio h limits protectedPath reservedBytes reservedArtifacts
  constructor
  · intro hexactly
    by_contra hcondition
    rw [not_or, not_or, not_not] at hcondition
    obtain ⟨hfit, hemptied, hroom⟩ := hcondition
    obtain ⟨e, he⟩ := hthrows.mpr ⟨hfit, hroom⟩
    exact hexactly.throws e he hemptied
  · intro hcondition
    refine ⟨holdest, fun e he => ?_⟩
    obtain ⟨hfit, hroom⟩ := hthrows.mp ⟨e, he⟩
    rcases hcondition with hcondition | hcondition | hcondition
    · exact absurd hcondition hfit
    · exact hcondition
    · exact absurd hcondition hroom

end

/-! ## A root on a host -/

def CacheRoot.filter (keep : RootEntry → Bool) : CacheRoot → CacheRoot
  | .directory entries => .directory (entries.filter keep)
  | root => root

theorem CacheRoot.entries_filter (keep : RootEntry → Bool) (root : CacheRoot) :
    (root.filter keep).entries = root.entries.filter keep := by
  cases root <;> rfl

/-- The size of the regular file at a path. -/
def CacheRoot.fileSize (root : CacheRoot) (path : Path) : Option Nat :=
  root.entries.findSome? fun entry =>
    match entry.type with
    | .regular bytes _ => if entry.relative = path then some bytes else none
    | _ => none

def CacheRoot.withoutEmpty (root : CacheRoot) (directory : Path) : CacheRoot :=
  if root.entries.any fun entry =>
      directory.isPrefixOf entry.relative && entry.relative != directory then root
  else root.filter fun entry => entry.relative != directory || entry.type != .directory

/-- A host that nobody disturbs, with the contents of its files. -/
def hostIo (content : Path → String) : SecureIo where
  secureCacheRead root path maximum :=
    match root.fileSize path with
    | some bytes => if bytes > maximum then (.oversized, "") else (.regular, content path)
    | none =>
      if root.entries.any (fun entry => entry.relative == path) then (.insecure, "")
      else (.missing, "")
  secureCacheEraseIfMatches root path expected _ :=
    if content path = expected then (true, root.filter fun entry => entry.relative != path)
    else (false, root)
  secureCacheEraseOversized root path _ := (true, root.filter fun entry => entry.relative != path)
  secureCachePruneEmptyParents root parent := parent.inits.reverse.foldl CacheRoot.withoutEmpty root

theorem CacheRoot.erased_filter (root : CacheRoot) (path : Path) :
    Erased path root (root.filter fun entry => entry.relative != path) := by
  intro entry _
  rw [CacheRoot.entries_filter, List.mem_filter, bne_iff_ne]

theorem CacheRoot.mem_withoutEmpty {root : CacheRoot} {directory : Path} {entry : RootEntry}
    (hentry : entry.type ≠ .directory) :
    entry ∈ (root.withoutEmpty directory).entries ↔ entry ∈ root.entries := by
  unfold CacheRoot.withoutEmpty
  split
  · rfl
  · rw [CacheRoot.entries_filter, List.mem_filter]
    simp [hentry]

theorem hostIo_undisturbed (content : Path → String) : (hostIo content).Undisturbed where
  reads root path bytes lastWriteTime h := by
    have hsize : (root.fileSize path).isSome := by
      rw [CacheRoot.fileSize, List.findSome?_isSome_iff]
      exact ⟨_, h, by simp⟩
    obtain ⟨size, hsize⟩ := Option.isSome_iff_exists.mp hsize
    simp only [hostIo, hsize]
    by_cases hlarge : size > maximumLegacyCodegenCacheArtifactBytes
    · simp [hlarge]
    · simp [hlarge]
  erasesMatching root path expected h := by
    have hexpected : content path = expected := by
      simp only [hostIo] at h
      split at h
      · split at h
        · cases h
        · exact (Prod.mk.inj h).2
      · split at h <;> cases h
    exact ⟨_, if_pos hexpected, root.erased_filter path⟩
  erasesOversized root path _ _ := ⟨_, rfl, root.erased_filter path⟩
  prunes root parent entry hentry := by
    change entry ∈ (parent.inits.reverse.foldl CacheRoot.withoutEmpty root).entries ↔ _
    generalize parent.inits.reverse = directories
    induction directories generalizing root with
    | nil => rfl
    | cons directory rest ih =>
      rw [List.foldl_cons, ih, CacheRoot.mem_withoutEmpty hentry]

/-- A nearly full root: the large artifact is the one that is published again. -/
def nearlyFull : CacheState where
  accounting :=
    { initialized := true
      totalBytes := 940
      artifacts := [⟨["keep", "unit.cpp"], 880, 0, 0, true⟩, ⟨["old", "unit.cpp"], 60, 0, 0, true⟩] }
  root := .directory
    [⟨["keep"], .directory⟩, ⟨["keep", "unit.cpp"], .regular 880 0⟩,
      ⟨["old"], .directory⟩, ⟨["old", "unit.cpp"], .regular 60 0⟩]

theorem nearlyFull_matches : nearlyFull.Matches
    { artifacts := nearlyFull.accounting.artifacts, totalBytes := 940 } where
  initialized := rfl
  inventory := by decide +kernel
  artifacts := by decide +kernel
  total := rfl

theorem enforceRootBudget_exactly_iff_roomy :
    EvictsExactly { maximumBytes := 1024, maximumArtifacts := 16, maximumScanEntries := 256 }
      ["keep", "unit.cpp"] 100 0 nearlyFull
      (enforceRootBudget (hostIo fun _ => "")
        { maximumBytes := 1024, maximumArtifacts := 16, maximumScanEntries := 256 }
        ["keep", "unit.cpp"] 100 0 nearlyFull) :=
  (enforceRootBudget_exactly_iff (hostIo_undisturbed _) nearlyFull_matches _ _ _ _).mpr
    (.inr (.inr ⟨by decide, by decide +kernel⟩))

/-- The reservation of 100 bytes fits beside the 880, the headroom of 125 does not. -/
theorem headroom_refused : ¬∀ (io : SecureIo) (s : CacheState) (found : Inventory)
    (limits : CodegenCacheRootLimits) (protectedPath : Path)
    (reservedBytes reservedArtifacts : Nat), io.Undisturbed → s.Matches found →
    EvictsExactly limits protectedPath reservedBytes reservedArtifacts s
      (enforceRootBudget io limits protectedPath reservedBytes reservedArtifacts s) := by
  intro h
  let limits : CodegenCacheRootLimits :=
    { maximumBytes := 1000, maximumArtifacts := 16, maximumScanEntries := 256 }
  have hexactly := h (hostIo fun _ => "") nearlyFull _ limits ["keep", "unit.cpp"] 100 0
    (hostIo_undisturbed _) nearlyFull_matches
  obtain ⟨-, hthrows⟩ := enforceRootBudget_spec (hostIo_undisturbed fun _ => "")
    nearlyFull_matches limits ["keep", "unit.cpp"] 100 0
  obtain ⟨e, he⟩ := hthrows.mpr ⟨by decide +kernel, by decide +kernel⟩
  exact hexactly.throws e he (by decide +kernel)

end KatanaRecomp.Codegen.Cache
