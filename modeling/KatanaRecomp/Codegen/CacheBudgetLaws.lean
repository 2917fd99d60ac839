import KatanaRecomp.Codegen.CacheBudget

/-! # Eviction from the cache root

With nobody else writing, a sweep removes candidates from the front of the order of age
and keeps the accounting equal to the root. Whether it succeeds is decided by the
headroom, not by the reservation. -/
namespace KatanaRecomp.Codegen.Cache
open Lib

/-! ## The order of age -/

/-- What the order of age compares, one after the other. -/
def RootArtifactRecord.ageKey (artifact : RootArtifactRecord) : ℕ ×ₗ ℤ ×ₗ String :=
  toLex (artifact.accessSequence, toLex (artifact.lastWriteTime, artifact.identity))

theorem olderRootArtifact_iff (left right : RootArtifactRecord) :
    olderRootArtifact left right = true ↔ left.ageKey < right.ageKey := by
  rw [RootArtifactRecord.ageKey, RootArtifactRecord.ageKey, Prod.Lex.toLex_lt_toLex,
    Prod.Lex.toLex_lt_toLex]
  unfold olderRootArtifact
  by_cases hzero : (left.accessSequence == 0) = (right.accessSequence == 0)
  · rw [if_neg (by simp [hzero])]
    split_ifs with haccess htime
    · simp [haccess]
    · simp [not_not.mp haccess, htime]
    · simp [not_not.mp haccess, not_not.mp htime]
  · rw [if_pos (by simpa using hzero)]
    -- Exactly one of the two was never accessed: zero is below every other sequence.
    simp only [beq_eq_beq, beq_iff_eq] at hzero ⊢
    constructor
    · intro h
      have hright : right.accessSequence ≠ 0 := fun h' => hzero (by simp [h, h'])
      exact .inl (by omega)
    · intro h
      by_contra hleft
      have hright : right.accessSequence = 0 := by
        by_contra hright
        exact hzero (by simp [hleft, hright])
      omega

theorem not_olderRootArtifact_iff (left right : RootArtifactRecord) :
    (!olderRootArtifact right left) = true ↔ left.ageKey ≤ right.ageKey := by
  rw [Bool.not_eq_true', ← Bool.not_eq_true, olderRootArtifact_iff, not_lt]

theorem RootArtifactRecord.ageKey_ne {left right : RootArtifactRecord}
    (h : left.identity ≠ right.identity) : left.ageKey ≠ right.ageKey := by
  intro heq
  exact h (congrArg (fun key => (ofLex (ofLex key).2).2) heq)

/-- A strict order that is total on artifacts of different identity. -/
structure StrictOnDistinct (older : RootArtifactRecord → RootArtifactRecord → Bool) : Prop where
  irreflexive : ∀ a, older a a = false
  transitive : ∀ a b c, older a b = true → older b c = true → older a c = true
  connected : ∀ a b, a.identity ≠ b.identity → older a b = true ∨ older b a = true

theorem olderRootArtifact_strict : StrictOnDistinct olderRootArtifact where
  irreflexive a := by
    apply Bool.eq_false_iff.mpr
    intro h
    exact lt_irrefl _ ((olderRootArtifact_iff a a).mp h)
  transitive a b c hab hbc := by
    rw [olderRootArtifact_iff] at *
    exact hab.trans hbc
  connected a b hne := by
    rw [olderRootArtifact_iff, olderRootArtifact_iff]
    exact lt_or_gt_of_ne (RootArtifactRecord.ageKey_ne hne)

/-! ## The records of one root -/

variable {accounting : RootAccounting} {artifact : RootArtifactRecord}

theorem findArtifact_of_mem
    (hdistinct : (accounting.artifacts.map RootArtifactRecord.identity).Nodup)
    (h : artifact ∈ accounting.artifacts) :
    findArtifact accounting artifact.identity = some artifact := by
  unfold findArtifact
  generalize accounting.artifacts = artifacts at hdistinct h
  induction artifacts with
  | nil => simp at h
  | cons first rest ih =>
    rw [List.map_cons, List.nodup_cons] at hdistinct
    rcases List.mem_cons.mp h with rfl | h
    · simp
    · have hne : (first.identity == artifact.identity) = false := by
        apply beq_false_of_ne
        intro heq
        exact hdistinct.1 (heq ▸ List.mem_map_of_mem h)
      simp only [List.find?_cons, hne]
      exact ih hdistinct.2 h

theorem cons_filter_perm {artifacts : List RootArtifactRecord}
    (hdistinct : (artifacts.map RootArtifactRecord.identity).Nodup) (h : artifact ∈ artifacts) :
    (artifact :: artifacts.filter fun other => other.identity != artifact.identity).Perm
      artifacts := by
  induction artifacts with
  | nil => simp at h
  | cons first rest ih =>
    rw [List.map_cons, List.nodup_cons] at hdistinct
    rcases List.mem_cons.mp h with rfl | h
    · have hrest : (rest.filter fun other => other.identity != artifact.identity) = rest := by
        apply List.filter_eq_self.mpr
        intro other hother
        apply bne_iff_ne.mpr
        intro heq
        exact hdistinct.1 (heq ▸ List.mem_map_of_mem hother)
      simp [hrest]
    · have hne : (first.identity != artifact.identity) = true := by
        apply bne_iff_ne.mpr
        intro heq
        exact hdistinct.1 (heq ▸ List.mem_map_of_mem h)
      rw [List.filter_cons_of_pos (p := fun other : RootArtifactRecord => other.identity != artifact.identity) hne]
      exact (List.Perm.swap _ _ _).trans ((ih hdistinct.2 h).cons _)

/-- Accounting and root agree: one record an identity, the bytes add up, every record has
its file. -/
structure CacheState.Sound (s : CacheState) : Prop where
  distinct : (s.accounting.artifacts.map RootArtifactRecord.identity).Nodup
  total : s.accounting.totalBytes = (s.accounting.artifacts.map RootArtifactRecord.bytes).sum
  held : ∀ artifact ∈ s.accounting.artifacts,
    ⟨artifact.path, .regular artifact.bytes artifact.lastWriteTime⟩ ∈ s.root.entries

/-- The root loses what stands at a path, and may lose directories. -/
def Erased (path : Path) (before after : CacheRoot) : Prop :=
  ∀ entry : RootEntry, entry.type ≠ .directory →
    (entry ∈ after.entries ↔ entry ∈ before.entries ∧ entry.relative ≠ path)

/-- Nobody else writes: a regular file is read, and what was read is erased. -/
structure SecureIo.Undisturbed (io : SecureIo) : Prop where
  reads : ∀ root path bytes lastWriteTime, ⟨path, .regular bytes lastWriteTime⟩ ∈ root.entries →
      (io.secureCacheRead root path maximumLegacyCodegenCacheArtifactBytes).1 = .regular ∨
      (io.secureCacheRead root path maximumLegacyCodegenCacheArtifactBytes).1 = .oversized
  erasesMatching : ∀ root path content,
    io.secureCacheRead root path maximumLegacyCodegenCacheArtifactBytes = (.regular, content) →
      ∃ after, io.secureCacheEraseIfMatches root path content
        maximumLegacyCodegenCacheArtifactBytes = (true, after) ∧ Erased path root after
  erasesOversized : ∀ root path content,
    io.secureCacheRead root path maximumLegacyCodegenCacheArtifactBytes = (.oversized, content) →
      ∃ after, io.secureCacheEraseOversized root path
        maximumLegacyCodegenCacheArtifactBytes = (true, after) ∧ Erased path root after
  prunes : ∀ root parent (entry : RootEntry), entry.type ≠ .directory →
    (entry ∈ (io.secureCachePruneEmptyParents root parent).entries ↔ entry ∈ root.entries)

/-- What a row of evictions leaves. -/
structure Evicted (removed : List RootArtifactRecord) (s t : CacheState) : Prop where
  sound : t.Sound
  artifacts : (removed ++ t.accounting.artifacts).Perm s.accounting.artifacts
  files : ∀ entry : RootEntry, entry.type ≠ .directory → (entry ∈ t.root.entries ↔
      entry ∈ s.root.entries ∧ ∀ artifact ∈ removed, entry.relative ≠ artifact.path)

theorem Evicted.nil {s : CacheState} (h : s.Sound) : Evicted [] s s where
  sound := h
  artifacts := by simp
  files := by simp

theorem Evicted.cons {artifact : RootArtifactRecord} {removed : List RootArtifactRecord}
    {s t u : CacheState} (hfirst : Evicted [artifact] s t) (hrest : Evicted removed t u) :
    Evicted (artifact :: removed) s u where
  sound := hrest.sound
  artifacts := (hrest.artifacts.cons artifact).trans hfirst.artifacts
  files entry hentry := by
    rw [hrest.files entry hentry, hfirst.files entry hentry]
    simp [and_assoc]

section
variable {io : SecureIo} {limits : CodegenCacheRootLimits} {reservedBytes reservedArtifacts : Nat}

section
variable (hio : io.Undisturbed)
include hio

theorem SecureIo.Undisturbed.eraseArtifact {root : CacheRoot}
    {path : Path} {bytes : Nat} {lastWriteTime : Int}
    (h : ⟨path, .regular bytes lastWriteTime⟩ ∈ root.entries) :
    ∃ after, io.eraseArtifact root path = some (true, after) ∧ Erased path root after := by
  unfold SecureIo.eraseArtifact
  have hreads := hio.reads root path bytes lastWriteTime h
  cases hread : io.secureCacheRead root path maximumLegacyCodegenCacheArtifactBytes with
  | mk kind content =>
    rw [hread] at hreads
    rcases hreads with hkind | hkind
    · obtain rfl : kind = .regular := hkind
      obtain ⟨after, herase, herased⟩ := hio.erasesMatching root path content hread
      exact ⟨after, congrArg some herase, herased⟩
    · obtain rfl : kind = .oversized := hkind
      obtain ⟨after, herase, herased⟩ := hio.erasesOversized root path content hread
      exact ⟨after, congrArg some herase, herased⟩

/-- One eviction: the record goes with its file. -/
theorem evictCandidates_cons (limits : CodegenCacheRootLimits)
    (reservedBytes reservedArtifacts : Nat) {s : CacheState} (hs : s.Sound)
    (hmem : artifact ∈ s.accounting.artifacts) (rest : List String) : ∃ t, Evicted [artifact] s t ∧
      evictCandidates io limits reservedBytes reservedArtifacts (artifact.identity :: rest) s =
        if rootBudgetFits t.accounting limits reservedBytes reservedArtifacts then (.fits, t)
        else evictCandidates io limits reservedBytes reservedArtifacts rest t := by
  obtain ⟨after, herase, herased⟩ := hio.eraseArtifact (hs.held artifact hmem)
  have hperm := cons_filter_perm hs.distinct hmem
  have htotal : s.accounting.totalBytes = artifact.bytes +
      ((s.accounting.artifacts.filter fun other =>
        other.identity != artifact.identity).map RootArtifactRecord.bytes).sum := by
    rw [hs.total, ← (hperm.map RootArtifactRecord.bytes).sum_eq, List.map_cons, List.sum_cons]
  let accounting : RootAccounting :=
    { s.accounting with
      totalBytes := s.accounting.totalBytes - artifact.bytes
      artifacts := s.accounting.artifacts.filter fun other => other.identity != artifact.identity
      accessSequences := s.accounting.accessSequences.filter fun access =>
        access.1 != artifact.identity }
  have hremove : removeAccountedArtifact s.accounting artifact.identity = .ok accounting := by
    unfold removeAccountedArtifact
    simp only [findArtifact_of_mem hs.distinct hmem]
    rw [if_neg (by omega)]
  have hfiles : ∀ entry : RootEntry, entry.type ≠ .directory →
      (entry ∈ (io.secureCachePruneEmptyParents after artifact.path.dropLast).entries ↔
        entry ∈ s.root.entries ∧ entry.relative ≠ artifact.path) := fun entry hentry =>
    (hio.prunes _ _ entry hentry).trans (herased entry hentry)
  refine ⟨⟨accounting, io.secureCachePruneEmptyParents after artifact.path.dropLast⟩,
    ⟨⟨?_, ?_, ?_⟩, hperm, ?_⟩, ?_⟩
  · exact hs.distinct.sublist (List.filter_sublist.map _)
  · change s.accounting.totalBytes - artifact.bytes = _
    rw [htotal, Nat.add_sub_cancel_left]
  · intro other hother
    obtain ⟨hin, hne⟩ := List.mem_filter.mp hother
    refine (hfiles _ (by simp)).mpr ⟨hs.held other hin, ?_⟩
    intro heq
    exact absurd (congrArg rootArtifactIdentity heq) (bne_iff_ne.mp hne)
  · simpa using hfiles
  · conv_lhs => unfold evictCandidates
    simp only [findArtifact_of_mem hs.distinct hmem, herase, hremove]

/-- The sweep: evictions from the front, until the budget fits or nothing is left. -/
theorem evictCandidates_spec (pending : List RootArtifactRecord) :
    ∀ {s : CacheState}, s.Sound → (pending.map RootArtifactRecord.identity).Nodup →
      (∀ artifact ∈ pending, artifact ∈ s.accounting.artifacts) →
      ¬rootBudgetFits s.accounting limits reservedBytes reservedArtifacts →
      ∃ removed kept t, pending = removed ++ kept ∧ Evicted removed s t ∧
        (evictCandidates io limits reservedBytes reservedArtifacts
            (pending.map RootArtifactRecord.identity) s = (.fits, t) ∧
          rootBudgetFits t.accounting limits reservedBytes reservedArtifacts ∨
        evictCandidates io limits reservedBytes reservedArtifacts
            (pending.map RootArtifactRecord.identity) s = (.exhausted, t) ∧ kept = [] ∧
          ¬rootBudgetFits t.accounting limits reservedBytes reservedArtifacts) := by
  induction pending with
  | nil =>
    intro s hs _ _ hfit
    exact ⟨[], [], s, rfl, .nil hs, .inr ⟨rfl, rfl, hfit⟩⟩
  | cons artifact rest ih =>
    intro s hs hnodup hmem _
    rw [List.map_cons, List.nodup_cons] at hnodup
    obtain ⟨t, hfirst, hstep⟩ := evictCandidates_cons hio limits reservedBytes reservedArtifacts hs
        (hmem artifact (by simp)) (rest.map RootArtifactRecord.identity)
    rw [List.map_cons]
    by_cases hfit : rootBudgetFits t.accounting limits reservedBytes reservedArtifacts
    · rw [if_pos hfit] at hstep
      exact ⟨[artifact], rest, t, rfl, hfirst, .inl ⟨hstep, hfit⟩⟩
    · rw [if_neg hfit] at hstep
      have hrest : ∀ other ∈ rest, other ∈ t.accounting.artifacts := by
        intro other hother
        have hin := hfirst.artifacts.mem_iff.mpr (hmem other (by simp [hother]))
        rcases List.mem_cons.mp hin with rfl | hin
        · exact absurd (List.mem_map_of_mem hother) hnodup.1
        · exact hin
      obtain ⟨removed, kept, u, hsplit, hevicted, hend⟩ := ih hfirst.sound hnodup.2 hrest hfit
      rw [hstep]
      exact ⟨artifact :: removed, kept, u, by simp [hsplit], hfirst.cons hevicted, hend⟩

end
end

/-! ## The candidates -/

theorem candidates_eq (hdistinct : (accounting.artifacts.map RootArtifactRecord.identity).Nodup)
    (protectedPath : Path) : ∃ ordered : List RootArtifactRecord,
      candidates accounting protectedPath = ordered.map RootArtifactRecord.identity ∧
      ordered.Perm (accounting.artifacts.filter (isCandidate protectedPath)) ∧
      ordered.Pairwise fun a b => olderRootArtifact a b = true := by
  let evictable := accounting.artifacts.filter (isCandidate protectedPath)
  let ordered := evictable.mergeSort fun left right => !olderRootArtifact right left
  have hperm : ordered.Perm evictable := List.mergeSort_perm _ _
  refine ⟨ordered, ?_, hperm, ?_⟩
  · symm
    apply List.map_mergeSort
    intro left hleft right hright
    unfold olderIdentity
    simp only [findArtifact_of_mem hdistinct (List.mem_of_mem_filter hleft),
      findArtifact_of_mem hdistinct (List.mem_of_mem_filter hright)]
  · have hsorted : ordered.Pairwise fun left right => (!olderRootArtifact right left) = true := by
      apply List.pairwise_mergeSort
      · intro a b c hab hbc
        rw [not_olderRootArtifact_iff] at *
        exact hab.trans hbc
      · intro a b
        rw [Bool.or_eq_true, not_olderRootArtifact_iff, not_olderRootArtifact_iff]
        exact le_total _ _
    have hnodup : (ordered.map RootArtifactRecord.identity).Nodup :=
      (hperm.map _).nodup_iff.mpr (hdistinct.sublist (List.filter_sublist.map _))
    refine (hsorted.and (List.pairwise_map.mp hnodup)).imp ?_
    intro left right h
    rw [olderRootArtifact_iff]
    exact lt_of_le_of_ne ((not_olderRootArtifact_iff left right).mp h.1)
      (RootArtifactRecord.ageKey_ne h.2)

/-! ## The inventory -/

/-- What the scan finds when its entries are not counted. -/
def CacheRoot.inventory (root : CacheRoot) (accessSequences : List (String × Nat)) :
    Except CacheError Inventory :=
  match root with
  | .notDirectory => .error .unsafeRoot
  | root => root.entries.foldlM (scanEntry accessSequences) {}

structure Inventory.Sound (found : Inventory) (root : CacheRoot) : Prop where
  distinct : (found.artifacts.map RootArtifactRecord.identity).Nodup
  total : found.totalBytes = (found.artifacts.map RootArtifactRecord.bytes).sum
  held : ∀ artifact ∈ found.artifacts,
    ⟨artifact.path, .regular artifact.bytes artifact.lastWriteTime⟩ ∈ root.entries
  layout : ∀ artifact ∈ found.artifacts,
    safeRootArtifactLayout artifact.path = some artifact.evictable

variable {accessSequences : List (String × Nat)} {root : CacheRoot} {found found' : Inventory}

theorem addRegular_sound {path : Path} {bytes : Nat} {lastWriteTime : Int}
    (h : addRegular accessSequences found path bytes lastWriteTime = .ok found')
    (hheld : ⟨path, .regular bytes lastWriteTime⟩ ∈ root.entries) (hfound : found.Sound root) :
    found'.Sound root := by
  unfold addRegular at h
  cases hlayout : safeRootArtifactLayout path with
  | none => simp [hlayout] at h
  | some evictable =>
    simp only [hlayout] at h
    split_ifs at h with hbytes htotal hsame
    cases h
    simp only [List.any_eq_true, beq_iff_eq, not_exists, not_and] at hsame
    refine ⟨?_, ?_, ?_, ?_⟩
    · rw [List.map_append, List.nodup_append]
      refine ⟨hfound.distinct, by simp, ?_⟩
      intro identity hidentity other hother
      obtain ⟨artifact, hartifact, rfl⟩ := List.mem_map.mp hidentity
      obtain rfl := List.mem_singleton.mp hother
      exact hsame artifact hartifact
    · simp [hfound.total]
    · intro artifact hartifact
      rcases List.mem_append.mp hartifact with hin | hin
      · exact hfound.held artifact hin
      · obtain rfl := List.mem_singleton.mp hin
        exact hheld
    · intro artifact hartifact
      rcases List.mem_append.mp hartifact with hin | hin
      · exact hfound.layout artifact hin
      · obtain rfl := List.mem_singleton.mp hin
        exact hlayout

theorem scanEntry_sound {entry : RootEntry} (h : scanEntry accessSequences found entry = .ok found')
    (hentry : entry ∈ root.entries) (hfound : found.Sound root) : found'.Sound root := by
  obtain ⟨relative, type⟩ := entry
  unfold scanEntry at h
  cases hsafe : safeRootRelativeComponents relative with
  | none => simp [hsafe] at h
  | some isTransient =>
    simp only [hsafe] at h
    cases type with
    | directory =>
      cases h
      exact hfound
    | regular bytes lastWriteTime =>
      simp only at h
      split_ifs at h with hlock
      · cases h
        exact hfound
      · exact addRegular_sound h hentry hfound
    | symlink => cases h
    | other => cases h

theorem foldlM_scanEntry_sound (entries : List RootEntry) :
    ∀ {start : Inventory}, (∀ entry ∈ entries, entry ∈ root.entries) → start.Sound root →
      entries.foldlM (scanEntry accessSequences) start = .ok found → found.Sound root := by
  induction entries with
  | nil =>
    intro start _ hstart h
    cases h
    exact hstart
  | cons entry rest ih =>
    intro start hin hstart h
    rw [List.foldlM_cons] at h
    obtain ⟨next, hentry, hrest⟩ := bind_eq_ok h
    exact ih (fun other hother => hin other (by simp [hother]))
      (scanEntry_sound hentry (hin entry (by simp)) hstart) hrest

theorem CacheRoot.inventory_sound
    (h : root.inventory accessSequences = .ok found) : found.Sound root := by
  have hempty : ({} : Inventory).Sound root := ⟨by simp, rfl, by simp, by simp⟩
  cases root with
  | missing =>
    cases h
    exact hempty
  | notDirectory => cases h
  | directory entries => exact foldlM_scanEntry_sound entries (fun _ h => h) hempty h

variable {maximumScanEntries : Nat}

/-- The scan is the inventory as long as the entries are within their budget. -/
theorem scanEntries_of_le (entries : List RootEntry) :
    ∀ {scanned : Nat} {found : Inventory}, scanned + entries.length ≤ maximumScanEntries →
      scanEntries maximumScanEntries accessSequences entries scanned found =
        entries.foldlM (scanEntry accessSequences) found := by
  induction entries with
  | nil => exact fun _ => rfl
  | cons entry rest ih =>
    intro scanned found hle
    rw [List.length_cons] at hle
    rw [scanEntries, if_neg (by omega), List.foldlM_cons]
    cases hentry : scanEntry accessSequences found entry with
    | error e => rfl
    | ok next => exact ih (by omega)

theorem scanEntries_of_lt
    {last : Inventory} (entries : List RootEntry) : ∀ {scanned : Nat} {found : Inventory},
      entries.foldlM (scanEntry accessSequences) found = .ok last →
      scanned ≤ maximumScanEntries → maximumScanEntries < scanned + entries.length →
      scanEntries maximumScanEntries accessSequences entries scanned found =
        .error .inventoryBudget := by
  induction entries with
  | nil =>
    intro scanned found _ hle hlt
    simp only [List.length_nil] at hlt
    omega
  | cons entry rest ih =>
    intro scanned found hfold hle hlt
    rw [List.length_cons] at hlt
    rw [List.foldlM_cons] at hfold
    obtain ⟨next, hentry, hrest⟩ := bind_eq_ok hfold
    rw [scanEntries]
    by_cases hlast : scanned + 1 > maximumScanEntries
    · rw [if_pos hlast]
    · rw [if_neg hlast, hentry]
      exact ih hrest (by omega) (by omega)

/-! ## A state that matches its root -/

def RootArtifactRecord.recalled (accessSequences : List (String × Nat))
    (artifact : RootArtifactRecord) : RootArtifactRecord :=
  { artifact with accessSequence := recalledSequence accessSequences artifact.identity }

/-- The artifacts of the accounting with the access sequences that are still remembered. -/
def CacheState.recalledArtifacts (s : CacheState) : List RootArtifactRecord :=
  s.accounting.artifacts.map (RootArtifactRecord.recalled s.accounting.accessSequences)

/-- The accounting equals the contents of the root. -/
structure CacheState.Matches (s : CacheState) (found : Inventory) : Prop where
  initialized : s.accounting.initialized = true
  inventory : s.root.inventory s.accounting.accessSequences = .ok found
  artifacts : found.artifacts.Perm s.recalledArtifacts
  total : found.totalBytes = s.accounting.totalBytes

/-- What stays in the root when every candidate is removed. -/
def CacheState.remaining (s : CacheState) (protectedPath : Path) : List RootArtifactRecord :=
  s.accounting.artifacts.filter fun artifact => !isCandidate protectedPath artifact

/-- The reservation fits with every evictable, unprotected artifact removed. -/
def FitsEmptied (limits : CodegenCacheRootLimits) (protectedPath : Path)
    (reservedBytes reservedArtifacts : Nat) (s : CacheState) : Prop :=
  BudgetFits limits reservedBytes reservedArtifacts
    ((s.remaining protectedPath).map RootArtifactRecord.bytes).sum
    (s.remaining protectedPath).length

instance (limits : CodegenCacheRootLimits) (protectedPath : Path)
    (reservedBytes reservedArtifacts : Nat) (s : CacheState) :
    Decidable (FitsEmptied limits protectedPath reservedBytes reservedArtifacts s) :=
  inferInstanceAs (Decidable (BudgetFits _ _ _ _ _))

section
variable {s : CacheState} {found : Inventory}

theorem CacheState.Matches.bytes_perm (h : s.Matches found) :
    (found.artifacts.map RootArtifactRecord.bytes).Perm
      (s.accounting.artifacts.map RootArtifactRecord.bytes) := by
  have hperm := h.artifacts.map RootArtifactRecord.bytes
  rw [CacheState.recalledArtifacts, List.map_map] at hperm
  exact hperm

/-- A rescan counts what the accounting counted. -/
theorem CacheState.Matches.scanned_fits (h : s.Matches found)
    (hartifacts : accounting.artifacts = found.artifacts)
    (htotal : accounting.totalBytes = found.totalBytes) (limits : CodegenCacheRootLimits)
    (reservedBytes reservedArtifacts : Nat) :
    rootBudgetFits accounting limits reservedBytes reservedArtifacts ↔
      rootBudgetFits s.accounting limits reservedBytes reservedArtifacts := by
  have hlength : found.artifacts.length = s.accounting.artifacts.length := by
    simpa using h.bytes_perm.length_eq
  unfold rootBudgetFits
  rw [hartifacts, htotal, h.total, hlength]

variable {limits : CodegenCacheRootLimits}

theorem CacheState.Matches.scan_of_le (h : s.Matches found)
    (hle : s.root.entries.length ≤ limits.maximumScanEntries) :
    ∃ accounting, scanRootAccounting s.accounting s.root limits = .ok accounting ∧
      accounting.artifacts = found.artifacts ∧ accounting.totalBytes = found.totalBytes := by
  have hinventory := h.inventory
  unfold scanRootAccounting
  cases hroot : s.root with
  | missing =>
    rw [hroot] at hinventory
    cases hinventory
    exact ⟨_, rfl, rfl, rfl⟩
  | notDirectory =>
    rw [hroot] at hinventory
    cases hinventory
  | directory entries =>
    rw [hroot] at hinventory hle
    have hscan : scanEntries limits.maximumScanEntries s.accounting.accessSequences entries 0 {} =
        .ok found := by
      rw [scanEntries_of_le entries (by simpa [CacheRoot.entries] using hle)]
      exact hinventory
    simp only [hscan]
    exact ⟨_, rfl, rfl, rfl⟩

theorem CacheState.Matches.scan_of_lt (h : s.Matches found)
    (hlt : limits.maximumScanEntries < s.root.entries.length) :
    scanRootAccounting s.accounting s.root limits = .error .inventoryBudget := by
  have hinventory := h.inventory
  unfold scanRootAccounting
  cases hroot : s.root with
  | missing => simp [hroot, CacheRoot.entries] at hlt
  | notDirectory => simp [hroot, CacheRoot.entries] at hlt
  | directory entries =>
    rw [hroot] at hinventory hlt
    have hscan := scanEntries_of_lt entries hinventory (Nat.zero_le limits.maximumScanEntries)
      (by simpa [CacheRoot.entries] using hlt)
    simp only [hscan]

end
end KatanaRecomp.Codegen.Cache
