import KatanaRecomp.Analysis.EntryPredecessors

/-! # What closed intervals and differences say

The entries of the maps are the boundaries and the edges that are counted, so
`closes` is a statement about these, and two indices that differ outside of an
interval close it alike. -/
namespace KatanaRecomp.Analysis
open Lib
open scoped Lib.BitVecOrder

namespace GlobalEntryPredecessorIndex

def IsBoundary (index : GlobalEntryPredecessorIndex) (address : BitVec 32) : Prop :=
  0 < index.boundaries.count address

def HasEdge (index : GlobalEntryPredecessorIndex) (source target : BitVec 32) : Prop :=
  0 < index.edgeCount source target

variable {index next : GlobalEntryPredecessorIndex} {seed load source target address : BitVec 32}
  {allowed : List GlobalEntryEdge}

theorem mem_counts_iff {tally : Tally (BitVec 32)} {key : BitVec 32} :
    (∃ count, (key, count) ∈ tally.counts.entries) ↔ 0 < tally.count key := by
  rw [← Tally.mem_keys_iff, Option.isSome_iff_exists]
  exact exists_congr fun count => OrderedMap.mem_entries_iff

theorem hasEdge_iff : index.HasEdge source target ↔
    ∃ sources, (target, sources) ∈ index.predecessors.entries ∧ 0 < sources.count source := by
  unfold HasEdge edgeCount GlobalEntryPredecessorIndex.sources OrderedMap.fetch
  constructor
  · intro h
    cases hfind : index.predecessors.find target with
    | none =>
      rw [hfind, Option.getD_none, Tally.count_empty] at h
      exact absurd h (lt_irrefl 0)
    | some sources =>
      rw [hfind, Option.getD_some] at h
      exact ⟨sources, OrderedMap.mem_entries_iff.mpr hfind, h⟩
  · intro h
    obtain ⟨sources, hmem, hcount⟩ := h
    rw [OrderedMap.mem_entries_iff.mp hmem, Option.getD_some]
    exact hcount

/-- Every edge into the interval is allowed. -/
def EdgesClose (index : GlobalEntryPredecessorIndex) (seed load : BitVec 32)
    (allowed : List GlobalEntryEdge) : Prop :=
  ∀ source target, index.HasEdge source target → seed < target → target ≤ load →
    (⟨source, target⟩ : GlobalEntryEdge) ∈ allowed

theorem any_edge_iff : (allowed.any fun edge => edge.source == source && edge.target == target) =
    true ↔ (⟨source, target⟩ : GlobalEntryEdge) ∈ allowed := by
  rw [List.any_eq_true]
  constructor
  · intro h
    obtain ⟨edge, hedge, hsame⟩ := h
    obtain ⟨hsource, htarget⟩ := Bool.and_eq_true_iff.mp hsame
    cases edge
    rwa [← eq_of_beq hsource, ← eq_of_beq htarget]
  · intro h
    exact ⟨_, h, by simp⟩

theorem predecessorsClose_iff :
    index.predecessorsClose seed load allowed = true ↔ index.EdgesClose seed load allowed := by
  unfold predecessorsClose
  rw [List.all_eq_true]
  constructor
  · intro h source target hedge hlow hhigh
    obtain ⟨sources, hmem, hcount⟩ := hasEdge_iff.mp hedge
    obtain ⟨count, hsource⟩ := mem_counts_iff.mpr hcount
    have hall := h _ (OrderedMap.mem_between.mpr ⟨hmem, hlow, hhigh⟩)
    exact any_edge_iff.mp (List.all_eq_true.mp hall _ hsource)
  · intro h entry hentry
    obtain ⟨hmem, hlow, hhigh⟩ := OrderedMap.mem_between.mp hentry
    refine List.all_eq_true.mpr fun source hsource => any_edge_iff.mpr ?_
    refine h source.1 entry.1 (hasEdge_iff.mpr ⟨entry.2, hmem, ?_⟩) hlow hhigh
    exact mem_counts_iff.mp ⟨source.2, hsource⟩

theorem boundary_between_iff :
    ((index.boundaries.counts.upperBound seed).head?.any fun entry => entry.1 ≤ load) = true ↔
      ∃ address, index.IsBoundary address ∧ seed < address ∧ address ≤ load := by
  rw [OrderedMap.head_upperBound_le_iff]
  constructor
  · intro h
    obtain ⟨entry, hentry, hlow, hhigh⟩ := h
    exact ⟨entry.1, mem_counts_iff.mp ⟨entry.2, hentry⟩, hlow, hhigh⟩
  · intro h
    obtain ⟨address, hboundary, hlow, hhigh⟩ := h
    obtain ⟨count, hentry⟩ := mem_counts_iff.mpr hboundary
    exact ⟨_, hentry, hlow, hhigh⟩

theorem closes_iff {additional : Option GlobalEntryPredecessorIndex} :
    index.closes seed load allowed additional = true ↔
      seed < load ∧ (∀ address, index.IsBoundary address → seed < address → load < address) ∧
        index.EdgesClose seed load allowed ∧
        ∀ other ∈ additional, other.EdgesClose seed load allowed := by
  unfold closes
  by_cases horder : load ≤ seed
  · rw [if_pos horder]
    exact iff_of_false Bool.false_ne_true fun h => absurd h.1 horder.not_gt
  rw [if_neg horder]
  by_cases hboundary :
      ((index.boundaries.counts.upperBound seed).head?.any fun entry => entry.1 ≤ load) = true
  · rw [if_pos hboundary]
    obtain ⟨address, hbetween, hlow, hhigh⟩ := boundary_between_iff.mp hboundary
    exact iff_of_false Bool.false_ne_true fun h => absurd (h.2.1 address hbetween hlow) hhigh.not_gt
  rw [if_neg hboundary]
  have hopen : ∀ address, index.IsBoundary address → seed < address → load < address := by
    intro address hbetween hlow
    by_contra hhigh
    exact hboundary (boundary_between_iff.mpr ⟨address, hbetween, hlow, not_lt.mp hhigh⟩)
  rw [← predecessorsClose_iff]
  cases hclose : index.predecessorsClose seed load allowed with
  | false => simp
  | true =>
    cases additional with
    | none => simpa using ⟨not_le.mp horder, hopen⟩
    | some other => simpa [predecessorsClose_iff, not_le.mp horder] using fun _ => hopen

end GlobalEntryPredecessorIndex

/-! ## Differences -/

theorem find_insertAll (set : AddressSet) (addresses : List (BitVec 32)) (address : BitVec 32) :
    ((insertAll set addresses).find address).isSome ↔
      address ∈ addresses ∨ (set.find address).isSome := by
  unfold insertAll
  induction addresses generalizing set with
  | nil => simp
  | cons first rest ih =>
    rw [List.foldl_cons, ih, OrderedMap.find_emplace, List.mem_cons]
    by_cases haddress : address = first
    · simp [haddress]
    · simp [haddress]

namespace GlobalEntryPredecessorDelta
variable {delta other : GlobalEntryPredecessorDelta} {seed load address : BitVec 32}

/-- No change lies in the interval. -/
def Spares (delta : GlobalEntryPredecessorDelta) (seed load : BitVec 32) : Prop :=
  ∀ address, seed < address → address ≤ load →
    (delta.changedBoundaries.find address).isSome = false ∧
      (delta.changedPredecessorTargets.find address).isSome = false

theorem isSome_of_between {set : AddressSet} :
    ((set.upperBound seed).head?.any fun entry => entry.1 ≤ load) = true ↔
      ∃ address, (set.find address).isSome ∧ seed < address ∧ address ≤ load := by
  rw [OrderedMap.head_upperBound_le_iff]
  constructor
  · intro h
    obtain ⟨entry, hentry, hbetween⟩ := h
    exact ⟨entry.1, by rw [OrderedMap.mem_entries_iff.mp hentry]; rfl, hbetween⟩
  · intro h
    obtain ⟨address, hfind, hbetween⟩ := h
    obtain ⟨value, hvalue⟩ := Option.isSome_iff_exists.mp hfind
    exact ⟨(address, value), OrderedMap.mem_entries_iff.mpr hvalue, hbetween⟩

theorem spares_of_affectsInterval (h : delta.affectsInterval seed load = false) :
    seed < load ∧ delta.Spares seed load := by
  unfold affectsInterval at h
  split at h
  · cases h
  rename_i horder
  split at h
  · cases h
  rename_i hboundaries
  refine ⟨not_le.mp horder, fun address hlow hhigh => ⟨?_, ?_⟩⟩
  · refine Bool.eq_false_iff.mpr fun hfind => hboundaries ?_
    exact isSome_of_between.mpr ⟨address, hfind, hlow, hhigh⟩
  · refine Bool.eq_false_iff.mpr fun hfind => Bool.eq_false_iff.mp h ?_
    exact isSome_of_between.mpr ⟨address, hfind, hlow, hhigh⟩

theorem Spares.of_merge (h : (delta.merge other).Spares seed load) :
    delta.Spares seed load ∧ other.Spares seed load := by
  have hmem : ∀ (set : AddressSet) (address : BitVec 32),
      (set.find address).isSome → address ∈ set.entries.map (·.1) := by
    intro set address hfind
    obtain ⟨value, hvalue⟩ := Option.isSome_iff_exists.mp hfind
    exact List.mem_map.mpr ⟨(address, value), OrderedMap.mem_entries_iff.mpr hvalue, rfl⟩
  refine ⟨fun address hlow hhigh => ?_, fun address hlow hhigh => ?_⟩
  · obtain ⟨hboundary, htarget⟩ := h address hlow hhigh
    refine ⟨Bool.eq_false_iff.mpr fun hfind => ?_, Bool.eq_false_iff.mpr fun hfind => ?_⟩
    · exact Bool.eq_false_iff.mp hboundary ((find_insertAll _ _ _).mpr (.inr hfind))
    · exact Bool.eq_false_iff.mp htarget ((find_insertAll _ _ _).mpr (.inr hfind))
  · obtain ⟨hboundary, htarget⟩ := h address hlow hhigh
    refine ⟨Bool.eq_false_iff.mpr fun hfind => ?_, Bool.eq_false_iff.mpr fun hfind => ?_⟩
    · exact Bool.eq_false_iff.mp hboundary ((find_insertAll _ _ _).mpr (.inl (hmem _ _ hfind)))
    · exact Bool.eq_false_iff.mp htarget ((find_insertAll _ _ _).mpr (.inl (hmem _ _ hfind)))

end GlobalEntryPredecessorDelta

theorem count_pos_iff_of_notMem {previous current : Tally (BitVec 32)} {key : BitVec 32}
    (h : key ∉ membershipChanges previous current) :
    0 < previous.count key ↔ 0 < current.count key := by
  have hagree := OrderedMap.agreeAt_of_notMem previous.counts.sorted current.counts.sorted h
  rw [← GlobalEntryPredecessorIndex.mem_counts_iff, ← GlobalEntryPredecessorIndex.mem_counts_iff]
  constructor
  · intro hprevious
    obtain ⟨count, hcount⟩ := hprevious
    obtain ⟨other, hother, -⟩ := hagree.1 count hcount
    exact ⟨other, hother⟩
  · intro hcurrent
    obtain ⟨count, hcount⟩ := hcurrent
    obtain ⟨other, hother, -⟩ := hagree.2 count hcount
    exact ⟨other, hother⟩

namespace GlobalEntryPredecessorIndex
variable {index next : GlobalEntryPredecessorIndex} {seed load source target address : BitVec 32}
  {allowed : List GlobalEntryEdge}

theorem notMem_of_find_insertAll {addresses : List (BitVec 32)}
    (h : ((insertAll .empty addresses).find address).isSome = false) : address ∉ addresses :=
  fun hmem => Bool.eq_false_iff.mp h ((find_insertAll _ _ _).mpr (.inl hmem))

variable (h : (index.difference next).Spares seed load)
include h

theorem isBoundary_iff_of_spares (hlow : seed < address) (hhigh : address ≤ load) :
    index.IsBoundary address ↔ next.IsBoundary address :=
  count_pos_iff_of_notMem (notMem_of_find_insertAll (h address hlow hhigh).1)

theorem hasEdge_iff_of_spares (hlow : seed < target) (hhigh : target ≤ load) :
    index.HasEdge source target ↔ next.HasEdge source target := by
  have hagree := OrderedMap.agreeAt_of_notMem index.predecessors.sorted next.predecessors.sorted
    (notMem_of_find_insertAll (h target hlow hhigh).2)
  have hsame : ∀ {previous current : Tally (BitVec 32)},
      (!(membershipChanges previous current).isEmpty) = false →
        (0 < previous.count source ↔ 0 < current.count source) := by
    intro previous current hempty
    have hnil : membershipChanges previous current = [] := by simpa using hempty
    refine count_pos_iff_of_notMem ?_
    rw [hnil]
    exact List.not_mem_nil
  rw [hasEdge_iff, hasEdge_iff]
  constructor
  · intro hedge
    obtain ⟨sources, hmem, hcount⟩ := hedge
    obtain ⟨other, hother, hempty⟩ := hagree.1 sources hmem
    exact ⟨other, hother, (hsame hempty).mp hcount⟩
  · intro hedge
    obtain ⟨sources, hmem, hcount⟩ := hedge
    obtain ⟨other, hother, hempty⟩ := hagree.2 sources hmem
    exact ⟨other, hother, (hsame hempty).mpr hcount⟩

theorem edgesClose_iff_of_spares :
    index.EdgesClose seed load allowed ↔ next.EdgesClose seed load allowed := by
  constructor
  · intro hclose source target hedge hlow hhigh
    exact hclose source target ((hasEdge_iff_of_spares h hlow hhigh).mpr hedge) hlow hhigh
  · intro hclose source target hedge hlow hhigh
    exact hclose source target ((hasEdge_iff_of_spares h hlow hhigh).mp hedge) hlow hhigh

/-- A change outside of an interval does not change whether it is closed. -/
theorem closes_eq_of_spares (additional : Option GlobalEntryPredecessorIndex) :
    index.closes seed load allowed additional = next.closes seed load allowed additional := by
  rw [Bool.eq_iff_iff, closes_iff, closes_iff, edgesClose_iff_of_spares h]
  have hboundary : (∀ address, index.IsBoundary address → seed < address → load < address) ↔
      ∀ address, next.IsBoundary address → seed < address → load < address := by
    refine forall_congr' fun address => ?_
    by_cases hbetween : seed < address ∧ address ≤ load
    · rw [isBoundary_iff_of_spares h hbetween.1 hbetween.2]
    · exact iff_of_true (fun _ hlow => not_le.mp fun hhigh => hbetween ⟨hlow, hhigh⟩)
        fun _ hlow => not_le.mp fun hhigh => hbetween ⟨hlow, hhigh⟩
  rw [hboundary]

omit h

/-- The same for a change of the additional index. -/
theorem closes_eq_of_additional {additional nextAdditional : GlobalEntryPredecessorIndex}
    (h : (additional.difference nextAdditional).Spares seed load) :
    index.closes seed load allowed (some additional) =
      index.closes seed load allowed (some nextAdditional) := by
  rw [Bool.eq_iff_iff, closes_iff, closes_iff]
  simp only [Option.mem_some_iff, forall_eq', edgesClose_iff_of_spares h]

end GlobalEntryPredecessorIndex
end KatanaRecomp.Analysis
