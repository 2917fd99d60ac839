import KatanaRecomp.Lib.MergeWalk

/-! # Ranges in an ordered map

The entries of a closed interval of keys, the last entry up to a key, and maps
whose entries are ranges that begin at their key: where these lie apart, the last
entry up to a position is the only one that can hold it. -/
namespace KatanaRecomp.Lib.OrderedMap
variable {κ α : Type} [LinearOrder κ]

/-- The entry before `upper_bound(key)`. -/
def lastUpTo (m : OrderedMap κ α) (key : κ) : Option (κ × α) :=
  (m.entries.takeWhile fun entry => entry.1 ≤ key).getLast?

/-- The entries from `low` on up to `high`. -/
def within (m : OrderedMap κ α) (low high : κ) : List (κ × α) :=
  (m.lowerBound low).takeWhile fun entry => entry.1 ≤ high

theorem mem_takeWhile_le {m : OrderedMap κ α} {key : κ} {entry : κ × α} :
    entry ∈ m.entries.takeWhile (fun entry => entry.1 ≤ key) ↔
      entry ∈ m.entries ∧ entry.1 ≤ key := by
  constructor
  · intro h
    exact ⟨(List.takeWhile_sublist _).subset h, by simpa using List.mem_takeWhile_imp h⟩
  · intro h
    refine mem_takeWhile_of_sorted m.sorted h.1 fun other _ hle => ?_
    exact decide_eq_true (hle.trans h.2)

theorem lastUpTo_spec {m : OrderedMap κ α} {key : κ} {entry : κ × α}
    (h : m.lastUpTo key = some entry) : entry ∈ m.entries ∧ entry.1 ≤ key ∧
      ∀ other ∈ m.entries, other.1 ≤ key → other.1 ≤ entry.1 := by
  obtain ⟨before, hsplit⟩ := List.getLast?_eq_some_iff.mp h
  have hmem := mem_takeWhile_le.mp (hsplit ▸ List.mem_append_right before List.mem_cons_self :
    entry ∈ m.entries.takeWhile fun entry => decide (entry.1 ≤ key))
  refine ⟨hmem.1, hmem.2, fun other hother hle => ?_⟩
  have hsorted : (before ++ [entry]).Pairwise fun a b => a.1 < b.1 :=
    hsplit ▸ m.sorted.sublist (List.takeWhile_sublist _)
  have hin : other ∈ before ++ [entry] := hsplit ▸ mem_takeWhile_le.mpr ⟨hother, hle⟩
  rcases List.mem_append.mp hin with hbefore | hlast
  · exact ((List.pairwise_append.mp hsorted).2.2 other hbefore entry List.mem_cons_self).le
  · rw [List.mem_singleton.mp hlast]

theorem lastUpTo_isSome {m : OrderedMap κ α} {key : κ} {entry : κ × α} (hmem : entry ∈ m.entries)
    (hle : entry.1 ≤ key) : ∃ last, m.lastUpTo key = some last := by
  have hin := mem_takeWhile_le.mpr ⟨hmem, hle⟩
  exact ⟨_, List.getLast?_eq_some_getLast (List.ne_nil_of_mem hin)⟩

theorem mem_within {m : OrderedMap κ α} {low high : κ} {entry : κ × α} :
    entry ∈ m.within low high ↔ entry ∈ m.entries ∧ low ≤ entry.1 ∧ entry.1 ≤ high := by
  constructor
  · intro h
    have hbehind : entry ∈ m.lowerBound low := (List.takeWhile_sublist _).subset h
    have hmem : entry ∈ m.entries := (List.dropWhile_sublist _).subset hbehind
    refine ⟨hmem, ?_, by simpa using List.mem_takeWhile_imp h⟩
    by_contra hlow
    -- an entry below the interval stands before its lower bound
    have hsplit : m.entries.takeWhile (fun e => decide (e.1 < low)) ++ m.lowerBound low =
      m.entries := List.takeWhile_append_dropWhile
    have hfront : entry ∈ m.entries.takeWhile fun e => decide (e.1 < low) :=
      mem_takeWhile_of_sorted m.sorted hmem fun other _ hle =>
        decide_eq_true (hle.trans_lt (not_le.mp hlow))
    have hsorted := m.sorted
    rw [← hsplit] at hsorted
    exact absurd ((List.pairwise_append.mp hsorted).2.2 entry hfront entry hbehind) (lt_irrefl _)
  · intro h
    exact mem_walk (find_of_mem h.1) h.2.1 fun other _ hle => decide_eq_true (hle.trans h.2.2)

theorem sorted_within (m : OrderedMap κ α) (low high : κ) :
    (m.within low high).Pairwise fun a b => a.1 < b.1 :=
  (m.sorted.sublist (List.dropWhile_sublist _)).sublist (List.takeWhile_sublist _)

/-- The entries of an interval depend on what the map has there. -/
theorem within_congr {m m' : OrderedMap κ α} {low high : κ}
    (h : ∀ key, low ≤ key → key ≤ high → m.find key = m'.find key) :
    m.within low high = m'.within low high := by
  have hmem : ∀ entry, entry ∈ m.within low high ↔ entry ∈ m'.within low high := by
    intro entry
    rw [mem_within, mem_within, mem_entries_iff, mem_entries_iff]
    refine and_congr_left fun hin => ?_
    rw [h entry.1 hin.1 hin.2]
  have hnodup : ∀ m : OrderedMap κ α, (m.within low high).Nodup := fun m =>
    (m.sorted_within low high).imp fun hlt heq => absurd (congrArg Prod.fst heq) hlt.ne
  refine ((List.perm_ext_iff_of_nodup (hnodup m) (hnodup m')).mpr hmem).eq_of_pairwise ?_
    (m.sorted_within low high) (m'.sorted_within low high)
  intro a b _ _ hab hba
  exact absurd hab hba.asymm

/-! ## Maps of ranges -/

section
variable (last : α → κ)

/-- The range that holds a position, sought at the last entry up to it. -/
def containing (m : OrderedMap κ α) (key : κ) : Option (κ × α) :=
  (m.lastUpTo key).filter fun entry => key ≤ last entry.2

/-- Each range ends before the next one begins. -/
def Apart (m : OrderedMap κ α) : Prop :=
  ∀ {low high : κ} {first second : α}, m.find low = some first → m.find high = some second →
    low < high → last first < high

variable {last} {m : OrderedMap κ α} {key low : κ} {range : α}

theorem find_of_containing (h : m.containing last key = some (low, range)) :
    m.find low = some range ∧ low ≤ key ∧ key ≤ last range := by
  obtain ⟨hlast, hend⟩ := Option.filter_eq_some_iff.mp h
  obtain ⟨hmem, hle, -⟩ := lastUpTo_spec hlast
  exact ⟨find_of_mem hmem, hle, by simpa using hend⟩

theorem containing_of_find (hapart : m.Apart last) (hfind : m.find low = some range)
    (hlow : low ≤ key) (hend : key ≤ last range) : m.containing last key = some (low, range) := by
  obtain ⟨entry, hentry⟩ := lastUpTo_isSome (mem_of_find hfind) hlow
  obtain ⟨hmem, hle, hgreatest⟩ := lastUpTo_spec hentry
  have hfound : m.find entry.1 = some entry.2 := find_of_mem hmem
  have heq : entry.1 = low := by
    by_contra hne
    have hlt : low < entry.1 := lt_of_le_of_ne (hgreatest _ (mem_of_find hfind) hlow) (Ne.symm hne)
    exact absurd (hapart hfind hfound hlt) (hle.trans hend).not_gt
  have hrange : entry.2 = range := by
    rw [heq, hfind] at hfound
    exact (Option.some.inj hfound).symm
  have hpair : entry = (low, range) := Prod.ext heq hrange
  rw [containing, hentry, hpair, Option.filter_some, if_pos (by simpa using hend)]

end
end KatanaRecomp.Lib.OrderedMap
