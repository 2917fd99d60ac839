import KatanaRecomp.Lib.MapTotals

/-! # Walks over ordered maps

`upper_bound`, the entries of an interval, and the walk over two maps at once
that reports the keys on which they differ. -/
namespace KatanaRecomp.Lib.OrderedMap
variable {κ α β : Type} [LinearOrder κ]

/-- The entries from `upper_bound(key)` on. -/
def upperBound (m : OrderedMap κ α) (key : κ) : List (κ × α) :=
  m.entries.dropWhile fun entry => entry.1 ≤ key

/-- The entries of a loop from `upper_bound(low)` up to `high`. -/
def between (m : OrderedMap κ α) (low high : κ) : List (κ × α) :=
  (m.upperBound low).takeWhile fun entry => entry.1 ≤ high

theorem sorted_upperBound (m : OrderedMap κ α) (key : κ) :
    (m.upperBound key).Pairwise (fun a b => a.1 < b.1) :=
  m.sorted.sublist (List.dropWhile_sublist _)

theorem mem_upperBound {m : OrderedMap κ α} {key : κ} {entry : κ × α} :
    entry ∈ m.upperBound key ↔ entry ∈ m.entries ∧ key < entry.1 := by
  have hsorted := m.sorted
  unfold upperBound
  generalize m.entries = entries at hsorted
  induction entries with
  | nil => simp
  | cons first rest ih =>
    obtain ⟨hfirst, hrest⟩ := List.pairwise_cons.mp hsorted
    by_cases hbelow : first.1 ≤ key
    · rw [List.dropWhile_cons_of_pos (by simpa using hbelow)]
      refine (ih hrest).trans ?_
      constructor
      · intro h
        exact ⟨List.mem_cons_of_mem _ h.1, h.2⟩
      · intro h
        rcases List.mem_cons.mp h.1 with rfl | hmem
        · exact absurd h.2 hbelow.not_gt
        · exact ⟨hmem, h.2⟩
    · rw [List.dropWhile_cons_of_neg (by simpa using hbelow)]
      have habove : key < first.1 := not_le.mp hbelow
      refine ⟨fun h => ⟨h, ?_⟩, And.left⟩
      rcases List.mem_cons.mp h with rfl | hmem
      · exact habove
      · exact habove.trans (hfirst entry hmem)

theorem mem_between {m : OrderedMap κ α} {low high : κ} {entry : κ × α} :
    entry ∈ m.between low high ↔ entry ∈ m.entries ∧ low < entry.1 ∧ entry.1 ≤ high := by
  rw [between, ← and_assoc, ← mem_upperBound]
  constructor
  · intro h
    exact ⟨(List.takeWhile_sublist _).subset h, by simpa using List.mem_takeWhile_imp h⟩
  · intro h
    refine mem_takeWhile_of_sorted (m.sorted_upperBound low) h.1 fun other _ hle => ?_
    exact decide_eq_true (hle.trans h.2)

/-- The first entry above `low` tells whether any lies in the interval. -/
theorem head_upperBound_le_iff {m : OrderedMap κ α} {low high : κ} :
    ((m.upperBound low).head?.any fun entry => entry.1 ≤ high) = true ↔
      ∃ entry ∈ m.entries, low < entry.1 ∧ entry.1 ≤ high := by
  have hmem : ∀ entry, entry ∈ m.upperBound low ↔ entry ∈ m.entries ∧ low < entry.1 :=
    fun entry => mem_upperBound
  have hsorted := m.sorted_upperBound low
  cases hcases : m.upperBound low with
  | nil =>
    rw [hcases] at hmem
    refine iff_of_false Bool.false_ne_true fun h => ?_
    obtain ⟨entry, hentry, hlow, -⟩ := h
    exact absurd ((hmem entry).mpr ⟨hentry, hlow⟩) List.not_mem_nil
  | cons first rest =>
    rw [hcases] at hmem hsorted
    have hfirst := (hmem first).mp List.mem_cons_self
    rw [List.head?_cons, Option.any_some, decide_eq_true_eq]
    constructor
    · intro hle
      exact ⟨first, hfirst.1, hfirst.2, hle⟩
    · intro h
      obtain ⟨entry, hentry, hlow, hle⟩ := h
      rcases List.mem_cons.mp ((hmem entry).mpr ⟨hentry, hlow⟩) with rfl | hrest
      · exact hle
      · exact ((List.pairwise_cons.mp hsorted).1 entry hrest).le.trans hle

/-! ## The walk over two maps -/

/-- The keys that only one of the lists has, and those on which the values differ. -/
def changedKeys (differ : α → α → Bool) : List (κ × α) → List (κ × α) → List κ
  | [], right => right.map (·.1)
  | left, [] => left.map (·.1)
  | left :: lefts, right :: rights =>
    if left.1 < right.1 then left.1 :: changedKeys differ lefts (right :: rights)
    else if right.1 < left.1 then right.1 :: changedKeys differ (left :: lefts) rights
    else if differ left.2 right.2 then left.1 :: changedKeys differ lefts rights
    else changedKeys differ lefts rights
termination_by left right => left.length + right.length

/-- At a key that the walk does not report each entry of one list has its like in the other. -/
def AgreeAt (differ : α → α → Bool) (key : κ) (left right : List (κ × α)) : Prop :=
  (∀ value, (key, value) ∈ left → ∃ other, (key, other) ∈ right ∧ differ value other = false) ∧
    ∀ other, (key, other) ∈ right → ∃ value, (key, value) ∈ left ∧ differ value other = false

section

omit [LinearOrder κ]

theorem mem_of_mem_cons_of_ne {first : κ × α} {rest : List (κ × α)} {key : κ} {value : α}
    (hne : key ≠ first.1) (h : (key, value) ∈ first :: rest) : (key, value) ∈ rest := by
  rcases List.mem_cons.mp h with heq | hmem
  · exact absurd (congrArg Prod.fst heq) hne
  · exact hmem

theorem agreeAt_cons_left {differ : α → α → Bool} {key : κ} {first : κ × α}
    {left right : List (κ × α)} (hne : key ≠ first.1) (h : AgreeAt differ key left right) :
    AgreeAt differ key (first :: left) right := by
  refine ⟨fun value hvalue => h.1 value (mem_of_mem_cons_of_ne hne hvalue), fun other hother => ?_⟩
  obtain ⟨value, hvalue, hagree⟩ := h.2 other hother
  exact ⟨value, List.mem_cons_of_mem _ hvalue, hagree⟩

theorem agreeAt_cons_right {differ : α → α → Bool} {key : κ} {first : κ × α}
    {left right : List (κ × α)} (hne : key ≠ first.1) (h : AgreeAt differ key left right) :
    AgreeAt differ key left (first :: right) := by
  refine ⟨fun value hvalue => ?_, fun other hother => h.2 other (mem_of_mem_cons_of_ne hne hother)⟩
  obtain ⟨other, hother, hagree⟩ := h.1 value hvalue
  exact ⟨other, List.mem_cons_of_mem _ hother, hagree⟩

end

theorem eq_of_mem_cons_of_sorted {first : κ × α} {rest : List (κ × α)} {value : α}
    (hsorted : (first :: rest).Pairwise (fun a b => a.1 < b.1))
    (h : (first.1, value) ∈ first :: rest) : value = first.2 := by
  rcases List.mem_cons.mp h with heq | hmem
  · exact congrArg Prod.snd heq
  · exact absurd ((List.pairwise_cons.mp hsorted).1 _ hmem) (lt_irrefl _)

theorem agreeAt_of_notMem {differ : α → α → Bool} {key : κ} {left right : List (κ × α)}
    (hleft : left.Pairwise (fun a b => a.1 < b.1)) (hright : right.Pairwise (fun a b => a.1 < b.1))
    (h : key ∉ changedKeys differ left right) : AgreeAt differ key left right := by
  fun_induction changedKeys differ left right with
  | case1 right =>
    exact ⟨fun value hvalue => absurd hvalue List.not_mem_nil, fun other hother =>
      absurd (List.mem_map_of_mem hother) h⟩
  | case2 left hne =>
    exact ⟨fun value hvalue => absurd (List.mem_map_of_mem hvalue) h,
      fun other hother => absurd hother List.not_mem_nil⟩
  | case3 left lefts right rights hlt ih =>
    obtain ⟨hkey, hrest⟩ := not_or.mp (mt List.mem_cons.mpr h)
    exact agreeAt_cons_left hkey (ih (List.pairwise_cons.mp hleft).2 hright hrest)
  | case4 left lefts right rights hlt hgt ih =>
    obtain ⟨hkey, hrest⟩ := not_or.mp (mt List.mem_cons.mpr h)
    exact agreeAt_cons_right hkey (ih hleft (List.pairwise_cons.mp hright).2 hrest)
  | case5 left lefts right rights hlt hgt hdiffer ih =>
    obtain ⟨hkey, hrest⟩ := not_or.mp (mt List.mem_cons.mpr h)
    have hsame : left.1 = right.1 := le_antisymm (not_lt.mp hgt) (not_lt.mp hlt)
    exact agreeAt_cons_left hkey (agreeAt_cons_right (hsame ▸ hkey)
      (ih (List.pairwise_cons.mp hleft).2 (List.pairwise_cons.mp hright).2 hrest))
  | case6 left lefts right rights hlt hgt hdiffer ih =>
    have hsame : left.1 = right.1 := le_antisymm (not_lt.mp hgt) (not_lt.mp hlt)
    have hagree : differ left.2 right.2 = false := Bool.eq_false_iff.mpr hdiffer
    by_cases hkey : key = left.1
    · -- both lists have the key in front
      subst hkey
      refine ⟨fun value hvalue => ⟨right.2, ?_, ?_⟩, fun other hother => ⟨left.2, ?_, ?_⟩⟩
      · rw [hsame]
        exact List.mem_cons_self
      · rw [eq_of_mem_cons_of_sorted hleft hvalue]
        exact hagree
      · exact List.mem_cons_self
      · rw [hsame] at hother
        rw [eq_of_mem_cons_of_sorted hright hother]
        exact hagree
    · exact agreeAt_cons_left hkey (agreeAt_cons_right (hsame ▸ hkey)
        (ih (List.pairwise_cons.mp hleft).2 (List.pairwise_cons.mp hright).2 h))

end KatanaRecomp.Lib.OrderedMap
