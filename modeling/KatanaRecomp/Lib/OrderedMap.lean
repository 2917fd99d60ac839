import Mathlib.Data.List.Basic
import Mathlib.Data.List.TakeWhile
import Mathlib.Data.Prod.Lex
import Mathlib.Tactic.Linarith

/-! # Ordered maps

A map kept as the list of its entries in the order of the keys, with the
operations of `std::map`: `find`, `emplace`, which leaves an entry that is there
alone, `erase`, and the neighbours of a key. -/
namespace KatanaRecomp.Lib

structure OrderedMap (κ α : Type) [LinearOrder κ] where
  entries : List (κ × α) := []
  sorted : entries.Pairwise (fun a b => a.1 < b.1) := by exact List.Pairwise.nil

namespace OrderedMap
variable {κ α : Type} [LinearOrder κ]

def empty : OrderedMap κ α := {}

@[ext]
theorem ext {m m' : OrderedMap κ α} (h : m.entries = m'.entries) : m = m' := by
  cases m
  cases m'
  cases h
  rfl

def find (m : OrderedMap κ α) (key : κ) : Option α :=
  (m.entries.find? fun entry => entry.1 = key).map (·.2)

def emplaceEntry (key : κ) (value : α) : List (κ × α) → List (κ × α)
  | [] => [(key, value)]
  | entry :: rest =>
    if entry.1 < key then entry :: emplaceEntry key value rest
    else if key < entry.1 then (key, value) :: entry :: rest
    else entry :: rest

variable {key : κ}

theorem mem_emplaceEntry {value : α} {entries : List (κ × α)} {entry : κ × α}
    (h : entry ∈ emplaceEntry key value entries) : entry = (key, value) ∨ entry ∈ entries := by
  induction entries with
  | nil => exact .inl (List.mem_singleton.mp h)
  | cons first rest ih =>
    simp only [emplaceEntry] at h
    split at h
    · rcases List.mem_cons.mp h with h | h
      · exact .inr (h ▸ List.mem_cons_self)
      · exact (ih h).imp_right (List.mem_cons_of_mem _)
    · split at h
      · rcases List.mem_cons.mp h with h | h
        · exact .inl h
        · exact .inr h
      · exact .inr h

theorem sorted_emplaceEntry {value : α} {entries : List (κ × α)}
    (h : entries.Pairwise (fun a b => a.1 < b.1)) :
    (emplaceEntry key value entries).Pairwise (fun a b => a.1 < b.1) := by
  induction entries with
  | nil => exact List.pairwise_singleton _ _
  | cons first rest ih =>
    obtain ⟨hfirst, hrest⟩ := List.pairwise_cons.mp h
    simp only [emplaceEntry]
    split
    · rename_i hbelow
      refine List.pairwise_cons.mpr ⟨fun entry hentry => ?_, ih hrest⟩
      rcases mem_emplaceEntry hentry with rfl | hentry
      · exact hbelow
      · exact hfirst entry hentry
    · split
      · rename_i habove
        refine List.pairwise_cons.mpr ⟨fun entry hentry => ?_, h⟩
        rcases List.mem_cons.mp hentry with rfl | hentry
        · exact habove
        · exact habove.trans (hfirst entry hentry)
      · exact h

def emplace (m : OrderedMap κ α) (key : κ) (value : α) : OrderedMap κ α :=
  ⟨emplaceEntry key value m.entries, sorted_emplaceEntry m.sorted⟩

def erase (m : OrderedMap κ α) (key : κ) : OrderedMap κ α :=
  ⟨m.entries.filter fun entry => entry.1 ≠ key, m.sorted.filter _⟩

/-- The entries from `lower_bound(key)` on. -/
def lowerBound (m : OrderedMap κ α) (key : κ) : List (κ × α) :=
  m.entries.dropWhile fun entry => entry.1 < key

/-- The entry before `lower_bound(key)`. -/
def previous (m : OrderedMap κ α) (key : κ) : Option (κ × α) :=
  (m.entries.takeWhile fun entry => entry.1 < key).getLast?

@[simp]
theorem find_empty (key : κ) : (empty : OrderedMap κ α).find key = none := rfl

theorem find_emplaceEntry {value : α} {entries : List (κ × α)}
    (hsorted : entries.Pairwise (fun a b => a.1 < b.1)) (key' : κ) :
    ((emplaceEntry key value entries).find? fun entry => entry.1 = key').map (·.2) =
      if key' = key then
        some (((entries.find? fun entry => entry.1 = key).map (·.2)).getD value)
      else (entries.find? fun entry => entry.1 = key').map (·.2) := by
  induction entries with
  | nil => by_cases h : key' = key <;> simp [emplaceEntry, h, eq_comm]
  | cons first rest ih =>
    obtain ⟨hfirst, hrest⟩ := List.pairwise_cons.mp hsorted
    simp only [emplaceEntry]
    split
    · rename_i hbelow
      by_cases hhere : first.1 = key'
      · have hne : key' ≠ key := hhere ▸ hbelow.ne
        simp [hhere, hne]
      · simp only [List.find?_cons, hhere, decide_false, ih hrest, hbelow.ne]
    · split
      · rename_i habove
        have habsent : rest.find? (fun entry => decide (entry.1 = key)) = none := by
          rw [List.find?_eq_none]
          intro entry hentry
          simpa using (habove.trans (hfirst entry hentry)).ne'
        by_cases hkey : key' = key
        · subst hkey
          simp [habove.ne', habsent]
        · have hne : key ≠ key' := fun h => hkey h.symm
          simp [hkey, hne]
      · rename_i hbelow habove
        have hkey : first.1 = key := le_antisymm (not_lt.mp habove) (not_lt.mp hbelow)
        by_cases hhere : key' = key
        · subst hhere
          simp [hkey]
        · simp [hhere]

/-- `emplace` adds the key where it is missing. -/
@[simp]
theorem find_emplace (m : OrderedMap κ α) (key : κ) (value : α) (key' : κ) :
    (m.emplace key value).find key' =
      if key' = key then some ((m.find key).getD value) else m.find key' :=
  find_emplaceEntry m.sorted key'

@[simp]
theorem find_erase (m : OrderedMap κ α) (key key' : κ) :
    (m.erase key).find key' = if key' = key then none else m.find key' := by
  simp only [find, erase, List.find?_filter]
  by_cases h : key' = key
  · simp [h]
  · have hsame : (fun entry : κ × α =>
          decide (decide (entry.1 ≠ key) = true ∧ decide (entry.1 = key') = true)) =
        fun entry => decide (entry.1 = key') := by
      funext entry
      by_cases hentry : entry.1 = key'
      · simp [hentry, h]
      · simp [hentry]
    rw [if_neg h, hsame]

theorem dropWhile_of_find {entries : List (κ × α)} {value : α}
    (hsorted : entries.Pairwise (fun a b => a.1 < b.1))
    (h : (entries.find? fun entry => entry.1 = key).map (·.2) = some value) :
    (entries.dropWhile fun entry => entry.1 < key).head? = some (key, value) := by
  induction entries with
  | nil => cases h
  | cons first rest ih =>
    obtain ⟨hfirst, hrest⟩ := List.pairwise_cons.mp hsorted
    by_cases hhere : first.1 = key
    · obtain ⟨k, v⟩ := first
      cases hhere
      simp at h
      simp [h]
    · simp only [List.find?_cons, hhere, decide_false] at h
      have hmem : ∃ entry ∈ rest, entry.1 = key := by
        obtain ⟨entry, hentry, -⟩ := Option.map_eq_some_iff.mp h
        exact ⟨entry, List.mem_of_find?_eq_some hentry, by simpa using List.find?_some hentry⟩
      obtain ⟨entry, hentry, rfl⟩ := hmem
      simp [hfirst entry hentry, ih hrest h]

/-- The lower bound of a key that is there is its entry. -/
theorem lowerBound_of_find {m : OrderedMap κ α} {value : α}
    (h : m.find key = some value) : (m.lowerBound key).head? = some (key, value) :=
  dropWhile_of_find m.sorted h

theorem mem_of_find {m : OrderedMap κ α} {value : α}
    (h : m.find key = some value) : (key, value) ∈ m.entries := by
  obtain ⟨entry, hentry, rfl⟩ := Option.map_eq_some_iff.mp h
  have hkey : entry.1 = key := by simpa using List.find?_some hentry
  exact hkey ▸ List.mem_of_find?_eq_some hentry

theorem find_of_mem {m : OrderedMap κ α} {value : α}
    (h : (key, value) ∈ m.entries) : m.find key = some value := by
  have hsorted := m.sorted
  unfold find
  generalize m.entries = entries at h hsorted
  induction entries with
  | nil => cases h
  | cons first rest ih =>
    obtain ⟨hfirst, hrest⟩ := List.pairwise_cons.mp hsorted
    rcases List.mem_cons.mp h with rfl | hmem
    · simp
    · have hne : first.1 ≠ key := (hfirst _ hmem).ne
      rw [List.find?_cons_of_neg (by simpa using hne)]
      exact ih hmem hrest

/-- The lower bound is not behind any entry from the key on. -/
theorem head_lowerBound_le {m : OrderedMap κ α} {low : κ} {entry : κ × α}
    (hentry : entry ∈ m.entries) (hlow : low ≤ entry.1) :
    ∃ first ∈ m.entries, (m.lowerBound low).head? = some first ∧ low ≤ first.1 ∧
      first.1 ≤ entry.1 := by
  have hsorted := m.sorted
  unfold lowerBound
  generalize m.entries = entries at hentry hsorted
  induction entries with
  | nil => cases hentry
  | cons first rest ih =>
    obtain ⟨hfirst, hrest⟩ := List.pairwise_cons.mp hsorted
    by_cases hbelow : first.1 < low
    · rw [List.dropWhile_cons_of_pos (by simpa using hbelow)]
      have hmem : entry ∈ rest := by
        rcases List.mem_cons.mp hentry with rfl | hmem
        · exact absurd hbelow hlow.not_gt
        · exact hmem
      obtain ⟨found, hfound, hrest⟩ := ih hmem hrest
      exact ⟨found, List.mem_cons_of_mem _ hfound, hrest⟩
    · rw [List.dropWhile_cons_of_neg (by simpa using hbelow)]
      refine ⟨first, List.mem_cons_self, rfl, not_lt.mp hbelow, ?_⟩
      rcases List.mem_cons.mp hentry with rfl | hmem
      · exact le_rfl
      · exact (hfirst entry hmem).le

/-- The entry before the lower bound is not in front of any entry below the key. -/
theorem le_previous {m : OrderedMap κ α} {low : κ} {entry : κ × α}
    (hentry : entry ∈ m.entries) (hlow : entry.1 < low) :
    ∃ last ∈ m.entries, m.previous low = some last ∧ entry.1 ≤ last.1 ∧ last.1 < low := by
  have hmem : entry ∈ m.entries.takeWhile fun e => e.1 < low := by
    have hsplit : _ = m.entries := List.takeWhile_append_dropWhile
      (p := fun entry : κ × α => decide (entry.1 < low))
    have hwhole := hentry
    rw [← hsplit, List.mem_append] at hwhole
    rcases hwhole with hbefore | hbehind
    · exact hbefore
    · exfalso
      have hsorted : (m.lowerBound low).Pairwise (fun a b => a.1 < b.1) :=
        m.sorted.sublist (List.dropWhile_sublist _)
      have hdrop : entry ∈ m.lowerBound low := hbehind
      cases hcases : m.lowerBound low with
      | nil =>
        rw [hcases] at hdrop
        cases hdrop
      | cons first rest =>
        have hfirst : low ≤ first.1 := by
          have hstop :=
            List.head?_dropWhile_not (fun entry : κ × α => decide (entry.1 < low)) m.entries
          have hcases' : m.entries.dropWhile (fun entry => decide (entry.1 < low)) =
            first :: rest := hcases
          simpa [hcases'] using hstop
        rw [hcases] at hdrop hsorted
        rcases List.mem_cons.mp hdrop with rfl | hmem
        · exact absurd hlow hfirst.not_gt
        · exact absurd hlow (hfirst.trans ((List.pairwise_cons.mp hsorted).1 entry hmem).le).not_gt
  have hsorted : (m.entries.takeWhile fun e => e.1 < low).Pairwise (fun a b => a.1 < b.1) :=
    m.sorted.sublist (List.takeWhile_sublist _)
  have hinside : ∀ e ∈ m.entries.takeWhile (fun e => e.1 < low), e ∈ m.entries ∧ e.1 < low :=
    fun e he => ⟨(List.takeWhile_sublist _).subset he, by simpa using List.mem_takeWhile_imp he⟩
  unfold previous
  generalize m.entries.takeWhile (fun e => e.1 < low) = before at hmem hsorted hinside
  have hne : before ≠ [] := List.ne_nil_of_mem hmem
  refine ⟨before.getLast hne, (hinside _ (List.getLast_mem hne)).1,
    List.getLast?_eq_some_getLast hne, ?_, (hinside _ (List.getLast_mem hne)).2⟩
  have hsplit := List.dropLast_append_getLast hne
  rw [← hsplit] at hmem hsorted
  rcases List.mem_append.mp hmem with hfront | hlast
  · exact ((List.pairwise_append.mp hsorted).2.2 entry hfront _ List.mem_cons_self).le
  · rw [List.mem_singleton.mp hlast]

theorem mem_takeWhile_of_sorted {entries : List (κ × α)} {p : κ × α → Bool} {entry : κ × α}
    (hsorted : entries.Pairwise (fun a b => a.1 < b.1)) (hentry : entry ∈ entries)
    (h : ∀ x ∈ entries, x.1 ≤ entry.1 → p x) : entry ∈ entries.takeWhile p := by
  induction entries with
  | nil => cases hentry
  | cons first rest ih =>
    obtain ⟨hfirst, hrest⟩ := List.pairwise_cons.mp hsorted
    have hle : first.1 ≤ entry.1 := by
      rcases List.mem_cons.mp hentry with rfl | hmem
      · exact le_refl _
      · exact (hfirst entry hmem).le
    rw [List.takeWhile_cons, if_pos (h first List.mem_cons_self hle)]
    rcases List.mem_cons.mp hentry with rfl | hmem
    · exact List.mem_cons_self
    · exact List.mem_cons_of_mem _
        (ih hrest hmem fun x hx => h x (List.mem_cons_of_mem _ hx))

/-- A walk from the lower bound of `low` reaches every entry from `low` on whose
predecessors it does not stop at. -/
theorem mem_walk {m : OrderedMap κ α} {low key : κ} {value : α} {p : κ × α → Bool}
    (hfind : m.find key = some value) (hlow : low ≤ key)
    (h : ∀ x : κ × α, low ≤ x.1 → x.1 ≤ key → p x) :
    (key, value) ∈ (m.lowerBound low).takeWhile p := by
  have hmem := mem_of_find hfind
  have hsplit : _ = m.entries := List.takeWhile_append_dropWhile
    (p := fun entry : κ × α => decide (entry.1 < low))
  rw [← hsplit, List.mem_append] at hmem
  have hsorted : (m.lowerBound low).Pairwise (fun a b => a.1 < b.1) :=
    m.sorted.sublist (List.dropWhile_sublist _)
  have hbehind : (key, value) ∈ m.lowerBound low := by
    rcases hmem with hbefore | hbehind
    · exact absurd (by simpa using List.mem_takeWhile_imp hbefore) hlow.not_gt
    · exact hbehind
  refine mem_takeWhile_of_sorted hsorted hbehind fun x hx hle => h x ?_ hle
  -- the first entry of the walk is not below `low`, and the rest is above it
  rw [lowerBound] at hx hsorted
  cases hdrop : m.entries.dropWhile fun entry => decide (entry.1 < low) with
  | nil =>
    rw [hdrop] at hx
    cases hx
  | cons first rest =>
    have hfirst : low ≤ first.1 := by
      have hstop := List.head?_dropWhile_not (fun entry : κ × α => decide (entry.1 < low)) m.entries
      simpa [hdrop] using hstop
    rw [hdrop] at hx hsorted
    rcases List.mem_cons.mp hx with rfl | hx
    · exact hfirst
    · exact hfirst.trans ((List.pairwise_cons.mp hsorted).1 x hx).le

end OrderedMap
end KatanaRecomp.Lib
