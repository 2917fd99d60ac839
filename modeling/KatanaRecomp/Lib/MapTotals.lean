import KatanaRecomp.Lib.OrderedMap

/-! # Replacing one entry of an ordered map

`insert_or_assign`, a map that leaves out its default value, what a fold over
all entries does when the entry of one key is replaced, and what replaying the
entries of one map over another leaves at each key. -/
namespace KatanaRecomp.Lib.OrderedMap
variable {κ α β γ M : Type} [LinearOrder κ]

instance [DecidableEq α] : DecidableEq (OrderedMap κ α) := fun m m' =>
  decidable_of_iff (m.entries = m'.entries) ⟨ext, fun h => congrArg entries h⟩

def insertOrAssign (m : OrderedMap κ α) (key : κ) (value : α) : OrderedMap κ α :=
  (m.erase key).emplace key value

@[simp]
theorem find_insertOrAssign (m : OrderedMap κ α) (key : κ) (value : α) (key' : κ) :
    (m.insertOrAssign key value).find key' = if key' = key then some value else m.find key' := by
  simp only [insertOrAssign, find_emplace, find_erase]
  by_cases h : key' = key <;> simp [h]

theorem mem_entries_iff {m : OrderedMap κ α} {entry : κ × α} :
    entry ∈ m.entries ↔ m.find entry.1 = some entry.2 := ⟨find_of_mem, mem_of_find⟩

theorem nodup_entries (m : OrderedMap κ α) : m.entries.Nodup :=
  m.sorted.imp fun h heq => absurd (congrArg Prod.fst heq) h.ne

theorem ext_find {m m' : OrderedMap κ α} (h : ∀ key, m.find key = m'.find key) : m = m' := by
  have hperm : m.entries.Perm m'.entries := by
    rw [List.perm_ext_iff_of_nodup m.nodup_entries m'.nodup_entries]
    intro entry
    rw [mem_entries_iff, mem_entries_iff, h]
  refine ext (hperm.eq_of_pairwise ?_ m.sorted m'.sorted)
  intro a b _ _ hab hba
  exact absurd hab hba.asymm

theorem erase_of_find_none {m : OrderedMap κ α} {key : κ} (h : m.find key = none) :
    m.erase key = m := by
  refine ext_find fun key' => ?_
  rw [find_erase]
  split
  · rename_i hkey
    rw [hkey, h]
  · rfl

@[simp]
theorem erase_insertOrAssign (m : OrderedMap κ α) (key : κ) (value : α) :
    (m.insertOrAssign key value).erase key = m.erase key := by
  refine ext_find fun key' => ?_
  simp only [find_erase, find_insertOrAssign]
  split <;> rfl

theorem find_of_isEmpty {m : OrderedMap κ α} (h : m.entries.isEmpty) (key : κ) :
    m.find key = none := by
  rw [find, List.isEmpty_iff.mp h]
  rfl

/-! ## Folds over all entries -/

section
variable (op : M → M → M) (unit : M) (weight : κ → α → M)

def total (m : OrderedMap κ α) : M :=
  m.entries.foldr (fun entry rest => op (weight entry.1 entry.2) rest) unit

variable [Std.Commutative op] [Std.Associative op]

theorem foldr_filter_of_mem {entries : List (κ × α)} {key : κ} {value : α}
    (hsorted : entries.Pairwise (fun a b => a.1 < b.1)) (hmem : (key, value) ∈ entries) :
    entries.foldr (fun entry rest => op (weight entry.1 entry.2) rest) unit = op (weight key value)
        ((entries.filter fun entry => entry.1 ≠ key).foldr
          (fun entry rest => op (weight entry.1 entry.2) rest) unit) := by
  induction entries with
  | nil => cases hmem
  | cons first rest ih =>
    obtain ⟨hfirst, hrest⟩ := List.pairwise_cons.mp hsorted
    rcases List.mem_cons.mp hmem with rfl | hmem
    · -- the keys behind the first entry are above it
      have hkeep : rest.filter (fun entry => decide (entry.1 ≠ key)) = rest := by
        rw [List.filter_eq_self]
        intro entry hentry
        simpa using (hfirst entry hentry).ne'
      rw [List.filter_cons_of_neg (by simp), hkeep]
      rfl
    · have hne : first.1 ≠ key := (hfirst _ hmem).ne
      rw [List.filter_cons_of_pos (by simpa using hne), List.foldr_cons, List.foldr_cons,
        ih hrest hmem]
      ac_rfl

/-- An entry comes out of the total. -/
theorem total_of_find {m : OrderedMap κ α} {key : κ} {value : α} (h : m.find key = some value) :
    m.total op unit weight = op (weight key value) ((m.erase key).total op unit weight) :=
  foldr_filter_of_mem op unit weight m.sorted (mem_of_find h)

theorem total_insertOrAssign (m : OrderedMap κ α) (key : κ) (value : α) :
    (m.insertOrAssign key value).total op unit weight =
      op (weight key value) ((m.erase key).total op unit weight) := by
  have hfind : (m.insertOrAssign key value).find key = some value := by simp
  rw [total_of_find op unit weight hfind, erase_insertOrAssign]

end

/-! ## Maps that leave out the default -/

section
variable (default : α)

/-- The value of a key, where a missing one stands for the default. -/
def fetch (m : OrderedMap κ α) (key : κ) : α := (m.find key).getD default

/-- No entry has the default for its value. -/
def OmitsDefault (m : OrderedMap κ α) : Prop := ∀ key, m.find key ≠ some default

variable {default} {m : OrderedMap κ α}

section
variable (op : M → M → M) (unit : M) (weight : κ → α → M) [Std.Commutative op]
  [Std.Associative op] [Std.LawfulIdentity op unit]

/-- The share of a key comes out of the total, whether it has an entry or not. -/
theorem total_fetch {key : κ} (hdefault : weight key default = unit) : m.total op unit weight =
      op (weight key (m.fetch default key)) ((m.erase key).total op unit weight) := by
  have hleft : ∀ a, op unit a = a := Std.LawfulLeftIdentity.left_id
  unfold fetch
  cases h : m.find key with
  | none => rw [erase_of_find_none h, Option.getD_none, hdefault, hleft]
  | some value => exact total_of_find op unit weight h

end

variable [DecidableEq α]

def store (default : α) (m : OrderedMap κ α) (key : κ) (value : α) : OrderedMap κ α :=
  if value = default then m.erase key else m.insertOrAssign key value

theorem find_store (key : κ) (value : α) (key' : κ) : (store default m key value).find key' =
      if key' = key then (if value = default then none else some value) else m.find key' := by
  unfold store
  split <;> simp

@[simp]
theorem fetch_store (key : κ) (value : α) (key' : κ) :
    (store default m key value).fetch default key' =
      if key' = key then value else m.fetch default key' := by
  unfold fetch
  rw [find_store]
  by_cases hkey : key' = key
  · by_cases hvalue : value = default <;> simp [hkey, hvalue]
  · simp [hkey]

theorem OmitsDefault.omits_store (h : m.OmitsDefault default) (key : κ) (value : α) :
    (store default m key value).OmitsDefault default := by
  intro key'
  rw [find_store]
  split
  · split
    · exact (Option.some_ne_none _).symm
    · rename_i hvalue
      exact fun heq => hvalue (Option.some.inj heq)
  · exact h key'

theorem total_store (op : M → M → M) (unit : M) (weight : κ → α → M) [Std.Commutative op]
    [Std.Associative op] [Std.LawfulIdentity op unit] {key : κ} {value : α}
    (hdefault : weight key default = unit) : (store default m key value).total op unit weight =
      op (weight key value) ((m.erase key).total op unit weight) := by
  have hleft : ∀ a, op unit a = a := Std.LawfulLeftIdentity.left_id
  unfold store
  split
  · rename_i hvalue
    rw [hvalue, hdefault, hleft]
  · exact total_insertOrAssign op unit weight m key value

end

/-! ## Replaying the entries of a map -/

/-- What a key reads after the entries of a map have been written one after the
other: its own entry, or what was there. -/
theorem read_foldl_entries (read : β → κ → γ) (write : β → κ × α → β) (result : α → γ)
    (hwrite : ∀ state entry key,
      read (write state entry) key = if key = entry.1 then result entry.2 else read state key)
    (m : OrderedMap κ α) (state : β) (key : κ) : read (m.entries.foldl write state) key =
      ((m.find key).map result).getD (read state key) := by
  have hsorted := m.sorted
  unfold find
  generalize m.entries = entries at hsorted ⊢
  induction entries generalizing state with
  | nil => rfl
  | cons first rest ih =>
    obtain ⟨hfirst, hrest⟩ := List.pairwise_cons.mp hsorted
    rw [List.foldl_cons, ih _ hrest, hwrite]
    by_cases hkey : first.1 = key
    · -- no later entry has the key
      have habsent : rest.find? (fun entry => decide (entry.1 = key)) = none := by
        rw [List.find?_eq_none]
        intro entry hentry
        simpa [← hkey] using (hfirst entry hentry).ne'
      simp [habsent, hkey]
    · have hne : key ≠ first.1 := fun h => hkey h.symm
      simp [hkey, hne]

end KatanaRecomp.Lib.OrderedMap
