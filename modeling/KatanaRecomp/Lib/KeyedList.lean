import Mathlib.Algebra.BigOperators.Finprod
import Mathlib.Data.Set.Card

/-! # Lists with a key

A list whose elements carry keys that do not repeat is a finite map. What the
list operations do to the map only depends on the list up to order, so an update
is always the new element followed by the elements under the other keys. -/
namespace KatanaRecomp.Lib.KeyedList
variable {α κ : Type} [BEq κ] (key : α → κ)

/-- The element under a key. -/
def lookup (list : List α) (k : κ) : Option α := list.find? fun a => key a == k

/-- The elements under the other keys. -/
def others (list : List α) (k : κ) : List α := list.filter fun a => key a != k

variable {key} {list list' : List α} {k : κ} {a : α}

theorem mem_of_lookup (h : lookup key list k = some a) : a ∈ list := List.mem_of_find?_eq_some h

theorem others_nodup (hkeys : (list.map key).Nodup) : ((others key list k).map key).Nodup :=
  hkeys.sublist (List.filter_sublist.map key)

variable [LawfulBEq κ]

theorem key_of_lookup (h : lookup key list k = some a) : key a = k := by
  simpa using List.find?_some h

theorem lookup_eq_none_iff : lookup key list k = none ↔ ∀ a ∈ list, key a ≠ k := by
  simp [lookup]

theorem lookup_cons [DecidableEq κ] :
    lookup key (a :: list) k = if key a = k then some a else lookup key list k := by
  by_cases hkey : key a = k
  · rw [if_pos hkey]
    exact List.find?_cons_of_pos (by simpa using hkey)
  · rw [if_neg hkey]
    exact List.find?_cons_of_neg (by simpa using hkey)

/-! ## Keys that do not repeat -/

theorem lookup_eq_some_iff (hkeys : (list.map key).Nodup) :
    lookup key list k = some a ↔ a ∈ list ∧ key a = k := by
  constructor
  · intro h
    exact ⟨mem_of_lookup h, key_of_lookup h⟩
  · rintro ⟨hmem, rfl⟩
    cases hfound : lookup key list (key a) with
    | none => exact absurd rfl (lookup_eq_none_iff.mp hfound a hmem)
    | some b => exact congrArg some (List.inj_on_of_nodup_map hkeys (mem_of_lookup hfound) hmem
        (key_of_lookup hfound))

theorem lookup_of_mem (hkeys : (list.map key).Nodup) (hmem : a ∈ list) :
    lookup key list (key a) = some a := (lookup_eq_some_iff hkeys).mpr ⟨hmem, rfl⟩

theorem lookup_perm (hperm : list.Perm list') (hkeys : (list.map key).Nodup) :
    lookup key list = lookup key list' := by
  have hkeys' : (list'.map key).Nodup := (hperm.map key).nodup_iff.mp hkeys
  funext k
  apply Option.ext
  intro a
  rw [lookup_eq_some_iff hkeys, lookup_eq_some_iff hkeys', hperm.mem_iff]

theorem eraseP_eq_others (hkeys : (list.map key).Nodup) (k : κ) :
    (list.eraseP fun a => key a == k) = others key list k := by
  induction list with
  | nil => rfl
  | cons first rest ih =>
    obtain ⟨hfresh, hrest⟩ := List.nodup_cons.mp hkeys
    by_cases hkey : key first = k
    · have hall : ∀ a ∈ rest, (key a != k) = true := by
        intro a ha
        rw [bne_iff_ne, ← hkey]
        intro heq
        exact hfresh (heq ▸ List.mem_map_of_mem ha)
      simp [others, hkey, List.filter_eq_self.mpr hall]
    · simp [others, hkey, ih hrest]

/-! ## Updates -/

theorem others_of_lookup_none (h : lookup key list k = none) : others key list k = list := by
  apply List.filter_eq_self.mpr
  intro a ha
  simpa using lookup_eq_none_iff.mp h a ha

theorem lookup_others [DecidableEq κ] :
    lookup key (others key list k) = Function.update (lookup key list) k none := by
  funext k'
  by_cases hk : k' = k
  · rw [hk, Function.update_self]
    apply lookup_eq_none_iff.mpr
    intro a ha
    simpa using (List.mem_filter.mp ha).2
  · rw [Function.update_of_ne hk]
    unfold lookup others
    rw [List.find?_filter]
    congr 1
    funext a
    by_cases hkey : key a = k'
    · simp [hkey, hk]
    · simp [hkey]

theorem lookup_cons_others [DecidableEq κ] : lookup key (a :: others key list (key a)) =
      Function.update (lookup key list) (key a) (some a) := by
  funext k
  rw [lookup_cons, lookup_others]
  by_cases hk : key a = k
  · rw [if_pos hk, ← hk, Function.update_self]
  · rw [if_neg hk, Function.update_of_ne (Ne.symm hk), Function.update_of_ne (Ne.symm hk)]

theorem cons_others_nodup (hkeys : (list.map key).Nodup) :
    ((a :: others key list (key a)).map key).Nodup := by
  rw [List.map_cons, List.nodup_cons]
  refine ⟨?_, others_nodup hkeys⟩
  intro hmem
  obtain ⟨b, hb, hkey⟩ := List.mem_map.mp hmem
  have hne : key b ≠ key a := by simpa using (List.mem_filter.mp hb).2
  exact hne hkey

/-! ## Size -/

theorem mem_keys_iff : k ∈ list.map key ↔ (lookup key list k).isSome := by
  rw [← not_iff_not, Bool.not_eq_true, Option.isSome_eq_false_iff, Option.isNone_iff_eq_none,
    lookup_eq_none_iff]
  simp

end KatanaRecomp.Lib.KeyedList
