import Mathlib.Data.List.Basic
import Mathlib.Order.Nat

/-! # Greedy packing

A list is cut into consecutive groups: an element joins the group before it as
long as that group has room for it. The cut on one side of a place where a new
group must start does not depend on the other side. -/
namespace KatanaRecomp.Lib
variable {α β : Type} (fits : List α → α → Bool)

/-- One more element, with the newest group at the head. -/
def packStep (groups : List (List α)) (a : α) : List (List α) :=
  match groups with
  | [] => [[a]]
  | group :: rest => if fits group a then (group ++ [a]) :: rest else [a] :: group :: rest

def pack (list : List α) : List (List α) := (list.foldl (packStep fits) []).reverse

variable {fits}

theorem packStep_cons (group : List α) (rest : List (List α)) (a : α) :
    packStep fits (group :: rest) a =
      if fits group a then (group ++ [a]) :: rest else [a] :: group :: rest := rfl

theorem foldl_packStep_flatten (groups : List (List α)) (list : List α) :
    (list.foldl (packStep fits) groups).reverse.flatten = groups.reverse.flatten ++ list := by
  induction list generalizing groups with
  | nil => simp
  | cons a rest ih =>
    rw [List.foldl_cons, ih]
    cases groups with
    | nil => simp [packStep]
    | cons group others =>
      rw [packStep_cons]
      split
      · simp
      · simp

theorem pack_flatten (list : List α) : (pack fits list).flatten = list :=
  foldl_packStep_flatten [] list

/-- Groups that are complete stay as they are. -/
theorem foldl_packStep_append (open' closed : List (List α)) (hopen : open' ≠ [])
    (list : List α) : list.foldl (packStep fits) (open' ++ closed) =
      list.foldl (packStep fits) open' ++ closed := by
  induction list generalizing open' with
  | nil => rfl
  | cons a rest ih =>
    cases open' with
    | nil => exact absurd rfl hopen
    | cons group others =>
      rw [List.foldl_cons, List.foldl_cons, List.cons_append, packStep_cons, packStep_cons]
      split
      · exact ih ((group ++ [a]) :: others) (List.cons_ne_nil _ _)
      · exact ih ([a] :: group :: others) (List.cons_ne_nil _ _)

/-- What every group has that is started with one element and only grows by elements that fit. -/
theorem foldl_packStep_forall {good : List α → Prop} {groups : List (List α)} {list : List α}
    (hgroups : ∀ group ∈ groups, good group) (hstart : ∀ a ∈ list, good [a])
    (hgrow : ∀ group a, a ∈ list → good group → fits group a = true → good (group ++ [a])) :
    ∀ group ∈ list.foldl (packStep fits) groups, good group := by
  induction list generalizing groups with
  | nil => exact hgroups
  | cons a rest ih =>
    rw [List.foldl_cons]
    refine ih ?_ (fun b hb => hstart b (List.mem_cons_of_mem _ hb))
      fun group b hb => hgrow group b (List.mem_cons_of_mem _ hb)
    have ha := hstart a List.mem_cons_self
    cases groups with
    | nil =>
      intro group hgroup
      rw [List.mem_singleton.mp hgroup]
      exact ha
    | cons newest others =>
      obtain ⟨hnewest, hothers⟩ := List.forall_mem_cons.mp hgroups
      rw [packStep_cons]
      split
      · rename_i hfits
        exact List.forall_mem_cons.mpr ⟨hgrow newest a List.mem_cons_self hnewest hfits, hothers⟩
      · exact List.forall_mem_cons.mpr ⟨ha, hgroups⟩

theorem mem_of_mem_pack {list group : List α} (hgroup : group ∈ pack fits list) {a : α}
    (ha : a ∈ group) : a ∈ list := by
  have hflatten : (pack fits list).flatten = list := pack_flatten list
  rw [← hflatten]
  exact List.mem_flatten.mpr ⟨group, hgroup, ha⟩

theorem pack_forall {good : List α → Prop} {list : List α} (hstart : ∀ a ∈ list, good [a])
    (hgrow : ∀ group a, a ∈ list → good group → fits group a = true → good (group ++ [a])) :
    ∀ group ∈ pack fits list, good group := by
  intro group hgroup
  have hgroups : ∀ group ∈ ([] : List (List α)), good group := by simp
  exact foldl_packStep_forall hgroups hstart hgrow group (List.mem_reverse.mp hgroup)

/-- Where no group of the first part has room for the second, both are cut by themselves. -/
theorem pack_append {first second : List α}
    (hrefused : ∀ group ∈ pack fits first, ∀ a ∈ second, fits group a = false) :
    pack fits (first ++ second) = pack fits first ++ pack fits second := by
  unfold pack at hrefused ⊢
  rw [List.foldl_append]
  cases second with
  | nil => simp
  | cons a rest =>
    generalize hclosed : first.foldl (packStep fits) [] = closed at hrefused ⊢
    have hstep : packStep fits closed a = [[a]] ++ closed := by
      cases closed with
      | nil => rfl
      | cons group others =>
        have hgroup : fits group a = false := hrefused group (by simp) a List.mem_cons_self
        rw [packStep_cons, hgroup]
        rfl
    rw [List.foldl_cons, hstep, foldl_packStep_append [[a]] closed (List.cons_ne_nil _ _),
      List.reverse_append]
    rfl

/-- Packing looks at the elements through `fits` only. -/
theorem pack_map (f : α → β) {fits' : List β → β → Bool}
    (hfits : ∀ group a, fits group a = fits' (group.map f) (f a)) (list : List α) :
    (pack fits list).map (List.map f) = pack fits' (list.map f) := by
  have hfold : ∀ groups : List (List α), (list.foldl (packStep fits) groups).map (List.map f) =
        (list.map f).foldl (packStep fits') (groups.map (List.map f)) := by
    induction list with
    | nil => exact fun _ => rfl
    | cons a rest ih =>
      intro groups
      rw [List.foldl_cons, List.map_cons, List.foldl_cons, ih]
      congr 1
      cases groups with
      | nil => rfl
      | cons group others =>
        rw [List.map_cons, packStep_cons, packStep_cons, ← hfits]
        split
        · simp
        · simp
  unfold pack
  rw [List.map_reverse, hfold]
  rfl

/-! ## The part with one key -/

/-- The elements of one key stand together in a list that is ordered by the keys. -/
theorem split_at_key {key : α → Nat} {list : List α}
    (hsorted : list.Pairwise fun left right => key left ≤ key right) (k : Nat) :
    ∃ below above, list = below ++ list.filter (key · = k) ++ above ∧
      (∀ a ∈ below, key a < k) ∧ ∀ a ∈ above, k < key a := by
  induction list with
  | nil => exact ⟨[], [], rfl, by simp, by simp⟩
  | cons first rest ih =>
    obtain ⟨hfirst, hrest⟩ := List.pairwise_cons.mp hsorted
    obtain ⟨below, above, hsplit, hbelow, habove⟩ := ih hrest
    rcases Nat.lt_trichotomy (key first) k with hlt | heq | hgt
    · refine ⟨first :: below, above, ?_, List.forall_mem_cons.mpr ⟨hlt, hbelow⟩, habove⟩
      rw [List.filter_cons_of_neg (by simpa using hlt.ne), List.cons_append, List.cons_append,
        ← hsplit]
    · have hnone : below = [] := by
        refine List.eq_nil_iff_forall_not_mem.mpr fun a ha => ?_
        have hmem : a ∈ rest := by
          rw [hsplit]
          simp [ha]
        have hle := hfirst a hmem
        have hlt := hbelow a ha
        omega
      refine ⟨[], above, ?_, by simp, habove⟩
      rw [hnone, List.nil_append] at hsplit
      rw [List.filter_cons_of_pos (by simpa using heq), List.nil_append, List.cons_append, ← hsplit]
    · have hall : ∀ a ∈ first :: rest, k < key a :=
        List.forall_mem_cons.mpr ⟨hgt, fun a ha => lt_of_lt_of_le hgt (hfirst a ha)⟩
      refine ⟨[], first :: rest, ?_, by simp, hall⟩
      rw [List.filter_eq_nil_iff.mpr fun a ha => by simpa using (hall a ha).ne']
      rfl

/-- Where a group has no room for another key, the groups of one key are the packing of
the elements that have it. -/
theorem pack_filter {key : α → Nat} {list : List α}
    (hsorted : list.Pairwise fun left right => key left ≤ key right)
    (hkey : ∀ group a b, b ∈ group.getLast? → key b ≠ key a → fits group a = false) (k : Nat) :
    (pack fits list).filter (fun group => group.head?.map key = some k) =
      pack fits (list.filter (key · = k)) := by
  have hnonempty : ∀ list, ∀ group ∈ pack fits list, group ≠ [] := fun list =>
    pack_forall (fun _ _ => List.cons_ne_nil _ _) fun _ _ _ _ _ => by simp
  have hrefused : ∀ first second : List α, (∀ a ∈ first, ∀ b ∈ second, key a ≠ key b) →
      ∀ group ∈ pack fits first, ∀ a ∈ second, fits group a = false := by
    intro first second hne group hgroup a ha
    obtain ⟨b, hb⟩ : ∃ b, group.getLast? = some b :=
      ⟨_, List.getLast?_eq_some_getLast (hnonempty first group hgroup)⟩
    exact hkey group a b hb (hne b (mem_of_mem_pack hgroup (List.mem_of_getLast? hb)) a ha)
  have hdropped : ∀ other : List α, (∀ a ∈ other, key a ≠ k) →
      (pack fits other).filter (fun group => group.head?.map key = some k) = [] := by
    intro other hother
    refine List.filter_eq_nil_iff.mpr fun group hgroup => ?_
    cases hcases : group with
    | nil => exact absurd hcases (hnonempty other group hgroup)
    | cons a rest =>
      have ha := hother a (mem_of_mem_pack hgroup (by rw [hcases]; exact List.mem_cons_self))
      simpa using ha
  obtain ⟨below, above, hsplit, hbelow, habove⟩ := split_at_key hsorted k
  have hinside : ∀ a ∈ list.filter (key · = k), key a = k := by
    intro a ha
    simpa using (List.mem_filter.mp ha).2
  generalize list.filter (key · = k) = inside at hsplit hinside ⊢
  rw [hsplit, pack_append, pack_append, List.filter_append, List.filter_append,
    hdropped below fun a ha => (hbelow a ha).ne, hdropped above fun a ha => (habove a ha).ne',
    List.nil_append, List.append_nil]
  · refine List.filter_eq_self.mpr fun group hgroup => ?_
    cases hcases : group with
    | nil => exact absurd hcases (hnonempty inside group hgroup)
    | cons a rest =>
      have ha := hinside a (mem_of_mem_pack hgroup (by rw [hcases]; exact List.mem_cons_self))
      simpa using ha
  · refine hrefused below inside fun a ha b hb => ?_
    rw [hinside b hb]
    exact (hbelow a ha).ne
  · refine hrefused (below ++ inside) above fun a ha b hb => ?_
    have hb' := habove b hb
    rcases List.mem_append.mp ha with ha | ha
    · have ha' := hbelow a ha
      omega
    · have ha' := hinside a ha
      omega

end KatanaRecomp.Lib
