import Mathlib.Algebra.Order.BigOperators.Group.List
import Mathlib.Algebra.Order.Group.Nat
import Mathlib.Algebra.Ring.Nat

/-! # Exploring with a worklist

Places are taken from a worklist. The first visit of a place adds those it leads
to, and a place that is not accepted is dropped. Only the finitely many places
that lead anywhere can make the worklist longer, each of them once. -/
namespace KatanaRecomp.Lib
variable {α : Type} [DecidableEq α]

/-- The visited places, the last first, or nothing when the rounds run out. What
is new is put behind or before what is pending, as `join` says. -/
def explore (expand : List α → α → Option (List α)) (join : List α → List α → List α) :
    Nat → List α → List α → Option (List α)
  | 0, _, _ => none
  | _ + 1, [], visited => some visited
  | fuel + 1, place :: pending, visited =>
    if place ∈ visited then explore expand join fuel pending visited
    else
      match expand (place :: visited) place with
      | none => explore expand join fuel pending visited
      | some next => explore expand join fuel (join pending next) (place :: visited)

namespace Explore
variable {expand : List α → α → Option (List α)} {join : List α → List α → List α}
  {fuel : Nat} {pending visited result : List α}

/-- What the places that are not visited can still add. -/
def remaining (cost : α → Nat) (leading : List α) (visited : List α) : Nat :=
  ((leading.filter (· ∉ visited)).map cost).sum

theorem remaining_cons_le (cost : α → Nat) (leading visited : List α) (place : α) :
    remaining cost leading (place :: visited) ≤ remaining cost leading visited := by
  have hsub : (leading.filter (· ∉ place :: visited)).Sublist (leading.filter (· ∉ visited)) := by
    apply List.monotone_filter_right
    intro other hother
    simp only [List.mem_cons, not_or, decide_eq_true_eq] at hother ⊢
    exact hother.2
  exact (hsub.map cost).sum_le_sum fun amount _ => Nat.zero_le amount

/-- A place that is visited for the first time has spent its cost. -/
theorem remaining_cons_add {cost : α → Nat} {leading : List α} {place : α}
    (hcost : place ∉ leading → cost place = 0) (hnew : place ∉ visited) :
    remaining cost leading (place :: visited) + cost place ≤ remaining cost leading visited := by
  induction leading with
  | nil =>
    have hzero := hcost List.not_mem_nil
    simp [remaining, hzero]
  | cons first rest ih =>
    by_cases heq : first = place
    · have hle := remaining_cons_le cost rest visited place
      unfold remaining at hle ⊢
      rw [heq]
      simp only [List.filter_cons, List.mem_cons, true_or, not_true_eq_false, decide_false,
        Bool.false_eq_true, if_false, hnew, not_false_eq_true, decide_true, if_true,
        List.map_cons, List.sum_cons] at hle ⊢
      omega
    · have hrest : place ∉ rest → cost place = 0 := by
        intro hnot
        apply hcost
        intro hmem
        obtain hsame | hbehind := List.mem_cons.mp hmem
        · exact heq hsame.symm
        · exact hnot hbehind
      have hstep := ih hrest
      unfold remaining at hstep ⊢
      by_cases hfirst : first ∈ visited
      · simpa [List.filter_cons, hfirst] using hstep
      · simp only [List.filter_cons, List.mem_cons, heq, hfirst, or_self, not_false_eq_true,
          decide_true, if_true, List.map_cons, List.sum_cons] at hstep ⊢
        omega

/-- Enough rounds for the pending places and for all that can still be added. -/
theorem explore_ends (cost : α → Nat) (leading : List α)
    (hjoin : ∀ old new, (join old new).length = old.length + new.length)
    (hcost : ∀ place, place ∉ leading → cost place = 0)
    (hexpand : ∀ seen place next, expand seen place = some next → next.length ≤ cost place)
    (hfuel : pending.length + remaining cost leading visited < fuel) :
    ∃ result, explore expand join fuel pending visited = some result := by
  induction fuel generalizing pending visited with
  | zero => omega
  | succ fuel ih =>
    cases pending with
    | nil => exact ⟨visited, rfl⟩
    | cons place pending =>
      rw [List.length_cons] at hfuel
      unfold explore
      split
      · exact ih (by omega)
      · rename_i hnew
        cases hplace : expand (place :: visited) place with
        | none => exact ih (by omega)
        | some next =>
          have hlength := hexpand _ _ _ hplace
          have hspent := remaining_cons_add (hcost place) hnew
          refine ih ?_
          rw [hjoin]
          omega

/-- What holds of the pending places, and goes on to those they lead to, holds of
all that is visited. -/
theorem explore_sound {P Q : α → Prop}
    (hjoin : ∀ old new place, place ∈ join old new → place ∈ old ∨ place ∈ new)
    (hstep : ∀ seen place next, P place → expand seen place = some next →
      Q place ∧ ∀ other ∈ next, P other)
    (hpending : ∀ place ∈ pending, P place) (hvisited : ∀ place ∈ visited, Q place)
    (h : explore expand join fuel pending visited = some result) : ∀ place ∈ result, Q place := by
  induction fuel generalizing pending visited with
  | zero => simp [explore] at h
  | succ fuel ih =>
    cases pending with
    | nil =>
      have hsame : visited = result := Option.some.inj h
      rw [← hsame]
      exact hvisited
    | cons place pending =>
      obtain ⟨hplace, hrest⟩ := List.forall_mem_cons.mp hpending
      unfold explore at h
      split at h
      · exact ih hrest hvisited h
      · cases hexpand : expand (place :: visited) place with
        | none =>
          rw [hexpand] at h
          exact ih hrest hvisited h
        | some next =>
          rw [hexpand] at h
          obtain ⟨hhere, hnext⟩ := hstep _ _ _ hplace hexpand
          refine ih ?_ (List.forall_mem_cons.mpr ⟨hhere, hvisited⟩) h
          intro other hother
          obtain hold | hnew := hjoin _ _ _ hother
          · exact hrest other hold
          · exact hnext other hnew

/-- Nothing accepted is missed: what was visited or pending is visited, and so is
all that a newly visited place led to. -/
theorem explore_complete {A : α → Prop}
    (hjoin : ∀ old new place, place ∈ old ∨ place ∈ new → place ∈ join old new)
    (haccepts : ∀ seen place, A place → expand seen place ≠ none)
    (h : explore expand join fuel pending visited = some result) :
    (∀ place ∈ visited, place ∈ result) ∧ (∀ place ∈ pending, A place → place ∈ result) ∧
      ∀ place ∈ result, place ∈ visited ∨ ∃ seen next, expand seen place = some next ∧
        ∀ other ∈ next, A other → other ∈ result := by
  induction fuel generalizing pending visited with
  | zero => simp [explore] at h
  | succ fuel ih =>
    cases pending with
    | nil =>
      have hsame : visited = result := Option.some.inj h
      rw [← hsame]
      exact ⟨fun place hmem => hmem, fun place hmem => absurd hmem List.not_mem_nil,
        fun place hmem => Or.inl hmem⟩
    | cons place pending =>
      unfold explore at h
      split at h
      · rename_i hmem
        obtain ⟨hvisited, hpending, hclosed⟩ := ih h
        exact ⟨hvisited, List.forall_mem_cons.mpr ⟨fun _ => hvisited place hmem, hpending⟩, hclosed⟩
      · cases hexpand : expand (place :: visited) place with
        | none =>
          rw [hexpand] at h
          obtain ⟨hvisited, hpending, hclosed⟩ := ih h
          refine ⟨hvisited, List.forall_mem_cons.mpr ⟨fun haccept => ?_, hpending⟩, hclosed⟩
          exact absurd hexpand (haccepts _ _ haccept)
        | some next =>
          rw [hexpand] at h
          obtain ⟨hvisited, hpending, hclosed⟩ := ih h
          obtain ⟨hhere, hold⟩ := List.forall_mem_cons.mp hvisited
          refine ⟨hold, List.forall_mem_cons.mpr ⟨fun _ => hhere, fun other hother =>
            hpending other (hjoin _ _ _ (Or.inl hother))⟩, ?_⟩
          intro other hother
          obtain hmem | hled := hclosed other hother
          · obtain rfl | hbefore := List.mem_cons.mp hmem
            · exact Or.inr ⟨_, next, hexpand, fun after hafter =>
                hpending after (hjoin _ _ _ (Or.inr hafter))⟩
            · exact Or.inl hbefore
          · exact Or.inr hled

end Explore
end KatanaRecomp.Lib
