/-! # Chaotic iteration

A state is improved one place after the other, in place, and the round is
repeated while some place changed. Where every change raises a bounded measure
the rounds come to an end, in a state that no place changes any more. -/
namespace KatanaRecomp.Lib
variable {σ ι : Type}

/-- One round over the places: the state after it, and whether some place changed it. -/
def sweep (relax : ι → σ → σ × Bool) : List ι → σ → σ × Bool
  | [], state => (state, false)
  | place :: rest, state =>
    let step := relax place state
    let swept := sweep relax rest step.1
    (swept.1, step.2 || swept.2)

/-- Rounds until one changes nothing; nothing when the rounds run out first. -/
def relaxUntilStable (relax : ι → σ → σ × Bool) (places : List ι) : Nat → σ → Option σ
  | 0, _ => none
  | fuel + 1, state =>
    let swept := sweep relax places state
    if swept.2 then relaxUntilStable relax places fuel swept.1 else some swept.1

namespace ChaoticIteration

/-- More rounds than it takes change nothing. -/
theorem relaxUntilStable_mono {relax : ι → σ → σ × Bool} {places : List ι} {fuel more : Nat}
    {state stable : σ} (h : relaxUntilStable relax places fuel state = some stable)
    (hmore : fuel ≤ more) : relaxUntilStable relax places more state = some stable := by
  induction fuel generalizing more state with
  | zero => simp [relaxUntilStable] at h
  | succ fuel ih =>
    obtain ⟨rest, rfl⟩ : ∃ rest, more = rest + 1 := ⟨more - 1, by omega⟩
    unfold relaxUntilStable at h ⊢
    cases hflag : (sweep relax places state).2 with
    | false => simpa [hflag] using h
    | true =>
      simp only [hflag, if_true] at h ⊢
      exact ih h (by omega)

/-- Every step keeps the invariant; it leaves the state alone or raises the measure. -/
structure Improving (relax : ι → σ → σ × Bool) (invariant : σ → Prop) (measure : σ → Nat)
    (bound : Nat) : Prop where
  keeps : ∀ place state, invariant state → invariant (relax place state).1
  still : ∀ place state, invariant state → (relax place state).2 = false →
    (relax place state).1 = state
  rises : ∀ place state, invariant state → (relax place state).2 = true →
    measure state < measure (relax place state).1
  bounded : ∀ state, invariant state → measure state ≤ bound

variable {relax : ι → σ → σ × Bool} {invariant : σ → Prop} {measure : σ → Nat} {bound : Nat}

namespace Improving
variable (h : Improving relax invariant measure bound)
include h

theorem sweep_keeps (places : List ι) {state : σ}
    (hstate : invariant state) : invariant (sweep relax places state).1 := by
  induction places generalizing state with
  | nil => exact hstate
  | cons place rest ih => exact ih (h.keeps place state hstate)

/-- A round that reports no change met no place that changes the state. -/
theorem sweep_still {places : List ι} {state : σ}
    (hstate : invariant state) (hsame : (sweep relax places state).2 = false) :
    (sweep relax places state).1 = state ∧ ∀ place ∈ places, (relax place state).2 = false := by
  induction places with
  | nil => exact ⟨rfl, fun place hplace => absurd hplace List.not_mem_nil⟩
  | cons place rest ih =>
    simp only [sweep, Bool.or_eq_false_iff] at hsame ⊢
    obtain ⟨hfirst, hrest⟩ := hsame
    have hstill := h.still place state hstate hfirst
    rw [hstill] at hrest ⊢
    obtain ⟨hend, hall⟩ := ih hrest
    refine ⟨hend, fun other hother => ?_⟩
    obtain heq | hmem := List.mem_cons.mp hother
    · rw [heq]
      exact hfirst
    · exact hall other hmem

theorem measure_le (place : ι) {state : σ}
    (hstate : invariant state) : measure state ≤ measure (relax place state).1 := by
  cases hflag : (relax place state).2 with
  | false => exact Nat.le_of_eq (congrArg measure (h.still place state hstate hflag).symm)
  | true => exact Nat.le_of_lt (h.rises place state hstate hflag)

theorem measure_le_sweep (places : List ι) {state : σ} (hstate : invariant state) :
    measure state ≤ measure (sweep relax places state).1 := by
  induction places generalizing state with
  | nil => exact Nat.le_refl _
  | cons place rest ih =>
    exact Nat.le_trans (h.measure_le place hstate) (ih (h.keeps place state hstate))

/-- A round that reports a change raises the measure. -/
theorem sweep_rises {places : List ι} {state : σ}
    (hstate : invariant state) (hchanged : (sweep relax places state).2 = true) :
    measure state < measure (sweep relax places state).1 := by
  induction places generalizing state with
  | nil => simp [sweep] at hchanged
  | cons place rest ih =>
    simp only [sweep, Bool.or_eq_true_iff] at hchanged ⊢
    have hnext := h.keeps place state hstate
    obtain hfirst | hrest := hchanged
    · exact Nat.lt_of_lt_of_le (h.rises place state hstate hfirst) (h.measure_le_sweep rest hnext)
    · exact Nat.lt_of_le_of_lt (h.measure_le place hstate) (ih hnext hrest)

/-- The rounds end within the room the measure has left. -/
theorem relaxUntilStable_ends (places : List ι)
    {fuel : Nat} {state : σ} (hstate : invariant state) (hfuel : bound - measure state < fuel) :
    ∃ stable, relaxUntilStable relax places fuel state = some stable ∧ invariant stable ∧
      ∀ place ∈ places, (relax place stable).2 = false := by
  induction fuel generalizing state with
  | zero => omega
  | succ fuel ih =>
    unfold relaxUntilStable
    have hnext := h.sweep_keeps places hstate
    cases hflag : (sweep relax places state).2 with
    | false =>
      obtain ⟨hend, hall⟩ := h.sweep_still hstate hflag
      refine ⟨state, ?_, hstate, hall⟩
      simp [hend, hflag]
    | true =>
      have hrise := h.sweep_rises hstate hflag
      have hroom := h.bounded _ hnext
      have hleft : bound - measure (sweep relax places state).1 < fuel := by omega
      obtain ⟨stable, hrun, hkept, hall⟩ := ih hnext hleft
      refine ⟨stable, ?_, hkept, hall⟩
      simp [hflag, hrun]

omit h

end Improving
end ChaoticIteration
end KatanaRecomp.Lib
