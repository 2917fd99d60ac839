import Mathlib.Data.List.Rotate

/-! # The most recent entries of a log

A vector of bounded length with a cursor to its oldest entry: while there is room
an entry goes to the end, afterwards it replaces the oldest one. Read from the
cursor on, the vector is the end of everything that was ever entered. -/
namespace KatanaRecomp.Lib

/-- The vector holds the last `capacity` entries of the log. -/
structure RecentRing {α : Type} (capacity : Nat) (log vector : List α) (oldest : Nat) : Prop where
  inside : oldest < capacity
  unturned : vector.length < capacity → oldest = 0
  recent : vector.rotate oldest = log.drop (log.length - capacity)

namespace RecentRing
variable {α : Type} {capacity oldest : Nat} {log vector : List α}

theorem init (hcapacity : 0 < capacity) : RecentRing capacity ([] : List α) [] 0 :=
  ⟨hcapacity, fun _ => rfl, by simp⟩

variable (h : RecentRing capacity log vector oldest)
include h

theorem length_eq : vector.length = min log.length capacity := by
  have hlength := congrArg List.length h.recent
  rw [List.length_rotate, List.length_drop] at hlength
  omega

theorem length_le : vector.length ≤ capacity := by
  rw [h.length_eq]
  exact min_le_right _ _

/-- Reading turns the vector. -/
theorem read : RecentRing capacity log (vector.rotate oldest) 0 :=
  ⟨lt_of_le_of_lt (Nat.zero_le _) h.inside, fun _ => rfl, by rw [List.rotate_zero, h.recent]⟩

theorem push (hroom : vector.length ≠ capacity)
    (entry : α) : RecentRing capacity (log ++ [entry]) (vector ++ [entry]) oldest := by
  have hlength := h.length_eq
  have hle := h.length_le
  have hzero : oldest = 0 := h.unturned (by omega)
  have hall : vector = log := by
    have hrecent := h.recent
    rwa [hzero, List.rotate_zero, Nat.sub_eq_zero_of_le (by omega), List.drop_zero] at hrecent
  subst hzero hall
  refine ⟨h.inside, fun _ => rfl, ?_⟩
  rw [List.rotate_zero, List.length_append, List.length_singleton,
    Nat.sub_eq_zero_of_le (by omega), List.drop_zero]

theorem replace (hfull : vector.length = capacity) (entry : α) :
    RecentRing capacity (log ++ [entry]) (vector.set oldest entry) ((oldest + 1) % capacity) := by
  have hinside := h.inside
  have hlength := h.length_eq
  have hset : (vector.set oldest entry).length = capacity := by rw [List.length_set, hfull]
  refine ⟨Nat.mod_lt _ (by omega), fun hlt => absurd hset hlt.ne, ?_⟩
  have hnew : vector.set oldest entry =
      vector.take oldest ++ entry :: vector.drop (oldest + 1) := by
    rw [List.set_eq_take_append_cons_drop, if_pos (by omega)]
  have hturned : (vector.set oldest entry).rotate (oldest + 1) =
      vector.drop (oldest + 1) ++ (vector.take oldest ++ [entry]) := by
    rw [List.rotate_eq_drop_append_take (by omega), hnew]
    have htake : (vector.take oldest).length = oldest := List.length_take_of_le (by omega)
    rw [List.drop_append, List.take_append, htake, List.drop_eq_nil_of_le (by omega),
      List.take_of_length_le (by omega)]
    simp
  have hold : vector.rotate oldest = vector.drop oldest ++ vector.take oldest :=
    List.rotate_eq_drop_append_take (by omega)
  rw [← hset, List.rotate_mod, hturned, ← List.append_assoc]
  have hrecent := congrArg (List.drop 1) h.recent
  rw [hold, List.drop_append_of_le_length (by rw [List.length_drop]; omega), List.drop_drop,
    List.drop_drop] at hrecent
  rw [hrecent, List.length_append, List.length_singleton, List.drop_append_of_le_length (by omega),
    hset]
  congr 2
  omega

omit h

end RecentRing
end KatanaRecomp.Lib
