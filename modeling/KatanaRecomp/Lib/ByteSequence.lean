import KatanaRecomp.Lib.ByteFormat

/-! # Sequences in byte formats

A given number of records, one after the other. -/
namespace KatanaRecomp.Lib.ByteFormat
variable {ε α : Type}

def sequence (read : Reader ε α) : Nat → Reader ε (List α)
  | 0 => pure []
  | count + 1 => do
    let first ← read
    let rest ← sequence read count
    pure (first :: rest)

theorem Parses.sequence {read : Reader ε α} {write : α → List Byte} {good : α → Prop}
    (h : Parses read write good) (count : Nat) :
    Parses (ByteFormat.sequence read count) (fun values => values.flatMap write)
      (fun values => values.length = count ∧ ∀ value ∈ values, good value) := by
  induction count with
  | zero =>
    intro bytes values rest
    constructor
    · intro hread
      cases hread
      exact ⟨rfl, rfl, by simp⟩
    · rintro ⟨hbytes, hlength, -⟩
      cases List.length_eq_zero_iff.mp hlength
      rw [hbytes]
      rfl
  | succ count ih =>
    intro bytes values rest
    unfold ByteFormat.sequence
    rw [bind_ok_iff]
    constructor
    · rintro ⟨first, middle, hfirst, hthen⟩
      obtain ⟨others, last, hothers, hlast⟩ := bind_ok_iff.mp hthen
      cases hlast
      obtain ⟨hbytes, hgood⟩ := (h _ _ _).mp hfirst
      obtain ⟨hmiddle, hlength, hall⟩ := (ih _ _ _).mp hothers
      refine ⟨by simp [hbytes, hmiddle], by simp [hlength], ?_⟩
      intro value hvalue
      rcases List.mem_cons.mp hvalue with rfl | hmem
      · exact hgood
      · exact hall value hmem
    · rintro ⟨hbytes, hlength, hall⟩
      cases values with
      | nil => cases hlength
      | cons first others =>
        refine ⟨first, others.flatMap write ++ rest, ?_, ?_⟩
        · exact (h _ _ _).mpr ⟨by simpa using hbytes, hall first List.mem_cons_self⟩
        · apply bind_ok_iff.mpr
          refine ⟨others, rest, (ih _ _ _).mpr ⟨rfl, ?_, ?_⟩, rfl⟩
          · simpa using hlength
          · intro value hvalue
            exact hall value (List.mem_cons_of_mem _ hvalue)

end KatanaRecomp.Lib.ByteFormat
