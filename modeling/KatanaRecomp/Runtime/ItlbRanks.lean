import KatanaRecomp.Runtime.MmuSnapshot

/-! # The ranks of the ITLB

A hit and a refill each keep the ranks of the ITLB with arithmetic of their own. Both
compute the places of the valid entries in the order of their use, the entry used
longest ago first. So the ranks of a running guest are the permutation that
`validate_state_restore` asks for, and every snapshot is accepted by an address space
whose generations can still move. -/
namespace KatanaRecomp.Runtime
open Lib (use)
open Lib.Recency

namespace RuntimeAddressSpace

/-! ## The order of use -/

/-- What a running guest does: `LDTLB` names one of 64 slots, nothing is restored. -/
def Operation.Issued : Operation → Prop
  | .ldtlb mapping => mapping.slot < 64
  | .restore _ => False
  | _ => True

/-- The valid entries in the order of their use, after the operation. -/
def nextOrder (s : RuntimeAddressSpace) (order : List (Fin 4)) (operation : Operation) :
    List (Fin 4) :=
  let kept := order.filter (s.apply operation).itlbValid
  match s.usedEntry operation with
  | some index => use kept index
  | none => kept

/-- The order in which a run used the entries of the ITLB since they were filled. -/
def orderOfUse : RuntimeAddressSpace → List (Fin 4) → List Operation → List (Fin 4)
  | _, order, [] => order
  | s, order, operation :: rest =>
    orderOfUse (s.apply operation) (s.nextOrder order operation) rest

/-- The ranks are the places in the order of use. -/
structure Ranked (s : RuntimeAddressSpace) (order : List (Fin 4)) : Prop where
  nodup : order.Nodup
  valid : ∀ index, index ∈ order ↔ s.itlbValid index = true
  ranks : ∀ index ∈ order, (s.itlbLru index).toNat = order.idxOf index

variable {s : RuntimeAddressSpace} {order : List (Fin 4)}

theorem valid_perm (hnodup : order.Nodup)
    (hvalid : ∀ index, index ∈ order ↔ s.itlbValid index = true) :
    ((List.finRange 4).filter s.itlbValid).Perm order := by
  refine (List.perm_ext_iff_of_nodup ((List.nodup_finRange 4).filter _) hnodup).mpr ?_
  intro index
  rw [List.mem_filter, hvalid index]
  exact and_iff_right (List.mem_finRange index)

theorem itlbValidCount_toNat
    (hnodup : order.Nodup) (hvalid : ∀ index, index ∈ order ↔ s.itlbValid index = true) :
    s.itlbValidCount.toNat = order.length ∧ order.length ≤ 4 := by
  have hperm := valid_perm hnodup hvalid
  have hle : order.length ≤ 4 := by simpa using hnodup.length_le_card
  refine ⟨?_, hle⟩
  unfold itlbValidCount
  rw [hperm.length_eq, BitVec.toNat_ofNat, Nat.mod_eq_of_lt (by omega)]

namespace Ranked
variable {s t : RuntimeAddressSpace} {order : List (Fin 4)} {index : Fin 4}

theorem initial : Ranked {} [] :=
  ⟨List.nodup_nil, fun _ => by simp, fun _ h => absurd h List.not_mem_nil⟩

variable (hs : Ranked s order)
include hs

theorem count : s.itlbValidCount.toNat = order.length :=
  (itlbValidCount_toNat hs.nodup hs.valid).1

theorem transfer (hvalid : t.itlbValid = s.itlbValid)
    (hranks : t.itlbLru = s.itlbLru) : Ranked t order :=
  ⟨hs.nodup, hvalid ▸ hs.valid, hranks ▸ hs.ranks⟩

/-- One entry is used and the others move up behind it. -/
theorem used (hvalid : ∀ other, t.itlbValid other = true ↔ other = index ∨ s.itlbValid other = true)
    (hself : (t.itlbLru index).toNat = (use order index).length - 1)
    (hothers : ∀ other ∈ order, other ≠ index → (t.itlbLru other).toNat =
        if order.idxOf index < order.idxOf other then order.idxOf other - 1
        else order.idxOf other) : Ranked t (use order index) := by
  refine ⟨nodup_use hs.nodup, ?_, ?_⟩
  · intro other
    rw [mem_use, hvalid other, hs.valid other]
  · intro other hother
    by_cases heq : other = index
    · rw [heq, hself, idxOf_use_self hs.nodup]
    · have hmem : other ∈ order := (mem_use.mp hother).resolve_left heq
      rw [hothers other hmem heq, idxOf_use_of_ne hs.nodup hmem heq]

theorem lowerRanks (hmem : index ∈ order) {other : Fin 4}
    (hother : other ∈ order) (hne : other ≠ index) :
    (s.lowerRanks index (s.itlbLru index) other).toNat =
      if order.idxOf index < order.idxOf other then order.idxOf other - 1
      else order.idxOf other := by
  have hrank := hs.ranks other hother
  have hbehind : s.itlbLru other > s.itlbLru index ↔ order.idxOf index < order.idxOf other := by
    rw [gt_iff_lt, BitVec.lt_def, hs.ranks index hmem, hrank]
  unfold RuntimeAddressSpace.lowerRanks
  by_cases hlt : order.idxOf index < order.idxOf other
  · rw [if_pos ⟨hne, (hs.valid other).mp hother, hbehind.mpr hlt⟩, if_pos hlt]
    have hsmall := (s.itlbLru other).isLt
    rw [BitVec.toNat_sub, hrank]
    change (2 ^ 8 - 1 + order.idxOf other) % 2 ^ 8 = _
    omega
  · rw [if_neg (fun h => hlt (hbehind.mp h.2.2)), if_neg hlt, hrank]

/-- The last place, as the count of the valid entries gives it. -/
theorem last_toNat (ht : ∀ other, other ∈ use order index ↔ t.itlbValid other = true) :
    t.itlbValidCount ≠ 0 ∧ (t.itlbValidCount - 1).toNat = (use order index).length - 1 := by
  obtain ⟨hcount, hle⟩ := itlbValidCount_toNat (nodup_use hs.nodup) ht
  have hpos : 0 < (use order index).length := List.length_pos_of_mem (mem_use.mpr (Or.inl rfl))
  refine ⟨fun hzero => ?_, ?_⟩
  · rw [hzero] at hcount
    change 0 = _ at hcount
    omega
  · rw [BitVec.toNat_sub, hcount]
    change (2 ^ 8 - 1 + (use order index).length) % 2 ^ 8 = _
    omega

theorem touchItlb (hindex : s.itlbValid index = true) :
    Ranked (s.touchItlb index) (use order index) := by
  have hmem : index ∈ order := (hs.valid index).mpr hindex
  have hsame : ∀ other, other ∈ use order index ↔ s.itlbValid other = true := by
    intro other
    rw [mem_use, hs.valid other]
    exact or_iff_right_of_imp fun heq => heq ▸ hindex
  obtain ⟨hnonzero, hlast⟩ := hs.last_toNat hsame
  refine hs.used (fun other => ?_) ?_ (fun other hother hne => ?_)
  · exact (or_iff_right_of_imp fun heq => heq ▸ hindex).symm
  · change (Function.update (s.lowerRanks index (s.itlbLru index)) index
      (if s.itlbValidCount = 0 then 0 else s.itlbValidCount - 1) index).toNat = _
    rw [Function.update_self, if_neg hnonzero, hlast]
  · change (Function.update (s.lowerRanks index (s.itlbLru index)) index _ other).toNat = _
    rw [Function.update_of_ne hne, hs.lowerRanks hmem hother hne]

theorem refillItlb (entry : TlbMapping) :
    Ranked (s.refillItlb entry) (use order s.replacement) := by
  have hvalid : ∀ other, (s.refillItlb entry).itlbValid other = true ↔
      other = s.replacement ∨ s.itlbValid other = true := by
    intro other
    change Function.update s.itlbValid s.replacement true other = true ↔ _
    by_cases heq : other = s.replacement
    · simp [heq]
    · simp [heq]
  have hsame : ∀ other, other ∈ use order s.replacement ↔
      (s.refillItlb entry).itlbValid other = true := by
    intro other
    rw [mem_use, hvalid other, hs.valid other]
  obtain ⟨-, hlast⟩ := hs.last_toNat hsame
  refine hs.used hvalid ?_ (fun other hother hne => ?_)
  · have hself : (s.refillItlb entry).itlbLru s.replacement =
        (s.refillItlb entry).itlbValidCount - 1 := Function.update_self ..
    rw [hself, hlast]
  · unfold RuntimeAddressSpace.refillItlb
    dsimp only
    rw [Function.update_of_ne hne]
    by_cases hreplaced : s.itlbValid s.replacement = true
    · rw [if_pos hreplaced]
      have hnext : Function.update s.itlbValid s.replacement true = s.itlbValid := by
        rw [← hreplaced, Function.update_eq_self]
      have hlower := hs.lowerRanks ((hs.valid s.replacement).mpr hreplaced) hother hne
      unfold RuntimeAddressSpace.lowerRanks at hlower ⊢
      rw [hnext]
      exact hlower
    · have hnew : s.replacement ∉ order := mt (hs.valid s.replacement).mp hreplaced
      have hbefore := List.idxOf_lt_length_of_mem hother
      rw [if_neg hreplaced, List.idxOf_of_notMem hnew, if_neg (by omega)]
      exact hs.ranks other hother

/-! ## One operation and a run -/

theorem filter_valid (hkept : ∀ index, s.itlbValid index = true → t.itlbValid index = true) :
    order.filter t.itlbValid = order :=
  List.filter_eq_self.mpr fun index hindex => hkept index ((hs.valid index).mp hindex)

omit hs

variable {operation : Operation}

/-- An operation that leaves the ITLB alone. -/
theorem kept (hs : Ranked s order)
    (hused : s.usedEntry operation = none) (hvalid : (s.apply operation).itlbValid = s.itlbValid)
    (hranks : (s.apply operation).itlbLru = s.itlbLru) :
    Ranked (s.apply operation) (s.nextOrder order operation) := by
  unfold nextOrder
  rw [hused]
  dsimp only
  rw [hs.filter_valid (t := s.apply operation) fun index hindex => by rwa [hvalid]]
  exact hs.transfer hvalid hranks

/-- An operation that empties the ITLB. -/
theorem cleared (hused : s.usedEntry operation = none)
    (hvalid : (s.apply operation).itlbValid = fun _ => false) :
    Ranked (s.apply operation) (s.nextOrder order operation) := by
  unfold nextOrder
  rw [hused]
  dsimp only
  rw [hvalid, List.filter_false]
  exact ⟨List.nodup_nil, fun index => by simp [hvalid], fun _ h => absurd h List.not_mem_nil⟩

theorem translate (hs : Ranked s order) (address : BitVec 32) (access : TranslationAccess)
    (privileged : Bool) : Ranked (s.apply (.translate address access privileged))
      (s.nextOrder order (.translate address access privileged)) := by
  rcases s.translate_state address access privileged with
    ⟨hused, hstate⟩ | ⟨index, hused, hhit, hstate⟩ | ⟨found, hused, -, hstate⟩
  · have happly : s.apply (.translate address access privileged) = s := hstate
    exact hs.kept hused (by rw [happly]) (by rw [happly])
  · have happly : s.apply (.translate address access privileged) = s.touchItlb index := hstate
    unfold nextOrder
    rw [hused, happly]
    dsimp only
    rw [hs.filter_valid (t := s.touchItlb index) fun _ hindex => hindex]
    exact hs.touchItlb (itlbHit_valid hhit)
  · have happly : s.apply (.translate address access privileged) = s.refillItlb found := hstate
    have hrefill := hs.refillItlb found
    unfold nextOrder
    rw [hused, happly]
    dsimp only
    rw [hs.filter_valid (t := s.refillItlb found) fun other hother =>
      (hrefill.valid other).mp (mem_use.mpr (Or.inr ((hs.valid other).mpr hother)))]
    exact hrefill

theorem apply (hs : Ranked s order) (hissued : operation.Issued) :
    Ranked (s.apply operation) (s.nextOrder order operation) := by
  cases operation with
  | setMode mode =>
    have hsame : (s.setMode mode).itlbValid = s.itlbValid ∧
        (s.setMode mode).itlbLru = s.itlbLru := by
      unfold setMode
      split <;> exact ⟨rfl, rfl⟩
    exact hs.kept rfl hsame.1 hsame.2
  | writeMmucr value =>
    have hcases : (s.writeMmucr value).itlbValid = (fun _ => false) ∨
        (s.writeMmucr value).itlbValid = s.itlbValid ∧
          (s.writeMmucr value).itlbLru = s.itlbLru := by
      unfold writeMmucr
      dsimp only
      split_ifs
      all_goals first
        | exact Or.inr ⟨rfl, rfl⟩
        | exact Or.inl rfl
    rcases hcases with hempty | ⟨hvalid, hranks⟩
    · exact cleared rfl hempty
    · exact hs.kept rfl hvalid hranks
  | writePteh value =>
    have hsame : (s.writePteh value).itlbValid = s.itlbValid ∧
        (s.writePteh value).itlbLru = s.itlbLru := by
      unfold writePteh
      dsimp only
      split <;> exact ⟨rfl, rfl⟩
    exact hs.kept rfl hsame.1 hsame.2
  | ldtlb mapping =>
    have hcases : s.apply (.ldtlb mapping) = s ∨
        (s.apply (.ldtlb mapping)).itlbValid = fun _ => false := by
      change (s.ldtlb mapping).toOption.getD s = s ∨
        ((s.ldtlb mapping).toOption.getD s).itlbValid = _
      unfold ldtlb
      split
      · exact Or.inl rfl
      · exact Or.inr rfl
    rcases hcases with hrefused | hempty
    · exact hs.kept rfl (by rw [hrefused]) (by rw [hrefused])
    · exact cleared rfl hempty
  | clearTlb => exact cleared rfl rfl
  | clearItlb => exact cleared rfl rfl
  | bumpAddressSpace => exact hs.kept rfl rfl rfl
  | bumpWatchpoints => exact hs.kept rfl rfl rfl
  | translate address access privileged => exact hs.translate address access privileged
  | restore state => exact absurd hissued id

theorem run (hs : Ranked s order) {operations : List Operation}
    (hissued : ∀ operation ∈ operations, operation.Issued) :
    Ranked (s.run operations) (orderOfUse s order operations) := by
  induction operations generalizing s order with
  | nil => exact hs
  | cons operation rest ih =>
    rw [List.forall_mem_cons] at hissued
    exact ih (hs.apply hissued.1) hissued.2

end Ranked

/-! ## The slots of a running guest -/

/-- Every slot of the UTLB is one of the 64. -/
def SlotsIssued (s : RuntimeAddressSpace) : Prop := ∀ mapping ∈ s.mappings, mapping.slot < 64

theorem SlotsIssued.apply (hs : s.SlotsIssued) {operation : Operation}
    (hissued : operation.Issued) : (s.apply operation).SlotsIssued := by
  have hkept : (s.apply operation).mappings = s.mappings → (s.apply operation).SlotsIssued := by
    intro heq mapping hmem
    exact hs mapping (heq ▸ hmem)
  cases operation with
  | setMode mode =>
    refine hkept ?_
    change (s.setMode mode).mappings = s.mappings
    unfold setMode
    split <;> rfl
  | writeMmucr value =>
    refine hkept ?_
    change (s.writeMmucr value).mappings = s.mappings
    unfold writeMmucr
    dsimp only
    split_ifs <;> rfl
  | writePteh value =>
    refine hkept ?_
    change (s.writePteh value).mappings = s.mappings
    unfold writePteh
    dsimp only
    split <;> rfl
  | ldtlb mapping =>
    intro entry hentry
    change entry ∈ ((s.ldtlb mapping).toOption.getD s).mappings at hentry
    unfold ldtlb at hentry
    split at hentry
    · exact hs entry hentry
    · rcases mem_replaceSlot hentry with rfl | hold
      · exact hissued
      · exact hs entry hold
  | clearTlb => exact fun _ h => absurd h List.not_mem_nil
  | clearItlb => exact hkept rfl
  | bumpAddressSpace => exact hkept rfl
  | bumpWatchpoints => exact hkept rfl
  | translate address access privileged =>
    refine hkept ?_
    change (s.translate address access privileged).2.mappings = s.mappings
    rcases s.translate_state address access privileged with
      ⟨-, hstate⟩ | ⟨_, -, -, hstate⟩ | ⟨_, -, -, hstate⟩
    · rw [hstate]
    · rw [hstate]
      rfl
    · rw [hstate]
      rfl
  | restore state => exact absurd hissued id

theorem SlotsIssued.run (hs : s.SlotsIssued)
    {operations : List Operation} (hissued : ∀ operation ∈ operations, operation.Issued) :
    (s.run operations).SlotsIssued := by
  induction operations generalizing s with
  | nil => exact hs
  | cons operation rest ih =>
    rw [List.forall_mem_cons] at hissued
    exact ih (hs.apply hissued.1) hissued.2

/-- No slot twice and 64 of them: no more than 64 entries. -/
theorem Cached.length_le (hs : Cached s) (hslots : s.SlotsIssued) : s.mappings.length ≤ 64 := by
  have hnodup : (s.mappings.map fun mapping => mapping.slot.toNat).Nodup := by
    rw [List.Nodup, List.pairwise_map]
    exact hs.slots.imp fun hne heq => hne (BitVec.eq_of_toNat_eq heq)
  have hsub : (s.mappings.map fun mapping => mapping.slot.toNat) ⊆ List.range 64 := by
    intro slot hslot
    obtain ⟨mapping, hmem, rfl⟩ := List.mem_map.mp hslot
    rw [List.mem_range]
    exact hslots mapping hmem
  have hle := (List.subperm_of_subset hnodup hsub).length_le
  simpa using hle

section
variable (hs : Ranked s order)
include hs

theorem Ranked.ranks_perm :
    (((List.finRange 4).filter s.itlbValid).map fun index => (s.itlbLru index).toNat).Perm
      (List.range s.itlbValidCount.toNat) := by
  have hperm := valid_perm hs.nodup hs.valid
  have hranks : order.map (fun index => (s.itlbLru index).toNat) = order.map (order.idxOf ·) :=
    List.map_congr_left hs.ranks
  rw [hs.count, ← map_idxOf hs.nodup, ← hranks]
  exact hperm.map _

/-- The entry used last has the highest rank. -/
theorem Ranked.last_iff (index : Fin 4) : order.getLast? = some index ↔
      s.itlbValid index = true ∧ (s.itlbLru index).toNat + 1 = s.itlbValidCount.toNat := by
  rw [hs.count]
  constructor
  · intro hlast
    have hmem : index ∈ order := List.mem_of_getLast? hlast
    rw [hs.ranks index hmem]
    exact ⟨(hs.valid index).mp hmem, idxOf_eq_last hs.nodup hlast⟩
  · rintro ⟨hindex, hrank⟩
    have hmem := (hs.valid index).mpr hindex
    rw [hs.ranks index hmem] at hrank
    have hne : order ≠ [] := List.ne_nil_of_mem hmem
    have hlast := idxOf_eq_last hs.nodup (List.getLast?_eq_some_getLast hne)
    have hsame : order.idxOf index = order.idxOf (order.getLast hne) := by omega
    rw [List.getLast?_eq_some_getLast hne, (List.idxOf_inj hmem).mp hsame]

/-! ## The snapshot is accepted -/

theorem Ranked.rank_lt
    {index : Fin 4} (hindex : s.itlbValid index = true) : s.itlbLru index < s.itlbValidCount := by
  have hmem := (hs.valid index).mpr hindex
  rw [BitVec.lt_def, hs.ranks index hmem, hs.count]
  exact List.idxOf_lt_length_of_mem hmem

theorem Ranked.rank_injective
    {a b : Fin 4} (ha : s.itlbValid a = true) (hb : s.itlbValid b = true)
    (heq : s.itlbLru a = s.itlbLru b) : a = b := by
  have hmem := (hs.valid a).mpr ha
  have hplace := congrArg BitVec.toNat heq
  rw [hs.ranks a hmem, hs.ranks b ((hs.valid b).mpr hb)] at hplace
  exact (List.idxOf_inj hmem).mp hplace

end

/-- What runs keep is what the check asks for. -/
theorem validateStateRestore_ok {s other : RuntimeAddressSpace}
    (hcached : Cached s) (hranked : Ranked s order) (hslots : s.SlotsIssued)
    (hadvance : other.CanAdvance) : other.validateStateRestore s = .ok () := by
  have hvalid : ∀ mapping ∈ s.mappings, validMapping mapping = true := fun mapping hmem =>
    (validMapping_iff mapping).mpr ⟨hcached.pages mapping hmem, hslots mapping hmem⟩
  refine validateStateRestore_ok_iff.mpr ⟨hcached.length_le hslots, hadvance, ?_, ?_⟩
  · exact utlbRestorable_iff.mpr
      ⟨fun mapping hmem => ⟨hvalid mapping hmem, List.not_mem_nil⟩, hcached.slots⟩
  · refine validateItlb_ok_iff.mpr ⟨fun index _ => hcached.free index, ?_, ?_⟩
    · intro index _ hindex
      have hsource := hcached.sources index hindex
      have hslot : (s.itlb index).slot = s.itlbSourceSlots index := by
        simpa using List.find?_some hsource
      refine ⟨⟨?_, hsource, ?_, hranked.rank_lt hindex⟩, List.not_mem_nil⟩
      · rw [← hslot]
        exact hslots _ (hcached.copied hindex)
      · exact hvalid _ (hcached.copied hindex)
    · refine (List.nodup_finRange 4).imp fun hne ha hb heq => ?_
      exact hne (hranked.rank_injective ha hb heq)

/-! ## The restored address space translates alike -/

/-- A sequence of translations, each behind the one before it. -/
def translations : RuntimeAddressSpace → List (BitVec 32 × TranslationAccess × Bool) →
    List (Except TranslationError TranslationResult)
  | _, [] => []
  | s, (address, access, privileged) :: rest =>
    (s.translate address access privileged).1 ::
      (s.translate address access privileged).2.translations rest

/-- The result but for the generation of the address space that gave it. -/
def withoutGeneration (result : Except TranslationError TranslationResult) :
    Except TranslationError TranslationResult :=
  result.map fun translated => { translated with mmuGeneration := 0 }

/-- Another address space with the same registers, UTLB and ITLB. -/
def withGenerations (s : RuntimeAddressSpace) (addressSpace mmu watchpoint : BitVec 64) :
    RuntimeAddressSpace :=
  { s with
    addressSpaceGeneration := addressSpace
    mmuGeneration := mmu
    watchpointGeneration := watchpoint }

theorem finishTranslation_withGenerations (s : RuntimeAddressSpace)
    (addressSpace mmu watchpoint : BitVec 64) (address : BitVec 32) (access : TranslationAccess)
    (privileged : Bool) (mapping : TlbMapping) (utlbSlot itlbSlot : BitVec 8)
    (itlbRefilled : Bool) :
    withoutGeneration ((s.withGenerations addressSpace mmu watchpoint).finishTranslation address
        access privileged mapping utlbSlot itlbSlot itlbRefilled) =
      withoutGeneration (s.finishTranslation address access privileged mapping utlbSlot itlbSlot
        itlbRefilled) := by
  unfold finishTranslation
  split_ifs <;> rfl

theorem translateMapped_withGenerations (s : RuntimeAddressSpace)
    (addressSpace mmu watchpoint : BitVec 64) (address : BitVec 32) (access : TranslationAccess)
    (privileged update : Bool) :
    let translated := s.translateMapped address access privileged update
    let translated' := (s.withGenerations addressSpace mmu watchpoint).translateMapped address
      access privileged update
    withoutGeneration translated'.1 = withoutGeneration translated.1 ∧
      translated'.2 = translated.2.withGenerations addressSpace mmu watchpoint := by
  have hhit : (s.withGenerations addressSpace mmu watchpoint).itlbHit address privileged =
      s.itlbHit address privileged := rfl
  have hlookup : (s.withGenerations addressSpace mmu watchpoint).utlbLookup address access
      privileged = s.utlbLookup address access privileged := rfl
  unfold translateMapped
  dsimp only
  rw [hhit, hlookup]
  split
  · exact ⟨finishTranslation_withGenerations .., rfl⟩
  · split
    · exact ⟨rfl, rfl⟩
    · split
      · exact ⟨finishTranslation_withGenerations .., rfl⟩
      · exact ⟨finishTranslation_withGenerations .., rfl⟩

theorem translate_withGenerations (s : RuntimeAddressSpace)
    (addressSpace mmu watchpoint : BitVec 64) (address : BitVec 32) (access : TranslationAccess)
    (privileged : Bool) :
    let translated := s.translate address access privileged
    let translated' := (s.withGenerations addressSpace mmu watchpoint).translate address access
      privileged
    withoutGeneration translated'.1 = withoutGeneration translated.1 ∧
      translated'.2 = translated.2.withGenerations addressSpace mmu watchpoint := by
  have hmapped := s.translateMapped_withGenerations addressSpace mmu watchpoint address access
    privileged true
  have hpath : (s.withGenerations addressSpace mmu watchpoint).instructionTranslationPath address
      privileged = s.instructionTranslationPath address privileged := rfl
  have hmode : (s.withGenerations addressSpace mmu watchpoint).mode = s.mode := rfl
  unfold translate translateImpl
  dsimp only
  rw [hpath, hmode]
  split
  · split
    · exact ⟨rfl, rfl⟩
    · cases s.instructionTranslationPath address privileged with
      | direct => exact ⟨rfl, rfl⟩
      | mapped => exact hmapped
      | invalid => exact ⟨rfl, rfl⟩
  · split_ifs
    all_goals first
      | exact ⟨rfl, rfl⟩
      | exact hmapped

theorem translations_withGenerations (addressSpace mmu watchpoint : BitVec 64)
    (requests : List (BitVec 32 × TranslationAccess × Bool)) (s : RuntimeAddressSpace) :
    ((s.withGenerations addressSpace mmu watchpoint).translations requests).map
        withoutGeneration = (s.translations requests).map withoutGeneration := by
  induction requests generalizing s with
  | nil => rfl
  | cons request rest ih =>
    obtain ⟨address, access, privileged⟩ := request
    obtain ⟨hresult, hstate⟩ :=
      s.translate_withGenerations addressSpace mmu watchpoint address access privileged
    unfold translations
    rw [List.map_cons, List.map_cons, hresult, hstate, ih]

/-- A snapshot of a running guest has what its check asks for, any address space whose
generations can move accepts it, and translates from then on as the guest did. -/
theorem snapshot_closed {operations : List Operation}
    (hissued : ∀ operation ∈ operations, operation.Issued) :
    let s := run {} operations
    (s.mappings.Pairwise fun a b => a.slot ≠ b.slot) ∧ (∀ index, s.itlbValid index = true →
        s.mappings.find? (fun value => value.slot == s.itlbSourceSlots index) =
          some (s.itlb index)) ∧
      (((List.finRange 4).filter s.itlbValid).map fun index => (s.itlbLru index).toNat).Perm
        (List.range s.itlbValidCount.toNat) ∧
      (∀ index, (orderOfUse {} [] operations).getLast? = some index ↔
        s.itlbValid index = true ∧ (s.itlbLru index).toNat + 1 = s.itlbValidCount.toNat) ∧
      ∀ other : RuntimeAddressSpace, other.CanAdvance → other.validateStateRestore s = .ok () ∧
          ∃ restored, other.restoreStatePassive s = .ok restored ∧
            ∀ requests, (restored.translations requests).map withoutGeneration =
              (s.translations requests).map withoutGeneration := by
  intro s
  have hcached : Cached s := cached_run operations
  have hranked : Ranked s (orderOfUse {} [] operations) := Ranked.initial.run hissued
  have hslots : s.SlotsIssued :=
    SlotsIssued.run (s := {}) (fun _ h => absurd h List.not_mem_nil) hissued
  refine ⟨hcached.slots, hcached.sources, hranked.ranks_perm, fun index => hranked.last_iff index,
    fun other hadvance => ?_⟩
  have hvalid := validateStateRestore_ok hcached hranked hslots hadvance
  rcases restoreStatePassive_cases other s with ⟨-, hrestored⟩ | ⟨fault, hrefused⟩
  · exact ⟨hvalid, _, hrestored, fun requests => translations_withGenerations _ _ _ requests s⟩
  · unfold restoreStatePassive at hrefused
    rw [hvalid] at hrefused
    cases hrefused

/-- The page of `onePage` lies in the ITLB when the snapshot is taken. -/
theorem snapshot_closed_onePage :
    RuntimeAddressSpace.validateStateRestore {} (run {} onePage) = .ok () ∧
      (run {} onePage).itlbValid 0 = true := by
  have hissued : ∀ operation ∈ onePage, operation.Issued := by
    unfold onePage
    simp [Operation.Issued]
  have hadvance : CanAdvance {} := ⟨by decide, by decide⟩
  obtain ⟨-, -, -, -, hrestore⟩ := snapshot_closed hissued
  exact ⟨(hrestore {} hadvance).1, rfl⟩

theorem mmuGeneration_clearTlb (count : Nat) (s : RuntimeAddressSpace) :
    (s.run (List.replicate count .clearTlb)).mmuGeneration =
      s.mmuGeneration + BitVec.ofNat 64 count := by
  induction count generalizing s with
  | zero => simp [run]
  | succ count ih =>
    rw [List.replicate_succ]
    change ((s.apply .clearTlb).run (List.replicate count .clearTlb)).mmuGeneration = _
    rw [ih]
    change s.mmuGeneration + 1 + BitVec.ofNat 64 count = _
    rw [BitVec.add_assoc, ← BitVec.ofNat_add_ofNat, BitVec.add_comm 1]
    rfl

/-- An address space that has cleared its UTLB 2^64 - 1 times refuses every snapshot, and one
that takes over a snapshot answers with its own generation. -/
theorem snapshot_not_closed :
    (¬ ∀ operations others : List Operation, (∀ operation ∈ operations, operation.Issued) →
        (∀ operation ∈ others, operation.Issued) →
          (run {} others).validateStateRestore (run {} operations) = .ok ()) ∧
      ¬ ∀ operations others : List Operation, (∀ operation ∈ operations, operation.Issued) →
        (∀ operation ∈ others, operation.Issued) → ∀ restored,
          (run {} others).restoreStatePassive (run {} operations) = .ok restored →
            ∀ requests, restored.translations requests =
              (run {} operations).translations requests := by
  have hnone : ∀ operation ∈ ([] : List Operation), operation.Issued := fun _ h =>
    absurd h List.not_mem_nil
  constructor
  · intro haccepted
    have hissued : ∀ operation ∈ List.replicate (2 ^ 64 - 1) Operation.clearTlb,
        operation.Issued := by
      intro operation hmem
      rw [List.eq_of_mem_replicate hmem]
      trivial
    have hvalid := haccepted [] _ hnone hissued
    obtain ⟨-, hadvance, -⟩ := validateStateRestore_ok_iff.mp hvalid
    refine hadvance.mmu ?_
    rw [mmuGeneration_clearTlb]
    decide
  · intro hsame
    have hresult := hsame [] [] hnone hnone _ rfl [(0, .read, true)]
    revert hresult
    decide

end RuntimeAddressSpace
end KatanaRecomp.Runtime
