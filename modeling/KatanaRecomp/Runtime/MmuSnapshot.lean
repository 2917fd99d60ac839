import KatanaRecomp.Lib.Recency
import KatanaRecomp.Runtime.ItlbTransparency
import KatanaRecomp.Runtime.PhysicalAddress

/-! # What a snapshot of the address space holds

`validate_state_restore` asks for things that no operation checks: the UTLB has
every slot once, a valid entry of the ITLB is the UTLB entry of its source slot,
the ranks of the valid entries are a permutation. All of it holds in every state
that a run reaches, so a snapshot can be restored, and the address space that takes
it over translates as the one that gave it. -/
namespace KatanaRecomp.Runtime
open Lib (use)
namespace RuntimeAddressSpace

/-! ## Stored pages -/

/-- The page as `ldtlb` stores it. -/
structure StoredPage (mapping : TlbMapping) : Prop where
  size : validPageSize mapping.pageSize = true
  virtualAligned : mapping.virtualPage % mapping.pageSize = 0
  physicalAligned : mapping.physicalPage % mapping.pageSize = 0
  folded : canonicalPhysicalAddress mapping.physicalPage = mapping.physicalPage

theorem validMapping_iff (mapping : TlbMapping) :
    validMapping mapping = true ↔ StoredPage mapping ∧ mapping.slot < 64 := by
  simp only [validMapping, Bool.and_eq_true, beq_iff_eq, decide_eq_true_eq]
  constructor
  · rintro ⟨⟨⟨⟨hsize, hslot⟩, hvirtual⟩, hphysical⟩, hfolded⟩
    exact ⟨⟨hsize, hvirtual, hphysical, hfolded⟩, hslot⟩
  · rintro ⟨⟨hsize, hvirtual, hphysical, hfolded⟩, hslot⟩
    exact ⟨⟨⟨⟨hsize, hslot⟩, hvirtual⟩, hphysical⟩, hfolded⟩

/-- A page is a power of two from 1 KiB on to 1 MiB. -/
theorem validPageSize_pow {pageSize : BitVec 32} (h : validPageSize pageSize = true) :
    ∃ places, 10 ≤ places ∧ places ≤ 20 ∧ pageSize.toNat = 2 ^ places := by
  simp only [validPageSize, Bool.or_eq_true, beq_iff_eq] at h
  rcases h with ((rfl | rfl) | rfl) | rfl
  · exact ⟨10, by decide⟩
  · exact ⟨12, by decide⟩
  · exact ⟨16, by decide⟩
  · exact ⟨20, by decide⟩

theorem page_aligned (address pageSize : BitVec 32) : address / pageSize * pageSize % pageSize = 0 := by
  have hbelow : address.toNat / pageSize.toNat * pageSize.toNat < 2 ^ 32 :=
    lt_of_le_of_lt (Nat.div_mul_le_self address.toNat pageSize.toNat) address.isLt
  rw [← BitVec.toNat_inj, BitVec.toNat_umod, BitVec.toNat_mul, BitVec.toNat_udiv,
    Nat.mod_eq_of_lt hbelow, Nat.mul_mod_left]
  rfl

variable {mapping : TlbMapping}

theorem storedPage_alignedMapping
    (hsize : validPageSize mapping.pageSize = true) : StoredPage (alignedMapping mapping) := by
  obtain ⟨places, -, hplaces, hpow⟩ := validPageSize_pow hsize
  exact ⟨hsize, page_aligned .., page_aligned ..,
    canonicalPhysicalAddress_page _ _ ⟨places, by omega, hpow⟩⟩

/-! ## The UTLB and the copies in the ITLB -/

/-- Every slot once, every page stored by `ldtlb`, and the copies those of their slots. -/
structure Cached (s : RuntimeAddressSpace) : Prop where
  slots : s.mappings.Pairwise fun a b => a.slot ≠ b.slot
  pages : ∀ mapping ∈ s.mappings, StoredPage mapping
  sources : ∀ index, s.itlbValid index = true →
    s.mappings.find? (fun value => value.slot == s.itlbSourceSlots index) = some (s.itlb index)
  free : ∀ index, s.itlbValid index = false → s.itlbSourceSlots index = 0xFF

namespace Cached
variable {s t : RuntimeAddressSpace}

theorem initial : Cached {} :=
  ⟨List.Pairwise.nil, fun _ h => absurd h List.not_mem_nil, fun _ h => (by cases h), fun _ _ => rfl⟩

theorem transfer (hs : Cached s) (hmappings : t.mappings = s.mappings) (hitlb : t.itlb = s.itlb)
    (hvalid : t.itlbValid = s.itlbValid) (hsources : t.itlbSourceSlots = s.itlbSourceSlots) :
    Cached t := by
  refine ⟨hmappings ▸ hs.slots, hmappings ▸ hs.pages, ?_, ?_⟩
  · rw [hmappings, hitlb, hvalid, hsources]
    exact hs.sources
  · rw [hvalid, hsources]
    exact hs.free

/-- An ITLB without entries has no copies to keep. -/
theorem of_clear (hslots : t.mappings.Pairwise fun a b => a.slot ≠ b.slot)
    (hpages : ∀ mapping ∈ t.mappings, StoredPage mapping)
    (hvalid : t.itlbValid = fun _ => false) (hsources : t.itlbSourceSlots = fun _ => 0xFF) :
    Cached t := by
  refine ⟨hslots, hpages, ?_, ?_⟩
  · intro index hindex
    rw [hvalid] at hindex
    cases hindex
  · intro index _
    rw [hsources]

theorem copied (hs : Cached s) {index : Fin 4} (hindex : s.itlbValid index = true) :
    s.itlb index ∈ s.mappings := List.mem_of_find?_eq_some (hs.sources index hindex)

end Cached

variable {entry : TlbMapping}

/-- Where no slot comes twice, the search by slot finds the entry. -/
theorem find?_slot :
    ∀ {mappings : List TlbMapping}, mappings.Pairwise (fun a b => a.slot ≠ b.slot) →
      entry ∈ mappings → mappings.find? (fun value => value.slot == entry.slot) = some entry
  | [], _, hmem => absurd hmem List.not_mem_nil
  | value :: rest, hslots, hmem => by
    rw [List.pairwise_cons] at hslots
    rcases List.mem_cons.mp hmem with rfl | hrest
    · exact List.find?_cons_of_pos (by simp)
    · rw [List.find?_cons_of_neg (by simpa using hslots.1 entry hrest)]
      exact find?_slot hslots.2 hrest

theorem mem_replaceSlot : ∀ {mappings : List TlbMapping}, entry ∈ replaceSlot mapping mappings →
      entry = mapping ∨ entry ∈ mappings
  | [], hmem => Or.inl (List.mem_singleton.mp hmem)
  | value :: rest, hmem => by
    unfold replaceSlot at hmem
    split at hmem
    · exact (List.mem_cons.mp hmem).imp_right (List.mem_cons_of_mem value)
    · rcases List.mem_cons.mp hmem with rfl | hrest
      · exact Or.inr List.mem_cons_self
      · exact (mem_replaceSlot hrest).imp_right (List.mem_cons_of_mem value)

/-! ## What a translation does to the ITLB -/

/-- The entry of the ITLB that an operation uses: the one that answers, else the one that is
filled. -/
def usedEntry (s : RuntimeAddressSpace) : Operation → Option (Fin 4)
  | .translate address .instruction privileged =>
    if address &&& 1 = 0 ∧ s.instructionTranslationPath address privileged = .mapped then
      (s.itlbHit address privileged).or
        (if (s.utlbLookup address .instruction privileged).isOk then some s.replacement else none)
    else none
  | _ => none

/-- A translation leaves the state, touches the entry that answers, or fills an entry. -/
theorem translate_state (s : RuntimeAddressSpace) (address : BitVec 32)
    (access : TranslationAccess) (privileged : Bool) :
    s.usedEntry (.translate address access privileged) = none ∧
        (s.translate address access privileged).2 = s ∨
      (∃ index, s.usedEntry (.translate address access privileged) = some index ∧
        s.itlbHit address privileged = some index ∧
        (s.translate address access privileged).2 = s.touchItlb index) ∨
      ∃ found, s.usedEntry (.translate address access privileged) = some s.replacement ∧
        s.OnlyHit address privileged found ∧
        (s.translate address access privileged).2 = s.refillItlb found := by
  have hdata : access ≠ .instruction →
      (s.translateMapped address access privileged true).2 = s := by
    intro hne
    unfold RuntimeAddressSpace.translateMapped
    simp only [hne, false_and, if_false]
    cases s.utlbLookup address access privileged <;> rfl
  unfold RuntimeAddressSpace.translate RuntimeAddressSpace.translateImpl
  dsimp only
  split
  · rename_i haccess
    subst haccess
    have hused : s.usedEntry (.translate address .instruction privileged) =
        if address &&& 1 = 0 ∧ s.instructionTranslationPath address privileged = .mapped then
          (s.itlbHit address privileged).or
            (if (s.utlbLookup address .instruction privileged).isOk then some s.replacement
            else none)
        else none := rfl
    rw [hused]
    by_cases heven : address &&& 1 = 0
    swap
    · rw [if_neg (fun h => heven h.1), if_pos heven]
      exact Or.inl ⟨rfl, rfl⟩
    · rw [if_neg (not_not.mpr heven)]
      cases hpath : s.instructionTranslationPath address privileged with
      | direct => exact Or.inl ⟨by simp, rfl⟩
      | invalid => exact Or.inl ⟨by simp, rfl⟩
      | mapped =>
        simp only [heven, and_self, if_true]
        unfold RuntimeAddressSpace.translateMapped
        simp only [and_self, if_true]
        cases hhit : s.itlbHit address privileged with
        | some index => exact Or.inr (Or.inl ⟨index, rfl, rfl, rfl⟩)
        | none =>
          cases hlookup : s.utlbLookup address .instruction privileged with
          | error fault => exact Or.inl ⟨rfl, rfl⟩
          | ok found => exact Or.inr (Or.inr ⟨found, rfl, utlbLookup_ok hlookup, rfl⟩)
  · rename_i haccess
    have hunused : s.usedEntry (.translate address access privileged) = none := by
      cases access with
      | instruction => exact absurd rfl haccess
      | read => rfl
      | write => rfl
    refine Or.inl ⟨hunused, ?_⟩
    split_ifs
    all_goals first
      | rfl
      | exact hdata haccess

variable {s : RuntimeAddressSpace}

theorem itlbHit_valid {address : BitVec 32} {privileged : Bool}
    {index : Fin 4} (h : s.itlbHit address privileged = some index) : s.itlbValid index = true := by
  have hfound := List.find?_some h
  rw [Bool.and_eq_true] at hfound
  exact hfound.1

namespace Cached
variable {s : RuntimeAddressSpace}

section
variable (hs : Cached s)
include hs

theorem refillItlb (hmem : entry ∈ s.mappings) : Cached (s.refillItlb entry) := by
  refine ⟨hs.slots, hs.pages, ?_, ?_⟩
  · intro index hindex
    change s.mappings.find? (fun value =>
      value.slot == Function.update s.itlbSourceSlots s.replacement entry.slot index) =
        some (Function.update s.itlb s.replacement entry index)
    change Function.update s.itlbValid s.replacement true index = true at hindex
    by_cases heq : index = s.replacement
    · rw [heq, Function.update_self, Function.update_self]
      exact find?_slot hs.slots hmem
    · rw [Function.update_of_ne heq] at hindex
      rw [Function.update_of_ne heq, Function.update_of_ne heq]
      exact hs.sources index hindex
  · intro index hindex
    change Function.update s.itlbSourceSlots s.replacement entry.slot index = 0xFF
    change Function.update s.itlbValid s.replacement true index = false at hindex
    by_cases heq : index = s.replacement
    · rw [heq, Function.update_self] at hindex
      cases hindex
    · rw [Function.update_of_ne heq] at hindex ⊢
      exact hs.free index hindex

theorem writeMmucr (value : BitVec 32) : Cached (s.writeMmucr value) := by
  unfold RuntimeAddressSpace.writeMmucr
  split
  · dsimp only
    split_ifs
    all_goals first
      | exact of_clear hs.slots hs.pages rfl rfl
      | exact hs.transfer rfl rfl rfl rfl
  · exact hs

theorem ldtlb {next : RuntimeAddressSpace} (h : s.ldtlb mapping = .ok next) : Cached next := by
  unfold RuntimeAddressSpace.ldtlb at h
  split at h
  · cases h
  · rename_i hsize
    rw [Bool.not_eq_false] at hsize
    cases h
    refine of_clear (replaceSlot_slots hs.slots).1 ?_ rfl rfl
    intro entry hentry
    rcases mem_replaceSlot hentry with rfl | hold
    · exact storedPage_alignedMapping hsize
    · exact hs.pages entry hold

theorem translate (address : BitVec 32) (access : TranslationAccess)
    (privileged : Bool) : Cached (s.translate address access privileged).2 := by
  rcases s.translate_state address access privileged with
    ⟨-, hstate⟩ | ⟨index, -, -, hstate⟩ | ⟨found, -, honly, hstate⟩
  · rwa [hstate]
  · rw [hstate]
    exact hs.transfer rfl rfl rfl rfl
  · rw [hstate]
    exact hs.refillItlb honly.1

end
end Cached

/-! ## The check of a snapshot -/

theorem utlbRestorable_iff : ∀ {mappings : List TlbMapping} {seen : List (BitVec 8)},
      utlbRestorable seen mappings = true ↔
        (∀ mapping ∈ mappings, validMapping mapping = true ∧ mapping.slot ∉ seen) ∧
          mappings.Pairwise fun a b => a.slot ≠ b.slot
  | [], _ => by simp [utlbRestorable]
  | mapping :: rest, seen => by
    have htail := @utlbRestorable_iff rest (mapping.slot :: seen)
    unfold utlbRestorable
    rw [List.pairwise_cons, List.forall_mem_cons]
    split
    · rename_i hbad
      simp only [Bool.false_eq_true, false_iff]
      rintro ⟨⟨⟨hvalid, hseen⟩, -⟩, -⟩
      rcases hbad with hbad | hbad
      · rw [hvalid] at hbad
        cases hbad
      · exact hseen hbad
    · rename_i hgood
      rw [not_or, Bool.not_eq_false] at hgood
      rw [htail]
      simp only [List.mem_cons, not_or]
      constructor
      · rintro ⟨hrest, hslots⟩
        exact ⟨⟨hgood, fun other hother => ⟨(hrest other hother).1, (hrest other hother).2.2⟩⟩,
          fun other hother => Ne.symm (hrest other hother).2.1, hslots⟩
      · rintro ⟨⟨-, hrest⟩, hhead, hslots⟩
        exact ⟨fun other hother => ⟨(hrest other hother).1, (hhead other hother).symm,
          (hrest other hother).2⟩, hslots⟩

/-- What is asked of a valid entry, but for its rank being its own. -/
structure RestorableEntry (s : RuntimeAddressSpace) (index : Fin 4) : Prop where
  source : s.itlbSourceSlots index < 64
  copied : s.mappings.find? (fun value => value.slot == s.itlbSourceSlots index) =
    some (s.itlb index)
  mapping : validMapping (s.itlb index) = true
  rank : s.itlbLru index < s.itlbValidCount

theorem itlbEntryRestorable_iff {seenRanks : List (BitVec 8)}
    {index : Fin 4} : s.itlbEntryRestorable seenRanks index = true ↔
      s.RestorableEntry index ∧ s.itlbLru index ∉ seenRanks := by
  simp only [itlbEntryRestorable, Bool.and_eq_true, decide_eq_true_eq, beq_iff_eq]
  constructor
  · rintro ⟨⟨⟨⟨hsource, hcopied⟩, hmapping⟩, hrank⟩, hseen⟩
    exact ⟨⟨hsource, hcopied, hmapping, hrank⟩, hseen⟩
  · rintro ⟨⟨hsource, hcopied, hmapping, hrank⟩, hseen⟩
    exact ⟨⟨⟨⟨hsource, hcopied⟩, hmapping⟩, hrank⟩, hseen⟩

theorem validateItlb_ok_iff :
    ∀ {indices : List (Fin 4)} {seenRanks : List (BitVec 8)},
      s.validateItlb seenRanks indices = .ok () ↔
        (∀ index ∈ indices, s.itlbValid index = false → s.itlbSourceSlots index = 0xFF) ∧
          (∀ index ∈ indices, s.itlbValid index = true →
            s.RestorableEntry index ∧ s.itlbLru index ∉ seenRanks) ∧
          indices.Pairwise fun a b => s.itlbValid a = true → s.itlbValid b = true →
            s.itlbLru a ≠ s.itlbLru b
  | [], _ => by simp [validateItlb]
  | head :: rest, seenRanks => by
    unfold validateItlb
    rw [List.pairwise_cons, List.forall_mem_cons, List.forall_mem_cons]
    split
    · rename_i hfree
      split
      · rename_i hsource
        simp only [reduceCtorEq, false_iff]
        rintro ⟨⟨hhead, -⟩, -⟩
        exact hsource (hhead hfree)
      · rename_i hsource
        rw [validateItlb_ok_iff]
        simp [hfree, not_not.mp hsource]
    · rename_i hused
      rw [Bool.not_eq_false] at hused
      split
      · rename_i hbad
        simp only [reduceCtorEq, false_iff]
        rintro ⟨-, ⟨hhead, -⟩, -⟩
        rw [itlbEntryRestorable_iff.mpr (hhead hused)] at hbad
        cases hbad
      · rename_i hgood
        rw [Bool.not_eq_false, itlbEntryRestorable_iff] at hgood
        rw [validateItlb_ok_iff]
        simp only [hused, List.mem_cons, not_or, forall_true_left, Bool.true_eq_false,
          false_implies, true_and]
        constructor
        · rintro ⟨hfree, hrest, hranks⟩
          exact ⟨hfree, ⟨hgood, fun other hother hvalid =>
            ⟨(hrest other hother hvalid).1, (hrest other hother hvalid).2.2⟩⟩,
            fun other hother hvalid => Ne.symm (hrest other hother hvalid).2.1, hranks⟩
        · rintro ⟨hfree, ⟨-, hrest⟩, hhead, hranks⟩
          exact ⟨hfree, fun other hother hvalid => ⟨(hrest other hother hvalid).1,
            (hhead other hother hvalid).symm, (hrest other hother hvalid).2⟩, hranks⟩

/-- The counters of the address space that takes over a snapshot can still move. -/
structure CanAdvance (s : RuntimeAddressSpace) : Prop where
  addressSpace : s.addressSpaceGeneration ≠ BitVec.allOnes 64
  mmu : s.mmuGeneration ≠ BitVec.allOnes 64

theorem validateStateRestore_ok_iff {s state : RuntimeAddressSpace} :
    s.validateStateRestore state = .ok () ↔
      state.mappings.length ≤ 64 ∧ s.CanAdvance ∧ utlbRestorable [] state.mappings = true ∧
        state.validateItlb [] (List.finRange 4) = .ok () := by
  unfold validateStateRestore
  split
  · rename_i hrefused
    simp only [reduceCtorEq, false_iff]
    rintro ⟨hlength, ⟨haddress, hmmu⟩, -⟩
    rcases hrefused with hlong | hdone | hdone
    · omega
    · exact haddress hdone
    · exact hmmu hdone
  · rename_i hallowed
    rw [not_or, not_or, not_lt] at hallowed
    obtain ⟨hlength, haddress, hmmu⟩ := hallowed
    split
    · rename_i hbad
      simp [hbad]
    · rename_i hgood
      rw [Bool.not_eq_false] at hgood
      exact ⟨fun h => ⟨hlength, ⟨haddress, hmmu⟩, hgood, h⟩, fun h => h.2.2.2⟩

theorem restoreStatePassive_cases (s state : RuntimeAddressSpace) :
    s.validateStateRestore state = .ok () ∧
        s.restoreStatePassive state = .ok (s.commitValidatedStateRestore state) ∨
      ∃ fault, s.restoreStatePassive state = .error fault := by
  unfold restoreStatePassive
  cases s.validateStateRestore state with
  | error fault => exact Or.inr ⟨fault, rfl⟩
  | ok _ => exact Or.inl ⟨rfl, rfl⟩

namespace Cached
variable {s : RuntimeAddressSpace}

/-- A snapshot that is accepted has what every state has. -/
theorem of_restorable {state : RuntimeAddressSpace} (h : s.validateStateRestore state = .ok ()) :
    Cached state := by
  obtain ⟨-, -, hutlb, hitlb⟩ := validateStateRestore_ok_iff.mp h
  obtain ⟨hmappings, hslots⟩ := utlbRestorable_iff.mp hutlb
  obtain ⟨hfree, hentries, -⟩ := validateItlb_ok_iff.mp hitlb
  refine ⟨hslots, ?_, ?_, ?_⟩
  · intro mapping hmem
    exact ((validMapping_iff mapping).mp (hmappings mapping hmem).1).1
  · intro index hindex
    exact (hentries index (List.mem_finRange index) hindex).1.copied
  · intro index hindex
    exact hfree index (List.mem_finRange index) hindex

theorem apply (hs : Cached s) (operation : Operation) : Cached (s.apply operation) := by
  cases operation with
  | setMode mode =>
    change Cached (s.setMode mode)
    unfold setMode
    split
    · exact hs.transfer rfl rfl rfl rfl
    · exact hs
  | writeMmucr value => exact hs.writeMmucr value
  | writePteh value =>
    change Cached (s.writePteh value)
    unfold writePteh
    dsimp only
    split
    · exact hs.transfer rfl rfl rfl rfl
    · exact hs
  | ldtlb mapping =>
    change Cached ((s.ldtlb mapping).toOption.getD s)
    cases hnext : s.ldtlb mapping with
    | error fault => exact hs
    | ok next => exact hs.ldtlb hnext
  | clearTlb => exact of_clear List.Pairwise.nil (fun _ h => absurd h List.not_mem_nil) rfl rfl
  | clearItlb => exact of_clear hs.slots hs.pages rfl rfl
  | bumpAddressSpace => exact hs.transfer rfl rfl rfl rfl
  | bumpWatchpoints => exact hs.transfer rfl rfl rfl rfl
  | translate address access privileged => exact hs.translate address access privileged
  | restore state =>
    change Cached ((s.restoreStatePassive state).toOption.getD s)
    rcases restoreStatePassive_cases s state with ⟨hvalid, hnext⟩ | ⟨fault, hnext⟩
    · rw [hnext]
      exact (of_restorable hvalid).transfer rfl rfl rfl rfl
    · rw [hnext]
      exact hs

theorem run (hs : Cached s) (operations : List Operation) : Cached (s.run operations) := by
  induction operations generalizing s with
  | nil => exact hs
  | cons operation rest ih => exact ih (hs.apply operation)

end Cached

theorem cached_run (operations : List Operation) : Cached (run {} operations) :=
  Cached.initial.run operations

end RuntimeAddressSpace
end KatanaRecomp.Runtime
