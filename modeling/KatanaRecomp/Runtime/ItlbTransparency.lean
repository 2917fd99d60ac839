import KatanaRecomp.Runtime.AddressSpace

/-! # When the ITLB is transparent

The ITLB answers with a copy of a UTLB entry and never looks whether a second
entry answers as well. `ldtlb`, `clear_tlb` and a change of `MMUCR.AT` or
`MMUCR.SV` drop the copies; a write of the ASID, a switch of privilege and a fetch
at another address of the page do not. So the ITLB is transparent as long as no
entry is copied that another entry shadows, that is, meets in its page and can
match together with it, under whatever ASID. -/
namespace KatanaRecomp.Runtime
namespace RuntimeAddressSpace

/-! ## The statement -/

/-- What a translation shows the guest. -/
def outcome : Except TranslationError TranslationResult → Except ExceptionCause (BitVec 32)
  | .error fault => .error fault.cause
  | .ok result => .ok result.physicalAddress

/-- An instruction translation shows what the UTLB alone would show. -/
def Transparent (s : RuntimeAddressSpace) : Prop :=
  ∀ address privileged, outcome (s.translate address .instruction privileged).1 =
    outcome (s.inspectTranslation address .instruction privileged)

/-- The pages of the two entries meet and one ASID makes both of them match. -/
def Conflicts (singleVirtual : Bool) (entry other : TlbMapping) : Prop :=
  entry.valid = true ∧ other.valid = true ∧
    entry.virtualPage.toNat < other.virtualPage.toNat + other.pageSize.toNat ∧
    other.virtualPage.toNat < entry.virtualPage.toNat + entry.pageSize.toNat ∧
    (singleVirtual = true ∨ entry.shared = true ∨ other.shared = true ∨ entry.asid = other.asid)

/-- Another entry of the UTLB can match together with the entry. -/
def Shadowed (s : RuntimeAddressSpace) (entry : TlbMapping) : Prop :=
  ∃ other ∈ s.mappings, other.slot ≠ entry.slot ∧ Conflicts s.singleVirtual entry other

/-- The entry is the only one of the UTLB that matches. -/
def OnlyHit (s : RuntimeAddressSpace) (address : BitVec 32) (privileged : Bool)
    (entry : TlbMapping) : Prop := entry ∈ s.mappings ∧ s.hits address privileged entry = true ∧
    ∀ other ∈ s.mappings, other.slot ≠ entry.slot → s.hits address privileged other = false

/-- The operation brings no shadowed entry into the ITLB. -/
def CachesCleanly (s : RuntimeAddressSpace) : Operation → Prop
  | .translate address .instruction privileged =>
    address &&& 1 = 0 → s.instructionTranslationPath address privileged = .mapped →
      ∀ entry, s.OnlyHit address privileged entry → ¬ s.Shadowed entry
  | .restore state =>
    s.validateStateRestore state = .ok () →
      ∀ index, state.itlbValid index = true → ¬ state.Shadowed (state.itlb index)
  | _ => True

def run (s : RuntimeAddressSpace) (operations : List Operation) : RuntimeAddressSpace :=
  operations.foldl apply s

/-- Every operation of the run caches cleanly where the run takes it. -/
def CleanRun : RuntimeAddressSpace → List Operation → Prop
  | _, [] => True
  | s, operation :: rest => s.CachesCleanly operation ∧ CleanRun (s.apply operation) rest

/-! ## The UTLB -/

variable {s : RuntimeAddressSpace} {address : BitVec 32} {privileged : Bool} {entry : TlbMapping}

theorem hits_valid (h : s.hits address privileged entry = true) :
    entry.valid = true ∧ entry.virtualPage.toNat ≤ address.toNat ∧
      address.toNat < entry.virtualPage.toNat + entry.pageSize.toNat ∧
      (entry.shared = true ∨ s.singleVirtual = true ∨ entry.asid = s.asid) := by
  simp only [hits, Bool.and_eq_true, Bool.or_eq_true, decide_eq_true_eq, beq_iff_eq] at h
  obtain ⟨⟨⟨hvalid, hstart⟩, hstop⟩, hasid⟩ := h
  refine ⟨hvalid, hstart, hstop, ?_⟩
  rcases hasid with (hshared | ⟨-, hsv⟩) | hasid
  · exact Or.inl hshared
  · exact Or.inr (Or.inl hsv)
  · exact Or.inr (Or.inr hasid)

/-- Two entries that answer one address conflict. -/
theorem conflicts_of_hits {other : TlbMapping} (hentry : s.hits address privileged entry = true)
    (hother : s.hits address privileged other = true) : Conflicts s.singleVirtual entry other := by
  obtain ⟨hvalid, hstart, hstop, hasid⟩ := hits_valid hentry
  obtain ⟨hvalid', hstart', hstop', hasid'⟩ := hits_valid hother
  refine ⟨hvalid, hvalid', by omega, by omega, ?_⟩
  rcases hasid with hshared | hsv | hasid
  · exact Or.inr (Or.inl hshared)
  · exact Or.inl hsv
  · rcases hasid' with hshared | hsv | hasid'
    · exact Or.inr (Or.inr (Or.inl hshared))
    · exact Or.inl hsv
    · exact Or.inr (Or.inr (Or.inr (hasid.trans hasid'.symm)))

/-- Where one element of a list passes, the search stops at it and finds no other. -/
theorem dropWhile_only {p : TlbMapping → Bool} :
    ∀ {mappings : List TlbMapping}, mappings.Pairwise (fun a b => a.slot ≠ b.slot) →
      entry ∈ mappings → p entry = true →
      (∀ other ∈ mappings, other.slot ≠ entry.slot → p other = false) →
      ∃ rest, mappings.dropWhile (fun value => !p value) = entry :: rest ∧ rest.any p = false
  | [], _, hmem, _, _ => absurd hmem List.not_mem_nil
  | value :: rest, hslots, hmem, hentry, hothers => by
    rw [List.pairwise_cons] at hslots
    obtain ⟨hhead, htail⟩ := hslots
    rcases List.mem_cons.mp hmem with rfl | hmem
    · refine ⟨rest, ?_, ?_⟩
      · rw [List.dropWhile_cons_of_neg (by simp [hentry])]
      · rw [List.any_eq_false]
        intro other hother
        have hfalse := hothers other (List.mem_cons_of_mem _ hother) (hhead other hother).symm
        simp [hfalse]
    · have hfalse : p value = false := hothers value List.mem_cons_self (hhead entry hmem)
      rw [List.dropWhile_cons_of_pos (by simp [hfalse])]
      exact dropWhile_only htail hmem hentry
        (fun other hother => hothers other (List.mem_cons_of_mem _ hother))

theorem utlbLookup_only (access : TranslationAccess)
    (hslots : s.mappings.Pairwise (fun a b => a.slot ≠ b.slot))
    (h : s.OnlyHit address privileged entry) :
    s.utlbLookup address access privileged = .ok entry := by
  obtain ⟨hmem, hentry, hothers⟩ := h
  obtain ⟨rest, hdrop, hrest⟩ := dropWhile_only hslots hmem hentry hothers
  simp [utlbLookup, hdrop, hrest]

variable {access : TranslationAccess}

theorem utlbLookup_ok (h : s.utlbLookup address access privileged = .ok entry) :
    s.OnlyHit address privileged entry := by
  unfold utlbLookup at h
  cases hdrop : s.mappings.dropWhile fun value => !s.hits address privileged value with
  | nil =>
    rw [hdrop] at h
    cases h
  | cons found rest =>
    rw [hdrop] at h
    dsimp only at h
    split at h
    · cases h
    · rename_i hrest
      cases h
      have hsplit := List.takeWhile_append_dropWhile
        (p := fun value => !s.hits address privileged value) (l := s.mappings)
      rw [hdrop] at hsplit
      have hhead : s.hits address privileged entry = true := by
        have hnot := List.head?_dropWhile_not (fun value => !s.hits address privileged value)
          s.mappings
        rw [hdrop] at hnot
        simpa using hnot
      refine ⟨?_, hhead, ?_⟩
      · rw [← hsplit]
        simp
      · intro other hother hslot
        rw [← hsplit] at hother
        rcases List.mem_append.mp hother with hbefore | hafter
        · simpa using List.mem_takeWhile_imp hbefore
        · rcases List.mem_cons.mp hafter with rfl | hafter
          · exact absurd rfl hslot
          · have hnone := List.any_eq_false.mp (Bool.eq_false_iff.mpr hrest) other hafter
            simpa using hnone

/-! ## The invariant -/

/-- Every valid entry of the ITLB is an entry of the UTLB that nothing shadows. -/
structure Coherent (s : RuntimeAddressSpace) : Prop where
  slots : s.mappings.Pairwise fun a b => a.slot ≠ b.slot
  copied : ∀ index, s.itlbValid index = true → s.itlb index ∈ s.mappings
  unshadowed : ∀ index, s.itlbValid index = true → ¬ s.Shadowed (s.itlb index)

theorem coherent_initial : Coherent {} :=
  ⟨List.Pairwise.nil, fun _ hvalid => (by cases hvalid), fun _ hvalid => (by cases hvalid)⟩

/-- With an empty ITLB there is nothing to keep but the slots. -/
theorem coherent_of_empty (hslots : s.mappings.Pairwise fun a b => a.slot ≠ b.slot)
    (hempty : ∀ index, s.itlbValid index = false) : Coherent s := by
  refine ⟨hslots, ?_, ?_⟩
  · intro index hvalid
    rw [hempty index] at hvalid
    cases hvalid
  · intro index hvalid
    rw [hempty index] at hvalid
    cases hvalid

/-- The invariant reads the UTLB, the copies and `MMUCR.SV`. -/
theorem Coherent.transfer {t : RuntimeAddressSpace} (hs : Coherent s)
    (hmappings : t.mappings = s.mappings) (hsv : t.singleVirtual = s.singleVirtual)
    (hitlb : t.itlb = s.itlb) (hvalid : t.itlbValid = s.itlbValid) : Coherent t := by
  refine ⟨hmappings ▸ hs.slots, ?_, ?_⟩
  · intro index hindex
    rw [hitlb, hmappings]
    exact hs.copied index (hvalid ▸ hindex)
  · intro index hindex hshadowed
    refine hs.unshadowed index (hvalid ▸ hindex) ?_
    unfold Shadowed at hshadowed ⊢
    rwa [hmappings, hsv, hitlb] at hshadowed

/-- An ITLB hit is what the UTLB answers. -/
theorem Coherent.onlyHit (hs : Coherent s)
    {index : Fin 4} (hhit : s.itlbHit address privileged = some index) :
    s.OnlyHit address privileged (s.itlb index) := by
  have hfound := List.find?_some hhit
  rw [Bool.and_eq_true] at hfound
  obtain ⟨hvalid, hhits⟩ := hfound
  refine ⟨hs.copied index hvalid, hhits, ?_⟩
  intro other hother hslot
  by_contra htrue
  rw [Bool.not_eq_false] at htrue
  exact hs.unshadowed index hvalid ⟨other, hother, hslot, conflicts_of_hits hhits htrue⟩

/-- The slots of the answer are all that tells an ITLB hit from a UTLB hit. -/
theorem outcome_finishTranslation (s : RuntimeAddressSpace) (address : BitVec 32)
    (access : TranslationAccess) (privileged : Bool) (mapping : TlbMapping)
    (utlbSlot itlbSlot utlbSlot' itlbSlot' : BitVec 8) (refilled refilled' : Bool) :
    outcome (s.finishTranslation address access privileged mapping utlbSlot itlbSlot refilled) =
      outcome (s.finishTranslation address access privileged mapping utlbSlot' itlbSlot'
        refilled') := by
  unfold finishTranslation
  split_ifs <;> rfl

theorem Coherent.translateMapped {s : RuntimeAddressSpace} (hs : Coherent s)
    (address : BitVec 32) (privileged : Bool) :
    outcome (s.translateMapped address .instruction privileged true).1 =
      outcome (s.translateMapped address .instruction privileged false).1 := by
  unfold RuntimeAddressSpace.translateMapped
  simp only [and_self, if_true, Bool.false_eq_true, and_false, if_false]
  cases hhit : s.itlbHit address privileged with
  | some index =>
    rw [utlbLookup_only .instruction hs.slots (hs.onlyHit hhit)]
    exact outcome_finishTranslation ..
  | none =>
    cases s.utlbLookup address .instruction privileged with
    | error fault => rfl
    | ok found => exact outcome_finishTranslation ..

theorem Coherent.transparent (hs : Coherent s) : Transparent s := by
  intro address privileged
  unfold translate inspectTranslation translateImpl
  simp only [if_true]
  split
  · rfl
  · cases s.instructionTranslationPath address privileged with
    | direct => rfl
    | mapped => exact hs.translateMapped address privileged
    | invalid => rfl

/-! ## The operations keep the invariant -/

theorem replaceSlot_slots {mapping : TlbMapping} :
    ∀ {mappings : List TlbMapping}, mappings.Pairwise (fun a b => a.slot ≠ b.slot) →
      (replaceSlot mapping mappings).Pairwise (fun a b => a.slot ≠ b.slot) ∧
        ∀ slot, slot ∈ (replaceSlot mapping mappings).map (·.slot) →
          slot = mapping.slot ∨ slot ∈ mappings.map (·.slot)
  | [], _ => ⟨List.pairwise_singleton _ _, fun slot hslot => Or.inl (by simpa [replaceSlot] using hslot)⟩
  | value :: rest, hslots => by
    rw [List.pairwise_cons] at hslots
    obtain ⟨hhead, htail⟩ := hslots
    obtain ⟨hrest, hsub⟩ := @replaceSlot_slots mapping rest htail
    unfold replaceSlot
    split
    · rename_i heq
      refine ⟨List.pairwise_cons.mpr ⟨fun other hother => heq ▸ hhead other hother, htail⟩, ?_⟩
      intro slot hslot
      rw [List.map_cons, List.mem_cons] at hslot ⊢
      exact hslot.imp_right Or.inr
    · rename_i hne
      refine ⟨List.pairwise_cons.mpr ⟨?_, hrest⟩, ?_⟩
      · intro other hother
        rcases hsub other.slot (List.mem_map_of_mem hother) with heq | hold
        · rwa [heq]
        · obtain ⟨old, hold, heq⟩ := List.mem_map.mp hold
          rw [← heq]
          exact hhead old hold
      · intro slot hslot
        rw [List.map_cons, List.mem_cons] at hslot
        rcases hslot with rfl | hslot
        · exact Or.inr (by simp)
        · exact (hsub slot hslot).imp_right (fun h => by simp [h])

theorem Coherent.writeMmucr (hs : Coherent s) (value : BitVec 32) :
    Coherent (s.writeMmucr value) := by
  unfold RuntimeAddressSpace.writeMmucr
  split
  · dsimp only
    by_cases hcontext : (s.mmucr ^^^ value) &&& mmucrItlbContextMask = 0
    · have hsv : value &&& mmucrSvMask = s.mmucr &&& mmucrSvMask := by
        have hbit : (s.mmucr ^^^ value) &&& mmucrSvMask = 0 := by
          have hmask : mmucrSvMask = mmucrItlbContextMask &&& mmucrSvMask := rfl
          rw [hmask, ← BitVec.and_assoc, hcontext]
          rfl
        ext bit hbound
        have hat := congrArg (fun word : BitVec 32 => word[bit]) hbit
        simp only [BitVec.getElem_and, BitVec.getElem_xor] at hat ⊢
        revert hat
        cases value[bit] <;> cases s.mmucr[bit] <;> cases mmucrSvMask[bit] <;> simp
      simp only [hcontext, ne_eq, not_true_eq_false, if_false]
      split
      · exact hs.transfer rfl (by simp only [singleVirtual, hsv]) rfl rfl
      · exact hs.transfer rfl (by simp only [singleVirtual, hsv]) rfl rfl
    · simp only [hcontext, ne_eq, not_false_eq_true, if_true]
      split
      · exact coherent_of_empty hs.slots (fun _ => rfl)
      · exact coherent_of_empty hs.slots (fun _ => rfl)
  · exact hs

theorem Coherent.refillItlb (hs : Coherent s)
    (hmem : entry ∈ s.mappings) (hclean : ¬ s.Shadowed entry) : Coherent (s.refillItlb entry) := by
  refine ⟨hs.slots, ?_, ?_⟩
  · intro index hvalid
    change Function.update s.itlb s.replacement entry index ∈ s.mappings
    change Function.update s.itlbValid s.replacement true index = true at hvalid
    by_cases heq : index = s.replacement
    · rwa [heq, Function.update_self]
    · rw [Function.update_of_ne heq] at hvalid ⊢
      exact hs.copied index hvalid
  · intro index hvalid
    change ¬ s.Shadowed (Function.update s.itlb s.replacement entry index)
    change Function.update s.itlbValid s.replacement true index = true at hvalid
    by_cases heq : index = s.replacement
    · rwa [heq, Function.update_self]
    · rw [Function.update_of_ne heq] at hvalid ⊢
      exact hs.unshadowed index hvalid

theorem Coherent.translate (hs : Coherent s)
    (hclean : s.CachesCleanly (.translate address access privileged)) :
    Coherent (s.translate address access privileged).2 := by
  have hmapped : access = .instruction →
      (address &&& 1 = 0 ∧ s.instructionTranslationPath address privileged = .mapped) →
      Coherent (s.translateMapped address access privileged true).2 := by
    rintro rfl ⟨heven, hpath⟩
    unfold RuntimeAddressSpace.translateMapped
    simp only [and_self, if_true]
    cases hhit : s.itlbHit address privileged with
    | some index => exact hs.transfer rfl rfl rfl rfl
    | none =>
      cases hlookup : s.utlbLookup address .instruction privileged with
      | error fault => exact hs
      | ok found =>
        have honly := utlbLookup_ok hlookup
        exact hs.refillItlb honly.1 (hclean heven hpath found honly)
  have hdata : access ≠ .instruction →
      Coherent (s.translateMapped address access privileged true).2 := by
    intro hne
    unfold RuntimeAddressSpace.translateMapped
    simp only [hne, false_and, if_false]
    cases s.utlbLookup address access privileged with
    | error fault => exact hs
    | ok found => exact hs
  unfold RuntimeAddressSpace.translate RuntimeAddressSpace.translateImpl
  dsimp only
  split
  · rename_i haccess
    split
    · exact hs
    · rename_i heven
      cases hpath : s.instructionTranslationPath address privileged with
      | direct => exact hs
      | mapped => exact hmapped haccess ⟨not_not.mp heven, hpath⟩
      | invalid => exact hs
  · rename_i haccess
    split_ifs
    all_goals first
      | exact hs
      | exact hdata haccess

theorem utlbRestorable_slots :
    ∀ {mappings : List TlbMapping} {seen : List (BitVec 8)}, utlbRestorable seen mappings = true →
      mappings.Pairwise (fun a b => a.slot ≠ b.slot) ∧ ∀ mapping ∈ mappings, mapping.slot ∉ seen
  | [], _, _ => ⟨List.Pairwise.nil, fun _ h => absurd h List.not_mem_nil⟩
  | mapping :: rest, seen, h => by
    unfold utlbRestorable at h
    split at h
    · cases h
    · rename_i hok
      rw [not_or] at hok
      obtain ⟨hpairs, hfresh⟩ := utlbRestorable_slots h
      refine ⟨List.pairwise_cons.mpr ⟨?_, hpairs⟩, ?_⟩
      · intro other hother heq
        exact hfresh other hother (heq ▸ List.mem_cons_self)
      · intro other hother
        rcases List.mem_cons.mp hother with rfl | hother
        · exact hok.2
        · exact fun hseen => hfresh other hother (List.mem_cons_of_mem _ hseen)

theorem validateItlb_copied : ∀ {indices : List (Fin 4)} {seenRanks : List (BitVec 8)},
      s.validateItlb seenRanks indices = .ok () →
      ∀ index ∈ indices, s.itlbValid index = true → s.itlb index ∈ s.mappings
  | [], _, _, index, hindex, _ => absurd hindex List.not_mem_nil
  | head :: rest, seenRanks, h, index, hindex, hvalid => by
    unfold validateItlb at h
    split at h
    · rename_i hfree
      split at h
      · cases h
      · rcases List.mem_cons.mp hindex with rfl | hindex
        · rw [hfree] at hvalid
          cases hvalid
        · exact validateItlb_copied h index hindex hvalid
    · split at h
      · cases h
      · rename_i hentry
        rcases List.mem_cons.mp hindex with rfl | hindex
        · rw [Bool.not_eq_false] at hentry
          simp only [itlbEntryRestorable, Bool.and_eq_true, beq_iff_eq] at hentry
          exact List.mem_of_find?_eq_some hentry.1.1.1.2
        · exact validateItlb_copied h index hindex hvalid

theorem Coherent.restore (hs : Coherent s) {state : RuntimeAddressSpace}
    (hclean : s.CachesCleanly (.restore state)) : Coherent (s.apply (.restore state)) := by
  change Coherent ((s.restoreStatePassive state).toOption.getD s)
  unfold restoreStatePassive
  cases hvalid : s.validateStateRestore state with
  | error fault => exact hs
  | ok _ =>
    have hunshadowed := hclean hvalid
    unfold validateStateRestore at hvalid
    split at hvalid
    · cases hvalid
    · split at hvalid
      · cases hvalid
      · rename_i hutlb
        rw [Bool.not_eq_false] at hutlb
        refine ⟨(utlbRestorable_slots hutlb).1, ?_, hunshadowed⟩
        intro index hindex
        exact validateItlb_copied hvalid index (List.mem_finRange index) hindex

theorem Coherent.apply (hs : Coherent s) {operation : Operation}
    (hclean : s.CachesCleanly operation) : Coherent (s.apply operation) := by
  cases operation with
  | setMode mode =>
    change Coherent (s.setMode mode)
    unfold setMode
    split
    · exact hs.transfer rfl rfl rfl rfl
    · exact hs
  | writeMmucr value => exact hs.writeMmucr value
  | writePteh value =>
    change Coherent (s.writePteh value)
    unfold writePteh
    dsimp only
    split
    · exact hs.transfer rfl rfl rfl rfl
    · exact hs
  | ldtlb mapping =>
    change Coherent ((s.ldtlb mapping).toOption.getD s)
    unfold ldtlb
    split
    · exact hs
    · exact coherent_of_empty (replaceSlot_slots hs.slots).1 (fun _ => rfl)
  | clearTlb => exact coherent_of_empty List.Pairwise.nil (fun _ => rfl)
  | clearItlb => exact coherent_of_empty hs.slots (fun _ => rfl)
  | bumpAddressSpace => exact hs.transfer rfl rfl rfl rfl
  | bumpWatchpoints => exact hs.transfer rfl rfl rfl rfl
  | translate address access privileged => exact hs.translate hclean
  | restore state => exact hs.restore hclean

theorem Coherent.run (hs : Coherent s) :
    ∀ {operations : List Operation}, CleanRun s operations → Coherent (s.run operations) := by
  intro operations
  induction operations generalizing s with
  | nil => exact fun _ => hs
  | cons operation rest ih =>
    rintro ⟨hclean, hrest⟩
    exact ih (hs.apply hclean) hrest

/-- In every state that a clean run of a new address space reaches, the ITLB is
transparent. -/
theorem run_transparent {operations : List Operation} (hrun : CleanRun {} operations) :
    Transparent (run {} operations) := (coherent_initial.run hrun).transparent

/-- One page, mapped for the ASID of the run. -/
def onePage : List Operation :=
  [.setMode .mmu, .ldtlb { virtualPage := 0x1000, physicalPage := 0x0C001000 },
    .translate 0x1000 .instruction true]

theorem run_transparent_onePage :
    Transparent (run {} onePage) ∧ (run {} onePage).itlbValid 0 = true := by
  refine ⟨run_transparent ⟨trivial, trivial, ?_, trivial⟩, rfl⟩
  rintro - - entry ⟨hentry, -, -⟩ ⟨other, hother, hslot, -⟩
  cases List.mem_singleton.mp hentry
  cases List.mem_singleton.mp hother
  exact hslot rfl

/-- A shared page and a page of ASID 1 at one address: the shared one is cached
under ASID 0 and answers under ASID 1, where the UTLB has a multiple hit. -/
def sharedPage : List Operation :=
  [.setMode .mmu,
    .ldtlb { virtualPage := 0x1000, physicalPage := 0x0C001000, slot := 0, shared := true },
    .ldtlb { virtualPage := 0x1000, physicalPage := 0x0D001000, slot := 1, asid := 1 },
    .translate 0x1000 .instruction true, .writePteh 1]

theorem run_not_transparent : ¬ ∀ operations, Transparent (run {} operations) := by
  intro htransparent
  have hsame := htransparent sharedPage 0x1000 true
  have hitlb : outcome ((run {} sharedPage).translate 0x1000 .instruction true).1 =
      .ok 0x0C001000 := rfl
  have hutlb : outcome ((run {} sharedPage).inspectTranslation 0x1000 .instruction true) =
      .error .tlbMultipleHit := rfl
  rw [hitlb, hutlb] at hsame
  cases hsame

end RuntimeAddressSpace
end KatanaRecomp.Runtime
