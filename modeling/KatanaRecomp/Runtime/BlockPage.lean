import KatanaRecomp.Runtime.PageTranslation

/-! # A block in one translation page

`block_fits_translation_page` compares the two ends of a block by their slot in the UTLB and
by their distance. That finds a block that leaves its page, but not a smaller page that
overlaps the one page in the middle, and a direct segment has no slot to compare. What the
answer is worth is said exactly. -/
namespace KatanaRecomp.Runtime
namespace RuntimeAddressSpace
variable {s : RuntimeAddressSpace}

/-- The privilege is the default one of `inspect_translation`. -/
def blockFitsTranslationPage (s : RuntimeAddressSpace) (virtualStart size : BitVec 32) : Bool :=
  if size < 2 ∨ virtualStart &&& 1 ≠ 0 ∨ size &&& 1 ≠ 0 then false
  else
    let finalInstruction := virtualStart.toNat + size.toNat - 2
    if finalInstruction > 0xFFFFFFFF then false
    else
      match s.inspectTranslation virtualStart .instruction true,
        s.inspectTranslation (BitVec.ofNat 32 finalInstruction) .instruction true with
      | .ok first, .ok final =>
        first.utlbSlot == final.utlbSlot &&
          decide (final.physicalAddress.toNat = first.physicalAddress.toNat + size.toNat - 2)
      | _, _ => false

/-- Every instruction of the block is fetched without error at its distance from the first. -/
def Linear (s : RuntimeAddressSpace) (virtualStart size : BitVec 32) : Prop :=
  ∃ first, outcome (s.inspectTranslation virtualStart .instruction true) = .ok first ∧
    ∀ offset < size.toNat, offset % 2 = 0 → ∃ physical : BitVec 32,
      physical.toNat = first.toNat + offset ∧
        outcome (s.inspectTranslation (virtualStart + BitVec.ofNat 32 offset) .instruction true) =
          .ok physical

/-- The block lies in one segment, and where the segment is mapped no instruction of it is
matched by two entries of the UTLB. -/
structure OnePage (s : RuntimeAddressSpace) (virtualStart size : BitVec 32) : Prop where
  segment : virtualStart.toNat / 2 ^ 29 = (virtualStart.toNat + size.toNat - 2) / 2 ^ 29
  single : s.instructionTranslationPath virtualStart true = .mapped →
    ∀ offset < size.toNat, offset % 2 = 0 → ∀ entry ∈ s.mappings, ∀ other ∈ s.mappings,
      s.hits (virtualStart + BitVec.ofNat 32 offset) true entry = true →
        s.hits (virtualStart + BitVec.ofNat 32 offset) true other = true → entry.slot = other.slot

/-! ## What a fetch says about its address -/

/-- A fetch is direct, and then folds its address, or it finds the address in the UTLB. -/
theorem fetch_cases {address : BitVec 32} {result : TranslationResult}
    (h : s.inspectTranslation address .instruction true = .ok result) :
    address &&& 1 = 0 ∧ address.toNat < 0xE0000000 ∧
      (s.instructionTranslationPath address true = .direct ∧ result.utlbSlot = 0xFF ∧
          result.physicalAddress = canonicalPhysicalAddress address ∨
        s.instructionTranslationPath address true = .mapped ∧
          ∃ found, s.utlbLookup address .instruction true = .ok found ∧
            result.utlbSlot = found.slot ∧ found.executable = true ∧
            result.physicalAddress = found.physicalPage + (address - found.virtualPage)) := by
  have hbelow : address.toNat < 0xE0000000 := by
    by_contra hhigh
    exact inspectTranslation_control (not_lt.mp hhigh) result.physicalAddress (congrArg outcome h)
  unfold inspectTranslation translateImpl at h
  simp only [if_true] at h
  split at h
  · cases h
  · rename_i heven
    refine ⟨not_not.mp heven, hbelow, ?_⟩
    cases hpath : s.instructionTranslationPath address true with
    | direct =>
      rw [hpath] at h
      cases h
      exact Or.inl ⟨rfl, rfl, rfl⟩
    | mapped =>
      rw [hpath] at h
      obtain ⟨found, hfound, hfinish⟩ := translateMapped_cases h
      obtain ⟨-, hslot, hphysical⟩ := finishTranslation_ok hfinish
      refine Or.inr ⟨rfl, found, hfound, hslot, ?_, hphysical⟩
      unfold finishTranslation at hfinish
      split_ifs at hfinish
      rename_i hallowed
      simpa using hallowed
    | invalid =>
      rw [hpath] at h
      cases h

variable {found : TlbMapping}

/-- The fetch of an address that one executable entry answers. -/
theorem fetch_mapped {address : BitVec 32} (heven : address &&& 1 = 0)
    (hpath : s.instructionTranslationPath address true = .mapped)
    (hfound : s.utlbLookup address .instruction true = .ok found)
    (hexecutable : found.executable = true) :
    outcome (s.inspectTranslation address .instruction true) =
      .ok (found.physicalPage + (address - found.virtualPage)) := by
  unfold inspectTranslation translateImpl translateMapped
  simp only [if_true, hpath, hfound]
  rw [if_neg (not_not.mpr heven)]
  simp [finishTranslation, hexecutable, outcome]

theorem fetch_direct {address : BitVec 32} (heven : address &&& 1 = 0)
    (hpath : s.instructionTranslationPath address true = .direct) :
    outcome (s.inspectTranslation address .instruction true) =
      .ok (canonicalPhysicalAddress address) := by
  unfold inspectTranslation translateImpl
  simp only [if_true, hpath]
  rw [if_neg (not_not.mpr heven)]
  rfl

/-- The path of a privileged fetch below the control area. -/
theorem path_privileged {address : BitVec 32} (hbelow : address.toNat < 0xE0000000) :
    s.instructionTranslationPath address true =
      if address.toNat / 2 ^ 26 = 31 ∨ address.toNat / 2 ^ 29 = 4 ∨ address.toNat / 2 ^ 29 = 5 ∨
          s.mode = .noMmu then .direct
      else .mapped := by
  have hsegment : (address >>> 29).toNat = address.toNat / 2 ^ 29 := by
    rw [BitVec.toNat_ushiftRight, Nat.shiftRight_eq_div_pow]
  have hfour : address >>> 29 = 4 ↔ address.toNat / 2 ^ 29 = 4 := by
    rw [← BitVec.toNat_inj, hsegment]
    rfl
  have hfive : address >>> 29 = 5 ↔ address.toNat / 2 ^ 29 = 5 := by
    rw [← BitVec.toNat_inj, hsegment]
    rfl
  have hseven : ¬ address >>> 29 ≥ 7 := by
    rw [ge_iff_le, BitVec.le_def, hsegment]
    change ¬ 7 ≤ _
    omega
  have hchip : address &&& (0xFC000000 : BitVec 32) = sh4OnChipRamAddress ↔
      address.toNat / 2 ^ 26 = 31 := KatanaRecomp.Runtime.onChip_iff address
  unfold instructionTranslationPath
  simp only [Bool.not_true, Bool.false_and, Bool.false_eq_true, if_false, if_true, hchip, hfour,
    hfive, hseven, Bool.true_eq_false, and_false]
  split_ifs <;> tauto

/-! ## The two ends of an accepted block -/

/-- What the comparison of the ends has seen. -/
structure Ends (s : RuntimeAddressSpace) (virtualStart size : BitVec 32)
    (first final : TranslationResult) : Prop where
  whole : 2 ≤ size.toNat ∧ size.toNat % 2 = 0 ∧ virtualStart.toNat % 2 = 0
  inside : virtualStart.toNat + size.toNat - 2 < 2 ^ 32
  firstFetch : s.inspectTranslation virtualStart .instruction true = .ok first
  finalFetch : s.inspectTranslation (BitVec.ofNat 32 (virtualStart.toNat + size.toNat - 2))
    .instruction true = .ok final
  slot : first.utlbSlot = final.utlbSlot
  distance : final.physicalAddress.toNat = first.physicalAddress.toNat + size.toNat - 2

theorem blockFitsTranslationPage_ends {virtualStart size : BitVec 32}
    (h : s.blockFitsTranslationPage virtualStart size = true) :
    ∃ first final, s.Ends virtualStart size first final := by
  unfold blockFitsTranslationPage at h
  split at h
  · cases h
  rename_i hshape
  simp only [not_or, not_not] at hshape
  obtain ⟨hsize, hvirtual, heven⟩ := hshape
  rw [even_iff] at hvirtual heven
  rw [BitVec.lt_def] at hsize
  dsimp only at h
  split at h
  · cases h
  rename_i hinside
  split at h
  · rename_i first final hfirst hfinal
    rw [Bool.and_eq_true, beq_iff_eq, decide_eq_true_eq] at h
    exact ⟨first, final, ⟨⟨not_lt.mp hsize, heven, hvirtual⟩, by omega, hfirst, hfinal, h.1, h.2⟩⟩
  · cases h

namespace Ends
variable {virtualStart size : BitVec 32} {first final : TranslationResult}
  (h : s.Ends virtualStart size first final)
include h

/-- An instruction of the block, by its number. -/
theorem address {offset : Nat} (hoffset : offset < size.toNat) (heven : offset % 2 = 0) :
    (virtualStart + BitVec.ofNat 32 offset).toNat = virtualStart.toNat + offset ∧
      (virtualStart + BitVec.ofNat 32 offset) &&& 1 = 0 := by
  obtain ⟨⟨hsize, hsizeEven, hstart⟩, hinside⟩ := And.intro h.whole h.inside
  have haddress : (virtualStart + BitVec.ofNat 32 offset).toNat = virtualStart.toNat + offset :=
    toNat_offset (by omega)
  refine ⟨haddress, ?_⟩
  rw [even_iff, haddress]
  omega

theorem finalAddress : (BitVec.ofNat 32 (virtualStart.toNat + size.toNat - 2)).toNat =
      virtualStart.toNat + size.toNat - 2 := by
  rw [BitVec.toNat_ofNat, Nat.mod_eq_of_lt h.inside]

theorem folded (hs : Cached s) :
    first.physicalAddress.toNat / 2 ^ 26 = 31 ∨ 56 ≤ first.physicalAddress.toNat / 2 ^ 26 ∨
      first.physicalAddress.toNat / 2 ^ 26 < 8 := by
  have heven := (fetch_cases h.firstFetch).1
  have hfolded := (hs.physical_folded heven (congrArg outcome h.firstFetch)).2
  exact (canonicalPhysicalAddress_eq_self_iff _).mp hfolded

/-- Two mapped ends are answered by one entry. -/
theorem same_entry (hs : Cached s)
    {last : TlbMapping} (hfound : s.utlbLookup virtualStart .instruction true = .ok found)
    (hslot : first.utlbSlot = found.slot)
    (hlast : s.utlbLookup (BitVec.ofNat 32 (virtualStart.toNat + size.toNat - 2)) .instruction
      true = .ok last) (hslot' : final.utlbSlot = last.slot) : last = found := by
  have hsame : last.slot = found.slot := by rw [← hslot', ← h.slot, hslot]
  have hfind := find?_slot hs.slots (utlbLookup_ok hlast).1
  rw [hsame, find?_slot hs.slots (utlbLookup_ok hfound).1] at hfind
  exact (Option.some.inj hfind).symm

/-- An entry that answers both ends answers in between. -/
theorem hits_between (hfound : s.hits virtualStart true found = true)
    (hlast : s.hits (BitVec.ofNat 32 (virtualStart.toNat + size.toNat - 2)) true found = true)
    {offset : Nat} (hoffset : offset < size.toNat) (heven : offset % 2 = 0) :
    s.hits (virtualStart + BitVec.ofNat 32 offset) true found = true := by
  have hsize := h.whole
  have haddress := (h.address hoffset heven).1
  have hto := (hits_valid hlast).2.2.1
  rw [h.finalAddress] at hto
  unfold hits at hfound ⊢
  simp only [Bool.and_eq_true, decide_eq_true_eq] at hfound ⊢
  obtain ⟨⟨⟨hvalid, hfrom⟩, -⟩, hasid⟩ := hfound
  rw [haddress]
  exact ⟨⟨⟨hvalid, by omega⟩, by omega⟩, hasid⟩

/-! ## One segment and one entry are enough -/

theorem linear (hs : Cached s)
    (hpage : s.OnePage virtualStart size) : s.Linear virtualStart size := by
  obtain ⟨hsize, hsizeEven, hstart⟩ := h.whole
  have hsegment := hpage.segment
  have hdistance := h.distance
  have hfolded := h.folded hs
  have hphysical := final.physicalAddress.isLt
  obtain ⟨-, hbelow, hfirst⟩ := fetch_cases h.firstFetch
  obtain ⟨-, hbelow', hfinal⟩ := fetch_cases h.finalFetch
  rw [h.finalAddress] at hbelow'
  have hpath := path_privileged (s := s) hbelow
  have hpath' := path_privileged (s := s) (h.finalAddress.symm ▸ hbelow')
  rw [h.finalAddress] at hpath'
  refine ⟨first.physicalAddress, congrArg outcome h.firstFetch, ?_⟩
  intro offset hoffset heven
  obtain ⟨haddress, hword⟩ := h.address hoffset heven
  have hbetweenBelow : (virtualStart + BitVec.ofNat 32 offset).toNat < 0xE0000000 := by omega
  have hbetween := path_privileged (s := s) hbetweenBelow
  rw [haddress] at hbetween
  rcases hfirst with ⟨hdirect, -, hfold⟩ | ⟨hmapped, found, hfound, hslot, hexecutable, hpage'⟩
  · rw [hdirect] at hpath
    rcases hfinal with ⟨hdirect', -, hfold'⟩ | ⟨hmapped', -⟩
    · -- both ends are direct: so is the instruction, and its fold is at the distance
      rw [hdirect'] at hpath'
      rw [hfold, toNat_canonicalPhysicalAddress_eq] at hdistance
      rw [hfold', toNat_canonicalPhysicalAddress_eq, h.finalAddress] at hdistance
      have hmode : ¬ s.mode = .noMmu → virtualStart.toNat / 2 ^ 26 = 31 ∧
          (virtualStart.toNat + size.toNat - 2) / 2 ^ 26 = 31 ∨
            virtualStart.toNat / 2 ^ 29 = 4 ∨ virtualStart.toNat / 2 ^ 29 = 5 := by
        intro hmmu
        simp only [hmmu, or_false] at hpath hpath'
        split_ifs at hpath hpath'
        omega
      have hmiddle : s.instructionTranslationPath (virtualStart + BitVec.ofNat 32 offset) true =
          .direct := by
        rw [hbetween]
        by_cases hmmu : s.mode = .noMmu
        · simp [hmmu]
        · rw [if_pos]
          have hcases := hmode hmmu
          omega
      refine ⟨_, ?_, fetch_direct hword hmiddle⟩
      rw [toNat_canonicalPhysicalAddress_eq, haddress, hfold, toNat_canonicalPhysicalAddress_eq]
      split_ifs at hdistance ⊢ <;> omega
    · -- a direct segment does not end before the block does
      rw [hmapped'] at hpath'
      split_ifs at hpath hpath' with hcases hcases'
      simp only [not_or] at hcases'
      simp only [hcases'.2.2.2, or_false] at hcases
      omega
  · rw [hmapped] at hpath
    split_ifs at hpath with hcases
    simp only [not_or] at hcases
    rcases hfinal with ⟨hdirect', -, hfold'⟩ | ⟨hmapped', last, hlast, hslot', -, -⟩
    · -- the on-chip memory is not behind a page, for no page leads below it
      rw [hdirect'] at hpath'
      split_ifs at hpath' with hcases'
      simp only [hcases.2.2.2, or_false] at hcases'
      rw [hfold', toNat_canonicalPhysicalAddress_eq, h.finalAddress] at hdistance
      split_ifs at hdistance <;> omega
    · rw [hmapped'] at hpath'
      split_ifs at hpath' with hcases'
      simp only [not_or] at hcases'
      have hsame := h.same_entry hs hfound hslot hlast hslot'
      subst hsame
      obtain ⟨hmem, hhits, -⟩ := utlbLookup_ok hfound
      have hmiddle : s.instructionTranslationPath (virtualStart + BitVec.ofNat 32 offset) true =
          .mapped := by
        rw [hbetween, if_neg]
        simp only [hcases.2.2.2, or_false]
        omega
      have hinside := h.hits_between hhits (utlbLookup_ok hlast).2.1 hoffset heven
      have honly := utlbLookup_only .instruction hs.slots ⟨hmem, hinside, fun other hother hne => by
        by_contra htrue
        rw [Bool.not_eq_false] at htrue
        exact hne (hpage.single hmapped offset hoffset heven other hother last hmem htrue hinside)⟩
      refine ⟨_, ?_, fetch_mapped hword hmiddle honly hexecutable⟩
      have hshift : last.physicalPage + (virtualStart + BitVec.ofNat 32 offset -
          last.virtualPage) = first.physicalAddress + BitVec.ofNat 32 offset := by
        rw [hpage', BitVec.add_assoc]
        congr 1
        bv_omega
      rw [hshift, toNat_offset]
      omega

/-! ## and necessary -/

/-- No fetch of the block leaves the folded addresses. -/
theorem folded_all (hs : Cached s)
    (hlinear : s.Linear virtualStart size) : ∀ offset < size.toNat, offset % 2 = 0 →
      (first.physicalAddress.toNat + offset) / 2 ^ 26 = 31 ∨
        56 ≤ (first.physicalAddress.toNat + offset) / 2 ^ 26 ∨
          (first.physicalAddress.toNat + offset) / 2 ^ 26 < 8 := by
  obtain ⟨start, hstart, hall⟩ := hlinear
  rw [h.firstFetch] at hstart
  cases hstart
  intro offset hoffset heven
  obtain ⟨physical, hphysical, hshown⟩ := hall offset hoffset heven
  have hfolded := (hs.physical_folded (h.address hoffset heven).2 hshown).2
  rw [← hphysical]
  exact (canonicalPhysicalAddress_eq_self_iff physical).mp hfolded

theorem one_segment (hs : Cached s) (hlinear : s.Linear virtualStart size) :
    virtualStart.toNat / 2 ^ 29 = (virtualStart.toNat + size.toNat - 2) / 2 ^ 29 := by
  obtain ⟨hsize, hsizeEven, hstart⟩ := h.whole
  have hdistance := h.distance
  have hfolded := h.folded_all hs hlinear
  have hlowest := hfolded 0 (by omega) rfl
  obtain ⟨-, hbelow, hfirst⟩ := fetch_cases h.firstFetch
  obtain ⟨-, hbelow', hfinal⟩ := fetch_cases h.finalFetch
  rw [h.finalAddress] at hbelow'
  rcases hfirst with ⟨-, -, hfold⟩ | ⟨-, found, hfound, hslot, -, -⟩
  · rw [hfold, toNat_canonicalPhysicalAddress_eq] at hfolded
    by_contra hne
    split_ifs at hfolded with hkept
    · have hedge := hfolded (0x80000000 - virtualStart.toNat) (by omega) (by omega)
      omega
    · have hedge := hfolded (2 ^ 29 - virtualStart.toNat % 2 ^ 29) (by omega) (by omega)
      omega
  · rcases hfinal with ⟨-, -, hfold'⟩ | ⟨-, last, hlast, hslot', -, -⟩
    · rw [hfold', toNat_canonicalPhysicalAddress_eq, h.finalAddress] at hdistance
      by_contra hne
      split_ifs at hdistance with hkept
      · have hstartIs : first.physicalAddress.toNat = virtualStart.toNat := by omega
        rw [hstartIs] at hfolded hlowest
        have hedge := hfolded (2 ^ 29 - virtualStart.toNat % 2 ^ 29) (by omega) (by omega)
        omega
      · omega
    · have hsame := h.same_entry hs hfound hslot hlast hslot'
      subst hsame
      obtain ⟨hmem, hhits, -⟩ := utlbLookup_ok hfound
      have hstored := hs.pages last hmem
      obtain ⟨places, -, hplaces, hpow⟩ := validPageSize_pow hstored.size
      have haligned := congrArg BitVec.toNat hstored.virtualAligned
      rw [BitVec.toNat_umod, hpow] at haligned
      change last.virtualPage.toNat % 2 ^ places = 0 at haligned
      have hfrom := (hits_valid hhits).2.1
      have hto := (hits_valid hhits).2.2.1
      have hto' := (hits_valid (utlbLookup_ok hlast).2.1).2.2.1
      rw [h.finalAddress] at hto'
      have harea := area_of_page places (by omega) haligned
        (by omega : virtualStart.toNat - last.virtualPage.toNat < 2 ^ places)
      have harea' := area_of_page places (by omega) haligned
        (by omega : virtualStart.toNat + size.toNat - 2 - last.virtualPage.toNat < 2 ^ places)
      have hplace : last.virtualPage.toNat + (virtualStart.toNat - last.virtualPage.toNat) =
          virtualStart.toNat := by omega
      have hplace' : last.virtualPage.toNat +
          (virtualStart.toNat + size.toNat - 2 - last.virtualPage.toNat) =
            virtualStart.toNat + size.toNat - 2 := by omega
      rw [hplace] at harea
      rw [hplace'] at harea'
      omega

theorem onePage (hs : Cached s)
    (hlinear : s.Linear virtualStart size) : s.OnePage virtualStart size := by
  have hsegment := h.one_segment hs hlinear
  refine ⟨hsegment, ?_⟩
  intro hmapped offset hoffset heven entry hentry other hother hhits hhits'
  obtain ⟨hsize, hsizeEven, hstart⟩ := h.whole
  have hlowest := h.folded hs
  obtain ⟨haddress, hword⟩ := h.address hoffset heven
  obtain ⟨start, hstartShown, hall⟩ := hlinear
  rw [h.firstFetch] at hstartShown
  cases hstartShown
  obtain ⟨physical, hphysical, hshown⟩ := hall offset hoffset heven
  obtain ⟨result, hresult, rfl⟩ := inspectTranslation_of_outcome hshown
  have hbelow := (fetch_cases h.firstFetch).2.1
  obtain ⟨-, hbelow', hcases⟩ := fetch_cases hresult
  rw [haddress] at hbelow'
  rcases hcases with ⟨hdirect, -, hfold⟩ | ⟨-, found, hfound, -⟩
  · -- only the on-chip memory is direct in a mapped segment, and no page leads to it
    have hpath := path_privileged (s := s) hbelow
    have hpath' := path_privileged (s := s) (haddress.symm ▸ hbelow')
    rw [hmapped] at hpath
    rw [hdirect, haddress] at hpath'
    split_ifs at hpath hpath' with hout hin
    simp only [not_or] at hout
    simp only [hout.2.2.2, or_false] at hin
    rw [hfold, toNat_canonicalPhysicalAddress_eq, haddress] at hphysical
    split_ifs at hphysical <;> omega
  · obtain ⟨-, -, hothers⟩ := utlbLookup_ok hfound
    have hslot : ∀ mapping ∈ s.mappings,
        s.hits (virtualStart + BitVec.ofNat 32 offset) true mapping = true →
          mapping.slot = found.slot := by
      intro mapping hmapping hmappingHits
      by_contra hne
      rw [hothers mapping hmapping hne] at hmappingHits
      cases hmappingHits
    rw [hslot entry hentry hhits, hslot other hother hhits']

omit h

end Ends

/-- A block that is accepted is fetched as from its first instruction exactly where it lies in
one segment and no instruction of it is mapped twice. -/
theorem blockFitsTranslationPage_linear_iff {operations : List Operation}
    {virtualStart size : BitVec 32}
    (h : (run {} operations).blockFitsTranslationPage virtualStart size = true) :
    (run {} operations).Linear virtualStart size ↔
      (run {} operations).OnePage virtualStart size := by
  have hs := cached_run operations
  obtain ⟨first, final, hends⟩ := blockFitsTranslationPage_ends h
  exact ⟨hends.onePage hs, hends.linear hs⟩

/-- A block inside the page of `onePage`. -/
theorem blockFitsTranslationPage_linear_onePage :
    (run {} onePage).blockFitsTranslationPage 0x1FF0 16 = true ∧
      ((run {} onePage).Linear 0x1FF0 16 ↔ (run {} onePage).OnePage 0x1FF0 16) := by
  have hfits : (run {} onePage).blockFitsTranslationPage 0x1FF0 16 = true := by decide
  exact ⟨hfits, blockFitsTranslationPage_linear_iff hfits⟩

/-- A page of 1 MiB, and one of 1 KiB over the second KiB of it. -/
def overlappedPage : List Operation := [.setMode .mmu, .ldtlb
      { virtualPage := 0x100000
        physicalPage := 0x0C000000
        pageSize := 1048576
        slot := 0 },
    .ldtlb
      { virtualPage := 0x100400
        physicalPage := 0x0C000400
        pageSize := 1024
        slot := 1 }]

/-- Both ends of the block lie in the large page alone, the instruction at `0x100400` in two. -/
theorem blockFitsTranslationPage_not_linear : ¬ ∀ operations virtualStart size,
      (run {} operations).blockFitsTranslationPage virtualStart size = true →
        (run {} operations).Linear virtualStart size := by
  intro hlinear
  have hfits : (run {} overlappedPage).blockFitsTranslationPage 0x100000 0x1000 = true := by
    decide
  obtain ⟨first, -, hall⟩ := hlinear overlappedPage 0x100000 0x1000 hfits
  obtain ⟨physical, -, hshown⟩ := hall 0x400 (by decide) rfl
  have hmultiple : outcome ((run {} overlappedPage).inspectTranslation
      (0x100000 + BitVec.ofNat 32 0x400) .instruction true) = .error .tlbMultipleHit := by decide
  rw [hmultiple] at hshown
  cases hshown

end RuntimeAddressSpace
end KatanaRecomp.Runtime
