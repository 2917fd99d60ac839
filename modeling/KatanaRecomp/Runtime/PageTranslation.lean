import KatanaRecomp.Runtime.GuestMemory
import KatanaRecomp.Runtime.MmuSnapshot

/-! # Probes at the bounds of pages

`prove_instruction_mapping` and `resolve_guest_buffer` translate the ends of a range and
the bounds of the smallest pages inside it, not every address. That is enough: within
1 KiB a translation is a shift, or it fails everywhere, whatever the segment, the page
size and the other entries of the UTLB. -/
namespace KatanaRecomp.Runtime
namespace RuntimeAddressSpace
variable {s : RuntimeAddressSpace}

/-! ## One KiB -/

/-- The two addresses lie in the same KiB. -/
def SameKiB (a b : BitVec 32) : Prop := a.toNat / 1024 = b.toNat / 1024

variable {a b : BitVec 32} (h : SameKiB a b)
include h

/-- A decision on the upper bits of the address. -/
theorem SameKiB.onChip_iff : a &&& (0xFC000000 : BitVec 32) = sh4OnChipRamAddress ↔
      b &&& (0xFC000000 : BitVec 32) = sh4OnChipRamAddress := by
  unfold SameKiB at h
  rw [show sh4OnChipRamAddress = 0x7C000000 from rfl, KatanaRecomp.Runtime.onChip_iff,
    KatanaRecomp.Runtime.onChip_iff]
  omega

theorem SameKiB.segment_eq : a >>> 29 = b >>> 29 := by
  unfold SameKiB at h
  rw [← BitVec.toNat_inj, BitVec.toNat_ushiftRight, BitVec.toNat_ushiftRight,
    Nat.shiftRight_eq_div_pow, Nat.shiftRight_eq_div_pow]
  omega

theorem SameKiB.upper_iff : a ≥ 0x80000000 ↔ b ≥ 0x80000000 := by
  unfold SameKiB at h
  rw [ge_iff_le, ge_iff_le, BitVec.le_def, BitVec.le_def]
  change 0x80000000 ≤ a.toNat ↔ 0x80000000 ≤ b.toNat
  omega

theorem SameKiB.instructionTranslationPath (privileged : Bool) :
    s.instructionTranslationPath a privileged = s.instructionTranslationPath b privileged := by
  unfold RuntimeAddressSpace.instructionTranslationPath
  simp only [h.onChip_iff, h.segment_eq, h.upper_iff]

omit h

variable {mapping : TlbMapping}

/-- The bounds of a stored page are bounds of KiBs. -/
theorem StoredPage.bounds (h : StoredPage mapping) :
    mapping.virtualPage.toNat % 1024 = 0 ∧ mapping.pageSize.toNat % 1024 = 0 := by
  obtain ⟨places, hplaces, -, hpow⟩ := validPageSize_pow h.size
  have hdvd : 1024 ∣ mapping.pageSize.toNat := by
    rw [hpow]
    exact Nat.pow_dvd_pow 2 hplaces
  have haligned := congrArg BitVec.toNat h.virtualAligned
  rw [BitVec.toNat_umod] at haligned
  exact ⟨Nat.mod_eq_zero_of_dvd (hdvd.trans (Nat.dvd_of_mod_eq_zero haligned)),
    Nat.mod_eq_zero_of_dvd hdvd⟩

theorem SameKiB.hits (h : SameKiB a b) (privileged : Bool)
    (hstored : StoredPage mapping) : s.hits a privileged mapping = s.hits b privileged mapping := by
  obtain ⟨hstart, hsize⟩ := hstored.bounds
  unfold SameKiB at h
  have hfrom : mapping.virtualPage.toNat ≤ a.toNat ↔ mapping.virtualPage.toNat ≤ b.toNat := by
    omega
  have hto : a.toNat < mapping.virtualPage.toNat + mapping.pageSize.toNat ↔
      b.toNat < mapping.virtualPage.toNat + mapping.pageSize.toNat := by omega
  unfold RuntimeAddressSpace.hits
  simp only [hfrom, hto]

theorem SameKiB.canonicalPhysicalAddress (h : SameKiB a b) :
    canonicalPhysicalAddress b = canonicalPhysicalAddress a + (b - a) := by
  unfold SameKiB at h
  have hlt := a.isLt
  have hlt' := b.isLt
  rw [← BitVec.toNat_inj, BitVec.toNat_add, BitVec.toNat_sub, toNat_canonicalPhysicalAddress_eq,
    toNat_canonicalPhysicalAddress_eq]
  split_ifs <;> omega

/-! ## A translation is a shift -/

/-- The result at another address of the KiB. -/
def shifted (result : TranslationResult) (address : BitVec 32) : TranslationResult :=
  { result with
    virtualAddress := address
    physicalAddress := result.physicalAddress + (address - result.virtualAddress) }

variable {privileged : Bool} {access : TranslationAccess}

theorem SameKiB.utlbLookup (h : SameKiB a b) (hs : Cached s) {found : TlbMapping}
    (hfound : s.utlbLookup a access privileged = .ok found) :
    s.utlbLookup b access privileged = .ok found := by
  obtain ⟨hmem, hhits, hothers⟩ := utlbLookup_ok hfound
  refine utlbLookup_only access hs.slots ⟨hmem, ?_, ?_⟩
  · rw [← h.hits privileged (hs.pages found hmem)]
    exact hhits
  · intro other hother hslot
    rw [← h.hits privileged (hs.pages other hother)]
    exact hothers other hother hslot

variable {result : TranslationResult} {utlbSlot itlbSlot : BitVec 8} {itlbRefilled : Bool}

theorem finishTranslation_shifted
    (h : s.finishTranslation a access privileged mapping utlbSlot itlbSlot itlbRefilled =
      .ok result) : s.finishTranslation b access privileged mapping utlbSlot itlbSlot itlbRefilled =
      .ok (shifted result b) := by
  unfold finishTranslation at h ⊢
  split_ifs at h ⊢
  cases h
  have hshift : mapping.physicalPage + (b - mapping.virtualPage) =
      mapping.physicalPage + (a - mapping.virtualPage) + (b - a) := by
    rw [BitVec.add_assoc]
    congr 1
    bv_omega
  simp only [shifted, hshift]

theorem SameKiB.translateMapped {a b : BitVec 32} (h : SameKiB a b) (hs : Cached s)
    {access : TranslationAccess} {privileged : Bool} {result : TranslationResult}
    (hresult : (s.translateMapped a access privileged false).1 = .ok result) :
    (s.translateMapped b access privileged false).1 = .ok (shifted result b) := by
  unfold RuntimeAddressSpace.translateMapped at hresult ⊢
  simp only [Bool.false_eq_true, and_false, if_false] at hresult ⊢
  cases hfound : s.utlbLookup a access privileged with
  | error fault =>
    rw [hfound] at hresult
    cases hresult
  | ok found =>
    rw [hfound] at hresult
    rw [h.utlbLookup hs hfound]
    exact finishTranslation_shifted hresult

/-- Within a KiB a translation that succeeds at one address succeeds at all, an instruction
at even ones. -/
theorem SameKiB.inspectTranslation (h : SameKiB a b) (hs : Cached s)
    (heven : access = .instruction → b &&& 1 = 0)
    (hresult : s.inspectTranslation a access privileged = .ok result) :
    s.inspectTranslation b access privileged = .ok (shifted result b) := by
  have hdirect : ∀ physical : BitVec 32 → BitVec 32, physical b = physical a + (b - a) →
      s.directTranslation b (physical b) = shifted (s.directTranslation a (physical a)) b := by
    intro physical hphysical
    simp only [directTranslation, shifted, hphysical]
  have hfolded := hdirect _ h.canonicalPhysicalAddress
  have hsame := hdirect id (by simp only [id]; bv_omega)
  have hmapped := @SameKiB.translateMapped s a b h hs access privileged result
  unfold RuntimeAddressSpace.inspectTranslation translateImpl at hresult ⊢
  dsimp only at hresult ⊢
  simp only [← h.onChip_iff, ← h.segment_eq, ← h.upper_iff, ← h.instructionTranslationPath (s := s)]
  by_cases hinstruction : access = .instruction
  · rw [if_pos hinstruction] at hresult ⊢
    rw [if_neg (not_not.mpr (heven hinstruction))]
    split at hresult
    · cases hresult
    · cases hpath : s.instructionTranslationPath a privileged with
      | direct =>
        rw [hpath] at hresult
        cases hresult
        exact congrArg Except.ok hfolded
      | mapped =>
        rw [hpath] at hresult
        exact hmapped hresult
      | invalid =>
        rw [hpath] at hresult
        cases hresult
  · rw [if_neg hinstruction] at hresult ⊢
    split_ifs at hresult ⊢
    all_goals first
      | cases hresult; exact congrArg Except.ok hfolded
      | cases hresult; exact congrArg Except.ok hsame
      | exact hmapped hresult

/-! ## How a translation succeeds -/

variable {address : BitVec 32}

/-- A translation that succeeds folds the address or finds it in the UTLB. -/
theorem inspectTranslation_cases (h : s.inspectTranslation address access privileged = .ok result) :
    (result = s.directTranslation address (canonicalPhysicalAddress address) ∧
        (s.translate address access privileged).1 = .ok result) ∨
      ((s.translateMapped address access privileged false).1 = .ok result ∧
        s.translate address access privileged =
          s.translateMapped address access privileged true) := by
  unfold inspectTranslation translateImpl at h
  unfold translate translateImpl
  dsimp only at h ⊢
  by_cases hinstruction : access = .instruction
  · rw [if_pos hinstruction] at h ⊢
    split at h
    · cases h
    · rename_i heven
      rw [if_neg heven]
      cases hpath : s.instructionTranslationPath address privileged with
      | direct =>
        rw [hpath] at h
        cases h
        exact Or.inl ⟨rfl, rfl⟩
      | mapped =>
        rw [hpath] at h
        exact Or.inr ⟨h, rfl⟩
      | invalid =>
        rw [hpath] at h
        cases h
  · rw [if_neg hinstruction] at h ⊢
    have honChip : address &&& (0xFC000000 : BitVec 32) = sh4OnChipRamAddress →
        canonicalPhysicalAddress address = address := fun hchip =>
      (canonicalPhysicalAddress_eq_self_iff address).mpr (Or.inl ((onChip_iff address).mp hchip))
    have hcontrol : address >>> 29 ≥ 7 → canonicalPhysicalAddress address = address := by
      intro hsegment
      rw [ge_iff_le, BitVec.le_def, BitVec.toNat_ushiftRight, Nat.shiftRight_eq_div_pow] at hsegment
      change 7 ≤ _ at hsegment
      exact (canonicalPhysicalAddress_eq_self_iff address).mpr (Or.inr (Or.inl (by omega)))
    split_ifs at h ⊢
    all_goals first
      | cases h; exact Or.inl ⟨rfl, rfl⟩
      | cases h; exact Or.inl ⟨by rw [honChip (by assumption)], rfl⟩
      | cases h; exact Or.inl ⟨by rw [hcontrol (by assumption)], rfl⟩
      | exact Or.inr ⟨h, rfl⟩

/-- What the UTLB finds is one of its entries, and the only one that matches. -/
theorem translateMapped_cases
    (h : (s.translateMapped address access privileged false).1 = .ok result) :
    ∃ found, s.utlbLookup address access privileged = .ok found ∧
      s.finishTranslation address access privileged found found.slot 0xFF false = .ok result := by
  unfold RuntimeAddressSpace.translateMapped at h
  simp only [Bool.false_eq_true, and_false, if_false] at h
  cases hfound : s.utlbLookup address access privileged with
  | error fault =>
    rw [hfound] at h
    cases h
  | ok found =>
    rw [hfound] at h
    exact ⟨found, rfl, h⟩

theorem finishTranslation_ok
    (h : s.finishTranslation address access privileged mapping utlbSlot itlbSlot itlbRefilled =
      .ok result) : result.virtualAddress = address ∧ result.utlbSlot = utlbSlot ∧
      result.physicalAddress = mapping.physicalPage + (address - mapping.virtualPage) := by
  unfold finishTranslation at h
  split_ifs at h
  cases h
  exact ⟨rfl, rfl, rfl⟩

/-- The answer for an address names the address. -/
theorem virtualAddress_inspectTranslation
    (h : s.inspectTranslation address access privileged = .ok result) :
    result.virtualAddress = address := by
  rcases inspectTranslation_cases h with ⟨rfl, -⟩ | ⟨hmapped, -⟩
  · rfl
  · obtain ⟨found, -, hfinish⟩ := translateMapped_cases hmapped
    exact (finishTranslation_ok hfinish).1

/-- An entry of the ITLB that answers is the one the UTLB finds. -/
theorem Cached.itlbHit (hs : Cached s) {found : TlbMapping} {index : Fin 4}
    (hfound : s.utlbLookup address access privileged = .ok found)
    (hhit : s.itlbHit address privileged = some index) : s.itlb index = found := by
  have hvalid := itlbHit_valid hhit
  have hanswers := List.find?_some hhit
  rw [Bool.and_eq_true] at hanswers
  obtain ⟨hmem, -, hothers⟩ := utlbLookup_ok hfound
  have hslot : (s.itlb index).slot = found.slot := by
    by_contra hne
    rw [hothers _ (hs.copied hvalid) hne] at hanswers
    cases hanswers.2
  have hfind := find?_slot hs.slots (hs.copied hvalid)
  rw [hslot, find?_slot hs.slots hmem] at hfind
  exact (Option.some.inj hfind).symm

/-- A translation that the UTLB allows is what the ITLB answers as well: its entries are copies
of the UTLB, which has only one that matches. -/
theorem Cached.outcome_translate (hs : Cached s)
    (h : s.inspectTranslation address access privileged = .ok result) :
    outcome (s.translate address access privileged).1 = .ok result.physicalAddress := by
  rcases inspectTranslation_cases h with ⟨-, htranslate⟩ | ⟨hmapped, htranslate⟩
  · rw [htranslate]
    rfl
  · obtain ⟨found, hfound, hfinish⟩ := translateMapped_cases hmapped
    have hany : ∀ utlbSlot itlbSlot itlbRefilled,
        outcome (s.finishTranslation address access privileged found utlbSlot itlbSlot
          itlbRefilled) = .ok result.physicalAddress := fun utlbSlot itlbSlot itlbRefilled =>
      (outcome_finishTranslation ..).trans (congrArg outcome hfinish)
    rw [htranslate]
    unfold RuntimeAddressSpace.translateMapped
    dsimp only
    rw [hfound]
    split
    · rename_i index hindex
      have hhit : s.itlbHit address privileged = some index := by
        split_ifs at hindex
        exact hindex
      rw [hs.itlbHit hfound hhit]
      exact hany ..
    · dsimp only
      split
      · exact hany ..
      · exact hany ..

/-! ## Probing an instruction range -/

/-- The lambda `translated_at`. -/
def translatedAt (s : RuntimeAddressSpace) (virtualStart physicalStart : BitVec 32)
    (privileged : Bool) (offset : BitVec 32) : Bool :=
  match s.inspectTranslation (virtualStart + offset) .instruction privileged with
  | .error _ => false
  | .ok result => result.physicalAddress == physicalStart + offset

/-- The loop over the bounds of the smallest pages. -/
def boundariesTranslated (translatedAt : BitVec 32 → Bool) (virtualStart virtualEnd : Nat)
    (boundary : Nat) : Bool :=
  if boundary < virtualEnd then
    let offset := BitVec.ofNat 32 (boundary - virtualStart)
    if !translatedAt offset || !translatedAt (offset - 2) then false
    else boundariesTranslated translatedAt virtualStart virtualEnd (boundary + 1024)
  else true
termination_by virtualEnd - boundary
decreasing_by omega

def proveInstructionMapping (s : RuntimeAddressSpace) (virtualStart physicalStart size : BitVec 32)
    (privileged : Bool) : Bool :=
  if size < 2 ∨ size &&& 1 ≠ 0 ∨ virtualStart &&& 1 ≠ 0 ∨ physicalStart &&& 1 ≠ 0 then false
  else
    let virtualEnd := virtualStart.toNat + size.toNat
    let physicalEnd := physicalStart.toNat + size.toNat
    if virtualEnd > 2 ^ 32 ∨ physicalEnd > 2 ^ 32 then false
    else
      let translatedAt := s.translatedAt virtualStart physicalStart privileged
      if !translatedAt 0 || !translatedAt (size - 2) then false
      else
        boundariesTranslated translatedAt virtualStart.toNat virtualEnd
          ((virtualStart.toNat / 1024 + 1) * 1024)

variable {virtualStart physicalStart : BitVec 32}

theorem translatedAt_iff {offset : BitVec 32} :
    s.translatedAt virtualStart physicalStart privileged offset = true ↔
      outcome (s.inspectTranslation (virtualStart + offset) .instruction privileged) =
        .ok (physicalStart + offset) := by
  unfold translatedAt
  cases s.inspectTranslation (virtualStart + offset) .instruction privileged with
  | error fault => simp [outcome]
  | ok result => simp [outcome]

theorem boundariesTranslated_iff {translatedAt : BitVec 32 → Bool}
    {virtualStart virtualEnd boundary : Nat} :
    boundariesTranslated translatedAt virtualStart virtualEnd boundary = true ↔
      ∀ count, boundary + 1024 * count < virtualEnd →
        translatedAt (BitVec.ofNat 32 (boundary + 1024 * count - virtualStart)) = true ∧
          translatedAt (BitVec.ofNat 32 (boundary + 1024 * count - virtualStart) - 2) = true := by
  fun_induction boundariesTranslated translatedAt virtualStart virtualEnd boundary with
  | case1 boundary hinside offset hbad =>
    simp only [Bool.false_eq_true, false_iff]
    intro hall
    have hhead := hall 0 (by simpa using hinside)
    simp only [mul_zero, add_zero] at hhead
    have hoffset : translatedAt offset = true := hhead.1
    have hbefore : translatedAt (offset - 2) = true := hhead.2
    rw [hoffset, hbefore] at hbad
    cases hbad
  | case2 boundary hinside offset hgood ih =>
    rw [ih]
    simp only [Bool.or_eq_true, Bool.not_eq_true', not_or, Bool.not_eq_false] at hgood
    constructor
    · intro hrest count hcount
      cases count with
      | zero => simpa using hgood
      | succ count =>
        have heq : boundary + 1024 * (count + 1) = boundary + 1024 + 1024 * count := by ring
        rw [heq] at hcount ⊢
        exact hrest count hcount
    · intro hall count hcount
      have heq : boundary + 1024 + 1024 * count = boundary + 1024 * (count + 1) := by ring
      rw [heq] at hcount ⊢
      exact hall (count + 1) hcount
  | case3 boundary houtside =>
    simp only [true_iff]
    intro count hcount
    omega

theorem even_iff (word : BitVec 32) : word &&& 1 = 0 ↔ word.toNat % 2 = 0 := by
  rw [← BitVec.toNat_inj, BitVec.toNat_and]
  change word.toNat &&& 1 = 0 ↔ _
  rw [Nat.and_one_is_mod]

theorem toNat_offset {start : BitVec 32} {offset : Nat} (h : start.toNat + offset < 2 ^ 32) :
    (start + BitVec.ofNat 32 offset).toNat = start.toNat + offset := by
  rw [BitVec.toNat_add, BitVec.toNat_ofNat, Nat.mod_eq_of_lt (by omega : offset < 2 ^ 32),
    Nat.mod_eq_of_lt h]

/-- The access at the address goes to the physical address, also past what the ITLB holds. -/
structure TranslatesTo (s : RuntimeAddressSpace) (access : TranslationAccess) (privileged : Bool)
    (address : BitVec 32) (physical : Nat) : Prop where
  inspected : ∃ word : BitVec 32, word.toNat = physical ∧
    outcome (s.inspectTranslation address access privileged) = .ok word
  translated : ∃ word : BitVec 32, word.toNat = physical ∧
    outcome (s.translate address access privileged).1 = .ok word

variable {physical : BitVec 32}

theorem inspectTranslation_of_outcome
    (h : outcome (s.inspectTranslation address access privileged) = .ok physical) :
    ∃ result, s.inspectTranslation address access privileged = .ok result ∧
      result.physicalAddress = physical := by
  cases hresult : s.inspectTranslation address access privileged with
  | error fault =>
    rw [hresult] at h
    cases h
  | ok result =>
    rw [hresult] at h
    cases h
    exact ⟨result, rfl, rfl⟩

/-- From one probe to every address of its KiB. -/
theorem Cached.translatesTo (hs : Cached s) {probe : BitVec 32} {target : Nat}
    (hprobe : outcome (s.inspectTranslation probe access privileged) = .ok physical)
    (hsame : SameKiB probe address) (heven : access = .instruction → address &&& 1 = 0)
    (htarget : (physical + (address - probe)).toNat = target) :
    s.TranslatesTo access privileged address target := by
  obtain ⟨result, hresult, hphysical⟩ := inspectTranslation_of_outcome hprobe
  have hshifted := hsame.inspectTranslation hs heven hresult
  have hword : (shifted result address).physicalAddress = physical + (address - probe) := by
    simp only [shifted, hphysical, virtualAddress_inspectTranslation hresult]
  refine ⟨⟨_, htarget, ?_⟩, ⟨_, htarget, ?_⟩⟩
  · rw [hshifted, ← hword]
    rfl
  · rw [← hword]
    exact hs.outcome_translate hshifted

/-! ## The physical addresses of instructions -/

/-- The number of the area of a page is that of every address in it. -/
theorem area_of_page (places : Nat) {page offset : Nat} (hplaces : places ≤ 26)
    (haligned : page % 2 ^ places = 0) (hoffset : offset < 2 ^ places) :
    (page + offset) / 2 ^ 26 = page / 2 ^ 26 := by
  obtain ⟨rest, hrest⟩ := Nat.pow_dvd_pow 2 hplaces
  obtain ⟨count, rfl⟩ := Nat.dvd_of_mod_eq_zero haligned
  have hpos : 0 < 2 ^ places := Nat.two_pow_pos places
  rw [hrest, ← Nat.div_div_eq_div_mul, ← Nat.div_div_eq_div_mul, Nat.mul_add_div hpos,
    Nat.div_eq_of_lt hoffset, add_zero, Nat.mul_div_cancel_left _ hpos]

/-- Every physical address that an instruction is fetched from is even and folded. -/
theorem Cached.physical_folded (hs : Cached s) (heven : address &&& 1 = 0)
    (h : outcome (s.inspectTranslation address .instruction privileged) = .ok physical) :
    physical.toNat % 2 = 0 ∧ Runtime.canonicalPhysicalAddress physical = physical := by
  obtain ⟨result, hresult, rfl⟩ := inspectTranslation_of_outcome h
  rw [even_iff] at heven
  rcases inspectTranslation_cases hresult with ⟨rfl, -⟩ | ⟨hmapped, -⟩
  · refine ⟨?_, canonicalPhysicalAddress_idem address⟩
    change (Runtime.canonicalPhysicalAddress address).toNat % 2 = 0
    rw [toNat_canonicalPhysicalAddress_eq]
    split_ifs <;> omega
  · obtain ⟨found, hfound, hfinish⟩ := translateMapped_cases hmapped
    obtain ⟨hmem, hhits, -⟩ := utlbLookup_ok hfound
    obtain ⟨-, hfrom, hto, -⟩ := hits_valid hhits
    have hstored := hs.pages found hmem
    obtain ⟨hvirtual, hsize⟩ := hstored.bounds
    obtain ⟨places, hplaces, hlarge, hpow⟩ := validPageSize_pow hstored.size
    have hfolded := (canonicalPhysicalAddress_eq_self_iff _).mp hstored.folded
    have haligned := congrArg BitVec.toNat hstored.physicalAligned
    rw [BitVec.toNat_umod, hpow] at haligned
    change found.physicalPage.toNat % 2 ^ places = 0 at haligned
    have harea := area_of_page places (by omega) haligned
      (by omega : address.toNat - found.virtualPage.toNat < 2 ^ places)
    have hphysical : found.physicalPage.toNat % 2 = 0 := by
      have hdvd : 2 ∣ 2 ^ places := Nat.pow_dvd_pow 2 (by omega : 1 ≤ places)
      exact Nat.mod_eq_zero_of_dvd (hdvd.trans (Nat.dvd_of_mod_eq_zero haligned))
    have hlt := found.physicalPage.isLt
    have hword : result.physicalAddress.toNat =
        found.physicalPage.toNat + (address.toNat - found.virtualPage.toNat) := by
      rw [(finishTranslation_ok hfinish).2.2, BitVec.toNat_add,
        BitVec.toNat_sub_of_le (BitVec.le_def.mpr hfrom), Nat.mod_eq_of_lt]
      omega
    refine ⟨by omega, ?_⟩
    rw [canonicalPhysicalAddress_eq_self_iff, hword, harea]
    exact hfolded

/-! ## The probes prove the range -/

theorem Cached.proveInstructionMapping_sound (hs : Cached s) {size : BitVec 32}
    (h : s.proveInstructionMapping virtualStart physicalStart size privileged = true) :
    ∀ offset < size.toNat, offset % 2 = 0 →
      s.TranslatesTo .instruction privileged (virtualStart + BitVec.ofNat 32 offset)
        (physicalStart.toNat + offset) := by
  unfold proveInstructionMapping at h
  split at h
  · cases h
  rename_i hshape
  simp only [not_or, not_not] at hshape
  obtain ⟨-, -, hvirtual, -⟩ := hshape
  rw [even_iff] at hvirtual
  dsimp only at h
  split at h
  · cases h
  rename_i hends
  rw [not_or, not_lt, not_lt] at hends
  split at h
  · cases h
  rename_i hprobed
  simp only [Bool.or_eq_true, Bool.not_eq_true', not_or, Bool.not_eq_false] at hprobed
  rw [boundariesTranslated_iff] at h
  intro offset hoffset heven
  have haddress : (virtualStart + BitVec.ofNat 32 offset).toNat = virtualStart.toNat + offset :=
    toNat_offset (by omega)
  have hphysical : (physicalStart + BitVec.ofNat 32 offset).toNat = physicalStart.toNat + offset :=
    toNat_offset (by omega)
  have hword : (virtualStart + BitVec.ofNat 32 offset) &&& 1 = 0 := by
    rw [even_iff, haddress]
    omega
  -- the probe is the start of the range or the last bound before the address
  have hfrom : ∀ probe ≤ offset, s.translatedAt virtualStart physicalStart privileged
      (BitVec.ofNat 32 probe) = true →
      (virtualStart.toNat + probe) / 1024 = (virtualStart.toNat + offset) / 1024 →
      s.TranslatesTo .instruction privileged (virtualStart + BitVec.ofNat 32 offset)
        (physicalStart.toNat + offset) := by
    intro probe hprobe htranslated hsame
    refine hs.translatesTo (translatedAt_iff.mp htranslated) ?_ (fun _ => hword) ?_
    · unfold SameKiB
      rw [toNat_offset (by omega), haddress, hsame]
    · rw [← hphysical]
      congr 1
      bv_omega
  by_cases hfirst : (virtualStart.toNat + offset) / 1024 = virtualStart.toNat / 1024
  · exact hfrom 0 (Nat.zero_le _) hprobed.1 (by omega)
  · obtain ⟨htranslated, -⟩ := h ((virtualStart.toNat + offset) / 1024 -
      (virtualStart.toNat / 1024 + 1)) (by omega)
    exact hfrom _ (by omega) htranslated (by omega)

/-- An address in the control area is not one of an instruction. -/
theorem inspectTranslation_control (h : 0xE0000000 ≤ address.toNat) (physical : BitVec 32) :
    outcome (s.inspectTranslation address .instruction privileged) ≠ .ok physical := by
  have hpath : s.instructionTranslationPath address privileged = .invalid := by
    have hlt := address.isLt
    have hchip : ¬ address &&& (0xFC000000 : BitVec 32) = sh4OnChipRamAddress := by
      rw [show sh4OnChipRamAddress = 0x7C000000 from rfl, KatanaRecomp.Runtime.onChip_iff]
      omega
    have hsegment : address >>> 29 = 7 := by
      rw [← BitVec.toNat_inj, BitVec.toNat_ushiftRight, Nat.shiftRight_eq_div_pow]
      change _ = 7
      omega
    unfold instructionTranslationPath
    dsimp only
    rw [if_neg hchip, hsegment, if_neg (by decide : ¬ ((7 : BitVec 32) = 4 ∨ (7 : BitVec 32) = 5)),
      if_pos (by decide : (7 : BitVec 32) ≥ 7)]
    split <;> rfl
  unfold inspectTranslation translateImpl
  simp only [if_true, hpath]
  split_ifs <;> simp [outcome]

theorem Cached.proveInstructionMapping_complete (hs : Cached s)
    {size : BitVec 32} (hsize : 2 ≤ size.toNat) (heven : size.toNat % 2 = 0)
    (h : ∀ offset < size.toNat, offset % 2 = 0 → ∃ physical : BitVec 32,
      physical.toNat = physicalStart.toNat + offset ∧
        outcome (s.inspectTranslation (virtualStart + BitVec.ofNat 32 offset) .instruction
          privileged) = .ok physical) :
    s.proveInstructionMapping virtualStart physicalStart size privileged = true := by
  have hvlt := virtualStart.isLt
  have hslt := size.isLt
  have hword : ∀ offset < size.toNat, offset % 2 = 0 →
      s.translatedAt virtualStart physicalStart privileged (BitVec.ofNat 32 offset) = true := by
    intro offset hoffset hoffsetEven
    obtain ⟨physical, hphysical, hshown⟩ := h offset hoffset hoffsetEven
    rw [translatedAt_iff, hshown]
    refine congrArg Except.ok (BitVec.eq_of_toNat_eq ?_)
    have hlt := physical.isLt
    rw [hphysical, toNat_offset (by omega)]
  obtain ⟨first, hfirst, hstart⟩ := h 0 (by omega) rfl
  rw [show virtualStart + BitVec.ofNat 32 0 = virtualStart by simp] at hstart
  have hvirtual : virtualStart &&& 1 = 0 := by
    by_contra hodd
    unfold inspectTranslation translateImpl at hstart
    simp only [if_true] at hstart
    rw [if_pos hodd] at hstart
    cases hstart
  have hphysical : physicalStart &&& 1 = 0 := by
    rw [even_iff]
    have hfolded := (hs.physical_folded hvirtual hstart).1
    omega
  have hlow : virtualStart.toNat < 0xE0000000 := by
    by_contra hhigh
    exact inspectTranslation_control (not_lt.mp hhigh) first hstart
  rw [even_iff] at hvirtual hphysical
  have hend : virtualStart.toNat + size.toNat ≤ 2 ^ 32 := by
    by_contra hbeyond
    obtain ⟨physical, -, hshown⟩ := h (0xE0000000 - virtualStart.toNat) (by omega) (by omega)
    refine inspectTranslation_control (Eq.ge ?_) physical hshown
    rw [toNat_offset (by omega)]
    omega
  have hphysicalEnd : physicalStart.toNat + size.toNat ≤ 2 ^ 32 := by
    obtain ⟨last, hlast, -⟩ := h (size.toNat - 2) (by omega) (by omega)
    have hlt := last.isLt
    omega
  have hlastWord : size - 2 = BitVec.ofNat 32 (size.toNat - 2) := by bv_omega
  unfold proveInstructionMapping
  rw [if_neg]
  · dsimp only
    rw [if_neg (by omega), if_neg]
    · rw [boundariesTranslated_iff]
      intro count hcount
      refine ⟨hword _ (by omega) (by omega), ?_⟩
      have hbefore : BitVec.ofNat 32 ((virtualStart.toNat / 1024 + 1) * 1024 + 1024 * count -
          virtualStart.toNat) - 2 = BitVec.ofNat 32 ((virtualStart.toNat / 1024 + 1) * 1024 +
            1024 * count - virtualStart.toNat - 2) := by
        rw [← BitVec.toNat_inj, BitVec.toNat_sub, BitVec.toNat_ofNat, BitVec.toNat_ofNat]
        change (2 ^ 32 - 2 + _) % 2 ^ 32 = _
        omega
      rw [hbefore]
      exact hword _ (by omega) (by omega)
    · rw [hlastWord, hword _ (by omega) (by omega)]
      have hzero : s.translatedAt virtualStart physicalStart privileged 0 = true :=
        hword 0 (by omega) rfl
      rw [hzero]
      simp
  · rintro (hsmall | hodd | hodd | hodd)
    · exact absurd (BitVec.lt_def.mp hsmall) (Nat.not_lt.mpr hsize)
    · exact hodd ((even_iff size).mpr heven)
    · exact hodd ((even_iff virtualStart).mpr hvirtual)
    · exact hodd ((even_iff physicalStart).mpr hphysical)

end RuntimeAddressSpace

/-! ## Guest buffers -/

inductive GuestBufferAccess
  | read | write

def GuestBufferAccess.translationAccess : GuestBufferAccess → TranslationAccess
  | .write => .write
  | .read => .read

structure GuestAddressSpaceBinding where
  addressSpace : Option RuntimeAddressSpace := none
  privileged : Bool := true

structure GuestLinearBuffer where
  guestAddress : BitVec 32 := 0
  physicalAddress : BitVec 32 := 0
  size : Nat := 0
  alignment : Nat := 1
  access : GuestBufferAccess := .read

namespace GuestAddressSpaceBinding
open RuntimeAddressSpace
variable (binding : GuestAddressSpaceBinding)

/-- Without an address space, a new one that has no MMU. -/
def space : RuntimeAddressSpace := binding.addressSpace.getD {}

def translateBoundAddress (address : BitVec 32) (access : GuestBufferAccess) :
    Except TranslationError (BitVec 32) :=
  (binding.space.translate address access.translationAccess binding.privileged).1.map
    (·.physicalAddress)

def minimumSh4PageSize : Nat := 1024

/-- The loop over the pages behind the first one. A `TranslationError` ends the whole function
there. -/
def laterPagesTranslated (guestAddress first : BitVec 32) (access : GuestBufferAccess)
    (size offset : Nat) : Bool :=
  if offset < size then
    match binding.translateBoundAddress (guestAddress + BitVec.ofNat 32 offset) access with
    | .error _ => false
    | .ok translated =>
      if translated.toNat ≠ first.toNat + offset then false
      else
        laterPagesTranslated guestAddress first access size
          (offset + min minimumSh4PageSize (size - offset))
  else true
termination_by size - offset
decreasing_by
  unfold minimumSh4PageSize
  omega

def resolveGuestBuffer (memory : Memory) (guestAddress : BitVec 32) (size alignment : Nat)
    (access : GuestBufferAccess) : Option GuestLinearBuffer :=
  if alignment = 0 ∨ guestAddress.toNat % alignment ≠ 0 ∨ size > 2 ^ 32 - guestAddress.toNat then
    none
  else if size = 0 then some ⟨guestAddress, 0, 0, alignment, access⟩
  else
    match binding.translateBoundAddress guestAddress access with
    | .error _ => none
    | .ok first =>
      let offset := min size (minimumSh4PageSize - guestAddress.toNat % minimumSh4PageSize)
      if binding.laterPagesTranslated guestAddress first access size offset = false then none
      else if first.toNat + size > 2 ^ 32 then none
      else
        let linear :=
          match access with
          | .write => memory.isWritableLinearRange first size
          | .read => memory.isReadableLinearRange first size
        if linear then some ⟨guestAddress, first, size, alignment, access⟩ else none

variable {binding} {access : GuestBufferAccess}

/-- A data access does not use the ITLB. -/
theorem translateBoundAddress_ok {address physical : BitVec 32}
    (h : binding.translateBoundAddress address access = .ok physical) :
    outcome (binding.space.inspectTranslation address access.translationAccess
      binding.privileged) = .ok physical := by
  have hdata : access.translationAccess ≠ .instruction := by cases access <;> decide
  have hsame : (binding.space.translate address access.translationAccess binding.privileged).1 =
      binding.space.inspectTranslation address access.translationAccess binding.privileged := by
    unfold RuntimeAddressSpace.translate inspectTranslation translateImpl translateMapped
    simp only [hdata, if_false, false_and]
  unfold translateBoundAddress at h
  rw [hsame] at h
  cases hresult : binding.space.inspectTranslation address access.translationAccess
      binding.privileged with
  | error fault =>
    rw [hresult] at h
    cases h
  | ok result =>
    rw [hresult] at h
    cases h
    rfl

theorem laterPagesTranslated_sound {guestAddress first : BitVec 32} {size offset : Nat}
    (h : binding.laterPagesTranslated guestAddress first access size offset = true) :
    ∀ count, offset + 1024 * count < size → ∃ translated : BitVec 32,
      translated.toNat = first.toNat + (offset + 1024 * count) ∧ binding.translateBoundAddress
          (guestAddress + BitVec.ofNat 32 (offset + 1024 * count)) access = .ok translated := by
  fun_induction laterPagesTranslated binding guestAddress first access size offset with
  | case1 offset hinside fault hfault => cases h
  | case2 offset hinside translated htranslated hne => cases h
  | case3 offset hinside translated htranslated heq ih =>
    intro count hcount
    cases count with
    | zero => exact ⟨translated, by simpa using heq, by simpa using htranslated⟩
    | succ count =>
      have hstep : min minimumSh4PageSize (size - offset) = 1024 := by
        unfold minimumSh4PageSize
        omega
      rw [hstep] at h ih
      have hshift : offset + 1024 * (count + 1) = offset + 1024 + 1024 * count := by ring
      rw [hshift] at hcount ⊢
      exact ih h count hcount
  | case4 offset houtside =>
    intro count hcount
    omega

theorem resolveGuestBuffer_sound (hs : Cached binding.space) {memory : Memory}
    {guestAddress : BitVec 32} {size alignment : Nat} {buffer : GuestLinearBuffer}
    (h : binding.resolveGuestBuffer memory guestAddress size alignment access = some buffer) :
    ∀ index < size, binding.space.TranslatesTo access.translationAccess binding.privileged
      (guestAddress + BitVec.ofNat 32 index) (buffer.physicalAddress.toNat + index) := by
  intro index hindex
  have hdata : access.translationAccess ≠ .instruction := by cases access <;> decide
  have hlt := guestAddress.isLt
  unfold resolveGuestBuffer at h
  split at h
  · cases h
  rename_i hshape
  rw [not_or, not_or, not_lt] at hshape
  rw [if_neg (by omega)] at h
  split at h
  · cases h
  rename_i first hfirst
  dsimp only at h
  split at h
  · cases h
  rename_i hlater
  rw [Bool.not_eq_false] at hlater
  split at h
  · cases h
  rename_i hend
  have hbuffer : buffer.physicalAddress = first := by
    split at h <;> split at h <;> cases h <;> rfl
  have hlaterPages := laterPagesTranslated_sound hlater
  rw [hbuffer]
  have haddress : (guestAddress + BitVec.ofNat 32 index).toNat = guestAddress.toNat + index :=
    toNat_offset (by omega)
  have hphysical : (first + BitVec.ofNat 32 index).toNat = first.toNat + index :=
    toNat_offset (by omega)
  -- the probe is the first address or the start of the page of the byte
  have hfrom : ∀ probe ≤ index, ∀ translated : BitVec 32, translated.toNat = first.toNat + probe →
      binding.translateBoundAddress (guestAddress + BitVec.ofNat 32 probe) access = .ok translated →
      (guestAddress.toNat + probe) / 1024 = (guestAddress.toNat + index) / 1024 →
      binding.space.TranslatesTo access.translationAccess binding.privileged
        (guestAddress + BitVec.ofNat 32 index) (first.toNat + index) := by
    intro probe hprobe translated hword htranslated hsame
    refine hs.translatesTo (translateBoundAddress_ok htranslated) ?_
      (fun heq => absurd heq hdata) ?_
    · unfold SameKiB
      rw [toNat_offset (by omega), haddress, hsame]
    · have htranslatedWord : translated = first + BitVec.ofNat 32 probe := by
        rw [← BitVec.toNat_inj, hword, toNat_offset (by omega)]
      rw [← hphysical, htranslatedWord]
      congr 1
      bv_omega
  by_cases hsame : (guestAddress.toNat + index) / 1024 = guestAddress.toNat / 1024
  · exact hfrom 0 (Nat.zero_le _) first (by simp) (by simpa using hfirst) (by omega)
  · have hoffset : min size (minimumSh4PageSize - guestAddress.toNat % minimumSh4PageSize) =
        1024 - guestAddress.toNat % 1024 := by
      unfold minimumSh4PageSize
      omega
    rw [hoffset] at hlaterPages
    obtain ⟨translated, hword, htranslated⟩ := hlaterPages
      ((guestAddress.toNat + index) / 1024 - (guestAddress.toNat / 1024 + 1)) (by omega)
    exact hfrom _ (by omega) translated hword htranslated (by omega)

end GuestAddressSpaceBinding

namespace RuntimeAddressSpace

/-- In every state that a run reaches the probes of an instruction range prove it, and refuse no
range of whole instructions that holds; a resolved buffer is translated byte by byte. -/
theorem probes_prove_mapping (operations : List Operation) :
    (∀ virtualStart physicalStart size privileged,
        (run {} operations).proveInstructionMapping virtualStart physicalStart size privileged =
            true → ∀ offset < size.toNat, offset % 2 = 0 →
            (run {} operations).TranslatesTo .instruction privileged
              (virtualStart + BitVec.ofNat 32 offset) (physicalStart.toNat + offset)) ∧
      (∀ virtualStart physicalStart size privileged, 2 ≤ size.toNat → size.toNat % 2 = 0 →
        (∀ offset < size.toNat, offset % 2 = 0 → ∃ physical : BitVec 32,
          physical.toNat = physicalStart.toNat + offset ∧
            outcome ((run {} operations).inspectTranslation
              (virtualStart + BitVec.ofNat 32 offset) .instruction privileged) = .ok physical) →
          (run {} operations).proveInstructionMapping virtualStart physicalStart size privileged =
            true) ∧ ∀ binding : GuestAddressSpaceBinding, binding.space = run {} operations →
        ∀ memory guestAddress size alignment access buffer,
          binding.resolveGuestBuffer memory guestAddress size alignment access = some buffer →
            ∀ index < size, (run {} operations).TranslatesTo access.translationAccess
              binding.privileged (guestAddress + BitVec.ofNat 32 index)
                (buffer.physicalAddress.toNat + index) := by
  have hs := cached_run operations
  refine ⟨fun _ _ _ _ => hs.proveInstructionMapping_sound,
    fun _ _ _ _ => hs.proveInstructionMapping_complete, ?_⟩
  intro binding hspace memory guestAddress size alignment access buffer hbuffer
  have hsound := GuestAddressSpaceBinding.resolveGuestBuffer_sound (hspace ▸ hs) hbuffer
  rwa [hspace] at hsound

/-- A range without an instruction is refused, though none of its addresses goes elsewhere. -/
theorem probes_not_complete : ¬ ∀ operations virtualStart physicalStart size privileged,
      (∀ offset < size.toNat, offset % 2 = 0 →
        (run {} operations).TranslatesTo .instruction privileged
          (virtualStart + BitVec.ofNat 32 offset) (physicalStart.toNat + offset)) →
        (run {} operations).proveInstructionMapping virtualStart physicalStart size privileged =
          true := by
  intro hcomplete
  have hempty := hcomplete [] 0 0 0 true fun offset hoffset => absurd hoffset (Nat.not_lt_zero _)
  cases hempty

end RuntimeAddressSpace
end KatanaRecomp.Runtime
