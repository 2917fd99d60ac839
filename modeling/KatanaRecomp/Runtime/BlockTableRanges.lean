import KatanaRecomp.Runtime.BlockDispatch
import KatanaRecomp.Runtime.PhysicalAddress

/-! # The ranges of active blocks

Within a variant the ranges of active blocks are apart, unless the table notes that
contextual blocks overlap; then they start at different addresses and lead to the
same physical bytes. The search for an overlap looks at two neighbours as long as
nothing overlaps, and that is enough. -/
namespace KatanaRecomp.Runtime.RuntimeBlockTable
open Lib

/-! ## Two blocks -/

/-- Two blocks may be active side by side. -/
def Compatible (overlaps : Bool) (left right : RuntimeBlock) : Prop :=
  left.variant = right.variant →
    rangesOverlap left.virtualStart left.size right.virtualStart right.size = true →
      overlaps = true ∧ left.virtualStart ≠ right.virtualStart ∧
        compatiblePhysicalOverlap left right = true

theorem rangesOverlap_comm (start size start' size' : BitVec 32) :
    rangesOverlap start size start' size' = rangesOverlap start' size' start size :=
  Bool.and_comm _ _

theorem rangesOverlap_iff {start size start' size' : BitVec 32} :
    rangesOverlap start size start' size' = true ↔
      start.toNat < start'.toNat + size'.toNat ∧ start'.toNat < start.toNat + size.toNat := by
  simp [rangesOverlap]

theorem compatiblePhysicalOverlap_comm (left right : RuntimeBlock) :
    compatiblePhysicalOverlap left right = compatiblePhysicalOverlap right left := by
  unfold compatiblePhysicalOverlap
  rw [Nat.max_comm]
  exact decide_eq_decide.mpr eq_comm

variable {left : RuntimeBlock} {right : RuntimeBlock}

theorem Compatible.symm {overlaps : Bool}
    (h : Compatible overlaps left right) : Compatible overlaps right left := by
  intro hvariant hoverlap
  rw [rangesOverlap_comm] at hoverlap
  obtain ⟨hflag, hstart, hphysical⟩ := h hvariant.symm hoverlap
  exact ⟨hflag, hstart.symm, compatiblePhysicalOverlap_comm left right ▸ hphysical⟩

theorem Compatible.mono {overlaps overlaps' : Bool} {left right : RuntimeBlock}
    (h : Compatible overlaps left right) (himp : overlaps = true → overlaps' = true) :
    Compatible overlaps' left right := fun hvariant hoverlap =>
  (h hvariant hoverlap).imp_left himp

/-- The blocks cover the same addresses, virtual and physical. -/
structure SameRange (left right : RuntimeBlock) : Prop where
  variant : left.variant = right.variant
  start : left.virtualStart = right.virtualStart
  size : left.size = right.size
  physical : canonicalPhysicalAddress left.physicalOrigin =
    canonicalPhysicalAddress right.physicalOrigin

theorem SameRange.compatible {overlaps : Bool} {left' : RuntimeBlock}
    (hsame : SameRange left left') (h : Compatible overlaps left' right) :
    Compatible overlaps left right := by
  unfold Compatible compatiblePhysicalOverlap at h ⊢
  rw [hsame.variant, hsame.start, hsame.size, hsame.physical]
  exact h

variable {block : RuntimeBlock} {runtimeRegistered : Bool} {stored : RuntimeBlock}

theorem prepareBlock_sameRange
    (h : prepareBlock block runtimeRegistered = .ok stored) : SameRange stored block := by
  simp only [prepareBlock] at h
  split at h
  · cases h
  · cases h
    exact ⟨rfl, rfl, rfl, canonicalPhysicalAddress_idem _⟩

/-! ## The invariant -/

/-- The record of an id is active. -/
def ActiveRecord (t : RuntimeBlockTable) (id : Nat) (record : Record) : Prop :=
  t.records id = some record ∧ record.active = true

/-- The block went through the checks of an insertion. -/
def Prepared (block : RuntimeBlock) : Prop :=
  ∃ source runtimeRegistered, prepareBlock source runtimeRegistered = .ok block

/-- The active blocks are checked and may be active side by side. -/
structure RangesOk (t : RuntimeBlockTable) : Prop where
  prepared : ∀ id record, t.ActiveRecord id record → Prepared record.block
  compatible : ∀ id id' record record', id ≠ id' → t.ActiveRecord id record →
    t.ActiveRecord id' record' → Compatible t.contextualVirtualOverlaps record.block record'.block

variable {t t' : RuntimeBlockTable}

theorem RangesOk.of_inactive (h : ∀ id, t.records id = none) : RangesOk t := by
  constructor
  · rintro id record ⟨hrecord, -⟩
    rw [h id] at hrecord
    cases hrecord
  · rintro id id' record record' - ⟨hrecord, -⟩
    rw [h id] at hrecord
    cases hrecord

/-- Nothing becomes active, and the note stays. -/
structure Shrinks (t t' : RuntimeBlockTable) : Prop where
  overlaps : t'.contextualVirtualOverlaps = t.contextualVirtualOverlaps
  active : ∀ id record', t'.ActiveRecord id record' →
    ∃ record, t.ActiveRecord id record ∧ record.block = record'.block

theorem Shrinks.refl (t : RuntimeBlockTable) : Shrinks t t :=
  ⟨rfl, fun _ record' h => ⟨record', h, rfl⟩⟩

theorem Shrinks.trans {t'' : RuntimeBlockTable} (h : Shrinks t t') (h' : Shrinks t' t'') :
    Shrinks t t'' := by
  refine ⟨h'.overlaps.trans h.overlaps, fun id record'' hactive => ?_⟩
  obtain ⟨record', hactive', hblock'⟩ := h'.active id record'' hactive
  obtain ⟨record, hactive, hblock⟩ := h.active id record' hactive'
  exact ⟨record, hactive, hblock.trans hblock'⟩

theorem RangesOk.shrinks (h : RangesOk t) (hshrinks : Shrinks t t') : RangesOk t' := by
  constructor
  · intro id record hrecord
    obtain ⟨record', hrecord', hblock⟩ := hshrinks.active id record hrecord
    exact hblock ▸ h.prepared id record' hrecord'
  · intro id id' left right hne hleft hright
    obtain ⟨left', hleft', hblock⟩ := hshrinks.active id left hleft
    obtain ⟨right', hright', hblock'⟩ := hshrinks.active id' right hright
    rw [hshrinks.overlaps, ← hblock, ← hblock']
    exact h.compatible id id' left' right' hne hleft' hright'

/-- The table with its records and its note. -/
theorem Shrinks.of_eq (hrecords : t'.records = t.records)
    (hoverlaps : t'.contextualVirtualOverlaps = t.contextualVirtualOverlaps) : Shrinks t t' := by
  refine ⟨hoverlaps, fun id record h => ⟨record, ?_, rfl⟩⟩
  unfold ActiveRecord at h ⊢
  rwa [hrecords] at h

section
variable (t : RuntimeBlockTable)

@[simp]
theorem activate_contextualVirtualOverlaps (id : Nat) (record : Record) :
    (t.activate id record).contextualVirtualOverlaps = t.contextualVirtualOverlaps :=
  (activate_untouched t id record).contextualVirtualOverlaps

@[simp]
theorem retire_contextualVirtualOverlaps (id : Nat) (record : Record) :
    (t.retire id record).contextualVirtualOverlaps = t.contextualVirtualOverlaps :=
  (retire_untouched t id record).contextualVirtualOverlaps

theorem retire_shrinks (id : Nat) (record : Record) : Shrinks t (t.retire id record) := by
  refine ⟨retire_contextualVirtualOverlaps t id record, fun id' record' h => ?_⟩
  obtain ⟨hrecord, hactive⟩ := h
  rw [retire_records, Function.update_apply] at hrecord
  split at hrecord
  · cases hrecord
    cases hactive
  · exact ⟨record', ⟨hrecord, hactive⟩, rfl⟩

theorem deactivate_shrinks (id : Nat) : Shrinks t (t.deactivate id) := by
  unfold deactivate
  split
  · exact .refl t
  split
  · exact retire_shrinks t id _
  · exact .refl t

theorem deactivateAll_shrinks (ids : List Nat) : Shrinks t (t.deactivateAll ids) := by
  induction ids generalizing t with
  | nil => exact .refl t
  | cons id rest ih => exact (deactivate_shrinks t id).trans (ih (t.deactivate id))

end

theorem sweepCandidate_shrinks (reached : RuntimeBlock → Bool) (s : BatchSweep) (id : Nat) :
    Shrinks s.table (sweepCandidate reached s id).table := by
  unfold sweepCandidate
  split
  · exact .refl s.table
  split
  · exact .refl s.table
  · dsimp only
    split
    · exact deactivate_shrinks s.table id
    · exact .refl s.table

theorem sweepPages_shrinks (reached : RuntimeBlock → Bool) (s : BatchSweep)
    (seen pages : List Nat) : Shrinks s.table (sweepPages reached s seen pages).table := by
  have hpage : ∀ (ids : List Nat) (s : BatchSweep),
      Shrinks s.table (ids.foldl (sweepCandidate reached) s).table := by
    intro ids
    induction ids with
    | nil => exact fun s => .refl s.table
    | cons id rest ih => exact fun s => (sweepCandidate_shrinks reached s id).trans (ih _)
  induction pages generalizing s seen with
  | nil => exact .refl s.table
  | cons page rest ih =>
    unfold sweepPages
    dsimp only
    split
    · exact ih _ _
    · exact (hpage _ s).trans (ih _ _)

theorem sealStatic_shrinks (t : RuntimeBlockTable) : Shrinks t t.sealStatic := by
  unfold sealStatic
  split
  · exact .refl t
  · exact .of_eq rfl rfl

theorem lookup_shrinks (t : RuntimeBlockTable) (trackers : Nat → ExecutableCodeTracker)
    (virtualAddress : BitVec 32) (variant : BlockVariantKey) :
    Shrinks t (t.lookup trackers virtualAddress variant).2 := by
  obtain ⟨counters, hframe⟩ := lookup_frame t trackers virtualAddress variant
  rw [hframe]
  exact .of_eq rfl rfl

/-! ## The search for an overlap -/

/-- A key between two keys of a variant is of that variant. -/
theorem key_within {low high key : VariantAddressKey} (hvariant : low.variant = high.variant)
    (hlow : low ≤ key) (hhigh : key ≤ high) :
    key.variant = low.variant ∧ low.address.toNat ≤ key.address.toNat ∧
      key.address.toNat ≤ high.address.toNat := by
  have hlow' : low.order ≤ key.order := hlow
  have hhigh' : key.order ≤ high.order := hhigh
  unfold VariantAddressKey.order at hlow' hhigh'
  rw [Prod.Lex.toLex_le_toLex] at hlow' hhigh'
  dsimp only at hlow' hhigh'
  rw [← hvariant] at hhigh'
  rcases hlow' with hlt | ⟨heq, hle⟩
  · rcases hhigh' with hlt' | ⟨heq', -⟩
    · exact absurd hlt' hlt.not_gt
    · exact absurd heq' hlt.ne'
  · rcases hhigh' with hlt' | ⟨-, hle'⟩
    · exact absurd heq hlt'.ne'
    · exact ⟨heq.symm, hle, hle'⟩

variable {entry : VariantAddressKey × Nat}

/-- The entry of an active range is an active record of its key. -/
theorem Indexed.active_of_mem (ht : Indexed t) (h : entry ∈ t.activeVirtualRanges.entries) :
    ∃ record, t.ActiveRecord entry.2 record ∧ record.block.key = entry.1 := by
  obtain ⟨record, hrecord, hactive, hkey⟩ :=
    (ht.ranges entry.1 entry.2).mp (OrderedMap.find_of_mem h)
  exact ⟨record, ⟨hrecord, hactive⟩, hkey⟩

variable {id : Nat} {record : Record}

theorem Indexed.mem_of_active (ht : Indexed t)
    (h : t.ActiveRecord id record) : (record.block.key, id) ∈ t.activeVirtualRanges.entries :=
  OrderedMap.mem_of_find ((ht.ranges _ _).mpr ⟨record, h.1, h.2, rfl⟩)

theorem Indexed.mem_activeRanges (ht : Indexed t) (h : t.ActiveRecord id record) :
    (record.block.key, id) ∈ t.activeRanges record.block.variant := by
  refine OrderedMap.mem_walk ((ht.ranges _ _).mpr ⟨record, h.1, h.2, rfl⟩) ?_ ?_
  · show toLex (record.block.variant, 0) ≤
      toLex (record.block.variant, record.block.virtualStart.toNat)
    exact Prod.Lex.toLex_le_toLex.mpr (.inr ⟨rfl, Nat.zero_le _⟩)
  · exact fun x hlow hhigh => decide_eq_true (key_between hlow hhigh)

theorem mem_of_mem_activeRanges {variant : BlockVariantKey} (h : entry ∈ t.activeRanges variant) :
    entry ∈ t.activeVirtualRanges.entries ∧ entry.1.variant = variant :=
  ⟨(List.dropWhile_sublist _).subset ((List.takeWhile_sublist _).subset h),
    by simpa using List.mem_takeWhile_imp h⟩

/-- The block covers bytes that an active block of its variant covers. -/
def Overlapped (t : RuntimeBlockTable) (block : RuntimeBlock) : Prop :=
  ∃ id record, t.ActiveRecord id record ∧ record.block.variant = block.variant ∧
    rangesOverlap block.virtualStart block.size record.block.virtualStart record.block.size = true

variable {ignoredId : Nat}

theorem Indexed.overlapped_of_entry (ht : Indexed t)
    (hentry : entry ∈ t.activeVirtualRanges.entries) (hvariant : entry.1.variant = block.variant)
    (hoverlaps : t.overlapsActive block ignoredId entry = true) : t.Overlapped block := by
  obtain ⟨record, hrecord, hkey⟩ := ht.active_of_mem hentry
  unfold overlapsActive at hoverlaps
  rw [hrecord.1, Bool.and_eq_true] at hoverlaps
  refine ⟨entry.2, record, hrecord, ?_, hoverlaps.2⟩
  rw [← hvariant, ← hkey]
  rfl

/-- An inactive record is not among those that are searched. -/
theorem overlapsActive_of_active (hignored : ∀ record, ¬ t.ActiveRecord ignoredId record)
    (hrecord : t.ActiveRecord id record) (key : VariantAddressKey) :
    t.overlapsActive block ignoredId (key, id) =
      rangesOverlap block.virtualStart block.size record.block.virtualStart record.block.size := by
  have hne : id ≠ ignoredId := by
    rintro rfl
    exact hignored record hrecord
  unfold overlapsActive
  rw [hrecord.1, bne_iff_ne.mpr hne, Bool.true_and]
  rfl

/-- What the two neighbours of a key are asked. -/
def neighbourOverlaps (t : RuntimeBlockTable) (block : RuntimeBlock) (ignoredId : Nat)
    (entry : VariantAddressKey × Nat) : Bool :=
  decide (entry.1.variant = block.variant) && t.overlapsActive block ignoredId entry

theorem overlappingActiveVirtual_neighbours (hapart : t.contextualVirtualOverlaps = false) :
    (t.overlappingActiveVirtual block ignoredId).isSome =
      (((t.activeVirtualRanges.lowerBound block.key).head?.filter
          (t.neighbourOverlaps block ignoredId)).isSome ||
        ((t.activeVirtualRanges.previous block.key).filter
          (t.neighbourOverlaps block ignoredId)).isSome) := by
  unfold overlappingActiveVirtual
  rw [hapart, if_neg Bool.false_ne_true]
  dsimp only
  split
  · rename_i next hnext
    have hnext' : (t.activeVirtualRanges.lowerBound block.key).head?.filter
        (t.neighbourOverlaps block ignoredId) = some next := hnext
    rw [hnext']
    rfl
  · rename_i hnext
    have hnext' : (t.activeVirtualRanges.lowerBound block.key).head?.filter
        (t.neighbourOverlaps block ignoredId) = none := hnext
    rw [hnext']
    exact Option.isSome_map

/-- The full search meets every active block of the variant. -/
theorem Indexed.full_search (ht : Indexed t)
    (hignored : ∀ record, ¬ t.ActiveRecord ignoredId record) :
    ((t.activeRanges block.variant).find? (t.overlapsActive block ignoredId)).isSome = true ↔
      t.Overlapped block := by
  rw [List.find?_isSome]
  constructor
  · rintro ⟨entry, hentry, hoverlaps⟩
    obtain ⟨hmem, hvariant⟩ := mem_of_mem_activeRanges hentry
    exact ht.overlapped_of_entry hmem hvariant hoverlaps
  · rintro ⟨id, record, hrecord, hvariant, hoverlap⟩
    have hmem := ht.mem_activeRanges hrecord
    rw [hvariant] at hmem
    refine ⟨_, hmem, ?_⟩
    rw [overlapsActive_of_active hignored hrecord]
    exact hoverlap

theorem Indexed.neighbour_sound (ht : Indexed t) {entry : Option (VariantAddressKey × Nat)}
    (hentry : ∀ e, entry = some e → e ∈ t.activeVirtualRanges.entries)
    (h : (entry.filter (t.neighbourOverlaps block ignoredId)).isSome = true) :
    t.Overlapped block := by
  obtain ⟨found, hfound⟩ := Option.isSome_iff_exists.mp h
  obtain ⟨hsome, hoverlaps⟩ := Option.filter_eq_some_iff.mp hfound
  unfold neighbourOverlaps at hoverlaps
  rw [Bool.and_eq_true, decide_eq_true_eq] at hoverlaps
  exact ht.overlapped_of_entry (hentry found hsome) hoverlaps.1 hoverlaps.2

theorem neighbour_found (hignored : ∀ record, ¬ t.ActiveRecord ignoredId record)
    (hrecord : t.ActiveRecord id record) (hvariant : record.block.variant = block.variant)
    (hoverlap : rangesOverlap block.virtualStart block.size record.block.virtualStart
      record.block.size = true) :
    ((some (record.block.key, id)).filter (t.neighbourOverlaps block ignoredId)).isSome = true := by
  have hfound : t.neighbourOverlaps block ignoredId (record.block.key, id) = true := by
    unfold neighbourOverlaps
    rw [overlapsActive_of_active hignored hrecord, hoverlap, Bool.and_true, decide_eq_true_eq]
    exact hvariant
  rw [Option.filter_some_pos hfound]
  rfl

/-- Where the ranges are apart, one of the two neighbours of an overlapped block
overlaps it: of those behind its start the first, of those in front the last. -/
theorem RangesOk.neighbours (hr : RangesOk t) (ht : Indexed t)
    (hapart : t.contextualVirtualOverlaps = false)
    (hignored : ∀ record, ¬ t.ActiveRecord ignoredId record) (h : t.Overlapped block) :
    (((t.activeVirtualRanges.lowerBound block.key).head?.filter
        (t.neighbourOverlaps block ignoredId)).isSome ||
      ((t.activeVirtualRanges.previous block.key).filter
        (t.neighbourOverlaps block ignoredId)).isSome) = true := by
  obtain ⟨id, record, hrecord, hvariant, hoverlap⟩ := h
  obtain ⟨hbegin, hend⟩ := rangesOverlap_iff.mp hoverlap
  have hmem := ht.mem_of_active hrecord
  have hkeys : record.block.key.variant = block.key.variant := hvariant
  rw [Bool.or_eq_true]
  rcases le_or_gt block.key record.block.key with hbehind | hfront
  · obtain ⟨next, hnext, hhead, hlow, hhigh⟩ := OrderedMap.head_lowerBound_le hmem hbehind
    obtain ⟨found, hfound, hkey⟩ := ht.active_of_mem hnext
    obtain ⟨hsame, hstart, hstart'⟩ := key_within hkeys.symm hlow hhigh
    rw [← hkey] at hsame hstart hstart'
    have hsize := ht.sized _ _ hfound.1
    left
    obtain ⟨key, nextId⟩ := next
    cases hkey
    rw [hhead]
    refine neighbour_found hignored hfound hsame (rangesOverlap_iff.mpr ⟨?_, ?_⟩)
    · exact lt_of_le_of_lt hstart (Nat.lt_add_of_pos_right hsize)
    · exact lt_of_le_of_lt hstart' hend
  · obtain ⟨last, hlast, hprevious, hlow, hhigh⟩ := OrderedMap.le_previous hmem hfront
    obtain ⟨found, hfound, hkey⟩ := ht.active_of_mem hlast
    obtain ⟨hsame, hstart, hstart'⟩ := key_within hkeys hlow hhigh.le
    rw [← hkey] at hsame hstart hstart'
    right
    obtain ⟨key, lastId⟩ := last
    cases hkey
    rw [hprevious]
    have hid : lastId = id := by
      by_contra hne
      have hsize := ht.sized _ _ hfound.1
      have hflag := (hr.compatible id lastId record found (Ne.symm hne) hrecord hfound hsame.symm
        (rangesOverlap_iff.mpr ⟨?_, ?_⟩)).1
      · rw [hapart] at hflag
        cases hflag
      · exact lt_of_le_of_lt hstart (Nat.lt_add_of_pos_right hsize)
      · exact lt_of_le_of_lt hstart' hbegin
    subst hid
    cases Option.some.inj (hrecord.1.symm.trans hfound.1)
    exact neighbour_found hignored hrecord hvariant hoverlap

theorem RangesOk.overlappingActiveVirtual_isSome_iff (hr : RangesOk t) (ht : Indexed t)
    {block : RuntimeBlock} {ignoredId : Nat}
    (hignored : ∀ record, ¬ t.ActiveRecord ignoredId record) :
    (t.overlappingActiveVirtual block ignoredId).isSome = true ↔ t.Overlapped block := by
  cases hflag : t.contextualVirtualOverlaps with
  | true =>
    unfold overlappingActiveVirtual
    rw [hflag, if_pos rfl, Option.isSome_map]
    exact ht.full_search hignored
  | false =>
    rw [overlappingActiveVirtual_neighbours hflag]
    refine ⟨fun h => ?_, hr.neighbours ht hflag hignored⟩
    rcases (Bool.or_eq_true _ _).mp h with hnext | hprevious
    · refine ht.neighbour_sound (fun e he => ?_) hnext
      exact (List.dropWhile_sublist _).subset (List.mem_of_head? he)
    · refine ht.neighbour_sound (fun e he => ?_) hprevious
      exact (List.takeWhile_sublist _).subset (List.mem_of_getLast? he)

/-! ## Insertion -/

theorem activeRecord_activate {id' : Nat} {record' : Record}
    (h : (t.activate id record).ActiveRecord id' record') :
    id' = id ∧ record' = record ∨ id' ≠ id ∧ t.ActiveRecord id' record' := by
  obtain ⟨hrecord, hactive⟩ := h
  rw [activate_records, Function.update_apply] at hrecord
  split at hrecord
  · rename_i hid
    cases hrecord
    exact .inl ⟨hid, rfl⟩
  · rename_i hid
    exact .inr ⟨hid, hrecord, hactive⟩

theorem RangesOk.activate (hr : RangesOk t) (hprepared : Prepared record.block)
    (hcompatible : ∀ id' record', t.ActiveRecord id' record' →
      Compatible t.contextualVirtualOverlaps record.block record'.block) :
    RangesOk (t.activate id record) := by
  constructor
  · intro id' record' hrecord'
    rcases activeRecord_activate hrecord' with ⟨-, rfl⟩ | ⟨-, hold⟩
    · exact hprepared
    · exact hr.prepared id' record' hold
  · intro left right leftRecord rightRecord hne hleft hright
    rw [activate_contextualVirtualOverlaps]
    rcases activeRecord_activate hleft with ⟨rfl, rfl⟩ | ⟨-, hleft'⟩
    · rcases activeRecord_activate hright with ⟨rfl, -⟩ | ⟨-, hright'⟩
      · exact absurd rfl hne
      · exact hcompatible right rightRecord hright'
    · rcases activeRecord_activate hright with ⟨rfl, rfl⟩ | ⟨-, hright'⟩
      · exact (hcompatible left leftRecord hleft').symm
      · exact hr.compatible left right leftRecord rightRecord hne hleft' hright'

/-- What an insertion leaves: the ranges, the note, and the active blocks with at
most the inserted one beside them. -/
structure RangesInserted (t : RuntimeBlockTable) (block : RuntimeBlock) (t' : RuntimeBlockTable) :
    Prop where
  ranges : RangesOk t'
  overlaps : t'.contextualVirtualOverlaps = t.contextualVirtualOverlaps
  active : ∀ id record, t'.ActiveRecord id record →
    t.ActiveRecord id record ∨ SameRange record.block block

theorem RangesOk.rejected (hr : RangesOk t) (block : RuntimeBlock)
    (hrecords : t'.records = t.records)
    (hoverlaps : t'.contextualVirtualOverlaps = t.contextualVirtualOverlaps) :
    RangesInserted t block t' := by
  refine ⟨hr.shrinks (.of_eq hrecords hoverlaps), hoverlaps, fun id record h => .inl ?_⟩
  unfold ActiveRecord at h ⊢
  rwa [hrecords] at h

variable {allowContextualOverlap : Bool}

/-- A block that collides with nothing may be active beside the others. -/
theorem RangesOk.compatible_of_collision (hr : RangesOk t) (ht : Indexed t)
    (hsame : SameRange stored block)
    (hignored : ∀ record, ¬ t.ActiveRecord ignoredId record)
    (hallowed : allowContextualOverlap = true → ∀ id record, t.ActiveRecord id record →
      Compatible t.contextualVirtualOverlaps block record.block)
    (hcollision : t.collision stored allowContextualOverlap ignoredId = none) :
    ∀ id record, t.ActiveRecord id record →
      Compatible t.contextualVirtualOverlaps stored record.block := by
  intro id record hrecord
  cases allowContextualOverlap with
  | true => exact hsame.compatible (hallowed rfl id record hrecord)
  | false =>
    intro hvariant hoverlap
    have hfound := (hr.overlappingActiveVirtual_isSome_iff ht hignored).mpr
      ⟨id, record, hrecord, hvariant.symm, hoverlap⟩
    have hnone : t.overlappingActiveVirtual stored ignoredId = none := hcollision
    rw [hnone] at hfound
    cases hfound

theorem RangesOk.insert (hr : RangesOk t) (ht : Indexed t) (block : RuntimeBlock)
    (runtimeRegistered allowContextualOverlap : Bool)
    (hallowed : allowContextualOverlap = true → ∀ id record, t.ActiveRecord id record →
      Compatible t.contextualVirtualOverlaps block record.block) :
    RangesInserted t block (t.insert block runtimeRegistered allowContextualOverlap).2 := by
  simp only [RuntimeBlockTable.insert]
  split
  · exact hr.rejected block rfl rfl
  rename_i stored hprepared
  have hsame := prepareBlock_sameRange hprepared
  have hplaced : ∀ {base : RuntimeBlockTable} {id : Nat} {record : Record},
      base.records = t.records → base.contextualVirtualOverlaps = t.contextualVirtualOverlaps →
      record.block = stored → (∀ id record, t.ActiveRecord id record →
        Compatible t.contextualVirtualOverlaps stored record.block) →
      RangesInserted t block (base.activate id record) := by
    intro base id record hrecords hoverlaps hstored hcompatible
    have hbase : RangesOk base := hr.shrinks (.of_eq hrecords hoverlaps)
    have hactive : ∀ id' record', base.ActiveRecord id' record' → t.ActiveRecord id' record' := by
      intro id' record' h
      unfold ActiveRecord at h ⊢
      rwa [hrecords] at h
    refine ⟨hbase.activate (hstored ▸ ⟨block, runtimeRegistered, hprepared⟩) fun id' record' h => ?_,
      (activate_contextualVirtualOverlaps base id record).trans hoverlaps, fun id' record' h => ?_⟩
    · rw [hoverlaps, hstored]
      exact hcompatible id' record' (hactive id' record' h)
    · rcases activeRecord_activate h with ⟨-, rfl⟩ | ⟨-, h'⟩
      · exact .inr (hstored ▸ hsame)
      · exact .inl (hactive id' record' h')
  split
  · rename_i known hknown
    simp only [reactivate]
    split
    · exact hr.rejected block rfl rfl
    rename_i record hrecord
    split
    · exact hr.rejected block rfl rfl
    rename_i hinactive
    split
    · exact hr.rejected block rfl rfl
    split
    · exact hr.rejected block rfl rfl
    rename_i hcollision
    refine hplaced rfl rfl rfl (hr.compatible_of_collision ht hsame ?_ hallowed hcollision)
    rintro other ⟨hother, hactive⟩
    cases Option.some.inj (hrecord.symm.trans hother)
    exact hinactive hactive
  · simp only [insertNew]
    split
    · exact hr.rejected block rfl rfl
    rename_i hcollision
    refine hplaced rfl rfl rfl (hr.compatible_of_collision ht hsame ?_ hallowed hcollision)
    rintro other ⟨hother, -⟩
    exact absurd (ht.ids 0 other hother).1 (lt_irrefl 0)

/-- The chain of changes of an operation, whatever static starts it takes. -/
theorem Indexed.after_insert (ht : Indexed t) (block : RuntimeBlock)
    (runtimeRegistered allowContextualOverlap : Bool) :
    Indexed (t.insert block runtimeRegistered allowContextualOverlap).2 :=
  ht.changes (@insert_changes False t ht block runtimeRegistered allowContextualOverlap
    fun h => h.elim)

theorem RangesOk.insertAll (hr : RangesOk t) (ht : Indexed t) {allowContextualOverlap : Bool}
    {blocks : List RuntimeBlock}
    (hactive : allowContextualOverlap = true → ∀ id record, t.ActiveRecord id record →
      ∀ block ∈ blocks, Compatible t.contextualVirtualOverlaps block record.block)
    (hblocks : allowContextualOverlap = true →
      blocks.Pairwise (Compatible t.contextualVirtualOverlaps)) :
    RangesOk (RuntimeBlockTable.insertAll allowContextualOverlap t blocks).2 := by
  induction blocks generalizing t with
  | nil => exact hr
  | cons block rest ih =>
    have hinserted := hr.insert ht block false allowContextualOverlap
      fun hallow id record h => hactive hallow id record h block List.mem_cons_self
    have hindexed := ht.after_insert block false allowContextualOverlap
    simp only [RuntimeBlockTable.insertAll]
    split
    · rename_i message t' h
      rw [h] at hinserted
      exact hinserted.ranges
    · rename_i handle t' h
      rw [h] at hinserted hindexed
      refine ih hinserted.ranges hindexed (fun hallow id record hrecord other hother => ?_)
        fun hallow => ?_
      · rw [hinserted.overlaps]
        rcases hinserted.active id record hrecord with hold | hnew
        · exact hactive hallow id record hold other (List.mem_cons_of_mem _ hother)
        · have hpair := (List.pairwise_cons.mp (hblocks hallow)).1 other hother
          exact (hnew.compatible hpair).symm
      · rw [hinserted.overlaps]
        exact (List.pairwise_cons.mp (hblocks hallow)).2

variable {blocks : List RuntimeBlock}

theorem RangesOk.insertSorted (hr : RangesOk t) (ht : Indexed t)
    (hactive : allowContextualOverlap = true → ∀ id record, t.ActiveRecord id record →
      ∀ block ∈ blocks, Compatible t.contextualVirtualOverlaps block record.block)
    (hblocks : allowContextualOverlap = true →
      blocks.Pairwise (Compatible t.contextualVirtualOverlaps)) :
    RangesOk (t.insertSorted allowContextualOverlap blocks).2 := by
  have hsorted : (sortBlocks blocks).Perm blocks := List.perm_insertionSort _ _
  have hall := @RangesOk.insertAll t hr ht allowContextualOverlap (sortBlocks blocks)
    (fun hallow id record h block hblock => hactive hallow id record h block (hsorted.subset hblock))
    fun hallow => (hsorted.pairwise_iff fun h => h.symm).mpr (hblocks hallow)
  simp only [RuntimeBlockTable.insertSorted]
  split
  · rename_i message t' h
    rw [h] at hall
    exact hall
  · rename_i handles t' h
    rw [h] at hall
    exact hall.shrinks (sealStatic_shrinks t')

/-! ## The validation of contextual blocks -/

/-- The order in which contextual blocks are compared. -/
theorem contextualKey_le (h : left.contextualKey ≤ right.contextualKey) :
    left.variant ≤ right.variant ∧
      (left.variant = right.variant → left.virtualStart.toNat ≤ right.virtualStart.toNat) := by
  unfold RuntimeBlock.contextualKey at h
  rw [Prod.Lex.toLex_le_toLex] at h
  rcases h with hlt | ⟨heq, hrest⟩
  · exact ⟨hlt.le, fun heq => absurd heq hlt.ne⟩
  · dsimp only at heq hrest
    rw [Prod.Lex.toLex_le_toLex] at hrest
    refine ⟨heq.le, fun _ => ?_⟩
    rcases hrest with hlt | ⟨hsame, -⟩
    · exact hlt.le
    · exact hsame.le

variable {overlap : Bool}

theorem contextualNeighbours_compatible
    (hleft : ∀ right ∈ blocks, left.contextualKey ≤ right.contextualKey)
    (hsorted : blocks.Pairwise fun first second => first.contextualKey ≤ second.contextualKey)
    (h : contextualNeighbours left blocks = .ok overlap) :
    ∀ right ∈ blocks, Compatible overlap left right := by
  induction blocks generalizing overlap with
  | nil => simp
  | cons right rest ih =>
    obtain ⟨hright, hrest⟩ := List.pairwise_cons.mp hsorted
    obtain ⟨hfirst, hothers⟩ := List.forall_mem_cons.mp hleft
    unfold contextualNeighbours at h
    split at h
    · -- the blocks of the variant are behind
      rename_i hvariant
      have hlt : left.variant < right.variant := lt_of_le_of_ne (contextualKey_le hfirst).1 hvariant
      refine List.forall_mem_cons.mpr ⟨fun heq => absurd heq hvariant, fun other hother heq => ?_⟩
      exact absurd heq (lt_of_lt_of_le hlt (contextualKey_le (hright other hother)).1).ne
    rename_i hvariant
    rw [not_not] at hvariant
    split at h
    · -- the blocks behind start where this one has ended
      rename_i hbehind
      refine List.forall_mem_cons.mpr ⟨fun _ hoverlap => ?_, fun other hother heq hoverlap => ?_⟩
      · have hend := (rangesOverlap_iff.mp hoverlap).2
        omega
      · have hstart := (contextualKey_le (hright other hother)).2 (hvariant.symm.trans heq)
        have hend := (rangesOverlap_iff.mp hoverlap).2
        omega
    split at h
    · rename_i hapart
      refine List.forall_mem_cons.mpr ⟨fun _ hoverlap => ?_, ih hothers hrest h⟩
      rw [hoverlap] at hapart
      cases hapart
    split at h
    · cases h
    · rename_i hclear
      rw [not_or, Bool.not_eq_true', Bool.not_eq_false] at hclear
      obtain ⟨below, hbelow, htrue⟩ : ∃ below, contextualNeighbours left rest = .ok below ∧
          overlap = true := by
        cases hcheck : contextualNeighbours left rest with
        | error message =>
          rw [hcheck] at h
          cases h
        | ok below =>
          rw [hcheck] at h
          cases h
          exact ⟨below, rfl, rfl⟩
      rw [htrue]
      exact List.forall_mem_cons.mpr ⟨fun _ _ => ⟨rfl, hclear.1, hclear.2⟩,
        fun other hother => (ih hothers hrest hbelow other hother).mono fun _ => rfl⟩

theorem contextualOverlaps_compatible
    (hsorted : blocks.Pairwise fun first second => first.contextualKey ≤ second.contextualKey)
    (h : contextualOverlaps blocks = .ok overlap) : blocks.Pairwise (Compatible overlap) := by
  induction blocks generalizing overlap with
  | nil => exact List.Pairwise.nil
  | cons left rest ih =>
    obtain ⟨hleft, hrest⟩ := List.pairwise_cons.mp hsorted
    unfold contextualOverlaps at h
    cases hhere : contextualNeighbours left rest with
    | error message =>
      rw [hhere] at h
      cases h
    | ok here =>
      cases hbehind : contextualOverlaps rest with
      | error message =>
        rw [hhere, hbehind] at h
        cases h
      | ok behind =>
        rw [hhere, hbehind] at h
        cases h
        refine List.pairwise_cons.mpr ⟨fun right hright => ?_, ?_⟩
        · exact (contextualNeighbours_compatible hleft hrest hhere right hright).mono
            fun htrue => by rw [htrue, Bool.true_or]
        · exact (ih hrest hbehind).imp fun hpair => hpair.mono
            fun htrue => by rw [htrue, Bool.or_true]

theorem Indexed.mem_activeRecords (ht : Indexed t)
    (h : t.ActiveRecord id record) : record ∈ t.activeRecords := by
  unfold activeRecords
  refine List.mem_filter.mpr ⟨List.mem_filterMap.mpr ⟨id, ?_, h.1⟩, h.2⟩
  exact List.mem_range.mpr (ht.ids id record h.1).2

/-- What holds of the active records pair by pair holds of any two of them. -/
theorem Indexed.pairwise_activeRecords (ht : Indexed t) {r : Record → Record → Prop}
    (hsymm : ∀ {left right}, r left right → r right left) (h : t.activeRecords.Pairwise r) :
    ∀ id id' record record', id ≠ id' → t.ActiveRecord id record → t.ActiveRecord id' record' →
      r record record' := by
  unfold activeRecords at h
  rw [List.pairwise_filter, List.pairwise_filterMap, List.pairwise_iff_getElem] at h
  have hordered : ∀ id id' record record', id < id' → t.ActiveRecord id record →
      t.ActiveRecord id' record' → r record record' := by
    intro id id' record record' hlt hrecord hrecord'
    have hid := (ht.ids id record hrecord.1).2
    have hid' := (ht.ids id' record' hrecord'.1).2
    have hpair := h id id' (by rwa [List.length_range]) (by rwa [List.length_range]) hlt
    rw [List.getElem_range, List.getElem_range] at hpair
    exact hpair record hrecord.1 record' hrecord'.1 hrecord.2 hrecord'.2
  intro id id' record record' hne hrecord hrecord'
  rcases Nat.lt_or_gt_of_ne hne with hlt | hgt
  · exact hordered id id' record record' hlt hrecord hrecord'
  · exact hsymm (hordered id' id record' record hgt hrecord' hrecord)

theorem RangesOk.registerStaticContextualBulk (hr : RangesOk t) (ht : Indexed t)
    (blocks : List RuntimeBlock) : RangesOk (t.registerStaticContextualBulk blocks).2 := by
  simp only [RuntimeBlockTable.registerStaticContextualBulk]
  split
  · exact hr
  split
  · exact hr
  split
  · exact hr
  rename_i overlap hoverlap
  have htotal : Std.Total fun left right : RuntimeBlock =>
      left.contextualKey ≤ right.contextualKey := ⟨fun _ _ => le_total _ _⟩
  have htrans : IsTrans RuntimeBlock fun left right =>
      left.contextualKey ≤ right.contextualKey := ⟨fun _ _ _ => le_trans⟩
  have hvalidated := contextualOverlaps_compatible (List.pairwise_insertionSort _ _) hoverlap
  rw [(List.perm_insertionSort _ _).pairwise_iff fun h => h.symm, List.pairwise_append] at hvalidated
  obtain ⟨hold, hnew, hbetween⟩ := hvalidated
  have hindexed : Indexed { t with contextualVirtualOverlaps := overlap } :=
    ht.transfer rfl le_rfl rfl rfl rfl rfl rfl
  have hnoted : RangesOk { t with contextualVirtualOverlaps := overlap } :=
    ⟨hr.prepared, ht.pairwise_activeRecords (fun h => h.symm) (List.pairwise_map.mp hold)⟩
  refine hnoted.insertSorted hindexed (fun _ id record hrecord block hblock => ?_) fun _ => hnew
  exact (hbetween _ (List.mem_map_of_mem (ht.mem_activeRecords hrecord)) block hblock).symm

/-! ## Runtime blocks -/

theorem runtimeOverlaps_compatible {entries : List (VariantAddressKey × Nat)}
    (h : t.runtimeOverlaps block entries = .ok overlap) :
    ∀ entry ∈ entries, ∀ record, t.records entry.2 = some record →
      Compatible overlap block record.block := by
  induction entries generalizing overlap with
  | nil => simp
  | cons entry rest ih =>
    unfold runtimeOverlaps at h
    split at h
    · cases h
    rename_i active hactive
    have hfirst : ∀ {flag}, Compatible flag block active.block → ∀ record,
        t.records entry.2 = some record → Compatible flag block record.block := by
      intro flag hpair record hrecord
      cases Option.some.inj (hactive.symm.trans hrecord)
      exact hpair
    split at h
    · rename_i hapart
      refine List.forall_mem_cons.mpr ⟨hfirst fun _ hoverlap => ?_, ih h⟩
      rw [hoverlap] at hapart
      cases hapart
    split at h
    · cases h
    · rename_i hclear
      rw [not_or, Bool.not_eq_true', Bool.not_eq_false] at hclear
      cases hcheck : t.runtimeOverlaps block rest with
      | error message =>
        rw [hcheck] at h
        cases h
      | ok below =>
        rw [hcheck] at h
        cases h
        exact List.forall_mem_cons.mpr ⟨hfirst fun _ _ => ⟨rfl, hclear.1, hclear.2⟩,
          fun other hother record hrecord =>
            (ih hcheck other hother record hrecord).mono fun _ => rfl⟩

variable (hr : RangesOk t)
include hr

section
variable (ht : Indexed t)
include ht

theorem RangesOk.insertRuntime (block : RuntimeBlock) (sealAfterRegistration : Bool)
    (hallowed : block.aotTemplate.isSome = true → ∀ id record, t.ActiveRecord id record →
      Compatible t.contextualVirtualOverlaps block record.block) :
    RangesOk (t.insertRuntime block sealAfterRegistration).2 := by
  have hinserted := hr.insert ht block true block.aotTemplate.isSome hallowed
  simp only [RuntimeBlockTable.insertRuntime]
  split
  · rename_i message t' h
    rw [h] at hinserted
    exact hinserted.ranges
  · rename_i handle t' h
    rw [h] at hinserted
    split
    · exact hinserted.ranges.shrinks (sealStatic_shrinks t')
    · exact hinserted.ranges

theorem RangesOk.registerRuntime (block : RuntimeBlock) : RangesOk (t.registerRuntime block).2 := by
  simp only [RuntimeBlockTable.registerRuntime]
  split
  · exact hr
  rename_i overlap hoverlap
  have hindexed : Indexed { t with
      contextualVirtualOverlaps := t.contextualVirtualOverlaps || overlap } :=
    ht.transfer rfl le_rfl rfl rfl rfl rfl rfl
  have hnoted : RangesOk { t with
      contextualVirtualOverlaps := t.contextualVirtualOverlaps || overlap } := by
    refine ⟨hr.prepared, fun id id' record record' hne hrecord hrecord' => ?_⟩
    exact (hr.compatible id id' record record' hne hrecord hrecord').mono fun htrue => by
      rw [htrue, Bool.true_or]
  refine hnoted.insertRuntime hindexed block _ fun htemplate id record hrecord => ?_
  rw [if_pos htemplate] at hoverlap
  intro hvariant
  have hmem := ht.mem_activeRanges hrecord
  rw [← hvariant] at hmem
  have hpair := runtimeOverlaps_compatible hoverlap _ hmem record hrecord.1
  exact (hpair.mono fun htrue => by rw [htrue, Bool.or_true]) hvariant

/-! ## Other registrations -/

theorem RangesOk.registerStatic (block : RuntimeBlock) : RangesOk (t.registerStatic block).2 := by
  unfold RuntimeBlockTable.registerStatic
  split
  · exact hr
  · exact (hr.insert ht block false false fun h => by cases h).ranges

theorem RangesOk.registerBootstrapStatic
    (block : RuntimeBlock) : RangesOk (t.registerBootstrapStatic block).2 := by
  unfold RuntimeBlockTable.registerBootstrapStatic
  split
  · exact hr
  · exact (hr.insert ht block false false fun h => by cases h).ranges

theorem RangesOk.registerStaticBulk
    (blocks : List RuntimeBlock) : RangesOk (t.registerStaticBulk blocks).2 := by
  unfold RuntimeBlockTable.registerStaticBulk
  split
  · exact hr
  · exact hr.insertSorted ht (fun h => by cases h) fun h => by cases h

theorem RangesOk.registerStaticVariant
    (trackers : Nat → ExecutableCodeTracker) (virtualAddress physicalAddress : BitVec 32)
    (sourceVariant targetVariant : BlockVariantKey) :
    RangesOk (t.registerStaticVariant trackers virtualAddress physicalAddress sourceVariant
      targetVariant).2 := by
  have hfirst := hr.shrinks (lookup_shrinks t trackers virtualAddress targetVariant)
  have hindexed := ht.changes (@lookup_changes False t trackers virtualAddress targetVariant)
  simp only [RuntimeBlockTable.registerStaticVariant]
  split
  · rename_i found t' h
    rw [h] at hfirst
    exact hfirst
  rename_i t' h
  rw [h] at hfirst hindexed
  have hsecond := hfirst.shrinks (lookup_shrinks t' trackers virtualAddress sourceVariant)
  have hindexed' := hindexed.changes
    (@lookup_changes False t' trackers virtualAddress sourceVariant)
  generalize t'.lookup trackers virtualAddress sourceVariant = looked at *
  obtain ⟨found, t''⟩ := looked
  simp only
  split
  · exact hsecond
  split
  · exact hsecond
  · exact (hsecond.insert hindexed' _ false false fun h => by cases h).ranges

end

omit hr

end KatanaRecomp.Runtime.RuntimeBlockTable

namespace KatanaRecomp.Runtime.BlockDispatch
open RuntimeBlockTable

/-! ## Runs -/

variable {s s' : BlockDispatch}

theorem rangesOk_apply (hs : Ready s) (hr : RangesOk s.table)
    {operation : Operation} (h : s.apply operation = some s') : RangesOk s'.table := by
  cases operation with
  | registerStatic block =>
    cases h
    exact hr.registerStatic hs.indexed block
  | registerStaticVariant virtualAddress physicalAddress sourceVariant targetVariant =>
    cases h
    exact hr.registerStaticVariant hs.indexed s.trackers virtualAddress physicalAddress
      sourceVariant targetVariant
  | registerStaticBulk blocks =>
    cases h
    exact hr.registerStaticBulk hs.indexed blocks
  | registerStaticContextualBulk blocks =>
    cases h
    exact hr.registerStaticContextualBulk hs.indexed blocks
  | sealStatic =>
    cases h
    exact hr.shrinks (sealStatic_shrinks s.table)
  | registerBootstrapStatic block =>
    cases h
    exact hr.registerBootstrapStatic hs.indexed block
  | registerRuntime block =>
    cases h
    exact hr.registerRuntime hs.indexed block
  | lookup virtualAddress variant =>
    cases h
    exact hr.shrinks (lookup_shrinks s.table s.trackers virtualAddress variant)
  | markRejected virtualAddress variant =>
    cases h
    exact hr.shrinks (.of_eq rfl rfl)
  | setLookupMode mode =>
    cases h
    exact hr.shrinks (.of_eq rfl rfl)
  | resetLookupCounters =>
    cases h
    exact hr.shrinks (.of_eq rfl rfl)
  | eraseIdentity identity =>
    cases h
    refine hr.shrinks ?_
    simp only [RuntimeBlockTable.eraseIdentity]
    split
    · exact .refl s.table
    split
    · exact deactivate_shrinks s.table _
    · exact .refl s.table
  | eraseOverlappingPhysical physicalAddress size =>
    cases h
    refine hr.shrinks ?_
    simp only [RuntimeBlockTable.eraseOverlappingPhysical]
    split
    · exact .refl s.table
    · exact deactivateAll_shrinks s.table _
  | eraseOverlappingPhysicalBatch events =>
    obtain ⟨table, htable, rfl⟩ := Option.map_eq_some_iff.mp h
    unfold RuntimeBlockTable.eraseOverlappingPhysicalBatch at htable
    split at htable
    · cases htable
    · obtain ⟨ranges, -, rfl⟩ := Option.map_eq_some_iff.mp htable
      exact hr.shrinks (sweepPages_shrinks _ { table := s.table } _ _)
  | commitDiscLoadInvalidation plan =>
    cases h
    exact hr.shrinks (deactivateAll_shrinks s.table plan.ids)
  | bindCodeTracker tracker staticAotInvalidation =>
    cases h
    refine hr.shrinks ?_
    simp only [RuntimeBlockTable.bindCodeTracker]
    split
    · exact .refl s.table
    · exact .of_eq rfl rfl
  | clear =>
    cases h
    exact .of_inactive fun _ => rfl
  | tracker index operation =>
    obtain ⟨tracker, -, rfl⟩ := Option.map_eq_some_iff.mp h
    exact hr
  | allocateLifetime =>
    cases h
    exact hr

theorem rangesOk_run (hs : Ready s) (hr : RangesOk s.table)
    {operations : List Operation} (hrun : s.run operations = some s') :
    Ready s' ∧ RangesOk s'.table := by
  induction operations generalizing s with
  | nil =>
    cases hrun
    exact ⟨hs, hr⟩
  | cons operation rest ih =>
    obtain ⟨next, hnext, hrest⟩ := Option.bind_eq_some_iff.mp hrun
    have hready := hs.step (@apply_step False s next hs operation (fun h => h.elim) hnext)
    exact ih hready (rangesOk_apply hs hr hnext) hrest

variable {left right : RuntimeBlock}

section
variable {trackers : Nat → ExecutableCodeTracker} {lifetime : Nat} {mode : RuntimeBlockLookupMode}
  {operations : List Operation} {s : BlockDispatch}

end
end KatanaRecomp.Runtime.BlockDispatch
