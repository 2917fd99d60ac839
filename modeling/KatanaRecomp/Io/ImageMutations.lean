import KatanaRecomp.Io.ImageLayout

/-! # The mutating calls

Every call of an image throws before it changes anything, changes nothing, or
edits the image and marks the change. `Outcome` says which, with the layout of
the edited image. -/
namespace KatanaRecomp.Io.ExecutableImage
open Lib ByteFormat

/-- The numbers that a mutation marks are not touched by the edit itself. -/
structure Edits (old new : Image) : Prop where
  identity : new.analysisInstanceIdentity = old.analysisInstanceIdentity
  revision : new.analysisRevision = old.analysisRevision

/-- What a mutating call can do to an image that is laid out. -/
inductive Outcome (live : Live) (result : EStateM.Result ImageError Live Unit) : Prop
  | threw (e : ImageError) (h : result = .error e live)
  | kept (h : result = .ok () live)
  | roots (image : Image) (hlayout : Layout image) (hproven : Proven live.image → Proven image)
      (hedits : Edits live.image image)
      (h : result = .ok () (Live.markRootSetMutation { live with image }))
  | analysis (image : Image) (hlayout : Layout image) (hedits : Edits live.image image)
      (h : result = .ok () (Live.markAnalysisMutation { live with image }))

variable {live : Live}

/-- A check in front that throws changes nothing. -/
theorem Outcome.checked {α : Type} {check : Except ImageError α}
    {rest : α → ImageM Unit} (h : ∀ value, check = .ok value → Outcome live (rest value live)) :
    Outcome live ((ofChecked check >>= rest) live) := by
  cases hcheck : check with
  | error e => exact .threw e rfl
  | ok value => exact h value hcheck

/-- No end of a range that the call is given wraps. -/
def Mutation.Bounded : Mutation → Prop
  | .addSegment segment => segment.virtualAddress.toNat + segment.memorySize.toNat < 2 ^ 64
  | .addAddressAlias placement =>
    placement.sourceStart.toNat + placement.size.toNat < 2 ^ 64 ∧
      placement.runtimeStart.toNat + placement.size.toNat < 2 ^ 64
  | _ => True

/-! ## Lists that are sorted again -/

theorem pairwise_concat {α : Type} {R : α → α → Prop} {l : List α} {a : α} (h : l.Pairwise R)
    (ha : ∀ x ∈ l, R x a) : (l ++ [a]).Pairwise R := by
  rw [List.pairwise_append]
  refine ⟨h, List.pairwise_singleton R a, ?_⟩
  intro x hx y hy
  rw [List.mem_singleton.mp hy]
  exact ha x hx

/-- Sorting keeps a symmetric relation between all pairs. -/
theorem pairwise_insertionSort_of_symm {α : Type} {R r : α → α → Prop} [DecidableRel r]
    (hsymm : ∀ a b, R a b → R b a) {l : List α} (h : l.Pairwise R) :
    (l.insertionSort r).Pairwise R :=
  ((List.perm_insertionSort r l).pairwise_iff fun {a b} => hsymm a b).mpr h

instance : Std.Total ImageSegment.notAbove := ⟨fun _ _ => Nat.le_total _ _⟩

instance : IsTrans ImageSegment ImageSegment.notAbove := ⟨fun _ _ _ h h' => Nat.le_trans h h'⟩

variable {segments : List ImageSegment}

/-- Segments that are apart and not empty are sorted strictly. -/
theorem sorted_of_notAbove (hfits : ∀ s ∈ segments, s.Fits)
    (hsorted : segments.Pairwise ImageSegment.notAbove)
    (hapart : segments.Pairwise ImageSegment.Apart) :
    segments.Pairwise fun s t => s.virtualAddress.toNat < t.virtualAddress.toNat := by
  refine (hsorted.and hapart).imp_of_mem ?_
  intro s t hs ht hst
  have hspos := (hfits s hs).nonempty
  have htpos := (hfits t ht).nonempty
  have hle : s.virtualAddress.toNat ≤ t.virtualAddress.toNat := hst.1
  rcases hst.2 with h | h <;> omega

/-! ## Segments -/

variable {image : Image} {segment : ImageSegment}

theorem checkSegment_ok
    (hbounded : segment.virtualAddress.toNat + segment.memorySize.toNat < 2 ^ 64)
    (hlayout : Layout image) (h : image.checkSegment segment = .ok ()) :
    segment.Fits ∧ (∀ s ∈ image.segments, s.Apart segment) ∧
      (∀ a ∈ image.addressAliases, a.Clear segment) ∧ (image.addressModel = .sh4DirectMapped →
        requireSh4UniqueSegment segment image.segments image.addressAliases = .ok ()) := by
  have hend : segment.endAddress = segment.virtualAddress.toNat + segment.memorySize.toNat :=
    endOf_eq hbounded
  unfold Image.checkSegment at h
  split at h
  · cases h
  split at h
  · cases h
  rename_i hsize
  split at h
  · cases h
  rename_i hbytes
  split at h
  · cases h
  split at h
  · cases h
  rename_i hspace
  split at h
  · cases h
  have hfits : segment.Fits := by
    refine ⟨?_, ?_, by omega⟩
    · rw [Nat.pos_iff_ne_zero]
      intro hzero
      exact hsize (BitVec.eq_of_toNat_eq hzero)
    · rw [hend] at hspace
      omega
  split at h
  · cases h
  rename_i hapart
  split at h
  · cases h
  rename_i hclear
  refine ⟨hfits, ?_, ?_, ?_⟩
  · intro s hs
    have hnot := List.find?_eq_none.mp hapart s hs
    rw [hend, (hlayout.fits s hs).endAddress] at hnot
    exact (rangesOverlap_eq_false.mp (Bool.eq_false_iff.mpr hnot)).symm
  · intro a ha
    have hnot : ¬ rangesOverlap segment.virtualAddress.toNat segment.endAddress
        a.runtimeStart.toNat a.runtimeEnd = true := by
      intro hyes
      exact hclear (List.any_eq_true.mpr ⟨a, ha, hyes⟩)
    have hruntime := (hlayout.aliasFits a ha).runtime
    have haend : a.runtimeEnd = a.runtimeStart.toNat + a.size.toNat := by
      apply endOf_eq
      unfold addressSpaceSize at hruntime
      omega
    rw [hend, haend] at hnot
    exact (rangesOverlap_eq_false.mp (Bool.eq_false_iff.mpr hnot)).symm
  · intro hmodel
    rwa [if_pos hmodel] at h

theorem Layout.aliasBounds (h : Layout image) : ∀ a ∈ image.addressAliases, a.Bounded :=
  fun a ha => ⟨(h.aliasFits a ha).nonempty, (h.aliasFits a ha).runtime⟩

/-- More segments keep what an alias needs of its source. -/
theorem ImageAddressAlias.Fits.mono {placement : ImageAddressAlias} {segments more : List ImageSegment}
    (h : placement.Fits segments) (hmore : ∀ s ∈ segments, s ∈ more) : placement.Fits more := by
  obtain ⟨s, hs, hcommits⟩ := h.source
  exact ⟨h.nonempty, ⟨s, hmore s hs, hcommits⟩, h.runtime⟩

theorem addSegment_outcome (hlayout : Layout live.image)
    (hbounded : (Mutation.addSegment segment).Bounded) :
    Outcome live (addSegment segment live) := by
  change Outcome live ((ofChecked (live.image.checkSegment segment) >>= _) live)
  refine .checked fun u hok => ?_
  obtain ⟨hfits, hapart, hclear, hunique⟩ := checkSegment_ok hbounded hlayout hok
  have hmem : ∀ s, s ∈ (live.image.segments ++ [segment]).insertionSort ImageSegment.notAbove ↔
      s ∈ live.image.segments ∨ s = segment := by
    intro s
    rw [List.mem_insertionSort, List.mem_append, List.mem_singleton]
  have hallFits : ∀ s ∈ (live.image.segments ++ [segment]).insertionSort ImageSegment.notAbove,
      s.Fits := by
    intro s hs
    rcases (hmem s).mp hs with hold | rfl
    · exact hlayout.fits s hold
    · exact hfits
  have hallApart : ((live.image.segments ++ [segment]).insertionSort
      ImageSegment.notAbove).Pairwise ImageSegment.Apart :=
    pairwise_insertionSort_of_symm (fun _ _ => ImageSegment.Apart.symm)
      (pairwise_concat hlayout.apart hapart)
  refine .analysis { live.image with
    segments := (live.image.segments ++ [segment]).insertionSort ImageSegment.notAbove } ?_
    ⟨rfl, rfl⟩ rfl
  refine ⟨hallFits, ?_, hallApart, ?_, hlayout.aliasApart, ?_, ?_⟩
  · exact sorted_of_notAbove hallFits (List.pairwise_insertionSort _ _) hallApart
  · intro a ha
    exact (hlayout.aliasFits a ha).mono fun s hs => (hmem s).mpr (.inl hs)
  · intro a ha s hs
    rcases (hmem s).mp hs with hold | rfl
    · exact hlayout.clear a ha s hold
    · exact hclear a ha
  · intro hmodel
    have howners := hlayout.owners hmodel
    obtain ⟨hwindow, hphysical, hacross⟩ := requireSh4UniqueSegment_ok hfits hlayout.fits
      hlayout.aliasBounds (hunique hmodel)
    refine ⟨?_, howners.aliasWindows, ?_, howners.aliasesApart, ?_⟩
    · intro s hs
      rcases (hmem s).mp hs with hold | rfl
      · exact howners.segmentWindows s hold
      · exact hwindow
    · exact pairwise_insertionSort_of_symm (fun _ _ => PhysicallyApart.symm)
        (pairwise_concat howners.segmentsApart hphysical)
    · intro a ha s hs
      rcases (hmem s).mp hs with hold | rfl
      · exact howners.across a ha s hold
      · exact hacross a ha

/-! ## Aliases -/

variable {placement : ImageAddressAlias}

theorem checkAlias_ok
    (hbounded : (Mutation.addAddressAlias placement).Bounded) (hlayout : Layout image)
    (h : image.checkAlias placement = .ok ()) :
    placement.Fits image.segments ∧ (∀ s ∈ image.segments, placement.Clear s) ∧
      (∀ a ∈ image.addressAliases, a.Apart placement) ∧ (image.addressModel = .sh4DirectMapped →
        requireSh4UniqueAlias placement image.segments image.addressAliases = .ok ()) := by
  have hsourceEnd : placement.sourceEnd = placement.sourceStart.toNat + placement.size.toNat :=
    endOf_eq hbounded.1
  have hruntimeEnd : placement.runtimeEnd = placement.runtimeStart.toNat + placement.size.toNat :=
    endOf_eq hbounded.2
  unfold Image.checkAlias at h
  split at h
  · cases h
  rename_i hsize
  split at h
  · cases h
  rename_i hspace
  split at h
  · cases h
  rename_i hcommitted
  split at h
  · cases h
  rename_i hclear
  obtain ⟨u, hpairs, h⟩ := bind_eq_ok h
  rw [not_or, hruntimeEnd] at hspace
  refine ⟨⟨?_, ?_, by omega⟩, ?_, ?_, ?_⟩
  · rw [Nat.pos_iff_ne_zero]
    intro hzero
    exact hsize (BitVec.eq_of_toNat_eq hzero)
  · rw [Bool.not_eq_true', Bool.not_eq_false] at hcommitted
    unfold Image.committed at hcommitted
    split at hcommitted
    · cases hcommitted
    · rename_i s hfound
      obtain ⟨hs, hcontains⟩ := findSegment_some hfound
      obtain ⟨-, hlow, -⟩ := (hlayout.fits s hs).contains_iff.mp hcontains
      rw [decide_eq_true_eq, hsourceEnd] at hcommitted
      exact ⟨s, hs, hlow, hcommitted⟩
  · intro s hs
    have hnot : ¬ rangesOverlap placement.runtimeStart.toNat placement.runtimeEnd
        s.virtualAddress.toNat s.endAddress = true := by
      intro hyes
      exact hclear (List.any_eq_true.mpr ⟨s, hs, hyes⟩)
    rw [hruntimeEnd, (hlayout.fits s hs).endAddress] at hnot
    exact rangesOverlap_eq_false.mp (Bool.eq_false_iff.mpr hnot)
  · intro a ha
    have hpair := forM_eq_ok hpairs a ha
    unfold checkAliasPair at hpair
    split at hpair
    · cases hpair
    split at hpair
    · cases hpair
    rename_i hnot
    have hruntime := (hlayout.aliasFits a ha).runtime
    have haend : a.runtimeEnd = a.runtimeStart.toNat + a.size.toNat := by
      apply endOf_eq
      unfold addressSpaceSize at hruntime
      omega
    rw [hruntimeEnd, haend] at hnot
    exact (rangesOverlap_eq_false.mp (Bool.eq_false_iff.mpr hnot)).symm
  · intro hmodel
    rwa [if_pos hmodel] at h

theorem addAddressAlias_outcome (hlayout : Layout live.image)
    (hbounded : (Mutation.addAddressAlias placement).Bounded) :
    Outcome live (addAddressAlias placement live) := by
  change Outcome live ((ofChecked (live.image.checkAlias placement) >>= _) live)
  refine .checked fun u hok => ?_
  obtain ⟨hfits, hclear, hapart, hunique⟩ := checkAlias_ok hbounded hlayout hok
  have hmem : ∀ a, a ∈ (live.image.addressAliases ++ [placement]).insertionSort
      ImageAddressAlias.notAbove ↔ a ∈ live.image.addressAliases ∨ a = placement := by
    intro a
    rw [List.mem_insertionSort, List.mem_append, List.mem_singleton]
  refine .analysis { live.image with
    addressAliases := (live.image.addressAliases ++ [placement]).insertionSort
      ImageAddressAlias.notAbove } ?_ ⟨rfl, rfl⟩ rfl
  refine ⟨hlayout.fits, hlayout.sorted, hlayout.apart, ?_, ?_, ?_, ?_⟩
  · intro a ha
    rcases (hmem a).mp ha with hold | rfl
    · exact hlayout.aliasFits a hold
    · exact hfits
  · exact pairwise_insertionSort_of_symm (fun _ _ => ImageAddressAlias.Apart.symm)
      (pairwise_concat hlayout.aliasApart hapart)
  · intro a ha s hs
    rcases (hmem a).mp ha with hold | rfl
    · exact hlayout.clear a hold s hs
    · exact hclear s hs
  · intro hmodel
    have howners := hlayout.owners hmodel
    obtain ⟨hwindow, hacross, hphysical⟩ :=
      requireSh4UniqueAlias_ok ⟨hfits.nonempty, hfits.runtime⟩ hlayout.fits hlayout.aliasBounds
        (hunique hmodel)
    refine ⟨howners.segmentWindows, ?_, howners.segmentsApart, ?_, ?_⟩
    · intro a ha
      rcases (hmem a).mp ha with hold | rfl
      · exact howners.aliasWindows a hold
      · exact hwindow
    · exact pairwise_insertionSort_of_symm (fun _ _ => PhysicallyApart.symm)
        (pairwise_concat howners.aliasesApart hphysical)
    · intro a ha s hs
      rcases (hmem a).mp ha with hold | rfl
      · exact howners.across a hold s hs
      · exact hacross s hs

/-! ## Calls that leave the layout alone -/

/-- Only segments, aliases and the model make up the layout. -/
theorem Layout.of_eq {other : Image} (h : Layout image)
    (hsegments : other.segments = image.segments)
    (haliases : other.addressAliases = image.addressAliases)
    (hmodel : other.addressModel = image.addressModel) : Layout other := by
  refine ⟨?_, ?_, ?_, ?_, ?_, ?_, ?_⟩
  · rw [hsegments]
    exact h.fits
  · rw [hsegments]
    exact h.sorted
  · rw [hsegments]
    exact h.apart
  · rw [hsegments, haliases]
    exact h.aliasFits
  · rw [haliases]
    exact h.aliasApart
  · rw [hsegments, haliases]
    exact h.clear
  · rw [hsegments, haliases, hmodel]
    exact h.owners

variable (hlayout : Layout live.image)
include hlayout

theorem addEntryPoint_outcome (address : BitVec 32) :
    Outcome live (addEntryPoint address live) := by
  change Outcome live ((if address ∈ live.image.entryPoints then pure () else _ : ImageM Unit) live)
  split
  · exact .kept rfl
  · exact .roots { live.image with
      entryPoints := (live.image.entryPoints ++ [address]).insertionSort addressNotAbove }
      (hlayout.of_eq rfl rfl rfl) id ⟨rfl, rfl⟩ rfl

theorem replaceEntryPoints_outcome
    (addresses : List (BitVec 32)) : Outcome live (replaceEntryPoints addresses live) := by
  change Outcome live ((if (addresses.insertionSort addressNotAbove).dedup =
    live.image.entryPoints then pure () else _ : ImageM Unit) live)
  split
  · exact .kept rfl
  · exact .roots { live.image with
      entryPoints := (addresses.insertionSort addressNotAbove).dedup }
      (hlayout.of_eq rfl rfl rfl) id ⟨rfl, rfl⟩ rfl

theorem addSymbol_outcome (symbol : ImageSymbol) : Outcome live (addSymbol symbol live) := by
  change Outcome live ((if symbol.name.isEmpty = true then throw .symbolName
    else if (live.image.findSymbol symbol.name).isSome = true then throw (.symbolTwice symbol.name)
    else _ : ImageM Unit) live)
  split
  · exact .threw _ rfl
  split
  · exact .threw _ rfl
  · exact .analysis { live.image with
      symbols := (live.image.symbols ++ [symbol]).insertionSort ImageSymbol.notAbove }
      (hlayout.of_eq rfl rfl rfl) ⟨rfl, rfl⟩ rfl

theorem addRelocation_outcome
    (relocation : ImageRelocation) : Outcome live (addRelocation relocation live) :=
  .analysis { live.image with
    relocations := (live.image.relocations ++ [relocation]).insertionSort
      ImageRelocation.notAbove } (hlayout.of_eq rfl rfl rfl) ⟨rfl, rfl⟩ rfl

omit hlayout

theorem setField_outcome {α : Type} [DecidableEq α] {read : Image → α}
    {write : α → Image → Image} {value : α} (hlayout : Layout (write value live.image))
    (hedits : Edits live.image (write value live.image)) :
    Outcome live (setField read write value live) := by
  change Outcome live ((if read live.image = value then pure () else _ : ImageM Unit) live)
  split
  · exact .kept rfl
  · exact .analysis (write value live.image) hlayout hedits rfl

theorem setAddressModel_outcome (hlayout : Layout live.image)
    (model : ImageAddressModel) : Outcome live (setAddressModel model live) := by
  change Outcome live ((ofChecked (live.image.checkModel model) >>= _) live)
  refine .checked fun u hok => ?_
  refine setField_outcome ?_ ⟨rfl, rfl⟩
  refine ⟨hlayout.fits, hlayout.sorted, hlayout.apart, hlayout.aliasFits, hlayout.aliasApart,
    hlayout.clear, ?_⟩
  intro hmodel
  change model = .sh4DirectMapped at hmodel
  rw [hmodel] at hok
  exact requireSh4UniqueLayout_ok hlayout.fits hlayout.aliasBounds hok

/-! ## Immutable ranges -/

theorem immutableSource_ok (hlayout : Layout image) {range : ImageImmutableRange}
    (h : image.immutableSource range = true) : ∃ segment ∈ image.segments,
      segment.readable = true ∧ segment.sourceKind ≠ .runtimeMemory ∧
        segment.Commits range.address range.size := by
  unfold Image.immutableSource at h
  split at h
  · cases h
  · rename_i segment hfound
    obtain ⟨hmem, hcontains⟩ := findSegment_some hfound
    obtain ⟨-, hlow, -⟩ := (hlayout.fits segment hmem).contains_iff.mp hcontains
    simp only [Bool.and_eq_true, bne_iff_ne, decide_eq_true_eq] at h
    obtain ⟨⟨⟨hreadable, hkind⟩, hsize⟩, hoffset⟩ := h
    refine ⟨segment, hmem, hreadable, hkind, hlow, ?_⟩
    omega

theorem addImmutableRange_outcome (hlayout : Layout live.image)
    (range : ImageImmutableRange) : Outcome live (addImmutableRange range live) := by
  change Outcome live ((ofChecked (live.image.checkImmutableRange range) >>= _) live)
  refine .checked fun u hok => ?_
  have hsource : live.image.immutableSource range = true := by
    unfold Image.checkImmutableRange at hok
    split at hok
    · cases hok
    split at hok
    · cases hok
    split at hok
    · cases hok
    rename_i hsource
    simpa using hsource
  refine .roots { live.image with
    immutableRanges := (live.image.immutableRanges ++
      [{ range with generation := live.image.immutableGeneration }]).insertionSort
        ImageImmutableRange.notAbove } (hlayout.of_eq rfl rfl rfl) ?_ ⟨rfl, rfl⟩ rfl
  intro hproven other hother
  rcases List.mem_append.mp ((List.mem_insertionSort _).mp hother) with hold | hnew
  · exact hproven other hold
  · rw [List.mem_singleton.mp hnew]
    exact immutableSource_ok hlayout hsource

/-! ## Bytes -/

/-- The segment is the same but for bytes that are as many. -/
structure SameShape (old new : ImageSegment) : Prop where
  start : new.virtualAddress = old.virtualAddress
  size : new.memorySize = old.memorySize
  committed : new.bytes.length = old.bytes.length

theorem length_overwrite {bytes new : List Byte} {offset : Nat}
    (h : offset + new.length ≤ bytes.length) :
    (overwrite bytes offset new).length = bytes.length := by
  unfold overwrite
  rw [List.length_append, List.length_append, List.length_take, List.length_drop]
  omega

variable {address : BitVec 32}

theorem writeFirst_sameShape {width : BitVec 64} {write : List Byte → List Byte}
    (hfound : segments.find? (fun s => s.contains address width) = some segment)
    (hlength : (write segment.bytes).length = segment.bytes.length) :
    List.Forall₂ SameShape segments (writeFirst address width write segments) := by
  have hrefl : ∀ l : List ImageSegment, List.Forall₂ SameShape l l := by
    intro l
    exact List.forall₂_same.mpr fun _ _ => ⟨rfl, rfl, rfl⟩
  induction segments with
  | nil => exact .nil
  | cons first rest ih =>
    rw [List.find?_cons] at hfound
    cases hcontains : first.contains address width with
    | true =>
      rw [hcontains] at hfound
      cases hfound
      unfold writeFirst
      rw [hcontains, if_pos rfl]
      exact .cons ⟨rfl, rfl, hlength⟩ (hrefl rest)
    | false =>
      rw [hcontains] at hfound
      unfold writeFirst
      rw [hcontains, if_neg Bool.false_ne_true]
      exact .cons ⟨rfl, rfl, rfl⟩ (ih hfound)

theorem pairwise_of_forall₂ {α : Type} {S R : α → α → Prop} {l l' : List α}
    (hR : ∀ a a' b b', S a a' → S b b' → R a b → R a' b') (hS : List.Forall₂ S l l')
    (h : l.Pairwise R) : l'.Pairwise R := by
  induction hS with
  | nil => exact .nil
  | @cons a a' rest rest' ha hrest ih =>
    rw [List.pairwise_cons] at h ⊢
    refine ⟨?_, ih h.2⟩
    intro b' hb'
    obtain ⟨i, hi, rfl⟩ := List.getElem_of_mem hb'
    have hlength := hrest.length_eq
    have hb := hrest.get (by omega) hi
    exact hR a a' _ _ ha hb (h.1 _ (List.getElem_mem _))

theorem exists_of_forall₂ {α : Type} {S : α → α → Prop} {l l' : List α} (hS : List.Forall₂ S l l')
    {a' : α} (ha' : a' ∈ l') : ∃ a ∈ l, S a a' := by
  obtain ⟨i, hi, rfl⟩ := List.getElem_of_mem ha'
  have hlength := hS.length_eq
  exact ⟨l[i], List.getElem_mem _, hS.get (by omega) hi⟩

theorem exists_image_of_forall₂ {α : Type} {S : α → α → Prop} {l l' : List α}
    (hS : List.Forall₂ S l l') {a : α} (ha : a ∈ l) : ∃ a' ∈ l', S a a' := by
  obtain ⟨i, hi, rfl⟩ := List.getElem_of_mem ha
  have hlength := hS.length_eq
  exact ⟨l'[i], List.getElem_mem _, hS.get hi (by omega)⟩

/-- Writing bytes keeps the layout. -/
theorem Layout.write (h : Layout image)
    (hshape : List.Forall₂ SameShape image.segments segments) : Layout { image with segments } := by
  refine ⟨?_, ?_, ?_, ?_, h.aliasApart, ?_, ?_⟩
  · intro t ht
    obtain ⟨s, hs, hst⟩ := exists_of_forall₂ hshape ht
    have hfits := h.fits s hs
    exact ⟨by rw [hst.size]; exact hfits.nonempty, by rw [hst.start, hst.size]; exact hfits.inside,
      by rw [hst.committed, hst.size]; exact hfits.bytes⟩
  · refine pairwise_of_forall₂ ?_ hshape h.sorted
    intro a a' b b' ha hb hab
    rw [ha.start, hb.start]
    exact hab
  · refine pairwise_of_forall₂ ?_ hshape h.apart
    intro a a' b b' ha hb hab
    unfold ImageSegment.Apart
    rw [ha.start, ha.size, hb.start, hb.size]
    exact hab
  · intro a ha
    have hfits := h.aliasFits a ha
    obtain ⟨s, hs, hcommits⟩ := hfits.source
    obtain ⟨t, ht, hst⟩ := exists_image_of_forall₂ hshape hs
    refine ⟨hfits.nonempty, ⟨t, ht, ?_⟩, hfits.runtime⟩
    unfold ImageSegment.Commits
    rw [hst.start, hst.committed]
    exact hcommits
  · intro a ha t ht
    obtain ⟨s, hs, hst⟩ := exists_of_forall₂ hshape ht
    unfold ImageAddressAlias.Clear
    rw [hst.start, hst.size]
    exact h.clear a ha s hs
  · intro hmodel
    have howners := h.owners hmodel
    refine ⟨?_, howners.aliasWindows, ?_, howners.aliasesApart, ?_⟩
    · intro t ht
      obtain ⟨s, hs, hst⟩ := exists_of_forall₂ hshape ht
      rw [hst.start, hst.size]
      exact howners.segmentWindows s hs
    · refine pairwise_of_forall₂ ?_ hshape howners.segmentsApart
      intro a a' b b' ha hb hab
      rw [ha.start, ha.size, hb.start, hb.size]
      exact hab
    · intro a ha t ht
      obtain ⟨s, hs, hst⟩ := exists_of_forall₂ hshape ht
      rw [hst.start, hst.size]
      exact howners.across a ha s hs

theorem target_ok {count : Nat} {outside uncommitted : ImageError} {offset : Nat}
    (h : image.target address count outside uncommitted = .ok (segment, offset)) :
    image.findSegment address (BitVec.ofNat 64 count) = some segment ∧
      offset + count ≤ segment.bytes.length := by
  unfold Image.target at h
  split at h
  · cases h
  rename_i found hfound
  split at h
  · cases h
  rename_i at_ hoffset
  split at h
  · cases h
  rename_i hroom
  cases h
  refine ⟨hfound, ?_⟩
  unfold ImageSegment.byteOffset at hoffset
  split at hoffset
  · cases hoffset
  split at hoffset
  · cases hoffset
  cases hoffset
  omega

theorem writeBytes_outcome (hlayout : Layout live.image) (address : BitVec 32)
    (bytes : List Byte) : Outcome live (writeBytes address bytes live) := by
  change Outcome live ((if bytes.isEmpty = true then pure () else _ : ImageM Unit) live)
  split
  · exact .kept rfl
  change Outcome live ((ofChecked (live.image.target address bytes.length .bytesOutside
    .bytesUncommitted) >>= _) live)
  refine .checked fun target hok => ?_
  obtain ⟨hfound, hroom⟩ := target_ok hok
  split
  · exact .kept rfl
  · exact .analysis { live.image with
      segments := writeFirst address (BitVec.ofNat 64 bytes.length)
        (fun old => overwrite old target.2 bytes) live.image.segments }
      (hlayout.write (writeFirst_sameShape hfound (length_overwrite hroom))) ⟨rfl, rfl⟩ rfl

theorem writeU32Le_outcome (hlayout : Layout live.image) (address value : BitVec 32) :
    Outcome live (writeU32Le address value live) := by
  change Outcome live ((ofChecked (live.image.target address 4 .wordOutside .wordUncommitted) >>= _)
    live)
  refine .checked fun target hok => ?_
  obtain ⟨hfound, hroom⟩ := target_ok hok
  have hlength : target.2 + (littleEndian 4 value).length ≤ target.1.bytes.length := by
    rw [length_littleEndian]
    exact hroom
  exact .analysis { live.image with
    segments := writeFirst address (BitVec.ofNat 64 4)
      (fun old => overwrite old target.2 (littleEndian 4 value)) live.image.segments }
    (hlayout.write (writeFirst_sameShape hfound (length_overwrite hlength))) ⟨rfl, rfl⟩ rfl

theorem perform_outcome {live : Live} (hlayout : Layout live.image) (mutation : Mutation)
    (hbounded : mutation.Bounded) : Outcome live (mutation.perform live) := by
  cases mutation with
  | addSegment segment => exact addSegment_outcome hlayout hbounded
  | addEntryPoint address => exact addEntryPoint_outcome hlayout address
  | replaceEntryPoints addresses => exact replaceEntryPoints_outcome hlayout addresses
  | addSymbol symbol => exact addSymbol_outcome hlayout symbol
  | addRelocation relocation => exact addRelocation_outcome hlayout relocation
  | addAddressAlias placement => exact addAddressAlias_outcome hlayout hbounded
  | addImmutableRange range => exact addImmutableRange_outcome hlayout range
  | setGuestCallAbi abi =>
    apply setField_outcome
    · exact hlayout.of_eq rfl rfl rfl
    · exact ⟨rfl, rfl⟩
  | setInitialSnapshotPolicy policy =>
    apply setField_outcome
    · exact hlayout.of_eq rfl rfl rfl
    · exact ⟨rfl, rfl⟩
  | setInitialSnapshotEntry address =>
    change Outcome live (setInitialSnapshotEntry address live)
    unfold setInitialSnapshotEntry
    apply setField_outcome
    · exact hlayout.of_eq rfl rfl rfl
    · exact ⟨rfl, rfl⟩
  | setAddressModel model => exact setAddressModel_outcome hlayout model
  | writeBytes address bytes => exact writeBytes_outcome hlayout address bytes
  | writeU32Le address value => exact writeU32Le_outcome hlayout address value

end KatanaRecomp.Io.ExecutableImage
