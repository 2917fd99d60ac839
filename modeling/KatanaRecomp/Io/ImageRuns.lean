import KatanaRecomp.Io.ImageMutations

/-! # Runs over several images

Identities come from one counter and a revision only grows, so the pair of both
is new whenever an image changes. Together with the layout this holds in every
state of a run in which no end of a range wraps. -/
namespace KatanaRecomp.Io.ExecutableImage
open Lib ByteFormat

/-- What analyses cache their results under. -/
def Image.pair (image : Image) : Nat × Nat := (image.analysisInstanceIdentity, image.analysisRevision)

/-! ## Contents -/

theorem layout_empty : Layout {} := by
  refine ⟨?_, .nil, .nil, ?_, .nil, ?_, ?_⟩
  · intro s hs
    cases hs
  · intro a ha
    cases ha
  · intro a ha
    cases ha
  · intro hmodel
    cases hmodel

/-- An image that is laid out and whose ranges are proven. -/
def Sound (image : Image) : Prop := Layout image ∧ Proven image

variable {image : Image}

/-- The pair of identity and revision is no part of the contents. -/
theorem Sound.repair (h : Sound image) (identity revision : Nat) :
    Sound { image with analysisInstanceIdentity := identity, analysisRevision := revision } :=
  ⟨h.1.of_eq rfl rfl rfl, h.2⟩

theorem markRootSetMutation_image (live : Live) : ∃ identity revision,
    live.markRootSetMutation.image =
      { live.image with analysisInstanceIdentity := identity, analysisRevision := revision } := by
  unfold Live.markRootSetMutation
  split
  · exact ⟨_, _, rfl⟩
  · exact ⟨_, _, rfl⟩

variable {live : Live}

theorem sound_markRootSetMutation (h : Sound live.image) :
    Sound live.markRootSetMutation.image := by
  obtain ⟨identity, revision, heq⟩ := markRootSetMutation_image live
  rw [heq]
  exact h.repair identity revision

/-- A change of the analysed contents drops all proofs. -/
theorem sound_markAnalysisMutation (h : Layout live.image) :
    Sound live.markAnalysisMutation.image := by
  unfold Live.markAnalysisMutation
  apply sound_markRootSetMutation
  refine ⟨h.of_eq rfl rfl rfl, ?_⟩
  intro range hrange
  cases hrange

theorem sound_copyOf (h : Sound image) (nextIdentity : Nat) :
    Sound (copyOf nextIdentity image).image := h.repair _ _

theorem sound_movedFrom (nextIdentity : Nat) (image : Image) :
    Sound (movedFrom nextIdentity image).image := by
  unfold movedFrom
  apply sound_markAnalysisMutation
  refine ⟨?_, .nil, .nil, ?_, .nil, ?_, ?_⟩
  · intro s hs
    cases hs
  · intro a ha
    cases ha
  · intro a ha
    cases ha
  · intro _
    refine ⟨?_, ?_, .nil, .nil, ?_⟩
    · intro s hs
      cases hs
    · intro a ha
      cases ha
    · intro a ha
      cases ha

theorem sound_rebound (h : Sound image) : Sound (rebound image) := by
  refine ⟨h.1.of_eq rfl rfl rfl, ?_⟩
  intro range hrange
  obtain ⟨old, hold, rfl⟩ := List.mem_map.mp hrange
  exact h.2 old hold

theorem sound_perform {live : Live} (h : Sound live.image) {mutation : Mutation}
    (hbounded : mutation.Bounded) : Sound (finalState (mutation.perform live)).image := by
  cases perform_outcome h.1 mutation hbounded with
  | threw e heq =>
    rw [heq]
    exact h
  | kept heq =>
    rw [heq]
    exact h
  | roots image hlayout hproven hedits heq =>
    rw [heq]
    exact sound_markRootSetMutation ⟨hlayout, hproven h.2⟩
  | analysis image hlayout hedits heq =>
    rw [heq]
    exact sound_markAnalysisMutation hlayout

/-! ## Identities -/

theorem allocate_eq {n : Nat} (hpos : 1 ≤ n) (hlt : n < 2 ^ 64) :
    allocateExecutableImageIdentity n = (n, n + 1) := by
  unfold allocateExecutableImageIdentity
  rw [Nat.mod_eq_of_lt hlt, if_neg (by omega)]

theorem lt_allocate (n : Nat) : n < (allocateExecutableImageIdentity n).2 := by
  unfold allocateExecutableImageIdentity
  split
  · exact Nat.lt_add_of_pos_right (by decide)
  · exact Nat.lt_succ_self n

/-- How a call moves the pair of the image in a slot. -/
inductive Moves (world : World) (slot : Nat) (live : Live) : Prop
  | same (old : Image) (hold : world.images slot = some old) (himage : live.image = old)
      (hnext : live.nextIdentity = world.nextIdentity)
  | revised (old : Image) (hold : world.images slot = some old)
      (hidentity : live.image.analysisInstanceIdentity = old.analysisInstanceIdentity)
      (hrevision : live.image.analysisRevision = old.analysisRevision + 1)
      (hnext : live.nextIdentity = world.nextIdentity)
  | renewed (hidentity : live.image.analysisInstanceIdentity = world.nextIdentity)
      (hnext : live.nextIdentity = world.nextIdentity + 1)

variable {world : World}

theorem moves_copyOf (hpos : 1 ≤ world.nextIdentity) (slot : Nat) (image : Image)
    (hbound : (copyOf world.nextIdentity image).nextIdentity ≤ 2 ^ 64) :
    Moves world slot (copyOf world.nextIdentity image) := by
  have hlt := lt_allocate world.nextIdentity
  have heq := allocate_eq hpos (lt_of_lt_of_le hlt hbound)
  apply Moves.renewed
  · change (allocateExecutableImageIdentity world.nextIdentity).1 = _
    rw [heq]
  · change (allocateExecutableImageIdentity world.nextIdentity).2 = _
    rw [heq]

theorem le_markRootSetMutation (live : Live) :
    live.nextIdentity ≤ live.markRootSetMutation.nextIdentity := by
  unfold Live.markRootSetMutation
  split
  · exact Nat.le_of_lt (lt_allocate live.nextIdentity)
  · exact Nat.le_refl _

variable {slot : Nat}

theorem moves_markRootSetMutation (hpos : 1 ≤ world.nextIdentity)
    {old : Image} (hold : world.images slot = some old)
    (hnext : live.nextIdentity = world.nextIdentity) (hedits : Edits old live.image)
    (hbound : live.markRootSetMutation.nextIdentity ≤ 2 ^ 64) :
    Moves world slot live.markRootSetMutation := by
  unfold Live.markRootSetMutation at hbound ⊢
  split
  · rename_i hmax
    rw [if_pos hmax] at hbound
    have hlt := lt_allocate live.nextIdentity
    have heq := allocate_eq (by omega) (lt_of_lt_of_le hlt hbound)
    apply Moves.renewed
    · change (allocateExecutableImageIdentity live.nextIdentity).1 = _
      rw [heq, hnext]
    · change (allocateExecutableImageIdentity live.nextIdentity).2 = _
      rw [heq, hnext]
  · refine Moves.revised old hold ?_ ?_ ?_
    · exact hedits.identity
    · change live.image.analysisRevision + 1 = _
      rw [hedits.revision]
    · exact hnext

theorem moves_markAnalysisMutation (hpos : 1 ≤ world.nextIdentity)
    {old : Image} (hold : world.images slot = some old)
    (hnext : live.nextIdentity = world.nextIdentity) (hedits : Edits old live.image)
    (hbound : live.markAnalysisMutation.nextIdentity ≤ 2 ^ 64) :
    Moves world slot live.markAnalysisMutation :=
  moves_markRootSetMutation hpos hold hnext ⟨hedits.identity, hedits.revision⟩ hbound

/-- The pairs that images have had up to now. -/
structure Tracks (seen : Set (Nat × Nat)) (world : World) : Prop where
  positive : 1 ≤ world.nextIdentity
  current : ∀ slot image, world.images slot = some image → image.pair ∈ seen
  bounded : ∀ p ∈ seen, p.1 < world.nextIdentity
  newest : ∀ slot image, world.images slot = some image → ∀ p ∈ seen,
    p.1 = image.analysisInstanceIdentity → p.2 ≤ image.analysisRevision
  distinct : ∀ slot other image image', world.images slot = some image →
    world.images other = some image' →
    image.analysisInstanceIdentity = image'.analysisInstanceIdentity → slot = other

theorem World.put_images (world : World) (slot : Nat) (live : Live) (other : Nat) :
    (world.put slot live).images other =
      if other = slot then some live.image else world.images other := by
  change Function.update world.images slot (some live.image) other = _
  rw [Function.update_apply]

variable {seen : Set (Nat × Nat)}

/-- A moved pair is new, unless nothing moved. -/
theorem Tracks.fresh (h : Tracks seen world)
    (hmoves : Moves world slot live) (hchanged : world.images slot ≠ some live.image) :
    live.image.pair ∉ seen := by
  intro hseen
  cases hmoves with
  | same old hold himage _ =>
    rw [himage] at hchanged
    exact hchanged hold
  | revised old hold hidentity hrevision _ =>
    have hle := h.newest slot old hold _ hseen hidentity
    change live.image.analysisRevision ≤ _ at hle
    omega
  | renewed hidentity _ =>
    have hlt := h.bounded _ hseen
    change live.image.analysisInstanceIdentity < _ at hlt
    omega

theorem Moves.next_le (h : Moves world slot live) : world.nextIdentity ≤ live.nextIdentity := by
  cases h with
  | same _ _ _ hnext => omega
  | revised _ _ _ _ hnext => omega
  | renewed _ hnext => omega

theorem Tracks.put (h : Tracks seen world) (hmoves : Moves world slot live) :
    Tracks (insert live.image.pair seen) (world.put slot live) := by
  have hnext := hmoves.next_le
  -- no other image has the identity of the one that is put
  have hother : ∀ other image, other ≠ slot → world.images other = some image →
      image.analysisInstanceIdentity ≠ live.image.analysisInstanceIdentity := by
    intro other image hne himage heq
    cases hmoves with
    | same old hold hsame _ =>
      rw [hsame] at heq
      exact hne (h.distinct other slot image old himage hold heq)
    | revised old hold hidentity _ _ =>
      rw [hidentity] at heq
      exact hne (h.distinct other slot image old himage hold heq)
    | renewed hidentity _ =>
      have hlt := h.bounded _ (h.current other image himage)
      change image.analysisInstanceIdentity < _ at hlt
      omega
  -- the image that is put has the newest revision of its identity
  have hnewest : ∀ p ∈ seen, p.1 = live.image.analysisInstanceIdentity →
      p.2 ≤ live.image.analysisRevision := by
    intro p hp heq
    cases hmoves with
    | same old hold hsame _ =>
      rw [hsame] at heq ⊢
      exact h.newest slot old hold p hp heq
    | revised old hold hidentity hrevision _ =>
      rw [hidentity] at heq
      have hle := h.newest slot old hold p hp heq
      omega
    | renewed hidentity _ =>
      have hlt := h.bounded p hp
      omega
  have hbound : live.image.analysisInstanceIdentity < live.nextIdentity := by
    cases hmoves with
    | same old hold hsame heq =>
      have hlt := h.bounded _ (h.current slot old hold)
      change old.analysisInstanceIdentity < _ at hlt
      rw [hsame]
      omega
    | revised old hold hidentity _ heq =>
      have hlt := h.bounded _ (h.current slot old hold)
      change old.analysisInstanceIdentity < _ at hlt
      omega
    | renewed hidentity heq => omega
  refine ⟨?_, ?_, ?_, ?_, ?_⟩
  · change 1 ≤ live.nextIdentity
    have := h.positive
    omega
  · intro other image himage
    rw [World.put_images] at himage
    split at himage
    · cases himage
      exact Set.mem_insert _ _
    · exact Set.mem_insert_of_mem _ (h.current other image himage)
  · intro p hp
    change p.1 < live.nextIdentity
    rcases hp with rfl | hp
    · exact hbound
    · have := h.bounded p hp
      omega
  · intro other image himage p hp heq
    rw [World.put_images] at himage
    split at himage
    · cases himage
      rcases hp with rfl | hp
      · exact Nat.le_refl _
      · exact hnewest p hp heq
    · rename_i hne
      rcases hp with rfl | hp
      · exact absurd heq.symm (hother other image hne himage)
      · exact h.newest other image himage p hp heq
  · intro first second image image' himage himage' heq
    rw [World.put_images] at himage himage'
    split at himage
    · cases himage
      split at himage'
      · rename_i hfirst hsecond
        rw [hfirst, hsecond]
      · rename_i hne
        exact absurd heq.symm (hother second image' hne himage')
    · rename_i hne
      split at himage'
      · cases himage'
        exact absurd heq (hother first image hne himage)
      · exact h.distinct first second image image' himage himage' heq

/-! ## One operation -/

/-- No end of a range that the operation is given wraps. -/
def Operation.Bounded : Operation → Prop
  | .call _ mutation => mutation.Bounded
  | _ => True

/-- All images are sound and the pairs of the images that changed are new. -/
structure Step (seen : Set (Nat × Nat)) (world next : World) : Prop where
  sound : ∀ slot image, next.images slot = some image → Sound image
  tracks : ∃ more, seen ⊆ more ∧ Tracks more next
  fresh : ∀ slot image, next.images slot = some image → world.images slot ≠ some image →
    image.pair ∉ seen

variable (hsound : ∀ slot image, world.images slot = some image → Sound image)
include hsound

theorem Step.refl (htracks : Tracks seen world) : Step seen world world :=
  ⟨hsound, ⟨seen, subset_rfl, htracks⟩, fun _ _ himage hne => absurd himage hne⟩

theorem Step.put (htracks : Tracks seen world) (hlive : Sound live.image)
    (hmoves : Moves world slot live) : Step seen world (world.put slot live) := by
  refine ⟨?_, ⟨_, Set.subset_insert _ _, htracks.put hmoves⟩, ?_⟩
  · intro other image himage
    rw [World.put_images] at himage
    split at himage
    · cases himage
      exact hlive
    · exact hsound other image himage
  · intro other image himage hchanged
    rw [World.put_images] at himage
    split at himage
    · rename_i hslot
      cases himage
      rw [hslot] at hchanged
      exact htracks.fresh hmoves hchanged
    · exact absurd himage hchanged

omit hsound

theorem Step.trans {next last : World} (hfirst : Step seen world next)
    (hsecond : ∀ more, seen ⊆ more → Tracks more next → Step more next last) :
    Step seen world last := by
  obtain ⟨more, hmore, htracks⟩ := hfirst.tracks
  have hstep := hsecond more hmore htracks
  obtain ⟨most, hmost, hlast⟩ := hstep.tracks
  refine ⟨hstep.sound, ⟨most, hmore.trans hmost, hlast⟩, ?_⟩
  intro slot image himage hchanged
  by_cases hsame : next.images slot = some image
  · exact hfirst.fresh slot image hsame hchanged
  · exact fun hseen => hstep.fresh slot image himage hsame (hmore hseen)

theorem step_moveInto (hsound : ∀ slot image, world.images slot = some image → Sound image)
    (htracks : Tracks seen world) {other : Nat} {copied : Image} (hne : slot ≠ other)
    (hother : world.images other = some image) (hcopied : Sound copied)
    (hbound : (world.moveInto slot other image copied).nextIdentity ≤ 2 ^ 64) :
    Step seen world (world.moveInto slot other image copied) := by
  have hle := le_markRootSetMutation
    { nextIdentity := (copyOf world.nextIdentity copied).nextIdentity
      image :=
        { image with
          segments := []
          entryPoints := []
          symbols := []
          relocations := []
          addressAliases := []
          immutableRanges := []
          immutableGeneration :=
            if image.immutableGeneration = uint64Max then 1 else image.immutableGeneration + 1 } }
  have hcopyBound : (copyOf world.nextIdentity copied).nextIdentity ≤ 2 ^ 64 := by
    refine le_trans ?_ hbound
    exact hle
  have hfirst := Step.put hsound htracks (sound_copyOf hcopied world.nextIdentity)
    (moves_copyOf htracks.positive slot copied hcopyBound)
  refine hfirst.trans fun more _ hmore => ?_
  refine Step.put hfirst.sound hmore (sound_movedFrom _ image) ?_
  have hkept : (world.put slot (copyOf world.nextIdentity copied)).images other = some image := by
    rw [World.put_images, if_neg (Ne.symm hne)]
    exact hother
  unfold movedFrom
  apply moves_markAnalysisMutation hmore.positive hkept
  · rfl
  · exact ⟨rfl, rfl⟩
  · exact hbound

/-- A call moves the pair of its image unless it leaves the image as it is. -/
theorem moves_perform (hpos : 1 ≤ world.nextIdentity)
    (hslot : world.images slot = some image) (hsound : Sound image) {mutation : Mutation}
    (hbounded : mutation.Bounded) (hbound : (finalState (mutation.perform
      { nextIdentity := world.nextIdentity, image })).nextIdentity ≤ 2 ^ 64) :
    Moves world slot (finalState (mutation.perform { nextIdentity := world.nextIdentity, image })) := by
  have houtcome := @perform_outcome { nextIdentity := world.nextIdentity, image } hsound.1 mutation
    hbounded
  cases houtcome with
  | threw e heq =>
    rw [heq]
    exact .same image hslot rfl rfl
  | kept heq =>
    rw [heq]
    exact .same image hslot rfl rfl
  | roots edited hlayout hproven hedits heq =>
    rw [heq] at hbound ⊢
    exact moves_markRootSetMutation hpos hslot rfl hedits hbound
  | analysis edited hlayout hedits heq =>
    rw [heq] at hbound ⊢
    exact moves_markAnalysisMutation hpos hslot rfl hedits hbound

theorem step_step (hsound : ∀ slot image, world.images slot = some image → Sound image)
    (htracks : Tracks seen world) (operation : Operation) (hbounded : operation.Bounded)
    (hbound : (step world operation).nextIdentity ≤ 2 ^ 64) :
    Step seen world (step world operation) := by
  have hrefl := Step.refl hsound htracks
  cases operation with
  | construct slot =>
    unfold step at hbound ⊢
    dsimp only at hbound ⊢
    split
    · exact hrefl
    · rename_i hnone
      rw [if_neg hnone] at hbound
      refine Step.put hsound htracks (sound_copyOf ⟨layout_empty, ?_⟩ _)
        (moves_copyOf htracks.positive slot {} hbound)
      intro range hrange
      cases hrange
  | copyConstruct slot other =>
    unfold step at hbound ⊢
    dsimp only at hbound ⊢
    split
    · rename_i image hslot hother
      rw [hslot, hother] at hbound
      exact Step.put hsound htracks (sound_copyOf (hsound other image hother) _)
        (moves_copyOf htracks.positive slot image hbound)
    · exact hrefl
  | moveConstruct slot other =>
    unfold step at hbound ⊢
    dsimp only at hbound ⊢
    split
    · rename_i image hslot hother
      rw [hslot, hother] at hbound
      have hne : slot ≠ other := by
        rintro rfl
        rw [hslot] at hother
        cases hother
      exact step_moveInto hsound htracks hne hother (hsound other image hother) hbound
    · exact hrefl
  | copyAssign slot other =>
    unfold step at hbound ⊢
    dsimp only at hbound ⊢
    split
    · rename_i old image hslot hother
      rw [hslot, hother] at hbound
      dsimp only at hbound
      split
      · exact hrefl
      · rename_i hne
        rw [if_neg hne] at hbound
        exact Step.put hsound htracks (sound_copyOf (hsound other image hother) _)
          (moves_copyOf htracks.positive slot image hbound)
    · exact hrefl
  | moveAssign slot other =>
    unfold step at hbound ⊢
    dsimp only at hbound ⊢
    split
    · rename_i old image hslot hother
      rw [hslot, hother] at hbound
      dsimp only at hbound
      split
      · exact hrefl
      · rename_i hne
        rw [if_neg hne] at hbound
        exact step_moveInto hsound htracks hne hother (sound_rebound (hsound other image hother))
          hbound
    · exact hrefl
  | destroy slot =>
    have hsome : ∀ {other image}, (step world (.destroy slot)).images other = some image →
        world.images other = some image := by
      intro other image himage
      change Function.update world.images slot none other = some image at himage
      rw [Function.update_apply] at himage
      split at himage
      · cases himage
      · exact himage
    refine ⟨fun other image himage => hsound other image (hsome himage), ⟨seen, subset_rfl, ?_⟩, ?_⟩
    · exact ⟨htracks.positive, fun other image himage => htracks.current other image (hsome himage),
        htracks.bounded, fun other image himage => htracks.newest other image (hsome himage),
        fun first second image image' himage himage' =>
          htracks.distinct first second image image' (hsome himage) (hsome himage')⟩
    · intro other image himage hchanged
      exact absurd (hsome himage) hchanged
  | call slot mutation =>
    unfold step at hbound ⊢
    dsimp only at hbound ⊢
    split
    · exact hrefl
    · rename_i image hslot
      rw [hslot] at hbound
      have hsoundImage := hsound slot image hslot
      have hperformed := @sound_perform { nextIdentity := world.nextIdentity, image } hsoundImage
        mutation hbounded
      exact Step.put hsound htracks hperformed
        (moves_perform htracks.positive hslot hsoundImage hbounded hbound)

/-! ## Whole runs -/

theorem run_concat (operations : List Operation) (operation : Operation) :
    run (operations ++ [operation]) = step (run operations) operation := List.foldl_concat _ _ _ _

/-- The pairs that images have had in the states of a run. -/
def pairsOf (operations : List Operation) : Set (Nat × Nat) :=
  { p | ∃ k ≤ operations.length, ∃ slot image,
    (run (operations.take k)).images slot = some image ∧ image.pair = p }

theorem pairsOf_concat {operations : List Operation} {operation : Operation} {p : Nat × Nat}
    (h : p ∈ pairsOf (operations ++ [operation])) : p ∈ pairsOf operations ∨
      ∃ slot image, (run (operations ++ [operation])).images slot = some image ∧ image.pair = p := by
  obtain ⟨k, hk, slot, image, himage, hpair⟩ := h
  rw [List.length_append, List.length_singleton] at hk
  rcases Nat.lt_or_ge operations.length k with hlt | hle
  · right
    rw [List.take_of_length_le (by rw [List.length_append, List.length_singleton]; omega)] at himage
    exact ⟨slot, image, himage, hpair⟩
  · left
    rw [List.take_append_of_le_length hle] at himage
    exact ⟨k, hle, slot, image, himage, hpair⟩

/-! ### The counter never goes back -/

/-- Whether it returns or throws, the code leaves the counter where it was or behind it. -/
def Grows {α : Type} (x : ImageM α) : Prop :=
  ∀ live, Ensures x live (fun _ t => live.nextIdentity ≤ t.nextIdentity)
    (fun _ t => live.nextIdentity ≤ t.nextIdentity)

namespace Grows

theorem bind {α β : Type} {x : ImageM α} {f : α → ImageM β} (hx : Grows x)
    (hf : ∀ a, Grows (f a)) : Grows (x >>= f) := by
  intro live
  refine Ensures.bind ((hx live).mono ?_ fun _ _ h => h)
  intro a t ht
  refine (hf a t).mono ?_ ?_
  · intro _ u hu
    exact le_trans ht hu
  · intro _ u hu
    exact le_trans ht hu

theorem keep {α : Type} (a : α) : Grows (Pure.pure a : ImageM α) := fun live => le_refl live.nextIdentity

theorem throw {α : Type} (e : ImageError) : Grows (MonadExcept.throw e : ImageM α) :=
  fun live => le_refl live.nextIdentity

theorem get : Grows (MonadState.get : ImageM Live) := fun live => le_refl live.nextIdentity

theorem edit (f : Image → Image) : Grows (ExecutableImage.edit f) :=
  fun live => le_refl live.nextIdentity

theorem markRoots : Grows (modify Live.markRootSetMutation) := fun live => le_markRootSetMutation live

theorem markAnalysis : Grows (modify Live.markAnalysisMutation) := by
  intro live
  exact le_markRootSetMutation
    { live with
      image :=
        { live.image with
          immutableRanges := []
          immutableGeneration :=
            if live.image.immutableGeneration = uint64Max then 1
            else live.image.immutableGeneration + 1 } }

theorem checked {α : Type} (check : Except ImageError α) : Grows (Lib.ofChecked check) := by
  intro live
  refine Ensures.ofChecked ?_ ?_
  · intro _ _
    exact le_refl _
  · intro _ _
    exact le_refl _

theorem ite {α : Type} {c : Prop} [Decidable c] {x y : ImageM α} (hx : Grows x) (hy : Grows y) :
    Grows (if c then x else y) := by
  split
  · exact hx
  · exact hy

theorem setField {α : Type} [DecidableEq α] (read : Image → α) (write : α → Image → Image)
    (value : α) : Grows (ExecutableImage.setField read write value) :=
  .bind .get fun _ => .ite (.keep ()) (.bind (.edit _) fun _ => .markAnalysis)

theorem perform (mutation : Mutation) : Grows mutation.perform := by
  cases mutation with
  | addSegment segment =>
    exact .bind .get fun _ => .bind (.checked _) fun _ => .bind (.edit _) fun _ =>
      .bind (.edit _) fun _ => .markAnalysis
  | addEntryPoint address =>
    exact .bind .get fun _ => .ite (.keep ()) (.bind (.edit _) fun _ => .bind (.edit _) fun _ =>
      .markRoots)
  | replaceEntryPoints addresses =>
    exact .bind .get fun _ => .ite (.keep ()) (.bind (.edit _) fun _ => .markRoots)
  | addSymbol symbol =>
    exact .bind .get fun _ => .ite (.throw _) (.ite (.throw _) (.bind (.edit _) fun _ =>
      .bind (.edit _) fun _ => .markAnalysis))
  | addRelocation relocation =>
    exact .bind (.edit _) fun _ => .bind (.edit _) fun _ => .markAnalysis
  | addAddressAlias placement =>
    exact .bind .get fun _ => .bind (.checked _) fun _ => .bind (.edit _) fun _ =>
      .bind (.edit _) fun _ => .markAnalysis
  | addImmutableRange range =>
    exact .bind .get fun _ => .bind (.checked _) fun _ => .bind (.edit _) fun _ =>
      .bind (.edit _) fun _ => .markRoots
  | setGuestCallAbi abi =>
    exact .setField Image.guestCallAbi (fun value image => { image with guestCallAbi := value }) abi
  | setInitialSnapshotPolicy policy =>
    exact .setField Image.initialSnapshotPolicy
      (fun value image => { image with initialSnapshotPolicy := value }) policy
  | setInitialSnapshotEntry address =>
    exact .setField Image.initialSnapshotEntry
      (fun value image => { image with initialSnapshotEntry := value }) (some address)
  | setAddressModel model =>
    exact .bind .get fun _ => .bind (.checked _) fun _ => .setField _ _ _
  | writeBytes address bytes =>
    exact .bind .get fun _ => .ite (.keep ()) (.bind (.checked _) fun _ => .ite (.keep ())
      (.bind (.edit _) fun _ => .markAnalysis))
  | writeU32Le address value =>
    exact .bind .get fun _ => .bind (.checked _) fun _ => .bind (.edit _) fun _ => .markAnalysis

theorem finalState {α : Type} {x : ImageM α} (h : Grows x) (live : Live) :
    live.nextIdentity ≤ (ExecutableImage.finalState (x live)).nextIdentity := by
  have hlive := h live
  unfold Ensures at hlive
  cases hx : x live with
  | ok a t =>
    rw [hx] at hlive
    exact hlive
  | error e t =>
    rw [hx] at hlive
    exact hlive

end Grows

theorem next_le_copyOf (nextIdentity : Nat) (image : Image) :
    nextIdentity ≤ (copyOf nextIdentity image).nextIdentity :=
  Nat.le_of_lt (lt_allocate nextIdentity)

theorem next_le_moveInto (world : World) (slot other : Nat) (image copied : Image) :
    world.nextIdentity ≤ (world.moveInto slot other image copied).nextIdentity := by
  refine le_trans (next_le_copyOf world.nextIdentity copied) ?_
  exact Grows.markAnalysis
    { nextIdentity := (copyOf world.nextIdentity copied).nextIdentity
      image :=
        { image with
          segments := []
          entryPoints := []
          symbols := []
          relocations := []
          addressAliases := []
          immutableRanges := [] } }

theorem next_le_step (world : World) (operation : Operation) :
    world.nextIdentity ≤ (step world operation).nextIdentity := by
  cases operation with
  | construct slot =>
    unfold step
    dsimp only
    split
    · exact le_refl _
    · exact next_le_copyOf _ {}
  | copyConstruct slot other =>
    unfold step
    dsimp only
    split
    · rename_i image _ _
      exact next_le_copyOf world.nextIdentity image
    · exact le_refl _
  | moveConstruct slot other =>
    unfold step
    dsimp only
    split
    · exact next_le_moveInto _ _ _ _ _
    · exact le_refl _
  | copyAssign slot other =>
    unfold step
    dsimp only
    split
    · rename_i image _ _
      split
      · exact le_refl _
      · exact next_le_copyOf world.nextIdentity image
    · exact le_refl _
  | moveAssign slot other =>
    unfold step
    dsimp only
    split
    · split
      · exact le_refl _
      · exact next_le_moveInto _ _ _ _ _
    · exact le_refl _
  | destroy slot => exact le_refl _
  | call slot mutation =>
    unfold step
    dsimp only
    split
    · exact le_refl _
    · rename_i image _
      exact (Grows.perform mutation).finalState { nextIdentity := world.nextIdentity, image }

/-! ### The theorem -/

/-- The invariant of a run. -/
theorem run_tracks (operations : List Operation) (hbounded : ∀ o ∈ operations, o.Bounded)
    (hbound : (run operations).nextIdentity ≤ 2 ^ 64) :
    (∀ slot image, (run operations).images slot = some image → Sound image) ∧
      Tracks (pairsOf operations) (run operations) := by
  induction operations using List.reverseRecOn with
  | nil =>
    have hnone : ∀ slot image, (run []).images slot ≠ some image := by
      intro slot image himage
      cases himage
    have hseen : ∀ p, p ∉ pairsOf [] := by
      rintro p ⟨k, hk, slot, image, himage, hpair⟩
      rw [List.take_nil] at himage
      exact hnone slot image himage
    refine ⟨fun slot image himage => absurd himage (hnone slot image), le_refl 1, ?_, ?_, ?_, ?_⟩
    · intro slot image himage
      exact absurd himage (hnone slot image)
    · intro p hp
      exact absurd hp (hseen p)
    · intro slot image himage
      exact absurd himage (hnone slot image)
    · intro slot other image image' himage
      exact absurd himage (hnone slot image)
  | append_singleton operations operation ih =>
    rw [run_concat] at hbound
    obtain ⟨hsound, htracks⟩ := ih (fun o ho => hbounded o (List.mem_append_left _ ho))
      (le_trans (next_le_step _ operation) hbound)
    have hstep := step_step hsound htracks operation
      (hbounded operation (List.mem_append_right _ (List.mem_singleton_self _))) hbound
    obtain ⟨more, hmore, hnext⟩ := hstep.tracks
    rw [run_concat]
    refine ⟨hstep.sound, hnext.positive, ?_, ?_, ?_, hnext.distinct⟩
    · intro slot image himage
      refine ⟨(operations ++ [operation]).length, le_refl _, slot, image, ?_, rfl⟩
      rw [List.take_length, run_concat]
      exact himage
    all_goals
      have hsub : pairsOf (operations ++ [operation]) ⊆ more := by
        intro p hp
        rcases pairsOf_concat hp with hold | ⟨slot, image, himage, rfl⟩
        · exact hmore hold
        · rw [run_concat] at himage
          exact hnext.current slot image himage
    · intro p hp
      exact hnext.bounded p (hsub hp)
    · intro slot image himage p hp
      exact hnext.newest slot image himage p (hsub hp)

/-- What a reported immutable range is worth. -/
theorem findImmutableRange_committed (h : Sound image) {address : BitVec 32}
    {width : BitVec 64} {range : ImageImmutableRange}
    (hfound : image.findImmutableRange address width = some range) :
    range ∈ image.immutableRanges ∧ ∃ segment ∈ image.segments,
      segment.readable = true ∧ segment.sourceKind ≠ .runtimeMemory ∧
        segment.Commits range.address range.size := by
  unfold Image.findImmutableRange at hfound
  split at hfound
  · cases hfound
  · have hmem := List.mem_of_find?_eq_some hfound
    exact ⟨hmem, h.2 range hmem⟩

/-- In every state of a run in which no end of a range wraps and identities do not run out, the
layout keeps its owners apart, a resolution below the limit depends on the physical address alone,
a call that throws changes nothing and reported immutable ranges are committed; and every image
that a step changed has a pair of identity and revision that no image had before. -/
theorem run_layout_identity (operations : List Operation)
    (hbounded : ∀ operation ∈ operations, operation.Bounded)
    (hidentities : (run operations).nextIdentity ≤ 2 ^ 64) :
    (∀ slot image, (run operations).images slot = some image → Layout image ∧
      (image.addressModel = .sh4DirectMapped → ∀ (first second : BitVec 32) (width : BitVec 64),
        first.toNat < sh4DirectAddressLimit → second.toNat < sh4DirectAddressLimit →
        physicalAddress first = physicalAddress second →
        image.resolveSegmentAddress first width = image.resolveSegmentAddress second width) ∧
      (∀ address width resolved, image.resolveSegmentAddress address width = some resolved →
        image.resolveSegmentAddress resolved width = some resolved) ∧
      (∀ (mutation : Mutation) e after, mutation.Bounded →
        mutation.perform { nextIdentity := (run operations).nextIdentity, image } = .error e after →
        after = { nextIdentity := (run operations).nextIdentity, image }) ∧
      (∀ address width range, image.findImmutableRange address width = some range →
        ∃ segment ∈ image.segments, segment.readable = true ∧
          segment.sourceKind ≠ .runtimeMemory ∧ segment.Commits range.address range.size)) ∧
    (∀ before operation after, operations = before ++ operation :: after → ∀ slot image,
      (run (before ++ [operation])).images slot = some image →
      (run before).images slot ≠ some image → ∀ k ≤ before.length, ∀ other earlier,
        (run (before.take k)).images other = some earlier → earlier.pair ≠ image.pair) := by
  refine ⟨?_, ?_⟩
  · intro slot image himage
    have hsound := (run_tracks operations hbounded hidentities).1 slot image himage
    refine ⟨hsound.1, ?_, ?_, ?_, ?_⟩
    · intro hmodel first second width hfirst hsecond hsame
      exact hsound.1.resolve_physical hmodel hfirst hsecond hsame
    · intro address width resolved hresolve
      exact resolveSegmentAddress_resolved hresolve
    · intro mutation e after hmutation hthrown
      have houtcome := @perform_outcome { nextIdentity := (run operations).nextIdentity, image }
        hsound.1 mutation hmutation
      cases houtcome with
      | threw e' heq =>
        rw [hthrown] at heq
        cases heq
        rfl
      | kept heq =>
        rw [hthrown] at heq
        cases heq
      | roots _ _ _ _ heq =>
        rw [hthrown] at heq
        cases heq
      | analysis _ _ _ heq =>
        rw [hthrown] at heq
        cases heq
    · intro address width range hfound
      exact (findImmutableRange_committed hsound hfound).2
  · intro before operation after hsplit slot image himage hchanged k hk other earlier hearlier heq
    have hstart : ∀ o ∈ before ++ [operation], o.Bounded := by
      intro o ho
      apply hbounded
      rw [hsplit]
      rcases List.mem_append.mp ho with hleft | hright
      · exact List.mem_append_left _ hleft
      · rw [List.mem_singleton.mp hright]
        exact List.mem_append_right _ List.mem_cons_self
    have hlater : (step (run before) operation).nextIdentity ≤ (run operations).nextIdentity := by
      have hrest : ∀ (rest : List Operation) (world : World),
          world.nextIdentity ≤ (rest.foldl step world).nextIdentity := by
        intro rest
        induction rest with
        | nil =>
          intro world
          exact le_refl _
        | cons o rest ih =>
          intro world
          exact le_trans (next_le_step world o) (ih (step world o))
      have hrun : run operations = after.foldl step (step (run before) operation) := by
        rw [hsplit]
        unfold run
        rw [List.foldl_append, List.foldl_cons]
      rw [hrun]
      exact hrest after _
    have hbound := le_trans hlater hidentities
    obtain ⟨hsound, htracks⟩ := run_tracks before
      (fun o ho => hstart o (List.mem_append_left _ ho))
      (le_trans (next_le_step _ operation) hbound)
    have hstep := step_step hsound htracks operation
      (hstart operation (List.mem_append_right _ (List.mem_singleton_self _))) hbound
    rw [run_concat] at himage
    refine hstep.fresh slot image himage hchanged ?_
    rw [← heq]
    exact ⟨k, hk, other, earlier, hearlier, rfl⟩

def lowSegment : ImageSegment :=
  { name := "low", virtualAddress := 0x8C000000, memorySize := 0x20, bytes := [0, 0, 0, 0] }

def highSegment : ImageSegment :=
  { name := "high", virtualAddress := 0x8C000100, memorySize := 0x10, bytes := [] }

theorem run_layout_identity_copied :
    let operations := [Operation.construct 0, .call 0 (.addSegment lowSegment), .copyConstruct 1 0]
    (∀ operation ∈ operations, operation.Bounded) ∧ (run operations).nextIdentity ≤ 2 ^ 64 ∧
      ∀ slot image, (run operations).images slot = some image → Layout image := by
  intro operations
  have hbounded : ∀ operation ∈ operations, operation.Bounded := by
    intro operation hmem
    rcases List.mem_cons.mp hmem with rfl | hmem
    · trivial
    rcases List.mem_cons.mp hmem with rfl | hmem
    · change (0x8C000000 : BitVec 32).toNat + (0x20 : BitVec 64).toNat < 2 ^ 64
      decide
    rw [List.mem_singleton.mp hmem]
    trivial
  have hidentities : (run operations).nextIdentity ≤ 2 ^ 64 := by decide
  refine ⟨hbounded, hidentities, ?_⟩
  intro slot image himage
  exact ((run_layout_identity operations hbounded hidentities).1 slot image himage).1

/-- The end of the alias wraps, so no check sees how far it reaches. -/
def wrappedAlias : ImageAddressAlias :=
  { sourceStart := 0x8C000000, runtimeStart := 0x8C0000F8, size := 0xFFFFFFFFFFFFFFFF }

def wrappedRun : List Operation :=
  [.construct 0, .call 0 (.setAddressModel .sh4DirectMapped), .call 0 (.addSegment lowSegment),
    .call 0 (.addSegment highSegment), .call 0 (.addAddressAlias wrappedAlias)]

def wrappedImage : Image := ((run wrappedRun).images 0).getD {}

/-- Two addresses of one physical byte resolve to different segments. -/
theorem wrappedAlias_resolves_apart :
    (run wrappedRun).images 0 = some wrappedImage ∧ (run wrappedRun).nextIdentity ≤ 2 ^ 64 ∧
      wrappedImage.addressModel = .sh4DirectMapped ∧
      physicalAddress 0x8C000108 = physicalAddress 0x0C000108 ∧
      wrappedImage.resolveSegmentAddress 0x8C000108 1 = some 0x8C000108 ∧
      wrappedImage.resolveSegmentAddress 0x0C000108 1 = some 0x8C000010 := by
  refine ⟨?_, ?_, ?_, ?_, ?_, ?_⟩
  all_goals decide

end KatanaRecomp.Io.ExecutableImage
