import KatanaRecomp.Runtime.BlockDispatch

/-! # Rejected registrations

A registration that throws leaves the table alone only where it throws early: an
insertion forgets the rejection of its start before its last checks, and a bulk
keeps the blocks in front of the one that throws. -/
namespace KatanaRecomp.Runtime.RuntimeBlockTable

/-- A request that the table may reject. -/
inductive Registration
  | static (block : RuntimeBlock)
  | bootstrapStatic (block : RuntimeBlock)
  | staticVariant (trackers : Nat → ExecutableCodeTracker) (virtualAddress physicalAddress : BitVec 32)
      (sourceVariant targetVariant : BlockVariantKey)
  | runtime (block : RuntimeBlock)
  | staticBulk (blocks : List RuntimeBlock)
  | staticContextualBulk (blocks : List RuntimeBlock)

def isError {α : Type} : Except String α → Bool
  | .error _ => true
  | .ok _ => false

/-- No block, whether by an exception or by `std::nullopt`. -/
def isMissing {α : Type} : Except String (Option α) → Bool
  | .ok (some _) => false
  | _ => true

/-- Whether the request is rejected, and the table behind it. -/
def register (t : RuntimeBlockTable) : Registration → Bool × RuntimeBlockTable
  | .static block =>
    let (answer, t) := t.registerStatic block
    (isError answer, t)
  | .bootstrapStatic block =>
    let (answer, t) := t.registerBootstrapStatic block
    (isError answer, t)
  | .staticVariant trackers virtualAddress physicalAddress sourceVariant targetVariant =>
    let (answer, t) := t.registerStaticVariant trackers virtualAddress physicalAddress
      sourceVariant targetVariant
    (isMissing answer, t)
  | .runtime block =>
    let (answer, t) := t.registerRuntime block
    (isError answer, t)
  | .staticBulk blocks =>
    let (answer, t) := t.registerStaticBulk blocks
    (isError answer, t)
  | .staticContextualBulk blocks =>
    let (answer, t) := t.registerStaticContextualBulk blocks
    (isError answer, t)

/-- The table without the flag that only says how ranges are searched. -/
def observed (t : RuntimeBlockTable) : RuntimeBlockTable :=
  { t with contextualVirtualOverlaps := false }

variable {t : RuntimeBlockTable} {block : RuntimeBlock}

/-! ## One block -/

def forget (t : RuntimeBlockTable) (key : VariantAddressKey) : RuntimeBlockTable :=
  { t with rejectedGenerations := Function.update t.rejectedGenerations key none }

theorem observed_forget_eq_iff {key : VariantAddressKey} :
    (t.forget key).observed = t.observed ↔ t.rejectedGenerations key = none := by
  constructor
  · intro h
    have hrejected := congrFun (congrArg RuntimeBlockTable.rejectedGenerations h) key
    change Function.update t.rejectedGenerations key none key = t.rejectedGenerations key at hrejected
    rw [← hrejected, Function.update_self]
  · intro h
    have hsame : Function.update t.rejectedGenerations key none = t.rejectedGenerations := by
      rw [← h]
      exact Function.update_eq_self key _
    unfold forget
    rw [hsame]

/-- The insertion throws before it forgets anything, or there is nothing to forget. -/
def ForgetsNothing (t : RuntimeBlockTable) (block : RuntimeBlock) (runtimeRegistered : Bool) :
    Prop :=
  isError (prepareBlock block runtimeRegistered) = true ∨ t.rejectedGenerations block.key = none

variable {allowContextualOverlap runtimeRegistered : Bool} {identity : String}

theorem reactivate_rejected {known : Nat}
    (h : isError (t.reactivate block identity known runtimeRegistered
      allowContextualOverlap).1 = true) :
    (t.reactivate block identity known runtimeRegistered allowContextualOverlap).2 = t := by
  unfold reactivate at h ⊢
  split
  · rfl
  split
  · rfl
  split
  · rfl
  split
  · rfl
  · simp_all [isError]

theorem insertNew_rejected
    (h : isError (t.insertNew block identity runtimeRegistered allowContextualOverlap).1 = true) :
    (t.insertNew block identity runtimeRegistered allowContextualOverlap).2 = t := by
  unfold insertNew at h ⊢
  split
  · rfl
  · simp_all [isError]

variable (h : isError (t.insert block runtimeRegistered allowContextualOverlap).1 = true)
include h

theorem insert_rejected : (t.insert block runtimeRegistered allowContextualOverlap).2 =
      if isError (prepareBlock block runtimeRegistered) then t else t.forget block.key := by
  unfold RuntimeBlockTable.insert at h ⊢
  split
  · rename_i hprepared
    rw [hprepared]
    rfl
  · rename_i stored hprepared
    rw [hprepared] at h
    have hkey : stored.key = block.key := (prepareBlock_ok hprepared).1
    rw [hprepared, ← hkey]
    dsimp only at h ⊢
    split
    · rename_i known hknown
      rw [hknown] at h
      exact reactivate_rejected h
    · rename_i hnew
      rw [hnew] at h
      exact insertNew_rejected h

theorem insert_leaves_iff :
    (t.insert block runtimeRegistered allowContextualOverlap).2.observed = t.observed ↔
      t.ForgetsNothing block runtimeRegistered := by
  rw [insert_rejected h]
  unfold ForgetsNothing
  cases isError (prepareBlock block runtimeRegistered) with
  | true => simp
  | false => simpa using observed_forget_eq_iff

omit h

/-- What an insertion of a static block refuses. -/
def Refuses (t : RuntimeBlockTable) (block : RuntimeBlock) (allowContextualOverlap : Bool) : Prop :=
  ∀ stored, prepareBlock block false = .ok stored →
    (t.identities (stableRuntimeBlockIdentity stored)).isSome = true ∨
      (t.collision stored allowContextualOverlap 0).isSome = true

theorem isError_reactivate_static {known : Nat} :
    isError (t.reactivate block identity known false allowContextualOverlap).1 = true := by
  unfold reactivate
  split
  · rfl
  split
  · rfl
  · rfl

theorem insertNew_static : isError (t.insertNew block identity false allowContextualOverlap).1 =
        (t.collision block allowContextualOverlap 0).isSome ∧
      (isError (t.insertNew block identity false allowContextualOverlap).1 = false →
        (t.insertNew block identity false allowContextualOverlap).2.nextId = t.nextId + 1) := by
  unfold insertNew
  split
  · rename_i hcollision
    rw [hcollision]
    exact ⟨rfl, fun h => by cases h⟩
  · rename_i hcollision
    rw [hcollision]
    exact ⟨rfl, fun _ => activate_nextId _ _ _⟩

theorem isError_insert_static : isError (t.insert block false allowContextualOverlap).1 = true ↔
      t.Refuses block allowContextualOverlap := by
  unfold RuntimeBlockTable.insert Refuses
  cases hprepared : prepareBlock block false with
  | error message => exact ⟨fun _ _ h => (nomatch h), fun _ => rfl⟩
  | ok stored =>
    have hcollision : (t.forget stored.key).collision stored allowContextualOverlap 0 =
        t.collision stored allowContextualOverlap 0 := rfl
    dsimp only
    cases hknown : t.identities (stableRuntimeBlockIdentity stored) with
    | some known =>
      refine ⟨fun _ other hother => ?_, fun _ => isError_reactivate_static⟩
      cases hother
      exact .inl (by rw [hknown]; rfl)
    | none =>
      dsimp only
      rw [insertNew_static.1]
      change ((t.forget stored.key).collision stored allowContextualOverlap 0).isSome = true ↔ _
      rw [hcollision]
      constructor
      · rintro h other hother
        cases hother
        exact .inr h
      · intro h
        rcases h stored rfl with hidentity | hcollides
        · rw [hknown] at hidentity
          cases hidentity
        · exact hcollides

theorem insert_static_nextId (h : isError (t.insert block false allowContextualOverlap).1 = false) :
    (t.insert block false allowContextualOverlap).2.nextId = t.nextId + 1 := by
  unfold RuntimeBlockTable.insert at h ⊢
  split
  · simp_all [isError]
  · rename_i stored hprepared
    rw [hprepared] at h
    dsimp only at h ⊢
    split
    · rename_i known hknown
      rw [hknown] at h
      dsimp only at h
      rw [isError_reactivate_static] at h
      cases h
    · rename_i hnew
      rw [hnew] at h
      exact insertNew_static.2 h

/-! ## Bulks -/

theorem insert_static_nextId_le {allowContextualOverlap : Bool} :
    t.nextId ≤ (t.insert block false allowContextualOverlap).2.nextId := by
  cases hrejected : isError (t.insert block false allowContextualOverlap).1 with
  | true =>
    rw [insert_rejected hrejected]
    split
    · exact le_rfl
    · exact le_rfl
  | false =>
    rw [insert_static_nextId hrejected]
    exact Nat.le_succ _

theorem insertAll_nextId_le {allowContextualOverlap : Bool} (blocks : List RuntimeBlock) :
    t.nextId ≤ (insertAll allowContextualOverlap t blocks).2.nextId := by
  induction blocks generalizing t with
  | nil => exact le_rfl
  | cons block rest ih =>
    have hfirst := @insert_static_nextId_le t block allowContextualOverlap
    unfold insertAll
    split
    · rename_i hinsert
      rw [hinsert] at hfirst
      exact hfirst
    · rename_i hinsert
      rw [hinsert] at hfirst
      exact hfirst.trans ih

/-- The first block in order is the one that is refused. -/
def BulkKeeps (t : RuntimeBlockTable) (blocks : List RuntimeBlock) (allowContextualOverlap : Bool) :
    Prop :=
  ∃ first, (sortBlocks blocks).head? = some first ∧ t.Refuses first allowContextualOverlap ∧
    t.ForgetsNothing first false

variable {blocks : List RuntimeBlock}

theorem insertAll_leaves_iff (h : isError (insertAll allowContextualOverlap t blocks).1 = true) :
    (insertAll allowContextualOverlap t blocks).2.observed = t.observed ↔
      ∃ first, blocks.head? = some first ∧ t.Refuses first allowContextualOverlap ∧
        t.ForgetsNothing first false := by
  cases blocks with
  | nil => cases h
  | cons first rest =>
    have hhead : (∃ block, (first :: rest).head? = some block ∧
        t.Refuses block allowContextualOverlap ∧ t.ForgetsNothing block false) ↔
        t.Refuses first allowContextualOverlap ∧ t.ForgetsNothing first false := by simp
    rw [hhead]
    unfold insertAll at h ⊢
    cases hinsert : t.insert first false allowContextualOverlap with
    | mk answer after =>
      cases answer with
      | error message =>
        have hrejected : isError (t.insert first false allowContextualOverlap).1 = true := by
          rw [hinsert]
          rfl
        have hleaves := insert_leaves_iff hrejected
        rw [hinsert] at hleaves
        exact hleaves.trans (iff_and_self.mpr fun _ => isError_insert_static.mp hrejected).symm.symm
      | ok handle =>
        -- the first block is in the table and nothing takes it out again
        have haccepted : isError (t.insert first false allowContextualOverlap).1 = false := by
          rw [hinsert]
          rfl
        have hfirst := insert_static_nextId haccepted
        have hrest := @insertAll_nextId_le after allowContextualOverlap rest
        rw [hinsert] at hfirst
        refine ⟨fun hsame => ?_, fun hrefused => ?_⟩
        · have hnext := congrArg RuntimeBlockTable.nextId hsame
          change (insertAll allowContextualOverlap after rest).2.nextId = t.nextId at hnext
          dsimp only at hfirst
          omega
        · rw [← isError_insert_static, haccepted] at hrefused
          cases hrefused.1

theorem insertSorted_leaves_iff
    (h : isError (t.insertSorted allowContextualOverlap blocks).1 = true) :
    (t.insertSorted allowContextualOverlap blocks).2.observed = t.observed ↔
      t.BulkKeeps blocks allowContextualOverlap := by
  unfold insertSorted at h ⊢
  split at h
  · rename_i message after hinsert
    have hrejected : isError (insertAll allowContextualOverlap t (sortBlocks blocks)).1 = true := by
      rw [hinsert]
      rfl
    have hleaves := insertAll_leaves_iff hrejected
    rw [hinsert] at hleaves
    exact hleaves
  · cases h

/-! ## Variants -/

/-- A registration of a variant looks up first, and lookups are counted. -/
def probes (t : RuntimeBlockTable) : Nat :=
  t.lookupCounters.directProbes + t.lookupCounters.referenceProbes

theorem lookup_probes (trackers : Nat → ExecutableCodeTracker) (virtualAddress : BitVec 32)
    (variant : BlockVariantKey) :
    t.probes < (t.lookup trackers virtualAddress variant).2.probes := by
  unfold lookup
  dsimp only
  split
  · cases hdynamic : t.lookupDirectIndex trackers t.dynamicDirectVirtualIndex
        ⟨variant, virtualAddress⟩ with
    | mk answer after =>
      have hafter : after.probes = t.probes + 1 := by
        cases hdynamic
        change t.lookupCounters.directProbes + 1 + t.lookupCounters.referenceProbes = _
        unfold probes
        omega
      cases answer with
      | some handle =>
        dsimp only
        omega
      | none =>
        change t.probes < after.lookupCounters.directProbes + 1 + after.lookupCounters.referenceProbes
        unfold probes at hafter ⊢
        omega
  · split
    · change t.probes < t.lookupCounters.directProbes + (t.lookupCounters.referenceProbes + 2)
      unfold probes
      omega
    · change t.probes < t.lookupCounters.directProbes + (t.lookupCounters.referenceProbes + 2)
      unfold probes
      omega

theorem registerStaticVariant_probes {trackers : Nat → ExecutableCodeTracker}
    {virtualAddress physicalAddress : BitVec 32} {sourceVariant targetVariant : BlockVariantKey}
    (h : isMissing (t.registerStaticVariant trackers virtualAddress physicalAddress sourceVariant
      targetVariant).1 = true) :
    t.probes < (t.registerStaticVariant trackers virtualAddress physicalAddress sourceVariant
      targetVariant).2.probes := by
  have hfirst := lookup_probes (t := t) trackers virtualAddress targetVariant
  unfold registerStaticVariant at h ⊢
  split
  · rename_i hlookup
    rw [hlookup] at hfirst
    exact hfirst
  · rename_i after hlookup
    rw [hlookup] at h hfirst
    have hsecond := hfirst.trans (lookup_probes (t := after) trackers virtualAddress sourceVariant)
    dsimp only at h ⊢
    split
    · exact hsecond
    · rename_i resolved hresolved
      rw [hresolved] at h
      dsimp only at h
      split
      · exact hsecond
      · rename_i hdynamic
        rw [if_neg hdynamic] at h
        have hrejected : isError ((after.lookup trackers virtualAddress sourceVariant).2.insert
            (staticVariant resolved virtualAddress physicalAddress targetVariant) false
              false).1 = true := by
          dsimp only at h
          generalize (after.lookup trackers virtualAddress sourceVariant).2.insert
            (staticVariant resolved virtualAddress physicalAddress targetVariant) false
              false = inserted at h ⊢
          cases hanswer : inserted.1 with
          | error message => rfl
          | ok handle =>
            rw [hanswer] at h
            cases h
        dsimp only
        rw [insert_rejected hrejected]
        split
        · exact hsecond
        · exact hsecond

/-! ## Requests -/

/-- When a rejected request leaves the table as it was: it is turned away by the seal
or by the checks in front of an insertion, or the block that is refused comes first and
has no rejection to forget. A variant is looked up before, and lookups are counted. -/
def LeavesTable (t : RuntimeBlockTable) : Registration → Prop
  | .static block | .bootstrapStatic block =>
    t.staticSealed = true ∨ t.ForgetsNothing block false
  | .staticVariant .. => False
  | .runtime block =>
    (block.aotTemplate.isSome = true ∧
      isError (t.runtimeOverlaps block (t.activeRanges block.variant)) = true) ∨
        t.ForgetsNothing block true
  | .staticBulk blocks => t.staticSealed = true ∨ t.BulkKeeps blocks false
  | .staticContextualBulk blocks =>
    t.staticSealed = true ∨ (t.activeRecords.any fun record =>
        !record.staticBlock || record.block.runtimeRegistered) = true ∨
      isError (contextualOverlaps ((t.activeRecords.map (·.block) ++ blocks).insertionSort
        fun left right => left.contextualKey ≤ right.contextualKey)) = true ∨
      t.BulkKeeps blocks true

theorem registerStatic_leaves_iff (h : isError (t.registerStatic block).1 = true) :
    (t.registerStatic block).2.observed = t.observed ↔
      t.staticSealed = true ∨ t.ForgetsNothing block false := by
  unfold registerStatic at h ⊢
  split
  · rename_i hsealed
    exact ⟨fun _ => .inl hsealed, fun _ => rfl⟩
  · rename_i hopen
    rw [if_neg hopen] at h
    rw [insert_leaves_iff h, or_iff_right hopen]

theorem registerStaticBulk_leaves_iff (h : isError (t.registerStaticBulk blocks).1 = true) :
    (t.registerStaticBulk blocks).2.observed = t.observed ↔
      t.staticSealed = true ∨ t.BulkKeeps blocks false := by
  unfold registerStaticBulk at h ⊢
  split
  · rename_i hsealed
    exact ⟨fun _ => .inl hsealed, fun _ => rfl⟩
  · rename_i hopen
    rw [if_neg hopen] at h
    rw [insertSorted_leaves_iff h, or_iff_right hopen]

theorem registerStaticContextualBulk_leaves_iff
    (h : isError (t.registerStaticContextualBulk blocks).1 = true) :
    (t.registerStaticContextualBulk blocks).2.observed = t.observed ↔
      t.LeavesTable (.staticContextualBulk blocks) := by
  unfold registerStaticContextualBulk at h ⊢
  simp only [LeavesTable]
  split
  · rename_i hsealed
    exact ⟨fun _ => .inl hsealed, fun _ => rfl⟩
  rename_i hopen
  rw [if_neg hopen] at h
  rw [or_iff_right hopen]
  split
  · rename_i hruntime
    exact ⟨fun _ => .inl hruntime, fun _ => rfl⟩
  rename_i hstatic
  rw [if_neg hstatic] at h
  rw [or_iff_right hstatic]
  dsimp only at h ⊢
  split
  · rename_i hoverlaps
    rw [hoverlaps]
    exact ⟨fun _ => .inl rfl, fun _ => rfl⟩
  · rename_i hasContextualOverlap hoverlaps
    rw [hoverlaps] at h ⊢
    dsimp only at h
    exact (insertSorted_leaves_iff h).trans (or_iff_right Bool.false_ne_true).symm

theorem insertRuntime_rejected {sealAfterRegistration : Bool}
    (h : isError (t.insertRuntime block sealAfterRegistration).1 = true) :
    isError (t.insert block true block.aotTemplate.isSome).1 = true ∧
      (t.insertRuntime block sealAfterRegistration).2 =
        (t.insert block true block.aotTemplate.isSome).2 := by
  unfold insertRuntime at h ⊢
  cases hinsert : t.insert block true block.aotTemplate.isSome with
  | mk answer after =>
    rw [hinsert] at h
    cases answer with
    | error message => exact ⟨rfl, rfl⟩
    | ok handle => cases h

theorem registerRuntime_leaves_iff (h : isError (t.registerRuntime block).1 = true) :
    (t.registerRuntime block).2.observed = t.observed ↔ t.LeavesTable (.runtime block) := by
  unfold registerRuntime at h ⊢
  simp only [LeavesTable]
  dsimp only at h ⊢
  generalize hcheck : t.runtimeOverlaps block (t.activeRanges block.variant) = check at h ⊢
  cases htemplate : block.aotTemplate.isSome with
  | true =>
    simp only [htemplate, if_true] at h ⊢
    cases check with
    | error message => exact ⟨fun _ => .inl ⟨trivial, rfl⟩, fun _ => rfl⟩
    | ok overlap =>
      dsimp only at h ⊢
      obtain ⟨hrejected, hsame⟩ := insertRuntime_rejected h
      rw [hsame]
      refine (insert_leaves_iff hrejected).trans (or_iff_right ?_).symm
      simp [isError]
  | false =>
    simp only [htemplate, Bool.false_eq_true, if_false] at h ⊢
    obtain ⟨hrejected, hsame⟩ := insertRuntime_rejected h
    rw [hsame]
    refine (insert_leaves_iff hrejected).trans (or_iff_right ?_).symm
    simp

theorem rejected_registration_leaves_table_iff (t : RuntimeBlockTable) (request : Registration)
    (hrejected : (t.register request).1 = true) :
    (t.register request).2.observed = t.observed ↔ t.LeavesTable request := by
  cases request with
  | static block => exact registerStatic_leaves_iff hrejected
  | bootstrapStatic block =>
    have hstatic : (t.registerBootstrapStatic block).2 = (t.registerStatic block).2 := by
      unfold registerBootstrapStatic registerStatic
      split
      · rfl
      · rfl
    have herror : isError (t.registerStatic block).1 = true := by
      change isError (t.registerBootstrapStatic block).1 = true at hrejected
      unfold registerBootstrapStatic at hrejected
      unfold registerStatic
      split
      · rfl
      · rename_i hopen
        rwa [if_neg hopen] at hrejected
    change (t.registerBootstrapStatic block).2.observed = t.observed ↔ _
    rw [hstatic]
    exact registerStatic_leaves_iff herror
  | staticVariant trackers virtualAddress physicalAddress sourceVariant targetVariant =>
    refine ⟨fun hsame => ?_, False.elim⟩
    have hprobes := registerStaticVariant_probes hrejected
    exact absurd (congrArg probes hsame) hprobes.ne'
  | runtime block => exact registerRuntime_leaves_iff hrejected
  | staticBulk blocks => exact registerStaticBulk_leaves_iff hrejected
  | staticContextualBulk blocks => exact registerStaticContextualBulk_leaves_iff hrejected

/-- A block is loaded, and its start was rejected once. -/
def rejectedTable : RuntimeBlockTable :=
  (({ dispatchLifetime := 1 } : RuntimeBlockTable).registerStatic
    BlockDispatch.loadedBlock).2.markRejected 0x8C010000 {}

theorem rejectedTable_refuses : rejectedTable.Refuses BlockDispatch.reloadedBlock false := by
  intro stored hstored
  have hprepared : prepareBlock BlockDispatch.reloadedBlock false =
      .ok BlockDispatch.reloadedBlock := rfl
  rw [hprepared] at hstored
  cases hstored
  exact .inr rfl

/-- The second block collides with the first, and the rejection is forgotten. -/
theorem colliding_registration_forgets_rejection :
    (rejectedTable.register (.static BlockDispatch.reloadedBlock)).1 = true ∧
      (rejectedTable.register (.static BlockDispatch.reloadedBlock)).2.observed ≠
        rejectedTable.observed := by
  have hrejected : isError
      (rejectedTable.insert BlockDispatch.reloadedBlock false false).1 = true :=
    isError_insert_static.mpr rejectedTable_refuses
  refine ⟨hrejected, fun hsame => ?_⟩
  rcases (insert_leaves_iff hrejected).mp hsame with hprepared | hforgotten
  · cases hprepared
  · cases hforgotten

/-- A block without a function throws before anything is forgotten. -/
theorem rejected_registration_leaves_table_iff_sample :
    (rejectedTable.register (.static {})).1 = true ∧
      (rejectedTable.register (.static {})).2.observed = rejectedTable.observed := by
  have hrejected : (rejectedTable.register (.static {})).1 = true := rfl
  exact ⟨hrejected,
    (rejected_registration_leaves_table_iff rejectedTable _ hrejected).mpr (.inr (.inl rfl))⟩

end KatanaRecomp.Runtime.RuntimeBlockTable
