import KatanaRecomp.Runtime.BlockDispatch
import KatanaRecomp.Runtime.CodeTrackerLaws

/-! # The guard of a static dispatch

A guard holds the generation of the static entry that a lookup found. Whatever
changes the entry, its slot or the dynamic records that shadow it moves that
generation on, so a guard that is still current stands for the lookup itself. One
thing moves nothing: a tracker that makes the block of a shadowing record valid
again. -/
namespace KatanaRecomp.Runtime
open Lib

/-! ## Blocks a tracker holds invalid -/

namespace ExecutableCodeTracker
variable {t : ExecutableCodeTracker}

theorem dispatchable_eq_false {identity : String} :
    t.dispatchable identity = false ↔ t.valid identity = .ok false := by
  unfold dispatchable valid
  cases (t.identityIndex identity).bind (t.blocks[·]?) with
  | none => simp
  | some tracked => simp

/-- A sweep leaves an invalid block alone. -/
theorem sweepBlocks_invalid
    (reached : ExecutableBlockRegistration → Bool) (candidates : List Nat) {index : Nat}
    {tracked : TrackedExecutableBlock} (hget : t.blocks[index]? = some tracked)
    (hinvalid : tracked.valid = false) :
    (t.sweepBlocks reached candidates).blocks[index]? = some tracked := by
  rw [sweepBlocks, sweep_getElem?]
  have hkept : invalidateIf reached tracked = tracked := by simp [invalidateIf, hinvalid]
  simp [hget, hkept]

/-- Only a registration of the identity makes an invalid block valid. -/
theorem WellFormed.apply_invalid {t' : ExecutableCodeTracker} (ht : WellFormed t)
    {operation : Operation} {identity : String} (h : t.apply operation = some t')
    (hother : ∀ block, operation = .registerBlock block → block.identity ≠ identity)
    (hinvalid : t.valid identity = .ok false) : t'.valid identity = .ok false := by
  obtain ⟨tracked, htracked, hvalid⟩ := valid_eq_ok.mp hinvalid
  obtain ⟨place, hplace, hget⟩ := Option.bind_eq_some_iff.mp htracked
  have hkeep : ∀ {u : ExecutableCodeTracker}, u.identityIndex identity = some place →
      u.blocks[place]? = some tracked → u.valid identity = .ok false := fun hindex hblock =>
    valid_eq_ok.mpr ⟨tracked, Option.bind_eq_some_iff.mpr ⟨place, hindex, hblock⟩, hvalid⟩
  have hsame : ∀ {u : ExecutableCodeTracker}, u.identityIndex = t.identityIndex →
      u.blocks[place]? = some tracked → u.valid identity = .ok false :=
    fun hindex hblock => hkeep (hindex ▸ hplace) hblock
  cases operation with
  | registerBlock block =>
    unfold ExecutableCodeTracker.apply at h
    dsimp only at h
    split at h
    · rename_i result u hregister
      cases h
      rcases registerBlock_cases hregister with
        ⟨-, rfl, -⟩ | ⟨index, before, links, hindex, hbefore, rfl⟩
      · refine hkeep ?_ ?_
        · exact (Function.update_of_ne (hother block rfl).symm _ _).trans hplace
        · have hlt := (List.getElem?_eq_some_iff.mp hget).1
          exact (List.getElem?_append_left hlt).trans hget
      · refine hkeep hplace ?_
        have hne : index ≠ place := by
          rintro rfl
          obtain ⟨a, ha, hidentity⟩ := ht.identified _ index hindex
          obtain ⟨b, hb, hidentity'⟩ := ht.identified _ index hplace
          cases Option.some.inj (ha.symm.trans hb)
          exact hother block rfl (hidentity.symm.trans hidentity')
        exact (List.getElem?_set_ne hne).trans hget
    · cases h
      exact hinvalid
  | retireBlock other =>
    cases h
    rcases retireBlock_cases t other with heq | ⟨index, before, -, hbefore, hwas, heq⟩
    · rw [heq]
      exact hinvalid
    · rw [heq]
      refine hkeep hplace ?_
      have hne : index ≠ place := by
        rintro rfl
        cases Option.some.inj (hbefore.symm.trans hget)
        rw [hvalid] at hwas
        cases hwas
      exact (List.getElem?_set_ne hne).trans hget
  | observeWrite address size source bytesChanged =>
    unfold ExecutableCodeTracker.apply at h
    dsimp only at h
    split at h
    · rename_i result u hobserve
      cases h
      obtain ⟨_, _, ⟨_, rfl, _⟩ | ⟨_, hrange⟩⟩ := observeWrite_cases hobserve
      · refine hsame (appendEvent_places t _).identityIndex ?_
        exact (congrArg (·[place]?) (appendEvent_keeps t _).1).trans hget
      · have hu : t' = (t.invalidateRange address size source).2 := congrArg Prod.snd hrange
        rw [hu]
        refine hsame (invalidateRange_places t address size source).identityIndex ?_
        unfold invalidateRange recordInvalidationEvent
        dsimp only
        rw [(appendEvent_keeps _ _).1]
        exact sweepBlocks_invalid _ _ hget hvalid
    · cases h
      exact hinvalid
  | observeWriteBatch events =>
    obtain ⟨ranges, maps, _, _, rfl⟩ := observeWriteBatch_cases h
    exact hsame rfl (sweepBlocks_invalid _ _ hget hvalid)
  | discLoadWrite plan =>
    obtain ⟨maps, _, h⟩ := Option.bind_eq_some_iff.mp h
    dsimp only at h
    split at h
    · cases h
    · cases h
      refine hsame (appendEvent_places _ _).identityIndex ?_
      rw [(appendEvent_keeps _ _).1]
      exact sweepBlocks_invalid _ _ hget hvalid
  | invalidationEvents =>
    cases h
    exact hsame rfl hget
  | setLookupMode mode =>
    cases h
    exact hsame rfl hget
  | resetPerformanceCounters =>
    cases h
    exact hsame rfl hget

end ExecutableCodeTracker

/-! ## Slots of the static index -/

namespace RuntimeBlockTable

/-- The slot and the shadow list of a halfword on a page of the static index. -/
def slotAt (t : RuntimeBlockTable) (page index : Nat) : Option (Nat × List Nat) :=
  (t.staticAotPages.bind (· page)).map fun staticPage =>
    (staticPage.entries index, staticPage.dynamicEntries index)

/-- The block starts in the halfword. -/
def Located (block : RuntimeBlock) (page index : Nat) : Prop :=
  pageIndex block.physicalOrigin = page ∧ halfword block.physicalOrigin = index

instance (block : RuntimeBlock) (page index : Nat) : Decidable (Located block page index) :=
  inferInstanceAs (Decidable (_ ∧ _))

/-- A dynamic block that starts in the halfword, and so shadows it. -/
def Shadows (block : RuntimeBlock) (page index : Nat) : Prop :=
  block.physicalOrigin &&& 1 = 0 ∧ Located block page index

instance (block : RuntimeBlock) (page index : Nat) : Decidable (Shadows block page index) :=
  inferInstanceAs (Decidable (_ ∧ _))

@[simp]
theorem advanceEntry_zero (entries : List StaticAotEntry) : advanceEntry entries 0 = entries := by
  simp [advanceEntry]

theorem advanceEntry_getElem? (entries : List StaticAotEntry) (slot index : Nat) :
    (advanceEntry entries slot)[index]? = entries[index]?.map fun entry =>
      if slot = index + 1 ∧ slot ≠ uint32Max then
        { entry with generation := advanceGeneration entry.generation }
      else entry := by
  cases hget : entries[index]? with
  | none =>
    have hlen : entries.length ≤ index := List.getElem?_eq_none_iff.mp hget
    rw [Option.map_none, List.getElem?_eq_none_iff]
    simp only [advanceEntry]
    split
    · rwa [List.length_modify]
    · exact hlen
  | some entry =>
    have hlt := (List.getElem?_eq_some_iff.mp hget).1
    simp only [advanceEntry, Option.map_some]
    by_cases hslot : slot = index + 1 ∧ slot ≠ uint32Max
    · obtain ⟨rfl, hmax⟩ := hslot
      rw [if_pos ⟨Nat.succ_ne_zero index, hmax, hlt⟩, if_pos ⟨rfl, hmax⟩]
      simp [hget]
    · rw [if_neg hslot]
      split
      · rename_i hvalid
        have hne : slot - 1 ≠ index := fun heq => hslot ⟨by omega, hvalid.2.1⟩
        simp [hget, hne]
      · exact hget

/-- The slot whose entry a shadowing block moves on. -/
def shadowSlot (t : RuntimeBlockTable) (block : RuntimeBlock) : Nat :=
  if block.physicalOrigin &&& 1 = 0 then
    ((t.slotAt (pageIndex block.physicalOrigin) (halfword block.physicalOrigin)).map (·.1)).getD 0
  else 0

theorem setPage_slotAt (t : RuntimeBlockTable) (page : Nat) (staticPage : StaticAotPage)
    (page' index : Nat) : (t.setPage page staticPage).slotAt page' index =
      if page' = page ∧ t.staticAotPages.isSome then
        some (staticPage.entries index, staticPage.dynamicEntries index)
      else t.slotAt page' index := by
  simp only [setPage, slotAt]
  cases t.staticAotPages with
  | none => simp
  | some pages => by_cases hpage : page' = page <;> simp [hpage]

variable {t t' : RuntimeBlockTable}

theorem moveShadow_odd {block : RuntimeBlock}
    (h : block.physicalOrigin &&& 1 ≠ 0) (change : List Nat → List Nat) :
    t.moveShadow block change = t := if_pos h

theorem moveShadow_entries (t : RuntimeBlockTable) (block : RuntimeBlock)
    (change : List Nat → List Nat) : (t.moveShadow block change).staticAotEntries =
      advanceEntry t.staticAotEntries (t.shadowSlot block) := by
  by_cases hodd : block.physicalOrigin &&& 1 = 0
  · simp only [moveShadow, shadowSlot, hodd, slotAt]
    cases t.staticAotPages.bind (· (pageIndex block.physicalOrigin)) with
    | none => simp
    | some staticPage => simp
  · rw [moveShadow_odd hodd, shadowSlot, if_neg hodd, advanceEntry_zero]

theorem moveShadow_slotAt (t : RuntimeBlockTable) (block : RuntimeBlock)
    (change : List Nat → List Nat) (page index : Nat) :
    (t.moveShadow block change).slotAt page index =
      if Shadows block page index then
        (t.slotAt page index).map fun slot => (slot.1, change slot.2)
      else t.slotAt page index := by
  by_cases hodd : block.physicalOrigin &&& 1 = 0
  · simp only [moveShadow, hodd, ne_eq, not_true_eq_false, if_false]
    cases hpage : t.staticAotPages.bind (· (pageIndex block.physicalOrigin)) with
    | none =>
      by_cases hshadows : Shadows block page index
      · obtain ⟨-, rfl, rfl⟩ := hshadows
        simp [slotAt, hpage]
      · rw [if_neg hshadows]
    | some staticPage =>
      have hsome : t.staticAotPages.isSome = true := by
        obtain ⟨pages, hpages, -⟩ := Option.bind_eq_some_iff.mp hpage
        rw [hpages]
        rfl
      have hset := setPage_slotAt t (pageIndex block.physicalOrigin) { staticPage with
        dynamicEntries := Function.update staticPage.dynamicEntries (halfword block.physicalOrigin)
          (change (staticPage.dynamicEntries (halfword block.physicalOrigin))) } page index
      refine hset.trans ?_
      by_cases hhere : page = pageIndex block.physicalOrigin
      · subst hhere
        rw [if_pos ⟨rfl, hsome⟩]
        by_cases hindex : halfword block.physicalOrigin = index
        · subst hindex
          rw [if_pos ⟨hodd, rfl, rfl⟩]
          simp [slotAt, hpage]
        · rw [if_neg fun h => hindex h.2.2]
          simp [slotAt, hpage, Ne.symm hindex]
      · rw [if_neg fun h => hhere h.1, if_neg fun h => hhere h.2.1.symm]
  · have hno : ¬ Shadows block page index := fun h => hodd h.1
    rw [moveShadow_odd hodd, if_neg hno]

/-- The slot that a static record gives up. -/
def droppedSlot (t : RuntimeBlockTable) (id : Nat) (block : RuntimeBlock) : Nat :=
  match t.slotAt (pageIndex block.physicalOrigin) (halfword block.physicalOrigin) with
  | none => 0
  | some (slot, _) =>
    if slot ≠ 0 ∧ slot ≠ uint32Max ∧ (t.staticAotEntries[slot - 1]?).any (·.id == id) then slot
    else 0

theorem dropStaticEntry_entries (t : RuntimeBlockTable) (id : Nat) (block : RuntimeBlock) :
    (t.dropStaticEntry id block).staticAotEntries =
      advanceEntry t.staticAotEntries (t.droppedSlot id block) := by
  simp only [dropStaticEntry, droppedSlot, slotAt]
  cases t.staticAotPages.bind (· (pageIndex block.physicalOrigin)) with
  | none => simp
  | some staticPage =>
    simp only [Option.map_some]
    split
    · rfl
    · simp

theorem dropStaticEntry_slotAt (t : RuntimeBlockTable) (id : Nat) (block : RuntimeBlock)
    (page index : Nat) : (t.dropStaticEntry id block).slotAt page index =
      if Located block page index ∧ t.droppedSlot id block ≠ 0 then
        (t.slotAt page index).map fun slot => (0, slot.2)
      else t.slotAt page index := by
  cases hpage : t.staticAotPages.bind (· (pageIndex block.physicalOrigin)) with
  | none =>
    have hslot : t.slotAt (pageIndex block.physicalOrigin) (halfword block.physicalOrigin) =
        none := by simp [slotAt, hpage]
    simp [dropStaticEntry, droppedSlot, hpage, hslot]
  | some staticPage =>
    have hslot : t.slotAt (pageIndex block.physicalOrigin) (halfword block.physicalOrigin) =
        some (staticPage.entries (halfword block.physicalOrigin),
          staticPage.dynamicEntries (halfword block.physicalOrigin)) := by simp [slotAt, hpage]
    simp only [dropStaticEntry, droppedSlot, hpage, hslot]
    split
    · rename_i hheld
      have hsome : t.staticAotPages.isSome = true := by
        obtain ⟨pages, hpages, -⟩ := Option.bind_eq_some_iff.mp hpage
        rw [hpages]
        rfl
      have hset := setPage_slotAt t (pageIndex block.physicalOrigin) { staticPage with
        entries := Function.update staticPage.entries (halfword block.physicalOrigin) 0 }
        page index
      refine hset.trans ?_
      by_cases hhere : page = pageIndex block.physicalOrigin
      · subst hhere
        rw [if_pos ⟨rfl, hsome⟩]
        by_cases hindex : halfword block.physicalOrigin = index
        · subst hindex
          rw [if_pos ⟨⟨rfl, rfl⟩, hheld.1⟩, hslot]
          simp
        · rw [if_neg fun h => hindex h.1.2]
          simp [slotAt, hpage, Ne.symm hindex]
      · rw [if_neg fun h => hhere h.1, if_neg fun h => hhere h.1.1.symm]
    · simp

theorem shadowSlot_congr (h : t'.staticAotPages = t.staticAotPages)
    (block : RuntimeBlock) : t'.shadowSlot block = t.shadowSlot block := by
  simp only [shadowSlot, slotAt, h]

theorem slotAt_congr (h : t'.staticAotPages = t.staticAotPages)
    (page index : Nat) : t'.slotAt page index = t.slotAt page index := by
  simp only [slotAt, h]

section
variable (t : RuntimeBlockTable) (id : Nat) (record : Record)

theorem placeActive_pages : (t.placeActive id record).staticAotPages = t.staticAotPages := by
  cases hstatic : record.staticBlock <;> simp [placeActive, listActive, hstatic]

theorem placeActive_entries : (t.placeActive id record).staticAotEntries = t.staticAotEntries := by
  cases hstatic : record.staticBlock <;> simp [placeActive, listActive, hstatic]

theorem unlistActive_pages : (t.unlistActive id record).staticAotPages = t.staticAotPages := by
  cases hstatic : record.staticBlock <;> simp [unlistActive, hstatic]

theorem unlistActive_entries :
    (t.unlistActive id record).staticAotEntries = t.staticAotEntries := by
  cases hstatic : record.staticBlock <;> simp [unlistActive, hstatic]

/-- The slot whose entry an activation moves on. -/
def movedBy : Nat := if record.staticBlock then 0 else t.shadowSlot record.block

theorem activate_entries : (t.activate id record).staticAotEntries =
    advanceEntry t.staticAotEntries (t.movedBy record) := by
  cases hstatic : record.staticBlock with
  | true =>
    simp only [activate, indexActive, hstatic, movedBy, if_true, advanceEntry_zero]
    exact placeActive_entries _ id record
  | false =>
    simp only [activate, indexActive, hstatic, movedBy, Bool.false_eq_true, if_false]
    refine (moveShadow_entries _ record.block _).trans ?_
    rw [placeActive_entries, shadowSlot_congr (placeActive_pages _ id record)]
    rfl

theorem activate_slotAt (page index : Nat) : (t.activate id record).slotAt page index =
    if record.staticBlock = false ∧ Shadows record.block page index then
      (t.slotAt page index).map fun slot => (slot.1, slot.2 ++ [id])
    else t.slotAt page index := by
  cases hstatic : record.staticBlock with
  | true =>
    simp only [activate, indexActive, hstatic, if_true]
    refine (slotAt_congr (placeActive_pages _ id record) page index).trans ?_
    simp only [reduceCtorEq, false_and, if_false]
    rfl
  | false =>
    simp only [activate, indexActive, hstatic, Bool.false_eq_true, if_false, true_and]
    refine (moveShadow_slotAt _ record.block _ page index).trans ?_
    rw [slotAt_congr (placeActive_pages _ id record)]
    rfl

/-- The slot whose entry a retirement moves on. -/
def movedByRetirement : Nat :=
  if record.staticBlock then t.droppedSlot id record.block else t.shadowSlot record.block

theorem droppedSlot_congr {t t' : RuntimeBlockTable} (hpages : t'.staticAotPages = t.staticAotPages)
    (hentries : t'.staticAotEntries = t.staticAotEntries) (id : Nat) (block : RuntimeBlock) :
    t'.droppedSlot id block = t.droppedSlot id block := by
  simp only [droppedSlot, slotAt, hpages, hentries]

theorem retire_entries : (t.retire id record).staticAotEntries =
    advanceEntry t.staticAotEntries (t.movedByRetirement id record) := by
  cases hstatic : record.staticBlock with
  | true =>
    simp only [retire, hstatic, movedByRetirement, if_true]
    refine (dropStaticEntry_entries _ id record.block).trans ?_
    rw [unlistActive_entries, droppedSlot_congr (unlistActive_pages t id record)
      (unlistActive_entries t id record)]
  | false =>
    simp only [retire, hstatic, movedByRetirement, Bool.false_eq_true, if_false]
    refine (moveShadow_entries _ record.block _).trans ?_
    rw [unlistActive_entries, shadowSlot_congr (unlistActive_pages t id record)]

theorem retire_slotAt (page index : Nat) : (t.retire id record).slotAt page index =
    if record.staticBlock then
      if Located record.block page index ∧ t.droppedSlot id record.block ≠ 0 then
        (t.slotAt page index).map fun slot => (0, slot.2)
      else t.slotAt page index
    else if Shadows record.block page index then
      (t.slotAt page index).map fun slot => (slot.1, slot.2.filter (· ≠ id))
    else t.slotAt page index := by
  cases hstatic : record.staticBlock with
  | true =>
    simp only [retire, hstatic, if_true]
    refine (dropStaticEntry_slotAt _ id record.block page index).trans ?_
    rw [slotAt_congr (unlistActive_pages t id record), droppedSlot_congr
      (unlistActive_pages t id record) (unlistActive_entries t id record)]
  | false =>
    simp only [retire, hstatic, Bool.false_eq_true, if_false]
    refine (moveShadow_slotAt _ record.block _ page index).trans ?_
    rw [slotAt_congr (unlistActive_pages t id record)]

end

/-! ## Shadow lists -/

/-- The shadow lists hold active dynamic records that start in their halfword. -/
def ShadowsListed (t : RuntimeBlockTable) : Prop :=
  ∀ page index slot shadow, t.slotAt page index = some (slot, shadow) → ∀ id ∈ shadow,
    ∃ record, t.records id = some record ∧ record.active = true ∧
      record.staticBlock = false ∧ Shadows record.block page index

theorem ShadowsListed.activate (h : ShadowsListed t) {id : Nat}
    {record : Record} (hold : ∀ old, t.records id = some old → old.active = false)
    (hactive : record.active = true) : ShadowsListed (t.activate id record) := by
  intro page index slot shadow hslot member hmember
  rw [activate_records]
  -- a member that was listed before is another record
  have hlisted : ∀ {slot shadow}, t.slotAt page index = some (slot, shadow) → member ∈ shadow →
      ∃ record', Function.update t.records id (some record) member = some record' ∧
        record'.active = true ∧ record'.staticBlock = false ∧ Shadows record'.block page index := by
    intro slot shadow hslot hmember
    obtain ⟨record', hrecord', hact, hrest⟩ := h page index slot shadow hslot member hmember
    have hne : member ≠ id := by
      rintro rfl
      rw [hold record' hrecord'] at hact
      cases hact
    exact ⟨record', by simpa [hne] using hrecord', hact, hrest⟩
  rw [activate_slotAt] at hslot
  split at hslot
  · rename_i hnew
    obtain ⟨⟨slot', shadow'⟩, hslot', heq⟩ := Option.map_eq_some_iff.mp hslot
    cases heq
    rcases List.mem_append.mp hmember with hmember | hmember
    · exact hlisted hslot' hmember
    · cases List.mem_singleton.mp hmember
      exact ⟨record, by simp, hactive, hnew.1, hnew.2⟩
  · exact hlisted hslot hmember

theorem ShadowsListed.retire (h : ShadowsListed t) {id : Nat}
    {record : Record} (hrecord : t.records id = some record) :
    ShadowsListed (t.retire id record) := by
  intro page index slot shadow hslot member hmember
  rw [retire_records]
  have hlisted : ∀ {slot shadow}, t.slotAt page index = some (slot, shadow) → member ∈ shadow →
      member ≠ id → ∃ record', Function.update t.records id (some { record with
          active := false, generation := advanceGeneration record.generation }) member =
          some record' ∧ record'.active = true ∧ record'.staticBlock = false ∧
        Shadows record'.block page index := by
    intro slot shadow hslot hmember hne
    obtain ⟨record', hrecord', hrest⟩ := h page index slot shadow hslot member hmember
    exact ⟨record', by simpa [hne] using hrecord', hrest⟩
  -- the retired record is listed only where it shadows a halfword
  have hid : ∀ {slot shadow}, t.slotAt page index = some (slot, shadow) → id ∈ shadow →
      record.staticBlock = false ∧ Shadows record.block page index := by
    intro slot shadow hslot hmember
    obtain ⟨record', hrecord', -, hrest⟩ := h page index slot shadow hslot id hmember
    cases Option.some.inj (hrecord.symm.trans hrecord')
    exact hrest
  rw [retire_slotAt] at hslot
  split at hslot
  · rename_i hstatic
    have hbefore : ∃ slot', t.slotAt page index = some (slot', shadow) := by
      split at hslot
      · obtain ⟨⟨slot', shadow'⟩, hslot', heq⟩ := Option.map_eq_some_iff.mp hslot
        cases heq
        exact ⟨slot', hslot'⟩
      · exact ⟨slot, hslot⟩
    obtain ⟨slot', hslot'⟩ := hbefore
    refine hlisted hslot' hmember ?_
    rintro rfl
    rw [(hid hslot' hmember).1] at hstatic
    cases hstatic
  · split at hslot
    · obtain ⟨⟨slot', shadow'⟩, hslot', heq⟩ := Option.map_eq_some_iff.mp hslot
      cases heq
      obtain ⟨hmember', hne⟩ := List.mem_filter.mp hmember
      exact hlisted hslot' hmember' (by simpa using hne)
    · rename_i hno
      refine hlisted hslot hmember ?_
      rintro rfl
      exact hno (hid hslot hmember).2

/-- The pages with the static slots only. -/
theorem placeStatic_unshadowed (t : RuntimeBlockTable) (ids : List Nat) (index : StaticAotIndex)
    (h : ∀ page staticPage, index.pages page = some staticPage →
      staticPage.dynamicEntries = fun _ => []) :
    ∀ page staticPage, (ids.foldl t.placeStatic index).pages page = some staticPage →
      staticPage.dynamicEntries = fun _ => [] := by
  induction ids generalizing index with
  | nil => exact h
  | cons id rest ih =>
    refine ih _ ?_
    intro page staticPage hpage
    simp only [placeStatic] at hpage
    split at hpage
    · exact h page staticPage hpage
    · rename_i record hrecord
      split at hpage
      · exact h page staticPage hpage
      · have hfill : ∀ slot, Function.update index.pages (pageIndex record.block.physicalOrigin)
            (some { (index.pages (pageIndex record.block.physicalOrigin)).getD {} with
              entries := Function.update
                ((index.pages (pageIndex record.block.physicalOrigin)).getD {}).entries
                (halfword record.block.physicalOrigin) slot }) page = some staticPage →
            staticPage.dynamicEntries = fun _ => [] := by
          intro slot hfilled
          by_cases hhere : page = pageIndex record.block.physicalOrigin
          · subst hhere
            rw [Function.update_self] at hfilled
            cases hfilled
            cases hold : index.pages (pageIndex record.block.physicalOrigin) with
            | none => rfl
            | some old => exact h _ old hold
          · rw [Function.update_of_ne hhere] at hfilled
            exact h page staticPage hfilled
        split at hpage
        · exact hfill _ hpage
        · exact hfill _ hpage

theorem placeShadow_listed (t : RuntimeBlockTable) (ids : List Nat)
    (pages : Nat → Option StaticAotPage)
    (h : ∀ page staticPage, pages page = some staticPage → ∀ index,
      ∀ id ∈ staticPage.dynamicEntries index, ∃ record, t.records id = some record ∧
        record.active = true ∧ record.staticBlock = false ∧ Shadows record.block page index) :
    ∀ page staticPage, ids.foldl t.placeShadow pages page = some staticPage → ∀ index,
      ∀ id ∈ staticPage.dynamicEntries index, ∃ record, t.records id = some record ∧
        record.active = true ∧ record.staticBlock = false ∧ Shadows record.block page index := by
  induction ids generalizing pages with
  | nil => exact h
  | cons id rest ih =>
    refine ih _ ?_
    intro page staticPage hpage index member hmember
    cases hrecord : t.records id with
    | none =>
      simp only [placeShadow, hrecord] at hpage
      exact h page staticPage hpage index member hmember
    | some record =>
      simp only [placeShadow, hrecord] at hpage
      by_cases hdynamic : (!record.active || record.staticBlock ||
          decide (record.block.physicalOrigin &&& 1 ≠ 0)) = true
      · rw [if_pos hdynamic] at hpage
        exact h page staticPage hpage index member hmember
      · rw [if_neg hdynamic] at hpage
        simp only [Bool.or_eq_true, Bool.not_eq_true', decide_eq_true_eq, not_or, not_not,
          Bool.not_eq_false, Bool.not_eq_true] at hdynamic
        cases hold : pages (pageIndex record.block.physicalOrigin) with
        | none =>
          rw [hold] at hpage
          exact h page staticPage hpage index member hmember
        | some old =>
          rw [hold] at hpage
          by_cases hhere : page = pageIndex record.block.physicalOrigin
          · subst hhere
            dsimp only at hpage
            rw [Function.update_self] at hpage
            cases hpage
            by_cases hindex : index = halfword record.block.physicalOrigin
            · subst hindex
              simp only [Function.update_self, List.mem_append, List.mem_singleton] at hmember
              rcases hmember with hmember | rfl
              · exact h _ old hold _ member hmember
              · exact ⟨record, hrecord, hdynamic.1.1, hdynamic.1.2, hdynamic.2, rfl, rfl⟩
            · simp only [Function.update_of_ne hindex] at hmember
              exact h _ old hold _ member hmember
          · dsimp only at hpage
            rw [Function.update_of_ne hhere] at hpage
            exact h page staticPage hpage index member hmember

theorem shadowsListed_seal (hopen : t.staticSealed = false) : ShadowsListed t.sealStatic := by
  intro page index slot shadow hslot member hmember
  simp only [sealStatic, hopen] at hslot ⊢
  obtain ⟨staticPage, hpage, heq⟩ := Option.map_eq_some_iff.mp hslot
  cases heq
  refine placeShadow_listed t (List.range t.nextId) _ ?_ page staticPage hpage index member hmember
  intro page' staticPage' hpage' index' id hid
  rw [placeStatic_unshadowed t (List.range t.nextId) {} (fun _ _ h => by cases h) page'
    staticPage' hpage'] at hid
  cases hid

variable {fresh : Prop}

theorem ShadowsListed.change (h : ShadowsListed t) (ht : Indexed t)
    (hchange : Change fresh t t') : ShadowsListed t' := by
  cases hchange with
  | bookkeeping => exact h
  | insertNew record hfree hsize hactive =>
    refine ShadowsListed.activate ?_ (fun old hold => ?_) hactive
    · exact h
    · exact absurd (ht.ids _ old hold).2 (lt_irrefl _)
  | reactivate id known record hknown hinactive hdynamic hfree hsize hactive =>
    refine h.activate (fun old hold => ?_) hactive
    cases Option.some.inj (hknown.symm.trans hold)
    exact hinactive
  | retire id record hrecord => exact h.retire hrecord
  | sealIndex hopen => exact shadowsListed_seal hopen
  | bind tracker contract =>
    simp only [bindCodeTracker]
    split
    · exact h
    · exact h

/-! ## What a guard holds -/

/-- The lookup that a guard was taken from: the halfword, its slot and entry, and
the records that shadowed it, in the table `t₀`. -/
structure Capture where
  table : RuntimeBlockTable
  page : Nat
  index : Nat
  slot : Nat
  entry : StaticAotEntry
  shadow : List Nat

/-- Nothing the lookup read has changed. -/
structure Held (c : Capture) (t : RuntimeBlockTable) : Prop where
  slotAt : t.slotAt c.page c.index = some (c.slot, c.shadow)
  records : ∀ id, id = c.entry.id ∨ id ∈ c.shadow → t.records id = c.table.records id
  codeTracker : t.codeTracker = c.table.codeTracker
  contract : t.staticAotInvalidation = c.table.staticAotInvalidation

/-- The captured entry is that of an active static record in the halfword. -/
structure Captured (c : Capture) : Prop where
  slot : c.slot ≠ 0 ∧ c.slot ≠ uint32Max
  entry : ∃ record, c.table.records c.entry.id = some record ∧ record.active = true ∧
    record.staticBlock = true ∧ Located record.block c.page c.index

/-- The entry is there, and while its generation is the captured one, so is all
the lookup read, and `unshadowed` holds. -/
def Kept (c : Capture) (unshadowed : Prop) (t : RuntimeBlockTable) : Prop :=
  t.staticSealed = true ∧ ∃ entry, t.staticAotEntries[c.slot - 1]? = some entry ∧
    entry.id = c.entry.id ∧ c.entry.generation ≤ entry.generation ∧
    (entry.generation = c.entry.generation → Held c t ∧ unshadowed)

section
variable {c : Capture} {unshadowed : Prop} {t t' : RuntimeBlockTable}

/-- A change that moves on the entry of one slot. -/
theorem Kept.advance (hc : Captured c) (h : Kept c unshadowed t)
    (hsealed : t'.staticSealed = t.staticSealed) {slot : Nat}
    (hentries : t'.staticAotEntries = advanceEntry t.staticAotEntries slot)
    (hheld : slot ≠ c.slot → (∃ entry, t.staticAotEntries[c.slot - 1]? = some entry ∧
      entry.id = c.entry.id) → Held c t → Held c t') : Kept c unshadowed t' := by
  obtain ⟨hsealed', entry, hentry, hid, hle, hkeep⟩ := h
  have hslot : c.slot - 1 + 1 = c.slot := Nat.sub_add_cancel (Nat.pos_of_ne_zero hc.slot.1)
  refine ⟨hsealed.trans hsealed', ?_⟩
  rw [hentries]
  by_cases hmoved : slot = c.slot
  · subst hmoved
    refine ⟨{ entry with generation := advanceGeneration entry.generation }, ?_, hid, ?_, ?_⟩
    · rw [advanceEntry_getElem?, hentry, Option.map_some, if_pos ⟨hslot.symm, hc.slot.2⟩]
    · exact hle.trans (Nat.le_succ _)
    · intro hsame
      have hsame' : entry.generation + 1 = c.entry.generation := hsame
      omega
  · refine ⟨entry, ?_, hid, hle, fun hsame => ?_⟩
    · have hno : ¬ (slot = c.slot - 1 + 1 ∧ slot ≠ uint32Max) :=
        fun h => hmoved (h.1.trans hslot)
      rw [advanceEntry_getElem?, hentry, Option.map_some, if_neg hno]
    · exact ⟨hheld hmoved ⟨entry, hentry, hid⟩ (hkeep hsame).1, (hkeep hsame).2⟩

/-- A record that shadows the captured halfword moves on the captured slot. -/
theorem Held.shadowSlot (h : Held c t) {block : RuntimeBlock}
    (hshadows : Shadows block c.page c.index) : t.shadowSlot block = c.slot := by
  obtain ⟨heven, hpage, hindex⟩ := hshadows
  rw [RuntimeBlockTable.shadowSlot, if_pos heven, hpage, hindex, h.slotAt]
  rfl

variable (hc : Captured c)
include hc

theorem Held.active (h : Held c t) (hlisted : ShadowsListed t) {id : Nat}
    (hid : id = c.entry.id ∨ id ∈ c.shadow) :
    ∃ record, t.records id = some record ∧ record.active = true := by
  rcases hid with rfl | hid
  · obtain ⟨record, hrecord, hactive, -⟩ := hc.entry
    exact ⟨record, (h.records _ (.inl rfl)).trans hrecord, hactive⟩
  · obtain ⟨record, hrecord, hactive, -⟩ := hlisted _ _ _ _ h.slotAt id hid
    exact ⟨record, hrecord, hactive⟩

section
variable (h : Kept c unshadowed t)
include h

theorem Kept.activate (hlisted : ShadowsListed t)
    {id : Nat} {record : Record} (hold : ∀ old, t.records id = some old → old.active = false) :
    Kept c unshadowed (t.activate id record) := by
  refine h.advance hc (activate_staticSealed t id record) (activate_entries t id record)
    fun hne _ hheld => ⟨?_, ?_, ?_, ?_⟩
  · rw [activate_slotAt, if_neg, hheld.slotAt]
    rintro ⟨hdynamic, hshadows⟩
    refine hne ?_
    rw [movedBy, hdynamic]
    exact hheld.shadowSlot hshadows
  · intro id' hid'
    obtain ⟨record', hrecord', hactive'⟩ := hheld.active hc hlisted hid'
    have hother : id' ≠ id := by
      rintro rfl
      rw [hold record' hrecord'] at hactive'
      cases hactive'
    rw [activate_records, Function.update_of_ne hother]
    exact hheld.records id' hid'
  · exact (activate_codeTracker t id record).trans hheld.codeTracker
  · exact (activate_staticAotInvalidation t id record).trans hheld.contract

theorem Kept.retire (hlisted : ShadowsListed t)
    {id : Nat} {record : Record} (hrecord : t.records id = some record) :
    Kept c unshadowed (t.retire id record) := by
  refine h.advance hc (retire_staticSealed t id record) (retire_entries t id record)
    fun hne hentry hheld => ?_
  -- the retired record neither holds the captured slot nor shadows it
  have hstatic : record.staticBlock = true → Located record.block c.page c.index →
      t.droppedSlot id record.block = 0 := by
    rintro hstatic ⟨hpage, hindex⟩
    by_contra hdropped
    refine hne ?_
    rw [movedByRetirement, hstatic, if_pos rfl]
    simp only [droppedSlot, hpage, hindex, hheld.slotAt] at hdropped ⊢
    split at hdropped
    · rename_i hheldSlot
      rw [if_pos hheldSlot]
    · exact absurd rfl hdropped
  have hdynamic : record.staticBlock = false → ¬ Shadows record.block c.page c.index := by
    intro hdynamic hshadows
    refine hne ?_
    rw [movedByRetirement, hdynamic]
    exact hheld.shadowSlot hshadows
  have hother : ∀ id', id' = c.entry.id ∨ id' ∈ c.shadow → id' ≠ id := by
    rintro id' (rfl | hid') rfl
    · obtain ⟨record', hrecord', -, hstatic', hlocated⟩ := hc.entry
      have hsame := (hheld.records _ (.inl rfl)).trans hrecord'
      cases Option.some.inj (hrecord.symm.trans hsame)
      have hzero := hstatic hstatic' hlocated
      obtain ⟨entry, hget, hid⟩ := hentry
      rw [droppedSlot, hlocated.1, hlocated.2, hheld.slotAt] at hzero
      simp only [hget, Option.any_some, hid, beq_self_eq_true] at hzero
      rw [if_pos ⟨hc.slot.1, hc.slot.2, trivial⟩] at hzero
      exact hc.slot.1 hzero
    · obtain ⟨record', hrecord', -, hdynamic', hshadows⟩ := hlisted _ _ _ _ hheld.slotAt id' hid'
      cases Option.some.inj (hrecord.symm.trans hrecord')
      exact hdynamic hdynamic' hshadows
  refine ⟨?_, ?_, ?_, ?_⟩
  · rw [retire_slotAt]
    split
    · rename_i hkind
      rw [if_neg fun h => h.2 (hstatic hkind h.1), hheld.slotAt]
    · rename_i hkind
      rw [if_neg (hdynamic (by simpa using hkind)), hheld.slotAt]
  · intro id' hid'
    rw [retire_records, Function.update_of_ne (hother id' hid')]
    exact hheld.records id' hid'
  · exact (retire_codeTracker t id record).trans hheld.codeTracker
  · exact (retire_staticAotInvalidation t id record).trans hheld.contract

theorem Kept.change (ht : Indexed t)
    (hlisted : ShadowsListed t) (hchange : Change fresh t t') : Kept c unshadowed t' := by
  cases hchange with
  | bookkeeping =>
    refine h.advance hc rfl (advanceEntry_zero _).symm fun _ _ hheld => ?_
    exact ⟨hheld.slotAt, hheld.records, hheld.codeTracker, hheld.contract⟩
  | insertNew record hfree hsize hactive =>
    refine Kept.activate hc ?_ ?_ fun old hold => ?_
    · refine h.advance hc rfl (advanceEntry_zero _).symm fun _ _ hheld => ?_
      exact ⟨hheld.slotAt, hheld.records, hheld.codeTracker, hheld.contract⟩
    · exact hlisted
    · exact absurd (ht.ids _ old hold).2 (lt_irrefl _)
  | reactivate id known record hknown hinactive =>
    refine h.activate hc hlisted fun old hold => ?_
    cases Option.some.inj (hknown.symm.trans hold)
    exact hinactive
  | retire id record hrecord => exact h.retire hc hlisted hrecord
  | sealIndex hopen =>
    rw [h.1] at hopen
    cases hopen
  | bind tracker contract =>
    simp only [bindCodeTracker]
    split
    · exact h
    · obtain ⟨hsealed, entry, hentry, hid, hle, -⟩ := h
      refine ⟨hsealed, { entry with generation := advanceGeneration entry.generation }, ?_, hid,
        hle.trans (Nat.le_succ _), fun hsame => ?_⟩
      · rw [List.getElem?_map, hentry]
        rfl
      · have hsame' : entry.generation + 1 = c.entry.generation := hsame
        omega

theorem Kept.changes (ht : Indexed t) (hlisted : ShadowsListed t) (hchanges : Changes fresh t t') :
    Kept c unshadowed t' ∧ Indexed t' ∧ ShadowsListed t' := by
  induction hchanges with
  | refl => exact ⟨h, ht, hlisted⟩
  | tail _ hchange ih =>
    obtain ⟨hkept, hindexed, hlisted'⟩ := ih
    exact ⟨hkept.change hc hindexed hlisted' hchange, hindexed.change hchange,
      hlisted'.change hindexed hchange⟩

end

omit hc

end

/-! ## Lookups and guards -/

variable {trackers : Nat → ExecutableCodeTracker} {physicalAddress virtualAddress : BitVec 32}
  {variant : BlockVariantKey} {execution : ValidatedBlockExecution}

theorem lookupSealedStaticAot_eq_some :
    t.lookupSealedStaticAot trackers physicalAddress virtualAddress variant = some execution ↔
      t.staticAddress physicalAddress virtualAddress = true ∧ ∃ page entry record,
        t.staticPageOf (canonicalPhysicalAddress physicalAddress) = some page ∧
        t.staticEntry (page.entries (halfword (canonicalPhysicalAddress physicalAddress))) =
          some entry ∧ t.records entry.id = some record ∧
        t.entryMatches trackers (canonicalPhysicalAddress physicalAddress) variant record = true ∧
        execution = t.staticExecution (canonicalPhysicalAddress physicalAddress) variant
          (page.entries (halfword (canonicalPhysicalAddress physicalAddress))) entry record := by
  simp only [lookupSealedStaticAot, bind, Option.bind_eq_some_iff, pure, guard]
  constructor
  · rintro ⟨_, haddress, page, hpage, entry, hentry, record, hrecord, _, hmatches, hexecution⟩
    split at haddress
    · rename_i haddress'
      split at hmatches
      · rename_i hmatches'
        exact ⟨haddress', page, entry, record, hpage, hentry, hrecord, hmatches',
          (Option.some.inj hexecution).symm⟩
      · cases hmatches
    · cases haddress
  · rintro ⟨haddress, page, entry, record, hpage, hentry, hrecord, hmatches, rfl⟩
    exact ⟨(), if_pos haddress, page, hpage, entry, hentry, record, hrecord, (),
      if_pos hmatches, rfl⟩

theorem lookupStaticAot_eq_some :
    t.lookupStaticAot trackers physicalAddress virtualAddress variant = some execution ↔
      t.lookupSealedStaticAot trackers physicalAddress virtualAddress variant = some execution ∧
      t.shadowed trackers (canonicalPhysicalAddress physicalAddress) variant = false := by
  simp only [lookupStaticAot, bind, Option.bind_eq_some_iff, pure, guard]
  constructor
  · rintro ⟨found, hfound, _, hshadowed, hexecution⟩
    split at hshadowed
    · rename_i hshadowed'
      cases hexecution
      exact ⟨hfound, by simpa using hshadowed'⟩
    · cases hshadowed
  · rintro ⟨hfound, hshadowed⟩
    exact ⟨execution, hfound, (), by rw [hshadowed]; rfl, rfl⟩

theorem staticEntry_eq_some {slot : Nat} {entry : StaticAotEntry} :
    t.staticEntry slot = some entry ↔
      slot ≠ 0 ∧ slot ≠ uint32Max ∧ t.staticAotEntries[slot - 1]? = some entry ∧ entry.id ≠ 0 := by
  simp only [staticEntry]
  split
  · rename_i hslot
    simp only [reduceCtorEq, false_iff]
    rintro ⟨hzero, hmax, -⟩
    exact hslot.elim hzero hmax
  · rename_i hslot
    rw [Option.filter_eq_some_iff]
    simp only [not_or] at hslot
    simp [hslot.1, hslot.2]

theorem staticDispatchGenerationGuardCurrent_iff {generationGuard : BlockDispatchGenerationGuard} :
    t.staticDispatchGenerationGuardCurrent trackers generationGuard = true ↔
      t.staticSealed = true ∧ generationGuard.kind = .staticAot ∧
      generationGuard.runtimeRegistered = false ∧ t.staticAotInvalidation = .coordinated ∧
      generationGuard.tableLifetime = wrapped t.dispatchLifetime ∧
      generationGuard.staticEntryIndex ≠ 0 ∧
      ∃ entry, t.staticAotEntries[generationGuard.staticEntryIndex - 1]? = some entry ∧
        entry.id ≠ 0 ∧ generationGuard.block.id = entry.id ∧
        generationGuard.tableGeneration = wrapped entry.generation ∧
        ∃ record, t.records entry.id = some record ∧
          generationGuard.block.generation = record.generation ∧
          t.staticallyBound trackers record = true := by
  simp only [staticDispatchGenerationGuardCurrent, Bool.and_eq_true, decide_eq_true_eq,
    Bool.not_eq_true', Option.any_eq_true, and_assoc]

/-- Fewer steps than there are values apart, two counts show different bits. -/
theorem wrapped_inj {count other : Nat} (hle : count ≤ other)
    (hfew : other < count + (2 ^ 64 - 1)) (h : wrapped count = wrapped other) : count = other := by
  unfold wrapped at h
  omega

end RuntimeBlockTable

namespace BlockDispatch
open RuntimeBlockTable

/-- The operation registers a block again that the bound tracker holds invalid,
while a dynamic record with its identity is active. -/
def Revives (s : BlockDispatch) : Operation → Prop
  | .tracker index (.registerBlock block) =>
    s.table.codeTracker = some index ∧ (s.trackers index).dispatchable block.identity = false ∧
      ∃ id record, s.table.records id = some record ∧ record.active = true ∧
        record.staticBlock = false ∧ record.identity = block.identity
  | _ => False

/-- No operation of the run does so. -/
def RunsWithoutRevival (s : BlockDispatch) : List Operation → Prop
  | [] => True
  | operation :: rest =>
    ¬ s.Revives operation ∧ ∀ s', s.apply operation = some s' → RunsWithoutRevival s' rest

/-- No record that shadowed the captured halfword in the variant is dispatchable
by the trackers. -/
def Unshadowed (c : Capture) (variant : BlockVariantKey)
    (trackers : Nat → ExecutableCodeTracker) : Prop :=
  ∀ id ∈ c.shadow, ∀ record, c.table.records id = some record →
    record.block.variant = variant → c.table.dispatchable trackers record = false

/-- The table has been cleared since, or the capture is kept. -/
def Guarded (c : Capture) (variant : BlockVariantKey) (s : BlockDispatch) : Prop :=
  c.table.dispatchLifetime < s.table.dispatchLifetime ∨
    (s.table.dispatchLifetime = c.table.dispatchLifetime ∧
      Kept c (Unshadowed c variant s.trackers) s.table)

/-- The states that runs reach. -/
structure Sound (s : BlockDispatch) : Prop where
  ready : Ready s
  listed : ShadowsListed s.table
  trackers : ∀ index, (s.trackers index).WellFormed

variable {fresh : Prop}

theorem Sound.step {s s' : BlockDispatch} (hs : Sound s) {operation : Operation}
    (h : Step fresh s operation s') : Sound s' := by
  refine ⟨hs.ready.step h, ?_, ?_⟩
  · cases h with
    | table table hchanges =>
      have hboth : Indexed table ∧ ShadowsListed table := by
        induction hchanges with
        | refl => exact ⟨hs.ready.indexed, hs.listed⟩
        | tail _ hchange ih => exact ⟨ih.1.change hchange, ih.2.change ih.1 hchange⟩
      exact hboth.2
    | clear =>
      intro page index slot shadow hslot
      cases hslot
    | tracker => exact hs.listed
    | allocate => exact hs.listed
  · cases h with
    | table => exact hs.trackers
    | clear => exact hs.trackers
    | tracker index operation tracker happly =>
      intro index'
      by_cases hsame : index' = index
      · subst hsame
        simpa using (hs.trackers index').apply happly
      · simpa [hsame] using hs.trackers index'
    | allocate => exact hs.trackers

variable {s : BlockDispatch} {variant : BlockVariantKey}

/-- A tracker operation that revives no shadowing record keeps them all from
being dispatched. -/
theorem Unshadowed.tracker (hs : Sound s) {c : Capture}
    (hheld : Held c s.table)
    (h : Unshadowed c variant s.trackers) {index : Nat}
    {operation : ExecutableCodeTracker.Operation} {tracker : ExecutableCodeTracker}
    (happly : (s.trackers index).apply operation = some tracker)
    (hrevives : ¬ s.Revives (.tracker index operation)) :
    Unshadowed c variant (Function.update s.trackers index tracker) := by
  intro id hid record hrecord hvariant
  have hbefore := h id hid record hrecord hvariant
  have hhere : s.table.records id = some record := (hheld.records id (.inr hid)).trans hrecord
  obtain ⟨record', hrecord', hactive, hdynamic, -⟩ := hs.listed _ _ _ _ hheld.slotAt id hid
  cases Option.some.inj (hhere.symm.trans hrecord')
  simp only [dispatchable, hactive, Bool.true_and] at hbefore ⊢
  cases hbound : c.table.codeTracker with
  | none =>
    rw [hbound] at hbefore
    cases hbefore
  | some bound =>
    rw [hbound] at hbefore
    dsimp only at hbefore ⊢
    by_cases hsame : bound = index
    · subst hsame
      rw [Function.update_self, ExecutableCodeTracker.dispatchable_eq_false]
      refine (hs.trackers bound).apply_invalid happly ?_
        (ExecutableCodeTracker.dispatchable_eq_false.mp hbefore)
      rintro block rfl hidentity
      refine hrevives ⟨hheld.codeTracker.trans hbound, hidentity ▸ hbefore, id, record, hhere,
        hactive, hdynamic, hidentity.symm⟩
    · rw [Function.update_of_ne hsame]
      exact hbefore

theorem Guarded.step {s s' : BlockDispatch} (hs : Sound s) {c : Capture} (hc : Captured c)
    {variant : BlockVariantKey} {operation : Operation} (h : Step fresh s operation s')
    (hrevives : ¬ s.Revives operation) (hguarded : Guarded c variant s) : Guarded c variant s' := by
  cases h with
  | table table hchanges =>
    rcases hguarded with hcleared | ⟨hlifetime, hkept⟩
    · exact .inl (hchanges.lifetime ▸ hcleared)
    · exact .inr ⟨hchanges.lifetime.trans hlifetime,
        (hkept.changes hc hs.ready.indexed hs.listed hchanges).1⟩
  | clear =>
    refine .inl ?_
    rcases hguarded with hcleared | ⟨hlifetime, -⟩
    · exact hcleared.trans hs.ready.lifetime
    · exact hlifetime ▸ hs.ready.lifetime
  | tracker index operation tracker happly =>
    rcases hguarded with hcleared | ⟨hlifetime, hsealed, entry, hentry, hid, hle, hkeep⟩
    · exact .inl hcleared
    · refine .inr ⟨hlifetime, hsealed, entry, hentry, hid, hle, fun hsame => ?_⟩
      obtain ⟨hheld, hunshadowed⟩ := hkeep hsame
      exact ⟨hheld, hunshadowed.tracker hs hheld happly hrevives⟩
  | allocate => exact hguarded

variable {operations : List Operation}

theorem Guarded.run {s' : BlockDispatch} (hs : Sound s) {c : Capture} (hc : Captured c)
    (hrevives : s.RunsWithoutRevival operations) (hrun : s.run operations = some s')
    (hguarded : Guarded c variant s) : Guarded c variant s' := by
  induction operations generalizing s with
  | nil =>
    cases hrun
    exact hguarded
  | cons operation rest ih =>
    obtain ⟨next, hnext, hrest⟩ := Option.bind_eq_some_iff.mp hrun
    have hstep : Step False s operation next := apply_step hs.ready (fun h => h.elim) hnext
    exact ih (hs.step hstep) (hrevives.2 next hnext) hrest (hguarded.step hs hc hstep hrevives.1)

theorem sound_start {trackers : Nat → ExecutableCodeTracker} {capacity : Nat → Nat}
    (hcreate : ∀ index, ExecutableCodeTracker.create (capacity index) = .ok (trackers index))
    (lifetime : Nat) (mode : RuntimeBlockLookupMode) : Sound (start trackers lifetime mode) := by
  refine ⟨ready_start trackers lifetime mode, ?_, fun index => ?_⟩
  · intro page index slot shadow hslot
    cases hslot
  · exact ExecutableCodeTracker.create_wellFormed (hcreate index)

theorem Sound.run {s' : BlockDispatch} (hs : Sound s)
    (hrun : s.run operations = some s') : Sound s' := by
  induction operations generalizing s with
  | nil =>
    cases hrun
    exact hs
  | cons operation rest ih =>
    obtain ⟨next, hnext, hrest⟩ := Option.bind_eq_some_iff.mp hrun
    have hstep : Step False s operation next := apply_step hs.ready (fun h => h.elim) hnext
    exact ih (hs.step hstep) hrest

variable {physicalAddress virtualAddress : BitVec 32} {variant : BlockVariantKey}
  {execution : ValidatedBlockExecution}

/-- What a lookup reads, as a capture. -/
theorem capture (hs : Sound s)
    (h : s.table.lookupStaticAot s.trackers physicalAddress virtualAddress variant =
      some execution) : ∃ c record, c.table = s.table ∧
      c.page = pageIndex (canonicalPhysicalAddress physicalAddress) ∧
      c.index = halfword (canonicalPhysicalAddress physicalAddress) ∧
      Captured c ∧ Guarded c variant s ∧ s.table.staticAotEntries[c.slot - 1]? = some c.entry ∧
      c.entry.id ≠ 0 ∧ s.table.records c.entry.id = some record ∧
      s.table.staticAddress physicalAddress virtualAddress = true ∧
      s.table.entryMatches s.trackers (canonicalPhysicalAddress physicalAddress) variant record =
        true ∧
      execution = s.table.staticExecution (canonicalPhysicalAddress physicalAddress) variant
        c.slot c.entry record := by
  obtain ⟨hsealed, hshadowed⟩ := lookupStaticAot_eq_some.mp h
  obtain ⟨haddress, page, entry, record, hpage, hentry, hrecord, hmatches, rfl⟩ :=
    lookupSealedStaticAot_eq_some.mp hsealed
  obtain ⟨hzero, hmax, hget, hid⟩ := staticEntry_eq_some.mp hentry
  have hmatches' := hmatches
  simp only [entryMatches, staticallyBound, Bool.and_eq_true, decide_eq_true_eq] at hmatches'
  have hcanonical : record.block.physicalOrigin = canonicalPhysicalAddress physicalAddress := by
    tauto
  have hstatic : record.staticBlock = true := by tauto
  have hdispatchable : s.table.dispatchable s.trackers record = true := by tauto
  let c : Capture :=
    { table := s.table
      page := pageIndex (canonicalPhysicalAddress physicalAddress)
      index := halfword (canonicalPhysicalAddress physicalAddress)
      slot := page.entries (halfword (canonicalPhysicalAddress physicalAddress))
      entry := entry
      shadow := page.dynamicEntries (halfword (canonicalPhysicalAddress physicalAddress)) }
  refine ⟨c, record, rfl, rfl, rfl, ⟨⟨hzero, hmax⟩, record, hrecord,
    active_of_dispatchable hdispatchable, hstatic, ?_⟩, ?_, hget, hid, hrecord, haddress, hmatches, rfl⟩
  · exact ⟨congrArg pageIndex hcanonical, congrArg halfword hcanonical⟩
  · have hslot : s.table.slotAt c.page c.index = some (c.slot, c.shadow) := by
      have hpage' : s.table.staticAotPages.bind (· c.page) = some page := hpage
      simp only [slotAt, hpage', Option.map_some]
      rfl
    have hopen : s.table.staticSealed = true := by
      simp only [staticAddress, Bool.and_eq_true] at haddress
      tauto
    refine .inr ⟨rfl, hopen, entry, hget, rfl, le_rfl, fun _ =>
      ⟨⟨hslot, fun _ _ => rfl, rfl, rfl⟩, ?_⟩⟩
    intro id hmember record' hrecord' hvariant
    obtain ⟨record'', hrecord'', -, hdynamic, -⟩ := hs.listed _ _ _ _ hslot id hmember
    cases Option.some.inj (hrecord'.symm.trans hrecord'')
    by_contra hdispatched
    have hdispatched' : s.table.dispatchable s.trackers record' = true :=
      Bool.eq_true_of_not_eq_false hdispatched
    have hshadows : s.table.shadowed s.trackers (canonicalPhysicalAddress physicalAddress)
        variant = true := by
      simp only [shadowed, hpage, Option.any_some, List.any_eq_true, Option.any_eq_true]
      exact ⟨id, hmember, record', hrecord', by simp [hdispatched', hdynamic, hvariant]⟩
    rw [hshadowed] at hshadows
    cases hshadows

/-- Neither the lifetime of the table nor the generation of an entry has come round
between the two states. -/
def NotComeRound (s u : BlockDispatch) : Prop :=
  u.table.dispatchLifetime < s.table.dispatchLifetime + (2 ^ 64 - 1) ∧
    ∀ entries ∈ s.table.staticAotEntries.zip u.table.staticAotEntries,
      entries.2.generation < entries.1.generation + (2 ^ 64 - 1)

/-- A guard that is still current stands for its lookup, in every run that
revives no active dynamic record and is too short for a counter to come round. -/
theorem static_aot_guard_sound {trackers : Nat → ExecutableCodeTracker} {capacity : Nat → Nat}
    (hcreate : ∀ index, ExecutableCodeTracker.create (capacity index) = .ok (trackers index))
    {lifetime : Nat} {mode : RuntimeBlockLookupMode} {before after : List Operation}
    {s u : BlockDispatch} (hbefore : (start trackers lifetime mode).run before = some s)
    (hlookup : s.table.lookupStaticAot s.trackers physicalAddress virtualAddress variant =
      some execution)
    (hafter : s.run after = some u) (hrevives : s.RunsWithoutRevival after)
    (hround : NotComeRound s u)
    (hcurrent : u.table.staticDispatchGenerationGuardCurrent u.trackers
      execution.generationGuard = true) :
    u.table.lookupStaticAot u.trackers physicalAddress virtualAddress variant = some execution := by
  have hs : Sound s := (sound_start hcreate lifetime mode).run hbefore
  obtain ⟨c, record, htable, hpage, hindex, hc, hguarded, hcaptured, hid, hrecord, haddress,
    hmatches, rfl⟩ := capture hs hlookup
  have hguarded' := hguarded.run hs hc hrevives hafter
  obtain ⟨hsealed, -, -, hcontract, hlifetime, -, entry, hentry, -, -, hgeneration, record',
    hrecord', -, hbound⟩ := staticDispatchGenerationGuardCurrent_iff.mp hcurrent
  -- the guard's lifetime excludes a table that was cleared
  rcases hguarded' with hcleared | ⟨hlifetime', -, entry', hentry', hid', hle, hkeep⟩
  · rw [htable] at hcleared
    exact absurd (wrapped_inj hcleared.le hround.1 hlifetime) hcleared.ne
  have hsame : entry = entry' := Option.some.inj (hentry.symm.trans hentry')
  subst hsame
  have hgeneration' : c.entry.generation = entry.generation :=
    wrapped_inj hle (hround.2 (c.entry, entry) (List.mem_of_getElem? (List.getElem?_zip_eq_some.mpr
      ⟨hcaptured, hentry⟩))) hgeneration
  obtain ⟨hheld, hunshadowed⟩ := hkeep hgeneration'.symm
  have hentryEq : entry = c.entry := by
    cases entry
    cases hce : c.entry
    rw [hce] at hid' hgeneration'
    simp only at hid' hgeneration'
    rw [hid', ← hgeneration']
  subst hentryEq
  have hsameRecord : u.table.records c.entry.id = some record := by
    rw [hheld.records _ (.inl rfl), htable, hrecord]
  cases Option.some.inj (hsameRecord.symm.trans hrecord')
  obtain ⟨page, hpageOf, hslot⟩ := Option.map_eq_some_iff.mp hheld.slotAt
  rw [hpage] at hpageOf
  rw [hindex, Prod.mk.injEq] at hslot
  refine lookupStaticAot_eq_some.mpr ⟨lookupSealedStaticAot_eq_some.mpr
    ⟨?_, page, c.entry, record, hpageOf, ?_, hsameRecord, ?_, ?_⟩, ?_⟩
  · simp only [staticAddress, Bool.and_eq_true, hsealed, hcontract] at haddress ⊢
    tauto
  · rw [hslot.1]
    exact staticEntry_eq_some.mpr ⟨hc.slot.1, hc.slot.2, hentry, hid⟩
  · simp only [entryMatches, Bool.and_eq_true] at hmatches ⊢
    exact ⟨⟨⟨hbound, hmatches.1.1.2⟩, hmatches.1.2⟩, hmatches.2⟩
  · rw [htable] at hlifetime'
    simp only [staticExecution, hslot.1, hlifetime']
  · -- every record that shadows the halfword did so before, and none is dispatchable
    rw [Bool.eq_false_iff]
    intro hshadowed
    have hpageOf' : u.table.staticPageOf (canonicalPhysicalAddress physicalAddress) = some page :=
      hpageOf
    simp only [shadowed, hpageOf', Option.any_some, List.any_eq_true, Option.any_eq_true,
      Bool.and_eq_true, decide_eq_true_eq] at hshadowed
    obtain ⟨id, hmember, candidate, hcandidate, ⟨hdispatchable, -⟩, hvariant⟩ := hshadowed
    rw [hslot.2] at hmember
    rw [hheld.records id (.inr hmember)] at hcandidate
    have hno := hunshadowed id hmember candidate hcandidate hvariant
    have hsameTracker : u.table.dispatchable u.trackers candidate =
        c.table.dispatchable u.trackers candidate := by
      simp only [dispatchable, hheld.codeTracker]
    rw [← hsameTracker, hdispatchable] at hno
    cases hno

/-- A block of the image that the P1 and P2 segments may share. -/
def sharedBlock : RuntimeBlock :=
  { virtualStart := 0x8C010000, physicalOrigin := 0x0C010000, size := 4, function := some 1
    provenance := "image", staticVariantPolicy := .directP1P2RuntimeStateAgnostic }

/-- Its bytes, compiled at run time for the P2 segment. -/
def shadowingBlock : RuntimeBlock :=
  { virtualStart := 0xAC010000, physicalOrigin := 0x0C010000, size := 4, function := some 2
    provenance := "runtime" }

def shadowingRegistration : ExecutableBlockRegistration :=
  { identity := stableRuntimeBlockIdentity shadowingBlock, physicalStart := 0x0C010000, size := 4
    provenance := "runtime" }

/-- The tracker knows the dynamic block, and no longer holds it valid. -/
def shadowing : List Operation :=
  [.registerStatic sharedBlock, .sealStatic, .bindCodeTracker (some 0) .coordinated,
    .registerRuntime shadowingBlock, .tracker 0 (.registerBlock shadowingRegistration),
    .tracker 0 (.retireBlock (stableRuntimeBlockIdentity shadowingBlock))]

/-- Registered again, the dynamic block shadows the static one; no generation
moves. -/
theorem static_aot_guard_outlives_shadow :
    ∃ s execution u, (start emptyTrackers 1 .direct).run shadowing = some s ∧
      s.table.lookupStaticAot s.trackers 0x0C010000 0x8C010000 {} = some execution ∧
      s.run [.tracker 0 (.registerBlock shadowingRegistration)] = some u ∧
      u.table.staticDispatchGenerationGuardCurrent u.trackers execution.generationGuard = true ∧
      u.table.lookupStaticAot u.trackers 0x0C010000 0x8C010000 {} = none := by
  refine ⟨_, _, _, rfl, rfl, rfl, ?_, ?_⟩ <;> decide +kernel

/-- Operations that reach neither block. -/
def elsewhere : List Operation :=
  [.lookup 0xAC010000 {}, .eraseOverlappingPhysical 0x0C020000 4]

theorem static_aot_guard_sound_elsewhere :
    ∃ s execution u, (start emptyTrackers 1 .direct).run shadowing = some s ∧
      s.run elsewhere = some u ∧
      s.table.lookupStaticAot s.trackers 0x0C010000 0x8C010000 {} = some execution ∧
      u.table.lookupStaticAot u.trackers 0x0C010000 0x8C010000 {} = some execution := by
  have hcreate : ∀ index, ExecutableCodeTracker.create ((fun _ => 1) index) =
      .ok (emptyTrackers index) := fun _ => rfl
  refine ⟨_, _, _, rfl, rfl, rfl, ?_⟩
  refine static_aot_guard_sound hcreate
    (rfl : (start emptyTrackers 1 .direct).run shadowing = some _) rfl
    (rfl : BlockDispatch.run _ elsewhere = some _) ⟨id, fun _ _ => ⟨id, fun _ _ => trivial⟩⟩
    ⟨?_, ?_⟩ ?_ <;> decide +kernel

end BlockDispatch
end KatanaRecomp.Runtime
