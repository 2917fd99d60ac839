import KatanaRecomp.Runtime.BlockTable
import KatanaRecomp.Runtime.CodeTrackerInvariant

/-! # The indices of the block table

Every operation of the table is a chain of a few changes: a record becomes
active under a free start, an active record is retired, the static index is
sealed, a tracker is bound, or only bookkeeping fields change. What holds of the indices is proved for each change once. -/
namespace KatanaRecomp.Runtime.RuntimeBlockTable
open Lib

/-! ## Frames -/

section
variable (t : RuntimeBlockTable)
include t

theorem moveShadow_frame (block : RuntimeBlock)
    (change : List Nat → List Nat) : ∃ pages entries, t.moveShadow block change =
      { t with staticAotPages := pages, staticAotEntries := entries } := by
  simp only [moveShadow]
  split
  · exact ⟨_, _, rfl⟩
  · split
    · exact ⟨_, _, rfl⟩
    · exact ⟨_, _, rfl⟩

theorem dropStaticEntry_frame (id : Nat) (block : RuntimeBlock) :
    ∃ pages entries, t.dropStaticEntry id block =
      { t with staticAotPages := pages, staticAotEntries := entries } := by
  simp only [dropStaticEntry]
  split
  · exact ⟨_, _, rfl⟩
  · split
    · exact ⟨_, _, rfl⟩
    · exact ⟨_, _, rfl⟩

/-- What an activation does beside the static index. -/
theorem activate_frame (id : Nat) (record : Record) : ∃ pages entries, t.activate id record =
      { t.listActive id record with
        records := Function.update t.records id (some record)
        activeVirtualRanges := t.activeVirtualRanges.emplace record.block.key id
        activePhysicalPages := fun page =>
          if page ∈ validationPages record.block then insertId id (t.activePhysicalPages page)
          else t.activePhysicalPages page
        staticAotPages := pages
        staticAotEntries := entries
        dispatchGeneration := advanceGeneration t.dispatchGeneration
        activeCount := t.activeCount + 1 } := by
  simp only [activate, indexActive, placeActive, listActive]
  split
  · exact ⟨_, _, rfl⟩
  · obtain ⟨pages, entries, h⟩ := moveShadow_frame _ record.block (· ++ [id])
    exact ⟨pages, entries, by rw [h]⟩

/-- What the retirement of a record does beside the static index. -/
theorem retire_frame (id : Nat) (record : Record) : ∃ pages entries, t.retire id record =
      { t.unlistActive id record with
        records := Function.update t.records id (some { record with
          active := false, generation := advanceGeneration record.generation })
        staticAotPages := pages
        staticAotEntries := entries
        dispatchGeneration := advanceGeneration t.dispatchGeneration
        activeCount := t.activeCount - 1 } := by
  simp only [retire]
  split
  · obtain ⟨pages, entries, h⟩ := dropStaticEntry_frame (t.unlistActive id record) id record.block
    exact ⟨pages, entries, by rw [h]⟩
  · obtain ⟨pages, entries, h⟩ :=
      moveShadow_frame (t.unlistActive id record) record.block (·.filter (· ≠ id))
    exact ⟨pages, entries, by rw [h]⟩

end

section
variable (t : RuntimeBlockTable) (id : Nat) (record : Record)

@[simp]
theorem activate_records :
    (t.activate id record).records = Function.update t.records id (some record) := by
  obtain ⟨pages, entries, hframe⟩ := activate_frame t id record
  rw [hframe]

@[simp]
theorem activate_staticVirtualIndex : (t.activate id record).staticVirtualIndex =
    if record.staticBlock then t.staticVirtualIndex.emplace record.block.key id
    else t.staticVirtualIndex := by
  obtain ⟨pages, entries, hframe⟩ := activate_frame t id record
  rw [hframe]
  cases hstatic : record.staticBlock <;> simp [listActive, hstatic]

@[simp]
theorem retire_records : (t.retire id record).records = Function.update t.records id
    (some { record with
      active := false, generation := advanceGeneration record.generation }) := by
  obtain ⟨pages, entries, hframe⟩ := retire_frame t id record
  rw [hframe]

@[simp]
theorem retire_staticVirtualIndex :
    (t.retire id record).staticVirtualIndex = t.staticVirtualIndex := by
  obtain ⟨pages, entries, hframe⟩ := retire_frame t id record
  rw [hframe]
  cases hstatic : record.staticBlock <;> simp [unlistActive, hstatic]

/-- What neither an activation nor a retirement moves. -/
structure Untouched (t t' : RuntimeBlockTable) : Prop where
  dispatchLifetime : t'.dispatchLifetime = t.dispatchLifetime
  nextId : t'.nextId = t.nextId
  staticSealed : t'.staticSealed = t.staticSealed
  codeTracker : t'.codeTracker = t.codeTracker
  staticAotInvalidation : t'.staticAotInvalidation = t.staticAotInvalidation
  contextualVirtualOverlaps : t'.contextualVirtualOverlaps = t.contextualVirtualOverlaps

theorem activate_untouched : Untouched t (t.activate id record) := by
  obtain ⟨pages, entries, hframe⟩ := activate_frame t id record
  rw [hframe]
  cases hstatic : record.staticBlock <;> constructor <;> simp [listActive, hstatic]

theorem retire_untouched : Untouched t (t.retire id record) := by
  obtain ⟨pages, entries, hframe⟩ := retire_frame t id record
  rw [hframe]
  cases hstatic : record.staticBlock <;> constructor <;> simp [unlistActive, hstatic]

@[simp]
theorem activate_dispatchLifetime : (t.activate id record).dispatchLifetime = t.dispatchLifetime :=
  (activate_untouched t id record).dispatchLifetime

@[simp]
theorem retire_dispatchLifetime : (t.retire id record).dispatchLifetime = t.dispatchLifetime :=
  (retire_untouched t id record).dispatchLifetime

@[simp]
theorem activate_nextId : (t.activate id record).nextId = t.nextId :=
  (activate_untouched t id record).nextId

@[simp]
theorem retire_nextId : (t.retire id record).nextId = t.nextId :=
  (retire_untouched t id record).nextId

@[simp]
theorem activate_staticSealed : (t.activate id record).staticSealed = t.staticSealed :=
  (activate_untouched t id record).staticSealed

@[simp]
theorem retire_staticSealed : (t.retire id record).staticSealed = t.staticSealed :=
  (retire_untouched t id record).staticSealed

@[simp]
theorem activate_codeTracker : (t.activate id record).codeTracker = t.codeTracker :=
  (activate_untouched t id record).codeTracker

@[simp]
theorem retire_codeTracker : (t.retire id record).codeTracker = t.codeTracker :=
  (retire_untouched t id record).codeTracker

@[simp]
theorem activate_staticAotInvalidation :
    (t.activate id record).staticAotInvalidation = t.staticAotInvalidation :=
  (activate_untouched t id record).staticAotInvalidation

@[simp]
theorem retire_staticAotInvalidation :
    (t.retire id record).staticAotInvalidation = t.staticAotInvalidation :=
  (retire_untouched t id record).staticAotInvalidation

end

/-! ## Changes -/

/-- The index of static blocks names no retired record under the key. -/
def StartFree (t : RuntimeBlockTable) (key : VariantAddressKey) : Prop :=
  ∀ id, t.staticVirtualIndex.find key = some id →
    ∃ record, t.records id = some record ∧ record.active = true

/-- The changes that operations are made of. Where `fresh` holds, a static
record is inserted only under a key that no retired static record has. -/
inductive Change (fresh : Prop) : RuntimeBlockTable → RuntimeBlockTable → Prop
  | bookkeeping (t : RuntimeBlockTable) (rejected : VariantAddressKey → Option Nat)
      (overlaps : Bool) (counters : RuntimeBlockLookupCounters) (mode : RuntimeBlockLookupMode) :
      Change fresh t
        { t with
          rejectedGenerations := rejected
          contextualVirtualOverlaps := overlaps
          lookupCounters := counters
          lookupMode := mode }
  | insertNew (t : RuntimeBlockTable) (record : Record)
      (hfree : t.activeVirtualRanges.find record.block.key = none)
      (hsize : 0 < record.block.size.toNat) (hactive : record.active = true)
      (hfresh : fresh → record.staticBlock = true → StartFree t record.block.key) :
      Change fresh t ({ t with
        nextId := t.nextId + 1
        identities := Function.update t.identities record.identity (some t.nextId) }.activate
          t.nextId record)
  | reactivate (t : RuntimeBlockTable) (id : Nat) (known record : Record)
      (hknown : t.records id = some known) (hinactive : known.active = false)
      (hdynamic : record.staticBlock = false)
      (hfree : t.activeVirtualRanges.find record.block.key = none)
      (hsize : 0 < record.block.size.toNat) (hactive : record.active = true)
      (hrecord : record = { known with block := record.block, active := true }) :
      Change fresh t (t.activate id record)
  | retire (t : RuntimeBlockTable) (id : Nat) (record : Record)
      (hrecord : t.records id = some record) (hactive : record.active = true) :
      Change fresh t (t.retire id record)
  | sealIndex (t : RuntimeBlockTable) (hopen : t.staticSealed = false) : Change fresh t t.sealStatic
  | bind (t : RuntimeBlockTable) (tracker : Option Nat)
      (staticAotInvalidation : StaticAotInvalidationContract) :
      Change fresh t (t.bindCodeTracker tracker staticAotInvalidation)

/-- A chain of changes. -/
abbrev Changes (fresh : Prop) : RuntimeBlockTable → RuntimeBlockTable → Prop :=
  Relation.ReflTransGen (Change fresh)

/-! ## The invariant of the indices -/

/-- The record of an id is active, under the key. -/
def ActiveAt (t : RuntimeBlockTable) (key : VariantAddressKey) (id : Nat) (record : Record) :
    Prop := t.records id = some record ∧ record.active = true ∧ record.block.key = key

structure Indexed (t : RuntimeBlockTable) : Prop where
  next : 0 < t.nextId
  ids : ∀ id record, t.records id = some record → 0 < id ∧ id < t.nextId
  sized : ∀ id record, t.records id = some record → 0 < record.block.size.toNat
  ranges : ∀ key id, t.activeVirtualRanges.find key = some id ↔ ∃ record, ActiveAt t key id record
  dynamicIndex : ∀ key id, t.dynamicVirtualIndex.find key = some id ↔
    ∃ record, ActiveAt t key id record ∧ record.staticBlock = false
  staticIndex : ∀ key id, t.staticVirtualIndex.find key = some id →
    ∃ record, t.records id = some record ∧ record.staticBlock = true ∧ record.block.key = key
  staticDirect : ∀ key, t.staticDirectVirtualIndex key = t.staticVirtualIndex.find key
  dynamicDirect : ∀ key, t.dynamicDirectVirtualIndex key = t.dynamicVirtualIndex.find key

variable {key : VariantAddressKey} {t : RuntimeBlockTable}

/-- No two active records share a key. -/
theorem Indexed.unique (ht : Indexed t)
    {id id' : Nat} {record record' : Record} (h : ActiveAt t key id record)
    (h' : ActiveAt t key id' record') : id = id' := by
  have hid := (ht.ranges key id).mpr ⟨record, h⟩
  have hid' := (ht.ranges key id').mpr ⟨record', h'⟩
  exact Option.some.inj (hid.symm.trans hid')

variable {record : Record} {id : Nat}

theorem Indexed.free (ht : Indexed t) (hfree : t.activeVirtualRanges.find key = none) :
    ¬ ActiveAt t key id record := by
  intro h
  have hid := (ht.ranges key id).mpr ⟨record, h⟩
  rw [hfree] at hid
  cases hid

theorem Indexed.dynamic_free (ht : Indexed t)
    (hfree : t.activeVirtualRanges.find key = none) : t.dynamicVirtualIndex.find key = none := by
  cases hfind : t.dynamicVirtualIndex.find key with
  | none => rfl
  | some id =>
    obtain ⟨record, hrecord, -⟩ := (ht.dynamicIndex key id).mp hfind
    exact absurd hrecord (ht.free hfree)

variable {t' : RuntimeBlockTable}

theorem activeAt_update (hrecords : t'.records = Function.update t.records id (some record))
    {id' : Nat} {record' : Record} : ActiveAt t' key id' record' ↔
      (id' = id ∧ record' = record ∧ record.active = true ∧ record.block.key = key) ∨
        (id' ≠ id ∧ ActiveAt t key id' record') := by
  simp only [ActiveAt, hrecords]
  by_cases h : id' = id
  · subst h
    simp only [Function.update_self, Option.some.injEq, true_and, ne_eq, not_true_eq_false,
      false_and, or_false]
    constructor
    · rintro ⟨rfl, hrest⟩
      exact ⟨rfl, hrest⟩
    · rintro ⟨rfl, hrest⟩
      exact ⟨rfl, hrest⟩
  · simp [h]

/-- A record becomes active under a free key. -/
theorem Indexed.activate (ht : Indexed t) (hid : 0 < id ∧ id < t.nextId)
    (hold : ∀ old, t.records id = some old → old.active = false ∧ old.staticBlock = false)
    (hfree : t.activeVirtualRanges.find record.block.key = none)
    (hsize : 0 < record.block.size.toNat) (hactive : record.active = true) :
    Indexed (t.activate id record) := by
  obtain ⟨pages, entries, hframe⟩ := activate_frame t id record
  have hrecords := activate_records t id record
  have hnext := activate_nextId t id record
  have hother : ∀ {key id' record'}, ActiveAt t key id' record' → id' ≠ id := by
    rintro key id' record' ⟨hrecord, hact, -⟩ rfl
    rw [(hold record' hrecord).1] at hact
    cases hact
  have hnone := ht.dynamic_free hfree
  refine ⟨hnext ▸ ht.next, ?_, ?_, ?_, ?_, ?_, ?_, ?_⟩
  · intro id' record' h
    rw [hrecords] at h
    rw [hnext]
    by_cases hsame : id' = id
    · exact hsame ▸ hid
    · exact ht.ids id' record' (by simpa [hsame] using h)
  · intro id' record' h
    rw [hrecords] at h
    by_cases hsame : id' = id
    · subst hsame
      cases (by simpa using h : record = record')
      exact hsize
    · exact ht.sized id' record' (by simpa [hsame] using h)
  · intro key id'
    have hranges : (t.activate id record).activeVirtualRanges.find key =
        if key = record.block.key then some id else t.activeVirtualRanges.find key := by
      simp [hframe, hfree]
    rw [hranges]
    simp only [activeAt_update hrecords]
    by_cases hkey : key = record.block.key
    · subst hkey
      rw [if_pos rfl, Option.some.injEq]
      constructor
      · rintro rfl
        exact ⟨record, .inl ⟨rfl, rfl, hactive, rfl⟩⟩
      · rintro ⟨record', ⟨rfl, -⟩ | ⟨-, hrecord'⟩⟩
        · rfl
        · exact absurd hrecord' (ht.free hfree)
    · rw [if_neg hkey, ht.ranges key id']
      constructor
      · rintro ⟨record', hrecord'⟩
        exact ⟨record', .inr ⟨hother hrecord', hrecord'⟩⟩
      · rintro ⟨record', ⟨-, -, -, hsame⟩ | ⟨-, hrecord'⟩⟩
        · exact absurd hsame.symm hkey
        · exact ⟨record', hrecord'⟩
  · intro key id'
    have hdynamic : (t.activate id record).dynamicVirtualIndex.find key =
        if record.staticBlock = false ∧ key = record.block.key then some id
        else t.dynamicVirtualIndex.find key := by
      rw [hframe]
      cases hstatic : record.staticBlock with
      | true => simp [listActive, hstatic]
      | false => simp [listActive, hstatic, hnone]
    rw [hdynamic]
    simp only [activeAt_update hrecords]
    by_cases hkey : record.staticBlock = false ∧ key = record.block.key
    · obtain ⟨hstatic, rfl⟩ := hkey
      rw [if_pos ⟨hstatic, rfl⟩, Option.some.injEq]
      constructor
      · rintro rfl
        exact ⟨record, .inl ⟨rfl, rfl, hactive, rfl⟩, hstatic⟩
      · rintro ⟨record', ⟨rfl, -⟩ | ⟨-, hrecord'⟩, -⟩
        · rfl
        · exact absurd hrecord' (ht.free hfree)
    · rw [if_neg hkey, ht.dynamicIndex key id']
      constructor
      · rintro ⟨record', hrecord', hstatic⟩
        exact ⟨record', .inr ⟨hother hrecord', hrecord'⟩, hstatic⟩
      · rintro ⟨record', ⟨-, rfl, -, hsame⟩ | ⟨-, hrecord'⟩, hstatic⟩
        · exact absurd ⟨hstatic, hsame.symm⟩ hkey
        · exact ⟨record', hrecord', hstatic⟩
  · intro key id' h
    have hkept : ∀ {key' id''}, t.staticVirtualIndex.find key' = some id'' →
        ∃ record', (t.activate id record).records id'' = some record' ∧
          record'.staticBlock = true ∧ record'.block.key = key' := by
      intro key' id'' hfind
      obtain ⟨record', hrecord', hstatic, hkey⟩ := ht.staticIndex key' id'' hfind
      have hne : id'' ≠ id := by
        rintro rfl
        rw [(hold record' hrecord').2] at hstatic
        cases hstatic
      exact ⟨record', by simpa [hrecords, hne] using hrecord', hstatic, hkey⟩
    cases hstatic : record.staticBlock with
    | false => exact hkept (by simpa [hframe, listActive, hstatic] using h)
    | true =>
      have hfind : (if key = record.block.key then
          some ((t.staticVirtualIndex.find record.block.key).getD id)
          else t.staticVirtualIndex.find key) = some id' := by
        simpa [hframe, listActive, hstatic] using h
      by_cases hkey : key = record.block.key
      · subst hkey
        rw [if_pos rfl] at hfind
        cases hstale : t.staticVirtualIndex.find record.block.key with
        | none =>
          cases (by simpa [hstale] using hfind : id = id')
          exact ⟨record, by simp, hstatic, rfl⟩
        | some stale =>
          cases (by simpa [hstale] using hfind : stale = id')
          exact hkept hstale
      · rw [if_neg hkey] at hfind
        exact hkept hfind
  · intro key
    rw [hframe]
    cases hstatic : record.staticBlock with
    | true => simp [listActive, hstatic, emplaceDirect, Function.update_apply, ht.staticDirect]
    | false => simp [listActive, hstatic, ht.staticDirect]
  · intro key
    rw [hframe]
    cases hstatic : record.staticBlock with
    | true => simp [listActive, hstatic, ht.dynamicDirect]
    | false => simp [listActive, hstatic, emplaceDirect, Function.update_apply, ht.dynamicDirect]

/-- Equal indices keep the invariant. -/
theorem Indexed.transfer (ht : Indexed t)
    (hrecords : t'.records = t.records) (hnext : t.nextId ≤ t'.nextId)
    (hranges : t'.activeVirtualRanges = t.activeVirtualRanges)
    (hdynamic : t'.dynamicVirtualIndex = t.dynamicVirtualIndex)
    (hstatic : t'.staticVirtualIndex = t.staticVirtualIndex)
    (hstaticDirect : t'.staticDirectVirtualIndex = t.staticDirectVirtualIndex)
    (hdynamicDirect : t'.dynamicDirectVirtualIndex = t.dynamicDirectVirtualIndex) : Indexed t' := by
  refine ⟨ht.next.trans_le hnext, ?_, ?_, ?_, ?_, ?_, ?_, ?_⟩
  · intro id record h
    rw [hrecords] at h
    exact ⟨(ht.ids id record h).1, (ht.ids id record h).2.trans_le hnext⟩
  · rw [hrecords]
    exact ht.sized
  · simp only [hranges, ActiveAt, hrecords]
    exact ht.ranges
  · simp only [hdynamic, ActiveAt, hrecords]
    exact ht.dynamicIndex
  · simp only [hstatic, hrecords]
    exact ht.staticIndex
  · rw [hstaticDirect, hstatic]
    exact ht.staticDirect
  · rw [hdynamicDirect, hdynamic]
    exact ht.dynamicDirect

/-- An active record is retired. -/
theorem Indexed.retire (ht : Indexed t)
    (hrecord : t.records id = some record) (hactive : record.active = true) :
    Indexed (t.retire id record) := by
  obtain ⟨pages, entries, hframe⟩ := retire_frame t id record
  have hrecords := retire_records t id record
  have hnext := retire_nextId t id record
  have hhere : ActiveAt t record.block.key id record := ⟨hrecord, hactive, rfl⟩
  -- another active record has another key
  have hother : ∀ {key id' record'}, ActiveAt t key id' record' →
      (id' ≠ id ↔ key ≠ record.block.key) := by
    intro key id' record' h
    constructor
    · rintro hne rfl
      exact hne (ht.unique h hhere)
    · rintro hne rfl
      cases Option.some.inj (hrecord.symm.trans h.1)
      exact hne h.2.2.symm
  have hactiveAt : ∀ key id' record', ActiveAt (t.retire id record) key id' record' ↔
      key ≠ record.block.key ∧ ActiveAt t key id' record' := by
    intro key id' record'
    rw [activeAt_update hrecords]
    constructor
    · rintro (⟨-, -, hfalse, -⟩ | ⟨hne, h⟩)
      · cases hfalse
      · exact ⟨(hother h).mp hne, h⟩
    · rintro ⟨hne, h⟩
      exact .inr ⟨(hother h).mpr hne, h⟩
  refine ⟨hnext ▸ ht.next, ?_, ?_, ?_, ?_, ?_, ?_, ?_⟩
  · intro id' record' h
    rw [hrecords] at h
    rw [hnext]
    by_cases hsame : id' = id
    · exact hsame ▸ ht.ids id record hrecord
    · exact ht.ids id' record' (by simpa [hsame] using h)
  · intro id' record' h
    rw [hrecords] at h
    by_cases hsame : id' = id
    · subst hsame
      cases Option.some.inj (by simpa using h)
      exact ht.sized id' record hrecord
    · exact ht.sized id' record' (by simpa [hsame] using h)
  · intro key id'
    have hranges : (t.retire id record).activeVirtualRanges.find key =
        if key = record.block.key then none else t.activeVirtualRanges.find key := by
      rw [hframe]
      cases hstatic : record.staticBlock <;> simp [unlistActive, hstatic]
    rw [hranges]
    simp only [hactiveAt]
    by_cases hkey : key = record.block.key
    · simp [hkey]
    · simp [hkey, ht.ranges key id']
  · intro key id'
    have hdynamic : (t.retire id record).dynamicVirtualIndex.find key =
        if record.staticBlock = false ∧ key = record.block.key then none
        else t.dynamicVirtualIndex.find key := by
      rw [hframe]
      cases hstatic : record.staticBlock <;> simp [unlistActive, hstatic]
    rw [hdynamic]
    simp only [hactiveAt]
    by_cases hkey : key = record.block.key
    · subst hkey
      cases hstatic : record.staticBlock with
      | false => simp
      | true =>
        simp only [reduceCtorEq, false_and, if_false, ne_eq, not_true_eq_false, exists_false,
          iff_false]
        intro hfind
        obtain ⟨record', hrecord', hdyn⟩ := (ht.dynamicIndex _ _).mp hfind
        cases ht.unique hrecord' hhere
        cases Option.some.inj (hrecord.symm.trans hrecord'.1)
        rw [hstatic] at hdyn
        cases hdyn
    · simp [hkey, ht.dynamicIndex key id']
  · intro key id' h
    have hfind : t.staticVirtualIndex.find key = some id' := by
      rw [hframe] at h
      cases hstatic : record.staticBlock <;> simpa [unlistActive, hstatic] using h
    obtain ⟨record', hrecord', hstatic, hkey⟩ := ht.staticIndex key id' hfind
    by_cases hsame : id' = id
    · subst hsame
      cases Option.some.inj (hrecord.symm.trans hrecord')
      exact ⟨{ record with
        active := false, generation := advanceGeneration record.generation },
        by rw [hrecords, Function.update_self], hstatic, hkey⟩
    · exact ⟨record', by simpa [hrecords, hsame] using hrecord', hstatic, hkey⟩
  · intro key
    rw [hframe]
    cases hstatic : record.staticBlock <;> simp [unlistActive, hstatic, ht.staticDirect]
  · intro key
    rw [hframe]
    cases hstatic : record.staticBlock with
    | true => simp [unlistActive, hstatic, ht.dynamicDirect]
    | false => simp [unlistActive, hstatic, Function.update_apply, ht.dynamicDirect]

variable {fresh : Prop}

theorem Indexed.change (ht : Indexed t) (h : Change fresh t t') : Indexed t' := by
  cases h with
  | bookkeeping => exact ht.transfer rfl le_rfl rfl rfl rfl rfl rfl
  | insertNew record hfree hsize hactive =>
    have hgrown : Indexed { t with
        nextId := t.nextId + 1
        identities := Function.update t.identities record.identity (some t.nextId) } :=
      ht.transfer rfl (Nat.le_succ _) rfl rfl rfl rfl rfl
    refine hgrown.activate ⟨ht.next, Nat.lt_succ_self _⟩ ?_ hfree hsize hactive
    intro old hold
    exact absurd (ht.ids _ old hold).2 (lt_irrefl _)
  | reactivate id known record hknown hinactive hdynamic hfree hsize hactive hrecord =>
    refine ht.activate (ht.ids id known hknown) ?_ hfree hsize hactive
    intro old hold
    cases Option.some.inj (hknown.symm.trans hold)
    rw [hrecord] at hdynamic
    exact ⟨hinactive, hdynamic⟩
  | retire id record hrecord hactive => exact ht.retire hrecord hactive
  | sealIndex hopen =>
    simp only [sealStatic, hopen]
    exact ht.transfer rfl le_rfl rfl rfl rfl rfl rfl
  | bind tracker contract =>
    simp only [bindCodeTracker]
    split
    · exact ht
    · exact ht.transfer rfl le_rfl rfl rfl rfl rfl rfl

theorem Indexed.changes (ht : Indexed t) (h : Changes fresh t t') : Indexed t' := by
  induction h with
  | refl => exact ht
  | tail _ hstep ih => exact ih.change hstep

theorem Indexed.clear (ht : Indexed t) (lifetime : Nat) : Indexed (t.clear lifetime) :=
  ⟨ht.next, by simp [RuntimeBlockTable.clear], by simp [RuntimeBlockTable.clear],
    by simp [RuntimeBlockTable.clear, ActiveAt], by simp [RuntimeBlockTable.clear, ActiveAt],
    by simp [RuntimeBlockTable.clear], fun _ => rfl, fun _ => rfl⟩

theorem indexed_start (lifetime : Nat) (mode : RuntimeBlockLookupMode) :
    Indexed { dispatchLifetime := lifetime, lookupMode := mode } :=
  ⟨Nat.one_pos, by simp, by simp, by simp [ActiveAt], by simp [ActiveAt], by simp,
    fun _ => rfl, fun _ => rfl⟩

/-- No change moves the lifetime of a table. -/
theorem Change.lifetime (h : Change fresh t t') : t'.dispatchLifetime = t.dispatchLifetime := by
  cases h with
  | bookkeeping => rfl
  | insertNew record => simp
  | reactivate id known record => simp
  | retire id record => simp
  | sealIndex hopen =>
    simp only [sealStatic, hopen]
    rfl
  | bind tracker contract =>
    simp only [bindCodeTracker]
    split
    · rfl
    · rfl

theorem Changes.lifetime (h : Changes fresh t t') : t'.dispatchLifetime = t.dispatchLifetime := by
  induction h with
  | refl => rfl
  | tail _ hstep ih => exact hstep.lifetime.trans ih

/-! ## Operations as chains of changes -/

variable {block : RuntimeBlock} {runtimeRegistered : Bool}

theorem checkBlock_size
    (h : checkBlock block runtimeRegistered = .ok ()) : 0 < block.size.toNat := by
  unfold checkBlock at h
  split at h
  · cases h
  · rename_i hempty
    have hsize : block.size ≠ 0 := fun hzero => hempty (.inl hzero)
    have hne : block.size.toNat ≠ 0 := fun hzero => hsize (BitVec.eq_of_toNat_eq hzero)
    omega

/-- The block as it is stored. -/
theorem prepareBlock_ok {block' : RuntimeBlock}
    (h : prepareBlock block runtimeRegistered = .ok block') :
    block'.key = block.key ∧ 0 < block'.size.toNat := by
  simp only [prepareBlock] at h
  split at h
  · cases h
  · rename_i hcheck
    cases h
    exact ⟨rfl, checkBlock_size hcheck⟩

theorem rangesOverlap_self {start size size' : BitVec 32} (h : 0 < size.toNat)
    (h' : 0 < size'.toNat) : rangesOverlap start size start size' = true := by
  simp [rangesOverlap, h, h']

theorem key_between {variant : BlockVariantKey} {address : BitVec 32}
    (hlow : (⟨variant, 0⟩ : VariantAddressKey) ≤ key)
    (hhigh : key ≤ (⟨variant, address⟩ : VariantAddressKey)) : key.variant = variant := by
  have hlow' : variant ≤ key.variant := (Prod.Lex.monotone_fst _ _ hlow :)
  have hhigh' : key.variant ≤ variant := (Prod.Lex.monotone_fst _ _ hhigh :)
  exact le_antisymm hhigh' hlow'

/-- A registration without a collision finds its start free. -/
theorem Indexed.free_of_collision (ht : Indexed t)
    (hsize : 0 < block.size.toNat) {allowContextualOverlap : Bool} {ignoredId : Nat}
    (hignored : ∀ record, t.records ignoredId = some record → record.active = false)
    (h : t.collision block allowContextualOverlap ignoredId = none) :
    t.activeVirtualRanges.find block.key = none := by
  cases hfind : t.activeVirtualRanges.find block.key with
  | none => rfl
  | some id =>
    exfalso
    obtain ⟨record, hrecord, hactive, hkey⟩ := (ht.ranges _ _).mp hfind
    have hne : id ≠ ignoredId := by
      rintro rfl
      rw [hignored record hrecord] at hactive
      cases hactive
    have hstart : record.block.virtualStart = block.virtualStart :=
      congrArg VariantAddressKey.address hkey
    have hoverlap : t.overlapsActive block ignoredId (block.key, id) = true := by
      simp [overlapsActive, hne, hrecord, hstart,
        rangesOverlap_self hsize (ht.sized id record hrecord)]
    simp only [collision] at h
    split at h
    · simp only [overlappingActiveVirtual] at h
      split at h
      · rw [Option.map_eq_none_iff, List.find?_eq_none] at h
        refine h (block.key, id) ?_ hoverlap
        refine OrderedMap.mem_walk hfind ?_ fun x hlow hhigh => ?_
        · show toLex (block.variant, 0) ≤ toLex (block.variant, block.virtualStart.toNat)
          exact Prod.Lex.toLex_le_toLex.mpr (.inr ⟨rfl, Nat.zero_le _⟩)
        · exact decide_eq_true (key_between hlow hhigh)
      · have hnext : Option.filter (fun entry : VariantAddressKey × Nat =>
            decide (entry.1.variant = block.variant) && t.overlapsActive block ignoredId entry)
            (some (block.key, id)) = some (block.key, id) := by
          rw [Option.filter_eq_some_iff]
          have hvariant : block.key.variant = block.variant := rfl
          exact ⟨rfl, by simp [hoverlap, hvariant]⟩
        rw [OrderedMap.lowerBound_of_find hfind, hnext] at h
        cases h
    · simp [hfind, hne] at h

/-- What `insert` does to the table: it only forgets a rejection, it stores a new
record, or it makes a dynamic record active again. -/
inductive Inserted (t : RuntimeBlockTable) (key : VariantAddressKey) (runtimeRegistered : Bool) :
    RuntimeBlockTable → Prop
  | rejected (rejected : VariantAddressKey → Option Nat) :
      Inserted t key runtimeRegistered { t with rejectedGenerations := rejected }
  | stored (rejected : VariantAddressKey → Option Nat) (record : Record)
      (hfree : t.activeVirtualRanges.find record.block.key = none)
      (hsize : 0 < record.block.size.toNat) (hactive : record.active = true)
      (hstatic : record.staticBlock = !runtimeRegistered) (hkey : record.block.key = key) :
      Inserted t key runtimeRegistered ({ t with
        rejectedGenerations := rejected
        nextId := t.nextId + 1
        identities := Function.update t.identities record.identity (some t.nextId) }.activate
          t.nextId record)
  | again (rejected : VariantAddressKey → Option Nat) (id : Nat) (known record : Record)
      (hknown : t.records id = some known) (hinactive : known.active = false)
      (hdynamic : record.staticBlock = false)
      (hfree : t.activeVirtualRanges.find record.block.key = none)
      (hsize : 0 < record.block.size.toNat) (hactive : record.active = true)
      (hrecord : record = { known with block := record.block, active := true }) :
      Inserted t key runtimeRegistered
        ({ t with rejectedGenerations := rejected }.activate id record)

theorem Indexed.insert (ht : Indexed t) (block : RuntimeBlock)
    (runtimeRegistered allowContextualOverlap : Bool) : Inserted t block.key runtimeRegistered
      (t.insert block runtimeRegistered allowContextualOverlap).2 := by
  simp only [RuntimeBlockTable.insert]
  split
  · exact .rejected t.rejectedGenerations
  · rename_i stored hprepared
    obtain ⟨hkey, hsize⟩ := prepareBlock_ok hprepared
    have hindexed : Indexed { t with
        rejectedGenerations := Function.update t.rejectedGenerations stored.key none } :=
      ht.transfer rfl le_rfl rfl rfl rfl rfl rfl
    split
    · rename_i known hknown
      simp only [reactivate]
      split
      · exact .rejected _
      · rename_i record hrecord
        split
        · exact .rejected _
        · rename_i hinactive
          split
          · exact .rejected _
          · rename_i hdynamic
            split
            · exact .rejected _
            · rename_i hcollision
              simp only [Bool.or_eq_true, not_or, Bool.not_eq_true] at hdynamic
              have hinactive' : record.active = false := by simpa using hinactive
              refine .again _ known record _ hrecord hinactive' hdynamic.2 ?_ hsize rfl rfl
              refine hindexed.free_of_collision hsize ?_ hcollision
              intro record' hrecord'
              cases Option.some.inj (hrecord.symm.trans hrecord')
              exact hinactive'
    · simp only [insertNew]
      split
      · exact .rejected _
      · rename_i hcollision
        refine .stored _
          { block := stored, identity := stableRuntimeBlockIdentity stored,
            staticBlock := !runtimeRegistered } ?_ hsize rfl rfl hkey
        refine hindexed.free_of_collision hsize ?_ hcollision
        intro record hrecord
        exact absurd (hindexed.ids 0 record hrecord).1 (lt_irrefl 0)

theorem Inserted.changes (h : Inserted t key runtimeRegistered t')
    (hfresh : fresh → runtimeRegistered = false → StartFree t key) : Changes fresh t t' := by
  have hnoted : ∀ rejected, Change fresh t { t with rejectedGenerations := rejected } :=
    fun rejected => .bookkeeping t rejected t.contextualVirtualOverlaps t.lookupCounters
      t.lookupMode
  cases h with
  | rejected rejected => exact .single (hnoted rejected)
  | stored rejected record hfree hsize hactive hstatic hkey =>
    refine (Relation.ReflTransGen.single (hnoted rejected)).tail
      (.insertNew _ record hfree hsize hactive fun h hrecord => ?_)
    subst hkey
    exact hfresh h (by simpa [hstatic] using hrecord)
  | again rejected id known record hknown hinactive hdynamic hfree hsize hactive hrecord =>
    exact (Relation.ReflTransGen.single (hnoted rejected)).tail
      (.reactivate _ id known record hknown hinactive hdynamic hfree hsize hactive hrecord)

/-- An activation leaves no retired record in the index of static blocks. -/
theorem StartFree.activate (h : StartFree t key) (hactive : record.active = true) :
    StartFree (t.activate id record) key := by
  intro id' hfind
  have hold : t.staticVirtualIndex.find key = some id' ∨ id' = id := by
    cases hstatic : record.staticBlock with
    | false => exact .inl (by simpa [hstatic] using hfind)
    | true =>
      simp only [activate_staticVirtualIndex, hstatic, if_true, OrderedMap.find_emplace] at hfind
      split at hfind
      · rename_i hkey
        subst hkey
        cases hstale : t.staticVirtualIndex.find record.block.key with
        | none => exact .inr (by simpa [hstale, eq_comm] using hfind)
        | some stale => exact .inl (by simpa [hstale] using hfind)
      · exact .inl hfind
  by_cases hsame : id' = id
  · subst hsame
    exact ⟨record, by simp, hactive⟩
  · obtain ⟨old, hrecord, hact⟩ := h id' (hold.resolve_right hsame)
    exact ⟨old, by simpa [hsame] using hrecord, hact⟩

theorem StartFree.insert {key' : VariantAddressKey} (h : StartFree t key')
    (hinserted : Inserted t key runtimeRegistered t') : StartFree t' key' := by
  cases hinserted with
  | rejected => exact h
  | stored rejected record hfree hsize hactive =>
    refine StartFree.activate ?_ hactive
    exact h
  | again rejected id known record hknown hinactive hdynamic hfree hsize hactive =>
    refine StartFree.activate ?_ hactive
    exact h

theorem insert_changes {t : RuntimeBlockTable} (ht : Indexed t) (block : RuntimeBlock)
    (runtimeRegistered allowContextualOverlap : Bool)
    (hfresh : fresh → runtimeRegistered = false → StartFree t block.key) :
    Changes fresh t (t.insert block runtimeRegistered allowContextualOverlap).2 :=
  (ht.insert block runtimeRegistered allowContextualOverlap).changes hfresh

theorem deactivate_changes (t : RuntimeBlockTable) (id : Nat) :
    Changes fresh t (t.deactivate id) := by
  simp only [deactivate]
  split
  · exact .refl
  · rename_i record hrecord
    split
    · rename_i hactive
      exact .single (.retire t id record hrecord hactive)
    · exact .refl

theorem deactivateAll_changes (t : RuntimeBlockTable) (ids : List Nat) :
    Changes fresh t (t.deactivateAll ids) := by
  induction ids generalizing t with
  | nil => exact .refl
  | cons id rest ih => exact (deactivate_changes t id).trans (ih (t.deactivate id))

theorem sweepCandidate_changes (reached : RuntimeBlock → Bool) (s : BatchSweep) (id : Nat) :
    Changes fresh s.table (sweepCandidate reached s id).table := by
  simp only [sweepCandidate]
  split
  · exact .refl
  · split
    · exact .refl
    · split
      · exact deactivate_changes s.table id
      · exact .refl

theorem sweepPages_changes (reached : RuntimeBlock → Bool) (s : BatchSweep)
    (seen pages : List Nat) : Changes fresh s.table (sweepPages reached s seen pages).table := by
  have hpage : ∀ (ids : List Nat) (s : BatchSweep),
      Changes fresh s.table (ids.foldl (sweepCandidate reached) s).table := by
    intro ids
    induction ids with
    | nil => exact fun _ => .refl
    | cons id rest ih => exact fun s => (sweepCandidate_changes reached s id).trans (ih _)
  induction pages generalizing s seen with
  | nil => exact .refl
  | cons page rest ih =>
    simp only [sweepPages]
    split
    · exact ih _ _
    · exact (hpage _ s).trans (ih _ _)

theorem sealStatic_changes (t : RuntimeBlockTable) : Changes fresh t t.sealStatic := by
  cases hsealed : t.staticSealed with
  | true =>
    simp only [sealStatic, hsealed]
    exact .refl
  | false => exact .single (.sealIndex t hsealed)

theorem lookup_frame (t : RuntimeBlockTable) (trackers : Nat → ExecutableCodeTracker)
    (virtualAddress : BitVec 32) (variant : BlockVariantKey) :
    ∃ counters, (t.lookup trackers virtualAddress variant).2 =
      { t with lookupCounters := counters } := by
  simp only [lookup, lookupDirectIndex]
  split
  · split
    · rename_i h
      exact ⟨_, (Prod.mk.inj h).2.symm⟩
    · rename_i h
      obtain ⟨-, rfl⟩ := Prod.mk.inj h
      exact ⟨_, rfl⟩
  · split
    · exact ⟨_, rfl⟩
    · exact ⟨_, rfl⟩

theorem lookup_changes (t : RuntimeBlockTable) (trackers : Nat → ExecutableCodeTracker)
    (virtualAddress : BitVec 32) (variant : BlockVariantKey) :
    Changes fresh t (t.lookup trackers virtualAddress variant).2 := by
  obtain ⟨counters, h⟩ := lookup_frame t trackers virtualAddress variant
  rw [h]
  exact .single (.bookkeeping t t.rejectedGenerations t.contextualVirtualOverlaps counters
    t.lookupMode)

section
variable (ht : Indexed t)
include ht

theorem registerStaticVariant_changes
    (trackers : Nat → ExecutableCodeTracker) (virtualAddress physicalAddress : BitVec 32)
    (sourceVariant targetVariant : BlockVariantKey)
    (hfresh : fresh → StartFree t ⟨targetVariant, virtualAddress⟩) :
    Changes fresh t (t.registerStaticVariant trackers virtualAddress physicalAddress
      sourceVariant targetVariant).2 := by
  have hfirst : Changes fresh t _ := lookup_changes t trackers virtualAddress targetVariant
  obtain ⟨counters, hframe⟩ := lookup_frame t trackers virtualAddress targetVariant
  simp only [registerStaticVariant]
  split
  · rename_i found t' h
    rw [h] at hfirst
    exact hfirst
  · rename_i t' h
    rw [h] at hfirst hframe
    obtain ⟨counters', hframe'⟩ := lookup_frame t' trackers virtualAddress sourceVariant
    have hsecond : Changes fresh t' _ := lookup_changes t' trackers virtualAddress sourceVariant
    generalize hlookup : t'.lookup trackers virtualAddress sourceVariant = looked at *
    obtain ⟨found, t''⟩ := looked
    have hboth : Changes fresh t t'' := hfirst.trans hsecond
    simp only
    split
    · exact hboth
    · split
      · exact hboth
      · refine hboth.trans (insert_changes (ht.changes hboth) _ false false fun h _ => ?_)
        have hfree := hfresh h
        simp only at hframe hframe'
        subst hframe' hframe
        exact hfree

theorem insertAll_changes (allowContextualOverlap : Bool) (blocks : List RuntimeBlock)
    (hfresh : fresh → ∀ block ∈ blocks, StartFree t block.key) :
    Changes fresh t (insertAll allowContextualOverlap t blocks).2 := by
  induction blocks generalizing t with
  | nil => exact .refl
  | cons block rest ih =>
    have hinserted := ht.insert block false allowContextualOverlap
    have hchanges : Changes fresh t _ :=
      hinserted.changes fun h _ => hfresh h block List.mem_cons_self
    simp only [insertAll]
    split
    · rename_i message t' h
      rw [h] at hchanges
      exact hchanges
    · rename_i handle t' h
      rw [h] at hchanges hinserted
      refine hchanges.trans (ih (ht.changes hchanges) fun hf block' hmem => ?_)
      exact (hfresh hf block' (List.mem_cons_of_mem _ hmem)).insert hinserted

theorem insertSorted_changes (allowContextualOverlap : Bool) (blocks : List RuntimeBlock)
    (hfresh : fresh → ∀ block ∈ blocks, StartFree t block.key) :
    Changes fresh t (t.insertSorted allowContextualOverlap blocks).2 := by
  have hsorted : fresh → ∀ block ∈ sortBlocks blocks, StartFree t block.key :=
    fun h block hmem => hfresh h block ((List.mem_insertionSort _).mp hmem)
  have hchanges := insertAll_changes ht allowContextualOverlap (sortBlocks blocks) hsorted
  simp only [insertSorted]
  split
  · rename_i message t' h
    rw [h] at hchanges
    exact hchanges
  · rename_i handles t' h
    rw [h] at hchanges
    exact hchanges.trans (sealStatic_changes t')

theorem registerStaticContextualBulk_changes
    (blocks : List RuntimeBlock) (hfresh : fresh → ∀ block ∈ blocks, StartFree t block.key) :
    Changes fresh t (t.registerStaticContextualBulk blocks).2 := by
  simp only [registerStaticContextualBulk]
  split
  · exact .refl
  · split
    · exact .refl
    · split
      · exact .refl
      · rename_i overlap _
        have hnoted : Change fresh t _ := .bookkeeping t t.rejectedGenerations overlap
          t.lookupCounters t.lookupMode
        exact (Relation.ReflTransGen.single hnoted).trans
          (insertSorted_changes (ht.change hnoted) true blocks hfresh)

theorem registerRuntime_changes (block : RuntimeBlock) :
    Changes fresh t (t.registerRuntime block).2 := by
  simp only [registerRuntime]
  split
  · exact .refl
  · rename_i overlap _
    have hnoted : Change fresh t _ := .bookkeeping t t.rejectedGenerations
      (t.contextualVirtualOverlaps || overlap) t.lookupCounters t.lookupMode
    refine (Relation.ReflTransGen.single hnoted).trans ?_
    have hchanges := insert_changes (ht.change hnoted) block true block.aotTemplate.isSome
      fun (_ : fresh) h => by cases h
    simp only [insertRuntime]
    split
    · rename_i message t' h
      rw [h] at hchanges
      exact hchanges
    · rename_i handle t' h
      rw [h] at hchanges
      refine hchanges.trans ?_
      split
      · exact sealStatic_changes t'
      · exact .refl

theorem registerStatic_changes
    (hfresh : fresh → StartFree t block.key) : Changes fresh t (t.registerStatic block).2 := by
  simp only [registerStatic]
  split
  · exact .refl
  · exact insert_changes ht block false false fun h _ => hfresh h

theorem registerBootstrapStatic_changes (hfresh : fresh → StartFree t block.key) :
    Changes fresh t (t.registerBootstrapStatic block).2 := by
  simp only [registerBootstrapStatic]
  split
  · exact .refl
  · exact insert_changes ht block false false fun h _ => hfresh h

theorem registerStaticBulk_changes
    {blocks : List RuntimeBlock} (hfresh : fresh → ∀ block ∈ blocks, StartFree t block.key) :
    Changes fresh t (t.registerStaticBulk blocks).2 := by
  simp only [registerStaticBulk]
  split
  · exact .refl
  · exact insertSorted_changes ht false blocks hfresh

end

theorem eraseIdentity_changes (t : RuntimeBlockTable) (identity : String) :
    Changes fresh t (t.eraseIdentity identity).2 := by
  simp only [eraseIdentity]
  split
  · exact .refl
  · split
    · exact deactivate_changes t _
    · exact .refl

theorem eraseOverlappingPhysical_changes (t : RuntimeBlockTable) (physicalAddress : BitVec 32)
    (size : Nat) : Changes fresh t (t.eraseOverlappingPhysical physicalAddress size).2 := by
  simp only [eraseOverlappingPhysical]
  split
  · exact .refl
  · exact deactivateAll_changes t _

theorem eraseOverlappingPhysicalBatch_changes {events : List ExecutableCodeTracker.GuestWriteEvent}
    (h : t.eraseOverlappingPhysicalBatch events = some t') : Changes fresh t t' := by
  simp only [eraseOverlappingPhysicalBatch] at h
  split at h
  · cases h
  · obtain ⟨ranges, -, rfl⟩ := Option.map_eq_some_iff.mp h
    exact sweepPages_changes _ { table := t } _ _

end KatanaRecomp.Runtime.RuntimeBlockTable
