import KatanaRecomp.Runtime.BlockTableInvariant

/-! # Dispatch over runs

A block table and the code trackers of the program, with everything their owners
may do with them, in any order. `lookup` finds an active block whenever there is
one, except behind a static record that was retired: its entry stays in the index
of static blocks and hides a static record that takes its start later. The two
lookup modes answer alike throughout. -/
namespace KatanaRecomp.Runtime
open Lib

structure BlockDispatch where
  table : RuntimeBlockTable
  trackers : Nat → ExecutableCodeTracker
  nextBlockTableLifetime : Nat

namespace BlockDispatch
open RuntimeBlockTable

/-- A new table among trackers that are there. -/
def start (trackers : Nat → ExecutableCodeTracker) (lifetime : Nat)
    (mode : RuntimeBlockLookupMode) : BlockDispatch where
  table := { dispatchLifetime := lifetime, lookupMode := mode }
  trackers := trackers
  nextBlockTableLifetime := lifetime + 1

inductive Operation
  | registerStatic (block : RuntimeBlock)
  | registerStaticVariant (virtualAddress physicalAddress : BitVec 32)
      (sourceVariant targetVariant : BlockVariantKey)
  | registerStaticBulk (blocks : List RuntimeBlock)
  | registerStaticContextualBulk (blocks : List RuntimeBlock)
  | sealStatic
  | registerBootstrapStatic (block : RuntimeBlock)
  | registerRuntime (block : RuntimeBlock)
  | lookup (virtualAddress : BitVec 32) (variant : BlockVariantKey)
  | markRejected (virtualAddress : BitVec 32) (variant : BlockVariantKey)
  | setLookupMode (mode : RuntimeBlockLookupMode)
  | resetLookupCounters
  | eraseIdentity (identity : String)
  | eraseOverlappingPhysical (physicalAddress : BitVec 32) (size : Nat)
  | eraseOverlappingPhysicalBatch (events : List ExecutableCodeTracker.GuestWriteEvent)
  | commitDiscLoadInvalidation (plan : PreparedDiscLoadInvalidation)
  | bindCodeTracker (tracker : Option Nat) (staticAotInvalidation : StaticAotInvalidationContract)
  | clear
  /-- An operation of one of the trackers. -/
  | tracker (index : Nat) (operation : ExecutableCodeTracker.Operation)
  /-- Another table of the program takes a lifetime. -/
  | allocateLifetime

variable (s : BlockDispatch)

def withTable (table : RuntimeBlockTable) : BlockDispatch := { s with table := table }

/-- A call that terminates has no successor. -/
def apply : Operation → Option BlockDispatch
  | .registerStatic block => some (s.withTable (s.table.registerStatic block).2)
  | .registerStaticVariant virtualAddress physicalAddress sourceVariant targetVariant =>
    some (s.withTable (s.table.registerStaticVariant s.trackers virtualAddress physicalAddress
      sourceVariant targetVariant).2)
  | .registerStaticBulk blocks => some (s.withTable (s.table.registerStaticBulk blocks).2)
  | .registerStaticContextualBulk blocks =>
    some (s.withTable (s.table.registerStaticContextualBulk blocks).2)
  | .sealStatic => some (s.withTable s.table.sealStatic)
  | .registerBootstrapStatic block =>
    some (s.withTable (s.table.registerBootstrapStatic block).2)
  | .registerRuntime block => some (s.withTable (s.table.registerRuntime block).2)
  | .lookup virtualAddress variant =>
    some (s.withTable (s.table.lookup s.trackers virtualAddress variant).2)
  | .markRejected virtualAddress variant =>
    some (s.withTable (s.table.markRejected virtualAddress variant))
  | .setLookupMode mode => some (s.withTable { s.table with lookupMode := mode })
  | .resetLookupCounters => some (s.withTable { s.table with lookupCounters := {} })
  | .eraseIdentity identity => some (s.withTable (s.table.eraseIdentity identity).2)
  | .eraseOverlappingPhysical physicalAddress size =>
    some (s.withTable (s.table.eraseOverlappingPhysical physicalAddress size).2)
  | .eraseOverlappingPhysicalBatch events =>
    (s.table.eraseOverlappingPhysicalBatch events).map s.withTable
  | .commitDiscLoadInvalidation plan =>
    some (s.withTable (s.table.commitDiscLoadInvalidation plan))
  | .bindCodeTracker tracker staticAotInvalidation =>
    some (s.withTable (s.table.bindCodeTracker tracker staticAotInvalidation))
  | .clear =>
    some { s with
      table := s.table.clear s.nextBlockTableLifetime
      nextBlockTableLifetime := s.nextBlockTableLifetime + 1 }
  | .tracker index operation =>
    ((s.trackers index).apply operation).map fun tracker =>
      { s with trackers := Function.update s.trackers index tracker }
  | .allocateLifetime => some { s with nextBlockTableLifetime := s.nextBlockTableLifetime + 1 }

def run (operations : List Operation) : Option BlockDispatch := operations.foldlM apply s

def lookup (virtualAddress : BitVec 32) (variant : BlockVariantKey) : Option RuntimeBlockHandle :=
  (s.table.lookup s.trackers virtualAddress variant).1

/-- The operation puts no static block at a start that a retired static record
has in the index of static blocks. -/
def StartsFresh : Operation → Prop
  | .registerStatic block | .registerBootstrapStatic block => StartFree s.table block.key
  | .registerStaticBulk blocks | .registerStaticContextualBulk blocks =>
    ∀ block ∈ blocks, StartFree s.table block.key
  | .registerStaticVariant virtualAddress _ _ targetVariant =>
    StartFree s.table ⟨targetVariant, virtualAddress⟩
  | _ => True

/-- Every operation of the run, in the state it meets. -/
def RunsFresh (s : BlockDispatch) : List Operation → Prop
  | [] => True
  | operation :: rest =>
    s.StartsFresh operation ∧ ∀ s', s.apply operation = some s' → RunsFresh s' rest

/-! ## Steps and runs -/

structure Ready (s : BlockDispatch) : Prop where
  indexed : Indexed s.table
  lifetime : s.table.dispatchLifetime < s.nextBlockTableLifetime

variable {fresh : Prop}

/-- What a step does: it changes the table, or clears it, or moves one tracker,
or only takes a lifetime. -/
inductive Step (fresh : Prop) (s : BlockDispatch) : Operation → BlockDispatch → Prop
  | table {operation : Operation} (table : RuntimeBlockTable)
      (hchanges : Changes fresh s.table table) : Step fresh s operation (s.withTable table)
  | clear : Step fresh s .clear
      { s with
        table := s.table.clear s.nextBlockTableLifetime
        nextBlockTableLifetime := s.nextBlockTableLifetime + 1 }
  | tracker (index : Nat) (operation : ExecutableCodeTracker.Operation)
      (tracker : ExecutableCodeTracker)
      (happly : (s.trackers index).apply operation = some tracker) :
      Step fresh s (.tracker index operation)
        { s with trackers := Function.update s.trackers index tracker }
  | allocate : Step fresh s .allocateLifetime
      { s with nextBlockTableLifetime := s.nextBlockTableLifetime + 1 }

theorem apply_step {s s' : BlockDispatch} (hs : Ready s) {operation : Operation}
    (hfresh : fresh → s.StartsFresh operation) (h : s.apply operation = some s') :
    Step fresh s operation s' := by
  cases operation with
  | registerStatic block =>
    cases h
    exact .table _ (registerStatic_changes hs.indexed hfresh)
  | registerStaticVariant virtualAddress physicalAddress sourceVariant targetVariant =>
    cases h
    exact .table _ (registerStaticVariant_changes hs.indexed s.trackers virtualAddress
      physicalAddress sourceVariant targetVariant hfresh)
  | registerStaticBulk blocks =>
    cases h
    exact .table _ (registerStaticBulk_changes hs.indexed hfresh)
  | registerStaticContextualBulk blocks =>
    cases h
    exact .table _ (registerStaticContextualBulk_changes hs.indexed blocks hfresh)
  | sealStatic =>
    cases h
    exact .table _ (sealStatic_changes s.table)
  | registerBootstrapStatic block =>
    cases h
    exact .table _ (registerBootstrapStatic_changes hs.indexed hfresh)
  | registerRuntime block =>
    cases h
    exact .table _ (registerRuntime_changes hs.indexed block)
  | lookup virtualAddress variant =>
    cases h
    exact .table _ (lookup_changes s.table s.trackers virtualAddress variant)
  | markRejected virtualAddress variant =>
    cases h
    exact .table _ (.single (.bookkeeping s.table _ s.table.contextualVirtualOverlaps
      s.table.lookupCounters s.table.lookupMode))
  | setLookupMode mode =>
    cases h
    exact .table _ (.single (.bookkeeping s.table s.table.rejectedGenerations
      s.table.contextualVirtualOverlaps s.table.lookupCounters mode))
  | resetLookupCounters =>
    cases h
    exact .table _ (.single (.bookkeeping s.table s.table.rejectedGenerations
      s.table.contextualVirtualOverlaps {} s.table.lookupMode))
  | eraseIdentity identity =>
    cases h
    exact .table _ (eraseIdentity_changes s.table identity)
  | eraseOverlappingPhysical physicalAddress size =>
    cases h
    exact .table _ (eraseOverlappingPhysical_changes s.table physicalAddress size)
  | eraseOverlappingPhysicalBatch events =>
    obtain ⟨table, htable, rfl⟩ := Option.map_eq_some_iff.mp h
    exact .table _ (eraseOverlappingPhysicalBatch_changes htable)
  | commitDiscLoadInvalidation plan =>
    cases h
    exact .table _ (deactivateAll_changes s.table plan.ids)
  | bindCodeTracker tracker staticAotInvalidation =>
    cases h
    exact .table _ (.single (.bind s.table tracker staticAotInvalidation))
  | clear =>
    cases h
    exact .clear
  | tracker index operation =>
    obtain ⟨tracker, htracker, rfl⟩ := Option.map_eq_some_iff.mp h
    exact .tracker index operation tracker htracker
  | allocateLifetime =>
    cases h
    exact .allocate

theorem Ready.step {s s' : BlockDispatch} (hs : Ready s) {operation : Operation}
    (h : Step fresh s operation s') : Ready s' := by
  cases h with
  | table table hchanges =>
    exact ⟨hs.indexed.changes hchanges, hchanges.lifetime ▸ hs.lifetime⟩
  | clear => exact ⟨hs.indexed.clear _, Nat.lt_succ_self _⟩
  | tracker => exact ⟨hs.indexed, hs.lifetime⟩
  | allocate => exact ⟨hs.indexed, hs.lifetime.trans (Nat.lt_succ_self _)⟩

theorem ready_start (trackers : Nat → ExecutableCodeTracker) (lifetime : Nat)
    (mode : RuntimeBlockLookupMode) : Ready (start trackers lifetime mode) :=
  ⟨indexed_start lifetime mode, Nat.lt_succ_self _⟩

/-- The induction over a run: what holds at its start and is kept by every step
holds at its end. -/
theorem run_induction {motive : BlockDispatch → Prop} {s s' : BlockDispatch} (hs : Ready s)
    {operations : List Operation} (hfresh : fresh → s.RunsFresh operations)
    (hrun : s.run operations = some s') (hstart : motive s)
    (hstep : ∀ {s s' operation}, Ready s → Step fresh s operation s' → motive s → motive s') :
    Ready s' ∧ motive s' := by
  induction operations generalizing s with
  | nil =>
    cases hrun
    exact ⟨hs, hstart⟩
  | cons operation rest ih =>
    obtain ⟨next, hnext, hrest⟩ := Option.bind_eq_some_iff.mp hrun
    have hhere := apply_step hs (fun h => (hfresh h).1) hnext
    exact ih (hs.step hhere) (fun h => (hfresh h).2 next hnext) hrest (hstep hs hhere hstart)

/-! ## Lookups -/

variable {t : RuntimeBlockTable}

/-- In both modes the dynamic block comes before the static one. -/
theorem lookup_eq (ht : Indexed t)
    (trackers : Nat → ExecutableCodeTracker) (virtualAddress : BitVec 32)
    (variant : BlockVariantKey) : (t.lookup trackers virtualAddress variant).1 =
      ((t.dynamicVirtualIndex.find ⟨variant, virtualAddress⟩).bind (t.handleOf trackers)).or
        ((t.staticVirtualIndex.find ⟨variant, virtualAddress⟩).bind (t.handleOf trackers)) := by
  simp only [RuntimeBlockTable.lookup, lookupDirectIndex, lookupIndex, ht.dynamicDirect]
  split
  · split
    · rename_i h
      rw [(Prod.mk.inj h).1]
      rfl
    · rename_i h
      obtain ⟨hnone, rfl⟩ := Prod.mk.inj h
      rw [hnone, Option.none_or, ← ht.staticDirect]
      rfl
  · split
    · rename_i h
      have h' : (t.dynamicVirtualIndex.find ⟨variant, virtualAddress⟩).bind
          (t.handleOf trackers) = some _ := h
      rw [h']
      rfl
    · rename_i h
      have h' : (t.dynamicVirtualIndex.find ⟨variant, virtualAddress⟩).bind
          (t.handleOf trackers) = none := h
      rw [h', Option.none_or]
      rfl

variable {trackers : Nat → ExecutableCodeTracker} {handle : RuntimeBlockHandle} {id : Nat}

theorem handleOf_eq_some
    : t.handleOf trackers id = some handle ↔
      ∃ record, t.records id = some record ∧ t.dispatchable trackers record = true ∧
        handle = ⟨id, record.generation⟩ := by
  simp only [handleOf]
  cases hrecord : t.records id with
  | none => simp
  | some record =>
    by_cases hdispatchable : t.dispatchable trackers record = true
    · simp only [hdispatchable, if_true, Option.some.injEq, exists_eq_left', true_and]
      exact eq_comm
    · simp [hdispatchable]

variable {record : Record}

theorem active_of_dispatchable (h : t.dispatchable trackers record = true) : record.active = true :=
  (Bool.and_eq_true_iff.mp h).1

/-- A record that `lookup` may deliver for the key. -/
def Deliverable (s : BlockDispatch) (key : VariantAddressKey) (id : Nat) (record : Record) : Prop :=
  ActiveAt s.table key id record ∧ s.table.dispatchable s.trackers record = true

/-- What `lookup` returns is such a record. -/
theorem lookup_sound {s : BlockDispatch} (hs : Indexed s.table) {virtualAddress : BitVec 32}
    {variant : BlockVariantKey}
    (h : s.lookup virtualAddress variant = some handle) :
    ∃ record, Deliverable s ⟨variant, virtualAddress⟩ handle.id record ∧
      handle.generation = record.generation := by
  rw [lookup, lookup_eq hs, Option.or_eq_some_iff] at h
  rcases h with h | ⟨-, h⟩
  · obtain ⟨id, hfind, hhandle⟩ := Option.bind_eq_some_iff.mp h
    obtain ⟨record, hrecord, hdispatchable, rfl⟩ := handleOf_eq_some.mp hhandle
    obtain ⟨record', hactive, -⟩ := (hs.dynamicIndex _ _).mp hfind
    cases Option.some.inj (hrecord.symm.trans hactive.1)
    exact ⟨record, ⟨hactive, hdispatchable⟩, rfl⟩
  · obtain ⟨id, hfind, hhandle⟩ := Option.bind_eq_some_iff.mp h
    obtain ⟨record, hrecord, hdispatchable, rfl⟩ := handleOf_eq_some.mp hhandle
    obtain ⟨record', hrecord', -, hkey⟩ := hs.staticIndex _ _ hfind
    cases Option.some.inj (hrecord.symm.trans hrecord')
    exact ⟨record, ⟨⟨hrecord, active_of_dispatchable hdispatchable, hkey⟩, hdispatchable⟩, rfl⟩

/-- Every active static record is the one the index of static blocks names. -/
def Complete (t : RuntimeBlockTable) : Prop :=
  ∀ id record, t.records id = some record → record.active = true → record.staticBlock = true →
    t.staticVirtualIndex.find record.block.key = some id

theorem lookup_complete {s : BlockDispatch} (hs : Indexed s.table) (hcomplete : Complete s.table)
    {key : VariantAddressKey} (h : Deliverable s key id record) :
    (s.lookup key.address key.variant).isSome = true := by
  obtain ⟨⟨hrecord, hactive, hkey⟩, hdispatchable⟩ := h
  have hhandle : s.table.handleOf s.trackers id = some ⟨id, record.generation⟩ :=
    handleOf_eq_some.mpr ⟨record, hrecord, hdispatchable, rfl⟩
  rw [lookup, lookup_eq hs, Option.isSome_or]
  cases hstatic : record.staticBlock with
  | false =>
    have hfind := (hs.dynamicIndex key id).mpr ⟨record, ⟨hrecord, hactive, hkey⟩, hstatic⟩
    simp [hfind, hhandle]
  | true =>
    have hfind := hcomplete id record hrecord hactive hstatic
    rw [hkey] at hfind
    simp [hfind, hhandle]

theorem Complete.activate (hcomplete : Complete t) (ht : Indexed t)
    (hfree : t.activeVirtualRanges.find record.block.key = none)
    (hnew : record.staticBlock = true → StartFree t record.block.key) :
    Complete (t.activate id record) := by
  intro id' record' hrecord' hactive' hstatic'
  have hindex : record.staticBlock = true → t.staticVirtualIndex.find record.block.key = none := by
    intro hstatic
    cases hfind : t.staticVirtualIndex.find record.block.key with
    | none => rfl
    | some stale =>
      obtain ⟨old, hold, hactive⟩ := hnew hstatic stale hfind
      obtain ⟨old', hold', -, hkey⟩ := ht.staticIndex _ _ hfind
      cases Option.some.inj (hold.symm.trans hold')
      exact absurd ⟨hold, hactive, hkey⟩ (ht.free hfree)
  rw [activate_records] at hrecord'
  by_cases hsame : id' = id
  · subst hsame
    cases (by simpa using hrecord' : record = record')
    simp [hstatic', hindex hstatic']
  · have hold : t.records id' = some record' := by simpa [hsame] using hrecord'
    have hfind := hcomplete id' record' hold hactive' hstatic'
    have hne : record'.block.key ≠ record.block.key :=
      fun hkey => ht.free hfree ⟨hold, hactive', hkey⟩
    cases hstatic : record.staticBlock with
    | false => simpa [hstatic] using hfind
    | true => simpa [hstatic, hne] using hfind

theorem Complete.change {t' : RuntimeBlockTable} (hcomplete : Complete t) (ht : Indexed t)
    (h : Change True t t') : Complete t' := by
  cases h with
  | bookkeeping => exact hcomplete
  | insertNew record hfree hsize hactive hfresh =>
    refine Complete.activate ?_ ?_ hfree (hfresh trivial)
    · exact hcomplete
    · exact ht.transfer rfl (Nat.le_succ _) rfl rfl rfl rfl rfl
  | reactivate id known record hknown hinactive hdynamic hfree =>
    refine hcomplete.activate ht hfree fun hstatic => ?_
    rw [hdynamic] at hstatic
    cases hstatic
  | retire id record hrecord hactive =>
    intro id' record' hrecord' hactive' hstatic'
    rw [retire_records] at hrecord'
    by_cases hsame : id' = id
    · subst hsame
      rw [Function.update_self] at hrecord'
      cases hrecord'
      cases hactive'
    · rw [retire_staticVirtualIndex]
      exact hcomplete id' record' (by simpa [hsame] using hrecord') hactive' hstatic'
  | sealIndex hopen =>
    simp only [RuntimeBlockTable.sealStatic, hopen]
    exact hcomplete
  | bind tracker contract =>
    simp only [RuntimeBlockTable.bindCodeTracker]
    split
    · exact hcomplete
    · exact hcomplete

theorem Complete.step {s s' : BlockDispatch} (hs : Ready s) {operation : Operation}
    (h : Step True s operation s') (hcomplete : Complete s.table) : Complete s'.table := by
  cases h with
  | table table hchanges =>
    have hboth : Indexed table ∧ Complete table := by
      induction hchanges with
      | refl => exact ⟨hs.indexed, hcomplete⟩
      | tail _ hstep ih => exact ⟨ih.1.change hstep, ih.2.change ih.1 hstep⟩
    exact hboth.2
  | clear =>
    intro id record hrecord
    cases hrecord
  | tracker => exact hcomplete
  | allocate => exact hcomplete

/-- In every state of a run whose static registrations meet no retired static
record, `lookup` returns a block exactly when an active record with the start and
the variant is dispatchable, and returns such a record. -/
theorem lookup_delivers {trackers : Nat → ExecutableCodeTracker} {lifetime : Nat}
    {mode : RuntimeBlockLookupMode} {operations : List Operation} {s : BlockDispatch}
    (hrun : (start trackers lifetime mode).run operations = some s)
    (hfresh : (start trackers lifetime mode).RunsFresh operations)
    (virtualAddress : BitVec 32) (variant : BlockVariantKey) :
    ((s.lookup virtualAddress variant).isSome = true ↔
        ∃ id record, Deliverable s ⟨variant, virtualAddress⟩ id record) ∧
      ∀ handle, s.lookup virtualAddress variant = some handle →
        ∃ record, Deliverable s ⟨variant, virtualAddress⟩ handle.id record ∧
          handle.generation = record.generation := by
  obtain ⟨hready, hcomplete⟩ := run_induction (motive := fun s => Complete s.table)
    (ready_start trackers lifetime mode) (fun _ : True => hfresh) hrun
    (fun id record hrecord => by cases hrecord)
    fun hs hstep hcomplete => hcomplete.step hs hstep
  refine ⟨⟨fun h => ?_, ?_⟩, fun handle => lookup_sound hready.indexed⟩
  · obtain ⟨handle, hhandle⟩ := Option.isSome_iff_exists.mp h
    obtain ⟨record, hrecord, -⟩ := lookup_sound hready.indexed hhandle
    exact ⟨handle.id, record, hrecord⟩
  · rintro ⟨id, record, hrecord⟩
    exact lookup_complete hready.indexed hcomplete hrecord

/-- Another provenance is another identity. -/
theorem stableRuntimeBlockIdentity_ne (block : RuntimeBlock) {provenance : String}
    (h : provenance ≠ block.provenance) :
    stableRuntimeBlockIdentity { block with provenance := provenance } ≠
      stableRuntimeBlockIdentity block := by
  have hhead : stableLocation { block with provenance := provenance } = stableLocation block := rfl
  rw [stableRuntimeBlockIdentity, stableRuntimeBlockIdentity, hhead]
  intro heq
  rw [String.append_left_inj, String.append_right_inj] at heq
  exact h heq

/-- A block of four bytes in main memory. -/
def loadedBlock : RuntimeBlock :=
  { virtualStart := 0x8C010000, physicalOrigin := 0x0C010000, size := 4, function := some 1
    provenance := "loaded" }

def reloadedBlock : RuntimeBlock := { loadedBlock with provenance := "reloaded" }

def emptyTrackers : Nat → ExecutableCodeTracker :=
  fun _ => { provenanceCapacity := 1, eventCapacity := 1 }

/-- The block is loaded, and a write reaches its bytes. -/
def unloadedTable : RuntimeBlockTable :=
  ((({ dispatchLifetime := 1 } : RuntimeBlockTable).registerStatic
    loadedBlock).2.eraseOverlappingPhysical 0x0C010000 4).2

/-- Another static block takes the start. -/
def reloadedTable : RuntimeBlockTable :=
  let noted := { unloadedTable with
    rejectedGenerations := Function.update unloadedTable.rejectedGenerations reloadedBlock.key none }
  (noted.insertNew reloadedBlock (stableRuntimeBlockIdentity reloadedBlock) false false).2

theorem registerStatic_reloaded :
    (unloadedTable.registerStatic reloadedBlock).2 = reloadedTable := by
  have hprepared : prepareBlock reloadedBlock false = .ok reloadedBlock := rfl
  have hidentities : unloadedTable.identities =
      Function.update (fun _ => none) (stableRuntimeBlockIdentity loadedBlock) (some 1) := rfl
  have hnew : unloadedTable.identities (stableRuntimeBlockIdentity reloadedBlock) = none := by
    rw [hidentities, Function.update_of_ne]
    exact stableRuntimeBlockIdentity_ne loadedBlock (by decide)
  have hopen : unloadedTable.staticSealed = false := rfl
  simp only [registerStatic, hopen, RuntimeBlockTable.insert, hprepared, hnew]
  rfl

def reloading : List Operation :=
  [.registerStatic loadedBlock, .eraseOverlappingPhysical 0x0C010000 4,
    .registerStatic reloadedBlock]

/-- The entry of the retired block hides the one that took its start. -/
theorem lookup_misses_reloaded : ∃ s, (start emptyTrackers 1 .direct).run reloading = some s ∧
      s.lookup 0x8C010000 {} = none ∧ ∃ id record, Deliverable s ⟨{}, 0x8C010000⟩ id record := by
  refine ⟨(start emptyTrackers 1 .direct).withTable reloadedTable, ?_, rfl, 2,
    { block := reloadedBlock, identity := stableRuntimeBlockIdentity reloadedBlock,
      staticBlock := true }, ⟨rfl, rfl, rfl⟩, rfl⟩
  rw [← registerStatic_reloaded]
  rfl

theorem lookup_delivers_loaded :
    ∃ s, (start emptyTrackers 1 .direct).run [.registerStatic loadedBlock] = some s ∧
      (start emptyTrackers 1 .direct).RunsFresh [.registerStatic loadedBlock] ∧
      ∃ handle, s.lookup 0x8C010000 {} = some handle ∧
        ∃ record, Deliverable s ⟨{}, 0x8C010000⟩ handle.id record := by
  have hrun : (start emptyTrackers 1 .direct).run [.registerStatic loadedBlock] =
      some ((start emptyTrackers 1 .direct).withTable
        (({ dispatchLifetime := 1 } : RuntimeBlockTable).registerStatic loadedBlock).2) := rfl
  have hfresh : (start emptyTrackers 1 .direct).RunsFresh [.registerStatic loadedBlock] := by
    refine ⟨fun id hfind => ?_, fun _ _ => trivial⟩
    cases hfind
  have hhandle : ((start emptyTrackers 1 .direct).withTable
        (({ dispatchLifetime := 1 } : RuntimeBlockTable).registerStatic loadedBlock).2).lookup
          0x8C010000 {} = some ⟨1, 1⟩ := rfl
  obtain ⟨record, hrecord, -⟩ := (lookup_delivers hrun hfresh _ _).2 _ hhandle
  exact ⟨_, hrun, hfresh, ⟨1, 1⟩, hhandle, record, hrecord⟩

/-! ## Lookup modes -/

section
variable {mode : RuntimeBlockLookupMode} {counters : RuntimeBlockLookupCounters}

def inMode (t : RuntimeBlockTable) (mode : RuntimeBlockLookupMode)
    (counters : RuntimeBlockLookupCounters) : RuntimeBlockTable :=
  { t with lookupMode := mode, lookupCounters := counters }

section
variable (t : RuntimeBlockTable)

theorem moveShadow_inMode (block : RuntimeBlock)
    (change : List Nat → List Nat) : (inMode t mode counters).moveShadow block change =
      inMode (t.moveShadow block change) mode counters := by
  by_cases hodd : block.physicalOrigin &&& 1 ≠ 0
  · simp only [moveShadow, if_pos hodd]
  · simp only [moveShadow, if_neg hodd, inMode]
    cases t.staticAotPages.bind (· (pageIndex block.physicalOrigin)) with
    | none => rfl
    | some page => rfl

theorem dropStaticEntry_inMode (id : Nat) (block : RuntimeBlock) :
    (inMode t mode counters).dropStaticEntry id block =
      inMode (t.dropStaticEntry id block) mode counters := by
  have hpages : (inMode t mode counters).staticAotPages = t.staticAotPages := rfl
  have hentries : (inMode t mode counters).staticAotEntries = t.staticAotEntries := rfl
  simp only [dropStaticEntry, hpages, hentries]
  cases t.staticAotPages.bind (· (pageIndex block.physicalOrigin)) with
  | none => rfl
  | some page =>
    dsimp only
    split_ifs
    · rfl
    · rfl

theorem placeActive_inMode (id : Nat) (record : Record) :
    (inMode t mode counters).placeActive id record =
      inMode (t.placeActive id record) mode counters := by
  cases hstatic : record.staticBlock <;> simp only [placeActive, listActive, hstatic] <;> rfl

theorem activate_inMode (id : Nat) (record : Record) :
    (inMode t mode counters).activate id record = inMode (t.activate id record) mode counters := by
  have hstored : { inMode t mode counters with
        records := Function.update (inMode t mode counters).records id (some record) } =
      inMode { t with records := Function.update t.records id (some record) } mode counters := rfl
  cases hstatic : record.staticBlock with
  | true =>
    simp only [activate, indexActive, hstored, placeActive_inMode, hstatic]
    rfl
  | false =>
    simp only [activate, indexActive, hstored, placeActive_inMode, moveShadow_inMode, hstatic]
    rfl

theorem retire_inMode (id : Nat) (record : Record) :
    (inMode t mode counters).retire id record = inMode (t.retire id record) mode counters := by
  have hunlisted : (inMode t mode counters).unlistActive id record =
      inMode (t.unlistActive id record) mode counters := by
    cases hstatic : record.staticBlock <;> simp only [unlistActive, hstatic] <;> rfl
  cases hstatic : record.staticBlock with
  | true =>
    simp only [retire, hstatic, hunlisted, dropStaticEntry_inMode]
    rfl
  | false =>
    simp only [retire, hstatic, hunlisted, moveShadow_inMode]
    rfl

theorem deactivate_inMode (id : Nat) :
    (inMode t mode counters).deactivate id = inMode (t.deactivate id) mode counters := by
  have hrecords : (inMode t mode counters).records = t.records := rfl
  simp only [deactivate, retire_inMode, hrecords]
  cases t.records id with
  | none => rfl
  | some record =>
    dsimp only
    split_ifs
    · rfl
    · rfl

theorem deactivateAll_inMode (ids : List Nat) :
    (inMode t mode counters).deactivateAll ids = inMode (t.deactivateAll ids) mode counters := by
  induction ids generalizing t with
  | nil => rfl
  | cons id rest ih =>
    show ((inMode t mode counters).deactivate id).deactivateAll rest = _
    rw [deactivate_inMode, ih]
    rfl

theorem reactivate_inMode (block : RuntimeBlock) (identity : String)
    (known : Nat) (runtimeRegistered allowContextualOverlap : Bool) :
    (inMode t mode counters).reactivate block identity known runtimeRegistered
        allowContextualOverlap =
      ((t.reactivate block identity known runtimeRegistered allowContextualOverlap).1,
        inMode (t.reactivate block identity known runtimeRegistered
          allowContextualOverlap).2 mode counters) := by
  have hrecords : (inMode t mode counters).records = t.records := rfl
  have hcollision : (inMode t mode counters).collision block allowContextualOverlap known =
      t.collision block allowContextualOverlap known := rfl
  simp only [reactivate, hrecords, hcollision, activate_inMode]
  cases t.records known with
  | none => rfl
  | some record =>
    dsimp only
    split
    · rfl
    · split
      · rfl
      · cases t.collision block allowContextualOverlap known <;> rfl

theorem insertNew_inMode (block : RuntimeBlock) (identity : String)
    (runtimeRegistered allowContextualOverlap : Bool) :
    (inMode t mode counters).insertNew block identity runtimeRegistered allowContextualOverlap =
      ((t.insertNew block identity runtimeRegistered allowContextualOverlap).1,
        inMode (t.insertNew block identity runtimeRegistered allowContextualOverlap).2 mode
          counters) := by
  have hcollision : (inMode t mode counters).collision block allowContextualOverlap 0 =
      t.collision block allowContextualOverlap 0 := rfl
  simp only [insertNew, hcollision]
  cases t.collision block allowContextualOverlap 0 with
  | some overlap => rfl
  | none =>
    let grown := { t with
      nextId := t.nextId + 1
      identities := Function.update t.identities identity (some t.nextId) }
    exact congrArg (Prod.mk _) (activate_inMode grown t.nextId
      { block := block, identity := identity, staticBlock := !runtimeRegistered })

theorem insert_inMode (block : RuntimeBlock) (runtimeRegistered allowContextualOverlap : Bool) :
    (inMode t mode counters).insert block runtimeRegistered allowContextualOverlap =
      ((t.insert block runtimeRegistered allowContextualOverlap).1,
        inMode (t.insert block runtimeRegistered allowContextualOverlap).2 mode counters) := by
  simp only [RuntimeBlockTable.insert]
  cases prepareBlock block runtimeRegistered with
  | error message => rfl
  | ok stored =>
    have hidentities : (inMode t mode counters).identities = t.identities := rfl
    simp only [hidentities]
    cases t.identities (stableRuntimeBlockIdentity stored) with
    | none => exact insertNew_inMode { t with
        rejectedGenerations := Function.update t.rejectedGenerations stored.key none } _ _ _ _
    | some known => exact reactivate_inMode { t with
        rejectedGenerations := Function.update t.rejectedGenerations stored.key none } _ _ _ _ _

end

theorem insertAll_inMode (allowContextualOverlap : Bool) (t : RuntimeBlockTable)
    (blocks : List RuntimeBlock) :
    insertAll allowContextualOverlap (inMode t mode counters) blocks =
      ((insertAll allowContextualOverlap t blocks).1,
        inMode (insertAll allowContextualOverlap t blocks).2 mode counters) := by
  induction blocks generalizing t with
  | nil => rfl
  | cons block rest ih =>
    simp only [insertAll, insert_inMode]
    cases t.insert block false allowContextualOverlap with
    | mk handle t' =>
      cases handle with
      | error message => rfl
      | ok handle =>
        dsimp only
        rw [ih t']

section
variable (t : RuntimeBlockTable)

theorem sealStatic_inMode :
    (inMode t mode counters).sealStatic = inMode t.sealStatic mode counters := by
  cases hsealed : t.staticSealed with
  | true =>
    have hsealed' : (inMode t mode counters).staticSealed = true := hsealed
    simp only [RuntimeBlockTable.sealStatic, hsealed, hsealed', if_true]
  | false =>
    have hsealed' : (inMode t mode counters).staticSealed = false := hsealed
    simp only [RuntimeBlockTable.sealStatic, hsealed, hsealed']
    rfl

theorem insertSorted_inMode (allowContextualOverlap : Bool) (blocks : List RuntimeBlock) :
    (inMode t mode counters).insertSorted allowContextualOverlap blocks =
      ((t.insertSorted allowContextualOverlap blocks).1,
        inMode (t.insertSorted allowContextualOverlap blocks).2 mode counters) := by
  simp only [insertSorted, insertAll_inMode]
  cases insertAll allowContextualOverlap t (sortBlocks blocks) with
  | mk handles t' =>
    cases handles with
    | error message => rfl
    | ok handles => exact congrArg (Prod.mk _) (sealStatic_inMode t')

theorem registerStatic_inMode (block : RuntimeBlock) :
    (inMode t mode counters).registerStatic block =
      ((t.registerStatic block).1, inMode (t.registerStatic block).2 mode counters) := by
  have hsealed : (inMode t mode counters).staticSealed = t.staticSealed := rfl
  simp only [registerStatic, hsealed, insert_inMode]
  cases t.staticSealed <;> rfl

theorem registerBootstrapStatic_inMode (block : RuntimeBlock) :
    (inMode t mode counters).registerBootstrapStatic block = ((t.registerBootstrapStatic block).1,
        inMode (t.registerBootstrapStatic block).2 mode counters) := by
  have hsealed : (inMode t mode counters).staticSealed = t.staticSealed := rfl
  simp only [registerBootstrapStatic, hsealed, insert_inMode]
  cases t.staticSealed <;> rfl

theorem registerStaticBulk_inMode (blocks : List RuntimeBlock) :
    (inMode t mode counters).registerStaticBulk blocks =
      ((t.registerStaticBulk blocks).1, inMode (t.registerStaticBulk blocks).2 mode counters) := by
  have hsealed : (inMode t mode counters).staticSealed = t.staticSealed := rfl
  simp only [registerStaticBulk, hsealed, insertSorted_inMode]
  cases t.staticSealed <;> rfl

theorem registerStaticContextualBulk_inMode (blocks : List RuntimeBlock) :
    (inMode t mode counters).registerStaticContextualBulk blocks =
      ((t.registerStaticContextualBulk blocks).1,
        inMode (t.registerStaticContextualBulk blocks).2 mode counters) := by
  have hsealed : (inMode t mode counters).staticSealed = t.staticSealed := rfl
  have hactive : (inMode t mode counters).activeRecords = t.activeRecords := rfl
  simp only [registerStaticContextualBulk, hsealed, hactive]
  split_ifs
  · rfl
  · rfl
  · cases contextualOverlaps ((t.activeRecords.map (·.block) ++ blocks).insertionSort
        fun left right => left.contextualKey ≤ right.contextualKey) with
    | error message => rfl
    | ok overlap =>
      exact insertSorted_inMode { t with contextualVirtualOverlaps := overlap } true blocks

theorem runtimeOverlaps_inMode (block : RuntimeBlock) (entries : List (VariantAddressKey × Nat)) :
    (inMode t mode counters).runtimeOverlaps block entries = t.runtimeOverlaps block entries := by
  induction entries with
  | nil => rfl
  | cons entry rest ih =>
    have hrecords : (inMode t mode counters).records = t.records := rfl
    simp only [runtimeOverlaps, hrecords, ih]

theorem insertRuntime_inMode (block : RuntimeBlock) (sealAfterRegistration : Bool) :
    (inMode t mode counters).insertRuntime block sealAfterRegistration =
      ((t.insertRuntime block sealAfterRegistration).1,
        inMode (t.insertRuntime block sealAfterRegistration).2 mode counters) := by
  simp only [insertRuntime, insert_inMode]
  cases t.insert block true block.aotTemplate.isSome with
  | mk handle t' =>
    cases handle with
    | error message => rfl
    | ok handle =>
      cases sealAfterRegistration with
      | false => rfl
      | true => exact congrArg (Prod.mk _) (sealStatic_inMode t')

theorem registerRuntime_inMode (block : RuntimeBlock) :
    (inMode t mode counters).registerRuntime block =
      ((t.registerRuntime block).1, inMode (t.registerRuntime block).2 mode counters) := by
  have hranges : (inMode t mode counters).activeRanges = t.activeRanges := rfl
  simp only [registerRuntime, hranges, runtimeOverlaps_inMode]
  cases (if block.aotTemplate.isSome then t.runtimeOverlaps block (t.activeRanges block.variant)
      else .ok false : Except String Bool) with
  | error message => rfl
  | ok overlap =>
    exact insertRuntime_inMode { t with
      contextualVirtualOverlaps := t.contextualVirtualOverlaps || overlap } block _

end

theorem sweepPages_inMode (mode : RuntimeBlockLookupMode)
    (counters : RuntimeBlockLookupCounters) (reached : RuntimeBlock → Bool) (t : RuntimeBlockTable)
    (visited seen pages : List Nat) :
    ∃ visited', sweepPages reached ⟨inMode t mode counters, visited⟩ seen pages =
        ⟨inMode (sweepPages reached ⟨t, visited⟩ seen pages).table mode counters, visited'⟩ ∧
      (sweepPages reached ⟨t, visited⟩ seen pages).visited = visited' := by
  have hcandidate : ∀ (s : BatchSweep) (id : Nat),
      sweepCandidate reached ⟨inMode s.table mode counters, s.visited⟩ id =
        ⟨inMode (sweepCandidate reached s id).table mode counters,
          (sweepCandidate reached s id).visited⟩ := by
    intro s id
    have hrecords : (inMode s.table mode counters).records = s.table.records := rfl
    simp only [sweepCandidate, hrecords, deactivate_inMode]
    cases s.table.records id with
    | none => rfl
    | some record =>
      dsimp only
      split_ifs <;> rfl
  have hpage : ∀ (ids : List Nat) (s : BatchSweep),
      ids.foldl (sweepCandidate reached) ⟨inMode s.table mode counters, s.visited⟩ =
        ⟨inMode (ids.foldl (sweepCandidate reached) s).table mode counters,
          (ids.foldl (sweepCandidate reached) s).visited⟩ := by
    intro ids
    induction ids with
    | nil => exact fun _ => rfl
    | cons id rest ih =>
      intro s
      rw [List.foldl_cons, hcandidate, ih]
      rfl
  induction pages generalizing t visited seen with
  | nil => exact ⟨visited, rfl, rfl⟩
  | cons page rest ih =>
    simp only [sweepPages]
    split_ifs
    · exact ih t visited (page :: seen)
    · have hfold := hpage (t.activePhysicalPages page) ⟨t, visited⟩
      have hpages : (inMode t mode counters).activePhysicalPages = t.activePhysicalPages := rfl
      rw [hpages, hfold]
      exact ih _ _ (page :: seen)

theorem indexed_inMode (ht : Indexed t) : Indexed (inMode t mode counters) :=
  ht.transfer rfl le_rfl rfl rfl rfl rfl rfl

theorem lookup_inMode (mode : RuntimeBlockLookupMode) (counters : RuntimeBlockLookupCounters)
    (ht : Indexed t) (trackers : Nat → ExecutableCodeTracker)
    (virtualAddress : BitVec 32) (variant : BlockVariantKey) :
    ∃ counters', (inMode t mode counters).lookup trackers virtualAddress variant =
      ((t.lookup trackers virtualAddress variant).1,
        inMode (t.lookup trackers virtualAddress variant).2 mode counters') := by
  obtain ⟨here, hhere⟩ := lookup_frame t trackers virtualAddress variant
  obtain ⟨there, hthere⟩ := lookup_frame (inMode t mode counters) trackers virtualAddress variant
  refine ⟨there, Prod.ext ?_ ?_⟩
  · rw [lookup_eq ht, lookup_eq (indexed_inMode ht)]
    rfl
  · rw [hthere, hhere]
    rfl

theorem registerStaticVariant_inMode (ht : Indexed t)
    (trackers : Nat → ExecutableCodeTracker) (virtualAddress physicalAddress : BitVec 32)
    (sourceVariant targetVariant : BlockVariantKey) :
    ∃ counters', (inMode t mode counters).registerStaticVariant trackers virtualAddress
        physicalAddress sourceVariant targetVariant =
      ((t.registerStaticVariant trackers virtualAddress physicalAddress sourceVariant
          targetVariant).1,
        inMode (t.registerStaticVariant trackers virtualAddress physicalAddress sourceVariant
          targetVariant).2 mode counters') := by
  obtain ⟨counters₁, h₁⟩ := lookup_inMode mode counters ht trackers virtualAddress targetVariant
  have hfirst : Changes False t _ := lookup_changes t trackers virtualAddress targetVariant
  simp only [registerStaticVariant, h₁]
  cases hlookup₁ : t.lookup trackers virtualAddress targetVariant with
  | mk found₁ t₁ =>
    rw [hlookup₁] at hfirst
    cases found₁ with
    | some existing => exact ⟨counters₁, rfl⟩
    | none =>
      dsimp only
      obtain ⟨counters₂, h₂⟩ := lookup_inMode mode counters₁ (ht.changes hfirst) trackers
        virtualAddress sourceVariant
      simp only [h₂]
      cases t₁.lookup trackers virtualAddress sourceVariant with
      | mk found₂ t₂ =>
        have hsource : (found₂.or ((inMode t₂ mode counters₂).lookupPhysical trackers
              physicalAddress sourceVariant)).bind ((inMode t₂ mode counters₂).resolve trackers) =
            (found₂.or (t₂.lookupPhysical trackers physicalAddress sourceVariant)).bind
              (t₂.resolve trackers) := rfl
        simp only [hsource]
        refine ⟨counters₂, ?_⟩
        cases (found₂.or (t₂.lookupPhysical trackers physicalAddress sourceVariant)).bind
            (t₂.resolve trackers) with
        | none => rfl
        | some resolved =>
          dsimp only
          rw [insert_inMode]
          split_ifs <;> rfl

end

/-- The same state, but for the lookup mode and the counters of lookups. -/
def Alike (s u : BlockDispatch) : Prop :=
  ∃ mode counters, u = s.withTable (inMode s.table mode counters)

variable {u : BlockDispatch}

theorem Alike.lookup {s : BlockDispatch} (h : Alike s u) (hs : Indexed s.table)
    (virtualAddress : BitVec 32) (variant : BlockVariantKey) :
    u.lookup virtualAddress variant = s.lookup virtualAddress variant := by
  obtain ⟨mode, counters, rfl⟩ := h
  obtain ⟨counters', hlookup⟩ := lookup_inMode mode counters hs s.trackers virtualAddress variant
  show ((inMode s.table mode counters).lookup s.trackers virtualAddress variant).1 = _
  rw [hlookup]
  rfl

theorem Alike.apply {s s' : BlockDispatch} (h : Alike s u) (hs : Indexed s.table)
    {operation : Operation} (happly : s.apply operation = some s') :
    ∃ u', u.apply operation = some u' ∧ Alike s' u' := by
  obtain ⟨mode, counters, rfl⟩ := h
  cases operation with
  | registerStatic block =>
    cases happly
    exact ⟨_, rfl, mode, counters, congrArg s.withTable
      (congrArg Prod.snd (registerStatic_inMode s.table block))⟩
  | registerStaticVariant virtualAddress physicalAddress sourceVariant targetVariant =>
    cases happly
    obtain ⟨counters', hvariant⟩ := registerStaticVariant_inMode hs s.trackers virtualAddress
      physicalAddress sourceVariant targetVariant
    exact ⟨_, rfl, mode, counters', congrArg s.withTable (congrArg Prod.snd hvariant)⟩
  | registerStaticBulk blocks =>
    cases happly
    exact ⟨_, rfl, mode, counters, congrArg s.withTable
      (congrArg Prod.snd (registerStaticBulk_inMode s.table blocks))⟩
  | registerStaticContextualBulk blocks =>
    cases happly
    exact ⟨_, rfl, mode, counters, congrArg s.withTable
      (congrArg Prod.snd (registerStaticContextualBulk_inMode s.table blocks))⟩
  | sealStatic =>
    cases happly
    exact ⟨_, rfl, mode, counters, congrArg s.withTable (sealStatic_inMode s.table)⟩
  | registerBootstrapStatic block =>
    cases happly
    exact ⟨_, rfl, mode, counters, congrArg s.withTable
      (congrArg Prod.snd (registerBootstrapStatic_inMode s.table block))⟩
  | registerRuntime block =>
    cases happly
    exact ⟨_, rfl, mode, counters, congrArg s.withTable
      (congrArg Prod.snd (registerRuntime_inMode s.table block))⟩
  | lookup virtualAddress variant =>
    cases happly
    obtain ⟨counters', hlookup⟩ := lookup_inMode mode counters hs s.trackers virtualAddress variant
    exact ⟨_, rfl, mode, counters', congrArg s.withTable (congrArg Prod.snd hlookup)⟩
  | markRejected virtualAddress variant =>
    cases happly
    exact ⟨_, rfl, mode, counters, rfl⟩
  | setLookupMode mode' =>
    cases happly
    exact ⟨_, rfl, mode', counters, rfl⟩
  | resetLookupCounters =>
    cases happly
    exact ⟨_, rfl, mode, {}, rfl⟩
  | eraseIdentity identity =>
    cases happly
    refine ⟨_, rfl, mode, counters, congrArg s.withTable ?_⟩
    have hidentities : (inMode s.table mode counters).identities = s.table.identities := rfl
    have hrecords : (inMode s.table mode counters).records = s.table.records := rfl
    simp only [RuntimeBlockTable.eraseIdentity, withTable, hidentities, hrecords, deactivate_inMode]
    cases s.table.identities identity with
    | none => rfl
    | some id =>
      dsimp only
      split_ifs <;> rfl
  | eraseOverlappingPhysical physicalAddress size =>
    cases happly
    refine ⟨_, rfl, mode, counters, congrArg s.withTable ?_⟩
    have hreached : (inMode s.table mode counters).reachedIds = s.table.reachedIds := rfl
    simp only [RuntimeBlockTable.eraseOverlappingPhysical, withTable, hreached,
      deactivateAll_inMode]
    split_ifs <;> rfl
  | eraseOverlappingPhysicalBatch events =>
    obtain ⟨table, htable, rfl⟩ := Option.map_eq_some_iff.mp happly
    simp only [RuntimeBlockTable.eraseOverlappingPhysicalBatch] at htable
    split at htable
    · cases htable
    · rename_i hsize
      obtain ⟨ranges, hranges, rfl⟩ := Option.map_eq_some_iff.mp htable
      obtain ⟨visited, hsweep, -⟩ := sweepPages_inMode mode counters
        (fun block => ranges.any fun range => reachesBlock range.1 range.2.1 block)
        s.table [] [] (ranges.map (·.2.2 / physicalPageSize))
      refine ⟨_, ?_, mode, counters, rfl⟩
      simp only [BlockDispatch.apply, RuntimeBlockTable.eraseOverlappingPhysicalBatch,
        if_neg hsize, hranges, withTable, Option.map_some]
      rw [hsweep]
  | commitDiscLoadInvalidation plan =>
    cases happly
    exact ⟨_, rfl, mode, counters, congrArg s.withTable (deactivateAll_inMode s.table plan.ids)⟩
  | bindCodeTracker tracker contract =>
    cases happly
    refine ⟨_, rfl, mode, counters, congrArg s.withTable ?_⟩
    have htracker : (inMode s.table mode counters).codeTracker = s.table.codeTracker := rfl
    have hcontract : (inMode s.table mode counters).staticAotInvalidation =
        s.table.staticAotInvalidation := rfl
    simp only [RuntimeBlockTable.bindCodeTracker, withTable, htracker, hcontract]
    split_ifs <;> rfl
  | clear =>
    cases happly
    exact ⟨_, rfl, mode, {}, rfl⟩
  | tracker index operation =>
    obtain ⟨tracker, htracker, rfl⟩ := Option.map_eq_some_iff.mp happly
    refine ⟨{ s with
      table := inMode s.table mode counters
      trackers := Function.update s.trackers index tracker }, ?_, mode, counters, rfl⟩
    simp only [BlockDispatch.apply, withTable, htracker, Option.map_some]
  | allocateLifetime =>
    cases happly
    exact ⟨_, rfl, mode, counters, rfl⟩

theorem Alike.run {s s' : BlockDispatch} (h : Alike s u) (hs : Ready s)
    {operations : List Operation} (hrun : s.run operations = some s') :
    ∃ u', u.run operations = some u' ∧ Alike s' u' := by
  induction operations generalizing s u with
  | nil =>
    cases hrun
    exact ⟨u, rfl, h⟩
  | cons operation rest ih =>
    obtain ⟨next, hnext, hrest⟩ := Option.bind_eq_some_iff.mp hrun
    obtain ⟨unext, hunext, halike⟩ := h.apply hs.indexed hnext
    have hstep : Step False s operation next := apply_step hs (fun h => h.elim) hnext
    obtain ⟨u', hurun, hu'⟩ := ih halike (hs.step hstep) hrest
    exact ⟨u', Option.bind_eq_some_iff.mpr ⟨unext, hunext, hurun⟩, hu'⟩

/-- Two tables that differ in their lookup mode, after the same history: they
hold the same records, and every lookup of one answers as that of the other. -/
theorem lookup_modes_alike {trackers : Nat → ExecutableCodeTracker} {lifetime : Nat}
    {operations : List Operation} {s : BlockDispatch}
    (hrun : (start trackers lifetime .direct).run operations = some s) :
    ∃ u, (start trackers lifetime .referenceTree).run operations = some u ∧
      u.table.records = s.table.records ∧ u.trackers = s.trackers ∧ ∀ virtualAddress variant,
        u.lookup virtualAddress variant = s.lookup virtualAddress variant := by
  have hready := ready_start trackers lifetime .direct
  have hstart : Alike (start trackers lifetime .direct) (start trackers lifetime .referenceTree) :=
    ⟨.referenceTree, {}, rfl⟩
  obtain ⟨u, hu, halike⟩ := hstart.run hready hrun
  have hend : Ready s ∧ True := run_induction (motive := fun _ => True) hready
    (fun h : False => h.elim) hrun trivial fun _ _ _ => trivial
  refine ⟨u, hu, ?_, ?_, halike.lookup hend.1.indexed⟩
  · obtain ⟨mode, counters, rfl⟩ := halike
    rfl
  · obtain ⟨mode, counters, rfl⟩ := halike
    rfl

theorem lookup_modes_alike_loaded :
    ∃ s u, (start emptyTrackers 1 .direct).run [.registerStatic loadedBlock] = some s ∧
      (start emptyTrackers 1 .referenceTree).run [.registerStatic loadedBlock] = some u ∧
      s.lookup 0x8C010000 {} = some ⟨1, 1⟩ ∧ u.lookup 0x8C010000 {} = some ⟨1, 1⟩ := by
  have hrun : (start emptyTrackers 1 .direct).run [.registerStatic loadedBlock] =
      some ((start emptyTrackers 1 .direct).withTable
        (({ dispatchLifetime := 1 } : RuntimeBlockTable).registerStatic loadedBlock).2) := rfl
  obtain ⟨u, hu, -, -, hlookup⟩ := lookup_modes_alike hrun
  exact ⟨_, u, hrun, hu, rfl, hlookup _ _⟩

end BlockDispatch
end KatanaRecomp.Runtime
