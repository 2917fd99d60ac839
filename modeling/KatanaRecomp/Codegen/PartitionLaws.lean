import KatanaRecomp.Codegen.Partition

/-! # What a partitioning keeps

Every function is in one partition, within the limits, and the partitions of one
address region are cut out of the functions of that region alone. -/
namespace KatanaRecomp.Codegen
open Ir Lib ByteFormat Io.InputProvenance

/-! ## Valid functions have instructions -/

theorem instructions_ne_nil_of_verifyBlocks {seenBlocks seen : List (BitVec 32)}
    {blocks : List BasicBlock} (h : verifyBlocks seenBlocks seen blocks = []) :
    ∀ block ∈ blocks, block.instructions ≠ [] := by
  induction blocks generalizing seenBlocks seen with
  | nil => simp
  | cons first rest ih =>
    unfold verifyBlocks at h
    obtain ⟨hfront, hrest⟩ := List.append_eq_nil_iff.mp h
    obtain ⟨-, hinstructions⟩ := List.append_eq_nil_iff.mp hfront
    refine List.forall_mem_cons.mpr ⟨?_, ih hrest⟩
    intro hempty
    rw [hempty] at hinstructions
    cases hinstructions

theorem instructionCount_pos_of_verifyFunction {function : Function}
    (h : verifyFunction function = []) : 0 < instructionCount function := by
  unfold verifyFunction at h
  split at h
  · cases h
  rename_i hblocks
  have hissues := (List.perm_insertionSort _ _).symm.trans (List.Perm.of_eq h)
  have hnil := List.perm_nil.mp hissues
  rw [List.append_eq_nil_iff, List.append_eq_nil_iff, List.append_eq_nil_iff] at hnil
  have hinstructions := instructions_ne_nil_of_verifyBlocks hnil.1.1.1
  cases hcases : function.blocks with
  | nil => simp [hcases] at hblocks
  | cons block rest =>
    rw [hcases] at hinstructions
    have hfirst := List.length_pos_of_ne_nil (hinstructions block List.mem_cons_self)
    unfold instructionCount
    rw [hcases, List.map_cons, List.sum_cons]
    omega

variable {functions : List Function}

theorem verifyFunction_of_requireValidProgram (h : requireValidProgram functions = .ok ()) :
    ∀ function ∈ functions, verifyFunction function = [] := by
  have hissues : verifyProgram functions = [] := by
    unfold requireValidProgram at h
    split at h
    · assumption
    · cases h
  unfold verifyProgram at hissues
  have hnil := List.perm_nil.mp ((List.perm_insertionSort _ _).symm.trans (List.Perm.of_eq hissues))
  have hentries : verifyEntries [] functions = [] := (List.append_eq_nil_iff.mp hnil).1
  clear h hissues hnil
  generalize ([] : List (BitVec 32)) = seen at hentries
  induction functions generalizing seen with
  | nil => simp
  | cons first rest ih =>
    unfold verifyEntries at hentries
    obtain ⟨hfront, hrest⟩ := List.append_eq_nil_iff.mp hentries
    exact List.forall_mem_cons.mpr ⟨(List.append_eq_nil_iff.mp hfront).1, ih _ hrest⟩

/-! ## The order of the entries -/

section
variable {functions : List Function}

theorem getElem?_of_mem_entryOrder {item : Function × Nat} (h : item ∈ entryOrder functions) :
    functions[item.2]? = some item.1 := by
  have hmem : item ∈ functions.zipIdx := (List.mem_insertionSort _).mp h
  exact List.mem_zipIdx_iff_getElem?.mp hmem

theorem entryOrder_indices : ((entryOrder functions).map (·.2)).Perm (List.range functions.length) := by
  have hperm : (entryOrder functions).Perm functions.zipIdx := List.perm_insertionSort _ _
  refine (hperm.map _).trans (List.Perm.of_eq ?_)
  rw [List.zipIdx_map_snd, List.range_eq_range']

theorem entryOrder_functions : ((entryOrder functions).map (·.1)).Perm functions := by
  have hperm : (entryOrder functions).Perm functions.zipIdx := List.perm_insertionSort _ _
  refine (hperm.map _).trans (List.Perm.of_eq ?_)
  exact List.zipIdx_map_fst 0 functions

section
variable (hdistinct : (functions.map (·.entryAddress)).Nodup)
include hdistinct

theorem entryOrder_sorted :
    (entryOrder functions).Pairwise fun left right =>
      left.1.entryAddress < right.1.entryAddress := by
  have hle : (entryOrder functions).Pairwise fun left right =>
      left.1.entryAddress ≤ right.1.entryAddress := by
    have htotal : Std.Total fun left right : Function × Nat =>
        left.1.entryAddress ≤ right.1.entryAddress := ⟨fun _ _ => BitVec.le_total _ _⟩
    have htrans : IsTrans (Function × Nat) fun left right =>
        left.1.entryAddress ≤ right.1.entryAddress := ⟨fun _ _ _ => BitVec.le_trans⟩
    exact List.pairwise_insertionSort _ _
  have hnodup : ((entryOrder functions).map (·.1.entryAddress)).Nodup := by
    have hentries := (@entryOrder_functions functions).map (·.entryAddress)
    rw [List.map_map] at hentries
    exact hentries.nodup_iff.mpr hdistinct
  exact (hle.and (List.pairwise_map.mp hnodup)).imp fun h => BitVec.lt_of_le_ne h.1 h.2

theorem entryOrder_functions_sorted :
    ((entryOrder functions).map (·.1)).Pairwise fun left right =>
      left.entryAddress < right.entryAddress := List.pairwise_map.mpr (entryOrder_sorted hdistinct)

end

theorem hasDuplicateEntry_of_sorted {ordered : List Function}
    (h : ordered.Pairwise fun left right => left.entryAddress < right.entryAddress) :
    hasDuplicateEntry ordered = false := by
  induction ordered with
  | nil => rfl
  | cons first rest ih =>
    obtain ⟨hfirst, hrest⟩ := List.pairwise_cons.mp h
    cases rest with
    | nil => rfl
    | cons second others =>
      unfold hasDuplicateEntry
      rw [ih hrest, Bool.or_false, decide_eq_false_iff_not]
      exact BitVec.ne_of_lt (hfirst second List.mem_cons_self)

end

/-! ## Partitions as groups -/

/-- The partition of a group. -/
def recordOf (index : Nat) (group : List (Function × Nat)) : TranslationUnitPartition :=
  group.foldl extendPartition { index }

theorem recordOf_append (index : Nat) (group : List (Function × Nat)) (item : Function × Nat) :
    recordOf index (group ++ [item]) = extendPartition (recordOf index group) item := by
  simp [recordOf]

theorem recordOf_functionIndices (index : Nat) (group : List (Function × Nat)) :
    (recordOf index group).functionIndices = group.map (·.2) := by
  induction group using List.reverseRecOn with
  | nil => rfl
  | append_singleton group item ih => simp [recordOf_append, extendPartition, ih]

theorem recordOf_instructionCount (index : Nat) (group : List (Function × Nat)) :
    (recordOf index group).instructionCount =
      (group.map fun item => instructionCount item.1).sum := by
  induction group using List.reverseRecOn with
  | nil => rfl
  | append_singleton group item ih => simp [recordOf_append, extendPartition, ih]

theorem recordOf_lastEntryAddress (index : Nat) (group : List (Function × Nat))
    (item : Function × Nat) :
    (recordOf index (group ++ [item])).lastEntryAddress = item.1.entryAddress := by
  rw [recordOf_append]
  rfl

theorem recordOf_firstEntryAddress (index : Nat) (item : Function × Nat)
    (rest : List (Function × Nat)) :
    (recordOf index (item :: rest)).firstEntryAddress = item.1.entryAddress := by
  induction rest using List.reverseRecOn with
  | nil => rfl
  | append_singleton rest last ih =>
    rw [← List.cons_append, recordOf_append]
    unfold extendPartition
    simp only
    rw [if_neg (by simp [recordOf_functionIndices]), ih]

/-- The group has room for the function. -/
def roomFor (options : PartitionOptions) (group : List (Function × Nat)) (item : Function × Nat) :
    Bool := !needsPartition options (recordOf 0 group) item.1

theorem needsPartition_recordOf (options : PartitionOptions) (index : Nat)
    (group : List (Function × Nat)) (function : Function) :
    needsPartition options (recordOf index group) function =
      needsPartition options (recordOf 0 group) function := by
  have hlast : (recordOf index group).lastEntryAddress = (recordOf 0 group).lastEntryAddress := by
    induction group using List.reverseRecOn with
    | nil => rfl
    | append_singleton group item ih => rw [recordOf_lastEntryAddress, recordOf_lastEntryAddress]
  unfold needsPartition
  rw [hlast, recordOf_functionIndices, recordOf_functionIndices, recordOf_instructionCount,
    recordOf_instructionCount]

/-- The partitions of the groups, the newest at the head. -/
def records : List (List (Function × Nat)) → List TranslationUnitPartition
  | [] => []
  | group :: rest => recordOf rest.length group :: records rest

theorem length_records (groups : List (List (Function × Nat))) :
    (records groups).length = groups.length := by
  induction groups with
  | nil => rfl
  | cons group rest ih => simp [records, ih]

theorem foldl_addFunction (options : PartitionOptions) (groups : List (List (Function × Nat)))
    (items : List (Function × Nat)) : items.foldl (addFunction options) (records groups) =
      records (items.foldl (packStep (roomFor options)) groups) := by
  induction items generalizing groups with
  | nil => rfl
  | cons item rest ih =>
    rw [List.foldl_cons, List.foldl_cons, ← ih]
    congr 1
    cases groups with
    | nil => rfl
    | cons group others =>
      unfold records addFunction packStep roomFor
      simp only [needsPartition_recordOf, Bool.not_eq_true']
      cases hneeds : needsPartition options (recordOf 0 group) item.1 with
      | true => simp [records, recordOf, length_records]
      | false => simp [recordOf_append]

variable {groups : List (List (Function × Nat))}

theorem mem_records {partition : TranslationUnitPartition} (h : partition ∈ records groups) :
    ∃ index group, group ∈ groups ∧ partition = recordOf index group := by
  induction groups with
  | nil => cases h
  | cons group rest ih =>
    rcases List.mem_cons.mp h with rfl | hrest
    · exact ⟨_, group, List.mem_cons_self, rfl⟩
    · obtain ⟨index, other, hother, heq⟩ := ih hrest
      exact ⟨index, other, List.mem_cons_of_mem _ hother, heq⟩

/-- What does not look at the index of a partition comes from its group. -/
theorem records_map {β : Type} {f : TranslationUnitPartition → β} {g : List (Function × Nat) → β}
    (h : ∀ group ∈ groups, ∀ index, f (recordOf index group) = g group) :
    (records groups).map f = groups.map g := by
  induction groups with
  | nil => rfl
  | cons group rest ih =>
    obtain ⟨hgroup, hrest⟩ := List.forall_mem_cons.mp h
    rw [records, List.map_cons, List.map_cons, hgroup, ih hrest]

def partitionGroups (options : PartitionOptions) (functions : List Function) :
    List (List (Function × Nat)) := pack (roomFor options) (entryOrder functions)

/-- The partitions before their digests. -/
def cutPartitions (options : PartitionOptions) (functions : List Function) :
    List TranslationUnitPartition := (records (partitionGroups options functions).reverse).reverse

theorem foldl_addFunction_entryOrder (options : PartitionOptions) (functions : List Function) :
    ((entryOrder functions).foldl (addFunction options) []).reverse =
      cutPartitions options functions := by
  have hfold := foldl_addFunction options [] (entryOrder functions)
  unfold cutPartitions partitionGroups pack
  rw [List.reverse_reverse, ← hfold]
  rfl

variable {options : PartitionOptions}

theorem cutPartitions_map {β : Type} {f : TranslationUnitPartition → β}
    {g : List (Function × Nat) → β}
    (h : ∀ group ∈ partitionGroups options functions, ∀ index, f (recordOf index group) = g group) :
    (cutPartitions options functions).map f = (partitionGroups options functions).map g := by
  unfold cutPartitions
  rw [List.map_reverse, records_map fun group hgroup => h group (List.mem_reverse.mp hgroup),
    List.map_reverse, List.reverse_reverse]

/-! ## The digests -/

section
variable {functions : List Function} {options : PartitionOptions}
  (emitJsonInstruction : Instruction → String)

def fragmentDigest (functions : List Function) : List Byte :=
  sha256Bytes ((emitIrFragmentJson emitJsonInstruction functions).toList.map
    fun character => BitVec.ofNat 8 character.toNat)

theorem emitValidatedIrFragmentSha256_of_sorted
    (h : functions.Pairwise fun left right => left.entryAddress < right.entryAddress)
    (externalFunctionEntries : List (BitVec 32)) :
    emitValidatedIrFragmentSha256 emitJsonInstruction functions externalFunctionEntries =
      .ok (fragmentDigest emitJsonInstruction functions) := by
  have hsorted : functions.insertionSort (fun left right => left.entryAddress ≤ right.entryAddress) =
      functions := (h.imp BitVec.le_of_lt).insertionSort_eq
  unfold emitValidatedIrFragmentSha256
  rw [hsorted]
  dsimp only
  rw [hasDuplicateEntry_of_sorted h, if_neg Bool.false_ne_true]
  rfl

variable {emitJsonInstruction}

variable {group : List (Function × Nat)}

section
variable (hgroup : group ∈ partitionGroups options functions)
include hgroup

theorem group_subset : group.Sublist (entryOrder functions) := by
  have hflatten := List.sublist_flatten_of_mem hgroup
  unfold partitionGroups at hflatten
  rwa [pack_flatten] at hflatten

theorem partitionFunctions_recordOf (index : Nat) :
    partitionFunctions functions (recordOf index group) = group.map (·.1) := by
  have hmem : ∀ item ∈ group, functions[item.2]? = some item.1 := fun item hitem =>
    getElem?_of_mem_entryOrder ((group_subset hgroup).subset hitem)
  unfold partitionFunctions
  rw [recordOf_functionIndices, List.filterMap_map]
  clear hgroup
  induction group with
  | nil => rfl
  | cons item rest ih =>
    obtain ⟨hitem, hrest⟩ := List.forall_mem_cons.mp hmem
    have hhead : ((functions[·]?) ∘ fun item : Function × Nat => item.2) item = some item.1 := hitem
    rw [List.filterMap_cons_some hhead, ih hrest, List.map_cons]

end

def finishPartition (emitJsonInstruction : Instruction → String) (functions : List Function)
    (partition : TranslationUnitPartition) : TranslationUnitPartition :=
  { partition with
    contentSha256 := fragmentDigest emitJsonInstruction (partitionFunctions functions partition) }

theorem mapM_eq_ok {α β ε : Type} {f : α → Except ε β} {g : α → β} {list : List α}
    (h : ∀ a ∈ list, f a = .ok (g a)) : list.mapM f = .ok (list.map g) := by
  induction list with
  | nil => rfl
  | cons a rest ih =>
    obtain ⟨ha, hrest⟩ := List.forall_mem_cons.mp h
    rw [List.mapM_cons, ha, ih hrest]
    rfl

/-- Distinct entries are partitioned exactly when the program is valid. -/
theorem partitionTranslationUnits_eq (hfunctions : options.maximumFunctions ≠ 0)
    (hinstructions : options.maximumInstructions ≠ 0)
    (hdistinct : (functions.map (·.entryAddress)).Nodup) :
    partitionTranslationUnits emitJsonInstruction functions options =
      (requireValidProgram functions).map fun _ =>
        (cutPartitions options functions).map (finishPartition emitJsonInstruction functions) := by
  have hsorted := entryOrder_sorted hdistinct
  have hduplicate : hasDuplicateEntry ((entryOrder functions).map (·.1)) = false :=
    hasDuplicateEntry_of_sorted (entryOrder_functions_sorted hdistinct)
  have hdigests : (cutPartitions options functions).mapM (fun partition => do
      let contentSha256 ← emitValidatedIrFragmentSha256 emitJsonInstruction
        (partitionFunctions functions partition) (externalEntries functions partition)
      pure { partition with contentSha256 := contentSha256 }) =
      .ok ((cutPartitions options functions).map
        (finishPartition emitJsonInstruction functions)) := by
    refine mapM_eq_ok fun partition hpartition => ?_
    obtain ⟨index, group, hgroup, rfl⟩ := mem_records (List.mem_reverse.mp hpartition)
    have hpart : (partitionFunctions functions (recordOf index group)).Pairwise
        fun left right => left.entryAddress < right.entryAddress := by
      rw [partitionFunctions_recordOf (List.mem_reverse.mp hgroup)]
      exact List.pairwise_map.mpr (hsorted.sublist (group_subset (List.mem_reverse.mp hgroup)))
    rw [emitValidatedIrFragmentSha256_of_sorted _ hpart]
    rfl
  unfold partitionTranslationUnits
  rw [if_neg (by simp [hfunctions, hinstructions]), hduplicate, foldl_addFunction_entryOrder,
    if_neg Bool.false_ne_true]
  simp only [hdigests]
  cases requireValidProgram functions with
  | error message => rfl
  | ok => rfl

end

/-! ## Budget -/

def groupInstructions (group : List (Function × Nat)) : Nat :=
  (group.map fun item => instructionCount item.1).sum

/-- What a group keeps while it grows; the functions of a valid program count. -/
structure GroupOk (options : PartitionOptions) (group : List (Function × Nat)) : Prop where
  nonempty : group ≠ []
  counted : 0 < groupInstructions group
  oneRegion : ∀ item ∈ group, ∀ other ∈ group,
    stablePartitionAddressKey item.1.entryAddress = stablePartitionAddressKey other.1.entryAddress
  limits : group.length = 1 ∨
    group.length ≤ options.maximumFunctions ∧ groupInstructions group ≤ options.maximumInstructions

variable {group : List (Function × Nat)} {item : Function × Nat}

theorem roomFor_eq_true_iff
    {last : Function × Nat} : roomFor options (group ++ [last]) item = true ↔
      stablePartitionAddressKey last.1.entryAddress =
          stablePartitionAddressKey item.1.entryAddress ∧
        (group ++ [last]).length < options.maximumFunctions ∧
        (groupInstructions (group ++ [last]) = 0 ∨
          groupInstructions (group ++ [last]) < options.maximumInstructions ∧
            instructionCount item.1 ≤
              options.maximumInstructions - groupInstructions (group ++ [last])) := by
  unfold roomFor needsPartition groupInstructions
  simp only [recordOf_lastEntryAddress, recordOf_functionIndices, recordOf_instructionCount,
    List.length_map, Bool.not_eq_true', Bool.or_eq_false_iff, Bool.and_eq_false_iff, bne_eq_false_iff_eq,
    decide_eq_false_iff_not, ge_iff_le, not_le, gt_iff_lt, not_lt, and_assoc]

theorem GroupOk.singleton (h : 0 < instructionCount item.1) : GroupOk options [item] := by
  refine ⟨List.cons_ne_nil _ _, ?_, ?_, .inl rfl⟩
  · unfold groupInstructions
    rw [List.map_singleton, List.sum_singleton]
    exact h
  · intro left hleft right hright
    rw [List.mem_singleton.mp hleft, List.mem_singleton.mp hright]

theorem GroupOk.append (hgroup : GroupOk options group)
    (hroom : roomFor options group item = true) : GroupOk options (group ++ [item]) := by
  have hcounted := hgroup.counted
  obtain ⟨before, last, hwhole⟩ : ∃ before last, group = before ++ [last] :=
    ⟨_, _, (List.dropLast_concat_getLast hgroup.nonempty).symm⟩
  rw [hwhole, roomFor_eq_true_iff, ← hwhole] at hroom
  obtain ⟨hkey, hlength, hcount⟩ := hroom
  have hsum : groupInstructions (group ++ [item]) =
      groupInstructions group + instructionCount item.1 := by
    unfold groupInstructions
    rw [List.map_append, List.sum_append, List.map_singleton, List.sum_singleton]
  have hlast : last ∈ group := by
    rw [hwhole]
    exact List.mem_append_right _ List.mem_cons_self
  have hitem : ∀ other ∈ group ++ [item], stablePartitionAddressKey other.1.entryAddress =
      stablePartitionAddressKey item.1.entryAddress := by
    intro other hother
    rcases List.mem_append.mp hother with hother | hother
    · exact (hgroup.oneRegion other hother last hlast).trans hkey
    · rw [List.mem_singleton.mp hother]
  refine ⟨by simp, ?_, ?_, .inr ⟨?_, ?_⟩⟩
  · omega
  · intro left hleft right hright
    exact (hitem left hleft).trans (hitem right hright).symm
  · rw [List.length_append, List.length_singleton]
    omega
  · omega

theorem partitionGroups_ok (hvalid : requireValidProgram functions = .ok ()) :
    ∀ group ∈ partitionGroups options functions, GroupOk options group := by
  refine pack_forall ?_ fun group item _ hgroup hroom => hgroup.append hroom
  intro item hitem
  have hmem : item.1 ∈ functions := List.mem_of_getElem? (getElem?_of_mem_entryOrder hitem)
  exact .singleton (instructionCount_pos_of_verifyFunction
    (verifyFunction_of_requireValidProgram hvalid _ hmem))

/-! ## Regions -/

/-- What a partition is to a build that does not know the indices. -/
structure PartitionView where
  firstEntryAddress : BitVec 32
  lastEntryAddress : BitVec 32
  functionEntries : List (BitVec 32)
  instructionCount : Nat
  contentSha256 : List Byte

def viewOf (functions : List Function) (partition : TranslationUnitPartition) : PartitionView :=
  { firstEntryAddress := partition.firstEntryAddress
    lastEntryAddress := partition.lastEntryAddress
    functionEntries := (partitionFunctions functions partition).map (·.entryAddress)
    instructionCount := partition.instructionCount
    contentSha256 := partition.contentSha256 }

/-- The partitions of one address region, in their order. -/
def regionPartitions (functions : List Function) (partitions : List TranslationUnitPartition)
    (region : Nat) : List PartitionView := (partitions.filter fun partition =>
    stablePartitionAddressKey partition.firstEntryAddress = region).map (viewOf functions)

/-- The view of the partition of a group. -/
def groupView (emitJsonInstruction : Instruction → String) (group : List Function) :
    PartitionView :=
  { firstEntryAddress := (group.head?.map (·.entryAddress)).getD 0
    lastEntryAddress := (group.getLast?.map (·.entryAddress)).getD 0
    functionEntries := group.map (·.entryAddress)
    instructionCount := (group.map instructionCount).sum
    contentSha256 := fragmentDigest emitJsonInstruction group }

/-- A group of functions without indices has room for another. -/
def roomForFunction (options : PartitionOptions) (group : List Function) (function : Function) :
    Bool := roomFor options (group.map fun member => (member, 0)) (function, 0)

section
variable {options : PartitionOptions} {functions : List Function}
  {emitJsonInstruction : Instruction → String}

theorem roomFor_eq_roomForFunction (group : List (Function × Nat)) (item : Function × Nat) :
    roomFor options group item = roomForFunction options (group.map (·.1)) item.1 := by
  unfold roomForFunction
  induction group using List.reverseRecOn with
  | nil => rfl
  | append_singleton before last =>
    rw [List.map_append, List.map_append, List.map_singleton, List.map_singleton, Bool.eq_iff_iff,
      roomFor_eq_true_iff, roomFor_eq_true_iff]
    simp [groupInstructions, Function.comp_def]

theorem roomForFunction_other_region {group : List Function} {function last : Function}
    (hlast : last ∈ group.getLast?) (hkey : stablePartitionAddressKey last.entryAddress ≠
      stablePartitionAddressKey function.entryAddress) :
    roomForFunction options group function = false := by
  obtain ⟨before, rfl⟩ := List.getLast?_eq_some_iff.mp hlast
  unfold roomForFunction
  rw [List.map_append, List.map_singleton, Bool.eq_false_iff, ne_eq, roomFor_eq_true_iff]
  exact fun hroom => hkey hroom.1

theorem partitionGroups_functions : (partitionGroups options functions).map (List.map (·.1)) =
      pack (roomForFunction options) ((entryOrder functions).map (·.1)) :=
  pack_map (fun item : Function × Nat => item.1) roomFor_eq_roomForFunction _

theorem pack_nonempty {α : Type} {fits : List α → α → Bool} {list : List α} :
    ∀ group ∈ pack fits list, group ≠ [] :=
  pack_forall (fun _ _ => List.cons_ne_nil _ _) fun _ _ _ _ _ => by simp

theorem viewOf_recordOf (hgroup : group ∈ partitionGroups options functions) (index : Nat) :
    viewOf functions (finishPartition emitJsonInstruction functions (recordOf index group)) =
      groupView emitJsonInstruction (group.map (·.1)) := by
  have hpart := partitionFunctions_recordOf hgroup index
  have hfirst : (recordOf index group).firstEntryAddress =
      ((group.map (·.1)).head?.map (·.entryAddress)).getD 0 := by
    cases hcases : group with
    | nil => exact absurd hcases (pack_nonempty group hgroup)
    | cons item rest =>
      rw [recordOf_firstEntryAddress]
      rfl
  have hlast : (recordOf index group).lastEntryAddress =
      ((group.map (·.1)).getLast?.map (·.entryAddress)).getD 0 := by
    obtain ⟨before, last, rfl⟩ : ∃ before last, group = before ++ [last] :=
      ⟨_, _, (List.dropLast_concat_getLast (pack_nonempty group hgroup)).symm⟩
    rw [recordOf_lastEntryAddress, List.map_append, List.map_singleton,
      List.getLast?_append_of_ne_nil _ (List.cons_ne_nil _ _)]
    rfl
  have hcount : (recordOf index group).instructionCount =
      ((group.map (·.1)).map instructionCount).sum := by
    rw [recordOf_instructionCount, List.map_map]
    rfl
  unfold viewOf groupView finishPartition
  change PartitionView.mk _ _ ((partitionFunctions functions (recordOf index group)).map _) _
    (fragmentDigest emitJsonInstruction (partitionFunctions functions (recordOf index group))) = _
  rw [hpart, ← hfirst, ← hlast, ← hcount]

section
variable (hdistinct : (functions.map (·.entryAddress)).Nodup)
include hdistinct

/-- The partitions of a region are cut out of the region's functions. -/
theorem regionPartitions_eq (region : Nat) :
    regionPartitions functions
        ((cutPartitions options functions).map (finishPartition emitJsonInstruction functions))
        region = (pack (roomForFunction options) (((entryOrder functions).map (·.1)).filter
        fun function => stablePartitionAddressKey function.entryAddress = region)).map
          (groupView emitJsonInstruction) := by
  have hsorted : ((entryOrder functions).map (·.1)).Pairwise fun left right =>
      stablePartitionAddressKey left.entryAddress ≤
        stablePartitionAddressKey right.entryAddress := by
    refine List.pairwise_map.mpr ((entryOrder_sorted hdistinct).imp fun h => ?_)
    exact Nat.div_le_div_right (BitVec.le_of_lt h)
  have hviews : ((cutPartitions options functions).map
      (finishPartition emitJsonInstruction functions)).map (viewOf functions) =
      (pack (roomForFunction options) ((entryOrder functions).map (·.1))).map
        (groupView emitJsonInstruction) := by
    rw [← partitionGroups_functions, List.map_map, List.map_map]
    exact cutPartitions_map fun group hgroup index => viewOf_recordOf hgroup index
  have hregion : regionPartitions functions ((cutPartitions options functions).map
      (finishPartition emitJsonInstruction functions)) region =
      (((cutPartitions options functions).map
        (finishPartition emitJsonInstruction functions)).map (viewOf functions)).filter
          fun view => stablePartitionAddressKey view.firstEntryAddress = region := by
    rw [List.filter_map]
    rfl
  rw [hregion, hviews, List.filter_map, ← pack_filter hsorted
    fun group function last hlast hkey => roomForFunction_other_region hlast hkey]
  congr 1
  refine List.filter_congr fun group hgroup => ?_
  cases hcases : group with
  | nil => exact absurd hcases (pack_nonempty group hgroup)
  | cons function rest => simp [groupView]

theorem regionFunctions_eq {functions' : List Function}
    (hdistinct' : (functions'.map (·.entryAddress)).Nodup) {region : Nat}
    (hagree : ∀ function, stablePartitionAddressKey function.entryAddress = region →
      (function ∈ functions ↔ function ∈ functions')) : ((entryOrder functions).map (·.1)).filter
        (fun function => stablePartitionAddressKey function.entryAddress = region) =
      ((entryOrder functions').map (·.1)).filter
        fun function => stablePartitionAddressKey function.entryAddress = region := by
  have hsorted := (entryOrder_functions_sorted hdistinct).filter
    fun function => decide (stablePartitionAddressKey function.entryAddress = region)
  have hsorted' := (entryOrder_functions_sorted hdistinct').filter
    fun function => decide (stablePartitionAddressKey function.entryAddress = region)
  refine List.Perm.eq_of_pairwise ?_ hsorted hsorted' ?_
  · intro left right _ _ hlt hgt
    exact absurd hgt (BitVec.lt_asymm hlt)
  · have hnodup : ∀ {list : List Function}, (list.Pairwise fun left right =>
        left.entryAddress < right.entryAddress) → list.Nodup := by
      refine fun h => List.Pairwise.imp ?_ h
      rintro left right hlt rfl
      exact BitVec.lt_irrefl _ hlt
    refine (List.perm_ext_iff_of_nodup (hnodup hsorted) (hnodup hsorted')).mpr fun function => ?_
    rw [List.mem_filter, List.mem_filter, entryOrder_functions.mem_iff,
      entryOrder_functions.mem_iff, decide_eq_true_eq]
    exact and_congr_left fun hkey => hagree function hkey

end

/-! ## The partitioning -/

/-- A partition of the result: its fields describe its functions, which are of one
address region and within the limits. -/
structure PartitionOk (options : PartitionOptions) (functions : List Function)
    (partition : TranslationUnitPartition) : Prop where
  first : ((partitionFunctions functions partition).head?.map (·.entryAddress)) =
    some partition.firstEntryAddress
  last : ((partitionFunctions functions partition).getLast?.map (·.entryAddress)) =
    some partition.lastEntryAddress
  counted : partition.instructionCount =
    ((partitionFunctions functions partition).map instructionCount).sum
  oneRegion : ∀ function ∈ partitionFunctions functions partition,
    stablePartitionAddressKey function.entryAddress =
      stablePartitionAddressKey partition.firstEntryAddress
  limits : partition.functionIndices.length = 1 ∨
    partition.functionIndices.length ≤ options.maximumFunctions ∧
      partition.instructionCount ≤ options.maximumInstructions

theorem GroupOk.partition
    (hmem : group ∈ partitionGroups options functions) (hgroup : GroupOk options group)
    (index : Nat) : PartitionOk options functions
      (finishPartition emitJsonInstruction functions (recordOf index group)) := by
  have hpart : partitionFunctions functions (finishPartition emitJsonInstruction functions
      (recordOf index group)) = group.map (·.1) := partitionFunctions_recordOf hmem index
  have hview : viewOf functions (finishPartition emitJsonInstruction functions
      (recordOf index group)) = groupView emitJsonInstruction (group.map (·.1)) :=
    viewOf_recordOf hmem index
  have hfirst := congrArg PartitionView.firstEntryAddress hview
  have hlast := congrArg PartitionView.lastEntryAddress hview
  have hcount := congrArg PartitionView.instructionCount hview
  have hindices : (finishPartition emitJsonInstruction functions
      (recordOf index group)).functionIndices = group.map (·.2) :=
    recordOf_functionIndices index group
  simp only [viewOf, groupView] at hfirst hlast hcount
  have hnonempty : group.map (·.1) ≠ [] := fun h => hgroup.nonempty (List.map_eq_nil_iff.mp h)
  refine ⟨?_, ?_, ?_, ?_, ?_⟩
  · rw [hpart, hfirst, List.head?_eq_some_head hnonempty]
    rfl
  · rw [hpart, hlast, List.getLast?_eq_some_getLast hnonempty]
    rfl
  · rw [hpart, hcount]
  · intro function hfunction
    rw [hpart] at hfunction
    obtain ⟨item, hitem, rfl⟩ := List.mem_map.mp hfunction
    rw [hfirst]
    cases hcases : group with
    | nil => exact absurd hcases hgroup.nonempty
    | cons first rest =>
      refine hgroup.oneRegion item hitem first ?_
      rw [hcases]
      exact List.mem_cons_self
  · rw [hindices, hcount, List.length_map, List.map_map]
    exact hgroup.limits

theorem partitions_indices : (((cutPartitions options functions).map
      (finishPartition emitJsonInstruction functions)).flatMap (·.functionIndices)).Perm
        (List.range functions.length) := by
  have hmap : ((cutPartitions options functions).map
      (finishPartition emitJsonInstruction functions)).map (·.functionIndices) =
      (partitionGroups options functions).map (List.map (·.2)) := by
    rw [List.map_map]
    exact cutPartitions_map fun group _ index => recordOf_functionIndices index group
  rw [List.flatMap_def, hmap, ← List.map_flatten]
  unfold partitionGroups
  rw [pack_flatten]
  exact entryOrder_indices

theorem partitions_entries : ((cutPartitions options functions).map
      (finishPartition emitJsonInstruction functions)).flatMap (partitionFunctions functions) =
        (entryOrder functions).map (·.1) := by
  have hmap : ((cutPartitions options functions).map
      (finishPartition emitJsonInstruction functions)).map (partitionFunctions functions) =
      (partitionGroups options functions).map (List.map (·.1)) := by
    rw [List.map_map]
    exact cutPartitions_map fun group hgroup index => partitionFunctions_recordOf hgroup index
  rw [List.flatMap_def, hmap, ← List.map_flatten]
  unfold partitionGroups
  rw [pack_flatten]

end

/-- A valid program is cut into partitions that have every function once, in the order
of the entries, within one region and the limits each; what the partitions of a region
are depends on the functions of that region alone. -/
theorem partition_of_region_depends_on_region (emitJsonInstruction : Instruction → String)
    (options : PartitionOptions) (hfunctions : options.maximumFunctions ≠ 0)
    (hinstructions : options.maximumInstructions ≠ 0) (functions : List Function)
    (hdistinct : (functions.map (·.entryAddress)).Nodup) : ((∃ partitions,
      partitionTranslationUnits emitJsonInstruction functions options = .ok partitions) ↔
        requireValidProgram functions = .ok ()) ∧ ∀ partitions,
      partitionTranslationUnits emitJsonInstruction functions options = .ok partitions →
      (partitions.flatMap (·.functionIndices)).Perm (List.range functions.length) ∧
      (partitions.flatMap (partitionFunctions functions)).Pairwise
        (fun left right => left.entryAddress < right.entryAddress) ∧
      (∀ partition ∈ partitions, PartitionOk options functions partition) ∧
      ∀ functions' partitions', (functions'.map (·.entryAddress)).Nodup →
        partitionTranslationUnits emitJsonInstruction functions' options = .ok partitions' →
        ∀ region, (∀ function, stablePartitionAddressKey function.entryAddress = region →
          (function ∈ functions ↔ function ∈ functions')) →
          regionPartitions functions partitions region =
            regionPartitions functions' partitions' region := by
  have hresult : ∀ {functions partitions}, (functions.map (·.entryAddress)).Nodup →
      partitionTranslationUnits emitJsonInstruction functions options = .ok partitions →
      requireValidProgram functions = .ok () ∧ partitions =
        (cutPartitions options functions).map (finishPartition emitJsonInstruction functions) := by
    intro functions partitions hdistinct hok
    rw [partitionTranslationUnits_eq hfunctions hinstructions hdistinct] at hok
    cases hvalid : requireValidProgram functions with
    | error message =>
      rw [hvalid] at hok
      cases hok
    | ok =>
      rw [hvalid] at hok
      cases hok
      exact ⟨rfl, rfl⟩
  refine ⟨⟨fun ⟨_, hok⟩ => (hresult hdistinct hok).1, fun hvalid => ?_⟩, ?_⟩
  · rw [partitionTranslationUnits_eq hfunctions hinstructions hdistinct, hvalid]
    exact ⟨_, rfl⟩
  intro partitions hok
  obtain ⟨hvalid, rfl⟩ := hresult hdistinct hok
  refine ⟨partitions_indices, ?_, ?_, ?_⟩
  · rw [partitions_entries]
    exact entryOrder_functions_sorted hdistinct
  · intro partition hpartition
    obtain ⟨cut, hcut, rfl⟩ := List.mem_map.mp hpartition
    obtain ⟨index, group, hgroup, rfl⟩ := mem_records (List.mem_reverse.mp hcut)
    have hmem := List.mem_reverse.mp hgroup
    exact (partitionGroups_ok hvalid group hmem).partition hmem index
  · intro functions' partitions' hdistinct' hok' region hagree
    obtain ⟨-, rfl⟩ := hresult hdistinct' hok'
    rw [regionPartitions_eq hdistinct, regionPartitions_eq hdistinct',
      regionFunctions_eq hdistinct hdistinct' hagree]

/-- A function that sleeps. -/
def sleepingFunction (address : BitVec 32) : Function :=
  { entryAddress := address
    blocks :=
      [{ startAddress := address
         instructions :=
          [{ sourceAddress := address
             originalOpcode := 0x001B
             operation := .sleep
             widths := operationOperandWidths .sleep
             statusEffects := instructionStatusEffects .sleep .none
             memoryEffects := instructionMemoryEffects .sleep 0 0
             accumulatorEffects := operationAccumulatorEffects .sleep .none
             isPrivileged := true }] }] }

/-- Two functions of two regions, and the first one alone. -/
theorem partition_of_region_depends_on_region_sample :
    let emitJsonInstruction := fun instruction : Instruction =>
      hexAddress instruction.sourceAddress
    ∃ both alone, partitionTranslationUnits emitJsonInstruction
        [sleepingFunction 0x40000, sleepingFunction 0] {} = .ok both ∧
      partitionTranslationUnits emitJsonInstruction [sleepingFunction 0] {} = .ok alone ∧
      (both.flatMap (·.functionIndices)).Perm [0, 1] ∧
      regionPartitions [sleepingFunction 0x40000, sleepingFunction 0] both 0 =
        regionPartitions [sleepingFunction 0] alone 0 := by
  intro emitJsonInstruction
  have hboth := partition_of_region_depends_on_region emitJsonInstruction {} (by decide) (by decide)
    [sleepingFunction 0x40000, sleepingFunction 0] (by decide)
  have halone := partition_of_region_depends_on_region emitJsonInstruction {} (by decide) (by decide)
    [sleepingFunction 0] (by decide)
  obtain ⟨both, hbothOk⟩ := hboth.1.mpr (by decide)
  obtain ⟨alone, haloneOk⟩ := halone.1.mpr (by decide)
  obtain ⟨hindices, -, -, hregion⟩ := hboth.2 both hbothOk
  refine ⟨both, alone, hbothOk, haloneOk, hindices, ?_⟩
  refine hregion [sleepingFunction 0] alone (by decide) haloneOk 0 fun function hkey => ?_
  rw [List.mem_cons]
  refine or_iff_right ?_
  rintro rfl
  exact absurd hkey (by decide)

end KatanaRecomp.Codegen
