import KatanaRecomp.Analysis.EntryPredecessorLaws
import KatanaRecomp.Analysis.ScanShards

/-! # What a round does to the shards

The bounds of a shard reach every address whose shard starts there. A round leaves
the components alone but for the requested starts, which all get the bounds and
the lines of the new functions; a component with a changed line in it is requested. -/
namespace KatanaRecomp.Analysis
open Lib Sh4
open scoped Lib.BitVecOrder

/-! ## Pages -/

theorem toNat_page (address : BitVec 32) :
    (address &&& ~~~(orphanShardBytes - 1)).toNat = address.toNat - address.toNat % 4096 := by
  have hmask : ∀ i < 32, (~~~(orphanShardBytes - 1)).getLsbD i = decide (12 ≤ i) := by decide
  have hpage : address &&& ~~~(orphanShardBytes - 1) = (address >>> 12) <<< 12 := by
    refine BitVec.eq_of_getLsbD_eq fun i hi => ?_
    rw [BitVec.getLsbD_and, hmask i hi, BitVec.getLsbD_shiftLeft, BitVec.getLsbD_ushiftRight]
    by_cases h : 12 ≤ i
    · simp [hi, h, Nat.not_lt.mpr h, Nat.add_sub_cancel' h]
    · simp [hi, h, Nat.not_le.mp h]
  rw [hpage, BitVec.toNat_shiftLeft, BitVec.toNat_ushiftRight, Nat.shiftLeft_eq,
    Nat.shiftRight_eq_div_pow]
  have hlt := address.isLt
  omega

theorem page_le (address : BitVec 32) : address &&& ~~~(orphanShardBytes - 1) ≤ address := by
  rw [BitVec.le_def, toNat_page]
  omega

/-! ## Starts and bounds -/

section
variable {functions : FunctionMap} {address start : BitVec 32}

/-- The start lies in front of the address, with no function in between. -/
theorem shardStart_le (functions : FunctionMap) (address : BitVec 32) :
    shardStart functions address ≤ address := by
  unfold shardStart
  dsimp only
  split
  · exact page_le address
  · rename_i entry owner howner
    obtain ⟨-, hle, -⟩ := OrderedMap.lastUpTo_spec howner
    split
    · exact hle
    · rename_i hinside
      obtain ⟨hsize, hbehind⟩ := not_or.mp hinside
      split
      · rename_i hafter
        refine max_le (page_le address) ?_
        rw [BitVec.le_def, BitVec.toNat_ofNat]
        unfold maximumAddress at hafter
        omega
      · exact page_le address

/-- The shard from `low` runs up to `high`: no function begins on the way, and `high`
is in the function at `low`, or in the page length of a shard without function. -/
def ShardReaches (functions : FunctionMap) (low high : BitVec 32) : Prop :=
  (∀ entry, (functions.find entry).isSome → low < entry → high < entry) ∧
    match functions.find low with
    | some function => function.size = 0 ∨ high.toNat < low.toNat + function.size.toNat
    | none => high.toNat < low.toNat + orphanShardBytes.toNat

theorem le_cutBefore_iff {last : Nat} {next : Option (BitVec 32 × FunctionCandidate)}
    (hnext : ∀ function ∈ next, function.1 ≠ 0) : address.toNat ≤ cutBefore last next ↔
      address.toNat ≤ last ∧ (next.any fun function => function.1 ≤ address) = false := by
  cases next with
  | none => simp [cutBefore]
  | some function =>
    have hne : function.1 ≠ 0 := hnext function rfl
    have hpred : (function.1 - 1).toNat = function.1.toNat - 1 := by bv_omega
    rw [cutBefore, if_pos hne, hpred, Option.any_some, decide_eq_false_iff_not, BitVec.le_def,
      le_min_iff]
    have hpos : 0 < function.1.toNat := by bv_omega
    omega

theorem clear_iff : ((functions.upperBound start).head?.any fun function => function.1 ≤ address) =
    false ↔ ∀ entry, (functions.find entry).isSome → start < entry → address < entry := by
  rw [← Bool.not_eq_true, OrderedMap.head_upperBound_le_iff]
  constructor
  · intro h entry hfind hlt
    obtain ⟨function, hfunction⟩ := Option.isSome_iff_exists.mp hfind
    by_contra hle
    exact h ⟨(entry, function), OrderedMap.mem_of_find hfunction, hlt, not_lt.mp hle⟩
  · rintro h ⟨entry, hentry, hlt, hle⟩
    have hfind := OrderedMap.find_of_mem hentry
    exact absurd hle (h entry.1 (by rw [hfind]; rfl) hlt).not_ge

theorem ne_zero_of_upperBound :
    ∀ function ∈ (functions.upperBound start).head?, function.1 ≠ 0 := by
  intro function hfunction hzero
  have hmem := OrderedMap.mem_upperBound.mp (List.mem_of_head? hfunction)
  rw [hzero] at hmem
  exact absurd hmem.2 (by rw [BitVec.lt_def]; simp)

@[simp]
theorem shardBounds_fst (functions : FunctionMap) (start : BitVec 32) :
    (shardBounds functions start).1 = start := by
  unfold shardBounds
  dsimp only
  split <;> rfl

theorem le_ofNat_min_iff {last : Nat} :
    address ≤ BitVec.ofNat 32 (min last maximumAddress) ↔ address.toNat ≤ last := by
  rw [BitVec.le_def, BitVec.toNat_ofNat]
  have hlt := address.isLt
  unfold maximumAddress
  omega

/-- What the shards depend on: whether there is a function, and its size. -/
def contract (functions : FunctionMap) (entry : BitVec 32) : Option (BitVec 32) :=
  (functions.find entry).map (·.size)

/-- How far the bounds of a start go. -/
theorem le_shardBounds_iff (hle : start ≤ address) :
    address ≤ (shardBounds functions start).2 ↔ ShardReaches functions start address := by
  have hlt := address.isLt
  rw [BitVec.le_def] at hle
  unfold shardBounds ShardReaches
  cases functions.find start with
  | some function =>
    dsimp only
    rw [le_ofNat_min_iff, le_cutBefore_iff ne_zero_of_upperBound, clear_iff, and_comm]
    refine and_congr_right fun _ => ?_
    by_cases hsize : function.size = 0
    · simp only [hsize, ne_eq, not_true_eq_false, if_false, true_or, iff_true]
      unfold maximumAddress
      omega
    · have hpos : 0 < function.size.toNat := by bv_omega
      simp only [hsize, ne_eq, not_false_eq_true, if_true, false_or]
      omega
  | none =>
    dsimp only
    rw [le_ofNat_min_iff, le_cutBefore_iff ne_zero_of_upperBound, clear_iff, and_comm]
    refine and_congr_right fun _ => ?_
    have hbytes : orphanShardBytes.toNat = 4096 := rfl
    omega

/-- The reach of a start depends on the functions from there on. -/
theorem ShardReaches.congr {functions' : FunctionMap} {low high : BitVec 32}
    (h : ShardReaches functions low high) (hle : low ≤ high)
    (hsame : ∀ entry, low ≤ entry → entry ≤ high →
      contract functions' entry = contract functions entry) :
    ShardReaches functions' low high := by
  obtain ⟨hnext, hend⟩ := h
  unfold contract at hsame
  constructor
  · intro entry hfind hlt
    by_contra hnot
    have hentry := congrArg Option.isSome (hsame entry hlt.le (not_lt.mp hnot))
    rw [Option.isSome_map, Option.isSome_map] at hentry
    exact hnot (hnext entry (hentry ▸ hfind) hlt)
  · have hlow := hsame low le_rfl hle
    cases hold : functions.find low with
    | none =>
      rw [hold, Option.map_none, Option.map_eq_none_iff] at hlow
      rw [hold] at hend
      rw [hlow]
      exact hend
    | some function =>
      rw [hold, Option.map_some] at hlow
      obtain ⟨other, hother, hsize⟩ := Option.map_eq_some_iff.mp hlow
      rw [hold] at hend
      rw [hother]
      dsimp only at hend ⊢
      rwa [hsize]

theorem shardReaches_self (functions : FunctionMap) (start : BitVec 32) :
    ShardReaches functions start start := by
  refine ⟨fun _ _ hlt => hlt, ?_⟩
  split
  · rename_i function _
    by_cases hsize : function.size = 0
    · exact .inl hsize
    · right
      bv_omega
  · have hbytes : orphanShardBytes.toNat = 4096 := rfl
    omega

theorem le_shardEnd (functions : FunctionMap) (start : BitVec 32) :
    start ≤ (shardBounds functions start).2 :=
  (le_shardBounds_iff le_rfl).mpr (shardReaches_self functions start)

theorem lt_of_lastUpTo_none (h : functions.lastUpTo address = none) {entry : BitVec 32}
    (hfind : (functions.find entry).isSome) : address < entry := by
  obtain ⟨function, hfunction⟩ := Option.isSome_iff_exists.mp hfind
  by_contra hle
  obtain ⟨last, hlast⟩ :=
    OrderedMap.lastUpTo_isSome (OrderedMap.mem_of_find hfunction) (not_lt.mp hle)
  rw [h] at hlast
  cases hlast

theorem le_of_lastUpTo {owner : BitVec 32 × FunctionCandidate}
    (h : functions.lastUpTo address = some owner) {entry : BitVec 32}
    (hfind : (functions.find entry).isSome) (hle : entry ≤ address) : entry ≤ owner.1 := by
  obtain ⟨function, hfunction⟩ := Option.isSome_iff_exists.mp hfind
  exact (OrderedMap.lastUpTo_spec h).2.2 _ (OrderedMap.mem_of_find hfunction) hle

theorem shardReaches_of_orphan {low : BitVec 32} (hpage : address.toNat < low.toNat + 4096)
    (hle : low ≤ address)
    (hfree : ∀ entry, (functions.find entry).isSome → entry ≤ address → entry < low) :
    ShardReaches functions low address := by
  constructor
  · intro entry hfind hlt
    by_contra hnot
    exact absurd (hfree entry hfind (not_lt.mp hnot)) hlt.asymm
  · split
    · rename_i function hfunction
      exact absurd (hfree low (by rw [hfunction]; rfl) hle) (lt_irrefl _)
    · exact hpage

/-- Start and bounds fit: the shard that an address asks for holds it. -/
theorem shardStart_reaches (functions : FunctionMap) (address : BitVec 32) :
    ShardReaches functions (shardStart functions address) address := by
  have hpage := toNat_page address
  have hle := shardStart_le functions address
  have hmod := Nat.mod_lt address.toNat (by decide : 0 < 4096)
  unfold shardStart at hle ⊢
  dsimp only at hle ⊢
  cases howner : functions.lastUpTo address with
  | none =>
    dsimp only
    refine shardReaches_of_orphan (by omega) (page_le address) fun entry hfind hentry => ?_
    exact absurd (lt_of_lastUpTo_none howner hfind) hentry.not_gt
  | some found =>
    obtain ⟨entry, owner⟩ := found
    rw [howner] at hle
    obtain ⟨hmem, hentry, -⟩ := OrderedMap.lastUpTo_spec howner
    dsimp only at hle hmem hentry ⊢
    split
    · -- the owner holds the address, and the next function is behind it
      rename_i hinside
      refine ⟨fun other hfind hlt => ?_, ?_⟩
      · by_contra hnot
        exact absurd (le_of_lastUpTo howner hfind (not_lt.mp hnot)) hlt.not_ge
      · rw [OrderedMap.find_of_mem hmem]
        exact hinside
    · rename_i hinside
      obtain ⟨hsize, hbehind⟩ := not_or.mp hinside
      rw [if_neg hinside] at hle
      have hlt := address.isLt
      have hafter : entry.toNat + owner.size.toNat ≤ maximumAddress := by
        unfold maximumAddress
        omega
      rw [if_pos ⟨hsize, hafter⟩] at hle ⊢
      unfold maximumAddress at hafter
      have hlow : (address &&& ~~~(orphanShardBytes - 1)) ≤
        max (address &&& ~~~(orphanShardBytes - 1))
          (BitVec.ofNat 32 (entry.toNat + owner.size.toNat)) := le_max_left _ _
      have hend : BitVec.ofNat 32 (entry.toNat + owner.size.toNat) ≤
        max (address &&& ~~~(orphanShardBytes - 1))
          (BitVec.ofNat 32 (entry.toNat + owner.size.toNat)) := le_max_right _ _
      have hstep : entry < BitVec.ofNat 32 (entry.toNat + owner.size.toNat) := by
        have hpos : 0 < owner.size.toNat := by bv_omega
        rw [BitVec.lt_def, BitVec.toNat_ofNat]
        omega
      refine shardReaches_of_orphan ?_ hle fun other hfind hother => ?_
      · rw [BitVec.le_def] at hlow
        omega
      · exact (le_of_lastUpTo howner hfind hother).trans_lt (hstep.trans_le hend)

end

/-! ## Lines and functions of a round -/

/-- The functions with one of them changed; without evidence it goes. -/
def storeFunction (functions : FunctionMap) (changed : BitVec 32 × FunctionCandidate) :
    FunctionMap :=
  if changed.2.evidence ≠ .unresolved then functions.insertOrAssign changed.1 changed.2
  else functions.erase changed.1

/-- The lines with the delta taken over. -/
def RecursiveDelta.nextLines (lines : LineMap) : RecursiveDelta → LineMap
  | .changes instructions _ =>
    instructions.foldl (fun lines line => lines.insertOrAssign line.address line) lines
  | .completeRebase next _ =>
    let gone := lines.entries.filter fun previous =>
      !(next.find previous.1).any (sameRecursiveLine previous.2)
    next.entries.foldl (fun lines entry =>
      if (lines.find entry.1).any (sameRecursiveLine · entry.2) then lines
      else lines.insertOrAssign entry.2.address entry.2)
      (gone.foldl (fun lines previous => lines.erase previous.1) lines)

/-- The functions with the delta taken over. -/
def RecursiveDelta.nextFunctions (functions : FunctionMap) : RecursiveDelta → FunctionMap
  | .changes _ changed => changed.foldl storeFunction functions
  | .completeRebase _ next => (rebasedFunctions functions next).foldl storeFunction functions

/-- The function at the entry ends in front of the address. -/
def EndsAt (functions : FunctionMap) (entry address : BitVec 32) : Prop :=
  ∃ size, contract functions entry = some size ∧ size ≠ 0 ∧
    entry.toNat + size.toNat = address.toNat

theorem contract_storeFunction (functions : FunctionMap) (changed : BitVec 32 × FunctionCandidate)
    (entry : BitVec 32) : contract (storeFunction functions changed) entry =
      if entry = changed.1 then
        if changed.2.evidence ≠ .unresolved then some changed.2.size else none
      else contract functions entry := by
  unfold contract storeFunction
  by_cases hactive : changed.2.evidence ≠ .unresolved
  · rw [if_pos hactive, if_pos hactive, OrderedMap.find_insertOrAssign]
    split <;> rfl
  · rw [if_neg hactive, if_neg hactive, OrderedMap.find_erase]
    split <;> rfl

namespace ScanRound
variable {components : ComponentMap} {round next : ScanRound}

@[simp]
theorem lines_markDirty (round : ScanRound) (address : BitVec 32) :
    (round.markDirty address).lines = round.lines := rfl

@[simp]
theorem functions_markDirty (round : ScanRound) (address : BitVec 32) :
    (round.markDirty address).functions = round.functions := rfl

@[simp]
theorem lines_retainOldComponent (components : ComponentMap) (round : ScanRound)
    (address : BitVec 32) : (round.retainOldComponent components address).lines = round.lines := by
  unfold retainOldComponent
  split <;> rfl

@[simp]
theorem functions_retainOldComponent (components : ComponentMap) (round : ScanRound)
    (address : BitVec 32) :
    (round.retainOldComponent components address).functions = round.functions := by
  unfold retainOldComponent
  split <;> rfl

@[simp]
theorem lines_releaseTarget (components : ComponentMap) (round : ScanRound)
    (previous : DisassemblyLine) :
    (round.releaseTarget components previous).lines = round.lines := by
  unfold releaseTarget
  split <;> simp

@[simp]
theorem functions_releaseTarget (components : ComponentMap) (round : ScanRound)
    (previous : DisassemblyLine) :
    (round.releaseTarget components previous).functions = round.functions := by
  unfold releaseTarget
  split <;> simp

@[simp]
theorem lines_markEnd (round : ScanRound) (entry size : BitVec 32) :
    (round.markEnd entry size).lines = round.lines := by
  unfold markEnd
  split <;> simp

@[simp]
theorem functions_markEnd (round : ScanRound) (entry size : BitVec 32) :
    (round.markEnd entry size).functions = round.functions := by
  unfold markEnd
  split <;> simp

theorem lines_applyLine (components : ComponentMap) (round : ScanRound) (line : DisassemblyLine) :
    (round.applyLine components line).lines = round.lines.insertOrAssign line.address line := by
  unfold applyLine
  dsimp only
  split <;> split <;> simp

theorem functions_applyLine (components : ComponentMap) (round : ScanRound)
    (line : DisassemblyLine) : (round.applyLine components line).functions = round.functions := by
  unfold applyLine
  dsimp only
  split <;> split <;> simp

theorem lines_dropLine (components : ComponentMap) (round : ScanRound)
    (previous : BitVec 32 × DisassemblyLine) :
    (round.dropLine components previous).lines = round.lines.erase previous.1 := by
  simp [dropLine]

theorem functions_dropLine (components : ComponentMap) (round : ScanRound)
    (previous : BitVec 32 × DisassemblyLine) :
    (round.dropLine components previous).functions = round.functions := by
  simp [dropLine]

theorem lines_applyFunction (components : ComponentMap) (round : ScanRound)
    (changed : BitVec 32 × FunctionCandidate) :
    (round.applyFunction components changed).lines = round.lines := by
  unfold applyFunction
  dsimp only
  split_ifs <;> simp

theorem functions_applyFunction (components : ComponentMap) (round : ScanRound)
    (changed : BitVec 32 × FunctionCandidate) :
    (round.applyFunction components changed).functions = storeFunction round.functions changed := by
  unfold applyFunction storeFunction
  dsimp only
  split_ifs <;> simp_all

end ScanRound

namespace ScanRound
variable {components : ComponentMap} {round next : ScanRound}

theorem foldl_kept {α β : Type} (f : ScanRound → β) {step : ScanRound → α → ScanRound}
    (h : ∀ round item, f (step round item) = f round) (items : List α) :
    f (items.foldl step round) = f round := by
  induction items generalizing round with
  | nil => rfl
  | cons item rest ih => exact ih.trans (h round item)

theorem lines_rebaseLines (components : ComponentMap) (round : ScanRound) (lines : LineMap)
    (functions : FunctionMap) : (round.rebaseLines components lines).lines =
      (RecursiveDelta.completeRebase lines functions).nextLines round.lines := by
  unfold rebaseLines RecursiveDelta.nextLines
  dsimp only
  have hdrop : ∀ round previous, OrderedMap.erase (ScanRound.lines round) previous.1 =
      (dropLine components round previous).lines :=
    fun round previous => (lines_dropLine components round previous).symm
  rw [List.foldl_hom ScanRound.lines hdrop]
  refine (List.foldl_hom ScanRound.lines fun round entry => ?_).symm
  split
  · rfl
  · rw [lines_applyLine]

theorem functions_rebaseLines (components : ComponentMap) (round : ScanRound) (lines : LineMap) :
    (round.rebaseLines components lines).functions = round.functions := by
  unfold rebaseLines
  refine (foldl_kept ScanRound.functions (fun round entry => ?_) _).trans
    (foldl_kept ScanRound.functions (functions_dropLine components) _)
  split
  · rfl
  · exact functions_applyLine components round _

end ScanRound

namespace IncrementalCfaScanCache

/-- The round has the lines and the functions that the delta says. -/
theorem lines_receive (cache : IncrementalCfaScanCache) (input : ScanInput) :
    (cache.receive input).lines = input.delta.nextLines cache.lines := by
  unfold receive
  extract_lets round received
  refine (ScanRound.foldl_kept ScanRound.lines ScanRound.lines_markDirty _).trans ?_
  unfold received
  cases input.delta with
  | changes instructions functions =>
    refine (ScanRound.foldl_kept ScanRound.lines
      (ScanRound.lines_applyFunction cache.components) _).trans ?_
    exact (List.foldl_hom ScanRound.lines fun round line =>
      (ScanRound.lines_applyLine cache.components round line).symm).symm
  | completeRebase lines functions =>
    refine (ScanRound.foldl_kept ScanRound.lines
      (ScanRound.lines_applyFunction cache.components) _).trans ?_
    exact ScanRound.lines_rebaseLines cache.components round lines functions

theorem functions_receive (cache : IncrementalCfaScanCache) (input : ScanInput) :
    (cache.receive input).functions = input.delta.nextFunctions cache.functions := by
  unfold receive
  extract_lets round received
  refine (ScanRound.foldl_kept ScanRound.functions ScanRound.functions_markDirty _).trans ?_
  have happly : ∀ round changed, storeFunction round.functions changed =
      (ScanRound.applyFunction cache.components round changed).functions :=
    fun round changed => (ScanRound.functions_applyFunction cache.components round changed).symm
  unfold received
  cases input.delta with
  | changes instructions functions =>
    dsimp only
    rw [← List.foldl_hom ScanRound.functions happly, ScanRound.foldl_kept ScanRound.functions
      (ScanRound.functions_applyLine cache.components)]
    rfl
  | completeRebase lines functions =>
    dsimp only
    rw [← List.foldl_hom ScanRound.functions happly, ScanRound.functions_rebaseLines]
    rfl

end IncrementalCfaScanCache

/-! ## What a round collects -/

namespace ScanRound
variable {components : ComponentMap} {round next : ScanRound}

/-- What was dirty or requested stays so, and only components are requested. -/
structure Grows (components : ComponentMap) (round next : ScanRound) : Prop where
  dirty : ∀ address, (round.dirtyAddresses.find address).isSome →
    (next.dirtyAddresses.find address).isSome
  starts : ∀ start, (round.dirtyComponentStarts.find start).isSome →
    (next.dirtyComponentStarts.find start).isSome
  held : ∀ start, (next.dirtyComponentStarts.find start).isSome →
    (round.dirtyComponentStarts.find start).isSome ∨ (components.find start).isSome

theorem Grows.refl (components : ComponentMap) (round : ScanRound) :
    Grows components round round := ⟨fun _ h => h, fun _ h => h, fun _ => .inl⟩

theorem Grows.trans {last : ScanRound} (h : Grows components round next)
    (h' : Grows components next last) : Grows components round last where
  dirty address hdirty := h'.dirty address (h.dirty address hdirty)
  starts start hstart := h'.starts start (h.starts start hstart)
  held start hstart := (h'.held start hstart).elim (h.held start) .inr

theorem isSome_emplace {set : AddressSet} {first address : BitVec 32} :
    ((set.emplace first ()).find address).isSome ↔ address = first ∨ (set.find address).isSome :=
  (find_insertAll set [first] address).trans (by rw [List.mem_singleton])

theorem grows_markDirty (components : ComponentMap) (round : ScanRound) (address : BitVec 32) :
    Grows components round (round.markDirty address) :=
  ⟨fun _ h => isSome_emplace.mpr (.inr h), fun _ h => h, fun _ => .inl⟩

theorem dirty_markDirty (round : ScanRound) (address : BitVec 32) :
    ((round.markDirty address).dirtyAddresses.find address).isSome := isSome_emplace.mpr (.inl rfl)

theorem grows_retainOldComponent (components : ComponentMap) (round : ScanRound)
    (address : BitVec 32) :
    Grows components round (round.retainOldComponent components address) := by
  unfold retainOldComponent
  split
  · exact .refl components round
  · rename_i found hfound
    refine ⟨fun _ h => h, fun _ h => isSome_emplace.mpr (.inr h), fun start h => ?_⟩
    rcases isSome_emplace.mp h with rfl | h
    · exact .inr (by rw [(OrderedMap.find_of_containing hfound).1]; rfl)
    · exact .inl h

theorem starts_retainOldComponent {address start : BitVec 32} {component : Component}
    (h : componentContaining components address = some (start, component)) :
    ((round.retainOldComponent components address).dirtyComponentStarts.find start).isSome := by
  unfold retainOldComponent
  rw [h]
  exact isSome_emplace.mpr (.inl rfl)

theorem grows_releaseTarget (components : ComponentMap) (round : ScanRound)
    (previous : DisassemblyLine) :
    Grows components round (round.releaseTarget components previous) := by
  unfold releaseTarget
  split
  · exact .refl components round
  · exact (grows_retainOldComponent components round _).trans (grows_markDirty components _ _)

theorem grows_markEnd (components : ComponentMap) (round : ScanRound) (entry size : BitVec 32) :
    Grows components round (round.markEnd entry size) := by
  unfold markEnd
  split
  · exact grows_markDirty components round _
  · exact .refl components round

theorem dirty_markEnd {entry size address : BitVec 32}
    (h : entry.toNat + size.toNat = address.toNat) :
    ((round.markEnd entry size).dirtyAddresses.find address).isSome := by
  have hlt := address.isLt
  unfold markEnd maximumAddress
  rw [if_pos (by omega), h, BitVec.ofNat_toNat, BitVec.setWidth_eq]
  exact dirty_markDirty round address

theorem dirty_foldl_markDirty {addresses : List (BitVec 32)} {address : BitVec 32}
    (h : address ∈ addresses) :
    ((addresses.foldl markDirty round).dirtyAddresses.find address).isSome := by
  have hset : (addresses.foldl markDirty round).dirtyAddresses =
      insertAll round.dirtyAddresses addresses :=
    (List.foldl_hom ScanRound.dirtyAddresses fun _ _ => rfl).symm
  rw [hset]
  exact (find_insertAll _ _ _).mpr (.inl h)

/-- The address is dirty, and the component that held it is requested. -/
def Noted (components : ComponentMap) (round : ScanRound) (address : BitVec 32) : Prop :=
  (round.dirtyAddresses.find address).isSome ∧
    ∀ start component, componentContaining components address = some (start, component) →
      (round.dirtyComponentStarts.find start).isSome

theorem Noted.grow {address : BitVec 32} (h : Noted components round address)
    (hgrows : Grows components round next) : Noted components next address :=
  ⟨hgrows.dirty _ h.1, fun start component hin => hgrows.starts _ (h.2 start component hin)⟩

theorem applyLine_spec (components : ComponentMap) (round : ScanRound) (line : DisassemblyLine) :
    Grows components round (round.applyLine components line) ∧
      Noted components (round.applyLine components line) line.address := by
  unfold ScanRound.applyLine
  extract_lets marked released stored
  have hmarked : Grows components round marked :=
    (grows_markDirty components round _).trans (grows_retainOldComponent _ _ _)
  have hnoted : Noted components marked line.address :=
    ⟨(grows_retainOldComponent _ _ _).dirty _ (dirty_markDirty round _),
      fun _ _ hin => starts_retainOldComponent hin⟩
  have hreleased : Grows components marked released := by
    unfold released
    split
    · exact .refl components marked
    · exact grows_releaseTarget _ _ _
  have hstored : Grows components released stored :=
    ⟨fun _ h => h, fun _ h => h, fun _ => .inl⟩
  have hwhole : Grows components marked stored := hreleased.trans hstored
  split
  · exact ⟨hmarked.trans hwhole, hnoted.grow hwhole⟩
  · rename_i target _
    have hlast := hwhole.trans (grows_markDirty components stored target)
    exact ⟨hmarked.trans hlast, hnoted.grow hlast⟩

theorem dropLine_spec (components : ComponentMap) (round : ScanRound)
    (previous : BitVec 32 × DisassemblyLine) :
    Grows components round (round.dropLine components previous) ∧
      Noted components (round.dropLine components previous) previous.1 := by
  unfold ScanRound.dropLine
  extract_lets released marked
  have hreleased := grows_releaseTarget components (round.retainOldComponent components previous.1)
    previous.2
  have hmarked : Grows components released marked := grows_markDirty components _ _
  have hall := (grows_retainOldComponent components round previous.1).trans
    (hreleased.trans hmarked)
  exact ⟨⟨hall.dirty, hall.starts, hall.held⟩, dirty_markDirty _ _, fun _ _ hin =>
    hmarked.starts _ (hreleased.starts _ (starts_retainOldComponent hin))⟩

/-- The function is noted at its entry and in front of it, and its ends before and after are
dirty. -/
structure FunctionNoted (components : ComponentMap) (before after : FunctionMap)
    (round : ScanRound) (entry : BitVec 32) : Prop where
  atEntry : Noted components round entry
  ahead : 2 ≤ entry → Noted components round (entry - 2)
  ended : ∀ address, EndsAt before entry address ∨ EndsAt after entry address →
    (round.dirtyAddresses.find address).isSome

/-- A function that comes, goes or changes its size is noted; else nothing is requested. -/
theorem applyFunction_spec (components : ComponentMap) (round : ScanRound)
    (changed : BitVec 32 × FunctionCandidate) :
    Grows components round (round.applyFunction components changed) ∧
      ((round.applyFunction components changed).dirtyComponentStarts =
            round.dirtyComponentStarts ∧
          contract (storeFunction round.functions changed) changed.1 =
            contract round.functions changed.1 ∨
        FunctionNoted components round.functions (storeFunction round.functions changed)
          (round.applyFunction components changed) changed.1) := by
  obtain ⟨entry, function⟩ := changed
  have hcontract := contract_storeFunction round.functions (entry, function) entry
  rw [if_pos rfl] at hcontract
  dsimp only at hcontract ⊢
  unfold ScanRound.applyFunction
  dsimp -zeta only
  extract_lets previous previousSize nextActive nextSize changes atEntry retained ended stored
    marked before
  by_cases htrue : changes = true
  · have hretained : Grows components round retained ∧
        (∀ start component, componentContaining components entry = some (start, component) →
          (retained.dirtyComponentStarts.find start).isSome) ∧
        (2 ≤ entry → ∀ start component,
          componentContaining components (entry - 2) = some (start, component) →
            (retained.dirtyComponentStarts.find start).isSome) := by
      unfold retained atEntry
      rw [if_pos htrue]
      have hgrows := grows_retainOldComponent components round entry
      split
      · have hgrows' := grows_retainOldComponent components
          (round.retainOldComponent components entry) (entry - 2)
        exact ⟨hgrows.trans hgrows', fun start _ hin => hgrows'.starts start
          (starts_retainOldComponent hin), fun _ _ _ hin => starts_retainOldComponent hin⟩
      · rename_i hlow
        exact ⟨hgrows, fun _ _ hin => starts_retainOldComponent hin, fun h => absurd h hlow⟩
    have hended : Grows components retained ended ∧ ∀ address,
        EndsAt round.functions entry address → (ended.dirtyAddresses.find address).isSome := by
      unfold ended EndsAt contract
      split_ifs with hold
      · refine ⟨grows_markEnd _ _ _ _, ?_⟩
        rintro address ⟨size, hsize, -, hend⟩
        refine dirty_markEnd ?_
        unfold previousSize previous
        rwa [hsize]
      · refine ⟨.refl components retained, ?_⟩
        rintro address ⟨size, hsize, hne, -⟩
        refine absurd ?_ hold
        unfold previousSize previous
        cases hfind : round.functions.find entry with
        | none => rw [hfind] at hsize; cases hsize
        | some old => simp_all
    have hmarked : Grows components stored marked := grows_markDirty components _ _
    have hbefore : Grows components marked before ∧
        (2 ≤ entry → (before.dirtyAddresses.find (entry - 2)).isSome) := by
      unfold before
      split
      · exact ⟨grows_markDirty components _ _, fun _ => dirty_markDirty _ _⟩
      · rename_i hlow
        exact ⟨.refl components marked, fun h => absurd h hlow⟩
    have hentry := hbefore.1.dirty _ (dirty_markDirty stored entry)
    have hstored : Grows components ended before :=
      ⟨(hmarked.trans hbefore.1).dirty, (hmarked.trans hbefore.1).starts,
        (hmarked.trans hbefore.1).held⟩
    have hrequested := (hended.1.trans hstored).starts
    have hlast : ∀ last, Grows components before last →
        (∀ address, EndsAt (storeFunction round.functions (entry, function)) entry address →
          (last.dirtyAddresses.find address).isSome) →
        Grows components round last ∧ FunctionNoted components round.functions
          (storeFunction round.functions (entry, function)) last entry := by
      intro last hgrows hnew
      refine ⟨hretained.1.trans (hended.1.trans (hstored.trans hgrows)),
        ⟨hgrows.dirty _ hentry, fun start component hin =>
          hgrows.starts _ (hrequested start (hretained.2.1 start component hin))⟩,
        fun hlow => ⟨hgrows.dirty _ (hbefore.2 hlow), fun start component hin =>
          hgrows.starts _ (hrequested start (hretained.2.2 hlow start component hin))⟩, ?_⟩
      rintro address (hold | h)
      · exact hgrows.dirty _ (hstored.dirty _ (hended.2 address hold))
      · exact hnew address h
    rw [if_pos htrue]
    split
    · refine (hlast _ (grows_markEnd components before entry nextSize) ?_).imp_right .inr
      rintro address ⟨size, hsize, -, hend⟩
      rw [hcontract] at hsize
      refine dirty_markEnd ?_
      unfold nextSize nextActive
      simp_all
    · rename_i hnew
      refine (hlast _ (.refl components before) ?_).imp_right .inr
      rintro address ⟨size, hsize, hne, -⟩
      refine absurd ?_ hnew
      rw [hcontract] at hsize
      unfold nextSize nextActive
      simp_all
  · have hretained : retained = round := if_neg htrue
    have hended : ended = round := by simp [ended, htrue, hretained]
    rw [if_neg htrue]
    have hdirty : ended.dirtyAddresses = round.dirtyAddresses := by rw [hended]
    have hstarts : ended.dirtyComponentStarts = round.dirtyComponentStarts := by rw [hended]
    refine ⟨⟨fun _ h => ?_, fun _ h => ?_, fun _ h => ?_⟩, .inl ⟨hstarts, ?_⟩⟩
    · exact hdirty ▸ h
    · exact hstarts ▸ h
    · exact .inl (hstarts ▸ h)
    · rw [hcontract]
      unfold contract
      unfold changes nextSize nextActive previousSize previous at htrue
      cases hfind : round.functions.find entry with
      | none => simp_all
      | some old => simp_all

/-- Changed lines and functions are noted, and only components are requested, and none
without a dirty address. -/
structure Collects (cache : IncrementalCfaScanCache) (round : ScanRound) : Prop where
  lines : ∀ address, round.lines.find address ≠ cache.lines.find address →
    Noted cache.components round address
  functions : ∀ entry, contract round.functions entry ≠ contract cache.functions entry →
    FunctionNoted cache.components cache.functions round.functions round entry
  held : ∀ start, (round.dirtyComponentStarts.find start).isSome →
    (cache.components.find start).isSome
  marked : ∀ start, (round.dirtyComponentStarts.find start).isSome →
    ∃ address, (round.dirtyAddresses.find address).isSome

/-- A step may change what it notes, and may request where it marks. -/
theorem Collects.step {cache : IncrementalCfaScanCache} (h : Collects cache round)
    (hgrows : Grows cache.components round next)
    (hlines : ∀ address, next.lines.find address ≠ round.lines.find address →
      Noted cache.components next address)
    (hfunctions : ∀ entry, contract next.functions entry ≠ contract round.functions entry →
      FunctionNoted cache.components cache.functions next.functions next entry)
    (hmarked : next.dirtyComponentStarts = round.dirtyComponentStarts ∨
      ∃ address, (next.dirtyAddresses.find address).isSome) : Collects cache next where
  lines address hne := by
    by_cases hsame : next.lines.find address = round.lines.find address
    · exact (h.lines address (hsame ▸ hne)).grow hgrows
    · exact hlines address hsame
  functions entry hne := by
    by_cases hsame : contract next.functions entry = contract round.functions entry
    · obtain ⟨hentry, hbefore, hended⟩ := h.functions entry (hsame ▸ hne)
      refine ⟨hentry.grow hgrows, fun hlow => (hbefore hlow).grow hgrows, ?_⟩
      intro address hend
      unfold EndsAt at hend
      rw [hsame] at hend
      exact hgrows.dirty _ (hended address hend)
    · exact hfunctions entry hsame
  held start hstart := (hgrows.held start hstart).elim (h.held start) id
  marked start hstart := by
    rcases hmarked with hsame | hdirty
    · obtain ⟨address, hdirty⟩ := h.marked start (hsame ▸ hstart)
      exact ⟨address, hgrows.dirty address hdirty⟩
    · exact hdirty

variable {cache : IncrementalCfaScanCache} (h : Collects cache round)
include h

theorem Collects.markDirty (address : BitVec 32) : Collects cache (round.markDirty address) :=
  h.step (grows_markDirty _ round address) (fun _ hne => absurd rfl hne)
    (fun _ hne => absurd rfl hne) (.inl rfl)

theorem Collects.applyLine
    (line : DisassemblyLine) : Collects cache (round.applyLine cache.components line) := by
  obtain ⟨hgrows, hnoted⟩ := applyLine_spec cache.components round line
  refine h.step hgrows (fun address hne => ?_) (fun entry hne => absurd ?_ hne)
    (.inr ⟨line.address, hnoted.1⟩)
  · rw [lines_applyLine, OrderedMap.find_insertOrAssign] at hne
    obtain rfl : address = line.address := by
      by_contra hother
      exact hne (if_neg hother)
    exact hnoted
  · rw [functions_applyLine]

theorem Collects.dropLine (previous : BitVec 32 × DisassemblyLine) :
    Collects cache (round.dropLine cache.components previous) := by
  obtain ⟨hgrows, hnoted⟩ := dropLine_spec cache.components round previous
  refine h.step hgrows (fun address hne => ?_) (fun entry hne => absurd ?_ hne)
    (.inr ⟨previous.1, hnoted.1⟩)
  · rw [lines_dropLine, OrderedMap.find_erase] at hne
    obtain rfl : address = previous.1 := by
      by_contra hother
      exact hne (if_neg hother)
    exact hnoted
  · rw [functions_dropLine]

theorem Collects.applyFunction (changed : BitVec 32 × FunctionCandidate) :
    Collects cache (round.applyFunction cache.components changed) := by
  obtain ⟨hgrows, hspec⟩ := applyFunction_spec cache.components round changed
  refine h.step hgrows (fun address hne => absurd ?_ hne) (fun entry hne => ?_)
    (hspec.imp (fun hsame => hsame.1) fun hnoted => ⟨changed.1, hnoted.atEntry.1⟩)
  · rw [lines_applyFunction]
  · rw [functions_applyFunction] at hne ⊢
    obtain rfl : entry = changed.1 := by
      by_contra hother
      rw [contract_storeFunction, if_neg hother] at hne
      exact hne rfl
    obtain ⟨hentry, hahead, hended⟩ := hspec.resolve_left fun hsame => hne hsame.2
    refine ⟨hentry, hahead, fun address hend => ?_⟩
    rcases hend with hold | hnew
    · -- the first change of the entry marks the end that the cache has
      by_cases hsame : contract round.functions changed.1 = contract cache.functions changed.1
      · unfold EndsAt at hold
        rw [← hsame] at hold
        exact hended address (.inl hold)
      · exact hgrows.dirty _ ((h.functions _ hsame).ended address (.inl hold))
    · exact hended address (.inr hnew)

omit h

theorem Collects.foldl {α : Type} {step : ScanRound → α → ScanRound}
    (hstep : ∀ {round : ScanRound}, Collects cache round → ∀ item, Collects cache (step round item))
    (items : List α) (h : Collects cache round) : Collects cache (items.foldl step round) := by
  induction items generalizing round with
  | nil => exact h
  | cons item rest ih => exact ih (hstep h item)

theorem Collects.rebaseLines (h : Collects cache round)
    (lines : LineMap) : Collects cache (round.rebaseLines cache.components lines) := by
  refine Collects.foldl (fun hround entry => ?_) _ (Collects.foldl Collects.dropLine _ h)
  split
  · exact hround
  · exact hround.applyLine _

end ScanRound

theorem IncrementalCfaScanCache.receive_collects (cache : IncrementalCfaScanCache)
    (input : ScanInput) : (cache.receive input).Collects cache := by
  have hstart : ScanRound.Collects cache { lines := cache.lines, functions := cache.functions } :=
    ⟨fun _ hne => absurd rfl hne, fun _ hne => absurd rfl hne, fun start h => by simp at h,
      fun start h => by simp at h⟩
  unfold receive
  extract_lets round received
  refine ScanRound.Collects.foldl ScanRound.Collects.markDirty _ ?_
  unfold received
  split
  · exact ScanRound.Collects.foldl ScanRound.Collects.applyFunction _
      (ScanRound.Collects.foldl ScanRound.Collects.applyLine _ hstart)
  · exact ScanRound.Collects.foldl ScanRound.Collects.applyFunction _ (hstart.rebaseLines _)

/-! ## What the rebuild leaves -/

/-- The starts whose shards a round rebuilds: of a component that it retained, or of a
dirty address with a line. -/
def ScanRound.Requests (round : ScanRound) (start : BitVec 32) : Prop :=
  (round.dirtyComponentStarts.find start).isSome ∨
    ∃ address, (round.dirtyAddresses.find address).isSome ∧ (round.lines.find address).isSome ∧
      shardStart round.functions address = start

theorem mem_keys_iff {set : AddressSet} {address : BitVec 32} :
    address ∈ set.entries.map (·.1) ↔ (set.find address).isSome := by
  rw [Option.isSome_iff_exists, List.mem_map]
  constructor
  · rintro ⟨entry, hentry, rfl⟩
    exact ⟨entry.2, OrderedMap.find_of_mem hentry⟩
  · rintro ⟨value, hvalue⟩
    exact ⟨(address, value), OrderedMap.mem_of_find hvalue, rfl⟩

namespace ScanRound
variable {round : ScanRound} {starts : AddressSet} {start : BitVec 32}

theorem find_requestStarts : ((round.requestStarts starts).find start).isSome ↔
    (starts.find start).isSome ∨ ∃ address, (round.dirtyAddresses.find address).isSome ∧
        (round.lines.find address).isSome ∧ shardStart round.functions address = start := by
  unfold requestStarts
  rw [find_insertAll, or_comm, List.mem_map]
  refine or_congr_right ?_
  simp only [List.mem_filter, mem_keys_iff, and_assoc]

theorem find_foldl_erase (components : ComponentMap) (keys : List (BitVec 32)) :
    (keys.foldl OrderedMap.erase components).find start =
      if start ∈ keys then none else components.find start := by
  induction keys generalizing components with
  | nil => simp
  | cons key rest ih =>
    rw [List.foldl_cons, ih, OrderedMap.find_erase]
    by_cases hrest : start ∈ rest <;> by_cases hkey : start = key <;> simp [hrest, hkey]

theorem find_rebuild (round : ScanRound) (components : ComponentMap) (key : BitVec 32) :
    (round.rebuild components key).find start =
      if start = key then some ((components.find key).getD (round.shard key))
      else components.find start := by
  have hbegin : (round.shard key).beginAddress = key := shardBounds_fst _ _
  unfold rebuild
  dsimp only
  rw [hbegin]
  cases hfind : components.find key with
  | none =>
    rw [if_neg (by simp), OrderedMap.find_insertOrAssign]
    rfl
  | some component =>
    rw [if_pos (by simp)]
    split
    · rename_i heq
      rw [heq, hfind]
      rfl
    · rfl

theorem find_foldl_rebuild (components : ComponentMap) (keys : List (BitVec 32)) :
    (keys.foldl round.rebuild components).find start =
      if start ∈ keys then some ((components.find start).getD (round.shard start))
      else components.find start := by
  induction keys generalizing components with
  | nil => simp
  | cons key rest ih =>
    rw [List.foldl_cons, ih, find_rebuild]
    by_cases hkey : start = key
    · subst hkey
      simp
    · simp [hkey]

end ScanRound

namespace IncrementalCfaScanCache
variable {cache : IncrementalCfaScanCache} {input : ScanInput} {start : BitVec 32}

@[simp]
theorem lines_apply : (cache.apply input).lines = (cache.receive input).lines := by
  unfold apply
  dsimp only
  split <;> rfl

@[simp]
theorem functions_apply : (cache.apply input).functions = (cache.receive input).functions := by
  unfold apply
  dsimp only
  split <;> rfl

/-- A requested start gets its shard, the other components stay. -/
theorem find_apply_of_requests (h : (cache.receive input).Requests start) :
    (cache.apply input).components.find start = some ((cache.receive input).shard start) := by
  have hdirty : ∃ address, ((cache.receive input).dirtyAddresses.find address).isSome := by
    rcases h with h | ⟨address, h, -⟩
    · exact (cache.receive_collects input).marked start h
    · exact ⟨address, h⟩
  obtain ⟨address, hdirty⟩ := hdirty
  have hfull : ¬(cache.receive input).dirtyAddresses.entries.isEmpty = true := by
    intro hempty
    rw [OrderedMap.find_of_isEmpty hempty] at hdirty
    cases hdirty
  unfold apply
  dsimp only
  rw [if_neg hfull, ScanRound.find_foldl_rebuild, ScanRound.find_foldl_erase]
  simp only [mem_keys_iff, ScanRound.find_requestStarts]
  unfold ScanRound.Requests at h
  rw [if_pos (.inl h), if_pos h]
  rfl

theorem find_apply_of_not_requests (h : ¬(cache.receive input).Requests start) :
    (cache.apply input).components.find start = cache.components.find start := by
  unfold apply
  dsimp only
  split
  · rfl
  · rw [ScanRound.find_foldl_rebuild, ScanRound.find_foldl_erase]
    simp only [mem_keys_iff, ScanRound.find_requestStarts]
    unfold ScanRound.Requests at h
    rw [if_neg (fun hin => h (hin.elim id .inr)), if_neg h]

end IncrementalCfaScanCache
end KatanaRecomp.Analysis
