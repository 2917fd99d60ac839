import KatanaRecomp.Analysis.ScanShardLaws

/-! # When the shards partition the code

After each round the components should lie apart, hold every decoded line in the one
that its address asks for, and have the lines of their range. They do as long as the
starts fit: no shard runs into the start of another, and each line has the start of
the component it was in or that of something the round touches. -/
namespace KatanaRecomp.Analysis
open Lib Sh4
open scoped Lib.BitVecOrder

def Component.Holds (component : Component) (address : BitVec 32) : Prop :=
  component.beginAddress ≤ address ∧ address ≤ component.endAddress

namespace IncrementalCfaScanCache
variable {cache : IncrementalCfaScanCache} {input : ScanInput}

structure Sharded (cache : IncrementalCfaScanCache) : Prop where
  disjoint : ∀ {low high first second}, cache.components.find low = some first →
    cache.components.find high = some second → low ≠ high →
      ∀ address, first.Holds address → ¬second.Holds address
  covers : ∀ address, (cache.lines.find address).isSome → ∃ component,
      componentContaining cache.components address =
          some (shardStart cache.functions address, component) ∧
        component.beginAddress = shardStart cache.functions address ∧
        ∀ start other, cache.components.find start = some other → other.Holds address →
          start = shardStart cache.functions address
  exact : ∀ start component, cache.components.find start = some component → component.lines =
      (cache.lines.within component.beginAddress component.endAddress).map (·.2)

/-- Components begin at their key. -/
def Keyed (cache : IncrementalCfaScanCache) : Prop :=
  ∀ {start component}, cache.components.find start = some component →
    component.beginAddress = start ∧ start ≤ component.endAddress

theorem keyed_apply (h : cache.Keyed) : (cache.apply input).Keyed := by
  intro start component hfind
  by_cases hrequests : (cache.receive input).Requests start
  · rw [find_apply_of_requests hrequests] at hfind
    obtain rfl := Option.some.inj hfind
    exact ⟨shardBounds_fst _ _, le_shardEnd _ _⟩
  · rw [find_apply_of_not_requests hrequests] at hfind
    exact h hfind

/-- Ranges without a common address are those that end before the next begins. -/
theorem apart_iff (h : cache.Keyed) : cache.components.Apart Component.endAddress ↔
    ∀ {low high first second}, cache.components.find low = some first →
      cache.components.find high = some second → low ≠ high →
        ∀ address, first.Holds address → ¬second.Holds address := by
  constructor
  · intro hapart low high first second hfirst hsecond hne address hin hin'
    obtain ⟨hlow, -⟩ := h hfirst
    obtain ⟨hhigh, -⟩ := h hsecond
    rcases lt_or_gt_of_ne hne with hlt | hlt
    · exact absurd (hin.2.trans_lt (hapart hfirst hsecond hlt)) (hhigh ▸ hin'.1).not_gt
    · exact absurd (hin'.2.trans_lt (hapart hsecond hfirst hlt)) (hlow ▸ hin.1).not_gt
  · intro hdisjoint low high first second hfirst hsecond hlt
    obtain ⟨hlow, -⟩ := h hfirst
    obtain ⟨hhigh, hend⟩ := h hsecond
    by_contra hreach
    exact hdisjoint hfirst hsecond hlt.ne high ⟨hlow ▸ hlt.le, not_lt.mp hreach⟩ ⟨hhigh.le, hend⟩

theorem Sharded.apart (h : cache.Sharded) (hkeyed : cache.Keyed) :
    cache.components.Apart Component.endAddress := (apart_iff hkeyed).mpr h.disjoint

/-- No component goes further than the bounds of its start. -/
def Bounded (cache : IncrementalCfaScanCache) : Prop :=
  ∀ {start component}, cache.components.find start = some component →
    component.endAddress ≤ (shardBounds cache.functions start).2

/-- What is rebuilt lies apart from the rest, and the start of each line is rebuilt or that of
the component it was in. -/
structure ShardsFollow (cache : IncrementalCfaScanCache) (input : ScanInput) : Prop where
  rebuilt : ∀ low high, (cache.receive input).Requests low →
    (cache.receive input).Requests high ∨ (cache.components.find high).isSome →
      low < high → ¬ShardReaches (cache.receive input).functions low high
  kept : ∀ low high component, ¬(cache.receive input).Requests low →
    cache.components.find low = some component → (cache.receive input).Requests high →
      low < high → component.endAddress < high
  covered : ∀ address, ((cache.receive input).lines.find address).isSome →
    (cache.receive input).Requests (shardStart (cache.receive input).functions address) ∨
      ∃ component, componentContaining cache.components address =
        some (shardStart (cache.receive input).functions address, component)

theorem shard_end_lt_iff {low high : BitVec 32} (hlt : low < high) :
    ((cache.receive input).shard low).endAddress < high ↔
      ¬ShardReaches (cache.receive input).functions low high := by
  rw [← le_shardBounds_iff hlt.le, not_le]
  rfl

theorem ShardsFollow.apart (h : cache.ShardsFollow input) (hkeyed : cache.Keyed)
    (hsharded : cache.Sharded) : (cache.apply input).components.Apart Component.endAddress := by
  intro low high first second hfirst hsecond hlt
  by_cases hlow : (cache.receive input).Requests low
  · rw [find_apply_of_requests hlow] at hfirst
    obtain rfl := Option.some.inj hfirst
    rw [shard_end_lt_iff hlt]
    refine h.rebuilt low high hlow ?_ hlt
    by_cases hhigh : (cache.receive input).Requests high
    · exact .inl hhigh
    · rw [find_apply_of_not_requests hhigh] at hsecond
      exact .inr (by rw [hsecond]; rfl)
  · rw [find_apply_of_not_requests hlow] at hfirst
    by_cases hhigh : (cache.receive input).Requests high
    · exact h.kept low high first hlow hfirst hhigh hlt
    · rw [find_apply_of_not_requests hhigh] at hsecond
      exact hsharded.apart hkeyed hfirst hsecond hlt

/-- A component that stays has no changed line. -/
theorem find_lines_of_kept (hkeyed : cache.Keyed) (hsharded : cache.Sharded) {start : BitVec 32}
    {component : Component} (hfind : cache.components.find start = some component)
    (hkept : ¬(cache.receive input).Requests start) {address : BitVec 32}
    (hin : component.Holds address) :
    cache.lines.find address = (cache.receive input).lines.find address := by
  by_contra hne
  obtain ⟨-, htouched⟩ := (cache.receive_collects input).lines address (Ne.symm hne)
  refine hkept (.inl (htouched start component ?_))
  exact OrderedMap.containing_of_find (hsharded.apart hkeyed) hfind ((hkeyed hfind).1 ▸ hin.1) hin.2

theorem ShardsFollow.sharded (h : cache.ShardsFollow input) (hkeyed : cache.Keyed)
    (hsharded : cache.Sharded) : (cache.apply input).Sharded where
  disjoint := (apart_iff (keyed_apply hkeyed)).mp (h.apart hkeyed hsharded)
  covers address hline := by
    rw [lines_apply] at hline
    have hapart : (cache.apply input).components.Apart Component.endAddress :=
      h.apart hkeyed hsharded
    rw [functions_apply]
    have hfound : ∃ component, (cache.apply input).components.find
        (shardStart (cache.receive input).functions address) = some component ∧
          address ≤ component.endAddress := by
      by_cases hrequests :
          (cache.receive input).Requests (shardStart (cache.receive input).functions address)
      · refine ⟨_, find_apply_of_requests hrequests, ?_⟩
        exact (le_shardBounds_iff (shardStart_le _ _)).mpr (shardStart_reaches _ _)
      · obtain ⟨component, hcontaining⟩ := (h.covered address hline).resolve_left hrequests
        obtain ⟨hfind, -, hend⟩ := OrderedMap.find_of_containing hcontaining
        exact ⟨component, (find_apply_of_not_requests hrequests).trans hfind, hend⟩
    obtain ⟨component, hfind, hend⟩ := hfound
    have hkey := keyed_apply hkeyed hfind
    refine ⟨component, OrderedMap.containing_of_find hapart hfind (shardStart_le _ _) hend,
      hkey.1, fun start other hother hin => ?_⟩
    by_contra hne
    exact (apart_iff (keyed_apply hkeyed)).mp hapart hother hfind hne address hin
      ⟨hkey.1.le.trans (shardStart_le _ _), hend⟩
  exact start component hfind := by
    rw [lines_apply]
    by_cases hrequests : (cache.receive input).Requests start
    · rw [find_apply_of_requests hrequests] at hfind
      obtain rfl := Option.some.inj hfind
      rfl
    · rw [find_apply_of_not_requests hrequests] at hfind
      rw [hsharded.exact start component hfind]
      refine congrArg _ (OrderedMap.within_congr fun address hlow hhigh => ?_)
      exact find_lines_of_kept hkeyed hsharded hfind hrequests ⟨hlow, hhigh⟩

/-! ## Starts that fit -/

/-- The round changes something at the address: the line, or the function there or two bytes
behind. -/
inductive Changed (cache : IncrementalCfaScanCache) (input : ScanInput) : BitVec 32 → Prop
  | line {address} (h : (input.delta.nextLines cache.lines).find address ≠
      cache.lines.find address) : Changed cache input address
  | atEntry {entry} (h : contract (input.delta.nextFunctions cache.functions) entry ≠
      contract cache.functions entry) : Changed cache input entry
  | before {entry} (h : contract (input.delta.nextFunctions cache.functions) entry ≠
      contract cache.functions entry) (hlow : 2 ≤ entry) : Changed cache input (entry - 2)

/-- Beside what changes: the ends of a changed function and the dispatches to look at again. -/
inductive Touched (cache : IncrementalCfaScanCache) (input : ScanInput) : BitVec 32 → Prop
  | changed {address} (h : cache.Changed input address) : Touched cache input address
  | ended {entry address} (h : contract (input.delta.nextFunctions cache.functions) entry ≠
      contract cache.functions entry) (hend : EndsAt cache.functions entry address ∨
        EndsAt (input.delta.nextFunctions cache.functions) entry address) :
      Touched cache input address
  | dispatch {address} (h : address ∈ input.ingressDispatches) : Touched cache input address

/-- Where components start, and the shards of the lines after the round. -/
def starts (cache : IncrementalCfaScanCache) (input : ScanInput) : List (BitVec 32) :=
  cache.components.entries.map (·.1) ++ (input.delta.nextLines cache.lines).entries.map fun entry =>
    shardStart (input.delta.nextFunctions cache.functions) entry.1

/-- With the lines and functions that the delta gives, no start reaches another, and each line
has the start of something touched or of the component it was in. -/
structure StartsFit (cache : IncrementalCfaScanCache) (input : ScanInput) : Prop where
  apart : ∀ low ∈ cache.starts input, ∀ high ∈ cache.starts input, low < high →
    ¬ShardReaches (input.delta.nextFunctions cache.functions) low high
  owned : ∀ address, ((input.delta.nextLines cache.lines).find address).isSome →
    (∃ other, cache.Touched input other ∧
      ((input.delta.nextLines cache.lines).find other).isSome ∧
      shardStart (input.delta.nextFunctions cache.functions) other =
        shardStart (input.delta.nextFunctions cache.functions) address) ∨
    ∃ other component, (other = address ∨ cache.Changed input other) ∧
      componentContaining cache.components other =
        some (shardStart (input.delta.nextFunctions cache.functions) address, component)

theorem noted_of_changed {address : BitVec 32} (h : cache.Changed input address) :
    ScanRound.Noted cache.components (cache.receive input) address := by
  have hcollects := cache.receive_collects input
  induction h with
  | line h => exact hcollects.lines _ (by rwa [lines_receive])
  | atEntry h => exact (hcollects.functions _ (by rwa [functions_receive])).atEntry
  | before h hlow => exact (hcollects.functions _ (by rwa [functions_receive])).ahead hlow

theorem dirty_of_touched {address : BitVec 32} (h : cache.Touched input address) :
    ((cache.receive input).dirtyAddresses.find address).isSome := by
  have hcollects := cache.receive_collects input
  induction h with
  | changed h => exact (noted_of_changed h).1
  | ended h hend =>
    exact (hcollects.functions _ (by rwa [functions_receive])).ended _ (by rwa [functions_receive])
  | dispatch h => exact ScanRound.dirty_foldl_markDirty h

theorem mem_starts_of_component {start : BitVec 32} (h : (cache.components.find start).isSome) :
    start ∈ cache.starts input := by
  obtain ⟨component, hfind⟩ := Option.isSome_iff_exists.mp h
  exact List.mem_append_left _ (List.mem_map.mpr ⟨_, OrderedMap.mem_of_find hfind, rfl⟩)

/-- Only starts are requested. -/
theorem mem_starts_of_requests {start : BitVec 32} (h : (cache.receive input).Requests start) :
    start ∈ cache.starts input := by
  rcases h with h | ⟨address, -, hline, rfl⟩
  · exact mem_starts_of_component ((cache.receive_collects input).held start h)
  · obtain ⟨line, hfind⟩ := Option.isSome_iff_exists.mp hline
    rw [lines_receive] at hfind
    rw [functions_receive]
    exact List.mem_append_right _ (List.mem_map.mpr ⟨_, OrderedMap.mem_of_find hfind, rfl⟩)

/-- A component that stays has no changed function in it, so it keeps to its bounds. -/
theorem end_le_of_kept (hkeyed : cache.Keyed) (hsharded : cache.Sharded) (hbounded : cache.Bounded)
    {start : BitVec 32} {component : Component}
    (hfind : cache.components.find start = some component)
    (hkept : ¬(cache.receive input).Requests start) :
    component.endAddress ≤ (shardBounds (cache.receive input).functions start).2 := by
  obtain ⟨hbegin, hend⟩ := hkeyed hfind
  rw [le_shardBounds_iff hend]
  refine ((le_shardBounds_iff hend).mp (hbounded hfind)).congr hend fun entry hlow hhigh => ?_
  by_contra hne
  obtain ⟨-, htouched⟩ := ((cache.receive_collects input).functions entry hne).atEntry
  refine hkept (.inl (htouched start component ?_))
  exact OrderedMap.containing_of_find (hsharded.apart hkeyed) hfind hlow hhigh

theorem bounded_apply (hkeyed : cache.Keyed) (hsharded : cache.Sharded)
    (hbounded : cache.Bounded) : (cache.apply input).Bounded := by
  intro start component hfind
  rw [functions_apply]
  by_cases hrequests : (cache.receive input).Requests start
  · rw [find_apply_of_requests hrequests] at hfind
    obtain rfl := Option.some.inj hfind
    exact le_rfl
  · rw [find_apply_of_not_requests hrequests] at hfind
    exact end_le_of_kept hkeyed hsharded hbounded hfind hrequests

theorem StartsFit.follow (h : cache.StartsFit input) (hkeyed : cache.Keyed)
    (hsharded : cache.Sharded) (hbounded : cache.Bounded) : cache.ShardsFollow input where
  rebuilt low high hlow hhigh hlt := by
    rw [functions_receive]
    exact h.apart low (mem_starts_of_requests hlow) high
      (hhigh.elim mem_starts_of_requests mem_starts_of_component) hlt
  kept low high component hlow hfind hhigh hlt := by
    have hreach := h.apart low (mem_starts_of_component (by rw [hfind]; rfl)) high
      (mem_starts_of_requests hhigh) hlt
    rw [← functions_receive, ← le_shardBounds_iff hlt.le, not_le] at hreach
    exact (end_le_of_kept hkeyed hsharded hbounded hfind hlow).trans_lt hreach
  covered address hline := by
    rw [lines_receive] at hline
    rw [functions_receive]
    rcases h.owned address hline with ⟨other, htouched, hother, hstart⟩ |
      ⟨other, component, rfl | hchanged, hin⟩
    · refine .inl (.inr ⟨other, dirty_of_touched htouched, ?_, ?_⟩)
      · rwa [lines_receive]
      · rwa [functions_receive]
    · exact .inr ⟨component, hin⟩
    · exact .inl (.inl ((noted_of_changed hchanged).2 _ component hin))

/-! ## Runs -/

def run (inputs : List ScanInput) : IncrementalCfaScanCache := inputs.foldl apply {}

theorem run_append (before : List ScanInput) (input : ScanInput) :
    run (before ++ [input]) = (run before).apply input := by
  unfold run
  rw [List.foldl_append]
  rfl

theorem keyed_run (inputs : List ScanInput) : (run inputs).Keyed := by
  induction inputs using List.reverseRecOn with
  | nil => exact fun hfind => by cases hfind
  | append_singleton before input ih => exact run_append before input ▸ keyed_apply ih

theorem sharded_empty : (run []).Sharded where
  disjoint hfirst := by cases hfirst
  covers address hline := by cases hline
  exact start component hfind := by cases hfind

theorem run_bounded_sharded {inputs : List ScanInput} (hfit : ∀ before input,
    before ++ [input] <+: inputs → (run before).StartsFit input) :
    (run inputs).Sharded ∧ (run inputs).Bounded := by
  induction inputs using List.reverseRecOn with
  | nil => exact ⟨sharded_empty, fun hfind => by cases hfind⟩
  | append_singleton before input ih =>
    obtain ⟨hsharded, hbounded⟩ := ih fun earlier next hrounds =>
      hfit earlier next (hrounds.trans (List.prefix_append _ _))
    have hkeyed : (run before).Keyed := keyed_run before
    have hfollow := (hfit before input (List.prefix_refl _)).follow hkeyed hsharded hbounded
    rw [run_append]
    exact ⟨hfollow.sharded hkeyed hsharded, bounded_apply hkeyed hsharded hbounded⟩

/-- In a run whose rounds all have starts that fit, every state is sharded. -/
theorem run_sharded {inputs : List ScanInput} (hfit : ∀ before input,
    before ++ [input] <+: inputs → (run before).StartsFit input) :
    ∀ before, before <+: inputs → (run before).Sharded := fun _ hbefore =>
  (run_bounded_sharded fun earlier input hrounds => hfit earlier input (hrounds.trans hbefore)).1

/-- A function and lines without effect. -/
def functionInput (size : BitVec 32) (addresses : List (BitVec 32)) : ScanInput where
  delta := .changes
    (addresses.map fun address =>
      { address := address, opcode := 0x0009, instruction := decode 0x0009 })
    [(0x8C011000, { address := 0x8C011000, evidence := .provenComplete, size := size })]

theorem starts_apart (hcheck : ((cache.starts input).all fun low =>
      (cache.starts input).all fun high => decide (high ≤ low) ||
        decide ((shardBounds (input.delta.nextFunctions cache.functions) low).2 < high)) = true) :
    ∀ low ∈ cache.starts input, ∀ high ∈ cache.starts input, low < high →
      ¬ShardReaches (input.delta.nextFunctions cache.functions) low high := by
  intro low hlow high hhigh hlt
  have happart := List.all_eq_true.mp (List.all_eq_true.mp hcheck low hlow) high hhigh
  rw [Bool.or_eq_true, decide_eq_true_eq, decide_eq_true_eq] at happart
  rw [← le_shardBounds_iff hlt.le, not_le]
  exact happart.resolve_left hlt.not_ge

/-- A function of 256 bytes with two lines. -/
def wholeInput : ScanInput := functionInput 0x100 [0x8C011000, 0x8C011040]

/-- It is cut to 64 bytes, where the second line is. -/
def cutInput : ScanInput := functionInput 0x40 []

theorem run_sharded_cut : (run [wholeInput, cutInput]).Sharded := by
  refine run_sharded (fun before input hrounds => ?_) _ (List.prefix_refl _)
  have hcases : before = [] ∧ input = wholeInput ∨ before = [wholeInput] ∧ input = cutInput := by
    obtain ⟨rest, hrest⟩ := hrounds
    match before with
    | [] => exact .inl (by simp_all)
    | [first] => exact .inr (by simp_all)
    | first :: second :: more => simp at hrest
  rcases hcases with ⟨rfl, rfl⟩ | ⟨rfl, rfl⟩
  · refine ⟨starts_apart (by decide +kernel), fun address hline => ?_⟩
    refine .inl ⟨address, .changed (.line fun heq => ?_), hline, rfl⟩
    rw [heq] at hline
    cases hline
  · refine ⟨starts_apart (by decide +kernel), fun address hline => ?_⟩
    have hend : (run [wholeInput]).Touched cutInput 0x8C011040 := by
      have hchanged : contract (cutInput.delta.nextFunctions (run [wholeInput]).functions)
          0x8C011000 ≠ contract (run [wholeInput]).functions 0x8C011000 := by decide +kernel
      have hsize : contract (cutInput.delta.nextFunctions (run [wholeInput]).functions)
          0x8C011000 = some 0x40 := by decide +kernel
      exact .ended hchanged (.inr ⟨_, hsize, by decide, by decide⟩)
    have hkeys : (cutInput.delta.nextLines (run [wholeInput]).lines).entries.map (·.1) =
        [0x8C011000, 0x8C011040] := by decide +kernel
    obtain ⟨line, hfind⟩ := Option.isSome_iff_exists.mp hline
    have hmem := List.mem_map_of_mem (f := (·.1)) (OrderedMap.mem_of_find hfind)
    rw [hkeys] at hmem
    simp only [List.mem_cons, List.not_mem_nil, or_false] at hmem
    rcases hmem with rfl | rfl
    · have hin : (componentContaining (run [wholeInput]).components 0x8C011000).map (·.1) =
          some (shardStart (cutInput.delta.nextFunctions (run [wholeInput]).functions)
            0x8C011000) := by decide +kernel
      obtain ⟨found, hfound, hstart⟩ := Option.map_eq_some_iff.mp hin
      exact .inr ⟨0x8C011000, found.2, .inl rfl, hstart ▸ hfound⟩
    · exact .inl ⟨0x8C011040, hend, by decide +kernel, rfl⟩

/-- A function of 256 bytes, and behind it lines in its own page and in the next one. -/
def gapInput : ScanInput where
  delta := .changes
    [{ address := 0x8C011000, opcode := 0x000B, instruction := decode 0x000B },
      { address := 0x8C011200, opcode := 0x0009, instruction := decode 0x0009 },
      { address := 0x8C012050, opcode := 0x0009, instruction := decode 0x0009 }]
    [(0x8C011000, { address := 0x8C011000, confidence := .certain, evidence := .provenComplete
                    origins := [.symbol], size := 0x100 })]

/-- The shard behind the function runs a page length from there, into the next page's shard. -/
theorem gap_not_sharded : ¬∀ inputs, (run inputs).Sharded := by
  intro h
  have hbehind : ((run [gapInput]).components.find 0x8C011100).any
      (fun component => component.beginAddress ≤ 0x8C012000 &&
        0x8C012000 ≤ component.endAddress) = true := by decide +kernel
  have hpage : ((run [gapInput]).components.find 0x8C012000).any
      (fun component => component.beginAddress ≤ 0x8C012000 &&
        0x8C012000 ≤ component.endAddress) = true := by decide +kernel
  obtain ⟨first, hfirst, hin⟩ := (Option.any_eq_true _ _).mp hbehind
  obtain ⟨second, hsecond, hin'⟩ := (Option.any_eq_true _ _).mp hpage
  simp only [Bool.and_eq_true, decide_eq_true_eq] at hin hin'
  exact (h [gapInput]).disjoint hfirst hsecond (by decide) 0x8C012000 hin hin'

end IncrementalCfaScanCache
end KatanaRecomp.Analysis
