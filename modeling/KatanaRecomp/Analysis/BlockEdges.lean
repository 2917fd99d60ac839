import KatanaRecomp.Analysis.BlockCut

/-! # The edges of the basic blocks

The edges are added to blocks that are cut already: they change neither the
starts nor the lines, and those to one of the lines go to leaders. -/
namespace KatanaRecomp.Analysis
open Lib
open Sh4 (DisassemblyLine)

/-! ## What the edges leave alone -/

def outline (block : BasicBlock) : BitVec 32 × List DisassemblyLine :=
  (block.startAddress, block.lines)

theorem map_modify_same {α β : Type} (f : α → α) {view : α → β} (hsame : ∀ a, view (f a) = view a)
    (l : List α) (index : Nat) : (l.modify index f).map view = l.map view := by
  induction l generalizing index with
  | nil => simp
  | cons a rest ih => cases index <;> simp [hsame, ih]

section
variable (lines : List DisassemblyLine) (leaders : List Nat) (built : List BasicBlock)

theorem addSuccessors_outline (block : BasicBlock) :
    outline (addSuccessors lines leaders block) = outline block := by
  unfold addSuccessors
  split
  · rfl
  · dsimp only
    split
    · rfl
    · split <;> rfl

theorem addEdge_outline (blocks : List BasicBlock) (edge : ResolvedControlFlowEdge) :
    (addEdge built blocks edge).map outline = blocks.map outline := by
  unfold addEdge
  split
  · split
    · apply map_modify_same
      intro block
      rfl
    · rfl
  · rfl

theorem closeSite_outline (resolvedEdges : List ResolvedControlFlowEdge)
    (blocks : List BasicBlock) (address : BitVec 32) :
    (closeSite built resolvedEdges blocks address).map outline = blocks.map outline := by
  unfold closeSite
  split
  · split
    · apply map_modify_same
      intro block
      rfl
    · rfl
  · rfl

theorem foldl_same {α β γ : Type} {step : α → β → α} {view : α → γ}
    (hsame : ∀ a b, view (step a b) = view a) (steps : List β) (start : α) :
    view (steps.foldl step start) = view start := by
  induction steps generalizing start with
  | nil => rfl
  | cons b rest ih => rw [List.foldl_cons, ih, hsame]

end

section
variable {lines : List DisassemblyLine} {resolvedEdges : List ResolvedControlFlowEdge}
  {additional explicit : List (BitVec 32)} {position first : Nat} {block : BasicBlock}

variable (lines resolvedEdges additional explicit) in
/-- The leaders of the blocks, in order. -/
def blockLeaders : List Nat :=
  orderedLeaders lines (normalEntryLeaders lines resolvedEdges explicit) additional

variable (lines resolvedEdges additional explicit) in
/-- The lines of the block at a position that begins with a line. -/
def linesFrom (position first : Nat) : List DisassemblyLine :=
  blockLines lines (normalEntryLeaders lines resolvedEdges explicit) first
    (segmentEnd lines.length (blockLeaders lines resolvedEdges additional explicit) position)

variable (lines resolvedEdges additional explicit) in
theorem buildBasicBlocks_outline :
    (buildBasicBlocks lines resolvedEdges additional explicit).map outline =
      (blockLeaders lines resolvedEdges additional explicit).mapIdx fun position first =>
        ((lines[first]?).elim 0 (·.address),
          linesFrom lines resolvedEdges additional explicit position first) := by
  unfold buildBasicBlocks
  dsimp only
  rw [foldl_same (closeSite_outline _ resolvedEdges), foldl_same (addEdge_outline _), List.map_map]
  have hcut : outline ∘ addSuccessors lines (orderedLeaders lines
      (normalEntryLeaders lines resolvedEdges explicit) additional) = outline :=
    funext (addSuccessors_outline lines _)
  rw [hcut]
  unfold cutBlocks
  apply List.ext_getElem?
  intro position
  rw [List.getElem?_map, List.getElem?_mapIdx, List.getElem?_mapIdx, Option.map_map]
  rfl

theorem buildBasicBlocks_getElem?
    (h : (buildBasicBlocks lines resolvedEdges additional explicit)[position]? = some block) :
    ∃ first, (blockLeaders lines resolvedEdges additional explicit)[position]? = some first ∧
      block.startAddress = (lines[first]?).elim 0 (·.address) ∧
      block.lines = linesFrom lines resolvedEdges additional explicit position first := by
  have hview := congrArg (·[position]?)
    (buildBasicBlocks_outline lines resolvedEdges additional explicit)
  rw [List.getElem?_map, h, List.getElem?_mapIdx] at hview
  cases hfirst : (blockLeaders lines resolvedEdges additional explicit)[position]? with
  | none =>
    rw [hfirst] at hview
    cases hview
  | some first =>
    rw [hfirst] at hview
    have heq := Option.some.inj hview
    exact ⟨first, rfl, congrArg Prod.fst heq, congrArg Prod.snd heq⟩

/-- Every leader begins a block. -/
theorem exists_block
    (h : (blockLeaders lines resolvedEdges additional explicit)[position]? = some first) :
    ∃ block, (buildBasicBlocks lines resolvedEdges additional explicit)[position]? = some block ∧
      block.startAddress = (lines[first]?).elim 0 (·.address) ∧
      block.lines = linesFrom lines resolvedEdges additional explicit position first := by
  have hlength := congrArg List.length
    (buildBasicBlocks_outline lines resolvedEdges additional explicit)
  rw [List.length_map, List.length_mapIdx] at hlength
  have hlt := (List.getElem?_eq_some_iff.mp h).1
  rw [← hlength] at hlt
  have hblock := List.getElem?_eq_getElem hlt
  obtain ⟨found, hfound, hstart, hlines⟩ := buildBasicBlocks_getElem? hblock
  rw [h] at hfound
  have hsame := Option.some.inj hfound
  rw [← hsame] at hstart hlines
  exact ⟨_, hblock, hstart, hlines⟩

end

/-! ## Successors -/

section
variable {lines : List DisassemblyLine} {leaders : List Nat}

/-- An address that is one of the lines' begins a block. -/
def BeginsBlock (lines : List DisassemblyLine) (leaders : List Nat) (address : BitVec 32) : Prop :=
  ∀ index, addressIndex lines address = some index → index ∈ leaders

def EdgesBeginBlocks (lines : List DisassemblyLine) (leaders : List Nat) (block : BasicBlock) :
    Prop := ∀ address ∈ block.successors, BeginsBlock lines leaders address

variable {successors : List (BitVec 32)}

theorem mem_addUniqueSuccessor {address other : BitVec 32} :
    other ∈ addUniqueSuccessor successors address ↔ other ∈ successors ∨ other = address := by
  unfold addUniqueSuccessor
  split
  · rename_i hmem
    constructor
    · exact Or.inl
    · rintro (h | rfl)
      · exact h
      · exact hmem
  · simp

theorem mem_sortSuccessors {address : BitVec 32} :
    address ∈ sortSuccessors successors ↔ address ∈ successors :=
  (List.perm_insertionSort _ successors).mem_iff

variable {control : DisassemblyLine}

theorem mem_addFallthrough (h : ∀ address ∈ successors, BeginsBlock lines leaders address) :
    ∀ address ∈ addFallthrough lines leaders control successors,
      BeginsBlock lines leaders address := by
  intro address hmem
  unfold addFallthrough at hmem
  split at hmem
  · rename_i hleader
    obtain hold | rfl := mem_addUniqueSuccessor.mp hmem
    · exact h address hold
    · intro index hindex
      rw [hindex] at hleader
      simpa using hleader
  · exact h address hmem

theorem mem_addTarget
    (htarget : ∀ address, control.targetAddress = some address → BeginsBlock lines leaders address)
    (h : ∀ address ∈ successors, BeginsBlock lines leaders address) :
    ∀ address ∈ addTarget control successors, BeginsBlock lines leaders address := by
  intro address hmem
  unfold addTarget at hmem
  split at hmem
  · rename_i target hat
    split at hmem
    · exact h address hmem
    · obtain hold | rfl := mem_addUniqueSuccessor.mp hmem
      · exact h address hold
      · exact htarget address hat
  · exact h address hmem

/-- The instruction's own edges go to leaders. -/
theorem addSuccessors_edges {block : BasicBlock}
    (htargets : ∀ line ∈ block.lines, ∀ address, line.targetAddress = some address →
      BeginsBlock lines leaders address)
    (h : EdgesBeginBlocks lines leaders block) :
    EdgesBeginBlocks lines leaders (addSuccessors lines leaders block) := by
  unfold addSuccessors
  split
  · exact h
  rename_i control hcontrol
  have htarget := mem_addTarget (htargets control (List.mem_of_getElem? hcontrol)) h
  dsimp only
  split
  · exact h
  · split
    · exact mem_addFallthrough h
    · intro address hmem
      rw [mem_sortSuccessors] at hmem
      split at hmem
      · exact mem_addFallthrough htarget address hmem
      · exact htarget address hmem

theorem forall_mem_modify {α : Type} {P : α → Prop} (f : α → α) (hf : ∀ a, P a → P (f a))
    {l : List α} (h : ∀ a ∈ l, P a) (index : Nat) : ∀ a ∈ l.modify index f, P a := by
  induction l generalizing index with
  | nil =>
    intro a hmem
    simp at hmem
  | cons first rest ih =>
    obtain ⟨hfirst, hrest⟩ := List.forall_mem_cons.mp h
    cases index with
    | zero => simpa using ⟨hf first hfirst, hrest⟩
    | succ index => simpa using ⟨hfirst, ih hrest index⟩

variable {built blocks : List BasicBlock}

theorem addEdge_edges {edge : ResolvedControlFlowEdge}
    (hedge : BeginsBlock lines leaders edge.targetAddress)
    (h : ∀ block ∈ blocks, EdgesBeginBlocks lines leaders block) :
    ∀ block ∈ addEdge built blocks edge, EdgesBeginBlocks lines leaders block := by
  unfold addEdge
  split
  · split
    · apply forall_mem_modify _ _ h
      intro block hblock address hmem
      rw [mem_sortSuccessors] at hmem
      split at hmem
      · obtain hold | rfl := mem_addUniqueSuccessor.mp hmem
        · exact hblock address hold
        · exact hedge
      · exact hblock address hmem
    · exact h
  · exact h

theorem closeSite_edges {resolvedEdges : List ResolvedControlFlowEdge} {site : BitVec 32}
    (h : ∀ block ∈ blocks, EdgesBeginBlocks lines leaders block) :
    ∀ block ∈ closeSite built resolvedEdges blocks site, EdgesBeginBlocks lines leaders block := by
  unfold closeSite
  split
  · split
    · apply forall_mem_modify _ _ h
      intro block hblock
      exact hblock
    · exact h
  · exact h

theorem forall_mem_foldl {α β : Type} {P : α → Prop} {step : List α → β → List α}
    {steps : List β} (hstep : ∀ l, (∀ a ∈ l, P a) → ∀ b ∈ steps, ∀ a ∈ step l b, P a)
    {start : List α} (h : ∀ a ∈ start, P a) : ∀ a ∈ steps.foldl step start, P a := by
  induction steps generalizing start with
  | nil => exact h
  | cons b rest ih =>
    exact ih (fun l hl c hc => hstep l hl c (List.mem_cons_of_mem b hc))
      (hstep start h b List.mem_cons_self)

end
end KatanaRecomp.Analysis
