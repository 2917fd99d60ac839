import KatanaRecomp.Ir.RegisterLiveness

/-! # The liveness iteration

Each step adds to the masks of one block, and only registers some path wants. So
the rounds end, and the masks they end with are exactly what the paths want. -/
namespace KatanaRecomp.Ir
open Lib

/-! ## Edges -/

section
variable {function : Function} {block next : BasicBlock} {index : Nat}

theorem blockIndex_eq_some (hstarts : (function.blocks.map (·.startAddress)).Nodup)
    (hnext : function.blocks[index]? = some next) :
    blockIndex function next.startAddress = some index := by
  obtain ⟨hlt, hget⟩ := List.getElem?_eq_some_iff.mp hnext
  unfold blockIndex
  rw [List.findIdx?_eq_some_iff_getElem]
  refine ⟨hlt, by simp [hget], ?_⟩
  intro earlier hearlier
  have hne := (List.nodup_iff_getElem?_ne_getElem?.mp hstarts) earlier index hearlier
    (by simpa using hlt)
  rw [List.getElem?_map, List.getElem?_map, hnext,
    List.getElem?_eq_getElem (Nat.lt_trans hearlier hlt)] at hne
  simpa using hne

theorem blockIndex_spec {address : BitVec 32} (h : blockIndex function address = some index) :
    ∃ next, function.blocks[index]? = some next ∧ next.startAddress = address := by
  unfold blockIndex at h
  obtain ⟨hlt, haddress, -⟩ := List.findIdx?_eq_some_iff_getElem.mp h
  exact ⟨function.blocks[index], List.getElem?_eq_getElem hlt, by simpa using haddress⟩

theorem mem_internalSuccessors (hstarts : (function.blocks.map (·.startAddress)).Nodup) :
    index ∈ internalSuccessors function block ↔
      ∃ next, function.blocks[index]? = some next ∧ next.startAddress ∈ block.successors := by
  unfold internalSuccessors
  rw [List.mem_filterMap]
  constructor
  · rintro ⟨address, hmem, hindex⟩
    obtain ⟨next, hnext, rfl⟩ := blockIndex_spec hindex
    exact ⟨next, hnext, hmem⟩
  · rintro ⟨next, hnext, hmem⟩
    exact ⟨next.startAddress, hmem, blockIndex_eq_some hstarts hnext⟩

theorem hasOpenSuccessor_iff :
    hasOpenSuccessor function block = true ↔ LeavesFunction function block := by
  unfold hasOpenSuccessor LeavesFunction blockIndex
  simp

theorem liveAt_of_passes {register : TrackedRegister}
    (hpass : PassesTo function register block next) (hlive : LiveAt function register next) :
    LiveAt function register block := by
  obtain ⟨last, hpath, hwant⟩ := hlive
  exact ⟨last, Relation.ReflTransGen.head hpass hpath, hwant⟩

end

/-! ## Masks that grow -/

/-- Every bit of the first mask is a bit of the second. -/
def Within (small large : RegisterMask) : Prop :=
  ∀ bit, small.getLsbD bit = true → large.getLsbD bit = true

variable {small large : RegisterMask} {register : TrackedRegister}

def maskSize (mask : RegisterMask) : Nat :=
  (Finset.univ.filter fun bit : Fin 32 => mask.getLsbD bit = true).card

theorem maskSize_le (mask : RegisterMask) : maskSize mask ≤ 32 := by
  have h := Finset.card_filter_le (Finset.univ : Finset (Fin 32))
    fun bit => mask.getLsbD bit = true
  simpa [maskSize] using h

theorem Within.maskSize_le (h : Within small large) : maskSize small ≤ maskSize large := by
  apply Finset.card_le_card
  intro bit hbit
  rw [Finset.mem_filter] at hbit ⊢
  exact ⟨Finset.mem_univ bit, h bit hbit.2⟩

/-- A larger mask that is not the same has more bits. -/
theorem Within.maskSize_lt (h : Within small large)
    (hne : large ≠ small) : maskSize small < maskSize large := by
  apply Finset.card_lt_card
  rw [Finset.ssubset_iff_of_subset]
  · by_contra hall
    apply hne
    apply BitVec.eq_of_getLsbD_eq
    intro bit hbit
    rw [Bool.eq_iff_iff]
    refine ⟨fun hlarge => ?_, h bit⟩
    by_contra hsmall
    exact hall ⟨⟨bit, hbit⟩, Finset.mem_filter.mpr ⟨Finset.mem_univ _, hlarge⟩,
      fun hmem => hsmall (Finset.mem_filter.mp hmem).2⟩
  · intro bit hbit
    rw [Finset.mem_filter] at hbit ⊢
    exact ⟨Finset.mem_univ bit, h bit hbit.2⟩

variable {blocks : List BlockRegisterLiveness}

variable {successors : List Nat}

theorem wantedAfter_bit {isOpen : Bool} {bit : Nat} :
    (wantedAfter successors isOpen blocks).getLsbD bit = true ↔
      isOpen = true ∧ trackedRegisterMask.getLsbD bit = true ∨
        ∃ successor ∈ successors, (blocks.getD successor {}).liveIn.getLsbD bit = true := by
  unfold wantedAfter
  have hfold : ∀ start : RegisterMask,
      (successors.foldl (fun live successor => live ||| (blocks.getD successor {}).liveIn)
        start).getLsbD bit = true ↔ start.getLsbD bit = true ∨
          ∃ successor ∈ successors, (blocks.getD successor {}).liveIn.getLsbD bit = true := by
    induction successors with
    | nil => simp
    | cons successor rest ih =>
      intro start
      rw [List.foldl_cons, ih, BitVec.getLsbD_or, Bool.or_eq_true_iff, List.exists_mem_cons_iff,
        or_assoc]
  rw [hfold]
  cases isOpen <;> simp

theorem wantedAfter_mono {isOpen : Bool} {blocks blocks' : List BlockRegisterLiveness}
    (h : ∀ index, Within (blocks.getD index {}).liveIn (blocks'.getD index {}).liveIn) :
    Within (wantedAfter successors isOpen blocks) (wantedAfter successors isOpen blocks') := by
  intro bit hbit
  rw [wantedAfter_bit] at hbit ⊢
  obtain hopen | ⟨successor, hmem, hlive⟩ := hbit
  · exact Or.inl hopen
  · exact Or.inr ⟨successor, hmem, h successor bit hlive⟩

theorem wantedBefore_mono (live : BlockRegisterLiveness)
    (h : Within small large) : Within (live.wantedBefore small) (live.wantedBefore large) := by
  intro bit hbit
  unfold BlockRegisterLiveness.wantedBefore at hbit ⊢
  rw [BitVec.getLsbD_or, BitVec.getLsbD_and, Bool.or_eq_true_iff, Bool.and_eq_true_iff] at hbit ⊢
  obtain huse | ⟨hwanted, hkeep⟩ := hbit
  · exact Or.inl huse
  · exact Or.inr ⟨h bit hwanted, hkeep⟩

/-! ## The invariant of the iteration -/

/-- The blocks are the scanned ones; what they want is really wanted, and no more
than a step from here would find. -/
structure Underway (function : Function) (blocks : List BlockRegisterLiveness) : Prop where
  length_eq : blocks.length = function.blocks.length
  scanned : ∀ index block, function.blocks[index]? = some block → ∃ liveIn liveOut,
    blocks.getD index {} = { scanBlock function block with liveIn := liveIn, liveOut := liveOut }
  wanted : ∀ index block, function.blocks[index]? = some block → ∀ register,
    registerMaskContains (blocks.getD index {}).liveIn register = true →
      LiveAt function register block
  after : ∀ index, Within (blocks.getD index {}).liveOut
    (wantedAfter ((successorTable function).getD index [])
      (blocks.getD index {}).hasOpenSuccessor blocks)
  before : ∀ index, Within (blocks.getD index {}).liveIn
    ((blocks.getD index {}).wantedBefore (blocks.getD index {}).liveOut)

variable {index : Nat}

theorem getD_set (hlt : index < blocks.length) (live : BlockRegisterLiveness) (other : Nat) :
    (blocks.set index live).getD other {} = if other = index then live
      else blocks.getD other {} := by
  rw [List.getD_eq_getElem?_getD, List.getD_eq_getElem?_getD, List.getElem?_set]
  by_cases heq : index = other
  · subst heq
    simp [hlt]
  · simp [heq, Ne.symm heq]

variable {function : Function} {block : BasicBlock}

theorem successorTable_getD (hblock : function.blocks[index]? = some block) :
    (successorTable function).getD index [] = internalSuccessors function block := by
  unfold successorTable
  rw [List.getD_eq_getElem?_getD, List.getElem?_map, hblock]
  rfl

section
variable {function : Function} {blocks : List BlockRegisterLiveness} {index : Nat}
  {block : BasicBlock}

/-- A block that a step finds to leave the function or keep a register does so. -/
theorem Underway.scanned_open (h : Underway function blocks)
    (hblock : function.blocks[index]? = some block) :
    (blocks.getD index {}).hasOpenSuccessor = hasOpenSuccessor function block := by
  obtain ⟨liveIn, liveOut, hlive⟩ := h.scanned index block hblock
  rw [hlive]
  rfl

/-- What one step wants before a block is really wanted there. -/
theorem Underway.wantedBefore_sound (hstarts : (function.blocks.map (·.startAddress)).Nodup)
    (h : Underway function blocks) (hblock : function.blocks[index]? = some block)
    (hwanted : registerMaskContains ((blocks.getD index {}).wantedBefore
      (wantedAfter ((successorTable function).getD index [])
        (blocks.getD index {}).hasOpenSuccessor blocks)) register = true) :
    LiveAt function register block := by
  have hopen := h.scanned_open hblock
  obtain ⟨liveIn, liveOut, hlive⟩ := h.scanned index block hblock
  have huses : (blocks.getD index {}).usesBeforeDef = (scanBlock function block).usesBeforeDef := by
    rw [hlive]
  have hdefs : (blocks.getD index {}).defs = (scanBlock function block).defs := by
    rw [hlive]
  unfold BlockRegisterLiveness.wantedBefore at hwanted
  rw [hopen, huses, hdefs, registerMaskContains_or, registerMaskContains_and,
    registerMaskContains_not, Bool.or_eq_true_iff, Bool.and_eq_true_iff, Bool.not_eq_true',
    scanBlock_uses, scanBlock_defs, registerMaskContains_eq, wantedAfter_bit,
    successorTable_getD hblock] at hwanted
  obtain huse | ⟨hafter, hkeep⟩ := hwanted
  · exact ⟨block, Relation.ReflTransGen.refl, Or.inl huse⟩
  · obtain ⟨hleaves, -⟩ | ⟨successor, hmem, hnext⟩ := hafter
    · exact ⟨block, Relation.ReflTransGen.refl, Or.inr ⟨hasOpenSuccessor_iff.mp hleaves, hkeep⟩⟩
    · obtain ⟨next, hget, hedge⟩ := (mem_internalSuccessors hstarts).mp hmem
      rw [← registerMaskContains_eq] at hnext
      have hthere := h.wanted successor next hget register hnext
      exact liveAt_of_passes ⟨List.mem_of_getElem? hget, hedge, hkeep⟩ hthere

/-- The block as a step leaves it. -/
def improvedBlock (function : Function) (index : Nat) (blocks : List BlockRegisterLiveness) :
    BlockRegisterLiveness :=
  let live := blocks.getD index {}
  let liveOut := wantedAfter ((successorTable function).getD index []) live.hasOpenSuccessor blocks
  { live with liveOut := liveOut, liveIn := live.wantedBefore liveOut }

/-- A step finds the block as it is, or puts the improved one in its place. -/
theorem relaxBlock_cases (function : Function) (index : Nat) (blocks : List BlockRegisterLiveness) :
    (relaxBlock (successorTable function) index blocks = (blocks, false) ∧
      improvedBlock function index blocks = blocks.getD index {}) ∨
    (relaxBlock (successorTable function) index blocks =
        (blocks.set index (improvedBlock function index blocks), true) ∧
      ((improvedBlock function index blocks).liveOut ≠ (blocks.getD index {}).liveOut ∨
        (improvedBlock function index blocks).liveIn ≠ (blocks.getD index {}).liveIn)) := by
  unfold relaxBlock improvedBlock
  dsimp only
  split
  · rename_i hchange
    simp only [Bool.or_eq_true_iff, bne_iff_ne] at hchange
    exact Or.inr ⟨rfl, hchange⟩
  · rename_i hsame
    simp only [Bool.or_eq_true_iff, bne_iff_ne, not_or, not_not] at hsame
    obtain ⟨hout, hin⟩ := hsame
    rw [hin, hout]
    exact Or.inl ⟨rfl, rfl⟩

/-- There is nothing to improve behind the last block. -/
theorem improvedBlock_outside (hlength : blocks.length = function.blocks.length)
    (hout : blocks.length ≤ index) :
    improvedBlock function index blocks = blocks.getD index {} := by
  have hrow : (successorTable function).getD index [] = [] := by
    apply List.getD_eq_default
    simpa [successorTable, ← hlength] using hout
  have hlive : blocks.getD index {} = {} := List.getD_eq_default _ _ hout
  simp only [improvedBlock, hrow, hlive, wantedAfter, List.foldl_nil]
  decide

/-- A step only adds to what a block wants. -/
theorem Underway.improves (h : Underway function blocks) (index : Nat) :
    Within (blocks.getD index {}).liveOut (improvedBlock function index blocks).liveOut ∧
      Within (blocks.getD index {}).liveIn (improvedBlock function index blocks).liveIn := by
  refine ⟨h.after index, ?_⟩
  intro bit hbit
  exact wantedBefore_mono _ (h.after index) bit (h.before index bit hbit)

theorem Underway.step (hstarts : (function.blocks.map (·.startAddress)).Nodup)
    (h : Underway function blocks) (index : Nat) :
    Underway function (relaxBlock (successorTable function) index blocks).1 := by
  obtain ⟨hrun, -⟩ | ⟨hrun, hchange⟩ := relaxBlock_cases function index blocks
  · rw [hrun]
    exact h
  have hlt : index < blocks.length := by
    by_contra hout
    rw [improvedBlock_outside h.length_eq (by omega)] at hchange
    simp at hchange
  rw [hrun]
  have hget := getD_set hlt (improvedBlock function index blocks)
  have hgrow : ∀ other, Within (blocks.getD other {}).liveIn
      ((blocks.set index (improvedBlock function index blocks)).getD other {}).liveIn := by
    intro other
    rw [hget]
    split
    · rename_i heq
      rw [heq]
      exact (h.improves index).2
    · exact fun bit hbit => hbit
  constructor
  case length_eq =>
    rw [List.length_set, h.length_eq]
  case scanned =>
    intro other block hblock
    obtain ⟨liveIn, liveOut, hlive⟩ := h.scanned other block hblock
    simp only [hget]
    split
    · rename_i heq
      refine ⟨(improvedBlock function index blocks).liveIn,
        (improvedBlock function index blocks).liveOut, ?_⟩
      rw [heq] at hlive
      simp only [improvedBlock, hlive]
    · exact ⟨liveIn, liveOut, hlive⟩
  case wanted =>
    intro other block hblock register hmem
    simp only [hget] at hmem
    split at hmem
    · rename_i heq
      rw [heq] at hblock
      exact h.wantedBefore_sound hstarts hblock hmem
    · exact h.wanted other block hblock register hmem
  case after =>
    intro other bit hbit
    apply wantedAfter_mono hgrow bit
    rw [hget] at hbit ⊢
    split at hbit
    · rename_i heq
      rw [heq]
      simpa [improvedBlock] using hbit
    · rename_i hne
      rw [if_neg hne]
      exact h.after other bit hbit
  case before =>
    intro other
    rw [hget]
    split
    · exact fun bit hbit => hbit
    · exact h.before other

end

/-! ## The rounds end -/

def blockSize (live : BlockRegisterLiveness) : Nat := maskSize live.liveIn + maskSize live.liveOut

def livenessSize (blocks : List BlockRegisterLiveness) : Nat := (blocks.map blockSize).sum

theorem livenessSize_le (blocks : List BlockRegisterLiveness) :
    livenessSize blocks ≤ 64 * blocks.length := by
  induction blocks with
  | nil => simp [livenessSize]
  | cons live rest ih =>
    have hin := maskSize_le live.liveIn
    have hout := maskSize_le live.liveOut
    simp only [livenessSize, blockSize, List.map_cons, List.sum_cons, List.length_cons] at ih ⊢
    omega

theorem livenessSize_set (hlt : index < blocks.length) {live : BlockRegisterLiveness}
    (hless : blockSize (blocks.getD index {}) < blockSize live) :
    livenessSize blocks < livenessSize (blocks.set index live) := by
  induction blocks generalizing index with
  | nil => simp at hlt
  | cons first rest ih =>
    cases index with
    | zero =>
      simp only [List.getD_cons_zero] at hless
      simp only [livenessSize, List.set_cons_zero, List.map_cons, List.sum_cons]
      omega
    | succ index =>
      have hrest := ih (by simpa using hlt) (by simpa using hless)
      simp only [livenessSize, List.set_cons_succ, List.map_cons, List.sum_cons] at hrest ⊢
      omega

/-- Each step keeps the invariant, and a change adds a bit. -/
theorem relaxBlock_improving (hstarts : (function.blocks.map (·.startAddress)).Nodup) :
    ChaoticIteration.Improving (relaxBlock (successorTable function)) (Underway function)
      livenessSize (64 * function.blocks.length) where
  keeps index blocks h := h.step hstarts index
  still index blocks h hsame := by
    obtain ⟨hrun, -⟩ | ⟨hrun, -⟩ := relaxBlock_cases function index blocks
    · rw [hrun]
    · rw [hrun] at hsame
      cases hsame
  rises index blocks h hchanged := by
    obtain ⟨hrun, -⟩ | ⟨hrun, hchange⟩ := relaxBlock_cases function index blocks
    · rw [hrun] at hchanged
      cases hchanged
    rw [hrun]
    obtain ⟨hout, hin⟩ := h.improves index
    apply livenessSize_set
    · by_contra hlt
      rw [improvedBlock_outside h.length_eq (by omega)] at hchange
      simp at hchange
    · have houtle := hout.maskSize_le
      have hinle := hin.maskSize_le
      unfold blockSize
      obtain hne | hne := hchange
      · have hmore := hout.maskSize_lt hne
        omega
      · have hmore := hin.maskSize_lt hne
        omega
  bounded blocks h := by
    rw [← h.length_eq]
    exact livenessSize_le blocks

theorem scanBlock_start (function : Function) (block : BasicBlock) :
    (scanBlock function block).startAddress = block.startAddress := by
  have hfold : ∀ (instructions : List Instruction) (live : BlockRegisterLiveness),
      (instructions.foldl BlockRegisterLiveness.noteInstruction live).startAddress =
        live.startAddress := by
    intro instructions
    induction instructions with
    | nil => exact fun live => rfl
    | cons i rest ih => exact fun live => ih (live.noteInstruction i)
  exact hfold block.instructions { startAddress := block.startAddress }

theorem scanBlock_live (function : Function) (block : BasicBlock) :
    (scanBlock function block).liveIn = 0 ∧ (scanBlock function block).liveOut = 0 := by
  have hfold : ∀ (instructions : List Instruction) (live : BlockRegisterLiveness),
      (instructions.foldl BlockRegisterLiveness.noteInstruction live).liveIn = live.liveIn ∧
      (instructions.foldl BlockRegisterLiveness.noteInstruction live).liveOut = live.liveOut := by
    intro instructions
    induction instructions with
    | nil => exact fun live => ⟨rfl, rfl⟩
    | cons i rest ih => exact fun live => ih (live.noteInstruction i)
  exact hfold block.instructions { startAddress := block.startAddress }

theorem scanBlocks_getD (hblock : function.blocks[index]? = some block) :
    (scanBlocks function).getD index {} = scanBlock function block := by
  unfold scanBlocks
  rw [List.getD_eq_getElem?_getD, List.getElem?_map, hblock]
  rfl

/-- Before the iteration nothing is wanted. -/
theorem scanBlocks_underway (function : Function) : Underway function (scanBlocks function) := by
  have hempty : ∀ index, ((scanBlocks function).getD index {}).liveIn = 0 ∧
      ((scanBlocks function).getD index {}).liveOut = 0 := by
    intro index
    cases hblock : function.blocks[index]? with
    | some block =>
      rw [scanBlocks_getD hblock]
      exact scanBlock_live function block
    | none =>
      rw [List.getD_eq_getElem?_getD, scanBlocks, List.getElem?_map, hblock]
      exact ⟨rfl, rfl⟩
  constructor
  case length_eq => simp [scanBlocks]
  case scanned =>
    intro index block hblock
    rw [scanBlocks_getD hblock]
    exact ⟨(scanBlock function block).liveIn, (scanBlock function block).liveOut, rfl⟩
  case wanted =>
    intro index block hblock register hmem
    rw [(hempty index).1] at hmem
    simp at hmem
  case after =>
    intro index bit hbit
    rw [(hempty index).2] at hbit
    simp at hbit
  case before =>
    intro index bit hbit
    rw [(hempty index).1] at hbit
    simp at hbit

/-! ## What the iteration finds -/

section
variable (hstarts : (function.blocks.map (·.startAddress)).Nodup)
include hstarts

/-- Where no step changes anything, the masks hold all that the paths want. -/
theorem liveIn_of_liveAt
    (h : Underway function blocks)
    (hstable : ∀ index, improvedBlock function index blocks = blocks.getD index {})
    (hblock : function.blocks[index]? = some block) (hlive : LiveAt function register block) :
    registerMaskContains (blocks.getD index {}).liveIn register = true := by
  obtain ⟨last, hpath, hwant⟩ := hlive
  have hmask : ∀ index block, function.blocks[index]? = some block →
      (UsesFirst block.instructions register ∨
        registerMaskContains (wantedAfter (internalSuccessors function block)
            (hasOpenSuccessor function block) blocks) register = true ∧
          Keeps block.instructions register) →
      registerMaskContains (blocks.getD index {}).liveIn register = true := by
    intro index block hblock hwanted
    obtain ⟨liveIn, liveOut, hscan⟩ := h.scanned index block hblock
    have huses : (blocks.getD index {}).usesBeforeDef =
        (scanBlock function block).usesBeforeDef := by rw [hscan]
    have hdefs : (blocks.getD index {}).defs = (scanBlock function block).defs := by rw [hscan]
    rw [← hstable index]
    simp only [improvedBlock, BlockRegisterLiveness.wantedBefore, h.scanned_open hblock,
      successorTable_getD hblock, huses, hdefs]
    rw [registerMaskContains_or, registerMaskContains_and, registerMaskContains_not,
      Bool.or_eq_true_iff, Bool.and_eq_true_iff, Bool.not_eq_true', scanBlock_uses, scanBlock_defs]
    exact hwanted
  induction hpath using Relation.ReflTransGen.head_induction_on generalizing index with
  | refl =>
    apply hmask index last hblock
    obtain huse | ⟨hleaves, hkeep⟩ := hwant
    · exact Or.inl huse
    · refine Or.inr ⟨?_, hkeep⟩
      rw [registerMaskContains_eq, wantedAfter_bit]
      have htracked := registerMaskContains_tracked register
      rw [registerMaskContains_eq] at htracked
      exact Or.inl ⟨hasOpenSuccessor_iff.mpr hleaves, htracked⟩
  | head hpass hrest ih =>
    obtain ⟨hmem, hedge, hkeep⟩ := hpass
    obtain ⟨place, hnext⟩ := List.mem_iff_getElem?.mp hmem
    have hthere := ih hnext
    apply hmask index _ hblock
    refine Or.inr ⟨?_, hkeep⟩
    rw [registerMaskContains_eq] at hthere ⊢
    rw [wantedAfter_bit]
    exact Or.inr ⟨place, (mem_internalSuccessors hstarts).mpr ⟨_, hnext, hedge⟩, hthere⟩

/-- The rounds end within the fuel, and no step changes what they end with. -/
theorem solveLiveness_spec :
    ∃ blocks, solveLiveness function (livenessFuel function) = some blocks ∧
      Underway function blocks ∧
      ∀ index, improvedBlock function index blocks = blocks.getD index {} := by
  have hroom : 64 * function.blocks.length - livenessSize (scanBlocks function) <
      livenessFuel function := by
    unfold livenessFuel
    omega
  obtain ⟨blocks, hrun, hkept, hstill⟩ := (relaxBlock_improving hstarts).relaxUntilStable_ends
    (relaxOrder function) (scanBlocks_underway function) hroom
  refine ⟨blocks, hrun, hkept, ?_⟩
  intro index
  by_cases hlt : index < blocks.length
  · have hplace : index ∈ relaxOrder function := by
      rw [hkept.length_eq] at hlt
      simpa [relaxOrder] using hlt
    obtain ⟨-, hsame⟩ | ⟨hchanged, -⟩ := relaxBlock_cases function index blocks
    · exact hsame
    · have hflag := hstill index hplace
      rw [hchanged] at hflag
      cases hflag
  · exact improvedBlock_outside hkept.length_eq (by omega)

end

/-- Two blocks of one start address are refused. Otherwise the rounds end, however
many more are allowed, and a register is in the live-in mask of a block exactly
where a path from the start of the block uses it, or leaves with it, undefined. -/
theorem makeRegisterLocalizationPlan_liveIn_iff (function : Function) :
    (¬ (function.blocks.map (·.startAddress)).Nodup → makeRegisterLocalizationPlan function =
        .error "Register-Liveness erhielt doppelte Basic-Block-Startadresse.") ∧
    ((function.blocks.map (·.startAddress)).Nodup →
      ∃ plan : RegisterLocalizationPlan, makeRegisterLocalizationPlan function = .ok plan ∧
        (∀ fuel, livenessFuel function ≤ fuel → solveLiveness function fuel = some plan.blocks) ∧
        plan.blocks.length = function.blocks.length ∧
        ∀ (index : Nat) (block : BasicBlock), function.blocks[index]? = some block →
          ∃ live : BlockRegisterLiveness, plan.blocks[index]? = some live ∧
            live.startAddress = block.startAddress ∧
            ∀ register, registerMaskContains live.liveIn register = true ↔
              LiveAt function register block) := by
  unfold makeRegisterLocalizationPlan
  refine ⟨fun hrepeated => if_neg hrepeated, fun hstarts => ?_⟩
  obtain ⟨blocks, hrun, hkept, hstable⟩ := solveLiveness_spec hstarts
  rw [if_pos hstarts]
  refine ⟨_, rfl, ?_⟩
  simp only [hrun, Option.getD_some]
  refine ⟨fun fuel hfuel => ChaoticIteration.relaxUntilStable_mono hrun hfuel, hkept.length_eq, ?_⟩
  intro index block hblock
  have hlt : index < blocks.length := by
    rw [hkept.length_eq]
    exact (List.getElem?_eq_some_iff.mp hblock).1
  have hlive : blocks[index]? = some (blocks.getD index {}) := by
    rw [List.getD_eq_getElem _ _ hlt, List.getElem?_eq_getElem hlt]
  refine ⟨blocks.getD index {}, hlive, ?_, ?_⟩
  · obtain ⟨liveIn, liveOut, hscan⟩ := hkept.scanned index block hblock
    rw [hscan]
    exact scanBlock_start function block
  · intro register
    exact ⟨hkept.wanted index block hblock register, liveIn_of_liveAt hstarts hkept hstable hblock⟩

/-- A block that does nothing, and behind it a loop that counts `r1` up. -/
def countingLoop : Function :=
  let count : Instruction := { operation := .addImmediate, destinationRegister := 1 }
  { entryAddress := 0x100
    blocks := [{ startAddress := 0x100, successors := [0x102] },
      { startAddress := 0x102, instructions := [count], successors := [0x102] }] }

theorem countingLoop_liveIn : ∃ (plan : RegisterLocalizationPlan) (live : BlockRegisterLiveness),
      makeRegisterLocalizationPlan countingLoop = .ok plan ∧ plan.blocks[0]? = some live ∧
        registerMaskContains live.liveIn .r1 = true := by
  obtain ⟨plan, hplan, -, -, hall⟩ :=
    (makeRegisterLocalizationPlan_liveIn_iff countingLoop).2 (by decide)
  obtain ⟨live, hget, -, hlive⟩ := hall 0 _ rfl
  refine ⟨plan, live, hplan, hget, (hlive .r1).mpr ?_⟩
  have hstep : PassesTo countingLoop .r1 { startAddress := 0x100, successors := [0x102] }
      { startAddress := 0x102
        instructions := [{ operation := .addImmediate, destinationRegister := 1 }]
        successors := [0x102] } := by
    refine ⟨by simp [countingLoop], by simp, ?_⟩
    intro i hmem
    exact absurd hmem List.not_mem_nil
  refine ⟨_, Relation.ReflTransGen.single hstep, Or.inl ⟨[], _, [], rfl, ?_, ?_⟩⟩
  · unfold Uses
    decide
  · intro earlier hmem
    exact absurd hmem List.not_mem_nil

end KatanaRecomp.Ir
