import Mathlib.Data.List.TakeWhile
import Mathlib.Data.BitVec
import Mathlib.Tactic.Ring

/-! # Shards of the native dispatch table

The table splits at the middle of an address interval as long as it holds too many rows. A
shard is named by the bits of its interval behind a leading one, so the rows of an interval
that splits are sharded alike in every table that holds them. -/
namespace KatanaRecomp.Codegen.DispatchShards

structure NativeDispatchShard where
  id : Nat
  begin : Nat
  finish : Nat

def maximumRows : Nat := 8192

variable {α : Type} (address : α → BitVec 32)

/-- The recursion, which leaves an empty half out; its last level is never passed. -/
def splitShards (level : Nat) (rows : List α) (first lower upper id : Nat) :
    Option (List NativeDispatchShard) :=
  if rows.isEmpty then some []
  else if rows.length ≤ maximumRows then some [⟨id, first, first + rows.length⟩]
  else
    match level with
    | 0 => none
    | level + 1 =>
      let middle := lower + (upper - lower) / 2
      let left := rows.takeWhile fun row => (address row).toNat < middle
      let right := rows.dropWhile fun row => (address row).toNat < middle
      Option.map₂ (· ++ ·) (splitShards level left first lower middle (id * 2))
        (splitShards level right (first + left.length) middle upper (id * 2 + 1))

def nativeDispatchShards (blocks : List α) : Except String (List NativeDispatchShard) :=
  if blocks.isEmpty then .ok []
  else if ¬ blocks.IsChain (address · < address ·) then .error "native-dispatch-shards-order"
  else
    match splitShards address 32 blocks 0 0 (2 ^ 32) 1 with
    | some shards => .ok shards
    -- no table has so many rows in one address
    | none => .error "native-dispatch-shards-depth"

/-! ## Parts -/

/-- The bits of the address from `level` on, behind a leading one. -/
def prefixAt (level : Nat) (row : α) : Nat := (2 ^ 32 + (address row).toNat) / 2 ^ level

/-- The ids of the shards with their rows. -/
def parts (level : Nat) (rows : List α) (id : Nat) : List (Nat × List α) :=
  if rows.isEmpty then []
  else if rows.length ≤ maximumRows then [(id, rows)]
  else
    match level with
    | 0 => []
    | level + 1 =>
      parts level (rows.takeWhile fun row => prefixAt address level row < id * 2 + 1) (id * 2) ++
        parts level (rows.dropWhile fun row => prefixAt address level row < id * 2 + 1) (id * 2 + 1)

/-- Parts one behind the other, from a row on. -/
def layout : Nat → List (Nat × List α) → List NativeDispatchShard
  | _, [] => []
  | first, part :: rest =>
    ⟨part.1, first, first + part.2.length⟩ :: layout (first + part.2.length) rest

/-- The rows that the shards name. -/
def contents (blocks : List α) (shards : List NativeDispatchShard) : List (Nat × List α) :=
  shards.map fun shard => (shard.id, (blocks.drop shard.begin).take (shard.finish - shard.begin))

theorem layout_append (first : Nat) (front rear : List (Nat × List α)) :
    layout first (front ++ rear) =
      layout first front ++ layout (first + (front.flatMap (·.2)).length) rear := by
  induction front generalizing first with
  | nil => rfl
  | cons part front ih => simp [layout, ih, Nat.add_assoc]

theorem contents_layout (before : List α) (list : List (Nat × List α)) :
    contents (before ++ list.flatMap (·.2)) (layout before.length list) = list := by
  induction list generalizing before with
  | nil => rfl
  | cons part rest ih =>
    have hrest := ih (before ++ part.2)
    rw [List.length_append, List.append_assoc] at hrest
    simp only [layout, contents, List.map_cons, List.flatMap_cons, Nat.add_sub_cancel_left]
    rw [List.drop_left, List.take_left]
    exact congrArg (part :: ·) hrest

section
variable {address} {level id : Nat} {rows : List α}

/-- Rows in order, all with one prefix. -/
structure Within (address : α → BitVec 32) (level id : Nat) (rows : List α) : Prop where
  sorted : rows.Pairwise (address · < address ·)
  named : ∀ row ∈ rows, prefixAt address level row = id

theorem prefixAt_succ (level : Nat) (row : α) :
    prefixAt address (level + 1) row = prefixAt address level row / 2 := by
  unfold prefixAt
  rw [Nat.div_div_eq_div_mul, pow_succ 2 level]

theorem Within.left (h : Within address (level + 1) id rows) : Within address level (id * 2)
    (rows.takeWhile fun row => prefixAt address level row < id * 2 + 1) := by
  refine ⟨h.sorted.sublist (List.takeWhile_sublist _), fun row hrow => ?_⟩
  have hname := h.named row ((List.takeWhile_sublist _).subset hrow)
  have hless := List.mem_takeWhile_imp hrow
  rw [decide_eq_true_eq] at hless
  rw [prefixAt_succ] at hname
  omega

theorem Within.right (h : Within address (level + 1) id rows) : Within address level (id * 2 + 1)
    (rows.dropWhile fun row => prefixAt address level row < id * 2 + 1) := by
  refine ⟨h.sorted.sublist (List.dropWhile_sublist _), ?_⟩
  obtain ⟨hsorted, hnamed⟩ := h
  induction rows with
  | nil => exact fun row hrow => absurd hrow List.not_mem_nil
  | cons first rest ih =>
    obtain ⟨hfirst, hrest⟩ := List.pairwise_cons.mp hsorted
    rw [List.dropWhile_cons]
    split
    · exact ih hrest fun row hrow => hnamed row (List.mem_cons_of_mem _ hrow)
    · rename_i hhigh
      rw [decide_eq_true_eq] at hhigh
      intro row hrow
      have hname := hnamed row hrow
      have hmono : prefixAt address level first ≤ prefixAt address level row := by
        refine Nat.div_le_div_right (Nat.add_le_add_left ?_ _)
        obtain rfl | hrow := List.mem_cons.mp hrow
        · exact le_rfl
        · exact Nat.le_of_lt (BitVec.lt_def.mp (hfirst row hrow))
      rw [prefixAt_succ] at hname
      omega

/-- In an interval of one address there is at most one row. -/
theorem Within.length_le (h : Within address 0 id rows) : rows.length ≤ maximumRows := by
  match rows, h with
  | [], _ => exact Nat.zero_le _
  | [_], _ => exact (by decide : 1 ≤ maximumRows)
  | first :: second :: _, h =>
    have hless := (List.pairwise_cons.mp h.sorted).1 second List.mem_cons_self
    have hsame := (h.named first List.mem_cons_self).trans
      (h.named second (List.mem_cons_of_mem _ List.mem_cons_self)).symm
    unfold prefixAt at hsame
    rw [BitVec.lt_def] at hless
    omega

variable (h : Within address level id rows)
include h

/-- No rows are no part, few rows are one, and more are those of both halves. -/
theorem parts_cases : (rows = [] ∧ parts address level rows id = []) ∨
      (rows ≠ [] ∧ rows.length ≤ maximumRows ∧ parts address level rows id = [(id, rows)]) ∨
      ∃ below left right, level = below + 1 ∧ left ++ right = rows ∧
        Within address below (id * 2) left ∧ Within address below (id * 2 + 1) right ∧
        parts address level rows id =
          parts address below left (id * 2) ++ parts address below right (id * 2 + 1) := by
  rw [parts.eq_def]
  split
  · rename_i hempty
    exact .inl ⟨List.isEmpty_iff.mp hempty, rfl⟩
  rename_i hrows
  rw [List.isEmpty_iff] at hrows
  split
  · rename_i hfew
    exact .inr (.inl ⟨hrows, hfew, rfl⟩)
  rename_i hmany
  cases level with
  | zero => exact absurd h.length_le hmany
  | succ below =>
    exact .inr (.inr ⟨below, _, _, rfl, List.takeWhile_append_dropWhile, h.left, h.right, rfl⟩)

theorem flatMap_parts : (parts address level rows id).flatMap (·.2) = rows := by
  induction level using Nat.strong_induction_on generalizing id rows with
  | _ level ih =>
  obtain ⟨rfl, hparts⟩ | ⟨-, -, hparts⟩ | ⟨below, left, right, rfl, rfl, hleft, hright, hparts⟩ :=
    parts_cases h
  · rw [hparts]
    rfl
  · simp [hparts]
  · rw [hparts, List.flatMap_append, ih below (Nat.lt_succ_self _) hleft,
      ih below (Nat.lt_succ_self _) hright]

/-- The recursion ends and lays the parts out. -/
theorem splitShards_eq {lower : Nat} (hlower : lower + 2 ^ 32 = id * 2 ^ level) (first : Nat) :
    splitShards address level rows first lower (lower + 2 ^ level) id =
      some (layout first (parts address level rows id)) := by
  induction level generalizing id rows lower first with
  | zero =>
    rw [splitShards, parts, if_pos h.length_le, if_pos h.length_le]
    split <;> rfl
  | succ level ih =>
    rw [splitShards, parts]
    split
    · rfl
    split
    · rfl
    have hpower : 2 ^ (level + 1) = 2 ^ level * 2 := pow_succ 2 level
    rw [hpower] at hlower
    have hmiddle : lower + (lower + 2 ^ (level + 1) - lower) / 2 = lower + 2 ^ level := by
      rw [hpower]
      omega
    have hupper : lower + 2 ^ (level + 1) = lower + 2 ^ level + 2 ^ level := by
      rw [hpower]
      omega
    have hbelow : lower + 2 ^ 32 = id * 2 * 2 ^ level := by
      rw [hlower]
      ring
    have habove : lower + 2 ^ level + 2 ^ 32 = (id * 2 + 1) * 2 ^ level := by
      rw [Nat.add_mul, ← hbelow]
      omega
    have hhalf : (fun row : α => decide ((address row).toNat < lower + 2 ^ level)) =
        fun row => decide (prefixAt address level row < id * 2 + 1) := by
      funext row
      rw [decide_eq_decide, prefixAt, Nat.div_lt_iff_lt_mul (Nat.two_pow_pos level), ← habove]
      omega
    dsimp only
    rw [hmiddle, hhalf, hupper, ih h.left hbelow, ih h.right habove, layout_append,
      flatMap_parts h.left]
    rfl

omit h

/-- Two halves of one prefix have no id below both. -/
theorem prefix_unique {name left right : Nat} (hid : 0 < id) (hleft : name / 2 ^ left = id * 2)
    (hright : name / 2 ^ right = id * 2 + 1) : False := by
  obtain ⟨gap, rfl⟩ | ⟨gap, rfl⟩ : (∃ gap, right = left + gap) ∨ ∃ gap, left = right + gap := by
    rcases Nat.le_total left right with h | h
    · exact .inl ⟨right - left, by omega⟩
    · exact .inr ⟨left - right, by omega⟩
  · rw [pow_add, ← Nat.div_div_eq_div_mul, hleft] at hright
    have hle := Nat.div_le_self (id * 2) (2 ^ gap)
    omega
  · rw [pow_add, ← Nat.div_div_eq_div_mul, hright] at hleft
    cases gap with
    | zero =>
      rw [pow_zero, Nat.div_one] at hleft
      omega
    | succ gap =>
      have hle : (id * 2 + 1) / 2 ^ (gap + 1) ≤ (id * 2 + 1) / 2 := by
        refine Nat.div_le_div_left ?_ Nat.two_pos
        exact Nat.le_self_pow (by omega) 2
      omega

/-- What holds of each part: its rows, how many, and the interval its id names below `id`. -/
structure Part (address : α → BitVec 32) (level id : Nat) (part : Nat × List α) : Prop where
  some : part.2 ≠ []
  few : part.2.length ≤ maximumRows
  named : ∃ depth ≤ level, part.1 / 2 ^ depth = id ∧
    ∀ row ∈ part.2, prefixAt address (level - depth) row = part.1

theorem Part.half {part : Nat × List α} {bit : Nat} (hbit : bit < 2)
    (h : Part address level (id * 2 + bit) part) : Part address (level + 1) id part := by
  obtain ⟨hrows, hfew, depth, hdepth, hbits, hnamed⟩ := h
  refine ⟨hrows, hfew, depth + 1, by omega, ?_, by rwa [Nat.add_sub_add_right]⟩
  rw [pow_succ, ← Nat.div_div_eq_div_mul, hbits]
  omega

theorem part_of_mem (h : Within address level id rows) :
    ∀ part ∈ parts address level rows id, Part address level id part := by
  induction level using Nat.strong_induction_on generalizing id rows with
  | _ level ih =>
  obtain ⟨-, hparts⟩ | ⟨hrows, hfew, hparts⟩ | ⟨below, left, right, rfl, -, hleft, hright, hparts⟩ :=
    parts_cases h
  · simp [hparts]
  · rw [hparts, List.forall_mem_singleton]
    exact ⟨hrows, hfew, 0, Nat.zero_le _, by rw [pow_zero, Nat.div_one], h.named⟩
  · rw [hparts, List.forall_mem_append]
    exact ⟨fun part hpart => .half Nat.two_pos (ih below (Nat.lt_succ_self _) hleft part hpart),
      fun part hpart => .half Nat.one_lt_two (ih below (Nat.lt_succ_self _) hright part hpart)⟩

theorem nodup_parts (h : Within address level id rows) (hid : 0 < id) :
    ((parts address level rows id).map (·.1)).Nodup := by
  induction level using Nat.strong_induction_on generalizing id rows with
  | _ level ih =>
  obtain ⟨-, hparts⟩ | ⟨-, -, hparts⟩ | ⟨below, left, right, rfl, -, hleft, hright, hparts⟩ :=
    parts_cases h
  · simp [hparts]
  · simp [hparts]
  rw [hparts, List.map_append]
  refine (ih below (Nat.lt_succ_self _) hleft (by omega)).append
    (ih below (Nat.lt_succ_self _) hright (by omega)) ?_
  intro name hbelow habove
  obtain ⟨part, hpart, rfl⟩ := List.mem_map.mp hbelow
  obtain ⟨other, hother, hsame⟩ := List.mem_map.mp habove
  obtain ⟨-, -, depth, -, hbits, -⟩ := part_of_mem hleft part hpart
  obtain ⟨-, -, depth', -, hbits', -⟩ := part_of_mem hright other hother
  rw [hsame] at hbits'
  exact prefix_unique hid hbits hbits'

/-- The name of the part begins with the prefix. -/
def Below (name : Nat) (part : Nat × List α) : Bool :=
  (List.range 33).any fun depth => part.1 / 2 ^ depth == name

/-- The rows whose address begins with the prefix. -/
def inside (address : α → BitVec 32) (level name : Nat) (rows : List α) : List α :=
  rows.filter fun row => prefixAt address level row == name

section
variable {depth name : Nat}

theorem prefixAt_add (level depth : Nat) (row : α) :
    prefixAt address (level + depth) row = prefixAt address level row / 2 ^ depth := by
  unfold prefixAt
  rw [Nat.div_div_eq_div_mul, pow_add]

/-- In the half that the prefix does not name there is nothing below it. -/
theorem nothing_below (h : Within address (level + depth) id rows) (hname : name / 2 ^ depth ≠ id)
    (hapart : ∀ whole high low, whole / 2 ^ high = name / 2 ^ depth → whole / 2 ^ low ≠ id) :
    inside address level name rows = [] ∧
      (parts address (level + depth) rows id).filter (Below name) = [] := by
  constructor
  · refine List.filter_eq_nil_iff.mpr fun row hrow hsame => hname ?_
    rw [← eq_of_beq hsame, ← prefixAt_add, h.named row hrow]
  · refine List.filter_eq_nil_iff.mpr fun part hpart hbelow => ?_
    obtain ⟨high, -, hhigh⟩ := List.any_eq_true.mp hbelow
    obtain ⟨-, -, low, -, hlow, -⟩ := part_of_mem h part hpart
    refine hapart part.1 (high + depth) low ?_ hlow
    rw [pow_add, ← Nat.div_div_eq_div_mul, eq_of_beq hhigh]

end

/-- Below a prefix with too many rows the parts are those of its rows alone. -/
theorem parts_below {depth name : Nat} (h : Within address (level + depth) id rows) (hid : 0 < id)
    (hlevel : level + depth ≤ 32) (hname : name / 2 ^ depth = id)
    (hmany : maximumRows < (inside address level name rows).length) :
    (parts address (level + depth) rows id).filter (Below name) =
      parts address level (inside address level name rows) name := by
  induction depth generalizing id rows with
  | zero =>
    rw [pow_zero, Nat.div_one] at hname
    subst hname
    have hall : inside address level name rows = rows :=
      List.filter_eq_self.mpr fun row hrow => beq_iff_eq.mpr (h.named row hrow)
    rw [hall]
    refine List.filter_eq_self.mpr fun part hpart => ?_
    obtain ⟨-, -, depth, hdepth, hbits, -⟩ := part_of_mem h part hpart
    exact List.any_eq_true.mpr ⟨depth, List.mem_range.mpr (by omega), beq_iff_eq.mpr hbits⟩
  | succ depth ih =>
    have hlength : (inside address level name rows).length ≤ rows.length :=
      List.length_filter_le _ _
    obtain ⟨rfl, -⟩ | ⟨-, hfew, -⟩ | ⟨below, left, right, hbelow, rfl, hleft, hright, hparts⟩ :=
      parts_cases h
    · exact absurd hmany (Nat.not_lt_zero _)
    · omega
    obtain rfl : below = level + depth := by omega
    rw [hparts, List.filter_append]
    have hsplit : inside address level name (left ++ right) =
        inside address level name left ++ inside address level name right := List.filter_append ..
    rw [hsplit] at hmany ⊢
    have hhalf : name / 2 ^ depth / 2 = id := by rw [Nat.div_div_eq_div_mul, ← pow_succ, hname]
    obtain hlow | hhigh : name / 2 ^ depth = id * 2 ∨ name / 2 ^ depth = id * 2 + 1 := by omega
    · obtain ⟨hnone, hnothing⟩ := nothing_below hright (by omega) fun whole high low hwhole hother =>
        prefix_unique hid (hwhole.trans hlow) hother
      rw [hnone, List.append_nil] at hmany ⊢
      rw [hnothing, List.append_nil]
      exact ih hleft (by omega) (by omega) hlow hmany
    · obtain ⟨hnone, hnothing⟩ := nothing_below hleft (by omega) fun whole high low hwhole hother =>
        prefix_unique hid hother (hwhole.trans hhigh)
      rw [hnone, List.nil_append] at hmany ⊢
      rw [hnothing, List.nil_append]
      exact ih hright (by omega) (by omega) hhigh hmany

theorem Part.above {part : Nat × List α} (h : Part address level id part) {name depth : Nat}
    (hname : name / 2 ^ depth = part.1) : ∃ depth, name / 2 ^ depth = id := by
  obtain ⟨-, -, low, -, hlow, -⟩ := h
  exact ⟨depth + low, by rw [pow_add, ← Nat.div_div_eq_div_mul, hname, hlow]⟩

/-- No name begins with the ids of two parts. -/
theorem parts_apart (h : Within address level id rows) (hid : 0 < id) {name depth depth' : Nat}
    {part other : Nat × List α} (hpart : part ∈ parts address level rows id)
    (hother : other ∈ parts address level rows id) (hname : name / 2 ^ depth = part.1)
    (hname' : name / 2 ^ depth' = other.1) : part = other := by
  induction level using Nat.strong_induction_on generalizing id rows with
  | _ level ih =>
  obtain ⟨-, hparts⟩ | ⟨-, -, hparts⟩ | ⟨below, left, right, rfl, -, hleft, hright, hparts⟩ :=
    parts_cases h
  · simp [hparts] at hpart
  · rw [hparts, List.mem_singleton] at hpart hother
    exact hpart.trans hother.symm
  rw [hparts, List.mem_append] at hpart hother
  rcases hpart with hpart | hpart <;> rcases hother with hother | hother
  · exact ih below (Nat.lt_succ_self _) hleft (by omega) hpart hother
  · obtain ⟨low, hlow⟩ := (part_of_mem hleft part hpart).above hname
    obtain ⟨high, hhigh⟩ := (part_of_mem hright other hother).above hname'
    exact (prefix_unique hid hlow hhigh).elim
  · obtain ⟨high, hhigh⟩ := (part_of_mem hright part hpart).above hname
    obtain ⟨low, hlow⟩ := (part_of_mem hleft other hother).above hname'
    exact (prefix_unique hid hlow hhigh).elim
  · exact ih below (Nat.lt_succ_self _) hright (by omega) hpart hother

end

/-- All rows of a table are within the whole address space, which the id one names. -/
theorem nativeDispatchShards_eq {address : α → BitVec 32} {blocks : List α}
    (hblocks : blocks.Pairwise (address · < address ·)) : Within address 32 1 blocks ∧
      nativeDispatchShards address blocks = .ok (layout 0 (parts address 32 blocks 1)) := by
  have hwithin : Within address 32 1 blocks := by
    refine ⟨hblocks, fun row _ => ?_⟩
    have hrow := (address row).isLt
    unfold prefixAt
    omega
  refine ⟨hwithin, ?_⟩
  unfold nativeDispatchShards
  split
  · rename_i hempty
    rw [parts, if_pos hempty]
    rfl
  · have hlower : 0 + 2 ^ 32 = 1 * 2 ^ 32 := by rw [Nat.zero_add, Nat.one_mul]
    have hall := splitShards_eq hwithin hlower 0
    rw [Nat.zero_add] at hall
    rw [if_neg (not_not.mpr hblocks.isChain), hall]

theorem contents_layout_parts {address : α → BitVec 32} {blocks : List α}
    (h : Within address 32 1 blocks) :
    contents blocks (layout 0 (parts address 32 blocks 1)) = parts address 32 blocks 1 := by
  have hlayout := contents_layout [] (parts address 32 blocks 1)
  rwa [flatMap_parts h] at hlayout

/-- The shards of a table lie one behind the other over all its rows, few enough and in the
interval that their id names, with different ids; and below a prefix with too many rows they
depend on the rows with that prefix alone. -/
theorem nativeDispatchShards_partition (address : α → BitVec 32) :
    (∀ blocks, blocks.Pairwise (address · < address ·) →
      ∃ shards, nativeDispatchShards address blocks = .ok shards ∧
        layout 0 (contents blocks shards) = shards ∧
        (contents blocks shards).flatMap (·.2) = blocks ∧
        (∀ part ∈ contents blocks shards, part.2 ≠ [] ∧ part.2.length ≤ 8192 ∧ part.1 < 2 ^ 33 ∧
          ∃ level ≤ 32, ∀ row ∈ part.2, prefixAt address level row = part.1) ∧
        ((contents blocks shards).map (·.1)).Nodup) ∧
    ∀ first second, first.Pairwise (address · < address ·) →
      second.Pairwise (address · < address ·) → ∀ level ≤ 32, ∀ name, name / 2 ^ (32 - level) = 1 →
        inside address level name first = inside address level name second →
        8192 < (inside address level name first).length →
        ∀ shards shards', nativeDispatchShards address first = .ok shards →
          nativeDispatchShards address second = .ok shards' →
          (contents first shards).filter (Below name) =
            (contents second shards').filter (Below name) := by
  constructor
  · intro blocks hblocks
    obtain ⟨hwithin, hshards⟩ := nativeDispatchShards_eq hblocks
    refine ⟨_, hshards, ?_⟩
    rw [contents_layout_parts hwithin]
    refine ⟨rfl, flatMap_parts hwithin, fun part hpart => ?_, nodup_parts hwithin Nat.one_pos⟩
    obtain ⟨hsome, hfew, depth, hdepth, hbits, hnamed⟩ := part_of_mem hwithin part hpart
    refine ⟨hsome, hfew, ?_, 32 - depth, Nat.sub_le _ _, hnamed⟩
    have hpower : 2 ^ depth ≤ 2 ^ 32 := Nat.pow_le_pow_right Nat.two_pos hdepth
    have hless := Nat.lt_mul_div_succ part.1 (Nat.two_pow_pos depth)
    rw [hbits] at hless
    omega
  · intro first second hfirst hsecond level hlevel name hname hsame hmany shards shards'
      hshards hshards'
    have hbelow : ∀ blocks, blocks.Pairwise (address · < address ·) →
        8192 < (inside address level name blocks).length →
        ∀ found, nativeDispatchShards address blocks = .ok found →
          (contents blocks found).filter (Below name) =
            parts address level (inside address level name blocks) name := by
      intro blocks hblocks hmany found hfound
      obtain ⟨hwithin, heq⟩ := nativeDispatchShards_eq hblocks
      rw [heq] at hfound
      obtain rfl := Except.ok.inj hfound
      rw [contents_layout_parts hwithin]
      obtain ⟨depth, hdepth⟩ : ∃ depth, 32 = level + depth := ⟨32 - level, by omega⟩
      rw [show 32 - level = depth by omega] at hname
      rw [hdepth] at hwithin ⊢
      exact parts_below hwithin Nat.one_pos (by omega) hname hmany
    rw [hbelow first hfirst hmany shards hshards,
      hbelow second hsecond (hsame ▸ hmany) shards' hshards', hsame]

/-- More rows than one shard takes. -/
def manyRows : List (BitVec 32) := (List.range 9000).map (BitVec.ofNat 32)

theorem pairwise_manyRows : manyRows.Pairwise (id · < id ·) := by
  refine List.pairwise_map.mpr (List.pairwise_lt_range.imp_of_mem fun hfirst hsecond hlt => ?_)
  rw [List.mem_range] at hfirst hsecond
  simp only [id, BitVec.lt_def, BitVec.toNat_ofNat]
  omega

theorem nativeDispatchShards_partition_many : ∃ shards,
    nativeDispatchShards id manyRows = .ok shards ∧ layout 0 (contents manyRows shards) = shards ∧
      ∀ part ∈ contents manyRows shards, part.2.length ≤ 8192 := by
  obtain ⟨shards, hshards, hlayout, -, hparts, -⟩ :=
    (nativeDispatchShards_partition id).1 manyRows pairwise_manyRows
  exact ⟨shards, hshards, hlayout, fun part hpart => (hparts part hpart).2.1⟩

/-- The leading bits of an address name at most one shard, whichever of them are taken, and those
of a row the shard that has the row. -/
theorem nativeDispatchShards_route {α : Type} (address : α → BitVec 32) {blocks : List α}
    (hblocks : blocks.Pairwise (address · < address ·)) {shards : List NativeDispatchShard}
    (hshards : nativeDispatchShards address blocks = .ok shards) :
    (∀ name depth depth', ∀ part ∈ contents blocks shards, ∀ other ∈ contents blocks shards,
      name / 2 ^ depth = part.1 → name / 2 ^ depth' = other.1 → part = other) ∧
    ∀ row ∈ blocks, ∀ level, ∀ part ∈ contents blocks shards,
      prefixAt address level row = part.1 → row ∈ part.2 := by
  obtain ⟨hwithin, heq⟩ := nativeDispatchShards_eq hblocks
  obtain rfl := Except.ok.inj (hshards.symm.trans heq)
  rw [contents_layout_parts hwithin]
  refine ⟨fun name depth depth' part hpart other hother hname hname' =>
    parts_apart hwithin Nat.one_pos hpart hother hname hname',
    fun row hrow level part hpart hname => ?_⟩
  rw [← flatMap_parts hwithin, List.mem_flatMap] at hrow
  obtain ⟨other, hother, hrow⟩ := hrow
  obtain ⟨-, -, depth, -, -, hnamed⟩ := part_of_mem hwithin other hother
  rwa [parts_apart hwithin Nat.one_pos hpart hother hname (hnamed row hrow)]

theorem nativeDispatchShards_route_many : ∃ shards,
    nativeDispatchShards id manyRows = .ok shards ∧
      ∀ level, ∀ part ∈ contents manyRows shards,
        prefixAt id level (8999 : BitVec 32) = part.1 → 8999 ∈ part.2 := by
  have hshards := (nativeDispatchShards_eq pairwise_manyRows).2
  refine ⟨_, hshards, (nativeDispatchShards_route id pairwise_manyRows hshards).2 _ ?_⟩
  exact List.mem_map.mpr ⟨8999, List.mem_range.mpr (by omega), rfl⟩

end KatanaRecomp.Codegen.DispatchShards
